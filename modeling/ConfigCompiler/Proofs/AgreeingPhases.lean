import ConfigCompiler.Proofs.LockstepPhases

/-!
# Phases that agree

A whole compilation is followed with two tables at once, by one resolver.  This is
lockstep between a resolver and itself, with a relation of tables that does not look at the
draft.

**Results.**
* `Alike.tracks`: tables that are alike for the entries that a compilation may give are
  tracked.
* `agrees_build`, `agrees_finalizeResources`: both phases agree, and keep the draft
  stemming from the store.
* `agrees_compile`: a compilation agrees if the entries it may give are answered for
  alike.
-/

namespace ConfigCompiler

open Resolution

variable {r : Resolver} {store : EntryStore} {d : Draft}
variable {P : AttachmentKind → String → Options → Prop}
variable {R : SchemaTables → SchemaTables → Prop}

/-- Tables that are alike for the entries that a compilation may give are tracked. -/
theorem Alike.tracks (hR : Alike r P R)
    (hP : ∀ kind name entry, Gives r store kind name entry → P kind name entry) :
    Tracks r r.policy store (fun _ => R) where
  kind := fun h kind => hR.kind _ _ h kind
  afterKind := fun h kind => hR.afterKind _ _ h kind
  attachment := fun h _ _ _ _ hgives => hR.attachment _ _ h _ _ _ (hP _ _ _ hgives)
  afterAttachment := fun h _ _ _ _ hgives => hR.afterAttachment _ _ h _ _ _ (hP _ _ _ hgives)
  widen := fun h _ => h

/-- A question that goes in lockstep with itself agrees. -/
theorem InStep.agrees {α : Type} {D : α → Draft} {x : Resolution α}
    (h : InStep r store (fun _ => R) d D x x) (hstems : Stems r store d) :
    Agrees R (fun a => Stems r store (D a)) x := by
  intro t u hR
  have hI : Tracked r store (fun _ => R) d t u := ⟨hstems, hR⟩
  refine ⟨Lockstep.answer_eq h hI,
    Lockstep.tables h hI (fun _ _ ⟨_, hR⟩ => hR) (fun _ _ _ hI => hI.2), fun a ha => ?_⟩
  obtain ⟨t', hreturns⟩ := returns_of_answer ha
  obtain ⟨u', -, hlast⟩ := Lockstep.of_returns h hI hreturns
  exact hlast.1

namespace Draft

theorem agrees_resolveResource (hR : Alike r P R) (key : String) (raw : Options)
    (namespaces permissions : SortedMap Options) :
    Agrees R (fun _ => True) (r.resolveResource key raw namespaces permissions) := by
  refine (hR.resolveEntry .resource key raw).bind (fun resolved _ _ _ _ => ?_)
  refine Agrees.bind (Q := fun _ => True) (Agrees.lift (fun _ _ => trivial))
    (fun _ _ _ _ _ => ?_)
  exact Agrees.bind (Q := fun _ => True) (Agrees.lift (fun _ _ => trivial))
    (fun _ _ _ _ _ => Agrees.pure trivial)

variable (hR : Alike r P R)
variable (hP : ∀ kind name entry, Gives r store kind name entry → P kind name entry)
include hR hP

/-- The first phase agrees. -/
theorem agrees_build : Agrees R (Stems r store) (build r store) :=
  InStep.agrees (hR.tracks hP).build (Stems.start r store _)

theorem agrees_finalizeResources (h : Stems r store d) :
    Agrees R (Stems r store) (d.finalizeResources r) :=
  InStep.agrees ((hR.tracks hP).finalizeResources d) h

end Draft

/-- A compilation agrees if the entries that it may give are answered for alike. -/
theorem agrees_compile (hR : Alike r P R)
    (hP : ∀ kind name entry, Gives r store kind name entry → P kind name entry)
    (time : Timestamp) : Agrees R (fun _ => True) (compile r time store) := by
  intro t u h
  have hsame := (hR.tracks hP).compile time
  exact ⟨hsame.answer_eq h, hsame.tables h (fun _ _ ⟨_, h⟩ => h) (fun _ _ _ ⟨_, h⟩ => h),
    fun _ _ => trivial⟩

end ConfigCompiler
