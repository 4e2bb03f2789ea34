import ConfigCompiler.Proofs.Passes

/-!
# What the second phase keeps

All that the second phase does to a draft and to the tables comes down to three things: a
type is discovered, a resource gets other options, and the schema of an attachment is kept.
What these keep, the whole phase keeps.

**Input.**  `Lasting r P`: the property `P` of drafts and tables survives discoveries and
questions about attachments.  `LastingPut P`: it survives other options of a resource.

**Results.**
* `Lasting.canonicalName`, `Lasting.takeAttachment`, `Lasting.expandBuilder`,
  `Lasting.contributeActions`: the property survives while attachments are collected.
* `Lasting.normalizeAttachments`, `Lasting.finalizeActions`: it survives each step.
* `Lasting.finalizeResources`: it survives the second phase.
-/

namespace ConfigCompiler
namespace Draft

open Resolution

/-- A property survives discoveries and questions about attachments. -/
structure Lasting (r : Resolver) (P : Draft → SchemaTables → Prop) : Prop where
  /-- A registered type is discovered under a key that leads nowhere. -/
  discover : ∀ kind key d t name d' t', P d t → (d.attachable kind).canonical? key = none →
    r.catalog.hasType (AttachmentKind.kind kind) key = true →
    (d.discover r kind key).Returns t (name, d') t' → P d' t'
  /-- The schema of an attachment is asked for. -/
  ask : ∀ kind name entry d t, P d t → P d (r.tablesAfter t kind name entry)

/-- A property survives other options of a resource. -/
def LastingPut (P : Draft → SchemaTables → Prop) : Prop :=
  ∀ d t name config, P d t → P (d.putResource name config) t

namespace Lasting

variable {r : Resolver} {P : Draft → SchemaTables → Prop} {d d' : Draft}
variable {t t' : SchemaTables} {kind : AttachmentKind} {resource origin key name : String}
variable {state state' : Attachments × Draft}

section Collecting

variable (hP : Lasting r P)
include hP

theorem canonicalName (h : P d t)
    (hname : (d.canonicalName r kind resource key).Returns t (name, d') t') : P d' t' := by
  unfold Draft.canonicalName at hname
  split at hname
  · obtain ⟨heq, rfl⟩ := returns_pure.1 hname
    rw [(Prod.mk.inj heq).2]
    exact h
  · next hnone =>
      split at hname
      · next htype => exact hP.discover kind key d t name d' t' h hnone htype hname
      · exact (returns_throw.1 hname).elim

theorem resolveAttachment {entry raw options : Options} (h : P d t)
    (hask : (r.resolveAttachment kind resource name entry raw).Returns t options t') :
    P d t' := by
  rw [(Resolver.returns_resolveAttachment.1 hask).2]
  exact hP.ask kind name entry d t h

theorem takeAttachment {item : String × Options} (h : P state.2 t)
    (hstep : (takeAttachment r kind resource state item).Returns t state' t') :
    P state'.2 t' := by
  obtain ⟨name, d', hname, rfl⟩ := takeAttachment_returns hstep
  exact hP.canonicalName h hname

theorem takeEmitted {item : String × Options} (h : P state.2 t)
    (hstep : (takeEmitted r resource origin state item).Returns t state' t') :
    P state'.2 t' := by
  obtain ⟨name, d', hname, -, rfl⟩ := takeEmitted_returns hstep
  exact hP.canonicalName h hname

theorem expandBuilder {config : Options} {b : AttachedBuilder} (h : P state.2 t)
    (hstep : (expandBuilder r resource config state b).Returns t state' t') :
    P state'.2 t' := by
  obtain ⟨options, emitted, t₁, hask, -, hfold⟩ := expandBuilder_returns hstep
  exact hfold.foldlM_induction (P := fun state t => P state.2 t)
    (fun _ _ _ _ _ _ hs hemit => hP.takeEmitted hs hemit) (hP.resolveAttachment h hask)

theorem takeContributed {item : String × Options} (h : P state.2 t)
    (hstep : (takeContributed r resource origin state item).Returns t state' t') :
    P state'.2 t' := by
  obtain ⟨name, d', entry, options, t₁, hname, -, -, hask, rfl⟩ :=
    takeContributed_returns hstep
  exact hP.resolveAttachment (hP.canonicalName h hname) hask

theorem contributeActions {config : Options} {behavior : String × Options} (h : P state.2 t)
    (hstep : (contributeActions r resource config state behavior).Returns t state' t') :
    P state'.2 t' := by
  obtain ⟨rfl, rfl⟩ | ⟨entry, type, contributed, -, -, -, hfold⟩ :=
    contributeActions_returns hstep
  · exact h
  · exact hfold.foldlM_induction (P := fun state t => P state.2 t)
      (fun _ _ _ _ _ _ hs htake => hP.takeContributed hs htake) h

end Collecting

section Steps

variable (hP : Lasting r P) (hput : LastingPut P)
include hP hput

theorem normalizeAttachments (h : P d t)
    (hstep : (d.normalizeAttachments r kind resource).Returns t d' t') : P d' t' := by
  obtain ⟨state, hfold, rfl⟩ := normalizeAttachments_returns hstep
  refine hput _ _ _ _ ?_
  exact hfold.foldlM_induction (P := fun state t => P state.2 t)
    (fun _ _ _ _ _ _ hs htake => hP.takeAttachment hs htake) h

theorem resolveAttachments (h : P d t)
    (hstep : (d.resolveAttachments r kind resource).Returns t d' t') : P d' t' := by
  obtain ⟨attached, t₁, hmap, hlast⟩ := returns_bind.1 hstep
  obtain ⟨rfl, rfl⟩ := returns_pure.1 hlast
  refine hput _ _ _ _ (hmap.mapM_induction (P := P d)
    (fun name bag _ t₁ options t₂ ht₁ hask => ?_) h).1
  obtain ⟨entry, t₃, hentry, hresolve⟩ := returns_bind.1 hask
  obtain ⟨-, rfl⟩ := returns_lift.1 hentry
  exact hP.resolveAttachment ht₁ hresolve

theorem autoAttachBehaviors (h : P d t)
    (hstep : (d.autoAttachBehaviors r resource).Returns t d' t') : P d' t' := by
  obtain ⟨attached, hfold, rfl⟩ := autoAttachBehaviors_returns hstep
  refine hput _ _ _ _ (hfold.foldlM_induction (P := fun _ t => P d t)
    (fun behavior _ a t₁ a' t₂ ht₁ hattach => ?_) h)
  obtain ⟨-, -, rfl⟩ | ⟨-, -, options, -, hresolve⟩ := autoAttach_returns hattach
  · exact ht₁
  · exact hP.resolveAttachment ht₁ hresolve

theorem expandBuilders (h : P d t)
    (hstep : (d.expandBuilders r resource).Returns t d' t') : P d' t' := by
  obtain ⟨plain, builders, state, -, hfold, rfl⟩ := expandBuilders_returns hstep
  refine hput _ _ _ _ ?_
  exact hfold.foldlM_induction (P := fun state t => P state.2 t)
    (fun _ _ _ _ _ _ hs hexpand => hP.expandBuilder hs hexpand) h

theorem applyBehaviors (h : P d t)
    (hstep : (d.applyBehaviors r resource).Returns t d' t') : P d' t' := by
  obtain ⟨state, hfold, rfl⟩ := applyBehaviors_returns hstep
  refine hput _ _ _ _ ?_
  exact hfold.foldlM_induction (P := fun state t => P state.2 t)
    (fun _ _ _ _ _ _ hs hcontribute => hP.contributeActions hs hcontribute) h

theorem finalizeActions (h : P d t)
    (hstep : (d.finalizeActions r resource).Returns t d' t') : P d' t' := by
  obtain ⟨d₁, t₁, d₂, t₂, d₃, t₃, hnames, hexpand, hresolve, hcontribute⟩ :=
    finalizeActions_returns hstep
  have h₁ : P d₁ t₁ := hP.normalizeAttachments hput h hnames
  have h₂ : P d₂ t₂ := hP.expandBuilders hput h₁ hexpand
  have h₃ : P d₃ t₃ := hP.resolveAttachments hput h₂ hresolve
  exact hP.applyBehaviors hput h₃ hcontribute

/-- What discoveries, questions and other options of resources keep, the second phase
keeps. -/
theorem finalizeResources (h : P d t) (hphase : (d.finalizeResources r).Returns t d' t') :
    P d' t' := by
  unfold Draft.finalizeResources at hphase
  obtain ⟨d₁, t₁, hnames, hrest⟩ := returns_bind.1 hphase
  obtain ⟨d₂, t₂, hresolve, hrest⟩ := returns_bind.1 hrest
  obtain ⟨d₃, t₃, hattach, hrest⟩ := returns_bind.1 hrest
  obtain ⟨d₄, t₄, hactions, hpermissions⟩ := returns_bind.1 hrest
  have h₁ : P d₁ t₁ := hnames.foldlM_induction (P := P)
    (fun _ _ _ _ _ _ hd hstep => hP.normalizeAttachments hput hd hstep) h
  have h₂ : P d₂ t₂ := hresolve.foldlM_induction (P := P)
    (fun _ _ _ _ _ _ hd hstep => hP.resolveAttachments hput hd hstep) h₁
  have h₃ : P d₃ t₃ := hattach.foldlM_induction (P := P)
    (fun _ _ _ _ _ _ hd hstep => hP.autoAttachBehaviors hput hd hstep) h₂
  have h₄ : P d₄ t₄ := hactions.foldlM_induction (P := P)
    (fun _ _ _ _ _ _ hd hstep => hP.finalizeActions hput hd hstep) h₃
  refine hpermissions.foldlM_induction (P := P) (fun name _ d t d' t' hd hstep => ?_) h₄
  obtain ⟨hlift, rfl⟩ := returns_lift.1 hstep
  obtain ⟨required, -, rfl⟩ := propagatePermissions_eq_ok hlift
  exact hput _ _ _ _ hd

end Steps

end Lasting

/-- What is stored stays stored. -/
theorem lasting_widens (r : Resolver) (d : Draft) : Lasting r (fun d' _ => Widens d d') where
  discover := fun _ _ _ _ _ _ _ h _ _ hdiscover =>
    h.trans (Advance.discover hdiscover).1.changes.extends_attachable
  ask := fun _ _ _ _ _ h => h

theorem lastingPut_widens (d : Draft) : LastingPut (fun d' _ => Widens d d') :=
  fun d' _ name config h => h.trans (widens_putResource d' name config)

end Draft
end ConfigCompiler
