import ConfigCompiler.Proofs.Discoveries
import ConfigCompiler.Proofs.SecondPhase

/-!
# Whom an alias belongs to

A key that leads to a stored name after the first phase is looked up many times in the
second: where a resource attaches it, where a builder emits it and where a behavior
contributes it.  In between types are discovered and stored under names of their own.

**Relation.**  `KeyAsked r d t kind resource key d' t'`: in the second phase of the draft
`d` a key is looked up for a resource, in the draft `d'`.  The runs that fail later are
included.

**Results.**
* `KeyAsked.lasting`, `KeyAsked.extends`: what is kept up to where a key is looked up; in
  particular entries and aliases have only been added.
* `alias_ownership`: a key keeps its owner exactly as long as no entry is stored under
  the key itself.
* `export_changes_owner`: a discovered type takes an alias away from its owner.
-/

namespace ConfigCompiler
namespace Draft

/-- In the second phase of `d` the actions of a resource are begun in the draft `d'`. -/
def ActionsBegun (r : Resolver) (d : Draft) (t : SchemaTables) (resource : String)
    (d' : Draft) (t' : SchemaTables) : Prop :=
  ∃ d₁ t₁, (d.settleBehaviors r).Returns t d₁ t₁ ∧
    Resolution.Visits (finalizeActions r) d₁ t₁ d.sets.resources.names resource d' t'

/-- In the second phase of `d` a key is looked up for a resource, in the draft `d'`. -/
inductive KeyAsked (r : Resolver) (d : Draft) (t : SchemaTables) :
    AttachmentKind → String → String → Draft → SchemaTables → Prop
  /-- A resource attaches a behavior under the key. -/
  | attachedBehavior {resource key : String} {d₁ d' : Draft} {t₁ t' : SchemaTables}
      (hpass : Resolution.Visits (normalizeAttachments r .behavior) d t
        d.sets.resources.names resource d₁ t₁)
      (hkey : KeyMet r .behavior d₁ t₁ resource key d' t') :
      KeyAsked r d t .behavior resource key d' t'
  /-- A resource attaches an action under the key. -/
  | attachedAction {resource key : String} {d₁ d' : Draft} {t₁ t' : SchemaTables}
      (hbegun : ActionsBegun r d t resource d₁ t₁)
      (hkey : KeyMet r .action d₁ t₁ resource key d' t') :
      KeyAsked r d t .action resource key d' t'
  /-- A builder that the resource attaches emits an action under the key. -/
  | emitted {resource key : String} {d₁ d₂ d' : Draft} {t₁ t₂ t₃ t₄ t' : SchemaTables}
      {plain emitted attached : Attachments} {builders : List AttachedBuilder}
      {b : AttachedBuilder} {state : Attachments × Draft} {options bag : Options}
      (hbegun : ActionsBegun r d t resource d₁ t₁)
      (hnormalize : (d₁.normalizeAttachments r .action resource).Returns t₁ d₂ t₂)
      (hpart : d₂.partActions r.catalog resource (d₂.resource resource) =
        .ok (plain, builders))
      (hbuilder : Resolution.Visits (expandBuilder r resource (d₂.resource resource))
        (plain, d₂) t₂ builders b state t₃)
      (hoptions : (r.resolveAttachment .action resource b.name b.entry b.options).Returns
        t₃ options t₄)
      (hbuild : b.build (withAttachments (d₂.resource resource) .action state.1) options =
        .ok emitted)
      (hkey : Resolution.Visits (takeEmitted r resource b.name) state t₄
        emitted.entries (key, bag) (attached, d') t') :
      KeyAsked r d t .action resource key d' t'
  /-- A behavior of the resource contributes an action under the key. -/
  | contributed {resource key : String} {d₁ d₂ d₃ d₄ d' : Draft}
      {t₁ t₂ t₃ t₄ t₅ t' : SchemaTables} {behavior : String × Options}
      {state : Attachments × Draft} {type : BehaviorType}
      {contributed attached : Attachments} {entry bag : Options}
      (hbegun : ActionsBegun r d t resource d₁ t₁)
      (hnormalize : (d₁.normalizeAttachments r .action resource).Returns t₁ d₂ t₂)
      (hexpand : (d₂.expandBuilders r resource).Returns t₂ d₃ t₃)
      (hresolve : (d₃.resolveAttachments r .action resource).Returns t₃ d₄ t₄)
      (hbehavior : Resolution.Visits (contributeActions r resource (d₄.resource resource))
        (attachmentsOf (d₄.resource resource) .action, d₄) t₄
        (attachmentsOf (d₄.resource resource) .behavior).entries behavior state t₅)
      (hentry : state.2.attachedEntry .behavior resource behavior.1 = .ok entry)
      (htype : behaviorTypeOf? r.catalog entry = some type)
      (hbuild : type.build state.1 (withAttachments (d₄.resource resource) .action state.1)
        behavior.2 = .ok contributed)
      (hkey : Resolution.Visits (takeContributed r resource behavior.1) state t₅
        contributed.entries (key, bag) (attached, d') t') :
      KeyAsked r d t .action resource key d' t'

variable {r : Resolver} {d d' : Draft} {t t' : SchemaTables}
variable {kind : AttachmentKind} {resource key name : String}

/-- Up to the actions of a resource the draft has only advanced. -/
theorem ActionsBegun.advance (h : ActionsBegun r d t resource d' t') :
    Advance r [.behavior, .action] d.sets.resources.names ["behaviors", "actions"]
        d t d' t' ∧
      d'.sets.resources.configs.contains resource = true := by
  obtain ⟨d₁, t₁, hsettle, hvisit⟩ := h
  obtain ⟨hadvance, -⟩ := Advance.settleBehaviors hsettle
  obtain ⟨hadvance', -, -⟩ :=
    Advance.visit (finalizeActions_steps r _) hadvance.stored trivial (nodup_names d) hvisit
  refine ⟨(hadvance.mono (by simp) (List.Subset.refl _) (by simp)).trans
    (hadvance'.mono (by simp) (List.Subset.refl _) (by simp)), ?_⟩
  rw [hadvance'.changes.stored_eq]
  exact hadvance.stored resource hvisit.mem

section Lasting

variable {P : Draft → SchemaTables → Prop} (hP : Lasting r P) (hput : LastingPut P)
include hP hput

theorem ActionsBegun.lasting (h : P d t) (hbegun : ActionsBegun r d t resource d' t') :
    P d' t' := by
  obtain ⟨d₁, t₁, hsettle, hvisit⟩ := hbegun
  unfold settleBehaviors declareBehaviors at hsettle
  obtain ⟨d₂, t₂, hdeclare, hattach⟩ := Resolution.returns_bind.1 hsettle
  obtain ⟨d₃, t₃, hnames, hresolve⟩ := Resolution.returns_bind.1 hdeclare
  have h₃ : P d₃ t₃ := hnames.foldlM_induction (P := P)
    (fun _ _ _ _ _ _ hd hstep => hP.normalizeAttachments hput hd hstep) h
  have h₂ : P d₂ t₂ := hresolve.foldlM_induction (P := P)
    (fun _ _ _ _ _ _ hd hstep => hP.resolveAttachments hput hd hstep) h₃
  have h₁ : P d₁ t₁ := hattach.foldlM_induction (P := P)
    (fun _ _ _ _ _ _ hd hstep => hP.autoAttachBehaviors hput hd hstep) h₂
  exact hvisit.induction (P := P)
    (fun _ _ _ _ _ _ hd hstep => hP.finalizeActions hput hd hstep) h₁

omit hput in
theorem KeyMet.lasting (h : P d t) (hmet : KeyMet r kind d t resource key d' t') : P d' t' := by
  obtain ⟨bag, attached, hvisit⟩ := hmet
  exact hvisit.induction (P := fun state t => P state.2 t)
    (fun _ _ _ _ _ _ hs hstep => hP.takeAttachment hs hstep) h

/-- What discoveries, questions and other options of resources keep holds wherever a key is
looked up. -/
theorem KeyAsked.lasting (h : P d t) (hasked : KeyAsked r d t kind resource key d' t') :
    P d' t' := by
  cases hasked with
  | attachedBehavior hpass hkey =>
      exact hkey.lasting hP (hpass.induction (P := P)
        (fun _ _ _ _ _ _ hd hstep => hP.normalizeAttachments hput hd hstep) h)
  | attachedAction hbegun hkey => exact hkey.lasting hP (hbegun.lasting hP hput h)
  | emitted hbegun hnormalize hpart hbuilder hoptions hbuild hkey =>
      have hnormalized := hP.normalizeAttachments hput (hbegun.lasting hP hput h) hnormalize
      have hexpanded := hbuilder.induction (P := fun state t => P state.2 t)
        (fun _ _ _ _ _ _ hs hstep => hP.expandBuilder hs hstep) hnormalized
      exact hkey.induction (P := fun state t => P state.2 t)
        (fun _ _ _ _ _ _ hs hstep => hP.takeEmitted hs hstep)
        (hP.resolveAttachment hexpanded hoptions)
  | contributed hbegun hnormalize hexpand hresolve hbehavior hentry htype hbuild hkey =>
      have hnormalized := hP.normalizeAttachments hput (hbegun.lasting hP hput h) hnormalize
      have hexpanded := hP.expandBuilders hput hnormalized hexpand
      have hresolved := hP.resolveAttachments hput hexpanded hresolve
      have hcontributed := hbehavior.induction (P := fun state t => P state.2 t)
        (fun _ _ _ _ _ _ hs hstep => hP.contributeActions hs hstep) hresolved
      exact hkey.induction (P := fun state t => P state.2 t)
        (fun _ _ _ _ _ _ hs hstep => hP.takeContributed hs hstep) hcontributed

end Lasting

/-- Wherever a key is looked up, entries and aliases have only been added. -/
theorem KeyAsked.extends (h : KeyAsked r d t kind resource key d' t')
    (other : AttachmentKind) : (d.attachable other).Extends (d'.attachable other) :=
  h.lasting (lasting_widens r d) (lastingPut_widens d) (Widens.refl d) other

/-- A compiled configuration holds everything its draft held. -/
theorem extends_of_finalize {time : Timestamp} {compiled : Compiled}
    (h : (d.finalize r time).Returns t (compiled, d') t') (kind : AttachmentKind) :
    (d.attachable kind).Extends (compiled.sets.get kind.kind) := by
  obtain ⟨hsets, t₁, hresources⟩ := finalize_returns h
  rw [hsets]
  exact (lasting_widens r d).finalizeResources (lastingPut_widens d) (Widens.refl d)
    hresources kind

/-- A key that leads to a name keeps its owner in the second phase exactly as long as no
entry is stored under the key itself; from then on it leads to that entry.  Nothing
else changes what the key leads to, wherever it is looked up and in the end. -/
theorem alias_ownership (r : Resolver) (time : Timestamp) (t : SchemaTables)
    (hkey : (d.attachable kind).canonical? key = some name) :
    (∀ resource d' t', KeyAsked r d t kind resource key d' t' →
      (d'.canonicalName r kind resource key).ask t' =
        (.ok (if (d'.attachable kind).configs.contains key then key else name, d'), t')) ∧
    ∀ compiled d' t', (d.finalize r time).Returns t (compiled, d') t' →
      (compiled.sets.get kind.kind).canonical? key =
        some (if (compiled.sets.get kind.kind).configs.contains key then key else name) := by
  constructor
  · intro resource d' t' hasked
    exact ask_canonicalName ((hasked.extends kind).canonical?_eq hkey)
  · intro compiled d' t' h
    exact (extends_of_finalize h kind).canonical?_eq hkey

namespace Archive

def resolver : Resolver :=
  Resolver.ofCatalog ((Catalog.empty.registerAction { name := "archive::Save" }).registerAction
    { name := "archive::ExportAction" })

/-- The action `save` was declared under the key `export`.  A resource attaches it under this
key, and also attaches a registered type whose own short name is `export`. -/
def entries : EntryTable where
  permissions := ∅
  actions := SortedMap.singleton "export" (SortedMap.ofList [
    ("class", .string "archive::Save"), ("name", .string "save")])
  behaviors := ∅
  namespaces := SortedMap.singleton "archive" ∅
  resources := SortedMap.singleton "report" (SortedMap.ofList [
    ("entity", .string "Report"), ("namespace", .string "archive"),
    ("actions", .object (SortedMap.ofList [
      ("export", .object ∅), ("archive::ExportAction", .object ∅)]))])

/-- Both phases, with the draft between them. -/
def run : Resolution (Draft × Compiled × Draft) := do
  let d ← build resolver ⟨resolver.catalog, entries⟩
  let result ← d.finalize resolver ⟨0, 0, 0⟩
  return (d, result)

end Archive

/-- Before the second phase the key leads to its owner, afterwards to the new entry, which
the report attaches in place of the owner. -/
theorem archive_run :
    ∃ d t₁ compiled d' t₂,
      (build Archive.resolver ⟨Archive.resolver.catalog, Archive.entries⟩).Returns
        .empty d t₁ ∧
      (d.finalize Archive.resolver ⟨0, 0, 0⟩).Returns t₁ (compiled, d') t₂ ∧
      (d.attachable .action).canonical? "export" = some "save" ∧
      (compiled.sets.get .action).canonical? "export" = some "export" ∧
      (attachmentsOf (d'.resource "report") .action).keys = ["export"] := by
  obtain ⟨⟨d, compiled, d'⟩, t₂, h, htest⟩ := Resolution.returns_of_any
    (x := Archive.run) (t := .empty)
    (p := fun result =>
      (result.1.attachable .action).canonical? "export" == some "save" &&
        ((result.2.1.sets.get .action).canonical? "export" == some "export" &&
          (attachmentsOf (result.2.2.resource "report") .action).keys == ["export"]))
    (by decide +kernel)
  obtain ⟨d₁, t₁, hbuild, hrest⟩ := Resolution.returns_bind.1 h
  obtain ⟨result, t₃, hfinal, hlast⟩ := Resolution.returns_bind.1 hrest
  obtain ⟨heq, rfl⟩ := Resolution.returns_pure.1 hlast
  obtain ⟨rfl, rfl⟩ := Prod.mk.inj heq
  simp only [Bool.and_eq_true, beq_iff_eq] at htest
  exact ⟨d, t₁, compiled, d', t₂, hbuild, hfinal, htest.1, htest.2.1, htest.2.2⟩

/-- A discovered type takes an alias away from the entry that held it, and the key is
rewritten to another name. -/
theorem export_changes_owner :
    ∃ d t₁ compiled d' t₂,
      (build Archive.resolver ⟨Archive.resolver.catalog, Archive.entries⟩).Returns
        .empty d t₁ ∧
      (d.finalize Archive.resolver ⟨0, 0, 0⟩).Returns t₁ (compiled, d') t₂ ∧
      (d.attachable .action).canonical? "export" = some "save" ∧
      (compiled.sets.get .action).canonical? "export" ≠ some "save" ∧
      "save" ∉ (attachmentsOf (d'.resource "report") .action).keys := by
  obtain ⟨d, t₁, compiled, d', t₂, hbuild, hfinal, hbefore, hafter, hkeys⟩ := archive_run
  refine ⟨d, t₁, compiled, d', t₂, hbuild, hfinal, hbefore, ?_, ?_⟩
  · rw [hafter]
    decide
  · rw [hkeys]
    decide

theorem alias_ownership_archive :
    ∃ (d : Draft) (t₁ : SchemaTables) (compiled : Compiled) (d' : Draft) (t₂ : SchemaTables),
      (d.attachable .action).canonical? "export" = some "save" ∧
      (d.finalize Archive.resolver ⟨0, 0, 0⟩).Returns t₁ (compiled, d') t₂ ∧
      (compiled.sets.get .action).canonical? "export" =
        some (if (compiled.sets.get .action).configs.contains "export" then "export"
          else "save") := by
  obtain ⟨d, t₁, compiled, d', t₂, -, hfinal, hbefore, -, -⟩ := archive_run
  exact ⟨d, t₁, compiled, d', t₂, hbefore, hfinal,
    (alias_ownership Archive.resolver ⟨0, 0, 0⟩ t₁ hbefore).2 compiled d' t₂ hfinal⟩

end Draft
end ConfigCompiler
