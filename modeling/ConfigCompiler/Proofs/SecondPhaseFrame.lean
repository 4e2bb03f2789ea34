import ConfigCompiler.Proofs.Fingerprints
import ConfigCompiler.Proofs.Registrations
import ConfigCompiler.Proofs.SecondPhase

/-!
# The frame of the second phase

The second phase works out the attachments of resources, and discovers types on the way.
Whatever it does not have to touch it leaves as the first phase left it, and what it adds
to the source and to the sets goes together one to one.

**Property.**  `Framed r t d compiled`: the configuration `compiled` differs from the draft
`d` in three options of resources and in the types that were discovered.  `Gained` lists
these for a kind.

**Result.**
* `finalize_frame`: a configuration compiled from a draft that was built is framed by it.
-/

namespace ConfigCompiler
namespace Draft

open Resolution

/-- The entries `found` are what a kind gained: each is one raw entry of the source under
the name of a registered type, and one resolved entry. -/
structure Gained (r : Resolver) (t : SchemaTables) (kind : EntityKind) (d : Draft)
    (compiled : Compiled) (source : LockedStore) (found : List ResolvedEntry) : Prop where
  /-- The keys of the source are those there were, and those of the entries found. -/
  keys : (source.names kind).Perm
    ((d.store.entries.get kind).keys ++ found.map ResolvedEntry.key)
  /-- The names of the set are those there were, and those of the entries found. -/
  names : (compiled.sets.get kind).names.Perm
    ((d.sets.get kind).names ++ found.map ResolvedEntry.name)
  typed : ∀ e ∈ found, r.catalog.hasType kind e.key = true
  raws : ∀ e ∈ found, source.get? kind e.key = some e.raw
  configs : ∀ e ∈ found, (compiled.sets.get kind).configs.get? e.name = some e.options
  /-- The options stored are what the resolver answers about the raw entry. -/
  answers : ∀ e ∈ found, r.resolvedEntry t kind (e.key, e.raw) = .ok e

/-- What the second phase leaves of a draft. -/
structure Framed (r : Resolver) (t : SchemaTables) (d : Draft) (compiled : Compiled) :
    Prop where
  permissions : compiled.sets.permissions = d.sets.permissions
  namespaces : compiled.sets.namespaces = d.sets.namespaces
  resource_names : compiled.sets.resources.names = d.sets.resources.names
  resource_aliases : compiled.sets.resources.aliases = d.sets.resources.aliases
  /-- Only three options of a resource are replaced. -/
  resource_options : ∀ name config,
    compiled.sets.resources.configs.get? name = some config →
    ∃ before, d.sets.resources.configs.get? name = some before ∧
      ∀ option, option ∉ ["actions", "behaviors", "permissions"] →
        config.get? option = before.get? option
  /-- Actions and behaviors keep their options and their aliases. -/
  attachable : ∀ kind, (d.attachable kind).Extends (compiled.sets.get (AttachmentKind.kind kind))
  /-- The source keeps every raw entry, and gains one for each entry that a set gains. -/
  source : ∃ source, compiled.source? = some source ∧
    (∀ kind key raw, d.store.get? kind key = some raw → source.get? kind key = some raw) ∧
    ∀ kind, ∃ found, Gained r t kind d compiled source found
  /-- The fingerprint is that of the source before anything was discovered. -/
  fingerprint : compiled.fingerprint = ConfigCompiler.fingerprint d.store.entries r

variable {r : Resolver} {t t₀ t₁ t' : SchemaTables} {kind : EntityKind} {d d' : Draft}
variable {store : EntryStore} {time : Timestamp} {compiled : Compiled} {stored : EntrySet}
variable {entries entries' : PerKind (List ResolvedEntry)}

/-- A compiled configuration is made of the last draft. -/
theorem finalize_fields (h : (d.finalize r time).Returns t (compiled, d') t') :
    compiled.sets = d'.sets ∧ compiled.fingerprint = d'.fingerprint ∧
      compiled.source? = some d'.store.lock ∧
      ∃ t₁, (d.finalizeResources r).Returns t d' t₁ := by
  unfold finalize at h
  obtain ⟨d₁, t₁, hresources, hrest⟩ := returns_bind.1 h
  obtain ⟨defaults, t₂, -, hlast⟩ := returns_bind.1 hrest
  obtain ⟨heq, -⟩ := returns_pure.1 hlast
  obtain ⟨rfl, rfl⟩ := Prod.mk.inj heq
  exact ⟨rfl, rfl, rfl, t₁, hresources⟩

/-- Resources are no types, so no entry of them is discovered. -/
theorem Ledger.gained (h : Ledger r t₀ stored entries d) (h' : Ledger r t₀ stored entries' d')
    (hgains : Gains r entries entries') (hsets : compiled.sets = d'.sets)
    (hresources : compiled.sets.resources.names = d.sets.resources.names) (kind : EntityKind) :
    ∃ found, Gained r t₀ kind d compiled d'.store.lock found := by
  obtain ⟨found, hfound, htyped⟩ := hgains kind
  have hmem : ∀ e ∈ found, e ∈ entries'.get kind := fun e he => by
    rw [hfound]
    exact List.mem_append_right _ he
  have hraws : (d'.store.entries.get kind).entries.Perm
      ((d.store.entries.get kind).entries ++ found.map fun e => (e.key, e.raw)) := by
    have hall := (h'.accounted.raws kind).symm
    rw [hfound, List.map_append] at hall
    exact hall.trans ((h.accounted.raws kind).append_right _)
  refine ⟨found, ?_, ?_, htyped, fun e he => h'.accounted.get?_of_mem (hmem e he), ?_,
    fun e he => h'.accounted.answers kind e (hmem e he)⟩
  · have hkeys := hraws.map Prod.fst
    rw [List.map_append, List.map_map] at hkeys
    exact hkeys
  · by_cases hkind : kind = .resource
    · subst hkind
      have hnone : found = [] := by
        cases found with
        | nil => rfl
        | cons e rest => cases htyped e List.mem_cons_self
      rw [hnone, List.map_nil, List.append_nil]
      exact hresources ▸ List.Perm.refl _
    · have hentered := h.stored.entered kind
      have hentered' := h'.stored.entered kind
      rw [PerKind.get_set_of_ne _ (Ne.symm hkind)] at hentered hentered'
      rw [hsets]
      refine hentered'.perm_names.trans ?_
      rw [hfound, List.map_append]
      exact hentered.perm_names.symm.append_right _
  · intro e he
    have hkind : EntityKind.resource ≠ kind := by
      rintro rfl
      cases htyped e he
    have hentered' := h'.stored.entered kind
    rw [PerKind.get_set_of_ne _ hkind] at hentered'
    rw [hsets]
    exact hentered'.configs e (hmem e he)

/-- A configuration compiled from a draft that was built, whatever the resolver was asked in
between, is framed by it. -/
theorem finalize_frame (hbuild : (build r store).Returns t₀ d t₁) (hsame : r.SameKinds t₁ t)
    (h : (d.finalize r time).Returns t (compiled, d') t') : Framed r t₀ d compiled := by
  obtain ⟨entries, stored, -, hledger, hstore, hsame₁, -, -⟩ := ledger_build hbuild
  obtain ⟨hsets, hfingerprint, hsource, t₂, hphase⟩ := finalize_fields h
  obtain ⟨hchanges, -⟩ := finalizeResources_settles hphase
  obtain ⟨entries', hgains, hledger'⟩ :=
    ledger_finalizeResources hledger (hsame₁.trans hsame) hphase
  have hnames : compiled.sets.resources.names = d.sets.resources.names := by
    rw [hsets, hchanges.names_eq]
  refine ⟨?_, ?_, hnames, ?_, fun name config hconfig => ?_, fun kind => ?_,
    ⟨d'.store.lock, hsource, fun kind key raw hraw => ?_,
      hledger.gained hledger' hgains hsets hnames⟩, ?_⟩
  · rw [hsets, hchanges.permissions_eq]
  · rw [hsets, hchanges.namespaces_eq]
  · rw [hsets, hchanges.aliases_eq]
  · rw [hsets] at hconfig
    obtain ⟨-, hbefore, hsame⟩ := hchanges.origin hconfig
    refine ⟨_, hbefore, fun option hoption => (hsame option ?_).symm⟩
    simp only [List.mem_cons, List.not_mem_nil, or_false, not_or] at hoption ⊢
    exact ⟨hoption.2.1, hoption.1, hoption.2.2⟩
  · rw [hsets]
    exact hchanges.extends_attachable kind
  · obtain ⟨e, he, rfl, rfl⟩ := hledger.accounted.exists_of_get? hraw
    obtain ⟨found, hfound, -⟩ := hgains kind
    exact hledger'.accounted.get?_of_mem (by rw [hfound]; exact List.mem_append_left _ he)
  · rw [hfingerprint, fingerprint_finalizeResources hphase, fingerprint_build hbuild, hstore]

namespace Clinic

def resolver : Resolver :=
  Resolver.ofCatalog (((Catalog.empty.registerAction { name := "clinic::Admit" }).registerAction
    { name := "clinic::Discharge" }).registerBehavior
    { name := "clinic::Triage"
      defaults := SortedMap.ofList [("interface", .string "clinic::Patient"),
        ("operations", .strings ["create"])] })

/-- A visit attaches an action and a behavior that no entry declares, by the names of their
types. -/
def visits : EntryStore where
  catalog := resolver.catalog
  entries :=
    { permissions := ∅
      actions := SortedMap.singleton "discharge"
        (SortedMap.singleton "class" (.string "clinic::Discharge"))
      behaviors := ∅
      namespaces := SortedMap.singleton "clinic" ∅
      resources := SortedMap.singleton "visit" (SortedMap.ofList [
        ("entity", .string "Visit"), ("namespace", .string "clinic"),
        ("actions", .object (SortedMap.singleton "clinic::Admit" (.object ∅))),
        ("behaviors", .object (SortedMap.singleton "clinic::Triage" (.object ∅)))]) }

end Clinic

theorem finalize_frame_clinic :
    ∃ (d : Draft) (t₁ : SchemaTables) (compiled : Compiled) (d' : Draft) (t₂ : SchemaTables),
      (build Clinic.resolver Clinic.visits).Returns .empty d t₁ ∧
      (d.finalize Clinic.resolver ⟨0, 0, 0⟩).Returns t₁ (compiled, d') t₂ ∧
      (compiled.sets.actions.names = ["admit", "discharge"] ∧
        compiled.sets.behaviors.names = ["triage"]) ∧
      Framed Clinic.resolver .empty d compiled := by
  obtain ⟨d, t₁, compiled, d', t₂, hbuild, hfinal, htest⟩ :=
    bothPhases_returns Clinic.resolver ⟨0, 0, 0⟩ Clinic.visits .empty
      (fun result => result.2.1.sets.actions.names == ["admit", "discharge"] &&
        result.2.1.sets.behaviors.names == ["triage"])
      (by decide +kernel)
  simp only [Bool.and_eq_true, beq_iff_eq] at htest
  exact ⟨d, t₁, compiled, d', t₂, hbuild, hfinal, htest,
    finalize_frame hbuild (Resolver.SameKinds.refl _ _) hfinal⟩

end Draft
end ConfigCompiler
