import ConfigCompiler.Proofs.Construction
import ConfigCompiler.Proofs.Integrity

/-!
# Compiled resources and their raw entries

Every resource of a compiled configuration goes back to one raw entry of the store.  Without
extensions most of its options are what the raw entry says; the parent is the name of the
resource that the raw parent leads to.

**Property.**  `Came resources e config`: the resource `config` came from the resolved entry
`e`, and its parent is read in the set `resources`.

**Results.**
* `get?_of_resolvedEntry`: an option with a fixed default and no normalizers.
* `compiled_resources`: the compiled resources and the raw entries they came from.
* `parent_of_resolvedEntry`, `oversized?_of_resolvedEntry`: two such options of resources.
-/

namespace ConfigCompiler

open Resolution

section Resolved

variable {r : Resolver} {t : SchemaTables} {e : ResolvedEntry} {item : String × Options}
variable {key : String} {v : Value}

/-- Interfaces are taken out of a raw resource, and nothing else. -/
theorem get?_of_toResolve {rest : Options}
    (h : Draft.toResolve .resource item.1 item.2 = .ok rest) (hinterfaces : key ≠ "interfaces") :
    rest.get? key = item.2.get? key := by
  simp only [Draft.toResolve, Draft.takeInterfaces] at h
  split at h
  · cases h
    rfl
  · split at h
    · cases h
      rw [SortedMap.get?_erase, if_neg (Ne.symm hinterfaces)]
    · cases h

/-- An option of a resource that is neither computed nor normalized is given or has its
default. -/
theorem get?_of_resolvedEntry (he : r.resolvedEntry t .resource item = .ok e)
    (hnormal : (r.kindInForce t .resource).schema.normalizers key = [])
    (hdefault : (r.kindInForce t .resource).schema.default? key = some (.fixed v))
    (hname : key ≠ "name") (hinterfaces : key ≠ "interfaces") :
    e.options.get? key = some ((item.2.get? key).getD v) := by
  obtain ⟨-, -, rest, hrest, hanswer⟩ := Resolver.resolvedEntry_eq_ok.1 he
  rw [Schema.get?_of_resolve (Resolver.entryAnswer_eq_ok.1 hanswer) hnormal,
    Schema.get?_complete, hdefault, Resolver.get?_withName hname,
    get?_of_toResolve hrest hinterfaces]
  cases item.2.get? key <;> rfl

/-- Without extensions the raw parent is resolved to itself. -/
theorem parent_of_resolvedEntry (hextensions : r.extensions = [])
    (hkinds : ∀ kind, r.kindInForce t kind = r.kindSchema kind)
    (he : r.resolvedEntry t .resource item = .ok e) :
    e.options.str? "parent" = item.2.str? "parent" := by
  have hschema := (hkinds .resource).trans (kindSchema_of_no_extensions hextensions .resource)
  have hget : e.options.get? "parent" = some ((item.2.get? "parent").getD .null) :=
    get?_of_resolvedEntry he (by rw [hschema]; rfl) (by rw [hschema]; rfl) (by decide) (by decide)
  unfold Options.str?
  rw [hget]
  cases item.2.get? "parent" <;> rfl

/-- Without extensions an event priority that fits is resolved to one that fits. -/
theorem oversized?_of_resolvedEntry (hextensions : r.extensions = [])
    (hkinds : ∀ kind, r.kindInForce t kind = r.kindSchema kind)
    (he : r.resolvedEntry t .resource item = .ok e) (hfits : oversized? item.2 = none) :
    oversized? e.options = none := by
  have hschema := (hkinds .resource).trans (kindSchema_of_no_extensions hextensions .resource)
  have hget : e.options.get? "event_priority" =
      some ((item.2.get? "event_priority").getD (.int 0)) :=
    get?_of_resolvedEntry he (by rw [hschema]; rfl) (by rw [hschema]; rfl) (by decide) (by decide)
  unfold oversized? at hfits ⊢
  rw [hget]
  cases hraw : item.2.get? "event_priority" with
  | none => decide
  | some v =>
      rw [hraw] at hfits
      exact hfits

end Resolved

/-- What linking makes of a parent: the name that it leads to. -/
theorem Draft.linkParent_str? {resources : EntrySet} {name : String} {config linked : Options}
    (h : linkParent resources name config = .ok linked) :
    (config.str? "parent" = none → linked.str? "parent" = none) ∧
      ∀ text, config.str? "parent" = some text →
        ∃ parent, resources.canonical? text = some parent ∧
          linked.str? "parent" = some parent := by
  unfold linkParent at h
  cases hparent : config.str? "parent" with
  | none =>
      rw [hparent] at h
      cases h
      exact ⟨fun _ => hparent, nofun⟩
  | some text =>
      refine ⟨nofun, fun other hother => ?_⟩
      obtain rfl := Option.some.inj hother
      simp only [hparent] at h
      cases hleads : resources.canonical? text with
      | none =>
          rw [hleads] at h
          cases h
      | some parent =>
          simp only [hleads] at h
          refine ⟨parent, rfl, ?_⟩
          split at h
          · next heq =>
              cases h
              rw [hparent, heq]
          · cases h
            simp [Options.str?, SortedMap.get?_insert_self]

/-- The resource came from the resolved entry, and its parent is the one that the entry leads
to. -/
structure Came (resources : EntrySet) (e : ResolvedEntry) (config : Options) : Prop where
  stored : resources.configs.get? e.name = some config
  kept : ∀ key, key ∉ replacedOptions → config.get? key = e.options.get? key
  orphan : e.options.str? "parent" = none → config.str? "parent" = none
  parent : ∀ text, e.options.str? "parent" = some text →
    ∃ parent, resources.canonical? text = some parent ∧ config.str? "parent" = some parent

section Compiled

variable {r : Resolver} {t t' : SchemaTables} {store : EntryStore} {time : Timestamp}
variable {compiled : Compiled} {collisions : List AliasCollision}
variable (hkinds : ∀ kind, r.kindInForce t kind = r.kindSchema kind)
variable (h : (compile r time store).Returns t (compiled, collisions) t')
include hkinds h

/-- The sets of a compiled configuration are well-formed. -/
theorem compiled_wellFormed (kind : EntityKind) : (compiled.sets.get kind).WellFormed := by
  obtain ⟨d, d', t₁, t₂, t₃, hbuild, hresources, hsets, -, -, -⟩ := compile_returns hkinds h
  obtain ⟨hchanges, -⟩ := Draft.finalizeResources_settles hresources
  rw [hsets]
  exact hchanges.wellFormed_sets (by decide) (Draft.coherent_build hbuild).1.wellFormed kind

/-- The compiled resources are those of the raw entries, under their resolved names. -/
theorem compiled_resources :
    ∃ entries, r.resolvedEntries t store .resource = .ok entries ∧
      (∀ name, compiled.sets.resources.configs.contains name = true ↔
        name ∈ entries.map ResolvedEntry.name) ∧
      ∀ e ∈ entries, ∃ config, Came compiled.sets.resources e config := by
  obtain ⟨d, d', t₁, t₂, t₃, hbuild, hresources, hsets, -, -, -⟩ := compile_returns hkinds h
  rw [hsets]
  obtain ⟨hchanges, -⟩ := Draft.finalizeResources_settles hresources
  unfold Draft.build at hbuild
  obtain ⟨d₁, t₄, hall, hrest⟩ := returns_bind.1 hbuild
  obtain ⟨linked, t₅, hlink, hlast⟩ := returns_bind.1 hrest
  obtain ⟨rfl, -⟩ := returns_pure.1 hlast
  obtain ⟨entries, hentries, hentered⟩ := Draft.entered_resolveKinds hall .resource
  obtain ⟨haliases, hcontains, hlinked⟩ := Draft.linkParents_eq_ok (returns_lift.1 hlink).1
  -- neither linking nor the second phase changes where a text leads
  have hnames : ∀ name, d'.sets.resources.configs.contains name =
      d₁.sets.resources.configs.contains name :=
    fun name => (hchanges.stored_eq name).trans (hcontains name)
  have hleads : ∀ text, d'.sets.resources.canonical? text = d₁.sets.resources.canonical? text :=
    EntrySet.canonical?_congr (hchanges.aliases_eq.trans haliases) hnames
  refine ⟨entries, hentries, fun name => by rw [hnames]; exact hentered.contains name,
    fun e he => ?_⟩
  have hresolved : d₁.sets.resources.configs.get? e.name = some e.options :=
    hentered.configs e he
  obtain ⟨config, hconfig⟩ := SortedMap.exists_of_contains
    ((hnames e.name).trans (SortedMap.contains_of_get? hresolved))
  obtain ⟨-, hbefore, hsame⟩ := hchanges.origin hconfig
  obtain ⟨original, horiginal, hparent⟩ := hlinked e.name _ hbefore
  obtain rfl := Option.some.inj (horiginal.symm.trans hresolved)
  have hkept := hsame "parent" (by decide)
  obtain ⟨horphan, hfollows⟩ := Draft.linkParent_str? hparent
  refine ⟨config, hconfig, fun key hkey => ?_, fun hnone => ?_, fun text htext => ?_⟩
  · simp only [replacedOptions, List.mem_cons, List.not_mem_nil, or_false, not_or] at hkey
    rw [← hsame key (by simp [hkey]), (Draft.linkParent_eq_ok hparent).1 key hkey.1]
  · rw [Options.str?, ← hkept]
    exact horphan hnone
  · obtain ⟨parent, hcanonical, hstored⟩ := hfollows text htext
    refine ⟨parent, (hleads text).trans hcanonical, ?_⟩
    rw [Options.str?, ← hkept]
    exact hstored

end Compiled
end ConfigCompiler
