import ConfigCompiler.Proofs.Registrations

/-!
# Names and aliases after the first phase

What the first phase leaves of a kind is determined by what its raw entries are resolved
to and by the order of their keys, and it can be read off without running the phase.

**Property.**  `Named kind entries s`: the set `s` holds every one of the resolved
`entries` under its own name; a name leads to itself, and any other text to the entry of
the least key that claims it.

**Proof.**  `resolveAll_registers` says what storing all kinds leaves of each, and linking
the parents replaces one option of each resource and no name.

**Result.**
* `names_and_aliases`: what every kind holds when the first phase returns, and how the
  first phase fails when keys of one kind share a name.
-/

namespace ConfigCompiler

/-- The kinds that are resolved before a kind, in order. -/
def EntityKind.before (kind : EntityKind) : List EntityKind :=
  EntityKind.all.takeWhile (fun other => other ≠ kind)

theorem EntityKind.all_eq (kind : EntityKind) :
    ∃ after, EntityKind.all = kind.before ++ kind :: after ∧ kind ∉ kind.before ∧
      kind ∉ after := by
  cases kind <;> exact ⟨_, rfl, by decide, by decide⟩

/-- Every resolved entry of a kind is stored under its own name, and texts lead to names
as the entries claim them. -/
structure Named (kind : EntityKind) (entries : List ResolvedEntry) (s : EntrySet) :
    Prop where
  /-- No two entries share a name. -/
  distinct : (entries.map ResolvedEntry.name).Nodup
  /-- The names stored are those of the entries, each once. -/
  names : s.names.Perm (entries.map ResolvedEntry.name)
  /-- Each name holds what its entry is resolved to, but for parents that were linked. -/
  contents : ∀ e ∈ entries, ∃ config, s.configs.get? e.name = some config ∧
    ∀ option, (kind = .resource → option ≠ "parent") →
      config.get? option = e.options.get? option
  /-- A name leads to itself. -/
  canonical_name : ∀ x ∈ entries.map ResolvedEntry.name, s.canonical? x = some x
  /-- A text that is no name leads to the entry of the least key that claims it. -/
  canonical_claim : ∀ x e, x ∉ entries.map ResolvedEntry.name → x ≠ "" → e ∈ entries →
    e.Claims kind x → (∀ other ∈ entries, other.Claims kind x → e.key ≤ other.key) →
    s.canonical? x = some e.name
  /-- Any other text leads nowhere. -/
  canonical_none : ∀ x, x ∉ entries.map ResolvedEntry.name →
    (x = "" ∨ ∀ e ∈ entries, ¬ e.Claims kind x) → s.canonical? x = none

/-- The name of an entry is that of an entry with a smaller key too. -/
def NameTaken (entries : List ResolvedEntry) (e : ResolvedEntry) : Prop :=
  ∃ other ∈ entries, other.key < e.key ∧ other.name = e.name

namespace Entered

variable {kind : EntityKind} {entries : List ResolvedEntry} {s : EntrySet}

/-- Among entries in the order of their keys, the first that claims a text is the one of
the least key. -/
theorem find?_claim {e : ResolvedEntry} {x : String}
    (hsorted : entries.Pairwise (fun a b => a.key < b.key)) (he : e ∈ entries)
    (hclaim : e.Claims kind x)
    (hleast : ∀ other ∈ entries, other.Claims kind x → e.key ≤ other.key) :
    entries.find? (fun e => (e.claims kind).contains x) = some e := by
  obtain ⟨before, after, rfl⟩ := List.append_of_mem he
  refine List.find?_eq_some_iff_append.2
    ⟨ResolvedEntry.contains_claims.2 hclaim, before, after, rfl, fun other hother => ?_⟩
  have hlt : other.key < e.key :=
    (List.pairwise_append.1 hsorted).2.2 other hother e List.mem_cons_self
  cases hcontains : (other.claims kind).contains x with
  | false => rfl
  | true =>
      have hle := hleast other (List.mem_append_left _ hother)
        (ResolvedEntry.contains_claims.1 hcontains)
      exact absurd hlt (String.not_lt.2 hle)

/-- A set that came from storing entries in the order of their keys is named by them. -/
theorem named (h : Entered kind entries s)
    (hsorted : entries.Pairwise (fun a b => a.key < b.key)) : Named kind entries s where
  distinct := h.distinct
  names := h.perm_names
  contents := fun e he => ⟨e.options, h.configs e he, fun _ _ => rfl⟩
  canonical_name := fun x hx => by rw [h.canonical?_eq, if_pos hx]
  canonical_claim := fun x e hx hempty he hclaim hleast => by
    rw [h.canonical?_eq, if_neg hx, if_neg hempty, find?_claim hsorted he hclaim hleast]
    rfl
  canonical_none := fun x hx hnone => by
    rw [h.canonical?_eq, if_neg hx]
    rcases hnone with hempty | hunclaimed
    · rw [if_pos hempty]
    · split
      · rfl
      · rw [List.find?_eq_none.2, Option.map_none]
        exact fun e he hcontains => hunclaimed e he (ResolvedEntry.contains_claims.1 hcontains)

end Entered

namespace Draft

open Resolution

variable {r : Resolver} {t t' : SchemaTables} {kind : EntityKind} {d d' : Draft}
variable {store : EntryStore} {entries : List ResolvedEntry}

theorem sorted_resolvedEntries (h : r.resolvedEntries t store kind = .ok entries) :
    entries.map ResolvedEntry.key = (store.entries.get kind).keys ∧
      entries.Pairwise (fun a b => a.key < b.key) := by
  have hkeys := Resolver.keys_of_resolvedEntries h
  refine ⟨hkeys, ?_⟩
  rw [← List.pairwise_map, hkeys]
  exact SortedMap.keys_sorted _

/-- Storing the entries of other kinds leaves a kind alone. -/
theorem resolveKinds_returns {kinds : List EntityKind} (hkind : kind ∉ kinds)
    (h : Returns (kinds.foldlM (resolveKind r) d) t d' t') :
    d'.sets.get kind = d.sets.get kind ∧ d'.store = d.store ∧ r.SameKinds t t' := by
  refine h.foldlM_induction
    (P := fun d' t' => d'.sets.get kind = d.sets.get kind ∧ d'.store = d.store ∧
      r.SameKinds t t')
    (fun other hother d₁ t₁ d₂ t₂ h₁ h₂ => ?_) ⟨rfl, rfl, Resolver.SameKinds.refl r t⟩
  have honly : OnlyKind r other d₁ t₁ d₂ t₂ :=
    Returns.foldlM_induction (P := OnlyKind r other d₁ t₁)
      (fun item _ d t d' t' hd hstep => by
        obtain ⟨e, -, hstores, hsame⟩ := resolveEntry_returns hstep
        exact hd.step hstores hsame) h₂ (OnlyKind.refl r other d₁ t₁)
  have hne : kind ≠ other := fun heq => hkind (heq ▸ hother)
  exact ⟨(honly.others kind hne).trans h₁.1, honly.store.trans h₁.2.1,
    h₁.2.2.trans honly.sameKinds⟩

theorem entered_start (store : EntryStore) (fingerprint : String) :
    Entered kind [] ((start store fingerprint).sets.get kind) := by
  simpa [start] using Entered.empty kind

/-- The set of a kind came from storing its entries, whatever the other kinds are. -/
theorem entered_resolveKinds {fingerprint : String}
    (h : Returns (EntityKind.all.foldlM (resolveKind r) (start store fingerprint)) t d t')
    (kind : EntityKind) :
    ∃ entries, r.resolvedEntries t store kind = .ok entries ∧
      Entered kind entries (d.sets.get kind) := by
  obtain ⟨entries, hentries, hstored, -⟩ := resolveAll_registers h
  exact ⟨entries.get kind, hentries kind, hstored.entered kind⟩

/-- Linking the parents changes no name and no alias. -/
theorem named_linkParents {resources linked : EntrySet}
    (h : Named .resource entries resources) (hlink : linkParents resources = .ok linked) :
    Named .resource entries linked := by
  obtain ⟨haliases, hcontains, hconfigs⟩ := linkParents_eq_ok hlink
  have hcanonical : ∀ x, linked.canonical? x = resources.canonical? x :=
    EntrySet.canonical?_congr haliases hcontains
  refine ⟨h.distinct, ?_, fun e he => ?_, ?_, ?_, ?_⟩
  · rw [EntrySet.names, SortedMap.keys_eq_of_contains hcontains]
    exact h.names
  · obtain ⟨config, hconfig, hsame⟩ := h.contents e he
    have hstored : linked.configs.contains e.name = true := by
      rw [hcontains]
      exact SortedMap.contains_of_get? hconfig
    obtain ⟨config', hconfig'⟩ := SortedMap.exists_of_contains hstored
    obtain ⟨original, horiginal, hlinked⟩ := hconfigs e.name config' hconfig'
    rw [hconfig] at horiginal
    cases horiginal
    exact ⟨config', hconfig', fun option hoption => by
      rw [(linkParent_eq_ok hlinked).1 option (hoption rfl), hsame option hoption]⟩
  · simpa only [hcanonical] using h.canonical_name
  · simpa only [hcanonical] using h.canonical_claim
  · simpa only [hcanonical] using h.canonical_none

/-- Where names are distinct an entry is known by its name. -/
theorem eq_of_name_eq {a b : ResolvedEntry} (h : (entries.map ResolvedEntry.name).Nodup)
    (ha : a ∈ entries) (hb : b ∈ entries) (hname : a.name = b.name) : a = b := by
  induction entries with
  | nil => cases ha
  | cons e rest ih =>
      obtain ⟨hnew, hrest⟩ := List.nodup_cons.1 h
      rcases List.mem_cons.1 ha with rfl | ha' <;> rcases List.mem_cons.1 hb with rfl | hb'
      · rfl
      · exact absurd (hname ▸ List.mem_map_of_mem hb') hnew
      · exact absurd (hname ▸ List.mem_map_of_mem ha') hnew
      · exact ih hrest ha' hb'

/-- Of entries in the order of their keys that share names, the first whose name is taken
is the one of the least key. -/
theorem first_nameTaken {before after : List ResolvedEntry} {e : ResolvedEntry}
    (hsorted : (before ++ e :: after).Pairwise (fun a b => a.key < b.key))
    (hnodup : (before.map ResolvedEntry.name).Nodup)
    (htaken : e.name ∈ before.map ResolvedEntry.name) :
    NameTaken (before ++ e :: after) e ∧
      ∀ other ∈ before ++ e :: after, NameTaken (before ++ e :: after) other →
        e.key ≤ other.key := by
  obtain ⟨-, hrest, hcross⟩ := List.pairwise_append.1 hsorted
  have hafter := (List.pairwise_cons.1 hrest).1
  constructor
  · obtain ⟨other, hother, hname⟩ := List.mem_map.1 htaken
    exact ⟨other, List.mem_append_left _ hother,
      hcross other hother e List.mem_cons_self, hname⟩
  · rintro other hother ⟨owner, howner, hlt, hname⟩
    rw [← String.not_lt]
    intro hsmall
    -- both stand before `e`, where names are distinct
    have hbefore : ∀ a ∈ before ++ e :: after, a.key < e.key → a ∈ before := by
      intro a ha hkey
      rcases List.mem_append.1 ha with ha | ha
      · exact ha
      · rcases List.mem_cons.1 ha with rfl | ha
        · exact absurd hkey (String.lt_irrefl _)
        · exact absurd hkey (String.lt_asymm (hafter a ha))
    have hother' := hbefore other hother hsmall
    have howner' := hbefore owner howner (String.lt_trans hlt hsmall)
    have hsame : owner = other := eq_of_name_eq hnodup howner' hother' hname
    exact String.lt_irrefl _ (hsame ▸ hlt)

/-- When the keys of a kind share names, storing the kind is refused at the least key
whose name a smaller key has taken. -/
theorem resolveKind_fails {d₀ : Draft} {t₀ : SchemaTables} {fingerprint : String}
    (hbefore : Returns (kind.before.foldlM (resolveKind r) (start store fingerprint)) t d₀ t₀)
    (hentries : r.resolvedEntries t store kind = .ok entries)
    (hchecks : ∀ e ∈ entries, d₀.checkReferences kind e = .ok ())
    (hshared : ∃ e ∈ entries, ∃ other ∈ entries, other.key ≠ e.key ∧ other.name = e.name) :
    ∃ e ∈ entries, NameTaken entries e ∧
      (∀ other ∈ entries, NameTaken entries other → e.key ≤ other.key) ∧
      ∃ t', (resolveKind r d₀ kind).Fails t₀ (.duplicateName kind e.name e.key) t' := by
  obtain ⟨after, -, hout, -⟩ := kind.all_eq
  obtain ⟨hset, hstore, hsame⟩ := resolveKinds_returns hout hbefore
  have hstart : Entered kind [] (d₀.sets.get kind) := hset ▸ entered_start store fingerprint
  have hrepeated : ¬ (entries.map ResolvedEntry.name).Nodup := by
    intro hnodup
    obtain ⟨e, he, other, hother, hkey, hname⟩ := hshared
    exact hkey (congrArg ResolvedEntry.key (eq_of_name_eq hnodup hother he hname))
  have hanswers : (store.entries.get kind).entries.mapM (r.resolvedEntry t₀ kind) =
      .ok entries := by
    rw [hsame.resolvedEntry_eq]
    exact hentries
  obtain ⟨before, e, after, rfl, hnodup, htaken, t', hfails⟩ :=
    resolveEntries_fails (OnlyKind.refl r kind d₀ t₀) hstart hanswers hchecks hrepeated
  obtain ⟨htaken, hleast⟩ :=
    first_nameTaken (sorted_resolvedEntries hentries).2 hnodup htaken
  refine ⟨e, by simp, htaken, hleast, t', ?_⟩
  unfold resolveKind
  rw [hstore]
  exact hfails

/-- The names and aliases of every kind after the first phase, in closed form; and the
failure of the first phase when the kinds before one are stored and the entries of that
one are resolved and refer to what is there, but keys of it share a name. -/
theorem names_and_aliases (r : Resolver) (store : EntryStore) (t : SchemaTables) :
    (∀ d t', (build r store).Returns t d t' → ∀ kind, ∃ entries,
      r.resolvedEntries t store kind = .ok entries ∧
      entries.map ResolvedEntry.key = (store.entries.get kind).keys ∧
      Named kind entries (d.sets.get kind)) ∧
    ∀ kind entries d₀ t₀,
      Returns (kind.before.foldlM (resolveKind r)
        (start store (ConfigCompiler.fingerprint store.entries r))) t d₀ t₀ →
      r.resolvedEntries t store kind = .ok entries →
      (∀ e ∈ entries, d₀.checkReferences kind e = .ok ()) →
      (∃ e ∈ entries, ∃ other ∈ entries, other.key ≠ e.key ∧ other.name = e.name) →
      ∃ e ∈ entries, NameTaken entries e ∧
        (∀ other ∈ entries, NameTaken entries other → e.key ≤ other.key) ∧
        ∃ t', (build r store).Fails t (.duplicateName kind e.name e.key) t' := by
  constructor
  · intro d t' h kind
    unfold build at h
    obtain ⟨d₁, t₁, hkinds, hrest⟩ := returns_bind.1 h
    obtain ⟨resources, t₂, hlink, hlast⟩ := returns_bind.1 hrest
    obtain ⟨rfl, -⟩ := returns_pure.1 hlast
    obtain ⟨entries, hentries, hentered⟩ := entered_resolveKinds hkinds kind
    obtain ⟨hkeys, hsorted⟩ := sorted_resolvedEntries hentries
    refine ⟨entries, hentries, hkeys, ?_⟩
    have hnamed := hentered.named hsorted
    show Named kind entries ((d₁.sets.set .resource resources).get kind)
    rw [PerKind.get_set]
    split
    · next heq =>
        subst heq
        exact named_linkParents hnamed (returns_lift.1 hlink).1
    · exact hnamed
  · intro kind entries d₀ t₀ hbefore hentries hchecks hshared
    obtain ⟨e, he, htaken, hleast, t', hfails⟩ :=
      resolveKind_fails hbefore hentries hchecks hshared
    obtain ⟨after, hall, -⟩ := kind.all_eq
    refine ⟨e, he, htaken, hleast, t', ?_⟩
    unfold build
    refine fails_bind.2 (Or.inl ?_)
    rw [hall, List.foldlM_append]
    refine fails_bind.2 (Or.inr ⟨d₀, t₀, hbefore, ?_⟩)
    rw [List.foldlM_cons]
    exact fails_bind.2 (Or.inl hfails)

namespace Library

def resolver : Resolver :=
  Resolver.ofCatalog (Catalog.empty.registerAction { name := "library::View" })

/-- The entries of a library with two actions, of which the second has a name of its own.  Both
name one type, which leads to the one with the smaller key. -/
def shelf (second : String) : EntryStore where
  catalog := resolver.catalog
  entries :=
    { permissions := ∅
      actions := SortedMap.ofList [
        ("browse", SortedMap.singleton "class" (.string "library::View")),
        ("search", SortedMap.ofList [
          ("class", .string "library::View"), ("name", .string second)])]
      behaviors := ∅
      namespaces := SortedMap.singleton "library" ∅
      resources := SortedMap.singleton "book" (SortedMap.ofList [
        ("entity", .string "Book"), ("namespace", .string "library"),
        ("interfaces", .strings ["Lendable"])]) }

/-- Two of the entries share a name. -/
def sharesNames (entries : List ResolvedEntry) : Bool :=
  entries.any fun e => entries.any fun other =>
    decide (other.key ≠ e.key) && decide (other.name = e.name)

end Library

theorem names_and_aliases_library :
    (∃ d t' entries, (build Library.resolver (Library.shelf "find")).Returns .empty d t' ∧
      (d.sets.get .action).canonical? "library::View" = some "browse" ∧
      (d.sets.get .resource).canonical? "Lendable" = some "book" ∧
      Named .action entries (d.sets.get .action)) ∧
    ∃ entries, Library.resolver.resolvedEntries .empty (Library.shelf "browse") .action =
        .ok entries ∧
      ∃ e ∈ entries, NameTaken entries e ∧
        ∃ t', (build Library.resolver (Library.shelf "browse")).Fails .empty
          (.duplicateName .action e.name e.key) t' := by
  constructor
  · obtain ⟨d, t', h, htest⟩ := returns_of_any
      (x := build Library.resolver (Library.shelf "find")) (t := .empty)
      (p := fun d =>
        (d.sets.get .action).canonical? "library::View" == some "browse" &&
          (d.sets.get .resource).canonical? "Lendable" == some "book")
      (by decide +kernel)
    simp only [Bool.and_eq_true, beq_iff_eq] at htest
    obtain ⟨entries, -, -, hnamed⟩ :=
      (names_and_aliases Library.resolver (Library.shelf "find") .empty).1 d t' h .action
    exact ⟨d, t', entries, h, htest.1, htest.2, hnamed⟩
  · obtain ⟨d₀, t₀, hbefore, -⟩ := returns_of_any
      (x := (EntityKind.before .action).foldlM (resolveKind Library.resolver)
        (start (Library.shelf "browse") (ConfigCompiler.fingerprint
          (Library.shelf "browse").entries Library.resolver)))
      (t := .empty) (p := fun _ => true) (by decide +kernel)
    have htest : (Library.resolver.resolvedEntries .empty (Library.shelf "browse")
        .action).toOption.any Library.sharesNames = true := by
      decide +kernel
    cases hentries : Library.resolver.resolvedEntries .empty (Library.shelf "browse")
        .action with
    | error f =>
        rw [hentries] at htest
        cases htest
    | ok entries =>
        rw [hentries] at htest
        have hshared : Library.sharesNames entries = true := htest
        simp only [Library.sharesNames, List.any_eq_true, Bool.and_eq_true,
          decide_eq_true_eq] at hshared
        obtain ⟨e, he, htaken, -, hfails⟩ :=
          (names_and_aliases Library.resolver (Library.shelf "browse") .empty).2
            .action entries d₀ t₀ hbefore hentries (fun _ _ => rfl) hshared
        exact ⟨entries, rfl, e, he, htaken, hfails⟩

end Draft
end ConfigCompiler
