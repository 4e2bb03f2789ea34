import ConfigCompiler.Entry.EntrySet

/-!
# Growing sets of entries

A set of entries gains names and aliases while a configuration is compiled and
loses nothing.  Names go before aliases: a text that was an alias leads to an
entry of its own once there is one.

**Relation.**  `s.Extends s'`: everything stored in `s` is stored in `s'`, under the
same name or alias.

**Invariant.**  `s.WellFormed`: every alias leads to a stored name, and an entry
with a `name` of its own is stored under it.

**Results.**
* `Extends.canonical?_eq`: what a text leads to after growth.
* `WellFormed.insert`, `WellFormed.addAliases`: storing an entry under its name,
  with its aliases, keeps the invariant.
-/

namespace ConfigCompiler
namespace EntrySet

variable {s s' s'' : EntrySet} {name key claimed : String}

theorem canonical?_of_contains (h : s.configs.contains name = true) :
    s.canonical? name = some name := by
  simp [canonical?, h]

/-- A text leads to stored names only. -/
theorem contains_of_canonical? (h : s.canonical? key = some name) :
    s.configs.contains name = true := by
  unfold canonical? at h
  split at h
  · next hkey =>
      cases h
      exact hkey
  · exact (Option.filter_eq_some_iff.1 h).2

/-- A text that is no name leads where its alias leads. -/
theorem alias_of_canonical?
    (h : s.canonical? key = some name) (hne : key ≠ name) :
    s.aliases.get? key = some name := by
  unfold canonical? at h
  split at h
  · cases h
    exact absurd rfl hne
  · exact (Option.filter_eq_some_iff.1 h).1

/-- Where a text leads to depends on the names and the aliases only. -/
theorem canonical?_congr (haliases : s'.aliases = s.aliases)
    (hcontains : ∀ name, s'.configs.contains name = s.configs.contains name) (key : String) :
    s'.canonical? key = s.canonical? key := by
  have hsame : s'.configs.contains = s.configs.contains := funext hcontains
  simp only [canonical?, hsame, haliases]

/-- A stored name leads to its own entry. -/
theorem get?_of_stored {entry : Options} (h : s.configs.get? name = some entry) :
    s.get? name = some entry := by
  simp [get?, canonical?_of_contains (SortedMap.contains_of_get? h), h]

/-- Everything stored in `s` is stored in `s'`. -/
structure Extends (s s' : EntrySet) : Prop where
  configs : ∀ name entry, s.configs.get? name = some entry →
    s'.configs.get? name = some entry
  aliases : ∀ key name, s.aliases.get? key = some name →
    s'.aliases.get? key = some name

theorem Extends.refl (s : EntrySet) : s.Extends s :=
  ⟨fun _ _ h => h, fun _ _ h => h⟩

theorem Extends.trans (h : s.Extends s') (h' : s'.Extends s'') : s.Extends s'' :=
  ⟨fun name entry hs => h'.configs name entry (h.configs name entry hs),
    fun key name hs => h'.aliases key name (h.aliases key name hs)⟩

theorem Extends.contains (h : s.Extends s') (hname : s.configs.contains name = true) :
    s'.configs.contains name = true := by
  obtain ⟨entry, hentry⟩ := SortedMap.exists_of_contains hname
  exact SortedMap.contains_of_get? (h.configs name entry hentry)

/-- A set that grew into one that grew into it did not grow. -/
theorem Extends.antisymm (h : s.Extends s') (h' : s'.Extends s) : s' = s := by
  have hboth : ∀ {α : Type} {m m' : SortedMap α},
      (∀ key a, m.get? key = some a → m'.get? key = some a) →
      (∀ key a, m'.get? key = some a → m.get? key = some a) → m' = m := by
    intro α m m' hm hm'
    refine SortedMap.ext_get? (fun key => Option.ext (fun a => ?_))
    exact ⟨hm' key a, hm key a⟩
  have hconfigs : s'.configs = s.configs := hboth h.configs h'.configs
  have haliases : s'.aliases = s.aliases := hboth h.aliases h'.aliases
  cases s
  cases s'
  cases hconfigs
  cases haliases
  rfl

/-- After growth a text leads where it led before, unless an entry was stored under
the text itself. -/
theorem Extends.canonical?_eq (h : s.Extends s') (hkey : s.canonical? key = some name) :
    s'.canonical? key = some (if s'.configs.contains key then key else name) := by
  by_cases hstored : s'.configs.contains key = true
  · simp [hstored, canonical?_of_contains hstored]
  · have hname : s'.configs.contains name = true :=
      h.contains (contains_of_canonical? hkey)
    have hne : key ≠ name := by
      rintro rfl
      exact hstored hname
    have halias : s'.aliases.get? key = some name :=
      h.aliases key name (alias_of_canonical? hkey hne)
    simp [canonical?, hstored, halias, hname]

theorem insert_eq_ok {kind : EntityKind} {options : Options} :
    s.insert kind name key options = .ok s' ↔
      s.configs.contains name = false ∧
        s' = { s with configs := s.configs.insert name options } := by
  unfold insert
  split
  · next h => simp [h]
  · next h => simp [h, eq_comm]

/-- An entry that is stored takes nothing away. -/
theorem extends_insert {options : Options} (h : s.configs.contains name = false) :
    s.Extends { s with configs := s.configs.insert name options } := by
  refine ⟨fun other entry hother => ?_, fun _ _ h => h⟩
  have hne : name ≠ other := by
    rintro rfl
    simp [SortedMap.contains, hother] at h
  simp [SortedMap.get?_insert, hne, hother]

@[simp] theorem addAlias_configs (s : EntrySet) (claimed name : String) :
    (s.addAlias claimed name).configs = s.configs := by
  unfold addAlias
  split <;> rfl

/-- A claim on an alias changes nothing but the alias, and that only if it is free. -/
theorem get?_addAlias (s : EntrySet) (claimed name key : String) :
    (s.addAlias claimed name).aliases.get? key = s.aliases.get? key ∨
      (key = claimed ∧ s.aliases.get? key = none ∧
        (s.addAlias claimed name).aliases.get? key = some name) := by
  unfold addAlias
  split
  · exact Or.inl rfl
  · next h =>
      by_cases hkey : claimed = key
      · subst hkey
        simp only [Bool.or_eq_true, not_or, Bool.not_eq_true] at h
        right
        refine ⟨rfl, ?_, by simp⟩
        simpa [SortedMap.contains] using h.2
      · left
        simp [SortedMap.get?_insert, hkey]

theorem extends_addAlias (s : EntrySet) (claimed name : String) :
    s.Extends (s.addAlias claimed name) := by
  refine ⟨fun other entry h => by simpa using h, fun key other h => ?_⟩
  rcases get?_addAlias s claimed name key with heq | ⟨_, hnone, _⟩
  · rw [heq, h]
  · rw [h] at hnone
    cases hnone

/-- The claims of an entry are made one after the other. -/
theorem addAliases_fst (s : EntrySet) (kind : EntityKind) (name : String)
    (claims : List String) :
    (s.addAliases kind name claims).1 =
      claims.foldl (fun s claimed => s.addAlias claimed name) s := by
  have h : ∀ (claims : List String) (state : EntrySet × List AliasCollision),
      (claims.foldl (fun state claimed =>
        (state.1.addAlias claimed name,
          state.2 ++ (state.1.collision? kind claimed name).toList)) state).1 =
      claims.foldl (fun s claimed => s.addAlias claimed name) state.1 := by
    intro claims
    induction claims with
    | nil => intro state; rfl
    | cons claimed rest ih => intro state; exact ih _
  exact h claims (s, [])

/-- A claim on an alias makes no other claim of the same entry a collision. -/
theorem collision?_addAlias (s : EntrySet) (kind : EntityKind) (claimed name key : String) :
    (s.addAlias claimed name).collision? kind key name = s.collision? kind key name := by
  unfold collision?
  rw [addAlias_configs]
  rcases get?_addAlias s claimed name key with heq | ⟨-, hnone, hsome⟩
  · rw [heq]
  · simp [hnone, hsome]

/-- Which claims of an entry collide is known before the first of them is made. -/
theorem addAliases_snd (s : EntrySet) (kind : EntityKind) (name : String)
    (claims : List String) :
    (s.addAliases kind name claims).2 =
      claims.filterMap (fun claimed => s.collision? kind claimed name) := by
  have h : ∀ (claims : List String) (state : EntrySet × List AliasCollision),
      (claims.foldl (fun state claimed =>
        (state.1.addAlias claimed name,
          state.2 ++ (state.1.collision? kind claimed name).toList)) state).2 =
      state.2 ++ claims.filterMap (fun claimed => state.1.collision? kind claimed name) := by
    intro claims
    induction claims with
    | nil => intro state; simp
    | cons claimed rest ih =>
        intro state
        rw [List.foldl_cons, ih]
        simp only [collision?_addAlias, List.append_assoc]
        cases hcollision : state.1.collision? kind claimed name <;> simp [hcollision]
  exact h claims (s, [])

/-- What one claim keeps, all claims keep. -/
theorem addAliases_induction {P : EntrySet → Prop} {kind : EntityKind}
    (hstep : ∀ s claimed, P s → P (s.addAlias claimed name))
    (claims : List String) (h : P s) : P (s.addAliases kind name claims).1 := by
  rw [addAliases_fst]
  induction claims generalizing s with
  | nil => exact h
  | cons claimed rest ih => exact ih (hstep s claimed h)

@[simp] theorem addAliases_configs (s : EntrySet) (kind : EntityKind) (name : String)
    (claims : List String) :
    (s.addAliases kind name claims).1.configs = s.configs :=
  addAliases_induction (P := fun s' => s'.configs = s.configs)
    (fun s' claimed h => by simpa using h) claims rfl

theorem extends_addAliases (s : EntrySet) (kind : EntityKind) (name : String)
    (claims : List String) :
    s.Extends (s.addAliases kind name claims).1 :=
  addAliases_induction (P := s.Extends)
    (fun s' claimed h => h.trans (extends_addAlias s' claimed name)) claims
    (Extends.refl s)

/-- A claim gives a free alias to the name that claims it, unless the alias is empty or
a name. -/
theorem get?_addAlias_of_free (hfree : s.configs.contains key = false)
    (hname : s.configs.contains name = true) :
    (s.addAlias claimed name).aliases.get? key =
      (s.aliases.get? key).or (if claimed = key ∧ key ≠ "" then some name else none) := by
  by_cases hkey : claimed = key
  · subst hkey
    have hne : claimed ≠ name := by
      rintro rfl
      rw [hname] at hfree
      cases hfree
    cases hold : s.aliases.get? claimed with
    | some target => simp [addAlias, SortedMap.contains, hold]
    | none =>
        have hnone : s.aliases.contains claimed = false := by
          simp [SortedMap.contains, hold]
        by_cases hempty : claimed = ""
        · subst hempty
          simp [addAlias, hold]
        · simp [addAlias, hfree, hnone, hne, hempty]
  · have hsame : (s.addAlias claimed name).aliases.get? key = s.aliases.get? key := by
      unfold addAlias
      split
      · rfl
      · simp [SortedMap.get?_insert, hkey]
    simp [hsame, hkey]

/-- The claims of an entry give it every free alias among them. -/
theorem get?_addAliases_of_free {kind : EntityKind} {claims : List String}
    (hfree : s.configs.contains key = false) (hname : s.configs.contains name = true) :
    (s.addAliases kind name claims).1.aliases.get? key =
      (s.aliases.get? key).or
        (if claims.contains key ∧ key ≠ "" then some name else none) := by
  rw [addAliases_fst]
  induction claims generalizing s with
  | nil => simp
  | cons claimed rest ih =>
      rw [List.foldl_cons, ih (by simpa using hfree) (by simpa using hname),
        get?_addAlias_of_free hfree hname, Option.or_assoc]
      congr 1
      by_cases hkey : claimed = key
      · subst hkey
        by_cases hempty : claimed = "" <;> simp [hempty]
      · simp [hkey, Ne.symm hkey]

/-- Aliases lead to stored names, and names are stored under themselves. -/
structure WellFormed (s : EntrySet) : Prop where
  aliases : ∀ key name, s.aliases.get? key = some name → s.configs.contains name = true
  names : ∀ name entry own, s.configs.get? name = some entry →
    entry.str? "name" = some own → own = name

theorem wellFormed_empty : EntrySet.empty.WellFormed := by
  constructor
  · intro key name h
    cases h
  · intro name entry own h
    cases h

/-- An entry may be stored under its own name. -/
theorem WellFormed.insert {options : Options} (h : s.WellFormed)
    (hown : ∀ own, options.str? "name" = some own → own = name) :
    EntrySet.WellFormed { s with configs := s.configs.insert name options } := by
  refine ⟨fun key other halias => ?_, fun other entry own hentry hname => ?_⟩
  · simp [h.aliases key other halias]
  · rw [SortedMap.get?_insert] at hentry
    split at hentry
    · next heq =>
        cases hentry
        exact (hown own hname).trans heq
    · exact h.names other entry own hentry hname

/-- A stored name may claim aliases. -/
theorem WellFormed.addAliases {kind : EntityKind} (claims : List String)
    (h : s.WellFormed) (hname : s.configs.contains name = true) :
    (s.addAliases kind name claims).1.WellFormed := by
  refine (addAliases_induction
    (P := fun s' => s'.WellFormed ∧ s'.configs.contains name = true)
    (fun s' claimed hs' => ?_) claims ⟨h, hname⟩).1
  refine ⟨⟨fun key other halias => ?_, ?_⟩, by simpa using hs'.2⟩
  · rw [addAlias_configs]
    rcases get?_addAlias s' claimed name key with heq | ⟨_, _, hsome⟩
    · exact hs'.1.aliases key other (heq ▸ halias)
    · rw [hsome] at halias
      cases halias
      exact hs'.2
  · simpa using hs'.1.names

end EntrySet
end ConfigCompiler
