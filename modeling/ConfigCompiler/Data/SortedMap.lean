/-!
# Maps sorted by name

A `SortedMap` holds named values in strictly increasing order of their names,
compared by code point.  Every table of the compiler is one: option bags, entry
sets, alias tables and registered types.  The order is part of the type, so two
maps with the same answers are equal.

**Operations.**  `insert` and `erase` change one name; `tabulate` builds a map
from a list of names and a function; `combine` merges two maps name by name;
`mapM` visits the values in order and may stop early.

**Results.**
* `SortedMap.ext_get?`: a map is determined by its answers.
* `get?_insert`, `get?_erase`, `get?_tabulate`, `get?_combine`, `get?_map`: one
  look-up law per operation.
* `mem_keys_iff`: the names listed are the names that answer.
-/

namespace ConfigCompiler

universe u v w

namespace Entries

variable {α : Type u} {β : Type v}

/-- Names are strictly increasing. -/
abbrev Sorted (entries : List (String × α)) : Prop :=
  entries.Pairwise (fun a b => a.1 < b.1)

/-- The first value stored under `key`. -/
def find? (key : String) : List (String × α) → Option α
  | [] => none
  | (k, v) :: rest => if k = key then some v else find? key rest

/-- Store `value` under `key`, at its place in the order. -/
def insert (key : String) (value : α) : List (String × α) → List (String × α)
  | [] => [(key, value)]
  | (k, v) :: rest =>
      if key < k then (key, value) :: (k, v) :: rest
      else if k = key then (key, value) :: rest
      else (k, v) :: insert key value rest

/-- Drop what is stored under `key`. -/
def erase (key : String) (entries : List (String × α)) : List (String × α) :=
  entries.filter (fun e => e.1 ≠ key)

@[simp] theorem find?_nil (key : String) : find? key ([] : List (String × α)) = none := rfl

theorem find?_cons (key : String) (e : String × α) (rest : List (String × α)) :
    find? key (e :: rest) = if e.1 = key then some e.2 else find? key rest := rfl

theorem find?_insert (key : String) (value : α) (entries : List (String × α)) (k : String) :
    find? k (insert key value entries) = if key = k then some value else find? k entries := by
  induction entries with
  | nil => simp [insert, find?]
  | cons e rest ih =>
      obtain ⟨k', v'⟩ := e
      by_cases hlt : key < k'
      · simp [insert, hlt, find?]
      · by_cases heq : k' = key
        · subst heq
          by_cases hk : k' = k <;> simp [insert, find?, hk]
        · simp only [insert, hlt, heq, if_false, find?, ih]
          by_cases hk : k' = k
          · subst hk
            simp [Ne.symm heq]
          · simp [hk]

theorem find?_erase (key : String) (entries : List (String × α)) (k : String) :
    find? k (erase key entries) = if key = k then none else find? k entries := by
  induction entries with
  | nil => simp [erase]
  | cons e rest ih =>
      have hstep : erase key (e :: rest) =
          if e.1 = key then erase key rest else e :: erase key rest := by
        by_cases h : e.1 = key <;> simp [erase, h]
      rw [hstep]
      by_cases hk : key = k
      · subst hk
        by_cases he : e.1 = key <;> simpa [he, find?_cons] using ih
      · rw [if_neg hk] at ih ⊢
        by_cases he : e.1 = key
        · simpa [he, hk, find?_cons] using ih
        · simp [he, find?_cons, ih]

theorem find?_eq_none_iff (key : String) (entries : List (String × α)) :
    find? key entries = none ↔ key ∉ entries.map Prod.fst := by
  induction entries with
  | nil => simp
  | cons e rest ih =>
      by_cases h : e.1 = key
      · simp [find?, h]
      · simp only [find?, h, if_false, ih, List.map_cons, List.mem_cons, not_or]
        exact ⟨fun hr => ⟨fun he => h he.symm, hr⟩, fun hr => hr.2⟩

theorem find?_isSome_iff (key : String) (entries : List (String × α)) :
    (find? key entries).isSome ↔ key ∈ entries.map Prod.fst := by
  cases h : find? key entries with
  | none => simpa using (find?_eq_none_iff key entries).1 h
  | some v =>
      simp only [Option.isSome_some, true_iff]
      by_cases hm : key ∈ entries.map Prod.fst
      · exact hm
      · rw [(find?_eq_none_iff key entries).2 hm] at h
        cases h

theorem mem_of_find?_eq_some {key : String} {value : α} {entries : List (String × α)}
    (h : find? key entries = some value) : (key, value) ∈ entries := by
  induction entries with
  | nil => simp at h
  | cons e rest ih =>
      obtain ⟨k, v⟩ := e
      by_cases hk : k = key
      · subst hk
        simp only [find?, if_true, Option.some.injEq] at h
        subst h
        exact List.mem_cons_self
      · simp only [find?, hk, if_false] at h
        exact List.mem_cons_of_mem _ (ih h)

theorem find?_eq_some_of_mem {key : String} {value : α} {entries : List (String × α)}
    (hs : Sorted entries) (h : (key, value) ∈ entries) : find? key entries = some value := by
  induction entries with
  | nil => simp at h
  | cons e rest ih =>
      obtain ⟨k, v⟩ := e
      rw [Sorted, List.pairwise_cons] at hs
      rcases List.mem_cons.1 h with heq | hmem
      · cases heq
        simp [find?]
      · have hlt : k < key := hs.1 _ hmem
        have hne : k ≠ key := fun he => String.lt_irrefl key (he ▸ hlt)
        simp only [find?, hne, if_false]
        exact ih hs.2 hmem

theorem mem_insert_fst {key : String} {value : α} {entries : List (String × α)}
    {e : String × α} (h : e ∈ insert key value entries) : e.1 = key ∨ e ∈ entries := by
  induction entries with
  | nil =>
      simp only [insert, List.mem_singleton] at h
      exact Or.inl (congrArg Prod.fst h)
  | cons e' rest ih =>
      obtain ⟨k', v'⟩ := e'
      simp only [insert] at h
      split at h
      · rcases List.mem_cons.1 h with heq | hr
        · exact Or.inl (congrArg Prod.fst heq)
        · exact Or.inr hr
      · split at h
        · rcases List.mem_cons.1 h with heq | hr
          · exact Or.inl (congrArg Prod.fst heq)
          · exact Or.inr (List.mem_cons_of_mem _ hr)
        · rcases List.mem_cons.1 h with heq | hr
          · exact Or.inr (heq ▸ List.mem_cons_self)
          · rcases ih hr with hk | hm
            · exact Or.inl hk
            · exact Or.inr (List.mem_cons_of_mem _ hm)

theorem sorted_insert {entries : List (String × α)} (key : String) (value : α)
    (hs : Sorted entries) : Sorted (insert key value entries) := by
  induction entries with
  | nil => simp [insert, Sorted]
  | cons e rest ih =>
      obtain ⟨k, v⟩ := e
      have hs' := List.pairwise_cons.1 hs
      simp only [insert]
      by_cases hlt : key < k
      · simp only [hlt, if_true]
        refine List.pairwise_cons.2 ⟨fun e he => ?_, hs⟩
        rcases List.mem_cons.1 he with heq | hr
        · exact heq ▸ hlt
        · exact String.lt_trans hlt (hs'.1 e hr)
      · simp only [hlt, if_false]
        by_cases hk : k = key
        · simp only [hk, if_true]
          exact List.pairwise_cons.2 ⟨fun e he => hk ▸ hs'.1 e he, hs'.2⟩
        · simp only [hk, if_false]
          refine List.pairwise_cons.2 ⟨fun e he => ?_, ih hs'.2⟩
          rcases mem_insert_fst he with heq | hr
          · simp only [heq]
            rcases String.le_total key k with hle | hle
            · exact absurd (String.le_antisymm hle (String.not_lt.1 hlt)) (Ne.symm hk)
            · by_cases hgt : k < key
              · exact hgt
              · exact absurd (String.le_antisymm hle (String.not_lt.1 hgt)) hk
          · exact hs'.1 e hr

theorem sorted_erase {entries : List (String × α)} (key : String) (hs : Sorted entries) :
    Sorted (erase key entries) :=
  List.Pairwise.filter _ hs

theorem sorted_iff_keys (entries : List (String × α)) :
    Sorted entries ↔ (entries.map Prod.fst).Pairwise (· < ·) := by
  simp [Sorted, List.pairwise_map]

theorem sorted_of_keys_eq {entries : List (String × α)} {others : List (String × β)}
    (hs : Sorted entries) (h : others.map Prod.fst = entries.map Prod.fst) : Sorted others := by
  rw [sorted_iff_keys, h]
  exact (sorted_iff_keys entries).1 hs

/-- Two sorted lists with the same answers are equal. -/
theorem eq_of_find?_eq {xs ys : List (String × α)} (hx : Sorted xs) (hy : Sorted ys)
    (h : ∀ k, find? k xs = find? k ys) : xs = ys := by
  induction xs generalizing ys with
  | nil =>
      cases ys with
      | nil => rfl
      | cons e rest => simpa [find?] using h e.1
  | cons x xs ih =>
      cases ys with
      | nil => simpa [find?] using h x.1
      | cons y ys =>
          have hx' := List.pairwise_cons.1 hx
          have hy' := List.pairwise_cons.1 hy
          have hxy : x.1 = y.1 := by
            have h1 : (find? x.1 (y :: ys)).isSome := by rw [← h x.1]; simp [find?]
            have h2 : (find? y.1 (x :: xs)).isSome := by rw [h y.1]; simp [find?]
            rw [find?_isSome_iff] at h1 h2
            simp only [List.map_cons, List.mem_cons, List.mem_map] at h1 h2
            rcases h1 with h1 | ⟨a, ha, h1⟩
            · exact h1
            · rcases h2 with h2 | ⟨b, hb, h2⟩
              · exact h2.symm
              · have l1 : y.1 < x.1 := h1 ▸ hy'.1 a ha
                have l2 : x.1 < y.1 := h2 ▸ hx'.1 b hb
                exact absurd l2 (String.lt_asymm l1)
          have hv : x = y := by
            have := h x.1
            simp only [find?, hxy, if_true, Option.some.injEq] at this
            exact Prod.ext hxy this
          subst hv
          congr 1
          refine ih hx'.2 hy'.2 (fun k => ?_)
          by_cases hk : x.1 = k
          · have n1 : find? k xs = none := by
              rw [find?_eq_none_iff, ← hk]
              intro hm
              obtain ⟨a, ha, he⟩ := List.mem_map.1 hm
              exact String.lt_irrefl x.1 (he ▸ hx'.1 a ha)
            have n2 : find? k ys = none := by
              rw [find?_eq_none_iff, ← hk]
              intro hm
              obtain ⟨a, ha, he⟩ := List.mem_map.1 hm
              exact String.lt_irrefl x.1 (he ▸ hy'.1 a ha)
            rw [n1, n2]
          · have := h k
            simpa [find?, hk] using this

/-- Visit the values in order; the names stay. -/
def mapM {m : Type (max u v) → Type w} [Monad m] {α : Type u} {β : Type (max u v)}
    (f : String → α → m β) :
    (entries : List (String × α)) →
      m { out : List (String × β) // out.map Prod.fst = entries.map Prod.fst }
  | [] => pure ⟨[], rfl⟩
  | (k, a) :: rest => do
      let b ← f k a
      let out ← mapM f rest
      pure ⟨(k, b) :: out.1, by simp [out.2]⟩

end Entries

/-- Named values in strictly increasing order of their names. -/
structure SortedMap (α : Type u) where
  /-- The named values, least name first. -/
  entries : List (String × α)
  /-- No name occurs twice and the order is increasing. -/
  sorted : Entries.Sorted entries

namespace SortedMap

variable {α : Type u} {β : Type v} {γ : Type w}

/-- The map without entries. -/
def empty : SortedMap α := ⟨[], List.Pairwise.nil⟩

instance : EmptyCollection (SortedMap α) := ⟨empty⟩

instance : Inhabited (SortedMap α) := ⟨empty⟩

/-- What is stored under `key`. -/
def get? (m : SortedMap α) (key : String) : Option α :=
  Entries.find? key m.entries

/-- Whether something is stored under `key`. -/
def contains (m : SortedMap α) (key : String) : Bool :=
  (m.get? key).isSome

/-- The names, least first. -/
def keys (m : SortedMap α) : List String :=
  m.entries.map Prod.fst

/-- The values, in the order of their names. -/
def values (m : SortedMap α) : List α :=
  m.entries.map Prod.snd

/-- The number of names. -/
def size (m : SortedMap α) : Nat :=
  m.entries.length

/-- Whether there is no name. -/
def isEmpty (m : SortedMap α) : Bool :=
  m.entries.isEmpty

/-- Store `value` under `key`, replacing what was there. -/
def insert (m : SortedMap α) (key : String) (value : α) : SortedMap α :=
  ⟨Entries.insert key value m.entries, Entries.sorted_insert key value m.sorted⟩

/-- Drop what is stored under `key`. -/
def erase (m : SortedMap α) (key : String) : SortedMap α :=
  ⟨Entries.erase key m.entries, Entries.sorted_erase key m.sorted⟩

/-- The map with one entry. -/
def singleton (key : String) (value : α) : SortedMap α :=
  empty.insert key value

/-- The map of a list of named values; of two with one name the later counts. -/
def ofList (entries : List (String × α)) : SortedMap α :=
  entries.foldl (fun m e => m.insert e.1 e.2) empty

/-- Change every value. -/
def map (f : α → β) (m : SortedMap α) : SortedMap β :=
  ⟨m.entries.map (fun e => (e.1, f e.2)),
    Entries.sorted_of_keys_eq m.sorted (by simp [Function.comp_def])⟩

/-- Keep the entries that pass `p`. -/
def filter (p : String → α → Bool) (m : SortedMap α) : SortedMap α :=
  ⟨m.entries.filter (fun e => p e.1 e.2), List.Pairwise.filter _ m.sorted⟩

/-- Visit the values in order of their names; the names stay. -/
def mapM {m : Type (max u v) → Type w} [Monad m] {α : Type u} {β : Type (max u v)}
    (f : String → α → m β) (s : SortedMap α) : m (SortedMap β) := do
  let out ← Entries.mapM f s.entries
  pure ⟨out.1, Entries.sorted_of_keys_eq s.sorted out.2⟩

/-- The first answer `f` gives, least name first. -/
def findSome? (f : String → α → Option β) (m : SortedMap α) : Option β :=
  m.entries.findSome? (fun e => f e.1 e.2)

/-- The map that answers like `f` on the names listed. -/
def tabulate (names : List String) (f : String → Option α) : SortedMap α :=
  names.foldr (fun k m => match f k with
    | some v => m.insert k v
    | none => m) empty

/-- Merge two maps: every name of either gets what `f` makes of both answers. -/
def combine (f : String → Option α → Option β → Option γ) (a : SortedMap α) (b : SortedMap β) :
    SortedMap γ :=
  tabulate (a.keys ++ b.keys) (fun k => f k (a.get? k) (b.get? k))

/-- A map is determined by its answers. -/
theorem ext_get? {a b : SortedMap α} (h : ∀ k, a.get? k = b.get? k) : a = b := by
  have he : a.entries = b.entries := Entries.eq_of_find?_eq a.sorted b.sorted h
  cases a
  cases b
  simp only at he
  subst he
  rfl

@[simp] theorem get?_empty (k : String) : (empty : SortedMap α).get? k = none := rfl

@[simp] theorem get?_emptyCollection (k : String) : (∅ : SortedMap α).get? k = none := rfl

theorem get?_insert (m : SortedMap α) (key : String) (value : α) (k : String) :
    (m.insert key value).get? k = if key = k then some value else m.get? k :=
  Entries.find?_insert key value m.entries k

@[simp] theorem get?_insert_self (m : SortedMap α) (key : String) (value : α) :
    (m.insert key value).get? key = some value := by
  simp [get?_insert]

theorem get?_erase (m : SortedMap α) (key k : String) :
    (m.erase key).get? k = if key = k then none else m.get? k :=
  Entries.find?_erase key m.entries k

theorem contains_eq_isSome (m : SortedMap α) (k : String) :
    m.contains k = (m.get? k).isSome := rfl

@[simp] theorem contains_insert (m : SortedMap α) (key : String) (value : α) (k : String) :
    (m.insert key value).contains k = (decide (key = k) || m.contains k) := by
  by_cases h : key = k <;> simp [contains, get?_insert, h]

theorem mem_keys_iff (m : SortedMap α) (k : String) : k ∈ m.keys ↔ (m.get? k).isSome :=
  (Entries.find?_isSome_iff k m.entries).symm

theorem mem_entries_iff (m : SortedMap α) (k : String) (v : α) :
    (k, v) ∈ m.entries ↔ m.get? k = some v :=
  ⟨Entries.find?_eq_some_of_mem m.sorted, Entries.mem_of_find?_eq_some⟩

theorem get?_map (f : α → β) (m : SortedMap α) (k : String) :
    (m.map f).get? k = (m.get? k).map f := by
  obtain ⟨entries, hs⟩ := m
  simp only [map, get?]
  clear hs
  induction entries with
  | nil => rfl
  | cons e rest ih =>
      by_cases h : e.1 = k <;> simp [Entries.find?, h, ih]

@[simp] theorem keys_map (f : α → β) (m : SortedMap α) : (m.map f).keys = m.keys := by
  simp [map, keys, Function.comp_def]

theorem get?_tabulate (names : List String) (f : String → Option α) (k : String) :
    (tabulate names f).get? k = if k ∈ names then f k else none := by
  induction names with
  | nil => simp [tabulate]
  | cons n rest ih =>
      have hstep : tabulate (n :: rest) f =
          match f n with
          | some v => (tabulate rest f).insert n v
          | none => tabulate rest f := rfl
      rw [hstep]
      by_cases hn : n = k
      · subst hn
        cases hf : f n with
        | some v => simp
        | none => simp [ih, hf]
      · cases hf : f n with
        | some v => simp [get?_insert, hn, ih, Ne.symm hn]
        | none => simp [ih, Ne.symm hn]

theorem get?_combine (f : String → Option α → Option β → Option γ) (a : SortedMap α)
    (b : SortedMap β) (k : String) (hf : f k none none = none) :
    (combine f a b).get? k = f k (a.get? k) (b.get? k) := by
  rw [combine, get?_tabulate]
  by_cases h : k ∈ a.keys ++ b.keys
  · simp [h]
  · have ha : a.get? k = none := by
      simpa [mem_keys_iff] using fun hm => h (List.mem_append_left _ ((mem_keys_iff a k).2 hm))
    have hb : b.get? k = none := by
      simpa [mem_keys_iff] using fun hm => h (List.mem_append_right _ ((mem_keys_iff b k).2 hm))
    simp [h, ha, hb, hf]

theorem keys_sorted (m : SortedMap α) : m.keys.Pairwise (· < ·) :=
  (Entries.sorted_iff_keys m.entries).1 m.sorted

theorem nodup_keys (m : SortedMap α) : m.keys.Nodup :=
  m.keys_sorted.imp String.ne_of_lt

theorem nodup_entries (m : SortedMap α) : m.entries.Nodup :=
  m.sorted.imp (fun hlt heq => String.ne_of_lt hlt (congrArg Prod.fst heq))

/-- A new name adds one entry. -/
theorem perm_entries_insert {m : SortedMap α} {key : String} (h : m.contains key = false)
    (value : α) : (m.insert key value).entries.Perm ((key, value) :: m.entries) := by
  have hnew : (key, value) ∉ m.entries := by
    intro hmem
    simp [contains, (mem_entries_iff m key value).1 hmem] at h
  refine (List.perm_ext_iff_of_nodup (nodup_entries _)
    (List.nodup_cons.2 ⟨hnew, m.nodup_entries⟩)).2 (fun e => ?_)
  rw [List.mem_cons, mem_entries_iff (m.insert key value) e.1 e.2, get?_insert,
    mem_entries_iff m e.1 e.2]
  by_cases hkey : key = e.1
  · have hnone : m.get? e.1 = none := by
      rw [← hkey]
      simpa [contains] using h
    simp [hkey, hnone, Prod.ext_iff, eq_comm]
  · simp [hkey, Prod.ext_iff, Ne.symm hkey]

theorem exists_of_contains {m : SortedMap α} {k : String} (h : m.contains k = true) :
    ∃ v, m.get? k = some v :=
  Option.isSome_iff_exists.1 h

theorem contains_of_get? {m : SortedMap α} {k : String} {v : α} (h : m.get? k = some v) :
    m.contains k = true :=
  Option.isSome_iff_exists.2 ⟨v, h⟩

/-- The first answer may be looked for by names instead of entries. -/
theorem findSome?_keys {m : SortedMap α} {f : String → Option β} {g : String → α → Option β}
    (h : ∀ k v, m.get? k = some v → f k = g k v) : m.keys.findSome? f = m.findSome? g := by
  have hmap : m.entries.map (fun e => f e.1) = m.entries.map (fun e => g e.1 e.2) :=
    List.map_congr_left (fun e he => h e.1 e.2 ((mem_entries_iff m e.1 e.2).1 he))
  have hfirst := congrArg (List.findSome? id) hmap
  simp only [List.findSome?_map] at hfirst
  simpa [keys, findSome?, List.findSome?_map, Function.comp_def] using hfirst

/-- Two maps that list the same names store the same names. -/
theorem contains_eq_of_keys_eq {a : SortedMap α} {b : SortedMap β} (h : a.keys = b.keys)
    (k : String) : a.contains k = b.contains k := by
  rw [Bool.eq_iff_iff, contains_eq_isSome, contains_eq_isSome, ← mem_keys_iff, ← mem_keys_iff, h]

/-- Two maps that store the same names list the same names. -/
theorem keys_eq_of_contains {a : SortedMap α} {b : SortedMap β}
    (h : ∀ k, a.contains k = b.contains k) : a.keys = b.keys := by
  have hunit : a.map (fun _ => ()) = b.map (fun _ => ()) := by
    apply ext_get?
    intro k
    have hk := h k
    simp only [contains] at hk
    rw [get?_map, get?_map]
    cases ha : a.get? k <;> cases hb : b.get? k <;> simp_all
  simpa using congrArg keys hunit

end SortedMap

/-- A set of names, kept in order. -/
abbrev NameSet := SortedMap Unit

namespace NameSet

/-- The set of the names listed. -/
def ofNames (names : List String) : NameSet :=
  names.foldl (fun s n => s.insert n ()) ∅

/-- Everything in either set. -/
def union (a b : NameSet) : NameSet :=
  b.entries.foldl (fun s e => s.insert e.1 ()) a

theorem contains_union (a b : NameSet) (k : String) :
    (a.union b).contains k = true ↔ a.contains k = true ∨ b.contains k = true := by
  have hfold : ∀ (entries : List (String × Unit)) (s : NameSet),
      (entries.foldl (fun s e => s.insert e.1 ()) s).contains k = true ↔
        s.contains k = true ∨ k ∈ entries.map Prod.fst := by
    intro entries
    induction entries with
    | nil => simp
    | cons e rest ih =>
        intro s
        rw [List.foldl_cons, ih]
        simp only [SortedMap.contains_insert, Bool.or_eq_true, decide_eq_true_eq,
          List.map_cons, List.mem_cons, eq_comm (a := k)]
        constructor
        · rintro ((h | h) | h)
          · exact Or.inr (Or.inl h)
          · exact Or.inl h
          · exact Or.inr (Or.inr h)
        · rintro (h | h | h)
          · exact Or.inl (Or.inr h)
          · exact Or.inl (Or.inl h)
          · exact Or.inr h
  exact (hfold b.entries a).trans (or_congr_right (b.mem_keys_iff k))

end NameSet

end ConfigCompiler
