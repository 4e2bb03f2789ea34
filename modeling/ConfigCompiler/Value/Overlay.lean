import ConfigCompiler.Value.Basic

/-!
# Deep merge

An overlay is laid over a base: objects are merged field by field, and everything
else of the overlay replaces what stands below it.  Arrays are values and are
replaced whole.

**Results.**
* `Value.overlay_object_object`: two objects merge as option bags do.
* `Value.overlay_of_left`, `Value.overlay_of_right`: otherwise the overlay counts.
* `Options.get?_merge`: the merge of two bags, name by name.
-/

namespace ConfigCompiler

namespace Tree

mutual

/-- Lay a tree over `base`. -/
def overlay (base : Tree) : Tree → Tree
  | .object fields =>
      match base with
      | .object under => .object (overlayFields under fields)
      | _ => .object fields
  | t => t

/-- Lay fields over the fields `under`, one after the other. -/
def overlayFields (under : List (String × Tree)) : List (String × Tree) → List (String × Tree)
  | [] => under
  | (k, t) :: rest =>
      overlayFields
        (Entries.insert k
          (match Entries.find? k under with
            | some b => b.overlay t
            | none => t)
          under)
        rest

end

theorem sorted_overlayFields {under fields : List (String × Tree)} (h : Entries.Sorted under) :
    Entries.Sorted (overlayFields under fields) := by
  induction fields generalizing under with
  | nil => simpa [overlayFields] using h
  | cons e rest ih => exact ih (Entries.sorted_insert _ _ h)

theorem canonical_insert {fields : List (String × Tree)} {k : String} {t : Tree}
    (h : ∀ e ∈ fields, e.2.Canonical) (ht : t.Canonical) :
    ∀ e ∈ Entries.insert k t fields, e.2.Canonical := by
  induction fields with
  | nil => simpa [Entries.insert] using ht
  | cons e rest ih =>
      obtain ⟨k', t'⟩ := e
      have hr := ih (fun e he => h e (List.mem_cons_of_mem _ he))
      have hh := h (k', t') List.mem_cons_self
      simp only [Entries.insert]
      split
      · intro e he
        rcases List.mem_cons.1 he with rfl | he
        · exact ht
        · exact h e he
      · split
        · intro e he
          rcases List.mem_cons.1 he with rfl | he
          · exact ht
          · exact h e (List.mem_cons_of_mem _ he)
        · intro e he
          rcases List.mem_cons.1 he with rfl | he
          · exact hh
          · exact hr e he

mutual

theorem canonical_overlay (base t : Tree) (hb : base.Canonical) (ht : t.Canonical) :
    (base.overlay t).Canonical := by
  match t with
  | .null => simpa [overlay] using ht
  | .bool _ => simpa [overlay] using ht
  | .number _ => simpa [overlay] using ht
  | .string _ => simpa [overlay] using ht
  | .array _ => simpa [overlay] using ht
  | .object fields =>
      cases base with
      | object under =>
          simp only [overlay]
          rw [canonical_object] at hb ht ⊢
          exact ⟨sorted_overlayFields hb.1, canonical_overlayFields under fields hb.2 ht.2⟩
      | null => simpa [overlay] using ht
      | bool b => simpa [overlay] using ht
      | number n => simpa [overlay] using ht
      | string s => simpa [overlay] using ht
      | array items => simpa [overlay] using ht

theorem canonical_overlayFields (under fields : List (String × Tree))
    (hu : ∀ e ∈ under, e.2.Canonical) (hf : ∀ e ∈ fields, e.2.Canonical) :
    ∀ e ∈ overlayFields under fields, e.2.Canonical := by
  match fields with
  | [] => simpa [overlayFields] using hu
  | (k, t) :: rest =>
      have ht : t.Canonical := hf (k, t) List.mem_cons_self
      have hrest : ∀ e ∈ rest, e.2.Canonical := fun e he => hf e (List.mem_cons_of_mem _ he)
      simp only [overlayFields]
      refine canonical_overlayFields _ rest (canonical_insert hu ?_) hrest
      cases h : Entries.find? k under with
      | none => simpa using ht
      | some b =>
          simpa using canonical_overlay b t (hu _ (Entries.mem_of_find?_eq_some h)) ht

end

/-- Fields laid over others, name by name. -/
theorem find?_overlayFields (under : List (String × Tree)) {fields : List (String × Tree)}
    (hs : Entries.Sorted fields) (k : String) :
    Entries.find? k (overlayFields under fields) =
      match Entries.find? k fields with
      | none => Entries.find? k under
      | some t =>
          some (match Entries.find? k under with
            | some b => b.overlay t
            | none => t) := by
  induction fields generalizing under with
  | nil => rfl
  | cons e rest ih =>
      obtain ⟨k', t⟩ := e
      have hs' := List.pairwise_cons.1 hs
      simp only [overlayFields]
      rw [ih _ hs'.2]
      by_cases hk : k' = k
      · subst hk
        have hnone : Entries.find? k' rest = none := by
          rw [Entries.find?_eq_none_iff]
          intro hm
          obtain ⟨a, ha, he⟩ := List.mem_map.1 hm
          exact String.lt_irrefl k' (he ▸ hs'.1 a ha)
        simp [hnone, Entries.find?, Entries.find?_insert]
      · simp [Entries.find?, Entries.find?_insert, hk]

end Tree

namespace Value

/-- Lay `top` over `base`. -/
def overlay (base top : Value) : Value :=
  ⟨base.tree.overlay top.tree, Tree.canonical_overlay _ _ base.canonical top.canonical⟩

end Value

namespace Options

/-- Lay the bag `top` over the bag `base`. -/
def merge (base top : Options) : Options :=
  SortedMap.combine
    (fun _ b t =>
      match b, t with
      | some b, some t => some (b.overlay t)
      | some b, none => some b
      | none, t => t)
    base top

/-- Fill the gaps of `existing` from `contributed`. -/
def fillMissing (existing contributed : Options) : Options :=
  merge contributed existing

theorem get?_merge (base top : Options) (k : String) :
    (merge base top).get? k =
      match base.get? k, top.get? k with
      | some b, some t => some (b.overlay t)
      | some b, none => some b
      | none, t => t := by
  rw [merge, SortedMap.get?_combine _ _ _ _ rfl]

/-- Nothing laid over a bag changes it. -/
@[simp] theorem merge_empty (base : Options) : merge base ∅ = base := by
  apply SortedMap.ext_get?
  intro k
  rw [get?_merge]
  cases base.get? k <;> rfl

/-- A bag laid over nothing stays as it is. -/
@[simp] theorem empty_merge (top : Options) : merge ∅ top = top := by
  apply SortedMap.ext_get?
  intro k
  rw [get?_merge]
  rfl

end Options

namespace Value

theorem tree_object (fields : Options) :
    (object fields).tree = .object (fields.map Value.tree).entries := rfl

theorem overlay_object_object (base top : Options) :
    (object base).overlay (object top) = object (Options.merge base top) := by
  apply ext
  simp only [overlay, tree_object, Tree.overlay]
  congr 1
  refine Entries.eq_of_find?_eq
    (Tree.sorted_overlayFields (base.map Value.tree).sorted)
    ((Options.merge base top).map Value.tree).sorted (fun k => ?_)
  rw [Tree.find?_overlayFields _ (top.map Value.tree).sorted]
  have hb := SortedMap.get?_map Value.tree base k
  have ht := SortedMap.get?_map Value.tree top k
  have hm := SortedMap.get?_map Value.tree (Options.merge base top) k
  rw [Options.get?_merge] at hm
  simp only [SortedMap.get?] at hb ht hm
  rw [hb, ht, hm]
  cases Entries.find? k base.entries <;> cases Entries.find? k top.entries <;> rfl

/-- What is no object is replaced. -/
theorem overlay_of_left {base : Value} (h : ∀ fields, base ≠ object fields) (top : Value) :
    base.overlay top = top := by
  apply ext
  obtain ⟨b, hb⟩ := base
  obtain ⟨t, ht⟩ := top
  cases t with
  | object fields =>
      cases b with
      | object under =>
          have hc := (Tree.canonical_object under).1 hb
          refine absurd ?_ (h (fieldsOf under hc.1 hc.2))
          apply ext
          simp [object, fieldsOf, SortedMap.map, List.map_pmap]
      | null => simp [overlay, Tree.overlay]
      | bool _ => simp [overlay, Tree.overlay]
      | number _ => simp [overlay, Tree.overlay]
      | string _ => simp [overlay, Tree.overlay]
      | array _ => simp [overlay, Tree.overlay]
  | null => simp [overlay, Tree.overlay]
  | bool _ => simp [overlay, Tree.overlay]
  | number _ => simp [overlay, Tree.overlay]
  | string _ => simp [overlay, Tree.overlay]
  | array _ => simp [overlay, Tree.overlay]

/-- What is no object replaces. -/
theorem overlay_of_right (base : Value) {top : Value} (h : ∀ fields, top ≠ object fields) :
    base.overlay top = top := by
  apply ext
  obtain ⟨t, ht⟩ := top
  cases t with
  | object fields =>
      have hc := (Tree.canonical_object fields).1 ht
      refine absurd ?_ (h (fieldsOf fields hc.1 hc.2))
      apply ext
      simp [object, fieldsOf, SortedMap.map, List.map_pmap]
  | null => simp [overlay, Tree.overlay]
  | bool _ => simp [overlay, Tree.overlay]
  | number _ => simp [overlay, Tree.overlay]
  | string _ => simp [overlay, Tree.overlay]
  | array _ => simp [overlay, Tree.overlay]

end Value

end ConfigCompiler
