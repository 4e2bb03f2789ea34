import ConfigCompiler.Data.SortedMap
import ConfigCompiler.Number.Decimal

/-!
# Option values

Options hold loosely typed values: null, booleans, numbers, strings, arrays and
objects whose keys are sorted.  `Tree` is the nested data; a `Value` is a tree in
which every object is sorted, and `Options` is what an object holds.

**View.**  `Value.view` shows one level of a value as a `Shape`, and
`Value.ofShape` builds one.  They are inverse to each other, and
`Value.induction` is induction over values level by level, so nothing outside
this module needs the tree, except definitions by recursion on it.

**Equality.**  `Value.same` compares as the program does: by content, where the
two zeros of decimals are equal and an integer never equals a decimal.
-/

namespace ConfigCompiler

/-- A number: an integer as written, or a decimal. -/
inductive Number where
  | int (n : Int)
  | decimal (d : Decimal)
deriving DecidableEq

namespace Number

/-- Equality of numbers of one sort. -/
def same : Number → Number → Bool
  | .int a, .int b => a == b
  | .decimal a, .decimal b => a.same b
  | _, _ => false

end Number

/-- Nested data; the fields of an object are listed in some order. -/
inductive Tree where
  | null
  | bool (b : Bool)
  | number (n : Number)
  | string (s : String)
  | array (items : List Tree)
  | object (fields : List (String × Tree))

namespace Tree

mutual

/-- Every object inside is sorted. -/
def Canonical : Tree → Prop
  | .array items => ItemsCanonical items
  | .object fields => Entries.Sorted fields ∧ FieldsCanonical fields
  | _ => True

/-- Every item is canonical. -/
def ItemsCanonical : List Tree → Prop
  | [] => True
  | t :: rest => t.Canonical ∧ ItemsCanonical rest

/-- Every field is canonical. -/
def FieldsCanonical : List (String × Tree) → Prop
  | [] => True
  | (_, t) :: rest => t.Canonical ∧ FieldsCanonical rest

end

theorem itemsCanonical_iff (items : List Tree) :
    ItemsCanonical items ↔ ∀ t ∈ items, t.Canonical := by
  induction items with
  | nil => simp [ItemsCanonical]
  | cons t rest ih => simp [ItemsCanonical, ih]

theorem fieldsCanonical_iff (fields : List (String × Tree)) :
    FieldsCanonical fields ↔ ∀ e ∈ fields, e.2.Canonical := by
  induction fields with
  | nil => simp [FieldsCanonical]
  | cons e rest ih => simp [FieldsCanonical, ih]

theorem canonical_array (items : List Tree) :
    (Tree.array items).Canonical ↔ ∀ t ∈ items, t.Canonical := by
  rw [Canonical, itemsCanonical_iff]

theorem canonical_object (fields : List (String × Tree)) :
    (Tree.object fields).Canonical ↔
      Entries.Sorted fields ∧ ∀ e ∈ fields, e.2.Canonical := by
  rw [Canonical, fieldsCanonical_iff]

mutual

/-- Equality of content. -/
def same : Tree → Tree → Bool
  | .null, .null => true
  | .bool a, .bool b => a == b
  | .number a, .number b => a.same b
  | .string a, .string b => a == b
  | .array a, .array b => sameItems a b
  | .object a, .object b => sameFields a b
  | _, _ => false

/-- Equality of content, item by item. -/
def sameItems : List Tree → List Tree → Bool
  | [], [] => true
  | a :: as, b :: bs => a.same b && sameItems as bs
  | _, _ => false

/-- Equality of content, field by field. -/
def sameFields : List (String × Tree) → List (String × Tree) → Bool
  | [], [] => true
  | (k, a) :: as, (l, b) :: bs => k == l && a.same b && sameFields as bs
  | _, _ => false

end

end Tree

/-- A tree in which every object is sorted. -/
structure Value where
  tree : Tree
  canonical : tree.Canonical

/-- A bag of named options. -/
abbrev Options := SortedMap Value

/-- One level of a value, over whatever stands below it. -/
inductive Shape (α : Type) where
  | null
  | bool (b : Bool)
  | number (n : Number)
  | string (s : String)
  | array (items : List α)
  | object (fields : SortedMap α)

namespace Value

/-- Two values with the same tree are equal. -/
theorem ext {a b : Value} (h : a.tree = b.tree) : a = b := by
  cases a
  cases b
  simp only at h
  subst h
  rfl

/-- The null value. -/
def null : Value := ⟨.null, trivial⟩

/-- A boolean. -/
def bool (b : Bool) : Value := ⟨.bool b, trivial⟩

/-- A number. -/
def number (n : Number) : Value := ⟨.number n, trivial⟩

/-- An integer. -/
def int (n : Int) : Value := number (.int n)

/-- A string. -/
def string (s : String) : Value := ⟨.string s, trivial⟩

/-- An array. -/
def array (items : List Value) : Value :=
  ⟨.array (items.map Value.tree), by
    rw [Tree.canonical_array]
    intro t ht
    obtain ⟨v, _, rfl⟩ := List.mem_map.1 ht
    exact v.canonical⟩

/-- An object. -/
def object (fields : Options) : Value :=
  ⟨.object (fields.map Value.tree).entries, by
    rw [Tree.canonical_object]
    refine ⟨(fields.map Value.tree).sorted, fun e he => ?_⟩
    obtain ⟨f, _, rfl⟩ := List.mem_map.1 he
    exact f.2.canonical⟩

instance : Inhabited Value := ⟨null⟩

/-- An array of strings. -/
def strings (items : List String) : Value := array (items.map string)

/-- Build a value from one level. -/
def ofShape : Shape Value → Value
  | .null => null
  | .bool b => bool b
  | .number n => number n
  | .string s => string s
  | .array items => array items
  | .object fields => object fields

/-- The items of a list of canonical trees. -/
def itemsOf (items : List Tree) (h : ∀ t ∈ items, t.Canonical) : List Value :=
  items.pmap Value.mk h

/-- The fields of a list of sorted fields with canonical trees. -/
def fieldsOf (fields : List (String × Tree)) (hs : Entries.Sorted fields)
    (h : ∀ e ∈ fields, e.2.Canonical) : Options :=
  ⟨fields.pmap (fun e he => (e.1, ⟨e.2, he⟩)) h,
    Entries.sorted_of_keys_eq hs (by simp [List.map_pmap])⟩

/-- One level of a value. -/
def view : Value → Shape Value
  | ⟨.null, _⟩ => .null
  | ⟨.bool b, _⟩ => .bool b
  | ⟨.number n, _⟩ => .number n
  | ⟨.string s, _⟩ => .string s
  | ⟨.array items, h⟩ => .array (itemsOf items ((Tree.canonical_array items).1 h))
  | ⟨.object fields, h⟩ =>
      .object (fieldsOf fields ((Tree.canonical_object fields).1 h).1
        ((Tree.canonical_object fields).1 h).2)

@[simp] theorem view_null : null.view = .null := rfl

@[simp] theorem view_bool (b : Bool) : (bool b).view = .bool b := rfl

@[simp] theorem view_number (n : Number) : (number n).view = .number n := rfl

@[simp] theorem view_int (n : Int) : (int n).view = .number (.int n) := rfl

@[simp] theorem view_string (s : String) : (string s).view = .string s := rfl

theorem itemsOf_map_tree (items : List Value) (h : ∀ t ∈ items.map Value.tree, t.Canonical) :
    itemsOf (items.map Value.tree) h = items := by
  rw [itemsOf, List.pmap_map]
  exact List.pmap_eq_self.2 (fun _ _ => rfl)

@[simp] theorem view_array (items : List Value) : (array items).view = .array items := by
  simp only [array, view, itemsOf_map_tree]

theorem fieldsOf_map_tree (fields : Options)
    (hs : Entries.Sorted (fields.map Value.tree).entries)
    (h : ∀ e ∈ (fields.map Value.tree).entries, e.2.Canonical) :
    fieldsOf (fields.map Value.tree).entries hs h = fields := by
  obtain ⟨entries, hsorted⟩ := fields
  simp only [fieldsOf, SortedMap.map, List.pmap_map]
  congr 1
  exact List.pmap_eq_self.2 (fun _ _ => rfl)

@[simp] theorem view_object (fields : Options) : (object fields).view = .object fields := by
  simp only [object, view, fieldsOf_map_tree]

/-- Building a level and looking at it are inverse. -/
@[simp] theorem view_ofShape (s : Shape Value) : (ofShape s).view = s := by
  cases s <;> simp [ofShape]

/-- Looking at a level and building it are inverse. -/
@[simp] theorem ofShape_view (v : Value) : ofShape v.view = v := by
  obtain ⟨t, h⟩ := v
  cases t with
  | null => rfl
  | bool b => rfl
  | number n => rfl
  | string s => rfl
  | array items =>
      apply ext
      simp [view, ofShape, array, itemsOf, List.map_pmap]
  | object fields =>
      apply ext
      simp [view, ofShape, object, fieldsOf, SortedMap.map, List.map_pmap]

/-- Values with the same view are equal. -/
theorem view_inj {a b : Value} : a.view = b.view ↔ a = b :=
  ⟨fun h => by rw [← ofShape_view a, h, ofShape_view], fun h => by rw [h]⟩

/-- Induction over values, one level at a time. -/
theorem induction {motive : Value → Prop}
    (null : motive Value.null)
    (bool : ∀ b, motive (Value.bool b))
    (number : ∀ n, motive (Value.number n))
    (string : ∀ s, motive (Value.string s))
    (array : ∀ items, (∀ v ∈ items, motive v) → motive (Value.array items))
    (object : ∀ fields : Options, (∀ k v, fields.get? k = some v → motive v) →
      motive (Value.object fields))
    (v : Value) : motive v := by
  obtain ⟨t, h⟩ := v
  refine Tree.rec (motive_1 := fun t => ∀ h, motive ⟨t, h⟩)
    (motive_2 := fun items => ∀ t ∈ items, ∀ h, motive ⟨t, h⟩)
    (motive_3 := fun fields => ∀ e ∈ fields, ∀ h, motive ⟨e.2, h⟩)
    (motive_4 := fun e => ∀ h, motive ⟨e.2, h⟩)
    (fun _ => null) (fun b _ => bool b) (fun n _ => number n) (fun s _ => string s)
    (fun items ih h => ?_) (fun fields ih h => ?_)
    (by simp) (fun t rest ht hrest => ?_) (by simp) (fun e rest he hrest => ?_)
    (fun _ _ ht => ht) t h
  · have hc := (Tree.canonical_array items).1 h
    have : (⟨.array items, h⟩ : Value) = Value.array (itemsOf items hc) := by
      apply ext
      simp [Value.array, itemsOf, List.map_pmap]
    rw [this]
    refine array _ (fun v hv => ?_)
    obtain ⟨t, ht, rfl⟩ := List.mem_pmap.1 hv
    exact ih t ht _
  · have hc := (Tree.canonical_object fields).1 h
    have : (⟨.object fields, h⟩ : Value) = Value.object (fieldsOf fields hc.1 hc.2) := by
      apply ext
      simp [Value.object, fieldsOf, SortedMap.map, List.map_pmap]
    rw [this]
    refine object _ (fun k v hv => ?_)
    have hm := (SortedMap.mem_entries_iff _ k v).2 hv
    obtain ⟨e, he, heq⟩ := List.mem_pmap.1 hm
    cases heq
    exact ih e he _
  · intro t' ht' h'
    rcases List.mem_cons.1 ht' with rfl | hm
    · exact ht h'
    · exact hrest t' hm h'
  · intro e' he' h'
    rcases List.mem_cons.1 he' with rfl | hm
    · exact he h'
    · exact hrest e' hm h'

/-- Equality of content. -/
def same (a b : Value) : Bool := a.tree.same b.tree

end Value

end ConfigCompiler
