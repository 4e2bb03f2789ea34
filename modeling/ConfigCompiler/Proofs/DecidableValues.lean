import ConfigCompiler.Entry.EntrySet

/-!
# Equality of values is decidable

Nested data hold finitely many numbers, texts and booleans, so that two of them can be
compared, and with them bags of options and sets of entries.  Unlike `Value.same` the
comparison tells the two zeros of decimals apart.

**Results.**
* `Tree.eqb_iff`: the comparison level by level decides equality.
* Instances of `DecidableEq` for values, maps of decidable things, and sets of entries.
-/

namespace ConfigCompiler
namespace Tree

mutual

/-- Whether data are equal. -/
def eqb : Tree → Tree → Bool
  | .null, .null => true
  | .bool a, .bool b => a == b
  | .number a, .number b => a == b
  | .string a, .string b => a == b
  | .array a, .array b => itemsEqb a b
  | .object a, .object b => fieldsEqb a b
  | _, _ => false

/-- Whether items are equal, one by one. -/
def itemsEqb : List Tree → List Tree → Bool
  | [], [] => true
  | a :: as, b :: bs => a.eqb b && itemsEqb as bs
  | _, _ => false

/-- Whether fields are equal, one by one. -/
def fieldsEqb : List (String × Tree) → List (String × Tree) → Bool
  | [], [] => true
  | (k, a) :: as, (l, b) :: bs => k == l && a.eqb b && fieldsEqb as bs
  | _, _ => false

end

mutual

theorem eqb_iff (a b : Tree) : a.eqb b = true ↔ a = b := by
  match a with
  | .null => cases b <;> simp [eqb]
  | .bool a => cases b <;> simp [eqb]
  | .number a => cases b <;> simp [eqb]
  | .string a => cases b <;> simp [eqb]
  | .array items =>
      cases b with
      | array others => simp [eqb, itemsEqb_iff items others]
      | _ => simp [eqb]
  | .object fields =>
      cases b with
      | object others => simp [eqb, fieldsEqb_iff fields others]
      | _ => simp [eqb]

theorem itemsEqb_iff (items others : List Tree) :
    itemsEqb items others = true ↔ items = others := by
  match items, others with
  | [], [] => simp [itemsEqb]
  | [], _ :: _ => simp [itemsEqb]
  | _ :: _, [] => simp [itemsEqb]
  | a :: as, b :: bs => simp [itemsEqb, eqb_iff a b, itemsEqb_iff as bs]

theorem fieldsEqb_iff (fields others : List (String × Tree)) :
    fieldsEqb fields others = true ↔ fields = others := by
  match fields, others with
  | [], [] => simp [fieldsEqb]
  | [], _ :: _ => simp [fieldsEqb]
  | _ :: _, [] => simp [fieldsEqb]
  | (k, a) :: as, (l, b) :: bs =>
      simp [fieldsEqb, eqb_iff a b, fieldsEqb_iff as bs]

end

instance : DecidableEq Tree := fun a b => decidable_of_iff _ (eqb_iff a b)

end Tree

instance : DecidableEq Value := fun a b =>
  decidable_of_iff (a.tree = b.tree) ⟨fun h => by cases a; cases b; cases h; rfl, congrArg _⟩

instance {α : Type} [DecidableEq α] : DecidableEq (SortedMap α) := fun a b =>
  decidable_of_iff (a.entries = b.entries)
    ⟨fun h => by cases a; cases b; cases h; rfl, congrArg _⟩

instance : DecidableEq EntrySet := fun a b =>
  decidable_of_iff (a.configs = b.configs ∧ a.aliases = b.aliases)
    ⟨fun h => by cases a; cases b; cases h.1; cases h.2; rfl, fun h => h ▸ ⟨rfl, rfl⟩⟩

end ConfigCompiler
