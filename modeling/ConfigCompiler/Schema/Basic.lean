import ConfigCompiler.Schema.Rule

/-!
# Schemas

A `Schema` holds a rule for every defined option and says whether other options
are accepted.  It is built by contributions, one after the other; each changes the
rule of its own option only.

**Results.**
* `Schema.get?_apply`: what one contribution does to the rule of one option.
-/

namespace ConfigCompiler

/-- What is known about a bag of options. -/
structure Schema where
  /-- The rules of the defined options. -/
  rules : SortedMap OptionRule
  /-- Whether options that nobody defines are accepted. -/
  allowsUndefined : Bool

namespace Schema

/-- The schema that defines no option and accepts no other. -/
def empty : Schema := ⟨∅, false⟩

/-- The schema after one contribution. -/
def apply (s : Schema) (c : Contribution) : Schema :=
  match c with
  | .allowUndefined allow => { s with allowsUndefined := allow }
  | c =>
      match c.key? with
      | some key =>
          { s with rules := s.rules.insert key (((s.rules.get? key).getD .blank).apply c) }
      | none => s

/-- The schema after a list of contributions. -/
def extend (s : Schema) (cs : List Contribution) : Schema :=
  cs.foldl apply s

/-- Whether an option is defined. -/
def defines (s : Schema) (key : String) : Bool := s.rules.contains key

/-- Whether an option is required. -/
def requires (s : Schema) (key : String) : Bool :=
  (s.rules.get? key).any (fun r => r.required)

/-- The defined options, in order. -/
def definedKeys (s : Schema) : List String := s.rules.keys

/-- The fixed default of an option. -/
def defaultOf? (s : Schema) (key : String) : Option Value :=
  (s.rules.get? key).bind OptionRule.fixedDefault?

/-- A contribution changes the rule of its own option only. -/
theorem get?_apply (s : Schema) (c : Contribution) (k : String) :
    (s.apply c).rules.get? k =
      if c.key? = some k then some (((s.rules.get? k).getD .blank).apply c)
      else s.rules.get? k := by
  cases c <;> simp only [apply, Contribution.key?, SortedMap.get?_insert, Option.some.injEq,
    reduceCtorEq, if_false]
  all_goals
    split
    · rename_i h
      subst h
      rfl
    · rfl

end Schema

end ConfigCompiler
