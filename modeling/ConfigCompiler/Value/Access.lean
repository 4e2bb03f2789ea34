import ConfigCompiler.Value.Overlay

/-!
# Reading options

Typed looks at a value and at the options of a bag.  A missing option and one of
another type read alike.
-/

namespace ConfigCompiler

namespace Value

/-- Whether the value is null. -/
def isNull (v : Value) : Bool :=
  match v.view with
  | .null => true
  | _ => false

/-- The string, if the value is one. -/
def str? (v : Value) : Option String :=
  match v.view with
  | .string s => some s
  | _ => none

/-- The integer, if the value is one. -/
def int? (v : Value) : Option Int :=
  match v.view with
  | .number (.int n) => some n
  | _ => none

/-- The items, if the value is an array. -/
def items? (v : Value) : Option (List Value) :=
  match v.view with
  | .array items => some items
  | _ => none

/-- The fields, if the value is an object. -/
def fields? (v : Value) : Option Options :=
  match v.view with
  | .object fields => some fields
  | _ => none

/-- Whether the value is a string. -/
def isString (v : Value) : Bool := v.str?.isSome

@[simp] theorem str?_string (s : String) : (string s).str? = some s := by simp [str?]

@[simp] theorem int?_int (n : Int) : (int n).int? = some n := by simp [int?]

@[simp] theorem items?_array (items : List Value) : (array items).items? = some items := by
  simp [items?]

@[simp] theorem fields?_object (fields : Options) : (object fields).fields? = some fields := by
  simp [fields?]

theorem eq_string_of_str? {v : Value} {s : String} (h : v.str? = some s) : v = string s := by
  rw [← view_inj, view_string]
  cases hv : v.view <;> simp_all [str?]

theorem eq_array_of_items? {v : Value} {items : List Value} (h : v.items? = some items) :
    v = array items := by
  rw [← view_inj, view_array]
  cases hv : v.view <;> simp_all [items?]

theorem eq_object_of_fields? {v : Value} {fields : Options} (h : v.fields? = some fields) :
    v = object fields := by
  rw [← view_inj, view_object]
  cases hv : v.view <;> simp_all [fields?]

/-- Objects are told by their fields. -/
theorem object_inj {fields fields' : Options} (h : object fields = object fields') :
    fields = fields' := by
  have hfields := congrArg fields? h
  rw [fields?_object, fields?_object] at hfields
  exact Option.some.inj hfields

end Value

namespace Options

/-- The string stored under `key`. -/
def str? (options : Options) (key : String) : Option String :=
  (options.get? key).bind Value.str?

/-- The strings of the list stored under `key`; other items are skipped. -/
def strings (options : Options) (key : String) : List String :=
  (((options.get? key).bind Value.items?).getD []).filterMap Value.str?

/-- The bag stored under `key`, empty unless there is one. -/
def bag (options : Options) (key : String) : Options :=
  ((options.get? key).bind Value.fields?).getD ∅

/-- An option that reads as a string is that string. -/
theorem get?_of_str? {options : Options} {key s : String} (h : options.str? key = some s) :
    options.get? key = some (.string s) := by
  obtain ⟨v, hv, hs⟩ := Option.bind_eq_some_iff.1 h
  rw [hv, Value.eq_string_of_str? hs]

end Options

end ConfigCompiler
