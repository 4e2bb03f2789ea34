import ConfigCompiler.Value.Access

/-!
# Types of option values

The types an option may be limited to.  `integer` is contained in `number`, and
`stringList` in `array`; `ValueType.ofValue` names the widest type that tells a
value apart.
-/

namespace ConfigCompiler

/-- A type of option values. -/
inductive ValueType where
  | null
  | bool
  | integer
  | number
  | string
  | array
  /-- An array of strings only. -/
  | stringList
  | object
deriving DecidableEq

namespace ValueType

/-- Every type, in the order of declaration. -/
def all : List ValueType :=
  [.null, .bool, .integer, .number, .string, .array, .stringList, .object]

/-- The name used in messages. -/
def name : ValueType → String
  | .null => "null"
  | .bool => "bool"
  | .integer => "int"
  | .number => "number"
  | .string => "string"
  | .array => "array"
  | .stringList => "string[]"
  | .object => "object"

/-- The type of a name. -/
def ofName? (name : String) : Option ValueType :=
  all.find? (fun t => t.name == name)

/-- Whether a value has the type. -/
def accepts (t : ValueType) (v : Value) : Bool :=
  match t, v.view with
  | .null, .null => true
  | .bool, .bool _ => true
  | .integer, .number (.int _) => true
  | .number, .number _ => true
  | .string, .string _ => true
  | .array, .array _ => true
  | .stringList, .array items => items.all Value.isString
  | .object, .object _ => true
  | _, _ => false

/-- The type a value is said to have in messages. -/
def ofValue (v : Value) : ValueType :=
  match v.view with
  | .null => .null
  | .bool _ => .bool
  | .number (.int _) => .integer
  | .number (.decimal _) => .number
  | .string _ => .string
  | .array _ => .array
  | .object _ => .object

theorem accepts_null (v : Value) : null.accepts v = v.isNull := by
  unfold accepts Value.isNull
  cases v.view <;> rfl

theorem accepts_string (v : Value) : string.accepts v = v.str?.isSome := by
  unfold accepts Value.str?
  cases v.view <;> rfl

theorem accepts_integer (v : Value) : integer.accepts v = v.int?.isSome := by
  unfold accepts Value.int?
  cases v.view with
  | number n => cases n <;> rfl
  | _ => rfl

theorem accepts_stringList (v : Value) :
    stringList.accepts v = v.items?.any (fun items => items.all Value.isString) := by
  unfold accepts Value.items?
  cases v.view <;> rfl

theorem accepts_object (v : Value) : object.accepts v = v.fields?.isSome := by
  unfold accepts Value.fields?
  cases v.view <;> rfl

/-- A value has the type it is said to have. -/
theorem accepts_ofValue (v : Value) : (ofValue v).accepts v = true := by
  unfold ofValue accepts
  cases h : v.view with
  | number n => cases n <;> rfl
  | _ => rfl

end ValueType

end ConfigCompiler
