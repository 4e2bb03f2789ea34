import ConfigCompiler.Value.Basic

/-!
# JSON documents

A `Document` is what stands in a JSON text: numbers that may be out of range,
strings that may not stand for a text, and objects with their fields as listed,
repetitions included.  What of it is a value is decided when it is decoded: a field
that nobody reads is not looked into.

**Decoding.**  `Document.value?` allows a limited depth, needs numbers in range and
strings without lone surrogates, and lets the last of several fields of one name
count.  `Document.record?` finds the known fields of a record, `Document.mapOf?`
decodes a map.  `Document.ofValue` is the document of a value.
-/

namespace ConfigCompiler

namespace Json

/-- What stands in a JSON text.  A number is none if it is out of range, a string if
it holds half a surrogate pair. -/
inductive Document where
  | null
  | bool (b : Bool)
  | number (n : Option Number)
  | string (s : Option String)
  | array (items : List Document)
  | object (fields : List (Option String × Document))

instance : Inhabited Document := ⟨.null⟩

namespace Document

/-- How deep arrays and objects may be nested in a text that is decoded. -/
def maxDepth : Nat := 128

mutual

/-- The value that stands in a document, nested less than `depth` levels deep. -/
def value? (depth : Nat) : Document → Option Value
  | .null => some .null
  | .bool b => some (.bool b)
  | .number n => n.map .number
  | .string s => s.map .string
  | .array items =>
      if depth ≤ 1 then none else (itemValues? (depth - 1) items).map .array
  | .object fields =>
      if depth ≤ 1 then none else (fieldValues? (depth - 1) fields).map .object

/-- The values of a list of items. -/
def itemValues? (depth : Nat) : List Document → Option (List Value)
  | [] => some []
  | d :: rest =>
      match d.value? depth, itemValues? depth rest with
      | some v, some vs => some (v :: vs)
      | _, _ => none

/-- The values of a list of fields; the last of one name counts. -/
def fieldValues? (depth : Nat) : List (Option String × Document) → Option Options
  | [] => some ∅
  | (key, d) :: rest =>
      match key, d.value? depth, fieldValues? depth rest with
      | some k, some v, some m => some (if m.contains k then m else m.insert k v)
      | _, _, _ => none

end

mutual

/-- The document of a tree. -/
def ofTree : Tree → Document
  | .null => .null
  | .bool b => .bool b
  | .number n => .number (some n)
  | .string s => .string (some s)
  | .array items => .array (ofItems items)
  | .object fields => .object (ofFields fields)

/-- The documents of items. -/
def ofItems : List Tree → List Document
  | [] => []
  | t :: rest => ofTree t :: ofItems rest

/-- The documents of fields. -/
def ofFields : List (String × Tree) → List (Option String × Document)
  | [] => []
  | (k, t) :: rest => (some k, ofTree t) :: ofFields rest

end

/-- The document of a value. -/
def ofValue (v : Value) : Document := ofTree v.tree

/-- The text of a string. -/
def text? : Document → Option String
  | .string s => s
  | _ => none

/-- The truth of a boolean. -/
def bool? : Document → Option Bool
  | .bool b => some b
  | _ => none

/-- An integer from 0 to below `bound`. -/
def natBelow? (bound : Nat) : Document → Option Nat
  | .number (some (.int n)) => if 0 ≤ n && n < bound then some n.toNat else none
  | _ => none

/-- The options in an object nested less than `depth` levels deep. -/
def options? (depth : Nat) (d : Document) : Option Options :=
  match d with
  | .object fields => if depth ≤ 1 then none else fieldValues? (depth - 1) fields
  | _ => none

/-- A map of things that `decode` reads; the last of one name counts. -/
def mapOf? {α : Type} (decode : Document → Option α) : Document → Option (SortedMap α)
  | .object fields =>
      fields.foldlM (fun m f => do return m.insert (← f.1) (← decode f.2)) ∅
  | _ => none

/-- The fields of one name. -/
def fieldsNamed (name : String) (fields : List (Option String × Document)) : List Document :=
  fields.filterMap (fun f => if f.1 = some name then some f.2 else none)

/-- The field of one name, if there is one; none of it may be repeated. -/
def uniqueField? (fields : List (Option String × Document)) (name : String) :
    Option (Option Document) :=
  match fieldsNamed name fields with
  | [] => some none
  | [d] => some (some d)
  | _ => none

/-- The known fields of a record, in the order of `names`.  A record is an object,
where other fields are ignored, or an array of the first fields in order. -/
def record? (names : List String) : Document → Option (List (Option Document))
  | .object fields =>
      if fields.all (fun f => f.1.isSome) then names.mapM (uniqueField? fields) else none
  | .array items =>
      if items.length ≤ names.length then
        some (items.map some ++ List.replicate (names.length - items.length) none)
      else none
  | _ => none

end Document

end Json

end ConfigCompiler
