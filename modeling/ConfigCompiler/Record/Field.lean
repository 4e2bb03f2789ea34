import ConfigCompiler.Entity.Operation
import ConfigCompiler.Failure
import ConfigCompiler.Number.Word
import ConfigCompiler.Text.Quoted
import ConfigCompiler.Value.Access

/-!
# Fields of records

A record is built from a bag of resolved options.  A `FieldForm` says which values a
field accepts, what it is when absent, and how it is written back.

**Order of problems.**  The options present are looked at in the order of their
names, and the first that its field refuses is the problem; if there is none, it is
the first mandatory field, in the order of declaration, that is absent.
-/

namespace ConfigCompiler

namespace Record

/-- The words for what stands in place of something else. -/
def found (v : Value) : String :=
  match v.view with
  | .null => "null"
  | .bool b => s!"boolean `{b}`"
  | .number (.int n) => s!"integer `{n}`"
  | .number (.decimal d) => "floating point `" ++ String.ofList d.text ++ "`"
  | .string s => "string " ++ showQuoted s
  | .array _ => "sequence"
  | .object _ => "map"

/-- A value of the wrong type. -/
def invalidType (v : Value) (wanted : String) : String :=
  "invalid type: " ++ found v ++ ", expected " ++ wanted

/-- A mandatory field that is absent. -/
def missingField (name : String) : String := s!"missing field `{name}`"

/-- What a field holds. -/
structure FieldForm (α : Type) where
  /-- Accept a value, or say what is wrong with it. -/
  decode : Value → Except String α
  /-- What the field is when absent; none if it is mandatory. -/
  absent? : Option α
  /-- Write the field back. -/
  encode : α → Value

/-- A string. -/
def decodeText (v : Value) : Except String String :=
  match v.str? with
  | some s => .ok s
  | none => .error (invalidType v "a string")

/-- A string or null. -/
def decodeOptionalText (v : Value) : Except String (Option String) :=
  if v.isNull then .ok none else (decodeText v).map some

/-- A list of things. -/
def decodeList {α : Type} (decode : Value → Except String α) (v : Value) :
    Except String (List α) :=
  match v.items? with
  | some items => items.mapM decode
  | none => .error (invalidType v "a sequence")

/-- A bag of options. -/
def decodeBag (v : Value) : Except String Options :=
  match v.fields? with
  | some fields => .ok fields
  | none => .error (invalidType v "a map")

/-- A map of bags. -/
def decodeBags (v : Value) : Except String (SortedMap Options) :=
  match v.fields? with
  | some fields => fields.mapM (fun _ v => decodeBag v)
  | none => .error (invalidType v "a map")

/-- An integer of 64 bits with sign. -/
def decodeInteger (v : Value) : Except String Int :=
  match v.int? with
  | some n =>
      if Word.isSigned n then .ok n
      else .error s!"invalid value: integer `{n}`, expected i64"
  | none => .error (invalidType v "i64")

/-- An operation by its name. -/
def decodeOperationName (name : String) : Except String Operation :=
  match Operation.ofName? name with
  | some o => .ok o
  | none =>
      .error (s!"unknown variant `{name}`, expected one of " ++
        ", ".intercalate (Operation.all.map (fun o => "`" ++ o.name ++ "`")))

/-- An operation: its name, or an object that holds null under its name. -/
def decodeOperation (v : Value) : Except String Operation :=
  match v.view with
  | .string s => decodeOperationName s
  | .object fields =>
      match fields.entries with
      | [(name, inner)] => do
          let o ← decodeOperationName name
          if inner.isNull then .ok o else .error (invalidType inner "unit")
      | _ => .error "invalid value: map, expected map with a single key"
  | _ => .error (invalidType v "string or map")

/-- A mandatory string. -/
def text : FieldForm String := ⟨decodeText, none, .string⟩

/-- A string that may be absent or null. -/
def optionalText : FieldForm (Option String) :=
  ⟨decodeOptionalText, some none, fun s => (s.map Value.string).getD .null⟩

/-- A list of strings. -/
def texts : FieldForm (List String) := ⟨decodeList decodeText, some [], .strings⟩

/-- A bag of options. -/
def bag : FieldForm Options := ⟨decodeBag, some ∅, .object⟩

/-- A map of bags. -/
def bags : FieldForm (SortedMap Options) :=
  ⟨decodeBags, some ∅, fun m => .object (m.map Value.object)⟩

/-- Any value; null counts as absent. -/
def anything : FieldForm (Option Value) :=
  ⟨fun v => .ok (if v.isNull then none else some v), some none, fun v => v.getD .null⟩

/-- An integer, zero when absent. -/
def integer : FieldForm Int := ⟨decodeInteger, some 0, .int⟩

/-- A list of operations. -/
def operations : FieldForm (List Operation) :=
  ⟨decodeList decodeOperation, some [], fun os => .strings (os.map Operation.name)⟩

/-- A named field of a record, as far as its values are checked. -/
structure Field where
  name : String
  check : Value → Except String Unit

/-- The field of a form. -/
def FieldForm.field {α : Type} (form : FieldForm α) (name : String) : Field :=
  ⟨name, fun v => (form.decode v).map (fun _ => ())⟩

/-- Check the options present, in order, each against its field. -/
def checkPresent (fields : List Field) (options : Options) : Except String Unit :=
  options.entries.forM (fun e =>
    match fields.find? (fun f => f.name == e.1) with
    | some f => f.check e.2
    | none => .ok ())

/-- Read a field. -/
def FieldForm.read {α : Type} (form : FieldForm α) (options : Options) (name : String) :
    Except String α :=
  match options.get? name with
  | some v => form.decode v
  | none =>
      match form.absent? with
      | some a => .ok a
      | none => .error (missingField name)

/-- The options that no field is named for. -/
def extraOptions (fields : List Field) (options : Options) : Options :=
  options.filter (fun key _ => !fields.any (fun f => f.name == key))

/-- The options of a record: its named fields, beside the others. -/
def withFields (named : List (String × Value)) (extra : Options) : Options :=
  named.foldl (fun m e => m.insert e.1 e.2) extra

end Record

/-- A type of records that are built from the entries of a kind. -/
class EntityRecord (ρ : Type) where
  kind : EntityKind
  /-- The name the record gives itself. -/
  name : ρ → String
  /-- Build a record, or say what is wrong with the options. -/
  decode : Options → Except String ρ
  /-- The options of a record. -/
  encode : ρ → Options

namespace EntityRecord

variable {ρ : Type} [EntityRecord ρ]

/-- Build the record of the entry stored under a name. -/
def construct (name : String) (options : Options) : Except Failure ρ :=
  (decode options).mapError (Failure.construct (kind ρ) name)

/-- The record with other options laid over its own, or as it is if that is none. -/
def amended (changes : Options) (record : ρ) : ρ :=
  match decode (Options.merge (encode record) changes) with
  | .ok changed => changed
  | .error _ => record

end EntityRecord

end ConfigCompiler
