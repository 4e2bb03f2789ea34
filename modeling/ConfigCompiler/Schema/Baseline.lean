import ConfigCompiler.Catalog.Basic
import ConfigCompiler.Entity.Name
import ConfigCompiler.Entity.Operation
import ConfigCompiler.Schema.Extension

/-!
# The baseline

The extension that is always applied first.  It defines the options that every
entry of a kind has, and the options of attached actions and behaviors.

**Normal forms.**  Names are normalized and have to be valid; lists of names lose
repetitions; a prefix starts with one slash and ends with none; attachments become
a map of bags.
-/

namespace ConfigCompiler

namespace Baseline

/-- The driver of a resource that names none. -/
def defaultDriver : String := "orm"

/-- The name of the baseline among the extensions. -/
def extensionName : String := "core"

/-- The valid name that a text stands for. -/
def validName (raw : String) : Except String String :=
  let name := normalizeName raw
  if isValidName name then .ok name
  else .error s!"'{raw}' does not normalize to a valid name"

/-- A string becomes a valid name; everything else stays. -/
def normalizeNameValue (v : Value) : Except String Value :=
  match v.str? with
  | some raw => (validName raw).map Value.string
  | none => .ok v

/-- Append a value unless an equal one is there. -/
def appendNew (items : List Value) (v : Value) : List Value :=
  if items.any (fun item => item.same v) then items else items ++ [v]

/-- The strings of a list become valid names; repetitions are dropped. -/
def normalizeNameList (v : Value) : Except String Value :=
  match v.items? with
  | none => .ok v
  | some items => do
      let names ← items.foldlM (fun names item => do
        return appendNew names (← normalizeNameValue item)) []
      return Value.array names

/-- Repetitions in a list are dropped. -/
def dropRepeated (v : Value) : Value :=
  match v.items? with
  | none => v
  | some items => Value.array (items.foldl appendNew [])

/-- The characters of a prefix: one slash, then the text without blanks and slashes
at its ends. -/
def prefixChars (cs : List Char) : List Char :=
  '/' :: trimChars (· == '/') (trimChars isBlank cs)

/-- A string becomes a prefix. -/
def normalizePrefix (v : Value) : Value :=
  match v.str? with
  | some raw => Value.string (String.ofList (prefixChars raw.toList))
  | none => v

/-- The options of one attachment: an object, or null for none. -/
def attachmentBag (name : String) (v : Value) : Except String Value :=
  match v.view with
  | .null => .ok (Value.object ∅)
  | .object _ => .ok v
  | _ =>
      .error (s!"options for '{name}' must be a map or null, got " ++ (ValueType.ofValue v).name)

/-- Attachments given as a list of names or as an object become an object of bags. -/
def normalizeAttachments (v : Value) : Except String Value :=
  match v.view with
  | .array items =>
      let names := items.filterMap Value.str?
      .ok (Value.object (names.foldl (fun m name => m.insert name (Value.object ∅)) ∅))
  | .object fields => (fields.mapM attachmentBag).map Value.object
  | _ => .ok v

/-- The label of an entry: its name in words. -/
def humanizedName (options : Options) : Option Value :=
  (options.str? "name").map fun name => Value.string (humanize (normalizeName name))

/-- The prefix of a namespace: its name with slashes for dots. -/
def namespacePrefix (options : Options) : Option Value :=
  (options.str? "name").map fun name =>
    Value.string (String.ofList ('/' :: name.toList.map (fun c => if c = '.' then '/' else c)))

/-- A default taken from the type that a behavior names as its class.  A class that
is not registered gives `fallback`. -/
def typeDefault (catalog : Catalog) (key : String) (fallback : Value) (options : Options) :
    Option Value :=
  (options.str? "class").bind fun type =>
    match catalog.behaviors.get? type with
    | some t => t.defaults.get? key
    | none => some fallback

/-- An option that is a string or null. -/
def nullableString (key : String) : Contribution := .types key [.null, .string]

/-- An option that is null unless given, and then a string. -/
def optionalString (key : String) : List Contribution :=
  [.default key .null, nullableString key]

/-- A normalizer that looks at the value only. -/
def normalizeBy (key : String) (f : Value → Except String Value) : Contribution :=
  .normalize key (fun _ v => f v)

/-- The name that every entry has. -/
def nameRules : List Contribution :=
  [.require "name", .types "name" [.string], normalizeBy "name" normalizeNameValue]

/-- A list of permission names. -/
def permissionRules (initial : Value) : List Contribution :=
  [.default "permissions" initial, .types "permissions" [.stringList],
    normalizeBy "permissions" normalizeNameList]

/-- A bag of free options. -/
def freeOptions : List Contribution :=
  [.default "options" (.object ∅), .types "options" [.object]]

/-- Permissions have a label. -/
def permissionSchema : List Contribution :=
  nameRules ++
    [.defaultWith "label" humanizedName, .types "label" [.string]] ++
    optionalString "translation_domain"

/-- Namespaces have a prefix. -/
def namespaceSchema : List Contribution :=
  nameRules ++
    [.defaultWith "prefix" namespacePrefix, .types "prefix" [.string],
      normalizeBy "prefix" (fun v => .ok (normalizePrefix v))] ++
    optionalString "label" ++ optionalString "translation_domain"

/-- Actions name a registered type. -/
def actionSchema (catalog : Catalog) : List Contribution :=
  nameRules ++
    [.require "class", .types "class" [.string],
      .allowMatching "class" "a registered action type"
        (fun v => v.str?.any (fun type => catalog.actions.contains type))] ++
    optionalString "route" ++
    permissionRules (.array []) ++
    freeOptions ++
    [.default "button" .null, .types "button" [.null, .object],
      .defaultWith "label" humanizedName, nullableString "label"]

/-- Whether a value is a list of known operations. -/
def isOperationList (v : Value) : Bool :=
  v.items?.any (fun items =>
    items.all (fun item => (item.str?.bind Operation.ofName?).isSome))

/-- Behaviors name a registered type, the interface that attaches them and the
operations they take part in. -/
def behaviorSchema (catalog : Catalog) : List Contribution :=
  nameRules ++
    [.require "class", .types "class" [.string],
      .allowMatching "class" "a registered behavior type"
        (fun v => v.str?.any (fun type => catalog.behaviors.contains type)),
      .require "interface", nullableString "interface",
      .defaultWith "interface" (typeDefault catalog "interface" .null),
      .require "operations", .types "operations" [.stringList],
      .defaultWith "operations" (typeDefault catalog "operations" (.array [])),
      .allowMatching "operations" "a list of known operations" isOperationList,
      normalizeBy "operations" (fun v => .ok (dropRepeated v))] ++
    freeOptions

/-- Resources belong to a namespace and describe an entity. -/
def resourceSchema : List Contribution :=
  nameRules ++
    [.require "driver", .default "driver" (.string defaultDriver), .types "driver" [.string],
      .require "namespace", .types "namespace" [.string],
      normalizeBy "namespace" normalizeNameValue,
      .require "entity", .types "entity" [.string]] ++
    optionalString "interface" ++ optionalString "parent" ++ optionalString "translation" ++
    [.default "translatable_fields" (.array []), .types "translatable_fields" [.stringList]] ++
    optionalString "label" ++ optionalString "translation_domain" ++
    [.default "actions" (.object ∅), .types "actions" [.object, .stringList],
      normalizeBy "actions" normalizeAttachments,
      .default "behaviors" (.object ∅), .types "behaviors" [.object, .stringList],
      normalizeBy "behaviors" normalizeAttachments] ++
    permissionRules (.array []) ++
    optionalString "event_class" ++
    [.default "event_priority" (.int 0), .types "event_priority" [.integer]] ++
    freeOptions

/-- The defaults that an entry declares for its attachments. -/
def declaredDefaults (entry : Options) : List Contribution :=
  (entry.bag "options").entries.map (fun e => .default e.1 e.2)

/-- What the entry holds under a key, or a fallback. -/
def entryValue (entry : Options) (key : String) (fallback : Value) : Value :=
  (entry.get? key).getD fallback

/-- The options of an attached action start from those of its entry. -/
def actionOptions (entry : Options) : List Contribution :=
  ["route", "button", "label"].map (fun key => .default key (entryValue entry key .null)) ++
    [nullableString "route", .types "button" [.null, .object], nullableString "label"] ++
    permissionRules (entryValue entry "permissions" (.array [])) ++
    declaredDefaults entry

/-- The options of an attached behavior start from those that its entry declares. -/
def behaviorOptions (entry : Options) : List Contribution := declaredDefaults entry

/-- The schema rules of a kind. -/
def schemaOf (catalog : Catalog) : EntityKind → List Contribution
  | .permission => permissionSchema
  | .action => actionSchema catalog
  | .behavior => behaviorSchema catalog
  | .nameSpace => namespaceSchema
  | .resource => resourceSchema

/-- The baseline as an extension. -/
def extension (catalog : Catalog) : Extension where
  name := extensionName
  ofKind := fun kind => { schema := schemaOf catalog kind }
  actionOptions := actionOptions
  behaviorOptions := behaviorOptions

end Baseline

end ConfigCompiler
