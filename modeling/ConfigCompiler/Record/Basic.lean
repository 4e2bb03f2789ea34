import ConfigCompiler.Record.Field

/-!
# Records of the five kinds

What a registry hands out: a typed record per entry.  Options that no field is named
for are kept beside the fields.
-/

namespace ConfigCompiler

open Record

/-- A permission. -/
structure PermissionRecord where
  name : String
  label : String
  translationDomain : Option String
  extra : Options

namespace PermissionRecord

/-- The named fields. -/
def fields : List Field :=
  [text.field "name", text.field "label", optionalText.field "translation_domain"]

/-- The record of a bag of options. -/
def decode (o : Options) : Except String PermissionRecord := do
  checkPresent fields o
  return {
    name := ← text.read o "name"
    label := ← text.read o "label"
    translationDomain := ← optionalText.read o "translation_domain"
    extra := extraOptions fields o }

/-- The options of a record. -/
def encode (r : PermissionRecord) : Options :=
  withFields
    [("name", text.encode r.name), ("label", text.encode r.label),
      ("translation_domain", optionalText.encode r.translationDomain)]
    r.extra

instance : EntityRecord PermissionRecord := ⟨.permission, PermissionRecord.name, decode, encode⟩

end PermissionRecord

/-- A namespace. -/
structure NamespaceRecord where
  name : String
  path : String
  label : Option String
  translationDomain : Option String
  extra : Options

namespace NamespaceRecord

/-- The named fields. -/
def fields : List Field :=
  [text.field "name", text.field "prefix", optionalText.field "label",
    optionalText.field "translation_domain"]

/-- The record of a bag of options. -/
def decode (o : Options) : Except String NamespaceRecord := do
  checkPresent fields o
  return {
    name := ← text.read o "name"
    path := ← text.read o "prefix"
    label := ← optionalText.read o "label"
    translationDomain := ← optionalText.read o "translation_domain"
    extra := extraOptions fields o }

/-- The options of a record. -/
def encode (r : NamespaceRecord) : Options :=
  withFields
    [("name", text.encode r.name), ("prefix", text.encode r.path),
      ("label", optionalText.encode r.label),
      ("translation_domain", optionalText.encode r.translationDomain)]
    r.extra

instance : EntityRecord NamespaceRecord := ⟨.nameSpace, NamespaceRecord.name, decode, encode⟩

end NamespaceRecord

/-- An action. -/
structure ActionRecord where
  name : String
  type : String
  route : Option String
  permissions : List String
  options : Options
  button : Option Value
  label : Option String
  extra : Options

namespace ActionRecord

/-- The named fields. -/
def fields : List Field :=
  [text.field "name", text.field "class", optionalText.field "route",
    texts.field "permissions", bag.field "options", anything.field "button",
    optionalText.field "label"]

/-- The record of a bag of options. -/
def decode (o : Options) : Except String ActionRecord := do
  checkPresent fields o
  return {
    name := ← text.read o "name"
    type := ← text.read o "class"
    route := ← optionalText.read o "route"
    permissions := ← texts.read o "permissions"
    options := ← bag.read o "options"
    button := ← anything.read o "button"
    label := ← optionalText.read o "label"
    extra := extraOptions fields o }

/-- The options of a record. -/
def encode (r : ActionRecord) : Options :=
  withFields
    [("name", text.encode r.name), ("class", text.encode r.type),
      ("route", optionalText.encode r.route), ("permissions", texts.encode r.permissions),
      ("options", bag.encode r.options), ("button", anything.encode r.button),
      ("label", optionalText.encode r.label)]
    r.extra

instance : EntityRecord ActionRecord := ⟨.action, ActionRecord.name, decode, encode⟩

end ActionRecord

/-- A behavior. -/
structure BehaviorRecord where
  name : String
  type : String
  interface : Option String
  operations : List Operation
  options : Options
  extra : Options

namespace BehaviorRecord

/-- The named fields. -/
def fields : List Field :=
  [text.field "name", text.field "class", optionalText.field "interface",
    Record.operations.field "operations", bag.field "options"]

/-- The record of a bag of options. -/
def decode (o : Options) : Except String BehaviorRecord := do
  checkPresent fields o
  return {
    name := ← text.read o "name"
    type := ← text.read o "class"
    interface := ← optionalText.read o "interface"
    operations := ← Record.operations.read o "operations"
    options := ← bag.read o "options"
    extra := extraOptions fields o }

/-- The options of a record. -/
def encode (r : BehaviorRecord) : Options :=
  withFields
    [("name", text.encode r.name), ("class", text.encode r.type),
      ("interface", optionalText.encode r.interface),
      ("operations", Record.operations.encode r.operations), ("options", bag.encode r.options)]
    r.extra

/-- Whether the behavior takes part in an operation. -/
def participatesIn (r : BehaviorRecord) (o : Operation) : Bool := r.operations.contains o

instance : EntityRecord BehaviorRecord := ⟨.behavior, BehaviorRecord.name, decode, encode⟩

end BehaviorRecord

/-- A resource. -/
structure ResourceRecord where
  name : String
  driver : String
  nameSpace : String
  entity : String
  interface : Option String
  parent : Option String
  /-- The type that holds its texts by language. -/
  translationType : Option String
  translatableFields : List String
  label : Option String
  translationDomain : Option String
  actions : SortedMap Options
  behaviors : SortedMap Options
  permissions : List String
  eventClass : Option String
  eventPriority : Int
  options : Options
  extra : Options
  /-- Whether the record knows the registry it came from, and so its children. -/
  linked : Bool := false

namespace ResourceRecord

/-- The named fields. -/
def fields : List Field :=
  [text.field "name", text.field "driver", text.field "namespace", text.field "entity",
    optionalText.field "interface", optionalText.field "parent",
    optionalText.field "translation", texts.field "translatable_fields",
    optionalText.field "label", optionalText.field "translation_domain",
    bags.field "actions", bags.field "behaviors", texts.field "permissions",
    optionalText.field "event_class", integer.field "event_priority", bag.field "options"]

/-- The record of a bag of options. -/
def decode (o : Options) : Except String ResourceRecord := do
  checkPresent fields o
  return {
    name := ← text.read o "name"
    driver := ← text.read o "driver"
    nameSpace := ← text.read o "namespace"
    entity := ← text.read o "entity"
    interface := ← optionalText.read o "interface"
    parent := ← optionalText.read o "parent"
    translationType := ← optionalText.read o "translation"
    translatableFields := ← texts.read o "translatable_fields"
    label := ← optionalText.read o "label"
    translationDomain := ← optionalText.read o "translation_domain"
    actions := ← bags.read o "actions"
    behaviors := ← bags.read o "behaviors"
    permissions := ← texts.read o "permissions"
    eventClass := ← optionalText.read o "event_class"
    eventPriority := ← integer.read o "event_priority"
    options := ← bag.read o "options"
    extra := extraOptions fields o }

/-- The options of a record. -/
def encode (r : ResourceRecord) : Options :=
  withFields
    [("name", text.encode r.name), ("driver", text.encode r.driver),
      ("namespace", text.encode r.nameSpace), ("entity", text.encode r.entity),
      ("interface", optionalText.encode r.interface), ("parent", optionalText.encode r.parent),
      ("translation", optionalText.encode r.translationType),
      ("translatable_fields", texts.encode r.translatableFields),
      ("label", optionalText.encode r.label),
      ("translation_domain", optionalText.encode r.translationDomain),
      ("actions", bags.encode r.actions), ("behaviors", bags.encode r.behaviors),
      ("permissions", texts.encode r.permissions),
      ("event_class", optionalText.encode r.eventClass),
      ("event_priority", integer.encode r.eventPriority), ("options", bag.encode r.options)]
    r.extra

/-- Whether the resource is translatable. -/
def isTranslatable (r : ResourceRecord) : Bool := r.translationType.isSome

instance : EntityRecord ResourceRecord := ⟨.resource, ResourceRecord.name, decode, encode⟩

end ResourceRecord

end ConfigCompiler
