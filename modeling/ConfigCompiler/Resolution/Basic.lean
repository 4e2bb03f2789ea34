import ConfigCompiler.Schema.Baseline
import ConfigCompiler.Schema.Resolve

/-!
# Resolving entries and attachments

A `Resolver` knows the catalog and the extensions.  Schemas are put together on
first use and kept in `SchemaTables`: one per kind, and one per name of an
attached action or behavior.  The tables outlive failures, so every question runs
in `Resolution`, which returns them with each answer.

**Policy.**  With `SchemaPolicy.rebuild` the schemas of attachments are put
together anew for every question, and the tables are not consulted for them.

**Pure counterparts.**  `Resolver.kindSchema` and `Resolver.attachmentSchema` say
what the tables are filled with.
-/

namespace ConfigCompiler

/-- What may be attached to a resource. -/
inductive AttachmentKind where
  | action
  | behavior
deriving DecidableEq

namespace AttachmentKind

/-- The kind of the entries attached. -/
def kind : AttachmentKind → EntityKind
  | action => .action
  | behavior => .behavior

/-- The option of a resource that holds the attachments. -/
def optionName : AttachmentKind → String
  | action => "actions"
  | behavior => "behaviors"

end AttachmentKind

/-- Whether schemas of attachments are kept between questions. -/
inductive SchemaPolicy where
  | keep
  | rebuild
deriving DecidableEq

/-- What options are resolved with. -/
structure Resolver where
  catalog : Catalog
  /-- Extensions applied after the baseline, in order. -/
  extensions : List Extension
  policy : SchemaPolicy := .keep

/-- The schemas put together so far. -/
structure SchemaTables where
  kinds : PerKind (Option KindSchema)
  actions : SortedMap Schema
  behaviors : SortedMap Schema

namespace SchemaTables

/-- No schema has been put together. -/
def empty : SchemaTables := ⟨PerKind.ofFn (fun _ => none), ∅, ∅⟩

instance : Inhabited SchemaTables := ⟨empty⟩

/-- The schemas of the attachments of a kind. -/
def attachments (t : SchemaTables) : AttachmentKind → SortedMap Schema
  | .action => t.actions
  | .behavior => t.behaviors

/-- Keep the schema of an attachment. -/
def keepAttachment (t : SchemaTables) (kind : AttachmentKind) (name : String) (s : Schema) :
    SchemaTables :=
  match kind with
  | .action => { t with actions := t.actions.insert name s }
  | .behavior => { t with behaviors := t.behaviors.insert name s }

/-- Keep the schema of a kind. -/
def keepKind (t : SchemaTables) (kind : EntityKind) (s : KindSchema) : SchemaTables :=
  { t with kinds := t.kinds.set kind (some s) }

end SchemaTables

/-- A question that may fail and that may fill the tables either way. -/
abbrev Resolution := ExceptT Failure (StateM SchemaTables)

namespace Resolution

/-- Ask a question with the tables given. -/
def ask {α : Type} (question : Resolution α) (tables : SchemaTables) :
    Except Failure α × SchemaTables :=
  question.run.run tables

end Resolution

namespace Resolver

/-- The resolver without extensions. -/
def ofCatalog (catalog : Catalog) : Resolver := ⟨catalog, [], .keep⟩

/-- Append an extension.  Schemas kept in tables are not affected. -/
def withExtension (r : Resolver) (e : Extension) : Resolver :=
  { r with extensions := r.extensions ++ [e] }

/-- The baseline and the extensions, in the order they are applied. -/
def allExtensions (r : Resolver) : List Extension :=
  Baseline.extension r.catalog :: r.extensions

/-- The names of the extensions, in the order they are applied. -/
def extensionNames (r : Resolver) : List String :=
  r.allExtensions.map Extension.name

/-- The schema and the defaults of a kind. -/
def kindSchema (r : Resolver) (kind : EntityKind) : KindSchema :=
  KindSchema.ofExtensions r.allExtensions kind

/-- What the implementing type named by an entry contributes to its attachments. -/
def typeContributions (r : Resolver) (kind : AttachmentKind) (entry : Options) :
    List Contribution :=
  match entry.str? "class" with
  | none => []
  | some type =>
      match kind with
      | .action => ((r.catalog.actions.get? type).map ActionType.contributions).getD []
      | .behavior => ((r.catalog.behaviors.get? type).map BehaviorType.contributions).getD []

/-- What an extension contributes to the attachments of an entry. -/
def extensionContributions (kind : AttachmentKind) (entry : Options) (e : Extension) :
    List Contribution :=
  match kind with
  | .action => e.actionOptions entry
  | .behavior => e.behaviorOptions entry

/-- The schema of the attachments of an entry: the baseline, the implementing type,
and the extensions in order. -/
def attachmentSchema (r : Resolver) (kind : AttachmentKind) (entry : Options) : Schema :=
  Schema.empty.extend
    (extensionContributions kind entry (Baseline.extension r.catalog) ++
      r.typeContributions kind entry ++
      r.extensions.flatMap (extensionContributions kind entry))

/-- The schema of a kind, kept after its first use. -/
def kindSchemaM (r : Resolver) (kind : EntityKind) : Resolution KindSchema := do
  match (← get).kinds.get kind with
  | some s => pure s
  | none =>
      let s := r.kindSchema kind
      modify (fun t => t.keepKind kind s)
      pure s

/-- The schema of the attachments called `name`.  Unless the policy says otherwise
it is kept under that name after its first use. -/
def attachmentSchemaM (r : Resolver) (kind : AttachmentKind) (name : String) (entry : Options) :
    Resolution Schema := do
  match r.policy with
  | .rebuild => pure (r.attachmentSchema kind entry)
  | .keep =>
      match ((← get).attachments kind).get? name with
      | some s => pure s
      | none =>
          let s := r.attachmentSchema kind entry
          modify (fun t => t.keepAttachment kind name s)
          pure s

/-- The defaults of a kind. -/
def kindDefaults (r : Resolver) (kind : EntityKind) : Resolution Options := do
  return (← r.kindSchemaM kind).defaults

/-- The options that the schema of a kind defines. -/
def definedOptions (r : Resolver) (kind : EntityKind) : Resolution (List String) := do
  return (← r.kindSchemaM kind).schema.definedKeys

/-- The options of an entry with its name, derived from its key unless given. -/
def withName (kind : EntityKind) (key : String) (raw : Options) : Options :=
  if raw.contains "name" then raw
  else raw.insert "name" (.string (deriveName kind key))

/-- Resolve the entry stored under `key`. -/
def resolveEntry (r : Resolver) (kind : EntityKind) (key : String) (raw : Options) :
    Resolution Options := do
  let s ← r.kindSchemaM kind
  match s.schema.resolve (withName kind key raw) with
  | .ok resolved => pure resolved
  | .error violation => throw (.invalid kind key violation)

/-- The name of a resolved entry; its key if it has none. -/
def entryName (resolved : Options) (key : String) : String :=
  (resolved.str? "name").getD key

/-- Check that the namespace of a resource exists. -/
def checkNamespace (resolved : Options) (name : String) (namespaces : SortedMap Options) :
    Except Failure Unit :=
  match resolved.str? "namespace" with
  | none => .ok ()
  | some reference =>
      if namespaces.contains reference then .ok ()
      else .error (.unknownReference .resource name .nameSpace reference)

/-- Check that the permissions a resource lists exist. -/
def checkPermissions (resolved : Options) (name : String) (permissions : SortedMap Options) :
    Except Failure Unit :=
  match (resolved.strings "permissions").find? (fun p => !permissions.contains p) with
  | none => .ok ()
  | some permission => .error (.unknownPermission name permission)

/-- Resolve a resource, whose namespace and permissions have to be stored names. -/
def resolveResource (r : Resolver) (key : String) (raw : Options)
    (namespaces permissions : SortedMap Options) : Resolution Options := do
  let resolved ← r.resolveEntry .resource key raw
  let name := entryName resolved key
  checkNamespace resolved name namespaces
  checkPermissions resolved name permissions
  pure resolved

/-- Resolve the options that a resource attaches for an action or behavior. -/
def resolveAttachment (r : Resolver) (kind : AttachmentKind) (resource name : String)
    (entry raw : Options) : Resolution Options := do
  let s ← r.attachmentSchemaM kind name entry
  match s.resolve raw with
  | .ok resolved => pure resolved
  | .error violation => throw (.attachmentInvalid resource kind.kind name violation)

end Resolver

end ConfigCompiler
