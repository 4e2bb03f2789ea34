import ConfigCompiler.Entity.Kind

/-!
# Failures

A `Violation` is what one schema finds wrong with one bag of options.  A `Failure`
is why a compilation or a look-up stops.  Each is a cause with its data; `message`
gives its words, and `Failure.category` says who is expected to act on it.
-/

namespace ConfigCompiler

/-- What a schema finds wrong with a bag of options. -/
inductive Violation where
  /-- A required option is missing. -/
  | missingRequired (key : String)
  /-- An option nobody defined; `defined` lists the defined ones. -/
  | undefined (key : String) (defined : List String)
  /-- A value of a type that is not allowed. -/
  | invalidType (key : String) (expected : List String) (actual : String)
  /-- A value that is not allowed. -/
  | invalidValue (key : String) (value : String) (expected : List String)
  /-- A value that has no normal form. -/
  | normalization (key : String) (reason : String)
deriving DecidableEq

namespace Violation

/-- The sort of a violation. -/
def label : Violation → String
  | .missingRequired .. => "MissingRequired"
  | .undefined .. => "Undefined"
  | .invalidType .. => "InvalidType"
  | .invalidValue .. => "InvalidValue"
  | .normalization .. => "Normalization"

/-- The words of a violation. -/
def message : Violation → String
  | .missingRequired key => s!"required option '{key}' is missing"
  | .undefined key defined =>
      s!"option '{key}' does not exist (defined options: " ++ ", ".intercalate defined ++ ")"
  | .invalidType key expected actual =>
      s!"option '{key}' expected type " ++ "|".intercalate expected ++ s!", got {actual}"
  | .invalidValue key value expected =>
      s!"option '{key}' has rejected value {value}: expected " ++ " or ".intercalate expected
  | .normalization key reason => s!"option '{key}' could not be normalized: {reason}"

end Violation

/-- Who is expected to act on a failure. -/
inductive FailureCategory where
  /-- The input is wrong. -/
  | configuration
  /-- A look-up found nothing; the caller may go on without. -/
  | notFound
  /-- The program that uses the configuration, or its author, is wrong. -/
  | logic
  /-- A behavior that attaches itself could not be configured. -/
  | autoAttachment
deriving DecidableEq

namespace FailureCategory

/-- The name of a category. -/
def label : FailureCategory → String
  | .configuration => "Configuration"
  | .notFound => "NotFound"
  | .logic => "Logic"
  | .autoAttachment => "AutoAttachment"

end FailureCategory

/-- Why a compilation or a look-up stops. -/
inductive Failure where
  /-- An entry breaks the schema of its kind. -/
  | invalid (kind : EntityKind) (name : String) (violation : Violation)
  /-- Options attached to a resource break the schema of what they are attached for. -/
  | attachmentInvalid (resource : String) (kind : EntityKind) (name : String)
      (violation : Violation)
  /-- A key is neither a name nor a registered type. -/
  | invalidIdentifier (kind : EntityKind) (key : String)
  /-- An entry refers to something that does not exist. -/
  | unknownReference (kind : EntityKind) (name : String) (referenceKind : EntityKind)
      (reference : String)
  /-- A resource requires a permission that does not exist. -/
  | unknownPermission (resource : String) (permission : String)
  /-- Two entries claim one name. -/
  | duplicateName (kind : EntityKind) (name : String) (key : String)
  /-- A type could not emit its actions. -/
  | expansion (kind : EntityKind) (name : String) (reason : String)
  /-- A behavior that attaches itself could not be configured. -/
  | autoAttach (resource : String) (entity : String) (implemented : String) (behavior : String)
      (reason : String)
  /-- A stored entry does not have the form of its kind. -/
  | construct (kind : EntityKind) (name : String) (reason : String)
  /-- Nothing is stored under a name. -/
  | notFound (kind : EntityKind) (name : String)
  /-- Following parents leads in a circle. -/
  | parentCycle (resource : String) (chain : List String)
  /-- A child stands in another namespace than its parent. -/
  | namespaceMismatch (parent child parentNamespace childNamespace : String)
  /-- A record outlived the registry it came from. -/
  | registryDropped
deriving DecidableEq

namespace Failure

/-- The sort of a failure. -/
def label : Failure → String
  | .invalid .. => "Invalid"
  | .attachmentInvalid .. => "AttachmentInvalid"
  | .invalidIdentifier .. => "InvalidIdentifier"
  | .unknownReference .. => "UnknownReference"
  | .unknownPermission .. => "UnknownPermission"
  | .duplicateName .. => "DuplicateName"
  | .expansion .. => "Expansion"
  | .autoAttach .. => "AutoAttach"
  | .construct .. => "Construct"
  | .notFound .. => "NotFound"
  | .parentCycle .. => "ParentCycle"
  | .namespaceMismatch .. => "NamespaceMismatch"
  | .registryDropped => "RegistryDropped"

/-- Who is expected to act. -/
def category : Failure → FailureCategory
  | .autoAttach .. => .autoAttachment
  | .notFound .. => .notFound
  | .parentCycle .. => .logic
  | .namespaceMismatch .. => .logic
  | .registryDropped => .logic
  | _ => .configuration

/-- Whether nothing was found, which the caller may take for an answer. -/
def isNotFound (f : Failure) : Bool := f.category == .notFound

/-- The violation inside, if a schema is the cause. -/
def violation? : Failure → Option Violation
  | .invalid _ _ v => some v
  | .attachmentInvalid _ _ _ v => some v
  | _ => none

/-- The words of a failure. -/
def message : Failure → String
  | .invalid kind name v => s!"Invalid {kind.name} configuration '{name}': " ++ v.message
  | .attachmentInvalid resource kind name v =>
      s!"Resource '{resource}': invalid options for {kind.name} '{name}': " ++ v.message
  | .invalidIdentifier kind key =>
      s!"Invalid {kind.name} identifier '{key}': neither a valid name nor a registered type"
  | .unknownReference kind name referenceKind reference =>
      s!"{kind.name} '{name}' references unknown {referenceKind.name} '{reference}'"
  | .unknownPermission resource permission =>
      s!"Resource '{resource}' requires unknown permission '{permission}'"
  | .duplicateName kind name key =>
      s!"{kind.name} key '{key}' resolves to name '{name}', which another entry already uses"
  | .expansion kind name reason => s!"{kind.name} '{name}' failed to expand: {reason}"
  | .autoAttach resource entity implemented behavior reason =>
      s!"Resource '{resource}': class '{entity}' implements '{implemented}' but behavior " ++
        s!"'{behavior}' cannot be auto-configured ({reason}); configure it explicitly"
  | .construct kind name reason =>
      s!"Failed to construct {kind.name} configuration '{name}': {reason}"
  | .notFound kind name => s!"No {kind.name} configuration found for '{name}'"
  | .parentCycle resource chain =>
      s!"Resource parent cycle detected at '{resource}': " ++ " -> ".intercalate chain
  | .namespaceMismatch parent child parentNamespace childNamespace =>
      s!"Resource '{child}' (namespace '{childNamespace}') is a child of '{parent}' " ++
        s!"(namespace '{parentNamespace}') across namespaces"
  | .registryDropped => "Resource registry was dropped while a configuration still referenced it"

end Failure

end ConfigCompiler
