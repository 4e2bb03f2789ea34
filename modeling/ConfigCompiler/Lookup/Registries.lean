import ConfigCompiler.Compile.Compiled
import ConfigCompiler.Lookup.Hierarchy

/-!
# The registries of a configuration

One registry per kind, made from one compiled configuration.
-/

namespace ConfigCompiler

/-- The registries of the five kinds. -/
structure Registries where
  permissions : Registry PermissionRecord
  namespaces : Registry NamespaceRecord
  actions : Registry ActionRecord
  behaviors : Registry BehaviorRecord
  resources : ResourceRegistry
  /-- The fingerprint of the inputs. -/
  fingerprint : String

namespace Registries

/-- The registries of a compiled configuration. -/
def ofCompiled (c : Compiled) : Registries where
  permissions := .ofSet c.sets.permissions (c.kindDefaults .permission)
  namespaces := .ofSet c.sets.namespaces (c.kindDefaults .nameSpace)
  actions := .ofSet c.sets.actions (c.kindDefaults .action)
  behaviors := .ofSet c.sets.behaviors (c.kindDefaults .behavior)
  resources := .ofSet c.sets.resources (c.kindDefaults .resource) ∅
  fingerprint := c.fingerprint

variable {α : Type}

/-- Ask the registry of permissions. -/
def onPermissions (q : Asking (Registry PermissionRecord) α) : Asking Registries α :=
  q.on Registries.permissions (fun g registry => { g with permissions := registry })

/-- Ask the registry of namespaces. -/
def onNamespaces (q : Asking (Registry NamespaceRecord) α) : Asking Registries α :=
  q.on Registries.namespaces (fun g registry => { g with namespaces := registry })

/-- Ask the registry of actions. -/
def onActions (q : Asking (Registry ActionRecord) α) : Asking Registries α :=
  q.on Registries.actions (fun g registry => { g with actions := registry })

/-- Ask the registry of behaviors. -/
def onBehaviors (q : Asking (Registry BehaviorRecord) α) : Asking Registries α :=
  q.on Registries.behaviors (fun g registry => { g with behaviors := registry })

/-- Ask the registry of resources. -/
def onResources (q : Asking ResourceRegistry α) : Asking Registries α :=
  q.on Registries.resources (fun g registry => { g with resources := registry })

/-- Build all records of all kinds.  The answer is their number. -/
def warmUp : Asking Registries Nat := do
  let permissions ← onPermissions Registry.warmUp
  let namespaces ← onNamespaces Registry.warmUp
  let actions ← onActions Registry.warmUp
  let behaviors ← onBehaviors Registry.warmUp
  let resources ← onResources (ResourceRegistry.records Registry.warmUp)
  return permissions + namespaces + actions + behaviors + resources

end Registries

end ConfigCompiler
