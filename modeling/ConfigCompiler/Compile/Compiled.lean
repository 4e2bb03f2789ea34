import ConfigCompiler.Compile.AutoAttach
import ConfigCompiler.Compile.Expansion
import ConfigCompiler.Compile.Permissions
import ConfigCompiler.Time.Timestamp

/-!
# Compiled configurations

A `Compiled` configuration is what registries are made from: the five sets, and the
defaults that are laid under the entries of each kind.

**Second phase.**  `Draft.finalize` works out the attachments of all resources.  Each
of these passes goes over every resource, in order of name, before the next begins:
behaviors are put under stored names; their options are resolved; behaviors attach
themselves; the actions are put under stored names, expanded, resolved, and extended by behaviors;
permissions are lifted.  Any failure ends the compilation.
-/

namespace ConfigCompiler

/-- A compiled configuration. -/
structure Compiled where
  /-- The version of the form it is persisted in. -/
  version : Nat
  fingerprint : String
  compiledAt : Timestamp
  sets : PerKind EntrySet
  /-- Defaults by the name of the kind. -/
  defaults : SortedMap Options
  /-- The raw entries it was compiled from; none if it was loaded. -/
  source? : Option LockedStore

namespace Compiled

/-- The defaults laid under the entries of a kind. -/
def kindDefaults (c : Compiled) (kind : EntityKind) : Options :=
  (c.defaults.get? kind.name).getD ∅

/-- Whether it has the current form and was compiled from inputs with a fingerprint. -/
def isCurrent (c : Compiled) (fingerprint : String) : Bool :=
  c.version == formatVersion && c.fingerprint == fingerprint

/-- Set one option of a resolved entry. -/
def putOption (c : Compiled) (kind : EntityKind) (name key : String) (v : Value) : Compiled :=
  let set := c.sets.get kind
  let config := ((set.configs.get? name).getD ∅).insert key v
  { c with sets := c.sets.set kind { set with configs := set.configs.insert name config } }

end Compiled

namespace Draft

/-- Work out the actions of one resource. -/
def finalizeActions (r : Resolver) (d : Draft) (resource : String) : Resolution Draft := do
  let d ← d.normalizeAttachments r .action resource
  let d ← d.expandBuilders r resource
  let d ← d.resolveAttachments r .action resource
  d.applyBehaviors r resource

/-- Work out the attachments and permissions of all resources. -/
def finalizeResources (r : Resolver) (d : Draft) : Resolution Draft := do
  let names := d.sets.resources.names
  let d ← names.foldlM (normalizeAttachments r .behavior) d
  let d ← names.foldlM (resolveAttachments r .behavior) d
  let d ← names.foldlM (autoAttachBehaviors r) d
  let d ← names.foldlM (finalizeActions r) d
  names.foldlM (fun d name => liftM (d.propagatePermissions name)) d

/-- The defaults of all kinds. -/
def collectDefaults (r : Resolver) : Resolution (SortedMap Options) :=
  EntityKind.all.foldlM
    (fun m kind => do return m.insert kind.name (← r.kindDefaults kind)) ∅

/-- The compiled configuration of a draft, at a time. -/
def finalize (r : Resolver) (time : Timestamp) (d : Draft) : Resolution (Compiled × Draft) := do
  let d ← d.finalizeResources r
  let defaults ← collectDefaults r
  return (⟨formatVersion, d.fingerprint, time, d.sets, defaults, some d.store.lock⟩, d)

end Draft

/-- Compile the entries of a store, at a time.  Beside the configuration stand the
collisions of aliases, in order. -/
def compile (r : Resolver) (time : Timestamp) (store : EntryStore) :
    Resolution (Compiled × List AliasCollision) := do
  let d ← Draft.build r store
  let (compiled, d) ← d.finalize r time
  return (compiled, d.collisions)

end ConfigCompiler
