import ConfigCompiler.Catalog.Capability
import ConfigCompiler.Compile.Attachment

/-!
# Behaviors that attach themselves

A behavior that names an interface is attached to every resource that implements
it, unless the resource attaches it already.  A resource implements what its entity
implements, the interface it names, those it declares, and what these implement.
-/

namespace ConfigCompiler

namespace Draft

/-- The interfaces that a resource names or declares. -/
def namedInterfaces (d : Draft) (resource : String) (config : Options) : List String :=
  (config.str? "interface").toList ++ d.interfacesOf resource

/-- Everything that a resource implements. -/
def capabilities (catalog : Catalog) (d : Draft) (resource : String) (config : Options) :
    NameSet :=
  let ofEntity := ((config.str? "entity").map catalog.capabilitiesOf).getD ∅
  (d.namedInterfaces resource config).foldl
    (fun all i => (all.union (catalog.capabilitiesOf i)).insert i ()) ofEntity

/-- The reason given when a behavior cannot be configured. -/
def autoAttachReason (f : Failure) : String :=
  match f with
  | .attachmentInvalid _ _ _ violation => violation.message
  | other => other.message

/-- Attach a behavior without options, if the resource implements its interface and
does not attach it yet. -/
def autoAttach (r : Resolver) (resource entity : String) (capabilities : NameSet)
    (attached : Attachments) (behavior : String × Options) : Resolution Attachments := do
  match behavior.2.str? "interface" with
  | none => return attached
  | some interface =>
      if attached.contains behavior.1 || !capabilities.contains interface then return attached
      else
        let options ←
          (r.resolveAttachment .behavior resource behavior.1 behavior.2 ∅).adapt
            (fun f => .autoAttach resource entity interface behavior.1 (autoAttachReason f))
        return attached.insert behavior.1 options

/-- Attach all behaviors that attach themselves to a resource. -/
def autoAttachBehaviors (r : Resolver) (d : Draft) (resource : String) : Resolution Draft := do
  let config := d.resource resource
  let entity := (config.str? "entity").getD ""
  let capabilities := d.capabilities r.catalog resource config
  let attached ← d.sets.behaviors.configs.entries.foldlM
    (autoAttach r resource entity capabilities) (attachmentsOf config .behavior)
  return d.putResource resource (withAttachments config .behavior attached)

end Draft

end ConfigCompiler
