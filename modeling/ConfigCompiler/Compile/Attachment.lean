import ConfigCompiler.Compile.Draft

/-!
# Attachments of resources

A resource holds its actions and behaviors as bags under their names.  The keys that
a resource uses are replaced by stored names first.  A key that leads nowhere but
denotes a registered type is *discovered*: it is added to the store as an entry of
its own and resolved at once.
-/

namespace ConfigCompiler

/-- The bags a resource attaches; what is no object counts as empty. -/
def attachmentsOf (config : Options) (kind : AttachmentKind) : Attachments :=
  (config.bag kind.optionName).map (fun v => v.fields?.getD ∅)

/-- A resource with other attachments. -/
def withAttachments (config : Options) (kind : AttachmentKind) (attached : Attachments) :
    Options :=
  config.insert kind.optionName (.object (attached.map Value.object))

namespace Draft

/-- The resolved entries that attachments of a kind lead to. -/
def attachable (d : Draft) (kind : AttachmentKind) : EntrySet := d.sets.get kind.kind

/-- The options of a resource. -/
def resource (d : Draft) (name : String) : Options :=
  (d.sets.resources.configs.get? name).getD ∅

/-- The draft with other options of a resource. -/
def putResource (d : Draft) (name : String) (config : Options) : Draft :=
  { d with sets := { d.sets with resources :=
    { d.sets.resources with configs := d.sets.resources.configs.insert name config } } }

/-- The failure of a resource that refers to nothing. -/
def unknownReference (resource : String) (kind : AttachmentKind) (reference : String) : Failure :=
  .unknownReference .resource resource kind.kind reference

/-- The resolved entry of an attached name. -/
def attachedEntry (d : Draft) (kind : AttachmentKind) (resource name : String) :
    Except Failure Options :=
  match (d.attachable kind).get? name with
  | some entry => .ok entry
  | none => .error (unknownReference resource kind name)

/-- Add a registered type to the store and resolve it as an entry of its own. -/
def discover (r : Resolver) (d : Draft) (kind : AttachmentKind) (key : String) :
    Resolution (String × Draft) := do
  let (raw, store) ← d.store.add kind.kind key ∅
  let resolved ← r.resolveEntry kind.kind key raw
  ({ d with store := store }).register kind.kind key resolved []

/-- The stored name that an attachment key leads to. -/
def canonicalName (r : Resolver) (d : Draft) (kind : AttachmentKind) (resource key : String) :
    Resolution (String × Draft) := do
  match (d.attachable kind).canonical? key with
  | some name => return (name, d)
  | none =>
      if r.catalog.hasType kind.kind key then d.discover r kind key
      else throw (unknownReference resource kind key)

/-- Take one attachment under its stored name, merged into what stands there. -/
def takeAttachment (r : Resolver) (kind : AttachmentKind) (resource : String)
    (state : Attachments × Draft) (attachment : String × Options) :
    Resolution (Attachments × Draft) := do
  let (name, d) ← state.2.canonicalName r kind resource attachment.1
  let bag :=
    match state.1.get? name with
    | some existing => Options.merge existing attachment.2
    | none => attachment.2
  return (state.1.insert name bag, d)

/-- Put the attachments of a resource under stored names. -/
def normalizeAttachments (r : Resolver) (kind : AttachmentKind) (d : Draft) (resource : String) :
    Resolution Draft := do
  let config := d.resource resource
  let (attached, d) ←
    (attachmentsOf config kind).entries.foldlM (takeAttachment r kind resource) (∅, d)
  return d.putResource resource (withAttachments config kind attached)

/-- Resolve the bags of all attachments of a resource. -/
def resolveAttachments (r : Resolver) (kind : AttachmentKind) (d : Draft) (resource : String) :
    Resolution Draft := do
  let config := d.resource resource
  let attached ← (attachmentsOf config kind).mapM fun name options => do
    let entry ← d.attachedEntry kind resource name
    r.resolveAttachment kind resource name entry options
  return d.putResource resource (withAttachments config kind attached)

end Draft

end ConfigCompiler
