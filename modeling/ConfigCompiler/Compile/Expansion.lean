import ConfigCompiler.Compile.Attachment

/-!
# Actions emitted by types

Builders among the actions of a resource are replaced by the actions they emit, and
behaviors contribute actions of their own.

**Precedence.**  An action that a resource attaches itself counts over an emitted
one, and one emitted first over one emitted later.  Contributed options only fill
gaps of an action that is there.  An emitted action is never a builder.
-/

namespace ConfigCompiler

/-- What a builder does: the actions emitted for a resource and options. -/
abbrev BuildAction := Options → Options → Except Failure Attachments

/-- The builder that the entry of an action names as its class. -/
def builderOf? (catalog : Catalog) (entry : Options) : Option BuildAction :=
  ((entry.str? "class").bind catalog.actions.get?).bind ActionType.build?

/-- The registered type that the entry of a behavior names as its class. -/
def behaviorTypeOf? (catalog : Catalog) (entry : Options) : Option BehaviorType :=
  (entry.str? "class").bind catalog.behaviors.get?

/-- A builder that a resource attaches. -/
structure AttachedBuilder where
  name : String
  entry : Options
  options : Options
  build : BuildAction

namespace Draft

/-- Put one action of a resource with the plain ones or with the builders. -/
def partAction (catalog : Catalog) (d : Draft) (resource : String)
    (state : Attachments × List AttachedBuilder) (action : String × Options) :
    Except Failure (Attachments × List AttachedBuilder) := do
  let entry ← d.attachedEntry .action resource action.1
  match builderOf? catalog entry with
  | some build => return (state.1, state.2 ++ [⟨action.1, entry, action.2, build⟩])
  | none => return (state.1.insert action.1 action.2, state.2)

/-- The plain actions and the builders of a resource. -/
def partActions (catalog : Catalog) (d : Draft) (resource : String) (config : Options) :
    Except Failure (Attachments × List AttachedBuilder) :=
  (attachmentsOf config .action).entries.foldlM (d.partAction catalog resource) (∅, [])

/-- Refuse an emitted action that is a builder. -/
def refuseBuilder (catalog : Catalog) (d : Draft) (resource origin action : String) :
    Except Failure Unit := do
  let entry ← d.attachedEntry .action resource action
  if (builderOf? catalog entry).isSome then
    throw (.expansion .action origin
      s!"generated action '{action}' on resource '{resource}' is itself a builder")

/-- Take an action that a builder emitted, unless it is there. -/
def takeEmitted (r : Resolver) (resource origin : String) (state : Attachments × Draft)
    (emitted : String × Options) : Resolution (Attachments × Draft) := do
  let (name, d) ← state.2.canonicalName r .action resource emitted.1
  d.refuseBuilder r.catalog resource origin name
  if state.1.contains name then return (state.1, d)
  else return (state.1.insert name emitted.2, d)

/-- Replace one builder by the actions it emits for the resource as it stands. -/
def expandBuilder (r : Resolver) (resource : String) (config : Options)
    (state : Attachments × Draft) (b : AttachedBuilder) : Resolution (Attachments × Draft) := do
  let options ← r.resolveAttachment .action resource b.name b.entry b.options
  let emitted ← b.build (withAttachments config .action state.1) options
  emitted.entries.foldlM (takeEmitted r resource b.name) state

/-- Replace all builders of a resource by the actions they emit. -/
def expandBuilders (r : Resolver) (d : Draft) (resource : String) : Resolution Draft := do
  let config := d.resource resource
  let (plain, builders) ← d.partActions r.catalog resource config
  let (actions, d) ← builders.foldlM (expandBuilder r resource config) (plain, d)
  return d.putResource resource (withAttachments config .action actions)

/-- Take an action that a behavior contributed: it fills the gaps of what is there,
and the whole is resolved. -/
def takeContributed (r : Resolver) (resource origin : String) (state : Attachments × Draft)
    (contributed : String × Options) : Resolution (Attachments × Draft) := do
  let (name, d) ← state.2.canonicalName r .action resource contributed.1
  d.refuseBuilder r.catalog resource origin name
  let entry ← d.attachedEntry .action resource name
  let raw :=
    match state.1.get? name with
    | some existing => Options.fillMissing existing contributed.2
    | none => contributed.2
  let resolved ← r.resolveAttachment .action resource name entry raw
  return (state.1.insert name resolved, d)

/-- Let one behavior contribute actions to the resource as it stands. -/
def contributeActions (r : Resolver) (resource : String) (config : Options)
    (state : Attachments × Draft) (behavior : String × Options) :
    Resolution (Attachments × Draft) := do
  let entry ← state.2.attachedEntry .behavior resource behavior.1
  match behaviorTypeOf? r.catalog entry with
  | none => return state
  | some type =>
      let contributed ←
        type.build state.1 (withAttachments config .action state.1) behavior.2
      contributed.entries.foldlM (takeContributed r resource behavior.1) state

/-- Let all behaviors of a resource contribute actions. -/
def applyBehaviors (r : Resolver) (d : Draft) (resource : String) : Resolution Draft := do
  let config := d.resource resource
  let (actions, d) ← (attachmentsOf config .behavior).entries.foldlM
    (contributeActions r resource config) (attachmentsOf config .action, d)
  return d.putResource resource (withAttachments config .action actions)

end Draft

end ConfigCompiler
