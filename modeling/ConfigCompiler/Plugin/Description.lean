import ConfigCompiler.Plugin.SchemaStep
import ConfigCompiler.Schema.Extension
import ConfigCompiler.Catalog.Basic

/-!
# Types and extensions as data

Descriptions of implementing types and of extensions.  A type that emits actions
lists `EmitRule`s; they run in order, and a later one replaces what an earlier one
emitted under the same name.
-/

namespace ConfigCompiler

namespace Plugin

/-- Where an emitted option is copied from. -/
inductive CopySource where
  /-- The options of the attachment. -/
  | options
  /-- The resource. -/
  | resource
  /-- The actions of the resource: the whole bag of one of them. -/
  | actions
deriving DecidableEq

/-- A copy into an emitted bag. -/
structure CopyRule where
  target : String
  source : CopySource
  key : String

/-- A rule that emits one action. -/
structure EmitRule where
  name : String
  /-- The rule is skipped unless this option of the attachment has this value. -/
  condition? : Option (String × Value) := none
  /-- The rule fails for this reason. -/
  failure? : Option String := none
  /-- What the emitted bag starts from. -/
  options : Options := ∅
  copies : List CopyRule := []

/-- What an emission sees. -/
structure EmitContext where
  actions : Attachments
  resource : Options
  options : Options

namespace EmitRule

/-- Whether the rule is run. -/
def applies (rule : EmitRule) (c : EmitContext) : Bool :=
  match rule.condition? with
  | none => true
  | some (key, expected) => (c.options.get? key).any (fun v => v.same expected)

/-- The value copied; null if there is none. -/
def copied (c : EmitContext) (copy : CopyRule) : Value :=
  let found :=
    match copy.source with
    | .options => c.options.get? copy.key
    | .resource => c.resource.get? copy.key
    | .actions => (c.actions.get? copy.key).map Value.object
  found.getD .null

/-- The bag emitted. -/
def bag (rule : EmitRule) (c : EmitContext) : Options :=
  rule.copies.foldl (fun m copy => m.insert copy.target (copied c copy)) rule.options

/-- Run the rule of a type, on top of what was emitted so far. -/
def run (type : String) (c : EmitContext) (emitted : Attachments) (rule : EmitRule) :
    Except Failure Attachments :=
  if rule.applies c then
    match rule.failure? with
    | some reason => .error (.expansion .action type reason)
    | none => .ok (emitted.insert rule.name (rule.bag c))
  else .ok emitted

end EmitRule

/-- What the rules of a type emit. -/
def emit (type : String) (rules : List EmitRule) (c : EmitContext) : Except Failure Attachments :=
  rules.foldlM (EmitRule.run type c) ∅

/-- A description of an implementing type. -/
structure TypeDescription where
  name : String
  defaults : Options := ∅
  steps : List SchemaStep := []
  /-- The rules of a type that emits actions. -/
  emit? : Option (List EmitRule) := none

namespace TypeDescription

/-- The action type described; with rules it is a builder. -/
def actionType (d : TypeDescription) : ActionType where
  name := d.name
  defaults := d.defaults
  contributions := contributions d.steps ∅
  build? := d.emit?.map (fun rules resource options =>
    Plugin.emit d.name rules ⟨∅, resource, options⟩)

/-- The behavior type described. -/
def behaviorType (d : TypeDescription) : BehaviorType where
  name := d.name
  defaults := d.defaults
  contributions := contributions d.steps ∅
  build := fun actions resource options =>
    Plugin.emit d.name (d.emit?.getD []) ⟨actions, resource, options⟩

end TypeDescription

/-- A description of a catalog. -/
structure CatalogDescription where
  actions : List TypeDescription
  behaviors : List TypeDescription
  declared : List (String × List String)

/-- The catalog described: everything is registered in order. -/
def CatalogDescription.catalog (d : CatalogDescription) : Catalog :=
  let withActions := d.actions.foldl (fun c t => c.registerAction t.actionType) Catalog.empty
  let withBehaviors := d.behaviors.foldl (fun c t => c.registerBehavior t.behaviorType) withActions
  d.declared.foldl (fun c e => c.declare e.1 e.2) withBehaviors

/-- A description of what an extension contributes to one kind. -/
structure KindDescription where
  steps : List SchemaStep := []
  defaults : List Options := []

/-- A description of an extension. -/
structure ExtensionDescription where
  name : String
  kinds : PerKind KindDescription := PerKind.ofFn (fun _ => {})
  actionSteps : List SchemaStep := []
  behaviorSteps : List SchemaStep := []

/-- The extension described. -/
def ExtensionDescription.extension (d : ExtensionDescription) : Extension where
  name := d.name
  ofKind := fun kind =>
    { schema := contributions (d.kinds.get kind).steps ∅
      defaults := (d.kinds.get kind).defaults }
  actionOptions := contributions d.actionSteps
  behaviorOptions := contributions d.behaviorSteps

end Plugin

end ConfigCompiler
