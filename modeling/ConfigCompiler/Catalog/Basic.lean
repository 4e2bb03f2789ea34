import ConfigCompiler.Failure
import ConfigCompiler.Schema.Rule

/-!
# The catalog of implementing types

Actions and behaviors are implemented by types that a program registers before it
compiles.  A type brings default options and contributions to the schema of its
attachments.  An action type may be a *builder*, which emits other actions in its
place; a behavior type may contribute actions to the resources it is attached to.

Any type may also be declared to implement interfaces; `Catalog.Capability` says
what follows from that.
-/

namespace ConfigCompiler

/-- Bags of options by the name of the action or behavior they are for. -/
abbrev Attachments := SortedMap Options

/-- A type that implements actions. -/
structure ActionType where
  name : String
  /-- Options of an entry that is declared under the type's own name. -/
  defaults : Options := ∅
  /-- What the type contributes to the schema of its attachments. -/
  contributions : List Contribution := []
  /-- For a builder: the actions emitted for a resource, given the resource and the
  options of the attachment. -/
  build? : Option (Options → Options → Except Failure Attachments) := none

/-- A type that implements behaviors. -/
structure BehaviorType where
  name : String
  /-- Options of an entry that is declared under the type's own name. -/
  defaults : Options := ∅
  /-- What the type contributes to the schema of its attachments. -/
  contributions : List Contribution := []
  /-- The actions contributed to a resource, given its actions, the resource and the
  options of the attachment. -/
  build : Attachments → Options → Options → Except Failure Attachments :=
    fun _ _ _ => .ok ∅

namespace ActionType

/-- Whether the type emits actions in its place. -/
def isBuilder (t : ActionType) : Bool := t.build?.isSome

end ActionType

/-- The registered types, and the interfaces that types are declared to implement. -/
structure Catalog where
  actions : SortedMap ActionType
  behaviors : SortedMap BehaviorType
  /-- For a type or interface, the interfaces it is declared to implement. -/
  declared : SortedMap NameSet

namespace Catalog

/-- The catalog without registrations. -/
def empty : Catalog := ⟨∅, ∅, ∅⟩

instance : Inhabited Catalog := ⟨empty⟩

/-- Register an action type, replacing one of the same name. -/
def registerAction (c : Catalog) (t : ActionType) : Catalog :=
  { c with actions := c.actions.insert t.name t }

/-- Register a behavior type, replacing one of the same name. -/
def registerBehavior (c : Catalog) (t : BehaviorType) : Catalog :=
  { c with behaviors := c.behaviors.insert t.name t }

/-- Declare that a type implements interfaces, beside those declared before. -/
def declare (c : Catalog) (type : String) (interfaces : List String) : Catalog :=
  let known := (c.declared.get? type).getD ∅
  let all := interfaces.foldl (fun found i => found.insert i ()) known
  { c with declared := c.declared.insert type all }

/-- Whether a name denotes a registered type of a kind. -/
def hasType (c : Catalog) (kind : EntityKind) (name : String) : Bool :=
  match kind with
  | .action => c.actions.contains name
  | .behavior => c.behaviors.contains name
  | _ => false

/-- The default options of a registered type of a kind. -/
def defaultsOf? (c : Catalog) (kind : EntityKind) (name : String) : Option Options :=
  match kind with
  | .action => (c.actions.get? name).map ActionType.defaults
  | .behavior => (c.behaviors.get? name).map BehaviorType.defaults
  | _ => none

theorem isSome_defaultsOf? (c : Catalog) (kind : EntityKind) (name : String) :
    (c.defaultsOf? kind name).isSome = c.hasType kind name := by
  cases kind <;> simp [defaultsOf?, hasType, SortedMap.contains]

/-- One line per registration: actions, behaviors, declared interfaces. -/
def signature (c : Catalog) : List String :=
  c.actions.entries.map (fun e =>
      (if e.2.isBuilder then "action_builder:" else "action:") ++ e.1) ++
    c.behaviors.keys.map (fun name => "behavior:" ++ name) ++
    c.declared.entries.map (fun e => "capability:" ++ e.1 ++ "=>" ++ ",".intercalate e.2.keys)

end Catalog

end ConfigCompiler
