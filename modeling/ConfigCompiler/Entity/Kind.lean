/-!
# Kinds of entities

Five kinds of entities are configured.  The order of declaration is the order in
which they are resolved: a later kind may refer to earlier ones.
-/

namespace ConfigCompiler

universe u v

/-- A kind of configured entity. -/
inductive EntityKind where
  | permission
  | action
  | behavior
  | nameSpace
  | resource
deriving DecidableEq, Inhabited

namespace EntityKind

/-- Every kind, in resolution order. -/
def all : List EntityKind := [.permission, .action, .behavior, .nameSpace, .resource]

/-- The name of a kind. -/
def name : EntityKind → String
  | .permission => "permission"
  | .action => "action"
  | .behavior => "behavior"
  | .nameSpace => "namespace"
  | .resource => "resource"

/-- The name of the collection of all entities of a kind. -/
def plural : EntityKind → String
  | .permission => "permissions"
  | .action => "actions"
  | .behavior => "behaviors"
  | .nameSpace => "namespaces"
  | .resource => "resources"

/-- The kind of a name. -/
def ofName? (name : String) : Option EntityKind :=
  all.find? (fun k => k.name == name)

/-- Endings that the name of an implementing type may carry, longest first. -/
def typeSuffixes : EntityKind → List String
  | .action => ["ActionBuilder", "Action"]
  | .behavior => ["BehaviorBuilder", "Behavior"]
  | _ => []

theorem ofName?_name (k : EntityKind) : ofName? k.name = some k := by
  cases k <;> decide

end EntityKind

/-- One thing for every kind. -/
structure PerKind (α : Type u) where
  permissions : α
  actions : α
  behaviors : α
  namespaces : α
  resources : α

namespace PerKind

variable {α : Type u} {β : Type v}

/-- The thing of a kind. -/
def get (p : PerKind α) : EntityKind → α
  | .permission => p.permissions
  | .action => p.actions
  | .behavior => p.behaviors
  | .nameSpace => p.namespaces
  | .resource => p.resources

/-- Replace the thing of a kind. -/
def set (p : PerKind α) (kind : EntityKind) (a : α) : PerKind α :=
  match kind with
  | .permission => { p with permissions := a }
  | .action => { p with actions := a }
  | .behavior => { p with behaviors := a }
  | .nameSpace => { p with namespaces := a }
  | .resource => { p with resources := a }

/-- The same rule for every kind. -/
def ofFn (f : EntityKind → α) : PerKind α :=
  ⟨f .permission, f .action, f .behavior, f .nameSpace, f .resource⟩

/-- Change the thing of every kind. -/
def map (f : α → β) (p : PerKind α) : PerKind β :=
  ofFn (fun kind => f (p.get kind))

theorem get_set (p : PerKind α) (kind : EntityKind) (a : α) (k : EntityKind) :
    (p.set kind a).get k = if kind = k then a else p.get k := by
  cases kind <;> cases k <;> rfl

@[simp] theorem get_set_self (p : PerKind α) (kind : EntityKind) (a : α) :
    (p.set kind a).get kind = a := by
  simp [get_set]

theorem get_set_of_ne (p : PerKind α) {kind k : EntityKind} (h : kind ≠ k) (a : α) :
    (p.set kind a).get k = p.get k := by
  simp [get_set, h]

@[simp] theorem get_ofFn (f : EntityKind → α) (kind : EntityKind) : (ofFn f).get kind = f kind := by
  cases kind <;> rfl

theorem ext_get {p q : PerKind α} (h : ∀ kind, p.get kind = q.get kind) : p = q := by
  cases p
  cases q
  have h1 := h .permission
  have h2 := h .action
  have h3 := h .behavior
  have h4 := h .nameSpace
  have h5 := h .resource
  simp only [get] at h1 h2 h3 h4 h5
  simp [h1, h2, h3, h4, h5]

end PerKind

end ConfigCompiler
