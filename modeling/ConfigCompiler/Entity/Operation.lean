/-!
# Operations

The closed set of operations a behavior may take part in.
-/

namespace ConfigCompiler

/-- An operation on resources. -/
inductive Operation where
  | create
  | read
  | update
  | delete
  | list
deriving DecidableEq

namespace Operation

/-- Every operation, in the order of declaration. -/
def all : List Operation := [.create, .read, .update, .delete, .list]

/-- The name of an operation. -/
def name : Operation → String
  | .create => "create"
  | .read => "read"
  | .update => "update"
  | .delete => "delete"
  | .list => "list"

/-- The operation of a name. -/
def ofName? (name : String) : Option Operation :=
  all.find? (fun o => o.name == name)

theorem ofName?_name (o : Operation) : ofName? o.name = some o := by
  cases o <;> decide

theorem name_of_ofName? {s : String} {o : Operation} (h : ofName? s = some o) : o.name = s := by
  have := List.find?_some h
  simpa using this

end Operation

end ConfigCompiler
