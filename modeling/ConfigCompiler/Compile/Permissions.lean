import ConfigCompiler.Compile.Attachment

/-!
# Permissions of resources

The permissions that the actions of a resource require are required by the resource
too.  They follow those it lists itself, under their stored names, in the order of
the actions, and none is repeated.
-/

namespace ConfigCompiler

namespace Draft

/-- Append a permission that an action requires, unless it is there. -/
def requirePermission (permissions : EntrySet) (resource : String) (required : List String)
    (permission : String) : Except Failure (List String) :=
  match permissions.canonical? permission with
  | none => .error (.unknownPermission resource permission)
  | some name => .ok (if required.contains name then required else required ++ [name])

/-- The permissions that the actions of a resource require, in order. -/
def actionPermissions (actions : Attachments) : List String :=
  actions.values.flatMap (fun options => options.strings "permissions")

/-- Lift the permissions of its actions onto a resource. -/
def propagatePermissions (d : Draft) (resource : String) : Except Failure Draft := do
  let config := d.resource resource
  let required ← (actionPermissions (attachmentsOf config .action)).foldlM
    (requirePermission d.sets.permissions resource) (config.strings "permissions")
  return d.putResource resource (config.insert "permissions" (.strings required))

end Draft

end ConfigCompiler
