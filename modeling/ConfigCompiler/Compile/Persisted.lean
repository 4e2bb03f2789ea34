import ConfigCompiler.Compile.Compiled
import ConfigCompiler.Entry.Decode
import ConfigCompiler.Json.Reader
import ConfigCompiler.Time.Reader
import ConfigCompiler.Value.Text

/-!
# The persisted form

A compiled configuration is persisted as a JSON record without its raw entries.

**Fields.**  All are needed but the defaults.  The version is a word of 32 bits, the
time of compilation a timestamp.
-/

namespace ConfigCompiler

namespace Compiled

/-- The names of the fields, in order. -/
def fieldNames : List String :=
  ["format_version", "fingerprint", "compiled_at", "permissions", "namespaces", "actions",
    "behaviors", "resources", "defaults"]

/-- The record of a compiled configuration. -/
def toValue (c : Compiled) : Value :=
  .object (SortedMap.ofList
    [("format_version", .int c.version),
      ("fingerprint", .string c.fingerprint),
      ("compiled_at", .string c.compiledAt.text),
      ("permissions", c.sets.permissions.toValue),
      ("namespaces", c.sets.namespaces.toValue),
      ("actions", c.sets.actions.toValue),
      ("behaviors", c.sets.behaviors.toValue),
      ("resources", c.sets.resources.toValue),
      ("defaults", .object (c.defaults.map Value.object))])

/-- The compiled configuration that a document holds. -/
def ofDocument? (d : Json.Document) : Option Compiled := do
  match ← d.record? fieldNames with
  | [version, fingerprint, time, permissions, namespaces, actions, behaviors, resources,
      defaults] =>
      let set := EntrySet.ofDocument? (Json.Document.maxDepth - 1)
      return {
        version := ← (← version).natBelow? 4294967296
        fingerprint := ← (← fingerprint).text?
        compiledAt := ← Timestamp.read? (← (← time).text?)
        sets := {
          permissions := ← set (← permissions)
          actions := ← set (← actions)
          behaviors := ← set (← behaviors)
          namespaces := ← set (← namespaces)
          resources := ← set (← resources) }
        defaults := ← EntryTable.decodeEntries? (Json.Document.maxDepth - 2) defaults
        source? := none }
  | _ => none

/-- The text that is persisted. -/
def persisted (c : Compiled) : String := c.toValue.text

/-- The compiled configuration that a persisted text holds. -/
def ofPersisted? (text : String) : Option Compiled :=
  (Json.read? text).bind ofDocument?

end Compiled

end ConfigCompiler
