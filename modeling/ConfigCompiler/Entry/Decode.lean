import ConfigCompiler.Entry.EntrySet
import ConfigCompiler.Entry.Store
import ConfigCompiler.Json.Document

/-!
# Decoding entries

A table of raw entries is a record with one map of bags per kind; a set of resolved
entries is a record of entries and aliases.  Every field may be absent.
-/

namespace ConfigCompiler

namespace EntryTable

/-- The fields of the record, in order, with their kinds. -/
def recordKinds : List EntityKind := [.permission, .nameSpace, .action, .behavior, .resource]

/-- The entries of one kind; none are stored if the field is absent. -/
def decodeEntries? (depth : Nat) : Option Json.Document → Option (SortedMap Options)
  | none => some ∅
  | some d => d.mapOf? (Json.Document.options? depth)

/-- The table that a document holds. -/
def ofDocument? (d : Json.Document) : Option EntryTable := do
  let fields ← d.record? (recordKinds.map EntityKind.plural)
  (recordKinds.zip fields).foldlM
    (fun (t : EntryTable) field => do
      return t.set field.1 (← decodeEntries? (Json.Document.maxDepth - 2) field.2))
    EntryTable.empty

end EntryTable

namespace EntrySet

/-- The set that a document holds, nested less than `depth` levels deep. -/
def ofDocument? (depth : Nat) (d : Json.Document) : Option EntrySet := do
  match ← d.record? ["configs", "aliases"] with
  | [configs, aliases] =>
      let configs ← EntryTable.decodeEntries? (depth - 2) configs
      let aliases ←
        match aliases with
        | none => some ∅
        | some d => d.mapOf? Json.Document.text?
      return ⟨configs, aliases⟩
  | _ => none

end EntrySet

end ConfigCompiler
