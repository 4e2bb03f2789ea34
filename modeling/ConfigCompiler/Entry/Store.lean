import ConfigCompiler.Catalog.Basic
import ConfigCompiler.Entity.Name

/-!
# The store of raw entries

Entries are collected per kind and name before they are compiled.  Adding to a name
again merges into what is stored.  A store that is locked can only be read.

**First entries.**  A name has to be valid once it is normalized.  The key of an
action or behavior may be a type identifier instead; without a class of its own the
entry then needs that type to be registered, takes it as its class, and starts from
its defaults.
-/

namespace ConfigCompiler

/-- Raw entries by kind and name. -/
abbrev EntryTable := PerKind (SortedMap Options)

namespace EntryTable

/-- No entries. -/
def empty : EntryTable := PerKind.ofFn (fun _ => ∅)

/-- The number of entries. -/
def size (t : EntryTable) : Nat :=
  EntityKind.all.foldl (fun n kind => n + (t.get kind).size) 0

/-- Whether there is no entry. -/
def isEmpty (t : EntryTable) : Bool := t.size == 0

/-- Entries as an object of bags. -/
def bags (entries : SortedMap Options) : Value := .object (entries.map Value.object)

/-- All entries as one value, by the name of the kind. -/
def toValue (t : EntryTable) : Value :=
  .object (EntityKind.all.foldl (fun m kind => m.insert kind.name (bags (t.get kind))) ∅)

end EntryTable

/-- Entries being collected, with the catalog that typed entries refer to. -/
structure EntryStore where
  catalog : Catalog
  entries : EntryTable

/-- Entries that can only be read. -/
structure LockedStore where
  catalog : Catalog
  entries : EntryTable

namespace EntryStore

/-- The store without entries. -/
def ofCatalog (catalog : Catalog) : EntryStore := ⟨catalog, EntryTable.empty⟩

/-- The entry stored under a name. -/
def get? (s : EntryStore) (kind : EntityKind) (name : String) : Option Options :=
  (s.entries.get kind).get? name

/-- Whether a name is stored. -/
def contains (s : EntryStore) (kind : EntityKind) (name : String) : Bool :=
  (s.entries.get kind).contains name

/-- Whether entries of a kind are implemented by registered types. -/
def isTyped (kind : EntityKind) : Bool := kind == .action || kind == .behavior

/-- What is stored when a name is added for the first time. -/
def firstEntry (catalog : Catalog) (kind : EntityKind) (name : String) (options : Options) :
    Except Failure Options :=
  if isTyped kind && isTypeIdentifier name && !options.contains "class" then
    match catalog.defaultsOf? kind name with
    | none => .error (.invalidIdentifier kind name)
    | some defaults => .ok (Options.merge (defaults.insert "class" (.string name)) options)
  else if isValidName (deriveName kind name) then .ok options
  else .error (.invalidIdentifier kind name)

/-- What is stored when options are added to what is there. -/
def nextEntry (s : EntryStore) (kind : EntityKind) (name : String) (options : Options) :
    Except Failure Options :=
  match s.get? kind name with
  | some existing => .ok (Options.merge existing options)
  | none => firstEntry s.catalog kind name options

/-- Store an entry under a name. -/
def put (s : EntryStore) (kind : EntityKind) (name : String) (options : Options) : EntryStore :=
  { s with entries := s.entries.set kind ((s.entries.get kind).insert name options) }

/-- What is stored under other names stays. -/
theorem get?_put (s : EntryStore) (kind : EntityKind) (name : String) (options : Options)
    (other : EntityKind) (key : String) :
    (s.put kind name options).get? other key =
      if kind = other ∧ name = key then some options else s.get? other key := by
  simp only [get?, put, PerKind.get_set]
  split
  · next hkind =>
      subst hkind
      simp [SortedMap.get?_insert]
  · next hkind => simp [hkind]

/-- Add options under a name.  The answer is what is stored then, and the store. -/
def add (s : EntryStore) (kind : EntityKind) (name : String) (options : Options) :
    Except Failure (Options × EntryStore) :=
  match s.nextEntry kind name options with
  | .ok stored => .ok (stored, s.put kind name stored)
  | .error f => .error f

/-- Adding no options stores what is there, or else what the name starts from. -/
theorem add_empty_eq_ok {s added : EntryStore} {kind : EntityKind} {name : String}
    {raw : Options} (h : s.add kind name ∅ = .ok (raw, added)) :
    added = s.put kind name raw ∧
      match s.get? kind name with
      | some existing => existing = raw
      | none => firstEntry s.catalog kind name ∅ = .ok raw := by
  unfold add nextEntry at h
  cases hget : s.get? kind name with
  | some existing =>
      simp only [hget, Options.merge_empty] at h
      cases h
      exact ⟨rfl, rfl⟩
  | none =>
      simp only [hget] at h
      split at h
      · next first hfirst =>
          cases h
          exact ⟨rfl, hfirst⟩
      · cases h

/-- The store, to be read only. -/
def lock (s : EntryStore) : LockedStore := ⟨s.catalog, s.entries⟩

end EntryStore

namespace LockedStore

/-- The entry stored under a name. -/
def get? (s : LockedStore) (kind : EntityKind) (name : String) : Option Options :=
  (s.entries.get kind).get? name

/-- Whether a name is stored. -/
def contains (s : LockedStore) (kind : EntityKind) (name : String) : Bool :=
  (s.entries.get kind).contains name

/-- The names stored, in order. -/
def names (s : LockedStore) (kind : EntityKind) : List String := (s.entries.get kind).keys

end LockedStore

end ConfigCompiler
