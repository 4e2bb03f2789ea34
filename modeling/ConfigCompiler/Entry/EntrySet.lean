import ConfigCompiler.Failure
import ConfigCompiler.Value.Access

/-!
# Sets of resolved entries

An `EntrySet` holds the resolved entries of one kind under their names, and aliases
that lead to names.  A name leads to itself; an alias counts only while its target
is stored.

**Building.**  A second entry of one name is refused.  An alias goes to the first
entry that claims it; a later claim by another entry is a collision, which is
reported but changes nothing.
-/

namespace ConfigCompiler

/-- A claim on an alias that another entry holds. -/
structure AliasCollision where
  kind : EntityKind
  /-- The alias claimed. -/
  claimed : String
  /-- The entry that keeps it. -/
  kept : String
  /-- The entry whose claim is ignored. -/
  ignored : String
deriving DecidableEq

/-- The words of the report of a collision. -/
def AliasCollision.message : String := "Alias claimed by two entries; keeping first"

/-- Resolved entries of one kind and the aliases that lead to them. -/
structure EntrySet where
  configs : SortedMap Options
  aliases : SortedMap String

namespace EntrySet

/-- The set without entries. -/
def empty : EntrySet := ⟨∅, ∅⟩

instance : Inhabited EntrySet := ⟨empty⟩

/-- The name that a text leads to: itself if it is one, or the target of an alias. -/
def canonical? (s : EntrySet) (name : String) : Option String :=
  if s.configs.contains name then some name
  else (s.aliases.get? name).filter s.configs.contains

/-- Whether a text leads to an entry. -/
def contains (s : EntrySet) (name : String) : Bool := (s.canonical? name).isSome

/-- The entry that a text leads to. -/
def get? (s : EntrySet) (name : String) : Option Options :=
  (s.canonical? name).bind s.configs.get?

/-- The number of entries. -/
def size (s : EntrySet) : Nat := s.configs.size

/-- Whether there is no entry. -/
def isEmpty (s : EntrySet) : Bool := s.configs.isEmpty

/-- The names, in order. -/
def names (s : EntrySet) : List String := s.configs.keys

/-- Store an entry that was resolved from a key. -/
def insert (s : EntrySet) (kind : EntityKind) (name key : String) (options : Options) :
    Except Failure EntrySet :=
  if s.configs.contains name then .error (.duplicateName kind name key)
  else .ok { s with configs := s.configs.insert name options }

/-- The collision that a claim on an alias is, if it is one. -/
def collision? (s : EntrySet) (kind : EntityKind) (claimed name : String) :
    Option AliasCollision :=
  if claimed.isEmpty || claimed == name || s.configs.contains claimed then none
  else
    match s.aliases.get? claimed with
    | some existing => if existing = name then none else some ⟨kind, claimed, existing, name⟩
    | none => none

/-- Claim an alias for a name.  Empty aliases, names and aliases that are taken stay
as they are. -/
def addAlias (s : EntrySet) (claimed name : String) : EntrySet :=
  if claimed.isEmpty || claimed == name || s.configs.contains claimed ||
      s.aliases.contains claimed then s
  else { s with aliases := s.aliases.insert claimed name }

/-- Claim several aliases for a name, in order; the collisions are reported. -/
def addAliases (s : EntrySet) (kind : EntityKind) (name : String) (aliases : List String) :
    EntrySet × List AliasCollision :=
  aliases.foldl
    (fun state claimed =>
      (state.1.addAlias claimed name,
        state.2 ++ (state.1.collision? kind claimed name).toList))
    (s, [])

/-- The entries and aliases as a value. -/
def toValue (s : EntrySet) : Value :=
  .object ((SortedMap.singleton "configs" (.object (s.configs.map Value.object))).insert
    "aliases" (.object (s.aliases.map Value.string)))

end EntrySet

end ConfigCompiler
