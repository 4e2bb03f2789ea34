import ConfigCompiler.Entry.EntrySet
import ConfigCompiler.Record.Field
import ConfigCompiler.Value.Overlay

/-!
# Registries

A registry looks up the entries of one kind by name or alias.  A record is built on
its first look-up, from the entry laid over the defaults of the kind, passed through
a hook, and kept; what does not build is not kept.

**Questions.**  A question that may build records runs in `Asking`: it answers, or
fails, and leaves the registry with what was built on the way.
-/

namespace ConfigCompiler

/-- A registry of records. -/
structure Registry (ρ : Type) where
  set : EntrySet
  /-- Options laid under every entry. -/
  defaults : Options
  /-- The records kept, by the name of their entry. -/
  cache : SortedMap ρ := ∅
  /-- What every record built passes through. -/
  hook : ρ → ρ := id
  /-- The names of the entries built so far, in order. -/
  built : List String := []

/-- A question that may fail and that changes its subject either way. -/
abbrev Asking (σ α : Type) := ExceptT Failure (StateM σ) α

namespace Asking

variable {σ τ α : Type}

/-- Ask a question. -/
def ask (question : Asking σ α) (subject : σ) : Except Failure α × σ :=
  question.run.run subject

/-- Ask a question and take a failure as an answer. -/
def attempt (question : Asking σ α) : Asking σ (Except Failure α) :=
  ExceptT.mk (do return .ok (← question.run))

/-- Ask a part of the subject. -/
def on (part : τ → σ) (replace : τ → σ → τ) (question : Asking σ α) : Asking τ α :=
  ExceptT.mk (fun subject =>
    let (answer, changed) := question.ask (part subject)
    (answer, replace subject changed))

end Asking

namespace Registry

variable {ρ : Type} [EntityRecord ρ]

/-- The registry of a set, with nothing built. -/
def ofSet (set : EntrySet) (defaults : Options) : Registry ρ := { set := set, defaults := defaults }

/-- The name that a text leads to; the text itself if it leads nowhere. -/
def canonical (g : Registry ρ) (name : String) : String :=
  if g.set.configs.contains name then name else (g.set.aliases.get? name).getD name

/-- Whether a text leads to an entry. -/
def has (g : Registry ρ) (name : String) : Bool := g.set.configs.contains (g.canonical name)

/-- The number of entries. -/
def size (g : Registry ρ) : Nat := g.set.size

/-- The names of the entries, in order. -/
def names (g : Registry ρ) : List String := g.set.names

/-- The record of an entry, built anew. -/
def fresh (g : Registry ρ) (key : String) (stored : Options) : Except Failure ρ :=
  (EntityRecord.construct key (Options.merge g.defaults stored)).map g.hook

/-- The registry after a record was built. -/
def keep (g : Registry ρ) (key : String) (record : ρ) : Registry ρ :=
  { g with cache := g.cache.insert key record, built := g.built ++ [key] }

/-- The record of the entry that a text leads to, with the name of the entry. -/
def findOptional (name : String) : Asking (Registry ρ) (Option (String × ρ)) := do
  let g ← get
  let key := g.canonical name
  match g.set.configs.get? key with
  | none => return none
  | some stored =>
      match g.cache.get? key with
      | some record => return some (key, record)
      | none =>
          let record ← g.fresh key stored
          modify (fun _ => g.keep key record)
          return some (key, record)

/-- The record of the entry that a text leads to, which has to exist. -/
def find (name : String) : Asking (Registry ρ) (String × ρ) := do
  match ← findOptional name with
  | some found => return found
  | none => throw (.notFound (EntityRecord.kind ρ) name)

/-- Whether two texts lead to the same entry.  Both are looked up, and so built, even if
the first leads nowhere; of two failures the first counts. -/
def same (first second : String) : Asking (Registry ρ) Bool := do
  let one ← Asking.attempt (find first)
  let other ← Asking.attempt (find second)
  return (← ofExcept one).1 == (← ofExcept other).1

/-- All records, in the order of their names, up to the first that does not build. -/
def all : Asking (Registry ρ) (List ρ) := do
  (← get).names.mapM (fun name => do return (← find name).2)

/-- What looking up each name answers, in order. -/
def answers : Asking (Registry ρ) (List (Except Failure ρ)) := do
  (← get).names.mapM (fun name => Asking.attempt (do return (← find name).2))

/-- Build all records.  The answer is their number. -/
def warmUp : Asking (Registry ρ) Nat := do return (← all).length

end Registry

end ConfigCompiler
