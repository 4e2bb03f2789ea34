import ConfigCompiler.Lookup.Registry
import ConfigCompiler.Record.Basic

/-!
# The hierarchy of resources

Resources name their parents.  A `ResourceRegistry` derives three maps from that:
parents by resource, the number of ancestors, and the event priorities that are not
zero.  A map is computed once and kept until it is invalidated; what fails is not
kept.

**Children.**  A record that the registry built knows its children; a record that was
put into the cache from outside knows none.
-/

namespace ConfigCompiler

/-- A registry of resources and the maps derived from it. -/
structure ResourceRegistry where
  registry : Registry ResourceRecord
  parents? : Option (SortedMap String) := none
  depths? : Option (SortedMap Nat) := none
  priorities? : Option (SortedMap Int) := none
  /-- How often the maps were invalidated. -/
  epoch : Nat := 0

namespace ResourceRegistry

/-- The registry of a set, with the records given in its cache. -/
def ofSet (set : EntrySet) (defaults : Options) (cache : SortedMap ResourceRecord) :
    ResourceRegistry :=
  { registry :=
      { set := set, defaults := defaults, cache := cache
        hook := fun r => { r with linked := true } } }

/-- Ask the registry of the records. -/
def records {α : Type} (question : Asking (Registry ResourceRecord) α) :
    Asking ResourceRegistry α :=
  question.on ResourceRegistry.registry (fun g registry => { g with registry := registry })

/-- The record of the resource that a text leads to. -/
def find (name : String) : Asking ResourceRegistry ResourceRecord := do
  return (← records (Registry.find name)).2

/-- Forget the derived maps. -/
def invalidate : Asking ResourceRegistry Unit :=
  modify (fun g =>
    { g with parents? := none, depths? := none, priorities? := none, epoch := g.epoch + 1 })

/-- Follow parents from a resource.  `chain` holds the names passed. -/
def followParents (parents : SortedMap String) (start : String) :
    Nat → List String → String → Except Failure Unit
  | 0, _, _ => .ok ()
  | fuel + 1, chain, current =>
      match parents.get? current with
      | none => .ok ()
      | some parent =>
          if chain.contains parent then .error (.parentCycle start (chain ++ [parent]))
          else followParents parents start fuel (chain ++ [parent]) parent

/-- Check that no resource reaches a circle, least name first. -/
def checkAcyclic (parents : SortedMap String) : Except Failure Unit :=
  parents.keys.forM (fun start =>
    followParents parents start (parents.size + 1) [start] start)

/-- The parents that records name. -/
def namedParents (records : List ResourceRecord) : SortedMap String :=
  records.foldl
    (fun m r =>
      match r.parent with
      | some parent => m.insert r.name parent
      | none => m)
    ∅

/-- The parents by resource; circles are refused. -/
def parentMap : Asking ResourceRegistry (SortedMap String) := do
  match (← get).parents? with
  | some m => return m
  | none =>
      let m := namedParents (← records Registry.all)
      checkAcyclic m
      modify (fun g => { g with parents? := some m })
      return m

/-- The number of ancestors, counted on from `depth`. -/
def countAncestors (parents : SortedMap String) (start : String) :
    Nat → Nat → String → Except Failure Nat
  | 0, depth, _ => .ok depth
  | fuel + 1, depth, current =>
      match parents.get? current with
      | none => .ok depth
      | some parent =>
          if parents.size < depth + 1 then .error (.parentCycle start [start, parent])
          else countAncestors parents start fuel (depth + 1) parent

/-- The depths of the names listed. -/
def depthsOf (parents : SortedMap String) (names : List String) :
    Except Failure (SortedMap Nat) :=
  names.foldlM
    (fun m name => do
      return m.insert name (← countAncestors parents name (parents.size + 1) 0 name))
    ∅

/-- The number of ancestors of every resource. -/
def depthMap : Asking ResourceRegistry (SortedMap Nat) := do
  match (← get).depths? with
  | some m => return m
  | none =>
      let parents ← parentMap
      let m ← depthsOf parents (← get).registry.names
      modify (fun g => { g with depths? := some m })
      return m

/-- The priorities of records that are not zero. -/
def namedPriorities (records : List ResourceRecord) : SortedMap Int :=
  records.foldl
    (fun m r => if r.eventPriority = 0 then m else m.insert r.name r.eventPriority) ∅

/-- The event priorities that are not zero. -/
def eventPriorityMap : Asking ResourceRegistry (SortedMap Int) := do
  match (← get).priorities? with
  | some m => return m
  | none =>
      let m := namedPriorities (← records Registry.all)
      modify (fun g => { g with priorities? := some m })
      return m

/-- Take a resource that names the parent.  It has to share the parent's namespace. -/
def takeChild (parent : ResourceRecord) (children : SortedMap ResourceRecord) (name : String) :
    Asking ResourceRegistry (SortedMap ResourceRecord) := do
  let r ← find name
  if r.parent != some parent.name then return children
  else if r.nameSpace != parent.nameSpace then
    throw (.namespaceMismatch parent.name r.name parent.nameSpace r.nameSpace)
  else return children.insert r.name r

/-- The children of a record, by name. -/
def children (parent : ResourceRecord) : Asking ResourceRegistry (SortedMap ResourceRecord) := do
  if parent.linked then (← get).registry.names.foldlM (takeChild parent) ∅
  else return ∅

/-- The children of a record whose registry is gone. -/
def childrenWithout (parent : ResourceRecord) : Except Failure (SortedMap ResourceRecord) :=
  if parent.linked then .error .registryDropped else .ok ∅

end ResourceRegistry

end ConfigCompiler
