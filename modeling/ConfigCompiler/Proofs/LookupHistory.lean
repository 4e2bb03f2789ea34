import ConfigCompiler.Lookup.Hierarchy
import ConfigCompiler.Proofs.SteadyLookups

/-!
# Answers of registries over whole histories

A registry of resources keeps the maps that it derives beside the records that it builds.
Whatever is asked, in whatever order, and whenever the maps are forgotten, a call is
answered as if it came first.

**Input.**  A `ResourceRegistry.Call` is a question about records, derived maps or
children, or a request to forget the maps.  `answersTo calls g` and `after calls g` are the
answers to a list of calls and the registry that is left.

**Invariant.**  `Derived g g'`: records were built and kept, and every derived map that `g'`
keeps is the one that `g` answers with.

**Results.**
* `ResourceRegistry.steady_question`: one call.
* `answers_forget_history`: all calls, in any order.
-/

namespace ConfigCompiler

namespace ResourceRegistry

open Asking

/-- A question about records, derived maps or children, or a request to forget the maps. -/
inductive Call where
  | lookUp (call : Registry.Call)
  | parentMap
  | depthMap
  | eventPriorityMap
  | children (parent : ResourceRecord)
  | invalidate

/-- What a call is answered with. -/
inductive Reply where
  | lookUp (reply : Registry.Reply ResourceRecord)
  | parents (parents : SortedMap String)
  | depths (depths : SortedMap Nat)
  | eventPriorities (priorities : SortedMap Int)
  | children (children : SortedMap ResourceRecord)
  | invalidated

/-- The question that a call asks. -/
def Call.question : Call → Asking ResourceRegistry Reply
  | .lookUp call => do return .lookUp (← records call.question)
  | .parentMap => do return .parents (← ResourceRegistry.parentMap)
  | .depthMap => do return .depths (← ResourceRegistry.depthMap)
  | .eventPriorityMap => do return .eventPriorities (← ResourceRegistry.eventPriorityMap)
  | .children parent => do return .children (← ResourceRegistry.children parent)
  | .invalidate => do
      ResourceRegistry.invalidate
      return .invalidated

/-- The parents by resource. -/
def parentsAnswer (g : ResourceRegistry) : Except Failure (SortedMap String) := do
  let parents := namedParents (← g.registry.allAnswer)
  checkAcyclic parents
  return parents

/-- The number of ancestors of every resource. -/
def depthsAnswer (g : ResourceRegistry) : Except Failure (SortedMap Nat) := do
  depthsOf (← g.parentsAnswer) g.registry.names

/-- The event priorities that are not zero. -/
def prioritiesAnswer (g : ResourceRegistry) : Except Failure (SortedMap Int) := do
  return namedPriorities (← g.registry.allAnswer)

/-- Take a record among the children, if it names the parent. -/
def withChild (parent : ResourceRecord) (children : SortedMap ResourceRecord)
    (r : ResourceRecord) : Except Failure (SortedMap ResourceRecord) :=
  if r.parent != some parent.name then return children
  else if r.nameSpace != parent.nameSpace then
    throw (.namespaceMismatch parent.name r.name parent.nameSpace r.nameSpace)
  else return children.insert r.name r

/-- The children of a record, by name. -/
def childrenAnswer (g : ResourceRegistry) (parent : ResourceRecord) :
    Except Failure (SortedMap ResourceRecord) :=
  if parent.linked then
    g.registry.names.foldlM (fun children name => do
      withChild parent children (← g.registry.recordAnswer name)) ∅
  else return ∅

/-- What a call is answered with, whatever was asked before. -/
def Call.answer (g : ResourceRegistry) : Call → Except Failure Reply
  | .lookUp call => do return .lookUp (← call.answer g.registry)
  | .parentMap => do return .parents (← g.parentsAnswer)
  | .depthMap => do return .depths (← g.depthsAnswer)
  | .eventPriorityMap => do return .eventPriorities (← g.prioritiesAnswer)
  | .children parent => do return .children (← g.childrenAnswer parent)
  | .invalidate => .ok .invalidated

section Calls

/-- Records were built and kept, and the maps that are kept are those that `g` answers
with. -/
structure Derived (g g' : ResourceRegistry) : Prop where
  registry : Registry.Filled g.registry g'.registry
  parents : ∀ m, g'.parents? = some m → g.parentsAnswer = .ok m
  depths : ∀ m, g'.depths? = some m → g.depthsAnswer = .ok m
  priorities : ∀ m, g'.priorities? = some m → g.prioritiesAnswer = .ok m

/-- A registry in which nothing is derived yet. -/
theorem derived_ofSet (set : EntrySet) (defaults : Options) (cache : SortedMap ResourceRecord) :
    Derived (ofSet set defaults cache) (ofSet set defaults cache) :=
  ⟨⟨[], Registry.FilledBy.refl _⟩, nofun, nofun, nofun⟩

variable {α : Type} {g g' : ResourceRegistry}

theorem steady_records {x : Asking (Registry ResourceRecord) α} {a : Except Failure α}
    (h : Steady (Registry.Filled g.registry) x a) : Steady (Derived g) (records x) a :=
  h.on (fun _ hs => hs.registry) (fun _ _ hs hregistry => ⟨hregistry, hs.2, hs.3, hs.4⟩)

theorem steady_parentMap (g : ResourceRegistry) :
    Steady (Derived g) ResourceRegistry.parentMap g.parentsAnswer := by
  refine Steady.get (fun s hs => ?_)
  cases hkept : s.parents? with
  | some m =>
      rw [hs.parents m hkept]
      exact Steady.pure _ m
  | none =>
      refine (steady_records (Registry.steady_all g.registry)).bind (fun all hall => ?_)
      refine (Steady.lift _ (checkAcyclic (namedParents all))).bind (fun _ hacyclic => ?_)
      have hanswer : g.parentsAnswer = .ok (namedParents all) := by
        rw [parentsAnswer, hall]
        show (checkAcyclic (namedParents all) >>= fun _ => _) = _
        rw [hacyclic]
        rfl
      refine (Steady.modify (fun s hs => ?_)).bind (fun _ _ => Steady.pure _ _)
      exact ⟨hs.registry, fun m hm => Option.some.inj hm ▸ hanswer, hs.depths, hs.priorities⟩

theorem steady_depthMap (g : ResourceRegistry) :
    Steady (Derived g) ResourceRegistry.depthMap g.depthsAnswer := by
  refine Steady.get (fun s hs => ?_)
  cases hkept : s.depths? with
  | some m =>
      rw [hs.depths m hkept]
      exact Steady.pure _ m
  | none =>
      refine (steady_parentMap g).bind (fun parents hparents => Steady.get (fun s hs => ?_))
      rw [hs.registry.names_eq]
      refine (Steady.lift _ (depthsOf parents g.registry.names)).noting
        (fun depths hdepths => ?_)
      have hanswer : g.depthsAnswer = .ok depths := by
        rw [depthsAnswer, hparents]
        exact hdepths
      refine (Steady.modify (fun s hs => ?_)).bind (fun _ _ => Steady.pure _ _)
      exact ⟨hs.registry, hs.parents, fun m hm => Option.some.inj hm ▸ hanswer, hs.priorities⟩

theorem steady_eventPriorityMap (g : ResourceRegistry) :
    Steady (Derived g) ResourceRegistry.eventPriorityMap g.prioritiesAnswer := by
  refine Steady.get (fun s hs => ?_)
  cases hkept : s.priorities? with
  | some m =>
      rw [hs.priorities m hkept]
      exact Steady.pure _ m
  | none =>
      refine (steady_records (Registry.steady_all g.registry)).bind (fun all hall => ?_)
      have hanswer : g.prioritiesAnswer = .ok (namedPriorities all) := by
        rw [prioritiesAnswer, hall]
        rfl
      refine (Steady.modify (fun s hs => ?_)).bind (fun _ _ => Steady.pure _ _)
      exact ⟨hs.registry, hs.parents, hs.depths, fun m hm => Option.some.inj hm ▸ hanswer⟩

theorem steady_find (g : ResourceRegistry) (name : String) :
    Steady (Derived g) (ResourceRegistry.find name) (g.registry.recordAnswer name) :=
  (steady_records (Registry.steady_find g.registry name)).bind
    (fun found _ => Steady.pure _ found.2)

theorem steady_takeChild (g : ResourceRegistry) (parent : ResourceRecord)
    (children : SortedMap ResourceRecord) (name : String) :
    Steady (Derived g) (takeChild parent children name)
      (g.registry.recordAnswer name >>= withChild parent children) := by
  refine (steady_find g name).bind (fun r _ => ?_)
  unfold withChild
  split
  · exact Steady.pure _ children
  · split
    · exact Steady.lift _ (.error _)
    · exact Steady.pure _ _

theorem steady_children (g : ResourceRegistry) (parent : ResourceRecord) :
    Steady (Derived g) (ResourceRegistry.children parent) (g.childrenAnswer parent) := by
  unfold ResourceRegistry.children childrenAnswer
  split
  · refine Steady.get (fun s hs => ?_)
    rw [hs.registry.names_eq]
    exact Steady.foldlM (fun children name _ => steady_takeChild g parent children name) ∅
  · exact Steady.pure _ ∅

/-- Maps that are forgotten are derived again when they are asked for. -/
theorem steady_invalidate (g : ResourceRegistry) :
    Steady (Derived g) ResourceRegistry.invalidate (.ok ()) :=
  Steady.modify (fun _ hs => ⟨hs.registry, nofun, nofun, nofun⟩)

theorem steady_question (g : ResourceRegistry) (call : Call) :
    Steady (Derived g) call.question (call.answer g) := by
  cases call with
  | lookUp call =>
      exact (steady_records (Registry.steady_question g.registry call)).bind
        (fun reply _ => Steady.pure _ (Reply.lookUp reply))
  | parentMap => exact (steady_parentMap g).bind (fun m _ => Steady.pure _ (Reply.parents m))
  | depthMap => exact (steady_depthMap g).bind (fun m _ => Steady.pure _ (Reply.depths m))
  | eventPriorityMap =>
      exact (steady_eventPriorityMap g).bind (fun m _ => Steady.pure _ (Reply.eventPriorities m))
  | children parent =>
      exact (steady_children g parent).bind (fun m _ => Steady.pure _ (Reply.children m))
  | invalidate => exact (steady_invalidate g).bind (fun _ _ => Steady.pure _ Reply.invalidated)

end Calls

end ResourceRegistry

namespace Registry

variable {ρ : Type} [EntityRecord ρ]

/-- The answers to a list of calls. -/
def answersTo (calls : List Call) (g : Registry ρ) : List (Except Failure (Reply ρ)) :=
  (Asking.askAll (calls.map Call.question) g).1

/-- The registry after a list of calls. -/
def after (calls : List Call) (g : Registry ρ) : Registry ρ :=
  (Asking.askAll (calls.map fun call => (call.question : Asking (Registry ρ) _)) g).2

theorem answersTo_eq (calls : List Call) (g : Registry ρ) :
    answersTo calls g = calls.map (Call.answer g) :=
  (Asking.askAll_of_steady (steady_question g) calls ⟨[], FilledBy.refl g⟩).1

theorem filled_after (calls : List Call) (g : Registry ρ) : Filled g (after calls g) :=
  (Asking.askAll_of_steady (steady_question g) calls ⟨[], FilledBy.refl g⟩).2

end Registry

namespace ResourceRegistry

/-- The answers to a list of calls. -/
def answersTo (calls : List Call) (g : ResourceRegistry) : List (Except Failure Reply) :=
  (Asking.askAll (calls.map Call.question) g).1

/-- The registry after a list of calls. -/
def after (calls : List Call) (g : ResourceRegistry) : ResourceRegistry :=
  (Asking.askAll (calls.map Call.question) g).2

variable {g : ResourceRegistry}

theorem answersTo_eq (h : Derived g g) (calls : List Call) :
    answersTo calls g = calls.map (Call.answer g) :=
  (Asking.askAll_of_steady (steady_question g) calls h).1

theorem derived_after (h : Derived g g) (calls : List Call) : Derived g (after calls g) :=
  (Asking.askAll_of_steady (steady_question g) calls h).2

end ResourceRegistry

/-- No answer depends on what was asked before.  A look-up answers with the record that was
there in the beginning, or with the one that its entry makes; a look-up that fails says so
under the name of the entry and changes nothing; each record is built once; and once all
are built nothing changes.  The derived maps of a registry of resources, and the children
of any record, are answered alike too, whenever the maps are forgotten. -/
theorem answers_forget_history {ρ : Type} [EntityRecord ρ] (set : EntrySet)
    (defaults : Options) (cache : SortedMap ρ) (hook : ρ → ρ) (resources : EntrySet)
    (below : Options) (preloaded : SortedMap ResourceRecord) :
    let g : Registry ρ := { set, defaults, cache, hook }
    let h := ResourceRegistry.ofSet resources below preloaded
    (∀ calls, g.answersTo calls = calls.map (Registry.Call.answer g)) ∧
    (∀ calls, Registry.FilledBy g (g.after calls).built (g.after calls)) ∧
    (∀ calls name f g', (Registry.find name).ask (g.after calls) = (.error f, g') →
      g' = g.after calls) ∧
    (∀ calls name f g', (Registry.findOptional name).ask (g.after calls) = (.error f, g') →
      g' = g.after calls ∧
        ∃ reason, f = .construct (EntityRecord.kind ρ) (g.canonical name) reason) ∧
    (∀ calls count g', Registry.warmUp.ask (g.after calls) = (.ok count, g') →
      count = g.size ∧ ∀ more, g'.after more = g') ∧
    (∀ calls, h.answersTo calls = calls.map (ResourceRegistry.Call.answer h)) ∧
    ∀ calls, ResourceRegistry.Derived h (h.after calls) := by
  intro g h
  have hderived := ResourceRegistry.derived_ofSet resources below preloaded
  refine ⟨fun calls => Registry.answersTo_eq calls g, fun calls => ?_,
    fun _ _ _ _ hfails => Registry.find_of_fails hfails, fun calls name f g' hfails => ?_,
    fun calls count g' hwarm => ?_, ResourceRegistry.answersTo_eq hderived,
    ResourceRegistry.derived_after hderived⟩
  · obtain ⟨built, hfilled⟩ := Registry.filled_after calls g
    have hlog : (g.after calls).built = built := by simpa [g] using hfilled.log
    rwa [hlog]
  · refine ⟨Registry.findOptional_of_fails hfails, ?_⟩
    have hanswer := (Registry.steady_findOptional g name _ (Registry.filled_after calls g)).1
    rw [hfails] at hanswer
    exact Registry.optionalAnswer_error hanswer.symm
  · obtain ⟨hcomplete, hcount⟩ := Registry.complete_of_warmUp hwarm
    obtain ⟨built, hfilled⟩ := Registry.filled_after calls g
    refine ⟨hcount.trans ?_, fun more => ?_⟩
    · rw [Registry.size, Registry.size, hfilled.set]
    · obtain ⟨built', hfilled'⟩ := Registry.filled_after more g'
      exact hfilled'.eq_of_complete hcomplete

namespace Kiosk

def permission (name label : String) : Options :=
  SortedMap.ofList [("name", .string name), ("label", .string label)]

/-- Two permissions, one of them under an alias and one with a record from elsewhere. -/
def registry : Registry PermissionRecord where
  set := ⟨SortedMap.ofList [("read", permission "read" "Read"),
    ("write", permission "write" "Write")], SortedMap.singleton "r" "read"⟩
  defaults := SortedMap.singleton "translation_domain" (.string "kiosk")
  cache := SortedMap.singleton "write" ⟨"write", "Kept", none, ∅⟩
  hook := fun r => { r with label := r.label ++ "!" }

def calls : List Registry.Call := [.findOptional "x", .find "r", .has "write", .pass 1]

end Kiosk

theorem answers_forget_history_kiosk :
    (Kiosk.registry.after Kiosk.calls).built = ["read"] ∧
      (Kiosk.registry.after Kiosk.calls).built.Nodup ∧
      ∃ g', Registry.warmUp.ask (Kiosk.registry.after Kiosk.calls) = (.ok 2, g') ∧
        ∀ more, g'.after more = g' := by
  obtain ⟨-, hbuilt, -, -, hwarm, -⟩ := answers_forget_history Kiosk.registry.set
    Kiosk.registry.defaults Kiosk.registry.cache Kiosk.registry.hook EntrySet.empty ∅ ∅
  have hcount : (Registry.warmUp.ask (Kiosk.registry.after Kiosk.calls)).1.toOption = some 2 := by
    decide +kernel
  refine ⟨by decide +kernel, (hbuilt Kiosk.calls).once, ?_⟩
  cases hends : Registry.warmUp.ask (Kiosk.registry.after Kiosk.calls) with
  | mk answer g' =>
      rw [hends] at hcount
      cases answer with
      | error e => cases hcount
      | ok count =>
          obtain rfl : count = 2 := Option.some.inj hcount
          exact ⟨g', rfl, (hwarm Kiosk.calls 2 g' hends).2⟩

end ConfigCompiler
