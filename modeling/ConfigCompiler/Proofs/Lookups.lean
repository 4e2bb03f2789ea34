import ConfigCompiler.Lookup.Registries

/-!
# Looking up all records

A registry builds the record of an entry when the entry is looked up for the first time,
and keeps it.  Whether a look-up succeeds is therefore decided before anything is looked
up: by the entries whose records do not build.

**Input.**  `refusal?` is what is wrong with the entry stored under a name, and
`firstRefusal?` what is wrong with the first entry of a registry that is refused.
`Judged ρ verdict set`: the records of a set build, or do not, as a verdict about their
entries says.

**Invariant.**  `Looked g g'`: between two states of a registry only records were built,
so that the same entries are refused.

**Results.**
* `ask_find`: how a look-up ends, and what it keeps.
* `lookUp_of_refused`, `lookUp_of_not_refused`: looking up all names ends at the first
  refusal, or with one record for each.
* `ask_warmUp`, `Registries.ask_warmUp`: building all records of a registry, and of all
  registries.
* `firstRefusal?_eq`, `find_fails_of_judged`: without defaults the verdict decides which
  look-ups fail.
-/

namespace ConfigCompiler

namespace Asking

variable {σ τ α β : Type}

theorem ask_bind (x : Asking σ α) (f : α → Asking σ β) (s : σ) :
    ask (x >>= f) s =
      match x.ask s with
      | (.ok a, s') => (f a).ask s'
      | (.error e, s') => (.error e, s') := by
  have h : ask (x >>= f) s =
      ask (ExceptT.mk (ExceptT.bindCont f (x.ask s).1)) (x.ask s).2 := rfl
  rw [h]
  cases x.ask s with
  | mk answer s' => cases answer <;> rfl

theorem ask_lift (e : Except Failure α) (s : σ) : ask (liftM e : Asking σ α) s = (e, s) := rfl

/-- A part of a part is a part. -/
theorem on_on {υ : Type} (part : τ → σ) (replace : τ → σ → τ) (part' : υ → τ)
    (replace' : υ → τ → υ) (x : Asking σ α) :
    (x.on part replace).on part' replace' =
      x.on (fun s => part (part' s)) (fun s changed => replace' s (replace (part' s) changed)) :=
  rfl

/-- A question about a part is answered by that part, and nothing else changes. -/
theorem answer_on_bind (part : τ → σ) (replace : τ → σ → τ) (x : Asking σ α)
    (f : α → Asking τ β) (s : τ) :
    (ask (x.on part replace >>= f) s).1 =
      match (x.ask (part s)).1 with
      | .ok a => ((f a).ask (replace s (x.ask (part s)).2)).1
      | .error e => .error e := by
  rw [ask_bind]
  show (match ((x.ask (part s)).1, replace s (x.ask (part s)).2) with
    | (.ok a, s') => (f a).ask s'
    | (.error e, s') => (.error e, s')).1 = _
  cases (x.ask (part s)).1 <;> rfl

end Asking

namespace Registry

open Asking

variable {ρ : Type} [EntityRecord ρ] {g g' g'' : Registry ρ} {name : String}

/-- What is wrong with the entry stored under a name, unless its record is kept. -/
def refusal? (g : Registry ρ) (name : String) : Option Failure :=
  match g.set.configs.get? name, g.cache.get? name with
  | some stored, none =>
      match g.fresh name stored with
      | .error f => some f
      | .ok _ => none
  | _, _ => none

/-- What is wrong with the first entry that is refused. -/
def firstRefusal? (g : Registry ρ) : Option Failure := g.names.findSome? g.refusal?

/-- The records of a list of names, in order. -/
def lookUp (names : List String) : Asking (Registry ρ) (List ρ) :=
  names.mapM (fun name => do return (← find name).2)

theorem lookUp_cons (name : String) (rest : List String) :
    (lookUp (name :: rest) : Asking (Registry ρ) (List ρ)) = do
      let found ← find name
      return found.2 :: (← lookUp rest) := by
  simp only [lookUp, List.mapM_cons, bind_assoc, pure_bind]

/-- Between two states of a registry only records were built and kept. -/
structure Looked (g g' : Registry ρ) : Prop where
  set : g'.set = g.set
  refusals : g'.refusal? = g.refusal?

theorem Looked.refl (g : Registry ρ) : Looked g g := ⟨rfl, rfl⟩

/-- Keeping a record that was built changes no refusal. -/
theorem looked_keep {stored : Options} {record : ρ}
    (hstored : g.set.configs.get? name = some stored)
    (hfresh : g.fresh name stored = .ok record) : Looked g (g.keep name record) where
  set := rfl
  refusals := by
    funext other
    by_cases hname : name = other
    · subst hname
      simp only [refusal?, keep, hstored, SortedMap.get?_insert_self]
      cases g.cache.get? name with
      | some _ => rfl
      | none => simp only [hfresh]
    · simp only [refusal?, keep, SortedMap.get?_insert, if_neg hname]
      rfl

theorem ask_findOptional (g : Registry ρ) (name : String) :
    (findOptional name).ask g =
      match g.set.configs.get? (g.canonical name) with
      | none => (.ok none, g)
      | some stored =>
          match g.cache.get? (g.canonical name) with
          | some record => (.ok (some (g.canonical name, record)), g)
          | none =>
              match g.fresh (g.canonical name) stored with
              | .ok record =>
                  (.ok (some (g.canonical name, record)), g.keep (g.canonical name) record)
              | .error f => (.error f, g) := by
  unfold findOptional
  rw [ask_bind]
  show ask (match g.set.configs.get? (g.canonical name) with | none => _ | some _ => _) g = _
  cases g.set.configs.get? (g.canonical name) with
  | none => rfl
  | some stored =>
      show ask (match g.cache.get? (g.canonical name) with | some _ => _ | none => _) g = _
      cases g.cache.get? (g.canonical name) with
      | some record => rfl
      | none =>
          show ask (liftM (g.fresh (g.canonical name) stored) >>= _) g = _
          rw [ask_bind, ask_lift]
          cases hfresh : g.fresh (g.canonical name) stored with
          | error e => simp only [hfresh]
          | ok record => simp only [hfresh]; rfl

/-- How a look-up ends: nowhere, with the record kept, or with a record built anew. -/
theorem ask_find (g : Registry ρ) (name : String) :
    (find name).ask g =
      match g.set.configs.get? (g.canonical name) with
      | none => (.error (.notFound (EntityRecord.kind ρ) name), g)
      | some stored =>
          match g.cache.get? (g.canonical name) with
          | some record => (.ok (g.canonical name, record), g)
          | none =>
              match g.fresh (g.canonical name) stored with
              | .ok record => (.ok (g.canonical name, record), g.keep (g.canonical name) record)
              | .error f => (.error f, g) := by
  unfold find
  rw [ask_bind, ask_findOptional]
  cases hset : g.set.configs.get? (g.canonical name) with
  | none => rfl
  | some stored =>
      cases hcache : g.cache.get? (g.canonical name) with
      | some record => rfl
      | none =>
          cases hfresh : g.fresh (g.canonical name) stored with
          | error e => simp only [hfresh]
          | ok record => simp only [hfresh]; rfl

omit [EntityRecord ρ] in
/-- A stored name is looked up under itself. -/
theorem canonical_of_contains (h : g.set.configs.contains name = true) :
    g.canonical name = name := by
  rw [canonical, if_pos h]

theorem find_of_refused {f : Failure} (hstored : g.set.configs.contains name = true)
    (hrefusal : g.refusal? name = some f) : (find name).ask g = (.error f, g) := by
  obtain ⟨stored, hget⟩ := SortedMap.exists_of_contains hstored
  unfold refusal? at hrefusal
  rw [ask_find, canonical_of_contains hstored]
  cases hcache : g.cache.get? name with
  | some record => simp [hget, hcache] at hrefusal
  | none =>
      cases hfresh : g.fresh name stored with
      | ok record => simp [hget, hcache, hfresh] at hrefusal
      | error f' =>
          simp only [hget, hcache, hfresh, Option.some.injEq] at hrefusal
          simp [hget, hfresh, hrefusal]

theorem find_of_not_refused (hstored : g.set.configs.contains name = true)
    (hrefusal : g.refusal? name = none) :
    ∃ record g', (find name).ask g = (.ok (name, record), g') ∧ Looked g g' := by
  obtain ⟨stored, hget⟩ := SortedMap.exists_of_contains hstored
  unfold refusal? at hrefusal
  rw [ask_find, canonical_of_contains hstored]
  cases hcache : g.cache.get? name with
  | some record => exact ⟨record, g, by simp [hget], Looked.refl g⟩
  | none =>
      cases hfresh : g.fresh name stored with
      | ok record =>
          exact ⟨record, g.keep name record, by simp [hget, hfresh], looked_keep hget hfresh⟩
      | error f => simp [hget, hcache, hfresh] at hrefusal

/-- A look-up fails for a text that leads nowhere, or at an entry that is refused. -/
theorem find_fails {f : Failure} (h : ((find name).ask g).1 = .error f) :
    f = .notFound (EntityRecord.kind ρ) name ∨ g.refusal? (g.canonical name) = some f := by
  rw [ask_find] at h
  unfold refusal?
  cases hset : g.set.configs.get? (g.canonical name) with
  | none =>
      rw [hset] at h
      cases h
      exact Or.inl rfl
  | some stored =>
      rw [hset] at h
      cases hcache : g.cache.get? (g.canonical name) with
      | some record =>
          rw [hcache] at h
          cases h
      | none =>
          rw [hcache] at h
          cases hfresh : g.fresh (g.canonical name) stored with
          | ok record =>
              simp only [hfresh] at h
              cases h
          | error f' =>
              simp only [hfresh] at h
              cases h
              exact Or.inr (by simp only [hfresh])

/-- Looking up stored names ends at the first refusal. -/
theorem lookUp_of_refused {names : List String} {f : Failure}
    (hstored : ∀ name ∈ names, g.set.configs.contains name = true)
    (hrefusal : names.findSome? g.refusal? = some f) :
    ∃ g', (lookUp names).ask g = (.error f, g') := by
  induction names generalizing g with
  | nil => cases hrefusal
  | cons name rest ih =>
      have hname := hstored name List.mem_cons_self
      rw [lookUp_cons, ask_bind]
      rw [List.findSome?_cons] at hrefusal
      cases hfirst : g.refusal? name with
      | some f' =>
          rw [hfirst] at hrefusal
          cases hrefusal
          exact ⟨g, by rw [find_of_refused hname hfirst]⟩
      | none =>
          rw [hfirst] at hrefusal
          obtain ⟨record, g₁, hfind, hlooked⟩ := find_of_not_refused hname hfirst
          obtain ⟨g', hrest⟩ := @ih g₁
            (fun other hother => hlooked.set ▸ hstored other (List.mem_cons_of_mem _ hother))
            (hlooked.refusals ▸ hrefusal)
          refine ⟨g', ?_⟩
          rw [hfind]
          simp only [ask_bind, hrest]

/-- Looking up stored names of which none is refused answers with one record for each. -/
theorem lookUp_of_not_refused {names : List String}
    (hstored : ∀ name ∈ names, g.set.configs.contains name = true)
    (hrefusal : names.findSome? g.refusal? = none) :
    ∃ records g', (lookUp names).ask g = (.ok records, g') ∧
      records.length = names.length := by
  induction names generalizing g with
  | nil => exact ⟨[], g, rfl, rfl⟩
  | cons name rest ih =>
      rw [lookUp_cons, ask_bind]
      rw [List.findSome?_eq_none_iff] at hrefusal
      obtain ⟨record, g₁, hfind, hlooked⟩ := find_of_not_refused
        (hstored name List.mem_cons_self) (hrefusal name List.mem_cons_self)
      obtain ⟨records, g', hrest, hlength⟩ := @ih g₁
        (fun other hother => hlooked.set ▸ hstored other (List.mem_cons_of_mem _ hother))
        (hlooked.refusals ▸ List.findSome?_eq_none_iff.2
          (fun other hother => hrefusal other (List.mem_cons_of_mem _ hother)))
      refine ⟨record :: records, g', ?_, by simp [hlength]⟩
      rw [hfind]
      simp only [ask_bind, hrest]
      rfl

omit [EntityRecord ρ] in
theorem stored_of_mem_names (h : name ∈ g.names) : g.set.configs.contains name = true := by
  rw [SortedMap.contains_eq_isSome]
  exact (SortedMap.mem_keys_iff _ _).1 h

/-- Building all records ends at the first refusal, or with their number. -/
theorem ask_warmUp (g : Registry ρ) :
    (warmUp.ask g).1 =
      match g.firstRefusal? with
      | some f => .error f
      | none => .ok g.size := by
  have hall : (all : Asking (Registry ρ) (List ρ)).ask g = (lookUp g.names).ask g := by
    unfold all
    rw [ask_bind]
    rfl
  unfold warmUp
  rw [ask_bind, hall]
  cases hfirst : g.firstRefusal? with
  | some f =>
      obtain ⟨g', hends⟩ := lookUp_of_refused (fun _ => stored_of_mem_names) hfirst
      rw [hends]
  | none =>
      obtain ⟨records, g', hends, hlength⟩ :=
        lookUp_of_not_refused (fun _ => stored_of_mem_names) hfirst
      rw [hends]
      show Except.ok records.length = .ok g.size
      rw [hlength]
      simp [size, names, EntrySet.size, EntrySet.names, SortedMap.keys, SortedMap.size]

/-- Building the records of a part of something ends there at the first refusal. -/
theorem answer_warmUp_bind {τ β : Type} (part : τ → Registry ρ)
    (replace : τ → Registry ρ → τ) (f : Nat → Asking τ β) (s : τ) :
    (ask (warmUp.on part replace >>= f) s).1 =
      match (part s).firstRefusal? with
      | some e => .error e
      | none => ((f (part s).size).ask (replace s (warmUp.ask (part s)).2)).1 := by
  rw [answer_on_bind, ask_warmUp]
  cases (part s).firstRefusal? <;> rfl

section Judged

variable {verdict : String → Options → Option Failure}

/-- The records of a set build, or fail to build as a verdict says. -/
def Judged (ρ : Type) [EntityRecord ρ] (verdict : String → Options → Option Failure)
    (set : EntrySet) : Prop :=
  ∀ name config, set.configs.get? name = some config →
    match (EntityRecord.construct name config : Except Failure ρ) with
    | .error f => verdict name config = some f
    | .ok _ => verdict name config = none

/-- Without defaults an entry is refused as the verdict says, unless its record is kept. -/
theorem refusal?_eq (hdefaults : g.defaults = ∅) (h : Judged ρ verdict g.set)
    (name : String) :
    g.refusal? name =
      match g.cache.get? name with
      | some _ => none
      | none => (g.set.configs.get? name).bind (verdict name) := by
  unfold refusal?
  cases hset : g.set.configs.get? name with
  | none => cases g.cache.get? name <;> rfl
  | some config =>
      cases g.cache.get? name with
      | some record => rfl
      | none =>
          have hverdict := h name config hset
          simp only [fresh, hdefaults, Options.empty_merge, Option.bind_some]
          cases hbuilt : (EntityRecord.construct name config : Except Failure ρ) with
          | error f =>
              rw [hbuilt] at hverdict
              exact hverdict.symm
          | ok record =>
              rw [hbuilt] at hverdict
              exact hverdict.symm

/-- Of a registry that has built nothing the first entry is refused that the verdict
refuses. -/
theorem firstRefusal?_eq (hdefaults : g.defaults = ∅) (hcache : g.cache = ∅)
    (h : Judged ρ verdict g.set) : g.firstRefusal? = g.set.configs.findSome? verdict := by
  refine SortedMap.findSome?_keys (fun name config hconfig => ?_)
  rw [refusal?_eq hdefaults h, hcache, hconfig]
  rfl

/-- Whatever was built before, a look-up fails as the verdict says, or for a text that
leads nowhere. -/
theorem find_fails_of_judged {f : Failure} (hdefaults : g.defaults = ∅)
    (h : Judged ρ verdict g.set) (hfails : ((find name).ask g).1 = .error f) :
    f = .notFound (EntityRecord.kind ρ) name ∨
      ∃ config, g.set.configs.get? (g.canonical name) = some config ∧
        verdict (g.canonical name) config = some f := by
  refine (find_fails hfails).imp_right (fun hrefusal => ?_)
  rw [refusal?_eq hdefaults h] at hrefusal
  split at hrefusal
  · cases hrefusal
  · exact Option.bind_eq_some_iff.1 hrefusal

end Judged

end Registry

namespace Registries

/-- What is wrong with the first entry that is refused, kind by kind. -/
def firstRefusal? (g : Registries) : Option Failure :=
  g.permissions.firstRefusal?.or <| g.namespaces.firstRefusal?.or <|
    g.actions.firstRefusal?.or <| g.behaviors.firstRefusal?.or g.resources.registry.firstRefusal?

/-- The number of entries of all kinds. -/
def size (g : Registries) : Nat :=
  g.permissions.size + g.namespaces.size + g.actions.size + g.behaviors.size +
    g.resources.registry.size

/-- Building the records of all kinds ends at the first refusal, or with their number. -/
theorem ask_warmUp (g : Registries) :
    (warmUp.ask g).1 =
      match g.firstRefusal? with
      | some f => .error f
      | none => .ok g.size := by
  unfold warmUp firstRefusal?
  rw [onPermissions, Registry.answer_warmUp_bind]
  cases g.permissions.firstRefusal?
  case some f => rfl
  dsimp only [Option.none_or]
  rw [onNamespaces, Registry.answer_warmUp_bind]
  cases g.namespaces.firstRefusal?
  case some f => rfl
  dsimp only [Option.none_or]
  rw [onActions, Registry.answer_warmUp_bind]
  cases g.actions.firstRefusal?
  case some f => rfl
  dsimp only [Option.none_or]
  rw [onBehaviors, Registry.answer_warmUp_bind]
  cases g.behaviors.firstRefusal?
  case some f => rfl
  dsimp only [Option.none_or]
  rw [onResources, ResourceRegistry.records, Asking.on_on, Registry.answer_warmUp_bind]
  cases g.resources.registry.firstRefusal? <;> rfl

end Registries
end ConfigCompiler
