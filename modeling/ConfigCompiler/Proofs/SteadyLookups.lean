import ConfigCompiler.Proofs.Lookups

/-!
# Lookups and what was asked before

A registry builds a record when it is asked for, and keeps it.  What was asked before
therefore decides what is built when, but no answer depends on it.

**Input.**  A `Registry.Call` is a question about records.  `Asking.askAll` puts a list of
questions, one after the other.

**Pure counterparts.**  `Registry.recordOf` is the record of an entry that look-ups lead to,
and `Registry.Call.answer` says what a call is answered with.  Both look only at what is
there in the beginning.

**Invariants.**  `FilledBy g built g'`: between `g` and `g'` the records of `built` were
built, each once, and kept.  `Asking.Steady I x a`: in every state of the invariant the
question `x` is answered with `a`, and the invariant is kept.

**Results.**
* `Registry.steady_question`: one call.
* `Asking.askAll_of_steady`: from single questions to lists of them.
* `Registry.find_of_fails`: a look-up that fails changes nothing.
* `Registry.complete_of_warmUp`, `Registry.FilledBy.eq_of_complete`: once all records are
  built nothing changes any more.
-/

namespace ConfigCompiler

namespace Asking

variable {σ τ α β : Type} {I : σ → Prop} {s : σ}

/-- Put questions one after the other. -/
def askAll : List (Asking σ α) → σ → List (Except Failure α) × σ
  | [], s => ([], s)
  | question :: rest, s =>
      let (answer, s₁) := question.ask s
      let (answers, s₂) := askAll rest s₁
      (answer :: answers, s₂)

/-- In every state of the invariant the question has the same answer, and the invariant is
kept. -/
def Steady (I : σ → Prop) (x : Asking σ α) (answer : Except Failure α) : Prop :=
  ∀ s, I s → (x.ask s).1 = answer ∧ I (x.ask s).2

theorem Steady.pure (I : σ → Prop) (a : α) : Steady I (pure a : Asking σ α) (.ok a) :=
  fun _ hs => ⟨rfl, hs⟩

theorem Steady.lift (I : σ → Prop) (e : Except Failure α) :
    Steady I (liftM e : Asking σ α) e :=
  fun _ hs => ⟨rfl, hs⟩

theorem Steady.bind {x : Asking σ α} {f : α → Asking σ β} {a : Except Failure α}
    {b : α → Except Failure β} (hx : Steady I x a) (hf : ∀ v, a = .ok v → Steady I (f v) (b v)) :
    Steady I (x >>= f) (a >>= b) := by
  intro s hs
  obtain ⟨hanswer, hkept⟩ := hx s hs
  rw [ask_bind]
  cases hends : x.ask s with
  | mk answer s' =>
      rw [hends] at hanswer hkept
      subst hanswer
      cases answer with
      | ok v => exact hf v rfl s' hkept
      | error e => exact ⟨rfl, hkept⟩

/-- An answer that is noted before it is given. -/
theorem Steady.noting {x : Asking σ α} {f : α → Asking σ α} {a : Except Failure α}
    (hx : Steady I x a) (hf : ∀ v, a = .ok v → Steady I (f v) (.ok v)) :
    Steady I (x >>= f) a := by
  rw [← bind_pure a]
  exact hx.bind hf

/-- A question that looks at the state first. -/
theorem Steady.get {f : σ → Asking σ α} {a : Except Failure α}
    (h : ∀ s, I s → Steady I (f s) a) : Steady I (get >>= f) a := by
  intro s hs
  rw [ask_bind]
  exact h s hs s hs

theorem Steady.modify {f : σ → σ} (h : ∀ s, I s → I (f s)) :
    Steady I (modify f : Asking σ Unit) (.ok ()) :=
  fun s hs => ⟨rfl, h s hs⟩

/-- A question in two parts is answered if both parts are. -/
theorem ask_bind_eq_ok {x : Asking σ α} {f : α → Asking σ β} {b : β} {s'' : σ} :
    (x >>= f).ask s = (.ok b, s'') ↔
      ∃ a s', x.ask s = (.ok a, s') ∧ (f a).ask s' = (.ok b, s'') := by
  rw [ask_bind]
  cases hx : x.ask s with
  | mk answer s' =>
      cases answer with
      | ok a =>
          constructor
          · intro h
            exact ⟨a, s', rfl, h⟩
          · rintro ⟨a', s₁, hsame, h⟩
            cases hsame
            exact h
      | error e => simp

/-- A question whose failure is taken as an answer. -/
theorem Steady.attempt {x : Asking σ α} {a : Except Failure α} (h : Steady I x a) :
    Steady I (attempt x) (.ok a) :=
  fun s hs => ⟨congrArg Except.ok (h s hs).1, (h s hs).2⟩

theorem Steady.mapM {x : β → Asking σ α} {a : β → Except Failure α} {items : List β}
    (h : ∀ item ∈ items, Steady I (x item) (a item)) :
    Steady I (items.mapM x) (items.mapM a) := by
  induction items with
  | nil => exact Steady.pure I []
  | cons item rest ih =>
      rw [List.mapM_cons, List.mapM_cons]
      refine (h item List.mem_cons_self).bind (fun first _ => ?_)
      refine (ih (fun other hother => h other (List.mem_cons_of_mem _ hother))).bind
        (fun more _ => ?_)
      exact Steady.pure I (first :: more)

theorem Steady.foldlM {x : α → β → Asking σ α} {a : α → β → Except Failure α}
    {items : List β} (h : ∀ b, ∀ item ∈ items, Steady I (x b item) (a b item)) (start : α) :
    Steady I (items.foldlM x start) (items.foldlM a start) := by
  induction items generalizing start with
  | nil => exact Steady.pure I start
  | cons item rest ih =>
      rw [List.foldlM_cons, List.foldlM_cons]
      refine (h start item List.mem_cons_self).bind (fun next _ => ?_)
      exact ih (fun b other hother => h b other (List.mem_cons_of_mem _ hother)) next

/-- A question about a part, as far as the invariant of the whole is one about parts. -/
theorem Steady.on {J : τ → Prop} {x : Asking σ α} {a : Except Failure α} {part : τ → σ}
    {replace : τ → σ → τ} (h : Steady I x a) (hpart : ∀ t, J t → I (part t))
    (hreplace : ∀ t s, J t → I s → J (replace t s)) : Steady J (x.on part replace) a := by
  intro t ht
  obtain ⟨hanswer, hkept⟩ := h (part t) (hpart t ht)
  exact ⟨hanswer, hreplace t _ ht hkept⟩

/-- If every question has one answer, so has a list of them. -/
theorem askAll_of_steady {γ : Type} {x : γ → Asking σ α} {a : γ → Except Failure α}
    (h : ∀ call, Steady I (x call) (a call)) (calls : List γ) (hs : I s) :
    (askAll (calls.map x) s).1 = calls.map a ∧ I (askAll (calls.map x) s).2 := by
  induction calls generalizing s with
  | nil => exact ⟨rfl, hs⟩
  | cons call rest ih =>
      obtain ⟨hanswer, hkept⟩ := h call s hs
      obtain ⟨hanswers, hend⟩ := ih hkept
      exact ⟨by rw [List.map_cons, List.map_cons, ← hanswer, ← hanswers]; rfl, hend⟩

end Asking

namespace Registry

open Asking

variable {ρ : Type} [EntityRecord ρ] {g g' g'' : Registry ρ} {built more : List String}
variable {name key : String} {stored : Options} {record : ρ} {f : Failure}

/-- A question about records. -/
inductive Call where
  | has (name : String)
  | find (name : String)
  | findOptional (name : String)
  /-- A pass over the records, broken off after `length` of them. -/
  | pass (length : Nat)
  | warmUp

/-- What a call is answered with. -/
inductive Reply (ρ : Type) where
  | has (known : Bool)
  | record (found : String × ρ)
  | optional (found? : Option (String × ρ))
  | records (results : List (Except Failure ρ))
  | count (built : Nat)

/-- The records of the first entries, as a pass meets them. -/
def visit (length : Nat) : Asking (Registry ρ) (List (Except Failure ρ)) := do
  ((← get).names.take length).mapM (fun name => Asking.attempt (do return (← find name).2))

/-- The question that a call asks. -/
def Call.question : Call → Asking (Registry ρ) (Reply ρ)
  | .has name => do return .has ((← get).has name)
  | .find name => do return .record (← Registry.find name)
  | .findOptional name => do return .optional (← Registry.findOptional name)
  | .pass length => do return .records (← visit length)
  | .warmUp => do return .count (← Registry.warmUp)

/-- The record of a stored entry: the one kept, or else one built anew. -/
def recordOf (g : Registry ρ) (key : String) (stored : Options) : Except Failure ρ :=
  match g.cache.get? key with
  | some record => .ok record
  | none => g.fresh key stored

/-- The record that a text leads to, with the name of its entry. -/
def optionalAnswer (g : Registry ρ) (name : String) : Except Failure (Option (String × ρ)) :=
  match g.set.configs.get? (g.canonical name) with
  | none => .ok none
  | some stored => do return some (g.canonical name, ← g.recordOf (g.canonical name) stored)

/-- The record that a text leads to, which has to exist. -/
def findAnswer (g : Registry ρ) (name : String) : Except Failure (String × ρ) := do
  match ← g.optionalAnswer name with
  | some found => return found
  | none => throw (.notFound (EntityRecord.kind ρ) name)

/-- The record of the entry that a text leads to. -/
def recordAnswer (g : Registry ρ) (name : String) : Except Failure ρ := do
  return (← g.findAnswer name).2

/-- All records, up to the first that does not build. -/
def allAnswer (g : Registry ρ) : Except Failure (List ρ) := g.names.mapM g.recordAnswer

/-- The number of records, if all build. -/
def warmUpAnswer (g : Registry ρ) : Except Failure Nat := do
  return (← g.allAnswer).length

/-- What a call is answered with, whatever was asked before. -/
def Call.answer (g : Registry ρ) : Call → Except Failure (Reply ρ)
  | .has name => .ok (.has (g.has name))
  | .find name => do return .record (← g.findAnswer name)
  | .findOptional name => do return .optional (← g.optionalAnswer name)
  | .pass length => .ok (.records ((g.names.take length).map g.recordAnswer))
  | .warmUp => do return .count (← g.warmUpAnswer)

/-- Between two states of a registry the records of `built` were built, each of them once,
and kept. -/
structure FilledBy (g : Registry ρ) (built : List String) (g' : Registry ρ) : Prop where
  set : g'.set = g.set
  defaults : g'.defaults = g.defaults
  hook : g'.hook = g.hook
  log : g'.built = g.built ++ built
  once : built.Nodup
  fresh : ∀ key ∈ built, g.cache.get? key = none ∧ ∃ stored record,
    g.set.configs.get? key = some stored ∧ g.fresh key stored = .ok record ∧
      g'.cache.get? key = some record
  kept : ∀ key, key ∉ built → g'.cache.get? key = g.cache.get? key

theorem FilledBy.refl (g : Registry ρ) : FilledBy g [] g :=
  ⟨rfl, rfl, rfl, by simp, List.nodup_nil, fun _ h => (List.not_mem_nil h).elim, fun _ _ => rfl⟩

theorem FilledBy.fresh_eq (h : FilledBy g built g') : g'.fresh = g.fresh := by
  funext key stored
  rw [Registry.fresh, Registry.fresh, h.defaults, h.hook]

/-- What was kept before is kept. -/
theorem FilledBy.cache_of_some (h : FilledBy g built g')
    (hkept : g.cache.get? key = some record) : g'.cache.get? key = some record := by
  rw [h.kept key (fun hmem => Option.some_ne_none _ (hkept.symm.trans (h.fresh key hmem).1)),
    hkept]

theorem FilledBy.trans (h : FilledBy g built g') (h' : FilledBy g' more g'') :
    FilledBy g (built ++ more) g'' where
  set := h'.set.trans h.set
  defaults := h'.defaults.trans h.defaults
  hook := h'.hook.trans h.hook
  log := by rw [h'.log, h.log, List.append_assoc]
  once := by
    refine List.nodup_append.2 ⟨h.once, h'.once, fun key hbuilt other hmore heq => ?_⟩
    subst heq
    obtain ⟨-, stored, record, -, -, hkept⟩ := h.fresh key hbuilt
    rw [(h'.fresh key hmore).1] at hkept
    cases hkept
  fresh := by
    intro key hmem
    by_cases hbuilt : key ∈ built
    · obtain ⟨hnone, stored, record, hstored, hfresh, hkept⟩ := h.fresh key hbuilt
      exact ⟨hnone, stored, record, hstored, hfresh, h'.cache_of_some hkept⟩
    · obtain ⟨hnone, stored, record, hstored, hfresh, hkept⟩ :=
        h'.fresh key ((List.mem_append.1 hmem).resolve_left hbuilt)
      rw [h.kept key hbuilt] at hnone
      rw [h.set] at hstored
      rw [h.fresh_eq] at hfresh
      exact ⟨hnone, stored, record, hstored, hfresh, hkept⟩
  kept := by
    intro key hmem
    rw [List.mem_append, not_or] at hmem
    rw [h'.kept key hmem.2, h.kept key hmem.1]

/-- A record that was built is kept. -/
theorem filledBy_keep (hstored : g.set.configs.get? key = some stored)
    (hnone : g.cache.get? key = none) (hfresh : g.fresh key stored = .ok record) :
    FilledBy g [key] (g.keep key record) where
  set := rfl
  defaults := rfl
  hook := rfl
  log := rfl
  once := by simp
  fresh := List.forall_mem_singleton.2
    ⟨hnone, stored, record, hstored, hfresh, SortedMap.get?_insert_self _ _ _⟩
  kept := fun other hother => by
    rw [keep, SortedMap.get?_insert, if_neg (fun heq => hother (by simp [heq]))]

/-- What is built later is what would have been built before. -/
theorem FilledBy.recordOf_eq (h : FilledBy g built g')
    (hstored : g.set.configs.get? key = some stored) :
    g'.recordOf key stored = g.recordOf key stored := by
  unfold recordOf
  by_cases hbuilt : key ∈ built
  · obtain ⟨hnone, stored', record, hstored', hfresh, hkept⟩ := h.fresh key hbuilt
    obtain rfl := Option.some.inj (hstored'.symm.trans hstored)
    rw [hkept, hnone, hfresh]
  · rw [h.kept key hbuilt, h.fresh_eq]

theorem FilledBy.canonical_eq (h : FilledBy g built g') (name : String) :
    g'.canonical name = g.canonical name := by
  unfold canonical
  rw [h.set]

/-- Between two states of a registry records were built and kept. -/
def Filled (g g' : Registry ρ) : Prop := ∃ built, FilledBy g built g'

theorem Filled.names_eq (h : Filled g g') : g'.names = g.names := by
  obtain ⟨built, h⟩ := h
  rw [names, names, h.set]

/-- A question that is steady fills a registry. -/
theorem filled_of_steady {α : Type} {x : Asking (Registry ρ) α} {a answer : Except Failure α}
    (h : Steady (Filled g) x a) (hends : x.ask g = (answer, g')) : Filled g g' := by
  have hkept := (h g ⟨[], FilledBy.refl g⟩).2
  rwa [hends] at hkept

theorem steady_findOptional (g : Registry ρ) (name : String) :
    Steady (Filled g) (Registry.findOptional name) (g.optionalAnswer name) := by
  rintro s ⟨built, hs⟩
  rw [ask_findOptional, optionalAnswer, hs.canonical_eq, hs.set]
  cases hstored : g.set.configs.get? (g.canonical name) with
  | none => exact ⟨rfl, built, hs⟩
  | some stored =>
      have hrecord := hs.recordOf_eq hstored
      unfold recordOf at hrecord
      dsimp only [recordOf]
      rw [← hrecord]
      cases hkept : s.cache.get? (g.canonical name) with
      | some record => exact ⟨rfl, built, hs⟩
      | none =>
          dsimp only
          cases hfresh : s.fresh (g.canonical name) stored with
          | error e => exact ⟨rfl, built, hs⟩
          | ok record =>
              exact ⟨rfl, _, hs.trans (filledBy_keep (hs.set ▸ hstored) hkept hfresh)⟩

theorem steady_find (g : Registry ρ) (name : String) :
    Steady (Filled g) (Registry.find name) (g.findAnswer name) := by
  refine (steady_findOptional g name).bind (fun found? _ => ?_)
  cases found? with
  | none => exact Steady.lift _ (.error (.notFound (EntityRecord.kind ρ) name))
  | some found => exact Steady.pure _ found

theorem steady_record (g : Registry ρ) (name : String) :
    Steady (Filled g) (do return (← Registry.find name).2) (g.recordAnswer name) :=
  (steady_find g name).bind (fun found _ => Steady.pure _ found.2)

theorem steady_all (g : Registry ρ) : Steady (Filled g) Registry.all g.allAnswer := by
  refine Steady.get (fun s hs => ?_)
  rw [hs.names_eq]
  exact Steady.mapM (fun name _ => steady_record g name)

theorem steady_question (g : Registry ρ) (call : Call) :
    Steady (Filled g) call.question (call.answer g) := by
  cases call with
  | has name =>
      refine Steady.get (fun s hs => ?_)
      obtain ⟨built, hs⟩ := hs
      have hsame : s.has name = g.has name := by
        rw [Registry.has, Registry.has, hs.canonical_eq, hs.set]
      rw [hsame]
      exact Steady.pure _ _
  | find name => exact (steady_find g name).bind (fun found _ => Steady.pure _ (Reply.record found))
  | findOptional name =>
      exact (steady_findOptional g name).bind
        (fun found? _ => Steady.pure _ (Reply.optional found?))
  | pass length =>
      have hpass : Steady (Filled g) (visit length)
          (.ok ((g.names.take length).map g.recordAnswer)) := by
        refine Steady.get (fun s hs => ?_)
        rw [hs.names_eq]
        have heach : ∀ name ∈ g.names.take length, Steady (Filled g) _ _ :=
          fun name _ => (steady_record g name).attempt
        have hvisit := Steady.mapM heach
        have hnone : (g.names.take length).mapM
            (fun name => (.ok (g.recordAnswer name) : Except Failure (Except Failure ρ))) =
            .ok ((g.names.take length).map g.recordAnswer) := List.mapM_pure
        rwa [hnone] at hvisit
      exact hpass.bind (fun results _ => Steady.pure _ (Reply.records results))
  | warmUp =>
      have hwarm : Steady (Filled g) Registry.warmUp g.warmUpAnswer :=
        (steady_all g).bind (fun records _ => Steady.pure _ records.length)
      exact hwarm.bind (fun count _ => Steady.pure _ (Reply.count count))

/-- What does not build is reported under the name of the entry. -/
theorem recordOf_error (h : g.recordOf key stored = .error f) :
    ∃ reason, f = .construct (EntityRecord.kind ρ) key reason := by
  unfold recordOf at h
  cases hkept : g.cache.get? key with
  | some record =>
      rw [hkept] at h
      cases h
  | none =>
      simp only [hkept, fresh, EntityRecord.construct] at h
      cases hdecode : (EntityRecord.decode (Options.merge g.defaults stored) : Except String ρ) with
      | ok record =>
          rw [hdecode] at h
          cases h
      | error reason =>
          rw [hdecode] at h
          cases h
          exact ⟨reason, rfl⟩

/-- A look-up fails only for an entry that does not build. -/
theorem optionalAnswer_error (h : g.optionalAnswer name = .error f) :
    ∃ reason, f = .construct (EntityRecord.kind ρ) (g.canonical name) reason := by
  unfold optionalAnswer at h
  cases hstored : g.set.configs.get? (g.canonical name) with
  | none =>
      rw [hstored] at h
      cases h
  | some stored =>
      simp only [hstored] at h
      cases hrecord : g.recordOf (g.canonical name) stored with
      | ok record =>
          rw [hrecord] at h
          cases h
      | error e =>
          rw [hrecord] at h
          cases h
          exact recordOf_error hrecord

/-- A look-up that fails changes nothing. -/
theorem find_of_fails (h : (Registry.find name).ask g = (.error f, g')) : g' = g := by
  rw [ask_find] at h
  cases hstored : g.set.configs.get? (g.canonical name) with
  | none =>
      simp only [hstored, Prod.mk.injEq] at h
      exact h.2.symm
  | some stored =>
      simp only [hstored] at h
      cases hkept : g.cache.get? (g.canonical name) with
      | some record =>
          rw [hkept] at h
          cases h
      | none =>
          simp only [hkept] at h
          cases hfresh : g.fresh (g.canonical name) stored with
          | error e =>
              simp only [hfresh, Prod.mk.injEq] at h
              exact h.2.symm
          | ok record =>
              rw [hfresh] at h
              cases h

theorem findOptional_of_fails (h : (Registry.findOptional name).ask g = (.error f, g')) :
    g' = g := by
  have hfind : (Registry.find name).ask g = (.error f, g') := by
    unfold Registry.find
    rw [ask_bind, h]
  exact find_of_fails hfind

/-- Every record is kept. -/
def Complete (g : Registry ρ) : Prop := ∀ name ∈ g.names, g.cache.contains name = true

/-- Where every record is kept, nothing is built any more. -/
theorem FilledBy.eq_of_complete (h : FilledBy g built g') (hcomplete : Complete g) :
    g' = g := by
  have hnone : built = [] := by
    refine List.eq_nil_iff_forall_not_mem.2 (fun key hkey => ?_)
    obtain ⟨hmissing, stored, record, hstored, -⟩ := h.fresh key hkey
    have hkept := hcomplete key
      ((SortedMap.mem_keys_iff _ _).2 (Option.isSome_iff_exists.2 ⟨stored, hstored⟩))
    rw [SortedMap.contains, hmissing] at hkept
    cases hkept
  subst hnone
  have hcache : g'.cache = g.cache :=
    SortedMap.ext_get? (fun key => h.kept key List.not_mem_nil)
  have hlog : g'.built = g.built := by rw [h.log, List.append_nil]
  cases g
  cases g'
  obtain rfl : _ = _ := h.set
  obtain rfl : _ = _ := h.defaults
  obtain rfl : _ = _ := h.hook
  obtain rfl : _ = _ := hcache
  obtain rfl : _ = _ := hlog
  rfl

/-- A record that was found is kept. -/
theorem kept_of_find {found : String × ρ} (h : (Registry.find name).ask g = (.ok found, g')) :
    g'.cache.contains (g.canonical name) = true := by
  rw [ask_find] at h
  cases hstored : g.set.configs.get? (g.canonical name) with
  | none =>
      rw [hstored] at h
      cases h
  | some stored =>
      simp only [hstored] at h
      cases hkept : g.cache.get? (g.canonical name) with
      | some record =>
          simp only [hkept, Prod.mk.injEq] at h
          exact h.2 ▸ SortedMap.contains_of_get? hkept
      | none =>
          simp only [hkept] at h
          cases hfresh : g.fresh (g.canonical name) stored with
          | error e =>
              rw [hfresh] at h
              cases h
          | ok record =>
              simp only [hfresh, Prod.mk.injEq] at h
              rw [← h.2]
              simp [keep]

/-- Looking up stored names keeps the record of each. -/
theorem kept_of_lookUp {names : List String} {records : List ρ}
    (hstored : ∀ name ∈ names, g.set.configs.contains name = true)
    (h : (lookUp names).ask g = (.ok records, g')) :
    ∀ name ∈ names, g'.cache.contains name = true := by
  induction names generalizing g records with
  | nil => exact fun _ hmem => (List.not_mem_nil hmem).elim
  | cons name rest ih =>
      rw [lookUp_cons] at h
      obtain ⟨found, g₁, hfind, hmore⟩ := ask_bind_eq_ok.1 h
      obtain ⟨more, g₂, hrest, hlast⟩ := ask_bind_eq_ok.1 hmore
      obtain ⟨-, rfl⟩ := Prod.mk.inj hlast
      obtain ⟨built, hfilled⟩ := filled_of_steady (steady_find g name) hfind
      obtain ⟨built', hfilled'⟩ :=
        filled_of_steady (Steady.mapM (fun other _ => steady_record g₁ other)) hrest
      have hkept := kept_of_find hfind
      rw [canonical_of_contains (hstored name List.mem_cons_self)] at hkept
      obtain ⟨record, hrecord⟩ := SortedMap.exists_of_contains hkept
      refine List.forall_mem_cons.2
        ⟨SortedMap.contains_of_get? (hfilled'.cache_of_some hrecord), ?_⟩
      refine ih (fun other hother => ?_) hrest
      rw [hfilled.set]
      exact hstored other (List.mem_cons_of_mem _ hother)

/-- Once all records are built every record is kept; the answer is their number. -/
theorem complete_of_warmUp {count : Nat} (h : Registry.warmUp.ask g = (.ok count, g')) :
    Complete g' ∧ count = g.size := by
  have hcount := ask_warmUp g
  rw [h] at hcount
  refine ⟨?_, ?_⟩
  · unfold Registry.warmUp at h
    obtain ⟨records, g₁, hall, hlast⟩ := ask_bind_eq_ok.1 h
    obtain ⟨-, rfl⟩ := Prod.mk.inj hlast
    have hnames := (filled_of_steady (steady_all g) hall).names_eq
    have hlook : (lookUp g.names).ask g = (.ok records, g₁) := hall
    intro name hname
    rw [hnames] at hname
    exact kept_of_lookUp (fun _ => stored_of_mem_names) hlook name hname
  · cases hrefusal : g.firstRefusal? with
    | some f =>
        rw [hrefusal] at hcount
        cases hcount
    | none =>
        rw [hrefusal] at hcount
        exact Except.ok.inj hcount

end Registry

end ConfigCompiler
