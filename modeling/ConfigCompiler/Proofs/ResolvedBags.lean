import ConfigCompiler.Proofs.SchemaLaws

/-!
# How resolving a bag ends

A bag is completed, checked and normalized in five passes over tables of options, and the
first pass that finds a fault ends the resolution.  Here the end is told without the passes:
by what each option is completed with, what is wrong with it, and what its normalizers make
of it.

**Input.**  `Schema.Completes` says what a bag is completed with.  `Normalizes` is a chain of
normalizers that all succeed.  `Schema.Fault` says what is wrong with one option, under the
check that finds it; checks are ordered by `SchemaCheck.rank`.

**Results.**
* `Schema.report_eq_some`, `Schema.report_eq_none`: a check reports the fault of the least
  option that has one.
* `Schema.resolve_eq_error`: the first check with a fault is reported.
* `Schema.resolve_succeeds`: a bag without faults is resolved.
* `Schema.normalized_of_resolve`: an option is resolved to what its own normalizers make of
  its completed value.
* `Schema.resolve_outcome`: all of this for every schema and every bag.
-/

namespace ConfigCompiler

section First

variable {α β ε : Type}

/-- Among items in order, the first answer is given by the least item that answers. -/
theorem findSome?_eq_some_of_ordered {R : α → α → Prop} (hasymm : ∀ a b, R a b → ¬ R b a)
    {items : List α} (hs : items.Pairwise R) {g : α → Option β} {b : β} :
    items.findSome? g = some b ↔
      ∃ a ∈ items, g a = some b ∧ ∀ a' ∈ items, ∀ b', g a' = some b' → a' = a ∨ R a a' := by
  constructor
  · intro h
    obtain ⟨before, a, after, rfl, ha, hbefore⟩ := List.findSome?_eq_some_iff.1 h
    refine ⟨a, by simp, ha, fun a' ha' b' hb' => ?_⟩
    rcases List.mem_append.1 ha' with hmem | hmem
    · rw [hbefore a' hmem] at hb'
      cases hb'
    · rcases List.mem_cons.1 hmem with rfl | hafter
      · exact Or.inl rfl
      · exact Or.inr ((List.pairwise_cons.1 (List.pairwise_append.1 hs).2.1).1 a' hafter)
  · rintro ⟨a, hmem, ha, hleast⟩
    obtain ⟨before, after, rfl⟩ := List.append_of_mem hmem
    refine List.findSome?_eq_some_iff.2 ⟨before, a, after, rfl, ha, fun a' ha' => ?_⟩
    have hlt : R a' a := (List.pairwise_append.1 hs).2.2 a' ha' a List.mem_cons_self
    cases hga : g a' with
    | none => rfl
    | some b' =>
        rcases hleast a' (List.mem_append_left _ ha') b' hga with rfl | hgt
        · exact absurd hlt (hasymm _ _ hlt)
        · exact absurd hgt (hasymm _ _ hlt)

/-- Why a check failed, if it did. -/
def failureOf? : Except ε α → Option ε
  | .ok _ => none
  | .error e => some e

theorem failureOf?_eq_some {x : Except ε α} {e : ε} : failureOf? x = some e ↔ x = .error e := by
  cases x <;> simp [failureOf?]

theorem failureOf?_eq_none {x : Except ε α} : failureOf? x = none ↔ ∃ a, x = .ok a := by
  cases x <;> simp [failureOf?]

/-- A map of checks fails as the first of its values that fails. -/
theorem failureOf?_mapM (m : SortedMap α) (f : String → α → Except ε β) :
    failureOf? (m.mapM f) = m.findSome? (fun key a => failureOf? (f key a)) := by
  have hentries : ∀ entries : List (String × α), failureOf? (Entries.mapM f entries) =
      entries.findSome? (fun e => failureOf? (f e.1 e.2)) := by
    intro entries
    induction entries with
    | nil => rfl
    | cons e rest ih =>
        rw [List.findSome?_cons, ← ih]
        show failureOf? (f e.1 e.2 >>= fun b => _) = _
        cases f e.1 e.2 with
        | error e => rfl
        | ok b =>
            show failureOf? (Entries.mapM f rest >>= fun out => _) = _
            cases Entries.mapM f rest <;> rfl
  unfold SortedMap.findSome?
  rw [← hentries]
  show failureOf? (Entries.mapM f m.entries >>= fun out => _) = _
  cases Entries.mapM f m.entries <;> rfl

end First

/-- A chain of normalizers, each given the options `options`, makes `w` of `v`. -/
inductive Normalizes (options : Options) : List Normalizer → Value → Value → Prop
  | nil (v : Value) : Normalizes options [] v v
  | cons {f : Normalizer} {rest : List Normalizer} {v u w : Value} :
      f options v = .ok u → Normalizes options rest u w → Normalizes options (f :: rest) v w

namespace Schema

/-- The value that an absent option is computed from the options `known`, if any. -/
def computedOf? (s : Schema) (known : Options) (key : String) : Option Value :=
  match s.default? key with
  | some (.computed f) => f known
  | _ => none

/-- The types that an option may have, if they are limited. -/
def typesOf? (s : Schema) (key : String) : Option (List ValueType) :=
  (s.rules.get? key).bind OptionRule.types?

/-- The values that an option may have, if they are limited. -/
def allowedOf? (s : Schema) (key : String) : Option (List AllowedValue) :=
  (s.rules.get? key).bind OptionRule.allowed?

/-- A bag is completed in two steps.  What is absent gets its fixed default; and what is then
still absent gets the value that is computed from the bag as the first step left it. -/
structure Completes (s : Schema) (raw known options : Options) : Prop where
  fixed : ∀ key, known.get? key = (raw.get? key).or (s.defaultOf? key)
  computed : ∀ key, options.get? key = (known.get? key).or (s.computedOf? known key)

theorem completes (s : Schema) (raw : Options) :
    s.Completes raw (s.withFixedDefaults raw) (s.complete raw) where
  fixed := s.get?_withFixedDefaults raw
  computed := by
    intro key
    rw [get?_complete, get?_withFixedDefaults, Option.or_assoc]
    unfold computedOf? default?
    cases s.rules.get? key with
    | none => rfl
    | some rule =>
        simp only [Option.bind_some, OptionRule.fixedDefault?]
        rcases rule.default? with _ | (_ | _) <;> rfl

end Schema

/-- The checks that a bag goes through. -/
inductive SchemaCheck where
  /-- Every option given is defined. -/
  | defined
  /-- Every required option is there. -/
  | present
  /-- Every option has a type that is allowed. -/
  | types
  /-- Every option has a value that is allowed. -/
  | values
  /-- Every option has a normal form. -/
  | normal
deriving DecidableEq

namespace SchemaCheck

/-- All checks, in order. -/
def all : List SchemaCheck := [.defined, .present, .types, .values, .normal]

/-- The place of a check in the order. -/
def rank : SchemaCheck → Nat
  | defined => 0
  | present => 1
  | types => 2
  | values => 3
  | normal => 4

theorem mem_all (check : SchemaCheck) : check ∈ all := by
  cases check <;> decide

theorem all_ordered : all.Pairwise (fun a b => a.rank < b.rank) := by
  decide

end SchemaCheck

namespace Schema

/-- What is wrong with an option, by the check that finds it. -/
inductive Fault (s : Schema) (raw options : Options) : SchemaCheck → String → Violation → Prop
  | undefined {key : String} :
      s.allowsUndefined = false → raw.contains key = true → s.defines key = false →
      Fault s raw options .defined key (.undefined key s.definedKeys)
  | missing {key : String} :
      s.requires key = true → options.contains key = false →
      Fault s raw options .present key (.missingRequired key)
  | wrongType {key : String} {v : Value} {types : List ValueType} :
      options.get? key = some v → s.typesOf? key = some types →
      (∀ t ∈ types, t.accepts v = false) →
      Fault s raw options .types key
        (.invalidType key (types.map ValueType.name) (ValueType.ofValue v).name)
  | wrongValue {key : String} {v : Value} {allowed : List AllowedValue} :
      options.get? key = some v → s.allowedOf? key = some allowed →
      (∀ a ∈ allowed, a.accepts v = false) →
      Fault s raw options .values key
        (.invalidValue key v.text (allowed.map AllowedValue.describe))
  | noNormalForm {key reason : String} {v u : Value} {before after : List Normalizer}
      {f : Normalizer} :
      options.get? key = some v → s.normalizers key = before ++ f :: after →
      Normalizes options before v u → f options u = .error reason →
      Fault s raw options .normal key (.normalization key reason)

/-- The fault that counts: no earlier check finds one, and the same check finds none with a
lesser option. -/
def FirstFault (s : Schema) (raw options : Options) (check : SchemaCheck) (key : String)
    (v : Violation) : Prop :=
  s.Fault raw options check key v ∧
    ∀ check' key' v', s.Fault raw options check' key' v' →
      check.rank < check'.rank ∨ check' = check ∧ key ≤ key'

/-- Every option that was completed is there, and is what its normalizers make of its
completed value.  Each of them is given the completed options, never normalized ones. -/
structure Normalized (s : Schema) (options resolved : Options) : Prop where
  keys : resolved.keys = options.keys
  values : ∀ key v, options.get? key = some v →
    ∃ w, resolved.get? key = some w ∧ Normalizes options (s.normalizers key) v w

end Schema

section Normalizers

variable {options : Options} {fs : List Normalizer} {v w : Value}

theorem foldlM_normalizers_eq_ok :
    fs.foldlM (fun v f => f options v) v = .ok w ↔ Normalizes options fs v w := by
  induction fs generalizing v with
  | nil =>
      rw [List.foldlM_nil, Resolution.check_pure]
      constructor
      · rintro rfl
        exact .nil w
      · rintro ⟨⟩
        rfl
  | cons f rest ih =>
      rw [List.foldlM_cons, Resolution.check_bind]
      constructor
      · rintro ⟨u, hu, hrest⟩
        exact .cons hu (ih.1 hrest)
      · rintro (_ | ⟨hu, hrest⟩)
        exact ⟨_, hu, ih.2 hrest⟩

/-- A chain of normalizers fails at one of them, after those before it succeeded. -/
theorem foldlM_normalizers_eq_error {reason : String} :
    fs.foldlM (fun v f => f options v) v = .error reason ↔
      ∃ before f after u, fs = before ++ f :: after ∧ Normalizes options before v u ∧
        f options u = .error reason := by
  induction fs generalizing v with
  | nil =>
      constructor
      · intro h
        cases h
      · rintro ⟨before, f, after, u, heq, -, -⟩
        simp at heq
  | cons f rest ih =>
      rw [List.foldlM_cons, Resolution.check_bind_error]
      constructor
      · rintro (hfirst | ⟨u, hu, hrest⟩)
        · exact ⟨[], f, rest, v, rfl, .nil v, hfirst⟩
        · obtain ⟨before, g, after, x, rfl, hbefore, hg⟩ := ih.1 hrest
          exact ⟨f :: before, g, after, x, rfl, .cons hu hbefore, hg⟩
      · rintro ⟨before, g, after, x, heq, hbefore, hg⟩
        cases hbefore with
        | nil =>
            cases heq
            exact Or.inl hg
        | cons hu hrest =>
            cases heq
            exact Or.inr ⟨_, hu, ih.2 ⟨_, g, after, x, rfl, hrest, hg⟩⟩

end Normalizers

namespace Schema

variable {s : Schema} {raw options resolved : Options} {check : SchemaCheck} {key : String}
variable {v : Violation}

/-- An option is normalized by its normalizers, and left alone if it is not defined. -/
theorem normalizeOption_eq (s : Schema) (options : Options) (key : String) (w : Value) :
    s.normalizeOption options key w =
      ((s.normalizers key).foldlM (fun w (f : Normalizer) => f options w) w).mapError
        (Violation.normalization key) := by
  unfold normalizeOption normalizers
  cases s.rules.get? key <;> rfl

theorem normalizeOption_eq_ok {w u : Value} :
    s.normalizeOption options key w = .ok u ↔
      Normalizes options (s.normalizers key) w u := by
  rw [normalizeOption_eq, ← foldlM_normalizers_eq_ok]
  cases (s.normalizers key).foldlM (fun w (f : Normalizer) => f options w) w with
  | error reason => exact ⟨nofun, nofun⟩
  | ok normal =>
      show (Except.ok normal : Except Violation Value) = .ok u ↔ _
      simp

theorem normalizeOption_eq_error {w : Value} :
    s.normalizeOption options key w = .error v ↔
      ∃ reason, (s.normalizers key).foldlM (fun w (f : Normalizer) => f options w) w =
        .error reason ∧ v = .normalization key reason := by
  rw [normalizeOption_eq]
  cases (s.normalizers key).foldlM (fun w (f : Normalizer) => f options w) w with
  | ok normal => exact ⟨nofun, fun ⟨_, h, _⟩ => nomatch h⟩
  | error reason =>
      show (Except.error (Violation.normalization key reason) : Except Violation Value) =
        .error v ↔ _
      simp [eq_comm]

/-- The options that a check looks at, in order. -/
def visited (s : Schema) (raw : Options) : SchemaCheck → List String
  | .defined => raw.keys
  | .present => s.rules.keys
  | .types => s.rules.keys
  | .values => s.rules.keys
  | .normal => (s.complete raw).keys

/-- What a check finds wrong with an option. -/
def faultOf? (s : Schema) (raw : Options) (check : SchemaCheck) (key : String) :
    Option Violation :=
  match check with
  | .defined =>
      if s.allowsUndefined || !raw.contains key || s.defines key then none
      else some (.undefined key s.definedKeys)
  | .present =>
      if s.requires key && !(s.complete raw).contains key then some (.missingRequired key)
      else none
  | .types =>
      (s.rules.get? key).bind fun r => ((s.complete raw).get? key).bind (typeViolation? key r)
  | .values =>
      (s.rules.get? key).bind fun r => ((s.complete raw).get? key).bind (valueViolation? key r)
  | .normal =>
      ((s.complete raw).get? key).bind fun w =>
        failureOf? (s.normalizeOption (s.complete raw) key w)

/-- What a check reports. -/
def report (s : Schema) (raw : Options) : SchemaCheck → Option Violation
  | .defined => (s.undefinedKey? raw).map (fun key => .undefined key s.definedKeys)
  | .present => (s.missingKey? (s.complete raw)).map .missingRequired
  | .types => s.firstViolation? (s.complete raw) typeViolation?
  | .values => s.firstViolation? (s.complete raw) valueViolation?
  | .normal => failureOf? ((s.complete raw).mapM (s.normalizeOption (s.complete raw)))

/-- The first check that reports something ends the resolution. -/
theorem failureOf?_resolve (s : Schema) (raw : Options) :
    failureOf? (s.resolve raw) = SchemaCheck.all.findSome? (s.report raw) := by
  unfold resolve
  simp only [SchemaCheck.all, report, List.findSome?_cons, List.findSome?_nil]
  cases s.undefinedKey? raw with
  | some key => rfl
  | none =>
      simp only [Option.map_none]
      cases s.missingKey? (s.complete raw) with
      | some key => rfl
      | none =>
          simp only [Option.map_none]
          cases s.firstViolation? (s.complete raw) typeViolation? with
          | some v => rfl
          | none =>
              cases s.firstViolation? (s.complete raw) valueViolation? with
              | some v => rfl
              | none =>
                  cases (s.complete raw).mapM (s.normalizeOption (s.complete raw)) <;> rfl

theorem firstViolation?_eq (s : Schema) (options : Options)
    (check : String → OptionRule → Value → Option Violation) :
    s.firstViolation? options check = s.rules.keys.findSome? (fun key =>
      (s.rules.get? key).bind fun r => (options.get? key).bind (check key r)) := by
  refine (SortedMap.findSome?_keys (fun key r hr => ?_)).symm
  rw [hr, Option.bind_some]

/-- A check reports the first option that it finds fault with. -/
theorem report_eq (s : Schema) (raw : Options) (check : SchemaCheck) :
    s.report raw check = (s.visited raw check).findSome? (s.faultOf? raw check) := by
  cases check with
  | defined =>
      have hlist : ∀ keys : List String, (∀ key ∈ keys, raw.contains key = true) →
          ((if s.allowsUndefined then none else keys.find? (fun key => !s.defines key)).map
              (fun key => Violation.undefined key s.definedKeys)) =
            keys.findSome? (s.faultOf? raw .defined) := by
        intro keys hkeys
        induction keys with
        | nil => simp
        | cons key rest ih =>
            obtain ⟨hkey, hrest⟩ := List.forall_mem_cons.1 hkeys
            rw [List.findSome?_cons, ← ih hrest]
            cases hallow : s.allowsUndefined <;> cases hdefines : s.defines key <;>
              simp [faultOf?, hallow, hdefines, hkey]
      exact hlist raw.keys (fun key hkey => (SortedMap.mem_keys_iff raw key).1 hkey)
  | present =>
      have hkeys : s.missingKey? (s.complete raw) = s.rules.keys.findSome? (fun key =>
          if s.requires key && !(s.complete raw).contains key then some key else none) := by
        refine (SortedMap.findSome?_keys (fun key r hr => ?_)).symm
        simp [requires, hr]
      show (s.missingKey? (s.complete raw)).map _ = s.rules.keys.findSome? _
      rw [hkeys, List.map_findSome?]
      refine congrArg (fun g => s.rules.keys.findSome? g) (funext fun key => ?_)
      simp only [faultOf?, Function.comp_apply]
      split <;> rfl
  | types => exact firstViolation?_eq s _ _
  | values => exact firstViolation?_eq s _ _
  | normal =>
      show failureOf? _ = (s.complete raw).keys.findSome? _
      rw [failureOf?_mapM]
      refine (SortedMap.findSome?_keys (fun key w hw => ?_)).symm
      simp only [faultOf?, hw, Option.bind_some]

/-- A limit reports what none of its items accepts. -/
theorem limit_eq_some {α : Type} {limit? : Option (List α)} (accepts : α → Bool)
    (refusal : List α → Violation) :
    (if limit?.all (fun items => items.any accepts) then none
        else some (refusal (limit?.getD []))) = some v ↔
      ∃ items, limit? = some items ∧ (∀ a ∈ items, accepts a = false) ∧ v = refusal items := by
  cases limit? with
  | none => simp
  | some items =>
      rw [Option.all_some, Option.getD_some]
      cases haccepts : items.any accepts with
      | true =>
          obtain ⟨a, ha, haccepted⟩ := List.any_eq_true.1 haccepts
          constructor
          · intro h
            cases h
          · rintro ⟨_, heq, hnone, -⟩
            cases heq
            rw [hnone a ha] at haccepted
            cases haccepted
      | false =>
          have hnone : ∀ a ∈ items, accepts a = false :=
            fun a ha => Bool.eq_false_iff.2 (List.any_eq_false.1 haccepts a ha)
          constructor
          · intro h
            exact ⟨items, rfl, hnone, (Option.some.inj h).symm⟩
          · rintro ⟨_, heq, -, rfl⟩
            cases heq
            rfl

theorem typeViolation?_eq_some {rule : OptionRule} {w : Value} :
    typeViolation? key rule w = some v ↔
      ∃ types, rule.types? = some types ∧ (∀ t ∈ types, t.accepts w = false) ∧
        v = .invalidType key (types.map ValueType.name) (ValueType.ofValue w).name := by
  refine Iff.trans (Eq.to_iff (congrArg (· = some v) ?_))
    (limit_eq_some (fun t => t.accepts w) (fun types =>
      .invalidType key (types.map ValueType.name) (ValueType.ofValue w).name))
  unfold typeViolation? OptionRule.acceptsType
  cases rule.types? <;> rfl

theorem valueViolation?_eq_some {rule : OptionRule} {w : Value} :
    valueViolation? key rule w = some v ↔
      ∃ allowed, rule.allowed? = some allowed ∧ (∀ a ∈ allowed, a.accepts w = false) ∧
        v = .invalidValue key w.text (allowed.map AllowedValue.describe) := by
  refine Iff.trans (Eq.to_iff (congrArg (· = some v) ?_))
    (limit_eq_some (fun a => a.accepts w) (fun allowed =>
      .invalidValue key w.text (allowed.map AllowedValue.describe)))
  unfold valueViolation? OptionRule.acceptsValue
  cases rule.allowed? <;> rfl

/-- A check of completed values by their rules finds what the limits of the rules refuse. -/
theorem ruleFault_eq_some {α : Type} {limitOf? : OptionRule → Option (List α)}
    {accepts : α → Value → Bool} {refusal : Value → List α → Violation}
    {check : String → OptionRule → Value → Option Violation}
    (hcheck : ∀ rule w, check key rule w = some v ↔ ∃ items, limitOf? rule = some items ∧
      (∀ a ∈ items, accepts a w = false) ∧ v = refusal w items) :
    ((s.rules.get? key).bind fun r => (options.get? key).bind (check key r)) = some v ↔
      ∃ w items, options.get? key = some w ∧ (s.rules.get? key).bind limitOf? = some items ∧
        (∀ a ∈ items, accepts a w = false) ∧ v = refusal w items := by
  constructor
  · intro h
    obtain ⟨rule, hrule, h⟩ := Option.bind_eq_some_iff.1 h
    obtain ⟨w, hw, h⟩ := Option.bind_eq_some_iff.1 h
    obtain ⟨items, hitems, hnone, hv⟩ := (hcheck rule w).1 h
    exact ⟨w, items, hw, Option.bind_eq_some_iff.2 ⟨rule, hrule, hitems⟩, hnone, hv⟩
  · rintro ⟨w, items, hw, hitems, hnone, hv⟩
    obtain ⟨rule, hrule, hitems⟩ := Option.bind_eq_some_iff.1 hitems
    refine Option.bind_eq_some_iff.2 ⟨rule, hrule, Option.bind_eq_some_iff.2 ⟨w, hw, ?_⟩⟩
    exact (hcheck rule w).2 ⟨items, hitems, hnone, hv⟩

/-- What a check finds wrong with an option is a fault of it, and there is no other. -/
theorem faultOf?_eq_some :
    s.faultOf? raw check key = some v ↔ s.Fault raw (s.complete raw) check key v := by
  cases check with
  | defined =>
      constructor
      · intro h
        simp only [faultOf?] at h
        split at h
        · cases h
        · next hfound =>
            cases h
            simp only [Bool.or_eq_true, Bool.not_eq_true', not_or, Bool.not_eq_true,
              Bool.not_eq_false] at hfound
            exact .undefined hfound.1.1 hfound.1.2 hfound.2
      · rintro ⟨hclosed, hgiven, hundefined⟩
        simp [faultOf?, hclosed, hgiven, hundefined]
  | present =>
      constructor
      · intro h
        simp only [faultOf?] at h
        split at h
        · next hfound =>
            cases h
            simp only [Bool.and_eq_true, Bool.not_eq_true'] at hfound
            exact .missing hfound.1 hfound.2
        · cases h
      · rintro (_ | ⟨hrequired, habsent⟩)
        simp [faultOf?, hrequired, habsent]
  | types =>
      constructor
      · intro h
        obtain ⟨w, types, hw, htypes, hnone, rfl⟩ :=
          (ruleFault_eq_some (fun _ _ => typeViolation?_eq_some)).1 h
        exact .wrongType hw htypes hnone
      · rintro (_ | _ | ⟨hw, htypes, hnone⟩)
        exact (ruleFault_eq_some (fun _ _ => typeViolation?_eq_some)).2
          ⟨_, _, hw, htypes, hnone, rfl⟩
  | values =>
      constructor
      · intro h
        obtain ⟨w, allowed, hw, hallowed, hnone, rfl⟩ :=
          (ruleFault_eq_some (fun _ _ => valueViolation?_eq_some)).1 h
        exact .wrongValue hw hallowed hnone
      · rintro (_ | _ | _ | ⟨hw, hallowed, hnone⟩)
        exact (ruleFault_eq_some (fun _ _ => valueViolation?_eq_some)).2
          ⟨_, _, hw, hallowed, hnone, rfl⟩
  | normal =>
      constructor
      · intro h
        obtain ⟨w, hw, h⟩ := Option.bind_eq_some_iff.1 h
        obtain ⟨reason, hfails, rfl⟩ := normalizeOption_eq_error.1 (failureOf?_eq_some.1 h)
        obtain ⟨before, f, after, u, hsplit, hbefore, hf⟩ :=
          foldlM_normalizers_eq_error.1 hfails
        exact .noNormalForm hw hsplit hbefore hf
      · rintro (_ | _ | _ | _ | ⟨hw, hsplit, hbefore, hf⟩)
        refine Option.bind_eq_some_iff.2 ⟨_, hw, failureOf?_eq_some.2 ?_⟩
        exact normalizeOption_eq_error.2
          ⟨_, foldlM_normalizers_eq_error.2 ⟨_, _, _, _, hsplit, hbefore, hf⟩, rfl⟩

/-- A fault is found by looking at the option that has it. -/
theorem mem_visited (h : s.Fault raw (s.complete raw) check key v) :
    key ∈ s.visited raw check := by
  cases h with
  | undefined _ hgiven _ => exact (SortedMap.mem_keys_iff _ _).2 hgiven
  | missing hrequired _ =>
      obtain ⟨rule, hrule, -⟩ := (Option.any_eq_true _ _).1 hrequired
      exact (SortedMap.mem_keys_iff _ _).2 (by rw [hrule]; rfl)
  | wrongType _ htypes _ =>
      obtain ⟨rule, hrule, -⟩ := Option.bind_eq_some_iff.1 htypes
      exact (SortedMap.mem_keys_iff _ _).2 (by rw [hrule]; rfl)
  | wrongValue _ hallowed _ =>
      obtain ⟨rule, hrule, -⟩ := Option.bind_eq_some_iff.1 hallowed
      exact (SortedMap.mem_keys_iff _ _).2 (by rw [hrule]; rfl)
  | noNormalForm hw _ _ _ => exact (SortedMap.mem_keys_iff _ _).2 (by rw [hw]; rfl)

theorem visited_ordered (s : Schema) (raw : Options) (check : SchemaCheck) :
    (s.visited raw check).Pairwise (· < ·) := by
  cases check <;> exact SortedMap.keys_sorted _

/-- A check reports the fault of the least option that has one. -/
theorem report_eq_some :
    s.report raw check = some v ↔
      ∃ key, s.Fault raw (s.complete raw) check key v ∧
        ∀ key' v', s.Fault raw (s.complete raw) check key' v' → key ≤ key' := by
  rw [report_eq, findSome?_eq_some_of_ordered (fun a b => String.lt_asymm)
    (s.visited_ordered raw check)]
  constructor
  · rintro ⟨key, -, hkey, hleast⟩
    refine ⟨key, faultOf?_eq_some.1 hkey, fun key' v' h => ?_⟩
    rcases hleast key' (mem_visited h) v' (faultOf?_eq_some.2 h) with rfl | hlt
    · exact String.le_refl _
    · exact String.not_lt.1 (String.lt_asymm hlt)
  · rintro ⟨key, hkey, hleast⟩
    refine ⟨key, mem_visited hkey, faultOf?_eq_some.2 hkey, fun key' _ v' h => ?_⟩
    have hle := hleast key' v' (faultOf?_eq_some.1 h)
    by_cases hlt : key < key'
    · exact Or.inr hlt
    · exact Or.inl (String.le_antisymm (String.not_lt.1 hlt) hle)

/-- A check reports nothing if it finds no fault. -/
theorem report_eq_none :
    s.report raw check = none ↔ ∀ key v, ¬ s.Fault raw (s.complete raw) check key v := by
  rw [report_eq, List.findSome?_eq_none_iff]
  constructor
  · intro h key v hfault
    have hnone := h key (mem_visited hfault)
    rw [faultOf?_eq_some.2 hfault] at hnone
    cases hnone
  · intro h key _
    cases hfault : s.faultOf? raw check key with
    | none => rfl
    | some v => exact absurd (faultOf?_eq_some.1 hfault) (h key v)

/-- A resolution fails by the fault that counts. -/
theorem resolve_eq_error :
    s.resolve raw = .error v ↔ ∃ check key, s.FirstFault raw (s.complete raw) check key v := by
  rw [← failureOf?_eq_some, failureOf?_resolve,
    findSome?_eq_some_of_ordered (fun _ _ => Nat.lt_asymm) SchemaCheck.all_ordered]
  constructor
  · rintro ⟨check, -, hcheck, hfirst⟩
    obtain ⟨key, hkey, hleast⟩ := report_eq_some.1 hcheck
    refine ⟨check, key, hkey, fun check' key' v' h => ?_⟩
    cases hreport : s.report raw check' with
    | none => exact absurd h (report_eq_none.1 hreport key' v')
    | some w =>
        rcases hfirst check' check'.mem_all w hreport with rfl | hlt
        · exact Or.inr ⟨rfl, hleast key' v' h⟩
        · exact Or.inl hlt
  · rintro ⟨check, key, hkey, hfirst⟩
    have hleast : ∀ key' v', s.Fault raw (s.complete raw) check key' v' → key ≤ key' := by
      intro key' v' h
      rcases hfirst check key' v' h with hlt | ⟨-, hle⟩
      · exact absurd hlt (Nat.lt_irrefl _)
      · exact hle
    refine ⟨check, check.mem_all, report_eq_some.2 ⟨key, hkey, hleast⟩,
      fun check' _ v' h => ?_⟩
    obtain ⟨key', h, -⟩ := report_eq_some.1 h
    rcases hfirst check' key' v' h with hlt | ⟨heq, -⟩
    · exact Or.inr hlt
    · exact Or.inl heq

/-- A bag is resolved if nothing is wrong with it. -/
theorem resolve_succeeds :
    (∃ resolved, s.resolve raw = .ok resolved) ↔
      ∀ check key v, ¬ s.Fault raw (s.complete raw) check key v := by
  rw [← failureOf?_eq_none, failureOf?_resolve, List.findSome?_eq_none_iff]
  exact ⟨fun h check => report_eq_none.1 (h check check.mem_all),
    fun h check _ => report_eq_none.2 (h check)⟩

/-- A resolved bag holds the completed options, normalized one by one. -/
theorem normalized_of_resolve (h : s.resolve raw = .ok resolved) :
    s.Normalized (s.complete raw) resolved where
  keys := (Resolution.check_mapM (resolve_eq_ok h).2.2.2.2).1
  values := by
    intro key w hw
    obtain ⟨u, hu, hresolved⟩ := (Resolution.check_mapM (resolve_eq_ok h).2.2.2.2).2 key w hw
    exact ⟨u, hresolved, normalizeOption_eq_ok.1 hu⟩

/-- What is given, and what is required, is there once a bag is resolved. -/
theorem there_of_resolve (h : s.resolve raw = .ok resolved) (key : String)
    (hkey : raw.contains key = true ∨ s.requires key = true) : resolved.contains key = true := by
  rcases hkey with hgiven | hrequired
  · exact contains_of_resolve h hgiven
  · obtain ⟨rule, hrule, hrequired⟩ := (Option.any_eq_true _ _).1 hrequired
    exact isSome_of_required h hrule hrequired

/-- How resolving any bag by any schema ends.  The bag is completed with defaults, the
computed ones never seeing each other.  The resolution fails by the first check that finds a
fault, with the least option that has one; and without a fault it succeeds.  Then the result
has the completed options and no others, each made by its own normalizers, in the order they
were stated, from its completed value and the completed bag. -/
theorem resolve_outcome (s : Schema) (raw : Options) :
    s.Completes raw (s.withFixedDefaults raw) (s.complete raw) ∧
    (∀ v, s.resolve raw = .error v ↔
      ∃ check key, s.FirstFault raw (s.complete raw) check key v) ∧
    ((∃ resolved, s.resolve raw = .ok resolved) ↔
      ∀ check key v, ¬ s.Fault raw (s.complete raw) check key v) ∧
    (∀ resolved, s.resolve raw = .ok resolved →
      s.Normalized (s.complete raw) resolved ∧
      (∀ key, raw.contains key = true ∨ s.requires key = true →
        resolved.contains key = true) ∧
      ∀ key, s.normalizers key = [] → resolved.get? key = (s.complete raw).get? key) ∧
    ∀ key f, (s.apply (.normalize key f)).normalizers key = s.normalizers key ++ [f] := by
  refine ⟨s.completes raw, fun v => resolve_eq_error, resolve_succeeds,
    fun resolved h => ⟨normalized_of_resolve h, there_of_resolve h,
      fun key hnone => get?_of_resolve h hnone⟩, fun key f => ?_⟩
  have hextend : (s.apply (.normalize key f)).normalizers key = _ :=
    normalizers_extend s [.normalize key f] key
  simpa [Contribution.about, Contribution.key?, Contribution.addedNormalizers] using hextend

namespace Postcard

/-- The title is marked by a normalizer.  The caption is computed from the title, and the back
from the caption. -/
def schema : Schema :=
  empty.extend [.require "title", .types "title" [.string],
    .normalize "title" (fun _ v => .ok (.string ((v.str?.getD "") ++ "!"))),
    .defaultWith "caption" (fun options => options.get? "title"),
    .defaultWith "back" (fun options => options.get? "caption")]

def rome : Options := SortedMap.singleton "title" (.string "Rome")

/-- The caption shows the title as it was given, and the back stays empty. -/
def written (card : Options) : Bool :=
  card.str? "title" == some "Rome!" &&
    (card.str? "caption" == some "Rome" && !card.contains "back")

/-- No title, and an option that is not defined. -/
def stamped : Options := SortedMap.singleton "stamp" (.bool true)

theorem stamped_fails : schema.resolve stamped =
    .error (.undefined "stamp" ["back", "caption", "title"]) := by
  unfold resolve
  rw [show schema.undefinedKey? stamped = some "stamp" by decide +kernel]
  rfl

end Postcard

theorem resolve_outcome_postcard :
    (∃ card, Postcard.schema.resolve Postcard.rome = .ok card ∧
      card.str? "title" = some "Rome!" ∧ card.str? "caption" = some "Rome" ∧
      card.contains "back" = false ∧ card.contains "title" = true ∧
      Postcard.schema.Normalized (Postcard.schema.complete Postcard.rome) card) ∧
    ∃ check key, Postcard.schema.FirstFault Postcard.stamped
      (Postcard.schema.complete Postcard.stamped) check key
      (.undefined "stamp" ["back", "caption", "title"]) := by
  constructor
  · obtain ⟨card, hcard, htest⟩ := Resolution.check_of_any
      (e := Postcard.schema.resolve Postcard.rome) (p := Postcard.written) (by decide +kernel)
    simp only [Postcard.written, Bool.and_eq_true, beq_iff_eq, Bool.not_eq_true'] at htest
    obtain ⟨-, -, -, hends, -⟩ := resolve_outcome Postcard.schema Postcard.rome
    obtain ⟨hnormalized, hthere, -⟩ := hends card hcard
    exact ⟨card, hcard, htest.1, htest.2.1, htest.2.2,
      hthere "title" (Or.inl (by decide +kernel)), hnormalized⟩
  · exact ((resolve_outcome Postcard.schema Postcard.stamped).2.1 _).1 Postcard.stamped_fails

end Schema
end ConfigCompiler
