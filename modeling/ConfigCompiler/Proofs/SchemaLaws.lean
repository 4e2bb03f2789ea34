import ConfigCompiler.Proofs.Questions
import ConfigCompiler.Schema.Resolve

/-!
# Laws of schemas

A schema is put together from statements about single options, and a bag is resolved
option by option.  What happens to one option can therefore be said without the others,
except that computed defaults and normalizers look at the whole bag.

**Input.**  `Contribution.onDefault` is what a statement does to a default, and
`defaultAfter` what a list of statements does to the default of one option.
`OptionRule.Yields` says that a rule makes values of a property only.

**Results.**
* `Schema.rule?_extend`: the rule of an option comes from the statements about it, in
  order.
* `Schema.default?_extend`, `Schema.normalizers_extend`: and so do its default and its
  normalizers.
* `Schema.defines_extend`, `Schema.requires_extend`: what is defined, or required, stays so.
* `Schema.get?_complete`: an option is given, or has a fixed default, or has a computed
  one.
* `Schema.resolve_eq_ok`: what passed the checks when a bag was resolved.
* `Schema.get?_of_resolve`: an option without normalizers is resolved to its completed
  value.
* `Schema.isSome_of_required`: a required option is there once a bag is resolved.
* `Schema.of_resolve`: a resolved option has every property that its rule yields, and
  `OptionRule.yields_of_accepted` finds such properties.
-/

namespace ConfigCompiler

/-- What a statement about an option does to its default: a fixed default is laid over a
fixed one, and every other default replaces what was there. -/
def Contribution.onDefault (default? : Option OptionDefault) :
    Contribution → Option OptionDefault
  | .default _ v =>
      match default? with
      | some (.fixed previous) => some (.fixed (previous.overlay v))
      | _ => some (.fixed v)
  | .defaultWith _ f => some (.computed f)
  | _ => default?

/-- The normalizers that a statement adds. -/
def Contribution.addedNormalizers : Contribution → List Normalizer
  | .normalize _ f => [f]
  | _ => []

/-- The statements about one option, in order. -/
def Contribution.about (key : String) (cs : List Contribution) : List Contribution :=
  cs.filter (fun c => c.key? = some key)

/-- What a list of statements makes of the default of one option. -/
def defaultAfter (key : String) (default? : Option OptionDefault) (cs : List Contribution) :
    Option OptionDefault :=
  (Contribution.about key cs).foldl Contribution.onDefault default?

@[simp] theorem Contribution.about_append (key : String) (cs more : List Contribution) :
    Contribution.about key (cs ++ more) =
      Contribution.about key cs ++ Contribution.about key more :=
  List.filter_append cs more

theorem defaultAfter_append (key : String) (default? : Option OptionDefault)
    (cs more : List Contribution) :
    defaultAfter key default? (cs ++ more) =
      defaultAfter key (defaultAfter key default? cs) more := by
  simp [defaultAfter]

namespace OptionRule

theorem default?_apply (r : OptionRule) (c : Contribution) :
    (r.apply c).default? = c.onDefault r.default? := by
  cases c with
  | default key v =>
      simp only [apply, Contribution.onDefault, fixedDefault?]
      rcases r.default? with _ | (_ | _) <;> rfl
  | _ => rfl

theorem normalizers_apply (r : OptionRule) (c : Contribution) :
    (r.apply c).normalizers = r.normalizers ++ c.addedNormalizers := by
  cases c <;> simp [apply, Contribution.addedNormalizers]

/-- Whatever the rule accepts has the property once it is normalized. -/
def Yields (rule : OptionRule) (P : Value → Prop) : Prop :=
  ∀ options v w, rule.acceptsType v = true → rule.acceptsValue v = true →
    rule.normalizeValue options v = .ok w → P w

/-- A rule yields what holds of accepted values and is kept by its normalizers. -/
theorem yields_of_accepted {rule : OptionRule} {P : Value → Prop}
    (haccepted : ∀ v, rule.acceptsType v = true → rule.acceptsValue v = true → P v)
    (hkeeps : ∀ f ∈ rule.normalizers, ∀ options v w, P v → f options v = .ok w → P w) :
    rule.Yields P := by
  intro options v w htype hvalue hnormal
  exact Resolution.check_foldlM_induction
    (fun f hf v w hv hstep => hkeeps f hf options v w hv hstep) hnormal
    (haccepted v htype hvalue)

theorem Yields.mono {rule : OptionRule} {P Q : Value → Prop} (h : rule.Yields P)
    (himp : ∀ v, P v → Q v) : rule.Yields Q :=
  fun options v w htype hvalue hnormal => himp w (h options v w htype hvalue hnormal)

end OptionRule

namespace Schema

variable {s : Schema} {cs : List Contribution} {raw resolved : Options} {key : String}

/-- The rule of an option is made by the statements about it, in order. -/
theorem rule?_extend (s : Schema) (cs : List Contribution) (key : String) :
    (s.extend cs).rules.get? key =
      (Contribution.about key cs).foldl
        (fun rule? c => some ((rule?.getD .blank).apply c)) (s.rules.get? key) := by
  induction cs generalizing s with
  | nil => rfl
  | cons c rest ih =>
      show ((s.apply c).extend rest).rules.get? key = _
      rw [ih, get?_apply]
      by_cases hkey : c.key? = some key <;> simp [Contribution.about, hkey]

/-- The default of an option. -/
def default? (s : Schema) (key : String) : Option OptionDefault :=
  (s.rules.get? key).bind OptionRule.default?

/-- The normalizers of an option. -/
def normalizers (s : Schema) (key : String) : List Normalizer :=
  ((s.rules.get? key).map OptionRule.normalizers).getD []

/-- The statements about an option change its default one after the other. -/
theorem default?_extend (s : Schema) (cs : List Contribution) (key : String) :
    (s.extend cs).default? key = defaultAfter key (s.default? key) cs := by
  unfold default? defaultAfter
  rw [rule?_extend]
  generalize s.rules.get? key = rule?
  induction Contribution.about key cs generalizing rule? with
  | nil => rfl
  | cons c rest ih =>
      rw [List.foldl_cons, List.foldl_cons, ih, Option.bind_some, OptionRule.default?_apply]
      cases rule? <;> rfl

/-- The statements about an option add their normalizers. -/
theorem normalizers_extend (s : Schema) (cs : List Contribution) (key : String) :
    (s.extend cs).normalizers key =
      s.normalizers key ++
        (Contribution.about key cs).flatMap Contribution.addedNormalizers := by
  unfold normalizers
  rw [rule?_extend]
  generalize s.rules.get? key = rule?
  induction Contribution.about key cs generalizing rule? with
  | nil => simp
  | cons c rest ih =>
      rw [List.foldl_cons, ih, Option.map_some, Option.getD_some,
        OptionRule.normalizers_apply, List.flatMap_cons, ← List.append_assoc]
      cases rule? <;> rfl

/-- A schema defines an option for good. -/
theorem defines_extend (h : s.defines key = true) (cs : List Contribution) :
    (s.extend cs).defines key = true := by
  induction cs generalizing s with
  | nil => exact h
  | cons c rest ih =>
      refine ih ?_
      unfold defines at h ⊢
      rw [SortedMap.contains_eq_isSome] at h ⊢
      rw [get?_apply]
      split
      · rfl
      · exact h

/-- A schema requires an option for good. -/
theorem requires_apply (h : s.requires key = true) (c : Contribution) :
    (s.apply c).requires key = true := by
  unfold requires at h ⊢
  rw [get?_apply]
  split
  · cases hrule : s.rules.get? key with
    | none => simp [hrule] at h
    | some rule =>
        rw [hrule] at h
        cases c <;> first | rfl | exact h
  · exact h

theorem requires_extend (h : s.requires key = true) (cs : List Contribution) :
    (s.extend cs).requires key = true := by
  induction cs generalizing s with
  | nil => exact h
  | cons c rest ih => exact ih (requires_apply h c)

/-- The value that an absent option is completed with, given the options and the fixed
defaults. -/
def valueOf (known : Options) : Option OptionDefault → Option Value
  | some (.fixed v) => some v
  | some (.computed f) => f known
  | none => none

theorem get?_withFixedDefaults (s : Schema) (raw : Options) (key : String) :
    (s.withFixedDefaults raw).get? key =
      (raw.get? key).or ((s.rules.get? key).bind OptionRule.fixedDefault?) := by
  rw [withFixedDefaults, SortedMap.get?_combine _ _ _ _ rfl]

/-- A completed option is given or comes from its default. -/
theorem get?_complete (s : Schema) (raw : Options) (key : String) :
    (s.complete raw).get? key =
      (raw.get? key).or (valueOf (s.withFixedDefaults raw) (s.default? key)) := by
  rw [complete, SortedMap.get?_combine _ _ _ _ rfl, get?_withFixedDefaults, Option.or_assoc]
  congr 1
  unfold default?
  cases s.rules.get? key with
  | none => rfl
  | some rule =>
      simp only [Option.bind_some, OptionRule.fixedDefault?, OptionRule.computedDefault?]
      rcases rule.default? with _ | (_ | _) <;> rfl

/-- An option without default stays as it is given. -/
theorem get?_of_no_default (raw : Options) (hdefault : s.default? key = none) :
    (s.withFixedDefaults raw).get? key = raw.get? key ∧
      (s.complete raw).get? key = raw.get? key := by
  constructor
  · rw [get?_withFixedDefaults]
    unfold default? at hdefault
    cases hrule : s.rules.get? key with
    | none => simp
    | some rule =>
        rw [hrule, Option.bind_some] at hdefault
        simp [OptionRule.fixedDefault?, hdefault]
  · rw [get?_complete, hdefault]
    exact Option.or_none

/-- What passed when a bag was resolved. -/
theorem resolve_eq_ok (h : s.resolve raw = .ok resolved) :
    s.undefinedKey? raw = none ∧ s.missingKey? (s.complete raw) = none ∧
      s.firstViolation? (s.complete raw) typeViolation? = none ∧
      s.firstViolation? (s.complete raw) valueViolation? = none ∧
      (s.complete raw).mapM (s.normalizeOption (s.complete raw)) = .ok resolved := by
  unfold resolve at h
  split at h
  · cases h
  · next hdefined =>
      simp only at h
      split at h
      · cases h
      · next hpresent =>
          split at h
          · cases h
          · next htypes =>
              split at h
              · cases h
              · next hvalues => exact ⟨hdefined, hpresent, htypes, hvalues, h⟩

theorem firstViolation?_eq_none {options : Options}
    {check : String → OptionRule → Value → Option Violation} {rule : OptionRule} {v : Value}
    (h : s.firstViolation? options check = none) (hrule : s.rules.get? key = some rule)
    (hv : options.get? key = some v) : check key rule v = none := by
  have hkey := List.findSome?_eq_none_iff.1 h (key, rule)
    ((SortedMap.mem_entries_iff _ _ _).2 hrule)
  simpa [hv] using hkey

/-- A completed option has passed the checks of its rule. -/
theorem accepts_of_resolve {rule : OptionRule} {v : Value} (h : s.resolve raw = .ok resolved)
    (hrule : s.rules.get? key = some rule) (hv : (s.complete raw).get? key = some v) :
    rule.acceptsType v = true ∧ rule.acceptsValue v = true := by
  obtain ⟨-, -, htypes, hvalues, -⟩ := resolve_eq_ok h
  have htype := firstViolation?_eq_none htypes hrule hv
  have hvalue := firstViolation?_eq_none hvalues hrule hv
  constructor
  · cases haccepts : rule.acceptsType v with
    | true => rfl
    | false => simp [typeViolation?, haccepts] at htype
  · cases haccepts : rule.acceptsValue v with
    | true => rfl
    | false => simp [valueViolation?, haccepts] at hvalue

/-- Every completed option is normalized, and nothing else is in the result. -/
theorem get?_normalized (h : s.resolve raw = .ok resolved) (key : String) :
    ((s.complete raw).get? key = none ∧ resolved.get? key = none) ∨
      ∃ v w, (s.complete raw).get? key = some v ∧
        s.normalizeOption (s.complete raw) key v = .ok w ∧ resolved.get? key = some w :=
  Resolution.check_mapM_get? (resolve_eq_ok h).2.2.2.2 key

theorem isSome_of_resolve (h : s.resolve raw = .ok resolved) (key : String) :
    (resolved.get? key).isSome = ((s.complete raw).get? key).isSome := by
  rcases get?_normalized h key with ⟨hnone, hresolved⟩ | ⟨v, w, hsome, -, hresolved⟩
  · rw [hnone, hresolved]
  · rw [hsome, hresolved]
    rfl

/-- An option given is there once the bag is resolved. -/
theorem contains_of_resolve (h : s.resolve raw = .ok resolved)
    (hkey : raw.contains key = true) : resolved.contains key = true := by
  rw [SortedMap.contains_eq_isSome, isSome_of_resolve h, get?_complete]
  obtain ⟨v, hv⟩ := SortedMap.exists_of_contains hkey
  simp [hv]

/-- A required option is there. -/
theorem isSome_of_required {rule : OptionRule} (h : s.resolve raw = .ok resolved)
    (hrule : s.rules.get? key = some rule) (hrequired : rule.required = true) :
    (resolved.get? key).isSome = true := by
  obtain ⟨-, hmissing, -⟩ := resolve_eq_ok h
  have hkey := List.findSome?_eq_none_iff.1 hmissing (key, rule)
    ((SortedMap.mem_entries_iff _ _ _).2 hrule)
  rw [isSome_of_resolve h, ← SortedMap.contains_eq_isSome]
  simpa [hrequired] using hkey

/-- A resolved option has every property that its rule yields. -/
theorem of_resolve {rule : OptionRule} {P : Value → Prop} {w : Value}
    (h : s.resolve raw = .ok resolved) (hrule : s.rules.get? key = some rule)
    (hyields : rule.Yields P) (hw : resolved.get? key = some w) : P w := by
  rcases get?_normalized h key with ⟨-, hresolved⟩ | ⟨v, w', hsome, hnormal, hresolved⟩
  · rw [hw] at hresolved
    cases hresolved
  · rw [hw] at hresolved
    cases hresolved
    obtain ⟨htype, hvalue⟩ := accepts_of_resolve h hrule hsome
    simp only [normalizeOption, hrule] at hnormal
    cases hends : rule.normalizeValue (s.complete raw) v with
    | error e =>
        rw [hends] at hnormal
        cases hnormal
    | ok w' =>
        rw [hends] at hnormal
        cases hnormal
        exact hyields _ v w htype hvalue hends

/-- An option without normalizers is resolved to its completed value. -/
theorem get?_of_resolve (h : s.resolve raw = .ok resolved)
    (hnormal : s.normalizers key = []) :
    resolved.get? key = (s.complete raw).get? key := by
  rcases get?_normalized h key with ⟨hnone, hresolved⟩ | ⟨v, w, hsome, hw, hresolved⟩
  · rw [hnone, hresolved]
  · rw [hsome, hresolved]
    unfold normalizeOption at hw
    unfold normalizers at hnormal
    cases hrule : s.rules.get? key with
    | none =>
        rw [hrule] at hw
        cases hw
        rfl
    | some rule =>
        rw [hrule] at hw hnormal
        have hnone : rule.normalizers = [] := hnormal
        simp only [OptionRule.normalizeValue, hnone, List.foldlM_nil] at hw
        cases hw
        rfl

end Schema

end ConfigCompiler
