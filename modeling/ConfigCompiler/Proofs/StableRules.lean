import ConfigCompiler.Proofs.DecidableValues
import ConfigCompiler.Proofs.KindFields
import ConfigCompiler.Proofs.NormalNames

/-!
# Rules that settle a value at once

A rule is stable if whatever it makes of a value it accepts, it accepts again and leaves as
it is.  A rule without normalizers is.  The normalizers of the baseline give normal forms:
valid names, lists without repetitions, and objects of bags; only a prefix may change again.

**Input.**  `Distinct items`: no item repeats an earlier one.  `OptionRule.Stable` says that
a rule is stable.

**Results.**
* `foldl_appendNew_of_distinct`: a list without repetitions loses nothing.
* `Baseline.normalizeNameValue_fixed`, `Baseline.normalizeNameList_fixed`,
  `Baseline.dropRepeated_dropRepeated`, `Baseline.normalizeAttachments_fixed`: what comes
  out of a normalizer is left as it is.
* `OptionRule.stable_of_plain`, `OptionRule.stable_of_normalizer`: when a rule is stable,
  and an instance for each normalizer.
-/

namespace ConfigCompiler

open Record Resolution

section Distinct

variable {items kept : List Value} {v : Value}

/-- No item of the list repeats an earlier one. -/
def Distinct (items : List Value) : Prop :=
  items.Pairwise (fun earlier later => earlier.same later = false)

theorem distinct_appendNew (h : Distinct kept) (v : Value) :
    Distinct (Baseline.appendNew kept v) := by
  unfold Baseline.appendNew
  split
  · exact h
  · next hnew =>
      refine List.pairwise_append.2
        ⟨h, List.pairwise_singleton _ _, fun item hitem other hother => ?_⟩
      rw [List.mem_singleton.1 hother]
      simpa using fun hsame => hnew (List.any_eq_true.2 ⟨item, hitem, hsame⟩)

theorem distinct_foldl_appendNew (items : List Value) (h : Distinct kept) :
    Distinct (items.foldl Baseline.appendNew kept) := by
  induction items generalizing kept with
  | nil => exact h
  | cons item rest ih => exact ih (distinct_appendNew h item)

theorem appendNew_of_distinct (h : Distinct (kept ++ v :: items)) :
    Baseline.appendNew kept v = kept ++ [v] := by
  have hnew := (List.pairwise_append.1 h).2.2
  refine if_neg (fun hany => ?_)
  obtain ⟨item, hitem, hsame⟩ := List.any_eq_true.1 hany
  rw [hnew item hitem v List.mem_cons_self] at hsame
  cases hsame

/-- A list without repetitions loses nothing. -/
theorem foldl_appendNew_of_distinct (h : Distinct (kept ++ items)) :
    items.foldl Baseline.appendNew kept = kept ++ items := by
  induction items generalizing kept with
  | nil => exact (List.append_nil kept).symm
  | cons item rest ih =>
      rw [List.foldl_cons, appendNew_of_distinct h, ih (by simpa using h)]
      simp

end Distinct

namespace Baseline

variable {v w : Value} {fields : Options}

theorem validName_fixed {raw name : String} (h : validName raw = .ok name) :
    validName name = .ok name := by
  unfold validName at h
  dsimp only at h
  split at h
  · next hvalid =>
      obtain rfl := Except.ok.inj h
      simp [validName, normalizeName_normalizeName hvalid, hvalid]
  · exact nomatch h

theorem normalizeNameValue_fixed (h : normalizeNameValue v = .ok w) :
    normalizeNameValue w = .ok w := by
  cases hs : v.str? with
  | none =>
      simp only [normalizeNameValue, hs] at h
      cases h
      simp only [normalizeNameValue, hs]
  | some raw =>
      simp only [normalizeNameValue, hs] at h
      cases hname : validName raw with
      | error e =>
          rw [hname] at h
          cases h
      | ok name =>
          rw [hname] at h
          cases h
          simp only [normalizeNameValue, Value.str?_string, validName_fixed hname]
          rfl

/-- Names in normal form are collected as they are. -/
theorem foldlM_names_fixed {items kept : List Value}
    (h : ∀ item ∈ items, normalizeNameValue item = .ok item) :
    items.foldlM (fun names item => do
      return appendNew names (← normalizeNameValue item)) kept =
      .ok (items.foldl appendNew kept) := by
  induction items generalizing kept with
  | nil => rfl
  | cons item rest ih =>
      obtain ⟨hitem, hrest⟩ := List.forall_mem_cons.1 h
      refine check_bind.2 ⟨appendNew kept item, ?_, ih hrest⟩
      exact check_bind.2 ⟨item, hitem, rfl⟩

theorem normalizeNameList_fixed (h : normalizeNameList v = .ok w) :
    normalizeNameList w = .ok w := by
  cases hitems : v.items? with
  | none =>
      simp only [normalizeNameList, hitems] at h
      cases h
      simp only [normalizeNameList, hitems]
  | some items =>
      simp only [normalizeNameList, hitems] at h
      obtain ⟨names, hnames, hlast⟩ := check_bind.1 h
      cases check_pure.1 hlast
      -- the names collected are distinct, and each is in normal form
      obtain ⟨hdistinct, hfixed⟩ : Distinct names ∧
          ∀ name ∈ names, normalizeNameValue name = .ok name := by
        refine check_foldlM_induction
          (P := fun names => Distinct names ∧ ∀ name ∈ names, normalizeNameValue name = .ok name)
          (fun item _ names names' hbefore hstep => ?_) hnames
          ⟨List.Pairwise.nil, fun _ hname => absurd hname List.not_mem_nil⟩
        obtain ⟨name, hname, hlast⟩ := check_bind.1 hstep
        cases check_pure.1 hlast
        refine ⟨distinct_appendNew hbefore.1 name, fun other hother => ?_⟩
        rcases mem_appendNew hother with hold | rfl
        · exact hbefore.2 other hold
        · exact normalizeNameValue_fixed hname
      simp only [normalizeNameList, Value.items?_array, foldlM_names_fixed hfixed]
      rw [foldl_appendNew_of_distinct (by simpa using hdistinct)]
      rfl

theorem dropRepeated_dropRepeated (v : Value) : dropRepeated (dropRepeated v) = dropRepeated v := by
  cases hitems : v.items? with
  | none => simp only [dropRepeated, hitems]
  | some items =>
      have hdistinct : Distinct (items.foldl appendNew []) :=
        distinct_foldl_appendNew items List.Pairwise.nil
      simp only [dropRepeated, hitems, Value.items?_array]
      rw [foldl_appendNew_of_distinct (by simpa using hdistinct), List.nil_append]

/-- Every value is a bag. -/
def AllBags (fields : Options) : Prop :=
  ∀ name value, fields.get? name = some value → ∃ bag, value = .object bag

theorem allBags_empty : AllBags ∅ := fun _ _ hvalue => nomatch hvalue

theorem allBags_foldl (names : List String) (h : AllBags fields) :
    AllBags (names.foldl (fun m name => m.insert name (Value.object ∅)) fields) := by
  induction names generalizing fields with
  | nil => exact h
  | cons name rest ih =>
      refine ih (fun other value hvalue => ?_)
      rw [SortedMap.get?_insert] at hvalue
      split at hvalue
      · cases hvalue
        exact ⟨∅, rfl⟩
      · exact h other value hvalue

theorem eq_object_of_attachmentBag {name : String} (h : attachmentBag name v = .ok w) :
    ∃ bag, w = .object bag := by
  unfold attachmentBag at h
  split at h
  · cases h
    exact ⟨∅, rfl⟩
  · next bag hview =>
      cases h
      exact ⟨bag, Value.view_inj.1 (by rw [hview, Value.view_object])⟩
  · cases h

/-- Attachments that are accepted at all become an object of bags. -/
theorem normalizeAttachments_cases (h : normalizeAttachments v = .ok w) :
    (∃ attached, AllBags attached ∧ w = .object attached) ∨
      (w = v ∧ v.fields? = none ∧ v.items? = none) := by
  unfold normalizeAttachments at h
  cases hview : v.view with
  | array items =>
      simp only [hview, Except.ok.injEq] at h
      exact Or.inl ⟨_, allBags_foldl _ allBags_empty, h.symm⟩
  | object fields =>
      simp only [hview] at h
      cases hbags : fields.mapM attachmentBag with
      | error e =>
          rw [hbags] at h
          cases h
      | ok attached =>
          rw [hbags] at h
          cases h
          refine Or.inl ⟨attached, fun name value hvalue => ?_, rfl⟩
          rcases check_mapM_get? hbags name with ⟨-, hnone⟩ | ⟨_, bag, -, hbag, hget⟩
          · rw [hvalue] at hnone
            cases hnone
          · rw [hvalue] at hget
            cases hget
            exact eq_object_of_attachmentBag hbag
  | _ =>
      simp only [hview, Except.ok.injEq] at h
      exact Or.inr ⟨h.symm, by simp only [Value.fields?, hview], by simp only [Value.items?, hview]⟩

/-- An object of bags is left as it is. -/
theorem normalizeAttachments_object (h : AllBags fields) :
    normalizeAttachments (.object fields) = .ok (.object fields) := by
  have hself : fields.mapM attachmentBag = .ok fields := by
    refine check_mapM_self (fun name value hvalue => ?_)
    obtain ⟨bag, rfl⟩ := h name value hvalue
    simp only [attachmentBag, Value.view_object]
  simp only [normalizeAttachments, Value.view_object, hself]
  rfl

theorem normalizeAttachments_fixed (h : normalizeAttachments v = .ok w) :
    normalizeAttachments w = .ok w := by
  rcases normalizeAttachments_cases h with ⟨attached, hbags, rfl⟩ | ⟨rfl, -, -⟩
  · exact normalizeAttachments_object hbags
  · exact h

/-- A prefix may change again: the blanks that stood before a slash at its end go the second
time. -/
example : normalizePrefix (.string "a /") = .string "/a " ∧
    normalizePrefix (.string "/a ") = .string "/a" := by
  decide +kernel

end Baseline

namespace OptionRule

variable {rule : OptionRule}

/-- Whatever the rule makes of a value it accepts, it accepts again and leaves as it is. -/
def Stable (rule : OptionRule) : Prop :=
  rule.Yields (fun w => rule.acceptsType w = true ∧ rule.acceptsValue w = true ∧
    ∀ options, rule.normalizeValue options w = .ok w)

/-- A rule without normalizers is stable. -/
theorem stable_of_plain (hplain : rule.normalizers = []) : rule.Stable := by
  have hself : ∀ options v, rule.normalizeValue options v = .ok v := by
    intro options v
    rw [normalizeValue, hplain]
    rfl
  intro options v w htype hvalue hnormal
  rw [hself, Except.ok.injEq] at hnormal
  exact hnormal ▸ ⟨htype, hvalue, fun options => hself options v⟩

/-- A rule with one normalizer is stable, if what comes out of it has a type and a value
allowed and is left as it is. -/
theorem stable_of_normalizer {f : Value → Except String Value}
    (hnormalizers : rule.normalizers = [fun _ v => f v])
    (haccepted : ∀ v w, rule.acceptsType v = true → rule.acceptsValue v = true → f v = .ok w →
      rule.acceptsType w = true ∧ rule.acceptsValue w = true)
    (hfixed : ∀ v w, f v = .ok w → f w = .ok w) : rule.Stable := by
  have honce : ∀ options v, rule.normalizeValue options v = f v := by
    intro options v
    rw [normalizeValue, hnormalizers, List.foldlM_cons]
    cases hf : f v <;> simp only [hf] <;> rfl
  intro options v w htype hvalue hnormal
  rw [honce] at hnormal
  obtain ⟨htype, hvalue⟩ := haccepted v w htype hvalue hnormal
  exact ⟨htype, hvalue, fun options => by rw [honce, hfixed v w hnormal]⟩

/-- A rule that allows the types of a form is stable, if its normalizer keeps to the form and
leaves alone what comes out of it. -/
theorem stable_of_typed {α : Type} {form : FieldForm α} {types : List ValueType}
    {f : Value → Except String Value} (hform : form.Typed types)
    (htypes : rule.types? = some types) (hallowed : rule.allowed? = none)
    (hnormalizers : rule.normalizers = [fun _ v => f v])
    (hkept : Kept [fun _ v => f v] form.Accepts)
    (hfixed : ∀ v w, f v = .ok w → f w = .ok w) : rule.Stable := by
  refine stable_of_normalizer hnormalizers (fun v w htype _ hw => ⟨?_, ?_⟩) hfixed
  · rw [acceptsType, htypes] at htype ⊢
    exact (hform w).1 (hkept _ List.mem_cons_self ∅ v w ((hform v).2 htype) hw)
  · rw [acceptsValue, hallowed]

theorem stable_of_name (htypes : rule.types? = some [.string]) (hallowed : rule.allowed? = none)
    (hnormalizers : rule.normalizers = [fun _ v => Baseline.normalizeNameValue v]) :
    rule.Stable :=
  stable_of_typed text_typed htypes hallowed hnormalizers kept_name
    (fun _ _ => Baseline.normalizeNameValue_fixed)

theorem stable_of_nameList (htypes : rule.types? = some [.stringList])
    (hallowed : rule.allowed? = none)
    (hnormalizers : rule.normalizers = [fun _ v => Baseline.normalizeNameList v]) :
    rule.Stable :=
  stable_of_typed texts_typed htypes hallowed hnormalizers kept_nameList
    (fun _ _ => Baseline.normalizeNameList_fixed)

theorem stable_of_attachments (htypes : rule.types? = some [.object, .stringList])
    (hallowed : rule.allowed? = none)
    (hnormalizers : rule.normalizers = [fun _ v => Baseline.normalizeAttachments v]) :
    rule.Stable := by
  refine stable_of_normalizer hnormalizers (fun v w htype _ hw => ⟨?_, ?_⟩)
    (fun _ _ => Baseline.normalizeAttachments_fixed)
  · rcases Baseline.normalizeAttachments_cases hw with ⟨attached, -, rfl⟩ | ⟨rfl, -, -⟩
    · simp [acceptsType, htypes, ValueType.accepts_object]
    · exact htype
  · rw [acceptsValue, hallowed]

/-- A list of known operations is a list of strings. -/
theorem accepts_stringList_of_operations {v : Value} (h : Baseline.isOperationList v = true) :
    ValueType.stringList.accepts v = true := by
  rw [ValueType.accepts_stringList]
  unfold Baseline.isOperationList at h
  cases hitems : v.items? with
  | none => simp [hitems] at h
  | some items =>
      simp only [hitems, Option.any_some, List.all_eq_true] at h ⊢
      intro item hitem
      obtain ⟨o, ho⟩ := Option.isSome_iff_exists.1 (h item hitem)
      obtain ⟨name, hname, -⟩ := Option.bind_eq_some_iff.1 ho
      rw [Value.isString, hname]
      rfl

theorem stable_of_operations {description : String} (htypes : rule.types? = some [.stringList])
    (hallowed : rule.allowed? = some [.matching description Baseline.isOperationList])
    (hnormalizers : rule.normalizers = [fun _ v => .ok (Baseline.dropRepeated v)]) :
    rule.Stable := by
  have hvalues : ∀ v, rule.acceptsValue v = true ↔ Baseline.isOperationList v = true := by
    intro v
    simp [acceptsValue, hallowed, AllowedValue.accepts]
  refine stable_of_normalizer hnormalizers (fun v w _ hvalue hw => ?_) (fun v w hw => ?_)
  · have hlist := kept_operationList _ List.mem_cons_self ∅ v w ((hvalues v).1 hvalue) hw
    refine ⟨?_, (hvalues w).2 hlist⟩
    simp [acceptsType, htypes, accepts_stringList_of_operations hlist]
  · cases hw
    rw [Baseline.dropRepeated_dropRepeated]

end OptionRule

end ConfigCompiler
