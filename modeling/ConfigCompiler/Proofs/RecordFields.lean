import ConfigCompiler.Proofs.Questions
import ConfigCompiler.Record.Basic
import ConfigCompiler.Value.ValueType

/-!
# Which records can be built

The schema of a kind limits options by their types, and the record of the kind reads them
by forms.  Most forms accept exactly the values of one or two types.  The form of an
integer does not: it takes integers of 64 bits only, while the type has no bound.

**Input.**  `FieldForm.Accepts form v`: the form reads the value.  `FieldForm.Typed` says
that a form reads exactly the values of some types.

**Results.**
* `text_typed`, `optionalText_typed`, `texts_typed`, `bag_typed`: the forms that go with
  types; `integer_accepts`: the one that does not.
* `checkPresent_eq_ok`, `checkPresent_eq_error`: the options present pass, or the only one
  that does not is the problem.
* `decode_succeeds`, for each of the five records: it is built if the options present pass
  and the mandatory ones are there.
* `ResourceRecord.readFrom_of_decode`: a resource that is built says what its options say.
-/

namespace ConfigCompiler
namespace Record

open Resolution

variable {α : Type} {form : FieldForm α} {fields : List Field} {options : Options}
variable {key reason : String} {v : Value}

/-- The form reads the value. -/
def FieldForm.Accepts (form : FieldForm α) (v : Value) : Prop := ∃ a, form.decode v = .ok a

/-- The form reads exactly the values that have one of the types. -/
def FieldForm.Typed (form : FieldForm α) (types : List ValueType) : Prop :=
  ∀ v, form.Accepts v ↔ types.any (fun type => type.accepts v) = true

theorem text_accepts : text.Accepts v ↔ v.str?.isSome = true := by
  show (∃ s, decodeText v = .ok s) ↔ _
  unfold decodeText
  cases v.str? <;> simp

theorem text_typed : text.Typed [.string] := by
  intro v
  simp [text_accepts, ValueType.accepts_string]

theorem optionalText_typed : optionalText.Typed [.null, .string] := by
  intro v
  simp only [List.any_cons, List.any_nil, ValueType.accepts_null, ValueType.accepts_string]
  show (∃ s, decodeOptionalText v = .ok s) ↔ _
  unfold decodeOptionalText decodeText
  cases v.isNull with
  | true => simp
  | false => cases v.str? <;> simp [Except.map]

theorem texts_accepts :
    texts.Accepts v ↔ ∃ items, v.items? = some items ∧ ∀ item ∈ items, text.Accepts item := by
  show (∃ texts, decodeList decodeText v = .ok texts) ↔ _
  unfold decodeList
  cases v.items? with
  | none => simp
  | some items =>
      simp only [check_list_mapM_succeeds, Option.some.injEq, exists_eq_left']
      exact Iff.rfl

theorem texts_typed : texts.Typed [.stringList] := by
  intro v
  simp only [texts_accepts, text_accepts, List.any_cons, List.any_nil, Bool.or_false,
    ValueType.accepts_stringList]
  cases v.items? with
  | none => simp
  | some items => simp [Value.isString]

theorem bag_typed : bag.Typed [.object] := by
  intro v
  simp only [List.any_cons, List.any_nil, Bool.or_false, ValueType.accepts_object]
  show (∃ fields, decodeBag v = .ok fields) ↔ _
  unfold decodeBag
  cases v.fields? <;> simp

theorem anything_accepts (v : Value) : anything.Accepts v := ⟨_, rfl⟩

/-- An object of bags is read as such. -/
theorem bags_accepts (attached : SortedMap Options) :
    bags.Accepts (.object (attached.map Value.object)) := by
  show ∃ m, decodeBags (.object (attached.map Value.object)) = .ok m
  unfold decodeBags
  rw [Value.fields?_object]
  refine check_mapM_succeeds (fun name value hvalue => ?_)
  rw [SortedMap.get?_map] at hvalue
  obtain ⟨options, -, rfl⟩ := Option.map_eq_some_iff.1 hvalue
  exact ⟨options, by rw [decodeBag, Value.fields?_object]⟩

/-- A list of names of operations is read as such. -/
theorem operations_accepts {items : List Value}
    (h : ∀ item ∈ items, (item.str?.bind Operation.ofName?).isSome = true) :
    operations.Accepts (.array items) := by
  show ∃ os, decodeList decodeOperation (.array items) = .ok os
  unfold decodeList
  rw [Value.items?_array]
  refine check_list_mapM_succeeds.2 (fun item hitem => ?_)
  obtain ⟨o, ho⟩ := Option.isSome_iff_exists.1 (h item hitem)
  obtain ⟨name, hname, ho⟩ := Option.bind_eq_some_iff.1 ho
  rw [Value.eq_string_of_str? hname]
  exact ⟨o, by simp only [decodeOperation, Value.view_string, decodeOperationName, ho]⟩

/-- Unlike its type, the form of an integer is bounded. -/
theorem integer_accepts :
    integer.Accepts v ↔ ∃ n, v.int? = some n ∧ Word.isSigned n = true := by
  show (∃ n, decodeInteger v = .ok n) ↔ _
  unfold decodeInteger
  cases v.int? with
  | none => simp
  | some n => cases hsigned : Word.isSigned n <;> simp [hsigned]

/-- The words for an integer out of bounds. -/
def outOfBounds (n : Int) : String := s!"invalid value: integer `{n}`, expected i64"

theorem integer_decode_of_unsigned {n : Int} (hint : v.int? = some n)
    (hsigned : Word.isSigned n = false) : integer.decode v = .error (outOfBounds n) := by
  show decodeInteger v = .error (outOfBounds n)
  unfold decodeInteger outOfBounds
  simp only [hint, hsigned]
  rfl

theorem check_field : (form.field key).check v = .ok () ↔ form.Accepts v := by
  show (form.decode v).map (fun _ => ()) = .ok () ↔ ∃ a, form.decode v = .ok a
  cases form.decode v <;> simp [Except.map]

/-- The field that looks at an option. -/
def fieldOf? (fields : List Field) (key : String) : Option Field :=
  fields.find? (fun f => f.name == key)

/-- The field found under a name has that name. -/
theorem fieldOf?_eq_some {f : Field} (h : fieldOf? fields key = some f) :
    f ∈ fields ∧ f.name = key :=
  ⟨List.mem_of_find?_eq_some h, by simpa using List.find?_some h⟩

/-- The options present pass if each passes its field. -/
theorem checkPresent_eq_ok :
    checkPresent fields options = .ok () ↔
      ∀ key v f, options.get? key = some v → fieldOf? fields key = some f →
        f.check v = .ok () := by
  rw [checkPresent, check_forM]
  constructor
  · intro h key v f hv hf
    have hkey := h (key, v) ((SortedMap.mem_entries_iff _ _ _).2 hv)
    unfold fieldOf? at hf
    simp only [hf] at hkey
    exact hkey
  · intro h e he
    have hv := (SortedMap.mem_entries_iff _ _ _).1 he
    cases hf : fieldOf? fields e.1 with
    | none =>
        unfold fieldOf? at hf
        simp only [hf]
    | some f =>
        have hcheck := h e.1 e.2 f hv hf
        unfold fieldOf? at hf
        simp only [hf]
        exact hcheck

/-- If the field of one option refuses it and the others pass, that is the problem. -/
theorem checkPresent_eq_error {f : Field} (hv : options.get? key = some v)
    (hf : fieldOf? fields key = some f) (hrefused : f.check v = .error reason)
    (hothers : ∀ other w g, other ≠ key → options.get? other = some w →
      fieldOf? fields other = some g → g.check w = .ok ()) :
    checkPresent fields options = .error reason := by
  refine check_forM_error (a := (key, v)) (fun e he => ?_)
    ((SortedMap.mem_entries_iff _ _ _).2 hv) ?_
  · have hw := (SortedMap.mem_entries_iff _ _ _).1 he
    cases hg : fieldOf? fields e.1 with
    | none =>
        unfold fieldOf? at hg
        simp only [hg, true_or]
    | some g =>
        have hends : g.check e.2 = .ok () ∨ g.check e.2 = .error reason := by
          by_cases hkey : e.1 = key
          · rw [hkey] at hw hg
            rw [hv] at hw
            rw [hf] at hg
            cases hw
            cases hg
            exact Or.inr hrefused
          · exact Or.inl (hothers e.1 e.2 g hkey hw hg)
        unfold fieldOf? at hg
        simp only [hg]
        exact hends
  · unfold fieldOf? at hf
    simp only [hf]
    exact hrefused

/-- A field whose option passed is read. -/
theorem read_of_checkPresent (hcheck : checkPresent fields options = .ok ())
    (hfield : fieldOf? fields key = some (form.field key))
    (hthere : form.absent? = none → (options.get? key).isSome = true) :
    ∃ a, form.read options key = .ok a := by
  unfold FieldForm.read
  cases hv : options.get? key with
  | some v => exact check_field.1 (checkPresent_eq_ok.1 hcheck key v _ hv hfield)
  | none =>
      cases habsent : form.absent? with
      | some a => exact ⟨a, rfl⟩
      | none => simp [hv] at hthere; exact absurd habsent hthere

end Record

namespace EntityRecord

variable {ρ : Type} [EntityRecord ρ]

theorem construct_eq_ok_iff {name : String} {o : Options} {r : ρ} :
    construct name o = .ok r ↔ decode o = .ok r := by
  unfold construct
  cases (decode o : Except String ρ) with
  | ok made =>
      constructor
      · intro h
        exact congrArg Except.ok (Except.ok.inj h)
      · intro h
        exact congrArg Except.ok (Except.ok.inj h)
  | error reason =>
      constructor
      · intro h
        cases h
      · intro h
        cases h

/-- Options that make no record are refused under the name of the entry. -/
theorem construct_fails_iff {name : String} {o : Options} :
    (∃ reason, (construct name o : Except Failure ρ) =
        .error (.construct (kind ρ) name reason)) ↔
      ¬ ∃ r : ρ, decode o = .ok r := by
  unfold construct
  cases (decode o : Except String ρ) with
  | ok made =>
      constructor
      · rintro ⟨reason, h⟩
        cases h
      · intro hnone
        exact absurd ⟨made, rfl⟩ hnone
  | error reason =>
      constructor
      · rintro - ⟨r, h⟩
        cases h
      · intro _
        exact ⟨reason, rfl⟩

end EntityRecord

open Record Resolution

variable {options : Options}

/-- A permission is built from options that pass, if its name and label are there. -/
theorem PermissionRecord.decode_succeeds
    (hcheck : checkPresent PermissionRecord.fields options = .ok ())
    (hthere : ∀ key ∈ ["name", "label"],
      (options.get? key).isSome = true) :
    ∃ record, PermissionRecord.decode options = .ok record := by
  refine check_bind_succeeds ⟨(), hcheck⟩ (fun _ => ?_)
  iterate 3
    refine check_bind_succeeds (read_of_checkPresent hcheck rfl ?_) (fun _ => ?_)
    · first | exact fun _ => hthere _ (by decide) | exact nofun
  exact ⟨_, rfl⟩

/-- A namespace is built from options that pass, if its name and prefix are there. -/
theorem NamespaceRecord.decode_succeeds
    (hcheck : checkPresent NamespaceRecord.fields options = .ok ())
    (hthere : ∀ key ∈ ["name", "prefix"],
      (options.get? key).isSome = true) :
    ∃ record, NamespaceRecord.decode options = .ok record := by
  refine check_bind_succeeds ⟨(), hcheck⟩ (fun _ => ?_)
  iterate 4
    refine check_bind_succeeds (read_of_checkPresent hcheck rfl ?_) (fun _ => ?_)
    · first | exact fun _ => hthere _ (by decide) | exact nofun
  exact ⟨_, rfl⟩

/-- An action is built from options that pass, if its name and class are there. -/
theorem ActionRecord.decode_succeeds
    (hcheck : checkPresent ActionRecord.fields options = .ok ())
    (hthere : ∀ key ∈ ["name", "class"],
      (options.get? key).isSome = true) :
    ∃ record, ActionRecord.decode options = .ok record := by
  refine check_bind_succeeds ⟨(), hcheck⟩ (fun _ => ?_)
  iterate 7
    refine check_bind_succeeds (read_of_checkPresent hcheck rfl ?_) (fun _ => ?_)
    · first | exact fun _ => hthere _ (by decide) | exact nofun
  exact ⟨_, rfl⟩

/-- A behavior is built from options that pass, if its name and class are there. -/
theorem BehaviorRecord.decode_succeeds
    (hcheck : checkPresent BehaviorRecord.fields options = .ok ())
    (hthere : ∀ key ∈ ["name", "class"],
      (options.get? key).isSome = true) :
    ∃ record, BehaviorRecord.decode options = .ok record := by
  refine check_bind_succeeds ⟨(), hcheck⟩ (fun _ => ?_)
  iterate 5
    refine check_bind_succeeds (read_of_checkPresent hcheck rfl ?_) (fun _ => ?_)
    · first | exact fun _ => hthere _ (by decide) | exact nofun
  exact ⟨_, rfl⟩

/-- A resource is built from options that pass, if the mandatory ones are there. -/
theorem ResourceRecord.decode_succeeds
    (hcheck : checkPresent ResourceRecord.fields options = .ok ())
    (hthere : ∀ key ∈ ["name", "driver", "namespace", "entity"],
      (options.get? key).isSome = true) :
    ∃ record, ResourceRecord.decode options = .ok record := by
  refine check_bind_succeeds ⟨(), hcheck⟩ (fun _ => ?_)
  iterate 16
    refine check_bind_succeeds (read_of_checkPresent hcheck rfl ?_) (fun _ => ?_)
    · first | exact fun _ => hthere _ (by decide) | exact nofun
  exact ⟨_, rfl⟩

/-- What does not pass is not built. -/
theorem ResourceRecord.decode_fails {reason : String}
    (hcheck : checkPresent ResourceRecord.fields options = .error reason) :
    ResourceRecord.decode options = .error reason := by
  unfold ResourceRecord.decode
  rw [hcheck]
  rfl

/-- The record says what the options say, and knows no registry. -/
structure ResourceRecord.ReadFrom (record : ResourceRecord) (o : Options) : Prop where
  name : text.read o "name" = .ok record.name
  driver : text.read o "driver" = .ok record.driver
  nameSpace : text.read o "namespace" = .ok record.nameSpace
  entity : text.read o "entity" = .ok record.entity
  interface : optionalText.read o "interface" = .ok record.interface
  parent : optionalText.read o "parent" = .ok record.parent
  translationType : optionalText.read o "translation" = .ok record.translationType
  translatableFields : texts.read o "translatable_fields" = .ok record.translatableFields
  label : optionalText.read o "label" = .ok record.label
  translationDomain : optionalText.read o "translation_domain" = .ok record.translationDomain
  actions : bags.read o "actions" = .ok record.actions
  behaviors : bags.read o "behaviors" = .ok record.behaviors
  permissions : texts.read o "permissions" = .ok record.permissions
  eventClass : optionalText.read o "event_class" = .ok record.eventClass
  eventPriority : integer.read o "event_priority" = .ok record.eventPriority
  options : bag.read o "options" = .ok record.options
  extra : record.extra = extraOptions ResourceRecord.fields o
  linked : record.linked = false

/-- A record that is built says what its options say. -/
theorem ResourceRecord.readFrom_of_decode {record : ResourceRecord}
    (h : ResourceRecord.decode options = .ok record) : record.ReadFrom options := by
  obtain ⟨_, -, h⟩ := check_bind.1 h
  obtain ⟨name, hName, h⟩ := check_bind.1 h
  obtain ⟨driver, hDriver, h⟩ := check_bind.1 h
  obtain ⟨nameSpace, hNameSpace, h⟩ := check_bind.1 h
  obtain ⟨entity, hEntity, h⟩ := check_bind.1 h
  obtain ⟨interface, hInterface, h⟩ := check_bind.1 h
  obtain ⟨parent, hParent, h⟩ := check_bind.1 h
  obtain ⟨translationType, hTranslationType, h⟩ := check_bind.1 h
  obtain ⟨translatableFields, hTranslatableFields, h⟩ := check_bind.1 h
  obtain ⟨label, hLabel, h⟩ := check_bind.1 h
  obtain ⟨translationDomain, hTranslationDomain, h⟩ := check_bind.1 h
  obtain ⟨actions, hActions, h⟩ := check_bind.1 h
  obtain ⟨behaviors, hBehaviors, h⟩ := check_bind.1 h
  obtain ⟨permissions, hPermissions, h⟩ := check_bind.1 h
  obtain ⟨eventClass, hEventClass, h⟩ := check_bind.1 h
  obtain ⟨eventPriority, hEventPriority, h⟩ := check_bind.1 h
  obtain ⟨options, hOptions, h⟩ := check_bind.1 h
  obtain rfl := check_pure.1 h
  exact {
    name := hName
    driver := hDriver
    nameSpace := hNameSpace
    entity := hEntity
    interface := hInterface
    parent := hParent
    translationType := hTranslationType
    translatableFields := hTranslatableFields
    label := hLabel
    translationDomain := hTranslationDomain
    actions := hActions
    behaviors := hBehaviors
    permissions := hPermissions
    eventClass := hEventClass
    eventPriority := hEventPriority
    options := hOptions
    extra := rfl
    linked := rfl }

end ConfigCompiler
