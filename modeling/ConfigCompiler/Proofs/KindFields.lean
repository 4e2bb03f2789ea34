import ConfigCompiler.Proofs.RecordFields
import ConfigCompiler.Proofs.SchemaLaws
import ConfigCompiler.Schema.Baseline

/-!
# Schemas and records of a kind

The baseline describes the entries of a kind by the rules of its schema, and the record of
the kind by the forms of its fields.  Whatever a rule makes of the values it accepts is
read by the form of the field, with one exception: the event priority of a resource has no
bound in the schema.

**Input.**  `Reads rule f`: the field `f` passes what the rule yields.  `Kept` says that
normalizers keep a property of values.

**Results.**
* `reads_of_typed`: a rule that limits an option to the types of a form is read by it.
* `permission_reads`, `namespace_reads`, `action_reads`, `behavior_reads`,
  `resource_reads`: the fields of the five records.
* `required_isSome`, `isSome_of_nameDefault`: the options that no record can do without
  are there.
-/

namespace ConfigCompiler

open Record Resolution

variable {rule : OptionRule} {key : String} {v w : Value} {options : Options}

/-- The field passes whatever the rule yields. -/
def Reads (rule : OptionRule) (f : Field) : Prop := rule.Yields (fun v => f.check v = .ok ())

theorem reads_of_accepts {α : Type} {form : FieldForm α} (h : rule.Yields form.Accepts)
    (key : String) : Reads rule (form.field key) :=
  h.mono (fun _ => check_field.2)

/-- Every normalizer of a list keeps a property of values. -/
def Kept (fs : List Normalizer) (P : Value → Prop) : Prop :=
  ∀ f ∈ fs, ∀ options v w, P v → f options v = .ok w → P w

/-- A rule is read by a form of the same types, if its normalizers keep to the form. -/
theorem reads_of_typed {α : Type} {form : FieldForm α} {types : List ValueType}
    (hform : form.Typed types) (htypes : rule.types? = some types)
    (hkept : Kept rule.normalizers form.Accepts) (key : String) :
    Reads rule (form.field key) := by
  refine reads_of_accepts (OptionRule.yields_of_accepted (fun v htype _ => ?_) hkept) key
  rw [OptionRule.acceptsType, htypes] at htype
  exact (hform v).2 htype

theorem reads_anything (rule : OptionRule) (key : String) : Reads rule (anything.field key) :=
  reads_of_accepts (fun _ _ w _ _ _ => anything_accepts w) key

theorem text_accepts_string (s : String) : text.Accepts (.string s) := ⟨s, rfl⟩

theorem kept_nil (P : Value → Prop) : Kept [] P := fun _ hf => nomatch hf

theorem kept_singleton {f : Normalizer} {P : Value → Prop}
    (h : ∀ options v w, P v → f options v = .ok w → P w) : Kept [f] P :=
  List.forall_mem_singleton.2 h

/-- A normalized name is a string. -/
theorem accepts_normalizeName (hv : text.Accepts v)
    (hw : Baseline.normalizeNameValue v = .ok w) : text.Accepts w := by
  obtain ⟨s, hs⟩ := Option.isSome_iff_exists.1 (text_accepts.1 hv)
  simp only [Baseline.normalizeNameValue, hs] at hw
  cases hname : Baseline.validName s with
  | error e =>
      rw [hname] at hw
      cases hw
  | ok name =>
      rw [hname] at hw
      cases hw
      exact text_accepts_string name

theorem kept_name : Kept [fun _ v => Baseline.normalizeNameValue v] text.Accepts :=
  kept_singleton (fun _ _ _ hv hw => accepts_normalizeName hv hw)

theorem kept_prefixes : Kept [fun _ v => .ok (Baseline.normalizePrefix v)] text.Accepts := by
  refine kept_singleton (fun _ v w hv hw => ?_)
  cases hw
  unfold Baseline.normalizePrefix
  cases v.str? with
  | some raw => exact text_accepts_string _
  | none => exact hv

theorem mem_appendNew {items : List Value} {item : Value}
    (h : item ∈ Baseline.appendNew items v) : item ∈ items ∨ item = v := by
  unfold Baseline.appendNew at h
  split at h
  · exact Or.inl h
  · simpa using h

/-- A list of normalized names is a list of strings. -/
theorem kept_nameList : Kept [fun _ v => Baseline.normalizeNameList v] texts.Accepts := by
  refine kept_singleton (fun _ v w hv hw => ?_)
  simp only [Baseline.normalizeNameList] at hw
  obtain ⟨items, hitems, hall⟩ := texts_accepts.1 hv
  rw [hitems] at hw
  obtain ⟨names, hnames, hlast⟩ := check_bind.1 hw
  cases check_pure.1 hlast
  refine texts_accepts.2 ⟨names, Value.items?_array names, ?_⟩
  refine check_foldlM_induction (P := fun names => ∀ item ∈ names, text.Accepts item)
    (fun item hitem names names' hbefore hstep => ?_) hnames (fun _ h => nomatch h)
  obtain ⟨name, hname, hlast⟩ := check_bind.1 hstep
  cases check_pure.1 hlast
  intro other hother
  rcases mem_appendNew hother with hold | rfl
  · exact hbefore other hold
  · exact accepts_normalizeName (hall item hitem) hname

theorem mem_foldl_appendNew {items kept : List Value}
    (h : v ∈ items.foldl Baseline.appendNew kept) : v ∈ kept ∨ v ∈ items := by
  induction items generalizing kept with
  | nil => exact Or.inl h
  | cons item rest ih =>
      rcases ih h with hkept | hrest
      · rcases mem_appendNew hkept with hold | rfl
        · exact Or.inl hold
        · exact Or.inr List.mem_cons_self
      · exact Or.inr (List.mem_cons_of_mem _ hrest)

theorem kept_operationList :
    Kept [fun _ v => .ok (Baseline.dropRepeated v)]
      (fun v => Baseline.isOperationList v = true) := by
  refine kept_singleton (fun _ v w hv hw => ?_)
  cases hw
  unfold Baseline.dropRepeated
  cases hitems : v.items? with
  | none => exact hv
  | some items =>
      simp only [Baseline.isOperationList, hitems, Option.any_some, List.all_eq_true,
        Value.items?_array] at hv ⊢
      intro item hitem
      exact hv item ((mem_foldl_appendNew hitem).resolve_left List.not_mem_nil)

/-- The operations of a behavior are checked by name, and stay so without repetitions. -/
theorem reads_operations {description : String}
    (hallowed : rule.allowed? = some [.matching description Baseline.isOperationList])
    (hnormalizers : rule.normalizers = [fun _ v => .ok (Baseline.dropRepeated v)])
    (key : String) : Reads rule (operations.field key) := by
  have hyields : rule.Yields (fun v => Baseline.isOperationList v = true) := by
    refine OptionRule.yields_of_accepted (fun v _ hvalue => ?_) ?_
    · simpa [OptionRule.acceptsValue, hallowed, AllowedValue.accepts] using hvalue
    · rw [hnormalizers]
      exact kept_operationList
  refine reads_of_accepts (hyields.mono (fun v hv => ?_)) key
  unfold Baseline.isOperationList at hv
  cases hitems : v.items? with
  | none => simp [hitems] at hv
  | some items =>
      rw [Value.eq_array_of_items? hitems]
      refine operations_accepts ?_
      simpa [hitems] using hv

/-- The rule of an option in the schema that a list of statements makes. -/
def ruleOf? (cs : List Contribution) (key : String) : Option OptionRule :=
  (Contribution.about key cs).foldl (fun rule? c => some ((rule?.getD .blank).apply c)) none

theorem rule?_extend_empty (cs : List Contribution) (key : String) :
    (Schema.empty.extend cs).rules.get? key = ruleOf? cs key :=
  Schema.rule?_extend _ _ _

/-- The rule of the option is read by the field. -/
def ReadBy (cs : List Contribution) (f : Field) : Prop :=
  ∃ rule, ruleOf? cs f.name = some rule ∧ Reads rule f

theorem permission_reads (catalog : Catalog) :
    ∀ f ∈ PermissionRecord.fields, ReadBy (Baseline.schemaOf catalog .permission) f := by
  simp only [PermissionRecord.fields, List.forall_mem_cons]
  exact ⟨⟨_, rfl, reads_of_typed text_typed rfl kept_name _⟩,
    ⟨_, rfl, reads_of_typed text_typed rfl (kept_nil _) _⟩,
    ⟨_, rfl, reads_of_typed optionalText_typed rfl (kept_nil _) _⟩,
    fun _ hf => nomatch hf⟩

theorem namespace_reads (catalog : Catalog) :
    ∀ f ∈ NamespaceRecord.fields, ReadBy (Baseline.schemaOf catalog .nameSpace) f := by
  simp only [NamespaceRecord.fields, List.forall_mem_cons]
  exact ⟨⟨_, rfl, reads_of_typed text_typed rfl kept_name _⟩,
    ⟨_, rfl, reads_of_typed text_typed rfl kept_prefixes _⟩,
    ⟨_, rfl, reads_of_typed optionalText_typed rfl (kept_nil _) _⟩,
    ⟨_, rfl, reads_of_typed optionalText_typed rfl (kept_nil _) _⟩,
    fun _ hf => nomatch hf⟩

theorem action_reads (catalog : Catalog) :
    ∀ f ∈ ActionRecord.fields, ReadBy (Baseline.schemaOf catalog .action) f := by
  simp only [ActionRecord.fields, List.forall_mem_cons]
  exact ⟨⟨_, rfl, reads_of_typed text_typed rfl kept_name _⟩,
    ⟨_, rfl, reads_of_typed text_typed rfl (kept_nil _) _⟩,
    ⟨_, rfl, reads_of_typed optionalText_typed rfl (kept_nil _) _⟩,
    ⟨_, rfl, reads_of_typed texts_typed rfl kept_nameList _⟩,
    ⟨_, rfl, reads_of_typed bag_typed rfl (kept_nil _) _⟩,
    ⟨_, rfl, reads_anything _ _⟩,
    ⟨_, rfl, reads_of_typed optionalText_typed rfl (kept_nil _) _⟩,
    fun _ hf => nomatch hf⟩

theorem behavior_reads (catalog : Catalog) :
    ∀ f ∈ BehaviorRecord.fields, ReadBy (Baseline.schemaOf catalog .behavior) f := by
  simp only [BehaviorRecord.fields, List.forall_mem_cons]
  exact ⟨⟨_, rfl, reads_of_typed text_typed rfl kept_name _⟩,
    ⟨_, rfl, reads_of_typed text_typed rfl (kept_nil _) _⟩,
    ⟨_, rfl, reads_of_typed optionalText_typed rfl (kept_nil _) _⟩,
    ⟨_, rfl, reads_operations rfl rfl _⟩,
    ⟨_, rfl, reads_of_typed bag_typed rfl (kept_nil _) _⟩,
    fun _ hf => nomatch hf⟩

/-- The attachments of a resource are worked out later, and its event priority is read
only if it is small enough. -/
theorem resource_reads (catalog : Catalog) :
    ∀ f ∈ ResourceRecord.fields, f.name ∉ ["actions", "behaviors", "event_priority"] →
      ReadBy (Baseline.schemaOf catalog .resource) f := by
  simp only [ResourceRecord.fields, List.forall_mem_cons]
  exact ⟨fun _ => ⟨_, rfl, reads_of_typed text_typed rfl kept_name _⟩,
    fun _ => ⟨_, rfl, reads_of_typed text_typed rfl (kept_nil _) _⟩,
    fun _ => ⟨_, rfl, reads_of_typed text_typed rfl kept_name _⟩,
    fun _ => ⟨_, rfl, reads_of_typed text_typed rfl (kept_nil _) _⟩,
    fun _ => ⟨_, rfl, reads_of_typed optionalText_typed rfl (kept_nil _) _⟩,
    fun _ => ⟨_, rfl, reads_of_typed optionalText_typed rfl (kept_nil _) _⟩,
    fun _ => ⟨_, rfl, reads_of_typed optionalText_typed rfl (kept_nil _) _⟩,
    fun _ => ⟨_, rfl, reads_of_typed texts_typed rfl (kept_nil _) _⟩,
    fun _ => ⟨_, rfl, reads_of_typed optionalText_typed rfl (kept_nil _) _⟩,
    fun _ => ⟨_, rfl, reads_of_typed optionalText_typed rfl (kept_nil _) _⟩,
    fun hname => absurd (by decide) hname, fun hname => absurd (by decide) hname,
    fun _ => ⟨_, rfl, reads_of_typed texts_typed rfl kept_nameList _⟩,
    fun _ => ⟨_, rfl, reads_of_typed optionalText_typed rfl (kept_nil _) _⟩,
    fun hname => absurd (by decide) hname,
    fun _ => ⟨_, rfl, reads_of_typed bag_typed rfl (kept_nil _) _⟩, fun _ hf => nomatch hf⟩

theorem yields_integer (htypes : rule.types? = some [.integer]) (hnone : rule.normalizers = []) :
    rule.Yields (fun v => v.int?.isSome = true) := by
  refine OptionRule.yields_of_accepted (fun v htype _ => ?_) (hnone ▸ kept_nil _)
  rw [← ValueType.accepts_integer]
  simpa [OptionRule.acceptsType, htypes] using htype

/-- The event priority of a resource is an integer of any size. -/
theorem eventPriority_rule (catalog : Catalog) :
    ∃ rule, ruleOf? (Baseline.schemaOf catalog .resource) "event_priority" = some rule ∧
      rule.Yields (fun v => v.int?.isSome = true) :=
  ⟨_, rfl, yields_integer rfl rfl⟩

/-- The options that the entries of a kind are required to have. -/
def requiredOptions : EntityKind → List String
  | .permission => ["name"]
  | .action => ["name", "class"]
  | .behavior => ["name", "class"]
  | .nameSpace => ["name"]
  | .resource => ["name", "driver", "namespace", "entity"]

theorem required_rule (catalog : Catalog) (kind : EntityKind) :
    ∀ key ∈ requiredOptions kind, ∃ rule,
      ruleOf? (Baseline.schemaOf catalog kind) key = some rule ∧ rule.required = true := by
  cases kind <;> simp only [requiredOptions, List.forall_mem_cons]
  case permission => exact ⟨⟨_, rfl, rfl⟩, fun _ h => nomatch h⟩
  case action => exact ⟨⟨_, rfl, rfl⟩, ⟨_, rfl, rfl⟩, fun _ h => nomatch h⟩
  case behavior => exact ⟨⟨_, rfl, rfl⟩, ⟨_, rfl, rfl⟩, fun _ h => nomatch h⟩
  case nameSpace => exact ⟨⟨_, rfl, rfl⟩, fun _ h => nomatch h⟩
  case resource =>
    exact ⟨⟨_, rfl, rfl⟩, ⟨_, rfl, rfl⟩, ⟨_, rfl, rfl⟩, ⟨_, rfl, rfl⟩, fun _ h => nomatch h⟩

theorem name_mem_requiredOptions (kind : EntityKind) : "name" ∈ requiredOptions kind := by
  cases kind <;> exact List.mem_cons_self

/-- The name of an entry is a string, and has no default in the schema. -/
theorem name_rule (catalog : Catalog) (kind : EntityKind) :
    ∃ rule, ruleOf? (Baseline.schemaOf catalog kind) "name" = some rule ∧
      rule.types? = some [.string] ∧ rule.default? = none := by
  cases kind <;> exact ⟨_, rfl, rfl, rfl⟩

section Resolved

variable {catalog : Catalog} {kind : EntityKind} {raw resolved : Options}
variable (h : (Schema.empty.extend (Baseline.schemaOf catalog kind)).resolve raw = .ok resolved)
include h

theorem required_isSome (hkey : key ∈ requiredOptions kind) :
    (resolved.get? key).isSome = true := by
  obtain ⟨rule, hrule, hrequired⟩ := required_rule catalog kind key hkey
  exact Schema.isSome_of_required h ((rule?_extend_empty _ _).trans hrule) hrequired

/-- A field that is read by a rule passes a resolved option. -/
theorem check_of_readBy {f : Field} (hread : ReadBy (Baseline.schemaOf catalog kind) f)
    (hv : resolved.get? f.name = some v) : f.check v = .ok () := by
  obtain ⟨rule, hrule, hreads⟩ := hread
  exact Schema.of_resolve h ((rule?_extend_empty _ _).trans hrule) hreads hv

/-- Computed defaults see the name of the entry. -/
theorem name_isSome :
    (((Schema.empty.extend (Baseline.schemaOf catalog kind)).withFixedDefaults raw).str?
      "name").isSome = true := by
  obtain ⟨rule, hrule, htypes, hdefault⟩ := name_rule catalog kind
  rw [← rule?_extend_empty] at hrule
  have hnone : (Schema.empty.extend (Baseline.schemaOf catalog kind)).default? "name" = none := by
    rw [Schema.default?, hrule]
    exact hdefault
  obtain ⟨hknown, hcomplete⟩ := Schema.get?_of_no_default raw hnone
  have hthere := required_isSome h (name_mem_requiredOptions kind)
  rw [Schema.isSome_of_resolve h] at hthere
  obtain ⟨v, hv⟩ := Option.isSome_iff_exists.1 hthere
  have htype := (Schema.accepts_of_resolve h hrule hv).1
  rw [Options.str?, hknown, ← hcomplete, hv, Option.bind_some, ← ValueType.accepts_string]
  simpa [OptionRule.acceptsType, htypes] using htype

/-- An option whose default is computed from the name is there. -/
theorem isSome_of_nameDefault {f : Options → Option Value}
    (hrule : ∃ rule, ruleOf? (Baseline.schemaOf catalog kind) key = some rule ∧
      rule.default? = some (.computed f))
    (hf : ∀ known : Options, (known.str? "name").isSome = true → (f known).isSome = true) :
    (resolved.get? key).isSome = true := by
  obtain ⟨rule, hrule, hdefault⟩ := hrule
  rw [← rule?_extend_empty] at hrule
  rw [Schema.isSome_of_resolve h, Schema.get?_complete, Schema.default?, hrule,
    Option.bind_some, hdefault, Option.isSome_or]
  simp [Schema.valueOf, hf _ (name_isSome h)]

end Resolved

/-- A permission has a label. -/
theorem label_of_permission {catalog : Catalog} {raw resolved : Options}
    (h : (Schema.empty.extend (Baseline.schemaOf catalog .permission)).resolve raw =
      .ok resolved) : (resolved.get? "label").isSome = true :=
  isSome_of_nameDefault h ⟨_, rfl, rfl⟩
    (fun known hname => by simpa [Baseline.humanizedName] using hname)

/-- A namespace has a prefix. -/
theorem prefix_of_namespace {catalog : Catalog} {raw resolved : Options}
    (h : (Schema.empty.extend (Baseline.schemaOf catalog .nameSpace)).resolve raw =
      .ok resolved) : (resolved.get? "prefix").isSome = true :=
  isSome_of_nameDefault h ⟨_, rfl, rfl⟩
    (fun known hname => by simpa [Baseline.namespacePrefix] using hname)

end ConfigCompiler
