import ConfigCompiler.Proofs.CompiledEntries
import ConfigCompiler.Proofs.KindFields
import ConfigCompiler.Proofs.Lookups

/-!
# Building the records of a compiled configuration

The registries of a compiled configuration build a record from every entry.  Without
extensions there is one reason only why a record does not build: the event priority of a
resource may be any integer, while its record holds one of 64 bits.

**Input.**  `oversized?` is the event priority of a resource, if it does not fit.

**Property.**  `FindsAll ρ set defaults`: a look-up in a registry of the set fails only for
texts that lead nowhere, whatever the registry has built so far.

**Proof.**  The entries come from the schemas of their kinds, which yield what the fields
of the records read; attachments, parents and permissions are replaced by values that
the fields read as well.

**Result.**
* `warm_up`: building all records ends at the least resource with an oversized priority,
  or with the number of all entries; and no other look-up is refused.
-/

namespace ConfigCompiler

open Record Resolution

section Entries

variable {catalog : Catalog} {raw config resolved : Options}

/-- Resolved options pass if every field is read by a rule. -/
theorem checkPresent_of_reads {kind : EntityKind} {fields : List Field}
    (h : (Schema.empty.extend (Baseline.schemaOf catalog kind)).resolve raw = .ok config)
    (hreads : ∀ f ∈ fields, ReadBy (Baseline.schemaOf catalog kind) f) :
    checkPresent fields config = .ok () := by
  refine checkPresent_eq_ok.2 (fun key v f hv hf => ?_)
  obtain ⟨hmem, rfl⟩ := fieldOf?_eq_some hf
  exact check_of_readBy h (hreads f hmem) hv

theorem permission_decodes
    (h : (Schema.empty.extend (Baseline.schemaOf catalog .permission)).resolve raw =
      .ok config) : ∃ record, PermissionRecord.decode config = .ok record := by
  refine PermissionRecord.decode_succeeds (checkPresent_of_reads h (permission_reads catalog))
    (List.forall_mem_cons.2 ⟨required_isSome h (by decide), ?_⟩)
  exact List.forall_mem_singleton.2 (label_of_permission h)

theorem namespace_decodes
    (h : (Schema.empty.extend (Baseline.schemaOf catalog .nameSpace)).resolve raw =
      .ok config) : ∃ record, NamespaceRecord.decode config = .ok record := by
  refine NamespaceRecord.decode_succeeds (checkPresent_of_reads h (namespace_reads catalog))
    (List.forall_mem_cons.2 ⟨required_isSome h (by decide), ?_⟩)
  exact List.forall_mem_singleton.2 (prefix_of_namespace h)

theorem action_decodes
    (h : (Schema.empty.extend (Baseline.schemaOf catalog .action)).resolve raw = .ok config) :
    ∃ record, ActionRecord.decode config = .ok record :=
  ActionRecord.decode_succeeds (checkPresent_of_reads h (action_reads catalog))
    (fun _ hkey => required_isSome h hkey)

theorem behavior_decodes
    (h : (Schema.empty.extend (Baseline.schemaOf catalog .behavior)).resolve raw =
      .ok config) : ∃ record, BehaviorRecord.decode config = .ok record :=
  BehaviorRecord.decode_succeeds (checkPresent_of_reads h (behavior_reads catalog))
    (fun _ hkey => required_isSome h hkey)

section Resources

/-- The event priority of a resource, if it does not fit a record. -/
def oversized? (config : Options) : Option Int :=
  ((config.get? "event_priority").bind Value.int?).filter (fun n => !Word.isSigned n)

/-- How the record of a resource fails to build. -/
def oversizedFailure (name : String) (n : Int) : Failure :=
  .construct .resource name (outOfBounds n)

variable (hresolve : (Schema.empty.extend (Baseline.schemaOf catalog .resource)).resolve raw =
  .ok resolved)
variable (hsettled : Settled config resolved)
include hresolve hsettled

/-- Every option of a resource passes, except the event priority. -/
theorem check_of_settled {key : String} {v : Value} {f : Field} (hkey : key ≠ "event_priority")
    (hv : config.get? key = some v) (hf : fieldOf? ResourceRecord.fields key = some f) :
    f.check v = .ok () := by
  have hresolved : key ≠ "actions" → key ≠ "behaviors" → resolved.get? key = some v →
      f.check v = .ok () := by
    intro hactions hbehaviors hget
    obtain ⟨hmem, rfl⟩ := fieldOf?_eq_some hf
    exact check_of_readBy hresolve
      (resource_reads catalog f hmem (by simp [hactions, hbehaviors, hkey])) hget
  have hattached : ∀ kind : AttachmentKind, key = kind.optionName →
      f = bags.field key → f.check v = .ok () := by
    rintro kind rfl rfl
    obtain ⟨attached, hget⟩ := hsettled.attached kind
    rw [hv] at hget
    cases hget
    exact check_field.2 (bags_accepts attached)
  by_cases hactions : key = "actions"
  · subst hactions
    exact hattached .action rfl (Option.some.inj hf).symm
  by_cases hbehaviors : key = "behaviors"
  · subst hbehaviors
    exact hattached .behavior rfl (Option.some.inj hf).symm
  by_cases hpermissions : key = "permissions"
  · subst hpermissions
    obtain ⟨required, hget⟩ := hsettled.permissions
    rw [hv] at hget
    cases hget
    cases hf
    refine check_field.2 (texts_accepts.2 ⟨_, Value.items?_array _, fun item hitem => ?_⟩)
    obtain ⟨s, -, rfl⟩ := List.mem_map.1 hitem
    exact text_accepts_string s
  by_cases hparent : key = "parent"
  · subst hparent
    rcases hsettled.parent with hsame | ⟨parent, hget⟩
    · exact hresolved hactions hbehaviors (hsame ▸ hv)
    · rw [hv] at hget
      cases hget
      cases hf
      exact check_field.2 ⟨some parent, rfl⟩
  · refine hresolved hactions hbehaviors ?_
    rw [← hsettled.kept key (by
      simp [replacedOptions, hactions, hbehaviors, hpermissions, hparent]), hv]

theorem eventPriority_isInt {v : Value} (hv : config.get? "event_priority" = some v) :
    v.int?.isSome = true := by
  obtain ⟨rule, hrule, hyields⟩ := eventPriority_rule catalog
  refine Schema.of_resolve hresolve ((rule?_extend_empty _ _).trans hrule) hyields ?_
  rw [← hsettled.kept "event_priority" (by decide), hv]

/-- A resource is built if its event priority fits. -/
theorem resource_decodes (hfits : oversized? config = none) :
    ∃ record, ResourceRecord.decode config = .ok record := by
  refine ResourceRecord.decode_succeeds (checkPresent_eq_ok.2 (fun key v f hv hf => ?_))
    (fun key hkey => ?_)
  · by_cases hpriority : key = "event_priority"
    · subst hpriority
      obtain ⟨n, hn⟩ := Option.isSome_iff_exists.1 (eventPriority_isInt hresolve hsettled hv)
      cases hf
      refine check_field.2 (integer_accepts.2 ⟨n, hn, ?_⟩)
      simpa [oversized?, hv, hn] using hfits
    · exact check_of_settled hresolve hsettled hpriority hv hf
  · have hkept : key ∉ replacedOptions := by
      revert key
      decide
    rw [hsettled.kept key hkept]
    exact required_isSome hresolve hkey

/-- An oversized event priority is what is wrong with a resource. -/
theorem resource_fails {n : Int} (hoversized : oversized? config = some n) :
    ResourceRecord.decode config = .error (outOfBounds n) := by
  obtain ⟨hint, hsigned⟩ := Option.filter_eq_some_iff.1 hoversized
  obtain ⟨v, hv, hn⟩ := Option.bind_eq_some_iff.1 hint
  refine ResourceRecord.decode_fails (checkPresent_eq_error (f := integer.field "event_priority")
    hv rfl ?_ (fun other w g hother hw hg => check_of_settled hresolve hsettled hother hw hg))
  show (integer.decode v).map (fun _ => ()) = _
  rw [integer_decode_of_unsigned hn (by simpa using hsigned)]
  rfl

end Resources

end Entries

/-- A look-up in a registry of the kind fails only for texts that lead nowhere. -/
def FindsAll (ρ : Type) [EntityRecord ρ] (compiled : Compiled) : Prop :=
  ∀ (g : Registry ρ) name f, g.set = compiled.sets.get (EntityRecord.kind ρ) →
    g.defaults = compiled.kindDefaults (EntityRecord.kind ρ) →
    ((Registry.find name).ask g).1 = .error f → f = .notFound (EntityRecord.kind ρ) name

/-- What is wrong with a resource. -/
def resourceVerdict (name : String) (config : Options) : Option Failure :=
  (oversized? config).map (oversizedFailure name)

section Compiled

variable {r : Resolver} {t t' : SchemaTables} {store : EntryStore} {time : Timestamp}
variable {compiled : Compiled} {collisions : List AliasCollision}
variable (hextensions : r.extensions = [])
variable (hkinds : ∀ kind, r.kindInForce t kind = r.kindSchema kind)
variable (h : (compile r time store).Returns t (compiled, collisions) t')
include hextensions hkinds h

/-- No entry is refused whose record is built from everything that the schema of its kind
resolves. -/
theorem judged_of_decodes {ρ : Type} [EntityRecord ρ]
    (hkind : EntityRecord.kind ρ ≠ .resource)
    (hdecodes : ∀ raw config, (Schema.empty.extend
        (Baseline.schemaOf r.catalog (EntityRecord.kind ρ))).resolve raw = .ok config →
      ∃ record : ρ, EntityRecord.decode config = .ok record) :
    Registry.Judged ρ (fun _ _ => none) (compiled.sets.get (EntityRecord.kind ρ)) := by
  intro name config hconfig
  obtain ⟨raw, hraw⟩ := compiled_resolved hkinds h hkind hconfig
  rw [kindSchema_of_no_extensions hextensions] at hraw
  obtain ⟨record, hrecord⟩ := hdecodes raw config hraw
  unfold EntityRecord.construct
  rw [hrecord]
  rfl

theorem judged_resources :
    Registry.Judged ResourceRecord resourceVerdict compiled.sets.resources := by
  intro name config hconfig
  obtain ⟨raw, resolved, hraw, hsettled⟩ := compiled_settled hkinds h hconfig
  rw [kindSchema_of_no_extensions hextensions] at hraw
  have hresolve : (Schema.empty.extend (Baseline.schemaOf r.catalog .resource)).resolve raw =
    .ok resolved := hraw
  unfold EntityRecord.construct resourceVerdict
  cases hoversized : oversized? config with
  | none =>
      obtain ⟨record, hrecord⟩ := resource_decodes hresolve hsettled hoversized
      have hdecode : (EntityRecord.decode config : Except String ResourceRecord) =
        .ok record := hrecord
      rw [hdecode]
      rfl
  | some n =>
      have hdecode : (EntityRecord.decode config : Except String ResourceRecord) =
        .error (outOfBounds n) := resource_fails hresolve hsettled hoversized
      rw [hdecode]
      rfl

theorem findsAll_of_judged {ρ : Type} [EntityRecord ρ]
    (hjudged : Registry.Judged ρ (fun _ _ => none) (compiled.sets.get (EntityRecord.kind ρ))) :
    FindsAll ρ compiled := by
  intro g name f hset hdefaults hfails
  rw [compiled_defaults hkinds h hextensions] at hdefaults
  rcases Registry.find_fails_of_judged hdefaults (hset ▸ hjudged) hfails with
    hmissing | ⟨config, -, hverdict⟩
  · exact hmissing
  · cases hverdict

theorem judged_permissions :
    Registry.Judged PermissionRecord (fun _ _ => none) compiled.sets.permissions :=
  judged_of_decodes hextensions hkinds h nofun (fun _ _ => permission_decodes)

theorem judged_namespaces :
    Registry.Judged NamespaceRecord (fun _ _ => none) compiled.sets.namespaces :=
  judged_of_decodes hextensions hkinds h nofun (fun _ _ => namespace_decodes)

theorem judged_actions :
    Registry.Judged ActionRecord (fun _ _ => none) compiled.sets.actions :=
  judged_of_decodes hextensions hkinds h nofun (fun _ _ => action_decodes)

theorem judged_behaviors :
    Registry.Judged BehaviorRecord (fun _ _ => none) compiled.sets.behaviors :=
  judged_of_decodes hextensions hkinds h nofun (fun _ _ => behavior_decodes)

/-- Of all entries the least oversized resource is refused first. -/
theorem firstRefusal?_ofCompiled :
    (Registries.ofCompiled compiled).firstRefusal? =
      compiled.sets.resources.configs.findSome? resourceVerdict := by
  have hempty := compiled_defaults hkinds h hextensions
  have hnone : ∀ m : SortedMap Options,
      m.findSome? (fun _ _ => (none : Option Failure)) = none :=
    fun m => List.findSome?_eq_none_iff.2 (fun _ _ => rfl)
  unfold Registries.firstRefusal? Registries.ofCompiled
  rw [Registry.firstRefusal?_eq (hempty .permission) rfl
      (judged_permissions hextensions hkinds h),
    Registry.firstRefusal?_eq (hempty .nameSpace) rfl (judged_namespaces hextensions hkinds h),
    Registry.firstRefusal?_eq (hempty .action) rfl (judged_actions hextensions hkinds h),
    Registry.firstRefusal?_eq (hempty .behavior) rfl (judged_behaviors hextensions hkinds h),
    Registry.firstRefusal?_eq (hempty .resource) rfl (judged_resources hextensions hkinds h)]
  simp only [hnone, Option.none_or]
  rfl

theorem resource_find_fails {g : Registry ResourceRecord} {name : String} {f : Failure}
    (hset : g.set = compiled.sets.resources)
    (hdefaults : g.defaults = compiled.kindDefaults .resource)
    (hfails : ((Registry.find name).ask g).1 = .error f) :
    f = .notFound .resource name ∨
      ∃ config n, compiled.sets.resources.configs.get? (g.canonical name) = some config ∧
        oversized? config = some n ∧ f = oversizedFailure (g.canonical name) n := by
  rw [compiled_defaults hkinds h hextensions] at hdefaults
  rcases Registry.find_fails_of_judged hdefaults
    (hset ▸ judged_resources hextensions hkinds h) hfails with
    hmissing | ⟨config, hconfig, hverdict⟩
  · exact Or.inl hmissing
  · obtain ⟨n, hn, rfl⟩ := Option.map_eq_some_iff.1 hverdict
    exact Or.inr ⟨config, n, hset ▸ hconfig, hn, rfl⟩

/-- Without extensions all records of a compiled configuration are built, up to the least
resource whose event priority is oversized; the answer is the number of all entries.
Whatever the registries built before, only such a resource is ever refused. -/
theorem warm_up :
    (Registries.warmUp.ask (.ofCompiled compiled)).1 =
      (match compiled.sets.resources.configs.findSome? resourceVerdict with
      | some f => .error f
      | none => .ok (compiled.sets.permissions.size + compiled.sets.namespaces.size +
          compiled.sets.actions.size + compiled.sets.behaviors.size +
          compiled.sets.resources.size)) ∧
    FindsAll PermissionRecord compiled ∧ FindsAll NamespaceRecord compiled ∧
    FindsAll ActionRecord compiled ∧ FindsAll BehaviorRecord compiled ∧
    ∀ (g : Registry ResourceRecord) name f, g.set = compiled.sets.resources →
      g.defaults = compiled.kindDefaults .resource →
      ((Registry.find name).ask g).1 = .error f →
      f = .notFound .resource name ∨
        ∃ config n, compiled.sets.resources.configs.get? (g.canonical name) = some config ∧
          oversized? config = some n ∧ f = oversizedFailure (g.canonical name) n := by
  refine ⟨?_, findsAll_of_judged hextensions hkinds h (judged_permissions hextensions hkinds h),
    findsAll_of_judged hextensions hkinds h (judged_namespaces hextensions hkinds h),
    findsAll_of_judged hextensions hkinds h (judged_actions hextensions hkinds h),
    findsAll_of_judged hextensions hkinds h (judged_behaviors hextensions hkinds h),
    fun _ _ _ => resource_find_fails hextensions hkinds h⟩
  rw [Registries.ask_warmUp, firstRefusal?_ofCompiled hextensions hkinds h]
  rfl

end Compiled

namespace Fair

def resolver : Resolver := Resolver.ofCatalog Catalog.empty

/-- A fair has a parade, whose event priority is given. -/
def store (priority : Int) : EntryStore where
  catalog := resolver.catalog
  entries :=
    { permissions := ∅
      actions := ∅
      behaviors := ∅
      namespaces := SortedMap.singleton "fair" ∅
      resources := SortedMap.singleton "parade" (SortedMap.ofList [
        ("entity", .string "Parade"), ("namespace", .string "fair"),
        ("event_priority", .int priority)]) }

def question (priority : Int) : Resolution (Compiled × List AliasCollision) :=
  compile resolver ⟨0, 0, 0⟩ (store priority)

/-- The least number that does not fit. -/
def oversized : Int := 9223372036854775808

/-- No resource is refused, and there are two entries. -/
def fits (compiled : Compiled) : Bool :=
  compiled.sets.resources.configs.findSome? resourceVerdict == none &&
    compiled.sets.permissions.size + compiled.sets.namespaces.size +
      compiled.sets.actions.size + compiled.sets.behaviors.size +
      compiled.sets.resources.size == 2

end Fair

theorem warm_up_fair :
    (∃ compiled collisions t', (Fair.question 5).Returns .empty (compiled, collisions) t' ∧
      (Registries.warmUp.ask (.ofCompiled compiled)).1 = .ok 2) ∧
    ∃ compiled collisions t',
      (Fair.question Fair.oversized).Returns .empty (compiled, collisions) t' ∧
      (Registries.warmUp.ask (.ofCompiled compiled)).1 =
        .error (oversizedFailure "parade" Fair.oversized) := by
  constructor
  · obtain ⟨⟨compiled, collisions⟩, t', h, htest⟩ := returns_of_any
      (x := Fair.question 5) (t := .empty) (p := fun result => Fair.fits result.1)
      (by decide +kernel)
    refine ⟨compiled, collisions, t', h, ?_⟩
    simp only [Fair.fits, Bool.and_eq_true, beq_iff_eq] at htest
    rw [(warm_up rfl Fair.resolver.kindInForce_empty h).1, htest.1]
    exact congrArg Except.ok htest.2
  · obtain ⟨⟨compiled, collisions⟩, t', h, htest⟩ := returns_of_any
      (x := Fair.question Fair.oversized) (t := .empty)
      (p := fun result => result.1.sets.resources.configs.findSome? resourceVerdict ==
        some (oversizedFailure "parade" Fair.oversized))
      (by decide +kernel)
    refine ⟨compiled, collisions, t', h, ?_⟩
    rw [(warm_up rfl Fair.resolver.kindInForce_empty h).1, beq_iff_eq.1 htest]

/-- What compiles cannot always be constructed. -/
theorem parade_not_built :
    ¬ ∀ (r : Resolver) (time : Timestamp) (store : EntryStore) (t : SchemaTables)
        (compiled : Compiled) (collisions : List AliasCollision) (t' : SchemaTables),
      r.extensions = [] → (∀ kind, r.kindInForce t kind = r.kindSchema kind) →
      (compile r time store).Returns t (compiled, collisions) t' →
      (Registries.warmUp.ask (.ofCompiled compiled)).1 =
        .ok (Registries.ofCompiled compiled).size := by
  intro halways
  obtain ⟨⟨compiled, collisions⟩, t', h, htest⟩ := returns_of_any
    (x := Fair.question Fair.oversized) (t := .empty)
    (p := fun result => (Registries.warmUp.ask (.ofCompiled result.1)).1.toOption.isNone)
    (by decide +kernel)
  have hanswer := halways _ _ _ _ _ _ _ rfl Fair.resolver.kindInForce_empty h
  simp [hanswer, Except.toOption] at htest

end ConfigCompiler
