import ConfigCompiler.Proofs.KindSchemas
import ConfigCompiler.Proofs.SchemaLaws

/-!
# Contributions stay with their option

A schema is told about many options by many statements, from the baseline and from every
extension.  Only the statements about one option, in their order, and the last word on
options that nobody defines make a difference.  So extensions that share no option can change
places.

**Input.**  `Contribution.Alike` compares two lists of statements option by option, and
`Contribution.Apart` says that two lists have no option in common.

**Relations.**  `Schema.SameAnswers` compares schemas, and `Resolver.SameAnswersAbout` and
`Resolver.SameDefaultsOf` compare resolvers, by what can be asked about them.

**Results.**
* `Schema.extend_eq_of_alike`: statements that are alike make the same schema.
* `Contribution.Apart.alike_swap`: lists that are apart can change places.
* `KindSchema.ofExtensions_eq`: a kind is made by the statements of all extensions in a row.
* `Resolver.sameAnswersAbout_of_swap`, `Resolver.sameDefaultsOf_of_swap`: extensions that are
  apart can change places.
* `contributions_stay_local`: all of this, and what is defined or required stays so.
-/

namespace ConfigCompiler

/-- If of any two members one has its property, all members of one of the lists have it. -/
theorem forall_or_forall {α β : Type} {P : α → Prop} {Q : β → Prop} {as : List α} {bs : List β}
    (h : ∀ a ∈ as, ∀ b ∈ bs, P a ∨ Q b) : (∀ a ∈ as, P a) ∨ ∀ b ∈ bs, Q b := by
  by_cases hall : ∀ a ∈ as, P a
  · exact Or.inl hall
  · refine Or.inr (fun b hb => Classical.byContradiction (fun hnot => hall (fun a ha => ?_)))
    exact (h a ha b hb).resolve_right hnot

namespace Contribution

variable {cs cs' : List Contribution} {allowed : Bool} {key : String}

/-- What a statement says about options that nobody defines. -/
def allowance? : Contribution → Option Bool
  | .allowUndefined allow => some allow
  | _ => none

/-- The last word of a list of statements on options that nobody defines. -/
def lastAllowance? (cs : List Contribution) : Option Bool :=
  (cs.filterMap allowance?).getLast?

/-- Two lists of statements that say the same about every option, each in its order, and end
up with the same word on options that nobody defines. -/
structure Alike (allowed : Bool) (cs cs' : List Contribution) : Prop where
  about : ∀ key, Contribution.about key cs = Contribution.about key cs'
  allowance : (lastAllowance? cs).getD allowed = (lastAllowance? cs').getD allowed

/-- No option has statements in both lists, and at most one of them has a word on options
that nobody defines. -/
structure Apart (cs cs' : List Contribution) : Prop where
  options : ∀ c ∈ cs, ∀ c' ∈ cs', ∀ key, c.key? = some key → c'.key? ≠ some key
  allowance : lastAllowance? cs = none ∨ lastAllowance? cs' = none

theorem lastAllowance?_append (cs more : List Contribution) :
    lastAllowance? (cs ++ more) = (lastAllowance? more).or (lastAllowance? cs) := by
  unfold lastAllowance?
  rw [List.filterMap_append, List.getLast?_append]

theorem lastAllowance?_eq_none :
    lastAllowance? cs = none ↔ ∀ c ∈ cs, c.allowance? = none := by
  rw [lastAllowance?, List.getLast?_eq_none_iff, List.filterMap_eq_nil_iff]

theorem about_eq_nil : Contribution.about key cs = [] ↔ ∀ c ∈ cs, c.key? ≠ some key := by
  simp [Contribution.about, List.filter_eq_nil_iff]

/-- One of two lists that are apart says nothing about an option. -/
theorem Apart.about_eq_nil (h : Apart cs cs') (key : String) :
    Contribution.about key cs = [] ∨ Contribution.about key cs' = [] := by
  rw [Contribution.about_eq_nil, Contribution.about_eq_nil]
  exact forall_or_forall (fun c hc c' hc' => Decidable.not_or_of_imp (h.options c hc c' hc' key))

/-- Lists that are apart can change places. -/
theorem Apart.alike_swap (h : Apart cs cs') (allowed : Bool)
    (before after : List Contribution) :
    Alike allowed (before ++ cs ++ cs' ++ after) (before ++ cs' ++ cs ++ after) where
  about := by
    intro key
    rcases h.about_eq_nil key with hnil | hnil <;> simp [hnil]
  allowance := by
    rcases h.allowance with hnone | hnone <;> simp [lastAllowance?_append, hnone]

/-- Lists put together from pieces are apart if every piece of one is apart from every piece
of the other. -/
theorem apart_flatMap {α : Type} {first second : List α} {f : α → List Contribution}
    (h : ∀ a ∈ first, ∀ b ∈ second, Apart (f a) (f b)) :
    Apart (first.flatMap f) (second.flatMap f) where
  options := by
    intro c hc c' hc'
    obtain ⟨a, ha, hmem⟩ := List.mem_flatMap.1 hc
    obtain ⟨b, hb, hmem'⟩ := List.mem_flatMap.1 hc'
    exact (h a ha b hb).options c hmem c' hmem'
  allowance := by
    simp only [lastAllowance?_eq_none, List.forall_mem_flatMap]
    refine forall_or_forall (fun a ha b hb => ?_)
    rw [← lastAllowance?_eq_none, ← lastAllowance?_eq_none]
    exact (h a ha b hb).allowance

end Contribution

namespace Schema

variable {s : Schema} {cs cs' : List Contribution}

theorem extend_append (s : Schema) (cs more : List Contribution) :
    s.extend (cs ++ more) = (s.extend cs).extend more :=
  List.foldl_append

theorem allowsUndefined_apply (s : Schema) (c : Contribution) :
    (s.apply c).allowsUndefined = c.allowance?.getD s.allowsUndefined := by
  cases c <;> rfl

/-- The last word counts on options that nobody defines. -/
theorem allowsUndefined_extend (s : Schema) (cs : List Contribution) :
    (s.extend cs).allowsUndefined =
      (Contribution.lastAllowance? cs).getD s.allowsUndefined := by
  induction cs generalizing s with
  | nil => rfl
  | cons c rest ih =>
      show ((s.apply c).extend rest).allowsUndefined = _
      rw [ih, allowsUndefined_apply]
      show _ = (Contribution.lastAllowance? ([c] ++ rest)).getD s.allowsUndefined
      rw [Contribution.lastAllowance?_append]
      cases Contribution.lastAllowance? rest with
      | some allow => rfl
      | none => cases c <;> rfl

/-- Statements that are alike make the same schema. -/
theorem extend_eq_of_alike (h : Contribution.Alike s.allowsUndefined cs cs') :
    s.extend cs = s.extend cs' := by
  have hrules : (s.extend cs).rules = (s.extend cs').rules := by
    apply SortedMap.ext_get?
    intro key
    rw [rule?_extend, rule?_extend, h.about key]
  have hallowed : (s.extend cs).allowsUndefined = (s.extend cs').allowsUndefined := by
    rw [allowsUndefined_extend, allowsUndefined_extend, h.allowance]
  calc s.extend cs
      = ⟨(s.extend cs).rules, (s.extend cs).allowsUndefined⟩ := rfl
    _ = ⟨(s.extend cs').rules, (s.extend cs').allowsUndefined⟩ := by rw [hrules, hallowed]

/-- Two schemas that nobody can tell apart. -/
structure SameAnswers (s s' : Schema) : Prop where
  defines : ∀ key, s.defines key = s'.defines key
  requires : ∀ key, s.requires key = s'.requires key
  definedKeys : s.definedKeys = s'.definedKeys
  defaultOf? : ∀ key, s.defaultOf? key = s'.defaultOf? key
  resolve : ∀ raw, s.resolve raw = s'.resolve raw

theorem SameAnswers.refl (s : Schema) : s.SameAnswers s :=
  ⟨fun _ => rfl, fun _ => rfl, rfl, fun _ => rfl, fun _ => rfl⟩

end Schema

namespace Options

/-- Two lists of bags that have no option in common. -/
def ApartBags (bags bags' : List Options) : Prop :=
  ∀ bag ∈ bags, ∀ bag' ∈ bags', ∀ key, bag.contains key = true → bag'.contains key = false

/-- Lay a value over what an option holds. -/
def layOver (under : Option Value) (top : Value) : Option Value :=
  some (match under with
    | some base => base.overlay top
    | none => top)

/-- Bags laid over each other, option by option. -/
theorem get?_foldl_merge (bags : List Options) (base : Options) (key : String) :
    (bags.foldl merge base).get? key =
      (bags.filterMap (fun bag => bag.get? key)).foldl layOver (base.get? key) := by
  induction bags generalizing base with
  | nil => rfl
  | cons bag rest ih =>
      rw [List.foldl_cons, ih, get?_merge, List.filterMap_cons]
      cases bag.get? key with
      | none => cases base.get? key <;> rfl
      | some top => cases base.get? key <;> rfl

theorem ApartBags.filterMap_eq_nil {bags bags' : List Options} (h : ApartBags bags bags')
    (key : String) :
    bags.filterMap (fun bag => bag.get? key) = [] ∨
      bags'.filterMap (fun bag => bag.get? key) = [] := by
  simp only [List.filterMap_eq_nil_iff]
  refine forall_or_forall (fun bag hbag bag' hbag' => ?_)
  have hapart := h bag hbag bag' hbag' key
  rw [SortedMap.contains_eq_isSome, SortedMap.contains_eq_isSome] at hapart
  cases hget : bag.get? key with
  | none => exact Or.inl rfl
  | some v =>
      rw [hget] at hapart
      exact Or.inr (Option.isSome_eq_false_iff.1 (hapart rfl) |> Option.isNone_iff_eq_none.1)

/-- Bags without a common option can change places. -/
theorem foldl_merge_swap {bags bags' : List Options} (h : ApartBags bags bags')
    (before after : List Options) (base : Options) :
    (before ++ bags ++ bags' ++ after).foldl merge base =
      (before ++ bags' ++ bags ++ after).foldl merge base := by
  apply SortedMap.ext_get?
  intro key
  rw [get?_foldl_merge, get?_foldl_merge]
  rcases h.filterMap_eq_nil key with hnil | hnil <;> simp [hnil]

theorem apartBags_flatMap {α : Type} {first second : List α} {f : α → List Options}
    (h : ∀ a ∈ first, ∀ b ∈ second, ApartBags (f a) (f b)) :
    ApartBags (first.flatMap f) (second.flatMap f) := by
  intro bag hbag bag' hbag'
  obtain ⟨a, ha, hmem⟩ := List.mem_flatMap.1 hbag
  obtain ⟨b, hb, hmem'⟩ := List.mem_flatMap.1 hbag'
  exact h a ha b hb bag hmem bag' hmem'

end Options

namespace KindSchema

/-- The statements of a list of extensions about a kind, in a row. -/
def statements (extensions : List Extension) (kind : EntityKind) : List Contribution :=
  extensions.flatMap (fun e => (e.ofKind kind).schema)

/-- The bags of a list of extensions for a kind, in a row. -/
def bags (extensions : List Extension) (kind : EntityKind) : List Options :=
  extensions.flatMap (fun e => (e.ofKind kind).defaults)

theorem foldl_extend_eq (extensions : List Extension) (kind : EntityKind) (k : KindSchema) :
    extensions.foldl (fun k e => k.extend (e.ofKind kind)) k =
      ⟨k.schema.extend (statements extensions kind),
        (bags extensions kind).foldl Options.merge k.defaults⟩ := by
  induction extensions generalizing k with
  | nil => rfl
  | cons e rest ih =>
      rw [List.foldl_cons, ih]
      unfold statements bags
      rw [List.flatMap_cons, List.flatMap_cons, Schema.extend_append, List.foldl_append]
      rfl

/-- A kind is made by the statements and the bags of all extensions in a row. -/
theorem ofExtensions_eq (extensions : List Extension) (kind : EntityKind) :
    ofExtensions extensions kind =
      ⟨Schema.empty.extend (statements extensions kind),
        (bags extensions kind).foldl Options.merge ∅⟩ :=
  foldl_extend_eq extensions kind empty

end KindSchema

namespace Resolver

open Resolution

variable {r r' : Resolver} {kind : EntityKind} {t t' : SchemaTables}

/-- The resolver with other extensions after the baseline. -/
def withExtensions (r : Resolver) (extensions : List Extension) : Resolver :=
  { r with extensions := extensions }

/-- Every question about the kind has the same answer from both resolvers, whatever each was
asked before. -/
structure SameAnswersAbout (kind : EntityKind) (r r' : Resolver) : Prop where
  entry : ∀ t t' key raw, r.SameKinds .empty t → r'.SameKinds .empty t' →
    ((r'.resolveEntry kind key raw).ask t').1 = ((r.resolveEntry kind key raw).ask t).1
  resource : kind = .resource → ∀ t t' key raw namespaces permissions,
    r.SameKinds .empty t → r'.SameKinds .empty t' →
    ((r'.resolveResource key raw namespaces permissions).ask t').1 =
      ((r.resolveResource key raw namespaces permissions).ask t).1
  options : ∀ t t', r.SameKinds .empty t → r'.SameKinds .empty t' →
    ((r'.definedOptions kind).ask t').1 = ((r.definedOptions kind).ask t).1

/-- Both resolvers lay the same defaults under the entries of the kind. -/
def SameDefaultsOf (kind : EntityKind) (r r' : Resolver) : Prop :=
  ∀ t t', r.SameKinds .empty t → r'.SameKinds .empty t' →
    ((r'.kindDefaults kind).ask t').1 = ((r.kindDefaults kind).ask t).1

/-- Tables that only questions have filled answer by the schemas that the extensions make. -/
theorem SameKinds.kindInForce_eq (h : r.SameKinds .empty t) (kind : EntityKind) :
    r.kindInForce t kind = r.kindSchema kind := by
  rw [h kind, kindInForce_empty]

theorem answer_definedOptions (r : Resolver) (t : SchemaTables) (kind : EntityKind) :
    ((r.definedOptions kind).ask t).1 = .ok (r.kindInForce t kind).schema.definedKeys := by
  unfold definedOptions
  rw [ask_bind, ask_kindSchemaM]
  rfl

theorem answer_kindDefaults (r : Resolver) (t : SchemaTables) (kind : EntityKind) :
    ((r.kindDefaults kind).ask t).1 = .ok (r.kindInForce t kind).defaults := by
  unfold kindDefaults
  rw [ask_bind, ask_kindSchemaM]
  rfl

/-- A question about a resource resolves its entry and checks its references. -/
theorem answer_resolveResource_eq (r : Resolver) (t : SchemaTables) (key : String)
    (raw : Options) (namespaces permissions : SortedMap Options) :
    ((r.resolveResource key raw namespaces permissions).ask t).1 =
      (do
        let resolved ← r.entryAnswer t .resource key raw
        checkNamespace resolved (entryName resolved key) namespaces
        checkPermissions resolved (entryName resolved key) permissions
        pure resolved) := by
  unfold resolveResource
  rw [ask_bind, entryAnswer_eq, ask_resolveEntry]
  cases (r.kindInForce t .resource).schema.resolve (withName .resource key raw) with
  | error violation => rfl
  | ok resolved =>
      show (ask (liftM (checkNamespace resolved _ namespaces) >>= _) _).1 =
        checkNamespace resolved _ namespaces >>= _
      rw [ask_bind]
      cases checkNamespace resolved (entryName resolved key) namespaces with
      | error f => rfl
      | ok _ =>
          show (ask (liftM (checkPermissions resolved _ permissions) >>= _) _).1 =
            checkPermissions resolved _ permissions >>= _
          rw [ask_bind]
          cases checkPermissions resolved (entryName resolved key) permissions <;> rfl

/-- Resolvers that make the same schema of a kind answer alike about it. -/
theorem sameAnswersAbout_of_schema
    (h : (r'.kindSchema kind).schema = (r.kindSchema kind).schema) :
    SameAnswersAbout kind r r' := by
  have hentry : ∀ t t' key raw, r.SameKinds .empty t → r'.SameKinds .empty t' →
      r'.entryAnswer t' kind key raw = r.entryAnswer t kind key raw := by
    intro t t' key raw ht ht'
    rw [entryAnswer_eq, entryAnswer_eq, ht.kindInForce_eq, ht'.kindInForce_eq, h]
  refine ⟨hentry, ?_, fun t t' ht ht' => ?_⟩
  · rintro rfl t t' key raw namespaces permissions ht ht'
    rw [answer_resolveResource_eq, answer_resolveResource_eq, hentry t t' key raw ht ht']
  · rw [answer_definedOptions, answer_definedOptions, ht.kindInForce_eq, ht'.kindInForce_eq, h]

section Swap

variable {first second : List Extension}

/-- Extensions that share no option of a kind can change places. -/
theorem sameAnswersAbout_of_swap
    (h : ∀ e ∈ first, ∀ e' ∈ second,
      Contribution.Apart (e.ofKind kind).schema (e'.ofKind kind).schema)
    (r : Resolver) (before after : List Extension) :
    SameAnswersAbout kind (r.withExtensions (before ++ first ++ second ++ after))
      (r.withExtensions (before ++ second ++ first ++ after)) := by
  apply sameAnswersAbout_of_schema
  have hswap := Contribution.Apart.alike_swap (Contribution.apart_flatMap h) false
    (KindSchema.statements (Baseline.extension r.catalog :: before) kind)
    (KindSchema.statements after kind)
  have hschema := Schema.extend_eq_of_alike (s := Schema.empty) hswap
  unfold kindSchema
  rw [KindSchema.ofExtensions_eq, KindSchema.ofExtensions_eq]
  simpa [KindSchema.statements, allExtensions, withExtensions] using hschema.symm

/-- The order of extensions whose bags share no option makes no difference to the defaults. -/
theorem sameDefaultsOf_of_swap
    (h : ∀ e ∈ first, ∀ e' ∈ second,
      Options.ApartBags (e.ofKind kind).defaults (e'.ofKind kind).defaults)
    (r : Resolver) (before after : List Extension) :
    SameDefaultsOf kind (r.withExtensions (before ++ first ++ second ++ after))
      (r.withExtensions (before ++ second ++ first ++ after)) := by
  intro t t' ht ht'
  have hswap := Options.foldl_merge_swap (Options.apartBags_flatMap h)
    (KindSchema.bags (Baseline.extension r.catalog :: before) kind)
    (KindSchema.bags after kind) ∅
  rw [answer_kindDefaults, answer_kindDefaults, ht.kindInForce_eq, ht'.kindInForce_eq]
  unfold kindSchema
  rw [KindSchema.ofExtensions_eq, KindSchema.ofExtensions_eq]
  simpa [KindSchema.bags, allExtensions, withExtensions] using hswap.symm

end Swap

/-- The schema that the baseline alone makes of a kind. -/
def baselineSchema (r : Resolver) (kind : EntityKind) : Schema :=
  Schema.empty.extend (Baseline.schemaOf r.catalog kind)

/-- Every schema of a kind extends that of the baseline. -/
theorem schema_kindSchema (r : Resolver) (kind : EntityKind) :
    (r.kindSchema kind).schema =
      (r.baselineSchema kind).extend (KindSchema.statements r.extensions kind) := by
  unfold kindSchema allExtensions baselineSchema
  rw [KindSchema.ofExtensions_eq, ← Schema.extend_append]
  rfl

/-- What the baseline requires, every accepted entry has. -/
theorem contains_of_baseline {key name : String} {raw resolved : Options}
    (hkey : (r.baselineSchema kind).requires key = true) (ht : r.SameKinds .empty t)
    (h : r.entryAnswer t kind name raw = .ok resolved) : resolved.contains key = true := by
  rw [entryAnswer_eq_ok, ht.kindInForce_eq, schema_kindSchema] at h
  have hrequired := Schema.requires_extend hkey (KindSchema.statements r.extensions kind)
  obtain ⟨rule, hrule, hrule_requires⟩ := (Option.any_eq_true _ _).1 hrequired
  rw [SortedMap.contains_eq_isSome]
  exact Schema.isSome_of_required h hrule hrule_requires

end Resolver

/-- Statements about options stay with their option.  Lists of statements that say the same
about each option make schemas that nobody can tell apart.  Extensions that share no option of
a kind can change places, and no question about the kind is answered differently; nor are its
defaults different if the bags share no option either.  What is defined or required stays so,
whatever is stated later: so what the baseline requires is required whatever extensions there
are, and there in every accepted entry. -/
theorem contributions_stay_local :
    (∀ (s : Schema) (cs cs' : List Contribution),
      Contribution.Alike s.allowsUndefined cs cs' →
        (s.extend cs).SameAnswers (s.extend cs')) ∧
    (∀ (r : Resolver) (kind : EntityKind) (before first second after : List Extension),
      (∀ e ∈ first, ∀ e' ∈ second,
        Contribution.Apart (e.ofKind kind).schema (e'.ofKind kind).schema) →
      Resolver.SameAnswersAbout kind (r.withExtensions (before ++ first ++ second ++ after))
        (r.withExtensions (before ++ second ++ first ++ after)) ∧
      ((∀ e ∈ first, ∀ e' ∈ second,
        Options.ApartBags (e.ofKind kind).defaults (e'.ofKind kind).defaults) →
        Resolver.SameDefaultsOf kind (r.withExtensions (before ++ first ++ second ++ after))
          (r.withExtensions (before ++ second ++ first ++ after)))) ∧
    (∀ (s : Schema) (later : List Contribution) (key : String),
      (s.defines key = true → (s.extend later).defines key = true) ∧
      (s.requires key = true → (s.extend later).requires key = true)) ∧
    ∀ (r : Resolver) (kind : EntityKind) (key : String),
      (r.baselineSchema kind).requires key = true →
        (r.kindSchema kind).schema.requires key = true ∧
        ∀ t name raw resolved, r.SameKinds .empty t →
          r.entryAnswer t kind name raw = .ok resolved → resolved.contains key = true := by
  refine ⟨fun s cs cs' h => ?_, fun r kind before first second after h =>
    ⟨Resolver.sameAnswersAbout_of_swap h r before after,
      fun hbags => Resolver.sameDefaultsOf_of_swap hbags r before after⟩,
    fun s later key => ⟨fun h => Schema.defines_extend h later,
      fun h => Schema.requires_extend h later⟩, fun r kind key hkey => ⟨?_, ?_⟩⟩
  · rw [Schema.extend_eq_of_alike h]
    exact Schema.SameAnswers.refl _
  · rw [Resolver.schema_kindSchema]
    exact Schema.requires_extend hkey _
  · exact fun t name raw resolved ht h => Resolver.contains_of_baseline hkey ht h

namespace Badges

/-- It gives permissions a colour. -/
def coloured : Extension where
  name := "coloured"
  ofKind := fun _ => {
    schema := [.default "colour" (.string "green"), .types "colour" [.string]]
    defaults := [SortedMap.singleton "colour" (.string "green")] }

/-- It wants a note on permissions, and accepts whatever else is written down. -/
def noted : Extension where
  name := "noted"
  ofKind := fun _ => {
    schema := [.require "note", .allowUndefined true]
    defaults := [SortedMap.singleton "note" (.string "none")] }

def resolver : Resolver := Resolver.ofCatalog .empty

def visitor : Options :=
  SortedMap.ofList [("note", .string "by day"), ("number", .int 7)]

theorem apart (kind : EntityKind) : ∀ e ∈ [coloured], ∀ e' ∈ [noted],
    Contribution.Apart (e.ofKind kind).schema (e'.ofKind kind).schema := by
  intro e he e' he'
  cases List.mem_singleton.1 he
  cases List.mem_singleton.1 he'
  exact ⟨by simp [coloured, noted, Contribution.key?], Or.inl rfl⟩

theorem apartBags (kind : EntityKind) : ∀ e ∈ [coloured], ∀ e' ∈ [noted],
    Options.ApartBags (e.ofKind kind).defaults (e'.ofKind kind).defaults := by
  intro e he e' he' bag hbag bag' hbag' key hkey
  cases List.mem_singleton.1 he
  cases List.mem_singleton.1 he'
  cases List.mem_singleton.1 hbag
  cases List.mem_singleton.1 hbag'
  have hcolour : "colour" = key := by
    rw [SortedMap.singleton, SortedMap.contains_insert, Bool.or_eq_true,
      decide_eq_true_eq] at hkey
    exact hkey.resolve_right nofun
  subst hcolour
  decide

/-- The colour is filled in, and the number is kept. -/
def shown (badge : Options) : Bool :=
  badge.str? "colour" == some "green" && badge.contains "number"

theorem visitor_shown : ∃ badge,
    (resolver.withExtensions [coloured, noted]).entryAnswer .empty .permission "visit" visitor =
      .ok badge ∧ shown badge = true :=
  Resolution.check_of_any (by decide +kernel)

end Badges

theorem contributions_stay_local_badges :
    (Schema.empty.extend ((Badges.coloured.ofKind .permission).schema ++
        (Badges.noted.ofKind .permission).schema)).SameAnswers
      (Schema.empty.extend ((Badges.noted.ofKind .permission).schema ++
        (Badges.coloured.ofKind .permission).schema)) ∧
    (∃ badge,
      ((Badges.resolver.withExtensions [Badges.coloured, Badges.noted]).resolveEntry
        .permission "visit" Badges.visitor |>.ask .empty).1 = .ok badge ∧
      ((Badges.resolver.withExtensions [Badges.noted, Badges.coloured]).resolveEntry
        .permission "visit" Badges.visitor |>.ask .empty).1 = .ok badge ∧
      Badges.shown badge = true ∧ badge.contains "name" = true) ∧
    Resolver.SameDefaultsOf .permission
      (Badges.resolver.withExtensions [Badges.coloured, Badges.noted])
      (Badges.resolver.withExtensions [Badges.noted, Badges.coloured]) ∧
    (Schema.empty.extend ([.require "note"] ++ [.define "note"])).requires "note" = true := by
  obtain ⟨hschemas, hswap, hlater, hbaseline⟩ := contributions_stay_local
  obtain ⟨badge, hbadge, hshown⟩ := Badges.visitor_shown
  obtain ⟨hanswers, hdefaults⟩ := hswap Badges.resolver .permission [] [Badges.coloured]
    [Badges.noted] [] (Badges.apart .permission)
  have halike := Contribution.Apart.alike_swap (Badges.apart .permission Badges.coloured
    List.mem_cons_self Badges.noted List.mem_cons_self) Schema.empty.allowsUndefined [] []
  refine ⟨hschemas _ _ _ (by simpa using halike), ⟨badge, hbadge, ?_, hshown, ?_⟩,
    hdefaults (Badges.apartBags .permission), ?_⟩
  · rw [← hbadge]
    exact hanswers.entry .empty .empty "visit" Badges.visitor (.refl _ _) (.refl _ _)
  · exact (hbaseline (Badges.resolver.withExtensions [Badges.coloured, Badges.noted])
      .permission "name" (by decide +kernel)).2 .empty "visit" _ badge (.refl _ _) hbadge
  · rw [Schema.extend_append]
    exact (hlater _ _ "note").2 (by decide +kernel)

end ConfigCompiler
