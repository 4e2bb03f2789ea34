import ConfigCompiler.Proofs.CompiledEntries
import ConfigCompiler.Proofs.StableRules

/-!
# Resolving what is resolved

A bag that was resolved is resolved to itself, if every rule of the schema is stable and
every option that is defined is there.  The schemas of the baseline are of this form, but
for that of namespaces: their prefix may change again.

**Input.**  `Settles cs key`: the statements `cs` make a stable rule of the option, and it
is there once a bag is resolved, being required or having a default.

**Results.**
* `Schema.resolve_again`: what was resolved passes the checks again.
* `Schema.resolve_resolved`: the fixed point, for one schema.
* `permission_settles`, `action_settles`, `behavior_settles`, `resource_settles`: the options
  of four kinds.
* `Baseline.resolve_resolved`: the fixed point, for their schemas.
* `resolved_again`: an entry that was resolved is resolved to itself, whatever was asked in
  between; and a resource keeps what it refers to.
-/

namespace ConfigCompiler

open Resolution

namespace Schema

variable {s : Schema} {raw resolved : Options} {key : String}

/-- Nothing else is in the result than what was given and what is defined. -/
theorem undefinedKey?_resolved (h : s.resolve raw = .ok resolved) :
    s.undefinedKey? resolved = none := by
  have hraw := (resolve_eq_ok h).1
  unfold undefinedKey? at hraw ⊢
  split
  · rfl
  · next hclosed =>
      rw [if_neg hclosed, List.find?_eq_none] at hraw
      rw [List.find?_eq_none]
      intro key hkey
      rw [SortedMap.mem_keys_iff, isSome_of_resolve h, get?_complete] at hkey
      cases hgiven : raw.get? key with
      | some v => exact hraw key ((SortedMap.mem_keys_iff _ _).2 (by rw [hgiven]; rfl))
      | none =>
          rw [hgiven, Option.none_or] at hkey
          -- an option that was not given comes from the default of its rule
          cases hrule : s.rules.get? key with
          | some rule => simp [defines, SortedMap.contains_of_get? hrule]
          | none =>
              rw [default?, hrule] at hkey
              cases hkey

/-- Where every option that is defined is there, no default is needed. -/
theorem complete_eq_self {options : Options}
    (hthere : ∀ key rule, s.rules.get? key = some rule → (options.get? key).isSome = true) :
    s.complete options = options := by
  refine SortedMap.ext_get? (fun key => ?_)
  rw [get?_complete]
  cases hrule : s.rules.get? key with
  | some rule =>
      obtain ⟨v, hv⟩ := Option.isSome_iff_exists.1 (hthere key rule hrule)
      rw [hv, Option.some_or]
  | none =>
      rw [default?, hrule]
      exact Option.or_none

theorem missingKey?_eq_none {options : Options}
    (hthere : ∀ key rule, s.rules.get? key = some rule → (options.get? key).isSome = true) :
    s.missingKey? options = none := by
  refine List.findSome?_eq_none_iff.2 (fun e he => ?_)
  have hrule := (SortedMap.mem_entries_iff _ _ _).1 he
  simp [SortedMap.contains_eq_isSome, hthere e.1 e.2 hrule]

/-- A check that is passed by every option that has a rule is passed. -/
theorem firstViolation?_of_passed {options : Options}
    {check : String → OptionRule → Value → Option Violation}
    (h : ∀ key rule v, s.rules.get? key = some rule → options.get? key = some v →
      check key rule v = none) : s.firstViolation? options check = none := by
  refine List.findSome?_eq_none_iff.2 (fun e he => ?_)
  have hrule := (SortedMap.mem_entries_iff _ _ _).1 he
  show (options.get? e.1).bind (check e.1 e.2) = none
  cases hv : options.get? e.1 with
  | none => rfl
  | some v => exact h e.1 e.2 v hrule hv

/-- A bag that was resolved passes the checks again, if every option that is defined is there
and the rules accept what they made of it.  It is normalized once more. -/
theorem resolve_again (h : s.resolve raw = .ok resolved)
    (hthere : ∀ key rule, s.rules.get? key = some rule → (resolved.get? key).isSome = true)
    (haccepted : ∀ key rule w, s.rules.get? key = some rule → resolved.get? key = some w →
      rule.acceptsType w = true ∧ rule.acceptsValue w = true) :
    s.resolve resolved = resolved.mapM (s.normalizeOption resolved) := by
  have htypes : s.firstViolation? resolved typeViolation? = none :=
    firstViolation?_of_passed (fun key rule w hrule hw => by
      rw [typeViolation?, (haccepted key rule w hrule hw).1]
      rfl)
  have hvalues : s.firstViolation? resolved valueViolation? = none :=
    firstViolation?_of_passed (fun key rule w hrule hw => by
      rw [valueViolation?, (haccepted key rule w hrule hw).2]
      rfl)
  simp only [resolve, undefinedKey?_resolved h, complete_eq_self hthere,
    missingKey?_eq_none hthere, htypes, hvalues]

/-- What a stable rule made of an option is left as it is. -/
theorem normalizeOption_of_stable {options : Options} {w : Value} (h : s.resolve raw = .ok resolved)
    (hstable : ∀ rule, s.rules.get? key = some rule → rule.Stable)
    (hw : resolved.get? key = some w) : s.normalizeOption options key w = .ok w := by
  unfold normalizeOption
  cases hrule : s.rules.get? key with
  | none => rfl
  | some rule =>
      dsimp only
      rw [(of_resolve h hrule (hstable rule hrule) hw).2.2]
      rfl

/-- A bag that was resolved is resolved to itself, if every rule is stable and every option
that is defined is there. -/
theorem resolve_resolved (h : s.resolve raw = .ok resolved)
    (hstable : ∀ key rule, s.rules.get? key = some rule → rule.Stable)
    (hthere : ∀ key rule, s.rules.get? key = some rule → (resolved.get? key).isSome = true) :
    s.resolve resolved = .ok resolved := by
  rw [resolve_again h hthere (fun key rule w hrule hw =>
    have hsettled := of_resolve h hrule (hstable key rule hrule) hw
    ⟨hsettled.1, hsettled.2.1⟩)]
  exact check_mapM_self (fun key w hw => normalizeOption_of_stable h (hstable key) hw)

end Schema

/-- The options that the baseline defines for the entries of a kind. -/
def Baseline.definedOptions : EntityKind → List String
  | .permission => ["name", "label", "translation_domain"]
  | .action => ["name", "class", "route", "permissions", "options", "button", "label"]
  | .behavior => ["name", "class", "interface", "operations", "options"]
  | .nameSpace => ["name", "prefix", "label", "translation_domain"]
  | .resource =>
      ["name", "driver", "namespace", "entity", "interface", "parent", "translation",
        "translatable_fields", "label", "translation_domain", "actions", "behaviors",
        "permissions", "event_class", "event_priority", "options"]

/-- No statement of the baseline is about another option. -/
theorem keys_of_schemaOf (catalog : Catalog) (kind : EntityKind) :
    ((Baseline.schemaOf catalog kind).filterMap Contribution.key?).all
      (fun key => (Baseline.definedOptions kind).contains key) = true := by
  cases kind <;> rfl

/-- An option has a default for every entry that has a name. -/
def OptionRule.HasDefault (rule : OptionRule) : Prop :=
  (∃ v, rule.default? = some (.fixed v)) ∨
    rule.default? = some (.computed Baseline.humanizedName)

/-- The option has a stable rule, and is there once a bag is resolved. -/
def Settles (cs : List Contribution) (key : String) : Prop :=
  ∃ rule, ruleOf? cs key = some rule ∧ rule.Stable ∧ (rule.required = true ∨ rule.HasDefault)

section Settles

variable {cs : List Contribution} {key : String} {rule : OptionRule}

theorem settles_required (hrule : ruleOf? cs key = some rule) (hrequired : rule.required = true)
    (hstable : rule.Stable) : Settles cs key :=
  ⟨rule, hrule, hstable, Or.inl hrequired⟩

theorem settles_fixed {v : Value} (hrule : ruleOf? cs key = some rule)
    (hdefault : rule.default? = some (.fixed v)) (hstable : rule.Stable) : Settles cs key :=
  ⟨rule, hrule, hstable, Or.inr (Or.inl ⟨v, hdefault⟩)⟩

theorem settles_label (hrule : ruleOf? cs key = some rule)
    (hdefault : rule.default? = some (.computed Baseline.humanizedName))
    (hstable : rule.Stable) : Settles cs key :=
  ⟨rule, hrule, hstable, Or.inr (Or.inr hdefault)⟩

/-- An option that has a rule is one that a statement is about. -/
theorem mem_keys_of_ruleOf? (h : ruleOf? cs key = some rule) :
    key ∈ cs.filterMap Contribution.key? := by
  by_contra hkey
  have hnone : Contribution.about key cs = [] := by
    refine List.filter_eq_nil_iff.2 (fun c hc habout => hkey ?_)
    exact List.mem_filterMap.2 ⟨c, hc, of_decide_eq_true habout⟩
  rw [ruleOf?, hnone] at h
  cases h

end Settles

open OptionRule

theorem permission_settles (catalog : Catalog) :
    ∀ key ∈ Baseline.definedOptions .permission,
      Settles (Baseline.schemaOf catalog .permission) key := by
  simp only [Baseline.definedOptions, List.forall_mem_cons]
  exact ⟨settles_required rfl rfl (stable_of_name rfl rfl rfl),
    settles_label rfl rfl (stable_of_plain rfl),
    settles_fixed rfl rfl (stable_of_plain rfl), fun _ hkey => nomatch hkey⟩

theorem action_settles (catalog : Catalog) :
    ∀ key ∈ Baseline.definedOptions .action,
      Settles (Baseline.schemaOf catalog .action) key := by
  simp only [Baseline.definedOptions, List.forall_mem_cons]
  exact ⟨settles_required rfl rfl (stable_of_name rfl rfl rfl),
    settles_required rfl rfl (stable_of_plain rfl),
    settles_fixed rfl rfl (stable_of_plain rfl),
    settles_fixed rfl rfl (stable_of_nameList rfl rfl rfl),
    settles_fixed rfl rfl (stable_of_plain rfl),
    settles_fixed rfl rfl (stable_of_plain rfl),
    settles_label rfl rfl (stable_of_plain rfl), fun _ hkey => nomatch hkey⟩

theorem behavior_settles (catalog : Catalog) :
    ∀ key ∈ Baseline.definedOptions .behavior,
      Settles (Baseline.schemaOf catalog .behavior) key := by
  simp only [Baseline.definedOptions, List.forall_mem_cons]
  exact ⟨settles_required rfl rfl (stable_of_name rfl rfl rfl),
    settles_required rfl rfl (stable_of_plain rfl),
    settles_required rfl rfl (stable_of_plain rfl),
    settles_required rfl rfl (stable_of_operations rfl rfl rfl),
    settles_fixed rfl rfl (stable_of_plain rfl), fun _ hkey => nomatch hkey⟩

theorem resource_settles (catalog : Catalog) :
    ∀ key ∈ Baseline.definedOptions .resource,
      Settles (Baseline.schemaOf catalog .resource) key := by
  simp only [Baseline.definedOptions, List.forall_mem_cons]
  exact ⟨settles_required rfl rfl (stable_of_name rfl rfl rfl),
    settles_required rfl rfl (stable_of_plain rfl),
    settles_required rfl rfl (stable_of_name rfl rfl rfl),
    settles_required rfl rfl (stable_of_plain rfl),
    settles_fixed rfl rfl (stable_of_plain rfl),
    settles_fixed rfl rfl (stable_of_plain rfl),
    settles_fixed rfl rfl (stable_of_plain rfl),
    settles_fixed rfl rfl (stable_of_plain rfl),
    settles_fixed rfl rfl (stable_of_plain rfl),
    settles_fixed rfl rfl (stable_of_plain rfl),
    settles_fixed rfl rfl (stable_of_attachments rfl rfl rfl),
    settles_fixed rfl rfl (stable_of_attachments rfl rfl rfl),
    settles_fixed rfl rfl (stable_of_nameList rfl rfl rfl),
    settles_fixed rfl rfl (stable_of_plain rfl),
    settles_fixed rfl rfl (stable_of_plain rfl),
    settles_fixed rfl rfl (stable_of_plain rfl), fun _ hkey => nomatch hkey⟩

/-- Every option that the baseline defines for the entries of a kind is settled, but for those
of namespaces. -/
theorem settles_of_ruleOf? {catalog : Catalog} {kind : EntityKind} {key : String}
    {rule : OptionRule} (hkind : kind ≠ .nameSpace)
    (hrule : ruleOf? (Baseline.schemaOf catalog kind) key = some rule) :
    Settles (Baseline.schemaOf catalog kind) key := by
  have hkey : key ∈ Baseline.definedOptions kind :=
    List.contains_iff_mem.1
      (List.all_eq_true.1 (keys_of_schemaOf catalog kind) key (mem_keys_of_ruleOf? hrule))
  cases kind with
  | permission => exact permission_settles catalog key hkey
  | action => exact action_settles catalog key hkey
  | behavior => exact behavior_settles catalog key hkey
  | nameSpace => exact absurd rfl hkind
  | resource => exact resource_settles catalog key hkey

/-- A settled option has a stable rule, and is there once a bag is resolved. -/
theorem Settles.of_resolve {catalog : Catalog} {kind : EntityKind} {raw resolved : Options}
    {key : String} {rule : OptionRule} (hsettles : Settles (Baseline.schemaOf catalog kind) key)
    (h : (Schema.empty.extend (Baseline.schemaOf catalog kind)).resolve raw = .ok resolved)
    (hrule : (Schema.empty.extend (Baseline.schemaOf catalog kind)).rules.get? key =
      some rule) : rule.Stable ∧ (resolved.get? key).isSome = true := by
  have hruleOf := (rule?_extend_empty _ _).symm.trans hrule
  obtain ⟨rule', hrule', hstable, hthere⟩ := hsettles
  rw [hruleOf] at hrule'
  cases hrule'
  refine ⟨hstable, ?_⟩
  rcases hthere with hrequired | ⟨v, hdefault⟩ | hdefault
  · exact Schema.isSome_of_required h hrule hrequired
  · rw [Schema.isSome_of_resolve h, Schema.get?_complete, Schema.default?, hrule,
      Option.bind_some, hdefault, Option.isSome_or]
    simp [Schema.valueOf]
  · exact isSome_of_nameDefault h ⟨rule, hruleOf, hdefault⟩
      (fun known hname => by simpa [Baseline.humanizedName] using hname)

/-- A bag that the baseline resolved for an entry is resolved to itself. -/
theorem Baseline.resolve_resolved {catalog : Catalog} {kind : EntityKind} {raw resolved : Options}
    (hkind : kind ≠ .nameSpace)
    (h : (Schema.empty.extend (Baseline.schemaOf catalog kind)).resolve raw = .ok resolved) :
    (Schema.empty.extend (Baseline.schemaOf catalog kind)).resolve resolved = .ok resolved := by
  have hsettled : ∀ key rule,
      (Schema.empty.extend (Baseline.schemaOf catalog kind)).rules.get? key = some rule →
        rule.Stable ∧ (resolved.get? key).isSome = true := fun key rule hrule =>
    (settles_of_ruleOf? hkind ((rule?_extend_empty _ _).symm.trans hrule)).of_resolve h hrule
  exact Schema.resolve_resolved h (fun key rule hrule => (hsettled key rule hrule).1)
    (fun key rule hrule => (hsettled key rule hrule).2)

/-- An entry that has a name is resolved under it. -/
theorem Resolver.withName_of_isSome {kind : EntityKind} {key : String} {options : Options}
    (h : (options.get? "name").isSome = true) : withName kind key options = options := by
  rw [withName, if_pos (by rwa [SortedMap.contains_eq_isSome])]

section Entries

variable {r : Resolver} {t t' u : SchemaTables} {kind : EntityKind} {key : String}
variable {raw resolved : Options}

/-- Without extensions, an answer about an entry is the answer about itself. -/
theorem entryAnswer_again (hextensions : r.extensions = [])
    (hkinds : ∀ kind, r.kindInForce t kind = r.kindSchema kind) (hkind : kind ≠ .nameSpace)
    (h : r.entryAnswer t kind key raw = .ok resolved) (hsame : r.SameKinds t u) :
    r.entryAnswer u kind key resolved = .ok resolved := by
  have hschema : (r.kindInForce t kind).schema =
      Schema.empty.extend (Baseline.schemaOf r.catalog kind) := by
    rw [hkinds, kindSchema_of_no_extensions hextensions]
  have hresolve := Resolver.entryAnswer_eq_ok.1 h
  rw [hschema] at hresolve
  have hname := required_isSome hresolve (name_mem_requiredOptions kind)
  rw [Resolver.entryAnswer_eq_ok, hsame kind, hschema, Resolver.withName_of_isSome hname]
  exact Baseline.resolve_resolved hkind hresolve

/-- What was resolved by the baseline alone is resolved to itself under the same key, whatever
is asked in between: permissions, actions, behaviors and resources, these with what they
refer to. -/
theorem resolved_again (hextensions : r.extensions = [])
    (hkinds : ∀ kind, r.kindInForce t kind = r.kindSchema kind) :
    (∀ kind key raw resolved t', kind ≠ .nameSpace →
      (r.resolveEntry kind key raw).Returns t resolved t' → ∀ u, r.SameKinds t' u →
        ∃ u', (r.resolveEntry kind key resolved).Returns u resolved u') ∧
    ∀ key raw namespaces permissions resolved t',
      (r.resolveResource key raw namespaces permissions).Returns t resolved t' →
        ∀ u, r.SameKinds t' u →
          ∃ u', (r.resolveResource key resolved namespaces permissions).Returns u resolved u' := by
  constructor
  · intro kind key raw resolved t' hkind h u hsame
    obtain ⟨hanswer, rfl⟩ := Resolver.returns_resolveEntry.1 h
    have hagain := entryAnswer_again hextensions hkinds hkind hanswer
      ((r.sameKinds_tablesAfterKind t kind).trans hsame)
    exact ⟨_, Resolver.returns_resolveEntry.2 ⟨hagain, rfl⟩⟩
  · intro key raw namespaces permissions resolved t' h u hsame
    -- the references are those of what is resolved, which stays the same
    obtain ⟨hanswer, hreferences, rfl⟩ := Draft.returns_resolveResource.1 h
    have hkind : EntityKind.resource ≠ .nameSpace := nofun
    have hagain := entryAnswer_again hextensions hkinds hkind hanswer
      ((r.sameKinds_tablesAfterKind t .resource).trans hsame)
    exact ⟨_, Draft.returns_resolveResource.2 ⟨hagain, hreferences, rfl⟩⟩

end Entries

namespace Gallery

def resolver : Resolver :=
  .ofCatalog (Catalog.empty.registerAction { name := "gallery::Hang" })

def hang : Options := SortedMap.ofList [
  ("name", .string " Hang-UP "), ("class", .string "gallery::Hang"),
  ("permissions", .strings ["curate", "Curate"])]

def painting : Options := SortedMap.ofList [
  ("namespace", .string "FineArt"), ("entity", .string "Painting"),
  ("actions", .strings ["hang_up", "hang_up"]), ("permissions", .strings ["Curate"])]

end Gallery

open Gallery in
theorem resolved_again_gallery :
    (∃ resolved t' u', (resolver.resolveEntry .action "hang" hang).Returns .empty resolved t' ∧
      resolved.str? "name" = some "hang_up" ∧ resolved.strings "permissions" = ["curate"] ∧
      (resolver.resolveEntry .action "hang" resolved).Returns t' resolved u') ∧
    ∃ resolved t' u',
      (resolver.resolveResource "gallery::Painting" painting
        (SortedMap.singleton "fine_art" ∅) (SortedMap.singleton "curate" ∅)).Returns
          .empty resolved t' ∧
      resolved.str? "namespace" = some "fine_art" ∧
      (resolver.resolveResource "gallery::Painting" resolved
        (SortedMap.singleton "fine_art" ∅) (SortedMap.singleton "curate" ∅)).Returns
          t' resolved u' := by
  have hagain := resolved_again (r := resolver) (t := .empty) rfl
    (Resolver.kindInForce_empty resolver)
  constructor
  · obtain ⟨resolved, t', h, htest⟩ := returns_of_any
      (x := resolver.resolveEntry .action "hang" hang) (t := .empty)
      (p := fun resolved => decide (resolved.str? "name" = some "hang_up" ∧
        resolved.strings "permissions" = ["curate"])) (by decide +kernel)
    obtain ⟨hname, hpermissions⟩ := of_decide_eq_true htest
    obtain ⟨u', hu'⟩ := hagain.1 .action "hang" hang resolved t' nofun h t'
      (Resolver.SameKinds.refl _ _)
    exact ⟨resolved, t', u', h, hname, hpermissions, hu'⟩
  · obtain ⟨resolved, t', h, htest⟩ := returns_of_any
      (x := resolver.resolveResource "gallery::Painting" painting
        (SortedMap.singleton "fine_art" ∅) (SortedMap.singleton "curate" ∅)) (t := .empty)
      (p := fun resolved => decide (resolved.str? "namespace" = some "fine_art"))
      (by decide +kernel)
    obtain ⟨u', hu'⟩ := hagain.2 "gallery::Painting" painting _ _ resolved t' h t'
      (Resolver.SameKinds.refl _ _)
    exact ⟨resolved, t', u', h, of_decide_eq_true htest, hu'⟩

end ConfigCompiler
