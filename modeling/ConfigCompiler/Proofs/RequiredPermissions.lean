import ConfigCompiler.Proofs.SecondPhase

/-!
# The permissions that a resource requires

The last pass of the second phase lifts the permissions of actions onto resources.

**Reference.**  `withRequired permissions listed wanted` is what the pass should leave:
the permissions listed, followed by the stored names of those wanted that are not
listed, each at its first occurrence.

**Results.**
* `requirePermissions_eq`: the loop over the permissions of actions computes the
  reference, or stops at the first permission that does not exist.
* `permissions_propagated`: the second phase fails if an action of a resource requires
  a permission that does not exist; otherwise it returns, and no permission is lost,
  invented or repeated.
-/

namespace ConfigCompiler

/-- A list of strings is read as it was written. -/
theorem Options.strings_of_get? {options : Options} {key : String} {items : List String}
    (h : options.get? key = some (.strings items)) : options.strings key = items := by
  have hstr : Value.str? ∘ Value.string = some := funext Value.str?_string
  rw [Options.strings, h, Option.bind_some, Value.strings, Value.items?_array,
    Option.getD_some, List.filterMap_map, hstr, List.filterMap_some]

namespace Draft

variable {r : Resolver} {time : Timestamp} {d d' : Draft} {t t' : SchemaTables}
variable {permissions : EntrySet} {resource : String} {listed wanted : List String}

/-- The permissions listed, and the stored names of those wanted beside them. -/
def withRequired (permissions : EntrySet) (listed wanted : List String) : List String :=
  listed ++ ((wanted.filterMap permissions.canonical?).removeAll listed).eraseDups

/-- A permission that leads nowhere. -/
def isUnknown (permissions : EntrySet) (permission : String) : Bool :=
  (permissions.canonical? permission).isNone

/-- Appending one name before the others are compared with the list. -/
theorem eraseDups_removeAll_cons (listed names : List String) (name : String) :
    listed ++ ((name :: names).removeAll listed).eraseDups =
      if name ∈ listed then listed ++ (names.removeAll listed).eraseDups
      else (listed ++ [name]) ++ (names.removeAll (listed ++ [name])).eraseDups := by
  by_cases hname : name ∈ listed
  · simp [List.removeAll, hname]
  · have hfilter : (names.removeAll listed).filter (fun other => !other == name) =
        names.removeAll (listed ++ [name]) := by
      simp only [List.removeAll, List.filter_filter]
      congr 1
      funext other
      by_cases heq : other = name <;> simp [heq]
    have hcons : (name :: names).removeAll listed = name :: names.removeAll listed := by
      simp [List.removeAll, hname]
    rw [hcons, List.eraseDups_cons, hfilter]
    simp [hname]

/-- The loop computes the reference, or stops at the first unknown permission. -/
theorem requirePermissions_eq (permissions : EntrySet) (resource : String)
    (wanted listed : List String) :
    wanted.foldlM (requirePermission permissions resource) listed =
      match wanted.find? (isUnknown permissions) with
      | some permission => .error (.unknownPermission resource permission)
      | none => .ok (withRequired permissions listed wanted) := by
  induction wanted generalizing listed with
  | nil => simp [withRequired, List.removeAll]; rfl
  | cons permission rest ih =>
      rw [List.foldlM_cons]
      cases hcanonical : permissions.canonical? permission with
      | none =>
          have hstep : requirePermission permissions resource listed permission =
              .error (.unknownPermission resource permission) := by
            simp [requirePermission, hcanonical]
          rw [hstep, List.find?_cons_of_pos (by simp [isUnknown, hcanonical])]
          rfl
      | some name =>
          have hstep : requirePermission permissions resource listed permission =
              .ok (if name ∈ listed then listed else listed ++ [name]) := by
            simp [requirePermission, hcanonical]
          have hrest : withRequired permissions
                (if name ∈ listed then listed else listed ++ [name]) rest =
              withRequired permissions listed (permission :: rest) := by
            simp only [withRequired, List.filterMap_cons, hcanonical,
              eraseDups_removeAll_cons]
            split <;> rfl
          rw [hstep, List.find?_cons_of_neg (by simp [isUnknown, hcanonical]), ← hrest]
          exact ih _

/-- As a set, the reference is what is listed and what is wanted. -/
theorem mem_withRequired {name : String} :
    name ∈ withRequired permissions listed wanted ↔
      name ∈ listed ∨ ∃ permission ∈ wanted, permissions.canonical? permission = some name := by
  have hfilter : ∀ names : List String,
      name ∈ names.removeAll listed ↔ name ∈ names ∧ name ∉ listed := by
    simp [List.removeAll]
  simp only [withRequired, List.mem_append, List.mem_eraseDups, hfilter, List.mem_filterMap]
  constructor
  · rintro (h | ⟨h, -⟩)
    · exact Or.inl h
    · exact Or.inr h
  · rintro (h | h)
    · exact Or.inl h
    · by_cases hlisted : name ∈ listed
      · exact Or.inl hlisted
      · exact Or.inr ⟨h, hlisted⟩

/-- What is appended repeats nothing. -/
theorem nodup_withRequired (hlisted : listed.Nodup) :
    (withRequired permissions listed wanted).Nodup := by
  unfold withRequired
  generalize wanted.filterMap permissions.canonical? = names
  induction names generalizing listed with
  | nil => simpa [List.removeAll] using hlisted
  | cons name rest ih =>
      rw [eraseDups_removeAll_cons]
      split
      · exact ih hlisted
      · next hname =>
          refine ih (List.nodup_append.2 ⟨hlisted, by simp, ?_⟩)
          intro a ha b hb hab
          cases List.mem_singleton.1 hb
          exact hname (hab ▸ ha)

/-- The permissions that the attached actions of a resource require. -/
def wantedPermissions (d : Draft) (resource : String) : List String :=
  actionPermissions (attachmentsOf (d.resource resource) .action)

theorem propagatePermissions_eq_error {f : Failure}
    (h : d.propagatePermissions resource = .error f) :
    ∃ permission ∈ d.wantedPermissions resource,
      d.sets.permissions.canonical? permission = none ∧
        f = .unknownPermission resource permission := by
  unfold propagatePermissions at h
  rcases Resolution.check_bind_error.1 h with hfold | ⟨required, -, hlast⟩
  · rw [requirePermissions_eq] at hfold
    split at hfold
    · next permission hfind =>
        cases hfold
        exact ⟨permission, List.mem_of_find?_eq_some hfind,
          by simpa [isUnknown] using List.find?_some hfind, rfl⟩
    · cases hfold
  · cases hlast

/-- The last pass fails only where a permission does not exist. -/
theorem liftPermissions_fails (r : Resolver) {names : List String} {f : Failure}
    (hnames : ∀ name ∈ names, d.sets.resources.configs.contains name = true)
    (hnodup : names.Nodup) (h : (liftPermissions names d).Fails t f t') :
    t' = t ∧ ∃ resource ∈ names, ∃ permission ∈ d.wantedPermissions resource,
      d.sets.permissions.canonical? permission = none ∧
        f = .unknownPermission resource permission := by
  obtain ⟨name, d₁, t₁, hvisit, hstep⟩ := Resolution.fails_foldlM_iff.1 h
  obtain ⟨hadvance, -, hsame⟩ :=
    Advance.visit (propagatePermissions_steps r names) hnames trivial hnodup hvisit
  have htables : t₁ = t :=
    hvisit.induction (P := fun _ t₁ => t₁ = t)
      (fun _ _ _ _ _ _ ht hret => (Resolution.returns_lift.1 hret).2.trans ht) rfl
  obtain ⟨herror, rfl⟩ := Resolution.fails_lift.1 hstep
  obtain ⟨permission, hmem, hunknown, hfailure⟩ := propagatePermissions_eq_error herror
  refine ⟨htables, name, hvisit.mem, permission, ?_, ?_, hfailure⟩
  · rwa [wantedPermissions, hsame] at hmem
  · rwa [hadvance.changes.permissions_eq] at hunknown

/-- The second phase fails once an action requires an unknown permission. -/
theorem finalize_fails_of_unknown {d₁ : Draft} {t₁ : SchemaTables}
    (hsettle : (d.settleAttachments r).Returns t d₁ t₁)
    (hresource : resource ∈ d.sets.resources.names) {permission : String}
    (hmem : permission ∈ d₁.wantedPermissions resource)
    (hnone : d.sets.permissions.canonical? permission = none) :
    ∃ resource ∈ d.sets.resources.names, ∃ permission ∈ d₁.wantedPermissions resource,
      d.sets.permissions.canonical? permission = none ∧
        (d.finalize r time).Fails t (.unknownPermission resource permission) t₁ := by
  obtain ⟨hadvance, -, -⟩ := Advance.settleAttachments hsettle
  rcases Resolution.returns_or_fails
      (liftPermissions d.sets.resources.names d₁) t₁ with ⟨d', t', hlift⟩ | ⟨f, t', hlift⟩
  · exfalso
    obtain ⟨-, -, hrequired⟩ := liftPermissions_returns r hadvance.stored (nodup_names d) hlift
    obtain ⟨required, hfold, -⟩ := hrequired resource hresource
    rw [requirePermissions_eq, hadvance.changes.permissions_eq] at hfold
    split at hfold
    · cases hfold
    · next hfind =>
        have hknown := List.find?_eq_none.1 hfind permission hmem
        simp [isUnknown, hnone] at hknown
  · obtain ⟨rfl, other, hother, unknown, hmem', hnone', rfl⟩ :=
      liftPermissions_fails r hadvance.stored (nodup_names d) hlift
    rw [hadvance.changes.permissions_eq] at hnone'
    refine ⟨other, hother, unknown, hmem', hnone', finalize_fails.2 ?_⟩
    rw [finalizeResources_eq]
    exact Resolution.fails_bind.2 (Or.inr ⟨d₁, t', hsettle, hlift⟩)

/-- The second phase returns if the actions require known permissions only. -/
theorem finalize_returns_of_known {d₁ : Draft} {t₁ : SchemaTables} (time : Timestamp)
    (hsettle : (d.settleAttachments r).Returns t d₁ t₁)
    (hknown : ∀ resource ∈ d.sets.resources.names,
      ∀ permission ∈ d₁.wantedPermissions resource,
        d.sets.permissions.canonical? permission ≠ none) :
    ∃ compiled d' t', (d.finalize r time).Returns t (compiled, d') t' := by
  obtain ⟨hadvance, -, -⟩ := Advance.settleAttachments hsettle
  rcases Resolution.returns_or_fails
      (liftPermissions d.sets.resources.names d₁) t₁ with ⟨d', t', hlift⟩ | ⟨f, t', hlift⟩
  · have hresources : (d.finalizeResources r).Returns t d' t' := by
      rw [finalizeResources_eq]
      exact Resolution.returns_bind.2 ⟨d₁, t₁, hsettle, hlift⟩
    obtain ⟨compiled, t'', hfinal⟩ := finalize_of_returns time hresources
    exact ⟨compiled, d', t'', hfinal⟩
  · obtain ⟨-, resource, hresource, permission, hmem, hnone, -⟩ :=
      liftPermissions_fails r hadvance.stored (nodup_names d) hlift
    rw [hadvance.changes.permissions_eq] at hnone
    exact absurd hnone (hknown resource hresource permission hmem)

/-- What a resource requires in the end. -/
theorem permissions_of_finalize {compiled : Compiled} {config : Options}
    (h : (d.finalize r time).Returns t (compiled, d') t')
    (hconfig : compiled.sets.resources.configs.get? resource = some config) :
    (∀ permission ∈ actionPermissions (attachmentsOf config .action),
        compiled.sets.permissions.canonical? permission ≠ none) ∧
      config.get? "permissions" = some (.strings
        (withRequired compiled.sets.permissions ((d.resource resource).strings "permissions")
          (actionPermissions (attachmentsOf config .action)))) := by
  obtain ⟨hsets, t₁, hresources⟩ := finalize_returns h
  obtain ⟨d₁, hsettle, hlift⟩ := finalizeResources_returns hresources
  obtain ⟨hadvance, -, -⟩ := Advance.settleAttachments hsettle
  obtain ⟨hadvance', -, hrequired⟩ :=
    liftPermissions_returns r hadvance.stored (nodup_names d) hlift
  rw [hsets] at hconfig ⊢
  have hname : resource ∈ d.sets.resources.names := by
    rw [← hadvance.changes.names_eq]
    exact (hadvance'.changes.origin hconfig).1
  obtain ⟨required, hfold, hput⟩ := hrequired resource hname
  rw [resource_of_get? hconfig] at hput
  -- the last pass leaves the actions alone, and the passes before it what is listed
  have hactions : attachmentsOf (d₁.resource resource) .action =
      attachmentsOf config .action :=
    attachmentsOf_congr (by simp [hput, SortedMap.get?_insert, AttachmentKind.optionName])
  have hlisted : (d₁.resource resource).strings "permissions" =
      (d.resource resource).strings "permissions" := by
    unfold Options.strings
    rw [hadvance.changes.option_eq resource "permissions" (Or.inr (by decide))]
  have hget : config.get? "permissions" = some (.strings required) := by
    simp [hput]
  have hpermissions : d'.sets.permissions = d₁.sets.permissions :=
    hadvance'.changes.permissions_eq
  rw [hactions, hlisted, ← hpermissions, requirePermissions_eq] at hfold
  split at hfold
  · cases hfold
  · next hfind =>
      cases hfold
      refine ⟨fun permission hmem hnone => ?_, hget⟩
      have hknown := List.find?_eq_none.1 hfind permission hmem
      simp [isUnknown, hnone] at hknown

/-- Propagation of permissions is exact.  Once the attachments are settled the second
phase fails if some action requires a permission that does not exist, and returns if
there is none.  When it returns, a resource requires what it listed, followed by
the stored names of what its actions require, and nothing is repeated. -/
theorem permissions_propagated (r : Resolver) (time : Timestamp) (d : Draft)
    (t : SchemaTables) :
    (∀ d₁ t₁, (d.settleAttachments r).Returns t d₁ t₁ →
      ((∃ resource ∈ d.sets.resources.names, ∃ permission ∈ d₁.wantedPermissions resource,
          d.sets.permissions.canonical? permission = none) →
        ∃ resource ∈ d.sets.resources.names, ∃ permission ∈ d₁.wantedPermissions resource,
          d.sets.permissions.canonical? permission = none ∧
            (d.finalize r time).Fails t (.unknownPermission resource permission) t₁) ∧
      ((∀ resource ∈ d.sets.resources.names, ∀ permission ∈ d₁.wantedPermissions resource,
          d.sets.permissions.canonical? permission ≠ none) →
        ∃ compiled d' t', (d.finalize r time).Returns t (compiled, d') t')) ∧
    ∀ compiled d' t', (d.finalize r time).Returns t (compiled, d') t' →
      ∀ resource config listed wanted,
        compiled.sets.resources.configs.get? resource = some config →
        listed = (d.resource resource).strings "permissions" →
        wanted = actionPermissions (attachmentsOf config .action) →
        (∀ permission ∈ wanted, compiled.sets.permissions.canonical? permission ≠ none) ∧
        config.get? "permissions" =
          some (.strings (listed ++ ((wanted.filterMap
            compiled.sets.permissions.canonical?).removeAll listed).eraseDups)) ∧
        (∀ name, name ∈ config.strings "permissions" ↔
          name ∈ listed ∨ ∃ permission ∈ wanted,
            compiled.sets.permissions.canonical? permission = some name) ∧
        (listed.Nodup → (config.strings "permissions").Nodup) := by
  constructor
  · intro d₁ t₁ hsettle
    constructor
    · rintro ⟨resource, hresource, permission, hmem, hnone⟩
      exact finalize_fails_of_unknown hsettle hresource hmem hnone
    · exact finalize_returns_of_known time hsettle
  · rintro compiled d' t' h resource config listed wanted hconfig rfl rfl
    obtain ⟨hknown, hget⟩ := permissions_of_finalize h hconfig
    have hstrings := Options.strings_of_get? hget
    refine ⟨hknown, hget, fun name => ?_, fun hlisted => ?_⟩
    · rw [hstrings]
      exact mem_withRequired
    · rw [hstrings]
      exact nodup_withRequired hlisted

namespace Letter

def resolver : Resolver :=
  Resolver.ofCatalog (Catalog.empty.registerAction { name := "desk::Sign" })

def action (permission : String) : Options :=
  SortedMap.ofList [("class", .string "desk::Sign"), ("permissions", .strings [permission])]

/-- The draft in which the letter attaches one action.  It lists one permission, one action
requires another permission under an alias, and one requires a permission that does not
exist. -/
def draft (attached : String) : Draft where
  store := EntryStore.ofCatalog resolver.catalog
  fingerprint := ""
  sets := {
    permissions := ⟨SortedMap.ofList [("read", ∅), ("sign", ∅)],
      SortedMap.singleton "signature" "sign"⟩
    actions := ⟨SortedMap.ofList [("burn", action "fire"), ("sign", action "signature")], ∅⟩
    behaviors := EntrySet.empty
    namespaces := EntrySet.empty
    resources := ⟨SortedMap.singleton "letter" (SortedMap.ofList [
      ("actions", .object (SortedMap.singleton attached (.object ∅))),
      ("permissions", .strings ["read"])]), ∅⟩ }
  declaredInterfaces := ∅
  collisions := []

end Letter

theorem permissions_propagated_letter :
    (∃ compiled d' t' config,
      ((Letter.draft "sign").finalize Letter.resolver ⟨0, 0, 0⟩).Returns
        .empty (compiled, d') t' ∧
      compiled.sets.resources.configs.get? "letter" = some config ∧
      config.strings "permissions" = ["read", "sign"] ∧
      (config.strings "permissions").Nodup) ∧
    ∃ resource permission t',
      ((Letter.draft "burn").finalize Letter.resolver ⟨0, 0, 0⟩).Fails
        .empty (.unknownPermission resource permission) t' := by
  constructor
  · obtain ⟨⟨compiled, d'⟩, t', h, htest⟩ := Resolution.returns_of_any
      (x := (Letter.draft "sign").finalize Letter.resolver ⟨0, 0, 0⟩) (t := .empty)
      (p := fun result => (result.1.sets.resources.configs.get? "letter").any
        (fun config => config.strings "permissions" == ["read", "sign"]))
      (by decide +kernel)
    obtain ⟨config, hconfig, hstrings⟩ := (Option.any_eq_true _ _).1 htest
    obtain ⟨-, -, -, hnodup⟩ :=
      (permissions_propagated Letter.resolver ⟨0, 0, 0⟩ (Letter.draft "sign") .empty).2
        compiled d' t' h "letter" config _ _ hconfig rfl rfl
    exact ⟨compiled, d', t', config, h, hconfig, by simpa using hstrings,
      hnodup (by decide +kernel)⟩
  · obtain ⟨d₁, t₁, hsettle, htest⟩ := Resolution.returns_of_any
      (x := (Letter.draft "burn").settleAttachments Letter.resolver) (t := .empty)
      (p := fun d₁ => (d₁.wantedPermissions "letter").contains "fire")
      (by decide +kernel)
    obtain ⟨resource, -, permission, -, -, hfails⟩ :=
      ((permissions_propagated Letter.resolver ⟨0, 0, 0⟩ (Letter.draft "burn") .empty).1
        d₁ t₁ hsettle).1
        ⟨"letter", by decide +kernel, "fire", by simpa using htest, by decide +kernel⟩
    exact ⟨resource, permission, t₁, hfails⟩

end Draft
end ConfigCompiler
