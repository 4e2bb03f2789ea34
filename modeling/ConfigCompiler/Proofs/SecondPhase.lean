import ConfigCompiler.Proofs.Passes

/-!
# The second phase

The second phase is cut where a property of the whole has to be stated: after the
behaviors that resources list, after all behaviors, and after all attachments.

**Parts.**  `declareBehaviors`, `settleBehaviors` and `settleAttachments` are the
first two, three and four passes.

**Results.**
* `finalize_returns`, `finalize_fails`: the second phase ends as its passes do.
* `Advance.settleAttachments`: the attachments of every resource stand under stored
  names, and no action is a builder.
* `liftPermissions_returns`: what the last pass leaves of a resource.
* `finalizeResources_settles`: the options of a resource that are replaced, and by what.
-/

namespace ConfigCompiler
namespace Draft

/-- The passes over the behaviors that resources list. -/
def declareBehaviors (r : Resolver) (d : Draft) : Resolution Draft := do
  let names := d.sets.resources.names
  let d ← names.foldlM (normalizeAttachments r .behavior) d
  names.foldlM (resolveAttachments r .behavior) d

/-- The passes over all behaviors. -/
def settleBehaviors (r : Resolver) (d : Draft) : Resolution Draft := do
  let names := d.sets.resources.names
  let d ← d.declareBehaviors r
  names.foldlM (autoAttachBehaviors r) d

/-- The passes over all attachments. -/
def settleAttachments (r : Resolver) (d : Draft) : Resolution Draft := do
  let names := d.sets.resources.names
  let d ← d.settleBehaviors r
  names.foldlM (finalizeActions r) d

/-- The pass over the permissions of the resources listed. -/
def liftPermissions (names : List String) (d : Draft) : Resolution Draft :=
  names.foldlM (fun d name => liftM (d.propagatePermissions name)) d

variable {r : Resolver} {d d' : Draft} {t t' : SchemaTables} {f : Failure}
variable {time : Timestamp} {compiled : Compiled}
variable {resource : String}

theorem finalizeResources_eq (r : Resolver) (d : Draft) :
    d.finalizeResources r =
      d.settleAttachments r >>= liftPermissions d.sets.resources.names := by
  simp only [finalizeResources, settleAttachments, settleBehaviors, declareBehaviors,
    bind_assoc]
  rfl

/-- The defaults of all kinds are always there. -/
theorem collectDefaults_returns (r : Resolver) (t : SchemaTables) :
    ∃ defaults t', (collectDefaults r).Returns t defaults t' := by
  rcases Resolution.returns_or_fails (collectDefaults r) t with h | ⟨f, t', h⟩
  · exact h
  · exfalso
    obtain ⟨kind, defaults, t₁, -, hstep⟩ := Resolution.fails_foldlM_iff.1 h
    obtain ⟨s, t₂, hschema, -⟩ := r.kindSchemaM_returns kind t₁
    rcases Resolution.fails_bind.1 hstep with hdefaults | ⟨_, _, -, hlast⟩
    · rcases Resolution.fails_bind.1 hdefaults with hfails | ⟨_, _, -, hlast⟩
      · exact hschema.not_fails hfails
      · exact Resolution.fails_pure.1 hlast
    · exact Resolution.fails_pure.1 hlast

/-- A compiled configuration holds the sets of the last draft. -/
theorem finalize_returns (h : (d.finalize r time).Returns t (compiled, d') t') :
    compiled.sets = d'.sets ∧ ∃ t₁, (d.finalizeResources r).Returns t d' t₁ := by
  unfold finalize at h
  obtain ⟨d₁, t₁, hresources, hrest⟩ := Resolution.returns_bind.1 h
  obtain ⟨defaults, t₂, -, hlast⟩ := Resolution.returns_bind.1 hrest
  obtain ⟨heq, -⟩ := Resolution.returns_pure.1 hlast
  obtain ⟨rfl, rfl⟩ := Prod.mk.inj heq
  exact ⟨rfl, t₁, hresources⟩

/-- Both phases, with the draft between them. -/
def bothPhases (r : Resolver) (time : Timestamp) (store : EntryStore) :
    Resolution (Draft × Compiled × Draft) := do
  let d ← build r store
  let result ← d.finalize r time
  return (d, result)

/-- Both phases return if they can be seen to. -/
theorem bothPhases_returns (r : Resolver) (time : Timestamp) (store : EntryStore)
    (t : SchemaTables) (p : Draft × Compiled × Draft → Bool)
    (h : ((bothPhases r time store).ask t).1.toOption.any p = true) :
    ∃ d t₁ compiled d' t₂, (build r store).Returns t d t₁ ∧
      (d.finalize r time).Returns t₁ (compiled, d') t₂ ∧ p (d, compiled, d') = true := by
  obtain ⟨⟨d, compiled, d'⟩, t₂, hrun, htest⟩ := Resolution.returns_of_any h
  obtain ⟨d₁, t₁, hbuild, hrest⟩ := Resolution.returns_bind.1 hrun
  obtain ⟨result, t₃, hfinal, hlast⟩ := Resolution.returns_bind.1 hrest
  obtain ⟨heq, rfl⟩ := Resolution.returns_pure.1 hlast
  obtain ⟨rfl, rfl⟩ := Prod.mk.inj heq
  exact ⟨d, t₁, compiled, d', t₂, hbuild, hfinal, htest⟩

/-- Once the resources are worked out nothing can fail any more. -/
theorem finalize_of_returns (time : Timestamp)
    (h : (d.finalizeResources r).Returns t d' t') :
    ∃ compiled t'', (d.finalize r time).Returns t (compiled, d') t'' := by
  obtain ⟨defaults, t₂, hdefaults⟩ := collectDefaults_returns r t'
  refine ⟨⟨formatVersion, d'.fingerprint, time, d'.sets, defaults, some d'.store.lock⟩, t₂, ?_⟩
  unfold finalize
  exact Resolution.returns_bind.2 ⟨d', t', h,
    Resolution.returns_bind.2 ⟨defaults, t₂, hdefaults, Resolution.returns_pure.2 ⟨rfl, rfl⟩⟩⟩

theorem finalize_fails :
    (d.finalize r time).Fails t f t' ↔ (d.finalizeResources r).Fails t f t' := by
  unfold finalize
  rw [Resolution.fails_bind]
  constructor
  · rintro (h | ⟨d₁, t₁, -, h⟩)
    · exact h
    · obtain ⟨defaults, t₂, hdefaults⟩ := collectDefaults_returns r t₁
      rcases Resolution.fails_bind.1 h with h | ⟨_, _, -, h⟩
      · exact absurd h hdefaults.not_fails
      · exact (Resolution.fails_pure.1 h).elim
  · exact Or.inl

/-- All resources of a list attach behaviors under stored names. -/
def KnownBehaviors (names : List String) (d : Draft) : Prop :=
  ∀ name ∈ names, AttachesOnly (fun _ => True) d .behavior name

theorem KnownBehaviors.step {names keys : List String} {kinds : List AttachmentKind}
    (h : KnownBehaviors names d) (hchanges : Changes kinds [resource] keys d d')
    (hresource : AttachesOnly (fun _ => True) d' .behavior resource) :
    KnownBehaviors names d' := by
  intro name hname
  by_cases heq : name = resource
  · exact heq ▸ hresource
  · exact (h name hname).changes hchanges (Or.inl (by simpa using heq))

theorem stored_of_mem_names (h : resource ∈ d.sets.resources.names) :
    d.sets.resources.configs.contains resource = true :=
  (SortedMap.mem_keys_iff _ _).1 h

theorem nodup_names (d : Draft) : d.sets.resources.names.Nodup :=
  SortedMap.nodup_keys _

theorem normalizeAttachments_steps (r : Resolver) (kind : AttachmentKind)
    (names : List String) :
    StepsAdvance r (normalizeAttachments r kind) [kind] names [kind.optionName]
      (fun _ => True) :=
  fun _ _ _ _ _ _ hs _ hret => ⟨(Advance.normalizeAttachments hs hret).1, trivial⟩

theorem resolveBehaviors_steps (r : Resolver) (names : List String) :
    StepsAdvance r (resolveAttachments r .behavior) [] names ["behaviors"]
      (KnownBehaviors names) := by
  intro name hname d t d' t' hs hknown hret
  obtain ⟨hadvance, hattaches⟩ := Advance.resolveAttachments hs (hknown name hname) hret
  exact ⟨hadvance, hknown.step hadvance.changes hattaches⟩

theorem autoAttachBehaviors_steps (r : Resolver) (names : List String) :
    StepsAdvance r (autoAttachBehaviors r) [] names ["behaviors"] (KnownBehaviors names) := by
  intro name hname d t d' t' hs hknown hret
  obtain ⟨hadvance, hattaches⟩ := Advance.autoAttachBehaviors hs (hknown name hname) hret
  exact ⟨hadvance, hknown.step hadvance.changes hattaches⟩

theorem finalizeActions_steps (r : Resolver) (names : List String) :
    StepsAdvance r (finalizeActions r) [.action] names ["actions"] (fun _ => True) :=
  fun _ _ _ _ _ _ hs _ hret => ⟨(Advance.finalizeActions hs hret).1, trivial⟩

/-- A pass after which each of its resources attaches entries with a property. -/
theorem Advance.pass_attaches {step : Draft → String → Resolution Draft}
    {kinds : List AttachmentKind} {names keys : List String} {p : Options → Prop}
    {kind : AttachmentKind}
    (hstep : StepsAdvance r step kinds names keys (fun _ => True))
    (hattaches : ∀ name d t d' t', d.sets.resources.configs.contains name = true →
      (step d name).Returns t d' t' → AttachesOnly p d' kind name)
    (hnames : ∀ name ∈ names, d.sets.resources.configs.contains name = true)
    (hnodup : names.Nodup) (h : Resolution.Returns (names.foldlM step d) t d' t')
    (name : String) (hname : name ∈ names) : AttachesOnly p d' kind name := by
  obtain ⟨d₁, t₁, d₂, t₂, -, hbefore, -, -, hret, hafter, hresource⟩ :=
    Advance.pass_at hstep hnames trivial hnodup h hname
  obtain ⟨attached, hget, hattached⟩ := hattaches name d₁ t₁ d₂ t₂
    (by rw [hbefore.changes.stored_eq, hnames name hname]) hret
  exact ⟨attached, by rw [hresource, hget],
    hattached.extends (hafter.changes.extends_attachable kind)⟩

/-- Resources stay stored while a draft advances. -/
theorem Advance.stored {kinds : List AttachmentKind} {names keys : List String}
    (h : Advance r kinds names keys d t d' t') :
    ∀ name ∈ d.sets.resources.names, d'.sets.resources.configs.contains name = true := by
  intro name hname
  rw [h.changes.stored_eq, stored_of_mem_names hname]

/-- After the first pass the behaviors of all resources stand under stored names. -/
theorem Advance.namesPass
    (h : Resolution.Returns
      (d.sets.resources.names.foldlM (Draft.normalizeAttachments r .behavior) d) t d' t') :
    Advance r [.behavior] d.sets.resources.names ["behaviors"] d t d' t' ∧
      KnownBehaviors d.sets.resources.names d' := by
  obtain ⟨hadvance, -⟩ := Advance.pass (normalizeAttachments_steps r .behavior _)
    (fun _ hname => stored_of_mem_names hname) trivial h
  exact ⟨hadvance, Advance.pass_attaches (normalizeAttachments_steps r .behavior _)
    (fun _ _ _ _ _ hs hret => (Advance.normalizeAttachments hs hret).2)
    (fun _ hname => stored_of_mem_names hname) (nodup_names d) h⟩

theorem Advance.declareBehaviors (h : (d.declareBehaviors r).Returns t d' t') :
    Advance r [.behavior] d.sets.resources.names ["behaviors"] d t d' t' ∧
      KnownBehaviors d.sets.resources.names d' := by
  unfold Draft.declareBehaviors at h
  obtain ⟨d₁, t₁, h₁, h₂⟩ := Resolution.returns_bind.1 h
  obtain ⟨hadvance₁, hknown₁⟩ := Advance.namesPass h₁
  obtain ⟨hadvance₂, hknown₂⟩ :=
    Advance.pass (resolveBehaviors_steps r _) hadvance₁.stored hknown₁ h₂
  exact ⟨hadvance₁.trans_nil hadvance₂, hknown₂⟩

theorem Advance.settleBehaviors (h : (d.settleBehaviors r).Returns t d' t') :
    Advance r [.behavior] d.sets.resources.names ["behaviors"] d t d' t' ∧
      KnownBehaviors d.sets.resources.names d' := by
  unfold Draft.settleBehaviors at h
  obtain ⟨d₁, t₁, h₁, h₂⟩ := Resolution.returns_bind.1 h
  obtain ⟨hadvance₁, hknown₁⟩ := Advance.declareBehaviors h₁
  obtain ⟨hadvance₂, hknown₂⟩ :=
    Advance.pass (autoAttachBehaviors_steps r _) hadvance₁.stored hknown₁ h₂
  exact ⟨hadvance₁.trans_nil hadvance₂, hknown₂⟩

/-- Once the attachments are settled all stand under stored names, and no action is a
builder. -/
theorem Advance.settleAttachments (h : (d.settleAttachments r).Returns t d' t') :
    Advance r [.behavior, .action] d.sets.resources.names ["behaviors", "actions"] d t d' t' ∧
      KnownBehaviors d.sets.resources.names d' ∧
      ∀ name ∈ d.sets.resources.names, AttachesOnly (IsPlain r.catalog) d' .action name := by
  unfold Draft.settleAttachments at h
  obtain ⟨d₁, t₁, h₁, h₂⟩ := Resolution.returns_bind.1 h
  obtain ⟨hadvance₁, hknown₁⟩ := Advance.settleBehaviors h₁
  obtain ⟨hadvance₂, -⟩ :=
    Advance.pass (finalizeActions_steps r _) hadvance₁.stored trivial h₂
  have hplain := Advance.pass_attaches (finalizeActions_steps r _)
    (fun _ _ _ _ _ hs hret => (Advance.finalizeActions hs hret).2)
    hadvance₁.stored (nodup_names d) h₂
  refine ⟨(hadvance₁.mono (by simp) (List.Subset.refl _) (by simp)).trans
    (hadvance₂.mono (by simp) (List.Subset.refl _) (by simp)), fun name hname => ?_, hplain⟩
  exact (hknown₁ name hname).changes hadvance₂.changes
    (Or.inr (by simp [AttachmentKind.optionName]))

theorem Advance.propagatePermissions
    (hstored : d.sets.resources.configs.contains resource = true)
    (h : Resolution.Returns (liftM (d.propagatePermissions resource)) t d' t') :
    Advance r [] [resource] ["permissions"] d t d' t' := by
  obtain ⟨hcheck, rfl⟩ := Resolution.returns_lift.1 h
  exact ⟨changes_propagatePermissions hstored hcheck, Resolver.KeptFor.refl _ _ _⟩

theorem propagatePermissions_steps (r : Resolver) (names : List String) :
    StepsAdvance r (fun d name => liftM (d.propagatePermissions name)) [] names
      ["permissions"] (fun _ => True) :=
  fun _ _ _ _ _ _ hs _ hret => ⟨Advance.propagatePermissions hs hret, trivial⟩

/-- The last pass replaces the permissions of each resource by what its own step made
of them. -/
theorem liftPermissions_returns (r : Resolver) {names : List String}
    (hnames : ∀ name ∈ names, d.sets.resources.configs.contains name = true)
    (hnodup : names.Nodup) (h : (liftPermissions names d).Returns t d' t') :
    Advance r [] names ["permissions"] d t d' t' ∧ t' = t ∧
      ∀ name ∈ names, ∃ required,
        (actionPermissions (attachmentsOf (d.resource name) .action)).foldlM
          (requirePermission d.sets.permissions name)
          ((d.resource name).strings "permissions") = .ok required ∧
        d'.resource name = (d.resource name).insert "permissions" (.strings required) := by
  have hstep := propagatePermissions_steps r names
  obtain ⟨hadvance, -⟩ := Advance.pass hstep hnames trivial h
  refine ⟨hadvance, ?_, fun name hname => ?_⟩
  · exact Resolution.Returns.foldlM_induction (P := fun _ t₁ => t₁ = t)
      (fun name _ d₁ t₁ d₂ t₂ ht hret => (Resolution.returns_lift.1 hret).2.trans ht) h rfl
  · obtain ⟨d₁, t₁, d₂, t₂, -, hbefore, -, hresource, hret, -, hafter⟩ :=
      Advance.pass_at hstep hnames trivial hnodup h hname
    obtain ⟨required, hfold, rfl⟩ :=
      propagatePermissions_eq_ok (Resolution.returns_lift.1 hret).1
    rw [hresource, hbefore.changes.permissions_eq] at hfold
    refine ⟨required, hfold, ?_⟩
    rw [hafter, resource_putResource, if_pos rfl, hresource]

/-- The second phase settles the attachments and then lifts the permissions. -/
theorem finalizeResources_returns (h : (d.finalizeResources r).Returns t d' t') :
    ∃ d₁, (d.settleAttachments r).Returns t d₁ t' ∧
      (liftPermissions d.sets.resources.names d₁).Returns t' d' t' := by
  rw [finalizeResources_eq] at h
  obtain ⟨d₁, t₁, h₁, h₂⟩ := Resolution.returns_bind.1 h
  obtain ⟨-, rfl, -⟩ := liftPermissions_returns r
    (Advance.settleAttachments h₁).1.stored (nodup_names d) h₂
  exact ⟨d₁, h₁, h₂⟩

/-- The second phase replaces three options of each resource, and each of them by
attachments or by a list of strings. -/
theorem finalizeResources_settles (h : (d.finalizeResources r).Returns t d' t') :
    Changes [.behavior, .action] d.sets.resources.names ["behaviors", "actions", "permissions"]
        d d' ∧
      ∀ name ∈ d.sets.resources.names,
        (∀ kind, AttachesOnly (fun _ => True) d' kind name) ∧
        ∃ required, (d'.resource name).get? "permissions" = some (.strings required) := by
  obtain ⟨d₁, hsettle, hlift⟩ := finalizeResources_returns h
  obtain ⟨hadvance, hknown, hplain⟩ := Advance.settleAttachments hsettle
  obtain ⟨hadvance', -, hrequired⟩ :=
    liftPermissions_returns r hadvance.stored (nodup_names d) hlift
  refine ⟨(hadvance.changes.mono (List.Subset.refl _) (List.Subset.refl _) (by simp)).trans
    (hadvance'.changes.mono (by simp) (List.Subset.refl _) (by simp)), fun name hname => ?_⟩
  constructor
  · intro kind
    cases kind with
    | action =>
        obtain ⟨attached, hget, hattached⟩ :=
          (hplain name hname).changes hadvance'.changes (Or.inr (by decide))
        exact ⟨attached, hget, hattached.mono (fun _ _ => trivial)⟩
    | behavior => exact (hknown name hname).changes hadvance'.changes (Or.inr (by decide))
  · obtain ⟨required, -, hput⟩ := hrequired name hname
    exact ⟨required, by simp [hput]⟩

/-- After all behaviors are settled only actions and permissions change. -/
theorem finalize_settleBehaviors (h : (d.finalize r time).Returns t (compiled, d') t') :
    compiled.sets = d'.sets ∧ ∃ d₁ t₁, (d.settleBehaviors r).Returns t d₁ t₁ ∧
      Changes [.action] d.sets.resources.names ["actions", "permissions"] d₁ d' := by
  obtain ⟨hsets, t₂, hresources⟩ := finalize_returns h
  obtain ⟨d₂, hattachments, hlift⟩ := finalizeResources_returns hresources
  obtain ⟨hlifted, -, -⟩ := liftPermissions_returns r
    (Advance.settleAttachments hattachments).1.stored (nodup_names d) hlift
  unfold settleAttachments at hattachments
  obtain ⟨d₁, t₁, hbehaviors, hactions⟩ := Resolution.returns_bind.1 hattachments
  obtain ⟨hworked, -⟩ := Advance.pass (finalizeActions_steps r _)
    (Advance.settleBehaviors hbehaviors).1.stored trivial hactions
  exact ⟨hsets, d₁, t₁, hbehaviors,
    (hworked.changes.mono (List.Subset.refl _) (List.Subset.refl _) (by simp)).trans
      (hlifted.changes.mono (List.nil_subset _) (List.Subset.refl _) (by simp))⟩

end Draft
end ConfigCompiler
