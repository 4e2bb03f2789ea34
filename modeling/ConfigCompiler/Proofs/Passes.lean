import ConfigCompiler.Proofs.Growth

/-!
# The passes over the resources

Each pass goes over all resources before the next begins.  This module says what
every step of a pass does to the draft, and from that what the whole pass does.

**Input.**  `Progress r kind p d t state t'` is the invariant inside a step: while
the attachments of one resource are collected from the draft `d` on, the draft has
only advanced, and what was collected stands under stored names with the property
`p`.

**Results.**
* `Advance.normalizeAttachments`, `Advance.resolveAttachments`,
  `Advance.autoAttachBehaviors`, `Advance.finalizeActions`: the steps of the passes.
* `Advance.pass`: a pass advances the draft and keeps what its steps keep.
* `Advance.pass_at`: what a pass did to one resource, its own step did.
-/

namespace ConfigCompiler

/-- An entry that is no builder. -/
def IsPlain (catalog : Catalog) (entry : Options) : Prop :=
  builderOf? catalog entry = none

namespace Draft

variable {r : Resolver} {d d' d'' : Draft} {t t' t'' : SchemaTables}
variable {kind : AttachmentKind} {p : Options → Prop}
variable {resource origin name : String}
variable {attached : Attachments} {state state' : Attachments × Draft}

/-- What holds while attachments are collected from the draft `d` on. -/
structure Progress (r : Resolver) (kind : AttachmentKind) (p : Options → Prop)
    (d : Draft) (t : SchemaTables) (state : Attachments × Draft) (t' : SchemaTables) :
    Prop where
  advance : Advance r [kind] [] [] d t state.2 t'
  satisfies : EntriesSatisfy p state.2 kind state.1

theorem Progress.start (h : EntriesSatisfy p d kind attached) :
    Progress r kind p d t (attached, d) t :=
  ⟨Advance.refl r _ _ _ d t, h⟩

/-- The draft may advance while nothing new is collected. -/
theorem Progress.step
    (h : Progress r kind p d t state t') (hstep : Advance r [kind] [] [] state.2 t' d' t'') :
    Progress r kind p d t (state.1, d') t'' :=
  ⟨h.advance.trans hstep, h.satisfies.extends (hstep.changes.extends_attachable kind)⟩

theorem Progress.insert {entry bag : Options}
    (h : Progress r kind p d t state t')
    (hentry : (state.2.attachable kind).configs.get? name = some entry) (hp : p entry) :
    Progress r kind p d t (state.1.insert name bag, state.2) t' :=
  ⟨h.advance, h.satisfies.insert hentry hp⟩

/-- What was collected is put into the resource at last. -/
theorem Progress.putResource
    (h : Progress r kind p d t state t')
    (hstored : d.sets.resources.configs.contains resource = true) :
    Advance r [kind] [resource] [kind.optionName] d t
        (state.2.putResource resource
          (withAttachments (d.resource resource) kind state.1)) t' ∧
      AttachesOnly p
        (state.2.putResource resource
          (withAttachments (d.resource resource) kind state.1)) kind resource := by
  refine ⟨h.advance.putResource hstored (fun key hkey => ?_),
    AttachesOnly.putResource h.satisfies⟩
  have hne : kind.optionName ≠ key := fun heq => hkey (heq ▸ List.mem_cons_self)
  rw [get?_withAttachments, if_neg hne]

theorem takeAttachment_returns {item : String × Options}
    (h : (takeAttachment r kind resource state item).Returns t state' t') :
    ∃ name d', (state.2.canonicalName r kind resource item.1).Returns t (name, d') t' ∧
      state' = (state.1.insert name
        (match state.1.get? name with
          | some existing => Options.merge existing item.2
          | none => item.2), d') := by
  unfold takeAttachment at h
  obtain ⟨⟨name, d'⟩, t₁, hname, hrest⟩ := Resolution.returns_bind.1 h
  obtain ⟨hstate, rfl⟩ := Resolution.returns_pure.1 hrest
  exact ⟨name, d', hname, hstate⟩

theorem normalizeAttachments_returns
    (h : (d.normalizeAttachments r kind resource).Returns t d' t') :
    ∃ state, Resolution.Returns
        ((attachmentsOf (d.resource resource) kind).entries.foldlM
          (takeAttachment r kind resource) (∅, d)) t state t' ∧
      d' = state.2.putResource resource
        (withAttachments (d.resource resource) kind state.1) := by
  unfold normalizeAttachments at h
  obtain ⟨state, t₁, hfold, hrest⟩ := Resolution.returns_bind.1 h
  obtain ⟨hput, rfl⟩ := Resolution.returns_pure.1 hrest
  exact ⟨state, hfold, hput⟩

theorem Progress.takeAttachment {item : String × Options}
    (h : Progress r kind (fun _ => True) d t state t')
    (hstep : (takeAttachment r kind resource state item).Returns t' state' t'') :
    Progress r kind (fun _ => True) d t state' t'' := by
  obtain ⟨name, d', hname, rfl⟩ := takeAttachment_returns hstep
  obtain ⟨hadvance, hstored⟩ := Advance.canonicalName hname
  obtain ⟨entry, hentry⟩ := SortedMap.exists_of_contains hstored
  exact (h.step hadvance).insert hentry trivial

/-- Attachments are put under stored names. -/
theorem Advance.normalizeAttachments
    (hstored : d.sets.resources.configs.contains resource = true)
    (h : (d.normalizeAttachments r kind resource).Returns t d' t') :
    Advance r [kind] [resource] [kind.optionName] d t d' t' ∧
      AttachesOnly (fun _ => True) d' kind resource := by
  obtain ⟨state, hfold, rfl⟩ := normalizeAttachments_returns h
  have hprogress : Progress r kind (fun _ => True) d t state t' :=
    hfold.foldlM_induction (P := Progress r kind (fun _ => True) d t)
      (fun _ _ _ _ _ _ hs hstep => hs.takeAttachment hstep)
      (Progress.start EntriesSatisfy.empty)
  exact hprogress.putResource hstored

/-- While the attachments of a resource are put under stored names, from the draft `d`
on, a key of the resource is met in the draft `d'`. -/
def KeyMet (r : Resolver) (kind : AttachmentKind) (d : Draft) (t : SchemaTables)
    (resource key : String) (d' : Draft) (t' : SchemaTables) : Prop :=
  ∃ bag attached, Resolution.Visits (Draft.takeAttachment r kind resource) (∅, d) t
    (attachmentsOf (d.resource resource) kind).entries (key, bag) (attached, d') t'

/-- The bags of a resource are replaced by what the resolver answers for them. -/
theorem resolveAttachments_returns
    (hknown : EntriesSatisfy p d kind (attachmentsOf (d.resource resource) kind))
    (h : (d.resolveAttachments r kind resource).Returns t d' t') :
    ∃ attached, d' = d.putResource resource
        (withAttachments (d.resource resource) kind attached) ∧
      r.KeptFor (fun kind => (d.attachable kind).configs) t t' ∧
      attached.keys = (attachmentsOf (d.resource resource) kind).keys ∧
      ∀ name bag, (attachmentsOf (d.resource resource) kind).get? name = some bag →
        ∃ entry options, (d.attachable kind).configs.get? name = some entry ∧
          r.attachmentAnswer t kind resource name entry bag = .ok options ∧
          attached.get? name = some options := by
  unfold Draft.resolveAttachments at h
  obtain ⟨attached, t₁, hmap, hrest⟩ := Resolution.returns_bind.1 h
  obtain ⟨hput, rfl⟩ := Resolution.returns_pure.1 hrest
  -- every bag is asked about with the entry stored under its name
  have hask : ∀ name bag, (attachmentsOf (d.resource resource) kind).get? name = some bag →
      ∀ t₁ options t₂,
        Resolution.Returns
          (do
            let entry ← (d.attachedEntry kind resource name : Except Failure Options)
            r.resolveAttachment kind resource name entry bag) t₁ options t₂ →
        ∃ entry, (d.attachable kind).configs.get? name = some entry ∧
          (r.resolveAttachment kind resource name entry bag).Returns t₁ options t₂ := by
    intro name bag hbag t₁ options t₂ hq
    obtain ⟨entry, hentry, -⟩ := hknown name (SortedMap.contains_of_get? hbag)
    obtain ⟨entry', t₃, hcheck, hresolve⟩ := Resolution.returns_bind.1 hq
    obtain ⟨hcheck', rfl⟩ := Resolution.returns_lift.1 hcheck
    rw [attachedEntry_of_stored hentry] at hcheck'
    cases hcheck'
    exact ⟨entry, hentry, hresolve⟩
  obtain ⟨hkept, hkeys, hall⟩ := hmap.mapM_induction
    (P := fun t₁ => r.KeptFor (fun kind => (d.attachable kind).configs) t t₁)
    (fun name bag hbag t₁ options t₂ ht₁ hq => by
      obtain ⟨entry, hentry, hresolve⟩ := hask name bag hbag t₁ options t₂ hq
      exact ht₁.trans (Resolver.KeptFor.resolveAttachment hentry hresolve))
    (Resolver.KeptFor.refl _ _ _)
  refine ⟨attached, hput, hkept, hkeys, fun name bag hbag => ?_⟩
  obtain ⟨options, t₁, t₂, ht₁, hq, hget⟩ := hall name bag hbag
  obtain ⟨entry, hentry, hresolve⟩ := hask name bag hbag t₁ options t₂ hq
  refine ⟨entry, options, hentry, ?_, hget⟩
  rw [← ht₁.attachmentAnswer_eq hentry]
  exact (Resolver.returns_resolveAttachment.1 hresolve).1

/-- Bags that stand under stored names are resolved, and stay there. -/
theorem Advance.resolveAttachments
    (hstored : d.sets.resources.configs.contains resource = true)
    (hknown : AttachesOnly p d kind resource)
    (h : (d.resolveAttachments r kind resource).Returns t d' t') :
    Advance r [] [resource] [kind.optionName] d t d' t' ∧
      AttachesOnly p d' kind resource := by
  obtain ⟨attached, rfl, hkept, hkeys, -⟩ :=
    resolveAttachments_returns hknown.entriesSatisfy h
  have hattached : EntriesSatisfy p d kind attached := by
    intro name hname
    refine hknown.entriesSatisfy name ?_
    rwa [SortedMap.contains_eq_isSome, ← SortedMap.mem_keys_iff, ← hkeys,
      SortedMap.mem_keys_iff]
  refine ⟨(Advance.of_kept hkept).putResource hstored (fun key hkey => ?_),
    AttachesOnly.putResource hattached⟩
  have hne : kind.optionName ≠ key := fun heq => hkey (heq ▸ List.mem_cons_self)
  rw [get?_withAttachments, if_neg hne]

/-- The entry of a behavior names an interface among the capabilities. -/
def Implemented (capabilities : NameSet) (entry : Options) : Prop :=
  ∃ interface, entry.str? "interface" = some interface ∧
    capabilities.contains interface = true

/-- A behavior that is attached or not implemented is passed over; another one is
attached with what the resolver answers for no options. -/
theorem autoAttach_returns {entity : String} {capabilities : NameSet}
    {attached' : Attachments} {behavior : String × Options}
    (h : (autoAttach r resource entity capabilities attached behavior).Returns
      t attached' t') :
    ((attached.contains behavior.1 = true ∨ ¬ Implemented capabilities behavior.2) ∧
        attached' = attached ∧ t' = t) ∨
      (attached.contains behavior.1 = false ∧ Implemented capabilities behavior.2 ∧
        ∃ options, attached' = attached.insert behavior.1 options ∧
          (r.resolveAttachment .behavior resource behavior.1 behavior.2 ∅).Returns
            t options t') := by
  unfold autoAttach at h
  cases hinterface : behavior.2.str? "interface" with
  | none =>
      rw [hinterface] at h
      obtain ⟨rfl, rfl⟩ := Resolution.returns_pure.1 h
      exact Or.inl ⟨Or.inr (by simp [Implemented, hinterface]), rfl, rfl⟩
  | some interface =>
      simp only [hinterface] at h
      split at h
      · next hskip =>
          obtain ⟨rfl, rfl⟩ := Resolution.returns_pure.1 h
          refine Or.inl ⟨?_, rfl, rfl⟩
          simpa [Implemented, hinterface] using hskip
      · next hattach =>
          obtain ⟨options, t₁, hresolve, hrest⟩ := Resolution.returns_bind.1 h
          obtain ⟨rfl, rfl⟩ := Resolution.returns_pure.1 hrest
          simp only [Bool.or_eq_true, Bool.not_eq_true', not_or, Bool.not_eq_true,
            Bool.not_eq_false] at hattach
          exact Or.inr ⟨hattach.1, ⟨interface, hinterface, hattach.2⟩, options, rfl,
            Resolution.returns_adapt.1 hresolve⟩

/-- Attaching a stored behavior asks about a stored entry only. -/
theorem autoAttach_kept {entries : AttachmentKind → SortedMap Options} {entity : String}
    {capabilities : NameSet} {attached' : Attachments} {behavior : String × Options}
    (hentry : (entries .behavior).get? behavior.1 = some behavior.2)
    (h : (autoAttach r resource entity capabilities attached behavior).Returns
      t attached' t') :
    r.KeptFor entries t t' := by
  obtain ⟨-, -, rfl⟩ | ⟨-, -, options, -, hresolve⟩ := autoAttach_returns h
  · exact Resolver.KeptFor.refl _ _ _
  · exact Resolver.KeptFor.resolveAttachment hentry hresolve

theorem autoAttachBehaviors_returns
    (h : (d.autoAttachBehaviors r resource).Returns t d' t') :
    ∃ attached, Resolution.Returns
        (d.sets.behaviors.configs.entries.foldlM
          (autoAttach r resource (((d.resource resource).str? "entity").getD "")
            (d.capabilities r.catalog resource (d.resource resource)))
          (attachmentsOf (d.resource resource) .behavior)) t attached t' ∧
      d' = d.putResource resource
        (withAttachments (d.resource resource) .behavior attached) := by
  unfold Draft.autoAttachBehaviors at h
  obtain ⟨attached, t₁, hfold, hrest⟩ := Resolution.returns_bind.1 h
  obtain ⟨hput, rfl⟩ := Resolution.returns_pure.1 hrest
  exact ⟨attached, hfold, hput⟩

/-- Behaviors attach themselves under stored names. -/
theorem Advance.autoAttachBehaviors
    (hstored : d.sets.resources.configs.contains resource = true)
    (hknown : AttachesOnly (fun _ => True) d .behavior resource)
    (h : (d.autoAttachBehaviors r resource).Returns t d' t') :
    Advance r [] [resource] ["behaviors"] d t d' t' ∧
      AttachesOnly (fun _ => True) d' .behavior resource := by
  obtain ⟨attached, hfold, rfl⟩ := autoAttachBehaviors_returns h
  obtain ⟨hkept, hattached⟩ := hfold.foldlM_induction
    (P := fun attached t₁ => r.KeptFor (fun kind => (d.attachable kind).configs) t t₁ ∧
      EntriesSatisfy (fun _ => True) d .behavior attached)
    (fun behavior hbehavior a t₁ a' t₂ ha hstep => by
      have hentry : (d.attachable .behavior).configs.get? behavior.1 = some behavior.2 :=
        (SortedMap.mem_entries_iff _ _ _).1 hbehavior
      refine ⟨ha.1.trans (autoAttach_kept hentry hstep), ?_⟩
      obtain ⟨-, rfl, -⟩ | ⟨-, -, options, rfl, -⟩ := autoAttach_returns hstep
      · exact ha.2
      · exact ha.2.insert hentry trivial)
    ⟨Resolver.KeptFor.refl _ _ _, hknown.entriesSatisfy⟩
  refine ⟨(Advance.of_kept hkept).putResource hstored (fun key hkey => ?_),
    AttachesOnly.putResource hattached⟩
  have hne : AttachmentKind.behavior.optionName ≠ key :=
    fun heq => hkey (heq ▸ List.mem_cons_self)
  rw [get?_withAttachments, if_neg hne]

/-- Plain actions and builders are told apart by their stored entries. -/
theorem partActions_eq_ok {config : Options} {plain : Attachments}
    {builders : List AttachedBuilder}
    (hknown : EntriesSatisfy p d .action (attachmentsOf config .action))
    (h : d.partActions r.catalog resource config = .ok (plain, builders)) :
    EntriesSatisfy (IsPlain r.catalog) d .action plain ∧
      ∀ b ∈ builders, (d.attachable .action).configs.get? b.name = some b.entry := by
  refine Resolution.check_foldlM_induction
    (P := fun state : Attachments × List AttachedBuilder =>
      EntriesSatisfy (IsPlain r.catalog) d .action state.1 ∧
        ∀ b ∈ state.2, (d.attachable .action).configs.get? b.name = some b.entry)
    (fun action haction s s' hs hstep => ?_) h
    ⟨EntriesSatisfy.empty, by simp⟩
  have hget := (SortedMap.mem_entries_iff _ _ _).1 haction
  obtain ⟨entry, hentry, -⟩ := hknown action.1 (SortedMap.contains_of_get? hget)
  unfold partAction at hstep
  obtain ⟨entry', hcheck, hrest⟩ := Resolution.check_bind.1 hstep
  rw [attachedEntry_of_stored hentry] at hcheck
  cases hcheck
  split at hrest
  · cases Resolution.check_pure.1 hrest
    refine ⟨hs.1, fun b hb => ?_⟩
    rcases List.mem_append.1 hb with hb | hb
    · exact hs.2 b hb
    · cases List.mem_singleton.1 hb
      exact hentry
  · next hplain =>
      cases Resolution.check_pure.1 hrest
      exact ⟨hs.1.insert hentry hplain, hs.2⟩

theorem refuseBuilder_eq_ok {catalog : Catalog} {action : String}
    (h : d.refuseBuilder catalog resource origin action = .ok ()) :
    ∃ entry, d.attachedEntry .action resource action = .ok entry ∧
      IsPlain catalog entry := by
  unfold refuseBuilder at h
  obtain ⟨entry, hentry, hrest⟩ := Resolution.check_bind.1 h
  refine ⟨entry, hentry, ?_⟩
  by_cases hbuilder : (builderOf? catalog entry).isSome = true
  · rw [if_pos hbuilder] at hrest
    cases hrest
  · simpa [IsPlain] using hbuilder

/-- The name of an emitted or contributed key leads to a stored plain entry. -/
theorem Progress.plainName {key : String}
    (h : Progress r .action (IsPlain r.catalog) d t state t')
    (hname : (state.2.canonicalName r .action resource key).Returns t' (name, d') t'')
    (hrefuse : d'.refuseBuilder r.catalog resource origin name = .ok ()) :
    Progress r .action (IsPlain r.catalog) d t (state.1, d') t'' ∧
      ∃ entry, (d'.attachable .action).configs.get? name = some entry ∧
        IsPlain r.catalog entry := by
  obtain ⟨hadvance, hstored⟩ := Advance.canonicalName hname
  obtain ⟨entry, hentry⟩ := SortedMap.exists_of_contains hstored
  obtain ⟨entry', hcheck, hplain⟩ := refuseBuilder_eq_ok hrefuse
  rw [attachedEntry_of_stored hentry] at hcheck
  cases hcheck
  exact ⟨h.step hadvance, entry, hentry, hplain⟩

theorem takeEmitted_returns {item : String × Options}
    (h : (takeEmitted r resource origin state item).Returns t state' t') :
    ∃ name d', (state.2.canonicalName r .action resource item.1).Returns t (name, d') t' ∧
      d'.refuseBuilder r.catalog resource origin name = .ok () ∧
      state' = (if state.1.contains name then state.1 else state.1.insert name item.2, d') := by
  unfold takeEmitted at h
  obtain ⟨⟨name, d'⟩, t₁, hname, hrest⟩ := Resolution.returns_bind.1 h
  obtain ⟨_, t₂, h₁, hrest'⟩ := Resolution.returns_bind.1 hrest
  obtain ⟨hrefuse, rfl⟩ := Resolution.returns_lift.1 h₁
  refine ⟨name, d', ?_, hrefuse, ?_⟩
  · split at hrest' <;> (obtain ⟨-, rfl⟩ := Resolution.returns_pure.1 hrest'; exact hname)
  · split at hrest' <;> (obtain ⟨rfl, -⟩ := Resolution.returns_pure.1 hrest'; simp [*])

theorem Progress.takeEmitted {item : String × Options}
    (h : Progress r .action (IsPlain r.catalog) d t state t')
    (hstep : (takeEmitted r resource origin state item).Returns t' state' t'') :
    Progress r .action (IsPlain r.catalog) d t state' t'' := by
  obtain ⟨name, d', hname, hrefuse, rfl⟩ := takeEmitted_returns hstep
  obtain ⟨hprogress, entry, hentry, hplain⟩ := h.plainName hname hrefuse
  split
  · exact hprogress
  · exact hprogress.insert hentry hplain

theorem expandBuilder_returns {config : Options} {b : AttachedBuilder}
    (h : (expandBuilder r resource config state b).Returns t state' t') :
    ∃ options emitted t₁,
      (r.resolveAttachment .action resource b.name b.entry b.options).Returns t options t₁ ∧
      b.build (withAttachments config .action state.1) options = .ok emitted ∧
      Resolution.Returns
        (emitted.entries.foldlM (Draft.takeEmitted r resource b.name) state) t₁ state' t' := by
  unfold expandBuilder at h
  obtain ⟨options, t₁, hresolve, hrest⟩ := Resolution.returns_bind.1 h
  obtain ⟨emitted, t₂, h₁, hfold⟩ := Resolution.returns_bind.1 hrest
  obtain ⟨hbuild, rfl⟩ := Resolution.returns_lift.1 h₁
  exact ⟨options, emitted, t₂, hresolve, hbuild, hfold⟩

theorem Progress.expandBuilder {config : Options} {b : AttachedBuilder}
    (h : Progress r .action (IsPlain r.catalog) d t state t')
    (hentry : (d.attachable .action).configs.get? b.name = some b.entry)
    (hstep : (expandBuilder r resource config state b).Returns t' state' t'') :
    Progress r .action (IsPlain r.catalog) d t state' t'' := by
  obtain ⟨options, emitted, t₁, hresolve, -, hfold⟩ := expandBuilder_returns hstep
  have hentry' := (h.advance.changes.extends_attachable .action).configs _ _ hentry
  have hresolved : Progress r .action (IsPlain r.catalog) d t state t₁ :=
    h.step (Advance.of_kept (Resolver.KeptFor.resolveAttachment hentry' hresolve))
  exact hfold.foldlM_induction (P := Progress r .action (IsPlain r.catalog) d t)
    (fun _ _ _ _ _ _ hs hemit => hs.takeEmitted hemit) hresolved

theorem expandBuilders_returns
    (h : (d.expandBuilders r resource).Returns t d' t') :
    ∃ plain builders state,
      d.partActions r.catalog resource (d.resource resource) = .ok (plain, builders) ∧
      Resolution.Returns
        (builders.foldlM (Draft.expandBuilder r resource (d.resource resource)) (plain, d))
        t state t' ∧
      d' = state.2.putResource resource
        (withAttachments (d.resource resource) .action state.1) := by
  unfold Draft.expandBuilders at h
  obtain ⟨⟨plain, builders⟩, t₁, h₁, hrest⟩ := Resolution.returns_bind.1 h
  obtain ⟨hpart, rfl⟩ := Resolution.returns_lift.1 h₁
  obtain ⟨state, t₂, hfold, hrest'⟩ := Resolution.returns_bind.1 hrest
  obtain ⟨hput, rfl⟩ := Resolution.returns_pure.1 hrest'
  exact ⟨plain, builders, state, hpart, hfold, hput⟩

/-- Once builders are expanded a resource attaches plain actions only. -/
theorem Advance.expandBuilders
    (hstored : d.sets.resources.configs.contains resource = true)
    (hknown : AttachesOnly p d .action resource)
    (h : (d.expandBuilders r resource).Returns t d' t') :
    Advance r [.action] [resource] ["actions"] d t d' t' ∧
      AttachesOnly (IsPlain r.catalog) d' .action resource := by
  obtain ⟨plain, builders, state, hpart, hfold, rfl⟩ := expandBuilders_returns h
  obtain ⟨hplain, hbuilders⟩ := partActions_eq_ok hknown.entriesSatisfy hpart
  have hprogress : Progress r .action (IsPlain r.catalog) d t state t' :=
    hfold.foldlM_induction (P := Progress r .action (IsPlain r.catalog) d t)
      (fun b hb _ _ _ _ hs hstep => hs.expandBuilder (hbuilders b hb) hstep)
      (Progress.start hplain)
  exact hprogress.putResource hstored

theorem takeContributed_returns {item : String × Options}
    (h : (takeContributed r resource origin state item).Returns t state' t') :
    ∃ name d' entry options t₁,
      (state.2.canonicalName r .action resource item.1).Returns t (name, d') t₁ ∧
      d'.refuseBuilder r.catalog resource origin name = .ok () ∧
      d'.attachedEntry .action resource name = .ok entry ∧
      (r.resolveAttachment .action resource name entry
        (match state.1.get? name with
          | some existing => Options.fillMissing existing item.2
          | none => item.2)).Returns t₁ options t' ∧
      state' = (state.1.insert name options, d') := by
  unfold takeContributed at h
  obtain ⟨⟨name, d'⟩, t₁, hname, hrest⟩ := Resolution.returns_bind.1 h
  obtain ⟨_, t₂, h₁, hrest'⟩ := Resolution.returns_bind.1 hrest
  obtain ⟨hrefuse, rfl⟩ := Resolution.returns_lift.1 h₁
  obtain ⟨entry, t₃, h₂, hrest''⟩ := Resolution.returns_bind.1 hrest'
  obtain ⟨hentry, rfl⟩ := Resolution.returns_lift.1 h₂
  obtain ⟨options, t₄, hresolve, hlast⟩ := Resolution.returns_bind.1 hrest''
  obtain ⟨hstate, rfl⟩ := Resolution.returns_pure.1 hlast
  exact ⟨name, d', entry, options, t₃, hname, hrefuse, hentry, hresolve, hstate⟩

theorem Progress.takeContributed {item : String × Options}
    (h : Progress r .action (IsPlain r.catalog) d t state t')
    (hstep : (takeContributed r resource origin state item).Returns t' state' t'') :
    Progress r .action (IsPlain r.catalog) d t state' t'' := by
  obtain ⟨name, d', entry', options, t₁, hname, hrefuse, hcheck, hresolve, rfl⟩ :=
    takeContributed_returns hstep
  obtain ⟨hprogress, entry, hentry, hplain⟩ := h.plainName hname hrefuse
  rw [attachedEntry_of_stored hentry] at hcheck
  cases hcheck
  have hresolved : Progress r .action (IsPlain r.catalog) d t (state.1, d') t'' :=
    hprogress.step (Advance.of_kept (Resolver.KeptFor.resolveAttachment hentry hresolve))
  exact hresolved.insert hentry hplain

/-- A behavior without a registered type contributes nothing. -/
theorem contributeActions_returns {config : Options} {behavior : String × Options}
    (h : (contributeActions r resource config state behavior).Returns t state' t') :
    (state' = state ∧ t' = t) ∨
      ∃ entry type contributed, state.2.attachedEntry .behavior resource behavior.1 = .ok entry ∧
        behaviorTypeOf? r.catalog entry = some type ∧
        type.build state.1 (withAttachments config .action state.1) behavior.2 =
          .ok contributed ∧
        Resolution.Returns
          (contributed.entries.foldlM (Draft.takeContributed r resource behavior.1) state)
          t state' t' := by
  unfold contributeActions at h
  obtain ⟨entry, t₁, h₁, hrest⟩ := Resolution.returns_bind.1 h
  obtain ⟨hentry, rfl⟩ := Resolution.returns_lift.1 h₁
  cases htype : behaviorTypeOf? r.catalog entry with
  | none =>
      rw [htype] at hrest
      obtain ⟨rfl, rfl⟩ := Resolution.returns_pure.1 hrest
      exact Or.inl ⟨rfl, rfl⟩
  | some type =>
      rw [htype] at hrest
      obtain ⟨contributed, t₂, h₂, hfold⟩ := Resolution.returns_bind.1 hrest
      obtain ⟨hbuild, rfl⟩ := Resolution.returns_lift.1 h₂
      exact Or.inr ⟨entry, type, contributed, hentry, htype, hbuild, hfold⟩

theorem Progress.contributeActions {config : Options} {behavior : String × Options}
    (h : Progress r .action (IsPlain r.catalog) d t state t')
    (hstep : (contributeActions r resource config state behavior).Returns t' state' t'') :
    Progress r .action (IsPlain r.catalog) d t state' t'' := by
  obtain ⟨rfl, rfl⟩ | ⟨_, _, _, -, -, -, hfold⟩ := contributeActions_returns hstep
  · exact h
  · exact hfold.foldlM_induction (P := Progress r .action (IsPlain r.catalog) d t)
      (fun _ _ _ _ _ _ hs htake => hs.takeContributed htake) h

theorem applyBehaviors_returns
    (h : (d.applyBehaviors r resource).Returns t d' t') :
    ∃ state, Resolution.Returns
        ((attachmentsOf (d.resource resource) .behavior).entries.foldlM
          (Draft.contributeActions r resource (d.resource resource))
          (attachmentsOf (d.resource resource) .action, d)) t state t' ∧
      d' = state.2.putResource resource
        (withAttachments (d.resource resource) .action state.1) := by
  unfold Draft.applyBehaviors at h
  obtain ⟨state, t₁, hfold, hrest⟩ := Resolution.returns_bind.1 h
  obtain ⟨hput, rfl⟩ := Resolution.returns_pure.1 hrest
  exact ⟨state, hfold, hput⟩

theorem Advance.applyBehaviors
    (hstored : d.sets.resources.configs.contains resource = true)
    (hplain : AttachesOnly (IsPlain r.catalog) d .action resource)
    (h : (d.applyBehaviors r resource).Returns t d' t') :
    Advance r [.action] [resource] ["actions"] d t d' t' ∧
      AttachesOnly (IsPlain r.catalog) d' .action resource := by
  obtain ⟨state, hfold, rfl⟩ := applyBehaviors_returns h
  have hprogress : Progress r .action (IsPlain r.catalog) d t state t' :=
    hfold.foldlM_induction (P := Progress r .action (IsPlain r.catalog) d t)
      (fun _ _ _ _ _ _ hs hstep => hs.contributeActions hstep)
      (Progress.start hplain.entriesSatisfy)
  exact hprogress.putResource hstored

/-- The actions of a resource are worked out in four steps. -/
theorem finalizeActions_returns
    (h : (d.finalizeActions r resource).Returns t d' t') :
    ∃ d₁ t₁ d₂ t₂ d₃ t₃, (d.normalizeAttachments r .action resource).Returns t d₁ t₁ ∧
      (d₁.expandBuilders r resource).Returns t₁ d₂ t₂ ∧
      (d₂.resolveAttachments r .action resource).Returns t₂ d₃ t₃ ∧
      (d₃.applyBehaviors r resource).Returns t₃ d' t' := by
  unfold finalizeActions at h
  obtain ⟨d₁, t₁, h₁, hrest⟩ := Resolution.returns_bind.1 h
  obtain ⟨d₂, t₂, h₂, hrest'⟩ := Resolution.returns_bind.1 hrest
  obtain ⟨d₃, t₃, h₃, h₄⟩ := Resolution.returns_bind.1 hrest'
  exact ⟨d₁, t₁, d₂, t₂, d₃, t₃, h₁, h₂, h₃, h₄⟩

/-- At last a resource attaches plain actions only. -/
theorem Advance.finalizeActions
    (hstored : d.sets.resources.configs.contains resource = true)
    (h : (d.finalizeActions r resource).Returns t d' t') :
    Advance r [.action] [resource] ["actions"] d t d' t' ∧
      AttachesOnly (IsPlain r.catalog) d' .action resource := by
  obtain ⟨d₁, t₁, d₂, t₂, d₃, t₃, h₁, h₂, h₃, h₄⟩ := finalizeActions_returns h
  obtain ⟨hadvance₁, hknown₁⟩ := Advance.normalizeAttachments hstored h₁
  have hstored₁ := (hadvance₁.changes.stored_eq resource).trans hstored
  obtain ⟨hadvance₂, hplain₂⟩ := Advance.expandBuilders hstored₁ hknown₁ h₂
  have hstored₂ := (hadvance₂.changes.stored_eq resource).trans hstored₁
  obtain ⟨hadvance₃, hplain₃⟩ := Advance.resolveAttachments hstored₂ hplain₂ h₃
  have hstored₃ := (hadvance₃.changes.stored_eq resource).trans hstored₂
  obtain ⟨hadvance₄, hplain₄⟩ := Advance.applyBehaviors hstored₃ hplain₃ h₄
  exact ⟨((hadvance₁.trans hadvance₂).trans_nil hadvance₃).trans hadvance₄, hplain₄⟩

theorem propagatePermissions_eq_ok
    (h : d.propagatePermissions resource = .ok d') :
    ∃ required, (actionPermissions (attachmentsOf (d.resource resource) .action)).foldlM
        (requirePermission d.sets.permissions resource)
        ((d.resource resource).strings "permissions") = .ok required ∧
      d' = d.putResource resource
        ((d.resource resource).insert "permissions" (.strings required)) := by
  unfold propagatePermissions at h
  obtain ⟨required, hfold, hrest⟩ := Resolution.check_bind.1 h
  exact ⟨required, hfold, Resolution.check_pure.1 hrest⟩

theorem changes_propagatePermissions
    (hstored : d.sets.resources.configs.contains resource = true)
    (h : d.propagatePermissions resource = .ok d') :
    Changes [] [resource] ["permissions"] d d' := by
  obtain ⟨required, -, rfl⟩ := propagatePermissions_eq_ok h
  refine changes_putResource hstored (fun key hkey => ?_)
  have hne : "permissions" ≠ key := fun heq => hkey (heq ▸ List.mem_cons_self)
  rw [SortedMap.get?_insert, if_neg hne]

section Pass

/-- Every step of a pass advances the draft in its own resource, and keeps `Q`. -/
def StepsAdvance (r : Resolver) (step : Draft → String → Resolution Draft)
    (kinds : List AttachmentKind) (names keys : List String) (Q : Draft → Prop) : Prop :=
  ∀ name ∈ names, ∀ d t d' t', d.sets.resources.configs.contains name = true → Q d →
    (step d name).Returns t d' t' → Advance r kinds [name] keys d t d' t' ∧ Q d'

variable {step : Draft → String → Resolution Draft}
variable {kinds : List AttachmentKind} {names keys : List String}

/-- A pass advances the draft when its steps do, and keeps what they keep. -/
theorem Advance.pass {Q : Draft → Prop}
    (hstep : StepsAdvance r step kinds names keys Q)
    (hnames : ∀ name ∈ names, d.sets.resources.configs.contains name = true) (hQ : Q d)
    (h : Resolution.Returns (names.foldlM step d) t d' t') :
    Advance r kinds names keys d t d' t' ∧ Q d' := by
  refine h.foldlM_induction (P := fun d' t' => Advance r kinds names keys d t d' t' ∧ Q d')
    (fun name hname d₁ t₁ d₂ t₂ h₁ h₂ => ?_) ⟨Advance.refl r kinds names keys d t, hQ⟩
  have hstored : d₁.sets.resources.configs.contains name = true := by
    rw [h₁.1.changes.stored_eq, hnames name hname]
  obtain ⟨hadvance, hQ₂⟩ := hstep name hname d₁ t₁ d₂ t₂ hstored h₁.2 h₂
  refine ⟨h₁.1.trans (hadvance.mono (List.Subset.refl _) ?_ (List.Subset.refl _)), hQ₂⟩
  simpa using hname

/-- A pass over distinct names meets each resource as it was at the start. -/
theorem Advance.visit {Q : Draft → Prop}
    (hstep : StepsAdvance r step kinds names keys Q)
    (hnames : ∀ name ∈ names, d.sets.resources.configs.contains name = true) (hQ : Q d)
    (hnodup : names.Nodup) (h : Resolution.Visits step d t names name d' t') :
    Advance r kinds names keys d t d' t' ∧ Q d' ∧ d'.resource name = d.resource name := by
  obtain ⟨before, after, rfl, hbefore⟩ := h
  obtain ⟨hadvance, hQ'⟩ := Advance.pass
    (fun n hn => hstep n (List.mem_append_left _ hn))
    (fun n hn => hnames n (List.mem_append_left _ hn)) hQ hbefore
  obtain ⟨-, -, hdisjoint⟩ := List.nodup_append.1 hnodup
  have hout : name ∉ before := fun hn => hdisjoint name hn name List.mem_cons_self rfl
  exact ⟨hadvance.mono (List.Subset.refl _) (by simp) (List.Subset.refl _), hQ',
    hadvance.changes.resource_eq hout⟩

/-- What a pass over distinct names did to one resource, its own step did. -/
theorem Advance.pass_at {Q : Draft → Prop}
    (hstep : StepsAdvance r step kinds names keys Q)
    (hnames : ∀ name ∈ names, d.sets.resources.configs.contains name = true) (hQ : Q d)
    (hnodup : names.Nodup) (h : Resolution.Returns (names.foldlM step d) t d' t')
    (hname : name ∈ names) :
    ∃ d₁ t₁ d₂ t₂, Resolution.Visits step d t names name d₁ t₁ ∧
      Advance r kinds names keys d t d₁ t₁ ∧ Q d₁ ∧
      d₁.resource name = d.resource name ∧
      (step d₁ name).Returns t₁ d₂ t₂ ∧
      Advance r kinds names keys d₂ t₂ d' t' ∧
      d'.resource name = d₂.resource name := by
  obtain ⟨before, after, d₁, t₁, d₂, t₂, rfl, hbefore, hmid, hafter⟩ := h.foldlM_split hname
  have hvisit : Resolution.Visits step d t (before ++ name :: after) name d₁ t₁ :=
    ⟨before, after, rfl, hbefore⟩
  obtain ⟨hadvance, hQ₁, hsame⟩ := Advance.visit hstep hnames hQ hnodup hvisit
  have hstored : ∀ n ∈ before ++ name :: after,
      d₁.sets.resources.configs.contains n = true := by
    intro n hn
    rw [hadvance.changes.stored_eq, hnames n hn]
  obtain ⟨hadvance', hQ₂⟩ := hstep name hname d₁ t₁ d₂ t₂ (hstored name hname) hQ₁ hmid
  have hrest : ∀ n ∈ after, n ∈ before ++ name :: after :=
    fun n hn => List.mem_append_right _ (List.mem_cons_of_mem _ hn)
  obtain ⟨hadvance'', -⟩ := Advance.pass (fun n hn => hstep n (hrest n hn))
    (fun n hn => by rw [hadvance'.changes.stored_eq, hstored n (hrest n hn)]) hQ₂ hafter
  obtain ⟨-, hnodup', -⟩ := List.nodup_append.1 hnodup
  exact ⟨d₁, t₁, d₂, t₂, hvisit, hadvance, hQ₁, hsame, hmid,
    hadvance''.mono (List.Subset.refl _) hrest (List.Subset.refl _),
    hadvance''.changes.resource_eq (List.nodup_cons.1 hnodup').1⟩

end Pass

end Draft
end ConfigCompiler
