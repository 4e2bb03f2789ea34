import ConfigCompiler.Proofs.AliasOwnership
import ConfigCompiler.Proofs.Emissions

/-!
# The actions of a resource in the end

The actions of a resource are put under stored names, builders are replaced by what they
emit, and every bag is resolved.  After that behaviors may contribute.

**Relations.**  In the second phase of `d`, `ActionsNamed` and `ActionsResolved` lead to
the drafts between these steps; `ActionRewrittenTo` says under which name a key is put.

**Predicates.**  `ContributesNothing`: no behavior of the resource contributes an action.
`ActionSteps`: what the three steps make of the actions.  `ActionsExpanded`: which actions a
resource has in the end, and with which options.

**Results.**
* `actions_expanded`: a resource has the plain actions that it lists and what its builders
  emit; a listed action is resolved from the listed bags alone, another one from the
  first bag emitted; an emitted builder fails.
-/

namespace ConfigCompiler
namespace Draft

variable {r : Resolver} {time : Timestamp} {d d' : Draft} {t t' : SchemaTables}
variable {resource name : String}

/-- The actions that a resource holds. -/
def actionsOf (d : Draft) (resource : String) : Attachments :=
  attachmentsOf (d.resource resource) .action

/-- In the second phase of `d` the actions of a resource stand under stored names in the
draft `d'`. -/
def ActionsNamed (r : Resolver) (d : Draft) (t : SchemaTables) (resource : String)
    (d' : Draft) (t' : SchemaTables) : Prop :=
  ∃ d₁ t₁, ActionsBegun r d t resource d₁ t₁ ∧
    (d₁.normalizeAttachments r .action resource).Returns t₁ d' t'

/-- In the second phase of `d` the actions of a resource are expanded and resolved in the
draft `d'`. -/
def ActionsResolved (r : Resolver) (d : Draft) (t : SchemaTables) (resource : String)
    (d' : Draft) (t' : SchemaTables) : Prop :=
  ∃ d₁ t₁ d₂ t₂, ActionsNamed r d t resource d₁ t₁ ∧
    (d₁.expandBuilders r resource).Returns t₁ d₂ t₂ ∧
    (d₂.resolveAttachments r .action resource).Returns t₂ d' t'

/-- In the second phase of `d` the key of an action of a resource is put under the name. -/
def ActionRewrittenTo (r : Resolver) (d : Draft) (t : SchemaTables)
    (resource key name : String) : Prop :=
  ∃ d₁ t₁ d₂ t₂ d₃ t₃, ActionsBegun r d t resource d₁ t₁ ∧
    KeyMet r .action d₁ t₁ resource key d₂ t₂ ∧
    (d₂.canonicalName r .action resource key).Returns t₂ (name, d₃) t₃

/-- The actions of a resource are begun once. -/
theorem ActionsBegun.unique {d₁ d₂ : Draft} {t₁ t₂ : SchemaTables}
    (h₁ : ActionsBegun r d t resource d₁ t₁) (h₂ : ActionsBegun r d t resource d₂ t₂) :
    d₁ = d₂ ∧ t₁ = t₂ := by
  obtain ⟨d₃, t₃, hsettle, hvisit⟩ := h₁
  obtain ⟨d₃', t₃', hsettle', hvisit'⟩ := h₂
  obtain ⟨rfl, rfl⟩ := hsettle.unique hsettle'
  exact hvisit.unique hvisit' (nodup_names d)

theorem ActionsNamed.unique {d₁ d₂ : Draft} {t₁ t₂ : SchemaTables}
    (h₁ : ActionsNamed r d t resource d₁ t₁) (h₂ : ActionsNamed r d t resource d₂ t₂) :
    d₁ = d₂ ∧ t₁ = t₂ := by
  obtain ⟨d₃, t₃, hbegun, hret⟩ := h₁
  obtain ⟨d₃', t₃', hbegun', hret'⟩ := h₂
  obtain ⟨rfl, rfl⟩ := hbegun.unique hbegun'
  exact hret.unique hret'

/-- Until its own turn a resource holds the actions it lists. -/
theorem ActionsBegun.actionsOf_eq (h : ActionsBegun r d t resource d' t') :
    d'.actionsOf resource = d.actionsOf resource := by
  obtain ⟨d₁, t₁, hsettle, hvisit⟩ := h
  obtain ⟨hadvance, -⟩ := Advance.settleBehaviors hsettle
  obtain ⟨-, -, hsame⟩ :=
    Advance.visit (finalizeActions_steps r _) hadvance.stored trivial (nodup_names d) hvisit
  rw [actionsOf, hsame]
  exact attachmentsOf_congr (hadvance.changes.option_eq resource "actions"
    (Or.inr (by decide)))

theorem ActionsBegun.mem_names (h : ActionsBegun r d t resource d' t') :
    resource ∈ d.sets.resources.names := by
  obtain ⟨d₁, t₁, -, hvisit⟩ := h
  exact hvisit.mem

/-- Up to the names of the actions the draft has only advanced. -/
theorem ActionsNamed.advance (h : ActionsNamed r d t resource d' t') :
    Advance r [.behavior, .action] d.sets.resources.names ["behaviors", "actions"]
        d t d' t' ∧
      d'.sets.resources.configs.contains resource = true ∧
      AttachesOnly (fun _ => True) d' .action resource := by
  obtain ⟨d₁, t₁, hbegun, hret⟩ := h
  obtain ⟨hadvance, hstored⟩ := hbegun.advance
  obtain ⟨hadvance', hknown⟩ := Advance.normalizeAttachments hstored hret
  refine ⟨hadvance.trans (hadvance'.mono (by simp) ?_ (by simp [AttachmentKind.optionName])),
    (hadvance'.changes.stored_eq resource).trans hstored, hknown⟩
  simpa using hbegun.mem_names

/-- In a finished second phase the actions of every resource were worked out, and stay. -/
theorem finalizeActions_of_finalize {compiled : Compiled} {config : Options}
    (h : (d.finalize r time).Returns t (compiled, d') t')
    (hconfig : compiled.sets.resources.configs.get? resource = some config) :
    ∃ d₁ t₁ d₂ t₂, ActionsBegun r d t resource d₁ t₁ ∧
      (d₁.finalizeActions r resource).Returns t₁ d₂ t₂ ∧
      config.get? "actions" = (d₂.resource resource).get? "actions" ∧
      (d₂.attachable .action).Extends compiled.sets.actions := by
  obtain ⟨hsets, t₃, hresources⟩ := finalize_returns h
  obtain ⟨d₃, hattachments, hlift⟩ := finalizeResources_returns hresources
  obtain ⟨hlifted, -, -⟩ := liftPermissions_returns r
    (Advance.settleAttachments hattachments).1.stored (nodup_names d) hlift
  unfold settleAttachments at hattachments
  obtain ⟨d₄, t₄, hsettle, hactions⟩ := Resolution.returns_bind.1 hattachments
  obtain ⟨hadvance, -⟩ := Advance.settleBehaviors hsettle
  have hname : resource ∈ d.sets.resources.names := by
    have hnames := (finalizeResources_settles hresources).1.names_eq
    rw [← hnames, ← hsets]
    exact (SortedMap.mem_keys_iff _ _).2 (by simp [hconfig])
  obtain ⟨d₁, t₁, d₂, t₂, hvisit, -, -, -, hret, hafter, hsame⟩ := Advance.pass_at
    (finalizeActions_steps r _) hadvance.stored trivial (nodup_names d) hactions hname
  refine ⟨d₁, t₁, d₂, t₂, ⟨d₄, t₄, hsettle, hvisit⟩, hret, ?_, ?_⟩
  · rw [hsets] at hconfig
    rw [← resource_of_get? hconfig,
      hlifted.changes.option_eq resource "actions" (Or.inr (by decide)), hsame]
  · rw [hsets]
    exact (hafter.changes.extends_attachable .action).trans
      (hlifted.changes.extends_attachable .action)

/-- No behavior of the resource contributes an action. -/
def ContributesNothing (r : Resolver) (d : Draft) (t : SchemaTables) (resource : String) :
    Prop :=
  ∀ d' t', ActionsResolved r d t resource d' t' →
    ∀ behavior state t₁ entry type contributed,
      Resolution.Visits (contributeActions r resource (d'.resource resource))
        (d'.actionsOf resource, d') t' (d'.behaviorsOf resource).entries behavior state t₁ →
      state.2.attachedEntry .behavior resource behavior.1 = .ok entry →
      behaviorTypeOf? r.catalog entry = some type →
      type.build state.1 (withAttachments (d'.resource resource) .action state.1)
        behavior.2 = .ok contributed →
      contributed = ∅

/-- Types that never contribute an action contribute nothing to any resource. -/
theorem contributesNothing_of_types
    (h : ∀ name type, r.catalog.behaviors.get? name = some type →
      ∀ actions config options contributed,
        type.build actions config options = .ok contributed → contributed = ∅)
    (d : Draft) (t : SchemaTables) (resource : String) :
    ContributesNothing r d t resource := by
  intro d' t' _ behavior state t₁ entry type contributed _ _ htype hbuild
  obtain ⟨name, -, hget⟩ := Option.bind_eq_some_iff.1 htype
  exact h name type hget _ _ _ contributed hbuild

/-- Without contributions the actions stay as they were resolved. -/
theorem actionsOf_applyBehaviors {d₁ : Draft} {t₁ : SchemaTables}
    (hnothing : ContributesNothing r d t resource)
    (hresolved : ActionsResolved r d t resource d₁ t₁)
    (h : (d₁.applyBehaviors r resource).Returns t₁ d' t') :
    d'.actionsOf resource = d₁.actionsOf resource := by
  obtain ⟨state, hfold, rfl⟩ := applyBehaviors_returns h
  obtain ⟨rfl, -⟩ := hfold.foldlM_idle (fun behavior s t₂ s' t₃ hvisit hstep => by
    obtain hidle | ⟨entry, type, contributed, hentry, htype, hbuild, htake⟩ :=
      contributeActions_returns hstep
    · exact hidle
    · obtain rfl := hnothing d₁ t₁ hresolved behavior s t₂ entry type contributed hvisit
        hentry htype hbuild
      exact Resolution.returns_foldlM_nil.1 htake)
  rw [actionsOf, resource_putResource, if_pos rfl, attachmentsOf_withAttachments, actionsOf]

/-- What actions a resource attaches in the end, where `rename` says what its keys are
rewritten to, and the actions stand under stored names in the draft `d₁`. -/
structure ActionsExpanded (r : Resolver) (d : Draft) (t : SchemaTables)
    (actions : SortedMap Options) (resource : String) (rename : String → String)
    (d₁ : Draft) (t₁ : SchemaTables) (attached : Attachments) : Prop where
  rewritten : ∀ key, (d.actionsOf resource).contains key = true →
    ActionRewrittenTo r d t resource key (rename key)
  plain : ∀ name, attached.contains name = true →
    ∃ entry, actions.get? name = some entry ∧ IsPlain r.catalog entry
  names : ∀ name, attached.contains name = true ↔
    (∃ key, (d.actionsOf resource).contains key = true ∧ rename key = name) ∧
      (∃ entry, actions.get? name = some entry ∧ IsPlain r.catalog entry) ∨
    ∃ b key bag entry, EmitsAs r d₁ t₁ resource b key bag name entry
  builders : ∀ b : AttachedBuilder, (∃ emitted, Emits r d₁ t₁ resource b emitted) ↔
    mergeAll (bagsUnder rename b.name (d.actionsOf resource).entries) = some b.options ∧
      actions.get? b.name = some b.entry ∧ builderOf? r.catalog b.entry = some b.build
  emitted : ∀ b emitted key bag, Emits r d₁ t₁ resource b emitted →
    emitted.get? key = some bag → ∃ name entry, EmitsAs r d₁ t₁ resource b key bag name entry
  listed : ∀ name merged entry,
    mergeAll (bagsUnder rename name (d.actionsOf resource).entries) = some merged →
    actions.get? name = some entry → IsPlain r.catalog entry →
    ∃ options, r.attachmentAnswer t .action resource name entry merged = .ok options ∧
      attached.get? name = some options
  generated : ∀ name, attached.contains name = true →
    (∀ key, (d.actionsOf resource).contains key = true → rename key ≠ name) →
    ∃ b key bag entry options, FirstEmission r d₁ t₁ resource b key bag name entry ∧
      actions.get? name = some entry ∧
      r.attachmentAnswer t .action resource name entry bag = .ok options ∧
      attached.get? name = some options

section Steps

variable {d₀ d₁ d₂ d₃ : Draft} {t₀ t₁ t₂ t₃ : SchemaTables} {actions : SortedMap Options}
variable {rename : String → String} {attached : Attachments}

/-- What three steps make of the actions of a resource: they stand under stored names in the
draft `d₁`, they are expanded in the draft `d₂`, and they are resolved. -/
structure ActionSteps (r : Resolver) (d : Draft) (t : SchemaTables)
    (actions : SortedMap Options) (resource : String) (rename : String → String)
    (d₁ : Draft) (t₁ : SchemaTables) (d₂ : Draft) (attached : Attachments) : Prop where
  rewritten : ∀ key, (d.actionsOf resource).contains key = true →
    ActionRewrittenTo r d t resource key (rename key)
  merged : ∀ name, (d₁.actionsOf resource).get? name =
    mergeAll (bagsUnder rename name (d.actionsOf resource).entries)
  known : ∀ name, (d₁.actionsOf resource).contains name = true →
    ∃ entry, (d₁.attachable .action).configs.get? name = some entry
  final : ∀ name entry, (d₁.attachable .action).configs.get? name = some entry →
    actions.get? name = some entry
  expanded : Expanded r d₁ t₁ resource (d₂.actionsOf resource) d₂
  contains_eq : ∀ name, attached.contains name = (d₂.actionsOf resource).contains name
  answered : ∀ name bag, (d₂.actionsOf resource).get? name = some bag →
    ∃ entry options, (d₂.attachable .action).configs.get? name = some entry ∧
      actions.get? name = some entry ∧ IsPlain r.catalog entry ∧
      r.attachmentAnswer t .action resource name entry bag = .ok options ∧
      attached.get? name = some options

/-- The steps of a resource whose entries are those of the end. -/
theorem actionSteps_of_returns
    (hbegun : ActionsBegun r d t resource d₀ t₀)
    (hnames : (d₀.normalizeAttachments r .action resource).Returns t₀ d₁ t₁)
    (hexpand : (d₁.expandBuilders r resource).Returns t₁ d₂ t₂)
    (hresolve : (d₂.resolveAttachments r .action resource).Returns t₂ d₃ t₃)
    (hlater : ∀ name entry, (d₂.attachable .action).configs.get? name = some entry →
      actions.get? name = some entry) :
    ∃ rename, ActionSteps r d t actions resource rename d₁ t₁ d₂ (d₃.actionsOf resource) := by
  obtain ⟨rename, hrename, hmerged⟩ := normalizeAttachments_get? hnames
  change ∀ key, (d₀.actionsOf resource).contains key = true → _ at hrename
  change ∀ name, (d₁.actionsOf resource).get? name =
    mergeAll (bagsUnder rename name (d₀.actionsOf resource).entries) at hmerged
  rw [hbegun.actionsOf_eq] at hrename hmerged
  obtain ⟨hadvance, hstored, hknown⟩ := ActionsNamed.advance ⟨d₀, t₀, hbegun, hnames⟩
  obtain ⟨hadvance', hplain⟩ := Advance.expandBuilders hstored hknown hexpand
  obtain ⟨resolved, rfl, -, hkeys, hanswers⟩ :=
    resolveAttachments_returns hplain.entriesSatisfy hresolve
  have hattached : (d₂.putResource resource
      (withAttachments (d₂.resource resource) .action resolved)).actionsOf resource =
        resolved := by
    rw [actionsOf, resource_putResource, if_pos rfl, attachmentsOf_withAttachments]
  -- the bags are answered for as in the beginning
  have htotal : Advance r [.behavior, .action] d.sets.resources.names
      ["behaviors", "actions"] d t d₂ t₂ :=
    hadvance.trans (hadvance'.mono (by simp) (by simpa using hbegun.mem_names) (by simp))
  refine ⟨rename, ?_⟩
  rw [hattached]
  exact {
    rewritten := fun key hkey => by
      obtain ⟨d₄, t₄, d₅, t₅, hmet, hkeyname⟩ := hrename key hkey
      exact ⟨d₀, t₀, d₄, t₄, d₅, t₅, hbegun, hmet, hkeyname⟩
    merged := hmerged
    known := fun name hname => by
      obtain ⟨entry, hentry, -⟩ := hknown.entriesSatisfy name hname
      exact ⟨entry, hentry⟩
    final := fun name entry hentry => hlater name entry
      ((hadvance'.changes.extends_attachable .action).configs name entry hentry)
    expanded := expandBuilders_emits hknown.entriesSatisfy hexpand
    contains_eq := SortedMap.contains_eq_of_keys_eq hkeys
    answered := fun name bag hget => by
      obtain ⟨entry, options, hentry, hok, hoptions⟩ := hanswers name bag hget
      obtain ⟨entry', hentry', hplain'⟩ :=
        hplain.entriesSatisfy name (SortedMap.contains_of_get? hget)
      obtain rfl : entry = entry' := Option.some.inj (hentry.symm.trans hentry')
      exact ⟨entry, options, hentry, hlater name entry hentry, hplain',
        (htotal.kept.attachmentAnswer_eq hentry resource bag).symm.trans hok, hoptions⟩ }

namespace ActionSteps

/-- The entry of a listed name is stored since the names are. -/
theorem entry_of_listed {bag entry : Options}
    (h : ActionSteps r d t actions resource rename d₁ t₁ d₂ attached)
    (hget : (d₁.actionsOf resource).get? name = some bag)
    (hentry : actions.get? name = some entry) :
    (d₁.attachable .action).configs.get? name = some entry := by
  obtain ⟨entry', hentry'⟩ := h.known name (SortedMap.contains_of_get? hget)
  rw [h.final name entry' hentry'] at hentry
  exact hentry ▸ hentry'

/-- Whatever is attached in the end was resolved from a bag. -/
theorem exists_bag (h : ActionSteps r d t actions resource rename d₁ t₁ d₂ attached)
    (hname : attached.contains name = true) :
    ∃ bag, (d₂.actionsOf resource).get? name = some bag := by
  rw [h.contains_eq] at hname
  exact SortedMap.exists_of_contains hname

/-- The names in the end are the listed plain ones and the emitted ones. -/
theorem contains_iff (h : ActionSteps r d t actions resource rename d₁ t₁ d₂ attached)
    (name : String) :
    attached.contains name = true ↔
      (∃ key, (d.actionsOf resource).contains key = true ∧ rename key = name) ∧
        (∃ entry, actions.get? name = some entry ∧ IsPlain r.catalog entry) ∨
      ∃ b key bag entry, EmitsAs r d₁ t₁ resource b key bag name entry := by
  have hlisted := contains_iff_of_mergeAll h.merged name
  constructor
  · intro hname
    obtain ⟨bag, hget⟩ := h.exists_bag hname
    rcases h.expanded.others name bag hget with ⟨hlists, entry, hentry, hplain⟩ |
      ⟨b, key, entry, hfirst⟩
    · exact Or.inl ⟨hlisted.1 (SortedMap.contains_of_get? hlists), entry,
        h.final name entry hentry, hplain⟩
    · exact Or.inr ⟨b, key, bag, entry, hfirst.emits⟩
  · rw [h.contains_eq]
    rintro (⟨hlists, entry, hentry, hplain⟩ | ⟨b, key, bag, entry, hemits⟩)
    · obtain ⟨bag, hget⟩ := SortedMap.exists_of_contains (hlisted.2 hlists)
      exact SortedMap.contains_of_get?
        (h.expanded.kept name bag entry hget (h.entry_of_listed hget hentry) hplain)
    · exact (h.expanded.taken b key bag name entry hemits).1

/-- The builders that are run are those listed, with the merged bags of their keys. -/
theorem emits_iff (h : ActionSteps r d t actions resource rename d₁ t₁ d₂ attached)
    (b : AttachedBuilder) :
    (∃ emitted, Emits r d₁ t₁ resource b emitted) ↔
      mergeAll (bagsUnder rename b.name (d.actionsOf resource).entries) = some b.options ∧
        actions.get? b.name = some b.entry ∧ builderOf? r.catalog b.entry = some b.build := by
  rw [h.expanded.runs, ← h.merged]
  constructor
  · rintro ⟨hget, hentry, hbuild⟩
    exact ⟨hget, h.final _ _ hentry, hbuild⟩
  · rintro ⟨hget, hentry, hbuild⟩
    exact ⟨hget, h.entry_of_listed hget hentry, hbuild⟩

/-- A listed action is resolved from the merged bags of its keys. -/
theorem answer_of_listed {merged entry : Options}
    (h : ActionSteps r d t actions resource rename d₁ t₁ d₂ attached)
    (hbags : mergeAll (bagsUnder rename name (d.actionsOf resource).entries) = some merged)
    (hentry : actions.get? name = some entry) (hplain : IsPlain r.catalog entry) :
    ∃ options, r.attachmentAnswer t .action resource name entry merged = .ok options ∧
      attached.get? name = some options := by
  rw [← h.merged] at hbags
  have hkept := h.expanded.kept name merged entry hbags (h.entry_of_listed hbags hentry) hplain
  obtain ⟨entry', options, -, hentry', -, hok, hoptions⟩ := h.answered name merged hkept
  obtain rfl : entry' = entry := Option.some.inj (hentry'.symm.trans hentry)
  exact ⟨options, hok, hoptions⟩

/-- An action that is not listed is resolved from the bag emitted for it first. -/
theorem answer_of_generated (h : ActionSteps r d t actions resource rename d₁ t₁ d₂ attached)
    (hname : attached.contains name = true)
    (hnone : ∀ key, (d.actionsOf resource).contains key = true → rename key ≠ name) :
    ∃ b key bag entry options, FirstEmission r d₁ t₁ resource b key bag name entry ∧
      actions.get? name = some entry ∧
      r.attachmentAnswer t .action resource name entry bag = .ok options ∧
      attached.get? name = some options := by
  obtain ⟨bag, hget⟩ := h.exists_bag hname
  rcases h.expanded.others name bag hget with ⟨hlists, -⟩ | ⟨b, key, entry, hfirst⟩
  · obtain ⟨key, hkey, hrenamed⟩ :=
      (contains_iff_of_mergeAll h.merged name).1 (SortedMap.contains_of_get? hlists)
    exact absurd hrenamed (hnone key hkey)
  · obtain ⟨entry', options, hstored', hentry', -, hok, hoptions⟩ := h.answered name bag hget
    have hstored := (h.expanded.taken b key bag name entry hfirst.emits).2
    obtain rfl : entry' = entry := Option.some.inj (hstored'.symm.trans hstored)
    exact ⟨b, key, bag, entry', options, hfirst, hentry', hok, hoptions⟩

/-- The actions of a resource, from its first step to its third. -/
theorem actionsExpanded (h : ActionSteps r d t actions resource rename d₁ t₁ d₂ attached) :
    ActionsExpanded r d t actions resource rename d₁ t₁ attached where
  rewritten := h.rewritten
  plain := by
    intro name hname
    obtain ⟨bag, hget⟩ := h.exists_bag hname
    obtain ⟨entry, -, -, hentry, hplain, -⟩ := h.answered name bag hget
    exact ⟨entry, hentry, hplain⟩
  names := h.contains_iff
  builders := h.emits_iff
  emitted := by
    intro b emitted key bag hemits hget
    obtain ⟨name, entry, hemitsAs, -⟩ := h.expanded.emits b emitted key bag hemits hget
    exact ⟨name, entry, hemitsAs⟩
  listed _ _ _ hbags hentry hplain := h.answer_of_listed hbags hentry hplain
  generated _ hname hnone := h.answer_of_generated hname hnone

end ActionSteps

end Steps

/-- The failure of a builder that emits another one. -/
def nestedBuilder (resource origin action : String) : Failure :=
  .expansion .action origin
    s!"generated action '{action}' on resource '{resource}' is itself a builder"

/-- Taking a bag under the name of a builder fails. -/
theorem takeEmitted_fails {origin key : String} {bag entry : Options}
    {state : Attachments × Draft}
    (hname : (state.2.canonicalName r .action resource key).Returns t (name, d') t')
    (hentry : (d'.attachable .action).configs.get? name = some entry)
    (hbuilder : ¬ IsPlain r.catalog entry) :
    (takeEmitted r resource origin state (key, bag)).Fails t
      (nestedBuilder resource origin name) t' := by
  have hrefuse : d'.refuseBuilder r.catalog resource origin name =
      .error (nestedBuilder resource origin name) := by
    unfold refuseBuilder
    rw [attachedEntry_of_stored hentry]
    refine Resolution.check_bind_error.2 (Or.inr ⟨entry, rfl, ?_⟩)
    rw [if_pos (by simpa [IsPlain, Option.isSome_iff_ne_none] using hbuilder)]
    rfl
  unfold takeEmitted
  exact Resolution.fails_bind.2 (Or.inr ⟨(name, d'), t', hname,
    Resolution.fails_bind.2 (Or.inl (Resolution.fails_lift.2 ⟨hrefuse, rfl⟩))⟩)

/-- The second phase fails where a builder emits another one. -/
theorem finalize_fails_of_emitsAs {d₁ : Draft} {t₁ : SchemaTables} {b : AttachedBuilder}
    {key : String} {bag entry : Options}
    (hnamed : ActionsNamed r d t resource d₁ t₁)
    (hemits : EmitsAs r d₁ t₁ resource b key bag name entry)
    (hbuilder : ¬ IsPlain r.catalog entry) (time : Timestamp) :
    ∃ t', (d.finalize r time).Fails t (nestedBuilder resource b.name name) t' := by
  obtain ⟨d₀, t₀, ⟨d₂, t₂, hsettle, hvisit⟩, hnames⟩ := hnamed
  obtain ⟨plain, builders, hpart, state, t₃, emitted, ⟨t₄, options, hrun, hoptions, hbuild⟩,
    attached, d₃, t₅, d₄, t₆, htake, hname, hentry⟩ := hemits
  -- the failure of one step is that of every fold around it
  have hstep : (expandBuilder r resource (d₁.resource resource) state b).Fails t₄
      (nestedBuilder resource b.name name) t₆ := by
    unfold expandBuilder
    exact Resolution.fails_bind.2 (Or.inr ⟨options, t₃, hoptions,
      Resolution.fails_bind.2 (Or.inr ⟨emitted, t₃, Resolution.returns_lift.2 ⟨hbuild, rfl⟩,
        Resolution.fails_foldlM_iff.2 ⟨_, _, t₅, htake,
          takeEmitted_fails hname hentry hbuilder⟩⟩)⟩)
  have hexpand : (d₁.expandBuilders r resource).Fails t₁
      (nestedBuilder resource b.name name) t₆ := by
    unfold Draft.expandBuilders
    exact Resolution.fails_bind.2 (Or.inr ⟨(plain, builders), t₁,
      Resolution.returns_lift.2 ⟨hpart, rfl⟩,
      Resolution.fails_bind.2 (Or.inl
        (Resolution.fails_foldlM_iff.2 ⟨b, state, t₄, hrun, hstep⟩))⟩)
  have hactions : (d₀.finalizeActions r resource).Fails t₀
      (nestedBuilder resource b.name name) t₆ := by
    unfold finalizeActions
    exact Resolution.fails_bind.2 (Or.inr ⟨d₁, t₁, hnames,
      Resolution.fails_bind.2 (Or.inl hexpand)⟩)
  refine ⟨t₆, finalize_fails.2 ?_⟩
  rw [finalizeResources_eq, settleAttachments]
  exact Resolution.fails_bind.2 (Or.inl (Resolution.fails_bind.2 (Or.inr ⟨d₂, t₂, hsettle,
    Resolution.fails_foldlM_iff.2 ⟨resource, d₀, t₀, hvisit, hactions⟩⟩)))

/-- A resource of a finished second phase was named, expanded and resolved; what it has in
the end the last step left. -/
theorem steps_of_finalize {compiled : Compiled} {config : Options}
    (h : (d.finalize r time).Returns t (compiled, d') t')
    (hconfig : compiled.sets.resources.configs.get? resource = some config) :
    ∃ d₀ t₀ d₁ t₁ d₂ t₂ d₃ t₃ d₄ t₄, ActionsBegun r d t resource d₀ t₀ ∧
      (d₀.normalizeAttachments r .action resource).Returns t₀ d₁ t₁ ∧
      (d₁.expandBuilders r resource).Returns t₁ d₂ t₂ ∧
      (d₂.resolveAttachments r .action resource).Returns t₂ d₃ t₃ ∧
      (d₃.applyBehaviors r resource).Returns t₃ d₄ t₄ ∧
      config.get? "actions" = some (.object ((d₄.actionsOf resource).map Value.object)) ∧
      ∀ name entry, (d₂.attachable .action).configs.get? name = some entry →
        compiled.sets.actions.configs.get? name = some entry := by
  obtain ⟨d₀, t₀, d₄, t₄, hbegun, hactions, hoption, hlater⟩ :=
    finalizeActions_of_finalize h hconfig
  obtain ⟨d₁, t₁, d₂, t₂, d₃, t₃, hnames, hexpand, hresolve, happly⟩ :=
    finalizeActions_returns hactions
  obtain ⟨-, hstored, hknown⟩ := ActionsNamed.advance ⟨d₀, t₀, hbegun, hnames⟩
  obtain ⟨hexpanded, hplain⟩ := Advance.expandBuilders hstored hknown hexpand
  have hstored₂ := (hexpanded.changes.stored_eq resource).trans hstored
  obtain ⟨hresolved, hplain₃⟩ := Advance.resolveAttachments hstored₂ hplain hresolve
  have hstored₃ := (hresolved.changes.stored_eq resource).trans hstored₂
  obtain ⟨happlied, attached, hget, -⟩ := Advance.applyBehaviors hstored₃ hplain₃ happly
  refine ⟨d₀, t₀, d₁, t₁, d₂, t₂, d₃, t₃, d₄, t₄, hbegun, hnames, hexpand, hresolve, happly,
    ?_, fun name entry hentry => hlater.configs name entry ?_⟩
  · rw [hoption, actionsOf, attachmentsOf_of_get? hget]
    exact hget
  · exact (happlied.changes.extends_attachable .action).configs name entry
      ((hresolved.changes.extends_attachable .action).configs name entry hentry)

/-- Explicit and generated actions, end to end.  When the second phase returns, a resource
whose behaviors contribute nothing attaches the plain actions that its keys were rewritten
to and everything its builders emit.  A listed action is resolved from the merged bags of
its keys, another one from the bag emitted for it first: by the first builder in the order
of names, under the first of its keys.  If a builder emits the name of another builder, the
second phase fails; and it fails unless every key that a builder emits leads to a plain
action. -/
theorem actions_expanded (r : Resolver) (time : Timestamp) (d : Draft) (t : SchemaTables) :
    (∀ compiled d' t', (d.finalize r time).Returns t (compiled, d') t' →
      ∀ resource config, compiled.sets.resources.configs.get? resource = some config →
        ContributesNothing r d t resource →
        ∃ d₁ t₁ rename attached, ActionsNamed r d t resource d₁ t₁ ∧
          config.get? "actions" = some (.object (attached.map Value.object)) ∧
          ActionsExpanded r d t compiled.sets.actions.configs resource rename d₁ t₁ attached) ∧
    (∀ resource d₁ t₁ b key bag name entry, ActionsNamed r d t resource d₁ t₁ →
      EmitsAs r d₁ t₁ resource b key bag name entry → ¬ IsPlain r.catalog entry →
      ∃ t', (d.finalize r time).Fails t (nestedBuilder resource b.name name) t') ∧
    ∀ resource d₁ t₁ b emitted key bag, ActionsNamed r d t resource d₁ t₁ →
      Emits r d₁ t₁ resource b emitted → emitted.get? key = some bag →
      (∃ f t', (d.finalize r time).Fails t f t') ∨
        ∃ name entry, EmitsAs r d₁ t₁ resource b key bag name entry ∧
          IsPlain r.catalog entry := by
  refine ⟨fun compiled d' t' h resource config hconfig hnothing => ?_,
    fun resource d₁ t₁ b key bag name entry hnamed hemits hbuilder =>
      finalize_fails_of_emitsAs hnamed hemits hbuilder time,
    fun resource d₁ t₁ b emitted key bag hnamed hemits hget => ?_⟩
  · obtain ⟨d₀, t₀, d₁, t₁, d₂, t₂, d₃, t₃, d₄, t₄, hbegun, hnames, hexpand, hresolve,
      happly, hoption, hlater⟩ := steps_of_finalize h hconfig
    have hnamed : ActionsNamed r d t resource d₁ t₁ := ⟨d₀, t₀, hbegun, hnames⟩
    obtain ⟨rename, hsteps⟩ := actionSteps_of_returns hbegun hnames hexpand hresolve hlater
    rw [actionsOf_applyBehaviors hnothing ⟨d₁, t₁, d₂, t₂, hnamed, hexpand, hresolve⟩ happly]
      at hoption
    exact ⟨d₁, t₁, rename, _, hnamed, hoption, hsteps.actionsExpanded⟩
  · rcases Resolution.returns_or_fails (d.finalize r time) t with
      ⟨⟨compiled, d'⟩, t', h⟩ | hfails
    · obtain ⟨d₀, t₀, hbegun, -⟩ := id hnamed
      obtain ⟨hsets, t₂, hresources⟩ := finalize_returns h
      have hstored : compiled.sets.resources.configs.contains resource = true := by
        rw [hsets, (finalizeResources_settles hresources).1.stored_eq]
        exact stored_of_mem_names hbegun.mem_names
      obtain ⟨config, hconfig⟩ := SortedMap.exists_of_contains hstored
      obtain ⟨d₀', t₀', d₁', t₁', d₂, t₃, d₃, t₄, d₄, t₅, hbegun', hnames', hexpand, -⟩ :=
        steps_of_finalize h hconfig
      obtain ⟨rfl, rfl⟩ := hnamed.unique ⟨d₀', t₀', hbegun', hnames'⟩
      have hknown := hnamed.advance.2.2.entriesSatisfy
      exact Or.inr ((expandBuilders_emits hknown hexpand).emits b emitted key bag hemits hget)
    · exact Or.inl hfails

namespace Press

/-- A post can be viewed and edited, and `crud` emits both.  A builder called `nest` emits
`crud` in its turn.  The behavior `stamp` contributes nothing. -/
def resolver : Resolver :=
  Resolver.ofCatalog ((((Catalog.empty.registerAction { name := "press::View" }).registerAction
    { name := "press::Crud",
      build? := some (fun _ _ => .ok (SortedMap.ofList [
        ("edit", SortedMap.singleton "label" (.string "a")),
        ("view", SortedMap.singleton "label" (.string "a"))])) }).registerAction
    { name := "press::Nest",
      build? := some (fun _ _ => .ok (SortedMap.singleton "crud" ∅)) }).registerBehavior
    { name := "press::Stamp" })

/-- The draft in which a post attaches some actions, and the stamp. -/
def draft (listed : Attachments) : Draft where
  store := EntryStore.ofCatalog resolver.catalog
  fingerprint := ""
  sets := {
    permissions := EntrySet.empty
    actions := ⟨SortedMap.ofList [
      ("crud", SortedMap.singleton "class" (.string "press::Crud")),
      ("edit", SortedMap.singleton "class" (.string "press::View")),
      ("nest", SortedMap.singleton "class" (.string "press::Nest")),
      ("view", SortedMap.singleton "class" (.string "press::View"))], ∅⟩
    behaviors := ⟨SortedMap.singleton "stamp"
      (SortedMap.singleton "class" (.string "press::Stamp")), ∅⟩
    namespaces := EntrySet.empty
    resources := ⟨SortedMap.singleton "post" (SortedMap.ofList [
      ("actions", .object (listed.map Value.object)),
      ("behaviors", .object (SortedMap.singleton "stamp" (.object ∅))),
      ("entity", .string "Post")]), ∅⟩ }
  declaredInterfaces := ∅
  collisions := []

/-- A post that lists one of the actions emitted for it. -/
def posted : Draft :=
  draft (SortedMap.ofList [("crud", ∅), ("view", SortedMap.singleton "label" (.string "b"))])

/-- A post with a builder that emits another one. -/
def nested : Draft := draft (SortedMap.singleton "nest" ∅)

/-- The label of an attached action. -/
def label (config : Options) (name : String) : Option String :=
  ((attachmentsOf config .action).get? name).bind (fun bag => bag.str? "label")

/-- The drafts in which the actions of the nested post are begun and named, and the first
builder with what it emits and the draft in which its first key has a name. -/
def nestedRun :
    Resolution (Draft × Draft × AttachedBuilder × Attachments × String × Draft) := do
  let d₀ ← nested.settleBehaviors resolver
  let d₁ ← d₀.normalizeAttachments resolver .action "post"
  let parts ← d₁.partActions resolver.catalog "post" (d₁.resource "post")
  match parts.2 with
  | b :: _ =>
      let options ← resolver.resolveAttachment .action "post" b.name b.entry b.options
      let emitted ← b.build (withAttachments (d₁.resource "post") .action parts.1) options
      let (name, d₂) ← d₁.canonicalName resolver .action "post" "crud"
      return (d₀, d₁, b, emitted, name, d₂)
  | [] => throw (unknownReference "post" .action "nest")

/-- The builder of the nested post emits another one. -/
theorem nested_emitsAs :
    ∃ d₁ t₁ b bag entry, ActionsNamed resolver nested .empty "post" d₁ t₁ ∧
      EmitsAs resolver d₁ t₁ "post" b "crud" bag "crud" entry ∧
      ¬ IsPlain resolver.catalog entry := by
  obtain ⟨⟨d₀, d₁, b, emitted, name, d₂⟩, t, h, htest⟩ := Resolution.returns_of_any
    (x := nestedRun) (t := .empty)
    (p := fun result => result.2.2.2.1.keys == ["crud"] && (result.2.2.2.2.1 == "crud" &&
      ((result.2.2.2.2.2.attachable .action).configs.get? "crud").any
        (fun entry => (builderOf? resolver.catalog entry).isSome)))
    (by decide +kernel)
  simp only [Bool.and_eq_true, beq_iff_eq] at htest
  obtain ⟨hkeys, rfl, htest⟩ := htest
  obtain ⟨entry, hentry, hbuilder⟩ := (Option.any_eq_true _ _).1 htest
  obtain ⟨d₀', t₀, hsettle, h₁⟩ := Resolution.returns_bind.1 h
  obtain ⟨d₁', t₁, hnames, h₂⟩ := Resolution.returns_bind.1 h₁
  obtain ⟨⟨plain, builders⟩, t₂, hlift, h₃⟩ := Resolution.returns_bind.1 h₂
  obtain ⟨hpart, rfl⟩ := Resolution.returns_lift.1 hlift
  cases builders with
  | nil => exact (Resolution.returns_throw.1 h₃).elim
  | cons b' rest =>
      obtain ⟨options, t₃, hoptions, h₄⟩ := Resolution.returns_bind.1 h₃
      obtain ⟨emitted', t₄, hlift', h₅⟩ := Resolution.returns_bind.1 h₄
      obtain ⟨hbuild, rfl⟩ := Resolution.returns_lift.1 hlift'
      obtain ⟨⟨name', d₂'⟩, t₅, hname, h₆⟩ := Resolution.returns_bind.1 h₅
      obtain ⟨heq, rfl⟩ := Resolution.returns_pure.1 h₆
      simp only [Prod.mk.injEq] at heq
      obtain ⟨rfl, rfl, rfl, rfl, rfl, rfl⟩ := heq
      obtain ⟨bag, hbag⟩ : ∃ bag, emitted.entries = [("crud", bag)] := by
        rw [SortedMap.keys] at hkeys
        obtain ⟨⟨key, bag⟩, more, hcons, rfl, hmore⟩ := List.map_eq_cons_iff.1 hkeys
        exact ⟨bag, by rw [hcons, List.map_eq_nil_iff.1 hmore]⟩
      refine ⟨d₁, _, b, bag, entry, ⟨d₀, t₀, ⟨d₀, t₀, hsettle, ?_⟩, hnames⟩,
        ⟨plain, _, hpart, (plain, d₁), _, emitted,
          ⟨_, options, Resolution.Visits.head _ _ _ _ _, hoptions, hbuild⟩,
          plain, d₁, _, d₂, _, ?_, hname, hentry⟩, ?_⟩
      · have hall : nested.sets.resources.names = ["post"] := by decide +kernel
        rw [hall]
        exact Resolution.Visits.head _ _ _ _ _
      · rw [hbag]
        exact Resolution.Visits.head _ _ _ _ _
      · simpa [IsPlain, Option.isSome_iff_ne_none] using hbuilder

end Press

theorem actions_expanded_press :
    (∃ compiled d' t' config, ∃ d₁ t₁ rename attached,
      (Press.posted.finalize Press.resolver ⟨0, 0, 0⟩).Returns .empty (compiled, d') t' ∧
      compiled.sets.resources.configs.get? "post" = some config ∧
      (attachmentsOf config .action).keys = ["edit", "view"] ∧
      Press.label config "view" = some "b" ∧ Press.label config "edit" = some "a" ∧
      ActionsNamed Press.resolver Press.posted .empty "post" d₁ t₁ ∧
      config.get? "actions" = some (.object (attached.map Value.object)) ∧
      ActionsExpanded Press.resolver Press.posted .empty compiled.sets.actions.configs "post"
        rename d₁ t₁ attached) ∧
    (∃ d₁ t₁ b bag entry t', ActionsNamed Press.resolver Press.nested .empty "post" d₁ t₁ ∧
      EmitsAs Press.resolver d₁ t₁ "post" b "crud" bag "crud" entry ∧
      ¬ IsPlain Press.resolver.catalog entry ∧
      (Press.nested.finalize Press.resolver ⟨0, 0, 0⟩).Fails .empty
        (nestedBuilder "post" b.name "crud") t') ∧
    ∃ d₁ t₁ b emitted bag, ActionsNamed Press.resolver Press.nested .empty "post" d₁ t₁ ∧
      Emits Press.resolver d₁ t₁ "post" b emitted ∧ emitted.get? "crud" = some bag ∧
      ((∃ f t', (Press.nested.finalize Press.resolver ⟨0, 0, 0⟩).Fails .empty f t') ∨
        ∃ name entry, EmitsAs Press.resolver d₁ t₁ "post" b "crud" bag name entry ∧
          IsPlain Press.resolver.catalog entry) := by
  obtain ⟨hreturns, -⟩ := actions_expanded Press.resolver ⟨0, 0, 0⟩ Press.posted .empty
  obtain ⟨-, hnested, hkeys⟩ := actions_expanded Press.resolver ⟨0, 0, 0⟩ Press.nested .empty
  obtain ⟨d₁, t₁, b, bag, entry, hnamed, hemits, hbuilder⟩ := Press.nested_emitsAs
  refine ⟨?_, ?_, ?_⟩
  · obtain ⟨⟨compiled, d'⟩, t', h, htest⟩ := Resolution.returns_of_any
      (x := Press.posted.finalize Press.resolver ⟨0, 0, 0⟩) (t := .empty)
      (p := fun result => (result.1.sets.resources.configs.get? "post").any (fun config =>
        (attachmentsOf config .action).keys == ["edit", "view"] &&
          (Press.label config "view" == some "b" && Press.label config "edit" == some "a")))
      (by decide +kernel)
    obtain ⟨config, hconfig, htest⟩ := (Option.any_eq_true _ _).1 htest
    simp only [Bool.and_eq_true, beq_iff_eq] at htest
    have hnothing : ContributesNothing Press.resolver Press.posted .empty "post" := by
      refine contributesNothing_of_types (fun name type hget => ?_) _ _ _
      change (SortedMap.insert ∅ "press::Stamp" _).get? name = some type at hget
      rw [SortedMap.get?_insert] at hget
      split at hget
      · obtain rfl := Option.some.inj hget
        exact fun _ _ _ contributed hbuild => (Except.ok.inj hbuild).symm
      · cases hget
    obtain ⟨d₂, t₂, rename, attached, hnamed₂, hoption, hexpanded⟩ :=
      hreturns compiled d' t' h "post" config hconfig hnothing
    exact ⟨compiled, d', t', config, d₂, t₂, rename, attached, h, hconfig, htest.1, htest.2.1,
      htest.2.2, hnamed₂, hoption, hexpanded⟩
  · obtain ⟨t', hfails⟩ := hnested "post" d₁ t₁ b "crud" bag "crud" entry hnamed hemits hbuilder
    exact ⟨d₁, t₁, b, bag, entry, t', hnamed, hemits, hbuilder, hfails⟩
  · obtain ⟨emitted, hrun, hget⟩ := hemits.emits
    exact ⟨d₁, t₁, b, emitted, bag, hnamed, hrun, hget,
      hkeys "post" d₁ t₁ b emitted "crud" bag hnamed hrun hget⟩

end Draft
end ConfigCompiler
