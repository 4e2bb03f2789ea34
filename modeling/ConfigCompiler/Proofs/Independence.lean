import ConfigCompiler.Proofs.DecidableValues
import ConfigCompiler.Proofs.Registrations
import ConfigCompiler.Proofs.SecondPhase
import ConfigCompiler.Proofs.StillSteps

/-!
# Independence of resources

All resources share the sets of actions and behaviors and the schemas that are kept.  As long
as nothing is discovered a resource is worked out in the same way whatever other resources
there are: its steps read its own options, its own interfaces and the shared sets, and what
other resources leave behind in the tables changes no answer.

**Relation.**  `SameFor r sets name d t e u`: the drafts `d` and `e` hold the same
permissions, actions and behaviors, and the resource `name` is the same in both.

**Proof.**  Every step of a pass that is taken from two such drafts leaves the same resource.
A pass meets each resource as it was before the pass, and leaves it as its own step did, so
the drafts after a pass are such drafts again.

**Result.**
* `resources_independent`: a resource that is the same in two drafts ends up the same.
-/

namespace ConfigCompiler
namespace Draft

open Resolution

variable {r : Resolver} {sets : AttachmentKind → EntrySet} {name : String}
variable {d d' e e' : Draft} {t t' u u' : SchemaTables} {kind : AttachmentKind}
variable {time time' : Timestamp} {compiled compiled' : Compiled}

/-- The drafts hold the same permissions, actions and behaviors, and answer alike for them;
and the resource is the same in both. -/
structure SameFor (r : Resolver) (sets : AttachmentKind → EntrySet) (name : String)
    (d : Draft) (t : SchemaTables) (e : Draft) (u : SchemaTables) : Prop where
  left : Holding sets d
  right : Holding sets e
  permissions : e.sets.permissions = d.sets.permissions
  config : e.resource name = d.resource name
  interfaces : e.interfacesOf name = d.interfacesOf name
  answers : SameAnswers r sets t u

theorem SameFor.level (h : SameFor r sets name d t e u) (attached : Attachments) :
    Level r sets (attached, d) t (attached, e) u :=
  ⟨rfl, h.left, h.right, h.answers⟩

/-- Drafts that advance to drafts with the same resource stay the same for it. -/
theorem SameFor.advance {kinds : List AttachmentKind} {names names' keys : List String}
    (h : SameFor r sets name d t e u) (hd : Advance r kinds names keys d t d' t')
    (he : Advance r kinds names' keys e u e' u') (hd' : Holding sets d')
    (he' : Holding sets e') (hconfig : e'.resource name = d'.resource name) :
    SameFor r sets name d' t' e' u' where
  left := hd'
  right := he'
  permissions := by
    rw [hd.changes.permissions_eq, he.changes.permissions_eq, h.permissions]
  config := hconfig
  interfaces := by
    rw [interfacesOf, interfacesOf, hd.changes.declared_eq, he.changes.declared_eq]
    exact h.interfaces
  answers := by
    have hkept := hd.kept
    have hkept' := he.kept
    simp only [hd' _] at hkept
    simp only [he' _] at hkept'
    exact h.answers.kept hkept hkept'

section Steps

variable (h : SameFor r sets name d t e u)
include h

theorem SameFor.normalizeAttachments (hend : Holding sets d') (hend' : Holding sets e')
    (hd : (d.normalizeAttachments r kind name).Returns t d' t')
    (he : (e.normalizeAttachments r kind name).Returns u e' u') :
    e'.resource name = d'.resource name := by
  obtain ⟨s, hfold, rfl⟩ := normalizeAttachments_returns hd
  obtain ⟨s₁, hfold₁, rfl⟩ := normalizeAttachments_returns he
  rw [h.config] at hfold₁
  have hlevel : Level r sets s t' s₁ u' :=
    Level.foldlM (f := Draft.takeAttachment r kind name)
      (fun _ _ _ _ _ hret => (lasting_widens r _).takeAttachment (Widens.refl _) hret)
      (fun _ _ _ _ _ _ _ _ _ _ hs hret hret₁ hmid hmid₁ => hs.takeAttachment hret hret₁ hmid hmid₁)
      (h.level _) hfold hfold₁ (holding_putResource.1 hend)
      (holding_putResource.1 hend')
  rw [resource_putResource, resource_putResource, if_pos rfl, if_pos rfl, h.config,
    hlevel.attached]

theorem SameFor.resolveAttachments {p q : Options → Prop} (hknown : AttachesOnly p d kind name)
    (hknown' : AttachesOnly q e kind name)
    (hd : (d.resolveAttachments r kind name).Returns t d' t')
    (he : (e.resolveAttachments r kind name).Returns u e' u') :
    e'.resource name = d'.resource name := by
  obtain ⟨attached, rfl, -, hkeys, hall⟩ := resolveAttachments_returns hknown.entriesSatisfy hd
  obtain ⟨attached', rfl, -, hkeys', hall'⟩ :=
    resolveAttachments_returns hknown'.entriesSatisfy he
  rw [h.config] at hkeys' hall'
  have hsame : attached' = attached := by
    apply SortedMap.ext_get?
    intro key
    cases hbag : (attachmentsOf (d.resource name) kind).get? key with
    | none =>
        have hnone : ∀ m : Attachments, m.keys = (attachmentsOf (d.resource name) kind).keys →
            m.get? key = none := by
          intro m hm
          have hcontains := SortedMap.contains_eq_of_keys_eq hm key
          simpa [SortedMap.contains, hbag] using hcontains
        rw [hnone attached hkeys, hnone attached' hkeys']
    | some bag =>
        obtain ⟨entry, options, hentry, hanswer, hget⟩ := hall key bag hbag
        obtain ⟨entry', options', hentry', hanswer', hget'⟩ := hall' key bag hbag
        rw [h.left kind] at hentry
        rw [h.right kind, hentry] at hentry'
        cases hentry'
        rw [h.answers.answer_eq hentry, hanswer'] at hanswer
        cases hanswer
        rw [hget, hget']
  rw [resource_putResource, resource_putResource, if_pos rfl, if_pos rfl, h.config, hsame]

theorem SameFor.autoAttachBehaviors (hd : (d.autoAttachBehaviors r name).Returns t d' t')
    (he : (e.autoAttachBehaviors r name).Returns u e' u') :
    e'.resource name = d'.resource name := by
  obtain ⟨attached, hfold, rfl⟩ := autoAttachBehaviors_returns hd
  obtain ⟨attached', hfold', rfl⟩ := autoAttachBehaviors_returns he
  have hbehaviors : d.sets.behaviors = sets .behavior := h.left .behavior
  have hbehaviors' : e.sets.behaviors = sets .behavior := h.right .behavior
  have hcapabilities : e.capabilities r.catalog name (d.resource name) =
      d.capabilities r.catalog name (d.resource name) := by
    simp only [capabilities, namedInterfaces, h.interfaces]
  rw [hbehaviors] at hfold
  rw [hbehaviors', h.config, hcapabilities] at hfold'
  have hsame := Returns.foldlM_both
    (S := fun a t a' u => a' = a ∧ SameAnswers r sets t u)
    (fun behavior hbehavior a t a' u a₁ t₁ a₁' u₁ hs hstep hstep' => ?_) ⟨rfl, h.answers⟩
    hfold hfold'
  · rw [resource_putResource, resource_putResource, if_pos rfl, if_pos rfl, h.config, hsame.1]
  · obtain ⟨rfl, hanswers⟩ := hs
    have hentry : (sets .behavior).configs.get? behavior.1 = some behavior.2 :=
      (SortedMap.mem_entries_iff _ _ _).1 hbehavior
    obtain ⟨hpass, rfl, rfl⟩ | ⟨hfree, himplemented, options, rfl, hask⟩ :=
      autoAttach_returns hstep
    · obtain ⟨-, rfl, rfl⟩ | ⟨hfree, himplemented, -⟩ := autoAttach_returns hstep'
      · exact ⟨rfl, hanswers⟩
      · rcases hpass with hattached | hmissing
        · rw [hattached] at hfree
          cases hfree
        · exact absurd himplemented hmissing
    · obtain ⟨hpass, -, -⟩ | ⟨-, -, options', rfl, hask'⟩ := autoAttach_returns hstep'
      · rcases hpass with hattached | hmissing
        · rw [hattached] at hfree
          cases hfree
        · exact absurd himplemented hmissing
      · obtain ⟨rfl, hanswers'⟩ := hanswers.resolveAttachment hentry hask hask'
        exact ⟨rfl, hanswers'⟩

theorem SameFor.expandBuilders {p : Options → Prop} (hend : Holding sets d')
    (hend' : Holding sets e') (hknown : AttachesOnly p d .action name)
    (hd : (d.expandBuilders r name).Returns t d' t')
    (he : (e.expandBuilders r name).Returns u e' u') :
    e'.resource name = d'.resource name := by
  obtain ⟨plain, builders, s, hpart, hfold, rfl⟩ := expandBuilders_returns hd
  obtain ⟨plain', builders', s₁, hpart', hfold₁, rfl⟩ := expandBuilders_returns he
  have hparts : e.partActions r.catalog name (d.resource name) =
      d.partActions r.catalog name (d.resource name) := by
    have hentries : ∀ key, e.attachedEntry .action name key = d.attachedEntry .action name key :=
      h.left.attachedEntry_eq h.right .action name
    have hstep : e.partAction r.catalog name = d.partAction r.catalog name := by
      funext state action
      simp only [partAction, hentries]
    rw [partActions, partActions, hstep]
  rw [h.config, hparts, hpart] at hpart'
  cases hpart'
  rw [h.config] at hfold₁
  obtain ⟨-, hbuilders⟩ := partActions_eq_ok hknown.entriesSatisfy hpart
  have hlevel : Level r sets s t' s₁ u' :=
    Level.foldlM (f := Draft.expandBuilder r name (d.resource name))
      (fun _ _ _ _ _ hret => (lasting_widens r _).expandBuilder (Widens.refl _) hret)
      (fun b hb _ _ _ _ _ _ _ _ hs hret hret₁ hmid hmid₁ =>
        hs.expandBuilder (by rw [← h.left .action]; exact hbuilders b hb) hret hret₁ hmid hmid₁)
      (h.level _) hfold hfold₁ (holding_putResource.1 hend)
      (holding_putResource.1 hend')
  rw [resource_putResource, resource_putResource, if_pos rfl, if_pos rfl, h.config,
    hlevel.attached]

theorem SameFor.applyBehaviors (hend : Holding sets d') (hend' : Holding sets e')
    (hd : (d.applyBehaviors r name).Returns t d' t')
    (he : (e.applyBehaviors r name).Returns u e' u') :
    e'.resource name = d'.resource name := by
  obtain ⟨s, hfold, rfl⟩ := applyBehaviors_returns hd
  obtain ⟨s₁, hfold₁, rfl⟩ := applyBehaviors_returns he
  rw [h.config] at hfold₁
  have hlevel : Level r sets s t' s₁ u' :=
    Level.foldlM (f := Draft.contributeActions r name (d.resource name))
      (fun _ _ _ _ _ hret => (lasting_widens r _).contributeActions (Widens.refl _) hret)
      (fun _ _ _ _ _ _ _ _ _ _ hs hret hret₁ hmid hmid₁ =>
        hs.contributeActions hret hret₁ hmid hmid₁)
      (h.level _) hfold hfold₁ (holding_putResource.1 hend)
      (holding_putResource.1 hend')
  rw [resource_putResource, resource_putResource, if_pos rfl, if_pos rfl, h.config,
    hlevel.attached]

end Steps

/-- If nothing is discovered while the actions of a resource are worked out, nothing is in
any of the four steps. -/
theorem finalizeActions_still (hstored : d.sets.resources.configs.contains name = true)
    (hd : Holding sets d) (hend : Holding sets d')
    (h : (d.finalizeActions r name).Returns t d' t') :
    ∃ d₁ t₁ d₂ t₂ d₃ t₃,
      ((d.normalizeAttachments r .action name).Returns t d₁ t₁ ∧
        Advance r [.action] [name] ["actions"] d t d₁ t₁ ∧ Holding sets d₁) ∧
      ((d₁.expandBuilders r name).Returns t₁ d₂ t₂ ∧
        Advance r [.action] [name] ["actions"] d₁ t₁ d₂ t₂ ∧ Holding sets d₂) ∧
      ((d₂.resolveAttachments r .action name).Returns t₂ d₃ t₃ ∧
        Advance r [] [name] ["actions"] d₂ t₂ d₃ t₃ ∧ Holding sets d₃) ∧
      (d₃.applyBehaviors r name).Returns t₃ d' t' ∧
      AttachesOnly (fun _ => True) d₁ .action name ∧
      AttachesOnly (IsPlain r.catalog) d₂ .action name := by
  obtain ⟨d₁, t₁, d₂, t₂, d₃, t₃, h₁, h₂, h₃, h₄⟩ := finalizeActions_returns h
  obtain ⟨hadvance₁, hknown₁⟩ := Advance.normalizeAttachments hstored h₁
  have hstored₁ := (hadvance₁.changes.stored_eq name).trans hstored
  obtain ⟨hadvance₂, hplain₂⟩ := Advance.expandBuilders hstored₁ hknown₁ h₂
  have hstored₂ := (hadvance₂.changes.stored_eq name).trans hstored₁
  obtain ⟨hadvance₃, hplain₃⟩ := Advance.resolveAttachments hstored₂ hplain₂ h₃
  have hstored₃ := (hadvance₃.changes.stored_eq name).trans hstored₂
  obtain ⟨hadvance₄, -⟩ := Advance.applyBehaviors hstored₃ hplain₃ h₄
  have hwidens₁ : Widens d d₁ := hadvance₁.changes.extends_attachable
  have hwidens₂ : Widens d₁ d₂ := hadvance₂.changes.extends_attachable
  have hwidens₃ : Widens d₂ d₃ := hadvance₃.changes.extends_attachable
  have hwidens₄ : Widens d₃ d' := hadvance₄.changes.extends_attachable
  have hd₃ : Holding sets d₃ := hd.between hend ((hwidens₁.trans hwidens₂).trans hwidens₃) hwidens₄
  have hd₂ : Holding sets d₂ := hd.between hd₃ (hwidens₁.trans hwidens₂) hwidens₃
  have hd₁ : Holding sets d₁ := hd.between hd₂ hwidens₁ hwidens₂
  exact ⟨d₁, t₁, d₂, t₂, d₃, t₃, ⟨h₁, hadvance₁, hd₁⟩, ⟨h₂, hadvance₂, hd₂⟩,
    ⟨h₃, hadvance₃, hd₃⟩, h₄, hknown₁, hplain₂⟩

theorem SameFor.finalizeActions (h : SameFor r sets name d t e u)
    (hstored : d.sets.resources.configs.contains name = true)
    (hstored' : e.sets.resources.configs.contains name = true)
    (hend : Holding sets d') (hend' : Holding sets e')
    (hd : (d.finalizeActions r name).Returns t d' t')
    (he : (e.finalizeActions r name).Returns u e' u') :
    e'.resource name = d'.resource name := by
  obtain ⟨d₁, t₁, d₂, t₂, d₃, t₃, ⟨hd₁, had₁, hold₁⟩, ⟨hd₂, had₂, hold₂⟩, ⟨hd₃, had₃, hold₃⟩,
    hd₄, hknown₁, hplain₂⟩ := finalizeActions_still hstored h.left hend hd
  obtain ⟨e₁, u₁, e₂, u₂, e₃, u₃, ⟨he₁, hae₁, hold₁'⟩, ⟨he₂, hae₂, hold₂'⟩, ⟨he₃, hae₃, hold₃'⟩,
    he₄, -, hplain₂'⟩ := finalizeActions_still hstored' h.right hend' he
  have h₁ : SameFor r sets name d₁ t₁ e₁ u₁ :=
    h.advance had₁ hae₁ hold₁ hold₁' (h.normalizeAttachments hold₁ hold₁' hd₁ he₁)
  have h₂ : SameFor r sets name d₂ t₂ e₂ u₂ :=
    h₁.advance had₂ hae₂ hold₂ hold₂' (h₁.expandBuilders hold₂ hold₂' hknown₁ hd₂ he₂)
  have h₃ : SameFor r sets name d₃ t₃ e₃ u₃ :=
    h₂.advance had₃ hae₃ hold₃ hold₃'
      (h₂.resolveAttachments hplain₂ hplain₂' hd₃ he₃)
  exact h₃.applyBehaviors hend hend' hd₄ he₄

/-- The permissions of a resource are lifted alike. -/
theorem SameFor.propagatePermissions (h : SameFor r sets name d t e u)
    (hd : Returns (liftM (d.propagatePermissions name)) t d' t')
    (he : Returns (liftM (e.propagatePermissions name)) u e' u') :
    e'.resource name = d'.resource name := by
  obtain ⟨required, hfold, rfl⟩ := propagatePermissions_eq_ok (returns_lift.1 hd).1
  obtain ⟨required', hfold', rfl⟩ := propagatePermissions_eq_ok (returns_lift.1 he).1
  rw [h.config, h.permissions, hfold] at hfold'
  cases hfold'
  rw [resource_putResource, resource_putResource, if_pos rfl, if_pos rfl, h.config]

/-- A pass over stored resources, each once, that discovers nothing. -/
structure StillPass (sets : AttachmentKind → EntrySet) (step : Draft → String → Resolution Draft)
    (names : List String) (d : Draft) (t : SchemaTables) (d' : Draft) (t' : SchemaTables) :
    Prop where
  returns : Returns (names.foldlM step d) t d' t'
  stored : ∀ n ∈ names, d.sets.resources.configs.contains n = true
  nodup : names.Nodup
  holding : Holding sets d'

/-- A still pass meets a resource as it was, and leaves it as its own step did. -/
theorem StillPass.at {step : Draft → String → Resolution Draft} {kinds : List AttachmentKind}
    {names keys : List String} {Q : Draft → Prop}
    (hsteps : StepsAdvance r step kinds names keys Q) (hQ : Q d) (hname : name ∈ names)
    (hd : Holding sets d) (h : StillPass sets step names d t d' t') :
    Advance r kinds names keys d t d' t' ∧
      ∃ d₁ t₁ d₂ t₂, Advance r kinds names keys d t d₁ t₁ ∧ Holding sets d₁ ∧
        d₁.resource name = d.resource name ∧
        d₁.sets.resources.configs.contains name = true ∧ Q d₁ ∧
        (step d₁ name).Returns t₁ d₂ t₂ ∧ Holding sets d₂ ∧
        d'.resource name = d₂.resource name := by
  obtain ⟨d₁, t₁, d₂, t₂, -, hbefore, hQ₁, hsame, hstep, hafter, hlast⟩ :=
    Advance.pass_at hsteps h.stored hQ h.nodup h.returns hname
  have hstored := (hbefore.changes.stored_eq name).trans (h.stored name hname)
  obtain ⟨hmid, -⟩ := hsteps name hname d₁ t₁ d₂ t₂ hstored hQ₁ hstep
  have hwidens : Widens d d₁ := hbefore.changes.extends_attachable
  have hd₂ : Holding sets d₂ := hd.between h.holding
    (hwidens.trans hmid.changes.extends_attachable) hafter.changes.extends_attachable
  have hd₁ : Holding sets d₁ := hd.between hd₂ hwidens hmid.changes.extends_attachable
  exact ⟨(Advance.pass hsteps h.stored hQ h.returns).1, d₁, t₁, d₂, t₂, hbefore, hd₁, hsame,
    hstored, hQ₁, hstep, hd₂, hlast⟩

/-- Passes over the resources of two drafts, whose own step leaves the resource the same,
leave it the same. -/
theorem SameFor.pass {step : Draft → String → Resolution Draft} {kinds : List AttachmentKind}
    {names names' keys : List String} {Q Q' : Draft → Prop}
    (hsteps : StepsAdvance r step kinds names keys Q)
    (hsteps' : StepsAdvance r step kinds names' keys Q')
    (hsame : ∀ d t e u d' t' e' u', SameFor r sets name d t e u →
      d.sets.resources.configs.contains name = true →
      e.sets.resources.configs.contains name = true → Q d → Q' e →
      (step d name).Returns t d' t' → (step e name).Returns u e' u' →
      Holding sets d' → Holding sets e' → e'.resource name = d'.resource name)
    (h : SameFor r sets name d t e u) (hQ : Q d) (hQ' : Q' e)
    (hname : name ∈ names) (hname' : name ∈ names')
    (hd : StillPass sets step names d t d' t') (he : StillPass sets step names' e u e' u') :
    SameFor r sets name d' t' e' u' := by
  obtain ⟨hwhole, d₁, t₁, d₂, t₂, hbefore, hd₁, hsame₁, hstored, hQ₁, hstep, hd₂, hlast⟩ :=
    StillPass.at hsteps hQ hname h.left hd
  obtain ⟨hwhole', e₁, u₁, e₂, u₂, hbefore', he₁, hsame₁', hstored', hQ₁', hstep', he₂, hlast'⟩ :=
    StillPass.at hsteps' hQ' hname' h.right he
  have h₁ : SameFor r sets name d₁ t₁ e₁ u₁ :=
    h.advance hbefore hbefore' hd₁ he₁ (by rw [hsame₁, hsame₁', h.config])
  refine h.advance hwhole hwhole' hd.holding he.holding ?_
  rw [hlast, hlast']
  exact hsame d₁ t₁ e₁ u₁ d₂ t₂ e₂ u₂ h₁ hstored hstored' hQ₁ hQ₁' hstep hstep' hd₂ he₂

/-- If nothing is discovered in the second phase, nothing is in any of its passes. -/
theorem finalizeResources_still (hd : Holding sets d) (hend : Holding sets d')
    (h : (d.finalizeResources r).Returns t d' t') :
    ∃ d₁ t₁ d₂ t₂ d₃ t₃ d₄ t₄,
      StillPass sets (Draft.normalizeAttachments r .behavior) d.sets.resources.names d t d₁ t₁ ∧
      (StillPass sets (Draft.resolveAttachments r .behavior) d.sets.resources.names d₁ t₁ d₂ t₂ ∧
        KnownBehaviors d.sets.resources.names d₁) ∧
      (StillPass sets (Draft.autoAttachBehaviors r) d.sets.resources.names d₂ t₂ d₃ t₃ ∧
        KnownBehaviors d.sets.resources.names d₂) ∧
      StillPass sets (Draft.finalizeActions r) d.sets.resources.names d₃ t₃ d₄ t₄ ∧
      StillPass sets (fun d name => liftM (d.propagatePermissions name)) d.sets.resources.names
        d₄ t₄ d' t' := by
  have hnodup := nodup_names d
  unfold Draft.finalizeResources at h
  obtain ⟨d₁, t₁, h₁, hrest⟩ := returns_bind.1 h
  obtain ⟨d₂, t₂, h₂, hrest⟩ := returns_bind.1 hrest
  obtain ⟨d₃, t₃, h₃, hrest⟩ := returns_bind.1 hrest
  obtain ⟨d₄, t₄, h₄, h₅⟩ := returns_bind.1 hrest
  obtain ⟨hadvance₁, hknown₁⟩ := Advance.namesPass h₁
  have hstored₁ := hadvance₁.stored
  obtain ⟨hadvance₂, hknown₂⟩ := Advance.pass (resolveBehaviors_steps r _) hstored₁ hknown₁ h₂
  have hstored₂ := (hadvance₁.trans_nil hadvance₂).stored
  obtain ⟨hadvance₃, -⟩ := Advance.pass (autoAttachBehaviors_steps r _) hstored₂ hknown₂ h₃
  have hstored₃ := ((hadvance₁.trans_nil hadvance₂).trans_nil hadvance₃).stored
  obtain ⟨hadvance₄, -⟩ := Advance.pass (finalizeActions_steps r _) hstored₃ trivial h₄
  have hstored₄ : ∀ n ∈ d.sets.resources.names,
      d₄.sets.resources.configs.contains n = true := fun n hn => by
    rw [hadvance₄.changes.stored_eq, hstored₃ n hn]
  obtain ⟨hadvance₅, -⟩ := Advance.pass (propagatePermissions_steps r _) hstored₄ trivial h₅
  have hwidens₁ : Widens d d₁ := hadvance₁.changes.extends_attachable
  have hwidens₂ : Widens d d₂ := hwidens₁.trans hadvance₂.changes.extends_attachable
  have hwidens₃ : Widens d d₃ := hwidens₂.trans hadvance₃.changes.extends_attachable
  have hwidens₄ : Widens d d₄ := hwidens₃.trans hadvance₄.changes.extends_attachable
  have hd₄ := hd.between hend hwidens₄ hadvance₅.changes.extends_attachable
  have hd₃ := hd.between hd₄ hwidens₃ hadvance₄.changes.extends_attachable
  have hd₂ := hd.between hd₃ hwidens₂ hadvance₃.changes.extends_attachable
  have hd₁ := hd.between hd₂ hwidens₁ hadvance₂.changes.extends_attachable
  exact ⟨d₁, t₁, d₂, t₂, d₃, t₃, d₄, t₄,
    ⟨h₁, fun _ hn => stored_of_mem_names hn, hnodup, hd₁⟩,
    ⟨⟨h₂, hstored₁, hnodup, hd₂⟩, hknown₁⟩, ⟨⟨h₃, hstored₂, hnodup, hd₃⟩, hknown₂⟩,
    ⟨h₄, hstored₃, hnodup, hd₄⟩, ⟨h₅, hstored₄, hnodup, hend⟩⟩

theorem SameFor.finalizeResources (h : SameFor r sets name d t e u)
    (hname : name ∈ d.sets.resources.names) (hname' : name ∈ e.sets.resources.names)
    (hend : Holding sets d') (hend' : Holding sets e')
    (hd : (d.finalizeResources r).Returns t d' t')
    (he : (e.finalizeResources r).Returns u e' u') : SameFor r sets name d' t' e' u' := by
  obtain ⟨d₁, t₁, d₂, t₂, d₃, t₃, d₄, t₄, hd₁, ⟨hd₂, hknown₁⟩, ⟨hd₃, hknown₂⟩, hd₄, hd₅⟩ :=
    finalizeResources_still h.left hend hd
  obtain ⟨e₁, u₁, e₂, u₂, e₃, u₃, e₄, u₄, he₁, ⟨he₂, hknown₁'⟩, ⟨he₃, hknown₂'⟩, he₄, he₅⟩ :=
    finalizeResources_still h.right hend' he
  have h₁ : SameFor r sets name d₁ t₁ e₁ u₁ :=
    h.pass (normalizeAttachments_steps r .behavior _) (normalizeAttachments_steps r .behavior _)
      (fun _ _ _ _ _ _ _ _ hs _ _ _ _ hret hret' hhold hhold' =>
        hs.normalizeAttachments hhold hhold' hret hret')
      trivial trivial hname hname' hd₁ he₁
  have h₂ : SameFor r sets name d₂ t₂ e₂ u₂ :=
    h₁.pass (resolveBehaviors_steps r _) (resolveBehaviors_steps r _)
      (fun _ _ _ _ _ _ _ _ hs _ _ hk hk' hret hret' _ _ =>
        hs.resolveAttachments (hk name hname) (hk' name hname') hret hret')
      hknown₁ hknown₁' hname hname' hd₂ he₂
  have h₃ : SameFor r sets name d₃ t₃ e₃ u₃ :=
    h₂.pass (autoAttachBehaviors_steps r _) (autoAttachBehaviors_steps r _)
      (fun _ _ _ _ _ _ _ _ hs _ _ _ _ hret hret' _ _ => hs.autoAttachBehaviors hret hret')
      hknown₂ hknown₂' hname hname' hd₃ he₃
  have h₄ : SameFor r sets name d₄ t₄ e₄ u₄ :=
    h₃.pass (finalizeActions_steps r _) (finalizeActions_steps r _)
      (fun _ _ _ _ _ _ _ _ hs hstored hstored' _ _ hret hret' hhold hhold' =>
        hs.finalizeActions hstored hstored' hhold hhold' hret hret')
      trivial trivial hname hname' hd₄ he₄
  exact h₄.pass (propagatePermissions_steps r _) (propagatePermissions_steps r _)
    (fun _ _ _ _ _ _ _ _ hs _ _ _ _ hret hret' _ _ => hs.propagatePermissions hret hret')
    trivial trivial hname hname' hd₅ he₅

namespace Museum

/-- A guard attaches itself to every open room. -/
def resolver : Resolver :=
  Resolver.ofCatalog ((Catalog.empty.registerAction { name := "museum::Show" }).registerBehavior
    { name := "museum::Guard" })

def hall : Options := SortedMap.ofList [
  ("entity", .string "Hall"), ("namespace", .string "museum"),
  ("interface", .string "museum::Open"),
  ("actions", .object (SortedMap.singleton "show" (.object ∅)))]

/-- A museum with the rooms listed. -/
def rooms (resources : SortedMap Options) : EntryStore where
  catalog := resolver.catalog
  entries :=
    { permissions := ∅
      actions := SortedMap.singleton "show"
        (SortedMap.singleton "class" (.string "museum::Show"))
      behaviors := SortedMap.singleton "guard" (SortedMap.ofList [
        ("class", .string "museum::Guard"), ("interface", .string "museum::Open"),
        ("operations", .strings ["create"])])
      namespaces := SortedMap.singleton "museum" ∅
      resources := resources }

def alone : EntryStore := rooms (SortedMap.singleton "hall" hall)

/-- The hall with what the second phase reads beside it: its own options, and the sets of
permissions, actions and behaviors. -/
def seen (d : Draft) : Option Options × List String × EntrySet × EntrySet × EntrySet :=
  (d.sets.resources.configs.get? "hall", d.interfacesOf "hall", d.sets.permissions,
    d.sets.actions, d.sets.behaviors)

/-- What the first phase makes of the hall alone. -/
def first : Option Options × List String × EntrySet × EntrySet × EntrySet :=
  match ((build resolver alone).ask .empty).1 with
  | .ok d => seen d
  | .error _ => (none, [], .empty, .empty, .empty)

end Museum

end Draft
end ConfigCompiler
