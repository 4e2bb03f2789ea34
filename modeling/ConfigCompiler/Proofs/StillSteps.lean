import ConfigCompiler.Proofs.Discoveries

/-!
# Steps that discover nothing

Two resources share the sets of actions and behaviors, and the schemas that are kept.  As
long as nothing is discovered the sets stay as they are, and the schema that answers for a
stored entry stays the same too.  A step over one resource then ends in the same attachments
whatever drafts it is taken from, if the resource is the same in both.

**Input.**  `Holding sets d`: the draft `d` holds the sets of actions and behaviors `sets`.
`SameAnswers r sets t u`: the tables `t` and `u` answer alike for the entries of `sets`.

**Relation.**  `Level r sets s t s₁ u`: two runs have collected the same attachments, hold
`sets` and answer alike.

**Results.**
* `Holding.between`: between two drafts with the same sets nothing was discovered.
* `Level.foldlM`: two folds that discover nothing stay level when their steps do.
* `Level.takeAttachment`, `Level.expandBuilder`, `Level.contributeActions`: these steps
  stay level.
-/

namespace ConfigCompiler
namespace Draft

open Resolution

variable {r : Resolver} {d d' d'' e e' : Draft} {t t' u u' : SchemaTables}
variable {kind : AttachmentKind} {resource origin key name : String}

/-- The sets of actions and behaviors of a draft. -/
def Holding (sets : AttachmentKind → EntrySet) (d : Draft) : Prop :=
  ∀ kind, d.attachable kind = sets kind

section Holding

variable {sets : AttachmentKind → EntrySet}

/-- Between two drafts with the same sets nothing was discovered. -/
theorem Holding.between (hd : Holding sets d) (hd'' : Holding sets d'') (h : Widens d d')
    (h' : Widens d' d'') : Holding sets d' := by
  intro kind
  have hback : (d'.attachable kind).Extends (d.attachable kind) := by
    rw [hd kind, ← hd'' kind]
    exact h' kind
  exact ((h kind).antisymm hback).trans (hd kind)

theorem holding_putResource {config : Options} :
    Holding sets (d.putResource name config) ↔ Holding sets d := by
  simp only [Holding, attachable_putResource]

/-- If nothing is discovered a key leads to a name already. -/
theorem canonicalName_still (hd : Holding sets d) (hd' : Holding sets d')
    (h : (d.canonicalName r kind resource key).Returns t (name, d') t') :
    (sets kind).canonical? key = some name ∧ t' = t := by
  unfold canonicalName at h
  rw [hd kind] at h
  split at h
  · next hkey =>
      obtain ⟨heq, rfl⟩ := returns_pure.1 h
      rw [(Prod.mk.inj heq).1]
      exact ⟨hkey, rfl⟩
  · split at h
    · obtain ⟨raw, store, resolved, -, -, hregister⟩ := discover_returns h
      obtain ⟨set, collisions, -, -, hfree, -⟩ := register_eq_ok hregister
      have hnew := (Advance.discover h).2
      rw [hd' kind, ← hd kind] at hnew
      rw [show (d.attachable kind).configs.contains name = false from hfree] at hnew
      cases hnew
    · exact (returns_throw.1 h).elim

/-- The entry of an attached name is the one in the set. -/
theorem Holding.attachedEntry_eq (hd : Holding sets d) (he : Holding sets e)
    (kind : AttachmentKind) (resource name : String) :
    e.attachedEntry kind resource name = d.attachedEntry kind resource name := by
  rw [attachedEntry, attachedEntry, hd kind, he kind]

/-- An attached entry is the one stored under its name. -/
theorem stored_of_attachedEntry {entry : Options}
    (hname : (d.attachable kind).configs.contains name = true)
    (h : d.attachedEntry kind resource name = .ok entry) :
    (d.attachable kind).configs.get? name = some entry := by
  obtain ⟨stored, hstored⟩ := SortedMap.exists_of_contains hname
  rw [attachedEntry_of_stored hstored] at h
  cases h
  exact hstored

end Holding

/-- The tables answer alike for the entries of the sets. -/
def SameAnswers (r : Resolver) (sets : AttachmentKind → EntrySet) (t u : SchemaTables) : Prop :=
  ∀ kind name entry, (sets kind).configs.get? name = some entry →
    r.schemaInForce t kind name entry = r.schemaInForce u kind name entry

section SameAnswers

variable {sets : AttachmentKind → EntrySet} {entry : Options}

theorem SameAnswers.kept (h : SameAnswers r sets t u)
    (ht : r.KeptFor (fun kind => (sets kind).configs) t t')
    (hu : r.KeptFor (fun kind => (sets kind).configs) u u') : SameAnswers r sets t' u' := by
  intro kind name entry hentry
  rw [ht.schemaInForce_eq hentry, hu.schemaInForce_eq hentry, h kind name entry hentry]

theorem SameAnswers.answer_eq (h : SameAnswers r sets t u)
    (hentry : (sets kind).configs.get? name = some entry) (resource : String) (raw : Options) :
    r.attachmentAnswer t kind resource name entry raw =
      r.attachmentAnswer u kind resource name entry raw := by
  rw [Resolver.attachmentAnswer_eq, Resolver.attachmentAnswer_eq, h kind name entry hentry]

/-- The options of a stored attachment are resolved alike. -/
theorem SameAnswers.resolveAttachment {raw options options' : Options}
    (h : SameAnswers r sets t u) (hentry : (sets kind).configs.get? name = some entry)
    (ht : (r.resolveAttachment kind resource name entry raw).Returns t options t')
    (hu : (r.resolveAttachment kind resource name entry raw).Returns u options' u') :
    options' = options ∧ SameAnswers r sets t' u' := by
  have hanswer := (Resolver.returns_resolveAttachment.1 ht).1
  have hanswer' := (Resolver.returns_resolveAttachment.1 hu).1
  rw [h.answer_eq hentry, hanswer'] at hanswer
  cases hanswer
  have hkept : r.KeptFor (fun kind => (sets kind).configs) t t' :=
    Resolver.KeptFor.resolveAttachment hentry ht
  have hkept' : r.KeptFor (fun kind => (sets kind).configs) u u' :=
    Resolver.KeptFor.resolveAttachment hentry hu
  exact ⟨rfl, h.kept hkept hkept'⟩

end SameAnswers

/-- Two runs have collected the same attachments, hold the same sets, and answer alike. -/
structure Level (r : Resolver) (sets : AttachmentKind → EntrySet) (s : Attachments × Draft)
    (t : SchemaTables) (s₁ : Attachments × Draft) (u : SchemaTables) : Prop where
  attached : s₁.1 = s.1
  left : Holding sets s.2
  right : Holding sets s₁.2
  answers : SameAnswers r sets t u

section Level

variable {sets : AttachmentKind → EntrySet} {s s₁ s' s₁' : Attachments × Draft}
variable {item : String × Options}

/-- Two folds that discover nothing stay level when their steps do. -/
theorem Level.foldlM {α : Type} {items : List α}
    {f : Attachments × Draft → α → Resolution (Attachments × Draft)}
    (hwidens : ∀ item s t s' t', (f s item).Returns t s' t' → Widens s.2 s'.2)
    (hstep : ∀ item ∈ items, ∀ s t s₁ u s' t' s₁' u', Level r sets s t s₁ u →
      (f s item).Returns t s' t' → (f s₁ item).Returns u s₁' u' →
      Holding sets s'.2 → Holding sets s₁'.2 → Level r sets s' t' s₁' u')
    (hlevel : Level r sets s t s₁ u) (h : Returns (items.foldlM f s) t s' t')
    (h₁ : Returns (items.foldlM f s₁) u s₁' u') (hend : Holding sets s'.2)
    (hend₁ : Holding sets s₁'.2) : Level r sets s' t' s₁' u' := by
  have hrun : ∀ {items : List α} {s t s' t'}, Returns (items.foldlM f s) t s' t' →
      Widens s.2 s'.2 := fun h => h.foldlM_induction (P := fun s' _ => Widens _ s'.2)
    (fun item _ s t s' t' hs hret => hs.trans (hwidens item s t s' t' hret))
    (Widens.refl _)
  induction items generalizing s t s₁ u with
  | nil =>
      obtain ⟨rfl, rfl⟩ := returns_foldlM_nil.1 h
      obtain ⟨rfl, rfl⟩ := returns_foldlM_nil.1 h₁
      exact hlevel
  | cons item rest ih =>
      obtain ⟨s₂, t₂, hfirst, hrest⟩ := returns_foldlM_cons.1 h
      obtain ⟨s₃, u₃, hfirst₁, hrest₁⟩ := returns_foldlM_cons.1 h₁
      have hmid := hlevel.left.between hend (hwidens item s t s₂ t₂ hfirst) (hrun hrest)
      have hmid₁ := hlevel.right.between hend₁ (hwidens item s₁ u s₃ u₃ hfirst₁) (hrun hrest₁)
      exact ih (fun a ha => hstep a (List.mem_cons_of_mem _ ha))
        (hstep item List.mem_cons_self s t s₁ u s₂ t₂ s₃ u₃ hlevel hfirst hfirst₁ hmid hmid₁)
        hrest hrest₁

/-- Keys lead to the same name in both runs. -/
theorem Level.canonicalName {name₁ : String} (hlevel : Level r sets s t s₁ u)
    (h : (s.2.canonicalName r kind resource key).Returns t (name, d') t')
    (h₁ : (s₁.2.canonicalName r kind resource key).Returns u (name₁, e') u')
    (hend : Holding sets d') (hend₁ : Holding sets e') :
    name₁ = name ∧ (sets kind).configs.contains name = true ∧ SameAnswers r sets t' u' := by
  obtain ⟨hname, rfl⟩ := canonicalName_still hlevel.left hend h
  obtain ⟨hname₁, rfl⟩ := canonicalName_still hlevel.right hend₁ h₁
  rw [hname] at hname₁
  cases hname₁
  exact ⟨rfl, EntrySet.contains_of_canonical? hname, hlevel.answers⟩

theorem Level.takeAttachment (hlevel : Level r sets s t s₁ u)
    (h : (takeAttachment r kind resource s item).Returns t s' t')
    (h₁ : (takeAttachment r kind resource s₁ item).Returns u s₁' u')
    (hend : Holding sets s'.2) (hend₁ : Holding sets s₁'.2) : Level r sets s' t' s₁' u' := by
  obtain ⟨name, d', hname, rfl⟩ := takeAttachment_returns h
  obtain ⟨name₁, e', hname₁, rfl⟩ := takeAttachment_returns h₁
  obtain ⟨rfl, -, hanswers⟩ := hlevel.canonicalName hname hname₁ hend hend₁
  exact ⟨by rw [hlevel.attached], hend, hend₁, hanswers⟩

theorem Level.takeEmitted (hlevel : Level r sets s t s₁ u)
    (h : (takeEmitted r resource origin s item).Returns t s' t')
    (h₁ : (takeEmitted r resource origin s₁ item).Returns u s₁' u')
    (hend : Holding sets s'.2) (hend₁ : Holding sets s₁'.2) : Level r sets s' t' s₁' u' := by
  obtain ⟨name, d', hname, -, rfl⟩ := takeEmitted_returns h
  obtain ⟨name₁, e', hname₁, -, rfl⟩ := takeEmitted_returns h₁
  obtain ⟨rfl, -, hanswers⟩ := hlevel.canonicalName hname hname₁ hend hend₁
  exact ⟨by rw [hlevel.attached], hend, hend₁, hanswers⟩

theorem Level.expandBuilder {config : Options} {b : AttachedBuilder}
    (hb : (sets .action).configs.get? b.name = some b.entry) (hlevel : Level r sets s t s₁ u)
    (h : (expandBuilder r resource config s b).Returns t s' t')
    (h₁ : (expandBuilder r resource config s₁ b).Returns u s₁' u')
    (hend : Holding sets s'.2) (hend₁ : Holding sets s₁'.2) : Level r sets s' t' s₁' u' := by
  obtain ⟨options, emitted, t₂, hask, hbuild, hfold⟩ := expandBuilder_returns h
  obtain ⟨options₁, emitted₁, u₂, hask₁, hbuild₁, hfold₁⟩ := expandBuilder_returns h₁
  obtain ⟨rfl, hanswers⟩ := hlevel.answers.resolveAttachment hb hask hask₁
  rw [hlevel.attached] at hbuild₁
  obtain rfl : emitted = emitted₁ := Except.ok.inj (hbuild.symm.trans hbuild₁)
  exact Level.foldlM (f := Draft.takeEmitted r resource b.name)
    (fun _ _ _ _ _ hret => (lasting_widens r _).takeEmitted (Widens.refl _) hret)
    (fun _ _ _ _ _ _ _ _ _ _ hs hret hret₁ hmid hmid₁ => hs.takeEmitted hret hret₁ hmid hmid₁)
    ⟨hlevel.attached, hlevel.left, hlevel.right, hanswers⟩ hfold hfold₁ hend hend₁

theorem Level.takeContributed (hlevel : Level r sets s t s₁ u)
    (h : (takeContributed r resource origin s item).Returns t s' t')
    (h₁ : (takeContributed r resource origin s₁ item).Returns u s₁' u')
    (hend : Holding sets s'.2) (hend₁ : Holding sets s₁'.2) : Level r sets s' t' s₁' u' := by
  obtain ⟨name, d', entry, options, t₂, hname, -, hentry, hask, rfl⟩ := takeContributed_returns h
  obtain ⟨name₁, e', entry₁, options₁, u₂, hname₁, -, hentry₁, hask₁, rfl⟩ :=
    takeContributed_returns h₁
  obtain ⟨rfl, hstored, hanswers⟩ := hlevel.canonicalName hname hname₁ hend hend₁
  rw [hend.attachedEntry_eq hend₁] at hentry₁
  obtain rfl : entry = entry₁ := Except.ok.inj (hentry.symm.trans hentry₁)
  have hget := stored_of_attachedEntry (by rw [hend .action]; exact hstored) hentry
  rw [hend .action] at hget
  rw [hlevel.attached] at hask₁
  obtain ⟨rfl, hanswers'⟩ := hanswers.resolveAttachment hget hask hask₁
  exact ⟨by rw [hlevel.attached], hend, hend₁, hanswers'⟩

theorem Level.contributeActions {config : Options} {behavior : String × Options}
    (hlevel : Level r sets s t s₁ u)
    (h : (contributeActions r resource config s behavior).Returns t s' t')
    (h₁ : (contributeActions r resource config s₁ behavior).Returns u s₁' u')
    (hend : Holding sets s'.2) (hend₁ : Holding sets s₁'.2) : Level r sets s' t' s₁' u' := by
  have hentries := hlevel.left.attachedEntry_eq hlevel.right .behavior resource behavior.1
  unfold Draft.contributeActions at h h₁
  rw [hentries] at h₁
  obtain ⟨entry, t₂, hask, hrest⟩ := returns_bind.1 h
  obtain ⟨entry₁, u₂, hask₁, hrest₁⟩ := returns_bind.1 h₁
  obtain ⟨hentry, rfl⟩ := returns_lift.1 hask
  obtain ⟨hentry₁, rfl⟩ := returns_lift.1 hask₁
  obtain rfl : entry = entry₁ := Except.ok.inj (hentry.symm.trans hentry₁)
  cases htype : behaviorTypeOf? r.catalog entry with
  | none =>
      rw [htype] at hrest hrest₁
      obtain ⟨rfl, rfl⟩ := returns_pure.1 hrest
      obtain ⟨rfl, rfl⟩ := returns_pure.1 hrest₁
      exact hlevel
  | some type =>
      rw [htype] at hrest hrest₁
      obtain ⟨contributed, t₃, hlift, hfold⟩ := returns_bind.1 hrest
      obtain ⟨contributed₁, u₃, hlift₁, hfold₁⟩ := returns_bind.1 hrest₁
      obtain ⟨hbuild, rfl⟩ := returns_lift.1 hlift
      obtain ⟨hbuild₁, rfl⟩ := returns_lift.1 hlift₁
      rw [hlevel.attached] at hbuild₁
      obtain rfl : contributed = contributed₁ := Except.ok.inj (hbuild.symm.trans hbuild₁)
      exact Level.foldlM (f := Draft.takeContributed r resource behavior.1)
        (fun _ _ _ _ _ hret => (lasting_widens r _).takeContributed (Widens.refl _) hret)
        (fun _ _ _ _ _ _ _ _ _ _ hs hret hret₁ hmid hmid₁ =>
          hs.takeContributed hret hret₁ hmid hmid₁)
        hlevel hfold hfold₁ hend hend₁

end Level

end Draft
end ConfigCompiler
