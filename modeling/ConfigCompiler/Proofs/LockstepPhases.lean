import ConfigCompiler.Proofs.Agreement
import ConfigCompiler.Proofs.Discoveries
import ConfigCompiler.Proofs.Lockstep

/-!
# Phases in lockstep

A whole compilation is followed for two resolvers at once.  The resolvers know the same
catalog and the same extensions and differ at most in their policies, so that they go
apart only where the tables decide: in the question about the schema of a kind, and in the
one about the schema of an attachment.  The latter is only asked with the entry stored
under the name it is about, and what is stored stays stored.

**Input.**  `Tracks r p store I`: as long as the tables of `r` and those of
`r.withPolicy p` are related by `I d`, where `d` is the draft that both have reached, kinds
are answered for by the schemas of the extensions, stored entries by the same schema, and
no question ends the relation.

**Judgement.**  `InStep r store I d after x y`: the questions `x` and `y` go in lockstep
from the draft `d` to the draft after the answer.

**Results.**
* `Tracks.build`, `Tracks.finalize`: both phases go in lockstep.
* `Tracks.compile`: a compilation goes in lockstep.
-/

namespace ConfigCompiler

open Resolution

/-- The same resolver with another policy. -/
def Resolver.withPolicy (r : Resolver) (p : SchemaPolicy) : Resolver := { r with policy := p }

theorem Resolver.catalog_withPolicy (r : Resolver) (p : SchemaPolicy) :
    (r.withPolicy p).catalog = r.catalog := rfl

/-- Tables related by `I d` answer alike for what the draft `d` stores. -/
structure Tracks (r : Resolver) (p : SchemaPolicy) (store : EntryStore)
    (I : Draft → SchemaTables → SchemaTables → Prop) : Prop where
  kind : ∀ {d t u}, I d t u → ∀ kind,
    r.kindInForce t kind = r.kindSchema kind ∧ r.kindInForce u kind = r.kindSchema kind
  afterKind : ∀ {d t u}, I d t u → ∀ kind,
    I d (r.tablesAfterKind t kind) (r.tablesAfterKind u kind)
  attachment : ∀ {d t u}, I d t u → ∀ {kind name entry},
    (d.attachable kind).configs.get? name = some entry → Gives r store kind name entry →
    r.schemaInForce t kind name entry = (r.withPolicy p).schemaInForce u kind name entry
  afterAttachment : ∀ {d t u}, I d t u → ∀ {kind name entry},
    (d.attachable kind).configs.get? name = some entry → Gives r store kind name entry →
    I d (r.tablesAfter t kind name entry) ((r.withPolicy p).tablesAfter u kind name entry)
  widen : ∀ {d d' t u}, I d t u → d.Widens d' → I d' t u

/-- The draft stems from the store, and the tables are related. -/
def Tracked (r : Resolver) (store : EntryStore)
    (I : Draft → SchemaTables → SchemaTables → Prop) (d : Draft) (t u : SchemaTables) : Prop :=
  Stems r store d ∧ I d t u

/-- Two questions go in lockstep from one draft to another, which the answer determines. -/
def InStep {α : Type} (r : Resolver) (store : EntryStore)
    (I : Draft → SchemaTables → SchemaTables → Prop) (d : Draft) (after : α → Draft)
    (x y : Resolution α) : Prop :=
  Lockstep (fun t u => ∃ d, I d t u) (Tracked r store I d)
    (fun a => Tracked r store I (after a)) x y

section Judgement

variable {α β σ : Type} {r : Resolver} {p : SchemaPolicy} {store : EntryStore}
variable {I : Draft → SchemaTables → SchemaTables → Prop} {d : Draft}
variable {D : α → Draft} {D' : β → Draft}

theorem InStep.pure {a : α}
    (h : ∀ t u, Tracked r store I d t u → Tracked r store I (D a) t u) :
    InStep r store I d D (Pure.pure a) (Pure.pure a) :=
  Lockstep.pure h

theorem InStep.throw (f : Failure) : InStep r store I d D (throw f) (throw f) :=
  Lockstep.throw f (fun _ _ h => ⟨d, h.2⟩)

theorem InStep.lift {e : Except Failure α}
    (h : ∀ a, e = .ok a → ∀ t u, Tracked r store I d t u → Tracked r store I (D a) t u) :
    InStep r store I d D (liftM e) (liftM e) :=
  Lockstep.lift (fun _ _ h => ⟨d, h.2⟩) h

/-- A check that leaves the draft as it is. -/
theorem InStep.check (e : Except Failure α) :
    InStep r store I d (fun _ => d) (liftM e) (liftM e) :=
  InStep.lift (fun _ _ _ _ h => h)

theorem InStep.bind {x y : Resolution α} {f g : α → Resolution β}
    (hxy : InStep r store I d D x y)
    (hfg : ∀ a t u t', Tracked r store I d t u → x.Returns t a t' →
      InStep r store I (D a) D' (f a) (g a)) :
    InStep r store I d D' (x >>= f) (y >>= g) :=
  Lockstep.bind hxy hfg

theorem InStep.foldlM {f g : σ → α → Resolution σ} {items : List α} (draft : σ → Draft)
    (P : σ → Prop)
    (hstep : ∀ a ∈ items, ∀ s, P s → InStep r store I (draft s) draft (f s a) (g s a))
    (hkeep : ∀ a ∈ items, ∀ s t s' t', P s → (f s a).Returns t s' t' → P s')
    (s : σ) (hP : P s) :
    InStep r store I (draft s) draft (items.foldlM f s) (items.foldlM g s) :=
  Lockstep.foldlM hstep hkeep hP

/-- A fold whose steps go in lockstep whatever state they begin in. -/
theorem InStep.fold {f g : σ → α → Resolution σ} {items : List α} (draft : σ → Draft)
    (hstep : ∀ a ∈ items, ∀ s, InStep r store I (draft s) draft (f s a) (g s a)) (s : σ) :
    InStep r store I (draft s) draft (items.foldlM f s) (items.foldlM g s) :=
  InStep.foldlM draft (fun _ => True) (fun a ha s _ => hstep a ha s)
    (fun _ _ _ _ _ _ _ _ => trivial) s trivial

end Judgement

namespace Tracks

variable {r : Resolver} {p : SchemaPolicy} {store : EntryStore}
variable {I : Draft → SchemaTables → SchemaTables → Prop} {d : Draft}

section Questions

variable (h : Tracks r p store I)
include h

theorem kindSchemaM (kind : EntityKind) :
    InStep r store I d (fun _ => d) (r.kindSchemaM kind)
      ((r.withPolicy p).kindSchemaM kind) := by
  refine Lockstep.of_ask (fun t u hI => ?_)
  obtain ⟨ht, hu⟩ := h.kind hI.2 kind
  refine ⟨_, _, _, Resolver.ask_kindSchemaM .., ?_, ⟨d, h.afterKind hI.2 kind⟩,
    fun _ _ => ⟨hI.1, h.afterKind hI.2 kind⟩⟩
  rw [ht, ← hu]
  exact Resolver.ask_kindSchemaM _ kind u

/-- An entry is resolved by the schema of its kind. -/
theorem resolveEntry (kind : EntityKind) (key : String) (raw : Options) :
    InStep r store I d (fun _ => d) (r.resolveEntry kind key raw)
      ((r.withPolicy p).resolveEntry kind key raw) := by
  unfold Resolver.resolveEntry
  refine (h.kindSchemaM kind).bind (fun s _ _ _ _ _ => ?_)
  cases s.schema.resolve (Resolver.withName kind key raw) with
  | ok resolved => exact InStep.pure (fun _ _ hI => hI)
  | error violation => exact InStep.throw _

theorem resolved_of_returns {kind : EntityKind} {key : String} {raw resolved : Options}
    {t t' u : SchemaTables} (hI : Tracked r store I d t u)
    (hreturns : (r.resolveEntry kind key raw).Returns t resolved t') :
    (r.kindSchema kind).schema.resolve (Resolver.withName kind key raw) = .ok resolved := by
  rw [← (h.kind hI.2 kind).1]
  exact Resolver.entryAnswer_eq_ok.1 (Resolver.returns_resolveEntry.1 hreturns).1

/-- A stored action or behavior is asked about with its own entry. -/
theorem resolveStored {kind : AttachmentKind} {name : String} {entry : Options}
    (hentry : (d.attachable kind).configs.get? name = some entry) (resource : String)
    (raw : Options) :
    InStep r store I d (fun _ => d) (r.resolveAttachment kind resource name entry raw)
      ((r.withPolicy p).resolveAttachment kind resource name entry raw) := by
  refine Lockstep.of_ask (fun t u hI => ?_)
  have hgives := hI.1.entries kind name entry hentry
  have hafter := h.afterAttachment hI.2 hentry hgives
  refine ⟨_, _, _, Resolver.ask_resolveAttachment .., ?_, ⟨d, hafter⟩, fun _ _ => ⟨hI.1, hafter⟩⟩
  rw [Resolver.ask_resolveAttachment, h.attachment hI.2 hentry hgives]

theorem putResource {t u : SchemaTables} (hI : Tracked r store I d t u) (name : String)
    (config : Options) : Tracked r store I (d.putResource name config) t u :=
  ⟨hI.1.putResource name config, h.widen hI.2 (Draft.widens_putResource d name config)⟩

/-- A draft that stores the same actions and behaviors. -/
theorem congr {d' : Draft} {t u : SchemaTables} (hI : Tracked r store I d t u)
    (hstore : d'.store = d.store) (hattachable : ∀ kind, d'.attachable kind = d.attachable kind) :
    Tracked r store I d' t u := by
  refine ⟨hI.1.congr hstore (fun kind => by rw [hattachable]), h.widen hI.2 (fun kind => ?_)⟩
  rw [hattachable]
  exact EntrySet.Extends.refl _

/-- An entry may be stored if the compilation may give it. -/
theorem register {kind : EntityKind} {key : String} {resolved : Options}
    {interfaces : List String}
    (hgives : ∀ other, AttachmentKind.kind other = kind →
      Gives r store other (Resolver.entryName resolved key) resolved) :
    InStep r store I d Prod.snd (liftM (d.register kind key resolved interfaces))
      (liftM (d.register kind key resolved interfaces)) :=
  InStep.lift (fun _ hregister _ _ hI =>
    ⟨hI.1.register hgives hregister, h.widen hI.2 (Draft.register_widens hregister)⟩)

theorem resolveResource (key : String) (raw : Options)
    (namespaces permissions : SortedMap Options) :
    InStep r store I d (fun _ => d) (r.resolveResource key raw namespaces permissions)
      ((r.withPolicy p).resolveResource key raw namespaces permissions) := by
  unfold Resolver.resolveResource
  refine (h.resolveEntry .resource key raw).bind (fun resolved _ _ _ _ _ => ?_)
  refine (InStep.check _).bind (fun _ _ _ _ _ _ => ?_)
  exact (InStep.check _).bind (fun _ _ _ _ _ _ => InStep.pure (fun _ _ hI => hI))

theorem enterEntry {kind : EntityKind} {key : String} {raw : Options}
    (hraw : d.store.get? kind key = some raw) :
    InStep r store I d id (d.resolveEntry r kind key raw)
      (d.resolveEntry (r.withPolicy p) kind key raw) := by
  cases kind with
  | resource =>
      refine (InStep.check _).bind (fun taken _ _ _ _ _ => ?_)
      obtain ⟨interfaces, rest⟩ := taken
      refine (h.resolveResource key rest _ _).bind (fun resolved _ _ _ _ _ => ?_)
      refine (h.register (fun other hother => ?_)).bind (fun named _ _ _ _ _ => ?_)
      · cases other <;> cases hother
      · simp only
        split
        · exact InStep.pure (fun _ _ hI => hI)
        · exact InStep.pure (fun _ _ hI => h.congr hI rfl (fun _ => rfl))
  | _ =>
      refine (h.resolveEntry _ key raw).bind (fun resolved t u _ hI hresolved => ?_)
      refine (h.register (fun other hother => ?_)).bind
        (fun _ _ _ _ _ _ => InStep.pure (fun _ _ hI => hI))
      cases other <;> cases hother
      all_goals
        exact ⟨key, raw, hI.1.raws _ key raw hraw, h.resolved_of_returns hI hresolved, rfl⟩

end Questions

/-- While the entries of a kind are resolved the raw entries stay. -/
theorem store_of_enterEntry {kind : EntityKind} {item : String × Options} {d' : Draft}
    {t t' : SchemaTables} (h : (d.resolveEntry r kind item.1 item.2).Returns t d' t') :
    d'.store = d.store := by
  obtain ⟨e, -, hstores, -⟩ := Draft.resolveEntry_returns h
  exact hstores.store

section Phases

variable (h : Tracks r p store I)
include h

theorem enterKind (kind : EntityKind) (d : Draft) :
    InStep r store I d id (d.resolveKind r kind) (d.resolveKind (r.withPolicy p) kind) := by
  refine InStep.foldlM id (fun d' => d'.store = d.store)
    (fun item hitem d' hd' => h.enterEntry ?_)
    (fun item _ d₁ _ d₂ _ hd₁ hreturns => (store_of_enterEntry hreturns).trans hd₁) d rfl
  show d'.store.get? kind item.1 = some item.2
  rw [hd']
  exact (SortedMap.mem_entries_iff _ _ _).1 hitem

/-- The first phase goes in lockstep. -/
theorem build :
    InStep r store I (Draft.start store (fingerprint store.entries r)) id (Draft.build r store)
      (Draft.build (r.withPolicy p) store) := by
  refine (InStep.fold id (fun kind _ d => h.enterKind kind d) _).bind
    (fun d _ _ _ _ _ => ?_)
  refine (InStep.check _).bind (fun resources _ _ _ _ _ =>
    InStep.pure (fun _ _ hI => h.congr hI rfl (fun kind => ?_)))
  cases kind <;> rfl

theorem discover {kind : AttachmentKind} {key : String}
    (htype : r.catalog.hasType kind.kind key = true) :
    InStep r store I d Prod.snd (d.discover r kind key)
      (d.discover (r.withPolicy p) kind key) := by
  refine (InStep.lift (D := fun added => { d with store := added.2 })
    (fun added hadd t u hI => ⟨(hI.1.add htype hadd).2, h.widen hI.2 (Draft.Widens.refl d)⟩)).bind
    (fun added t u _ hI hadd => ?_)
  have hraw := (hI.1.add htype (returns_lift.1 hadd).1).1
  refine (h.resolveEntry kind.kind key added.1).bind (fun resolved _ _ _ hI' hresolved =>
    h.register (fun other hother => ?_))
  obtain rfl : kind = other := by
    cases kind <;> cases other <;> first | rfl | cases hother
  exact ⟨key, added.1, hraw, h.resolved_of_returns hI' hresolved, rfl⟩

theorem canonicalName (kind : AttachmentKind) (resource key : String) (d : Draft) :
    InStep r store I d Prod.snd (d.canonicalName r kind resource key)
      (d.canonicalName (r.withPolicy p) kind resource key) := by
  unfold Draft.canonicalName
  split
  · exact InStep.pure (fun _ _ hI => hI)
  · rw [Resolver.catalog_withPolicy]
    split
    · next htype => exact h.discover htype
    · exact InStep.throw _

theorem takeAttachment (kind : AttachmentKind) (resource : String) (item : String × Options)
    (state : Attachments × Draft) :
    InStep r store I state.2 Prod.snd (Draft.takeAttachment r kind resource state item)
      (Draft.takeAttachment (r.withPolicy p) kind resource state item) :=
  (h.canonicalName kind resource item.1 state.2).bind
    (fun _ _ _ _ _ _ => InStep.pure (fun _ _ hI => hI))

theorem normalizeAttachments (kind : AttachmentKind) (resource : String) (d : Draft) :
    InStep r store I d id (d.normalizeAttachments r kind resource)
      (d.normalizeAttachments (r.withPolicy p) kind resource) :=
  (InStep.fold Prod.snd
    (fun item _ state => h.takeAttachment kind resource item state) (∅, d)).bind
    (fun _ _ _ _ _ _ => InStep.pure (fun _ _ hI => h.putResource hI resource _))

theorem resolveAttachments {kind : AttachmentKind} {resource : String} {q : Options → Prop}
    (hknown : Draft.AttachesOnly q d kind resource) :
    InStep r store I d id (d.resolveAttachments r kind resource)
      (d.resolveAttachments (r.withPolicy p) kind resource) := by
  refine InStep.bind (D := fun _ => d) (Lockstep.mapM (fun name bag hbag => ?_))
    (fun _ _ _ _ _ _ => InStep.pure (fun _ _ hI => h.putResource hI resource _))
  obtain ⟨entry, hentry, -⟩ :=
    hknown.entriesSatisfy name (SortedMap.contains_of_get? hbag)
  rw [Draft.attachedEntry_of_stored hentry]
  exact h.resolveStored hentry resource bag

theorem autoAttach {behavior : String × Options}
    (hentry : (d.attachable .behavior).configs.get? behavior.1 = some behavior.2)
    (resource entity : String) (capabilities : NameSet) (attached : Attachments) :
    InStep r store I d (fun _ => d)
      (Draft.autoAttach r resource entity capabilities attached behavior)
      (Draft.autoAttach (r.withPolicy p) resource entity capabilities attached behavior) := by
  unfold Draft.autoAttach
  split
  · exact InStep.pure (fun _ _ hI => hI)
  · split
    · exact InStep.pure (fun _ _ hI => hI)
    · exact InStep.bind (D := fun _ => d)
        (Lockstep.adapt (h.resolveStored hentry resource ∅) _)
        (fun _ _ _ _ _ _ => InStep.pure (fun _ _ hI => hI))

theorem autoAttachBehaviors (resource : String) (d : Draft) :
    InStep r store I d id (d.autoAttachBehaviors r resource)
      (d.autoAttachBehaviors (r.withPolicy p) resource) := by
  refine (InStep.fold (fun _ => d) (fun behavior hbehavior attached => ?_) _).bind
    (fun _ _ _ _ _ _ => InStep.pure (fun _ _ hI => h.putResource hI resource _))
  exact h.autoAttach ((SortedMap.mem_entries_iff _ _ _).1 hbehavior) resource _ _ attached

theorem takeEmitted (resource origin : String) (item : String × Options)
    (state : Attachments × Draft) :
    InStep r store I state.2 Prod.snd (Draft.takeEmitted r resource origin state item)
      (Draft.takeEmitted (r.withPolicy p) resource origin state item) := by
  refine (h.canonicalName .action resource item.1 state.2).bind (fun named _ _ _ _ _ => ?_)
  refine (InStep.check _).bind (fun _ _ _ _ _ _ => ?_)
  split <;> exact InStep.pure (fun _ _ hI => hI)

theorem expandBuilder (resource : String) (config : Options) {b : AttachedBuilder}
    {state : Attachments × Draft}
    (hentry : (state.2.attachable .action).configs.get? b.name = some b.entry) :
    InStep r store I state.2 Prod.snd (Draft.expandBuilder r resource config state b)
      (Draft.expandBuilder (r.withPolicy p) resource config state b) := by
  refine (h.resolveStored hentry resource b.options).bind (fun options _ _ _ _ _ => ?_)
  refine (InStep.check _).bind (fun emitted _ _ _ _ _ => ?_)
  exact InStep.fold Prod.snd (fun item _ state => h.takeEmitted resource b.name item state) state

theorem expandBuilders {resource : String} {q : Options → Prop}
    (hknown : Draft.AttachesOnly q d .action resource) :
    InStep r store I d id (d.expandBuilders r resource)
      (d.expandBuilders (r.withPolicy p) resource) := by
  refine (InStep.check _).bind (fun parted _ _ _ _ hparted => ?_)
  obtain ⟨-, hbuilders⟩ :=
    Draft.partActions_eq_ok hknown.entriesSatisfy (returns_lift.1 hparted).1
  refine InStep.bind (D := Prod.snd)
    (InStep.foldlM Prod.snd (fun state : Attachments × Draft => d.Widens state.2)
      (fun b hb state hwidens => ?_) (fun b _ state t state' t' hwidens hreturns => ?_)
      (parted.1, d) (Draft.Widens.refl d))
    (fun _ _ _ _ _ _ => InStep.pure (fun _ _ hI => h.putResource hI resource _))
  · exact h.expandBuilder resource _ ((hwidens .action).configs _ _ (hbuilders b hb))
  · exact (Draft.lasting_widens r d).expandBuilder hwidens hreturns

/-- What a behavior contributes is stored when its options are resolved. -/
theorem takeContributed (resource origin : String) (item : String × Options)
    (state : Attachments × Draft) :
    InStep r store I state.2 Prod.snd (Draft.takeContributed r resource origin state item)
      (Draft.takeContributed (r.withPolicy p) resource origin state item) := by
  refine (h.canonicalName .action resource item.1 state.2).bind
    (fun named _ _ _ _ hreturns => ?_)
  obtain ⟨entry, hentry⟩ :=
    SortedMap.exists_of_contains (Draft.Advance.canonicalName hreturns).2
  refine (InStep.check _).bind (fun _ _ _ _ _ _ => ?_)
  rw [Draft.attachedEntry_of_stored hentry]
  exact (h.resolveStored hentry resource _).bind
    (fun _ _ _ _ _ _ => InStep.pure (fun _ _ hI => hI))

theorem contributeActions (resource : String) (config : Options) (behavior : String × Options)
    (state : Attachments × Draft) :
    InStep r store I state.2 Prod.snd
      (Draft.contributeActions r resource config state behavior)
      (Draft.contributeActions (r.withPolicy p) resource config state behavior) := by
  refine (InStep.check _).bind (fun entry _ _ _ _ _ => ?_)
  rw [Resolver.catalog_withPolicy]
  cases behaviorTypeOf? r.catalog entry with
  | none => exact InStep.pure (fun _ _ hI => hI)
  | some type =>
      refine (InStep.check _).bind (fun contributed _ _ _ _ _ => ?_)
      exact InStep.fold Prod.snd
        (fun item _ state => h.takeContributed resource behavior.1 item state) state

theorem applyBehaviors (resource : String) (d : Draft) :
    InStep r store I d id (d.applyBehaviors r resource)
      (d.applyBehaviors (r.withPolicy p) resource) :=
  (InStep.fold Prod.snd
    (fun behavior _ state => h.contributeActions resource (d.resource resource) behavior state)
    (attachmentsOf (d.resource resource) .action, d)).bind
    (fun _ _ _ _ _ _ => InStep.pure (fun _ _ hI => h.putResource hI resource _))

theorem finalizeActions {resource : String}
    (hstored : d.sets.resources.configs.contains resource = true) :
    InStep r store I d id (d.finalizeActions r resource)
      (d.finalizeActions (r.withPolicy p) resource) := by
  refine (h.normalizeAttachments .action resource d).bind (fun d₁ _ _ _ _ hreturns₁ => ?_)
  obtain ⟨hadvance₁, hknown₁⟩ := Draft.Advance.normalizeAttachments hstored hreturns₁
  have hstored₁ := (hadvance₁.changes.stored_eq resource).trans hstored
  refine (h.expandBuilders hknown₁).bind (fun d₂ _ _ _ _ hreturns₂ => ?_)
  obtain ⟨-, hknown₂⟩ := Draft.Advance.expandBuilders hstored₁ hknown₁ hreturns₂
  exact (h.resolveAttachments hknown₂).bind (fun d₃ _ _ _ _ _ => h.applyBehaviors resource d₃)

omit h in
/-- A pass goes in lockstep if its steps do, and each of them advances the draft. -/
theorem pass {step step' : Draft → String → Resolution Draft} {kinds : List AttachmentKind}
    {names keys : List String} {Q : Draft → Prop}
    (hadvance : Draft.StepsAdvance r step kinds names keys Q)
    (hstep : ∀ name ∈ names, ∀ d, d.sets.resources.configs.contains name = true → Q d →
      InStep r store I d id (step d name) (step' d name))
    (hnames : ∀ name ∈ names, d.sets.resources.configs.contains name = true) (hQ : Q d) :
    InStep r store I d id (names.foldlM step d) (names.foldlM step' d) := by
  refine InStep.foldlM id (fun d =>
      (∀ name ∈ names, d.sets.resources.configs.contains name = true) ∧ Q d)
    (fun name hname d hd => hstep name hname d (hd.1 name hname) hd.2)
    (fun name hname d t d' t' hd hreturns => ?_) d ⟨hnames, hQ⟩
  obtain ⟨hstep, hQ'⟩ := hadvance name hname d t d' t' (hd.1 name hname) hd.2 hreturns
  exact ⟨fun other hother => (hstep.changes.stored_eq other).trans (hd.1 other hother), hQ'⟩

theorem settleBehaviors (d : Draft) :
    InStep r store I d id (d.settleBehaviors r) (d.settleBehaviors (r.withPolicy p)) := by
  have hdeclare : InStep r store I d id (d.declareBehaviors r)
      (d.declareBehaviors (r.withPolicy p)) := by
    refine (pass (Draft.normalizeAttachments_steps r .behavior _)
      (fun name _ d _ _ => h.normalizeAttachments .behavior name d)
      (fun _ hname => Draft.stored_of_mem_names hname) trivial).bind
      (fun d₁ _ _ _ _ hreturns => ?_)
    obtain ⟨hadvance, hknown⟩ := Draft.Advance.namesPass hreturns
    exact pass (Draft.resolveBehaviors_steps r _)
      (fun name hname d _ hk => h.resolveAttachments (hk name hname)) hadvance.stored hknown
  refine hdeclare.bind (fun d₁ _ _ _ _ hreturns => ?_)
  obtain ⟨hadvance, hknown⟩ := Draft.Advance.declareBehaviors hreturns
  exact pass (Draft.autoAttachBehaviors_steps r _)
    (fun name _ d _ _ => h.autoAttachBehaviors name d) hadvance.stored hknown

theorem finalizeResources (d : Draft) :
    InStep r store I d id (d.finalizeResources r) (d.finalizeResources (r.withPolicy p)) := by
  rw [Draft.finalizeResources_eq, Draft.finalizeResources_eq]
  have hsettle : InStep r store I d id (d.settleAttachments r)
      (d.settleAttachments (r.withPolicy p)) := by
    refine (h.settleBehaviors d).bind (fun d₁ _ _ _ _ hreturns => ?_)
    exact pass (Draft.finalizeActions_steps r _)
      (fun name _ d hstored _ => h.finalizeActions hstored)
      (Draft.Advance.settleBehaviors hreturns).1.stored trivial
  refine hsettle.bind (fun d₁ _ _ _ _ _ => InStep.fold id (fun name _ d =>
    InStep.lift (fun d' hd' _ _ hI => ?_)) d₁)
  obtain ⟨required, -, rfl⟩ := Draft.propagatePermissions_eq_ok hd'
  exact h.putResource hI name _

theorem collectDefaults (d : Draft) :
    InStep r store I d (fun _ => d) (Draft.collectDefaults r)
      (Draft.collectDefaults (r.withPolicy p)) := by
  refine InStep.fold (fun _ => d) (fun kind _ m => ?_) _
  refine InStep.bind (D := fun _ => d) ?_ (fun _ _ _ _ _ _ => InStep.pure (fun _ _ hI => hI))
  exact (h.kindSchemaM kind).bind (fun _ _ _ _ _ _ => InStep.pure (fun _ _ hI => hI))

/-- The second phase goes in lockstep. -/
theorem finalize (time : Timestamp) (d : Draft) :
    InStep r store I d Prod.snd (d.finalize r time) (d.finalize (r.withPolicy p) time) :=
  (h.finalizeResources d).bind (fun d' _ _ _ _ _ =>
    (h.collectDefaults d').bind (fun _ _ _ _ _ _ => InStep.pure (fun _ _ hI => hI)))

/-- A compilation goes in lockstep. -/
theorem compile (time : Timestamp) :
    Lockstep (fun t u => ∃ d, I d t u)
      (I (Draft.start store (fingerprint store.entries r)))
      (fun _ t u => ∃ d, I d t u) (ConfigCompiler.compile r time store)
      (ConfigCompiler.compile (r.withPolicy p) time store) := by
  intro t u hI
  have hstart : Tracked r store I (Draft.start store (fingerprint store.entries r)) t u :=
    ⟨Stems.start r store _, hI⟩
  refine Lockstep.bind h.build (fun d _ _ _ _ _ => ?_) t u hstart
  exact Lockstep.bind (h.finalize time d)
    (fun result _ _ _ _ _ => Lockstep.pure (fun _ _ hI => ⟨result.2, hI.2⟩))

end Phases

end Tracks
end ConfigCompiler
