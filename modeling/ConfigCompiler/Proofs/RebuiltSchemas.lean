import ConfigCompiler.Proofs.AliasOwnership
import ConfigCompiler.Proofs.LockstepPhases

/-!
# Schemas that are rebuilt

The policy `SchemaPolicy.rebuild` puts the schema of an attachment together anew whenever
it is asked about.  A fresh resolver that keeps its schemas instead compiles as if it did
the same.

**Invariant.**  `KeptFresh r d t u`: what the tables `t` keep under the name of an
attachment is the schema of the entry that the draft `d` stores under that name.  Names are
never bound again, so this survives every discovery, and the kept schema is the one that
would be put together now.

**Relation.**  `LookedUp r d t kind resource key d' answer`: in the second phase of `d` a
key is looked up in the draft `d'`, with the answer.  The answer holds the collisions
reported so far, and the runs that fail later are included.

**Results.**
* `KeyAsked.follow`, `LookedUp.follow`: resolvers in lockstep look up the same keys in the
  same drafts.
* `tracks_rebuild`: a fresh resolver is tracked by one that rebuilds.
* `compile_rebuild`: keeping schemas cannot be told from rebuilding them.
-/

namespace ConfigCompiler

open Resolution

section Symmetry

variable {r : Resolver} {p : SchemaPolicy} {store : EntryStore}
variable {I : Draft → SchemaTables → SchemaTables → Prop} {d : Draft} {t u : SchemaTables}

/-- What tracks one resolver by another tracks the other by the one. -/
theorem Tracks.symm (h : Tracks r p store I) :
    Tracks (r.withPolicy p) r.policy store (fun d t u => I d u t) where
  kind := fun hI kind => (h.kind hI kind).symm
  afterKind := fun hI kind => h.afterKind hI kind
  attachment := fun hI _ _ _ hentry hgives => (h.attachment hI hentry hgives).symm
  afterAttachment := fun hI _ _ _ hentry hgives => h.afterAttachment hI hentry hgives
  widen := fun hI hwidens => h.widen hI hwidens

/-- What a draft stems from does not depend on the policy. -/
theorem Tracked.symm (h : Tracked r store I d t u) :
    Tracked (r.withPolicy p) store (fun d t u => I d u t) d u t :=
  ⟨⟨h.1.catalog, h.1.kept, h.1.raws, h.1.entries⟩, h.2⟩

end Symmetry

namespace Draft

section Following

variable {r : Resolver} {p : SchemaPolicy} {store : EntryStore}
variable {I : Draft → SchemaTables → SchemaTables → Prop}
variable {d d' : Draft} {t t' u : SchemaTables}
variable {kind : AttachmentKind} {resource key : String}

/-- A fold whose steps go in lockstep meets the same items in the same states. -/
theorem visits_follow {α σ : Type} {f g : σ → α → Resolution σ} {items : List α} {s s' : σ}
    {a : α} (draft : σ → Draft) (P : σ → Prop)
    (hstep : ∀ a ∈ items, ∀ s, P s → InStep r store I (draft s) draft (f s a) (g s a))
    (hkeep : ∀ a ∈ items, ∀ s t s' t', P s → (f s a).Returns t s' t' → P s') (hP : P s)
    (hI : Tracked r store I (draft s) t u) (hvisit : Visits f s t items a s' t') :
    ∃ u', Visits g s u items a s' u' ∧ Tracked r store I (draft s') t' u' ∧ P s' :=
  Lockstep.visits hstep hkeep hP hI hvisit

variable (h : Tracks r p store I)
include h

theorem KeyMet.follow (hI : Tracked r store I d t u)
    (hmet : KeyMet r kind d t resource key d' t') :
    ∃ u', KeyMet (r.withPolicy p) kind d u resource key d' u' ∧ Tracked r store I d' t' u' := by
  obtain ⟨bag, attached, hvisit⟩ := hmet
  obtain ⟨u', hvisit', hI', -⟩ := visits_follow Prod.snd (fun _ => True)
    (fun item _ state _ => h.takeAttachment kind resource item state)
    (fun _ _ _ _ _ _ _ _ => trivial) trivial hI hvisit
  exact ⟨u', ⟨bag, attached, hvisit'⟩, hI'⟩

theorem ActionsBegun.follow (hI : Tracked r store I d t u)
    (hbegun : ActionsBegun r d t resource d' t') :
    ∃ u', ActionsBegun (r.withPolicy p) d u resource d' u' ∧ Tracked r store I d' t' u' := by
  obtain ⟨d₁, t₁, hsettle, hvisit⟩ := hbegun
  obtain ⟨u₁, hsettle', hI₁⟩ := Lockstep.of_returns (h.settleBehaviors d) hI hsettle
  obtain ⟨hadvance, -⟩ := Advance.settleBehaviors hsettle
  obtain ⟨u', hvisit', hI', -⟩ := visits_follow id
    (fun d₂ => ∀ name ∈ d.sets.resources.names, d₂.sets.resources.configs.contains name = true)
    (fun name hname _ hstored => h.finalizeActions (hstored name hname))
    (fun name hname d₂ _ d₃ _ hstored hreturns other hother =>
      ((Advance.finalizeActions (hstored name hname) hreturns).1.changes.stored_eq other).trans
        (hstored other hother))
    hadvance.stored hI₁ hvisit
  exact ⟨u', ⟨d₁, u₁, hsettle', hvisit'⟩, hI'⟩

/-- Wherever the one resolver looks up a key, the other looks it up in the same draft. -/
theorem KeyAsked.follow (hI : Tracked r store I d t u)
    (hasked : KeyAsked r d t kind resource key d' t') :
    ∃ u', KeyAsked (r.withPolicy p) d u kind resource key d' u' ∧
      Tracked r store I d' t' u' := by
  cases hasked with
  | attachedBehavior hpass hkey =>
      obtain ⟨u₁, hpass', hI₁, -⟩ := visits_follow id (fun _ => True)
        (fun name _ d _ => h.normalizeAttachments .behavior name d)
        (fun _ _ _ _ _ _ _ _ => trivial) trivial hI hpass
      obtain ⟨u', hkey', hI'⟩ := hkey.follow h hI₁
      exact ⟨u', .attachedBehavior hpass' hkey', hI'⟩
  | attachedAction hbegun hkey =>
      obtain ⟨u₁, hbegun', hI₁⟩ := hbegun.follow h hI
      obtain ⟨u', hkey', hI'⟩ := hkey.follow h hI₁
      exact ⟨u', .attachedAction hbegun' hkey', hI'⟩
  | @emitted _ _ d₁ d₂ _ _ _ _ _ _ _ _ _ _ b state _ _ hbegun hnormalize hpart hbuilder hoptions
      hbuild hkey =>
      obtain ⟨-, hstored⟩ := hbegun.advance
      obtain ⟨u₁, hbegun', hI₁⟩ := hbegun.follow h hI
      obtain ⟨u₂, hnormalize', hI₂⟩ :=
        Lockstep.of_returns (h.normalizeAttachments .action resource d₁) hI₁ hnormalize
      obtain ⟨-, hknown⟩ := Advance.normalizeAttachments hstored hnormalize
      obtain ⟨-, hbuilders⟩ := partActions_eq_ok hknown.entriesSatisfy hpart
      obtain ⟨u₃, hbuilder', hI₃, hwidens⟩ := visits_follow Prod.snd
        (fun state : Attachments × Draft => d₂.Widens state.2)
        (fun b hb _ hwidens =>
          h.expandBuilder resource _ ((hwidens .action).configs _ _ (hbuilders b hb)))
        (fun _ _ _ _ _ _ hwidens hstep => (lasting_widens r d₂).expandBuilder hwidens hstep)
        (Widens.refl d₂) hI₂ hbuilder
      have hentry := (hwidens .action).configs _ _ (hbuilders b hbuilder.mem)
      obtain ⟨u₄, hoptions', hI₄⟩ :=
        Lockstep.of_returns (h.resolveStored hentry resource b.options) hI₃ hoptions
      obtain ⟨u', hkey', hI', -⟩ := visits_follow Prod.snd (fun _ => True)
        (fun item _ state _ => h.takeEmitted resource b.name item state)
        (fun _ _ _ _ _ _ _ _ => trivial) trivial hI₄ hkey
      exact ⟨u', .emitted hbegun' hnormalize' hpart hbuilder' hoptions' hbuild hkey', hI'⟩
  | @contributed _ _ d₁ d₂ d₃ d₄ _ _ _ _ _ _ _ behavior state _ _ _ _ _ hbegun hnormalize hexpand
      hresolve hbehavior hentry htype hbuild hkey =>
      obtain ⟨-, hstored⟩ := hbegun.advance
      obtain ⟨u₁, hbegun', hI₁⟩ := hbegun.follow h hI
      obtain ⟨u₂, hnormalize', hI₂⟩ :=
        Lockstep.of_returns (h.normalizeAttachments .action resource d₁) hI₁ hnormalize
      obtain ⟨hadvance₂, hknown₂⟩ := Advance.normalizeAttachments hstored hnormalize
      obtain ⟨u₃, hexpand', hI₃⟩ := Lockstep.of_returns (h.expandBuilders hknown₂) hI₂ hexpand
      obtain ⟨-, hknown₃⟩ := Advance.expandBuilders
        ((hadvance₂.changes.stored_eq resource).trans hstored) hknown₂ hexpand
      obtain ⟨u₄, hresolve', hI₄⟩ :=
        Lockstep.of_returns (h.resolveAttachments hknown₃) hI₃ hresolve
      obtain ⟨u₅, hbehavior', hI₅, -⟩ := visits_follow Prod.snd (fun _ => True)
        (fun behavior _ state _ => h.contributeActions resource _ behavior state)
        (fun _ _ _ _ _ _ _ _ => trivial) trivial hI₄ hbehavior
      obtain ⟨u', hkey', hI', -⟩ := visits_follow Prod.snd (fun _ => True)
        (fun item _ state _ => h.takeContributed resource behavior.1 item state)
        (fun _ _ _ _ _ _ _ _ => trivial) trivial hI₅ hkey
      exact ⟨u', .contributed hbegun' hnormalize' hexpand' hresolve' hbehavior' hentry htype
        hbuild hkey', hI'⟩

end Following

/-- In the second phase of `d` a key is looked up for a resource in the draft `d'`, and the
look-up ends with the answer. -/
def LookedUp (r : Resolver) (d : Draft) (t : SchemaTables) (kind : AttachmentKind)
    (resource key : String) (d' : Draft) (answer : Except Failure (String × Draft)) : Prop :=
  ∃ t', KeyAsked r d t kind resource key d' t' ∧
    ((d'.canonicalName r kind resource key).ask t').1 = answer

theorem LookedUp.follow {r : Resolver} {p : SchemaPolicy} {store : EntryStore}
    {I : Draft → SchemaTables → SchemaTables → Prop} {d d' : Draft} {t u : SchemaTables}
    {kind : AttachmentKind} {resource key : String}
    {answer : Except Failure (String × Draft)} (h : Tracks r p store I)
    (hI : Tracked r store I d t u) (hlooked : LookedUp r d t kind resource key d' answer) :
    LookedUp (r.withPolicy p) d u kind resource key d' answer := by
  obtain ⟨t', hasked, hanswer⟩ := hlooked
  obtain ⟨u', hasked', hI'⟩ := hasked.follow h hI
  refine ⟨u', hasked', ?_⟩
  rw [← hanswer]
  exact (Lockstep.answer_eq (h.canonicalName kind resource key d') hI').symm

end Draft

/-- The tables `t` keep nothing of attachments but the schemas of entries that the draft
stores, and neither tables change what answers for a kind. -/
structure KeptFresh (r : Resolver) (d : Draft) (t u : SchemaTables) : Prop where
  kept : r.KeptFor (fun kind => (d.attachable kind).configs) .empty t
  kinds : r.SameKinds .empty t
  rebuilt : r.SameKinds .empty u

namespace KeptFresh

variable {r : Resolver} {d : Draft} {t u : SchemaTables}

theorem start (r : Resolver) (d : Draft) : KeptFresh r d .empty .empty :=
  ⟨Resolver.KeptFor.refl _ _ _, Resolver.SameKinds.refl _ _, Resolver.SameKinds.refl _ _⟩

/-- The schema in force for a stored entry is the one that would be put together now. -/
theorem schemaInForce_eq (h : KeptFresh r d t u) {kind : AttachmentKind} {name : String}
    {entry : Options} (hentry : (d.attachable kind).configs.get? name = some entry) :
    r.schemaInForce t kind name entry = r.attachmentSchema kind entry := by
  rw [h.kept.schemaInForce_eq hentry]
  refine Resolver.schemaInForce_of_get?_eq_none entry ?_
  cases kind <;> rfl

end KeptFresh

/-- A fresh resolver is tracked by one that rebuilds its schemas. -/
theorem tracks_rebuild (r : Resolver) (store : EntryStore) :
    Tracks r .rebuild store (KeptFresh r) where
  kind := fun h kind => by
    rw [h.kinds kind, h.rebuilt kind, r.kindInForce_empty]
    exact ⟨rfl, rfl⟩
  afterKind := fun {d t u} h kind =>
    ⟨fun other name => by simpa using h.kept other name,
      h.kinds.trans (r.sameKinds_tablesAfterKind t kind),
      h.rebuilt.trans (r.sameKinds_tablesAfterKind u kind)⟩
  attachment := fun h _ _ _ hentry _ => h.schemaInForce_eq hentry
  afterAttachment := fun {d t u} h kind name entry hentry _ =>
    ⟨h.kept.trans (Resolver.KeptFor.tablesAfter hentry),
      h.kinds.trans (r.sameKinds_tablesAfter t kind name entry), h.rebuilt⟩
  widen := fun h hwidens =>
    ⟨h.kept.mono (fun kind => (hwidens kind).configs), h.kinds, h.rebuilt⟩

/-- A fresh resolver compiles as one that puts the schema of an attachment together for
every question.  Both end in the same way, with the same collisions.  Where they fail they
have also reported the same: their first phases ask the same questions, and their second
phases look up the same keys in the same drafts, with the same answers. -/
theorem compile_rebuild (r : Resolver) (time : Timestamp) (store : EntryStore) :
    ((compile r time store).ask .empty).1 =
        ((compile (r.withPolicy .rebuild) time store).ask .empty).1 ∧
      Draft.build (r.withPolicy .rebuild) store = Draft.build r store ∧
      ∀ d t, (Draft.build r store).Returns .empty d t → ∀ kind resource key d' answer,
        Draft.LookedUp r d t kind resource key d' answer ↔
          Draft.LookedUp (r.withPolicy .rebuild) d t kind resource key d' answer := by
  have htracks := tracks_rebuild r store
  have hstart := KeptFresh.start r (Draft.start store (fingerprint store.entries r))
  refine ⟨(htracks.compile time).answer_eq hstart, rfl, fun d t hbuild => ?_⟩
  obtain ⟨u, hbuild', hI⟩ :=
    Lockstep.of_returns htracks.build ⟨Stems.start r store _, hstart⟩ hbuild
  -- both first phases are one question, and leave the same tables
  obtain ⟨-, rfl⟩ := hbuild.unique hbuild'
  refine fun kind resource key d' answer =>
    ⟨fun hlooked => hlooked.follow htracks hI, fun hlooked => ?_⟩
  have hback := Draft.LookedUp.follow htracks.symm hI.symm hlooked
  exact hback

namespace Ferry

def resolver : Resolver :=
  Resolver.ofCatalog ((Catalog.empty.registerAction
    { name := "ferry::Load", contributions := [.default "deck" (.string "lower")] }).registerAction
    { name := "ferry::Sail" })

/-- A vehicle that is loaded. -/
def vehicle (entity : String) : Options := SortedMap.ofList [
  ("entity", .string entity), ("namespace", .string "ferry"),
  ("actions", .object (SortedMap.singleton "ferry::Load" (.object ∅)))]

/-- A car and a truck are loaded by a type that has no entry of its own, so that the schema of
its attachments is kept for the truck after the type is discovered for the car.  Two
declared actions claim one class. -/
def store : EntryStore where
  catalog := resolver.catalog
  entries :=
    { permissions := ∅
      actions := SortedMap.ofList [
        ("depart", SortedMap.singleton "class" (.string "ferry::Sail")),
        ("sail", SortedMap.singleton "class" (.string "ferry::Sail"))]
      behaviors := ∅
      namespaces := SortedMap.singleton "ferry" ∅
      resources := SortedMap.ofList [("car", vehicle "Car"), ("truck", vehicle "Truck")] }

/-- The decks that both vehicles are loaded on. -/
def decks (compiled : Compiled) : List (Option String) :=
  ["car", "truck"].map (fun name =>
    ((compiled.sets.resources.configs.get? name).bind
      (fun config => (attachmentsOf config .action).get? "load")).bind (Options.str? · "deck"))

end Ferry

/-- The schema that was kept for the truck answers as the one put together for it. -/
theorem compile_rebuild_ferry :
    ∃ compiled collisions t' u',
      (compile Ferry.resolver .epoch Ferry.store).Returns .empty (compiled, collisions) t' ∧
      (compile (Ferry.resolver.withPolicy .rebuild) .epoch Ferry.store).Returns .empty
        (compiled, collisions) u' ∧
      collisions = [⟨.action, "ferry::Sail", "depart", "sail"⟩] ∧
      Ferry.decks compiled = [some "lower", some "lower"] := by
  obtain ⟨⟨compiled, collisions⟩, t', h, htest⟩ := returns_of_any
    (x := compile Ferry.resolver .epoch Ferry.store) (t := .empty)
    (p := fun result => result.2 == [⟨.action, "ferry::Sail", "depart", "sail"⟩] &&
      Ferry.decks result.1 == [some "lower", some "lower"])
    (by decide +kernel)
  rw [Bool.and_eq_true, beq_iff_eq, beq_iff_eq] at htest
  obtain ⟨hsame, -, -⟩ := compile_rebuild Ferry.resolver .epoch Ferry.store
  obtain ⟨u', hrebuilt⟩ := returns_of_answer (hsame.symm.trans (congrArg Prod.fst h))
  exact ⟨compiled, collisions, t', u', h, hrebuilt, htest.1, htest.2⟩

end ConfigCompiler
