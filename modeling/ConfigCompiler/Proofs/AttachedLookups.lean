import ConfigCompiler.Proofs.ExpandedActions

/-!
# Entries of attached names

The second phase puts the attachments of a resource under stored names and looks their entries
up later: when options are resolved, when builders are told apart from plain actions, and when
behaviors contribute.  In between the attachments of other resources are worked out and types
are discovered.

**Relations.**  `Meets f m t key v t'`: while the values of a map are visited in order, one of
them is met.  `EntryAsked r d t kind resource name d'`: in the second phase of the draft `d` the
entry of a name is looked up for a resource, in the draft `d'`.  The runs that fail later are
included.

**Invariant.**  Whatever a resource attaches stands under stored names, from the pass on that
put it there; and the sets of entries only grow.

**Results.**
* `fails_mapM`: a visit of all values fails where one of them fails.
* `ActionsBegun.knownBehaviors`, `ActionsResolved.knownAttachments`: the invariant, before and
  after the actions of a resource are worked out.
* `KeyAsked.attachmentKey`: where the keys come from that are looked up.
* `EntryAsked.stored`: wherever the entry of a name is looked up, it is stored.
-/

namespace ConfigCompiler

namespace Resolution

section Maps

variable {α β : Type} {f : String → α → Resolution β} {t t' : SchemaTables} {e : Failure}

/-- A visit of the values of a map, in order, meets the value of a key: the values before it
were answered for. -/
def Meets (f : String → α → Resolution β) (m : SortedMap α) (t : SchemaTables) (key : String)
    (v : α) (t' : SchemaTables) : Prop :=
  ∃ before after out, m.entries = before ++ (key, v) :: after ∧
    Returns (Entries.mapM f before) t out t'

theorem Meets.get? {m : SortedMap α} {key : String} {v : α} (h : Meets f m t key v t') :
    m.get? key = some v := by
  obtain ⟨before, after, -, hentries, -⟩ := h
  exact (SortedMap.mem_entries_iff _ _ _).1 (by simp [hentries])

theorem fails_entries_mapM {entries : List (String × α)}
    (h : Fails (Entries.mapM f entries) t e t') :
    ∃ before key v after out t₁, entries = before ++ (key, v) :: after ∧
      Returns (Entries.mapM f before) t out t₁ ∧ (f key v).Fails t₁ e t' := by
  induction entries generalizing t with
  | nil => exact (fails_pure.1 h).elim
  | cons first rest ih =>
      rcases fails_bind.1 h with hfirst | ⟨b, t₁, hfirst, h⟩
      · exact ⟨[], first.1, first.2, rest, _, t, rfl, returns_pure.2 ⟨rfl, rfl⟩, hfirst⟩
      · rcases fails_bind.1 h with hrest | ⟨_, _, -, hlast⟩
        · obtain ⟨before, key, v, after, out, t₂, rfl, hbefore, hfails⟩ := ih hrest
          exact ⟨first :: before, key, v, after, _, t₂, rfl,
            returns_bind.2 ⟨b, t₁, hfirst, returns_bind.2
              ⟨out, t₂, hbefore, returns_pure.2 ⟨rfl, rfl⟩⟩⟩, hfails⟩
        · exact (fails_pure.1 hlast).elim

/-- A visit of all values fails where one of them fails. -/
theorem fails_mapM {m : SortedMap α} (h : Fails (m.mapM f) t e t') :
    ∃ key v t₁, Meets f m t key v t₁ ∧ (f key v).Fails t₁ e t' := by
  rcases fails_bind.1 h with h | ⟨_, _, -, hlast⟩
  · obtain ⟨before, key, v, after, out, t₁, hentries, hbefore, hfails⟩ := fails_entries_mapM h
    exact ⟨key, v, t₁, ⟨before, after, out, hentries, hbefore⟩, hfails⟩
  · exact (fails_pure.1 hlast).elim

/-- What a fold over the entries of a map meets is in the map. -/
theorem Visits.get? {σ : Type} {step : σ → String × α → Resolution σ} {s s' : σ}
    {m : SortedMap α} {key : String} {v : α}
    (h : Visits step s t m.entries (key, v) s' t') : m.get? key = some v :=
  (SortedMap.mem_entries_iff _ _ _).1 h.mem

theorem Visits.contains {σ : Type} {step : σ → String × α → Resolution σ} {s s' : σ}
    {m : SortedMap α} {key : String} {v : α}
    (h : Visits step s t m.entries (key, v) s' t') : m.contains key = true :=
  SortedMap.contains_of_get? h.get?

end Maps

end Resolution

open Resolution

namespace Draft

variable {r : Resolver} {d d' : Draft} {t t' : SchemaTables}
variable {kind : AttachmentKind} {p : Options → Prop} {resource name : String} {bag : Options}

/-- Resolve the bag of one attachment. -/
def resolveBag (r : Resolver) (kind : AttachmentKind) (d : Draft) (resource name : String)
    (bag : Options) : Resolution Options := do
  let entry ← d.attachedEntry kind resource name
  r.resolveAttachment kind resource name entry bag

theorem resolveAttachments_eq (r : Resolver) (kind : AttachmentKind) (d : Draft)
    (resource : String) :
    d.resolveAttachments r kind resource = (do
      let attached ← (attachmentsOf (d.resource resource) kind).mapM (resolveBag r kind d resource)
      return d.putResource resource (withAttachments (d.resource resource) kind attached)) :=
  rfl

/-- In the second phase of `d` a behavior of a resource contributes actions. -/
def Contributes (r : Resolver) (d : Draft) (t : SchemaTables) (resource : String)
    (behavior : String × Options) (state : Attachments × Draft) (t' : SchemaTables)
    (contributed : Attachments) : Prop :=
  ∃ d₁ t₁ entry type, ActionsResolved r d t resource d₁ t₁ ∧
    Visits (contributeActions r resource (d₁.resource resource)) (d₁.actionsOf resource, d₁) t₁
      (d₁.behaviorsOf resource).entries behavior state t' ∧
    state.2.attachedEntry .behavior resource behavior.1 = .ok entry ∧
    behaviorTypeOf? r.catalog entry = some type ∧
    type.build state.1 (withAttachments (d₁.resource resource) .action state.1) behavior.2 =
      .ok contributed

/-- In the second phase of `d` a builder of a resource emits actions. -/
def EmitsActions (r : Resolver) (d : Draft) (t : SchemaTables) (resource : String)
    (b : AttachedBuilder) (state : Attachments × Draft) (t' : SchemaTables)
    (emitted : Attachments) : Prop :=
  ∃ d₁ t₁ plain builders, ActionsNamed r d t resource d₁ t₁ ∧
    d₁.partActions r.catalog resource (d₁.resource resource) = .ok (plain, builders) ∧
    BuilderRuns r resource (d₁.resource resource) (plain, d₁) t₁ builders b state t' emitted

/-- In the second phase of `d` the entry of a name is looked up for a resource, in the
draft `d'`. -/
inductive EntryAsked (r : Resolver) (d : Draft) (t : SchemaTables) :
    AttachmentKind → String → String → Draft → Prop
  /-- The options of a listed behavior are resolved. -/
  | resolvedBehavior {resource name : String} {d₁ d' : Draft} {t₁ t₂ t' : SchemaTables}
      {bag : Options}
      (hnames : Returns (d.sets.resources.names.foldlM (normalizeAttachments r .behavior) d) t
        d₁ t₁)
      (hpass : Visits (resolveAttachments r .behavior) d₁ t₁ d.sets.resources.names resource
        d' t₂)
      (hbag : Meets (resolveBag r .behavior d' resource) (d'.behaviorsOf resource) t₂ name bag
        t') :
      EntryAsked r d t .behavior resource name d'
  /-- An action is told apart as plain or as a builder. -/
  | partedAction {resource name : String} {d' : Draft} {t' : SchemaTables} {bag : Options}
      {before after : List (String × Options)} {parts : Attachments × List AttachedBuilder}
      (hnamed : ActionsNamed r d t resource d' t')
      (hactions : (d'.actionsOf resource).entries = before ++ (name, bag) :: after)
      (hbefore : before.foldlM (d'.partAction r.catalog resource) (∅, []) = .ok parts) :
      EntryAsked r d t .action resource name d'
  /-- An emitted action is checked to be no builder. -/
  | emittedAction {resource key name : String} {d₁ d' : Draft} {t₁ t₂ t' : SchemaTables}
      {b : AttachedBuilder} {state : Attachments × Draft} {emitted attached : Attachments}
      {bag : Options}
      (hemits : EmitsActions r d t resource b state t₁ emitted)
      (hkey : Visits (takeEmitted r resource b.name) state t₁ emitted.entries (key, bag)
        (attached, d₁) t₂)
      (hname : (d₁.canonicalName r .action resource key).Returns t₂ (name, d') t') :
      EntryAsked r d t .action resource name d'
  /-- The options of an action are resolved. -/
  | resolvedAction {resource name : String} {d₁ d' : Draft} {t₁ t₂ t' : SchemaTables}
      {bag : Options}
      (hnamed : ActionsNamed r d t resource d₁ t₁)
      (hexpand : (d₁.expandBuilders r resource).Returns t₁ d' t₂)
      (hbag : Meets (resolveBag r .action d' resource) (d'.actionsOf resource) t₂ name bag t') :
      EntryAsked r d t .action resource name d'
  /-- A behavior is asked what it contributes. -/
  | contributingBehavior {resource name : String} {d₁ d' : Draft} {t₁ t' : SchemaTables}
      {bag : Options} {attached : Attachments}
      (hresolved : ActionsResolved r d t resource d₁ t₁)
      (hbehavior : Visits (contributeActions r resource (d₁.resource resource))
        (d₁.actionsOf resource, d₁) t₁ (d₁.behaviorsOf resource).entries (name, bag)
        (attached, d') t') :
      EntryAsked r d t .behavior resource name d'
  /-- A contributed action is checked to be no builder, and its options are resolved. -/
  | contributedAction {resource key name : String} {d₁ d' : Draft} {t₁ t₂ t' : SchemaTables}
      {behavior : String × Options} {state : Attachments × Draft}
      {contributed attached : Attachments} {bag : Options}
      (hcontributes : Contributes r d t resource behavior state t₁ contributed)
      (hkey : Visits (takeContributed r resource behavior.1) state t₁ contributed.entries
        (key, bag) (attached, d₁) t₂)
      (hname : (d₁.canonicalName r .action resource key).Returns t₂ (name, d') t') :
      EntryAsked r d t .action resource name d'

/-- An emitted key is looked up. -/
theorem EmitsActions.keyAsked {b : AttachedBuilder} {state : Attachments × Draft}
    {t₁ : SchemaTables} {emitted attached : Attachments} {key : String}
    (h : EmitsActions r d t resource b state t₁ emitted)
    (hkey : Visits (takeEmitted r resource b.name) state t₁ emitted.entries (key, bag)
      (attached, d') t') : KeyAsked r d t .action resource key d' t' := by
  obtain ⟨d₁, t₂, plain, builders, ⟨d₀, t₀, hbegun, hnames⟩, hpart, t₃, options, hbuilder,
    hoptions, hbuild⟩ := h
  exact .emitted hbegun hnames hpart hbuilder hoptions hbuild hkey

/-- A contributed key is looked up. -/
theorem Contributes.keyAsked {behavior : String × Options} {state : Attachments × Draft}
    {t₁ : SchemaTables} {contributed attached : Attachments} {key : String}
    (h : Contributes r d t resource behavior state t₁ contributed)
    (hkey : Visits (takeContributed r resource behavior.1) state t₁ contributed.entries
      (key, bag) (attached, d') t') : KeyAsked r d t .action resource key d' t' := by
  obtain ⟨d₁, t₂, entry, type, ⟨d₂, t₃, d₃, t₄, ⟨d₀, t₀, hbegun, hnames⟩, hexpand, hresolve⟩,
    hbehavior, hentry, htype, hbuild⟩ := h
  exact .contributed hbegun hnames hexpand hresolve hbehavior hentry htype hbuild hkey

/-- A key under which a resource attaches something in the second phase of `d`: it lists the
key, one of its builders emits it or one of its behaviors contributes it. -/
inductive AttachmentKey (r : Resolver) (d : Draft) (t : SchemaTables) :
    AttachmentKind → String → String → Prop
  | listed {kind : AttachmentKind} {resource key : String}
      (hkey : (attachmentsOf (d.resource resource) kind).contains key = true) :
      AttachmentKey r d t kind resource key
  | emitted {resource key : String} {b : AttachedBuilder} {state : Attachments × Draft}
      {t' : SchemaTables} {emitted : Attachments}
      (hemits : EmitsActions r d t resource b state t' emitted)
      (hkey : emitted.contains key = true) : AttachmentKey r d t .action resource key
  | contributed {resource key : String} {behavior : String × Options}
      {state : Attachments × Draft} {t' : SchemaTables} {contributed : Attachments}
      (hcontributes : Contributes r d t resource behavior state t' contributed)
      (hkey : contributed.contains key = true) : AttachmentKey r d t .action resource key

theorem KeyMet.contains {key : String} (h : KeyMet r kind d t resource key d' t') :
    (attachmentsOf (d.resource resource) kind).contains key = true := by
  obtain ⟨bag, attached, hvisit⟩ := h
  exact hvisit.contains

/-- Every key that is looked up is one of these; what a resource lists is what it lists before
the second phase. -/
theorem KeyAsked.attachmentKey {key : String} (h : KeyAsked r d t kind resource key d' t') :
    AttachmentKey r d t kind resource key := by
  cases h with
  | attachedBehavior hpass hkey =>
      obtain ⟨-, -, hsame⟩ := Advance.visit (normalizeAttachments_steps r .behavior _)
        (fun _ hname => stored_of_mem_names hname) trivial (nodup_names d) hpass
      exact .listed (hsame ▸ hkey.contains)
  | attachedAction hbegun hkey =>
      have hlisted := hkey.contains
      change (actionsOf _ resource).contains key = true at hlisted
      rw [hbegun.actionsOf_eq] at hlisted
      exact .listed hlisted
  | emitted hbegun hnormalize hpart hbuilder hoptions hbuild hkey =>
      exact .emitted ⟨_, _, _, _, ⟨_, _, hbegun, hnormalize⟩, hpart, _, _, hbuilder, hoptions,
        hbuild⟩ hkey.contains
  | contributed hbegun hnormalize hexpand hresolve hbehavior hentry htype hbuild hkey =>
      exact .contributed ⟨_, _, _, _, ⟨_, _, _, _, ⟨_, _, hbegun, hnormalize⟩, hexpand, hresolve⟩,
        hbehavior, hentry, htype, hbuild⟩ hkey.contains

/-- What a resource attaches under stored names is stored. -/
theorem AttachesOnly.stored (h : AttachesOnly p d kind resource)
    (hbag : (attachmentsOf (d.resource resource) kind).get? name = some bag) :
    (d.attachable kind).configs.contains name = true := by
  obtain ⟨entry, hentry, -⟩ := h.entriesSatisfy name (SortedMap.contains_of_get? hbag)
  exact SortedMap.contains_of_get? hentry

/-- Until its actions are begun a resource keeps its behaviors under stored names. -/
theorem ActionsBegun.knownBehaviors (h : ActionsBegun r d t resource d' t') :
    AttachesOnly (fun _ => True) d' .behavior resource := by
  obtain ⟨d₁, t₁, hsettle, hvisit⟩ := h
  obtain ⟨hadvance, hknown⟩ := Advance.settleBehaviors hsettle
  obtain ⟨hadvance', -, -⟩ :=
    Advance.visit (finalizeActions_steps r _) hadvance.stored trivial (nodup_names d) hvisit
  exact (hknown resource hvisit.mem).changes hadvance'.changes (Or.inr (by decide))

/-- Once the actions of a resource are resolved, its actions and its behaviors stand under
stored names. -/
theorem ActionsResolved.knownAttachments (h : ActionsResolved r d t resource d' t') :
    AttachesOnly (IsPlain r.catalog) d' .action resource ∧
      AttachesOnly (fun _ => True) d' .behavior resource := by
  obtain ⟨d₁, t₁, d₂, t₂, ⟨d₀, t₀, hbegun, hnames⟩, hexpand, hresolve⟩ := h
  have hstored := hbegun.advance.2
  obtain ⟨hnamed, hknown⟩ := Advance.normalizeAttachments hstored hnames
  have hstored₁ := (hnamed.changes.stored_eq resource).trans hstored
  obtain ⟨hexpanded, hplain⟩ := Advance.expandBuilders hstored₁ hknown hexpand
  have hstored₂ := (hexpanded.changes.stored_eq resource).trans hstored₁
  obtain ⟨hresolved, hplain'⟩ := Advance.resolveAttachments hstored₂ hplain hresolve
  -- the three steps replace the actions only
  refine ⟨hplain', ?_⟩
  exact ((hbegun.knownBehaviors.changes hnamed.changes (Or.inr (by decide))).changes
    hexpanded.changes (Or.inr (by decide))).changes hresolved.changes (Or.inr (by decide))

/-- While behaviors contribute, entries are only added. -/
theorem widens_of_contributing {config : Options} {attached : Attachments}
    {items : List (String × Options)} {behavior : String × Options}
    {state : Attachments × Draft}
    (h : Visits (contributeActions r resource config) (attached, d) t items behavior state t') :
    Widens d state.2 :=
  h.induction (P := fun state _ => Widens d state.2)
    (fun _ _ _ _ _ _ hs hstep => (lasting_widens r d).contributeActions hs hstep)
    (Widens.refl d)

/-- Wherever the entry of a name is looked up, it is stored. -/
theorem EntryAsked.stored (h : EntryAsked r d t kind resource name d') :
    (d'.attachable kind).configs.contains name = true := by
  cases h with
  | resolvedBehavior hnames hpass hbag =>
      obtain ⟨hadvance, hknown⟩ := Advance.namesPass hnames
      obtain ⟨-, hknown', -⟩ :=
        Advance.visit (resolveBehaviors_steps r _) hadvance.stored hknown (nodup_names d) hpass
      exact (hknown' _ hpass.mem).stored hbag.get?
  | @partedAction _ _ _ _ bag _ _ _ hnamed hactions hbefore =>
      have hbag : (name, bag) ∈ (d'.actionsOf resource).entries :=
        hactions ▸ List.mem_append_right _ List.mem_cons_self
      exact hnamed.advance.2.2.stored ((SortedMap.mem_entries_iff _ _ _).1 hbag)
  | emittedAction hemits hkey hname => exact (Advance.canonicalName hname).2
  | resolvedAction hnamed hexpand hbag =>
      obtain ⟨-, hstored, hknown⟩ := hnamed.advance
      exact (Advance.expandBuilders hstored hknown hexpand).2.stored hbag.get?
  | contributingBehavior hresolved hbehavior =>
      obtain ⟨entry, hentry⟩ :=
        SortedMap.exists_of_contains (hresolved.knownAttachments.2.stored hbehavior.get?)
      exact SortedMap.contains_of_get?
        ((widens_of_contributing hbehavior .behavior).configs name entry hentry)
  | contributedAction hcontributes hkey hname => exact (Advance.canonicalName hname).2

/-- Wherever the entry of a name is looked up, it is found. -/
theorem EntryAsked.attachedEntry (h : EntryAsked r d t kind resource name d') :
    ∃ entry, (d'.attachable kind).configs.get? name = some entry ∧
      d'.attachedEntry kind resource name = .ok entry := by
  obtain ⟨entry, hentry⟩ := SortedMap.exists_of_contains h.stored
  exact ⟨entry, hentry, attachedEntry_of_stored hentry⟩

end Draft
end ConfigCompiler
