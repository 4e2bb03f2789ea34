import ConfigCompiler.Proofs.SecondPhase

/-!
# Where failures come from

Every step of the second phase has failures of its own.  Only one step fails because a
behavior that attaches itself cannot be configured; the types that a program registers
may fail as they like.

**Predicates.**  `x.OnlyFails P`: whenever the question `x` fails, its failure has the
property `P`.  `NotAutoAttach f`: the failure is no failed auto-attachment.
`NotOwnAutoAttach catalog f`: it is none unless a registered type raised it.

**Results.**
* `OnlyFails.bind`, `OnlyFails.foldlM`, `OnlyFails.mapM`: a question fails as its parts
  do.
* `onlyInvalid_resolveEntry`, `onlyInvalid_resolveAttachment`, `onlyRefuses_discover`: the
  failures of a resolution and of a discovery.
* `onlyFails_normalizeAttachments`, `onlyFails_resolveAttachments`,
  `onlyFails_finalizeActions`, `onlyFails_liftPermissions`: no pass but one fails to
  auto-attach.
-/

namespace ConfigCompiler

namespace Resolution

variable {α β σ : Type} {P : Failure → Prop}

/-- Whenever the question fails, its failure has a property. -/
def OnlyFails (P : Failure → Prop) (x : Resolution α) : Prop :=
  ∀ t f t', x.Fails t f t' → P f

theorem OnlyFails.pure (a : α) : OnlyFails P (Pure.pure a : Resolution α) :=
  fun _ _ _ h => (fails_pure.1 h).elim

theorem OnlyFails.throw {f : Failure} (h : P f) : OnlyFails P (throw f : Resolution α) := by
  intro t g t' hfails
  rw [(fails_throw.1 hfails).1]
  exact h

theorem OnlyFails.lift {e : Except Failure α} (h : ∀ f, e = .error f → P f) :
    OnlyFails P (liftM e : Resolution α) :=
  fun _ f _ hfails => h f (fails_lift.1 hfails).1

theorem OnlyFails.of_returns {x : Resolution α} (h : ∀ t, ∃ a t', x.Returns t a t') :
    OnlyFails P x := by
  intro t f t' hfails
  obtain ⟨a, t₁, hreturns⟩ := h t
  exact absurd hfails hreturns.not_fails

theorem OnlyFails.bind {x : Resolution α} {f : α → Resolution β}
    (hx : OnlyFails P x) (hf : ∀ a t t', x.Returns t a t' → OnlyFails P (f a)) :
    OnlyFails P (x >>= f) := by
  intro t e t'' hfails
  rcases fails_bind.1 hfails with h | ⟨a, t', hreturns, h⟩
  · exact hx t e t'' h
  · exact hf a t t' hreturns t' e t'' h

theorem OnlyFails.foldlM {f : σ → α → Resolution σ} {items : List α} {s : σ}
    (h : ∀ a ∈ items, ∀ s, OnlyFails P (f s a)) : OnlyFails P (items.foldlM f s) := by
  intro t e t' hfails
  obtain ⟨a, s₁, t₁, hvisit, hstep⟩ := fails_foldlM_iff.1 hfails
  exact h a hvisit.mem s₁ t₁ e t' hstep

theorem OnlyFails.entries_mapM {f : String → α → Resolution β} {entries : List (String × α)}
    (h : ∀ key a, OnlyFails P (f key a)) : OnlyFails P (Entries.mapM f entries) := by
  induction entries with
  | nil => exact OnlyFails.pure _
  | cons e rest ih =>
      exact (h e.1 e.2).bind (fun b _ _ _ => ih.bind (fun out _ _ _ => OnlyFails.pure _))

theorem OnlyFails.mapM {f : String → α → Resolution β} {m : SortedMap α}
    (h : ∀ key a, OnlyFails P (f key a)) : OnlyFails P (m.mapM f) :=
  (OnlyFails.entries_mapM h).bind (fun _ _ _ _ => OnlyFails.pure _)

theorem OnlyFails.mono {Q : Failure → Prop} {x : Resolution α} (h : OnlyFails P x)
    (hPQ : ∀ f, P f → Q f) : OnlyFails Q x :=
  fun t f t' hfails => hPQ f (h t f t' hfails)

/-- A chain of checks fails where one of them does, after those before it passed. -/
theorem check_foldlM_fails {f : σ → α → Except Failure σ} {items : List α} {s : σ}
    {e : Failure} (h : items.foldlM f s = .error e) :
    ∃ before a after s', items = before ++ a :: after ∧ before.foldlM f s = .ok s' ∧
      f s' a = .error e := by
  induction items generalizing s with
  | nil => cases h
  | cons a rest ih =>
      rw [List.foldlM_cons] at h
      rcases check_bind_error.1 h with h | ⟨s₁, hfirst, h⟩
      · exact ⟨[], a, rest, s, rfl, rfl, h⟩
      · obtain ⟨before, b, after, s', rfl, hbefore, hs'⟩ := ih h
        exact ⟨a :: before, b, after, s', rfl, check_bind.2 ⟨s₁, hfirst, hbefore⟩, hs'⟩

/-- A chain of checks fails as one of them does. -/
theorem check_foldlM_error {f : σ → α → Except Failure σ} {items : List α} {s : σ}
    {e : Failure} (h : items.foldlM f s = .error e) :
    ∃ a ∈ items, ∃ s', f s' a = .error e := by
  obtain ⟨before, a, after, s', rfl, -, hstep⟩ := check_foldlM_fails h
  exact ⟨a, by simp, s', hstep⟩

end Resolution

open Resolution

/-- A registered type can raise the failure. -/
def Catalog.Raises (catalog : Catalog) (f : Failure) : Prop :=
  (∃ name type build config options, catalog.actions.get? name = some type ∧
      type.build? = some build ∧ build config options = .error f) ∨
    ∃ name type attached config options, catalog.behaviors.get? name = some type ∧
      type.build attached config options = .error f

/-- The failure is no failed auto-attachment. -/
def NotAutoAttach (f : Failure) : Prop :=
  f.category ≠ .autoAttachment

/-- The failure is no failed auto-attachment, unless a registered type raised it. -/
def NotOwnAutoAttach (catalog : Catalog) (f : Failure) : Prop :=
  NotAutoAttach f ∨ catalog.Raises f

theorem builderOf?_eq_some {catalog : Catalog} {entry : Options} {build : BuildAction}
    (h : builderOf? catalog entry = some build) :
    ∃ name type, catalog.actions.get? name = some type ∧ type.build? = some build := by
  unfold builderOf? at h
  obtain ⟨type, htype, hbuild⟩ := Option.bind_eq_some_iff.1 h
  obtain ⟨name, -, hname⟩ := Option.bind_eq_some_iff.1 htype
  exact ⟨name, type, hname, hbuild⟩

theorem behaviorTypeOf?_eq_some {catalog : Catalog} {entry : Options} {type : BehaviorType}
    (h : behaviorTypeOf? catalog entry = some type) :
    ∃ name, catalog.behaviors.get? name = some type := by
  obtain ⟨name, -, hname⟩ := Option.bind_eq_some_iff.1 h
  exact ⟨name, hname⟩

variable {r : Resolver} {kind : AttachmentKind} {resource : String}

namespace Draft

/-- An entry fails to be resolved because it breaks the schema of its kind. -/
theorem onlyInvalid_resolveEntry (r : Resolver) (kind : EntityKind) (key : String)
    (raw : Options) :
    (r.resolveEntry kind key raw).OnlyFails
      (fun f => ∃ violation, f = .invalid kind key violation) := by
  refine (OnlyFails.of_returns (fun t => ?_)).bind (fun s _ _ _ => ?_)
  · obtain ⟨s, t', hschema, -⟩ := r.kindSchemaM_returns kind t
    exact ⟨s, t', hschema⟩
  · cases s.schema.resolve (Resolver.withName kind key raw) with
    | ok resolved => exact OnlyFails.pure resolved
    | error violation => exact OnlyFails.throw ⟨violation, rfl⟩

/-- Options fail to be resolved because they break the schema of their attachment. -/
theorem onlyInvalid_resolveAttachment (r : Resolver) (kind : AttachmentKind)
    (resource name : String) (entry raw : Options) :
    (r.resolveAttachment kind resource name entry raw).OnlyFails
      (fun f => ∃ violation, f = .attachmentInvalid resource kind.kind name violation) := by
  intro t f t' h
  have hanswer := (Resolver.fails_resolveAttachment.1 h).1
  rw [Resolver.attachmentAnswer_eq] at hanswer
  cases hresolve : (r.schemaInForce t kind name entry).resolve raw with
  | ok options =>
      rw [hresolve] at hanswer
      cases hanswer
  | error violation =>
      rw [hresolve] at hanswer
      cases hanswer
      exact ⟨violation, rfl⟩

theorem onlyFails_resolveAttachment (r : Resolver) (kind : AttachmentKind)
    (resource name : String) (entry raw : Options) :
    (r.resolveAttachment kind resource name entry raw).OnlyFails
      NotAutoAttach := by
  refine (onlyInvalid_resolveAttachment r kind resource name entry raw).mono ?_
  rintro _ ⟨violation, rfl⟩
  exact nofun

/-- A name that is added for the first time may be no name and no registered type. -/
theorem firstEntry_error {catalog : Catalog} {kind : EntityKind} {name : String}
    {options : Options} {f : Failure}
    (h : EntryStore.firstEntry catalog kind name options = .error f) :
    f = .invalidIdentifier kind name := by
  unfold EntryStore.firstEntry at h
  split at h
  · split at h
    · cases h
      rfl
    · cases h
  · split at h
    · cases h
    · cases h
      rfl

theorem add_error {store : EntryStore} {kind : EntityKind} {name : String}
    {options : Options} {f : Failure} (h : store.add kind name options = .error f) :
    f = .invalidIdentifier kind name := by
  unfold EntryStore.add EntryStore.nextEntry at h
  cases hget : store.get? kind name with
  | some existing =>
      rw [hget] at h
      cases h
  | none =>
      simp only [hget] at h
      split at h
      · cases h
      · next hfirst =>
          cases h
          exact firstEntry_error hfirst

theorem register_error {d : Draft} {kind : EntityKind} {key : String} {resolved : Options}
    {interfaces : List String} {f : Failure}
    (h : d.register kind key resolved interfaces = .error f) :
    f = .duplicateName kind (Resolver.entryName resolved key) key := by
  unfold register at h
  rcases check_bind_error.1 h with hinsert | ⟨set, -, hlast⟩
  · unfold EntrySet.insert at hinsert
    split at hinsert
    · cases hinsert
      rfl
    · cases hinsert
  · cases hlast

/-- A type fails to be discovered because its key is no name, its entry breaks the schema, or
its name is taken. -/
theorem onlyRefuses_discover (r : Resolver) (d : Draft) (kind : AttachmentKind) (key : String) :
    (d.discover r kind key).OnlyFails (fun f => f = .invalidIdentifier kind.kind key ∨
      (∃ violation, f = .invalid kind.kind key violation) ∨
      ∃ name, f = .duplicateName kind.kind name key) := by
  refine OnlyFails.bind (OnlyFails.lift (fun f hadd => Or.inl (add_error hadd)))
    (fun added _ _ _ => ?_)
  refine ((onlyInvalid_resolveEntry r kind.kind key added.1).mono
    (fun _ hinvalid => Or.inr (Or.inl hinvalid))).bind (fun resolved _ _ _ => ?_)
  exact OnlyFails.lift (fun f hregister => Or.inr (Or.inr ⟨_, register_error hregister⟩))

theorem onlyFails_discover (r : Resolver) (d : Draft) (kind : AttachmentKind)
    (key : String) : (d.discover r kind key).OnlyFails NotAutoAttach := by
  refine (onlyRefuses_discover r d kind key).mono ?_
  rintro _ (rfl | ⟨violation, rfl⟩ | ⟨name, rfl⟩) <;> exact nofun

theorem onlyFails_canonicalName (r : Resolver) (d : Draft) (kind : AttachmentKind)
    (resource key : String) :
    (d.canonicalName r kind resource key).OnlyFails NotAutoAttach := by
  unfold canonicalName
  split
  · exact OnlyFails.pure _
  · split
    · exact onlyFails_discover r d kind key
    · exact OnlyFails.throw (nofun)

theorem attachedEntry_error {d : Draft} {name : String} {f : Failure}
    (h : d.attachedEntry kind resource name = .error f) :
    f = unknownReference resource kind name := by
  unfold attachedEntry at h
  split at h
  · cases h
  · cases h
    rfl

theorem onlyFails_attachedEntry (d : Draft) (kind : AttachmentKind)
    (resource name : String) :
    (liftM (d.attachedEntry kind resource name) : Resolution Options).OnlyFails
      NotAutoAttach :=
  OnlyFails.lift (fun f h => by
    rw [attachedEntry_error h]
    exact nofun)

/-- Putting attachments under stored names does not fail to auto-attach. -/
theorem onlyFails_normalizeAttachments (r : Resolver) (kind : AttachmentKind) (d : Draft)
    (resource : String) :
    (d.normalizeAttachments r kind resource).OnlyFails NotAutoAttach := by
  refine OnlyFails.bind (OnlyFails.foldlM (fun e _ state => ?_))
    (fun _ _ _ _ => OnlyFails.pure _)
  exact (onlyFails_canonicalName r state.2 kind resource e.1).bind
    (fun _ _ _ _ => OnlyFails.pure _)

/-- Resolving attached options does not fail to auto-attach. -/
theorem onlyFails_resolveAttachments (r : Resolver) (kind : AttachmentKind) (d : Draft)
    (resource : String) :
    (d.resolveAttachments r kind resource).OnlyFails NotAutoAttach := by
  refine OnlyFails.bind (OnlyFails.mapM (fun name options => ?_))
    (fun _ _ _ _ => OnlyFails.pure _)
  exact (onlyFails_attachedEntry d kind resource name).bind
    (fun entry _ _ _ => onlyFails_resolveAttachment r kind resource name entry options)

theorem onlyFails_refuseBuilder (r : Resolver) (d : Draft) (resource origin action : String) :
    (liftM (d.refuseBuilder r.catalog resource origin action) : Resolution Unit).OnlyFails
      NotAutoAttach := by
  refine OnlyFails.lift (fun f h => ?_)
  unfold refuseBuilder at h
  rcases check_bind_error.1 h with hentry | ⟨entry, -, hlast⟩
  · rw [attachedEntry_error hentry]
    exact nofun
  · split at hlast
    · cases hlast
      exact nofun
    · cases hlast

theorem onlyFails_takeEmitted (r : Resolver) (resource origin : String)
    (state : Attachments × Draft) (e : String × Options) :
    (takeEmitted r resource origin state e).OnlyFails NotAutoAttach := by
  refine (onlyFails_canonicalName r state.2 .action resource e.1).bind (fun named _ _ _ => ?_)
  refine (onlyFails_refuseBuilder r named.2 resource origin named.1).bind (fun _ _ _ _ => ?_)
  split <;> exact OnlyFails.pure _

/-- A builder comes from a registered type. -/
theorem builders_of_partActions {catalog : Catalog} {d : Draft} {config : Options}
    {plain : Attachments} {builders : List AttachedBuilder}
    (h : d.partActions catalog resource config = .ok (plain, builders)) :
    ∀ b ∈ builders, builderOf? catalog b.entry = some b.build := by
  refine check_foldlM_induction
    (P := fun state : Attachments × List AttachedBuilder =>
      ∀ b ∈ state.2, builderOf? catalog b.entry = some b.build)
    (fun action _ s s' hs hstep => ?_) h (by simp)
  unfold partAction at hstep
  obtain ⟨entry, -, hrest⟩ := check_bind.1 hstep
  split at hrest
  · next build hbuild =>
      cases check_pure.1 hrest
      intro b hb
      rcases List.mem_append.1 hb with hb | hb
      · exact hs b hb
      · cases List.mem_singleton.1 hb
        exact hbuild
  · cases check_pure.1 hrest
    exact hs

theorem onlyFails_partActions (r : Resolver) (d : Draft) (resource : String)
    (config : Options) :
    (liftM (d.partActions r.catalog resource config) :
      Resolution (Attachments × List AttachedBuilder)).OnlyFails NotAutoAttach := by
  refine OnlyFails.lift (fun f h => ?_)
  obtain ⟨action, -, state, hstep⟩ := check_foldlM_error h
  unfold partAction at hstep
  rcases check_bind_error.1 hstep with hentry | ⟨entry, -, hlast⟩
  · rw [attachedEntry_error hentry]
    exact nofun
  · split at hlast <;> cases hlast

theorem onlyFails_expandBuilders (r : Resolver) (d : Draft) (resource : String) :
    (d.expandBuilders r resource).OnlyFails (NotOwnAutoAttach r.catalog) := by
  refine ((onlyFails_partActions r d resource (d.resource resource)).mono
    (fun _ => Or.inl)).bind (fun parted t t' hpart => ?_)
  have hbuilders := builders_of_partActions (returns_lift.1 hpart).1
  refine OnlyFails.bind (OnlyFails.foldlM (fun b hb state => ?_))
    (fun _ _ _ _ => OnlyFails.pure _)
  refine ((onlyFails_resolveAttachment r .action resource b.name b.entry b.options).mono
    (fun _ => Or.inl)).bind (fun options _ _ _ => ?_)
  refine OnlyFails.bind (OnlyFails.lift (fun f hraise => ?_)) (fun emitted _ _ _ => ?_)
  · obtain ⟨name, type, hget, hbuild⟩ := builderOf?_eq_some (hbuilders b hb)
    exact Or.inr (Or.inl ⟨name, type, b.build, _, options, hget, hbuild, hraise⟩)
  · exact OnlyFails.foldlM (fun e _ s =>
      (onlyFails_takeEmitted r resource b.name s e).mono (fun _ => Or.inl))

theorem onlyFails_takeContributed (r : Resolver) (resource origin : String)
    (state : Attachments × Draft) (e : String × Options) :
    (takeContributed r resource origin state e).OnlyFails NotAutoAttach := by
  refine (onlyFails_canonicalName r state.2 .action resource e.1).bind (fun named _ _ _ => ?_)
  refine (onlyFails_refuseBuilder r named.2 resource origin named.1).bind (fun _ _ _ _ => ?_)
  refine (onlyFails_attachedEntry named.2 .action resource named.1).bind
    (fun entry _ _ _ => ?_)
  exact (onlyFails_resolveAttachment r .action resource named.1 entry _).bind
    (fun _ _ _ _ => OnlyFails.pure _)

theorem onlyFails_applyBehaviors (r : Resolver) (d : Draft) (resource : String) :
    (d.applyBehaviors r resource).OnlyFails (NotOwnAutoAttach r.catalog) := by
  refine OnlyFails.bind (OnlyFails.foldlM (fun behavior _ state => ?_))
    (fun _ _ _ _ => OnlyFails.pure _)
  refine ((onlyFails_attachedEntry state.2 .behavior resource behavior.1).mono
    (fun _ => Or.inl)).bind (fun entry _ _ _ => ?_)
  split
  · exact OnlyFails.pure _
  · next type htype =>
      refine OnlyFails.bind (OnlyFails.lift (fun f hraise => ?_)) (fun contributed _ _ _ => ?_)
      · obtain ⟨name, hget⟩ := behaviorTypeOf?_eq_some htype
        exact Or.inr (Or.inr ⟨name, type, _, _, _, hget, hraise⟩)
      · exact OnlyFails.foldlM (fun e _ s =>
          (onlyFails_takeContributed r resource behavior.1 s e).mono (fun _ => Or.inl))

/-- Working out actions does not fail to auto-attach, unless a registered type does. -/
theorem onlyFails_finalizeActions (r : Resolver) (d : Draft) (resource : String) :
    (d.finalizeActions r resource).OnlyFails (NotOwnAutoAttach r.catalog) :=
  ((onlyFails_normalizeAttachments r .action d resource).mono (fun _ => Or.inl)).bind
    (fun d₁ _ _ _ => (onlyFails_expandBuilders r d₁ resource).bind
      (fun d₂ _ _ _ =>
        ((onlyFails_resolveAttachments r .action d₂ resource).mono (fun _ => Or.inl)).bind
          (fun d₃ _ _ _ => onlyFails_applyBehaviors r d₃ resource)))

theorem onlyFails_declareBehaviors (r : Resolver) (d : Draft) :
    (d.declareBehaviors r).OnlyFails NotAutoAttach :=
  OnlyFails.bind
    (OnlyFails.foldlM (fun name _ d => onlyFails_normalizeAttachments r .behavior d name))
    (fun _ _ _ _ => OnlyFails.foldlM
      (fun name _ d => onlyFails_resolveAttachments r .behavior d name))

theorem requirePermission_error {permissions : EntrySet} {required : List String}
    {permission : String} {f : Failure}
    (h : requirePermission permissions resource required permission = .error f) :
    f = .unknownPermission resource permission := by
  unfold requirePermission at h
  split at h
  · cases h
    rfl
  · cases h

/-- Lifting the permissions of its actions onto a resource fails at an unknown one. -/
theorem propagatePermissions_error {d : Draft} {f : Failure}
    (h : d.propagatePermissions resource = .error f) :
    ∃ permission, f = .unknownPermission resource permission := by
  unfold propagatePermissions at h
  rcases check_bind_error.1 h with hfold | ⟨required, -, hlast⟩
  · obtain ⟨permission, -, listed, hstep⟩ := check_foldlM_error hfold
    exact ⟨permission, requirePermission_error hstep⟩
  · cases hlast

/-- Lifting permissions does not fail to auto-attach. -/
theorem onlyFails_liftPermissions (names : List String) (d : Draft) :
    (liftPermissions names d).OnlyFails NotAutoAttach := by
  refine OnlyFails.foldlM (fun name _ d => OnlyFails.lift (fun f h => ?_))
  obtain ⟨permission, rfl⟩ := propagatePermissions_error h
  exact nofun

end Draft
end ConfigCompiler
