import ConfigCompiler.Proofs.AttachedBehaviors
import ConfigCompiler.Proofs.AttachedLookups
import ConfigCompiler.Proofs.FailureSources

/-!
# Unknown references

The second phase reports an unknown reference where a key of an attachment leads nowhere, and
it would report one where the entry of an attached name is missing.  The latter never happens,
so an unknown reference always names a key: one that a resource lists, a builder emits or a
behavior contributes.

**Input.**  `x.FailsOnly t Q`: asked with the tables `t`, the question `x` fails only with
failures of the property `Q`.  Other than `OnlyFails` it may depend on what was answered before.

**Predicates.**  `NotReference f`: the failure is no unknown reference.  `FailureOrigin r d t f`:
where the failure of a second phase comes from.

**Results.**
* `FailsOnly.bind`, `FailsOnly.foldlM`, `FailsOnly.mapM`: a question fails as its parts do,
  where they are asked.
* `failureOrigin_of_finalize`: the second phase fails where an entry or a key is looked up, where
  a registered type fails, or otherwise with no unknown reference.
* `attached_entries_stored`: entries of attached names are found, and unknown references name
  keys.
-/

namespace ConfigCompiler

namespace Resolution

variable {α β σ : Type} {Q : Failure → Prop} {t : SchemaTables}

/-- Asked with the tables `t`, the question fails only with failures of the property. -/
def FailsOnly (x : Resolution α) (t : SchemaTables) (Q : Failure → Prop) : Prop :=
  ∀ f t', x.Fails t f t' → Q f

theorem OnlyFails.failsOnly {x : Resolution α} {P : Failure → Prop} (h : x.OnlyFails P)
    (hPQ : ∀ f, P f → Q f) : x.FailsOnly t Q :=
  fun f t' hfails => hPQ f (h t f t' hfails)

theorem FailsOnly.pure (a : α) : FailsOnly (Pure.pure a : Resolution α) t Q :=
  fun _ _ hfails => (fails_pure.1 hfails).elim

theorem FailsOnly.lift {e : Except Failure α} (h : ∀ f, e = .error f → Q f) :
    FailsOnly (liftM e : Resolution α) t Q :=
  fun f _ hfails => h f (fails_lift.1 hfails).1

theorem FailsOnly.bind {x : Resolution α} {k : α → Resolution β} (hx : x.FailsOnly t Q)
    (hk : ∀ a t', x.Returns t a t' → (k a).FailsOnly t' Q) : (x >>= k).FailsOnly t Q := by
  intro f t'' hfails
  rcases fails_bind.1 hfails with h | ⟨a, t', hreturns, h⟩
  · exact hx f t'' h
  · exact hk a t' hreturns f t'' h

theorem FailsOnly.foldlM {step : σ → α → Resolution σ} {items : List α} {s : σ}
    (h : ∀ a s' t', Visits step s t items a s' t' → (step s' a).FailsOnly t' Q) :
    FailsOnly (items.foldlM step s) t Q := by
  intro f t'' hfails
  obtain ⟨a, s', t', hvisit, hstep⟩ := fails_foldlM_iff.1 hfails
  exact h a s' t' hvisit f t'' hstep

theorem FailsOnly.mapM {step : String → α → Resolution β} {m : SortedMap α}
    (h : ∀ key v t', Meets step m t key v t' → (step key v).FailsOnly t' Q) :
    FailsOnly (m.mapM step) t Q := by
  intro f t'' hfails
  obtain ⟨key, v, t', hmeets, hstep⟩ := fails_mapM hfails
  exact h key v t' hmeets f t'' hstep

end Resolution

open Resolution

/-- The failure is no unknown reference. -/
def NotReference (f : Failure) : Prop :=
  ∀ kind name other reference, f ≠ .unknownReference kind name other reference

namespace Draft

variable {r : Resolver} {d d' : Draft} {t t' : SchemaTables} {f : Failure}
variable {kind : AttachmentKind} {resource key name : String}

/-- Where the failure of a second phase of `d` comes from. -/
inductive FailureOrigin (r : Resolver) (d : Draft) (t : SchemaTables) (f : Failure) : Prop
  /-- The entry of a name is looked up and missing. -/
  | entry {kind : AttachmentKind} {resource name : String} {d' : Draft}
      (hasked : EntryAsked r d t kind resource name d')
      (herror : d'.attachedEntry kind resource name = .error f)
  /-- A key is looked up, which fails. -/
  | key {kind : AttachmentKind} {resource key : String} {d' : Draft} {t' t'' : SchemaTables}
      (hasked : KeyAsked r d t kind resource key d' t')
      (hfails : (d'.canonicalName r kind resource key).Fails t' f t'')
  /-- A registered type fails. -/
  | raised (hraises : r.catalog.Raises f)
  /-- Something else fails, which refers to nothing. -/
  | other (hother : NotReference f)

theorem failsOnly_resolveAttachment {Q : Failure → Prop} {entry raw : Options}
    (hother : ∀ f, NotReference f → Q f) :
    (r.resolveAttachment kind resource name entry raw).FailsOnly t Q := by
  refine (onlyInvalid_resolveAttachment r kind resource name entry raw).failsOnly ?_
  rintro _ ⟨violation, rfl⟩
  exact hother _ nofun

/-- An emitted or contributed action is checked: its entry is missing, or it is a builder. -/
theorem refuseBuilder_error {catalog : Catalog} {origin action : String}
    (h : d.refuseBuilder catalog resource origin action = .error f) :
    d.attachedEntry .action resource action = .error f ∨ NotReference f := by
  unfold refuseBuilder at h
  rcases check_bind_error.1 h with hentry | ⟨entry, -, hlast⟩
  · exact Or.inl hentry
  · split at hlast
    · cases hlast
      exact Or.inr nofun
    · cases hlast

theorem partAction_error {catalog : Catalog} {parts : Attachments × List AttachedBuilder}
    {action : String × Options} (h : d.partAction catalog resource parts action = .error f) :
    d.attachedEntry .action resource action.1 = .error f := by
  unfold partAction at h
  rcases check_bind_error.1 h with hentry | ⟨entry, -, hlast⟩
  · exact hentry
  · split at hlast <;> cases hlast

/-- Wherever the entries of attached names are looked up, resolving their bags fails for no
other reason than that, or with no unknown reference. -/
theorem failsOnly_resolveAttachments {Q : Failure → Prop} (hother : ∀ f, NotReference f → Q f)
    (hentry : ∀ name bag t', Meets (resolveBag r kind d resource)
      (attachmentsOf (d.resource resource) kind) t name bag t' →
      ∀ f, d.attachedEntry kind resource name = .error f → Q f) :
    (d.resolveAttachments r kind resource).FailsOnly t Q := by
  rw [resolveAttachments_eq]
  refine FailsOnly.bind (FailsOnly.mapM (fun name bag t' hmeets => ?_))
    (fun _ _ _ => FailsOnly.pure _)
  exact FailsOnly.bind (FailsOnly.lift (hentry name bag t' hmeets))
    (fun _ _ _ => failsOnly_resolveAttachment hother)

/-- Putting attachments under stored names fails where a key is looked up. -/
theorem failsOnly_normalizeAttachments {Q : Failure → Prop}
    (hkey : ∀ key d' t', KeyMet r kind d t resource key d' t' →
      (d'.canonicalName r kind resource key).FailsOnly t' Q) :
    (d.normalizeAttachments r kind resource).FailsOnly t Q := by
  refine FailsOnly.bind (FailsOnly.foldlM (fun e state t' hvisit => ?_))
    (fun _ _ _ => FailsOnly.pure _)
  exact FailsOnly.bind (hkey e.1 state.2 t' ⟨e.2, state.1, hvisit⟩)
    (fun _ _ _ => FailsOnly.pure _)

/-- Behaviors that attach themselves refer to nothing. -/
theorem onlyFails_autoAttachBehaviors (r : Resolver) (d : Draft) (resource : String) :
    (d.autoAttachBehaviors r resource).OnlyFails NotReference := by
  refine OnlyFails.bind (OnlyFails.foldlM (fun behavior _ attached t f t' hfails => ?_))
    (fun _ _ _ _ => OnlyFails.pure _)
  obtain ⟨-, -, refused, interface, reason, -, rfl⟩ := autoAttach_fails hfails
  exact nofun

section Actions

variable {d₁ : Draft} {t₁ : SchemaTables}

/-- While builders are expanded, the second phase fails where entries and keys are looked up,
or where a builder fails. -/
theorem failsOnly_expandBuilders (hnamed : ActionsNamed r d t resource d₁ t₁) :
    (d₁.expandBuilders r resource).FailsOnly t₁ (FailureOrigin r d t) := by
  refine FailsOnly.bind (FailsOnly.lift (fun f herror => ?_))
    (fun ⟨plain, builders⟩ t₂ hparts => ?_)
  · obtain ⟨before, ⟨name, bag⟩, after, between, hactions, hbefore, hstep⟩ :=
      check_foldlM_fails herror
    exact .entry (.partedAction hnamed hactions hbefore) (partAction_error hstep)
  · obtain ⟨hpart, rfl⟩ := returns_lift.1 hparts
    have hbuilders := builders_of_partActions hpart
    refine FailsOnly.bind (FailsOnly.foldlM (fun b state t₃ hvisit => ?_))
      (fun _ _ _ => FailsOnly.pure _)
    refine FailsOnly.bind (failsOnly_resolveAttachment (fun _ => .other))
      (fun options t₄ hoptions => ?_)
    refine FailsOnly.bind (FailsOnly.lift (fun f hraises => ?_)) (fun emitted t₅ hlift => ?_)
    · obtain ⟨name, type, hget, hbuild⟩ := builderOf?_eq_some (hbuilders b hvisit.mem)
      exact .raised (Or.inl ⟨name, type, b.build, _, options, hget, hbuild, hraises⟩)
    · obtain ⟨hbuild, rfl⟩ := returns_lift.1 hlift
      have hemits : EmitsActions r d t resource b state t₅ emitted :=
        ⟨d₁, t₂, plain, builders, hnamed, hpart, t₃, options, hvisit, hoptions, hbuild⟩
      refine FailsOnly.foldlM (fun e state' t₆ hkey => ?_)
      refine FailsOnly.bind (fun f t₇ hfails => .key (hemits.keyAsked hkey) hfails)
        (fun found t₇ hname => ?_)
      refine FailsOnly.bind (FailsOnly.lift (fun f hrefuse => ?_)) (fun _ _ _ => ?_)
      · rcases refuseBuilder_error hrefuse with herror | hother
        · exact .entry (.emittedAction hemits hkey hname) herror
        · exact .other hother
      · split <;> exact FailsOnly.pure _

/-- While behaviors contribute, the second phase fails where entries and keys are looked up, or
where a behavior fails. -/
theorem failsOnly_applyBehaviors (hresolved : ActionsResolved r d t resource d₁ t₁) :
    (d₁.applyBehaviors r resource).FailsOnly t₁ (FailureOrigin r d t) := by
  refine FailsOnly.bind (FailsOnly.foldlM (fun behavior state t₂ hbehavior => ?_))
    (fun _ _ _ => FailsOnly.pure _)
  refine FailsOnly.bind (FailsOnly.lift (fun f herror =>
    .entry (.contributingBehavior hresolved hbehavior) herror)) (fun entry t₃ hfound => ?_)
  obtain ⟨hentry, rfl⟩ := returns_lift.1 hfound
  cases htype : behaviorTypeOf? r.catalog entry with
  | none => exact FailsOnly.pure _
  | some type =>
      refine FailsOnly.bind (FailsOnly.lift (fun f hraises => ?_))
        (fun contributed t₄ hlift => ?_)
      · obtain ⟨name, hget⟩ := behaviorTypeOf?_eq_some htype
        exact .raised (Or.inr ⟨name, type, _, _, _, hget, hraises⟩)
      · obtain ⟨hbuild, rfl⟩ := returns_lift.1 hlift
        have hcontributes : Contributes r d t resource behavior state t₄ contributed :=
          ⟨d₁, t₁, entry, type, hresolved, hbehavior, hentry, htype, hbuild⟩
        refine FailsOnly.foldlM (fun e state' t₅ hkey => ?_)
        refine FailsOnly.bind (fun f t₆ hfails => .key (hcontributes.keyAsked hkey) hfails)
          (fun found t₆ hname => ?_)
        have hasked : EntryAsked r d t .action resource found.1 found.2 :=
          .contributedAction hcontributes hkey hname
        refine FailsOnly.bind (FailsOnly.lift (fun f hrefuse => ?_)) (fun _ _ _ => ?_)
        · exact (refuseBuilder_error hrefuse).elim (.entry hasked) .other
        · exact FailsOnly.bind (FailsOnly.lift (fun f herror => .entry hasked herror))
            (fun _ _ _ => FailsOnly.bind (failsOnly_resolveAttachment (fun _ => .other))
              (fun _ _ _ => FailsOnly.pure _))

/-- Working out the actions of a resource fails where entries and keys are looked up, or where a
registered type fails. -/
theorem failsOnly_finalizeActions (hbegun : ActionsBegun r d t resource d₁ t₁) :
    (d₁.finalizeActions r resource).FailsOnly t₁ (FailureOrigin r d t) := by
  refine FailsOnly.bind (failsOnly_normalizeAttachments (fun key d' t' hmet f t'' hfails =>
    .key (.attachedAction hbegun hmet) hfails)) (fun d₂ t₂ hnames => ?_)
  have hnamed : ActionsNamed r d t resource d₂ t₂ := ⟨d₁, t₁, hbegun, hnames⟩
  refine FailsOnly.bind (failsOnly_expandBuilders hnamed) (fun d₃ t₃ hexpand => ?_)
  refine FailsOnly.bind (failsOnly_resolveAttachments (fun _ => .other)
    (fun name bag t' hbag f herror => .entry (.resolvedAction hnamed hexpand hbag) herror))
    (fun d₄ t₄ hresolve => ?_)
  exact failsOnly_applyBehaviors ⟨d₂, t₂, d₃, t₃, hnamed, hexpand, hresolve⟩

end Actions

theorem failsOnly_settleBehaviors (r : Resolver) (d : Draft) (t : SchemaTables) :
    (d.settleBehaviors r).FailsOnly t (FailureOrigin r d t) := by
  refine FailsOnly.bind (FailsOnly.bind (FailsOnly.foldlM (fun resource d₁ t₁ hpass => ?_))
    (fun d₁ t₁ hnames => FailsOnly.foldlM (fun resource d₂ t₂ hpass => ?_)))
    (fun d₁ t₁ _ => FailsOnly.foldlM (fun resource d₂ t₂ _ => ?_))
  · exact failsOnly_normalizeAttachments (fun key d' t' hmet f t'' hfails =>
      .key (.attachedBehavior hpass hmet) hfails)
  · exact failsOnly_resolveAttachments (fun _ => .other) (fun name bag t' hbag f herror =>
      .entry (.resolvedBehavior hnames hpass hbag) herror)
  · exact (onlyFails_autoAttachBehaviors r d₂ resource).failsOnly (fun _ => .other)

/-- The second phase fails where an entry or a key is looked up, where a registered type fails,
or otherwise with no unknown reference. -/
theorem failureOrigin_of_finalize {time : Timestamp} (h : (d.finalize r time).Fails t f t') :
    FailureOrigin r d t f := by
  have hphase : (d.finalizeResources r).FailsOnly t (FailureOrigin r d t) := by
    rw [finalizeResources_eq]
    refine FailsOnly.bind (FailsOnly.bind (failsOnly_settleBehaviors r d t)
      (fun d₁ t₁ hsettle => FailsOnly.foldlM (fun resource d₂ t₂ hvisit => ?_)))
      (fun d₁ t₁ _ => FailsOnly.foldlM (fun resource d₂ t₂ _ => ?_))
    · exact failsOnly_finalizeActions ⟨d₁, t₁, hsettle, hvisit⟩
    · refine FailsOnly.lift (fun f herror => .other ?_)
      obtain ⟨permission, rfl⟩ := propagatePermissions_error herror
      exact nofun
  exact hphase f t' (finalize_fails.1 h)

/-- Looking a key up ends with an unknown reference only if the key leads nowhere and denotes
no registered type. -/
theorem unknown_of_canonicalName
    (h : (d.canonicalName r kind resource key).Fails t f t') (hreference : ¬ NotReference f) :
    (d.attachable kind).canonical? key = none ∧ r.catalog.hasType kind.kind key = false ∧
      f = unknownReference resource kind key := by
  unfold canonicalName at h
  split at h
  · exact (fails_pure.1 h).elim
  · next hnone =>
      split at h
      · rcases onlyRefuses_discover r d kind key t f t' h with rfl | ⟨_, rfl⟩ | ⟨_, rfl⟩ <;>
          exact absurd nofun hreference
      · next htype => exact ⟨hnone, Bool.eq_false_iff.2 htype, (fails_throw.1 h).1⟩

/-- Wherever the second phase looks up the entry of an attached name, the name is stored and the
entry is found.  So if registered types fail to expand only, every unknown reference of the
second phase is one of a resource, and names a key that the resource lists, that one of its
builders emits or that one of its behaviors contributes, which leads nowhere at that time and
denotes no registered type. -/
theorem attached_entries_stored (r : Resolver) (time : Timestamp) (d : Draft)
    (t : SchemaTables) :
    (∀ kind resource name d', EntryAsked r d t kind resource name d' →
      (d'.attachable kind).configs.contains name = true ∧
      ∃ entry, d'.attachedEntry kind resource name = .ok entry) ∧
    ((∀ f, r.catalog.Raises f → ∃ kind name reason, f = .expansion kind name reason) →
      ∀ kind name other reference t',
        (d.finalize r time).Fails t (.unknownReference kind name other reference) t' →
        kind = .resource ∧ ∃ attached : AttachmentKind, other = attached.kind ∧
          AttachmentKey r d t attached name reference ∧
          ∃ d' t'', KeyAsked r d t attached name reference d' t'' ∧
            (d'.attachable attached).canonical? reference = none ∧
            r.catalog.hasType attached.kind reference = false) := by
  constructor
  · intro kind resource name d' hasked
    obtain ⟨entry, -, hentry⟩ := hasked.attachedEntry
    exact ⟨hasked.stored, entry, hentry⟩
  · intro htypes kind name other reference t' h
    cases failureOrigin_of_finalize h with
    | entry hasked herror =>
        obtain ⟨entry, -, hentry⟩ := hasked.attachedEntry
        rw [hentry] at herror
        cases herror
    | key hasked hfails =>
        obtain ⟨hnone, htype, heq⟩ :=
          unknown_of_canonicalName hfails (fun hother => hother _ _ _ _ rfl)
        cases heq
        exact ⟨rfl, _, rfl, hasked.attachmentKey, _, _, hasked, hnone, htype⟩
    | raised hraises =>
        obtain ⟨_, _, _, heq⟩ := htypes _ hraises
        cases heq
    | other hother => exact absurd rfl (hother _ _ _ _)

namespace Mail

def resolver : Resolver :=
  Resolver.ofCatalog (Catalog.empty.registerAction
    { name := "mail::Stamp",
      build? := some (fun config _ =>
        if config.contains "entity" then .ok (SortedMap.singleton "seal" ∅)
        else .error (.expansion .action "stamp" "nothing to stamp")) })

/-- A letter is stamped.  The stamp is a builder, and emits a seal that nobody declares. -/
def entries : EntryTable where
  permissions := ∅
  actions := SortedMap.singleton "stamp" (SortedMap.singleton "class" (.string "mail::Stamp"))
  behaviors := ∅
  namespaces := SortedMap.singleton "mail" ∅
  resources := SortedMap.singleton "letter" (SortedMap.ofList [
    ("entity", .string "Letter"), ("namespace", .string "mail"),
    ("actions", .object (SortedMap.singleton "stamp" (.object ∅)))])

/-- The failure that a question ends with. -/
def failure? {α : Type} (x : Resolution α) (t : SchemaTables) : Option Failure :=
  match (x.ask t).1 with
  | .ok _ => none
  | .error f => some f

theorem fails_of_failure? {α : Type} {x : Resolution α} (h : failure? x t = some f) :
    ∃ t', x.Fails t f t' := by
  unfold failure? at h
  rcases returns_or_fails x t with ⟨a, t', hreturns⟩ | ⟨g, t', hfails⟩
  · rw [show (x.ask t).1 = .ok a from congrArg Prod.fst hreturns] at h
    cases h
  · rw [show (x.ask t).1 = .error g from congrArg Prod.fst hfails] at h
    cases h
    exact ⟨t', hfails⟩

/-- The draft and the tables after the first phase, and the drafts in which the actions of the
letter are begun and named. -/
def run : Resolution (Draft × SchemaTables × Draft × Draft) := do
  let d ← build resolver ⟨resolver.catalog, entries⟩
  let t ← get
  let d₀ ← d.settleBehaviors resolver
  let d₁ ← d₀.normalizeAttachments resolver .action "letter"
  return (d, t, d₀, d₁)

/-- The letter lists the stamp alone, and the second phase does not know the seal. -/
theorem stamped :
    ∃ d t d₁ t₁ bag t₂, (build resolver ⟨resolver.catalog, entries⟩).Returns .empty d t ∧
      ActionsNamed resolver d t "letter" d₁ t₁ ∧
      (d₁.actionsOf "letter").entries = [("stamp", bag)] ∧
      (d.finalize resolver .epoch).Fails t
        (.unknownReference .resource "letter" .action "seal") t₂ := by
  obtain ⟨⟨d, t, d₀, d₁⟩, t₁, h, htest⟩ := returns_of_any (x := run) (t := .empty)
    (p := fun result => result.1.sets.resources.names == ["letter"] &&
      ((result.2.2.2.actionsOf "letter").keys == ["stamp"] &&
        failure? (result.1.finalize resolver .epoch) result.2.1 ==
          some (.unknownReference .resource "letter" .action "seal")))
    (by decide +kernel)
  simp only [Bool.and_eq_true, beq_iff_eq] at htest
  obtain ⟨hnames, hkeys, hfailure⟩ := htest
  obtain ⟨t₂, hfails⟩ := fails_of_failure? hfailure
  obtain ⟨d', u, hbuild, h₁⟩ := returns_bind.1 h
  obtain ⟨read, u', hget, h₂⟩ := returns_bind.1 h₁
  obtain ⟨d₀', t₀, hsettle, h₃⟩ := returns_bind.1 h₂
  obtain ⟨d₁', t₃, hnamed, h₄⟩ := returns_bind.1 h₃
  obtain ⟨heq, rfl⟩ := returns_pure.1 h₄
  simp only [Prod.mk.injEq] at heq
  obtain ⟨rfl, rfl, rfl, rfl⟩ := heq
  -- the tables are read and stay as they are
  cases hget
  obtain ⟨bag, hbag⟩ : ∃ bag, (d₁.actionsOf "letter").entries = [("stamp", bag)] := by
    rw [SortedMap.keys] at hkeys
    obtain ⟨⟨name, bag⟩, more, hcons, rfl, hmore⟩ := List.map_eq_cons_iff.1 hkeys
    exact ⟨bag, by rw [hcons, List.map_eq_nil_iff.1 hmore]⟩
  refine ⟨d, _, d₁, _, bag, t₂, hbuild, ⟨d₀, t₀, ⟨d₀, t₀, hsettle, ?_⟩, hnamed⟩, hbag, hfails⟩
  rw [hnames]
  exact Visits.head _ _ _ _ _

/-- The stamp fails to expand only. -/
theorem raises_expansion :
    ∀ f, resolver.catalog.Raises f → ∃ kind name reason, f = .expansion kind name reason := by
  rintro f (⟨name, type, build, config, options, hget, hbuild, hraises⟩ |
    ⟨name, type, attached, config, options, hget, -⟩)
  · change (SortedMap.insert ∅ "mail::Stamp" _).get? name = some type at hget
    rw [SortedMap.get?_insert] at hget
    split at hget
    · cases hget
      cases hbuild
      dsimp only at hraises
      split at hraises
      · cases hraises
      · cases hraises
        exact ⟨_, _, _, rfl⟩
    · cases hget
  · cases hget

end Mail

theorem attached_entries_stored_mail :
    ∃ d t d₁, (build Mail.resolver ⟨Mail.resolver.catalog, Mail.entries⟩).Returns .empty d t ∧
      EntryAsked Mail.resolver d t .action "letter" "stamp" d₁ ∧
      (d₁.attachable .action).configs.contains "stamp" = true ∧
      (∃ t', (d.finalize Mail.resolver .epoch).Fails t
        (.unknownReference .resource "letter" .action "seal") t') ∧
      ∃ attached : AttachmentKind, attached.kind = .action ∧
        AttachmentKey Mail.resolver d t attached "letter" "seal" ∧
        ∃ d' t'', KeyAsked Mail.resolver d t attached "letter" "seal" d' t'' ∧
          (d'.attachable attached).canonical? "seal" = none ∧
          Mail.resolver.catalog.hasType attached.kind "seal" = false := by
  obtain ⟨d, t, d₁, t₁, bag, t₂, hbuild, hnamed, hentries, hfails⟩ := Mail.stamped
  obtain ⟨hstored, hunknown⟩ := attached_entries_stored Mail.resolver .epoch d t
  have hfirst : (d₁.actionsOf "letter").entries = [] ++ ("stamp", bag) :: [] := hentries
  have hasked : EntryAsked Mail.resolver d t .action "letter" "stamp" d₁ :=
    .partedAction hnamed hfirst rfl
  obtain ⟨-, attached, hkind, hkey, hlooked⟩ := hunknown Mail.raises_expansion _ _ _ _ _ hfails
  exact ⟨d, t, d₁, hbuild, hasked, (hstored _ _ _ _ hasked).1, ⟨t₂, hfails⟩, attached,
    hkind.symm, hkey, hlooked⟩

end Draft
end ConfigCompiler
