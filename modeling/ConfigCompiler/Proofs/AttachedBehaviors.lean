import ConfigCompiler.Proofs.DeclaredBehaviors
import ConfigCompiler.Proofs.FailureSources

/-!
# The behaviors of a resource in the end

A resource ends up with the behaviors it lists and those that attach themselves.

**Predicates.**  `ImplementsInterface catalog d resource interface` says what a resource
implements without going through the set of its capabilities; `AttachesItself` what an
entry has to name; `CannotAttach` when the resolver refuses the empty options;
`BehaviorsSettled` what a resource attaches in the end.

**Results.**
* `contains_capabilities`: the capabilities are exactly what the resource implements.
* `autoAttachPass_returns`, `autoAttachPass_fails`: the third pass attaches what has to
  be attached, keeps what is there, and fails only where a behavior cannot be attached.
* `behaviors_attached`: the behaviors of every resource in the end, and the failures.
-/

namespace ConfigCompiler
namespace Draft

variable {r : Resolver} {time : Timestamp} {d d' : Draft} {t t' : SchemaTables}
variable {resource name : String} {f : Failure}

/-- A resource implements an interface through its entity, or because it names or
declares the interface or another one that implements it. -/
def ImplementsInterface (catalog : Catalog) (d : Draft) (resource interface : String) : Prop :=
  (∃ entity, (d.resource resource).str? "entity" = some entity ∧
      catalog.hasCapability entity interface = true) ∨
    ∃ named, ((d.resource resource).str? "interface" = some named ∨
        named ∈ d.interfacesOf resource) ∧
      (interface = named ∨ catalog.hasCapability named interface = true)

/-- The capabilities of a resource are what it implements. -/
theorem contains_capabilities (catalog : Catalog) (d : Draft) (resource interface : String) :
    (d.capabilities catalog resource (d.resource resource)).contains interface = true ↔
      ImplementsInterface catalog d resource interface := by
  have hfold : ∀ (named : List String) (all : NameSet),
      (named.foldl (fun all i => (all.union (catalog.capabilitiesOf i)).insert i ())
          all).contains interface = true ↔
        all.contains interface = true ∨
          ∃ i ∈ named, interface = i ∨ catalog.hasCapability i interface = true := by
    intro named
    induction named with
    | nil => simp
    | cons i rest ih =>
        intro all
        rw [List.foldl_cons, ih]
        simp only [SortedMap.contains_insert, Bool.or_eq_true, decide_eq_true_eq,
          NameSet.contains_union, Catalog.hasCapability, List.mem_cons, exists_eq_or_imp]
        rw [eq_comm (a := i), or_left_comm, or_assoc, or_assoc]
  unfold capabilities ImplementsInterface
  rw [hfold]
  refine or_congr ?_ ?_
  · cases hentity : (d.resource resource).str? "entity" with
    | none => simp [SortedMap.contains]
    | some entity => simp [Catalog.hasCapability]
  · simp [namedInterfaces, Option.mem_toList]

/-- An entry names an interface that the resource implements. -/
def AttachesItself (catalog : Catalog) (d : Draft) (resource : String) (entry : Options) :
    Prop :=
  ∃ interface, entry.str? "interface" = some interface ∧
    ImplementsInterface catalog d resource interface

theorem implemented_iff (catalog : Catalog) (d : Draft) (resource : String)
    (entry : Options) :
    Implemented (d.capabilities catalog resource (d.resource resource)) entry ↔
      AttachesItself catalog d resource entry := by
  simp only [Implemented, AttachesItself, contains_capabilities]

/-- What a resource implements does not depend on its attachments. -/
theorem Changes.attachesItself_iff {kinds : List AttachmentKind} {names keys : List String}
    (h : Changes kinds names keys d d') (hentity : "entity" ∉ keys)
    (hinterface : "interface" ∉ keys) (catalog : Catalog) (resource : String)
    (entry : Options) :
    AttachesItself catalog d' resource entry ↔ AttachesItself catalog d resource entry := by
  unfold AttachesItself ImplementsInterface interfacesOf Options.str?
  rw [h.option_eq resource "entity" (Or.inr hentity),
    h.option_eq resource "interface" (Or.inr hinterface), h.declared_eq]

/-- What going over behaviors does to the attachments of a resource, where `implements`
says which entries attach themselves. -/
structure AutoAttached (r : Resolver) (t : SchemaTables) (resource : String)
    (implements : Options → Prop) (behaviors : List (String × Options))
    (attached attached' : Attachments) : Prop where
  kept : ∀ name options, attached.get? name = some options →
    attached'.get? name = some options
  implied : ∀ name entry, (name, entry) ∈ behaviors → attached.contains name = false →
    implements entry →
    ∃ options, r.attachmentAnswer t .behavior resource name entry ∅ = .ok options ∧
      attached'.get? name = some options
  others : ∀ name, attached.contains name = false →
    (∀ entry, (name, entry) ∈ behaviors → ¬ implements entry) →
    attached'.get? name = none

section AutoAttached

variable {implements : Options → Prop} {behaviors : List (String × Options)}
variable {attached attached' : Attachments}

/-- What was not there is an attached behavior that is implemented. -/
theorem AutoAttached.added {options : Options}
    (h : AutoAttached r t resource implements behaviors attached attached')
    (hfree : attached.contains name = false) (hget : attached'.get? name = some options) :
    ∃ entry, (name, entry) ∈ behaviors ∧ implements entry ∧
      r.attachmentAnswer t .behavior resource name entry ∅ = .ok options := by
  by_cases hsome : ∃ entry, (name, entry) ∈ behaviors ∧ implements entry
  · obtain ⟨entry, hmem, himplements⟩ := hsome
    obtain ⟨options', hanswer, hget'⟩ := h.implied name entry hmem hfree himplements
    obtain rfl := Option.some.inj (hget'.symm.trans hget)
    exact ⟨entry, hmem, himplements, hanswer⟩
  · rw [h.others name hfree (fun entry hmem himplements =>
      hsome ⟨entry, hmem, himplements⟩)] at hget
    cases hget

/-- The names attached are those that were there and those implemented. -/
theorem AutoAttached.contains_iff
    (h : AutoAttached r t resource implements behaviors attached attached')
    (name : String) :
    attached'.contains name = true ↔ attached.contains name = true ∨
      ∃ entry, (name, entry) ∈ behaviors ∧ implements entry := by
  constructor
  · intro hcontains
    obtain ⟨options, hget⟩ := SortedMap.exists_of_contains hcontains
    cases hfree : attached.contains name with
    | true => exact Or.inl rfl
    | false =>
        obtain ⟨entry, hmem, himplements, -⟩ := h.added hfree hget
        exact Or.inr ⟨entry, hmem, himplements⟩
  · intro hor
    cases hfree : attached.contains name with
    | true =>
        obtain ⟨options, hget⟩ := SortedMap.exists_of_contains hfree
        exact SortedMap.contains_of_get? (h.kept name options hget)
    | false =>
        rw [hfree] at hor
        obtain ⟨entry, hmem, himplements⟩ := hor.resolve_left Bool.false_ne_true
        obtain ⟨options, -, hget⟩ := h.implied name entry hmem hfree himplements
        exact SortedMap.contains_of_get? hget

/-- Names that no behavior has are left alone. -/
theorem AutoAttached.untouched
    (h : AutoAttached r t resource implements behaviors attached attached')
    (hname : ∀ entry, (name, entry) ∉ behaviors) :
    attached'.get? name = attached.get? name := by
  cases hget : attached.get? name with
  | some options => exact h.kept name options hget
  | none =>
      have hfree : attached.contains name = false := by simp [SortedMap.contains, hget]
      exact h.others name hfree (fun entry hmem => absurd hmem (hname entry))

/-- One behavior is attached before others, which have other names and are answered for
as before. -/
theorem AutoAttached.cons {behavior : String × Options} {between : Attachments}
    (h : AutoAttached r t resource implements [behavior] attached between)
    (h' : AutoAttached r t' resource implements behaviors between attached')
    (hne : ∀ e ∈ behaviors, e.1 ≠ behavior.1)
    (hanswer : ∀ e ∈ behaviors, r.attachmentAnswer t' .behavior resource e.1 e.2 ∅ =
      r.attachmentAnswer t .behavior resource e.1 e.2 ∅) :
    AutoAttached r t resource implements (behavior :: behaviors) attached attached' := by
  refine ⟨fun name options hget => h'.kept name options (h.kept name options hget),
    fun name entry hmem hfree himplements => ?_, fun name hfree hnone => ?_⟩
  · rcases List.mem_cons.1 hmem with rfl | hlater
    · obtain ⟨options, hok, hget⟩ :=
        h.implied name entry List.mem_cons_self hfree himplements
      exact ⟨options, hok, h'.kept name options hget⟩
    · have hsame : between.get? name = attached.get? name := by
        refine h.untouched (fun other hother => ?_)
        obtain rfl := List.mem_singleton.1 hother
        exact hne _ hlater rfl
      obtain ⟨options, hok, hget⟩ := h'.implied name entry hlater
        (by rw [SortedMap.contains, hsame]; exact hfree) himplements
      exact ⟨options, (hanswer _ hlater).symm.trans hok, hget⟩
  · have hbetween : between.get? name = none :=
      h.others name hfree (fun entry hmem =>
        hnone entry (List.mem_singleton.1 hmem ▸ List.mem_cons_self))
    exact h'.others name (by simp [SortedMap.contains, hbetween])
      (fun entry hmem => hnone entry (List.mem_cons_of_mem _ hmem))

end AutoAttached

theorem autoAttached_of_step {entity : String} {capabilities : NameSet}
    {behavior : String × Options} {attached attached' : Attachments}
    (h : (autoAttach r resource entity capabilities attached behavior).Returns
      t attached' t') :
    AutoAttached r t resource (Implemented capabilities) [behavior] attached attached' := by
  obtain ⟨hskip, rfl, -⟩ | ⟨hfree, himplemented, options, rfl, hresolve⟩ :=
    autoAttach_returns h
  · refine ⟨fun _ _ hget => hget, fun name entry hmem hfree himplemented => ?_,
      fun name hfree _ => by simpa [SortedMap.contains] using hfree⟩
    cases List.mem_singleton.1 hmem
    rcases hskip with hcontains | hnot
    · rw [hfree] at hcontains
      cases hcontains
    · exact absurd himplemented hnot
  · refine ⟨fun name bag hget => ?_, fun name entry hmem _ _ => ?_,
      fun name hfree' hnone => ?_⟩
    · have hname : behavior.1 ≠ name := by
        rintro rfl
        rw [SortedMap.contains_of_get? hget] at hfree
        cases hfree
      rw [SortedMap.get?_insert, if_neg hname, hget]
    · cases List.mem_singleton.1 hmem
      exact ⟨options, (Resolver.returns_resolveAttachment.1 hresolve).1,
        SortedMap.get?_insert_self _ _ _⟩
    · have hname : behavior.1 ≠ name := by
        rintro rfl
        exact hnone behavior.2 List.mem_cons_self himplemented
      rw [SortedMap.get?_insert, if_neg hname]
      simpa [SortedMap.contains] using hfree'

/-- Going over stored behaviors attaches those implemented that are not there. -/
theorem autoAttached_of_returns (entries : AttachmentKind → SortedMap Options)
    {entity : String} {capabilities : NameSet} {behaviors : List (String × Options)}
    {attached attached' : Attachments}
    (hentries : ∀ e ∈ behaviors, (entries .behavior).get? e.1 = some e.2)
    (hsorted : Entries.Sorted behaviors)
    (h : Resolution.Returns
      (behaviors.foldlM (autoAttach r resource entity capabilities) attached)
      t attached' t') :
    AutoAttached r t resource (Implemented capabilities) behaviors attached attached' := by
  induction behaviors generalizing attached t with
  | nil =>
      obtain ⟨rfl, -⟩ := Resolution.returns_foldlM_nil.1 h
      exact ⟨fun _ _ h => h, fun _ _ h => by simp at h,
        fun name h _ => by simpa [SortedMap.contains] using h⟩
  | cons e rest ih =>
      obtain ⟨between, t₁, hfirst, hrest⟩ := Resolution.returns_foldlM_cons.1 h
      obtain ⟨hless, hsorted'⟩ := List.pairwise_cons.1 hsorted
      have hstored : ∀ e' ∈ rest, (entries .behavior).get? e'.1 = some e'.2 :=
        fun e' he' => hentries e' (List.mem_cons_of_mem _ he')
      have hkept : r.KeptFor entries t t₁ :=
        autoAttach_kept (hentries e List.mem_cons_self) hfirst
      exact (autoAttached_of_step hfirst).cons (ih hstored hsorted' hrest)
        (fun e' he' heq => String.ne_of_lt (hless e' he') heq.symm)
        (fun e' he' => hkept.attachmentAnswer_eq (hstored e' he') resource ∅)

/-- Attaching a behavior fails only if it is implemented, not there, and refused. -/
theorem autoAttach_fails {entity : String} {capabilities : NameSet}
    {attached : Attachments} {behavior : String × Options}
    (h : (autoAttach r resource entity capabilities attached behavior).Fails t f t') :
    attached.contains behavior.1 = false ∧ Implemented capabilities behavior.2 ∧
      ∃ refused interface reason,
        r.attachmentAnswer t .behavior resource behavior.1 behavior.2 ∅ = .error refused ∧
        f = .autoAttach resource entity interface behavior.1 reason := by
  unfold autoAttach at h
  cases hinterface : behavior.2.str? "interface" with
  | none =>
      rw [hinterface] at h
      exact (Resolution.fails_pure.1 h).elim
  | some interface =>
      simp only [hinterface] at h
      split at h
      · exact (Resolution.fails_pure.1 h).elim
      · next hattach =>
          simp only [Bool.or_eq_true, Bool.not_eq_true', not_or, Bool.not_eq_true,
            Bool.not_eq_false] at hattach
          rcases Resolution.fails_bind.1 h with h | ⟨_, _, -, h⟩
          · obtain ⟨refused, hrefused, rfl⟩ := Resolution.fails_adapt.1 h
            exact ⟨hattach.1, ⟨interface, hinterface, hattach.2⟩, refused, interface, _,
              (Resolver.fails_resolveAttachment.1 hrefused).1, rfl⟩
          · exact (Resolution.fails_pure.1 h).elim

section Pass

variable {names : List String} {d₀ : Draft} {t₀ : SchemaTables}

/-- The third pass attaches to every resource what has to be attached.  What a resource
implements, and what the resolver answers, is as it was in the beginning. -/
theorem autoAttachPass_returns
    (hstart : Advance r [.behavior] names ["behaviors"] d₀ t₀ d t)
    (hnames : ∀ name ∈ names, d.sets.resources.configs.contains name = true)
    (hnodup : names.Nodup) (hknown : KnownBehaviors names d)
    (h : Resolution.Returns (names.foldlM (autoAttachBehaviors r) d) t d' t')
    (hresource : resource ∈ names) :
    AutoAttached r t₀ resource (AttachesItself r.catalog d₀ resource)
      (d.attachable .behavior).configs.entries (d.behaviorsOf resource)
      (d'.behaviorsOf resource) := by
  obtain ⟨d₁, t₁, d₂, t₂, -, hadvance, -, hbefore, hret, -, hafter⟩ :=
    Advance.pass_at (autoAttachBehaviors_steps r _) hnames hknown hnodup h hresource
  obtain ⟨attached, hfold, rfl⟩ := autoAttachBehaviors_returns hret
  have hsame : d₁.attachable .behavior = d.attachable .behavior :=
    hadvance.changes.attachable_eq .behavior List.not_mem_nil
  have htotal : Advance r [.behavior] names ["behaviors"] d₀ t₀ d₁ t₁ :=
    hstart.trans_nil hadvance
  have himplements : Implemented (d₁.capabilities r.catalog resource (d₁.resource resource)) =
      AttachesItself r.catalog d₀ resource := by
    funext entry
    rw [implemented_iff, htotal.changes.attachesItself_iff (by decide) (by decide)]
  have hattached := autoAttached_of_returns (fun kind => (d₁.attachable kind).configs)
    (fun e he => (SortedMap.mem_entries_iff _ _ _).1 he)
    (d₁.attachable .behavior).configs.sorted hfold
  rw [himplements, hbefore, hsame] at hattached
  have hresult : d'.behaviorsOf resource = attached := by
    rw [behaviorsOf, hafter, resource_putResource, if_pos rfl,
      attachmentsOf_withAttachments]
  rw [hresult]
  refine ⟨hattached.kept, fun name entry hmem hfree himplemented => ?_, hattached.others⟩
  obtain ⟨options, hanswer, hget⟩ := hattached.implied name entry hmem hfree himplemented
  have hentry : (d₁.attachable .behavior).configs.get? name = some entry := by
    rw [← hsame] at hmem
    exact (SortedMap.mem_entries_iff _ _ _).1 hmem
  exact ⟨options, (htotal.kept.attachmentAnswer_eq hentry resource ∅).symm.trans hanswer,
    hget⟩

/-- The third pass fails only where a behavior that has to be attached is refused. -/
theorem autoAttachPass_fails
    (hstart : Advance r [.behavior] names ["behaviors"] d₀ t₀ d t)
    (hnames : ∀ name ∈ names, d.sets.resources.configs.contains name = true)
    (hnodup : names.Nodup) (hknown : KnownBehaviors names d)
    (h : Resolution.Fails (names.foldlM (autoAttachBehaviors r) d) t f t') :
    ∃ resource ∈ names, ∃ name entry refused entity interface reason,
      (d.behaviorsOf resource).contains name = false ∧
      (d.attachable .behavior).configs.get? name = some entry ∧
      AttachesItself r.catalog d₀ resource entry ∧
      r.attachmentAnswer t₀ .behavior resource name entry ∅ = .error refused ∧
      f = .autoAttach resource entity interface name reason := by
  obtain ⟨resource, d₁, t₁, hvisit, hfails⟩ := Resolution.fails_foldlM_iff.1 h
  obtain ⟨hadvance, -, hbefore⟩ :=
    Advance.visit (autoAttachBehaviors_steps r _) hnames hknown hnodup hvisit
  have hsame : d₁.attachable .behavior = d.attachable .behavior :=
    hadvance.changes.attachable_eq .behavior List.not_mem_nil
  have htotal : Advance r [.behavior] names ["behaviors"] d₀ t₀ d₁ t₁ :=
    hstart.trans_nil hadvance
  unfold Draft.autoAttachBehaviors at hfails
  obtain hfold | ⟨_, _, -, hlast⟩ := Resolution.fails_bind.1 hfails
  · obtain ⟨⟨name, entry⟩, attached, t₂, hinner, hstep⟩ := Resolution.fails_foldlM_iff.1 hfold
    have hentries : ∀ e ∈ (d₁.attachable .behavior).configs.entries,
        (d₁.attachable .behavior).configs.get? e.1 = some e.2 :=
      fun e he => (SortedMap.mem_entries_iff _ _ _).1 he
    -- what is attached stays attached, and the tables keep schemas of stored entries
    obtain ⟨hkept, hgrown⟩ := hinner.induction
      (P := fun attached t₂ =>
        r.KeptFor (fun kind => (d₁.attachable kind).configs) t₁ t₂ ∧
        ∀ name, (attachmentsOf (d₁.resource resource) .behavior).contains name = true →
          attached.contains name = true)
      (fun e he a t₃ a' t₄ ha hstep => by
        refine ⟨ha.1.trans (autoAttach_kept (hentries e he) hstep), fun name hname => ?_⟩
        obtain ⟨-, rfl, -⟩ | ⟨-, -, options, rfl, -⟩ := autoAttach_returns hstep
        · exact ha.2 name hname
        · rw [SortedMap.contains_insert, ha.2 name hname, Bool.or_true])
      ⟨Resolver.KeptFor.refl _ _ _, fun _ h => h⟩
    obtain ⟨hfree, himplemented, refused, interface, reason, hanswer, hf⟩ :=
      autoAttach_fails hstep
    have hentry := hentries _ hinner.mem
    refine ⟨resource, hvisit.mem, name, entry, refused, _, interface, reason, ?_,
      hsame ▸ hentry, ?_, ?_, hf⟩
    · rw [behaviorsOf, ← hbefore]
      exact Bool.eq_false_iff.2 (fun hlisted => by
        rw [hgrown name hlisted] at hfree
        cases hfree)
    · exact (htotal.changes.attachesItself_iff (by decide) (by decide) _ _ _).1
        ((implemented_iff _ _ _ _).1 himplemented)
    · rw [← htotal.kept.attachmentAnswer_eq hentry, ← hkept.attachmentAnswer_eq hentry]
      exact hanswer
  · exact (Resolution.fails_pure.1 hlast).elim

end Pass

/-- A behavior has to be attached to a resource that does not list it, and the resolver
refuses the empty options. -/
def CannotAttach (r : Resolver) (d : Draft) (t : SchemaTables)
    (behaviors : SortedMap Options) (resource name : String) : Prop :=
  ¬ Lists r d t resource name ∧ ∃ entry refused, behaviors.get? name = some entry ∧
    AttachesItself r.catalog d resource entry ∧
    r.attachmentAnswer t .behavior resource name entry ∅ = .error refused

theorem settleBehaviors_returns
    (h : (d.settleBehaviors r).Returns t d' t') (hresource : resource ∈ d.sets.resources.names) :
    ∃ d₁ t₁, (d.declareBehaviors r).Returns t d₁ t₁ ∧
      d'.attachable .behavior = d₁.attachable .behavior ∧
      AutoAttached r t resource (AttachesItself r.catalog d resource)
        (d₁.attachable .behavior).configs.entries (d₁.behaviorsOf resource)
        (d'.behaviorsOf resource) := by
  unfold settleBehaviors at h
  obtain ⟨d₁, t₁, hdeclare, hattach⟩ := Resolution.returns_bind.1 h
  obtain ⟨hadvance, hknown⟩ := Advance.declareBehaviors hdeclare
  obtain ⟨hadvance', -⟩ :=
    Advance.pass (autoAttachBehaviors_steps r _) hadvance.stored hknown hattach
  exact ⟨d₁, t₁, hdeclare, hadvance'.changes.attachable_eq .behavior List.not_mem_nil,
    autoAttachPass_returns hadvance hadvance.stored (nodup_names d) hknown hattach hresource⟩

theorem settleBehaviors_fails {d₁ : Draft} {t₁ : SchemaTables}
    (hdeclare : (d.declareBehaviors r).Returns t d₁ t₁)
    (h : (d.settleBehaviors r).Fails t f t') :
    ∃ resource ∈ d.sets.resources.names, ∃ entity interface name reason,
      CannotAttach r d t (d₁.attachable .behavior).configs resource name ∧
      f = .autoAttach resource entity interface name reason := by
  unfold settleBehaviors at h
  rcases Resolution.fails_bind.1 h with hfails | ⟨d₂, t₂, hdeclare', hattach⟩
  · exact (hdeclare.not_fails hfails).elim
  · obtain ⟨rfl, rfl⟩ := hdeclare.unique hdeclare'
    obtain ⟨hadvance, hknown⟩ := Advance.declareBehaviors hdeclare
    obtain ⟨resource, hresource, name, entry, refused, entity, interface, reason, hfree,
        hentry, hitself, hanswer, rfl⟩ :=
      autoAttachPass_fails hadvance hadvance.stored (nodup_names d) hknown hattach
    obtain ⟨-, -, hlists, -⟩ := declareBehaviors_returns hdeclare hresource
    refine ⟨resource, hresource, entity, interface, name, reason, ⟨fun hlisted => ?_,
      entry, refused, hentry, hitself, hanswer⟩, rfl⟩
    rw [(hlists name).2 hlisted] at hfree
    cases hfree

/-- The second phase fails if some behavior cannot be attached. -/
theorem finalize_fails_of_cannotAttach {d₁ : Draft} {t₁ : SchemaTables} {name : String}
    (hdeclare : (d.declareBehaviors r).Returns t d₁ t₁)
    (hresource : resource ∈ d.sets.resources.names)
    (hcannot : CannotAttach r d t (d₁.attachable .behavior).configs resource name) :
    ∃ resource ∈ d.sets.resources.names, ∃ entity interface name reason t',
      CannotAttach r d t (d₁.attachable .behavior).configs resource name ∧
      (d.finalize r time).Fails t (.autoAttach resource entity interface name reason) t' := by
  rcases Resolution.returns_or_fails (d.settleBehaviors r) t with
    ⟨d₂, t₂, hsettle⟩ | ⟨f, t', hfails⟩
  · exfalso
    obtain ⟨hfree, entry, refused, hentry, hitself, hanswer⟩ := hcannot
    obtain ⟨d₃, t₃, hdeclare', -, hattached⟩ := settleBehaviors_returns hsettle hresource
    obtain ⟨rfl, rfl⟩ := hdeclare.unique hdeclare'
    obtain ⟨-, -, hlists, -⟩ := declareBehaviors_returns hdeclare hresource
    obtain ⟨options, hok, -⟩ := hattached.implied name entry
      ((SortedMap.mem_entries_iff _ _ _).2 hentry)
      (Bool.eq_false_iff.2 (fun hlisted => hfree ((hlists name).1 hlisted))) hitself
    rw [hanswer] at hok
    cases hok
  · obtain ⟨resource, hresource, entity, interface, name, reason, hcannot, rfl⟩ :=
      settleBehaviors_fails hdeclare hfails
    refine ⟨resource, hresource, entity, interface, name, reason, t', hcannot,
      finalize_fails.2 ?_⟩
    rw [finalizeResources_eq, settleAttachments]
    exact Resolution.fails_bind.2 (Or.inl (Resolution.fails_bind.2 (Or.inl hfails)))

/-- While behaviors are settled a failed auto-attachment is about a behavior that cannot
be attached. -/
theorem cannotAttach_of_settleBehaviors_fails {entity interface name reason : String}
    (h : (d.settleBehaviors r).Fails t (.autoAttach resource entity interface name reason)
      t') :
    ∃ d₁ t₁, (d.declareBehaviors r).Returns t d₁ t₁ ∧
      CannotAttach r d t (d₁.attachable .behavior).configs resource name := by
  rcases Resolution.returns_or_fails (d.declareBehaviors r) t with
    ⟨d₁, t₁, hdeclare⟩ | ⟨f, t₁, hdeclare⟩
  · obtain ⟨resource', -, entity', interface', name', reason', hcannot, hf⟩ :=
      settleBehaviors_fails hdeclare h
    cases hf
    exact ⟨d₁, t₁, hdeclare, hcannot⟩
  · have hsame : (d.settleBehaviors r).Fails t f t₁ := by
      unfold settleBehaviors
      exact Resolution.fails_bind.2 (Or.inl hdeclare)
    cases h.symm.trans hsame
    exact absurd rfl (onlyFails_declareBehaviors r d _ _ _ hdeclare)

/-- Later a failed auto-attachment can only be raised by a registered type. -/
theorem cannotAttach_of_finalize_fails {entity interface name reason : String}
    (h : (d.finalize r time).Fails t (.autoAttach resource entity interface name reason) t') :
    (∃ d₁ t₁, (d.declareBehaviors r).Returns t d₁ t₁ ∧
      CannotAttach r d t (d₁.attachable .behavior).configs resource name) ∨
    (∃ d₂ t₂, (d.settleBehaviors r).Returns t d₂ t₂) ∧
      r.catalog.Raises (.autoAttach resource entity interface name reason) := by
  have hresources := finalize_fails.1 h
  rw [finalizeResources_eq] at hresources
  rcases Resolution.fails_bind.1 hresources with hattachments | ⟨d₃, t₃, -, hlift⟩
  · unfold settleAttachments at hattachments
    rcases Resolution.fails_bind.1 hattachments with hbehaviors | ⟨d₂, t₂, hsettle, hactions⟩
    · exact Or.inl (cannotAttach_of_settleBehaviors_fails hbehaviors)
    · have honly := Resolution.OnlyFails.foldlM
        (fun name _ d => onlyFails_finalizeActions r d name) _ _ _ hactions
      exact Or.inr ⟨⟨d₂, t₂, hsettle⟩, honly.resolve_left (fun hne => hne rfl)⟩
  · exact absurd rfl (onlyFails_liftPermissions _ _ _ _ _ hlift)

/-- What a resource attaches in the end, where `rename` says what its keys were rewritten
to. -/
structure BehaviorsSettled (r : Resolver) (d : Draft) (t : SchemaTables)
    (behaviors : SortedMap Options) (resource : String) (rename : String → String)
    (attached : Attachments) : Prop where
  rewritten : ∀ key, (d.behaviorsOf resource).contains key = true →
    RewrittenTo r d t resource key (rename key)
  names : ∀ name, attached.contains name = true ↔ Lists r d t resource name ∨
    ∃ entry, behaviors.get? name = some entry ∧ AttachesItself r.catalog d resource entry
  listed : ∀ name, Lists r d t resource name → ∃ merged entry options,
    mergeAll (bagsUnder rename name (d.behaviorsOf resource).entries) = some merged ∧
    behaviors.get? name = some entry ∧
    r.attachmentAnswer t .behavior resource name entry merged = .ok options ∧
    attached.get? name = some options
  others : ∀ name options, ¬ Lists r d t resource name → attached.get? name = some options →
    ∃ entry, behaviors.get? name = some entry ∧
      r.attachmentAnswer t .behavior resource name entry ∅ = .ok options

theorem behaviors_of_finalize {compiled : Compiled} {config : Options}
    (h : (d.finalize r time).Returns t (compiled, d') t')
    (hconfig : compiled.sets.resources.configs.get? resource = some config) :
    ∃ rename attached, config.get? "behaviors" = some (.object (attached.map Value.object)) ∧
      BehaviorsSettled r d t compiled.sets.behaviors.configs resource rename attached := by
  obtain ⟨hsets, d₂, t₂, hsettle, hlater⟩ := finalize_settleBehaviors h
  obtain ⟨hadvance, hknown⟩ := Advance.settleBehaviors hsettle
  rw [hsets] at hconfig ⊢
  have hname : resource ∈ d.sets.resources.names := by
    rw [← hadvance.changes.names_eq]
    exact (hlater.origin hconfig).1
  obtain ⟨d₁, t₁, hdeclare, hsame, hattached⟩ := settleBehaviors_returns hsettle hname
  obtain ⟨rename, hrename, hlists, hmerged⟩ := declareBehaviors_returns hdeclare hname
  obtain ⟨attached, hget, -⟩ := (hknown resource hname).changes hlater (Or.inr (by decide))
  -- behaviors are settled before the actions, and so is the set they come from
  have hbehaviors : d₂.behaviorsOf resource = attached := by
    rw [behaviorsOf, ← attachmentsOf_of_get? hget]
    exact (attachmentsOf_congr (hlater.option_eq resource "behaviors"
      (Or.inr (by decide)))).symm
  have hset : d'.sets.behaviors = d₁.attachable .behavior :=
    (hlater.attachable_eq .behavior (by decide)).trans hsame
  rw [hbehaviors] at hattached
  rw [resource_of_get? hconfig] at hget
  have hmem : ∀ name entry, (name, entry) ∈ (d₁.attachable .behavior).configs.entries ↔
      d'.sets.behaviors.configs.get? name = some entry := by
    intro name entry
    rw [hset]
    exact SortedMap.mem_entries_iff _ _ _
  refine ⟨rename, attached, hget, hrename, fun name => ?_, fun name hlisted => ?_,
    fun name options hnot hoptions => ?_⟩
  · simp only [hattached.contains_iff, hlists, hmem]
  · obtain ⟨merged, entry, options, hbags, hentry, hanswer, hoptions⟩ :=
      hmerged name hlisted
    exact ⟨merged, entry, options, hbags, hset ▸ hentry, hanswer,
      hattached.kept name options hoptions⟩
  · have hfree : (d₁.behaviorsOf resource).contains name = false :=
      Bool.eq_false_iff.2 (fun hlisted => hnot ((hlists name).1 hlisted))
    obtain ⟨entry, hentry, -, hanswer⟩ := hattached.added hfree hoptions
    exact ⟨entry, (hmem name entry).1 hentry, hanswer⟩

/-- The behaviors of resources, end to end.  When the second phase returns, a resource
attaches the names that its keys were rewritten to and the behaviors that attach
themselves, and no others; the former with what the resolver answers for the merged
bags, the latter with what it answers for no options.  When a behavior that has to be
attached is refused, the second phase fails to auto-attach; it does not do so for a
behavior that the resource lists, unless all behaviors are settled and a registered type
raises the failure. -/
theorem behaviors_attached (r : Resolver) (time : Timestamp) (d : Draft)
    (t : SchemaTables) :
    (∀ compiled d' t', (d.finalize r time).Returns t (compiled, d') t' →
      compiled.sets.resources.names = d.sets.resources.names ∧
      ∀ resource config, compiled.sets.resources.configs.get? resource = some config →
        ∃ rename attached,
          config.get? "behaviors" = some (.object (attached.map Value.object)) ∧
          BehaviorsSettled r d t compiled.sets.behaviors.configs resource rename attached) ∧
    (∀ d₁ t₁, (d.declareBehaviors r).Returns t d₁ t₁ →
      (∃ resource ∈ d.sets.resources.names, ∃ name,
        CannotAttach r d t (d₁.attachable .behavior).configs resource name) →
      ∃ resource ∈ d.sets.resources.names, ∃ entity interface name reason t',
        CannotAttach r d t (d₁.attachable .behavior).configs resource name ∧
        (d.finalize r time).Fails t (.autoAttach resource entity interface name reason) t') ∧
    ∀ resource entity interface name reason t',
      (d.finalize r time).Fails t (.autoAttach resource entity interface name reason) t' →
      ¬ Lists r d t resource name ∨
        (∃ d₂ t₂, (d.settleBehaviors r).Returns t d₂ t₂) ∧
          r.catalog.Raises (.autoAttach resource entity interface name reason) := by
  refine ⟨fun compiled d' t' h => ⟨?_, fun resource config hconfig =>
    behaviors_of_finalize h hconfig⟩, ?_, ?_⟩
  · obtain ⟨hsets, d₁, t₁, hsettle, hlater⟩ := finalize_settleBehaviors h
    rw [hsets, hlater.names_eq, (Advance.settleBehaviors hsettle).1.changes.names_eq]
  · rintro d₁ t₁ hdeclare ⟨resource, hresource, name, hcannot⟩
    exact finalize_fails_of_cannotAttach hdeclare hresource hcannot
  · intro resource entity interface name reason t' h
    rcases cannotAttach_of_finalize_fails h with ⟨d₁, t₁, -, hnot, -⟩ | hraises
    · exact Or.inl hnot
    · exact Or.inr hraises

namespace Gallery

/-- Paintings are lit.  A lamp needs no options, a spotlight needs a level. -/
def resolver : Resolver :=
  Resolver.ofCatalog (((Catalog.empty.registerBehavior { name := "gallery::Lamp" }).registerBehavior
    { name := "gallery::Spotlight", contributions := [.require "level"] }).declare
      "Painting" ["Lit"])

/-- The draft in which the painting lists some behaviors, and a type lights it. -/
def draft (listed : Attachments) (type : String) : Draft where
  store := EntryStore.ofCatalog resolver.catalog
  fingerprint := ""
  sets := {
    permissions := EntrySet.empty
    actions := EntrySet.empty
    behaviors := ⟨SortedMap.ofList [("frame", ∅), ("light", SortedMap.ofList [
      ("class", .string type), ("interface", .string "Lit")])],
      SortedMap.singleton "border" "frame"⟩
    namespaces := EntrySet.empty
    resources := ⟨SortedMap.singleton "painting" (SortedMap.ofList [
      ("behaviors", .object (listed.map Value.object)), ("entity", .string "Painting")]), ∅⟩ }
  declaredInterfaces := ∅
  collisions := []

/-- A painting whose border is a frame. -/
def framed : Draft := draft (SortedMap.singleton "border" ∅) "gallery::Lamp"

/-- A painting that lists nothing and cannot be lit. -/
def bare : Draft := draft ∅ "gallery::Spotlight"

end Gallery

theorem behaviors_attached_gallery :
    (∃ compiled d' t' config name, ∃ attached : Attachments,
      (Gallery.framed.finalize Gallery.resolver ⟨0, 0, 0⟩).Returns .empty (compiled, d') t' ∧
      compiled.sets.resources.configs.get? "painting" = some config ∧
      config.get? "behaviors" = some (.object (attached.map Value.object)) ∧
      RewrittenTo Gallery.resolver Gallery.framed .empty "painting" "border" name ∧
      attached.contains name = true ∧ attached.contains "light" = true) ∧
    ∃ resource entity interface name reason t',
      (Gallery.bare.finalize Gallery.resolver ⟨0, 0, 0⟩).Fails .empty
        (.autoAttach resource entity interface name reason) t' ∧
      (¬ Lists Gallery.resolver Gallery.bare .empty resource name ∨
        (∃ d₂ t₂, (Gallery.bare.settleBehaviors Gallery.resolver).Returns .empty d₂ t₂) ∧
          Gallery.resolver.catalog.Raises
            (.autoAttach resource entity interface name reason)) := by
  constructor
  · obtain ⟨⟨compiled, d'⟩, t', h, htest⟩ := Resolution.returns_of_any
      (x := Gallery.framed.finalize Gallery.resolver ⟨0, 0, 0⟩) (t := .empty)
      (p := fun result => result.1.sets.resources.configs.contains "painting" &&
        (result.1.sets.behaviors.configs.get? "light").any
          (fun entry => entry.str? "interface" == some "Lit"))
      (by decide +kernel)
    obtain ⟨hstored, hlight⟩ := Bool.and_eq_true_iff.1 htest
    obtain ⟨config, hconfig⟩ := SortedMap.exists_of_contains hstored
    obtain ⟨entry, hentry, hinterface⟩ := (Option.any_eq_true _ _).1 hlight
    obtain ⟨-, hall⟩ := (behaviors_attached Gallery.resolver ⟨0, 0, 0⟩ Gallery.framed
      .empty).1 compiled d' t' h
    obtain ⟨rename, attached, hget, hsettled⟩ := hall "painting" config hconfig
    have hborder := hsettled.rewritten "border" (by decide +kernel)
    have hlit : AttachesItself Gallery.resolver.catalog Gallery.framed "painting" entry :=
      ⟨"Lit", by simpa using hinterface, Or.inl ⟨"Painting", by decide +kernel,
        by decide +kernel⟩⟩
    exact ⟨compiled, d', t', config, rename "border", attached, h, hconfig, hget, hborder,
      (hsettled.names _).2 (Or.inl ⟨"border", by decide +kernel, hborder⟩),
      (hsettled.names "light").2 (Or.inr ⟨entry, hentry, hlit⟩)⟩
  · obtain ⟨d₁, t₁, hdeclare, htest⟩ := Resolution.returns_of_any
      (x := Gallery.bare.declareBehaviors Gallery.resolver) (t := .empty)
      (p := fun d₁ => ((d₁.attachable .behavior).configs.get? "light").any
        (fun entry => entry.str? "interface" == some "Lit" &&
          (Gallery.resolver.attachmentAnswer .empty .behavior "painting" "light" entry
            ∅).toOption.isNone))
      (by decide +kernel)
    obtain ⟨entry, hentry, hlight⟩ := (Option.any_eq_true _ _).1 htest
    obtain ⟨hinterface, hrefused⟩ := Bool.and_eq_true_iff.1 hlight
    have hlit : AttachesItself Gallery.resolver.catalog Gallery.bare "painting" entry :=
      ⟨"Lit", by simpa using hinterface, Or.inl ⟨"Painting", by decide +kernel,
        by decide +kernel⟩⟩
    have hnothing : (Gallery.bare.behaviorsOf "painting").keys = [] := by decide +kernel
    have hfree : ¬ Lists Gallery.resolver Gallery.bare .empty "painting" "light" := by
      rintro ⟨key, hkey, -⟩
      rw [SortedMap.contains_eq_isSome, ← SortedMap.mem_keys_iff, hnothing] at hkey
      cases hkey
    have hcannot : CannotAttach Gallery.resolver Gallery.bare .empty
        (d₁.attachable .behavior).configs "painting" "light" := by
      cases hanswer : Gallery.resolver.attachmentAnswer .empty .behavior "painting" "light"
          entry ∅ with
      | ok options =>
          rw [hanswer] at hrefused
          cases hrefused
      | error refused => exact ⟨hfree, entry, refused, hentry, hlit, hanswer⟩
    obtain ⟨-, hfails, hlisted⟩ :=
      behaviors_attached Gallery.resolver ⟨0, 0, 0⟩ Gallery.bare .empty
    obtain ⟨resource, -, entity, interface, name, reason, t', -, h⟩ :=
      hfails d₁ t₁ hdeclare ⟨"painting", by decide +kernel, "light", hcannot⟩
    exact ⟨resource, entity, interface, name, reason, t', h,
      hlisted resource entity interface name reason t' h⟩

end Draft
end ConfigCompiler
