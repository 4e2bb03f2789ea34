import ConfigCompiler.Proofs.SecondPhase

/-!
# The behaviors that a resource lists

The first two passes put the behaviors of every resource under stored names, merge the
bags that come to stand under one name, and resolve the merged bags.

**Relation.**  `RewrittenTo r d t resource key name`: the first pass over the draft `d`
put the key of a resource under the name.  It is a function of the key.

**Results.**
* `takeAttachments_get?`: what collecting attachments leaves under a name is the merge,
  in order, of the bags whose keys lead to it.
* `declareBehaviors_returns`: after the two passes a resource attaches exactly the names
  that its keys were rewritten to, each with the answer for the merged bags.
-/

namespace ConfigCompiler

/-- One more bag, merged into those before it. -/
def mergeBag (merged : Option Options) (bag : Options) : Option Options :=
  some (match merged with
    | some existing => Options.merge existing bag
    | none => bag)

/-- All bags of a list, merged in order; none if there is no bag. -/
def mergeAll (bags : List Options) : Option Options := bags.foldl mergeBag none

/-- The bags whose keys are rewritten to a name, in order. -/
def bagsUnder (rename : String → String) (name : String)
    (attachments : List (String × Options)) : List Options :=
  (attachments.filter (fun e => rename e.1 = name)).map Prod.snd

theorem mergeAll_eq_none_iff {bags : List Options} : mergeAll bags = none ↔ bags = [] := by
  have h : ∀ (bags : List Options) (bag : Options),
      ∃ merged, bags.foldl mergeBag (some bag) = some merged := by
    intro bags
    induction bags with
    | nil => exact fun bag => ⟨bag, rfl⟩
    | cons next rest ih => exact fun bag => ih (Options.merge bag next)
  cases bags with
  | nil => simp [mergeAll]
  | cons bag rest =>
      obtain ⟨merged, hmerged⟩ := h rest bag
      simp [mergeAll, mergeBag, hmerged]

theorem bagsUnder_eq_nil_iff {rename : String → String} {name : String}
    {attachments : Attachments} :
    bagsUnder rename name attachments.entries = [] ↔
      ∀ key, attachments.contains key = true → rename key ≠ name := by
  simp only [bagsUnder, List.map_eq_nil_iff, List.filter_eq_nil_iff, decide_eq_true_eq]
  constructor
  · intro h key hkey
    obtain ⟨bag, hbag⟩ := SortedMap.exists_of_contains hkey
    exact h (key, bag) ((SortedMap.mem_entries_iff _ _ _).2 hbag)
  · intro h e he
    have hget := (SortedMap.mem_entries_iff _ _ _).1 he
    exact h e.1 (SortedMap.contains_of_get? hget)

/-- Where the bags of keys are merged under the names they are rewritten to, those names are
stored. -/
theorem contains_iff_of_mergeAll {rename : String → String} {listed merged : Attachments}
    (h : ∀ name, merged.get? name = mergeAll (bagsUnder rename name listed.entries))
    (name : String) :
    merged.contains name = true ↔ ∃ key, listed.contains key = true ∧ rename key = name := by
  rw [SortedMap.contains_eq_isSome, h, Option.isSome_iff_ne_none, Ne, mergeAll_eq_none_iff,
    bagsUnder_eq_nil_iff]
  simp

namespace Draft

variable {r : Resolver} {d d' : Draft} {t t' : SchemaTables}
variable {kind : AttachmentKind} {resource key name : String}

/-- Collecting attachments leaves under a name what stood there, with the bags merged into
it whose keys lead to the name. -/
theorem takeAttachments_get? (rename : String → String) {items : List (String × Options)}
    {state state' : Attachments × Draft}
    (hrename : ∀ e s t₁ name d₂ t₂,
      Resolution.Visits (takeAttachment r kind resource) state t items e s t₁ →
      (s.2.canonicalName r kind resource e.1).Returns t₁ (name, d₂) t₂ → rename e.1 = name)
    (h : Resolution.Returns (items.foldlM (takeAttachment r kind resource) state) t state' t')
    (name : String) :
    state'.1.get? name = (bagsUnder rename name items).foldl mergeBag (state.1.get? name) := by
  induction items generalizing state t with
  | nil =>
      obtain ⟨rfl, rfl⟩ := Resolution.returns_foldlM_nil.1 h
      rfl
  | cons e rest ih =>
      obtain ⟨s₁, t₁, hfirst, hrest⟩ := Resolution.returns_foldlM_cons.1 h
      obtain ⟨found, d₂, hfound, hs₁⟩ := takeAttachment_returns hfirst
      have hname : rename e.1 = found :=
        hrename e state t found d₂ t₁ (Resolution.Visits.head _ _ _ _ _) hfound
      rw [ih (fun e' s t₂ n d₃ t₃ hvisit => hrename e' s t₂ n d₃ t₃ (hvisit.tail hfirst)) hrest]
      by_cases heq : found = name
      · subst heq
        simp only [bagsUnder, hname, hs₁, decide_true, List.filter_cons_of_pos,
          List.map_cons, List.foldl_cons, SortedMap.get?_insert_self]
        rfl
      · simp [bagsUnder, hname, heq, hs₁, SortedMap.get?_insert]

/-- The behaviors that a resource holds. -/
def behaviorsOf (d : Draft) (resource : String) : Attachments :=
  attachmentsOf (d.resource resource) .behavior

/-- The first pass puts the key of a listed behavior under the name. -/
def RewrittenTo (r : Resolver) (d : Draft) (t : SchemaTables)
    (resource key name : String) : Prop :=
  ∃ d₁ t₁ d₂ t₂ d₃ t₃,
    Resolution.Visits (normalizeAttachments r .behavior) d t
      d.sets.resources.names resource d₁ t₁ ∧
    KeyMet r .behavior d₁ t₁ resource key d₂ t₂ ∧
    (d₂.canonicalName r .behavior resource key).Returns t₂ (name, d₃) t₃

/-- The resource lists a behavior whose key is rewritten to the name. -/
def Lists (r : Resolver) (d : Draft) (t : SchemaTables) (resource name : String) : Prop :=
  ∃ key, (d.behaviorsOf resource).contains key = true ∧ RewrittenTo r d t resource key name

/-- A key is met once among the attachments of a resource. -/
theorem KeyMet.unique {d₁ d₂ : Draft} {t₁ t₂ : SchemaTables}
    (h₁ : KeyMet r kind d t resource key d₁ t₁) (h₂ : KeyMet r kind d t resource key d₂ t₂) :
    d₁ = d₂ ∧ t₁ = t₂ := by
  obtain ⟨bag₁, attached₁, hvisit₁⟩ := h₁
  obtain ⟨bag₂, attached₂, hvisit₂⟩ := h₂
  have hget₁ := (SortedMap.mem_entries_iff _ _ _).1 hvisit₁.mem
  have hget₂ := (SortedMap.mem_entries_iff _ _ _).1 hvisit₂.mem
  obtain rfl : bag₁ = bag₂ := Option.some.inj (hget₁.symm.trans hget₂)
  obtain ⟨hstate, rfl⟩ := hvisit₁.unique hvisit₂ (SortedMap.nodup_entries _)
  exact ⟨(Prod.mk.inj hstate).2, rfl⟩

/-- A key is rewritten to one name. -/
theorem RewrittenTo.unique {name' : String}
    (h : RewrittenTo r d t resource key name) (h' : RewrittenTo r d t resource key name') :
    name = name' := by
  obtain ⟨d₁, t₁, d₂, t₂, d₃, t₃, hvisit, hmet, hname⟩ := h
  obtain ⟨d₁', t₁', d₂', t₂', d₃', t₃', hvisit', hmet', hname'⟩ := h'
  obtain ⟨rfl, rfl⟩ := hvisit.unique hvisit' (nodup_names d)
  obtain ⟨rfl, rfl⟩ := hmet.unique hmet'
  exact (Prod.mk.inj (hname.unique hname').1).1

/-- If the attachments of a resource were put under stored names, each key has a name. -/
theorem KeyMet.of_returns
    (h : (d.normalizeAttachments r kind resource).Returns t d' t')
    (hkey : (attachmentsOf (d.resource resource) kind).contains key = true) :
    ∃ d₁ t₁ name d₂ t₂, KeyMet r kind d t resource key d₁ t₁ ∧
      (d₁.canonicalName r kind resource key).Returns t₁ (name, d₂) t₂ := by
  obtain ⟨state, hfold, -⟩ := normalizeAttachments_returns h
  obtain ⟨bag, hbag⟩ := SortedMap.exists_of_contains hkey
  obtain ⟨before, after, s₁, t₁, s₂, t₂, hitems, hbefore, hstep, -⟩ :=
    hfold.foldlM_split ((SortedMap.mem_entries_iff _ _ _).2 hbag)
  obtain ⟨name, d₂, hname, -⟩ := takeAttachment_returns hstep
  exact ⟨s₁.2, t₁, name, d₂, t₂, ⟨bag, s₁.1, before, after, hitems, hbefore⟩, hname⟩

/-- Putting the attachments of a resource under stored names merges the bags whose keys
lead to one name. -/
theorem normalizeAttachments_get?
    (h : (d.normalizeAttachments r kind resource).Returns t d' t') :
    ∃ rename : String → String,
      (∀ key, (attachmentsOf (d.resource resource) kind).contains key = true →
        ∃ d₁ t₁ d₂ t₂, KeyMet r kind d t resource key d₁ t₁ ∧
          (d₁.canonicalName r kind resource key).Returns t₁ (rename key, d₂) t₂) ∧
      ∀ name, (attachmentsOf (d'.resource resource) kind).get? name =
        mergeAll (bagsUnder rename name (attachmentsOf (d.resource resource) kind).entries) := by
  -- every key has a name, and the names are those of one function
  have hnamed : ∀ key, ∃ name,
      (attachmentsOf (d.resource resource) kind).contains key = true →
      ∃ d₁ t₁ d₂ t₂, KeyMet r kind d t resource key d₁ t₁ ∧
        (d₁.canonicalName r kind resource key).Returns t₁ (name, d₂) t₂ := by
    intro key
    by_cases hkey : (attachmentsOf (d.resource resource) kind).contains key = true
    · obtain ⟨d₁, t₁, name, d₂, t₂, hmet, hname⟩ := KeyMet.of_returns h hkey
      exact ⟨name, fun _ => ⟨d₁, t₁, d₂, t₂, hmet, hname⟩⟩
    · exact ⟨key, fun hlists => absurd hlists hkey⟩
  obtain ⟨rename, hrename⟩ := Classical.axiomOfChoice hnamed
  refine ⟨rename, hrename, fun name => ?_⟩
  obtain ⟨state, hfold, rfl⟩ := normalizeAttachments_returns h
  have hget := takeAttachments_get? rename (fun e s t₁ name d₂ t₂ hmet hname => ?_)
    hfold name
  · rw [resource_putResource, if_pos rfl, attachmentsOf_withAttachments, hget]
    rfl
  · have hkey : (attachmentsOf (d.resource resource) kind).contains e.1 = true :=
      SortedMap.contains_of_get? ((SortedMap.mem_entries_iff _ _ _).1 hmet.mem)
    obtain ⟨d₃, t₃, d₄, t₄, hmet', hname'⟩ := hrename e.1 hkey
    obtain ⟨rfl, rfl⟩ := KeyMet.unique ⟨e.2, s.1, hmet⟩ hmet'
    exact (Prod.mk.inj (hname'.unique hname).1).1

/-- After the first pass a resource attaches the merged bags under the names of its
keys. -/
theorem namesPass_returns
    (h : Resolution.Returns
      (d.sets.resources.names.foldlM (normalizeAttachments r .behavior) d) t d' t')
    (hresource : resource ∈ d.sets.resources.names) :
    ∃ rename : String → String,
      (∀ key, (d.behaviorsOf resource).contains key = true →
        RewrittenTo r d t resource key (rename key)) ∧
      ∀ name, (d'.behaviorsOf resource).get? name =
        mergeAll (bagsUnder rename name (d.behaviorsOf resource).entries) := by
  obtain ⟨d₁, t₁, d₂, t₂, hvisit, -, -, hbefore, hret, -, hafter⟩ :=
    Advance.pass_at (normalizeAttachments_steps r .behavior _)
      (fun _ hname => stored_of_mem_names hname) trivial (nodup_names d) h hresource
  obtain ⟨rename, hrename, hget⟩ := normalizeAttachments_get? hret
  rw [hbefore] at hrename hget
  refine ⟨rename, fun key hkey => ?_, fun name => ?_⟩
  · obtain ⟨d₃, t₃, d₄, t₄, hmet, hname⟩ := hrename key hkey
    exact ⟨d₁, t₁, d₃, t₃, d₄, t₄, hvisit, hmet, hname⟩
  · rw [behaviorsOf, hafter]
    exact hget name

/-- After the second pass every bag is what the resolver answers for it, at the time of
the second pass as much as in the beginning. -/
theorem resolvePass_returns {d₀ : Draft} {t₀ : SchemaTables} {names : List String}
    (hstart : Advance r [.behavior] names ["behaviors"] d₀ t₀ d t)
    (hnames : ∀ name ∈ names, d.sets.resources.configs.contains name = true)
    (hnodup : names.Nodup) (hknown : KnownBehaviors names d)
    (h : Resolution.Returns (names.foldlM (resolveAttachments r .behavior) d) t d' t')
    (hresource : resource ∈ names) :
    (d'.behaviorsOf resource).keys = (d.behaviorsOf resource).keys ∧
      ∀ name bag, (d.behaviorsOf resource).get? name = some bag →
        ∃ entry options, (d'.attachable .behavior).configs.get? name = some entry ∧
          r.attachmentAnswer t₀ .behavior resource name entry bag = .ok options ∧
          (d'.behaviorsOf resource).get? name = some options := by
  obtain ⟨d₁, t₁, d₂, t₂, -, hadvance, hknown₁, hbefore, hret, hrest, hafter⟩ :=
    Advance.pass_at (resolveBehaviors_steps r _) hnames hknown hnodup h hresource
  obtain ⟨attached, rfl, -, hkeys, hall⟩ :=
    resolveAttachments_returns (hknown₁ resource hresource).entriesSatisfy hret
  have hlisted : d'.behaviorsOf resource = attached := by
    rw [behaviorsOf, hafter, resource_putResource, if_pos rfl,
      attachmentsOf_withAttachments]
  have htotal : Advance r [.behavior] names ["behaviors"] d₀ t₀ d₁ t₁ :=
    hstart.trans_nil hadvance
  rw [hbefore] at hkeys hall
  refine ⟨by rw [hlisted, hkeys]; rfl, fun name bag hbag => ?_⟩
  obtain ⟨entry, options, hentry, hanswer, hget⟩ := hall name bag hbag
  refine ⟨entry, options, ?_, ?_, by rw [hlisted, hget]⟩
  · refine (hrest.changes.extends_attachable .behavior).configs name entry ?_
    rwa [attachable_putResource]
  · rw [← htotal.kept.attachmentAnswer_eq hentry]
    exact hanswer

/-- After the first two passes a resource attaches exactly the names that its keys were
rewritten to.  Under each stands what the resolver answers for the merged bags. -/
theorem declareBehaviors_returns
    (h : (d.declareBehaviors r).Returns t d' t')
    (hresource : resource ∈ d.sets.resources.names) :
    ∃ rename : String → String,
      (∀ key, (d.behaviorsOf resource).contains key = true →
        RewrittenTo r d t resource key (rename key)) ∧
      (∀ name, (d'.behaviorsOf resource).contains name = true ↔
        Lists r d t resource name) ∧
      ∀ name, Lists r d t resource name → ∃ merged entry options,
        mergeAll (bagsUnder rename name (d.behaviorsOf resource).entries) = some merged ∧
        (d'.attachable .behavior).configs.get? name = some entry ∧
        r.attachmentAnswer t .behavior resource name entry merged = .ok options ∧
        (d'.behaviorsOf resource).get? name = some options := by
  unfold declareBehaviors at h
  obtain ⟨d₁, t₁, h₁, h₂⟩ := Resolution.returns_bind.1 h
  obtain ⟨hadvance, hknown⟩ := Advance.namesPass h₁
  obtain ⟨rename, hrename, hmerged⟩ := namesPass_returns h₁ hresource
  obtain ⟨hkeys, hresolved⟩ :=
    resolvePass_returns hadvance hadvance.stored (nodup_names d) hknown h₂ hresource
  have hlists : ∀ name, (d₁.behaviorsOf resource).contains name = true ↔
      Lists r d t resource name := by
    intro name
    rw [contains_iff_of_mergeAll hmerged]
    constructor
    · rintro ⟨key, hlisted, rfl⟩
      exact ⟨key, hlisted, hrename key hlisted⟩
    · rintro ⟨key, hlisted, hto⟩
      exact ⟨key, hlisted, (hrename key hlisted).unique hto⟩
  refine ⟨rename, hrename, fun name => ?_, fun name hname => ?_⟩
  · rw [← hlists, SortedMap.contains_eq_of_keys_eq hkeys]
  · obtain ⟨merged, hget⟩ := SortedMap.exists_of_contains ((hlists name).2 hname)
    obtain ⟨entry, options, hentry, hanswer, hoptions⟩ := hresolved name merged hget
    exact ⟨merged, entry, options, (hmerged name).symm.trans hget, hentry, hanswer, hoptions⟩

end Draft
end ConfigCompiler
