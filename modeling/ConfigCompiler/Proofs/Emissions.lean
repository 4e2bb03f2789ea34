import ConfigCompiler.Proofs.DeclaredBehaviors

/-!
# What builders emit

The builders of a resource are run one after the other.  Each sees the plain actions and
what the builders before it emitted, and an emitted action is taken unless one stands
under its name.

**Relations.**  While a list of builders is expanded from a state on, `BuilderRuns` says
that one of them is run in a state, and what it emits; `EmitsUnder` that a key it emits
leads to a name, and to which entry.  `Emits` and `EmitsAs` are the same for the builders
that a resource attaches.

**Results.**
* `mem_builders_iff`, `get?_plain_iff`: which actions are builders, and which are plain.
* `contains_of_emitsUnder`: what is emitted is there in the end.
* `first_of_expandBuilder_fold`: what was not there from the beginning is the first bag
  emitted under its name.
* `expandBuilders_emits`: both, for the builders that a resource attaches.
-/

namespace ConfigCompiler
namespace Draft

variable {r : Resolver} {d d' : Draft} {t t' : SchemaTables} {p : Options → Prop}
variable {resource origin key name : String} {bag entry config : Options}
variable {state state' : Attachments × Draft}

/-- The builder that an attached action is, if it is one. -/
def builderAt? (catalog : Catalog) (d : Draft) (action : String × Options) :
    Option AttachedBuilder :=
  ((d.attachable .action).get? action.1).bind fun entry =>
    (builderOf? catalog entry).map fun build => ⟨action.1, entry, action.2, build⟩

theorem builderAt?_eq_some {catalog : Catalog} {action : String × Options}
    {b : AttachedBuilder} :
    builderAt? catalog d action = some b ↔
      action = (b.name, b.options) ∧ (d.attachable .action).get? b.name = some b.entry ∧
        builderOf? catalog b.entry = some b.build := by
  obtain ⟨key, bag⟩ := action
  simp only [builderAt?, Option.bind_eq_some_iff, Option.map_eq_some_iff]
  constructor
  · rintro ⟨entry, hentry, build, hbuild, rfl⟩
    exact ⟨rfl, hentry, hbuild⟩
  · rintro ⟨heq, hentry, hbuild⟩
    obtain ⟨rfl, rfl⟩ := Prod.mk.inj heq
    exact ⟨b.entry, hentry, b.build, hbuild, rfl⟩

theorem partAction_eq_ok {catalog : Catalog} {action : String × Options}
    {parts parts' : Attachments × List AttachedBuilder}
    (h : d.partAction catalog resource parts action = .ok parts') :
    parts' = match builderAt? catalog d action with
      | some b => (parts.1, parts.2 ++ [b])
      | none => (parts.1.insert action.1 action.2, parts.2) := by
  unfold partAction at h
  obtain ⟨entry, hentry, hrest⟩ := Resolution.check_bind.1 h
  have hget : (d.attachable .action).get? action.1 = some entry := by
    unfold attachedEntry at hentry
    split at hentry
    · next hget =>
        cases hentry
        exact hget
    · cases hentry
  unfold builderAt?
  rw [hget, Option.bind_some]
  split at hrest
  · next hbuild =>
      rw [hbuild]
      exact Resolution.check_pure.1 hrest
  · next hplain =>
      rw [hplain]
      exact Resolution.check_pure.1 hrest

/-- The builders are collected in order. -/
theorem builders_of_partAction_fold {catalog : Catalog} {items : List (String × Options)}
    {parts parts' : Attachments × List AttachedBuilder}
    (h : items.foldlM (d.partAction catalog resource) parts = .ok parts') :
    parts'.2 = parts.2 ++ items.filterMap (builderAt? catalog d) := by
  induction items generalizing parts with
  | nil =>
      cases Resolution.check_pure.1 h
      simp
  | cons action rest ih =>
      obtain ⟨between, hfirst, hrest⟩ := Resolution.check_bind.1 h
      rw [ih hrest, partAction_eq_ok hfirst]
      cases hbuilder : builderAt? catalog d action <;> simp [hbuilder]

/-- A plain action among those parted is kept with its bag. -/
theorem plain_of_partAction_fold {catalog : Catalog} {items : List (String × Options)}
    {parts parts' : Attachments × List AttachedBuilder}
    (h : items.foldlM (d.partAction catalog resource) parts = .ok parts')
    (hplain : builderAt? catalog d (name, bag) = none)
    (hone : ∀ action ∈ items, action.1 = name → action.2 = bag)
    (hthere : (name, bag) ∈ items ∨ parts.1.get? name = some bag) :
    parts'.1.get? name = some bag := by
  induction items generalizing parts with
  | nil =>
      cases Resolution.check_pure.1 h
      exact hthere.resolve_left List.not_mem_nil
  | cons action rest ih =>
      obtain ⟨between, hfirst, hrest⟩ := Resolution.check_bind.1 h
      refine ih hrest (fun action haction => hone action (List.mem_cons_of_mem _ haction)) ?_
      have hbetween := partAction_eq_ok hfirst
      by_cases hname : action.1 = name
      · -- the action itself, which is no builder
        have hsame : action = (name, bag) :=
          Prod.ext hname (hone action List.mem_cons_self hname)
        rw [hsame, hplain] at hbetween
        exact Or.inr (by rw [hbetween, SortedMap.get?_insert_self])
      · rcases hthere with hmem | hget
        · rcases List.mem_cons.1 hmem with rfl | hlater
          · exact absurd rfl hname
          · exact Or.inl hlater
        · refine Or.inr ?_
          rw [hbetween]
          split
          · exact hget
          · rw [SortedMap.get?_insert, if_neg hname, hget]

section Parted

variable {plain : Attachments} {builders : List AttachedBuilder}

/-- The builders of a resource are the actions whose entries name a builder. -/
theorem mem_builders_iff
    (h : d.partActions r.catalog resource config = .ok (plain, builders))
    {b : AttachedBuilder} :
    b ∈ builders ↔ (attachmentsOf config .action).get? b.name = some b.options ∧
      (d.attachable .action).get? b.name = some b.entry ∧
      builderOf? r.catalog b.entry = some b.build := by
  have hbuilders := builders_of_partAction_fold h
  rw [List.nil_append] at hbuilders
  rw [show builders = _ from hbuilders, List.mem_filterMap]
  constructor
  · rintro ⟨action, hmem, hb⟩
    obtain ⟨rfl, hentry, hbuild⟩ := builderAt?_eq_some.1 hb
    exact ⟨(SortedMap.mem_entries_iff _ _ _).1 hmem, hentry, hbuild⟩
  · rintro ⟨hget, hentry, hbuild⟩
    exact ⟨(b.name, b.options), (SortedMap.mem_entries_iff _ _ _).2 hget,
      builderAt?_eq_some.2 ⟨rfl, hentry, hbuild⟩⟩

/-- Builders are run in the order of their names. -/
theorem builders_sorted
    (h : d.partActions r.catalog resource config = .ok (plain, builders)) :
    builders.Pairwise (fun b c => b.name < c.name) := by
  have hbuilders := builders_of_partAction_fold h
  rw [List.nil_append] at hbuilders
  rw [show builders = _ from hbuilders]
  refine (attachmentsOf config .action).sorted.filterMap _ (fun e e' hless b hb c hc => ?_)
  obtain ⟨rfl, -⟩ := builderAt?_eq_some.1 hb
  obtain ⟨rfl, -⟩ := builderAt?_eq_some.1 hc
  exact hless

/-- The plain actions of a resource are those whose entries name no builder. -/
theorem get?_plain_iff
    (hknown : EntriesSatisfy p d .action (attachmentsOf config .action))
    (h : d.partActions r.catalog resource config = .ok (plain, builders)) :
    plain.get? name = some bag ↔ (attachmentsOf config .action).get? name = some bag ∧
      ∃ entry, (d.attachable .action).configs.get? name = some entry ∧
        IsPlain r.catalog entry := by
  constructor
  · intro hget
    refine ⟨?_, (partActions_eq_ok hknown h).1 name (SortedMap.contains_of_get? hget)⟩
    refine Resolution.check_foldlM_induction
      (P := fun parts : Attachments × List AttachedBuilder => ∀ name bag,
        parts.1.get? name = some bag → (attachmentsOf config .action).get? name = some bag)
      (fun action haction parts parts' hparts hstep name bag hname => ?_) h
      (fun _ _ hnone => by simp at hnone) name bag hget
    rw [partAction_eq_ok hstep] at hname
    split at hname
    · exact hparts name bag hname
    · rw [SortedMap.get?_insert] at hname
      split at hname
      · next heq =>
          cases hname
          exact heq ▸ (SortedMap.mem_entries_iff _ _ _).1 haction
      · exact hparts name bag hname
  · rintro ⟨hget, entry, hentry, hplain⟩
    refine plain_of_partAction_fold h ?_ (fun action haction hname => ?_)
      (Or.inl ((SortedMap.mem_entries_iff _ _ _).2 hget))
    · rw [builderAt?, EntrySet.get?_of_stored hentry, Option.bind_some, hplain,
        Option.map_none]
    · have haction' := (SortedMap.mem_entries_iff _ _ _).1 haction
      rw [hname, hget] at haction'
      exact (Option.some.inj haction').symm

end Parted

/-- What was collected stays, and entries and aliases are only added. -/
structure Grows (state state' : Attachments × Draft) : Prop where
  kept : ∀ name bag, state.1.get? name = some bag → state'.1.get? name = some bag
  stored : (state.2.attachable .action).Extends (state'.2.attachable .action)

theorem Grows.refl (state : Attachments × Draft) : Grows state state :=
  ⟨fun _ _ h => h, EntrySet.Extends.refl _⟩

theorem Grows.trans {state₁ state₂ state₃ : Attachments × Draft}
    (h : Grows state₁ state₂) (h' : Grows state₂ state₃) : Grows state₁ state₃ :=
  ⟨fun name bag hget => h'.kept name bag (h.kept name bag hget), h.stored.trans h'.stored⟩

theorem Grows.contains (h : Grows state state') (hname : state.1.contains name = true) :
    state'.1.contains name = true := by
  obtain ⟨bag, hbag⟩ := SortedMap.exists_of_contains hname
  exact SortedMap.contains_of_get? (h.kept name bag hbag)

theorem takeEmitted_grows {item : String × Options}
    (h : (takeEmitted r resource origin state item).Returns t state' t') :
    Grows state state' := by
  obtain ⟨found, d', hname, -, rfl⟩ := takeEmitted_returns h
  refine ⟨fun name bag hget => ?_,
    (Advance.canonicalName hname).1.changes.extends_attachable .action⟩
  show (if state.1.contains found then state.1 else _).get? name = some bag
  split
  · exact hget
  · next hfree =>
      have hne : found ≠ name := by
        rintro rfl
        exact hfree (SortedMap.contains_of_get? hget)
      rw [SortedMap.get?_insert, if_neg hne, hget]

theorem takeEmitted_fold_grows {items : List (String × Options)}
    (h : Resolution.Returns (items.foldlM (takeEmitted r resource origin) state) t state' t') :
    Grows state state' :=
  h.foldlM_induction (P := fun s _ => Grows state s)
    (fun _ _ _ _ _ _ hs hstep => hs.trans (takeEmitted_grows hstep)) (Grows.refl state)

theorem expandBuilder_fold_grows {builders : List AttachedBuilder}
    (h : Resolution.Returns (builders.foldlM (expandBuilder r resource config) state)
      t state' t') : Grows state state' := by
  refine h.foldlM_induction (P := fun s _ => Grows state s)
    (fun _ _ s _ _ _ hs hstep => ?_) (Grows.refl state)
  obtain ⟨options, emitted, t₁, -, -, hfold⟩ := expandBuilder_returns hstep
  exact hs.trans (takeEmitted_fold_grows hfold)

/-- While emitted bags are taken, a key leads to the name. -/
def TakenUnder (r : Resolver) (resource origin : String) (state : Attachments × Draft)
    (t : SchemaTables) (items : List (String × Options)) (key : String) (bag : Options)
    (name : String) (entry : Options) : Prop :=
  ∃ attached d₁ t₁ d₂ t₂,
    Resolution.Visits (takeEmitted r resource origin) state t items (key, bag)
      (attached, d₁) t₁ ∧
    (d₁.canonicalName r .action resource key).Returns t₁ (name, d₂) t₂ ∧
    (d₂.attachable .action).configs.get? name = some entry

/-- After its key was met there is something under the name, whose entry stays. -/
theorem contains_of_takenUnder {items : List (String × Options)}
    (h : Resolution.Returns (items.foldlM (takeEmitted r resource origin) state) t state' t')
    (htaken : TakenUnder r resource origin state t items key bag name entry) :
    state'.1.contains name = true ∧
      (state'.2.attachable .action).configs.get? name = some entry := by
  obtain ⟨attached, d₁, t₁, d₂, t₂, hvisit, hname, hentry⟩ := htaken
  obtain ⟨after, s₂, t₃, hstep, -, hafter⟩ := h.foldlM_visit hvisit
  have hgrows := takeEmitted_fold_grows hafter
  obtain ⟨found, d₃, hfound, -, hs₂⟩ := takeEmitted_returns hstep
  obtain ⟨rfl, rfl⟩ := Prod.mk.inj (hfound.unique hname).1
  refine ⟨hgrows.contains ?_, hgrows.stored.configs found entry (by rw [hs₂]; exact hentry)⟩
  rw [hs₂]
  show (if attached.contains found then attached else _).contains found = true
  split
  · assumption
  · simp

/-- Every emitted bag was taken, under the name of a plain action. -/
theorem takenUnder_of_mem {items : List (String × Options)}
    (h : Resolution.Returns (items.foldlM (takeEmitted r resource origin) state) t state' t')
    (hmem : (key, bag) ∈ items) :
    ∃ name entry, TakenUnder r resource origin state t items key bag name entry ∧
      IsPlain r.catalog entry := by
  obtain ⟨before, after, s₁, t₁, s₂, t₂, rfl, hbefore, hstep, -⟩ := h.foldlM_split hmem
  obtain ⟨name, d₂, hname, hrefuse, -⟩ := takeEmitted_returns hstep
  obtain ⟨entry, hentry⟩ := SortedMap.exists_of_contains (Advance.canonicalName hname).2
  obtain ⟨entry', hcheck, hplain⟩ := refuseBuilder_eq_ok hrefuse
  rw [attachedEntry_of_stored hentry] at hcheck
  cases hcheck
  exact ⟨name, entry, ⟨s₁.1, s₁.2, t₁, d₂, t₂, ⟨before, after, rfl, hbefore⟩, hname, hentry⟩,
    hplain⟩

/-- What was not there before the bags were taken is the first of those whose keys lead
to its name. -/
theorem first_of_takeEmitted_fold {items : List (String × Options)}
    (h : Resolution.Returns (items.foldlM (takeEmitted r resource origin) state) t state' t')
    (hsorted : Entries.Sorted items)
    (hfree : state.1.contains name = false) (hthere : state'.1.contains name = true) :
    ∃ key bag entry, TakenUnder r resource origin state t items key bag name entry ∧
      state'.1.get? name = some bag ∧
      ∀ other bag' entry', TakenUnder r resource origin state t items other bag' name entry' →
        key = other ∨ key < other := by
  obtain ⟨before, ⟨key, bag⟩, after, s₁, t₁, s₂, t₂, rfl, hbefore, hnot, hstep, hturn, hafter⟩ :=
    h.foldlM_turn (P := fun s => s.1.contains name = true) (by simp [hfree]) hthere
  obtain ⟨found, d₂, hname, -, hs₂⟩ := takeEmitted_returns hstep
  -- the step put the bag under the name, since it was not there before
  have hput : found = name ∧ s₂.1.get? name = some bag := by
    rw [hs₂] at hturn ⊢
    by_cases hfound : found = name
    · subst hfound
      simp [hnot]
    · by_cases hcontains : s₁.1.contains found = true
      · simp [hcontains] at hturn
        exact absurd hturn hnot
      · simp [hcontains, hfound] at hturn
        exact absurd hturn hnot
  obtain ⟨rfl, hbag⟩ := hput
  obtain ⟨entry, hentry⟩ := SortedMap.exists_of_contains (Advance.canonicalName hname).2
  refine ⟨key, bag, entry, ⟨s₁.1, s₁.2, t₁, d₂, t₂, ⟨before, after, rfl, hbefore⟩, hname,
    hentry⟩, (takeEmitted_fold_grows hafter).kept found bag hbag,
    fun other bag' entry' htaken => ?_⟩
  obtain ⟨-, hrest, hless⟩ := List.pairwise_append.1 hsorted
  obtain ⟨attached, d₃, t₃, d₄, t₄, hvisit, hname', hentry'⟩ := htaken
  rcases List.mem_append.1 hvisit.mem with hmem | hmem
  · -- an earlier key would have put something under the name
    have hout : (other, bag') ∉ (key, bag) :: after :=
      fun hlater => String.lt_irrefl _ (hless _ hmem _ hlater)
    exact absurd (contains_of_takenUnder hbefore
      ⟨attached, d₃, t₃, d₄, t₄, hvisit.of_append hout, hname', hentry'⟩).1 hnot
  · rcases List.mem_cons.1 hmem with heq | hlater
    · exact Or.inl (Prod.mk.inj heq).1.symm
    · exact Or.inr ((List.pairwise_cons.1 hrest).1 _ hlater)

/-- While builders are expanded one after the other, one of them is run in the state and
emits the bags. -/
def BuilderRuns (r : Resolver) (resource : String) (config : Options)
    (start : Attachments × Draft) (t : SchemaTables) (builders : List AttachedBuilder)
    (b : AttachedBuilder) (state : Attachments × Draft) (t' : SchemaTables)
    (emitted : Attachments) : Prop :=
  ∃ t₁ options,
    Resolution.Visits (expandBuilder r resource config) start t builders b state t₁ ∧
    (r.resolveAttachment .action resource b.name b.entry b.options).Returns t₁ options t' ∧
    b.build (withAttachments config .action state.1) options = .ok emitted

/-- While builders are expanded, one of them emits a bag under a key, and the key leads to
the entry of a name. -/
def EmitsUnder (r : Resolver) (resource : String) (config : Options)
    (start : Attachments × Draft) (t : SchemaTables) (builders : List AttachedBuilder)
    (b : AttachedBuilder) (key : String) (bag : Options) (name : String) (entry : Options) :
    Prop :=
  ∃ state t₁ emitted, BuilderRuns r resource config start t builders b state t₁ emitted ∧
    TakenUnder r resource b.name state t₁ emitted.entries key bag name entry

section Row

variable {builders : List AttachedBuilder} {b : AttachedBuilder} {emitted : Attachments}

/-- Where a builder was run, what it emitted was taken, and the builders after it were
run. -/
theorem BuilderRuns.takes {t₁ : SchemaTables} {s : Attachments × Draft}
    (hrun : BuilderRuns r resource config state t builders b s t₁ emitted)
    (h : Resolution.Returns (builders.foldlM (expandBuilder r resource config) state)
      t state' t') :
    ∃ s₂ t₂ after, Resolution.Returns
        (emitted.entries.foldlM (takeEmitted r resource b.name) s) t₁ s₂ t₂ ∧
      Resolution.Returns (List.foldlM (expandBuilder r resource config) s₂ after)
        t₂ state' t' := by
  obtain ⟨t₃, options, hvisit, hoptions, hbuild⟩ := hrun
  obtain ⟨after, s₂, t₂, hstep, -, hafter⟩ := h.foldlM_visit hvisit
  obtain ⟨options', emitted', t₄, hoptions', hbuild', hfold⟩ := expandBuilder_returns hstep
  obtain ⟨rfl, rfl⟩ := hoptions.unique hoptions'
  cases hbuild.symm.trans hbuild'
  exact ⟨s₂, t₂, after, hfold, hafter⟩

/-- After builders were expanded there is something under every name that one of them
emitted, and its entry stays. -/
theorem contains_of_emitsUnder
    (h : Resolution.Returns (builders.foldlM (expandBuilder r resource config) state)
      t state' t')
    (hemits : EmitsUnder r resource config state t builders b key bag name entry) :
    state'.1.contains name = true ∧
      (state'.2.attachable .action).configs.get? name = some entry := by
  obtain ⟨s, t₁, emitted, hrun, htaken⟩ := hemits
  obtain ⟨s₂, t₂, after, hfold, hafter⟩ := hrun.takes h
  obtain ⟨hthere, hentry⟩ := contains_of_takenUnder hfold htaken
  have hgrows := expandBuilder_fold_grows hafter
  exact ⟨hgrows.contains hthere, hgrows.stored.configs name entry hentry⟩

/-- What was not there before builders were expanded was emitted, and no builder before
emitted the name, nor the same builder under an earlier key. -/
theorem first_of_expandBuilder_fold
    (h : Resolution.Returns (builders.foldlM (expandBuilder r resource config) state)
      t state' t')
    (hsorted : builders.Pairwise (fun b c => b.name < c.name))
    (hfree : state.1.contains name = false) (hthere : state'.1.contains name = true) :
    ∃ b key bag entry,
      EmitsUnder r resource config state t builders b key bag name entry ∧
      state'.1.get? name = some bag ∧
      ∀ c other bag' entry',
        EmitsUnder r resource config state t builders c other bag' name entry' →
        b.name < c.name ∨ b.name = c.name ∧ (key = other ∨ key < other) := by
  obtain ⟨before, b, after, s₁, t₁, s₂, t₂, rfl, hbefore, hnot, hstep, hturn, hafter⟩ :=
    h.foldlM_turn (P := fun s => s.1.contains name = true) (by simp [hfree]) hthere
  obtain ⟨options, emitted, t₃, hoptions, hbuild, hfold⟩ := expandBuilder_returns hstep
  obtain ⟨key, bag, entry, htaken, hbag, hfirst⟩ :=
    first_of_takeEmitted_fold hfold emitted.sorted (by simpa using hnot) hturn
  have hvisit : Resolution.Visits (expandBuilder r resource config) state t
      (before ++ b :: after) b s₁ t₁ := ⟨before, after, rfl, hbefore⟩
  refine ⟨b, key, bag, entry, ⟨s₁, t₃, emitted, ⟨t₁, options, hvisit, hoptions, hbuild⟩,
    htaken⟩, (expandBuilder_fold_grows hafter).kept name bag hbag,
    fun c other bag' entry' hemits => ?_⟩
  obtain ⟨-, hrest, hless⟩ := List.pairwise_append.1 hsorted
  have hnodup : (before ++ b :: after).Nodup := by
    refine hsorted.imp (fun {b c} hlt heq => ?_)
    rw [heq] at hlt
    exact String.lt_irrefl _ hlt
  obtain ⟨s, t₄, emitted', ⟨t₅, options', hvisit', hoptions', hbuild'⟩, htaken'⟩ := hemits
  rcases List.mem_append.1 hvisit'.mem with hmem | hmem
  · -- an earlier builder would have put something under the name
    have hout : c ∉ b :: after :=
      fun hlater => String.lt_irrefl _ (hless _ hmem _ hlater)
    exact absurd (contains_of_emitsUnder hbefore
      ⟨s, t₄, emitted', ⟨t₅, options', hvisit'.of_append hout, hoptions', hbuild'⟩,
        htaken'⟩).1 hnot
  · rcases List.mem_cons.1 hmem with rfl | hlater
    · -- the same builder emits in its own order
      obtain ⟨rfl, rfl⟩ := hvisit.unique hvisit' hnodup
      obtain ⟨rfl, rfl⟩ := hoptions.unique hoptions'
      cases hbuild.symm.trans hbuild'
      exact Or.inr ⟨rfl, hfirst other bag' entry' htaken'⟩
    · exact Or.inl ((List.pairwise_cons.1 hrest).1 _ hlater)

end Row

/-- A builder that the resource attaches in the draft `d` is run, and emits the bags. -/
def Emits (r : Resolver) (d : Draft) (t : SchemaTables) (resource : String)
    (b : AttachedBuilder) (emitted : Attachments) : Prop :=
  ∃ plain builders state t', d.partActions r.catalog resource (d.resource resource) =
      .ok (plain, builders) ∧
    BuilderRuns r resource (d.resource resource) (plain, d) t builders b state t' emitted

/-- A builder that the resource attaches in the draft `d` emits a bag under a key, and the
key leads to the entry of a name. -/
def EmitsAs (r : Resolver) (d : Draft) (t : SchemaTables) (resource : String)
    (b : AttachedBuilder) (key : String) (bag : Options) (name : String) (entry : Options) :
    Prop :=
  ∃ plain builders, d.partActions r.catalog resource (d.resource resource) =
      .ok (plain, builders) ∧
    EmitsUnder r resource (d.resource resource) (plain, d) t builders b key bag name entry

theorem EmitsAs.emits {b : AttachedBuilder}
    (h : EmitsAs r d t resource b key bag name entry) :
    ∃ emitted, Emits r d t resource b emitted ∧ emitted.get? key = some bag := by
  obtain ⟨plain, builders, hpart, state, t₁, emitted, hrun, _, _, _, _, _, hvisit, -⟩ := h
  exact ⟨emitted, ⟨plain, builders, state, t₁, hpart, hrun⟩,
    (SortedMap.mem_entries_iff _ _ _).1 hvisit.mem⟩

/-- No builder before emits the name, and neither does the same builder under an earlier
key. -/
structure FirstEmission (r : Resolver) (d : Draft) (t : SchemaTables) (resource : String)
    (b : AttachedBuilder) (key : String) (bag : Options) (name : String) (entry : Options) :
    Prop where
  emits : EmitsAs r d t resource b key bag name entry
  first : ∀ c other bag' entry', EmitsAs r d t resource c other bag' name entry' →
    b.name < c.name ∨ b.name = c.name ∧ (key = other ∨ key < other)

/-- What the expansion of builders makes of the actions of a resource, and of the draft. -/
structure Expanded (r : Resolver) (d : Draft) (t : SchemaTables) (resource : String)
    (actions : Attachments) (d' : Draft) : Prop where
  runs : ∀ b : AttachedBuilder, (∃ emitted, Emits r d t resource b emitted) ↔
    (attachmentsOf (d.resource resource) .action).get? b.name = some b.options ∧
      (d.attachable .action).configs.get? b.name = some b.entry ∧
      builderOf? r.catalog b.entry = some b.build
  emits : ∀ b emitted key bag, Emits r d t resource b emitted →
    emitted.get? key = some bag →
    ∃ name entry, EmitsAs r d t resource b key bag name entry ∧ IsPlain r.catalog entry
  kept : ∀ name bag entry,
    (attachmentsOf (d.resource resource) .action).get? name = some bag →
    (d.attachable .action).configs.get? name = some entry → IsPlain r.catalog entry →
    actions.get? name = some bag
  taken : ∀ b key bag name entry, EmitsAs r d t resource b key bag name entry →
    actions.contains name = true ∧ (d'.attachable .action).configs.get? name = some entry
  others : ∀ name bag, actions.get? name = some bag →
    ((attachmentsOf (d.resource resource) .action).get? name = some bag ∧
      ∃ entry, (d.attachable .action).configs.get? name = some entry ∧
        IsPlain r.catalog entry) ∨
    ∃ b key entry, FirstEmission r d t resource b key bag name entry

section Folded

variable {plain : Attachments} {builders : List AttachedBuilder}

/-- The builders that are run are the listed actions whose entries name one. -/
theorem exists_emits_iff
    (hknown : EntriesSatisfy p d .action (attachmentsOf (d.resource resource) .action))
    (hpart : d.partActions r.catalog resource (d.resource resource) = .ok (plain, builders))
    (hfold : Resolution.Returns
      (builders.foldlM (expandBuilder r resource (d.resource resource)) (plain, d)) t state t')
    (b : AttachedBuilder) :
    (∃ emitted, Emits r d t resource b emitted) ↔
      (attachmentsOf (d.resource resource) .action).get? b.name = some b.options ∧
        (d.attachable .action).configs.get? b.name = some b.entry ∧
        builderOf? r.catalog b.entry = some b.build := by
  constructor
  · rintro ⟨emitted, plain', builders', s, t₁, hpart', t₂, options, hvisit, -⟩
    cases hpart.symm.trans hpart'
    obtain ⟨hget, -, hbuild⟩ := (mem_builders_iff hpart).1 hvisit.mem
    exact ⟨hget, (partActions_eq_ok hknown hpart).2 b hvisit.mem, hbuild⟩
  · rintro ⟨hget, hentry, hbuild⟩
    have hmem : b ∈ builders :=
      (mem_builders_iff hpart).2 ⟨hget, EntrySet.get?_of_stored hentry, hbuild⟩
    obtain ⟨before, after, s₁, t₁, s₂, t₂, rfl, hbefore, hstep, -⟩ := hfold.foldlM_split hmem
    obtain ⟨options, emitted, t₃, hoptions, hemitted, -⟩ := expandBuilder_returns hstep
    exact ⟨emitted, plain, _, s₁, t₃, hpart, t₁, options, ⟨before, after, rfl, hbefore⟩,
      hoptions, hemitted⟩

/-- Whatever is there in the end is a plain action with its bag, or was emitted first. -/
theorem plain_or_first_of_get?
    (hknown : EntriesSatisfy p d .action (attachmentsOf (d.resource resource) .action))
    (hpart : d.partActions r.catalog resource (d.resource resource) = .ok (plain, builders))
    (hfold : Resolution.Returns
      (builders.foldlM (expandBuilder r resource (d.resource resource)) (plain, d)) t state t')
    (hget : state.1.get? name = some bag) :
    ((attachmentsOf (d.resource resource) .action).get? name = some bag ∧
      ∃ entry, (d.attachable .action).configs.get? name = some entry ∧
        IsPlain r.catalog entry) ∨
    ∃ b key entry, FirstEmission r d t resource b key bag name entry := by
  cases hplain : plain.get? name with
  | some stored =>
      have hkept := (expandBuilder_fold_grows hfold).kept name stored hplain
      obtain rfl : stored = bag := Option.some.inj (hkept.symm.trans hget)
      exact Or.inl ((get?_plain_iff hknown hpart).1 hplain)
  | none =>
      obtain ⟨b, key, bag', entry, hemits, hbag, hfirst⟩ :=
        first_of_expandBuilder_fold hfold (builders_sorted hpart)
          (by simp [SortedMap.contains, hplain]) (SortedMap.contains_of_get? hget)
      obtain rfl : bag' = bag := Option.some.inj (hbag.symm.trans hget)
      refine Or.inr ⟨b, key, entry, ⟨plain, builders, hpart, hemits⟩, ?_⟩
      rintro c other bag'' entry' ⟨plain', builders', hpart', hemits'⟩
      cases hpart.symm.trans hpart'
      exact hfirst c other bag'' entry' hemits'

end Folded

/-- Where builders were expanded, the plain actions stand as they were listed, and the others
are what was emitted first under their names. -/
theorem expandBuilders_emits
    (hknown : EntriesSatisfy p d .action (attachmentsOf (d.resource resource) .action))
    (h : (d.expandBuilders r resource).Returns t d' t') :
    Expanded r d t resource (attachmentsOf (d'.resource resource) .action) d' := by
  obtain ⟨plain, builders, state, hpart, hfold, rfl⟩ := expandBuilders_returns h
  rw [resource_putResource, if_pos rfl, attachmentsOf_withAttachments]
  exact {
    runs := exists_emits_iff hknown hpart hfold
    emits := by
      rintro b emitted key bag ⟨plain', builders', s, t₁, hpart', hrun⟩ hget
      cases hpart.symm.trans hpart'
      obtain ⟨s₂, t₂, after, htakes, -⟩ := hrun.takes hfold
      obtain ⟨name, entry, htaken, hplain⟩ :=
        takenUnder_of_mem htakes ((SortedMap.mem_entries_iff _ _ _).2 hget)
      exact ⟨name, entry, ⟨plain, builders, hpart, s, t₁, emitted, hrun, htaken⟩, hplain⟩
    kept := fun name bag entry hget hentry hplain =>
      (expandBuilder_fold_grows hfold).kept name bag
        ((get?_plain_iff hknown hpart).2 ⟨hget, entry, hentry, hplain⟩)
    taken := by
      rintro b key bag name entry ⟨plain', builders', hpart', hemits⟩
      cases hpart.symm.trans hpart'
      rw [attachable_putResource]
      exact contains_of_emitsUnder hfold hemits
    others := fun name bag hget => plain_or_first_of_get? hknown hpart hfold hget }

end Draft
end ConfigCompiler
