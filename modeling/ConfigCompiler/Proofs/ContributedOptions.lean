import ConfigCompiler.Proofs.ExpandedActions
import ConfigCompiler.Proofs.SchemaLaws
import ConfigCompiler.Proofs.ValuePaths

/-!
# Options contributed to an action

A behavior that contributes to an action fills the gaps of its bag.  The bag was resolved
before, and the filled bag is resolved again, so what stands in it goes through the
normalizers once for every contribution.

**Relation.**  `Refilled s bag bag'`: filled and resolved again, any number of times, `bag`
becomes `bag'`.

**Predicate.**  `Schema.NormalizersKeep s key v`: the normalizers of an option take nothing
of the value away.

**Results.**
* `Refilled.contains`, `Refilled.keeps`: every option stays, and is kept as far as its
  normalizers keep it.
* `ask_takeContributed_empty`: an empty contribution resolves the bag again.
* `contributions_fill_gaps`: both, for the behaviors of a resource.
* `greeting_marked_twice`: an empty contribution changes an option.
-/

namespace ConfigCompiler

namespace Schema

variable {s : Schema} {raw resolved : Options} {key : String} {v w : Value}

/-- Normalizing an option that keeps the value leaves it so. -/
def NormalizersKeep (s : Schema) (key : String) (v : Value) : Prop :=
  ∀ options w w', v.Keeps w → s.normalizeOption options key w = .ok w' → v.Keeps w'

/-- An option without normalizers is kept, whatever it is. -/
theorem normalizersKeep_of_nil (h : s.normalizers key = []) (v : Value) :
    s.NormalizersKeep key v := by
  intro options w w' hkeeps hnormal
  unfold normalizeOption at hnormal
  unfold normalizers at h
  cases hrule : s.rules.get? key with
  | none =>
      rw [hrule] at hnormal
      cases hnormal
      exact hkeeps
  | some rule =>
      rw [hrule] at hnormal h
      have hnone : rule.normalizers = [] := h
      simp only [OptionRule.normalizeValue, hnone, List.foldlM_nil] at hnormal
      cases hnormal
      exact hkeeps

/-- What an option keeps, it keeps once the bag is resolved. -/
theorem keeps_of_resolve (h : s.resolve raw = .ok resolved) (hnormal : s.NormalizersKeep key v)
    (hget : raw.get? key = some w) (hkeeps : v.Keeps w) :
    ∃ w', resolved.get? key = some w' ∧ v.Keeps w' := by
  have hcomplete : (s.complete raw).get? key = some w := by
    rw [get?_complete, hget, Option.some_or]
  rcases get?_normalized h key with ⟨hnone, -⟩ | ⟨w₁, w₂, hsome, hends, hresolved⟩
  · rw [hcomplete] at hnone
    cases hnone
  · obtain rfl : w = w₁ := Option.some.inj (hcomplete.symm.trans hsome)
    exact ⟨w₂, hresolved, hnormal _ w w₂ hkeeps hends⟩

end Schema

/-- What a bag becomes if its gaps are filled and it is resolved again, any number of
times. -/
inductive Refilled (s : Schema) (bag : Options) : Options → Prop
  | start : Refilled s bag bag
  | fill {bag' contributed bag'' : Options} (h : Refilled s bag bag')
      (hresolve : s.resolve (Options.fillMissing bag' contributed) = .ok bag'') :
      Refilled s bag bag''

namespace Refilled

variable {s : Schema} {bag bag' : Options} {key : String} {v : Value}

/-- Every option stays. -/
theorem contains (h : Refilled s bag bag') (hkey : bag.contains key = true) :
    bag'.contains key = true := by
  induction h with
  | start => exact hkey
  | fill _ hresolve ih =>
      obtain ⟨w, hw⟩ := SortedMap.exists_of_contains ih
      obtain ⟨w', hw', -⟩ := Options.get?_fillMissing _ hw
      exact Schema.contains_of_resolve hresolve (SortedMap.contains_of_get? hw')

/-- An option is kept as far as its normalizers keep it. -/
theorem keeps (h : Refilled s bag bag') (hget : bag.get? key = some v)
    (hnormal : s.NormalizersKeep key v) : ∃ w, bag'.get? key = some w ∧ v.Keeps w := by
  induction h with
  | start => exact ⟨v, hget, Value.Keeps.refl v⟩
  | fill _ hresolve ih =>
      obtain ⟨w, hw, hkeeps⟩ := ih
      obtain ⟨w', hw', hfilled⟩ := Options.get?_fillMissing _ hw
      exact Schema.keeps_of_resolve hresolve hnormal hw' (hkeeps.trans hfilled)

/-- If all normalizers keep the options of a bag, the bag is kept. -/
theorem keeps_bag (h : Refilled s bag bag')
    (hnormal : ∀ key v, bag.get? key = some v → s.NormalizersKeep key v) :
    (Value.object bag).Keeps (Value.object bag') :=
  Value.keeps_object (fun key v hget => h.keeps hget (hnormal key v hget))

end Refilled

namespace Draft

variable {r : Resolver} {d d' : Draft} {t t' : SchemaTables}
variable {resource origin key name : String} {bag entry : Options}
variable {state state' : Attachments × Draft}

section Steps

variable {d₁ : Draft} {t₁ : SchemaTables}

/-- While behaviors contribute, from the draft `d₁` on, the bag of an action is refilled. -/
structure ActionRefilled (r : Resolver) (d₁ : Draft) (t₁ : SchemaTables) (name : String)
    (entry bag : Options) (state : Attachments × Draft) (t : SchemaTables) : Prop where
  progress : Progress r .action (IsPlain r.catalog) d₁ t₁ state t
  refilled : ∃ bag', state.1.get? name = some bag' ∧
    Refilled (r.schemaInForce t₁ .action name entry) bag bag'

/-- One contributed action, of this name or another one. -/
theorem ActionRefilled.takeContributed {item : String × Options}
    (h : ActionRefilled r d₁ t₁ name entry bag state t)
    (hentry : (d₁.attachable .action).configs.get? name = some entry)
    (hstep : (takeContributed r resource origin state item).Returns t state' t') :
    ActionRefilled r d₁ t₁ name entry bag state' t' := by
  refine ⟨h.progress.takeContributed hstep, ?_⟩
  obtain ⟨found, d₂, entry', options, t₂, hname, hrefuse, hcheck, hresolve, rfl⟩ :=
    takeContributed_returns hstep
  obtain ⟨bag', hget, hrefilled⟩ := h.refilled
  by_cases hsame : found = name
  · subst hsame
    obtain ⟨hprogress, -⟩ := h.progress.plainName hname hrefuse
    have hstored : (d₂.attachable .action).configs.get? found = some entry :=
      (hprogress.advance.changes.extends_attachable .action).configs found entry hentry
    rw [attachedEntry_of_stored hstored] at hcheck
    obtain rfl := Except.ok.inj hcheck
    -- the schema in force is the one from before the contributions
    have hanswer := Resolver.attachmentAnswer_eq_ok.1
      (Resolver.returns_resolveAttachment.1 hresolve).1
    rw [hget, hprogress.advance.kept.schemaInForce_eq hstored] at hanswer
    exact ⟨options, SortedMap.get?_insert_self _ _ _, hrefilled.fill hanswer⟩
  · exact ⟨bag', by rw [SortedMap.get?_insert, if_neg hsame, hget], hrefilled⟩

/-- All that one behavior contributes. -/
theorem ActionRefilled.contributeActions {config : Options} {behavior : String × Options}
    (h : ActionRefilled r d₁ t₁ name entry bag state t)
    (hentry : (d₁.attachable .action).configs.get? name = some entry)
    (hstep : (contributeActions r resource config state behavior).Returns t state' t') :
    ActionRefilled r d₁ t₁ name entry bag state' t' := by
  obtain ⟨rfl, rfl⟩ | ⟨_, _, _, -, -, -, hfold⟩ := contributeActions_returns hstep
  · exact h
  · exact hfold.foldlM_induction (P := ActionRefilled r d₁ t₁ name entry bag)
      (fun _ _ _ _ _ _ hs htake => hs.takeContributed hentry htake) h

/-- When all behaviors have contributed, every action that was there has been refilled. -/
theorem applyBehaviors_refills (hplain : AttachesOnly (IsPlain r.catalog) d₁ .action resource)
    (h : (d₁.applyBehaviors r resource).Returns t₁ d' t')
    (hget : (d₁.actionsOf resource).get? name = some bag) :
    ∃ entry bag', (d₁.attachable .action).configs.get? name = some entry ∧
      (d'.actionsOf resource).get? name = some bag' ∧
      Refilled (r.schemaInForce t₁ .action name entry) bag bag' := by
  obtain ⟨state, hfold, rfl⟩ := applyBehaviors_returns h
  obtain ⟨entry, hentry, -⟩ :=
    hplain.entriesSatisfy name (SortedMap.contains_of_get? hget)
  have hrefilled : ActionRefilled r d₁ t₁ name entry bag state t' :=
    hfold.foldlM_induction (P := ActionRefilled r d₁ t₁ name entry bag)
      (fun _ _ _ _ _ _ hs hstep => hs.contributeActions hentry hstep)
      ⟨Progress.start hplain.entriesSatisfy, bag, hget, Refilled.start⟩
  obtain ⟨bag', hget', hends⟩ := hrefilled.refilled
  refine ⟨entry, bag', hentry, ?_, hends⟩
  rw [actionsOf, resource_putResource, if_pos rfl, attachmentsOf_withAttachments, hget']

end Steps

/-- The draft in which the actions of a resource are resolved has plain actions only. -/
theorem ActionsResolved.attachesOnly (h : ActionsResolved r d t resource d' t') :
    AttachesOnly (IsPlain r.catalog) d' .action resource := by
  obtain ⟨d₁, t₁, d₂, t₂, hnamed, hexpand, hresolve⟩ := h
  obtain ⟨-, hstored, hknown⟩ := hnamed.advance
  obtain ⟨hexpanded, hplain⟩ := Advance.expandBuilders hstored hknown hexpand
  have hstored₂ := (hexpanded.changes.stored_eq resource).trans hstored
  exact (Advance.resolveAttachments hstored₂ hplain hresolve).2

/-- An empty contribution to an action asks for its own bag once more. -/
theorem ask_takeContributed_empty {t₁ : SchemaTables}
    (hname : (state.2.canonicalName r .action resource key).Returns t (name, d') t₁)
    (hget : state.1.get? name = some bag)
    (hentry : (d'.attachable .action).configs.get? name = some entry)
    (hplain : IsPlain r.catalog entry) :
    (takeContributed r resource origin state (key, ∅)).ask t =
      ((r.attachmentAnswer t₁ .action resource name entry bag).map
          (fun options => (state.1.insert name options, d')),
        r.tablesAfter t₁ .action name entry) := by
  have hcheck : d'.attachedEntry .action resource name = .ok entry :=
    attachedEntry_of_stored hentry
  have hrefuse : d'.refuseBuilder r.catalog resource origin name = .ok () := by
    unfold refuseBuilder
    rw [hcheck]
    show (if (builderOf? r.catalog entry).isSome then _ else _) = Except.ok ()
    rw [hplain]
    rfl
  have hfilled : Options.fillMissing bag ∅ = bag := Options.empty_merge bag
  unfold takeContributed
  rw [Resolution.ask_bind_of_returns hname,
    Resolution.ask_bind_of_returns (Resolution.returns_lift.2 ⟨hrefuse, rfl⟩),
    Resolution.ask_bind_of_returns (Resolution.returns_lift.2 ⟨hcheck, rfl⟩), hget]
  dsimp only
  rw [hfilled, Resolution.ask_bind, Resolver.ask_resolveAttachment, Resolver.attachmentAnswer_eq]
  cases (r.schemaInForce t₁ .action name entry).resolve bag <;> rfl

/-- Contributions of behaviors, end to end.  Once the actions of a resource are resolved,
the contributions of its behaviors fill the gaps of every bag, and resolve it again.  Every
option stays; and it stays the same, up to gaps that are filled inside objects, if its
normalizers keep it.  An empty contribution ends as the question about the bag itself
does. -/
theorem contributions_fill_gaps {d₁ : Draft} {t₁ : SchemaTables}
    (hresolved : ActionsResolved r d t resource d₁ t₁) :
    (∀ d' t', (d₁.applyBehaviors r resource).Returns t₁ d' t' →
      ∀ name bag, (d₁.actionsOf resource).get? name = some bag →
        ∃ entry bag', (d₁.attachable .action).configs.get? name = some entry ∧
          (d'.actionsOf resource).get? name = some bag' ∧
          Refilled (r.schemaInForce t₁ .action name entry) bag bag' ∧
          (∀ key, bag.contains key = true → bag'.contains key = true) ∧
          (∀ key v, bag.get? key = some v →
            (r.schemaInForce t₁ .action name entry).NormalizersKeep key v →
            ∃ w, bag'.get? key = some w ∧ v.Keeps w) ∧
          ((∀ key v, bag.get? key = some v →
              (r.schemaInForce t₁ .action name entry).NormalizersKeep key v) →
            (Value.object bag).Keeps (Value.object bag'))) ∧
    ∀ origin key state t₂ name d₂ t₃ bag entry,
      (state.2.canonicalName r .action resource key).Returns t₂ (name, d₂) t₃ →
      state.1.get? name = some bag →
      (d₂.attachable .action).configs.get? name = some entry → IsPlain r.catalog entry →
      (takeContributed r resource origin state (key, ∅)).ask t₂ =
        ((r.attachmentAnswer t₃ .action resource name entry bag).map
            (fun options => (state.1.insert name options, d₂)),
          r.tablesAfter t₃ .action name entry) := by
  refine ⟨fun d' t' h name bag hget => ?_, fun origin key state t₂ name d₂ t₃ bag entry
    hname hbag hentry hplain => ask_takeContributed_empty hname hbag hentry hplain⟩
  obtain ⟨entry, bag', hentry, hget', hrefilled⟩ :=
    applyBehaviors_refills hresolved.attachesOnly h hget
  exact ⟨entry, bag', hentry, hget', hrefilled, fun key hkey => hrefilled.contains hkey,
    fun key v hv hnormal => hrefilled.keeps hv hnormal, fun hall => hrefilled.keeps_bag hall⟩

namespace Greeting

/-- A mark at the end of a text. -/
def mark : Normalizer :=
  fun _ v => .ok (match v.str? with
    | some s => .string (s ++ "!")
    | none => v)

/-- A letter can be viewed, and a behavior contributes to the view.  The title of a view may be
marked by a normalizer. -/
def resolver (marks : List Normalizer) (contributed : Options) : Resolver :=
  Resolver.ofCatalog ((Catalog.empty.registerAction
    { name := "letter::View",
      contributions := .define "title" :: .define "subtitle" ::
        marks.map (Contribution.normalize "title") }).registerBehavior
    { name := "letter::Greet",
      build := fun _ _ _ => .ok (SortedMap.singleton "view" contributed) })

def draft (r : Resolver) : Draft where
  store := EntryStore.ofCatalog r.catalog
  fingerprint := ""
  sets := {
    permissions := EntrySet.empty
    actions := ⟨SortedMap.singleton "view"
      (SortedMap.singleton "class" (.string "letter::View")), ∅⟩
    behaviors := ⟨SortedMap.singleton "greet"
      (SortedMap.singleton "class" (.string "letter::Greet")), ∅⟩
    namespaces := EntrySet.empty
    resources := ⟨SortedMap.singleton "letter" (SortedMap.ofList [
      ("actions", .object (SortedMap.singleton "view" (.object
        (SortedMap.singleton "title" (.string "Hello"))))),
      ("behaviors", .object (SortedMap.singleton "greet" (.object ∅))),
      ("entity", .string "Letter")]), ∅⟩ }
  declaredInterfaces := ∅
  collisions := []

/-- The draft and the tables when the actions of the letter are resolved, and the draft
after all contributions. -/
def steps (r : Resolver) : Resolution (Draft × SchemaTables × Draft) := do
  let d₀ ← (draft r).settleBehaviors r
  let d₁ ← d₀.normalizeAttachments r .action "letter"
  let d₂ ← d₁.expandBuilders r "letter"
  let d₃ ← d₂.resolveAttachments r .action "letter"
  let t₃ ← get
  let d₄ ← d₃.applyBehaviors r "letter"
  return (d₃, t₃, d₄)

theorem steps_returns {d₁ d' : Draft} {t₁ : SchemaTables}
    (h : (steps r).Returns .empty (d₁, t₁, d') t') :
    ActionsResolved r (draft r) .empty "letter" d₁ t₁ ∧
      ∃ t₂, (d₁.applyBehaviors r "letter").Returns t₁ d' t₂ := by
  obtain ⟨d₀, t₀, hsettle, h₁⟩ := Resolution.returns_bind.1 h
  obtain ⟨d₂, t₂, hnames, h₂⟩ := Resolution.returns_bind.1 h₁
  obtain ⟨d₃, t₃, hexpand, h₃⟩ := Resolution.returns_bind.1 h₂
  obtain ⟨d₄, t₄, hresolve, h₄⟩ := Resolution.returns_bind.1 h₃
  obtain ⟨t₅, t₆, hget, h₅⟩ := Resolution.returns_bind.1 h₄
  obtain ⟨d₆, t₇, happly, h₆⟩ := Resolution.returns_bind.1 h₅
  obtain ⟨heq, -⟩ := Resolution.returns_pure.1 h₆
  simp only [Prod.mk.injEq] at heq
  obtain ⟨rfl, rfl, rfl⟩ := heq
  -- the tables are read and stay as they are
  obtain ⟨rfl, rfl⟩ : t₁ = t₄ ∧ t₆ = t₄ := by
    cases hget
    exact ⟨rfl, rfl⟩
  exact ⟨⟨d₂, t₂, d₃, t₃, ⟨d₀, t₀, ⟨d₀, t₀, hsettle, Resolution.Visits.head _ _ _ _ _⟩, hnames⟩,
    hexpand, hresolve⟩, t₇, happly⟩

/-- What the view of the letter holds. -/
def view? (d : Draft) : Option Options := (d.actionsOf "letter").get? "view"

end Greeting

theorem contributions_fill_gaps_greeting :
    ∃ r contributed, r = Greeting.resolver [] contributed ∧
      contributed.get? "title" = some (.string "Bye") ∧
      ∃ d₁ t₁ d' t' bag bag' w entry,
        ActionsResolved r (Greeting.draft r) .empty "letter" d₁ t₁ ∧
        (d₁.applyBehaviors r "letter").Returns t₁ d' t' ∧
        (d₁.actionsOf "letter").get? "view" = some bag ∧
        bag.get? "title" = some (.string "Hello") ∧
        (r.schemaInForce t₁ .action "view" entry).NormalizersKeep "title" (.string "Hello") ∧
        (d'.actionsOf "letter").get? "view" = some bag' ∧
        bag'.get? "title" = some w ∧ (Value.string "Hello").Keeps w ∧
        bag'.contains "subtitle" = true ∧
        (takeContributed r "letter" "greet" (d₁.actionsOf "letter", d₁) ("view", ∅)).ask t₁ =
          ((r.attachmentAnswer t₁ .action "letter" "view" entry bag).map
              (fun options => ((d₁.actionsOf "letter").insert "view" options, d₁)),
            r.tablesAfter t₁ .action "view" entry) := by
  obtain ⟨r, hr⟩ : ∃ r, r = Greeting.resolver [] (SortedMap.ofList [
    ("subtitle", .string "friend"), ("title", .string "Bye")]) := ⟨_, rfl⟩
  refine ⟨r, _, hr, rfl, ?_⟩
  obtain ⟨⟨d₁, t₁, d'⟩, t, h, htest⟩ := Resolution.returns_of_any
    (x := Greeting.steps r) (t := .empty)
    (p := fun result =>
      (Greeting.view? result.1).any (fun bag => bag.str? "title" == some "Hello") &&
        ((Greeting.view? result.2.2).any (fun bag => bag.contains "subtitle") &&
          (((result.1.attachable .action).canonical? "view" == some "view") &&
            ((result.1.attachable .action).configs.get? "view").any (fun entry =>
              ((r.schemaInForce result.2.1 .action "view" entry).normalizers "title").isEmpty &&
                (builderOf? r.catalog entry).isNone))))
    (by subst hr; decide +kernel)
  simp only [Bool.and_eq_true, beq_iff_eq, Option.any_eq_true, List.isEmpty_iff,
    Option.isNone_iff_eq_none] at htest
  obtain ⟨⟨bag, hbag, htitle⟩, ⟨bag', hbag', hsubtitle⟩, hcanonical, entry, hentry, hnormal,
    hplain⟩ := htest
  have hhello := Options.get?_of_str? htitle
  obtain ⟨hresolved, t', happly⟩ := Greeting.steps_returns h
  obtain ⟨hfills, hempty⟩ := contributions_fill_gaps hresolved
  obtain ⟨entry', bag'', hentry', hbag'', -, -, hkeeps, -⟩ := hfills d' t' happly "view" bag hbag
  obtain rfl : entry' = entry := Option.some.inj (hentry'.symm.trans hentry)
  obtain rfl : bag'' = bag' := Option.some.inj (hbag''.symm.trans hbag')
  have hkept := Schema.normalizersKeep_of_nil hnormal (.string "Hello")
  obtain ⟨w, hw, hsame⟩ := hkeeps "title" _ hhello hkept
  exact ⟨d₁, t₁, d', t', bag, bag'', w, entry', hresolved, happly, hbag, hhello, hkept, hbag',
    hw, hsame, hsubtitle, hempty "greet" "view" (d₁.actionsOf "letter", d₁) t₁ "view" d₁ t₁ bag
      entry' (ask_canonicalName hcanonical) hbag hentry hplain⟩

/-- An empty contribution changes an option that was resolved before: it is normalized
once more. -/
theorem greeting_marked_twice :
    ∃ d₁ t₁ d' t' bag bag',
      ActionsResolved (Greeting.resolver [Greeting.mark] ∅)
        (Greeting.draft (Greeting.resolver [Greeting.mark] ∅)) .empty "letter" d₁ t₁ ∧
      (d₁.applyBehaviors (Greeting.resolver [Greeting.mark] ∅) "letter").Returns t₁ d' t' ∧
      (d₁.actionsOf "letter").get? "view" = some bag ∧
      (d'.actionsOf "letter").get? "view" = some bag' ∧
      bag.get? "title" = some (.string "Hello!") ∧
      bag'.get? "title" = some (.string "Hello!!") ∧
      ¬ (Value.object bag).Keeps (Value.object bag') := by
  obtain ⟨⟨d₁, t₁, d'⟩, t, h, htest⟩ := Resolution.returns_of_any
    (x := Greeting.steps (Greeting.resolver [Greeting.mark] ∅)) (t := .empty)
    (p := fun result =>
      ((Greeting.view? result.1).any (fun bag => bag.str? "title" == some "Hello!")) &&
        ((Greeting.view? result.2.2).any (fun bag => bag.str? "title" == some "Hello!!")))
    (by decide +kernel)
  obtain ⟨hbefore, hafter⟩ := Bool.and_eq_true_iff.1 htest
  obtain ⟨bag, hbag, htitle⟩ := (Option.any_eq_true _ _).1 hbefore
  obtain ⟨bag', hbag', htitle'⟩ := (Option.any_eq_true _ _).1 hafter
  have hold := Options.get?_of_str? (beq_iff_eq.1 htitle)
  have hnew := Options.get?_of_str? (beq_iff_eq.1 htitle')
  obtain ⟨hresolved, t', happly⟩ := Greeting.steps_returns h
  refine ⟨d₁, t₁, d', t', bag, bag', hresolved, happly, hbag, hbag', hold, hnew,
    fun hkeeps => ?_⟩
  obtain ⟨y, hy, hsame⟩ := hkeeps ["title"] (.string "Hello!") (by
    rw [Value.at?_object, hold]
    rfl)
  rw [Value.at?_object, hnew] at hy
  obtain rfl := Option.some.inj hy
  have hviews := congrArg Value.str? (hsame rfl)
  simp at hviews

end Draft
end ConfigCompiler
