import ConfigCompiler.Proofs.KindSchemas
import ConfigCompiler.Proofs.SchemaLaws

/-!
# Layers of attached options

The options of an attachment come from three places: what the resource gives, what the
entry of the action or behavior declares, and what the type that implements it contributes.
The resource counts over the other two.  Of these the type speaks last, so that a default
of its own is laid over what the entry declares.

**Input.**  `declaredValue` is what an entry declares for an option of its attachments.  An
action also hands down some options of its own; two objects are merged.

**Results.**
* `default?_attachmentSchema`: without extensions the default of an option starts from
  what the entry declares and is changed by the statements of the type.
* `attachment_layers`: what an option is resolved to, whether the resource gives it, the
  type speaks about it, or only the entry declares it.
-/

namespace ConfigCompiler

variable {r : Resolver} {t : SchemaTables} {kind : AttachmentKind}
variable {entry raw resolved : Options} {key : String} {v : Value}

/-- The options that an action hands down to its attachments, with what stands for an
absent one. -/
def handedDown : List (String × Value) :=
  [("route", .null), ("button", .null), ("label", .null), ("permissions", .array [])]

/-- What an entry declares for an option, laid over what it hands down itself. -/
def declaredValue (kind : AttachmentKind) (entry : Options) (key : String) (v : Value) :
    Value :=
  match kind with
  | .action =>
      match Entries.find? key handedDown with
      | some fallback => (Baseline.entryValue entry key fallback).overlay v
      | none => v
  | .behavior => v

/-- A declared value stays as it is unless it is an object laid over an object. -/
theorem declaredValue_eq_self
    (h : kind = .behavior ∨ Entries.find? key handedDown = none ∨
      (∀ fields, v ≠ .object fields)) : declaredValue kind entry key v = v := by
  unfold declaredValue
  cases kind with
  | behavior => rfl
  | action =>
      rcases h with h | h | h
      · cases h
      · simp [h]
      · cases Entries.find? key handedDown with
        | none => rfl
        | some fallback => exact Value.overlay_of_right _ h

/-- Of distinct defaults one is about an option at most. -/
theorem about_defaults {entries : List (String × Value)} (hs : Entries.Sorted entries)
    (key : String) :
    Contribution.about key (entries.map (fun e => .default e.1 e.2)) =
      ((Entries.find? key entries).map (fun v => Contribution.default key v)).toList := by
  induction entries with
  | nil => rfl
  | cons e rest ih =>
      obtain ⟨hlt, hrest⟩ := List.pairwise_cons.1 hs
      rw [List.map_cons, Entries.find?_cons]
      by_cases hkey : e.1 = key
      · have hnone : Entries.find? key rest = none := by
          rw [Entries.find?_eq_none_iff, ← hkey]
          intro hmem
          obtain ⟨other, hother, heq⟩ := List.mem_map.1 hmem
          exact String.lt_irrefl e.1 (heq ▸ hlt other hother)
        have hih := ih hrest
        rw [hnone] at hih
        rw [Contribution.about, List.filter_cons_of_pos (by simp [Contribution.key?, hkey])]
        rw [if_pos hkey, hkey]
        exact congrArg _ hih
      · rw [Contribution.about, List.filter_cons_of_neg (by simp [Contribution.key?, hkey]),
          if_neg hkey]
        exact ih hrest

theorem about_declaredDefaults (h : (entry.bag "options").get? key = some v) :
    Contribution.about key (Baseline.declaredDefaults entry) = [.default key v] := by
  unfold Baseline.declaredDefaults
  rw [about_defaults (entry.bag "options").sorted]
  show ((SortedMap.get? (entry.bag "options") key).map _).toList = _
  rw [h]
  rfl

/-- The default of an option that an action hands down is what its entry holds. -/
theorem defaultAfter_handedDown (entry : Options) (key : String) :
    defaultAfter key none
        (["route", "button", "label"].map
            (fun key => .default key (Baseline.entryValue entry key .null)) ++
          [Baseline.nullableString "route", .types "button" [.null, .object],
            Baseline.nullableString "label"] ++
          Baseline.permissionRules (Baseline.entryValue entry "permissions" (.array []))) =
      (Entries.find? key handedDown).map
        (fun fallback => .fixed (Baseline.entryValue entry key fallback)) := by
  have hcases : key = "route" ∨ key = "button" ∨ key = "label" ∨ key = "permissions" ∨
      ("route" ≠ key ∧ "button" ≠ key ∧ "label" ≠ key ∧ "permissions" ≠ key) := by
    simp only [ne_eq, eq_comm (b := key)]
    by_cases h₁ : key = "route" <;> by_cases h₂ : key = "button" <;>
      by_cases h₃ : key = "label" <;> by_cases h₄ : key = "permissions" <;> simp [*]
  rcases hcases with rfl | rfl | rfl | rfl | ⟨h₁, h₂, h₃, h₄⟩
  · rfl
  · rfl
  · rfl
  · rfl
  · simp [defaultAfter, Contribution.about, Contribution.key?, Baseline.nullableString,
      Baseline.permissionRules, Baseline.normalizeBy, handedDown, Entries.find?, h₁, h₂, h₃,
      h₄]

/-- What the baseline makes of an option that the entry declares. -/
theorem defaultAfter_baseline (catalog : Catalog)
    (h : (entry.bag "options").get? key = some v) :
    defaultAfter key none
        (Resolver.extensionContributions kind entry (Baseline.extension catalog)) =
      some (.fixed (declaredValue kind entry key v)) := by
  cases kind with
  | behavior =>
      show defaultAfter key none (Baseline.declaredDefaults entry) = _
      rw [defaultAfter, about_declaredDefaults h]
      rfl
  | action =>
      show defaultAfter key none (Baseline.actionOptions entry) = _
      unfold Baseline.actionOptions
      rw [defaultAfter_append, defaultAfter_handedDown, defaultAfter, about_declaredDefaults h]
      unfold declaredValue
      cases Entries.find? key handedDown <;> rfl

/-- A statement that gives an option a default. -/
def Contribution.setsDefault : Contribution → Bool
  | .default _ _ => true
  | .defaultWith _ _ => true
  | _ => false

/-- A type that gives an option no default leaves what was declared. -/
theorem defaultAfter_of_silent {cs : List Contribution} (default? : Option OptionDefault)
    (h : ∀ c ∈ cs, c.key? = some key → c.setsDefault = false) :
    defaultAfter key default? cs = default? := by
  have hsilent : ∀ c ∈ Contribution.about key cs, c.setsDefault = false := by
    intro c hc
    obtain ⟨hmem, hkey⟩ := List.mem_filter.1 hc
    exact h c hmem (by simpa using hkey)
  unfold defaultAfter
  generalize Contribution.about key cs = about at hsilent
  induction about with
  | nil => rfl
  | cons c rest ih =>
      have hc : c.onDefault default? = default? := by
        have hfalse := hsilent c List.mem_cons_self
        cases c <;> first | rfl | cases hfalse
      rw [List.foldl_cons, hc]
      exact ih (fun other hother => hsilent other (List.mem_cons_of_mem _ hother))

/-- A type whose last word about an option is a fixed default, and no object, replaces what
was declared. -/
theorem defaultAfter_of_last {cs before : List Contribution} {w : Value}
    (default? : Option OptionDefault)
    (h : Contribution.about key cs = before ++ [.default key w])
    (hw : ∀ fields, w ≠ .object fields) :
    defaultAfter key default? cs = some (.fixed w) := by
  unfold defaultAfter
  rw [h, List.foldl_append]
  generalize before.foldl Contribution.onDefault default? = previous
  rcases previous with _ | (_ | _)
  · rfl
  · exact congrArg (fun u => some (OptionDefault.fixed u)) (Value.overlay_of_right _ hw)
  · rfl

/-- Without extensions the type speaks last about the default of an option. -/
theorem default?_attachmentSchema (hextensions : r.extensions = [])
    (h : (entry.bag "options").get? key = some v) :
    (r.attachmentSchema kind entry).default? key =
      defaultAfter key (some (.fixed (declaredValue kind entry key v)))
        (r.typeContributions kind entry) := by
  unfold Resolver.attachmentSchema
  rw [Schema.default?_extend, hextensions, List.flatMap_nil, List.append_nil,
    defaultAfter_append]
  show defaultAfter key (defaultAfter key none _) _ = _
  rw [defaultAfter_baseline r.catalog h]

/-- What an option is resolved to that an entry declares: what the resource gives, or else
the default that the type makes of the declared value. -/
theorem get?_attachmentAnswer {resource name : String} (hextensions : r.extensions = [])
    (hschema : r.schemaInForce t kind name entry = r.attachmentSchema kind entry)
    (hdeclared : (entry.bag "options").get? key = some v)
    (hnormal : (r.attachmentSchema kind entry).normalizers key = [])
    (hanswer : r.attachmentAnswer t kind resource name entry raw = .ok resolved) :
    resolved.get? key = (raw.get? key).or
      (Schema.valueOf ((r.attachmentSchema kind entry).withFixedDefaults raw)
        (defaultAfter key (some (.fixed (declaredValue kind entry key v)))
          (r.typeContributions kind entry))) := by
  have hresolve : (r.attachmentSchema kind entry).resolve raw = .ok resolved := by
    rw [← hschema]
    exact Resolver.attachmentAnswer_eq_ok.1 hanswer
  rw [Schema.get?_of_resolve hresolve hnormal, Schema.get?_complete,
    default?_attachmentSchema hextensions hdeclared]

/-- How an option that an entry declares is resolved without extensions, when its schema
has no normalizer for the option.  What the resource gives counts over everything.
Otherwise the option gets the default that the type makes of the declared value: the
declared value itself if the type gives no default, and the default of the type if that is
its last word and no object. -/
theorem attachment_layers {resource name : String} (hextensions : r.extensions = [])
    (hschema : r.schemaInForce t kind name entry = r.attachmentSchema kind entry)
    (hdeclared : (entry.bag "options").get? key = some v)
    (hnormal : (r.attachmentSchema kind entry).normalizers key = [])
    (hanswer : r.attachmentAnswer t kind resource name entry raw = .ok resolved) :
    (∀ given, raw.get? key = some given → resolved.get? key = some given) ∧
    (raw.get? key = none →
      resolved.get? key =
        Schema.valueOf ((r.attachmentSchema kind entry).withFixedDefaults raw)
          (defaultAfter key (some (.fixed (declaredValue kind entry key v)))
            (r.typeContributions kind entry)) ∧
      ((∀ c ∈ r.typeContributions kind entry, c.key? = some key → c.setsDefault = false) →
        resolved.get? key = some (declaredValue kind entry key v) ∧
        (kind = .behavior ∨ Entries.find? key handedDown = none ∨
          (∀ fields, v ≠ .object fields) → resolved.get? key = some v)) ∧
      ∀ before w, Contribution.about key (r.typeContributions kind entry) =
          before ++ [.default key w] → (∀ fields, w ≠ .object fields) →
        resolved.get? key = some w) := by
  have hget := get?_attachmentAnswer hextensions hschema hdeclared hnormal hanswer
  constructor
  · intro given hgiven
    rw [hget, hgiven, Option.some_or]
  · intro habsent
    rw [habsent, Option.none_or] at hget
    refine ⟨hget, fun hsilent => ?_, fun before w hlast hw => ?_⟩
    · rw [defaultAfter_of_silent _ hsilent] at hget
      refine ⟨hget, fun hplain => ?_⟩
      rw [declaredValue_eq_self hplain] at hget
      exact hget
    · rw [defaultAfter_of_last _ hlast hw] at hget
      exact hget

namespace Wall

/-- The type of a view has a default for the layout of its attachments. -/
def resolver : Resolver :=
  Resolver.ofCatalog (Catalog.empty.registerAction
    { name := "wall::View", contributions := [.default "layout" (.string "narrow")] })

/-- The entry declares a layout too, and a number of columns. -/
def view : Options :=
  SortedMap.ofList [("class", .string "wall::View"),
    ("options", .object (SortedMap.ofList [
      ("layout", .string "wide"), ("columns", .string "three")]))]

/-- The tables after the entry is resolved. -/
def asked : SchemaTables :=
  resolver.tablesAfterKind .empty .action

/-- Nothing is kept yet about any attachment. -/
theorem schemaInForce_asked (entry : Options) :
    resolver.schemaInForce asked .action "view" entry = resolver.attachmentSchema .action entry :=
  Resolver.schemaInForce_of_get?_eq_none entry (by
    rw [asked, Resolver.attachments_tablesAfterKind]
    rfl)

/-- The entry is resolved, and attached without options. -/
def run : Resolution (Options × Options) := do
  let entry ← resolver.resolveEntry .action "view" view
  let resolved ← resolver.resolveAttachment .action "post" "view" entry ∅
  return (entry, resolved)

/-- The entry declares both options, and no normalizer changes them. -/
def declares (result : Options × Options) : Bool :=
  (result.1.bag "options").str? "layout" == some "wide" &&
    ((result.1.bag "options").str? "columns" == some "three" &&
      (result.1.str? "class" == some "wall::View" &&
        (((resolver.attachmentSchema .action result.1).normalizers "layout").isEmpty &&
          ((resolver.attachmentSchema .action result.1).normalizers "columns").isEmpty)))

end Wall

/-- A run of the wall, with what the entry declares. -/
theorem wall_run :
    ∃ entry resolved, Wall.resolver.entryAnswer .empty .action "view" Wall.view = .ok entry ∧
      Wall.resolver.attachmentAnswer Wall.asked .action "post" "view" entry ∅ =
        .ok resolved ∧
      Wall.resolver.typeContributions .action entry =
        [.default "layout" (.string "narrow")] ∧
      (entry.bag "options").get? "layout" = some (.string "wide") ∧
      (entry.bag "options").get? "columns" = some (.string "three") ∧
      (Wall.resolver.attachmentSchema .action entry).normalizers "layout" = [] ∧
      (Wall.resolver.attachmentSchema .action entry).normalizers "columns" = [] := by
  obtain ⟨⟨entry, resolved⟩, t', h, htest⟩ := Resolution.returns_of_any
    (x := Wall.run) (t := .empty) (p := Wall.declares) (by decide +kernel)
  obtain ⟨entry', t, hentry, hrest⟩ := Resolution.returns_bind.1 h
  obtain ⟨resolved', t₂, hresolved, hlast⟩ := Resolution.returns_bind.1 hrest
  obtain ⟨heq, rfl⟩ := Resolution.returns_pure.1 hlast
  obtain ⟨rfl, rfl⟩ := Prod.mk.inj heq
  obtain ⟨hanswer, rfl⟩ := Resolver.returns_resolveEntry.1 hentry
  simp only [Wall.declares, Bool.and_eq_true, beq_iff_eq, List.isEmpty_iff] at htest
  obtain ⟨hlayout, hcolumns, hclass, hnone, hnone'⟩ := htest
  refine ⟨entry, resolved, hanswer, (Resolver.returns_resolveAttachment.1 hresolved).1, ?_,
    Options.get?_of_str? hlayout, Options.get?_of_str? hcolumns, hnone, hnone'⟩
  unfold Resolver.typeContributions
  rw [hclass]
  rfl

theorem attachment_layers_wall :
    ∃ entry resolved, Wall.resolver.entryAnswer .empty .action "view" Wall.view = .ok entry ∧
      Wall.resolver.attachmentAnswer Wall.asked .action "post" "view" entry ∅ =
        .ok resolved ∧
      (entry.bag "options").get? "layout" = some (.string "wide") ∧
      resolved.get? "layout" = some (.string "narrow") ∧
      resolved.get? "columns" = some (.string "three") := by
  obtain ⟨entry, resolved, hentry, hanswer, htype, hlayout, hcolumns, hnone, hnone'⟩ :=
    wall_run
  have hschema := Wall.schemaInForce_asked entry
  obtain ⟨-, habsent⟩ := attachment_layers rfl hschema hlayout hnone hanswer
  obtain ⟨-, habsent'⟩ := attachment_layers rfl hschema hcolumns hnone' hanswer
  refine ⟨entry, resolved, hentry, hanswer, hlayout, ?_, ?_⟩
  · refine (habsent rfl).2.2 [] (.string "narrow") ?_ (fun fields => nofun)
    rw [htype]
    rfl
  · refine ((habsent' rfl).2.1 (fun c hc => ?_)).2 (Or.inr (Or.inr (fun fields => nofun)))
    rw [htype, List.mem_singleton] at hc
    subst hc
    exact fun hkey => absurd hkey (by decide)

/-- What an entry declares does not count over the default of the type. -/
theorem declared_layout_replaced :
    ¬ ∀ (r : Resolver) (t : SchemaTables) (kind : AttachmentKind) (resource name : String)
        (raw entry given resolved : Options) (key : String) (v : Value),
      r.extensions = [] →
      r.entryAnswer .empty kind.kind name raw = .ok entry →
      r.schemaInForce t kind name entry = r.attachmentSchema kind entry →
      (entry.bag "options").get? key = some v →
      (r.attachmentSchema kind entry).normalizers key = [] →
      given.get? key = none →
      r.attachmentAnswer t kind resource name entry given = .ok resolved →
      resolved.get? key = some v := by
  intro halways
  obtain ⟨entry, resolved, hentry, hanswer, htype, hlayout, -, hnone, -⟩ := wall_run
  have hschema := Wall.schemaInForce_asked entry
  have hwide := halways Wall.resolver Wall.asked .action "post" "view" Wall.view entry ∅
    resolved "layout" (.string "wide") rfl hentry hschema hlayout hnone rfl hanswer
  have hlast : Contribution.about "layout" (Wall.resolver.typeContributions .action entry) =
      [] ++ [.default "layout" (.string "narrow")] := by
    rw [htype]
    rfl
  rw [get?_attachmentAnswer rfl hschema hlayout hnone hanswer,
    defaultAfter_of_last _ hlast (fun fields => nofun)] at hwide
  have hsame : some "narrow" = some "wide" := congrArg (Option.bind · Value.str?) hwide
  exact absurd hsame (by decide)

end ConfigCompiler
