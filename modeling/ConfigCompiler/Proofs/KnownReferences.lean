import ConfigCompiler.Lookup.Registries
import ConfigCompiler.Proofs.AliasLookups
import ConfigCompiler.Proofs.CompiledEntries
import ConfigCompiler.Proofs.ContributedOptions
import ConfigCompiler.Proofs.Integrity
import ConfigCompiler.Proofs.KindFields
import ConfigCompiler.Proofs.LocalContributions
import ConfigCompiler.Proofs.PreloadedRecords
import ConfigCompiler.Proofs.RecordLayouts
import ConfigCompiler.Proofs.RequiredPermissions

/-!
# References of records

A compiled resource refers to stored entries only.  Its record is built from more than the
stored resource: the defaults of the kind are laid under it, and nobody looks at what they
refer to.

**Paths.**  `OnlyDefaults defaults entry path`: the entry says nothing about what stands at
the path, and the defaults do.

**Property.**  `KnownReferences R entry`: what a stored resource refers to is known to the
registries `R`.

**Results.**
* `knownReferences_of_compile`: the resources of a compiled configuration.
* `references_known`: the records that are handed out.
* `ghost_referenced`: the defaults may refer to an action that does not exist.
-/

namespace ConfigCompiler

/-- Only the defaults say what stands at the path. -/
def OnlyDefaults (defaults entry : Options) (path : List String) : Prop :=
  (Value.object entry).at? path = none ∧ ((Value.object defaults).at? path).isSome = true

variable {defaults entry options : Options} {key name : String} {path : List String}

/-- What stands in a merged bag stands in the entry, or only the defaults say so. -/
theorem at?_merge {x : Value}
    (h : (Value.object (Options.merge defaults entry)).at? path = some x) :
    (∃ y, (Value.object entry).at? path = some y ∧ (x.fields? = none → y = x)) ∨
      OnlyDefaults defaults entry path := by
  rw [← Value.overlay_object_object] at h
  rcases Value.at?_overlay h with hentry | ⟨hsilent, hdefaults⟩
  · exact Or.inl hentry
  · exact Or.inr ⟨hsilent, Option.isSome_iff_exists.2 ⟨x, hdefaults⟩⟩

section Fields

open Record Resolution

theorem at?_singleton : (Value.object options).at? [key] = options.get? key := by
  rw [Value.at?_object]
  cases options.get? key <;> rfl

/-- A text that was read stands there. -/
theorem get?_of_text {t : String} (h : text.read options key = .ok t) :
    options.get? key = some (.string t) := by
  rcases (FieldSort.read_eq_ok_iff (s := .text)).1 h with ⟨v, hv, hholds⟩ | ⟨-, habsent⟩
  · cases hholds
    exact hv
  · cases habsent

/-- A text that was read where there may be none stands there. -/
theorem get?_of_optionalText {t : String} (h : optionalText.read options key = .ok (some t)) :
    options.get? key = some (.string t) := by
  rcases (FieldSort.read_eq_ok_iff (s := .optionalText)).1 h with ⟨v, hv, hholds⟩ | ⟨-, habsent⟩
  · cases hholds
    exact hv
  · cases habsent

/-- A bag that was read stands there. -/
theorem at?_of_bags {m : SortedMap Options} {bag : Options} (h : bags.read options key = .ok m)
    (hbag : m.get? name = some bag) :
    (Value.object options).at? [key, name] = some (.object bag) := by
  rcases (FieldSort.read_eq_ok_iff (s := .bags)).1 h with ⟨v, hv, hholds⟩ | ⟨-, habsent⟩
  · cases hholds
    rw [Value.at?_object, hv, Option.bind_some, at?_singleton, SortedMap.get?_map, hbag,
      Option.map_some]
  · cases habsent
    cases hbag

end Fields

/-- What a stored resource refers to is known. -/
structure KnownReferences (R : Registries) (entry : Options) : Prop where
  hasNamespace : (entry.get? "namespace").isSome = true
  namespaces : ∀ reference, entry.str? "namespace" = some reference →
    R.namespaces.has reference = true
  parents : ∀ parent, entry.str? "parent" = some parent →
    R.resources.registry.has parent = true
  actions : ∃ attached, entry.get? "actions" = some (.object attached) ∧
    ∀ action, attached.contains action = true → R.actions.has action = true
  behaviors : ∃ attached, entry.get? "behaviors" = some (.object attached) ∧
    ∀ behavior, attached.contains behavior = true → R.behaviors.has behavior = true
  permissions : ∃ required, entry.get? "permissions" = some (.strings required) ∧
    ∀ permission ∈ required, R.permissions.has permission = true
  actionPermissions : ∀ permission ∈ Draft.actionPermissions (attachmentsOf entry .action),
    R.permissions.has permission = true

section Compiled

variable {r : Resolver} {time : Timestamp} {store : EntryStore} {t t' : SchemaTables}
variable {compiled : Compiled} {collisions : List AliasCollision}

/-- What the baseline requires, no extension makes optional. -/
theorem requires_kindSchema (r : Resolver) {kind : EntityKind}
    (hkey : key ∈ requiredOptions kind) : (r.kindSchema kind).schema.requires key = true := by
  obtain ⟨rule, hrule, hrequired⟩ := required_rule r.catalog kind key hkey
  have hbaseline : (r.baselineSchema kind).requires key = true := by
    show Option.any _ ((Schema.empty.extend _).rules.get? key) = true
    rw [rule?_extend_empty]
    exact (congrArg (Option.any _) hrule).trans hrequired
  rw [Resolver.schema_kindSchema]
  exact Schema.requires_extend hbaseline _

/-- A compilation builds a draft and finalizes it. -/
theorem compile_phases (h : (compile r time store).Returns t (compiled, collisions) t') :
    ∃ d t₁ d', (Draft.build r store).Returns t d t₁ ∧
      (d.finalize r time).Returns t₁ (compiled, d') t' := by
  unfold compile at h
  obtain ⟨d, t₁, hbuild, hrest⟩ := Resolution.returns_bind.1 h
  obtain ⟨⟨compiled', d'⟩, t₂, hfinalize, hlast⟩ := Resolution.returns_bind.1 hrest
  obtain ⟨heq, rfl⟩ := Resolution.returns_pure.1 hlast
  obtain ⟨rfl, -⟩ := Prod.mk.inj heq
  exact ⟨d, t₁, d', hbuild, hfinalize⟩

/-- The resources of a compiled configuration refer to what its registries know. -/
theorem knownReferences_of_compile
    (hkinds : ∀ kind, r.kindInForce t kind = r.kindSchema kind)
    (h : (compile r time store).Returns t (compiled, collisions) t')
    (hentry : compiled.sets.resources.configs.get? name = some entry) :
    KnownReferences (Registries.ofCompiled compiled) entry := by
  obtain ⟨raw, resolved, hraw, hsettled⟩ := compiled_settled hkinds h hentry
  obtain ⟨d, t₁, d', hbuild, hfinalize⟩ := compile_phases h
  obtain ⟨hcoherent, hlinked⟩ := Draft.coherent_build hbuild
  obtain ⟨hsets, t₂, hfinal⟩ := Draft.finalize_returns hfinalize
  have hconsistent := hcoherent.finalizeResources hlinked hfinal
  rw [← hsets] at hconsistent
  obtain ⟨hwanted, -⟩ := Draft.permissions_of_finalize hfinalize hentry
  let R := Registries.ofCompiled compiled
  refine ⟨?_, fun reference href => ?_, fun parent hparent => ?_, ?_, ?_, ?_,
    fun permission hmem => ?_⟩
  · rw [hsettled.kept "namespace" (by decide)]
    have hrequires := requires_kindSchema r
      (show "namespace" ∈ requiredOptions .resource by decide)
    obtain ⟨rule, hrule, hrequired⟩ := (Option.any_eq_true _ _).1 hrequires
    exact Schema.isSome_of_required hraw hrule hrequired
  · exact R.namespaces.has_of_contains (hconsistent.namespaces name entry reference hentry href)
  · exact R.resources.registry.has_of_contains
      (hconsistent.parents name entry parent hentry hparent)
  · obtain ⟨attached, hget, hall⟩ := hconsistent.actions name entry hentry
    refine ⟨attached, hget, fun action haction => ?_⟩
    obtain ⟨config, hconfig, -⟩ := hall action haction
    exact R.actions.has_of_contains (SortedMap.contains_of_get? hconfig)
  · obtain ⟨attached, hget, hall⟩ := hconsistent.behaviors name entry hentry
    exact ⟨attached, hget,
      fun behavior hbehavior => R.behaviors.has_of_contains (hall behavior hbehavior)⟩
  · obtain ⟨required, hget, hall⟩ := hconsistent.permissions name entry hentry
    exact ⟨required, hget,
      fun permission hmem => R.permissions.has_of_contains (hall permission hmem)⟩
  · rw [R.permissions.has_eq]
    exact Option.isSome_iff_ne_none.2 (hwanted permission hmem)

end Compiled

/-- What a record refers to is known, unless only the defaults say so. -/
structure ReferencesKnown (R : Registries) (defaults entry : Options) (record : ResourceRecord) :
    Prop where
  nameSpace : R.namespaces.has record.nameSpace = true
  permissions : ∀ permission ∈ record.permissions, R.permissions.has permission = true
  parent : ∀ parent, record.parent = some parent →
    R.resources.registry.has parent = true ∨ OnlyDefaults defaults entry ["parent"]
  actions : ∀ action, record.actions.contains action = true →
    R.actions.has action = true ∨ OnlyDefaults defaults entry ["actions", action]
  behaviors : ∀ behavior, record.behaviors.contains behavior = true →
    R.behaviors.has behavior = true ∨ OnlyDefaults defaults entry ["behaviors", behavior]
  actionPermissions : ∀ action bag, record.actions.get? action = some bag →
    ∀ permission ∈ bag.strings "permissions",
      R.permissions.has permission = true ∨
        OnlyDefaults defaults entry ["actions", action, "permissions"]

section Records

variable {R : Registries} {record : ResourceRecord}

/-- A text in a merged bag is that of the entry, or only the defaults say so. -/
theorem str?_of_merge {s : String}
    (h : (Options.merge defaults entry).get? key = some (.string s)) :
    entry.str? key = some s ∨ OnlyDefaults defaults entry [key] := by
  rw [← at?_singleton] at h
  refine (at?_merge h).imp_left (fun ⟨y, hy, hsame⟩ => ?_)
  obtain rfl := hsame (by simp [Value.fields?])
  rw [at?_singleton] at hy
  rw [Options.str?, hy, Option.bind_some, Value.str?_string]

/-- An attachment in a merged bag stands in the entry, or only the defaults say so. -/
theorem attached_of_merge {m : SortedMap Options} {attached : Options}
    (hread : Record.bags.read (Options.merge defaults entry) key = .ok m)
    (hname : m.contains name = true) (hattached : entry.get? key = some (.object attached)) :
    attached.contains name = true ∨ OnlyDefaults defaults entry [key, name] := by
  obtain ⟨bag, hbag⟩ := SortedMap.exists_of_contains hname
  refine (at?_merge (at?_of_bags hread hbag)).imp_left (fun ⟨y, hy, _⟩ => ?_)
  rw [Value.at?_object, hattached, Option.bind_some, at?_singleton] at hy
  exact SortedMap.contains_of_get? hy

/-- A list in a merged bag is that of the entry. -/
theorem texts_of_merge {required listed : List String}
    (hread : Record.texts.read (Options.merge defaults entry) key = .ok listed)
    (hrequired : entry.get? key = some (.strings required)) : listed = required := by
  have hmerged : (Options.merge defaults entry).get? key = some (.strings required) := by
    rw [Options.get?_merge, hrequired]
    cases defaults.get? key with
    | none => rfl
    | some b =>
        refine congrArg some (Value.overlay_of_right b (fun fields heq => ?_))
        have hfields := congrArg Value.fields? heq
        rw [Value.fields?_object] at hfields
        cases hfields
  rw [Record.FieldForm.read, hmerged] at hread
  exact Except.ok.inj (hread.symm.trans (Record.decodeTexts_eq_ok.2 rfl))

/-- Strings are listed by what is no object. -/
theorem get?_of_mem_strings {s : String} (h : s ∈ options.strings key) :
    ∃ v, options.get? key = some v ∧ v.fields? = none := by
  unfold Options.strings at h
  cases hget : options.get? key with
  | none => simp [hget] at h
  | some v =>
      refine ⟨v, rfl, ?_⟩
      cases hitems : v.items? with
      | none => simp [hget, hitems] at h
      | some items =>
          rw [Value.eq_array_of_items? hitems]
          simp [Value.fields?]

/-- A permission that an attached action lists is one of those that the actions require. -/
theorem mem_actionPermissions {bag : Options} {action permission : String}
    (hbag : (attachmentsOf entry .action).get? action = some bag)
    (hmem : permission ∈ bag.strings "permissions") :
    permission ∈ Draft.actionPermissions (attachmentsOf entry .action) :=
  List.mem_flatMap.2 ⟨bag, List.mem_map.2
    ⟨(action, bag), (SortedMap.mem_entries_iff _ _ _).2 hbag, rfl⟩, hmem⟩

/-- What an action of a merged bag lists, an action of the entry lists, or only the defaults
say so. -/
theorem actionPermissions_of_merge {m : SortedMap Options} {bag attached : Options}
    {action permission : String}
    (hread : Record.bags.read (Options.merge defaults entry) "actions" = .ok m)
    (hbag : m.get? action = some bag) (hmem : permission ∈ bag.strings "permissions")
    (hattached : entry.get? "actions" = some (.object attached)) :
    permission ∈ Draft.actionPermissions (attachmentsOf entry .action) ∨
      OnlyDefaults defaults entry ["actions", action, "permissions"] := by
  obtain ⟨v, hv, hfields⟩ := get?_of_mem_strings hmem
  have hmerged : (Value.object (Options.merge defaults entry)).at?
      (["actions", action] ++ ["permissions"]) = some v := by
    rw [Value.at?_append, at?_of_bags hread hbag, Option.bind_some, at?_singleton, hv]
  refine (at?_merge hmerged).imp_left (fun ⟨y, hy, hsame⟩ => ?_)
  -- the entry lists the same under the action
  obtain rfl := hsame hfields
  rw [Value.at?_append] at hy
  obtain ⟨w, hw, hlast⟩ := Option.bind_eq_some_iff.1 hy
  obtain ⟨x, hx, hxy⟩ := Option.bind_eq_some_iff.1 hlast
  obtain ⟨own, hown, hget⟩ := Option.bind_eq_some_iff.1 hx
  obtain rfl := Option.some.inj hxy
  rw [Value.at?_object, hattached, Option.bind_some, at?_singleton] at hw
  have hbag' : (attachmentsOf entry .action).get? action = some own := by
    simp [attachmentsOf, Options.bag, AttachmentKind.optionName, hattached, SortedMap.get?_map,
      hw, hown]
  refine mem_actionPermissions hbag' ?_
  rwa [Options.strings, hget, ← hv, ← Options.strings]

/-- What a record refers to is known, unless only the defaults say so. -/
theorem KnownReferences.referencesKnown (h : KnownReferences R entry)
    (hread : record.ReadFrom (Options.merge defaults entry)) :
    ReferencesKnown R defaults entry record := by
  obtain ⟨actions, hactions, hknownActions⟩ := h.actions
  obtain ⟨behaviors, hbehaviors, hknownBehaviors⟩ := h.behaviors
  obtain ⟨required, hrequired, hknownPermissions⟩ := h.permissions
  refine ⟨?_, ?_, fun parent hparent => ?_, fun action haction => ?_,
    fun behavior hbehavior => ?_, fun action bag hbag permission hmem => ?_⟩
  · rcases str?_of_merge (get?_of_text hread.nameSpace) with hentry | ⟨hsilent, -⟩
    · exact h.namespaces _ hentry
    · have hthere := h.hasNamespace
      rw [← at?_singleton, hsilent] at hthere
      cases hthere
  · rw [texts_of_merge hread.permissions hrequired]
    exact hknownPermissions
  · have hread' := hread.parent
    rw [hparent] at hread'
    exact (str?_of_merge (get?_of_optionalText hread')).imp_left (h.parents parent)
  · exact (attached_of_merge hread.actions haction hactions).imp_left (hknownActions action)
  · exact (attached_of_merge hread.behaviors hbehavior hbehaviors).imp_left
      (hknownBehaviors behavior)
  · exact (actionPermissions_of_merge hread.actions hbag hmem hactions).imp_left
      (h.actionPermissions permission)

end Records

/-- Every record that the registry of resources hands out is built from a stored resource
and the defaults under it.  What it refers to is known, unless only the defaults say so. -/
theorem references_known {r : Resolver} {time : Timestamp} {store : EntryStore}
    {t t' : SchemaTables} {compiled : Compiled} {collisions : List AliasCollision}
    (hkinds : ∀ kind, r.kindInForce t kind = r.kindSchema kind)
    (h : (compile r time store).Returns t (compiled, collisions) t') :
    let R := Registries.ofCompiled compiled
    let defaults := compiled.kindDefaults .resource
    ∀ record, R.resources.HandedOut record → ∃ key entry, ∃ made : ResourceRecord,
      compiled.sets.resources.configs.get? key = some entry ∧
      EntityRecord.construct key (Options.merge defaults entry) = .ok made ∧
      record = { made with linked := true } ∧
      ReferencesKnown R defaults entry record := by
  intro R defaults record hrecord
  have hstart : ResourceRegistry.Derived R.resources R.resources :=
    ResourceRegistry.derived_ofSet compiled.sets.resources defaults ∅
  obtain ⟨key, hat⟩ := ResourceRegistry.recordAt_of_handedOut hstart hrecord
  obtain ⟨entry, made, hentry, hmade, rfl⟩ :=
    ResourceRegistry.recordAt_ofSet ResourceRegistry.preloaded_empty hat
  have hknown := knownReferences_of_compile hkinds h hentry
  have hreferences :=
    hknown.referencesKnown (ResourceRegistry.readFrom_of_construct hmade)
  exact ⟨key, entry, made, hentry, hmade, rfl, hreferences.nameSpace, hreferences.permissions,
    hreferences.parent, hreferences.actions, hreferences.behaviors,
    hreferences.actionPermissions⟩

namespace Theatre

def catalog : Catalog := Catalog.empty.registerAction { name := "stage::Perform" }

/-- An extension that attaches a ghost to every resource. -/
def haunting : Extension where
  name := "haunting"
  ofKind := fun kind =>
    if kind = .resource then
      { defaults := [SortedMap.singleton "actions"
          (.object (SortedMap.singleton "ghost" (.object ∅)))] }
    else {}

def resolver : Resolver := ⟨catalog, [haunting], .keep⟩

/-- A play attaches an action. -/
def entries : EntryTable where
  permissions := SortedMap.singleton "enter" ∅
  actions := SortedMap.singleton "perform" (SortedMap.ofList [
    ("class", .string "stage::Perform"), ("permissions", .strings ["enter"])])
  behaviors := ∅
  namespaces := SortedMap.singleton "stage" ∅
  resources := SortedMap.singleton "play" (SortedMap.ofList [
    ("entity", .string "Play"), ("namespace", .string "stage"),
    ("actions", .strings ["perform"])])

def question : Resolution (Compiled × List AliasCollision) :=
  compile resolver ⟨0, 0, 0⟩ ⟨catalog, entries⟩

/-- The play attaches both actions, and only one of them is known. -/
def isHaunted (compiled : Compiled) : Bool :=
  let R := Registries.ofCompiled compiled
  match R.resources.registry.findAnswer "play" with
  | .ok found =>
      found.2.actions.contains "perform" && found.2.actions.contains "ghost" &&
        !R.actions.has "ghost"
  | .error _ => false

theorem haunted : ∃ compiled collisions t',
    question.Returns .empty (compiled, collisions) t' ∧ isHaunted compiled = true := by
  obtain ⟨⟨compiled, collisions⟩, t', h, htest⟩ :=
    Resolution.returns_of_any (x := question) (t := .empty) (p := fun result => isHaunted result.1)
      (by decide +kernel)
  exact ⟨compiled, collisions, t', h, htest⟩

/-- The record of the play is handed out. -/
theorem exists_play {compiled : Compiled} (h : isHaunted compiled = true) :
    ∃ record, (Registries.ofCompiled compiled).resources.HandedOut record ∧
      record.actions.contains "perform" = true ∧ record.actions.contains "ghost" = true ∧
      (Registries.ofCompiled compiled).actions.has "ghost" = false := by
  let R := Registries.ofCompiled compiled
  unfold isHaunted at h
  cases hfind : R.resources.registry.findAnswer "play" with
  | error f => simp [R, hfind] at h
  | ok found =>
      have hstart : ResourceRegistry.Derived R.resources R.resources :=
        ResourceRegistry.derived_ofSet _ _ _
      refine ⟨found.2, ResourceRegistry.handedOut_of_findAnswer hstart hfind, ?_⟩
      simpa [R, hfind, and_assoc] using h

end Theatre

theorem references_known_theatre :
    ∃ compiled collisions t', Theatre.question.Returns .empty (compiled, collisions) t' ∧
      ∃ record key entry, (Registries.ofCompiled compiled).resources.HandedOut record ∧
        record.actions.contains "perform" = true ∧ record.actions.contains "ghost" = true ∧
        compiled.sets.resources.configs.get? key = some entry ∧
        ReferencesKnown (Registries.ofCompiled compiled) (compiled.kindDefaults .resource) entry
          record := by
  obtain ⟨compiled, collisions, t', h, htest⟩ := Theatre.haunted
  obtain ⟨record, hrecord, hperform, hghost, -⟩ := Theatre.exists_play htest
  obtain ⟨key, entry, made, hentry, -, -, hreferences⟩ :=
    references_known (Resolver.kindInForce_empty Theatre.resolver) h record hrecord
  exact ⟨compiled, collisions, t', h, record, key, entry, hrecord, hperform, hghost, hentry,
    hreferences⟩

/-- An action of a record may be unknown. -/
theorem ghost_referenced :
    ¬ ∀ (r : Resolver) (time : Timestamp) (store : EntryStore) (compiled : Compiled)
      (collisions : List AliasCollision) (t' : SchemaTables),
      (compile r time store).Returns .empty (compiled, collisions) t' →
        ∀ record, (Registries.ofCompiled compiled).resources.HandedOut record →
          ∀ action, record.actions.contains action = true →
            (Registries.ofCompiled compiled).actions.has action = true := by
  intro hall
  obtain ⟨compiled, collisions, t', h, htest⟩ := Theatre.haunted
  obtain ⟨record, hrecord, -, hghost, hunknown⟩ := Theatre.exists_play htest
  have hknown := hall _ _ _ _ _ _ h record hrecord "ghost" hghost
  rw [hunknown] at hknown
  cases hknown

end ConfigCompiler
