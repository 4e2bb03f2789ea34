import ConfigCompiler.Proofs.FirstPhase
import ConfigCompiler.Proofs.SecondPhase

/-!
# Integrity of compiled configurations

Whatever a configuration is compiled from, the names that stand in the result are
stored in it.

**Property.**  `Consistent catalog sets`: namespaces, parents, actions, behaviors
and permissions of resources are stored, no action of a resource is a builder,
aliases lead to stored names, and entries stand under their own names.

**Proof.**  The first phase returns a coherent draft.  The second phase replaces
three options of each resource only, and each of the three by stored names.

**Result.**
* `compile_consistent`: every compiled configuration is consistent.
-/

namespace ConfigCompiler

/-- Everything that stands for a name in five sets of entries is stored there. -/
structure Consistent (catalog : Catalog) (sets : PerKind EntrySet) : Prop where
  namespaces : ∀ name config reference,
    sets.resources.configs.get? name = some config →
    config.str? "namespace" = some reference →
    sets.namespaces.configs.contains reference = true
  parents : ∀ name config parent,
    sets.resources.configs.get? name = some config →
    config.str? "parent" = some parent →
    sets.resources.configs.contains parent = true
  actions : ∀ name config, sets.resources.configs.get? name = some config →
    ∃ attached, config.get? "actions" = some (.object attached) ∧
      ∀ action, attached.contains action = true →
        ∃ entry, sets.actions.configs.get? action = some entry ∧
          builderOf? catalog entry = none
  behaviors : ∀ name config, sets.resources.configs.get? name = some config →
    ∃ attached, config.get? "behaviors" = some (.object attached) ∧
      ∀ behavior, attached.contains behavior = true →
        sets.behaviors.configs.contains behavior = true
  permissions : ∀ name config, sets.resources.configs.get? name = some config →
    ∃ required, config.get? "permissions" = some (.strings required) ∧
      ∀ permission ∈ required, sets.permissions.configs.contains permission = true
  aliases : ∀ kind claimed target, (sets.get kind).aliases.get? claimed = some target →
    (sets.get kind).configs.contains target = true
  names : ∀ kind name entry own, (sets.get kind).configs.get? name = some entry →
    entry.str? "name" = some own → own = name

namespace Draft

variable {r : Resolver} {d d' : Draft} {t t' : SchemaTables}
variable {names keys : List String} {kinds : List AttachmentKind}
variable {resource name : String} {config : Options}

/-- Only stored permissions are appended to stored permissions. -/
theorem requirePermission_stored {permissions : EntrySet} {listed required : List String}
    {wanted : List String}
    (hlisted : ∀ permission ∈ listed, permissions.configs.contains permission = true)
    (h : wanted.foldlM (requirePermission permissions resource) listed = .ok required) :
    ∀ permission ∈ required, permissions.configs.contains permission = true := by
  refine Resolution.check_foldlM_induction
    (P := fun required => ∀ permission ∈ required,
      permissions.configs.contains permission = true)
    (fun permission _ s s' hs hstep => ?_) h hlisted
  unfold requirePermission at hstep
  split at hstep
  · cases hstep
  · next canonical hcanonical =>
      cases hstep
      have hstored := EntrySet.contains_of_canonical? hcanonical
      split
      · exact hs
      · intro other hother
        rcases List.mem_append.1 hother with hother | hother
        · exact hs other hother
        · cases List.mem_singleton.1 hother
          exact hstored

/-- Well-formed sets stay well-formed while no `name` is replaced. -/
theorem Changes.wellFormed_sets (h : Changes kinds names keys d d')
    (hkeys : "name" ∉ keys) (hwell : ∀ kind, (d.sets.get kind).WellFormed)
    (kind : EntityKind) : (d'.sets.get kind).WellFormed := by
  cases kind with
  | permission =>
      have hsame : d'.sets.get .permission = d.sets.get .permission := h.permissions_eq
      exact hsame ▸ hwell .permission
  | nameSpace =>
      have hsame : d'.sets.get .nameSpace = d.sets.get .nameSpace := h.namespaces_eq
      exact hsame ▸ hwell .nameSpace
  | action => exact h.wellFormed .action (hwell .action)
  | behavior => exact h.wellFormed .behavior (hwell .behavior)
  | resource =>
      refine ⟨fun claimed target halias => ?_, fun name config own hconfig hown => ?_⟩
      · have halias' : d.sets.resources.aliases.get? claimed = some target :=
          h.aliases_eq ▸ halias
        exact (h.stored_eq target).trans ((hwell .resource).aliases claimed target halias')
      · obtain ⟨-, hget, hsame⟩ := h.origin hconfig
        refine (hwell .resource).names name _ own hget ?_
        rw [Options.str?, hsame "name" hkeys]
        exact hown

/-- The second phase makes a coherent and linked draft consistent. -/
theorem Coherent.finalizeResources (h : d.Coherent) (hlinked : d.Linked)
    (hfinal : (d.finalizeResources r).Returns t d' t') : Consistent r.catalog d'.sets := by
  obtain ⟨d₁, hsettle, hlift⟩ := finalizeResources_returns hfinal
  obtain ⟨hadvance, hknown, hplain⟩ := Advance.settleAttachments hsettle
  obtain ⟨hadvance', -, hrequired⟩ :=
    liftPermissions_returns r hadvance.stored (nodup_names d) hlift
  have hchanges : Changes [.behavior, .action] d.sets.resources.names
      ["behaviors", "actions", "permissions"] d d' :=
    (hadvance.changes.mono (List.Subset.refl _) (List.Subset.refl _) (by simp)).trans
      (hadvance'.changes.mono (by simp) (List.Subset.refl _) (by simp))
  have hwell := hchanges.wellFormed_sets (by decide) h.wellFormed
  refine ⟨?_, ?_, ?_, ?_, ?_, ?_, ?_⟩
  · intro name config reference hconfig href
    obtain ⟨-, hget, hsame⟩ := hchanges.origin hconfig
    rw [hchanges.namespaces_eq]
    refine h.namespaces name _ reference hget ?_
    rw [Options.str?, hsame "namespace" (by decide)]
    exact href
  · intro name config parent hconfig hparent
    obtain ⟨-, hget, hsame⟩ := hchanges.origin hconfig
    rw [hchanges.stored_eq]
    refine hlinked name _ parent hget ?_
    rw [Options.str?, hsame "parent" (by decide)]
    exact hparent
  · intro name config hconfig
    obtain ⟨hname, -, -⟩ := hchanges.origin hconfig
    obtain ⟨attached, hget, hattached⟩ :=
      (hplain name hname).changes hadvance'.changes (Or.inr (by decide))
    rw [resource_of_get? hconfig] at hget
    refine ⟨_, hget, fun action haction => hattached action ?_⟩
    simpa [SortedMap.contains, SortedMap.get?_map] using haction
  · intro name config hconfig
    obtain ⟨hname, -, -⟩ := hchanges.origin hconfig
    obtain ⟨attached, hget, hattached⟩ :=
      (hknown name hname).changes hadvance'.changes (Or.inr (by decide))
    rw [resource_of_get? hconfig] at hget
    refine ⟨_, hget, fun behavior hbehavior => ?_⟩
    obtain ⟨entry, hentry, -⟩ := hattached behavior
      (by simpa [SortedMap.contains, SortedMap.get?_map] using hbehavior)
    exact SortedMap.contains_of_get? hentry
  · intro name config hconfig
    obtain ⟨hname, hget, -⟩ := hchanges.origin hconfig
    obtain ⟨required, hfold, hput⟩ := hrequired name hname
    rw [resource_of_get? hconfig] at hput
    refine ⟨required, by simp [hput], ?_⟩
    rw [hadvance'.changes.permissions_eq]
    refine requirePermission_stored (fun permission hpermission => ?_) hfold
    rw [hadvance.changes.permissions_eq]
    refine h.permissions name _ permission hget ?_
    rw [Options.strings, ← hadvance.changes.option_eq name "permissions" (Or.inr (by decide))]
    exact hpermission
  · exact fun kind claimed target => (hwell kind).aliases claimed target
  · exact fun kind name entry own => (hwell kind).names name entry own

end Draft

/-- Every compiled configuration is consistent. -/
theorem compile_consistent {r : Resolver} {time : Timestamp} {store : EntryStore}
    {t t' : SchemaTables} {compiled : Compiled} {collisions : List AliasCollision}
    (h : (compile r time store).Returns t (compiled, collisions) t') :
    Consistent r.catalog compiled.sets := by
  unfold compile at h
  obtain ⟨d, t₁, hbuild, hrest⟩ := Resolution.returns_bind.1 h
  obtain ⟨⟨compiled', d'⟩, t₂, hfinalize, hlast⟩ := Resolution.returns_bind.1 hrest
  obtain ⟨heq, -⟩ := Resolution.returns_pure.1 hlast
  obtain ⟨rfl, -⟩ := Prod.mk.inj heq
  obtain ⟨hcoherent, hlinked⟩ := Draft.coherent_build hbuild
  obtain ⟨hsets, t₃, hfinal⟩ := Draft.finalize_returns hfinalize
  rw [hsets]
  exact hcoherent.finalizeResources hlinked hfinal

namespace Shop

/-- A plain type of actions, and a builder that emits `save`. -/
def catalog : Catalog :=
  (Catalog.empty.registerAction { name := "shop::View" }).registerAction
    { name := "shop::Crud", build? := some (fun _ _ => .ok (SortedMap.singleton "save" ∅)) }

/-- One resource attaches a builder, which emits an action that requires a permission. -/
def entries : EntryTable where
  permissions := SortedMap.singleton "edit" ∅
  actions := SortedMap.ofList [
    ("crud", SortedMap.singleton "class" (.string "shop::Crud")),
    ("save", SortedMap.ofList [
      ("class", .string "shop::View"), ("permissions", .strings ["edit"])])]
  behaviors := ∅
  namespaces := SortedMap.singleton "shop" ∅
  resources := SortedMap.singleton "order" (SortedMap.ofList [
    ("entity", .string "Order"), ("namespace", .string "shop"),
    ("actions", .object (SortedMap.singleton "crud" (.object ∅)))])

def question : Resolution (Compiled × List AliasCollision) :=
  compile (Resolver.ofCatalog catalog) ⟨0, 0, 0⟩ ⟨catalog, entries⟩

end Shop

theorem compile_consistent_shop :
    ∃ compiled collisions t',
      Shop.question.Returns .empty (compiled, collisions) t' ∧
        Consistent Shop.catalog compiled.sets := by
  obtain ⟨⟨compiled, collisions⟩, t', h, -⟩ :=
    Resolution.returns_of_any (x := Shop.question) (t := .empty) (p := fun _ => true)
      (by decide +kernel)
  exact ⟨compiled, collisions, t', h, compile_consistent h⟩

end ConfigCompiler
