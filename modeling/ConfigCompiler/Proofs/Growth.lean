import ConfigCompiler.Compile.Compiled
import ConfigCompiler.Proofs.EntrySets
import ConfigCompiler.Proofs.KeptSchemas

/-!
# What attaching changes in a draft

While the attachments of resources are worked out a draft gains discovered types and
the resources get other options.  Everything else stays.

**Relations.**  `Widens d d'`: what is stored stays stored.  `Changes kinds names keys d d'`:
only types of `kinds` were discovered, and only the options `keys` of the resources `names`
were replaced.  `Advance` adds what the schema tables gained on the way.

**Predicate.**  `AttachesOnly p d kind resource`: the resource holds its attachments
under stored names, and the entries of these names have the property `p`.

**Results.**
* `register_eq_ok`, `register_widens`, `discover_returns`: what storing an entry does.
* `Advance.canonicalName`: the name of a key is stored, and finding it is an advance.
* `Advance.trans`, `Advance.mono`, `Changes.resource_eq`: advances compose, and a
  resource outside them is left alone.
-/

namespace ConfigCompiler

section Options

variable {config other : Options} {kind : AttachmentKind} {attached : Attachments}

theorem attachmentsOf_congr
    (h : config.get? kind.optionName = other.get? kind.optionName) :
    attachmentsOf config kind = attachmentsOf other kind := by
  simp [attachmentsOf, Options.bag, h]

/-- An object of bags is read as it was written. -/
theorem attachmentsOf_of_get?
    (h : config.get? kind.optionName = some (.object (attached.map Value.object))) :
    attachmentsOf config kind = attached := by
  apply SortedMap.ext_get?
  intro key
  simp only [attachmentsOf, Options.bag, h, Option.bind_some, Value.fields?_object,
    Option.getD_some, SortedMap.get?_map, Option.map_map]
  cases attached.get? key <;> simp

@[simp] theorem get?_withAttachments (config : Options) (kind : AttachmentKind)
    (attached : Attachments) (key : String) :
    (withAttachments config kind attached).get? key =
      if kind.optionName = key then some (.object (attached.map Value.object))
      else config.get? key :=
  SortedMap.get?_insert _ _ _ _

@[simp] theorem attachmentsOf_withAttachments (config : Options) (kind : AttachmentKind)
    (attached : Attachments) :
    attachmentsOf (withAttachments config kind attached) kind = attached :=
  attachmentsOf_of_get? (by simp)

end Options

namespace Draft

variable {r : Resolver} {d d' d'' : Draft} {t t' t'' : SchemaTables}
variable {kind : AttachmentKind} {kinds more : List AttachmentKind}
variable {names others keys options : List String}
variable {resource name key : String}

theorem resource_of_get? {config : Options}
    (h : d.sets.resources.configs.get? name = some config) :
    d.resource name = config := by
  simp [Draft.resource, h]

theorem get?_resource (h : d.sets.resources.configs.contains name = true) :
    d.sets.resources.configs.get? name = some (d.resource name) := by
  obtain ⟨config, hconfig⟩ := SortedMap.exists_of_contains h
  rw [resource_of_get? hconfig, hconfig]

@[simp] theorem resource_putResource (d : Draft) (name other : String) (config : Options) :
    (d.putResource name config).resource other =
      if name = other then config else d.resource other := by
  simp only [Draft.resource, putResource, SortedMap.get?_insert]
  split <;> rfl

@[simp] theorem attachable_putResource (d : Draft) (name : String) (config : Options)
    (kind : AttachmentKind) :
    (d.putResource name config).attachable kind = d.attachable kind := by
  cases kind <;> rfl

/-- The actions and behaviors of the first draft are those of the second, or fewer. -/
def Widens (d d' : Draft) : Prop :=
  ∀ kind, (d.attachable kind).Extends (d'.attachable kind)

theorem Widens.refl (d : Draft) : Widens d d := fun _ => EntrySet.Extends.refl _

theorem Widens.trans (h : Widens d d') (h' : Widens d' d'') : Widens d d'' :=
  fun kind => (h kind).trans (h' kind)

theorem widens_putResource (d : Draft) (name : String) (config : Options) :
    Widens d (d.putResource name config) := by
  intro kind
  rw [attachable_putResource]
  exact EntrySet.Extends.refl _

/-- Only types of `kinds` are discovered between two drafts, and only the options
`keys` of the resources `names` are replaced. -/
structure Changes (kinds : List AttachmentKind) (names keys : List String)
    (d d' : Draft) : Prop where
  extends_attachable : ∀ kind, (d.attachable kind).Extends (d'.attachable kind)
  wellFormed : ∀ kind, (d.attachable kind).WellFormed → (d'.attachable kind).WellFormed
  attachable_eq : ∀ kind, kind ∉ kinds → d'.attachable kind = d.attachable kind
  permissions_eq : d'.sets.permissions = d.sets.permissions
  namespaces_eq : d'.sets.namespaces = d.sets.namespaces
  declared_eq : d'.declaredInterfaces = d.declaredInterfaces
  aliases_eq : d'.sets.resources.aliases = d.sets.resources.aliases
  stored_eq : ∀ name,
    d'.sets.resources.configs.contains name = d.sets.resources.configs.contains name
  option_eq : ∀ name key, name ∉ names ∨ key ∉ keys →
    (d'.resource name).get? key = (d.resource name).get? key

theorem Changes.refl (kinds : List AttachmentKind) (names keys : List String) (d : Draft) :
    Changes kinds names keys d d where
  extends_attachable := fun _ => EntrySet.Extends.refl _
  wellFormed := fun _ h => h
  attachable_eq := fun _ _ => rfl
  permissions_eq := rfl
  namespaces_eq := rfl
  declared_eq := rfl
  aliases_eq := rfl
  stored_eq := fun _ => rfl
  option_eq := fun _ _ _ => rfl

theorem Changes.trans
    (h : Changes kinds names keys d d') (h' : Changes kinds names keys d' d'') :
    Changes kinds names keys d d'' where
  extends_attachable := fun kind =>
    (h.extends_attachable kind).trans (h'.extends_attachable kind)
  wellFormed := fun kind hkind => h'.wellFormed kind (h.wellFormed kind hkind)
  attachable_eq := fun kind hkind =>
    (h'.attachable_eq kind hkind).trans (h.attachable_eq kind hkind)
  permissions_eq := h'.permissions_eq.trans h.permissions_eq
  namespaces_eq := h'.namespaces_eq.trans h.namespaces_eq
  declared_eq := h'.declared_eq.trans h.declared_eq
  aliases_eq := h'.aliases_eq.trans h.aliases_eq
  stored_eq := fun name => (h'.stored_eq name).trans (h.stored_eq name)
  option_eq := fun name key hout =>
    (h'.option_eq name key hout).trans (h.option_eq name key hout)

theorem Changes.mono
    (h : Changes kinds names keys d d')
    (hkinds : kinds ⊆ more) (hnames : names ⊆ others) (hkeys : keys ⊆ options) :
    Changes more others options d d' where
  extends_attachable := h.extends_attachable
  wellFormed := h.wellFormed
  attachable_eq := fun kind hkind => h.attachable_eq kind (fun hm => hkind (hkinds hm))
  permissions_eq := h.permissions_eq
  namespaces_eq := h.namespaces_eq
  declared_eq := h.declared_eq
  aliases_eq := h.aliases_eq
  stored_eq := h.stored_eq
  option_eq := fun name key hout => h.option_eq name key
    (hout.imp (fun hn hm => hn (hnames hm)) (fun hk hm => hk (hkeys hm)))

/-- A resource outside the changes is left alone. -/
theorem Changes.resource_eq (h : Changes kinds names keys d d') (hname : name ∉ names) :
    d'.resource name = d.resource name :=
  SortedMap.ext_get? (fun key => h.option_eq name key (Or.inl hname))

/-- The names of resources stay. -/
theorem Changes.names_eq (h : Changes kinds names keys d d') :
    d'.sets.resources.names = d.sets.resources.names :=
  SortedMap.keys_eq_of_contains h.stored_eq

/-- A resource stored later was stored before, and keeps all options but those replaced. -/
theorem Changes.origin {config : Options} (h : Changes kinds names keys d d')
    (hconfig : d'.sets.resources.configs.get? name = some config) :
    name ∈ d.sets.resources.names ∧
      d.sets.resources.configs.get? name = some (d.resource name) ∧
      ∀ key, key ∉ keys → (d.resource name).get? key = config.get? key := by
  have hstored : d.sets.resources.configs.contains name = true := by
    rw [← h.stored_eq]
    exact SortedMap.contains_of_get? hconfig
  refine ⟨(SortedMap.mem_keys_iff _ _).2 hstored, get?_resource hstored, fun key hkey => ?_⟩
  rw [← h.option_eq name key (Or.inr hkey), resource_of_get? hconfig]

/-- New options for a stored resource. -/
theorem changes_putResource {config : Options}
    (hstored : d.sets.resources.configs.contains name = true)
    (hconfig : ∀ key, key ∉ keys → config.get? key = (d.resource name).get? key) :
    Changes kinds [name] keys d (d.putResource name config) where
  extends_attachable := widens_putResource d name config
  wellFormed := fun kind h => by rwa [attachable_putResource]
  attachable_eq := fun kind _ => attachable_putResource d name config kind
  permissions_eq := rfl
  namespaces_eq := rfl
  declared_eq := rfl
  aliases_eq := rfl
  stored_eq := fun other => by
    by_cases hname : name = other
    · subst hname
      simp [putResource, hstored]
    · simp [putResource, hname]
  option_eq := fun other key hout => by
    rw [resource_putResource]
    split
    · next hname =>
        subst hname
        exact hconfig key (hout.resolve_left (fun hn => hn List.mem_cons_self))
    · rfl

/-- Between two drafts only what `Changes` allows was changed, and the schema tables
gained at most the schemas of stored entries. -/
structure Advance (r : Resolver) (kinds : List AttachmentKind) (names keys : List String)
    (d : Draft) (t : SchemaTables) (d' : Draft) (t' : SchemaTables) : Prop where
  changes : Changes kinds names keys d d'
  kept : r.KeptFor (fun kind => (d'.attachable kind).configs) t t'

theorem Advance.refl (r : Resolver) (kinds : List AttachmentKind) (names keys : List String)
    (d : Draft) (t : SchemaTables) : Advance r kinds names keys d t d t :=
  ⟨Changes.refl kinds names keys d, Resolver.KeptFor.refl _ _ _⟩

theorem Advance.trans
    (h : Advance r kinds names keys d t d' t') (h' : Advance r kinds names keys d' t' d'' t'') :
    Advance r kinds names keys d t d'' t'' where
  changes := h.changes.trans h'.changes
  kept := (h.kept.mono (fun kind => (h'.changes.extends_attachable kind).configs)).trans h'.kept

theorem Advance.mono
    (h : Advance r kinds names keys d t d' t')
    (hkinds : kinds ⊆ more) (hnames : names ⊆ others) (hkeys : keys ⊆ options) :
    Advance r more others options d t d' t' :=
  ⟨h.changes.mono hkinds hnames hkeys, h.kept⟩

/-- An advance that discovers nothing goes with any other. -/
theorem Advance.trans_nil
    (h : Advance r kinds names keys d t d' t') (h' : Advance r [] names keys d' t' d'' t'') :
    Advance r kinds names keys d t d'' t'' :=
  h.trans (h'.mono (List.nil_subset _) (List.Subset.refl _) (List.Subset.refl _))

/-- Questions about stored entries are an advance of their own. -/
theorem Advance.of_kept
    (h : r.KeptFor (fun kind => (d.attachable kind).configs) t t') :
    Advance r kinds names keys d t d t' :=
  ⟨Changes.refl kinds names keys d, h⟩

/-- An advance ends with new options for a stored resource. -/
theorem Advance.putResource {config : Options}
    (h : Advance r kinds [] [] d t d' t')
    (hstored : d.sets.resources.configs.contains name = true)
    (hconfig : ∀ key, key ∉ keys → config.get? key = (d.resource name).get? key) :
    Advance r kinds [name] keys d t (d'.putResource name config) t' where
  changes := by
    refine (h.changes.mono (List.Subset.refl kinds) (List.nil_subset [name])
      (List.nil_subset keys)).trans (changes_putResource ?_ ?_)
    · rw [h.changes.stored_eq, hstored]
    · intro key hkey
      rw [h.changes.resource_eq List.not_mem_nil]
      exact hconfig key hkey
  kept := h.kept.mono (fun kind name entry hentry => by
    rwa [attachable_putResource])

/-- Storing an entry adds it to the set of its kind, under its name. -/
theorem register_eq_ok {kind : EntityKind} {resolved : Options} {interfaces : List String}
    (h : d.register kind key resolved interfaces = .ok (name, d')) :
    ∃ set collisions,
      d' = { d with sets := d.sets.set kind set, collisions := collisions } ∧
      name = Resolver.entryName resolved key ∧
      (d.sets.get kind).configs.contains name = false ∧
      set.configs = (d.sets.get kind).configs.insert name resolved ∧
      (d.sets.get kind).Extends set ∧
      ((d.sets.get kind).WellFormed → set.WellFormed) := by
  unfold register at h
  obtain ⟨inserted, hinsert, h⟩ := Resolution.check_bind.1 h
  obtain ⟨hfree, hinserted⟩ := EntrySet.insert_eq_ok.1 hinsert
  obtain ⟨rfl, rfl⟩ := Prod.mk.inj (Resolution.check_pure.1 h)
  refine ⟨(inserted.addAliases kind _ (claims kind key resolved interfaces)).1, _,
    rfl, rfl, hfree, ?_, ?_, ?_⟩
  · rw [EntrySet.addAliases_configs, hinserted]
  · have hset : (d.sets.get kind).Extends inserted := by
      rw [hinserted]
      exact EntrySet.extends_insert hfree
    exact hset.trans (EntrySet.extends_addAliases _ _ _ _)
  · intro hwell
    have hset : inserted.WellFormed := by
      rw [hinserted]
      refine hwell.insert (fun own hown => ?_)
      simp [Resolver.entryName, hown]
    exact hset.addAliases _ (by simp [hinserted])

theorem register_widens {kind : EntityKind} {resolved : Options} {interfaces : List String}
    (h : d.register kind key resolved interfaces = .ok (name, d')) : Widens d d' := by
  obtain ⟨set, collisions, rfl, -, -, -, hextends, -⟩ := register_eq_ok h
  intro other
  show (d.sets.get other.kind).Extends ((d.sets.set kind set).get other.kind)
  rw [PerKind.get_set]
  split
  · next heq => exact heq ▸ hextends
  · exact EntrySet.Extends.refl _

/-- A registered action or behavior changes the set of its kind only. -/
theorem register_changes {resolved : Options}
    (h : d.register kind.kind key resolved [] = .ok (name, d')) :
    Changes [kind] [] [] d d' ∧ (d'.attachable kind).configs.contains name = true := by
  have hwidens := register_widens h
  obtain ⟨set, collisions, rfl, -, -, hconfigs, -, hwell⟩ := register_eq_ok h
  have hattachable : ∀ other, (d.sets.set kind.kind set).get other.kind =
      if kind = other then set else d.attachable other := by
    intro other
    rw [PerKind.get_set]
    cases kind <;> cases other <;> rfl
  refine ⟨⟨hwidens, fun other hother => ?_, fun other hother => ?_,
    ?_, ?_, rfl, ?_, fun _ => ?_, fun _ _ _ => ?_⟩, ?_⟩
  · show ((d.sets.set kind.kind set).get other.kind).WellFormed
    rw [hattachable]
    split
    · next heq =>
        subst heq
        exact hwell hother
    · exact hother
  · have hne : kind ≠ other := fun heq => hother (heq ▸ List.mem_cons_self)
    exact (hattachable other).trans (if_neg hne)
  · cases kind <;> rfl
  · cases kind <;> rfl
  · cases kind <;> rfl
  · cases kind <;> rfl
  · cases kind <;> rfl
  · show ((d.sets.set kind.kind set).get kind.kind).configs.contains name = true
    simp [hconfigs]

/-- A discovered type is resolved and stored as an entry of its own. -/
theorem discover_returns
    (h : (d.discover r kind key).Returns t (name, d') t') :
    ∃ raw store resolved, d.store.add kind.kind key ∅ = .ok (raw, store) ∧
      (r.resolveEntry kind.kind key raw).Returns t resolved t' ∧
      ({ d with store := store }).register kind.kind key resolved [] = .ok (name, d') := by
  unfold discover at h
  obtain ⟨⟨raw, store⟩, t₁, h₁, hrest⟩ := Resolution.returns_bind.1 h
  obtain ⟨hadd, rfl⟩ := Resolution.returns_lift.1 h₁
  obtain ⟨resolved, t₂, hresolve, h₂⟩ := Resolution.returns_bind.1 hrest
  obtain ⟨hregister, rfl⟩ := Resolution.returns_lift.1 h₂
  exact ⟨raw, store, resolved, hadd, hresolve, hregister⟩

theorem Advance.discover
    (h : (d.discover r kind key).Returns t (name, d') t') :
    Advance r [kind] [] [] d t d' t' ∧ (d'.attachable kind).configs.contains name = true := by
  obtain ⟨raw, store, resolved, -, hresolve, hregister⟩ := discover_returns h
  obtain ⟨hchanges, hname⟩ := register_changes hregister
  -- the raw entries are no part of what `Changes` compares
  have hstore : Changes [kind] [] [] d { d with store := store } :=
    ⟨fun _ => EntrySet.Extends.refl _, fun _ hwell => hwell, fun _ _ => rfl,
      rfl, rfl, rfl, rfl, fun _ => rfl, fun _ _ _ => rfl⟩
  exact ⟨⟨hstore.trans hchanges, Resolver.KeptFor.resolveEntry hresolve⟩, hname⟩

/-- A key that leads to a name is replaced by it, and nothing changes. -/
theorem ask_canonicalName (hkey : (d.attachable kind).canonical? key = some name) :
    (d.canonicalName r kind resource key).ask t = (.ok (name, d), t) := by
  unfold canonicalName
  rw [hkey]
  rfl

/-- The name of a key is stored, and finding it is an advance. -/
theorem Advance.canonicalName
    (h : (d.canonicalName r kind resource key).Returns t (name, d') t') :
    Advance r [kind] [] [] d t d' t' ∧ (d'.attachable kind).configs.contains name = true := by
  unfold Draft.canonicalName at h
  split at h
  · next hkey =>
      obtain ⟨heq, rfl⟩ := Resolution.returns_pure.1 h
      obtain ⟨rfl, rfl⟩ := Prod.mk.inj heq
      exact ⟨Advance.refl r _ _ _ _ _, EntrySet.contains_of_canonical? hkey⟩
  · split at h
    · exact Advance.discover h
    · exact (Resolution.returns_throw.1 h).elim

/-- The entry of an attached name that is stored. -/
theorem attachedEntry_of_stored {entry : Options}
    (h : (d.attachable kind).configs.get? name = some entry) :
    d.attachedEntry kind resource name = .ok entry := by
  simp [attachedEntry, EntrySet.get?_of_stored h]

/-- The attachments stand under stored names, whose entries have the property `p`. -/
def EntriesSatisfy (p : Options → Prop) (d : Draft) (kind : AttachmentKind)
    (attached : Attachments) : Prop :=
  ∀ name, attached.contains name = true →
    ∃ entry, (d.attachable kind).configs.get? name = some entry ∧ p entry

/-- A resource holds an object of bags, under stored names whose entries have the
property `p`. -/
def AttachesOnly (p : Options → Prop) (d : Draft) (kind : AttachmentKind)
    (resource : String) : Prop :=
  ∃ attached, (d.resource resource).get? kind.optionName =
      some (.object (attached.map Value.object)) ∧
    EntriesSatisfy p d kind attached

section Attached

variable {p : Options → Prop} {attached : Attachments} {bag entry : Options}

theorem EntriesSatisfy.empty : EntriesSatisfy p d kind ∅ := by
  intro name hname
  simp [SortedMap.contains] at hname

theorem EntriesSatisfy.insert
    (h : EntriesSatisfy p d kind attached)
    (hentry : (d.attachable kind).configs.get? name = some entry) (hp : p entry) :
    EntriesSatisfy p d kind (attached.insert name bag) := by
  intro other hother
  by_cases hname : name = other
  · subst hname
    exact ⟨entry, hentry, hp⟩
  · exact h other (by simpa [hname] using hother)

theorem EntriesSatisfy.mono {q : Options → Prop} (h : EntriesSatisfy p d kind attached)
    (himp : ∀ entry, p entry → q entry) : EntriesSatisfy q d kind attached := by
  intro name hname
  obtain ⟨entry, hentry, hp⟩ := h name hname
  exact ⟨entry, hentry, himp entry hp⟩

/-- Growth does no harm to what is attached. -/
theorem EntriesSatisfy.extends
    (h : EntriesSatisfy p d kind attached)
    (hextends : (d.attachable kind).Extends (d'.attachable kind)) :
    EntriesSatisfy p d' kind attached := by
  intro name hname
  obtain ⟨entry, hentry, hp⟩ := h name hname
  exact ⟨entry, hextends.configs name entry hentry, hp⟩

theorem AttachesOnly.entriesSatisfy (h : AttachesOnly p d kind resource) :
    EntriesSatisfy p d kind (attachmentsOf (d.resource resource) kind) := by
  obtain ⟨attached, hget, hattached⟩ := h
  rwa [attachmentsOf_of_get? hget]

/-- Changes elsewhere do no harm to what is attached. -/
theorem AttachesOnly.changes
    (h : AttachesOnly p d kind resource) (hchanges : Changes kinds names keys d d')
    (hout : resource ∉ names ∨ kind.optionName ∉ keys) :
    AttachesOnly p d' kind resource := by
  obtain ⟨attached, hget, hattached⟩ := h
  refine ⟨attached, ?_, hattached.extends (hchanges.extends_attachable kind)⟩
  rw [hchanges.option_eq resource kind.optionName hout, hget]

/-- What was just put into a resource is attached. -/
theorem AttachesOnly.putResource {config : Options}
    (h : EntriesSatisfy p d kind attached) :
    AttachesOnly p (d.putResource resource (withAttachments config kind attached))
      kind resource :=
  ⟨attached, by simp, h.extends (widens_putResource d resource _ kind)⟩

end Attached

end Draft
end ConfigCompiler
