import ConfigCompiler.Proofs.Growth

/-!
# The first phase

Entries are resolved kind by kind, and what a resource refers to has to be there
when the resource is stored.  At last parents are replaced by stored names.

**Invariant.**  `d.Coherent`: the sets are well-formed, and the namespace and the
permissions of every resource are stored.

**Results.**
* `Coherent.resolveEntry`: one entry keeps the invariant.
* `Coherent.linkParents`: so does linking, after which parents are stored too.
* `coherent_build`: every draft that the first phase returns is coherent, and the
  parents of its resources are stored.
-/

namespace ConfigCompiler

variable {r : Resolver} {t t' : SchemaTables}

namespace Draft

variable {d d' : Draft} {key name : String} {raw resolved : Options}

/-- The sets are well-formed, and resources refer to stored namespaces and
permissions. -/
structure Coherent (d : Draft) : Prop where
  wellFormed : ∀ kind, (d.sets.get kind).WellFormed
  namespaces : ∀ name config reference,
    d.sets.resources.configs.get? name = some config →
    config.str? "namespace" = some reference →
    d.sets.namespaces.configs.contains reference = true
  permissions : ∀ name config permission,
    d.sets.resources.configs.get? name = some config →
    permission ∈ config.strings "permissions" →
    d.sets.permissions.configs.contains permission = true

theorem coherent_start (store : EntryStore) (fingerprint : String) :
    (start store fingerprint).Coherent := by
  refine ⟨fun kind => ?_, fun name config reference h => ?_, fun name config permission h => ?_⟩
  · simpa [start] using EntrySet.wellFormed_empty
  · cases h
  · cases h

/-- Storing an entry keeps the invariant, if a resource refers to what is stored. -/
theorem Coherent.register {kind : EntityKind} {interfaces : List String}
    (h : d.Coherent)
    (hnamespace : ∀ reference, kind = .resource →
      resolved.str? "namespace" = some reference →
      d.sets.namespaces.configs.contains reference = true)
    (hpermissions : ∀ permission, kind = .resource →
      permission ∈ resolved.strings "permissions" →
      d.sets.permissions.configs.contains permission = true)
    (hregister : d.register kind key resolved interfaces = .ok (name, d')) :
    d'.Coherent := by
  obtain ⟨set, collisions, rfl, -, -, hconfigs, hextends, hwell⟩ := register_eq_ok hregister
  have hgrowth : ∀ other reference,
      (d.sets.get other).configs.contains reference = true →
      ((d.sets.set kind set).get other).configs.contains reference = true := by
    intro other reference hreference
    rw [PerKind.get_set]
    split
    · next heq =>
        subst heq
        exact hextends.contains hreference
    · exact hreference
  -- a resource is either the one stored now or was there before
  have hresource : ∀ other config,
      (d.sets.set kind set).resources.configs.get? other = some config →
      (kind = .resource ∧ config = resolved) ∨
        d.sets.resources.configs.get? other = some config := by
    intro other config hother
    by_cases hkind : kind = .resource
    · subst hkind
      have hset : (set.configs).get? other = some config := hother
      rw [hconfigs, SortedMap.get?_insert] at hset
      split at hset
      · cases hset
        exact Or.inl ⟨rfl, rfl⟩
      · exact Or.inr hset
    · have hset : ((d.sets.set kind set).get .resource).configs.get? other = some config :=
        hother
      rw [PerKind.get_set_of_ne _ hkind] at hset
      exact Or.inr hset
  refine ⟨fun other => ?_, fun other config reference hother href => ?_,
    fun other config permission hother hmem => ?_⟩
  · show ((d.sets.set kind set).get other).WellFormed
    rw [PerKind.get_set]
    split
    · exact hwell (h.wellFormed kind)
    · exact h.wellFormed other
  · refine hgrowth .nameSpace reference ?_
    rcases hresource other config hother with ⟨hkind, rfl⟩ | hbefore
    · exact hnamespace reference hkind href
    · exact h.namespaces other config reference hbefore href
  · refine hgrowth .permission permission ?_
    rcases hresource other config hother with ⟨hkind, rfl⟩ | hbefore
    · exact hpermissions permission hkind hmem
    · exact h.permissions other config permission hbefore hmem

/-- A resolved resource refers to namespaces and permissions that are stored. -/
theorem resolveResource_checked {namespaces permissions : SortedMap Options}
    (h : (r.resolveResource key raw namespaces permissions).Returns t resolved t') :
    (∀ reference, resolved.str? "namespace" = some reference →
        namespaces.contains reference = true) ∧
      ∀ permission ∈ resolved.strings "permissions", permissions.contains permission = true := by
  unfold Resolver.resolveResource at h
  obtain ⟨resolved', t₁, -, hrest⟩ := Resolution.returns_bind.1 h
  obtain ⟨_, t₂, hns, hrest'⟩ := Resolution.returns_bind.1 hrest
  obtain ⟨hnamespace, -⟩ := Resolution.returns_lift.1 hns
  obtain ⟨_, t₃, hps, hlast⟩ := Resolution.returns_bind.1 hrest'
  obtain ⟨hpermissions, -⟩ := Resolution.returns_lift.1 hps
  obtain ⟨rfl, -⟩ := Resolution.returns_pure.1 hlast
  constructor
  · intro reference href
    unfold Resolver.checkNamespace at hnamespace
    rw [href] at hnamespace
    cases hstored : namespaces.contains reference with
    | true => rfl
    | false => simp [hstored] at hnamespace
  · intro permission hmem
    unfold Resolver.checkPermissions at hpermissions
    split at hpermissions
    · next hfind =>
        simpa using List.find?_eq_none.1 hfind permission hmem
    · cases hpermissions

/-- Resolving and storing an entry keeps the invariant. -/
theorem Coherent.resolveEntry {kind : EntityKind} (h : d.Coherent)
    (hresolve : (d.resolveEntry r kind key raw).Returns t d' t') : d'.Coherent := by
  cases kind with
  | resource =>
      obtain ⟨⟨interfaces, raw'⟩, t₁, -, hrest⟩ := Resolution.returns_bind.1 hresolve
      obtain ⟨resolved, t₂, hresolved, hrest'⟩ := Resolution.returns_bind.1 hrest
      obtain ⟨⟨name, d₁⟩, t₃, hregister, hlast⟩ := Resolution.returns_bind.1 hrest'
      obtain ⟨hnamespace, hpermissions⟩ := resolveResource_checked hresolved
      have h₁ : d₁.Coherent := h.register (fun reference _ => hnamespace reference)
        (fun permission _ => hpermissions permission) (Resolution.returns_lift.1 hregister).1
      by_cases hempty : interfaces.isEmpty = true
      · simp only [hempty, if_true] at hlast
        obtain ⟨rfl, -⟩ := Resolution.returns_pure.1 hlast
        exact h₁
      · simp only [hempty] at hlast
        obtain ⟨rfl, -⟩ := Resolution.returns_pure.1 hlast
        exact ⟨h₁.wellFormed, h₁.namespaces, h₁.permissions⟩
  | _ =>
      obtain ⟨resolved, t₁, -, hrest⟩ := Resolution.returns_bind.1 hresolve
      obtain ⟨⟨name, d₁⟩, t₂, hregister, hlast⟩ := Resolution.returns_bind.1 hrest
      obtain ⟨rfl, -⟩ := Resolution.returns_pure.1 hlast
      refine h.register ?_ ?_ (Resolution.returns_lift.1 hregister).1
      · exact fun _ hresource => nomatch hresource
      · exact fun _ hresource => nomatch hresource

/-- Resolving all entries of a kind keeps the invariant. -/
theorem Coherent.resolveKind {kind : EntityKind} (h : d.Coherent)
    (hresolve : (d.resolveKind r kind).Returns t d' t') : d'.Coherent :=
  Resolution.Returns.foldlM_induction (P := fun d _ => d.Coherent)
    (fun _ _ _ _ _ _ hd hstep => hd.resolveEntry hstep) hresolve h

/-- The parents of all resources are stored names. -/
def Linked (d : Draft) : Prop :=
  ∀ name config parent, d.sets.resources.configs.get? name = some config →
    config.str? "parent" = some parent →
    d.sets.resources.configs.contains parent = true

/-- Linking replaces nothing but the parent, by a stored name. -/
theorem linkParent_eq_ok {resources : EntrySet} {config linked : Options}
    (h : linkParent resources name config = .ok linked) :
    (∀ key, key ≠ "parent" → linked.get? key = config.get? key) ∧
      ∀ parent, linked.str? "parent" = some parent →
        resources.configs.contains parent = true := by
  unfold linkParent at h
  split at h
  · next hnone =>
      cases h
      exact ⟨fun _ _ => rfl, fun parent hparent => by simp [hnone] at hparent⟩
  · next parent hsome =>
      split at h
      · cases h
      · next canonical hcanonical =>
          have hstored := EntrySet.contains_of_canonical? hcanonical
          split at h
          · next heq =>
              cases h
              refine ⟨fun _ _ => rfl, fun other hother => ?_⟩
              rw [hsome] at hother
              cases hother
              exact heq ▸ hstored
          · cases h
            refine ⟨fun key hkey => ?_, fun other hother => ?_⟩
            · simp [SortedMap.get?_insert, Ne.symm hkey]
            · simp only [Options.str?, SortedMap.get?_insert_self, Option.bind_some,
                Value.str?_string, Option.some.injEq] at hother
              exact hother ▸ hstored

/-- The parent that linking leaves is a string, or what was there before. -/
theorem linkParent_parent {resources : EntrySet} {config linked : Options}
    (h : linkParent resources name config = .ok linked) :
    linked.get? "parent" = config.get? "parent" ∨
      ∃ parent, linked.get? "parent" = some (.string parent) := by
  unfold linkParent at h
  split at h
  · cases h
    exact Or.inl rfl
  · split at h
    · cases h
    · next canonical _ =>
        split at h
        · cases h
          exact Or.inl rfl
        · cases h
          exact Or.inr ⟨canonical, SortedMap.get?_insert_self _ _ _⟩

theorem linkParents_eq_ok {resources linked : EntrySet}
    (h : linkParents resources = .ok linked) :
    linked.aliases = resources.aliases ∧
      (∀ name, linked.configs.contains name = resources.configs.contains name) ∧
      ∀ name config, linked.configs.get? name = some config →
        ∃ config', resources.configs.get? name = some config' ∧
          linkParent resources name config' = .ok config := by
  unfold linkParents at h
  obtain ⟨configs, hmap, hlast⟩ := Resolution.check_bind.1 h
  cases Resolution.check_pure.1 hlast
  refine ⟨rfl, SortedMap.contains_eq_of_keys_eq (Resolution.check_mapM hmap).1,
    fun name config hconfig => ?_⟩
  rcases Resolution.check_mapM_get? hmap name with
    ⟨-, hnone⟩ | ⟨config', _, hconfig', hlinked, hget⟩
  · rw [hconfig] at hnone
    cases hnone
  · rw [hconfig] at hget
    cases hget
    exact ⟨config', hconfig', hlinked⟩

/-- Linking the parents keeps the invariant and stores every parent. -/
theorem Coherent.linkParents {resources : EntrySet} (h : d.Coherent)
    (hlink : Draft.linkParents d.sets.resources = .ok resources) :
    Coherent { d with sets := d.sets.set .resource resources } ∧
      Linked { d with sets := d.sets.set .resource resources } := by
  obtain ⟨haliases, hcontains, hconfigs⟩ := linkParents_eq_ok hlink
  refine ⟨⟨fun kind => ?_, fun name config reference hget href => ?_,
    fun name config permission hget hmem => ?_⟩, fun name config parent hget hparent => ?_⟩
  · show ((d.sets.set .resource resources).get kind).WellFormed
    rw [PerKind.get_set]
    split
    · have hwell := h.wellFormed .resource
      refine ⟨fun key target halias => ?_, fun name config own hget hown => ?_⟩
      · rw [hcontains]
        exact hwell.aliases key target (haliases ▸ halias)
      · obtain ⟨config', hget', hlinked⟩ := hconfigs name config hget
        refine hwell.names name config' own hget' ?_
        rw [Options.str?, ← (linkParent_eq_ok hlinked).1 "name" (by decide)]
        exact hown
    · exact h.wellFormed kind
  · obtain ⟨config', hget', hlinked⟩ := hconfigs name config hget
    refine h.namespaces name config' reference hget' ?_
    rw [Options.str?, ← (linkParent_eq_ok hlinked).1 "namespace" (by decide)]
    exact href
  · obtain ⟨config', hget', hlinked⟩ := hconfigs name config hget
    refine h.permissions name config' permission hget' ?_
    rw [Options.strings, ← (linkParent_eq_ok hlinked).1 "permissions" (by decide)]
    exact hmem
  · obtain ⟨config', -, hlinked⟩ := hconfigs name config hget
    exact (hcontains parent).trans ((linkParent_eq_ok hlinked).2 parent hparent)

/-- What the first phase returns is coherent and linked. -/
theorem coherent_build {store : EntryStore} (h : (build r store).Returns t d t') :
    d.Coherent ∧ d.Linked := by
  unfold build at h
  obtain ⟨d₁, t₁, hkinds, hrest⟩ := Resolution.returns_bind.1 h
  obtain ⟨resources, t₂, hlink, hlast⟩ := Resolution.returns_bind.1 hrest
  obtain ⟨rfl, -⟩ := Resolution.returns_pure.1 hlast
  have h₁ : d₁.Coherent :=
    hkinds.foldlM_induction (P := fun d _ => d.Coherent)
      (fun _ _ _ _ _ _ hd hstep => hd.resolveKind hstep) (coherent_start _ _)
  exact h₁.linkParents (Resolution.returns_lift.1 hlink).1

end Draft
end ConfigCompiler
