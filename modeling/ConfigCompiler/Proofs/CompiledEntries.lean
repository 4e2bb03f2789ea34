import ConfigCompiler.Proofs.AgreeingPhases
import ConfigCompiler.Proofs.Naming

/-!
# The entries of a compiled configuration

Every entry of a compiled configuration was resolved by the schema of its kind, whether a
store held it or it was discovered.  Afterwards only four options of resources are
replaced, and each of them by a value of a fixed form.

**Property.**  `Settled config resolved`: the resource `config` came from what was
`resolved` by replacing these options.

**Results.**
* `compiled_resolved`: the entries of the other kinds are resolved by the schema of the
  kind.
* `compiled_settled`: every resource is settled.
* `compiled_defaults`: without extensions no kind has defaults.
-/

namespace ConfigCompiler

open Resolution

/-- The options of a resource that are replaced after it is resolved. -/
def replacedOptions : List String := ["parent", "actions", "behaviors", "permissions"]

/-- A resource is as it was resolved, but for its parent, its attachments and its
permissions. -/
structure Settled (config resolved : Options) : Prop where
  kept : ∀ key, key ∉ replacedOptions → config.get? key = resolved.get? key
  parent : config.get? "parent" = resolved.get? "parent" ∨
    ∃ parent, config.get? "parent" = some (.string parent)
  attached : ∀ kind : AttachmentKind, ∃ attached : SortedMap Options,
    config.get? kind.optionName = some (.object (attached.map Value.object))
  permissions : ∃ required, config.get? "permissions" = some (.strings required)

variable {r : Resolver} {t t' : SchemaTables} {store : EntryStore} {time : Timestamp}
variable {compiled : Compiled} {collisions : List AliasCollision}
variable {kind : EntityKind} {name : String} {config : Options}

/-- Without extensions the schema of a kind is that of the baseline. -/
theorem kindSchema_of_no_extensions (hextensions : r.extensions = []) (kind : EntityKind) :
    r.kindSchema kind = ⟨Schema.empty.extend (Baseline.schemaOf r.catalog kind), ∅⟩ := by
  unfold Resolver.kindSchema Resolver.allExtensions
  rw [hextensions]
  rfl

/-- A stored entry is what its raw entry is resolved to. -/
theorem Entered.resolved {entries : List ResolvedEntry} {s : EntrySet}
    (h : Entered kind entries s) (hentries : r.resolvedEntries t store kind = .ok entries)
    (hconfig : s.configs.get? name = some config) :
    ∃ raw, (r.kindInForce t kind).schema.resolve raw = .ok config := by
  obtain ⟨e, he, rfl⟩ := List.mem_map.1 ((h.contains name).1 (SortedMap.contains_of_get? hconfig))
  have hstored := h.configs e he
  rw [hconfig] at hstored
  cases hstored
  obtain ⟨item, -, hitem⟩ := check_list_mapM_mem hentries he
  obtain ⟨-, -, rest, -, hanswer⟩ := Resolver.resolvedEntry_eq_ok.1 hitem
  exact ⟨_, Resolver.entryAnswer_eq_ok.1 hanswer⟩

/-- The first phase stores what is resolved, and then replaces parents at most. -/
theorem build_resolved {d : Draft} (h : (Draft.build r store).Returns t d t')
    (hconfig : (d.sets.get kind).configs.get? name = some config) :
    ∃ raw resolved, (r.kindInForce t kind).schema.resolve raw = .ok resolved ∧
      (kind ≠ .resource → config = resolved) ∧
      (∀ key, key ≠ "parent" → config.get? key = resolved.get? key) ∧
      (config.get? "parent" = resolved.get? "parent" ∨
        ∃ parent, config.get? "parent" = some (.string parent)) := by
  unfold Draft.build at h
  obtain ⟨d₁, t₁, hkinds, hrest⟩ := returns_bind.1 h
  obtain ⟨resources, t₂, hlink, hlast⟩ := returns_bind.1 hrest
  obtain ⟨rfl, -⟩ := returns_pure.1 hlast
  obtain ⟨entries, hentries, hentered⟩ := Draft.entered_resolveKinds hkinds kind
  have hget : ((d₁.sets.set .resource resources).get kind).configs.get? name = some config :=
    hconfig
  rw [PerKind.get_set] at hget
  split at hget
  · next heq =>
      subst heq
      obtain ⟨-, -, hlinked⟩ := Draft.linkParents_eq_ok (returns_lift.1 hlink).1
      obtain ⟨resolved, hresolved, hparent⟩ := hlinked name config hget
      obtain ⟨raw, hraw⟩ := hentered.resolved hentries hresolved
      exact ⟨raw, resolved, hraw, fun hkind => absurd rfl hkind,
        (Draft.linkParent_eq_ok hparent).1, Draft.linkParent_parent hparent⟩
  · obtain ⟨raw, hraw⟩ := hentered.resolved hentries hget
    exact ⟨raw, config, hraw, fun _ => rfl, fun _ _ => rfl, Or.inl rfl⟩

/-- While the schemas of kinds are those of the extensions, one run is followed alone. -/
theorem alike_same (r : Resolver) :
    Alike r (fun _ _ _ => True)
      (fun t u => t = u ∧ ∀ kind, r.kindInForce t kind = r.kindSchema kind) where
  kind := fun t u h kind => by
    obtain ⟨rfl, hkinds⟩ := h
    exact ⟨hkinds kind, hkinds kind⟩
  afterKind := fun t u h kind => by
    obtain ⟨rfl, hkinds⟩ := h
    exact ⟨rfl, fun other => (r.sameKinds_tablesAfterKind t kind other).trans (hkinds other)⟩
  attachment := fun t u h kind name entry _ => by rw [h.1]
  afterAttachment := fun t u h kind name entry _ => by
    obtain ⟨rfl, hkinds⟩ := h
    exact ⟨rfl, fun other => (r.sameKinds_tablesAfter t kind name entry other).trans
      (hkinds other)⟩

section Compiled

variable (hkinds : ∀ kind, r.kindInForce t kind = r.kindSchema kind)
variable (h : (compile r time store).Returns t (compiled, collisions) t')
include hkinds h

/-- A compilation is a first and a second phase, whose actions and behaviors stem from the
store. -/
theorem compile_returns :
    ∃ d d' t₁ t₂ t₃, (Draft.build r store).Returns t d t₁ ∧
      (d.finalizeResources r).Returns t₁ d' t₂ ∧ compiled.sets = d'.sets ∧
      Stems r store d' ∧
      (∀ kind, r.kindInForce t₂ kind = r.kindSchema kind) ∧
      (Draft.collectDefaults r).Returns t₂ compiled.defaults t₃ := by
  unfold compile at h
  obtain ⟨d, t₁, hbuild, hrest⟩ := returns_bind.1 h
  obtain ⟨⟨compiled', d'⟩, t', hfinalize, hlast⟩ := returns_bind.1 hrest
  obtain ⟨heq, -⟩ := returns_pure.1 hlast
  obtain ⟨rfl, -⟩ := Prod.mk.inj heq
  unfold Draft.finalize at hfinalize
  obtain ⟨d₂, t₂, hresources, hrest⟩ := returns_bind.1 hfinalize
  obtain ⟨defaults, t₃, hdefaults, hlast⟩ := returns_bind.1 hrest
  obtain ⟨heq, -⟩ := returns_pure.1 hlast
  obtain ⟨rfl, rfl⟩ := Prod.mk.inj heq
  obtain ⟨h₁, hstems⟩ :=
    (Draft.agrees_build (alike_same r) (fun _ _ _ _ => trivial)).of_returns ⟨rfl, hkinds⟩ hbuild
  obtain ⟨h₂, hstems'⟩ := (Draft.agrees_finalizeResources (alike_same r)
    (fun _ _ _ _ => trivial) hstems).of_returns h₁ hresources
  exact ⟨d, d', t₁, t₂, t₃, hbuild, hresources, rfl, hstems', h₂.2, hdefaults⟩

/-- Every entry but a resource is resolved by the schema of its kind. -/
theorem compiled_resolved (hkind : kind ≠ .resource)
    (hconfig : (compiled.sets.get kind).configs.get? name = some config) :
    ∃ raw, (r.kindSchema kind).schema.resolve raw = .ok config := by
  obtain ⟨d, d', t₁, t₂, t₃, hbuild, hresources, hsets, hstems, -, -⟩ := compile_returns hkinds h
  rw [hsets] at hconfig
  obtain ⟨hchanges, -⟩ := Draft.finalizeResources_settles hresources
  -- permissions and namespaces are those of the first phase
  have hbuilt : (d.sets.get kind).configs.get? name = some config →
      ∃ raw, (r.kindSchema kind).schema.resolve raw = .ok config := by
    intro hget
    obtain ⟨raw, resolved, hraw, hsame, -⟩ := build_resolved hbuild hget
    rw [hkinds, ← hsame hkind] at hraw
    exact ⟨raw, hraw⟩
  cases kind with
  | permission =>
      have hsame : d'.sets.get .permission = d.sets.get .permission := hchanges.permissions_eq
      exact hbuilt (hsame ▸ hconfig)
  | nameSpace =>
      have hsame : d'.sets.get .nameSpace = d.sets.get .nameSpace := hchanges.namespaces_eq
      exact hbuilt (hsame ▸ hconfig)
  | action =>
      obtain ⟨key, raw, -, hraw, -⟩ := hstems.entries .action name config hconfig
      exact ⟨_, hraw⟩
  | behavior =>
      obtain ⟨key, raw, -, hraw, -⟩ := hstems.entries .behavior name config hconfig
      exact ⟨_, hraw⟩
  | resource => exact absurd rfl hkind

/-- Every resource came from what its raw entry is resolved to. -/
theorem compiled_settled (hconfig : compiled.sets.resources.configs.get? name = some config) :
    ∃ raw resolved, (r.kindSchema .resource).schema.resolve raw = .ok resolved ∧
      Settled config resolved := by
  obtain ⟨d, d', t₁, t₂, t₃, hbuild, hresources, hsets, -, -, -⟩ := compile_returns hkinds h
  rw [hsets] at hconfig
  obtain ⟨hchanges, hsettled⟩ := Draft.finalizeResources_settles hresources
  obtain ⟨hname, hget, hsame⟩ := hchanges.origin hconfig
  obtain ⟨hattached, hrequired⟩ := hsettled name hname
  have hbuilt : (d.sets.get .resource).configs.get? name = some (d.resource name) := hget
  obtain ⟨raw, resolved, hraw, -, hkept, hparent⟩ := build_resolved hbuild hbuilt
  rw [hkinds] at hraw
  rw [Draft.resource_of_get? hconfig] at hrequired
  refine ⟨raw, resolved, hraw, fun key hkey => ?_, ?_, fun kind => ?_, hrequired⟩
  · simp only [replacedOptions, List.mem_cons, List.not_mem_nil, or_false, not_or] at hkey
    rw [← hsame key (by simp [hkey]), hkept key hkey.1]
  · rwa [← hsame "parent" (by decide)]
  · obtain ⟨attached, hget, -⟩ := hattached kind
    rw [Draft.resource_of_get? hconfig] at hget
    exact ⟨attached, hget⟩

/-- Without extensions nothing is laid under the entries of any kind. -/
theorem compiled_defaults (hextensions : r.extensions = []) (kind : EntityKind) :
    compiled.kindDefaults kind = ∅ := by
  obtain ⟨d, d', t₁, t₂, t₃, -, -, -, -, hkinds₂, hdefaults⟩ := compile_returns hkinds h
  have hempty := hdefaults.foldlM_induction
    (P := fun m t => (∀ kind, r.kindInForce t kind = r.kindSchema kind) ∧
      ∀ key defaults, m.get? key = some defaults → defaults = ∅)
    (fun kind _ m t m' t' hbefore hstep => ?_) ⟨hkinds₂, fun _ _ hnone => nomatch hnone⟩
  · unfold Compiled.kindDefaults
    cases hget : compiled.defaults.get? kind.name with
    | none => rfl
    | some defaults => exact hempty.2 kind.name defaults hget
  · obtain ⟨hkinds, hall⟩ := hbefore
    obtain ⟨defaults, t₁, hkind, hlast⟩ := returns_bind.1 hstep
    obtain ⟨schema, t₂, hschema, hlast'⟩ := returns_bind.1 hkind
    obtain ⟨rfl, rfl⟩ := returns_pure.1 hlast'
    obtain ⟨rfl, rfl⟩ := returns_pure.1 hlast
    unfold Returns at hschema
    rw [Resolver.ask_kindSchemaM, Prod.mk.injEq, Except.ok.injEq] at hschema
    obtain ⟨rfl, rfl⟩ := hschema
    refine ⟨fun other => (r.sameKinds_tablesAfterKind t kind other).trans (hkinds other),
      fun key defaults hget => ?_⟩
    rw [SortedMap.get?_insert] at hget
    split at hget
    · cases hget
      rw [hkinds, kindSchema_of_no_extensions hextensions]
    · exact hall key defaults hget

end Compiled

end ConfigCompiler
