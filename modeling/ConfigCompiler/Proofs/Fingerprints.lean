import ConfigCompiler.Proofs.Discoveries

/-!
# The fingerprint of a compilation

A compilation takes its fingerprint before it starts and adds discovered types to the entries
afterwards.  No step after the first touches the fingerprint.

**Results.**
* `fingerprint_build`: a draft has the fingerprint of the raw entries it was built from.
* `fingerprint_finalizeResources`: the second phase keeps it, also where it discovers types.
* `compile_stamp`: a compiled configuration has the current form, the fingerprint of the raw
  entries that were given, and the time that was given.
-/

namespace ConfigCompiler

open Resolution

namespace Draft

variable {r : Resolver} {d d' : Draft} {t t' : SchemaTables} {key name : String}

theorem fingerprint_register {kind : EntityKind} {resolved : Options} {interfaces : List String}
    (h : d.register kind key resolved interfaces = .ok (name, d')) :
    d'.fingerprint = d.fingerprint := by
  obtain ⟨set, collisions, rfl, -⟩ := register_eq_ok h
  rfl

/-- Discoveries add to the entries, not to the fingerprint. -/
theorem lasting_fingerprint (r : Resolver) (fingerprint : String) :
    Lasting r (fun d _ => d.fingerprint = fingerprint) where
  discover := fun _ _ _ _ _ _ _ h _ _ hdiscover => by
    obtain ⟨raw, store, resolved, -, -, hregister⟩ := discover_returns hdiscover
    exact (fingerprint_register hregister).trans h
  ask := fun _ _ _ _ _ h => h

/-- The second phase keeps the fingerprint, though it may add types to the entries. -/
theorem fingerprint_finalizeResources (h : (d.finalizeResources r).Returns t d' t') :
    d'.fingerprint = d.fingerprint :=
  (lasting_fingerprint r d.fingerprint).finalizeResources (fun _ _ _ _ hd => hd) rfl h

theorem fingerprint_resolveEntry {kind : EntityKind} {raw : Options}
    (h : (d.resolveEntry r kind key raw).Returns t d' t') : d'.fingerprint = d.fingerprint := by
  cases kind with
  | resource =>
      obtain ⟨⟨interfaces, raw'⟩, t₁, -, hrest⟩ := returns_bind.1 h
      obtain ⟨resolved, t₂, -, hrest⟩ := returns_bind.1 hrest
      obtain ⟨⟨name, d₁⟩, t₃, hregister, hlast⟩ := returns_bind.1 hrest
      have hstored := fingerprint_register (returns_lift.1 hregister).1
      by_cases hempty : interfaces.isEmpty = true
      · simp only [hempty, if_true] at hlast
        obtain ⟨rfl, -⟩ := returns_pure.1 hlast
        exact hstored
      · simp only [hempty] at hlast
        obtain ⟨rfl, -⟩ := returns_pure.1 hlast
        exact hstored
  | _ =>
      obtain ⟨resolved, t₁, -, hrest⟩ := returns_bind.1 h
      obtain ⟨⟨name, d₁⟩, t₂, hregister, hlast⟩ := returns_bind.1 hrest
      obtain ⟨rfl, -⟩ := returns_pure.1 hlast
      exact fingerprint_register (returns_lift.1 hregister).1

/-- A draft has the fingerprint of the raw entries it was built from. -/
theorem fingerprint_build {store : EntryStore} (h : (build r store).Returns t d t') :
    d.fingerprint = ConfigCompiler.fingerprint store.entries r := by
  unfold build at h
  obtain ⟨d₁, t₁, hkinds, hrest⟩ := returns_bind.1 h
  obtain ⟨resources, t₂, -, hlast⟩ := returns_bind.1 hrest
  obtain ⟨rfl, -⟩ := returns_pure.1 hlast
  have hkind : ∀ kind (d₀ : Draft) t d t', (d₀.resolveKind r kind).Returns t d t' →
      d.fingerprint = d₀.fingerprint := fun kind d₀ t d t' hresolve =>
    hresolve.foldlM_induction (P := fun s _ => s.fingerprint = d₀.fingerprint)
      (fun _ _ _ _ _ _ hs hstep => (fingerprint_resolveEntry hstep).trans hs) rfl
  exact hkinds.foldlM_induction
    (P := fun s _ => s.fingerprint = ConfigCompiler.fingerprint store.entries r)
    (fun kind _ _ _ _ _ hs hstep => (hkind kind _ _ _ _ hstep).trans hs) rfl

end Draft

/-- A compiled configuration has the current form, the fingerprint of the raw entries that were
given, and the time that was given. -/
theorem compile_stamp {r : Resolver} {store : EntryStore} {time : Timestamp} {t t' : SchemaTables}
    {c : Compiled} {collisions : List AliasCollision}
    (h : (compile r time store).Returns t (c, collisions) t') :
    c.version = formatVersion ∧ c.fingerprint = fingerprint store.entries r ∧
      c.compiledAt = time := by
  unfold compile at h
  obtain ⟨d, t₁, hbuild, hrest⟩ := returns_bind.1 h
  obtain ⟨⟨compiled, d'⟩, t₂, hfinalize, hlast⟩ := returns_bind.1 hrest
  obtain ⟨rfl, -⟩ := Prod.mk.inj (returns_pure.1 hlast).1
  unfold Draft.finalize at hfinalize
  obtain ⟨d₁, t₃, hresources, hrest⟩ := returns_bind.1 hfinalize
  obtain ⟨defaults, t₄, -, hstamp⟩ := returns_bind.1 hrest
  obtain ⟨rfl, -⟩ := Prod.mk.inj (returns_pure.1 hstamp).1
  exact ⟨rfl, (Draft.fingerprint_finalizeResources hresources).trans
    (Draft.fingerprint_build hbuild), rfl⟩

end ConfigCompiler
