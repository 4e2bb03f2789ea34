import ConfigCompiler.Proofs.SecondPhase
import ConfigCompiler.Proofs.StoredKinds

/-!
# Questions that agree

The tables are a memory that answers may depend on.  Two runs of a question with
different tables go the same way as long as the questions that read the tables are
answered alike, and only two do: the one about the schema of a kind, and the one about the
schema of an attachment.

**Input.**  `Agrees R Q x`: with tables related by `R` the question `x` ends in the same
way, leaves related tables, and an answer has the property `Q`.  `Alike r P R`: under `R`
the schemas of kinds are those of the extensions, and the entries of `P` are answered for
by the same schema.

**Invariant.**  `Stems r store d`: the draft `d` holds raw entries and resolved actions
and behaviors that `Gives` allows.  These come from what the store holds and from what
registered types start from.

**Results.**
* `Agrees.bind`: questions agree when their parts do.
* `Alike.resolveEntry`, `Alike.resolveAttachment`: the two questions that read the tables.
* `Stems.register`, `Stems.add`: storing an entry and adding a type keep the invariant.
-/

namespace ConfigCompiler

namespace Resolution

variable {α β : Type} {R : SchemaTables → SchemaTables → Prop}
variable {Q : α → Prop} {Q' : β → Prop}

/-- With related tables the question ends in the same way and leaves related tables; an
answer has a property. -/
def Agrees (R : SchemaTables → SchemaTables → Prop) (Q : α → Prop) (x : Resolution α) :
    Prop :=
  ∀ t u, R t u →
    (x.ask t).1 = (x.ask u).1 ∧ R (x.ask t).2 (x.ask u).2 ∧ ∀ a, (x.ask t).1 = .ok a → Q a

theorem Agrees.pure {a : α} (h : Q a) : Agrees R Q (Pure.pure a) := by
  intro t u hR
  refine ⟨rfl, hR, fun b hb => ?_⟩
  cases hb
  exact h

theorem Agrees.throw (f : Failure) : Agrees R Q (throw f) := by
  intro t u hR
  exact ⟨rfl, hR, fun b hb => nomatch hb⟩

theorem Agrees.lift {e : Except Failure α} (h : ∀ a, e = .ok a → Q a) :
    Agrees R Q (liftM e) := by
  intro t u hR
  exact ⟨rfl, hR, h⟩

theorem Agrees.bind {x : Resolution α} {f : α → Resolution β} (hx : Agrees R Q x)
    (hf : ∀ a t t', Q a → x.Returns t a t' → Agrees R Q' (f a)) :
    Agrees R Q' (x >>= f) := by
  intro t u hR
  obtain ⟨hsame, hrelated, hQ⟩ := hx t u hR
  rw [ask_bind, ask_bind]
  cases ht : x.ask t with
  | mk answer t' =>
      cases hu : x.ask u with
      | mk answer' u' =>
          rw [ht, hu] at hsame hrelated
          simp only at hsame hrelated
          subst hsame
          cases answer with
          | error f => exact ⟨rfl, hrelated, fun b hb => nomatch hb⟩
          | ok a => exact hf a t t' (hQ a (congrArg Prod.fst ht)) ht t' u' hrelated

/-- What two runs agree on, one run has. -/
theorem Agrees.of_returns {x : Resolution α} {t t' : SchemaTables} {a : α}
    (hx : Agrees R Q x) (hR : R t t) (h : x.Returns t a t') : R t' t' ∧ Q a := by
  obtain ⟨-, hrelated, hQ⟩ := hx t t hR
  unfold Returns at h
  rw [h] at hrelated hQ
  exact ⟨hrelated, hQ a rfl⟩

end Resolution

open Resolution

/-- Under the relation kinds are answered for by the schemas of the extensions, and the
entries allowed by the same schema. -/
structure Alike (r : Resolver) (P : AttachmentKind → String → Options → Prop)
    (R : SchemaTables → SchemaTables → Prop) : Prop where
  kind : ∀ t u, R t u → ∀ kind,
    r.kindInForce t kind = r.kindSchema kind ∧ r.kindInForce u kind = r.kindSchema kind
  afterKind : ∀ t u, R t u → ∀ kind, R (r.tablesAfterKind t kind) (r.tablesAfterKind u kind)
  attachment : ∀ t u, R t u → ∀ kind name entry, P kind name entry →
    r.schemaInForce t kind name entry = r.schemaInForce u kind name entry
  afterAttachment : ∀ t u, R t u → ∀ kind name entry, P kind name entry →
    R (r.tablesAfter t kind name entry) (r.tablesAfter u kind name entry)

section Questions

variable {r : Resolver} {P : AttachmentKind → String → Options → Prop}
variable {R : SchemaTables → SchemaTables → Prop}

theorem Alike.kindSchemaM (hR : Alike r P R) (kind : EntityKind) :
    Agrees R (fun s => s = r.kindSchema kind) (r.kindSchemaM kind) := by
  intro t u h
  rw [Resolver.ask_kindSchemaM, Resolver.ask_kindSchemaM, (hR.kind t u h kind).1,
    (hR.kind t u h kind).2]
  refine ⟨rfl, hR.afterKind t u h kind, fun s hs => ?_⟩
  cases hs
  rfl

/-- An entry is resolved by the schema of its kind. -/
theorem Alike.resolveEntry (hR : Alike r P R) (kind : EntityKind) (key : String)
    (raw : Options) :
    Agrees R (fun resolved =>
        (r.kindSchema kind).schema.resolve (Resolver.withName kind key raw) = .ok resolved)
      (r.resolveEntry kind key raw) := by
  refine (hR.kindSchemaM kind).bind (fun s _ _ hs _ => ?_)
  subst hs
  cases hresolve : (r.kindSchema kind).schema.resolve (Resolver.withName kind key raw) with
  | ok resolved => exact Agrees.pure rfl
  | error violation => exact Agrees.throw _

theorem Alike.resolveAttachment (hR : Alike r P R) {kind : AttachmentKind} {name : String}
    {entry : Options} (hentry : P kind name entry) (resource : String) (raw : Options) :
    Agrees R (fun _ => True) (r.resolveAttachment kind resource name entry raw) := by
  intro t u h
  rw [Resolver.ask_resolveAttachment, Resolver.ask_resolveAttachment,
    hR.attachment t u h kind name entry hentry]
  exact ⟨rfl, hR.afterAttachment t u h kind name entry hentry, fun _ _ => trivial⟩

end Questions

/-- A raw entry is stored under a key, or a registered type that is not stored is added
under its own key. -/
def RawOf (r : Resolver) (store : EntryStore) (kind : AttachmentKind) (key : String)
    (raw : Options) : Prop :=
  store.get? kind.kind key = some raw ∨
    (store.get? kind.kind key = none ∧ r.catalog.hasType kind.kind key = true ∧
      EntryStore.firstEntry store.catalog kind.kind key ∅ = .ok raw)

/-- A resolved action or behavior that a compilation of the store may hold under a
name. -/
def Gives (r : Resolver) (store : EntryStore) (kind : AttachmentKind) (name : String)
    (entry : Options) : Prop :=
  ∃ key raw, RawOf r store kind key raw ∧
    (r.kindSchema kind.kind).schema.resolve (Resolver.withName kind.kind key raw) =
      .ok entry ∧
    name = Resolver.entryName entry key

/-- The raw entries and the resolved actions and behaviors of a draft come from a store. -/
structure Stems (r : Resolver) (store : EntryStore) (d : Draft) : Prop where
  catalog : d.store.catalog = store.catalog
  kept : ∀ kind key raw, store.get? kind key = some raw → d.store.get? kind key = some raw
  raws : ∀ kind key raw, d.store.get? (AttachmentKind.kind kind) key = some raw →
    RawOf r store kind key raw
  entries : ∀ kind name entry, (d.attachable kind).configs.get? name = some entry →
    Gives r store kind name entry

namespace Stems

variable {r : Resolver} {store : EntryStore} {d d' : Draft}

theorem start (r : Resolver) (store : EntryStore) (fingerprint : String) :
    Stems r store (Draft.start store fingerprint) where
  catalog := rfl
  kept := fun _ _ _ h => h
  raws := fun _ _ _ h => Or.inl h
  entries := fun kind name entry h => by
    cases kind <;> simp [Draft.attachable, Draft.start, AttachmentKind.kind,
      EntrySet.empty] at h

/-- Only the store and the actions and behaviors count. -/
theorem congr (h : Stems r store d) (hstore : d'.store = d.store)
    (hattachable : ∀ kind, (d'.attachable kind).configs = (d.attachable kind).configs) :
    Stems r store d' where
  catalog := by rw [hstore, h.catalog]
  kept := fun kind key raw hraw => by rw [hstore, h.kept kind key raw hraw]
  raws := fun kind key raw hraw => h.raws kind key raw (hstore ▸ hraw)
  entries := fun kind name entry hentry =>
    h.entries kind name entry (hattachable kind ▸ hentry)

theorem putResource (h : Stems r store d) (name : String) (config : Options) :
    Stems r store (d.putResource name config) :=
  h.congr rfl (fun kind => by rw [Draft.attachable_putResource])

/-- An entry may be stored if the compilation may give it. -/
theorem register {kind : EntityKind} {key name : String} {resolved : Options}
    {interfaces : List String} (h : Stems r store d)
    (hgives : ∀ other, AttachmentKind.kind other = kind →
      Gives r store other (Resolver.entryName resolved key) resolved)
    (hregister : d.register kind key resolved interfaces = .ok (name, d')) :
    Stems r store d' := by
  obtain ⟨set, collisions, rfl, rfl, -, hconfigs, -, -⟩ := Draft.register_eq_ok hregister
  refine ⟨h.catalog, h.kept, h.raws, fun other name entry hentry => ?_⟩
  have hget : ((d.sets.set kind set).get other.kind).configs.get? name = some entry := hentry
  rw [PerKind.get_set] at hget
  split at hget
  · next heq =>
      rw [hconfigs, SortedMap.get?_insert] at hget
      split at hget
      · next hname =>
          cases hget
          exact hname ▸ hgives other heq.symm
      · exact h.entries other name entry (by rw [Draft.attachable, ← heq]; exact hget)
  · exact h.entries other name entry hget

/-- Adding a registered type to the store of a draft. -/
theorem add {kind : AttachmentKind} {key : String} {raw : Options} {added : EntryStore}
    (h : Stems r store d) (htype : r.catalog.hasType kind.kind key = true)
    (hadd : d.store.add kind.kind key ∅ = .ok (raw, added)) :
    RawOf r store kind key raw ∧ Stems r store { d with store := added } := by
  obtain ⟨rfl, hfound⟩ := EntryStore.add_empty_eq_ok hadd
  have hsame : ∀ old, d.store.get? kind.kind key = some old → old = raw := by
    intro old hold
    rw [hold] at hfound
    exact hfound
  have hfrom : RawOf r store kind key raw := by
    cases hget : d.store.get? kind.kind key with
    | some old => exact hsame old hget ▸ h.raws kind key old hget
    | none =>
        rw [hget, h.catalog] at hfound
        refine Or.inr ⟨?_, htype, hfound⟩
        rw [← Option.not_isSome_iff_eq_none, Option.isSome_iff_exists]
        rintro ⟨old, hold⟩
        rw [h.kept kind.kind key old hold] at hget
        cases hget
  refine ⟨hfrom, h.catalog, fun other key' raw' hget => ?_, fun other key' raw' hget => ?_,
    h.entries⟩
  · rw [EntryStore.get?_put]
    split
    · next heq =>
        obtain ⟨rfl, rfl⟩ := heq
        rw [hsame raw' (h.kept _ _ raw' hget)]
    · exact h.kept other key' raw' hget
  · rw [EntryStore.get?_put] at hget
    split at hget
    · next heq =>
        obtain ⟨hkind, rfl⟩ := heq
        cases hget
        have hother : kind = other := by
          cases kind <;> cases other <;> first | rfl | cases hkind
        exact hother ▸ hfrom
    · exact h.raws other key' raw' hget

end Stems

end ConfigCompiler
