import ConfigCompiler.Proofs.Discoveries
import ConfigCompiler.Proofs.StoredKinds
import Mathlib.Data.List.Basic

/-!
# The entries of a draft

A draft holds the entries that its store came with, and those of the types that were
discovered since.  Which of their claims collide is determined by the order in which they
were stored.

**Input.**  `ResolvedEntry.collisions kind before e` lists the claims of `e` on aliases
that one of the entries `before` keeps, and `Reported kind entries c` says that the claims
of `entries` collide in `c`.

**Invariant.**  `Ledger r t stored entries d`: every raw entry of the draft `d` is that of
one of `entries`, these are stored in order, and the collisions of the draft are theirs.
Since the options of resources are replaced, the set of resources is compared as it was
`stored`.

**Results.**
* `ledger_build`: the first phase leaves a draft that holds the entries of the store.
* `Ledger.discover`: a discovered type adds one entry, under a key that is new.
* `ledger_finalizeResources`: the second phase adds entries of discovered types only.
-/

namespace ConfigCompiler

open Resolution

/-- The claims of an entry on aliases that an entry stored before keeps.  A name is no
alias, and the empty text none either. -/
def ResolvedEntry.collisions (kind : EntityKind) (before : List ResolvedEntry)
    (e : ResolvedEntry) : List AliasCollision :=
  (e.claims kind).filterMap fun x =>
    if x = "" ∨ x = e.name ∨ x ∈ before.map ResolvedEntry.name then none
    else (before.find? (fun holder => (holder.claims kind).contains x)).map
      fun holder => ⟨kind, x, holder.name, e.name⟩

/-- The claims of entries that are stored in order collide. -/
def Reported (kind : EntityKind) (entries : List ResolvedEntry) (c : AliasCollision) : Prop :=
  ∃ before e after, entries = before ++ e :: after ∧ c ∈ e.collisions kind before

section Collisions

variable {kind : EntityKind} {entries : List ResolvedEntry} {s : EntrySet}
variable {e : ResolvedEntry} {c : AliasCollision}

theorem ResolvedEntry.mem_collisions :
    c ∈ e.collisions kind entries ↔
      c.kind = kind ∧ c.ignored = e.name ∧ c.claimed ∈ e.claims kind ∧ c.claimed ≠ "" ∧
        c.claimed ≠ e.name ∧ c.claimed ∉ entries.map ResolvedEntry.name ∧
        (entries.find? (fun holder => (holder.claims kind).contains c.claimed)).map
          ResolvedEntry.name = some c.kept := by
  unfold collisions
  rw [List.mem_filterMap]
  constructor
  · rintro ⟨x, hx, hcollides⟩
    split at hcollides
    · cases hcollides
    · next hfree =>
        rw [not_or, not_or] at hfree
        obtain ⟨holder, hholder, rfl⟩ := Option.map_eq_some_iff.1 hcollides
        exact ⟨rfl, rfl, hx, hfree.1, hfree.2.1, hfree.2.2,
          Option.map_eq_some_iff.2 ⟨holder, hholder, rfl⟩⟩
  · rintro ⟨rfl, hignored, hx, hempty, hown, hname, hkept⟩
    obtain ⟨holder, hholder, hkept⟩ := Option.map_eq_some_iff.1 hkept
    refine ⟨c.claimed, hx, ?_⟩
    rw [if_neg (by simp only [not_or]; exact ⟨hempty, hown, hname⟩), hholder, Option.map_some,
      hkept, ← hignored]

theorem Reported.kind_eq (h : Reported kind entries c) : c.kind = kind := by
  obtain ⟨before, e, after, -, hc⟩ := h
  exact (ResolvedEntry.mem_collisions.1 hc).1

theorem reported_concat :
    Reported kind (entries ++ [e]) c ↔
      Reported kind entries c ∨ c ∈ e.collisions kind entries := by
  constructor
  · rintro ⟨before, last, after, hentries, hc⟩
    rcases List.eq_nil_or_concat after with rfl | ⟨init, final, rfl⟩
    · obtain ⟨rfl, hlast⟩ := List.append_inj' hentries rfl
      cases hlast
      exact Or.inr hc
    · have hsplit : entries ++ [e] = (before ++ last :: init) ++ [final] := by
        simpa using hentries
      exact Or.inl ⟨before, last, init, (List.append_inj' hsplit rfl).1, hc⟩
  · rintro (⟨before, last, after, rfl, hc⟩ | hc)
    · exact ⟨before, last, after ++ [e], by simp, hc⟩
    · exact ⟨entries, e, [], rfl, hc⟩

/-- The collisions reported for an entry depend on the entries stored before only. -/
theorem Entered.addAliases_collisions (h : Entered kind entries s)
    (hfree : s.configs.contains e.name = false) :
    (({ s with configs := s.configs.insert e.name e.options } : EntrySet).addAliases
      kind e.name (e.claims kind)).2 = e.collisions kind entries := by
  rw [EntrySet.addAliases_snd]
  refine List.filterMap_congr (fun x _ => ?_)
  unfold EntrySet.collision?
  by_cases hempty : x = ""
  · simp [hempty]
  by_cases hown : x = e.name
  · simp [hown]
  by_cases hname : x ∈ entries.map ResolvedEntry.name
  · simp [(h.contains x).2 hname, hname]
  rw [if_neg (by simp [hempty, hown, Ne.symm hown, h.contains_eq_false hname]),
    if_neg (by simp [hempty, hown, hname]), h.aliases x hname, if_neg hempty]
  cases hholder : entries.find? (fun holder => (holder.claims kind).contains x) with
  | none => rfl
  | some holder =>
      have hstored : s.configs.contains holder.name = true :=
        (h.contains _).2 (List.mem_map_of_mem (List.mem_of_find?_eq_some hholder))
      have hne : holder.name ≠ e.name := by
        intro heq
        rw [heq, hfree] at hstored
        cases hstored
      simp [hne]

end Collisions

/-- The sets came from storing the entries listed, and the collisions are theirs. -/
structure Stored (entries : PerKind (List ResolvedEntry)) (sets : PerKind EntrySet)
    (collisions : List AliasCollision) : Prop where
  entered : ∀ kind, Entered kind (entries.get kind) (sets.get kind)
  reported : ∀ c, c ∈ collisions ↔ Reported c.kind (entries.get c.kind) c

/-- The raw entries of a store are those of the entries listed, which are what the
resolver answers about them. -/
structure Accounted (r : Resolver) (t : SchemaTables) (entries : PerKind (List ResolvedEntry))
    (store : EntryStore) : Prop where
  raws : ∀ kind, ((entries.get kind).map fun e => (e.key, e.raw)).Perm
    (store.entries.get kind).entries
  answers : ∀ kind, ∀ e ∈ entries.get kind, r.resolvedEntry t kind (e.key, e.raw) = .ok e

/-- Only entries of registered types were added, after all others. -/
def Gains (r : Resolver) (entries entries' : PerKind (List ResolvedEntry)) : Prop :=
  ∀ kind, ∃ found, entries'.get kind = entries.get kind ++ found ∧
    ∀ e ∈ found, r.catalog.hasType kind e.key = true

/-- The entries with one more of a kind. -/
def PerKind.concat (entries : PerKind (List ResolvedEntry)) (kind : EntityKind)
    (more : List ResolvedEntry) : PerKind (List ResolvedEntry) :=
  entries.set kind (entries.get kind ++ more)

section Kinds

variable {entries entries' entries'' : PerKind (List ResolvedEntry)} {kind : EntityKind}
variable {e : ResolvedEntry} {more : List ResolvedEntry} {r : Resolver}
variable {t : SchemaTables} {store : EntryStore}

theorem PerKind.get_concat (entries : PerKind (List ResolvedEntry)) (kind : EntityKind)
    (more : List ResolvedEntry) (other : EntityKind) :
    (entries.concat kind more).get other =
      if kind = other then entries.get other ++ more else entries.get other := by
  rw [concat, PerKind.get_set]
  split
  · next heq => rw [heq]
  · rfl

theorem PerKind.concat_nil (entries : PerKind (List ResolvedEntry)) (kind : EntityKind) :
    entries.concat kind [] = entries :=
  PerKind.ext_get (fun other => by simp [PerKind.get_concat])

theorem PerKind.concat_concat (entries : PerKind (List ResolvedEntry)) (kind : EntityKind)
    (e : ResolvedEntry) (more : List ResolvedEntry) :
    (entries.concat kind [e]).concat kind more = entries.concat kind (e :: more) :=
  PerKind.ext_get (fun other => by
    simp only [PerKind.get_concat]
    split <;> simp)

theorem Gains.refl (r : Resolver) (entries : PerKind (List ResolvedEntry)) :
    Gains r entries entries :=
  fun _ => ⟨[], by simp, fun _ he => nomatch he⟩

theorem Gains.concat (h : Gains r entries entries')
    (htype : r.catalog.hasType kind e.key = true) :
    Gains r entries (entries'.concat kind [e]) := by
  intro other
  obtain ⟨found, hfound, htypes⟩ := h other
  rw [PerKind.get_concat]
  split
  · next heq =>
      subst heq
      refine ⟨found ++ [e], by rw [hfound, List.append_assoc], fun e' he' => ?_⟩
      rcases List.mem_append.1 he' with he' | he'
      · exact htypes e' he'
      · rwa [List.mem_singleton.1 he']
  · exact ⟨found, hfound, htypes⟩

/-- One more entry is stored under a free name. -/
theorem Stored.enter {sets : PerKind EntrySet} {collisions : List AliasCollision}
    (h : Stored entries sets collisions)
    (hfree : (sets.get kind).configs.contains e.name = false) :
    Stored (entries.concat kind [e])
      (sets.set kind
        (({ (sets.get kind) with configs := (sets.get kind).configs.insert e.name e.options } :
          EntrySet).addAliases kind e.name (e.claims kind)).1)
      (collisions ++
        (({ (sets.get kind) with configs := (sets.get kind).configs.insert e.name e.options } :
          EntrySet).addAliases kind e.name (e.claims kind)).2) where
  entered := fun other => by
    rw [PerKind.get_concat, PerKind.get_set]
    split
    · next heq =>
        subst heq
        exact (h.entered kind).enter hfree
    · exact h.entered other
  reported := fun c => by
    rw [(h.entered kind).addAliases_collisions hfree, List.mem_append, h.reported,
      PerKind.get_concat]
    split
    · next heq =>
        subst heq
        rw [reported_concat]
    · next hne =>
        rw [or_iff_left (fun hc => hne (ResolvedEntry.mem_collisions.1 hc).1.symm)]

/-- A raw entry is added under a new key, and resolved. -/
theorem Accounted.put (h : Accounted r t entries store)
    (hnew : store.contains kind e.key = false)
    (he : r.resolvedEntry t kind (e.key, e.raw) = .ok e) :
    Accounted r t (entries.concat kind [e]) (store.put kind e.key e.raw) where
  raws := fun other => by
    rw [PerKind.get_concat, EntryStore.put, PerKind.get_set]
    split
    · next heq =>
        subst heq
        rw [List.map_append]
        have hadded := SortedMap.perm_entries_insert hnew e.raw
        exact ((h.raws kind).append_right _).trans
          ((List.perm_append_singleton _ _).trans hadded.symm)
    · exact h.raws other
  answers := fun other => by
    rw [PerKind.get_concat]
    split
    · next heq =>
        subst heq
        rw [List.forall_mem_append]
        exact ⟨h.answers kind, fun e' he' => by rwa [List.mem_singleton.1 he']⟩
    · exact h.answers other

/-- A stored raw entry is that of an entry. -/
theorem Accounted.exists_of_get? {key : String} {raw : Options}
    (h : Accounted r t entries store) (hget : store.get? kind key = some raw) :
    ∃ e ∈ entries.get kind, e.key = key ∧ e.raw = raw := by
  have hmem := (h.raws kind).mem_iff.2 ((SortedMap.mem_entries_iff _ key raw).2 hget)
  obtain ⟨e, he, heq⟩ := List.mem_map.1 hmem
  cases heq
  exact ⟨e, he, rfl, rfl⟩

/-- The raw entry of an entry is stored. -/
theorem Accounted.get?_of_mem (h : Accounted r t entries store) (he : e ∈ entries.get kind) :
    store.get? kind e.key = some e.raw :=
  (SortedMap.mem_entries_iff _ e.key e.raw).1
    ((h.raws kind).mem_iff.1 (List.mem_map.2 ⟨e, he, rfl⟩))

end Kinds

namespace Resolver

variable {r : Resolver} {t : SchemaTables} {kind : EntityKind}

/-- The entries that the resolver answers for raw entries are those of their keys. -/
theorem mapM_resolvedEntry {items : List (String × Options)} {entries : List ResolvedEntry}
    (h : items.mapM (r.resolvedEntry t kind) = .ok entries) :
    (entries.map fun e => (e.key, e.raw)) = items ∧
      ∀ e ∈ entries, r.resolvedEntry t kind (e.key, e.raw) = .ok e := by
  induction items generalizing entries with
  | nil =>
      cases check_pure.1 h
      exact ⟨rfl, fun e he => nomatch he⟩
  | cons item rest ih =>
      obtain ⟨e, more, he, hmore, rfl⟩ := check_list_mapM_cons.1 h
      obtain ⟨hrest, hanswers⟩ := ih hmore
      obtain ⟨hkey, hraw, -⟩ := resolvedEntry_eq_ok.1 he
      have hitem : (e.key, e.raw) = item := Prod.ext hkey hraw
      refine ⟨by rw [List.map_cons, hrest, hitem], fun e' he' => ?_⟩
      rcases List.mem_cons.1 he' with rfl | he'
      · rw [hitem, he]
      · exact hanswers e' he'

end Resolver

namespace Draft

variable {r : Resolver} {t t₀ t' : SchemaTables} {kind : EntityKind} {d d' : Draft}
variable {store : EntryStore} {entries : PerKind (List ResolvedEntry)} {stored : EntrySet}

theorem stored_start (store : EntryStore) (fingerprint : String) :
    Stored (PerKind.ofFn fun _ => []) (start store fingerprint).sets
      (start store fingerprint).collisions where
  entered := fun kind => by simpa [start] using Entered.empty kind
  reported := fun c => by simp [start, Reported]

/-- When entries of a kind were stored, all of them had been resolved. -/
theorem resolveEntries_registers {items : List (String × Options)}
    (hstored : Stored entries d.sets d.collisions)
    (h : Returns (items.foldlM (fun d e => d.resolveEntry r kind e.1 e.2) d) t d' t') :
    ∃ more, items.mapM (r.resolvedEntry t kind) = .ok more ∧
      Stored (entries.concat kind more) d'.sets d'.collisions ∧ d'.store = d.store ∧
      r.SameKinds t t' := by
  induction items generalizing entries d t with
  | nil =>
      obtain ⟨rfl, rfl⟩ := returns_foldlM_nil.1 h
      exact ⟨[], rfl, by rwa [PerKind.concat_nil], rfl, Resolver.SameKinds.refl r _⟩
  | cons item rest ih =>
      obtain ⟨d₁, t₁, hfirst, hrest⟩ := returns_foldlM_cons.1 h
      obtain ⟨e, he, hregisters, rfl⟩ := resolveEntry_registers hfirst
      have hsame := r.sameKinds_tablesAfterKind t kind
      have hstored₁ : Stored (entries.concat kind [e]) d₁.sets d₁.collisions := by
        rw [hregisters.sets, hregisters.collisions]
        exact hstored.enter hregisters.free
      obtain ⟨more, hmore, hstored', hstore, hsame'⟩ := ih hstored₁ hrest
      rw [hsame.resolvedEntry_eq] at hmore
      exact ⟨e :: more, check_list_mapM_cons.2 ⟨e, more, he, hmore, rfl⟩,
        PerKind.concat_concat entries kind e more ▸ hstored', hstore.trans hregisters.store,
        hsame.trans hsame'⟩

/-- When several kinds were stored, all their entries had been resolved. -/
theorem resolveKinds_registers {kinds : List EntityKind} (hkinds : kinds.Nodup)
    (hnew : ∀ kind ∈ kinds, entries.get kind = [])
    (hstored : Stored entries d.sets d.collisions)
    (h : Returns (kinds.foldlM (resolveKind r) d) t d' t') :
    ∃ entries', (∀ kind ∈ kinds, r.resolvedEntries t d.store kind = .ok (entries'.get kind)) ∧
      (∀ kind, kind ∉ kinds → entries'.get kind = entries.get kind) ∧
      Stored entries' d'.sets d'.collisions ∧ d'.store = d.store ∧ r.SameKinds t t' := by
  induction kinds generalizing entries d t with
  | nil =>
      obtain ⟨rfl, rfl⟩ := returns_foldlM_nil.1 h
      refine ⟨entries, fun _ hkind => ?_, fun _ _ => rfl, hstored, rfl,
        Resolver.SameKinds.refl r _⟩
      cases hkind
  | cons kind rest ih =>
      obtain ⟨hkind, hrest⟩ := List.nodup_cons.1 hkinds
      obtain ⟨d₁, t₁, hfirst, hothers⟩ := returns_foldlM_cons.1 h
      obtain ⟨more, hmore, hstored₁, hstore₁, hsame₁⟩ := resolveEntries_registers hstored hfirst
      obtain ⟨entries', hall, hkept, hstored', hstore', hsame'⟩ :=
        ih hrest (fun other hother => by
          have hne : kind ≠ other := fun heq => hkind (heq ▸ hother)
          rw [PerKind.get_concat, if_neg hne]
          exact hnew other (List.mem_cons_of_mem _ hother)) hstored₁ hothers
      refine ⟨entries', fun other hother => ?_, fun other hother => ?_, hstored',
        hstore'.trans hstore₁, hsame₁.trans hsame'⟩
      · rcases List.mem_cons.1 hother with rfl | hother
        · rw [hkept other hkind, PerKind.get_concat, if_pos rfl, hnew other List.mem_cons_self]
          exact hmore
        · rw [← hall other hother, Resolver.resolvedEntries, Resolver.resolvedEntries, hstore₁,
            hsame₁.resolvedEntry_eq]
      · have hne : kind ≠ other := fun heq => hother (heq ▸ List.mem_cons_self)
        rw [hkept other (fun h => hother (List.mem_cons_of_mem _ h)), PerKind.get_concat,
          if_neg hne]

/-- When all kinds were stored, the entries of the store had been resolved. -/
theorem resolveAll_registers {fingerprint : String}
    (h : Returns (EntityKind.all.foldlM (resolveKind r) (start store fingerprint)) t d t') :
    ∃ entries, (∀ kind, r.resolvedEntries t store kind = .ok (entries.get kind)) ∧
      Stored entries d.sets d.collisions ∧ d.store = store ∧ r.SameKinds t t' := by
  obtain ⟨entries, hentries, -, hstored, hstore, hsame⟩ :=
    resolveKinds_registers (by decide) (fun kind _ => PerKind.get_ofFn _ kind)
      (stored_start _ _) h
  exact ⟨entries, fun kind => hentries kind (by cases kind <;> decide), hstored, hstore, hsame⟩

/-- The draft holds the entries listed: its raw entries are theirs, they are stored in
order, with the resources as they were `stored` first, and their collisions are reported. -/
structure Ledger (r : Resolver) (t : SchemaTables) (stored : EntrySet)
    (entries : PerKind (List ResolvedEntry)) (d : Draft) : Prop where
  stored : Stored entries (d.sets.set .resource stored) d.collisions
  accounted : Accounted r t entries d.store

/-- The actions and behaviors of a draft came from storing the entries of its ledger. -/
theorem Ledger.entered (h : Ledger r t stored entries d) (kind : AttachmentKind) :
    Entered kind.kind (entries.get kind.kind) (d.attachable kind) := by
  have hkind := h.stored.entered kind.kind
  rwa [PerKind.get_set_of_ne _ (by cases kind <;> decide)] at hkind

/-- The first phase leaves a draft that holds the entries of the store; linking parents
changed no name and no alias. -/
theorem ledger_build (h : (build r store).Returns t d t') :
    ∃ entries stored,
      (∀ kind, r.resolvedEntries t store kind = .ok (entries.get kind)) ∧
      Ledger r t stored entries d ∧ d.store = store ∧ r.SameKinds t t' ∧
      d.sets.resources.aliases = stored.aliases ∧
      ∀ name, d.sets.resources.configs.contains name = stored.configs.contains name := by
  unfold build at h
  obtain ⟨d₁, t₁, hkinds, hrest⟩ := returns_bind.1 h
  obtain ⟨linked, t₂, hlink, hlast⟩ := returns_bind.1 hrest
  obtain ⟨hlinked, rfl⟩ := returns_lift.1 hlink
  obtain ⟨rfl, rfl⟩ := returns_pure.1 hlast
  obtain ⟨entries, hall, hstored, hstore, hsame⟩ := resolveAll_registers hkinds
  obtain ⟨haliases, hcontains, -⟩ := linkParents_eq_ok hlinked
  refine ⟨entries, d₁.sets.resources, hall, ⟨hstored, fun kind => ?_, fun kind => ?_⟩, hstore,
    hsame, haliases, hcontains⟩
  · show List.Perm _ (d₁.store.entries.get kind).entries
    rw [hstore, (Resolver.mapM_resolvedEntry (hall kind)).1]
  · exact (Resolver.mapM_resolvedEntry (hall kind)).2

/-- A discovered type adds one entry, under a key and a name that are new. -/
theorem Ledger.discover {kind : AttachmentKind} {key name : String}
    (h : Ledger r t₀ stored entries d) (hsame : r.SameKinds t₀ t)
    (hdiscover : (d.discover r kind key).Returns t (name, d') t') :
    ∃ e, e.key = key ∧ Ledger r t₀ stored (entries.concat kind.kind [e]) d' ∧
      r.SameKinds t₀ t' := by
  obtain ⟨raw, added, resolved, hadd, hresolve, hregister⟩ := discover_returns hdiscover
  obtain ⟨rfl, hfound⟩ := EntryStore.add_empty_eq_ok hadd
  obtain ⟨hanswer, rfl⟩ := Resolver.returns_resolveEntry.1 hresolve
  rw [hsame.entryAnswer_eq] at hanswer
  obtain ⟨e, rfl, rfl, rfl⟩ : ∃ e : ResolvedEntry, e.key = key ∧ e.raw = raw ∧
      e.options = resolved := ⟨⟨key, raw, resolved⟩, rfl, rfl, rfl⟩
  rw [← e.interfaces_eq_nil kind] at hregister
  obtain ⟨-, hregisters⟩ := registers_of_register hregister
  have he : r.resolvedEntry t₀ kind.kind (e.key, e.raw) = .ok e :=
    Resolver.resolvedEntry_eq_ok.2 ⟨rfl, rfl, e.raw, by cases kind <;> rfl, hanswer⟩
  have hfree : ((d.sets.set .resource stored).get kind.kind).configs.contains e.name = false := by
    rw [PerKind.get_set_of_ne _ (by cases kind <;> decide)]
    exact hregisters.free
  -- the same raw entry under the same key would have been stored under the same name
  have hnew : d.store.get? kind.kind e.key = none := by
    cases hget : d.store.get? kind.kind e.key with
    | none => rfl
    | some existing =>
        have hsameRaw : existing = e.raw := by
          rw [hget] at hfound
          exact hfound
        obtain ⟨e', he', hkey, hraw⟩ := h.accounted.exists_of_get? hget
        have hanswer' := h.accounted.answers kind.kind e' he'
        rw [hkey, hraw, hsameRaw, he] at hanswer'
        cases hanswer'
        rw [((h.stored.entered kind.kind).contains e.name).2 (List.mem_map_of_mem he')] at hfree
        cases hfree
  have hsets : d'.sets.set .resource stored =
      (d.sets.set .resource stored).set kind.kind
        (({ ((d.sets.set .resource stored).get kind.kind) with
            configs := ((d.sets.set .resource stored).get kind.kind).configs.insert e.name
              e.options } : EntrySet).addAliases kind.kind e.name (e.claims kind.kind)).1 := by
    rw [hregisters.sets]
    cases kind <;> rfl
  have hcollisions : d'.collisions = d.collisions ++
      (({ ((d.sets.set .resource stored).get kind.kind) with
          configs := ((d.sets.set .resource stored).get kind.kind).configs.insert e.name
            e.options } : EntrySet).addAliases kind.kind e.name (e.claims kind.kind)).2 := by
    rw [hregisters.collisions]
    cases kind <;> rfl
  refine ⟨e, rfl, ⟨?_, ?_⟩, hsame.trans (r.sameKinds_tablesAfterKind t kind.kind)⟩
  · rw [hsets, hcollisions]
    exact h.stored.enter hfree
  · rw [hregisters.store]
    exact h.accounted.put (by simpa [EntryStore.contains, EntryStore.get?,
      SortedMap.contains] using hnew) he

/-- Other options of a resource are no part of a ledger. -/
theorem Ledger.putResource (h : Ledger r t stored entries d) (name : String)
    (config : Options) : Ledger r t stored entries (d.putResource name config) :=
  ⟨h.stored, h.accounted⟩

/-- The draft holds the entries listed and those of types that were discovered. -/
def GrownFrom (r : Resolver) (t₀ : SchemaTables) (stored : EntrySet)
    (entries : PerKind (List ResolvedEntry)) (d : Draft) (t : SchemaTables) : Prop :=
  r.SameKinds t₀ t ∧ ∃ entries', Gains r entries entries' ∧ Ledger r t₀ stored entries' d

theorem lasting_grownFrom (r : Resolver) (t₀ : SchemaTables) (stored : EntrySet)
    (entries : PerKind (List ResolvedEntry)) :
    Lasting r (GrownFrom r t₀ stored entries) where
  discover := by
    rintro kind key d t name d' t' ⟨hsame, entries', hgains, hledger⟩ - htype hdiscover
    obtain ⟨e, rfl, hledger', hsame'⟩ := hledger.discover hsame hdiscover
    exact ⟨hsame', _, hgains.concat htype, hledger'⟩
  ask := by
    rintro kind name entry d t ⟨hsame, hgrown⟩
    exact ⟨hsame.trans (r.sameKinds_tablesAfter t kind name entry), hgrown⟩

theorem lastingPut_grownFrom (r : Resolver) (t₀ : SchemaTables) (stored : EntrySet)
    (entries : PerKind (List ResolvedEntry)) : LastingPut (GrownFrom r t₀ stored entries) := by
  rintro d t name config ⟨hsame, entries', hgains, hledger⟩
  exact ⟨hsame, entries', hgains, hledger.putResource name config⟩

/-- The second phase adds entries of discovered types only. -/
theorem ledger_finalizeResources (hledger : Ledger r t₀ stored entries d)
    (hsame : r.SameKinds t₀ t) (h : (d.finalizeResources r).Returns t d' t') :
    ∃ entries', Gains r entries entries' ∧ Ledger r t₀ stored entries' d' := by
  have hgrown := (lasting_grownFrom r t₀ stored entries).finalizeResources
    (lastingPut_grownFrom r t₀ stored entries) ⟨hsame, entries, Gains.refl r entries, hledger⟩ h
  exact hgrown.2

end Draft
end ConfigCompiler
