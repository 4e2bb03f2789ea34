import ConfigCompiler.Proofs.Naming
import ConfigCompiler.Proofs.SecondPhaseFrame

/-!
# Aliases that are lost

Several entries of a kind may claim one alias, and the first of them keeps it.  The others
lose it, and each loss is reported, unless the alias is the name of an entry: a name hides
every alias.

**Input.**  `HoldsEntries` says which entries of a kind a compilation holds, in the order in
which they were stored.

**Property.**  `KeptOrReported compiled collisions kind e x`: the text `x` leads to the
entry `e`, or a collision reports the loss of it and who keeps it.

**Results.**
* `claims_kept_or_reported`: a claim on a text that is not the name of another entry is kept
  or reported; on a text that was the name of an entry already it is neither.
* `view_lost_silently`: a claim on the name of another entry is lost without a report.
-/

namespace ConfigCompiler

open Resolution

/-- The text leads to the entry, or a collision reports that another entry keeps it. -/
def KeptOrReported (compiled : Compiled) (collisions : List AliasCollision) (kind : EntityKind)
    (e : ResolvedEntry) (x : String) : Prop :=
  (compiled.sets.get kind).canonical? x = some e.name ∨
    ∃ c ∈ collisions, c.kind = kind ∧ c.claimed = x ∧ c.ignored = e.name ∧
      (compiled.sets.get kind).canonical? x = some c.kept

/-- The entries of a kind that a compilation holds, in the order in which they were stored:
those of the store by their keys, and then those of types that were discovered. -/
structure HoldsEntries (r : Resolver) (t : SchemaTables) (store : EntryStore)
    (compiled : Compiled) (source : LockedStore) (kind : EntityKind)
    (entries : List ResolvedEntry) : Prop where
  order : ∃ declared found, entries = declared ++ found ∧
    r.resolvedEntries t store kind = .ok declared ∧
    ∀ e ∈ found, r.catalog.hasType kind e.key = true
  raws : (entries.map fun e => (e.key, e.raw)).Perm (source.entries.get kind).entries
  names : (compiled.sets.get kind).names.Perm (entries.map ResolvedEntry.name)
  answers : ∀ e ∈ entries, r.resolvedEntry t kind (e.key, e.raw) = .ok e

section Claims

variable {kind : EntityKind} {entries before after : List ResolvedEntry} {s : EntrySet}
variable {e : ResolvedEntry} {x : String} {c : AliasCollision}

/-- Of entries that are stored in order the first that claims a text keeps it, and the
claim of another is reported. -/
theorem Entered.kept_or_reported (h : Entered kind entries s) (he : e ∈ entries)
    (hx : x ≠ "") (hclaim : e.Claims kind x)
    (hname : x = e.name ∨ x ∉ entries.map ResolvedEntry.name) :
    s.canonical? x = some e.name ∨
      ∃ c, Reported kind entries c ∧ c.claimed = x ∧ c.ignored = e.name ∧
        s.canonical? x = some c.kept := by
  by_cases hown : x = e.name
  · left
    rw [h.canonical?_eq, hown, if_pos (List.mem_map_of_mem he)]
  have hfree : x ∉ entries.map ResolvedEntry.name := hname.resolve_left hown
  have hleads := h.canonical?_eq x
  rw [if_neg hfree, if_neg hx] at hleads
  obtain ⟨before, after, rfl⟩ := List.append_of_mem he
  rw [List.find?_append] at hleads
  cases hholder : before.find? (fun e => (e.claims kind).contains x) with
  | none =>
      left
      have hfirst : (e :: after).find? (fun e => (e.claims kind).contains x) = some e :=
        List.find?_cons_of_pos (ResolvedEntry.contains_claims.2 hclaim)
      rw [hholder, Option.none_or, hfirst] at hleads
      exact hleads
  | some holder =>
      right
      rw [hholder, Option.some_or] at hleads
      have hbefore : x ∉ before.map ResolvedEntry.name := by
        intro hmem
        exact hfree (by rw [List.map_append]; exact List.mem_append_left _ hmem)
      refine ⟨⟨kind, x, holder.name, e.name⟩, ⟨before, e, after, rfl, ?_⟩, rfl, rfl, hleads⟩
      refine ResolvedEntry.mem_collisions.2 ⟨rfl, rfl, ?_, hx, hown, hbefore, ?_⟩
      · exact List.contains_iff_mem.1 (ResolvedEntry.contains_claims.2 hclaim)
      · rw [hholder, Option.map_some]

/-- A claim on the name of an entry that was stored before is not reported. -/
theorem Entered.not_reported (h : Entered kind (before ++ e :: after) s)
    (hname : x ∈ before.map ResolvedEntry.name) (hc : Reported kind (before ++ e :: after) c)
    (hclaimed : c.claimed = x) : c.ignored ≠ e.name := by
  intro hignored
  obtain ⟨before', e', after', hsplit, hcollides⟩ := hc
  obtain ⟨-, hignored', -, -, -, hfree, -⟩ := ResolvedEntry.mem_collisions.1 hcollides
  have hsame : e' = e := by
    refine Draft.eq_of_name_eq h.distinct ?_ (by simp) (hignored'.symm.trans hignored)
    rw [hsplit]
    simp
  have hdistinct := h.distinct
  rw [hsplit, hsame, List.map_append, List.map_cons, List.nodup_append, List.nodup_cons]
    at hdistinct
  have hbefore : e ∉ before' := fun hmem =>
    hdistinct.2.2 _ (List.mem_map_of_mem hmem) _ List.mem_cons_self rfl
  have hafter : e ∉ after' := fun hmem => hdistinct.2.1.1 (List.mem_map_of_mem hmem)
  rw [hsame, eq_comm, List.append_cons_inj_of_notMem hbefore hafter] at hsplit
  rw [hclaimed, hsplit.1] at hfree
  exact hfree hname

end Claims

section Compilation

variable {r : Resolver} {time : Timestamp} {store : EntryStore} {t t' : SchemaTables}
variable {compiled : Compiled} {collisions : List AliasCollision}

/-- A compilation holds entries that were stored one after the other, and its collisions are
theirs. -/
theorem entered_compile (h : (compile r time store).Returns t (compiled, collisions) t') :
    ∃ source, compiled.source? = some source ∧ ∀ kind, ∃ entries s,
      HoldsEntries r t store compiled source kind entries ∧ Entered kind entries s ∧
      (∀ x, (compiled.sets.get kind).canonical? x = s.canonical? x) ∧
      ∀ c, c.kind = kind → (c ∈ collisions ↔ Reported kind entries c) := by
  unfold compile at h
  obtain ⟨d, t₁, hbuild, hrest⟩ := returns_bind.1 h
  obtain ⟨⟨compiled', d'⟩, t₂, hfinal, hlast⟩ := returns_bind.1 hrest
  obtain ⟨heq, -⟩ := returns_pure.1 hlast
  obtain ⟨rfl, rfl⟩ := Prod.mk.inj heq
  obtain ⟨declared, stored, hdeclared, hledger, -, hsame, haliases, hcontains⟩ :=
    Draft.ledger_build hbuild
  obtain ⟨hsets, -, hsource, t₃, hphase⟩ := Draft.finalize_fields hfinal
  obtain ⟨hchanges, -⟩ := Draft.finalizeResources_settles hphase
  obtain ⟨entries, hgains, hledger'⟩ := Draft.ledger_finalizeResources hledger hsame hphase
  -- the set of resources has other options than when it was stored, but the same keys
  have hkeys : ∀ kind, (compiled.sets.get kind).aliases =
        ((d'.sets.set .resource stored).get kind).aliases ∧
      ∀ name, (compiled.sets.get kind).configs.contains name =
        ((d'.sets.set .resource stored).get kind).configs.contains name := by
    intro kind
    rw [hsets, PerKind.get_set]
    split
    · next hkind =>
        subst hkind
        exact ⟨hchanges.aliases_eq.trans haliases,
          fun name => (hchanges.stored_eq name).trans (hcontains name)⟩
    · exact ⟨rfl, fun _ => rfl⟩
  refine ⟨d'.store.lock, hsource, fun kind => ?_⟩
  obtain ⟨haliases', hcontains'⟩ := hkeys kind
  have hentered := hledger'.stored.entered kind
  obtain ⟨found, hfound, htyped⟩ := hgains kind
  refine ⟨entries.get kind, _, ⟨⟨declared.get kind, found, hfound, hdeclared kind, htyped⟩,
    hledger'.accounted.raws kind, ?_, hledger'.accounted.answers kind⟩, hentered,
    EntrySet.canonical?_congr haliases' hcontains', fun c hkind => ?_⟩
  · rw [EntrySet.names, SortedMap.keys_eq_of_contains hcontains']
    exact hentered.perm_names
  · subst hkind
    exact hledger'.stored.reported c

/-- A claim of an entry on a text is kept, or the loss of it is reported with the entry that
keeps the text, as long as no other entry has the text as its name.  If another entry had it
when the claim was made, the text leads to that entry and nothing is reported. -/
theorem claims_kept_or_reported
    (h : (compile r time store).Returns t (compiled, collisions) t') :
    ∃ source, compiled.source? = some source ∧ ∀ kind, ∃ entries,
      HoldsEntries r t store compiled source kind entries ∧
      ∀ before e after, entries = before ++ e :: after →
        ∀ x, x ≠ "" → e.Claims kind x →
          (x = e.name ∨ x ∉ entries.map ResolvedEntry.name →
            KeptOrReported compiled collisions kind e x) ∧
          (x ∈ before.map ResolvedEntry.name →
            (compiled.sets.get kind).canonical? x = some x ∧
            ∀ c ∈ collisions, c.kind = kind → c.claimed = x → c.ignored ≠ e.name) := by
  obtain ⟨source, hsource, hkinds⟩ := entered_compile h
  refine ⟨source, hsource, fun kind => ?_⟩
  obtain ⟨entries, s, hholds, hentered, hleads, hreported⟩ := hkinds kind
  refine ⟨entries, hholds, ?_⟩
  rintro before e after rfl x hx hclaim
  constructor
  · intro hname
    rcases hentered.kept_or_reported (by simp) hx hclaim hname with hkept | ⟨c, hc, hrest⟩
    · left
      rw [hleads, hkept]
    · obtain ⟨hclaimed, hignored, hkept⟩ := hrest
      exact Or.inr ⟨c, (hreported c hc.kind_eq).2 hc, hc.kind_eq, hclaimed, hignored,
        (hleads x).trans hkept⟩
  · intro hname
    constructor
    · rw [hleads, hentered.canonical?_eq, if_pos]
      rw [List.map_append]
      exact List.mem_append_left _ hname
    · intro c hc hkind hclaimed
      exact hentered.not_reported hname ((hreported c hkind).1 hc) hclaimed

end Compilation

namespace Desk

def resolver : Resolver :=
  Resolver.ofCatalog (Catalog.empty.registerAction { name := "desk::Edit" })

/-- The raw permission under the key `view`. -/
def view : Options := SortedMap.singleton "name" (.string "see")

/-- Two actions name one type, and of two permissions the second has the key that is the name of
the first. -/
def store : EntryStore where
  catalog := resolver.catalog
  entries :=
    { permissions := SortedMap.ofList [
        ("read", SortedMap.singleton "name" (.string "view")), ("view", view)]
      actions := SortedMap.ofList [
        ("change", SortedMap.singleton "class" (.string "desk::Edit")),
        ("edit", SortedMap.singleton "class" (.string "desk::Edit"))]
      behaviors := ∅
      namespaces := ∅
      resources := ∅ }

end Desk

theorem desk_compiles :
    ∃ compiled t', (compile Desk.resolver ⟨0, 0, 0⟩ Desk.store).Returns .empty
        (compiled, [⟨.action, "desk::Edit", "change", "edit"⟩]) t' ∧
      compiled.sets.permissions.canonical? "view" = some "view" := by
  obtain ⟨⟨compiled, collisions⟩, t', h, htest⟩ := returns_of_any
    (x := compile Desk.resolver ⟨0, 0, 0⟩ Desk.store) (t := .empty)
    (p := fun result => result.2 == [⟨.action, "desk::Edit", "change", "edit"⟩] &&
      result.1.sets.permissions.canonical? "view" == some "view")
    (by decide +kernel)
  simp only [Bool.and_eq_true, beq_iff_eq] at htest
  obtain ⟨rfl, hview⟩ := htest
  exact ⟨compiled, t', h, hview⟩

/-- A permission is called `see` and its key is the name of another one: the key does not
lead to it, and nothing is reported. -/
theorem view_lost_silently :
    ∃ compiled collisions t' e,
      (compile Desk.resolver ⟨0, 0, 0⟩ Desk.store).Returns .empty (compiled, collisions) t' ∧
      Desk.store.get? .permission "view" = some Desk.view ∧
      Desk.resolver.resolvedEntry .empty .permission ("view", Desk.view) = .ok e ∧
      e.Claims .permission "view" ∧ ¬ KeptOrReported compiled collisions .permission e "view" := by
  obtain ⟨compiled, t', h, hview⟩ := desk_compiles
  have hnamed : (Desk.resolver.resolvedEntry .empty .permission
      ("view", Desk.view)).toOption.any (fun e => e.name == "see") = true := by
    decide +kernel
  cases he : Desk.resolver.resolvedEntry .empty .permission ("view", Desk.view) with
  | error f =>
      rw [he] at hnamed
      cases hnamed
  | ok e =>
      rw [he] at hnamed
      have hname : e.name = "see" := beq_iff_eq.1 hnamed
      have hkey : e.key = "view" := (Resolver.resolvedEntry_eq_ok.1 he).1
      refine ⟨compiled, _, t', e, h, rfl, rfl, Or.inl hkey.symm, ?_⟩
      rintro (hkept | ⟨c, hc, hkind, -⟩)
      · have hleads : (compiled.sets.get .permission).canonical? "view" = some "view" := hview
        rw [hleads, hname] at hkept
        exact absurd hkept (by decide)
      · cases List.mem_singleton.1 hc
        cases hkind

theorem claims_kept_or_reported_desk :
    ∃ compiled collisions t',
      (compile Desk.resolver ⟨0, 0, 0⟩ Desk.store).Returns .empty (compiled, collisions) t' ∧
      collisions = [⟨.action, "desk::Edit", "change", "edit"⟩] ∧
      ∃ source, compiled.source? = some source ∧ ∀ kind, ∃ entries,
        HoldsEntries Desk.resolver .empty Desk.store compiled source kind entries ∧
        ∀ before e after, entries = before ++ e :: after →
          ∀ x, x ≠ "" → e.Claims kind x →
            (x = e.name ∨ x ∉ entries.map ResolvedEntry.name →
              KeptOrReported compiled collisions kind e x) ∧
            (x ∈ before.map ResolvedEntry.name →
              (compiled.sets.get kind).canonical? x = some x ∧
              ∀ c ∈ collisions, c.kind = kind → c.claimed = x → c.ignored ≠ e.name) := by
  obtain ⟨compiled, t', h, -⟩ := desk_compiles
  exact ⟨compiled, _, t', h, rfl, claims_kept_or_reported h⟩

end ConfigCompiler
