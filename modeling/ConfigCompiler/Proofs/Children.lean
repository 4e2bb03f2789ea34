import ConfigCompiler.Proofs.CompiledResources
import ConfigCompiler.Proofs.KnownReferences
import ConfigCompiler.Proofs.ParentMaps

/-!
# The children of resources

A record of a resource knows its children: the records that name it as their parent, if all
of them are in its namespace.

**Input.**  `ChildOf g p name c`: the entry `name` makes the record `c`, whose parent is `p`.

**Properties.**  `FindsStored g`: names and aliases lead to records, whatever was asked
before.  `ParentFound g raw c`: the parent of the record `c` is the record that the parent of
the raw entry leads to.

**Results.**
* `Visited.snoc`, `visited_childrenAnswer`: the pass over the entries, one entry and all.
* `eq_of_childOf`: no entry is a child of two records.
* `namesOwnEntries_ofCompiled`: the records of a compiled configuration.
* `children_agree`: children and parents in a compiled configuration.
-/

namespace ConfigCompiler

open Resolution

/-- The text is a name or an alias. -/
def EntrySet.Knows (s : EntrySet) (text : String) : Prop :=
  s.configs.contains text = true ∨ s.aliases.contains text = true

/-- In a well-formed set no alias leads nowhere. -/
theorem EntrySet.WellFormed.leads {s : EntrySet} {text : String} (h : s.WellFormed)
    (hknown : s.Knows text) : ∃ name, s.canonical? text = some name := by
  cases hstored : s.configs.contains text with
  | true => exact ⟨text, canonical?_of_contains hstored⟩
  | false =>
      rcases hknown with hname | halias
      · rw [hstored] at hname
        cases hname
      · obtain ⟨name, hname⟩ := SortedMap.exists_of_contains halias
        exact ⟨name, by simp [canonical?, hstored, hname, h.aliases text name hname]⟩

namespace Registry

variable {ρ : Type} [EntityRecord ρ] {g : Registry ρ} {text name : String}

/-- Names and aliases lead to records, whatever was asked before. -/
def FindsStored (g : Registry ρ) : Prop :=
  ∀ calls text, g.set.Knows text → ∃ name record, g.set.canonical? text = some name ∧
    ((Registry.find text).ask (g.after calls)).1 = .ok (name, record)

/-- Without defaults an entry builds that the verdict does not refuse. -/
theorem recordOf_of_judged {verdict : String → Options → Option Failure} {stored : Options}
    (hdefaults : g.defaults = ∅) (hcache : g.cache = ∅) (h : Judged ρ verdict g.set)
    (hstored : g.set.configs.get? name = some stored) (hfits : verdict name stored = none) :
    ∃ made, EntityRecord.construct name stored = .ok made ∧
      g.recordOf name stored = .ok (g.hook made) := by
  have hverdict := h name stored hstored
  cases hbuilt : (EntityRecord.construct name stored : Except Failure ρ) with
  | error f =>
      rw [hbuilt] at hverdict
      rw [hfits] at hverdict
      cases hverdict
  | ok made =>
      refine ⟨made, rfl, ?_⟩
      simp only [recordOf, hcache, SortedMap.get?_emptyCollection, fresh, hdefaults,
        Options.empty_merge, hbuilt]
      rfl

theorem findAnswer_of_recordOf {stored : Options} {record : ρ}
    (hleads : g.set.canonical? text = some name)
    (hstored : g.set.configs.get? name = some stored)
    (hrecord : g.recordOf name stored = .ok record) : g.findAnswer text = .ok (name, record) := by
  unfold findAnswer optionalAnswer
  rw [canonical_of_canonical? hleads]
  simp only [hstored, hrecord]
  rfl

/-- A registry without defaults whose records all build. -/
theorem findsStored_of_judged (hdefaults : g.defaults = ∅) (hcache : g.cache = ∅)
    (hwell : g.set.WellFormed) (h : Judged ρ (fun _ _ => none) g.set) : g.FindsStored := by
  intro calls text hknown
  obtain ⟨name, hleads⟩ := hwell.leads hknown
  obtain ⟨stored, hstored⟩ := SortedMap.exists_of_contains (EntrySet.contains_of_canonical? hleads)
  obtain ⟨made, -, hrecord⟩ := recordOf_of_judged hdefaults hcache h hstored rfl
  refine ⟨name, g.hook made, hleads, ?_⟩
  rw [(steady_find g text _ (filled_after calls g)).1]
  exact findAnswer_of_recordOf hleads hstored hrecord

end Registry

namespace ResourceRegistry

section Pass

variable {g : ResourceRegistry} {p : ResourceRecord} {names : List String} {last : String}

/-- The entry `name` makes the record `c`, whose parent is `p`. -/
def ChildOf (g : ResourceRegistry) (p : ResourceRecord) (name : String) (c : ResourceRecord) :
    Prop :=
  name ∈ g.registry.names ∧ ((find name).ask g).1 = .ok c ∧ c.parent = some p.name

/-- How the pass over the names listed ends: with their children, or at the first of another
namespace. -/
def Visited (g : ResourceRegistry) (p : ResourceRecord) (names : List String)
    (answer : Except Failure (SortedMap ResourceRecord)) : Prop :=
  (∃ m, answer = .ok m ∧
    (∀ name ∈ names, ∀ c, g.ChildOf p name c → c.nameSpace = p.nameSpace) ∧
    ∀ name c, m.get? name = some c ↔ name ∈ names ∧ g.ChildOf p name c) ∨
  ∃ before name after c, names = before ++ name :: after ∧ g.ChildOf p name c ∧
    c.nameSpace ≠ p.nameSpace ∧
    (∀ other ∈ before, ∀ c', g.ChildOf p other c' → c'.nameSpace = p.nameSpace) ∧
    answer = .error (.namespaceMismatch p.name name p.nameSpace c.nameSpace)

theorem ChildOf.unique {name : String} {c c' : ResourceRecord} (h : g.ChildOf p name c)
    (h' : g.ChildOf p name c') : c = c' :=
  Except.ok.inj (h.2.1.symm.trans h'.2.1)

/-- One more entry is visited. -/
theorem Visited.snoc {answer : Except Failure (SortedMap ResourceRecord)} {r : ResourceRecord}
    (h : Visited g p names answer) (hlast : last ∈ g.registry.names)
    (hfind : ((find last).ask g).1 = .ok r) (hname : r.name = last) :
    Visited g p (names ++ [last]) (answer >>= fun m => withChild p m r) := by
  rcases h with ⟨m, rfl, hspaces, hget⟩ | ⟨before, name, after, c, rfl, hchild, hother, hbefore,
    rfl⟩
  · show Visited g p (names ++ [last]) (withChild p m r)
    unfold withChild
    split
    -- the entry is no child
    · next hparent =>
        have hno : ∀ c, ¬ g.ChildOf p last c := fun c hc => by
          obtain rfl := Except.ok.inj (hfind.symm.trans hc.2.1)
          simp [hc.2.2] at hparent
        refine Or.inl ⟨m, rfl, fun name hmem c hc => ?_, fun name c => ?_⟩
        · rcases List.mem_append.1 hmem with hmem | hmem
          · exact hspaces name hmem c hc
          · exact absurd (List.mem_singleton.1 hmem ▸ hc) (hno c)
        · rw [hget, List.mem_append, List.mem_singleton]
          refine ⟨fun hc => ⟨Or.inl hc.1, hc.2⟩, fun ⟨hmem, hc⟩ => ⟨?_, hc⟩⟩
          exact hmem.resolve_right (fun heq => hno c (heq ▸ hc))
    · next hparent =>
        have hchild : g.ChildOf p last r := ⟨hlast, hfind, by simpa using hparent⟩
        split
        -- a child of another namespace ends the pass
        · next hother =>
            refine Or.inr ⟨names, last, [], r, rfl, hchild, by simpa using hother, hspaces, ?_⟩
            rw [hname]
            rfl
        · next hsame =>
            refine Or.inl ⟨m.insert r.name r, rfl, fun name hmem c hc => ?_, fun name c => ?_⟩
            · rcases List.mem_append.1 hmem with hmem | hmem
              · exact hspaces name hmem c hc
              · obtain rfl := (List.mem_singleton.1 hmem ▸ hc : g.ChildOf p last c).unique hchild
                simpa using hsame
            · rw [SortedMap.get?_insert, hname, List.mem_append, List.mem_singleton]
              split
              · next heq =>
                  subst heq
                  exact ⟨fun hr => ⟨Or.inr rfl, Option.some.inj hr ▸ hchild⟩,
                    fun hc => congrArg some (hchild.unique hc.2)⟩
              · next hne =>
                  rw [hget]
                  exact and_congr_left' ⟨Or.inl, fun hmem => hmem.resolve_right (Ne.symm hne)⟩
  · exact Or.inr ⟨before, name, after ++ [last], c, by simp, hchild, hother, hbefore, rfl⟩

/-- All entries are visited. -/
theorem visited_childrenAnswer (hstart : Derived g g) (hown : g.NamesOwnEntries)
    (hlinked : p.linked = true) : Visited g p g.registry.names (g.childrenAnswer p) := by
  unfold childrenAnswer
  rw [if_pos hlinked]
  have hall : ∀ names ⊆ g.registry.names, Visited g p names (names.foldlM (fun children name => do
      withChild p children (← g.registry.recordAnswer name)) ∅) := by
    intro names
    induction names using List.reverseRecOn with
    | nil => exact fun _ => Or.inl ⟨∅, rfl, nofun, by simp⟩
    | append_singleton rest last ih =>
        intro hsubset
        have hlast := hsubset (List.mem_append_right rest (List.mem_singleton.2 rfl))
        obtain ⟨r, hfind, hname⟩ := hown last hlast
        have hrest := (ih (fun name hmem => hsubset (List.mem_append_left _ hmem))).snoc hlast
          hfind hname
        rw [(steady_find g last g hstart).1] at hfind
        simp only [List.foldlM_append, List.foldlM_cons, List.foldlM_nil, bind_pure, hfind]
        exact hrest
  exact hall _ (List.Subset.refl _)

/-- The children of the record are listed if all share its namespace; otherwise the least of
another namespace is reported. -/
structure ChildrenAgree (g : ResourceRegistry) (p : ResourceRecord)
    (answer : Except Failure (SortedMap ResourceRecord)) : Prop where
  listed : (∀ name c, g.ChildOf p name c → c.nameSpace = p.nameSpace) →
    ∃ m, answer = .ok m ∧ ∀ name c, m.get? name = some c ↔ g.ChildOf p name c
  refused : (∃ name c, g.ChildOf p name c ∧ c.nameSpace ≠ p.nameSpace) →
    ∃ name c, g.ChildOf p name c ∧ c.nameSpace ≠ p.nameSpace ∧
      (∀ other < name, ∀ c', g.ChildOf p other c' → c'.nameSpace = p.nameSpace) ∧
      answer = .error (.namespaceMismatch p.name name p.nameSpace c.nameSpace)

/-- The entries are visited in the order of their names. -/
theorem Visited.childrenAgree {answer : Except Failure (SortedMap ResourceRecord)}
    (h : Visited g p g.registry.names answer) : ChildrenAgree g p answer := by
  rcases h with ⟨m, rfl, hspaces, hget⟩ | ⟨before, name, after, c, hnames, hchild, hother,
    hbefore, rfl⟩
  · refine ⟨fun _ => ⟨m, rfl, fun name c => ?_⟩, fun ⟨name, c, hc, hne⟩ => ?_⟩
    · rw [hget]
      exact and_iff_right_of_imp And.left
    · exact absurd (hspaces name hc.1 c hc) hne
  · refine ⟨fun hall => absurd (hall name c hchild) hother, fun _ =>
      ⟨name, c, hchild, hother, fun other hless c' hc' => hbefore other ?_ c' hc', rfl⟩⟩
    have hsorted : g.registry.names.Pairwise (· < ·) := SortedMap.keys_sorted _
    have hmem := hc'.1
    rw [hnames] at hsorted hmem
    refine (List.mem_append.1 hmem).resolve_right (fun hfrom => ?_)
    rcases List.mem_cons.1 hfrom with rfl | hafter
    · exact String.lt_irrefl _ hless
    · exact String.lt_asymm hless
        ((List.pairwise_cons.1 (List.pairwise_append.1 hsorted).2.1).1 other hafter)

/-- What the pass lists is a child. -/
theorem Visited.childOf {m : SortedMap ResourceRecord} {name : String}
    (h : Visited g p names (.ok m)) (hname : m.contains name = true) :
    ∃ c, g.ChildOf p name c := by
  rcases h with ⟨m', hm, -, hget⟩ | ⟨_, _, _, _, -, -, -, -, hfails⟩
  · obtain rfl := Except.ok.inj hm
    obtain ⟨c, hc⟩ := SortedMap.exists_of_contains hname
    exact ⟨c, ((hget name c).1 hc).2⟩
  · cases hfails

end Pass

section HandedOut

variable {set : EntrySet} {defaults : Options} {p q : ResourceRecord}

/-- A record that is handed out is the one found under its name, and is linked. -/
theorem find_of_handedOut
    (hown : (ofSet set defaults ∅).NamesOwnEntries) (h : (ofSet set defaults ∅).HandedOut p) :
    ((find p.name).ask (ofSet set defaults ∅)).1 = .ok p ∧ p.linked = true := by
  have hstart := derived_ofSet set defaults ∅
  obtain ⟨key, hat⟩ := recordAt_of_handedOut hstart h
  obtain ⟨stored, made, -, -, hlinked⟩ := recordAt_ofSet preloaded_empty hat
  obtain ⟨stored, hstored, hrecord⟩ := hat
  have hcontains := SortedMap.contains_of_get? hstored
  have hfind : ((find key).ask (ofSet set defaults ∅)).1 = .ok p := by
    rw [(steady_find _ key _ hstart).1, Registry.recordAnswer,
      Registry.findAnswer_of_recordOf (EntrySet.canonical?_of_contains hcontains) hstored hrecord]
    rfl
  obtain ⟨record, hfound, hname⟩ := hown key ((SortedMap.mem_keys_iff _ _).2 hcontains)
  obtain rfl := Except.ok.inj (hfind.symm.trans hfound)
  exact ⟨hname.symm ▸ hfind, by rw [hlinked]; rfl⟩

/-- A record that is found is handed out, and it is the one whose children are asked for. -/
theorem childrenOf_of_find {g : ResourceRegistry} {text : String} (hstart : Derived g g)
    (hfind : ((find text).ask g).1 = .ok p) :
    g.HandedOut p ∧ ((childrenOf text).ask g).1 = ((children p).ask g).1 := by
  have hrecord : g.registry.recordAnswer text = .ok p :=
    (steady_find g text g hstart).1.symm.trans hfind
  obtain ⟨found, hfound, hlast⟩ := check_bind.1 hrecord
  obtain rfl := check_pure.1 hlast
  refine ⟨handedOut_of_findAnswer hstart hfound, ?_⟩
  rw [(steady_childrenOf g text g hstart).1, (steady_children g found.2 g hstart).1, hrecord]
  rfl

/-- A record that was handed out is asked for its children: all entries are visited, whatever
was asked before. -/
theorem visited_of_handedOut (hown : (ofSet set defaults ∅).NamesOwnEntries)
    (hp : (ofSet set defaults ∅).HandedOut p) (calls : List Call) :
    Visited (ofSet set defaults ∅) p (ofSet set defaults ∅).registry.names
      ((children p).ask ((ofSet set defaults ∅).after calls)).1 := by
  have hstart := derived_ofSet set defaults ∅
  rw [(steady_children _ p _ (derived_after hstart calls)).1]
  exact visited_childrenAnswer hstart hown (find_of_handedOut hown hp).2

/-- No entry is a child of two records. -/
theorem eq_of_childOf (hown : (ofSet set defaults ∅).NamesOwnEntries)
    (hp : (ofSet set defaults ∅).HandedOut p) (hq : (ofSet set defaults ∅).HandedOut q)
    {name : String} {c c' : ResourceRecord} (hc : (ofSet set defaults ∅).ChildOf p name c)
    (hc' : (ofSet set defaults ∅).ChildOf q name c') : p = q := by
  obtain rfl : c = c' := Except.ok.inj (hc.2.1.symm.trans hc'.2.1)
  have hsame : p.name = q.name := Option.some.inj (hc.2.2.symm.trans hc'.2.2)
  have hfind := (find_of_handedOut hown hp).1
  rw [hsame, (find_of_handedOut hown hq).1] at hfind
  exact (Except.ok.inj hfind).symm

end HandedOut

section Compiled

variable {r : Resolver} {t t' : SchemaTables} {store : EntryStore} {time : Timestamp}
variable {compiled : Compiled} {collisions : List AliasCollision}
variable {name text : String}

/-- An optional text is read as it stands there. -/
theorem str?_of_optionalText {options : Options} {key : String} {a : Option String}
    (h : Record.optionalText.read options key = .ok a) : options.str? key = a := by
  cases a with
  | some s =>
      rw [Options.str?, get?_of_optionalText h, Option.bind_some, Value.str?_string]
  | none =>
      cases hstr : options.str? key with
      | none => rfl
      | some s =>
          obtain ⟨v, hget, hs⟩ := Option.bind_eq_some_iff.1 hstr
          obtain rfl := Value.eq_string_of_str? hs
          simp only [Record.FieldForm.read, hget] at h
          cases h

/-- The parent of the record is the one that the parent of the raw entry leads to. -/
def ParentFound (g : ResourceRegistry) (raw : Options) (c : ResourceRecord) : Prop :=
  (raw.str? "parent" = none → c.parent = none) ∧
    ∀ text, raw.str? "parent" = some text →
      ∃ p, ((find text).ask g).1 = .ok p ∧ c.parent = some p.name

variable (hextensions : r.extensions = [])
variable (hkinds : ∀ kind, r.kindInForce t kind = r.kindSchema kind)
variable (h : (compile r time store).Returns t (compiled, collisions) t')
variable (hfits : ∀ key raw, store.get? .resource key = some raw → oversized? raw = none)
include hextensions hkinds h hfits

/-- The event priority of every compiled resource fits. -/
theorem fits_of_compiled {config : Options}
    (hconfig : compiled.sets.resources.configs.get? name = some config) :
    oversized? config = none := by
  obtain ⟨entries, hentries, hcontains, hcame⟩ := compiled_resources hkinds h
  obtain ⟨e, he, rfl⟩ := List.mem_map.1
    ((hcontains name).1 (SortedMap.contains_of_get? hconfig))
  obtain ⟨config', hfrom⟩ := hcame e he
  obtain rfl := Option.some.inj (hconfig.symm.trans hfrom.stored)
  obtain ⟨hraws, hanswers⟩ := Resolver.mapM_resolvedEntry hentries
  have hraw : store.get? .resource e.key = some e.raw :=
    (SortedMap.mem_entries_iff _ _ _).1 (hraws ▸ List.mem_map_of_mem he)
  have hresolved := oversized?_of_resolvedEntry hextensions hkinds (hanswers e he)
    (hfits e.key e.raw hraw)
  unfold oversized? at hresolved ⊢
  rwa [hfrom.kept "event_priority" (by decide)]

/-- A text that leads to a resource leads to its record. -/
theorem find_of_canonical? (hleads : compiled.sets.resources.canonical? text = some name) :
    ∃ config record, compiled.sets.resources.configs.get? name = some config ∧
      ((find text).ask (Registries.ofCompiled compiled).resources).1 = .ok record ∧
      record.name = name ∧ record.parent = config.str? "parent" := by
  obtain ⟨config, hconfig⟩ := SortedMap.exists_of_contains (EntrySet.contains_of_canonical? hleads)
  have hverdict : resourceVerdict name config = none := by
    rw [resourceVerdict, fits_of_compiled hextensions hkinds h hfits hconfig]
    rfl
  let g := (Registries.ofCompiled compiled).resources
  obtain ⟨made, hmade, hrecord⟩ := Registry.recordOf_of_judged (g := g.registry)
    (compiled_defaults hkinds h hextensions .resource) rfl
    (judged_resources hextensions hkinds h) hconfig hverdict
  have hread := readFrom_of_construct hmade
  refine ⟨config, { made with linked := true }, hconfig, ?_, ?_,
    (str?_of_optionalText hread.parent).symm⟩
  · rw [(steady_find g text g (derived_ofSet _ _ _)).1, Registry.recordAnswer,
      Registry.findAnswer_of_recordOf hleads hconfig hrecord]
    rfl
  · refine (compiled_wellFormed hkinds h .resource).names name config made.name hconfig ?_
    rw [Options.str?, get?_of_text hread.name, Option.bind_some, Value.str?_string]

/-- The records of compiled resources stand under their own names. -/
theorem namesOwnEntries_ofCompiled :
    (Registries.ofCompiled compiled).resources.NamesOwnEntries := by
  intro name hname
  have hstored : compiled.sets.resources.configs.contains name = true :=
    (SortedMap.mem_keys_iff _ _).1 hname
  obtain ⟨-, record, -, hfind, hown, -⟩ := find_of_canonical? hextensions hkinds h hfits
    (EntrySet.canonical?_of_contains hstored)
  exact ⟨record, hfind, hown⟩

/-- The record of a raw resource has the parent that the raw parent leads to. -/
theorem parentFound_of_raw {key : String} {raw : Options}
    (hraw : store.get? .resource key = some raw) :
    ∃ e c, r.resolvedEntry t .resource (key, raw) = .ok e ∧
      ((find e.name).ask (Registries.ofCompiled compiled).resources).1 = .ok c ∧
      c.name = e.name ∧ (Registries.ofCompiled compiled).resources.ParentFound raw c := by
  obtain ⟨entries, hentries, -, hcame⟩ := compiled_resources hkinds h
  obtain ⟨hraws, hanswers⟩ := Resolver.mapM_resolvedEntry hentries
  obtain ⟨e, he, heq⟩ := List.mem_map.1 (hraws ▸ (SortedMap.mem_entries_iff _ _ _).2 hraw)
  obtain ⟨rfl, rfl⟩ := Prod.mk.inj heq
  obtain ⟨config, hfrom⟩ := hcame e he
  obtain ⟨config', c, hconfig', hfind, hname, hparent⟩ :=
    find_of_canonical? hextensions hkinds h hfits
      (EntrySet.canonical?_of_contains (SortedMap.contains_of_get? hfrom.stored))
  obtain rfl := Option.some.inj (hfrom.stored.symm.trans hconfig')
  have hsame := parent_of_resolvedEntry hextensions hkinds (hanswers e he)
  refine ⟨e, c, hanswers e he, hfind, hname, fun hnone => ?_, fun text htext => ?_⟩
  · rw [hparent, hfrom.orphan (hsame.trans hnone)]
  · obtain ⟨parent, hleads, hstored⟩ := hfrom.parent text (hsame.trans htext)
    obtain ⟨-, p, -, hfound, hpname, -⟩ := find_of_canonical? hextensions hkinds h hfits hleads
    exact ⟨p, hfound, by rw [hparent, hstored, hpname]⟩

end Compiled

/-- Without extensions, and with event priorities that fit, the children of compiled resources
agree with their parents.  All names and aliases lead to records, whatever was asked before.
The parent of every resource is the one that its raw entry leads to, however that is
written.  A record that was handed out lists exactly the resources whose parent it is, if
they share its namespace, and otherwise reports the least that does not.  So no resource is a
child of two. -/
theorem children_agree {r : Resolver} {t t' : SchemaTables} {store : EntryStore}
    {time : Timestamp} {compiled : Compiled} {collisions : List AliasCollision}
    (hextensions : r.extensions = [])
    (hkinds : ∀ kind, r.kindInForce t kind = r.kindSchema kind)
    (h : (compile r time store).Returns t (compiled, collisions) t')
    (hfits : ∀ key raw, store.get? .resource key = some raw → oversized? raw = none) :
    let R := Registries.ofCompiled compiled
    let g := R.resources
    (R.permissions.FindsStored ∧ R.namespaces.FindsStored ∧ R.actions.FindsStored ∧
      R.behaviors.FindsStored) ∧
    (∀ calls text, compiled.sets.resources.Knows text →
      ∃ name record, compiled.sets.resources.canonical? text = some name ∧
        ((find text).ask g).1 = .ok record ∧
        ((find text).ask (g.after calls)).1 = .ok record ∧ record.name = name) ∧
    (∀ key raw, store.get? .resource key = some raw →
      ∃ e c, r.resolvedEntry t .resource (key, raw) = .ok e ∧
        ((find e.name).ask g).1 = .ok c ∧ c.name = e.name ∧ g.ParentFound raw c) ∧
    (∀ p, g.HandedOut p → ∀ calls, ChildrenAgree g p ((children p).ask (g.after calls)).1) ∧
    ∀ p q, g.HandedOut p → g.HandedOut q → ∀ calls calls' m m' name,
      ((children p).ask (g.after calls)).1 = .ok m →
      ((children q).ask (g.after calls')).1 = .ok m' →
      m.contains name = true → m'.contains name = true → p = q := by
  intro R g
  have hempty := compiled_defaults hkinds h hextensions
  have hwell := compiled_wellFormed hkinds h
  have hstart : Derived g g := derived_ofSet _ _ _
  have hown : g.NamesOwnEntries := namesOwnEntries_ofCompiled hextensions hkinds h hfits
  refine ⟨⟨?_, ?_, ?_, ?_⟩, fun calls text hknown => ?_,
    fun key raw => parentFound_of_raw hextensions hkinds h hfits, fun p hp calls => ?_,
    fun p q hp hq calls calls' m m' name hm hm' hname hname' => ?_⟩
  · exact Registry.findsStored_of_judged (hempty .permission) rfl (hwell .permission)
      (judged_permissions hextensions hkinds h)
  · exact Registry.findsStored_of_judged (hempty .nameSpace) rfl (hwell .nameSpace)
      (judged_namespaces hextensions hkinds h)
  · exact Registry.findsStored_of_judged (hempty .action) rfl (hwell .action)
      (judged_actions hextensions hkinds h)
  · exact Registry.findsStored_of_judged (hempty .behavior) rfl (hwell .behavior)
      (judged_behaviors hextensions hkinds h)
  · obtain ⟨name, hleads⟩ := (hwell .resource).leads hknown
    obtain ⟨-, record, -, hfind, hname, -⟩ := find_of_canonical? hextensions hkinds h hfits hleads
    refine ⟨name, record, hleads, hfind, ?_, hname⟩
    rw [(steady_find g text _ (derived_after hstart calls)).1, ← (steady_find g text g hstart).1]
    exact hfind
  · exact (visited_of_handedOut hown hp calls).childrenAgree
  · have hvisited : Visited g p g.registry.names (.ok m) :=
      hm ▸ visited_of_handedOut hown hp calls
    have hvisited' : Visited g q g.registry.names (.ok m') :=
      hm' ▸ visited_of_handedOut hown hq calls'
    obtain ⟨c, hc⟩ := hvisited.childOf hname
    obtain ⟨c', hc'⟩ := hvisited'.childOf hname'
    exact eq_of_childOf hown hp hq hc hc'

namespace Magazine

def resolver : Resolver := Resolver.ofCatalog Catalog.empty

def resource (nameSpace entity : String) (more : List (String × Value)) : Options :=
  SortedMap.ofList ([("namespace", .string nameSpace), ("entity", .string entity)] ++ more)

/-- An article names its issue by the entity of the issue.  A letter in another namespace names
the article. -/
def store : EntryStore where
  catalog := resolver.catalog
  entries :=
    { permissions := ∅
      actions := ∅
      behaviors := ∅
      namespaces := SortedMap.ofList [("press", ∅), ("forum", ∅)]
      resources := SortedMap.ofList [
        ("issue", resource "press" "Issue" [("event_priority", .int 3)]),
        ("article", resource "press" "Article" [("parent", .string "Issue")]),
        ("letter", resource "forum" "Letter" [("parent", .string "article")])] }

def question : Resolution (Compiled × List AliasCollision) := compile resolver ⟨0, 0, 0⟩ store

/-- The issue lists the article, and the article does not list the letter. -/
def agrees (compiled : Compiled) : Bool :=
  let g := (Registries.ofCompiled compiled).resources
  compiled.sets.resources.aliases.contains "Issue" &&
    compiled.sets.resources.canonical? "Issue" == some "issue" &&
    compiled.sets.resources.configs.contains "article" &&
    ((childrenOf "Issue").ask g).1.toOption.any (fun m => m.keys == ["article"]) &&
    ((childrenOf "article").ask g).1.toOption.isNone

theorem fits (key : String) (raw : Options) (h : store.get? .resource key = some raw) :
    oversized? raw = none := by
  have hall : store.entries.resources.values.all (fun raw => oversized? raw == none) = true := by
    decide +kernel
  exact beq_iff_eq.1 (List.all_eq_true.1 hall raw
    (List.mem_map.2 ⟨(key, raw), (SortedMap.mem_entries_iff _ _ _).2 h, rfl⟩))

end Magazine

theorem children_agree_magazine :
    ∃ compiled collisions t',
      Magazine.question.Returns .empty (compiled, collisions) t' ∧
      let g := (Registries.ofCompiled compiled).resources
      (∃ p m, g.HandedOut p ∧ p.name = "issue" ∧ ((children p).ask g).1 = .ok m ∧
        m.keys = ["article"]) ∧
      ∃ p name c, g.HandedOut p ∧ p.name = "article" ∧ g.ChildOf p name c ∧
        ((children p).ask g).1 =
          .error (.namespaceMismatch "article" name p.nameSpace c.nameSpace) := by
  obtain ⟨⟨compiled, collisions⟩, t', h, htest⟩ := returns_of_any
    (x := Magazine.question) (t := .empty) (p := fun result => Magazine.agrees result.1)
    (by decide +kernel)
  simp only [Magazine.agrees, Bool.and_eq_true, beq_iff_eq] at htest
  obtain ⟨⟨⟨⟨halias, hissue⟩, harticle⟩, hlists⟩, hrefuses⟩ := htest
  refine ⟨compiled, collisions, t', h, ?_⟩
  intro g
  obtain ⟨-, hfinds, -, hchildren, -⟩ := children_agree rfl
    Magazine.resolver.kindInForce_empty h Magazine.fits
  -- the record found is handed out, and is asked for its children
  have hasked : ∀ text name, compiled.sets.resources.Knows text →
      compiled.sets.resources.canonical? text = some name → ∃ p, g.HandedOut p ∧
        p.name = name ∧ ((childrenOf text).ask g).1 = ((children p).ask g).1 := by
    intro text name hknown hleads
    obtain ⟨name', p, hleads', hfind, -, hname⟩ := hfinds [] text hknown
    obtain rfl := Option.some.inj (hleads'.symm.trans hleads)
    obtain ⟨hp, hsame⟩ := childrenOf_of_find (derived_ofSet _ _ _) hfind
    exact ⟨p, hp, hname, hsame⟩
  constructor
  · obtain ⟨p, hp, hname, hsame⟩ := hasked "Issue" "issue" (Or.inr halias) hissue
    rw [hsame] at hlists
    obtain ⟨m, hm, hkeys⟩ := (Option.any_eq_true _ _).1 hlists
    cases hanswer : ((children p).ask g).1 with
    | error f =>
        rw [hanswer] at hm
        cases hm
    | ok m' =>
        rw [hanswer] at hm
        obtain rfl := Option.some.inj hm
        exact ⟨p, m', hp, hname, hanswer, beq_iff_eq.1 hkeys⟩
  · obtain ⟨p, hp, hname, hsame⟩ := hasked "article" "article" (Or.inl harticle)
      (EntrySet.canonical?_of_contains harticle)
    rw [hsame] at hrefuses
    have hagree : ChildrenAgree g p ((children p).ask g).1 := hchildren p hp []
    obtain ⟨name, c, hc, -, -, hfails⟩ := hagree.refused (by
      by_contra hnone
      obtain ⟨m, hm, -⟩ := hagree.listed (fun name c hc => by
        by_contra hne
        exact hnone ⟨name, c, hc, hne⟩)
      rw [hm] at hrefuses
      cases hrefuses)
    exact ⟨p, name, c, hp, hname, hc, by rw [hfails, hname]⟩

end ResourceRegistry
end ConfigCompiler
