import ConfigCompiler.Proofs.DecidableValues
import ConfigCompiler.Proofs.HandedOut
import ConfigCompiler.Proofs.ParentChains

/-!
# The parents and the depths of resources

A registry of resources derives the parents of all its resources, and the number of their
ancestors, from the records that their entries make.

**Input.**  A registry in which every entry makes a record under its own name.
`g.ParentOf child parent`: the record of the entry `child` says that its parent is `parent`.
The parent need not be an entry.

**Relation.**  `Laid g parents depths`: the maps hold the parents and the lengths of the chains.

**Results.**
* `get?_namedParents`, `checkAcyclic_ends`, `get?_depthsOf`: the three passes over the records.
* `parent_and_depth_maps`: either no resource reaches a circle, and both maps are as they
  should be, or both questions fail, and report the circle that the least name reaches.
-/

namespace ConfigCompiler
namespace ResourceRegistry

open Resolution

section Maps

variable {parents : SortedMap String} {names : List String} {records : List ResourceRecord}
variable {name child parent : String} {n : Nat} {f : Failure}

/-- The parents that records name, as far as one name belongs to one record. -/
theorem get?_namedParents
    (hsame : ∀ r ∈ records, ∀ r' ∈ records, r.name = r'.name → r = r') :
    (namedParents records).get? child = some parent ↔
      ∃ r ∈ records, r.name = child ∧ r.parent = some parent := by
  induction records using List.reverseRecOn with
  | nil => simp [namedParents]
  | append_singleton rest last ih =>
      have hrest := ih (fun r hr r' hr' => hsame r (List.mem_append_left _ hr) r'
        (List.mem_append_left _ hr'))
      have hlast : last ∈ rest ++ [last] := List.mem_append_right _ (List.mem_singleton.2 rfl)
      -- a record of the rest under the last name is the last record
      have hagain : ∀ r ∈ rest, r.name = last.name → r = last :=
        fun r hr => hsame r (List.mem_append_left _ hr) last hlast
      have hstep : namedParents (rest ++ [last]) =
          last.parent.elim (namedParents rest) ((namedParents rest).insert last.name) := by
        rw [namedParents, List.foldl_append, List.foldl_cons, List.foldl_nil]
        cases last.parent <;> rfl
      have hsplit : (∃ r ∈ rest ++ [last], r.name = child ∧ r.parent = some parent) ↔
          (∃ r ∈ rest, r.name = child ∧ r.parent = some parent) ∨
            (last.name = child ∧ last.parent = some parent) := by
        simp [or_and_right, exists_or]
      rw [hstep, hsplit, ← hrest]
      cases hparent : last.parent with
      | none => simp
      | some p =>
          rw [Option.elim_some, SortedMap.get?_insert]
          by_cases hname : last.name = child
          · subst hname
            rw [if_pos rfl]
            refine ⟨fun hp => Or.inr ⟨rfl, hp⟩, ?_⟩
            rintro (hbefore | ⟨-, hp⟩)
            · obtain ⟨r, hr, hname, hr'⟩ := hrest.1 hbefore
              obtain rfl := hagain r hr hname
              exact hparent.symm.trans hr'
            · exact hp
          · simp [hname]

/-- The chain of a name without a parent ends at once. -/
theorem chainEnds_of_missing (h : parents.contains name = false) :
    ChainEnds (IsParent parents) name 0 := by
  refine .root (fun parent hparent => ?_)
  rw [SortedMap.contains_of_get? hparent] at h
  cases h

/-- The check passes if all chains end, none of them after more steps than there are parents.
Otherwise it reports a circular chain of the least name whose chain does not end. -/
theorem checkAcyclic_ends (parents : SortedMap String) :
    (checkAcyclic parents = .ok () ∧
      ∀ name, ∃ n ≤ parents.size, ChainEnds (IsParent parents) name n) ∨
    ∃ name chain, checkAcyclic parents = .error (.parentCycle name chain) ∧
      CircularChain (IsParent parents) name chain ∧
      ∀ other < name, ∃ n, ChainEnds (IsParent parents) other n := by
  cases hcheck : checkAcyclic parents with
  | ok _ =>
      refine Or.inl ⟨rfl, fun name => ?_⟩
      by_cases hname : name ∈ parents.keys
      · rcases followParents_ends parents name with ⟨-, hends⟩ | ⟨chain, hfails, -⟩
        · exact hends
        · rw [check_forM.1 hcheck name hname] at hfails
          cases hfails
      · rw [SortedMap.mem_keys_iff, Bool.not_eq_true] at hname
        exact ⟨0, Nat.zero_le _, chainEnds_of_missing hname⟩
  | error f =>
      obtain ⟨before, name, after, hkeys, hbefore, hfails⟩ := check_forM_fails hcheck
      refine Or.inr ?_
      rcases followParents_ends parents name with ⟨hok, -⟩ | ⟨chain, hreport, hchain⟩
      · rw [hok] at hfails
        cases hfails
      · obtain rfl := Except.error.inj (hreport.symm.trans hfails)
        refine ⟨name, chain, rfl, hchain, fun other hless => ?_⟩
        by_cases hother : other ∈ parents.keys
        · have hsorted := parents.keys_sorted
          rw [hkeys] at hother hsorted
          rcases List.mem_append.1 hother with hother | hother
          · rcases followParents_ends parents other with ⟨-, n, -, hends⟩ | ⟨chain', hfails', -⟩
            · exact ⟨n, hends⟩
            · rw [hbefore other hother] at hfails'
              cases hfails'
          -- what the check did not come to is not less
          · exfalso
            have hfrom := (List.pairwise_append.1 hsorted).2.1
            rcases List.mem_cons.1 hother with rfl | hafter
            · exact String.lt_irrefl _ hless
            · exact String.lt_asymm hless ((List.pairwise_cons.1 hfrom).1 other hafter)
        · rw [SortedMap.mem_keys_iff, Bool.not_eq_true] at hother
          exact ⟨0, chainEnds_of_missing hother⟩

/-- Where all chains end the depths are their lengths. -/
theorem get?_depthsOf (parents : SortedMap String) (names : List String)
    (hends : ∀ name, ∃ n ≤ parents.size, ChainEnds (IsParent parents) name n) :
    ∃ depths, depthsOf parents names = .ok depths ∧
      ∀ name n, depths.get? name = some n ↔
        name ∈ names ∧ ChainEnds (IsParent parents) name n := by
  induction names using List.reverseRecOn with
  | nil => exact ⟨∅, rfl, by simp⟩
  | append_singleton rest last ih =>
      obtain ⟨before, hbefore, hget⟩ := ih
      obtain ⟨k, hk, hchain⟩ := hends last
      have hcount : countAncestors parents last (parents.size + 1) 0 last = .ok k := by
        rw [countAncestors_of_chainEnds hchain (by omega) (by omega), Nat.zero_add]
      refine ⟨before.insert last k, ?_, fun name n => ?_⟩
      · rw [depthsOf, List.foldlM_append]
        refine check_bind.2 ⟨before, hbefore, check_bind.2 ⟨before.insert last k, ?_, rfl⟩⟩
        exact check_bind.2 ⟨k, hcount, rfl⟩
      · rw [SortedMap.get?_insert, List.mem_append, List.mem_singleton]
        split
        · next heq =>
            subst heq
            refine ⟨fun h => ⟨Or.inr rfl, Option.some.inj h ▸ hchain⟩, ?_⟩
            rintro ⟨-, h⟩
            rw [ChainEnds.unique (P := IsParent parents) (fun _ _ _ => IsParent.unique) h hchain]
        · next hne =>
            rw [hget]
            exact and_congr_left' ⟨Or.inl, fun h => h.resolve_right (Ne.symm hne)⟩

end Maps

section Registries

variable {g : ResourceRegistry} {parents : SortedMap String} {child parent : String}

/-- Every entry makes a record, under its own name. -/
def NamesOwnEntries (g : ResourceRegistry) : Prop :=
  ∀ name ∈ g.registry.names, ∃ record, ((find name).ask g).1 = .ok record ∧ record.name = name

/-- The record of the entry `child` says that its parent is `parent`. -/
def ParentOf (g : ResourceRegistry) (child parent : String) : Prop :=
  child ∈ g.registry.names ∧
    ∃ record, ((find child).ask g).1 = .ok record ∧ record.parent = some parent

/-- The maps hold the parents of the resources and the lengths of their chains. -/
structure Laid (g : ResourceRegistry) (parents : SortedMap String) (depths : SortedMap Nat) :
    Prop where
  parent : ∀ child parent, parents.get? child = some parent ↔ g.ParentOf child parent
  depth : ∀ name n, depths.get? name = some n ↔
    name ∈ g.registry.names ∧ ChainEnds g.ParentOf name n
  /-- Every resource has a depth. -/
  complete : ∀ name ∈ g.registry.names, ∃ n, depths.get? name = some n
  root : ∀ name ∈ g.registry.names, (∀ parent, ¬ g.ParentOf name parent) →
    depths.get? name = some 0
  child : ∀ child parent, g.ParentOf child parent → parent ∈ g.registry.names →
    ∃ n, depths.get? parent = some n ∧ depths.get? child = some (n + 1)
  /-- A parent that is no entry is the only ancestor. -/
  dangling : ∀ child parent, g.ParentOf child parent → parent ∉ g.registry.names →
    depths.get? child = some 1
  /-- Counting ancestors never refuses to go deeper. -/
  unguarded : ∀ name f, ¬ Counted parents name 0 name (.error f)

/-- A registry whose entries can be gone over. -/
theorem namesOwnEntries_of_all
    (h : (g.registry.names.all fun name =>
      ((find name).ask g).1.toOption.any (fun record => record.name == name)) = true) :
    g.NamesOwnEntries := by
  intro name hname
  obtain ⟨record, hfind, hown⟩ := Resolution.check_of_any (List.all_eq_true.1 h name hname)
  exact ⟨record, hfind, beq_iff_eq.1 hown⟩

/-- All entries make records, and the parents that these name are those of the entries. -/
theorem allAnswer_of_namesOwnEntries (hstart : Derived g g) (h : g.NamesOwnEntries) :
    ∃ records, g.registry.allAnswer = .ok records ∧
      ∀ child parent, (namedParents records).get? child = some parent ↔
        g.ParentOf child parent := by
  have hfind : ∀ name, ((find name).ask g).1 = g.registry.recordAnswer name :=
    fun name => (steady_find g name g hstart).1
  obtain ⟨records, hall⟩ := check_list_mapM_succeeds.2
    (fun name (hname : name ∈ g.registry.names) => by
      obtain ⟨record, hrecord, -⟩ := h name hname
      exact ⟨record, (hfind name).symm.trans hrecord⟩)
  have hown : ∀ r ∈ records, r.name ∈ g.registry.names ∧
      g.registry.recordAnswer r.name = .ok r := by
    intro r hr
    obtain ⟨name, hname, hanswer⟩ := check_list_mapM_mem hall hr
    obtain ⟨record, hrecord, hrname⟩ := h name hname
    obtain rfl := Except.ok.inj (hanswer.symm.trans ((hfind name).symm.trans hrecord))
    rw [hrname]
    exact ⟨hname, hanswer⟩
  refine ⟨records, hall, fun child parent => ?_⟩
  rw [get?_namedParents (fun r hr r' hr' hsame => by
    have hrecord := (hown r hr).2
    rw [hsame, (hown r' hr').2] at hrecord
    exact (Except.ok.inj hrecord).symm)]
  constructor
  · rintro ⟨r, hr, rfl, hparent⟩
    obtain ⟨hname, hanswer⟩ := hown r hr
    exact ⟨hname, r, (hfind r.name).trans hanswer, hparent⟩
  · rintro ⟨hname, r, hanswer, hparent⟩
    obtain ⟨r', hr', hanswer'⟩ := check_list_mapM_visits hall hname
    obtain rfl := Except.ok.inj (((hfind child).symm.trans hanswer).symm.trans hanswer')
    obtain ⟨record, hrecord, hrname⟩ := h child hname
    obtain rfl := Except.ok.inj (hanswer.symm.trans hrecord)
    exact ⟨r, hr', hrname, hparent⟩

/-- Maps that hold the parents and the lengths of the chains are as they should be. -/
theorem laid_of_ends {depths : SortedMap Nat}
    (hparents : ∀ child parent, parents.get? child = some parent ↔ g.ParentOf child parent)
    (hends : ∀ name, ∃ n ≤ parents.size, ChainEnds g.ParentOf name n)
    (hdepths : ∀ name n, depths.get? name = some n ↔
      name ∈ g.registry.names ∧ ChainEnds g.ParentOf name n) : Laid g parents depths where
  parent := hparents
  depth := hdepths
  complete := fun name hname => by
    obtain ⟨n, -, hchain⟩ := hends name
    exact ⟨n, (hdepths name n).2 ⟨hname, hchain⟩⟩
  root := fun name hname hroot => (hdepths name 0).2 ⟨hname, .root hroot⟩
  child := fun child parent hparent hname => by
    obtain ⟨n, -, hchain⟩ := hends parent
    exact ⟨n, (hdepths parent n).2 ⟨hname, hchain⟩,
      (hdepths child (n + 1)).2 ⟨hparent.1, .child hparent hchain⟩⟩
  dangling := fun child parent hparent hname =>
    (hdepths child 1).2 ⟨hparent.1, .child hparent (.root (fun _ h => hname h.1))⟩
  unguarded := fun name f hcounted => by
    have hsame : g.ParentOf = IsParent parents :=
      funext₂ (fun child parent => propext (hparents child parent).symm)
    obtain ⟨n, hn, hchain⟩ := hends name
    rw [hsame] at hchain
    have hanswer : Counted parents name 0 name
        (countAncestors parents name (parents.size + 1) 0 name) :=
      counted_countAncestors (Nat.zero_le _) (by omega)
    rw [countAncestors_of_chainEnds hchain (by omega) (by omega)] at hanswer
    cases hanswer.unique hcounted

end Registries

/-- The parents and the depths.  The loops that follow parents end in every map of parents.
If no resource reaches a circle, both maps are answered and hold the parents and the numbers
of ancestors.  Otherwise both questions fail alike: they report the least name that reaches a
circle, and the names from there to the first that is met again.  Other calls in between
change nothing. -/
theorem parent_and_depth_maps (set : EntrySet) (defaults : Options)
    (cache : SortedMap ResourceRecord)
    (hnames : (ofSet set defaults cache).NamesOwnEntries) :
    let g := ofSet set defaults cache
    (∀ parents start,
      Followed parents start [start] start
        (followParents parents start (parents.size + 1) [start] start) ∧
      Counted parents start 0 start
        (countAncestors parents start (parents.size + 1) 0 start)) ∧
    ∀ calls,
      ((∀ name, ¬ ReachesCircle g.ParentOf name) →
        ∃ parents depths, (parentMap.ask (g.after calls)).1 = .ok parents ∧
          (depthMap.ask (g.after calls)).1 = .ok depths ∧ Laid g parents depths) ∧
      ((∃ name, ReachesCircle g.ParentOf name) →
        ∃ name chain,
          (parentMap.ask (g.after calls)).1 = .error (.parentCycle name chain) ∧
          (depthMap.ask (g.after calls)).1 = .error (.parentCycle name chain) ∧
          ReachesCircle g.ParentOf name ∧
          (∀ other < name, ¬ ReachesCircle g.ParentOf other) ∧
          CircularChain g.ParentOf name chain) := by
  intro g
  have hstart : Derived g g := derived_ofSet set defaults cache
  refine ⟨fun parents start => ⟨followed_followParents parents start,
    counted_countAncestors (Nat.zero_le _) (by omega)⟩, fun calls => ?_⟩
  rw [(steady_parentMap g _ (derived_after hstart calls)).1,
    (steady_depthMap g _ (derived_after hstart calls)).1]
  obtain ⟨records, hall, hparents⟩ := allAnswer_of_namesOwnEntries hstart hnames
  have hsame : IsParent (namedParents records) = g.ParentOf :=
    funext₂ (fun child parent => propext (hparents child parent))
  have hunique : ∀ name a b, g.ParentOf name a → g.ParentOf name b → a = b :=
    hsame ▸ fun _ _ _ => IsParent.unique
  have hcheck := checkAcyclic_ends (namedParents records)
  have hanswer : g.parentsAnswer = (do
      checkAcyclic (namedParents records)
      return namedParents records) := by
    rw [parentsAnswer, hall]
    rfl
  rw [depthsAnswer, hanswer]
  rw [hsame] at hcheck
  rcases hcheck with ⟨hpasses, hends⟩ | ⟨name, chain, hfails, hchain, hleast⟩
  · obtain ⟨depths, hdepths, hget⟩ :=
      get?_depthsOf (namedParents records) g.registry.names (hsame ▸ hends)
    rw [hsame] at hget
    refine ⟨fun _ => ⟨namedParents records, depths, ?_, ?_, laid_of_ends hparents hends hget⟩,
      ?_⟩
    · rw [hpasses]
      rfl
    · rw [hpasses]
      exact hdepths
    · rintro ⟨name, hcircle⟩
      obtain ⟨n, -, hchain⟩ := hends name
      exact absurd hcircle (hchain.not_reachesCircle hunique)
  · refine ⟨fun hnone => absurd hchain.reachesCircle (hnone name), fun _ =>
      ⟨name, chain, ?_, ?_, hchain.reachesCircle, fun other hless => ?_, hchain⟩⟩
    · rw [hfails]
      rfl
    · rw [hfails]
      rfl
    · obtain ⟨n, hother⟩ := hleast other hless
      exact hother.not_reachesCircle hunique

namespace Shelves

def entry (name : String) (parents : List String) : String × Options :=
  (name, SortedMap.ofList ([("name", .string name), ("driver", .string "orm"),
    ("namespace", .string "library"), ("entity", .string name)] ++
    parents.map (fun parent => ("parent", .string parent))))

/-- A book lies in the archive, and its pages in the book.  A loan belongs to a member, of whom
the archive knows nothing. -/
def archive : ResourceRegistry :=
  .ofSet ⟨SortedMap.ofList [entry "archive" [], entry "book" ["archive"], entry "page" ["book"],
    entry "loan" ["member"]], ∅⟩ ∅ ∅

/-- The second and the third volume lead to each other, the first leads to them, and the fourth
leads to itself. -/
def volumes : ResourceRegistry :=
  .ofSet ⟨SortedMap.ofList [entry "vol1" ["vol2"], entry "vol2" ["vol3"], entry "vol3" ["vol2"],
    entry "vol4" ["vol4"]], ∅⟩ ∅ ∅

end Shelves

theorem parent_and_depth_maps_shelves :
    (∃ parents depths, (parentMap.ask Shelves.archive).1 = .ok parents ∧
      (depthMap.ask Shelves.archive).1 = .ok depths ∧ Laid Shelves.archive parents depths ∧
      depths.entries = [("archive", 0), ("book", 1), ("loan", 1), ("page", 2)]) ∧
    (depthMap.ask Shelves.volumes).1 =
      .error (.parentCycle "vol1" ["vol1", "vol2", "vol3", "vol2"]) ∧
    ReachesCircle Shelves.volumes.ParentOf "vol1" ∧
    CircularChain Shelves.volumes.ParentOf "vol1" ["vol1", "vol2", "vol3", "vol2"] := by
  constructor
  · have hends : ((depthMap.ask Shelves.archive).1.toOption.any fun depths =>
        depths.entries == [("archive", 0), ("book", 1), ("loan", 1), ("page", 2)]) = true := by
      decide +kernel
    obtain ⟨-, hcalls⟩ := parent_and_depth_maps _ ∅ ∅
      (namesOwnEntries_of_all (g := Shelves.archive) (by decide +kernel))
    obtain ⟨hforest, htangled⟩ := hcalls []
    obtain ⟨parents, depths, hparents, hdepths, hlaid⟩ := hforest (fun name hcircle => by
      obtain ⟨_, _, -, hfails, -⟩ := htangled ⟨name, hcircle⟩
      have hfails : (depthMap.ask Shelves.archive).1 = _ := hfails
      rw [hfails] at hends
      cases hends)
    refine ⟨parents, depths, hparents, hdepths, hlaid, ?_⟩
    have hdepths : (depthMap.ask Shelves.archive).1 = _ := hdepths
    rw [hdepths] at hends
    exact beq_iff_eq.1 hends
  · have hfails : (depthMap.ask Shelves.volumes).1 =
        .error (.parentCycle "vol1" ["vol1", "vol2", "vol3", "vol2"]) := by
      decide +kernel
    obtain ⟨-, hcalls⟩ := parent_and_depth_maps _ ∅ ∅
      (namesOwnEntries_of_all (g := Shelves.volumes) (by decide +kernel))
    obtain ⟨hforest, htangled⟩ := hcalls []
    obtain ⟨name, chain, -, hreport, hcircle, -, hchain⟩ := htangled (by
      by_contra hnone
      obtain ⟨_, _, -, hdepths, -⟩ := hforest (not_exists.1 hnone)
      cases hdepths.symm.trans hfails)
    obtain ⟨rfl, rfl⟩ := Failure.parentCycle.inj (Except.error.inj (hreport.symm.trans hfails))
    exact ⟨hfails, hcircle, hchain⟩

end ResourceRegistry
end ConfigCompiler
