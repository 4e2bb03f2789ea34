import ConfigCompiler.Catalog.Capability
import Mathlib.Data.Finset.Card
import Mathlib.Data.List.Perm.Subperm
import Mathlib.Logic.Relation

/-!
# Capabilities are what can be reached

What a type implements is found in rounds, as many as there are declarations, although the
declarations may run in circles.  Here the rounds are shown to be enough, and a search that
visits one name after the other is shown to end with the same set.

**Input.**  `Catalog.declareAll` makes a list of declarations, and `Registered` says that one
of them links a name to an interface.

**Search.**  A `Catalog.Search` has a set of names seen and a stack of names to visit.  A visit
puts what it sees for the first time on the stack.  `Search.Halts` counts the visits.

**Invariant.**  `Search.Underway`: what is seen is implemented, what is to be visited was seen,
and all that is declared for the other names seen was seen too.

**Results.**
* `Catalog.covers_capabilitiesOf`: as many rounds as there are declarations leave nothing out.
* `Catalog.hasCapability_iff`: the capabilities are exactly what is implemented.
* `Catalog.Search.halts_of_underway`: a search ends with the capabilities.
* `Catalog.capabilities_reach`: all of this for every list of declarations.
-/

namespace ConfigCompiler

namespace NameSet

theorem contains_foldl_insert (names : List String) (all : NameSet) (k : String) :
    (names.foldl (fun found i => found.insert i ()) all).contains k = true ↔
      all.contains k = true ∨ k ∈ names := by
  induction names generalizing all with
  | nil => simp
  | cons name rest ih =>
      rw [List.foldl_cons, ih]
      simp only [SortedMap.contains_insert, Bool.or_eq_true, decide_eq_true_eq, List.mem_cons]
      rw [eq_comm (a := name), or_comm (a := k = name), or_assoc]

theorem ext_contains {a b : NameSet} (h : ∀ k, a.contains k = true ↔ b.contains k = true) :
    a = b := by
  apply SortedMap.ext_get?
  intro k
  have hk := Bool.eq_iff_iff.2 (h k)
  rw [SortedMap.contains_eq_isSome, SortedMap.contains_eq_isSome] at hk
  cases ha : a.get? k <;> cases hb : b.get? k <;> simp_all

/-- A name that is in the set already adds nothing. -/
theorem insert_of_contains {a : NameSet} {k : String} (h : a.contains k = true) :
    a.insert k () = a := by
  refine ext_contains (fun i => ?_)
  rw [SortedMap.contains_insert, Bool.or_eq_true, decide_eq_true_eq]
  exact or_iff_right_of_imp (fun heq => heq ▸ h)

theorem mem_keys {a : NameSet} {k : String} : k ∈ a.keys ↔ a.contains k = true := by
  rw [SortedMap.mem_keys_iff, SortedMap.contains_eq_isSome]

theorem size_insert {a : NameSet} {k : String} (h : a.contains k = false) :
    (a.insert k ()).size = a.size + 1 := by
  have hperm := (SortedMap.perm_entries_insert h ()).length_eq
  rwa [List.length_cons] at hperm

/-- A set is no larger than a set that has all of its names. -/
theorem size_le {a b : NameSet} (h : ∀ k, a.contains k = true → b.contains k = true) :
    a.size ≤ b.size := by
  have hsub : a.keys ⊆ b.keys := fun k hk => mem_keys.2 (h k (mem_keys.1 hk))
  have hlength := (List.subperm_of_subset a.nodup_keys hsub).length_le
  simpa [SortedMap.keys, SortedMap.size] using hlength

end NameSet

namespace Catalog

variable {c : Catalog} {type via interface : String}

/-- A type is declared to implement an interface. -/
def Declares (c : Catalog) (type interface : String) : Prop :=
  (c.declaredFor type).contains interface = true

/-- A type and interfaces that it is to implement. -/
structure Declaration where
  type : String
  interfaces : List String

/-- The catalog after a list of declarations. -/
def declareAll (c : Catalog) (ds : List Declaration) : Catalog :=
  ds.foldl (fun c d => c.declare d.type d.interfaces) c

/-- One of the declarations links a type to an interface. -/
def Registered (ds : List Declaration) (type interface : String) : Prop :=
  ∃ d ∈ ds, d.type = type ∧ interface ∈ d.interfaces

/-- A declaration adds its own links. -/
theorem declares_declare (c : Catalog) (declared : String) (interfaces : List String) :
    (c.declare declared interfaces).Declares type interface ↔
      c.Declares type interface ∨ declared = type ∧ interface ∈ interfaces := by
  unfold Declares declaredFor declare
  rw [SortedMap.get?_insert]
  split
  · next heq =>
      subst heq
      simp [NameSet.contains_foldl_insert]
  · next hne => simp [hne]

theorem declares_declareAll (c : Catalog) (ds : List Declaration) :
    (c.declareAll ds).Declares type interface ↔
      c.Declares type interface ∨ Registered ds type interface := by
  induction ds generalizing c with
  | nil => simp [declareAll, Registered]
  | cons d rest ih =>
      show ((c.declare d.type d.interfaces).declareAll rest).Declares type interface ↔ _
      rw [ih, declares_declare]
      simp [Registered, or_assoc]

theorem not_declares_empty (type interface : String) : ¬ empty.Declares type interface := by
  unfold Declares declaredFor
  exact nofun

theorem Implements.trans (h : c.Implements type via) (h' : c.Implements via interface) :
    c.Implements type interface := by
  induction h with
  | direct hdeclared => exact .through hdeclared h'
  | through hdeclared _ ih => exact .through hdeclared (ih h')

/-- Implementing is the transitive closure of what is declared. -/
theorem implements_iff_transGen :
    c.Implements type interface ↔ Relation.TransGen c.Declares type interface := by
  constructor
  · intro h
    induction h with
    | direct hdeclared => exact .single hdeclared
    | through hdeclared _ ih => exact .head hdeclared ih
  · intro h
    induction h with
    | single hdeclared => exact .direct hdeclared
    | tail _ hdeclared ih => exact ih.trans (.direct hdeclared)

/-- Everything declared for the type and for the names found was found. -/
def Covers (c : Catalog) (type : String) (found : NameSet) : Prop :=
  ∀ name, name = type ∨ found.contains name = true →
    ∀ i, c.Declares name i → found.contains i = true

/-- A set that covers a type has everything that the type implements. -/
theorem Covers.contains {found : NameSet} (hcovers : c.Covers type found) {name : String}
    (h : c.Implements name interface) (hname : name = type ∨ found.contains name = true) :
    found.contains interface = true := by
  induction h with
  | direct hdeclared => exact hcovers _ hname _ hdeclared
  | through hdeclared _ ih => exact ih (Or.inr (hcovers _ hname _ hdeclared))

theorem contains_capabilityRound (c : Catalog) (found : NameSet) (interface : String) :
    (c.capabilityRound found).contains interface = true ↔
      found.contains interface = true ∨
        ∃ name, found.contains name = true ∧ c.Declares name interface := by
  have hfold : ∀ (names : List String) (all : NameSet),
      (names.foldl (fun all name => all.union (c.declaredFor name)) all).contains interface =
          true ↔
        all.contains interface = true ∨ ∃ name ∈ names, c.Declares name interface := by
    intro names
    induction names with
    | nil => simp
    | cons name rest ih =>
        intro all
        rw [List.foldl_cons, ih, NameSet.contains_union, List.exists_mem_cons_iff, or_assoc]
        rfl
  unfold capabilityRound
  rw [hfold]
  simp only [NameSet.mem_keys]

theorem implements_of_round (n : Nat) :
    ∀ i, (c.capabilityRounds type n).contains i = true → c.Implements type i := by
  induction n with
  | zero => exact fun i hi => .direct hi
  | succ n ih =>
      intro i hi
      rcases (contains_capabilityRound c _ i).1 hi with hold | ⟨name, hname, hdeclared⟩
      · exact ih i hold
      · exact (ih name hname).trans (.direct hdeclared)

theorem declaredFor_of_round (n : Nat) (h : c.Declares type interface) :
    (c.capabilityRounds type n).contains interface = true := by
  induction n with
  | zero => exact h
  | succ n ih => exact (contains_capabilityRound c _ _).2 (Or.inl ih)

/-- The names found in a number of rounds for which something is declared. -/
noncomputable def sources (c : Catalog) (type : String) (n : Nat) : Finset String :=
  c.declared.keys.toFinset.filter
    (fun name => (c.capabilityRounds type n).contains name = true)

theorem mem_sources {n : Nat} {name : String} (hdeclared : c.Declares name interface) :
    name ∈ c.sources type n ↔ (c.capabilityRounds type n).contains name = true := by
  have hkey : name ∈ c.declared.keys := by
    rw [SortedMap.mem_keys_iff]
    unfold Declares declaredFor at hdeclared
    cases hget : c.declared.get? name with
    | some _ => rfl
    | none =>
        rw [hget] at hdeclared
        cases hdeclared
  simp [sources, hkey]

theorem sources_mono (c : Catalog) (type : String) (n : Nat) :
    c.sources type n ⊆ c.sources type (n + 1) := by
  intro name hname
  simp only [sources, Finset.mem_filter] at hname ⊢
  exact ⟨hname.1, (contains_capabilityRound c _ name).2 (Or.inl hname.2)⟩

/-- A round that leaves something out has found more names with declarations than there were
rounds before it. -/
theorem lt_card_sources (n : Nat) {name : String}
    (hname : (c.capabilityRounds type n).contains name = true)
    (hdeclared : c.Declares name interface)
    (hmissing : (c.capabilityRounds type n).contains interface = false) :
    n < (c.sources type n).card := by
  induction n generalizing name interface with
  | zero => exact Finset.card_pos.2 ⟨name, (mem_sources hdeclared).2 hname⟩
  | succ n ih =>
      -- The name is new: else what is declared for it would have been found in this round.
      have hnew : (c.capabilityRounds type n).contains name = false := by
        refine Bool.eq_false_iff.2 (fun hold => ?_)
        have hfound := (contains_capabilityRound c (c.capabilityRounds type n) interface).2
          (Or.inr ⟨name, hold, hdeclared⟩)
        rw [show c.capabilityRound _ = c.capabilityRounds type (n + 1) from rfl,
          hmissing] at hfound
        cases hfound
      have hlt : (c.sources type n).card < (c.sources type (n + 1)).card := by
        refine Finset.card_lt_card ((Finset.ssubset_iff_of_subset (sources_mono c type n)).2
          ⟨name, (mem_sources hdeclared).2 hname, fun hold => ?_⟩)
        rw [mem_sources hdeclared, hnew] at hold
        cases hold
      rcases (contains_capabilityRound c _ name).1 hname with hold | ⟨source, hsource, hlink⟩
      · rw [hnew] at hold
        cases hold
      · have hbefore := ih hsource hlink hnew
        omega

/-- As many rounds as there are declarations leave nothing out. -/
theorem covers_capabilitiesOf (c : Catalog) (type : String) :
    c.Covers type (c.capabilitiesOf type) := by
  rintro name (rfl | hname) i hdeclared
  · exact declaredFor_of_round _ hdeclared
  · cases hfound : (c.capabilitiesOf type).contains i with
    | true => rfl
    | false =>
        have hlt := lt_card_sources c.declared.size hname hdeclared hfound
        have hle : (c.sources type c.declared.size).card ≤ c.declared.keys.length :=
          (Finset.card_filter_le _ _).trans (List.toFinset_card_le _)
        have hlength : c.declared.keys.length = c.declared.size := by
          simp [SortedMap.keys, SortedMap.size]
        omega

/-- The capabilities of a type are exactly what it implements. -/
theorem hasCapability_iff :
    c.hasCapability type interface = true ↔ c.Implements type interface :=
  ⟨implements_of_round c.declared.size interface,
    fun h => (c.covers_capabilitiesOf type).contains h (Or.inl rfl)⟩

/-- A search for everything that a type implements. -/
structure Search where
  seen : NameSet
  pending : List String

namespace Search

/-- A search that has only the type to visit. -/
def start (type : String) : Search := ⟨∅, [type]⟩

/-- See an interface.  If it was not seen before, it is to be visited. -/
def meet (s : Search) (interface : String) : Search :=
  if s.seen.contains interface then s
  else ⟨s.seen.insert interface (), interface :: s.pending⟩

/-- Visit a name: see everything that is declared for it. -/
def visit (c : Catalog) (s : Search) (name : String) : Search :=
  (c.declaredFor name).keys.foldl meet s

/-- A search ends after a number of visits with a set of names. -/
inductive Halts (c : Catalog) : Search → Nat → NameSet → Prop
  | done (seen : NameSet) : Halts c ⟨seen, []⟩ 0 seen
  | visit {seen found : NameSet} {name : String} {rest : List String} {n : Nat} :
      Halts c (visit c ⟨seen, rest⟩ name) n found →
      Halts c ⟨seen, name :: rest⟩ (n + 1) found

/-- A search ends in one way only. -/
theorem Halts.unique {s : Search} {n n' : Nat} {found found' : NameSet}
    (h : Halts c s n found) (h' : Halts c s n' found') : n' = n ∧ found' = found := by
  induction h generalizing n' with
  | done seen =>
      cases h'
      exact ⟨rfl, rfl⟩
  | visit _ ih =>
      cases h' with
      | visit hrest =>
          obtain ⟨rfl, rfl⟩ := ih hrest
          exact ⟨rfl, rfl⟩

/-- The state of a search for what `type` implements. -/
structure Underway (c : Catalog) (type : String) (s : Search) : Prop where
  sound : ∀ i, s.seen.contains i = true → c.Implements type i
  known : ∀ name ∈ s.pending, name = type ∨ s.seen.contains name = true
  covered : ∀ name, name = type ∨ s.seen.contains name = true → name ∉ s.pending →
    ∀ i, c.Declares name i → s.seen.contains i = true

theorem underway_start (c : Catalog) (type : String) : Underway c type (start type) where
  sound := nofun
  known := fun _ hname => Or.inl (List.mem_singleton.1 hname)
  covered := by
    rintro name (rfl | hname) hdone
    · exact absurd (List.mem_singleton_self name) hdone
    · cases hname

section Visit

variable (names : List String) (s : Search)

theorem seen_meet (interface : String) :
    (s.meet interface).seen = s.seen.insert interface () := by
  unfold meet
  split
  · next hseen => exact (NameSet.insert_of_contains hseen).symm
  · rfl

theorem seen_foldl_meet (i : String) :
    (names.foldl meet s).seen.contains i = true ↔ s.seen.contains i = true ∨ i ∈ names := by
  have hseen : (names.foldl meet s).seen =
      names.foldl (fun found i => found.insert i ()) s.seen := by
    induction names generalizing s with
    | nil => rfl
    | cons name rest ih => rw [List.foldl_cons, List.foldl_cons, ih, seen_meet]
  rw [hseen, NameSet.contains_foldl_insert]

/-- What is seen for the first time is to be visited, beside what was to be visited. -/
theorem pending_foldl_meet (i : String) :
    i ∈ (names.foldl meet s).pending ↔
      i ∈ s.pending ∨ i ∈ names ∧ s.seen.contains i = false := by
  induction names generalizing s with
  | nil => simp
  | cons name rest ih =>
      rw [List.foldl_cons, ih]
      unfold meet
      split
      · next hseen =>
          by_cases heq : i = name
          · subst heq
            simp [hseen]
          · simp [heq]
      · next hnew =>
          by_cases heq : i = name
          · subst heq
            simp [hnew]
          · simp [heq, Ne.symm heq, SortedMap.contains_insert]

/-- A name is put on the stack whenever one is added to the set. -/
theorem size_foldl_meet :
    (names.foldl meet s).seen.size + s.pending.length =
      s.seen.size + (names.foldl meet s).pending.length := by
  induction names generalizing s with
  | nil => rfl
  | cons name rest ih =>
      rw [List.foldl_cons]
      have hrest := ih (s.meet name)
      have hstep : (s.meet name).seen.size + s.pending.length =
          s.seen.size + (s.meet name).pending.length := by
        unfold meet
        split
        · rfl
        · next hnew =>
            simp only [NameSet.size_insert (Bool.eq_false_iff.2 hnew), List.length_cons]
            omega
      omega

end Visit

variable {s : Search}

/-- A visit keeps the search underway. -/
theorem Underway.visit {seen : NameSet} {name : String} {rest : List String}
    (h : Underway c type ⟨seen, name :: rest⟩) :
    Underway c type (visit c ⟨seen, rest⟩ name) where
  sound := by
    intro i hi
    rcases (seen_foldl_meet _ _ i).1 hi with hold | hlink
    · exact h.sound i hold
    · have hdeclared : c.Declares name i := NameSet.mem_keys.1 hlink
      rcases h.known name List.mem_cons_self with rfl | hname
      · exact .direct hdeclared
      · exact (h.sound name hname).trans (.direct hdeclared)
  known := by
    intro i hi
    rcases (pending_foldl_meet _ _ i).1 hi with hrest | ⟨hlink, -⟩
    · refine (h.known i (List.mem_cons_of_mem _ hrest)).imp_right (fun hseen => ?_)
      exact (seen_foldl_meet _ _ i).2 (Or.inl hseen)
    · exact Or.inr ((seen_foldl_meet _ _ i).2 (Or.inr hlink))
  covered := by
    intro a ha hdone i hdeclared
    have hpending := mt (pending_foldl_meet _ _ a).2 hdone
    rw [not_or, not_and] at hpending
    refine (seen_foldl_meet _ _ i).2 ?_
    by_cases heq : a = name
    · subst heq
      exact Or.inr (NameSet.mem_keys.2 hdeclared)
    · -- A name that was seen on this visit only is still to be visited.
      have hbefore : a = type ∨ seen.contains a = true := by
        refine ha.imp_right (fun hseen => ?_)
        rcases (seen_foldl_meet _ _ a).1 hseen with hold | hlink
        · exact hold
        · exact Bool.of_not_eq_false (hpending.2 hlink)
      have hwaiting : a ∉ name :: rest := by
        simpa [heq] using hpending.1
      exact Or.inl (h.covered a hbefore hwaiting i hdeclared)

theorem Underway.size_le (h : Underway c type s) : s.seen.size ≤ (c.capabilitiesOf type).size :=
  NameSet.size_le (fun i hi => hasCapability_iff.2 (h.sound i hi))

/-- A search without names to visit has found the capabilities. -/
theorem Underway.seen_eq {seen : NameSet} (h : Underway c type ⟨seen, []⟩) :
    seen = c.capabilitiesOf type := by
  have hcovers : c.Covers type seen := fun name hname => h.covered name hname nofun
  refine NameSet.ext_contains (fun i => ?_)
  exact Iff.trans ⟨h.sound i, fun hi => hcovers.contains hi (Or.inl rfl)⟩ hasCapability_iff.symm

/-- A search ends with the capabilities: every name that is waiting or not yet seen is visited
once more. -/
theorem halts_of_underway (h : Underway c type s) :
    Halts c s ((c.capabilitiesOf type).size - s.seen.size + s.pending.length)
      (c.capabilitiesOf type) := by
  obtain ⟨n, hn⟩ : ∃ n, n = (c.capabilitiesOf type).size - s.seen.size + s.pending.length :=
    ⟨_, rfl⟩
  rw [← hn]
  induction n generalizing s with
  | zero =>
      obtain ⟨seen, pending⟩ := s
      have hnil : pending = [] := List.eq_nil_of_length_eq_zero (by simp only at hn; omega)
      subst hnil
      rw [← h.seen_eq]
      exact .done seen
  | succ n ih =>
      obtain ⟨seen, pending⟩ := s
      cases pending with
      | nil =>
          rw [← h.seen_eq] at hn
          simp at hn
      | cons name rest =>
          have hvisit := h.visit
          have hsize := size_foldl_meet (c.declaredFor name).keys ⟨seen, rest⟩
          have hbefore := h.size_le
          have hafter := hvisit.size_le
          refine .visit (ih hvisit ?_)
          unfold visit at hafter ⊢
          simp only [List.length_cons] at hn hsize hbefore
          omega

end Search

/-- The capabilities of a type after any declarations, which may run in circles.  An interface
is one of them exactly if a chain of declarations, at least one, leads to it; the type itself is
one of them if such a chain leads back to it.  A search for them that visits name after name
ends, with the type and each capability visited once.  What is implemented implements further
interfaces on behalf of the type, and more declarations take nothing away. -/
theorem capabilities_reach :
    (∀ (ds : List Declaration) (type interface : String),
      (empty.declareAll ds).hasCapability type interface = true ↔
        Relation.TransGen (Registered ds) type interface) ∧
    (∀ (c : Catalog) (type : String),
      (∀ interface, c.hasCapability type interface = true ↔ c.Implements type interface) ∧
      ∀ n found, Search.Halts c (Search.start type) n found ↔
        n = (c.capabilitiesOf type).size + 1 ∧ found = c.capabilitiesOf type) ∧
    (∀ (c : Catalog) (type via interface : String), c.hasCapability type via = true →
      c.hasCapability via interface = true → c.hasCapability type interface = true) ∧
    ∀ (c : Catalog) (ds : List Declaration) (type interface : String),
      c.hasCapability type interface = true →
        (c.declareAll ds).hasCapability type interface = true := by
  refine ⟨fun ds type interface => ?_, fun c type => ⟨fun interface => hasCapability_iff,
    fun n found => ⟨fun h => ?_, ?_⟩⟩, fun c type via interface h h' => ?_,
    fun c ds type interface h => ?_⟩
  · rw [hasCapability_iff, implements_iff_transGen]
    have hlinks : (empty.declareAll ds).Declares = Registered ds := by
      funext a b
      rw [eq_iff_iff, declares_declareAll, or_iff_right (not_declares_empty a b)]
    rw [hlinks]
  · exact (Search.halts_of_underway (Search.underway_start c type)).unique h
  · rintro ⟨rfl, rfl⟩
    exact Search.halts_of_underway (Search.underway_start c type)
  · rw [hasCapability_iff] at h h' ⊢
    exact h.trans h'
  · rw [hasCapability_iff, implements_iff_transGen] at h ⊢
    exact Relation.TransGen.mono
      (fun a b hdeclared => (declares_declareAll c ds).2 (Or.inl hdeclared)) _ _ h

namespace Ring

/-- Day turns into night and night into day.  Night brings stars. -/
def turning : List Declaration := [⟨"day", ["night"]⟩, ⟨"night", ["day", "stars"]⟩]

def sky : Catalog := empty.declareAll turning

/-- Stars shine. -/
def shining : List Declaration := [⟨"stars", ["light"]⟩]

end Ring

theorem capabilities_reach_ring :
    Relation.TransGen (Registered Ring.turning) "day" "day" ∧
    ¬ Relation.TransGen (Registered Ring.turning) "stars" "stars" ∧
    Ring.sky.hasCapability "day" "stars" = true ∧
    (Ring.sky.declareAll Ring.shining).hasCapability "day" "stars" = true ∧
    (Ring.sky.declareAll Ring.shining).hasCapability "day" "light" = true ∧
    Search.Halts Ring.sky (Search.start "day") 4 (Ring.sky.capabilitiesOf "day") := by
  obtain ⟨hreach, hsearch, htrans, hmore⟩ := capabilities_reach
  have hnight : Ring.sky.hasCapability "day" "night" = true := by decide +kernel
  have hstars : Ring.sky.hasCapability "night" "stars" = true := by decide +kernel
  have hlight : (Ring.sky.declareAll Ring.shining).hasCapability "stars" "light" = true := by
    decide +kernel
  have hbefore := htrans _ _ _ _ hnight hstars
  have hafter := hmore Ring.sky Ring.shining "day" "stars" hbefore
  refine ⟨(hreach Ring.turning "day" "day").1 (by decide +kernel), fun hcycle => ?_, hbefore,
    hafter, htrans _ _ _ _ hafter hlight, ((hsearch Ring.sky "day").2 4 _).2 ⟨?_, rfl⟩⟩
  · have hnone : (empty.declareAll Ring.turning).hasCapability "stars" "stars" = false := by
      decide +kernel
    rw [(hreach Ring.turning "stars" "stars").2 hcycle] at hnone
    cases hnone
  · decide +kernel

end Catalog
end ConfigCompiler
