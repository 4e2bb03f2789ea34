import ConfigCompiler.Lookup.Hierarchy
import Mathlib.Data.List.Chain
import Mathlib.Data.List.Perm.Subperm

/-!
# Chains of parents

Parents are followed from name to name.  Either the chain ends at a name without a parent,
or it comes to a name that it met before.

**Input.**  `IsParent parents child parent` says that a map holds `parent` under `child`.

**Relations.**  `ChainEnds P name n`: the chain from `name` ends after `n` steps.
`ReachesCircle P name`: it never ends.  `Followed` and `Counted` are the two loops that follow
parents, without a bound on the number of their turns.

**Invariant.**  `Walked parents start before current`: the loop came from `start` to `current`
and passed the names `before`, each once.  All of these have parents, so there are no more of
them than the map has entries.

**Results.**
* `ChainEnds.unique`, `ChainEnds.not_reachesCircle`: a chain that ends has one length and
  reaches no circle.
* `followed_followParents`, `counted_countAncestors`: the bound cuts neither loop short.
* `followParents_ends`: the first loop tells a chain that ends from one that does not, and
  reports the latter up to the first name that is met again.
* `countAncestors_of_chainEnds`: the second loop answers with the length of the chain.
-/

namespace ConfigCompiler
namespace ResourceRegistry

open Relation

section Chains

variable {P : String → String → Prop} {start name parent a : String} {n m : Nat}

/-- Following parents from the name leads into a circle. -/
def ReachesCircle (P : String → String → Prop) (name : String) : Prop :=
  ∃ a, ReflTransGen P name a ∧ TransGen P a a

/-- Following parents from the name ends after `n` steps, at a name without a parent. -/
inductive ChainEnds (P : String → String → Prop) : String → Nat → Prop
  | root {name : String} (hroot : ∀ parent, ¬ P name parent) : ChainEnds P name 0
  | child {name parent : String} {n : Nat} (hparent : P name parent)
      (hrest : ChainEnds P parent n) : ChainEnds P name (n + 1)

/-- The chain starts at a name, follows parents, and ends at the first name that it meets
again. -/
structure CircularChain (P : String → String → Prop) (start : String) (chain : List String) :
    Prop where
  starts : chain.head? = some start
  follows : chain.IsChain P
  /-- Up to the last name none is met twice. -/
  distinct : chain.dropLast.Nodup
  /-- The last name was met before. -/
  returns : ∃ last ∈ chain.dropLast, chain.getLast? = some last

/-- A circular chain shows a circle. -/
theorem CircularChain.reachesCircle {chain : List String} (h : CircularChain P start chain) :
    ReachesCircle P start := by
  obtain ⟨last, hseen, hlast⟩ := h.returns
  have hsplit : chain = chain.dropLast ++ [last] :=
    (List.dropLast_append_getLast? last hlast).symm
  obtain ⟨before, between, hbetween⟩ := List.append_of_mem hseen
  have hfollows := h.follows
  have hstarts := h.starts
  rw [hsplit, hbetween, List.append_assoc, List.cons_append] at hfollows hstarts
  obtain ⟨hto, haround⟩ := List.isChain_split.1 hfollows
  refine ⟨last, ?_, ?_⟩
  · have hreach := List.relationReflTransGen_of_exists_isChain _ hto (by simp)
    have hhead : (before ++ [last]).head (by simp) = start := by
      cases before with
      | nil => exact Option.some.inj hstarts
      | cons first rest => exact Option.some.inj hstarts
    rwa [hhead, List.getLast_append_singleton] at hreach
  · obtain ⟨next, rest, hnext⟩ := List.exists_cons_of_ne_nil
      (List.append_ne_nil_of_right_ne_nil between (List.cons_ne_nil last []))
    rw [hnext, List.isChain_cons_cons] at haround
    refine TransGen.head' haround.1 ?_
    refine List.relationReflTransGen_of_exists_isChain_cons rest haround.2 ?_
    have hlastOf := congrArg List.getLast? hnext
    rw [List.getLast?_append_cons, List.getLast?_eq_some_getLast (List.cons_ne_nil next rest)]
      at hlastOf
    exact (Option.some.inj hlastOf).symm

section Functional

variable (hP : ∀ name a b, P name a → P name b → a = b)
include hP

theorem ChainEnds.step (h : ChainEnds P name n) (hparent : P name parent) :
    ∃ m, n = m + 1 ∧ ChainEnds P parent m := by
  cases h with
  | root hroot => exact absurd hparent (hroot parent)
  | child hother hrest =>
      obtain rfl := hP _ _ _ hparent hother
      exact ⟨_, rfl, hrest⟩

/-- A chain has one length. -/
theorem ChainEnds.unique (h : ChainEnds P name n) (h' : ChainEnds P name m) : n = m := by
  induction h generalizing m with
  | root hroot =>
      cases h' with
      | root _ => rfl
      | child hparent _ => exact absurd hparent (hroot _)
  | child hparent _ ih =>
      obtain ⟨m, rfl, hrest⟩ := h'.step hP hparent
      rw [ih hrest]

/-- Along a chain that ends every chain ends, sooner with each step. -/
theorem ChainEnds.of_reaches (h : ChainEnds P name n) (hreach : ReflTransGen P name a) :
    ∃ m ≤ n, ChainEnds P a m := by
  induction hreach with
  | refl => exact ⟨n, Nat.le_refl n, h⟩
  | tail _ hparent ih =>
      obtain ⟨k, hk, hends⟩ := ih
      obtain ⟨m, rfl, hrest⟩ := hends.step hP hparent
      exact ⟨m, by omega, hrest⟩

/-- A chain that ends reaches no circle: around the circle it would end sooner. -/
theorem ChainEnds.not_reachesCircle (h : ChainEnds P name n) : ¬ ReachesCircle P name := by
  rintro ⟨a, hreach, hcircle⟩
  obtain ⟨k, -, hends⟩ := h.of_reaches hP hreach
  obtain ⟨next, hnext, haround⟩ := TransGen.head'_iff.1 hcircle
  obtain ⟨m, rfl, hrest⟩ := hends.step hP hnext
  obtain ⟨k', hk', hends'⟩ := hrest.of_reaches hP haround
  have hsame := hends.unique hP hends'
  omega

end Functional

end Chains

section Loops

variable {parents : SortedMap String} {start current parent : String}
variable {before : List String}

/-- The map holds the parent of the child. -/
def IsParent (parents : SortedMap String) (child parent : String) : Prop :=
  parents.get? child = some parent

theorem IsParent.unique {name a b : String} (ha : IsParent parents name a)
    (hb : IsParent parents name b) : a = b :=
  Option.some.inj (ha.symm.trans hb)

/-- The loop that looks for circles, without a bound: at the name `current`, with the names
`chain` passed, it ends so. -/
inductive Followed (parents : SortedMap String) (start : String) :
    List String → String → Except Failure Unit → Prop
  | root {chain : List String} {current : String} (hroot : parents.get? current = none) :
      Followed parents start chain current (.ok ())
  | circle {chain : List String} {current parent : String}
      (hparent : parents.get? current = some parent) (hseen : parent ∈ chain) :
      Followed parents start chain current (.error (.parentCycle start (chain ++ [parent])))
  | step {chain : List String} {current parent : String} {answer : Except Failure Unit}
      (hparent : parents.get? current = some parent) (hnew : parent ∉ chain)
      (hrest : Followed parents start (chain ++ [parent]) parent answer) :
      Followed parents start chain current answer

/-- The loop that counts ancestors, without a bound: at the name `current`, at the depth
`depth`, it ends so. -/
inductive Counted (parents : SortedMap String) (start : String) :
    Nat → String → Except Failure Nat → Prop
  | root {depth : Nat} {current : String} (hroot : parents.get? current = none) :
      Counted parents start depth current (.ok depth)
  | refused {depth : Nat} {current parent : String}
      (hparent : parents.get? current = some parent) (hdeep : parents.size < depth + 1) :
      Counted parents start depth current (.error (.parentCycle start [start, parent]))
  | step {depth : Nat} {current parent : String} {answer : Except Failure Nat}
      (hparent : parents.get? current = some parent) (hdepth : depth + 1 ≤ parents.size)
      (hrest : Counted parents start (depth + 1) parent answer) :
      Counted parents start depth current answer

theorem Counted.unique {depth : Nat} {a b : Except Failure Nat}
    (ha : Counted parents start depth current a) (hb : Counted parents start depth current b) :
    a = b := by
  induction ha with
  | root hroot => cases hb <;> simp_all
  | refused hparent hdeep =>
      cases hb with
      | root hroot => simp [hroot] at hparent
      | refused hparent' _ =>
          obtain rfl := IsParent.unique hparent hparent'
          rfl
      | step _ hdepth _ => omega
  | step hparent hdepth _ ih =>
      cases hb with
      | root hroot => simp [hroot] at hparent
      | refused _ hdeep => omega
      | step hparent' _ hrest =>
          obtain rfl := IsParent.unique hparent hparent'
          exact ih hrest

/-- The loop came from `start` to `current` and passed the names `before`, each once. -/
structure Walked (parents : SortedMap String) (start : String) (before : List String)
    (current : String) : Prop where
  starts : (before ++ [current]).head? = some start
  follows : (before ++ [current]).IsChain (IsParent parents)
  distinct : (before ++ [current]).Nodup
  stored : ∀ name ∈ before, parents.contains name = true

theorem walked_start (parents : SortedMap String) (start : String) :
    Walked parents start [] start :=
  ⟨rfl, List.IsChain.singleton start, List.pairwise_singleton _ start, nofun⟩

/-- The names passed and the parent of the last of them follow each other. -/
theorem Walked.isChain (h : Walked parents start before current)
    (hparent : parents.get? current = some parent) :
    ((before ++ [current]) ++ [parent]).IsChain (IsParent parents) := by
  refine h.follows.append (List.IsChain.singleton parent) (fun x hx y hy => ?_)
  rw [List.getLast?_concat, Option.mem_some_iff] at hx
  rw [List.head?_singleton, Option.mem_some_iff] at hy
  exact hx ▸ hy ▸ hparent

theorem Walked.step (h : Walked parents start before current)
    (hparent : parents.get? current = some parent) (hnew : parent ∉ before ++ [current]) :
    Walked parents start (before ++ [current]) parent where
  starts := by rw [List.head?_append, h.starts, Option.some_or]
  follows := h.isChain hparent
  distinct := List.nodup_append.2 ⟨h.distinct, List.pairwise_singleton _ parent,
    fun name hname other hother heq => hnew (List.mem_singleton.1 hother ▸ heq ▸ hname)⟩
  stored := List.forall_mem_append.2 ⟨h.stored,
    List.forall_mem_singleton.2 (SortedMap.contains_of_get? hparent)⟩

/-- All names passed have parents, so that there are no more of them than entries. -/
theorem Walked.length_le (h : Walked parents start before current) :
    before.length ≤ parents.size := by
  have hkeys : before ⊆ parents.keys :=
    fun name hname => (SortedMap.mem_keys_iff parents name).2 (h.stored name hname)
  have hle := ((List.nodup_append.1 h.distinct).1.subperm hkeys).length_le
  rwa [SortedMap.keys, List.length_map] at hle

theorem Walked.circularChain (h : Walked parents start before current)
    (hparent : parents.get? current = some parent) (hseen : parent ∈ before ++ [current]) :
    CircularChain (IsParent parents) start ((before ++ [current]) ++ [parent]) where
  starts := by rw [List.head?_append, h.starts, Option.some_or]
  follows := h.isChain hparent
  distinct := by rw [List.dropLast_concat]; exact h.distinct
  returns := ⟨parent, by rwa [List.dropLast_concat], List.getLast?_concat⟩

/-- The bound on the turns of the first loop is never met. -/
theorem Walked.followed {fuel : Nat} (h : Walked parents start before current)
    (hfuel : parents.size < fuel + before.length) :
    Followed parents start (before ++ [current]) current
      (followParents parents start fuel (before ++ [current]) current) := by
  induction fuel generalizing before current with
  | zero =>
      have hle := h.length_le
      omega
  | succ fuel ih =>
      unfold followParents
      cases hparent : parents.get? current with
      | none => exact .root hparent
      | some parent =>
          dsimp only
          split
          · next hseen => exact .circle hparent (List.contains_iff_mem.1 hseen)
          · next hnew =>
              rw [List.contains_iff_mem] at hnew
              refine .step hparent hnew (ih (h.step hparent hnew) ?_)
              rw [List.length_append, List.length_singleton]
              omega

theorem followed_followParents (parents : SortedMap String) (start : String) :
    Followed parents start [start] start
      (followParents parents start (parents.size + 1) [start] start) :=
  (walked_start parents start).followed (by rw [List.length_nil]; omega)

/-- The bound on the turns of the second loop is never met: the loop refuses to go deeper
before. -/
theorem counted_countAncestors {fuel depth : Nat} (hdepth : depth ≤ parents.size)
    (hfuel : parents.size < fuel + depth) :
    Counted parents start depth current
      (countAncestors parents start fuel depth current) := by
  induction fuel generalizing depth current with
  | zero => omega
  | succ fuel ih =>
      unfold countAncestors
      cases hparent : parents.get? current with
      | none => exact .root hparent
      | some parent =>
          dsimp only
          split
          · next hdeep => exact .refused hparent hdeep
          · next hshallow => exact .step hparent (by omega) (ih (by omega) (by omega))

/-- Where the first loop finds no circle the chain ends, within the bound. -/
theorem Walked.chainEnds (h : Walked parents start before current)
    (hfollowed : Followed parents start (before ++ [current]) current (.ok ())) :
    ∃ n, ChainEnds (IsParent parents) current n ∧ before.length + n ≤ parents.size := by
  generalize hchain : before ++ [current] = chain at hfollowed
  generalize hanswer : (.ok () : Except Failure Unit) = answer at hfollowed
  induction hfollowed generalizing before with
  | root hroot =>
      refine ⟨0, .root (fun parent hparent => ?_), h.length_le⟩
      rw [IsParent, hroot] at hparent
      cases hparent
  | circle _ _ => cases hanswer
  | step hparent hnew _ ih =>
      subst hchain
      obtain ⟨n, hends, hle⟩ := ih (h.step hparent hnew) rfl hanswer
      rw [List.length_append, List.length_singleton] at hle
      exact ⟨n + 1, .child hparent hends, by omega⟩

/-- Where the first loop fails it reports a circular chain. -/
theorem Walked.reports {f : Failure} (h : Walked parents start before current)
    (hfollowed : Followed parents start (before ++ [current]) current (.error f)) :
    ∃ chain, f = .parentCycle start chain ∧
      CircularChain (IsParent parents) start chain := by
  generalize hchain : before ++ [current] = chain at hfollowed
  generalize hanswer : (.error f : Except Failure Unit) = answer at hfollowed
  induction hfollowed generalizing before with
  | root _ => cases hanswer
  | circle hparent hseen =>
      subst hchain
      exact ⟨_, Except.error.inj hanswer, h.circularChain hparent hseen⟩
  | step hparent hnew _ ih =>
      subst hchain
      exact ih (h.step hparent hnew) rfl hanswer

/-- The first loop ends without a failure if the chain ends, and otherwise reports how the
chain comes to a name again. -/
theorem followParents_ends (parents : SortedMap String) (start : String) :
    (followParents parents start (parents.size + 1) [start] start = .ok () ∧
      ∃ n ≤ parents.size, ChainEnds (IsParent parents) start n) ∨
    ∃ chain, followParents parents start (parents.size + 1) [start] start =
        .error (.parentCycle start chain) ∧
      CircularChain (IsParent parents) start chain := by
  have hwalked := walked_start parents start
  have hfollowed := followed_followParents parents start
  cases hends : followParents parents start (parents.size + 1) [start] start with
  | ok _ =>
      rw [hends] at hfollowed
      obtain ⟨n, hchain, hle⟩ := hwalked.chainEnds hfollowed
      rw [List.length_nil] at hle
      exact Or.inl ⟨rfl, n, by omega, hchain⟩
  | error f =>
      rw [hends] at hfollowed
      obtain ⟨chain, rfl, hchain⟩ := hwalked.reports hfollowed
      exact Or.inr ⟨chain, rfl, hchain⟩

/-- The second loop answers with the length of a chain that is not longer than the map. -/
theorem countAncestors_of_chainEnds {fuel depth n : Nat}
    (h : ChainEnds (IsParent parents) current n) (hfuel : n < fuel)
    (hle : depth + n ≤ parents.size) :
    countAncestors parents start fuel depth current = .ok (depth + n) := by
  induction h generalizing fuel depth with
  | @root name hroot =>
      obtain ⟨fuel, rfl⟩ := Nat.exists_eq_succ_of_ne_zero (Nat.ne_of_gt hfuel)
      have hnone : parents.get? name = none :=
        Option.eq_none_iff_forall_ne_some.2 hroot
      rw [countAncestors, hnone]
      rfl
  | @child name parent n hparent _ ih =>
      obtain ⟨fuel, rfl⟩ := Nat.exists_eq_succ_of_ne_zero (Nat.ne_of_gt (Nat.zero_lt_of_lt hfuel))
      have hget : parents.get? name = some parent := hparent
      rw [countAncestors, hget]
      dsimp only
      rw [if_neg (by omega), ih (by omega) (by omega)]
      congr 1
      omega

end Loops

end ResourceRegistry
end ConfigCompiler
