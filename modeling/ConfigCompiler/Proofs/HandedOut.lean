import ConfigCompiler.Proofs.LookupHistory
import ConfigCompiler.Proofs.Questions

/-!
# Records that are handed out

A registry hands out records in many ways: when it is asked for one, when it goes over
all of them, and as the children of others.  Every record is that of a stored entry.

**Input.**  `Reply.contents` lists the records in a reply.  `HandedOut g record` says that
some call, after any others, is replied to with the record.

**Results.**
* `Registry.recordAt_of_reply`, `ResourceRegistry.recordAt_of_reply`: single replies.
* `ResourceRegistry.recordAt_of_handedOut`: all calls, in any order.
-/

namespace ConfigCompiler

namespace Registry

open Resolution

variable {ρ : Type} [EntityRecord ρ] {g : Registry ρ} {name key : String} {record : ρ}

/-- The records in a reply. -/
def Reply.contents : Reply ρ → List ρ
  | .has _ => []
  | .record found => [found.2]
  | .optional found? => found?.toList.map Prod.snd
  | .records results => results.filterMap Except.toOption
  | .count _ => []

/-- The record is that of the entry under the key. -/
def RecordAt (g : Registry ρ) (key : String) (record : ρ) : Prop :=
  ∃ stored, g.set.configs.get? key = some stored ∧ g.recordOf key stored = .ok record

theorem recordAt_of_optionalAnswer {found : String × ρ}
    (h : g.optionalAnswer name = .ok (some found)) : g.RecordAt found.1 found.2 := by
  unfold optionalAnswer at h
  cases hstored : g.set.configs.get? (g.canonical name) with
  | none =>
      rw [hstored] at h
      cases h
  | some stored =>
      simp only [hstored] at h
      obtain ⟨record, hrecord, hfound⟩ := check_bind.1 h
      obtain rfl := Option.some.inj (check_pure.1 hfound)
      exact ⟨stored, hstored, hrecord⟩

theorem recordAt_of_findAnswer {found : String × ρ} (h : g.findAnswer name = .ok found) :
    g.RecordAt found.1 found.2 := by
  obtain ⟨found?, hfound, hlast⟩ := check_bind.1 h
  cases found? with
  | none => cases hlast
  | some other =>
      obtain rfl := check_pure.1 hlast
      exact recordAt_of_optionalAnswer hfound

theorem recordAt_of_recordAnswer (h : g.recordAnswer name = .ok record) :
    ∃ key, g.RecordAt key record := by
  obtain ⟨found, hfound, hlast⟩ := check_bind.1 h
  obtain rfl := check_pure.1 hlast
  exact ⟨found.1, recordAt_of_findAnswer hfound⟩

/-- Every record in a reply is that of an entry. -/
theorem recordAt_of_reply {call : Call} {reply : Reply ρ} (h : call.answer g = .ok reply)
    (hmem : record ∈ reply.contents) : ∃ key, g.RecordAt key record := by
  cases call with
  | has name =>
      obtain rfl := Except.ok.inj h
      cases hmem
  | find name =>
      obtain ⟨found, hfound, hreply⟩ := check_bind.1 h
      obtain rfl := check_pure.1 hreply
      obtain rfl := List.mem_singleton.1 hmem
      exact ⟨found.1, recordAt_of_findAnswer hfound⟩
  | findOptional name =>
      obtain ⟨found?, hfound, hreply⟩ := check_bind.1 h
      obtain rfl := check_pure.1 hreply
      cases found? with
      | none => cases hmem
      | some found =>
          obtain rfl := List.mem_singleton.1 hmem
          exact ⟨found.1, recordAt_of_optionalAnswer hfound⟩
  | pass length =>
      obtain rfl := Except.ok.inj h
      obtain ⟨result, hresult, hrecord⟩ := List.mem_filterMap.1 hmem
      obtain ⟨name, -, rfl⟩ := List.mem_map.1 hresult
      cases hanswer : g.recordAnswer name with
      | error e =>
          rw [hanswer] at hrecord
          cases hrecord
      | ok other =>
          rw [hanswer] at hrecord
          obtain rfl := Option.some.inj hrecord
          exact recordAt_of_recordAnswer hanswer
  | warmUp =>
      obtain ⟨count, -, hreply⟩ := check_bind.1 h
      obtain rfl := check_pure.1 hreply
      cases hmem

end Registry

namespace ResourceRegistry

open Resolution

variable {g : ResourceRegistry} {record parent : ResourceRecord} {call : Call} {reply : Reply}

/-- The records in a reply. -/
def Reply.contents : Reply → List ResourceRecord
  | .lookUp reply => reply.contents
  | .children m => m.values
  | _ => []

/-- Some call, after any others, is replied to with the record. -/
def HandedOut (g : ResourceRegistry) (record : ResourceRecord) : Prop :=
  ∃ calls reply, .ok reply ∈ g.answersTo calls ∧ record ∈ reply.contents

/-- Every child is the record of an entry. -/
theorem recordAt_of_child {children : SortedMap ResourceRecord}
    (h : g.childrenAnswer parent = .ok children) {name : String}
    (hmem : children.get? name = some record) : ∃ key, g.registry.RecordAt key record := by
  unfold childrenAnswer at h
  split at h
  · let AllStored (m : SortedMap ResourceRecord) : Prop :=
      ∀ name record, m.get? name = some record → ∃ key, g.registry.RecordAt key record
    -- the step is the same whether the child is taken or passed over
    have hstep : ∀ other ∈ g.registry.names, ∀ m m', AllStored m →
        (g.registry.recordAnswer other >>= withChild parent m) = .ok m' → AllStored m' := by
      intro other _ m m' hm hnext
      obtain ⟨r, hr, htake⟩ := check_bind.1 hnext
      unfold withChild at htake
      split at htake
      · obtain rfl := check_pure.1 htake
        exact hm
      · split at htake
        · cases htake
        · obtain rfl := check_pure.1 htake
          intro name record hget
          rw [SortedMap.get?_insert] at hget
          split at hget
          · obtain rfl := Option.some.inj hget
            exact Registry.recordAt_of_recordAnswer hr
          · exact hm name record hget
    exact check_foldlM_induction hstep h (fun _ _ hnone => by cases hnone) name record hmem
  · obtain rfl := check_pure.1 h
    cases hmem

/-- Every record in a reply is that of an entry. -/
theorem recordAt_of_reply (h : call.answer g = .ok reply) (hmem : record ∈ reply.contents) :
    ∃ key, g.registry.RecordAt key record := by
  cases call with
  | lookUp call =>
      obtain ⟨inner, hinner, hreply⟩ := check_bind.1 h
      obtain rfl := check_pure.1 hreply
      exact Registry.recordAt_of_reply hinner hmem
  | children parent =>
      obtain ⟨children, hchildren, hreply⟩ := check_bind.1 h
      obtain rfl := check_pure.1 hreply
      obtain ⟨⟨name, child⟩, hentry, rfl⟩ := List.mem_map.1 hmem
      exact recordAt_of_child hchildren ((SortedMap.mem_entries_iff _ _ _).1 hentry)
  | parentMap | depthMap | eventPriorityMap =>
      obtain ⟨_, -, hreply⟩ := check_bind.1 h
      obtain rfl := check_pure.1 hreply
      cases hmem
  | invalidate =>
      obtain rfl := Except.ok.inj h
      cases hmem

/-- Every record that is handed out is that of an entry. -/
theorem recordAt_of_handedOut (hstart : Derived g g) (h : HandedOut g record) :
    ∃ key, g.registry.RecordAt key record := by
  obtain ⟨calls, reply, hreply, hmem⟩ := h
  rw [answersTo_eq hstart] at hreply
  obtain ⟨call, -, hanswer⟩ := List.mem_map.1 hreply
  exact recordAt_of_reply hanswer hmem

/-- A record that is found is handed out. -/
theorem handedOut_of_findAnswer (hstart : Derived g g) {found : String × ResourceRecord}
    {name : String} (h : g.registry.findAnswer name = .ok found) : HandedOut g found.2 := by
  let call : Call := .lookUp (.find name)
  have hanswer : call.answer g = .ok (.lookUp (.record found)) := by
    simp only [call, Call.answer, Registry.Call.answer, h]
    rfl
  refine ⟨[call], .lookUp (.record found), ?_, List.mem_singleton.2 rfl⟩
  rw [answersTo_eq hstart, List.map_singleton, hanswer]
  exact List.mem_singleton.2 rfl

end ResourceRegistry

end ConfigCompiler
