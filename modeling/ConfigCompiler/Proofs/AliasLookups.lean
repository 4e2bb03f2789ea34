import ConfigCompiler.Proofs.EntrySets
import ConfigCompiler.Proofs.LookupHistory

/-!
# Two ways to follow an alias

A set of entries says which name a text leads to: to itself if it is one, and else to what it
is an alias for, if that is a name.  A registry follows texts on its own: what is no name goes
to what it is an alias for, whatever that is, and a text that is no alias either goes to
itself; only then it is looked whether something is stored there.

Both say the same about every set of entries, be it that an alias leads to no name, to another
alias, or is a name itself.

**Results.**
* `Registry.canonical?_eq`: the answer of the set is that of the registry, if it is a name.
* `Registry.find_eq_of_leads`, `Registry.find_of_nowhere`: look-ups of a text by what the set
  says.
* `aliases_agree`: both, after any look-ups.
-/

namespace ConfigCompiler

/-- Following a text twice leads where following it once does. -/
theorem EntrySet.canonical?_of_canonical? {s : EntrySet} {text name : String}
    (h : s.canonical? text = some name) : s.canonical? name = some name :=
  canonical?_of_contains (contains_of_canonical? h)

namespace Registry

open EntrySet

variable {ρ : Type} [EntityRecord ρ] {g : Registry ρ} {text name : String}

omit [EntityRecord ρ] in
/-- A text leads to what the registry makes of it, if that is a name. -/
theorem canonical?_eq (g : Registry ρ) (text : String) :
    g.set.canonical? text = (some (g.canonical text)).filter g.set.configs.contains := by
  unfold EntrySet.canonical? canonical
  cases hstored : g.set.configs.contains text with
  | true => simp [Option.filter, hstored]
  | false => cases g.set.aliases.get? text <;> simp [Option.filter, hstored]

omit [EntityRecord ρ] in
theorem canonical_of_canonical? (h : g.set.canonical? text = some name) :
    g.canonical text = name := by
  rw [canonical?_eq] at h
  exact Option.some.inj (Option.filter_eq_some_iff.1 h).1

omit [EntityRecord ρ] in
/-- Nothing is stored where a text goes that leads nowhere. -/
theorem get?_of_nowhere (h : g.set.canonical? text = none) :
    g.set.configs.get? (g.canonical text) = none := by
  rw [canonical?_eq, Option.filter_eq_none_iff] at h
  simpa [SortedMap.contains] using h

omit [EntityRecord ρ] in
/-- A text is known if it leads to a stored entry. -/
theorem has_eq (g : Registry ρ) (name : String) :
    g.has name = (g.set.canonical? name).isSome := by
  rw [canonical?_eq, has]
  cases hstored : g.set.configs.contains (g.canonical name) <;> simp [Option.filter, hstored]

omit [EntityRecord ρ] in
/-- What is stored is known. -/
theorem has_of_contains (g : Registry ρ)
    (h : g.set.configs.contains name = true) : g.has name = true := by
  rw [has_eq, canonical?_of_contains h]
  rfl

/-- A look-up of a text is one of the name it leads to. -/
theorem find_eq_of_leads (h : g.set.canonical? text = some name) :
    (find text).ask g = (find name).ask g := by
  have hname := contains_of_canonical? h
  obtain ⟨stored, hstored⟩ := SortedMap.exists_of_contains hname
  rw [ask_find, ask_find, canonical_of_canonical? h, canonical_of_contains hname]
  simp only [hstored]

/-- A text that leads nowhere is not found, and nothing changes. -/
theorem find_of_nowhere (h : g.set.canonical? text = none) :
    (find text).ask g = (.error (.notFound (EntityRecord.kind ρ) text), g) := by
  rw [ask_find, get?_of_nowhere h]

theorem findOptional_of_nowhere (h : g.set.canonical? text = none) :
    (findOptional text).ask g = (.ok none, g) := by
  rw [ask_findOptional, get?_of_nowhere h]

/-- A text leads to the record of its name, which is kept under the name. -/
theorem find_of_recordOf {stored : Options} {record : ρ}
    (hleads : g.set.canonical? text = some name)
    (hstored : g.set.configs.get? name = some stored)
    (hrecord : g.recordOf name stored = .ok record) :
    ∃ g', (find text).ask g = (.ok (name, record), g') ∧ g'.cache.get? name = some record := by
  rw [ask_find, canonical_of_canonical? hleads]
  simp only [hstored]
  unfold recordOf at hrecord
  cases hkept : g.cache.get? name with
  | some kept =>
      rw [hkept] at hrecord
      cases hrecord
      exact ⟨g, rfl, hkept⟩
  | none =>
      rw [hkept] at hrecord
      simp only [hrecord]
      exact ⟨g.keep name record, rfl, SortedMap.get?_insert_self _ _ _⟩

/-- An entry whose options make a record has one. -/
theorem recordOf_of_construct {stored : Options} {made : ρ}
    (h : EntityRecord.construct name (Options.merge g.defaults stored) = .ok made) :
    ∃ record, g.recordOf name stored = .ok record := by
  unfold recordOf
  cases g.cache.get? name with
  | some kept => exact ⟨kept, rfl⟩
  | none => exact ⟨g.hook made, by rw [fresh, h]; rfl⟩

end Registry

/-- The set and the registry follow names and aliases alike.  Whatever was looked up before,
the registry knows the texts that the set knows; a text that leads to a name in the set goes
to that name in the registry, and is looked up as that name is; a text that leads nowhere is
not found, and nothing changes.  Where all entries make records, the name and every text
that leads to it are answered with one record, which is kept under the name.  In the set every
name leads to itself, and following a text twice leads where following it once does. -/
theorem aliases_agree {ρ : Type} [EntityRecord ρ] (set : EntrySet) (defaults : Options)
    (cache : SortedMap ρ) (hook : ρ → ρ) :
    let g : Registry ρ := { set, defaults, cache, hook }
    (∀ calls text, (g.after calls).has text = set.contains text) ∧
    (∀ calls text name, set.canonical? text = some name →
      (g.after calls).canonical text = name ∧
      (Registry.find text).ask (g.after calls) = (Registry.find name).ask (g.after calls)) ∧
    ((∀ name stored, set.configs.get? name = some stored →
        ∃ made : ρ, EntityRecord.construct name (Options.merge defaults stored) = .ok made) →
      ∀ text name, set.canonical? text = some name → ∃ record, ∀ calls, ∃ g',
        (Registry.find text).ask (g.after calls) = (.ok (name, record), g') ∧
        (Registry.find name).ask (g.after calls) = (.ok (name, record), g') ∧
        g'.cache.get? name = some record) ∧
    (∀ calls text, set.canonical? text = none →
      (Registry.find text).ask (g.after calls) =
        (.error (.notFound (EntityRecord.kind ρ) text), g.after calls) ∧
      (Registry.findOptional text).ask (g.after calls) = (.ok none, g.after calls)) ∧
    (∀ name, set.configs.contains name = true → set.canonical? name = some name) ∧
    ∀ text name, set.canonical? text = some name → set.canonical? name = some name := by
  intro g
  have hset : ∀ calls, (g.after calls).set = set := by
    intro calls
    obtain ⟨built, hfilled⟩ := Registry.filled_after calls g
    exact hfilled.set
  refine ⟨fun calls text => ?_, fun calls text name hleads => ?_,
    fun hbuilds text name hleads => ?_, fun calls text hnowhere => ?_,
    fun name => EntrySet.canonical?_of_contains,
    fun text name => EntrySet.canonical?_of_canonical?⟩
  · rw [Registry.has_eq, hset, EntrySet.contains]
  · rw [← hset calls] at hleads
    exact ⟨Registry.canonical_of_canonical? hleads, Registry.find_eq_of_leads hleads⟩
  · obtain ⟨stored, hstored⟩ :=
      SortedMap.exists_of_contains (EntrySet.contains_of_canonical? hleads)
    obtain ⟨made, hmade⟩ := hbuilds name stored hstored
    obtain ⟨record, hrecord⟩ := Registry.recordOf_of_construct (g := g) hmade
    refine ⟨record, fun calls => ?_⟩
    -- the record is the same after any look-ups
    obtain ⟨built, hfilled⟩ := Registry.filled_after calls g
    rw [← hfilled.recordOf_eq hstored] at hrecord
    have hleads' : (g.after calls).set.canonical? text = some name := by rwa [hset]
    have hstored' : (g.after calls).set.configs.get? name = some stored := by rwa [hset]
    obtain ⟨g', hfind, hkept⟩ := Registry.find_of_recordOf hleads' hstored' hrecord
    exact ⟨g', hfind, Registry.find_eq_of_leads hleads' ▸ hfind, hkept⟩
  · rw [← hset calls] at hnowhere
    exact ⟨Registry.find_of_nowhere hnowhere, Registry.findOptional_of_nowhere hnowhere⟩

namespace Library

/-- Two permissions.  One alias leads to a permission that is gone, one to another alias, and one
is the name of a permission itself. -/
def set : EntrySet where
  configs := SortedMap.ofList [
    ("borrow", SortedMap.ofList [("name", .string "borrow"), ("label", .string "Borrow")]),
    ("renew", SortedMap.ofList [("name", .string "renew"), ("label", .string "Renew")])]
  aliases := SortedMap.ofList [
    ("loan", "borrow"), ("copy", "photocopy"), ("take", "loan"), ("renew", "borrow")]

def registry : Registry PermissionRecord := .ofSet set ∅

/-- Every permission makes a record. -/
theorem builds (name : String) (stored : Options) (h : set.configs.get? name = some stored) :
    ∃ made : PermissionRecord, EntityRecord.construct name (Options.merge ∅ stored) = .ok made := by
  have hall : ∀ e ∈ set.configs.entries, (EntityRecord.construct e.1 (Options.merge ∅ e.2) :
      Except Failure PermissionRecord).toOption.isSome = true := by decide +kernel
  have hmade := hall _ ((SortedMap.mem_entries_iff _ _ _).2 h)
  cases hmakes : (EntityRecord.construct name (Options.merge ∅ stored) :
      Except Failure PermissionRecord) with
  | ok made => exact ⟨made, rfl⟩
  | error f =>
      rw [hmakes] at hmade
      cases hmade

end Library

theorem aliases_agree_library :
    (∃ record, ∀ calls, ∃ g',
      (Registry.find "loan").ask (Library.registry.after calls) = (.ok ("borrow", record), g') ∧
      g'.cache.get? "borrow" = some record) ∧
    (∀ calls, (Registry.find "take").ask (Library.registry.after calls) =
      (.error (.notFound .permission "take"), Library.registry.after calls)) ∧
    (∀ calls, (Library.registry.after calls).has "copy" = false) ∧
    ∀ calls, (Library.registry.after calls).canonical "renew" = "renew" := by
  obtain ⟨hhas, hleads, hrecord, hnowhere, -, -⟩ :=
    aliases_agree Library.set ∅ (∅ : SortedMap PermissionRecord) id
  refine ⟨?_, fun calls => (hnowhere calls "take" (by decide)).1,
    fun calls => (hhas calls "copy").trans (by decide),
    fun calls => (hleads calls "renew" "renew" (by decide)).1⟩
  obtain ⟨record, hfinds⟩ := hrecord Library.builds "loan" "borrow" (by decide)
  refine ⟨record, fun calls => ?_⟩
  obtain ⟨g', hfind, -, hkept⟩ := hfinds calls
  exact ⟨g', hfind, hkept⟩

end ConfigCompiler
