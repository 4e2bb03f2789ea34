import ConfigCompiler.Compile.Persisted
import ConfigCompiler.Proofs.ReadBack
import ConfigCompiler.Proofs.WrittenTimes

/-!
# Compiled configurations are read back

**Relation.**  `Compiled.IsPersistable` says that the parts of a compiled configuration can be
written and read: its values are legible, its version is a word, its time is writable.

**Results.**
* `EntrySet.ofDocument?_toValue`: a set is read back from its record.
* `Compiled.ofPersisted?_persisted`: a compiled configuration is read back from its persisted
  form, but for the raw entries, which are not persisted.
-/

namespace ConfigCompiler

variable {depth : Nat}

/-- A map of different names and their values answers with those values. -/
theorem SortedMap.map_get?_ofList {α : Type} {names : List String} {values : List α}
    (hnames : names.Nodup) (hlength : names.length = values.length) :
    names.map (ofList (names.zip values)).get? = values.map some := by
  have hfold : ∀ (names : List String) (values : List α) (m : SortedMap α), names.Nodup →
      names.length = values.length →
      let out := (names.zip values).foldl (fun m e => m.insert e.1 e.2) m
      names.map out.get? = values.map some ∧ ∀ k, k ∉ names → out.get? k = m.get? k := by
    intro names
    induction names with
    | nil =>
        rintro (_ | _) m - hlength
        · exact ⟨rfl, fun _ _ => rfl⟩
        · cases hlength
    | cons n names ih =>
        rintro (_ | ⟨v, values⟩) m hnodup hlength
        · cases hlength
        · obtain ⟨hfresh, hrest⟩ := List.nodup_cons.1 hnodup
          obtain ⟨hvalues, hothers⟩ := ih values (m.insert n v) hrest (Nat.succ.inj hlength)
          refine ⟨?_, fun k hk => ?_⟩
          · rw [List.map_cons, List.map_cons]
            exact congr (congrArg List.cons
              ((hothers n hfresh).trans (SortedMap.get?_insert_self m n v))) hvalues
          · rw [List.mem_cons, not_or] at hk
            refine (hothers k hk.2).trans ?_
            rw [SortedMap.get?_insert, if_neg (Ne.symm hk.1)]
  exact (hfold names values ∅ hnames hlength).1

/-- A number below a bound is read back. -/
theorem Json.Document.natBelow?_ofValue {bound n : Nat} (h : n < bound) :
    (ofValue (.int n)).natBelow? bound = some n := by
  simp [ofValue, Value.int, Value.number, ofTree, natBelow?, h]

theorem Tree.fieldsLegible_iff (fields : List (String × Tree)) :
    fieldsLegible depth fields = true ↔ ∀ e ∈ fields, e.2.isLegible depth = true := by
  induction fields with
  | nil => simp [fieldsLegible]
  | cons e fields ih => simp [fieldsLegible, ih]

/-- What stands in a legible object is legible, one level less deep. -/
theorem Value.isLegible_field {m : Options} {k : String} {v : Value}
    (h : (Value.object m).tree.isLegible depth = true) (hv : m.get? k = some v) :
    v.tree.isLegible (depth - 1) = true := by
  rw [Value.object, Tree.isLegible, Bool.and_eq_true, Tree.fieldsLegible_iff] at h
  have hmem : (k, v.tree) ∈ (m.map Value.tree).entries := by
    rw [SortedMap.mem_entries_iff, SortedMap.get?_map, hv]
    rfl
  exact h.2 _ hmem

/-- Entries are read back from their bags. -/
theorem EntryTable.decodeEntries?_bags (entries : SortedMap Options)
    (h : (EntryTable.bags entries).tree.isLegible depth = true) :
    decodeEntries? (depth - 1) (some (Json.Document.ofValue (bags entries))) = some entries := by
  refine Json.Document.mapOf?_ofValue entries (fun k bag hbag => ?_)
  exact Json.Document.options?_ofValue (Value.isLegible_field h
    (k := k) (by rw [SortedMap.get?_map, hbag]; rfl))

/-- A set is read back from its record. -/
theorem EntrySet.ofDocument?_toValue {s : EntrySet} (h : s.toValue.tree.isLegible depth = true) :
    EntrySet.ofDocument? depth (Json.Document.ofValue s.toValue) = some s := by
  have hrecord := Json.Document.record?_ofValue
    ((SortedMap.singleton "configs" (EntryTable.bags s.configs)).insert
      "aliases" (.object (s.aliases.map Value.string))) ["configs", "aliases"]
  have hconfigs := EntryTable.decodeEntries?_bags s.configs
    (Value.isLegible_field h (k := "configs") rfl)
  have haliases : (Json.Document.ofValue (.object (s.aliases.map Value.string))).mapOf?
      Json.Document.text? = some s.aliases :=
    Json.Document.mapOf?_ofValue s.aliases (fun _ _ _ => rfl)
  have hfields : (Json.Document.ofValue s.toValue).record? ["configs", "aliases"] =
      some [some (Json.Document.ofValue (EntryTable.bags s.configs)),
        some (Json.Document.ofValue (.object (s.aliases.map Value.string)))] := hrecord
  rw [Nat.sub_sub] at hconfigs
  rw [EntrySet.ofDocument?, hfields]
  simp only [Option.bind_eq_bind, Option.bind_some, hconfigs, haliases]
  rfl

namespace Compiled

/-- Whether a compiled configuration can be written and read again: its values are legible, its
version is a word of 32 bits, its time is writable. -/
structure IsPersistable (c : Compiled) : Prop where
  legible : c.toValue.tree.isLegible Json.Document.maxDepth = true
  version : c.version < 4294967296
  time : c.compiledAt.IsWritable

/-- The values of the fields, in the order of their names. -/
def fieldValues (c : Compiled) : List Value :=
  [.int c.version, .string c.fingerprint, .string c.compiledAt.text, c.sets.permissions.toValue,
    c.sets.namespaces.toValue, c.sets.actions.toValue, c.sets.behaviors.toValue,
    c.sets.resources.toValue, EntryTable.bags c.defaults]

theorem toValue_eq (c : Compiled) :
    c.toValue = .object (SortedMap.ofList (fieldNames.zip c.fieldValues)) := rfl

theorem map_get?_fieldNames (c : Compiled) :
    fieldNames.map (SortedMap.ofList (fieldNames.zip c.fieldValues)).get? =
      c.fieldValues.map some :=
  SortedMap.map_get?_ofList (by decide) rfl

/-- Every field of a legible record is legible. -/
theorem isLegible_fieldValues {c : Compiled} {v : Value}
    (h : c.toValue.tree.isLegible depth = true) (hv : v ∈ c.fieldValues) :
    v.tree.isLegible (depth - 1) = true := by
  have hmem : some v ∈ c.fieldValues.map some := List.mem_map_of_mem hv
  rw [← map_get?_fieldNames] at hmem
  obtain ⟨k, -, hk⟩ := List.mem_map.1 hmem
  exact Value.isLegible_field h hk

/-- A record is decoded if its fields are. -/
theorem ofDocument?_eq_some {d version fingerprint time permissions namespaces actions behaviors
    resources defaults : Json.Document} {c : Compiled} {timeText : String}
    (hfields : d.record? fieldNames = some [some version, some fingerprint, some time,
      some permissions, some namespaces, some actions, some behaviors, some resources,
      some defaults])
    (hversion : version.natBelow? 4294967296 = some c.version)
    (hfingerprint : fingerprint.text? = some c.fingerprint) (htime : time.text? = some timeText)
    (hread : Timestamp.read? timeText = some c.compiledAt)
    (hpermissions : EntrySet.ofDocument? (Json.Document.maxDepth - 1) permissions =
      some c.sets.permissions)
    (hnamespaces : EntrySet.ofDocument? (Json.Document.maxDepth - 1) namespaces =
      some c.sets.namespaces)
    (hactions : EntrySet.ofDocument? (Json.Document.maxDepth - 1) actions = some c.sets.actions)
    (hbehaviors : EntrySet.ofDocument? (Json.Document.maxDepth - 1) behaviors =
      some c.sets.behaviors)
    (hresources : EntrySet.ofDocument? (Json.Document.maxDepth - 1) resources =
      some c.sets.resources)
    (hdefaults : EntryTable.decodeEntries? (Json.Document.maxDepth - 2) (some defaults) =
      some c.defaults) :
    ofDocument? d = some { c with source? := none } := by
  rw [ofDocument?, hfields]
  refine Option.bind_eq_some_iff.2 ⟨_, rfl, ?_⟩
  refine Option.bind_eq_some_iff.2 ⟨_, rfl, Option.bind_eq_some_iff.2 ⟨_, hversion, ?_⟩⟩
  refine Option.bind_eq_some_iff.2 ⟨_, rfl, Option.bind_eq_some_iff.2 ⟨_, hfingerprint, ?_⟩⟩
  refine Option.bind_eq_some_iff.2 ⟨_, rfl, Option.bind_eq_some_iff.2 ⟨_, htime, ?_⟩⟩
  refine Option.bind_eq_some_iff.2 ⟨_, hread, ?_⟩
  refine Option.bind_eq_some_iff.2 ⟨_, rfl, Option.bind_eq_some_iff.2 ⟨_, hpermissions, ?_⟩⟩
  refine Option.bind_eq_some_iff.2 ⟨_, rfl, Option.bind_eq_some_iff.2 ⟨_, hactions, ?_⟩⟩
  refine Option.bind_eq_some_iff.2 ⟨_, rfl, Option.bind_eq_some_iff.2 ⟨_, hbehaviors, ?_⟩⟩
  refine Option.bind_eq_some_iff.2 ⟨_, rfl, Option.bind_eq_some_iff.2 ⟨_, hnamespaces, ?_⟩⟩
  refine Option.bind_eq_some_iff.2 ⟨_, rfl, Option.bind_eq_some_iff.2 ⟨_, hresources, ?_⟩⟩
  exact Option.bind_eq_some_iff.2 ⟨_, hdefaults, rfl⟩

/-- A compiled configuration is read back from its record, but for its raw entries. -/
theorem ofDocument?_toValue {c : Compiled} (h : c.IsPersistable) :
    ofDocument? (Json.Document.ofValue c.toValue) = some { c with source? := none } := by
  have hrecord : (Json.Document.ofValue c.toValue).record? fieldNames =
      some (c.fieldValues.map (fun v => some (Json.Document.ofValue v))) := by
    rw [toValue_eq, Json.Document.record?_ofValue]
    have hmap := congrArg (List.map (Option.map Json.Document.ofValue)) c.map_get?_fieldNames
    rw [List.map_map, List.map_map] at hmap
    exact congrArg some hmap
  have hset : ∀ s : EntrySet, s.toValue ∈ c.fieldValues →
      EntrySet.ofDocument? (Json.Document.maxDepth - 1) (Json.Document.ofValue s.toValue) =
        some s :=
    fun s hs => EntrySet.ofDocument?_toValue (isLegible_fieldValues h.legible hs)
  have hdefaults := EntryTable.decodeEntries?_bags c.defaults
    (isLegible_fieldValues h.legible (by simp [fieldValues]))
  exact ofDocument?_eq_some hrecord (Json.Document.natBelow?_ofValue h.version) rfl rfl
    (Timestamp.read?_text h.time) (hset _ (by simp [fieldValues]))
    (hset _ (by simp [fieldValues])) (hset _ (by simp [fieldValues]))
    (hset _ (by simp [fieldValues])) (hset _ (by simp [fieldValues])) hdefaults

/-- A compiled configuration is read back from its persisted form, but for its raw entries. -/
theorem ofPersisted?_persisted {c : Compiled} (h : c.IsPersistable) :
    ofPersisted? c.persisted = some { c with source? := none } := by
  rw [ofPersisted?, persisted, Json.read?_text h.legible, Option.bind_some, ofDocument?_toValue h]

end Compiled

end ConfigCompiler
