import ConfigCompiler.Proofs.DecidableValues
import ConfigCompiler.Proofs.RecordLayouts

/-!
# Records lose nothing

A record is built from a bag of options and can be written as one again.  Nothing is lost on
the way: every option comes back, those that no field is named for as well, and where a field
was absent a blank value stands for it.

**Input.**  The names, the sorts and the contents of the fields come from the `Layout` of the
records.

**Property.**  `Lossless ρ`: the options of every record `ρ` come back, and it is known which
options make no record.

**Results.**
* `Layout.get?_encode_slot`, `Layout.get?_encode_other`: the options of a record, name by name.
* `Layout.checkPresent_iff`: which options pass.
* `Layout.lossless`: records with a layout.
* `records_lossless`: the five records.
-/

namespace ConfigCompiler

theorem SortedMap.get?_filter {α : Type} (p : String → α → Bool) (m : SortedMap α)
    (key : String) : (m.filter p).get? key = (m.get? key).filter (p key) := by
  refine Option.ext (fun a => ?_)
  rw [← mem_entries_iff, Option.filter_eq_some_iff, ← mem_entries_iff]
  exact List.mem_filter

namespace Record

open Resolution

section Options

variable {named : List (String × Value)} {options extra : Options} {key : String} {v : Value}

/-- Under another name stands what stands beside the fields. -/
theorem get?_withFields_of_not_mem (h : key ∉ named.map Prod.fst) :
    (withFields named extra).get? key = extra.get? key := by
  induction named generalizing extra with
  | nil => rfl
  | cons e rest ih =>
      rw [List.map_cons, List.mem_cons, not_or] at h
      have hstep : withFields (e :: rest) extra = withFields rest (extra.insert e.1 e.2) := rfl
      rw [hstep, ih h.2, SortedMap.get?_insert, if_neg (Ne.symm h.1)]

/-- Under the name of a field stands its value. -/
theorem get?_withFields_of_mem (hnodup : (named.map Prod.fst).Nodup) (h : (key, v) ∈ named) :
    (withFields named extra).get? key = some v := by
  induction named generalizing extra with
  | nil => cases h
  | cons e rest ih =>
      obtain ⟨hfresh, hrest⟩ := List.nodup_cons.1 hnodup
      have hstep : withFields (e :: rest) extra = withFields rest (extra.insert e.1 e.2) := rfl
      rw [hstep]
      rcases List.mem_cons.1 h with rfl | h
      · rw [get?_withFields_of_not_mem hfresh, SortedMap.get?_insert_self]
      · exact ih hrest h

/-- The options that no field is named for. -/
theorem get?_extraOptions (fields : List Field) (options : Options) (key : String) :
    (extraOptions fields options).get? key =
      if key ∈ fields.map Field.name then none else options.get? key := by
  rw [extraOptions, SortedMap.get?_filter]
  by_cases hnamed : key ∈ fields.map Field.name
  · have hany : fields.any (fun f => f.name == key) = true := by simpa using hnamed
    cases options.get? key <;> simp [Option.filter, hany, hnamed]
  · have hany : fields.any (fun f => f.name == key) = false := by simpa using hnamed
    cases options.get? key <;> simp [Option.filter, hany, hnamed]

end Options

namespace Layout

variable {ρ : Type} [EntityRecord ρ] [Layout ρ] {o : Options} {r : ρ} {slot : Slot ρ}
variable {key : String}

variable (ρ) in
/-- The names of the fields. -/
def names : List String := (slots : List (Slot ρ)).map Slot.name

variable (ρ) in
/-- The names of the fields that may not be absent. -/
def mandatory : List String := Slot.mandatory (slots : List (Slot ρ))

theorem mem_mandatory_iff :
    key ∈ mandatory ρ ↔
      ∃ slot ∈ (slots : List (Slot ρ)), slot.sort.blank? = none ∧ slot.name = key := by
  simp [mandatory, Slot.mandatory, and_assoc]

/-- A field is found under its name. -/
theorem fieldOf?_slot (hslot : slot ∈ (slots : List (Slot ρ))) :
    fieldOf? ((slots : List (Slot ρ)).map Slot.field) slot.name = some slot.field := by
  have hnodup : (slots : List (Slot ρ)).Pairwise (fun s s' => s.name ≠ s'.name) :=
    List.pairwise_map.1 distinct
  generalize (slots : List (Slot ρ)) = all at hslot hnodup
  induction all with
  | nil => cases hslot
  | cons first rest ih =>
      obtain ⟨hfirst, hrest⟩ := List.pairwise_cons.1 hnodup
      rcases List.mem_cons.1 hslot with rfl | hslot
      · exact List.find?_cons_of_pos (beq_self_eq_true slot.name)
      · have hother : (first.field.name == slot.name) = false := by
          simpa using hfirst slot hslot
        rw [List.map_cons, fieldOf?, List.find?_cons, hother]
        exact ih hslot hrest

/-- The options pass if every field takes its option. -/
theorem checkPresent_iff :
    checkPresent ((slots : List (Slot ρ)).map Slot.field) o = .ok () ↔
      ∀ slot ∈ (slots : List (Slot ρ)), ∀ v, o.get? slot.name = some v → slot.sort.Takes v := by
  have htakes : ∀ (slot : Slot ρ) v, slot.field.check v = .ok () ↔ slot.sort.Takes v := by
    intro slot v
    refine check_field.trans (exists_congr (fun a => ?_))
    exact slot.sort.decode_eq_ok_iff v a
  rw [checkPresent_eq_ok]
  constructor
  · intro h slot hslot v hv
    exact (htakes slot v).1 (h slot.name v slot.field hv (fieldOf?_slot hslot))
  · intro h key v f hv hf
    obtain ⟨hmem, rfl⟩ := fieldOf?_eq_some hf
    obtain ⟨slot, hslot, rfl⟩ := List.mem_map.1 hmem
    exact (htakes slot v).2 (h slot hslot v hv)

/-- What a field holds is what its option says, or else the field is absent. -/
theorem content_of_decode (h : EntityRecord.decode o = .ok r)
    (hslot : slot ∈ (slots : List (Slot ρ))) :
    (∃ v, o.get? slot.name = some v ∧ slot.sort.Holds v (slot.content r)) ∨
      o.get? slot.name = none ∧ slot.sort.form.absent? = some (slot.content r) :=
  FieldSort.read_eq_ok_iff.1 ((readFrom_of_decode o r h).reads slot hslot)

/-- Options make a record if the mandatory ones are there and every field takes its option. -/
theorem decode_succeeds_iff :
    (∃ r : ρ, EntityRecord.decode o = .ok r) ↔
      (∀ key ∈ mandatory ρ, (o.get? key).isSome = true) ∧
        ∀ slot ∈ (slots : List (Slot ρ)), ∀ v, o.get? slot.name = some v →
          slot.sort.Takes v := by
  constructor
  · rintro ⟨r, h⟩
    refine ⟨fun key hkey => ?_, checkPresent_iff.1 (readFrom_of_decode o r h).check⟩
    obtain ⟨slot, hslot, hblank, rfl⟩ := mem_mandatory_iff.1 hkey
    rcases content_of_decode h hslot with ⟨v, hv, -⟩ | ⟨-, habsent⟩
    · rw [hv]
      rfl
    · rw [FieldSort.blank?_eq, habsent] at hblank
      cases hblank
  · rintro ⟨hthere, htakes⟩
    exact decode_succeeds o (checkPresent_iff.2 htakes) hthere

/-- Under the name of a field stands what it holds. -/
theorem get?_encode_slot (r : ρ) (hslot : slot ∈ (slots : List (Slot ρ))) :
    (EntityRecord.encode r).get? slot.name =
      some (slot.sort.form.encode (slot.content r)) := by
  rw [encode_eq r]
  refine get?_withFields_of_mem ?_ (List.mem_map_of_mem hslot)
  simpa [Function.comp_def, Slot.written, names] using (distinct : (names ρ).Nodup)

/-- Under other names stand the other options. -/
theorem get?_encode_other (r : ρ) (hkey : key ∉ names ρ) :
    (EntityRecord.encode r).get? key = (extra r).get? key := by
  rw [encode_eq r]
  refine get?_withFields_of_not_mem ?_
  simpa [Function.comp_def, Slot.written, names] using hkey

/-- The options that no field is named for are kept beside the fields. -/
theorem get?_extra (h : EntityRecord.decode o = .ok r) (key : String) :
    (extra r).get? key = if key ∈ names ρ then none else o.get? key := by
  rw [(readFrom_of_decode o r h).extra, get?_extraOptions]
  simp [names, Function.comp_def]

/-- What is written for a field says what it holds. -/
theorem holds_encode (h : EntityRecord.decode o = .ok r)
    (hslot : slot ∈ (slots : List (Slot ρ))) :
    slot.sort.Holds (slot.sort.form.encode (slot.content r)) (slot.content r) := by
  rcases content_of_decode h hslot with ⟨v, -, hv⟩ | ⟨-, habsent⟩
  · exact hv.encode
  · exact FieldSort.holds_of_absent habsent

/-- The options of a record make the same record again. -/
theorem decode_encode (h : EntityRecord.decode o = .ok r) :
    EntityRecord.decode (EntityRecord.encode r) = .ok r := by
  obtain ⟨r', h'⟩ : ∃ r' : ρ, EntityRecord.decode (EntityRecord.encode r) = .ok r' := by
    refine decode_succeeds_iff.2 ⟨fun key hkey => ?_, fun slot hslot v hv => ?_⟩
    · obtain ⟨slot, hslot, -, rfl⟩ := mem_mandatory_iff.1 hkey
      rw [get?_encode_slot r hslot]
      rfl
    · rw [get?_encode_slot r hslot] at hv
      obtain rfl := Option.some.inj hv
      exact ⟨_, holds_encode h hslot⟩
  have hsame : r' = r := by
    refine eq_of_decode _ _ r' r h' h (fun slot hslot => ?_) (SortedMap.ext_get? (fun key => ?_))
    · rcases content_of_decode h' hslot with ⟨v, hv, hholds⟩ | ⟨hnone, -⟩
      · rw [get?_encode_slot r hslot] at hv
        obtain rfl := Option.some.inj hv
        exact hholds.unique (holds_encode h hslot)
      · rw [get?_encode_slot r hslot] at hnone
        cases hnone
    · rw [get?_extra h', get?_extra h]
      split
      · rfl
      · next hkey => rw [get?_encode_other r hkey, get?_extra h, if_neg hkey]
  rw [h', hsame]

end Layout

section Lossless

variable {ρ : Type} [EntityRecord ρ]

variable (ρ) in
/-- Records say what their options said, and options that make no record are wrong. -/
structure Lossless [Layout ρ] : Prop where
  /-- Every option comes back as it was; only operations that were written as objects come
  back as their names. -/
  kept : ∀ (name : String) (o : Options) (r : ρ), EntityRecord.construct name o = .ok r →
    ∀ key v, o.get? key = some v →
      (EntityRecord.encode r).get? key = some v ∨
        EntityRecord.kind ρ = .behavior ∧ key = "operations" ∧ ∃ items os, v = .array items ∧
          List.Forall₂ NamesOperation items os ∧
            (EntityRecord.encode r).get? key = some (.strings (os.map Operation.name))
  /-- What comes beside them are blank values for optional fields. -/
  added : ∀ (name : String) (o : Options) (r : ρ), EntityRecord.construct name o = .ok r →
    ∀ key w, (EntityRecord.encode r).get? key = some w → o.get? key = none →
      ∃ slot ∈ (Layout.slots : List (Slot ρ)), slot.name = key ∧ slot.sort.blank? = some w
  /-- The options that no field is named for are kept beside the fields. -/
  beside : ∀ (name : String) (o : Options) (r : ρ), EntityRecord.construct name o = .ok r →
    ∀ key, (Layout.extra r).get? key = if key ∈ Layout.names ρ then none else o.get? key
  /-- The options of a record make the same record again. -/
  again : ∀ (name other : String) (o : Options) (r : ρ), EntityRecord.construct name o = .ok r →
    EntityRecord.construct other (EntityRecord.encode r) = .ok r
  /-- Options make a record if the mandatory fields are there and every field takes its
  option. -/
  accepted : ∀ (name : String) (o : Options),
    (∃ r : ρ, EntityRecord.construct name o = .ok r) ↔
      (∀ key ∈ Layout.mandatory ρ, (o.get? key).isSome = true) ∧
        ∀ slot ∈ (Layout.slots : List (Slot ρ)), ∀ v, o.get? slot.name = some v →
          slot.sort.Takes v
  /-- Options make no record if a mandatory field is absent or a field does not take its
  option, and this is the failure that is reported. -/
  refused : ∀ (name : String) (o : Options),
    (∃ reason, (EntityRecord.construct name o : Except Failure ρ) =
        .error (.construct (EntityRecord.kind ρ) name reason)) ↔
      (∃ key ∈ Layout.mandatory ρ, o.get? key = none) ∨
        ∃ slot ∈ (Layout.slots : List (Slot ρ)), ∃ v, o.get? slot.name = some v ∧
          ¬ slot.sort.Takes v

namespace Layout

variable [Layout ρ] {o : Options} {r : ρ} {key : String} {v w : Value}

theorem kept_of_decode (h : EntityRecord.decode o = .ok r) (hv : o.get? key = some v) :
    (EntityRecord.encode r).get? key = some v ∨
      EntityRecord.kind ρ = .behavior ∧ key = "operations" ∧ ∃ items os, v = .array items ∧
        List.Forall₂ NamesOperation items os ∧
          (EntityRecord.encode r).get? key = some (.strings (os.map Operation.name)) := by
  by_cases hkey : key ∈ names ρ
  · obtain ⟨slot, hslot, rfl⟩ := List.mem_map.1 hkey
    rw [get?_encode_slot r hslot]
    rcases content_of_decode h hslot with ⟨w, hw, hholds⟩ | ⟨hnone, -⟩
    · obtain rfl := Option.some.inj (hw.symm.trans hv)
      rcases FieldSort.encode_of_holds hholds with hsame | ⟨hsort, items, os, hitems, hall, hnames⟩
      · exact Or.inl (congrArg some hsame)
      · obtain ⟨hkind, hname⟩ := operations_only slot hslot hsort
        exact Or.inr ⟨hkind, hname, items, os, hitems, hall, congrArg some hnames⟩
    · rw [hnone] at hv
      cases hv
  · rw [get?_encode_other r hkey, get?_extra h, if_neg hkey, hv]
    exact Or.inl rfl

theorem added_of_decode (h : EntityRecord.decode o = .ok r)
    (hw : (EntityRecord.encode r).get? key = some w) (hnone : o.get? key = none) :
    ∃ slot ∈ (slots : List (Slot ρ)), slot.name = key ∧ slot.sort.blank? = some w := by
  by_cases hkey : key ∈ names ρ
  · obtain ⟨slot, hslot, rfl⟩ := List.mem_map.1 hkey
    rw [get?_encode_slot r hslot] at hw
    obtain rfl := Option.some.inj hw
    rcases content_of_decode h hslot with ⟨v, hv, -⟩ | ⟨-, habsent⟩
    · rw [hnone] at hv
      cases hv
    · exact ⟨slot, hslot, rfl, by rw [FieldSort.blank?_eq, habsent, Option.map_some]⟩
  · rw [get?_encode_other r hkey, get?_extra h, if_neg hkey, hnone] at hw
    cases hw

theorem refused_iff (name : String) :
    (∃ reason, (EntityRecord.construct name o : Except Failure ρ) =
        .error (.construct (EntityRecord.kind ρ) name reason)) ↔
      (∃ key ∈ mandatory ρ, o.get? key = none) ∨
        ∃ slot ∈ (slots : List (Slot ρ)), ∃ v, o.get? slot.name = some v ∧
          ¬ slot.sort.Takes v := by
  rw [EntityRecord.construct_fails_iff, decode_succeeds_iff, not_and_or]
  simp only [not_forall, exists_prop, Bool.not_eq_true, Option.isSome_eq_false_iff,
    Option.isNone_iff_eq_none]

/-- Records with a layout lose nothing. -/
theorem lossless (ρ : Type) [EntityRecord ρ] [Layout ρ] : Lossless ρ where
  kept _ _ _ h _ _ hv := kept_of_decode (EntityRecord.construct_eq_ok_iff.1 h) hv
  added _ _ _ h _ _ hw hnone := added_of_decode (EntityRecord.construct_eq_ok_iff.1 h) hw hnone
  beside _ _ _ h key := get?_extra (EntityRecord.construct_eq_ok_iff.1 h) key
  again _ _ _ _ h :=
    EntityRecord.construct_eq_ok_iff.2 (decode_encode (EntityRecord.construct_eq_ok_iff.1 h))
  accepted _ _ := (exists_congr (fun _ => EntityRecord.construct_eq_ok_iff)).trans
    decode_succeeds_iff
  refused name _ := refused_iff name

end Layout

end Lossless

/-- The five records lose nothing. -/
theorem records_lossless :
    Lossless PermissionRecord ∧ Lossless NamespaceRecord ∧ Lossless ActionRecord ∧
      Lossless BehaviorRecord ∧ Lossless ResourceRecord :=
  ⟨Layout.lossless _, Layout.lossless _, Layout.lossless _, Layout.lossless _,
    Layout.lossless _⟩

namespace Studio

/-- A behavior with an operation as an object, and with a mood. -/
def humming : Options := SortedMap.ofList [
  ("class", .string "studio::Hum"), ("mood", .string "calm"), ("name", .string "hum"),
  ("operations", .array [.object (SortedMap.singleton "create" .null), .string "list"])]

def hum : BehaviorRecord :=
  ⟨"hum", "studio::Hum", none, [.create, .list], ∅, SortedMap.singleton "mood" (.string "calm")⟩

theorem makes_hum : EntityRecord.construct "hum" humming = .ok hum := rfl

/-- A resource with an option under the name of what its record does not keep. -/
def painting : Options := SortedMap.ofList [
  ("children", .string "kept"), ("driver", .string "orm"), ("entity", .string "Painting"),
  ("name", .string "painting"), ("namespace", .string "studio")]

theorem makes_painting : ∃ made : ResourceRecord,
    EntityRecord.construct "painting" painting = .ok made :=
  ⟨_, rfl⟩

/-- A resource without an entity. -/
def sketch : Options := painting.erase "entity"

end Studio

theorem records_lossless_studio :
    (EntityRecord.encode Studio.hum).get? "mood" = some (.string "calm") ∧
      (∃ items os, Studio.humming.get? "operations" = some (.array items) ∧
        List.Forall₂ NamesOperation items os ∧
          (EntityRecord.encode Studio.hum).get? "operations" =
            some (.strings (os.map Operation.name))) ∧
      (∃ slot ∈ BehaviorRecord.slots, slot.name = "interface" ∧ slot.sort.blank? = some .null) ∧
      EntityRecord.construct "copy" (EntityRecord.encode Studio.hum) = .ok Studio.hum ∧
      (∃ made : ResourceRecord, EntityRecord.construct "painting" Studio.painting = .ok made ∧
        made.extra.get? "children" = some (.string "kept")) ∧
      ∃ reason, (EntityRecord.construct "sketch" Studio.sketch : Except Failure ResourceRecord) =
        .error (.construct .resource "sketch" reason) := by
  obtain ⟨-, -, -, hbehaviors, hresources⟩ := records_lossless
  have hkept := hbehaviors.kept "hum" Studio.humming Studio.hum Studio.makes_hum
  obtain ⟨made, hmade⟩ := Studio.makes_painting
  refine ⟨?_, ?_, hbehaviors.added _ _ _ Studio.makes_hum "interface" .null rfl (by decide),
    hbehaviors.again _ "copy" _ _ Studio.makes_hum,
    ⟨made, hmade, (hresources.beside _ _ _ hmade "children").trans (by decide)⟩,
    (hresources.refused "sketch" Studio.sketch).2
      (Or.inl ⟨"entity", by decide, by decide⟩)⟩
  · rcases hkept "mood" (.string "calm") rfl with hsame | ⟨-, hmood, -⟩
    · exact hsame
    · exact absurd hmood (by decide)
  · rcases hkept "operations" _ rfl with hsame | ⟨-, -, items, os, hitems, hall, hnames⟩
    · exact absurd hsame (by decide)
    · exact ⟨items, os, congrArg some hitems, hall, hnames⟩

end Record
end ConfigCompiler
