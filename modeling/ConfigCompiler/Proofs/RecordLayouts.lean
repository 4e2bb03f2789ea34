import ConfigCompiler.Proofs.RecordFields
import Mathlib.Data.List.Forall2

/-!
# Layouts of records

The five records differ in the names of their fields and in what the fields hold, and are read
and written alike.  A layout says which field a record has, of which sort, and what it holds.

**Input.**  A `FieldSort` is one of the eight sorts of fields.  `Slot ρ` is a named field of the
records `ρ`, and `Layout ρ` are all of them, with what reading and writing a record comes to.

**Relations.**
* `NamesOperation v o`: the value names the operation, as a text or as the only key of an
  object that holds null under it.
* `Holds s v a`: as the value of a field of the sort `s`, `v` says that the field holds `a`.

**Results.**
* `FieldSort.decode_eq_ok_iff`: reading is `Holds`.
* `FieldSort.Holds.encode`, `FieldSort.holds_encode`: what is written says what was read, and is
  the value that was read, except for the operations.
* `FieldSort.blank?_eq`: what is written for a field that is absent.
* A `Layout` for each of the five records.
-/

namespace ConfigCompiler
namespace Record

open Resolution

variable {α : Type} {v : Value} {o : Operation}

theorem isNull_iff : v.isNull = true ↔ v = .null := by
  rw [← Value.view_inj, Value.view_null]
  unfold Value.isNull
  cases v.view <;> simp

theorem decodeText_eq_ok {s : String} : decodeText v = .ok s ↔ v = .string s := by
  unfold decodeText
  constructor
  · intro h
    cases hs : v.str? with
    | none =>
        rw [hs] at h
        cases h
    | some t =>
        rw [hs] at h
        rw [Value.eq_string_of_str? hs, Except.ok.inj h]
  · rintro rfl
    rw [Value.str?_string]

theorem decodeBag_eq_ok {m : Options} : decodeBag v = .ok m ↔ v = .object m := by
  unfold decodeBag
  constructor
  · intro h
    cases hm : v.fields? with
    | none =>
        rw [hm] at h
        cases h
    | some fields =>
        rw [hm] at h
        rw [Value.eq_object_of_fields? hm, Except.ok.inj h]
  · rintro rfl
    rw [Value.fields?_object]

theorem decodeInteger_eq_ok {n : Int} :
    decodeInteger v = .ok n ↔ v = .int n ∧ Word.isSigned n = true := by
  unfold decodeInteger
  constructor
  · intro h
    cases hn : v.int? with
    | none =>
        rw [hn] at h
        cases h
    | some k =>
        simp only [hn] at h
        split at h
        · next hsigned =>
            obtain rfl := Except.ok.inj h
            refine ⟨?_, hsigned⟩
            rw [← Value.view_inj, Value.view_int]
            unfold Value.int? at hn
            split at hn
            · next hview => rw [hview, Option.some.inj hn]
            · cases hn
        · cases h
  · rintro ⟨rfl, hsigned⟩
    simp only [Value.int?_int, hsigned, if_true]

/-- Lists are read item by item. -/
theorem decodeList_eq_ok {decode : Value → Except String α} {out : List α} :
    decodeList decode v = .ok out ↔
      ∃ items, v = .array items ∧ List.Forall₂ (fun item a => decode item = .ok a) items out := by
  have hitems : ∀ (items : List Value) (out : List α), items.mapM decode = .ok out ↔
      List.Forall₂ (fun item a => decode item = .ok a) items out := by
    intro items
    induction items with
    | nil => exact fun out => check_pure.trans List.forall₂_nil_left_iff.symm
    | cons item rest ih =>
        intro out
        rw [check_list_mapM_cons, List.forall₂_cons_left_iff]
        constructor
        · rintro ⟨a, more, ha, hmore, rfl⟩
          exact ⟨a, more, ha, (ih more).1 hmore, rfl⟩
        · rintro ⟨a, more, ha, hmore, rfl⟩
          exact ⟨a, more, ha, (ih more).2 hmore, rfl⟩
  unfold decodeList
  constructor
  · intro h
    cases hv : v.items? with
    | none =>
        rw [hv] at h
        cases h
    | some items =>
        rw [hv] at h
        exact ⟨items, Value.eq_array_of_items? hv, (hitems items out).1 h⟩
  · rintro ⟨items, rfl, hall⟩
    rw [Value.items?_array]
    exact (hitems items out).2 hall

/-- A list of texts is read as it stands there. -/
theorem decodeTexts_eq_ok {v : Value} {ts : List String} :
    decodeList decodeText v = .ok ts ↔ v = .strings ts := by
  have hitems : ∀ items : List Value,
      List.Forall₂ (fun item t => item = Value.string t) items ts ↔ items = ts.map .string := by
    intro items
    rw [← congrFun₂ (List.forall₂_eq_eq_eq (α := Value)) items (ts.map .string)]
    exact List.forall₂_map_right_iff.symm
  simp only [decodeList_eq_ok, decodeText_eq_ok, hitems]
  exact ⟨fun ⟨items, hv, heq⟩ => by rw [hv, heq, Value.strings], fun hv => ⟨_, hv, rfl⟩⟩

theorem decodeBags_eq_ok {m : SortedMap Options} :
    decodeBags v = .ok m ↔ v = .object (m.map Value.object) := by
  unfold decodeBags
  constructor
  · intro h
    cases hv : v.fields? with
    | none =>
        rw [hv] at h
        cases h
    | some fields =>
        rw [hv] at h
        rw [Value.eq_object_of_fields? hv]
        refine congrArg Value.object (SortedMap.ext_get? (fun key => ?_))
        rw [SortedMap.get?_map]
        rcases check_mapM_get? h key with ⟨hnone, hout⟩ | ⟨w, bag, hw, hbag, hout⟩
        · rw [hnone, hout, Option.map_none]
        · rw [hw, hout, Option.map_some, decodeBag_eq_ok.1 hbag]
  · rintro rfl
    rw [Value.fields?_object]
    obtain ⟨out, hout⟩ := bags_accepts m
    have hread : (m.map Value.object).mapM (fun _ v => decodeBag v) = .ok out := by
      simpa [bags, decodeBags] using hout
    refine hread.trans (congrArg Except.ok (SortedMap.ext_get? (fun key => ?_)))
    rcases check_mapM_get? hread key with ⟨hnone, hkey⟩ | ⟨w, bag, hw, hbag, hkey⟩
    · rw [SortedMap.get?_map, Option.map_eq_none_iff] at hnone
      rw [hkey, hnone]
    · rw [SortedMap.get?_map, decodeBag_eq_ok.1 hbag] at hw
      obtain ⟨other, hother, hsame⟩ := Option.map_eq_some_iff.1 hw
      rw [hkey, hother, Value.object_inj hsame]

/-- The value names an operation. -/
inductive NamesOperation : Value → Operation → Prop
  | text (o : Operation) : NamesOperation (.string o.name) o
  | key (o : Operation) : NamesOperation (.object (SortedMap.singleton o.name .null)) o

theorem decodeOperationName_eq_ok {name : String} :
    decodeOperationName name = .ok o ↔ name = o.name := by
  unfold decodeOperationName
  constructor
  · intro h
    cases hname : Operation.ofName? name with
    | none =>
        rw [hname] at h
        cases h
    | some o' =>
        rw [hname] at h
        obtain rfl := Except.ok.inj h
        exact (Operation.name_of_ofName? hname).symm
  · rintro rfl
    rw [Operation.ofName?_name]

theorem decodeOperation_eq_ok : decodeOperation v = .ok o ↔ NamesOperation v o := by
  unfold decodeOperation
  constructor
  · intro h
    cases hv : v.view with
    | string s =>
        rw [hv] at h
        obtain rfl := decodeOperationName_eq_ok.1 h
        rw [Value.view_inj.1 (hv.trans (Value.view_string _).symm)]
        exact .text o
    | object fields =>
        rw [hv] at h
        obtain rfl : v = .object fields := Value.view_inj.1 (hv.trans (Value.view_object _).symm)
        obtain ⟨entries, hsorted⟩ := fields
        rcases entries with _ | ⟨⟨name, inner⟩, _ | ⟨second, rest⟩⟩
        · cases h
        · obtain ⟨o', hname, hinner⟩ := check_bind.1 h
          split at hinner
          · next hnull =>
              obtain rfl := Except.ok.inj hinner
              obtain rfl := decodeOperationName_eq_ok.1 hname
              obtain rfl := isNull_iff.1 hnull
              exact .key o'
          · cases hinner
        · cases h
    | _ =>
        rw [hv] at h
        cases h
  · intro h
    cases h with
    | text => rw [Value.view_string]; exact decodeOperationName_eq_ok.2 rfl
    | key =>
        rw [Value.view_object]
        exact check_bind.2 ⟨o, decodeOperationName_eq_ok.2 rfl, rfl⟩

/-- What a field may be. -/
inductive FieldSort where
  | text
  | optionalText
  | texts
  | bag
  | bags
  | anything
  | integer
  | operations
deriving DecidableEq

namespace FieldSort

/-- What a field of the sort holds. -/
def Content : FieldSort → Type
  | text => String
  | optionalText => Option String
  | texts => List String
  | bag => Options
  | bags => SortedMap Options
  | anything => Option Value
  | integer => Int
  | operations => List Operation

/-- How a field of the sort is read and written. -/
def form : (s : FieldSort) → FieldForm s.Content
  | text => Record.text
  | optionalText => Record.optionalText
  | texts => Record.texts
  | bag => Record.bag
  | bags => Record.bags
  | anything => Record.anything
  | integer => Record.integer
  | operations => Record.operations

/-- What is written for an absent field; none if it is mandatory. -/
def blank? : FieldSort → Option Value
  | text => none
  | optionalText => some .null
  | texts => some (.array [])
  | bag => some (.object ∅)
  | bags => some (.object ∅)
  | anything => some .null
  | integer => some (.int 0)
  | operations => some (.array [])

/-- The value says that the field holds the content. -/
inductive Holds : (s : FieldSort) → Value → s.Content → Prop
  | text (t : String) : Holds .text (.string t) t
  | noText : Holds .optionalText .null none
  | someText (t : String) : Holds .optionalText (.string t) (some t)
  | texts (ts : List String) : Holds .texts (.strings ts) ts
  | bag (m : Options) : Holds .bag (.object m) m
  | bags (m : SortedMap Options) : Holds .bags (.object (m.map .object)) m
  | nothing : Holds .anything .null none
  | something {v : Value} : v ≠ .null → Holds .anything v (some v)
  | integer {n : Int} : Word.isSigned n = true → Holds .integer (.int n) n
  | operations {items : List Value} {os : List Operation} :
      List.Forall₂ NamesOperation items os → Holds .operations (.array items) os

/-- The field takes the value. -/
def Takes (s : FieldSort) (v : Value) : Prop := ∃ a, Holds s v a

variable {s : FieldSort} {a : s.Content}

theorem decodeOptionalText_eq_ok {v : Value} {t? : Option String} :
    decodeOptionalText v = .ok t? ↔ Holds .optionalText v t? := by
  unfold decodeOptionalText
  constructor
  · intro h
    split at h
    · next hnull =>
        obtain rfl := Except.ok.inj h
        rw [isNull_iff.1 hnull]
        exact .noText
    · cases hdecode : decodeText v with
      | error reason =>
          rw [hdecode] at h
          cases h
      | ok t =>
          rw [hdecode] at h
          obtain rfl := Except.ok.inj h
          rw [decodeText_eq_ok.1 hdecode]
          exact .someText t
  · intro h
    cases h with
    | noText => rfl
    | someText t =>
        show (decodeText (.string t)).map some = _
        rw [decodeText_eq_ok.2 rfl]
        rfl

/-- A field is read as its sort says. -/
theorem decode_eq_ok_iff (s : FieldSort) (v : Value) (a : s.Content) :
    s.form.decode v = .ok a ↔ Holds s v a := by
  cases s with
  | text =>
      refine decodeText_eq_ok.trans ⟨?_, ?_⟩
      · rintro rfl
        exact .text a
      · rintro ⟨⟩
        rfl
  | optionalText => exact decodeOptionalText_eq_ok
  | texts =>
      refine decodeTexts_eq_ok.trans ⟨?_, ?_⟩
      · rintro rfl
        exact .texts a
      · rintro ⟨⟩
        rfl
  | bag =>
      refine decodeBag_eq_ok.trans ⟨?_, ?_⟩
      · rintro rfl
        exact .bag a
      · rintro ⟨⟩
        rfl
  | bags =>
      refine decodeBags_eq_ok.trans ⟨?_, ?_⟩
      · rintro rfl
        exact .bags a
      · rintro ⟨⟩
        rfl
  | anything =>
      constructor
      · intro h
        obtain rfl := Except.ok.inj h
        cases hnull : v.isNull with
        | true =>
            obtain rfl := isNull_iff.1 hnull
            exact .nothing
        | false => exact .something (fun heq => by simp [isNull_iff.2 heq] at hnull)
      · intro h
        cases h with
        | nothing => rfl
        | something hvalue =>
            exact congrArg Except.ok (if_neg (fun hnull => hvalue (isNull_iff.1 hnull)))
  | integer =>
      refine decodeInteger_eq_ok.trans ⟨?_, ?_⟩
      · rintro ⟨rfl, hsigned⟩
        exact .integer hsigned
      · rintro ⟨⟩
        exact ⟨rfl, ‹_›⟩
  | operations =>
      refine decodeList_eq_ok.trans ⟨?_, ?_⟩
      · rintro ⟨items, rfl, hall⟩
        exact .operations (hall.imp (fun _ _ => decodeOperation_eq_ok.1))
      · rintro ⟨⟩
        exact ⟨_, rfl, List.Forall₂.imp (fun _ _ => decodeOperation_eq_ok.2) ‹_›⟩

/-- A value says one thing only. -/
theorem Holds.unique {v : Value} {b : s.Content} (h : Holds s v a) (h' : Holds s v b) : a = b :=
  Except.ok.inj (((decode_eq_ok_iff s v a).2 h).symm.trans ((decode_eq_ok_iff s v b).2 h'))

/-- What is written says what was read. -/
theorem Holds.encode {v : Value} (h : Holds s v a) : Holds s (s.form.encode a) a := by
  cases h with
  | text t => exact .text t
  | noText => exact .noText
  | someText t => exact .someText t
  | texts ts => exact .texts ts
  | bag m => exact .bag m
  | bags m => exact .bags m
  | nothing => exact .nothing
  | something hvalue => exact .something hvalue
  | integer hsigned => exact .integer hsigned
  | @operations items os hall =>
      refine .operations (List.forall₂_map_left_iff.2 (List.forall₂_map_left_iff.2 ?_))
      exact List.forall₂_same.2 (fun o _ => .text o)

/-- What was read is written, except that operations are written by their names. -/
theorem encode_of_holds {v : Value} (h : Holds s v a) :
    s.form.encode a = v ∨ s = .operations ∧ ∃ items os, v = .array items ∧
      List.Forall₂ NamesOperation items os ∧
        s.form.encode a = .strings (os.map Operation.name) := by
  cases h with
  | @operations items os hall => exact Or.inr ⟨rfl, items, os, rfl, hall, rfl⟩
  | _ => exact Or.inl rfl

/-- The blank value is what is written for an absent field. -/
theorem blank?_eq (s : FieldSort) : s.blank? = s.form.absent?.map s.form.encode := by
  cases s <;> rfl

/-- What is written for an absent field says that it is absent. -/
theorem holds_of_absent (h : s.form.absent? = some a) : Holds s (s.form.encode a) a := by
  cases s with
  | text => cases h
  | optionalText => cases h; exact .noText
  | texts => cases h; exact .texts []
  | bag => cases h; exact .bag ∅
  | bags => cases h; exact .bags ∅
  | anything => cases h; exact .nothing
  | integer => cases h; exact .integer (by decide)
  | operations => cases h; exact .operations .nil

/-- A field is read from its option, or is absent. -/
theorem read_eq_ok_iff {options : Options} {key : String} :
    s.form.read options key = .ok a ↔
      (∃ v, options.get? key = some v ∧ Holds s v a) ∨
        options.get? key = none ∧ s.form.absent? = some a := by
  unfold FieldForm.read
  cases options.get? key with
  | some v => simp [decode_eq_ok_iff]
  | none => cases s.form.absent? <;> simp

end FieldSort

/-- A named field of records. -/
structure Slot (ρ : Type) where
  name : String
  sort : FieldSort
  /-- What the field of a record holds. -/
  content : ρ → sort.Content

namespace Slot

variable {ρ : Type}

/-- The field, as far as its values are checked. -/
def field (slot : Slot ρ) : Field := slot.sort.form.field slot.name

@[simp] theorem field_name (slot : Slot ρ) : slot.field.name = slot.name := rfl

/-- The field as it is written for a record. -/
def written (r : ρ) (slot : Slot ρ) : String × Value :=
  (slot.name, slot.sort.form.encode (slot.content r))

/-- The names of the fields that may not be absent. -/
def mandatory (slots : List (Slot ρ)) : List String :=
  (slots.filter (fun slot => slot.sort.blank?.isNone)).map Slot.name

/-- The record says what the options say. -/
structure ReadFrom (slots : List (Slot ρ)) (extra : ρ → Options) (o : Options) (r : ρ) :
    Prop where
  check : checkPresent (slots.map field) o = .ok ()
  reads : ∀ slot ∈ slots, slot.sort.form.read o slot.name = .ok (slot.content r)
  extra : extra r = extraOptions (slots.map field) o

end Slot

/-- The fields of a type of records, and the options beside them. -/
class Layout (ρ : Type) [EntityRecord ρ] where
  slots : List (Slot ρ)
  /-- The options that no field is named for. -/
  extra : ρ → Options
  distinct : (slots.map Slot.name).Nodup
  /-- Only behaviors have operations. -/
  operations_only : ∀ slot ∈ slots, slot.sort = .operations →
    EntityRecord.kind ρ = .behavior ∧ slot.name = "operations"
  encode_eq : ∀ r : ρ, EntityRecord.encode r = withFields (slots.map (Slot.written r)) (extra r)
  decode_succeeds : ∀ o, checkPresent (slots.map Slot.field) o = .ok () →
    (∀ key ∈ Slot.mandatory slots, (o.get? key).isSome = true) →
      ∃ r : ρ, EntityRecord.decode o = .ok r
  readFrom_of_decode : ∀ o (r : ρ), EntityRecord.decode o = .ok r →
    Slot.ReadFrom slots extra o r
  eq_of_decode : ∀ o o' (r r' : ρ), EntityRecord.decode o = .ok r →
    EntityRecord.decode o' = .ok r' → (∀ slot ∈ slots, slot.content r = slot.content r') →
      extra r = extra r' → r = r'

end Record

open Record Resolution

namespace PermissionRecord

def slots : List (Slot PermissionRecord) :=
  [⟨"name", .text, name⟩, ⟨"label", .text, label⟩,
    ⟨"translation_domain", .optionalText, translationDomain⟩]

theorem readFrom_of_decode (o : Options) (r : PermissionRecord) (h : decode o = .ok r) :
    Slot.ReadFrom slots extra o r := by
  obtain ⟨_, hcheck, h⟩ := check_bind.1 h
  obtain ⟨name, hname, h⟩ := check_bind.1 h
  obtain ⟨label, hlabel, h⟩ := check_bind.1 h
  obtain ⟨domain, hdomain, h⟩ := check_bind.1 h
  obtain rfl := check_pure.1 h
  exact ⟨hcheck, by simpa [slots] using ⟨hname, hlabel, hdomain⟩, rfl⟩

theorem eq_of_slots {r r' : PermissionRecord}
    (hslots : ∀ slot ∈ slots, slot.content r = slot.content r') (hextra : extra r = extra r') :
    r = r' := by
  obtain ⟨⟩ := r
  obtain ⟨⟩ := r'
  simp only [slots, List.forall_mem_cons] at hslots
  obtain ⟨rfl, rfl, rfl, -⟩ := hslots
  cases hextra
  rfl

instance : Layout PermissionRecord where
  slots := slots
  extra := extra
  distinct := by decide
  operations_only := by decide
  encode_eq _ := rfl
  decode_succeeds _ := decode_succeeds
  readFrom_of_decode := readFrom_of_decode
  eq_of_decode _ _ _ _ _ _ := eq_of_slots

end PermissionRecord

namespace NamespaceRecord

def slots : List (Slot NamespaceRecord) :=
  [⟨"name", .text, name⟩, ⟨"prefix", .text, path⟩, ⟨"label", .optionalText, label⟩,
    ⟨"translation_domain", .optionalText, translationDomain⟩]

theorem readFrom_of_decode (o : Options) (r : NamespaceRecord) (h : decode o = .ok r) :
    Slot.ReadFrom slots extra o r := by
  obtain ⟨_, hcheck, h⟩ := check_bind.1 h
  obtain ⟨name, hname, h⟩ := check_bind.1 h
  obtain ⟨path, hpath, h⟩ := check_bind.1 h
  obtain ⟨label, hlabel, h⟩ := check_bind.1 h
  obtain ⟨domain, hdomain, h⟩ := check_bind.1 h
  obtain rfl := check_pure.1 h
  exact ⟨hcheck, by simpa [slots] using ⟨hname, hpath, hlabel, hdomain⟩, rfl⟩

theorem eq_of_slots {r r' : NamespaceRecord}
    (hslots : ∀ slot ∈ slots, slot.content r = slot.content r') (hextra : extra r = extra r') :
    r = r' := by
  obtain ⟨⟩ := r
  obtain ⟨⟩ := r'
  simp only [slots, List.forall_mem_cons] at hslots
  obtain ⟨rfl, rfl, rfl, rfl, -⟩ := hslots
  cases hextra
  rfl

instance : Layout NamespaceRecord where
  slots := slots
  extra := extra
  distinct := by decide
  operations_only := by decide
  encode_eq _ := rfl
  decode_succeeds _ := decode_succeeds
  readFrom_of_decode := readFrom_of_decode
  eq_of_decode _ _ _ _ _ _ := eq_of_slots

end NamespaceRecord

namespace ActionRecord

def slots : List (Slot ActionRecord) :=
  [⟨"name", .text, name⟩, ⟨"class", .text, type⟩, ⟨"route", .optionalText, route⟩,
    ⟨"permissions", .texts, permissions⟩, ⟨"options", .bag, options⟩,
    ⟨"button", .anything, button⟩, ⟨"label", .optionalText, label⟩]

theorem readFrom_of_decode (o : Options) (r : ActionRecord) (h : decode o = .ok r) :
    Slot.ReadFrom slots extra o r := by
  obtain ⟨_, hcheck, h⟩ := check_bind.1 h
  obtain ⟨name, hname, h⟩ := check_bind.1 h
  obtain ⟨type, htype, h⟩ := check_bind.1 h
  obtain ⟨route, hroute, h⟩ := check_bind.1 h
  obtain ⟨permissions, hpermissions, h⟩ := check_bind.1 h
  obtain ⟨options, hoptions, h⟩ := check_bind.1 h
  obtain ⟨button, hbutton, h⟩ := check_bind.1 h
  obtain ⟨label, hlabel, h⟩ := check_bind.1 h
  obtain rfl := check_pure.1 h
  exact ⟨hcheck, by
    simpa [slots] using ⟨hname, htype, hroute, hpermissions, hoptions, hbutton, hlabel⟩, rfl⟩

theorem eq_of_slots {r r' : ActionRecord}
    (hslots : ∀ slot ∈ slots, slot.content r = slot.content r') (hextra : extra r = extra r') :
    r = r' := by
  obtain ⟨⟩ := r
  obtain ⟨⟩ := r'
  simp only [slots, List.forall_mem_cons] at hslots
  obtain ⟨rfl, rfl, rfl, rfl, rfl, rfl, rfl, -⟩ := hslots
  cases hextra
  rfl

instance : Layout ActionRecord where
  slots := slots
  extra := extra
  distinct := by decide
  operations_only := by decide
  encode_eq _ := rfl
  decode_succeeds _ := decode_succeeds
  readFrom_of_decode := readFrom_of_decode
  eq_of_decode _ _ _ _ _ _ := eq_of_slots

end ActionRecord

namespace BehaviorRecord

def slots : List (Slot BehaviorRecord) :=
  [⟨"name", .text, name⟩, ⟨"class", .text, type⟩, ⟨"interface", .optionalText, interface⟩,
    ⟨"operations", .operations, operations⟩, ⟨"options", .bag, options⟩]

theorem readFrom_of_decode (o : Options) (r : BehaviorRecord) (h : decode o = .ok r) :
    Slot.ReadFrom slots extra o r := by
  obtain ⟨_, hcheck, h⟩ := check_bind.1 h
  obtain ⟨name, hname, h⟩ := check_bind.1 h
  obtain ⟨type, htype, h⟩ := check_bind.1 h
  obtain ⟨interface, hinterface, h⟩ := check_bind.1 h
  obtain ⟨operations, hoperations, h⟩ := check_bind.1 h
  obtain ⟨options, hoptions, h⟩ := check_bind.1 h
  obtain rfl := check_pure.1 h
  exact ⟨hcheck, by simpa [slots] using ⟨hname, htype, hinterface, hoperations, hoptions⟩, rfl⟩

theorem eq_of_slots {r r' : BehaviorRecord}
    (hslots : ∀ slot ∈ slots, slot.content r = slot.content r') (hextra : extra r = extra r') :
    r = r' := by
  obtain ⟨⟩ := r
  obtain ⟨⟩ := r'
  simp only [slots, List.forall_mem_cons] at hslots
  obtain ⟨rfl, rfl, rfl, rfl, rfl, -⟩ := hslots
  cases hextra
  rfl

instance : Layout BehaviorRecord where
  slots := slots
  extra := extra
  distinct := by decide
  operations_only := by decide
  encode_eq _ := rfl
  decode_succeeds _ := decode_succeeds
  readFrom_of_decode := readFrom_of_decode
  eq_of_decode _ _ _ _ _ _ := eq_of_slots

end BehaviorRecord

namespace ResourceRecord

def slots : List (Slot ResourceRecord) :=
  [⟨"name", .text, name⟩, ⟨"driver", .text, driver⟩, ⟨"namespace", .text, nameSpace⟩,
    ⟨"entity", .text, entity⟩, ⟨"interface", .optionalText, interface⟩,
    ⟨"parent", .optionalText, parent⟩, ⟨"translation", .optionalText, translationType⟩,
    ⟨"translatable_fields", .texts, translatableFields⟩, ⟨"label", .optionalText, label⟩,
    ⟨"translation_domain", .optionalText, translationDomain⟩, ⟨"actions", .bags, actions⟩,
    ⟨"behaviors", .bags, behaviors⟩, ⟨"permissions", .texts, permissions⟩,
    ⟨"event_class", .optionalText, eventClass⟩, ⟨"event_priority", .integer, eventPriority⟩,
    ⟨"options", .bag, options⟩]

theorem slots_readFrom_of_decode (o : Options) (r : ResourceRecord) (h : decode o = .ok r) :
    Slot.ReadFrom slots extra o r := by
  obtain ⟨_, hcheck, -⟩ := check_bind.1 h
  have hr := readFrom_of_decode h
  refine ⟨hcheck, ?_, hr.extra⟩
  simp only [slots, List.forall_mem_cons]
  exact ⟨hr.name, hr.driver, hr.nameSpace, hr.entity, hr.interface, hr.parent,
    hr.translationType, hr.translatableFields, hr.label, hr.translationDomain, hr.actions,
    hr.behaviors, hr.permissions, hr.eventClass, hr.eventPriority, hr.options,
    List.forall_mem_nil _⟩

theorem eq_of_slots {o o' : Options} {r r' : ResourceRecord} (h : decode o = .ok r)
    (h' : decode o' = .ok r') (hslots : ∀ slot ∈ slots, slot.content r = slot.content r')
    (hextra : extra r = extra r') : r = r' := by
  -- neither of the two knows a registry
  have hlinked := (readFrom_of_decode h).linked
  have hlinked' := (readFrom_of_decode h').linked
  obtain ⟨⟩ := r
  obtain ⟨⟩ := r'
  cases hextra
  cases hlinked
  cases hlinked'
  simp only [slots, List.forall_mem_cons] at hslots
  obtain ⟨rfl, rfl, rfl, rfl, rfl, rfl, rfl, rfl, rfl, rfl, rfl, rfl, rfl, rfl, rfl, rfl, -⟩ :=
    hslots
  rfl

instance : Layout ResourceRecord where
  slots := slots
  extra := extra
  distinct := by decide
  operations_only := by decide
  encode_eq _ := rfl
  decode_succeeds _ := decode_succeeds
  readFrom_of_decode := slots_readFrom_of_decode
  eq_of_decode _ _ _ _ := eq_of_slots

end ResourceRecord

end ConfigCompiler
