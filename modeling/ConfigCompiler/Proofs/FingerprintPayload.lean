import ConfigCompiler.Proofs.Caching
import ConfigCompiler.Proofs.WrittenValues

/-!
# What a fingerprint tells apart

The payload of a fingerprint lists names between separators and does not escape them.  It tells
inputs apart as far as no separator stands in the names.

**Relations.**  `Separable r` says of the names of a resolver that no separator stands in them.
`SameInputs` says of two compilations that they have the same raw entries, the same extensions by
name, and the same registrations.

**Results.**
* `intercalate_inj`: texts without a separator are told apart between separators.
* `signature_inj`: the lines of a catalog tell its registrations.
* `fingerprintPayload_entries`: the payload always tells the raw entries.
* `fingerprint_tells_inputs`: with separable names it tells all inputs, and what was compiled
  from other inputs is stale.
-/

namespace ConfigCompiler

variable {α : Type} {sep : α} {xs ys rest rest' : List α}

/-- A text without a separator ends where the first separator stands. -/
theorem append_separator_inj (hxs : sep ∉ xs) (hys : sep ∉ ys)
    (h : xs ++ sep :: rest = ys ++ sep :: rest') : xs = ys ∧ rest = rest' := by
  induction xs generalizing ys with
  | nil =>
      cases ys with
      | nil => exact ⟨rfl, (List.cons.inj h).2⟩
      | cons y ys =>
          obtain rfl : sep = y := (List.cons.inj h).1
          exact absurd (List.mem_cons_self ..) hys
  | cons x xs ih =>
      cases ys with
      | nil =>
          obtain rfl : x = sep := (List.cons.inj h).1
          exact absurd (List.mem_cons_self ..) hxs
      | cons y ys =>
          obtain ⟨rfl, htail⟩ := List.cons.inj h
          obtain ⟨rfl, hrest⟩ := ih (fun hmem => hxs (List.mem_cons_of_mem _ hmem))
            (fun hmem => hys (List.mem_cons_of_mem _ hmem)) htail
          exact ⟨rfl, hrest⟩

/-- A text that holds a separator is none of those between separators. -/
theorem separator_mem_intercalate (sep : α) (first second : List α) (others : List (List α)) :
    sep ∈ [sep].intercalate (first :: second :: others) := by
  rw [List.intercalate_cons_cons]
  simp

/-- Texts without a separator are told apart between separators, if there are any. -/
theorem intercalate_cons_inj {texts others : List (List α)} {first other : List α}
    (hfirst : ∀ x ∈ first :: texts, sep ∉ x) (hother : ∀ y ∈ other :: others, sep ∉ y)
    (h : [sep].intercalate (first :: texts) = [sep].intercalate (other :: others)) :
    first :: texts = other :: others := by
  induction texts generalizing first other others with
  | nil =>
      cases others with
      | nil => rw [List.intercalate_singleton, List.intercalate_singleton] at h; rw [h]
      | cons second others =>
          rw [List.intercalate_singleton] at h
          exact absurd (h ▸ separator_mem_intercalate sep other second others)
            (hfirst first (List.mem_cons_self ..))
  | cons second texts ih =>
      cases others with
      | nil =>
          rw [List.intercalate_singleton] at h
          exact absurd (h ▸ separator_mem_intercalate sep first second texts)
            (hother other (List.mem_cons_self ..))
      | cons second' others =>
          rw [List.intercalate_cons_cons, List.intercalate_cons_cons, List.append_assoc,
            List.append_assoc, List.singleton_append, List.singleton_append] at h
          obtain ⟨rfl, hrest⟩ := append_separator_inj (hfirst first (List.mem_cons_self ..))
            (hother other (List.mem_cons_self ..)) h
          rw [ih (fun x hx => hfirst x (List.mem_cons_of_mem _ hx))
            (fun y hy => hother y (List.mem_cons_of_mem _ hy)) hrest]

/-- No text at all is told from texts that are not empty. -/
theorem intercalate_inj {texts others : List (List α)}
    (htexts : ∀ x ∈ texts, x ≠ [] ∧ sep ∉ x) (hothers : ∀ y ∈ others, y ≠ [] ∧ sep ∉ y)
    (h : [sep].intercalate texts = [sep].intercalate others) : texts = others := by
  have hempty : ∀ first more, (∀ x ∈ first :: more, x ≠ [] ∧ sep ∉ x) →
      [sep].intercalate (first :: more) ≠ [] := by
    intro first more hall hnil
    cases more with
    | nil =>
        rw [List.intercalate_singleton] at hnil
        exact (hall first (List.mem_cons_self ..)).1 hnil
    | cons second more =>
        have hmem := separator_mem_intercalate sep first second more
        rw [hnil] at hmem
        cases hmem
  match texts, others with
  | [], [] => rfl
  | [], other :: others => exact absurd h.symm (hempty other others hothers)
  | first :: texts, [] => exact absurd h (hempty first texts htexts)
  | first :: texts, other :: others =>
      exact intercalate_cons_inj (fun x hx => (htexts x hx).2) (fun y hy => (hothers y hy).2) h

/-- What stands in none of the texts and is no separator stands nowhere between separators. -/
theorem notMem_intercalate {a : α} {texts : List (List α)} (hsep : a ≠ sep)
    (htexts : ∀ x ∈ texts, a ∉ x) : a ∉ [sep].intercalate texts := by
  induction texts with
  | nil => simp [List.intercalate]
  | cons first texts ih =>
      have hfirst := htexts first (List.mem_cons_self ..)
      have hothers := ih (fun x hx => htexts x (List.mem_cons_of_mem _ hx))
      cases texts with
      | nil => simpa using hfirst
      | cons second texts =>
          rw [List.intercalate_cons_cons]
          simp [hfirst, hsep, hothers]

/-- Lists are told by what a map makes of them, if it tells their items apart. -/
theorem map_inj_of_mem {β : Type} {f : α → β}
    (hinj : ∀ x ∈ xs, ∀ y ∈ ys, f x = f y → x = y) (h : xs.map f = ys.map f) : xs = ys := by
  induction xs generalizing ys with
  | nil => exact (List.map_eq_nil_iff.1 h.symm).symm
  | cons x xs ih =>
      cases ys with
      | nil => cases h
      | cons y ys =>
          obtain ⟨hhead, htail⟩ := List.cons.inj h
          rw [hinj x (List.mem_cons_self ..) y (List.mem_cons_self ..) hhead,
            ih (fun x hx y hy => hinj x (List.mem_cons_of_mem _ hx) y (List.mem_cons_of_mem _ hy))
              htail]

/-- Whether an arrow stands in a text. -/
def hasArrow : List Char → Bool
  | '=' :: '>' :: _ => true
  | _ :: rest => hasArrow rest
  | [] => false

theorem hasArrow_tail {c : Char} {cs : List Char} (h : hasArrow (c :: cs) = false) :
    hasArrow cs = false := by
  unfold hasArrow at h
  split at h
  · cases h
  · next heq =>
      obtain ⟨-, rfl⟩ := List.cons.inj heq
      exact h
  · next heq => cases heq

/-- A text without an arrow that stands before an arrow is empty, if the arrow comes first. -/
theorem eq_nil_of_arrow {ds rest rest' : List Char} (hds : hasArrow ds = false)
    (h : ds ++ '=' :: '>' :: rest' = '=' :: '>' :: rest) : ds = [] := by
  match ds with
  | [] => rfl
  | [d] => simp at h
  | d :: e :: ds =>
      obtain ⟨rfl, htail⟩ := List.cons.inj h
      obtain ⟨rfl, -⟩ := List.cons.inj htail
      simp [hasArrow] at hds

/-- A text without an arrow ends where the first arrow stands. -/
theorem append_arrow_inj {cs ds rest rest' : List Char} (hcs : hasArrow cs = false)
    (hds : hasArrow ds = false) (h : cs ++ '=' :: '>' :: rest = ds ++ '=' :: '>' :: rest') :
    cs = ds ∧ rest = rest' := by
  induction cs generalizing ds with
  | nil =>
      obtain rfl := eq_nil_of_arrow hds h.symm
      simpa using h
  | cons c cs ih =>
      cases ds with
      | nil => cases eq_nil_of_arrow hcs h
      | cons d ds =>
          obtain ⟨rfl, htail⟩ := List.cons.inj h
          obtain ⟨rfl, hrest⟩ := ih (hasArrow_tail hcs) (hasArrow_tail hds) htail
          exact ⟨rfl, hrest⟩

/-- No separator stands in the names of a catalog: lines in none, arrows not in those of types
that interfaces are declared for, commas not in those of interfaces. -/
structure Catalog.Separable (c : Catalog) : Prop where
  actions : ∀ name ∈ c.actions.keys, '\n' ∉ name.toList
  behaviors : ∀ name ∈ c.behaviors.keys, '\n' ∉ name.toList
  types : ∀ name ∈ c.declared.keys, '\n' ∉ name.toList ∧ hasArrow name.toList = false
  interfaces : ∀ e ∈ c.declared.entries, ∀ name ∈ e.2.keys,
    name ≠ "" ∧ ',' ∉ name.toList ∧ '\n' ∉ name.toList

namespace Catalog

/-- One registration. -/
inductive Registration where
  | action (builder : Bool) (name : String)
  | behavior (name : String)
  | declaration (type : String) (interfaces : NameSet)

/-- The line of a registration. -/
def Registration.line : Registration → String
  | .action builder name => (if builder then "action_builder:" else "action:") ++ name
  | .behavior name => "behavior:" ++ name
  | .declaration type interfaces =>
      "capability:" ++ type ++ "=>" ++ ",".intercalate interfaces.keys

/-- The registrations of a catalog, in the order of their lines. -/
def registrations (c : Catalog) : List Registration :=
  c.actions.entries.map (fun e => .action e.2.isBuilder e.1) ++
    c.behaviors.keys.map .behavior ++
    c.declared.entries.map (fun e => .declaration e.1 e.2)

theorem signature_eq (c : Catalog) : c.signature = c.registrations.map Registration.line := by
  simp only [signature, registrations, List.map_append, List.map_map]
  rfl

/-- What has to hold of a registration for its line to tell it. -/
def Registration.Separable : Registration → Prop
  | .action _ name => '\n' ∉ name.toList
  | .behavior name => '\n' ∉ name.toList
  | .declaration type interfaces =>
      ('\n' ∉ type.toList ∧ hasArrow type.toList = false) ∧
        ∀ name ∈ interfaces.keys, name ≠ "" ∧ ',' ∉ name.toList ∧ '\n' ∉ name.toList

theorem Separable.registrations {c : Catalog} (h : c.Separable) {x : Registration}
    (hx : x ∈ c.registrations) : x.Separable := by
  simp only [Catalog.registrations, List.mem_append, List.mem_map] at hx
  rcases hx with (⟨e, he, rfl⟩ | ⟨name, hname, rfl⟩) | ⟨e, he, rfl⟩
  · exact h.actions e.1 (List.mem_map_of_mem he)
  · exact h.behaviors name hname
  · exact ⟨h.types e.1 (List.mem_map_of_mem he), h.interfaces e he⟩

/-- The text of a line before the names in it. -/
theorem Registration.line_eq (x : Registration) :
    x.line.toList = match x with
      | .action true name => "action_builder:".toList ++ name.toList
      | .action false name => "action:".toList ++ name.toList
      | .behavior name => "behavior:".toList ++ name.toList
      | .declaration type interfaces => "capability:".toList ++
          (type.toList ++ '=' :: '>' ::
            [','].intercalate (interfaces.keys.map String.toList)) := by
  cases x with
  | action builder name => cases builder <;> exact String.toList_append
  | behavior name => exact String.toList_append
  | declaration type interfaces =>
      simp only [line, String.toList_append, String.toList_intercalate, List.append_assoc]
      rfl

/-- The line of a registration stands on one line, and is not empty. -/
theorem Registration.Separable.line {x : Registration} (h : x.Separable) :
    x.line.toList ≠ [] ∧ '\n' ∉ x.line.toList := by
  rw [Registration.line_eq]
  cases x with
  | action builder name =>
      have hname : '\n' ∉ name.toList := h
      cases builder <;> simp [hname]
  | behavior name =>
      have hname : '\n' ∉ name.toList := h
      simp [hname]
  | declaration type interfaces =>
      obtain ⟨⟨htype, -⟩, hinterfaces⟩ := h
      have hjoined : '\n' ∉ [','].intercalate (interfaces.keys.map String.toList) := by
        refine notMem_intercalate (by decide) (fun cs hcs => ?_)
        obtain ⟨name, hname, rfl⟩ := List.mem_map.1 hcs
        exact (hinterfaces name hname).2.2
      simp [htype, hjoined]

/-- Texts are told by their characters. -/
theorem toList_map_inj {texts others : List String}
    (h : texts.map String.toList = others.map String.toList) : texts = others :=
  List.map_inj_right (fun _ _ => String.toList_inj.1) |>.1 h

/-- A set of names is told by its names. -/
theorem nameSet_inj {a b : NameSet} (h : a.keys = b.keys) : a = b := by
  refine SortedMap.ext_get? (fun k => ?_)
  have hstored : (a.get? k).isSome = (b.get? k).isSome := SortedMap.contains_eq_of_keys_eq h k
  cases ha : a.get? k <;> cases hb : b.get? k <;> simp [ha, hb] at hstored ⊢

/-- Names of interfaces that may stand between commas. -/
theorem separable_names {names : List String}
    (h : ∀ name ∈ names, name ≠ "" ∧ ',' ∉ name.toList ∧ '\n' ∉ name.toList) :
    ∀ cs ∈ names.map String.toList, cs ≠ [] ∧ ',' ∉ cs := by
  intro cs hcs
  obtain ⟨name, hname, rfl⟩ := List.mem_map.1 hcs
  obtain ⟨hne, hcomma, -⟩ := h name hname
  exact ⟨fun hnil => hne (String.toList_inj.1 hnil), hcomma⟩

/-- Registrations with separable names have different lines. -/
theorem Registration.line_inj {x y : Registration} (hx : x.Separable) (hy : y.Separable)
    (h : x.line = y.line) : x = y := by
  have hchars : x.line.toList = y.line.toList := congrArg String.toList h
  rw [Registration.line_eq, Registration.line_eq] at hchars
  cases x with
  | action builder name =>
      cases y with
      | action builder' name' =>
          cases builder <;> cases builder' <;> simp [String.toList_inj] at hchars <;> rw [hchars]
      | behavior name' => cases builder <;> simp at hchars
      | declaration type' interfaces' => cases builder <;> simp at hchars
  | behavior name =>
      cases y with
      | action builder' name' => cases builder' <;> simp at hchars
      | behavior name' =>
          simp [String.toList_inj] at hchars
          rw [hchars]
      | declaration type' interfaces' => simp at hchars
  | declaration type interfaces =>
      cases y with
      | action builder' name' => cases builder' <;> simp at hchars
      | behavior name' => simp at hchars
      | declaration type' interfaces' =>
          obtain ⟨⟨-, htype⟩, hinterfaces⟩ := hx
          obtain ⟨⟨-, htype'⟩, hinterfaces'⟩ := hy
          obtain ⟨hname, hjoined⟩ :=
            append_arrow_inj htype htype' (List.append_cancel_left hchars)
          have hkeys : interfaces.keys.map String.toList = interfaces'.keys.map String.toList :=
            intercalate_inj (separable_names hinterfaces) (separable_names hinterfaces') hjoined
          rw [String.toList_inj.1 hname, nameSet_inj (toList_map_inj hkeys)]

/-- The lines of a catalog with separable names may stand between line breaks. -/
theorem Separable.signature {c : Catalog} (h : c.Separable) :
    ∀ cs ∈ c.signature.map String.toList, cs ≠ [] ∧ '\n' ∉ cs := by
  intro cs hcs
  rw [signature_eq, List.map_map] at hcs
  obtain ⟨x, hx, rfl⟩ := List.mem_map.1 hcs
  exact (h.registrations hx).line

/-- The lines of a catalog with separable names tell its registrations. -/
theorem signature_inj {c c' : Catalog} (h : c.Separable) (h' : c'.Separable)
    (hlines : "\n".intercalate c.signature = "\n".intercalate c'.signature) :
    c.registrations = c'.registrations := by
  have hchars := congrArg String.toList hlines
  rw [String.toList_intercalate, String.toList_intercalate] at hchars
  have hsignature := toList_map_inj (intercalate_inj h.signature h'.signature hchars)
  rw [signature_eq, signature_eq] at hsignature
  exact map_inj_of_mem
    (fun x hx y hy => Registration.line_inj (h.registrations hx) (h'.registrations hy)) hsignature

/-- The action type of a registration, and whether it is a builder. -/
def Registration.action? : Registration → Option (String × Bool)
  | .action builder name => some (name, builder)
  | _ => none

/-- The behavior type of a registration. -/
def Registration.behavior? : Registration → Option String
  | .behavior name => some name
  | _ => none

/-- The interfaces that a registration declares for a type. -/
def Registration.declaration? : Registration → Option (String × NameSet)
  | .declaration type interfaces => some (type, interfaces)
  | _ => none

/-- The registrations of a catalog tell its types and what is declared for them. -/
theorem filterMap_registrations (c : Catalog) :
    c.registrations.filterMap Registration.action? = (c.actions.map ActionType.isBuilder).entries ∧
      c.registrations.filterMap Registration.behavior? = c.behaviors.keys ∧
      c.registrations.filterMap Registration.declaration? = c.declared.entries := by
  have hnone : ∀ {β γ : Type} (l : List β), l.filterMap (fun _ => (none : Option γ)) = [] :=
    fun l => List.filterMap_eq_nil_iff.2 (fun _ _ => rfl)
  refine ⟨?_, ?_, ?_⟩ <;>
    simp [registrations, Function.comp_def, Registration.action?, Registration.behavior?,
      Registration.declaration?, SortedMap.map, hnone]

end Catalog

/-- No separator stands in the names of a resolver: neither commas nor line breaks in those of
extensions, and its catalog is separable too. -/
structure Resolver.Separable (r : Resolver) : Prop where
  extensions : ∀ e ∈ r.extensions, ',' ∉ e.name.toList ∧ '\n' ∉ e.name.toList
  catalog : r.catalog.Separable

/-- Maps are told by what they list. -/
theorem SortedMap.ext_entries {β : Type} {a b : SortedMap β} (h : a.entries = b.entries) :
    a = b :=
  SortedMap.ext_get? (fun k => congrArg (Entries.find? k) h)

/-- Two compilations have the same raw entries, the same extensions by name, and the same
registrations. -/
structure SameInputs (entries entries' : EntryTable) (r r' : Resolver) : Prop where
  entries : entries = entries'
  extensions : r.extensionNames = r'.extensionNames
  actions : r.catalog.actions.map ActionType.isBuilder =
    r'.catalog.actions.map ActionType.isBuilder
  behaviors : r.catalog.behaviors.keys = r'.catalog.behaviors.keys
  declared : r.catalog.declared = r'.catalog.declared

/-- The payload begins with the raw entries, on a line of their own. -/
theorem toList_fingerprintPayload (entries : EntryTable) (r : Resolver) :
    (fingerprintPayload entries r).toList =
      ("format=" ++ toString formatVersion ++ "\nentries=").toList ++
        (entries.toValue.text.toList ++ '\n' :: ("extensions=".toList ++
          ([','].intercalate (r.extensionNames.map String.toList) ++ '\n' ::
            ("catalog=".toList ++ ("\n".intercalate r.catalog.signature).toList)))) := by
  simp only [fingerprintPayload, String.toList_append, String.toList_intercalate,
    List.append_assoc]
  rfl

/-- Tables of raw entries are told by their values. -/
theorem EntryTable.toValue_inj {entries entries' : EntryTable}
    (h : entries.toValue = entries'.toValue) : entries = entries' := by
  have hkind : ∀ (t : EntryTable) (kind : EntityKind), (EntityKind.all.foldl
      (fun (m : Options) kind => m.insert kind.name (bags (t.get kind))) ∅).get? kind.name =
        some (bags (t.get kind)) := by
    intro t kind
    cases kind <;> simp [EntityKind.all, SortedMap.get?_insert, EntityKind.name]
  refine PerKind.ext_get (fun kind => SortedMap.ext_get? (fun k => ?_))
  have hbags := congrArg (fun m => SortedMap.get? m kind.name) (Value.object_inj h)
  simp only [hkind, Option.some.injEq] at hbags
  have hentry := congrArg (fun m => SortedMap.get? m k) (Value.object_inj hbags)
  simp only [SortedMap.get?_map] at hentry
  exact Option.map_injective (fun _ _ => Value.object_inj) hentry

/-- The payload always tells the raw entries. -/
theorem fingerprintPayload_entries {entries entries' : EntryTable} {r r' : Resolver}
    (h : fingerprintPayload entries r = fingerprintPayload entries' r') : entries = entries' := by
  have hchars := congrArg String.toList h
  rw [toList_fingerprintPayload, toList_fingerprintPayload] at hchars
  obtain ⟨htext, -⟩ := append_separator_inj (Value.newline_notMem_text _)
    (Value.newline_notMem_text _) (List.append_cancel_left hchars)
  exact EntryTable.toValue_inj (Value.text_inj (String.toList_inj.1 htext))

/-- The names of extensions may stand between commas. -/
theorem Resolver.Separable.extensionNames {r : Resolver} (h : r.Separable) :
    ∀ name ∈ r.extensionNames, ',' ∉ name.toList ∧ '\n' ∉ name.toList := by
  intro name hname
  obtain ⟨e, he, rfl⟩ := List.mem_map.1 hname
  rcases List.mem_cons.1 he with rfl | he
  · exact (by decide : ',' ∉ Baseline.extensionName.toList ∧ '\n' ∉ Baseline.extensionName.toList)
  · exact h.extensions e he

/-- The extensions stand on one line, told apart by commas. -/
theorem Resolver.Separable.extensionLine {r : Resolver} (h : r.Separable) :
    '\n' ∉ [','].intercalate (r.extensionNames.map String.toList) ∧
      ∀ cs ∈ r.extensionNames.map String.toList, ',' ∉ cs := by
  constructor
  · refine notMem_intercalate (by decide) (fun cs hcs => ?_)
    obtain ⟨name, hname, rfl⟩ := List.mem_map.1 hcs
    exact (h.extensionNames name hname).2
  · intro cs hcs
    obtain ⟨name, hname, rfl⟩ := List.mem_map.1 hcs
    exact (h.extensionNames name hname).1

/-- With separable names the payload tells all inputs. -/
theorem sameInputs_of_payload {entries entries' : EntryTable} {r r' : Resolver}
    (hr : r.Separable) (hr' : r'.Separable)
    (h : fingerprintPayload entries r = fingerprintPayload entries' r') :
    SameInputs entries entries' r r' := by
  obtain ⟨hline, hcommas⟩ := hr.extensionLine
  obtain ⟨hline', hcommas'⟩ := hr'.extensionLine
  have hchars := congrArg String.toList h
  rw [toList_fingerprintPayload, toList_fingerprintPayload] at hchars
  -- three lines, and the rest is the catalog
  obtain ⟨-, hrest⟩ := append_separator_inj (Value.newline_notMem_text _)
    (Value.newline_notMem_text _) (List.append_cancel_left hchars)
  obtain ⟨hnames, hlines⟩ := append_separator_inj hline hline' (List.append_cancel_left hrest)
  have hregistrations : r.catalog.registrations = r'.catalog.registrations :=
    Catalog.signature_inj hr.catalog hr'.catalog
      (String.toList_inj.1 (List.append_cancel_left hlines))
  obtain ⟨hactions, hbehaviors, hdeclared⟩ := Catalog.filterMap_registrations r.catalog
  obtain ⟨hactions', hbehaviors', hdeclared'⟩ := Catalog.filterMap_registrations r'.catalog
  rw [hregistrations] at hactions hbehaviors hdeclared
  exact {
    entries := fingerprintPayload_entries h
    extensions := Catalog.toList_map_inj (intercalate_cons_inj hcommas hcommas' hnames)
    actions := SortedMap.ext_entries (hactions.symm.trans hactions')
    behaviors := hbehaviors.symm.trans hbehaviors'
    declared := SortedMap.ext_entries (hdeclared.symm.trans hdeclared') }

/-- The payload is made of nothing else. -/
theorem SameInputs.payload_eq {entries entries' : EntryTable} {r r' : Resolver}
    (h : SameInputs entries entries' r r') :
    fingerprintPayload entries r = fingerprintPayload entries' r' := by
  have hactions : r.catalog.actions.entries.map (fun e => (e.1, e.2.isBuilder)) =
      r'.catalog.actions.entries.map (fun e => (e.1, e.2.isBuilder)) :=
    congrArg SortedMap.entries h.actions
  have hlines := congrArg (List.map fun e : String × Bool =>
    Catalog.Registration.action e.2 e.1) hactions
  simp only [List.map_map] at hlines
  have hregistrations : r.catalog.registrations = r'.catalog.registrations := by
    unfold Catalog.registrations
    rw [h.behaviors, h.declared]
    exact congrArg (fun l => l ++ _ ++ _) hlines
  rw [fingerprintPayload, fingerprintPayload, h.entries, h.extensions, Catalog.signature_eq,
    Catalog.signature_eq, hregistrations]

open Startup Resolution

/-- What stands at the path of the cache and is not current is stale: it is reported, and startup
ends as it does without the cache. -/
theorem startWith_of_stale {settings : Settings} {root : String} {r : Resolver}
    {tables : SchemaTables} {time : Timestamp} {store : EntryStore} {disk : Disk} {c : Compiled}
    (henabled : settings.cacheEnabled = true)
    (hload : load disk (settings.cacheLocation root) = .ok c)
    (hstale : c.isCurrent (fingerprint store.entries r) = false) :
    (startWith settings root r tables time store disk).events.head? = some .stale ∧
      (startWith settings root r tables time store disk).result =
        (startWith { settings with cacheEnabled := false } root r tables time store
          disk).result := by
  have hstate : persistedState disk (settings.cacheLocation root) (fingerprint store.entries r) =
      .stale := by
    rw [persistedState, if_pos (pathExists_of_load hload), hload]
    exact if_neg (by simp [hstale])
  have hmiss : obtainCached r tables time store disk (settings.cacheLocation root) =
      compileAndSave r tables time store disk (settings.cacheLocation root) [.stale] := by
    unfold obtainCached
    rw [hstate]
    rfl
  rw [startWith_enabled henabled, hmiss, result_startWith_disabled]
  refine ⟨?_, result_startFrom_congr (result_compileAndSave [.stale])⟩
  unfold compileAndSave
  split
  · rfl
  · split <;> rfl

/-- The raw entries are told by every payload.  Among resolvers with separable names the payload
tells exactly the raw entries, the extensions by name and the registrations; so unless two
different payloads have one digest, a persisted compilation of other inputs is stale. -/
theorem fingerprint_tells_inputs (r r' : Resolver) (store store' : EntryStore) :
    (fingerprintPayload store.entries r = fingerprintPayload store'.entries r' →
      store.entries = store'.entries) ∧
    (r.Separable → r'.Separable →
      (fingerprintPayload store.entries r = fingerprintPayload store'.entries r' ↔
        SameInputs store.entries store'.entries r r') ∧
      ((sha256Hex (fingerprintPayload store.entries r) =
            sha256Hex (fingerprintPayload store'.entries r') →
          fingerprintPayload store.entries r = fingerprintPayload store'.entries r') →
        ¬SameInputs store.entries store'.entries r r' →
        ∀ (settings : Settings) (root : String) (disk : Disk) (c : Compiled)
          (collisions : List AliasCollision) (tables t' tables' : SchemaTables)
          (time time' : Timestamp),
          settings.cacheEnabled = true →
          (compile r time store).Returns tables (c, collisions) t' →
          load disk (settings.cacheLocation root) = .ok { c with source? := none } →
          (startWith settings root r' tables' time' store' disk).events.head? = some .stale ∧
          (startWith settings root r' tables' time' store' disk).result =
            (startWith { settings with cacheEnabled := false } root r' tables' time' store'
              disk).result)) := by
  refine ⟨fingerprintPayload_entries,
    fun hr hr' => ⟨⟨sameInputs_of_payload hr hr', SameInputs.payload_eq⟩, ?_⟩⟩
  intro hcollision hother settings root disk c collisions tables t' tables' time time' henabled
    hcompile hload
  have hdiffer : c.fingerprint ≠ fingerprint store'.entries r' := by
    rw [(compile_stamp hcompile).2.1]
    exact fun heq => hother (sameInputs_of_payload hr hr' (hcollision heq))
  refine startWith_of_stale henabled hload ?_
  simp [Compiled.isCurrent, hdiffer]

namespace Audit

/-- The resolver with extensions of some names: one that holds a comma, or two around it. -/
def resolver (names : List String) : Resolver :=
  ⟨Catalog.empty, names.map (fun name => { name := name }), .keep⟩

def store : EntryStore where
  catalog := Catalog.empty
  entries := { EntryTable.empty with permissions := SortedMap.singleton "read" ∅ }

def settings : Settings := { cacheEnabled := true, cachePath := "compiled.json" }

/-- Names without separators may be names of extensions. -/
theorem separable {names : List String}
    (h : ∀ name ∈ names, ',' ∉ name.toList ∧ '\n' ∉ name.toList) :
    (resolver names).Separable where
  extensions := by
    intro e he
    obtain ⟨name, hname, rfl⟩ := List.mem_map.1 he
    exact h name hname
  catalog := by constructor <;> exact fun _ h => (List.not_mem_nil h).elim

/-- Whatever is saved is written at the root of an empty disk. -/
theorem writes (c : Compiled) : Writes Disk.empty (settings.cacheLocation "") c :=
  Writes.of_saveFile c (fun _ => ⟨rfl, rfl⟩)

end Audit

/-- One extension and two have the same payload, so what was compiled with the one is taken for
the two. -/
theorem comma_joins_extensions :
    fingerprintPayload Audit.store.entries (Audit.resolver ["audit,trace"]) =
        fingerprintPayload Audit.store.entries (Audit.resolver ["audit", "trace"]) ∧
      (Audit.resolver ["audit,trace"]).extensionNames ≠
        (Audit.resolver ["audit", "trace"]).extensionNames ∧
      ∀ (disk : Disk) (path : String) (c : Compiled) (tables : SchemaTables) (time : Timestamp),
        load disk path = .ok c →
        c.isCurrent (fingerprint Audit.store.entries (Audit.resolver ["audit,trace"])) = true →
        obtainCached (Audit.resolver ["audit", "trace"]) tables time Audit.store disk path =
          ⟨.ok c, disk, [.reused]⟩ := by
  have hpayload : fingerprintPayload Audit.store.entries (Audit.resolver ["audit,trace"]) =
      fingerprintPayload Audit.store.entries (Audit.resolver ["audit", "trace"]) := by
    decide +kernel
  refine ⟨hpayload, by decide, fun disk path c tables time hload hcurrent => ?_⟩
  refine obtainCached_of_current hload ?_
  rw [fingerprint, ← hpayload]
  exact hcurrent

/-- With names that hold no comma, an extension more makes the compilation stale. -/
theorem fingerprint_tells_inputs_audit :
    ∃ disk c,
      load disk (Audit.settings.cacheLocation "") = .ok c ∧
      (startWith Audit.settings "" (Audit.resolver ["audit", "trace"]) .empty .epoch Audit.store
        disk).events.head? = some .stale := by
  obtain ⟨⟨c, collisions⟩, t', hcompile, hlegible⟩ := returns_of_any
    (x := compile (Audit.resolver ["audit"]) .epoch Audit.store) (t := .empty)
    (p := fun answer => answer.1.toValue.tree.isLegible Json.Document.maxDepth)
    (by decide +kernel)
  obtain ⟨hversion, -, htime⟩ := compile_stamp hcompile
  have hload := load_save (Audit.writes c) ⟨hlegible, hversion ▸ by decide, htime ▸ by decide⟩
  have hdigest : sha256Hex (fingerprintPayload Audit.store.entries (Audit.resolver ["audit"])) ≠
      sha256Hex (fingerprintPayload Audit.store.entries (Audit.resolver ["audit", "trace"])) := by
    decide +kernel
  obtain ⟨-, htells⟩ := fingerprint_tells_inputs (Audit.resolver ["audit"])
    (Audit.resolver ["audit", "trace"]) Audit.store Audit.store
  obtain ⟨-, hstale⟩ := htells (Audit.separable (by decide)) (Audit.separable (by decide))
  obtain ⟨hevents, -⟩ := hstale (fun heq => absurd heq hdigest)
    (fun hsame => absurd hsame.extensions (by decide)) Audit.settings ""
    (save Disk.empty (Audit.settings.cacheLocation "") c).1 c collisions .empty t' .empty .epoch
    .epoch rfl hcompile hload
  exact ⟨_, _, hload, hevents⟩

end ConfigCompiler
