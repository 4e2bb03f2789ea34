import ConfigCompiler.Json.Reader
import ConfigCompiler.Proofs.WrittenValues

/-!
# Reading written values back

**Relation.**  `Tree.isLegible` says of nested data that the reader's limits let it pass: its
numbers are read back from their texts, and it is nested less than `depth` levels deep.

**Results.**
* `Json.read?_text`: the text of a legible value is read as the document of the value.
* `Document.value?_ofTree`: the document of legible data is decoded to them.
-/

namespace ConfigCompiler

/-- Whether a number is read back from its text. -/
def Number.isReadBack (n : Number) : Bool :=
  decide ((Json.readNumber? n.chars).bind (fun p => p.1.number?) = some n)

namespace Tree

mutual

/-- Whether data are read back: their numbers are, and they are nested less than `depth` levels
deep. -/
def isLegible (depth : Nat) : Tree → Bool
  | .number n => n.isReadBack
  | .array items => decide (1 < depth) && itemsLegible (depth - 1) items
  | .object fields => decide (1 < depth) && fieldsLegible (depth - 1) fields
  | _ => true

/-- Whether all items are read back. -/
def itemsLegible (depth : Nat) : List Tree → Bool
  | [] => true
  | t :: rest => t.isLegible depth && itemsLegible depth rest

/-- Whether all fields are read back. -/
def fieldsLegible (depth : Nat) : List (String × Tree) → Bool
  | [] => true
  | (_, t) :: rest => t.isLegible depth && fieldsLegible depth rest

end

end Tree

namespace Json

variable {fuel depth : Nat} {rest : List Char}

theorem skipSpace_cons {c : Char} (h : isSpace c = false) (cs : List Char) :
    skipSpace (c :: cs) = c :: cs := by
  simp [skipSpace, h]

theorem isSpace_of_markOf {t : Tree} {c : Char} (h : Tree.markOf c = t.mark) :
    isSpace c = false := by
  have hmark : isSpace t.mark = false := by
    rcases t with _ | (_ | _) | _ | _ | _ | _ <;> rfl
  cases hc : isSpace c with
  | false => rfl
  | true =>
      have hspace : c = ' ' ∨ c = '\n' ∨ c = '\t' ∨ c = '\r' := by
        simpa [isSpace, or_assoc] using hc
      -- a blank is neither a sign nor a digit, so it starts its own sort
      have hown : Tree.markOf c = c := by
        refine if_neg (fun hsign => ?_)
        revert hsign
        rcases hspace with rfl | rfl | rfl | rfl <;> decide
      rw [← h, hown, hc] at hmark
      cases hmark

/-- No blank space stands before written data. -/
theorem skipSpace_chars (t : Tree) (rest : List Char) :
    skipSpace (t.chars ++ rest) = t.chars ++ rest := by
  obtain ⟨c, tail, hchars, hmark⟩ := t.chars_eq_cons
  rw [hchars]
  exact skipSpace_cons (isSpace_of_markOf hmark) _

/-- Where a sign or a digit stands, a number is read. -/
theorem readDocument?_number {c : Char} {tail : List Char}
    (hc : c = '-' ∨ isDecimalDigit c = true) :
    readDocument? (fuel + 1) (c :: tail) =
      (readNumber? (c :: tail)).map (fun p => (.number p.1.number?, p.2)) := by
  have hspace : skipSpace (c :: tail) = c :: tail :=
    skipSpace_cons (isSpace_of_markOf (t := .number (.int 0)) (if_pos hc)) tail
  have hmark : ∀ d ∈ ['n', 't', 'f', '"', '[', '\x7b'], c ≠ d := by
    rintro d hd rfl
    revert hc hd
    simp only [List.mem_cons, List.not_mem_nil, or_false]
    rintro hc (rfl | rfl | rfl | rfl | rfl | rfl) <;> exact absurd hc (by decide)
  rw [readDocument?, hspace]
  split <;> simp_all

/-- After an opening bracket, items are read unless the closing one follows. -/
theorem readDocument?_items (t : Tree) (rest : List Char) :
    readDocument? (fuel + 1) ('[' :: (t.chars ++ rest)) =
      (readItems? fuel (t.chars ++ rest)).map (fun p => (.array p.1, p.2)) := by
  have hclose : ∀ more, skipSpace (t.chars ++ rest) ≠ ']' :: more := by
    obtain ⟨c, tail, hchars, hmark⟩ := t.chars_eq_cons
    intro more heq
    rw [skipSpace_chars, hchars] at heq
    obtain rfl : c = ']' := (List.cons.inj heq).1
    rcases t with _ | (_ | _) | _ | _ | _ | _ <;> cases hmark
  rw [readDocument?, skipSpace_cons (by decide)]
  simp only
  rw [skipSpace_chars]

/-- After an opening brace, fields are read where a quote stands. -/
theorem readDocument?_fields (cs : List Char) :
    readDocument? (fuel + 1) ('\x7b' :: '"' :: cs) =
      (readFields? fuel ('"' :: cs)).map (fun p => (.object p.1, p.2)) := by
  rw [readDocument?, skipSpace_cons (by decide)]
  simp only
  rw [skipSpace_cons (by decide)]
  rfl

/-- The items are written up to a closing bracket or a comma. -/
theorem skipSpace_itemsChars (items : List Tree) (rest : List Char) :
    skipSpace (Tree.itemsChars items ++ ']' :: rest) = Tree.itemsChars items ++ ']' :: rest := by
  cases items <;> exact skipSpace_cons (by decide) _

theorem skipSpace_fieldsChars (fields : List (String × Tree)) (rest : List Char) :
    skipSpace (Tree.fieldsChars fields ++ '\x7d' :: rest) =
      Tree.fieldsChars fields ++ '\x7d' :: rest := by
  cases fields with
  | nil => exact skipSpace_cons (by decide) _
  | cons e fields =>
      rw [Tree.fieldsChars_cons]
      exact skipSpace_cons (by decide) _

mutual

/-- Written data are read as their document, and the rest of the text is left. -/
theorem readDocument?_chars (t : Tree) (fuel : Nat) {depth : Nat} {rest : List Char}
    (hlegible : t.isLegible depth = true) (hfuel : t.chars.length ≤ fuel) (hrest : Stops rest) :
    readDocument? fuel (t.chars ++ rest) = some (Document.ofTree t, rest) := by
  obtain ⟨c, tail, hchars, hmark⟩ := t.chars_eq_cons
  obtain ⟨fuel, rfl⟩ : ∃ k, fuel = k + 1 :=
    ⟨fuel - 1, by rw [hchars, List.length_cons] at hfuel; omega⟩
  match t with
  | .null => rfl
  | .bool true => rfl
  | .bool false => rfl
  | .number n =>
      obtain ⟨w, hread, -⟩ := readNumber?_chars n
      obtain ⟨c, tail, hnumber, hc⟩ := head?_of_readNumber? hread
      have hvalue : w.number? = some n := by
        simpa [Tree.isLegible, Number.isReadBack, hread] using hlegible
      have happend := readNumber?_append hrest hread
      rw [Tree.chars, hnumber, List.cons_append] at *
      rw [readDocument?_number hc, happend, Option.map_some, hvalue]
      rfl
  | .string s =>
      show (readString? ((quotedChars s).drop 1 ++ rest)).map _ = _
      rw [readString?_quotedChars]
      rfl
  | .array [] => rfl
  | .array (t :: items) =>
      simp only [Tree.isLegible, Bool.and_eq_true] at hlegible
      have hitems := readItems?_chars t items fuel rest hlegible.2
        (by simp only [Tree.chars, Tree.itemsChars] at hfuel ⊢; simp at hfuel ⊢; omega)
      have hopen : (Tree.array (t :: items)).chars ++ rest =
          '[' :: (t.chars ++ (Tree.itemsChars items ++ ']' :: rest)) := by
        simp [Tree.chars, Tree.itemsChars]
      rw [hopen, readDocument?_items, hitems]
      rfl
  | .object [] => rfl
  | .object ((k, t) :: fields) =>
      simp only [Tree.isLegible, Bool.and_eq_true] at hlegible
      have hfields := readFields?_chars k t fields fuel rest hlegible.2
        (by simp only [Tree.chars, Tree.fieldsChars] at hfuel ⊢; simp at hfuel ⊢; omega)
      have hopen : (Tree.object ((k, t) :: fields)).chars ++ rest =
          '\x7b' :: (quotedChars k ++ ':' ::
            (t.chars ++ (Tree.fieldsChars fields ++ '\x7d' :: rest))) := by
        simp [Tree.chars, Tree.fieldsChars]
      rw [hopen, quotedChars, List.cons_append, List.cons_append, readDocument?_fields]
      rw [quotedChars, List.cons_append, List.cons_append] at hfields
      rw [hfields]
      rfl
termination_by fuel

/-- Written items are read, the closing bracket included. -/
theorem readItems?_chars (t : Tree) (items : List Tree) (fuel : Nat) {depth : Nat}
    (rest : List Char)
    (hlegible : Tree.itemsLegible depth (t :: items) = true)
    (hfuel : (Tree.itemsChars (t :: items)).length ≤ fuel) :
    readItems? fuel (t.chars ++ (Tree.itemsChars items ++ ']' :: rest)) =
      some (Document.ofItems (t :: items), rest) := by
  obtain ⟨fuel, rfl⟩ : ∃ k, fuel = k + 1 :=
    ⟨fuel - 1, by simp only [Tree.itemsChars_cons, List.length_cons] at hfuel; omega⟩
  simp only [Tree.itemsChars_cons, List.length_cons, List.length_append] at hfuel
  simp only [Tree.itemsLegible, Bool.and_eq_true] at hlegible
  have hfirst := readDocument?_chars t fuel hlegible.1 (by omega)
    (Tree.stops_itemsChars items rest)
  rw [readItems?, hfirst]
  simp only [skipSpace_itemsChars]
  match items with
  | [] => rfl
  | u :: items =>
      have hothers := readItems?_chars u items fuel rest hlegible.2 (by omega)
      rw [Tree.itemsChars_cons, List.cons_append, List.append_assoc]
      simp only [hothers]
      rfl
termination_by fuel

/-- Written fields are read, the closing brace included. -/
theorem readFields?_chars (k : String) (t : Tree) (fields : List (String × Tree))
    (fuel : Nat) {depth : Nat} (rest : List Char)
    (hlegible : Tree.fieldsLegible depth ((k, t) :: fields) = true)
    (hfuel : (Tree.fieldsChars ((k, t) :: fields)).length ≤ fuel) :
    readFields? fuel
        (quotedChars k ++ ':' :: (t.chars ++ (Tree.fieldsChars fields ++ '\x7d' :: rest))) =
      some (Document.ofFields ((k, t) :: fields), rest) := by
  obtain ⟨fuel, rfl⟩ : ∃ k, fuel = k + 1 :=
    ⟨fuel - 1, by simp only [Tree.fieldsChars_cons, List.length_cons] at hfuel; omega⟩
  simp only [Tree.fieldsChars_cons, List.length_cons, List.length_append] at hfuel
  simp only [Tree.fieldsLegible, Bool.and_eq_true] at hlegible
  have hkey := readString?_quotedChars k
    (':' :: (t.chars ++ (Tree.fieldsChars fields ++ '\x7d' :: rest)))
  have hfirst := readDocument?_chars t fuel hlegible.1 (by omega)
    (Tree.stops_fieldsChars fields rest)
  rw [quotedChars, List.cons_append, List.cons_append, readFields?, skipSpace_cons (by decide)]
  simp only [quotedChars, List.cons_append, List.drop_one, List.tail_cons] at hkey
  simp only [hkey, skipSpace_cons (c := ':') (by decide), hfirst, skipSpace_fieldsChars]
  match fields with
  | [] => rfl
  | (l, u) :: fields =>
      have hothers := readFields?_chars l u fields fuel rest hlegible.2
        (by omega)
      rw [Tree.fieldsChars_cons]
      simp only [List.cons_append, List.append_assoc, hothers]
      rfl
termination_by fuel

end

/-- The text of a legible value is read as the document of the value. -/
theorem read?_text {v : Value} (h : v.tree.isLegible depth = true) :
    read? v.text = some (Document.ofValue v) := by
  have hread := readDocument?_chars v.tree (2 * v.tree.chars.length + 2) h (by omega)
    stops_nil
  rw [List.append_nil] at hread
  simp only [read?, Value.text, String.toList_ofList, hread]
  rfl

namespace Document

theorem ofFields_eq_map (fields : List (String × Tree)) :
    ofFields fields = fields.map (fun e => (some e.1, ofTree e.2)) := by
  induction fields with
  | nil => rfl
  | cons e fields ih => rw [ofFields, ih, List.map_cons]

mutual

/-- The document of data is decoded to them. -/
theorem value?_ofTree (t : Tree) (ht : t.Canonical) {depth : Nat}
    (hlegible : t.isLegible depth = true) : (ofTree t).value? depth = some ⟨t, ht⟩ := by
  match t with
  | .null => rfl
  | .bool b => rfl
  | .number n => rfl
  | .string s => rfl
  | .array items =>
      simp only [Tree.isLegible, Bool.and_eq_true, decide_eq_true_eq] at hlegible
      rw [ofTree, value?, if_neg (by omega),
        itemValues?_ofItems items ((Tree.canonical_array items).1 ht) hlegible.2]
      refine congrArg some (Value.ext ?_)
      simp [Value.array, Value.itemsOf, List.map_pmap]
  | .object fields =>
      simp only [Tree.isLegible, Bool.and_eq_true, decide_eq_true_eq] at hlegible
      have hcanonical := (Tree.canonical_object fields).1 ht
      rw [ofTree, value?, if_neg (by omega),
        fieldValues?_ofFields fields hcanonical.1 hcanonical.2 hlegible.2]
      refine congrArg some (Value.ext ?_)
      simp [Value.object, Value.fieldsOf, SortedMap.map, List.map_pmap]

/-- The documents of items are decoded to them. -/
theorem itemValues?_ofItems (items : List Tree) (hitems : ∀ t ∈ items, t.Canonical) {depth : Nat}
    (hlegible : Tree.itemsLegible depth items = true) :
    itemValues? depth (ofItems items) = some (Value.itemsOf items hitems) := by
  match items with
  | [] => rfl
  | t :: items =>
      simp only [Tree.itemsLegible, Bool.and_eq_true] at hlegible
      rw [ofItems, itemValues?, value?_ofTree t (hitems t (List.mem_cons_self ..)) hlegible.1,
        itemValues?_ofItems items (fun u hu => hitems u (List.mem_cons_of_mem _ hu)) hlegible.2]
      rfl

/-- The documents of sorted fields are decoded to them. -/
theorem fieldValues?_ofFields (fields : List (String × Tree)) (hsorted : Entries.Sorted fields)
    (hfields : ∀ e ∈ fields, e.2.Canonical) {depth : Nat}
    (hlegible : Tree.fieldsLegible depth fields = true) :
    fieldValues? depth (ofFields fields) = some (Value.fieldsOf fields hsorted hfields) := by
  match fields with
  | [] => rfl
  | (k, t) :: fields =>
      simp only [Tree.fieldsLegible, Bool.and_eq_true] at hlegible
      have hrest : Entries.Sorted fields := (List.pairwise_cons.1 hsorted).2
      have hcanonical : ∀ e ∈ fields, e.2.Canonical :=
        fun e he => hfields e (List.mem_cons_of_mem _ he)
      have hlater : (Value.fieldsOf fields hrest hcanonical).get? k = none := by
        rw [SortedMap.get?, Entries.find?_eq_none_iff]
        intro hmem
        obtain ⟨e, he, hk⟩ : ∃ e ∈ fields, e.1 = k := by
          simpa [Value.fieldsOf, List.map_pmap] using hmem
        exact String.lt_irrefl k (hk ▸ (List.pairwise_cons.1 hsorted).1 e he)
      have hvalue := value?_ofTree t (hfields _ (List.mem_cons_self ..)) hlegible.1
      have hvalues := fieldValues?_ofFields fields hrest hcanonical hlegible.2
      simp only [ofFields, fieldValues?, hvalue, hvalues, SortedMap.contains, hlater,
        Option.isSome_none]
      refine congrArg some (SortedMap.ext_get? fun key => ?_)
      rw [if_neg (by decide), SortedMap.get?_insert]
      rfl

end

/-- The document of a bag is decoded to it. -/
theorem options?_ofValue {m : Options} {depth : Nat}
    (h : (Value.object m).tree.isLegible depth = true) :
    (ofValue (.object m)).options? depth = some m := by
  have hvalue : (ofValue (.object m)).value? depth = some (.object m) :=
    value?_ofTree _ (Value.object m).canonical h
  rw [ofValue, Value.object, ofTree, value?] at hvalue
  rw [ofValue, Value.object, ofTree, options?]
  split at hvalue
  · cases hvalue
  · next hdepth =>
      rw [if_neg hdepth]
      obtain ⟨fields, hfields, heq⟩ := Option.map_eq_some_iff.1 hvalue
      have hview := congrArg Value.view (show Value.object fields = Value.object m from heq)
      rw [Value.view_object, Value.view_object] at hview
      rw [hfields, Shape.object.inj hview]

/-- Decoding sorted fields one by one puts each of them in the map. -/
theorem foldlM_insert {α β : Type} {decode : β → Option α} (encode : α → β)
    (entries : List (String × α)) (acc : SortedMap α) (hsorted : Entries.Sorted entries)
    (h : ∀ e ∈ entries, decode (encode e.2) = some e.2) :
    ∃ out, entries.foldlM (fun (out : SortedMap α) e => do
        return out.insert e.1 (← decode (encode e.2))) acc = some out ∧
      ∀ k, out.get? k = (Entries.find? k entries).or (acc.get? k) := by
  induction entries generalizing acc with
  | nil => exact ⟨acc, rfl, fun k => by simp [Entries.find?]⟩
  | cons e entries ih =>
      have hrest := List.pairwise_cons.1 hsorted
      obtain ⟨out, hout, hget⟩ := ih (acc.insert e.1 e.2) hrest.2
        (fun f hf => h f (List.mem_cons_of_mem _ hf))
      refine ⟨out, ?_, fun k => ?_⟩
      · rw [List.foldlM_cons, h e (List.mem_cons_self ..)]
        exact hout
      · rw [hget, SortedMap.get?_insert, Entries.find?_cons]
        by_cases hk : e.1 = k
        · have hnone : Entries.find? k entries = none := by
            rw [Entries.find?_eq_none_iff]
            intro hmem
            obtain ⟨f, hf, hfk⟩ := List.mem_map.1 hmem
            exact String.lt_irrefl k (by simpa [hk, hfk] using hrest.1 f hf)
          simp [hk, hnone]
        · simp [hk]

/-- A map of written things is decoded to the map of what they are decoded to. -/
theorem mapOf?_ofValue {α : Type} {encode : α → Value} {decode : Document → Option α}
    (m : SortedMap α) (h : ∀ k a, m.get? k = some a → decode (ofValue (encode a)) = some a) :
    (ofValue (.object (m.map encode))).mapOf? decode = some m := by
  obtain ⟨out, hout, hget⟩ := foldlM_insert (fun a => ofValue (encode a)) m.entries ∅
    m.sorted (fun e he => h e.1 e.2 ((m.mem_entries_iff e.1 e.2).1 he))
  have heq : out = m := SortedMap.ext_get? fun k => (hget k).trans (Option.or_none)
  rw [ofValue, Value.object, ofTree, mapOf?, ofFields_eq_map]
  simp only [SortedMap.map, List.map_map, List.foldlM_map]
  exact hout.trans (congrArg some heq)

/-- Of sorted fields, at most one has a name. -/
theorem fieldsNamed_ofFields (m : Options) (name : String) :
    fieldsNamed name (ofFields (m.map Value.tree).entries) =
      ((m.get? name).map ofValue).toList := by
  obtain ⟨entries, hsorted⟩ := m
  simp only [fieldsNamed, ofFields_eq_map, SortedMap.map, SortedMap.get?, List.map_map,
    List.filterMap_map]
  induction entries with
  | nil => rfl
  | cons e entries ih =>
      have hrest := List.pairwise_cons.1 hsorted
      by_cases hname : e.1 = name
      · have hothers : entries.filterMap
            ((fun f : Option String × Document => if f.1 = some name then some f.2 else none) ∘
              ((fun e => (some e.1, ofTree e.2)) ∘ fun e => (e.1, e.2.tree))) = [] := by
          rw [List.filterMap_eq_nil_iff]
          intro f hf
          have hne : f.1 ≠ name := fun heq =>
            String.lt_irrefl name (by simpa [hname, heq] using hrest.1 f hf)
          simp [hne]
        rw [List.filterMap_cons_some (b := ofValue e.2) (by simp [hname, ofValue]), hothers,
          Entries.find?_cons, if_pos hname]
        rfl
      · rw [List.filterMap_cons_none (by simp [hname]), ih hrest.2, Entries.find?_cons,
          if_neg hname]

/-- The known fields of a written record are the fields of those names. -/
theorem record?_ofValue (m : Options) (names : List String) :
    (ofValue (.object m)).record? names =
      some (names.map (fun name => (m.get? name).map ofValue)) := by
  have hkeys : (ofFields (m.map Value.tree).entries).all (fun f => f.1.isSome) = true := by
    simp [ofFields_eq_map]
  have hunique : ∀ name, uniqueField? (ofFields (m.map Value.tree).entries) name =
      some ((m.get? name).map ofValue) := by
    intro name
    rw [uniqueField?, fieldsNamed_ofFields]
    cases m.get? name <;> rfl
  rw [ofValue, Value.object, ofTree, record?, if_pos hkeys, funext hunique]
  exact List.mapM_pure

end Document

end Json

end ConfigCompiler
