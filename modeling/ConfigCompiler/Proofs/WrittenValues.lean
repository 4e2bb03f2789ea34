import ConfigCompiler.Proofs.WrittenNumbers

/-!
# How values are written

The compact text of a value can be read without knowing where it ends.

**Results.**
* `readString?_quotedChars`: a string in quotes is read back.
* `Tree.chars_inj`: nested data of different content are written differently, whatever
  follows them; `Value.text_inj`: so are values.
* `Value.newline_notMem_text`: the text of a value stands on one line.
-/

namespace ConfigCompiler
namespace Json

variable {cs rest rest' : List Char}

/-- The piece that a character is read as: a control without an escape of its own is written
as a word. -/
def pieceOf (c : Char) : Sum Char Nat :=
  if c = '"' ∨ c = '\\' ∨ c.toNat = 0x08 ∨ c.toNat = 0x0C ∨ c = '\n' ∨ c = '\r' ∨ c = '\t' ∨
      0x20 ≤ c.toNat then .inl c
  else .inr c.toNat

/-- An escape of one letter is read as the character it stands for. -/
theorem readPieces?_simpleEscape {e c : Char} (he : e ≠ 'u') (hc : simpleEscape? e = some c)
    (cs : List Char) :
    readPieces? ('\\' :: e :: cs) = (readPieces? cs).map (fun p => (.inl c :: p.1, p.2)) := by
  rw [readPieces?.eq_4 e cs (fun _ _ _ _ _ h => absurd h he), hc]
  cases readPieces? cs <;> rfl

/-- The word of a control is read back from its two digits. -/
theorem hexWord?_control {n : Nat} (h : n < 0x20) :
    hexWord? '0' '0' (hexDigit (n / 16)) (hexDigit (n % 16)) = some n := by
  have hzero : hexValue? '0' = some 0 := by decide
  have hdiv := hexValue?_hexDigit (n := n / 16) (by omega)
  have hmod := hexValue?_hexDigit (n := n % 16) (by omega)
  simp only [hexWord?, hzero, hdiv, hmod, Option.bind_eq_bind, Option.bind_some, Option.pure_def,
    Option.some.injEq]
  omega

/-- One written character is read as its piece. -/
theorem readPieces?_escapeChar (c : Char) (cs : List Char) :
    readPieces? (escapeChar c ++ cs) =
      (readPieces? cs).map (fun p => (pieceOf c :: p.1, p.2)) := by
  have hchar : ∀ {n : Nat}, c.toNat = n → Char.ofNat n = c := by
    rintro n rfl
    exact Char.ofNat_toNat c
  unfold escapeChar
  split
  · next h =>
      subst h
      exact readPieces?_simpleEscape (by decide) rfl cs
  split
  · next h =>
      subst h
      exact readPieces?_simpleEscape (by decide) rfl cs
  split
  · next h =>
      rw [show pieceOf c = .inl c from if_pos (by simp [h])]
      exact readPieces?_simpleEscape (e := 'b') (by decide) (congrArg some (hchar h)) cs
  split
  · next h =>
      rw [show pieceOf c = .inl c from if_pos (by simp [h])]
      exact readPieces?_simpleEscape (e := 'f') (by decide) (congrArg some (hchar h)) cs
  split
  · next h =>
      subst h
      exact readPieces?_simpleEscape (by decide) rfl cs
  split
  · next h =>
      subst h
      exact readPieces?_simpleEscape (by decide) rfl cs
  split
  · next h =>
      subst h
      exact readPieces?_simpleEscape (by decide) rfl cs
  split
  · next hquote hslash h₁ h₂ h₃ h₄ h₅ hcontrol =>
      rw [show pieceOf c = .inr c.toNat from
        if_neg (by simp [hquote, hslash, h₁, h₂, h₃, h₄, h₅]; omega)]
      show readPieces? ('\\' :: 'u' :: '0' :: '0' :: hexDigit (c.toNat / 16) ::
        hexDigit (c.toNat % 16) :: cs) = _
      rw [readPieces?, hexWord?_control hcontrol]
      cases readPieces? cs <;> rfl
  · next hquote hslash _ _ _ _ _ hcontrol =>
      rw [show pieceOf c = .inl c from if_pos (by simp [Nat.le_of_not_lt hcontrol])]
      show readPieces? (c :: cs) = _
      rw [readPieces?.eq_5 c cs (fun h => hquote h) (fun _ _ _ _ _ h _ => hslash h)
        (fun _ _ h _ => hslash h), if_neg (by simp [hslash]; omega)]
      cases readPieces? cs <;> rfl

theorem readPieces?_flatMap (s rest : List Char) :
    readPieces? (s.flatMap escapeChar ++ '"' :: rest) = some (s.map pieceOf, rest) := by
  induction s with
  | nil => rfl
  | cons c s ih =>
      rw [List.flatMap_cons, List.append_assoc, readPieces?_escapeChar, ih]
      rfl

/-- The word of a control stands for it, whatever follows. -/
theorem joinPieces?_control {w : Nat} (hw : w < 0x20) (pieces : List (Sum Char Nat)) :
    joinPieces? (.inr w :: pieces) = (joinPieces? pieces).map (Char.ofNat w :: ·) := by
  have hhigh : isHighSurrogate w = false := by
    simp [isHighSurrogate]
    omega
  have hlow : isLowSurrogate w = false := by
    simp [isLowSurrogate]
    omega
  cases pieces with
  | nil => simp [joinPieces?, hhigh, hlow]
  | cons piece pieces => cases piece <;> simp [joinPieces?, hhigh, hlow]

/-- The pieces of a written string stand for its characters. -/
theorem joinPieces?_map_pieceOf (s : List Char) : joinPieces? (s.map pieceOf) = some s := by
  induction s with
  | nil => rfl
  | cons c s ih =>
      rw [List.map_cons]
      cases hpiece : pieceOf c with
      | inl d =>
          obtain rfl : c = d := by
            unfold pieceOf at hpiece
            split at hpiece <;> cases hpiece
            rfl
          rw [joinPieces?, ih]
          rfl
      | inr w =>
          obtain ⟨hw, rfl⟩ : w < 0x20 ∧ w = c.toNat := by
            unfold pieceOf at hpiece
            split at hpiece
            · cases hpiece
            · next h =>
                cases hpiece
                simp only [not_or] at h
                omega
          rw [joinPieces?_control hw, ih, Option.map_some, Char.ofNat_toNat]

/-- A string in quotes is read back. -/
theorem readString?_quotedChars (s : String) (rest : List Char) :
    readString? ((quotedChars s).drop 1 ++ rest) = some (some s, rest) := by
  have hchars : (quotedChars s).drop 1 ++ rest = s.toList.flatMap escapeChar ++ '"' :: rest := by
    simp [quotedChars]
  unfold readString?
  rw [hchars, readPieces?_flatMap]
  simp [joinPieces?_map_pieceOf]

/-- Different strings are written differently, whatever follows them. -/
theorem quotedChars_inj {s s' : String} (h : quotedChars s ++ rest = quotedChars s' ++ rest') :
    s = s' ∧ rest = rest' := by
  have heq := readString?_quotedChars s rest
  rw [show (quotedChars s).drop 1 ++ rest = (quotedChars s').drop 1 ++ rest' from
    congrArg (List.drop 1) h, readString?_quotedChars] at heq
  obtain ⟨hs, hrest⟩ := Prod.mk.inj (Option.some.inj heq)
  exact ⟨(Option.some.inj hs).symm, hrest.symm⟩

/-- A number text starts with its sign or with a digit. -/
theorem head?_of_readNumber? {p : NumberText × List Char} (h : readNumber? cs = some p) :
    ∃ c tail, cs = c :: tail ∧ (c = '-' ∨ isDecimalDigit c = true) := by
  cases cs with
  | nil => cases h
  | cons c tail =>
      refine ⟨c, tail, rfl, ?_⟩
      by_cases hsign : c = '-'
      · exact Or.inl hsign
      · right
        unfold readNumber? at h
        split at h
        · next heq => exact absurd (List.cons.inj heq).1 hsign
        · obtain ⟨q, hwhole, -⟩ := Option.bind_eq_some_iff.1 h
          by_cases hdigit : isDecimalDigit c = true
          · exact hdigit
          · simp [readWhole?, readDigits?, hdigit] at hwhole

end Json

namespace Tree

variable {rest rest' : List Char}

/-- The character that data of one sort start with; digits stand for numbers. -/
def mark : Tree → Char
  | .null => 'n'
  | .bool true => 't'
  | .bool false => 'f'
  | .number _ => '0'
  | .string _ => '"'
  | .array _ => '['
  | .object _ => '\x7b'

/-- The sort that a character starts. -/
def markOf (c : Char) : Char := if c = '-' ∨ Json.isDecimalDigit c = true then '0' else c

/-- Written data start with a character of their sort. -/
theorem chars_eq_cons (t : Tree) : ∃ c tail, t.chars = c :: tail ∧ markOf c = t.mark := by
  cases t with
  | number n =>
      obtain ⟨w, hread, -⟩ := Json.readNumber?_chars n
      obtain ⟨c, tail, hchars, hc⟩ := Json.head?_of_readNumber? hread
      exact ⟨c, tail, by rw [chars, hchars], if_pos hc⟩
  | bool b => cases b <;> exact ⟨_, _, rfl, rfl⟩
  | _ => exact ⟨_, _, rfl, rfl⟩

/-- Data that are written alike are of one sort. -/
theorem mark_eq_of_chars {t u : Tree} (h : t.chars ++ rest = u.chars ++ rest') :
    t.mark = u.mark := by
  obtain ⟨c, tail, ht, hmark⟩ := chars_eq_cons t
  obtain ⟨c', tail', hu, hmark'⟩ := chars_eq_cons u
  rw [ht, hu] at h
  obtain rfl : c = c' := (List.cons.inj h).1
  rw [← hmark, hmark']

/-- Items and fields are written after commas. -/
theorem itemsChars_cons (t : Tree) (items : List Tree) :
    itemsChars (t :: items) = ',' :: (t.chars ++ itemsChars items) := rfl

theorem fieldsChars_cons (e : String × Tree) (fields : List (String × Tree)) :
    fieldsChars (e :: fields) =
      ',' :: (quotedChars e.1 ++ ':' :: (e.2.chars ++ fieldsChars fields)) := by
  simp [fieldsChars]

theorem stops_itemsChars (items : List Tree) (rest : List Char) :
    Json.Stops (itemsChars items ++ ']' :: rest) := by
  cases items <;> simp [Json.Stops, itemsChars] <;> decide

theorem stops_fieldsChars (fields : List (String × Tree)) (rest : List Char) :
    Json.Stops (fieldsChars fields ++ '\x7d' :: rest) := by
  cases fields with
  | nil => simp [Json.Stops, fieldsChars]; decide
  | cons e fields => simp [Json.Stops, fieldsChars_cons]; decide

/-- Two trees of one sort; booleans are of one sort if they are equal. -/
inductive SameSort : Tree → Tree → Prop
  | null : SameSort .null .null
  | bool (b : Bool) : SameSort (.bool b) (.bool b)
  | number (n n' : Number) : SameSort (.number n) (.number n')
  | string (s s' : String) : SameSort (.string s) (.string s')
  | array (items items' : List Tree) : SameSort (.array items) (.array items')
  | object (fields fields' : List (String × Tree)) : SameSort (.object fields) (.object fields')

theorem sameSort_of_mark {t u : Tree} (h : t.mark = u.mark) : SameSort t u := by
  rcases t with _ | (_ | _) | _ | _ | _ | _ <;> rcases u with _ | (_ | _) | _ | _ | _ | _ <;>
    first | constructor | simp [mark] at h

/-- Between brackets, no item at all is not written like an item. -/
theorem itemsChars_eq_of_drop {items items' : List Tree}
    (h : (itemsChars items).drop 1 ++ ']' :: rest = (itemsChars items').drop 1 ++ ']' :: rest') :
    itemsChars items ++ ']' :: rest = itemsChars items' ++ ']' :: rest' := by
  have hne : ∀ (t : Tree) (tail more : List Char), ']' :: more ≠ t.chars ++ tail := by
    intro t tail more heq
    obtain ⟨c, chars, ht, hmark⟩ := chars_eq_cons t
    rw [ht] at heq
    obtain rfl : ']' = c := (List.cons.inj heq).1
    cases t with
    | bool b => cases b <;> cases hmark
    | _ => cases hmark
  cases items with
  | nil =>
      cases items' with
      | nil => exact h
      | cons t items' =>
          have hitem : ']' :: rest = t.chars ++ (itemsChars items' ++ ']' :: rest') := by
            simpa [itemsChars] using h
          exact absurd hitem (hne t _ rest)
  | cons t items =>
      cases items' with
      | nil =>
          have hitem : t.chars ++ (itemsChars items ++ ']' :: rest) = ']' :: rest' := by
            simpa [itemsChars] using h
          exact absurd hitem.symm (hne t _ rest')
      | cons t' items' => exact congrArg (',' :: ·) h

/-- Between braces, no field at all is not written like a field. -/
theorem fieldsChars_eq_of_drop {fields fields' : List (String × Tree)}
    (h : (fieldsChars fields).drop 1 ++ '\x7d' :: rest =
      (fieldsChars fields').drop 1 ++ '\x7d' :: rest') :
    fieldsChars fields ++ '\x7d' :: rest = fieldsChars fields' ++ '\x7d' :: rest' := by
  cases fields with
  | nil =>
      cases fields' with
      | nil => exact h
      | cons e fields' => simp [fieldsChars, quotedChars] at h
  | cons e fields =>
      cases fields' with
      | nil => simp [fieldsChars, quotedChars] at h
      | cons e' fields' =>
          rw [fieldsChars_cons, fieldsChars_cons] at h ⊢
          exact congrArg (',' :: ·) h

mutual

/-- Data of different content are written differently, whatever follows them. -/
theorem chars_inj (t u : Tree) {rest rest' : List Char} (hrest : Json.Stops rest)
    (hrest' : Json.Stops rest') (h : t.chars ++ rest = u.chars ++ rest') :
    t = u ∧ rest = rest' := by
  match t, u, sameSort_of_mark (mark_eq_of_chars h) with
  | _, _, .null => exact ⟨rfl, List.append_cancel_left h⟩
  | _, _, .bool b => exact ⟨rfl, List.append_cancel_left h⟩
  | _, _, .number n n' =>
      obtain ⟨rfl, heq⟩ := Number.chars_inj hrest hrest' h
      exact ⟨rfl, heq⟩
  | _, _, .string s s' =>
      obtain ⟨rfl, heq⟩ := Json.quotedChars_inj h
      exact ⟨rfl, heq⟩
  | _, _, .array items items' =>
      have hitems : (itemsChars items).drop 1 ++ ']' :: rest =
          (itemsChars items').drop 1 ++ ']' :: rest' := by
        simpa [chars] using h
      obtain ⟨rfl, heq⟩ := itemsChars_inj items items' (itemsChars_eq_of_drop hitems)
      exact ⟨rfl, heq⟩
  | _, _, .object fields fields' =>
      have hfields : (fieldsChars fields).drop 1 ++ '\x7d' :: rest =
          (fieldsChars fields').drop 1 ++ '\x7d' :: rest' := by
        simpa [chars] using h
      obtain ⟨rfl, heq⟩ := fieldsChars_inj fields fields' (fieldsChars_eq_of_drop hfields)
      exact ⟨rfl, heq⟩

/-- Items of different content are written differently. -/
theorem itemsChars_inj (items items' : List Tree) {rest rest' : List Char}
    (h : itemsChars items ++ ']' :: rest = itemsChars items' ++ ']' :: rest') :
    items = items' ∧ rest = rest' := by
  match items, items' with
  | [], [] => exact ⟨rfl, (List.cons.inj h).2⟩
  | [], t :: items' => simp [itemsChars] at h
  | t :: items, [] => simp [itemsChars] at h
  | t :: items, t' :: items' =>
      rw [itemsChars_cons, itemsChars_cons, List.cons_append, List.cons_append] at h
      obtain ⟨rfl, hitems⟩ := chars_inj t t' (stops_itemsChars items rest)
        (stops_itemsChars items' rest') (by simpa using h)
      obtain ⟨rfl, heq⟩ := itemsChars_inj items items' hitems
      exact ⟨rfl, heq⟩

/-- Fields of different content are written differently. -/
theorem fieldsChars_inj (fields fields' : List (String × Tree)) {rest rest' : List Char}
    (h : fieldsChars fields ++ '\x7d' :: rest = fieldsChars fields' ++ '\x7d' :: rest') :
    fields = fields' ∧ rest = rest' := by
  match fields, fields' with
  | [], [] => exact ⟨rfl, (List.cons.inj h).2⟩
  | [], e :: fields' => simp [fieldsChars] at h
  | e :: fields, [] => simp [fieldsChars] at h
  | (k, t) :: fields, (k', t') :: fields' =>
      simp only [fieldsChars_cons, List.cons_append, List.append_assoc, List.cons.injEq,
        true_and] at h
      obtain ⟨rfl, hvalue⟩ := Json.quotedChars_inj h
      obtain ⟨rfl, hfields⟩ := chars_inj t t' (stops_fieldsChars fields rest)
        (stops_fieldsChars fields' rest') (List.cons.inj hvalue).2
      obtain ⟨rfl, heq⟩ := fieldsChars_inj fields fields' hfields
      exact ⟨rfl, heq⟩

end

end Tree

/-- Different values are written differently. -/
theorem Value.text_inj {v w : Value} (h : v.text = w.text) : v = w := by
  have hchars : v.tree.chars ++ [] = w.tree.chars ++ [] := by
    simpa [Value.text, String.ofList_inj] using h
  exact Value.ext (Tree.chars_inj v.tree w.tree Json.stops_nil Json.stops_nil hchars).1

theorem newline_notMem_escapeChar (c : Char) : '\n' ∉ escapeChar c := by
  have hdigit : ∀ n < 16, hexDigit n ≠ '\n' := by decide
  unfold escapeChar
  split
  · decide
  iterate 6
    split
    · decide
  split
  · next hcontrol =>
      have hdiv := hdigit (c.toNat / 16) (by omega)
      have hmod := hdigit (c.toNat % 16) (by omega)
      simp [hdiv.symm, hmod.symm]
  · next hnewline _ _ _ => simpa using Ne.symm hnewline

theorem newline_notMem_quotedChars (s : String) : '\n' ∉ quotedChars s := by
  have hpieces : '\n' ∉ s.toList.flatMap escapeChar := by
    rw [List.mem_flatMap]
    rintro ⟨c, -, hc⟩
    exact newline_notMem_escapeChar c hc
  simp [quotedChars, hpieces]

namespace Tree

mutual

/-- Nested data stand on one line. -/
theorem newline_notMem_chars (t : Tree) : '\n' ∉ t.chars := by
  match t with
  | .null => decide
  | .bool true => decide
  | .bool false => decide
  | .number n =>
      intro h
      rcases Number.mem_chars h with hdigit | hmark
      · exact absurd hdigit (by decide)
      · exact absurd hmark (by decide)
  | .string s => exact newline_notMem_quotedChars s
  | .array items =>
      have hitems : '\n' ∉ (itemsChars items).drop 1 :=
        fun h => newline_notMem_itemsChars items (List.mem_of_mem_drop h)
      simpa [chars] using hitems
  | .object fields =>
      have hfields : '\n' ∉ (fieldsChars fields).drop 1 :=
        fun h => newline_notMem_fieldsChars fields (List.mem_of_mem_drop h)
      simpa [chars] using hfields

theorem newline_notMem_itemsChars (items : List Tree) : '\n' ∉ itemsChars items := by
  match items with
  | [] => simp [itemsChars]
  | t :: items =>
      simp [itemsChars, newline_notMem_chars t, newline_notMem_itemsChars items]

theorem newline_notMem_fieldsChars (fields : List (String × Tree)) :
    '\n' ∉ fieldsChars fields := by
  match fields with
  | [] => simp [fieldsChars]
  | (k, t) :: fields =>
      simp [fieldsChars, newline_notMem_quotedChars k, newline_notMem_chars t,
        newline_notMem_fieldsChars fields]

end

end Tree

/-- The text of a value stands on one line. -/
theorem Value.newline_notMem_text (v : Value) : '\n' ∉ v.text.toList := by
  rw [Value.text, String.toList_ofList]
  exact Tree.newline_notMem_chars v.tree

end ConfigCompiler
