import ConfigCompiler.Schema.Baseline
import Mathlib.Data.List.Chain
import Mathlib.Data.List.DropRight

/-!
# Names in normal form

A declared name is written in small letters, and its words are separated by underscores.
What comes out need not be a valid name; but a valid name that comes out is written as
itself.

**Invariant.**  `Name.Spaced cs`: no two underscores stand side by side.  It holds of
whatever is written so far, since no capital has an underscore as its small form.

**Results.**
* `trimChars_trimChars`: trimming is done once.
* `Name.Caseless.of_mem_lowerChars`: no small form of a capital stands in a range that the
  tables of letter case keep out of.
* `Name.spaced_normalizeChars`: the invariant, at the end.
* `Name.writeChars_of_plain`: characters that are neither capitals nor dashes nor blanks are
  written as they are.
* `normalizeName_normalizeName`: a valid name that comes out is in normal form.
-/

namespace ConfigCompiler

section Trim

variable {p : Char → Bool} {cs : List Char}

theorem trimChars_eq (p : Char → Bool) (cs : List Char) :
    trimChars p cs = (cs.dropWhile p).rdropWhile p :=
  rfl

theorem forall_mem_head?_iff :
    (∀ c ∈ cs.head?, p c = false) ↔ ∀ hne : 0 < cs.length, ¬ p cs[0] := by
  cases cs <;> simp

theorem forall_mem_getLast?_iff :
    (∀ c ∈ cs.getLast?, p c = false) ↔ ∀ hne : cs ≠ [], ¬ p (cs.getLast hne) := by
  rcases List.eq_nil_or_concat cs with rfl | ⟨front, last, rfl⟩ <;> simp

/-- A text with nothing to trim at its ends. -/
theorem trimChars_eq_self (hhead : ∀ c ∈ cs.head?, p c = false)
    (hlast : ∀ c ∈ cs.getLast?, p c = false) : trimChars p cs = cs := by
  rw [trimChars_eq, List.dropWhile_eq_self_iff.2 (forall_mem_head?_iff.1 hhead)]
  exact List.rdropWhile_eq_self_iff.2 (forall_mem_getLast?_iff.1 hlast)

theorem prefix_trimChars (p : Char → Bool) (cs : List Char) :
    trimChars p cs <+: cs.dropWhile p :=
  List.rdropWhile_prefix p (cs.dropWhile p)

theorem infix_trimChars (p : Char → Bool) (cs : List Char) : trimChars p cs <:+: cs :=
  (prefix_trimChars p cs).isInfix.trans (List.dropWhile_suffix p).isInfix

theorem head_trimChars (p : Char → Bool) (cs : List Char) :
    ∀ c ∈ (trimChars p cs).head?, p c = false := by
  intro c hc
  have hnot := List.head?_dropWhile_not p cs
  obtain ⟨rest, hrest⟩ := prefix_trimChars p cs
  rw [← hrest, List.head?_append, Option.mem_def.1 hc] at hnot
  exact hnot

theorem getLast_trimChars (p : Char → Bool) (cs : List Char) :
    ∀ c ∈ (trimChars p cs).getLast?, p c = false :=
  forall_mem_getLast?_iff.2 (List.rdropWhile_last_not p (cs.dropWhile p))

/-- Trimming is done once. -/
theorem trimChars_trimChars (p : Char → Bool) (cs : List Char) :
    trimChars p (trimChars p cs) = trimChars p cs :=
  trimChars_eq_self (head_trimChars p cs) (getLast_trimChars p cs)

end Trim

namespace Name

section Writing

/-- No two underscores stand side by side. -/
def Spaced (cs : List Char) : Prop := cs.IsChain (fun a b => ¬(a = '_' ∧ b = '_'))

variable {cs written : List Char} {c x : Char} {prev next : Option Char}

theorem spaced_reverse : Spaced cs.reverse ↔ Spaced cs := by
  have hswap : (fun a b : Char => ¬(b = '_' ∧ a = '_')) = fun a b => ¬(a = '_' ∧ b = '_') := by
    funext a b
    rw [and_comm]
  rw [Spaced, List.isChain_reverse, hswap, Spaced]

/-- A character that is no underscore, or comes after none, may be written. -/
theorem Spaced.cons (h : Spaced written) (hc : c = '_' → written.head? ≠ some '_') :
    Spaced (c :: written) := by
  refine List.IsChain.cons h (fun other hother => ?_)
  rintro ⟨heq, rfl⟩
  exact hc heq hother

theorem Spaced.append (h : Spaced written) (hcs : '_' ∉ cs) : Spaced (cs ++ written) := by
  induction cs with
  | nil => exact h
  | cons c rest ih =>
      have hrest := ih (fun hmem => hcs (List.mem_cons_of_mem c hmem))
      exact hrest.cons (fun heq => absurd (heq ▸ List.mem_cons_self) hcs)

/-- A code point that is no character stands for the character with the code zero. -/
theorem toNat_ofNat (n : Nat) : (Char.ofNat n).toNat = n ∨ (Char.ofNat n).toNat = 0 := by
  by_cases hvalid : n.isValidChar
  · exact Or.inl (by rw [Char.ofNat, dif_pos hvalid]; rfl)
  · exact Or.inr (by rw [Char.ofNat, dif_neg hvalid]; rfl)

/-- A range of code points that letter case keeps out of: it has no capital and no small form of
one. -/
def Caseless (first last : Nat) : Prop :=
  0 < first ∧ (0x69 < first ∨ last < 0x69) ∧ (0x307 < first ∨ last < 0x307) ∧
  (∀ r ∈ LetterCase.uppercaseRanges, last < r.first ∨ r.last < first) ∧
  ∀ r ∈ LetterCase.lowerShifts, (last : Int) < r.first + r.shift ∨ r.last + r.shift < (first : Int)

instance (first last : Nat) : Decidable (Caseless first last) :=
  inferInstanceAs (Decidable (_ ∧ _))

/-- No small form of a capital stands in the range: a capital that is not mapped stands outside,
and so does what the others are mapped to. -/
theorem Caseless.of_mem_lowerChars {first last : Nat} (h : Caseless first last)
    (hupper : isUppercase c = true) (hx : x ∈ lowerChars c) :
    x.toNat < first ∨ last < x.toNat := by
  obtain ⟨hpositive, hletter, hdot, hcapitals, hshifts⟩ := h
  unfold lowerChars at hx
  split at hx
  · -- the dotted capital, which becomes two characters
    rcases List.mem_pair.1 hx with rfl | rfl
    · exact hletter
    · exact hdot
  · obtain rfl := List.mem_singleton.1 hx
    unfold LetterCase.shifted
    cases hfind : LetterCase.lowerShifts.find? (fun r => r.contains c.toNat) with
    | none =>
        dsimp only
        obtain ⟨r, hr, hcontains⟩ := List.any_eq_true.1 hupper
        have hapart := hcapitals r hr
        simp only [LetterCase.StepRange.contains, Bool.and_eq_true, decide_eq_true_eq] at hcontains
        omega
    | some r =>
        dsimp only
        have hapart := hshifts r (List.mem_of_find?_eq_some hfind)
        have hcontains := List.find?_some hfind
        simp only [LetterCase.CaseShift.contains, Bool.and_eq_true, decide_eq_true_eq] at hcontains
        have hcode := toNat_ofNat (c.toNat + r.shift).toNat
        omega

theorem caseless_underscore : Caseless 0x5F 0x5F := by
  decide +kernel

/-- The small form of a capital has no underscore. -/
theorem underscore_not_mem_lowerChars (hupper : isUppercase c = true) : '_' ∉ lowerChars c :=
  fun hmem => absurd (caseless_underscore.of_mem_lowerChars hupper hmem) (by decide)

/-- Every character is written so that underscores stay apart. -/
theorem spaced_writeChar (h : Spaced written) : Spaced (writeChar prev c next written) := by
  unfold writeChar
  split
  · next hupper =>
      refine Spaced.append ?_ (fun hmem =>
        underscore_not_mem_lowerChars hupper (List.mem_reverse.1 hmem))
      split
      · next hword =>
          simp only [Bool.and_eq_true, bne_iff_ne] at hword
          exact h.cons (fun _ => hword.1.2)
      · exact h
  · split
    · split
      · exact h
      · next hhead => exact h.cons (fun _ => by simpa using (not_or.1 (by simpa using hhead)).2)
    · split
      · split
        · exact h
        · next hhead => exact h.cons (fun _ => by simpa using hhead)
      · next hother => exact h.cons (fun heq => absurd heq hother)

theorem spaced_writeChars (h : Spaced written) : Spaced (writeChars prev cs written) := by
  induction cs generalizing prev written with
  | nil => exact h
  | cons c rest ih => exact ih (spaced_writeChar h)

/-- In a normal form no two underscores stand side by side. -/
theorem spaced_normalizeChars (cs : List Char) : Spaced (normalizeChars cs) := by
  have hwritten : Spaced (writeChars none (trimChars isBlank cs) []).reverse :=
    spaced_reverse.2 (spaced_writeChars List.IsChain.nil)
  obtain ⟨before, after, hparts⟩ :=
    infix_trimChars (· == '_') (writeChars none (trimChars isBlank cs) []).reverse
  rw [← hparts] at hwritten
  exact hwritten.left_of_append.right_of_append

/-- Neither a capital, nor a dash, nor a blank. -/
def IsPlain (c : Char) : Prop := isUppercase c = false ∧ c ≠ '-' ∧ isBlank c = false

theorem writeChar_of_plain (hc : IsPlain c) (hspaced : Spaced (c :: written)) :
    writeChar prev c next written = c :: written := by
  obtain ⟨hupper, hdash, hblank⟩ := hc
  rw [writeChar, hupper, if_neg Bool.false_ne_true, if_neg (by simp [hdash, hblank])]
  split
  · next heq =>
      have hhead : (written.head? == some '_') = false := by
        rw [beq_eq_false_iff_ne]
        exact fun hhead => (List.isChain_cons.1 hspaced).1 '_' hhead ⟨heq, rfl⟩
      rw [hhead, heq]
      rfl
  · rfl

/-- Plain characters are written as they are, if no two underscores stand side by side. -/
theorem writeChars_of_plain (hplain : ∀ c ∈ cs, IsPlain c)
    (hspaced : Spaced (cs.reverse ++ written)) :
    writeChars prev cs written = cs.reverse ++ written := by
  induction cs generalizing prev written with
  | nil => rfl
  | cons c rest ih =>
      obtain ⟨hc, hrest⟩ := List.forall_mem_cons.1 hplain
      rw [List.reverse_cons, List.append_assoc, List.singleton_append] at hspaced ⊢
      rw [writeChars, writeChar_of_plain hc hspaced.right_of_append]
      exact ih hrest hspaced

/-- A text of plain characters, without an underscore at its ends or beside another, is
written as itself. -/
theorem normalizeChars_eq_self (hplain : ∀ c ∈ cs, IsPlain c) (hspaced : Spaced cs)
    (htrimmed : trimChars (· == '_') cs = cs) : normalizeChars cs = cs := by
  have hblank : trimChars isBlank cs = cs :=
    trimChars_eq_self (fun c hc => (hplain c (List.mem_of_mem_head? hc)).2.2)
      (fun c hc => (hplain c (List.mem_of_mem_getLast? hc)).2.2)
  have hreverse : Spaced (cs.reverse ++ []) := by
    rw [List.append_nil]
    exact spaced_reverse.2 hspaced
  rw [normalizeChars, hblank, writeChars_of_plain hplain hreverse, List.append_nil,
    List.reverse_reverse, htrimmed]

end Writing

section ValidNames

variable {cs part : List Char} {parts : List (List Char)} {c x : Char}

theorem exists_mem_pushFirst (h : x = c ∨ ∃ part ∈ parts, x ∈ part) :
    ∃ part ∈ pushFirst c parts, x ∈ part := by
  cases parts with
  | nil =>
      rcases h with rfl | ⟨_, hpart, -⟩
      · exact ⟨[x], List.mem_cons_self, List.mem_cons_self⟩
      · cases hpart
  | cons first rest =>
      rcases h with rfl | ⟨part, hpart, hx⟩
      · exact ⟨x :: first, List.mem_cons_self, List.mem_cons_self⟩
      · rcases List.mem_cons.1 hpart with rfl | hpart
        · exact ⟨c :: part, List.mem_cons_self, List.mem_cons_of_mem c hx⟩
        · exact ⟨part, List.mem_cons_of_mem _ hpart, hx⟩

/-- A character of a text is a dot or stands in a part between dots. -/
theorem exists_mem_splitDots (h : x ∈ cs) : x = '.' ∨ ∃ part ∈ splitDots cs, x ∈ part := by
  induction cs with
  | nil => cases h
  | cons c rest ih =>
      unfold splitDots
      by_cases hdot : c = '.'
      · rw [if_pos hdot]
        rcases List.mem_cons.1 h with rfl | hrest
        · exact Or.inl hdot
        · refine (ih hrest).imp_right (fun ⟨part, hpart, hx⟩ => ?_)
          exact ⟨part, List.mem_cons_of_mem _ hpart, hx⟩
      · rw [if_neg hdot]
        rcases List.mem_cons.1 h with rfl | hrest
        · exact Or.inr (exists_mem_pushFirst (Or.inl rfl))
        · exact (ih hrest).imp_right (fun hparts => exists_mem_pushFirst (Or.inr hparts))

/-- A character that a stored name may have. -/
def isNameChar (c : Char) : Bool := isSmall c || isDigit c || c == '_'

theorem isNameChar_of_mem_group (hgroup : isGroup part = true) (hx : x ∈ part) :
    isNameChar x = true := by
  cases part with
  | nil => cases hx
  | cons first rest =>
      simp only [isGroup, Bool.and_eq_true, List.all_eq_true] at hgroup
      rcases List.mem_cons.1 hx with rfl | hrest
      · simp [isNameChar, hgroup.1]
      · exact hgroup.2 x hrest

/-- Below the letters with accents there are no capitals but the Latin ones. -/
theorem uppercaseRanges_basic :
    ∀ n < 0x80, n < 0x41 ∨ 0x5A < n →
      LetterCase.uppercaseRanges.any (fun r => r.contains n) = false := by
  decide +kernel

/-- The characters of names are plain, and so is the dot between them. -/
theorem isPlain_of_nameChar (h : c = '.' ∨ isNameChar c = true) : IsPlain c := by
  have hcode : c.toNat = 0x2E ∨ (0x61 ≤ c.toNat ∧ c.toNat ≤ 0x7A) ∨
      (0x30 ≤ c.toNat ∧ c.toNat ≤ 0x39) ∨ c.toNat = 0x5F := by
    rcases h with rfl | hname
    · exact Or.inl rfl
    · simp only [isNameChar, isSmall, isDigit, Bool.or_eq_true, Bool.and_eq_true,
        decide_eq_true_eq, beq_iff_eq, Char.le_def, UInt32.le_iff_toNat_le, or_assoc] at hname
      refine Or.inr (hname.imp_right (Or.imp_right ?_))
      rintro rfl
      rfl
  refine ⟨uppercaseRanges_basic c.toNat (by omega) (by omega), ?_, ?_⟩
  · rintro rfl
    revert hcode
    decide
  · simp only [isBlank, Bool.or_eq_false_iff, Bool.and_eq_false_iff, decide_eq_false_iff_not,
      beq_eq_false_iff_ne]
    omega

end ValidNames

end Name

open Name

theorem isPlain_of_valid {text : String} (h : isValidName text = true) :
    ∀ c ∈ text.toList, IsPlain c := by
  intro c hc
  refine isPlain_of_nameChar ((exists_mem_splitDots hc).imp_right ?_)
  rintro ⟨part, hpart, hx⟩
  exact isNameChar_of_mem_group (List.all_eq_true.1 h part hpart) hx

/-- A valid name that is written for a text is written for itself. -/
theorem normalizeName_normalizeName {raw : String}
    (h : isValidName (normalizeName raw) = true) :
    normalizeName (normalizeName raw) = normalizeName raw := by
  have htext : (normalizeName raw).toList = normalizeChars raw.toList := String.toList_ofList
  have hplain := isPlain_of_valid h
  rw [htext] at hplain
  have hself := normalizeChars_eq_self hplain (spaced_normalizeChars raw.toList)
    (trimChars_trimChars _ _)
  show String.ofList (normalizeChars (normalizeName raw).toList) = _
  rw [htext, hself, ← htext, String.ofList_toList]

example : normalizeName " HTTPServer-v2 " = "http_server_v2" := by decide +kernel

end ConfigCompiler
