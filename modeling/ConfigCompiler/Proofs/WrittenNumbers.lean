import ConfigCompiler.Json.Reader
import ConfigCompiler.Value.Text

/-!
# How numbers are written

A number is written as a number text: a sign, digits, perhaps a point with further digits,
and perhaps a power of ten.  The text ends where something follows that cannot belong to it.

**Input.**  `Stops rest` says that a text cannot go on a number.  `NumberText.Denotes w n e`
says that the digits of a number text, point left out, are those of `n · 10 ^ e`; `ReadsAs d cs`
that a form of a decimal is read as a number text that denotes it.

**Results.**
* `readNumber?_append`: a number text is read the same whatever follows it.
* `readNumber?_chars`: every number is written as a number text, an integer without point
  and power, a decimal as a text that denotes it.
* `Number.chars_inj`: different numbers are written differently.
-/

namespace ConfigCompiler
namespace Json

variable {cs ds rest tail : List Char} {n : Nat}

/-- Nothing at the start of the text can belong to a number before it. -/
def Stops (rest : List Char) : Prop :=
  ∀ c ∈ rest.head?, isDecimalDigit c = false ∧ c ≠ '.' ∧ c ≠ 'e' ∧ c ≠ 'E'

theorem stops_nil : Stops [] := by
  simp [Stops]

theorem takeWhile_append_of_stop {p : Char → Bool} (cs : List Char)
    (hrest : ∀ c ∈ rest.head?, p c = false) :
    (cs ++ rest).takeWhile p = cs.takeWhile p := by
  induction cs with
  | nil =>
      cases rest with
      | nil => rfl
      | cons c rest => simp [hrest c rfl]
  | cons c cs ih => simp [List.takeWhile_cons, ih]

theorem dropWhile_append_of_stop {p : Char → Bool} (cs : List Char)
    (hrest : ∀ c ∈ rest.head?, p c = false) :
    (cs ++ rest).dropWhile p = cs.dropWhile p ++ rest := by
  induction cs with
  | nil =>
      cases rest with
      | nil => rfl
      | cons c rest => simp [hrest c rfl]
  | cons c cs ih =>
      by_cases hc : p c = true
      · simp [hc, ih]
      · simp [hc]

/-- Digits are read up to the first character that is none. -/
theorem readDigits?_append (hrest : ∀ c ∈ rest.head?, isDecimalDigit c = false)
    (h : readDigits? cs = some (ds, tail)) :
    readDigits? (cs ++ rest) = some (ds, tail ++ rest) := by
  unfold readDigits? at h ⊢
  rw [takeWhile_append_of_stop cs hrest, dropWhile_append_of_stop cs hrest]
  cases hds : cs.takeWhile isDecimalDigit with
  | nil => simp [hds] at h
  | cons d more =>
      simp only [hds, Option.some.injEq, Prod.mk.injEq] at h
      simp [← h.1, ← h.2]

/-- A list of digits is read whole. -/
theorem readDigits?_digits (rest : List Char) (hne : ds ≠ [])
    (hds : ∀ c ∈ ds, isDecimalDigit c = true)
    (hrest : ∀ c ∈ rest.head?, isDecimalDigit c = false) :
    readDigits? (ds ++ rest) = some (ds, rest) := by
  have htake : rest.takeWhile isDecimalDigit = [] := by
    simpa using takeWhile_append_of_stop [] hrest
  have hdrop : rest.dropWhile isDecimalDigit = rest := by
    simpa using dropWhile_append_of_stop [] hrest
  unfold readDigits?
  rw [List.takeWhile_append_of_pos hds, List.dropWhile_append_of_pos hds, htake, hdrop,
    List.append_nil]
  cases ds with
  | nil => exact absurd rfl hne
  | cons d more => rfl

theorem readWhole?_append (hrest : ∀ c ∈ rest.head?, isDecimalDigit c = false)
    (h : readWhole? cs = some (ds, tail)) : readWhole? (cs ++ rest) = some (ds, tail ++ rest) := by
  unfold readWhole? at h ⊢
  cases hread : readDigits? cs with
  | none => simp [hread] at h
  | some p =>
      obtain ⟨digits, tail'⟩ := p
      rw [hread] at h
      rw [readDigits?_append hrest hread]
      split at h
      · cases h
      · next hzero =>
          cases h
          split
          · next heq =>
              cases heq
              exact absurd rfl (hzero _ _ _)
          · rfl

theorem readFraction?_append {fraction? : Option (List Char)} (hrest : Stops rest)
    (h : readFraction? cs = some (fraction?, tail)) :
    readFraction? (cs ++ rest) = some (fraction?, tail ++ rest) := by
  cases cs with
  | nil =>
      obtain ⟨rfl, rfl⟩ : fraction? = none ∧ tail = [] := by simpa [readFraction?, eq_comm] using h
      cases rest with
      | nil => rfl
      | cons c rest =>
          have hc := (hrest c rfl).2.1
          unfold readFraction?
          split
          · next heq => exact absurd (List.cons.inj heq).1 hc
          · rfl
  | cons c cs =>
      by_cases hc : c = '.'
      · subst hc
        obtain ⟨p, hp, heq⟩ := Option.map_eq_some_iff.1 h
        cases heq
        exact Option.map_eq_some_iff.2
          ⟨_, readDigits?_append (fun c hc => (hrest c hc).1) hp, rfl⟩
      · unfold readFraction? at h ⊢
        split at h
        · next heq => exact absurd (List.cons.inj heq).1 hc
        · cases h
          split
          · next heq => exact absurd (List.cons.inj heq).1 hc
          · rfl

theorem readExponent?_append {exponent? : Option (Bool × List Char)} (hrest : Stops rest)
    (h : readExponent? cs = some (exponent?, tail)) :
    readExponent? (cs ++ rest) = some (exponent?, tail ++ rest) := by
  have hdigits : ∀ {cs ds tail}, readDigits? cs = some (ds, tail) →
      readDigits? (cs ++ rest) = some (ds, tail ++ rest) :=
    readDigits?_append (fun c hc => (hrest c hc).1)
  cases cs with
  | nil =>
      obtain ⟨rfl, rfl⟩ : exponent? = none ∧ tail = [] := by simpa [readExponent?, eq_comm] using h
      cases rest with
      | nil => rfl
      | cons c rest =>
          have hc := (hrest c rfl).2.2
          simp [readExponent?, hc]
  | cons c cs =>
      simp only [readExponent?, List.cons_append] at h ⊢
      split at h
      · next hmark =>
          rw [if_pos hmark]
          split at h
          · obtain ⟨p, hp, heq⟩ := Option.map_eq_some_iff.1 h
            cases heq
            exact Option.map_eq_some_iff.2 ⟨_, hdigits hp, rfl⟩
          · obtain ⟨p, hp, heq⟩ := Option.map_eq_some_iff.1 h
            cases heq
            exact Option.map_eq_some_iff.2 ⟨_, hdigits hp, rfl⟩
          · next hminus hplus =>
              obtain ⟨p, hp, heq⟩ := Option.map_eq_some_iff.1 h
              cases heq
              cases cs with
              | nil => cases hp
              | cons d cs =>
                  rw [List.cons_append]
                  split
                  · next heq => exact absurd (congrArg (· :: cs) (List.cons.inj heq).1) (hminus cs)
                  · next heq => exact absurd (congrArg (· :: cs) (List.cons.inj heq).1) (hplus cs)
                  · exact Option.map_eq_some_iff.2 ⟨_, hdigits hp, rfl⟩
      · next hmark =>
          cases h
          rw [if_neg hmark]
          rfl

/-- The parts of a number text are read one after the other. -/
theorem readUnsigned?_eq_some {negative : Bool} {w : NumberText} :
    readUnsigned? negative cs = some (w, tail) ↔ ∃ cs₁ cs₂,
      readWhole? cs = some (w.whole, cs₁) ∧ readFraction? cs₁ = some (w.fraction?, cs₂) ∧
        readExponent? cs₂ = some (w.exponent?, tail) ∧ w.negative = negative := by
  constructor
  · intro h
    obtain ⟨⟨whole, cs₁⟩, hwhole, h⟩ := Option.bind_eq_some_iff.1 h
    obtain ⟨⟨fraction?, cs₂⟩, hfraction, h⟩ := Option.bind_eq_some_iff.1 h
    obtain ⟨⟨exponent?, cs₃⟩, hexponent, h⟩ := Option.bind_eq_some_iff.1 h
    cases h
    exact ⟨cs₁, cs₂, hwhole, hfraction, hexponent, rfl⟩
  · rintro ⟨cs₁, cs₂, hwhole, hfraction, hexponent, rfl⟩
    exact Option.bind_eq_some_iff.2 ⟨_, hwhole, Option.bind_eq_some_iff.2
      ⟨_, hfraction, Option.bind_eq_some_iff.2 ⟨_, hexponent, rfl⟩⟩⟩

/-- A number without sign is read the same whatever follows it. -/
theorem readUnsigned?_append {negative : Bool} {w : NumberText} (hrest : Stops rest)
    (h : readUnsigned? negative cs = some (w, tail)) :
    readUnsigned? negative (cs ++ rest) = some (w, tail ++ rest) := by
  obtain ⟨cs₁, cs₂, hwhole, hfraction, hexponent, hsign⟩ := readUnsigned?_eq_some.1 h
  exact readUnsigned?_eq_some.2 ⟨_, _, readWhole?_append (fun c hc => (hrest c hc).1) hwhole,
    readFraction?_append hrest hfraction, readExponent?_append hrest hexponent, hsign⟩

/-- A number is read the same whatever follows it. -/
theorem readNumber?_append {w : NumberText} (hrest : Stops rest)
    (h : readNumber? cs = some (w, tail)) :
    readNumber? (cs ++ rest) = some (w, tail ++ rest) := by
  cases cs with
  | nil => cases h
  | cons c cs =>
      by_cases hc : c = '-'
      · subst hc
        have hunsigned : readUnsigned? true cs = some (w, tail) := h
        exact readUnsigned?_append hrest hunsigned
      · rw [List.cons_append]
        unfold readNumber? at h ⊢
        split at h
        · next heq => exact absurd (List.cons.inj heq).1 hc
        · split
          · next heq => exact absurd (List.cons.inj heq).1 hc
          · exact readUnsigned?_append hrest h

theorem isDecimalDigit_of_mem_toDigits {c : Char} (h : c ∈ Nat.toDigits 10 n) :
    isDecimalDigit c = true :=
  Nat.isDigit_of_mem_toDigits (b := 10) (by decide) (by decide) h

/-- A number that is not zero is written without zeros in front. -/
theorem head?_toDigits (hn : n ≠ 0) : (Nat.toDigits 10 n).head? ≠ some '0' := by
  induction n using Nat.strongRecOn with
  | _ n ih =>
      rw [Nat.toDigits_eq_if (by decide)]
      split
      · simpa [Nat.digitChar_eq_zero] using hn
      · have hrest := ih (n / 10) (by omega) (by omega)
        rw [List.head?_append]
        cases hhead : (Nat.toDigits 10 (n / 10)).head? with
        | none => exact absurd (List.head?_eq_none_iff.1 hhead) Nat.toDigits_ne_nil
        | some c => simpa [hhead] using hrest

/-- Digits are read as the part before a point, unless a zero stands in front of others. -/
theorem readWhole?_digits (rest : List Char) (hne : ds ≠ [])
    (hds : ∀ c ∈ ds, isDecimalDigit c = true)
    (hzero : ds.head? = some '0' → ds = ['0'])
    (hrest : ∀ c ∈ rest.head?, isDecimalDigit c = false) :
    readWhole? (ds ++ rest) = some (ds, rest) := by
  unfold readWhole?
  rw [readDigits?_digits rest hne hds hrest]
  split
  · next heq =>
      cases heq
      cases hzero rfl
  · rfl

/-- The digits of a number are read as the part before a point. -/
theorem readWhole?_toDigits (n : Nat) (rest : List Char)
    (hrest : ∀ c ∈ rest.head?, isDecimalDigit c = false) :
    readWhole? (Nat.toDigits 10 n ++ rest) = some (Nat.toDigits 10 n, rest) := by
  refine readWhole?_digits rest Nat.toDigits_ne_nil (fun _ => isDecimalDigit_of_mem_toDigits)
    (fun hhead => ?_) hrest
  by_cases hn : n = 0
  · subst hn
    rfl
  · exact absurd hhead (head?_toDigits hn)

/-- Digits after a point are read as such. -/
theorem readFraction?_digits (rest : List Char) (hne : ds ≠ [])
    (hds : ∀ c ∈ ds, isDecimalDigit c = true)
    (hrest : ∀ c ∈ rest.head?, isDecimalDigit c = false) :
    readFraction? ('.' :: (ds ++ rest)) = some (some ds, rest) :=
  Option.map_eq_some_iff.2 ⟨_, readDigits?_digits rest hne hds hrest, rfl⟩

/-- A power of ten is read back. -/
theorem readExponent?_powerText (power : Int) :
    readExponent? (Decimal.powerText power) =
      some (some (decide (power < 0), Nat.toDigits 10 power.natAbs), []) := by
  have hdigits := readDigits?_digits [] Nat.toDigits_ne_nil
    (fun _ => isDecimalDigit_of_mem_toDigits (n := power.natAbs)) (by simp)
  rw [List.append_nil] at hdigits
  unfold Decimal.powerText
  by_cases hneg : power < 0
  · simp [readExponent?, hneg, hdigits]
  · simp [readExponent?, hneg, hdigits]

namespace NumberText

/-- All digits of a number text, read as one number. -/
def mantissa (w : NumberText) : Nat :=
  Nat.ofDigitChars 10 (w.whole ++ w.fraction?.getD []) 0

/-- The power of ten that a number text ends with. -/
def writtenPower (w : NumberText) : Int :=
  match w.exponent? with
  | none => 0
  | some (true, ds) => -(Nat.ofDigitChars 10 ds 0 : Int)
  | some (false, ds) => Nat.ofDigitChars 10 ds 0

/-- The digits of a number text are those of `digits · 10 ^ exponent`, perhaps with zeros
appended. -/
def Denotes (w : NumberText) (digits : Nat) (exponent : Int) : Prop :=
  ∃ zeros : Nat, w.mantissa = digits * Nat.pow 10 zeros ∧
    w.writtenPower - (w.fraction?.getD []).length = exponent - zeros

end NumberText

/-- How a number is written: an integer without point and power, a decimal with one of
them at least. -/
def WrittenAs (w : NumberText) : Number → Prop
  | .int i => w = ⟨decide (i < 0), Nat.toDigits 10 i.natAbs, none, none⟩
  | .decimal d =>
      w.negative = d.negative ∧ w.Denotes d.digits d.exponent ∧
        (w.fraction?.isSome || w.exponent?.isSome) = true

/-- A number text denotes one normal decimal at most. -/
theorem NumberText.Denotes.unique {w : NumberText} {d d' : Decimal}
    (h : w.Denotes d.digits d.exponent) (h' : w.Denotes d'.digits d'.exponent) :
    d.digits = d'.digits ∧ d.exponent = d'.exponent := by
  -- of two decimals the one with fewer zeros appended is the other with more digits
  have hle : ∀ {d d' : Decimal} {a b : Nat}, a ≤ b →
      d.digits * Nat.pow 10 a = d'.digits * Nat.pow 10 b →
      d.exponent - a = d'.exponent - b → d.digits = d'.digits ∧ d.exponent = d'.exponent := by
    intro d d' a b hab hdigits hexponent
    obtain ⟨c, rfl⟩ := Nat.exists_eq_add_of_le hab
    have hcancel : d.digits = d'.digits * Nat.pow 10 c := by
      refine Nat.eq_of_mul_eq_mul_right (Nat.pow_pos (n := a) (by decide : 0 < 10)) ?_
      simp only [Nat.pow_eq] at hdigits ⊢
      rw [hdigits, Nat.pow_add, Nat.mul_assoc, Nat.mul_comm (10 ^ c)]
    cases c with
    | zero => exact ⟨by simpa using hcancel, by omega⟩
    | succ c =>
        have hzero : d.digits % 10 = 0 := by
          rw [hcancel, Nat.pow_eq, Nat.pow_succ, ← Nat.mul_assoc, Nat.mul_mod_left]
        rcases d.normal with ⟨hd, he⟩ | hne
        · rw [hd, eq_comm, Nat.mul_eq_zero] at hcancel
          have hd' : d'.digits = 0 :=
            hcancel.resolve_right (Nat.ne_of_gt (Nat.pow_pos (by decide)))
          rcases d'.normal with ⟨-, he'⟩ | hne'
          · exact ⟨hd.trans hd'.symm, he.trans he'.symm⟩
          · rw [hd'] at hne'
            exact absurd rfl hne'
        · exact absurd hzero hne
  obtain ⟨a, hmantissa, hpower⟩ := h
  obtain ⟨b, hmantissa', hpower'⟩ := h'
  have hdigits := hmantissa.symm.trans hmantissa'
  have hexponent := hpower.symm.trans hpower'
  rcases Nat.le_total a b with hab | hab
  · exact hle hab hdigits hexponent
  · obtain ⟨h₁, h₂⟩ := hle hab hdigits.symm hexponent.symm
    exact ⟨h₁.symm, h₂.symm⟩

/-- A number text is the way one number is written. -/
theorem WrittenAs.unique {w : NumberText} {a b : Number} (ha : WrittenAs w a)
    (hb : WrittenAs w b) : a = b := by
  cases a with
  | int i =>
      cases b with
      | int j =>
          obtain ⟨hsign, hdigits⟩ := by simpa using ha.symm.trans hb
          have habs := congrArg (fun ds => Nat.ofDigitChars 10 ds 0) hdigits
          simp only [Nat.ofDigitChars_ten_toDigits] at habs
          congr 1
          omega
      | decimal d =>
          obtain ⟨-, -, hmark⟩ := hb
          rw [ha] at hmark
          cases hmark
  | decimal d =>
      cases b with
      | int j =>
          obtain ⟨-, -, hmark⟩ := ha
          rw [hb] at hmark
          cases hmark
      | decimal d' =>
          obtain ⟨hsign, hdenotes, -⟩ := ha
          obtain ⟨hsign', hdenotes', -⟩ := hb
          obtain ⟨hdigits, hexponent⟩ := hdenotes.unique hdenotes'
          cases d
          cases d'
          simp_all

/-- A number without sign is read with the sign in front of it. -/
theorem readNumber?_signed {negative : Bool} {w : NumberText}
    (h : readUnsigned? negative cs = some (w, [])) :
    readNumber? ((if negative then ['-'] else []) ++ cs) = some (w, []) := by
  cases negative with
  | true => exact h
  | false =>
      show readNumber? cs = some (w, [])
      unfold readNumber?
      split
      · cases h
      · exact h

theorem readNumber?_intChars (i : Int) :
    readNumber? (intChars i) =
      some (⟨decide (i < 0), Nat.toDigits 10 i.natAbs, none, none⟩, []) := by
  have hwhole := readWhole?_toDigits i.natAbs [] (by simp)
  rw [List.append_nil] at hwhole
  have h : readUnsigned? (decide (i < 0)) (Nat.toDigits 10 i.natAbs) =
      some (⟨decide (i < 0), Nat.toDigits 10 i.natAbs, none, none⟩, []) := by
    exact readUnsigned?_eq_some.2 ⟨_, _, hwhole, rfl, rfl, rfl⟩
  simpa [intChars] using readNumber?_signed h

section Decimals

variable {d : Decimal}

/-- A form of a decimal without its sign is read as the decimal, written as it should be. -/
def ReadsAs (d : Decimal) (cs : List Char) : Prop :=
  ∃ w, readUnsigned? d.negative cs = some (w, []) ∧ WrittenAs w (.decimal d)

theorem isDecimalDigit_of_mem_zeros {count : Int} {c : Char} (h : c ∈ Decimal.zeros count) :
    isDecimalDigit c = true := by
  rw [(List.mem_replicate.1 h).2]
  rfl

/-- Zero is written without a power of ten. -/
theorem digits_ne_zero (h : d.exponent ≠ 0) : d.digits ≠ 0 := by
  intro hd
  rcases d.normal with ⟨-, he⟩ | hne
  · exact h he
  · exact hne (by rw [hd])

/-- A whole number: the digits and their zeros, then one zero after the point. -/
theorem readsAs_whole (hwhole : 0 ≤ d.exponent) :
    ReadsAs d (Nat.toDigits 10 d.digits ++ Decimal.zeros d.exponent ++ ['.', '0']) := by
  have hdigits : ∀ c ∈ Nat.toDigits 10 d.digits ++ Decimal.zeros d.exponent,
      isDecimalDigit c = true := fun c hc =>
    (List.mem_append.1 hc).elim isDecimalDigit_of_mem_toDigits isDecimalDigit_of_mem_zeros
  have hlead : (Nat.toDigits 10 d.digits ++ Decimal.zeros d.exponent).head? = some '0' →
      Nat.toDigits 10 d.digits ++ Decimal.zeros d.exponent = ['0'] := by
    intro hhead
    by_cases hd : d.digits = 0
    · have he : d.exponent = 0 := Classical.byContradiction fun he => digits_ne_zero he hd
      rw [hd, he]
      rfl
    · rw [List.head?_append] at hhead
      cases hfirst : (Nat.toDigits 10 d.digits).head? with
      | none => exact absurd (List.head?_eq_none_iff.1 hfirst) Nat.toDigits_ne_nil
      | some c =>
          rw [hfirst] at hhead
          exact absurd (hfirst.trans hhead) (head?_toDigits hd)
  have hread := readWhole?_digits ['.', '0'] (by simp) hdigits hlead (by simp; decide)
  refine ⟨⟨d.negative, Nat.toDigits 10 d.digits ++ Decimal.zeros d.exponent, some ['0'], none⟩,
    readUnsigned?_eq_some.2 ⟨_, _, hread, rfl, rfl, rfl⟩, rfl, ⟨d.exponent.toNat + 1, ?_, ?_⟩, rfl⟩
  · simp only [NumberText.mantissa, Option.getD_some, Nat.ofDigitChars_append,
      Nat.ofDigitChars_ten_toDigits, Decimal.zeros, Nat.ofDigitChars_replicate_zero]
    simp [Nat.ofDigitChars_cons, Nat.pow_succ, Nat.mul_comm, Nat.mul_left_comm]
  · simp [NumberText.writtenPower]
    omega

/-- The point stands among the digits. -/
theorem readsAs_inside (hexponent : d.exponent < 0) (hinside : 0 < d.point) :
    ReadsAs d ((Nat.toDigits 10 d.digits).take d.point.toNat ++
      '.' :: (Nat.toDigits 10 d.digits).drop d.point.toNat) := by
  have hpoint : d.point = (Nat.toDigits 10 d.digits).length + d.exponent := rfl
  have hd : d.digits ≠ 0 := digits_ne_zero (by omega)
  have htake : (Nat.toDigits 10 d.digits).take d.point.toNat ≠ [] := by
    simp only [Ne, List.take_eq_nil_iff, Nat.toDigits_ne_nil, or_false]
    omega
  have hdrop : (Nat.toDigits 10 d.digits).drop d.point.toNat ≠ [] := by
    rw [Ne, List.drop_eq_nil_iff]
    omega
  have hlead : ((Nat.toDigits 10 d.digits).take d.point.toNat).head? = some '0' →
      (Nat.toDigits 10 d.digits).take d.point.toNat = ['0'] := by
    intro hhead
    rw [List.head?_take, if_neg (by omega)] at hhead
    exact absurd hhead (head?_toDigits hd)
  have hread := readWhole?_digits ('.' :: (Nat.toDigits 10 d.digits).drop d.point.toNat) htake
    (fun c hc => isDecimalDigit_of_mem_toDigits (List.mem_of_mem_take hc)) hlead
    (by simp; decide)
  have hfraction := readFraction?_digits [] hdrop
    (fun c hc => isDecimalDigit_of_mem_toDigits (List.mem_of_mem_drop hc)) (by simp)
  rw [List.append_nil] at hfraction
  refine ⟨⟨d.negative, (Nat.toDigits 10 d.digits).take d.point.toNat,
    some ((Nat.toDigits 10 d.digits).drop d.point.toNat), none⟩,
    readUnsigned?_eq_some.2 ⟨_, _, hread, hfraction, rfl, rfl⟩, rfl, ⟨0, ?_, ?_⟩, rfl⟩
  · simp [NumberText.mantissa]
  · simp [NumberText.writtenPower]
    omega

/-- All digits stand after the point. -/
theorem readsAs_after (hafter : ¬0 < d.point) :
    ReadsAs d (['0', '.'] ++ Decimal.zeros (-d.point) ++ Nat.toDigits 10 d.digits) := by
  have hpoint : d.point = (Nat.toDigits 10 d.digits).length + d.exponent := rfl
  have hdigits : ∀ c ∈ Decimal.zeros (-d.point) ++ Nat.toDigits 10 d.digits,
      isDecimalDigit c = true := fun c hc =>
    (List.mem_append.1 hc).elim isDecimalDigit_of_mem_zeros isDecimalDigit_of_mem_toDigits
  have hfraction := readFraction?_digits [] (by simp) hdigits (by simp)
  rw [List.append_nil] at hfraction
  have hzero : ∀ c ∈ ['0'], isDecimalDigit c = true := by
    intro c hc
    rw [List.mem_singleton.1 hc]
    rfl
  have hread := readWhole?_digits
    ('.' :: (Decimal.zeros (-d.point) ++ Nat.toDigits 10 d.digits)) (by simp) hzero
    (by simp) (by simp; decide)
  rw [List.append_assoc]
  refine ⟨⟨d.negative, ['0'], some (Decimal.zeros (-d.point) ++ Nat.toDigits 10 d.digits), none⟩,
    readUnsigned?_eq_some.2 ⟨_, _, hread, hfraction, rfl, rfl⟩, rfl, ⟨0, ?_, ?_⟩, rfl⟩
  · simp [NumberText.mantissa, Decimal.zeros, Nat.ofDigitChars_append,
      Nat.ofDigitChars_replicate_zero, Nat.ofDigitChars_cons]
  · simp [NumberText.writtenPower, Decimal.zeros]
    omega

/-- A positional form is a number text. -/
theorem readsAs_positional (d : Decimal) : ReadsAs d d.positional := by
  unfold Decimal.positional
  dsimp only
  split
  · next hwhole => exact readsAs_whole hwhole
  · next hnegative =>
      split
      · next hinside => exact readsAs_inside (by omega) hinside
      · next hafter => exact readsAs_after hafter

/-- The power of ten that a number text ends with is the one written. -/
theorem writtenPower_of_exponent {w : NumberText} {power : Int}
    (h : w.exponent? = some (decide (power < 0), Nat.toDigits 10 power.natAbs)) :
    w.writtenPower = power := by
  have habs := Nat.ofDigitChars_ten_toDigits (n := power.natAbs)
  unfold NumberText.writtenPower
  rw [h]
  by_cases hneg : power < 0
  · rw [decide_eq_true hneg]
    simp only [habs]
    omega
  · rw [decide_eq_false hneg]
    simp only [habs]
    omega

/-- A scientific form is a number text. -/
theorem readsAs_scientific (d : Decimal) : ReadsAs d d.scientific := by
  have hdigit : ∀ c ∈ Nat.toDigits 10 d.digits, isDecimalDigit c = true :=
    fun _ => isDecimalDigit_of_mem_toDigits
  have hvalue := Nat.ofDigitChars_ten_toDigits (n := d.digits)
  have hpoint : d.point = (Nat.toDigits 10 d.digits).length + d.exponent := rfl
  have hpower := readExponent?_powerText (d.point - 1)
  have hstop : ∀ c ∈ (Decimal.powerText (d.point - 1)).head?, isDecimalDigit c = false := by
    simp [Decimal.powerText]
    decide
  unfold Decimal.scientific
  cases hdigits : Nat.toDigits 10 d.digits with
  | nil => exact absurd hdigits Nat.toDigits_ne_nil
  | cons lead more =>
      rw [hdigits] at hdigit hvalue hpoint
      have hlead : ∀ c ∈ [lead], isDecimalDigit c = true := by simpa using hdigit lead (by simp)
      cases more with
      | nil =>
          have hread := readWhole?_digits (Decimal.powerText (d.point - 1)) (by simp) hlead
            (by simp) hstop
          refine ⟨⟨d.negative, [lead], none, some (decide (d.point - 1 < 0),
            Nat.toDigits 10 (d.point - 1).natAbs)⟩,
            readUnsigned?_eq_some.2 ⟨_, _, hread, rfl, hpower, rfl⟩, rfl, ⟨0, ?_, ?_⟩, rfl⟩
          · simpa [NumberText.mantissa] using hvalue
          · rw [writtenPower_of_exponent rfl]
            simp at hpoint ⊢
            omega
      | cons next more =>
          have hread := readWhole?_digits
            ('.' :: (next :: more ++ Decimal.powerText (d.point - 1)))
            (by simp) hlead (by simp) (by simp; decide)
          have hmore : ∀ c ∈ next :: more, isDecimalDigit c = true :=
            fun c hc => hdigit c (List.mem_cons_of_mem _ hc)
          have hfraction := readFraction?_digits (Decimal.powerText (d.point - 1)) (by simp)
            hmore hstop
          refine ⟨⟨d.negative, [lead], some (next :: more), some (decide (d.point - 1 < 0),
            Nat.toDigits 10 (d.point - 1).natAbs)⟩,
            readUnsigned?_eq_some.2 ⟨_, _, hread, hfraction, hpower, rfl⟩, rfl, ⟨0, ?_, ?_⟩, rfl⟩
          · simpa [NumberText.mantissa] using hvalue
          · rw [writtenPower_of_exponent rfl]
            simp at hpoint ⊢
            omega

end Decimals

/-- Every number is written as a number text. -/
theorem readNumber?_chars (n : Number) :
    ∃ w, readNumber? n.chars = some (w, []) ∧ WrittenAs w n := by
  cases n with
  | int i => exact ⟨_, readNumber?_intChars i, rfl⟩
  | decimal d =>
      by_cases hpositional : d.isPositional = true
      · obtain ⟨w, hread, hwritten⟩ := readsAs_positional d
        refine ⟨w, ?_, hwritten⟩
        simpa [Number.chars, Decimal.text, Decimal.signText, hpositional] using
          readNumber?_signed hread
      · obtain ⟨w, hread, hwritten⟩ := readsAs_scientific d
        refine ⟨w, ?_, hwritten⟩
        simpa [Number.chars, Decimal.text, Decimal.signText, hpositional] using
          readNumber?_signed hread

end Json

/-- Different numbers are written differently, and a number ends where something follows that
cannot belong to it. -/
theorem Number.chars_inj {a b : Number} {rest rest' : List Char}
    (hrest : Json.Stops rest) (hrest' : Json.Stops rest')
    (h : a.chars ++ rest = b.chars ++ rest') : a = b ∧ rest = rest' := by
  obtain ⟨w, hread, ha⟩ := Json.readNumber?_chars a
  obtain ⟨w', hread', hb⟩ := Json.readNumber?_chars b
  have heq := Json.readNumber?_append hrest hread
  rw [h, Json.readNumber?_append hrest' hread'] at heq
  obtain ⟨rfl, htail⟩ := Prod.mk.inj (Option.some.inj heq)
  exact ⟨ha.unique hb, by simpa using htail.symm⟩

/-- A character that stands in a number: a digit, a sign, a point or the mark of a power. -/
def IsNumberChar (c : Char) : Prop :=
  Json.isDecimalDigit c = true ∨ c ∈ ['-', '+', '.', 'e']

namespace Decimal

variable {d : Decimal} {c : Char}

theorem isNumberChar_of_mem_powerText {power : Int} (h : c ∈ powerText power) :
    IsNumberChar c := by
  simp only [powerText, List.mem_cons] at h
  rcases h with rfl | rfl | h
  · exact Or.inr (by simp)
  · exact Or.inr (by split <;> simp)
  · exact Or.inl (Json.isDecimalDigit_of_mem_toDigits h)

theorem isNumberChar_of_mem_positional (h : c ∈ d.positional) : IsNumberChar c := by
  have hpoint : IsNumberChar '.' := Or.inr (by simp)
  have hzero : IsNumberChar '0' := Or.inl rfl
  simp only [positional] at h
  split at h
  · simp only [List.mem_append, List.mem_cons, List.not_mem_nil, or_false] at h
    rcases h with (h | h) | rfl | rfl
    · exact Or.inl (Json.isDecimalDigit_of_mem_toDigits h)
    · exact Or.inl (Json.isDecimalDigit_of_mem_zeros h)
    · exact hpoint
    · exact hzero
  split at h
  · simp only [List.mem_append, List.mem_cons] at h
    rcases h with h | rfl | h
    · exact Or.inl (Json.isDecimalDigit_of_mem_toDigits (List.mem_of_mem_take h))
    · exact hpoint
    · exact Or.inl (Json.isDecimalDigit_of_mem_toDigits (List.mem_of_mem_drop h))
  · simp only [List.mem_append, List.mem_cons, List.not_mem_nil, or_false] at h
    rcases h with ((rfl | rfl) | h) | h
    · exact hzero
    · exact hpoint
    · exact Or.inl (Json.isDecimalDigit_of_mem_zeros h)
    · exact Or.inl (Json.isDecimalDigit_of_mem_toDigits h)

theorem isNumberChar_of_mem_scientific (h : c ∈ d.scientific) : IsNumberChar c := by
  have hdigit : ∀ c ∈ Nat.toDigits 10 d.digits, IsNumberChar c :=
    fun _ hc => Or.inl (Json.isDecimalDigit_of_mem_toDigits hc)
  simp only [scientific] at h
  split at h
  · exact isNumberChar_of_mem_powerText h
  · next single heq =>
      rw [heq] at hdigit
      rcases List.mem_cons.1 h with rfl | h
      · exact hdigit c (by simp)
      · exact isNumberChar_of_mem_powerText h
  · next lead rest _ heq =>
      rw [heq] at hdigit
      simp only [List.mem_append, List.mem_cons] at h
      rcases h with (rfl | rfl | h) | h
      · exact hdigit c (by simp)
      · exact Or.inr (by simp)
      · exact hdigit c (by simp [h])
      · exact isNumberChar_of_mem_powerText h

end Decimal

/-- A number is written with digits, signs, a point and the mark of a power. -/
theorem Number.mem_chars {n : Number} {c : Char} (h : c ∈ n.chars) : IsNumberChar c := by
  cases n with
  | int i =>
      simp only [chars, intChars, List.mem_append] at h
      rcases h with h | h
      · split at h <;> simp_all [IsNumberChar]
      · exact Or.inl (Json.isDecimalDigit_of_mem_toDigits h)
  | decimal d =>
      simp only [chars, Decimal.text, List.mem_append] at h
      rcases h with h | h
      · simp only [Decimal.signText] at h
        split at h <;> simp_all [IsNumberChar]
      · split at h
        · exact Decimal.isNumberChar_of_mem_positional h
        · exact Decimal.isNumberChar_of_mem_scientific h

end ConfigCompiler
