import Mathlib.Data.List.Induction
import Tangle.Yaml.Decode

/-!
Contract: how the numbers and booleans of plain scalars are spelled.

Owns: `IsInteger`, the one spelling of an integer that its own text has; the booleans that have
theirs; and the shape of the text of a real.

Does **not** own: which reals there are, or that their digits are the fewest (`Tangle.Decimal.Shortest`).

## One spelling for each value

A scalar is read as a value, and what the value is printed as no longer depends on how it was
spelled. So of all spellings of a value at most one is kept: for an integer the decimal digits
without a sign of plus, without a mark of another radix, and without zeros ahead.
-/

set_option autoImplicit false

namespace Tangle.Yaml

/-! ## Decimal digits -/

/-- Decimal digits without zeros ahead. -/
def IsDecimal (digits : List Char) : Prop :=
  digits ≠ [] ∧ (∀ c ∈ digits, c.isDigit = true) ∧ (digits.head? = some '0' → digits = ['0'])

instance : DecidablePred IsDecimal := fun digits =>
  decidable_of_iff (digits ≠ [] ∧ digits.all Char.isDigit = true
      ∧ (digits.head? = some '0' → digits = ['0']))
    (and_congr_right' (and_congr_left' List.all_eq_true))

/-- Decimal digits without zeros ahead, and a minus sign for what is less than zero. -/
def IsInteger (text : List Char) : Prop :=
  IsDecimal text ∨ (text.head? = some '-' ∧ IsDecimal (text.drop 1) ∧ text.drop 1 ≠ ['0'])

instance : DecidablePred IsInteger := fun _ => inferInstanceAs (Decidable (_ ∨ _))

section Digits

variable {digits : List Char} {c : Char}

/-- A digit is written of its value. -/
theorem exists_digitChar (isDigit : c.isDigit = true) : ∃ digit < 10, c = digit.digitChar := by
  have bounds : 48 ≤ c.toNat ∧ c.toNat ≤ 57 := by
    simpa [Char.isDigit, UInt32.le_iff_toNat_le] using isDigit
  refine ⟨c.toNat - 48, by omega, ?_⟩
  have each : ∀ digit < 10, Char.ofNat (48 + digit) = digit.digitChar := by decide
  rw [← each (c.toNat - 48) (by omega), Nat.add_sub_cancel' bounds.1, Char.ofNat_toNat]

private theorem head_toDigits_ne_zero {n : Nat} (positive : 0 < n) :
    (Nat.toDigits 10 n).head? ≠ some '0' := by
  induction n using Nat.base_induction 10 (by decide) with
  | single digit small =>
      rw [Nat.toDigits_of_lt_base small]
      simp [Nat.ne_of_gt positive]
  | digit front last small isFront inductionHypothesis =>
      rw [← Nat.toDigits_append_toDigits (by decide) isFront small, List.head?_append]
      have isHead := inductionHypothesis isFront
      cases first : (Nat.toDigits 10 front).head? with
      | none => exact absurd (List.head?_eq_none_iff.mp first) Nat.toDigits_ne_nil
      | some c =>
          rw [first] at isHead
          exact isHead

private theorem isDecimal_toDigits (n : Nat) : IsDecimal (Nat.toDigits 10 n) := by
  refine ⟨Nat.toDigits_ne_nil, fun c isIn => Nat.isDigit_of_mem_toDigits (by decide) (by decide) isIn,
    fun zeroLed => ?_⟩
  rcases Nat.eq_zero_or_pos n with rfl | positive
  · rfl
  · exact absurd zeroLed (head_toDigits_ne_zero positive)

private theorem ofDigitChars_concat (front : List Char) {digit : Nat} (small : digit < 10) :
    Nat.ofDigitChars 10 (front ++ [digit.digitChar]) 0 = 10 * Nat.ofDigitChars 10 front 0 + digit := by
  rw [Nat.ofDigitChars_append, Nat.ofDigitChars_cons_digitChar_of_lt_ten small, Nat.ofDigitChars_nil]

/-- **Digits without zeros ahead are the digits of their value.** -/
theorem IsDecimal.toDigits_ofDigitChars (decimal : IsDecimal digits) :
    Nat.toDigits 10 (Nat.ofDigitChars 10 digits 0) = digits := by
  induction digits using List.reverseRecOn with
  | nil => exact absurd rfl decimal.1
  | append_singleton front last inductionHypothesis =>
      obtain ⟨-, allDigits, zeroLed⟩ := decimal
      obtain ⟨digit, small, rfl⟩ := exists_digitChar (allDigits last (by simp))
      rw [ofDigitChars_concat front small]
      by_cases only : front = []
      · subst only
        rw [Nat.ofDigitChars_nil, Nat.mul_zero, Nat.zero_add]
        exact Nat.toDigits_of_lt_base small
      · have isHead : (front ++ [digit.digitChar]).head? = front.head? := by
          obtain ⟨first, rest, rfl⟩ := List.exists_cons_of_ne_nil only
          rfl
        have noZero : front.head? ≠ some '0' := by
          intro isZero
          have single := congrArg List.length (zeroLed (isHead.trans isZero))
          rw [List.length_append] at single
          exact only (List.length_eq_zero_iff.mp (Nat.succ.inj single))
        have isFront := inductionHypothesis
          ⟨only, fun c isIn => allDigits c (List.mem_append_left _ isIn), fun zero => absurd zero noZero⟩
        have positive : 0 < Nat.ofDigitChars 10 front 0 := by
          refine Nat.pos_of_ne_zero fun isZero => noZero ?_
          rw [isZero] at isFront
          rw [← isFront]
          rfl
        rw [← Nat.toDigits_append_toDigits (by decide) positive small, isFront,
          Nat.toDigits_of_lt_base small]

private theorem hexValue?_digitChar {digit : Nat} (small : digit < 10) :
    hexValue? digit.digitChar = some digit := by
  have each : ∀ digit < 10, hexValue? digit.digitChar = some digit := by decide
  exact each digit small

private theorem digits?_ten (filled : digits ≠ []) (allDigits : ∀ c ∈ digits, c.isDigit = true) :
    Resolve.digits? 10 digits = some (Nat.ofDigitChars 10 digits 0) := by
  rw [Resolve.digits?, if_neg (by simpa using filled)]
  induction digits using List.reverseRecOn with
  | nil => exact absurd rfl filled
  | append_singleton front last inductionHypothesis =>
      obtain ⟨digit, small, rfl⟩ := exists_digitChar (allDigits last (by simp))
      rw [List.foldl_append, ofDigitChars_concat front small]
      by_cases only : front = []
      · subst only
        simp [hexValue?_digitChar small, small]
      · rw [inductionHypothesis only fun c isIn => allDigits c (List.mem_append_left _ isIn)]
        simp [hexValue?_digitChar small, small, Nat.mul_comm]

end Digits

/-! ## Integers -/

section Integers

variable {text : String} {digits : List Char}

private theorem toList_intText (value : Int) :
    (Data.intText value).toList
      = (if value < 0 then ['-'] else []) ++ Nat.toDigits 10 value.natAbs := by
  rw [Data.intText]
  split
  · rw [String.toList_append, Text.ofNat, String.toList_ofList, String.toList_ofList]
  · rw [Text.ofNat, String.toList_ofList]
    rfl

private theorem isInteger_intText (value : Int) : IsInteger (Data.intText value).toList := by
  rw [toList_intText]
  split
  · next negative =>
      refine Or.inr ⟨rfl, isDecimal_toDigits _, fun isZero => ?_⟩
      have isValue : Nat.ofDigitChars 10 (Nat.toDigits 10 value.natAbs) 0 = value.natAbs :=
        Nat.ofDigitChars_ten_toDigits
      rw [show Nat.toDigits 10 value.natAbs = ['0'] from isZero] at isValue
      exact absurd (Int.natAbs_eq_zero.mp isValue.symm) (Int.ne_of_lt negative)
  · exact Or.inl (isDecimal_toDigits _)

private theorem IsDecimal.not_mem (decimal : IsDecimal digits) {c : Char} (other : c.isDigit = false) :
    c ∉ digits := by
  intro isIn
  rw [decimal.2.1 c isIn] at other
  cases other

/-- Digits announce no other radix. -/
theorem IsDecimal.radix?_eq (decimal : IsDecimal digits) : Resolve.radix? digits = none := by
  unfold Resolve.radix?
  split
  · exact absurd (by simp) (decimal.not_mem (c := 'x') rfl)
  · exact absurd (by simp) (decimal.not_mem (c := 'o') rfl)
  · exact absurd (by simp) (decimal.not_mem (c := 'b') rfl)
  · rfl

private theorem IsDecimal.splitSign_eq (decimal : IsDecimal digits) :
    Decimal.splitSign digits = (false, digits) := by
  unfold Decimal.splitSign
  split
  · exact absurd List.mem_cons_self (decimal.not_mem rfl)
  · exact absurd List.mem_cons_self (decimal.not_mem rfl)
  · rfl

/-- Behind a sign or without one, the digits have no zero ahead. -/
theorem IsDecimal.zeroLed_eq (decimal : IsDecimal digits) {text : List Char}
    (isBody : (Decimal.splitSign text).2 = digits) : Resolve.zeroLed text = false := by
  rw [Resolve.zeroLed, isBody]
  split
  · next rest =>
      obtain rfl : rest = [] := (List.cons.inj (decimal.2.2 rfl)).2
      rfl
  · rfl

private theorem IsDecimal.natural?_eq (decimal : IsDecimal digits) :
    Resolve.natural? digits = some (Nat.ofDigitChars 10 digits 0) := by
  rw [Resolve.natural?]
  · rw [decimal.radix?_eq, decimal.zeroLed_eq (by rw [decimal.splitSign_eq])]
    exact digits?_ten decimal.1 decimal.2.1
  · rintro rest rfl
    exact decimal.not_mem rfl List.mem_cons_self

/-- A sign is no digit. -/
theorem digits?_minus (radix : Nat) (rest : List Char) :
    Resolve.digits? radix ('-' :: rest) = none := by
  have stays : ∀ step : Option Nat → Char → Option Nat, (∀ c, step none c = none) →
      rest.foldl step none = none := by
    intro step none
    induction rest with
    | nil => rfl
    | cons c later inductionHypothesis => rw [List.foldl_cons, none, inductionHypothesis]
  rw [Resolve.digits?, if_neg (by simp), List.foldl_cons]
  exact stays _ fun c => rfl

private theorem IsDecimal.natural?_negative (decimal : IsDecimal digits) :
    Resolve.natural? ('-' :: digits) = none := by
  have noRadix : Resolve.radix? ('-' :: digits) = none := rfl
  rw [Resolve.natural?]
  · rw [noRadix, decimal.zeroLed_eq rfl]
    exact digits?_minus 10 digits
  · intro rest isPlus
    exact absurd (List.cons.inj isPlus).1 (by decide)

private theorem IsDecimal.negated?_eq (decimal : IsDecimal digits) :
    Resolve.negated? ('-' :: digits) = some (Nat.ofDigitChars 10 digits 0) := by
  rw [Resolve.negated?, decimal.radix?_eq, decimal.zeroLed_eq rfl]
  exact digits?_ten decimal.1 decimal.2.1

/-- Only `integer?` gives an integer. -/
theorem integer?_of_plain {value : Int} (stands : Resolve.plain text = .integer value) :
    Resolve.integer? text.toList = some (.integer value) := by
  unfold Resolve.plain at stands
  split at stands
  · cases stands
  · split at stands
    · cases stands
    · split at stands
      · next found => rw [found, stands]
      · split at stands
        · cases stands
        · split at stands
          · cases stands
          · cases stands

/-- **An integer keeps its spelling** exactly if it is written in decimal digits without a plus sign
and without zeros ahead, and is not the negative of zero. -/
theorem intText_eq_iff {value : Int} (stands : Resolve.plain text = .integer value) :
    Data.intText value = text ↔ IsInteger text.toList := by
  constructor
  · rintro rfl
    exact isInteger_intText value
  · intro canonical
    have isValue := integer?_of_plain stands
    apply String.toList_inj.mp
    rw [toList_intText]
    rcases canonical with decimal | ⟨isHead, decimal, notZero⟩
    · rw [Resolve.integer?, decimal.natural?_eq] at isValue
      dsimp only at isValue
      split at isValue
      · obtain rfl := Resolved.integer.inj (Option.some.inj isValue)
        rw [if_neg (by omega)]
        exact decimal.toDigits_ofDigitChars
      · split at isValue <;> cases isValue
    · obtain ⟨digits, isText⟩ : ∃ digits, text.toList = '-' :: digits := List.head?_eq_some_iff.mp isHead
      rw [isText, List.drop_one, List.tail_cons] at decimal notZero
      rw [isText, Resolve.integer?, decimal.natural?_negative, decimal.negated?_eq] at isValue
      dsimp only at isValue
      have positive : Nat.ofDigitChars 10 digits 0 ≠ 0 := by
        intro isZero
        have isDigits := decimal.toDigits_ofDigitChars
        rw [isZero] at isDigits
        exact notZero isDigits.symm
      split at isValue
      · obtain rfl := Resolved.integer.inj (Option.some.inj isValue)
        rw [if_pos (by omega), Int.natAbs_neg, isText]
        exact congrArg ('-' :: ·) decimal.toDigits_ofDigitChars
      · split at isValue <;> cases isValue

end Integers

/-! ## Booleans -/

theorem integer?_ne_boolean (text : List Char) (value : Bool) :
    Resolve.integer? text ≠ some (.boolean value) := by
  unfold Resolve.integer?
  split
  · split
    · exact fun same => by cases same
    · split <;> exact fun same => by cases same
  · split
    · split
      · exact fun same => by cases same
      · split <;> exact fun same => by cases same
    · exact fun same => by cases same

/-- Only `boolean?` gives a boolean. -/
theorem boolean?_of_plain {text : String} {value : Bool} (stands : Resolve.plain text = .boolean value) :
    Resolve.boolean? text = some value := by
  unfold Resolve.plain at stands
  split at stands
  · cases stands
  · split at stands
    · next found => rw [found, Resolved.boolean.inj stands]
    · split at stands
      · next found =>
          rw [stands] at found
          exact absurd found (integer?_ne_boolean text.toList value)
      · split at stands
        · cases stands
        · split at stands
          · cases stands
          · cases stands

/-- **A boolean keeps its spelling** exactly if it is written in small letters. -/
theorem boolean_eq_iff {text : String} {value : Bool} (stands : Resolve.plain text = .boolean value) :
    (if value then "true" else "false") = text ↔ text = "true" ∨ text = "false" := by
  have isValue := boolean?_of_plain stands
  constructor
  · rintro rfl
    cases value <;> simp
  · rintro (rfl | rfl)
    · obtain rfl := Option.some.inj isValue
      rfl
    · obtain rfl := Option.some.inj isValue
      rfl

/-! ## Reals -/

def IsDigits (digits : List Char) : Prop :=
  digits ≠ [] ∧ ∀ c ∈ digits, c.isDigit = true

def IsPointed (body : List Char) : Prop :=
  ∃ whole fraction, body = whole ++ '.' :: fraction ∧ IsDecimal whole ∧ IsDigits fraction

/-- A digit, perhaps a point and digits, and an exponent. -/
def IsScaled (body : List Char) : Prop :=
  ∃ lead fraction exponent, body = lead :: (fraction ++ 'e' :: exponent) ∧ lead.isDigit = true
    ∧ (fraction = [] ∨ ∃ digits, fraction = '.' :: digits ∧ IsDigits digits) ∧ IsInteger exponent

/-- A number with a point or an exponent, or one of the values beside the numbers; there is no sign
but minus, and no capital letter. -/
def IsReal (text : List Char) : Prop :=
  text = ".nan".toList
    ∨ ∃ sign body, text = sign ++ body ∧ (sign = [] ∨ sign = ['-'])
        ∧ (body = ".inf".toList ∨ IsPointed body ∨ IsScaled body)

section Reals

variable {digits : List Char}

private theorem IsDigits.isDecimal (isDigits : IsDigits digits) (noZero : digits.head? ≠ some '0') :
    IsDecimal digits :=
  ⟨isDigits.1, isDigits.2, fun zero => absurd zero noZero⟩

private theorem isDigits_toDigits (n : Nat) : IsDigits (Nat.toDigits 10 n) :=
  ⟨(isDecimal_toDigits n).1, (isDecimal_toDigits n).2.1⟩

private theorem isDigit_of_mem_zeros {count : Nat} {c : Char} (isIn : c ∈ List.replicate count '0') :
    c.isDigit = true := by
  rw [List.eq_of_mem_replicate isIn]
  rfl

/-- Placing a point leaves digits without zeros ahead in front of it, and digits behind it. -/
theorem pointed_spec (isDigits : IsDigits digits) (noZero : digits.head? ≠ some '0') (point : Int) :
    IsDecimal (Decimal.pointed digits point).1
      ∧ ∀ c ∈ (Decimal.pointed digits point).2, c.isDigit = true := by
  obtain ⟨lead, rest, rfl⟩ := List.exists_cons_of_ne_nil isDigits.1
  unfold Decimal.pointed
  split
  · refine ⟨isDecimal_toDigits 0, fun c isIn => ?_⟩
    exact (List.mem_append.mp isIn).elim isDigit_of_mem_zeros (isDigits.2 c)
  · split
    · refine ⟨IsDigits.isDecimal ⟨List.cons_ne_nil _ _, fun c isIn => ?_⟩ noZero, fun c isIn => by cases isIn⟩
      exact (List.mem_append.mp isIn).elim (isDigits.2 c) isDigit_of_mem_zeros
    · next positive _ =>
        obtain ⟨count, isCount⟩ : ∃ count, point.toNat = count + 1 :=
          Nat.exists_eq_succ_of_ne_zero (by omega)
        rw [isCount]
        refine ⟨IsDigits.isDecimal ⟨List.cons_ne_nil _ _, fun c isIn => ?_⟩ noZero, fun c isIn => ?_⟩
        · exact isDigits.2 c (List.mem_of_mem_take (i := count + 1) isIn)
        · exact isDigits.2 c (List.mem_of_mem_drop isIn)

/-- The sign of a number is a minus or nothing. -/
theorem sign_cases (negative : Bool) :
    (if negative then ['-'] else []) = [] ∨ (if negative then ['-'] else []) = ['-'] := by
  cases negative with
  | true => exact Or.inr rfl
  | false => exact Or.inl rfl

private theorem isReal_of_parts {whole fraction : List Char} (negative : Bool) (decimal : IsDecimal whole)
    (allDigits : ∀ c ∈ fraction, c.isDigit = true) :
    IsReal ((if negative then ['-'] else []) ++ whole ++ ['.']
      ++ (if fraction.isEmpty then ['0'] else fraction)) := by
  refine Or.inr ⟨_, whole ++ '.' :: (if fraction.isEmpty then ['0'] else fraction), by simp,
    sign_cases negative, Or.inr (Or.inl ⟨whole, _, rfl, decimal, ?_⟩)⟩
  split
  · exact isDigits_toDigits 0
  · next some => exact ⟨fun none => some (List.isEmpty_iff.mpr none), allDigits⟩

private theorem isReal_positional (number : Decimal.Binary) : IsReal number.positional.toList := by
  rw [Decimal.Binary.positional]
  generalize number.shortest = shortest
  obtain ⟨digits, power⟩ := shortest
  dsimp only
  by_cases zero : digits = 0
  · rw [if_pos zero, String.toList_ofList]
    exact isReal_of_parts number.negative (isDecimal_toDigits 0) fun c isIn => by cases isIn
  · rw [if_neg zero, String.toList_ofList]
    obtain ⟨decimal, allDigits⟩ := pointed_spec (isDigits_toDigits digits)
      (head_toDigits_ne_zero (Nat.pos_of_ne_zero zero)) ((Nat.toDigits 10 digits).length + power)
    exact isReal_of_parts number.negative decimal allDigits

private theorem isReal_scientific (number : Decimal.Binary) : IsReal number.scientific.toList := by
  rw [Decimal.Binary.scientific]
  generalize number.shortest = shortest
  obtain ⟨digits, power⟩ := shortest
  dsimp only
  split
  · exact isReal_positional number
  · have isDigits := isDigits_toDigits digits
    obtain ⟨lead, rest, isChars⟩ := List.exists_cons_of_ne_nil isDigits.1
    rw [isChars] at isDigits ⊢
    generalize ((lead :: rest).length : Int) + power - 1 = exponent
    have isExponent : ((if exponent < 0 then "-" else "") ++ Text.ofNat exponent.natAbs).toList
        = (Data.intText exponent).toList := by
      rw [Data.intText]
      split
      · rfl
      · rw [String.empty_append]
    have mark : "e".toList = ['e'] := rfl
    rw [String.toList_append, String.toList_append, String.toList_ofList, isExponent, mark]
    refine Or.inr ⟨_, lead :: ((if (lead :: rest).length ≤ 1 then [] else '.' :: rest)
      ++ 'e' :: (Data.intText exponent).toList), ?_, sign_cases number.negative,
      Or.inr (Or.inr ⟨lead, _, _, rfl, isDigits.2 lead List.mem_cons_self, ?_,
        isInteger_intText exponent⟩)⟩
    · simp
    · split
      · exact Or.inl rfl
      · next several =>
          refine Or.inr ⟨rest, rfl, ?_, fun c isIn => isDigits.2 c (List.mem_cons_of_mem _ isIn)⟩
          rintro rfl
          exact several (Nat.le_refl 1)

/-- **The text of a real** has a point or an exponent, and neither a plus sign nor a capital. -/
theorem isReal_realText (value : Decimal.Real) : IsReal (realText value).toList := by
  cases value with
  | finite number => exact isReal_scientific number
  | infinite negative =>
      cases negative with
      | true => exact Or.inr ⟨['-'], ".inf".toList, rfl, Or.inr rfl, Or.inl rfl⟩
      | false => exact Or.inr ⟨[], ".inf".toList, rfl, Or.inl rfl, Or.inl rfl⟩
  | notANumber => exact Or.inl rfl

end Reals

end Tangle.Yaml
