import Mathlib.Algebra.Group.Int.Defs
import Mathlib.Algebra.Group.Nat.Defs
import TypeRecords.Proofs.Wire.Json.Text
import TypeRecords.Wire.Json.Reader

/-!
Reading numbers back.

Owns that the reader takes exactly the decimal digits of a number, provided that nothing behind them
continues it. The reader works from the first digit on, while the digits of a number are made from
the last one on; both meet in the number that a list of digits stands for.
-/

namespace TypeRecords.Wire.Json

/-! ## Digits -/

/-- The number that digits stand for behind others. -/
def digitsValue (front : Nat) (digits : List UInt8) : Nat :=
  digits.foldl (fun number digit => number * 10 + digitValue digit) front

/-- The decimal digits of a number. -/
def digitBytes (number : Nat) : List UInt8 := (Nat.toDigits 10 number).map ascii

theorem digitBytes_of_lt {number : Nat} (small : number < 10) :
    digitBytes number = [ascii (Nat.digitChar number)] := by
  rw [digitBytes, Nat.toDigits_of_lt_base small]
  rfl

theorem digitBytes_of_le {number : Nat} (large : 10 ≤ number) :
    digitBytes number = digitBytes (number / 10) ++ [ascii (Nat.digitChar (number % 10))] := by
  rw [digitBytes, Nat.toDigits_of_base_le (by decide) large, List.map_append]
  rfl

theorem isDigit_digitChar : ∀ digit < 10, isDigit (ascii (Nat.digitChar digit)) = true := by
  decide

theorem digitValue_digitChar : ∀ digit < 10, digitValue (ascii (Nat.digitChar digit)) = digit := by
  decide

theorem escapedBytes_digitChar :
    ∀ digit < 10, escapedBytes (Nat.digitChar digit) = [ascii (Nat.digitChar digit)] := by
  decide

theorem digitChar_ne_zero : ∀ digit < 10, 0 < digit → ascii (Nat.digitChar digit) ≠ ascii '0' := by
  decide

theorem isDigit_of_mem_digitBytes {number : Nat} {byte : UInt8}
    (member : byte ∈ digitBytes number) : isDigit byte = true := by
  induction number using Nat.strongRecOn with
  | ind number inductionHypothesis =>
    by_cases small : number < 10
    · rw [digitBytes_of_lt small, List.mem_singleton] at member
      rw [member]
      exact isDigit_digitChar number small
    · rw [digitBytes_of_le (Nat.not_lt.mp small), List.mem_append, List.mem_singleton] at member
      rcases member with front | rfl
      · exact inductionHypothesis (number / 10) (by omega) front
      · exact isDigit_digitChar (number % 10) (by omega)

theorem digitsValue_digitBytes (number : Nat) : digitsValue 0 (digitBytes number) = number := by
  induction number using Nat.strongRecOn with
  | ind number inductionHypothesis =>
    by_cases small : number < 10
    · rw [digitBytes_of_lt small]
      show 0 * 10 + digitValue _ = number
      rw [digitValue_digitChar number small]
      omega
    · have front := inductionHypothesis (number / 10) (by omega)
      rw [digitsValue] at front
      rw [digitBytes_of_le (Nat.not_lt.mp small), digitsValue, List.foldl_append, front]
      show number / 10 * 10 + digitValue _ = number
      rw [digitValue_digitChar (number % 10) (by omega)]
      omega

/-- The digits of a number other than zero start with another digit than zero. -/
theorem exists_digitBytes_eq {number : Nat} (positive : 0 < number) :
    ∃ byte rest, digitBytes number = byte :: rest ∧ byte ≠ ascii '0' := by
  induction number using Nat.strongRecOn with
  | ind number inductionHypothesis =>
    by_cases small : number < 10
    · exact ⟨_, [], digitBytes_of_lt small, digitChar_ne_zero number small positive⟩
    · obtain ⟨byte, rest, front, notZero⟩ :=
        inductionHypothesis (number / 10) (by omega) (by omega)
      rw [digitBytes_of_le (Nat.not_lt.mp small), front]
      exact ⟨byte, _, rfl, notZero⟩

theorem digitBytes_ne_nil (number : Nat) : digitBytes number ≠ [] := by
  rcases Nat.eq_zero_or_pos number with rfl | positive
  · rw [digitBytes_of_lt (by decide)]
    exact List.cons_ne_nil _ _
  · obtain ⟨byte, others, written, _⟩ := exists_digitBytes_eq positive
    rw [written]
    exact List.cons_ne_nil _ _

theorem isDigit_of_digitBytes_eq {number : Nat} {byte : UInt8} {rest : List UInt8}
    (digits : digitBytes number = byte :: rest) : isDigit byte = true := by
  have member : byte ∈ digitBytes number := by
    rw [digits]
    exact List.mem_cons_self
  exact isDigit_of_mem_digitBytes member

theorem le_digitsValue (front : Nat) (digits : List UInt8) : front ≤ digitsValue front digits := by
  induction digits generalizing front with
  | nil => exact Nat.le_refl front
  | cons digit digits inductionHypothesis =>
    have := inductionHypothesis (front * 10 + digitValue digit)
    rw [digitsValue, List.foldl_cons]
    rw [digitsValue] at this
    omega

/-! ## Reading digits -/

/-- Whether a byte behind digits belongs to the same number. -/
def continuesNumber (byte : UInt8) : Bool :=
  isDigit byte || byte = ascii '.' || byte = ascii 'e' || byte = ascii 'E'

/-- Whether a number ends in front of some bytes. -/
def EndsNumber (rest : List UInt8) : Prop := rest.head?.any continuesNumber = false

theorem EndsNumber.startsWithDigit {rest : List UInt8} (ends : EndsNumber rest) :
    startsWithDigit rest = false := by
  cases rest with
  | nil => rfl
  | cons byte rest =>
    simp only [EndsNumber, List.head?_cons, Option.any_some, continuesNumber,
      Bool.or_eq_false_iff] at ends
    exact ends.1.1.1

theorem EndsNumber.readNumberEnd {rest : List UInt8} (ends : EndsNumber rest) (positive : Bool)
    (number : Nat) : readNumberEnd positive number rest =
      if positive then .ok (.natural number, rest)
      else if number = 0 ∨ 0x8000000000000000 < number then
        .ok (.float (-(UInt64.ofNat number).toFloat), rest)
      else .ok (.negative number, rest) := by
  have noFraction : startsWith '.' rest = false ∧ startsWith 'e' rest = false ∧
      startsWith 'E' rest = false := by
    cases rest with
    | nil => exact ⟨rfl, rfl, rfl⟩
    | cons byte rest =>
      simp only [EndsNumber, List.head?_cons, Option.any_some, continuesNumber,
        Bool.or_eq_false_iff, decide_eq_false_iff_not] at ends
      simp [startsWith, ends]
  simp only [Json.readNumberEnd, noFraction, Bool.or_self, Bool.false_eq_true, if_false]

theorem readDigits_digits {positive : Bool} {digits rest : List UInt8} {front : Nat}
    (allDigits : ∀ byte ∈ digits, isDigit byte = true) (ends : EndsNumber rest)
    (small : digitsValue front digits < 2 ^ 64) :
    readDigits positive front (digits ++ rest) =
      readNumberEnd positive (digitsValue front digits) rest := by
  induction digits generalizing front with
  | nil =>
    cases rest with
    | nil => rfl
    | cons byte rest =>
      have noDigit : isDigit byte = false := ends.startsWithDigit
      rw [List.nil_append, readDigits, noDigit]
      rfl
  | cons digit digits inductionHypothesis =>
    rw [List.forall_mem_cons] at allDigits
    have notFull : isFull front (digitValue digit) = false := by
      have := le_digitsValue (front * 10 + digitValue digit) digits
      rw [digitsValue, List.foldl_cons] at small
      rw [digitsValue] at this
      simp only [isFull, decide_eq_false_iff_not]
      omega
    rw [List.cons_append, readDigits, allDigits.1, notFull]
    exact inductionHypothesis allDigits.2 small

/-- Digits are read up to where the number ends. -/
theorem readUnsigned_digitBytes {positive : Bool} {number : Nat} {rest : List UInt8}
    (small : number < 2 ^ 64) (ends : EndsNumber rest) :
    readUnsigned positive (digitBytes number ++ rest) = readNumberEnd positive number rest := by
  rcases Nat.eq_zero_or_pos number with rfl | isPositive
  · rw [digitBytes_of_lt (by decide), List.singleton_append, readUnsigned, if_pos (by decide),
      ends.startsWithDigit]
    rfl
  · obtain ⟨byte, others, written, notZero⟩ := exists_digitBytes_eq isPositive
    have allDigits : ∀ digit ∈ byte :: others, isDigit digit = true := by
      rw [← written]
      exact fun _ => isDigit_of_mem_digitBytes
    rw [List.forall_mem_cons] at allDigits
    have value : digitsValue (digitValue byte) others = number := by
      have whole := digitsValue_digitBytes number
      rw [written, digitsValue, List.foldl_cons, Nat.zero_mul, Nat.zero_add] at whole
      exact whole
    rw [written, List.cons_append, readUnsigned, if_neg notZero, allDigits.1]
    have read : readDigits positive (digitValue byte) (others ++ rest) =
        readNumberEnd positive (digitsValue (digitValue byte) others) rest :=
      readDigits_digits allDigits.2 ends (by rw [value]; exact small)
    rw [value] at read
    exact read

/-! ## Integers -/

theorem utf8_toString_nat (number : Nat) : Text.utf8 (toString number) = digitBytes number := by
  have single : ∀ digit ∈ Nat.toDigits 10 number,
      String.utf8EncodeChar digit = [ascii digit] := by
    intro digit member
    have isDigit := Nat.isDigit_of_mem_toDigits (by decide) (by decide) member
    refine utf8EncodeChar_of_small ?_
    simp only [Char.isDigit, Bool.and_eq_true, decide_eq_true_eq] at isDigit
    exact Nat.lt_of_le_of_lt isDigit.2 (by decide)
  show Text.utf8 (String.ofList (Nat.toDigits 10 number)) = _
  rw [Text.utf8_ofList, digitBytes, List.flatMap_def, List.map_congr_left single,
    ← List.flatMap_def, ← List.map_eq_flatMap]

/-- Digits stand between quotes as they are. -/
theorem utf8_writeText_toString (number : Nat) : Text.utf8 (writeText (toString number)) =
    ascii '"' :: (digitBytes number ++ [ascii '"']) := by
  have escaped : (Nat.toDigits 10 number).flatMap escapedBytes = digitBytes number := by
    induction number using Nat.strongRecOn with
    | ind number inductionHypothesis =>
      by_cases small : number < 10
      · rw [digitBytes_of_lt small, Nat.toDigits_of_lt_base small, List.flatMap_singleton,
          escapedBytes_digitChar number small]
      · rw [digitBytes_of_le (Nat.not_lt.mp small),
          Nat.toDigits_of_base_le (by decide) (Nat.not_lt.mp small), List.flatMap_append,
          inductionHypothesis (number / 10) (by omega), List.flatMap_singleton,
          escapedBytes_digitChar (number % 10) (by omega)]
  have digits : (toString number).toList = Nat.toDigits 10 number := String.toList_ofList
  rw [utf8_writeText, digits, escaped]

theorem utf8_toString_neg {number : Nat} (positive : 0 < number) :
    Text.utf8 (toString (-(number : Int))) = ascii '-' :: digitBytes number := by
  obtain ⟨smaller, rfl⟩ : ∃ smaller, number = smaller + 1 := ⟨number - 1, by omega⟩
  have written : toString (-((smaller + 1 : Nat) : Int)) =
      String.ofList ['-'] ++ toString (smaller + 1) := rfl
  rw [written, Text.utf8_append, utf8_toString_nat, Text.utf8_ofList]
  rfl

theorem digit_black {byte : UInt8} (digit : isDigit byte = true) : 0x20 < byte.toNat := by
  simp only [isDigit, Bool.and_eq_true, decide_eq_true_eq, UInt8.le_iff_toNat_le] at digit
  exact Nat.lt_of_lt_of_le (by decide) digit.1

theorem digit_ne_minus {byte : UInt8} (digit : isDigit byte = true) : byte ≠ ascii '-' := by
  rintro rfl
  cases digit

theorem toValue_cons {byte : UInt8} (isBlack : 0x20 < byte.toNat) (rest : List UInt8) :
    toValue (byte :: rest) = .ok (byte :: rest) := by
  rw [toValue, skipBlanks_cons isBlack]
  rfl

theorem readInteger_natural {expected : String} {low high : Int} {number : Nat}
    {rest : List UInt8} (small : number < 2 ^ 64) (le : (number : Int) ≤ high)
    (ends : EndsNumber rest) :
    readInteger expected low high (digitBytes number ++ rest) = .ok ((number : Int), rest) := by
  obtain ⟨byte, others, written⟩ := List.exists_cons_of_ne_nil (digitBytes_ne_nil number)
  have digit := isDigit_of_digitBytes_eq written
  have noMinus : startsWith '-' (byte :: (others ++ rest)) = false := by
    rw [startsWith_cons, decide_eq_false (digit_ne_minus digit)]
  have startsDigit : startsWithDigit (byte :: (others ++ rest)) = true := digit
  have read : readNumber (byte :: (others ++ rest)) = .ok (.natural number, rest) := by
    rw [readNumber, noMinus, if_neg Bool.false_ne_true, ← List.cons_append, ← written,
      readUnsigned_digitBytes small ends, ends.readNumberEnd]
    rfl
  rw [written, List.cons_append, readInteger, toValue_cons (digit_black digit), Outcome.ok_bind]
  simp only [startsDigit, Bool.or_true, if_true, read, Outcome.ok_bind, if_pos le]
  rfl

theorem readInteger_negative {expected : String} {low high : Int} {number : Nat}
    {rest : List UInt8} (positive : 0 < number) (small : number ≤ 2 ^ 63)
    (le : low ≤ -(number : Int)) (ends : EndsNumber rest) :
    readInteger expected low high (ascii '-' :: digitBytes number ++ rest) =
      .ok (-(number : Int), rest) := by
  have inRange : ¬ (number = 0 ∨ 0x8000000000000000 < number) := by omega
  have read : readNumber (ascii '-' :: (digitBytes number ++ rest)) =
      .ok (.negative number, rest) := by
    rw [readNumber, startsWith_self, if_pos rfl, List.drop_one, List.tail_cons,
      readUnsigned_digitBytes (by omega) ends, ends.readNumberEnd, if_neg Bool.false_ne_true,
      if_neg inRange]
  rw [List.cons_append, readInteger, toValue_cons (by decide), Outcome.ok_bind, startsWith_self,
    Bool.true_or, if_pos rfl, read, Outcome.ok_bind]
  simp only [if_pos le]
  rfl

/-- A number that is no greater than a word, and as a negative one no greater than half of it, is
read back where the bounds allow it. -/
theorem readInteger_toString {expected : String} {low high number : Int} {rest : List UInt8}
    (least : low ≤ number) (most : number ≤ high) (leastOfAll : -(2 ^ 63) ≤ number)
    (mostOfAll : number < 2 ^ 64) (ends : EndsNumber rest) :
    readInteger expected low high (Text.utf8 (toString number) ++ rest) = .ok (number, rest) := by
  rcases Int.lt_or_le number 0 with negative | natural
  · obtain ⟨size, rfl⟩ : ∃ size : Nat, number = -(size : Int) := ⟨number.natAbs, by omega⟩
    rw [utf8_toString_neg (by omega)]
    exact readInteger_negative (by omega) (by omega) least ends
  · obtain ⟨size, rfl⟩ : ∃ size : Nat, number = (size : Int) := ⟨number.natAbs, by omega⟩
    have written : toString (size : Int) = toString size := rfl
    rw [written, utf8_toString_nat]
    exact readInteger_natural (by omega) most ends

end TypeRecords.Wire.Json
