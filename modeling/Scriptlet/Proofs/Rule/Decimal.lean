/-
Scriptlet.Proofs.Rule.Decimal — the amount that a number literal stands for.

Reading holds the amount at the largest one twice for every digit. It could as well be held
once behind the last digit (`Rule.toNat_amountOf`): beyond the largest amount a further
digit leads further beyond it. So an amount is what its decimal digits stand for
(`Rule.amountOf_toDigits`), and a number literal stands for the value of its digits by
their places as far as there is an amount for it (`Rule.number?_decimal`).
-/
import Mathlib.Data.Nat.Digits.Lemmas
import Scriptlet.Proofs.Rule.Applies

namespace Scriptlet.Rule

open Text Cursor

/-! ## Amounts -/

theorem toNat_hold (amount : Nat) : (hold amount).toNat = min amount largestAmount :=
  UInt64.toNat_ofNat_of_lt' (Nat.lt_of_le_of_lt (Nat.min_le_right ..) (by decide))

/-- A sum that is to be held does not change if one of its terms is held before. -/
theorem toNat_appendDigit (amount : UInt64) (digit : Char) :
    (appendDigit amount digit).toNat
      = min (amount.toNat * 10 + (digit.toNat - '0'.toNat)) largestAmount := by
  rw [appendDigit, toNat_hold, toNat_hold]
  omega

/-- Digits behind an amount that is held, and behind the same amount that is not. -/
theorem toNat_foldl_appendDigit (digits : List Char) {amount : UInt64} {exact : Nat}
    (h : amount.toNat = min exact largestAmount) :
    (digits.foldl appendDigit amount).toNat
      = min (Nat.ofDigitChars 10 digits exact) largestAmount := by
  induction digits generalizing amount exact with
  | nil => exact h
  | cons digit digits ih =>
    rw [List.foldl_cons, Nat.ofDigitChars_cons]
    refine ih ?_
    rw [toNat_appendDigit, h]
    omega

/-- Digits stand for their decimal value, held at the largest amount. -/
theorem toNat_amountOf (digits : List Char) :
    (amountOf digits).toNat = min (Nat.ofDigitChars 10 digits 0) largestAmount :=
  toNat_foldl_appendDigit digits rfl

/-- The decimal digits of an amount stand for it. -/
theorem amountOf_toDigits (amount : UInt64) :
    amountOf (Nat.toDigits 10 amount.toNat) = amount := by
  have hle : amount.toNat ≤ largestAmount := Nat.le_sub_one_of_lt amount.toNat_lt_size
  rw [← UInt64.toNat_inj, toNat_amountOf, Nat.ofDigitChars_ten_toDigits, Nat.min_eq_left hle]

/-! ## Digits and their places -/

/-- The number that decimal digits are written for: the last one counts ones, the one before
it tens, and so on. -/
def decimalValue (digits : List Char) : Nat :=
  Nat.ofDigits 10 (digits.reverse.map fun digit => digit.toNat - '0'.toNat)

/-- Digits behind a number move it by as many places. -/
theorem ofDigitChars_eq (digits : List Char) (before : Nat) :
    Nat.ofDigitChars 10 digits before = before * 10 ^ digits.length + decimalValue digits := by
  induction digits generalizing before with
  | nil => simp [decimalValue]
  | cons digit digits ih =>
    have hvalue : decimalValue (digit :: digits)
        = decimalValue digits + 10 ^ digits.length * (digit.toNat - '0'.toNat) := by
      simp [decimalValue, Nat.ofDigits_append]
    rw [Nat.ofDigitChars_cons, ih, hvalue, List.length_cons]
    ring

/-! ## The rule -/

/-- The rule for numbers applies where there is a digit, and takes all digits that are
there. The amount is the value of the digits, or the largest amount if this is less. -/
theorem number?_decimal (c : Cursor) :
    ((number? c).isSome = true ↔ ∃ x ∈ c.rest.head?, x.isDigit = true) ∧
    ∀ s, number? c = some s →
      ∃ digits amount, digits = c.rest.takeWhile Char.isDigit ∧ c.Reads digits s.stop ∧
        s.token = ⟨.numberLiteral, c.spanTo s.stop, String.ofList digits,
          some (.number amount)⟩ ∧
        s.fault = none ∧ amount.toNat = min (decimalValue digits) (2 ^ 64 - 1) := by
  constructor
  · have hsome : (number? c).isSome = c.rest.head?.any Char.isDigit :=
      (isSome_scan? .number c).trans (opens_eq (by decide) _)
    rw [hsome, Option.any_eq_true]
    rfl
  · intro s hs
    obtain ⟨p, rest, hc, hcuts, rfl⟩ := makes_of_number? hs
    have hreads := Piece.reads_scanned hc
    have htoken := Piece.token_scanned hc
    have hfault := Piece.fault_scanned p c
    cases hcuts with
    | @number digits _ _ run =>
      have htakes : c.rest.takeWhile Char.isDigit = digits := by
        rw [hc]
        exact run.takeWhile_eq (by decide)
      have hvalue := toNat_amountOf digits
      rw [ofDigitChars_eq, Nat.zero_mul, Nat.zero_add] at hvalue
      exact ⟨_, _, htakes.symm, hreads, htoken, hfault, hvalue⟩

/-- Leading zeros, the first number that there is no amount for, and a digit of another
script behind it. -/
theorem number?_decimal_held :
    let c := (Cursor.start "x0018446744073709551616\u0663").skip 1
    ∃ s, number? c = some s ∧ s.token.text = "0018446744073709551616" ∧
      s.token.value = some (.number 18446744073709551615) := by
  intro c
  have hsome : (number? c).isSome = true := (number?_decimal c).1.2 ⟨'0', rfl, rfl⟩
  obtain ⟨s, hs⟩ := Option.isSome_iff_exists.1 hsome
  obtain ⟨digits, amount, hdigits, -, htoken, -, hvalue⟩ := (number?_decimal c).2 s hs
  have hdigits : digits = "0018446744073709551616".toList := hdigits.trans (by decide +kernel)
  have hamount : amount = 18446744073709551615 := by
    rw [← UInt64.toNat_inj, hvalue, hdigits]
    decide +kernel
  refine ⟨s, hs, ?_, ?_⟩
  · rw [htoken, hdigits]
    rfl
  · rw [htoken, hamount]

end Scriptlet.Rule
