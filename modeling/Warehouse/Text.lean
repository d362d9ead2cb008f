/-
# Warehouse.Text — byte strings

`std::string` is a sequence of bytes, so every text of the model is one; a literal of the source is
written `lit "..."` and stands for its UTF-8 bytes.  Character tests are those of the C locale:
a byte above 127 is neither white space nor a digit nor a letter.
-/
import Mathlib.Algebra.Group.Int.Defs
import Mathlib.Algebra.Group.Nat.Defs
import Mathlib.Data.List.Basic
import Mathlib.Data.List.Induction

namespace Warehouse

/-- A `std::string` (or a `std::string_view`). -/
abbrev Bytes : Type := List UInt8

/-- The bytes of a string literal. -/
def lit (s : String) : Bytes := s.toUTF8.data.toList

/-- `std::isspace` in the C locale: space, and tab to carriage return. -/
def isspace (c : UInt8) : Bool := c == 32 || (9 ≤ c && c ≤ 13)

/-- `std::isdigit`. -/
def isdigit (c : UInt8) : Bool := 48 ≤ c && c ≤ 57

/-- `std::tolower` in the C locale. -/
def tolower (c : UInt8) : UInt8 := if 65 ≤ c && c ≤ 90 then c + 32 else c

/-- `std::to_string` of an unsigned value. -/
def toDecimal (n : Nat) : Bytes := (Nat.toDigits 10 n).map fun c => c.toNat.toUInt8

/-- The value of a string of digits, most significant first. -/
def digitsValue (s : Bytes) : Nat := s.foldl (fun n c => n * 10 + (c.toNat - 48)) 0

/-- `std::from_chars` into an unsigned type of that many values, all of the text being used. -/
def parseUnsigned (bound : Nat) (s : Bytes) : Option Nat :=
  if s.isEmpty || !s.all isdigit then none
  else if digitsValue s < bound then some (digitsValue s) else none

/-- `std::from_chars` into a signed type whose largest value is `max`, all of the text being used. -/
def parseSigned (max : Nat) : Bytes → Option Int
  | 45 :: s => (parseUnsigned (max + 2) s).map fun n => -(n : Int)
  | s => (parseUnsigned (max + 1) s).map Int.ofNat

/-! ## Numerals -/

theorem digitsValue_append (s t : Bytes) :
    digitsValue (s ++ t) = digitsValue s * 10 ^ t.length + digitsValue t := by
  induction t using List.reverseRecOn with
  | nil => simp [digitsValue]
  | append_singleton t c ih =>
      have hsnoc : ∀ u : Bytes, digitsValue (u ++ [c]) = digitsValue u * 10 + (c.toNat - 48) := by
        intro u
        simp [digitsValue]
      rw [← List.append_assoc, hsnoc, hsnoc, ih, List.length_append, List.length_singleton,
        Nat.pow_succ, Nat.add_mul, Nat.mul_assoc]
      omega

theorem digitsValue_zeros (n : ℕ) : digitsValue (List.replicate n 48) = 0 := by
  induction n with
  | zero => rfl
  | succ n ih =>
      rw [List.replicate_succ', digitsValue_append, ih]
      rfl

/-- A digit of a numeral is a byte, and keeps its code. -/
theorem toNat_digit {n : ℕ} {c : Char} (h : c ∈ Nat.toDigits 10 n) :
    48 ≤ c.toNat ∧ c.toNat ≤ 57 ∧ c.toNat.toUInt8.toNat = c.toNat := by
  have hdigit := Nat.isDigit_of_mem_toDigits (by omega) (by omega) h
  have hbounds : 48 ≤ c.toNat ∧ c.toNat ≤ 57 := by
    simpa [Char.isDigit, UInt32.le_iff_toNat_le] using hdigit
  refine ⟨hbounds.1, hbounds.2, ?_⟩
  rw [Nat.toUInt8_eq, UInt8.toNat_ofNat']
  omega

theorem isdigit_toDecimal {n : ℕ} {c : UInt8} (h : c ∈ toDecimal n) : isdigit c := by
  obtain ⟨d, hd, rfl⟩ := List.mem_map.mp h
  obtain ⟨hlow, hhigh, hcode⟩ := toNat_digit hd
  simp only [isdigit, Bool.and_eq_true, decide_eq_true_eq, UInt8.le_iff_toNat_le, hcode]
  exact ⟨hlow, hhigh⟩

theorem toDecimal_ne_nil (n : ℕ) : toDecimal n ≠ [] := by
  simp [toDecimal, Nat.toDigits_ne_nil]

theorem digitsValue_toDecimal (n : ℕ) : digitsValue (toDecimal n) = n := by
  have hfold : ∀ (cs : List Char) (m : ℕ), (∀ c ∈ cs, c.toNat.toUInt8.toNat = c.toNat) →
      (cs.map fun c => c.toNat.toUInt8).foldl (fun n c => n * 10 + (c.toNat - 48)) m =
        Nat.ofDigitChars 10 cs m := by
    intro cs
    induction cs with
    | nil => intro m _; rfl
    | cons c cs ih =>
        intro m hcs
        rw [List.map_cons, List.foldl_cons, Nat.ofDigitChars_cons,
          ih _ fun d hd => hcs d (List.mem_cons_of_mem c hd), hcs c List.mem_cons_self, Nat.mul_comm 10]
        rfl
  exact (hfold _ 0 fun c hc => (toNat_digit hc).2.2).trans Nat.ofDigitChars_ten_toDigits

/-- A text is read by its digits and their value. -/
theorem parseUnsigned_eq {bound : ℕ} {text : Bytes} (h : text ≠ []) :
    parseUnsigned bound text =
      if text.all isdigit = true ∧ digitsValue text < bound then some (digitsValue text) else none := by
  have hempty : text.isEmpty = false := by simpa using h
  unfold parseUnsigned
  cases hdigits : text.all isdigit with
  | false => simp [hempty]
  | true => simp [hempty]

/-- What is written as a decimal numeral is read back. -/
theorem parseUnsigned_toDecimal {bound n : ℕ} (h : n < bound) :
    parseUnsigned bound (toDecimal n) = some n := by
  have hall : (toDecimal n).all isdigit = true :=
    List.all_eq_true.mpr fun c hc => isdigit_toDecimal hc
  have hempty : (toDecimal n).isEmpty = false := by
    simp [toDecimal_ne_nil]
  simp [parseUnsigned, hall, hempty, digitsValue_toDecimal, h]

/-- The text of a signed value, as `std::to_string` and the database write it. -/
def toDecimalInt : Int → Bytes
  | .ofNat n => toDecimal n
  | .negSucc n => 45 :: toDecimal (n + 1)

/-- An unsigned value that is read from the text of a signed one is that value. -/
theorem parseUnsigned_toDecimalInt {bound n : ℕ} {value : Int}
    (h : parseUnsigned bound (toDecimalInt value) = some n) : value = n := by
  cases value with
  | ofNat m =>
      simp only [toDecimalInt, parseUnsigned, digitsValue_toDecimal] at h
      split at h
      · cases h
      · split at h
        · rw [← Option.some.inj h]
          rfl
        · cases h
  | negSucc m =>
      -- the sign is not a digit
      have hsign : isdigit 45 = false := by decide
      simp [toDecimalInt, parseUnsigned, hsign] at h

/-- A numeral without a sign is read as an unsigned one. -/
theorem parseSigned_toDecimal (max n : ℕ) :
    parseSigned max (toDecimal n) = (parseUnsigned (max + 1) (toDecimal n)).map Int.ofNat := by
  cases hdigits : toDecimal n with
  | nil => exact absurd hdigits (toDecimal_ne_nil n)
  | cons c rest =>
      -- the text starts with a digit, not with a sign
      have hdigit : isdigit c = true := isdigit_toDecimal (n := n) (by simp [hdigits])
      have hsign : c ≠ 45 := by
        rintro rfl
        exact absurd hdigit (by decide)
      unfold parseSigned
      split
      · rename_i rest' hcons
        exact absurd (List.cons.inj hcons).1 hsign
      · rfl

/-- A signed value that is not negative is read back from its text. -/
theorem parseSigned_toDecimalInt {max n : ℕ} (h : n ≤ max) :
    parseSigned max (toDecimalInt n) = some n := by
  show parseSigned max (toDecimal n) = some (Int.ofNat n)
  rw [parseSigned_toDecimal, parseUnsigned_toDecimal (Nat.lt_succ_of_le h)]
  rfl

/-- A signed value that is read from the text of one is that value. -/
theorem eq_of_parseSigned {max : ℕ} {value read : Int}
    (h : parseSigned max (toDecimalInt value) = some read) : read = value := by
  have hvalue : ∀ {bound n m : ℕ}, parseUnsigned bound (toDecimal n) = some m → m = n := by
    intro bound n m hparsed
    have hread : (n : Int) = m := parseUnsigned_toDecimalInt hparsed
    exact (Int.ofNat.inj hread).symm
  cases value with
  | ofNat n =>
      rw [toDecimalInt, parseSigned_toDecimal, Option.map_eq_some_iff] at h
      obtain ⟨m, hparsed, rfl⟩ := h
      rw [hvalue hparsed]
  | negSucc n =>
      cases hparsed : parseUnsigned (max + 2) (toDecimal (n + 1)) with
      | none => simp [toDecimalInt, parseSigned, hparsed] at h
      | some m =>
          simp only [toDecimalInt, parseSigned, hparsed] at h
          obtain rfl := Option.some.inj h
          rw [hvalue hparsed]
          rfl

end Warehouse
