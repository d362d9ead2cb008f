/-
# Warehouse.Digest.Bits — bit strings, bytes and numbers

A bit string is read as a number, most significant bit first, and a byte is eight bits.  What is done
to whole bytes, cutting a text and writing a number, is done to the bits.

This module names nothing of the warehouse.
-/
import Mathlib.Algebra.Ring.Nat
import Mathlib.Data.List.Basic
import Mathlib.Data.List.Induction

namespace Warehouse.Digest

/-! ## Numbers -/

/-- The number that a bit string is. -/
def ofBits (bs : List Bool) : ℕ := bs.foldl (fun n b => 2 * n + b.toNat) 0

/-- The last `n` bits of a number. -/
def bits (n value : ℕ) : List Bool := (List.range n).map fun i => value.testBit (n - 1 - i)

@[simp] theorem length_bits (n value : ℕ) : (bits n value).length = n := by simp [bits]

theorem ofBits_concat (bs : List Bool) (b : Bool) : ofBits (bs ++ [b]) = 2 * ofBits bs + b.toNat := by
  simp [ofBits]

theorem ofBits_append (xs ys : List Bool) :
    ofBits (xs ++ ys) = ofBits xs * 2 ^ ys.length + ofBits ys := by
  induction ys using List.reverseRecOn with
  | nil => simp [ofBits]
  | append_singleton ys b ih =>
      rw [← List.append_assoc, ofBits_concat, ih, ofBits_concat, List.length_append,
        List.length_singleton, pow_succ, ← Nat.mul_assoc]
      omega

/-- The bits of a number are those of its upper part, and then those of its lower part. -/
theorem bits_append (m n value : ℕ) : bits (m + n) value = bits m (value / 2 ^ n) ++ bits n value := by
  unfold bits
  rw [List.range_add, List.map_append, List.map_map]
  congr 1
  · apply List.map_congr_left
    intro i hi
    have hi : i < m := List.mem_range.mp hi
    rw [Nat.testBit_div_two_pow]
    congr 1
    omega
  · apply List.map_congr_left
    intro i hi
    show value.testBit (m + n - 1 - (m + i)) = value.testBit (n - 1 - i)
    congr 1
    omega

theorem bits_one (value : ℕ) : bits 1 value = [value.testBit 0] := rfl

/-- A number is read back from its bits, as far as they go. -/
theorem ofBits_bits (n value : ℕ) : ofBits (bits n value) = value % 2 ^ n := by
  induction n generalizing value with
  | zero => simp [bits, ofBits, Nat.mod_one]
  | succ n ih =>
      rw [bits_append n 1, bits_one, ofBits_concat, ih, pow_one, Nat.testBit_zero, pow_succ,
        Nat.mul_comm (2 ^ n), Nat.mod_mul]
      have hlast : (decide (value % 2 = 1)).toNat = value % 2 := by
        rcases Nat.mod_two_eq_zero_or_one value with h | h <;> simp [h]
      omega

/-- Only the last bits of the number matter. -/
theorem bits_mod (n value : ℕ) : bits n (value % 2 ^ n) = bits n value := by
  apply List.map_congr_left
  intro i hi
  have hi : i < n := List.mem_range.mp hi
  rw [Nat.testBit_mod_two_pow]
  simp only [Bool.and_eq_right_iff_imp, decide_eq_true_eq]
  intro _
  omega

/-! ## Bytes -/

/-- The bits of a byte. -/
def byteBits (c : UInt8) : List Bool := bits 8 c.toNat

/-- The bits of a text. -/
def bytesBits (bytes : List UInt8) : List Bool := bytes.flatMap byteBits

variable {bytes : List UInt8}

@[simp] theorem length_byteBits (c : UInt8) : (byteBits c).length = 8 := length_bits 8 _

@[simp] theorem bytesBits_nil : bytesBits [] = [] := rfl

@[simp] theorem bytesBits_cons (c : UInt8) (bytes : List UInt8) :
    bytesBits (c :: bytes) = byteBits c ++ bytesBits bytes := rfl

@[simp] theorem bytesBits_append (first second : List UInt8) :
    bytesBits (first ++ second) = bytesBits first ++ bytesBits second := List.flatMap_append

@[simp] theorem length_bytesBits (bytes : List UInt8) : (bytesBits bytes).length = 8 * bytes.length := by
  induction bytes with
  | nil => rfl
  | cons c bytes ih =>
      rw [bytesBits_cons, List.length_append, ih, length_byteBits, List.length_cons]
      omega

theorem bytesBits_zeros (n : ℕ) : bytesBits (List.replicate n 0) = List.replicate (8 * n) false := by
  induction n with
  | zero => rfl
  | succ n ih =>
      rw [List.replicate_succ, bytesBits_cons, ih, Nat.mul_succ, Nat.add_comm, List.replicate_add]
      rfl

/-- Cutting off bytes cuts off their bits. -/
theorem drop_bytesBits (n : ℕ) (bytes : List UInt8) :
    (bytesBits bytes).drop (8 * n) = bytesBits (bytes.drop n) := by
  induction n generalizing bytes with
  | zero => rfl
  | succ n ih =>
      cases bytes with
      | nil => simp
      | cons c bytes =>
          have hlength : 8 * (n + 1) = (byteBits c).length + 8 * n := by
            rw [length_byteBits]
            omega
          rw [bytesBits_cons, hlength, List.drop_length_add_append, ih]
          rfl

theorem take_bytesBits (n : ℕ) (bytes : List UInt8) :
    (bytesBits bytes).take (8 * n) = bytesBits (bytes.take n) := by
  induction n generalizing bytes with
  | zero => rfl
  | succ n ih =>
      cases bytes with
      | nil => simp
      | cons c bytes =>
          have hlength : 8 * (n + 1) = (byteBits c).length + 8 * n := by
            rw [length_byteBits]
            omega
          rw [bytesBits_cons, hlength, List.take_length_add_append, ih]
          rfl

theorem ofBits_byteBits (c : UInt8) : ofBits (byteBits c) = c.toNat :=
  (ofBits_bits 8 _).trans (Nat.mod_eq_of_lt c.toNat_lt)

/-- Bytes are the digits of a number to the base 256. -/
theorem ofBits_bytesBits_cons (c : UInt8) (bytes : List UInt8) :
    ofBits (bytesBits (c :: bytes)) = c.toNat * 256 ^ bytes.length + ofBits (bytesBits bytes) := by
  have hbase : 2 ^ (8 * bytes.length) = 256 ^ bytes.length := pow_mul 2 8 bytes.length
  rw [bytesBits_cons, ofBits_append, ofBits_byteBits, length_bytesBits, hbase]

/-! ## Hexadecimal text -/

/-- The lower-case digit of a number below sixteen. -/
def hexDigit (n : ℕ) : UInt8 := if n < 10 then (48 + n).toUInt8 else (87 + n).toUInt8

/-- The hexadecimal text of a bit string, four bits a digit. -/
def hexText : List Bool → List UInt8
  | b₃ :: b₂ :: b₁ :: b₀ :: rest => hexDigit (ofBits [b₃, b₂, b₁, b₀]) :: hexText rest
  | _ => []

theorem hexText_append {xs : List Bool} (h : xs.length % 4 = 0) (ys : List Bool) :
    hexText (xs ++ ys) = hexText xs ++ hexText ys := by
  fun_induction hexText xs with
  | case1 b₃ b₂ b₁ b₀ rest ih =>
      have hrest : rest.length % 4 = 0 := by
        simp only [List.length_cons] at h
        omega
      simp [hexText, ih hrest]
  | case2 xs hshort =>
      match xs, h, hshort with
      | [], _, _ => rfl
      | [_], h, _ => simp at h
      | [_, _], h, _ => simp at h
      | [_, _, _], h, _ => simp at h
      | b₃ :: b₂ :: b₁ :: b₀ :: rest, _, hshort => exact absurd rfl (hshort b₃ b₂ b₁ b₀ rest)

/-- The next four bits of a number are its next hexadecimal digit. -/
theorem hexText_bits_succ (n value : ℕ) :
    hexText (bits (4 * (n + 1)) value) = hexText (bits (4 * n) (value / 16)) ++
      [hexDigit (value % 16)] := by
  have hsplit : bits (4 * n + 4) value = bits (4 * n) (value / 16) ++ bits 4 value :=
    bits_append (4 * n) 4 value
  have hlast : hexText (bits 4 value) = [hexDigit (value % 16)] := by
    have hvalue : ofBits (bits 4 value) = value % 16 := ofBits_bits 4 value
    show [hexDigit (ofBits (bits 4 value))] = _
    rw [hvalue]
  rw [Nat.mul_succ, hsplit, hexText_append (by simp), hlast]

end Warehouse.Digest
