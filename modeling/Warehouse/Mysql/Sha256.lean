/-
# Warehouse.Mysql.Sha256 — `sha256Hex` computes SHA-256

`sha256.cpp`.  Words are `UInt32`, so all word arithmetic is modulo 2^32.  The arrays have their
sizes in their types, and the padded input carries the proof that it consists of whole blocks, so
every read of the loops is one inside the bounds.
-/
import Mathlib.Analysis.SpecialFunctions.Pow.NthRootLemmas
import Warehouse.Digest.Fips180
import Warehouse.Text

namespace Warehouse.Mysql

open Warehouse.Digest

/-! ## The code -/

/-- `kRound` -/
def kRound : Vector UInt32 64 :=
  #v[0x428a2f98, 0x71374491, 0xb5c0fbcf, 0xe9b5dba5, 0x3956c25b, 0x59f111f1, 0x923f82a4, 0xab1c5ed5,
    0xd807aa98, 0x12835b01, 0x243185be, 0x550c7dc3, 0x72be5d74, 0x80deb1fe, 0x9bdc06a7, 0xc19bf174,
    0xe49b69c1, 0xefbe4786, 0x0fc19dc6, 0x240ca1cc, 0x2de92c6f, 0x4a7484aa, 0x5cb0a9dc, 0x76f988da,
    0x983e5152, 0xa831c66d, 0xb00327c8, 0xbf597fc7, 0xc6e00bf3, 0xd5a79147, 0x06ca6351, 0x14292967,
    0x27b70a85, 0x2e1b2138, 0x4d2c6dfc, 0x53380d13, 0x650a7354, 0x766a0abb, 0x81c2c92e, 0x92722c85,
    0xa2bfe8a1, 0xa81a664b, 0xc24b8b70, 0xc76c51a3, 0xd192e819, 0xd6990624, 0xf40e3585, 0x106aa070,
    0x19a4c116, 0x1e376c08, 0x2748774c, 0x34b0bcb5, 0x391c0cb3, 0x4ed8aa4a, 0x5b9cca4f, 0x682e6ff3,
    0x748f82ee, 0x78a5636f, 0x84c87814, 0x8cc70208, 0x90befffa, 0xa4506ceb, 0xbef9a3f7, 0xc67178f2]

/-- `rotate` -/
def rotate (value count : UInt32) : UInt32 := (value >>> count) ||| (value <<< (32 - count))

/-- `while (bytes.size() % 64U != 56U) bytes.push_back(0)` -/
def pushZeros (bytes : Bytes) : Bytes :=
  if bytes.length % 64 ≠ 56 then pushZeros (bytes ++ [0]) else bytes
termination_by (120 - bytes.length % 64) % 64
decreasing_by
  rw [List.length_append, List.length_singleton]
  omega

/-- The loop that pushes the length, highest byte first. -/
def pushLength (bitLength : UInt64) (bytes : Bytes) : Bytes :=
  [56, 48, 40, 32, 24, 16, 8, 0].foldl
    (fun bytes (shift : UInt64) => bytes ++ [(bitLength >>> shift).toUInt8]) bytes

/-- The bytes of the input as the block loop reads them. -/
def paddedBytes (input : Bytes) : Bytes :=
  -- a `std::size_t` has 64 bits
  let bitLength := UInt64.ofNat input.length * 8
  pushLength bitLength (pushZeros (input ++ [0x80]))

/-- Whole blocks of 64 bytes. -/
structure Blocks where
  bytes : Bytes
  whole : bytes.length % 64 = 0

/-- The number of blocks. -/
def Blocks.count (blocks : Blocks) : ℕ := blocks.bytes.length / 64

/-- `words[i]` of the first loop over a block, which begins at `64 * k`. -/
def Blocks.word (blocks : Blocks) (k : Fin blocks.count) (i : Fin 16) : UInt32 :=
  let position := 64 * k.val + i.val * 4
  have hbounds : position + 3 < blocks.bytes.length := by
    have hk : k.val < blocks.bytes.length / 64 := k.isLt
    omega
  (blocks.bytes[position].toUInt32 <<< 24) ||| (blocks.bytes[position + 1].toUInt32 <<< 16) |||
    (blocks.bytes[position + 2].toUInt32 <<< 8) ||| blocks.bytes[position + 3].toUInt32

/-- One turn of the second loop. -/
def extendWords (words : Vector UInt32 64) (t : Fin 48) : Vector UInt32 64 :=
  let i := 16 + t.val
  let s0 := rotate words[i - 15] 7 ^^^ rotate words[i - 15] 18 ^^^ (words[i - 15] >>> 3)
  let s1 := rotate words[i - 2] 17 ^^^ rotate words[i - 2] 19 ^^^ (words[i - 2] >>> 10)
  words.set i (words[i - 16] + s0 + words[i - 7] + s1)

/-- The words of a block. -/
def Blocks.words (blocks : Blocks) (k : Fin blocks.count) : Vector UInt32 64 :=
  let words := Fin.foldl 16 (fun words i => words.set i (blocks.word k i)) (Vector.replicate 64 0)
  Fin.foldl 48 extendWords words

/-- The local variables `a` to `h`, and `hash`. -/
structure HashWords where
  a : UInt32
  b : UInt32
  c : UInt32
  d : UInt32
  e : UInt32
  f : UInt32
  g : UInt32
  h : UInt32
  deriving DecidableEq

/-- One turn of the third loop. -/
def HashWords.turn (v : HashWords) (k w : UInt32) : HashWords :=
  let s1 := rotate v.e 6 ^^^ rotate v.e 11 ^^^ rotate v.e 25
  let choose := (v.e &&& v.f) ^^^ (~~~v.e &&& v.g)
  let temp1 := v.h + s1 + choose + k + w
  let s0 := rotate v.a 2 ^^^ rotate v.a 13 ^^^ rotate v.a 22
  let majority := (v.a &&& v.b) ^^^ (v.a &&& v.c) ^^^ (v.b &&& v.c)
  let temp2 := s0 + majority
  { h := v.g, g := v.f, f := v.e, e := v.d + temp1, d := v.c, c := v.b, b := v.a, a := temp1 + temp2 }

/-- The third loop and the additions behind it. -/
def HashWords.absorb (hash : HashWords) (words : Vector UInt32 64) : HashWords :=
  let v := Fin.foldl 64 (fun v i => v.turn kRound[i] words[i]) hash
  { a := hash.a + v.a, b := hash.b + v.b, c := hash.c + v.c, d := hash.d + v.d
    e := hash.e + v.e, f := hash.f + v.f, g := hash.g + v.g, h := hash.h + v.h }

/-- The first value of `hash`. -/
def firstHash : HashWords :=
  ⟨0x6a09e667, 0xbb67ae85, 0x3c6ef372, 0xa54ff53a, 0x510e527f, 0x9b05688c, 0x1f83d9ab, 0x5be0cd19⟩

/-- The loop over the blocks; `block` is `64 * k`. -/
def Blocks.hash (blocks : Blocks) : HashWords :=
  Fin.foldl blocks.count (fun hash k => hash.absorb (blocks.words k)) firstHash

/-- `out << std::hex << std::setfill('0') << std::setw(8) << word` -/
def printWord (word : UInt32) : Bytes :=
  let digits := (Nat.toDigits 16 word.toNat).map fun c => c.toNat.toUInt8
  List.replicate (8 - digits.length) 48 ++ digits

/-! ## Padding -/

theorem pushZeros_eq (bytes : Bytes) : pushZeros bytes =
    bytes ++ List.replicate ((120 - bytes.length % 64) % 64) 0 := by
  fun_induction pushZeros bytes with
  | case1 bytes hmore ih =>
      have hcount : (120 - bytes.length % 64) % 64 =
          (120 - (bytes ++ [(0 : UInt8)]).length % 64) % 64 + 1 := by
        rw [List.length_append, List.length_singleton]
        omega
      rw [ih, hcount, List.replicate_succ, List.append_assoc]
      rfl
  | case2 bytes hdone =>
      have hcount : (120 - bytes.length % 64) % 64 = 0 := by omega
      rw [hcount]
      simp

theorem length_pushLength (bitLength : UInt64) (bytes : Bytes) :
    (pushLength bitLength bytes).length = bytes.length + 8 := by
  simp [pushLength]

/-- The loop stops with whole blocks. -/
theorem length_paddedBytes (input : Bytes) : (paddedBytes input).length % 64 = 0 := by
  unfold paddedBytes
  rw [length_pushLength, pushZeros_eq]
  simp only [List.length_append, List.length_replicate, List.length_singleton]
  omega

/-- The padded input, as the block loop sees it. -/
def padInput (input : Bytes) : Blocks := ⟨paddedBytes input, length_paddedBytes input⟩

/-- `sha256Hex` -/
def sha256Hex (input : Bytes) : Bytes :=
  let hash := (padInput input).hash
  [hash.a, hash.b, hash.c, hash.d, hash.e, hash.f, hash.g, hash.h].flatMap printWord

/-! ## The padding of the standard -/

section Padding

variable {input : Bytes}

/-- One byte of the length. -/
theorem byteBits_shift {value : UInt64} {shift : UInt64} (h : shift.toNat < 64) :
    byteBits (value >>> shift).toUInt8 = bits 8 (value.toNat / 2 ^ shift.toNat) := by
  have hbyte : (value >>> shift).toUInt8.toNat = value.toNat / 2 ^ shift.toNat % 2 ^ 8 := by
    rw [UInt64.toNat_toUInt8, UInt64.toNat_shiftRight, Nat.mod_eq_of_lt h, Nat.shiftRight_eq_div_pow]
  unfold byteBits
  rw [hbyte, bits_mod]

/-- The eight bytes of the length are its 64 bits. -/
theorem bytesBits_pushLength (bitLength : UInt64) (bytes : Bytes) :
    bytesBits (pushLength bitLength bytes) = bytesBits bytes ++ bits 64 bitLength.toNat := by
  have hbits : bits 64 bitLength.toNat =
      bits 8 (bitLength.toNat / 2 ^ 56) ++ (bits 8 (bitLength.toNat / 2 ^ 48) ++
      (bits 8 (bitLength.toNat / 2 ^ 40) ++ (bits 8 (bitLength.toNat / 2 ^ 32) ++
      (bits 8 (bitLength.toNat / 2 ^ 24) ++ (bits 8 (bitLength.toNat / 2 ^ 16) ++
      (bits 8 (bitLength.toNat / 2 ^ 8) ++ bits 8 bitLength.toNat)))))) := by
    rw [← bits_append 8 8, ← bits_append 8 16, ← bits_append 8 24, ← bits_append 8 32,
      ← bits_append 8 40, ← bits_append 8 48, ← bits_append 8 56]
  have hshift : ∀ shift : UInt64, shift.toNat < 64 → byteBits (bitLength >>> shift).toUInt8 =
      bits 8 (bitLength.toNat / 2 ^ shift.toNat) := fun shift h => byteBits_shift h
  rw [hbits]
  simp only [pushLength, List.foldl_cons, List.foldl_nil, bytesBits_append, bytesBits_cons,
    bytesBits_nil, List.append_assoc, List.append_nil]
  rw [hshift 56 (by decide), hshift 48 (by decide), hshift 40 (by decide), hshift 32 (by decide),
    hshift 24 (by decide), hshift 16 (by decide), hshift 8 (by decide), hshift 0 (by decide)]
  simp

/-- The zeros of the standard: those behind the first bit of `0x80`, and those that are pushed. -/
theorem zeroBits_bytes (n : ℕ) :
    Fips180.zeroBits (8 * n) = 7 + 8 * ((120 - (n + 1) % 64) % 64) :=
  Fips180.zeroBits_eq (by omega) (by omega)

/-- The input is padded as the standard has it. -/
theorem bytesBits_paddedBytes (h : input.length < 2 ^ 61) :
    bytesBits (paddedBytes input) = Fips180.pad (bytesBits input) := by
  have hlength : (UInt64.ofNat input.length * 8).toNat = 8 * input.length := by
    rw [UInt64.toNat_mul, UInt64.toNat_ofNat']
    show input.length % 2 ^ 64 * 8 % 2 ^ 64 = _
    omega
  have hmarker : byteBits 0x80 = true :: List.replicate 7 false := by decide
  unfold paddedBytes Fips180.pad
  rw [bytesBits_pushLength, hlength, pushZeros_eq, length_bytesBits, zeroBits_bytes,
    List.replicate_add, List.length_append, List.length_singleton, bytesBits_append,
    bytesBits_append, bytesBits_zeros, bytesBits_cons, hmarker]
  simp

end Padding

/-! ## Words and constants -/

section Words

variable {blocks : Blocks}

theorem toNat_shiftLeft_byte (b : UInt8) {count : UInt32} (h : count.toNat ≤ 24) :
    (b.toUInt32 <<< count).toNat = 2 ^ count.toNat * b.toNat := by
  have hbyte : b.toNat < 2 ^ 8 := b.toNat_lt
  have hpower : 2 ^ count.toNat ≤ 2 ^ 24 := Nat.pow_le_pow_right (by omega) h
  have hbound : 2 ^ count.toNat * b.toNat < 2 ^ 32 := by
    calc 2 ^ count.toNat * b.toNat ≤ 2 ^ 24 * b.toNat := Nat.mul_le_mul_right _ hpower
      _ < 2 ^ 32 := by omega
  have hcount : count.toNat % 32 = count.toNat := Nat.mod_eq_of_lt (by omega)
  rw [UInt32.toNat_shiftLeft, UInt8.toNat_toUInt32, hcount, Nat.shiftLeft_eq, Nat.mul_comm,
    Nat.mod_eq_of_lt hbound]

/-- The shifts put four bytes together as the digits of a number to the base 256. -/
theorem toNat_word (b₀ b₁ b₂ b₃ : UInt8) :
    ((b₀.toUInt32 <<< 24) ||| (b₁.toUInt32 <<< 16) ||| (b₂.toUInt32 <<< 8) ||| b₃.toUInt32).toNat =
      ofBits (bytesBits [b₀, b₁, b₂, b₃]) := by
  have h₀ : b₀.toNat < 2 ^ 8 := b₀.toNat_lt
  have h₁ : b₁.toNat < 2 ^ 8 := b₁.toNat_lt
  have h₂ : b₂.toNat < 2 ^ 8 := b₂.toNat_lt
  have h₃ : b₃.toNat < 2 ^ 8 := b₃.toNat_lt
  have hfirst : 2 ^ 24 * b₀.toNat ||| 2 ^ 16 * b₁.toNat = 2 ^ 16 * (2 ^ 8 * b₀.toNat + b₁.toNat) := by
    rw [← Nat.two_pow_add_eq_or_of_lt (by omega)]
    omega
  have hsecond : 2 ^ 16 * (2 ^ 8 * b₀.toNat + b₁.toNat) ||| 2 ^ 8 * b₂.toNat =
      2 ^ 8 * (2 ^ 8 * (2 ^ 8 * b₀.toNat + b₁.toNat) + b₂.toNat) := by
    rw [← Nat.two_pow_add_eq_or_of_lt (by omega)]
    omega
  have hthird : 2 ^ 8 * (2 ^ 8 * (2 ^ 8 * b₀.toNat + b₁.toNat) + b₂.toNat) ||| b₃.toNat =
      2 ^ 8 * (2 ^ 8 * (2 ^ 8 * b₀.toNat + b₁.toNat) + b₂.toNat) + b₃.toNat :=
    (Nat.two_pow_add_eq_or_of_lt h₃ _).symm
  rw [UInt32.toNat_or, UInt32.toNat_or, UInt32.toNat_or, toNat_shiftLeft_byte b₀ (by decide),
    toNat_shiftLeft_byte b₁ (by decide), toNat_shiftLeft_byte b₂ (by decide), UInt8.toNat_toUInt32]
  show 2 ^ 24 * b₀.toNat ||| 2 ^ 16 * b₁.toNat ||| 2 ^ 8 * b₂.toNat ||| b₃.toNat = _
  rw [hfirst, hsecond, hthird]
  simp only [ofBits_bytesBits_cons, bytesBits_nil, List.length_cons, List.length_nil]
  show _ = _ + (_ + (_ + (_ + 0)))
  omega

/-- The four bytes at a position. -/
theorem take_drop_four {bytes : Bytes} {position : ℕ} (h : position + 3 < bytes.length) :
    (bytes.drop position).take 4 =
      [bytes[position], bytes[position + 1], bytes[position + 2], bytes[position + 3]] := by
  rw [List.drop_eq_getElem_cons, List.drop_eq_getElem_cons, List.drop_eq_getElem_cons,
    List.drop_eq_getElem_cons]
  rfl

/-- The code reads the words of the standard. -/
theorem toBitVec_word (k : Fin blocks.count) (i : Fin 16) :
    (blocks.word k i).toBitVec = Fips180.blockWord (bytesBits blocks.bytes) k i := by
  have hbounds : 64 * k.val + i.val * 4 + 3 < blocks.bytes.length := by
    have hk : k.val < blocks.bytes.length / 64 := k.isLt
    omega
  have hposition : 512 * k.val + 32 * i.val = 8 * (64 * k.val + i.val * 4) := by omega
  have hwidth : 32 = 8 * 4 := rfl
  unfold Fips180.blockWord Blocks.word
  rw [hposition, drop_bytesBits]
  nth_rewrite 3 [hwidth]
  rw [take_bytesBits, take_drop_four hbounds, ← toNat_word]
  apply BitVec.eq_of_toNat_eq
  rw [BitVec.toNat_ofNat]
  exact (Nat.mod_eq_of_lt (UInt32.toNat_lt _)).symm

/-- The two shifts of `rotate` are a rotation. -/
theorem toBitVec_rotate (x : UInt32) {count : UInt32} (hpos : 0 < count.toNat)
    (hlt : count.toNat < 32) : (rotate x count).toBitVec = x.toBitVec.rotateRight count.toNat := by
  have hwidth : (32 : UInt32).toNat = 32 := rfl
  have hrest : (32 - count).toNat = 32 - count.toNat :=
    UInt32.toNat_sub_of_le _ _ (UInt32.le_iff_toNat_le.mpr (by omega))
  have hright : (count.toBitVec % 32).toNat = count.toNat := Nat.mod_eq_of_lt hlt
  have hleft : ((32 - count).toBitVec % 32).toNat = 32 - count.toNat := by
    show (32 - count).toNat % 32 = _
    rw [hrest]
    omega
  unfold rotate BitVec.rotateRight BitVec.rotateRightAux
  rw [UInt32.toBitVec_or, UInt32.toBitVec_shiftRight, UInt32.toBitVec_shiftLeft,
    BitVec.ushiftRight_eq', BitVec.shiftLeft_eq', Nat.mod_eq_of_lt hlt]
  show x.toBitVec >>> (count.toBitVec % 32).toNat ||| x.toBitVec <<< ((32 - count).toBitVec % 32).toNat = _
  rw [hright, hleft]

theorem toBitVec_smallSigma0 (x : UInt32) :
    (rotate x 7 ^^^ rotate x 18 ^^^ (x >>> 3)).toBitVec = Fips180.sigma0 x.toBitVec := by
  rw [UInt32.toBitVec_xor, UInt32.toBitVec_xor, toBitVec_rotate x (by decide) (by decide),
    toBitVec_rotate x (by decide) (by decide)]
  rfl

theorem toBitVec_smallSigma1 (x : UInt32) :
    (rotate x 17 ^^^ rotate x 19 ^^^ (x >>> 10)).toBitVec = Fips180.sigma1 x.toBitVec := by
  rw [UInt32.toBitVec_xor, UInt32.toBitVec_xor, toBitVec_rotate x (by decide) (by decide),
    toBitVec_rotate x (by decide) (by decide)]
  rfl

theorem toBitVec_bigSigma0 (x : UInt32) :
    (rotate x 2 ^^^ rotate x 13 ^^^ rotate x 22).toBitVec = Fips180.bigSigma0 x.toBitVec := by
  rw [UInt32.toBitVec_xor, UInt32.toBitVec_xor, toBitVec_rotate x (by decide) (by decide),
    toBitVec_rotate x (by decide) (by decide), toBitVec_rotate x (by decide) (by decide)]
  rfl

theorem toBitVec_bigSigma1 (x : UInt32) :
    (rotate x 6 ^^^ rotate x 11 ^^^ rotate x 25).toBitVec = Fips180.bigSigma1 x.toBitVec := by
  rw [UInt32.toBitVec_xor, UInt32.toBitVec_xor, toBitVec_rotate x (by decide) (by decide),
    toBitVec_rotate x (by decide) (by decide), toBitVec_rotate x (by decide) (by decide)]
  rfl

theorem nthRoot_eq_of_pow {n value root : ℕ} (hn : n ≠ 0) (hle : root ^ n ≤ value)
    (hlt : value < (root + 1) ^ n) : Nat.nthRoot n value = root := by
  have hatLeast : root ≤ Nat.nthRoot n value := (Nat.le_nthRoot_iff hn).mpr hle
  have hatMost : Nat.nthRoot n value < root + 1 :=
    (Nat.pow_lt_pow_iff_left hn).mp (lt_of_le_of_lt (Nat.pow_nthRoot_le (.inl hn)) hlt)
  omega

/-- The integer part of a root of a small prime. -/
def wholeRoot (n p : ℕ) : ℕ := ((List.range 20).filter fun r => r ^ n ≤ p).length - 1

/-- A word is the first 32 bits behind the point of the `n`th root of `p`. -/
def RootFraction (n p : ℕ) (word : UInt32) : Prop :=
  (wholeRoot n p * 2 ^ 32 + word.toNat) ^ n ≤ p * 2 ^ (32 * n) ∧
    p * 2 ^ (32 * n) < (wholeRoot n p * 2 ^ 32 + word.toNat + 1) ^ n

instance (n p : ℕ) (word : UInt32) : Decidable (RootFraction n p word) :=
  inferInstanceAs (Decidable (_ ∧ _))

theorem RootFraction.toBitVec {n p : ℕ} {word : UInt32} (h : RootFraction n p word) (hn : n ≠ 0) :
    word.toBitVec = BitVec.ofNat 32 (Nat.nthRoot n (p * 2 ^ (32 * n))) := by
  obtain ⟨hle, hlt⟩ := h
  rw [nthRoot_eq_of_pow hn hle hlt]
  apply BitVec.eq_of_toNat_eq
  rw [BitVec.toNat_ofNat]
  show word.toNat = _
  have hword := word.toNat_lt
  omega

/-- `kRound` is the table of the standard. -/
theorem kRound_eq (t : Fin 64) : (kRound[t] : UInt32).toBitVec = Fips180.K t := by
  have hroots : ∀ t : Fin 64, RootFraction 3 (Fips180.primes.getD t 0) kRound[t] := by
    decide +kernel
  exact (hroots t).toBitVec (by omega)

end Words

/-! ## Loops -/

section Loops

variable {blocks : Blocks}

/-- What the turns of a loop keep holds behind the loop. -/
theorem foldl_invariant {σ : Type} {n : ℕ} {turn : σ → Fin n → σ} {start : σ} {P : ℕ → σ → Prop}
    (hstart : P 0 start) (hturn : ∀ (i : Fin n) s, P i s → P (i + 1) (turn s i)) :
    P n (Fin.foldl n turn start) := by
  induction n with
  | zero => simpa using hstart
  | succ n ih =>
      rw [Fin.foldl_succ_last]
      exact hturn (Fin.last n) _ (ih fun i s => hturn i.castSucc s)

/-- The words before position `n` are those of the schedule. -/
def Scheduled (block : ℕ → Fips180.Word) (n : ℕ) (words : Vector UInt32 64) : Prop :=
  ∀ t (h : t < 64), t < n → words[t].toBitVec = Fips180.schedule block t

variable {block : ℕ → Fips180.Word} {words : Vector UInt32 64}

/-- The next word is written, and the ones before it stay. -/
theorem Scheduled.set {n : ℕ} {word : UInt32} (h : Scheduled block n words) (hn : n < 64)
    (hword : word.toBitVec = Fips180.schedule block n) :
    Scheduled block (n + 1) (words.set n word) := by
  intro t ht hlt
  rcases Nat.lt_succ_iff_lt_or_eq.mp hlt with hbefore | rfl
  · rw [Vector.getElem_set_ne _ _ (by omega)]
    exact h t ht hbefore
  · rw [Vector.getElem_set_self]
    exact hword

/-- A turn of the second loop follows the recurrence. -/
theorem Scheduled.extendWords {t : Fin 48} (h : Scheduled block (16 + t) words) :
    Scheduled block (16 + (t + 1)) (extendWords words t) := by
  have hback : ∀ {d : ℕ} (_ : 0 < d ∧ d ≤ 16) (_ : 16 + t.val - d < 64),
      words[16 + t.val - d].toBitVec = Fips180.schedule block (16 + t.val - d) :=
    fun _ hlt => h _ hlt (by omega)
  apply h.set (by omega)
  rw [Fips180.schedule_later, UInt32.toBitVec_add, UInt32.toBitVec_add, UInt32.toBitVec_add,
    toBitVec_smallSigma0, toBitVec_smallSigma1, hback (by omega) (by omega),
    hback (by omega) (by omega), hback (by omega) (by omega), hback (by omega) (by omega)]
  ac_rfl

/-- The words of a block are those of the schedule. -/
theorem scheduled_words (k : Fin blocks.count) :
    Scheduled (Fips180.blockWord (bytesBits blocks.bytes) k) 64 (blocks.words k) := by
  have hinput : Scheduled (Fips180.blockWord (bytesBits blocks.bytes) k) 16
      (Fin.foldl 16 (fun words i => words.set i (blocks.word k i)) (Vector.replicate 64 0)) := by
    refine foldl_invariant (fun t ht hlt => absurd hlt (Nat.not_lt_zero t)) ?_
    intro i words hwords
    apply hwords.set (by omega)
    rw [toBitVec_word, Fips180.schedule_input i.isLt]
  exact foldl_invariant (P := fun n => Scheduled _ (16 + n)) hinput fun t words h => h.extendWords
/-- The variables as words of the standard. -/
def HashWords.variables (v : HashWords) : Fips180.Variables where
  a := v.a.toBitVec
  b := v.b.toBitVec
  c := v.c.toBitVec
  d := v.d.toBitVec
  e := v.e.toBitVec
  f := v.f.toBitVec
  g := v.g.toBitVec
  h := v.h.toBitVec

/-- A turn of the third loop is a round of the standard. -/
theorem variables_turn (v : HashWords) (k w : UInt32) :
    (v.turn k w).variables = v.variables.round k.toBitVec w.toBitVec := by
  unfold HashWords.turn Fips180.Variables.round HashWords.variables
  simp only [UInt32.toBitVec_add, toBitVec_bigSigma0, toBitVec_bigSigma1]
  rfl

/-- The third loop and the additions are the compression of a block. -/
theorem variables_absorb {hash : HashWords} (h : Scheduled block 64 words) :
    (hash.absorb words).variables = hash.variables.add (hash.variables.rounds block 64) := by
  have hrounds : (Fin.foldl 64 (fun (v : HashWords) i => v.turn kRound[i] words[i]) hash).variables =
      hash.variables.rounds block 64 := by
    refine foldl_invariant (P := fun n v => HashWords.variables v = hash.variables.rounds block n)
      rfl ?_
    intro t v hv
    have hword : (words[t] : UInt32).toBitVec = Fips180.schedule block t := h t t.isLt t.isLt
    rw [variables_turn, hv, kRound_eq, hword]
    rfl
  rw [← hrounds]
  rfl

/-- The first value of `hash` is the initial hash value of the standard. -/
theorem variables_firstHash : firstHash.variables = Fips180.initialHash := by
  have hroot : ∀ {t : ℕ} {word : UInt32}, RootFraction 2 (Fips180.primes.getD t 0) word →
      word.toBitVec = Fips180.initialWord t := fun h => h.toBitVec (by omega)
  have ha : firstHash.a.toBitVec = Fips180.initialWord 0 := hroot (by decide +kernel)
  have hb : firstHash.b.toBitVec = Fips180.initialWord 1 := hroot (by decide +kernel)
  have hc : firstHash.c.toBitVec = Fips180.initialWord 2 := hroot (by decide +kernel)
  have hd : firstHash.d.toBitVec = Fips180.initialWord 3 := hroot (by decide +kernel)
  have he : firstHash.e.toBitVec = Fips180.initialWord 4 := hroot (by decide +kernel)
  have hf : firstHash.f.toBitVec = Fips180.initialWord 5 := hroot (by decide +kernel)
  have hg : firstHash.g.toBitVec = Fips180.initialWord 6 := hroot (by decide +kernel)
  have hh : firstHash.h.toBitVec = Fips180.initialWord 7 := hroot (by decide +kernel)
  unfold HashWords.variables Fips180.initialHash
  rw [ha, hb, hc, hd, he, hf, hg, hh]

/-- The loop over the blocks goes through the hash values of the standard. -/
theorem variables_hash (blocks : Blocks) :
    blocks.hash.variables = Fips180.hashes (bytesBits blocks.bytes) blocks.count := by
  refine foldl_invariant
    (P := fun n hash => HashWords.variables hash = Fips180.hashes (bytesBits blocks.bytes) n)
    variables_firstHash ?_
  intro k hash hhash
  rw [variables_absorb (scheduled_words k), hhash]
  rfl

end Loops

/-! ## The text of the digest -/

theorem hexDigit_digitChar {d : ℕ} (h : d < 16) : (Nat.digitChar d).toNat.toUInt8 = hexDigit d := by
  have hall : ∀ d : Fin 16, (Nat.digitChar d).toNat.toUInt8 = hexDigit d := by decide
  exact hall ⟨d, h⟩

theorem hexText_zeros (width : ℕ) : hexText (bits (4 * width) 0) = List.replicate width 48 := by
  induction width with
  | zero => rfl
  | succ width ih =>
      rw [hexText_bits_succ, ih, List.replicate_succ']
      rfl

/-- `std::hex` and the fill character, for a number of at most `width` digits. -/
theorem hex_filled {width n : ℕ} (h : n < 16 ^ (width + 1)) :
    List.replicate (width + 1 - (Nat.toDigits 16 n).length) 48 ++
      (Nat.toDigits 16 n).map (fun c => c.toNat.toUInt8) = hexText (bits (4 * (width + 1)) n) := by
  induction width generalizing n with
  | zero =>
      have hn : n < 16 := by omega
      rw [Nat.toDigits_of_lt_base hn, hexText_bits_succ, Nat.mod_eq_of_lt hn, ← hexDigit_digitChar hn]
      rfl
  | succ width ih =>
      rw [hexText_bits_succ, Nat.toDigits_eq_if (by omega)]
      split
      · rename_i hn
        rw [Nat.div_eq_of_lt hn, Nat.mod_eq_of_lt hn, hexText_zeros, ← hexDigit_digitChar hn]
        rfl
      · have hdigit : n % 16 < 16 := Nat.mod_lt n (by omega)
        rw [← hexDigit_digitChar hdigit, ← ih (by rw [pow_succ] at h; omega), List.map_append,
          List.length_append, List.length_singleton, List.append_assoc, List.map_singleton,
          Nat.add_sub_add_right]

/-- A word is printed with eight digits. -/
theorem printWord_eq (word : UInt32) : printWord word = hexText (bits 32 word.toBitVec.toNat) := by
  have hword : word.toNat < 16 ^ 8 := word.toNat_lt
  have hfilled : _ = hexText (bits (4 * 8) word.toNat) := hex_filled hword
  rw [← List.length_map (fun c : Char => c.toNat.toUInt8)] at hfilled
  exact hfilled

/-- The words are printed as the bits of the digest. -/
theorem flatMap_printWord (words : List UInt32) : words.flatMap printWord =
    hexText ((words.map UInt32.toBitVec).flatMap fun word => bits 32 word.toNat) := by
  induction words with
  | nil => rfl
  | cons word words ih =>
      rw [List.flatMap_cons, List.map_cons, List.flatMap_cons, hexText_append (by simp), ← ih,
        printWord_eq]

theorem length_printWord (word : UInt32) : (printWord word).length = 8 := by
  have hdigits : (Nat.toDigits 16 word.toNat).length ≤ 8 :=
    (Nat.length_toDigits_le_iff (by omega) (by omega)).mpr word.toNat_lt
  simp only [printWord, List.length_append, List.length_replicate, List.length_map]
  omega

/-- `sha256Hex` is SHA-256.  For every input whose length in bits fits into 64 bits, the text is the
digest of the standard, in lower-case digits.  The padding ends with whole blocks, so no read of the
block loop leaves the bytes. -/
theorem sha256Hex_isSha256 (input : Bytes) (h : input.length < 2 ^ 61) :
    sha256Hex input = hexText (Fips180.sha256 (bytesBits input)) ∧ (sha256Hex input).length = 64 ∧
      (paddedBytes input).length % 64 = 0 ∧
      ∀ block i, block < (paddedBytes input).length → block % 64 = 0 → i < 16 →
        block + i * 4 + 3 < (paddedBytes input).length := by
  have hwhole := length_paddedBytes input
  refine ⟨?_, ?_, hwhole, ?_⟩
  · have hhash := variables_hash (padInput input)
    have hcount : (Fips180.pad (bytesBits input)).length / 512 = (padInput input).count := by
      rw [← bytesBits_paddedBytes h, length_bytesBits]
      show 8 * (paddedBytes input).length / 512 = (paddedBytes input).length / 64
      omega
    unfold Fips180.sha256
    rw [hcount, ← bytesBits_paddedBytes h]
    show _ = hexText (Fips180.hashes (bytesBits (padInput input).bytes) _).digest
    rw [← hhash]
    exact flatMap_printWord _
  · simp [sha256Hex, length_printWord]
  · intro block i hblock hstart hi
    omega

/-- The padded input by its bytes, without the loop. -/
theorem padInput_eq {input bytes : Bytes}
    (h : pushLength (UInt64.ofNat input.length * 8)
      (input ++ [0x80] ++ List.replicate ((120 - (input ++ [0x80]).length % 64) % 64) 0) = bytes)
    (hwhole : bytes.length % 64 = 0) : padInput input = ⟨bytes, hwhole⟩ := by
  simp only [padInput, paddedBytes, pushZeros_eq, h]

/-- The first example of the standard. -/
theorem sha256Hex_isSha256_abc : hexText (Fips180.sha256 (bytesBits (lit "abc"))) =
    lit "ba7816bf8f01cfea414140de5dae2223b00361a396177a9cb410ff61f20015ad" := by
  rw [← (sha256Hex_isSha256 (lit "abc") (by decide)).1]
  unfold sha256Hex
  rw [padInput_eq rfl (by decide +kernel)]
  decide +kernel

end Warehouse.Mysql
