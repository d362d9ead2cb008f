/-
# Warehouse.Digest.Fips180 — SHA-256 as FIPS 180-4 defines it

Messages and digests are bit strings, words are 32 bits, and addition is modulo 2^32.  The constants
are the first bits of the fractional parts of roots of primes, as the standard describes them, and
the message schedule is the recurrence of section 6.2.2.

This module names nothing of the warehouse.
-/
import Mathlib.Data.Nat.NthRoot.Defs
import Mathlib.Data.Nat.Prime.Basic
import Mathlib.Data.Nat.Find
import Mathlib.Tactic.NormNum.Prime
import Warehouse.Digest.Bits

namespace Warehouse.Digest.Fips180

/-- A word of 32 bits. -/
abbrev Word : Type := BitVec 32

/-! ## Functions and constants -/

/-- `Ch`, section 4.1.2 -/
def ch (x y z : Word) : Word := (x &&& y) ^^^ (~~~x &&& z)

/-- `Maj` -/
def maj (x y z : Word) : Word := (x &&& y) ^^^ (x &&& z) ^^^ (y &&& z)

/-- `Σ₀` -/
def bigSigma0 (x : Word) : Word := x.rotateRight 2 ^^^ x.rotateRight 13 ^^^ x.rotateRight 22

/-- `Σ₁` -/
def bigSigma1 (x : Word) : Word := x.rotateRight 6 ^^^ x.rotateRight 11 ^^^ x.rotateRight 25

/-- `σ₀` -/
def sigma0 (x : Word) : Word := x.rotateRight 7 ^^^ x.rotateRight 18 ^^^ x >>> 3

/-- `σ₁` -/
def sigma1 (x : Word) : Word := x.rotateRight 17 ^^^ x.rotateRight 19 ^^^ x >>> 10

/-- The first sixty-four primes. -/
def primes : List ℕ := (List.range 312).filter fun n => n.Prime

/-- `K`, section 4.2.2: the first 32 bits of the fractional part of the cube root of a prime. -/
def K (t : ℕ) : Word := BitVec.ofNat 32 (Nat.nthRoot 3 (primes.getD t 0 * 2 ^ 96))

/-- The words of the initial hash value, section 5.3.3: the same of the square root. -/
def initialWord (t : ℕ) : Word := BitVec.ofNat 32 (Nat.nthRoot 2 (primes.getD t 0 * 2 ^ 64))

/-! ## Preprocessing -/

theorem exists_zeroBits (length : ℕ) : ∃ k, (length + 1 + k) % 512 = 448 :=
  ⟨(959 - length % 512) % 512, by omega⟩

/-- The smallest number of zeros that leaves room for the length, section 5.1.1. -/
def zeroBits (length : ℕ) : ℕ := Nat.find (exists_zeroBits length)

/-- The padded message. -/
def pad (message : List Bool) : List Bool :=
  message ++ [true] ++ List.replicate (zeroBits message.length) false ++ bits 64 message.length

/-- Word `t` of block `i`, section 5.2.1. -/
def blockWord (padded : List Bool) (i t : ℕ) : Word :=
  BitVec.ofNat 32 (ofBits ((padded.drop (512 * i + 32 * t)).take 32))

theorem zeroBits_eq {length k : ℕ} (hlt : k < 512) (hfits : (length + 1 + k) % 512 = 448) :
    zeroBits length = k := by
  apply (Nat.find_eq_iff _).mpr
  refine ⟨hfits, ?_⟩
  intro m hm hfits'
  omega

/-! ## The computation -/

/-- The message schedule. -/
def schedule (block : ℕ → Word) (t : ℕ) : Word :=
  if t < 16 then block t
  else sigma1 (schedule block (t - 2)) + schedule block (t - 7) + sigma0 (schedule block (t - 15)) +
    schedule block (t - 16)
termination_by t

/-- The working variables, and a hash value. -/
structure Variables where
  a : Word
  b : Word
  c : Word
  d : Word
  e : Word
  f : Word
  g : Word
  h : Word
  deriving DecidableEq

/-- One turn of the compression, section 6.2.2. -/
def Variables.round (v : Variables) (k w : Word) : Variables :=
  let t₁ := v.h + bigSigma1 v.e + ch v.e v.f v.g + k + w
  let t₂ := bigSigma0 v.a + maj v.a v.b v.c
  { a := t₁ + t₂, b := v.a, c := v.b, d := v.c, e := v.d + t₁, f := v.e, g := v.f, h := v.g }

/-- The working variables after some rounds. -/
def Variables.rounds (v : Variables) (block : ℕ → Word) : ℕ → Variables
  | 0 => v
  | t + 1 => (v.rounds block t).round (K t) (schedule block t)

/-- Words are added one by one. -/
def Variables.add (v v' : Variables) : Variables where
  a := v.a + v'.a
  b := v.b + v'.b
  c := v.c + v'.c
  d := v.d + v'.d
  e := v.e + v'.e
  f := v.f + v'.f
  g := v.g + v'.g
  h := v.h + v'.h

/-- The initial hash value. -/
def initialHash : Variables :=
  ⟨initialWord 0, initialWord 1, initialWord 2, initialWord 3, initialWord 4, initialWord 5,
    initialWord 6, initialWord 7⟩

/-- The hash value after some blocks of a padded message. -/
def hashes (padded : List Bool) : ℕ → Variables
  | 0 => initialHash
  | i + 1 => (hashes padded i).add ((hashes padded i).rounds (blockWord padded i) 64)

/-- The bits of a hash value. -/
def Variables.digest (v : Variables) : List Bool :=
  [v.a, v.b, v.c, v.d, v.e, v.f, v.g, v.h].flatMap fun word => bits 32 word.toNat

/-- The digest of a message, section 6.2. -/
def sha256 (message : List Bool) : List Bool :=
  (hashes (pad message) ((pad message).length / 512)).digest

/-! ## Equations of the schedule -/

variable {block : ℕ → Word} {t : ℕ}

theorem schedule_input (h : t < 16) : schedule block t = block t := by
  rw [schedule, if_pos h]

theorem schedule_later (t : ℕ) : schedule block (16 + t) =
    sigma1 (schedule block (16 + t - 2)) + schedule block (16 + t - 7) +
      sigma0 (schedule block (16 + t - 15)) + schedule block (16 + t - 16) := by
  rw [schedule, if_neg (by omega)]

end Warehouse.Digest.Fips180
