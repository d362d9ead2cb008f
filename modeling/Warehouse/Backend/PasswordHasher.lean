/-
# Warehouse.Backend.PasswordHasher — `SodiumPasswordHasher` over libsodium

`sodium_password_hasher.cpp`, with the functions of `password_hash.cpp` that it calls.  Its members
work on copies of the texts that they are given and clear the copies, so what the caller holds is
hashed, and can be hashed again.  libsodium is a parameter; that it is right about passwords is
`Libsodium.Sound`.
-/
import Mathlib.Data.List.TakeWhile
import Warehouse.Backend.Service
import Warehouse.Bootstrap.LegacyStartup

namespace Warehouse.Backend

open Warehouse.Bootstrap

/-! ## The hasher -/

/-- libsodium, with the verification of passwords. -/
structure Libsodium extends Sodium where
  /-- `crypto_pwhash_str_verify` -/
  strVerify : Bytes → Bytes → ℤ

/-- The same libsodium after some calls of `crypto_pwhash_str`. -/
def Libsodium.after (sodium : Libsodium) (drawn : ℕ) : Sodium where
  str calls := sodium.str (drawn + calls)
  needsRehash := sodium.needsRehash

/-- `verifyPassword` -/
def Libsodium.verifyPassword (sodium : Libsodium) (hash password : Bytes) : Bool :=
  sodium.strVerify (cString hash) password = 0

/-- `passwordNeedsRehash` -/
def Libsodium.passwordNeedsRehash (sodium : Libsodium) (hash : Bytes) : Bool :=
  sodium.needsRehash (cString hash) = 1

/-- `SodiumPasswordHasher::verify` -/
def SodiumPasswordHasher.verify (sodium : Libsodium) (hash password : Bytes) : Bool :=
  let ownedHash := hash
  let ownedPassword := password
  -- behind this call `ownedPassword` is cleared
  sodium.verifyPassword ownedHash ownedPassword

/-- `SodiumPasswordHasher::needsRehash` -/
def SodiumPasswordHasher.needsRehash (sodium : Libsodium) (hash : Bytes) : Bool :=
  sodium.passwordNeedsRehash hash

/-- `SodiumPasswordHasher::hash` -/
def SodiumPasswordHasher.hash (sodium : Libsodium) (drawn : ℕ) (password : Bytes) :
    Except Bytes Bytes :=
  let ownedPassword := password
  -- behind this call `ownedPassword` is cleared
  Bootstrap.hashPassword sodium.toSodium drawn ownedPassword

/-- The surroundings of the service in production. -/
def sodiumHost (sodium : Libsodium) (token : ℕ → Bytes) : Host where
  verify := SodiumPasswordHasher.verify sodium
  needsRehash := SodiumPasswordHasher.needsRehash sodium
  hash := SodiumPasswordHasher.hash sodium
  token := token

/-! ## What is asked of libsodium -/

/-- A string verifies the password that it was produced from and no other, and only such strings
verify anything. -/
structure Libsodium.Sound (sodium : Libsodium) : Prop where
  produced : ∀ calls password output, sodium.str calls password = some output →
    sodium.strVerify (cString output) password = 0
  single : ∀ str password password', sodium.strVerify str password = 0 →
    sodium.strVerify str password' = 0 → password = password'
  spelled : ∀ str password, sodium.strVerify str password = 0 → looksLikeArgonHash str = true

section Sound

variable {sodium : Libsodium} {stored hash password password' : Bytes} {drawn : ℕ}

theorem cString_cString (value : Bytes) : cString (cString value) = cString value :=
  List.takeWhile_idem

theorem cString_leads (value : Bytes) : cString value <+: value := List.takeWhile_prefix _

/-- A text that begins like a hash up to a null byte begins like one. -/
theorem looksLikeArgonHash_of_cString (h : looksLikeArgonHash (cString stored) = true) :
    looksLikeArgonHash stored = true := by
  have hlonger : ∀ start : Bytes, start.isPrefixOf (cString stored) = true →
      start.isPrefixOf stored = true := by
    intro start hstart
    have hleads : start <+: cString stored := List.isPrefixOf_iff_prefix.mp hstart
    exact List.isPrefixOf_iff_prefix.mpr (hleads.trans (cString_leads stored))
  unfold looksLikeArgonHash at h ⊢
  rw [Bool.or_eq_true] at h ⊢
  exact h.imp (hlonger _) (hlonger _)

theorem verifies_iff : SodiumPasswordHasher.verify sodium stored password = true ↔
    sodium.strVerify (cString stored) password = 0 := decide_eq_true_iff

theorem Libsodium.Sound.unique (h : sodium.Sound)
    (hfirst : SodiumPasswordHasher.verify sodium stored password = true)
    (hsecond : SodiumPasswordHasher.verify sodium stored password' = true) : password = password' :=
  h.single _ _ _ (verifies_iff.mp hfirst) (verifies_iff.mp hsecond)

theorem Libsodium.Sound.looksLike (h : sodium.Sound)
    (hverified : SodiumPasswordHasher.verify sodium stored password = true) :
    looksLikeArgonHash stored = true :=
  looksLikeArgonHash_of_cString (h.spelled _ _ (verifies_iff.mp hverified))

/-- What is produced from a password verifies that password, and no other. -/
theorem Libsodium.Sound.verifies_hash (h : sodium.Sound)
    (hhashed : Bootstrap.hashPassword sodium.toSodium drawn password = .ok hash) :
    SodiumPasswordHasher.verify sodium hash password' = true ↔ password' = password := by
  have hself : SodiumPasswordHasher.verify sodium hash password = true := by
    unfold Bootstrap.hashPassword at hhashed
    split at hhashed
    · cases hhashed
    · rename_i output hdrawn
      cases hhashed
      rw [verifies_iff, cString_cString]
      exact h.produced _ _ _ hdrawn
  constructor
  · intro hverified
    exact h.unique hverified hself
  · rintro rfl
    exact hself

theorem Libsodium.hash_after {calls : ℕ}
    (h : Bootstrap.hashPassword (sodium.after drawn) calls password = .ok hash) :
    Bootstrap.hashPassword sodium.toSodium (drawn + calls) password = .ok hash := h

/-- The check takes for plaintext what does not begin like a hash. -/
theorem classify_plaintext_iff {sodium : Sodium} :
    classifyStoredPassword sodium stored = .legacyPlaintext ↔ looksLikeArgonHash stored = false := by
  unfold classifyStoredPassword
  cases looksLikeArgonHash stored with
  | false => simp
  | true =>
      simp only [Bool.not_true, Bool.false_eq_true, if_false]
      split <;> simp

end Sound

end Warehouse.Backend
