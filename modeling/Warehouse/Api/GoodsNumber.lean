/-
# Warehouse.Api.GoodsNumber — goods numbers on the wire

The HTTP layer writes the id of goods as `G` and at least six digits (`formattedGoodsId` of
`legacy_http_server.cpp`); the application layer reads it back (`parseGoodsId` of
`legacy_warehouse_service.cpp`).  The two modules share no code, so that they are inverse to each
other is shown here, together with what exactly the reader accepts.
-/
import Warehouse.Application.WarehouseService

namespace Warehouse

/-! ## The writer -/

/-- Inserting a `std::int64_t` into a stream. -/
def insertInt64 : ℤ → Bytes
  | .ofNat n => toDecimal n
  | .negSucc n => 45 :: toDecimal (n + 1)

/-- `std::setw` and `std::setfill`, with the padding in front. -/
def padded (width : ℕ) (fill : UInt8) (text : Bytes) : Bytes :=
  List.replicate (width - text.length) fill ++ text

/-- `formattedGoodsId` -/
def formattedGoodsId (id : ℤ) : Bytes := 71 :: padded 6 48 (insertInt64 id)

/-! ## The reader, digit by digit -/

/-- A digit that still fits is appended to the value; one that does not fit ends the loop. -/
theorem parseGoodsDigit_eq {value : ℕ} {c : UInt8} (hc : isdigit c) :
    parseGoodsDigit value c =
      if value * 10 + (c.toNat - 48) ≤ int64Max then some (value * 10 + (c.toNat - 48)) else none := by
  have hdigit : c.toNat - 48 ≤ 9 := by
    simp only [isdigit, Bool.and_eq_true, decide_eq_true_eq, UInt8.le_iff_toNat_le] at hc
    have hhigh : c.toNat ≤ 57 := hc.2
    omega
  have hmax : (9 : ℕ) ≤ int64Max := by decide
  unfold parseGoodsDigit
  -- dividing the room that is left by ten tells exactly whether one more digit fits
  have hguard : value > (int64Max - (c.toNat - 48)) / 10 ↔
      ¬ value * 10 + (c.toNat - 48) ≤ int64Max := by omega
  simp only [hguard, ite_not]

/-- The loop: the value of all digits, as long as it fits. -/
theorem foldlM_parseGoodsDigit {digits : Bytes} (hdigits : ∀ c ∈ digits, isdigit c) :
    digits.foldlM parseGoodsDigit 0 =
      if digitsValue digits ≤ int64Max then some (digitsValue digits) else none := by
  induction digits using List.reverseRecOn with
  | nil => rfl
  | append_singleton digits c ih =>
      have hprefix := ih fun d hd => hdigits d (List.mem_append_left _ hd)
      have hc : isdigit c := hdigits c (by simp)
      have hvalue : digitsValue (digits ++ [c]) = digitsValue digits * 10 + (c.toNat - 48) := by
        simp [digitsValue]
      rw [List.foldlM_append, hprefix, hvalue]
      by_cases hfits : digitsValue digits ≤ int64Max
      · rw [if_pos hfits]
        simp only [List.foldlM_cons, List.foldlM_nil, Option.bind_eq_bind, Option.bind_some]
        rw [parseGoodsDigit_eq hc]
        split <;> rfl
      · have hmore : ¬ digitsValue digits * 10 + (c.toNat - 48) ≤ int64Max := by omega
        rw [if_neg hfits, if_neg hmore]
        rfl

/-! ## The same loop on 64-bit words -/

/-- The loop body as the machine runs it, every operation modulo `2 ^ 64`. -/
def parseGoodsWord (value : UInt64) (character : UInt8) : Option UInt64 :=
  let digit : UInt64 := (character - 48).toUInt64
  if value > (9223372036854775807 - digit) / 10 then none else some (value * 10 + digit)

/-- No operation on a value that the loop can hold wraps around. -/
theorem parseGoodsWord_eq {value : UInt64} {c : UInt8} (hvalue : value.toNat ≤ int64Max)
    (hc : isdigit c) : (parseGoodsWord value c).map UInt64.toNat = parseGoodsDigit value.toNat c := by
  have hmax : int64Max = 9223372036854775807 := by decide
  rw [hmax] at hvalue
  simp only [isdigit, Bool.and_eq_true, decide_eq_true_eq] at hc
  have hlow : 48 ≤ c.toNat := UInt8.le_iff_toNat_le.mp hc.1
  have hhigh : c.toNat ≤ 57 := UInt8.le_iff_toNat_le.mp hc.2
  have hdigit : (c - 48).toUInt64.toNat = c.toNat - 48 := by
    rw [UInt8.toNat_toUInt64, UInt8.toNat_sub_of_le _ _ hc.1]
    rfl
  have hroom : (9223372036854775807 - (c - 48).toUInt64).toNat = int64Max - (c.toNat - 48) := by
    rw [UInt64.toNat_sub_of_le, hdigit, hmax]
    · rfl
    · rw [UInt64.le_iff_toNat_le, hdigit]
      show c.toNat - 48 ≤ 9223372036854775807
      omega
  have hguard : (9223372036854775807 - (c - 48).toUInt64) / 10 < value ↔
      (int64Max - (c.toNat - 48)) / 10 < value.toNat := by
    rw [UInt64.lt_iff_toNat_lt, UInt64.toNat_div, hroom]
    rfl
  unfold parseGoodsWord parseGoodsDigit
  simp only [gt_iff_lt, hguard]
  split
  · rfl
  · rename_i hfits
    rw [hmax] at hfits
    rw [Option.map_some, Option.some_inj, UInt64.toNat_add, UInt64.toNat_mul, hdigit]
    show (value.toNat * 10 % _ + _) % _ = _
    omega

theorem foldlM_parseGoodsWord {digits : Bytes} (hdigits : ∀ c ∈ digits, isdigit c) :
    (digits.foldlM parseGoodsWord 0).map UInt64.toNat = digits.foldlM parseGoodsDigit 0 := by
  induction digits using List.reverseRecOn with
  | nil => simp
  | append_singleton digits c ih =>
      have hprefix := ih fun d hd => hdigits d (List.mem_append_left _ hd)
      have hc : isdigit c := hdigits c (by simp)
      have hbound := foldlM_parseGoodsDigit fun d hd => hdigits d (List.mem_append_left [c] hd)
      simp only [List.foldlM_append, List.foldlM_cons, List.foldlM_nil, Option.bind_eq_bind,
        Option.pure_def, Option.bind_fun_some]
      cases hword : digits.foldlM parseGoodsWord 0 with
      | none =>
          rw [hword, Option.map_none] at hprefix
          rw [← hprefix, Option.bind_none, Option.bind_none, Option.map_none]
      | some value =>
          rw [hword] at hprefix
          have hvalue : value.toNat ≤ int64Max := by
            rw [← hprefix] at hbound
            split at hbound
            · rename_i hfits
              rw [Option.some_inj.mp hbound]
              exact hfits
            · cases hbound
          rw [← hprefix, Option.map_some, Option.bind_some, Option.bind_some]
          exact parseGoodsWord_eq hvalue hc

/-! ## What is accepted -/

/-- The texts that stand for a goods number: digits, with at most one `G` or `g` in front. -/
def Spells (digits supplied : Bytes) : Prop :=
  (supplied = digits ∨ supplied = 71 :: digits ∨ supplied = 103 :: digits) ∧ digits ≠ [] ∧
    ∀ c ∈ digits, isdigit c

/-- What is left of a text when the prefix is taken off. -/
def unprefixed (supplied : Bytes) : Bytes :=
  if supplied.head? = some 71 || supplied.head? = some 103 then supplied.tail else supplied

theorem Spells.unprefixed {digits supplied : Bytes} (h : Spells digits supplied) :
    unprefixed supplied = digits := by
  obtain ⟨hform, hne, hdigits⟩ := h
  rcases hform with rfl | rfl | rfl
  · cases supplied with
    | nil => rfl
    | cons c rest =>
        have hc := hdigits c List.mem_cons_self
        have hG : c ≠ 71 := by rintro rfl; exact absurd hc (by decide)
        have hg : c ≠ 103 := by rintro rfl; exact absurd hc (by decide)
        simp [Warehouse.unprefixed, hG, hg]
  · rfl
  · rfl

theorem spells_unprefixed {supplied : Bytes} (hne : unprefixed supplied ≠ [])
    (hdigits : ∀ c ∈ unprefixed supplied, isdigit c) : Spells (unprefixed supplied) supplied := by
  refine ⟨?_, hne, hdigits⟩
  cases supplied with
  | nil => exact absurd rfl hne
  | cons c rest =>
      by_cases hG : c = 71
      · subst hG
        exact Or.inr (Or.inl rfl)
      · by_cases hg : c = 103
        · subst hg
          exact Or.inr (Or.inr rfl)
        · left
          simp [unprefixed, hG, hg]

/-- The reader as a whole. -/
theorem parseGoodsId_eq_some {supplied : Bytes} {n : ℤ} :
    parseGoodsId supplied = some n ↔
      ∃ digits, Spells digits supplied ∧ n = digitsValue digits ∧ 1 ≤ n ∧ n ≤ int64Max := by
  have hparse : parseGoodsId supplied =
      if (unprefixed supplied).isEmpty || !(unprefixed supplied).all isdigit then none
      else ((unprefixed supplied).foldlM parseGoodsDigit 0).bind fun value =>
        if value = 0 then none else some (value : ℤ) := rfl
  rw [hparse]
  by_cases hspelt : unprefixed supplied ≠ [] ∧ ∀ c ∈ unprefixed supplied, isdigit c
  · obtain ⟨hne, hdigits⟩ := hspelt
    have hguard : ((unprefixed supplied).isEmpty || !(unprefixed supplied).all isdigit) = false := by
      simpa [hne] using hdigits
    rw [hguard, if_neg Bool.false_ne_true, foldlM_parseGoodsDigit hdigits]
    constructor
    · intro h
      refine ⟨unprefixed supplied, spells_unprefixed hne hdigits, ?_⟩
      split at h
      · rename_i hfits
        rw [Option.bind_some] at h
        split at h
        · cases h
        · rename_i hzero
          have hn := Option.some_inj.mp h
          exact ⟨hn.symm, by omega, by omega⟩
      · cases h
    · rintro ⟨digits, hspells, rfl, hpos, hfits⟩
      rw [hspells.unprefixed, if_pos (by omega), Option.bind_some, if_neg (by omega)]
  · have hguard : ((unprefixed supplied).isEmpty || !(unprefixed supplied).all isdigit) = true := by
      by_cases hne : unprefixed supplied = []
      · simp [hne]
      · simpa [hne] using hspelt
    rw [hguard, if_pos rfl]
    constructor
    · rintro ⟨⟩
    · rintro ⟨digits, hspells, -⟩
      rw [hspells.unprefixed] at hspelt
      exact absurd hspells.2 hspelt

example : parseGoodsId (lit "g000042") = some 42 := by decide

/-! ## The round trip -/

/-- The digits after the `G` of a formatted number. -/
theorem digits_formatted {n : ℕ} :
    padded 6 48 (insertInt64 n) ≠ [] ∧ (∀ c ∈ padded 6 48 (insertInt64 n), isdigit c) ∧
      digitsValue (padded 6 48 (insertInt64 n)) = n := by
  refine ⟨?_, ?_, ?_⟩
  · simp [padded, insertInt64, toDecimal_ne_nil]
  · intro c hc
    rcases List.mem_append.mp hc with hfill | hdigit
    · rw [List.eq_of_mem_replicate hfill]
      decide
    · exact isdigit_toDecimal hdigit
  · show digitsValue (_ ++ toDecimal n) = n
    rw [digitsValue_append, digitsValue_zeros, Nat.zero_mul, Nat.zero_add, digitsValue_toDecimal]

/-- Reading back what was written, with either prefix or none. -/
theorem parseGoodsId_formatted {id : ℤ} (hpos : 1 ≤ id) (hmax : id ≤ int64Max) {supplied : Bytes}
    (h : supplied = formattedGoodsId id ∨ supplied = 103 :: (formattedGoodsId id).tail ∨
      supplied = (formattedGoodsId id).tail) : parseGoodsId supplied = some id := by
  obtain ⟨n, rfl⟩ := Int.eq_ofNat_of_zero_le (show 0 ≤ id by omega)
  obtain ⟨hne, hdigits, hvalue⟩ := digits_formatted (n := n)
  rw [parseGoodsId_eq_some]
  refine ⟨padded 6 48 (insertInt64 n), ⟨?_, hne, hdigits⟩, by rw [hvalue], hpos, hmax⟩
  rcases h with h | h | h
  · exact Or.inr (Or.inl h)
  · exact Or.inr (Or.inr h)
  · exact Or.inl h

example : formattedGoodsId 42 = lit "G000042" := by decide

/-- Goods numbers.  What the API writes for an id the application reads back as that id, whatever
the prefix, so that no two ids are written alike; and the application reads exactly the numerals in
the range of ids, computing their value without leaving 64 bits however long they are. -/
theorem goodsNumber_roundTrip :
    (∀ id : ℤ, 1 ≤ id → id ≤ int64Max →
      parseGoodsId (formattedGoodsId id) = some id ∧
        parseGoodsId (103 :: (formattedGoodsId id).tail) = some id ∧
        parseGoodsId (formattedGoodsId id).tail = some id) ∧
      (∀ id id' : ℤ, 1 ≤ id → id ≤ int64Max → 1 ≤ id' → id' ≤ int64Max →
        formattedGoodsId id = formattedGoodsId id' → id = id') ∧
      (∀ (supplied : Bytes) (n : ℤ), parseGoodsId supplied = some n ↔
        ∃ digits, Spells digits supplied ∧ n = digitsValue digits ∧ 1 ≤ n ∧ n ≤ int64Max) ∧
      ∀ digits : Bytes, (∀ c ∈ digits, isdigit c) →
        (digits.foldlM parseGoodsWord 0).map UInt64.toNat = digits.foldlM parseGoodsDigit 0 := by
  refine ⟨?_, ?_, fun _ _ => parseGoodsId_eq_some, fun _ => foldlM_parseGoodsWord⟩
  · intro id hpos hmax
    exact ⟨parseGoodsId_formatted hpos hmax (Or.inl rfl),
      parseGoodsId_formatted hpos hmax (Or.inr (Or.inl rfl)),
      parseGoodsId_formatted hpos hmax (Or.inr (Or.inr rfl))⟩
  · intro id id' hpos hmax hpos' hmax' hsame
    have hid := parseGoodsId_formatted hpos hmax (Or.inl rfl)
    have hid' := parseGoodsId_formatted hpos' hmax' (Or.inl rfl)
    rw [hsame, hid'] at hid
    exact (Option.some_inj.mp hid).symm

end Warehouse
