import Workforce.Proofs.Number.Extent

/-!
# Stored numbers

A number is stored as a sign, an exponent and a mantissa in one pattern of bits. Reading a pattern
gives a number in the canonical form of its format, and storing that gives the pattern again. A
canonical number is read as it was stored unless its exponent is too large: then it has become
infinite.
-/

namespace Workforce

open Float.Model Float.Model.UnpackedFloat

variable {spec : Format}

/-! ### Patterns of bits -/

section Bits

lemma ofBitVec_toBitVec (s : Sign) : Sign.ofBitVec s.toBitVec = s := by cases s <;> rfl

lemma toBitVec_ofBitVec (b : BitVec 1) : (Sign.ofBitVec b).toBitVec = b := by
  revert b
  decide

lemma unpackSign_packComponents (s : Sign) (E : BitVec spec.exponentBits)
    (M : BitVec spec.mantissaBitsWithoutImplicit) :
    unpackSign (packComponents spec s E M) = s.toBitVec := by
  ext i hi
  obtain rfl : i = 0 := by omega
  simp only [unpackSign, packComponents, BitVec.extractLsb, BitVec.getElem_cast,
    BitVec.getElem_extractLsb']
  rw [BitVec.getLsbD_append, BitVec.getLsbD_append]
  simp

lemma toNat_one_append {n : ℕ} (M : BitVec n) : (1#1 ++ M).toNat = 2 ^ n + M.toNat := by
  rw [BitVec.toNat_append, ← Nat.shiftLeft_add_eq_or_of_lt M.isLt, Nat.shiftLeft_eq]
  simp

lemma toNat_pos_of_ne_zero {n : ℕ} {M : BitVec n} (h : M ≠ 0#n) : 0 < M.toNat :=
  Nat.pos_of_ne_zero fun hM => h (BitVec.eq_of_toNat_eq (by simpa using hM))

/-- Every pattern of bits has a sign, an exponent and a mantissa. -/
lemma exists_eq_packComponents (b : BitVec spec.numBits) :
    ∃ s E M, b = packComponents spec s E M := by
  refine ⟨.ofBitVec (unpackSign b), unpackExponent b, unpackMantissa b, ?_⟩
  have hM := spec.hm
  have hE := spec.he
  rw [packComponents, toBitVec_ofBitVec]
  ext i hi
  simp only [BitVec.getElem_append, unpackSign, unpackExponent, unpackMantissa, BitVec.extractLsb,
    BitVec.getElem_cast, BitVec.getElem_extractLsb']
  rw [← BitVec.getLsbD_eq_getElem]
  split_ifs <;> congr 1 <;> omega

end Bits

/-! ### Exponents -/

/-- The greatest exponent of a number that a format can store. -/
def greatestExponent (spec : Format) : ℤ := spec.exponentBias - spec.mantissaBitsWithoutImplicit

lemma exponentBias_add_one : spec.exponentBias + 1 = 2 ^ (spec.exponentBits - 1) :=
  Nat.sub_add_cancel (Nat.two_pow_pos _)

lemma two_pow_exponentBits : 2 ^ spec.exponentBits = 2 * (spec.exponentBias + 1) := by
  rw [exponentBias_add_one, ← pow_succ', Nat.sub_add_cancel spec.he]

lemma minExponent_eq :
    spec.minExponent = 1 - (spec.exponentBias + spec.mantissaBitsWithoutImplicit) := by
  have hbias : (spec.exponentBias + 1 : ℤ) = 2 ^ (spec.exponentBits - 1) := by
    exact_mod_cast exponentBias_add_one
  rw [Format.minExponent, ← hbias, mantissaBits_eq]
  push_cast
  ring

/-! ### Reading -/

section Reading

variable (s : Sign) (E : BitVec spec.exponentBits) (M : BitVec spec.mantissaBitsWithoutImplicit)

/-- The number that a pattern of bits stands for. -/
lemma unpack_packComponents :
    UnpackedFloat.unpack spec (packComponents spec s E M) =
      if E = -1#_ then if M = 0#_ then .infinity s else .notANumber
      else if E = 0#_ then
        if h : M = 0#_ then .zero s
        else .finite s M.toNat spec.minExponent (toNat_pos_of_ne_zero h)
      else .finite s (2 ^ spec.mantissaBitsWithoutImplicit + M.toNat)
        (E.toNat - (spec.exponentBias + spec.mantissaBitsWithoutImplicit)) (by positivity) := by
  rw [UnpackedFloat.unpack]
  simp only [unpackMantissa_packComponents, unpackExponent_packComponents,
    unpackSign_packComponents, ofBitVec_toBitVec, toNat_one_append]
  split_ifs with hinfinite hzero hleast hnone
  · rfl
  · rfl
  · rfl
  · congr 1
    rw [hleast, minExponent_eq, BitVec.toNat_ofNat, Nat.zero_mod]
    ring
  · rfl

variable {E M}

lemma eq_ones_iff : E = -1#_ ↔ E.toNat + 1 = 2 ^ spec.exponentBits := by
  rw [BitVec.neg_one_eq_allOnes, ← BitVec.toNat_inj, BitVec.toNat_allOnes]
  have := Nat.two_pow_pos spec.exponentBits
  omega

lemma eq_zero_iff : E = 0#_ ↔ E.toNat = 0 := by
  rw [← BitVec.toNat_inj, BitVec.toNat_ofNat, Nat.zero_mod]

lemma zero_ne_ones : (0#_ : BitVec spec.exponentBits) ≠ -1#_ := by
  have hbits := @two_pow_exponentBits spec
  rw [ne_eq, eq_ones_iff, BitVec.toNat_ofNat, Nat.zero_mod]
  omega

lemma canonicalIn_least (h : M ≠ 0#_) : CanonicalIn spec M.toNat spec.minExponent :=
  ⟨toNat_pos_of_ne_zero h, M.isLt.trans (Nat.pow_lt_pow_right one_lt_two (Nat.lt_succ_self _)),
    le_rfl, .inr rfl⟩

lemma canonicalIn_full (h : E ≠ 0#_) :
    CanonicalIn spec (2 ^ spec.mantissaBitsWithoutImplicit + M.toNat)
      (E.toNat - (spec.exponentBias + spec.mantissaBitsWithoutImplicit)) := by
  have hM := M.isLt
  rw [ne_eq, eq_zero_iff] at h
  exact ⟨by omega, by omega, by rw [minExponent_eq]; omega, .inl (by omega)⟩

lemma exponent_le (h : E ≠ -1#_) :
    (E.toNat - (spec.exponentBias + spec.mantissaBitsWithoutImplicit) : ℤ) ≤
      greatestExponent spec := by
  have hE := E.isLt
  rw [ne_eq, eq_ones_iff] at h
  rw [two_pow_exponentBits] at h hE
  rw [greatestExponent]
  omega

end Reading

variable {s : Sign} {m : ℕ} {e : ℤ}

/-- A finite number is read in canonical form, and its exponent is not too large. -/
lemma canonicalIn_of_unpack (hspec : spec.minExponent ≤ greatestExponent spec)
    {b : BitVec spec.numBits} {hm : 0 < m}
    (h : UnpackedFloat.unpack spec b = .finite s m e hm) :
    CanonicalIn spec m e ∧ e ≤ greatestExponent spec := by
  obtain ⟨s', E, M, rfl⟩ := exists_eq_packComponents b
  rw [unpack_packComponents] at h
  split_ifs at h with hinfinite hzero hleast hnone
  · cases h
    exact ⟨canonicalIn_least hnone, hspec⟩
  · cases h
    exact ⟨canonicalIn_full hleast, exponent_le hinfinite⟩

/-! ### Storing -/

/-- How a finite number is stored. -/
lemma packed_finite (h : CanonicalIn spec m e) (he : e ≤ greatestExponent spec) :
    UnpackedFloat.pack spec (.finite s m e h.pos) =
      packComponents spec s
        (if 2 ^ spec.mantissaBitsWithoutImplicit ≤ m then
          .ofNat _ (e + spec.exponentBias + spec.mantissaBitsWithoutImplicit).toNat
        else 0#_) (.ofNat _ m) := by
  have hbits := @two_pow_exponentBits spec
  have hfull : m.log2 + 1 = spec.mantissaBits ↔ 2 ^ spec.mantissaBitsWithoutImplicit ≤ m := by
    have := h.log2_le
    rw [mantissaBits_eq, ← Nat.le_log2 h.pos.ne']
    omega
  rw [greatestExponent] at he
  simp only [UnpackedFloat.pack, hfull]
  rw [if_neg (by omega)]
  split_ifs <;> rfl

/-- A number whose exponent is too large is stored as an infinite one. -/
lemma packed_of_greatestExponent_lt (h : CanonicalIn spec m e) (he : greatestExponent spec < e) :
    UnpackedFloat.pack spec (.finite s m e h.pos) = packedInfinity spec s := by
  have hbits := @two_pow_exponentBits spec
  rw [greatestExponent] at he
  simp only [UnpackedFloat.pack]
  rw [if_pos (by omega)]

lemma unpack_packed_finite (h : CanonicalIn spec m e) (he : e ≤ greatestExponent spec) :
    UnpackedFloat.unpack spec (UnpackedFloat.pack spec (.finite s m e h.pos)) =
      .finite s m e h.pos := by
  have hle := h.le_exponent
  have hlt := h.lt
  have hpos := h.pos
  have hbits := @two_pow_exponentBits spec
  rw [packed_finite h he, unpack_packComponents]
  rw [minExponent_eq] at hle
  rw [greatestExponent] at he
  -- a normal number drops its leading bit, a subnormal one has the exponent field zero
  by_cases hm : 2 ^ spec.mantissaBitsWithoutImplicit ≤ m
  · have hE : (BitVec.ofNat spec.exponentBits
        (e + spec.exponentBias + spec.mantissaBitsWithoutImplicit).toNat).toNat =
          (e + spec.exponentBias + spec.mantissaBitsWithoutImplicit).toNat := by
      rw [BitVec.toNat_ofNat, Nat.mod_eq_of_lt (by omega)]
    have hM : 2 ^ spec.mantissaBitsWithoutImplicit +
        (BitVec.ofNat spec.mantissaBitsWithoutImplicit m).toNat = m := by
      rw [BitVec.toNat_ofNat, Nat.mod_eq_sub_mod hm, Nat.mod_eq_of_lt (by omega)]
      omega
    rw [if_pos hm, if_neg (by rw [eq_ones_iff, hE]; omega), if_neg (by rw [eq_zero_iff, hE]; omega)]
    congr 1
    rw [hE]
    omega
  · have hM : (BitVec.ofNat spec.mantissaBitsWithoutImplicit m).toNat = m := by
      rw [BitVec.toNat_ofNat, Nat.mod_eq_of_lt (by omega)]
    have hne : BitVec.ofNat spec.mantissaBitsWithoutImplicit m ≠ 0#_ := by
      intro hzero
      rw [hzero, BitVec.toNat_ofNat, Nat.zero_mod] at hM
      exact hpos.ne hM
    rw [if_neg hm, if_neg zero_ne_ones, if_pos rfl, dif_neg hne]
    congr 1
    exact (h.full.resolve_left hm).symm

lemma unpack_packed_zero (s : Sign) :
    UnpackedFloat.unpack spec (UnpackedFloat.pack spec (.zero s)) = .zero s := by
  refine (unpack_packComponents s 0#_ 0#_).trans ?_
  rw [if_neg zero_ne_ones, if_pos rfl, dif_pos rfl]

lemma unpack_packedInfinity (s : Sign) :
    UnpackedFloat.unpack spec (packedInfinity spec s) = .infinity s := by
  refine (unpack_packComponents s (-1#_) 0#_).trans ?_
  rw [if_pos rfl, if_pos rfl]

/-- A number that is stored after it is rounded is infinite only if it is too large. -/
lemma unpack_packed_round (s : Sign) (hspec : spec.minExponent ≤ greatestExponent spec)
    (hm : 0 < m) (he : e ≤ lastExponentIn spec m e) :
    UnpackedFloat.unpack spec
        (UnpackedFloat.pack spec (roundWithAccuracy spec s m e .exact)) =
      roundWithAccuracy spec s m e .exact ∨
    UnpackedFloat.unpack spec
        (UnpackedFloat.pack spec (roundWithAccuracy spec s m e .exact)) = .infinity s ∧
      (2 : ℚ) ^ (spec.mantissaBitsWithoutImplicit + greatestExponent spec) < m * 2 ^ e := by
  obtain ⟨n, -, ⟨-, hround⟩ | ⟨m', e', h, hround, hcanonical, -⟩⟩ := roundWithAccuracy_eq s hm he
  · rw [hround]
    exact .inl (unpack_packed_zero s)
  · rcases le_or_gt e' (greatestExponent spec) with hle | hgt
    · rw [hround]
      exact .inl (unpack_packed_finite hcanonical hle)
    · refine .inr ⟨?_, ?_⟩
      · rw [hround, packed_of_greatestExponent_lt hcanonical hgt, unpack_packedInfinity]
      · -- rounding does not pass the power of two with the greatest exponent
        by_contra! hsmall
        have hpower := canonicalIn_two_pow hspec
        rw [← natCast_two_pow_mul_zpow] at hsmall
        have hle := hpower.extent_roundWithAccuracy_le s hm he hsmall
        rw [hround, extent_finite, WithTop.coe_le_coe] at hle
        exact hle.not_gt (hpower.lt_of_exponent_lt hcanonical hgt)

/-- Storing what was read gives the same pattern. -/
lemma packed_unpack (hspec : spec.minExponent ≤ greatestExponent spec) {b : BitVec spec.numBits}
    (hvalid : spec.Valid b) : UnpackedFloat.pack spec (UnpackedFloat.unpack spec b) = b := by
  obtain ⟨s, E, M, rfl⟩ := exists_eq_packComponents b
  rw [unpack_packComponents]
  -- infinity, an undefined number, zero, a subnormal number and a normal one, in this order
  split_ifs with hinfinite hzero hleast hnone
  · rw [hinfinite, hzero]
    rfl
  · have hnan := hvalid.eq_packedNaN (unpackExponent_packComponents.trans hinfinite)
      fun h => hzero (unpackMantissa_packComponents.symm.trans h)
    exact hnan.symm
  · rw [hleast, hnone]
    rfl
  · rw [packed_finite (canonicalIn_least hnone) hspec, if_neg M.isLt.not_ge, hleast,
      BitVec.ofNat_toNat, BitVec.setWidth_eq]
  · have hE : (E.toNat - (spec.exponentBias + spec.mantissaBitsWithoutImplicit) +
        spec.exponentBias + spec.mantissaBitsWithoutImplicit : ℤ).toNat = E.toNat := by
      omega
    have hM : BitVec.ofNat _ (2 ^ spec.mantissaBitsWithoutImplicit + M.toNat) = M := by
      apply BitVec.eq_of_toNat_eq
      rw [BitVec.toNat_ofNat, Nat.add_mod_left, Nat.mod_eq_of_lt M.isLt]
    rw [packed_finite (canonicalIn_full hleast) (exponent_le hinfinite),
      if_pos (Nat.le_add_right _ _), hE, hM, BitVec.ofNat_toNat, BitVec.setWidth_eq]

/-! ### Stored binary64 numbers -/

lemma unpack_pack_finite (h : Canonical m e) (he : e ≤ 971) :
    (Float.Model.pack (.finite s m e h.pos)).unpack = .finite s m e h.pos :=
  unpack_packed_finite h.canonicalIn he

lemma canonical_of_unpack {x : Float.Model} {hm : 0 < m} (h : x.unpack = .finite s m e hm) :
    Canonical m e ∧ e ≤ 971 :=
  (canonicalIn_of_unpack (by decide) h).imp_left canonicalIn_binary64_iff.mp

lemma pack_unpack (x : Float.Model) : Float.Model.pack x.unpack = x :=
  (Float.Model.mk.injEq ..).mpr (congrArg UInt64.ofBitVec (packed_unpack (by decide) x.valid))

end Workforce
