import Dogmos.Lib.FloatFormat
import Mathlib.Tactic.Ring

/-!
# Bit patterns of floating-point numbers

A finite number is its bit pattern: packing undoes unpacking (`pack_unpack_of_finite`), so
reading a pattern and writing the number give each other back (`F64.ofBits_toBits`,
`F64.toBits_ofBits`).  A number that is in canonical form is unpacked as it was
packed (`unpack_pack`), and rounding leaves it alone (`round_shifted`), so a finite
number of the narrow format survives the wide one (`narrow_widen`).
-/

namespace Float.Model

namespace UnpackedFloat

variable {spec : Format}

theorem mantissaBits_eq (spec : Format) :
    spec.mantissaBits = 1 + spec.mantissaBitsWithoutImplicit := rfl

theorem unpackSign_eq (b : BitVec spec.numBits) : unpackSign b =
    (b.extractLsb (spec.mantissaBitsWithoutImplicit + spec.exponentBits)
      (spec.mantissaBitsWithoutImplicit + spec.exponentBits)).cast (by omega) := rfl

@[simp] theorem toBitVec_ofBitVec (b : BitVec 1) : (Sign.ofBitVec b).toBitVec = b := by
  rcases BitVec.eq_zero_or_eq_one b with rfl | rfl <;> rfl

@[simp] theorem ofBitVec_toBitVec (s : Sign) : Sign.ofBitVec s.toBitVec = s := by
  cases s <;> rfl

/-- The three parts of a pattern make it up. -/
theorem packComponents_unpack (b : BitVec spec.numBits) :
    packComponents spec (Sign.ofBitVec (unpackSign b)) (unpackExponent b) (unpackMantissa b) = b := by
  have hm := spec.hm
  have he := spec.he
  unfold packComponents
  rw [toBitVec_ofBitVec]
  apply BitVec.eq_of_getLsbD_eq
  intro i hi
  simp only [BitVec.getLsbD_append, unpackSign_eq, unpackExponent, unpackMantissa, BitVec.getLsbD_cast,
    BitVec.getLsbD_extractLsb]
  by_cases hlow : i < spec.mantissaBitsWithoutImplicit
  · simp [hlow]
    omega
  · by_cases hmid : i - spec.mantissaBitsWithoutImplicit < spec.exponentBits
    · have hplace : spec.mantissaBitsWithoutImplicit + (i - spec.mantissaBitsWithoutImplicit) = i := by
        omega
      simp [hlow, hmid, hplace]
      omega
    · have htop : i = spec.mantissaBitsWithoutImplicit + spec.exponentBits := by omega
      subst htop
      simp

@[simp] theorem unpackSign_components {sign : Sign} {exponent : BitVec spec.exponentBits}
    {mantissa : BitVec spec.mantissaBitsWithoutImplicit} :
    unpackSign (packComponents spec sign exponent mantissa) = sign.toBitVec := by
  apply BitVec.eq_of_getLsbD_eq
  intro i hi
  obtain rfl : i = 0 := by omega
  simp [unpackSign_eq, packComponents, BitVec.getLsbD_append, BitVec.getElem_append]

theorem toNat_implicit {k : Nat} (m : BitVec k) : (1#1 ++ m).toNat = 2 ^ k + m.toNat := by
  rw [BitVec.toNat_append, ← Nat.shiftLeft_add_eq_or_of_lt m.isLt]
  simp [Nat.shiftLeft_eq]

theorem ofNat_implicit {k : Nat} (m : BitVec k) : BitVec.ofNat k (1#1 ++ m).toNat = m := by
  apply BitVec.eq_of_toNat_eq
  rw [BitVec.toNat_ofNat, toNat_implicit, Nat.add_mod_left, Nat.mod_eq_of_lt m.isLt]

theorem log2_implicit {k : Nat} (m : BitVec k) : (1#1 ++ m).toNat.log2 = k := by
  have hlt := m.isLt
  rw [toNat_implicit]
  refine (Nat.log2_eq_iff (by have := Nat.two_pow_pos k; omega)).2 ⟨by omega, ?_⟩
  rw [Nat.pow_succ]
  omega

theorem log2_subnormal {k : Nat} {m : BitVec k} (h : 0 < m.toNat) : m.toNat.log2 + 1 ≤ k := by
  have hlt := (Nat.log2_lt (Nat.pos_iff_ne_zero.1 h)).2 m.isLt
  omega

theorem allOnes_iff {k : Nat} (b : BitVec k) : b = -1#_ ↔ b.toNat + 1 = 2 ^ k := by
  have hpos := Nat.two_pow_pos k
  rw [← BitVec.toNat_inj, BitVec.neg_one_eq_allOnes, BitVec.toNat_allOnes]
  omega

theorem not_isFinite_of_allOnes {b : BitVec spec.numBits} (h : unpackExponent b = -1#_) :
    (unpack spec b).isFinite = false := by
  unfold unpack
  dsimp only
  rw [if_pos h]
  split <;> rfl

/-- **Packing undoes unpacking** on finite numbers. -/
theorem pack_unpack_of_finite (hexponent : 1 < spec.exponentBits) {b : BitVec spec.numBits}
    (h : (unpack spec b).isFinite = true) : pack spec (unpack spec b) = b := by
  have hwhole := packComponents_unpack b
  have htwo : 2 < 2 ^ spec.exponentBits :=
    Nat.lt_of_lt_of_le (by decide : 2 < 2 ^ 2) (Nat.pow_le_pow_right (by decide) hexponent)
  have hlt := (unpackExponent b).isLt
  have hordinary : ¬unpackExponent b = -1#_ := by
    intro hall
    rw [not_isFinite_of_allOnes hall] at h
    cases h
  unfold unpack
  dsimp only
  rw [if_neg hordinary]
  rw [allOnes_iff] at hordinary
  by_cases hsub : unpackExponent b = 0#_
  · rw [if_pos hsub]
    by_cases hzero : unpackMantissa b = 0#_
    · rw [dif_pos hzero]
      rw [hsub, hzero] at hwhole
      exact hwhole
    · rw [dif_neg hzero]
      have hpos : 0 < (unpackMantissa b).toNat := by
        rw [BitVec.toNat_pos, BitVec.pos_iff_ne_zero]
        exact hzero
      have hlog := log2_subnormal hpos
      unfold pack
      dsimp only
      rw [hsub, if_neg, if_neg, BitVec.ofNat_toNat, BitVec.setWidth_eq]
      · rw [hsub] at hwhole
        exact hwhole
      · rw [mantissaBits_eq]
        omega
      · simp only [BitVec.toNat_ofNat, Nat.zero_mod]
        omega
  · rw [if_neg hsub]
    have hpos : 0 < (unpackExponent b).toNat := by
      rw [BitVec.toNat_pos, BitVec.pos_iff_ne_zero]
      exact hsub
    have hbiased : ((unpackExponent b).toNat - (spec.exponentBias + spec.mantissaBitsWithoutImplicit) +
        spec.exponentBias + spec.mantissaBitsWithoutImplicit : Int).toNat =
          (unpackExponent b).toNat := by
      omega
    unfold pack
    dsimp only
    rw [hbiased, if_neg (by omega), if_pos, BitVec.ofNat_toNat, BitVec.setWidth_eq, ofNat_implicit]
    · exact hwhole
    · rw [log2_implicit, mantissaBits_eq, Nat.add_comm]

theorem unpack_signedZero (hexponent : 1 < spec.exponentBits) (s : Sign) :
    unpack spec (packedZero spec s) = .zero s := by
  have htwo : 2 < 2 ^ spec.exponentBits :=
    Nat.lt_of_lt_of_le (by decide : 2 < 2 ^ 2) (Nat.pow_le_pow_right (by decide) hexponent)
  have hordinary : ¬(0 : BitVec spec.exponentBits) = -1#_ := by
    rw [allOnes_iff]
    simp
    omega
  have hblank : (0 : BitVec spec.exponentBits) = 0#_ := rfl
  have hempty : unpackMantissa (packComponents spec s 0 0) = 0#_ := unpackMantissa_packComponents
  unfold unpack packedZero
  dsimp only
  rw [unpackExponent_packComponents, if_neg hordinary, if_pos hblank, dif_pos hempty,
    unpackSign_components, ofBitVec_toBitVec]

/-- A normal number is unpacked as it was packed. -/
theorem unpack_pack (s : Sign) (m : Nat) (e : Int) (hm : 0 < m)
    (hlog : m.log2 = spec.mantissaBitsWithoutImplicit)
    (hlow : 0 < e + spec.exponentBias + spec.mantissaBitsWithoutImplicit)
    (hhigh : e + spec.exponentBias + spec.mantissaBitsWithoutImplicit + 1 < 2 ^ spec.exponentBits) :
    unpack spec (pack spec (.finite s m e hm)) = .finite s m e hm := by
  obtain ⟨biased, hbiased⟩ :=
    Int.eq_ofNat_of_zero_le (show 0 ≤ e + spec.exponentBias + spec.mantissaBitsWithoutImplicit by omega)
  have hfits : biased + 1 < 2 ^ spec.exponentBits := by
    rw [hbiased] at hhigh
    exact_mod_cast hhigh
  have hexponent : (BitVec.ofNat spec.exponentBits biased).toNat = biased := by
    rw [BitVec.toNat_ofNat, Nat.mod_eq_of_lt (by omega)]
  have hordinary : ¬BitVec.ofNat spec.exponentBits biased = -1#_ := by
    rw [allOnes_iff, hexponent]
    omega
  have hnormal : ¬BitVec.ofNat spec.exponentBits biased = 0#_ := by
    rw [← BitVec.toNat_inj, hexponent, BitVec.toNat_zero]
    omega
  have hmantissa : (1#1 ++ BitVec.ofNat spec.mantissaBitsWithoutImplicit m).toNat = m := by
    have hbounds := (Nat.log2_eq_iff (Nat.pos_iff_ne_zero.1 hm)).1 hlog
    rw [Nat.pow_succ] at hbounds
    rw [toNat_implicit, BitVec.toNat_ofNat]
    have hdiv : m / 2 ^ spec.mantissaBitsWithoutImplicit = 1 :=
      Nat.div_eq_of_lt_le (by omega) (by omega)
    have hparts := Nat.mod_add_div m (2 ^ spec.mantissaBitsWithoutImplicit)
    rw [hdiv] at hparts
    omega
  have hpack : pack spec (.finite s m e hm) = packComponents spec s
      (BitVec.ofNat spec.exponentBits biased) (BitVec.ofNat spec.mantissaBitsWithoutImplicit m) := by
    unfold pack
    dsimp only
    rw [hbiased, Int.toNat_natCast, if_neg (by omega), if_pos (by rw [hlog, mantissaBits_eq]; omega)]
  rw [hpack]
  unfold unpack
  dsimp only
  rw [unpackExponent_packComponents, if_neg hordinary, if_neg hnormal]
  rw [finite.injEq]
  refine ⟨?_, ?_, ?_⟩
  · rw [unpackSign_components, ofBitVec_toBitVec]
  · rw [unpackMantissa_packComponents, hmantissa]
  · rw [hexponent]
    omega

/-- What is packed as a finite number is finite. -/
theorem isFinite_of_unpack_pack {x : UnpackedFloat} (h : (unpack spec (pack spec x)).isFinite = true) :
    x.isFinite = true := by
  cases x with
  | infinity s =>
    unfold pack packedInfinity at h
    rw [not_isFinite_of_allOnes unpackExponent_packComponents] at h
    cases h
  | notANumber =>
    unfold pack packedNaN at h
    rw [not_isFinite_of_allOnes unpackExponent_packComponents] at h
    cases h
  | zero s => rfl
  | finite s m e hm => rfl

/-- A finite number is unpacked in canonical form, with an exponent that the format holds. -/
theorem canonical_unpack (hexponent : 1 < spec.exponentBits) {b : BitVec spec.numBits} {s : Sign}
    {m : Nat} {e : Int} {hm : 0 < m} (h : unpack spec b = .finite s m e hm) :
    m.log2 ≤ spec.mantissaBitsWithoutImplicit ∧
    spec.targetExponent (totalExponent m e) = e ∧
    0 < e + spec.exponentBias + spec.mantissaBitsWithoutImplicit ∧
    e + spec.exponentBias + spec.mantissaBitsWithoutImplicit + 1 < 2 ^ spec.exponentBits := by
  have htwo : 2 < 2 ^ spec.exponentBits :=
    Nat.lt_of_lt_of_le (by decide : 2 < 2 ^ 2) (Nat.pow_le_pow_right (by decide) hexponent)
  have hlt := (unpackExponent b).isLt
  have hbias : (spec.exponentBias : Int) = 2 ^ (spec.exponentBits - 1) - 1 := by
    have hpos := Nat.two_pow_pos (spec.exponentBits - 1)
    have hcast : ((2 ^ (spec.exponentBits - 1) : Nat) : Int) = 2 ^ (spec.exponentBits - 1) := by
      push_cast
      rfl
    unfold Format.exponentBias
    omega
  have hordinary : ¬unpackExponent b = -1#_ := by
    intro hall
    have hfinite := not_isFinite_of_allOnes hall
    rw [h] at hfinite
    cases hfinite
  unfold unpack at h
  dsimp only at h
  rw [if_neg hordinary] at h
  rw [allOnes_iff] at hordinary
  by_cases hsub : unpackExponent b = 0#_
  · rw [if_pos hsub] at h
    by_cases hzero : unpackMantissa b = 0#_
    · rw [dif_pos hzero] at h
      cases h
    rw [dif_neg hzero] at h
    cases h
    have hlog := log2_subnormal hm
    rw [hsub]
    simp only [BitVec.toNat_ofNat, Nat.zero_mod]
    refine ⟨by omega, ?_, by omega, ?_⟩
    · unfold Format.targetExponent totalExponent Format.minExponent
      rw [mantissaBits_eq]
      omega
    · have : (2 : Int) < 2 ^ spec.exponentBits := by exact_mod_cast htwo
      omega
  · rw [if_neg hsub] at h
    cases h
    have hlog := log2_implicit (unpackMantissa b)
    have hpos : 0 < (unpackExponent b).toNat := by
      rw [BitVec.toNat_pos, BitVec.pos_iff_ne_zero]
      exact hsub
    refine ⟨by omega, ?_, by omega, ?_⟩
    · unfold Format.targetExponent totalExponent Format.minExponent
      rw [mantissaBits_eq]
      omega
    · have hfits : ((unpackExponent b).toNat : Int) + 1 < 2 ^ spec.exponentBits := by
        have : (unpackExponent b).toNat + 1 < 2 ^ spec.exponentBits := by omega
        exact_mod_cast this
      omega

/-! ## Exact rounding -/

/-- Shifting the zeros at the end of a mantissa out again leaves it exact. -/
theorem shiftRight_shiftLeft (m k : Nat) :
    ((⟨m <<< k, false, false⟩ : ExtendedMantissa) >>> k) = ⟨m, false, false⟩ := by
  show k.repeat ExtendedMantissa.shiftRightOne ⟨m <<< k, false, false⟩ = _
  induction k generalizing m with
  | zero => rfl
  | succ k ih =>
    have hshift : m <<< (k + 1) = (2 * m) <<< k := by
      rw [Nat.shiftLeft_eq, Nat.shiftLeft_eq, Nat.pow_succ]
      ring
    show ExtendedMantissa.shiftRightOne (k.repeat ExtendedMantissa.shiftRightOne _) = _
    rw [hshift, ih]
    unfold ExtendedMantissa.shiftRightOne
    simp

theorem log2_shiftLeft {m : Nat} (hm : 0 < m) (k : Nat) : (m <<< k).log2 = m.log2 + k := by
  have hne := Nat.pos_iff_ne_zero.1 hm
  have hpow := Nat.two_pow_pos k
  obtain ⟨hlow, hhigh⟩ := (Nat.log2_eq_iff hne).1 (rfl : m.log2 = m.log2)
  rw [Nat.shiftLeft_eq]
  refine (Nat.log2_eq_iff (Nat.pos_iff_ne_zero.1 (Nat.mul_pos hm hpow))).2 ⟨?_, ?_⟩
  · rw [Nat.pow_add]
    exact Nat.mul_le_mul_right _ hlow
  · rw [Nat.add_right_comm, Nat.pow_add]
    exact Nat.mul_lt_mul_of_pos_right hhigh hpow

theorem totalExponent_shiftLeft {m : Nat} (hm : 0 < m) (k : Nat) (e : Int) :
    totalExponent (m <<< k) (e - k) = totalExponent m e := by
  unfold totalExponent
  rw [log2_shiftLeft hm]
  omega

/-- Rounding is exact on a number that the format holds, written with a longer mantissa. -/
theorem roundWithAccuracy_shifted (s : Sign) (m k : Nat) (e : Int) (hm : 0 < m)
    (htarget : spec.targetExponent (totalExponent m e) = e) :
    roundWithAccuracy spec s (m <<< k) (e - k) .exact = .finite s m e hm := by
  have hfirst : shiftToTargetExponent spec (m <<< k) (e - k) .exact = (⟨m, false, false⟩, e) := by
    unfold shiftToTargetExponent shiftToExponent
    rw [totalExponent_shiftLeft hm, htarget]
    have hshift : (e - (e - k)).toNat = k := by omega
    dsimp only
    rw [hshift, Int.sub_add_cancel]
    exact congrArg (·, e) (shiftRight_shiftLeft m k)
  have hsecond : shiftToTargetExponent spec m e .exact = (⟨m, false, false⟩, e) := by
    unfold shiftToTargetExponent shiftToExponent
    rw [htarget]
    have hshift : (e - e).toNat = 0 := by omega
    dsimp only
    rw [hshift, Int.ofNat_zero, Int.add_zero]
    rfl
  unfold roundWithAccuracy
  rw [hfirst]
  dsimp only
  rw [show (⟨m, false, false⟩ : ExtendedMantissa).roundedMantissa = m from rfl, hsecond]
  exact dif_neg (Nat.pos_iff_ne_zero.1 hm)

theorem round_shifted (s : Sign) (m k : Nat) (e : Int) (hm : 0 < m)
    (htarget : spec.targetExponent (totalExponent m e) = e) :
    round spec s (m <<< k) (e - k) = .finite s m e hm := by
  unfold round decreaseExponent
  rw [totalExponent_shiftLeft hm, htarget]
  have hshift : (e - k - e).toNat = 0 := by omega
  dsimp only
  rw [hshift]
  rw [Nat.shiftLeft_zero, Int.ofNat_zero, Int.sub_zero]
  exact roundWithAccuracy_shifted s m k e hm htarget

/-- Rounding to a format with more precision lengthens the mantissa. -/
theorem round_lengthened (s : Sign) (m j : Nat) (e : Int) (hm : 0 < m)
    (htarget : spec.targetExponent (totalExponent m e) = e - j) :
    ∃ hpos, round spec s m e = .finite s (m <<< j) (e - j) hpos := by
  have hpos : 0 < m <<< j := by
    rw [Nat.shiftLeft_eq]
    exact Nat.mul_pos hm (Nat.two_pow_pos j)
  refine ⟨hpos, ?_⟩
  have hexact := @roundWithAccuracy_shifted spec s (m <<< j) 0 (e - j) hpos
    (by rw [totalExponent_shiftLeft hm, htarget])
  unfold round decreaseExponent
  rw [htarget]
  have hshift : (e - (e - j)).toNat = j := by omega
  dsimp only
  rw [hshift]
  rw [Nat.shiftLeft_zero, Int.ofNat_zero, Int.sub_zero] at hexact
  exact hexact

end UnpackedFloat

end Float.Model

/-! ## Patterns and numbers -/

open Float.Model UnpackedFloat

namespace F64

theorem eq_of_toBits {a b : F64} (h : a.toBits = b.toBits) : a = b := by
  cases a
  cases b
  cases h
  rfl

theorem toBits_ofBits {b : UInt64} (h : FloatFormat.isFinite (Float.Model.ofBits b) = true) :
    (Float.Model.ofBits b).toBits = b := by
  have hpack : pack .binary64 (unpack .binary64 b.toBitVec) = b.toBitVec :=
    pack_unpack_of_finite (by decide) (isFinite_of_unpack_pack h)
  exact congrArg UInt64.ofBitVec hpack

theorem ofBits_toBits {a : F64} (h : FloatFormat.isFinite a = true) :
    Float.Model.ofBits a.toBits = a := by
  have hpack : pack .binary64 (unpack .binary64 a.toBits.toBitVec) = a.toBits.toBitVec :=
    pack_unpack_of_finite (by decide) h
  exact eq_of_toBits (congrArg UInt64.ofBitVec hpack)

end F64

namespace F32

theorem eq_of_toBits {a b : F32} (h : a.toBits = b.toBits) : a = b := by
  cases a
  cases b
  cases h
  rfl

theorem toBits_ofBits {b : UInt32} (h : FloatFormat.isFinite (Float32.Model.ofBits b) = true) :
    (Float32.Model.ofBits b).toBits = b := by
  have hpack : pack .binary32 (unpack .binary32 b.toBitVec) = b.toBitVec :=
    pack_unpack_of_finite (by decide) (isFinite_of_unpack_pack h)
  exact congrArg UInt32.ofBitVec hpack

theorem ofBits_toBits {a : F32} (h : FloatFormat.isFinite a = true) :
    Float32.Model.ofBits a.toBits = a := by
  have hpack : pack .binary32 (unpack .binary32 a.toBits.toBitVec) = a.toBits.toBitVec :=
    pack_unpack_of_finite (by decide) h
  exact eq_of_toBits (congrArg UInt32.ofBitVec hpack)

end F32

/-! ## The narrow format in the wide one -/

/-- How a finite number of the narrow format is written in the wide one. -/
theorem unpack_widen {a : F32} {s : Sign} {m : Nat} {e : Int} {hm : 0 < m}
    (h : a.unpack = .finite s m e hm) :
    ∃ j hpos, (widen a).unpack = .finite s (m <<< j) (e - j) hpos ∧
      Format.binary32.targetExponent (totalExponent m e) = e := by
  obtain ⟨hlog, htarget, hlow, hhigh⟩ := canonical_unpack (by decide) h
  have hwidth : Format.binary32.mantissaBitsWithoutImplicit = 23 := rfl
  have hrange : Format.binary32.exponentBits = 8 := rfl
  have hbias32 : Format.binary32.exponentBias = 127 := rfl
  have hbias64 : Format.binary64.exponentBias = 1023 := rfl
  have hmin : Format.binary64.minExponent = -1074 := rfl
  have hbits : Format.binary64.mantissaBits = 53 := rfl
  rw [hwidth] at hlog
  rw [hbias32, hwidth] at hlow hhigh
  rw [hrange] at hhigh
  obtain ⟨j, hj⟩ : ∃ j, m.log2 + j = 52 := ⟨52 - m.log2, by omega⟩
  obtain ⟨hpos, hround⟩ := @round_lengthened .binary64 s m j e hm (by
    unfold Format.targetExponent totalExponent
    rw [hmin, hbits]
    omega)
  refine ⟨j, hpos, ?_, htarget⟩
  have hwiden : widen a = Float.Model.pack (.finite s (m <<< j) (e - j) hpos) := by
    show Float.Model.pack (Ieee.convert .binary64 a.unpack) = _
    rw [h]
    exact congrArg _ hround
  rw [hwiden]
  refine unpack_pack s (m <<< j) (e - j) hpos ?_ ?_ ?_
  · rw [log2_shiftLeft hm]
    exact hj
  · rw [hbias64]
    omega
  · have hwidth64 : Format.binary64.mantissaBitsWithoutImplicit = 52 := rfl
    have hrange64 : Format.binary64.exponentBits = 11 := rfl
    rw [hbias64, hwidth64, hrange64]
    omega

theorem unpack_widen_zero {a : F32} {s : Sign} (h : a.unpack = .zero s) :
    (widen a).unpack = .zero s := by
  have hwiden : widen a = Float.Model.pack (.zero s) := by
    show Float.Model.pack (Ieee.convert .binary64 a.unpack) = _
    rw [h]
    rfl
  rw [hwiden]
  exact @unpack_signedZero .binary64 (by decide) s

theorem isFinite_widen {a : F32} (h : FloatFormat.isFinite a = true) :
    FloatFormat.isFinite (widen a) = true := by
  have hfinite : a.unpack.isFinite = true := h
  show (widen a).unpack.isFinite = true
  rcases hunpack : a.unpack with s | _ | s | ⟨s, m, e, hm⟩
  · rw [hunpack] at hfinite
    cases hfinite
  · rw [hunpack] at hfinite
    cases hfinite
  · rw [unpack_widen_zero hunpack]
    rfl
  · obtain ⟨j, hpos, hwiden, -⟩ := unpack_widen hunpack
    rw [hwiden]
    rfl

/-- **A finite number of the narrow format survives the wide one.** -/
theorem narrow_widen {a : F32} (h : FloatFormat.isFinite a = true) : narrow (widen a) = a := by
  have hfinite : a.unpack.isFinite = true := h
  have hback : narrow (widen a) = Float32.Model.pack a.unpack := by
    show Float32.Model.pack (Ieee.convert .binary32 (widen a).unpack) = _
    rcases hunpack : a.unpack with s | _ | s | ⟨s, m, e, hm⟩
    · rw [hunpack] at hfinite
      cases hfinite
    · rw [hunpack] at hfinite
      cases hfinite
    · rw [unpack_widen_zero hunpack]
      rfl
    · obtain ⟨j, hpos, hwiden, htarget⟩ := unpack_widen hunpack
      rw [hwiden]
      exact congrArg _ (round_shifted s m j e hm htarget)
  rw [hback]
  have hpack : pack .binary32 (unpack .binary32 a.toBits.toBitVec) = a.toBits.toBitVec :=
    pack_unpack_of_finite (by decide) hfinite
  exact F32.eq_of_toBits (congrArg UInt32.ofBitVec hpack)
