import Dogmos.Lib.FloatFormat

/-!
# The total order of binary32

`f32::total_cmp` compares bit patterns, and `<` compares numbers.  On finite
numbers the two agree but for the zeros of either sign, which are equal numbers
with different patterns (`F32.lt_of_totalCmp`).

* `F32.magnitude` — the bits below the sign, which order the numbers of one sign.
* `F32.unpack_of_isFinite` — the number that the bits of a finite pattern give.
* `F32.lt_of_totalCmp` — a pattern that comes first names the smaller number.
* `F32.beq_iff` — finite numbers are equal if they have one pattern or both are zeros.
-/

open Float.Model Float.Model.UnpackedFloat

namespace F32

/-- The bits below the sign bit. -/
def magnitude (a : F32) : Nat := a.toBits.toNat % 2 ^ 31

/-- The mantissa of a finite number, with the bit that is not stored. -/
def mantissaOf (k : Nat) : Nat := if k / 2 ^ 23 = 0 then k % 2 ^ 23 else 2 ^ 23 + k % 2 ^ 23

/-- The exponent of a finite number. -/
def exponentOf (k : Nat) : Int := if k / 2 ^ 23 = 0 then -149 else (k / 2 ^ 23 : Nat) - 150

/-- The sign of a bit pattern. -/
def signOf (n : Nat) : Sign := if n < 2 ^ 31 then .positive else .negative

theorem mantissaOf_pos {k : Nat} (h : 0 < k) : 0 < mantissaOf k := by
  unfold mantissaOf
  split <;> omega

/-- **Magnitudes order numbers**: the exponents decide, and then the mantissas. -/
theorem compare_of_magnitude_lt {j k : Nat} (h : j < k) :
    ((compare (exponentOf j) (exponentOf k)).then (compare (mantissaOf j) (mantissaOf k))) = .lt := by
  have hle : j / 2 ^ 23 ≤ k / 2 ^ 23 := Nat.div_le_div_right (Nat.le_of_lt h)
  unfold exponentOf mantissaOf
  rw [Ordering.then_eq_lt, Int.compare_eq_lt, Int.compare_eq_eq, Nat.compare_eq_lt]
  split <;> split <;> omega

/-! ## The number of a bit pattern -/

theorem toNat_unpackMantissa (b : BitVec 32) :
    (@unpackMantissa .binary32 b).toNat = b.toNat % 2 ^ 23 := by
  unfold unpackMantissa
  simp [BitVec.extractLsb_toNat]

theorem toNat_unpackExponent (b : BitVec 32) :
    (@unpackExponent .binary32 b).toNat = b.toNat / 2 ^ 23 % 2 ^ 8 := by
  unfold unpackExponent
  simp [BitVec.extractLsb_toNat, Nat.shiftRight_eq_div_pow]

theorem toNat_unpackSign (b : BitVec 32) :
    (@unpackSign .binary32 b).toNat = b.toNat / 2 ^ 31 % 2 := by
  rw [show @unpackSign .binary32 b = (b.extractLsb 31 31).cast (by decide) from rfl]
  simp [BitVec.extractLsb_toNat, Nat.shiftRight_eq_div_pow]

theorem ofBitVec_unpackSign (b : BitVec 32) :
    Sign.ofBitVec (@unpackSign .binary32 b) = signOf b.toNat := by
  have hsign := toNat_unpackSign b
  have hlt := b.isLt
  have hzero : @unpackSign .binary32 b = 0#1 ↔ b.toNat < 2 ^ 31 := by
    rw [← BitVec.toNat_inj, hsign]
    simp
    omega
  unfold Sign.ofBitVec signOf
  by_cases hsmall : b.toNat < 2 ^ 31
  · rw [if_pos hsmall, if_pos (hzero.2 hsmall)]
  · rw [if_neg hsmall, if_neg fun heq => hsmall (hzero.1 heq)]

theorem unpack_of_isFinite (a : F32) (h : FloatFormat.isFinite a = true) :
    (a.magnitude = 0 ∧ a.unpack = .zero (signOf a.toBits.toNat)) ∨
    ∃ hpos : 0 < a.magnitude, a.unpack = .finite (signOf a.toBits.toNat) (mantissaOf a.magnitude)
      (exponentOf a.magnitude) (mantissaOf_pos hpos) := by
  have hnat : a.toBits.toBitVec.toNat = a.toBits.toNat := rfl
  have hlt : a.toBits.toNat < 2 ^ 32 := a.toBits.toNat_lt
  have hmantissa := toNat_unpackMantissa a.toBits.toBitVec
  have hexponent := toNat_unpackExponent a.toBits.toBitVec
  have hsign := ofBitVec_unpackSign a.toBits.toBitVec
  rw [hnat] at hmantissa hexponent hsign
  have hfinite : a.unpack.isFinite = true := h
  have hunpack : a.unpack = UnpackedFloat.unpack .binary32 a.toBits.toBitVec := rfl
  rw [hunpack] at hfinite ⊢
  unfold UnpackedFloat.unpack at hfinite ⊢
  dsimp only at hfinite ⊢
  rw [hsign] at hfinite ⊢
  by_cases hordinary : @unpackExponent .binary32 a.toBits.toBitVec = -1#_
  · rw [if_pos hordinary] at hfinite
    split at hfinite <;> cases hfinite
  · rw [if_neg hordinary]
    by_cases hsub : @unpackExponent .binary32 a.toBits.toBitVec = 0#_
    · rw [if_pos hsub]
      have hexponent_zero : a.magnitude / 2 ^ 23 = 0 := by
        rw [hsub] at hexponent
        unfold magnitude
        simp at hexponent
        omega
      have hmagnitude : a.magnitude % 2 ^ 23 = a.toBits.toNat % 2 ^ 23 := by
        unfold magnitude
        omega
      by_cases hzero : @unpackMantissa .binary32 a.toBits.toBitVec = 0#_
      · rw [dif_pos hzero]
        refine .inl ⟨?_, rfl⟩
        rw [hzero] at hmantissa
        simp at hmantissa
        omega
      · rw [dif_neg hzero]
        have hne : a.toBits.toNat % 2 ^ 23 ≠ 0 := by
          rw [← hmantissa]
          intro heq
          exact hzero (BitVec.toNat_inj.1 heq)
        refine .inr ⟨by omega, ?_⟩
        rw [UnpackedFloat.finite.injEq]
        refine ⟨rfl, ?_, ?_⟩
        · unfold mantissaOf
          rw [if_pos hexponent_zero, hmantissa, hmagnitude]
        · unfold exponentOf
          rw [if_pos hexponent_zero, hsub]
          rfl
    · rw [if_neg hsub]
      have hne : a.toBits.toNat / 2 ^ 23 % 2 ^ 8 ≠ 0 := by
        rw [← hexponent]
        intro heq
        exact hsub (BitVec.toNat_inj.1 heq)
      have hmagnitude : a.magnitude / 2 ^ 23 = a.toBits.toNat / 2 ^ 23 % 2 ^ 8 ∧
          a.magnitude % 2 ^ 23 = a.toBits.toNat % 2 ^ 23 := by
        unfold magnitude
        omega
      refine .inr ⟨by omega, ?_⟩
      rw [UnpackedFloat.finite.injEq]
      refine ⟨rfl, ?_, ?_⟩
      · unfold mantissaOf
        rw [if_neg (by omega), hmagnitude.2, ← hmantissa, BitVec.toNat_append,
          ← Nat.shiftLeft_add_eq_or_of_lt (BitVec.isLt _)]
        rfl
      · unfold exponentOf
        rw [if_neg (by omega), hmagnitude.1, ← hexponent]
        rfl

/-! ## The two orders -/

section Orders

variable {a b : F32} (ha : FloatFormat.isFinite a = true) (hb : FloatFormat.isFinite b = true)

include ha hb

theorem compare_of_positive (hsignA : a.toBits.toNat < 2 ^ 31) (hsignB : b.toBits.toNat < 2 ^ 31)
    (h : a.magnitude < b.magnitude) : a.unpack.compare b.unpack = some .lt := by
  rcases unpack_of_isFinite b hb with ⟨hzeroB, -⟩ | ⟨hposB, hunpackB⟩
  · omega
  · rcases unpack_of_isFinite a ha with ⟨-, hunpackA⟩ | ⟨hposA, hunpackA⟩
    · rw [hunpackA, hunpackB, signOf, signOf, if_pos hsignA, if_pos hsignB]
      rfl
    · rw [hunpackA, hunpackB, signOf, signOf, if_pos hsignA, if_pos hsignB]
      exact congrArg some (compare_of_magnitude_lt h)

theorem compare_of_negative (hsignA : ¬a.toBits.toNat < 2 ^ 31) (hsignB : ¬b.toBits.toNat < 2 ^ 31)
    (h : b.magnitude < a.magnitude) : a.unpack.compare b.unpack = some .lt := by
  rcases unpack_of_isFinite a ha with ⟨hzeroA, -⟩ | ⟨hposA, hunpackA⟩
  · omega
  · rcases unpack_of_isFinite b hb with ⟨-, hunpackB⟩ | ⟨hposB, hunpackB⟩
    · rw [hunpackA, hunpackB, signOf, signOf, if_neg hsignA, if_neg hsignB]
      rfl
    · rw [hunpackA, hunpackB, signOf, signOf, if_neg hsignA, if_neg hsignB]
      have hswapped := compare_of_magnitude_lt h
      rw [Ordering.then_eq_lt, Int.compare_eq_lt, Int.compare_eq_eq, Nat.compare_eq_lt] at hswapped
      refine congrArg some ?_
      rw [Ordering.swap_eq_lt, Ordering.then_eq_gt, Int.compare_eq_gt, Int.compare_eq_eq,
        Nat.compare_eq_gt]
      omega

theorem compare_of_signs (hsignA : ¬a.toBits.toNat < 2 ^ 31) (hsignB : b.toBits.toNat < 2 ^ 31)
    (hzero : a.magnitude ≠ 0 ∨ b.magnitude ≠ 0) : a.unpack.compare b.unpack = some .lt := by
  rcases unpack_of_isFinite a ha with ⟨hzeroA, hunpackA⟩ | ⟨hposA, hunpackA⟩ <;>
    rcases unpack_of_isFinite b hb with ⟨hzeroB, hunpackB⟩ | ⟨hposB, hunpackB⟩ <;>
    rw [hunpackA, hunpackB, signOf, signOf, if_neg hsignA, if_pos hsignB]
  · omega
  all_goals rfl

/-- **A pattern that comes first names the smaller number**, unless both are zeros. -/
theorem lt_of_totalCmp (h : FloatFormat.totalCmp a b = .lt)
    (hzero : a.magnitude ≠ 0 ∨ b.magnitude ≠ 0) : a < b := by
  have hltA : a.toBits.toNat < 2 ^ 32 := a.toBits.toNat_lt
  have hltB : b.toBits.toNat < 2 ^ 32 := b.toBits.toNat_lt
  have hkey : Ieee.totalKey 32 a.toBits.toNat < Ieee.totalKey 32 b.toBits.toNat :=
    Int.compare_eq_lt.1 h
  unfold Ieee.totalKey at hkey
  have hcompare : a.unpack.compare b.unpack = some .lt := by
    by_cases hsignA : a.toBits.toNat < 2 ^ 31 <;> by_cases hsignB : b.toBits.toNat < 2 ^ 31
    · refine compare_of_positive ha hb hsignA hsignB ?_
      unfold magnitude
      simp only [Nat.add_one_sub_one, hsignA, hsignB, if_true] at hkey
      omega
    · simp only [Nat.add_one_sub_one, hsignA, hsignB, if_true, if_false] at hkey
      omega
    · exact compare_of_signs ha hb hsignA hsignB hzero
    · refine compare_of_negative ha hb hsignA hsignB ?_
      unfold magnitude
      simp only [Nat.add_one_sub_one, hsignA, hsignB, if_false] at hkey
      omega
  show (UnpackedFloat.lt a.unpack b.unpack) = true
  unfold UnpackedFloat.lt
  rw [hcompare]
  rfl

/-- Finite numbers of one pattern or of magnitude zero are equal numbers. -/
theorem beq_of_magnitude (h : a.magnitude = 0) (h' : b.magnitude = 0) : (a == b) = true := by
  have hcompare : a.unpack.compare b.unpack = some .eq := by
    rcases unpack_of_isFinite a ha with ⟨-, hunpackA⟩ | ⟨hposA, -⟩
    · rcases unpack_of_isFinite b hb with ⟨-, hunpackB⟩ | ⟨hposB, -⟩
      · rw [hunpackA, hunpackB]
        rfl
      · omega
    · omega
  show (UnpackedFloat.beq a.unpack b.unpack) = true
  unfold UnpackedFloat.beq
  rw [hcompare]
  rfl

end Orders

/-- Different patterns have different places in the total order. -/
theorem eq_of_totalKey {a b : F32}
    (h : Ieee.totalKey 32 a.toBits.toNat = Ieee.totalKey 32 b.toBits.toNat) : a = b := by
  have hltA : a.toBits.toNat < 2 ^ 32 := a.toBits.toNat_lt
  have hltB : b.toBits.toNat < 2 ^ 32 := b.toBits.toNat_lt
  have hbits : a.toBits = b.toBits := by
    refine UInt32.toNat_inj.1 ?_
    unfold Ieee.totalKey at h
    simp only [Nat.add_one_sub_one] at h
    split at h <;> split at h <;> omega
  cases a
  cases b
  cases hbits
  rfl

theorem beq_eq (a b : F32) : (a == b) = (a.unpack.compare b.unpack == some .eq) := rfl

theorem not_beq_of_lt {a b : F32} (h : a < b) : (a == b) = false := by
  have hlt : (a.unpack.compare b.unpack == some .lt) = true := h
  rw [beq_eq, eq_of_beq hlt]
  rfl

theorem compare_swap (a b : UnpackedFloat) :
    UnpackedFloat.compare b a = (UnpackedFloat.compare a b).map Ordering.swap := by
  have hkeys : ∀ (e₁ e₂ : Int) (m₁ m₂ : Nat), (compare e₂ e₁).then (compare m₂ m₁) =
      ((compare e₁ e₂).then (compare m₁ m₂)).swap := by
    intro e₁ e₂ m₁ m₂
    rw [Ordering.swap_then, Int.compare_swap, Nat.compare_swap]
  cases a with
  | notANumber => cases b <;> rfl
  | infinity s₁ => cases b <;> cases s₁ <;> first | rfl | next s₂ => cases s₂ <;> rfl
  | zero s₁ => cases b with
    | finite s₂ m₂ e₂ h₂ => cases s₂ <;> rfl
    | infinity s₂ => cases s₂ <;> rfl
    | _ => rfl
  | finite s₁ m₁ e₁ h₁ => cases b with
    | finite s₂ m₂ e₂ h₂ =>
      cases s₁ <;> cases s₂
      · exact congrArg (some ∘ Ordering.swap) (hkeys e₁ e₂ m₁ m₂)
      · rfl
      · rfl
      · exact congrArg some (hkeys e₁ e₂ m₁ m₂)
    | infinity s₂ => cases s₁ <;> cases s₂ <;> rfl
    | _ => cases s₁ <;> rfl

theorem compare_finite_self (s : Sign) (m : Nat) (e : Int) (hm : 0 < m) :
    UnpackedFloat.compare (.finite s m e hm) (.finite s m e hm) = some .eq := by
  have hkey : (compare e e).then (compare m m) = .eq := by simp
  cases s
  · exact congrArg (some ∘ Ordering.swap) hkey
  · exact congrArg some hkey

theorem beq_symm (a b : F32) : (a == b) = (b == a) := by
  rw [beq_eq, beq_eq, compare_swap]
  rcases UnpackedFloat.compare b.unpack a.unpack with _ | _ | _ | _ <;> rfl

/-- **Equal numbers** have one pattern, but for the zeros of either sign. -/
theorem beq_iff {a b : F32} (ha : FloatFormat.isFinite a = true)
    (hb : FloatFormat.isFinite b = true) :
    (a == b) = true ↔ a = b ∨ (a.magnitude = 0 ∧ b.magnitude = 0) := by
  constructor
  · intro hbeq
    by_contra hne
    rw [not_or, Classical.not_and_iff_not_or_not] at hne
    obtain ⟨hbits, hzero⟩ := hne
    rcases hcmp : FloatFormat.totalCmp a b with _ | _ | _
    · rw [not_beq_of_lt (lt_of_totalCmp ha hb hcmp hzero)] at hbeq
      cases hbeq
    · exact hbits (eq_of_totalKey (Int.compare_eq_eq.1 hcmp))
    · have hgt : FloatFormat.totalCmp b a = .lt :=
        Int.compare_eq_lt.2 (Int.compare_eq_gt.1 hcmp)
      rw [beq_symm, not_beq_of_lt (lt_of_totalCmp hb ha hgt hzero.symm)] at hbeq
      cases hbeq
  · rintro (rfl | ⟨hzeroA, hzeroB⟩)
    · rcases unpack_of_isFinite a ha with ⟨hzero, -⟩ | ⟨hpos, hunpack⟩
      · exact beq_of_magnitude ha ha hzero hzero
      · rw [beq_eq, hunpack, compare_finite_self]
        rfl
    · exact beq_of_magnitude ha hb hzeroA hzeroB

end F32
