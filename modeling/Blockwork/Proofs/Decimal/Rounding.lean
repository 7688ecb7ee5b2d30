import Mathlib
import Blockwork.Decimal.Numeral
import Blockwork.Decimal.Shortest

/-!
# Zeros and rounding

A double that is not a zero never becomes one by being written and read back.  The
digits that are written for it lie in the interval of the reals that round to it, so
they stand for more than half of the smallest positive double, and such a number is not
rounded to zero.

Which value a numeral has is stated in rational numbers, and what the program computes
in natural numbers is compared with it there.
-/

namespace Blockwork.Decimal

/-! ## The digits that are chosen -/

/-- The number that digits stand for. -/
def Digits.value (d : Digits) : ℚ := d.digits * (10 : ℚ) ^ d.exponent

variable {i : Interval} {num den m d : Nat} {e x : Int}

theorem Interval.lt_of_has (hm : 0 < m) (hden : 0 < den)
    (h : (Interval.of m e).has num den = true) : 2 * den < num := by
  have hlow : (Interval.of m e).low = 2 ∧ (Interval.of m e).closed = false ∨
      3 ≤ (Interval.of m e).low := by
    by_cases hone : m = 1
    · subst hone
      exact .inl ⟨rfl, rfl⟩
    · refine .inr ?_
      rw [Interval.of]
      dsimp only
      split <;> omega
  rw [Interval.has] at h
  rcases hlow with ⟨hlow, hclosed⟩ | hlow
  · rw [hclosed, hlow] at h
    simp at h
    exact h.1
  · have hnum : (Interval.of m e).low * den ≤ num := by
      split at h <;> simp at h <;> omega
    have := Nat.mul_le_mul_right den hlow
    omega

theorem has_of_onGrid (h : onGrid i num den x = some d) :
    i.has (d * (den * tenTo x.toNat)) (num * tenTo (-x).toNat) = true := by
  unfold onGrid at h
  extract_lets step below inside far at h
  have hinside : inside d = true := by
    split at h
    · next hb hn =>
      have hb : inside below = true := ((Bool.and_eq_true _ _).mp hb).1
      split at h
      · exact Option.some.inj h ▸ hb
      · split at h
        · exact Option.some.inj h ▸ hn
        · split at h
          · exact Option.some.inj h ▸ hb
          · exact Option.some.inj h ▸ hn
    · next hb _ => exact Option.some.inj h ▸ ((Bool.and_eq_true _ _).mp hb).1
    · next hn => exact Option.some.inj h ▸ hn
    · cases h
  exact hinside

theorem has_of_firstGrid {top : Int} {d : Digits} :
    ∀ {fuel : Nat} {n : Int}, firstGrid i num den top fuel n = some d →
    i.has (d.digits * (den * tenTo d.exponent.toNat)) (num * tenTo (-d.exponent).toNat) = true
  | 0, _, h => by cases h
  | fuel + 1, n, h => by
    rw [firstGrid] at h
    split at h
    · next hd =>
      cases h
      exact has_of_onGrid hd
    · exact has_of_firstGrid h

theorem cast_twoTo (n : Nat) : (twoTo n : ℚ) = 2 ^ n := Nat.cast_pow 2 n

theorem cast_tenTo (n : Nat) : (tenTo n : ℚ) = 10 ^ n := Nat.cast_pow 10 n

theorem twoTo_succ (n : Nat) : twoTo (n + 1) = twoTo n * 2 := Nat.pow_succ 2 n

theorem zpow_eq_div (b : ℚ) (hb : b ≠ 0) (x : Int) : b ^ x = b ^ x.toNat / b ^ (-x).toNat := by
  rw [← zpow_natCast, ← zpow_natCast, ← zpow_sub₀ hb]
  congr 1
  omega

theorem Digits.value_trim (fuel : Nat) (d : Digits) : (d.trim fuel).value = d.value := by
  induction fuel generalizing d with
  | zero => rfl
  | succ fuel ih =>
    rw [trim]
    split
    · next h =>
      have hmod : d.digits % 10 = 0 := by
        simp only [Bool.and_eq_true, decide_eq_true_eq] at h
        exact h.1
      obtain ⟨k, hk⟩ := Nat.dvd_of_mod_eq_zero hmod
      rw [ih, value, value, hk, Nat.mul_div_cancel_left k (by decide), zpow_add_one₀ (by norm_num)]
      push_cast
      ring
    · rfl

/-- The digits that are chosen for a positive double are more than half of the smallest
one. -/
theorem lt_value_shortest (hm : 0 < m) (he : -1074 ≤ e) :
    (2 : ℚ) ^ (-1075 : Int) < (shortest m e).value := by
  unfold shortest
  extract_lets num den top
  split
  · next d hd =>
    have hden : 0 < num * tenTo (-d.exponent).toNat :=
      Nat.mul_pos (Nat.pow_pos (by decide)) (Nat.pow_pos (by decide))
    have hlt : 2 * (num * tenTo (-d.exponent).toNat) < d.digits * (den * tenTo d.exponent.toNat) :=
      Interval.lt_of_has hm hden (has_of_firstGrid hd)
    have hltq : (2 : ℚ) * (2 ^ (e - 2).toNat * 10 ^ (-d.exponent).toNat) <
        d.digits * (2 ^ (2 - e).toNat * 10 ^ d.exponent.toNat) := by exact_mod_cast hlt
    have hpow : (2 : ℚ) ^ (e - 2) = 2 ^ (e - 2).toNat / 2 ^ (2 - e).toNat := by
      rw [zpow_eq_div 2 (by norm_num), neg_sub]
    calc (2 : ℚ) ^ (-1075 : Int) ≤ 2 ^ (e - 1) := zpow_le_zpow_right₀ (by norm_num) (by omega)
      _ = 2 * 2 ^ (e - 2) := by
        rw [← zpow_one_add₀ (by norm_num)]
        congr 1
        omega
      _ < d.value := by
        rw [Digits.value, hpow, zpow_eq_div 10 (by norm_num), ← mul_div_assoc, ← mul_div_assoc,
          div_lt_div_iff₀ (by positivity) (by positivity)]
        linarith
      _ = (d.trim 20).value := (Digits.value_trim 20 d).symm
  · have hpos : 1 ≤ m * twoTo e.toNat := Nat.mul_pos hm (Nat.pow_pos (by decide))
    have hone : (1 : ℚ) ≤ (m * twoTo e.toNat : Nat) := by exact_mod_cast hpos
    calc (2 : ℚ) ^ (-1075 : Int) < 1 := zpow_lt_one_of_neg₀ (by norm_num) (by norm_num)
      _ ≤ (m * twoTo e.toNat : Nat) := hone
      _ = Digits.value ⟨m * twoTo e.toNat, 0⟩ := by rw [Digits.value, zpow_zero, mul_one]

/-! ## Reading back -/

theorem le_unitExponent (num den : Nat) : -1074 ≤ unitExponent num den := by
  unfold unitExponent
  extract_lets guess bounded
  have hbounded : -1074 ≤ bounded := by
    simp only [bounded]
    split <;> omega
  split <;> omega

theorem roundDiv_pos (h : den < 2 * num) : 0 < roundDiv num den := by
  unfold roundDiv
  extract_lets q r
  have hq : 0 < q ∨ r = num := by
    rcases Nat.lt_or_ge num den with hlt | hge
    · exact .inr (Nat.mod_eq_of_lt hlt)
    · rcases Nat.eq_zero_or_pos den with hzero | hpos
      · exact .inr (by simp [r, hzero])
      · exact .inl (Nat.div_pos hge hpos)
  split
  · next hlt => exact hq.resolve_right fun hr => by omega
  · split
    · exact Nat.succ_pos q
    · next hle =>
      split
      · exact hq.resolve_right fun hr => hle (hr.symm ▸ h)
      · exact Nat.succ_pos q

/-- A quotient above half of the smallest double is not rounded to zero. -/
theorem nearestBits_pos (h : den < 2 * num * twoTo 1074) : 0 < nearestBits num den := by
  have hnum : num ≠ 0 := by
    rintro rfl
    simp at h
  unfold nearestBits
  rw [if_neg hnum]
  extract_lets e units bits
  have hbits : 0 < bits := by
    rcases (le_unitExponent num den).lt_or_eq with hlt | heq
    · have hunit : 0 < (e + 1074).toNat := by
        simp only [e]
        omega
      exact Nat.lt_of_lt_of_le (Nat.mul_pos hunit (Nat.pow_pos (by decide))) (Nat.le_add_right _ _)
    · have hunits : 0 < units := by
        refine roundDiv_pos ?_
        have he : e = -1074 := heq.symm
        rw [he]
        have h1 : (-(-1074 : Int)).toNat = 1074 := rfl
        have h2 : ((-1074 : Int)).toNat = 0 := rfl
        rw [h1, h2]
        change den * 1 < _
        rw [Nat.mul_one, ← Nat.mul_assoc]
        exact h
      exact Nat.lt_of_lt_of_le hunits (Nat.le_add_left _ _)
  split
  · exact hbits
  · exact Nat.mul_pos (by decide) (Nat.pow_pos (by decide))

theorem nearestBits_le (num den : Nat) : nearestBits num den ≤ infiniteBits := by
  unfold nearestBits
  split
  · exact Nat.zero_le _
  · extract_lets e units bits
    split
    · next h => exact Nat.le_of_lt h
    · exact Nat.le_refl _

/-! ## Zeros -/

/-- What all bits but the sign are zero of is a zero. -/
theorem beq_zero_of_decode {x : Float} {negative : Bool} {e : Int}
    (h : decode x = .finite negative 0 e) : (x == 0.0) = true := by
  have hlt : x.toBits.toNat < 2 ^ 64 := x.toBits.toNat_lt
  have hbits : x.toBits.toNat = 0 ∨ x.toBits.toNat = 2 ^ 63 := by
    unfold decode decodeBits at h
    extract_lets n field fraction at h
    split at h
    · split at h <;> cases h
    · split at h
      · next hfield =>
        have hfraction : fraction = 0 := by injection h
        change x.toBits.toNat / 2 ^ 52 % 2 ^ 11 = 0 at hfield
        change x.toBits.toNat % 2 ^ 52 = 0 at hfraction
        omega
      · injection h with _ hm
        have : 0 < twoTo 52 := Nat.pow_pos (by decide)
        omega
  rw [← Float.ofBits_toBits x]
  rcases hbits with hbits | hbits
  · rw [show x.toBits = 0 from UInt64.toNat_inj.1 hbits]
    decide
  · rw [show x.toBits = 0x8000000000000000 from UInt64.toNat_inj.1 hbits]
    decide

theorem toBits_ofBits (b : UInt64) : (Float.ofBits b).toBits = b ∨
    (Float.ofBits b).toBits = 0x7ff8000000000000 := by
  have hpack : (Float.ofBits b).toBits.toBitVec =
      if @Float.Model.UnpackedFloat.isNaNBits Float.Model.Format.binary64 b.toBitVec then
        Float.Model.UnpackedFloat.packedNaN Float.Model.Format.binary64
      else b.toBitVec :=
    @Float.Model.UnpackedFloat.pack_unpack Float.Model.Format.binary64 b.toBitVec (by decide)
  split at hpack
  · exact .inr (UInt64.toBitVec_inj.1 hpack)
  · exact .inl (UInt64.toBitVec_inj.1 hpack)

theorem ofBits_beq_zero {b : UInt64} (h : b.toNat % 2 ^ 63 ≠ 0) :
    (Float.ofBits b == 0.0) = false := by
  by_contra hzero
  have hzero := (Float.beq_iff_ne_nan_and_eq.1 (Bool.not_eq_false _ ▸ hzero)).2.2
  have hbits : (Float.ofBits b).toBits = 0 ∨ (Float.ofBits b).toBits = 0x8000000000000000 := by
    rcases hzero with h | ⟨h, -⟩ | ⟨h, -⟩
    · exact .inl (h ▸ by decide)
    · exact .inl (h ▸ by decide)
    · exact .inr (h ▸ by decide)
  rcases toBits_ofBits b with hb | hb
  · rw [hb] at hbits
    rcases hbits with rfl | rfl <;> exact h rfl
  · rw [hb] at hbits
    rcases hbits with h | h <;> cases h

theorem nearest_beq_zero (negative : Bool) (h : den < 2 * num * twoTo 1074) :
    (nearest negative num den == 0.0) = false := by
  have hpos := nearestBits_pos h
  have hle : nearestBits num den ≤ (2 ^ 11 - 1) * 2 ^ 52 := nearestBits_le num den
  refine ofBits_beq_zero ?_
  have hsign : (if negative then twoTo 63 else 0) = 0 ∨
      (if negative then twoTo 63 else 0) = 2 ^ 63 := by
    cases negative
    · exact .inl rfl
    · exact .inr rfl
  rw [UInt64.toNat_ofNat']
  omega

theorem lt_of_zpow_lt {k : Nat} (hm : m ≠ 0) (h : (2 : ℚ) ^ (-((k : Int) + 1)) < m * 10 ^ e) :
    tenTo (-e).toNat < 2 * (m * tenTo e.toNat) * twoTo k := by
  have hq : (tenTo (-e).toNat : ℚ) < (twoTo (k + 1) * (m * tenTo e.toNat) : Nat) := by
    rw [zpow_eq_div 10 (by norm_num), ← mul_div_assoc, zpow_neg, inv_lt_comm₀ (by positivity)
      (by positivity), inv_div, div_lt_iff₀ (by positivity), ← Nat.cast_succ, zpow_natCast] at h
    rw [Nat.cast_mul, Nat.cast_mul, cast_tenTo, cast_tenTo, cast_twoTo]
    exact h
  have hn : tenTo (-e).toNat < twoTo (k + 1) * (m * tenTo e.toNat) := Nat.cast_lt.1 hq
  rw [twoTo_succ] at hn
  calc tenTo (-e).toNat < twoTo k * 2 * (m * tenTo e.toNat) := hn
    _ = 2 * (m * tenTo e.toNat) * twoTo k := by ring

/-- What is more than half of the smallest double is not read as a zero. -/
theorem ofDecimal_beq_zero (negative : Bool) {m : Nat} {e : Int}
    (h : (2 : ℚ) ^ (-1075 : Int) < m * 10 ^ e) : (ofDecimal negative m e == 0.0) = false := by
  have hm : m ≠ 0 := by
    rintro rfl
    rw [Nat.cast_zero, zero_mul] at h
    exact absurd h (not_lt.2 (by positivity))
  have hcount : m < 10 ^ digitCount m :=
    (Nat.length_toDigits_le_iff (by decide) Nat.length_toDigits_pos).1 (Nat.le_refl _)
  have htop : ¬ Int.ofNat (digitCount m) + e < -400 := by
    intro htop
    have hlt : (m : ℚ) * 10 ^ e < 10 ^ (-400 : Int) := calc
      (m : ℚ) * 10 ^ e < 10 ^ digitCount m * 10 ^ e := by
        have : (m : ℚ) < 10 ^ digitCount m := by exact_mod_cast hcount
        exact mul_lt_mul_of_pos_right this (by positivity)
      _ = 10 ^ (Int.ofNat (digitCount m) + e) := by
        rw [zpow_add₀ (by norm_num), Int.ofNat_eq_natCast, zpow_natCast]
      _ ≤ 10 ^ (-400 : Int) := zpow_le_zpow_right₀ (by norm_num) (by omega)
    have height : (8 : ℚ) ^ (400 : Int) = 2 ^ (1200 : Int) := by
      rw [show (8 : ℚ) = 2 ^ (3 : Int) by norm_num, ← zpow_mul]
      rfl
    have hten : (8 : ℚ) ^ (400 : Int) ≤ 10 ^ (400 : Int) :=
      zpow_le_zpow_left₀ (by norm_num) (by norm_num) (by norm_num)
    have hsmall : (10 : ℚ) ^ (-400 : Int) ≤ 2 ^ (-1075 : Int) := calc
      (10 : ℚ) ^ (-400 : Int) = (10 ^ (400 : Int))⁻¹ := zpow_neg 10 400
      _ ≤ (8 ^ (400 : Int))⁻¹ := inv_anti₀ (by positivity) hten
      _ = 2 ^ (-1200 : Int) := by rw [height, zpow_neg]
      _ ≤ 2 ^ (-1075 : Int) := zpow_le_zpow_right₀ (by norm_num) (by norm_num)
    exact absurd (h.trans hlt) (not_lt.2 hsmall)
  rw [ofDecimal, if_neg (by simpa [hm] using htop)]
  split
  · cases negative <;> decide
  · exact nearest_beq_zero negative (lt_of_zpow_lt hm h)

theorem le_of_decode {x : Float} {negative : Bool} {m : Nat} {e : Int}
    (h : decode x = .finite negative m e) : -1074 ≤ e := by
  unfold decode decodeBits at h
  extract_lets n field fraction at h
  split at h
  · split at h <;> cases h
  · split at h
    · injection h with _ _ he
      omega
    · injection h with _ _ he
      simp only [Int.ofNat_eq_natCast] at he
      omega

end Blockwork.Decimal
