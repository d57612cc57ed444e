import LispDoc.Number.Binary64
import Mathlib.Algebra.Order.Field.Power
import Mathlib.Data.Int.Log
import Mathlib.Data.Rat.Floor
import Mathlib.Tactic.FieldSimp
import Mathlib.Tactic.Linarith

/-!
# Rounding to floats

A larger ratio is rounded to a larger number (`Binary64.magnitude_ofRatio_mono`), and so is a product of larger factors
(`Binary64.magnitude_mul_mono`). A result that is finite for the largest of several arguments is therefore finite for
all of them.

Ratios are compared as rationals. A ratio is scaled by a power of two so that its mantissa has as many bits as fit, and
is then rounded to a nearest whole number, a tie to the even one (`Binary64.IsNearest`). Both steps are monotone, and a
ratio that is scaled by a larger power of two has a mantissa that starts where the smaller mantissas end.
-/

namespace LispDoc.Binary64

/-! ### Whole numbers -/

/-- No whole number is nearer to `v`, and between two the even one is taken. -/
structure IsNearest (v : ℚ) (n : Nat) : Prop where
  lower : (n : ℚ) ≤ v + 1 / 2
  upper : v ≤ n + 1 / 2
  even : v + 1 / 2 = n ∨ v = n + 1 / 2 → n % 2 = 0

theorem IsNearest.mono {v w : ℚ} {m n : Nat} (hm : IsNearest v m) (hn : IsNearest w n) (h : v ≤ w) : m ≤ n := by
  by_contra hlt
  have hsucc : (n : ℚ) + 1 ≤ m := by
    have : n + 1 ≤ m := by omega
    exact_mod_cast this
  have hlower := hm.lower
  have hupper := hn.upper
  -- only a tie leaves room for this, but then both are even
  have htie : v + 1 / 2 = m := by linarith
  have htie' : w = n + 1 / 2 := by linarith
  have hnext : (m : ℚ) = n + 1 := by linarith
  have hm2 := hm.even (.inl htie)
  have hn2 := hn.even (.inr htie')
  have : m = n + 1 := by exact_mod_cast hnext
  omega

theorem IsNearest.le {v : ℚ} {m : Nat} (hm : IsNearest v m) {n : Nat} (h : v ≤ n) : m ≤ n := by
  have hlower := hm.lower
  have hlt : (m : ℚ) < n + 1 := by linarith
  have : m < n + 1 := by exact_mod_cast hlt
  omega

theorem IsNearest.ge {v : ℚ} {m : Nat} (hm : IsNearest v m) {n : Nat} (h : (n : ℚ) ≤ v) : n ≤ m := by
  have hupper := hm.upper
  have hlt : (n : ℚ) < m + 1 := by linarith
  have : n < m + 1 := by exact_mod_cast hlt
  omega

private theorem isNearest_roundQuotient (num : Nat) {den : Nat} (hden : 0 < den) :
    IsNearest (num / den) (roundQuotient num den) := by
  have hpos : (0 : ℚ) < den := by exact_mod_cast hden
  have hsum : (num : ℚ) = den * (num / den : Nat) + (num % den : Nat) := by
    exact_mod_cast (Nat.div_add_mod num den).symm
  have hvalue : (num / den : ℚ) = (num / den : Nat) + (num % den : Nat) / den := by
    rw [hsum]
    field_simp
  have hnonneg : (0 : ℚ) ≤ (num % den : Nat) / den := by positivity
  have hlt : ((num % den : Nat) : ℚ) / den < 1 := by
    rw [div_lt_one hpos]
    exact_mod_cast Nat.mod_lt num hden
  rw [hvalue, roundQuotient]
  generalize num / den = q at *
  generalize num % den = r at *
  by_cases hless : 2 * r < den
  · have hhalf : (r : ℚ) / den < 1 / 2 := by
      rw [div_lt_div_iff₀ hpos two_pos]
      exact_mod_cast (by omega : r * 2 < 1 * den)
    rw [if_pos hless]
    refine ⟨by linarith, by linarith, ?_⟩
    rintro (htie | htie) <;> exfalso <;> linarith
  by_cases hmore : den < 2 * r
  · have hhalf : (1 : ℚ) / 2 < r / den := by
      rw [div_lt_div_iff₀ two_pos hpos]
      exact_mod_cast (by omega : 1 * den < r * 2)
    rw [if_neg hless, if_pos hmore]
    refine ⟨by push_cast; linarith, by push_cast; linarith, ?_⟩
    rintro (htie | htie) <;> exfalso <;> push_cast at htie <;> linarith
  · have hhalf : (r : ℚ) / den = 1 / 2 := by
      rw [div_eq_div_iff hpos.ne' two_ne_zero]
      exact_mod_cast (by omega : r * 2 = 1 * den)
    rw [if_neg hless, if_neg hmore, hhalf]
    rcases Nat.mod_two_eq_zero_or_one q with hq | hq
    · rw [hq, Nat.add_zero]
      exact ⟨by linarith, le_refl _, fun _ => hq⟩
    · rw [hq]
      refine ⟨by push_cast; linarith, by push_cast; linarith, fun _ => by omega⟩

/-! ### Powers of two -/

private theorem cast_twoPow_toNat {k : Int} (h : 0 ≤ k) : (twoPow k.toNat : ℚ) = 2 ^ k := by
  obtain ⟨n, rfl⟩ := Int.eq_ofNat_of_zero_le h
  rw [Int.toNat_natCast, zpow_natCast, twoPow]
  exact_mod_cast rfl

private theorem cast_twoPow_neg_toNat {k : Int} (h : k < 0) : (twoPow (-k).toNat : ℚ) = (2 ^ k)⁻¹ := by
  rw [cast_twoPow_toNat (by omega), zpow_neg]

private theorem powLe_iff (k : Int) (num : Nat) {den : Nat} (hden : 0 < den) :
    powLe k num den = true ↔ (2 : ℚ) ^ k ≤ num / den := by
  have hpos : (0 : ℚ) < den := by exact_mod_cast hden
  rw [powLe, le_div_iff₀ hpos]
  split
  · next hk =>
    rw [mul_comm ((2 : ℚ) ^ k), ← cast_twoPow_toNat hk, decide_eq_true_eq]
    exact_mod_cast Iff.rfl
  · next hk =>
    have hscale : (0 : ℚ) < 2 ^ k := by positivity
    rw [mul_comm ((2 : ℚ) ^ k), ← le_mul_inv_iff₀ hscale, ← cast_twoPow_neg_toNat (Int.not_le.1 hk), decide_eq_true_eq]
    exact_mod_cast Iff.rfl

private theorem floorLog2_eq {num den : Nat} (hnum : 0 < num) (hden : 0 < den) :
    floorLog2 num den = Int.log 2 (num / den : ℚ) := by
  have hpos : (0 : ℚ) < num / den := by positivity
  have hn : (2 : ℚ) ^ num.log2 ≤ num ∧ (num : ℚ) < 2 ^ (num.log2 + 1) :=
    ⟨by exact_mod_cast Nat.log2_self_le hnum.ne', by exact_mod_cast Nat.lt_log2_self⟩
  have hd : (2 : ℚ) ^ den.log2 ≤ den ∧ (den : ℚ) < 2 ^ (den.log2 + 1) :=
    ⟨by exact_mod_cast Nat.log2_self_le hden.ne', by exact_mod_cast Nat.lt_log2_self⟩
  -- the difference of the lengths is off by one at most
  have hupper : (num / den : ℚ) < 2 ^ ((num.log2 : Int) - den.log2 + 1) := by
    rw [div_lt_iff₀ (by positivity)]
    obtain ⟨hd, -⟩ := hd
    calc (num : ℚ) < 2 ^ (num.log2 + 1) := hn.2
      _ = 2 ^ ((num.log2 : Int) - den.log2 + 1) * 2 ^ den.log2 := by
        rw [← zpow_natCast, ← zpow_natCast, ← zpow_add₀ two_ne_zero]
        congr 1
        push_cast
        omega
      _ ≤ _ := by gcongr
  have hlower : (2 : ℚ) ^ ((num.log2 : Int) - den.log2 - 1) < num / den := by
    rw [lt_div_iff₀ (by positivity)]
    obtain ⟨-, hd⟩ := hd
    calc (2 : ℚ) ^ ((num.log2 : Int) - den.log2 - 1) * den
        < 2 ^ ((num.log2 : Int) - den.log2 - 1) * 2 ^ (den.log2 + 1) := by gcongr
      _ = 2 ^ num.log2 := by
        rw [← zpow_natCast, ← zpow_natCast, ← zpow_add₀ two_ne_zero]
        congr 1
        push_cast
        omega
      _ ≤ _ := hn.1
  have hlt := (Int.lt_zpow_iff_log_lt one_lt_two hpos).1 hupper
  have hle := (Int.zpow_le_iff_le_log one_lt_two hpos).1 hlower.le
  rw [floorLog2]
  split
  · next hpow =>
    have := (Int.zpow_le_iff_le_log one_lt_two hpos).1 ((powLe_iff _ _ hden).1 hpow)
    omega
  · next hpow =>
    have hnot : ¬ (2 : ℚ) ^ ((num.log2 : Int) - den.log2) ≤ num / den := fun h => hpow ((powLe_iff _ _ hden).2 h)
    have := (Int.lt_zpow_iff_log_lt one_lt_two hpos).1 (not_le.1 hnot)
    omega

/-! ### Ratios -/

private theorem magnitude_ofMagnitude (negative : Bool) {m : Nat} (h : m < signBit) :
    (ofMagnitude negative m).magnitude = m := by
  rw [signBit] at h
  have hword : ((if negative then signBit else 0) + m).toUInt64.toNat = (if negative then signBit else 0) + m := by
    refine UInt64.toNat_ofNat_of_lt' ?_
    rw [signBit, UInt64.size]
    split <;> omega
  rw [magnitude, ofMagnitude, hword, signBit]
  split <;> omega

theorem ofMagnitude_magnitude (x : Binary64) : ofMagnitude x.isNegative x.magnitude = x := by
  have hlt : x.bits.toNat < 2 ^ 64 := x.bits.toNat_lt
  have hbit : signBit = 2 ^ 63 := by decide
  have hsum : (if x.isNegative then signBit else 0) + x.magnitude = x.bits.toNat := by
    by_cases hneg : signBit ≤ x.bits.toNat
    · rw [isNegative, decide_eq_true hneg, if_pos rfl, magnitude, hbit]
      omega
    · rw [isNegative, decide_eq_false hneg, if_neg Bool.false_ne_true, magnitude, hbit]
      omega
  rw [ofMagnitude, hsum]
  exact congrArg mk UInt64.ofNat_toNat

/-- The power of two by which a ratio is scaled down for rounding. -/
def stepExponent (v : ℚ) : Int := max (-1074) (Int.log 2 v - 52)

private theorem stepExponent_mono {v w : ℚ} (hv : 0 < v) (h : v ≤ w) : stepExponent v ≤ stepExponent w := by
  have hlog : Int.log 2 v ≤ Int.log 2 w := Int.log_mono_right hv h
  rw [stepExponent, stepExponent]
  omega

/-- A scaled ratio has at most as many bits as a mantissa. -/
private theorem div_step_le (v : ℚ) : v / 2 ^ stepExponent v ≤ (2 * leadBit : Nat) := by
  have hlead : ((2 * leadBit : Nat) : ℚ) = 2 ^ (53 : Int) := by norm_num [leadBit]
  have hlog : v < 2 ^ (Int.log 2 v + 1) := Int.lt_zpow_succ_log_self one_lt_two v
  rw [div_le_iff₀ (by positivity), hlead, ← zpow_add₀ two_ne_zero]
  refine hlog.le.trans (zpow_le_zpow_right₀ one_le_two ?_)
  rw [stepExponent]
  omega

/-- It has exactly as many unless it is among the smallest. -/
private theorem le_div_step {v : ℚ} (hv : 0 < v) (h : -1074 < stepExponent v) :
    (leadBit : ℚ) ≤ v / 2 ^ stepExponent v := by
  have hlead : (leadBit : ℚ) = 2 ^ (52 : Int) := by norm_num [leadBit]
  have hlog : (2 : ℚ) ^ Int.log 2 v ≤ v := Int.zpow_log_le_self one_lt_two hv
  rw [le_div_iff₀ (by positivity), hlead, ← zpow_add₀ two_ne_zero]
  refine (zpow_le_zpow_right₀ one_le_two ?_).trans hlog
  rw [stepExponent] at h ⊢
  omega

private theorem magnitude_ofRatio (negative : Bool) {num den : Nat} (hnum : 0 < num) (hden : 0 < den) :
    ∃ m, IsNearest ((num / den : ℚ) / 2 ^ stepExponent (num / den)) m ∧
      (ofRatio negative num den).magnitude =
        min infinite ((stepExponent (num / den : ℚ) + 1074).toNat * leadBit + m) := by
  have hsmall : ∀ m, min infinite m < signBit := by
    intro m
    have : infinite < signBit := by decide
    omega
  rw [ofRatio, if_neg hnum.ne', floorLog2_eq hnum hden]
  simp only [magnitude_ofMagnitude negative (hsmall _)]
  have hstep : max (-1074) (Int.log 2 (num / den : ℚ) - 52) = stepExponent (num / den) := rfl
  rw [hstep]
  generalize stepExponent (num / den : ℚ) = q
  refine ⟨_, ?_, rfl⟩
  split
  · next hq =>
    have hscaled : (num / den : ℚ) / 2 ^ q = (num : ℚ) / (den * twoPow q.toNat : Nat) := by
      rw [Nat.cast_mul, cast_twoPow_toNat hq, div_div]
    rw [hscaled]
    exact isNearest_roundQuotient _ (Nat.mul_pos hden (Nat.two_pow_pos _))
  · next hq =>
    have hscaled : (num / den : ℚ) / 2 ^ q = ((num * twoPow (-q).toNat : Nat) : ℚ) / den := by
      rw [Nat.cast_mul, cast_twoPow_neg_toNat (Int.not_le.1 hq), div_right_comm, div_eq_mul_inv (num : ℚ)]
    rw [hscaled]
    exact isNearest_roundQuotient _ hden

/-- A larger ratio is rounded to a larger number. -/
theorem magnitude_ofRatio_mono (negative : Bool) {a b c d : Nat} (hb : 0 < b) (hd : 0 < d)
    (h : (a / b : ℚ) ≤ c / d) : (ofRatio negative a b).magnitude ≤ (ofRatio negative c d).magnitude := by
  rcases Nat.eq_zero_or_pos a with rfl | ha
  · rw [ofRatio, if_pos rfl, magnitude_ofMagnitude _ (by decide)]
    exact Nat.zero_le _
  have hv : (0 : ℚ) < a / b := by positivity
  have hc : 0 < c := by
    rcases Nat.eq_zero_or_pos c with rfl | hc
    · exfalso
      rw [Nat.cast_zero, zero_div] at h
      linarith
    · exact hc
  obtain ⟨m, hm, hleft⟩ := magnitude_ofRatio negative ha hb
  obtain ⟨n, hn, hright⟩ := magnitude_ofRatio negative hc hd
  rw [hleft, hright]
  have hstep := stepExponent_mono hv h
  have hbound : -1074 ≤ stepExponent (a / b : ℚ) := le_max_left _ _
  rcases eq_or_lt_of_le hstep with heq | hlt
  · have hle : m ≤ n := by
      rw [← heq] at hn
      exact hm.mono hn (by gcongr)
    rw [← heq]
    exact min_le_min_left _ (Nat.add_le_add_left hle _)
  -- the mantissa below the larger power of two does not reach the one above it
  · have hupper : m ≤ 2 * leadBit := hm.le (div_step_le _)
    have hlower : leadBit ≤ n := hn.ge (le_div_step (lt_of_lt_of_le hv h) (by omega))
    have hnat : (stepExponent (a / b : ℚ) + 1074).toNat + 1 ≤ (stepExponent (c / d : ℚ) + 1074).toNat := by omega
    have hmul := Nat.mul_le_mul_right leadBit hnat
    rw [Nat.add_mul, Nat.one_mul] at hmul
    omega

/-! ### Values -/

/-- The value of a finite number, without its sign. -/
def value (x : Binary64) : ℚ := x.mantissa * 2 ^ x.exponent

private theorem ratio_pos (x : Binary64) : 0 < x.ratio.2 := by
  rw [ratio]
  split
  · exact Nat.one_pos
  · exact Nat.two_pow_pos _

private theorem ratio_eq (x : Binary64) : (x.ratio.1 : ℚ) / x.ratio.2 = x.value := by
  rw [ratio, value]
  split
  · next h => rw [Nat.cast_mul, cast_twoPow_toNat h, Nat.cast_one, div_one]
  · next h => rw [cast_twoPow_neg_toNat (Int.not_le.1 h), div_inv_eq_mul]

private theorem value_nonneg (x : Binary64) : 0 ≤ x.value := by
  rw [value]
  positivity

/-- The exponent bits count from one for numbers whose mantissa has no leading bit. -/
theorem exists_exponent (x : Binary64) :
    ∃ e : Nat, 1 ≤ e ∧ x.exponent = e - 1075 ∧ x.magnitude + leadBit = e * leadBit + x.mantissa ∧
      x.mantissa < 2 * leadBit ∧ (1 < e → leadBit ≤ x.mantissa) := by
  have hlead : 0 < leadBit := by decide
  have hdiv := Nat.div_add_mod x.magnitude leadBit
  have hmod := Nat.mod_lt x.magnitude hlead
  rw [exponent, mantissa]
  by_cases h : x.magnitude < leadBit
  · rw [if_pos h, if_pos h, Nat.mod_eq_of_lt h]
    exact ⟨1, Nat.le_refl 1, rfl, by omega, by omega, by omega⟩
  · rw [if_neg h, if_neg h]
    have hpos : 1 ≤ x.magnitude / leadBit := (Nat.le_div_iff_mul_le hlead).2 (by omega)
    refine ⟨x.magnitude / leadBit, hpos, rfl, ?_, by omega, fun _ => by omega⟩
    rw [Nat.mul_comm]
    omega

private theorem value_mono {x y : Binary64} (h : x.magnitude ≤ y.magnitude) : x.value ≤ y.value := by
  obtain ⟨e, he, hexponent, hx, hlt, hlead⟩ := x.exists_exponent
  obtain ⟨f, hf, hexponent', hy, hlt', hlead'⟩ := y.exists_exponent
  rw [value, value, hexponent, hexponent']
  rcases Nat.lt_trichotomy e f with hef | rfl | hef
  · have hmantissa : (y.mantissa : ℚ) ≥ leadBit := by exact_mod_cast hlead' (by omega)
    calc (x.mantissa : ℚ) * 2 ^ ((e : Int) - 1075)
        ≤ (2 * leadBit : Nat) * 2 ^ ((e : Int) - 1075) := by gcongr
      _ = leadBit * 2 ^ ((e : Int) + 1 - 1075) := by
        rw [Nat.cast_mul, mul_comm (2 : Nat).cast, mul_assoc, Nat.cast_ofNat, ← zpow_one_add₀ two_ne_zero]
        congr 2
        omega
      _ ≤ y.mantissa * 2 ^ ((f : Int) - 1075) := by
        gcongr
        · exact one_le_two
        · omega
  · have hmantissa : x.mantissa ≤ y.mantissa := by omega
    gcongr
  -- a larger exponent would make the whole larger
  · have hmul := Nat.mul_le_mul_right leadBit (show f + 1 ≤ e from hef)
    have := hlead (by omega)
    rw [Nat.add_mul] at hmul
    omega

theorem magnitude_ofNat_mono {m n : Nat} (h : m ≤ n) : (ofNat m).magnitude ≤ (ofNat n).magnitude := by
  refine magnitude_ofRatio_mono false Nat.one_pos Nat.one_pos ?_
  gcongr

/-- Larger factors give a larger product. -/
theorem magnitude_mul_mono {x y z w : Binary64} (hx : x.magnitude ≤ y.magnitude) (hz : z.magnitude ≤ w.magnitude) :
    (x.mul z).magnitude ≤ (y.mul w).magnitude := by
  refine magnitude_ofRatio_mono false (Nat.mul_pos x.ratio_pos z.ratio_pos) (Nat.mul_pos y.ratio_pos w.ratio_pos) ?_
  rw [Nat.cast_mul, Nat.cast_mul, Nat.cast_mul, Nat.cast_mul, mul_div_mul_comm, mul_div_mul_comm, ratio_eq, ratio_eq,
    ratio_eq, ratio_eq]
  exact mul_le_mul (value_mono hx) (value_mono hz) z.value_nonneg y.value_nonneg

end LispDoc.Binary64
