import LispDoc.Number.Shortest
import LispDoc.Proofs.Number.Rounding

/-!
# Bounds of shortest decimals

The decimal that stands for a float lies in the float's rounding interval, so that it exceeds the float by half a step
at most (`Binary64.value_shortest_le`). For all floats but the largest this is no more than the upper end of the
interval of the second largest (`Binary64.value_shortest_le_roof`).
-/

namespace LispDoc

def Decimal.value (d : Decimal) : ℚ := d.digits * 10 ^ d.scale

namespace Binary64

/-- A grid point lies in the rounding interval, seen on the scale where interval and grid are whole numbers. -/
theorem onGrid?_eq_some {tieUp : Bool} {x : Binary64} {scale : Int} {g : Nat} (h : onGrid? tieUp x scale = some g) :
    x.interval.1 * (twoPow (x.exponent - 2).toNat * tenPow (-scale).toNat) ≤
        g * (twoPow (-(x.exponent - 2)).toNat * tenPow scale.toNat) ∧
      g * (twoPow (-(x.exponent - 2)).toNat * tenPow scale.toNat) ≤
        x.interval.2.2 * (twoPow (x.exponent - 2).toNat * tenPow (-scale).toNat) := by
  unfold onGrid? at h
  generalize x.interval = i at h ⊢
  obtain ⟨low, mid, high⟩ := i
  dsimp only at h ⊢
  generalize twoPow (x.exponent - 2).toNat * tenPow (-scale).toNat = up at h ⊢
  generalize twoPow (-(x.exponent - 2)).toNat * tenPow scale.toNat = down at h ⊢
  have hinside : ∀ n : Nat, (if (x.mantissa % 2 == 0) = true then
      decide (low * up ≤ n * down) && decide (n * down ≤ high * up)
      else decide (low * up < n * down) && decide (n * down < high * up)) = true →
      low * up ≤ n * down ∧ n * down ≤ high * up := by
    intro n hn
    split at hn
    · simpa using hn
    · simp only [Bool.and_eq_true, decide_eq_true_eq] at hn
      exact ⟨hn.1.le, hn.2.le⟩
  split at h
  · next hg _ =>
    obtain rfl := Option.some.inj h
    exact hinside _ hg
  · next _ hg =>
    obtain rfl := Option.some.inj h
    exact hinside _ hg
  · next hg hg' =>
    obtain rfl := Option.some.inj h
    split
    · exact hinside _ hg
    · exact hinside _ hg'
  · cases h

private theorem pow_toNat_div {b : ℚ} (hb : b ≠ 0) (k : Int) : b ^ k.toNat / b ^ (-k).toNat = b ^ k := by
  rw [← zpow_natCast, ← zpow_natCast, ← zpow_sub₀ hb]
  congr 1
  omega

/-- A grid point exceeds the number by half a step at most. -/
private theorem onGrid?_le {tieUp : Bool} {x : Binary64} {scale : Int} {g : Nat} (h : onGrid? tieUp x scale = some g) :
    (g : ℚ) * 10 ^ scale ≤ (4 * x.mantissa + 2 : Nat) * 2 ^ (x.exponent - 2) := by
  have hle : (g : ℚ) * (2 ^ (-(x.exponent - 2)).toNat * 10 ^ scale.toNat) ≤
      (4 * x.mantissa + 2 : Nat) * (2 ^ (x.exponent - 2).toNat * 10 ^ (-scale).toNat) := by
    exact_mod_cast (onGrid?_eq_some h).2
  have hten : (10 : ℚ) ^ scale.toNat / 10 ^ (-scale).toNat = 10 ^ scale := pow_toNat_div (by norm_num) scale
  have htwo : (2 : ℚ) ^ (x.exponent - 2).toNat / 2 ^ (-(x.exponent - 2)).toNat = 2 ^ (x.exponent - 2) :=
    pow_toNat_div two_ne_zero _
  rw [← hten, ← htwo, mul_div_assoc', mul_div_assoc', div_le_div_iff₀ (by positivity) (by positivity)]
  linarith

private theorem onGrid?_pos {tieUp : Bool} {x : Binary64} {scale : Int} {g : Nat} (hx : 0 < x.mantissa)
    (h : onGrid? tieUp x scale = some g) : 0 < g := by
  have hle := (onGrid?_eq_some h).1
  have hlow : 0 < x.interval.1 := by
    rw [interval]
    dsimp only
    split <;> omega
  rcases Nat.eq_zero_or_pos g with rfl | hg
  · have hup : 0 < twoPow (x.exponent - 2).toNat * tenPow (-scale).toNat :=
      Nat.mul_pos (Nat.two_pow_pos _) (Nat.pow_pos (by decide))
    have := Nat.mul_pos hlow hup
    omega
  · exact hg

private theorem value_ofGrid (scale : Int) (g : Nat) : (ofGrid scale g).value = g * 10 ^ scale := by
  rw [ofGrid]
  split
  · next h =>
    subst h
    rw [Decimal.value, zpow_add_one₀ (by norm_num)]
    push_cast
    ring
  · rfl

/-- The shortest decimal is a point of some grid, unless none is found. -/
private theorem shortest_cases (tieUp : Bool) (x : Binary64) :
    x.shortest tieUp = ⟨0, 0⟩ ∨
      ∃ scale g, onGrid? tieUp x scale = some g ∧ x.shortest tieUp = ofGrid scale g := by
  rw [shortest]
  generalize floorLog10 x.ratio.1 x.ratio.2 = top
  cases hfound : (List.range 17).findSome? fun n : Nat =>
      (onGrid? tieUp x (top - n)).map (ofGrid (top - n)) with
  | none => exact .inl rfl
  | some d =>
    obtain ⟨n, -, hn⟩ := List.exists_of_findSome?_eq_some hfound
    obtain ⟨g, hg, rfl⟩ := Option.map_eq_some_iff.1 hn
    exact .inr ⟨top - n, g, hg, rfl⟩

private theorem mantissa_pos {x : Binary64} (h : x.isZero = false) : 0 < x.mantissa := by
  have hne : x.magnitude ≠ 0 := by simpa [isZero] using h
  have hlead : 0 < leadBit := by decide
  rw [mantissa]
  split
  · next hlt =>
    rw [Nat.mod_eq_of_lt hlt]
    omega
  · omega

theorem digits_shortest (tieUp : Bool) {x : Binary64} (h : x.isZero = false) :
    x.shortest tieUp = ⟨0, 0⟩ ∨ 0 < (x.shortest tieUp).digits := by
  rcases shortest_cases tieUp x with hnone | ⟨scale, g, hg, hgrid⟩
  · exact .inl hnone
  · right
    have hpos := onGrid?_pos (mantissa_pos h) hg
    rw [hgrid, ofGrid]
    split
    · exact Nat.one_pos
    · exact hpos

theorem value_shortest_le (tieUp : Bool) (x : Binary64) :
    (x.shortest tieUp).value ≤ (4 * x.mantissa + 2 : Nat) * 2 ^ (x.exponent - 2) := by
  rcases shortest_cases tieUp x with h | ⟨scale, g, hg, h⟩
  · rw [h, Decimal.value, Nat.cast_zero, zero_mul]
    positivity
  · rw [h, value_ofGrid]
    exact onGrid?_le hg

/-- Half a step above the second largest number. -/
def roof : Nat := (2 ^ 54 - 3) * 2 ^ 970

theorem value_shortest_le_roof (tieUp : Bool) {x : Binary64} (h : x.magnitude + 1 < infinite) :
    (x.shortest tieUp).value ≤ roof := by
  refine (value_shortest_le tieUp x).trans ?_
  obtain ⟨e, he, hexponent, hmagnitude, hlt, hlead⟩ := x.exists_exponent
  rw [infinite, leadBit] at h
  rw [leadBit] at hmagnitude hlt hlead
  rw [hexponent]
  -- at the largest exponent there is a larger mantissa, below it the next exponent
  rcases Nat.lt_or_ge e 2046 with hsmall | hlarge
  · have hmantissa : 4 * x.mantissa + 2 ≤ 2 ^ 55 - 2 := by omega
    calc ((4 * x.mantissa + 2 : Nat) : ℚ) * 2 ^ ((e : Int) - 1075 - 2)
        ≤ (2 ^ 55 - 2 : Nat) * 2 ^ ((968 : Nat) : Int) := by
          gcongr
          · exact one_le_two
          · omega
      _ ≤ roof := by
          rw [zpow_natCast]
          exact_mod_cast (by decide +kernel : (2 ^ 55 - 2) * 2 ^ 968 ≤ roof)
  · have hmantissa : 4 * x.mantissa + 2 ≤ 2 ^ 55 - 6 := by omega
    calc ((4 * x.mantissa + 2 : Nat) : ℚ) * 2 ^ ((e : Int) - 1075 - 2)
        ≤ (2 ^ 55 - 6 : Nat) * 2 ^ ((969 : Nat) : Int) := by
          gcongr
          · exact one_le_two
          · omega
      _ ≤ roof := by
          rw [zpow_natCast]
          exact_mod_cast (by decide +kernel : (2 ^ 55 - 6) * 2 ^ 969 ≤ roof)

end Binary64

end LispDoc
