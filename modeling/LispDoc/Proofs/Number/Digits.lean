import LispDoc.Number.Digits

/-!
# Reading written integers

The digits of a number read back as the number, and so does every signed 64 bit word (`Digits.toInt64?_ofInt`).
-/

namespace LispDoc.Digits

theorem isDigit_of_mem_ofNat {n : Nat} {c : Char} (h : c ∈ ofNat n) : c.isDigit = true :=
  Nat.isDigit_of_mem_toDigits (by decide) (by decide) h

theorem ofNat_ne_nil (n : Nat) : ofNat n ≠ [] := Nat.toDigits_ne_nil

theorem isNumber_iff {cs : List Char} : isNumber cs = true ↔ cs ≠ [] ∧ ∀ c ∈ cs, c.isDigit = true := by
  simp [isNumber]

theorem isNumber_ofNat (n : Nat) : isNumber (ofNat n) = true :=
  isNumber_iff.2 ⟨ofNat_ne_nil n, fun _ hc => isDigit_of_mem_ofNat hc⟩

theorem toNat_ofNat (n : Nat) : toNat (ofNat n) = n := Nat.ofDigitChars_ten_toDigits

private theorem sign_of_isDigit {cs : List Char} (h : ∀ c ∈ cs.head?, c.isDigit = true) : sign cs = (false, cs) := by
  unfold sign
  split
  · exact absurd (h '-' (by simp)) (by decide)
  · exact absurd (h '+' (by simp)) (by decide)
  · rfl

private theorem sign_ofNat (n : Nat) : sign (ofNat n) = (false, ofNat n) :=
  sign_of_isDigit fun _ hc => isDigit_of_mem_ofNat (List.mem_of_mem_head? hc)

private theorem sign_ofInt (n : Int) : sign (ofInt n) = (decide (n < 0), ofNat n.natAbs) := by
  unfold ofInt
  split
  · rename_i h; simp [sign, h]
  · rename_i h; simp [sign_ofNat, h]

theorem signed_natAbs (n : Int) : signed (decide (n < 0)) n.natAbs = n := by
  unfold signed
  by_cases h : n < 0
  · simp only [h, decide_true, if_true]; omega
  · simp only [h, decide_false, Bool.false_eq_true, if_false]; omega

theorem fitsInt64_toInt (v : Int64) : fitsInt64 v.toInt = true := by
  have hle := v.le_toInt
  have hlt := v.toInt_lt
  simp only [fitsInt64, Bool.and_eq_true, decide_eq_true_eq]
  omega

/-- The text of a signed 64 bit word reads back as the word. -/
theorem toInt64?_ofInt (v : Int64) : toInt64? (ofInt v.toInt) = some v := by
  unfold toInt64?
  rw [sign_ofInt]
  simp only [isNumber_ofNat, toNat_ofNat, signed_natAbs, fitsInt64_toInt, Bool.and_self, if_true, Int64.ofInt_toInt]

theorem mem_ofInt {n : Int} {c : Char} (h : c ∈ ofInt n) : c = '-' ∨ c.isDigit = true := by
  unfold ofInt at h
  split at h
  · rcases List.mem_cons.1 h with rfl | h
    · exact .inl rfl
    · exact .inr (isDigit_of_mem_ofNat h)
  · exact .inr (isDigit_of_mem_ofNat h)

theorem ofInt_ne_nil (n : Int) : ofInt n ≠ [] := by
  unfold ofInt
  split
  · simp
  · exact ofNat_ne_nil _

/-! ### Values of digits -/

private theorem toNat_of_isDigit {c : Char} (h : c.isDigit = true) : 48 ≤ c.toNat ∧ c.toNat ≤ 57 := by
  simp only [Char.isDigit, Bool.and_eq_true, decide_eq_true_eq] at h
  exact h

theorem value_le {c : Char} (h : c.isDigit = true) : value c ≤ 9 := by
  have hrange := toNat_of_isDigit h
  have hzero : '0'.toNat = 48 := rfl
  rw [value, hzero]
  omega

theorem value_pos {c : Char} (h : c.isDigit = true) (hc : c ≠ '0') : 1 ≤ value c := by
  have hrange := toNat_of_isDigit h
  have hzero : '0'.toNat = 48 := rfl
  have hne : c.toNat ≠ 48 := fun he => hc (Char.toNat_inj.1 (he.trans hzero.symm))
  rw [value, hzero]
  omega

theorem append_append (n : Nat) (as bs : List Char) : append n (as ++ bs) = append (append n as) bs :=
  List.foldl_append

/-- The digits of a number other than zero do not start with a zero. -/
theorem head?_ofNat_ne_zero {n : Nat} (h : 0 < n) : (ofNat n).head? ≠ some '0' := by
  induction n using Nat.strongRecOn with
  | ind n ih =>
    by_cases hn : n < 10
    · simp [ofNat, Nat.toDigits_of_lt_base hn, Nat.ne_of_gt h]
    · have hrec := ih (n / 10) (by omega) (by omega)
      have hfirst : (ofNat n).head? = (ofNat (n / 10)).head? := by
        rw [ofNat, ofNat, Nat.toDigits_of_base_le (by decide) (by omega), List.head?_append,
          List.head?_eq_some_head Nat.toDigits_ne_nil, Option.some_or]
      rwa [hfirst]

/-- A zero stands in front of no other digit. -/
theorem head?_ofNat_of_length {n : Nat} (h : 1 < (ofNat n).length) : (ofNat n).head? ≠ some '0' := by
  rcases Nat.eq_zero_or_pos n with rfl | hn
  · simp [ofNat] at h
  · exact head?_ofNat_ne_zero hn

end LispDoc.Digits
