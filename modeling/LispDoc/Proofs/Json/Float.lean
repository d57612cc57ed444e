import LispDoc.Datum.Json
import LispDoc.Proofs.Json.Literal
import LispDoc.Proofs.Number.Shortest

/-!
# Reading written floats

Every finite float is written as a number literal that is read as some float again
(`Datum.isSome_toBinary64?_floatToJson`). The reader rounds the digits of a literal, a power of ten and their product
one after the other, so that it may give another float than was written, or none where the product overflows.

A literal without an exponent has a fraction, and so its digits are only scaled down. A literal with an exponent that is
not negative spells the shortest decimal of the float. Unless the float is the largest one, that decimal is at most
`Binary64.roof`, and no rounding of such a number overflows (`Json.isSome_scaled?`): rounding is monotone, so that it is
enough to look at the largest significand for each power of ten, and only at the powers for which not every significand
is allowed. The largest float is looked at by itself.
-/

namespace LispDoc

/-! ### The size of digits -/

namespace Digits

private theorem mul_pow_le_append (n : Nat) (cs : List Char) : n * 10 ^ cs.length ≤ append n cs := by
  induction cs generalizing n with
  | nil => simp [append]
  | cons c cs ih =>
    calc n * 10 ^ (c :: cs).length = 10 * n * 10 ^ cs.length := by
          rw [List.length_cons, Nat.pow_succ]
          ac_rfl
      _ ≤ (10 * n + value c) * 10 ^ cs.length := Nat.mul_le_mul_right _ (Nat.le_add_right _ _)
      _ ≤ append n (c :: cs) := ih (10 * n + value c)

theorem le_append (n : Nat) (cs : List Char) : n ≤ append n cs := by
  have hpos : 0 < 10 ^ cs.length := Nat.pow_pos (by decide)
  exact Nat.le_trans (Nat.le_mul_of_pos_right n hpos) (mul_pow_le_append n cs)

private theorem append_lt {cs : List Char} (h : ∀ c ∈ cs, c.isDigit = true) (n : Nat) :
    append n cs < (n + 1) * 10 ^ cs.length := by
  induction cs generalizing n with
  | nil => simp [append]
  | cons c cs ih =>
    have hc := value_le (h c (by simp))
    calc append n (c :: cs) < (10 * n + value c + 1) * 10 ^ cs.length := ih (fun d hd => h d (by simp [hd])) _
      _ ≤ (10 * (n + 1)) * 10 ^ cs.length := Nat.mul_le_mul_right _ (by omega)
      _ = (n + 1) * 10 ^ (c :: cs).length := by
          rw [List.length_cons, Nat.pow_succ]
          ac_rfl

end Digits

namespace Json

open Binary64 (roof)

/-! ### Scaling -/

private theorem cast_tenPow (n : Nat) : (tenPow n : ℚ) = 10 ^ n := by
  rw [tenPow]
  exact_mod_cast rfl

private theorem tenPow_mono {m n : Nat} (h : m ≤ n) : tenPow m ≤ tenPow n := Nat.pow_le_pow_right (by decide) h

private theorem isSome_scaled?_of_neg (significand : Nat) {scale : Int} (h : scale < 0) :
    (scaled? significand scale).isSome = true := by
  rw [scaled?, if_neg (Int.not_le.2 h)]
  rfl

private theorem ofDecimal_one {s : Nat} (h : s ≤ 400) :
    Binary64.ofDecimal false 1 s = Binary64.ofRatio false (tenPow s) 1 := by
  have hlog : Nat.log2 1 = 0 := by decide
  rw [Binary64.ofDecimal, if_neg one_ne_zero, if_neg (by omega), hlog, if_neg (by omega), if_pos (by omega),
    Nat.one_mul, Int.toNat_natCast]

private theorem magnitude_ofDecimal_mono {s t : Nat} (h : s ≤ t) (ht : t ≤ 400) :
    (Binary64.ofDecimal false 1 s).magnitude ≤ (Binary64.ofDecimal false 1 t).magnitude := by
  rw [ofDecimal_one (by omega), ofDecimal_one ht]
  refine Binary64.magnitude_ofRatio_mono false Nat.one_pos Nat.one_pos ?_
  have hpow := tenPow_mono h
  gcongr

/-- The largest word that does not exceed the roof once it is scaled by a power of ten. -/
def maxSignificand (s : Nat) : Nat := min (Digits.wordBound - 1) (roof / tenPow s)

private theorem isFinite_maxSignificand :
    ∀ i < 21, ((Binary64.ofNat (maxSignificand (288 + i))).mul
      (Binary64.ofDecimal false 1 (288 + i : Nat))).isFinite = true := by
  decide +kernel

private theorem isFinite_mul_tenPow {significand s : Nat} (hword : significand < Digits.wordBound) (hs : s ≤ maxScale)
    (h : significand * tenPow s ≤ roof) :
    ((Binary64.ofNat significand).mul (Binary64.ofDecimal false 1 s)).isFinite = true := by
  rw [maxScale] at hs
  -- below `10 ^ 288` every word is allowed, and the product is larger there
  obtain ⟨i, hi, hle, hmax⟩ : ∃ i < 21, s ≤ 288 + i ∧ significand ≤ maxSignificand (288 + i) := by
    rcases Nat.lt_or_ge s 288 with hsmall | hlarge
    · refine ⟨0, by decide, by omega, ?_⟩
      have : maxSignificand (288 + 0) = Digits.wordBound - 1 := by decide +kernel
      omega
    · refine ⟨s - 288, by omega, by omega, ?_⟩
      rw [Nat.add_sub_cancel' hlarge, maxSignificand, Nat.le_min]
      have hdiv := (Nat.le_div_iff_mul_le (Nat.pow_pos (by decide) : 0 < tenPow s)).2 h
      exact ⟨by omega, hdiv⟩
  have hmono := Binary64.magnitude_mul_mono (Binary64.magnitude_ofNat_mono hmax)
    (magnitude_ofDecimal_mono hle (by omega))
  have hfinite := isFinite_maxSignificand i hi
  rw [Binary64.isFinite, decide_eq_true_eq] at hfinite ⊢
  omega

private theorem roof_lt : roof < tenPow (maxScale + 1) := by decide +kernel

theorem isSome_scaled? {significand : Nat} {scale : Int} (hword : significand < Digits.wordBound)
    (h : (significand : ℚ) * 10 ^ scale ≤ roof) : (scaled? significand scale).isSome = true := by
  rcases lt_or_ge scale 0 with hneg | hpos
  · exact isSome_scaled?_of_neg significand hneg
  obtain ⟨s, rfl⟩ := Int.eq_ofNat_of_zero_le hpos
  have hnat : significand * tenPow s ≤ roof := by
    rw [zpow_natCast, ← cast_tenPow] at h
    exact_mod_cast h
  rw [scaled?, if_pos hpos, Int.toNat_natCast]
  rcases Nat.lt_or_ge maxScale s with hlarge | hsmall
  · have hzero : significand = 0 := by
      by_contra hne
      have hpow : tenPow (maxScale + 1) ≤ tenPow s := tenPow_mono hlarge
      have hpos := Nat.le_mul_of_pos_left (tenPow s) (Nat.pos_of_ne_zero hne)
      exact absurd (hpow.trans (hpos.trans hnat)) (Nat.not_le.2 roof_lt)
    subst hzero
    rw [if_neg (by omega), if_pos (by decide)]
    rfl
  · rw [if_pos hsmall, if_pos (isFinite_mul_tenPow hword hsmall hnat)]
    rfl

/-! ### Digits that fit -/

/-- Digits are taken until the next one does not fit. -/
private theorem takeDigits_spec {significand : Nat} (h : significand < Digits.wordBound) (cs : List Char) :
    ∃ taken left, takeDigits significand cs = (Digits.append significand taken, left) ∧ cs = taken ++ left ∧
      Digits.append significand taken < Digits.wordBound ∧
      ∀ c ∈ left.head?, Digits.wordBound ≤ Digits.append significand taken * 10 + Digits.value c := by
  induction cs generalizing significand with
  | nil => exact ⟨[], [], rfl, rfl, h, by simp⟩
  | cons c cs ih =>
    rw [takeDigits]
    split
    · next hfits =>
      obtain ⟨taken, left, htake, hsplit, hlt, hstop⟩ := ih hfits
      rw [Nat.mul_comm significand 10] at htake hlt hstop ⊢
      exact ⟨c :: taken, left, htake, by rw [hsplit, List.cons_append], hlt, hstop⟩
    · next hfits => exact ⟨[], c :: cs, rfl, rfl, h, by simpa [Digits.append] using hfits⟩

/-- All digits are taken of a number that fits. -/
private theorem takeDigits_of_lt {cs : List Char} (h : Digits.toNat cs < Digits.wordBound) :
    takeDigits 0 cs = (Digits.toNat cs, []) := by
  obtain ⟨taken, left, htake, rfl, -, hstop⟩ := takeDigits_spec (by decide : 0 < Digits.wordBound) cs
  rcases left with _ | ⟨c, left⟩
  · rw [htake, List.append_nil]
    rfl
  -- with one digit more the number would already be too large
  · have hlarge := hstop c (by simp)
    have hle := Digits.le_append (10 * Digits.append 0 taken + Digits.value c) left
    have hvalue : Digits.toNat (taken ++ c :: left) =
        Digits.append (10 * Digits.append 0 taken + Digits.value c) left := Digits.append_append 0 taken (c :: left)
    omega

/-! ### Literals -/

/-- A literal is read if its digits can be scaled. The digits of the fraction that do not fit are left out, and an
exponent beyond all bounds is only looked at for its sign. -/
private theorem isSome_toBinary64? {parts : NumberParts} (h : parts.Proper)
    (hwhole : Digits.toNat parts.whole < Digits.wordBound) {negative : Bool} {ds : List Char}
    (hexponent : parts.exponent.getD (false, []) = (negative, ds))
    (hlarge : 0x80000000 ≤ Digits.toNat ds → negative = true)
    (hscaled : ∀ taken left, parts.fraction.getD [] = taken ++ left →
      Digits.append (Digits.toNat parts.whole) taken < Digits.wordBound →
      (∀ c ∈ left.head?,
        Digits.wordBound ≤ Digits.append (Digits.toNat parts.whole) taken * 10 + Digits.value c) →
      (scaled? (Digits.append (Digits.toNat parts.whole) taken)
        (Digits.signed negative (Digits.toNat ds) - taken.length)).isSome = true) :
    (number (String.ofList parts.text)).toBinary64?.isSome = true := by
  obtain ⟨taken, left, htake, hsplit, hlt, hstop⟩ := takeDigits_spec hwhole (parts.fraction.getD [])
  have hsome := hscaled taken left hsplit hlt hstop
  rw [toBinary64?, String.toList_ofList, h.numberParts_text]
  simp only [takeDigits_of_lt hwhole, htake, hexponent, Option.isSome_map]
  split
  · next hbig => simp [hlarge hbig]
  · have hshift : (([] : List Char).length : Int) - ((parts.fraction.getD []).length - left.length : Nat) +
        Digits.signed negative (Digits.toNat ds) = Digits.signed negative (Digits.toNat ds) - taken.length := by
      rw [hsplit, List.length_append, List.length_nil, Nat.add_sub_cancel]
      omega
    rw [hshift]
    exact hsome

/-- Without an exponent, some digit of the fraction is taken, and so the digits are scaled down. -/
private theorem isSome_toBinary64?_of_fraction {parts : NumberParts} (h : parts.Proper)
    (hexponent : parts.exponent = none)
    (hlength : parts.whole.length ≤ 16) {ds : List Char} (hfraction : parts.fraction = some ds) :
    (number (String.ofList parts.text)).toBinary64?.isSome = true := by
  obtain ⟨-, hall⟩ := Digits.isNumber_iff.1 h.whole
  obtain ⟨hne, hdigits⟩ := Digits.isNumber_iff.1 (h.fraction ds hfraction)
  have hwhole : Digits.toNat parts.whole < 10 ^ 16 := by
    have hlt := Digits.append_lt hall 0
    have hpow : 10 ^ parts.whole.length ≤ 10 ^ 16 := Nat.pow_le_pow_right (by decide) hlength
    rw [Digits.toNat]
    omega
  have hbound : 10 ^ 17 < Digits.wordBound := by decide
  have hnone : parts.exponent.getD (false, []) = (false, []) := by rw [hexponent, Option.getD_none]
  refine isSome_toBinary64? h (by omega) hnone (by decide) fun taken left hsplit _ hstop => ?_
  refine isSome_scaled?_of_neg _ ?_
  rcases taken with _ | ⟨c, taken⟩
  · obtain ⟨c, cs, rfl⟩ := List.exists_cons_of_ne_nil hne
    rw [hfraction, Option.getD_some, List.nil_append] at hsplit
    subst hsplit
    have hlarge := hstop c (by simp)
    have hvalue := Digits.value_le (hdigits c (by simp))
    have hsame : Digits.append (Digits.toNat parts.whole) [] = Digits.toNat parts.whole := rfl
    omega
  · simp only [Digits.signed, Digits.toNat, Digits.append, List.foldl_nil, List.length_cons]
    push_cast
    omega

/-- A literal with one digit in front of the point, which is not zero, is read if its value is below the roof. -/
private theorem isSome_toBinary64?_of_le_roof {parts : NumberParts} (h : parts.Proper) {d : Char}
    (hwhole : parts.whole = [d])
    (hd : d ≠ '0') {scale e : Int} (hexponent : parts.exponent = some (decide (e < 0), Digits.ofNat e.natAbs))
    (he : e = (parts.fraction.getD []).length + scale)
    (hvalue : (Digits.toNat (d :: parts.fraction.getD []) : ℚ) * 10 ^ scale ≤ roof) :
    (number (String.ofList parts.text)).toBinary64?.isSome = true := by
  obtain ⟨-, hall⟩ := Digits.isNumber_iff.1 h.whole
  have hdigit : d.isDigit = true := hall d (by simp [hwhole])
  have hpos := Digits.value_pos hdigit hd
  have hle := Digits.value_le hdigit
  have hfirst : Digits.toNat parts.whole = Digits.value d := by
    rw [hwhole]
    simp [Digits.toNat, Digits.append]
  have hbound : 9 < Digits.wordBound := by decide
  have hten : (10 : ℚ) ≠ 0 := by norm_num
  -- the digits that are taken, with zeros for the others, are no more than all digits
  have hdigits : ∀ taken left, parts.fraction.getD [] = taken ++ left →
      (Digits.append (Digits.value d) taken : ℚ) * 10 ^ (scale + left.length) ≤ roof := by
    intro taken left hsplit
    have happend : Digits.toNat (d :: parts.fraction.getD []) =
        Digits.append (Digits.append (Digits.value d) taken) left := by
      rw [hsplit, ← Digits.append_append]
      simp [Digits.toNat, Digits.append]
    have hmul := Digits.mul_pow_le_append (Digits.append (Digits.value d) taken) left
    rw [← happend] at hmul
    calc (Digits.append (Digits.value d) taken : ℚ) * 10 ^ (scale + left.length)
        = (Digits.append (Digits.value d) taken * 10 ^ left.length : Nat) * 10 ^ scale := by
          rw [zpow_add₀ hten, zpow_natCast]
          push_cast
          ring
      _ ≤ Digits.toNat (d :: parts.fraction.getD []) * 10 ^ scale := by gcongr
      _ ≤ roof := hvalue
  have hsome : parts.exponent.getD (false, []) = (decide (e < 0), Digits.ofNat e.natAbs) := by
    rw [hexponent, Option.getD_some]
  refine isSome_toBinary64? h (by omega) hsome ?_ ?_
  · rw [Digits.toNat_ofNat, decide_eq_true_eq]
    intro hlarge
    by_contra hnonneg
    have hfront := hdigits [] (parts.fraction.getD []) rfl
    have hpow : (tenPow (maxScale + 1) : ℚ) ≤ roof := by
      calc (tenPow (maxScale + 1) : ℚ) ≤ 10 ^ e := by
            rw [cast_tenPow, ← zpow_natCast]
            refine zpow_le_zpow_right₀ (by norm_num) ?_
            rw [maxScale]
            omega
        _ = (1 : Nat) * 10 ^ (scale + (parts.fraction.getD []).length) := by
            rw [he, Nat.cast_one, one_mul, Int.add_comm]
        _ ≤ Digits.value d * 10 ^ (scale + (parts.fraction.getD []).length) := by gcongr
        _ ≤ roof := hfront
    exact absurd (Nat.cast_le.1 hpow) (Nat.not_le.2 roof_lt)
  · intro taken left hsplit hlt _
    rw [hfirst] at hlt ⊢
    refine isSome_scaled? hlt ?_
    have hscale : Digits.signed (decide (e < 0)) (Digits.toNat (Digits.ofNat e.natAbs)) - taken.length =
        scale + left.length := by
      rw [Digits.toNat_ofNat, Digits.signed_natAbs, he, hsplit, List.length_append]
      omega
    rw [hscale]
    exact hdigits taken left hsplit

end Json

/-! ### Layouts -/

open Json (NumberParts)

/-- The text is a literal without its sign. With either sign in front it is read as a float if `p` holds. -/
def Legible (p : Prop) (text : List Char) : Prop :=
  ∀ negative, ∃ parts : NumberParts, parts.Proper ∧ parts.negative = negative ∧ parts.unsigned = text ∧
    (p → (Json.number (String.ofList parts.text)).toBinary64?.isSome = true)

theorem Legible.decimal {whole fraction : List Char} (p : Prop) (hwhole : Digits.isNumber whole = true)
    (hlead : 1 < whole.length → whole.head? ≠ some '0') (hlength : whole.length ≤ 16)
    (hfraction : Digits.isNumber fraction = true) : Legible p (whole ++ '.' :: fraction) := by
  intro negative
  have hproper : NumberParts.Proper ⟨negative, whole, some fraction, none⟩ :=
    ⟨hwhole, hlead, by simpa using hfraction, by simp⟩
  refine ⟨_, hproper, rfl, ?_, fun _ => Json.isSome_toBinary64?_of_fraction hproper rfl hlength rfl⟩
  simp [NumberParts.unsigned, NumberParts.fractionText, NumberParts.exponentText]

/-- A decimal in full has a fraction and no exponent. -/
theorem Layout.legible_full {l : Layout} (hl : l.fraction = true) (p : Prop) {ds : List Char} {scale : Int}
    (hds : Digits.isNumber ds = true) (hlead : 1 < ds.length ∨ 0 < scale → ds.head? ≠ some '0')
    (hpoint : ds.length + scale ≤ 16) : Legible p (l.full ds scale) := by
  obtain ⟨hne, hall⟩ := Digits.isNumber_iff.1 hds
  have hlength : 0 < ds.length := List.length_pos_iff.2 hne
  have hzeros : ∀ n, ∀ c ∈ List.replicate n '0', c.isDigit = true := by
    intro n c hc
    rw [List.eq_of_mem_replicate hc]
    decide
  rw [full]
  by_cases hscale : 0 ≤ scale
  · rw [if_pos hscale, hl, if_pos rfl]
    refine Legible.decimal p ?_ ?_ ?_ (by decide)
    · refine Digits.isNumber_iff.2 ⟨by simp [hne], fun c hc => ?_⟩
      exact (List.mem_append.1 hc).elim (hall c) (hzeros _ c)
    · intro hlong
      rw [List.length_append, List.length_replicate] at hlong
      rw [List.head?_append_of_ne_nil _ hne]
      exact hlead (by omega)
    · rw [List.length_append, List.length_replicate]
      omega
  rw [if_neg hscale]
  by_cases hinside : 0 < (ds.length : Int) + scale
  · obtain ⟨n, hn⟩ := Int.eq_ofNat_of_zero_le (Int.le_of_lt hinside)
    rw [if_pos hinside, hn, Int.toNat_natCast]
    refine Legible.decimal p ?_ ?_ ?_ ?_
    · refine Digits.isNumber_iff.2 ⟨?_, fun c hc => hall c (List.mem_of_mem_take hc)⟩
      rw [← List.length_pos_iff, List.length_take]
      omega
    · intro hlong
      rw [List.length_take] at hlong
      rw [List.head?_take, if_neg (by omega)]
      exact hlead (by omega)
    · rw [List.length_take]
      omega
    · refine Digits.isNumber_iff.2 ⟨?_, fun c hc => hall c (List.mem_of_mem_drop hc)⟩
      rw [← List.length_pos_iff, List.length_drop]
      omega
  · rw [if_neg hinside]
    show Legible p (['0'] ++ '.' :: (List.replicate (-((ds.length : Int) + scale)).toNat '0' ++ ds))
    refine Legible.decimal p (by decide) (by simp) (by decide) ?_
    refine Digits.isNumber_iff.2 ⟨by simp [hne], fun c hc => ?_⟩
    exact (List.mem_append.1 hc).elim (hzeros _ c) (hall c)

/-- A decimal with an exponent part has one digit in front of the point. -/
theorem Layout.legible_scientific {l : Layout} (hl : l.plus = true) {p : Prop} {d : Char} {rest : List Char}
    (hds : Digits.isNumber (d :: rest) = true) (hd : d ≠ '0') {scale : Int}
    (hvalue : p → (Digits.toNat (d :: rest) : ℚ) * 10 ^ scale ≤ Binary64.roof) :
    Legible p (l.scientific (d :: rest) scale) := by
  obtain ⟨-, hall⟩ := Digits.isNumber_iff.1 hds
  have hfirst : Digits.isNumber [d] = true := Digits.isNumber_iff.2 ⟨by simp, by simpa using hall d (by simp)⟩
  obtain ⟨e, he⟩ : ∃ e : Int, e = rest.length + scale := ⟨_, rfl⟩
  have hshift : ((d :: rest).length : Int) + scale - 1 = e := by
    rw [he, List.length_cons]
    push_cast
    ring
  have hexponent : (if l.plus && 0 ≤ e then ['+'] else []) ++ Digits.ofInt e =
      (if e < 0 then '-' else '+') :: Digits.ofNat e.natAbs := by
    rw [hl, Bool.true_and, Digits.ofInt]
    by_cases hneg : e < 0
    · rw [if_pos hneg, if_pos hneg, if_neg (by simpa using hneg)]
      rfl
    · rw [if_neg hneg, if_neg hneg, if_pos (by simpa using hneg)]
      rfl
  have hread : ∀ (parts : NumberParts), parts.Proper → parts.whole = [d] → parts.fraction.getD [] = rest →
      parts.exponent = some (decide (e < 0), Digits.ofNat e.natAbs) →
      p → (Json.number (String.ofList parts.text)).toBinary64?.isSome = true := by
    rintro parts hproper hwhole rfl hparts hp
    exact Json.isSome_toBinary64?_of_le_roof hproper hwhole hd hparts he (hvalue hp)
  intro negative
  rcases rest with _ | ⟨c, rest⟩
  · have hproper : NumberParts.Proper ⟨negative, [d], none, some (decide (e < 0), Digits.ofNat e.natAbs)⟩ :=
      ⟨hfirst, by simp, by simp, by simp [Digits.isNumber_ofNat]⟩
    refine ⟨_, hproper, rfl, ?_, hread _ hproper rfl rfl rfl⟩
    simp only [scientific, hshift, List.append_assoc, hexponent]
    simp [NumberParts.unsigned, NumberParts.fractionText, NumberParts.exponentText]
  · have hrest : Digits.isNumber (c :: rest) = true :=
      Digits.isNumber_iff.2 ⟨by simp, fun b hb => hall b (List.mem_cons_of_mem _ hb)⟩
    have hproper : NumberParts.Proper
        ⟨negative, [d], some (c :: rest), some (decide (e < 0), Digits.ofNat e.natAbs)⟩ :=
      ⟨hfirst, by simp, by simp [hrest], by simp [Digits.isNumber_ofNat]⟩
    refine ⟨_, hproper, rfl, ?_, hread _ hproper rfl rfl rfl⟩
    simp only [scientific, hshift, List.append_assoc, hexponent]
    simp [NumberParts.unsigned, NumberParts.fractionText, NumberParts.exponentText]

namespace Datum

/-- A float is written as a literal. It is read unless the float is the largest one or not finite. -/
theorem exists_parts_write (x : Binary64) :
    ∃ parts : NumberParts, parts.Proper ∧ parts.text = jsonFloats.write x ∧
      (x.magnitude + 1 < Binary64.infinite →
        (Json.number (String.ofList parts.text)).toBinary64?.isSome = true) := by
  obtain ⟨body, hbody, hwrite⟩ : ∃ body, Legible (x.magnitude + 1 < Binary64.infinite) body ∧
      jsonFloats.write x = if x.isNegative then '-' :: body else body := by
    cases hzero : x.isZero with
    | true =>
      refine ⟨jsonFloats.full ['0'] 0, Layout.legible_full rfl _ (by decide) (by simp) (by decide), ?_⟩
      simp only [Layout.write, hzero, if_true]
    | false =>
      obtain ⟨d, hd⟩ : ∃ d, x.shortest jsonFloats.tieUp = d := ⟨_, rfl⟩
      have hcases := Binary64.digits_shortest jsonFloats.tieUp hzero
      have hroof : x.magnitude + 1 < Binary64.infinite → d.value ≤ Binary64.roof :=
        fun h => hd ▸ Binary64.value_shortest_le_roof jsonFloats.tieUp h
      rw [hd] at hcases
      have hdigits := Digits.isNumber_ofNat d.digits
      by_cases hrange : (decide (jsonFloats.least ≤ ((Digits.ofNat d.digits).length : Int) + d.scale - 1) &&
          decide (((Digits.ofNat d.digits).length : Int) + d.scale - 1 < jsonFloats.bound)) = true
      · refine ⟨jsonFloats.full (Digits.ofNat d.digits) d.scale, Layout.legible_full rfl _ hdigits ?_ ?_, ?_⟩
        · intro hlong
          rcases hcases with rfl | hpos
          · exact absurd hlong (by decide)
          · exact Digits.head?_ofNat_ne_zero hpos
        · have hlt := of_decide_eq_true (Bool.and_eq_true_iff.1 hrange).2
          have hbound : jsonFloats.bound = 16 := rfl
          omega
        · simp only [Layout.write, hzero, hd, hrange, if_true, Bool.false_eq_true, if_false]
      · -- no decimal found would be written in full, as zero
        have hpos : 0 < d.digits := by
          rcases hcases with rfl | hpos
          · exact absurd (by decide) hrange
          · exact hpos
        obtain ⟨c, rest, hcons⟩ := List.exists_cons_of_ne_nil (Digits.ofNat_ne_nil d.digits)
        have hhead : c ≠ '0' := by simpa [hcons] using Digits.head?_ofNat_ne_zero hpos
        refine ⟨jsonFloats.scientific (c :: rest) d.scale,
          Layout.legible_scientific rfl (hcons ▸ hdigits) hhead fun h => ?_, ?_⟩
        · rw [← hcons, Digits.toNat_ofNat]
          exact hroof h
        · rw [← hcons]
          simp only [Layout.write, hzero, hd, hrange, Bool.false_eq_true, if_false]
  obtain ⟨parts, hproper, hnegative, hunsigned, hread⟩ := hbody x.isNegative
  refine ⟨parts, hproper, ?_, hread⟩
  rw [NumberParts.text, hnegative, hunsigned, hwrite]

/-- The largest number is read as well, although its decimal is above the roof. -/
private theorem isSome_toBinary64?_largest (negative : Bool) :
    (Json.number (String.ofList
      (jsonFloats.write (.ofMagnitude negative (Binary64.infinite - 1))))).toBinary64?.isSome = true := by
  rw [Json.toBinary64?, String.toList_ofList]
  cases negative <;> decide +kernel

theorem isSome_toBinary64?_floatToJson (x : Binary64) : (floatToJson x).toBinary64?.isSome = x.isFinite := by
  rw [floatToJson]
  cases hfinite : x.isFinite with
  | false => rfl
  | true =>
    rw [if_pos rfl]
    rw [Binary64.isFinite, decide_eq_true_eq] at hfinite
    obtain ⟨parts, -, htext, hread⟩ := exists_parts_write x
    rw [htext] at hread
    by_cases hlargest : x.magnitude + 1 < Binary64.infinite
    · exact hread hlargest
    · have hx : x = .ofMagnitude x.isNegative (Binary64.infinite - 1) := by
        have hmagnitude : x.magnitude = Binary64.infinite - 1 := by omega
        rw [← hmagnitude, Binary64.ofMagnitude_magnitude]
      rw [hx]
      exact isSome_toBinary64?_largest _

end Datum

end LispDoc
