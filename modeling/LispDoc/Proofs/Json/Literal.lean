import LispDoc.Json.Printer
import LispDoc.Json.Reader
import LispDoc.Proofs.Number.Digits
import Mathlib.Data.List.TakeWhile

/-!
# Number literals

A literal is put together from its parts by `Json.NumberParts.text`. If the parts are proper, the literal is read up to
its end (`Json.NumberParts.Proper.number?_append`) and taken apart again (`Json.NumberParts.Proper.numberParts_text`).
Whole numbers have such literals, and their values are read back (`Json.toInt?_ofInt`).

Every part is read as far as it goes because of what comes next: no digit after the whole part, in addition no point
after the fraction, and in addition no mark of an exponent after the number.
-/

namespace LispDoc.Json

/-! ### What ends a part -/

def EndsDigits (rest : List Char) : Prop := ∀ c ∈ rest.head?, c.isDigit = false

def EndsFraction (rest : List Char) : Prop := ∀ c ∈ rest.head?, c.isDigit = false ∧ c ≠ '.'

/-- What follows a number does not prolong it. -/
def EndsNumber (rest : List Char) : Prop := ∀ c ∈ rest.head?, c.isDigit = false ∧ c ≠ '.' ∧ c ≠ 'e' ∧ c ≠ 'E'

theorem endsNumber_nil : EndsNumber [] := by simp [EndsNumber]

theorem endsNumber_cons {c : Char} (h : c.isDigit = false ∧ c ≠ '.' ∧ c ≠ 'e' ∧ c ≠ 'E') (rest : List Char) :
    EndsNumber (c :: rest) := by
  simpa [EndsNumber] using h

theorem EndsNumber.endsFraction {rest : List Char} (h : EndsNumber rest) : EndsFraction rest :=
  fun c hc => ⟨(h c hc).1, (h c hc).2.1⟩

theorem EndsFraction.endsDigits {rest : List Char} (h : EndsFraction rest) : EndsDigits rest :=
  fun c hc => (h c hc).1

private theorem takeWhile_isDigit {ds rest : List Char} (h : ∀ c ∈ ds, c.isDigit = true) (hrest : EndsDigits rest) :
    (ds ++ rest).takeWhile Char.isDigit = ds := by
  rw [List.takeWhile_append_of_pos h]
  cases rest with
  | nil => simp
  | cons c cs => simp [hrest c (by simp)]

private theorem dropWhile_isDigit {ds rest : List Char} (h : ∀ c ∈ ds, c.isDigit = true) (hrest : EndsDigits rest) :
    (ds ++ rest).dropWhile Char.isDigit = rest := by
  rw [List.dropWhile_append_of_pos h]
  cases rest with
  | nil => rfl
  | cons c cs => simp [hrest c (by simp)]

theorem digits?_append {ds rest : List Char} (h : Digits.isNumber ds = true) (hrest : EndsDigits rest) :
    digits? (ds ++ rest) = some (ds, rest) := by
  obtain ⟨hne, hall⟩ := Digits.isNumber_iff.1 h
  rw [digits?, takeWhile_isDigit hall hrest, dropWhile_isDigit hall hrest, if_neg]
  simpa using hne

/-! ### Literals -/

namespace NumberParts

def fractionText (parts : NumberParts) : List Char := parts.fraction.elim [] ('.' :: ·)

def exponentText (parts : NumberParts) : List Char :=
  parts.exponent.elim [] fun e => 'e' :: (if e.1 then '-' else '+') :: e.2

/-- The literal without its sign. -/
def unsigned (parts : NumberParts) : List Char := parts.whole ++ (parts.fractionText ++ parts.exponentText)

/-- The literal with these parts; an exponent always has a sign. -/
def text (parts : NumberParts) : List Char := if parts.negative then '-' :: parts.unsigned else parts.unsigned

/-- Each part has digits, and the whole part does not start with a zero in front of others. -/
structure Proper (parts : NumberParts) : Prop where
  whole : Digits.isNumber parts.whole = true
  lead : 1 < parts.whole.length → parts.whole.head? ≠ some '0'
  fraction : ∀ ds ∈ parts.fraction, Digits.isNumber ds = true
  exponent : ∀ e ∈ parts.exponent, Digits.isNumber e.2 = true

private theorem endsFraction_exponentText (parts : NumberParts) {rest : List Char} (h : EndsFraction rest) :
    EndsFraction (parts.exponentText ++ rest) := by
  rw [exponentText]
  cases parts.exponent with
  | none => exact h
  | some e => simp [EndsFraction]

private theorem endsDigits_fractionText (parts : NumberParts) {rest : List Char} (h : EndsDigits rest) :
    EndsDigits (parts.fractionText ++ rest) := by
  rw [fractionText]
  cases parts.fraction with
  | none => exact h
  | some ds => simp [EndsDigits]

namespace Proper

variable {parts : NumberParts} (h : parts.Proper)

include h

/-- A literal without its sign starts with a digit. -/
theorem exists_cons : ∃ c cs, parts.unsigned = c :: cs ∧ c.isDigit = true := by
  obtain ⟨hne, hall⟩ := Digits.isNumber_iff.1 h.whole
  obtain ⟨c, cs, hcons⟩ := List.exists_cons_of_ne_nil hne
  refine ⟨c, cs ++ (parts.fractionText ++ parts.exponentText), ?_, hall c (by simp [hcons])⟩
  rw [unsigned, hcons, List.cons_append]

theorem whole?_append {rest : List Char} (hrest : EndsDigits rest) :
    whole? (parts.whole ++ rest) = some (parts.whole, rest) := by
  have hlead : ¬ (decide (1 < parts.whole.length) && decide (parts.whole.head? = some '0')) = true := by
    rw [Bool.and_eq_true, decide_eq_true_eq, decide_eq_true_eq, not_and]
    exact h.lead
  simp only [whole?, digits?_append h.whole hrest, Option.bind_eq_bind, Option.bind_some, if_neg hlead]

theorem fraction?_append {rest : List Char} (hrest : EndsFraction rest) :
    fraction? (parts.fractionText ++ rest) = some (parts.fractionText, rest) := by
  rw [fractionText]
  cases hf : parts.fraction with
  | none =>
    rw [Option.elim_none, List.nil_append]
    unfold fraction?
    split
    · exact absurd rfl (hrest '.' (by simp)).2
    · rfl
  | some ds =>
    rw [Option.elim_some, List.cons_append, fraction?, digits?_append (h.fraction ds hf) hrest.endsDigits]
    rfl

theorem exponentPart?_append {rest : List Char} (hrest : EndsNumber rest) :
    exponentPart? (parts.exponentText ++ rest) = some (parts.exponentText, rest) := by
  rw [exponentText]
  cases he : parts.exponent with
  | none =>
    rw [Option.elim_none, List.nil_append]
    cases rest with
    | nil => rfl
    | cons c cs =>
      obtain ⟨-, -, hlower, hupper⟩ := hrest c (by simp)
      rw [exponentPart?, if_neg (by simp [hlower, hupper])]
  | some e =>
    obtain ⟨negative, ds⟩ := e
    have hdigits := digits?_append (h.exponent _ he) hrest.endsFraction.endsDigits
    rw [Option.elim_some, List.cons_append, exponentPart?, if_pos (by decide)]
    cases negative with
    | false => simp [exponentSign, hdigits]
    | true => simp [exponentSign, hdigits]

theorem exists_text_cons : ∃ c cs, parts.text = c :: cs ∧ (c = '-' ∨ c.isDigit = true) := by
  rw [text]
  cases parts.negative with
  | true => exact ⟨'-', parts.unsigned, rfl, .inl rfl⟩
  | false =>
    obtain ⟨c, cs, hcons, hdigit⟩ := h.exists_cons
    exact ⟨c, cs, hcons, .inr hdigit⟩

/-- A literal that is not negative starts with a digit, not with a minus. -/
private theorem text_append_ne_minus (hn : parts.negative = false) (rest cs : List Char) :
    parts.text ++ rest ≠ '-' :: cs := by
  obtain ⟨c, ds, hcons, hdigit⟩ := h.exists_cons
  rw [text, hn, if_neg Bool.false_ne_true, hcons, List.cons_append]
  intro hminus
  rw [(List.cons.inj hminus).1] at hdigit
  exact absurd hdigit (by decide)

/-- A literal is read up to its end. -/
theorem number?_append {rest : List Char} (hrest : EndsNumber rest) :
    number? (parts.text ++ rest) = some (parts.text, rest) := by
  have hends := parts.endsFraction_exponentText hrest.endsFraction
  have hexponent := h.exponentPart?_append hrest
  have hfraction := h.fraction?_append hends
  have hwhole := h.whole?_append (parts.endsDigits_fractionText hends.endsDigits)
  cases hn : parts.negative with
  | true => simp [number?, text, unsigned, hn, hwhole, hfraction, hexponent]
  | false =>
    unfold number?
    split
    rename_i sign rest hsign
    split at hsign
    · rename_i hminus
      exact absurd hminus (h.text_append_ne_minus hn _ _)
    · obtain ⟨rfl, rfl⟩ := Prod.mk.inj hsign
      simp [text, unsigned, hn, hwhole, hfraction, hexponent]

/-- The literal is taken apart into its parts. -/
theorem numberParts_text : numberParts parts.text = parts := by
  obtain ⟨-, hall⟩ := Digits.isNumber_iff.1 h.whole
  have hends : EndsFraction parts.exponentText := by
    have hexponent := parts.endsFraction_exponentText endsNumber_nil.endsFraction
    rwa [List.append_nil] at hexponent
  have htake : parts.unsigned.takeWhile Char.isDigit = parts.whole :=
    takeWhile_isDigit hall (parts.endsDigits_fractionText hends.endsDigits)
  have hdrop : parts.unsigned.dropWhile Char.isDigit = parts.fractionText ++ parts.exponentText :=
    dropWhile_isDigit hall (parts.endsDigits_fractionText hends.endsDigits)
  unfold numberParts
  split
  rename_i negative unsigned hsign
  have hparts : negative = parts.negative ∧ unsigned = parts.unsigned := by
    cases hn : parts.negative with
    | true =>
      rw [text, hn] at hsign
      exact ⟨(congrArg Prod.fst hsign).symm, (congrArg Prod.snd hsign).symm⟩
    | false =>
      split at hsign
      · rename_i hminus
        exact absurd ((List.append_nil _).trans hminus) (h.text_append_ne_minus hn [] _)
      · rw [text, hn] at hsign
        exact ⟨(congrArg Prod.fst hsign).symm, (congrArg Prod.snd hsign).symm⟩
  obtain ⟨rfl, rfl⟩ := hparts
  rw [hdrop, htake]
  have hfraction : ∀ ds ∈ parts.fraction, (ds ++ parts.exponentText).takeWhile Char.isDigit = ds ∧
      (ds ++ parts.exponentText).dropWhile Char.isDigit = parts.exponentText := by
    intro ds hds
    obtain ⟨-, hall⟩ := Digits.isNumber_iff.1 (h.fraction ds hds)
    exact ⟨takeWhile_isDigit hall hends.endsDigits, dropWhile_isDigit hall hends.endsDigits⟩
  -- which match is taken is seen once the optional parts are known
  clear hsign htake hdrop hends hall h
  obtain ⟨negative, whole, _ | ds, _ | ⟨_ | _, es⟩⟩ := parts
  · rfl
  · rfl
  · rfl
  all_goals
    obtain ⟨htake, hdrop⟩ := hfraction ds rfl
    simp only [fractionText, Option.elim_some, List.cons_append, htake, hdrop]
    rfl
end Proper

/-- The parts of the literal of a whole number. -/
def ofInt (n : Int) : NumberParts := ⟨decide (n < 0), Digits.ofNat n.natAbs, none, none⟩

theorem text_ofInt (n : Int) : (ofInt n).text = Digits.ofInt n := by
  rw [text, Digits.ofInt, unsigned]
  simp [ofInt, fractionText, exponentText]

theorem proper_ofInt (n : Int) : (ofInt n).Proper where
  whole := Digits.isNumber_ofNat _
  lead := Digits.head?_ofNat_of_length
  fraction := by simp [ofInt]
  exponent := by simp [ofInt]

end NumberParts

/-! ### Values -/

/-- The literal of a whole number has its value. -/
theorem toInt?_ofInt (n : Int) : (ofInt n).toInt? = some n := by
  have hparts := (NumberParts.proper_ofInt n).numberParts_text
  rw [NumberParts.text_ofInt] at hparts
  rw [ofInt, toInt?, String.toList_ofList, hparts]
  simp only [NumberParts.ofInt, Option.isSome_none, Bool.or_self, Bool.false_eq_true, if_false, Digits.toNat_ofNat,
    Digits.signed_natAbs]
  rw [if_neg]
  simp only [Bool.and_eq_true, decide_eq_true_eq, beq_iff_eq]
  omega

theorem toInt64?_ofInt (v : Int64) : (ofInt v.toInt).toInt64? = some v := by
  rw [toInt64?, toInt?_ofInt, Option.bind_some, if_pos (Digits.fitsInt64_toInt v), Int64.ofInt_toInt]

theorem toNatBelow?_ofInt {n bound : Nat} (h : n < bound) : (ofInt n).toNatBelow? bound = some n := by
  rw [toNatBelow?, toInt?_ofInt, Option.bind_some, if_pos (by simpa using h), Int.toNat_natCast]

end LispDoc.Json
