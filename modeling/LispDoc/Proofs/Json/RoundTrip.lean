import LispDoc.Proofs.Json.Literal

/-!
# Reading printed JSON

The text that `Json.pretty` writes reads back as the value it was written from (`Json.parse_pretty`). The value may hold
any strings, and its numbers are literals with proper parts (`Json.Whole`).

A printed value is read in front of anything that does not prolong a number (`Json.Reads`), which commas, line breaks
and the end of the text do not. The reader's fuel is twice the length of the text and a little more; reading a value
uses up twice the length of its own text at most.
-/

namespace LispDoc.Json

/-! ### White space -/

theorem skipSpace_cons {c : Char} (h : isSpace c = false) (cs : List Char) : skipSpace (c :: cs) = c :: cs := by
  simp [skipSpace, h]

private theorem skipSpace_newline (depth : Nat) (cs : List Char) : skipSpace (newline depth ++ cs) = skipSpace cs := by
  refine List.dropWhile_append_of_pos ?_
  intro c hc
  rcases List.mem_cons.1 hc with rfl | hc
  · rfl
  · rw [List.eq_of_mem_replicate hc]
    rfl

/-! ### Strings -/

private theorem hexValue?_digitChar {d : Nat} (h : d < 16) : hexValue? (Nat.digitChar d) = some d := by
  have hall : ∀ d < 16, hexValue? (Nat.digitChar d) = some d := by decide
  exact hall d h

/-- A control is read back from the two hexadecimal digits it is written with. -/
private theorem unicodeEscape?_control {c : Char} (h : c.toNat < 0x20) (cs : List Char) :
    unicodeEscape? ('0' :: '0' :: Nat.digitChar (c.toNat / 16) :: Nat.digitChar (c.toNat % 16) :: cs) =
      some (some c, 4) := by
  have hhigh := hexValue?_digitChar (d := c.toNat / 16) (by omega)
  have hlow := hexValue?_digitChar (d := c.toNat % 16) (by omega)
  have hzero : hexValue? '0' = some 0 := by decide
  have hunit : unit? ('0' :: '0' :: Nat.digitChar (c.toNat / 16) :: Nat.digitChar (c.toNat % 16) :: cs) =
      some c.toNat := by
    simp only [unit?, hzero, hhigh, hlow, Option.pure_def, Option.bind_eq_bind, Option.bind_some, Option.some.injEq]
    omega
  have hplain : (decide (c.toNat < 0xD800) || decide (0xDFFF < c.toNat)) = true := by
    simp only [Bool.or_eq_true, decide_eq_true_eq]
    omega
  simp only [unicodeEscape?, hunit, Option.bind_eq_bind, Option.bind_some, hplain, if_true, Char.ofNat_toNat,
    Option.pure_def]

private theorem stringTail?_escapeChar (c : Char) (cs : List Char) :
    stringTail? (escapeChar c ++ cs) = (stringTail? cs).map fun r => (r.1.map (c :: ·), r.2) := by
  unfold escapeChar
  split
  case h_8 hquote hbackslash _ _ _ _ _ =>
    split
    · rename_i hcontrol
      rw [List.cons_append, stringTail?, if_neg (by decide), if_pos rfl]
      simp only [List.cons_append, List.nil_append, escape?, unicodeEscape?_control hcontrol, Option.map_some]
      rfl
    · rename_i hcontrol
      rw [List.cons_append, List.nil_append, stringTail?, if_neg hquote, if_neg hbackslash, if_neg hcontrol]
  all_goals
    rw [List.cons_append, stringTail?, if_neg (by decide), if_pos rfl]
    rfl

private theorem stringTail?_escaped (text rest : List Char) :
    stringTail? (text.flatMap escapeChar ++ '"' :: rest) = some (some text, rest) := by
  induction text with
  | nil => rw [List.flatMap_nil, List.nil_append, stringTail?, if_pos rfl]
  | cons c text ih => rw [List.flatMap_cons, List.append_assoc, stringTail?_escapeChar, ih]; rfl

/-! ### Values -/

/-- Nothing is amiss with the value: all numbers in it are literals with proper parts, and everything in it has a
value. -/
inductive Whole : Json → Prop where
  | null : Whole null
  | bool (value : Bool) : Whole (bool value)
  | number {parts : NumberParts} (h : parts.Proper) : Whole (number (String.ofList parts.text))
  | string (text : String) : Whole (string text)
  | array {items : List Json} (h : ∀ item ∈ items, Whole item) : Whole (array items)
  | object {members : List (String × Json)} (h : ∀ m ∈ members, Whole m.2) : Whole (object members)

theorem Whole.integer (n : Int) : Whole (ofInt n) := by
  rw [ofInt, ← NumberParts.text_ofInt]
  exact .number (NumberParts.proper_ofInt n)

/-- The text of the value at a depth is read back in front of whatever ends a number. -/
def Reads (depth : Nat) (value : Json) : Prop :=
  ∀ fuel rest, 2 * (value.pretty depth).length ≤ fuel → EndsNumber rest →
    value? fuel (value.pretty depth ++ rest) = some (value, rest)

private theorem value?_newline (fuel depth : Nat) (cs : List Char) :
    value? fuel (newline depth ++ cs) = value? fuel cs := by
  cases fuel with
  | zero => rfl
  | succ fuel => rw [value?, value?, skipSpace_newline]

theorem quote_append (text : String) (rest : List Char) :
    quote text ++ rest = '"' :: (text.toList.flatMap escapeChar ++ '"' :: rest) := by
  simp [quote]

/-- What a number starts with is no white space and starts nothing else. -/
private theorem isSpace_of_sign {c : Char} (h : c = '-' ∨ c.isDigit = true) : isSpace c = false ∧ c ≠ ']' := by
  constructor
  · rw [Bool.eq_false_iff]
    intro hspace
    simp only [isSpace, Bool.or_eq_true, beq_iff_eq] at hspace
    rcases hspace with ((rfl | rfl) | rfl) | rfl <;> exact absurd h (by decide)
  · rintro rfl
    exact absurd h (by decide)

/-- A value starts neither with white space nor with a closing bracket. -/
theorem Whole.exists_pretty_cons {value : Json} (h : value.Whole) (depth : Nat) :
    ∃ c cs, value.pretty depth = c :: cs ∧ isSpace c = false ∧ c ≠ ']' := by
  cases h with
  | null => exact ⟨'n', _, rfl, by decide, by decide⟩
  | bool value => cases value <;> exact ⟨_, _, rfl, by decide, by decide⟩
  | number h =>
    rw [pretty, String.toList_ofList]
    obtain ⟨c, cs, hcons, hsign⟩ := h.exists_text_cons
    exact ⟨c, cs, hcons, isSpace_of_sign hsign⟩
  | string text => exact ⟨'"', _, by rw [pretty, quote]; rfl, by decide, by decide⟩
  | @array items _ =>
    cases items with
    | nil => exact ⟨'[', _, by rw [pretty], by decide, by decide⟩
    | cons item items => exact ⟨'[', _, by rw [pretty]; rfl, by decide, by decide⟩
  | @object members _ =>
    rcases members with _ | ⟨⟨key, value⟩, members⟩
    · exact ⟨'\x7b', _, by rw [pretty], by decide, by decide⟩
    · exact ⟨'\x7b', _, by rw [pretty]; rfl, by decide, by decide⟩

private theorem value?_number {c : Char} (h : c = '-' ∨ c.isDigit = true) (fuel : Nat) (cs : List Char) :
    value? (fuel + 1) (c :: cs) = (number? (c :: cs)).map fun r => (number (String.ofList r.1), r.2) := by
  rw [value?, skipSpace_cons (isSpace_of_sign h).1]
  dsimp only
  split
  case h_7 => rfl
  all_goals exact absurd h (by decide)

private theorem reads_number {parts : NumberParts} (h : parts.Proper) (depth : Nat) :
    Reads depth (number (String.ofList parts.text)) := by
  intro fuel rest hfuel hrest
  have hnumber := h.number?_append hrest
  obtain ⟨c, cs, hcons, hsign⟩ := h.exists_text_cons
  rw [pretty, String.toList_ofList] at hfuel ⊢
  rw [hcons] at hnumber hfuel ⊢
  cases fuel with
  | zero => simp at hfuel
  | succ fuel =>
    rw [List.cons_append] at hnumber ⊢
    rw [value?_number hsign, hnumber]
    rfl

private theorem reads_string (text : String) (depth : Nat) : Reads depth (string text) := by
  intro fuel rest hfuel hrest
  rw [pretty] at hfuel ⊢
  cases fuel with
  | zero => simp [quote] at hfuel
  | succ fuel =>
    rw [quote_append, value?, skipSpace_cons (by decide)]
    simp [stringTail?_escaped]

private theorem endsNumber_newline (depth : Nat) (rest : List Char) : EndsNumber (newline depth ++ rest) :=
  endsNumber_cons (by decide) _

private theorem endsNumber_comma (rest : List Char) : EndsNumber (',' :: rest) := endsNumber_cons (by decide) _

/-- Items are read one after the other up to the closing bracket. -/
private theorem items?_prettyItems {depth : Nat} {items : List Json} {item : Json}
    (h : ∀ value ∈ item :: items, Reads depth value) (outer fuel : Nat) (rest : List Char)
    (hfuel : 2 * ((item.pretty depth).length + (prettyItems depth items).length) + 1 ≤ fuel) :
    items? fuel (newline depth ++ (item.pretty depth ++ (prettyItems depth items ++ (newline outer ++ ']' :: rest)))) =
      some (item :: items, rest) := by
  induction items generalizing item fuel with
  | nil =>
    cases fuel with
    | zero => simp at hfuel
    | succ fuel =>
      have hitem := h item (by simp) fuel (newline outer ++ ']' :: rest) (by omega) (endsNumber_newline _ _)
      rw [items?, value?_newline, prettyItems, List.nil_append, hitem]
      simp only [skipSpace_newline, skipSpace_cons (c := ']') (by decide)]
  | cons next items ih =>
    cases fuel with
    | zero => simp at hfuel
    | succ fuel =>
      simp only [prettyItems, List.cons_append, List.append_assoc, List.length_cons, List.length_append] at hfuel ⊢
      have hitem := h item (by simp) fuel _ (by omega) (endsNumber_comma
        (newline depth ++ (next.pretty depth ++ (prettyItems depth items ++ (newline outer ++ ']' :: rest)))))
      rw [items?, value?_newline, hitem]
      simp only [skipSpace_cons (c := ',') (by decide)]
      rw [ih (fun value hv => h value (List.mem_cons_of_mem _ hv)) fuel (by omega)]
      rfl

/-- The same of members up to the closing brace. -/
private theorem members?_prettyMembers {depth : Nat} {members : List (String × Json)} {key : String} {value : Json}
    (h : ∀ m ∈ (key, value) :: members, Reads depth m.2) (outer fuel : Nat) (rest : List Char)
    (hfuel : 2 * ((value.pretty depth).length + (prettyMembers depth members).length) + 1 ≤ fuel) :
    members? fuel (newline depth ++ (quote key ++ (':' :: ' ' :: (value.pretty depth ++
        (prettyMembers depth members ++ (newline outer ++ '\x7d' :: rest)))))) =
      some (some ((key, value) :: members), rest) := by
  have hspace : ∀ fuel cs, value? fuel (' ' :: cs) = value? fuel cs := by
    intro fuel cs
    cases fuel with
    | zero => rfl
    | succ fuel => rw [value?, value?]; rfl
  induction members generalizing key value fuel with
  | nil =>
    cases fuel with
    | zero => simp at hfuel
    | succ fuel =>
      have hreads : Reads depth value := h (key, value) (by simp)
      have hvalue := hreads fuel (newline outer ++ '\x7d' :: rest) (by omega) (endsNumber_newline _ _)
      rw [members?, skipSpace_newline, quote_append, skipSpace_cons (by decide)]
      simp only [stringTail?_escaped, skipSpace_cons (c := ':') (by decide), prettyMembers, List.nil_append, hspace,
        hvalue, skipSpace_newline, skipSpace_cons (c := '\x7d') (by decide), Option.map_some, String.ofList_toList]
  | cons next members ih =>
    obtain ⟨nextKey, nextValue⟩ := next
    cases fuel with
    | zero => simp at hfuel
    | succ fuel =>
      simp only [prettyMembers, List.cons_append, List.nil_append, List.append_assoc, List.length_cons,
        List.length_append] at hfuel ⊢
      have hreads : Reads depth value := h (key, value) (by simp)
      have hvalue := hreads fuel _ (by omega) (endsNumber_comma
        (newline depth ++ (quote nextKey ++ (':' :: ' ' :: (nextValue.pretty depth ++ (prettyMembers depth members ++
          (newline outer ++ '\x7d' :: rest)))))))
      rw [members?, skipSpace_newline, quote_append, skipSpace_cons (by decide)]
      simp only [stringTail?_escaped, skipSpace_cons (c := ':') (by decide), hspace, hvalue,
        skipSpace_cons (c := ',') (by decide)]
      rw [ih (fun m hm => h m (List.mem_cons_of_mem _ hm)) fuel (by omega)]
      simp

theorem word?_append (word : String) (rest : List Char) : word? word (word.toList ++ rest) = some rest := by
  rw [word?, if_pos (List.isPrefixOf_iff_prefix.2 (List.prefix_append _ _)), ← String.length_toList, List.drop_left]

/-- A word of the language is told by its first letter. -/
private theorem reads_word (word : String) (c : Char) {value : Json} (hword : word.toList.head? = some c)
    (hpretty : ∀ depth, value.pretty depth = word.toList)
    (hvalue : ∀ fuel rest, value? (fuel + 1) (c :: rest) = (word? word (c :: rest)).map (value, ·)) (depth : Nat) :
    Reads depth value := by
  intro fuel rest hfuel _
  obtain ⟨cs, hcons⟩ := List.head?_eq_some_iff.1 hword
  rw [hpretty] at hfuel ⊢
  cases fuel with
  | zero => simp [hcons] at hfuel
  | succ fuel =>
    have happend := word?_append word rest
    rw [hcons, List.cons_append] at happend ⊢
    rw [hvalue, happend]
    rfl

private theorem reads_null : ∀ depth, Reads depth null :=
  reads_word "null" 'n' (by decide) (fun _ => by rw [pretty]) fun _ _ => by
    rw [value?, skipSpace_cons (by decide)]
    rfl

private theorem reads_bool (b : Bool) : ∀ depth, Reads depth (bool b) := by
  cases b with
  | true =>
    exact reads_word "true" 't' (by decide) (fun _ => by rw [pretty]; rfl) fun _ _ => by
      rw [value?, skipSpace_cons (by decide)]
      rfl
  | false =>
    exact reads_word "false" 'f' (by decide) (fun _ => by rw [pretty]; rfl) fun _ _ => by
      rw [value?, skipSpace_cons (by decide)]
      rfl

private theorem reads_array {depth : Nat} {items : List Json} (hwhole : ∀ item ∈ items, item.Whole)
    (h : ∀ item ∈ items, Reads (depth + 1) item) : Reads depth (array items) := by
  intro fuel rest hfuel _
  cases fuel with
  | zero => cases items <;> simp [pretty] at hfuel
  | succ fuel =>
    cases items with
    | nil =>
      rw [pretty, value?, List.cons_append, skipSpace_cons (by decide)]
      simp [skipSpace_cons (c := ']') (by decide)]
    | cons item items =>
      -- the first item does not look like the end of the array
      obtain ⟨c, cs, hcons, hspace, hne⟩ := (hwhole item (by simp)).exists_pretty_cons (depth + 1)
      simp only [pretty, List.cons_append, List.append_assoc, List.nil_append, List.length_cons, List.length_append]
        at hfuel ⊢
      have hitems := items?_prettyItems h depth fuel rest (by omega)
      rw [value?, skipSpace_cons (by decide)]
      simp only [hitems]
      split
      · rename_i hclose
        rw [skipSpace_newline, hcons, List.cons_append, skipSpace_cons hspace] at hclose
        exact absurd (List.cons.inj hclose).1 hne
      · rfl

private theorem reads_object {depth : Nat} {members : List (String × Json)} (h : ∀ m ∈ members, Reads (depth + 1) m.2) :
    Reads depth (object members) := by
  intro fuel rest hfuel _
  cases fuel with
  | zero => rcases members with _ | ⟨⟨key, value⟩, members⟩ <;> simp [pretty] at hfuel
  | succ fuel =>
    rcases members with _ | ⟨⟨key, value⟩, members⟩
    · rw [pretty, value?, List.cons_append, skipSpace_cons (by decide)]
      simp [skipSpace_cons (c := '\x7d') (by decide)]
    · simp only [pretty, List.cons_append, List.append_assoc, List.nil_append, List.length_cons, List.length_append]
        at hfuel ⊢
      have hmembers := members?_prettyMembers h depth fuel rest (by omega)
      rw [value?, skipSpace_cons (by decide)]
      simp only [hmembers]
      split
      · rename_i hclose
        rw [skipSpace_newline, quote_append, skipSpace_cons (by decide)] at hclose
        exact absurd (List.cons.inj hclose).1 (by decide)
      · rfl

theorem Whole.reads {value : Json} (h : value.Whole) : ∀ depth, Reads depth value := by
  induction h with
  | null => exact reads_null
  | bool value => exact reads_bool value
  | number h => exact reads_number h
  | string text => exact reads_string text
  | @array items h ih => exact fun depth => reads_array h fun item hitem => ih item hitem (depth + 1)
  | @object members h ih => exact fun depth => reads_object fun m hm => ih m hm (depth + 1)

/-- A value with nothing amiss is read back from its text. -/
theorem parse_pretty {value : Json} (h : value.Whole) : parse (String.ofList (value.pretty 0)) = some value := by
  have hreads := h.reads 0 (2 * (value.pretty 0).length + 2) [] (by omega) endsNumber_nil
  rw [List.append_nil] at hreads
  rw [parse, String.toList_ofList, hreads]
  rfl

end LispDoc.Json
