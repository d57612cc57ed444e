import LispDoc.Proofs.Markup.Lossless
import Mathlib.Data.List.Forall2
import Mathlib.Data.List.TakeWhile

/-!
# The patterns of inline markup

What each branch of the markup of help buffers looks like, said without a scanner: `Branch.Matches` gives the texts
that a branch may match at a place, `Branch.nodes` what becomes of them. A branch may match a place in more than one
way, since an upper case run may have several word boundaries; `Branch.Longest` is the longest way.

A rule realizes a branch if it finds the longest match wherever there is one (`Rule.Realizes`). The rules of help
buffers realize the branches in their order (`Markup.help_realizes`), so that what they find is found by the first
branch that matches (`Markup.findSome?_eq_some_of_realizes`), and where they find nothing no branch matches
(`Markup.findSome?_eq_none_of_realizes`).
-/

namespace LispDoc

/-- The branches of inline markup. -/
inductive Branch where
  | emphasis
  | info
  | command
  | function
  | option
  | var
  | face
  | symbol
  | url
  | literal
  | metaVariable
  deriving DecidableEq, Repr

/-- What a branch takes out of a text: the words in front, with the white space after them, and the value proper. -/
structure Capture where
  lead : List Char
  value : List Char

/-! ### Words in front -/

/-- With the first letter in upper case. -/
def capitalized : List Char → List Char
  | [] => []
  | c :: cs => c.toUpper :: cs

/-- A text that consists of words, each with white space after it. The first letter of a word may be in upper case. -/
inductive LeadsIn : List String → List Char → Prop
  | nil : LeadsIn [] []
  | cons {word : String} {words : List String} {spelling blank lead : List Char}
      (spelled : spelling = word.toList ∨ spelling = capitalized word.toList) (blank_ne : blank ≠ [])
      (blanks : ∀ c ∈ blank, Text.isBlank c = true) (more : LeadsIn words lead) :
      LeadsIn (word :: words) (spelling ++ blank ++ lead)

namespace Branch

/-- All branches, in the order of their precedence. -/
def all : List Branch :=
  [emphasis, info, command, function, option, var, face, symbol, url, literal, metaVariable]

/-- The words that may introduce quoted text in a branch. -/
def leads : Branch → List (List String)
  | info => [["info", "node"], ["info", "anchor"]]
  | command => [["command"]]
  | function => [["function"]]
  | option => [["option"]]
  | var => [["variable"]]
  | face => [["face"]]
  | symbol => [["symbol"]]
  | url => [["URL"]]
  | literal => [[]]
  | _ => []

/-- Emphasized text: no asterisk in it, and no white space at its ends. -/
def IsEmphasis (value : List Char) : Prop :=
  value ≠ [] ∧ '*' ∉ value ∧ (∀ c ∈ value.head?, Text.isBlank c = false) ∧
    ∀ c ∈ value.getLast?, Text.isBlank c = false

/-- An upper case word of at least four characters. -/
def IsUpperWord (value : List Char) : Prop :=
  4 ≤ value.length ∧ (∀ c ∈ value.head?, c.isUpper = true) ∧ ∀ c ∈ value, Markup.isUpperRun c = true

/-- The source text of a match. -/
def source (c : Capture) : Branch → List Char
  | emphasis => '*' :: c.value ++ ['*']
  | metaVariable => c.value
  | _ => c.lead ++ Markup.quoteValue c.value

/-- Quoted text at the start of a text, up to the next quote, introduced by one of the given sequences of words. -/
def Quotes (leads : List (List String)) (text : List Char) (c : Capture) : Prop :=
  (∃ words ∈ leads, LeadsIn words c.lead) ∧ c.value ≠ [] ∧ '\x27' ∉ c.value ∧
    c.lead ++ Markup.quoteValue c.value <+: text

/-- A branch may match at the start of a text, given the character before it. -/
def Matches (before : Option Char) (text : List Char) (c : Capture) : Branch → Prop
  | emphasis => c.lead = [] ∧ IsEmphasis c.value ∧ '*' :: c.value ++ ['*'] <+: text
  | metaVariable =>
    c.lead = [] ∧ IsUpperWord c.value ∧ Text.atBoundary before c.value.head? = true ∧
      ∃ rest, text = c.value ++ rest ∧ Text.atBoundary c.value.getLast? rest.head? = true
  | b => Quotes b.leads text c

/-- Of the matches of a branch at the start of a text, one that is as long as any. -/
def Longest (b : Branch) (before : Option Char) (text : List Char) (c : Capture) : Prop :=
  b.Matches before text c ∧ ∀ other, b.Matches before text other → other.value.length ≤ c.value.length

/-- A reference after the words that introduce it. -/
def cited (c : Capture) (reference : Reference) : List Inline :=
  [.plain (String.ofList c.lead), .reference reference]

/-- The nodes of a match. -/
def nodes (c : Capture) : Branch → List Inline
  | emphasis => [.emphasis (String.ofList c.value)]
  | info => cited c { role := .info, target := String.ofList c.value }
  | command => cited c { role := .command, target := String.ofList c.value }
  | function => cited c { role := .function, target := String.ofList c.value }
  | option => cited c { role := .option, target := String.ofList c.value }
  | var => cited c { role := .var, target := String.ofList c.value }
  | face => cited c { role := .face, target := String.ofList c.value }
  | symbol =>
    cited c
      { role := .quotedSymbol, target := String.ofList c.value, text := some ("`" ++ String.ofList c.value ++ "'") }
  | url => cited c { role := .url, target := String.ofList c.value, text := some (String.ofList c.value) }
  | literal =>
    if isSymbolName (String.ofList c.value) then [.reference { role := .symbol, target := String.ofList c.value }]
    else [.literal (splitMetaVariables (String.ofList c.value))]
  | metaVariable => [.metaVariable (String.ofList c.value)]

end Branch

/-- A rule that finds the longest match of a branch wherever the branch matches. -/
structure Rule.Realizes (rule : Rule) (b : Branch) : Prop where
  sound : ∀ {before text f}, rule before text = some f →
    ∃ c, b.Longest before text c ∧ f.matched = b.source c ∧ f.nodes = some (b.nodes c)
  complete : ∀ {before text}, rule before text = none → ∀ c, ¬ b.Matches before text c

namespace Markup

/-! ### Up to the next mark -/

/-- A text without a mark, in front of the mark, is all that stands before the next mark. -/
theorem takeWhile_append_mark {q : Char} {xs : List Char} (h : q ∉ xs) (rest : List Char) :
    (xs ++ q :: rest).takeWhile (· != q) = xs := by
  have hne : ∀ c ∈ xs, (c != q) = true := by
    intro c hc
    simp only [bne_iff_ne, ne_eq]
    rintro rfl
    exact h hc
  rw [List.takeWhile_append_of_pos hne]
  simp

/-- Texts up to the next mark that start the same text are equal. -/
theorem eq_of_append_mark {q : Char} {xs ys r s : List Char} (hx : q ∉ xs) (hy : q ∉ ys)
    (h : xs ++ q :: r = ys ++ q :: s) : xs = ys := by
  have hxs := takeWhile_append_mark hx r
  rw [h, takeWhile_append_mark hy] at hxs
  exact hxs.symm

theorem notMem_takeWhile_ne (q : Char) (cs : List Char) : q ∉ cs.takeWhile (· != q) := by
  intro h
  have := List.mem_takeWhile_imp h
  simp at this

/-! ### Emphasis -/

private theorem emphasisRule_of_isEmphasis {value : List Char} (h : Branch.IsEmphasis value) (before : Option Char)
    (rest : List Char) :
    emphasisRule before ('*' :: value ++ ['*'] ++ rest) =
      some ⟨'*' :: value ++ ['*'], some [.emphasis (String.ofList value)]⟩ := by
  obtain ⟨hne, hstar, hfirst, hlast⟩ := h
  have hinner : (value ++ '*' :: rest).takeWhile (· != '*') = value := takeWhile_append_mark hstar rest
  have hlen : (value.length == (value ++ '*' :: rest).length) = false := by simp
  have hhead : value.head?.all Text.isBlank = false := by
    rw [List.head?_eq_some_head hne] at hfirst ⊢
    simpa using hfirst
  have hend : value.getLast?.all Text.isBlank = false := by
    rw [List.getLast?_eq_some_getLast hne] at hlast ⊢
    simpa using hlast
  simp only [List.cons_append, List.append_assoc, List.nil_append, emphasisRule, hinner, hlen, hhead, hend]
  simp

private theorem emphasisRule_realizes : Rule.Realizes emphasisRule .emphasis where
  sound := by
    intro before text f h
    unfold emphasisRule at h
    split at h
    · rename_i cs
      dsimp only at h
      split at h
      · simp at h
      · rename_i hc
        simp only [Bool.or_eq_true, beq_iff_eq, not_or] at hc
        obtain ⟨⟨hlen, hhead⟩, hlast⟩ := hc
        obtain ⟨rest, hrest⟩ := eq_takeWhile_append_cons hlen
        obtain rfl := Option.some.inj h
        set inner := cs.takeWhile (· != '*') with hinner
        have hstar : '*' ∉ inner := notMem_takeWhile_ne '*' cs
        have hne : inner ≠ [] := by
          intro he
          rw [he] at hhead
          simp at hhead
        refine ⟨⟨[], inner⟩, ⟨⟨rfl, ⟨hne, hstar, ?_, ?_⟩, rest, ?_⟩, ?_⟩, rfl, rfl⟩
        · intro c hc
          rw [Option.mem_def.1 hc] at hhead
          simpa using hhead
        · intro c hc
          rw [Option.mem_def.1 hc] at hlast
          simpa using hlast
        · simp only [List.cons_append, List.append_assoc, List.nil_append]
          rw [← hrest]
        · -- the next asterisk ends any emphasis that starts here
          rintro ⟨lead, other⟩ ⟨-, hother, tail, htail⟩
          simp only [List.cons_append, List.append_assoc, List.nil_append, List.cons.injEq, true_and] at htail
          have : other = inner := eq_of_append_mark hother.2.1 hstar (htail.trans hrest)
          exact this ▸ Nat.le_refl _
    · simp at h
  complete := by
    rintro before text h ⟨lead, value⟩ ⟨-, hvalue, rest, rfl⟩
    rw [emphasisRule_of_isEmphasis hvalue] at h
    simp at h

/-! ### Quoted text -/

private theorem quotedValue?_quoteValue {value : List Char} (hne : value ≠ []) (hquote : '\x27' ∉ value)
    (rest : List Char) :
    quotedValue? (quoteValue value ++ rest) = some value := by
  have htake : (value ++ '\x27' :: rest).takeWhile (· != '\x27') = value := takeWhile_append_mark hquote rest
  have hlen : (value.length == (value ++ '\x27' :: rest).length) = false := by simp
  have hempty : value.isEmpty = false := by simpa using hne
  simp only [quoteValue, List.cons_append, List.append_assoc, List.nil_append, quotedValue?, htake, hlen, hempty]
  simp

private theorem notMem_of_quotedValue? {cs value : List Char} (h : quotedValue? cs = some value) : '\x27' ∉ value := by
  unfold quotedValue? at h
  split at h
  · dsimp only at h
    split at h
    · simp at h
    · obtain rfl := Option.some.inj h
      exact notMem_takeWhile_ne _ _
  · simp at h

/-- A word that can introduce quoted text: however it is spelled, none of it is white space or a backquote. -/
def isKeyword (word : String) : Bool :=
  !word.isEmpty && (word.toList ++ capitalized word.toList).all fun c => !Text.isBlank c && c != '\x60'

private theorem spelling_of_isKeyword {word : String} (hw : isKeyword word = true) {spelling : List Char}
    (h : spelling = word.toList ∨ spelling = capitalized word.toList) :
    spelling ≠ [] ∧ spelling.length = word.length ∧
      ∀ c ∈ spelling, Text.isBlank c = false ∧ c ≠ '\x60' := by
  simp only [isKeyword, Bool.and_eq_true, Bool.not_eq_eq_eq_not, Bool.not_true, List.all_eq_true, List.mem_append,
    bne_iff_ne, ne_eq] at hw
  obtain ⟨hne, hall⟩ := hw
  have hword : word.toList ≠ [] := by
    intro he
    simp_all
  rcases h with rfl | rfl
  · exact ⟨hword, String.length_toList, fun c hc => hall c (.inl hc)⟩
  · cases hcs : word.toList with
    | nil => exact absurd hcs hword
    | cons w ws =>
      have hlength : word.length = ws.length + 1 := by rw [← String.length_toList, hcs]; rfl
      refine ⟨by simp [capitalized], by simp [capitalized, hlength], fun c hc => hall c (.inr ?_)⟩
      rwa [hcs]

theorem stripWord?_append {word : String} (hw : isKeyword word = true) {spelling : List Char}
    (h : spelling = word.toList ∨ spelling = capitalized word.toList) (rest : List Char) :
    stripWord? word (spelling ++ rest) = some rest := by
  have hne := (spelling_of_isKeyword hw (.inl rfl)).1
  unfold stripWord?
  cases hcs : word.toList with
  | nil => exact absurd hcs hne
  | cons w ws =>
    rw [hcs] at h
    rcases h with rfl | rfl <;> simp [capitalized]

private theorem spelling_of_stripWord? {word : String} {cs rest : List Char} (h : stripWord? word cs = some rest) :
    cs.take word.length = word.toList ∨ cs.take word.length = capitalized word.toList := by
  unfold stripWord? at h
  split at h
  · rename_i w ws c cs hw
    split at h
    · rename_i hc
      simp only [Bool.and_eq_true, Bool.or_eq_true, beq_iff_eq] at hc
      obtain ⟨hfirst, hmore⟩ := hc
      obtain ⟨tail, rfl⟩ := List.isPrefixOf_iff_prefix.1 hmore
      have hlen : word.length = ws.length + 1 := by rw [← String.length_toList, hw]; rfl
      rw [hlen, hw]
      rcases hfirst with rfl | rfl <;> simp [capitalized]
    · simp at h
  · simp at h

private theorem leadsIn_of_leadIn? {words : List String} {cs lead rest : List Char}
    (h : leadIn? words cs = some (lead, rest)) : LeadsIn words lead := by
  induction words generalizing cs lead rest with
  | nil =>
    simp only [leadIn?, Option.some.injEq, Prod.mk.injEq] at h
    obtain ⟨rfl, -⟩ := h
    exact .nil
  | cons word words ih =>
    rw [leadIn?, Option.bind_eq_bind, Option.bind_eq_some_iff] at h
    obtain ⟨more, hmore, h⟩ := h
    dsimp only at h
    split at h
    · simp at h
    · rename_i hblank
      rw [Option.bind_eq_bind, Option.bind_eq_some_iff] at h
      obtain ⟨⟨lead', rest'⟩, hlead, h⟩ := h
      simp only [Option.pure_def, Option.some.injEq, Prod.mk.injEq] at h
      obtain ⟨rfl, -⟩ := h
      exact .cons (spelling_of_stripWord? hmore) (by simpa using hblank) (fun c hc => List.mem_takeWhile_imp hc)
        (ih hlead)

/-- Neither a backquote nor what words in front start with is white space. -/
private theorem isBlank_head?_of_leadsIn {words : List String} {lead : List Char} (h : LeadsIn words lead)
    (hw : ∀ word ∈ words, isKeyword word = true) (rest : List Char) :
    ∀ c ∈ (lead ++ '\x60' :: rest).head?, Text.isBlank c = false := by
  intro c hc
  cases h with
  | nil =>
    obtain rfl : '\x60' = c := by simpa using hc
    decide
  | cons spelled blank_ne blanks more =>
    obtain ⟨hne, -, hplain⟩ := spelling_of_isKeyword (hw _ (by simp)) spelled
    rw [List.append_assoc, List.append_assoc, List.head?_append_of_ne_nil _ hne] at hc
    exact (hplain c (List.mem_of_mem_head? hc)).1

/-- The words are taken off whenever a backquote follows them. -/
theorem leadIn?_append {words : List String} {lead : List Char} (h : LeadsIn words lead)
    (hw : ∀ word ∈ words, isKeyword word = true) (rest : List Char) :
    leadIn? words (lead ++ '\x60' :: rest) = some (lead, '\x60' :: rest) := by
  induction h with
  | nil => rfl
  | @cons word words spelling blank lead spelled blank_ne blanks more ih =>
    have hword := hw word (by simp)
    have hwords : ∀ word ∈ words, isKeyword word = true := fun w h => hw w (by simp [h])
    have hstart := isBlank_head?_of_leadsIn more hwords rest
    have hstop : (lead ++ '\x60' :: rest).takeWhile Text.isBlank = [] ∧
        (lead ++ '\x60' :: rest).dropWhile Text.isBlank = lead ++ '\x60' :: rest := by
      cases hcs : lead ++ '\x60' :: rest with
      | nil => simp
      | cons c cs =>
        have hc : Text.isBlank c = false := hstart c (by simp [hcs])
        simp [hc]
    have hlen := (spelling_of_isKeyword hword spelled).2.1
    have hblank : blank.isEmpty = false := by simpa using blank_ne
    rw [List.append_assoc, List.append_assoc, leadIn?, stripWord?_append hword spelled, Option.bind_eq_bind,
      Option.bind_some]
    simp only [List.takeWhile_append_of_pos blanks, List.dropWhile_append_of_pos blanks, hstop, List.append_nil, hblank,
      ih hwords, ← hlen, List.take_left]
    simp

private theorem backquote_notMem_of_leadsIn {words : List String} {lead : List Char} (h : LeadsIn words lead)
    (hw : ∀ word ∈ words, isKeyword word = true) : '\x60' ∉ lead := by
  induction h with
  | nil => simp
  | @cons word words spelling blank lead spelled blank_ne blanks more ih =>
    have hspelling := (spelling_of_isKeyword (hw word (by simp)) spelled).2.2
    simp only [List.mem_append, not_or]
    refine ⟨⟨fun hm => (hspelling _ hm).2 rfl, fun hm => ?_⟩, ih fun w h => hw w (by simp [h])⟩
    exact absurd (blanks _ hm) (by decide)

/-- The next backquote and the next quote after it bound whatever is quoted at a place. -/
theorem quotes_unique {leads : List (List String)} (hl : ∀ words ∈ leads, ∀ word ∈ words, isKeyword word = true)
    {text : List Char} {c d : Capture} (hc : Branch.Quotes leads text c) (hd : Branch.Quotes leads text d) :
    d = c := by
  obtain ⟨⟨words, hwords, hlead⟩, -, hquote, rest, hrest⟩ := hc
  obtain ⟨⟨words', hwords', hlead'⟩, -, hquote', rest', hrest'⟩ := hd
  have htext := hrest'.trans hrest.symm
  simp only [quoteValue, List.append_assoc, List.cons_append, List.nil_append] at htext
  have heq : d.lead = c.lead :=
    eq_of_append_mark (backquote_notMem_of_leadsIn hlead' (hl _ hwords'))
      (backquote_notMem_of_leadsIn hlead (hl _ hwords)) htext
  rw [heq] at htext
  have hvalues := List.append_cancel_left htext
  have hvalue : d.value = c.value := eq_of_append_mark hquote' hquote (List.cons.inj hvalues).2
  cases c
  cases d
  exact congr (congrArg Capture.mk heq) hvalue

private theorem referenceRule_realizes {leads : List (List String)} {make : String → Reference} {b : Branch}
    (hl : ∀ words ∈ leads, ∀ word ∈ words, isKeyword word = true)
    (hmatches : ∀ before text c, b.Matches before text c ↔ Branch.Quotes leads text c)
    (hsource : ∀ c, b.source c = c.lead ++ quoteValue c.value)
    (hnodes : ∀ c, b.nodes c = Branch.cited c (make (String.ofList c.value))) :
    Rule.Realizes (referenceRule leads make) b where
  sound := by
    intro before text f h
    obtain ⟨words, hwords, h⟩ := List.exists_of_findSome?_eq_some h
    rw [Option.bind_eq_bind, Option.bind_eq_some_iff] at h
    obtain ⟨⟨lead, rest⟩, hlead, h⟩ := h
    rw [Option.bind_eq_bind, Option.bind_eq_some_iff] at h
    obtain ⟨value, hvalue, h⟩ := h
    simp only [Option.pure_def, Option.some.injEq] at h
    obtain rfl := h
    obtain ⟨htext, -⟩ := leadIn?_eq_some hlead
    obtain ⟨hne, more, hmore⟩ := quotedValue?_eq_some hvalue
    have hquotes : Branch.Quotes leads text ⟨lead, value⟩ :=
      ⟨⟨words, hwords, leadsIn_of_leadIn? hlead⟩, hne, notMem_of_quotedValue? hvalue, more, by
        rw [htext, hmore, List.append_assoc]⟩
    refine ⟨⟨lead, value⟩, ⟨(hmatches _ _ _).2 hquotes, ?_⟩, (hsource ⟨lead, value⟩).symm,
      congrArg some (hnodes ⟨lead, value⟩).symm⟩
    intro other hother
    exact (congrArg (·.value.length) (quotes_unique hl hquotes ((hmatches _ _ _).1 hother))).le
  complete := by
    intro before text h c hc
    obtain ⟨⟨words, hwords, hlead⟩, hne, hquote, rest, rfl⟩ := (hmatches _ _ _).1 hc
    have hnone := List.findSome?_eq_none_iff.1 h words hwords
    have htext : c.lead ++ quoteValue c.value ++ rest = c.lead ++ '\x60' :: (c.value ++ '\x27' :: rest) := by
      simp [quoteValue]
    have hquoted : quotedValue? ('\x60' :: (c.value ++ '\x27' :: rest)) = some c.value := by
      simpa [quoteValue] using quotedValue?_quoteValue hne hquote rest
    rw [htext, leadIn?_append hlead (hl words hwords)] at hnone
    simp [hquoted] at hnone

private theorem quotedRule_realizes : Rule.Realizes quotedRule .literal where
  sound := by
    intro before text f h
    obtain ⟨value, hvalue, rfl⟩ := Option.map_eq_some_iff.1 h
    obtain ⟨hne, rest, hrest⟩ := quotedValue?_eq_some hvalue
    have hquotes : Branch.Quotes [[]] text ⟨[], value⟩ :=
      ⟨⟨[], by simp, .nil⟩, hne, notMem_of_quotedValue? hvalue, rest, hrest.symm⟩
    refine ⟨⟨[], value⟩, ⟨hquotes, fun other hother => ?_⟩, rfl, ?_⟩
    · exact (congrArg (·.value.length) (quotes_unique (by simp) hquotes hother)).le
    · have hcode : splitMetaVariables (String.ofList value) = code.nodes value := by
        rw [splitMetaVariables, String.toList_ofList]
      simp only [Branch.nodes, quotedNode, hcode]
      split <;> rfl
  complete := by
    rintro before text h ⟨lead, value⟩ ⟨⟨words, hwords, hlead⟩, hne, hquote, rest, rfl⟩
    obtain rfl := List.mem_singleton.1 hwords
    cases hlead with
    | nil =>
      rw [List.nil_append, quotedRule, quotedValue?_quoteValue hne hquote] at h
      simp at h

/-! ### Upper case words -/

/-- A beginning of a run that ends at a word boundary; `after` is the character behind the run. -/
def EndsAtBoundary (after : Option Char) (run word : List Char) : Prop :=
  word ≠ [] ∧ ∃ more, run = word ++ more ∧ Text.atBoundary word.getLast? (more.head?.or after) = true

/-- Of a run that does not itself end at a boundary, only the beginnings without its last character may. -/
private theorem endsAtBoundary_concat {after : Option Char} {c : Char} {run word : List Char}
    (hc : Text.atBoundary (some c) after = false) :
    EndsAtBoundary after (run ++ [c]) word ↔ EndsAtBoundary (some c) run word := by
  constructor
  · rintro ⟨hne, more, hrun, hb⟩
    rcases List.eq_nil_or_concat more with rfl | ⟨more, d, rfl⟩
    · rw [List.append_nil] at hrun
      rw [← hrun] at hb
      simp [hc] at hb
    · rw [List.concat_eq_append, ← List.append_assoc] at hrun
      obtain ⟨rfl, hd⟩ := List.append_inj' hrun rfl
      obtain rfl : c = d := by simpa using hd
      refine ⟨hne, more, rfl, ?_⟩
      cases more <;> simpa using hb
  · rintro ⟨hne, more, rfl, hb⟩
    refine ⟨hne, more ++ [c], by simp, ?_⟩
    cases more <;> simpa using hb

/-- The search goes back from the end of the run and stops at the first boundary. -/
theorem longestToBoundary?_spec (least : Nat) (after : Option Char) (run : List Char) :
    match longestToBoundary? least after run with
    | some word => EndsAtBoundary after run.reverse word ∧ least ≤ word.length ∧
        ∀ other, EndsAtBoundary after run.reverse other → other.length ≤ word.length
    | none => ∀ other, EndsAtBoundary after run.reverse other → other.length < least := by
  have hle : ∀ {after run other}, EndsAtBoundary after run other → other.length ≤ run.length := by
    rintro after run other ⟨-, more, rfl, -⟩
    simp
  fun_induction longestToBoundary? least after run with
  | case1 after =>
    rintro other ⟨hne, more, hrun, -⟩
    simp_all
  | case2 after c before hshort =>
    intro other hother
    have := hle hother
    simp only [List.length_reverse, List.length_cons] at this
    omega
  | case3 after c before hlong hb =>
    refine ⟨⟨by simp, [], by simp, by simpa using hb⟩, by simpa using hlong, ?_⟩
    intro other hother
    exact hle hother
  | case4 after c before hlong hb ih =>
    have hconcat : ∀ other, EndsAtBoundary after (c :: before).reverse other ↔
        EndsAtBoundary (some c) before.reverse other := by
      intro other
      rw [List.reverse_cons]
      exact endsAtBoundary_concat (by simpa using hb)
    simp only [hconcat]
    exact ih

/-- What a match of the meta-variable branch is, in terms of the upper case run at the start of a text. -/
private theorem matches_metaVariable_iff {before : Option Char} {c : Char} {cs : List Char} (hc : c.isUpper = true)
    (hb : Text.atBoundary before (some c) = true) {m : Capture} :
    Branch.Matches before (c :: cs) m .metaVariable ↔
      m.lead = [] ∧ 4 ≤ m.value.length ∧
        EndsAtBoundary (cs.dropWhile isUpperRun).head? (c :: cs.takeWhile isUpperRun) m.value := by
  have hrun : isUpperRun c = true := by simp [isUpperRun, hc]
  have hsplit : ∀ rest : List Char,
      rest.head? = (rest.takeWhile isUpperRun).head?.or (rest.dropWhile isUpperRun).head? := by
    intro rest
    rw [← List.head?_append, List.takeWhile_append_dropWhile]
  constructor
  · rintro ⟨hlead, ⟨hlen, hfirst, hall⟩, -, rest, htext, hend⟩
    have htake : c :: cs.takeWhile isUpperRun = m.value ++ rest.takeWhile isUpperRun := by
      rw [← List.takeWhile_append_of_pos hall, ← htext, List.takeWhile_cons_of_pos hrun]
    have hdrop : cs.dropWhile isUpperRun = rest.dropWhile isUpperRun := by
      calc cs.dropWhile isUpperRun = (c :: cs).dropWhile isUpperRun := (List.dropWhile_cons_of_pos hrun).symm
        _ = (m.value ++ rest).dropWhile isUpperRun := by rw [htext]
        _ = rest.dropWhile isUpperRun := List.dropWhile_append_of_pos hall
    refine ⟨hlead, hlen, ?_, rest.takeWhile isUpperRun, htake, ?_⟩
    · intro he
      simp [he] at hlen
    · rwa [hdrop, ← hsplit]
  · rintro ⟨hlead, hlen, hne, more, hmore, hend⟩
    cases hvalue : m.value with
    | nil => exact absurd hvalue hne
    | cons d ds =>
      rw [hvalue] at hmore hend hlen
      have hall : ∀ x ∈ c :: cs.takeWhile isUpperRun, isUpperRun x = true := by
        intro x hx
        rcases List.mem_cons.1 hx with rfl | hx
        · exact hrun
        · exact List.mem_takeWhile_imp hx
      obtain rfl : c = d := (List.cons.inj hmore).1
      refine ⟨hlead, ⟨hvalue ▸ hlen, ?_, ?_⟩, ?_, more ++ cs.dropWhile isUpperRun, ?_, ?_⟩
      · intro x hx
        rw [hvalue] at hx
        obtain rfl : c = x := by simpa using hx
        exact hc
      · intro x hx
        rw [hvalue] at hx
        exact hall x (hmore ▸ List.mem_append_left more hx)
      · rw [hvalue]
        exact hb
      · rw [hvalue, ← List.append_assoc, ← hmore, List.cons_append, List.takeWhile_append_dropWhile]
      · rw [hvalue, List.head?_append]
        exact hend

private theorem metaVariableRule_realizes : Rule.Realizes (metaVariableRule 4) .metaVariable where
  sound := by
    intro before text f h
    obtain ⟨word, hword, rfl⟩ := Option.map_eq_some_iff.1 h
    unfold upperWord? at hword
    split at hword
    · simp at hword
    · rename_i c cs
      split at hword
      · rename_i hc
        obtain ⟨hupper, hb⟩ := Bool.and_eq_true_iff.1 hc
        have hspec := longestToBoundary?_spec 4 (cs.dropWhile isUpperRun).head? (c :: cs.takeWhile isUpperRun).reverse
        rw [hword, List.reverse_reverse] at hspec
        obtain ⟨hends, hlen, hlongest⟩ := hspec
        refine ⟨⟨[], word⟩, ⟨(matches_metaVariable_iff hupper hb).2 ⟨rfl, hlen, hends⟩, ?_⟩, rfl, rfl⟩
        intro other hother
        exact hlongest _ ((matches_metaVariable_iff hupper hb).1 hother).2.2
      · simp at hword
  complete := by
    intro before text h m hm
    have hnone : upperWord? 4 before text = none := by simpa [metaVariableRule] using h
    have hm' := hm
    obtain ⟨-, ⟨hlen, hfirst, -⟩, hb, rest, htext, -⟩ := hm'
    cases hvalue : m.value with
    | nil => simp [hvalue] at hlen
    | cons c ds =>
      rw [hvalue] at hfirst hb htext
      have hupper : c.isUpper = true := hfirst c (by simp)
      have hb : Text.atBoundary before (some c) = true := hb
      rw [htext, List.cons_append] at hm hnone
      obtain ⟨-, hlen, hends⟩ := (matches_metaVariable_iff hupper hb).1 hm
      have hspec := longestToBoundary?_spec 4 ((ds ++ rest).dropWhile isUpperRun).head?
        (c :: (ds ++ rest).takeWhile isUpperRun).reverse
      rw [upperWord?, hupper, hb, Bool.and_self, if_pos rfl] at hnone
      rw [hnone, List.reverse_reverse] at hspec
      have := hspec _ hends
      omega

/-! ### Help buffers -/

/-- The rules of help buffers realize the branches, each in its place. -/
theorem help_realizes : List.Forall₂ Rule.Realizes help.rules Branch.all := by
  have hreference : ∀ {leads : List (List String)} {make : String → Reference} {b : Branch},
      leads.all (·.all isKeyword) = true → (∀ before text c, b.Matches before text c ↔ Branch.Quotes leads text c) →
      (∀ c, b.source c = c.lead ++ quoteValue c.value) →
      (∀ c, b.nodes c = Branch.cited c (make (String.ofList c.value))) →
      Rule.Realizes (referenceRule leads make) b := by
    intro leads make b hl
    refine referenceRule_realizes fun words hwords word hword => ?_
    exact List.all_eq_true.1 (List.all_eq_true.1 hl words hwords) word hword
  refine .cons emphasisRule_realizes ?_
  refine .cons (hreference (by decide) (fun _ _ _ => .rfl) (fun _ => rfl) fun _ => rfl) ?_
  refine .cons (hreference (by decide) (fun _ _ _ => .rfl) (fun _ => rfl) fun _ => rfl) ?_
  refine .cons (hreference (by decide) (fun _ _ _ => .rfl) (fun _ => rfl) fun _ => rfl) ?_
  refine .cons (hreference (by decide) (fun _ _ _ => .rfl) (fun _ => rfl) fun _ => rfl) ?_
  refine .cons (hreference (by decide) (fun _ _ _ => .rfl) (fun _ => rfl) fun _ => rfl) ?_
  refine .cons (hreference (by decide) (fun _ _ _ => .rfl) (fun _ => rfl) fun _ => rfl) ?_
  refine .cons (hreference (by decide) (fun _ _ _ => .rfl) (fun _ => rfl) fun _ => rfl) ?_
  refine .cons (hreference (by decide) (fun _ _ _ => .rfl) (fun _ => rfl) fun _ => rfl) ?_
  exact .cons quotedRule_realizes (.cons metaVariableRule_realizes .nil)

/-- What the first rule that matches finds is found by the first branch that matches. -/
theorem findSome?_eq_some_of_realizes {rules : List Rule} {bs : List Branch}
    (hr : List.Forall₂ Rule.Realizes rules bs) {before : Option Char} {text : List Char} {f : Found}
    (h : rules.findSome? (fun rule => rule before text) = some f) :
    ∃ earlier b later c, bs = earlier ++ b :: later ∧ (∀ other ∈ earlier, ∀ d, ¬ other.Matches before text d) ∧
      b.Longest before text c ∧ f.matched = b.source c ∧ f.nodes = some (b.nodes c) := by
  induction hr with
  | nil => simp at h
  | @cons rule b rules bs hrule _ ih =>
    rw [List.findSome?_cons] at h
    split at h
    · rename_i g hg
      obtain rfl := Option.some.inj h
      obtain ⟨c, hlongest, hsource, hnodes⟩ := hrule.sound hg
      exact ⟨[], b, bs, c, rfl, by simp, hlongest, hsource, hnodes⟩
    · rename_i hnone
      obtain ⟨earlier, b', later, c, rfl, hearlier, hfound⟩ := ih h
      refine ⟨b :: earlier, b', later, c, rfl, ?_, hfound⟩
      intro other hother
      rcases List.mem_cons.1 hother with rfl | hother
      · exact hrule.complete hnone
      · exact hearlier other hother

theorem findSome?_eq_none_of_realizes {rules : List Rule} {bs : List Branch}
    (hr : List.Forall₂ Rule.Realizes rules bs) {before : Option Char} {text : List Char}
    (h : rules.findSome? (fun rule => rule before text) = none) : ∀ b ∈ bs, ∀ c, ¬ b.Matches before text c := by
  induction hr with
  | nil => simp
  | @cons rule b rules bs hrule _ ih =>
    rw [List.findSome?_cons] at h
    split at h
    · simp at h
    · rename_i hnone
      intro other hother
      rcases List.mem_cons.1 hother with rfl | hother
      · exact hrule.complete hnone
      · exact ih h other hother

end Markup

end LispDoc
