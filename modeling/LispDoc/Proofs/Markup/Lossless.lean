import LispDoc.Docstring.Markup

/-!
# Inline markup is lossless

A node can be written back to the source form that it was read from: `Inline.source`. A rule is faithful if what it
matches is a non-empty beginning of the text and its nodes are written back to just that.

* The pieces that a faithful markup cuts a text into concatenate to the text (`Markup.flatMap_text_pieces`), and every
  piece is written back to its own text (`Markup.writesBack_of_mem_pieces`).
* The rules of help buffers are faithful (`Markup.help_faithful`), so that every text is written back exactly.
-/

namespace LispDoc

/-! ### Source forms -/

namespace Inline

mutual
/-- The source form of a node: a reference is quoted whatever introduces it, and a meta-variable is a bare word. -/
def source : Inline → List Char
  | plain text => text.toList
  | emphasis text => '*' :: text.toList ++ ['*']
  | reference r => '\x60' :: r.target.toList ++ ['\x27']
  | literal children => '\x60' :: sourceOf children ++ ['\x27']
  | metaVariable name => name.toList

def sourceOf : List Inline → List Char
  | [] => []
  | node :: nodes => node.source ++ sourceOf nodes
end

mutual
/-- The texts of the plain nodes at every depth. -/
def plains : Inline → List String
  | plain text => [text]
  | literal children => plainsOf children
  | _ => []

def plainsOf : List Inline → List String
  | [] => []
  | node :: nodes => node.plains ++ plainsOf nodes
end

@[simp] theorem sourceOf_nil : sourceOf [] = [] := by rw [sourceOf]

@[simp] theorem sourceOf_cons (node : Inline) (nodes : List Inline) :
    sourceOf (node :: nodes) = node.source ++ sourceOf nodes := by rw [sourceOf]

@[simp] theorem plainsOf_nil : plainsOf [] = [] := by rw [plainsOf]

@[simp] theorem plainsOf_cons (node : Inline) (nodes : List Inline) :
    plainsOf (node :: nodes) = node.plains ++ plainsOf nodes := by rw [plainsOf]

theorem sourceOf_append (as bs : List Inline) : sourceOf (as ++ bs) = sourceOf as ++ sourceOf bs := by
  induction as with
  | nil => simp
  | cons a as ih => simp [ih]

theorem plainsOf_append (as bs : List Inline) : plainsOf (as ++ bs) = plainsOf as ++ plainsOf bs := by
  induction as with
  | nil => simp
  | cons a as ih => simp [ih]

/-- The nodes are written back to `text`, and no plain node among them is empty. -/
structure WritesBack (nodes : List Inline) (text : List Char) : Prop where
  source_eq : sourceOf nodes = text
  plain_ne : ∀ t ∈ plainsOf nodes, t ≠ ""

theorem WritesBack.nil : WritesBack [] [] := ⟨by simp, by simp⟩

theorem WritesBack.append {as bs : List Inline} {s t : List Char} (ha : WritesBack as s) (hb : WritesBack bs t) :
    WritesBack (as ++ bs) (s ++ t) := by
  refine ⟨by rw [sourceOf_append, ha.source_eq, hb.source_eq], ?_⟩
  intro u hu
  rw [plainsOf_append, List.mem_append] at hu
  rcases hu with hu | hu
  · exact ha.plain_ne u hu
  · exact hb.plain_ne u hu

/-- A node without plain nodes inside is written back on its own. -/
theorem WritesBack.single {node : Inline} {text : List Char} (hs : node.source = text)
    (hp : ∀ t ∈ node.plains, t ≠ "") : WritesBack [node] text :=
  ⟨by simp [hs], by simpa using hp⟩

theorem ofList_ne_empty {text : List Char} (h : text ≠ []) : String.ofList text ≠ "" := by
  intro he
  have := congrArg String.toList he
  simp at this
  exact h this

/-- A plain node is written back to its text, which must not be empty. -/
theorem WritesBack.plain {text : List Char} (h : text ≠ []) : WritesBack [.plain (String.ofList text)] text := by
  refine .single (by simp [source]) ?_
  intro t ht
  simp only [plains, List.mem_singleton] at ht
  rw [ht]
  exact ofList_ne_empty h

end Inline

/-! ### Faithful rules -/

/-- A match at the start of `text`: a beginning of it that is not empty, with nodes that are written back to it. -/
structure Found.Faithful (f : Found) (text : List Char) : Prop where
  ne_nil : f.matched ≠ []
  starts : f.matched <+: text
  writes : ∃ nodes, f.nodes = some nodes ∧ Inline.WritesBack nodes f.matched

/-- A match that is a beginning of `text` and not empty, whatever its nodes are. -/
structure Found.Anchored (f : Found) (text : List Char) : Prop where
  ne_nil : f.matched ≠ []
  starts : f.matched <+: text

/-- Whatever the rule matches, it matches faithfully. -/
def Rule.Faithful (rule : Rule) : Prop := ∀ before text f, rule before text = some f → f.Faithful text

namespace Markup

def Faithful (m : Markup) : Prop := ∀ rule ∈ m.rules, rule.Faithful

theorem Faithful.find? {m : Markup} (hm : m.Faithful) {before : Option Char} {text : List Char} {f : Found}
    (h : m.find? before text = some f) : f.Faithful text := by
  obtain ⟨rule, hrule, hf⟩ := List.exists_of_findSome?_eq_some h
  exact hm rule hrule before text f hf

/-- Whatever is found at a place starts there and is not empty. -/
def Anchored (m : Markup) : Prop := ∀ before text f, m.find? before text = some f → f.Anchored text

theorem Faithful.anchored {m : Markup} (hm : m.Faithful) : m.Anchored := by
  intro before text f h
  have hfaith := hm.find? h
  exact ⟨hfaith.ne_nil, hfaith.starts⟩

/-! ### Pieces -/

private theorem flatMap_text_closeGap (gap : List Char) : (closeGap gap).flatMap Piece.text = gap.reverse := by
  unfold closeGap
  cases gap with
  | nil => rfl
  | cons c gap => simp [Piece.text]

/-- A non-empty beginning of a text and what is left after as many characters make up the text. -/
theorem append_drop_of_isPrefix {matched : List Char} {c : Char} {cs : List Char} (hne : matched ≠ [])
    (hp : matched <+: c :: cs) : matched ++ cs.drop (matched.length - 1) = c :: cs := by
  cases matched with
  | nil => exact absurd rfl hne
  | cons d ds =>
    obtain ⟨rest, hrest⟩ := hp
    simp only [List.cons_append, List.cons.injEq] at hrest
    obtain ⟨rfl, rfl⟩ := hrest
    simp

/-- A scan loses nothing: its pieces concatenate to the collected gap and the text. -/
theorem flatMap_text_scan {m : Markup} (hm : m.Anchored) (before : Option Char) (gap cs : List Char) :
    (m.scan before gap cs).flatMap Piece.text = gap.reverse ++ cs := by
  fun_induction Markup.scan m before gap cs with
  | case1 before gap => rw [flatMap_text_closeGap, List.append_nil]
  | case2 before gap c cs f hf ih =>
    -- the match stands at the front, and the scan goes on right behind it
    have hanchored := hm _ _ _ hf
    have htile := append_drop_of_isPrefix hanchored.ne_nil hanchored.starts
    rw [List.flatMap_append, flatMap_text_closeGap, List.flatMap_cons, ih]
    simp only [Piece.text, List.reverse_nil, List.nil_append]
    rw [htile]
  | case3 before gap c cs hf ih => rw [ih]; simp

theorem flatMap_text_pieces {m : Markup} (hm : m.Faithful) (text : List Char) :
    (m.pieces text).flatMap Piece.text = text := by
  rw [pieces, flatMap_text_scan hm.anchored]; rfl

/-- Gaps are never empty, and matches come from the rules. -/
private theorem mem_scan {m : Markup} {before : Option Char} {gap cs : List Char} {p : Piece}
    (h : p ∈ m.scan before gap cs) :
    (∃ text, text ≠ [] ∧ p = .gap text) ∨ ∃ b t f, m.find? b t = some f ∧ p = .found f := by
  have hgap : ∀ gap : List Char, p ∈ closeGap gap → ∃ text, text ≠ [] ∧ p = .gap text := by
    intro gap hp
    unfold closeGap at hp
    split at hp
    · simp at hp
    · rename_i hne
      exact ⟨gap.reverse, by simpa using hne, by simpa using hp⟩
  fun_induction Markup.scan m before gap cs with
  | case1 before gap => exact .inl (hgap gap h)
  | case2 before gap c cs f hf ih =>
    rcases List.mem_append.1 h with h | h
    · exact .inl (hgap gap h)
    · rcases List.mem_cons.1 h with rfl | h
      · exact .inr ⟨before, c :: cs, f, hf, rfl⟩
      · exact ih h
  | case3 before gap c cs hf ih => exact ih h

/-- A piece of a scan is written back to its own text, and has been handled. -/
theorem writesBack_of_mem_pieces {m : Markup} (hm : m.Faithful) {text : List Char} {p : Piece}
    (h : p ∈ m.pieces text) : Inline.WritesBack p.nodes p.text ∧ p.unhandled? = none := by
  rcases mem_scan h with ⟨gap, hne, rfl⟩ | ⟨b, t, f, hf, rfl⟩
  · exact ⟨.plain hne, rfl⟩
  · obtain ⟨nodes, hnodes, hw⟩ := (hm.find? hf).writes
    constructor
    · simpa [Piece.nodes, Piece.text, hnodes] using hw
    · simp [Piece.unhandled?, hnodes]

theorem writesBack_flatMap {ps : List Piece} (h : ∀ p ∈ ps, Inline.WritesBack p.nodes p.text) :
    Inline.WritesBack (ps.flatMap Piece.nodes) (ps.flatMap Piece.text) := by
  induction ps with
  | nil => exact .nil
  | cons p ps ih =>
    rw [List.flatMap_cons, List.flatMap_cons]
    exact (h p (by simp)).append (ih fun q hq => h q (by simp [hq]))

/-- The nodes of a text under a faithful markup are written back to the text. -/
theorem Faithful.writesBack {m : Markup} (hm : m.Faithful) (text : List Char) :
    Inline.WritesBack (m.nodes text) text := by
  have h : Inline.WritesBack ((m.pieces text).flatMap Piece.nodes) ((m.pieces text).flatMap Piece.text) :=
    writesBack_flatMap fun p hp => (writesBack_of_mem_pieces hm hp).1
  rwa [flatMap_text_pieces hm] at h

theorem Faithful.unhandled? {m : Markup} (hm : m.Faithful) (text : List Char) : m.unhandled? text = none := by
  rw [Markup.unhandled?, List.findSome?_eq_none_iff]
  intro p hp
  exact (writesBack_of_mem_pieces hm hp).2

/-! ### The rules of help buffers -/

/-- A list that a `takeWhile` does not exhaust goes on with an element that fails the test. -/
theorem eq_takeWhile_append_cons {cs : List Char} {q : Char}
    (h : (cs.takeWhile (· != q)).length ≠ cs.length) : ∃ rest, cs = cs.takeWhile (· != q) ++ q :: rest := by
  induction cs with
  | nil => simp at h
  | cons c cs ih =>
    by_cases hc : c = q
    · subst hc; exact ⟨cs, by simp⟩
    · have htake : (c :: cs).takeWhile (· != q) = c :: cs.takeWhile (· != q) := by simp [hc]
      rw [htake] at h ⊢
      obtain ⟨rest, hrest⟩ := ih (by simpa using h)
      exact ⟨rest, by rw [List.cons_append, ← hrest]⟩

theorem quotedValue?_eq_some {cs value : List Char} (h : quotedValue? cs = some value) :
    value ≠ [] ∧ ∃ rest, cs = quoteValue value ++ rest := by
  unfold quotedValue? at h
  split at h
  · rename_i cs
    dsimp only at h
    split at h
    · simp at h
    · rename_i hc
      simp only [Bool.or_eq_true, List.isEmpty_iff, beq_iff_eq, not_or] at hc
      obtain ⟨rest, hrest⟩ := eq_takeWhile_append_cons hc.2
      obtain rfl := Option.some.inj h
      refine ⟨hc.1, rest, ?_⟩
      simp only [quoteValue, List.cons_append, List.append_assoc, List.nil_append]
      rw [← hrest]
  · simp at h

theorem stripWord?_eq_some {word : String} {cs rest : List Char} (h : stripWord? word cs = some rest) :
    cs = cs.take word.length ++ rest := by
  unfold stripWord? at h
  split at h
  · rename_i w ws c cs hw
    split at h
    · rename_i hc
      obtain ⟨tail, htail⟩ := List.isPrefixOf_iff_prefix.1 (Bool.and_eq_true_iff.1 hc).2
      obtain rfl := Option.some.inj h
      have hlen : word.length = ws.length + 1 := by rw [← String.length_toList, hw]; rfl
      rw [hlen, ← htail]
      simp
    · simp at h
  · simp at h

/-- What a lead-in takes off stands in front, and is not empty if there is a word to take. -/
theorem leadIn?_eq_some {words : List String} {cs lead rest : List Char} (h : leadIn? words cs = some (lead, rest)) :
    cs = lead ++ rest ∧ (words ≠ [] → lead ≠ []) := by
  induction words generalizing cs lead rest with
  | nil =>
    simp only [leadIn?, Option.some.injEq, Prod.mk.injEq] at h
    obtain ⟨rfl, rfl⟩ := h
    exact ⟨rfl, fun h => absurd rfl h⟩
  | cons word words ih =>
    rw [leadIn?, Option.bind_eq_bind, Option.bind_eq_some_iff] at h
    obtain ⟨more, hmore, h⟩ := h
    dsimp only at h
    split at h
    · simp at h
    · rename_i hblank
      rw [Option.bind_eq_bind, Option.bind_eq_some_iff] at h
      obtain ⟨⟨lead', rest'⟩, hlead, h⟩ := h
      simp only [Option.pure_def, Option.some.injEq, Prod.mk.injEq] at h
      obtain ⟨rfl, rfl⟩ := h
      constructor
      -- the word, the white space behind it, and what the other words take
      · have hsplit : more.takeWhile Text.isBlank ++ more.dropWhile Text.isBlank = more :=
          List.takeWhile_append_dropWhile
        rw [List.append_assoc, List.append_assoc, ← (ih hlead).1, hsplit]
        exact stripWord?_eq_some hmore
      · intro _ he
        simp only [List.append_eq_nil_iff] at he
        exact hblank (by simp [he.1.2])

private theorem emphasisRule_faithful : Rule.Faithful emphasisRule := by
  intro before text f h
  unfold emphasisRule at h
  split at h
  · rename_i cs
    dsimp only at h
    split at h
    · simp at h
    · rename_i hc
      simp only [Bool.or_eq_true, beq_iff_eq, not_or] at hc
      obtain ⟨rest, hrest⟩ := eq_takeWhile_append_cons hc.1.1
      obtain rfl := Option.some.inj h
      refine ⟨by simp, ⟨rest, ?_⟩, _, rfl, ?_⟩
      · simp only [List.cons_append, List.append_assoc, List.nil_append]
        rw [← hrest]
      · exact .single (by simp [Inline.source]) (by simp [Inline.plains])
  · simp at h

private theorem referenceRule_faithful {leads : List (List String)} {make : String → Reference} (hl : [] ∉ leads)
    (hm : ∀ target, (make target).target = target) : Rule.Faithful (referenceRule leads make) := by
  intro before text f h
  obtain ⟨words, hwords, h⟩ := List.exists_of_findSome?_eq_some h
  rw [Option.bind_eq_bind, Option.bind_eq_some_iff] at h
  obtain ⟨⟨lead, rest⟩, hlead, h⟩ := h
  rw [Option.bind_eq_bind, Option.bind_eq_some_iff] at h
  obtain ⟨value, hvalue, h⟩ := h
  simp only [Option.pure_def, Option.some.injEq] at h
  obtain rfl := h
  obtain ⟨htext, hne⟩ := leadIn?_eq_some hlead
  obtain ⟨-, more, hmore⟩ := quotedValue?_eq_some hvalue
  have hlead_ne : lead ≠ [] := hne fun he => hl (he ▸ hwords)
  refine ⟨by simp [quoteValue], ⟨more, by rw [htext, hmore, List.append_assoc]⟩, _, rfl, ?_⟩
  exact (Inline.WritesBack.plain hlead_ne).append
    (.single (by simp [Inline.source, hm, quoteValue]) (by simp [Inline.plains]))

/-- The longest beginning up to a boundary is a beginning of the run, and not empty. -/
theorem longestToBoundary?_eq_some {least : Nat} {after : Option Char} {run word : List Char}
    (h : longestToBoundary? least after run = some word) : word <+: run.reverse ∧ word ≠ [] := by
  fun_induction longestToBoundary? least after run with
  | case1 => simp at h
  | case2 => simp at h
  | case3 after c before _ _ =>
    obtain rfl := Option.some.inj h
    exact ⟨List.prefix_rfl, by simp⟩
  | case4 after c before _ _ ih =>
    obtain ⟨hp, hne⟩ := ih h
    exact ⟨hp.trans (by simp), hne⟩

theorem upperWord?_eq_some {least : Nat} {before : Option Char} {text word : List Char}
    (h : upperWord? least before text = some word) : word <+: text ∧ word ≠ [] := by
  unfold upperWord? at h
  split at h
  · simp at h
  · rename_i c cs
    split at h
    · obtain ⟨hp, hne⟩ := longestToBoundary?_eq_some h
      rw [List.reverse_reverse] at hp
      exact ⟨hp.trans (by simpa using List.takeWhile_prefix _), hne⟩
    · simp at h

private theorem metaVariableRule_faithful (least : Nat) : Rule.Faithful (metaVariableRule least) := by
  intro before text f h
  obtain ⟨word, hword, rfl⟩ := Option.map_eq_some_iff.1 h
  obtain ⟨hp, hne⟩ := upperWord?_eq_some hword
  exact ⟨hne, hp, _, rfl, .single (by simp [Inline.source]) (by simp [Inline.plains])⟩

theorem code_faithful : code.Faithful := by
  intro rule hrule
  simp only [code, List.mem_singleton] at hrule
  exact hrule ▸ metaVariableRule_faithful 1

/-- Quoted text is written back to itself in its quotes, be it a reference or code. -/
private theorem writesBack_quotedNode (value : List Char) : Inline.WritesBack [quotedNode value]
    (quoteValue value) := by
  unfold quotedNode
  split
  · exact .single (by simp [Inline.source, quoteValue]) (by simp [Inline.plains])
  · have hcode := code_faithful.writesBack value
    exact .single (by simp [Inline.source, hcode.source_eq, quoteValue])
      (by simpa [Inline.plains] using hcode.plain_ne)

private theorem quotedRule_faithful : Rule.Faithful quotedRule := by
  intro before text f h
  obtain ⟨value, hvalue, rfl⟩ := Option.map_eq_some_iff.1 h
  obtain ⟨-, rest, hrest⟩ := quotedValue?_eq_some hvalue
  exact ⟨by simp [quoteValue], ⟨rest, hrest.symm⟩, _, rfl, writesBack_quotedNode value⟩

theorem help_faithful : help.Faithful := by
  intro rule hrule
  simp only [help, List.mem_cons, List.not_mem_nil, or_false] at hrule
  rcases hrule with rfl | rfl | rfl | rfl | rfl | rfl | rfl | rfl | rfl | rfl | rfl
  · exact emphasisRule_faithful
  · exact referenceRule_faithful (by simp) fun _ => rfl
  · exact referenceRule_faithful (by simp) fun _ => rfl
  · exact referenceRule_faithful (by simp) fun _ => rfl
  · exact referenceRule_faithful (by simp) fun _ => rfl
  · exact referenceRule_faithful (by simp) fun _ => rfl
  · exact referenceRule_faithful (by simp) fun _ => rfl
  · exact referenceRule_faithful (by simp) fun _ => rfl
  · exact referenceRule_faithful (by simp) fun _ => rfl
  · exact quotedRule_faithful
  · exact metaVariableRule_faithful 4

end Markup

/-- Writing the nodes of a help buffer's text back gives the text, whatever it is. No match is left without nodes, and
no plain node is empty, at any depth. -/
theorem sourceOf_helpNodes (text : String) :
    Markup.help.unhandled? text.toList = none ∧
      String.ofList (Inline.sourceOf (helpNodes text)) = text ∧
      ∀ t ∈ Inline.plainsOf (helpNodes text), t ≠ "" := by
  have hw := Markup.help_faithful.writesBack text.toList
  refine ⟨Markup.help_faithful.unhandled? text.toList, ?_, hw.plain_ne⟩
  rw [helpNodes, hw.source_eq, String.ofList_toList]

end LispDoc
