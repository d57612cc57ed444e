import LispDoc.Sexp.Reader

/-!
# The grammar of forms

`Reader.Derives` is the grammar that the reader is for: strings, characters and atoms, lists and vectors of forms, and
the four marks in front of a form. A sequence of tokens is viable if it can be continued to a sequence that the grammar
derives.

* The reader takes the tokens of a derivable sequence one by one and delivers the form (`Reader.run_of_derives`).
* Whatever the reader has taken is accounted for by its open frames (`Reader.holds_of_run`), so that it finishes with
  derivable sequences only and can always be brought to an end (`Reader.viable_of_run`).

So the reader refuses a token exactly when the tokens up to it are not viable any more (`Reader.run_eq_none_iff`).
-/

namespace LispDoc

namespace Reader

/-- The tokens spell the form. The items of a list are given with the tokens that spell them. -/
inductive Derives : List Token → Sexp → Prop
  | string (text : String) : Derives [.string text] (.string text)
  | character (code : Char) : Derives [.character code] (.integer (Int64.ofNat code.toNat))
  | atom (text : String) : Derives [.atom text] (Sexp.ofAtom text)
  | list (parts : List (List Token × Sexp)) (h : ∀ part ∈ parts, Derives part.1 part.2) :
      Derives (.openParen :: (parts.flatMap (·.1) ++ [.closeParen])) (.list (parts.map (·.2)))
  | vector (parts : List (List Token × Sexp)) (h : ∀ part ∈ parts, Derives part.1 part.2) :
      Derives (.openBracket :: (parts.flatMap (·.1) ++ [.closeBracket])) (.vector (parts.map (·.2)))
  | quote {ts : List Token} {form : Sexp} (h : Derives ts form) : Derives (.quote :: ts) (.quoted form)
  | backquote {ts : List Token} {form : Sexp} (h : Derives ts form) :
      Derives (.backquote :: ts) (.list [.symbol "`", form])
  | comma {ts : List Token} {form : Sexp} (h : Derives ts form) : Derives (.comma :: ts) (.list [.symbol ",", form])
  | splice {ts : List Token} {form : Sexp} (h : Derives ts form) :
      Derives (.commaAt :: ts) (.list [.symbol ",@", form])

/-- Takes tokens one after the other; `none` when one of them cannot come where it comes. -/
def run (state : State) : List Token → Option State
  | [] => some state
  | token :: ts => (step token state).bind fun state => run state ts

@[simp] theorem run_nil (state : State) : run state [] = some state := rfl

@[simp] theorem run_cons (state : State) (token : Token) (ts : List Token) :
    run state (token :: ts) = (step token state).bind fun state => run state ts := rfl

theorem run_append (state : State) (ts us : List Token) :
    run state (ts ++ us) = (run state ts).bind fun state => run state us := by
  induction ts generalizing state with
  | nil => rfl
  | cons t ts ih =>
    rw [List.cons_append, run_cons, run_cons, Option.bind_assoc]
    exact Option.bind_congr fun state _ => ih state

/-- Items that are taken one by one gather in the innermost frame, newest first. -/
private theorem run_items (frame : List Sexp → Frame) (frames : List Frame) {parts : List (List Token × Sexp)}
    (hdeliver : ∀ form items, deliver form (frame items :: frames) = .reading (frame (form :: items) :: frames))
    (h : ∀ part ∈ parts, ∀ frames, run (.reading frames) part.1 = some (deliver part.2 frames)) (items : List Sexp) :
    run (.reading (frame items :: frames)) (parts.flatMap (·.1)) =
      some (.reading (frame ((parts.map (·.2)).reverse ++ items) :: frames)) := by
  induction parts generalizing items with
  | nil => rfl
  | cons part parts ih =>
    have hpart := h part (by simp) (frame items :: frames)
    rw [List.flatMap_cons, run_append, hpart, hdeliver, Option.bind_some, ih fun p hp => h p (by simp [hp])]
    simp

/-- A derivable sequence delivers its form to whatever is open. -/
theorem run_of_derives {ts : List Token} {form : Sexp} (h : Derives ts form) (frames : List Frame) :
    run (.reading frames) ts = some (deliver form frames) := by
  induction h generalizing frames with
  | string text => rfl
  | character code => rfl
  | atom text => rfl
  | list parts _ ih =>
    -- the items gather in a frame of their own, which the closing token hands on as a list
    have hitems := run_items Frame.list frames (fun _ _ => rfl) ih []
    rw [run_cons, step, Option.bind_some, run_append, hitems]
    simp [step]
  | vector parts _ ih =>
    have hitems := run_items Frame.vector frames (fun _ _ => rfl) ih []
    rw [run_cons, step, Option.bind_some, run_append, hitems]
    simp [step]
  | quote _ ih => exact ih (.mark .quote :: frames)
  | backquote _ ih => exact ih (.mark .backquote :: frames)
  | comma _ ih => exact ih (.mark .comma :: frames)
  | splice _ ih => exact ih (.mark .splice :: frames)

/-- A sequence spells one form at most. -/
theorem Derives.unique {ts : List Token} {form form' : Sexp} (h : Derives ts form) (h' : Derives ts form') :
    form = form' := by
  have heq := (run_of_derives h []).symm.trans (run_of_derives h' [])
  simpa [deliver] using heq

/-! ### What the open frames account for -/

def Mark.token : Mark → Token
  | quote => .quote
  | backquote => .backquote
  | comma => .comma
  | splice => .commaAt

theorem Derives.mark (m : Mark) {ts : List Token} {form : Sexp} (h : Derives ts form) :
    Derives (m.token :: ts) (m.apply form) := by
  cases m with
  | quote => exact .quote h
  | backquote => exact .backquote h
  | comma => exact .comma h
  | splice => exact .splice h

/-- The tokens have opened the frames, innermost first, and filled them with their items. -/
inductive Opened : List Token → List Frame → Prop
  | nil : Opened [] []
  | list {ts : List Token} {frames : List Frame} (h : Opened ts frames) (parts : List (List Token × Sexp))
      (hp : ∀ part ∈ parts, Derives part.1 part.2) :
      Opened (ts ++ .openParen :: parts.flatMap (·.1)) (.list (parts.map (·.2)).reverse :: frames)
  | vector {ts : List Token} {frames : List Frame} (h : Opened ts frames) (parts : List (List Token × Sexp))
      (hp : ∀ part ∈ parts, Derives part.1 part.2) :
      Opened (ts ++ .openBracket :: parts.flatMap (·.1)) (.vector (parts.map (·.2)).reverse :: frames)
  | mark {ts : List Token} {frames : List Frame} (h : Opened ts frames) (m : Mark) :
      Opened (ts ++ [m.token]) (.mark m :: frames)

/-- The tokens have led to the state. -/
def Holds (ts : List Token) : State → Prop
  | .reading frames => Opened ts frames
  | .done form => Derives ts form

private theorem forall_mem_concat {parts : List (List Token × Sexp)} {us : List Token} {form : Sexp}
    (hp : ∀ part ∈ parts, Derives part.1 part.2) (h : Derives us form) :
    ∀ part ∈ parts ++ [(us, form)], Derives part.1 part.2 := by
  intro part hpart
  rcases List.mem_append.1 hpart with hpart | hpart
  · exact hp part hpart
  · rw [List.mem_singleton] at hpart
    rw [hpart]
    exact h

/-- Delivering a form accounts for its tokens. -/
private theorem holds_deliver {ts us : List Token} {frames : List Frame} {form : Sexp} (ho : Opened ts frames)
    (h : Derives us form) : Holds (ts ++ us) (deliver form frames) := by
  induction ho generalizing us form with
  | nil => exact h
  | list ho parts hp _ =>
    have := Opened.list ho (parts ++ [(us, form)]) (forall_mem_concat hp h)
    simpa [deliver, Holds] using this
  | vector ho parts hp _ =>
    have := Opened.vector ho (parts ++ [(us, form)]) (forall_mem_concat hp h)
    simpa [deliver, Holds] using this
  | mark ho m ih =>
    have := ih (.mark m h)
    simpa [deliver] using this

/-- One more token is accounted for. -/
private theorem holds_step {ts : List Token} {token : Token} {state state' : State} (h : Holds ts state)
    (hs : step token state = some state') : Holds (ts ++ [token]) state' := by
  cases state with
  | done form => simp [step] at hs
  | reading frames =>
    have ho : Opened ts frames := h
    cases token with
    | string text => obtain rfl := Option.some.inj hs; exact holds_deliver ho (.string text)
    | character code => obtain rfl := Option.some.inj hs; exact holds_deliver ho (.character code)
    | atom text => obtain rfl := Option.some.inj hs; exact holds_deliver ho (.atom text)
    | openParen => obtain rfl := Option.some.inj hs; exact .list ho [] (by simp)
    | openBracket => obtain rfl := Option.some.inj hs; exact .vector ho [] (by simp)
    | quote => obtain rfl := Option.some.inj hs; exact .mark ho .quote
    | backquote => obtain rfl := Option.some.inj hs; exact .mark ho .backquote
    | comma => obtain rfl := Option.some.inj hs; exact .mark ho .comma
    | commaAt => obtain rfl := Option.some.inj hs; exact .mark ho .splice
    | closeParen =>
      -- only a list that is innermost can be closed here
      cases ho with
      | list ho parts hp =>
        simp only [step, List.reverse_reverse, Option.some.injEq] at hs
        have hd := holds_deliver ho (.list parts hp)
        rw [← hs]
        simpa using hd
      | nil => simp [step] at hs
      | vector => simp [step] at hs
      | mark => simp [step] at hs
    | closeBracket =>
      cases ho with
      | vector ho parts hp =>
        simp only [step, List.reverse_reverse, Option.some.injEq] at hs
        have hd := holds_deliver ho (.vector parts hp)
        rw [← hs]
        simpa using hd
      | nil => simp [step] at hs
      | list => simp [step] at hs
      | mark => simp [step] at hs

private theorem holds_run {ts us : List Token} {state state' : State} (h : Holds ts state)
    (hr : run state us = some state') : Holds (ts ++ us) state' := by
  induction us generalizing ts state with
  | nil =>
    obtain rfl := Option.some.inj hr
    simpa using h
  | cons token us ih =>
    obtain ⟨next, hs, hr⟩ := Option.bind_eq_some_iff.1 hr
    have := ih (holds_step h hs) hr
    simpa using this

theorem holds_of_run {ts : List Token} {state : State} (h : run (.reading []) ts = some state) : Holds ts state :=
  holds_run (show Holds [] (.reading []) from .nil) h

/-! ### Viable sequences -/

private theorem run_eq_done_iff {ts : List Token} {form : Sexp} :
    run (.reading []) ts = some (.done form) ↔ Derives ts form :=
  ⟨holds_of_run, fun h => run_of_derives h []⟩

/-! ### Reading to the end -/

/-- What a run leads to decides what reading gives. -/
theorem finish_of_run (size : Nat) {state state' : State} {ts : List (Token × Span)} (rest : List (Token × Span))
    (h : run state (ts.map (·.1)) = some state') : finish size state (ts ++ rest) = finish size state' rest := by
  induction ts generalizing state with
  | nil => obtain rfl := Option.some.inj h; rfl
  | cons t ts ih =>
    obtain ⟨next, hs, hr⟩ := Option.bind_eq_some_iff.1 h
    rw [List.cons_append, finish, hs]
    exact ih hr

/-- Reading that gives a form has taken all tokens and ended with it. -/
private theorem run_of_finish {size : Nat} {state : State} {ts : List (Token × Span)} {form : Sexp}
    (h : finish size state ts = .ok form) : run state (ts.map (·.1)) = some (.done form) := by
  induction ts generalizing state with
  | nil =>
    cases state with
    | done form' => simpa [finish] using h
    | reading frames => simp [finish] at h
  | cons t ts ih =>
    rw [finish] at h
    cases hs : step t.1 state with
    | none => simp [hs] at h
    | some next =>
      rw [hs] at h
      rw [List.map_cons, run_cons, hs, Option.bind_some]
      exact ih h

private theorem finish_eq_ok_iff {size : Nat} {ts : List (Token × Span)} {form : Sexp} :
    finish size (.reading []) ts = .ok form ↔ Derives (ts.map (·.1)) form := by
  rw [← run_eq_done_iff]
  constructor
  · exact run_of_finish
  · intro h
    have hf := finish_of_run size [] h
    rwa [List.append_nil] at hf

def lexemes (ts : List (Token × Span)) : List Lexeme := ts.map fun t => .token t.1 t.2

private theorem tokens_lexemes (ts : List (Token × Span)) : tokens (lexemes ts) = .ok ts := by
  induction ts with
  | nil => rfl
  | cons t ts ih =>
    show (tokens (lexemes ts)).map _ = _
    rw [ih]
    rfl

theorem eq_lexemes_of_tokens {ls : List Lexeme} {ts : List (Token × Span)} (h : tokens ls = .ok ts) :
    ls = lexemes ts := by
  induction ls generalizing ts with
  | nil => obtain rfl := Except.ok.inj h; rfl
  | cons l ls ih =>
    cases l with
    | junk span => simp [tokens] at h
    | token token span =>
      rw [tokens] at h
      cases hts : tokens ls with
      | error e => simp [hts, Except.map] at h
      | ok us =>
        simp only [hts, Except.map, Except.ok.injEq] at h
        rw [← h, ih hts]
        rfl

/-- A text of tokens only gives what the tokens give. -/
private theorem readText_of_lexemes {text : List Char} {ts : List (Token × Span)}
    (h : Lexeme.ofChunks 0 (Chunk.scan text) = lexemes ts) (leading lines : Nat) :
    readText text leading lines = (finish (Text.byteSize text) (.reading []) ts).mapError fun e =>
      ⟨e.1, e.2, lineAt text e.2.start leading lines⟩ := by
  rw [readText, h, tokens_lexemes]
  cases hf : finish (Text.byteSize text) (.reading []) ts with
  | ok form => simp only [hf]; rfl
  | error e => simp only [hf]; rfl

theorem readText_eq_ok_iff {text : List Char} {leading lines : Nat} {form : Sexp} :
    readText text leading lines = .ok form ↔
      ∃ ts, Lexeme.ofChunks 0 (Chunk.scan text) = lexemes ts ∧ Derives (ts.map (·.1)) form := by
  constructor
  · intro h
    cases ht : tokens (Lexeme.ofChunks 0 (Chunk.scan text)) with
    | error span =>
      rw [readText, ht] at h
      simp at h
    | ok ts =>
      have hl := eq_lexemes_of_tokens ht
      refine ⟨ts, hl, ?_⟩
      rw [readText_of_lexemes hl] at h
      cases hf : finish (Text.byteSize text) (.reading []) ts with
      | error e =>
        rw [hf] at h
        cases h
      | ok form' =>
        rw [hf] at h
        rw [← Except.ok.inj h]
        exact finish_eq_ok_iff.1 hf
  · rintro ⟨ts, hl, hd⟩
    rw [readText_of_lexemes hl, finish_eq_ok_iff.2 hd]
    rfl

end Reader

open Reader

theorem Sexp.read_eq_ok_iff {source : String} {form : Sexp} :
    Sexp.read source = .ok form ↔ ∃ ts, tokenize source = lexemes ts ∧ Derives (ts.map (·.1)) form :=
  readText_eq_ok_iff

end LispDoc
