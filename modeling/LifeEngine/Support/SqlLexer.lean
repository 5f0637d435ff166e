import Mathlib.Data.List.Basic

/-!
# The lexical structure of SQL text

A lexer for SQL in the dialect of SQLite, as an automaton that reads one character at
a time, so that reading a text is reading its parts in turn.  Words, numbers and
operators keep their text; of a string literal only its presence is kept.  The sign of
an exponent is read as an operator.

The main result is `scan_literal_iff`: a text that is read inside a string literal
leaves the lexer where it was exactly when its quotes are paired and it has no NUL.
Texts of plain characters, the last section, keep the lexer out of literals and
comments.
-/

namespace LifeEngine.Support.Sql

open List

def nul : Char := Char.ofNat 0

/-- The quote that delimits string literals. -/
def quote : Char := Char.ofNat 39

/-- The double quote and the grave accent. -/
def nameQuotes : List Char := [Char.ofNat 34, Char.ofNat 96]

/-- Tab, line feed, form feed, carriage return and space. -/
def blanks : List Char := [Char.ofNat 9, Char.ofNat 10, Char.ofNat 12, Char.ofNat 13, ' ']

/-- The operators of more than one character. -/
def operators : List (List Char) :=
  [['<', '='], ['<', '>'], ['<', '<'], ['>', '='], ['>', '>'], ['=', '='], ['!', '='],
    ['|', '|'], ['-', '>'], ['-', '>', '>']]

inductive Token where
  | string
  | blob (digits : List Char)
  | name (text : List Char)
  | other (text : List Char)
  | illegal
  deriving DecidableEq, Repr

/-- What the lexer is in the middle of. -/
inductive Mode where
  /-- With the text of the token begun. -/
  | code (begun : List Char)
  | literal
  /-- The literal ends unless another quote follows. -/
  | literalQuote
  | name (closing : Char) (text : List Char)
  | nameQuote (closing : Char) (text : List Char)
  | bracket (text : List Char)
  | blob (digits : List Char)
  | lineComment
  | blockComment
  | blockStar
  /-- After a NUL, where SQLite stops reading. -/
  | ended
  deriving DecidableEq, Repr

structure Lexer where
  tokens : List Token
  mode : Mode
  deriving DecidableEq, Repr

def start : Lexer := ⟨[], .code []⟩

/-- The characters of names and keywords. -/
def wordChar (c : Char) : Bool :=
  c.isAlphanum || c == '_' || c == '$' || decide (128 ≤ c.toNat)

/-- Whether a character continues the token begun. -/
def joins (begun : List Char) (c : Char) : Bool :=
  match begun with
  | [] => false
  | first :: _ =>
    if first = '?' ∨ first = '.' then c.isDigit
    else if wordChar first ∨ first ∈ ['@', ':', '#'] then
      wordChar c || (first.isDigit && c == '.')
    else decide (begun ++ [c] ∈ operators)

/-- The token begun is complete. -/
def flush (tokens : List Token) (begun : List Char) : List Token :=
  if begun = [] then tokens else tokens ++ [.other begun]

/-- A character outside of quotes and comments. -/
def codeStep (tokens : List Token) (begun : List Char) (c : Char) : Lexer :=
  if c = nul then ⟨flush tokens begun, .ended⟩
  else if c = quote then
    if begun = ['x'] ∨ begun = ['X'] then ⟨tokens, .blob []⟩
    else ⟨flush tokens begun, .literal⟩
  else if c ∈ nameQuotes then ⟨flush tokens begun, .name c []⟩
  else if c = '[' then ⟨flush tokens begun, .bracket []⟩
  else if begun = ['-'] ∧ c = '-' then ⟨tokens, .lineComment⟩
  else if begun = ['/'] ∧ c = '*' then ⟨tokens, .blockComment⟩
  else if c ∈ blanks then ⟨flush tokens begun, .code []⟩
  else if joins begun c then ⟨tokens, .code (begun ++ [c])⟩
  else ⟨flush tokens begun, .code [c]⟩

def step (s : Lexer) (c : Char) : Lexer :=
  match s.mode with
  | .code begun => codeStep s.tokens begun c
  | .literal =>
    if c = nul then ⟨s.tokens ++ [.illegal], .ended⟩
    else if c = quote then ⟨s.tokens, .literalQuote⟩
    else s
  | .literalQuote =>
    if c = quote then ⟨s.tokens, .literal⟩ else codeStep (s.tokens ++ [.string]) [] c
  | .name closing text =>
    if c = nul then ⟨s.tokens ++ [.illegal], .ended⟩
    else if c = closing then ⟨s.tokens, .nameQuote closing text⟩
    else ⟨s.tokens, .name closing (text ++ [c])⟩
  | .nameQuote closing text =>
    if c = closing then ⟨s.tokens, .name closing (text ++ [c])⟩
    else codeStep (s.tokens ++ [.name text]) [] c
  | .bracket text =>
    if c = nul then ⟨s.tokens ++ [.illegal], .ended⟩
    else if c = ']' then ⟨s.tokens ++ [.name text], .code []⟩
    else ⟨s.tokens, .bracket (text ++ [c])⟩
  | .blob digits =>
    if c = nul then ⟨s.tokens ++ [.illegal], .ended⟩
    else if c = quote then ⟨s.tokens ++ [.blob digits], .code []⟩
    else ⟨s.tokens, .blob (digits ++ [c])⟩
  | .lineComment =>
    if c = nul then ⟨s.tokens, .ended⟩
    else if c = Char.ofNat 10 then ⟨s.tokens, .code []⟩
    else s
  | .blockComment =>
    if c = nul then ⟨s.tokens, .ended⟩
    else if c = '*' then ⟨s.tokens, .blockStar⟩
    else s
  | .blockStar =>
    if c = nul then ⟨s.tokens, .ended⟩
    else if c = '/' then ⟨s.tokens, .code []⟩
    else if c = '*' then s
    else ⟨s.tokens, .blockComment⟩
  | .ended => s

/-- The end of the text. -/
def finish (s : Lexer) : List Token :=
  match s.mode with
  | .code begun => flush s.tokens begun
  | .literalQuote => s.tokens ++ [.string]
  | .nameQuote _ text => s.tokens ++ [.name text]
  | .literal | .name .. | .bracket _ | .blob _ => s.tokens ++ [.illegal]
  | .lineComment | .blockComment | .blockStar | .ended => s.tokens

def scan (s : Lexer) (cs : List Char) : Lexer :=
  cs.foldl step s

/-- The tokens of a text. -/
def tokenize (text : String) : List Token :=
  finish (scan start text.toList)

variable (tokens before : List Token) (s : Lexer)

@[simp]
theorem scan_nil : scan s [] = s := rfl

@[simp]
theorem scan_cons (c : Char) (cs : List Char) : scan s (c :: cs) = scan (step s c) cs := rfl

@[simp]
theorem scan_append (cs ds : List Char) :
    scan s (cs ++ ds) = scan (scan s cs) ds :=
  foldl_append

/-! ## Tokens are only added

What has been read does not matter for what follows, but for the mode it has left. -/

/-- The lexer with more tokens before its own. -/
def Lexer.after (tokens : List Token) (s : Lexer) : Lexer :=
  ⟨tokens ++ s.tokens, s.mode⟩

theorem flush_append (tokens : List Token) (begun : List Char) :
    flush (before ++ tokens) begun = before ++ flush tokens begun := by
  unfold flush
  split
  · rfl
  · exact append_assoc ..

theorem codeStep_append (tokens : List Token) (begun : List Char) (c : Char) :
    codeStep (before ++ tokens) begun c = (codeStep tokens begun c).after before := by
  unfold codeStep
  rw [flush_append]
  simp only [apply_ite (Lexer.after before)]
  rfl

theorem step_after (c : Char) : step (s.after before) c = (step s c).after before := by
  obtain ⟨tokens, mode⟩ := s
  cases mode with
  | code begun => exact codeStep_append before tokens begun c
  | literalQuote =>
    dsimp only [step, Lexer.after]
    rw [append_assoc, codeStep_append]
    split <;> rfl
  | nameQuote closing text =>
    dsimp only [step, Lexer.after]
    rw [append_assoc, codeStep_append]
    split <;> rfl
  | literal | name _ _ =>
    dsimp only [step, Lexer.after]
    rw [append_assoc]
    split_ifs <;> rfl
  | bracket _ | blob _ =>
    dsimp only [step, Lexer.after]
    rw [append_assoc, append_assoc]
    split_ifs <;> rfl
  | lineComment | blockComment | blockStar =>
    dsimp only [step, Lexer.after]
    split_ifs <;> rfl
  | ended => rfl

theorem scan_after (cs : List Char) : scan (s.after before) cs = (scan s cs).after before := by
  induction cs generalizing s with
  | nil => rfl
  | cons c cs ih => rw [scan_cons, scan_cons, step_after, ih]

theorem finish_after : finish (s.after before) = before ++ finish s := by
  obtain ⟨tokens, mode⟩ := s
  cases mode with
  | code begun => exact flush_append before tokens begun
  | _ => simp only [finish, Lexer.after, append_assoc]

theorem scan_after_ne (token : Token) (mode : Mode) (s : Lexer) (cs : List Char) :
    scan (s.after (tokens ++ [token])) cs ≠ ⟨tokens, mode⟩ := by
  intro h
  rw [scan_after] at h
  have hlength := congrArg (fun l => l.tokens.length) h
  simp only [Lexer.after, length_append, length_singleton] at hlength
  omega

/-! ## Inside a string literal -/

/-- Every quote is followed by a second one of its own. -/
def QuotesPaired : List Char → Prop
  | [] => True
  | [c] => c ≠ quote
  | c :: d :: rest =>
    if c = quote then d = quote ∧ QuotesPaired rest else QuotesPaired (d :: rest)

variable {cs : List Char} {c : Char}

theorem quotesPaired_of_notMem (h : quote ∉ cs) : QuotesPaired cs := by
  fun_induction QuotesPaired cs with
  | case1 => trivial
  | case2 c => exact fun hc => h (by simp [hc])
  | case3 d rest ih => exact absurd (mem_cons_self ..) h
  | case4 c d rest hc ih => exact ih fun hmem => h (mem_cons_of_mem _ hmem)

/-- The quotes are paired and there is no NUL. -/
def Safe (cs : List Char) : Prop :=
  QuotesPaired cs ∧ nul ∉ cs

theorem step_literal {tokens : List Token} (hnul : c ≠ nul) (hquote : c ≠ quote) :
    step ⟨tokens, .literal⟩ c = ⟨tokens, .literal⟩ := by
  simp only [step, if_neg hnul, if_neg hquote]

theorem step_literal_quote : step ⟨tokens, .literal⟩ quote = ⟨tokens, .literalQuote⟩ := rfl

theorem step_literalQuote_quote : step ⟨tokens, .literalQuote⟩ quote = ⟨tokens, .literal⟩ := rfl

/-- A quote that stands alone ends the literal. -/
theorem step_literalQuote {tokens : List Token} (hquote : c ≠ quote) :
    step ⟨tokens, .literalQuote⟩ c = codeStep (tokens ++ [.string]) [] c := by
  simp only [step, if_neg hquote]

theorem scan_ne_of_nul (cs : List Char) :
    scan (step ⟨tokens, .literal⟩ nul) cs ≠ ⟨tokens, .literal⟩ := by
  have hended : step ⟨tokens, .literal⟩ nul =
      (⟨[], .ended⟩ : Lexer).after (tokens ++ [.illegal]) := by
    simp only [step, Lexer.after, append_nil, if_true]
  rw [hended]
  exact scan_after_ne _ _ _ _ cs

theorem scan_ne_of_quote {tokens : List Token} (hquote : c ≠ quote) (cs : List Char) :
    scan (step ⟨tokens, .literalQuote⟩ c) cs ≠ ⟨tokens, .literal⟩ := by
  have hended := codeStep_append (tokens ++ [.string]) [] [] c
  rw [append_nil] at hended
  rw [step_literalQuote hquote, hended]
  exact scan_after_ne _ _ _ _ cs

/-- A text stays inside a literal exactly when its quotes are paired and it has no NUL. -/
theorem scan_literal_iff (cs : List Char) :
    scan ⟨tokens, .literal⟩ cs = ⟨tokens, .literal⟩ ↔ Safe cs := by
  unfold Safe
  fun_induction QuotesPaired cs with
  | case1 => simp
  | case2 c =>
    by_cases hnul : c = nul
    · subst hnul
      simp [step]
    · by_cases hquote : c = quote
      · subst hquote
        simp [step_literal_quote]
      · simp [step_literal hnul hquote, hquote, Ne.symm hnul]
  | case3 d rest ih =>
    rw [scan_cons, step_literal_quote, scan_cons]
    have hne : nul ≠ quote := by decide
    by_cases hd : d = quote
    · subst hd
      rw [step_literalQuote_quote, ih]
      simp [hne]
    · simp [scan_ne_of_quote hd, hd]
  | case4 c d rest hquote ih =>
    rw [scan_cons]
    by_cases hnul : c = nul
    · subst hnul
      have hleft := scan_ne_of_nul tokens (d :: rest)
      exact ⟨fun h => absurd h hleft, fun h => absurd (mem_cons_self ..) h.2⟩
    · rw [step_literal hnul hquote, ih]
      simp [Ne.symm hnul]

theorem scan_literal (h : Safe cs) (tokens : List Token) :
    scan ⟨tokens, .literal⟩ cs = ⟨tokens, .literal⟩ :=
  (scan_literal_iff tokens cs).mpr h

/-! ## Outside of literals -/

/-- Characters that open no quotes and no comment. -/
def Plain (c : Char) : Prop :=
  c ≠ nul ∧ c ≠ quote ∧ c ∉ nameQuotes ∧ c ∉ ['[', '-', '*']

instance : DecidablePred Plain := fun c => by unfold Plain; infer_instance

def AtCode (s : Lexer) : Prop :=
  ∃ tokens begun, s = ⟨tokens, .code begun⟩

theorem atCode_start : AtCode start := ⟨[], [], rfl⟩

theorem atCode_codeStep (begun : List Char) (hc : Plain c) : AtCode (codeStep tokens begun c) := by
  obtain ⟨hnul, hquote, hname, hother⟩ := hc
  simp only [mem_cons, not_or] at hother
  obtain ⟨hbracket, hminus, hstar⟩ := hother
  simp only [codeStep, if_neg hnul, if_neg hquote, hminus, hstar, and_false, if_false]
  split_ifs
  · exact ⟨_, _, rfl⟩
  · exact ⟨_, _, rfl⟩
  · exact ⟨_, _, rfl⟩

theorem AtCode.scan {s : Lexer} (hs : AtCode s) (hcs : ∀ c ∈ cs, Plain c) : AtCode (scan s cs) := by
  induction cs generalizing s with
  | nil => exact hs
  | cons c cs ih =>
    obtain ⟨tokens, begun, rfl⟩ := hs
    have hstep : AtCode (step ⟨tokens, .code begun⟩ c) :=
      atCode_codeStep tokens begun (hcs c (mem_cons_self ..))
    exact ih hstep fun d hd => hcs d (mem_cons_of_mem _ hd)

theorem codeStep_blank (begun : List Char) :
    codeStep tokens begun ' ' = ⟨flush tokens begun, .code []⟩ := by
  have hspecial : ' ' ≠ nul ∧ ' ' ≠ quote ∧ ' ' ∉ nameQuotes ∧ ' ' ∈ blanks := by decide
  obtain ⟨hnul, hquote, hname, hblank⟩ := hspecial
  have hcomment : ' ' ≠ '[' ∧ ' ' ≠ '-' ∧ ' ' ≠ '*' := by decide
  obtain ⟨hbracket, hminus, hstar⟩ := hcomment
  simp only [codeStep, if_neg hnul, if_neg hquote, if_neg hname, if_neg hbracket, hminus,
    hstar, and_false, if_false, if_pos hblank]

theorem AtCode.open_literal {s : Lexer} (hs : AtCode s) :
    ∃ tokens, Sql.scan s [' ', quote] = ⟨tokens, .literal⟩ := by
  obtain ⟨tokens, begun, rfl⟩ := hs
  refine ⟨flush tokens begun, ?_⟩
  have hblank : step ⟨tokens, .code begun⟩ ' ' = ⟨flush tokens begun, .code []⟩ :=
    codeStep_blank tokens begun
  rw [scan_cons, hblank]
  rfl

/-! ## Plain texts -/

/-- No character of the text opens quotes or a comment. -/
def PlainText (text : String) : Prop :=
  ∀ c ∈ text.toList, Plain c

instance (text : String) : Decidable (PlainText text) :=
  decidableBAll Plain text.toList

theorem PlainText.append {a b : String} (ha : PlainText a) (hb : PlainText b) :
    PlainText (a ++ b) := by
  intro c hc
  rw [String.toList_append, mem_append] at hc
  rcases hc with hc | hc
  · exact ha c hc
  · exact hb c hc

/-- A separated list, seen from one of its members. -/
theorem intercalate_split {α : Type} (sep : List α) (xs : List (List α)) (y : List α)
    (zs : List (List α)) :
    sep.intercalate (xs ++ y :: zs) = xs.flatMap (· ++ sep) ++ y ++ zs.flatMap (sep ++ ·) := by
  induction xs with
  | nil =>
    induction zs generalizing y with
    | nil => simp
    | cons z zs ih =>
      have htail := ih z
      simp only [nil_append] at htail ⊢
      rw [intercalate_cons_cons, htail]
      simp
  | cons x xs ih =>
    have hnext : sep.intercalate (x :: (xs ++ y :: zs)) =
        x ++ sep ++ sep.intercalate (xs ++ y :: zs) := by
      cases xs <;> exact intercalate_cons_cons
    rw [cons_append, hnext, ih]
    simp

theorem plainText_intercalate {sep : String} (hsep : PlainText sep) {texts : List String}
    (htexts : ∀ text ∈ texts, PlainText text) : PlainText (String.intercalate sep texts) := by
  cases texts with
  | nil => exact fun c hc => absurd hc not_mem_nil
  | cons text rest =>
    intro c hc
    rw [String.toList_intercalate, map_cons] at hc
    have hsplit := intercalate_split sep.toList [] text.toList (rest.map String.toList)
    rw [nil_append] at hsplit
    rw [hsplit, flatMap_map, mem_append, mem_flatMap] at hc
    rcases hc with hc | ⟨other, hother, hc⟩
    · exact htexts text (mem_cons_self ..) c hc
    · rcases mem_append.mp hc with hc | hc
      · exact hsep c hc
      · exact htexts other (mem_cons_of_mem _ hother) c hc

theorem plainText_join {texts : List String} (htexts : ∀ text ∈ texts, PlainText text) :
    PlainText (String.join texts) := by
  intro c hc
  rw [String.toList_join, mem_flatMap] at hc
  obtain ⟨text, htext, hc⟩ := hc
  exact htexts text htext c hc

theorem plain_of_isDigit (h : c.isDigit = true) : Plain c := by
  have hne : ∀ d : Char, d.isDigit = false → c ≠ d := by
    rintro d hd rfl
    rw [h] at hd
    cases hd
  refine ⟨hne _ (by decide), hne _ (by decide), ?_, ?_⟩
  · simp only [nameQuotes, mem_cons, not_mem_nil, or_false, not_or]
    exact ⟨hne _ (by decide), hne _ (by decide)⟩
  · simp only [mem_cons, not_mem_nil, or_false, not_or]
    exact ⟨hne _ (by decide), hne _ (by decide), hne _ (by decide)⟩

theorem plainText_toString (n : Nat) : PlainText (toString n) := by
  intro c hc
  have hdigits : c ∈ Nat.toDigits 10 n := by simpa using hc
  exact plain_of_isDigit (Nat.isDigit_of_mem_toDigits (by decide) (by decide) hdigits)

end LifeEngine.Support.Sql
