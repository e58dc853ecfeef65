import Mathlib.Data.List.Induction
import Mathlib.Tactic.Common

/-! The words of a command line. A shell reads the line byte by byte; quotes and
backslashes take the special meaning of bytes away, and what is not quoted may be
expanded later or end the command. The rules of quoting are stated as a partial
table of the places in a line where they say what a byte does. A lexer is anything
that follows them there, and may do as it likes elsewhere. -/

namespace ShellWords

/-- The bytes of a word, each with whether it is quoted. -/
abbrev Word := List (UInt8 × Bool)

/-- A word whose bytes are all quoted, so that none of them is special or expanded. -/
def literal (bytes : List UInt8) : Word := bytes.map fun b => (b, true)

/-- A word without quoted bytes. -/
def plain (bytes : List UInt8) : Word := bytes.map fun b => (b, false)

/-- A word, or a byte that separates commands or redirects one. -/
inductive Token
  | word (w : Word)
  | operator (b : UInt8)
  deriving DecidableEq, Repr

/-- A place in a line: between words, in a word, in single quotes or behind a backslash. -/
inductive Mode
  | between
  | word (w : Word)
  | quoted (w : Word)
  | escaped (w : Word)
  deriving DecidableEq, Repr

def kSpace : UInt8 := 0x20
def kTab : UInt8 := 0x09
def kNewline : UInt8 := 0x0A
def kQuote : UInt8 := 0x27
def kBackslash : UInt8 := 0x5C

def isBlank (b : UInt8) : Bool := b = kSpace || b = kTab

/-- A letter, a digit, or one of the marks that mean nothing to a shell. -/
def isOrdinary (b : UInt8) : Bool :=
  (0x61 ≤ b && b ≤ 0x7A) || (0x41 ≤ b && b ≤ 0x5A) || (0x30 ≤ b && b ≤ 0x39) ||
    b = 0x2D || b = 0x2E || b = 0x2F || b = 0x5F

/-- What a byte does at a place where the rules of quoting say it: the tokens that it ends, and where
the line goes on. -/
def rule : Mode → UInt8 → Option (List Token × Mode)
  | .between, b =>
    if isBlank b then some ([], .between)
    else if b = kQuote then some ([], .quoted [])
    else if isOrdinary b then some ([], .word [(b, false)])
    else none
  | .word w, b =>
    if isBlank b then some ([.word w], .between)
    else if b = kQuote then some ([], .quoted w)
    else if b = kBackslash then some ([], .escaped w)
    else if isOrdinary b then some ([], .word (w ++ [(b, false)]))
    else none
  | .quoted w, b =>
    if b = kQuote then some ([], .word w)
    else if b = 0 then none
    else some ([], .quoted (w ++ [(b, true)]))
  | .escaped w, b =>
    if b = kNewline || b = 0 then none
    else some ([], .word (w ++ [(b, true)]))

/-- The token that the end of the line ends, where it may end there. -/
def ending : Mode → Option (List Token)
  | .between => some []
  | .word w => some [.word w]
  | .quoted _ => none
  | .escaped _ => none

/-- What some bytes do one after the other. -/
def scan : Mode → List UInt8 → Option (List Token × Mode)
  | m, [] => some ([], m)
  | m, b :: bytes => match rule m b with
    | none => none
    | some (ts, m') => (scan m' bytes).map fun (ts', m'') => (ts ++ ts', m'')

/-- Bytes that end no token lead to where the others go on. -/
theorem scan_append {m m' : Mode} {bytes : List UInt8} (h : scan m bytes = some ([], m')) (more : List UInt8) :
    scan m (bytes ++ more) = scan m' more := by
  induction bytes generalizing m with
  | nil =>
    cases h
    rfl
  | cons b bytes ih =>
    rw [scan] at h
    rw [List.cons_append, scan]
    cases hrule : rule m b with
    | none =>
      rw [hrule] at h
      cases h
    | some next =>
      obtain ⟨ts₁, m₁⟩ := next
      rw [hrule] at h
      obtain ⟨⟨ts₂, m₂⟩, hrest, heq⟩ := Option.map_eq_some_iff.mp h
      obtain ⟨hnil, rfl⟩ := Prod.mk.inj heq
      obtain ⟨rfl, rfl⟩ := List.append_eq_nil_iff.mp hnil
      dsimp only
      rw [ih hrest]
      simp

/-- A lexer that follows the rules of quoting. -/
structure Lexer where
  State : Type
  start : State
  step : State → UInt8 → State
  /-- The tokens of a line that ends here, if it may. -/
  tokens : State → Option (List Token)
  /-- The tokens so far and the place, where it is one that the rules speak of. -/
  view : State → Option (List Token × Mode)
  view_start : view start = some ([], .between)
  view_step : ∀ {s ts m b new m'}, view s = some (ts, m) → rule m b = some (new, m') →
    view (step s b) = some (ts ++ new, m')
  tokens_end : ∀ {s ts m new}, view s = some (ts, m) → ending m = some new → tokens s = some (ts ++ new)
  /-- Between two words a line goes on like one that begins there. -/
  resume : ∀ {s ts}, view s = some (ts, .between) → ∀ bytes : List UInt8,
    tokens (bytes.foldl step s) = (tokens (bytes.foldl step start)).map (ts ++ ·)

namespace Lexer

variable (L : Lexer)

/-- The state after some bytes. -/
def run (s : L.State) (bytes : List UInt8) : L.State := bytes.foldl L.step s

/-- The tokens of a whole line. -/
def lex (line : List UInt8) : Option (List Token) := L.tokens (L.run L.start line)

/-- The bytes lead to a place between words, as those do that end in a blank that is not quoted, and
the tokens are those of the bytes. -/
def EndsBetween (bytes : List UInt8) (ts : List Token) : Prop :=
  L.view (L.run L.start bytes) = some (ts, .between)

theorem run_append (s : L.State) (bytes more : List UInt8) :
    L.run s (bytes ++ more) = L.run (L.run s bytes) more := List.foldl_append

/-- The lexer does what the rules say. -/
theorem view_run {s : L.State} {ts new : List Token} {m m' : Mode} {bytes : List UInt8}
    (h : L.view s = some (ts, m)) (hscan : scan m bytes = some (new, m')) :
    L.view (L.run s bytes) = some (ts ++ new, m') := by
  induction bytes generalizing s ts new m with
  | nil =>
    cases hscan
    rwa [List.append_nil]
  | cons b bytes ih =>
    rw [scan] at hscan
    cases hrule : rule m b with
    | none =>
      rw [hrule] at hscan
      cases hscan
    | some next =>
      obtain ⟨ts₁, m₁⟩ := next
      rw [hrule] at hscan
      obtain ⟨⟨ts₂, m₂⟩, hrest, heq⟩ := Option.map_eq_some_iff.mp hscan
      cases heq
      have hstep := ih (L.view_step h hrule) hrest
      rwa [List.append_assoc] at hstep

theorem endsBetween_lex {bytes : List UInt8} {ts : List Token} (h : L.EndsBetween bytes ts) :
    L.lex bytes = some ts := by
  have htokens := L.tokens_end h rfl
  rwa [List.append_nil] at htokens

theorem endsBetween_of_scan {bytes : List UInt8} {ts : List Token}
    (h : scan .between bytes = some (ts, .between)) : L.EndsBetween bytes ts :=
  L.view_run L.view_start h

theorem lex_of_scan {line : List UInt8} {t new : List Token} {m : Mode}
    (h : scan .between line = some (t, m)) (hend : ending m = some new) : L.lex line = some (t ++ new) :=
  L.tokens_end (L.view_run L.view_start h) hend

theorem lex_nil : L.lex [] = some [] := L.endsBetween_lex L.view_start

/-- A word between the words of `front` and of `rest`, when it ends with the line or with a blank. -/
theorem lex_word {front bytes rest : List UInt8} {ts : List Token} {w : Word}
    (hfront : L.EndsBetween front ts) (hscan : scan .between bytes = some ([], .word w))
    (hrest : rest = [] ∨ ∃ b more, rest = b :: more ∧ isBlank b = true) :
    L.lex (front ++ bytes ++ rest) = (L.lex rest).map fun more => ts ++ .word w :: more := by
  have hword : L.view (L.run L.start (front ++ bytes)) = some (ts, .word w) := by
    rw [run_append]
    simpa using L.view_run hfront hscan
  rw [lex, run_append]
  rcases hrest with rfl | ⟨b, more, rfl, hblank⟩
  · rw [lex_nil]
    exact L.tokens_end hword rfl
  · have hrule : rule (.word w) b = some ([.word w], .between) := by
      rw [rule, if_pos hblank]
    have hstart : rule .between b = some ([], .between) := by
      rw [rule, if_pos hblank]
    have hleft := L.resume (L.view_step hword hrule) more
    have hright := L.resume (L.view_step L.view_start hstart) more
    have hline : L.tokens (L.run (L.run L.start (front ++ bytes)) (b :: more)) =
        (L.tokens (more.foldl L.step L.start)).map (ts ++ [.word w] ++ ·) := hleft
    have halone : L.lex (b :: more) = L.tokens (more.foldl L.step L.start) := by
      refine hright.trans ?_
      simp
    rw [hline, halone]
    simp

end Lexer

/-! ### A lexer -/

namespace Posix

/-- The places of this lexer: those of the rules, in double quotes, behind a backslash that no word is
in front of, and in a comment. -/
inductive Place
  | simple (m : Mode)
  | double (w : Word)
  | doubleEscaped (w : Word)
  | opening
  | comment
  deriving DecidableEq, Repr

/-- The bytes that separate commands, redirect them or group them. -/
def isOperator (b : UInt8) : Bool :=
  b = kNewline || b = 0x3B || b = 0x26 || b = 0x7C || b = 0x3C || b = 0x3E || b = 0x28 || b = 0x29

def kDouble : UInt8 := 0x22

/-- The bytes that are special between double quotes: the dollar and the backquote are expanded there. -/
def isExpanded (b : UInt8) : Bool := b = 0x24 || b = 0x60

/-- One byte between words. -/
def beginWord (b : UInt8) : List Token × Place :=
  if isBlank b then ([], .simple .between)
  else if b = kQuote then ([], .simple (.quoted []))
  else if b = kDouble then ([], .double [])
  else if b = kBackslash then ([], .opening)
  else if b = 0x23 then ([], .comment)
  else if isOperator b then ([.operator b], .simple .between)
  else ([], .simple (.word [(b, false)]))

/-- One byte in a word. -/
def continueWord (w : Word) (b : UInt8) : List Token × Place :=
  if isBlank b then ([.word w], .simple .between)
  else if b = kQuote then ([], .simple (.quoted w))
  else if b = kDouble then ([], .double w)
  else if b = kBackslash then ([], .simple (.escaped w))
  else if isOperator b then ([.word w, .operator b], .simple .between)
  else ([], .simple (.word (w ++ [(b, false)])))

def advance : Place → UInt8 → List Token × Place
  | .simple .between, b => beginWord b
  | .simple (.word w), b => continueWord w b
  | .simple (.quoted w), b =>
    if b = kQuote then ([], .simple (.word w)) else ([], .simple (.quoted (w ++ [(b, true)])))
  | .simple (.escaped w), b =>
    -- A backslash in front of a newline joins two lines.
    if b = kNewline then ([], .simple (.word w)) else ([], .simple (.word (w ++ [(b, true)])))
  | .double w, b =>
    if b = kDouble then ([], .simple (.word w))
    else if b = kBackslash then ([], .doubleEscaped w)
    else ([], .double (w ++ [(b, !isExpanded b)]))
  | .doubleEscaped w, b =>
    if b = kNewline then ([], .double w)
    else if isExpanded b || b = kDouble || b = kBackslash then ([], .double (w ++ [(b, true)]))
    else ([], .double (w ++ [(kBackslash, true), (b, true)]))
  | .opening, b => if b = kNewline then ([], .simple .between) else ([], .simple (.word [(b, true)]))
  | .comment, b => if b = kNewline then ([.operator b], .simple .between) else ([], .comment)

/-- The tokens so far, and the place. -/
def step (s : List Token × Place) (b : UInt8) : List Token × Place := (s.1 ++ (advance s.2 b).1, (advance s.2 b).2)

/-- A line may end at a place outside quotes and not behind a backslash. -/
def tokens : List Token × Place → Option (List Token)
  | (ts, .simple m) => (ending m).map (ts ++ ·)
  | (ts, .comment) => some ts
  | _ => none

def view : List Token × Place → Option (List Token × Mode)
  | (ts, .simple m) => some (ts, m)
  | _ => none

/-- A byte without a meaning is none of the special ones. -/
theorem ordinary_ne {b c : UInt8} (h : isOrdinary b = true) (hc : isOrdinary c = false) : b ≠ c := by
  rintro rfl
  simp [h] at hc

theorem isOperator_ordinary {b : UInt8} (h : isOrdinary b = true) : isOperator b = false := by
  simp [isOperator, ordinary_ne h (c := kNewline) (by decide), ordinary_ne h (c := 0x3B) (by decide),
    ordinary_ne h (c := 0x26) (by decide), ordinary_ne h (c := 0x7C) (by decide),
    ordinary_ne h (c := 0x3C) (by decide), ordinary_ne h (c := 0x3E) (by decide),
    ordinary_ne h (c := 0x28) (by decide), ordinary_ne h (c := 0x29) (by decide)]

theorem beginWord_ordinary {b : UInt8} (h : isOrdinary b = true) (hblank : ¬ isBlank b = true) :
    beginWord b = ([], .simple (.word [(b, false)])) := by
  simp [beginWord, hblank, ordinary_ne h (c := kQuote) (by decide), ordinary_ne h (c := kDouble) (by decide),
    ordinary_ne h (c := kBackslash) (by decide), ordinary_ne h (c := 0x23) (by decide), isOperator_ordinary h]

theorem continueWord_ordinary {w : Word} {b : UInt8} (h : isOrdinary b = true) (hblank : ¬ isBlank b = true) :
    continueWord w b = ([], .simple (.word (w ++ [(b, false)]))) := by
  simp [continueWord, hblank, ordinary_ne h (c := kQuote) (by decide),
    ordinary_ne h (c := kDouble) (by decide), ordinary_ne h (c := kBackslash) (by decide), isOperator_ordinary h]

theorem beginWord_rule {m' : Mode} {b : UInt8} {new : List Token} (h : rule .between b = some (new, m')) :
    beginWord b = (new, .simple m') := by
  rw [rule] at h
  split at h
  next hblank =>
    cases h
    rw [beginWord, if_pos hblank]
  next hblank =>
    split at h
    next hquote =>
      cases h
      rw [beginWord, if_neg hblank, if_pos hquote]
    next =>
      split at h
      next hordinary =>
        cases h
        exact beginWord_ordinary hordinary hblank
      next => cases h

theorem continueWord_rule {w : Word} {m' : Mode} {b : UInt8} {new : List Token}
    (h : rule (.word w) b = some (new, m')) : continueWord w b = (new, .simple m') := by
  rw [rule] at h
  split at h
  next hblank =>
    cases h
    rw [continueWord, if_pos hblank]
  next hblank =>
    split at h
    next hquote =>
      cases h
      rw [continueWord, if_neg hblank, if_pos hquote]
    next hquote =>
      split at h
      next hbackslash =>
        cases h
        have hdouble : b ≠ kDouble := by
          rw [hbackslash]
          decide
        rw [continueWord, if_neg hblank, if_neg hquote, if_neg hdouble, if_pos hbackslash]
      next =>
        split at h
        next hordinary =>
          cases h
          exact continueWord_ordinary hordinary hblank
        next => cases h

/-- Where the rules say what a byte does, this lexer does it. -/
theorem advance_rule {m m' : Mode} {b : UInt8} {new : List Token} (h : rule m b = some (new, m')) :
    advance (.simple m) b = (new, .simple m') := by
  cases m with
  | between => exact beginWord_rule h
  | word w => exact continueWord_rule h
  | quoted w =>
    rw [rule] at h
    rw [advance]
    split at h
    next hquote =>
      cases h
      rw [if_pos hquote]
    next hquote =>
      split at h
      next => cases h
      next =>
        cases h
        rw [if_neg hquote]
  | escaped w =>
    rw [rule] at h
    rw [advance]
    split at h
    next => cases h
    next hplain =>
      cases h
      have hnewline : b ≠ kNewline := fun heq => hplain (by simp [heq])
      rw [if_neg hnewline]

/-- Tokens that are already there stay in front. -/
theorem foldl_step (ts : List Token) (place : Place) (bytes : List UInt8) :
    bytes.foldl step (ts, place) =
      (ts ++ (bytes.foldl step ([], place)).1, (bytes.foldl step ([], place)).2) := by
  induction bytes using List.reverseRecOn with
  | nil => simp
  | append_singleton bytes b ih => simp only [List.foldl_append, List.foldl_cons, List.foldl_nil, ih, step, List.append_assoc]

theorem tokens_append (ts more : List Token) (place : Place) :
    tokens (ts ++ more, place) = (tokens (more, place)).map (ts ++ ·) := by
  cases place with
  | simple m =>
    rw [tokens, tokens, Option.map_map]
    congr 1
    funext new
    exact List.append_assoc ts more new
  | comment => rfl
  | double w => rfl
  | doubleEscaped w => rfl
  | opening => rfl

theorem view_eq_some {s : List Token × Place} {ts : List Token} {m : Mode} (h : view s = some (ts, m)) :
    s = (ts, .simple m) := by
  obtain ⟨ts₀, place⟩ := s
  cases place with
  | simple m₀ =>
    cases h
    rfl
  | comment => cases h
  | double w => cases h
  | doubleEscaped w => cases h
  | opening => cases h

theorem view_advance {s : List Token × Place} {ts new : List Token} {m m' : Mode} {b : UInt8}
    (h : view s = some (ts, m)) (hrule : rule m b = some (new, m')) :
    view (step s b) = some (ts ++ new, m') := by
  rw [view_eq_some h, step, advance_rule hrule]
  rfl

theorem tokens_ending {s : List Token × Place} {ts new : List Token} {m : Mode}
    (h : view s = some (ts, m)) (hend : ending m = some new) : tokens s = some (ts ++ new) := by
  rw [view_eq_some h, tokens, hend, Option.map_some]

theorem tokens_resume {s : List Token × Place} {ts : List Token} (h : view s = some (ts, .between))
    (bytes : List UInt8) : tokens (bytes.foldl step s) =
      (tokens (bytes.foldl step ([], .simple .between))).map (ts ++ ·) := by
  rw [view_eq_some h, foldl_step, tokens_append]

/-- The lexer of a shell without substitutions: what they would expand is a part of the word around them. -/
def lexer : Lexer where
  State := List Token × Place
  start := ([], .simple .between)
  step := step
  tokens := tokens
  view := view
  view_start := rfl
  view_step := view_advance
  tokens_end := tokens_ending
  resume := tokens_resume

end Posix

end ShellWords
