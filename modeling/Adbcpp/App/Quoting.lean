import Adbcpp.App
import Adbcpp.Library.ShellWords

/-! What a shell makes of the names that are quoted for it. A quoted name is one word with
nothing in it that the shell would look at, and the commands around it keep their
own words. It does not matter which shell runs them, as long as it follows the rules
of quoting. -/

namespace Adbcpp

open Protocol ShellWords

namespace App

/-- What stands for one character of a name. -/
def quoteCharacter (character : Byte) : List Byte :=
  if character = 0x27 then bytesOf "'\\''" else [character]

theorem shellQuote_eq (text : List Byte) :
    shellQuote text = kQuote :: (text.flatMap quoteCharacter ++ [kQuote]) := rfl

/-- One character is one more byte of the word, and the line is back inside the quotes. -/
theorem scan_quoteCharacter (w : Word) {character : Byte} (h : character ≠ 0) :
    scan (.quoted w) (quoteCharacter character) = some ([], .quoted (w ++ [(character, true)])) := by
  rw [quoteCharacter]
  split
  next hquote =>
    -- The quotes are closed, a quote is escaped, and they are opened again.
    rw [hquote]
    rfl
  next hquote =>
    have hplain : character ≠ kQuote := hquote
    have hrule : rule (.quoted w) character = some ([], .quoted (w ++ [(character, true)])) := by
      rw [rule, if_neg hplain, if_neg h]
    rw [scan, hrule]
    rfl

theorem scan_characters (w : Word) {text : List Byte} (h : 0 ∉ text) :
    scan (.quoted w) (text.flatMap quoteCharacter) = some ([], .quoted (w ++ literal text)) := by
  induction text generalizing w with
  | nil =>
    rw [literal, List.map_nil, List.append_nil]
    rfl
  | cons character text ih =>
    have hcharacter : character ≠ 0 := fun heq => h (heq ▸ List.mem_cons_self)
    have htext : 0 ∉ text := fun hmem => h (List.mem_cons_of_mem character hmem)
    rw [List.flatMap_cons, scan_append (scan_quoteCharacter w hcharacter), ih _ htext, List.append_assoc]
    rfl

/-- A quoted name is one word, all of it quoted. -/
theorem scan_shellQuote {text : List Byte} (h : 0 ∉ text) :
    scan .between (shellQuote text) = some ([], .word (literal text)) := by
  have hopen : scan .between [kQuote] = some ([], .quoted []) := rfl
  rw [shellQuote_eq, ← List.singleton_append, scan_append hopen, scan_append (scan_characters [] h)]
  rfl

/-- The tokens of a command without quotes. -/
def plainWords (words : List String) : List Token := words.map fun word => .word (plain (bytesOf word))

/-- What a lexer makes of a quoted name, and of the commands that it stands in. -/
structure Quoted (L : Lexer) (text : List Byte) : Prop where
  alone : L.lex (shellQuote text) = some [.word (literal text)]
  /-- Behind any bytes that end between words, and in front of nothing or of a blank. -/
  embedded : ∀ {front rest : List Byte} {ts : List Token}, L.EndsBetween front ts →
    (rest = [] ∨ ∃ b more, rest = b :: more ∧ isBlank b = true) →
    L.lex (front ++ shellQuote text ++ rest) = (L.lex rest).map fun more => ts ++ .word (literal text) :: more
  removes : L.lex (removeCommand text) = some (plainWords ["rm", "-f"] ++ [.word (literal text)])
  uninstalls : ∀ keepData, L.lex (uninstallCommand text keepData) =
    some (plainWords (["pm", "uninstall"] ++ if keepData then ["-k"] else []) ++ [.word (literal text)])
  launches : L.lex (launchCommand text) = some (plainWords ["monkey", "-p"] ++ [.word (literal text)] ++
    plainWords ["-c", "android.intent.category.LAUNCHER", "1"])
  closes : L.lex (closeCommand text) = some (plainWords ["am", "force-stop"] ++ [.word (literal text)])
  asks : L.lex (isRunningCommand text) = some (plainWords ["pidof"] ++ [.word (literal text)])
  /-- The options come as they are in front of the name. -/
  installs : ∀ {options : List Byte} {ts : List Token},
    L.EndsBetween (bytesOf "pm install" ++ (if options = [] then [] else bytesOf " " ++ options) ++ bytesOf " ") ts →
    L.lex (installCommand options text) = some (ts ++ [.word (literal text)])

/-- A name behind a command of plain words is its last word. -/
theorem lex_last (L : Lexer) {front text : List Byte} {ts : List Token} (h : 0 ∉ text)
    (hfront : L.EndsBetween front ts) : L.lex (front ++ shellQuote text) = some (ts ++ [.word (literal text)]) := by
  have hline := @Lexer.lex_word L front (shellQuote text) [] ts _ hfront (scan_shellQuote h) (.inl rfl)
  rwa [List.append_nil, L.lex_nil] at hline

/-- A shell takes a quoted name for one word, in any of the commands. -/
theorem shellQuote_quoted (L : Lexer) {text : List Byte} (h : 0 ∉ text) : Quoted L text := by
  constructor
  · exact L.lex_of_scan (scan_shellQuote h) rfl
  · intro front rest ts hfront hrest
    exact L.lex_word hfront (scan_shellQuote h) hrest
  · exact lex_last L h (L.endsBetween_of_scan rfl)
  · intro keepData
    cases keepData with
    | true => exact lex_last L h (L.endsBetween_of_scan rfl)
    | false => exact lex_last L h (L.endsBetween_of_scan rfl)
  · have hrest : L.lex (bytesOf " -c android.intent.category.LAUNCHER 1") =
        some (plainWords ["-c", "android.intent.category.LAUNCHER", "1"]) :=
      L.lex_of_scan (t := plainWords ["-c", "android.intent.category.LAUNCHER"]) rfl rfl
    have hfront : L.EndsBetween (bytesOf "monkey -p ") (plainWords ["monkey", "-p"]) := L.endsBetween_of_scan rfl
    have hblank : ∃ b more, bytesOf " -c android.intent.category.LAUNCHER 1" = b :: more ∧ isBlank b = true :=
      ⟨kSpace, bytesOf "-c android.intent.category.LAUNCHER 1", rfl, rfl⟩
    have hline := L.lex_word hfront (scan_shellQuote h) (.inr hblank)
    rw [launchCommand, hline, hrest]
    simp
  · exact lex_last L h (L.endsBetween_of_scan rfl)
  · exact lex_last L h (L.endsBetween_of_scan rfl)
  · intro options ts hfront
    exact lex_last L h hfront

/-- A name with quotes at both ends, and with what would be a second command without the quotes. -/
theorem shellQuote_quoted_name : Quoted Posix.lexer (bytesOf "'it's'; rm -rf $HOME\n'") :=
  shellQuote_quoted Posix.lexer (by decide)

end App

end Adbcpp
