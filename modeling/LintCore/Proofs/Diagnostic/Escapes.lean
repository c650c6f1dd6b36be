import LintCore.Proofs.Diagnostic.Grammar

/-!
# Texts as templates

A text in which each opening brace is doubled is a template for that text (`Template.escape`). It
consists of one lexeme for each character of the text, whatever template follows it
(`Template.Lexed.verbatim`), so no brace of the text opens a hole, and none of them takes part in a
hole of what follows. `format_escape` says this for formatted messages. Closing braces need no
escape: outside a hole they stand for themselves.
-/

set_option autoImplicit false
set_option relaxedAutoImplicit false

namespace LintCore

namespace Template

/-- How a character is written in a template if it is to stand for itself. -/
def escapeChar (c : Char) : List Char := if c = '\x7b' then ['\x7b', '\x7b'] else [c]

/-- The text with each opening brace doubled. -/
def escape (text : String) : String := String.ofList (text.toList.flatMap escapeChar)

example : escape "\x7b0\x7d \x7b" = "\x7b\x7b0\x7d \x7b\x7b" := by decide

/-- The lexeme that a character is written as. -/
def Lexeme.verbatim (c : Char) : Lexeme := if c = '\x7b' then .doubled else .plain c

theorem Lexeme.piece_verbatim (c : Char) : (verbatim c).piece = .literal c := by
  unfold verbatim
  split_ifs with hbrace
  · rw [hbrace]
    rfl
  · rfl

/-- What is escaped is read character by character, and then the rest as if it stood alone. -/
theorem Lexed.verbatim {rest : List Char} {lexemes : List Lexeme} (h : Lexed rest lexemes)
    (text : List Char) :
    Lexed (text.flatMap escapeChar ++ rest) (text.map Lexeme.verbatim ++ lexemes) := by
  induction text with
  | nil => exact h
  | cons c text ih =>
    rw [List.flatMap_cons, List.append_assoc, List.map_cons, List.cons_append, escapeChar,
      Lexeme.verbatim]
    split_ifs with hbrace
    · exact .doubled ih
    · exact .plain hbrace ih

theorem Lexed.tokenizeFrom_eq {text : List Char} {lexemes : List Lexeme} (h : Lexed text lexemes) :
    tokenizeFrom 0 text = lexemes.map Lexeme.piece := by
  obtain ⟨others, hothers, hpieces⟩ := exists_lexed_tokenizeFrom 0 text
  rw [← hpieces, h.unique hothers]

theorem tokenize_escape_append (text template : String) :
    tokenize (escape text ++ template) = text.toList.map .literal ++ tokenize template := by
  obtain ⟨lexemes, hlexed, hpieces⟩ := exists_lexed_tokenizeFrom 0 template.toList
  have hread := (hlexed.verbatim text.toList).tokenizeFrom_eq
  rw [List.drop_zero, List.map_append, List.map_map, hpieces] at hread
  rw [tokenize, escape, String.toList_append, String.toList_ofList, hread]
  exact congrArg (· ++ _) (List.map_congr_left fun c _ ↦ Lexeme.piece_verbatim c)

end Template

namespace Message

open Template

/-- Any text, with each opening brace in it doubled, is a template for itself: it is formatted as
the text, whatever the arguments are. In front of another template too it adds this text and changes
nothing in what that template is formatted as. -/
theorem format_escape (text : String) (source : Source) (arguments : List Argument) :
    format source ⟨escape text, arguments⟩ = text ∧
      ∀ template, format source ⟨escape text ++ template, arguments⟩ =
        text ++ format source ⟨template, arguments⟩ := by
  have hliteral (c : Char) : fill source arguments (.literal c) = [c] := rfl
  have hbefore (template : String) : format source ⟨escape text ++ template, arguments⟩ =
      text ++ format source ⟨template, arguments⟩ := by
    simp only [format, tokenize_escape_append, List.flatMap_append, List.flatMap_map, hliteral,
      List.flatMap_singleton', String.ofList_append, String.ofList_toList]
  have hempty : format source ⟨"", arguments⟩ = "" := rfl
  refine ⟨?_, hbefore⟩
  have halone := hbefore ""
  rw [hempty, String.append_empty, String.append_empty] at halone
  exact halone

end Message

end LintCore
