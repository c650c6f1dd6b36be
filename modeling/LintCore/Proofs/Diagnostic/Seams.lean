import LintCore.Proofs.Diagnostic.Escapes

/-!
# Templates behind each other

A brace is read with what stands up to the nearest closing brace, so text that is put behind a
template can turn a brace of it into a hole. It cannot if the template closes, that is, if a closing
brace comes after each opening brace, doubled or not, well formed or not (`Template.Closes`). Then
the lexemes of the two texts together are those of the first and those of the second
(`Template.Lexed.append`): none of them has a part on either side of the seam, and which there are
on one side does not depend on the other. `format_append` says so, and with it that the two texts
are formatted as if each stood alone.
-/

set_option autoImplicit false
set_option relaxedAutoImplicit false

namespace LintCore

namespace Template

/-- Somewhere behind each opening brace of the text there is a closing one. -/
def Closes (text : List Char) : Prop :=
  ∀ front rest, text = front ++ '\x7b' :: rest → '\x7d' ∈ rest

theorem closes_nil : Closes [] := fun front _ htext ↦
  absurd htext.symm (List.append_ne_nil_of_right_ne_nil front (List.cons_ne_nil _ _))

theorem closes_cons {c : Char} {text : List Char} :
    Closes (c :: text) ↔ (c = '\x7b' → '\x7d' ∈ text) ∧ Closes text := by
  constructor
  · intro h
    refine ⟨fun hc ↦ h [] text (congrArg (· :: text) hc), fun front rest htext ↦ ?_⟩
    exact h (c :: front) rest (congrArg (c :: ·) htext)
  · rintro ⟨hhead, htail⟩ front rest htext
    cases front with
    | nil =>
      obtain ⟨hc, rfl⟩ := List.cons.inj htext
      exact hhead hc
    | cons _ front => exact htail front rest (List.cons.inj htext).2

instance decidableCloses : DecidablePred Closes
  | [] => isTrue closes_nil
  | _ :: text =>
    have := decidableCloses text
    decidable_of_iff _ closes_cons.symm

theorem Closes.right {first second : List Char} (h : Closes (first ++ second)) : Closes second :=
  fun front rest htext ↦ h (first ++ front) rest (by rw [htext, List.append_assoc])

/-- What is put behind a template that closes changes none of its lexemes. -/
theorem Lexed.append {first second : List Char} {before after : List Lexeme}
    (hbefore : Lexed first before) (hcloses : Closes first) (hafter : Lexed second after) :
    Lexed (first ++ second) (before ++ after) := by
  induction hbefore with
  | nil => exact hafter
  | plain hc _ ih => exact .plain hc (ih (closes_cons.mp hcloses).2)
  | doubled _ ih => exact .doubled (ih (closes_cons.mp (closes_cons.mp hcloses).2).2)
  | @hole body rest _ _ _ hclose hbody _ ih =>
    have htext : '\x7b' :: (body ++ '\x7d' :: rest) = '\x7b' :: body ++ ['\x7d'] ++ rest := by simp
    rw [htext] at hcloses
    rw [List.cons_append, List.append_assoc]
    exact .hole hclose hbody (ih hcloses.right)
  | @brace rest _ hhead hnone _ ih =>
    obtain ⟨hmem, hrest⟩ := closes_cons.mp hcloses
    -- The nearest closing brace is on this side of the seam, so it is still the nearest one.
    obtain ⟨inner, outer, rfl, hinner⟩ := List.eq_append_cons_of_mem (hmem rfl)
    rw [List.cons_append, List.cons_append]
    refine .brace ?_ (fun body later index style htext hclose ↦ ?_) (ih hrest)
    · have hne : inner ++ '\x7d' :: outer ≠ [] :=
        List.append_ne_nil_of_right_ne_nil inner (List.cons_ne_nil _ _)
      rwa [List.head?_append_of_ne_nil _ hne]
    · rw [List.append_assoc] at htext
      obtain ⟨rfl, -⟩ := append_close_inj hinner hclose htext
      exact hnone inner outer index style rfl hclose

end Template

namespace Message

open Template

/-- If a template closes, then another one behind it is read as if it stood alone, and so is the
first: the lexemes of both together are lexemes of the first and then lexemes of the second, with no
other way to read them, and they are formatted as the first and then the second is, whatever the
arguments are. -/
theorem format_append (first second : String) (hcloses : Closes first.toList) :
    (∀ lexemes, Lexed (first ++ second).toList lexemes ↔
      ∃ before after, Lexed first.toList before ∧ Lexed second.toList after ∧
        lexemes = before ++ after) ∧
    ∀ source arguments, format source ⟨first ++ second, arguments⟩ =
      format source ⟨first, arguments⟩ ++ format source ⟨second, arguments⟩ := by
  obtain ⟨before, hbefore, hfirst⟩ := exists_lexed_tokenizeFrom 0 first.toList
  obtain ⟨after, hafter, hsecond⟩ := exists_lexed_tokenizeFrom 0 second.toList
  rw [List.drop_zero] at hbefore hafter
  have hboth := hbefore.append hcloses hafter
  rw [String.toList_append]
  refine ⟨fun lexemes ↦ ⟨fun hlexed ↦ ?_, ?_⟩, fun source arguments ↦ ?_⟩
  · exact ⟨before, after, hbefore, hafter, hlexed.unique hboth⟩
  · rintro ⟨before, after, hbefore, hafter, rfl⟩
    exact hbefore.append hcloses hafter
  · have htokens : tokenize (first ++ second) = tokenize first ++ tokenize second := by
      rw [tokenize, tokenize, tokenize, String.toList_append, hboth.tokenizeFrom_eq,
        List.map_append, hfirst, hsecond]
    simp only [format, htokens, List.flatMap_append, String.ofList_append]

/-- A brace that opens nothing, a doubled one, a hole, and a brace that closes nothing. -/
def crowded : String := "\x7bx \x7b\x7b\x7b1\x7d\x7d"

/-- What looks like the end of a hole, and a hole. -/
def cutOff : String := "1\x7d \x7b0:singular\x7d"

/-- The first brace still opens nothing when the cut-off hole stands behind it. -/
theorem crowded_format_append :
    Closes crowded.toList ∧
      format (.ofContent "app.js" "")
          ⟨crowded ++ cutOff, [.statementKind .ifStatement, .char '(']⟩ =
        "\x7bx \x7b(\x7d" ++ "1\x7d an 'if' statement" := by
  have hcloses : Closes crowded.toList := by decide
  refine ⟨hcloses, ((format_append crowded cutOff hcloses).2 _ _).trans ?_⟩
  decide +kernel

/-- A brace with no closing one behind it opens a hole if the text that is put there ends one. -/
example : format (.ofContent "app.js" "") ⟨"\x7b" ++ "0\x7d", [.char '(']⟩ = "(" := by
  decide +kernel

end Message

end LintCore
