import LintCore.Proofs.Diagnostic.Templates

/-!
# The grammar of templates

A template is a sequence of lexemes: doubled braces, holes and plain characters. A brace that is
neither doubled nor opens a hole is a plain character too, and reading goes on right behind it
(`Template.Lexed`). Every text is such a sequence, and of one sequence only
(`Template.exists_lexed_tokenizeFrom`, `Template.Lexed.unique`). A template is cut between lexemes
and beside braces, which are characters of one byte, so no cut falls inside a character
(`Template.Lexed.boundary_of_cut`). What a lexeme stands for in a message is said for each sort of
lexeme and of argument (`Message.Denotes`). `format_denotes_lexemes` puts all this together: a
formatted message is what the lexemes of its template stand for, one behind the other. The lexemes
depend on the template alone, so a brace in the text of an argument opens no hole.
-/

set_option autoImplicit false
set_option relaxedAutoImplicit false

namespace LintCore

namespace Template

/-! ### Lexemes -/

/-- What a template consists of. A hole remembers the text between its braces. -/
inductive Lexeme where
  | plain (c : Char)
  | doubled
  | hole (body : List Char) (index : Nat) (style : Style)
deriving DecidableEq

namespace Lexeme

/-- The characters of the template that the lexeme takes. -/
def written : Lexeme → List Char
  | .plain c => [c]
  | .doubled => ['\x7b', '\x7b']
  | .hole body _ _ => '\x7b' :: body ++ ['\x7d']

/-- What reading a template makes of the lexeme. -/
def piece : Lexeme → Piece
  | .plain c => .literal c
  | .doubled => .literal '\x7b'
  | .hole body index style => .hole index style ('\x7b' :: body ++ ['\x7d'])

end Lexeme

/-- How the text behind the index of a hole asks for a style. -/
inductive Asks : List Char → Style → Prop
  | plain : Asks [] .plain
  | headlinese : Asks ":headlinese".toList .headlinese
  | singular : Asks ":singular".toList .singular

/-- The text between two braces is an index of at least one digit, which may have a plus sign and
lies below `2 ^ 64`, and possibly asks for a style. -/
inductive HoleBody : List Char → Nat → Style → Prop
  | mk {sign digits suffix : List Char} {style : Style} :
    sign = [] ∨ sign = ['+'] → digits ≠ [] → (∀ c ∈ digits, c.isDigit = true) →
      Nat.ofDigitChars 10 digits 0 < UInt64.size → Asks suffix style →
      HoleBody (sign ++ digits ++ suffix) (Nat.ofDigitChars 10 digits 0) style

/-- The text consists of the lexemes. -/
inductive Lexed : List Char → List Lexeme → Prop
  | nil : Lexed [] []
  | plain {c : Char} {rest : List Char} {lexemes : List Lexeme} :
    c ≠ '\x7b' → Lexed rest lexemes → Lexed (c :: rest) (.plain c :: lexemes)
  | doubled {rest : List Char} {lexemes : List Lexeme} :
    Lexed rest lexemes → Lexed ('\x7b' :: '\x7b' :: rest) (.doubled :: lexemes)
  | hole {body rest : List Char} {index : Nat} {style : Style} {lexemes : List Lexeme} :
    '\x7d' ∉ body → HoleBody body index style → Lexed rest lexemes →
      Lexed ('\x7b' :: (body ++ '\x7d' :: rest)) (.hole body index style :: lexemes)
  | brace {rest : List Char} {lexemes : List Lexeme} :
    rest.head? ≠ some '\x7b' →
      (∀ body after index style, rest = body ++ '\x7d' :: after → '\x7d' ∉ body →
        ¬ HoleBody body index style) →
      Lexed rest lexemes → Lexed ('\x7b' :: rest) (.plain '\x7b' :: lexemes)

/-! ### The text of a hole -/

theorem ofDigitChars_eq_natOf (digits : List Char) :
    Nat.ofDigitChars 10 digits 0 = Text.natOf digits := by
  simp only [Nat.ofDigitChars, Text.natOf, Text.digitValue, Nat.mul_comm]

theorem number?_eq_some_iff {digits : List Char} {number : Nat} :
    number? digits = some number ↔
      digits ≠ [] ∧ (∀ c ∈ digits, c.isDigit = true) ∧
        Nat.ofDigitChars 10 digits 0 < UInt64.size ∧ Nat.ofDigitChars 10 digits 0 = number := by
  have hguard : ¬ (digits.isEmpty || !digits.all Char.isDigit) = true ↔
      digits ≠ [] ∧ ∀ c ∈ digits, c.isDigit = true := by
    simp
  rw [number?, ofDigitChars_eq_natOf, Option.ite_none_left_eq_some, hguard,
    Option.ite_none_right_eq_some, Option.some.injEq, and_assoc]

theorem index?_eq_some_iff {word : List Char} {index : Nat} :
    index? word = some index ↔
      ∃ sign digits, word = sign ++ digits ∧ (sign = [] ∨ sign = ['+']) ∧
        number? digits = some index := by
  constructor
  · intro h
    fun_cases index? word with
    | case1 digits => exact ⟨['+'], digits, rfl, .inr rfl, h⟩
    | case2 _ hunsigned =>
      rw [index?.eq_2 word hunsigned] at h
      exact ⟨[], word, rfl, .inl rfl, h⟩
  · rintro ⟨sign, digits, rfl, rfl | rfl, hnumber⟩
    · -- A sign is no digit, so none has been taken for one.
      rw [List.nil_append, index?]
      · exact hnumber
      · rintro rest rfl
        exact absurd ((number?_eq_some_iff.mp hnumber).2.1 '+' List.mem_cons_self) (by decide)
    · exact hnumber

theorem style?_eq_some_iff {suffix : List Char} {style : Style} :
    style? suffix = some style ↔ Asks suffix style := by
  constructor
  · intro h
    fun_cases style? suffix with
    | case1 =>
      cases h
      exact .plain
    | case2 =>
      cases h
      exact .headlinese
    | case3 =>
      cases h
      exact .singular
    | case4 word hheadlinese hsingular =>
      rw [style?, if_neg hheadlinese, if_neg hsingular] at h
      cases h
    | case5 _ hplain hcolon =>
      rw [style?.eq_3 suffix hplain hcolon] at h
      cases h
  · rintro (_ | _ | _) <;> rfl

theorem holeBody?_eq_some_iff {body : List Char} {index : Nat} {style : Style} :
    holeBody? body = some (index, style) ↔ HoleBody body index style := by
  have hopen : holeBody? body = some (index, style) ↔
      style? (body.dropWhile (· != ':')) = some style ∧
        index? (body.takeWhile (· != ':')) = some index := by
    simp [holeBody?, Option.bind_eq_some_iff, and_comm]
  have hsplit : body.takeWhile (· != ':') ++ body.dropWhile (· != ':') = body :=
    List.takeWhile_append_dropWhile
  rw [hopen, style?_eq_some_iff, index?_eq_some_iff]
  constructor
  · rintro ⟨hasks, sign, digits, hword, hsign, hnumber⟩
    obtain ⟨hne, hdigits, hsmall, rfl⟩ := number?_eq_some_iff.mp hnumber
    rw [← hsplit, hword]
    exact .mk hsign hne hdigits hsmall hasks
  · rintro @⟨sign, digits, suffix, _, hsign, hne, hdigits, hsmall, hasks⟩
    have hword : ∀ c ∈ sign ++ digits, (c != ':') = true := by
      refine List.forall_mem_append.mpr ⟨?_, fun c hc ↦ ?_⟩
      · rcases hsign with rfl | rfl <;> simp
      · rw [bne_iff_ne]
        rintro rfl
        exact absurd (hdigits ':' hc) (by decide)
    have htake : suffix.takeWhile (· != ':') = [] := by
      cases hasks <;> rfl
    have hdrop : suffix.dropWhile (· != ':') = suffix := by
      cases hasks <;> rfl
    rw [List.takeWhile_append_of_pos hword, List.dropWhile_append_of_pos hword, htake, hdrop,
      List.append_nil]
    exact ⟨hasks, sign, digits, rfl, hsign, number?_eq_some_iff.mpr ⟨hne, hdigits, hsmall, rfl⟩⟩

/-- A doubled brace opens no hole. -/
theorem HoleBody.head_ne {body : List Char} {index : Nat} {style : Style}
    (h : HoleBody body index style) (rest : List Char) :
    (body ++ rest).head? ≠ some '\x7b' := by
  obtain @⟨sign, digits, suffix, _, hsign, hne, hdigits, -, -⟩ := h
  obtain ⟨digit, others, rfl⟩ := List.exists_cons_of_ne_nil hne
  have hdigit : digit ≠ '\x7b' := by
    rintro rfl
    exact absurd (hdigits '\x7b' List.mem_cons_self) (by decide)
  rcases hsign with rfl | rfl
  · simpa using hdigit
  · simp

/-! ### Reading a template -/

/-- The nearest closing brace behind a text without one. -/
theorem body?_append {body : List Char} (hbody : '\x7d' ∉ body) (after : List Char) :
    body? (body ++ '\x7d' :: after) = some body := by
  induction body with
  | nil => rfl
  | cons c rest ih =>
    obtain ⟨hc, hrest⟩ := not_or.mp (mt List.mem_cons.mpr hbody)
    rw [List.cons_append, body?, ih hrest, Option.map_some]
    exact Ne.symm hc

/-- There is only one nearest closing brace. -/
theorem append_close_inj {body body' after after' : List Char} (hbody : '\x7d' ∉ body)
    (hbody' : '\x7d' ∉ body') (h : body ++ '\x7d' :: after = body' ++ '\x7d' :: after') :
    body = body' ∧ after = after' := by
  have hnearest := congrArg body? h
  rw [body?_append hbody, body?_append hbody'] at hnearest
  obtain rfl := Option.some.inj hnearest
  exact ⟨rfl, (List.cons.inj (List.append_cancel_left h)).2⟩

/-- Each template consists of lexemes, and it is these that it is read as. -/
theorem exists_lexed_tokenizeFrom (skipped : Nat) (text : List Char) :
    ∃ lexemes, Lexed (text.drop skipped) lexemes ∧
      lexemes.map Lexeme.piece = tokenizeFrom skipped text := by
  fun_induction tokenizeFrom skipped text with
  | case1 skipped =>
    rw [List.drop_nil]
    exact ⟨[], .nil, rfl⟩
  | case2 skipped c rest ih => exact ih
  | case3 rest ih =>
    obtain ⟨lexemes, hlexed, hpieces⟩ := ih
    exact ⟨.doubled :: lexemes, .doubled hlexed, congrArg (_ :: ·) hpieces⟩
  | case4 rest hsingle body index style hhole ih =>
    obtain ⟨lexemes, hlexed, hpieces⟩ := ih
    obtain ⟨hclose, hbody, htext⟩ := hole_of_opened hhole
    have hhead := Lexed.hole hclose (holeBody?_eq_some_iff.mp hbody) hlexed
    rw [← htext] at hhead
    exact ⟨_, hhead, congrArg (_ :: ·) hpieces⟩
  | case5 rest hsingle hnone ih =>
    obtain ⟨lexemes, hlexed, hpieces⟩ := ih
    refine ⟨.plain '\x7b' :: lexemes, .brace ?_ ?_ hlexed, congrArg (_ :: ·) hpieces⟩
    · rw [Ne, List.head?_eq_some_iff]
      rintro ⟨rest', rfl⟩
      exact hsingle rest' rfl
    · rintro body after index style rfl hclose hbody
      rw [body?_append hclose, Option.bind_some, holeBody?_eq_some_iff.mpr hbody] at hnone
      cases hnone
  | case6 c rest hdouble hopen ih =>
    obtain ⟨lexemes, hlexed, hpieces⟩ := ih
    exact ⟨.plain c :: lexemes, .plain hopen hlexed, congrArg (_ :: ·) hpieces⟩

/-- The lexemes of a template take all of it. -/
theorem Lexed.flatMap_written {text : List Char} {lexemes : List Lexeme}
    (h : Lexed text lexemes) : lexemes.flatMap Lexeme.written = text := by
  induction h with
  | nil => rfl
  | plain _ _ ih => exact congrArg (_ :: ·) ih
  | doubled _ ih => exact congrArg (_ :: _ :: ·) ih
  | @hole body _ _ _ _ _ _ _ ih => simp [Lexeme.written, ih]
  | brace _ _ _ ih => exact congrArg (_ :: ·) ih

/-! ### Where a template is cut -/

/-- The byte offsets at which reading cuts a template that consists of the lexemes: where it goes on
behind some of them, and if a brace stands there, behind the brace and on both sides of the nearest
closing brace, whether the text between these two is a hole or not. -/
inductive Cut (text : List Char) (lexemes : List Lexeme) : Nat → Prop
  | between {read : List Lexeme} :
    read <+: lexemes → Cut text lexemes (Text.byteLength (read.flatMap Lexeme.written))
  | opened {read : List Lexeme} {rest : List Char} :
    read <+: lexemes → text = read.flatMap Lexeme.written ++ '\x7b' :: rest →
      Cut text lexemes (Text.byteLength (read.flatMap Lexeme.written) + 1)
  | closing {read : List Lexeme} {body rest : List Char} :
    read <+: lexemes → '\x7d' ∉ body →
      text = read.flatMap Lexeme.written ++ '\x7b' :: (body ++ '\x7d' :: rest) →
      Cut text lexemes
        (Text.byteLength (read.flatMap Lexeme.written) + 1 + Text.byteLength body)
  | closed {read : List Lexeme} {body rest : List Char} :
    read <+: lexemes → '\x7d' ∉ body →
      text = read.flatMap Lexeme.written ++ '\x7b' :: (body ++ '\x7d' :: rest) →
      Cut text lexemes
        (Text.byteLength (read.flatMap Lexeme.written) + 1 + Text.byteLength body + 1)

/-- No cut falls inside a character. -/
theorem Lexed.boundary_of_cut {text : List Char} {lexemes : List Lexeme} (h : Lexed text lexemes)
    {offset : Nat} (hcut : Cut text lexemes offset) : Text.Boundary offset text := by
  have hopen : Text.byteLength ['\x7b'] = 1 := rfl
  have hclose : Text.byteLength ['\x7d'] = 1 := rfl
  cases hcut with
  | @between read hread =>
    obtain ⟨later, rfl⟩ := hread
    refine ⟨_, later.flatMap Lexeme.written, ?_, rfl⟩
    rw [← List.flatMap_append, h.flatMap_written]
  | @opened read rest _ htext =>
    refine ⟨read.flatMap Lexeme.written ++ ['\x7b'], rest, ?_, ?_⟩
    · rw [htext, List.append_assoc, List.singleton_append]
    · rw [Text.byteLength_append, hopen]
  | @closing read body rest _ _ htext =>
    refine ⟨read.flatMap Lexeme.written ++ ['\x7b'] ++ body, '\x7d' :: rest, ?_, ?_⟩
    · rw [htext, List.append_assoc, List.append_assoc, List.singleton_append]
    · rw [Text.byteLength_append, Text.byteLength_append, hopen]
  | @closed read body rest _ _ htext =>
    refine ⟨read.flatMap Lexeme.written ++ ['\x7b'] ++ body ++ ['\x7d'], rest, ?_, ?_⟩
    · rw [htext, List.append_assoc, List.append_assoc, List.append_assoc, List.singleton_append,
        List.singleton_append]
    · rw [Text.byteLength_append, Text.byteLength_append, Text.byteLength_append, hopen, hclose]

/-! ### One reading only -/

/-- A template consists of one sequence of lexemes only. -/
theorem Lexed.unique {text : List Char} {lexemes others : List Lexeme} (h : Lexed text lexemes)
    (hother : Lexed text others) : lexemes = others := by
  induction h generalizing others with
  | nil =>
    cases hother
    rfl
  | plain hc _ ih =>
    cases hother with
    | plain _ hrest => rw [ih hrest]
    | doubled => exact absurd rfl hc
    | hole => exact absurd rfl hc
    | brace => exact absurd rfl hc
  | @doubled rest _ _ ih =>
    -- The other sequence may begin with any sort of lexeme: the text is kept as an equation, and
    -- the character behind the first brace decides.
    generalize htext : '\x7b' :: '\x7b' :: rest = text at hother
    cases hother with
    | nil => cases htext
    | plain hc => exact absurd (List.cons.inj htext).1.symm hc
    | doubled hrest =>
      cases htext
      rw [ih hrest]
    | hole _ hbody =>
      exact absurd (congrArg List.head? (List.cons.inj htext).2.symm) (hbody.head_ne _)
    | brace hhead => exact absurd (congrArg List.head? (List.cons.inj htext).2.symm) hhead
  | @hole body rest index style _ hclose hbody _ ih =>
    generalize htext : '\x7b' :: (body ++ '\x7d' :: rest) = text at hother
    cases hother with
    | nil => cases htext
    | plain hc => exact absurd (List.cons.inj htext).1.symm hc
    | doubled => exact absurd (congrArg List.head? (List.cons.inj htext).2) (hbody.head_ne _)
    | hole hclose' hbody' hrest =>
      obtain ⟨rfl, rfl⟩ := append_close_inj hclose hclose' (List.cons.inj htext).2
      have hhole := holeBody?_eq_some_iff.mpr hbody
      rw [holeBody?_eq_some_iff.mpr hbody'] at hhole
      cases hhole
      rw [ih hrest]
    | brace _ hnone => exact absurd hbody (hnone _ _ _ _ (List.cons.inj htext).2.symm hclose)
  | @brace rest _ hhead hnone _ ih =>
    generalize htext : '\x7b' :: rest = text at hother
    cases hother with
    | nil => cases htext
    | plain hc => exact absurd (List.cons.inj htext).1.symm hc
    | doubled => exact absurd (congrArg List.head? (List.cons.inj htext).2) hhead
    | hole hclose hbody => exact absurd hbody (hnone _ _ _ _ (List.cons.inj htext).2 hclose)
    | brace _ _ hrest =>
      cases htext
      rw [ih hrest]

end Template

/-! ### What lexemes stand for -/

theorem Argument.toList_text_char (source : Source) (style : Template.Style) (c : Char) :
    ((Argument.char c).text source style).toList = [c] := by
  simp [Argument.text]

namespace Message

open Template

/-- What a lexeme stands for in a message. A statement kind is named in the singular only if the
hole asks for it. A hole without an argument stands for itself. -/
inductive Denotes (source : Source) (arguments : List Argument) : Lexeme → List Char → Prop
  | plain {c : Char} : Denotes source arguments (.plain c) [c]
  | doubled : Denotes source arguments .doubled ['\x7b']
  | span {body : List Char} {index : Nat} {style : Style} {place : Span} :
    arguments[index]? = some (.span place) →
      Denotes source arguments (.hole body index style) (source.snippet place).toList
  | identifier {body : List Char} {index : Nat} {style : Style} {ident : Identifier} :
    arguments[index]? = some (.identifier ident) →
      Denotes source arguments (.hole body index style) ident.name.toList
  | singular {body : List Char} {index : Nat} {kind : StatementKind} :
    arguments[index]? = some (.statementKind kind) →
      Denotes source arguments (.hole body index .singular) kind.singular.toList
  | headlinese {body : List Char} {index : Nat} {style : Style} {kind : StatementKind} :
    arguments[index]? = some (.statementKind kind) → style ≠ .singular →
      Denotes source arguments (.hole body index style) kind.headlinese.toList
  | char {body : List Char} {index : Nat} {style : Style} {c : Char} :
    arguments[index]? = some (.char c) → Denotes source arguments (.hole body index style) [c]
  | missing {body : List Char} {index : Nat} {style : Style} :
    arguments.length ≤ index →
      Denotes source arguments (.hole body index style) ('\x7b' :: body ++ ['\x7d'])

variable {source : Source} {arguments : List Argument}

theorem fill_hole {index : Nat} {argument : Argument} (h : arguments[index]? = some argument)
    (style : Style) (written : List Char) :
    fill source arguments (.hole index style written) = (argument.text source style).toList := by
  rw [fill, h]

/-- A lexeme stands for the text that its piece is filled with. -/
theorem denotes_fill (lexeme : Lexeme) :
    Denotes source arguments lexeme (fill source arguments lexeme.piece) := by
  cases lexeme with
  | plain c => exact .plain
  | doubled => exact .doubled
  | hole body index style =>
    cases hargument : arguments[index]? with
    | none =>
      rw [Lexeme.piece, fill, hargument]
      exact .missing (List.getElem?_eq_none_iff.mp hargument)
    | some argument =>
      rw [Lexeme.piece, fill_hole hargument]
      cases argument with
      | span place => exact .span hargument
      | identifier ident => exact .identifier hargument
      | statementKind kind =>
        cases style with
        | singular => exact .singular hargument
        | plain => exact .headlinese hargument (by decide)
        | headlinese => exact .headlinese hargument (by decide)
      | char c =>
        rw [Argument.toList_text_char]
        exact .char hargument

/-- And for no other text. -/
theorem Denotes.eq_fill {lexeme : Lexeme} {text : List Char}
    (h : Denotes source arguments lexeme text) : text = fill source arguments lexeme.piece := by
  cases h with
  | plain => rfl
  | doubled => rfl
  | span hargument => exact (fill_hole hargument _ _).symm
  | identifier hargument => exact (fill_hole hargument _ _).symm
  | singular hargument => exact (fill_hole hargument .singular _).symm
  | @headlinese _ _ style _ hargument hstyle =>
    rw [Lexeme.piece, fill_hole hargument]
    cases style with
    | singular => exact absurd rfl hstyle
    | plain => rfl
    | headlinese => rfl
  | char hargument =>
    rw [Lexeme.piece, fill_hole hargument, Argument.toList_text_char]
  | missing hlength => rw [Lexeme.piece, fill, List.getElem?_eq_none hlength]

theorem denotes_iff {lexeme : Lexeme} {text : List Char} :
    Denotes source arguments lexeme text ↔ text = fill source arguments lexeme.piece :=
  ⟨Denotes.eq_fill, fun h ↦ h ▸ denotes_fill lexeme⟩

/-- Each template, of whatever shape, consists of lexemes in one way only, and they take all of it.
Wherever reading cuts the template, the cut falls between two characters or at an end. Each of the
lexemes stands for one text only, and the formatted message is these texts, one behind the other,
whatever is in them. -/
theorem format_denotes_lexemes (template : String) :
    ∃ lexemes, (∀ others, Lexed template.toList others ↔ others = lexemes) ∧
      lexemes.flatMap Lexeme.written = template.toList ∧
      (∀ offset, Cut template.toList lexemes offset → Text.Boundary offset template.toList) ∧
      ∀ source arguments, ∃ texts,
        (∀ others, List.Forall₂ (Denotes source arguments) lexemes others ↔ others = texts) ∧
        format source ⟨template, arguments⟩ = String.ofList texts.flatten := by
  obtain ⟨lexemes, hlexed, hpieces⟩ := exists_lexed_tokenizeFrom 0 template.toList
  rw [List.drop_zero] at hlexed
  refine ⟨lexemes, fun others ↦ ⟨fun h ↦ h.unique hlexed, fun h ↦ h ▸ hlexed⟩,
    hlexed.flatMap_written, fun _ ↦ hlexed.boundary_of_cut, fun source arguments ↦ ?_⟩
  refine ⟨lexemes.map fun lexeme ↦ fill source arguments lexeme.piece, fun others ↦ ?_, ?_⟩
  · have hdenotes : Denotes source arguments =
        fun lexeme text ↦ fill source arguments lexeme.piece = text :=
      funext₂ fun _ _ ↦ propext (denotes_iff.trans eq_comm)
    rw [hdenotes, ← List.forall₂_map_left_iff, List.forall₂_eq_eq_eq, eq_comm]
  · rw [format, tokenize, ← hpieces, List.flatMap_map, List.flatMap_def]

end Message

end LintCore
