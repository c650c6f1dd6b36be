import LintCore.Proofs.Diagnostic.Naming

/-!
# Texts, codes and kinds

A code can be looked up by its text (`Kind.ofCode?`), read from a text with white space around it
(`Code.parse?`), and turned into its kind and back (`Code.kind`, `Kind.code`). No code has white
space at its ends (`Code.trim_text`), so these ways agree: `read_between_blanks` tells which texts
are read, what is then known of the code, and what is told of the other texts. Looking up does not
take white space off, so what it accepts are the texts that are read and have none at their ends
(`Kind.isSome_ofCode?_iff`).
-/

set_option autoImplicit false
set_option relaxedAutoImplicit false

namespace LintCore

theorem Catalogue.trim_codes :
    codes.all (fun text ↦ decide (Text.trim text.toList = text.toList)) = true := by
  decide +kernel

namespace Code

theorem trim_text (code : Code) : Text.trim code.text.toList = code.text.toList :=
  of_decide_eq_true (List.all_eq_true.mp Catalogue.trim_codes code.text code.mem_codes)

/-- A code is read with any white space around it. -/
theorem parse?_padded (code : Code) {before after : List Char}
    (hblank : ∀ c ∈ before ++ after, Text.isBlank c = true) :
    parse? (String.ofList (before ++ code.text.toList ++ after)) = .ok code := by
  obtain ⟨hbefore, hafter⟩ := List.forall_mem_append.mp hblank
  rw [parse?_eq_ok_iff, Kind.NamedBy, code_kind, String.toList_ofList,
    Text.trim_append hbefore hafter, trim_text, String.ofList_toList]

/-- A code is that of one kind only. -/
theorem eq_kind_iff {code : Code} {kind : Kind} : kind = code.kind ↔ kind.code = code := by
  constructor
  · rintro rfl
    exact code_kind code
  · rintro rfl
    exact (kind_code kind).symm

/-- Going through all kinds finds the kind of a code. -/
theorem find?_code_eq (code : Code) :
    Kind.all.find? (fun kind ↦ kind.code = code) = some code.kind := by
  cases hfound : Kind.all.find? (fun kind ↦ kind.code = code) with
  | none =>
    have hnone := List.find?_eq_none.mp hfound code.kind (Kind.mem_all _)
    exact absurd (decide_eq_true (code_kind code)) hnone
  | some kind =>
    have hcode := List.find?_some (p := fun kind : Kind ↦ decide (kind.code = code)) hfound
    rw [eq_kind_iff.mpr (of_decide_eq_true hcode)]

end Code

/-- Looking a text up finds a kind only if reading does, and if there is nothing to take off. -/
theorem Kind.isSome_ofCode?_iff {text : String} :
    (ofCode? text).isSome ↔
      (∃ code, Code.parse? text = .ok code) ∧ Text.trim text.toList = text.toList := by
  rw [Option.isSome_iff_exists]
  simp only [ofCode?_eq_some_iff, ← Code.known_iff, Code.Known, NamedBy]
  constructor
  · rintro ⟨kind, rfl⟩
    have htrim := kind.code.trim_text
    exact ⟨⟨kind, by rw [htrim, String.ofList_toList]⟩, htrim⟩
  · rintro ⟨⟨kind, hkind⟩, htrim⟩
    rw [htrim, String.ofList_toList] at hkind
    exact ⟨kind, hkind⟩

namespace Code

/-- A text is read as a code if, without the white space at its ends, it is the code of some kind,
letter by letter. The code then has this text, going through the kinds finds the kind of the code,
which has this code and is the only one that does, looking the text up finds the same kind, and with
any white space around it the text is read as this code again. A text that is not read is told as it
was given. Looking up takes no white space off: it finds a kind for exactly the text of its code. -/
theorem read_between_blanks (text : String) :
    ((∃ code, parse? text = .ok code) ↔
      ∃ kind : Kind, String.ofList (Text.trim text.toList) = kind.code.text) ∧
    (∀ code, parse? text = .ok code →
      code.text = String.ofList (Text.trim text.toList) ∧
      Kind.all.find? (fun kind ↦ kind.code = code) = some code.kind ∧
      code.kind.code = code ∧ (∀ kind : Kind, kind.code = code → kind = code.kind) ∧
      Kind.ofCode? (String.ofList (Text.trim text.toList)) = some code.kind ∧
      ∀ before after, (∀ c ∈ before ++ after, Text.isBlank c = true) →
        parse? (String.ofList (before ++ code.text.toList ++ after)) = .ok code) ∧
    (∀ unknown, parse? text = .error unknown ↔
      (¬ ∃ kind : Kind, String.ofList (Text.trim text.toList) = kind.code.text) ∧
        unknown.text = text) ∧
    (∀ kind, Kind.ofCode? text = some kind ↔ text = kind.code.text) ∧
    ((Kind.ofCode? text).isSome ↔
      (∃ code, parse? text = .ok code) ∧ Text.trim text.toList = text.toList) := by
  refine ⟨known_iff.symm, fun code hcode ↦ ?_, fun unknown ↦ parse?_eq_error_iff,
    fun kind ↦ Kind.ofCode?_eq_some_iff, Kind.isSome_ofCode?_iff⟩
  have hnamed : String.ofList (Text.trim text.toList) = code.kind.code.text :=
    parse?_eq_ok_iff.mp hcode
  have hlookUp := Kind.ofCode?_eq_some_iff.mpr hnamed
  rw [code_kind] at hnamed
  exact ⟨hnamed.symm, code.find?_code_eq, code.code_kind, fun kind ↦ eq_kind_iff.mpr, hlookUp,
    fun before after ↦ code.parse?_padded⟩

/-- A blank before the code and an ideographic one behind it, then a tab and a line separator before
it. Looked up with its blanks, the text has no kind. -/
theorem undeclaredUse_read_between_blanks :
    ∃ code, parse? " E057\u3000" = .ok code ∧ code.text = "E057" ∧
      parse? "\t\u2028E057" = .ok code ∧ (Kind.ofCode? " E057\u3000").isSome = false := by
  have hcode : parse? " E057\u3000" = .ok ⟨"E057", by decide +kernel⟩ := by decide +kernel
  have htrim : Text.trim " E057\u3000".toList ≠ " E057\u3000".toList := by decide
  have hblank : ∀ c ∈ ['\t', '\u2028'] ++ [], Text.isBlank c = true :=
    List.forall_mem_cons.mpr ⟨rfl, List.forall_mem_singleton.mpr rfl⟩
  obtain ⟨-, hread, -, -, hlookUp⟩ := read_between_blanks " E057\u3000"
  obtain ⟨-, -, -, -, -, hpadded⟩ := hread _ hcode
  refine ⟨_, hcode, rfl, hpadded ['\t', '\u2028'] [] hblank, ?_⟩
  exact Bool.eq_false_iff.mpr fun hfound ↦ htrim (hlookUp.mp hfound).2

end Code

end LintCore
