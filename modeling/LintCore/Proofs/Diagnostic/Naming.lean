import LintCore.Diagnostic.Kind
import LintCore.Diagnostic.Catalogue.Distinct
import Mathlib.Data.List.Nodup

/-!
# The kind that a text names

A text names a kind if, without the white space around it, it is the code of that kind
(`Kind.NamedBy`). No two kinds share a code, so a text names one kind at most (`NamedBy.unique`),
and reading a text as a code finds that kind (`Code.parse?_eq_ok_iff`) or tells of a text that names
none (`Code.parse?_eq_error_iff`).
-/

set_option autoImplicit false
set_option relaxedAutoImplicit false

namespace LintCore

namespace Kind

/-- The text is the code of the kind, with white space around it or not. -/
def NamedBy (kind : Kind) (text : String) : Prop :=
  String.ofList (Text.trim text.toList) = kind.code.text

instance (kind : Kind) (text : String) : Decidable (kind.NamedBy text) :=
  inferInstanceAs (Decidable (_ = _))

/-- Kinds are equal if their entries agree in something that no two entries share. -/
theorem eq_of_key_eq {key : Catalogue.Entry → String} (hnodup : (catalogue.map key).Nodup)
    {kind other : Kind} (hkey : key kind.entry = key other.entry) : kind = other := by
  have hentry : kind.entry = other.entry :=
    List.inj_on_of_nodup_map hnodup kind.entry_mem other.entry_mem hkey
  have hcatalogue : catalogue.Nodup := List.Nodup.of_map _ hnodup
  exact congrArg Kind.mk (Fin.ext (hcatalogue.getElem_inj_iff.mp hentry))

theorem eq_of_code_text_eq {kind other : Kind} (hcode : kind.code.text = other.code.text) :
    kind = other :=
  eq_of_key_eq Catalogue.nodup_codes hcode

theorem NamedBy.unique {kind other : Kind} {text : String} (hkind : kind.NamedBy text)
    (hother : other.NamedBy text) : kind = other :=
  eq_of_code_text_eq (Eq.trans (Eq.symm hkind) hother)

/-- The first entry with a key is the only one. -/
theorem find_eq_some_iff {key : Catalogue.Entry → String} (hnodup : (catalogue.map key).Nodup)
    {text : String} {kind : Kind} :
    (catalogue.findFinIdx? fun entry ↦ key entry == text).map Kind.mk = some kind ↔
      text = key kind.entry := by
  constructor
  · intro hfound
    obtain ⟨index, hindex, rfl⟩ := Option.map_eq_some_iff.mp hfound
    have htest := (List.findFinIdx?_eq_some_iff.mp hindex).1
    exact Eq.symm (eq_of_beq htest)
  · rintro rfl
    refine Option.map_eq_some_iff.mpr ⟨kind.index, ?_, rfl⟩
    refine List.findFinIdx?_eq_some_iff.mpr ⟨beq_self_eq_true _, ?_⟩
    -- An earlier entry with this key would be another kind with it.
    intro earlier hearlier htest
    have hsame : Kind.mk ⟨earlier, Nat.lt_trans hearlier kind.index.isLt⟩ = kind :=
      eq_of_key_eq hnodup (eq_of_beq htest)
    exact absurd (congrArg (fun kind ↦ kind.index.val) hsame) (Nat.ne_of_lt hearlier)

/-- Looking a text up among the codes finds the kind that has it as its code. -/
theorem ofCode?_eq_some_iff {text : String} {kind : Kind} :
    ofCode? text = some kind ↔ text = kind.code.text :=
  find_eq_some_iff Catalogue.nodup_codes

theorem ofName?_eq_some_iff {name : String} {kind : Kind} :
    ofName? name = some kind ↔ name = kind.name :=
  find_eq_some_iff Catalogue.nodup_names

end Kind

namespace Code

theorem eq_of_text_eq {code other : Code} (htext : code.text = other.text) : code = other := by
  obtain ⟨text, hmem⟩ := code
  cases htext
  rfl

theorem code_kind (code : Code) : code.kind.code = code := by
  have htest : (code.kind.entry.code == code.text) = true :=
    List.findIdx_getElem (w := code.find_lt)
  exact eq_of_text_eq (eq_of_beq htest)

theorem kind_code (kind : Kind) : kind.code.kind = kind :=
  Kind.eq_of_code_text_eq (congrArg text (code_kind kind.code))

theorem namedBy_kind {code : Code} {text : String}
    (htext : String.ofList (Text.trim text.toList) = code.text) : code.kind.NamedBy text := by
  rw [Kind.NamedBy, code_kind]
  exact htext

/-- A text is read as the code of the kind that it names. -/
theorem parse?_eq_ok_iff {text : String} {code : Code} :
    parse? text = .ok code ↔ code.kind.NamedBy text := by
  unfold parse? Kind.NamedBy
  cases hfound : Kind.ofCode? (String.ofList (Text.trim text.toList)) with
  | some kind =>
    rw [Kind.ofCode?_eq_some_iff.mp hfound]
    constructor
    · intro hread
      rw [← Except.ok.inj hread, kind_code]
    · intro htext
      rw [Kind.eq_of_code_text_eq htext]
      exact congrArg Except.ok (code_kind code)
  | none =>
    refine iff_of_false (fun hread ↦ by cases hread) fun hnamed ↦ ?_
    rw [Kind.ofCode?_eq_some_iff.mpr hnamed] at hfound
    cases hfound

/-- The text names a kind. -/
def Known (text : String) : Prop := ∃ kind : Kind, kind.NamedBy text

theorem known_iff {text : String} : Known text ↔ ∃ code, parse? text = .ok code := by
  constructor
  · rintro ⟨kind, hkind⟩
    exact ⟨kind.code, parse?_eq_ok_iff.mpr (by rw [kind_code]; exact hkind)⟩
  · rintro ⟨code, hcode⟩
    exact ⟨code.kind, parse?_eq_ok_iff.mp hcode⟩

/-- A text that names no kind is told as it was given. -/
theorem parse?_eq_error_iff {text : String} {unknown : Unknown} :
    parse? text = .error unknown ↔ ¬ Known text ∧ unknown.text = text := by
  rw [known_iff]
  unfold parse?
  cases Kind.ofCode? (String.ofList (Text.trim text.toList)) with
  | some kind => exact iff_of_false (fun h ↦ by cases h) fun h ↦ h.1 ⟨kind.code, rfl⟩
  | none =>
    constructor
    · intro h
      cases h
      refine ⟨?_, rfl⟩
      rintro ⟨code, hcode⟩
      cases hcode
    · rintro ⟨-, rfl⟩
      rfl

end Code

end LintCore
