import LintCore.Diagnostic.Catalogue
import LintCore.Text.Blank

/-!
Kinds of diagnostics and their codes. A kind is a place in the catalogue; a code is a text that an
entry of the catalogue has, so each code has a kind.
-/

set_option autoImplicit false
set_option relaxedAutoImplicit false

namespace LintCore

/-- A kind of diagnostic, by its place in the catalogue. -/
structure Kind where
  index : Fin catalogue.length
deriving DecidableEq

/-- A code of the catalogue. -/
structure Code where
  text : String
  mem_codes : text ∈ Catalogue.codes
deriving DecidableEq

namespace Kind

def entry (kind : Kind) : Catalogue.Entry := catalogue[kind.index]

/-- All kinds, in the order of the catalogue. -/
def all : List Kind := (List.finRange catalogue.length).map Kind.mk

theorem mem_all (kind : Kind) : kind ∈ all :=
  List.mem_map.mpr ⟨kind.index, List.mem_finRange _, rfl⟩

theorem entry_mem (kind : Kind) : kind.entry ∈ catalogue := List.getElem_mem _

def name (kind : Kind) : String := kind.entry.name

def fields (kind : Kind) : List Field := kind.entry.fields

/-- The severity that a diagnostic of this kind has unless a policy changes it. -/
def severity (kind : Kind) : Severity := kind.entry.severity

def noteCount (kind : Kind) : Nat := kind.entry.notes.length

def code (kind : Kind) : Code := ⟨kind.entry.code, List.mem_map_of_mem kind.entry_mem⟩

/-- The kind with exactly this text as its code. -/
def ofCode? (text : String) : Option Kind :=
  (catalogue.findFinIdx? fun entry ↦ entry.code == text).map Kind.mk

/-- The kind with exactly this name. -/
def ofName? (name : String) : Option Kind :=
  (catalogue.findFinIdx? fun entry ↦ entry.name == name).map Kind.mk

end Kind

namespace Code

theorem find_lt (code : Code) :
    catalogue.findIdx (fun entry ↦ entry.code == code.text) < catalogue.length := by
  obtain ⟨entry, hentry, htext⟩ := List.mem_map.mp code.mem_codes
  exact List.findIdx_lt_length_of_exists ⟨entry, hentry, by simp [htext]⟩

/-- The kind that the code identifies. -/
def kind (code : Code) : Kind := ⟨⟨_, code.find_lt⟩⟩

/-- The text names no kind. The text is kept as it was given. -/
structure Unknown where
  text : String
deriving DecidableEq

def Unknown.message (unknown : Unknown) : String :=
  "unknown diagnostic code '" ++ unknown.text ++ "'"

/-- Reads a code, with white space around it or not. -/
def parse? (text : String) : Except Unknown Code :=
  match Kind.ofCode? (String.ofList (Text.trim text.toList)) with
  | some kind => .ok kind.code
  | none => .error ⟨text⟩

instance : Ord Code := ⟨fun code other ↦ compare code.text other.text⟩

end Code

end LintCore
