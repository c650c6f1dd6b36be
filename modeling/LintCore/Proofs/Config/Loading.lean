import LintCore.EventLoop.Basic
import LintCore.Proofs.Config.Tables
import LintCore.Proofs.Policy.Conflict

/-!
# Which configurations are loaded

A text that is a TOML document is loaded if the document has the shape of a configuration
(`Config.Shaped`), its buffer has room for at least one byte, and no code is in both of its lists;
what is loaded is the one configuration that the document gives (`Config.GivenBy`). The shape is
looked at before the size, and the size before the lists (`Config.ofDocument_eq_iff`,
`Config.validate_eq_error_iff`). `ofDocument_decided` states the outcome for every tree in which no
table has a key twice and no table is given as an array, whatever reader the tree came from, and
that an event loop accepts each configuration loaded. The reader of texts keeps keys apart, so
`ofText_decided_by_document` says the same of texts.
-/

set_option autoImplicit false
set_option relaxedAutoImplicit false

namespace LintCore

/-! ### The order of the checks -/

/-- The first code to deny that is also to allow. -/
def LintConfig.FirstConflict (lint : LintConfig) (code : String) : Prop :=
  ∃ before after, lint.deny = before ++ code :: after ∧ code ∈ lint.allow ∧
    ∀ other ∈ before, other ∉ lint.allow

theorem LintConfig.find?_eq_some_iff_firstConflict {lint : LintConfig} {code : String} :
    lint.deny.find? (· ∈ lint.allow) = some code ↔ lint.FirstConflict code := by
  rw [List.find?_eq_some_iff_append, decide_eq_true_iff]
  simp only [FirstConflict, Bool.not_eq_eq_eq_not, Bool.not_true, decide_eq_false_iff_not]
  constructor
  · rintro ⟨hallow, before, after, hdeny, hbefore⟩
    exact ⟨before, after, hdeny, hallow, hbefore⟩
  · rintro ⟨before, after, hdeny, hallow, hbefore⟩
    exact ⟨hallow, before, after, hdeny, hbefore⟩

namespace Config

/-- The size comes first. -/
theorem validate_eq_error_iff {config : Config} {error : ConfigError} :
    config.validate = .error error ↔
      config.eventLoop.readBufferSize = 0 ∧ error = .zeroReadBuffer ∨
        1 ≤ config.eventLoop.readBufferSize ∧
          ∃ code, config.lint.FirstConflict code ∧ error = .conflictingCode code := by
  simp only [← LintConfig.find?_eq_some_iff_firstConflict, validate]
  split_ifs with hzero
  · simp [hzero, eq_comm]
  · have hpos : 1 ≤ config.eventLoop.readBufferSize := Nat.one_le_iff_ne_zero.mpr hzero
    cases config.lint.deny.find? (· ∈ config.lint.allow) with
    | some code => simp [hzero, hpos, eq_comm]
    | none => simp [hzero]

/-- The shape comes before what the configuration says. -/
theorem ofDocument_eq_iff {document : Toml} {result : Except ConfigError Config} :
    ofDocument document = result ↔
      (∃ mismatch, ofToml document = .error mismatch ∧ result = .error (.misshapen mismatch)) ∨
        ∃ config, ofToml document = .ok config ∧ config.validate = result := by
  unfold ofDocument
  cases ofToml document with
  | ok config => simp
  | error mismatch => simp [eq_comm]

/-! ### Loading a document -/

section Document

variable {document : Toml} (harrays : WithoutArrays document)

include harrays

/-- The only fault that keeps a document from giving a configuration is its shape. -/
theorem exists_misshapen_iff :
    (∃ mismatch, ofDocument document = .error (.misshapen mismatch)) ↔ ¬ Shaped document := by
  rw [← exists_ofToml_iff harrays]
  simp only [ofDocument_eq_iff, validate_eq_error_iff]
  cases ofToml document <;> simp

/-- Any other outcome is up to the configuration that the document gives. -/
theorem ofDocument_eq_iff_of_given (hdistinct : document.Distinct)
    {result : Except ConfigError Config}
    (hresult : ∀ mismatch, result ≠ .error (.misshapen mismatch)) :
    ofDocument document = result ↔
      Shaped document ∧ ∃ config : Config, config.GivenBy document ∧ config.validate = result := by
  rw [ofDocument_eq_iff]
  simp only [ofToml_eq_ok_iff harrays hdistinct, hresult, and_false, exists_false, false_or,
    and_assoc, exists_and_left]

theorem ofDocument_eq_ok_iff (hdistinct : document.Distinct) {config : Config} :
    ofDocument document = .ok config ↔
      Shaped document ∧ config.GivenBy document ∧ 1 ≤ config.eventLoop.readBufferSize ∧
        ∀ code ∈ config.lint.deny, code ∉ config.lint.allow := by
  rw [ofDocument_eq_iff_of_given harrays hdistinct (by simp)]
  refine and_congr_right fun _ ↦ ?_
  simp only [validate_eq_ok_iff, Nat.one_le_iff_ne_zero]
  constructor
  · rintro ⟨_, hgiven, hsize, hlists, rfl⟩
    exact ⟨hgiven, hsize, hlists⟩
  · rintro ⟨hgiven, hsize, hlists⟩
    exact ⟨config, hgiven, hsize, hlists, rfl⟩

/-- A document in which no table has a key twice and none is given as an array. If the document has
the shape of a configuration, it gives one configuration and no other. This one is loaded, provided
that its buffer has room for a byte and none of its codes to deny is a code to allow. A document
without the shape is told as such, whatever else is wrong. A size of zero is told even if there are
conflicts, and among these the first code to deny is told that is also to allow. A configuration
that was loaded makes an event loop, with a buffer of the size that it says. -/
theorem ofDocument_decided (hdistinct : document.Distinct) :
    (Shaped document → ∃! config : Config, config.GivenBy document) ∧
    (∀ config : Config, ofDocument document = .ok config ↔
      Shaped document ∧ config.GivenBy document ∧ 1 ≤ config.eventLoop.readBufferSize ∧
        ∀ code ∈ config.lint.deny, code ∉ config.lint.allow) ∧
    ((∃ mismatch, ofDocument document = .error (.misshapen mismatch)) ↔ ¬ Shaped document) ∧
    (ofDocument document = .error .zeroReadBuffer ↔
      Shaped document ∧ ∃ config : Config, config.GivenBy document ∧
        config.eventLoop.readBufferSize = 0) ∧
    (∀ code, ofDocument document = .error (.conflictingCode code) ↔
      Shaped document ∧ ∃ config : Config, config.GivenBy document ∧
        1 ≤ config.eventLoop.readBufferSize ∧ config.lint.FirstConflict code) ∧
    ∀ config : Config, ofDocument document = .ok config →
      ∃ loop, EventLoop.ofConfig? config.eventLoop = .ok loop ∧
        loop.bufferSize = config.eventLoop.readBufferSize := by
  refine ⟨fun hshaped ↦ ?_, fun _ ↦ ofDocument_eq_ok_iff harrays hdistinct,
    exists_misshapen_iff harrays, ?_, fun code ↦ ?_, fun config hconfig ↦ ?_⟩
  · obtain ⟨config, hread⟩ := (exists_ofToml_iff harrays).mpr hshaped
    have hconfig := givenBy_of_ofToml harrays hdistinct hread
    exact ⟨config, hconfig, fun other hother ↦ hother.unique hconfig⟩
  · rw [ofDocument_eq_iff_of_given harrays hdistinct (by simp)]
    simp [validate_eq_error_iff]
  · rw [ofDocument_eq_iff_of_given harrays hdistinct (by simp)]
    simp [validate_eq_error_iff]
  · obtain ⟨-, -, hsize, -⟩ := (ofDocument_eq_ok_iff harrays hdistinct).mp hconfig
    exact ⟨_, dif_pos hsize, rfl⟩

end Document

/-- A text that is a document in which no table is given as an array is loaded as this document is:
the reader gives no table a key twice, so the outcome is the one of `ofDocument_decided`. -/
theorem ofText_decided_by_document {text : String} {document : Toml}
    (hdocument : Toml.parse? text = some document) (harrays : WithoutArrays document) :
    (Shaped document → ∃! config : Config, config.GivenBy document) ∧
    (∀ config : Config, ofText text = .ok config ↔
      Shaped document ∧ config.GivenBy document ∧ 1 ≤ config.eventLoop.readBufferSize ∧
        ∀ code ∈ config.lint.deny, code ∉ config.lint.allow) ∧
    ((∃ mismatch, ofText text = .error (.misshapen mismatch)) ↔ ¬ Shaped document) ∧
    (ofText text = .error .zeroReadBuffer ↔
      Shaped document ∧ ∃ config : Config, config.GivenBy document ∧
        config.eventLoop.readBufferSize = 0) ∧
    (∀ code, ofText text = .error (.conflictingCode code) ↔
      Shaped document ∧ ∃ config : Config, config.GivenBy document ∧
        1 ≤ config.eventLoop.readBufferSize ∧ config.lint.FirstConflict code) ∧
    ∀ config : Config, ofText text = .ok config →
      ∃ loop, EventLoop.ofConfig? config.eventLoop = .ok loop ∧
        loop.bufferSize = config.eventLoop.readBufferSize := by
  obtain ⟨-, -, hdistinct⟩ := Toml.distinct_of_parse? hdocument
  have htext : ofText text = ofDocument document := by rw [ofText, hdocument]
  rw [htext]
  exact ofDocument_decided harrays hdistinct

/-- The second code to deny is the first one that is also to allow, though it comes last there. The
size of the buffer is left out. -/
theorem second_denied_told :
    ofText "[lint]\ndeny = ['E059', 'E034', 'E057']\nallow = ['E057', 'E034']\n" =
      .error (.conflictingCode "E034") := by
  let entries : List (String × Toml) :=
    [("deny", .array [.string "E059", .string "E034", .string "E057"]),
      ("allow", .array [.string "E057", .string "E034"])]
  have hdocument :
      Toml.parse? "[lint]\ndeny = ['E059', 'E034', 'E057']\nallow = ['E057', 'E034']\n" =
        some (.table [("lint", .table entries)]) := by decide +kernel
  have harrays : WithoutArrays (.table [("lint", .table entries)]) := by simp [WithoutArrays]
  obtain ⟨-, -, -, -, hconflict, -⟩ := ofText_decided_by_document hdocument harrays
  refine (hconflict "E034").mpr ⟨?_, ⟨⟨["E059", "E034", "E057"], ["E057", "E034"]⟩, ⟨1024⟩⟩, ?_,
    by decide, ["E059"], ["E057"], rfl, by decide, by decide⟩
  · refine List.forall_mem_singleton.mpr (.inl ⟨rfl, List.forall_mem_cons.mpr ⟨?_, ?_⟩⟩)
    · exact ⟨.inl rfl, ["E059", "E034", "E057"], rfl⟩
    · exact List.forall_mem_singleton.mpr ⟨.inr rfl, ["E057", "E034"], rfl⟩
  · simp [entries, GivenBy, LintConfig.GivenBy, Toml.Gives]

end Config

end LintCore
