import LintCore.Config.Document

/-!
Loading a configuration: from a text, or from the configuration file of a directory. What is loaded
has a buffer of at least one byte, and no code that is both allowed and denied as it is written.
-/

set_option autoImplicit false
set_option relaxedAutoImplicit false

namespace LintCore

inductive ConfigError where
  | missingFile
  | notText
  /-- The text is no TOML document. -/
  | malformed
  /-- It is one, but not a configuration. -/
  | misshapen (mismatch : Shape.Mismatch)
  | zeroReadBuffer
  | conflictingCode (code : String)
deriving DecidableEq

/-- What is told about the error. Where a document is no TOML is not told. -/
def ConfigError.message? : ConfigError → Option String
  | missingFile => some "failed to read configuration: No such file or directory (os error 2)"
  | notText => some "failed to read configuration: stream did not contain valid UTF-8"
  | malformed => none
  | misshapen mismatch => some mismatch.message
  | zeroReadBuffer => some "event_loop.read_buffer_size must be greater than zero"
  | conflictingCode code => some ("code '" ++ code ++ "' is both allowed and denied")

namespace Config

/-- The configuration, if its values agree with each other. Of the codes both denied and allowed the
first denied one is told. -/
def validate (config : Config) : Except ConfigError Config :=
  if config.eventLoop.readBufferSize = 0 then .error .zeroReadBuffer
  else match config.lint.deny.find? (· ∈ config.lint.allow) with
    | some code => .error (.conflictingCode code)
    | none => .ok config

/-- The configuration of a document that has been read. -/
def ofDocument (document : Toml) : Except ConfigError Config :=
  match ofToml document with
  | .ok config => config.validate
  | .error mismatch => .error (.misshapen mismatch)

def ofText (text : String) : Except ConfigError Config :=
  match Toml.parse? text with
  | some document => ofDocument document
  | none => .error .malformed

/-- The name of the configuration file. -/
def fileName : String := "quill.toml"

/-- The configuration of a directory, whose files are given by name. -/
def load (file? : String → Option ByteArray) : Except ConfigError Config :=
  match file? fileName with
  | none => .error .missingFile
  | some bytes =>
    match String.fromUTF8? bytes with
    | none => .error .notText
    | some text => ofText text

end Config

end LintCore
