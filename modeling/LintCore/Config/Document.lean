import LintCore.Config.Basic
import LintCore.Toml.Reader

/-!
Configurations as TOML documents. Every table may be left out, and so may every key in it; a key
that is not known is a fault. The faults of a document are met in the order of its entries, and the
first one is told. A table inside the document may also be given as the array of its values.
-/

set_option autoImplicit false
set_option relaxedAutoImplicit false

namespace LintCore

open Shape

namespace Toml

def text : Toml → Except Mismatch String
  | string value => .ok value
  | value => .error (.wrongType value.found .text)

def texts : Toml → Except Mismatch (List String)
  | array items => items.mapM text
  | value => .error (.wrongType value.found .sequence)

def size : Toml → Except Mismatch Nat
  | integer value =>
    if 0 ≤ value then .ok value.toNat else .error (.wrongValue (.integer value) .size)
  | value => .error (.wrongType value.found .size)

/-- The key under which a date or time appears to a reader of tables. -/
def dateTimeKey : String := "$__toml_private_datetime"

end Toml

/-! ### The tables of a configuration -/

namespace LintConfig

def keys : List String := ["deny", "allow"]

/-- Takes in one entry of the table. -/
def set (config : LintConfig) (key : String) (value : Toml) : Except Mismatch LintConfig :=
  if key = "deny" then value.texts.map fun deny ↦ { config with deny }
  else if key = "allow" then value.texts.map fun allow ↦ { config with allow }
  else .error (.unknownField key keys)

def ofToml : Toml → Except Mismatch LintConfig
  | .table entries => entries.foldlM (fun config (key, value) ↦ config.set key value) {}
  | .array items => (keys.zip items).foldlM (fun config (key, value) ↦ config.set key value) {}
  | .dateTime => .error (.unknownField Toml.dateTimeKey keys)
  | value => .error (.wrongType value.found (.record "LintConfig"))

end LintConfig

namespace EventLoopConfig

def keys : List String := ["read_buffer_size"]

/-- Takes in one entry of the table. -/
def set (config : EventLoopConfig) (key : String) (value : Toml) :
    Except Mismatch EventLoopConfig :=
  if key = "read_buffer_size" then
    value.size.map fun readBufferSize ↦ { config with readBufferSize }
  else .error (.unknownField key keys)

def ofToml : Toml → Except Mismatch EventLoopConfig
  | .table entries => entries.foldlM (fun config (key, value) ↦ config.set key value) {}
  | .array items => (keys.zip items).foldlM (fun config (key, value) ↦ config.set key value) {}
  | .dateTime => .error (.unknownField Toml.dateTimeKey keys)
  | value => .error (.wrongType value.found (.record "EventLoopConfig"))

end EventLoopConfig

namespace Config

def keys : List String := ["lint", "event_loop"]

/-- Takes in one entry of the document. -/
def set (config : Config) (key : String) (value : Toml) : Except Mismatch Config :=
  if key = "lint" then (LintConfig.ofToml value).map fun lint ↦ { config with lint }
  else if key = "event_loop" then
    (EventLoopConfig.ofToml value).map fun eventLoop ↦ { config with eventLoop }
  else .error (.unknownField key keys)

def ofToml : Toml → Except Mismatch Config
  | .table entries => entries.foldlM (fun config (key, value) ↦ config.set key value) {}
  | value => .error (.wrongType value.found (.record "QuillConfig"))

end Config

end LintCore
