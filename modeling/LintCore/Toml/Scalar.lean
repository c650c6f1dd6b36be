import LintCore.Toml.Basic
import LintCore.Toml.Text

/-!
Numbers, truth values, dates and times in TOML. A number is one word: all the letters, digits,
signs, points and underscores up to the next other character. Underscores may stand between digits.
Integers have 64 bits with sign.
-/

set_option autoImplicit false
set_option relaxedAutoImplicit false

namespace LintCore.Toml

/-! ### Numbers -/

/-- The digits of a text without the underscores between them, if there is nothing else in it. -/
def digits? (isDigit : Char → Bool) : List Char → Option (List Char)
  | [] => none
  | [c] => if isDigit c then some [c] else none
  | c :: '_' :: rest => if isDigit c then (digits? isDigit rest).map (c :: ·) else none
  | c :: rest => if isDigit c then (digits? isDigit rest).map (c :: ·) else none

/-- The integer that digits write, if it fits in 64 bits. -/
def unsignedIn? (base : Nat) (isDigit : Char → Bool) (text : List Char) : Option Toml := do
  let value ← Text.natIn? base (← digits? isDigit text)
  if value < Text.signedBound then return .integer value else none

/-- Whole digits without leading zeros. -/
def wholeDigits? (text : List Char) : Option (List Char) := do
  let digits ← digits? Char.isDigit text
  if text.head? == some '0' && 1 < text.length then none else return digits

def decimalInteger? (negative : Bool) (text : List Char) : Option Toml := do
  let value := Text.natOf (← wholeDigits? text)
  if negative then
    if value ≤ Text.signedBound then return .integer (-(value : Int)) else none
  else if value < Text.signedBound then return .integer value else none

/-- An exponent part behind its letter. -/
def exponent? (text : List Char) : Option Int :=
  match text with
  | '-' :: digits => (digits? Char.isDigit digits).map fun digits ↦ -(Text.natOf digits : Int)
  | '+' :: digits => (digits? Char.isDigit digits).map fun digits ↦ (Text.natOf digits : Int)
  | digits => (digits? Char.isDigit digits).map fun digits ↦ (Text.natOf digits : Int)

def isExponentMark (c : Char) : Bool := c == 'e' || c == 'E'

/-- A number with a point or an exponent. It may not be beyond the greatest float; below the least
one it counts as negative infinity. -/
def decimalFloat? (negative : Bool) (text : List Char) : Option Toml := do
  let mantissa := text.takeWhile fun c ↦ !isExponentMark c
  let power ← match text.dropWhile fun c ↦ !isExponentMark c with
    | [] => some 0
    | _ :: digits => exponent? digits
  let whole ← wholeDigits? (mantissa.takeWhile (· ≠ '.'))
  let places ← match mantissa.dropWhile (· ≠ '.') with
    | [] => some []
    | _ :: places => digits? Char.isDigit places
  let value := Binary64.ofDecimal negative (Text.natOf (whole ++ places)) (power - places.length)
  if value = .infinite false then none else return .float value

def number? (negative : Bool) (word : List Char) : Option Toml :=
  if word = "inf".toList then some (.float (.infinite negative))
  else if word = "nan".toList then some (.float .nan)
  else if word.any fun c ↦ c == '.' || isExponentMark c then decimalFloat? negative word
  else decimalInteger? negative word

def isHexDigit (c : Char) : Bool := (Text.hexValue? c).isSome
def isOctalDigit (c : Char) : Bool := '0' ≤ c && c ≤ '7'
def isBinaryDigit (c : Char) : Bool := c == '0' || c == '1'

/-- The value of a word outside quotes that is no date and no time. -/
def word? : List Char → Option Toml
  | ['t', 'r', 'u', 'e'] => some (.boolean true)
  | ['f', 'a', 'l', 's', 'e'] => some (.boolean false)
  | '0' :: 'x' :: digits => unsignedIn? 16 isHexDigit digits
  | '0' :: 'o' :: digits => unsignedIn? 8 isOctalDigit digits
  | '0' :: 'b' :: digits => unsignedIn? 2 isBinaryDigit digits
  | '-' :: word => number? true word
  | '+' :: word => number? false word
  | word => number? false word

def isWordChar (c : Char) : Bool :=
  c.isAlphanum || c == '_' || c == '+' || c == '-' || c == '.'

/-! ### Dates and times -/

/-- Exactly `count` digits, with a value in a range. -/
def field? (count low high : Nat) (text : List Char) : Option (Nat × List Char) :=
  let digits := text.take count
  if digits.length = count && digits.all Char.isDigit then
    let value := Text.natOf digits
    if low ≤ value && value ≤ high then some (value, text.drop count) else none
  else none

def expect? (c : Char) : List Char → Option (List Char)
  | [] => none
  | head :: rest => if head == c then some rest else none

def isLeapYear (year : Nat) : Bool := year % 4 == 0 && (year % 100 ≠ 0 || year % 400 == 0)

def daysIn (year month : Nat) : Nat :=
  if month = 2 then if isLeapYear year then 29 else 28
  else if month = 4 ∨ month = 6 ∨ month = 9 ∨ month = 11 then 30
  else 31

/-- What follows a date. -/
def skipDate? (text : List Char) : Option (List Char) := do
  let (year, rest) ← field? 4 0 9999 text
  let (month, rest) ← field? 2 1 12 (← expect? '-' rest)
  let (_, rest) ← field? 2 1 (daysIn year month) (← expect? '-' rest)
  return rest

/-- What follows a time of day. Its last minute may have a leap second. -/
def skipTime? (text : List Char) : Option (List Char) := do
  let (_, rest) ← field? 2 0 23 text
  let (_, rest) ← field? 2 0 59 (← expect? ':' rest)
  let (_, rest) ← field? 2 0 60 (← expect? ':' rest)
  match rest with
  | '.' :: rest =>
    let places := rest.takeWhile Char.isDigit
    if places.isEmpty then none else return rest.dropWhile Char.isDigit
  | rest => return rest

/-- What follows the distance from universal time, if there is one. -/
def skipOffset? : List Char → Option (List Char)
  | 'Z' :: rest => some rest
  | 'z' :: rest => some rest
  | '+' :: rest => hours rest
  | '-' :: rest => hours rest
  | rest => some rest
where
  hours (text : List Char) : Option (List Char) := do
    let (_, rest) ← field? 2 0 23 text
    let (_, rest) ← field? 2 0 59 (← expect? ':' rest)
    return rest

/-- Whether `count` digits and then `c` are at the head of the text. -/
def startsWith (count : Nat) (c : Char) (text : List Char) : Bool :=
  (text.take count).length == count && (text.take count).all Char.isDigit
    && (text.drop count).head? == some c

/-- What follows a date, with a time or without. -/
def skipDateTime? (text : List Char) : Option (List Char) := do
  let rest ← skipDate? text
  match rest with
  | [] => return []
  | mark :: time =>
    if (mark == 'T' || mark == 't' || mark == ' ') && startsWith 2 ':' time then
      skipOffset? (← skipTime? time)
    else return rest

/-- A value outside quotes and brackets. -/
def scalar? (text : List Char) : Option (Toml × List Char) :=
  if startsWith 4 '-' text then (skipDateTime? text).map fun rest ↦ (.dateTime, rest)
  else if startsWith 2 ':' text then (skipTime? text).map fun rest ↦ (.dateTime, rest)
  else (word? (text.takeWhile isWordChar)).map fun value ↦ (value, text.dropWhile isWordChar)

end LintCore.Toml
