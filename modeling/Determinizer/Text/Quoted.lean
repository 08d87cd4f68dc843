import Determinizer.Text.Printable

/-! # Quoted text in messages

Messages show names between quotes, with everything that is not printable escaped, and lists,
tuples and tables of names in brackets. The quotes are apostrophes, or double quotes around a name
that holds an apostrophe and no double quote.
-/

namespace Determinizer.Text

/-- The lower-case hexadecimal digits of a number, on at least `width` places. -/
def hexDigits (width n : Nat) : List Char :=
  let digits := Nat.toDigits 16 n
  List.replicate (width - digits.length) '0' ++ digits

/-- One character between quotes that are `mark`. -/
def escapeChar (mark c : Char) : List Char :=
  if c == mark || c == '\\' then ['\\', c]
  else if c == '\t' then ['\\', 't']
  else if c == '\n' then ['\\', 'n']
  else if c == '\r' then ['\\', 'r']
  else if isPrintable c then [c]
  else if c.toNat < 0x100 then '\\' :: 'x' :: hexDigits 2 c.toNat
  else if c.toNat < 0x10000 then '\\' :: 'u' :: hexDigits 4 c.toNat
  else '\\' :: 'U' :: hexDigits 8 c.toNat

/-- The mark that stands at both ends of a quoted text. -/
def quoteMark (text : List Char) : Char :=
  if text.contains '\x27' && !text.contains '\x22' then '\x22' else '\x27'

/-- A text between quotes. -/
def quoted (text : String) : String :=
  let mark := quoteMark text.toList
  String.ofList (mark :: text.toList.flatMap (escapeChar mark) ++ [mark])

/-- Texts separated by commas. -/
def commaSeparated (texts : List String) : String :=
  ", ".intercalate texts

/-- Names in square brackets: `['0', '1']`. -/
def quotedList (names : List String) : String :=
  "[" ++ commaSeparated (names.map quoted) ++ "]"

/-- Names in round brackets; a single one keeps its comma: `('x',)`. -/
def quotedTuple (names : List String) : String :=
  match names with
  | [name] => "(" ++ quoted name ++ ",)"
  | names => "(" ++ commaSeparated (names.map quoted) ++ ")"

/-- Pairs of names in curly brackets, each written as a key and its value. -/
def quotedTable (pairs : List (String × String)) : String :=
  "\x7b" ++ commaSeparated (pairs.map fun pair => quoted pair.1 ++ ": " ++ quoted pair.2) ++ "\x7d"

end Determinizer.Text
