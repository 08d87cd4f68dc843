import Determinizer.Text.Newline

/-! # Reading integers

An integer is a sign, if any, and decimal digits of any script, with single underscores between
them, possibly between blanks. The information separators are no blanks here, and numbers of more
than 4300 digits are refused.
-/

namespace Determinizer.Text

/-- The code points of the digit zero; the digits one to nine follow each of them. -/
def zeroDigits : List Nat :=
  [0x30, 0x660, 0x6F0, 0x7C0, 0x966, 0x9E6, 0xA66, 0xAE6, 0xB66, 0xBE6, 0xC66, 0xCE6, 0xD66, 0xDE6,
   0xE50, 0xED0, 0xF20, 0x1040, 0x1090, 0x17E0, 0x1810, 0x1946, 0x19D0, 0x1A80, 0x1A90, 0x1B50,
   0x1BB0, 0x1C40, 0x1C50, 0xA620, 0xA8D0, 0xA900, 0xA9D0, 0xA9F0, 0xAA50, 0xABF0, 0xFF10, 0x104A0,
   0x10D30, 0x11066, 0x110F0, 0x11136, 0x111D0, 0x112F0, 0x11450, 0x114D0, 0x11650, 0x116C0,
   0x11730, 0x118E0, 0x11950, 0x11C50, 0x11D50, 0x11DA0, 0x16A60, 0x16AC0, 0x16B50, 0x1D7CE,
   0x1D7D8, 0x1D7E2, 0x1D7EC, 0x1D7F6, 0x1E140, 0x1E2F0, 0x1E950, 0x1FBF0]

/-- The value of a decimal digit. -/
def digitValue? (c : Char) : Option Nat :=
  zeroDigits.findSome? fun start =>
    if start ≤ c.toNat ∧ c.toNat < start + 10 then some (c.toNat - start) else none

def isDecimalDigit (c : Char) : Bool := (digitValue? c).isSome

/-- A blank that may stand around an integer. -/
def isNumberBlank (c : Char) : Bool :=
  isBlank c && !(0x1C ≤ c.toNat && c.toNat ≤ 0x1F)

/-- The most digits of a text that is read as an integer. Integers that are written have no such limit
here: those in labels are positions in a list, and none is that long. -/
def maxDigits : Nat := 4300

/-- The values of digits with single underscores between them. -/
def digitValues? : List Char → Option (List Nat)
  | [] => none
  | [c] => (digitValue? c).map ([·])
  | c :: '_' :: rest => do return (← digitValue? c) :: (← digitValues? rest)
  | c :: rest => do return (← digitValue? c) :: (← digitValues? rest)

/-- The number that digits write, first digit first. -/
def ofDigits (digits : List Nat) : Nat :=
  digits.foldl (fun value digit => 10 * value + digit) 0

def natural? (text : List Char) : Option Nat := do
  let digits ← digitValues? text
  if digits.length ≤ maxDigits then some (ofDigits digits) else none

/-- The integer that a text writes. -/
def integer? (text : String) : Option Int :=
  let trimmed := ((text.toList.dropWhile isNumberBlank).reverse.dropWhile isNumberBlank).reverse
  match trimmed with
  | '-' :: digits => (natural? digits).map fun value => -(value : Int)
  | '+' :: digits => (natural? digits).map Int.ofNat
  | digits => (natural? digits).map Int.ofNat

/-- Digits after a minus sign, perhaps with a point among them and digits behind it. One line feed
may follow. -/
def isNegativeNumber (text : String) : Bool :=
  match withoutFinalFeed text.toList with
  | '-' :: number =>
    match number.dropWhile isDecimalDigit with
    | [] => !number.isEmpty
    | '.' :: fraction => !fraction.isEmpty && fraction.all isDecimalDigit
    | _ => false
  | _ => false

end Determinizer.Text
