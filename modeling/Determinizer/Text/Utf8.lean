import Determinizer.Text.Quoted

/-! # Reading bytes as UTF-8

Bytes are decoded as a whole or refused with the place and the reason of the first fault. A faulty
sequence is reported up to its last byte that could still have continued it, so a truncated or
broken sequence of several bytes names a range of positions.
-/

namespace Determinizer.Text.Utf8

inductive FaultReason where
  | invalidStart
  | unexpectedEnd
  | invalidContinuation
  deriving DecidableEq, Repr, Inhabited

/-- A sequence of `length` bytes from `position` on, the first of which is `lead`. -/
structure Fault where
  lead : UInt8
  position : Nat
  length : Nat
  reason : FaultReason
  deriving DecidableEq, Repr, Inhabited

/-- A sequence that has begun: how many bytes it still owes and the bounds of the next one. -/
structure Pending where
  lead : UInt8
  position : Nat
  length : Nat
  owed : Nat
  low : UInt8
  high : UInt8

/-- How many bytes follow a first byte, and the bounds of the first of them. The bounds exclude
overlong forms, surrogates and code points above U+10FFFF. -/
def continuation? (lead : UInt8) : Option (Nat × UInt8 × UInt8) :=
  if lead < 0x80 then some (0, 0x80, 0xBF)
  else if lead < 0xC2 then none
  else if lead < 0xE0 then some (1, 0x80, 0xBF)
  else if lead == 0xE0 then some (2, 0xA0, 0xBF)
  else if lead == 0xED then some (2, 0x80, 0x9F)
  else if lead < 0xF0 then some (2, 0x80, 0xBF)
  else if lead == 0xF0 then some (3, 0x90, 0xBF)
  else if lead < 0xF4 then some (3, 0x80, 0xBF)
  else if lead == 0xF4 then some (3, 0x80, 0x8F)
  else none

def Pending.fault (pending : Pending) (reason : FaultReason) : Fault :=
  ⟨pending.lead, pending.position, pending.length, reason⟩

/-- The first fault of the bytes from `position` on, after the sequence that is `pending`. -/
def firstFault? (position : Nat) : Option Pending → List UInt8 → Option Fault
  | none, [] => none
  | some pending, [] => some (pending.fault .unexpectedEnd)
  | none, byte :: rest =>
    match continuation? byte with
    | none => some ⟨byte, position, 1, .invalidStart⟩
    | some (0, _, _) => firstFault? (position + 1) none rest
    | some (owed, low, high) =>
      firstFault? (position + 1) (some ⟨byte, position, 1, owed, low, high⟩) rest
  | some pending, byte :: rest =>
    if pending.low ≤ byte && byte ≤ pending.high then
      if pending.owed ≤ 1 then firstFault? (position + 1) none rest
      else
        firstFault? (position + 1)
          (some ⟨pending.lead, pending.position, pending.length + 1, pending.owed - 1, 0x80, 0xBF⟩)
          rest
    else some (pending.fault .invalidContinuation)

/-- The text that the bytes encode. -/
def decode (bytes : ByteArray) : Except Fault String :=
  if valid : bytes.IsValidUTF8 then .ok (String.fromUTF8 bytes valid)
  else .error ((firstFault? 0 none bytes.toList).getD default)

def FaultReason.message : FaultReason → String
  | .invalidStart => "invalid start byte"
  | .unexpectedEnd => "unexpected end of data"
  | .invalidContinuation => "invalid continuation byte"

def Fault.message (fault : Fault) : String :=
  let place :=
    if fault.length ≤ 1 then
      "byte 0x" ++ String.ofList (hexDigits 2 fault.lead.toNat) ++ " in position " ++
        toString fault.position
    else
      "bytes in position " ++ toString fault.position ++ "-" ++
        toString (fault.position + fault.length - 1)
  "'utf-8' codec can't decode " ++ place ++ ": " ++ fault.reason.message

/-- What a text encodes to is read as that text. -/
theorem decode_toUTF8 (text : String) : decode text.toUTF8 = .ok text := by
  have valid : text.toUTF8.IsValidUTF8 := text.isValidUTF8
  rw [decode, dif_pos valid]
  rfl

/-- Only what a text encodes to is read as that text. -/
theorem decode_eq_ok_iff {bytes : ByteArray} {text : String} :
    decode bytes = .ok text ↔ bytes = text.toUTF8 := by
  refine ⟨fun decoded => ?_, fun same => same ▸ decode_toUTF8 text⟩
  unfold decode at decoded
  split at decoded
  · cases decoded
    rfl
  · cases decoded

end Determinizer.Text.Utf8
