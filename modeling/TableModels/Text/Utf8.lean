import TableModels.Text.Quoted

/-! Text in bytes. Decoding stops at the first bytes that encode no character and says which they are. -/

namespace TableModels.Text

inductive DecodeReason where
  | badStart
  | badContinuation
  | endsEarly
  deriving DecidableEq, Repr

def DecodeReason.text : DecodeReason → String
  | .badStart => "invalid start byte"
  | .badContinuation => "invalid continuation byte"
  | .endsEarly => "unexpected end of data"

/-- The bytes that encode no character: the first of them, where it stands, and how many they are. -/
structure DecodeFault where
  byte : UInt8
  position : Nat
  count : Nat
  reason : DecodeReason
  deriving DecidableEq, Repr

def DecodeFault.message (fault : DecodeFault) : String :=
  let place :=
    if fault.count == 1 then
      s!"byte 0x{String.ofList (hexDigits 2 fault.byte.toNat)} in position {fault.position}"
    else s!"bytes in position {fault.position}-{fault.position + fault.count - 1}"
  s!"'utf-8' codec can't decode {place}: {fault.reason.text}"

/-- What the first byte of a character tells: the bits it brings, how many bytes follow, and the range
of the next one. -/
structure Lead where
  bits : Nat
  following : Nat
  low : Nat := 0x80
  high : Nat := 0xBF

def lead? (byte : Nat) : Option Lead :=
  if 0xC2 ≤ byte && byte ≤ 0xDF then some { bits := byte - 0xC0, following := 1 }
  else if byte == 0xE0 then some { bits := 0, following := 2, low := 0xA0 }
  else if byte == 0xED then some { bits := 0xD, following := 2, high := 0x9F }
  else if 0xE1 ≤ byte && byte ≤ 0xEF then some { bits := byte - 0xE0, following := 2 }
  else if byte == 0xF0 then some { bits := 0, following := 3, low := 0x90 }
  else if 0xF1 ≤ byte && byte ≤ 0xF3 then some { bits := byte - 0xF0, following := 3 }
  else if byte == 0xF4 then some { bits := 4, following := 3, high := 0x8F }
  else none

/-- Reads the bytes after the first of a character. `read` counts the bytes so far. -/
def continueChar : Nat → Nat → Nat → Nat → Nat → List UInt8 → Except (Nat × DecodeReason) (Nat × List UInt8)
  | 0, _, _, _, code, rest => .ok (code, rest)
  | _ + 1, read, _, _, _, [] => .error (read, .endsEarly)
  | missing + 1, read, low, high, code, byte :: rest =>
    if byte.toNat < low || high < byte.toNat then .error (read, .badContinuation)
    else continueChar missing (read + 1) 0x80 0xBF (code * 0x40 + (byte.toNat - 0x80)) rest

/-- One character at the start of some bytes. -/
def decodeChar (byte : UInt8) (rest : List UInt8) : Except (Nat × DecodeReason) (Char × List UInt8) :=
  if byte.toNat < 0x80 then .ok (Char.ofNat byte.toNat, rest)
  else match lead? byte.toNat with
    | none => .error (1, .badStart)
    | some lead => (continueChar lead.following 1 lead.low lead.high lead.bits rest).map fun (code, rest) =>
      (Char.ofNat code, rest)

def decodeFrom : Nat → Nat → List UInt8 → Except DecodeFault (List Char)
  | _, _, [] => .ok []
  | 0, _, _ => .ok []
  | fuel + 1, position, byte :: rest =>
    match decodeChar byte rest with
    | .error (count, reason) => .error { byte, position, count, reason }
    | .ok (c, after) => (decodeFrom fuel (position + (rest.length + 1 - after.length)) after).map (c :: ·)

def decode (bytes : List UInt8) : Except DecodeFault String :=
  (decodeFrom bytes.length 0 bytes).map String.ofList

end TableModels.Text
