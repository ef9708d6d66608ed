import Lexis.Decimal
import Lexis.Text.Hex

/-!
Strict reading of UTF-8. The bytes are read one at a time; of a sequence that is not complete yet
it is known which bytes may come next, so overlong forms, surrogates and numbers beyond the last
code point are refused at their second byte. The first sequence that is not well formed is reported
with its place and with the bytes up to the one that spoils it.
-/

namespace Lexis.Text.Utf8

/-- What is wrong with a sequence of bytes. -/
inductive Flaw
  /-- No sequence starts with its byte. -/
  | start
  /-- Its bytes cannot be followed by the next byte. -/
  | continuation
  /-- The bytes end before it does. -/
  | ending
  deriving DecidableEq

/-- The flaw in words. -/
def Flaw.reason : Flaw → String
  | start => "invalid start byte"
  | continuation => "invalid continuation byte"
  | ending => "unexpected end of data"

/-- The first sequence that is not well formed: the number of bytes before it, its own bytes as far
as they can start a sequence, or the one that cannot, and the flaw. -/
structure Malformed where
  position : Nat
  first : UInt8
  others : List UInt8
  flaw : Flaw
  deriving DecidableEq

/-- The wording of the report: a single byte is shown, several are given by their places. -/
def Malformed.message (m : Malformed) : String :=
  let place := Decimal.ofNat m.position
  match m.others with
  | [] =>
    "'utf-8' codec can't decode byte 0x" ++
      String.ofList (Hex.fixed Hex.lower 2 m.first.toNat) ++ " in position " ++ place ++ ": " ++
      m.flaw.reason
  | others =>
    "'utf-8' codec can't decode bytes in position " ++ place ++ "-" ++
      Decimal.ofNat (m.position + others.length) ++ ": " ++ m.flaw.reason

/-- A sequence that lacks bytes. -/
structure Pending where
  first : UInt8
  /-- The bytes after the first, so far. -/
  others : List UInt8
  /-- The number that the bytes make up, so far. -/
  value : Nat
  /-- How many more bytes are needed after the next one. -/
  missing : Nat
  /-- The least byte that may come next. -/
  low : UInt8
  /-- The greatest byte that may come next. -/
  high : UInt8

/-- The sequence that a byte of the upper half starts, if it starts one. -/
def Pending.ofLead (b : UInt8) : Option Pending :=
  if b < 0xC2 then none
  else if b < 0xE0 then some ⟨b, [], b.toNat - 0xC0, 0, 0x80, 0xBF⟩
  else if b < 0xF0 then
    some ⟨b, [], b.toNat - 0xE0, 1, if b = 0xE0 then 0xA0 else 0x80, if b = 0xED then 0x9F else 0xBF⟩
  else if b < 0xF5 then
    some ⟨b, [], b.toNat - 0xF0, 2, if b = 0xF0 then 0x90 else 0x80, if b = 0xF4 then 0x8F else 0xBF⟩
  else none

/-- The number that the bytes make up with one more byte. -/
def Pending.valueWith (p : Pending) (b : UInt8) : Nat := p.value * 0x40 + (b.toNat - 0x80)

/-- The sequence after a byte that is not its last. -/
def Pending.extend (p : Pending) (b : UInt8) (missing : Nat) : Pending :=
  ⟨p.first, p.others ++ [b], p.valueWith b, missing, 0x80, 0xBF⟩

/-- The report on a sequence that goes no further. -/
def Pending.malformed (p : Pending) (position : Nat) (flaw : Flaw) : Malformed :=
  ⟨position, p.first, p.others, flaw⟩

/-- Reads bytes after `position` others, where a sequence that starts there may lack bytes. -/
def decodeFrom (position : Nat) : Option Pending → List UInt8 → Except Malformed (List Char)
  | none, [] => .ok []
  | some p, [] => .error (p.malformed position .ending)
  | none, b :: bytes =>
    if b < 0x80 then
      (decodeFrom (position + 1) none bytes).map (Char.ofNat b.toNat :: ·)
    else
      match Pending.ofLead b with
      | none => .error ⟨position, b, [], .start⟩
      | some p => decodeFrom position (some p) bytes
  | some p, b :: bytes =>
    if p.low ≤ b ∧ b ≤ p.high then
      match p.missing with
      | 0 =>
        (decodeFrom (position + p.others.length + 2) none bytes).map
          (Char.ofNat (p.valueWith b) :: ·)
      | missing + 1 => decodeFrom position (some (p.extend b missing)) bytes
    else .error (p.malformed position .continuation)

/-- The characters that the bytes stand for. -/
def decode (bytes : List UInt8) : Except Malformed (List Char) := decodeFrom 0 none bytes

end Lexis.Text.Utf8
