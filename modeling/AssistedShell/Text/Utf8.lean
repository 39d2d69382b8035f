/-! Bytes read as text. Bytes that are no UTF-8 text read with one replacement
character for each maximal part that no character starts with; a text is cut to
a number of bytes at a character boundary. -/

namespace AssistedShell.Text

/-- U+FFFD, read where no character can be. -/
def replacement : Char := Char.ofNat 0xFFFD

/-- The six low bits of a continuation byte, if it is one between `lo` and `hi`. -/
def continuation (lo hi : UInt8) (b : UInt8) : Option Nat :=
  if lo ≤ b && b ≤ hi then some (b.toNat - 0x80) else none

/-- The number of continuation bytes that follow a first byte and the bounds of the next one. -/
def lead (b : UInt8) : Option (Nat × UInt8 × UInt8) :=
  if 0xC2 ≤ b && b ≤ 0xDF then some (1, 0x80, 0xBF)
  else if b == 0xE0 then some (2, 0xA0, 0xBF)
  else if b == 0xED then some (2, 0x80, 0x9F)
  else if 0xE1 ≤ b && b ≤ 0xEF then some (2, 0x80, 0xBF)
  else if b == 0xF0 then some (3, 0x90, 0xBF)
  else if 0xF1 ≤ b && b ≤ 0xF3 then some (3, 0x80, 0xBF)
  else if b == 0xF4 then some (3, 0x80, 0x8F)
  else none

/-- The value bits of a first byte that `n` continuation bytes follow. -/
def leadBits (n : Nat) (b : UInt8) : Nat :=
  match n with
  | 1 => b.toNat - 0xC0
  | 2 => b.toNat - 0xE0
  | _ => b.toNat - 0xF0

/-- Reads bytes with `owed` continuation bytes still to come, the next of them between `lo`
and `hi`; `acc` holds the value bits so far. -/
def decodeFrom (owed : Nat) (lo hi : UInt8) (acc : Nat) : List UInt8 → List Char
  | [] => if owed = 0 then [] else [replacement]
  | b :: r =>
    match owed with
    | 0 => start b r
    | k + 1 =>
      match continuation lo hi b with
      | none => replacement :: start b r
      | some v =>
        let acc := acc * 64 + v
        if k = 0 then Char.ofNat acc :: decodeFrom 0 0 0 0 r
        else decodeFrom k 0x80 0xBF acc r
where
  /-- Reads on at a byte that begins a character. -/
  start (b : UInt8) (r : List UInt8) : List Char :=
    if b < 0x80 then Char.ofNat b.toNat :: decodeFrom 0 0 0 0 r
    else
      match lead b with
      | none => replacement :: decodeFrom 0 0 0 0 r
      | some (n, lo, hi) => decodeFrom n lo hi (leadBits n b) r

/-- Any bytes as text. -/
def decodeLossy (bytes : ByteArray) : String :=
  match String.fromUTF8? bytes with
  | some s => s
  | none => String.ofList (decodeFrom 0 0 0 0 bytes.toList)

/-- The longest run of whole characters at the front that fits into `budget` bytes. -/
def takeBytes (budget : Nat) : List Char → List Char
  | [] => []
  | c :: r => if c.utf8Size ≤ budget then c :: takeBytes (budget - c.utf8Size) r else []

/-- A text cut to at most `budget` bytes at a character boundary. -/
def cut (budget : Nat) (s : String) : String := String.ofList (takeBytes budget s.toList)

/-- Joins two runs of bytes. -/
def appendUtf8 (bytes : ByteArray) (s : String) : ByteArray := bytes ++ s.toUTF8

end AssistedShell.Text
