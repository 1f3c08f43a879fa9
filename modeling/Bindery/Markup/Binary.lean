/-
  BINARY TEXTS: bytes in base 64.

  Four letters of the alphabet stand for three bytes.  Other characters are passed over.  Equals
  signs fill up the last four letters; with enough of them the bytes end, whatever follows.  A text
  that stops inside four letters stands for nothing.
-/

namespace Bindery.Markup.Binary

/-- The value of a letter of the alphabet. -/
def sextet? (c : Char) : Option Nat :=
  if 'A' ≤ c && c ≤ 'Z' then some (c.toNat - 0x41)
  else if 'a' ≤ c && c ≤ 'z' then some (c.toNat - 0x61 + 26)
  else if c.isDigit then some (c.toNat - 0x30 + 52)
  else if c == '+' then some 62
  else if c == '/' then some 63
  else none

/-- The bytes of a text behind `count` letters of four, the last of which left over the bits
`rest`; `fills` is how many equals signs there were since. -/
def decodeFrom (count rest fills : Nat) : List Char → Option (List UInt8)
  | [] => if count = 0 then some [] else none
  | c :: s =>
    if c = '=' then
      if 2 ≤ count then
        if 4 ≤ count + fills + 1 then some [] else decodeFrom count rest (fills + 1) s
      else decodeFrom count rest fills s
    else
      match sextet? c with
      | none => decodeFrom count rest fills s
      | some n =>
        match count with
        | 0 => decodeFrom 1 n 0 s
        | 1 => (decodeFrom 2 (n % 16) 0 s).map ((rest * 4 + n / 16).toUInt8 :: ·)
        | 2 => (decodeFrom 3 (n % 4) 0 s).map ((rest * 16 + n / 4).toUInt8 :: ·)
        | _ => (decodeFrom 0 0 0 s).map ((rest * 64 + n).toUInt8 :: ·)

/-- The bytes that a text stands for. -/
def decode (s : List Char) : Option (List UInt8) := decodeFrom 0 0 0 s

end Bindery.Markup.Binary
