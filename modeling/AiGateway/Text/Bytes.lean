import Mathlib.Data.UInt

/-! Byte strings: replacing, and the octets of UTF-8. -/
namespace Text

abbrev Bytes := List UInt8

/-- The octets of a text of ASCII characters. -/
def ascii (s : String) : Bytes := s.toList.map fun c => c.toNat.toUInt8

def lf : UInt8 := 0x0a

def cr : UInt8 := 0x0d

/-! `bytes.ReplaceAll` of a non-empty text. -/

/-- The first `skip` octets belong to an occurrence that is replaced already. -/
def replaceFrom (old new : Bytes) : ℕ → Bytes → Bytes
  | _, [] => []
  | skip + 1, _ :: rest => replaceFrom old new skip rest
  | 0, b :: rest =>
      if old.isPrefixOf (b :: rest) then new ++ replaceFrom old new (old.length - 1) rest
      else b :: replaceFrom old new 0 rest

def replaceAll (old new s : Bytes) : Bytes := replaceFrom old new 0 s

/-! `utf8.Valid` -/

/-- The continuation octets that a character still needs, and the bounds of the first of them. -/
structure Owed where
  count : ℕ
  low : UInt8 := 0x80
  high : UInt8 := 0xbf

def leadOctet (b : UInt8) : Option Owed :=
  if b < 0x80 then some ⟨0,0x80,0xbf⟩
  else if b < 0xc2 then none
  else if b ≤ 0xdf then some ⟨1,0x80,0xbf⟩
  else if b = 0xe0 then some ⟨2,0xa0,0xbf⟩
  else if b = 0xed then some ⟨2,0x80,0x9f⟩
  else if b ≤ 0xef then some ⟨2,0x80,0xbf⟩
  else if b = 0xf0 then some ⟨3,0x90,0xbf⟩
  else if b ≤ 0xf3 then some ⟨3,0x80,0xbf⟩
  else if b = 0xf4 then some ⟨3,0x80,0x8f⟩
  else none

def utf8From : Owed → Bytes → Bool
  | owed, [] => owed.count = 0
  | owed, b :: rest => match owed.count with
    | 0 => match leadOctet b with
      | none => false
      | some owed => utf8From owed rest
    | count + 1 => owed.low ≤ b && b ≤ owed.high && utf8From ⟨count,0x80,0xbf⟩ rest

def utf8Valid (s : Bytes) : Bool := utf8From ⟨0,0x80,0xbf⟩ s

end Text
