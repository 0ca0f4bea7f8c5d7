import ScriptPreprocessor.Text.Basic

namespace ScriptPreprocessor

/-!
# UTF-8

Files and assets are bytes; scripts are characters.  Reading never fails: every maximal part of
the bytes that cannot be continued to a character becomes one replacement character.  The reader
is a machine that eats one byte at a time, so a byte that breaks off a character is looked at
again as the possible beginning of the next one.
-/

abbrev Bytes := List UInt8

namespace Utf8

/-- A character that has begun but is not complete: the bits read so far, the number of bytes
still to come, and the range that the next byte must lie in.  The range excludes overlong forms,
surrogates and codes that are too large. -/
structure Begun where
  bits : Nat
  missing : Nat
  least : Nat
  greatest : Nat

def replacement : Char := Char.ofNat 0xFFFD

/-- The first byte of a character: the characters it completes, and the character it begins.  A byte
that can begin none is replaced alone, and what follows is looked at anew. -/
def first (byte : Nat) : Text × Option Begun :=
  if byte < 0x80 then ([Char.ofNat byte], none)
  else if 0xC2 ≤ byte && byte ≤ 0xDF then ([], some ⟨byte - 0xC0, 1, 0x80, 0xBF⟩)
  else if byte == 0xE0 then ([], some ⟨0, 2, 0xA0, 0xBF⟩)
  else if byte == 0xED then ([], some ⟨0xD, 2, 0x80, 0x9F⟩)
  else if 0xE1 ≤ byte && byte ≤ 0xEF then ([], some ⟨byte - 0xE0, 2, 0x80, 0xBF⟩)
  else if byte == 0xF0 then ([], some ⟨0, 3, 0x90, 0xBF⟩)
  else if 0xF1 ≤ byte && byte ≤ 0xF3 then ([], some ⟨byte - 0xF0, 3, 0x80, 0xBF⟩)
  else if byte == 0xF4 then ([], some ⟨4, 3, 0x80, 0x8F⟩)
  else ([replacement], none)

/-- One byte: the characters it completes, and the character that is begun after it. -/
def feed : Option Begun → Nat → Text × Option Begun
  | none, byte => first byte
  | some begun, byte =>
    if begun.least ≤ byte && byte ≤ begun.greatest then
      let bits := begun.bits * 64 + (byte - 0x80)
      if begun.missing ≤ 1 then ([Char.ofNat bits], none)
      else ([], some ⟨bits, begun.missing - 1, 0x80, 0xBF⟩)
    else
      let (text, next) := first byte
      (replacement :: text, next)

/-- Reading on from a character that may have begun.  One that is cut off by the end is replaced as
a whole. -/
def decodeFrom : Option Begun → Bytes → Text
  | none, [] => []
  | some _, [] => [replacement]
  | begun, byte :: rest =>
    let (text, next) := feed begun byte.toNat
    text ++ decodeFrom next rest

def decode (bytes : Bytes) : Text :=
  decodeFrom none bytes

def encodeCharacter (character : Char) : Bytes :=
  let code := character.toNat
  let tail (shift : Nat) : UInt8 := UInt8.ofNat (0x80 + code / shift % 64)
  if code < 0x80 then [UInt8.ofNat code]
  else if code < 0x800 then [UInt8.ofNat (0xC0 + code / 64), tail 1]
  else if code < 0x10000 then [UInt8.ofNat (0xE0 + code / 4096), tail 64, tail 1]
  else [UInt8.ofNat (0xF0 + code / 262144), tail 4096, tail 64, tail 1]

def encode (text : Text) : Bytes :=
  text.flatMap encodeCharacter

/-- Whether bytes are the encoding of a text, so that nothing is replaced when they are decoded.  A
text may hold the replacement character itself, which is why the bytes are compared. -/
def isValid (bytes : Bytes) : Bool :=
  encode (decode bytes) == bytes

end Utf8

end ScriptPreprocessor
