/-!
# UTF-8

Texts as bytes, and the number of bytes that the first byte of a character announces.
-/

namespace Befunge.Text.Utf8

def encode (s : List Char) : List UInt8 := s.flatMap String.utf8EncodeChar

/-- The text that the bytes are the well-formed encoding of. -/
def decode? (bytes : List UInt8) : Option (List Char) :=
  bytes.toByteArray.utf8Decode?.map Array.toList

/-- The length of a character's encoding, read off its first byte. The bytes `C0`, `C1` and those
above `F4` start no character, and neither do the continuation bytes `80` to `BF`. -/
def length? (lead : UInt8) : Option Nat :=
  if lead ≤ 0x7F then some 1
  else if 0xC2 ≤ lead ∧ lead ≤ 0xDF then some 2
  else if 0xE0 ≤ lead ∧ lead ≤ 0xEF then some 3
  else if 0xF0 ≤ lead ∧ lead ≤ 0xF4 then some 4
  else none

@[simp] theorem encode_nil : encode [] = [] := rfl

@[simp] theorem encode_cons (c : Char) (s : List Char) :
    encode (c :: s) = String.utf8EncodeChar c ++ encode s := rfl

theorem encode_append (s t : List Char) : encode (s ++ t) = encode s ++ encode t := by
  simp [encode]

theorem decode?_encode (s : List Char) : decode? (encode s) = some s := by
  have h := List.utf8Decode?_utf8Encode (l := s)
  simp only [List.utf8Encode] at h
  simp [decode?, encode, h]

end Befunge.Text.Utf8
