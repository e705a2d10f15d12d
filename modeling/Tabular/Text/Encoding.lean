/-!
# Reading UTF-8

Bytes are read as characters where they are well-formed UTF-8. A byte that begins no well-formed
character is kept, marked by `none` in front of the character of its number, so that a reader can say
which part of its input is damaged. Bytes that are damaged where they stand may still be well-formed
once what stood between them is gone.
-/
namespace Tabular.Text

/-- The characters of `bytes` from position `i` on, with a mark in front of each damaged byte. -/
def decodeFrom (bytes : ByteArray) (i : Nat) : List (Option Char) :=
  if _h : i < bytes.size then
    match bytes.utf8DecodeChar? i with
    | some c => some c :: decodeFrom bytes (i + c.utf8Size)
    | none => none :: some (Char.ofNat bytes[i].toNat) :: decodeFrom bytes (i + 1)
  else []
termination_by bytes.size - i
decreasing_by
  · have := c.utf8Size_pos; omega
  · omega

/-- The characters of `bytes`, with a mark in front of each damaged byte. -/
def decode (bytes : ByteArray) : List (Option Char) := decodeFrom bytes 0

def bytesOf : List (Option Char) → List UInt8
  | [] => []
  | some c :: rest => String.utf8EncodeChar c ++ bytesOf rest
  | none :: some byte :: rest => byte.toNat.toUInt8 :: bytesOf rest
  | none :: rest => bytesOf rest

/-- The text, if no byte is damaged, or none is once all of them stand together. -/
def text? (characters : List (Option Char)) : Option (List Char) :=
  match characters.mapM id with
  | some cs => some cs
  | none => (decode (bytesOf characters).toByteArray).mapM id

end Tabular.Text
