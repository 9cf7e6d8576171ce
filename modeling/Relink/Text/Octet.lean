import Relink.Text

/-!
# Octets

Bytes that are no UTF-8 still have to pass through texts: through the names of files, the arguments
of programs and what programs print. Each stands there as a carrier, one of the last characters for
private use; such a character itself is written as the carriers of its bytes. A text with carriers is
turned into bytes and back without a loss; for messages, what is no UTF-8 is replaced.
-/

set_option autoImplicit false

namespace Relink.Octet

/-! ## Carriers -/

/-- The character that the carrier of the byte zero would be. -/
def firstCarrier : Nat := 0x10FF00

/-- The character that a byte from outside ASCII is carried by. -/
def carrier (byte : UInt8) : Char := Char.ofNat (firstCarrier + byte.toNat)

/-- The byte that a character carries, if it is a carrier. -/
def carried? (c : Char) : Option UInt8 :=
  if firstCarrier + 0x80 ≤ c.toNat then some (UInt8.ofNat (c.toNat - firstCarrier)) else none

/-- The bytes of a character: the one that it carries, or those of its encoding. -/
def bytesOfChar (c : Char) : List UInt8 :=
  match carried? c with
  | some byte => [byte]
  | none => String.utf8EncodeChar c

/-- The bytes of a text, carriers being the bytes that they carry. -/
def bytesOf (text : Text) : List UInt8 := text.flatMap bytesOfChar

@[simp] theorem bytesOf_append (left right : Text) :
    bytesOf (left ++ right) = bytesOf left ++ bytesOf right := List.flatMap_append

/-- Length in bytes. -/
def size (text : Text) : Nat := (bytesOf text).length

@[simp] theorem size_append (left right : Text) : size (left ++ right) = size left + size right := by
  simp [size]

/-- Order of the bytes. Where different texts have the same bytes, their characters decide. -/
def before (left right : Text) : Bool :=
  if bytesOf left = bytesOf right then Text.before left right
  else decide (bytesOf left < bytesOf right)

/-! ## Reading bytes -/

/-- The number of bytes of the character that a first byte starts, and the second bytes that may
follow it. None if no character starts so. -/
def shape? (byte : UInt8) : Option (Nat × UInt8 × UInt8) :=
  if byte < 0x80 then some (1, 0x80, 0xBF)
  else if byte < 0xC2 then none
  else if byte < 0xE0 then some (2, 0x80, 0xBF)
  else if byte = 0xE0 then some (3, 0xA0, 0xBF)
  else if byte = 0xED then some (3, 0x80, 0x9F)
  else if byte < 0xF0 then some (3, 0x80, 0xBF)
  else if byte = 0xF0 then some (4, 0x90, 0xBF)
  else if byte < 0xF4 then some (4, 0x80, 0xBF)
  else if byte = 0xF4 then some (4, 0x80, 0x8F)
  else none

/-- Whether a byte can stand within a character. -/
def continues (byte : UInt8) : Bool := 0x80 ≤ byte && byte ≤ 0xBF

/-- The bytes behind a first one that belong to its character, of which there may be fewer than it
asks for. -/
def following (size : Nat) (least greatest : UInt8) (rest : List UInt8) : List UInt8 :=
  match rest with
  | second :: others =>
    if 2 ≤ size && least ≤ second && second ≤ greatest then
      second :: (others.take (size - 2)).takeWhile continues
    else []
  | [] => []

/-- The number that a first byte and the bytes behind it encode. -/
def codeOf (byte : UInt8) (behind : List UInt8) : Nat :=
  let front :=
    match behind.length with
    | 0 => byte.toNat
    | 1 => byte.toNat - 0xC0
    | 2 => byte.toNat - 0xE0
    | _ => byte.toNat - 0xF0
  behind.foldl (fun sum next => sum * 64 + (next.toNat - 0x80)) front

/-- What stands at the front of bytes: a character, or bytes that need carriers. Those are one byte,
several if a character is cut off, and four for a character that is a carrier itself. -/
structure Front where
  char? : Option Char
  bytes : List UInt8

/-- The front of bytes that start with the given one. -/
def frontOf (byte : UInt8) (rest : List UInt8) : Front :=
  match shape? byte with
  | none => ⟨none, [byte]⟩
  | some (size, least, greatest) =>
    let behind := following size least greatest rest
    let found := Char.ofNat (codeOf byte behind)
    ⟨if behind.length + 1 = size && (carried? found).isNone then some found else none,
      byte :: behind⟩

/-- The text of bytes, with something else in place of what is no UTF-8. At most one front is taken
for each byte. -/
def decodeWith (replace : List UInt8 → Text) : Nat → List UInt8 → Text
  | 0, _ => []
  | _, [] => []
  | fuel + 1, byte :: rest =>
    let front := frontOf byte rest
    let shown := match front.char? with
      | some c => [c]
      | none => replace front.bytes
    shown ++ decodeWith replace fuel (rest.drop (front.bytes.length - 1))

/-- The text of bytes, with carriers for those that are no UTF-8. -/
def textOf (bytes : List UInt8) : Text :=
  decodeWith (fun found => found.map carrier) bytes.length bytes

/-- The bytes of a text in which no character is a carrier yet. -/
def encode (text : Text) : List UInt8 := text.flatMap String.utf8EncodeChar

/-- The characters that a text without carriers consists of, or that the bytes of another one encode.
None if those are no UTF-8. -/
def unicode? (text : Text) : Option Text :=
  if text.all fun c => (carried? c).isNone then some text
  else (bytesOf text).toByteArray.utf8Decode?.map Array.toList

/-- What a message shows for bytes that need carriers: the character, if they are one. -/
def shownFor (bytes : List UInt8) : Text :=
  match bytes with
  | [first, _, _, _] => [Char.ofNat (codeOf first bytes.tail)]
  | _ => ['\uFFFD']

/-- A text with carriers as a message: one character stands for all bytes of a character that is cut
off, and for each byte that no character starts with. -/
def message (text : Text) : Text :=
  if text.all fun c => (carried? c).isNone then text
  else
    let bytes := bytesOf text
    decodeWith shownFor bytes.length bytes

end Relink.Octet
