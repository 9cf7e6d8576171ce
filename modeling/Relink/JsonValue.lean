import Relink.Text

/-!
# JSON values

The values that reports are made of, and their text: without blanks, the fields of an object in the
order in which they are given.
-/

set_option autoImplicit false

namespace Relink

/-- A JSON value. Numbers are natural. -/
inductive JsonValue where
  | null
  | bool (value : Bool)
  | number (value : Nat)
  | text (chars : Text)
  | array (items : List JsonValue)
  | object (fields : List (String × JsonValue))
deriving Inhabited

namespace JsonValue

/-! ## Building values -/

def string (value : String) : JsonValue := .text value.toList

/-- A value, or `null` in its place. -/
def optional {α : Type} (encode : α → JsonValue) : Option α → JsonValue
  | some value => encode value
  | none => .null

def listOf {α : Type} (encode : α → JsonValue) (values : List α) : JsonValue :=
  .array (values.map encode)

/-! ## Text -/

def hexDigit (n : Nat) : Char := Nat.digitChar (n % 16)

/-- How a character is written between quotes. Quotes, backslashes and control characters are
escaped, all others stand for themselves. -/
def escape (c : Char) : Text :=
  if c = '\x22' then ['\\', '\x22']
  else if c = '\\' then ['\\', '\\']
  else if c = '\n' then ['\\', 'n']
  else if c = '\r' then ['\\', 'r']
  else if c = '\t' then ['\\', 't']
  else if c = '\x08' then ['\\', 'b']
  else if c = '\x0c' then ['\\', 'f']
  else if c.toNat < 32 then ['\\', 'u', '0', '0', hexDigit (c.toNat / 16), hexDigit c.toNat]
  else [c]

def quote (chars : Text) : Text := '\x22' :: chars.flatMap escape ++ ['\x22']

def bracket (opening closing : Char) (parts : List Text) : Text :=
  opening :: Text.joinWith [','] parts ++ [closing]

mutual

def render : JsonValue → Text
  | .null => "null".toList
  | .bool true => "true".toList
  | .bool false => "false".toList
  | .number value => Text.ofNat value
  | .text chars => quote chars
  | .array items => bracket '[' ']' (renderItems items)
  | .object fields => bracket '\x7b' '\x7d' (renderFields fields)

def renderItems : List JsonValue → List Text
  | [] => []
  | item :: rest => render item :: renderItems rest

def renderFields : List (String × JsonValue) → List Text
  | [] => []
  | (name, value) :: rest => (quote name.toList ++ ':' :: render value) :: renderFields rest

end

end JsonValue

end Relink
