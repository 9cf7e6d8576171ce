/-!
# Text

Module text, specifiers and names are lists of characters. Every offset of the library counts
UTF-8 bytes, so a text is measured and cut in bytes here.
-/

set_option autoImplicit false

namespace Relink

/-- The characters of a module, a specifier, a name or a message. -/
abbrev Text := List Char

namespace Text

/-- Length in UTF-8 bytes. -/
def size : Text → Nat
  | [] => 0
  | c :: rest => c.utf8Size + size rest

@[simp] theorem size_nil : size [] = 0 := rfl

@[simp] theorem size_cons (c : Char) (rest : Text) :
    size (c :: rest) = c.utf8Size + size rest := rfl

@[simp] theorem size_append (left right : Text) :
    size (left ++ right) = size left + size right := by
  induction left with
  | nil => simp
  | cons c rest ih => simp [ih, Nat.add_assoc]

/-- The longest leading part that fits into `count` bytes, and what follows it. Where `count` is a
character boundary the leading part has exactly that size. -/
def cut : Nat → Text → Text × Text
  | _, [] => ([], [])
  | count, c :: rest =>
    if c.utf8Size ≤ count then
      let parts := cut (count - c.utf8Size) rest
      (c :: parts.1, parts.2)
    else
      ([], c :: rest)

theorem cut_append (count : Nat) (text : Text) :
    (cut count text).1 ++ (cut count text).2 = text := by
  fun_induction cut count text <;> simp_all +zetaDelta

/-- The bytes `start..stop` of a text, or none unless both ends are character boundaries of it with
`start` at or before `stop`. -/
def slice? (text : Text) (start stop : Nat) : Option Text :=
  let front := cut start text
  let middle := cut (stop - start) front.2
  if start ≤ stop ∧ size front.1 = start ∧ size middle.1 = stop - start then some middle.1 else none

def containsPart (needle : Text) : Text → Bool
  | [] => needle.isEmpty
  | c :: rest => needle.isPrefixOf (c :: rest) || containsPart needle rest

def ofNat (n : Nat) : Text := (toString n).toList

/-- The parts between the separators; always one more than there are separators. -/
def splitOn (separator : Char) : Text → List Text
  | [] => [[]]
  | c :: rest =>
    if c = separator then
      [] :: splitOn separator rest
    else
      match splitOn separator rest with
      | [] => [[c]]
      | part :: parts => (c :: part) :: parts

def joinWith (separator : Text) : List Text → Text
  | [] => []
  | [part] => part
  | part :: parts => part ++ separator ++ joinWith separator parts

def endsWith (text suffix : Text) : Bool := suffix.isSuffixOf text

/-- A text less a final part, or none if it does not end so. -/
def dropEnd? (text suffix : Text) : Option Text :=
  if suffix.isSuffixOf text then some (text.take (text.length - suffix.length)) else none

/-- Order of the UTF-8 bytes, which is the order of the code points. -/
def before : Text → Text → Bool
  | [], [] => false
  | [], _ :: _ => true
  | _ :: _, [] => false
  | a :: left, b :: right => if a = b then before left right else a.val < b.val

end Text

end Relink
