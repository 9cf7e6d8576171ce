import Relink.Script.Arithmetic
import Relink.Script.Decimal

/-!
# Formats

What `echo` and `printf` print: escapes behind a backslash, and directives that arguments fill.
-/

set_option autoImplicit false

namespace Relink.Script.Format

/-! ## Escapes -/

def isOctal (c : Char) : Bool := '0' ≤ c && c ≤ '7'

def letter? : Char → Option Char
  | 'a' => some '\x07'
  | 'b' => some '\x08'
  | 'e' => some '\x1b'
  | 'f' => some '\x0c'
  | 'n' => some '\n'
  | 'r' => some '\r'
  | 't' => some '\t'
  | 'v' => some '\x0b'
  | '\\' => some '\\'
  | _ => none

/-- The byte that octal digits are, as a character. -/
def octal (digits : Text) : Char :=
  let value := digits.foldl (fun sum c => sum * 8 + (c.toNat - '0'.toNat)) 0 % 256
  if value < 0x80 then Char.ofNat value else Octet.carrier (UInt8.ofNat value)

/-- The character that an escape stands for, from after its backslash. One that means nothing leaves
the backslash. -/
def escape (rest : Text) : Char × Text :=
  match rest with
  | [] => ('\\', [])
  | c :: others =>
    if isOctal c then
      let digits := (rest.take 3).takeWhile isOctal
      (octal digits, rest.drop digits.length)
    else
      match letter? c with
      | some meant => (meant, others)
      | none => ('\\', rest)

/-- A text with its escapes replaced, and whether it goes on behind: `\c` ends all output. At most
one character is made for each. -/
def unescape : Nat → Text → Text × Bool
  | 0, _ => ([], true)
  | _, [] => ([], true)
  | fuel + 1, '\\' :: rest =>
    match rest with
    | 'c' :: _ => ([], false)
    | '0' :: d :: others =>
      let found := escape (if isOctal d then d :: others else '0' :: d :: others)
      let more := unescape fuel found.2
      (found.1 :: more.1, more.2)
    | _ =>
      let found := escape rest
      let more := unescape fuel found.2
      (found.1 :: more.1, more.2)
  | fuel + 1, c :: rest =>
    let more := unescape fuel rest
    (c :: more.1, more.2)

/-- What `echo` prints. -/
def echo (arguments : List Text) : Text :=
  let silent := arguments.head? == some ['-', 'n']
  let shown := if silent then arguments.drop 1 else arguments
  let joined := Text.joinWith [' '] shown
  let found := unescape (joined.length + 1) joined
  found.1 ++ (if found.2 && !silent then ['\n'] else [])

/-! ## Directives -/

/-- How a directive lays out what it prints. -/
structure Layout where
  leftward : Bool
  zeros : Bool
  plus : Bool
  space : Bool
  alternative : Bool
  width : Nat
  precision : Option Nat

def Layout.fill (layout : Layout) (text : Text) : Text :=
  let missing := layout.width - (Octet.bytesOf text).length
  if layout.leftward then text ++ List.replicate missing ' '
  else List.replicate missing ' ' ++ text

/-- Digits with a sign or a mark before them, filled up to a width. -/
def Layout.fillNumber (layout : Layout) (sign digits : Text) : Text :=
  let least := layout.precision.getD 1
  let shown := List.replicate (least - digits.length) '0' ++ digits
  let missing := layout.width - (sign.length + shown.length)
  if layout.zeros && !layout.leftward && layout.precision.isNone then
    sign ++ List.replicate missing '0' ++ shown
  else layout.fill (sign ++ shown)

/-- What is printed so far, with the arguments left. -/
structure Printing where
  text : Text
  arguments : List Text
  complaints : List Text
  /-- Whether all output is ended. -/
  ended : Bool
  /-- Whether any argument was asked for. -/
  used : Bool
  /-- A complaint after which nothing more is printed. -/
  fault : Option Text

def Printing.add (printing : Printing) (text : Text) : Printing :=
  { printing with text := printing.text ++ text }

/-- The next argument, if there is one. -/
def Printing.next (printing : Printing) : Option Text × Printing :=
  (printing.arguments.head?,
    { printing with arguments := printing.arguments.drop 1, used := true })

/-- The integer that an argument is. What is wrong with it is complained about. -/
def Printing.integer (printing : Printing) : Int × Printing :=
  match printing.next with
  | (none, after) => (0, after)
  | (some argument, after) =>
    match argument with
    | '\x22' :: rest | '\x27' :: rest =>
      (((Octet.bytesOf rest).head?.getD 0).toNat, after)
    | _ =>
      let bare := argument.dropWhile Arithmetic.isSpace
      let sign : Int := if bare.head? = some '-' then -1 else 1
      let digits := if bare.head? = some '-' || bare.head? = some '+' then bare.drop 1 else bare
      if argument.isEmpty then (0, after)
      else if digits.head?.any Char.isDigit then
        let found := Arithmetic.number digits
        if found.2.isEmpty then (sign * found.1, after)
        else
          (sign * found.1, { after with
            complaints := after.complaints ++ [argument ++ ": not completely converted".toList] })
      else
        (0, { after with
          complaints := after.complaints ++ [argument ++ ": expected numeric value".toList] })

/-- The number that an argument is. What is wrong with it is complained about. -/
def Printing.magnitude (printing : Printing) : Magnitude × Printing :=
  let zero : Magnitude := ⟨false, 0, 1⟩
  match printing.next with
  | (none, after) => (zero, after)
  | (some argument, after) =>
    match argument, Magnitude.read? (argument.dropWhile Arithmetic.isSpace) with
    | [], _ => (zero, after)
    | _, some (value, []) => (value, after)
    | _, some (value, _) =>
      (value, { after with
        complaints := after.complaints ++ [argument ++ ": not completely converted".toList] })
    | _, none =>
      (zero, { after with
        complaints := after.complaints ++ [argument ++ ": expected numeric value".toList] })

def digitsOf (base value : Nat) (upper : Bool) : Text :=
  let digits := Nat.toDigits base value
  if upper then digits.map Char.toUpper else digits

/-- The bits of an integer as a number without a sign. -/
def unsigned (value : Int) : Nat := (Arithmetic.bits value).toNat

def directive (layout : Layout) (c : Char) (shown : Text) (printing : Printing) : Printing :=
  let firstBytes (count : Nat) (text : Text) : Text :=
    Octet.textOf ((Octet.bytesOf text).take count)
  let cutTo (text : Text) : Text :=
    (layout.precision.map fun count => firstBytes count text).getD text
  match c with
  | 's' =>
    let found := printing.next
    found.2.add (layout.fill (cutTo (found.1.getD [])))
  | 'b' =>
    let found := printing.next
    let argument := found.1.getD []
    let plain := unescape (argument.length + 1) argument
    { found.2.add (layout.fill (cutTo plain.1)) with ended := !plain.2 }
  | 'c' =>
    let found := printing.next
    let argument := found.1.getD []
    found.2.add (layout.fill (if argument.isEmpty then ['\x00'] else firstBytes 1 argument))
  | 'd' | 'i' =>
    let (value, after) := printing.integer
    let sign := if value < 0 then ['-'] else if layout.plus then ['+']
      else if layout.space then [' '] else []
    after.add (layout.fillNumber sign (Text.ofNat value.natAbs))
  | 'u' =>
    let (value, after) := printing.integer
    after.add (layout.fillNumber [] (Text.ofNat (unsigned value)))
  | 'o' =>
    let (value, after) := printing.integer
    after.add (layout.fillNumber (if layout.alternative then ['0'] else [])
      (digitsOf 8 (unsigned value) false))
  | 'x' | 'X' =>
    let (value, after) := printing.integer
    after.add (layout.fillNumber (if layout.alternative then ['0', c] else [])
      (digitsOf 16 (unsigned value) (c == 'X')))
  | 'f' | 'F' | 'e' | 'E' | 'g' | 'G' =>
    let (value, after) := printing.magnitude
    let sign := if value.negative then ['-'] else if layout.plus then ['+']
      else if layout.space then [' '] else []
    let places := layout.precision.getD 6
    let digits :=
      if c = 'f' || c = 'F' then value.fixed places layout.alternative
      else if c = 'e' || c = 'E' then value.exponential places layout.alternative c
      else value.general places layout.alternative (if c = 'g' then 'e' else 'E')
    after.add ({ layout with precision := none }.fillNumber sign digits)
  | _ => { printing with fault := some (shown ++ ": invalid directive".toList) }

/-- A width or a precision: digits, or a star that takes an argument. -/
def measure (text : Text) (printing : Printing) : Option Int × Text × Printing :=
  match text with
  | '*' :: rest =>
    let (value, after) := printing.integer
    (some value, rest, after)
  | _ =>
    let digits := text.takeWhile Char.isDigit
    (if digits.isEmpty then none else some (Arithmetic.ofDigits 10 digits),
      text.drop digits.length, printing)

/-- Prints the directive that is at the front of a text, from after its percent sign. -/
def readDirective (text : Text) (printing : Printing) : Printing × Text :=
  let flags := text.takeWhile fun c => "#-+ 0".toList.contains c
  let (width, afterWidth, sized) := measure (text.drop flags.length) printing
  let (precision, rest, ready) :=
    match afterWidth with
    | '.' :: others =>
      let (found, behind, after) := measure others sized
      (some (found.getD 0), behind, after)
    | _ => (none, afterWidth, sized)
  let layout : Layout :=
    { leftward := flags.contains '-' || width.any (· < 0), zeros := flags.contains '0'
      plus := flags.contains '+', space := flags.contains ' '
      alternative := flags.contains '#', width := (width.getD 0).natAbs
      precision := precision.map Int.toNat }
  match rest with
  | [] => ({ ready with fault := some "missing format character".toList }, [])
  | c :: others =>
    let shown := '%' :: text.take (text.length - others.length)
    (directive layout c shown ready, others)

/-- Prints a format once. -/
def once : Nat → Text → Printing → Printing
  | 0, _, printing => printing
  | _, [], printing => printing
  | fuel + 1, c :: rest, printing =>
    if printing.ended || printing.fault.isSome then printing
    else if c = '\\' then
      let found := escape rest
      once fuel found.2 (printing.add [found.1])
    else if c = '%' then
      match rest with
      | '%' :: others => once fuel others (printing.add ['%'])
      | _ =>
        let found := readDirective rest printing
        once fuel found.2 found.1
    else once fuel rest (printing.add [c])

/-- Prints a format, and again while it uses up arguments. -/
def rounds (template : Text) : Nat → Printing → Printing
  | 0, printing => printing
  | fuel + 1, printing =>
    let after := once (template.length + 1) template printing
    if after.ended || after.fault.isSome || after.arguments.isEmpty ||
        after.arguments.length = printing.arguments.length then after
    else rounds template fuel after

def print (template : Text) (arguments : List Text) : Printing :=
  rounds template (arguments.length + 1) ⟨[], arguments, [], false, false, none⟩

end Relink.Script.Format
