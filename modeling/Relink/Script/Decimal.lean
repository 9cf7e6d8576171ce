import Relink.Text

/-!
# Decimals

Binary floating point numbers as decimals with a given number of digits. The numbers are exact, so
that a tie is a tie, which goes to the even digit.
-/

set_option autoImplicit false

namespace Relink.Script

/-- A number that is a natural one divided by another, with a sign. -/
structure Magnitude where
  negative : Bool
  numerator : Nat
  denominator : Nat

namespace Magnitude

/-- A quotient rounded to the nearest integer, a tie to the even one. -/
def roundHalfEven (numerator denominator : Nat) : Nat :=
  let quotient := numerator / denominator
  let twice := 2 * (numerator % denominator)
  if denominator < twice || (twice = denominator && quotient % 2 = 1) then quotient + 1 else quotient

/-- The exact value of bits of a floating point number that is finite. -/
def ofBits (bits : UInt64) : Magnitude :=
  let exponent := (bits.toNat / Nat.pow 2 52) % Nat.pow 2 11
  let fraction := bits.toNat % Nat.pow 2 52
  let significand := if exponent = 0 then fraction else fraction + Nat.pow 2 52
  let power := max exponent 1
  ⟨Nat.pow 2 63 ≤ bits.toNat, significand * Nat.pow 2 (power - 1075), Nat.pow 2 (1075 - power)⟩

def withPoint (places : Nat) (pointed : Bool) (value : Nat) : Text :=
  let digits := Text.ofNat value
  let filled := List.replicate (places + 1 - digits.length) '0' ++ digits
  let whole := filled.take (filled.length - places)
  if places = 0 && !pointed then whole else whole ++ '.' :: filled.drop (filled.length - places)

def fixed (places : Nat) (pointed : Bool) (value : Magnitude) : Text :=
  withPoint places pointed (roundHalfEven (value.numerator * Nat.pow 10 places) value.denominator)

/-- A number times a power of ten, rounded. -/
def scaled (value : Magnitude) (power : Int) : Nat :=
  roundHalfEven (value.numerator * Nat.pow 10 power.toNat)
    (value.denominator * Nat.pow 10 (-power).toNat)

/-- The greatest power of ten that a number reaches; zero for the number zero. -/
def exponent (value : Magnitude) : Int :=
  if value.numerator = 0 then 0
  else
    let guess : Int := (Text.ofNat value.numerator).length - (Text.ofNat value.denominator).length
    let reaches : Bool :=
      value.denominator * Nat.pow 10 guess.toNat ≤ value.numerator * Nat.pow 10 (-guess).toNat
    if reaches then guess else guess - 1

/-- A number as digits, of which so many stand behind the first, and the power of ten of that. -/
def significant (places : Nat) (value : Magnitude) : Nat × Int :=
  let power := value.exponent
  let digits := value.scaled (places - power)
  if digits < Nat.pow 10 (places + 1) then (digits, power) else (digits / 10, power + 1)

def exponentMark (letter : Char) (power : Int) : Text :=
  let digits := Text.ofNat power.natAbs
  letter :: (if power < 0 then '-' else '+') :: List.replicate (2 - digits.length) '0' ++ digits

/-- A number with one digit before the point and a power of ten behind it. -/
def exponential (places : Nat) (pointed : Bool) (letter : Char) (value : Magnitude) : Text :=
  let (digits, power) := value.significant places
  withPoint places pointed digits ++ exponentMark letter power

/-- A number without the zeros at its end that stand behind the point. -/
def dropZeros (digits : Text) : Text :=
  if digits.contains '.' then
    let bare := digits.reverse.dropWhile (· == '0')
    (if bare.head? = some '.' then bare.drop 1 else bare).reverse
  else digits

/-- A number with so many digits, written in the shorter way. -/
def general (precision : Nat) (pointed : Bool) (letter : Char) (value : Magnitude) : Text :=
  let most := max precision 1
  let power := (value.significant (most - 1)).2
  let strip := fun digits : Text => if pointed then digits else dropZeros digits
  if -4 ≤ power && power < most then
    strip (value.fixed (most - 1 - power).toNat pointed)
  else
    let (digits, found) := value.significant (most - 1)
    strip (withPoint (most - 1) pointed digits) ++ exponentMark letter found

end Magnitude

/-! ## Reading -/

/-- The number at the front of a text, if there is one, and what follows it. -/
def Magnitude.read? (text : Text) : Option (Magnitude × Text) :=
  let negative := text.head? == some '-'
  let bare := if negative || text.head? == some '+' then text.drop 1 else text
  let whole := bare.takeWhile Char.isDigit
  let behind := bare.drop whole.length
  let part := if behind.head? = some '.' then (behind.drop 1).takeWhile Char.isDigit else []
  let rest := if behind.head? = some '.' && !(whole.isEmpty && part.isEmpty) then
    behind.drop (part.length + 1) else behind
  if whole.isEmpty && part.isEmpty then none
  else
    let marked := match rest with
      | e :: others =>
        let down := others.head? == some '-'
        let plain := if down || others.head? == some '+' then others.drop 1 else others
        let digits := plain.takeWhile Char.isDigit
        if (e == 'e' || e == 'E') && !digits.isEmpty then
          some (down, (String.ofList digits).toNat?.getD 0, plain.drop digits.length)
        else none
      | [] => none
    let (down, power, others) := marked.getD (false, 0, rest)
    let shift : Int := (if down then -(power : Int) else power) - part.length
    let value := Float.ofScientific ((String.ofList (whole ++ part)).toNat?.getD 0) (shift < 0)
      shift.natAbs
    some ({ ofBits value.toBits with negative := negative }, others)

end Relink.Script
