/-! # Numerals

Unsigned numerals in a given radix, below a given bound.  One leading plus sign is allowed, and
the first fault from the left decides which error is reported.
-/
namespace TypeIdentity.Text

inductive NumeralError
  | empty
  | invalidDigit
  | tooLarge
  deriving DecidableEq, Repr

def NumeralError.message : NumeralError → String
  | empty => "cannot parse integer from empty string"
  | invalidDigit => "invalid digit found in string"
  | tooLarge => "number too large to fit in target type"

/-- The value of a digit in the given radix, letters of either case standing for ten and more. -/
def digitValue? (radix : Nat) (c : Char) : Option Nat :=
  let value? :=
    if c.isDigit then some (c.toNat - '0'.toNat)
    else if c.isLower then some (c.toNat - 'a'.toNat + 10)
    else if c.isUpper then some (c.toNat - 'A'.toNat + 10)
    else none
  value?.filter (· < radix)

/-- Reads digits onto `acc`; at one and the same character a wrong digit outranks an overflow. -/
def readDigits (radix bound acc : Nat) : List Char → Except NumeralError Nat
  | [] => .ok acc
  | c :: rest =>
    match digitValue? radix c with
    | none => .error .invalidDigit
    | some d =>
      if acc * radix + d < bound then readDigits radix bound (acc * radix + d) rest
      else .error .tooLarge

/-- The value of an unsigned numeral below `bound`. -/
def readNumeral (radix bound : Nat) : List Char → Except NumeralError Nat
  | [] => .error .empty
  | ['+'] => .error .invalidDigit
  | '+' :: rest => readDigits radix bound 0 rest
  | text => readDigits radix bound 0 text

def wordBound : Nat := UInt64.size

/-- The digits of a number in the given radix, at least `width` of them. -/
def digits (radix width n : Nat) : List Char :=
  let ds := Nat.toDigits radix n
  List.replicate (width - ds.length) '0' ++ ds

end TypeIdentity.Text
