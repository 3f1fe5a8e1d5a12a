/-
  Numbers as digits.

  A text of digits has a value in each base that admits them all; the empty text has none.
-/

namespace CallSweep.Text

/-- The value of a hexadecimal digit. -/
def hexDigit? (c : Char) : Option Nat :=
  if c.isDigit then some (c.toNat - '0'.toNat)
  else if 'a' ≤ c && c ≤ 'f' then some (c.toNat - 'a'.toNat + 10)
  else if 'A' ≤ c && c ≤ 'F' then some (c.toNat - 'A'.toNat + 10)
  else none

/-- Digits in some base as a number, if there is at least one and no other character. -/
def digits? (base : Nat) (cs : List Char) : Option Nat :=
  let step (n : Option Nat) (c : Char) : Option Nat := do
    let d ← hexDigit? c
    if d < base then return base * (← n) + d else none
  if cs.isEmpty then none else cs.foldl step (some 0)

/-- The largest number of 64 bits. -/
def maxWord : Nat := UInt64.size - 1

/-- The characters behind the plus sign that a number may begin with. -/
def withoutPlus : List Char → List Char
  | '+' :: cs => cs
  | cs => cs

/-- The characters behind the sign that a number may begin with. -/
def withoutSign : List Char → List Char
  | '+' :: cs => cs
  | '-' :: cs => cs
  | cs => cs

/-- Whether a text is empty or `e` with digits behind it, which may have a sign. -/
def isExponent : List Char → Bool
  | [] => true
  | c :: cs => (c == 'e' || c == 'E') && (digits? 10 (withoutSign cs)).isSome

/-- Whether a text is a decimal number: a sign at most, digits with a point among them at most, and
    an exponent at most; or an infinity, or `nan`. -/
def isDecimal (cs : List Char) : Bool :=
  let cs := withoutSign cs
  if ["inf", "infinity", "nan"].contains (String.ofList (cs.map Char.toLower)) then true
  else
    let whole := cs.takeWhile Char.isDigit
    match cs.drop whole.length with
    | '.' :: cs =>
      let part := cs.takeWhile Char.isDigit
      !(whole.isEmpty && part.isEmpty) && isExponent (cs.drop part.length)
    | cs => !whole.isEmpty && isExponent cs

end CallSweep.Text
