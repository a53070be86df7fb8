import TemplateEngine.Text.Basic

/-!
# Machine integers

Scripts compute with integers of 64 bits. Their arithmetic is that of the
integers, and a result outside the range is not an integer of the script but a
failure, which the operations report as `none`.
-/
namespace TemplateEngine.Word

/-- The least integer of 64 bits. -/
def least : Int := -0x8000000000000000

/-- The greatest integer of 64 bits. -/
def greatest : Int := 0x7FFFFFFFFFFFFFFF

/-- Whether an integer has 64 bits. -/
def Fits (n : Int) : Prop := least ≤ n ∧ n ≤ greatest

instance (n : Int) : Decidable (Fits n) := inferInstanceAs (Decidable (_ ∧ _))

/-- The integer, unless it is too large or too small. -/
def checked? (n : Int) : Option Int := if Fits n then some n else none

/-- The integer of 64 bits that agrees with `n` modulo `2 ^ 64`. -/
def wrap (n : Int) : Int := Int.bmod n 0x10000000000000000

/-- Decimal digits, most significant first, as a number; `none` unless there is a
digit and nothing else. -/
def digits? (t : Text) : Option Nat :=
  if t.isEmpty || !t.all Char.isDigit then none else some (Nat.ofDigitChars 10 t 0)

/-- An integer of 64 bits from its decimal text, which may have a sign. -/
def ofText? (t : Text) : Option Int :=
  match t with
  | '-' :: rest => (digits? rest).bind fun n => checked? (-n)
  | '+' :: rest => (digits? rest).bind fun n => checked? n
  | _ => (digits? t).bind fun n => checked? n

/-- Whether a remainder that goes with a quotient rounded to zero lies on the other side of zero
than its divisor. -/
def astray (rest b : Int) : Bool := rest != 0 && (decide (rest < 0) != decide (b < 0))

/-- The quotient rounded to the floor, for a divisor other than zero. It is one less than the
quotient rounded to zero where the remainder is astray, and there is none where that quotient is
no machine integer. -/
def floorDiv? (a b : Int) : Option Int :=
  (checked? (Int.tdiv a b)).map fun quotient =>
    if astray (Int.tmod a b) b then wrap (quotient - 1) else quotient

/-- The remainder that goes with `floorDiv?`; it has the sign of the divisor. -/
def floorMod (a b : Int) : Int :=
  let rest := Int.tmod a b
  if astray rest b then wrap (rest + b) else rest

end TemplateEngine.Word
