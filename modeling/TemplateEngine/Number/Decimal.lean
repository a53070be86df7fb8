import TemplateEngine.Number.Word

/-!
# Decimal text of doubles

The shortest decimal that reads back as a double, of those the nearest, and
upwards if two are equally near. The text of a double in scripts writes it
positionally from `1e-4` up to but excluding `1e16`, always with a fraction, and
otherwise with an exponent of at least two digits and a sign. Fixed places round
the exact value, a half to the even neighbour.
-/

/-!
## Double-precision numbers

A finite double is an integer times a power of two. Everything that needs its
exact value is computed on those two integers: truncation, the floor, the
remainder of a division, and the conversion from decimal. Sums, products and
quotients are the rounded operations of the number format itself.
-/
namespace TemplateEngine.Double

/-- The sign bit. -/
def negative (x : Float) : Bool := 0x8000000000000000 ≤ x.toBits.toNat

/-- A finite double without its sign, as an integer and a power of two. -/
def parts (x : Float) : Nat × Int :=
  let bits := x.toBits.toNat
  let exponent : Nat := bits / 0x10000000000000 % 0x800
  let fraction : Nat := bits % 0x10000000000000
  if exponent = 0 then (fraction, -1074) else (0x10000000000000 + fraction, (exponent : Int) - 1075)

/-- The double with the other sign if `minus` holds. -/
def withSign (minus : Bool) (x : Float) : Float := if minus then -x else x

/-- The double nearest to an integer. -/
def ofInt (n : Int) : Float :=
  if n < 0 then -(Float.ofScientific n.natAbs false 0) else Float.ofScientific n.natAbs false 0

/-- Positive infinity. -/
def infinity : Float := Float.ofBits 0x7FF0000000000000

/-- Not a number. -/
def notANumber : Float := Float.ofBits 0x7FF8000000000000

/-- The double nearest to `digits * 10 ^ exponent`. Values far outside the range of
the format are settled by their order of magnitude alone. -/
def ofDecimal (digits : Nat) (exponent : Int) : Float :=
  let magnitude := (Text.ofNat digits).length + exponent
  if digits = 0 then 0.0
  else if 400 < magnitude then infinity
  else if magnitude < -400 then 0.0
  else if exponent < 0 then Float.ofScientific digits true exponent.natAbs
  else Float.ofScientific digits false exponent.natAbs

/-- The value without its fraction, for a finite double. -/
def truncate (x : Float) : Int :=
  let (m, e) := parts x
  let whole : Nat := if e < 0 then m / Nat.pow 2 e.natAbs else m * Nat.pow 2 e.natAbs
  if negative x then -(whole : Int) else whole

/-- Whether a finite double has no fraction. -/
def isWhole (x : Float) : Bool :=
  let (m, e) := parts x
  0 ≤ e || m % Nat.pow 2 e.natAbs == 0

/-- The greatest integral value that is not above the double. -/
def floor (x : Float) : Float :=
  if !x.isFinite || isWhole x then x
  else if negative x then ofInt (truncate x - 1)
  else ofInt (truncate x)

/-- The remainder of a division that rounds to zero; it has the sign of the dividend. -/
def remainder (x y : Float) : Float :=
  if x.isNaN || y.isNaN || x.isInf || y == 0.0 then notANumber
  else if y.isInf then x
  else
    let (m, e) := parts x
    let (n, f) := parts y
    let low := min e f
    let rest := (m * Nat.pow 2 (e - low).natAbs) % (n * Nat.pow 2 (f - low).natAbs)
    let value :=
      if low < 0 then Float.ofScientific (rest * Nat.pow 5 low.natAbs) true low.natAbs
      else Float.ofScientific (rest * Nat.pow 2 low.natAbs) false 0
    withSign (negative x) value

/-- How two doubles compare; `none` if one of them is not a number. -/
def compare? (x y : Float) : Option Ordering :=
  if x < y then some .lt
  else if y < x then some .gt
  else if x == y then some .eq
  else none

end TemplateEngine.Double

/-! ## Decimal text -/

namespace TemplateEngine

/-- The number `digits * 10 ^ exponent`. -/
structure Decimal where
  digits : Nat
  exponent : Int
  deriving DecidableEq, Repr

namespace Decimal

/-- The decimal exponent of the first digit of `m * 2 ^ e`, which is positive and
above `1e-400`. -/
def leadingExponent (m : Nat) (e : Int) : Int :=
  let scaled :=
    if e < 0 then m * Nat.pow 10 400 / Nat.pow 2 e.natAbs
    else m * Nat.pow 2 e.natAbs * Nat.pow 10 400
  ((Text.ofNat scaled).length : Int) - 401

/-- The multiples of `10 ^ step` around `m * 2 ^ e` that read back as that double, and
the nearer of them if both do. -/
def onGrid? (m : Nat) (e step : Int) : Option Nat :=
  let below := if m = 0x10000000000000 && -1074 < e then 1 else 2
  let twos := if e - 2 < 0 then 1 else Nat.pow 2 (e - 2).natAbs
  let tens := if step < 0 then Nat.pow 10 step.natAbs else 1
  let unit := (if e - 2 < 0 then Nat.pow 2 (e - 2).natAbs else 1) *
    (if step < 0 then 1 else Nat.pow 10 step.natAbs)
  let value := 4 * m * twos * tens
  let low := (4 * m - below) * twos * tens
  let high := (4 * m + 2) * twos * tens
  let even := m % 2 == 0
  let lower := value / unit
  let upper := lower + 1
  let lowerFits := 0 < lower && (low < lower * unit || (even && low == lower * unit))
  let upperFits := upper * unit < high || (even && upper * unit == high)
  match lowerFits, upperFits with
  | true, true => if 2 * (value - lower * unit) < unit then some lower else some upper
  | true, false => some lower
  | false, true => some upper
  | false, false => none

/-- The first grid, of one digit, two digits and so on, that holds a decimal. -/
def shortestFrom (m : Nat) (e first : Int) : Nat → Nat → Decimal
  | 0, count => ⟨m, first - count⟩
  | fuel + 1, count =>
    let step := first - count
    match onGrid? m e step with
    | some digits => ⟨digits, step⟩
    | none => shortestFrom m e first fuel (count + 1)

/-- The shortest decimal that reads back as a finite double other than zero, without
its sign. Seventeen digits always suffice. -/
def shortest (x : Float) : Decimal :=
  let (m, e) := Double.parts x
  shortestFrom m e (leadingExponent m e) 17 0

/-- A decimal without trailing zeros in its digits, as the text of the digits and the
exponent of the last one. -/
def trimmed (d : Decimal) : Text × Int :=
  let text := Text.ofNat d.digits
  let kept := (text.reverse.dropWhile (· = '0')).reverse
  (kept, d.exponent + (text.length - kept.length : Nat))

/-- Digits written positionally, without a point if there is no fraction. -/
def positional (digits : Text) (exponent : Int) : Text :=
  if 0 ≤ exponent then digits ++ Text.times exponent.natAbs '0'
  else
    let places := exponent.natAbs
    let padded := Text.padLeft (places + 1) '0' digits
    padded.take (padded.length - places) ++ '.' :: padded.drop (padded.length - places)

/-- One digit before the point and an exponent. -/
def scientific (digits : Text) (exponent : Int) : Text :=
  let power := exponent + (digits.length - 1 : Nat)
  let sign := if power < 0 then '-' else '+'
  let head := match digits with
    | [] => []
    | [c] => [c]
    | c :: rest => c :: '.' :: rest
  head ++ 'e' :: sign :: Text.padLeft 2 '0' (Text.ofNat power.natAbs)

end Decimal

namespace Double

/-- The text of a double in scripts. -/
def text (x : Float) : Text :=
  if x.isNaN then "nan"
  else if x.isInf then if negative x then "-inf" else "inf"
  else
    let sign : Text := if negative x then ['-'] else []
    if x == 0.0 then sign ++ "0.0"
    else
      let (digits, exponent) := (Decimal.shortest x).trimmed
      let power := exponent + (digits.length - 1 : Nat)
      if power < -4 || 16 ≤ power then sign ++ Decimal.scientific digits exponent
      else if isWhole x then sign ++ Text.ofNat (truncate x).natAbs ++ ".0"
      else sign ++ Decimal.positional digits exponent

/-- The text of a double with positional digits only and no empty fraction. -/
def plainText (x : Float) : Text :=
  if x.isNaN then "NaN"
  else if x.isInf then if negative x then "-inf" else "inf"
  else
    let sign : Text := if negative x then ['-'] else []
    if x == 0.0 then sign ++ "0"
    else
      let (digits, exponent) := (Decimal.shortest x).trimmed
      sign ++ Decimal.positional digits exponent

/-- A quotient rounded to the nearest integer, a half to the even one. -/
def roundQuotient (num den : Nat) : Nat :=
  let low := num / den
  let twice := 2 * (num % den)
  if den < twice || (twice = den && low % 2 = 1) then low + 1 else low

/-- The text of a double with a fixed number of places. -/
def fixed (places : Nat) (x : Float) : Text :=
  if x.isNaN then "NaN"
  else if x.isInf then if negative x then "-inf" else "inf"
  else
    let (m, e) := parts x
    let scaled :=
      if e < 0 then roundQuotient (m * Nat.pow 10 places) (Nat.pow 2 e.natAbs)
      else m * Nat.pow 2 e.natAbs * Nat.pow 10 places
    let sign : Text := if negative x then ['-'] else []
    sign ++ Decimal.positional (Text.ofNat scaled) (-(places : Int))

/-- Digits at the start of a text, and what follows them. -/
def leadingDigits (t : Text) : Text × Text := (t.takeWhile Char.isDigit, t.dropWhile Char.isDigit)

/-- The exponent part of a decimal text, if the text is one or is empty. -/
def exponent? (t : Text) : Option Int :=
  match t with
  | [] => some 0
  | c :: rest =>
    if c = 'e' || c = 'E' then
      match rest with
      | '-' :: digits => (Word.digits? digits).map fun n => -(n : Int)
      | '+' :: digits => (Word.digits? digits).map fun n => (n : Int)
      | digits => (Word.digits? digits).map fun n => (n : Int)
    else none

/-- A double from a decimal text without a sign: digits, a point among them or at
either end, and an exponent. -/
def ofUnsigned? (t : Text) : Option Float :=
  let (whole, rest) := leadingDigits t
  let (fraction, rest) := match rest with
    | '.' :: rest => leadingDigits rest
    | rest => ([], rest)
  if whole.isEmpty && fraction.isEmpty then none
  else
    (exponent? rest).map fun exponent =>
      ofDecimal (Nat.ofDigitChars 10 (whole ++ fraction) 0) (exponent - fraction.length)

/-- The names of the doubles without digits, in small letters. -/
def named? (t : Text) : Option Float :=
  if t = "inf".toList || t = "infinity".toList then some infinity
  else if t = "nan".toList then some notANumber
  else none

/-- A double from its text: a sign, and a decimal or the name of an infinity or of no
number in letters of either case. -/
def ofText? (t : Text) : Option Float :=
  let (minus, body) := match t with
    | '-' :: rest => (true, rest)
    | '+' :: rest => (false, rest)
    | _ => (false, t)
  let value := (named? (body.map Char.toLower)).or (ofUnsigned? body)
  value.map (withSign minus)

end Double

end TemplateEngine
