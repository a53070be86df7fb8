import TemplateEngine.Json.Basic

/-!
# JSON numbers

Numbers are read into a significand of 64 bits and a power of ten. Digits that no
longer fit raise the power, or are dropped behind the point. A number without
point and exponent whose digits all fit is an integer; minus zero and integers
below the least one are doubles. A double is the significand, rounded, times or
divided by one rounded power of ten, so the last digit of a long decimal may be
lost. A number too large for a double is refused.
-/
namespace TemplateEngine.Json

/-- The greatest significand. -/
def maxSignificand : Nat := 0xFFFFFFFFFFFFFFFF

/-- Digits taken into a significand as long as they fit, and the digits left. -/
def absorb (significand : Nat) : Text → Nat × Text
  | [] => (significand, [])
  | c :: rest =>
    if c.isDigit && significand * 10 + (c.toNat - 48) ≤ maxSignificand then
      absorb (significand * 10 + (c.toNat - 48)) rest
    else (significand, c :: rest)

/-- A double scaled by a power of ten in steps of at most 308. -/
def scale : Nat → Float → Int → Option Float
  | 0, x, _ => some x
  | fuel + 1, x, exponent =>
    if exponent.natAbs ≤ 308 then
      let power := Double.ofDecimal 1 exponent.natAbs
      if 0 ≤ exponent then
        let y := x * power
        if y.isInf then none else some y
      else some (x / power)
    else if x == 0.0 then some x
    else if 0 ≤ exponent then none
    else scale fuel (x / Double.ofDecimal 1 308) (exponent + 308)

/-- The double of a significand and a power of ten. -/
def double? (minus : Bool) (significand : Nat) (exponent : Int) : Option Json :=
  (scale 4 (Double.ofInt significand) exponent).map fun x => .float (Double.withSign minus x)

/-- The integer of a significand, or the double if it is no integer. -/
def integer (minus : Bool) (significand : Nat) : Json :=
  if !minus then .int significand
  else if significand = 0 || 0x8000000000000000 < significand then
    .float (-(Double.ofInt significand))
  else .int (-(significand : Int))

/-- The exponent at the start of a text that begins with its letter. -/
def exponent? (t : Text) : Option (Int × Text) :=
  let (minus, rest) := match t with
    | _ :: '-' :: rest => (true, rest)
    | _ :: '+' :: rest => (false, rest)
    | _ :: rest => (false, rest)
    | [] => (false, [])
  let (digits, rest) := Double.leadingDigits rest
  (Word.digits? digits).map fun n => (if minus then -(n : Int) else n, rest)

/-- The number at the start of a text, after its sign. -/
def unsigned? (minus : Bool) (t : Text) : Option (Json × Text) :=
  let (whole, rest) := Double.leadingDigits t
  if whole.isEmpty || (whole.head? = some '0' && 1 < whole.length) then none
  else
    let (significand, left) := absorb 0 whole
    let before : Int := left.length
    let finish (significand : Nat) (exponent : Int) (rest : Text) : Option (Json × Text) :=
      match rest with
      | 'e' :: _ | 'E' :: _ =>
        (exponent? rest).bind fun (power, rest) =>
          (double? minus significand (exponent + power)).map (·, rest)
      | _ => (double? minus significand exponent).map (·, rest)
    match rest with
    | '.' :: rest =>
      let (fraction, rest) := Double.leadingDigits rest
      if fraction.isEmpty then none
      else
        let (significand, dropped) := absorb significand fraction
        finish significand (before - (fraction.length - dropped.length : Nat)) rest
    | 'e' :: _ | 'E' :: _ => finish significand before rest
    | _ =>
      if left.isEmpty then some (integer minus significand, rest)
      else finish significand before rest

/-- The number at the start of a text. -/
def number? (t : Text) : Option (Json × Text) :=
  match t with
  | '-' :: rest => unsigned? true rest
  | _ => unsigned? false t

/-- The text of a finite double: positional up to `1e16` and down to `1e-5`. -/
def floatText (x : Float) : Text :=
  let sign : Text := if Double.negative x then ['-'] else []
  if x == 0.0 then sign ++ "0.0"
  else
    let (digits, exponent) := (Decimal.shortest x).trimmed
    let point := digits.length + exponent
    sign ++
      if 0 ≤ exponent && point ≤ 16 then Decimal.positional digits exponent ++ ".0"
      else if -5 < point && point ≤ 16 then Decimal.positional digits exponent
      else
        let head := match digits with
          | [] => []
          | [c] => [c]
          | c :: rest => c :: '.' :: rest
        head ++ 'e' :: Text.ofInt (point - 1)

end TemplateEngine.Json
