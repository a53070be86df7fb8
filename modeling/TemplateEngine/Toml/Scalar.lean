import TemplateEngine.Number.Decimal
import TemplateEngine.Number.Word
import TemplateEngine.Json.Reader
import TemplateEngine.Toml.Basic

/-!
# Text, numbers and dates in TOML

Readers of the parts of a TOML document that hold no others. Each takes what it reads
off the start of a text and returns it with the rest. Numbers and dates are checked
and then forgotten.
-/
namespace TemplateEngine.Toml

/-- Whether a character may stand in a comment. -/
def inComment (c : Char) : Bool := c = '\t' || 0x20 ≤ c.toNat

/-- Whether a character may stand for itself inside quotes. -/
def inQuotes (c : Char) : Bool := c = '\t' || (0x20 ≤ c.toNat && c ≠ '\x7f')

/-- Whether a character is a blank inside a line. -/
def isBlank (c : Char) : Bool := c = ' ' || c = '\t'

/-- The text without blanks at its start. -/
def skip (t : Text) : Text := t.dropWhile isBlank

/-- The text after a line break. -/
def newline? : Text → Option Text
  | '\n' :: rest => some rest
  | '\r' :: '\n' :: rest => some rest
  | _ => none

/-- The number that hexadecimal digits write. -/
def hexNumber? (digits : Text) : Option Nat := do
  let values ← digits.mapM Json.hexDigit?
  return values.foldl (fun n d => n * 16 + d) 0

/-- The character of a code point. -/
def charOf? (n : Nat) : Option Char :=
  if n < 0xD800 || (0xE000 ≤ n && n < 0x110000) then some (Char.ofNat n) else none

/-- The character after a backslash, with the text after it. -/
def escape? : Text → Option (Char × Text)
  | 'u' :: rest =>
    if rest.length < 4 then none
    else ((hexNumber? (rest.take 4)).bind charOf?).map fun c => (c, rest.drop 4)
  | 'U' :: rest =>
    if rest.length < 8 then none
    else ((hexNumber? (rest.take 8)).bind charOf?).map fun c => (c, rest.drop 8)
  | c :: rest =>
    (([('b', '\x08'), ('t', '\t'), ('n', '\n'), ('f', '\x0c'), ('r', '\r'), ('"', '"'),
      ('\\', '\\')] : List (Char × Char)).lookup c).map fun c => (c, rest)
  | [] => none

/-- The rest of a string on one line after its opening quote. The number bounds the
characters left to read. -/
def line? (quote : Char) : Nat → Text → Option (Text × Text)
  | 0, _ => none
  | _, [] => none
  | fuel + 1, c :: rest =>
    if c = quote then some ([], rest)
    else if c = '\\' && quote = '"' then
      (escape? rest).bind fun (c, rest) =>
        (line? quote fuel rest).map fun (t, rest) => (c :: t, rest)
    else if inQuotes c then (line? quote fuel rest).map fun (t, rest) => (c :: t, rest)
    else none

/-- The text after a backslash at the end of a line: without the line break and every
blank and line break after it. -/
def continued? (t : Text) : Option Text :=
  (newline? (skip t)).map fun rest => rest.dropWhile fun c => isBlank c || c = '\n' || c = '\r'

/-- The quotes at the end of a string over several lines that belong to its text, after
the first three. -/
def closing (quote : Char) (rest : Text) : Text × Text :=
  let extra := (rest.takeWhile (· = quote)).take 2
  (extra, rest.drop extra.length)

/-- The rest of a string over several lines after its opening quotes. The number bounds
the characters left to read. -/
def lines? (quote : Char) : Nat → Text → Option (Text × Text)
  | 0, _ => none
  | _, [] => none
  | fuel + 1, c :: rest =>
    if [quote, quote, quote].isPrefixOf (c :: rest) then some (closing quote (rest.drop 2))
    else if c = '\\' && quote = '"' then
      match continued? rest with
      | some rest => lines? quote fuel rest
      | none =>
        (escape? rest).bind fun (c, rest) =>
          (lines? quote fuel rest).map fun (t, rest) => (c :: t, rest)
    else
      match newline? (c :: rest) with
      | some rest => (lines? quote fuel rest).map fun (t, rest) => ('\n' :: t, rest)
      | none =>
        if inQuotes c then (lines? quote fuel rest).map fun (t, rest) => (c :: t, rest) else none

/-- A string of one line or several. -/
def string? (t : Text) : Option (Text × Text) :=
  match t with
  | [] => none
  | quote :: rest =>
    if quote ≠ '"' && quote ≠ '\'' then none
    else if [quote, quote].isPrefixOf rest then
      let rest := rest.drop 2
      lines? quote (rest.length + 1) ((newline? rest).getD rest)
    else line? quote (rest.length + 1) rest

/-- Whether a character may stand in a key without quotes. -/
def inBareKey (c : Char) : Bool := c.isAlphanum || c = '_' || c = '-'

/-- One part of a key. -/
def keyPart? (t : Text) : Option (Text × Text) :=
  match t with
  | c :: rest =>
    if c = '"' || c = '\'' then
      if [c, c].isPrefixOf rest then some ([], rest.drop 1) else line? c (rest.length + 1) rest
    else if inBareKey c then some (t.takeWhile inBareKey, t.dropWhile inBareKey)
    else none
  | [] => none

/-- The parts of a key between dots. The number bounds the parts. -/
def key? : Nat → Text → Option (List Text × Text)
  | 0, _ => none
  | fuel + 1, t =>
    (keyPart? (skip t)).bind fun (part, rest) =>
      match skip rest with
      | '.' :: rest => (key? fuel rest).map fun (parts, rest) => (part :: parts, rest)
      | rest => some ([part], rest)

/-- Whether text is digits of a class with single underscores between them. -/
def isDigitRun (isDigit : Char → Bool) (t : Text) : Bool :=
  (Text.cutAt '_' t).all fun run => !run.isEmpty && run.all isDigit

/-- The digits of a number with underscores. -/
def plainDigits (t : Text) : Text := t.filter (· ≠ '_')

/-- A text without a sign at its start, and whether the sign is a minus. -/
def unsigned : Text → Bool × Text
  | '+' :: rest => (false, rest)
  | '-' :: rest => (true, rest)
  | rest => (false, rest)

/-- Whether text is the whole part of a decimal number: no zero stands in front. -/
def isWholePart (t : Text) : Bool :=
  isDigitRun Char.isDigit t && (t.length = 1 || t.head? ≠ some '0')

/-- Whether text is an integer, of 64 bits. -/
def isInteger (t : Text) : Bool :=
  match t with
  | '0' :: 'x' :: digits =>
    isDigitRun (fun c => (Json.hexDigit? c).isSome) digits &&
      (hexNumber? (plainDigits digits)).any (· < 0x8000000000000000)
  | '0' :: 'o' :: digits =>
    isDigitRun (fun c => '0' ≤ c && c ≤ '7') digits &&
      (plainDigits digits).foldl (fun n c => n * 8 + (c.toNat - 48)) 0 < 0x8000000000000000
  | '0' :: 'b' :: digits =>
    isDigitRun (fun c => c = '0' || c = '1') digits &&
      (plainDigits digits).foldl (fun n c => n * 2 + (c.toNat - 48)) 0 < 0x8000000000000000
  | _ =>
    let (minus, digits) := unsigned t
    isWholePart digits &&
      (Word.digits? (plainDigits digits)).any fun n =>
        decide (Word.Fits (if minus then -(n : Int) else n))

/-- Whether text is an exponent after its letter. -/
def isExponent (t : Text) : Bool := isDigitRun Char.isDigit (unsigned t).2

/-- Whether text is a number with a fraction or an exponent, or one without digits. With
digits it must not round to positive infinity. -/
def isFloat (t : Text) : Bool :=
  let (minus, t) := unsigned t
  if t = "inf".toList || t = "nan".toList then true
  else
    let mantissa := t.takeWhile fun c => c ≠ 'e' && c ≠ 'E'
    let exponent := t.drop (mantissa.length + 1)
    let hasExponent := mantissa.length < t.length
    let whole := mantissa.takeWhile (· ≠ '.')
    let fraction := mantissa.drop (whole.length + 1)
    let hasFraction := whole.length < mantissa.length
    isWholePart whole && (hasExponent || hasFraction) &&
      (!hasFraction || isDigitRun Char.isDigit fraction) && (!hasExponent || isExponent exponent) &&
      (minus || (Double.ofUnsigned? (plainDigits t)).any Float.isFinite)

/-- The number that a fixed count of digits writes, if it lies in bounds. -/
def boundedNumber? (count least most : Nat) (t : Text) : Option (Nat × Text) :=
  if t.length < count then none
  else (Word.digits? (t.take count)).bind fun n =>
    if least ≤ n && n ≤ most then some (n, t.drop count) else none

/-- The days of a month. -/
def daysIn (year month : Nat) : Nat :=
  if month = 2 then
    if (year % 4 = 0 && year % 100 ≠ 0) || year % 400 = 0 then 29 else 28
  else if month = 4 || month = 6 || month = 9 || month = 11 then 30
  else 31

/-- The text after a date. -/
def date? (t : Text) : Option Text :=
  match boundedNumber? 4 0 9999 t with
  | some (year, '-' :: rest) =>
    match boundedNumber? 2 1 12 rest with
    | some (month, '-' :: rest) => (boundedNumber? 2 1 (daysIn year month) rest).map (·.2)
    | _ => none
  | _ => none

/-- The text after a time of the day. -/
def time? (t : Text) : Option Text :=
  match boundedNumber? 2 0 23 t with
  | some (_, ':' :: rest) =>
    match boundedNumber? 2 0 59 rest with
    | some (_, ':' :: rest) =>
      match boundedNumber? 2 0 60 rest with
      | some (_, '.' :: rest) =>
        let digits := rest.takeWhile Char.isDigit
        if digits.isEmpty then none else some (rest.drop digits.length)
      | some (_, rest) => some rest
      | none => none
    | _ => none
  | _ => none

/-- Whether text is a distance from universal time, or nothing. -/
def isOffset (t : Text) : Bool :=
  match t with
  | [] => true
  | c :: rest =>
    if c = 'Z' || c = 'z' then rest.isEmpty
    else if c = '+' || c = '-' then
      match boundedNumber? 2 0 23 rest with
      | some (_, ':' :: rest) => (boundedNumber? 2 0 59 rest).any fun (_, rest) => rest.isEmpty
      | _ => false
    else false

/-- Whether text is a date, a time of the day, or both. -/
def isDateTime (t : Text) : Bool :=
  match date? t with
  | some [] => true
  | some (c :: rest) =>
    (c = 'T' || c = 't' || c = ' ') && (time? rest).any isOffset
  | none => (time? t).any (·.isEmpty)

/-- The characters of a number or a date at the start of a text. A single blank belongs to
a date if digits come after it. -/
def lexeme (t : Text) : Text :=
  let inWord (c : Char) : Bool := inBareKey c || c = '+' || c = '.' || c = ':'
  let word := t.takeWhile inWord
  match t.drop word.length with
  | ' ' :: c :: rest =>
    if c.isDigit && (date? word) == some [] then word ++ ' ' :: (c :: rest).takeWhile inWord
    else word
  | _ => word

/-- A truth value, a number or a date, with the text after it. -/
def scalar? (t : Text) : Option (Toml × Text) :=
  let word := lexeme t
  if word = "true".toList || word = "false".toList || isInteger word || isFloat word then
    some (.plain, t.drop word.length)
  else if isDateTime word then some (.date, t.drop word.length)
  else none

end TemplateEngine.Toml
