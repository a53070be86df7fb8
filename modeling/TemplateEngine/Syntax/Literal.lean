import TemplateEngine.Syntax.Token

/-!
# Literals

Numbers and strings of the script language. A number is a run of digits, with
single underscores between digits, a fraction only where a digit follows the
point, and an exponent only where it is complete; it is an integer without
these. A string ends at its quote, or at three of them if it began with three;
it may span lines only in the second form. A backslash starts an escape, and an
unknown escape stands for itself.
-/
namespace TemplateEngine.Literal

/-- A literal off the start of a text: its token, and what it leaves behind. -/
structure Scanned where
  kind : TokenKind
  rest : Text
  stop : Position

/-- A run of digits, with underscores that have a digit after them. -/
def digitRun : Text → Text × Text
  | [] => ([], [])
  | c :: rest =>
    if c.isDigit then
      let (run, rest) := digitRun rest
      (c :: run, rest)
    else if c = '_' then
      match rest with
      | d :: _ =>
        if d.isDigit then
          let (run, rest) := digitRun rest
          (c :: run, rest)
        else ([], c :: rest)
      | [] => ([], [c])
    else ([], c :: rest)

/-- Whether a text starts with a digit. -/
def startsWithDigit : Text → Bool
  | c :: _ => c.isDigit
  | [] => false

/-- The point of a fraction and its digits, if a fraction follows. -/
def fraction : Text → Text × Text
  | '.' :: rest =>
    if startsWithDigit rest then
      let (run, rest) := digitRun rest
      ('.' :: run, rest)
    else ([], '.' :: rest)
  | t => ([], t)

/-- The letter, sign and digits of an exponent, if a complete one follows. -/
def exponent : Text → Text × Text
  | c :: sign :: rest =>
    if c = 'e' || c = 'E' then
      if (sign = '+' || sign = '-') && startsWithDigit rest then
        let (run, rest) := digitRun rest
        (c :: sign :: run, rest)
      else if sign.isDigit then
        let (run, rest) := digitRun (sign :: rest)
        (c :: run, rest)
      else ([], c :: sign :: rest)
    else ([], c :: sign :: rest)
  | t => ([], t)

/-- The text of a number as it is read: without underscores, the exponent marked by a
small letter. -/
def plainNumber (lexeme : Text) : Text :=
  (lexeme.filter (· ≠ '_')).map fun c => if c = 'E' then 'e' else c

/-- The number at the start of a text that begins with a digit. -/
def number (p : Position) (t : Text) : Except LexError Scanned :=
  let (whole, rest) := digitRun t
  let (point, rest) := fraction rest
  let (power, rest) := exponent rest
  let lexeme := whole ++ point ++ power
  let plain := plainNumber lexeme
  let kind? : Option TokenKind :=
    if point.isEmpty && power.isEmpty then
      (Word.ofText? plain).map fun n => .int n.toNat
    else (Double.ofText? plain).map .float
  match kind? with
  | some kind => .ok ⟨kind, rest, p.after lexeme⟩
  | none => .error (.invalidNumber plain p)

/-- The value of a hexadecimal digit. -/
def hexDigit? (c : Char) : Option Nat :=
  if c.isDigit then some (c.toNat - 48)
  else if 'a' ≤ c && c ≤ 'f' then some (c.toNat - 87)
  else if 'A' ≤ c && c ≤ 'F' then some (c.toNat - 55)
  else none

/-- The number of hexadecimal digits. -/
def hexValue (digits : Text) : Nat :=
  digits.foldl (fun n c => n * 16 + (hexDigit? c).getD 0) 0

/-- The character of a code point, unless it is a surrogate or too large. -/
def charOf? (n : Nat) : Option Char :=
  if h : n.isValidChar then some (Char.ofNatAux n h) else none

/-- The character after a backslash that stands for another one. -/
def escapedChar? (c : Char) : Option Char :=
  ([('n', '\n'), ('t', '\t'), ('r', '\r'), ('0', '\x00'), ('\\', '\\'), ('"', '"'),
    ('\'', '\'')] : List (Char × Char)).lookup c

/-- Where one is in a string: between escapes, after a backslash, or among the digits
of an escape, with the place of the escape and the digits so far. -/
inductive StringMode where
  | plain
  | escape
  | byte (place : Position) (digits : Text)
  | brace (place : Position)
  | point (place : Position) (digits : Text)

/-- The value of a string from after its opening quotes, read character by character.
`start` is where the string began, `p` where one is, and `value` holds the characters
so far, reversed. -/
def stringBody (start : Position) (quote : Char) (triple : Bool) :
    StringMode → Position → Text → Text → Except LexError Scanned
  | .plain, _, _, [] => .error (.unterminatedString start)
  | .plain, p, value, c :: rest =>
    if c = quote then
      if triple then
        match rest with
        | a :: b :: after =>
          if a = quote && b = quote then
            .ok ⟨.string value.reverse, after, ((p.step c).step a).step b⟩
          else stringBody start quote triple .plain (p.step c) (c :: value) rest
        | _ => stringBody start quote triple .plain (p.step c) (c :: value) rest
      else .ok ⟨.string value.reverse, rest, p.step c⟩
    else if c = '\n' && !triple then .error (.unterminatedString start)
    else if c = '\\' then stringBody start quote triple .escape (p.step c) value rest
    else stringBody start quote triple .plain (p.step c) (c :: value) rest
  | .escape, _, _, [] => .error (.unterminatedString start)
  | .escape, p, value, c :: rest =>
    match escapedChar? c with
    | some d => stringBody start quote triple .plain (p.step c) (d :: value) rest
    | none =>
      if c = '\n' then stringBody start quote triple .plain (p.step c) value rest
      else if c = 'x' then stringBody start quote triple (.byte p []) (p.step c) value rest
      else if c = 'u' then stringBody start quote triple (.brace p) (p.step c) value rest
      else stringBody start quote triple .plain (p.step c) (c :: '\\' :: value) rest
  | .byte place digits, _, _, [] => .error (.invalidEscape ('\\' :: 'x' :: digits) place)
  | .byte place digits, p, value, c :: rest =>
    match hexDigit? c with
    | none => .error (.invalidEscape ('\\' :: 'x' :: digits) place)
    | some _ =>
      let digits := digits ++ [c]
      if digits.length = 2 then
        stringBody start quote triple .plain (p.step c) (Char.ofNat (hexValue digits) :: value) rest
      else stringBody start quote triple (.byte place digits) (p.step c) value rest
  | .brace place, _, _, [] => .error (.invalidEscape ['\\', 'u'] place)
  | .brace place, p, value, c :: rest =>
    if c = '\x7b' then stringBody start quote triple (.point place []) (p.step c) value rest
    else .error (.invalidEscape ['\\', 'u'] place)
  | .point place digits, _, _, [] =>
    .error (.invalidEscape ('\\' :: 'u' :: '\x7b' :: digits) place)
  | .point place digits, p, value, c :: rest =>
    match hexDigit? c with
    | some _ => stringBody start quote triple (.point place (digits ++ [c])) (p.step c) value rest
    | none =>
      let failure := LexError.invalidEscape ('\\' :: 'u' :: '\x7b' :: digits) place
      if c = '\x7d' && !digits.isEmpty then
        match charOf? (hexValue digits) with
        | some d => stringBody start quote triple .plain (p.step c) (d :: value) rest
        | none => .error failure
      else .error failure

/-- The string at the start of a text that begins with `quote`. -/
def string (p : Position) (quote : Char) (rest : Text) : Except LexError Scanned :=
  match rest with
  | a :: b :: after =>
    if a = quote && b = quote then
      stringBody p quote true .plain (((p.step quote).step a).step b) [] after
    else stringBody p quote false .plain (p.step quote) [] rest
  | _ => stringBody p quote false .plain (p.step quote) [] rest

end TemplateEngine.Literal
