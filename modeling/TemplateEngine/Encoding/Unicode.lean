import TemplateEngine.Text.Basic

/-!
# Unicode encodings of bytes

UTF-8 in both directions and UTF-16 in both byte orders. Decoding accepts
exactly the well-formed sequences: no overlong forms, no surrogates, nothing
above the last code point and nothing cut short.
-/
namespace TemplateEngine

/-- A sequence of bytes. -/
abbrev Bytes := List UInt8

namespace Utf8

/-- The bytes of one character. -/
def encodeChar (c : Char) : Bytes :=
  let n := c.toNat
  if n < 0x80 then [n.toUInt8]
  else if n < 0x800 then [(0xC0 + n / 0x40).toUInt8, (0x80 + n % 0x40).toUInt8]
  else if n < 0x10000 then
    [(0xE0 + n / 0x1000).toUInt8, (0x80 + n / 0x40 % 0x40).toUInt8, (0x80 + n % 0x40).toUInt8]
  else
    [(0xF0 + n / 0x40000).toUInt8, (0x80 + n / 0x1000 % 0x40).toUInt8,
     (0x80 + n / 0x40 % 0x40).toUInt8, (0x80 + n % 0x40).toUInt8]

/-- The bytes of a text. -/
def encode (t : Text) : Bytes := t.flatMap encodeChar

/-- The payload of a continuation byte. -/
def continuation? (b : UInt8) : Option Nat :=
  if 0x80 ≤ b.toNat && b.toNat < 0xC0 then some (b.toNat - 0x80) else none

/-- The character of a code point that a sequence of the right length may hold. -/
def charFrom? (least n : Nat) : Option Char :=
  if n < least then none
  else if h : n.isValidChar then some (Char.ofNatAux n h)
  else none

/-- The text of well-formed bytes. -/
def decode? : Bytes → Option Text
  | [] => some []
  | a :: rest =>
    let n := a.toNat
    if n < 0x80 then (decode? rest).map (Char.ofNat n :: ·)
    else if n < 0xC0 then none
    else if n < 0xE0 then
      match rest with
      | b :: rest => do
        let x ← continuation? b
        let c ← charFrom? 0x80 ((n - 0xC0) * 0x40 + x)
        (decode? rest).map (c :: ·)
      | _ => none
    else if n < 0xF0 then
      match rest with
      | b :: d :: rest => do
        let x ← continuation? b
        let y ← continuation? d
        let c ← charFrom? 0x800 ((n - 0xE0) * 0x1000 + x * 0x40 + y)
        (decode? rest).map (c :: ·)
      | _ => none
    else if n < 0xF8 then
      match rest with
      | b :: d :: e :: rest => do
        let x ← continuation? b
        let y ← continuation? d
        let z ← continuation? e
        let c ← charFrom? 0x10000 ((n - 0xF0) * 0x40000 + x * 0x1000 + y * 0x40 + z)
        (decode? rest).map (c :: ·)
      | _ => none
    else none

/-- The bytes that mark a text as UTF-8. -/
def byteOrderMark : Bytes := [0xEF, 0xBB, 0xBF]

/-- The bytes without a leading mark. -/
def dropMark (bytes : Bytes) : Bytes :=
  match byteOrderMark.isPrefixOf? bytes with
  | some rest => rest
  | none => bytes

end Utf8

namespace Utf16

/-- The units of 16 bits of a sequence of bytes. -/
def units? (bigEndian : Bool) : Bytes → Option (List Nat)
  | [] => some []
  | [_] => none
  | a :: b :: rest =>
    let unit := if bigEndian then a.toNat * 0x100 + b.toNat else b.toNat * 0x100 + a.toNat
    (units? bigEndian rest).map (unit :: ·)

/-- The text of well-formed units. -/
def ofUnits? : List Nat → Option Text
  | [] => some []
  | a :: rest =>
    if a < 0xD800 || 0xE000 ≤ a then (ofUnits? rest).map (Char.ofNat a :: ·)
    else if 0xDC00 ≤ a then none
    else
      match rest with
      | b :: rest =>
        if 0xDC00 ≤ b && b < 0xE000 then
          let c := Char.ofNat (0x10000 + (a - 0xD800) * 0x400 + (b - 0xDC00))
          (ofUnits? rest).map (c :: ·)
        else none
      | [] => none

/-- The text of well-formed bytes. -/
def decode? (bigEndian : Bool) (bytes : Bytes) : Option Text :=
  (units? bigEndian bytes).bind ofUnits?

end Utf16

end TemplateEngine
