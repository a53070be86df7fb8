import TemplateEngine.Encoding.Charset
import TemplateEngine.Text.Blank

/-!
# Encodings of template files

Template files are UTF-8 unless said otherwise. Seven-bit and Latin-1 files are
taken at their word: the first refuses high bytes, the second gives every byte
the code point of its value. All other labels name a character set of the
encoding standard. Labels are trimmed, their case does not matter, and an
underscore may stand for a hyphen.
-/
namespace TemplateEngine

/-- The declared encoding of a template file. -/
inductive Encoding where
  | utf8
  | ascii
  | latin1
  | charset (set : Charset)
  deriving DecidableEq, Repr

namespace Encoding

/-- The name of an encoding. -/
def label : Encoding → Text
  | utf8 => "utf-8"
  | ascii => "ascii"
  | latin1 => "latin-1"
  | charset set => set.name.toList

/-- The labels of UTF-8 in the encoding standard. -/
def utf8Labels : List String :=
  ["unicode-1-1-utf-8", "unicode11utf8", "unicode20utf8", "utf-8", "utf8", "x-unicode20utf8"]

/-- Labels with a meaning of their own here, whatever the standard says. -/
def ownLabels : List (String × Encoding) :=
  [("utf-8", utf8), ("utf8", utf8), ("ascii", ascii), ("us-ascii", ascii), ("latin-1", latin1),
   ("latin1", latin1), ("iso-8859-1", latin1), ("iso8859-1", latin1)]

/-- Names of code pages, with a label of the standard for each. -/
def codePages : List (String × String) :=
  [("cp932", "shift_jis"), ("mskanji", "shift_jis"), ("cp936", "gbk"), ("cp949", "euc-kr"),
   ("cp950", "big5")]

/-- The encoding that the standard knows under a label in small letters. -/
def ofStandardLabel? (label : Text) : Option Encoding :=
  if utf8Labels.any fun known => known.toList = label then some utf8
  else (Charset.ofLabel? label).map charset

/-- The encoding of a label. -/
def ofLabel? (label : Text) : Option Encoding :=
  let lowered := (Text.trim label).map Char.toLower
  let dashed := lowered.map fun c => if c = '_' then '-' else c
  match ownLabels.find? fun entry => entry.1.toList = dashed with
  | some entry => some entry.2
  | none =>
    let named :=
      match codePages.find? fun page => page.1.toList = lowered || page.1.toList = dashed with
      | some page => page.2.toList
      | none => lowered
    (ofStandardLabel? named).or (ofStandardLabel? dashed)

/-- The text of bytes, if they are well formed. A leading mark of UTF-8 is dropped. -/
def decode? : Encoding → Bytes → Option Text
  | utf8, bytes => Utf8.decode? (Utf8.dropMark bytes)
  | ascii, bytes =>
    if bytes.all fun b => b.toNat < 0x80 then some (bytes.map fun b => Char.ofNat b.toNat) else none
  | latin1, bytes => some (bytes.map fun b => Char.ofNat b.toNat)
  | charset set, bytes => set.decode? bytes

end Encoding

end TemplateEngine
