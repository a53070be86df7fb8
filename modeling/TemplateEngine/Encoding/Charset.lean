import TemplateEngine.Encoding.SingleByte
import TemplateEngine.Encoding.Unicode

/-!
# Character sets

The character sets of the encoding standard, their names, the labels under
which they are known, and the text that bytes have in them. Of the sets with
characters of several bytes only the plain half is decoded here; every other
byte sequence of theirs counts as malformed.
-/
namespace TemplateEngine

/-- A character set other than UTF-8. -/
inductive Charset where
  | ibm866 | iso2 | iso3 | iso4 | iso5 | iso6 | iso7 | iso8 | iso8Logical | iso10 | iso13 | iso14
  | iso15 | iso16 | koi8R | koi8U | macintosh | windows874 | windows1250 | windows1251
  | windows1252 | windows1253 | windows1254 | windows1255 | windows1256 | windows1257
  | windows1258 | macCyrillic | gbk | gb18030 | big5 | eucJp | iso2022Jp | shiftJis | eucKr
  | utf16Big | utf16Little | userDefined
  deriving DecidableEq, Repr

namespace Charset

/-- The name of a character set. -/
def name : Charset → String
  | ibm866 => "IBM866"
  | iso2 => "ISO-8859-2"
  | iso3 => "ISO-8859-3"
  | iso4 => "ISO-8859-4"
  | iso5 => "ISO-8859-5"
  | iso6 => "ISO-8859-6"
  | iso7 => "ISO-8859-7"
  | iso8 => "ISO-8859-8"
  | iso8Logical => "ISO-8859-8-I"
  | iso10 => "ISO-8859-10"
  | iso13 => "ISO-8859-13"
  | iso14 => "ISO-8859-14"
  | iso15 => "ISO-8859-15"
  | iso16 => "ISO-8859-16"
  | koi8R => "KOI8-R"
  | koi8U => "KOI8-U"
  | macintosh => "macintosh"
  | windows874 => "windows-874"
  | windows1250 => "windows-1250"
  | windows1251 => "windows-1251"
  | windows1252 => "windows-1252"
  | windows1253 => "windows-1253"
  | windows1254 => "windows-1254"
  | windows1255 => "windows-1255"
  | windows1256 => "windows-1256"
  | windows1257 => "windows-1257"
  | windows1258 => "windows-1258"
  | macCyrillic => "x-mac-cyrillic"
  | gbk => "GBK"
  | gb18030 => "gb18030"
  | big5 => "Big5"
  | eucJp => "EUC-JP"
  | iso2022Jp => "ISO-2022-JP"
  | shiftJis => "Shift_JIS"
  | eucKr => "EUC-KR"
  | utf16Big => "UTF-16BE"
  | utf16Little => "UTF-16LE"
  | userDefined => "x-user-defined"

/-- The labels of the character sets, in small letters. -/
def labels : List (Charset × List String) :=
  [(ibm866, ["866", "cp866", "csibm866", "ibm866"]),
   (iso2, ["csisolatin2", "iso-8859-2", "iso-ir-101", "iso8859-2", "iso88592", "iso_8859-2",
      "iso_8859-2:1987", "l2", "latin2"]),
   (iso3, ["csisolatin3", "iso-8859-3", "iso-ir-109", "iso8859-3", "iso88593", "iso_8859-3",
      "iso_8859-3:1988", "l3", "latin3"]),
   (iso4, ["csisolatin4", "iso-8859-4", "iso-ir-110", "iso8859-4", "iso88594", "iso_8859-4",
      "iso_8859-4:1988", "l4", "latin4"]),
   (iso5, ["csisolatincyrillic", "cyrillic", "iso-8859-5", "iso-ir-144", "iso8859-5", "iso88595",
      "iso_8859-5", "iso_8859-5:1988"]),
   (iso6, ["arabic", "asmo-708", "csiso88596e", "csiso88596i", "csisolatinarabic", "ecma-114",
      "iso-8859-6", "iso-8859-6-e", "iso-8859-6-i", "iso-ir-127", "iso8859-6", "iso88596",
      "iso_8859-6", "iso_8859-6:1987"]),
   (iso7, ["csisolatingreek", "ecma-118", "elot_928", "greek", "greek8", "iso-8859-7",
      "iso-ir-126", "iso8859-7", "iso88597", "iso_8859-7", "iso_8859-7:1987", "sun_eu_greek"]),
   (iso8, ["csiso88598e", "csisolatinhebrew", "hebrew", "iso-8859-8", "iso-8859-8-e",
      "iso-ir-138", "iso8859-8", "iso88598", "iso_8859-8", "iso_8859-8:1988", "visual"]),
   (iso8Logical, ["csiso88598i", "iso-8859-8-i", "logical"]),
   (iso10, ["csisolatin6", "iso-8859-10", "iso-ir-157", "iso8859-10", "iso885910", "l6",
      "latin6"]),
   (iso13, ["iso-8859-13", "iso8859-13", "iso885913"]),
   (iso14, ["iso-8859-14", "iso8859-14", "iso885914"]),
   (iso15, ["csisolatin9", "iso-8859-15", "iso8859-15", "iso885915", "iso_8859-15", "l9"]),
   (iso16, ["iso-8859-16"]),
   (koi8R, ["cskoi8r", "koi", "koi8", "koi8-r", "koi8_r"]),
   (koi8U, ["koi8-ru", "koi8-u"]),
   (macintosh, ["csmacintosh", "mac", "macintosh", "x-mac-roman"]),
   (windows874, ["dos-874", "iso-8859-11", "iso8859-11", "iso885911", "tis-620", "windows-874"]),
   (windows1250, ["cp1250", "windows-1250", "x-cp1250"]),
   (windows1251, ["cp1251", "windows-1251", "x-cp1251"]),
   (windows1252, ["ansi_x3.4-1968", "ascii", "cp1252", "cp819", "csisolatin1", "ibm819",
      "iso-8859-1", "iso-ir-100", "iso8859-1", "iso88591", "iso_8859-1", "iso_8859-1:1987", "l1",
      "latin1", "us-ascii", "windows-1252", "x-cp1252"]),
   (windows1253, ["cp1253", "windows-1253", "x-cp1253"]),
   (windows1254, ["cp1254", "csisolatin5", "iso-8859-9", "iso-ir-148", "iso8859-9", "iso88599",
      "iso_8859-9", "iso_8859-9:1989", "l5", "latin5", "windows-1254", "x-cp1254"]),
   (windows1255, ["cp1255", "windows-1255", "x-cp1255"]),
   (windows1256, ["cp1256", "windows-1256", "x-cp1256"]),
   (windows1257, ["cp1257", "windows-1257", "x-cp1257"]),
   (windows1258, ["cp1258", "windows-1258", "x-cp1258"]),
   (macCyrillic, ["x-mac-cyrillic", "x-mac-ukrainian"]),
   (gbk, ["chinese", "csgb2312", "csiso58gb231280", "gb2312", "gb_2312", "gb_2312-80", "gbk",
      "iso-ir-58", "x-gbk"]),
   (gb18030, ["gb18030"]),
   (big5, ["big5", "big5-hkscs", "cn-big5", "csbig5", "x-x-big5"]),
   (eucJp, ["cseucpkdfmtjapanese", "euc-jp", "x-euc-jp"]),
   (iso2022Jp, ["csiso2022jp", "iso-2022-jp"]),
   (shiftJis, ["csshiftjis", "ms932", "ms_kanji", "shift-jis", "shift_jis", "sjis",
      "windows-31j", "x-sjis"]),
   (eucKr, ["cseuckr", "csksc56011987", "euc-kr", "iso-ir-149", "korean", "ks_c_5601-1987",
      "ks_c_5601-1989", "ksc5601", "ksc_5601", "windows-949"]),
   (utf16Big, ["unicodefffe", "utf-16be"]),
   (utf16Little, ["csunicode", "iso-10646-ucs-2", "ucs-2", "unicode", "unicodefeff", "utf-16",
      "utf-16le"]),
   (userDefined, ["x-user-defined"])]

/-- The character set of a label in small letters. -/
def ofLabel? (label : Text) : Option Charset :=
  (labels.find? fun entry => entry.2.any fun known => known.toList = label).map (·.1)

/-- The upper half of a set in which every byte is a character. -/
def upperHalf? : Charset → Option Text
  | ibm866 => some SingleByte.ibm866
  | iso2 => some SingleByte.iso8859Part2
  | iso3 => some SingleByte.iso8859Part3
  | iso4 => some SingleByte.iso8859Part4
  | iso5 => some SingleByte.iso8859Part5
  | iso6 => some SingleByte.iso8859Part6
  | iso7 => some SingleByte.iso8859Part7
  | iso8 | iso8Logical => some SingleByte.iso8859Part8
  | iso10 => some SingleByte.iso8859Part10
  | iso13 => some SingleByte.iso8859Part13
  | iso14 => some SingleByte.iso8859Part14
  | iso15 => some SingleByte.iso8859Part15
  | iso16 => some SingleByte.iso8859Part16
  | koi8R => some SingleByte.koi8R
  | koi8U => some SingleByte.koi8U
  | macintosh => some SingleByte.macintosh
  | windows874 => some SingleByte.windows874
  | windows1250 => some SingleByte.windows1250
  | windows1251 => some SingleByte.windows1251
  | windows1252 => some SingleByte.windows1252
  | windows1253 => some SingleByte.windows1253
  | windows1254 => some SingleByte.windows1254
  | windows1255 => some SingleByte.windows1255
  | windows1256 => some SingleByte.windows1256
  | windows1257 => some SingleByte.windows1257
  | windows1258 => some SingleByte.windows1258
  | macCyrillic => some SingleByte.macCyrillic
  | userDefined => some ((List.range 128).map fun n => Char.ofNat (0xF780 + n))
  | gbk | gb18030 | big5 | eucJp | iso2022Jp | shiftJis | eucKr | utf16Big | utf16Little => none

/-- The character of a byte in a set with the given upper half. -/
def charOf? (upperHalf : Text) (b : UInt8) : Option Char :=
  if b.toNat < 0x80 then some (Char.ofNat b.toNat)
  else
    match upperHalf[b.toNat - 0x80]? with
    | some c => if c = '\ufffd' then none else some c
    | none => none

/-- Whether a byte stands for itself in the sets with characters of several bytes. -/
def isPlain (set : Charset) (b : UInt8) : Bool :=
  b.toNat < 0x80 && !(set = iso2022Jp && (b = 0x0E || b = 0x0F || b = 0x1B))

/-- The text of bytes in a character set. -/
def decode? (set : Charset) (bytes : Bytes) : Option Text :=
  match set.upperHalf? with
  | some upperHalf => bytes.mapM (charOf? upperHalf)
  | none =>
    if set = utf16Big then Utf16.decode? true bytes
    else if set = utf16Little then Utf16.decode? false bytes
    else if bytes.all (isPlain set) then some (bytes.map fun b => Char.ofNat b.toNat)
    else none

end Charset

end TemplateEngine
