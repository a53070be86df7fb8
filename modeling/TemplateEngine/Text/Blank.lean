import TemplateEngine.Text.Letter.Ranges

/-!
# Blanks

Blanks are the characters with the white-space property. Trimming takes them
from the ends of a text. Layout looks at a smaller set: the space, the tab, the
line break, the form feed and the carriage return.
-/
namespace TemplateEngine.Text

/-- Ranges of the blank characters. -/
def blankRanges : List (Nat × Nat) :=
  [(0x9, 0xD), (0x20, 0x20), (0x85, 0x85), (0xA0, 0xA0), (0x1680, 0x1680), (0x2000, 0x200A),
   (0x2028, 0x2029), (0x202F, 0x202F), (0x205F, 0x205F), (0x3000, 0x3000)]

/-- Whether a character is blank. -/
def isBlank (c : Char) : Bool := Letter.within blankRanges c

/-- Whether a character is one of the five plain blanks. -/
def isPlainBlank (c : Char) : Bool :=
  c = ' ' || c = '\t' || c = '\n' || c = '\x0c' || c = '\r'

/-- The text without the characters of a class at its start. -/
def trimStartWhile (p : Char → Bool) (t : Text) : Text := t.dropWhile p

/-- The text without the characters of a class at its end. -/
def trimEndWhile (p : Char → Bool) (t : Text) : Text := (t.reverse.dropWhile p).reverse

/-- The text without blanks at its start. -/
def trimStart (t : Text) : Text := trimStartWhile isBlank t

/-- The text without blanks at its end. -/
def trimEnd (t : Text) : Text := trimEndWhile isBlank t

/-- The text without blanks at either end. -/
def trim (t : Text) : Text := trimEnd (trimStart t)

/-- Whether a text holds nothing but blanks. -/
def allBlank (t : Text) : Bool := t.all isBlank

/-- The work of `words`, with the word being read, reversed. -/
def wordsLoop : Text → Text → List Text
  | word, [] => if word.isEmpty then [] else [word.reverse]
  | word, c :: rest =>
    if isBlank c then
      if word.isEmpty then wordsLoop [] rest else word.reverse :: wordsLoop [] rest
    else wordsLoop (c :: word) rest

/-- The runs of characters between blanks. -/
def words (t : Text) : List Text := wordsLoop [] t

end TemplateEngine.Text
