import TemplateEngine.Text.Letter.Alphabetic
import TemplateEngine.Text.Letter.Cased
import TemplateEngine.Text.Letter.CaseTable

/-!
# Upper case, lower case and titles

A character may have a capital form of up to three characters. Lower case looks
at one neighbourhood only: a capital sigma at the end of a word becomes the
final small sigma. A title has a capital at the start of every run of letters.
-/
namespace TemplateEngine.Letter

/-- The capital form of a character. -/
def upperChar (c : Char) : Text :=
  match upperSpecial.lookup c.toNat with
  | some forms => forms.map Char.ofNat
  | none =>
    match shifted? upperRuns c.toNat with
    | some n => [Char.ofNat n]
    | none => [c]

/-- The small form of a character on its own. -/
def lowerChar (c : Char) : Text :=
  match lowerSpecial.lookup c.toNat with
  | some forms => forms.map Char.ofNat
  | none =>
    match shifted? lowerRuns c.toNat with
    | some n => [Char.ofNat n]
    | none => [c]

/-- The text in capitals. -/
def upper (t : Text) : Text := t.flatMap upperChar

/-- Whether the first character that is not passed over has a case. -/
def meetsCased (t : Text) : Bool :=
  match t.dropWhile isCaseIgnorable with
  | [] => false
  | c :: _ => isCased c

/-- Lower case with the text before it known, nearest character first. -/
def lowerAfter : Text → Text → Text
  | _, [] => []
  | before, c :: rest =>
    let form :=
      if c = 'Σ' then
        if meetsCased before && !meetsCased rest then ['ς'] else ['σ']
      else lowerChar c
    form ++ lowerAfter (c :: before) rest

/-- The text in small letters. -/
def lower (t : Text) : Text := lowerAfter [] t

/-- Title case, knowing whether a letter came right before. -/
def titleAfter : Bool → Text → Text
  | _, [] => []
  | inWord, c :: rest =>
    if isAlphabetic c then
      (if inWord then lowerChar c else upperChar c) ++ titleAfter true rest
    else c :: titleAfter false rest

/-- The text with a capital at the start of every run of letters and small
letters after it. -/
def title (t : Text) : Text := titleAfter false t

end TemplateEngine.Letter
