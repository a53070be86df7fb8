import TemplateEngine.Proofs.Text.Identifier
import TemplateEngine.Syntax.Lexer
import TemplateEngine.Text.Quoted

/-!
# Lexemes

A line of code as the words, symbols, numbers, strings and blanks that it is written
with. A word ends where the next character could not make it longer, and numbers and
symbols do as well, so a line of lexemes reads back as the same lexemes when none of
them goes on with what stands behind it.

A number that fits a machine word is written with its decimal digits, and reads back
unless a letter, another digit or a fraction comes after it.
-/
namespace TemplateEngine

/-- A symbol as it is written. -/
def Symbol.text : Symbol → Text
  | plus => ['+']
  | minus => ['-']
  | star => ['*']
  | slash => ['/']
  | slashSlash => ['/', '/']
  | percent => ['%']
  | equals => ['=']
  | equalsEquals => ['=', '=']
  | notEquals => ['!', '=']
  | less => ['<']
  | lessEquals => ['<', '=']
  | greater => ['>']
  | greaterEquals => ['>', '=']
  | plusEquals => ['+', '=']
  | minusEquals => ['-', '=']
  | starEquals => ['*', '=']
  | leftParen => ['(']
  | rightParen => [')']
  | leftBracket => ['[']
  | rightBracket => [']']
  | leftBrace => ['\x7b']
  | rightBrace => ['\x7d']
  | comma => [',']
  | colon => [':']
  | dot => ['.']

/-- The first character of a symbol. -/
def Symbol.first (symbol : Symbol) : Char := symbol.text.headD ' '

/-- A piece of a line of code. A mark is a symbol that no other one starts with, and a sign
is any symbol. A string comes with the text that it is written as, and a quoted text is
written as texts are printed. -/
inductive Lexeme where
  | blank
  | word (w : Text)
  | mark (c : Char) (symbol : Symbol)
  | string (written value : Text)
  | sign (symbol : Symbol)
  | number (n : Nat)
  | quoted (t : Text)

namespace Lexeme

/-- A lexeme as it is written. -/
def text : Lexeme → Text
  | blank => [' ']
  | word w => w
  | mark c _ => [c]
  | string written _ => written
  | sign symbol => symbol.text
  | number n => Text.ofNat n
  | quoted t => Quoted.encode t

/-- Lexemes as they are written. -/
def line (lexemes : List Lexeme) : Text := lexemes.flatMap text

@[simp] theorem line_nil : line [] = [] := rfl

@[simp] theorem line_cons (l : Lexeme) (ls : List Lexeme) : line (l :: ls) = l.text ++ line ls :=
  List.flatMap_cons

@[simp] theorem line_append (ls ms : List Lexeme) : line (ls ++ ms) = line ls ++ line ms :=
  List.flatMap_append

/-- The symbols that are written with one character and start no longer one. -/
def marks : List (Char × Symbol) :=
  [(':', .colon), ('(', .leftParen), (')', .rightParen), (',', .comma)]

/-- A text after a word: it does not make the word longer. -/
def endsWord (rest : Text) : Prop := ∀ c ∈ rest.head?, Letter.isIdentifierContinue c = false

/-- A text after a symbol: it does not make the symbol longer. -/
def endsSign (rest : Text) : Prop := ∀ c ∈ rest.head?, c ≠ '=' ∧ c ≠ '/'

/-- A text after a number: neither digits nor a fraction nor an exponent. -/
def endsNumber (rest : Text) : Prop := endsWord rest ∧ Literal.fraction rest = ([], rest)

/-- A text after a quoted text: not another quote. -/
def endsQuoted (rest : Text) : Prop := ∀ c ∈ rest.head?, c ≠ '\'' ∧ c ≠ '"'

/-- A word is a letter with letters after it. -/
def isWord : Text → Bool
  | [] => false
  | c :: rest => Letter.isIdentifierStart c && rest.all Letter.isIdentifierContinue

/-- Whether a text between quotes is read as a value, whatever comes after it. -/
def quotes (value : Text) : Text → Prop
  | [] => False
  | c :: inside => c = '"' ∧ ∀ (p : Position) (rest : Text),
      Literal.string p '"' (inside ++ rest) =
        .ok ⟨.string value, rest, p.after ('"' :: inside)⟩

/-- Lexemes that read back when `rest` comes after them. -/
def fits : List Lexeme → Text → Prop
  | [], _ => True
  | .blank :: ls, rest => fits ls rest
  | .word w :: ls, rest => isWord w = true ∧ endsWord (line ls ++ rest) ∧ fits ls rest
  | .mark c symbol :: ls, rest => (c, symbol) ∈ marks ∧ fits ls rest
  | .string written value :: ls, rest => quotes value written ∧ fits ls rest
  | .sign _ :: ls, rest => endsSign (line ls ++ rest) ∧ fits ls rest
  | .number n :: ls, rest => Word.Fits n ∧ endsNumber (line ls ++ rest) ∧ fits ls rest
  | .quoted _ :: ls, rest => endsQuoted (line ls ++ rest) ∧ fits ls rest

theorem ne_nil_of_isWord {w : Text} (h : isWord w = true) : w ≠ [] := by
  rintro rfl
  cases h

theorem continues_of_isWord {w : Text} (h : isWord w = true) :
    ∀ c ∈ w, Letter.isIdentifierContinue c = true := by
  cases w with
  | nil => cases h
  | cons c w =>
      simp only [isWord, Bool.and_eq_true, List.all_eq_true] at h
      intro d hd
      rcases List.mem_cons.mp hd with rfl | hd
      · exact Letter.isIdentifierContinue_of_start h.1
      · exact h.2 d hd

theorem isWord_of_isLatin {w : Text} (h : (!w.isEmpty && w.all Letter.isLatin) = true) :
    isWord w = true := by
  cases w with
  | nil => cases h
  | cons c w =>
      simp only [List.isEmpty_cons, Bool.not_false, Bool.true_and, List.all_cons, Bool.and_eq_true,
        List.all_eq_true] at h
      rw [isWord, Letter.isIdentifierStart_of_isLatin h.1, Bool.true_and, List.all_eq_true]
      exact fun d hd => Letter.isIdentifierContinue_of_isLatin (h.2 d hd)

/-- A mark ends a word. -/
theorem endsWord_cons {c : Char} (h : Letter.isMark c = true) (rest : Text) :
    endsWord (c :: rest) := fun _ hd =>
  Option.some.inj hd ▸ Letter.isIdentifierContinue_of_isMark h

end Lexeme

theorem Letter.isIdentifierContinue_of_isDigit {c : Char} (h : c.isDigit = true) :
    isIdentifierContinue c = true := by
  obtain ⟨hlow, hhigh⟩ := Bool.and_eq_true_iff.mp h
  exact inRanges_of_range ascending_continue (show (48, 57) ∈ _ by decide)
    (of_decide_eq_true hlow) (of_decide_eq_true hhigh)

theorem Letter.isIdentifierStart_of_isDigit {c : Char} (h : c.isDigit = true) :
    isIdentifierStart c = false := by
  obtain ⟨hlow, hhigh⟩ := Bool.and_eq_true_iff.mp h
  have hrange : ∀ n ∈ List.range' 48 10, isIdentifierStart (Char.ofNat n) = false := by decide
  have hstart := hrange c.toNat (List.mem_range'_1.mpr
    ⟨of_decide_eq_true hlow, Nat.lt_succ_of_le (of_decide_eq_true hhigh)⟩)
  rwa [Char.ofNat_toNat] at hstart

theorem Text.isDigit_of_mem_ofNat {n : Nat} {c : Char} (h : c ∈ Text.ofNat n) :
    c.isDigit = true := Nat.isDigit_of_mem_toDigits (by omega) (by omega) h

theorem Word.digits?_ofNat (n : Nat) : digits? (Text.ofNat n) = some n := by
  have hempty : (Text.ofNat n).isEmpty = false := by
    rw [List.isEmpty_eq_false_iff]
    exact Nat.toDigits_ne_nil
  have hall : (Text.ofNat n).all Char.isDigit = true :=
    List.all_eq_true.mpr fun _ hc => Text.isDigit_of_mem_ofNat hc
  have hvalue : Nat.ofDigitChars 10 (Text.ofNat n) 0 = n := Nat.ofDigitChars_ten_toDigits
  rw [digits?, hempty, hall, hvalue]
  rfl

theorem Text.ofNat_first (n : Nat) : ∃ c rest, Text.ofNat n = c :: rest ∧ c.isDigit = true := by
  obtain ⟨c, rest, hrest⟩ := List.exists_cons_of_ne_nil
    (show Text.ofNat n ≠ [] from Nat.toDigits_ne_nil)
  exact ⟨c, rest, hrest, isDigit_of_mem_ofNat (by rw [hrest]; exact List.mem_cons_self)⟩

theorem Word.ofText?_ofNat {n : Nat} (h : Fits n) : ofText? (Text.ofNat n) = some (n : Int) := by
  obtain ⟨c, rest, hrest, hc⟩ := Text.ofNat_first n
  have hminus : c ≠ '-' := by
    rintro rfl
    cases hc
  have hplus : c ≠ '+' := by
    rintro rfl
    cases hc
  have hsign : ofText? (Text.ofNat n) =
      (digits? (Text.ofNat n)).bind fun n => checked? n := by
    rw [hrest]
    unfold ofText?
    split
    · exact absurd (List.cons.inj ‹_›).1 hminus
    · exact absurd (List.cons.inj ‹_›).1 hplus
    · rfl
  rw [hsign, digits?_ofNat]
  exact if_pos h

namespace Literal

theorem digitRun_digits {t rest : Text} (ht : ∀ c ∈ t, c.isDigit = true)
    (hrest : Lexeme.endsWord rest) : digitRun (t ++ rest) = (t, rest) := by
  induction t with
  | nil =>
      cases rest with
      | nil => rfl
      | cons c rest =>
          have hc := hrest c rfl
          have hdigit : c.isDigit = false := by
            rw [Bool.eq_false_iff]
            intro h
            rw [Letter.isIdentifierContinue_of_isDigit h] at hc
            cases hc
          have hunderscore : c ≠ '_' := by
            rintro rfl
            rw [Letter.isIdentifierContinue_of_isLatin (by decide)] at hc
            cases hc
          rw [List.nil_append, digitRun.eq_def]
          simp [hdigit, hunderscore]
  | cons c t ih =>
      have hc := ht c List.mem_cons_self
      rw [List.cons_append, digitRun.eq_def]
      simp only [hc, if_true, ih fun d hd => ht d (List.mem_cons_of_mem c hd)]

theorem exponent_of_endsWord {rest : Text} (hrest : Lexeme.endsWord rest) :
    exponent rest = ([], rest) := by
  match rest with
  | [] | [_] => rfl
  | c :: sign :: rest =>
      have hc := hrest c rfl
      have hne : ¬ (c = 'e' ∨ c = 'E') := by
        rintro (rfl | rfl) <;>
          · rw [Letter.isIdentifierContinue_of_isLatin (by decide)] at hc
            cases hc
      rw [exponent]
      simp only [Bool.or_eq_true, decide_eq_true_eq, if_neg hne]

theorem plainNumber_digits {t : Text} (ht : ∀ c ∈ t, c.isDigit = true) : plainNumber t = t := by
  have hne : ∀ c ∈ t, ∀ d, d.isDigit = false → c ≠ d := by
    rintro c hc d hd rfl
    rw [ht c hc] at hd
    cases hd
  have hfilter : t.filter (· ≠ '_') = t := by
    rw [List.filter_eq_self]
    exact fun c hc => decide_eq_true (hne c hc '_' rfl)
  rw [plainNumber, hfilter]
  refine (List.map_congr_left fun c hc => ?_).trans (List.map_id t)
  rw [if_neg (hne c hc 'E' rfl)]
  rfl

/-- The decimal digits of a number are read as that number. -/
theorem number_ofNat (p : Position) {n : Nat} (hn : Word.Fits n) {rest : Text}
    (hrest : Lexeme.endsNumber rest) :
    number p (Text.ofNat n ++ rest) = .ok ⟨.int n, rest, p.after (Text.ofNat n)⟩ := by
  have hdigits : ∀ c ∈ Text.ofNat n, c.isDigit = true := fun _ hc => Text.isDigit_of_mem_ofNat hc
  unfold number
  simp only [digitRun_digits hdigits hrest.1, hrest.2, exponent_of_endsWord hrest.1,
    List.append_nil, List.isEmpty_nil, Bool.and_self, if_true, plainNumber_digits hdigits,
    Word.ofText?_ofNat hn, Option.map_some, Int.toNat_natCast]

end Literal

end TemplateEngine
