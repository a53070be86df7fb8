import TemplateEngine.Proofs.Json.Numbers
import TemplateEngine.Proofs.Script.Arithmetic
import TemplateEngine.Proofs.Syntax.Lexemes
import TemplateEngine.Proofs.Text.Trimming

/-!
# What percent formatting gives

A format is written from texts, with every percent sign doubled, and directives between
them. It is cut into the same texts and directives again, whatever stands next to each
other, so each directive makes a field of its own value: the text of the value, or the
digits of an integer, filled up to the width. The field of an integer reads back as the
integer, with blanks around it or zeros after its sign. As many values are needed as there
are directives.
-/
namespace TemplateEngine.Format

/-- A flag of a directive. -/
inductive Flag where
  | minus
  | zero
  deriving DecidableEq, Repr

/-- A flag as it is written. -/
def Flag.char : Flag → Char
  | minus => '-'
  | zero => '0'

/-- What a directive makes a field of: the text of any value, or an integer. -/
inductive Subject where
  | text
  | integer
  deriving DecidableEq, Repr

/-- The last character of a directive. -/
def Subject.char : Subject → Char
  | text => 's'
  | integer => 'd'

/-- A directive of a format: any flags, a width, and what it makes a field of. -/
structure Directive where
  flags : List Flag
  width : Nat
  subject : Subject
  width_le : width ≤ maxField := by decide

namespace Directive

/-- The digits of the width. No width is written as zero, which would be another flag. -/
def digits (d : Directive) : Text := if d.width = 0 then [] else Text.ofNat d.width

/-- A directive as it is written. -/
def written (d : Directive) : Text :=
  '%' :: (d.flags.map Flag.char ++ (d.digits ++ [d.subject.char]))

/-- How the directive fills its field. -/
def field (d : Directive) : Field :=
  ⟨decide (.minus ∈ d.flags), decide (.zero ∈ d.flags), d.width, none⟩

end Directive

/-- A text with every percent sign doubled. -/
def doubled (t : Text) : Text := t.flatMap fun c => if c = '%' then ['%', '%'] else [c]

/-- The rest of a format: directives, each with the text after it. -/
def writtenParts (parts : List (Directive × Text)) : Text :=
  parts.flatMap fun part => part.1.written ++ doubled part.2

/-- A format: a text, and directives each with the text after it. -/
def written (first : Text) (parts : List (Directive × Text)) : Text :=
  doubled first ++ writtenParts parts

section Reading

theorem piecesFrom_step {reading next : Reading} {c : Char} {done : List Piece}
    (hstep : step reading c = (done, some next)) (rest : Text) :
    piecesFrom reading (c :: rest) = done ++ piecesFrom next rest := by
  cases reading <;> rw [piecesFrom, hstep]

theorem pieces_doubled (t rest : Text) :
    piecesFrom .text (doubled t ++ rest) = t.map .plain ++ piecesFrom .text rest := by
  induction t with
  | nil => rfl
  | cons c t ih =>
      have hcons : doubled (c :: t) = (if c = '%' then ['%', '%'] else [c]) ++ doubled t := rfl
      rw [hcons, List.append_assoc, List.map_cons, List.cons_append, ← ih]
      split
      · rename_i hc
        subst hc
        have hopen : step .text '%' = ([], some .opened) := rfl
        have hsecond : step .opened '%' = ([.plain '%'], some .text) := rfl
        exact (piecesFrom_step hopen _).trans (piecesFrom_step hsecond _)
      · rename_i hc
        exact piecesFrom_step (by rw [step, if_neg hc]) _

/-- A field with one more flag. -/
def Field.flagged (field : Field) : Flag → Field
  | .minus => { field with leftAligned := true }
  | .zero => { field with zeroFilled := true }

theorem foldl_flagged (flags : List Flag) (field : Field) :
    flags.foldl Field.flagged field =
      { field with
        leftAligned := field.leftAligned || decide (.minus ∈ flags)
        zeroFilled := field.zeroFilled || decide (.zero ∈ flags) } := by
  induction flags generalizing field with
  | nil => simp
  | cons flag flags ih =>
      rw [List.foldl_cons, ih]
      cases flag <;> simp [Field.flagged]

/-- A reading that takes any character but a percent sign and a flag for the width of a field. -/
def Reading.Expects (reading : Reading) (field : Field) : Prop :=
  ∀ c, c ≠ '%' → c ≠ '-' → c ≠ '0' → step reading c = stepWidth field c

theorem expects_opened : Reading.opened.Expects plainField := by
  intro c hpercent hminus hzero
  rw [step, if_neg hpercent, if_neg hminus, if_neg hzero]

theorem expects_flags (field : Field) : (Reading.flags field).Expects field := by
  intro c _ hminus hzero
  rw [step, if_neg hminus, if_neg hzero]

theorem expects_width (field : Field) : (Reading.width field).Expects field :=
  fun _ _ _ _ => rfl

theorem pieces_flags (flags : List Flag) (field : Field) (rest : Text) :
    piecesFrom (.flags field) (flags.map Flag.char ++ rest) =
      piecesFrom (.flags (flags.foldl Field.flagged field)) rest := by
  induction flags generalizing field with
  | nil => rfl
  | cons flag flags ih =>
      have hstep : step (.flags field) flag.char = ([], some (.flags (field.flagged flag))) := by
        cases flag <;> rfl
      exact (piecesFrom_step hstep _).trans (ih _)

/-- After the flags the width is expected, whether there are any or not. -/
theorem exists_expecting (flags : List Flag) : ∃ reading : Reading,
    reading.Expects (flags.foldl Field.flagged plainField) ∧
      ∀ rest, piecesFrom .opened (flags.map Flag.char ++ rest) = piecesFrom reading rest := by
  cases flags with
  | nil => exact ⟨.opened, expects_opened, fun _ => rfl⟩
  | cons flag flags =>
      have hstep : step .opened flag.char = ([], some (.flags (plainField.flagged flag))) := by
        cases flag <;> rfl
      exact ⟨_, expects_flags _, fun rest =>
        (piecesFrom_step hstep _).trans (pieces_flags flags _ rest)⟩

theorem stepWidth_digit {field : Field} {c : Char} (hc : c.isDigit = true)
    (hmax : 10 * field.width + (c.toNat - '0'.toNat) ≤ maxField) :
    stepWidth field c =
      ([], some (.width { field with width := 10 * field.width + (c.toNat - '0'.toNat) })) := by
  rw [Nat.mul_comm] at hmax ⊢
  unfold stepWidth
  rw [if_pos hc]
  exact if_pos hmax

/-- Digits go on with a width as they go on with a number. -/
theorem pieces_digits {digits : Text} (hdigits : ∀ c ∈ digits, c.isDigit = true) (field : Field)
    (hmax : Nat.ofDigitChars 10 digits field.width ≤ maxField) (rest : Text) :
    piecesFrom (.width field) (digits ++ rest) =
      piecesFrom (.width { field with width := Nat.ofDigitChars 10 digits field.width }) rest := by
  induction digits generalizing field with
  | nil => rfl
  | cons c digits ih =>
      rw [Nat.ofDigitChars_cons] at hmax ⊢
      have hle := Json.le_ofDigitChars digits (10 * field.width + (c.toNat - '0'.toNat))
      have hstep : step (.width field) c = _ :=
        stepWidth_digit (hdigits c List.mem_cons_self) (hle.trans hmax)
      exact (piecesFrom_step hstep _).trans
        (ih (fun e he => hdigits e (List.mem_cons_of_mem c he)) _ hmax)

theorem ne_of_isDigit {c d : Char} (hc : c.isDigit = true) (hd : d.isDigit = false) : c ≠ d := by
  rintro rfl
  rw [hc] at hd
  cases hd

/-- What a directive makes a field of ends the reading. -/
theorem Reading.Expects.subject {reading : Reading} {field : Field}
    (hreading : reading.Expects field) (subject : Subject) (rest : Text) :
    piecesFrom reading ([subject.char] ++ rest) =
      .conversion field subject.char :: piecesFrom .text rest := by
  have hstep : step reading subject.char = ([.conversion field subject.char], some .text) := by
    cases subject <;> exact hreading _ (by decide) (by decide) (by decide)
  exact piecesFrom_step hstep rest

/-- The digits of a number are read as a width where one is expected. The first of them is no zero,
so it is not taken for a flag. -/
theorem Reading.Expects.number {reading : Reading} {field : Field}
    (hreading : reading.Expects field) (hfield : field.width = 0) {n : Nat} (hn : n ≠ 0)
    (hmax : n ≤ maxField) (rest : Text) :
    piecesFrom reading (Text.ofNat n ++ rest) =
      piecesFrom (.width { field with width := n }) rest := by
  have hvalue : Nat.ofDigitChars 10 (Text.ofNat n) 0 = n := Nat.ofDigitChars_ten_toDigits
  have hhead := Json.head_toDigits (Nat.pos_of_ne_zero hn)
  have hdigits : ∀ c ∈ Text.ofNat n, c.isDigit = true := fun _ => Text.isDigit_of_mem_ofNat
  cases htext : Text.ofNat n with
  | nil => exact absurd htext Nat.toDigits_ne_nil
  | cons c digits =>
      have hzero : c ≠ '0' := by
        rintro rfl
        exact hhead (congrArg List.head? htext)
      rw [htext] at hdigits hvalue
      have hc := hdigits c List.mem_cons_self
      rw [Nat.ofDigitChars_cons, ← hfield] at hvalue
      have hwidth := hvalue.trans_le hmax
      have hle := Json.le_ofDigitChars digits (10 * field.width + (c.toNat - '0'.toNat))
      have hstep := (hreading c (ne_of_isDigit hc rfl) (ne_of_isDigit hc rfl) hzero).trans
        (stepWidth_digit hc (hle.trans hwidth))
      have hrest := pieces_digits (fun e he => hdigits e (List.mem_cons_of_mem c he))
        { field with width := 10 * field.width + (c.toNat - '0'.toNat) } hwidth rest
      rw [List.cons_append, piecesFrom_step hstep, hrest, hvalue]
      rfl

/-- The width of a directive is read where one is expected, whether it is written or not. -/
theorem pieces_width {reading : Reading} {field : Field} (hreading : reading.Expects field)
    (hfield : field.width = 0) (d : Directive) (rest : Text) :
    piecesFrom reading (d.digits ++ ([d.subject.char] ++ rest)) =
      .conversion { field with width := d.width } d.subject.char :: piecesFrom .text rest := by
  unfold Directive.digits
  split
  · rename_i hwidth
    rw [hwidth, ← hfield]
    exact hreading.subject d.subject rest
  · rename_i hwidth
    rw [hreading.number hfield hwidth d.width_le]
    exact (expects_width _).subject d.subject rest

/-- A directive is read as it is written. -/
theorem pieces_directive (d : Directive) (rest : Text) :
    piecesFrom .text (d.written ++ rest) =
      .conversion d.field d.subject.char :: piecesFrom .text rest := by
  obtain ⟨reading, hreading, hflags⟩ := exists_expecting d.flags
  have hopen : step .text '%' = ([], some .opened) := rfl
  have hfield : d.field = { d.flags.foldl Field.flagged plainField with width := d.width } := by
    rw [foldl_flagged]
    simp [Directive.field, plainField]
  have hwidth : (d.flags.foldl Field.flagged plainField).width = 0 := by
    rw [foldl_flagged]
    rfl
  rw [Directive.written, List.cons_append, piecesFrom_step hopen, List.nil_append,
    List.append_assoc, hflags, List.append_assoc, pieces_width hreading hwidth, hfield]

end Reading

/-- A text whose ends are visible is what is left of it between blanks. -/
theorem trim_visible {t : Text} (ht : ∀ c ∈ t, Text.isBlank c = false) {before behind : Text}
    (hbefore : ∀ c ∈ before, Text.isBlank c = true)
    (hbehind : ∀ c ∈ behind, Text.isBlank c = true) :
    Text.trim (before ++ (t ++ behind)) = t := by
  have hstart (u : Text) : Text.trimStart (before ++ u) = Text.trimStart u := by
    rw [Text.trimStart, Text.trimStartWhile, List.dropWhile_append_of_pos hbefore]
    rfl
  cases t with
  | nil =>
      rw [Text.trim, hstart]
      apply Text.trim_of_allBlank
      exact List.all_eq_true.mpr hbehind
  | cons c t =>
      have hc := ht c List.mem_cons_self
      have hend : Text.trimEnd (c :: t) = c :: t := by
        rw [Text.trimEnd, Text.trimEndWhile, List.dropWhile_eq_self_iff.mpr, List.reverse_reverse]
        intro hlength
        rw [Bool.not_eq_true]
        exact ht _ (List.mem_reverse.mp (List.getElem_mem hlength))
      have hvisible : Text.StartsVisible (c :: t ++ behind) := ⟨c, t ++ behind, rfl, hc⟩
      rw [Text.trim, hstart, hvisible.trimStart, Text.trimEnd_append_blanks _ hbehind, hend]

section Integers

/-- The sign of an integer as it is written. -/
def sign (n : Int) : Text := if n < 0 then ['-'] else []

theorem ofInt_eq (n : Int) : Text.ofInt n = sign n ++ Text.ofNat n.natAbs := by
  unfold Text.ofInt sign
  split <;> rfl

theorem ofDigitChars_zeros (k : Nat) (t : Text) :
    Nat.ofDigitChars 10 (Text.times k '0' ++ t) 0 = Nat.ofDigitChars 10 t 0 := by
  induction k with
  | zero => rfl
  | succ k ih => exact (Nat.ofDigitChars_cons ..).trans ih

theorem isDigit_zeros (k n : Nat) : ∀ c ∈ Text.times k '0' ++ Text.ofNat n, c.isDigit = true := by
  intro c hc
  rcases List.mem_append.mp hc with hzero | hdigit
  · rw [List.eq_of_mem_replicate hzero]
    rfl
  · exact Text.isDigit_of_mem_ofNat hdigit

/-- Zeros before the digits of a number leave it what it is. -/
theorem digits?_zeros (k n : Nat) :
    Word.digits? (Text.times k '0' ++ Text.ofNat n) = some n := by
  have hvalue : Nat.ofDigitChars 10 (Text.ofNat n) 0 = n := Nat.ofDigitChars_ten_toDigits
  have hempty : (Text.times k '0' ++ Text.ofNat n).isEmpty = false := by
    rw [List.isEmpty_eq_false_iff]
    exact List.append_ne_nil_of_right_ne_nil _ Nat.toDigits_ne_nil
  have hall : (Text.times k '0' ++ Text.ofNat n).all Char.isDigit = true :=
    List.all_eq_true.mpr (isDigit_zeros k n)
  rw [Word.digits?, hempty, hall, ofDigitChars_zeros, hvalue]
  rfl

/-- Zeros after the sign of an integer leave it what it is. -/
theorem ofText?_zeros (k : Nat) {n : Int} (hn : Word.Fits n) :
    Word.ofText? (sign n ++ (Text.times k '0' ++ Text.ofNat n.natAbs)) = some n := by
  have hdigits := digits?_zeros k n.natAbs
  unfold sign
  split
  · rename_i hneg
    have habs : -(n.natAbs : Int) = n := by omega
    rw [List.cons_append, List.nil_append]
    change (Word.digits? _).bind _ = _
    rw [hdigits, Option.bind_some, habs, Word.checked?_of_fits hn]
  · rename_i hpos
    have habs : (n.natAbs : Int) = n := by omega
    have hunsigned : Word.ofText? (Text.times k '0' ++ Text.ofNat n.natAbs) =
        (Word.digits? (Text.times k '0' ++ Text.ofNat n.natAbs)).bind fun n =>
          Word.checked? n := by
      have hdigit := isDigit_zeros k n.natAbs
      unfold Word.ofText?
      split
      · rename_i htext
        exact absurd (hdigit '-' (htext ▸ List.mem_cons_self)) (by decide)
      · rename_i htext
        exact absurd (hdigit '+' (htext ▸ List.mem_cons_self)) (by decide)
      · rfl
    rw [List.nil_append, hunsigned, hdigits, Option.bind_some, habs, Word.checked?_of_fits hn]

theorem isBlank_of_isDigit {c : Char} (hc : c.isDigit = true) : Text.isBlank c = false := by
  obtain ⟨hlow, hhigh⟩ := Bool.and_eq_true_iff.mp hc
  have hrange : ∀ n ∈ List.range' 48 10, Text.isBlank (Char.ofNat n) = false := by decide
  have hblank := hrange c.toNat (List.mem_range'_1.mpr
    ⟨of_decide_eq_true hlow, Nat.lt_succ_of_le (of_decide_eq_true hhigh)⟩)
  rwa [Char.ofNat_toNat] at hblank

/-- An integer is read from its sign and its digits, with zeros and blanks where a field has
them. -/
theorem integerOf_field (k : Nat) {n : Int} (hn : Word.Fits n) {before behind : Text}
    (hbefore : ∀ c ∈ before, Text.isBlank c = true)
    (hbehind : ∀ c ∈ behind, Text.isBlank c = true) :
    Builtin.integerOf (some (.str
      (before ++ (sign n ++ (Text.times k '0' ++ Text.ofNat n.natAbs) ++ behind)))) = .ok n := by
  have hvisible : ∀ c ∈ sign n ++ (Text.times k '0' ++ Text.ofNat n.natAbs),
      Text.isBlank c = false ∧ c ≠ '_' := by
    intro c hc
    rcases List.mem_append.mp hc with hsign | hdigit
    · have hminus : c = '-' := by
        unfold sign at hsign
        split at hsign
        · exact List.mem_singleton.mp hsign
        · cases hsign
      subst hminus
      decide
    · have hdigit := isDigit_zeros k n.natAbs c hdigit
      exact ⟨isBlank_of_isDigit hdigit, ne_of_isDigit hdigit rfl⟩
  rw [Builtin.integerOf, trim_visible (fun c hc => (hvisible c hc).1) hbefore hbehind,
    List.filter_eq_self.mpr fun c hc => decide_eq_true (hvisible c hc).2, ofText?_zeros k hn]

end Integers

namespace Directive

/-- How a directive fills a text up to its width: with blanks behind it, with zeros after the sign
of an integer, or with blanks before it. -/
structure Fills (d : Directive) (t f : Text) : Prop where
  length : f.length = max d.width t.length
  left : .minus ∈ d.flags → ∃ k, f = t ++ Text.times k ' '
  right : .minus ∉ d.flags → (d.subject = .text ∨ .zero ∉ d.flags) →
    ∃ k, f = Text.times k ' ' ++ t
  zeros : .minus ∉ d.flags → d.subject = .integer → .zero ∈ d.flags →
    ∃ n k, t = sign n ++ Text.ofNat n.natAbs ∧
      f = sign n ++ (Text.times k '0' ++ Text.ofNat n.natAbs)

/-- What a directive makes of a value: the text of the value, or the digits of an integer that the
field reads back as. -/
structure Shows (h : Heap) (d : Directive) (v : Value) (f : Text) : Prop where
  text : d.subject = .text →
    ∃ t, Builtin.str.call ⟨[v], []⟩ h = .ok (.str t, h) ∧ d.Fills t f
  integer : d.subject = .integer → ∃ n, v.integer? = some n ∧ d.Fills (Text.ofInt n) f ∧
    Builtin.int.call ⟨[.str f], []⟩ h = .ok (.int n, h)

/-- A value that a directive can make a field of. -/
def Suits (d : Directive) (v : Value) : Prop :=
  d.subject = .integer → ∃ n, v.integer? = some n ∧ Word.Fits n

end Directive

section Padding

variable {d : Directive}

theorem length_times (k : Nat) (c : Char) : (Text.times k c).length = k := List.length_replicate

theorem isBlank_times {k : Nat} : ∀ c ∈ Text.times k ' ', Text.isBlank c = true := by
  intro c hc
  rw [List.eq_of_mem_replicate hc]
  decide

theorem pad_left (hminus : .minus ∈ d.flags) (isNumber : Bool) (t : Text) :
    pad d.field isNumber t = t ++ Text.times (d.width - t.length) ' ' :=
  if_pos (decide_eq_true hminus)

theorem pad_right {isNumber : Bool} (hminus : .minus ∉ d.flags)
    (hnumber : isNumber = false ∨ .zero ∉ d.flags) (t : Text) :
    pad d.field isNumber t = Text.times (d.width - t.length) ' ' ++ t := by
  have hblank : (d.field.zeroFilled && isNumber) = false := by
    rcases hnumber with rfl | hzero
    · exact Bool.and_false _
    · rw [Directive.field, decide_eq_false hzero, Bool.false_and]
  unfold pad
  dsimp only
  rw [if_neg (by simpa [Directive.field] using hminus), hblank, if_neg Bool.false_ne_true]
  rfl

theorem pad_zeros (hminus : .minus ∉ d.flags) (hzero : .zero ∈ d.flags) (n : Int) :
    pad d.field true (Text.ofInt n) =
      sign n ++ (Text.times (d.width - (Text.ofInt n).length) '0' ++ Text.ofNat n.natAbs) := by
  have hfilled : (d.field.zeroFilled && true) = true := by
    rw [Directive.field, decide_eq_true hzero, Bool.and_true]
  unfold pad
  dsimp only
  rw [if_neg (by simpa [Directive.field] using hminus), hfilled, if_pos rfl]
  by_cases hn : n < 0
  · rw [sign, if_pos hn, Text.ofInt, if_pos hn]
    rfl
  · obtain ⟨c, rest, hrest, hc⟩ := Text.ofNat_first n.natAbs
    rw [sign, if_neg hn, Text.ofInt, if_neg hn, hrest]
    split
    · rename_i hfirst
      exact absurd (List.cons.inj hfirst).1 (ne_of_isDigit hc rfl)
    · rfl

/-- A text is filled up in the way that the flags of the directive ask for. -/
theorem fills_text (hsubject : d.subject = .text) (t : Text) : d.Fills t (pad d.field false t) where
  length := by
    by_cases hminus : .minus ∈ d.flags
    · rw [pad_left hminus, List.length_append, length_times]
      omega
    · rw [pad_right hminus (.inl rfl), List.length_append, length_times]
      omega
  left hminus := ⟨_, pad_left hminus false t⟩
  right hminus _ := ⟨_, pad_right hminus (.inl rfl) t⟩
  zeros _ hinteger _ := by
    rw [hsubject] at hinteger
    cases hinteger

theorem fills_integer (hsubject : d.subject = .integer) (n : Int) :
    d.Fills (Text.ofInt n) (pad d.field true (Text.ofInt n)) where
  length := by
    by_cases hminus : .minus ∈ d.flags
    · rw [pad_left hminus, List.length_append, length_times]
      omega
    · by_cases hzero : .zero ∈ d.flags
      · have hlength : (Text.ofInt n).length = (sign n).length + (Text.ofNat n.natAbs).length := by
          rw [ofInt_eq, List.length_append]
        rw [pad_zeros hminus hzero, List.length_append, List.length_append, length_times]
        omega
      · rw [pad_right hminus (.inr hzero), List.length_append, length_times]
        omega
  left hminus := ⟨_, pad_left hminus true _⟩
  right hminus hother := by
    have hzero : .zero ∉ d.flags := by
      rcases hother with htext | hzero
      · rw [hsubject] at htext
        cases htext
      · exact hzero
    exact ⟨_, pad_right hminus (.inr hzero) _⟩
  zeros hminus _ hzero := ⟨n, _, ofInt_eq n, pad_zeros hminus hzero n⟩

/-- The field of an integer reads back as the integer, however it is filled. -/
theorem integerOf_pad (d : Directive) {n : Int} (hn : Word.Fits n) :
    Builtin.integerOf (some (.str (pad d.field true (Text.ofInt n)))) = .ok n := by
  have hplain (before behind : Text) (hbefore : ∀ c ∈ before, Text.isBlank c = true)
      (hbehind : ∀ c ∈ behind, Text.isBlank c = true) :
      Builtin.integerOf (some (.str (before ++ (Text.ofInt n ++ behind)))) = .ok n := by
    rw [ofInt_eq]
    exact integerOf_field 0 hn hbefore hbehind
  by_cases hminus : .minus ∈ d.flags
  · rw [pad_left hminus]
    exact hplain [] _ nofun isBlank_times
  · by_cases hzero : .zero ∈ d.flags
    · have hempty : ∀ c ∈ ([] : Text), Text.isBlank c = true := nofun
      have hfield := integerOf_field (d.width - (Text.ofInt n).length) hn hempty hempty
      rw [List.append_nil] at hfield
      rw [pad_zeros hminus hzero]
      exact hfield
    · have hblanks := hplain (Text.times (d.width - (Text.ofInt n).length) ' ') [] isBlank_times
        nofun
      rw [List.append_nil] at hblanks
      rw [pad_right hminus (.inr hzero)]
      exact hblanks

end Padding

section Filling

variable {h : Heap} {d : Directive} {v : Value}

theorem fill_plain (t : Text) (pieces : List Piece) (values : List Value) :
    fill h (t.map .plain ++ pieces) values = (fill h pieces values).map (t ++ ·) := by
  induction t with
  | nil =>
      rw [List.map_nil, List.nil_append]
      cases fill h pieces values <;> rfl
  | cons c t ih =>
      rw [List.map_cons, List.cons_append, fill, ih]
      cases fill h pieces values <;> rfl

/-- A value that suits a directive is converted and makes a field. -/
theorem exists_convert (hv : d.Suits v) : ∃ t isNumber,
    convert h d.field d.subject.char v = .ok (t, isNumber) ∧
      d.Shows h v (pad d.field isNumber t) := by
  cases hsubject : d.subject with
  | text =>
      refine ⟨h.display v, false, rfl, ?_, ?_⟩
      · exact fun _ => ⟨_, rfl, fills_text hsubject _⟩
      · intro hinteger
        rw [hsubject] at hinteger
        cases hinteger
  | integer =>
      obtain ⟨n, hn, hfits⟩ := hv hsubject
      have hconvert : convert h d.field 'd' v = .ok (Text.ofInt n, true) := by
        rw [convert, if_neg (by decide), if_neg (by decide), if_pos (by decide),
          Value.number?_of_integer? hn]
      refine ⟨Text.ofInt n, true, hconvert, ?_, ?_⟩
      · intro htext
        rw [hsubject] at htext
        cases htext
      · intro _
        refine ⟨n, hn, fills_integer hsubject n, ?_⟩
        have hread := Effect.ofExcept_eq_ok (h := h) (integerOf_pad d hfits)
        exact Effect.bind_ok (f := fun n => pure (Value.int n)) hread

/-- The rest of what a format gives: the field of each value, with the text after it. -/
inductive Filled (h : Heap) : List (Directive × Text) → List Value → Text → Prop
  | nil : Filled h [] [] []
  | cons {d : Directive} {t f rest : Text} {v : Value} {parts : List (Directive × Text)}
      {values : List Value} : d.Shows h v f → Filled h parts values rest →
      Filled h ((d, t) :: parts) (v :: values) (f ++ (t ++ rest))

theorem pieces_part (d : Directive) (t rest : Text) :
    piecesFrom .text (d.written ++ doubled t ++ rest) =
      .conversion d.field d.subject.char :: (t.map .plain ++ piecesFrom .text rest) := by
  rw [List.append_assoc, pieces_directive, pieces_doubled]

/-- Directives and values are used up together, or one of them is left over. -/
theorem fill_parts {parts : List (Directive × Text)} {values : List Value}
    (hsuits : ∀ pair ∈ parts.zip values, pair.1.1.Suits pair.2) :
    (values.length = parts.length → ∃ out, Filled h parts values out ∧
      fill h (piecesFrom .text (writtenParts parts)) values = .ok out) ∧
    (values.length ≠ parts.length →
      Raises .typeError (fill h (piecesFrom .text (writtenParts parts)) values)) := by
  induction parts generalizing values with
  | nil =>
      cases values with
      | nil => exact ⟨fun _ => ⟨[], .nil, rfl⟩, fun hne => absurd rfl hne⟩
      | cons v values => exact ⟨nofun, fun _ => ⟨.notAllFormatted, rfl, rfl⟩⟩
  | cons part parts ih =>
      obtain ⟨d, t⟩ := part
      have hpieces : piecesFrom .text (writtenParts ((d, t) :: parts)) =
          .conversion d.field d.subject.char ::
            (t.map .plain ++ piecesFrom .text (writtenParts parts)) :=
        pieces_part d t _
      rw [hpieces]
      cases values with
      | nil => exact ⟨nofun, fun _ => ⟨.notEnoughFormatted, rfl, rfl⟩⟩
      | cons v values =>
          rw [List.zip_cons_cons, List.forall_mem_cons] at hsuits
          obtain ⟨hall, hleft⟩ := ih hsuits.2
          -- a value that suits its directive never fails, so only the number of values can
          obtain ⟨u, isNumber, hconvert, hshows⟩ := exists_convert hsuits.1
          have hfill : fill h (.conversion d.field d.subject.char ::
                (t.map .plain ++ piecesFrom .text (writtenParts parts))) (v :: values) =
              ((fill h (piecesFrom .text (writtenParts parts)) values).map (t ++ ·)).map
                (pad d.field isNumber u ++ ·) := by
            rw [fill, hconvert, fill_plain]
            cases fill h (piecesFrom .text (writtenParts parts)) values <;> rfl
          rw [hfill]
          constructor
          · intro hlength
            obtain ⟨out, hout, hrest⟩ := hall (Nat.succ.inj hlength)
            exact ⟨_, .cons hshows hout, by rw [hrest]; rfl⟩
          · intro hlength
            obtain ⟨cause, hcause, hkind⟩ := hleft fun heq => hlength (congrArg Nat.succ heq)
            exact ⟨cause, by rw [hcause]; rfl, hkind⟩

end Filling

/-- A format gives its texts with a field for each directive between them, and each field shows the
value at its place: filled up to the width by the flags, and reading back as the integer if it is
that of one. Fewer values than directives, or more, are a type error. -/
theorem percent_exact (h : Heap) {format : Value} {first : Text} {parts : List (Directive × Text)}
    {p : Nat} (hformat : format.text? = some (written first parts))
    (hsuits : ∀ pair ∈ parts.zip (h.tuple p), pair.1.1.Suits pair.2) :
    ((h.tuple p).length = parts.length → ∃ out, Filled h parts (h.tuple p) out ∧
      Operator.binary .mod format (.tuple p) h = .ok (.str (first ++ out), h)) ∧
    ((h.tuple p).length ≠ parts.length →
      Raises .typeError (Operator.binary .mod format (.tuple p) h)) := by
  have happly : apply h (written first parts) (.tuple p) =
      (fill h (piecesFrom .text (writtenParts parts)) (h.tuple p)).map (first ++ ·) := by
    change fill h (piecesFrom .text (doubled first ++ writtenParts parts)) (h.tuple p) = _
    rw [pieces_doubled, fill_plain]
  have hbinary : Operator.binary .mod format (.tuple p) h =
      ((fill h (piecesFrom .text (writtenParts parts)) (h.tuple p)).map (first ++ ·)).map
        fun t => (.str t, h) := by
    -- a remainder of text is a format, whether the text is safe or not
    have heffect : Operator.binary .mod format (.tuple p) =
        Effect.checking (fun h => apply h (written first parts) (.tuple p)) >>= fun t =>
          pure (.str t) := by
      cases format <;> first | cases hformat; rfl | cases hformat
    rw [heffect]
    change Except.bind ((apply h (written first parts) (.tuple p)).map fun t => (t, h)) _ = _
    rw [happly]
    cases fill h (piecesFrom .text (writtenParts parts)) (h.tuple p) <;> rfl
  obtain ⟨hall, hleft⟩ := fill_parts hsuits
  rw [hbinary]
  constructor
  · intro hlength
    obtain ⟨out, hout, hfill⟩ := hall hlength
    exact ⟨out, hout, by rw [hfill]; rfl⟩
  · intro hlength
    obtain ⟨cause, hcause, hkind⟩ := hleft hlength
    exact ⟨cause, by rw [hcause]; rfl, hkind⟩

/-- A text, an integer with zeros after its sign, and a truth value with blanks behind it. -/
def rowParts : List (Directive × Text) :=
  [(⟨[], 0, .text, by decide⟩, "="), (⟨[.zero], 5, .integer, by decide⟩, "|"),
    (⟨[.minus, .zero], 3, .integer, by decide⟩, "|")]

/-- The values of a row. -/
def rowHeap : Heap := { Heap.empty with tuples := #[[.str "x", .int (-5), .bool true]] }

theorem percent_exact_row :
    (Value.str "100%%: %s=%05d|%-03d|").text? = some (written "100%: " rowParts) ∧
    (∀ pair ∈ rowParts.zip (rowHeap.tuple 0), pair.1.1.Suits pair.2) ∧
    Filled rowHeap rowParts (rowHeap.tuple 0) "x=-0005|1  |" ∧
    Operator.binary .mod (.str "100%%: %s=%05d|%-03d|") (.tuple 0) rowHeap =
      .ok (.str "100%: x=-0005|1  |", rowHeap) := by
  have hformat : (Value.str "100%%: %s=%05d|%-03d|").text? = some (written "100%: " rowParts) := by
    decide
  have hsuits : ∀ pair ∈ rowParts.zip (rowHeap.tuple 0), pair.1.1.Suits pair.2 := by
    intro pair hpair
    rcases List.mem_cons.mp hpair with rfl | hpair
    · exact nofun
    rcases List.mem_cons.mp hpair with rfl | hpair
    · exact fun _ => ⟨-5, rfl, by decide⟩
    rcases List.mem_cons.mp hpair with rfl | hpair
    · exact fun _ => ⟨1, rfl, by decide⟩
    · cases hpair
  obtain ⟨out, hout, hbinary⟩ := (percent_exact rowHeap hformat hsuits).1 rfl
  have hresult : Operator.binary .mod (.str "100%%: %s=%05d|%-03d|") (.tuple 0) rowHeap =
      .ok (.str "100%: x=-0005|1  |", rowHeap) := by
    rfl
  have hsame : ("100%: ".toList ++ out : Text) = "100%: x=-0005|1  |".toList := by
    rw [hresult] at hbinary
    cases hbinary
    rfl
  have htext : out = "x=-0005|1  |".toList := List.append_cancel_left hsame
  exact ⟨hformat, hsuits, htext ▸ hout, hresult⟩

end TemplateEngine.Format
