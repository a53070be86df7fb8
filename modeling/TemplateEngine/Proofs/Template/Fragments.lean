import TemplateEngine.Proofs.Template.Lines

/-!
# Fragments of outlined tags

The tag of a header is code throughout, but for a quoted target; the tag of a
clause is a header that continues a block between two blanks; a closing tag is a
marker between two blanks. A word is code unless it is the closing word on its
own, since inside a longer word the closing word has no boundary on one side. The pieces
of a body make up the body, and so do its fragments.
-/
namespace TemplateEngine.Fragment

open Segment (isQuote closing?)
open Lexeme (endsWord)

/-- Every character of a text as a piece of code. -/
def codeChars (t : Text) : List (FragmentKind × Text) := t.map fun c => (.code, [c])

theorem codeChars_append (s t : Text) : codeChars (s ++ t) = codeChars s ++ codeChars t :=
  List.map_append

theorem joinCode_code {more : Text} {rest others : List (FragmentKind × Text)}
    (h : joinCode rest = (.code, more) :: others) (t : Text) :
    joinCode ((.code, t) :: rest) = (.code, t ++ more) :: others := by
  simp only [joinCode, h]

theorem joinCode_last {rest : List (FragmentKind × Text)}
    (h : ∀ p ∈ (joinCode rest).head?, p.1 ≠ .code) (t : Text) :
    joinCode ((.code, t) :: rest) = (.code, t) :: joinCode rest := by
  cases hrest : joinCode rest with
  | nil => simp only [joinCode, hrest]
  | cons p others =>
      obtain ⟨kind, text⟩ := p
      have hkind : kind ≠ .code := h (kind, text) (by rw [hrest]; rfl)
      cases kind <;> first | exact absurd rfl hkind | simp only [joinCode, hrest]

/-- A run of code becomes one piece. -/
theorem joinCode_codeChars {t : Text} (ht : t ≠ []) (rest : List (FragmentKind × Text))
    (h : ∀ p ∈ (joinCode rest).head?, p.1 ≠ .code) :
    joinCode (codeChars t ++ rest) = (.code, t) :: joinCode rest := by
  induction t with
  | nil => exact absurd rfl ht
  | cons c t ih =>
      cases t with
      | nil => exact joinCode_last h [c]
      | cons d t => exact joinCode_code (ih (by simp)) [c]

theorem joinCode_other {kind : FragmentKind} (hkind : kind ≠ .code) (t : Text)
    (rest : List (FragmentKind × Text)) :
    joinCode ((kind, t) :: rest) = (kind, t) :: joinCode rest := by
  cases kind <;> first | exact absurd rfl hkind | rfl

/-- Joining leaves a piece as it is, or puts it before the code that comes next. -/
theorem joinCode_cons (kind : FragmentKind) (text : Text) (found : List (FragmentKind × Text)) :
    (joinCode ((kind, text) :: found) = (kind, text) :: joinCode found ∧
      (kind = .code → ∀ p ∈ (joinCode found).head?, p.1 ≠ .code)) ∨
    ∃ more others, kind = .code ∧ joinCode found = (.code, more) :: others ∧
      joinCode ((kind, text) :: found) = (.code, text ++ more) :: others := by
  by_cases hkind : kind = .code
  · subst hkind
    by_cases hhead : ∀ p ∈ (joinCode found).head?, p.1 ≠ .code
    · exact .inl ⟨joinCode_last hhead text, fun _ => hhead⟩
    · obtain ⟨⟨kind, more⟩, hnot⟩ := Classical.not_forall.mp hhead
      obtain ⟨hp, hcode⟩ := Classical.not_imp.mp hnot
      obtain rfl : kind = .code := Decidable.not_not.mp hcode
      obtain ⟨others, hjoined⟩ := List.head?_eq_some_iff.mp hp
      exact .inr ⟨more, others, rfl, hjoined, joinCode_code hjoined text⟩
  · exact .inl ⟨joinCode_other hkind text found, fun hcode => absurd hcode hkind⟩

theorem number_of_newlines {line : Nat} {found : List (FragmentKind × Text)}
    (h : ∀ p ∈ found, p.2.newlines = 0) :
    number line found = found.map fun p => ⟨p.1, p.2, line⟩ := by
  induction found with
  | nil => rfl
  | cons p found ih =>
      have hp := h p (by simp)
      rw [number, hp, Nat.add_zero, ih fun q hq => h q (by simp [hq]), List.map_cons]

theorem pieces_skip (s : Text) (before : Option Char) (fresh : Bool) (t : Text) :
    ∃ last, pieces s.length before fresh (s ++ t) = pieces 0 last fresh t := by
  induction s generalizing before with
  | nil => exact ⟨before, rfl⟩
  | cons c s ih =>
      obtain ⟨last, h⟩ := ih (some c)
      exact ⟨last, by rw [List.cons_append, List.length_cons, pieces, h]⟩

theorem length_continuationLength? {t : Text} {n : Nat} (h : continuationLength? t = some n) :
    1 ≤ n := by
  obtain ⟨word, hword, hlength⟩ := Option.bind_eq_some_iff.mp h
  obtain ⟨m, -, rfl⟩ := Option.map_eq_some_iff.mp hlength
  have hwords : ∀ word ∈ continuationWords, 1 ≤ word.length := by decide
  exact Nat.le_add_right_of_le (hwords word (List.mem_of_find?_eq_some hword))

/-- Every piece takes a character at least. -/
theorem one_le_leading (before : Option Char) (fresh : Bool) (c : Char) (rest : Text) :
    1 ≤ (leading before fresh c rest).2.1 := by
  unfold leading
  split
  · exact Nat.le_refl 1
  · split
    · rename_i length hlength
      split at hlength
      · exact length_continuationLength? hlength
      · cases hlength
    · unfold piece
      repeat' split
      all_goals exact Nat.le_add_left 1 _

/-- The pieces are the body, in order. -/
theorem flatMap_pieces (skip : Nat) (before : Option Char) (fresh : Bool) (t : Text) :
    (pieces skip before fresh t).flatMap Prod.snd = t.drop skip := by
  fun_induction pieces skip before fresh t with
  | case1 => rw [List.drop_nil, List.flatMap_nil]
  | case2 skip before fresh c rest ih => rw [ih, List.drop_succ_cons]
  | case3 before fresh c rest kind length next hleading ih =>
      have hlength := one_le_leading before fresh c rest
      rw [hleading] at hlength
      obtain ⟨length, rfl⟩ := Nat.exists_eq_add_of_le' hlength
      rw [List.flatMap_cons, ih, Nat.add_sub_cancel, List.take_succ_cons, List.cons_append,
        List.take_append_drop, List.drop_zero]

theorem flatMap_joinCode (found : List (FragmentKind × Text)) :
    (joinCode found).flatMap Prod.snd = found.flatMap Prod.snd := by
  induction found with
  | nil => rfl
  | cons piece rest ih =>
      obtain ⟨hjoin, -⟩ | ⟨more, others, -, hjoined, hjoin⟩ := joinCode_cons piece.1 piece.2 rest
      · rw [hjoin, List.flatMap_cons, List.flatMap_cons, ih]
      · rw [hjoined, List.flatMap_cons] at ih
        rw [hjoin, List.flatMap_cons, List.flatMap_cons, ← ih, List.append_assoc]

/-- A character that begins no other piece is code. -/
theorem piece_code {before : Option Char} {fresh : Bool} {c : Char} {rest : Text}
    (hquote : isQuote c = false) (hopen : c = '{' → rest.head? ≠ some ':')
    (hclose : c = ':' → rest.head? ≠ some '}')
    (hend : startsWithEnd before (c :: rest) = false) (hsemicolon : c ≠ ';')
    (hnewline : c ≠ '\n') :
    piece before fresh c rest = (.code, 1, fresh && Text.isPlainBlank c) := by
  have hopen' : ¬ (c = '{' ∧ rest.head? = some ':') := fun h => hopen h.1 h.2
  have hclose' : ¬ (c = ':' ∧ rest.head? = some '}') := fun h => hclose h.1 h.2
  simp only [piece, hquote, Bool.false_eq_true, if_false, Bool.and_eq_true, decide_eq_true_eq,
    hopen', hclose', hend, hsemicolon, hnewline]

/-- The closing word at the start of a text begins with its first letter. -/
theorem startsWithEnd_eq_false {before : Option Char} {c : Char} {rest : Text} (h : c ≠ 'e') :
    startsWithEnd before (c :: rest) = false := by
  have h' : ('e' == c) = false := beq_eq_false_iff_ne.mpr (Ne.symm h)
  simp [startsWithEnd, List.isPrefixOf, h']

theorem isPlainBlank_of_continue {c : Char} (h : Letter.isIdentifierContinue c = true) :
    Text.isPlainBlank c = false := by
  have hne : ∀ d, Letter.isMark d = true → c ≠ d := fun d hd =>
    Letter.ne_of_continue h hd
  simp [Text.isPlainBlank, hne ' ' (by decide), hne '\t' (by decide),
    hne '\n' (by decide), hne '\x0c' (by decide), hne '\r' (by decide)]

theorem isBoundary_of_continue {c : Char} (h : Letter.isIdentifierContinue c = true) :
    isBoundary c = false := by
  simp [isBoundary, isPlainBlank_of_continue h, Letter.ne_of_continue h (d := ';') (by decide)]

theorem leading_letter {before : Option Char} {fresh : Bool} {c : Char} {rest : Text}
    (hc : Letter.isIdentifierContinue c = true)
    (hcontinuation : fresh = true → continuationLength? (c :: rest) = none)
    (hend : startsWithEnd before (c :: rest) = false) :
    leading before fresh c rest = (.code, 1, false) := by
  have hne : ∀ d, Letter.isMark d = true → c ≠ d := fun d hd =>
    Letter.ne_of_continue hc hd
  have hblank := isPlainBlank_of_continue hc
  have hquote : isQuote c = false := by
    simp [isQuote, hne '"' (by decide), hne '\'' (by decide)]
  have hpiece : piece before fresh c rest = (.code, 1, false) := by
    rw [piece_code hquote (fun h => absurd h (hne _ (by decide)))
      (fun h => absurd h (hne _ (by decide))) hend (hne _ (by decide))
      (hne _ (by decide)), hblank, Bool.and_false]
  cases fresh with
  | false => simp only [leading, Bool.false_and, Bool.false_eq_true, if_false, hpiece]
  | true =>
      simp only [leading, hblank, Bool.and_false, Bool.false_eq_true, if_false, if_true,
        hcontinuation rfl, hpiece]

/-- The later letters of a word are code. -/
theorem pieces_letters {b : Char} (hb : Letter.isIdentifierContinue b = true) {w : Text}
    (hw : ∀ c ∈ w, Letter.isIdentifierContinue c = true) (rest : Text) :
    ∃ last, pieces 0 (some b) false (w ++ rest) = codeChars w ++ pieces 0 last false rest := by
  induction w generalizing b with
  | nil => exact ⟨some b, rfl⟩
  | cons c w ih =>
      have hc := hw c (by simp)
      obtain ⟨last, h⟩ := ih hc fun d hd => hw d (by simp [hd])
      refine ⟨last, ?_⟩
      have hend : startsWithEnd (some b) (c :: (w ++ rest)) = false := by
        simp [startsWithEnd, isBoundary_of_continue hb]
      rw [List.cons_append, pieces, leading_letter hc (by simp) hend]
      simp only [List.take_succ_cons, List.take_zero, Nat.sub_self, h]
      rfl

theorem startsWithEnd_word {w : Text} (hnil : w ≠ []) (hend : w ≠ "end".toList)
    (hw : ∀ c ∈ w, Letter.isIdentifierContinue c = true) {rest : Text} (hrest : endsWord rest)
    (before : Option Char) : startsWithEnd before (w ++ rest) = false := by
  rw [Bool.eq_false_iff]
  intro h
  simp only [startsWithEnd, Bool.and_eq_true] at h
  obtain ⟨⟨hpre, -⟩, hafter⟩ := h
  obtain ⟨t, ht⟩ := List.isPrefixOf_iff_prefix.mp hpre
  have ht : 'e' :: 'n' :: 'd' :: t = w ++ rest := ht
  -- A shorter word would go on with a letter of the closing word.
  match w, hnil with
  | [_], _ =>
      have hn : 'n' :: 'd' :: t = rest := (List.cons.inj ht).2
      have hnot := hrest 'n' (by rw [← hn]; rfl)
      exact absurd (hnot.symm.trans (Letter.isIdentifierContinue_of_isLatin (by decide)))
        Bool.false_ne_true
  | [_, _], _ =>
      have hd : 'd' :: t = rest := (List.cons.inj (List.cons.inj ht).2).2
      have hnot := hrest 'd' (by rw [← hd]; rfl)
      exact absurd (hnot.symm.trans (Letter.isIdentifierContinue_of_isLatin (by decide)))
        Bool.false_ne_true
  | [a, b, c], _ =>
      have h1 := List.cons.inj ht
      have h2 := List.cons.inj h1.2
      have h3 := List.cons.inj h2.2
      exact hend (by rw [← h1.1, ← h2.1, ← h3.1]; rfl)
  | _ :: _ :: _ :: d :: w, _ =>
      have hd : isBoundary d = false := isBoundary_of_continue (hw d (by simp))
      have hd' : isBoundary d = true := hafter
      rw [hd] at hd'
      cases hd'

/-- A word other than the closing word is code, unless it continues a block. -/
theorem pieces_word (before : Option Char) (fresh : Bool) {w : Text} (hnil : w ≠ [])
    (hword : w ≠ "end".toList) (hw : ∀ c ∈ w, Letter.isIdentifierContinue c = true)
    {rest : Text} (hcontinuation : fresh = true → continuationLength? (w ++ rest) = none)
    (hrest : endsWord rest) :
    ∃ last, pieces 0 before fresh (w ++ rest) = codeChars w ++ pieces 0 last false rest := by
  have hend := startsWithEnd_word hnil hword hw hrest before
  obtain ⟨c, w, rfl⟩ := List.exists_cons_of_ne_nil hnil
  have hc := hw c (by simp)
  obtain ⟨last, h⟩ := pieces_letters hc (fun d hd => hw d (List.mem_cons_of_mem c hd)) rest
  refine ⟨last, ?_⟩
  rw [List.cons_append] at hend hcontinuation ⊢
  rw [pieces, leading_letter hc hcontinuation hend]
  simp only [List.take_succ_cons, List.take_zero, Nat.sub_self, h]
  rfl

/-- A blank, a bracket or a colon is code. -/
theorem pieces_mark {before : Option Char} {c : Char} (hc : c ∈ [' ', ':', '(', ')', ','])
    {rest : Text} (hrest : rest.head? ≠ some '}') :
    pieces 0 before false (c :: rest) = codeChars [c] ++ pieces 0 (some c) false rest := by
  have hlead : leading before false c rest = (.code, 1, false) := by
    have hend : startsWithEnd before (c :: rest) = false := by
      refine startsWithEnd_eq_false ?_
      rintro rfl
      exact absurd hc (by decide)
    have hpiece : piece before false c rest = (.code, 1, false) := by
      have hne : ∀ d ∉ [' ', ':', '(', ')', ','], c ≠ d := by
        rintro d hd rfl
        exact hd hc
      refine (piece_code ?_ (fun h => absurd h (hne _ (by decide))) (fun _ => hrest) hend
        (hne _ (by decide)) (hne _ (by decide))).trans (by rw [Bool.false_and])
      simp only [List.mem_cons, List.not_mem_nil, or_false] at hc
      rcases hc with rfl | rfl | rfl | rfl | rfl <;> rfl
    simp only [leading, Bool.false_and, Bool.false_eq_true, if_false, hpiece]
  rw [pieces, hlead]
  rfl

/-- Whether a lexeme is code wherever it stands: a word other than the closing word, a
mark or a blank. -/
def isCode : Lexeme → Prop
  | .blank | .mark _ _ => True
  | .word w => w ≠ "end".toList
  | .string _ _ | .sign _ | .number _ | .quoted _ => False

theorem head_line {ls : List Lexeme} (hcode : ∀ l ∈ ls, isCode l) {rest : Text}
    (hfits : Lexeme.fits ls rest) (hrest : rest.head? ≠ some '}') :
    (Lexeme.line ls ++ rest).head? ≠ some '}' := by
  match ls with
  | [] => exact hrest
  | .blank :: ls => exact (by decide : some ' ' ≠ some '}')
  | .string _ _ :: ls | .sign _ :: ls | .number _ :: ls | .quoted _ :: ls =>
      exact False.elim (hcode _ List.mem_cons_self)
  | .word [] :: ls => cases hfits.1
  | .word (c :: w) :: ls =>
      have hc := Lexeme.continues_of_isWord hfits.1 c (by simp)
      exact fun h => Letter.ne_of_continue hc (by decide) (Option.some.inj h)
  | .mark c symbol :: ls =>
      rintro h
      cases Option.some.inj h
      simp [Lexeme.fits, Lexeme.marks] at hfits

/-- A line of lexemes is code. -/
theorem pieces_line {ls : List Lexeme} (hcode : ∀ l ∈ ls, isCode l) {rest : Text}
    (hfits : Lexeme.fits ls rest) (hrest : rest.head? ≠ some '}') (before : Option Char) :
    ∃ last, pieces 0 before false (Lexeme.line ls ++ rest) =
      codeChars (Lexeme.line ls) ++ pieces 0 last false rest := by
  induction ls generalizing before with
  | nil => exact ⟨before, rfl⟩
  | cons l ls ih =>
      have hl : isCode l := hcode l List.mem_cons_self
      have hcode' : ∀ m ∈ ls, isCode m := fun m hm => hcode m (List.mem_cons_of_mem l hm)
      have hmark : ∀ {c : Char}, c ∈ [' ', ':', '(', ')', ','] → Lexeme.fits ls rest →
          ∃ last, pieces 0 before false ([c] ++ Lexeme.line ls ++ rest) =
            codeChars ([c] ++ Lexeme.line ls) ++ pieces 0 last false rest := by
        intro c hc hls
        obtain ⟨last, h⟩ := ih hcode' hls (some c)
        refine ⟨last, ?_⟩
        rw [List.append_assoc, List.singleton_append,
          pieces_mark hc (head_line hcode' hls hrest), h, codeChars_append, List.append_assoc]
      cases l with
      | blank => exact hmark (by decide) hfits
      | mark c symbol =>
          refine hmark ?_ hfits.2
          have hmem := List.mem_map_of_mem (f := Prod.fst) hfits.1
          simp only [Lexeme.marks, List.map_cons, List.map_nil] at hmem
          exact List.mem_cons_of_mem _ hmem
      | word w =>
          obtain ⟨hword, hends, hls⟩ := hfits
          obtain ⟨mid, hw⟩ := pieces_word before false (Lexeme.ne_nil_of_isWord hword) hl
            (Lexeme.continues_of_isWord hword) (by simp) hends
          obtain ⟨last, h⟩ := ih hcode' hls mid
          refine ⟨last, ?_⟩
          rw [Lexeme.line_cons, Lexeme.text, List.append_assoc, hw, h, codeChars_append,
            List.append_assoc]
      | string _ _ | sign _ | number _ | quoted _ => exact False.elim hl

/-- A blank before a statement leaves its start where it is. -/
theorem pieces_blank (before : Option Char) (rest : Text) :
    pieces 0 before true (' ' :: rest) = codeChars [' '] ++ pieces 0 (some ' ') true rest := rfl

/-- A blank and a line of lexemes that continues no block. -/
theorem pieces_statement {w : Text} {ls : List Lexeme} {rest : Text}
    (hcontinuation : ∀ t, continuationLength? (w ++ t) = none)
    (hcode : ∀ l ∈ Lexeme.word w :: ls, isCode l) (hfits : Lexeme.fits (.word w :: ls) rest)
    (hrest : rest.head? ≠ some '}') :
    ∃ last, pieces 0 none true (' ' :: (Lexeme.line (.word w :: ls) ++ rest)) =
      codeChars (' ' :: Lexeme.line (.word w :: ls)) ++ pieces 0 last false rest := by
  obtain ⟨hword, hends, hls⟩ := hfits
  have hnotEnd : w ≠ "end".toList := hcode (.word w) List.mem_cons_self
  obtain ⟨mid, hw⟩ := pieces_word (some ' ') true (Lexeme.ne_nil_of_isWord hword) hnotEnd
    (Lexeme.continues_of_isWord hword) (fun _ => hcontinuation _) hends
  obtain ⟨last, h⟩ := pieces_line (fun l hl => hcode l (List.mem_cons_of_mem _ hl)) hls hrest mid
  refine ⟨last, ?_⟩
  rw [pieces_blank, Lexeme.line_cons, Lexeme.text, List.append_assoc, hw, h]
  simp only [codeChars, List.map_cons, List.map_append, List.map_nil, List.append_assoc,
    List.cons_append, List.nil_append]

/-- A body that is code throughout is one fragment. -/
theorem ofBody_code {body : Text} (hnil : body ≠ []) (hline : body.newlines = 0)
    (h : pieces 0 none true body = codeChars body) : ofBody body = [⟨.code, body, 0⟩] := by
  have hjoin := joinCode_codeChars hnil [] (by simp [joinCode])
  rw [List.append_nil] at hjoin
  rw [ofBody, h, hjoin, number_of_newlines (by simpa [joinCode] using hline)]
  rfl

end TemplateEngine.Fragment

namespace TemplateEngine.Outline

open Fragment

theorem Header.lexemes_word (header : Header) :
    ∃ w ls, header.lexemes = .word w :: ls ∧ ∀ t, continuationLength? (w ++ t) = none := by
  cases header <;> exact ⟨_, _, rfl, fun _ => rfl⟩

theorem Header.isCode_lexemes {header : Header} (hcapture : ∀ x, header ≠ .capture x)
    (hnames : ∀ n ∈ header.names, n.text ≠ "end".toList) : ∀ l ∈ header.lexemes, isCode l := by
  cases header with
  | ifTrue n | whileTrue n =>
      have hn := hnames n List.mem_cons_self
      simp only [lexemes, List.forall_mem_cons, isCode]
      exact ⟨by decide, trivial, hn, trivial, by simp⟩
  | forEach v n =>
      have hv := hnames v List.mem_cons_self
      have hn := hnames n (List.mem_cons_of_mem _ List.mem_cons_self)
      simp only [lexemes, List.forall_mem_cons, isCode]
      exact ⟨by decide, trivial, hv, trivial, by decide, trivial, hn, trivial, by simp⟩
  | attempt =>
      simp only [lexemes, List.forall_mem_cons, isCode]
      exact ⟨by decide, trivial, by simp⟩
  | capture x => exact absurd rfl (hcapture x)

theorem Header.newlines_body (header : Header) :
    Text.newlines (' ' :: header.code ++ [' ']) = 0 :=
  (Part.newlines_tag (show (Part.opening header).tag? = some (.statement, _) from rfl)).2

/-- The tag of a header without quotes is one fragment of code. -/
theorem ofBody_header {header : Header} (hcapture : ∀ x, header ≠ .capture x)
    (hnames : ∀ n ∈ header.names, n.text ≠ "end".toList) :
    ofBody (' ' :: header.code ++ [' ']) = [⟨.code, ' ' :: header.code ++ [' '], 0⟩] := by
  obtain ⟨w, ls, hls, hcontinuation⟩ := header.lexemes_word
  have hcode := header.isCode_lexemes hcapture hnames
  have hfits := header.fits_lexemes [' ']
  rw [hls] at hcode hfits
  obtain ⟨last, h⟩ := pieces_statement hcontinuation hcode hfits (by decide)
  refine ofBody_code (by simp) header.newlines_body ?_
  rw [← header.line_lexemes, hls, List.cons_append, h, pieces_mark (by decide) (by decide),
    pieces, List.append_nil, ← codeChars_append, List.cons_append]

/-- A quoted run is a piece of its own. -/
theorem pieces_quoted (before : Option Char) {s : Text} (hs : ∀ c ∈ s, c ≠ '"' ∧ c ≠ '\\')
    (rest : Text) :
    ∃ last, pieces 0 before false ('"' :: (s ++ '"' :: rest)) =
      (.quoted, '"' :: (s ++ ['"'])) :: pieces 0 last false rest := by
  obtain ⟨last, h⟩ := pieces_skip (s ++ ['"']) (some '"') false rest
  refine ⟨last, ?_⟩
  have hlead : leading before false '"' (s ++ '"' :: rest) = (.quoted, s.length + 2, false) := by
    simp [leading, piece, Segment.isQuote, Segment.closing?_plain (by decide) hs]
  rw [List.length_append, List.length_singleton, List.append_assoc, List.singleton_append] at h
  rw [pieces, hlead]
  simp only [Nat.add_one_sub_one, h, List.take_succ_cons]
  rw [List.take_append, List.take_of_length_le (Nat.le_succ _)]
  simp

/-- The tag of a capture is code with the quoted target in it. -/
theorem ofBody_capture (x : Name) :
    ofBody (' ' :: (Header.capture x).code ++ [' ']) =
      [⟨.code, " with capture(".toList, 0⟩, ⟨.quoted, '"' :: (x.text ++ ['"']), 0⟩,
        ⟨.code, "): ".toList, 0⟩] := by
  have hx : ∀ c ∈ x.text, c ≠ '"' ∧ c ≠ '\\' := fun c hc =>
    ⟨x.ne hc (by decide), x.ne hc (by decide)⟩
  have hfits : Lexeme.fits [.word "with".toList, .blank, .word "capture".toList,
      .mark '(' .leftParen] ('"' :: (x.text ++ '"' :: "): ".toList)) :=
    ⟨Lexeme.isWord_of_isLatin (by decide), endsWord_blank _, Lexeme.isWord_of_isLatin (by decide),
      endsWord_open _, by decide, trivial⟩
  have hcode : ∀ l ∈ [Lexeme.word "with".toList, .blank, .word "capture".toList,
      .mark '(' .leftParen], isCode l := by
    simp only [List.forall_mem_cons, isCode]
    exact ⟨by decide, trivial, by decide, trivial, by simp⟩
  have hcode' : ∀ l ∈ [Lexeme.mark ')' .rightParen, .mark ':' .colon, .blank], isCode l := by
    simp [isCode]
  have hfits' : Lexeme.fits [.mark ')' .rightParen, .mark ':' .colon, .blank] [] :=
    ⟨by decide, by decide, trivial⟩
  obtain ⟨mid, hstart⟩ := pieces_statement (fun _ => rfl) hcode hfits (by simp)
  obtain ⟨last, hquoted⟩ := pieces_quoted mid hx "): ".toList
  obtain ⟨final, hend⟩ := pieces_line hcode' hfits' (by simp) last
  have hbody : ' ' :: (Header.capture x).code ++ [' '] = ' ' :: (Lexeme.line
      [.word "with".toList, .blank, .word "capture".toList, .mark '(' .leftParen] ++
        '"' :: (x.text ++ '"' :: "): ".toList)) := by
    simp [Header.code_capture, Lexeme.text]
  have hpieces : pieces 0 none true (' ' :: (Header.capture x).code ++ [' ']) =
      codeChars " with capture(".toList ++ (.quoted, '"' :: (x.text ++ ['"'])) ::
        (codeChars "): ".toList ++ []) := by
    rw [hbody, hstart, hquoted]
    exact congrArg (fun found => codeChars " with capture(".toList ++
      (.quoted, '"' :: (x.text ++ ['"'])) :: found) hend
  have hx0 : Text.newlines ('"' :: (x.text ++ ['"'])) = 0 := by
    have hnot : '\n' ∉ x.text := fun h => x.ne h (by decide) rfl
    exact Text.newlines_eq_zero (by simp [hnot])
  rw [ofBody, hpieces, joinCode_codeChars (by simp) _ (by simp [joinCode]),
    joinCode_other (by simp), joinCode_codeChars (by simp) _ (by simp [joinCode]),
    number_of_newlines]
  · rfl
  · simp only [List.forall_mem_cons]
    exact ⟨by decide, hx0, by decide, by simp [joinCode]⟩

theorem headerLength?_plain {s : Text}
    (hs : ∀ c ∈ s, Letter.isIdentifierContinue c = true ∨ c = ' ') (rest : Text) :
    headerLength? 0 0 (s ++ ':' :: rest) = some (s.length + 1) := by
  induction s with
  | nil => rfl
  | cons c s ih =>
      have hrest := ih fun d hd => hs d (List.mem_cons_of_mem c hd)
      have hne : ∀ d, Letter.isMark d = true → d ≠ ' ' → c ≠ d := by
        rintro d hd hblank rfl
        rcases hs c List.mem_cons_self with h | rfl
        · exact Letter.ne_of_continue h hd rfl
        · exact hblank rfl
      have hquote : Segment.isQuote c = false := by
        simp [Segment.isQuote, hne '"' (by decide) (by decide),
          hne '\'' (by decide) (by decide)]
      rw [List.cons_append, headerLength?, hquote, hrest]
      simp [hne '(' (by decide) (by decide), hne '[' (by decide) (by decide),
        hne '{' (by decide) (by decide), hne ')' (by decide) (by decide),
        hne ']' (by decide) (by decide), hne '}' (by decide) (by decide),
        hne '\n' (by decide) (by decide), hne ':' (by decide) (by decide)]

/-- A clause is a word that continues a block, names and blanks, and a colon. -/
theorem Clause.code_parts (clause : Clause) : ∃ c w s, clause.code = c :: (w ++ (s ++ [':'])) ∧
    Text.isPlainBlank c = false ∧ (∀ d ∈ s, Letter.isIdentifierContinue d = true ∨ d = ' ') ∧
      ∀ t, leadingWord? (c :: (w ++ (s ++ ':' :: t))) = some (c :: w) := by
  cases clause with
  | elif n =>
      refine ⟨'e', "lif".toList, ' ' :: n.text, ?_, rfl, ?_, fun _ => rfl⟩
      · simp [code_elif]
      · simpa using fun c hc => .inl (n.continues c hc)
  | except k v =>
      refine ⟨'e', "xcept".toList, ' ' :: (k.text ++ " as ".toList ++ v.text), ?_, rfl, ?_,
        fun _ => rfl⟩
      · simp [code_except]
      · intro d hd
        simp only [String.reduceToList, List.mem_cons, List.mem_append, List.not_mem_nil,
          or_false] at hd
        rcases hd with rfl | (hd | rfl | rfl | rfl | rfl) | hd
        · exact .inr rfl
        · exact .inl (k.continues d hd)
        · exact .inr rfl
        · exact .inl (Letter.isIdentifierContinue_of_isLatin (by decide))
        · exact .inl (Letter.isIdentifierContinue_of_isLatin (by decide))
        · exact .inr rfl
        · exact .inl (v.continues d hd)
  | otherwise => exact ⟨'e', "lse".toList, [], rfl, rfl, by simp, fun _ => rfl⟩
  | cleanup => exact ⟨'f', "inally".toList, [], rfl, rfl, by simp, fun _ => rfl⟩

/-- The tag of a clause is a header that continues a block, between two blanks. -/
theorem ofBody_clause (clause : Clause) :
    ofBody (' ' :: clause.code ++ [' ']) =
      [⟨.code, [' '], 0⟩, ⟨.continuation, clause.code, 0⟩, ⟨.code, [' '], 0⟩] := by
  obtain ⟨c, w, s, hcode, hblank, hs, hword⟩ := clause.code_parts
  have hline : clause.code.newlines = 0 :=
    Text.newlines_eq_zero (not_mem_of_allTagChars clause.allTagChars isTagChar_newline)
  have hlength : continuationLength? (c :: (w ++ (s ++ ':' :: [' ']))) =
      some (w.length + 1 + (s.length + 1)) := by
    have hdrop : (c :: (w ++ (s ++ ':' :: [' ']))).drop (c :: w).length = s ++ ':' :: [' '] := by
      rw [List.length_cons, List.drop_succ_cons, List.drop_left]
    rw [continuationLength?, hword, Option.bind_some, hdrop, headerLength?_plain hs]
    rfl
  have hlead : leading (some ' ') true c (w ++ (s ++ ':' :: [' '])) =
      (.continuation, w.length + 1 + (s.length + 1), false) := by
    simp only [leading, hblank, Bool.and_false, Bool.false_eq_true, if_false, if_true, hlength]
  obtain ⟨last, hskip⟩ := pieces_skip (w ++ (s ++ [':'])) (some c) false [' ']
  have hpieces : pieces 0 none true (' ' :: clause.code ++ [' ']) =
      codeChars [' '] ++ (.continuation, clause.code) :: (codeChars [' '] ++ []) := by
    have hsplit : c :: (w ++ (s ++ ':' :: [' '])) = clause.code ++ [' '] := by
      simp [hcode]
    have hcount : w.length + 1 + (s.length + 1) = clause.code.length := by
      simp only [hcode, List.length_cons, List.length_append, List.length_nil]
      omega
    have htail : pieces (clause.code.length - 1) (some c) false (w ++ (s ++ ':' :: [' '])) =
        codeChars [' '] ++ [] := by
      have hpred : clause.code.length - 1 = (w ++ (s ++ [':'])).length := by
        rw [hcode, List.length_cons, Nat.add_sub_cancel]
      have hrest : w ++ (s ++ ':' :: [' ']) = (w ++ (s ++ [':'])) ++ [' '] := by simp
      rw [hpred, hrest, hskip, pieces_mark (by decide) (by decide), pieces]
    rw [List.cons_append, ← hsplit, pieces_blank, pieces, hlead]
    simp only [hcount, htail]
    rw [hsplit, List.take_left]
  rw [ofBody, hpieces, joinCode_codeChars (by simp) _ (by simp [joinCode]),
    joinCode_other (by simp), joinCode_codeChars (by simp) _ (by simp [joinCode]),
    number_of_newlines]
  · rfl
  · simp only [List.forall_mem_cons]
    exact ⟨by decide, hline, by decide, by simp [joinCode]⟩

theorem ofBody_word : ofBody Closer.word.body =
    [⟨.code, [' '], 0⟩, ⟨.blockClose, "end".toList, 0⟩, ⟨.code, [' '], 0⟩] := by
  decide

theorem ofBody_brace : ofBody Closer.brace.body =
    [⟨.code, [' '], 0⟩, ⟨.blockClose, ":\x7d".toList, 0⟩, ⟨.code, [' '], 0⟩] := by
  decide

end TemplateEngine.Outline
