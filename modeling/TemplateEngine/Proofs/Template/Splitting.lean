import TemplateEngine.Proofs.Text.Identifier
import TemplateEngine.Proofs.Template.Outline

/-!
# Splitting an outline

The template of an outline splits into one segment for every part, each on the
line where the part begins. The body of a tag is read up to its closer because
neither a name nor the words around it hold a percent sign, and a quoted target
is passed over as a whole.
-/
namespace TemplateEngine

namespace Segment

/-- Characters that a tag body holds outside quotes and away from closers. -/
def isPlain (c : Char) : Bool := c != '%' && c != '-' && !isQuote c

theorem isPlain_of_continue {c : Char} (h : Letter.isIdentifierContinue c = true) :
    isPlain c = true := by
  have hne : ∀ d, Letter.isMark d = true → c ≠ d := fun d hd =>
    Letter.ne_of_continue h hd
  simp [isPlain, isQuote, hne '%' (by decide), hne '-' (by decide),
    hne '"' (by decide), hne '\'' (by decide)]

theorem body?_plain {s : Text} (hs : s.all isPlain = true) (t : Text) :
    body? 0 (s ++ t) = (body? 0 t).map fun found => (s ++ found.1, found.2) := by
  induction s with
  | nil => simp
  | cons c s ih =>
      simp only [List.all_cons, Bool.and_eq_true] at hs
      have hc := hs.1
      simp only [isPlain, Bool.and_eq_true, bne_iff_ne, Bool.not_eq_true'] at hc
      rw [List.cons_append, body?, quotedAfter, if_neg (by simp [hc.2]), ih hs.2]
      · simp [Option.map_map, Function.comp_def]
      · exact fun _ h => absurd h hc.1.1
      · exact fun _ h => absurd h hc.1.2
      · exact fun _ h => absurd h hc.1.1

theorem body?_skip (s t : Text) :
    body? s.length (s ++ t) = (body? 0 t).map fun found => (s ++ found.1, found.2) := by
  induction s with
  | nil => simp
  | cons c s ih =>
      rw [List.cons_append, List.length_cons, body?, ih]
      simp [Option.map_map, Function.comp_def]

theorem closing?_plain {quote : Char} (hquote : quote ≠ '\\') {s : Text}
    (hs : ∀ c ∈ s, c ≠ quote ∧ c ≠ '\\') (t : Text) :
    closing? quote (s ++ quote :: t) = some (s.length + 1) := by
  induction s with
  | nil =>
      rw [List.nil_append, closing?, if_pos rfl]
      · rfl
      · exact fun _ _ h => absurd h hquote
  | cons c s ih =>
      have hc := hs c (by simp)
      rw [List.cons_append, closing?, if_neg hc.1, ih fun d hd => hs d (by simp [hd])]
      · rfl
      · exact fun _ _ h => absurd h hc.2

/-- A quoted run without its quote or backslashes in it is part of a body as a whole. -/
theorem body?_quoted {quote : Char} (hquote : isQuote quote = true) {s : Text}
    (hs : ∀ c ∈ s, c ≠ quote ∧ c ≠ '\\') (t : Text) :
    body? 0 (quote :: (s ++ quote :: t)) =
      (body? 0 t).map fun found => (quote :: (s ++ quote :: found.1), found.2) := by
  have hne : ∀ d, isQuote d = false → quote ≠ d := by
    rintro d hd rfl
    rw [hquote] at hd
    cases hd
  have hskip : body? (s.length + 1) (s ++ quote :: t) =
      (body? 0 t).map fun found => (s ++ [quote] ++ found.1, found.2) := by
    have h := body?_skip (s ++ [quote]) t
    rwa [List.length_append, List.length_singleton, List.append_assoc] at h
  rw [body?, quotedAfter, if_pos hquote, closing?_plain (hne _ (by decide)) hs, Option.getD_some,
    hskip]
  · simp [Option.map_map, Function.comp_def]
  · exact fun _ h => absurd h (hne _ (by decide))
  · exact fun _ h => absurd h (hne _ (by decide))
  · exact fun _ h => absurd h (hne _ (by decide))

theorem body?_closer (t : Text) : body? 0 ('%' :: '>' :: t) = some ([], false, t) := by
  rfl

end Segment

namespace Outline

open Segment

theorem Name.continues (n : Name) : ∀ c ∈ n.text, Letter.isIdentifierContinue c = true := by
  intro c hc
  rcases List.mem_cons.mp hc with rfl | hc
  · exact Letter.isIdentifierContinue_of_start n.starts
  · exact n.goesOn c hc

theorem Name.ne (n : Name) {c d : Char} (hc : c ∈ n.text)
    (hd : Letter.isMark d = true) : c ≠ d :=
  Letter.ne_of_continue (n.continues c hc) hd

theorem Name.allPlain (n : Name) : n.text.all isPlain = true :=
  List.all_eq_true.mpr fun c hc => isPlain_of_continue (n.continues c hc)

/-- The body of a tag is read to its end. -/
theorem Part.body?_tag {part : Part} {kind : TagKind} {body : Text}
    (h : part.tag? = some (kind, body)) (t : Text) :
    body? 0 (body ++ '%' :: '>' :: t) = some (body, false, t) := by
  have plain : ∀ b : Text, b.all isPlain = true →
      body? 0 (b ++ '%' :: '>' :: t) = some (b, false, t) := by
    intro b hb
    rw [body?_plain hb, body?_closer, Option.map_some, List.append_nil]
  cases part with
  | text _ => cases h
  | print raw n =>
      cases raw <;> cases h <;> refine plain _ ?_ <;>
        simp only [List.cons_append, List.all_cons, List.all_append, n.allPlain, List.all_nil] <;>
        decide
  | opening header =>
      cases h
      cases header with
      | capture x =>
          have hx : ∀ c ∈ x.text, c ≠ '"' ∧ c ≠ '\\' := fun c hc =>
            ⟨x.ne hc (by decide), x.ne hc (by decide)⟩
          have hcode : ' ' :: (Header.capture x).code ++ [' '] =
              " with capture(".toList ++ '"' :: (x.text ++ '"' :: "): ".toList) := by
            simp [Header.code_capture]
          rw [hcode, List.append_assoc, body?_plain (by decide), List.cons_append,
            List.append_assoc, List.cons_append, body?_quoted (by decide) hx,
            body?_plain (by decide), body?_closer]
          simp
      | ifTrue n | whileTrue n =>
          refine plain _ ?_
          simp only [Header.code_ifTrue, Header.code_whileTrue, String.reduceToList,
            List.cons_append, List.nil_append, List.all_cons, List.all_append, n.allPlain,
            List.all_nil]
          decide
      | forEach v n =>
          refine plain _ ?_
          simp only [Header.code_forEach, String.reduceToList, List.cons_append, List.nil_append,
            List.all_cons, List.all_append, v.allPlain, n.allPlain, List.all_nil]
          decide
      | attempt => exact plain _ (by decide)
  | clause c =>
      cases h
      cases c with
      | elif n =>
          refine plain _ ?_
          simp only [Clause.code_elif, String.reduceToList, List.cons_append, List.nil_append,
            List.all_cons, List.all_append, n.allPlain, List.all_nil]
          decide
      | except k v =>
          refine plain _ ?_
          simp only [Clause.code_except, String.reduceToList, List.cons_append, List.nil_append,
            List.all_cons, List.all_append, k.allPlain, v.allPlain, List.all_nil]
          decide
      | otherwise | cleanup => exact plain _ (by decide)
  | closing c => cases h; cases c <;> exact plain _ (by decide)

theorem Part.written_tag {part : Part} {kind : TagKind} {body : Text}
    (h : part.tag? = some (kind, body)) :
    part.written = '<' :: '%' :: (sign kind ++ (body ++ ['%', '>'])) := by
  cases part with
  | text _ => cases h
  | _ => simp only [written, h]; rfl

theorem Part.segments_tag {part : Part} {kind : TagKind} {body : Text}
    (h : part.tag? = some (kind, body)) (line : Nat) :
    part.segments line = [.tag ⟨kind, body, line, false, false⟩] := by
  cases part with
  | text _ => cases h
  | _ => simp only [segments, h]

/-- Whether a character may stand in a tag of an outline. -/
def isTagChar (c : Char) : Bool :=
  Letter.isLatin c || Letter.isIdentifierContinue c || [' ', ':', '(', ')', '"', '}'].contains c

theorem isTagChar_newline : isTagChar '\n' = false := by
  rw [isTagChar, Letter.isIdentifierContinue_of_isMark (by decide)]
  decide

theorem Name.allTagChars (n : Name) : n.text.all isTagChar = true :=
  List.all_eq_true.mpr fun c hc => by simp [isTagChar, n.continues c hc]

theorem Header.allTagChars (header : Header) : header.code.all isTagChar = true := by
  cases header with
  | ifTrue n | whileTrue n =>
      simp only [code_ifTrue, code_whileTrue, String.reduceToList, List.cons_append,
        List.nil_append, List.all_cons, List.all_append, n.allTagChars, List.all_nil]
      decide
  | forEach v n =>
      simp only [code_forEach, String.reduceToList, List.cons_append, List.nil_append,
        List.all_cons, List.all_append, v.allTagChars, n.allTagChars, List.all_nil]
      decide
  | attempt => decide
  | capture x =>
      simp only [code_capture, String.reduceToList, List.cons_append, List.nil_append,
        List.all_cons, List.all_append, x.allTagChars, List.all_nil]
      decide

theorem Clause.allTagChars (clause : Clause) : clause.code.all isTagChar = true := by
  cases clause with
  | elif n =>
      simp only [code_elif, String.reduceToList, List.cons_append, List.nil_append,
        List.all_cons, List.all_append, n.allTagChars, List.all_nil]
      decide
  | except k v =>
      simp only [code_except, String.reduceToList, List.cons_append, List.nil_append,
        List.all_cons, List.all_append, k.allTagChars, v.allTagChars, List.all_nil]
      decide
  | otherwise | cleanup => decide

theorem Part.allTagChars {part : Part} {kind : TagKind} {body : Text}
    (h : part.tag? = some (kind, body)) : body.all isTagChar = true := by
  cases part with
  | text _ => cases h
  | print raw n =>
      cases raw <;> cases h <;>
        simp only [List.cons_append, List.all_cons, List.all_append, n.allTagChars,
          List.all_nil] <;> decide
  | opening header =>
      cases h
      simp only [List.cons_append, List.all_cons, List.all_append, header.allTagChars,
        List.all_nil]
      decide
  | clause c =>
      cases h
      simp only [List.cons_append, List.all_cons, List.all_append, c.allTagChars, List.all_nil]
      decide
  | closing c => cases c <;> cases h <;> decide

theorem not_mem_of_allTagChars {t : Text} (h : t.all isTagChar = true) {d : Char}
    (hd : isTagChar d = false) : d ∉ t := fun hmem => by
  rw [List.all_eq_true.mp h d hmem] at hd
  cases hd

theorem Part.newlines_tag {part : Part} {kind : TagKind} {body : Text}
    (h : part.tag? = some (kind, body)) : part.newlines = 0 ∧ body.newlines = 0 := by
  refine ⟨?_, Text.newlines_eq_zero (not_mem_of_allTagChars (Part.allTagChars h) ?_)⟩
  · cases part with
    | text _ => cases h
    | _ => rfl
  · exact isTagChar_newline

theorem Part.opener_tag {part : Part} {kind : TagKind} {body : Text}
    (h : part.tag? = some (kind, body)) (t : Text) :
    opener (sign kind ++ (body ++ t)) = (kind, false, body ++ t) := by
  cases part with
  | text _ => cases h
  | print raw n => cases raw <;> cases h <;> rfl
  | opening header => cases h; rfl
  | clause c => cases h; rfl
  | closing c => cases c <;> cases h <;> rfl

theorem Part.startsTag_tag {part : Part} {kind : TagKind} {body : Text}
    (h : part.tag? = some (kind, body)) (t : Text) : startsTag (part.written ++ t) := by
  refine .inr ⟨sign kind ++ (body ++ ['%', '>'] ++ t), ?_, ?_⟩
  · rw [Part.written_tag h]
    simp
  · cases part with
    | text _ => cases h
    | print raw n => cases raw <;> cases h <;> simp [sign]
    | opening header => cases h; simp [sign]
    | clause c => cases h; simp [sign]
    | closing c => cases c <;> cases h <;> exact (by decide : some ' ' ≠ some '%')

/-- Literal text and the tag after it make one round. -/
theorem run_tag {part : Part} {kind : TagKind} {body : Text}
    (h : part.tag? = some (kind, body)) (fuel : Nat) (fresh : Bool) (line : Nat) (t rest : Text) :
    Splitting.run (fuel + 1) fresh line (escapeDelimiters t ++ (part.written ++ rest)) =
      { Splitting.run fuel false (line + t.newlines) rest with
        segments := ofLiteral (escapeDelimiters t) line ++ part.segments (line + t.newlines) ++
          (Splitting.run fuel false (line + t.newlines) rest).segments } := by
  have hbefore := beforeOpener_doubleOpeners (doubleClosers t) (Part.startsTag_tag h rest)
  have hbody := Part.body?_tag h rest
  rw [Part.written_tag h] at hbefore ⊢
  simp only [Splitting.run]
  rw [escapeDelimiters, hbefore]
  simp only [List.cons_append, List.append_assoc, Part.opener_tag h, List.nil_append]
  rw [hbody]
  simp [Part.segments_tag h, (Part.newlines_tag h).2, newlines_doubleOpeners,
    newlines_doubleClosers]

theorem ofLiteral_escapeDelimiters {t : Text} (h : t ≠ []) (line : Nat) :
    ofLiteral (escapeDelimiters t) line = [.literal t line] := by
  have hne : (escapeDelimiters t).isEmpty = false := by simpa using escapeDelimiters_ne_nil h
  rw [ofLiteral, hne, unescapeLiteral_escapeDelimiters]
  rfl

theorem escapeDelimiters_nil : escapeDelimiters [] = [] := rfl

theorem run_last (fuel : Nat) (fresh : Bool) (line : Nat) (t : Text) :
    Splitting.run (fuel + 1) fresh line (escapeDelimiters t) =
      ⟨ofLiteral (escapeDelimiters t) line, none⟩ := by
  have hbefore := beforeOpener_doubleOpeners (doubleClosers t) (.inl rfl : startsTag [])
  rw [List.append_nil] at hbefore
  simp only [Splitting.run, escapeDelimiters, hbefore]

/-- A text that reads as segments of its own after whatever literal text is pending, wherever that
begins. -/
def Ends (rest : Text) (last : Nat → List Segment) : Prop :=
  ∀ (t : Text) (fuel : Nat) (fresh : Bool) (line : Nat),
    Splitting.run (fuel + 1) fresh line (escapeDelimiters t ++ rest) =
      ⟨ofLiteral (escapeDelimiters t) line ++ last (line + t.newlines), none⟩

theorem ends_nil : Ends [] fun _ => [] := by
  intro t fuel fresh line
  rw [List.append_nil, run_last, List.append_nil]

/-- Text that is still to be read, and the parts after it, split into their segments. The
pending text is empty unless a tag or the end comes next, so a text among the parts
becomes the pending one. -/
theorem run_pending (t : Text) {ps : List Part} (hps : separated ps)
    (hnext : t ≠ [] → ∀ part ∈ ps.head?, part.tag?.isSome = true) {rest : Text}
    {last : Nat → List Segment} (hrest : Ends rest last) {fuel : Nat} (hfuel : ps.length < fuel)
    (fresh : Bool) (line : Nat) :
    Splitting.run fuel fresh line (escapeDelimiters t ++ (ps.flatMap Part.written ++ rest)) =
      ⟨ofLiteral (escapeDelimiters t) line ++ (segments (line + t.newlines) ps ++
        last (line + t.newlines + lineBreaks ps)), none⟩ := by
  induction ps generalizing t fuel fresh line with
  | nil =>
      obtain ⟨fuel, rfl⟩ := Nat.exists_eq_add_one.mpr (Nat.lt_of_le_of_lt (Nat.zero_le _) hfuel)
      simp only [List.flatMap_nil, List.nil_append, hrest t, segments, lineBreaks_nil, Nat.add_zero]
  | cons part others ih =>
      obtain ⟨fuel, rfl⟩ := Nat.exists_eq_add_one.mpr (Nat.lt_of_le_of_lt (Nat.zero_le _) hfuel)
      rw [List.length_cons] at hfuel
      cases htag : part.tag? with
      | some tag =>
          have hothers := ih [] (separated_tail hps) (fun h => absurd rfl h)
            (Nat.lt_of_succ_lt_succ hfuel) false (line + t.newlines)
          simp only [escapeDelimiters_nil, List.nil_append, ofLiteral, List.isEmpty_nil, if_true,
            Text.newlines_nil, Nat.add_zero] at hothers
          rw [List.flatMap_cons, List.append_assoc, run_tag htag, hothers, segments, lineBreaks_cons,
            (Part.newlines_tag htag).1]
          simp
      | none =>
          cases part with
          | text u =>
              have ht : t = [] := by
                cases t with
                | nil => rfl
                | cons c t => cases hnext (by simp) (.text u) rfl
              subst ht
              have hothers := ih u hps.2.2 (fun _ => hps.2.1) (Nat.lt_of_succ_lt hfuel) fresh line
              rw [List.flatMap_cons, escapeDelimiters_nil, List.nil_append, List.append_assoc]
              refine hothers.trans ?_
              rw [ofLiteral_escapeDelimiters hps.1, segments, lineBreaks_cons, Nat.add_assoc]
              rfl
          | print raw n => cases raw <;> cases htag
          | opening _ | clause _ | closing _ => cases htag

theorem Part.written_ne_nil {part : Part} {others : List Part}
    (h : separated (part :: others)) : part.written ≠ [] := by
  cases htag : part.tag? with
  | some tag =>
      rw [Part.written_tag htag]
      exact List.cons_ne_nil _ _
  | none =>
      cases part with
      | text t => exact escapeDelimiters_ne_nil h.1
      | print raw n => cases raw <;> cases htag
      | opening _ | clause _ | closing _ => cases htag

theorem length_le_written {ps : List Part} (hps : separated ps) :
    ps.length ≤ (ps.flatMap Part.written).length := by
  induction ps with
  | nil => simp
  | cons part others ih =>
      have hpos := List.length_pos_iff.mpr (Part.written_ne_nil hps)
      have hothers := ih (separated_tail hps)
      simp only [List.flatMap_cons, List.length_append, List.length_cons]
      omega

/-- The template of separated parts, and what ends it, splits into their segments. -/
theorem ofTemplate_parts_append {ps : List Part} (hps : separated ps) {rest : Text}
    {last : Nat → List Segment} (hrest : Ends rest last) :
    Splitting.ofTemplate (ps.flatMap Part.written ++ rest) =
      ⟨segments 1 ps ++ last (1 + lineBreaks ps), none⟩ := by
  have hfuel : ps.length < (ps.flatMap Part.written ++ rest).length + 1 := by
    have hlength := length_le_written hps
    rw [List.length_append]
    omega
  exact run_pending [] hps (fun h => absurd rfl h) hrest hfuel true 1

/-- The template of separated parts splits into their segments. -/
theorem ofTemplate_parts {ps : List Part} (hps : separated ps) :
    Splitting.ofTemplate (ps.flatMap Part.written) = ⟨segments 1 ps, none⟩ := by
  have h := ofTemplate_parts_append hps ends_nil
  rwa [List.append_nil, List.append_nil] at h

end Outline

end TemplateEngine
