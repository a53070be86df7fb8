import TemplateEngine.Proofs.Syntax.Lexemes
import TemplateEngine.Template.Generated

/-!
# Strings that read back

Literal text is put between three double quotes with a backslash before every
backslash and double quote, so that no quote in it is read as the end. A plain
text on one line, without quotes and backslashes, needs no escapes and single
quotes are enough. A text in its printed form reads back whatever it holds, unless
another quote stands right behind it.
-/
namespace TemplateEngine.Literal

section Steps

variable (start : Position) {quote : Char} {triple : Bool} (p : Position) (value : Text) {c : Char}

/-- An ordinary character of a string stands for itself. -/
theorem stringBody_char (hquote : c ≠ quote) (hnewline : triple = false → c ≠ '\n')
    (hescape : c ≠ '\\') (rest : Text) :
    stringBody start quote triple .plain p value (c :: rest) =
      stringBody start quote triple .plain (p.step c) (c :: value) rest := by
  have hnewline' : ¬ (c = '\n' ∧ triple = false) := fun h => hnewline h.2 h.1
  cases rest with
  | nil => simp [stringBody, hquote, hnewline', hescape]
  | cons a rest => cases rest <;> simp [stringBody, hquote, hnewline', hescape]

/-- A backslash before a quote or a backslash takes its meaning away. -/
theorem stringBody_escape (hquote : quote ≠ '\\') {d : Char} (hd : escapedChar? c = some d)
    (rest : Text) :
    stringBody start quote triple .plain p value ('\\' :: c :: rest) =
      stringBody start quote triple .plain ((p.step '\\').step c) (d :: value) rest := by
  cases rest <;> simp [stringBody, hquote.symm, hd]

end Steps

theorem stringBody_escaped (start p : Position) (value t rest : Text) :
    stringBody start '"' true .plain p value
        (Draft.escapeLiteral t ++ '"' :: '"' :: '"' :: rest) =
      .ok ⟨.string (value.reverse ++ t), rest,
        p.after (Draft.escapeLiteral t ++ ['"', '"', '"'])⟩ := by
  induction t generalizing p value with
  | nil =>
      simp [Draft.escapeLiteral, stringBody]
  | cons c t ih =>
      have hcons : Draft.escapeLiteral (c :: t) =
          (if c = '\\' || c = '"' then ['\\', c] else [c]) ++ Draft.escapeLiteral t := by
        simp [Draft.escapeLiteral]
      by_cases hc : c = '\\' ∨ c = '"'
      · have hescaped : escapedChar? c = some c := by
          rcases hc with rfl | rfl <;> decide
        rw [hcons, if_pos (by simpa using hc)]
        simp only [List.cons_append, List.nil_append]
        rw [stringBody_escape start p value (by decide) hescaped, ih]
        simp
      · have hc' : c ≠ '\\' ∧ c ≠ '"' := ⟨fun h => hc (.inl h), fun h => hc (.inr h)⟩
        rw [hcons, if_neg (by simpa using hc)]
        simp only [List.cons_append, List.nil_append]
        rw [stringBody_char start p value hc'.2 (by simp) hc'.1, ih]
        simp

theorem stringBody_plain (start p : Position) (value rest : Text) {t : Text}
    (ht : ∀ c ∈ t, c ≠ '"' ∧ c ≠ '\\' ∧ c ≠ '\n') :
    stringBody start '"' false .plain p value (t ++ '"' :: rest) =
      .ok ⟨.string (value.reverse ++ t), rest, p.after (t ++ ['"'])⟩ := by
  induction t generalizing p value with
  | nil => simp [stringBody]
  | cons c t ih =>
      have hc := ht c (by simp)
      rw [List.cons_append, stringBody_char start p value hc.1 (fun _ => hc.2.2) hc.2.1,
        ih _ _ fun d hd => ht d (List.mem_cons_of_mem c hd)]
      simp

/-- A printed character is an escape, or stands for itself. -/
theorem encodeChar_cases {quote : Char} (hquote : quote ∈ ['\'', '"']) (c : Char) :
    (∃ d, Quoted.encodeChar quote c = ['\\', d] ∧ escapedChar? d = some c) ∨
      Quoted.encodeChar quote c = [c] ∧ c ≠ quote ∧ c ≠ '\n' ∧ c ≠ '\\' := by
  have hescape : escapedChar? quote = some quote := by
    simp only [List.mem_cons, List.not_mem_nil, or_false] at hquote
    rcases hquote with rfl | rfl <;> decide
  by_cases hspecial : c ∈ ['\\', '\n', '\r', '\t']
  · simp only [List.mem_cons, List.not_mem_nil, or_false] at hspecial
    rcases hspecial with rfl | rfl | rfl | rfl <;> exact .inl ⟨_, rfl, by decide⟩
  · simp only [List.mem_cons, List.not_mem_nil, or_false, not_or] at hspecial
    by_cases hc : c = quote
    · subst hc
      exact .inl ⟨c, by simp [Quoted.encodeChar, hspecial], hescape⟩
    · exact .inr ⟨by simp [Quoted.encodeChar, hspecial, hc], hc, hspecial.2.1, hspecial.1⟩

theorem ne_of_quote {quote : Char} (hquote : quote ∈ ['\'', '"']) : quote ≠ '\\' := by
  rintro rfl
  simp at hquote

/-- One character of a printed text is read as itself. -/
theorem stringBody_encodeChar (start p : Position) (value rest : Text) {quote : Char}
    (hquote : quote ∈ ['\'', '"']) (c : Char) :
    stringBody start quote false .plain p value (Quoted.encodeChar quote c ++ rest) =
      stringBody start quote false .plain (p.after (Quoted.encodeChar quote c)) (c :: value)
        rest := by
  obtain ⟨d, hd, hescape⟩ | ⟨hself, hc, hnewline, hbackslash⟩ := encodeChar_cases hquote c
  · rw [hd]
    exact stringBody_escape start p value (ne_of_quote hquote) hescape rest
  · rw [hself]
    exact stringBody_char start p value hc (fun _ => hnewline) hbackslash rest

theorem stringBody_quoted (start p : Position) (value t rest : Text) {quote : Char}
    (hquote : quote ∈ ['\'', '"']) :
    stringBody start quote false .plain p value
        (t.flatMap (Quoted.encodeChar quote) ++ quote :: rest) =
      .ok ⟨.string (value.reverse ++ t), rest,
        p.after (t.flatMap (Quoted.encodeChar quote) ++ [quote])⟩ := by
  induction t generalizing p value with
  | nil => cases rest <;> simp [stringBody]
  | cons c t ih =>
      rw [List.flatMap_cons, List.append_assoc, stringBody_encodeChar start p value _ hquote, ih]
      simp

/-- The first character of a printed one is not the quote around it. -/
theorem encodeChar_first {quote : Char} (hquote : quote ∈ ['\'', '"']) (c : Char) :
    ∃ d rest, Quoted.encodeChar quote c = d :: rest ∧ d ≠ quote := by
  obtain ⟨d, hd, -⟩ | ⟨hself, hc, -⟩ := encodeChar_cases hquote c
  · exact ⟨_, _, hd, (ne_of_quote hquote).symm⟩
  · exact ⟨_, _, hself, hc⟩

theorem mark_mem (t : Text) : Quoted.mark t ∈ ['\'', '"'] := by
  unfold Quoted.mark
  split <;> decide

/-- A printed text reads back, unless a quote comes after it. -/
theorem string_encode (p : Position) (t : Text) {rest : Text} (hrest : Lexeme.endsQuoted rest) :
    string p (Quoted.mark t)
        (t.flatMap (Quoted.encodeChar (Quoted.mark t)) ++ Quoted.mark t :: rest) =
      .ok ⟨.string t, rest, p.after (Quoted.encode t)⟩ := by
  have hbody := stringBody_quoted p (p.step (Quoted.mark t)) [] t rest (mark_mem t)
  have hsingle : string p (Quoted.mark t)
      (t.flatMap (Quoted.encodeChar (Quoted.mark t)) ++ Quoted.mark t :: rest) =
      stringBody p (Quoted.mark t) false .plain (p.step (Quoted.mark t)) []
        (t.flatMap (Quoted.encodeChar (Quoted.mark t)) ++ Quoted.mark t :: rest) := by
    have hmark := mark_mem t
    generalize Quoted.mark t = quote at hmark
    cases t with
    | nil =>
        cases rest with
        | nil => rfl
        | cons c rest =>
            have hc : c ≠ quote := by
              have hquotes := hrest c rfl
              simp only [List.mem_cons, List.not_mem_nil, or_false] at hmark
              rcases hmark with rfl | rfl
              · exact hquotes.1
              · exact hquotes.2
            simp [string, hc]
    | cons c t =>
        obtain ⟨d, inner, hd, hne⟩ := encodeChar_first hmark c
        rw [List.flatMap_cons, hd]
        obtain ⟨e, others, he⟩ : ∃ e others, (inner ++ t.flatMap (Quoted.encodeChar quote)) ++
            quote :: rest = e :: others := List.exists_cons_of_ne_nil (by simp)
        rw [List.cons_append, List.cons_append, he]
        simp [string, hne]
  rw [hsingle, hbody, Quoted.encode]
  simp

end TemplateEngine.Literal

namespace TemplateEngine.Lexeme

/-- A text between triple quotes. -/
def tripleQuoted (t : Text) : Text :=
  '"' :: '"' :: '"' :: (Draft.escapeLiteral t ++ ['"', '"', '"'])

/-- Text of any kind reads back from between triple quotes. -/
theorem quotes_tripleQuoted (t : Text) : quotes t (tripleQuoted t) := by
  refine ⟨rfl, fun p rest => ?_⟩
  have h := Literal.stringBody_escaped p (((p.step '"').step '"').step '"') [] t rest
  simpa [Literal.string] using h

/-- A plain text reads back from between double quotes. -/
theorem quotes_plain {t : Text} (hnil : t ≠ []) (ht : ∀ c ∈ t, c ≠ '"' ∧ c ≠ '\\' ∧ c ≠ '\n') :
    quotes t ('"' :: (t ++ ['"'])) := by
  refine ⟨rfl, fun p rest => ?_⟩
  have h := Literal.stringBody_plain p (p.step '"') [] rest ht
  obtain ⟨c, t, rfl⟩ := List.exists_cons_of_ne_nil hnil
  have hc := (ht c (by simp)).1
  obtain ⟨b, after, hafter⟩ : ∃ b after, t ++ '"' :: rest = b :: after := by
    cases t with
    | nil => exact ⟨_, _, rfl⟩
    | cons d t => exact ⟨_, _, rfl⟩
  have hinside : (c :: t ++ ['"']) ++ rest = c :: b :: after := by
    rw [List.append_assoc, List.singleton_append, List.cons_append, hafter]
  have hbody : c :: t ++ '"' :: rest = c :: b :: after := by rw [List.cons_append, hafter]
  rw [hbody] at h
  rw [hinside, Literal.string]
  simp only [hc]
  simpa using h

end TemplateEngine.Lexeme
