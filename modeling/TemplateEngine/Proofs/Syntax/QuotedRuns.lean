import TemplateEngine.Proofs.Syntax.LineReading
import TemplateEngine.Proofs.Template.Splitting

/-!
# Quoted runs and strings

A quoted run of a tag ends at the first quote that no backslash precedes, and so does a
string of the language that begins with one quote. A run that is not empty is therefore a
string as it stands, and so is an empty one unless the same quote comes next; then three
quotes are met, and the string that they begin ends at the next three.
-/
namespace TemplateEngine

open Segment (isQuote closing?)

theorem Text.not_isBlank_of_isQuote {quote : Char} (hquote : isQuote quote = true) :
    Text.isBlank quote = false := by
  simp only [isQuote, Bool.or_eq_true, decide_eq_true_eq] at hquote
  rcases hquote with rfl | rfl <;> decide

namespace Segment

/-- The rest of a quoted run behind its opening quote. -/
inductive QuotedRest (quote : Char) : Text → Prop where
  | close : QuotedRest quote [quote]
  | char {c : Char} {w : Text} : c ≠ quote → c ≠ '\\' → QuotedRest quote w →
      QuotedRest quote (c :: w)
  | escape (c : Char) {w : Text} : QuotedRest quote w → QuotedRest quote ('\\' :: c :: w)

variable {quote : Char}

theorem ne_backslash_of_isQuote (h : isQuote quote = true) : quote ≠ '\\' := by
  rintro rfl
  cases h

/-- The run that the length of a quoted run counts. -/
theorem exists_quotedRest {t : Text} {n : Nat} (h : closing? quote t = some n) :
    ∃ w rest, t = w ++ rest ∧ w.length = n ∧ QuotedRest quote w := by
  fun_induction closing? quote t generalizing n with
  | case1 => cases h
  | case2 c rest ih =>
      obtain ⟨n, hn, rfl⟩ := Option.map_eq_some_iff.mp h
      obtain ⟨w, others, rfl, rfl, hw⟩ := ih hn
      exact ⟨'\\' :: c :: w, others, rfl, rfl, .escape c hw⟩
  | case3 rest hescape =>
      cases h
      exact ⟨[quote], rest, rfl, rfl, .close⟩
  | case4 c rest hescape hc ih =>
      obtain ⟨n, hn, rfl⟩ := Option.map_eq_some_iff.mp h
      obtain ⟨w, others, rfl, rfl, hw⟩ := ih hn
      refine ⟨c :: w, others, rfl, rfl, .char hc ?_ hw⟩
      rintro rfl
      cases hw <;> exact hescape _ _ rfl rfl

/-- The length of a run is that of what belongs to it, whatever comes behind. -/
theorem QuotedRest.closing? (hquote : isQuote quote = true) {w : Text} (h : QuotedRest quote w)
    (t : Text) : Segment.closing? quote (w ++ t) = some w.length := by
  have hescape := ne_backslash_of_isQuote hquote
  induction h with
  | close => exact closing?_plain hescape (s := []) (by simp) t
  | @char c w hc hbackslash _ ih =>
      rw [List.cons_append, Segment.closing?, if_neg hc, ih]
      · rfl
      · exact fun _ _ h => absurd h hbackslash
  | @escape c w _ ih =>
      rw [List.cons_append, List.cons_append, Segment.closing?, ih]
      rfl

/-- A run ends in its quote. -/
theorem QuotedRest.exists_inner {w : Text} (h : QuotedRest quote w) :
    ∃ inner, w = inner ++ [quote] := by
  induction h with
  | close => exact ⟨[], rfl⟩
  | @char c w _ _ _ ih =>
      obtain ⟨inner, rfl⟩ := ih
      exact ⟨c :: inner, rfl⟩
  | @escape c w _ ih =>
      obtain ⟨inner, rfl⟩ := ih
      exact ⟨'\\' :: c :: inner, rfl⟩

/-- Without another quote no run ends. -/
theorem closing?_eq_none {t : Text} (h : quote ∉ t) : closing? quote t = none := by
  rw [Option.eq_none_iff_forall_ne_some]
  intro n hn
  obtain ⟨w, rest, rfl, -, hw⟩ := exists_quotedRest hn
  obtain ⟨inner, rfl⟩ := hw.exists_inner
  exact h (by simp)

end Segment

namespace Literal

open Segment (QuotedRest)

variable {start p : Position} {quote : Char} {triple : Bool} {mode : StringMode} {value : Text}
  {found : Scanned}

/-- A character that is neither the quote nor a backslash is read without regard to what comes
behind it. -/
theorem stringBody_of_char {c : Char} (hc : c ≠ quote) (hescape : c ≠ '\\')
    (hmode : mode ≠ .escape) {t : Text}
    (h : stringBody start quote triple mode p value (c :: t) = .ok found) :
    ∃ mode' value', mode' ≠ .escape ∧ ∀ t, stringBody start quote triple mode p value (c :: t) =
      stringBody start quote triple mode' (p.step c) value' t := by
  cases mode with
  | escape => exact absurd rfl hmode
  | plain =>
      have hnewline : triple = false → c ≠ '\n' := by
        rintro rfl rfl
        rw [stringBody.eq_def] at h
        simp only [if_neg hc] at h
        cases h
      exact ⟨.plain, c :: value, by simp, stringBody_char start p value hc hnewline hescape⟩
  | byte place digits =>
      rw [stringBody.eq_def] at h
      simp only at h
      split at h
      · cases h
      · rename_i d hdigit
        split at h
        · rename_i hlength
          refine ⟨.plain, Char.ofNat (hexValue (digits ++ [c])) :: value, by simp, fun t => ?_⟩
          rw [stringBody.eq_def]
          simp only [hdigit, if_pos hlength]
        · rename_i hlength
          refine ⟨.byte place (digits ++ [c]), value, by simp, fun t => ?_⟩
          rw [stringBody.eq_def]
          simp only [hdigit, if_neg hlength]
  | brace place =>
      rw [stringBody.eq_def] at h
      simp only at h
      split at h
      · rename_i hbrace
        exact ⟨.point place [], value, by simp, fun t => by rw [stringBody, if_pos hbrace]⟩
      · cases h
  | point place digits =>
      rw [stringBody.eq_def] at h
      simp only at h
      split at h
      · rename_i d hdigit
        refine ⟨.point place (digits ++ [c]), value, by simp, fun t => ?_⟩
        rw [stringBody.eq_def]
        simp only [hdigit]
      · rename_i hdigit
        split at h
        · rename_i hend
          split at h
          · rename_i d hchar
            refine ⟨.plain, d :: value, by simp, fun t => ?_⟩
            rw [stringBody.eq_def]
            simp only [hdigit, if_pos hend, hchar]
          · cases h
        · cases h

/-- Neither the quote nor a backslash is a part of an escape that has begun. -/
theorem plain_of_quote {c : Char} (hc : c = quote ∨ c = '\\') (hquote : isQuote quote = true)
    (hmode : mode ≠ .escape) {t : Text}
    (h : stringBody start quote triple mode p value (c :: t) = .ok found) : mode = .plain := by
  have hdigit : hexDigit? c = none ∧ c ≠ '\x7b' ∧ c ≠ '\x7d' := by
    simp only [isQuote, Bool.or_eq_true, decide_eq_true_eq] at hquote
    rcases hc with rfl | rfl
    · rcases hquote with rfl | rfl <;> decide
    · decide
  obtain ⟨hdigit, hopen, hclose⟩ := hdigit
  cases mode with
  | plain => rfl
  | escape => exact absurd rfl hmode
  | byte place digits =>
      rw [stringBody.eq_def] at h
      simp only [hdigit] at h
      cases h
  | brace place =>
      rw [stringBody, if_neg hopen] at h
      cases h
  | point place digits =>
      rw [stringBody.eq_def] at h
      simp only [hdigit, decide_eq_false hclose, Bool.false_and, Bool.false_eq_true, if_false] at h
      cases h

theorem stringBody_backslash (hquote : quote ≠ '\\') (t : Text) :
    stringBody start quote triple .plain p value ('\\' :: t) =
      stringBody start quote triple .escape (p.step '\\') value t := by
  rw [stringBody.eq_def]
  simp [hquote.symm]

/-- A backslash and the character behind it are read without regard to what comes next. -/
theorem stringBody_of_escape (hquote : isQuote quote = true) {c : Char}
    (hmode : mode ≠ .escape) {t : Text}
    (h : stringBody start quote triple mode p value ('\\' :: c :: t) = .ok found) :
    ∃ mode' value', mode' ≠ .escape ∧ ∀ t,
      stringBody start quote triple mode p value ('\\' :: c :: t) =
        stringBody start quote triple mode' ((p.step '\\').step c) value' t := by
  cases plain_of_quote (.inr rfl) hquote hmode h
  simp only [stringBody_backslash (Segment.ne_backslash_of_isQuote hquote)]
  cases hescaped : escapedChar? c with
  | some d =>
      refine ⟨.plain, d :: value, by simp, fun t => ?_⟩
      rw [stringBody]
      simp only [hescaped]
  | none =>
      by_cases hnewline : c = '\n'
      · refine ⟨.plain, value, by simp, fun t => ?_⟩
        rw [stringBody]
        simp only [hescaped, if_pos hnewline]
      · by_cases hbyte : c = 'x'
        · refine ⟨.byte (p.step '\\') [], value, by simp, fun t => ?_⟩
          rw [stringBody]
          simp only [hescaped, if_neg hnewline, if_pos hbyte]
        · by_cases hpoint : c = 'u'
          · refine ⟨.brace (p.step '\\'), value, by simp, fun t => ?_⟩
            rw [stringBody]
            simp only [hescaped, if_neg hnewline, if_neg hbyte, if_pos hpoint]
          · refine ⟨.plain, c :: '\\' :: value, by simp, fun t => ?_⟩
            rw [stringBody]
            simp only [hescaped, if_neg hnewline, if_neg hbyte, if_neg hpoint]

/-- The quotes that close a string behind the first of them. -/
def closers (quote : Char) (triple : Bool) : Text := if triple then [quote, quote] else []

theorem closers_one : closers quote false = [] := rfl

theorem closers_three : closers quote true = [quote, quote] := rfl

theorem stringBody_close (rest : Text) :
    stringBody start quote triple .plain p value (quote :: (closers quote triple ++ rest)) =
      .ok ⟨.string value.reverse, rest, p.after (quote :: closers quote triple)⟩ := by
  cases triple with
  | false => simp [closers, stringBody]
  | true => simp [closers, stringBody]

/-- Reading a string that ends with a run takes that run and its closing quotes, and nothing
behind them. -/
theorem stringBody_of_append (hquote : isQuote quote = true) {w : Text} (hw : QuotedRest quote w)
    {rest : Text}
    (h : stringBody start quote triple mode p value (w ++ (closers quote triple ++ rest)) =
      .ok found) (hmode : mode ≠ .escape) :
    found.rest = rest ∧ stringBody start quote triple mode p value (w ++ closers quote triple) =
      .ok { found with rest := [] } := by
  induction hw generalizing mode p value with
  | close =>
      cases plain_of_quote (.inl rfl) hquote hmode h
      rw [List.singleton_append, stringBody_close] at h
      cases h
      refine ⟨rfl, ?_⟩
      rw [List.singleton_append, ← List.append_nil (closers quote triple), stringBody_close,
        List.append_nil]
  | @char c w hc hescape hw ih =>
      obtain ⟨mode', value', hmode', hstep⟩ := stringBody_of_char hc hescape hmode h
      rw [List.cons_append, hstep] at h ⊢
      exact ih h hmode'
  | @escape c w hw ih =>
      obtain ⟨mode', value', hmode', hstep⟩ := stringBody_of_escape hquote hmode h
      rw [List.cons_append, List.cons_append, hstep] at h ⊢
      exact ih h hmode'

/-- A string that begins with one quote and ends is a quoted run. -/
theorem closing?_of_stringBody (hquote : isQuote quote = true) {t : Text}
    (h : stringBody start quote triple mode p value t = .ok found) (hmode : mode ≠ .escape) :
    closing? quote t ≠ none := by
  fun_induction closing? quote t generalizing mode p value with
  | case1 => cases mode <;> cases h
  | case2 c rest ih =>
      obtain ⟨mode', value', hmode', hstep⟩ := stringBody_of_escape hquote hmode h
      rw [hstep] at h
      have hrest := ih h hmode'
      rwa [ne_eq, Option.map_eq_none_iff]
  | case3 => exact Option.some_ne_none 1
  | case4 c rest hlong hc ih =>
      by_cases hescape : c = '\\'
      · subst hescape
        cases plain_of_quote (.inr rfl) hquote hmode h
        cases rest with
        | nil =>
            rw [stringBody_backslash (Segment.ne_backslash_of_isQuote hquote)] at h
            cases h
        | cons d rest => exact absurd rfl (hlong d rest rfl)
      · obtain ⟨mode', value', hmode', hstep⟩ := stringBody_of_char hc hescape hmode h
        rw [hstep] at h
        have hrest := ih h hmode'
        rwa [ne_eq, Option.map_eq_none_iff]

variable {w v : Text}

/-- A run begins a string of one quote, unless it is empty and its quote comes next. -/
theorem string_run (hquote : isQuote quote = true) (hw : QuotedRest quote w)
    (hv : w = [quote] → v.head? ≠ some quote) :
    string p quote (w ++ v) = stringBody p quote false .plain (p.step quote) [] (w ++ v) := by
  have hfirst {c : Char} {t : Text} (hc : c ≠ quote) : string p quote (c :: t) =
      stringBody p quote false .plain (p.step quote) [] (c :: t) := by
    cases t with
    | nil => rfl
    | cons d t => simp [string, hc]
  cases hw with
  | close =>
      cases v with
      | nil => rfl
      | cons c v =>
          have hc : c ≠ quote := fun h => hv rfl (h ▸ rfl)
          simp [string, hc]
  | char hc _ _ => exact hfirst hc
  | escape c _ => exact hfirst (Segment.ne_backslash_of_isQuote hquote).symm

theorem string_triple (t : Text) : string p quote (quote :: quote :: t) =
    stringBody p quote true .plain (((p.step quote).step quote).step quote) [] t := by
  simp [string]

end Literal

namespace Lexer

open Segment (QuotedRest)

variable {quote : Char} {t t' r r' v v' w : Text}

theorem token_of_isQuote (hquote : isQuote quote = true) (s : Lexer) (t : Text) :
    s.token quote t =
      match Literal.string s.position quote t with
      | .ok found => .more [⟨found.kind, ⟨s.position, found.stop⟩⟩] (s.pass found.stop found.rest)
      | .error error => .failed error s.indents.length := by
  simp only [isQuote, Bool.or_eq_true, decide_eq_true_eq] at hquote
  obtain ⟨hstart, hdigit, htest⟩ := not_code_of_quote hquote
  rw [token]
  exact (if_neg hstart).trans ((if_neg hdigit).trans (if_pos htest))

theorem round_quote (hquote : isQuote quote = true) (t : Text) (p : Position)
    (brackets : List Char) (ended : Bool) :
    round ⟨quote :: t, p, [], brackets, false, ended⟩ =
      match Literal.string p quote t with
      | .ok found => .more [⟨found.kind, ⟨p, found.stop⟩⟩]
          ⟨found.rest, found.stop, [], brackets, false, false⟩
      | .error error => .failed error 0 := by
  have hvisible : quote ∉ [' ', '\t', '\r', '\x0c', '#', '\\'] ∧ quote ≠ '\n' := by
    simp only [isQuote, Bool.or_eq_true, decide_eq_true_eq] at hquote
    rcases hquote with rfl | rfl <;> decide
  rw [round_token hvisible.1 hvisible.2, token_of_isQuote hquote]
  rfl

/-- Strings with the same value, before texts that read alike. -/
theorem ReadsAs.of_string (hquote : isQuote quote = true)
    (h : ∀ p found, Literal.string p quote t = .ok found →
      found.rest = r ∧ ∀ q, ∃ stop, Literal.string q quote t' = .ok ⟨found.kind, r', stop⟩)
    (hrest : ReadsAs r r') : ReadsAs (quote :: t) (quote :: t') := by
  apply readsAs_of_round
  · intro brackets ended p tokens next hround
    rw [round_quote hquote] at hround
    split at hround
    · rename_i found hfound
      cases hround
      obtain ⟨rfl, hother⟩ := h p found hfound
      refine ⟨_, r', found.kind, _, brackets, _, hrest, rfl, rfl, fun q => ?_⟩
      obtain ⟨stop, hstring⟩ := hother q
      rw [round_quote hquote, hstring]
      exact ⟨_, _, rfl⟩
    · cases hround
  · intro brackets ended p tokens hround
    rw [round_quote hquote] at hround
    split at hround <;> cases hround

/-- A run reads as a string of one quote, unless it is empty and its quote comes next. -/
theorem ReadsAs.run (hquote : isQuote quote = true) (hw : QuotedRest quote w)
    (hv : w = [quote] → v.head? ≠ some quote) (hv' : w = [quote] → v'.head? ≠ some quote)
    (h : ReadsAs v v') : ReadsAs (quote :: (w ++ v)) (quote :: (w ++ v')) := by
  refine .of_string hquote (fun p found hfound => ?_) h
  rw [Literal.string_run hquote hw hv, ← List.nil_append v, ← Literal.closers_one] at hfound
  obtain ⟨hrest, halone⟩ := Literal.stringBody_of_append hquote hw hfound (by simp)
  refine ⟨hrest, fun q => ?_⟩
  rw [Literal.string_run hquote hw hv']
  have hsame := Literal.stringBody_append halone q q (q.step quote) v'
  rwa [Literal.closers_one, List.append_nil] at hsame

/-- A run between two pairs of its quote reads as a string of three quotes. -/
theorem ReadsAs.triple (hquote : isQuote quote = true) (hw : QuotedRest quote w)
    (h : ReadsAs v v') : ReadsAs (quote :: quote :: quote :: (w ++ quote :: quote :: v))
      (quote :: quote :: quote :: (w ++ quote :: quote :: v')) := by
  refine .of_string hquote (fun p found hfound => ?_) h
  have hclosers : quote :: quote :: v = Literal.closers quote true ++ v := rfl
  rw [Literal.string_triple, hclosers] at hfound
  obtain ⟨hrest, halone⟩ := Literal.stringBody_of_append hquote hw hfound (by simp)
  refine ⟨hrest, fun q => ?_⟩
  rw [Literal.string_triple]
  have hsame := Literal.stringBody_append halone q q (((q.step quote).step quote).step quote) v'
  rwa [Literal.closers_three, List.append_assoc] at hsame

/-- A quote that is never closed begins no string. -/
theorem readsAs_unclosed (hquote : isQuote quote = true) (ht : closing? quote t = none) :
    ReadsAs (quote :: t) t' := by
  apply readsAs_of_failed
  intro brackets ended p
  rw [round_quote hquote]
  split
  · rename_i found hfound
    -- Three quotes in a row would close a run at once.
    have hsingle : Literal.string p quote t =
        Literal.stringBody p quote false .plain (p.step quote) [] t := by
      rcases t with _ | ⟨a, _ | ⟨b, after⟩⟩
      · rfl
      · rfl
      · have ha : a ≠ quote := by
          rintro rfl
          have hclosed := Segment.closing?_plain (Segment.ne_backslash_of_isQuote hquote)
            (s := []) (by simp) (b :: after)
          rw [List.nil_append, ht] at hclosed
          cases hclosed
        simp [Literal.string, ha]
    rw [hsingle] at hfound
    exact absurd ht (Literal.closing?_of_stringBody hquote hfound (by simp))
  · exact ⟨_, _, rfl⟩

end Lexer

end TemplateEngine
