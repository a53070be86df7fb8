import TemplateEngine.Syntax.Lexer

/-!
# What no token holds

Between tokens stand blanks, comments, continued lines and those line breaks that end no line.
The indentation of a line and what is passed before a token consist of nothing else, so a lexer
skips nothing besides.
-/
namespace TemplateEngine.Lexer

/-- Text ahead of another one that no token holds. A comment goes on to the end of its line, and
a line break is passed only where it is idle. -/
inductive Skipped (idle : Prop) (ahead : Text) : Text → Prop where
  | nil : Skipped idle ahead []
  | blank {c : Char} {gap : Text} : c ∈ [' ', '\t', '\r', '\x0c'] → Skipped idle ahead gap →
      Skipped idle ahead (c :: gap)
  | comment {words gap : Text} : '\n' ∉ words → (∀ c ∈ (gap ++ ahead).head?, c = '\n') →
      Skipped idle ahead gap → Skipped idle ahead ('#' :: (words ++ gap))
  | continuation {gap : Text} : Skipped idle ahead gap → Skipped idle ahead ('\\' :: '\n' :: gap)
  | newline {gap : Text} : idle → Skipped idle ahead gap → Skipped idle ahead ('\n' :: gap)

variable {idle : Prop} {ahead gap gap' : Text}

theorem Skipped.append (h : Skipped idle (gap' ++ ahead) gap) (h' : Skipped idle ahead gap') :
    Skipped idle ahead (gap ++ gap') := by
  induction h with
  | nil => exact h'
  | blank hc _ ih => exact .blank hc ih
  | comment hwords hend _ ih =>
      rw [List.cons_append, List.append_assoc]
      refine .comment hwords ?_ ih
      rwa [List.append_assoc]
  | continuation _ ih => exact .continuation ih
  | newline hidle _ ih => exact .newline hidle ih

/-- The way from a place with a text ahead over what no token holds, maybe from within a comment,
whose number sign is behind already. -/
def Skips (idle : Prop) (comment : Bool) (p : Position) (t : Text) (p' : Position)
    (ahead : Text) : Prop :=
  ∃ gap, t = gap ++ ahead ∧ p' = p.after gap ∧
    Skipped idle ahead (if comment then '#' :: gap else gap)

namespace Skips

variable {comment : Bool} {p p' : Position} {t : Text}

theorem length_le (h : Skips idle comment p t p' ahead) : ahead.length ≤ t.length := by
  obtain ⟨gap, rfl, -, -⟩ := h
  rw [List.length_append]
  omega

theorem refl (p : Position) (t : Text) : Skips idle false p t p t := ⟨[], rfl, rfl, .nil⟩

/-- A comment ends before a line break and at the end of a source. -/
theorem comment_end (p : Position) (hend : ∀ c ∈ ahead.head?, c = '\n') :
    Skips idle true p ahead p ahead := by
  have hnone : Skipped idle ahead ('#' :: ([] ++ [])) := .comment List.not_mem_nil hend .nil
  exact ⟨[], rfl, rfl, hnone⟩

theorem blank {c : Char} (hc : c ∈ [' ', '\t', '\r', '\x0c'])
    (h : Skips idle false (p.step c) t p' ahead) : Skips idle false p (c :: t) p' ahead := by
  obtain ⟨gap, rfl, rfl, hgap⟩ := h
  exact ⟨c :: gap, rfl, rfl, .blank hc hgap⟩

theorem comment_start (h : Skips idle true (p.step '#') t p' ahead) :
    Skips idle false p ('#' :: t) p' ahead := by
  obtain ⟨gap, rfl, rfl, hgap⟩ := h
  exact ⟨'#' :: gap, rfl, rfl, hgap⟩

theorem commented {c : Char} (hc : c ≠ '\n') (h : Skips idle true (p.step c) t p' ahead) :
    Skips idle true p (c :: t) p' ahead := by
  obtain ⟨gap, rfl, rfl, hgap⟩ := h
  refine ⟨c :: gap, rfl, rfl, ?_⟩
  cases hgap with
  | blank hsign => exact absurd hsign (by decide)
  | @comment words gap hwords hend hgap =>
      have hmore : Skipped idle ahead ('#' :: (c :: words ++ gap)) := by
        refine .comment ?_ hend hgap
        rw [List.mem_cons, not_or]
        exact ⟨hc.symm, hwords⟩
      exact hmore

theorem continuation (h : Skips idle false ((p.step '\\').step '\n') t p' ahead) :
    Skips idle false p ('\\' :: '\n' :: t) p' ahead := by
  obtain ⟨gap, rfl, rfl, hgap⟩ := h
  exact ⟨'\\' :: '\n' :: gap, rfl, rfl, .continuation hgap⟩

/-- A line break ends a comment that one is in. -/
theorem newline (hidle : idle) (comment : Bool) (h : Skips idle false (p.step '\n') t p' ahead) :
    Skips idle comment p ('\n' :: t) p' ahead := by
  obtain ⟨gap, rfl, rfl, hgap⟩ := h
  refine ⟨'\n' :: gap, rfl, rfl, ?_⟩
  have hbreak : Skipped idle ahead ('\n' :: gap) := .newline hidle hgap
  cases comment with
  | false => exact hbreak
  | true =>
      have hcomment : Skipped idle ahead ('#' :: ([] ++ '\n' :: gap)) :=
        .comment List.not_mem_nil (fun c hc => (Option.some.inj hc).symm) hbreak
      exact hcomment

end Skips

/-- Where line breaks are idle, the next line of code is reached over what no token holds. -/
theorem skips_indentation (hidle : idle) (comment : Bool) (width : Nat) (p : Position) (t : Text) :
    Skips idle comment p t (indentation comment width p t).2.1
      (indentation comment width p t).2.2 := by
  induction t generalizing comment width p with
  | nil =>
      cases comment with
      | false => exact .refl p []
      | true => exact .comment_end p nofun
  | cons c t ih =>
      unfold indentation
      split
      · rename_i hbreak
        subst hbreak
        exact .newline hidle comment (ih _ _ _)
      · rename_i hbreak
        cases comment with
        | true => exact .commented hbreak (ih _ _ _)
        | false =>
            rw [if_neg Bool.false_ne_true]
            repeat' split
            · rename_i hspace
              exact .blank (by simp [hspace]) (ih _ _ _)
            · rename_i htab
              exact .blank (by simp [htab]) (ih _ _ _)
            · rename_i hother
              refine .blank ?_ (ih _ _ _)
              simp only [Bool.or_eq_true, decide_eq_true_eq] at hother
              simp [hother]
            · rename_i hsign
              subst hsign
              exact .comment_start (ih _ _ _)
            · exact .refl p (c :: t)

/-- The next token of a line, or its end, is reached over what no token holds. -/
theorem skips_skipBlanks (idle : Prop) (comment : Bool) (p : Position) (t : Text) :
    Skips idle comment p t (skipBlanks comment p t).1 (skipBlanks comment p t).2 := by
  fun_induction skipBlanks comment p t with
  | case1 comment p =>
      cases comment with
      | false => exact .refl p []
      | true => exact .comment_end p nofun
  | case2 p rest => exact .comment_end p (fun c hc => (Option.some.inj hc).symm)
  | case3 p c rest hbreak ih => exact .commented hbreak ih
  | case4 comment p c rest hcode hblank ih =>
      obtain rfl := Bool.eq_false_iff.mpr hcode
      exact .blank (by simpa [or_assoc] using hblank) ih
  | case5 comment p rest hcode _ ih =>
      obtain rfl := Bool.eq_false_iff.mpr hcode
      exact .comment_start ih
  | case6 comment p hcode after _ _ ih =>
      obtain rfl := Bool.eq_false_iff.mpr hcode
      exact .continuation ih
  | case7 comment p rest hcode =>
      obtain rfl := Bool.eq_false_iff.mpr hcode
      exact .refl p ('\\' :: rest)
  | case8 comment p c rest hcode =>
      obtain rfl := Bool.eq_false_iff.mpr hcode
      exact .refl p (c :: rest)

end TemplateEngine.Lexer
