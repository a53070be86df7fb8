import TemplateEngine.Proofs.Syntax.QuotedRuns
import TemplateEngine.Proofs.Template.SegmentLines
import TemplateEngine.Proofs.Template.Splitting

/-!
# A tag behind a template

A template whose tags are all closed is split the same when a tag is put behind it, and the tag
is one more segment, as long as there is no quote in it that could close a run in the template. A
closer is found before its tag ends, and so are the characters that decide what an opener means.
-/
namespace TemplateEngine

open Segment (isQuote)

namespace Segment

variable {t z : Text}

/-- A quoted run ends in a quote, so it does not end in a text without one. -/
theorem closing?_append {quote : Char} (hquote : isQuote quote = true) (hz : quote ∉ z)
    (t : Text) : closing? quote (t ++ z) = closing? quote t := by
  cases h : closing? quote t with
  | some n =>
      obtain ⟨w, rest, rfl, rfl, hw⟩ := exists_quotedRest h
      rw [List.append_assoc]
      exact hw.closing? hquote _
  | none =>
      rw [Option.eq_none_iff_forall_ne_some]
      intro n hn
      obtain ⟨w, rest, hparts, -, hw⟩ := exists_quotedRest hn
      obtain ⟨s, rfl, hrest⟩ | ⟨s, rfl, -⟩ := List.append_eq_append_iff.mp hparts
      · obtain ⟨inner, hinner⟩ := hw.exists_inner
        obtain rfl | ⟨before, last, rfl⟩ := List.eq_nil_or_concat s
        · rw [List.append_nil] at hw
          rw [← List.append_nil t, hw.closing? hquote] at h
          cases h
        · rw [List.concat_eq_append, ← List.append_assoc] at hinner
          obtain ⟨-, hlast⟩ := List.append_inj' hinner rfl
          cases hlast
          exact hz (by simp [hrest])
      · rw [hw.closing? hquote] at h
        cases h

theorem quotedAfter_append (hz : ∀ c ∈ z, isQuote c = false) (c : Char) (t : Text) :
    quotedAfter c (t ++ z) = quotedAfter c t := by
  unfold quotedAfter
  split
  · rename_i hquote
    rw [closing?_append hquote]
    intro hmem
    rw [hz c hmem] at hquote
    cases hquote
  · rfl

/-- A body has at least the two signs of its closer after it. -/
theorem exists_closer {body after : Text} {trims : Bool}
    (h : body? 0 t = some (body, trims, after)) : ∃ c d rest, t = c :: d :: rest := by
  match t, h with
  | [], h => cases h
  | [c], h => simp [body?] at h
  | c :: d :: rest, _ => exact ⟨c, d, rest, rfl⟩

/-- The body of a tag is found before it is known what comes behind the tag. -/
theorem body?_append (hz : ∀ c ∈ z, isQuote c = false) {skip : Nat} {body after : Text}
    {trims : Bool} (h : body? skip t = some (body, trims, after)) :
    body? skip (t ++ z) = some (body, trims, after ++ z) := by
  fun_induction body? skip t generalizing body with
  | case1 => cases h
  | case2 skip c rest ih =>
      obtain ⟨⟨inner, closing⟩, hinner, heq⟩ := Option.map_eq_some_iff.mp h
      cases heq
      rw [List.cons_append, body?, ih hinner]
      rfl
  | case3 rest ih =>
      obtain ⟨⟨inner, closing⟩, hinner, heq⟩ := Option.map_eq_some_iff.mp h
      cases heq
      have hfound := ih hinner
      simp only [List.cons_append, body?, hfound, Option.map_some]
  | case4 rest =>
      cases h
      rfl
  | case5 rest =>
      cases h
      rfl
  | case6 c rest h1 h2 h3 ih =>
      obtain ⟨⟨inner, closing⟩, hinner, heq⟩ := Option.map_eq_some_iff.mp h
      cases heq
      rw [List.cons_append, body?, quotedAfter_append hz, ih hinner]
      · rfl
      · rintro others rfl hothers
        obtain ⟨d, e, rest, rfl⟩ := exists_closer (t := rest) hinner
        cases hothers
        exact h1 rest rfl rfl
      · rintro others rfl hothers
        obtain ⟨d, e, rest, rfl⟩ := exists_closer (t := rest) hinner
        cases hothers
        exact h2 rest rfl rfl
      · rintro others rfl hothers
        obtain ⟨d, e, rest, rfl⟩ := exists_closer (t := rest) hinner
        cases hothers
        exact h3 (e :: rest) rfl rfl

/-- Nothing but the characters of the tag decides what an opener means. -/
theorem opener_append {found : Text × Bool × Text}
    (h : body? 0 (opener t).2.2 = some found) (z : Text) :
    opener (t ++ z) = ((opener t).1, (opener t).2.1, (opener t).2.2 ++ z) := by
  obtain ⟨c, d, rest, hrest⟩ := exists_closer (t := (opener t).2.2) (h : _ = some (_, _, _))
  fun_cases opener t with
  | case1 => rfl
  | case2 others hraw =>
      have hopener : opener ('=' :: others) = (.print, false, others) := opener.eq_2 _ hraw
      rw [hopener] at hrest
      cases hrest
      refine opener.eq_2 _ fun after hafter => ?_
      cases hafter
      exact hraw rest rfl
  | case3 => rfl
  | case4 _ hraw hprint htrim =>
      have hopener : opener t = (.statement, false, t) := opener.eq_4 _ hraw hprint htrim
      rw [hopener] at hrest
      cases hrest
      refine opener.eq_4 _ ?_ ?_ ?_
      · rintro after hafter
        obtain ⟨rfl, -⟩ := List.cons.inj hafter
        exact hprint (d :: rest) rfl
      · rintro after hafter
        cases hafter
        exact hprint (d :: rest) rfl
      · rintro after hafter
        cases hafter
        exact htrim (d :: rest) rfl

/-- A character that opens no tag is literal text. -/
theorem beforeOpener_other {c : Char} (h : c = '<' → t.head? ≠ some '%') :
    beforeOpener (c :: t) = (c :: (beforeOpener t).1, (beforeOpener t).2) := by
  rw [beforeOpener]
  · rintro rest hc rfl
    exact h hc rfl
  · rintro rest hc rfl
    exact h hc rfl

theorem head?_append_ne {c : Char} {t : Text} (h : ∀ rest, c = '<' → t = '%' :: rest → False)
    (z : Text) : c = '<' → (t ++ '<' :: z).head? ≠ some '%' := by
  intro hc
  cases t with
  | nil => exact nofun
  | cons d t =>
      intro hd
      exact h t hc (by rw [Option.some.inj hd])

/-- The literal text before an opener does not depend on what comes behind. -/
theorem beforeOpener_append {piece inside : Text}
    (h : beforeOpener t = (piece, '<' :: '%' :: inside)) (z : Text) :
    beforeOpener (t ++ '<' :: z) = (piece, '<' :: '%' :: (inside ++ '<' :: z)) := by
  fun_induction beforeOpener t generalizing piece with
  | case1 => cases h
  | case2 rest piece' after hrest ih =>
      cases h
      have hfound := ih hrest
      simp only [List.cons_append, beforeOpener, hfound]
  | case3 rest hdouble =>
      cases h
      cases inside with
      | nil => simp [beforeOpener]
      | cons d inside =>
          have hd : d ≠ '%' := fun hd => hdouble inside (by rw [hd])
          simp [beforeOpener, hd]
  | case4 c rest _ hopener piece' after hrest ih =>
      cases h
      rw [List.cons_append, beforeOpener_other (head?_append_ne hopener z), ih hrest]

/-- Literal text ends where a tag begins. -/
theorem beforeOpener_literal (hstart : startsTag ('<' :: z)) (h : (beforeOpener t).2 = []) :
    beforeOpener (t ++ '<' :: z) = (t, '<' :: z) := by
  fun_induction beforeOpener t with
  | case1 => exact beforeOpener_of_startsTag hstart
  | case2 rest piece after hrest ih =>
      have hfound := ih (by rw [hrest]; exact h)
      simp only [List.cons_append, beforeOpener, hfound]
  | case3 rest hdouble => cases h
  | case4 c rest _ hopener piece after hrest ih =>
      have hfound := ih (by rw [hrest]; exact h)
      rw [List.cons_append, beforeOpener_other (head?_append_ne hopener z), hfound]

/-- A tag does not go on with a line break. -/
theorem dropNewline_append (t z : Text) :
    dropNewline (t ++ '<' :: z) = ((dropNewline t).1, (dropNewline t).2 ++ '<' :: z) := by
  fun_cases dropNewline t with
  | case1 => rfl
  | case2 => rfl
  | case3 _ hboth hbreak =>
      refine dropNewline.eq_3 _ ?_ ?_
      · rintro rest hrest
        cases t with
        | nil => cases hrest
        | cons c t =>
            cases t with
            | nil => cases hrest
            | cons d t =>
                cases hrest
                exact hboth t rfl
      · rintro rest hrest
        cases t with
        | nil => cases hrest
        | cons c t =>
            cases hrest
            exact hbreak t rfl

theorem behind_append (trims : Bool) (t z : Text) :
    (if trims then dropNewline (t ++ '<' :: z) else (false, t ++ '<' :: z)) =
      ((if trims then dropNewline t else (false, t)).1,
        (if trims then dropNewline t else (false, t)).2 ++ '<' :: z) := by
  cases trims
  · rfl
  · exact dropNewline_append t z

theorem length_behind (trims : Bool) (t : Text) :
    (if trims then dropNewline t else (false, t)).2.length ≤ t.length := by
  cases trims with
  | false => exact Nat.le_refl _
  | true =>
      rw [if_pos rfl]
      unfold dropNewline
      split <;> simp <;> omega

/-- What is behind a tag is shorter than the text that the tag is in. -/
theorem length_behind_lt {t piece inside body after : Text} {hyphen : Bool}
    (hbefore : beforeOpener t = (piece, '<' :: '%' :: inside))
    (hbody : body? 0 (opener inside).2.2 = some (body, hyphen, after)) :
    (if hyphen then dropNewline after else (false, after)).2.length < t.length := by
  obtain ⟨passed, htag, -⟩ := exists_passed hbefore hbody
  refine Nat.lt_of_le_of_lt (length_behind hyphen after) ?_
  rw [htag, List.length_append, List.length_cons]
  omega

end Segment

/-- The statement tag that has a text between two spaces. -/
def Tag.written (code : Text) : Text := "<% ".toList ++ (code ++ " %>".toList)

/-- What is read from it. -/
def Tag.spaced (code : Text) (line : Nat) : Tag :=
  ⟨.statement, ' ' :: (code ++ [' ']), line, false, false⟩

namespace Splitting

open Segment

variable {code : Text} (hcode : ∀ c ∈ code, c ≠ '%' ∧ isQuote c = false)

include hcode

theorem body?_spaced : body? 0 (code ++ " %>".toList) = some (code ++ [' '], false, []) := by
  induction code with
  | nil => rfl
  | cons c code ih =>
      obtain ⟨hpercent, hquote⟩ := hcode c List.mem_cons_self
      have hrest := ih fun d hd => hcode d (List.mem_cons_of_mem _ hd)
      rw [List.cons_append, body?, quotedAfter, if_neg (by simp [hquote]), hrest]
      · rfl
      · exact fun _ h => absurd h hpercent
      · rintro rest - hafter
        cases code with
        | nil => cases hafter
        | cons d code =>
            have hd := List.head_eq_of_cons_eq hafter
            exact (hcode d (by simp)).1 hd
      · exact fun _ h => absurd h hpercent

theorem unquoted_written : ∀ c ∈ Tag.written code, isQuote c = false := by
  have hwritten : Tag.written code = '<' :: '%' :: ' ' :: (code ++ [' ', '%', '>']) := rfl
  intro c hc
  simp only [hwritten, List.mem_cons, List.mem_append, List.not_mem_nil, or_false] at hc
  rcases hc with rfl | rfl | rfl | hc | rfl | rfl | rfl
  · rfl
  · rfl
  · rfl
  · exact (hcode c hc).2
  · rfl
  · rfl
  · rfl

theorem run_literal {fuel : Nat} {fresh : Bool} {line : Nat} {t : Text}
    (h : (beforeOpener t).2 = []) :
    run (fuel + 1) fresh line (t ++ Tag.written code) =
      ⟨ofLiteral t line ++ [.tag (Tag.spaced code (line + t.newlines))], none⟩ := by
  have hbefore : beforeOpener (t ++ Tag.written code) = (t, Tag.written code) :=
    beforeOpener_literal (.inr ⟨_, rfl, nofun⟩) h
  have hinside : Tag.written code = '<' :: '%' :: ' ' :: (code ++ " %>".toList) := rfl
  have hopener : opener (' ' :: (code ++ " %>".toList)) =
      (.statement, false, ' ' :: (code ++ " %>".toList)) := rfl
  have hspaced : ∀ c ∈ ' ' :: code, c ≠ '%' ∧ isQuote c = false :=
    List.forall_mem_cons.mpr ⟨⟨by decide, rfl⟩, hcode⟩
  have hbody : body? 0 (' ' :: (code ++ " %>".toList)) =
      some (' ' :: (code ++ [' ']), false, []) := body?_spaced hspaced
  rw [hinside] at hbefore ⊢
  simp only [run, hbefore, hopener, hbody]
  have hend : ∀ n l, run n false l [] = ⟨[], none⟩ := by
    intro n l
    cases n <;> rfl
  simp [hend, Tag.spaced]

/-- Behind the tags of a template one more is a segment of its own. -/
theorem run_append {fuel other : Nat} {t : Text}
    (hfuel : t.length < fuel) (hother : t.length < other) {fresh : Bool} {line : Nat}
    (hclosed : (run fuel fresh line t).unclosed = none) :
    ∃ last, run other fresh line (t ++ Tag.written code) =
      ⟨(run fuel fresh line t).segments ++ [.tag (Tag.spaced code last)], none⟩ := by
  induction fuel generalizing other fresh line t with
  | zero => cases hfuel
  | succ fuel ih =>
      obtain ⟨other, rfl⟩ := Nat.exists_eq_add_one.mpr (Nat.lt_of_le_of_lt (Nat.zero_le _) hother)
      have hparts := beforeOpener_parts t
      rcases hbefore : beforeOpener t with ⟨piece, after⟩
      rw [hbefore] at hparts
      obtain hnone | ⟨inside, hinside⟩ := beforeOpener_stops t
      · refine ⟨line + t.newlines, ?_⟩
        rw [run_literal hcode hnone]
        rw [hbefore] at hnone
        cases hnone
        rw [List.append_nil] at hparts
        subst hparts
        simp only [run, hbefore]
      · rw [hbefore] at hinside
        cases hinside
        have happend : beforeOpener (t ++ Tag.written code) =
            (piece, '<' :: '%' :: (inside ++ Tag.written code)) := beforeOpener_append hbefore _
        cases hbody : body? 0 (opener inside).2.2 with
        | none =>
            simp only [run, hbefore, hbody] at hclosed
            cases hclosed
        | some found =>
            obtain ⟨body, trims, after⟩ := found
            have hbody' := body?_append (unquoted_written hcode) hbody
            have hrest := behind_append trims after ('%' :: ' ' :: (code ++ " %>".toList))
            have hshorter := length_behind_lt hbefore hbody
            simp only [run, hbefore, hbody] at hclosed
            obtain ⟨last, hlast⟩ := ih (Nat.lt_of_lt_of_le hshorter (Nat.le_of_lt_succ hfuel))
              (Nat.lt_of_lt_of_le hshorter (Nat.le_of_lt_succ hother)) hclosed
            refine ⟨last, ?_⟩
            have hwritten : Tag.written code = '<' :: '%' :: ' ' :: (code ++ " %>".toList) := rfl
            rw [hwritten] at happend hbody' hlast ⊢
            simp only [run, hbefore, happend, hbody, opener_append hbody, hbody', hrest, hlast]
            simp

theorem ofTemplate_append {t : Text} (hclosed : (ofTemplate t).unclosed = none) :
    ∃ last, ofTemplate (t ++ Tag.written code) =
      ⟨(ofTemplate t).segments ++ [.tag (Tag.spaced code last)], none⟩ := by
  refine run_append hcode (Nat.lt_succ_self _) (Nat.lt_succ_of_le ?_) hclosed
  rw [List.length_append]
  exact Nat.le_add_right _ _

end Splitting

end TemplateEngine
