import TemplateEngine.Proofs.Syntax.QuotedRuns
import TemplateEngine.Proofs.Template.LastTag

/-!
# Bodies of tags

Any text can be the body of a tag. Outside quoted runs the percent sign of a closing
delimiter is doubled, which the scan of the tag undoes; a quoted run stands as it is. Three
things cannot be written this way: a quote that is never closed, since the text behind the
tag may close it, a hyphen or a percent sign right before the closer, which would belong to
it, and a start that belongs to the opener.
-/
namespace TemplateEngine

namespace Segment

/-- A body as it is written in a tag. The first argument counts the characters of a quoted
run still to come. -/
def escapeBody : Nat → Text → Text
  | _, [] => []
  | skip + 1, c :: rest => c :: escapeBody skip rest
  | 0, '%' :: '>' :: rest => '%' :: '%' :: '>' :: escapeBody 0 rest
  | 0, c :: rest => c :: escapeBody (quotedAfter c rest) rest

/-- Whether every quote that is met outside a quoted run is closed. -/
def closesQuotes : Nat → Text → Bool
  | _, [] => true
  | skip + 1, _ :: rest => closesQuotes skip rest
  | 0, c :: rest =>
    (!isQuote c || (closing? c rest).isSome) && closesQuotes (quotedAfter c rest) rest

/-- Whether the last character of a body could not belong to the closer behind it. -/
def endsBody (b : Text) : Bool := b.getLast? != some '-' && b.getLast? != some '%'

/-- The characters that open a tag. -/
inductive Opener where
  | print
  | rawPrint
  | statement
  | trimming
  deriving DecidableEq, Repr

namespace Opener

/-- What follows the opening signs. -/
def signs : Opener → Text
  | print => ['=']
  | rawPrint => ['=', 'r', ' ']
  | statement => []
  | trimming => ['-']

/-- The kind of the tag. -/
def kind : Opener → TagKind
  | print => .print
  | rawPrint => .rawPrint
  | statement | trimming => .statement

/-- Whether the tag takes the indentation before it away. -/
def trims (o : Opener) : Bool := o = trimming

/-- The opener as it is written. -/
def text (o : Opener) : Text := '<' :: '%' :: o.signs

/-- Whether the opener means the same before a body. -/
def admits : Opener → Text → Bool
  | print, b => !(['r', ' '].isPrefixOf b)
  | statement, b => b.head?.any fun c => c != '=' && c != '-' && c != '%'
  | rawPrint, _ | trimming, _ => true

end Opener

variable {b t : Text}

/-- A body begins as it is written. -/
theorem exists_escapeBody_cons (skip : Nat) (c : Char) (rest : Text) :
    ∃ others, escapeBody skip (c :: rest) = c :: others := by
  rw [escapeBody.eq_def]
  split <;> simp_all

theorem escapeBody_other {c : Char} {rest : Text} (h : c = '%' → ∀ u, rest ≠ '>' :: u) :
    escapeBody 0 (c :: rest) = c :: escapeBody (quotedAfter c rest) rest := by
  rw [escapeBody]
  rintro u rfl rfl
  exact h rfl u rfl

/-- A body starts with a closer as it is written nowhere but after a percent sign. -/
theorem escapeBody_ne_closer (t u : Text) : escapeBody 0 t ≠ '%' :: '>' :: u := by
  intro hu
  rcases t with _ | ⟨c, rest⟩
  · simp [escapeBody] at hu
  · by_cases hcloser : ∃ v, c = '%' ∧ rest = '>' :: v
    · obtain ⟨v, rfl, rfl⟩ := hcloser
      simp [escapeBody] at hu
    · rw [escapeBody_other fun hc v hv => hcloser ⟨v, hc, hv⟩] at hu
      obtain ⟨rfl, htail⟩ := List.cons.inj hu
      cases rest with
      | nil => simp [escapeBody] at htail
      | cons d rest =>
          obtain ⟨others, hothers⟩ := exists_escapeBody_cons (quotedAfter '%' (d :: rest)) d rest
          rw [hothers] at htail
          exact hcloser ⟨rest, rfl, by rw [(List.cons.inj htail).1]⟩

/-- Nor does it with the closer of the tag behind it, unless it is empty. -/
theorem escapeBody_append_ne_closer {rest : Text} (hrest : rest ≠ []) (after u : Text) :
    escapeBody 0 rest ++ '%' :: '>' :: after ≠ '%' :: '>' :: u := by
  intro hu
  obtain ⟨d, rest, rfl⟩ := List.exists_cons_of_ne_nil hrest
  obtain ⟨others, hothers⟩ := exists_escapeBody_cons 0 d rest
  rw [hothers, List.cons_append] at hu
  obtain ⟨rfl, htail⟩ := List.cons.inj hu
  cases others with
  | nil => simp at htail
  | cons e others =>
      obtain ⟨rfl, -⟩ := List.cons.inj htail
      exact escapeBody_ne_closer _ others hothers

/-- A quoted run is written as it is. -/
theorem escapeBody_run (w rest : Text) :
    escapeBody w.length (w ++ rest) = w ++ escapeBody 0 rest := by
  induction w with
  | nil => rfl
  | cons c w ih => rw [List.cons_append, List.length_cons, escapeBody, ih, List.cons_append]

/-- Escaping a body does not change where its quoted runs end. -/
theorem quotedAfter_escapeBody {c : Char} {rest : Text}
    (hclosed : isQuote c = true → closing? c rest ≠ none) (after : Text) :
    quotedAfter c (escapeBody (quotedAfter c rest) rest ++ after) = quotedAfter c rest := by
  unfold quotedAfter
  split
  · rename_i hquote
    obtain ⟨n, hn⟩ := Option.ne_none_iff_exists'.mp (hclosed hquote)
    obtain ⟨w, others, rfl, rfl, hw⟩ := exists_quotedRest hn
    rw [hn, Option.getD_some, escapeBody_run, List.append_assoc, hw.closing? hquote]
    rfl
  · rfl

theorem quotedAfter_le (c : Char) (rest : Text) : quotedAfter c rest ≤ rest.length := by
  unfold quotedAfter
  split
  · cases hn : closing? c rest with
    | none => simp
    | some n =>
        obtain ⟨w, others, rfl, rfl, -⟩ := exists_quotedRest hn
        simp
  · exact Nat.zero_le _

theorem endsBody_tail {c : Char} {rest : Text} (h : endsBody (c :: rest) = true) :
    endsBody rest = true := by
  cases rest with
  | nil => rfl
  | cons d rest => simpa [endsBody, List.getLast?_cons_cons] using h

/-- The scan of a tag gives the body back that was written in it. -/
theorem body?_escapeBody {skip : Nat} (hskip : skip ≤ b.length)
    (hclosed : closesQuotes skip b = true) (hend : endsBody b = true) (after : Text) :
    body? skip (escapeBody skip b ++ '%' :: '>' :: after) = some (b, false, after) := by
  fun_induction escapeBody skip b with
  | case1 =>
      obtain rfl := Nat.le_zero.mp hskip
      exact body?_closer after
  | case2 skip c rest ih =>
      have hrest := ih (Nat.le_of_succ_le_succ hskip) hclosed (endsBody_tail hend)
      rw [List.cons_append, body?, hrest]
      rfl
  | case3 rest ih =>
      have hquotes : closesQuotes 0 rest = true := by
        simpa [closesQuotes, isQuote, quotedAfter] using hclosed
      have hrest := ih (Nat.zero_le _) hquotes (endsBody_tail (endsBody_tail hend))
      simp only [List.cons_append, body?, hrest, Option.map_some]
  | case4 c rest hcloser ih =>
      simp only [closesQuotes, Bool.and_eq_true, Bool.or_eq_true, Bool.not_eq_true',
        Option.isSome_iff_ne_none] at hclosed
      obtain ⟨hquote, hquotes⟩ := hclosed
      have hrest := ih (quotedAfter_le c rest) hquotes (endsBody_tail hend)
      have hafter := quotedAfter_escapeBody
        (fun h => hquote.resolve_left (by simp [h])) ('%' :: '>' :: after)
      -- a sign that could begin a closer is no quote, and the body goes on behind it
      have hgoes : c = '%' ∨ c = '-' → quotedAfter c rest = 0 ∧ rest ≠ [] := by
        rintro (rfl | rfl) <;> refine ⟨by simp [quotedAfter, isQuote], ?_⟩ <;> rintro rfl <;>
          simp [endsBody] at hend
      rw [List.cons_append, body?, hafter, hrest]
      · rfl
      · rintro u rfl hu
        obtain ⟨hzero, hne⟩ := hgoes (.inl rfl)
        rw [hzero] at hu
        exact escapeBody_append_ne_closer hne after u hu
      · rintro u rfl hu
        obtain ⟨hzero, hne⟩ := hgoes (.inr rfl)
        rw [hzero] at hu
        exact escapeBody_append_ne_closer hne after u hu
      · rintro u rfl hu
        obtain ⟨hzero, hne⟩ := hgoes (.inl rfl)
        obtain ⟨d, rest, rfl⟩ := List.exists_cons_of_ne_nil hne
        obtain ⟨others, hothers⟩ := exists_escapeBody_cons 0 d rest
        rw [hzero, hothers] at hu
        obtain ⟨rfl, -⟩ := List.cons.inj hu
        exact hcloser rest rfl rfl

/-- The characters behind the opening signs are read as the opener that was written. -/
theorem opener_signs {o : Opener} (h : o.admits b = true) (after : Text) :
    opener (o.signs ++ (escapeBody 0 b ++ '%' :: '>' :: after)) =
      (o.kind, o.trims, escapeBody 0 b ++ '%' :: '>' :: after) := by
  cases o with
  | rawPrint => rfl
  | trimming => rfl
  | print =>
      refine opener.eq_2 _ fun rest hrest => ?_
      rcases b with _ | ⟨c, _ | ⟨d, b⟩⟩
      · simp [escapeBody] at hrest
      · rw [escapeBody_other (by simp)] at hrest
        simp [escapeBody] at hrest
      · obtain ⟨others, hothers⟩ := exists_escapeBody_cons 0 c (d :: b)
        obtain rfl : c = 'r' := by
          rw [hothers] at hrest
          exact (List.cons.inj hrest).1
        obtain ⟨others, hothers⟩ := exists_escapeBody_cons (quotedAfter 'r' (d :: b)) d b
        rw [escapeBody_other (by simp), hothers] at hrest
        obtain rfl : d = ' ' := (List.cons.inj (List.cons.inj hrest).2).1
        simp [Opener.admits] at h
  | statement =>
      rcases b with _ | ⟨c, b⟩
      · simp [Opener.admits] at h
      · obtain ⟨others, hothers⟩ := exists_escapeBody_cons 0 c b
        simp only [Opener.admits, List.head?_cons, Option.any_some, Bool.and_eq_true, bne_iff_ne]
          at h
        rw [hothers]
        exact opener.eq_4 _ (by simp [Opener.signs, h.1.1]) (by simp [Opener.signs, h.1.1])
          (by simp [Opener.signs, h.1.2])

theorem startsTag_text {o : Opener} (h : o.admits b = true) (after : Text) :
    startsTag (o.text ++ (escapeBody 0 b ++ '%' :: '>' :: after)) := by
  refine .inr ⟨_, rfl, ?_⟩
  cases o with
  | print | rawPrint | trimming => simp [Opener.signs]
  | statement =>
      rcases b with _ | ⟨c, b⟩
      · simp [Opener.admits] at h
      · obtain ⟨others, hothers⟩ := exists_escapeBody_cons 0 c b
        simp only [Opener.admits, List.head?_cons, Option.any_some, Bool.and_eq_true, bne_iff_ne]
          at h
        simpa [Opener.signs, hothers] using h.2

end Segment

namespace Splitting

open Segment

/-- A round that meets a tag. -/
theorem run_tag {t piece inside body after : Text} {hyphen : Bool}
    (hbefore : beforeOpener t = (piece, '<' :: '%' :: inside))
    (hbody : body? 0 (opener inside).2.2 = some (body, hyphen, after)) (fuel : Nat)
    (fresh : Bool) (line : Nat) :
    let kept? := if (opener inside).2.1 then withoutIndentation? fresh piece else none
    let behind := if hyphen then dropNewline after else (false, after)
    let tagLine := line + piece.newlines
    let others := run fuel behind.1 (tagLine + body.newlines + if behind.1 then 1 else 0) behind.2
    run (fuel + 1) fresh line t =
      ⟨ofLiteral (kept?.getD piece) line ++
        .tag ⟨(opener inside).1, body, tagLine, kept?.isSome, hyphen⟩ :: others.segments,
        others.unclosed⟩ := by
  simp only [run, hbefore, hbody]

/-- A round for every character is enough. -/
theorem run_enough {fuel other : Nat} {t : Text} (hfuel : t.length < fuel)
    (hother : t.length < other) (fresh : Bool) (line : Nat) :
    run fuel fresh line t = run other fresh line t := by
  induction fuel generalizing other fresh line t with
  | zero => cases hfuel
  | succ fuel ih =>
      obtain ⟨other, rfl⟩ := Nat.exists_eq_add_one.mpr (Nat.lt_of_le_of_lt (Nat.zero_le _) hother)
      rcases hbefore : beforeOpener t with ⟨piece, rest⟩
      obtain hnone | ⟨inside, hinside⟩ := beforeOpener_stops t
      · rw [hbefore] at hnone
        cases hnone
        simp only [run, hbefore]
      · rw [hbefore] at hinside
        cases hinside
        cases hbody : body? 0 (opener inside).2.2 with
        | none => simp only [run, hbefore, hbody]
        | some found =>
            obtain ⟨body, hyphen, after⟩ := found
            have hshorter := length_behind_lt hbefore hbody
            have hrest := fun fresh line => ih (Nat.lt_of_lt_of_le hshorter
              (Nat.le_of_lt_succ hfuel)) (Nat.lt_of_lt_of_le hshorter (Nat.le_of_lt_succ hother))
              fresh line
            simp only [run_tag hbefore hbody, hrest]

/-- A body that is written in a tag comes back from it, whatever the text behind the tag is;
that text is split on its own. -/
theorem ofTemplate_body (o : Opener) (b after : Text) (hopener : o.admits b = true)
    (hclosed : closesQuotes 0 b = true) (hend : endsBody b = true) :
    let others := run (after.length + 1) false (1 + b.newlines) after
    ofTemplate (o.text ++ (escapeBody 0 b ++ ("%>".toList ++ after))) =
      ⟨.tag ⟨o.kind, b, 1, o.trims, false⟩ :: others.segments, others.unclosed⟩ := by
  have hcloser : "%>".toList ++ after = '%' :: '>' :: after := rfl
  have hbefore : beforeOpener (o.text ++ (escapeBody 0 b ++ '%' :: '>' :: after)) =
      ([], '<' :: '%' :: (o.signs ++ (escapeBody 0 b ++ '%' :: '>' :: after))) :=
    beforeOpener_of_startsTag (startsTag_text hopener after)
  have hsigns := opener_signs hopener after
  have hbody : body? 0 (opener (o.signs ++ (escapeBody 0 b ++ '%' :: '>' :: after))).2.2 =
      some (b, false, after) := by
    rw [hsigns]
    exact body?_escapeBody (Nat.zero_le _) hclosed hend after
  have hkept : (if o.trims then withoutIndentation? true [] else none) =
      if o.trims then some [] else none := rfl
  have hfuel : after.length < (o.text ++ (escapeBody 0 b ++ '%' :: '>' :: after)).length := by
    simp [Opener.text]
    omega
  rw [hcloser, ofTemplate, run_tag hbefore hbody, hsigns, hkept]
  simp only [run_enough hfuel (Nat.lt_succ_self _), Bool.false_eq_true, if_false,
    Text.newlines_nil, Nat.add_zero]
  cases o.trims <;> rfl

/-- A body with a closer of each kind outside quotes, a percent sign before one, and quoted runs
with closers, quotes and escapes in them, before text that ends in a tag that is never closed. -/
theorem ofTemplate_body_closers :
    let b := "1 %> 2 -%> 3 %%> \"a %> \\\" -%>\" + '\\\\' \n r".toList
    let after := "tail <% if x: ".toList
    Opener.print.admits b = true ∧ closesQuotes 0 b = true ∧ endsBody b = true ∧
      ofTemplate (Opener.print.text ++ (escapeBody 0 b ++ ("%>".toList ++ after))) =
        ⟨[.tag ⟨.print, b, 1, false, false⟩], some 2⟩ := by
  intro b after
  have hopener : Opener.print.admits b = true := by decide
  have hclosed : closesQuotes 0 b = true := by decide
  have hend : endsBody b = true := by decide
  refine ⟨hopener, hclosed, hend, ?_⟩
  rw [ofTemplate_body .print b after hopener hclosed hend]
  decide

end Splitting

end TemplateEngine
