import TemplateEngine.Proofs.Syntax.TokenLayout
import TemplateEngine.Proofs.Syntax.TokenPlaces

/-!
# The spans of tokens

The tokens of a source lie in it one after another, at the places that one counts out from its
start, and what lies between two of them is what no token holds. This is so for the tokens before
an error as well: every round covers the text that it goes over by skipped text and its tokens.
-/
namespace TemplateEngine

/-! ### Places counted out -/

/-- The number of bytes of a text. -/
def Text.byteLength : Text → Nat
  | [] => 0
  | c :: t => c.utf8Size + byteLength t

theorem Text.byteLength_append (s t : Text) :
    byteLength (s ++ t) = byteLength s + byteLength t := by
  induction s with
  | nil => exact (Nat.zero_add _).symm
  | cons c s ih => rw [List.cons_append, byteLength, byteLength, ih, Nat.add_assoc]

/-- The number of characters since the last line break. -/
def Text.sinceBreak (t : Text) : Nat := (t.reverse.takeWhile (· ≠ '\n')).length

namespace Position

/-- The place behind the first characters of a source, as one counts it out. -/
structure Counts (p : Position) (before : Text) : Prop where
  offset : p.offset = before.byteLength
  line : p.line = 1 + before.newlines
  column : p.column = 1 + before.sinceBreak

theorem offset_after (p : Position) (t : Text) :
    (p.after t).offset = p.offset + t.byteLength := by
  induction t generalizing p with
  | nil => rfl
  | cons c t ih =>
      have hstep : (p.step c).offset = p.offset + c.utf8Size := by
        unfold step
        split <;> rfl
      rw [after_cons, ih, hstep, Nat.add_assoc]
      rfl

theorem column_after_start (t : Text) : (start.after t).column = 1 + t.sinceBreak := by
  induction t using List.reverseRecOn with
  | nil => rfl
  | append_singleton t c ih =>
      rw [after_append, after_cons, after_nil, step]
      by_cases hc : c = '\n'
      · simp [hc, Text.sinceBreak]
      · have hnext : Text.sinceBreak (t ++ [c]) = Text.sinceBreak t + 1 := by
          simp [Text.sinceBreak, hc]
        rw [if_neg hc, hnext, ← Nat.add_assoc, ← ih]

theorem counts_after (t : Text) : (start.after t).Counts t :=
  ⟨(offset_after start t).trans (Nat.zero_add _), line_after start t, column_after_start t⟩

end Position

namespace TokenKind

/-- Whether a token opens a bracket. -/
def isOpener (k : TokenKind) : Bool := bracketPairs.any fun pair => k = .symbol pair.1

/-- Whether a token closes a bracket. -/
def isCloser (k : TokenKind) : Bool := bracketPairs.any fun pair => k = .symbol pair.2

/-- Where a line break ends no line: before the first token and behind one that ends a line the
line that it ends is blank, and after more opening than closing brackets it is inside of them. -/
def IdleBreak (before : List TokenKind) : Prop :=
  before = [] ∨ before.getLast? = some .newline ∨ before.countP isCloser < before.countP isOpener

theorem IsWithin.not_bracket {k : TokenKind} (h : k.IsWithin) :
    isOpener k = false ∧ isCloser k = false := by
  cases k with
  | symbol mark =>
      simp only [isOpener, isCloser, List.any_eq_false, decide_eq_true_eq, symbol.injEq]
      exact ⟨fun pair hpair => (h pair hpair).1, fun pair hpair => (h pair hpair).2⟩
  | _ => simp [isOpener, isCloser, bracketPairs]

end TokenKind

open Lexer (Skipped Skips)
open TokenKind (IdleBreak isOpener isCloser bracketPairs)

/-- Tokens after others, from a place on: before each stands skipped text of what is ahead, and
then the text that it spans. The tokens before decide which line breaks may be skipped. -/
inductive Cover : List TokenKind → Position → Text → List Token → Prop where
  | stop {before : List TokenKind} {p : Position} {ahead : Text} : Cover before p ahead []
  | token {before : List TokenKind} {p : Position} {gap lexeme rest : Text} {t : Token}
      {ts : List Token} : Skipped (IdleBreak before) (lexeme ++ rest) gap →
      t.span = ⟨p.after gap, p.after (gap ++ lexeme)⟩ →
      (t.kind ∈ [.indent, .dedent, .endOfInput] → lexeme = []) →
      (t.kind = .endOfInput → rest = []) →
      Cover (before ++ [t.kind]) (p.after (gap ++ lexeme)) rest ts →
        Cover before p (gap ++ (lexeme ++ rest)) (t :: ts)

namespace Cover

variable {before : List TokenKind} {p p' : Position} {ahead ahead' : Text} {t : Token}
  {ts us : List Token}

theorem skips (hskips : Skips (IdleBreak before) false p ahead p' ahead')
    (h : Cover before p' ahead' ts) : Cover before p ahead ts := by
  obtain ⟨first, rfl, rfl, hfirst⟩ := hskips
  -- what is skipped first goes before the gap of the first token
  cases h with
  | stop => exact .stop
  | @token _ _ gap lexeme rest t ts hgap hspan hempty hlast hrest =>
      rw [← List.append_assoc]
      rw [← Position.after_append, ← Position.after_append, ← List.append_assoc] at hspan
      rw [← Position.after_append, ← List.append_assoc] at hrest
      exact .token (hfirst.append hgap) hspan hempty hlast hrest

/-- The next token spans the characters that are next. -/
theorem next (hspan : p.Passes ahead p' ahead') (ht : t.span = ⟨p, p'⟩)
    (hkind : t.kind ∉ [.indent, .dedent, .endOfInput])
    (h : Cover (before ++ [t.kind]) p' ahead' ts) : Cover before p ahead (t :: ts) := by
  obtain ⟨lexeme, rfl, rfl⟩ := hspan
  have hlast (hend : t.kind = .endOfInput) : ahead' = [] := by simp [hend] at hkind
  have hcover : Cover before p ([] ++ (lexeme ++ ahead')) (t :: ts) :=
    .token .nil ht (fun h => absurd h hkind) hlast h
  exact hcover

/-- Tokens that span nothing are where one is. -/
theorem empties (hempty : ∀ t ∈ us, t.span = ⟨p, p⟩ ∧ (t.kind = .endOfInput → ahead = []))
    (h : Cover (before ++ us.map Token.kind) p ahead ts) : Cover before p ahead (us ++ ts) := by
  induction us generalizing before with
  | nil => simpa using h
  | cons t us ih =>
      obtain ⟨⟨hspan, hlast⟩, hus⟩ := List.forall_mem_cons.mp hempty
      rw [List.map_cons, List.append_cons] at h
      have hcover : Cover before p ([] ++ ([] ++ ahead)) (t :: (us ++ ts)) :=
        .token .nil hspan (fun _ => rfl) hlast (ih hus h)
      exact hcover

/-- Behind some of the tokens one is at the end of the last of them, and the others cover what is
ahead there. -/
theorem split (h : Cover before p ahead (us ++ ts)) :
    ∃ passed rest, ahead = passed ++ rest ∧ (us = [] → passed = []) ∧
      (∀ t ∈ us.getLast?, t.span.stop = p.after passed) ∧
        Cover (before ++ us.map Token.kind) (p.after passed) rest ts := by
  induction us generalizing before p ahead with
  | nil => exact ⟨[], ahead, rfl, fun _ => rfl, nofun, by simpa using h⟩
  | cons u us ih =>
      cases h with
      | @token _ _ gap lexeme rest _ _ hgap hspan hempty hlast hrest =>
          obtain ⟨passed, rest, rfl, hfirst, hend, hcover⟩ := ih hrest
          refine ⟨gap ++ (lexeme ++ passed), rest, by simp, nofun, ?_, ?_⟩
          · intro t ht
            cases us with
            | nil =>
                have hsame : some u = some t := ht
                rw [← Option.some.inj hsame, hfirst rfl, List.append_nil, hspan]
            | cons u' us =>
                rw [List.getLast?_cons_cons] at ht
                rw [hend t ht, ← Position.after_append, List.append_assoc]
          · rw [List.map_cons, List.append_cons, ← List.append_assoc gap, Position.after_append]
            exact hcover

end Cover

namespace Lexer

variable {s next : Lexer} {tokens ts : List Token} {before : List TokenKind}

/-- The tokens that a lexer has handed out so far: they end a line where it says so, and leave
the brackets open that it holds. -/
structure HandedOut (s : Lexer) (before : List TokenKind) : Prop where
  ended : s.lineEnded = true → before = [] ∨ before.getLast? = some .newline
  brackets : before.countP isOpener = before.countP isCloser + s.brackets.length

theorem HandedOut.idle_of_ended (h : s.HandedOut before) (hended : s.lineEnded = true) :
    IdleBreak before :=
  (h.ended hended).imp_right .inl

theorem HandedOut.idle_of_inside (h : s.HandedOut before) (hinside : s.brackets ≠ []) :
    IdleBreak before := by
  have hcount := h.brackets
  have hpositive := List.length_pos_iff.mpr hinside
  exact .inr (.inr (by omega))

/-- Tokens that are no brackets leave those as they are. -/
theorem HandedOut.append {ks : List TokenKind} (h : s.HandedOut before)
    (hks : ∀ k ∈ ks, isOpener k = false ∧ isCloser k = false)
    (hbrackets : next.brackets = s.brackets)
    (hended : next.lineEnded = true →
      before ++ ks = [] ∨ (before ++ ks).getLast? = some .newline) :
    next.HandedOut (before ++ ks) := by
  have hopeners : ks.countP isOpener = 0 := by
    rw [List.countP_eq_zero]
    exact fun k hk => ne_true_of_eq_false (hks k hk).1
  have hclosers : ks.countP isCloser = 0 := by
    rw [List.countP_eq_zero]
    exact fun k hk => ne_true_of_eq_false (hks k hk).2
  refine ⟨hended, ?_⟩
  rw [List.countP_append, List.countP_append, hopeners, hclosers, hbrackets]
  exact h.brackets

/-- The tokens ahead of a lexer cover the text ahead, whatever it has handed out. -/
def Covers (s : Lexer) (ts : List Token) : Prop :=
  ∀ before, s.HandedOut before → Cover before s.position s.rest ts

theorem isOpener_of_pair : ∀ pair ∈ bracketPairs,
    (isOpener (.symbol pair.1) = true ∧ isCloser (.symbol pair.1) = false) ∧
      isOpener (.symbol pair.2) = false ∧ isCloser (.symbol pair.2) = true := by
  decide

/-- A token covers the characters that it takes. -/
theorem token_covers {c : Char} {after : Text} (hrest : s.rest = c :: after)
    (h : s.token c after = .more tokens next) (hnext : next.Covers ts) :
    s.Covers (tokens ++ ts) := by
  obtain ⟨⟨t, rfl, hspan⟩, hpasses⟩ := token_spec h
  obtain ⟨t', htokens, ⟨hopen, -⟩, hcases⟩ := token_cases h
  obtain rfl := List.head_eq_of_cons_eq htokens
  rw [← hrest] at hpasses
  intro before hbefore
  have hended (ks : List TokenKind) :
      next.lineEnded = true → before ++ ks = [] ∨ (before ++ ks).getLast? = some .newline :=
    fun h => absurd h (by simp [hopen])
  have hcount := hbefore.brackets
  obtain ⟨hwithin, hbrackets⟩ | ⟨mark, opener, hkind, hpair, hbrackets⟩ |
    ⟨symbol, mark, opener, hkind, hpair, -, hbrackets⟩ := hcases
  · have hnone := hwithin.not_bracket
    refine .next hpasses hspan ?_ (hnext _ (hbefore.append (by simpa using hnone) hbrackets
      (hended _)))
    intro hlayout
    exact hwithin.ne_break (by simp only [TokenKind.breaks, List.mem_cons] at hlayout ⊢; tauto)
  · obtain ⟨⟨hopener, hcloser⟩, -⟩ := isOpener_of_pair _ hpair
    refine .next hpasses hspan (by simp [hkind]) (hnext _ ⟨hended _, ?_⟩)
    rw [hkind, hbrackets]
    simp only [List.countP_append, List.countP_singleton, hopener, hcloser, if_true,
      Bool.false_eq_true, if_false, List.length_cons]
    omega
  · obtain ⟨-, hopener, hcloser⟩ := isOpener_of_pair _ hpair
    refine .next hpasses hspan (by simp [hkind]) (hnext _ ⟨hended _, ?_⟩)
    rw [hbrackets, List.length_cons] at hcount
    rw [hkind]
    simp only [List.countP_append, List.countP_singleton, hopener, hcloser, if_true,
      Bool.false_eq_true, if_false]
    omega

theorem layout_place (h : s.layout = .ok (tokens, next)) :
    (indentation false 0 s.position s.rest).2 = (next.position, next.rest) := by
  unfold layout at h
  simp only at h
  repeat' split at h
  all_goals cases h
  all_goals rfl

/-- At the start of a line the last token has ended one, so the line breaks of the lines without
code are idle. -/
theorem layout_covers (hs : s.Ordered) (hstart : s.lineStart = true)
    (h : s.layout = .ok (tokens, next)) (hnext : next.Covers ts) : s.Covers (tokens ++ ts) := by
  intro before hbefore
  obtain ⟨hended, hempty⟩ := hs.starts hstart
  have hskips := skips_indentation (hbefore.idle_of_ended hended) false 0 s.position s.rest
  rw [layout_place h] at hskips
  obtain ⟨⟨-, hbrackets⟩, hcases⟩ := layout_cases h
  have htokens : (∀ t ∈ tokens, t.span = ⟨next.position, next.position⟩ ∧
        (t.kind = .indent ∨ t.kind = .dedent)) ∧
      (tokens = [] ∨ next.lineEnded = false) := by
    obtain ⟨rfl, -, -⟩ | ⟨width, -, rfl, -, hopen⟩ | ⟨closed, -, rfl, -, hopen⟩ := hcases
    · exact ⟨nofun, .inl rfl⟩
    · refine ⟨fun t ht => ?_, .inr hopen⟩
      rw [List.mem_singleton.mp ht]
      exact ⟨rfl, .inl rfl⟩
    · refine ⟨fun t ht => ?_, .inr hopen⟩
      rw [List.eq_of_mem_replicate ht]
      exact ⟨rfl, .inr rfl⟩
  obtain ⟨hkinds, hlast⟩ := htokens
  refine .skips hskips (.empties ?_ (hnext _ (hbefore.append ?_ hbrackets ?_)))
  · intro t ht
    obtain ⟨hspan, hkind⟩ := hkinds t ht
    exact ⟨hspan, fun hend => by simp [hend] at hkind⟩
  · intro k hk
    obtain ⟨t, ht, rfl⟩ := List.mem_map.mp hk
    obtain hkind | hkind := (hkinds t ht).2 <;> rw [hkind] <;> decide
  · intro hopen
    obtain rfl | hopened := hlast
    · rw [List.map_nil, List.append_nil]
      exact hbefore.ended hended
    · rw [hopened] at hopen
      cases hopen

/-- The tokens that close a source cover nothing, where nothing is left. -/
theorem closing_covers (hrest : s.rest = []) : s.Covers s.closing := by
  intro before _
  have hempty : ∀ t ∈ s.closing, t.span = ⟨s.position, s.position⟩ := by
    intro t ht
    unfold closing at ht
    grind [emptyToken]
  rw [← List.append_nil s.closing]
  exact .empties (fun t ht => ⟨hempty t ht, fun _ => hrest⟩) .stop

/-- What a round yields covers what the round goes over. -/
def Round.Covers (s : Lexer) : Round → Prop
  | .more tokens next => ∀ ts, next.Covers ts → s.Covers (tokens ++ ts)
  | .done tokens => s.Covers tokens
  | .failed _ _ => True

theorem Round.Covers.trans {mid : Lexer} {r : Round} (h : r.Covers mid)
    (hmid : ∀ ts, mid.Covers ts → s.Covers ts) : r.Covers s := by
  cases r with
  | more tokens next => exact fun ts hnext => hmid _ (h ts hnext)
  | done tokens => exact hmid _ h
  | failed error openIndents => trivial

theorem within_covers (s : Lexer) : s.within.Covers s := by
  cases hround : s.within with
  | failed error openIndents => trivial
  | done tokens =>
      obtain ⟨p, hskip, -, rfl⟩ := exists_of_within_done hround
      intro before hbefore
      have hblanks := skips_skipBlanks (IdleBreak before) false s.position s.rest
      rw [hskip] at hblanks
      have hclosing := closing_covers (s := { s with rest := [], position := p }) rfl
      exact .skips hblanks (hclosing before ⟨hbefore.ended, hbefore.brackets⟩)
  | more tokens next =>
      obtain ⟨p, c, after, hskip, hcases⟩ := within_cases hround
      intro ts hnext before hbefore
      have hblanks := skips_skipBlanks (IdleBreak before) false s.position s.rest
      rw [hskip] at hblanks
      refine .skips hblanks ?_
      have hbreak (hidle : IdleBreak before) :
          Skips (IdleBreak before) false p ('\n' :: after) (p.step '\n') after :=
        .newline hidle false (.refl _ after)
      obtain ⟨rfl, hinside, rfl, rfl⟩ | ⟨rfl, -, hended, rfl, rfl⟩ |
        ⟨rfl, houtside, -, rfl, rfl⟩ | ⟨-, htoken⟩ := hcases
      · refine .skips (hbreak (hbefore.idle_of_inside hinside)) ?_
        exact hnext before ⟨hbefore.ended, hbefore.brackets⟩
      · refine .skips (hbreak (hbefore.idle_of_ended hended)) ?_
        exact hnext before ⟨hbefore.ended, hbefore.brackets⟩
      · have hlayout : TokenKind.newline ∉ [.indent, .dedent, .endOfInput] := by decide
        have hplain : ∀ k ∈ [TokenKind.newline], isOpener k = false ∧ isCloser k = false := by decide
        have hbehind : HandedOut { s with lineEnded := true } (before ++ [.newline]) :=
          hbefore.append hplain rfl (fun _ => .inr List.getLast?_concat)
        exact .next (.cons (.refl _ after)) rfl hlayout (hnext _ ⟨hbehind.ended, hbehind.brackets⟩)
      · have hcovers := token_covers rfl htoken hnext
        exact hcovers before ⟨hbefore.ended, hbefore.brackets⟩

/-- A round may open or close blocks first, and covers what it passes until then as well. -/
theorem round_covers (hs : s.Ordered) : s.round.Covers s := by
  unfold round
  split
  · rename_i hstart
    rw [Bool.and_eq_true] at hstart
    split
    · trivial
    · rename_i mid hlayout
      exact (within_covers mid).trans fun ts hmid => layout_covers hs hstart.1 hlayout hmid
    · rename_i mid hlayout
      exact fun ts hnext => layout_covers hs hstart.1 hlayout hnext
  · exact within_covers s

/-- What a lexer hands out up to the end or the first error covers the text ahead. -/
theorem lexed_covers (hs : s.Ordered) : s.Covers s.lexed.tokens := by
  induction hleft : s.roundsLeft using Nat.strongRecOn generalizing s with
  | ind left ih =>
      subst hleft
      have hcovers := round_covers hs
      cases hround : s.round with
      | failed error openIndents =>
          rw [lexed_failed hround]
          exact fun _ _ => .stop
      | done tokens =>
          rw [hround] at hcovers
          rw [lexed_done hround]
          exact hcovers
      | more tokens next =>
          rw [hround] at hcovers
          rw [lexed_more hround]
          exact hcovers _ (ih _ (round_fewer hround) (round_leads hs hround).1 rfl)

end Lexer

/-- A token of a source, behind earlier ones: the text up to these is passed, and before the text
that it spans there is a gap. -/
structure Token.Stands (source : Text) (earlier : List Token) (t : Token)
    (passed gap lexeme rest : Text) : Prop where
  source : source = passed ++ (gap ++ (lexeme ++ rest))
  first : earlier = [] → passed = []
  behind : ∀ u ∈ earlier.getLast?, u.span.stop = Position.start.after passed
  span : t.span = ⟨.after .start (passed ++ gap), .after .start (passed ++ gap ++ lexeme)⟩
  gap : Skipped (IdleBreak (earlier.map Token.kind)) (lexeme ++ rest) gap
  empty : t.kind ∈ [.indent, .dedent, .endOfInput] → lexeme = []
  last : t.kind = .endOfInput → rest = []

/-- Tokens at their places in a source, which has nothing but skipped text before each of them. -/
structure Faithful (source : Text) (tokens : List Token) : Prop where
  ordered : ∀ t ∈ tokens, t.span.start.offset ≤ t.span.stop.offset ∧
    t.span.stop.offset ≤ source.byteLength
  apart : tokens.IsChain fun t u => t.span.stop.offset ≤ u.span.start.offset
  counted : ∀ t ∈ tokens, (∃ before, before <+: source ∧ t.span.start.Counts before) ∧
    ∃ before, before <+: source ∧ t.span.stop.Counts before
  empty : ∀ t ∈ tokens, t.kind ∈ [.indent, .dedent, .endOfInput] → t.span.start = t.span.stop
  ends : ∀ t ∈ tokens, t.kind = .endOfInput → t.span.stop.offset = source.byteLength
  gaps : ∀ earlier t later, tokens = earlier ++ t :: later →
    ∃ before gap rest, source = before ++ (gap ++ rest) ∧ (earlier = [] → before = []) ∧
      (∀ u ∈ earlier.getLast?, u.span.stop.Counts before) ∧
        t.span.start.Counts (before ++ gap) ∧
          Skipped (IdleBreak (earlier.map Token.kind)) rest gap

theorem Cover.stands {source : Text} {earlier later : List Token} {t : Token}
    (h : Cover [] .start source (earlier ++ t :: later)) :
    ∃ passed gap lexeme rest, t.Stands source earlier passed gap lexeme rest := by
  obtain ⟨passed, ahead, rfl, hfirst, hbehind, hcover⟩ := h.split
  cases hcover with
  | @token _ _ gap lexeme rest _ _ hgap hspan hempty hlast _ =>
      refine ⟨passed, gap, lexeme, rest, rfl, hfirst, hbehind, ?_, hgap, hempty, hlast⟩
      rw [hspan, ← Position.after_append, ← Position.after_append, List.append_assoc]

namespace Token.Stands

variable {source : Text} {earlier : List Token} {t : Token} {passed gap lexeme rest : Text}

theorem start_counts (h : t.Stands source earlier passed gap lexeme rest) :
    t.span.start.Counts (passed ++ gap) := by
  rw [h.span]
  exact Position.counts_after _

theorem stop_counts (h : t.Stands source earlier passed gap lexeme rest) :
    t.span.stop.Counts (passed ++ gap ++ lexeme) := by
  rw [h.span]
  exact Position.counts_after _

/-- The earlier tokens end before a token begins, and it ends before the source does. -/
theorem offsets_le (h : t.Stands source earlier passed gap lexeme rest) :
    passed.byteLength ≤ t.span.start.offset ∧ t.span.start.offset ≤ t.span.stop.offset ∧
      t.span.stop.offset ≤ source.byteLength := by
  rw [h.start_counts.offset, h.stop_counts.offset, h.source]
  simp only [Text.byteLength_append]
  omega

end Token.Stands

/-- Tokens that cover a source from its start are faithful to it. -/
theorem Cover.faithful {source : Text} {tokens : List Token} (h : Cover [] .start source tokens) :
    Faithful source tokens := by
  have hstands {earlier later : List Token} {t : Token} (htokens : tokens = earlier ++ t :: later) :
      ∃ passed gap lexeme rest, t.Stands source earlier passed gap lexeme rest :=
    (htokens ▸ h).stands
  have hmem {t : Token} (ht : t ∈ tokens) :
      ∃ earlier passed gap lexeme rest, t.Stands source earlier passed gap lexeme rest := by
    obtain ⟨earlier, later, htokens⟩ := List.append_of_mem ht
    exact ⟨earlier, hstands htokens⟩
  constructor
  case ordered =>
    intro t ht
    obtain ⟨earlier, passed, gap, lexeme, rest, hstand⟩ := hmem ht
    exact hstand.offsets_le.2
  case apart =>
    rw [List.isChain_iff_forall_rel_of_append_cons_cons]
    intro t u earlier later htokens
    rw [List.append_cons] at htokens
    obtain ⟨passed, gap, lexeme, rest, hstand⟩ := hstands htokens
    have hbehind := hstand.behind t List.getLast?_concat
    rw [hbehind, (Position.counts_after passed).offset]
    exact hstand.offsets_le.1
  case counted =>
    intro t ht
    obtain ⟨earlier, passed, gap, lexeme, rest, hstand⟩ := hmem ht
    refine ⟨⟨passed ++ gap, ?_, hstand.start_counts⟩, _, ?_, hstand.stop_counts⟩
    · exact ⟨lexeme ++ rest, by rw [hstand.source, List.append_assoc]⟩
    · exact ⟨rest, by rw [hstand.source]; simp only [List.append_assoc]⟩
  case empty =>
    intro t ht hkind
    obtain ⟨earlier, passed, gap, lexeme, rest, hstand⟩ := hmem ht
    rw [hstand.span, hstand.empty hkind, List.append_nil]
  case ends =>
    intro t ht hkind
    obtain ⟨earlier, passed, gap, lexeme, rest, hstand⟩ := hmem ht
    rw [hstand.stop_counts.offset, hstand.source, hstand.last hkind]
    simp only [List.append_nil, List.append_assoc]
  case gaps =>
    intro earlier t later htokens
    obtain ⟨passed, gap, lexeme, rest, hstand⟩ := hstands htokens
    refine ⟨passed, gap, lexeme ++ rest, hstand.source, hstand.first, ?_, hstand.start_counts,
      hstand.gap⟩
    intro u hu
    rw [hstand.behind u hu]
    exact Position.counts_after passed

/-- Token positions are faithful and nothing is skipped silently: so it is for all tokens of a
source up to its end or the first error. -/
theorem outcome_faithful (source : Text) : Faithful source (Lexer.outcome source).tokens := by
  have hstart : (Lexer.ofText source).HandedOut [] := ⟨fun _ => .inl rfl, rfl⟩
  rw [Lexer.outcome_eq_lexed]
  exact (Lexer.lexed_covers (Lexer.ofText_ordered source) [] hstart).faithful

/-- A letter of two bytes, a comment inside brackets, a blank line and an indentation, before a
character that begins no token. -/
example : (Lexer.outcome "é(1, # c\n2)\n\n  x$").tokens.map
      (fun t => (t.span.start.offset, t.span.stop.offset)) =
    [(0, 2), (2, 3), (3, 4), (4, 5), (10, 11), (11, 12), (12, 13), (16, 16), (16, 17)] := by
  decide +kernel

end TemplateEngine
