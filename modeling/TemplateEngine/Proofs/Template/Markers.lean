import Mathlib.Algebra.Ring.Parity
import TemplateEngine.Proofs.Template.Bodies
import TemplateEngine.Proofs.Template.Cuts

/-!
# Fragments and markers

The fragments of a tag are its body, cut where they say. Quoted runs, headers and markers look
as their kind demands. Code lies between them, never next to other code, and no quote and no
marker is left in it, unless a quote is left open: then the text from that quote on is code,
whatever it holds.
-/
namespace TemplateEngine

namespace Text

/-- The number of backslashes at the end of a text. -/
def backslashes (t : Text) : Nat := (t.reverse.takeWhile (· = '\\')).length

theorem backslashes_append_of_all (s : Text) {t : Text} (ht : ∀ c ∈ t, c = '\\') :
    backslashes (s ++ t) = backslashes s + t.length := by
  have hall : ∀ c ∈ t.reverse, decide (c = '\\') = true := by simpa using ht
  rw [backslashes, List.reverse_append, List.takeWhile_append_of_pos hall, List.length_append,
    List.length_reverse, Nat.add_comm]
  rfl

theorem backslashes_append (s : Text) {t : Text} (ht : ¬ ∀ c ∈ t, c = '\\') :
    backslashes (s ++ t) = backslashes t := by
  have hshort : (t.reverse.takeWhile (· = '\\')).length ≠ t.reverse.length := by
    intro hlength
    apply ht
    intro c hc
    have hwhole := (List.takeWhile_prefix _).eq_of_length hlength
    have hall := List.all_takeWhile (p := (· = '\\')) (l := t.reverse)
    rw [hwhole, List.all_reverse, List.all_eq_true] at hall
    simpa using hall c hc
  rw [backslashes, List.reverse_append, List.takeWhile_append, if_neg hshort]
  rfl

/-- A backslash and the character behind it count for two or for none. -/
theorem odd_backslashes_escape (c : Char) {t : Text} (h : Odd (backslashes t)) :
    Odd (backslashes (['\\', c] ++ t)) := by
  by_cases ht : ∀ d ∈ t, d = '\\'
  · have hlength := backslashes_append_of_all [] ht
    rw [backslashes_append_of_all _ ht]
    rw [List.nil_append] at hlength
    rw [hlength] at h
    have hempty : backslashes [] = 0 := rfl
    rw [hempty, Nat.zero_add] at h
    by_cases hc : c = '\\'
    · subst hc
      exact Even.add_odd even_two h
    · have hnone : backslashes ['\\', c] = 0 := by simp [backslashes, hc]
      rwa [hnone, Nat.zero_add]
  · rwa [backslashes_append _ ht]

theorem odd_backslashes_cons {c : Char} (hc : c ≠ '\\') {t : Text} (h : Odd (backslashes t)) :
    Odd (backslashes ([c] ++ t)) := by
  by_cases ht : ∀ d ∈ t, d = '\\'
  · have hlength := backslashes_append_of_all [] ht
    have hnone : backslashes [c] = backslashes [] := by simp [backslashes, hc]
    rw [List.nil_append] at hlength
    rwa [backslashes_append_of_all _ ht, hnone, ← hlength]
  · rwa [backslashes_append _ ht]

end Text

namespace Segment

variable {quote : Char} {w before after : Text}

/-- A quote inside a run is escaped: an odd number of backslashes stands before it. -/
theorem QuotedRest.odd_backslashes (h : QuotedRest quote w) (hquote : isQuote quote = true)
    (hw : w = before ++ quote :: after) (hafter : after ≠ []) :
    Odd (Text.backslashes before) := by
  induction h generalizing before with
  | close =>
      cases before with
      | nil => exact absurd (List.cons.inj hw).2.symm hafter
      | cons d before => simp at hw
  | @char c w hc hescape _ ih =>
      cases before with
      | nil => exact absurd (List.cons.inj hw).1 hc
      | cons d before =>
          obtain ⟨rfl, hrest⟩ := List.cons.inj hw
          exact Text.odd_backslashes_cons hescape (ih hrest)
  | @escape c w _ ih =>
      rcases before with _ | ⟨d, _ | ⟨e, before⟩⟩
      · exact absurd (List.cons.inj hw).1.symm (ne_backslash_of_isQuote hquote)
      · obtain ⟨rfl, -⟩ := List.cons.inj hw
        exact odd_one
      · obtain ⟨rfl, hrest⟩ := List.cons.inj hw
        obtain ⟨rfl, htail⟩ := List.cons.inj hrest
        exact Text.odd_backslashes_escape _ (ih htail)

/-- A text between two quotes that are alike, and escaped wherever they stand between those. -/
def IsRun (t : Text) : Prop :=
  ∃ quote inner, isQuote quote = true ∧ t = quote :: (inner ++ [quote]) ∧
    ∀ before after, inner = before ++ quote :: after → Odd (Text.backslashes before)

theorem QuotedRest.isRun (h : QuotedRest quote w) (hquote : isQuote quote = true) :
    IsRun (quote :: w) := by
  obtain ⟨inner, rfl⟩ := h.exists_inner
  refine ⟨quote, inner, hquote, rfl, ?_⟩
  rintro before after rfl
  exact h.odd_backslashes hquote (List.append_assoc ..) (by simp)

theorem closesQuotes_drop (skip : Nat) (t : Text) :
    closesQuotes skip t = closesQuotes 0 (t.drop skip) := by
  induction skip generalizing t with
  | zero => rfl
  | succ skip ih =>
      cases t with
      | nil => rfl
      | cons c t => exact ih t

/-- Characters that are no quotes leave no quote open. -/
theorem closesQuotes_append {s : Text} (hs : ∀ c ∈ s, isQuote c = false) (t : Text) :
    closesQuotes 0 (s ++ t) = closesQuotes 0 t := by
  induction s with
  | nil => rfl
  | cons c s ih =>
      rw [List.forall_mem_cons] at hs
      rw [← ih hs.2]
      simp [closesQuotes, quotedAfter, hs.1]

end Segment

namespace Fragment

open Segment (isQuote closing? closesQuotes closesQuotes_append closesQuotes_drop IsRun QuotedRest)

/-- Code in which no quote, no separator and no marker of blocks stands. -/
structure Unmarked (t : Text) : Prop where
  quote : ∀ c ∈ t, isQuote c = false
  separator : ';' ∉ t
  opens : ¬ ['{', ':'] <:+: t
  closes : ¬ [':', '}'] <:+: t

/-- What pieces of a kind look like; code may be anything. -/
def Shaped (t : Text) : FragmentKind → Prop
  | .quoted => IsRun t
  | .continuation => ∃ word ∈ continuationWords, word <+: t ∧ t.getLast? = some ':'
  | .blockOpen => t = ['{', ':']
  | .blockClose => t = [':', '}'] ∨ t = "end".toList
  | .separator => t = [';']
  | .code => True

/-- The pieces that stand for themselves. -/
def markers : List (FragmentKind × Text) :=
  [(.blockOpen, ['{', ':']), (.blockClose, [':', '}']), (.blockClose, "end".toList),
    (.separator, [';'])]

/-- A text that starts with a piece of a kind, and what is behind the piece. -/
inductive Starts : Text → FragmentKind → Text → Text → Prop where
  | quoted {quote : Char} {w rest : Text} : isQuote quote = true → QuotedRest quote w →
      Starts (quote :: (w ++ rest)) .quoted (quote :: w) rest
  | unclosed {quote : Char} {rest : Text} : isQuote quote = true → closing? quote rest = none →
      Starts (quote :: rest) .code (quote :: rest) []
  | header {word s rest : Text} : word ∈ continuationWords →
      closesQuotes 0 (word ++ (s ++ ':' :: rest)) = closesQuotes 0 rest →
      Starts (word ++ (s ++ ':' :: rest)) .continuation (word ++ (s ++ [':'])) rest
  | marker {kind : FragmentKind} {mark rest : Text} : (kind, mark) ∈ markers →
      Starts (mark ++ rest) kind mark rest
  | code {c : Char} {rest : Text} : isQuote c = false → c ≠ ';' →
      (c = '{' → rest.head? ≠ some ':') → (c = ':' → rest.head? ≠ some '}') →
      Starts (c :: rest) .code [c] rest

theorem isQuote_of_isPlainBlank (h : Text.isPlainBlank c = true) : isQuote c = false := by
  unfold Text.isPlainBlank at h
  unfold isQuote
  grind

/-- A header ends in its colon, and leaves no quote open there. -/
theorem exists_header {skip depth n : Nat} {t : Text} (h : headerLength? skip depth t = some n) :
    ∃ s rest, t = s ++ ':' :: rest ∧ n = s.length + 1 ∧
      closesQuotes skip t = closesQuotes 0 rest := by
  -- a character before the rest of the header
  have hcons {c : Char} {rest : Text} {skip skip' depth n : Nat}
      (ih : ∀ {m : Nat}, headerLength? skip depth rest = some m →
        ∃ s others, rest = s ++ ':' :: others ∧ m = s.length + 1 ∧
          closesQuotes skip rest = closesQuotes 0 others)
      (hskip : closesQuotes skip' (c :: rest) = closesQuotes skip rest)
      (h : (headerLength? skip depth rest).map (· + 1) = some n) :
      ∃ s others, c :: rest = s ++ ':' :: others ∧ n = s.length + 1 ∧
        closesQuotes skip' (c :: rest) = closesQuotes 0 others := by
    obtain ⟨m, hm, rfl⟩ := Option.map_eq_some_iff.mp h
    obtain ⟨s, others, rfl, rfl, hclosed⟩ := ih hm
    exact ⟨c :: s, others, rfl, rfl, hskip.trans hclosed⟩
  have hplain {c : Char} (hc : ¬ isQuote c = true) (rest : Text) :
      closesQuotes 0 (c :: rest) = closesQuotes 0 rest := by
    have hnone : ∀ d ∈ [c], isQuote d = false := by simpa using hc
    exact closesQuotes_append hnone rest
  fun_induction headerLength? skip depth t generalizing n with
  | case1 => cases h
  | case2 skip depth c rest ih => exact hcons (fun hm => ih hm) rfl h
  | case3 depth c rest hquote ih =>
      obtain ⟨run, hrun, h⟩ := Option.bind_eq_some_iff.mp h
      refine hcons (fun hm => ih run hm) ?_ h
      simp [closesQuotes, Segment.quotedAfter, hquote, hrun]
  | case4 depth c rest hquote _ ih => exact hcons (fun hm => ih hm) (hplain hquote rest) h
  | case5 depth c rest hquote _ _ ih => exact hcons (fun hm => ih hm) (hplain hquote rest) h
  | case6 => cases h
  | case7 depth c rest hquote _ _ _ hcolon =>
      cases h
      rw [Bool.and_eq_true, decide_eq_true_iff, decide_eq_true_iff] at hcolon
      exact ⟨[], rest, by rw [hcolon.2, List.nil_append], rfl, hplain hquote rest⟩
  | case8 depth c rest hquote _ _ _ _ ih => exact hcons (fun hm => ih hm) (hplain hquote rest) h

/-- A header that continues a block begins with a word for that, and ends in a colon. -/
theorem exists_continuation {t : Text} {n : Nat} (h : continuationLength? t = some n) :
    ∃ word ∈ continuationWords, ∃ s rest, t = word ++ (s ++ ':' :: rest) ∧
      n = (word ++ (s ++ [':'])).length ∧ closesQuotes 0 t = closesQuotes 0 rest := by
  obtain ⟨word, hword, hlength⟩ := Option.bind_eq_some_iff.mp h
  obtain ⟨m, hm, rfl⟩ := Option.map_eq_some_iff.mp hlength
  have hmem := List.mem_of_find?_eq_some hword
  have hprefix := List.find?_some hword
  rw [Bool.and_eq_true, List.isPrefixOf_iff_prefix] at hprefix
  obtain ⟨u, rfl⟩ := hprefix.1
  rw [List.drop_left] at hm
  obtain ⟨s, rest, rfl, rfl, hclosed⟩ := exists_header hm
  have hwords : ∀ word ∈ continuationWords, ∀ c ∈ word, isQuote c = false := by
    simp [continuationWords, isQuote]
  have hheader := (closesQuotes_append (hwords word hmem) _).trans hclosed
  exact ⟨word, hmem, s, rest, rfl, by simp, hheader⟩

section Starts

variable {before : Option Char} {fresh next : Bool} {c : Char} {t piece rest : Text} {length : Nat}
  {kind : FragmentKind}

/-- A text that begins with the closing word. -/
theorem exists_end (h : startsWithEnd before t = true) : ∃ rest, t = "end".toList ++ rest := by
  rw [startsWithEnd, Bool.and_eq_true, Bool.and_eq_true, List.isPrefixOf_iff_prefix] at h
  obtain ⟨rest, hrest⟩ := h.1.1
  exact ⟨rest, hrest.symm⟩

theorem starts_marker (mark : Text) (hmark : (kind, mark) ∈ markers) (ht : t = mark ++ rest)
    (hlength : length = mark.length) : Starts t kind (t.take length) (t.drop length) := by
  rw [ht, hlength, List.take_left, List.drop_left]
  exact .marker hmark

theorem starts_piece (h : Fragment.piece before fresh c rest = (kind, length, next)) :
    Starts (c :: rest) kind ((c :: rest).take length) ((c :: rest).drop length) := by
  unfold Fragment.piece at h
  split at h
  · rename_i hquote
    split at h <;> cases h
    · rename_i hrun
      obtain ⟨w, others, rfl, rfl, hw⟩ := Segment.exists_quotedRest hrun
      rw [List.take_succ_cons, List.take_left, List.drop_succ_cons, List.drop_left]
      exact .quoted hquote hw
    · rename_i hopen
      rw [← List.length_cons (a := c), List.take_length, List.drop_length]
      exact .unclosed hquote hopen
  · rename_i hquote
    split at h
    · rename_i hopen
      cases h
      rw [Bool.and_eq_true, decide_eq_true_iff, decide_eq_true_iff] at hopen
      obtain ⟨others, rfl⟩ := List.head?_eq_some_iff.mp hopen.2
      exact starts_marker ['{', ':'] (by decide) (by rw [hopen.1]; rfl) rfl
    · rename_i hopen
      split at h
      · rename_i hclose
        cases h
        rw [Bool.and_eq_true, decide_eq_true_iff, decide_eq_true_iff] at hclose
        obtain ⟨others, rfl⟩ := List.head?_eq_some_iff.mp hclose.2
        exact starts_marker [':', '}'] (by decide) (by rw [hclose.1]; rfl) rfl
      · rename_i hclose
        split at h
        · rename_i hend
          cases h
          obtain ⟨others, hothers⟩ := exists_end hend
          exact starts_marker _ (by decide) hothers rfl
        · split at h
          · rename_i hsemicolon
            cases h
            exact starts_marker [';'] (by decide) (by rw [hsemicolon]; rfl) rfl
          · rename_i hsemicolon
            have hcode : Starts (c :: rest) .code [c] rest := by
              rw [Bool.not_eq_true] at hquote
              rw [Bool.and_eq_true, decide_eq_true_iff, decide_eq_true_iff, not_and] at hopen hclose
              exact .code hquote hsemicolon hopen hclose
            split at h <;> cases h <;> exact hcode

/-- The piece that a text starts with, and what is behind it. -/
theorem starts_leading (h : leading before fresh c rest = (kind, length, next)) :
    Starts (c :: rest) kind ((c :: rest).take length) ((c :: rest).drop length) := by
  unfold leading at h
  split at h
  · rename_i hblank
    cases h
    rw [Bool.and_eq_true] at hblank
    have hne : ∀ d, Text.isPlainBlank d = false → c ≠ d := by
      rintro d hd rfl
      rw [hd] at hblank
      exact Bool.false_ne_true hblank.2
    exact .code (isQuote_of_isPlainBlank hblank.2) (hne _ (by decide))
      (fun hc => absurd hc (hne _ (by decide))) (fun hc => absurd hc (hne _ (by decide)))
  · split at h
    · rename_i n hheader
      cases h
      split at hheader
      · obtain ⟨word, hword, s, others, ht, rfl, hclosed⟩ := exists_continuation hheader
        have hparts : word ++ (s ++ ':' :: others) = word ++ (s ++ [':']) ++ others := by simp
        rw [ht] at hclosed ⊢
        rw [hparts, List.take_left, List.drop_left, ← hparts]
        exact .header hword hclosed
      · cases hheader
    · exact starts_piece h

theorem Starts.ne_nil (h : Starts t kind piece rest) : piece ≠ [] := by
  cases h with
  | quoted | unclosed | code => exact List.cons_ne_nil _ _
  | header => simp
  | marker hmark =>
      have hmarks : ∀ entry ∈ markers, entry.2 ≠ [] := by decide
      exact hmarks _ hmark

theorem Starts.shaped (h : Starts t kind piece rest) : Shaped piece kind := by
  cases h with
  | quoted hquote hw => exact hw.isRun hquote
  | unclosed | code => trivial
  | header hword _ => exact ⟨_, hword, List.prefix_append _ _, by simp⟩
  | marker hmark =>
      simp only [markers, List.mem_cons, List.not_mem_nil, or_false, Prod.mk.injEq] at hmark
      obtain ⟨rfl, rfl⟩ | ⟨rfl, rfl⟩ | ⟨rfl, rfl⟩ | ⟨rfl, rfl⟩ := hmark
      · rfl
      · exact .inl rfl
      · exact .inr rfl
      · rfl

/-- What is behind a piece leaves no quote open if the whole text leaves none. -/
theorem Starts.closesQuotes (h : Starts t kind piece rest) (hclosed : closesQuotes 0 t = true) :
    Segment.closesQuotes 0 rest = true := by
  cases h with
  | @quoted quote w _ hquote hw =>
      have hrun := hw.closing? hquote rest
      rw [Segment.closesQuotes, Bool.and_eq_true, Segment.quotedAfter, if_pos hquote,
        hrun] at hclosed
      have hbehind := hclosed.2
      rwa [Option.getD_some, closesQuotes_drop, List.drop_left] at hbehind
  | unclosed => rfl
  | header _ hrest => rwa [hrest] at hclosed
  | marker hmark =>
      have hmarks : ∀ entry ∈ markers, ∀ c ∈ entry.2, isQuote c = false := by
        simp [markers, isQuote]
      rwa [closesQuotes_append (hmarks _ hmark)] at hclosed
  | @code c _ hquote _ _ _ =>
      have hone : ∀ d ∈ [c], isQuote d = false := by simpa using hquote
      rwa [← List.singleton_append, closesQuotes_append hone] at hclosed

theorem unmarked_nil : Unmarked [] := ⟨nofun, nofun, by simp, by simp⟩

/-- Code of which the first character is a piece. -/
theorem Unmarked.cons {more : Text} (hquote : isQuote c = false) (hsemicolon : c ≠ ';')
    (hopen : c = '{' → more.head? ≠ some ':') (hclose : c = ':' → more.head? ≠ some '}')
    (h : Unmarked more) : Unmarked (c :: more) := by
  have hpair {a b : Char} (hab : c = a → more.head? ≠ some b) (hmore : ¬ [a, b] <:+: more) :
      ¬ [a, b] <:+: c :: more := by
    rw [List.infix_cons_iff, List.cons_prefix_cons]
    rintro (⟨hc, hb⟩ | hinfix)
    · obtain ⟨others, rfl⟩ := hb
      exact hab hc.symm rfl
    · exact hmore hinfix
  exact ⟨List.forall_mem_cons.mpr ⟨hquote, h.quote⟩,
    fun hmem => (List.mem_cons.mp hmem).elim (fun hc => hsemicolon hc.symm) h.separator,
    hpair hopen h.opens, hpair hclose h.closes⟩

/-- A piece of code is a character before code without markers. -/
theorem Starts.unmarked {more : Text} (h : Starts t .code piece rest)
    (hclosed : Segment.closesQuotes 0 t = true) (hmore : more <+: rest)
    (hunmarked : Unmarked more) : Unmarked (piece ++ more) := by
  have hhead {b : Char} (hb : rest.head? ≠ some b) : more.head? ≠ some b := by
    obtain ⟨others, rfl⟩ := hmore
    cases more with
    | nil => simp
    | cons d more => exact hb
  cases h with
  | unclosed hquote hopen => simp [Segment.closesQuotes, hquote, hopen] at hclosed
  | marker hmark =>
      have hmarks : ∀ entry ∈ markers, entry.1 ≠ .code := by decide
      exact absurd rfl (hmarks _ hmark)
  | code hquote hsemicolon hopen hclose =>
      exact .cons hquote hsemicolon (fun hc => hhead (hopen hc)) (fun hc => hhead (hclose hc))
        hunmarked

end Starts

section Joined

variable {found : List (FragmentKind × Text)} {p : FragmentKind × Text}

theorem ne_nil_of_mem_joinCode (h : ∀ p ∈ found, p.2 ≠ []) : ∀ p ∈ joinCode found, p.2 ≠ [] := by
  induction found with
  | nil => exact nofun
  | cons q found ih =>
      rw [List.forall_mem_cons] at h
      have ih := ih h.2
      obtain ⟨hjoin, -⟩ | ⟨more, others, -, hjoined, hjoin⟩ := joinCode_cons q.1 q.2 found
      · rw [hjoin]
        exact List.forall_mem_cons.mpr ⟨h.1, ih⟩
      · rw [hjoined, List.forall_mem_cons] at ih
        rw [hjoin]
        exact List.forall_mem_cons.mpr ⟨by simp [h.1], ih.2⟩

theorem mem_of_mem_joinCode (hp : p ∈ joinCode found) (hkind : p.1 ≠ .code) : p ∈ found := by
  induction found with
  | nil => cases hp
  | cons q found ih =>
      obtain ⟨hjoin, -⟩ | ⟨more, others, -, hjoined, hjoin⟩ := joinCode_cons q.1 q.2 found
      · rw [hjoin] at hp
        obtain rfl | hp := List.mem_cons.mp hp
        · exact List.mem_cons_self
        · exact List.mem_cons_of_mem _ (ih hp)
      · rw [hjoin] at hp
        obtain rfl | hp := List.mem_cons.mp hp
        · exact absurd rfl hkind
        · exact List.mem_cons_of_mem _ (ih (hjoined ▸ List.mem_cons_of_mem _ hp))

/-- No two pieces of code are neighbours. -/
theorem isChain_joinCode (found : List (FragmentKind × Text)) :
    (joinCode found).IsChain fun p q => ¬ (p.1 = .code ∧ q.1 = .code) := by
  induction found with
  | nil => exact .nil
  | cons q found ih =>
      obtain ⟨hjoin, hhead⟩ | ⟨more, others, -, hjoined, hjoin⟩ := joinCode_cons q.1 q.2 found
      · rw [hjoin]
        cases hrest : joinCode found with
        | nil => exact .singleton _
        | cons r others =>
            rw [hrest] at ih hhead
            exact .cons_cons (fun hcode => hhead hcode.1 r rfl hcode.2) ih
      · rw [hjoined] at ih
        rw [hjoin]
        cases ih with
        | singleton => exact .singleton _
        | cons_cons hfirst hothers => exact .cons_cons hfirst hothers

end Joined

section Pieces

variable {skip : Nat} {before : Option Char} {fresh : Bool} {t : Text} {p : FragmentKind × Text}

/-- Every piece has a character at least, and looks as its kind demands. -/
theorem shaped_of_mem_pieces (hp : p ∈ pieces skip before fresh t) :
    p.2 ≠ [] ∧ Shaped p.2 p.1 := by
  fun_induction pieces skip before fresh t with
  | case1 => cases hp
  | case2 skip before fresh c rest ih => exact ih hp
  | case3 before fresh c rest kind length next hleading ih =>
      obtain rfl | hp := List.mem_cons.mp hp
      · have hstarts := starts_leading hleading
        exact ⟨hstarts.ne_nil, hstarts.shaped⟩
      · exact ih hp

theorem shaped_of_mem_joinCode {found : List (FragmentKind × Text)}
    (h : ∀ p ∈ found, Shaped p.2 p.1) (hp : p ∈ joinCode found) : Shaped p.2 p.1 := by
  by_cases hkind : p.1 = .code
  · rw [hkind]
    trivial
  · exact h p (mem_of_mem_joinCode hp hkind)

/-- The code that the joined pieces start with is the start of the text behind. -/
theorem prefix_of_joinCode_pieces {kind : FragmentKind} {text : Text}
    {others : List (FragmentKind × Text)}
    (h : joinCode (pieces skip before fresh t) = (kind, text) :: others) :
    text <+: t.drop skip := by
  rw [← flatMap_pieces skip before fresh t, ← flatMap_joinCode, h, List.flatMap_cons]
  exact List.prefix_append _ _

/-- No quote and no marker is left in code, unless a quote is left open. -/
theorem unmarked_of_mem_joinCode (hclosed : closesQuotes 0 (t.drop skip) = true)
    (hp : p ∈ joinCode (pieces skip before fresh t)) (hkind : p.1 = .code) : Unmarked p.2 := by
  fun_induction pieces skip before fresh t generalizing p with
  | case1 => cases hp
  | case2 skip before fresh c rest ih => exact ih hclosed hp hkind
  | case3 before fresh c rest kind length next hleading ih =>
      have hstarts := starts_leading hleading
      have hlength := one_le_leading before fresh c rest
      rw [hleading] at hlength
      have hrest : (c :: rest).drop length = rest.drop (length - 1) := by
        obtain ⟨length, rfl⟩ := Nat.exists_eq_add_of_le' hlength
        rfl
      have hbehind := hstarts.closesQuotes hclosed
      rw [hrest] at hstarts hbehind
      have ih {q} (hq : q ∈ joinCode (pieces (length - 1) (some c) next rest)) :=
        ih hbehind hq
      obtain ⟨hjoin, -⟩ | ⟨more, others, rfl, hjoined, hjoin⟩ :=
        joinCode_cons kind ((c :: rest).take length) (pieces (length - 1) (some c) next rest)
      · rw [hjoin] at hp
        obtain rfl | hp := List.mem_cons.mp hp
        · subst hkind
          rw [← List.append_nil ((c :: rest).take length)]
          exact hstarts.unmarked hclosed List.nil_prefix unmarked_nil
        · exact ih hp hkind
      · rw [hjoin] at hp
        obtain rfl | hp := List.mem_cons.mp hp
        · have hmore := ih (hjoined ▸ List.mem_cons_self) rfl
          exact hstarts.unmarked hclosed (prefix_of_joinCode_pieces hjoined) hmore
        · exact ih (hjoined ▸ List.mem_cons_of_mem _ hp) hkind

end Pieces

section Numbered

variable {line : Nat} {found : List (FragmentKind × Text)} {f : Fragment}

theorem mem_of_mem_number (hf : f ∈ number line found) : (f.kind, f.text) ∈ found := by
  induction found generalizing line with
  | nil => cases hf
  | cons p found ih =>
      obtain rfl | hf := List.mem_cons.mp hf
      · exact List.mem_cons_self
      · exact List.mem_cons_of_mem _ (ih hf)

/-- A fragment has as many line breaks before it as the fragments before it hold. -/
theorem line_of_number {before after : List Fragment}
    (h : number line found = before ++ f :: after) :
    f.line = line + Text.newlines (before.flatMap Fragment.text) := by
  induction found generalizing line before with
  | nil => simp [number] at h
  | cons p found ih =>
      rw [number] at h
      cases before with
      | nil =>
          obtain ⟨rfl, -⟩ := List.cons.inj h
          rfl
      | cons g before =>
          obtain ⟨rfl, hrest⟩ := List.cons.inj h
          rw [ih hrest, List.flatMap_cons, Text.newlines_append, Nat.add_assoc]

theorem isChain_number {R : FragmentKind → FragmentKind → Prop} (line : Nat)
    (h : found.IsChain fun p q => R p.1 q.1) :
    (number line found).IsChain fun f g => R f.kind g.kind := by
  induction h generalizing line with
  | nil => exact .nil
  | singleton p => exact .singleton _
  | cons_cons hfirst _ ih => exact .cons_cons hfirst (ih _)

end Numbered

/-- A fragment is not empty, and looks as its kind demands. -/
theorem shaped_of_mem_ofBody {body : Text} {f : Fragment} (hf : f ∈ ofBody body) :
    f.text ≠ [] ∧ Shaped f.text f.kind := by
  have hpieces {p} (hp : p ∈ pieces 0 none true body) := shaped_of_mem_pieces hp
  have hmem := mem_of_mem_number hf
  exact ⟨ne_nil_of_mem_joinCode (fun p hp => (hpieces hp).1) _ hmem,
    shaped_of_mem_joinCode (fun p hp => (hpieces hp).2) hmem⟩

/-- The fragments of a body are the body, cut into texts that are not empty, with no code next
to code, each with the line breaks before it, and each what its kind demands. Code holds no
quote and no marker where no quote is left open. -/
theorem ofBody_covers (body : Text) :
    (ofBody body).flatMap Fragment.text = body ∧
      (∀ f ∈ ofBody body, f.text ≠ []) ∧
      (ofBody body).IsChain (fun f g => ¬ (f.kind = .code ∧ g.kind = .code)) ∧
      (∀ before f after, ofBody body = before ++ f :: after →
        f.line = Text.newlines (before.flatMap Fragment.text)) ∧
      (∀ f ∈ ofBody body, Shaped f.text f.kind) ∧
      (closesQuotes 0 body = true → ∀ f ∈ ofBody body, f.kind = .code → Unmarked f.text) := by
  refine ⟨flatMap_ofBody body, fun f hf => (shaped_of_mem_ofBody hf).1, ?alternate, ?lines,
    fun f hf => (shaped_of_mem_ofBody hf).2, ?unmarked⟩
  case alternate =>
    exact isChain_number (R := fun k l => ¬ (k = .code ∧ l = .code)) 0 (isChain_joinCode _)
  case lines =>
    intro before f after h
    rw [line_of_number h, Nat.zero_add]
  case unmarked =>
    intro hclosed f hf hkind
    have hwhole : closesQuotes 0 (body.drop 0) = true := hclosed
    exact unmarked_of_mem_joinCode hwhole (mem_of_mem_number hf) hkind

/-- A header, strings with a quote escaped in one, and a marker inside the other. -/
def stringsBody : Text := " else:\n print(\"a\\\"b\", ';') \x7b: x\n end ".toList

theorem ofBody_covers_strings :
    closesQuotes 0 stringsBody = true ∧
      ((ofBody stringsBody).map Fragment.kind = [.code, .continuation, .code, .quoted, .code,
        .quoted, .code, .blockOpen, .code, .blockClose, .code]) ∧
      ∀ f ∈ ofBody stringsBody, f.kind = .code → Unmarked f.text :=
  ⟨by decide, by decide, (ofBody_covers stringsBody).2.2.2.2.2 (by decide)⟩

end Fragment

end TemplateEngine
