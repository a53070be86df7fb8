import TemplateEngine.Proofs.Template.Cuts
import TemplateEngine.Proofs.Template.RowLines
import TemplateEngine.Proofs.Text.Trimming

/-!
# Code put together again

The fragments of a tag of strings and code end up in one row of the program, without the
blanks at the ends of the code between the strings. The row reads as the body of the tag
does, provided that every quoted run is a string, or the middle of a string of three quotes.
-/
namespace TemplateEngine

open Segment (isQuote closing? QuotedRest)
open Lexer (ReadsAs Stops)

/-- A text that begins with a quote. -/
def Text.StartsQuoted (t : Text) : Prop := ∃ quote rest, t = quote :: rest ∧ isQuote quote = true

namespace Text.StartsQuoted

variable {t : Text}

theorem visible (h : t.StartsQuoted) : t.StartsVisible := by
  obtain ⟨quote, rest, rfl, hquote⟩ := h
  exact ⟨quote, rest, rfl, not_isBlank_of_isQuote hquote⟩

theorem stops (h : t.StartsQuoted) : Stops t := by
  obtain ⟨quote, rest, rfl, hquote⟩ := h
  intro c hc
  cases Option.some.inj hc
  simp only [isQuote, Bool.or_eq_true, decide_eq_true_eq] at hquote
  rcases hquote with rfl | rfl <;> decide

theorem trimEnd (h : t.StartsQuoted) : (Text.trimEnd t).StartsQuoted := by
  obtain ⟨quote, rest, rfl, hquote⟩ := h
  exact ⟨quote, _, Text.trimEnd_cons (not_isBlank_of_isQuote hquote) rest, hquote⟩

end Text.StartsQuoted

namespace Fragment

/-- What a quoted run or a piece of code adds to its row; `next` is the kind of the fragment
after it. -/
def emitted (next : Option FragmentKind) (f : Fragment) : Text :=
  match f.kind with
  | .code =>
    let piece := Text.dropLastIf '\r' f.text
    if next == some .quoted then Text.trimStart piece else Text.trim piece
  | _ => f.text

/-- What quoted runs and pieces of code add to their row. -/
def reassembled : List Fragment → Text
  | [] => []
  | f :: rest => f.emitted (rest.head?.map Fragment.kind) ++ reassembled rest

/-- Whether three fragments are a run between two empty runs of its quote. -/
def isTriple (f g h : Fragment) : Bool :=
  f.kind = .quoted && g.kind = .quoted && h.kind = .quoted && f.text.length = 2 &&
    h.text = f.text && g.text.head? = f.text.head?

/-- Whether a fragment is no empty run that its quote comes behind, blanks apart. -/
def standsAlone (f : Fragment) (rest : List Fragment) : Bool :=
  f.kind ≠ .quoted || f.text.length ≠ 2 ||
    (Text.trimStart (rest.flatMap Fragment.text)).head? ≠ f.text.head?

/-- Whether a comment begins in a fragment. -/
def hasComment (f : Fragment) : Bool := f.kind = .code && f.text.contains '#'

/-- Whether every run up to a comment is a string, or the middle of one of three quotes. -/
def tidy : List Fragment → Bool
  | [] => true
  | f :: g :: h :: rest =>
    if isTriple f g h then tidy rest
    else standsAlone f (g :: h :: rest) && (hasComment f || tidy (g :: h :: rest))
  | f :: rest => standsAlone f rest && (hasComment f || tidy rest)

section Texts

theorem sublist_trim (t : Text) : (Text.trim t).Sublist t :=
  (Draft.sublist_trimEnd _).trans (List.dropWhile_sublist Text.isBlank)

theorem sublist_emitted (next : Option FragmentKind) (f : Fragment) :
    (f.emitted next).Sublist f.text := by
  have hdrop : (Text.dropLastIf '\r' f.text).Sublist f.text := by
    unfold Text.dropLastIf
    split
    · exact List.dropLast_sublist _
    · exact List.Sublist.refl _
  unfold emitted
  split
  · dsimp only
    split
    · exact (List.dropWhile_sublist Text.isBlank).trans hdrop
    · exact (sublist_trim _).trans hdrop
  · exact List.Sublist.refl _

theorem sublist_reassembled (fs : List Fragment) :
    (reassembled fs).Sublist (fs.flatMap Fragment.text) := by
  induction fs with
  | nil => exact List.Sublist.refl []
  | cons f rest ih =>
      rw [reassembled, List.flatMap_cons]
      exact (sublist_emitted _ f).append ih

end Texts

section Reading

variable {k t v v' : Text}

theorem readsAs_trimEnd (hline : '\n' ∉ t) (h : ReadsAs (Text.trim t) v) :
    ReadsAs (Text.trimEnd t) v := by
  obtain ⟨before, hend, hblank⟩ := Text.exists_trimEnd t
  have hline : '\n' ∉ before := by
    intro hmem
    refine hline ((Draft.sublist_trimEnd t).subset ?_)
    rw [hend]
    exact List.mem_append_left _ hmem
  rw [hend]
  clear hend
  induction before with
  | nil => exact h
  | cons g before ih =>
      rw [List.mem_cons, not_or] at hline
      rw [List.forall_mem_cons] at hblank
      exact .of_blank hblank.1 (Ne.symm hline.1) (ih hblank.2 hline.2)

theorem stops_hash (t : Text) : Stops ('#' :: t) := by
  intro c hc
  cases Option.some.inj hc
  decide

/-- Code before a string loses the blanks at its start, and a carriage return at its end. -/
theorem readsAs_code (hk : ∀ c ∈ k, isQuote c = false) (ht : t.StartsQuoted)
    (hv : v.StartsQuoted) (hline : '\n' ∉ k ++ t) (hline' : '\n' ∉ v)
    (h : '#' ∈ k ∨ ReadsAs (Text.trim t) v) :
    ReadsAs (Text.trim (k ++ t)) (Text.trimStart (Text.dropLastIf '\r' k) ++ v) := by
  rw [List.mem_append, not_or] at hline
  obtain ⟨cr, hstart, hcr⟩ := Text.exists_dropLastIf k
  rw [Text.trim_append k ht.visible, hstart, List.append_assoc]
  have hsub : (Text.trimStart (Text.dropLastIf '\r' k)).Sublist k :=
    (List.sublist_append_left _ cr).trans (hstart ▸ List.dropWhile_sublist Text.isBlank)
  have hkept : ∀ c ∈ Text.trimStart (Text.dropLastIf '\r' k), isQuote c = false ∧ c ≠ '\n' :=
    fun c hc => ⟨hk c (hsub.subset hc), fun h => hline.1 (h ▸ hsub.subset hc)⟩
  have hend : '\n' ∉ Text.trimEnd t := fun h =>
    hline.2 ((Draft.sublist_trimEnd t).subset h)
  have hbehind : '\n' ∉ cr ++ Text.trimEnd t := by
    rcases hcr with rfl | ⟨rfl, -⟩ <;> simpa using hend
  rcases h with hhash | h
  · have hmem : '#' ∈ Text.trimStart (Text.dropLastIf '\r' k) := by
      have hparts : k.takeWhile Text.isBlank ++ Text.trimStart k = k :=
        List.takeWhile_append_dropWhile
      rw [← hparts, hstart] at hhash
      rcases List.mem_append.mp hhash with hblank | hmem
      · exact absurd (Text.allBlank_takeWhile k _ hblank) (by decide)
      · rcases List.mem_append.mp hmem with hmem | hmem
        · exact hmem
        · rcases hcr with rfl | ⟨rfl, -⟩
          · cases hmem
          · exact absurd hmem (by decide)
    obtain ⟨a, b, hparts⟩ := List.append_of_mem hmem
    rw [hparts] at hkept ⊢
    rw [List.forall_mem_append] at hkept
    have hcomment : ∀ {s : Text}, '\n' ∉ s → '\n' ∉ b ++ s := fun hs hmem =>
      (List.mem_append.mp hmem).elim
        (fun hb => (hkept.2 _ (List.mem_cons_of_mem _ hb)).2 rfl) hs
    have hcomment' : ∀ {s : Text}, '\n' ∉ s → '\n' ∉ '#' :: (b ++ s) := fun hs hmem =>
      (List.mem_cons.mp hmem).elim (by decide) (hcomment hs)
    rw [List.append_assoc, List.append_assoc, List.cons_append, List.cons_append]
    exact .of_code hkept.1 (stops_hash _) (stops_hash _) (hcomment' hbehind) (hcomment' hline')
      (Lexer.readsAs_comment (hcomment hbehind) (hcomment hline'))
  · have hread := readsAs_trimEnd hline.2 h
    have hread : ReadsAs (cr ++ Text.trimEnd t) v := by
      rcases hcr with rfl | ⟨rfl, -⟩
      · exact hread
      · exact hread.of_blank (by decide) (by decide)
    have hstops : Stops (cr ++ Text.trimEnd t) := by
      rcases hcr with rfl | ⟨rfl, -⟩
      · exact ht.trimEnd.stops
      · intro c hc
        cases Option.some.inj hc
        decide
    exact .of_code hkept hstops hv.stops hbehind hline' hread

/-- The last piece of code loses the blanks at its ends. -/
theorem readsAs_last (hk : ∀ c ∈ k, isQuote c = false) (hline : '\n' ∉ k) :
    ReadsAs (Text.trim k) (Text.trim k) := by
  have hkept : ∀ c ∈ Text.trim k, isQuote c = false ∧ c ≠ '\n' := fun c hc =>
    ⟨hk c ((sublist_trim k).subset hc), fun h => hline (h ▸ (sublist_trim k).subset hc)⟩
  have hread : ReadsAs (Text.trim k ++ []) (Text.trim k ++ []) :=
    .of_code hkept nofun nofun nofun nofun Lexer.readsAs_nil
  rwa [List.append_nil] at hread

/-- The last piece of code reads as itself where no quote is closed in it. -/
theorem readsAs_unclosed {quote : Char} {r : Text} (hk : ∀ c ∈ k, isQuote c = false)
    (hquote : isQuote quote = true) (hopen : closing? quote r = none)
    (hline : '\n' ∉ k ++ quote :: r) :
    ReadsAs (Text.trim (k ++ quote :: r)) (Text.trim (k ++ quote :: r)) := by
  have hvisible : Text.StartsVisible (quote :: r) :=
    Text.StartsQuoted.visible ⟨quote, r, rfl, hquote⟩
  have hend := Text.trimEnd_cons (Text.not_isBlank_of_isQuote hquote) r
  have hopen' : closing? quote (Text.trimEnd r) = none := by
    obtain ⟨behind, hbehind⟩ := Text.exists_append_trimEnd r
    cases hclosed : closing? quote (Text.trimEnd r) with
    | none => rfl
    | some n =>
        obtain ⟨w, rest, hparts, -, hw⟩ := Segment.exists_quotedRest hclosed
        have hr : r = w ++ (rest ++ behind) := by
          rw [← List.append_assoc, ← hparts]
          exact hbehind
        have hlonger := hw.closing? hquote (rest ++ behind)
        rw [← hr, hopen] at hlonger
        cases hlonger
  have hsub := (sublist_trim (k ++ quote :: r)).subset
  rw [Text.trim_append k hvisible, hend] at hsub ⊢
  have hstart := (List.dropWhile_sublist Text.isBlank (l := k)).subset
  have hkept : ∀ c ∈ Text.trimStart k, isQuote c = false ∧ c ≠ '\n' := fun c hc =>
    ⟨hk c (hstart hc), fun h => hline (hsub (List.mem_append_left _ (h ▸ hc)))⟩
  have hrest : '\n' ∉ quote :: Text.trimEnd r := fun h => hline (hsub (List.mem_append_right _ h))
  have hstops : Stops (quote :: Text.trimEnd r) := Text.StartsQuoted.stops ⟨quote, _, rfl, hquote⟩
  exact .of_code hkept hstops hstops hrest hrest (Lexer.readsAs_unclosed hquote hopen')

end Reading

section Fragments

variable {f : Fragment} {fs rest : List Fragment}

/-- Fragments that go on with a quoted run begin with a quote, before and after. -/
theorem Cut.startsQuoted (h : Cut fs) (hnil : fs ≠ [])
    (hquoted : ∀ f ∈ fs.head?, f.kind = .quoted) :
    Text.StartsQuoted (fs.flatMap Fragment.text) ∧ Text.StartsQuoted (reassembled fs) := by
  cases h with
  | nil => exact absurd rfl hnil
  | quoted hquote _ _ => exact ⟨⟨_, _, rfl, hquote⟩, ⟨_, _, rfl, hquote⟩⟩
  | code _ _ _ | unclosed _ _ _ => cases hquoted _ rfl

theorem emitted_code (k : Text) (line : Nat) (rest : List Fragment)
    (hquoted : ∀ f ∈ rest.head?, f.kind = .quoted) :
    Fragment.emitted (rest.head?.map Fragment.kind) ⟨.code, k, line⟩ =
      if rest.isEmpty then Text.trim k else Text.trimStart (Text.dropLastIf '\r' k) := by
  cases rest with
  | nil => exact Text.trim_dropLastIf k
  | cons f rest =>
      have hkind := hquoted f rfl
      simp [emitted, hkind]

/-- The first visible character is kept. -/
theorem Cut.head?_reassembled (h : Cut fs) :
    (reassembled fs).head? = (Text.trimStart (fs.flatMap Fragment.text)).head? := by
  induction h with
  | nil => rfl
  | @quoted quote w line rest hquote hw hcut ih =>
      have hvisible : Text.StartsVisible (quote :: w ++ rest.flatMap Fragment.text) :=
        ⟨quote, _, rfl, Text.not_isBlank_of_isQuote hquote⟩
      rw [List.flatMap_cons, hvisible.trimStart]
      rfl
  | @code k line rest hk hquoted hcut ih =>
      rw [reassembled, emitted_code k line rest hquoted, List.flatMap_cons]
      cases rest with
      | nil =>
          simp only [List.isEmpty_nil, if_true, reassembled, List.flatMap_nil, List.append_nil]
          exact Text.head?_trim k
      | cons g rest =>
          obtain ⟨ht, -⟩ := hcut.startsQuoted (List.cons_ne_nil g rest) hquoted
          obtain ⟨cr, hstart, hcr⟩ := Text.exists_dropLastIf k
          rw [List.isEmpty_cons, if_neg Bool.false_ne_true, Text.trimStart_append k ht.visible,
            hstart, List.append_assoc, List.head?_append, List.head?_append, ih,
            ht.visible.trimStart]
          rcases hcr with rfl | ⟨-, hkept⟩
          · rfl
          · obtain ⟨c, others, hcons⟩ := List.exists_cons_of_ne_nil hkept
            rw [hcons]
            rfl
  | @unclosed k quote r line hk hquote hopen =>
      rw [reassembled, emitted_code _ line [] nofun]
      simp only [List.isEmpty_nil, if_true, reassembled, List.flatMap_cons, List.flatMap_nil,
        List.append_nil]
      exact Text.head?_trim _

theorem not_mem_tail {c : Char} (h : c ∉ (f :: rest).flatMap Fragment.text) :
    c ∉ rest.flatMap Fragment.text := fun hmem => h (List.mem_append_right _ hmem)

theorem readsAs_cons (hcut : Cut (f :: rest)) (halone : standsAlone f rest = true)
    (hline : '\n' ∉ (f :: rest).flatMap Fragment.text)
    (h : hasComment f = true ∨
      ReadsAs (Text.trim (rest.flatMap Fragment.text)) (reassembled rest)) :
    ReadsAs (Text.trim ((f :: rest).flatMap Fragment.text)) (reassembled (f :: rest)) := by
  have hlater : '\n' ∉ reassembled rest := fun hmem => hline <|
    List.mem_append_right _ ((sublist_reassembled rest).subset hmem)
  cases hcut with
  | @quoted quote w line _ hquote hw hcut =>
      have hread := h.resolve_left (by simp [hasComment])
      have hread := readsAs_trimEnd (not_mem_tail hline) hread
      have hvisible := Text.not_isBlank_of_isQuote hquote
      have hapart : w = [quote] →
          (Text.trimStart (rest.flatMap Fragment.text)).head? ≠ some quote := by
        rintro rfl
        simp only [standsAlone, List.length_cons, List.length_nil, ne_eq, not_true_eq_false,
          decide_false, Bool.false_or, decide_eq_true_eq] at halone
        exact halone
      have hbefore : w = [quote] → (Text.trimEnd (rest.flatMap Fragment.text)).head? ≠ some quote := by
        intro hw hhead
        obtain ⟨others, hcons⟩ := List.head?_eq_some_iff.mp hhead
        obtain ⟨behind, hbehind⟩ := Text.exists_append_trimEnd (rest.flatMap Fragment.text)
        rw [hcons] at hbehind
        have hstart := Text.StartsVisible.trimStart ⟨quote, _, hbehind, hvisible⟩
        apply hapart hw
        rw [hstart, hbehind]
        rfl
      have hafter : w = [quote] → (reassembled rest).head? ≠ some quote := by
        rw [hcut.head?_reassembled]
        exact hapart
      have hrun := ReadsAs.run hquote hw hbefore hafter hread
      obtain ⟨inner, rfl⟩ := hw.exists_inner
      have htrim := Text.trim_between hvisible hvisible inner (rest.flatMap Fragment.text)
      rw [List.append_assoc, List.append_assoc] at hrun
      have htext : (Fragment.mk .quoted (quote :: (inner ++ [quote])) line :: rest).flatMap
          Fragment.text = quote :: inner ++ quote :: rest.flatMap Fragment.text := by simp
      have hemitted : reassembled (⟨.quoted, quote :: (inner ++ [quote]), line⟩ :: rest) =
          quote :: (inner ++ ([quote] ++ reassembled rest)) := by simp [reassembled, emitted]
      rw [htext, htrim, hemitted]
      exact hrun
  | @code k line _ hk hquoted hcut =>
      rw [reassembled, emitted_code k line rest hquoted, List.flatMap_cons]
      cases rest with
      | nil =>
          simp only [List.isEmpty_nil, if_true, reassembled, List.flatMap_nil, List.append_nil]
          exact readsAs_last hk (fun h => hline (List.mem_append_left _ h))
      | cons g rest =>
          obtain ⟨ht, hv⟩ := hcut.startsQuoted (List.cons_ne_nil g rest) hquoted
          refine readsAs_code hk ht hv hline hlater (h.imp_left fun hcomment => ?_)
          simpa [hasComment] using hcomment
  | @unclosed k quote r line hk hquote hopen =>
      rw [reassembled, emitted_code _ line [] nofun]
      simp only [List.isEmpty_nil, if_true, reassembled, List.flatMap_cons, List.flatMap_nil,
        List.append_nil] at hline ⊢
      exact readsAs_unclosed hk hquote hopen hline

theorem readsAs_triple {g h : Fragment} (hcut : Cut (f :: g :: h :: rest))
    (htriple : isTriple f g h = true) (hline : '\n' ∉ (f :: g :: h :: rest).flatMap Fragment.text)
    (hrest : ReadsAs (Text.trim (rest.flatMap Fragment.text)) (reassembled rest)) :
    ReadsAs (Text.trim ((f :: g :: h :: rest).flatMap Fragment.text))
      (reassembled (f :: g :: h :: rest)) := by
  simp only [isTriple, Bool.and_eq_true, decide_eq_true_eq] at htriple
  obtain ⟨⟨⟨⟨⟨hf, hg⟩, hh⟩, hlength⟩, hlast⟩, hsame⟩ := htriple
  obtain ⟨quote, w, hftext, hquote, hw⟩ := hcut.exists_run hf
  obtain ⟨other, v, hgtext, -, hv⟩ := hcut.tail.exists_run hg
  obtain ⟨inner, hinner⟩ := hw.exists_inner
  obtain ⟨middle, rfl⟩ := hv.exists_inner
  obtain rfl : inner = [] := by
    rw [hftext, hinner] at hlength
    simpa using hlength
  rw [hftext, hgtext] at hsame
  cases hsame
  have hvisible := Text.not_isBlank_of_isQuote hquote
  have hread := readsAs_trimEnd (not_mem_tail (not_mem_tail (not_mem_tail hline))) hrest
  have hrun := ReadsAs.triple hquote hv hread
  have htrim := Text.trim_between hvisible hvisible (quote :: quote :: (middle ++ [quote, quote]))
    (rest.flatMap Fragment.text)
  have htext : (f :: g :: h :: rest).flatMap Fragment.text =
      quote :: (quote :: quote :: (middle ++ [quote, quote])) ++
        quote :: rest.flatMap Fragment.text := by
    simp [hftext, hgtext, hlast, hinner]
  have hemitted : reassembled (f :: g :: h :: rest) =
      quote :: quote :: quote :: (middle ++ [quote] ++ quote :: quote :: reassembled rest) := by
    simp [reassembled, emitted, hf, hg, hh, hftext, hgtext, hlast, hinner]
  rw [htext, htrim, hemitted]
  have hsame : quote :: (quote :: quote :: (middle ++ [quote, quote])) ++
      quote :: Text.trimEnd (rest.flatMap Fragment.text) = quote :: quote :: quote ::
        (middle ++ [quote] ++ quote :: quote :: Text.trimEnd (rest.flatMap Fragment.text)) := by
    simp
  rw [hsame]
  exact hrun

/-- Fragments of strings and code read, put together again, as they stood in the tag. -/
theorem readsAs_reassembled (hcut : Cut fs) (htidy : tidy fs = true)
    (hline : '\n' ∉ fs.flatMap Fragment.text) :
    ReadsAs (Text.trim (fs.flatMap Fragment.text)) (reassembled fs) := by
  fun_induction tidy fs with
  | case1 => exact Lexer.readsAs_nil
  | case2 f g h rest htriple ih =>
      have hrest := not_mem_tail (not_mem_tail (not_mem_tail hline))
      exact readsAs_triple hcut htriple hline (ih hcut.tail.tail.tail htidy hrest)
  | case3 f g h rest htriple ih =>
      rw [Bool.and_eq_true, Bool.or_eq_true] at htidy
      exact readsAs_cons hcut htidy.1 hline
        (htidy.2.imp_right fun h => ih hcut.tail h (not_mem_tail hline))
  | case4 f rest hshort ih =>
      rw [Bool.and_eq_true, Bool.or_eq_true] at htidy
      exact readsAs_cons hcut htidy.1 hline
        (htidy.2.imp_right fun h => ih hcut.tail h (not_mem_tail hline))

end Fragments

end Fragment

namespace Draft

open Fragment

/-- A quoted run or a piece of code on a line goes to the end of the row that is being built. -/
theorem fragment_plain {f : Fragment} (hplain : f.IsPlain) (hline : '\n' ∉ f.text) (base : Nat)
    (next : Option FragmentKind) {d : Draft} {last : Row} {others : List Row}
    (hrows : d.rows = last :: others) :
    ∃ e, d.fragment base next f = .ok e ∧
      e.rows = ⟨last.code ++ f.emitted next, last.line⟩ :: others := by
  have hpush {t : Text} (ht : t.Sublist f.text) (line : Nat) :
      (d.push t line).rows = ⟨last.code ++ t, last.line⟩ :: others := by
    rw [push_eq hrows (Text.cutAt_eq_singleton fun h => hline (ht.subset h))]
    rfl
  have hsub := sublist_emitted next f
  rcases hplain with hkind | hkind
  · refine ⟨d.push f.text (base + f.line), by simp only [fragment, hkind]; rfl, ?_⟩
    simpa [emitted, hkind] using hpush (List.Sublist.refl f.text) (base + f.line)
  · refine ⟨d.codeLine (base + f.line) (next == some .quoted) f.text, ?_, ?_⟩
    · simp only [fragment, hkind, Text.cutAt_eq_singleton hline, codeLines]
      rfl
    · have hcode := hpush hsub (base + f.line)
      simp only [emitted, hkind] at hcode ⊢
      have hindent : ∀ (opens : Bool) (e : Draft),
          (if opens then e.indent else e).rows = e.rows := by
        intro opens e
        cases opens <;> rfl
      rw [codeLine]
      exact (hindent _ _).trans hcode

theorem fragments_plain {fs : List Fragment} (hplain : ∀ f ∈ fs, f.IsPlain)
    (hline : '\n' ∉ fs.flatMap Fragment.text) (base : Nat) {d : Draft} {last : Row}
    {others : List Row} (hrows : d.rows = last :: others) :
    ∃ e, fragments base fs d = .ok e ∧
      e.rows = ⟨last.code ++ reassembled fs, last.line⟩ :: others := by
  induction fs generalizing d last with
  | nil => exact ⟨d, rfl, by rw [hrows, reassembled, List.append_nil]⟩
  | cons f rest ih =>
      rw [List.forall_mem_cons] at hplain
      have hf : '\n' ∉ f.text := fun h => hline (List.mem_append_left _ h)
      obtain ⟨mid, hmid, hmidRows⟩ :=
        fragment_plain hplain.1 hf base (rest.head?.map Fragment.kind) hrows
      obtain ⟨e, he, heRows⟩ := ih hplain.2 (not_mem_tail hline) hmidRows
      refine ⟨e, ?_, ?_⟩
      · rw [fragments, hmid]
        exact he
      · rw [heRows, reassembled, List.append_assoc]

/-- A text on a line that begins as a trimmed one does. -/
theorem onLine_of_head? {s t : Text} (hline : '\n' ∉ s)
    (hfirst : s.head? = (Text.trimStart t).head?) : Lexer.OnLine s := by
  refine ⟨hline, fun c hc => ?_⟩
  rw [hfirst] at hc
  have hvisible := Text.not_isBlank_of_mem_head? hc
  rw [Bool.eq_false_iff]
  intro hinline
  simp only [Lexer.isInlineBlank, Bool.or_eq_true, decide_eq_true_eq] at hinline
  rcases hinline with ((rfl | rfl) | rfl) | rfl <;> exact absurd hvisible (by decide)

/-- The row that a tag of strings and code is laid out in has, behind its indentation, the tokens
of the tag's body: blanks are dropped between tokens only. A blank tag closes a block, so it needs
one that is open. -/
theorem statement_keeps_tokens (tag : Tag) (hplain : ∀ f ∈ ofBody tag.body, f.IsPlain)
    (hline : '\n' ∉ tag.body) (htidy : tidy (ofBody tag.body) = true) {tokens : List Token}
    (htokens : tokenize (Text.trim tag.body) = .ok tokens) (d : Draft)
    (hopen : Text.allBlank tag.body = true → 0 < d.depth) :
    ∃ e depth code others, d.statement tag = .ok e ∧
      e.rows = ⟨indentation depth ++ code, tag.line⟩ :: (d.newRow tag.line).rows.tail ∧
      tokenize code = .ok others ∧ others.map Token.kind = tokens.map Token.kind := by
  cases hblank : Text.allBlank tag.body with
  | true =>
      obtain ⟨depth, hdepth⟩ := Nat.exists_eq_add_one.mpr (hopen hblank)
      rw [Text.trim_of_allBlank hblank] at htokens
      refine ⟨newRow tag.line { d with depth := depth }, depth, [], tokens, ?_, ?_, htokens, rfl⟩
      · rw [statement, if_pos hblank, dedent, hdepth]
        rfl
      · rw [newRow_rows, List.append_nil]
  | false =>
      have hcut := cut_ofBody hplain
      have htexts := flatMap_ofBody tag.body
      obtain ⟨e, he, hrows⟩ := fragments_plain hplain (by rwa [htexts]) tag.line
        (newRow_rows d d.depth tag.line)
      have hread := readsAs_reassembled hcut htidy (by rwa [htexts])
      have hsub := (sublist_reassembled (ofBody tag.body)).subset
      have hfirst := hcut.head?_reassembled
      rw [htexts] at hread hsub hfirst
      have hbefore : Lexer.OnLine (Text.trim tag.body) :=
        onLine_of_head? (fun h => hline ((sublist_trim tag.body).subset h)) (Text.head?_trim _)
      have hafter : Lexer.OnLine (reassembled (ofBody tag.body)) :=
        onLine_of_head? (fun h => hline (hsub h)) hfirst
      obtain ⟨others, hothers, hkinds⟩ := hread.tokenize hbefore hafter htokens
      refine ⟨e, d.depth, _, others, ?_, hrows, hothers, hkinds⟩
      rw [statement, if_neg (by rw [hblank]; exact Bool.false_ne_true)]
      exact he

/-- A string, blanks, a string of three quotes, and a comment with a quote in it. -/
theorem statement_keeps_concatenation :
    let body := " x = \"a\"  +  \"\"\"b\"\"\" # it's".toList
    ∃ tokens e depth code others, tokenize (Text.trim body) = .ok tokens ∧
      empty.statement ⟨.statement, body, 1, false, false⟩ = .ok e ∧
      e.rows = [⟨indentation depth ++ code, 1⟩] ∧
      tokenize code = .ok others ∧ others.map Token.kind = tokens.map Token.kind := by
  intro body
  have hok : (tokenize (Text.trim body)).isOk = true := by decide +kernel
  cases htokens : tokenize (Text.trim body) with
  | error e =>
      rw [htokens] at hok
      cases hok
  | ok tokens =>
      obtain ⟨e, depth, code, others, he, hrows, hothers, hkinds⟩ := statement_keeps_tokens
        ⟨.statement, body, 1, false, false⟩ (by unfold IsPlain; decide +kernel)
        (by decide) (by decide +kernel) htokens empty (by decide +kernel)
      exact ⟨tokens, e, depth, code, others, rfl, he, hrows, hothers, hkinds⟩

/-- Inside three quotes a run of the same quote is no string of its own, and the blank behind it
is lost. -/
theorem statement_drops_blank :
    let body := " x = \"\"\"a \" b\" c\"\"\"".toList
    (∀ f ∈ ofBody body, f.IsPlain) ∧ '\n' ∉ body ∧ body.getLast? ≠ some ':' ∧
      (tokenize (Text.trim body)).toOption.map (·.map Token.kind) =
        some [.identifier "x".toList, .symbol .equals, .string "a \" b\" c".toList, .newline,
          .endOfInput] ∧
      ∃ code, (empty.statement ⟨.statement, body, 1, false, false⟩).toOption.map Draft.rows =
          some [⟨code, 1⟩] ∧
        (tokenize code).toOption.map (·.map Token.kind) =
          some [.identifier "x".toList, .symbol .equals, .string "a \"b\" c".toList, .newline,
            .endOfInput] := by
  refine ⟨by unfold IsPlain; decide +kernel, by decide, by decide, by decide +kernel,
    "x = \"\"\"a \"b\" c\"\"\"".toList, by decide +kernel, by decide +kernel⟩

end Draft

end TemplateEngine
