import Mathlib.Data.List.DropRight
import TemplateEngine.Proofs.Template.Markers
import TemplateEngine.Proofs.Template.RowLines
import TemplateEngine.Proofs.Text.Trimming

/-!
# The marks of a template

What the segments of a template ask of the layout of its program, in order: rows that start,
blocks that are left, and texts that are put in the rows, some of which open a block. To lay
out the segments is to follow their marks.
-/
namespace TemplateEngine

/-- Whether a segment prints a body without anything visible. -/
def Segment.isBlankPrint : Segment → Bool
  | .literal _ _ => false
  | .tag found => found.kind != .statement && Text.allBlank found.body

namespace Draft

/-- Where a text of a program comes from. -/
inductive Origin where
  | literal
  | print
  /-- The header of a clause that continues a block. -/
  | header
  | quoted
  /-- The colon of an explicit opening marker. -/
  | colon
  /-- Code on one line of the template. -/
  | code
  deriving DecidableEq, Repr

/-- A text of a program, the template line that it starts on, and whether it opens a block. -/
structure Passage where
  origin : Origin
  text : Text
  line : Nat
  opens : Bool
  deriving DecidableEq, Repr

/-- A step in laying out a program. -/
inductive Mark where
  /-- What comes next starts a row. -/
  | row (line : Nat)
  /-- A block is left, and what comes next starts a row. -/
  | leave (line : Nat)
  | passage (p : Passage)
  deriving DecidableEq, Repr

/-- Whether code ends in a colon, comments apart. -/
def endsInColon (code : Text) : Bool := code.head? != some '#' && code.getLast? == some ':'

/-- The marks of a line of code; `goesOn` says that a quoted run follows on the line. -/
def lineMarks (goesOn : Bool) (line : Nat) (piece : Text) : List Mark :=
  let code := if goesOn then Text.trimStart (Text.dropLastIf '\r' piece) else Text.trim piece
  if code.isEmpty then [] else [.passage ⟨.code, code, line, !goesOn && endsInColon code⟩]

/-- The marks of the lines of a piece of code. -/
def linesMarks (goesOn : Bool) : Nat → List Text → List Mark
  | _, [] => []
  | line, [piece] => lineMarks goesOn line piece
  | line, piece :: pieces =>
    lineMarks false line piece ++ .row (line + 1) :: linesMarks goesOn (line + 1) pieces

/-- The marks of a fragment of a tag on template line `base`. -/
def fragmentMarks (base : Nat) (next : Option FragmentKind) (f : Fragment) : List Mark :=
  let line := base + f.line
  match f.kind with
  | .quoted => [.passage ⟨.quoted, f.text, line, false⟩]
  | .code => linesMarks (next == some .quoted) line (Text.cutAt '\n' f.text)
  | .blockOpen => [.passage ⟨.colon, [':'], line, true⟩, .row line]
  | .blockClose => [.leave line]
  | .separator => [.row line]
  | .continuation => [.leave line, .passage ⟨.header, f.text, line, true⟩]

/-- The marks of the fragments of a tag on template line `base`. -/
def fragmentsMarks (base : Nat) : List Fragment → List Mark
  | [] => []
  | f :: rest => fragmentMarks base (rest.head?.map Fragment.kind) f ++ fragmentsMarks base rest

/-- The marks of a segment. -/
def segmentMarks : Segment → List Mark
  | .literal text line => [.row line, .passage ⟨.literal, literalCall text, line, false⟩]
  | .tag tag =>
    match tag.kind with
    | .print => [.row tag.line, .passage ⟨.print, printCall false tag.body, tag.line, false⟩]
    | .rawPrint => [.row tag.line, .passage ⟨.print, printCall true tag.body, tag.line, false⟩]
    | .statement =>
      if Text.allBlank tag.body then [.leave tag.line]
      else .row tag.line :: fragmentsMarks tag.line (Fragment.ofBody tag.body)

/-- A quoted run of a tag is a text of its own. -/
theorem quoted_mem_fragmentsMarks (base : Nat) {f : Fragment} {fs : List Fragment} (hf : f ∈ fs)
    (hkind : f.kind = .quoted) :
    .passage ⟨.quoted, f.text, base + f.line, false⟩ ∈ fragmentsMarks base fs := by
  induction fs with
  | nil => cases hf
  | cons g fs ih =>
      rw [fragmentsMarks, List.mem_append]
      obtain rfl | hf := List.mem_cons.mp hf
      · left
        rw [fragmentMarks, hkind]
        exact List.mem_singleton_self _
      · exact .inr (ih hf)

theorem quoted_mem_segmentMarks {found : Tag} (hkind : found.kind = .statement) {f : Fragment}
    (hf : f ∈ Fragment.ofBody found.body) (hquoted : f.kind = .quoted) :
    .passage ⟨.quoted, f.text, found.line + f.line, false⟩ ∈ segmentMarks (.tag found) := by
  have hvisible : Text.allBlank found.body = false := by
    have hshape := (Fragment.shaped_of_mem_ofBody hf).2
    rw [hquoted] at hshape
    obtain ⟨quote, inner, hquote, htext, -⟩ := hshape
    have hmem : quote ∈ found.body := by
      rw [← Fragment.flatMap_ofBody found.body]
      exact List.mem_flatMap.mpr ⟨f, hf, htext ▸ List.mem_cons_self⟩
    rw [Text.allBlank, List.all_eq_false]
    exact ⟨quote, hmem, by simp [Text.not_isBlank_of_isQuote hquote]⟩
  simp only [segmentMarks, hkind, hvisible, Bool.false_eq_true, if_false]
  exact List.mem_cons_of_mem _ (quoted_mem_fragmentsMarks found.line hf hquoted)

theorem print_mem_segmentMarks {found : Tag} (hkind : found.kind ≠ .statement) :
    .passage ⟨.print, printCall (found.kind == .rawPrint) found.body, found.line, false⟩ ∈
      segmentMarks (.tag found) := by
  obtain ⟨kind, body, line, trimsIndentation, trimsNewline⟩ := found
  cases kind with
  | print | rawPrint => exact List.mem_cons_of_mem _ List.mem_cons_self
  | statement => exact absurd rfl hkind

theorem segmentMarks_ne_nil (segment : Segment) : segmentMarks segment ≠ [] := by
  cases segment with
  | literal text line => exact List.cons_ne_nil _ _
  | tag found =>
      unfold segmentMarks
      dsimp only
      split
      · exact List.cons_ne_nil _ _
      · exact List.cons_ne_nil _ _
      · split <;> exact List.cons_ne_nil _ _

/-- The marks of a template. -/
def marks (t : Text) : List Mark := (Splitting.ofTemplate t).segments.flatMap segmentMarks

/-- The draft after a mark, if there is a block to leave. -/
def follow (d : Draft) : Mark → Option Draft
  | .row line => some (d.newRow line)
  | .leave line =>
    if d.depth = 0 then none else some (newRow line { d with depth := d.depth - 1 })
  | .passage p =>
    let d := d.push p.text p.line
    some (if p.opens then d.indent else d)

section Following

variable {d e : Draft}

theorem toOption_dedent (d : Draft) (cause : StructuralFault) :
    (d.dedent cause).toOption =
      if d.depth = 0 then none else some { d with depth := d.depth - 1 } := by
  unfold dedent
  cases hdepth : d.depth with
  | zero => rfl
  | succ depth => rfl

theorem toOption_bind {α β : Type} (x : Except StructuralError α)
    (f : α → Except StructuralError β) :
    (x >>= f).toOption = x.toOption >>= fun a => (f a).toOption := by
  cases x <;> rfl

theorem push_rows_ne_nil (d : Draft) (text : Text) (line : Nat) : (d.push text line).rows ≠ [] := by
  have hpush {d : Draft} (hrows : d.rows ≠ []) : (d.push text line).rows ≠ [] := by
    obtain ⟨last, others, first, pieces, -, -, hpushed⟩ := exists_push hrows text line
    simp [hpushed]
  by_cases hrows : d.rows = []
  · rw [push_newRow hrows]
    exact hpush (newRow_rows_ne_nil d line)
  · exact hpush hrows

theorem indent_rows (d : Draft) (opens : Bool) :
    (if opens then d.indent else d).rows = d.rows := by
  cases opens <;> rfl

theorem follow_rows_ne_nil {m : Mark} (h : d.follow m = some e) : e.rows ≠ [] := by
  cases m with
  | row line =>
      cases h
      exact newRow_rows_ne_nil d line
  | leave line =>
      rw [follow] at h
      split at h <;> cases h
      exact newRow_rows_ne_nil _ line
  | passage p =>
      cases h
      rw [indent_rows]
      exact push_rows_ne_nil d p.text p.line

theorem foldlM_rows_ne_nil {ms : List Mark} (hrows : d.rows ≠ [])
    (h : ms.foldlM follow d = some e) : e.rows ≠ [] := by
  induction ms generalizing d with
  | nil =>
      cases h
      exact hrows
  | cons m ms ih =>
      obtain ⟨mid, hmid, hrest⟩ := Option.bind_eq_some_iff.mp h
      exact ih (follow_rows_ne_nil hmid) hrest

theorem opensBlock_trim (t : Text) : opensBlock (Text.trim t) = endsInColon (Text.trim t) := by
  -- the code is trimmed already where its last sign is looked for
  have htwice : Text.trimEnd (Text.trim t) = Text.trim t := by
    rw [Text.trim, Text.trimEnd, Text.trimEndWhile, Text.trimEnd, Text.trimEndWhile,
      List.reverse_reverse, List.dropWhile_idempotent]
  rw [opensBlock, htwice, endsInColon]

theorem follow_lineMarks (hrows : d.rows ≠ []) (goesOn : Bool) (line : Nat) (piece : Text) :
    (lineMarks goesOn line piece).foldlM follow d = some (d.codeLine line goesOn piece) := by
  have hpassage (code : Text) (opens : Bool) (hopens : code = [] → opens = false) :
      (if code.isEmpty then [] else [.passage ⟨.code, code, line, opens⟩]).foldlM follow d =
        some (if opens then (d.push code line).indent else d.push code line) := by
    cases code with
    | nil =>
        rw [hopens rfl, push_nil hrows]
        rfl
    | cons c code => rfl
  cases goesOn with
  | true => exact hpassage _ false fun _ => rfl
  | false =>
      have hcode := hpassage (Text.trim piece) (endsInColon (Text.trim piece)) fun hnil => by
        rw [hnil]
        rfl
      rw [codeLine, Text.trim_dropLastIf]
      simp only [Bool.false_eq_true, if_false, Bool.not_false, Bool.true_and, opensBlock_trim]
      exact hcode

theorem follow_linesMarks (goesOn : Bool) (line : Nat) (pieces : List Text) (hrows : d.rows ≠ []) :
    (linesMarks goesOn line pieces).foldlM follow d = some (codeLines goesOn line pieces d) := by
  fun_induction codeLines goesOn line pieces d with
  | case1 => rfl
  | case2 line piece d => exact follow_lineMarks hrows goesOn line piece
  | case3 line piece pieces d hmore ih =>
      have ih := ih (newRow_rows_ne_nil _ _)
      rw [linesMarks, List.foldlM_append, follow_lineMarks hrows]
      · exact ih
      · exact hmore

/-- To leave a block before a row that something is done to. -/
theorem toOption_leave (d : Draft) (cause : StructuralFault) (line : Nat)
    (f : Draft → Except StructuralError Draft) :
    (d.dedent cause >>= fun d => f (d.newRow line)).toOption =
      d.follow (.leave line) >>= fun d => (f d).toOption := by
  rw [toOption_bind, toOption_dedent, follow]
  split <;> rfl

/-- Laying out a fragment is following its marks. -/
theorem toOption_fragment (hrows : d.rows ≠ []) (base : Nat) (next : Option FragmentKind)
    (f : Fragment) :
    (d.fragment base next f).toOption = (fragmentMarks base next f).foldlM follow d := by
  obtain ⟨kind, text, line⟩ := f
  cases kind with
  | quoted | blockOpen | separator => rfl
  | code => exact (follow_linesMarks _ _ _ hrows).symm
  | blockClose => exact toOption_leave d _ _ .ok
  | continuation => exact toOption_leave d _ _ fun d => .ok (d.push text (base + line)).indent

theorem toOption_fragments (hrows : d.rows ≠ []) (base : Nat) (fs : List Fragment) :
    (fragments base fs d).toOption = (fragmentsMarks base fs).foldlM follow d := by
  induction fs generalizing d with
  | nil => rfl
  | cons f rest ih =>
      rw [fragments, toOption_bind, fragmentsMarks, List.foldlM_append, ← toOption_fragment hrows]
      cases hnext : (d.fragment base (rest.head?.map Fragment.kind) f).toOption with
      | none => rfl
      | some mid =>
          rw [toOption_fragment hrows] at hnext
          exact ih (foldlM_rows_ne_nil hrows hnext)

/-- Laying out a segment is following its marks, unless it prints nothing. -/
theorem toOption_segment (d : Draft) {segment : Segment} (h : segment.isBlankPrint = false) :
    (d.segment segment).toOption = (segmentMarks segment).foldlM follow d := by
  cases segment with
  | literal text line => rfl
  | tag found =>
      obtain ⟨kind, body, line, trimsIndentation, trimsNewline⟩ := found
      cases kind with
      | print | rawPrint =>
          have hbody : Text.allBlank body = false := h
          simp only [Draft.segment, print, hbody, Bool.false_eq_true, if_false]
          rfl
      | statement =>
          rw [Draft.segment, statement, segmentMarks]
          dsimp only
          split
          · exact toOption_leave d _ _ .ok
          · exact toOption_fragments (newRow_rows_ne_nil d line) line (Fragment.ofBody body)

theorem segment_of_isBlankPrint {segment : Segment} (h : segment.isBlankPrint = true) :
    d.segment segment ≠ .ok e := by
  cases segment with
  | literal text line => cases h
  | tag found =>
      obtain ⟨kind, body, line, trimsIndentation, trimsNewline⟩ := found
      cases kind with
      | print | rawPrint =>
          have hbody : Text.allBlank body = true := h
          intro hprint
          simp only [Draft.segment, print, hbody, if_true] at hprint
          cases hprint
      | statement => cases h

/-- Segments can be laid out if none of them prints nothing and their marks can be followed. -/
theorem foldlM_segment_eq_ok {segments : List Segment} :
    segments.foldlM segment d = .ok e ↔ (∀ segment ∈ segments, segment.isBlankPrint = false) ∧
      (segments.flatMap segmentMarks).foldlM follow d = some e := by
  induction segments generalizing d with
  | nil => simp [pure, Except.pure]
  | cons segment segments ih =>
      rw [List.forall_mem_cons, List.flatMap_cons, List.foldlM_append, List.foldlM_cons]
      cases hblank : segment.isBlankPrint with
      | true =>
          constructor
          · intro h
            obtain ⟨mid, hmid, -⟩ := exists_of_bind_ok h
            exact absurd hmid (segment_of_isBlankPrint hblank)
          · rintro ⟨⟨h, -⟩, -⟩
            cases h
      | false =>
          rw [← toOption_segment d hblank]
          cases hsegment : d.segment segment with
          | error error => simp [bind, Except.bind, Except.toOption]
          | ok mid => exact ih.trans (by simp [Except.toOption])

end Following

/-- Texts begin and end in something visible, and code stays on its line. -/
structure Passage.Shaped (p : Passage) : Prop where
  starts : Text.StartsVisible p.text
  ends : EndsVisible p.text
  oneLine : p.origin = .code ∨ p.origin = .colon → '\n' ∉ p.text

/-- Marks from one template line to another. A text goes on where the one before it ends, and
a row starts there or later. -/
inductive Marked : Nat → List Mark → Nat → Prop where
  | nil {line : Nat} : Marked line [] line
  | row {line next upto : Nat} {ms : List Mark} : line ≤ next → Marked next ms upto →
      Marked line (.row next :: ms) upto
  | leave {line next upto : Nat} {ms : List Mark} : line ≤ next → Marked next ms upto →
      Marked line (.leave next :: ms) upto
  | passage {p : Passage} {upto : Nat} {ms : List Mark} : p.Shaped →
      Marked (p.line + p.text.newlines) ms upto → Marked p.line (.passage p :: ms) upto

section Marked

variable {line next upto : Nat} {ms ns : List Mark}

theorem Marked.append (h : Marked line ms next) (h' : Marked next ns upto) :
    Marked line (ms ++ ns) upto := by
  induction h with
  | nil => exact h'
  | row hle _ ih => exact .row hle (ih h')
  | leave hle _ ih => exact .leave hle (ih h')
  | passage hp _ ih => exact .passage hp (ih h')

theorem Marked.singleton {p : Passage} (hp : p.Shaped) :
    Marked p.line [.passage p] (p.line + p.text.newlines) :=
  .passage hp .nil

theorem startsVisible_of_any {t : Text} (h : (t.head?.any fun c => !Text.isBlank c) = true) :
    Text.StartsVisible t := by
  cases t with
  | nil => cases h
  | cons c rest => exact ⟨c, rest, rfl, by simpa using h⟩

theorem shaped_code {code : Text} (hstart : Text.StartsVisible code) (hcode : '\n' ∉ code)
    (line : Nat) (opens : Bool) : Passage.Shaped ⟨.code, code, line, opens⟩ := by
  refine ⟨hstart, ?_, fun _ => hcode⟩
  obtain ⟨c, rest, rfl, hc⟩ := hstart
  exact ⟨[], c, rest, rfl, hc, fun hrest => hcode (List.mem_cons_of_mem _ hrest)⟩

theorem marked_code {code : Text} (hcode : '\n' ∉ code)
    (hhead : ∀ c ∈ code.head?, Text.isBlank c = false) (line : Nat) (opens : Bool) :
    Marked line (if code.isEmpty then [] else [.passage ⟨.code, code, line, opens⟩]) line := by
  cases code with
  | nil => exact .nil
  | cons c rest =>
      have hstart : Text.StartsVisible (c :: rest) := ⟨c, rest, rfl, hhead c rfl⟩
      have hmarked := Marked.singleton (shaped_code hstart hcode line opens)
      rwa [Text.newlines_eq_zero hcode] at hmarked

theorem marked_lineMarks (goesOn : Bool) (line : Nat) {piece : Text} (hpiece : '\n' ∉ piece) :
    Marked line (lineMarks goesOn line piece) line := by
  cases goesOn with
  | true =>
      have hsub := (List.dropWhile_sublist Text.isBlank).trans (sublist_dropLastIf '\r' piece)
      exact marked_code (fun hmem => hpiece (hsub.subset hmem))
        (fun c hc => Text.not_isBlank_of_mem_head? hc) line _
  | false =>
      have hsub : (Text.trim piece).Sublist piece :=
        (sublist_trimEnd _).trans (List.dropWhile_sublist Text.isBlank)
      exact marked_code (fun hmem => hpiece (hsub.subset hmem))
        (fun c hc => Text.not_isBlank_of_mem_head? (Text.head?_trim piece ▸ hc)) line _

/-- The lines of a piece of code, the last of them where the code ends. -/
theorem marked_linesMarks (goesOn : Bool) (line : Nat) {pieces : List Text} (hne : pieces ≠ [])
    (hpieces : ∀ piece ∈ pieces, '\n' ∉ piece) :
    Marked line (linesMarks goesOn line pieces) (line + pieces.length - 1) := by
  fun_induction linesMarks goesOn line pieces with
  | case1 => exact absurd rfl hne
  | case2 line piece => exact marked_lineMarks goesOn line (hpieces piece List.mem_cons_self)
  | case3 line piece pieces hmore ih =>
      rw [List.forall_mem_cons] at hpieces
      have hrest := ih hmore hpieces.2
      have hupto : line + (piece :: pieces).length - 1 = line + 1 + pieces.length - 1 := by
        rw [List.length_cons]
        omega
      rw [hupto]
      exact (marked_lineMarks false line hpieces.1).append (.row (Nat.le_succ line) hrest)

theorem shaped_of_ends {origin : Origin} {text : Text} {line : Nat} {opens : Bool}
    (hstart : Text.StartsVisible text) {c : Char} (hlast : text.getLast? = some c)
    (hc : Text.isBlank c = false) (horigin : origin ≠ .code ∧ origin ≠ .colon) :
    Passage.Shaped ⟨origin, text, line, opens⟩ := by
  obtain ⟨s, hs⟩ := List.getLast?_eq_some_iff.mp hlast
  exact ⟨hstart, hs ▸ .concat s hc, fun h => absurd h (not_or.mpr horigin)⟩

/-- A fragment, from where it starts to where it ends. -/
theorem marked_fragmentMarks (base : Nat) (next : Option FragmentKind) {f : Fragment}
    (hshape : Fragment.Shaped f.text f.kind) :
    Marked (base + f.line) (fragmentMarks base next f) (base + f.line + f.text.newlines) := by
  obtain ⟨kind, text, line⟩ := f
  have hat := Nat.le_refl (base + line)
  cases kind with
  | quoted =>
      obtain ⟨quote, inner, hquote, rfl, -⟩ := hshape
      have hvisible := Text.not_isBlank_of_isQuote hquote
      exact .singleton (shaped_of_ends ⟨quote, _, rfl, hvisible⟩
        (by rw [← List.cons_append, List.getLast?_concat]) hvisible (by decide))
  | continuation =>
      obtain ⟨word, hword, ⟨rest, rfl⟩, hlast⟩ := hshape
      have hwords : ∀ word ∈ Fragment.continuationWords,
          (word.head?.any fun c => !Text.isBlank c) = true := by
        decide
      obtain ⟨c, letters, rfl, hc⟩ := startsVisible_of_any (hwords word hword)
      exact .leave hat (.singleton (shaped_of_ends ⟨c, _, rfl, hc⟩ hlast (by decide) (by decide)))
  | blockOpen =>
      obtain rfl := hshape
      have hcolon : Passage.Shaped ⟨.colon, [':'], base + line, true⟩ :=
        ⟨⟨':', [], rfl, by decide⟩, .concat [] (by decide), fun _ => (by decide : '\n' ∉ [':'])⟩
      exact (Marked.singleton hcolon).append (.row hat .nil)
  | blockClose => obtain rfl | rfl := hshape <;> exact .leave hat .nil
  | separator =>
      obtain rfl := hshape
      exact .row hat .nil
  | code =>
      -- the last line of code is where the fragment ends, so nothing of `goesOn` shows here
      have hlines := marked_linesMarks (next == some .quoted) (base + line)
        (Text.cutAt_ne_nil '\n' text) fun piece hpiece => Text.not_mem_of_mem_cutAt hpiece
      rw [Text.length_cutAt] at hlines
      exact hlines

open Fragment (number) in
/-- The fragments of a tag, from its line on. -/
theorem marked_fragmentsMarks (base : Nat) {line : Nat} {found : List (FragmentKind × Text)}
    (hfound : ∀ f ∈ number line found, Fragment.Shaped f.text f.kind) :
    Marked (base + line) (fragmentsMarks base (number line found))
      (base + line + Text.newlines (found.flatMap Prod.snd)) := by
  induction found generalizing line with
  | nil => exact .nil
  | cons p found ih =>
      rw [number, List.forall_mem_cons] at hfound
      have hrest := ih hfound.2
      rw [number, fragmentsMarks, List.flatMap_cons, Text.newlines_append, ← Nat.add_assoc]
      rw [← Nat.add_assoc] at hrest
      exact (marked_fragmentMarks base _ hfound.1).append hrest

theorem marked_ofBody (line : Nat) (body : Text) :
    Marked line (fragmentsMarks line (Fragment.ofBody body)) (line + body.newlines) := by
  have hmarked := marked_fragmentsMarks line
    fun f (hf : f ∈ Fragment.ofBody body) => (Fragment.shaped_of_mem_ofBody hf).2
  rwa [Fragment.flatMap_joinCode, Fragment.flatMap_pieces, List.drop_zero] at hmarked

end Marked

section Segments

variable {line upto : Nat}

theorem shaped_call {origin : Origin} {text : Text} {line : Nat}
    (hstart : appendName <+: text) (hlast : text.getLast? = some ')')
    (horigin : origin ≠ .code ∧ origin ≠ .colon) : Passage.Shaped ⟨origin, text, line, false⟩ := by
  obtain ⟨rest, rfl⟩ := hstart
  obtain ⟨c, letters, hletters, hc⟩ := startsVisible_of_any (t := appendName) (by decide)
  exact shaped_of_ends ⟨c, letters ++ rest, by rw [hletters]; rfl, hc⟩ hlast (by decide) horigin

theorem marked_segmentMarks {segment : Segment} (h : line ≤ segment.line) :
    ∃ upto, upto ≤ segment.line + segment.breaks ∧ Marked line (segmentMarks segment) upto := by
  have hcall {origin : Origin} {text : Text} {at_ : Nat} (hat : line ≤ at_)
      (hp : Passage.Shaped ⟨origin, text, at_, false⟩) :
      Marked line [.row at_, .passage ⟨origin, text, at_, false⟩] (at_ + text.newlines) :=
    .row hat (.singleton hp)
  cases segment with
  | literal text at_ =>
      have hlast : (literalCall text).getLast? = some ')' := by
        simp [literalCall, List.getLast?_cons]
      refine ⟨_, ?_, hcall h (shaped_call ⟨_, rfl⟩ hlast (by decide))⟩
      rw [newlines_literalCall]
      exact Nat.le_refl _
  | tag found =>
      obtain ⟨kind, body, at_, trimsIndentation, trimsNewline⟩ := found
      have hprint (raw : Bool) : Passage.Shaped ⟨.print, printCall raw body, at_, false⟩ := by
        cases raw with
        | true => exact shaped_call ⟨_, rfl⟩ (by simp [printCall, List.getLast?_cons]) (by decide)
        | false => exact shaped_call ⟨_, rfl⟩ (by simp [printCall, List.getLast?_cons]) (by decide)
      cases kind with
      | print | rawPrint =>
          refine ⟨_, ?_, hcall h (hprint _)⟩
          rw [newlines_printCall]
          exact Nat.le_refl _
      | statement =>
          simp only [segmentMarks]
          split
          · exact ⟨at_, Nat.le_add_right _ _, .leave h .nil⟩
          · exact ⟨_, Nat.le_refl _, .row h (marked_ofBody at_ body)⟩

theorem marked_segments {segments : List Segment} (h : Splitting.Ordered line segments upto) :
    ∃ last, last ≤ upto ∧ Marked line (segments.flatMap segmentMarks) last := by
  induction segments generalizing line with
  | nil => exact ⟨line, h, .nil⟩
  | cons segment rest ih =>
      obtain ⟨next, hnext, hfirst⟩ := marked_segmentMarks h.1
      obtain ⟨last, hlast, hrest⟩ := ih (h.2.mono hnext (Nat.le_refl _))
      exact ⟨last, hlast, hfirst.append hrest⟩

/-- The marks of a template lie on its lines. -/
theorem marked_marks (t : Text) : ∃ last, last ≤ t.newlines + 1 ∧ Marked 1 (marks t) last :=
  marked_segments (Splitting.ordered_ofTemplate t)

end Segments

end Draft

end TemplateEngine
