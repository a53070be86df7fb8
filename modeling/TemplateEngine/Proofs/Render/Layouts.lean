import TemplateEngine.Proofs.Render.CurrentFiles
import TemplateEngine.Proofs.Render.Inclusions
import TemplateEngine.Proofs.Render.Library
import TemplateEngine.Proofs.Template.ClosingPrint

/-!
# Pages in layouts

A page that ends in a call for a layout is put into the layout: what it appended so far is
taken back and becomes the body, and the layout sees all that the page sees. A renderer can do
the same from outside, by rendering the page and then the layout, but there the layout only
sees what the caller gave the page. So the two agree on a page that assigns nothing, as long as
the layout does not nest as many renders as there may be; a page that assigns something sets
them apart.

A page takes its layout by a tag at its end, which is read as a statement of its own after those of
the page. A page that leaves the names that it was given as they are comes to the same by its tag
and from outside of it. One that assigns a name does not: its layout sees the name only by the tag.
-/
namespace TemplateEngine

namespace Layout

/-- The call by which a page puts itself into a layout. -/
def call (layout : Text) : Expr := .call Inclusion.withLayout.expr [.constant (.str layout)] []

/-- The statement of a tag that prints the call. -/
def statement (line : Nat) (layout : Text) : Stmt := Printing.statement line (call layout)

/-- What a layout is given: its body, besides what it sees anyway. -/
def vars (body : Text) (visible : Entries Value) : Entries Value :=
  Entries.put "body" (.markup body) visible

/-- A page without output, after what was done outside of its scope. -/
def drained {ω : Type} (s : State ω) (shared : Shared ω) : State ω :=
  ⟨shared, { s.scope with chunks := #[] }⟩

section Call

variable {ω : Type} (host : Host ω) {layout : Text} {s : State ω} {shared : Shared ω}

/-- The output so far is taken back for the body, and the host asked for the layout. -/
theorem layout_eq : Inclusion.layout host layout s =
    match host (.file layout) (vars s.scope.output s.scope.visible) s.toShared with
    | .ok t shared => .ok t (drained s shared)
    | .error stop shared => .error stop (drained s shared) := by
  have htaken : s.scope.takeSince 0 = (s.scope.output, { s.scope with chunks := #[] }) := by
    simp [Scope.takeSince, Scope.output]
  have htake : Run.takeSince 0 s = .ok s.scope.output (drained s s.toShared) := by
    unfold Run.takeSince
    rw [htaken]
    rfl
  unfold Inclusion.layout
  rw [Run.bind_ok htake]
  rfl

/-- The value of the call is the text of the layout. -/
theorem eval_call (hreachable : Inclusion.withLayout.Reachable s) : (call layout).eval host s =
    match host (.file layout) (vars s.scope.output s.scope.visible) s.toShared with
    | .ok t shared => .ok (.markup t) (drained s shared)
    | .error stop shared => .error stop (drained s shared) := by
  have hargs : evalAll host [.constant (.str layout)] s = .ok [.str layout] s := by
    simp only [evalAll, Expr.eval]
    rfl
  have hcall : (call layout).eval host s =
      (Inclusion.layout host layout >>= fun t => pure (.markup t)) s := by
    rw [call, Expr.eval, Run.bind_ok (Inclusion.eval_expr host hreachable), Run.bind_ok hargs,
      evalKeywords]
    rfl
  have hlayout : Inclusion.layout host layout s = _ := layout_eq host
  rw [hcall]
  cases hhost : host (.file layout) (vars s.scope.output s.scope.visible) s.toShared with
  | ok t shared =>
      rw [hhost] at hlayout
      exact Run.bind_ok hlayout
  | error stop shared =>
      rw [hhost] at hlayout
      exact Run.bind_error _ hlayout

/-- The text of the layout is all of the output afterwards. -/
theorem exec_statement (hreachable : Inclusion.withLayout.Reachable s) (fuel line : Nat) {t : Text}
    (hhost : host (.file layout) (vars s.scope.output s.scope.visible) s.toShared =
      .ok t shared) :
    (statement line layout).exec host fuel [] s =
      .ok .normal ⟨shared, { s.scope with chunks := #[t] }⟩ := by
  have hcall : (call layout).eval host s = _ := eval_call host hreachable
  rw [hhost] at hcall
  exact Printing.exec_statement host hcall fuel line

/-- A layout without a text leaves the page without one. -/
theorem exec_statement_error (hreachable : Inclusion.withLayout.Reachable s) (fuel line : Nat)
    {stop : Stop} (hhost : host (.file layout) (vars s.scope.output s.scope.visible) s.toShared =
      .error stop shared) :
    (statement line layout).exec host fuel [] s =
      .error (stop.atLine line) (drained s shared) := by
  have hcall : (call layout).eval host s = _ := eval_call host hreachable
  rw [hhost] at hcall
  exact Printing.exec_statement_error host hcall fuel line

end Call

section Pages

variable {ω : Type} (host : Host ω) {p q : Program} {layout : Text} {line : Nat} {site : Site}
  {given : Entries Value} {shared : Shared ω} {s : State ω}

theorem execAll_append {fuel : Nat} {stmts : List Stmt} (others : List Stmt) {s₀ : State ω}
    (h : execAll host fuel [] stmts s₀ = .ok .normal s) :
    execAll host fuel [] (stmts ++ others) s₀ = execAll host fuel [] others s := by
  induction stmts generalizing s₀ with
  | nil =>
      rw [execAll] at h
      obtain ⟨-, rfl⟩ := EStateM.Result.ok.inj h
      rfl
  | cons stmt stmts ih =>
      rw [execAll] at h
      rw [List.cons_append, execAll]
      cases hstmt : stmt.exec host fuel [] s₀ with
      | error stop s' =>
          rw [Run.bind_error _ hstmt] at h
          exact nomatch h
      | ok flow s' =>
          rw [Run.bind_ok hstmt] at h ⊢
          cases flow with
          | normal => exact ih h
          | breakLoop => exact nomatch (EStateM.Result.ok.inj h).1
          | continueLoop => exact nomatch (EStateM.Result.ok.inj h).1

/-- A page that runs to its end and then calls for a layout has a text if and only if the layout
has, and then the same. -/
theorem render_statement (hbody : q.body = p.body ++ [statement line layout])
    (hran : execAll host Run.maxRounds [] p.body (Program.begin site given shared) =
      .ok .normal s) (hreachable : Inclusion.withLayout.Reachable s) (out : Text) :
    (∃ after, q.render host site given shared = .ok out after) ↔
      ∃ after, host (.file layout) (vars s.scope.output s.scope.visible) s.toShared =
        .ok out after := by
  have hrun : Run.program host q.body (Program.begin site given shared) =
      ((statement line layout).exec host Run.maxRounds [] >>= fun _ => pure ()) s := by
    have hall := execAll_append host [statement line layout] hran
    rw [← hbody, execAll_singleton] at hall
    show EStateM.bind _ _ _ = EStateM.bind _ _ _
    unfold EStateM.bind
    rw [hall]
  unfold Program.render
  rw [hrun]
  cases hhost : host (.file layout) (vars s.scope.output s.scope.visible) s.toShared with
  | ok t after =>
      have houtput : ({ s.scope with chunks := #[t] } : Scope).output = t := by
        simp [Scope.output]
      rw [Run.bind_ok (exec_statement host hreachable Run.maxRounds line hhost)]
      dsimp only [pure, EStateM.pure]
      rw [houtput]
      simp
  | error stop after =>
      rw [Run.bind_error _ (exec_statement_error host hreachable Run.maxRounds line hhost)]
      cases stop <;> simp [Stop.atLine]

/-- A page that runs to its end has the output it has there as its text. -/
theorem render_ran (hran : execAll host Run.maxRounds [] p.body
    (Program.begin site given shared) = .ok .normal s) :
    p.render host site given shared = .ok s.scope.output s.toShared := by
  unfold Program.render Run.program
  rw [Run.bind_ok hran]
  rfl

end Pages

end Layout

namespace Renderer

open Layout

variable {r : Renderer} {lib : Library} {kept : Workspace → Prop}

theorem exists_settled {α : Type} (x : Rendering Workspace α) (s : Shared Workspace) (a : α) :
    (∃ after, settled x s = .ok a after) ↔ ∃ after, x s = .ok a after := by
  unfold settled
  cases x s <;> simp

/-- What the pages of a renderer come to at its first level, a library tells. -/
theorem Serves.realizes_host (hserves : r.Serves lib kept) :
    Host.Realizes kept (lib.hostOver r.site .refusing maxNested) r.host := by
  have h := hserves.realizes_hostOver (realizes_refusing kept r) maxNested
  rwa [Nat.zero_add] at h

/-- A text that a page is rendered to in a layout, from inside or outside. The page, run to its end,
leaves `s`, in which it sees no more than the caller gave it, and the layout comes to something
without nesting as many renders as there may be. -/
theorem renderFile_iff_renderWithLayout (hserves : r.Serves lib kept) {page full layout : Text}
    {p q : Program} {line : Nat} (hpage : lib page = some (.ok p)) (hfull : lib full = some (.ok q))
    (hbody : q.body = p.body ++ [statement line layout]) {given : Entries Value} {heap : Heap}
    {s : State Unit} (hran : execAll (lib.hostOver r.site .refusing maxNested) Run.maxRounds []
      p.body (Program.begin r.site given ⟨heap, ()⟩) = .ok .normal s)
    (hreachable : Inclusion.withLayout.Reachable s) (hvisible : s.scope.visible = given)
    (hlayout : ∀ after, lib.renderWith r.site (lib.hostOver r.site .silent (maxNested - 1))
      (.file layout) (vars s.scope.output given) s.toShared ≠ .error .outOfFuel after)
    {w : Workspace} (hw : kept w) (out : Text) :
    (∃ after, r.renderFile full given ⟨heap, w⟩ = .ok out after) ↔
      ∃ after, r.renderWithLayout layout page given ⟨heap, w⟩ = .ok out after := by
  have hhost := hserves.realizes_host
  -- what the page comes to wherever its program is run
  have hrun {w : Workspace} (hw : kept w) : ∃ w', kept w' ∧
      execAll r.host Run.maxRounds [] p.body (Program.begin r.site given ⟨heap, w⟩) =
        .ok .normal (s.within w') := by
    have h := related_execAll Run.maxRounds (Run.fullyParametric_realizes kept) hhost.related []
      p.body (Program.begin r.site given ⟨heap, ()⟩) w hw
    rw [hran] at h
    exact h.exists_of_ok
  -- what the layout comes to after the page, one level deeper or not
  have hrendered (above : Nat) {w : Workspace} (hw : kept w) :=
    (hserves.realizes_renderWith (hserves.realizes_hostOver
      (realizes_silent kept (r.hostTo above)) (maxNested - 1)) (.file layout)
      (vars s.scope.output given) s.toShared w hw).exists_ok hlayout out
  have hinside : (∃ after, r.renderFile full given ⟨heap, w⟩ = .ok out after) ↔
      ∃ after, lib.renderWith r.site (lib.hostOver r.site .silent (maxNested - 1)) (.file layout)
        (vars s.scope.output given) s.toShared = .ok out after := by
    obtain ⟨loaded, w₁, hw₁, rfl, hload⟩ := hserves.load_ok hfull hw
    obtain ⟨w₂, hw₂, hran'⟩ := hrun hw₁
    rw [renderFile, renderFileIn, exists_settled, renderWith_file, hload]
    dsimp only
    have hreachable' : Inclusion.withLayout.Reachable (s.within w₂) := hreachable
    rw [render_statement r.host hbody hran' hreachable']
    have hvisible' : (s.within w₂).scope.visible = given := hvisible
    rw [hvisible']
    have hlevel : r.host = r.hostTo (maxNested - 1 + 1) := rfl
    rw [hlevel, hostTo_succ, Rendering.exists_answer, ← hrendered 0 hw₂, Nat.zero_add]
    rfl
  have houtside : (∃ after, r.renderWithLayout layout page given ⟨heap, w⟩ = .ok out after) ↔
      ∃ after, lib.renderWith r.site (lib.hostOver r.site .silent (maxNested - 1)) (.file layout)
        (vars s.scope.output given) s.toShared = .ok out after := by
    obtain ⟨loaded, w₁, hw₁, rfl, hload⟩ := hserves.load_ok hpage hw
    obtain ⟨w₂, hw₂, hran'⟩ := hrun hw₁
    have hpaged : r.renderWith r.host r.encoding (.file page) given ⟨heap, w⟩ =
        .ok s.scope.output (s.toShared.within w₂) := by
      rw [renderWith_file, hload]
      exact render_ran r.host hran'
    have hafter : (r.renderWith r.host r.encoding (.file page) given >>= fun body =>
        r.renderWith r.host r.encoding (.file layout) (vars body given)) ⟨heap, w⟩ =
          r.renderWith r.host r.encoding (.file layout) (vars s.scope.output given)
            (s.toShared.within w₂) := by
      show EStateM.bind _ _ _ = _
      unfold EStateM.bind
      rw [hpaged]
    rw [renderWithLayout, exists_settled]
    unfold vars at hafter
    rw [hafter, ← hrendered 1 hw₂]
    rfl
  rw [hinside, houtside]

end Renderer

namespace Layout

open Draft Lexer TemplateEngine.Parser

/-- What is between the delimiters of the tag. -/
def tagBody (layout : Text) : Text :=
  " renderer.with_layout(".toList ++ '\'' :: (layout ++ '\'' :: ") ".toList)

/-- The tag that prints the call for a layout. -/
def tag (layout : Text) : Text := "<%=".toList ++ (tagBody layout ++ "%>".toList)

/-- A text whose program goes on to the statement of the tag, when the tag follows it. -/
def Takes (t layout : Text) : Prop :=
  ∀ name, ∃ p q line, Program.ofTemplate name t = .ok p ∧
    Program.ofTemplate name (t ++ tag layout) = .ok q ∧ q.body = p.body ++ [statement line layout]

/-- A name that stands between single quotes as it is. -/
def Plain (layout : Text) : Prop := ∀ c ∈ layout, c ∉ ['\'', '\\', '\n', '\r', '\t']

/-- The lexemes of the line that the tag becomes. -/
def lexemes (layout : Text) : List Lexeme := Inclusion.withLayout.printLexemes [.quoted layout]

section Tag

variable {layout : Text}

theorem encode_of_plain (hlayout : Plain layout) :
    Quoted.encode layout = '\'' :: (layout ++ ['\'']) := by
  have hmark : Quoted.mark layout = '\'' := by
    have hquote : layout.contains '\'' = false := by
      simpa using fun h => hlayout _ h List.mem_cons_self
    rw [Quoted.mark, hquote]
    rfl
  have hchars : layout.flatMap (Quoted.encodeChar '\'') = layout := by
    have hchar : ∀ c ∈ layout, Quoted.encodeChar '\'' c = [c] := by
      intro c hc
      have hplain := hlayout c hc
      simp only [List.mem_cons, List.not_mem_nil, or_false, not_or] at hplain
      obtain ⟨hquote, hslash, hline, hreturn, htab⟩ := hplain
      rw [Quoted.encodeChar, if_neg hslash, if_neg hline, if_neg hreturn, if_neg htab,
        if_neg hquote]
    rw [List.flatMap_congr hchar, List.flatMap_singleton']
  rw [Quoted.encode, hmark, hchars, List.cons_append]

theorem line_lexemes (hlayout : Plain layout) :
    Lexeme.line (lexemes layout) = printCall false (tagBody layout) := by
  have hline : Lexeme.line (lexemes layout) =
      "__buffer_append(__filter( renderer.with_layout(".toList ++
        (Quoted.encode layout ++ (") ".toList ++ "))".toList)) := rfl
  have hcode : printCall false (tagBody layout) =
      "__buffer_append(__filter( renderer.with_layout(".toList ++
        '\'' :: ((layout ++ '\'' :: ") ".toList) ++ "))".toList) := rfl
  have hassoc (a b c : Text) : a ++ ('\'' :: (layout ++ ['\'']) ++ (b ++ c)) =
      a ++ '\'' :: ((layout ++ '\'' :: b) ++ c) := by simp
  rw [hline, hcode, encode_of_plain hlayout, hassoc]

theorem fits_lexemes (layout rest : Text) : Lexeme.fits (lexemes layout) rest := by
  refine Inclusion.fits_printLexemes _ ⟨?_, trivial⟩
  intro c hc
  obtain rfl : ')' = c := Option.some.inj hc
  decide

theorem reads_statement {depth : Nat} (layout : Text) (p : Position) (s : Span) :
    Reads depth (Lexeme.tokens p (lexemes layout) ++ [⟨.newline, s⟩])
      (statement p.line layout) := by
  refine ⟨⟨_, _, rfl, rfl⟩, fun inLoop rest _ => ?_⟩
  have h : Parser.statement (blockBody depth) inLoop
      (Lexeme.tokens p (lexemes layout) ++ [⟨.newline, s⟩] ++ rest) =
        .ok (statement p.line (layout ++ []), rest) := rfl
  rwa [List.append_nil] at h

/-- The body of the tag is read to its end: the name is a quoted run. -/
theorem body?_tagBody (hlayout : Plain layout) :
    Segment.body? 0 (tagBody layout ++ "%>".toList) = some (tagBody layout, false, []) := by
  have hquoted : ∀ c ∈ layout, c ≠ '\'' ∧ c ≠ '\\' := by
    intro c hc
    have hplain := hlayout c hc
    simp only [List.mem_cons, not_or] at hplain
    exact ⟨hplain.1, hplain.2.1⟩
  have hbefore : " renderer.with_layout(".toList.all Segment.isPlain = true := by
    decide +kernel
  have hbehind : ") ".toList.all Segment.isPlain = true := by decide
  have hsplit : tagBody layout ++ "%>".toList = " renderer.with_layout(".toList ++
      '\'' :: (layout ++ '\'' :: (") ".toList ++ "%>".toList)) := by
    have hassoc (a b c : Text) : (a ++ '\'' :: (layout ++ '\'' :: b)) ++ c =
        a ++ '\'' :: (layout ++ '\'' :: (b ++ c)) := by simp
    exact hassoc _ _ _
  rw [hsplit, Segment.body?_plain hbefore, Segment.body?_quoted (by decide) hquoted,
    Segment.body?_plain hbehind]
  rfl

/-- The tag as a print at the end of a template. -/
def print (hlayout : Plain layout) : Outline.ClosingPrint where
  body := tagBody layout
  lexemes := lexemes layout
  expr := call layout
  line_lexemes := line_lexemes hlayout
  fits_lexemes := fun rest => fits_lexemes layout ('\n' :: rest)
  brackets_lexemes := rfl
  reads := fun _ p s => reads_statement layout p s
  visible := rfl
  opener_body := rfl
  body?_body := body?_tagBody hlayout

/-- Every template with an outline takes the tag of a layout. -/
theorem takes_written {items : List Outline.Item} (hitems : Outline.Valid items)
    (hdepth : Outline.nesting items ≤ maxBlockDepth) (hlayout : Plain layout) :
    Takes (Outline.written items) layout := by
  intro name
  obtain ⟨p, hp, -, hbody, -⟩ := Outline.program_written name hitems hdepth
  obtain ⟨q, line, hq, -, hbody'⟩ :=
    Outline.program_closingPrint name hitems hdepth (print hlayout)
  exact ⟨p, q, line, hp, hq, by rw [hbody, hbody']; rfl⟩

end Tag

end Layout

/-- A file that is read as a text stands for the program of the text. -/
theorem Library.ofFiles_eq {r : Renderer} {files : FileTree} {names : List Text} {name t : Text}
    {stamp : Option Nat} (hname : name ∈ names) (hfile : Source.ofFile files (r.resolve name)
      r.encoding = .ok ⟨t, some (r.resolve name), stamp, r.encoding⟩) :
    Library.ofFiles r files names name = some (Program.ofTemplate (r.resolve name) t) := by
  rw [Library.ofFiles, if_pos hname, hfile]
  rfl

/-- The text that a render gives, if it gives one. -/
def Rendering.text? {ω : Type} (x : Rendering ω Text) (s : Shared ω) : Option Text :=
  match x s with
  | .ok t _ => some t
  | .error _ _ => none

theorem Rendering.text?_eq_some {ω : Type} (x : Rendering ω Text) (s : Shared ω) (t : Text) :
    x.text? s = some t ↔ ∃ after, x s = .ok t after := by
  unfold Rendering.text?
  cases x s <;> simp

namespace Renderer

open Layout

/-- What a page text leaves behind that runs to its end, with its templates from a library. -/
def LeavesBehind (r : Renderer) (lib : Library) (t : Text) (given : Entries Value) (heap : Heap)
    (s : State Unit) : Prop :=
  ∃ p, (Source.ofText t).compile = .ok p ∧
    execAll (lib.hostOver r.site .refusing maxNested) Run.maxRounds [] p.body
      (Program.begin r.site given ⟨heap, ()⟩) = .ok .normal s

variable {r : Renderer} {lib : Library} {kept : Workspace → Prop}

/-- A page text that leaves the names that it is given as they are comes to the same by a tag for
its layout and from outside of it, as long as the layout does not nest as many renders as there may
be. -/
theorem layouts_agree (hserves : r.Serves lib kept) {page full layout t : Text}
    (htakes : Takes t layout) (hpage : lib page = some (Program.ofTemplate (r.resolve page) t))
    (hfull : lib full = some (Program.ofTemplate (r.resolve full) (t ++ tag layout)))
    {given : Entries Value} {heap : Heap} {s : State Unit}
    (hleaves : r.LeavesBehind lib t given heap s)
    (hreachable : Inclusion.withLayout.Reachable s) (hvisible : s.scope.visible = given)
    (hlayout : ∀ after, lib.renderWith r.site (lib.hostOver r.site .silent (maxNested - 1))
      (.file layout) (vars s.scope.output given) s.toShared ≠ .error .outOfFuel after)
    {w : Workspace} (hw : kept w) :
    (r.renderFile full given).text? ⟨heap, w⟩ =
      (r.renderWithLayout layout page given).text? ⟨heap, w⟩ := by
  obtain ⟨p', hp', hran⟩ := hleaves
  obtain ⟨p, q, line, hp, hq, hbody⟩ := htakes Program.anonymous
  obtain rfl : p' = p := Except.ok.inj (hp'.symm.trans hp)
  have hpage' := (Program.ofTemplate_rename hp (r.resolve page)).2
  have hfull' := (Program.ofTemplate_rename hq (r.resolve full)).2
  rw [hpage'] at hpage
  rw [hfull'] at hfull
  apply Option.ext
  intro out
  rw [Rendering.text?_eq_some, Rendering.text?_eq_some]
  exact renderFile_iff_renderWithLayout hserves hpage hfull hbody hran hreachable hvisible hlayout
    hw out

/-- The bytes of a text of small code points. -/
def byteText (t : Text) : Bytes := t.map fun c => c.toNat.toUInt8

/-- A page, the page with a tag for a layout, and the layout. -/
def layoutFiles (page layout : Text) : FileTree :=
  ((FileTree.fresh.write "page.html" (byteText page) 1).write "full.html"
    (byteText (page ++ tag "layout.html")) 1).write "layout.html" (byteText layout) 1

/-- The names of these files. -/
def layoutNames : List Text := ["page.html", "full.html", "layout.html"]

/-- A page of text, in a layout that puts brackets around it. -/
def bracketed : FileTree := layoutFiles "<b>hi</b>" "[<%= body %>]"

/-- What the page leaves behind: its text, and an identity for its filter. -/
def bracketedEnd : State Unit :=
  ⟨⟨⟨#[], #[], #[inclusions], 1⟩, ()⟩,
    { Scope.start bare.site [] 0 with chunks := #["<b>hi</b>"] }⟩

/-- The programs of the files. -/
def bracketedLibrary : Library := .ofFiles bare bracketed layoutNames

theorem bracketedLibrary_layout (after : Shared Unit) :
    bracketedLibrary.renderWith bare.site
      (bracketedLibrary.hostOver bare.site .silent (maxNested - 1)) (.file "layout.html")
      (vars bracketedEnd.scope.output []) bracketedEnd.toShared ≠ .error .outOfFuel after := by
  have hends : Rendering.ends (bracketedLibrary.renderWith bare.site
      (bracketedLibrary.hostOver bare.site .silent (maxNested - 1)) (.file "layout.html")
      (vars bracketedEnd.scope.output [])) bracketedEnd.toShared = true := by decide +kernel
  exact Rendering.ne_outOfFuel hends after

theorem layouts_agree_bracketed :
    (bare.renderFile "full.html" []).text? ⟨bareState.heap, .ofFiles bracketed 1⟩ =
      some "[<b>hi</b>]" ∧
    (bare.renderWithLayout "layout.html" "page.html" []).text?
      ⟨bareState.heap, .ofFiles bracketed 1⟩ = some "[<b>hi</b>]" := by
  have hserves : bare.Serves bracketedLibrary (bare.Abreast bracketed layoutNames) :=
    serves_ofFiles rfl (by decide)
  have hitems : Outline.Valid [.text "<b>hi</b>"] := by
    simp [Outline.Valid, Outline.Item.Valid]
  have hplain : Plain "layout.html" := by
    have hall : "layout.html".toList.all
        fun c => !(['\'', '\\', '\n', '\r', '\t'].contains c) := by decide +kernel
    intro c hc
    simpa using List.all_eq_true.mp hall c hc
  have hwritten : Outline.written [.text "<b>hi</b>"] = "<b>hi</b>".toList := by decide +kernel
  have htakes : Takes "<b>hi</b>" "layout.html" := by
    have h := takes_written hitems (Nat.zero_le _) hplain
    rwa [hwritten] at h
  have hpage : bracketedLibrary "page.html" = some (Program.ofTemplate _ "<b>hi</b>") :=
    Library.ofFiles_eq (by decide) (by decide +kernel : Source.ofFile bracketed "page.html" .utf8 =
      .ok ⟨"<b>hi</b>", some "page.html".toList, some 1, .utf8⟩)
  have hfull : bracketedLibrary "full.html" =
      some (Program.ofTemplate _ ("<b>hi</b>" ++ tag "layout.html")) :=
    Library.ofFiles_eq (by decide) (by decide +kernel : Source.ofFile bracketed "full.html" .utf8 =
      .ok ⟨"<b>hi</b>" ++ tag "layout.html", some "full.html".toList, some 1, .utf8⟩)
  have hleaves : bare.LeavesBehind bracketedLibrary "<b>hi</b>" [] bareState.heap bracketedEnd := by
    obtain ⟨p, hp, -, hbody, -⟩ :=
      Outline.program_written Program.anonymous hitems (Nat.zero_le _)
    refine ⟨p, hp, ?_⟩
    rw [hbody]
    rfl
  have hreachable : Inclusion.withLayout.Reachable bracketedEnd := ⟨0, rfl, rfl⟩
  have hagree := layouts_agree hserves htakes hpage hfull hleaves hreachable rfl
    bracketedLibrary_layout (abreast_ofFiles bare bracketed layoutNames 1)
  have houtside : (bare.renderWithLayout "layout.html" "page.html" []).text?
      ⟨bareState.heap, .ofFiles bracketed 1⟩ = some "[<b>hi</b>]" := by decide +kernel
  exact ⟨hagree.trans houtside, houtside⟩

/-- A page that assigns a name, in a layout that prints it. -/
def assigned : FileTree := layoutFiles "<% x = 1 %>" "<%= x %>"

/-- What a page assigns, its layout sees by the tag only. -/
theorem layouts_differ :
    (bare.renderFile "page.html" []).text? ⟨bareState.heap, .ofFiles assigned 1⟩ = some [] ∧
    (bare.renderFile "full.html" []).text? ⟨bareState.heap, .ofFiles assigned 1⟩ ≠
      (bare.renderWithLayout "layout.html" "page.html" []).text?
        ⟨bareState.heap, .ofFiles assigned 1⟩ := by
  decide +kernel

end Renderer

end TemplateEngine
