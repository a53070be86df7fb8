import TemplateEngine.Proofs.Template.RowLines
import TemplateEngine.Render.Renderer

/-!
# Failures point back

An exception that escapes the program of a template is reported with the line of a statement
or an except clause, with the line of the template that this came from, and with the rows
around it. The statement was read from a token of the source, the token lies in a row, and
the row came from the template.
-/
namespace TemplateEngine

theorem Text.newline_not_mem_lines {t line : Text} (h : line ∈ lines t) : '\n' ∉ line := by
  have hclosed : ∀ line ∈ (cutAt '\n' t).dropLast.map (dropLastIf '\r'), '\n' ∉ line := by
    intro line hline
    obtain ⟨piece, hpiece, rfl⟩ := List.mem_map.mp hline
    have hmark := not_mem_of_mem_cutAt (List.dropLast_subset _ hpiece)
    unfold dropLastIf
    split
    · exact fun hmem => hmark (List.dropLast_subset _ hmem)
    · exact hmark
  unfold lines at h
  simp only at h
  split at h
  · rename_i last hlast
    split at h
    · exact hclosed line h
    · obtain h | h := List.mem_append.mp h
      · exact hclosed line h
      · rw [List.mem_singleton.mp h]
        exact not_mem_of_mem_cutAt (List.mem_of_getLast? hlast)
  · exact hclosed line h

namespace Excerpt

theorem mem_rows (first : Nat) {i : Nat} {lines : List Text} (h : i < lines.length) :
    row (first + i) lines[i] ∈ rows first lines := by
  induction lines generalizing first i with
  | nil => cases h
  | cons line lines ih =>
      cases i with
      | zero => exact List.mem_cons_self
      | succ i =>
          have hrest := ih (first + 1) (Nat.lt_of_succ_lt_succ h)
          rw [Nat.add_right_comm, Nat.add_assoc] at hrest
          exact List.mem_cons_of_mem _ hrest

theorem newline_not_mem_row {number : Nat} {line : Text} (h : '\n' ∉ line) :
    '\n' ∉ row number line := by
  have hnumber : '\n' ∉ Text.ofNat number := fun hmem =>
    absurd (Text.isDigit_of_mem_ofNat hmem) (by decide)
  simp [row, Text.padLeft, Text.times, hnumber, h]

theorem newline_not_mem_rows {first : Nat} {lines : List Text} (h : ∀ line ∈ lines, '\n' ∉ line) :
    ∀ row ∈ rows first lines, '\n' ∉ row := by
  induction lines generalizing first with
  | nil =>
      intro row hrow
      cases hrow
  | cons line lines ih =>
      intro row hrow
      obtain rfl | hrow := List.mem_cons.mp hrow
      · exact newline_not_mem_row (h line List.mem_cons_self)
      · exact ih (fun other hother => h other (List.mem_cons_of_mem _ hother)) row hrow

/-- The window around a line that there is has a row for it. -/
theorem row_mem_window {text : Text} {line radius : Nat} (hline : 1 ≤ line)
    (hbound : line ≤ text.lines.length) (hradius : 0 < radius) :
    ∃ content, line? text line = some content ∧
      row line content ∈ Text.cutAt '\n' (window text line radius) := by
  have hindex : line - 1 < text.lines.length := by omega
  refine ⟨text.lines[line - 1], ?_, ?_⟩
  · rw [line?, if_neg (by omega), List.getElem?_eq_getElem hindex]
  · -- the lines of the window, and the place of the line among them
    let first := min (line - radius) (min (line + radius) text.lines.length)
    let shown := (text.lines.take (min (line + radius) text.lines.length)).drop first
    have hplace : line - 1 - first < shown.length := by
      simp only [shown, first, List.length_drop, List.length_take]
      omega
    have hshown : shown[line - 1 - first] = text.lines[line - 1] := by
      simp only [shown, List.getElem_drop, List.getElem_take]
      congr 1
      omega
    have hrow := mem_rows (first + 1) hplace
    have hnumber : first + 1 + (line - 1 - first) = line := by omega
    rw [hshown, hnumber] at hrow
    have hbreaks : ∀ row ∈ rows (first + 1) shown, '\n' ∉ row :=
      newline_not_mem_rows fun content hcontent =>
        Text.newline_not_mem_lines (List.mem_of_mem_take (List.mem_of_mem_drop hcontent))
    have hwindow : window text line radius = Text.join ['\n'] (rows (first + 1) shown) := rfl
    rw [hwindow, Text.cutAt_join (List.ne_nil_of_mem hrow) hbreaks]
    exact hrow

end Excerpt

/-- What a failure says about where in a program, and where in its template, it arose. -/
structure RuntimeFailure.PointsBack (p : Program) (template : Text) (f : RuntimeFailure) :
    Prop where
  /-- The line is that of a statement or an except clause. -/
  raised : f.line ∈ linesBlock p.body
  /-- The line is one of the program. -/
  inProgram : 1 ≤ f.line ∧ f.line ≤ p.source.lines.length
  /-- The template line is one of the template. -/
  inTemplate : ∃ l, f.templateLine = some l ∧ 1 ≤ l ∧ l ≤ template.lines.length
  /-- One row of the window is the line with its text. -/
  shown : ∃ content, Excerpt.line? p.source f.line = some content ∧
    Excerpt.row f.line content ∈ Text.cutAt '\n' f.window

theorem Host.unplaced_absent {ω : Type} : (Host.absent : Host ω).Unplaced := by
  intro request vars shared r shared' hrun
  cases hrun
  rfl

/-- What a page gets to know of a failed render has no line yet. -/
theorem Renderer.unplaced_hostTo (r : Renderer) (depth : Nat) : (r.hostTo depth).Unplaced := by
  intro request vars shared raised shared' hrun
  cases depth with
  | zero =>
      cases hrun
      rfl
  | succ depth =>
      unfold hostTo at hrun
      split at hrun
      · cases hrun
      · cases hrun
        rfl
      · cases hrun

namespace Program

variable {ω : Type} {host : Host ω} {p : Program}

/-- An exception that escapes a program has the line of a statement or an except clause. -/
theorem line_of_raised (hhost : host.Unplaced) {s s' : State ω} {r : Raised}
    (hrun : Run.program host p.body s = .error (.raised r) s') : r.line ∈ linesBlock p.body := by
  have hbody : (execAll host Run.maxRounds [] p.body).Blames (· ∈ linesBlock p.body)
      fun _ => True :=
    blames_execAll Run.maxRounds hhost p.body (fun line hline => hline) fun r hr => (nomatch hr)
  have hprogram : (Run.program host p.body).Blames (· ∈ linesBlock p.body) fun _ => True := by
    apply hbody.bind
    intro flow _
    exact Run.blames_pure trivial
  exact hprogram.raised hrun

/-- The failure of an exception with the line of a statement or an except clause. -/
theorem pointsBack {name t : Text} (hp : ofTemplate name t = .ok p) {r : Raised}
    (hline : r.line ∈ linesBlock p.body) : ∃ f, p.failure r = .runtime f ∧ f.PointsBack p t := by
  unfold ofTemplate at hp
  split at hp
  · cases hp
  · rename_i g hgenerated
    split at hp
    · cases hp
    · rename_i body hparse
      cases hp
      obtain ⟨tokens, htokens, hbegins⟩ := Parser.exists_begins_of_parseProgram hparse
      obtain ⟨hpos, hbound, l, hl, hrange⟩ :=
        Generated.exists_templateLine hgenerated htokens (hbegins r.line hline)
      refine ⟨_, rfl, hline, ⟨hpos, hbound⟩, ⟨l, ?_, hrange⟩, ?_⟩
      · have hne : r.line ≠ 0 := Nat.ne_of_gt hpos
        simp only [templateLine?, if_neg hne, hl]
      · exact Excerpt.row_mem_window hpos hbound (by decide)

/-- Every failure of a compiled template points back into the program and the template, however
the exception came about. -/
theorem render_pointsBack {source : Source} (hp : source.compile = .ok p) (hhost : host.Unplaced)
    (site : Site) (vars : Entries Value) {shared after : Shared ω} {error : TemplateError}
    (hrender : p.render host site vars shared = .error (.template error) after) :
    ∃ f, error = .runtime f ∧ f.PointsBack p source.text := by
  unfold render at hrender
  split at hrender
  · cases hrender
  · rename_i r s hrun
    cases hrender
    exact pointsBack hp (line_of_raised hhost hrun)
  · cases hrender

/-- A template whose except clause names nothing that there is. -/
def unmatched : Text := "a\n<%try:%><%x%><%except y:%><%pass%><%end%>"

/-- A renderer without a directory or globals, and the state in which it starts. -/
def plainRenderer : Renderer := ⟨none, none, ⟨[], none⟩, .utf8⟩

/-- The lines of the failure that rendering a source ends in. -/
def failureLines? (source : Source) : Option (Nat × Option Nat) :=
  match source.compile with
  | .error _ => none
  | .ok p =>
    match p.render plainRenderer.host plainRenderer.site [] ⟨.empty, .ofFiles .fresh 0⟩ with
    | .error (.template (.runtime f)) _ => some (f.line, f.templateLine)
    | _ => none

theorem render_pointsBack_matcher :
    ∃ p f after, (Source.ofText unmatched).compile = .ok p ∧ plainRenderer.host.Unplaced ∧
      p.render plainRenderer.host plainRenderer.site [] ⟨.empty, .ofFiles .fresh 0⟩ =
        .error (.template (.runtime f)) after ∧
      f.line = 5 ∧ f.templateLine = some 2 ∧ f.PointsBack p unmatched := by
  have hlines : failureLines? (Source.ofText unmatched) = some (5, some 2) := by decide +kernel
  have hhost := plainRenderer.unplaced_hostTo Renderer.maxNested
  unfold failureLines? at hlines
  split at hlines
  · cases hlines
  · rename_i p hp
    split at hlines
    · rename_i f after hrender
      obtain ⟨hline, htemplate⟩ := Prod.mk.inj (Option.some.inj hlines)
      obtain ⟨g, hg, hback⟩ := render_pointsBack hp hhost plainRenderer.site [] hrender
      cases hg
      exact ⟨p, f, after, hp, hhost, hrender, hline, htemplate, hback⟩
    · cases hlines

end Program

end TemplateEngine
