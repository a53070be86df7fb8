import TemplateEngine.Proofs.Script.Printing
import TemplateEngine.Proofs.Template.Program

/-!
# Templates without blocks

A template of literal texts and prints of names comes out as its texts and what
the names mean, whatever characters the texts hold once the delimiters in them
are escaped. The texts may be empty, so an outline is made of those that are not.
-/
namespace TemplateEngine

namespace Outline

/-- A print of a name, what it shows, and the literal text that comes after it. -/
structure Print where
  raw : Bool
  name : Name
  shown : Text
  after : Text

/-- A print as it is written, with the text after it. -/
def Print.written (print : Print) : Text :=
  (Part.print print.raw print.name).written ++ Segment.escapeDelimiters print.after

/-- The item of a text, unless it is empty. -/
def textItems (t : Text) : List Item := if t.isEmpty then [] else [.text t]

/-- The chunks of a text, unless it is empty. -/
def textChunks (t : Text) : List Text := if t.isEmpty then [] else [t]

/-- The items of a text and prints after it. -/
def flatItems (t : Text) (prints : List Print) : List Item :=
  textItems t ++ prints.flatMap fun print =>
    .print print.raw print.name :: textItems print.after

/-- The chunks of a text and prints after it. -/
def flatChunks (t : Text) (prints : List Print) : List Text :=
  textChunks t ++ prints.flatMap fun print => print.shown :: textChunks print.after

theorem written_append (items others : List Item) :
    written (items ++ others) = written items ++ written others := by
  unfold written
  induction items with
  | nil => rfl
  | cons item items ih =>
      simp only [List.cons_append, parts, List.flatMap_append, ih, List.append_assoc]

theorem written_textItems (t : Text) :
    written (textItems t) = Segment.escapeDelimiters t := by
  cases t with
  | nil => rfl
  | cons c t =>
      simp only [textItems, List.isEmpty_cons, Bool.false_eq_true, if_false, written, parts,
        Item.parts, List.append_nil, List.flatMap_cons, List.flatMap_nil, Part.written]

theorem written_flatItems (t : Text) (prints : List Print) :
    written (flatItems t prints) =
      Segment.escapeDelimiters t ++ prints.flatMap Print.written := by
  have hprints : written (prints.flatMap fun print =>
      .print print.raw print.name :: textItems print.after) = prints.flatMap Print.written := by
    induction prints with
    | nil => rfl
    | cons print prints ih =>
        have hprint : written (.print print.raw print.name :: textItems print.after) =
            print.written := by
          rw [Print.written, ← written_textItems print.after]
          rfl
        rw [List.flatMap_cons, List.flatMap_cons, written_append, hprint, ih]
  rw [flatItems, written_append, written_textItems, hprints]

theorem flatten_textChunks (t : Text) : (textChunks t).flatten = t := by
  cases t with
  | nil => rfl
  | cons c t => simp [textChunks]

theorem flatten_flatChunks (t : Text) (prints : List Print) :
    (flatChunks t prints).flatten =
      t ++ prints.flatMap fun print => print.shown ++ print.after := by
  rw [flatChunks, List.flatten_append, flatten_textChunks]
  congr 1
  induction prints with
  | nil => rfl
  | cons print prints ih =>
      rw [List.flatMap_cons, List.flatMap_cons, List.flatten_append, List.flatten_cons,
        flatten_textChunks, ih]

theorem valid_textItems {t : Text} {items : List Item} (hitems : Valid items)
    (hfirst : ∀ item ∈ items.head?, item.isText = false) : Valid (textItems t ++ items) := by
  cases t with
  | nil => exact hitems
  | cons c t => exact ⟨List.cons_ne_nil c t, fun _ => hfirst, hitems⟩

theorem valid_flatItems (t : Text) (prints : List Print) : Valid (flatItems t prints) := by
  induction prints generalizing t with
  | nil => exact valid_textItems trivial (by simp)
  | cons print prints ih =>
      apply valid_textItems
      · exact ⟨trivial, (fun h => by cases h), ih print.after⟩
      · intro item hitem
        have hitem : Item.print print.raw print.name = item := Option.some.inj hitem
        rw [← hitem]
        rfl

theorem nesting_append (items others : List Item) :
    nesting (items ++ others) = max (nesting items) (nesting others) := by
  induction items with
  | nil => simp [nesting]
  | cons item items ih => rw [List.cons_append, nesting, nesting, ih, Nat.max_assoc]

theorem nesting_textItems (t : Text) : nesting (textItems t) = 0 := by
  cases t <;> rfl

theorem nesting_flatItems (t : Text) (prints : List Print) :
    nesting (flatItems t prints) = 0 := by
  induction prints generalizing t with
  | nil => rw [flatItems, nesting_append, nesting_textItems]; rfl
  | cons print prints ih =>
      have hrest : nesting (.print print.raw print.name :: flatItems print.after prints) = 0 := by
        rw [nesting, ih print.after]
        rfl
      have hitems : flatItems t (print :: prints) =
          textItems t ++ .print print.raw print.name :: flatItems print.after prints := rfl
      rw [hitems, nesting_append, nesting_textItems, hrest]
      rfl

end Outline

namespace Printing

open Outline

variable {ω : Type}

theorem appends_textItems {begun : State ω} {site : Site} (t : Text) :
    List.Forall₂ (Appends begun site) (textItems t) (textChunks t) := by
  cases t with
  | nil => exact .nil
  | cons c t => exact .cons rfl .nil

theorem appends_flatItems {begun : State ω} {site : Site} (t : Text) {prints : List Print}
    (h : ∀ print ∈ prints, Shows begun site print.raw print.name.text print.shown) :
    List.Forall₂ (Appends begun site) (flatItems t prints) (flatChunks t prints) := by
  apply List.rel_append (appends_textItems t)
  induction prints with
  | nil => exact .nil
  | cons print prints ih =>
      apply List.rel_append
      · exact .cons (h print List.mem_cons_self) (appends_textItems print.after)
      · exact ih fun other hother => h other (List.mem_cons_of_mem print hother)

/-- The page of a template without blocks: its texts, and what its prints show. -/
theorem renderText_flatItems (name t : Text) (prints : List Print) (site : Site)
    (vars : Entries Value) (shared : Shared Unit)
    (h : ∀ print ∈ prints, Shows (Program.begin site vars shared) site print.raw
      print.name.text print.shown) :
    ∃ after, renderText name (written (flatItems t prints)) site vars shared =
      .ok (flatChunks t prints).flatten after := by
  obtain ⟨p, hp, -, hbody, -⟩ := program_written name (valid_flatItems t prints)
    (Nat.le_trans (Nat.le_of_eq (nesting_flatItems t prints)) (Nat.zero_le _))
  have hstart := Since.refl (Program.begin site vars shared)
  obtain ⟨s', hexec, -, hchunks⟩ := exec_translate Host.absent Run.maxRounds Place.row rfl
    (appends_flatItems t h) .start hstart
  have hrun : Run.program Host.absent p.body (Program.begin site vars shared) = .ok () s' := by
    unfold Run.program
    rw [hbody, Run.bind_ok hexec]
    rfl
  refine ⟨s'.toShared, ?_⟩
  unfold renderText Program.render
  rw [hp]
  simp only [hrun]
  have houtput : s'.scope.output = (flatChunks t prints).flatten := by
    unfold Scope.output
    rw [hchunks]
    rfl
  rw [houtput]

/-- Every text can be written so that it comes out as it is, around prints of names that
come out as what the names mean. -/
theorem renderText_verbatim (name t : Text) (prints : List Print) (site : Site)
    (vars : Entries Value) (shared : Shared Unit)
    (h : ∀ print ∈ prints, ∃ v begun,
      Run.lookup print.name.text (Program.begin site vars shared) = .ok v begun ∧
        begun.heap.Acyclic v ∧ print.shown = site.shown print.raw v (begun.heap.display v)) :
    ∃ after, renderText name (Segment.escapeDelimiters t ++ prints.flatMap Print.written)
        site vars shared =
      .ok (t ++ prints.flatMap fun print => print.shown ++ print.after) after := by
  obtain ⟨after, hafter⟩ := renderText_flatItems name t prints site vars shared h
  rw [written_flatItems, flatten_flatChunks] at hafter
  exact ⟨after, hafter⟩

theorem renderText_verbatim_filtered : ∃ after,
    renderText "page" "1 <%% 2: <%= x %>%%>" ⟨[], some Entity.escape⟩ [("x", .str "<b>")]
        ⟨.empty, ()⟩ =
      .ok "1 <% 2: &lt;b&gt;%>" after := by
  apply renderText_verbatim "page" "1 <% 2: " [⟨false, .x, "&lt;b&gt;", "%>"⟩]
  intro print hprint
  rw [List.mem_singleton] at hprint
  subst hprint
  refine ⟨.str "<b>", _, rfl, .intro trivial ?_, by decide⟩
  intro w hw
  cases hw

end Printing

end TemplateEngine
