import TemplateEngine.Artifact.Format
import TemplateEngine.Proofs.Artifact.Statements
import TemplateEngine.Proofs.Encoding.Utf8

/-!
# Artifacts from their bytes

The bytes of an artifact are decoded to that artifact or to nothing, and to nothing
only if a double in its program is not finite or its JSON is nested deeper than
text may be.
-/
namespace TemplateEngine

open Json (tagged bare fields optional Readable ReadableAll depth maxDepth written writtenAll)

namespace Json

theorem readable_tagged {tag : String} {content : Json} :
    Readable (tagged tag content) ↔ Readable content := iff_of_eq (and_true _)

theorem readable_string (t : Text) : Readable (.string t) := trivial

theorem readable_two {m n : String} {a b : Json} :
    Readable (fields [(m, a), (n, b)]) ↔ Readable a ∧ Readable b :=
  and_congr_right' (iff_of_eq (and_true _))

theorem readable_three {l m n : String} {a b c : Json} :
    Readable (fields [(l, a), (m, b), (n, c)]) ↔ Readable a ∧ Readable b ∧ Readable c :=
  and_congr_right' readable_two

theorem readable_four {k l m n : String} {a b c d : Json} :
    Readable (fields [(k, a), (l, b), (m, c), (n, d)]) ↔
      Readable a ∧ Readable b ∧ Readable c ∧ Readable d :=
  and_congr_right' readable_three

theorem readable_pair {a b : Json} : Readable (.array [a, b]) ↔ Readable a ∧ Readable b :=
  and_congr_right' (iff_of_eq (and_true _))

theorem readable_optional_string (name : Option Text) : Readable (optional .string name) := by
  cases name <;> exact trivial

theorem readable_line {n : Nat} (h : n < 0x10000000000000000) : Readable (.int n) := by
  refine ⟨?_, ?_⟩ <;> omega

theorem readableAll_text (names : List Text) : ReadableAll (names.map .string) := by
  induction names with
  | nil => exact trivial
  | cons name names ih => exact ⟨readable_string name, ih⟩

theorem readableAll_lines {lines : List Nat} (h : LinesFit lines) :
    ReadableAll (lines.map fun (n : Nat) => .int n) := by
  induction lines with
  | nil => exact trivial
  | cons n lines ih => exact ⟨readable_line (linesFit_cons.mp h).1, ih (linesFit_cons.mp h).2⟩

theorem mapM_line {lines : List Nat} (h : LinesFit lines) :
    (writtenAll (lines.map fun (n : Nat) => .int n)).mapM line? = some lines := by
  induction lines with
  | nil => rfl
  | cons n lines ih =>
      rw [linesFit_cons] at h
      rw [List.map_cons, writtenAll, List.mapM_cons, ih h.2, line?_int h.1]
      rfl

theorem readsBack_threeHalves : ReadsBack 1.5 := by
  have htext : floatText 1.5 = "1.5" := by decide +kernel
  have hvalue : scale 4 (Double.ofInt (15 : Nat)) (-1) = some 1.5 := by decide +kernel
  have hnumber : number? "1.5" = (double? false 15 (-1)).map fun j => (j, []) := rfl
  refine (congrArg number? htext).trans ?_
  rw [hnumber, double?, hvalue]
  rfl

end Json

/-- A constant that survives being written: an integer of 64 bits, a double that is not finite or
reads back from its digits, or a constant of another kind. -/
def Constant.Keeps : Constant → Prop
  | int n => Word.Fits n
  | float x => x.isFinite = true → Json.ReadsBack x
  | _ => True

theorem Constant.Keeps.fits {c : Constant} (h : c.Keeps) : c.Fits := by
  cases c with
  | int n => exact h
  | none | bool _ | float _ | str _ => exact trivial

theorem Constant.Keeps.readable {c : Constant} (h : c.Keeps) : Readable c.toJson := by
  cases c with
  | none => exact trivial
  | bool b => exact ⟨trivial, trivial⟩
  | int n =>
      have hfits : Word.Fits n := h
      unfold Word.Fits Word.least Word.greatest at hfits
      refine ⟨⟨?_, ?_⟩, trivial⟩ <;> omega
  | float x => exact ⟨h, trivial⟩
  | str t => exact ⟨trivial, trivial⟩

theorem keeps_append {constants others : List Constant} :
    (∀ c ∈ constants ++ others, c.Keeps) ↔
      (∀ c ∈ constants, c.Keeps) ∧ ∀ c ∈ others, c.Keeps := by
  simp only [List.mem_append, or_imp, forall_and]

theorem allFinite_iff {constants : List Constant} :
    allFinite constants = true ↔ ∀ x, .float x ∈ constants → x.isFinite = true := by
  unfold allFinite
  rw [List.all_eq_true]
  refine ⟨fun h x hx => h _ hx, fun h c hc => ?_⟩
  cases c with
  | float x => exact h x hc
  | none | bool _ | int _ | str _ => rfl

mutual

theorem Expr.readable (e : Expr) (h : ∀ c ∈ e.constants, c.Keeps) : Readable e.toJson := by
  match e with
  | .constant c => exact Json.readable_tagged.mpr (h c List.mem_cons_self).readable
  | .name name => exact ⟨trivial, trivial⟩
  | .list items => exact Json.readable_tagged.mpr (readableAll_exprs items h)
  | .tuple items => exact Json.readable_tagged.mpr (readableAll_exprs items h)
  | .dict entries => exact Json.readable_tagged.mpr (readableAll_entries entries h)
  | .attribute object name =>
      exact Json.readable_tagged.mpr (Json.readable_two.mpr ⟨object.readable h, trivial⟩)
  | .index object key =>
      obtain ⟨hobject, hkey⟩ := keeps_append.mp h
      exact Json.readable_tagged.mpr
        (Json.readable_two.mpr ⟨object.readable hobject, key.readable hkey⟩)
  | .slice object start stop =>
      obtain ⟨hobject, hbounds⟩ := keeps_append.mp h
      obtain ⟨hstart, hstop⟩ := keeps_append.mp hbounds
      exact Json.readable_tagged.mpr (Json.readable_three.mpr
        ⟨object.readable hobject, readable_bound start hstart, readable_bound stop hstop⟩)
  | .call function args keywords =>
      obtain ⟨hfunction, harguments⟩ := keeps_append.mp h
      obtain ⟨hargs, hkeywords⟩ := keeps_append.mp harguments
      exact Json.readable_tagged.mpr (Json.readable_three.mpr
        ⟨function.readable hfunction, readableAll_exprs args hargs,
          readableAll_keywords keywords hkeywords⟩)
  | .unary op operand =>
      exact Json.readable_tagged.mpr (Json.readable_two.mpr ⟨trivial, operand.readable h⟩)
  | .binary op lhs rhs =>
      obtain ⟨hlhs, hrhs⟩ := keeps_append.mp h
      exact Json.readable_tagged.mpr
        (Json.readable_three.mpr ⟨trivial, lhs.readable hlhs, rhs.readable hrhs⟩)
  | .compare op lhs rhs =>
      obtain ⟨hlhs, hrhs⟩ := keeps_append.mp h
      exact Json.readable_tagged.mpr
        (Json.readable_three.mpr ⟨trivial, lhs.readable hlhs, rhs.readable hrhs⟩)
  | .and lhs rhs =>
      obtain ⟨hlhs, hrhs⟩ := keeps_append.mp h
      exact Json.readable_tagged.mpr
        (Json.readable_pair.mpr ⟨lhs.readable hlhs, rhs.readable hrhs⟩)
  | .or lhs rhs =>
      obtain ⟨hlhs, hrhs⟩ := keeps_append.mp h
      exact Json.readable_tagged.mpr
        (Json.readable_pair.mpr ⟨lhs.readable hlhs, rhs.readable hrhs⟩)
  | .not operand => exact Json.readable_tagged.mpr (operand.readable h)
  | .conditional condition thenValue elseValue =>
      obtain ⟨hcondition, hvalues⟩ := keeps_append.mp h
      obtain ⟨hthen, helse⟩ := keeps_append.mp hvalues
      exact Json.readable_tagged.mpr (Json.readable_three.mpr
        ⟨condition.readable hcondition, thenValue.readable hthen, elseValue.readable helse⟩)

theorem readableAll_exprs (es : List Expr) (h : ∀ c ∈ constantsAll es, c.Keeps) :
    ReadableAll (exprsToJson es) := by
  match es with
  | [] => exact trivial
  | e :: es =>
      obtain ⟨he, hes⟩ := keeps_append.mp h
      exact ⟨e.readable he, readableAll_exprs es hes⟩

theorem readableAll_entries (entries : List (Expr × Expr))
    (h : ∀ c ∈ constantsEntries entries, c.Keeps) : ReadableAll (entriesToJson entries) := by
  match entries with
  | [] => exact trivial
  | (key, value) :: entries =>
      obtain ⟨hkey, hrest⟩ := keeps_append.mp h
      obtain ⟨hvalue, hentries⟩ := keeps_append.mp hrest
      exact ⟨Json.readable_pair.mpr ⟨key.readable hkey, value.readable hvalue⟩,
        readableAll_entries entries hentries⟩

theorem readableAll_keywords (keywords : List (Text × Expr))
    (h : ∀ c ∈ constantsKeywords keywords, c.Keeps) : ReadableAll (keywordsToJson keywords) := by
  match keywords with
  | [] => exact trivial
  | (name, value) :: keywords =>
      obtain ⟨hvalue, hkeywords⟩ := keeps_append.mp h
      exact ⟨Json.readable_pair.mpr ⟨trivial, value.readable hvalue⟩,
        readableAll_keywords keywords hkeywords⟩

theorem readable_bound (bound : Option Expr) (h : ∀ c ∈ constantsBound bound, c.Keeps) :
    Readable (boundToJson bound) := by
  match bound with
  | none => exact trivial
  | some e => exact e.readable h

end

theorem readable_optional (e : Option Expr) (h : ∀ c ∈ constantsBound e, c.Keeps) :
    Readable (optional Expr.toJson e) := by
  rw [optional_eq_boundToJson]
  exact readable_bound e h

theorem Target.readable (t : Target) (h : ∀ c ∈ t.constants, c.Keeps) : Readable t.toJson := by
  cases t with
  | name name => exact ⟨trivial, trivial⟩
  | index object key =>
      obtain ⟨hobject, hkey⟩ := keeps_append.mp h
      exact Json.readable_tagged.mpr
        (Json.readable_two.mpr ⟨object.readable hobject, key.readable hkey⟩)
  | unpack names => exact Json.readable_tagged.mpr (Json.readableAll_text names)

mutual

theorem Stmt.readable (s : Stmt) (h : ∀ c ∈ s.constants, c.Keeps) (hlines : LinesFit s.lines) :
    Readable s.toJson := by
  match s with
  | .at line action =>
      obtain ⟨hline, hlines⟩ := linesFit_cons.mp hlines
      exact Json.readable_two.mpr ⟨action.readable h hlines, Json.readable_line hline⟩

theorem Action.readable (a : Action) (h : ∀ c ∈ a.constants, c.Keeps) (hlines : LinesFit a.lines) :
    Readable a.toJson := by
  match a with
  | .expr value => exact Json.readable_tagged.mpr (value.readable h)
  | .assign target value =>
      obtain ⟨htarget, hvalue⟩ := keeps_append.mp h
      exact Json.readable_tagged.mpr
        (Json.readable_two.mpr ⟨target.readable htarget, value.readable hvalue⟩)
  | .augAssign target op value =>
      obtain ⟨htarget, hvalue⟩ := keeps_append.mp h
      exact Json.readable_tagged.mpr
        (Json.readable_three.mpr ⟨target.readable htarget, trivial, value.readable hvalue⟩)
  | .branch branches otherwise =>
      obtain ⟨hbranches, hotherwise⟩ := keeps_append.mp h
      obtain ⟨lbranches, lotherwise⟩ := linesFit_append.mp hlines
      exact Json.readable_tagged.mpr (Json.readable_two.mpr
        ⟨readableAll_branches branches hbranches lbranches,
          readable_option otherwise hotherwise lotherwise⟩)
  | .forEach target items body =>
      obtain ⟨htarget, hrest⟩ := keeps_append.mp h
      obtain ⟨hitems, hbody⟩ := keeps_append.mp hrest
      exact Json.readable_tagged.mpr (Json.readable_three.mpr
        ⟨target.readable htarget, items.readable hitems, readableAll_block body hbody hlines⟩)
  | .whileTrue condition body =>
      obtain ⟨hcondition, hbody⟩ := keeps_append.mp h
      exact Json.readable_tagged.mpr (Json.readable_two.mpr
        ⟨condition.readable hcondition, readableAll_block body hbody hlines⟩)
  | .attempt body handlers cleanup =>
      obtain ⟨hbody, hrest⟩ := keeps_append.mp h
      obtain ⟨hhandlers, hcleanup⟩ := keeps_append.mp hrest
      obtain ⟨lbody, lrest⟩ := linesFit_append.mp hlines
      obtain ⟨lhandlers, lcleanup⟩ := linesFit_append.mp lrest
      exact Json.readable_tagged.mpr (Json.readable_three.mpr
        ⟨readableAll_block body hbody lbody, readableAll_handlers handlers hhandlers lhandlers,
          readable_option cleanup hcleanup lcleanup⟩)
  | .raise exception => exact Json.readable_tagged.mpr (readable_optional exception h)
  | .within context name body =>
      obtain ⟨hcontext, hbody⟩ := keeps_append.mp h
      exact Json.readable_tagged.mpr (Json.readable_three.mpr
        ⟨context.readable hcontext, Json.readable_optional_string name,
          readableAll_block body hbody hlines⟩)
  | .pass => exact trivial
  | .breakLoop => exact trivial
  | .continueLoop => exact trivial

theorem readableAll_block (stmts : List Stmt) (h : ∀ c ∈ constantsBlock stmts, c.Keeps)
    (hlines : LinesFit (linesBlock stmts)) : ReadableAll (stmtsToJson stmts) := by
  match stmts with
  | [] => exact trivial
  | s :: stmts =>
      obtain ⟨hs, hstmts⟩ := keeps_append.mp h
      obtain ⟨ls, lstmts⟩ := linesFit_append.mp hlines
      exact ⟨s.readable hs ls, readableAll_block stmts hstmts lstmts⟩

theorem readableAll_branches (branches : List (Expr × List Stmt))
    (h : ∀ c ∈ constantsBranches branches, c.Keeps) (hlines : LinesFit (linesBranches branches)) :
    ReadableAll (branchesToJson branches) := by
  match branches with
  | [] => exact trivial
  | (condition, body) :: branches =>
      obtain ⟨hcondition, hrest⟩ := keeps_append.mp h
      obtain ⟨hbody, hbranches⟩ := keeps_append.mp hrest
      obtain ⟨lbody, lbranches⟩ := linesFit_append.mp hlines
      exact ⟨Json.readable_pair.mpr
          ⟨condition.readable hcondition, readableAll_block body hbody lbody⟩,
        readableAll_branches branches hbranches lbranches⟩

theorem readableAll_handlers (handlers : List Handler)
    (h : ∀ c ∈ constantsHandlers handlers, c.Keeps) (hlines : LinesFit (linesHandlers handlers)) :
    ReadableAll (handlersToJson handlers) := by
  match handlers with
  | [] => exact trivial
  | .clause matcher name body line :: handlers =>
      obtain ⟨hmatcher, hrest⟩ := keeps_append.mp h
      obtain ⟨hbody, hhandlers⟩ := keeps_append.mp hrest
      obtain ⟨hline, lrest⟩ := linesFit_cons.mp hlines
      obtain ⟨lbody, lhandlers⟩ := linesFit_append.mp lrest
      exact ⟨Json.readable_four.mpr
          ⟨readable_optional matcher hmatcher, Json.readable_optional_string name,
            readableAll_block body hbody lbody, Json.readable_line hline⟩,
        readableAll_handlers handlers hhandlers lhandlers⟩

theorem readable_option (block : Option (List Stmt)) (h : ∀ c ∈ constantsOption block, c.Keeps)
    (hlines : LinesFit (linesOption block)) : Readable (blockToJson? block) := by
  match block with
  | none => exact trivial
  | some body => exact readableAll_block body h hlines

end

namespace Program

/-- The constants in a program. -/
def constants (p : Program) : List Constant := constantsBlock p.body

/-- The lines that a program names, in its statements and in its line map. -/
def lines (p : Program) : List Nat := linesBlock p.body ++ p.lineMap

theorem readable {p : Program} (h : ∀ c ∈ p.constants, c.Keeps) (hlines : LinesFit p.lines) :
    Readable p.toJson := by
  obtain ⟨lbody, lmap⟩ := linesFit_append.mp hlines
  exact Json.readable_four.mpr
    ⟨trivial, trivial, readableAll_block p.body h lbody, Json.readableAll_lines lmap⟩

theorem ofJson?_toJson {p : Program} (h : ∀ c ∈ p.constants, c.Fits) (hlines : LinesFit p.lines)
    (hd : depth p.toJson ≤ maxDepth) :
    ofJson? (written p.toJson) = if allFinite p.constants then some p else none := by
  obtain ⟨lbody, lmap⟩ := linesFit_append.mp hlines
  rw [toJson, Json.depth_four, Json.depth_array] at hd
  have hbody : Block.decode? (.array (writtenAll (stmtsToJson p.body))) =
      if allFinite p.constants then some p.body else none :=
    decodes_block p.body h lbody (d := maxDepth) (by omega) le_rfl
  rw [toJson, Json.written_four, Json.written_array, Json.written_array, ofJson?]
  simp (disch := decide) only [Option.bind_eq_bind, Option.bind_some, Json.fields?_four, hbody,
    Json.listOf?_array, Json.mapM_line lmap]
  cases allFinite p.constants <;> rfl

end Program

namespace Artifact

theorem readable {a : Artifact} (h : ∀ c ∈ a.program.constants, c.Keeps)
    (hlines : LinesFit a.program.lines) : Readable a.toJson :=
  Json.readable_two.mpr ⟨trivial, Program.readable h hlines⟩

theorem ofJson?_toJson {a : Artifact} (h : ∀ c ∈ a.program.constants, c.Fits)
    (hlines : LinesFit a.program.lines) (hd : depth a.toJson ≤ maxDepth) :
    ofJson? (written a.toJson) = if allFinite a.program.constants then some a else none := by
  rw [toJson, Json.depth_two] at hd
  have hprogram := Program.ofJson?_toJson h hlines (by omega)
  rw [toJson, Json.written_two, ofJson?]
  simp (disch := decide) only [Option.bind_eq_bind, Option.bind_some, Json.fields?_two, hprogram]
  cases allFinite a.program.constants <;> rfl

/-- The bytes of an artifact decode to that artifact if all doubles in its program are finite and
its JSON is nested at most as deep as JSON that is read, and to nothing otherwise. -/
theorem decode?_encode_eq (a : Artifact) (h : ∀ c ∈ a.program.constants, c.Keeps)
    (hlines : LinesFit a.program.lines) :
    decode? a.encode =
      if allFinite a.program.constants && decide (depth a.toJson ≤ maxDepth) then some a
      else none := by
  have htext := Json.ofText?_text (readable h hlines)
  rw [decode?, encode, Utf8.decode?_encode]
  simp only [Option.bind_eq_bind, Option.bind_some]
  rw [htext]
  by_cases hd : depth a.toJson ≤ maxDepth
  · have hjson := ofJson?_toJson (fun c hc => (h c hc).fits) hlines hd
    rw [if_pos hd, decide_eq_true hd, Bool.and_true]
    exact hjson
  · rw [if_neg hd, decide_eq_false hd, Bool.and_false]
    rfl

theorem decode?_encode_eq_self {a b : Artifact} (h : ∀ c ∈ a.program.constants, c.Keeps)
    (hlines : LinesFit a.program.lines) (hb : decode? a.encode = some b) : b = a := by
  rw [decode?_encode_eq a h hlines] at hb
  split at hb
  · exact (Option.some.inj hb).symm
  · exact nomatch hb

/-- What is kept is never altered. The bytes of an artifact, whose integers and lines are machine
words and whose finite doubles are read back from their own digits, decode to that very artifact
or to nothing; to that artifact exactly if every double in it is finite and its JSON is nested at
most 127 levels. -/
theorem encode_lossless (a : Artifact)
    (hints : ∀ n, .int n ∈ a.program.constants → Word.Fits n)
    (hfloats : ∀ x, .float x ∈ a.program.constants → x.isFinite = true → Json.ReadsBack x)
    (hlines : LinesFit a.program.lines) :
    (∀ b, decode? a.encode = some b → b = a) ∧
      (decode? a.encode = some a ↔
        (∀ x, .float x ∈ a.program.constants → x.isFinite = true) ∧ depth a.toJson ≤ 127) := by
  have hkeeps : ∀ c ∈ a.program.constants, c.Keeps := by
    intro c hc
    cases c with
    | int n => exact hints n hc
    | float x => exact hfloats x hc
    | none | bool _ | str _ => exact trivial
  refine ⟨fun b hb => decode?_encode_eq_self hkeeps hlines hb, ?_⟩
  rw [decode?_encode_eq a hkeeps hlines, Option.ite_none_right_eq_some, Bool.and_eq_true,
    decide_eq_true_iff, and_iff_left rfl, allFinite_iff]
  exact Iff.rfl

/-- A program with a clause that catches everything and does nothing, next to a branch without an
alternative and one with an empty alternative. -/
def mixed : Artifact :=
  ⟨"weft-1", "page", "",
    [.at 1 (.attempt [.at 2 (.expr (.constant (.float 1.5)))] [.clause none none [] 3] none),
     .at 4 (.branch [(.constant .none, [])] none),
     .at 5 (.branch [(.constant (.int (-7)), [])] (some []))],
    [1, 1, 1, 2, 2]⟩

theorem encode_lossless_mixed : decode? mixed.encode = some mixed := by
  have hconstants : mixed.program.constants = [.float 1.5, .none, .int (-7)] := rfl
  have hlines : mixed.program.lines = [1, 2, 3, 4, 5, 1, 1, 1, 2, 2] := rfl
  have hfinite : ∀ x, .float x ∈ mixed.program.constants → x = (1.5 : Float) := by
    simp [hconstants]
  refine (encode_lossless mixed ?_ ?_ ?_).2.mpr ⟨?_, by decide⟩
  · simp [hconstants]
    decide
  · intro x hx _
    rw [hfinite x hx]
    exact Json.readsBack_threeHalves
  · rw [hlines]
    unfold LinesFit
    decide
  · intro x hx
    rw [hfinite x hx]
    decide

end Artifact

end TemplateEngine
