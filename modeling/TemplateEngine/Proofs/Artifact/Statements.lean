import TemplateEngine.Proofs.Artifact.Expressions

/-!
# Statements from their JSON

The JSON of a statement, once written and read, is decoded to that statement, or not
at all if a double in it is not finite. The induction is on the statement. Blocks
that are missing stay apart from empty ones: the former are null, the latter empty
arrays.
-/
namespace TemplateEngine

open Json (tagged bare fields optional alternative? fields? listOf? pairOf? optionalOf? text? line?
  written writtenAll depth depthAll maxDepth)

namespace Json

theorem line?_int {n : Nat} (h : n < 0x10000000000000000) : line? (written (.int n)) = some n := by
  have hnonneg : (0 : Int) ≤ n := Int.natCast_nonneg n
  have hlt : (n : Int) < 0x10000000000000000 := by omega
  simp only [written, line?, decide_eq_true hnonneg, decide_eq_true hlt, Bool.and_self, if_true,
    Int.toNat_natCast]

theorem listOf?_array {α : Type} (decode : Json → Option α) (items : List Json) :
    listOf? decode (.array items) = items.mapM decode := rfl

theorem optionalOf?_text (name : Option Text) :
    optionalOf? text? (some (written (optional .string name))) = some name := by
  cases name <;> rfl

theorem mapM_text (names : List Text) :
    (writtenAll (names.map .string)).mapM text? = some names := by
  induction names with
  | nil => rfl
  | cons name names ih =>
      rw [List.map_cons, writtenAll, List.mapM_cons, ih]
      rfl

end Json

theorem optional_eq_boundToJson (e : Option Expr) : optional Expr.toJson e = boundToJson e := by
  cases e <;> rfl

theorem Expr.decodes_max (e : Expr) (hfits : ∀ c ∈ e.constants, c.Fits)
    (hd : depth e.toJson ≤ maxDepth) :
    Expr.decode? (written e.toJson) = if allFinite e.constants then some e else none :=
  e.decodes hfits hd

theorem decodes_optional (e : Option Expr) (hfits : ∀ c ∈ constantsBound e, c.Fits)
    (hd : depth (optional Expr.toJson e) ≤ maxDepth) :
    optionalOf? Expr.decode? (some (written (optional Expr.toJson e))) =
      if allFinite (constantsBound e) then some e else none := by
  rw [optional_eq_boundToJson] at hd ⊢
  exact decodes_bound e hfits hd

section Targets

variable (j : Json)

theorem Target.ofJson?_name : Target.ofJson? (tagged "Name" j) =
    (do return .name (← text? j)) := rfl

theorem Target.ofJson?_index : Target.ofJson? (tagged "Index" j) = (do
    match ← fields? ["object", "index"] j with
    | [some object, some key] => return .index (← Expr.decode? object) (← Expr.decode? key)
    | _ => none) := rfl

theorem Target.ofJson?_unpack : Target.ofJson? (tagged "Unpack" j) =
    (do return .unpack (← listOf? text? j)) := rfl

end Targets

theorem Target.decodes (t : Target) (hfits : ∀ c ∈ t.constants, c.Fits)
    (hd : depth t.toJson ≤ maxDepth) : Decodes Target.ofJson? t.toJson t t.constants := by
  unfold Decodes
  cases t with
  | name name =>
      rw [Target.toJson, Json.written_tagged, ofJson?_name, constants]
      rfl
  | index object key =>
      rw [constants, fits_append] at hfits
      rw [Target.toJson, Json.depth_tagged, Json.depth_two] at hd
      have hobject := object.decodes_max hfits.1 (by omega)
      have hkey := key.decodes_max hfits.2 (by omega)
      rw [Target.toJson, Json.written_tagged, Json.written_two, ofJson?_index, constants,
        allFinite_append]
      simp (disch := decide) only [Option.bind_eq_bind, Option.bind_some, Json.fields?_two, hobject,
        hkey]
      cases allFinite object.constants <;> cases allFinite key.constants <;> rfl
  | unpack names =>
      rw [Target.toJson, Json.written_tagged, Json.written_array, ofJson?_unpack, constants]
      simp only [Option.bind_eq_bind, Option.bind_some, listOf?, Json.mapM_text]
      rfl

/-- The fields of a statement, once its line is known to be one. Spelled out for any JSON in
place of the line, which is thus not evaluated. -/
theorem Stmt.ofJson?_fields {action : Action} {line : Nat} {kindJson lineJson : Json} {d : Nat}
    {b : Bool} (hline : line? lineJson = some line)
    (haction : Action.ofJson? (listOf? (Stmt.ofJson? d)) kindJson =
      if b then some action else none) :
    Stmt.ofJson? (d + 1) (fields [("kind", kindJson), ("line", lineJson)]) =
      if b then some (.at line action) else none := by
  rw [Stmt.ofJson?]
  simp (disch := decide) only [Option.bind_eq_bind, Option.bind_some, Json.fields?_two, hline,
    haction]
  cases b <;> rfl

/-- The fields of an except clause, in the same way. -/
theorem Handler.ofJson?_fields {block : Json → Option Block} {matcher : Option Expr}
    {name : Option Text} {body : Block} {line : Nat}
    {matcherJson nameJson bodyJson lineJson : Json} {b c : Bool}
    (hmatcher : optionalOf? Expr.decode? (some matcherJson) = if b then some matcher else none)
    (hname : optionalOf? text? (some nameJson) = some name)
    (hbody : block bodyJson = if c then some body else none)
    (hline : line? lineJson = some line) :
    Handler.ofJson? block (fields [("matcher", matcherJson), ("name", nameJson),
        ("body", bodyJson), ("line", lineJson)]) =
      if b && c then some (.clause matcher name body line) else none := by
  rw [Handler.ofJson?]
  simp (disch := decide) only [Option.bind_eq_bind, Option.bind_some, Json.fields?_four, hmatcher,
    hname, hbody, hline]
  cases b <;> cases c <;> rfl

mutual

/-- The JSON of a statement decodes to the statement. -/
theorem Stmt.decodes (s : Stmt) (hfits : ∀ c ∈ s.constants, c.Fits) (hlines : LinesFit s.lines)
    {d : Nat} (hd : depth s.toJson ≤ d) (hmax : d ≤ maxDepth) :
    Decodes (Stmt.ofJson? d) s.toJson s s.constants := by
  unfold Decodes
  match s with
  | .at line action =>
      rw [Stmt.constants] at hfits
      rw [Stmt.lines, linesFit_cons] at hlines
      rw [Stmt.toJson, Json.depth_two] at hd
      obtain ⟨d, rfl⟩ := Nat.exists_eq_add_one.mpr (Nat.lt_of_lt_of_le (Nat.succ_pos _) hd)
      have haction := action.decodes hfits hlines.2 (d := d) (by omega) (by omega)
      unfold Decodes at haction
      rw [Stmt.toJson, Json.written_two, Stmt.ofJson?_fields (Json.line?_int hlines.1) haction,
        Stmt.constants]

theorem Action.decodes (a : Action) (hfits : ∀ c ∈ a.constants, c.Fits) (hlines : LinesFit a.lines)
    {d : Nat} (hd : depth a.toJson ≤ d) (hmax : d ≤ maxDepth) :
    Decodes (Action.ofJson? (listOf? (Stmt.ofJson? d))) a.toJson a a.constants := by
  unfold Decodes
  match a with
  | .expr value =>
      rw [Action.constants] at hfits
      rw [Action.toJson, Json.depth_tagged] at hd
      have hvalue := value.decodes_max hfits (by omega)
      rw [Action.toJson, Json.written_tagged, Action.ofJson?, Action.constants]
      simp only [Json.alternative?_tagged, String.ofList_toList, Option.bind_eq_bind,
        Option.bind_some, hvalue]
      cases allFinite value.constants <;> rfl
  | .assign target value =>
      rw [Action.constants, fits_append] at hfits
      rw [Action.toJson, Json.depth_tagged, Json.depth_two] at hd
      have htarget := target.decodes hfits.1 (by omega)
      have hvalue := value.decodes_max hfits.2 (by omega)
      unfold Decodes at htarget
      rw [Action.toJson, Json.written_tagged, Json.written_two, Action.ofJson?, Action.constants,
        allFinite_append]
      simp (disch := decide) only [Json.alternative?_tagged, String.ofList_toList,
        Option.bind_eq_bind, Option.bind_some, Json.fields?_two, htarget, hvalue]
      cases allFinite target.constants <;> cases allFinite value.constants <;> rfl
  | .augAssign target op value =>
      rw [Action.constants, fits_append] at hfits
      rw [Action.toJson, Json.depth_tagged, Json.depth_three] at hd
      have htarget := target.decodes hfits.1 (by omega)
      have hvalue := value.decodes_max hfits.2 (by omega)
      unfold Decodes at htarget
      rw [Action.toJson, Json.written_tagged, Json.written_three, Action.ofJson?, Action.constants,
        allFinite_append]
      simp (disch := decide) only [Json.alternative?_tagged, String.ofList_toList,
        Option.bind_eq_bind, Option.bind_some, Json.fields?_three, BinaryOp.ofJson?_tag, htarget,
        hvalue]
      cases allFinite target.constants <;> cases allFinite value.constants <;> rfl
  | .branch branches otherwise =>
      rw [Action.constants, fits_append] at hfits
      rw [Action.lines, linesFit_append] at hlines
      rw [Action.toJson, Json.depth_tagged, Json.depth_two, Json.depth_array] at hd
      have hbranches := decodes_branches branches hfits.1 hlines.1 (d := d) (by omega) hmax
      have hotherwise := decodes_option otherwise hfits.2 hlines.2 (d := d) (by omega) hmax
      rw [Action.toJson, Json.written_tagged, Json.written_two, Json.written_array, Action.ofJson?,
        Action.constants, allFinite_append]
      simp (disch := decide) only [Json.alternative?_tagged, String.ofList_toList,
        Option.bind_eq_bind, Option.bind_some, Json.fields?_two, hbranches, hotherwise]
      cases allFinite (constantsBranches branches) <;>
        cases allFinite (constantsOption otherwise) <;> rfl
  | .forEach target items body =>
      rw [Action.constants, fits_append, fits_append] at hfits
      rw [Action.lines] at hlines
      rw [Action.toJson, Json.depth_tagged, Json.depth_three, Json.depth_array] at hd
      have htarget := target.decodes hfits.1 (by omega)
      have hitems := items.decodes_max hfits.2.1 (by omega)
      have hbody := decodes_block body hfits.2.2 hlines (d := d) (by omega) hmax
      unfold Decodes at htarget
      rw [Action.toJson, Json.written_tagged, Json.written_three, Json.written_array,
        Action.ofJson?, Action.constants, allFinite_append, allFinite_append]
      simp (disch := decide) only [Json.alternative?_tagged, String.ofList_toList,
        Option.bind_eq_bind, Option.bind_some, Json.fields?_three, htarget, hitems, hbody]
      cases allFinite target.constants <;> cases allFinite items.constants <;>
        cases allFinite (constantsBlock body) <;> rfl
  | .whileTrue condition body =>
      rw [Action.constants, fits_append] at hfits
      rw [Action.lines] at hlines
      rw [Action.toJson, Json.depth_tagged, Json.depth_two, Json.depth_array] at hd
      have hcondition := condition.decodes_max hfits.1 (by omega)
      have hbody := decodes_block body hfits.2 hlines (d := d) (by omega) hmax
      rw [Action.toJson, Json.written_tagged, Json.written_two, Json.written_array, Action.ofJson?,
        Action.constants, allFinite_append]
      simp (disch := decide) only [Json.alternative?_tagged, String.ofList_toList,
        Option.bind_eq_bind, Option.bind_some, Json.fields?_two, hcondition, hbody]
      cases allFinite condition.constants <;> cases allFinite (constantsBlock body) <;> rfl
  | .attempt body handlers cleanup =>
      rw [Action.constants, fits_append, fits_append] at hfits
      rw [Action.lines, linesFit_append, linesFit_append] at hlines
      rw [Action.toJson, Json.depth_tagged, Json.depth_three, Json.depth_array,
        Json.depth_array] at hd
      have hbody := decodes_block body hfits.1 hlines.1 (d := d) (by omega) hmax
      have hhandlers := decodes_handlers handlers hfits.2.1 hlines.2.1 (d := d) (by omega) hmax
      have hcleanup := decodes_option cleanup hfits.2.2 hlines.2.2 (d := d) (by omega) hmax
      rw [Action.toJson, Json.written_tagged, Json.written_three, Json.written_array,
        Json.written_array, Action.ofJson?, Action.constants, allFinite_append, allFinite_append]
      simp (disch := decide) only [Json.alternative?_tagged, String.ofList_toList,
        Option.bind_eq_bind, Option.bind_some, Json.fields?_three, hbody, hhandlers, hcleanup]
      cases allFinite (constantsBlock body) <;> cases allFinite (constantsHandlers handlers) <;>
        cases allFinite (constantsOption cleanup) <;> rfl
  | .raise exception =>
      rw [Action.constants] at hfits
      rw [Action.toJson, Json.depth_tagged] at hd
      have hexception := decodes_optional exception hfits (by omega)
      rw [Action.toJson, Json.written_tagged, Action.ofJson?, Action.constants]
      simp only [Json.alternative?_tagged, String.ofList_toList, Option.bind_eq_bind,
        Option.bind_some, hexception]
      cases allFinite (constantsBound exception) <;> rfl
  | .within context name body =>
      rw [Action.constants, fits_append] at hfits
      rw [Action.lines] at hlines
      rw [Action.toJson, Json.depth_tagged, Json.depth_three, Json.depth_array] at hd
      have hcontext := context.decodes_max hfits.1 (by omega)
      have hbody := decodes_block body hfits.2 hlines (d := d) (by omega) hmax
      rw [Action.toJson, Json.written_tagged, Json.written_three, Json.written_array,
        Action.ofJson?, Action.constants, allFinite_append]
      simp (disch := decide) only [Json.alternative?_tagged, String.ofList_toList,
        Option.bind_eq_bind, Option.bind_some, Json.fields?_three, Json.optionalOf?_text, hcontext,
        hbody]
      cases allFinite context.constants <;> cases allFinite (constantsBlock body) <;> rfl
  | .pass => rfl
  | .breakLoop => rfl
  | .continueLoop => rfl

theorem decodes_block (stmts : List Stmt) (hfits : ∀ c ∈ constantsBlock stmts, c.Fits)
    (hlines : LinesFit (linesBlock stmts)) {d : Nat} (hd : depthAll (stmtsToJson stmts) ≤ d)
    (hmax : d ≤ maxDepth) :
    listOf? (Stmt.ofJson? d) (.array (writtenAll (stmtsToJson stmts))) =
      if allFinite (constantsBlock stmts) then some stmts else none := by
  match stmts with
  | [] => rfl
  | s :: stmts =>
      rw [constantsBlock, fits_append] at hfits
      rw [linesBlock, linesFit_append] at hlines
      rw [stmtsToJson, depthAll] at hd
      have hs := s.decodes hfits.1 hlines.1 (d := d) (by omega) hmax
      have hstmts := decodes_block stmts hfits.2 hlines.2 (d := d) (by omega) hmax
      unfold Decodes at hs
      rw [Json.listOf?_array] at hstmts ⊢
      rw [stmtsToJson, writtenAll, constantsBlock, allFinite_append, List.mapM_cons, hs, hstmts]
      cases allFinite s.constants <;> cases allFinite (constantsBlock stmts) <;> rfl

theorem decodes_branches (branches : List (Expr × List Stmt))
    (hfits : ∀ c ∈ constantsBranches branches, c.Fits) (hlines : LinesFit (linesBranches branches))
    {d : Nat} (hd : depthAll (branchesToJson branches) ≤ d) (hmax : d ≤ maxDepth) :
    listOf? (pairOf? Expr.decode? (listOf? (Stmt.ofJson? d)))
        (.array (writtenAll (branchesToJson branches))) =
      if allFinite (constantsBranches branches) then some branches else none := by
  match branches with
  | [] => rfl
  | (condition, body) :: branches =>
      rw [constantsBranches, fits_append, fits_append] at hfits
      rw [linesBranches, linesFit_append] at hlines
      rw [branchesToJson, depthAll, Json.depth_pair, Json.depth_array] at hd
      have hcondition := condition.decodes_max hfits.1 (by omega)
      have hbody := decodes_block body hfits.2.1 hlines.1 (d := d) (by omega) hmax
      have hbranches := decodes_branches branches hfits.2.2 hlines.2 (d := d) (by omega) hmax
      rw [Json.listOf?_array] at hbranches ⊢
      rw [branchesToJson, writtenAll, Json.written_pair, Json.written_array, constantsBranches,
        allFinite_append, allFinite_append, List.mapM_cons, pairOf?, hcondition, hbody, hbranches]
      cases allFinite condition.constants <;> cases allFinite (constantsBlock body) <;>
        cases allFinite (constantsBranches branches) <;> rfl

theorem decodes_handlers (handlers : List Handler)
    (hfits : ∀ c ∈ constantsHandlers handlers, c.Fits) (hlines : LinesFit (linesHandlers handlers))
    {d : Nat} (hd : depthAll (handlersToJson handlers) ≤ d) (hmax : d ≤ maxDepth) :
    listOf? (Handler.ofJson? (listOf? (Stmt.ofJson? d)))
        (.array (writtenAll (handlersToJson handlers))) =
      if allFinite (constantsHandlers handlers) then some handlers else none := by
  match handlers with
  | [] => rfl
  | .clause matcher name body line :: handlers =>
      rw [constantsHandlers, fits_append, fits_append] at hfits
      rw [linesHandlers, linesFit_cons, linesFit_append] at hlines
      rw [handlersToJson, depthAll, handlerToJson, Json.depth_four, Json.depth_array] at hd
      have hmatcher := decodes_optional matcher hfits.1 (by omega)
      have hbody := decodes_block body hfits.2.1 hlines.2.1 (d := d) (by omega) hmax
      have hhandlers := decodes_handlers handlers hfits.2.2 hlines.2.2 (d := d) (by omega) hmax
      rw [Json.listOf?_array] at hhandlers ⊢
      rw [handlersToJson, writtenAll, handlerToJson, Json.written_four, Json.written_array,
        constantsHandlers, allFinite_append, allFinite_append, List.mapM_cons, hhandlers,
        Handler.ofJson?_fields hmatcher (Json.optionalOf?_text name) hbody
          (Json.line?_int hlines.1)]
      cases allFinite (constantsBound matcher) <;> cases allFinite (constantsBlock body) <;>
        cases allFinite (constantsHandlers handlers) <;> rfl

theorem decodes_option (block : Option (List Stmt)) (hfits : ∀ c ∈ constantsOption block, c.Fits)
    (hlines : LinesFit (linesOption block)) {d : Nat} (hd : depth (blockToJson? block) ≤ d)
    (hmax : d ≤ maxDepth) :
    optionalOf? (listOf? (Stmt.ofJson? d)) (some (written (blockToJson? block))) =
      if allFinite (constantsOption block) then some block else none := by
  match block with
  | none => rfl
  | some body =>
      rw [blockToJson?, Json.depth_array] at hd
      have hbody := decodes_block body hfits hlines (d := d) (by omega) hmax
      rw [blockToJson?, Json.written_array, constantsOption]
      show (listOf? (Stmt.ofJson? d) _).map some = _
      rw [hbody]
      cases allFinite (constantsBlock body) <;> rfl

end

end TemplateEngine
