import TemplateEngine.Artifact.Decode
import TemplateEngine.Artifact.Encode
import TemplateEngine.Proofs.Json.ReadBack
import TemplateEngine.Proofs.Syntax.Constants

/-!
# Expressions from their JSON

The JSON of an expression, once written and read, is decoded to that expression, or
not at all if a double in it is not finite. The induction is on the expression; the
depth of its JSON bounds that of the decoder.
-/
namespace TemplateEngine

open Json (tagged bare fields alternative? fields? listOf? pairOf? optionalOf? text? bareOf? written
  writtenAll depth depthAll Readable ReadableAll)

namespace Json

theorem alternative?_tagged (tag : String) (content : Json) :
    alternative? (tagged tag content) = some (tag.toList, some content) := rfl

theorem written_tagged (tag : String) (content : Json) :
    written (tagged tag content) = tagged tag (written content) := rfl

theorem fields?_two {m n : String} (a b : Json) (h : [m, n].Nodup) :
    fields? [m, n] (fields [(m, a), (n, b)]) = some [some a, some b] := by
  simp only [List.nodup_cons, List.mem_cons, List.not_mem_nil, or_false] at h
  have hmn : m ≠ n := h.1
  simp [fields?, fields, String.toList_inj, hmn, Ne.symm hmn]

theorem fields?_three {l m n : String} (a b c : Json) (h : [l, m, n].Nodup) :
    fields? [l, m, n] (fields [(l, a), (m, b), (n, c)]) = some [some a, some b, some c] := by
  simp only [List.nodup_cons, List.mem_cons, List.not_mem_nil, or_false, not_or] at h
  obtain ⟨⟨hlm, hln⟩, hmn, -⟩ := h
  simp [fields?, fields, String.toList_inj, hlm, hln, hmn, Ne.symm hlm, Ne.symm hln, Ne.symm hmn]

theorem fields?_four {k l m n : String} (a b c d : Json) (h : [k, l, m, n].Nodup) :
    fields? [k, l, m, n] (fields [(k, a), (l, b), (m, c), (n, d)]) =
      some [some a, some b, some c, some d] := by
  simp only [List.nodup_cons, List.mem_cons, List.not_mem_nil, or_false, not_or] at h
  obtain ⟨⟨hkl, hkm, hkn⟩, ⟨hlm, hln⟩, hmn, -⟩ := h
  simp [fields?, fields, String.toList_inj, hkl, hkm, hkn, hlm, hln, hmn, Ne.symm hkl, Ne.symm hkm,
    Ne.symm hkn, Ne.symm hlm, Ne.symm hln, Ne.symm hmn]

theorem written_two {m n : String} (a b : Json) :
    written (fields [(m, a), (n, b)]) = fields [(m, written a), (n, written b)] := rfl

theorem written_three {l m n : String} (a b c : Json) :
    written (fields [(l, a), (m, b), (n, c)]) =
      fields [(l, written a), (m, written b), (n, written c)] := rfl

theorem written_four {k l m n : String} (a b c d : Json) :
    written (fields [(k, a), (l, b), (m, c), (n, d)]) =
      fields [(k, written a), (l, written b), (m, written c), (n, written d)] := rfl

theorem written_array (items : List Json) : written (.array items) = .array (writtenAll items) :=
  rfl

theorem depth_tagged (tag : String) (content : Json) :
    depth (tagged tag content) = depth content + 1 := by
  show max (depth content) 0 + 1 = depth content + 1
  omega

theorem depth_two {m n : String} (a b : Json) :
    depth (fields [(m, a), (n, b)]) = max (depth a) (depth b) + 1 := by
  show max (depth a) (max (depth b) 0) + 1 = _
  omega

theorem depth_three {l m n : String} (a b c : Json) :
    depth (fields [(l, a), (m, b), (n, c)]) = max (depth a) (max (depth b) (depth c)) + 1 := by
  show max (depth a) (max (depth b) (max (depth c) 0)) + 1 = _
  omega

theorem depth_four {k l m n : String} (a b c d : Json) :
    depth (fields [(k, a), (l, b), (m, c), (n, d)]) =
      max (depth a) (max (depth b) (max (depth c) (depth d))) + 1 := by
  show max (depth a) (max (depth b) (max (depth c) (max (depth d) 0))) + 1 = _
  omega

theorem written_pair (a b : Json) :
    written (.array [a, b]) = .array [written a, written b] := rfl

theorem depth_pair (a b : Json) : depth (.array [a, b]) = max (depth a) (depth b) + 1 := by
  show max (depth a) (max (depth b) 0) + 1 = _
  omega

theorem depth_array (items : List Json) : depth (.array items) = depthAll items + 1 := rfl

theorem optionalOf?_object {α : Type} (decode : Json → Option α) (members : List (Text × Json)) :
    optionalOf? decode (some (.object members)) = (decode (.object members)).map some := rfl

end Json

/-- Whether a constant is anything but a double that is not finite. -/
def Constant.isFinite : Constant → Bool
  | float x => x.isFinite
  | _ => true

/-- Whether all constants are anything but doubles that are not finite. -/
def allFinite (constants : List Constant) : Bool := constants.all Constant.isFinite

theorem allFinite_append (constants others : List Constant) :
    allFinite (constants ++ others) = (allFinite constants && allFinite others) :=
  List.all_append

theorem UnaryOp.ofJson?_tag (op : UnaryOp) : UnaryOp.ofJson? (written (bare op.tag)) = some op := by
  cases op <;> rfl

theorem BinaryOp.ofJson?_tag (op : BinaryOp) :
    BinaryOp.ofJson? (written (bare op.tag)) = some op := by
  cases op <;> rfl

theorem CompareOp.ofJson?_tag (op : CompareOp) :
    CompareOp.ofJson? (written (bare op.tag)) = some op := by
  cases op <;> rfl

theorem Expr.toJson_object (e : Expr) : ∃ members, written e.toJson = .object members := by
  cases e <;> exact ⟨_, rfl⟩

section Tags

variable (d : Nat) (j : Json)

theorem Expr.ofJson?_literal : Expr.ofJson? (d + 1) (tagged "Literal" j) =
    (do return .constant (← Constant.ofJson? j)) := rfl

theorem Expr.ofJson?_name : Expr.ofJson? (d + 1) (tagged "Name" j) =
    (do return .name (← text? j)) := rfl

theorem Expr.ofJson?_list : Expr.ofJson? (d + 1) (tagged "List" j) =
    (do return .list (← listOf? (Expr.ofJson? d) j)) := rfl

theorem Expr.ofJson?_tuple : Expr.ofJson? (d + 1) (tagged "Tuple" j) =
    (do return .tuple (← listOf? (Expr.ofJson? d) j)) := rfl

theorem Expr.ofJson?_dict : Expr.ofJson? (d + 1) (tagged "Dict" j) =
    (do return .dict (← listOf? (pairOf? (Expr.ofJson? d) (Expr.ofJson? d)) j)) := rfl

theorem Expr.ofJson?_attribute : Expr.ofJson? (d + 1) (tagged "Attribute" j) = (do
    match ← fields? ["object", "name"] j with
    | [some object, some field] => return .attribute (← Expr.ofJson? d object) (← text? field)
    | _ => none) := rfl

theorem Expr.ofJson?_index : Expr.ofJson? (d + 1) (tagged "Index" j) = (do
    match ← fields? ["object", "index"] j with
    | [some object, some key] => return .index (← Expr.ofJson? d object) (← Expr.ofJson? d key)
    | _ => none) := rfl

theorem Expr.ofJson?_slice : Expr.ofJson? (d + 1) (tagged "Slice" j) = (do
    match ← fields? ["object", "start", "end"] j with
    | [some object, start, stop] =>
      return .slice (← Expr.ofJson? d object) (← optionalOf? (Expr.ofJson? d) start)
        (← optionalOf? (Expr.ofJson? d) stop)
    | _ => none) := rfl

theorem Expr.ofJson?_call : Expr.ofJson? (d + 1) (tagged "Call" j) = (do
    match ← fields? ["func", "args", "kwargs"] j with
    | [some function, some args, some keywords] =>
      return .call (← Expr.ofJson? d function) (← listOf? (Expr.ofJson? d) args)
        (← listOf? (pairOf? text? (Expr.ofJson? d)) keywords)
    | _ => none) := rfl

theorem Expr.ofJson?_unary : Expr.ofJson? (d + 1) (tagged "Unary" j) = (do
    match ← fields? ["op", "operand"] j with
    | [some op, some operand] => return .unary (← UnaryOp.ofJson? op) (← Expr.ofJson? d operand)
    | _ => none) := rfl

theorem Expr.ofJson?_binary : Expr.ofJson? (d + 1) (tagged "Binary" j) = (do
    match ← fields? ["op", "lhs", "rhs"] j with
    | [some op, some lhs, some rhs] =>
      return .binary (← BinaryOp.ofJson? op) (← Expr.ofJson? d lhs) (← Expr.ofJson? d rhs)
    | _ => none) := rfl

theorem Expr.ofJson?_compare : Expr.ofJson? (d + 1) (tagged "Compare" j) = (do
    match ← fields? ["op", "lhs", "rhs"] j with
    | [some op, some lhs, some rhs] =>
      return .compare (← CompareOp.ofJson? op) (← Expr.ofJson? d lhs) (← Expr.ofJson? d rhs)
    | _ => none) := rfl

theorem Expr.ofJson?_and : Expr.ofJson? (d + 1) (tagged "And" j) = (do
    let (lhs, rhs) ← pairOf? (Expr.ofJson? d) (Expr.ofJson? d) j
    return .and lhs rhs) := rfl

theorem Expr.ofJson?_or : Expr.ofJson? (d + 1) (tagged "Or" j) = (do
    let (lhs, rhs) ← pairOf? (Expr.ofJson? d) (Expr.ofJson? d) j
    return .or lhs rhs) := rfl

theorem Expr.ofJson?_not : Expr.ofJson? (d + 1) (tagged "Not" j) =
    (do return .not (← Expr.ofJson? d j)) := rfl

theorem Expr.ofJson?_conditional : Expr.ofJson? (d + 1) (tagged "Conditional" j) = (do
    match ← fields? ["condition", "then", "otherwise"] j with
    | [some condition, some thenValue, some elseValue] =>
      return .conditional (← Expr.ofJson? d condition) (← Expr.ofJson? d thenValue)
        (← Expr.ofJson? d elseValue)
    | _ => none) := rfl

end Tags

section Decoding

/-- Decodes to what was encoded, or to nothing if a double is not finite. -/
def Decodes {α : Type} (decode : Json → Option α) (j : Json) (a : α) (constants : List Constant) :
    Prop := decode (written j) = if allFinite constants then some a else none

theorem Constant.decodes {c : Constant} (hc : c.Fits) :
    Decodes Constant.ofJson? c.toJson c [c] := by
  unfold Decodes allFinite
  rw [List.all_cons, List.all_nil, Bool.and_true]
  cases c with
  | none => rfl
  | bool b =>
      simp [Constant.ofJson?, Constant.toJson, Json.written_tagged, Json.alternative?_tagged,
        written, isFinite]
  | int n =>
      have hfits : Word.Fits n := hc
      simp [Constant.ofJson?, Constant.toJson, Json.written_tagged, Json.alternative?_tagged,
        written, isFinite, Word.checked?, hfits]
  | float x =>
      rw [Constant.toJson, Json.written_tagged, isFinite, written, Constant.ofJson?]
      simp only [Json.alternative?_tagged, Option.bind_eq_bind, Option.bind_some,
        String.ofList_toList]
      cases x.isFinite with
      | true => rfl
      | false => rfl
  | str t =>
      simp [Constant.ofJson?, Constant.toJson, Json.written_tagged, Json.alternative?_tagged,
        written, isFinite]

mutual

/-- The JSON of an expression decodes to the expression. -/
theorem Expr.decodes (e : Expr) (hfits : ∀ c ∈ e.constants, c.Fits) {d : Nat}
    (hd : depth e.toJson ≤ d) : Decodes (Expr.ofJson? d) e.toJson e e.constants := by
  unfold Decodes
  cases d with
  | zero => exact absurd hd (by cases e <;> exact Nat.not_succ_le_zero _)
  | succ d =>
  match e with
  | .constant c =>
      rw [Expr.constants] at hfits
      have hc := c.decodes (hfits c List.mem_cons_self)
      unfold Decodes at hc
      rw [Expr.toJson, Json.written_tagged, Expr.ofJson?_literal, Expr.constants]
      simp only [Option.bind_eq_bind, hc]
      cases allFinite [c] <;> rfl
  | .name name =>
      rw [Expr.toJson, Json.written_tagged, Expr.ofJson?_name, Expr.constants]
      rfl
  | .list items =>
      rw [Expr.constants] at hfits
      rw [Expr.toJson, Json.depth_tagged, Json.depth_array] at hd
      have hitems := decodes_exprs items hfits (d := d) (by omega)
      rw [Expr.toJson, Json.written_tagged, Json.written_array, Expr.ofJson?_list, Expr.constants]
      simp only [Option.bind_eq_bind, listOf?, hitems]
      cases allFinite (constantsAll items) <;> rfl
  | .tuple items =>
      rw [Expr.constants] at hfits
      rw [Expr.toJson, Json.depth_tagged, Json.depth_array] at hd
      have hitems := decodes_exprs items hfits (d := d) (by omega)
      rw [Expr.toJson, Json.written_tagged, Json.written_array, Expr.ofJson?_tuple, Expr.constants]
      simp only [Option.bind_eq_bind, listOf?, hitems]
      cases allFinite (constantsAll items) <;> rfl
  | .dict entries =>
      rw [Expr.constants] at hfits
      rw [Expr.toJson, Json.depth_tagged, Json.depth_array] at hd
      have hentries := decodes_entries entries hfits (d := d) (by omega)
      rw [Expr.toJson, Json.written_tagged, Json.written_array, Expr.ofJson?_dict, Expr.constants]
      simp only [Option.bind_eq_bind, listOf?, hentries]
      cases allFinite (constantsEntries entries) <;> rfl
  | .attribute object name =>
      rw [Expr.constants] at hfits
      rw [Expr.toJson, Json.depth_tagged, Json.depth_two] at hd
      have hobject := object.decodes hfits (d := d) (by omega)
      unfold Decodes at hobject
      rw [Expr.toJson, Json.written_tagged, Json.written_two, Expr.ofJson?_attribute,
        Expr.constants]
      simp (disch := decide) only [Option.bind_eq_bind, Option.bind_some, Json.fields?_two, hobject]
      cases allFinite object.constants <;> rfl
  | .index object key =>
      rw [Expr.constants, fits_append] at hfits
      rw [Expr.toJson, Json.depth_tagged, Json.depth_two] at hd
      have hobject := object.decodes hfits.1 (d := d) (by omega)
      have hkey := key.decodes hfits.2 (d := d) (by omega)
      unfold Decodes at hobject hkey
      rw [Expr.toJson, Json.written_tagged, Json.written_two, Expr.ofJson?_index, Expr.constants,
        allFinite_append]
      simp (disch := decide) only [Option.bind_eq_bind, Option.bind_some, Json.fields?_two,
        hobject, hkey]
      cases allFinite object.constants <;> cases allFinite key.constants <;> rfl
  | .slice object start stop =>
      rw [Expr.constants, fits_append, fits_append] at hfits
      rw [Expr.toJson, Json.depth_tagged, Json.depth_three] at hd
      have hobject := object.decodes hfits.1 (d := d) (by omega)
      have hstart := decodes_bound start hfits.2.1 (d := d) (by omega)
      have hstop := decodes_bound stop hfits.2.2 (d := d) (by omega)
      unfold Decodes at hobject
      rw [Expr.toJson, Json.written_tagged, Json.written_three, Expr.ofJson?_slice, Expr.constants,
        allFinite_append, allFinite_append]
      simp (disch := decide) only [Option.bind_eq_bind, Option.bind_some, Json.fields?_three,
        hobject, hstart, hstop]
      cases allFinite object.constants <;> cases allFinite (constantsBound start) <;>
        cases allFinite (constantsBound stop) <;> rfl
  | .call function args keywords =>
      rw [Expr.constants, fits_append, fits_append] at hfits
      rw [Expr.toJson, Json.depth_tagged, Json.depth_three, Json.depth_array,
        Json.depth_array] at hd
      have hfunction := function.decodes hfits.1 (d := d) (by omega)
      have hargs := decodes_exprs args hfits.2.1 (d := d) (by omega)
      have hkeywords := decodes_keywords keywords hfits.2.2 (d := d) (by omega)
      unfold Decodes at hfunction
      rw [Expr.toJson, Json.written_tagged, Json.written_three, Json.written_array,
        Json.written_array, Expr.ofJson?_call, Expr.constants, allFinite_append, allFinite_append]
      simp (disch := decide) only [Option.bind_eq_bind, Option.bind_some, Json.fields?_three,
        listOf?, hfunction, hargs,
        hkeywords]
      cases allFinite function.constants <;> cases allFinite (constantsAll args) <;>
        cases allFinite (constantsKeywords keywords) <;> rfl
  | .unary op operand =>
      rw [Expr.constants] at hfits
      rw [Expr.toJson, Json.depth_tagged, Json.depth_two] at hd
      have hoperand := operand.decodes hfits (d := d) (by omega)
      unfold Decodes at hoperand
      rw [Expr.toJson, Json.written_tagged, Json.written_two, Expr.ofJson?_unary, Expr.constants]
      simp (disch := decide) only [Option.bind_eq_bind, Option.bind_some, Json.fields?_two,
        UnaryOp.ofJson?_tag, hoperand]
      cases allFinite operand.constants <;> rfl
  | .binary op lhs rhs =>
      rw [Expr.constants, fits_append] at hfits
      rw [Expr.toJson, Json.depth_tagged, Json.depth_three] at hd
      have hlhs := lhs.decodes hfits.1 (d := d) (by omega)
      have hrhs := rhs.decodes hfits.2 (d := d) (by omega)
      unfold Decodes at hlhs hrhs
      rw [Expr.toJson, Json.written_tagged, Json.written_three, Expr.ofJson?_binary, Expr.constants,
        allFinite_append]
      simp (disch := decide) only [Option.bind_eq_bind, Option.bind_some, Json.fields?_three,
        BinaryOp.ofJson?_tag, hlhs, hrhs]
      cases allFinite lhs.constants <;> cases allFinite rhs.constants <;> rfl
  | .compare op lhs rhs =>
      rw [Expr.constants, fits_append] at hfits
      rw [Expr.toJson, Json.depth_tagged, Json.depth_three] at hd
      have hlhs := lhs.decodes hfits.1 (d := d) (by omega)
      have hrhs := rhs.decodes hfits.2 (d := d) (by omega)
      unfold Decodes at hlhs hrhs
      rw [Expr.toJson, Json.written_tagged, Json.written_three, Expr.ofJson?_compare,
        Expr.constants,
        allFinite_append]
      simp (disch := decide) only [Option.bind_eq_bind, Option.bind_some, Json.fields?_three,
        CompareOp.ofJson?_tag, hlhs,
        hrhs]
      cases allFinite lhs.constants <;> cases allFinite rhs.constants <;> rfl
  | .and lhs rhs =>
      rw [Expr.constants, fits_append] at hfits
      rw [Expr.toJson, Json.depth_tagged, Json.depth_pair] at hd
      have hlhs := lhs.decodes hfits.1 (d := d) (by omega)
      have hrhs := rhs.decodes hfits.2 (d := d) (by omega)
      unfold Decodes at hlhs hrhs
      rw [Expr.toJson, Json.written_tagged, Json.written_pair, Expr.ofJson?_and, Expr.constants,
        allFinite_append]
      simp only [Option.bind_eq_bind, pairOf?, hlhs, hrhs]
      cases allFinite lhs.constants <;> cases allFinite rhs.constants <;> rfl
  | .or lhs rhs =>
      rw [Expr.constants, fits_append] at hfits
      rw [Expr.toJson, Json.depth_tagged, Json.depth_pair] at hd
      have hlhs := lhs.decodes hfits.1 (d := d) (by omega)
      have hrhs := rhs.decodes hfits.2 (d := d) (by omega)
      unfold Decodes at hlhs hrhs
      rw [Expr.toJson, Json.written_tagged, Json.written_pair, Expr.ofJson?_or, Expr.constants,
        allFinite_append]
      simp only [Option.bind_eq_bind, pairOf?, hlhs, hrhs]
      cases allFinite lhs.constants <;> cases allFinite rhs.constants <;> rfl
  | .not operand =>
      rw [Expr.constants] at hfits
      rw [Expr.toJson, Json.depth_tagged] at hd
      have hoperand := operand.decodes hfits (d := d) (by omega)
      unfold Decodes at hoperand
      rw [Expr.toJson, Json.written_tagged, Expr.ofJson?_not, Expr.constants]
      simp only [Option.bind_eq_bind, hoperand]
      cases allFinite operand.constants <;> rfl
  | .conditional condition thenValue elseValue =>
      rw [Expr.constants, fits_append, fits_append] at hfits
      rw [Expr.toJson, Json.depth_tagged, Json.depth_three] at hd
      have hcondition := condition.decodes hfits.1 (d := d) (by omega)
      have hthen := thenValue.decodes hfits.2.1 (d := d) (by omega)
      have helse := elseValue.decodes hfits.2.2 (d := d) (by omega)
      unfold Decodes at hcondition hthen helse
      rw [Expr.toJson, Json.written_tagged, Json.written_three, Expr.ofJson?_conditional,
        Expr.constants,
        allFinite_append, allFinite_append]
      simp (disch := decide) only [Option.bind_eq_bind, Option.bind_some, Json.fields?_three,
        hcondition, hthen, helse]
      cases allFinite condition.constants <;> cases allFinite thenValue.constants <;>
        cases allFinite elseValue.constants <;> rfl

theorem decodes_exprs (es : List Expr) (hfits : ∀ c ∈ constantsAll es, c.Fits) {d : Nat}
    (hd : depthAll (exprsToJson es) ≤ d) :
    (writtenAll (exprsToJson es)).mapM (Expr.ofJson? d) =
      if allFinite (constantsAll es) then some es else none := by
  match es with
  | [] => rfl
  | e :: es =>
      rw [constantsAll, fits_append] at hfits
      rw [exprsToJson, depthAll] at hd
      have he := e.decodes hfits.1 (d := d) (by omega)
      have hes := decodes_exprs es hfits.2 (d := d) (by omega)
      unfold Decodes at he
      rw [exprsToJson, writtenAll, constantsAll, allFinite_append, List.mapM_cons, he, hes]
      cases allFinite e.constants <;> cases allFinite (constantsAll es) <;> rfl

theorem decodes_entries (entries : List (Expr × Expr))
    (hfits : ∀ c ∈ constantsEntries entries, c.Fits) {d : Nat}
    (hd : depthAll (entriesToJson entries) ≤ d) :
    (writtenAll (entriesToJson entries)).mapM (pairOf? (Expr.ofJson? d) (Expr.ofJson? d)) =
      if allFinite (constantsEntries entries) then some entries else none := by
  match entries with
  | [] => rfl
  | (key, value) :: entries =>
      rw [constantsEntries, fits_append, fits_append] at hfits
      rw [entriesToJson, depthAll, Json.depth_pair] at hd
      have hkey := key.decodes hfits.1 (d := d) (by omega)
      have hvalue := value.decodes hfits.2.1 (d := d) (by omega)
      have hentries := decodes_entries entries hfits.2.2 (d := d) (by omega)
      unfold Decodes at hkey hvalue
      rw [entriesToJson, writtenAll, Json.written_pair, constantsEntries, allFinite_append,
        allFinite_append, List.mapM_cons, pairOf?, hkey, hvalue, hentries]
      cases allFinite key.constants <;> cases allFinite value.constants <;>
        cases allFinite (constantsEntries entries) <;> rfl

theorem decodes_keywords (keywords : List (Text × Expr))
    (hfits : ∀ c ∈ constantsKeywords keywords, c.Fits) {d : Nat}
    (hd : depthAll (keywordsToJson keywords) ≤ d) :
    (writtenAll (keywordsToJson keywords)).mapM (pairOf? text? (Expr.ofJson? d)) =
      if allFinite (constantsKeywords keywords) then some keywords else none := by
  match keywords with
  | [] => rfl
  | (name, value) :: keywords =>
      rw [constantsKeywords, fits_append] at hfits
      rw [keywordsToJson, depthAll, Json.depth_pair] at hd
      have hvalue := value.decodes hfits.1 (d := d) (by omega)
      have hkeywords := decodes_keywords keywords hfits.2 (d := d) (by omega)
      unfold Decodes at hvalue
      rw [keywordsToJson, writtenAll, Json.written_pair, constantsKeywords, allFinite_append,
        List.mapM_cons, pairOf?, hvalue, hkeywords]
      cases allFinite value.constants <;> cases allFinite (constantsKeywords keywords) <;> rfl

theorem decodes_bound (bound : Option Expr) (hfits : ∀ c ∈ constantsBound bound, c.Fits) {d : Nat}
    (hd : depth (boundToJson bound) ≤ d) :
    optionalOf? (Expr.ofJson? d) (some (written (boundToJson bound))) =
      if allFinite (constantsBound bound) then some bound else none := by
  match bound with
  | none => rfl
  | some e =>
      have he := e.decodes hfits hd
      unfold Decodes at he
      obtain ⟨members, hobject⟩ := e.toJson_object
      rw [boundToJson, hobject, Json.optionalOf?_object, ← hobject, he, constantsBound]
      cases allFinite e.constants <;> rfl

end

end Decoding

end TemplateEngine
