import TemplateEngine.Script.Builtin
import TemplateEngine.Script.Evaluation.Statement
import TemplateEngine.Script.Method

/-!
# How operations fail

Operators, subscripts, formats, methods and built-in functions fail for many causes, but
never for the one that an augmented assignment to an illegal target has: only such an
assignment has it.
-/
namespace TemplateEngine

/-- A result that is not the failure of an augmented assignment to an illegal target. -/
def Proper {α : Type} (x : Except Cause α) : Prop := x ≠ .error .illegalAugmentedTarget

namespace Proper

variable {α β : Type}

@[simp] theorem ok (a : α) : Proper (.ok a) := nofun

@[simp] theorem pure (a : α) : Proper (Pure.pure a) := ok a

@[simp] theorem error_iff {cause : Cause} :
    Proper (.error cause : Except Cause α) ↔ cause ≠ .illegalAugmentedTarget := by
  simp [Proper]

@[simp] theorem throw_iff {cause : Cause} :
    Proper (throw cause : Except Cause α) ↔ cause ≠ .illegalAugmentedTarget := error_iff

theorem throw_bind {cause : Cause} (hcause : cause ≠ .illegalAugmentedTarget)
    (f : α → Except Cause β) : Proper (throw cause >>= f) := error_iff.mpr hcause

theorem bind {x : Except Cause α} {f : α → Except Cause β} (hx : Proper x)
    (hf : ∀ a, Proper (f a)) : Proper (x >>= f) := by
  cases x with
  | error cause => exact error_iff.mpr (error_iff.mp hx)
  | ok a => exact hf a

theorem map {x : Except Cause α} (f : α → β) (hx : Proper x) : Proper (x.map f) := by
  cases x with
  | error cause => exact error_iff.mpr (error_iff.mp hx)
  | ok a => exact ok (f a)

theorem mapM {f : α → Except Cause β} (hf : ∀ a, Proper (f a)) (items : List α) :
    Proper (items.mapM f) := by
  induction items with
  | nil =>
      rw [List.mapM_nil]
      exact pure []
  | cons item items ih =>
      rw [List.mapM_cons]
      exact (hf item).bind fun b => ih.bind fun bs => pure _

end Proper

section Arguments

theorem Arguments.proper_check (args : Arguments) (function : Text) (least : Nat)
    (most : Option Nat) (names : List Text) : Proper (args.check function least most names) := by
  unfold Arguments.check
  dsimp only
  split
  · simp
  · split <;> simp

theorem Arguments.proper_single (args : Arguments) (function : Text) :
    Proper (args.single function) :=
  (args.proper_check function 1 (some 1) []).bind fun _ => Proper.pure _

theorem proper_textArgument (function : Text) (v : Value) : Proper (textArgument function v) := by
  unfold textArgument
  split <;> simp

theorem proper_integerArgument (function : Text) (v : Value) :
    Proper (integerArgument function v) := by
  unfold integerArgument
  split <;> simp

theorem Heap.proper_iterate (h : Heap) (v : Value) : Proper (h.iterate v) := by
  unfold Heap.iterate
  split
  · split <;> simp
  all_goals simp

end Arguments

section Operators

namespace Number

theorem proper_checked (n : Int) : Proper (checked n) := by
  unfold checked
  split <;> simp

theorem proper_ofInts (op : BinaryOp) (a b : Int) : Proper (ofInts op a b) := by
  unfold ofInts
  split
  · exact proper_checked _
  · exact proper_checked _
  · exact proper_checked _
  · split <;> simp
  · split
    · simp
    · split <;> simp
  · split <;> simp

theorem proper_ofFloats (op : BinaryOp) (a b : Float) : Proper (ofFloats op a b) := by
  unfold ofFloats
  split
  · simp
  · simp
  · simp
  all_goals split <;> simp

theorem proper_arithmetic (op : BinaryOp) (a b : Number) : Proper (arithmetic op a b) := by
  unfold arithmetic
  split
  · exact proper_ofInts op _ _
  · exact proper_ofFloats op _ _

theorem proper_compare (a b : Number) : Proper (compare a b) := by
  unfold compare
  split
  · simp
  · split <;> simp

end Number

theorem Operator.proper_repeated {α : Type} (sequence : SequenceKind) (size : Nat)
    (items : List α) (count : Int) : Proper (repeated sequence size items count) := by
  unfold repeated
  split <;> simp

theorem Operator.proper_unary (op : UnaryOp) (v : Value) : Proper (unary op v) := by
  unfold unary
  split <;> first | exact Number.proper_checked _ | simp

theorem proper_compareItems {equal : Value → Value → Bool}
    {compare : Value → Value → Except Cause Ordering} (hcompare : ∀ a b, Proper (compare a b))
    (as bs : List Value) : Proper (compareItems equal compare as bs) := by
  fun_induction compareItems equal compare as bs with
  | case1 => simp
  | case2 => simp
  | case3 => simp
  | case4 a as b bs hequal ih => exact ih
  | case5 a as b bs hequal => exact hcompare a b

theorem Heap.proper_compareTo (h : Heap) (operator : Text) (depth : Nat) (a b : Value) :
    Proper (h.compareTo operator depth a b) := by
  induction depth generalizing a b with
  | zero => exact Proper.ok _
  | succ depth ih =>
      unfold Heap.compareTo
      split
      · exact Number.proper_compare _ _
      · split
        · exact proper_compareItems ih _ _
        · exact proper_compareItems ih _ _
        · split <;> simp

theorem Heap.proper_holds (h : Heap) (container item : Value) :
    Proper (h.holds container item) := by
  unfold Heap.holds
  split
  · split <;> simp
  · split <;> simp
  all_goals simp

theorem Operator.proper_compare (h : Heap) (op : CompareOp) (a b : Value) :
    Proper (Operator.compare h op a b) := by
  have hcompare (operator : Text) : Proper (h.compare operator a b) :=
    h.proper_compareTo operator h.depth a b
  cases op with
  | eq => exact Proper.ok _
  | ne => exact Proper.ok _
  | lt => exact (hcompare _).map _
  | le => exact (hcompare _).map _
  | gt => exact (hcompare _).map _
  | ge => exact (hcompare _).map _
  | isIn => exact h.proper_holds b a
  | notIn => exact (h.proper_holds b a).map _
  | is => exact Proper.ok _
  | isNot => exact Proper.ok _

end Operators

namespace Format

theorem proper_integerPart (x : Float) : Proper (integerPart x) := by
  unfold integerPart
  split <;> simp

theorem proper_convert (h : Heap) (field : Field) (conversion : Char) (v : Value) :
    Proper (convert h field conversion v) := by
  unfold convert
  split
  · simp
  · split
    · simp
    · split
      · split
        · simp
        · exact (proper_integerPart _).map _
        · simp
      · split
        · split <;> simp
        · simp

/-- A piece that is no broken one, or breaks off for a proper cause. -/
def Piece.Proper : Piece → Prop
  | .broken cause => cause ≠ .illegalAugmentedTarget
  | _ => True

theorem proper_stepWidth (field : Field) (c : Char) : ∀ p ∈ (stepWidth field c).1, p.Proper := by
  unfold stepWidth
  dsimp only
  split
  · split <;> simp [Piece.Proper]
  · split <;> simp [Piece.Proper]

theorem proper_step (reading : Reading) (c : Char) : ∀ p ∈ (step reading c).1, p.Proper := by
  unfold step
  split
  · split <;> simp [Piece.Proper]
  · split
    · simp [Piece.Proper]
    · split
      · simp
      · split
        · simp
        · exact proper_stepWidth _ c
  · split
    · simp
    · split
      · simp
      · exact proper_stepWidth _ c
  · exact proper_stepWidth _ c
  · split
    · dsimp only
      split <;> simp [Piece.Proper]
    · simp [Piece.Proper]

theorem proper_piecesFrom (reading : Reading) (t : Text) :
    ∀ p ∈ piecesFrom reading t, p.Proper := by
  fun_induction piecesFrom reading t with
  | case1 => simp
  | case2 reading hreading => simp [Piece.Proper]
  | case3 reading c rest pieces next hstep ih =>
      have hpieces := proper_step reading c
      rw [hstep] at hpieces
      exact List.forall_mem_append.mpr ⟨hpieces, ih⟩
  | case4 reading c rest pieces hstep =>
      have hpieces := proper_step reading c
      rwa [hstep] at hpieces

theorem proper_fill (h : Heap) {pieces : List Piece} (hpieces : ∀ p ∈ pieces, p.Proper)
    (values : List Value) : Proper (fill h pieces values) := by
  fun_induction fill h pieces values with
  | case1 => simp
  | case2 => simp
  | case3 c rest values ih => exact (ih fun p hp => hpieces p (.tail _ hp)).map _
  | case4 cause rest values => exact Proper.error_iff.mpr (hpieces _ (.head _))
  | case5 => simp
  | case6 field conversion rest v values ih =>
      apply Proper.bind (proper_convert h field conversion v)
      intro converted
      exact (ih fun p hp => hpieces p (.tail _ hp)).bind fun more => Proper.pure _

theorem proper_apply (h : Heap) (format : Text) (v : Value) : Proper (apply h format v) := by
  have hpieces : ∀ p ∈ pieces format, p.Proper := proper_piecesFrom .text format
  unfold apply
  split <;> exact proper_fill h hpieces _

end Format

namespace Subscript

theorem proper_index (container v : Value) : Proper (index container v) := by
  unfold index
  split <;> simp

theorem proper_key (v : Value) : Proper (key v) := by
  unfold key
  split <;> simp

theorem proper_itemAt {α : Type} (sequence : SequenceKind) (items : List α) (n : Int) :
    Proper (itemAt sequence items n) := by
  unfold itemAt
  split <;> simp

theorem proper_bound? (bound : Option Value) : Proper (bound? bound) := by
  unfold bound?
  split
  · simp
  · simp
  · split <;> simp

theorem proper_get (h : Heap) (object v : Value) : Proper (get h object v) := by
  unfold get
  split
  · exact (proper_index _ _).bind fun n => proper_itemAt _ _ _
  · exact (proper_index _ _).bind fun n => proper_itemAt _ _ _
  · apply (proper_index _ _).bind
    intro n
    split <;> simp
  · exact (proper_index _ _).bind fun n => (proper_itemAt _ _ _).bind fun c => Proper.pure _
  · exact (proper_index _ _).bind fun n => (proper_itemAt _ _ _).bind fun c => Proper.pure _
  · apply (proper_key _).bind
    intro name
    split <;> simp
  · simp

end Subscript

namespace Sorting

variable {compare : Value → Value → Except Cause Ordering}

theorem proper_place (hcompare : ∀ a b, Proper (compare a b)) (item : Value)
    (items : List Value) : Proper (place compare item items) := by
  induction items with
  | nil => exact Proper.ok _
  | cons last others ih =>
      unfold place
      apply (hcompare item last).bind
      intro order
      split
      · exact ih.bind fun placed => Proper.pure _
      · exact Proper.pure _

theorem proper_placeAll (hcompare : ∀ a b, Proper (compare a b)) (placed items : List Value) :
    Proper (placeAll compare placed items) := by
  induction items generalizing placed with
  | nil => exact Proper.ok _
  | cons item items ih => exact (proper_place hcompare item placed).bind fun placed => ih placed

theorem proper_sorted (h : Heap) (reverse : Bool) (items : List Value) :
    Proper (sorted h reverse items) :=
  ((proper_placeAll (fun a b => h.proper_compareTo "<" h.depth a b) [] items).map _).map _

theorem proper_extremeFrom (h : Heap) (wanted : Ordering) (best : Value) (items : List Value) :
    Proper (extremeFrom h wanted best items) := by
  induction items generalizing best with
  | nil => exact Proper.ok _
  | cons item items ih =>
      exact (h.proper_compareTo "<" h.depth item best).bind fun order => ih _

theorem proper_extreme? (h : Heap) (wanted : Ordering) (items : List Value) :
    Proper (extreme? h wanted items) := by
  cases items with
  | nil => exact Proper.ok _
  | cons item items => exact (proper_extremeFrom h wanted item items).map _

end Sorting

namespace TextMethod

theorem proper_stripped (method : TextMethod) (args : Arguments) :
    Proper (stripped method args) := by
  apply (args.proper_check _ _ _ _).bind
  intro _
  split
  · exact Proper.pure _
  · exact Proper.pure _
  · exact (proper_textArgument _ _).bind fun t => Proper.pure _

theorem proper_pieces (args : Arguments) (t : Text) : Proper (pieces args t) := by
  apply (args.proper_check _ _ _ _).bind
  intro _
  split
  · exact Proper.pure _
  · exact Proper.pure _
  · apply (proper_textArgument _ _).bind
    intro separator
    split
    · exact Proper.throw_bind (by nofun) _
    · exact Proper.pure _

theorem proper_meets (h : Heap) (method : TextMethod) (test : Text → Bool) (args : Arguments) :
    Proper (meets h method test args) :=
  (args.proper_single _).bind fun _ =>
    (Proper.mapM (proper_textArgument _) _).bind fun _ => Proper.pure _

theorem proper_text? {h : Heap} {method : TextMethod} {args : Arguments} {t : Text}
    {x : Except Cause Text} (hx : text? h method args t = some x) : Proper x := by
  have hplain (f : Text → Text) :
      Proper (do args.check method.name.toList 0 (some 0) []; return f t) :=
    (args.proper_check _ _ _ _).bind fun _ => Proper.pure _
  have hstrip : Proper (do return trimmed method (← stripped method args) t) :=
    (proper_stripped method args).bind fun _ => Proper.pure _
  unfold text? at hx
  split at hx
  · cases hx; exact hplain _
  · cases hx; exact hplain _
  · cases hx; exact hplain _
  · cases hx; exact hstrip
  · cases hx; exact hstrip
  · cases hx; exact hstrip
  · cases hx
    apply (args.proper_single _).bind
    intro v
    exact (h.proper_iterate v).bind fun items =>
      (Proper.mapM (proper_textArgument _) items).bind fun _ => Proper.pure _
  · cases hx
    apply (args.proper_check _ _ _ _).bind
    intro _
    exact (proper_textArgument _ _).bind fun _ => (proper_textArgument _ _).bind fun _ =>
      Proper.pure _
  · cases hx

end TextMethod

namespace ListMethod

theorem proper_popPlace (items : List Value) (args : Arguments) : Proper (popPlace items args) := by
  unfold popPlace
  by_cases hempty : items.isEmpty = true
  · rw [if_pos hempty]
    exact Proper.throw_bind (by nofun) _
  · rw [if_neg hempty]
    cases args.at? 0 with
    | none =>
        apply Proper.bind (Proper.pure (-1))
        intro n
        dsimp only
        split <;> simp
    | some v =>
        apply (proper_integerArgument _ v).bind
        intro n
        dsimp only
        split <;> simp

theorem proper_placeOf (h : Heap) (items : List Value) (v : Value) :
    Proper (placeOf h items v) := by
  unfold placeOf
  split <;> simp

end ListMethod

namespace Builtin

theorem proper_lengthOf (h : Heap) (v : Value) : Proper (lengthOf h v) := by
  unfold lengthOf
  split
  any_goals simp
  split <;> simp

theorem proper_integerOf (v : Option Value) : Proper (integerOf v) := by
  unfold integerOf
  split
  · simp
  · simp
  · simp
  · exact Format.proper_integerPart _
  · split <;> simp
  · split <;> simp
  · simp

theorem proper_floatOf (h : Heap) (v : Option Value) : Proper (floatOf h v) := by
  unfold floatOf
  split
  · simp
  · split
    · simp
    · split <;> simp
    · simp

theorem proper_rangeOf (args : Arguments) : Proper (rangeOf args) := by
  apply (args.proper_check _ _ _ _).bind
  intro _
  apply (Proper.mapM (proper_integerArgument _) _).bind
  intro numbers
  have hstep (r : Range) :
      Proper (if r.step = 0 then do throw Cause.zeroStep; return r else return r) := by
    split
    · exact Proper.throw_bind (by nofun) _
    · exact Proper.pure r
  exact hstep _

theorem proper_absoluteOf (v : Value) : Proper (absoluteOf v) := by
  unfold absoluteOf
  split
  · exact Number.proper_checked _
  · simp
  · simp

end Builtin

theorem Inclusion.proper_vars (h : Heap) (function : Text) (args : Arguments) :
    Proper (vars h function args) := by
  unfold vars
  split <;> simp

theorem Heap.proper_catchesTo (h : Heap) (kind : ExceptionKind) (depth : Nat) (v : Value) :
    Proper (h.catchesTo kind depth v) := by
  induction depth generalizing v with
  | zero => exact Proper.ok _
  | succ depth ih =>
      unfold Heap.catchesTo
      split
      · simp
      · rename_i p
        induction h.tuple p with
        | nil => exact Proper.ok _
        | cons w rest ihrest =>
            apply (ih w).bind
            intro caught
            split
            · exact Proper.pure _
            · exact ihrest
      · simp

end TemplateEngine
