import TemplateEngine.Proofs.Syntax.Operands
import TemplateEngine.Proofs.Syntax.Roots

/-!
# The names of named arguments

The parser of arguments keeps those that it has read, and looks for the name of each new one
among theirs. So in every call of an expression that was read, however deep inside, the named
arguments have different names.
-/
namespace TemplateEngine

/-- In every call inside an expression, the named arguments have different names. -/
inductive Expr.WellNamed : Expr → Prop
  | constant {c : Constant} : WellNamed (.constant c)
  | name {n : Text} : WellNamed (.name n)
  | list {items : List Expr} : (∀ e ∈ items, WellNamed e) → WellNamed (.list items)
  | tuple {items : List Expr} : (∀ e ∈ items, WellNamed e) → WellNamed (.tuple items)
  | dict {entries : List (Expr × Expr)} : (∀ entry ∈ entries, WellNamed entry.1) →
      (∀ entry ∈ entries, WellNamed entry.2) → WellNamed (.dict entries)
  | member {object : Expr} {n : Text} : WellNamed object → WellNamed (.attribute object n)
  | index {object key : Expr} : WellNamed object → WellNamed key → WellNamed (.index object key)
  | slice {object : Expr} {start stop : Option Expr} : WellNamed object →
      (∀ e ∈ start, WellNamed e) → (∀ e ∈ stop, WellNamed e) →
      WellNamed (.slice object start stop)
  | call {function : Expr} {args : List Expr} {keywords : List (Text × Expr)} :
      WellNamed function → (∀ e ∈ args, WellNamed e) →
      (∀ keyword ∈ keywords, WellNamed keyword.2) → (keywords.map Prod.fst).Nodup →
      WellNamed (.call function args keywords)
  | unary {op : UnaryOp} {e : Expr} : WellNamed e → WellNamed (.unary op e)
  | binary {op : BinaryOp} {lhs rhs : Expr} : WellNamed lhs → WellNamed rhs →
      WellNamed (.binary op lhs rhs)
  | compare {op : CompareOp} {lhs rhs : Expr} : WellNamed lhs → WellNamed rhs →
      WellNamed (.compare op lhs rhs)
  | and {lhs rhs : Expr} : WellNamed lhs → WellNamed rhs → WellNamed (.and lhs rhs)
  | or {lhs rhs : Expr} : WellNamed lhs → WellNamed rhs → WellNamed (.or lhs rhs)
  | not {e : Expr} : WellNamed e → WellNamed (.not e)
  | conditional {condition value otherwise : Expr} : WellNamed condition → WellNamed value →
      WellNamed otherwise → WellNamed (.conditional condition value otherwise)

namespace Parser

open TemplateEngine.Expr (WellNamed)

theorem WellNamed.apply {op : Connective} {lhs rhs : Expr} (hlhs : lhs.WellNamed)
    (hrhs : rhs.WellNamed) : (op.apply lhs rhs).WellNamed := by
  cases op with
  | or => exact .or hlhs hrhs
  | and => exact .and hlhs hrhs
  | compare op => exact .compare hlhs hrhs
  | binary op => exact .binary hlhs hrhs

/-- Named arguments that have different names, all of them well named themselves. -/
structure Apart (args : List Expr) (keywords : List (Text × Expr)) : Prop where
  args : All WellNamed args
  values : ∀ keyword ∈ keywords, keyword.2.WellNamed
  names : (keywords.map Prod.fst).Nodup

theorem apart_nil : Apart [] [] := ⟨all_nil, fun _ h => absurd h List.not_mem_nil, List.nodup_nil⟩

variable {Good : List Token → Prop}

theorem gives_nextKind : Gives Good nextKind fun _ => True := by
  intro X k X' hX hrun
  cases hrun
  exact ⟨trivial, hX⟩

variable [Lasting Good]

theorem gives_bumps (width : Nat) : Gives Good (bumps width) fun _ => True := by
  induction width with
  | zero => exact gives_pure trivial
  | succ width ih => exact gives_bump.bind fun _ _ => ih

theorem gives_stringsLoop (fuel : Nat) : Gives Good (stringsLoop fuel) fun _ => True := by
  induction fuel with
  | zero => exact gives_pure trivial
  | succ fuel ih =>
      refine gives_kind.bind fun k _ => ?_
      split
      · exact gives_bump.bind fun _ _ => ih.bind fun rest _ => gives_pure trivial
      · exact gives_pure trivial

section Operands

variable {operand : Nat → Parser Expr} (hop : ∀ least, Gives Good (operand least) WellNamed)
include hop

theorem gives_conditionalLoop (fuel : Nat) :
    Gives Good (conditionalLoop operand fuel) WellNamed := by
  induction fuel with
  | zero => exact gives_failWanted
  | succ fuel ih =>
      refine (hop orPower).bind fun value hvalue => Gives.bind gives_at fun isIf _ => ?_
      split
      · exact gives_bump.bind fun _ _ => (hop orPower).bind fun condition hcondition =>
          Gives.bind gives_expect fun _ _ => ih.bind fun otherwise hotherwise =>
          gives_pure (.conditional hcondition hvalue hotherwise)
      · exact gives_pure hvalue

theorem gives_expressionWith : Gives Good (expressionWith operand) WellNamed :=
  .looping (gives_conditionalLoop hop)

theorem gives_itemsLoop (close : Symbol) (fuel : Nat) :
    Gives Good (itemsLoop operand close fuel) (All WellNamed) := by
  induction fuel with
  | zero => exact gives_pure all_nil
  | succ fuel ih =>
      refine Gives.bind gives_at fun closed _ => ?_
      split
      · exact gives_pure all_nil
      · refine (gives_expressionWith hop).bind fun item hitem =>
          Gives.bind gives_skip fun more _ => ?_
        split
        · exact ih.bind fun items hitems => gives_pure (hitems.cons hitem)
        · exact gives_pure (all_nil.cons hitem)

theorem gives_itemsUntil (close : Symbol) :
    Gives Good (itemsUntil operand close) (All WellNamed) :=
  (Gives.looping (gives_itemsLoop hop close)).bind fun _ hitems =>
    Gives.bind gives_expect fun _ _ => gives_pure hitems

theorem gives_tupleLoop (stop : TokenKind → Bool) (fuel : Nat) :
    Gives Good (tupleLoop operand stop fuel) (All WellNamed) := by
  induction fuel with
  | zero => exact gives_pure all_nil
  | succ fuel ih =>
      refine Gives.bind gives_skip fun more _ => ?_
      split
      · refine gives_kind.bind fun k _ => ?_
        split
        · exact gives_pure all_nil
        · exact (gives_expressionWith hop).bind fun item hitem =>
            ih.bind fun items hitems => gives_pure (hitems.cons hitem)
      · exact gives_pure all_nil

theorem gives_parenthesized : Gives Good (parenthesized operand) WellNamed := by
  refine Gives.bind gives_skip fun closed _ => ?_
  split
  · exact gives_pure (.tuple all_nil)
  · refine (gives_expressionWith hop).bind fun first hfirst =>
      Gives.bind gives_skip fun closed _ => ?_
    split
    · exact gives_pure hfirst
    · exact (Gives.looping (gives_tupleLoop hop _)).bind fun items hitems =>
        Gives.bind gives_expect fun _ _ => gives_pure (.tuple (hitems.cons hfirst))

theorem gives_entriesLoop (fuel : Nat) : Gives Good (entriesLoop operand fuel) fun entries =>
    ∀ entry ∈ entries, entry.1.WellNamed ∧ entry.2.WellNamed := by
  induction fuel with
  | zero => exact gives_pure nofun
  | succ fuel ih =>
      refine Gives.bind gives_at fun closed _ => ?_
      split
      · exact gives_pure nofun
      · refine (gives_expressionWith hop).bind fun key hkey => Gives.bind gives_expect fun _ _ =>
          (gives_expressionWith hop).bind fun value hvalue => Gives.bind gives_skip fun more _ => ?_
        split
        · exact ih.bind fun entries hentries =>
            gives_pure (List.forall_mem_cons.mpr ⟨⟨hkey, hvalue⟩, hentries⟩)
        · exact gives_pure (List.forall_mem_singleton.mpr ⟨hkey, hvalue⟩)

theorem gives_atom : Gives Good (atom operand) WellNamed := by
  refine gives_kind.bind fun k _ => ?_
  split
  · exact gives_bump.bind fun _ _ => gives_pure .constant
  · exact gives_bump.bind fun _ _ => gives_pure .constant
  · exact gives_bump.bind fun _ _ => gives_pure .constant
  · exact gives_bump.bind fun _ _ => gives_pure .constant
  · exact (Gives.looping gives_stringsLoop).bind fun _ _ => gives_pure .constant
  · exact gives_bump.bind fun _ _ => gives_pure .name
  · exact gives_bump.bind fun _ _ => gives_parenthesized hop
  · exact gives_bump.bind fun _ _ => (gives_itemsUntil hop _).bind fun _ hitems =>
      gives_pure (.list hitems)
  · exact gives_bump.bind fun _ _ => (Gives.looping (gives_entriesLoop hop)).bind
      fun entries hentries => Gives.bind gives_expect fun _ _ =>
      gives_pure (.dict (fun entry hentry => (hentries entry hentry).1)
        fun entry hentry => (hentries entry hentry).2)
  · exact gives_failWanted

/-- A new name is not among those that were read before. -/
theorem gives_argumentsLoop {args : List Expr} {keywords : List (Text × Expr)}
    (hread : Apart args keywords) (fuel : Nat) :
    Gives Good (argumentsLoop operand args keywords fuel) fun found => Apart found.1 found.2 := by
  induction fuel generalizing args keywords with
  | zero => exact gives_pure hread
  | succ fuel ih =>
      rw [argumentsLoop_succ]
      refine Gives.bind gives_at fun closed _ => ?_
      split
      · exact gives_pure hread
      refine gives_kind.bind fun current _ => gives_nextKind.bind fun following _ => ?_
      unfold argument
      split
      · rename_i name _
        refine gives_bump.bind fun _ _ => gives_bump.bind fun _ _ =>
          (gives_expressionWith hop).bind fun value hvalue => ?_
        dsimp only
        split
        · exact Gives.bind gives_fail fun _ (h : False) => h.elim
        · rename_i hnew
          have hnext : Apart args (keywords ++ [(name, value)]) := by
            refine ⟨hread.args, List.forall_mem_append.mpr
              ⟨hread.values, List.forall_mem_singleton.mpr hvalue⟩, ?_⟩
            rw [List.map_append]
            refine List.nodup_append.mpr ⟨hread.names, List.pairwise_singleton _ _, ?_⟩
            intro known hknown other hother heq
            cases List.mem_singleton.mp hother
            obtain ⟨entry, hentry, hname⟩ := List.mem_map.mp hknown
            exact hnew (List.any_eq_true.mpr ⟨entry, hentry, decide_eq_true (hname.trans heq)⟩)
          refine Gives.bind gives_skip fun more _ => ?_
          split
          · exact ih hnext
          · exact gives_pure hnext
      · unfold positional
        split
        · exact Gives.bind gives_fail fun _ (h : False) => h.elim
        · refine (gives_expressionWith hop).bind fun arg harg => ?_
          have hnext : Apart (args ++ [arg]) keywords :=
            ⟨hread.args.append (all_nil.cons harg), hread.values, hread.names⟩
          refine Gives.bind gives_skip fun more _ => ?_
          split
          · exact ih hnext
          · exact gives_pure hnext

theorem gives_subscript {object : Expr} (hobject : object.WellNamed) :
    Gives Good (subscript operand object) WellNamed := by
  have hbound (e : Expr) (he : e.WellNamed) : ∀ e' ∈ some e, e'.WellNamed := by
    rintro e' ⟨⟩
    exact he
  refine Gives.bind gives_at fun isSlice _ =>
    .unless (P := fun start => ∀ e ∈ start, e.WellNamed) nofun
      ((gives_expressionWith hop).mono hbound) fun start hstart =>
    Gives.bind gives_skip fun more _ => ?_
  split
  · exact Gives.bind gives_at fun closed _ =>
      .unless (P := fun stop => ∀ e ∈ stop, e.WellNamed) nofun
        ((gives_expressionWith hop).mono hbound) fun stop hstop =>
      Gives.bind gives_expect fun _ _ => gives_pure (.slice hobject hstart hstop)
  · refine Gives.bind gives_expect fun _ _ => ?_
    split
    · exact gives_pure (.index hobject (hstart _ rfl))
    · exact gives_fail

theorem gives_trailersLoop {e : Expr} (he : e.WellNamed) (fuel : Nat) :
    Gives Good (trailersLoop operand e fuel) WellNamed := by
  induction fuel generalizing e with
  | zero => exact gives_pure he
  | succ fuel ih =>
      refine gives_kind.bind fun k _ => ?_
      split
      · refine gives_bump.bind fun _ _ =>
          (Gives.looping fun fuel => gives_argumentsLoop hop apart_nil fuel).bind
            fun found hfound => Gives.bind gives_expect fun _ _ => ?_
        exact ih (.call he hfound.args hfound.values hfound.names)
      · exact gives_bump.bind fun _ _ => (gives_subscript hop he).bind fun _ hitem => ih hitem
      · exact gives_bump.bind fun _ _ => gives_identifier.bind fun name _ => ih (.member he)
      · exact gives_pure he

theorem gives_headed : Gives Good (headed operand) WellNamed := by
  refine gives_kind.bind fun k _ => ?_
  split
  · exact gives_bump.bind fun _ _ => (hop _).bind fun _ he => gives_pure (.not he)
  · exact gives_bump.bind fun _ _ => (hop _).bind fun _ he => gives_pure (.unary he)
  · exact gives_bump.bind fun _ _ => (hop _).bind fun _ he => gives_pure (.unary he)
  · exact (gives_atom hop).bind fun _ he => .looping (gives_trailersLoop hop he)

theorem gives_chainLoop (least : Nat) {lhs : Expr} (hlhs : lhs.WellNamed) (fuel : Nat) :
    Gives Good (chainLoop operand least lhs fuel) WellNamed := by
  induction fuel generalizing lhs with
  | zero => exact gives_pure hlhs
  | succ fuel ih =>
      rw [chainLoop_succ]
      refine gives_kind.bind fun current _ => gives_nextKind.bind fun next _ => ?_
      cases connectiveAt? current next with
      | none => exact gives_pure hlhs
      | some found =>
          obtain ⟨power, op, width⟩ := found
          unfold link
          dsimp only
          split
          · exact gives_pure hlhs
          · exact (gives_bumps width).bind fun _ _ => (hop _).bind fun _ hrhs =>
              ih (WellNamed.apply hlhs hrhs)

end Operands

theorem gives_operand (depth least : Nat) : Gives Good (operand depth least) WellNamed := by
  induction depth generalizing least with
  | zero => exact gives_fail
  | succ depth ih => exact (gives_headed ih).bind fun _ he => .looping (gives_chainLoop ih least he)

theorem wellNamed_expression : Gives Good expression WellNamed :=
  gives_expressionWith (gives_operand _)

theorem wellNamed_expressionList : Gives Good expressionList WellNamed := by
  refine wellNamed_expression.bind fun first hfirst => Gives.bind gives_at fun more _ => ?_
  split
  · exact (Gives.looping (gives_tupleLoop (gives_operand _) _)).bind fun items hitems =>
      gives_pure (.tuple (hitems.cons hfirst))
  · exact gives_pure hfirst

end Parser

/-- In every call of a program that was read, the named arguments have different names. -/
theorem wellNamed_of_parseProgram {source : Text} {program : Block}
    (h : parseProgram source = .ok program) : ∀ e ∈ expressionsBlock program, e.WellNamed := by
  have hexpr : Parser.Gives (fun _ => True) Parser.expression Expr.WellNamed :=
    Parser.wellNamed_expression
  exact Parser.expressions_of_parseProgram hexpr Parser.wellNamed_expressionList
    (fun _ _ => trivial) h

end TemplateEngine
