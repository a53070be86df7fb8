import TemplateEngine.Proofs.Syntax.Constants
import TemplateEngine.Proofs.Syntax.Grammar
import TemplateEngine.Proofs.Syntax.Roots
import TemplateEngine.Proofs.Syntax.Rounds

/-!
# Integers of a program

Every integer of a parsed program is a machine integer. The numbers of a source are
cut into tokens that hold machine integers, and every integer of an expression comes from
a token that the expression is made of.
-/
namespace TemplateEngine

/-- A token that holds a machine integer, or no integer at all. -/
def TokenKind.Fits (k : TokenKind) : Prop := ∀ n : Nat, k = .int n → Word.Fits n

/-- Constants of which the integers are machine integers. -/
def ConstantsFit (constants : List Constant) : Prop := ∀ c ∈ constants, c.Fits

theorem constantsFit_nil : ConstantsFit [] := fun _ hc => nomatch hc

theorem ConstantsFit.append {constants others : List Constant} (h : ConstantsFit constants)
    (h' : ConstantsFit others) : ConstantsFit (constants ++ others) := fits_append.mpr ⟨h, h'⟩

theorem ConstantsFit.singleton {c : Constant} (h : c.Fits) : ConstantsFit [c] := by
  intro d hd
  rwa [List.mem_singleton.mp hd]

namespace Word

theorem fits_of_checked? {n m : Int} (h : checked? n = some m) : Fits m := by
  rw [checked?] at h
  split at h
  · rwa [← Option.some.inj h]
  · exact nomatch h

theorem fits_of_ofText? {t : Text} {n : Int} (h : ofText? t = some n) : Fits n := by
  rw [ofText?.eq_def] at h
  split at h <;>
    (obtain ⟨_, _, hn⟩ := Option.bind_eq_some_iff.mp h; exact fits_of_checked? hn)

theorem fits_toNat {n : Int} (h : Fits n) : Fits n.toNat := by
  unfold Fits least greatest at *
  omega

end Word

namespace Lexer

/-- Tokens that hold no integers but machine integers. -/
def Fit (tokens : List Token) : Prop := ∀ t ∈ tokens, t.kind.Fits

theorem fit_nil : Fit [] := fun _ ht => nomatch ht

theorem fit_singleton {t : Token} (h : t.kind.Fits) : Fit [t] := by
  intro u hu
  rwa [List.mem_singleton.mp hu]

theorem fit_replicate {t : Token} (h : t.kind.Fits) (n : Nat) : Fit (List.replicate n t) := by
  intro u hu
  rwa [List.eq_of_mem_replicate hu]

theorem fit_append {tokens others : List Token} (h : Fit tokens) (h' : Fit others) :
    Fit (tokens ++ others) := by
  intro t ht
  rcases List.mem_append.mp ht with ht | ht
  · exact h t ht
  · exact h' t ht

theorem fits_number {p : Position} {t : Text} {found : Literal.Scanned}
    (h : Literal.number p t = .ok found) : found.kind.Fits := by
  unfold Literal.number at h
  simp only at h
  split at h
  · rename_i kind hkind
    cases h
    intro n hn
    change kind = .int n at hn
    subst hn
    split at hkind
    · obtain ⟨m, hm, hk⟩ := Option.map_eq_some_iff.mp hkind
      obtain rfl := TokenKind.int.inj hk
      exact Word.fits_toNat (Word.fits_of_ofText? hm)
    · obtain ⟨x, -, hk⟩ := Option.map_eq_some_iff.mp hkind
      exact nomatch hk
  · cases h

theorem kind_stringBody {start : Position} {quote : Char} {triple : Bool}
    {mode : Literal.StringMode} {p : Position} {value t : Text} {found : Literal.Scanned}
    (h : Literal.stringBody start quote triple mode p value t = .ok found) :
    ∃ s, found.kind = .string s := by
  fun_induction Literal.stringBody start quote triple mode p value t <;> grind

theorem fits_string {p : Position} {quote : Char} {t : Text} {found : Literal.Scanned}
    (h : Literal.string p quote t = .ok found) : found.kind.Fits := by
  have hkind : ∃ s, found.kind = .string s := by
    unfold Literal.string at h
    split at h
    · split at h <;> exact kind_stringBody h
    · exact kind_stringBody h
  obtain ⟨s, hs⟩ := hkind
  intro n hn
  rw [hs] at hn
  cases hn

theorem fits_ofWord (word : Text) : (TokenKind.ofWord word).Fits := by
  intro n hn
  unfold TokenKind.ofWord at hn
  grind

theorem fit_layout {s next : Lexer} {tokens : List Token} (h : s.layout = .ok (tokens, next)) :
    Fit tokens := by
  unfold layout at h
  simp only at h
  split at h
  · cases h
    exact fit_nil
  · split at h
    · cases h
      exact fit_singleton (by intro n hn; cases hn)
    · split at h
      · split at h
        · cases h
          exact fit_replicate (by intro n hn; cases hn) _
        · cases h
      · cases h
        exact fit_nil

/-- The tokens of a round. -/
def Round.tokens : Round → List Token
  | more tokens _ => tokens
  | done tokens => tokens
  | failed _ _ => []

theorem fit_token (s : Lexer) (c : Char) (after : Text) : Fit (s.token c after).tokens := by
  unfold token
  simp only
  split
  · exact fit_singleton (fits_ofWord _)
  · split
    · split
      · exact fit_singleton (fits_number ‹_›)
      · exact fit_nil
    · split
      · split
        · exact fit_singleton (fits_string ‹_›)
        · exact fit_nil
      · split
        · exact fit_nil
        · split
          · exact fit_nil
          · exact fit_singleton (by intro n hn; cases hn)

theorem fit_closing (s : Lexer) : Fit s.closing := by
  unfold closing
  refine fit_append (fit_append ?_ (fit_replicate (by intro n hn; cases hn) _))
    (fit_singleton (by intro n hn; cases hn))
  split
  · exact fit_nil
  · exact fit_singleton (by intro n hn; cases hn)

theorem fit_within (s : Lexer) : Fit s.within.tokens := by
  unfold within
  simp only
  split
  · split
    · exact fit_nil
    · exact fit_closing _
  · split
    · split
      · exact fit_nil
      · split
        · exact fit_nil
        · exact fit_singleton (by intro n hn; cases hn)
    · exact fit_token _ _ _

theorem fit_round (s : Lexer) : Fit s.round.tokens := by
  unfold round
  split
  · split
    · exact fit_nil
    · exact fit_within _
    · exact fit_layout ‹_›
  · exact fit_within _

theorem fit_run (fuel : Nat) (s : Lexer) : Fit (run fuel s).tokens := by
  induction fuel generalizing s with
  | zero => exact fit_nil
  | succ fuel ih =>
      have hround := fit_round s
      rw [run]
      cases h : s.round with
      | more tokens next =>
          rw [h] at hround
          exact fit_append hround (ih next)
      | done tokens =>
          rw [h] at hround
          exact hround
      | failed error openIndents => exact fit_nil

end Lexer

theorem fit_tokenize {source : Text} {tokens : List Token} (h : tokenize source = .ok tokens) :
    Lexer.Fit tokens := by
  unfold tokenize at h
  simp only at h
  split at h
  · cases h
  · cases h
    exact Lexer.fit_run _ _

namespace Parser

open Lexer (Fit)

instance lasting_fit : Lasting Fit where
  tail := fun h t ht => h t (List.mem_of_mem_tail ht)

/-- Kinds of tokens that hold no integers but machine integers. -/
def KindsFit (u : List TokenKind) : Prop := ∀ k ∈ u, k.Fits

theorem kindsFit_append {u v : List TokenKind} :
    KindsFit (u ++ v) ↔ KindsFit u ∧ KindsFit v := List.forall_mem_append

theorem kindsFit_cons {k : TokenKind} {u : List TokenKind} :
    KindsFit (k :: u) ↔ k.Fits ∧ KindsFit u := List.forall_mem_cons

/-- An expression of which the integers are machine integers. -/
def ExprFits (e : Expr) : Prop := ConstantsFit e.constants

section Rules

variable {Inner : List TokenKind → Expr → Prop}
  (hinner : ∀ u e, KindsFit u → Inner u e → ExprFits e) {u : List TokenKind}
include hinner

theorem Full.fits {e : Expr} (h : Full Inner u e) (hu : KindsFit u) : ExprFits e := by
  induction h with
  | operand he => exact hinner _ _ hu he
  | conditional hvalue hcondition _ ih =>
      simp only [kindsFit_append, kindsFit_cons] at hu
      obtain ⟨hu, -, hv, -, hw⟩ := hu
      exact (hinner _ _ hv hcondition).append ((hinner _ _ hu hvalue).append (ih hw))

theorem Items.fits {es : List Expr} (h : Items Inner u es) (hu : KindsFit u) :
    ConstantsFit (constantsAll es) := by
  induction h with
  | nil => exact constantsFit_nil
  | one he => exact (he.fits hinner hu).append constantsFit_nil
  | cons he _ ih =>
      simp only [kindsFit_append, kindsFit_cons] at hu
      exact (he.fits hinner hu.1).append (ih hu.2.2)

theorem Entries.fits {entries : List (Expr × Expr)} (h : Entries Inner u entries)
    (hu : KindsFit u) : ConstantsFit (constantsEntries entries) := by
  induction h with
  | nil => exact constantsFit_nil
  | one hkey hvalue =>
      simp only [kindsFit_append, kindsFit_cons] at hu
      have hvalue := (hvalue.fits hinner hu.2.2).append constantsFit_nil
      exact (hkey.fits hinner hu.1).append hvalue
  | cons hkey hvalue _ ih =>
      simp only [kindsFit_append, kindsFit_cons] at hu
      obtain ⟨hu, -, hv, -, hw⟩ := hu
      exact (hkey.fits hinner hu).append ((hvalue.fits hinner hv).append (ih hw))

theorem Arguments.fits {args : List Expr} {keywords : List (Text × Expr)}
    (h : Arguments Inner u args keywords) (hu : KindsFit u) :
    ConstantsFit (constantsAll args) ∧ ConstantsFit (constantsKeywords keywords) := by
  induction h with
  | nil => exact ⟨constantsFit_nil, constantsFit_nil⟩
  | one he => exact ⟨(he.fits hinner hu).append constantsFit_nil, constantsFit_nil⟩
  | cons he _ ih =>
      simp only [kindsFit_append, kindsFit_cons] at hu
      exact ⟨(he.fits hinner hu.1).append (ih hu.2.2).1, (ih hu.2.2).2⟩
  | oneNamed he =>
      simp only [kindsFit_cons] at hu
      exact ⟨constantsFit_nil, (he.fits hinner hu.2.2).append constantsFit_nil⟩
  | consNamed he _ ih =>
      simp only [kindsFit_append, kindsFit_cons] at hu
      obtain ⟨-, -, hu, -, hw⟩ := hu
      exact ⟨(ih hw).1, (he.fits hinner hu).append (ih hw).2⟩

theorem Bound.fits {b : Option Expr} (h : Bound Inner u b) (hu : KindsFit u) :
    ConstantsFit (constantsBound b) := by
  cases h with
  | absent => exact constantsFit_nil
  | present he => exact he.fits hinner hu

omit hinner in
theorem fits_constantAt {k : TokenKind} {c : Constant} (h : constantAt? k = some c)
    (hk : k.Fits) : c.Fits := by
  cases k with
  | int n =>
      cases h
      exact hk n rfl
  | float | bool | noneWord =>
      cases h
      exact trivial
  | _ => cases h

theorem Primary.fits {e : Expr} (h : Primary Inner u e) (hu : KindsFit u) : ExprFits e := by
  induction h with
  | constant hk => exact .singleton (fits_constantAt hk (hu _ List.mem_cons_self))
  | strings _ _ => exact .singleton trivial
  | name => exact constantsFit_nil
  | parentheses he =>
      simp only [kindsFit_append, kindsFit_cons] at hu
      exact he.fits hinner hu.2.1
  | tuple hes | list hes =>
      simp only [kindsFit_append, kindsFit_cons] at hu
      exact hes.fits hinner hu.2.1
  | dict hentries =>
      simp only [kindsFit_append, kindsFit_cons] at hu
      exact hentries.fits hinner hu.2.1
  | call _ hargs ih =>
      simp only [kindsFit_append, kindsFit_cons] at hu
      have hargs := hargs.fits hinner hu.2.2.1
      exact (ih hu.1).append (hargs.1.append hargs.2)
  | index _ hkey ih =>
      simp only [kindsFit_append, kindsFit_cons] at hu
      exact (ih hu.1).append (hkey.fits hinner hu.2.2.1)
  | slice _ hstart hstop ih =>
      simp only [kindsFit_append, kindsFit_cons] at hu
      obtain ⟨hu, -, hv, -, hw, -⟩ := hu
      exact (ih hu).append ((hstart.fits hinner hv).append (hstop.fits hinner hw))
  | member _ ih =>
      simp only [kindsFit_append, kindsFit_cons] at hu
      exact ih hu.1

theorem Chain.fits {e : Expr} (h : Chain Inner u e) (hu : KindsFit u) : ExprFits e := by
  induction h with
  | primary he => exact he.fits hinner hu
  | not he | neg he | pos he =>
      have he := hinner _ _ (kindsFit_cons.mp hu).2 he
      exact he
  | @link u v lhs rhs current next power width op _ _ hrhs ih =>
      simp only [kindsFit_append] at hu
      have hlhs := ih hu.1
      have hrhs := hinner _ _ hu.2.2 hrhs
      cases op <;> exact hlhs.append hrhs

end Rules

theorem Derives.fits {depth : Nat} {u : List TokenKind} {e : Expr} (hu : KindsFit u)
    (h : Derives depth u e) : ExprFits e := by
  induction depth generalizing u e with
  | zero => exact h.elim
  | succ depth ih => exact Chain.fits (fun _ _ => ih) h hu

/-- The integers of what is made of some tokens are integers of the tokens. -/
theorem kindsFit_of_fit {u X : List Token} (h : Fit (u ++ X)) : KindsFit (u.map Token.kind) := by
  intro k hk
  obtain ⟨t, ht, rfl⟩ := List.mem_map.mp hk
  exact h t (List.mem_append_left _ ht)

theorem gives_fits : Gives Fit expression ExprFits :=
  takes_expression.gives fun _ _ _ hfit h =>
    h.fits (fun _ _ => Derives.fits) (kindsFit_of_fit hfit)

theorem gives_fitsList : Gives Fit expressionList ExprFits := by
  refine takes_expressionList.gives fun u X e hfit h => ?_
  rcases h with h | ⟨es, rfl, hes⟩
  · exact h.fits (fun _ _ => Derives.fits) (kindsFit_of_fit hfit)
  · exact hes.fits (fun _ _ => Derives.fits) (kindsFit_of_fit hfit)

end Parser

theorem Target.constants_eq (t : Target) : t.constants = t.expressions.flatMap Expr.constants := by
  cases t with
  | name _ => rfl
  | index object key => simp [Target.constants, Target.expressions, Expr.constants]
  | unpack _ => rfl

theorem constantsBound_eq (bound : Option Expr) :
    constantsBound bound = bound.toList.flatMap Expr.constants := by
  cases bound with
  | none => rfl
  | some e => simp [constantsBound]

mutual

theorem Stmt.constants_eq (s : Stmt) : s.constants = s.expressions.flatMap Expr.constants := by
  match s with
  | .at _ action => exact action.constants_eq
  termination_by structural s

theorem Action.constants_eq (a : Action) : a.constants = a.expressions.flatMap Expr.constants := by
  match a with
  | .expr value => simp [Action.constants, Action.expressions]
  | .assign target value =>
      simp [Action.constants, Action.expressions, target.constants_eq]
  | .augAssign target _ value =>
      simp [Action.constants, Action.expressions, target.constants_eq]
  | .branch branches otherwise =>
      simp [Action.constants, Action.expressions, constantsBranches_eq branches,
        constantsOption_eq otherwise]
  | .forEach target items body =>
      simp [Action.constants, Action.expressions, target.constants_eq, constantsBlock_eq body]
  | .whileTrue condition body =>
      simp [Action.constants, Action.expressions, constantsBlock_eq body]
  | .attempt body handlers cleanup =>
      simp [Action.constants, Action.expressions, constantsBlock_eq body,
        constantsHandlers_eq handlers, constantsOption_eq cleanup]
  | .raise exception =>
      simp only [Action.constants, Action.expressions, constantsBound_eq]
  | .within context _ body =>
      simp [Action.constants, Action.expressions, constantsBlock_eq body]
  | .pass => rfl
  | .breakLoop => rfl
  | .continueLoop => rfl
  termination_by structural a

theorem constantsBlock_eq (stmts : List Stmt) :
    constantsBlock stmts = (expressionsBlock stmts).flatMap Expr.constants := by
  match stmts with
  | [] => rfl
  | s :: stmts =>
      rw [constantsBlock, expressionsBlock, List.flatMap_append, s.constants_eq,
        constantsBlock_eq stmts]
  termination_by structural stmts

theorem constantsBranches_eq (branches : List (Expr × List Stmt)) :
    constantsBranches branches = (expressionsBranches branches).flatMap Expr.constants := by
  match branches with
  | [] => rfl
  | (condition, body) :: branches =>
      rw [constantsBranches, expressionsBranches, List.flatMap_cons, List.flatMap_append,
        constantsBlock_eq body, constantsBranches_eq branches]
  termination_by structural branches

theorem constantsHandlers_eq (handlers : List Handler) :
    constantsHandlers handlers = (expressionsHandlers handlers).flatMap Expr.constants := by
  match handlers with
  | [] => rfl
  | .clause matcher _ body _ :: handlers =>
      rw [constantsHandlers, expressionsHandlers, List.flatMap_append, List.flatMap_append,
        constantsBound_eq, constantsBlock_eq body, constantsHandlers_eq handlers]
  termination_by structural handlers

theorem constantsOption_eq (block : Option (List Stmt)) :
    constantsOption block = (expressionsOption block).flatMap Expr.constants := by
  match block with
  | none => rfl
  | some body => exact constantsBlock_eq body
  termination_by structural block

end

/-- Every integer of a parsed program is a machine integer. -/
theorem fits_parseProgram {source : Text} {b : Block} (h : parseProgram source = .ok b) :
    ConstantsFit (constantsBlock b) := by
  have hexpressions := Parser.expressions_of_parseProgram Parser.gives_fits Parser.gives_fitsList
    (fun _ htokens => fit_tokenize htokens) h
  rw [constantsBlock_eq]
  intro c hc
  obtain ⟨e, he, hc⟩ := List.mem_flatMap.mp hc
  exact hexpressions e he c hc

end TemplateEngine
