import Mathlib
import TemplateEngine.Proofs.Syntax.Grammar
import TemplateEngine.Proofs.Syntax.ProgramReading
import TemplateEngine.Proofs.Syntax.Roots

/-!
# The depth of expressions

The parser counts how deep operands nest, and refuses more than a hundred levels. A step from an
expression to one inside it is counted if the parser went a level deeper for it. The steps to a
left operand, to what a trailer stands behind and to the last part of a conditional are links of
a chain, which the parser reads in a loop, and they are not counted. So an expression is at most
two levels deep for every level of nesting, and deeper only by the links on the way.
-/
namespace TemplateEngine

mutual

/-- The weight of the heaviest way from an expression to one inside it, where a link of a chain
and a step that nests deeper have weights of their own. -/
def Expr.descent (link step : Nat) (e : Expr) : Nat :=
  match e with
  | .constant _ => 0
  | .name _ => 0
  | .list items => descentItems link step items
  | .tuple items => descentItems link step items
  | .dict entries => descentEntries link step entries
  | .attribute object _ => object.descent link step + link
  | .index object key => max (object.descent link step + link) (key.descent link step + step)
  | .slice object start stop =>
    max (object.descent link step + link)
      (max (descentBound link step start) (descentBound link step stop))
  | .call function args keywords =>
    max (function.descent link step + link)
      (max (descentItems link step args) (descentKeywords link step keywords))
  | .unary _ operand => operand.descent link step + step
  | .binary _ lhs rhs => max (lhs.descent link step + link) (rhs.descent link step + step)
  | .compare _ lhs rhs => max (lhs.descent link step + link) (rhs.descent link step + step)
  | .and lhs rhs => max (lhs.descent link step + link) (rhs.descent link step + step)
  | .or lhs rhs => max (lhs.descent link step + link) (rhs.descent link step + step)
  | .not operand => operand.descent link step + step
  | .conditional condition thenValue elseValue =>
    max (max (condition.descent link step) (thenValue.descent link step) + step)
      (elseValue.descent link step + link)
  termination_by structural e

/-- The weight of the heaviest way into one of the items. -/
def descentItems (link step : Nat) (items : List Expr) : Nat :=
  match items with
  | [] => 0
  | e :: items => max (e.descent link step + step) (descentItems link step items)
  termination_by structural items

/-- The weight of the heaviest way into one of the entries of a dict. -/
def descentEntries (link step : Nat) (entries : List (Expr × Expr)) : Nat :=
  match entries with
  | [] => 0
  | (key, value) :: entries =>
    max (max (key.descent link step) (value.descent link step) + step)
      (descentEntries link step entries)
  termination_by structural entries

/-- The weight of the heaviest way into one of the named arguments. -/
def descentKeywords (link step : Nat) (keywords : List (Text × Expr)) : Nat :=
  match keywords with
  | [] => 0
  | (_, value) :: keywords =>
    max (value.descent link step + step) (descentKeywords link step keywords)
  termination_by structural keywords

/-- The weight of the heaviest way into a bound, if there is one. -/
def descentBound (link step : Nat) (bound : Option Expr) : Nat :=
  match bound with
  | none => 0
  | some e => e.descent link step + step
  termination_by structural bound

end

/-- How many steps of a way into an expression nest deeper, at most. -/
def Expr.nesting (e : Expr) : Nat := e.descent 0 1

/-- How many steps of a way into an expression are links of a chain, at most. -/
def Expr.links (e : Expr) : Nat := e.descent 1 0

mutual

/-- Every step is a link or nests deeper. -/
theorem Expr.height_le (e : Expr) : e.height ≤ e.descent 0 1 + e.descent 1 0 := by
  match e with
  | .constant _ => simp [Expr.height]
  | .name _ => simp [Expr.height]
  | .list items =>
      simpa only [Expr.height, Expr.descent] using heightItems_le items
  | .tuple items =>
      simpa only [Expr.height, Expr.descent] using heightItems_le items
  | .dict entries =>
      simpa only [Expr.height, Expr.descent] using heightEntries_le entries
  | .attribute object _ =>
      have hobject := object.height_le
      simp only [Expr.height, Expr.descent]
      omega
  | .index object key =>
      have hobject := object.height_le
      have hkey := key.height_le
      simp only [Expr.height, Expr.descent]
      omega
  | .slice object start stop =>
      have hobject := object.height_le
      have hstart := heightBound_le start
      have hstop := heightBound_le stop
      simp only [Expr.height, Expr.descent]
      omega
  | .call function args keywords =>
      have hfunction := function.height_le
      have hargs := heightItems_le args
      have hkeywords := heightKeywords_le keywords
      simp only [Expr.height, Expr.descent]
      omega
  | .unary _ operand =>
      have hoperand := operand.height_le
      simp only [Expr.height, Expr.descent]
      omega
  | .binary _ lhs rhs =>
      have hlhs := lhs.height_le
      have hrhs := rhs.height_le
      simp only [Expr.height, Expr.descent]
      omega
  | .compare _ lhs rhs =>
      have hlhs := lhs.height_le
      have hrhs := rhs.height_le
      simp only [Expr.height, Expr.descent]
      omega
  | .and lhs rhs =>
      have hlhs := lhs.height_le
      have hrhs := rhs.height_le
      simp only [Expr.height, Expr.descent]
      omega
  | .or lhs rhs =>
      have hlhs := lhs.height_le
      have hrhs := rhs.height_le
      simp only [Expr.height, Expr.descent]
      omega
  | .not operand =>
      have hoperand := operand.height_le
      simp only [Expr.height, Expr.descent]
      omega
  | .conditional condition thenValue elseValue =>
      have hcondition := condition.height_le
      have hthen := thenValue.height_le
      have helse := elseValue.height_le
      simp only [Expr.height, Expr.descent]
      omega
  termination_by structural e

theorem heightItems_le (items : List Expr) :
    heightItems items ≤ descentItems 0 1 items + descentItems 1 0 items := by
  match items with
  | [] => simp [heightItems]
  | e :: items =>
      have he := e.height_le
      have hitems := heightItems_le items
      simp only [heightItems, descentItems]
      omega
  termination_by structural items

theorem heightEntries_le (entries : List (Expr × Expr)) :
    heightEntries entries ≤ descentEntries 0 1 entries + descentEntries 1 0 entries := by
  match entries with
  | [] => simp [heightEntries]
  | (key, value) :: entries =>
      have hkey := key.height_le
      have hvalue := value.height_le
      have hentries := heightEntries_le entries
      simp only [heightEntries, descentEntries]
      omega
  termination_by structural entries

theorem heightKeywords_le (keywords : List (Text × Expr)) :
    heightKeywords keywords ≤ descentKeywords 0 1 keywords + descentKeywords 1 0 keywords := by
  match keywords with
  | [] => simp [heightKeywords]
  | (_, value) :: keywords =>
      have hvalue := value.height_le
      have hkeywords := heightKeywords_le keywords
      simp only [heightKeywords, descentKeywords]
      omega
  termination_by structural keywords

theorem heightBound_le (bound : Option Expr) :
    heightBound bound ≤ descentBound 0 1 bound + descentBound 1 0 bound := by
  match bound with
  | none => simp [heightBound]
  | some e =>
      have he := e.height_le
      simp only [heightBound, descentBound]
      omega
  termination_by structural bound

end

namespace Parser

section Rules

variable {Inner : List TokenKind → Expr → Prop} {bound : Nat}
  (hinner : ∀ u e, Inner u e → e.nesting + 2 ≤ bound) {u : List TokenKind}
include hinner

theorem Full.nesting_le {e : Expr} (h : Full Inner u e) : e.nesting + 1 ≤ bound := by
  induction h with
  | operand he =>
      have := hinner _ _ he
      omega
  | conditional hvalue hcondition _ ih =>
      have hvalue := hinner _ _ hvalue
      have hcondition := hinner _ _ hcondition
      simp only [Expr.nesting, Expr.descent] at hvalue hcondition ih ⊢
      omega

theorem Items.nesting_le {es : List Expr} (h : Items Inner u es) : descentItems 0 1 es ≤ bound := by
  induction h with
  | nil => exact Nat.zero_le _
  | one he =>
      have he := he.nesting_le hinner
      simp only [Expr.nesting, descentItems] at he ⊢
      omega
  | cons he _ ih =>
      have he := he.nesting_le hinner
      simp only [Expr.nesting, descentItems] at he ⊢
      omega

theorem Entries.nesting_le {entries : List (Expr × Expr)} (h : Entries Inner u entries) :
    descentEntries 0 1 entries ≤ bound := by
  induction h with
  | nil => exact Nat.zero_le _
  | one hkey hvalue =>
      have hkey := hkey.nesting_le hinner
      have hvalue := hvalue.nesting_le hinner
      simp only [Expr.nesting, descentEntries] at hkey hvalue ⊢
      omega
  | cons hkey hvalue _ ih =>
      have hkey := hkey.nesting_le hinner
      have hvalue := hvalue.nesting_le hinner
      simp only [Expr.nesting, descentEntries] at hkey hvalue ⊢
      omega

theorem Arguments.nesting_le {args : List Expr} {keywords : List (Text × Expr)}
    (h : Arguments Inner u args keywords) :
    descentItems 0 1 args ≤ bound ∧ descentKeywords 0 1 keywords ≤ bound := by
  induction h with
  | nil => exact ⟨Nat.zero_le _, Nat.zero_le _⟩
  | one he =>
      have he := he.nesting_le hinner
      simp only [Expr.nesting, descentItems, descentKeywords] at he ⊢
      omega
  | cons he _ ih =>
      have he := he.nesting_le hinner
      simp only [Expr.nesting, descentItems] at he ⊢
      omega
  | oneNamed he =>
      have he := he.nesting_le hinner
      simp only [Expr.nesting, descentItems, descentKeywords] at he ⊢
      omega
  | consNamed he _ ih =>
      have he := he.nesting_le hinner
      simp only [Expr.nesting, descentKeywords] at he ⊢
      omega

theorem Bound.nesting_le {b : Option Expr} (h : Bound Inner u b) : descentBound 0 1 b ≤ bound := by
  cases h with
  | absent => exact Nat.zero_le _
  | present he => exact he.nesting_le hinner

theorem Primary.nesting_le {e : Expr} (h : Primary Inner u e) : e.nesting ≤ bound := by
  induction h with
  | constant _ => exact Nat.zero_le _
  | strings _ _ => exact Nat.zero_le _
  | name => exact Nat.zero_le _
  | parentheses he => exact Nat.le_of_succ_le (he.nesting_le hinner)
  | tuple hes => exact hes.nesting_le hinner
  | list hes => exact hes.nesting_le hinner
  | dict hentries => exact hentries.nesting_le hinner
  | call _ hargs ih =>
      have hargs := hargs.nesting_le hinner
      simp only [Expr.nesting, Expr.descent] at ih ⊢
      omega
  | index _ hkey ih =>
      have hkey := hkey.nesting_le hinner
      simp only [Expr.nesting, Expr.descent] at ih hkey ⊢
      omega
  | slice _ hstart hstop ih =>
      have hstart := hstart.nesting_le hinner
      have hstop := hstop.nesting_le hinner
      simp only [Expr.nesting, Expr.descent] at ih ⊢
      omega
  | member _ ih => exact ih

theorem Chain.nesting_le {e : Expr} (h : Chain Inner u e) : e.nesting ≤ bound := by
  induction h with
  | primary he => exact he.nesting_le hinner
  | not he | neg he | pos he =>
      have he := hinner _ _ he
      simp only [Expr.nesting, Expr.descent] at he ⊢
      omega
  | @link u v lhs rhs current next power width op _ _ hrhs ih =>
      have hrhs := hinner _ _ hrhs
      have hop : (op.apply lhs rhs).nesting = max lhs.nesting (rhs.nesting + 1) := by cases op <;> rfl
      omega

end Rules

/-- Every level of nesting is worth two steps: into brackets, and to an operand there. -/
theorem Derives.nesting_le {depth : Nat} {u : List TokenKind} {e : Expr} (h : Derives depth u e) :
    e.nesting + 2 ≤ 2 * depth := by
  induction depth generalizing u e with
  | zero => exact h.elim
  | succ depth ih =>
      have := Chain.nesting_le (fun _ _ => ih) h
      omega

theorem nesting_le_of_full {u : List TokenKind} {e : Expr} (h : Full (Derives maxExprDepth) u e) :
    e.nesting ≤ 2 * maxExprDepth :=
  Nat.le_of_succ_le (h.nesting_le fun _ _ => Derives.nesting_le)

/-- A tuple without parentheses is one step deeper than its items. -/
theorem gives_expressionList :
    Gives (fun _ => True) expressionList fun e => e.nesting ≤ 2 * maxExprDepth := by
  refine takes_expressionList.gives fun u X e _ h => ?_
  rcases h with h | ⟨es, rfl, hes⟩
  · exact nesting_le_of_full h
  · exact hes.nesting_le fun _ _ => Derives.nesting_le

end Parser

open TemplateEngine.Parser

/-- The sum of `n` ones and another one. -/
def onesSum : Nat → Expr
  | 0 => .constant (.int 1)
  | n + 1 => .binary .add (onesSum n) (.constant (.int 1))

/-- The sum as it is written. -/
def onesText (n : Nat) : Text := '1' :: (List.replicate n " + 1".toList).flatten

theorem height_onesSum (n : Nat) : (onesSum n).height = n := by
  induction n with
  | zero => rfl
  | succ n ih =>
      rw [onesSum, Expr.height, ih]
      simp [Expr.height]

theorem grammatical_onesSum (n : Nat) : (onesSum n).Grammatical := by
  have hone : (Expr.constant (.int 1)).Grammatical := .constant ⟨by decide, by decide⟩
  induction n with
  | zero => exact hone
  | succ n ih => exact @Expr.Grammatical.connective (.binary .add) _ _ ih hone

theorem power_onesSum (n : Nat) : termPower ≤ (onesSum n).power := by
  cases n with
  | zero => exact (by decide : termPower ≤ postfixPower)
  | succ n => exact Nat.le_refl termPower

theorem print_onesSum_succ (n : Nat) : (onesSum (n + 1)).print =
    (onesSum n).print ++ [.blank, .sign .plus, .blank, .number 1] := by
  have hleft : Lexeme.enclosed ((onesSum n).power < termPower) (onesSum n).print =
      (onesSum n).print := if_neg (by simpa using power_onesSum n)
  have hprint : (onesSum (n + 1)).print =
      Lexeme.enclosed ((onesSum n).power < termPower) (onesSum n).print ++
        [.blank, .sign .plus, .blank, .number 1] := rfl
  rw [hprint, hleft]

theorem line_onesSum (n : Nat) : Lexeme.line (onesSum n).print = onesText n := by
  induction n with
  | zero => rfl
  | succ n ih =>
      have hplus : Lexeme.line [.blank, .sign .plus, .blank, .number 1] = " + 1".toList := by decide
      rw [print_onesSum_succ, Lexeme.line_append, ih, hplus, onesText, onesText,
        List.replicate_succ', List.flatten_append]
      simp

/-- The operands of a sum nest one level deep, however many they are. -/
theorem leads_onesSum (n : Nat) : ∃ power, termPower ≤ power ∧
    Leads (maxExprDepth - 1) power (onesSum n).print (onesSum n) := by
  have hone : (Constant.int 1).Plain := ⟨by decide, by decide⟩
  have hleads (depth : Nat) : Leads depth postfixPower (Constant.int 1).print (.constant (.int 1)) :=
    (trails_constant hone).heads.leads
  induction n with
  | zero => exact ⟨postfixPower, by decide, hleads _⟩
  | succ n ih =>
      obtain ⟨power, hpower, hlhs⟩ := ih
      have hstep : Leads (maxExprDepth - 1) (Connective.binary .add).power _
          ((Connective.binary .add).apply (onesSum n) (.constant (.int 1))) :=
        leads_connective hpower (show termPower + 1 ≤ postfixPower by decide) hlhs (hleads _)
          (phrase_constant hone)
      rw [print_onesSum_succ]
      exact ⟨termPower, Nat.le_refl _, hstep⟩

theorem parseExpression_onesText (n : Nat) : parseExpression (onesText n) = .ok (onesSum n) := by
  obtain ⟨power, hpower, hleads⟩ := leads_onesSum n
  rw [← line_onesSum]
  exact parseExpression_of_completes (grammatical_onesSum n).phrase.code
    (hleads.completes (Nat.le_trans (by decide) hpower))

/-- Of the steps from an accepted expression to one inside it no more than two for every level of
nesting nest deeper. All others are links of chains, for which there is no limit. -/
theorem nesting_le_of_accepted (source : Text) :
    (∀ program, parseProgram source = .ok program → ∀ e ∈ expressionsBlock program,
      e.nesting ≤ 2 * maxExprDepth ∧ e.height ≤ 2 * maxExprDepth + e.links) ∧
    (∀ e, parseExpression source = .ok e →
      e.nesting ≤ 2 * maxExprDepth ∧ e.height ≤ 2 * maxExprDepth + e.links) := by
  have hheight : ∀ e : Expr, e.nesting ≤ 2 * maxExprDepth →
      e.nesting ≤ 2 * maxExprDepth ∧ e.height ≤ 2 * maxExprDepth + e.links := by
    intro e he
    have hle := e.height_le
    simp only [Expr.nesting, Expr.links] at he ⊢
    omega
  have hexpr : Gives (fun _ => True) expression fun e => e.nesting ≤ 2 * maxExprDepth :=
    takes_expression.gives fun _ _ _ _ h => nesting_le_of_full h
  constructor
  · intro program h e he
    exact hheight e (expressions_of_parseProgram hexpr gives_expressionList (by simp) h e he)
  · intro e h
    exact hheight e (of_parseExpression hexpr (by simp) h)

/-- A loop that takes an item out of a list with a tuple in it. -/
def itemLoop : Block :=
  [.at 1 (.whileTrue (.constant (.int 1))
    [.at 2 (.expr (.index (.list [.tuple [.constant (.int 0)]]) (.constant (.int 0))))])]

/-- An item of a list has two steps that nest and one that does not; a sum of three ones has as
many steps as it has signs. -/
theorem nesting_le_of_accepted_item :
    let item := Expr.index (.list [.tuple [.constant (.int 0)]]) (.constant (.int 0))
    parseProgram "while 1:\n  [(0,)][0]\n".toList = .ok itemLoop ∧
      item ∈ expressionsBlock itemLoop ∧ item.height = 3 ∧ item.links = 1 ∧
      item.nesting ≤ 2 * maxExprDepth ∧ item.height ≤ 2 * maxExprDepth + item.links ∧
      parseExpression (onesText 2) = .ok (onesSum 2) ∧ (onesSum 2).links = 2 ∧
      (onesSum 2).nesting ≤ 2 * maxExprDepth ∧
      (onesSum 2).height ≤ 2 * maxExprDepth + (onesSum 2).links := by
  intro item
  have hprogram : parseProgram "while 1:\n  [(0,)][0]\n".toList = .ok itemLoop := by cbv
  have hitem : item ∈ expressionsBlock itemLoop :=
    List.mem_cons_of_mem _ (List.mem_cons_self ..)
  have hsum := parseExpression_onesText 2
  obtain ⟨hnesting, hheight⟩ := (nesting_le_of_accepted _).1 itemLoop hprogram item hitem
  obtain ⟨hnesting', hheight'⟩ := (nesting_le_of_accepted _).2 (onesSum 2) hsum
  exact ⟨hprogram, hitem, by decide, by decide, hnesting, hheight, hsum, by decide, hnesting',
    hheight'⟩

/-- A sum of five hundred and one ones is accepted. -/
theorem parseExpression_deep :
    ∃ e, parseExpression (onesText 500) = .ok e ∧ 4 * maxExprDepth < e.height := by
  refine ⟨onesSum 500, parseExpression_onesText 500, ?_⟩
  rw [height_onesSum]
  decide

end TemplateEngine
