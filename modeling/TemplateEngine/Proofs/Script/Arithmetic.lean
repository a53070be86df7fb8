import TemplateEngine.Proofs.Number.Words
import TemplateEngine.Proofs.Script.Footprints
import TemplateEngine.Script.Evaluation.Expression

/-!
# Arithmetic on integers

An operator on integers gives the integer of mathematics if it is a machine integer,
and an overflow otherwise. Floor division and its remainder are exact, too: they fail
for a divisor of zero, and the quotient overflows for one pair of operands.
-/
namespace TemplateEngine

/-- An outcome that is an exception of a class. -/
def Raises {α : Type} (kind : ExceptionKind) (x : Except Cause α) : Prop :=
  ∃ cause, x = .error cause ∧ cause.kind = kind

theorem not_raises_ok {α : Type} {kind : ExceptionKind} {a : α} :
    ¬ Raises kind (.ok a : Except Cause α) := by
  rintro ⟨cause, hcause, -⟩
  cases hcause

theorem not_raises_error {α : Type} {kind : ExceptionKind} {cause : Cause} (hkind : cause.kind ≠ kind) :
    ¬ Raises kind (.error cause : Except Cause α) := by
  rintro ⟨other, hother, hother'⟩
  cases hother
  exact hkind hother'

theorem Value.number?_of_integer? {v : Value} {n : Int} (hv : v.integer? = some n) :
    v.number? = some (.int n) := by
  cases v <;> cases hv <;> rfl

namespace Effect

variable {α β : Type} {x : Effect α} {f : α → Effect β} {h h' : Heap}

theorem bind_ok {a : α} (hx : x h = .ok (a, h')) : (x >>= f) h = f a h' := by
  change Except.bind (x h) (fun result => f result.1 result.2) = _
  rw [hx]
  rfl

theorem bind_error {cause : Cause} (hx : x h = .error cause) : (x >>= f) h = .error cause := by
  change Except.bind (x h) (fun result => f result.1 result.2) = _
  rw [hx]
  rfl

theorem ofExcept_eq_ok {e : Except Cause α} {a : α} (he : e = .ok a) : ofExcept e h = .ok (a, h) := by
  rw [he]
  rfl

theorem checking_ok {g : Heap → Except Cause α} {a : α} (hg : g h = .ok a) :
    checking g h = .ok (a, h) := by
  unfold checking
  rw [hg]
  rfl

/-- An effect that computes an integer: it gives that integer if it is a machine integer, and an
overflow otherwise. -/
structure Computes (x : Effect Value) (h : Heap) (n : Int) : Prop where
  exact : Word.Fits n → x h = .ok (.int n, h)
  overflow : ¬ Word.Fits n → Raises .overflowError (x h)

theorem computes_checked (h : Heap) (n : Int) : (ofExcept (Number.checked n)).Computes h n where
  exact hn := ofExcept_eq_ok (by rw [Number.checked, Word.checked?_of_fits hn])
  overflow hn := by
    have hchecked : Number.checked n = .error .overflow := by
      rw [Number.checked, Word.checked?_of_not_fits hn]
    exact ⟨.overflow, by rw [hchecked]; rfl, rfl⟩

end Effect

/-- An operator between integers whose results are exact. -/
inductive RingOp where
  | add | sub | mul

namespace RingOp

/-- The operator of scripts. -/
def operator : RingOp → BinaryOp
  | add => .add
  | sub => .sub
  | mul => .mul

/-- The operation on the integers. -/
def apply : RingOp → Int → Int → Int
  | add => (· + ·)
  | sub => (· - ·)
  | mul => (· * ·)

end RingOp

namespace Operator

variable {v w : Value} {m n : Int}

theorem computes_binary (op : RingOp) (hv : v.integer? = some m) (hw : w.integer? = some n)
    (h : Heap) : (binary op.operator v w).Computes h (op.apply m n) := by
  have hbinary : binary op.operator v w = Effect.ofExcept (Number.checked (op.apply m n)) := by
    unfold binary
    rw [Value.number?_of_integer? hv, Value.number?_of_integer? hw]
    cases op <;> rfl
  rw [hbinary]
  exact Effect.computes_checked h _

theorem computes_neg (hv : v.integer? = some n) (h : Heap) :
    (Effect.ofExcept (unary .neg v)).Computes h (-n) := by
  have hunary : unary .neg v = Number.checked (-n) := by
    unfold unary
    rw [Value.number?_of_integer? hv]
  rw [hunary]
  exact Effect.computes_checked h _

/-- What floor division of machine integers gives, if the divisor is not zero. -/
theorem binary_floorDiv {a b : Int} (ha : Word.Fits a) (hb : Word.Fits b) (hne : b ≠ 0) (h : Heap) :
    binary .floorDiv (.int a) (.int b) h =
      if a = Word.least ∧ b = -1 then .error .overflow
      else .ok (.int (if Word.astray (Int.tmod a b) b then Int.tdiv a b - 1 else Int.tdiv a b), h) := by
  have hdivide : Number.ofInts .floorDiv a b =
      (Word.floorDiv? a b).elim (.error .overflow) fun quotient => .ok (.int quotient) := by
    rw [Number.ofInts, if_neg hne]
    cases Word.floorDiv? a b <;> rfl
  change Effect.ofExcept (Number.ofInts .floorDiv a b) h = _
  rw [hdivide, Word.floorDiv?_eq ha hb hne]
  by_cases hpair : a = Word.least ∧ b = -1
  · rw [if_pos hpair, if_pos hpair]
    rfl
  · rw [if_neg hpair, if_neg hpair]
    rfl

theorem binary_mod {a b : Int} (hne : b ≠ 0) (h : Heap) :
    binary .mod (.int a) (.int b) h = .ok (.int (Word.floorMod a b), h) :=
  Effect.ofExcept_eq_ok (if_neg hne)

/-- Floor division and its remainder are exact. They fail for a divisor of zero, and the quotient
of the least integer by minus one is the only one that is too large; no step on the way to them
leaves the machine integers. -/
theorem floorDiv_mod_exact {a b : Int} (ha : Word.Fits a) (hb : Word.Fits b) (h : Heap) :
    (Raises .zeroDivisionError (binary .floorDiv (.int a) (.int b) h) ↔ b = 0) ∧
    (Raises .zeroDivisionError (binary .mod (.int a) (.int b) h) ↔ b = 0) ∧
    (Raises .overflowError (binary .floorDiv (.int a) (.int b) h) ↔ a = Word.least ∧ b = -1) ∧
    (b ≠ 0 → ∃ q r, Word.FloorDivides a b q r ∧
      binary .mod (.int a) (.int b) h = .ok (.int r, h) ∧
      (¬ (a = Word.least ∧ b = -1) →
        binary .floorDiv (.int a) (.int b) h = .ok (.int q, h))) ∧
    (b ≠ 0 → Word.astray (Int.tmod a b) b = true →
      Word.Fits (Int.tdiv a b - 1) ∧ Word.Fits (Int.tmod a b + b)) := by
  have hsteps (hne : b ≠ 0) := Word.fits_corrected ha hb hne
  by_cases hzero : b = 0
  · subst hzero
    have hquotient : binary .floorDiv (.int a) (.int 0) h =
        .error (.divisionByZero .floor false) := rfl
    have hrest : binary .mod (.int a) (.int 0) h =
        .error (.divisionByZero .remainder false) := rfl
    rw [hquotient, hrest]
    refine ⟨iff_of_true ⟨_, rfl, rfl⟩ rfl, iff_of_true ⟨_, rfl, rfl⟩ rfl,
      iff_of_false (not_raises_error (by decide)) (by simp), fun hne => absurd rfl hne, hsteps⟩
  · rw [binary_floorDiv ha hb hzero, binary_mod hzero, Word.floorMod_eq ha hb hzero]
    refine ⟨iff_of_false ?_ hzero, iff_of_false not_raises_ok hzero, ?_,
      fun _ => ⟨_, _, Word.floorDivides_corrected hzero, rfl, fun hpair => if_neg hpair⟩, hsteps⟩
    · split
      · exact not_raises_error (by decide)
      · exact not_raises_ok
    · split
      · rename_i hpair
        exact iff_of_true ⟨.overflow, rfl, rfl⟩ hpair
      · rename_i hpair
        exact iff_of_false not_raises_ok hpair

theorem floorDiv_mod_exact_negative :
    Word.Fits (-7) ∧ Word.Fits 2 ∧ Word.FloorDivides (-7) 2 (-4) 1 ∧
    binary .floorDiv (.int (-7)) (.int 2) .empty = .ok (.int (-4), .empty) ∧
    binary .mod (.int (-7)) (.int 2) .empty = .ok (.int 1, .empty) := by
  obtain ⟨-, -, -, hexact, -⟩ :=
    floorDiv_mod_exact (a := -7) (b := 2) (by decide) (by decide) .empty
  obtain ⟨q, r, hdivides, hrest, hquotient⟩ := hexact (by decide)
  have hquotient := hquotient (by decide)
  cases hquotient
  cases hrest
  exact ⟨by decide, by decide, hdivides, rfl, rfl⟩

end Operator
end TemplateEngine
