import TemplateEngine.Text.Basic

/-!
# Ranges of characters

Character classes are stored as ascending ranges of code points, and case
forms as runs of code points at a fixed distance from their counterparts.
-/
namespace TemplateEngine.Letter

/-- Whether a code point lies in one of the ranges, which ascend. -/
def inRanges : List (Nat × Nat) → Nat → Bool
  | [], _ => false
  | (first, last) :: rest, n =>
    if n < first then false
    else if n ≤ last then true
    else inRanges rest n

/-- Whether a character lies in one of the ranges. -/
def within (ranges : List (Nat × Nat)) (c : Char) : Bool := inRanges ranges c.toNat

/-- Every `stride`-th code point from `first` to `last` has its counterpart at
distance `shift`. -/
structure CaseRun where
  first : Nat
  last : Nat
  stride : Nat
  shift : Int

/-- The counterpart of a code point, if one of the runs has one for it. -/
def shifted? (runs : List CaseRun) (n : Nat) : Option Nat :=
  (runs.find? fun run =>
    run.first ≤ n && n ≤ run.last && (n - run.first) % run.stride == 0).map
      fun run => ((n : Int) + run.shift).toNat

end TemplateEngine.Letter
