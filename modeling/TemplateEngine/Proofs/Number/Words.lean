import TemplateEngine.Number.Word

/-!
# Machine integers and floor division

A checked integer is there exactly if it has 64 bits, and wrapping leaves such an
integer alone. Floor division starts from the quotient and the remainder that are
rounded to zero. Where the remainder is astray, the divisor is at least two in
size, so the quotient is at most half of the greatest integer and the remainder
lies on the other side of zero than the divisor: neither step of the correction
leaves the 64 bits, and what they give is the quotient and the remainder of the
floor.
-/
namespace TemplateEngine.Word

variable {a b n : Int}

theorem checked?_of_fits (hn : Fits n) : checked? n = some n := if_pos hn

theorem checked?_of_not_fits (hn : ¬ Fits n) : checked? n = none := if_neg hn

theorem fits_wrap (n : Int) : Fits (wrap n) := by
  have hlow := Int.le_bmod (x := n) (m := 0x10000000000000000) (by decide)
  have hhigh := Int.bmod_lt (x := n) (m := 0x10000000000000000) (by decide)
  unfold Fits wrap least greatest
  omega

theorem wrap_of_fits (hn : Fits n) : wrap n = n := by
  unfold Fits least greatest at hn
  unfold wrap
  apply Int.bmod_eq_of_le <;> omega

/-- Counting on from a wrapped number gives what wrapping in the end gives. -/
theorem wrap_wrap_add (m n : Int) : wrap (wrap m + n) = wrap (m + n) := by
  unfold wrap
  exact Int.bmod_add_bmod

/-- A quotient and a remainder that are rounded to the floor: the remainder has the sign of the
divisor. -/
structure FloorDivides (a b q r : Int) : Prop where
  sum : a = q * b + r
  above : 0 < b → 0 ≤ r ∧ r < b
  below : b < 0 → b < r ∧ r ≤ 0

theorem astray_iff {rest : Int} :
    astray rest b = true ↔ rest < 0 ∧ 0 ≤ b ∨ 0 < rest ∧ b < 0 := by
  simp only [astray, Bool.and_eq_true, bne_iff_ne, ne_eq, decide_eq_decide]
  omega

theorem natAbs_tmod_lt (hb : b ≠ 0) : (Int.tmod a b).natAbs < b.natAbs := by
  rw [Int.natAbs_tmod]
  exact Nat.mod_lt _ (Int.natAbs_pos.mpr hb)

/-- A remainder that is astray is moved to the side of its divisor, and one that is not is there. -/
theorem floorDivides_corrected (hb : b ≠ 0) :
    FloorDivides a b
      (if astray (Int.tmod a b) b then Int.tdiv a b - 1 else Int.tdiv a b)
      (if astray (Int.tmod a b) b then Int.tmod a b + b else Int.tmod a b) := by
  have hsum : Int.tdiv a b * b + Int.tmod a b = a := Int.tdiv_mul_add_tmod a b
  have hsmall := natAbs_tmod_lt (a := a) hb
  by_cases hastray : astray (Int.tmod a b) b = true
  · rw [if_pos hastray, if_pos hastray]
    rw [astray_iff] at hastray
    refine ⟨?_, by omega, by omega⟩
    rw [Int.sub_mul]
    omega
  · rw [if_neg hastray, if_neg hastray]
    rw [astray_iff] at hastray
    exact ⟨hsum.symm, by omega, by omega⟩

theorem natAbs_tdiv_le_half (hb : 2 ≤ b.natAbs) : (Int.tdiv a b).natAbs ≤ a.natAbs / 2 := by
  rw [Int.natAbs_tdiv]
  exact Nat.div_le_div_left hb (by decide)

/-- The quotient rounded to zero is too large for one pair only. -/
theorem fits_tdiv_iff (ha : Fits a) (hb : b ≠ 0) :
    Fits (Int.tdiv a b) ↔ ¬ (a = least ∧ b = -1) := by
  constructor
  · rintro hfits ⟨rfl, rfl⟩
    exact absurd hfits (by decide)
  · intro hpair
    by_cases hone : b.natAbs = 1
    · rcases Int.natAbs_eq_iff.mp hone with rfl | rfl
      · rwa [Int.ofNat_one, Int.tdiv_one]
      · rw [Int.ofNat_one, Int.tdiv_neg, Int.tdiv_one]
        unfold Fits least greatest at *
        omega
    · have hhalf := natAbs_tdiv_le_half (a := a) (b := b) (by omega)
      unfold Fits least greatest at *
      omega

/-- The steps of the correction stay within the 64 bits. -/
theorem fits_corrected (ha : Fits a) (hb : Fits b) (hne : b ≠ 0)
    (hastray : astray (Int.tmod a b) b = true) :
    Fits (Int.tdiv a b - 1) ∧ Fits (Int.tmod a b + b) := by
  have hsmall := natAbs_tmod_lt (a := a) hne
  rw [astray_iff] at hastray
  -- a divisor of one in size leaves no remainder
  have hhalf := natAbs_tdiv_le_half (a := a) (b := b) (by omega)
  unfold Fits least greatest at *
  omega

/-- Floor division fails for one pair only, and otherwise gives the quotient of the floor. -/
theorem floorDiv?_eq (ha : Fits a) (hb : Fits b) (hne : b ≠ 0) :
    floorDiv? a b = if a = least ∧ b = -1 then none else
      some (if astray (Int.tmod a b) b then Int.tdiv a b - 1 else Int.tdiv a b) := by
  unfold floorDiv?
  by_cases hpair : a = least ∧ b = -1
  · rw [if_pos hpair, checked?_of_not_fits (mt (fits_tdiv_iff ha hne).mp (not_not_intro hpair))]
    rfl
  · rw [if_neg hpair, checked?_of_fits ((fits_tdiv_iff ha hne).mpr hpair), Option.map_some]
    split
    · rename_i hastray
      rw [wrap_of_fits (fits_corrected ha hb hne hastray).1]
    · rfl

theorem floorMod_eq (ha : Fits a) (hb : Fits b) (hne : b ≠ 0) :
    floorMod a b = if astray (Int.tmod a b) b then Int.tmod a b + b else Int.tmod a b := by
  unfold floorMod
  dsimp only
  split
  · rename_i hastray
    rw [wrap_of_fits (fits_corrected ha hb hne hastray).2]
  · rfl

end TemplateEngine.Word
