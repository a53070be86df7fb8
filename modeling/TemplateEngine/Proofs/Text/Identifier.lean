import TemplateEngine.Text.Blank
import TemplateEngine.Text.Letter.Identifier

/-!
# Identifiers among the other characters

An identifier can be cut out of a text because no character that continues one
is a blank, a quote or a mark of the script language. The character classes are
tables, so the facts are decided once over whole ranges. The checks walk along
both tables at the same time, since the tables are long.
-/
namespace TemplateEngine.Letter

theorem exists_range_of_inRanges {ranges : List (Nat × Nat)} {n : Nat}
    (h : inRanges ranges n = true) : ∃ r ∈ ranges, r.1 ≤ n ∧ n ≤ r.2 := by
  induction ranges with
  | nil => simp [inRanges] at h
  | cons r rest ih =>
      simp only [inRanges] at h
      split at h
      · simp at h
      · rename_i hfirst
        split at h
        · rename_i hlast
          exact ⟨r, by simp, by omega, hlast⟩
        · obtain ⟨q, hq, hn⟩ := ih h
          exact ⟨q, by simp [hq], hn⟩

/-- Every range ends before the next one begins, and the first begins at `low` or later. -/
def ascending : Nat → List (Nat × Nat) → Bool
  | _, [] => true
  | low, r :: rest => low ≤ r.1 && r.1 ≤ r.2 && ascending (r.2 + 1) rest

theorem le_of_ascending {ranges : List (Nat × Nat)} {low : Nat}
    (hup : ascending low ranges = true) {r : Nat × Nat} (hr : r ∈ ranges) : low ≤ r.1 := by
  induction ranges generalizing low with
  | nil => simp at hr
  | cons q rest ih =>
      simp only [ascending, Bool.and_eq_true, decide_eq_true_eq] at hup
      rcases List.mem_cons.mp hr with rfl | hr
      · exact hup.1.1
      · have hnext := ih hup.2 hr
        omega

theorem inRanges_of_range {ranges : List (Nat × Nat)} {n low : Nat}
    (hup : ascending low ranges = true) {r : Nat × Nat} (hr : r ∈ ranges)
    (hfirst : r.1 ≤ n) (hlast : n ≤ r.2) : inRanges ranges n = true := by
  induction ranges generalizing low with
  | nil => simp at hr
  | cons q rest ih =>
      simp only [ascending, Bool.and_eq_true, decide_eq_true_eq] at hup
      simp only [inRanges]
      rcases List.mem_cons.mp hr with rfl | hr
      · rw [if_neg (by omega), if_pos hlast]
      · have hq := le_of_ascending hup.2 hr
        rw [if_neg (by omega)]
        split
        · rfl
        · exact ih hup.2 hr

/-- No range of the one list meets a range of the other. -/
def apart (some others : List (Nat × Nat)) : Bool :=
  some.all fun r => others.all fun q => r.2 < q.1 || q.2 < r.1

theorem within_eq_false {some others : List (Nat × Nat)} (h : apart some others = true)
    {c : Char} (hc : within some c = true) : within others c = false := by
  rw [Bool.eq_false_iff]
  intro ho
  obtain ⟨r, hr, hrc⟩ := exists_range_of_inRanges hc
  obtain ⟨q, hq, hqc⟩ := exists_range_of_inRanges ho
  simp only [apart, List.all_eq_true, Bool.or_eq_true, decide_eq_true_eq] at h
  have hapart := h r hr q hq
  omega

/-- Every range of the one list lies in a range of the other, found by going on from
the range that the one before it lies in. -/
def covered : List (Nat × Nat) → List (Nat × Nat) → Bool
  | [], _ => true
  | r :: rest, others =>
    match others.dropWhile fun q => q.2 < r.1 with
    | [] => false
    | q :: others => q.1 ≤ r.1 && r.2 ≤ q.2 && covered rest (q :: others)

theorem exists_of_covered {some others : List (Nat × Nat)} (h : covered some others = true)
    {r : Nat × Nat} (hr : r ∈ some) : ∃ q ∈ others, q.1 ≤ r.1 ∧ r.2 ≤ q.2 := by
  induction some generalizing others with
  | nil => simp at hr
  | cons p rest ih =>
      simp only [covered] at h
      split at h
      · cases h
      · rename_i q later hdrop
        have hsub : ∀ x ∈ q :: later, x ∈ others := fun x hx =>
          (List.dropWhile_sublist _).subset (hdrop ▸ hx)
        simp only [Bool.and_eq_true, decide_eq_true_eq] at h
        rcases List.mem_cons.mp hr with rfl | hr
        · exact ⟨q, hsub q (by simp), h.1⟩
        · obtain ⟨x, hx, hxr⟩ := ih h.2 hr
          exact ⟨x, hsub x hx, hxr⟩

theorem within_of_covered {some others : List (Nat × Nat)} {low : Nat}
    (h : covered some others = true) (hup : ascending low others = true) {c : Char}
    (hc : within some c = true) : within others c = true := by
  obtain ⟨r, hr, hrc⟩ := exists_range_of_inRanges hc
  obtain ⟨q, hq, hqr⟩ := exists_of_covered h hr
  exact inRanges_of_range hup hq (by omega) (by omega)

theorem ascending_continue : ascending 0 identifierContinueRanges = true := by decide +kernel

theorem start_covered : covered identifierStartRanges identifierContinueRanges = true := by
  decide +kernel

theorem continue_apart_blank : apart identifierContinueRanges Text.blankRanges = true := by
  decide +kernel

/-- Whether a character is a letter of the basic alphabet or an underscore. -/
def isLatin (c : Char) : Bool := c.isAlpha || c = '_'

/-- Whether a character is in the basic range, but no letter, digit or underscore. -/
def isMark (c : Char) : Bool := c.toNat < 128 && !c.isDigit && !isLatin c

theorem basic_ranges : ∀ n < 128,
    (isLatin (Char.ofNat n) = true → isIdentifierStart (Char.ofNat n) = true) ∧
      (isMark (Char.ofNat n) = true → isIdentifierContinue (Char.ofNat n) = false) := by
  decide +kernel

theorem isIdentifierStart_of_isLatin {c : Char} (h : isLatin c = true) :
    isIdentifierStart c = true := by
  have hbasic : c.toNat < 128 := by
    have hletter : ((decide (c.val ≥ 'A'.val ∧ c.val ≤ 'Z'.val) ||
        (decide (c.val ≥ 'a'.val) && decide (c.val ≤ 'z'.val))) || decide (c = '_')) = true := h
    simp only [Bool.or_eq_true, Bool.and_eq_true, decide_eq_true_eq] at hletter
    rcases hletter with (⟨-, h⟩ | ⟨-, h⟩) | rfl
    · exact Nat.lt_of_le_of_lt h (by decide)
    · exact Nat.lt_of_le_of_lt h (by decide)
    · decide
  have hstart := (basic_ranges c.toNat hbasic).1
  rw [Char.ofNat_toNat] at hstart
  exact hstart h

/-- No identifier goes on with a mark. -/
theorem isIdentifierContinue_of_isMark {c : Char} (h : isMark c = true) :
    isIdentifierContinue c = false := by
  have hbasic : c.toNat < 128 := by
    simp only [isMark, Bool.and_eq_true, decide_eq_true_eq] at h
    exact h.1.1
  have hcontinue := (basic_ranges c.toNat hbasic).2
  rw [Char.ofNat_toNat] at hcontinue
  exact hcontinue h

theorem isIdentifierContinue_of_start {c : Char} (h : isIdentifierStart c = true) :
    isIdentifierContinue c = true := by
  simp only [isIdentifierStart, Bool.or_eq_true, decide_eq_true_eq] at h
  rcases h with rfl | h
  · exact inRanges_of_range ascending_continue (show (95, 95) ∈ _ by decide) (by decide) (by decide)
  · exact within_of_covered start_covered ascending_continue h

theorem isIdentifierContinue_of_isLatin {c : Char} (h : isLatin c = true) :
    isIdentifierContinue c = true :=
  isIdentifierContinue_of_start (isIdentifierStart_of_isLatin h)

theorem not_isBlank_of_continue {c : Char} (h : isIdentifierContinue c = true) :
    Text.isBlank c = false :=
  within_eq_false continue_apart_blank h

theorem isIdentifierStart_of_isMark {c : Char} (h : isMark c = true) :
    isIdentifierStart c = false := by
  rw [Bool.eq_false_iff]
  intro hc
  have hcontinue := isIdentifierContinue_of_start hc
  rw [isIdentifierContinue_of_isMark h] at hcontinue
  cases hcontinue

/-- A mark differs from all characters of identifiers. -/
theorem ne_of_continue {c d : Char} (h : isIdentifierContinue c = true)
    (hd : isMark d = true) : c ≠ d := by
  rintro rfl
  rw [isIdentifierContinue_of_isMark hd] at h
  cases h

end TemplateEngine.Letter
