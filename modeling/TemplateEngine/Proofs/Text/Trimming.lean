import Mathlib.Data.List.TakeWhile
import TemplateEngine.Text.Blank

/-!
# Trimming

A text is its trimmed text between blanks. Only the outermost parts of a joined text lose
blanks when it is trimmed, as long as what is joined is visible where the parts meet.
-/
namespace TemplateEngine.Text

theorem allBlank_takeWhile (t : Text) : ∀ g ∈ t.takeWhile isBlank, isBlank g = true := by
  intro g hg
  have hall := List.all_takeWhile (p := isBlank) (l := t)
  exact List.all_eq_true.mp hall g hg

/-- A text is its trimmed text between blanks. -/
theorem exists_trim (t : Text) : ∃ before behind, t = before ++ (trim t ++ behind) ∧
    (∀ g ∈ before, isBlank g = true) ∧ ∀ g ∈ behind, isBlank g = true := by
  refine ⟨t.takeWhile isBlank, ((trimStart t).reverse.takeWhile isBlank).reverse, ?_,
    allBlank_takeWhile t, ?_⟩
  · have hend : trim t ++ ((trimStart t).reverse.takeWhile isBlank).reverse = trimStart t := by
      rw [trim, trimEnd, trimEndWhile, ← List.reverse_append, List.takeWhile_append_dropWhile,
        List.reverse_reverse]
    rw [hend, trimStart, trimStartWhile, List.takeWhile_append_dropWhile]
  · intro g hg
    rw [List.mem_reverse] at hg
    exact allBlank_takeWhile _ g hg

theorem trim_of_allBlank {t : Text} (h : allBlank t = true) : trim t = [] := by
  have hstart : trimStart t = [] := by
    rw [trimStart, trimStartWhile, List.dropWhile_eq_nil_iff]
    exact List.all_eq_true.mp h
  rw [trim, hstart]
  rfl

/-- A text that begins with a visible character. -/
def StartsVisible (t : Text) : Prop := ∃ c rest, t = c :: rest ∧ isBlank c = false

variable {s t : Text}

theorem StartsVisible.trimStart (h : StartsVisible t) : trimStart t = t := by
  obtain ⟨c, rest, rfl, hc⟩ := h
  rw [Text.trimStart, trimStartWhile, List.dropWhile_cons_of_neg (by simp [hc])]

theorem trimStart_append (s : Text) (ht : StartsVisible t) :
    trimStart (s ++ t) = trimStart s ++ t := by
  have htrim := ht.trimStart
  simp only [trimStart, trimStartWhile] at htrim ⊢
  rw [List.dropWhile_append]
  split
  · rename_i hempty
    rw [List.isEmpty_iff.mp hempty, htrim, List.nil_append]
  · rfl

theorem exists_append_trimEnd (t : Text) : ∃ behind, t = trimEnd t ++ behind := by
  refine ⟨(t.reverse.takeWhile isBlank).reverse, ?_⟩
  rw [trimEnd, trimEndWhile, ← List.reverse_append, List.takeWhile_append_dropWhile,
    List.reverse_reverse]

theorem trimEnd_append (s : Text) (ht : allBlank t = false) :
    trimEnd (s ++ t) = s ++ trimEnd t := by
  have hvisible : (t.reverse.dropWhile isBlank).isEmpty = false := by
    rw [Bool.eq_false_iff, ne_eq, List.isEmpty_iff, List.dropWhile_eq_nil_iff]
    intro hall
    rw [allBlank, Bool.eq_false_iff] at ht
    exact ht (List.all_eq_true.mpr fun g hg => hall g (List.mem_reverse.mpr hg))
  rw [trimEnd, trimEndWhile, List.reverse_append, List.dropWhile_append, hvisible, if_neg
    Bool.false_ne_true, List.reverse_append, List.reverse_reverse]
  rfl

theorem trimEnd_append_blanks (s : Text) (ht : ∀ g ∈ t, isBlank g = true) :
    trimEnd (s ++ t) = trimEnd s := by
  have hempty : t.reverse.dropWhile isBlank = [] :=
    List.dropWhile_eq_nil_iff.mpr fun g hg => ht g (List.mem_reverse.mp hg)
  rw [trimEnd, trimEndWhile, List.reverse_append, List.dropWhile_append, hempty,
    if_pos List.isEmpty_nil]
  rfl

theorem StartsVisible.allBlank (h : StartsVisible t) : allBlank t = false := by
  obtain ⟨c, rest, rfl, hc⟩ := h
  rw [Text.allBlank, List.all_cons, hc, Bool.false_and]

theorem trimEnd_cons {c : Char} (hc : isBlank c = false) (t : Text) :
    trimEnd (c :: t) = c :: trimEnd t := by
  cases ht : allBlank t with
  | false => exact trimEnd_append [c] ht
  | true =>
      have hblank := List.all_eq_true.mp ht
      have hone : trimEnd [c] = [c] := by simp [trimEnd, trimEndWhile, hc]
      have hnone : trimEnd t = [] := trimEnd_append_blanks [] hblank
      have hend : trimEnd ([c] ++ t) = [c] := (trimEnd_append_blanks [c] hblank).trans hone
      rw [hnone]
      exact hend

theorem trim_append (s : Text) (ht : StartsVisible t) :
    trim (s ++ t) = trimStart s ++ trimEnd t := by
  rw [trim, trimStart_append s ht, trimEnd_append _ ht.allBlank]

/-- Trimming takes nothing away between two visible characters. -/
theorem trim_between {c d : Char} (hc : isBlank c = false) (hd : isBlank d = false) (s t : Text) :
    trim (c :: s ++ d :: t) = c :: s ++ d :: trimEnd t := by
  have hstart : StartsVisible (c :: s) := ⟨c, s, rfl, hc⟩
  rw [trim_append _ ⟨d, t, rfl, hd⟩, hstart.trimStart, trimEnd_cons hd]

theorem not_isBlank_of_mem_head? {c : Char} (h : c ∈ (trimStart t).head?) : isBlank c = false := by
  have hnone := List.head?_dropWhile_not isBlank t
  rw [trimStart, trimStartWhile] at h
  rw [Option.mem_def] at h
  simpa [h] using hnone

theorem head?_trim (t : Text) : (trim t).head? = (trimStart t).head? := by
  rw [trim]
  cases hstart : trimStart t with
  | nil => rfl
  | cons c rest =>
      have hc : isBlank c = false := not_isBlank_of_mem_head? (t := t) (by rw [hstart]; rfl)
      rw [trimEnd_cons hc]
      rfl

/-- A text that is trimmed at its end still has the blanks that it begins with. -/
theorem exists_trimEnd (t : Text) :
    ∃ before, trimEnd t = before ++ trim t ∧ ∀ g ∈ before, isBlank g = true := by
  have hparts : t.takeWhile isBlank ++ trimStart t = t := List.takeWhile_append_dropWhile
  cases ht : Text.allBlank (trimStart t) with
  | false =>
      refine ⟨t.takeWhile isBlank, ?_, allBlank_takeWhile t⟩
      rw [trim, ← trimEnd_append _ ht, hparts]
  | true =>
      refine ⟨[], ?_, nofun⟩
      have hall : Text.allBlank t = true := by
        rw [← hparts, Text.allBlank, List.all_append, Bool.and_eq_true]
        exact ⟨List.all_eq_true.mpr (allBlank_takeWhile t), ht⟩
      rw [trim_of_allBlank hall]
      exact trimEnd_append_blanks [] (List.all_eq_true.mp hall)

/-- A carriage return at the end is a blank that trimming at the start may leave. -/
theorem exists_dropLastIf (t : Text) :
    ∃ cr, trimStart t = trimStart (dropLastIf '\r' t) ++ cr ∧
      (cr = [] ∨ cr = ['\r'] ∧ trimStart (dropLastIf '\r' t) ≠ []) := by
  unfold dropLastIf
  split
  · rename_i hlast
    obtain ⟨s, rfl⟩ := List.getLast?_eq_some_iff.mp hlast
    rw [List.dropLast_concat, trimStart, trimStartWhile, List.dropWhile_append]
    split
    · rename_i hempty
      refine ⟨[], ?_, .inl rfl⟩
      rw [List.append_nil, trimStart, trimStartWhile, List.isEmpty_iff.mp hempty]
      decide
    · rename_i hvisible
      exact ⟨['\r'], rfl, .inr ⟨rfl, fun hnil => hvisible (List.isEmpty_iff.mpr hnil)⟩⟩
  · exact ⟨[], (List.append_nil _).symm, .inl rfl⟩

theorem trim_dropLastIf (t : Text) : trim (dropLastIf '\r' t) = trim t := by
  obtain ⟨cr, hstart, hcr⟩ := exists_dropLastIf t
  have hblank : ∀ g ∈ cr, isBlank g = true := by
    rcases hcr with rfl | ⟨rfl, -⟩
    · exact nofun
    · exact List.forall_mem_singleton.mpr rfl
  rw [trim, trim, hstart, trimEnd_append_blanks _ hblank]

end TemplateEngine.Text
