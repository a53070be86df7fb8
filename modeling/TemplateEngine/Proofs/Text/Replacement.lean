import TemplateEngine.Text.Basic

/-!
# Replacing and cutting text

Replacement reads from the left, so it is determined by what it does where the
replaced piece begins and where it does not, and statements about it are proved
by induction on these two cases. A text cut at a mark and joined again is the
text.
-/
namespace TemplateEngine.Text

theorem replaceLoop_skip (old new s t : Text) :
    replaceLoop old new s.length (s ++ t) = replaceLoop old new 0 t := by
  induction s with
  | nil => rfl
  | cons c s ih => simpa only [List.length_cons, List.cons_append, replaceLoop] using ih

section Replacement

variable {old : Text} (hold : old ≠ [])
include hold

theorem replace_eq_loop (new t : Text) : replace old new t = replaceLoop old new 0 t := by
  have h : old.isEmpty = false := by simpa using hold
  simp only [replace, h, Bool.false_eq_true, if_false]

@[simp] theorem replace_nil (new : Text) : replace old new [] = [] := by
  rw [replace_eq_loop hold]
  rfl

/-- Where the replaced piece begins, the new one is put. -/
theorem replace_found (new t : Text) : replace old new (old ++ t) = new ++ replace old new t := by
  rw [replace_eq_loop hold, replace_eq_loop hold]
  obtain ⟨c, rest, rfl⟩ := List.exists_cons_of_ne_nil hold
  have hpre : (c :: rest).isPrefixOf (c :: (rest ++ t)) = true := by
    rw [List.isPrefixOf_iff_prefix, ← List.cons_append]
    exact List.prefix_append _ _
  simp only [List.cons_append, replaceLoop, hpre, if_true, List.length_cons, Nat.add_sub_cancel]
  rw [replaceLoop_skip]

/-- Anywhere else a character stands for itself. -/
theorem replace_other (new : Text) {c : Char} {t : Text}
    (h : old.isPrefixOf (c :: t) = false) :
    replace old new (c :: t) = c :: replace old new t := by
  rw [replace_eq_loop hold, replace_eq_loop hold]
  simp only [replaceLoop, h, Bool.false_eq_true, if_false]

end Replacement

/-- Induction along a replacement. -/
theorem replace_induction (old : Text) (hold : old ≠ []) {motive : Text → Prop}
    (nil : motive [])
    (found : ∀ t, motive t → motive (old ++ t))
    (other : ∀ c t, old.isPrefixOf (c :: t) = false → motive t → motive (c :: t)) (t : Text) :
    motive t := by
  induction hn : t.length using Nat.strongRecOn generalizing t with
  | ind n ih =>
      cases t with
      | nil => exact nil
      | cons c rest =>
          cases hpre : old.isPrefixOf (c :: rest) with
          | false => exact other c rest hpre (ih _ (by simp [← hn]) rest rfl)
          | true =>
              obtain ⟨t, ht⟩ := List.isPrefixOf_iff_prefix.mp hpre
              have hlen : t.length < n := by
                have hpos := List.length_pos_iff.mpr hold
                rw [← hn, ← ht, List.length_append]
                omega
              rw [← ht]
              exact found t (ih _ hlen t rfl)

theorem isPrefixOf_pair_eq_false {a b c : Char} {t : Text} :
    [a, b].isPrefixOf (c :: t) = false ↔ ¬ (c = a ∧ t.head? = some b) := by
  cases t with
  | nil => simp [List.isPrefixOf]
  | cons d t =>
      simp only [List.isPrefixOf, Bool.and_true, Bool.and_eq_false_iff, beq_eq_false_iff_ne,
        List.head?_cons, Option.some.injEq, not_and]
      grind

theorem of_isPrefixOf {a b c : Char} {s t : Text}
    (h : (a :: b :: s).isPrefixOf (c :: t) = true) :
    c = a ∧ t.head? = some b ∧ s.isPrefixOf t.tail = true := by
  cases t with
  | nil => simp [List.isPrefixOf] at h
  | cons d t =>
      simp only [List.isPrefixOf, Bool.and_eq_true, beq_iff_eq] at h
      exact ⟨h.1.symm, by rw [h.2.1, List.head?_cons], h.2.2⟩

section Cutting

theorem cutAt_eq_singleton {mark : Char} {t : Text} (h : mark ∉ t) : cutAt mark t = [t] := by
  induction t with
  | nil => rfl
  | cons c t ih =>
      have hc : c ≠ mark := fun e => h (by simp [e])
      simp only [cutAt, if_neg hc, ih (fun hm => h (List.mem_cons_of_mem _ hm))]

theorem cutAt_append {mark : Char} {s : Text} (hs : mark ∉ s) (t : Text) :
    ∃ piece pieces, cutAt mark t = piece :: pieces ∧
      cutAt mark (s ++ t) = (s ++ piece) :: pieces := by
  obtain ⟨piece, pieces, ht⟩ := List.exists_cons_of_ne_nil (cutAt_ne_nil mark t)
  refine ⟨piece, pieces, ht, ?_⟩
  induction s with
  | nil => exact ht
  | cons c s ih =>
      have hc : c ≠ mark := fun e => hs (by simp [e])
      simp only [List.cons_append, cutAt, if_neg hc, ih (fun hm => hs (List.mem_cons_of_mem _ hm))]

/-- A mark parts the pieces before it from those after it. -/
theorem cutAt_append_mark (mark : Char) (s t : Text) :
    cutAt mark (s ++ mark :: t) = cutAt mark s ++ cutAt mark t := by
  induction s with
  | nil => simp [cutAt]
  | cons c s ih =>
      by_cases hc : c = mark
      · simp only [List.cons_append, cutAt, if_pos hc, ih]
      · obtain ⟨piece, pieces, hs⟩ := List.exists_cons_of_ne_nil (cutAt_ne_nil mark s)
        simp only [List.cons_append, cutAt, if_neg hc, ih, hs]

/-- The last piece of a text ends in its last character. -/
theorem cutAt_concat {mark c : Char} (hc : c ≠ mark) (s : Text) :
    ∃ pieces piece, cutAt mark (s ++ [c]) = pieces ++ [piece ++ [c]] := by
  induction s with
  | nil => exact ⟨[], [], by simp [cutAt, hc]⟩
  | cons d s ih =>
      obtain ⟨pieces, piece, h⟩ := ih
      by_cases hd : d = mark
      · exact ⟨[] :: pieces, piece, by simp [cutAt, hd, h]⟩
      · cases pieces with
        | nil => exact ⟨[], d :: piece, by simp [cutAt, hd, h]⟩
        | cons first pieces => exact ⟨(d :: first) :: pieces, piece, by simp [cutAt, hd, h]⟩

/-- The pieces of a text, each ended by the mark, are the text ended by the mark. -/
theorem flatMap_cutAt (mark : Char) (t : Text) :
    (cutAt mark t).flatMap (fun piece => piece ++ [mark]) = t ++ [mark] := by
  induction t with
  | nil => rfl
  | cons c t ih =>
      by_cases hc : c = mark
      · subst hc
        simp only [cutAt, if_true, List.flatMap_cons, List.nil_append, ih, List.cons_append]
      · obtain ⟨piece, pieces, ht⟩ := List.exists_cons_of_ne_nil (cutAt_ne_nil mark t)
        rw [ht, List.flatMap_cons] at ih
        simp only [cutAt, if_neg hc, ht, List.flatMap_cons, List.cons_append, ih]

theorem length_cutAt (t : Text) : (cutAt '\n' t).length = newlines t + 1 := by
  induction t with
  | nil => rfl
  | cons c t ih =>
      by_cases hc : c = '\n'
      · subst hc
        simp only [cutAt, if_true, List.length_cons, ih, newlines, List.count_cons_self]
      · obtain ⟨piece, pieces, ht⟩ := List.exists_cons_of_ne_nil (cutAt_ne_nil '\n' t)
        rw [ht, List.length_cons] at ih
        simp only [cutAt, if_neg hc, ht, List.length_cons, newlines,
          List.count_cons_of_ne hc] at ih ⊢
        exact ih

theorem not_mem_of_mem_cutAt {mark : Char} {t piece : Text} (h : piece ∈ cutAt mark t) :
    mark ∉ piece := by
  induction t generalizing piece with
  | nil => simp [List.mem_singleton.mp h]
  | cons c t ih =>
      by_cases hc : c = mark
      · simp only [cutAt, if_pos hc] at h
        obtain rfl | h := List.mem_cons.mp h
        · exact List.not_mem_nil
        · exact ih h
      · obtain ⟨first, pieces, ht⟩ := List.exists_cons_of_ne_nil (cutAt_ne_nil mark t)
        simp only [cutAt, if_neg hc, ht] at h
        rw [ht] at ih
        obtain rfl | h := List.mem_cons.mp h
        · intro hmem
          obtain heq | hmem := List.mem_cons.mp hmem
          · exact hc heq.symm
          · exact ih List.mem_cons_self hmem
        · exact ih (List.mem_cons_of_mem _ h)

section Meeting

variable {mark : Char} {s t first last : Text} {before after : List Text}

/-- Where two texts meet, the last piece of one goes on as the first of the other. -/
theorem cutAt_append_pieces (hs : cutAt mark s = before ++ [last])
    (ht : cutAt mark t = first :: after) :
    cutAt mark (s ++ t) = before ++ (last ++ first) :: after := by
  induction s generalizing before last with
  | nil =>
      obtain ⟨rfl, rfl⟩ : before = [] ∧ last = [] := by
        cases before with
        | nil => exact ⟨rfl, (List.cons.inj hs).1.symm⟩
        | cons piece before => simp [cutAt] at hs
      exact ht
  | cons c s ih =>
      by_cases hc : c = mark
      · simp only [cutAt, if_pos hc] at hs
        cases before with
        | nil => exact absurd (List.cons.inj hs).2 (cutAt_ne_nil mark s)
        | cons piece before =>
            obtain ⟨rfl, hrest⟩ := List.cons.inj hs
            simp only [List.cons_append, cutAt, if_pos hc, ih hrest]
      · obtain ⟨piece, pieces, hpieces⟩ := List.exists_cons_of_ne_nil (cutAt_ne_nil mark s)
        simp only [cutAt, if_neg hc, hpieces] at hs
        cases before with
        | nil =>
            obtain ⟨rfl, rfl⟩ := List.cons.inj hs
            have hlast : cutAt mark s = [] ++ [piece] := hpieces
            have hrest := ih hlast
            simp only [List.cons_append, cutAt, if_neg hc, hrest, List.nil_append]
        | cons start before =>
            obtain ⟨rfl, rfl⟩ := List.cons.inj hs
            have hlast : cutAt mark s = (piece :: before) ++ [last] := hpieces
            have hrest := ih hlast
            simp only [List.cons_append, cutAt, if_neg hc, hrest]

/-- The pieces of a text before the last one, and the last one. -/
theorem exists_cutAt (mark : Char) (s : Text) :
    ∃ before last, cutAt mark s = before ++ [last] ∧ mark ∉ last := by
  have hne := cutAt_ne_nil mark s
  exact ⟨_, _, (List.dropLast_concat_getLast hne).symm, not_mem_of_mem_cutAt (List.getLast_mem hne)⟩

/-- The pieces of a text that goes on. -/
theorem cutAt_append_last (hs : cutAt mark s = before ++ [last]) (t : Text) :
    cutAt mark (s ++ t) = before ++ cutAt mark (last ++ t) := by
  obtain ⟨first, after, ht⟩ := List.exists_cons_of_ne_nil (cutAt_ne_nil mark t)
  have hlast : mark ∉ last :=
    not_mem_of_mem_cutAt (hs ▸ List.mem_append_right before List.mem_cons_self)
  have honly : cutAt mark last = [] ++ [last] := cutAt_eq_singleton hlast
  rw [cutAt_append_pieces hs ht, cutAt_append_pieces honly ht, List.nil_append]

/-- The pieces of a text behind another. -/
theorem cutAt_append_first (s : Text) (ht : cutAt mark t = first :: after) :
    cutAt mark (s ++ t) = cutAt mark (s ++ first) ++ after := by
  obtain ⟨before, last, hs, -⟩ := exists_cutAt mark s
  have hfirst : mark ∉ first := not_mem_of_mem_cutAt (ht ▸ List.mem_cons_self)
  rw [cutAt_append_pieces hs ht, cutAt_append_pieces hs (cutAt_eq_singleton hfirst),
    List.append_assoc]
  rfl

theorem length_before_last {s last : Text} {before : List Text}
    (h : cutAt '\n' s = before ++ [last]) : before.length = s.newlines := by
  have hlength := length_cutAt s
  rw [h, List.length_append] at hlength
  exact Nat.add_right_cancel hlength

end Meeting

theorem cutAt_join {pieces : List Text} (hne : pieces ≠ [])
    (h : ∀ piece ∈ pieces, '\n' ∉ piece) : cutAt '\n' (join ['\n'] pieces) = pieces := by
  induction pieces with
  | nil => exact absurd rfl hne
  | cons piece pieces ih =>
      have hpiece := cutAt_eq_singleton (h piece List.mem_cons_self)
      cases pieces with
      | nil => simpa [join] using hpiece
      | cons next pieces =>
          have hrest := ih (List.cons_ne_nil _ _) fun other hother =>
            h other (List.mem_cons_of_mem _ hother)
          simp only [join] at hrest ⊢
          rw [List.intercalate_cons_cons, List.append_assoc, List.singleton_append,
            cutAt_append_mark, hpiece, hrest]
          rfl

theorem join_newline_end {pieces : List Text} (h : pieces ≠ []) :
    join ['\n'] pieces ++ ['\n'] = pieces.flatMap (fun piece => piece ++ ['\n']) := by
  induction pieces with
  | nil => exact absurd rfl h
  | cons piece pieces ih =>
      cases pieces with
      | nil => simp [join, List.intercalate]
      | cons next pieces =>
          have hnext := ih (by simp)
          simp only [join] at hnext ⊢
          rw [List.intercalate_cons_cons, List.flatMap_cons, ← hnext]
          simp only [List.append_assoc]

end Cutting

theorem newlines_eq_zero {t : Text} (h : '\n' ∉ t) : newlines t = 0 :=
  List.count_eq_zero.mpr h

end TemplateEngine.Text
