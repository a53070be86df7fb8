import TemplateEngine.Proofs.Text.Inert

/-!
# Entities read back

An ampersand begins every entity and stands nowhere else in one, and no entity begins another.
So wherever escaped text is read, at most one entity begins there, and reading it back goes on
behind that entity and never within what it has written: nothing is decoded twice. Escaping
and reading back undo each other, between all texts and those texts whose ampersands all begin
entities.
-/
namespace TemplateEngine.Entity

/-- Text in which no reserved character stands but the ampersands that begin entities. -/
structure Escaped (t : Text) : Prop where
  inert : Inert t
  entities : ∀ after, '&' :: after <:+ t → ∃ entry ∈ table, entry.2 <+: '&' :: after

variable {c : Char} {entity s t : Text}

/-! ### The table -/

/-- An entity begins with its only ampersand. -/
theorem exists_of_mem_table (h : (c, entity) ∈ table) :
    ∃ name, entity = '&' :: name ∧ '&' ∉ name := by
  have htable : ∀ entry ∈ table, entry.2.head? = some '&' ∧ '&' ∉ entry.2.tail := by decide
  obtain ⟨hhead, htail⟩ := htable _ h
  cases entity with
  | nil => cases hhead
  | cons first name =>
      obtain rfl := Option.some.inj hhead
      exact ⟨name, rfl, htail⟩

/-- No entity begins another one. -/
theorem eq_of_begins : ∀ entry ∈ table, ∀ other ∈ table, entry.2 <+: other.2 → entry = other := by
  decide

theorem encodeChar_of_mem_table (h : (c, entity) ∈ table) : encodeChar c = entity := by
  have htable : ∀ entry ∈ table, encodeChar entry.1 = entry.2 := by decide
  exact htable _ h

/-- A character is written as its entity, or it is no ampersand and stands for itself. -/
theorem encodeChar_cases (c : Char) :
    (c, encodeChar c) ∈ table ∨ encodeChar c = [c] ∧ c ≠ '&' := by
  cases hlookup : table.lookup c with
  | some entity =>
      have hmem := mem_of_lookup hlookup
      rw [encodeChar_of_mem_table hmem]
      exact .inl hmem
  | none =>
      refine .inr ⟨by rw [encodeChar, hlookup], ?_⟩
      rintro rfl
      cases hlookup

/-- Every other character than an ampersand or a delimiter stands for itself. -/
theorem encodeChar_of_plain (hc : c ≠ '&') (hdelimiter : isDelimiter c = false) :
    encodeChar c = [c] := by
  have htable : ∀ entry ∈ table, entry.1 = '&' ∨ isDelimiter entry.1 = true := by decide
  obtain hmem | ⟨hplain, -⟩ := encodeChar_cases c
  · obtain hampersand | hreserved := htable _ hmem
    · exact absurd hampersand hc
    · rw [hdelimiter] at hreserved
      cases hreserved
  · exact hplain

theorem escape_cons (c : Char) (t : Text) : escape (c :: t) = encodeChar c ++ escape t :=
  List.flatMap_cons

/-! ### Reading back -/

/-- The entity that begins here is found, whatever comes behind it. -/
theorem leading?_append (h : (c, entity) ∈ table) (rest : Text) :
    leading? (entity ++ rest) = some (c, entity.length) := by
  unfold leading?
  cases hfind : table.find? fun entry => entry.2.isPrefixOf (entity ++ rest) with
  | none =>
      have hnone := List.find?_eq_none.mp hfind _ h
      exact absurd (List.isPrefixOf_iff_prefix.mpr (List.prefix_append entity rest)) hnone
  | some entry =>
      have hmem := List.mem_of_find?_eq_some hfind
      have hprefix := List.find?_some hfind
      have hfound : entry.2 <+: entity ++ rest := List.isPrefixOf_iff_prefix.mp hprefix
      have hsame : entry = (c, entity) := by
        obtain hshorter | hlonger :=
          List.prefix_or_prefix_of_prefix hfound (List.prefix_append entity rest)
        · exact eq_of_begins _ hmem _ h hshorter
        · exact (eq_of_begins _ h _ hmem hlonger).symm
      rw [hsame]
      rfl

theorem leading?_of_ne (hc : c ≠ '&') (rest : Text) : leading? (c :: rest) = none := by
  unfold leading?
  rw [Option.map_eq_none_iff, List.find?_eq_none]
  rintro ⟨d, entity⟩ hmem hprefix
  obtain ⟨name, rfl, -⟩ := exists_of_mem_table hmem
  have hfirst := List.cons_prefix_cons.mp (List.isPrefixOf_iff_prefix.mp hprefix)
  exact hc hfirst.1.symm

theorem unescapeLoop_skip (passed rest : Text) :
    unescapeLoop passed.length (passed ++ rest) = unescape rest := by
  induction passed with
  | nil => rfl
  | cons d passed ih => exact ih

/-- A character as it is written is read back as that character, and reading goes on behind. -/
theorem unescape_encodeChar (c : Char) (rest : Text) :
    unescape (encodeChar c ++ rest) = c :: unescape rest := by
  obtain hmem | ⟨hplain, hc⟩ := encodeChar_cases c
  · have hleading := leading?_append hmem rest
    obtain ⟨name, hentity, -⟩ := exists_of_mem_table hmem
    rw [hentity, List.cons_append] at hleading ⊢
    simp only [unescape, unescapeLoop, hleading, List.length_cons, Nat.add_sub_cancel]
    rw [unescapeLoop_skip]
    rfl
  · rw [hplain, List.singleton_append]
    simp only [unescape, unescapeLoop, leading?_of_ne hc]

theorem unescape_escape (t : Text) : unescape (escape t) = t := by
  induction t with
  | nil => rfl
  | cons c t ih =>
      rw [escape_cons, unescape_encodeChar, ih]

/-! ### Escaped text -/

/-- Every ampersand of an escaped text begins the entity of a character. -/
theorem escaped_escape (t : Text) : Escaped (escape t) := by
  refine ⟨inert_escape t, ?_⟩
  induction t with
  | nil =>
      intro after hafter
      cases List.suffix_nil.mp hafter
  | cons c t ih =>
      rintro after ⟨before, hparts⟩
      rw [escape_cons] at hparts
      obtain ⟨more, hwritten, hmore⟩ | ⟨more, -, hlater⟩ := List.append_eq_append_iff.mp hparts
      · cases more with
        | nil => exact ih after (hmore ▸ List.suffix_refl _)
        | cons first more =>
            obtain rfl := List.head_eq_of_cons_eq hmore
            -- this ampersand is one of those that `c` is written with, so it is the first
            obtain hmem | ⟨hplain, hc⟩ := encodeChar_cases c
            · obtain ⟨name, hname, honly⟩ := exists_of_mem_table hmem
              rw [hname] at hwritten
              cases before with
              | nil =>
                  refine ⟨_, hmem, escape t, ?_⟩
                  rw [hmore, hname, hwritten]
                  rfl
              | cons d before =>
                  obtain ⟨-, rfl⟩ := List.cons.inj hwritten
                  exact absurd (List.mem_append_right before List.mem_cons_self) honly
            · have hmem : '&' ∈ [c] := by
                rw [← hplain, hwritten]
                exact List.mem_append_right before List.mem_cons_self
              exact absurd (List.mem_singleton.mp hmem).symm hc
      · exact ih after ⟨more, hlater.symm⟩

/-- Text whose ampersands all begin entities is what some text is written as. -/
theorem Escaped.exists_escape (h : Escaped s) : ∃ t, s = escape t := by
  induction hlength : s.length using Nat.strongRecOn generalizing s with
  | ind n ih =>
      have hlater {passed rest : Text} (hparts : s = passed ++ rest) (hpassed : passed ≠ []) :
          ∃ t, rest = escape t := by
        have hrest : Escaped rest := by
          constructor
          · exact (inert_append.mp (hparts ▸ h.inert)).2
          · intro after hafter
            exact h.entities after (hparts ▸ hafter.trans (List.suffix_append passed rest))
        have hshorter : rest.length < n := by
          have hpositive := List.length_pos_iff.mpr hpassed
          rw [← hlength, hparts, List.length_append]
          omega
        exact ih _ hshorter hrest rfl
      cases hs : s with
      | nil => exact ⟨[], rfl⟩
      | cons c rest =>
          by_cases hc : c = '&'
          · subst hc
            obtain ⟨⟨d, entity⟩, hmem, behind, hentity⟩ :=
              h.entities rest (hs ▸ List.suffix_refl _)
            obtain ⟨name, hname, -⟩ := exists_of_mem_table hmem
            obtain ⟨t, rfl⟩ := hlater (hs.trans hentity.symm) (hname ▸ List.cons_ne_nil _ _)
            refine ⟨d :: t, ?_⟩
            rw [← hentity, escape_cons, encodeChar_of_mem_table hmem]
          · obtain ⟨t, rfl⟩ := hlater (show s = [c] ++ rest from hs) (List.cons_ne_nil _ _)
            have hdelimiter := h.inert c (hs ▸ List.mem_cons_self)
            refine ⟨c :: t, ?_⟩
            rw [escape_cons, encodeChar_of_plain hc hdelimiter]
            rfl

/-- Escaping is complete and can be undone: it leaves no reserved character but ampersands that
begin entities, goes through a text character by character, and is undone by reading back, which
in turn is undone by escaping on every text of that kind. -/
theorem escape_invertible :
    (∀ t, Escaped (escape t) ∧ unescape (escape t) = t) ∧
      (∀ s t, escape (s ++ t) = escape s ++ escape t) ∧
        ∀ s, Escaped s → escape (unescape s) = s := by
  refine ⟨fun t => ⟨escaped_escape t, unescape_escape t⟩, escape_append, ?_⟩
  intro s hs
  obtain ⟨t, rfl⟩ := hs.exists_escape
  rw [unescape_escape]

/-- The entity of an ampersand before what would be an entity with it: read back once, and no
second time. -/
theorem escape_invertible_doubled : ∃ s : Text, s = "&amp;lt;" ∧ Escaped s ∧
    unescape s = "&lt;" ∧ escape (unescape s) = s := by
  have hwritten : escape "&lt;" = "&amp;lt;" := by decide
  have hescaped : Escaped "&amp;lt;" := hwritten ▸ (escape_invertible.1 "&lt;").1
  exact ⟨_, rfl, hescaped, by decide, escape_invertible.2.2 _ hescaped⟩

end TemplateEngine.Entity
