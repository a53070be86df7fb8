import TemplateEngine.Proofs.Script.Data
import TemplateEngine.Proofs.Syntax.ProgramReading

/-!
# The written form of data

The expression for data is one that the grammar admits, and its text is the written form of every
value that holds the data.
-/
namespace TemplateEngine

open Lexeme

theorem isName_range : IsName "range".toList := isName_of_isLatin (by decide) rfl

namespace Datum

theorem Plain.inside {d : Datum} (h : d.Plain) : ∀ e ∈ d.inside, e.Plain := by
  intro e he
  cases h with
  | list hitems => exact hitems e he
  | tuple hitems => exact hitems e he
  | dict _ hentries =>
      obtain ⟨entry, hentry, rfl⟩ := List.mem_map.mp he
      exact hentries entry hentry
  | _ => cases he

theorem plain_negated {n : Int} (hn : Mirrored n) (hsign : n < 0) : (Constant.int (-n)).Plain := by
  unfold Mirrored at hn
  refine ⟨by omega, ?_, ?_⟩
  · unfold Word.least
    omega
  · unfold Word.least at hn
    unfold Word.greatest
    omega

theorem plain_of_mirrored {n : Int} (hn : Mirrored n) (hsign : ¬ n < 0) :
    (Constant.int n).Plain :=
  ⟨Int.not_lt.mp hsign, Int.le_of_lt hn.1, hn.2⟩

theorem grammatical_intExpr {n : Int} (hn : Mirrored n) : (intExpr n).Grammatical := by
  unfold intExpr
  split
  · exact .unary (.constant (plain_negated hn ‹_›))
  · exact .constant (plain_of_mirrored hn ‹_›)

theorem mirrored_of_mem_rangeArguments {r : Range} (h : Plain (.range r)) {n : Int}
    (hn : n ∈ rangeArguments r) : Mirrored n := by
  obtain ⟨hstart, hstop, hstep⟩ : Mirrored r.start ∧ Mirrored r.stop ∧ Mirrored r.step := by
    cases h with
    | range hstart hstop hstep _ => exact ⟨hstart, hstop, hstep⟩
  unfold rangeArguments at hn
  split at hn <;> simp only [List.mem_cons, List.not_mem_nil, or_false] at hn
  · rcases hn with rfl | rfl
    · exact hstart
    · exact hstop
  · rcases hn with rfl | rfl | rfl
    · exact hstart
    · exact hstop
    · exact hstep

theorem grammatical_rangeArguments {r : Range} (h : Plain (.range r)) :
    ∀ e ∈ (rangeArguments r).map intExpr, e.Grammatical := by
  intro e he
  obtain ⟨n, hn, rfl⟩ := List.mem_map.mp he
  exact grammatical_intExpr (mirrored_of_mem_rangeArguments h hn)

theorem Plain.grammatical {d : Datum} (h : d.Plain) : d.expr.Grammatical := by
  induction h with
  | none => exact .constant trivial
  | bool => exact .constant trivial
  | int hn => exact grammatical_intExpr hn
  | str => exact .constant trivial
  | range hstart hstop hstep hzero =>
      exact .call (.name isName_range)
        (grammatical_rangeArguments (.range hstart hstop hstep hzero)) (fun _ h => nomatch h)
        (fun _ h => nomatch h) List.nodup_nil
  | list _ ih =>
      rw [expr, exprItems_eq]
      refine .list fun e he => ?_
      obtain ⟨d, hd, rfl⟩ := List.mem_map.mp he
      exact ih d hd
  | tuple _ ih =>
      rw [expr, exprItems_eq]
      refine .tuple fun e he => ?_
      obtain ⟨d, hd, rfl⟩ := List.mem_map.mp he
      exact ih d hd
  | dict _ _ ih =>
      rw [expr, exprEntries_eq]
      refine .dict (fun entry hentry => ?_) fun entry hentry => ?_
      · obtain ⟨_, _, rfl⟩ := List.mem_map.mp hentry
        exact .constant trivial
      · obtain ⟨source, hsource, rfl⟩ := List.mem_map.mp hentry
        exact ih source hsource

end Datum

theorem Expr.Grammatical.print_ne_nil {e : Expr} (h : e.Grammatical) : e.print ≠ [] := by
  obtain ⟨kind, others, hkinds, -⟩ := h.phrase.begins
  intro hprint
  rw [hprint] at hkinds
  cases hkinds

theorem isEmpty_print {e : Expr} (h : e.Grammatical) (ls : List Lexeme) :
    (e.print ++ ls).isEmpty = false := by
  rw [List.isEmpty_eq_false_iff]
  exact fun hnil => h.print_ne_nil (List.append_eq_nil_iff.mp hnil).1

theorem line_separated {ls : List Lexeme} (h : ls.isEmpty = false) :
    line (separated ls) = ", ".toList ++ line ls := by
  rw [separated, if_neg (by rw [h]; decide)]
  rfl

theorem join_cons_cons (separator first second : Text) (others : List Text) :
    Text.join separator (first :: second :: others) =
      first ++ (separator ++ Text.join separator (second :: others)) := by
  rw [Text.join, List.intercalate_cons_cons, List.append_assoc]
  rfl

theorem line_printItems {es : List Expr} (h : ∀ e ∈ es, e.Grammatical) :
    line (printItems es []) = Text.join ", " (es.map fun e => line e.print) := by
  induction es with
  | nil => rfl
  | cons e es ih =>
      have hes : ∀ d ∈ es, d.Grammatical := fun d hd => h d (List.mem_cons_of_mem e hd)
      rw [printItems, line_append]
      cases es with
      | nil => simp [printItems, separated, Text.join]
      | cons d es =>
          have hsome : (printItems (d :: es) []).isEmpty = false := by
            rw [printItems]
            exact isEmpty_print (hes d List.mem_cons_self) _
          rw [line_separated hsome, ih hes]
          exact (join_cons_cons _ _ _ _).symm

theorem line_printEntries {entries : List (Expr × Expr)}
    (h : ∀ entry ∈ entries, entry.1.Grammatical) :
    line (printEntries entries) = Text.join ", "
      (entries.map fun entry => line entry.1.print ++ ": ".toList ++ line entry.2.print) := by
  induction entries with
  | nil => rfl
  | cons entry entries ih =>
      obtain ⟨key, value⟩ := entry
      have hentries : ∀ entry ∈ entries, entry.1.Grammatical := fun entry hentry =>
        h entry (List.mem_cons_of_mem _ hentry)
      have hfirst : line (printEntries ((key, value) :: entries)) =
          line key.print ++ ": ".toList ++ line value.print ++
            line (separated (printEntries entries)) := by
        rw [printEntries]
        simp only [line_append, line_cons, List.append_assoc]
        rfl
      rw [hfirst]
      cases entries with
      | nil => simp [printEntries, separated, Text.join]
      | cons next entries =>
          have hsome : (printEntries (next :: entries)).isEmpty = false := by
            rw [printEntries]
            exact isEmpty_print (hentries next List.mem_cons_self) _
          rw [line_separated hsome, ih hentries]
          exact (join_cons_cons _ _ _ _).symm

theorem line_intExpr (n : Int) : line (Datum.intExpr n).print = Text.ofInt n := by
  unfold Datum.intExpr Text.ofInt
  split
  · rename_i hn
    have hprint : line (Expr.unary .neg (.constant (.int (-n)))).print =
        '-' :: (Text.ofNat (-n).toNat ++ []) := rfl
    rw [hprint, List.append_nil, show (-n).toNat = n.natAbs by omega]
  · rename_i hn
    have hprint : line (Expr.constant (.int n)).print = Text.ofNat n.toNat ++ [] := rfl
    rw [hprint, List.append_nil, show n.toNat = n.natAbs by omega]

theorem line_range {r : Range} (h : (Datum.range r).Plain) :
    line (Datum.range r).expr.print = r.text := by
  have hprint : line (Datum.range r).expr.print =
      "range(".toList ++ (line (printItems ((Datum.rangeArguments r).map Datum.intExpr) []) ++
        ")".toList) := by
    show line ([.word "range".toList] ++ .sign .leftParen ::
      (printItems ((Datum.rangeArguments r).map Datum.intExpr) [] ++ [.sign .rightParen])) = _
    simp only [line_append, line_cons, line_nil, List.append_nil]
    rfl
  rw [hprint, line_printItems (Datum.grammatical_rangeArguments h)]
  unfold Range.text Datum.rangeArguments
  split <;> simp [Text.join, line_intExpr, List.intercalate]

section Containers

variable (items : List Datum) (entries : List (Text × Datum))

theorem line_exprItems (h : ∀ d ∈ items, d.Plain) :
    line (printItems (Datum.exprItems items) []) =
      Text.join ", " (items.map fun d => line d.expr.print) := by
  have hitems : ∀ e ∈ items.map Datum.expr, e.Grammatical := by
    intro e he
    obtain ⟨d, hd, rfl⟩ := List.mem_map.mp he
    exact (h d hd).grammatical
  rw [Datum.exprItems_eq, line_printItems hitems, List.map_map]
  rfl

theorem line_list (h : ∀ d ∈ items, d.Plain) : line (Datum.list items).expr.print =
    '[' :: Text.join ", " (items.map fun d => line d.expr.print) ++ [']'] := by
  rw [← line_exprItems items h]
  show line (.sign .leftBracket ::
    (printItems (Datum.exprItems items) [] ++ [.sign .rightBracket])) = _
  simp only [line_cons, line_append, line_nil, List.append_nil]
  rfl

/-- A tuple of one item has a comma behind it. -/
theorem line_tuple (h : ∀ d ∈ items, d.Plain) : line (Datum.tuple items).expr.print =
    '(' :: Text.join ", " (items.map fun d => line d.expr.print) ++
      (if items.length = 1 then [','] else []) ++ [')'] := by
  rw [← line_exprItems items h]
  show line (.sign .leftParen :: (printItems (Datum.exprItems items) [] ++
    (if (Datum.exprItems items).length = 1 then [.sign .comma] else []) ++
      [.sign .rightParen])) = _
  rw [Datum.exprItems_eq, List.length_map]
  simp only [line_cons, line_append, line_nil, List.append_nil]
  split <;> rfl

theorem line_dict : line (Datum.dict entries).expr.print =
    '\x7b' :: Text.join ", " (entries.map fun entry =>
      Quoted.encode entry.1 ++ ": ".toList ++ line entry.2.expr.print) ++ ['\x7d'] := by
  have hkeys : ∀ entry ∈ Datum.exprEntries entries, entry.1.Grammatical := by
    intro entry hentry
    rw [Datum.exprEntries_eq] at hentry
    obtain ⟨_, _, rfl⟩ := List.mem_map.mp hentry
    exact .constant trivial
  have hkey (t : Text) : line (Expr.constant (.str t)).print = Quoted.encode t := by
    show Quoted.encode t ++ [] = _
    rw [List.append_nil]
  have hentries := line_printEntries hkeys
  rw [Datum.exprEntries_eq, List.map_map] at hentries
  simp only [Function.comp_def, hkey] at hentries
  rw [← hentries, ← Datum.exprEntries_eq]
  show line (.sign .leftBrace :: (printEntries (Datum.exprEntries entries) ++
    [.sign .rightBrace])) = _
  simp only [line_cons, line_append, line_nil, List.append_nil]
  rfl

end Containers

namespace Heap

variable {h : Heap} {v : Value} {d : Datum}

theorem map_of_zip {α β γ : Type} {f : α → γ} {g : β → γ} {as : List α} {bs : List β}
    (hlength : as.length = bs.length) (hpairs : ∀ pair ∈ as.zip bs, f pair.1 = g pair.2) :
    as.map f = bs.map g := by
  induction as generalizing bs with
  | nil =>
      obtain rfl := List.length_eq_zero_iff.mp hlength.symm
      rfl
  | cons a as ih =>
      cases bs with
      | nil => cases hlength
      | cons b bs =>
          rw [List.map_cons, List.map_cons, hpairs (a, b) List.mem_cons_self,
            ih (Nat.succ.inj hlength) fun pair hpair => hpairs pair (List.mem_cons_of_mem _ hpair)]

theorem map_pairs {α β γ δ : Type} (f : α → γ → δ) (g : β → γ) (pairs : List (α × β)) :
    pairs.map (fun pair => f pair.1 (g pair.2)) =
      List.zipWith f (pairs.map Prod.fst) ((pairs.map Prod.snd).map g) := by
  induction pairs with
  | nil => rfl
  | cons pair pairs ih =>
      rw [List.map_cons, ih]
      rfl

/-- The written form of a value, followed deep enough, is the text of an expression for its data. -/
theorem Holds.reprTo_eq (hv : h.Holds v d) (hd : d.Plain) {depth : Nat} (hdepth : d.levels < depth) :
    h.reprTo depth v = line d.expr.print := by
  induction hv generalizing depth with
  | @intro v d hshows hlength _ ih =>
      obtain ⟨depth, rfl⟩ := Nat.exists_eq_add_one.mpr (Nat.lt_of_le_of_lt (Nat.zero_le _) hdepth)
      have hinside : (h.inside v).map (h.reprTo depth) =
          d.inside.map fun e => line e.expr.print := by
        refine map_of_zip hlength fun pair hpair => ?_
        have hmem := (List.of_mem_zip hpair).2
        have hlt := Datum.levels_lt_of_mem_inside hmem
        exact ih pair hpair (hd.inside _ hmem) (by omega)
      cases d with
      | none =>
          rw [eq_none_of_shows hshows]
          rfl
      | bool b =>
          rw [eq_bool_of_shows hshows]
          cases b <;> rfl
      | int n =>
          rw [eq_int_of_shows hshows]
          exact (line_intExpr n).symm
      | str t =>
          rw [eq_str_of_shows hshows]
          exact (List.append_nil _).symm
      | range r =>
          rw [eq_range_of_shows hshows]
          exact (line_range hd).symm
      | list items =>
          obtain ⟨p, rfl⟩ := exists_list_of_shows hshows
          have hitems : (h.list p).map (h.reprTo depth) = items.map fun e => line e.expr.print :=
            hinside
          rw [reprTo_list, hitems, line_list items hd.inside]
      | tuple items =>
          obtain ⟨p, rfl⟩ := exists_tuple_of_shows hshows
          have hitems : (h.tuple p).map (h.reprTo depth) = items.map fun e => line e.expr.print :=
            hinside
          have hcount : (h.tuple p).length = items.length := hlength
          rw [reprTo_tuple, line_tuple items hd.inside, ← hitems, ← hcount]
          split
          · rename_i item hone
            rw [hone]
            simp [Text.join]
          · rename_i hother
            rw [if_neg fun hone => ?_, List.append_nil]
            obtain ⟨item, hitem⟩ := List.length_eq_one_iff.mp hone
            exact hother item hitem
      | dict entries =>
          obtain ⟨p, rfl, hnames⟩ := exists_dict_of_shows hshows
          have hpairs : (h.dict p).map (fun entry => Quoted.encode entry.1 ++ ": ".toList ++
              h.reprTo depth entry.2) = entries.map fun entry =>
                Quoted.encode entry.1 ++ ": ".toList ++ line entry.2.expr.print := by
            have hvalues : ((h.dict p).map Prod.snd).map (h.reprTo depth) =
                (entries.map Prod.snd).map fun e => line e.expr.print := hinside
            rw [map_pairs fun name written => Quoted.encode name ++ ": ".toList ++ written,
              map_pairs (fun name written => Quoted.encode name ++ ": ".toList ++ written)
                fun e : Datum => line e.expr.print, hnames, hvalues]
          rw [reprTo_dict, hpairs, line_dict]

/-- The written form of a value is the text of an expression for its data. -/
theorem Holds.repr_eq (hv : h.Holds v d) (hd : d.Plain) : h.repr v = line d.expr.print := by
  have hdepth := h.card_below v
  rw [repr, hv.acyclic.reprTo_enough (d := max h.depth (d.levels + 1)) (by omega) hdepth]
  exact hv.reprTo_eq hd (by omega)

end Heap

end TemplateEngine
