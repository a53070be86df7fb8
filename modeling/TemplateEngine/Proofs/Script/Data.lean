import TemplateEngine.Proofs.Script.Containers
import TemplateEngine.Proofs.Syntax.ExpressionText

/-!
# Data

Data is what values hold that are built from constants, ranges and containers, with nothing said
of where the containers are. The written form of such a value is the text of an expression for the
data: negative numbers are written with a minus, ranges as calls, everything else as displays.
-/
namespace TemplateEngine

/-- What is built from constants, ranges and containers. -/
inductive Datum where
  | none
  | bool (b : Bool)
  | int (n : Int)
  | str (t : Text)
  | range (r : Range)
  | list (items : List Datum)
  | tuple (items : List Datum)
  | dict (entries : List (Text × Datum))

namespace Datum

/-- What data contains. -/
def inside : Datum → List Datum
  | .list items => items
  | .tuple items => items
  | .dict entries => entries.map Prod.snd
  | _ => []

mutual

/-- How many containers nest in data. -/
def levels (d : Datum) : Nat :=
  match d with
  | .list items => levelsItems items + 1
  | .tuple items => levelsItems items + 1
  | .dict entries => levelsEntries entries + 1
  | _ => 0
  termination_by structural d

/-- How many containers nest in items. -/
def levelsItems (items : List Datum) : Nat :=
  match items with
  | [] => 0
  | d :: items => max d.levels (levelsItems items)
  termination_by structural items

/-- How many containers nest in the entries of a dict. -/
def levelsEntries (entries : List (Text × Datum)) : Nat :=
  match entries with
  | [] => 0
  | (_, d) :: entries => max d.levels (levelsEntries entries)
  termination_by structural entries

end

/-- An expression for an integer. -/
def intExpr (n : Int) : Expr :=
  if n < 0 then .unary .neg (.constant (.int (-n))) else .constant (.int n)

/-- The arguments for a range; a step of one is left out. -/
def rangeArguments (r : Range) : List Int :=
  if r.step = 1 then [r.start, r.stop] else [r.start, r.stop, r.step]

mutual

/-- An expression for data. -/
def expr (d : Datum) : Expr :=
  match d with
  | .none => .constant .none
  | .bool b => .constant (.bool b)
  | .int n => intExpr n
  | .str t => .constant (.str t)
  | .range r => .call (.name "range".toList) ((rangeArguments r).map intExpr) []
  | .list items => .list (exprItems items)
  | .tuple items => .tuple (exprItems items)
  | .dict entries => .dict (exprEntries entries)
  termination_by structural d

/-- Expressions for items. -/
def exprItems (items : List Datum) : List Expr :=
  match items with
  | [] => []
  | d :: items => d.expr :: exprItems items
  termination_by structural items

/-- Expressions for the names and the data of a dict. -/
def exprEntries (entries : List (Text × Datum)) : List (Expr × Expr) :=
  match entries with
  | [] => []
  | (name, d) :: entries => (.constant (.str name), d.expr) :: exprEntries entries
  termination_by structural entries

end

theorem exprItems_eq (items : List Datum) : exprItems items = items.map expr := by
  induction items with
  | nil => rfl
  | cons d items ih => rw [exprItems, ih, List.map_cons]

theorem exprEntries_eq (entries : List (Text × Datum)) :
    exprEntries entries = entries.map fun entry => (.constant (.str entry.1), entry.2.expr) := by
  induction entries with
  | nil => rfl
  | cons entry entries ih => rw [exprEntries, ih, List.map_cons]

theorem levels_le_of_mem_items {d : Datum} {items : List Datum} (h : d ∈ items) :
    d.levels ≤ levelsItems items := by
  induction items with
  | nil => cases h
  | cons other items ih =>
      rw [levelsItems]
      rcases List.mem_cons.mp h with rfl | h
      · exact Nat.le_max_left _ _
      · exact Nat.le_trans (ih h) (Nat.le_max_right _ _)

theorem levels_le_of_mem_entries {entry : Text × Datum} {entries : List (Text × Datum)}
    (h : entry ∈ entries) : entry.2.levels ≤ levelsEntries entries := by
  induction entries with
  | nil => cases h
  | cons other entries ih =>
      rw [levelsEntries]
      rcases List.mem_cons.mp h with rfl | h
      · exact Nat.le_max_left _ _
      · exact Nat.le_trans (ih h) (Nat.le_max_right _ _)

/-- What data contains nests less deep. -/
theorem levels_lt_of_mem_inside {d outer : Datum} (h : d ∈ outer.inside) :
    d.levels < outer.levels := by
  cases outer with
  | list items =>
      rw [levels]
      exact Nat.lt_succ_of_le (levels_le_of_mem_items h)
  | tuple items =>
      rw [levels]
      exact Nat.lt_succ_of_le (levels_le_of_mem_items h)
  | dict entries =>
      obtain ⟨entry, hentry, rfl⟩ := List.mem_map.mp h
      rw [levels]
      exact Nat.lt_succ_of_le (levels_le_of_mem_entries hentry)
  | _ => cases h

/-- An integer whose negation is a machine integer as well. -/
def Mirrored (n : Int) : Prop := Word.least < n ∧ n ≤ Word.greatest

/-- Data that scripts can build: its integers have negations, a range has a step, and a dict has
one entry for each name. -/
inductive Plain : Datum → Prop
  | none : Plain .none
  | bool {b : Bool} : Plain (.bool b)
  | int {n : Int} : Mirrored n → Plain (.int n)
  | str {t : Text} : Plain (.str t)
  | range {r : Range} : Mirrored r.start → Mirrored r.stop → Mirrored r.step → r.step ≠ 0 →
      Plain (.range r)
  | list {items : List Datum} : (∀ d ∈ items, Plain d) → Plain (.list items)
  | tuple {items : List Datum} : (∀ d ∈ items, Plain d) → Plain (.tuple items)
  | dict {entries : List (Text × Datum)} : (entries.map Prod.fst).Nodup →
      (∀ entry ∈ entries, Plain entry.2) → Plain (.dict entries)

end Datum

namespace Heap

/-- A value is on the heap and is data from outside: a constant or range is that of the data, and a
container is of its kind, a dict with its names in order. -/
def shows (h : Heap) : Value → Datum → Prop
  | .none, .none => True
  | .bool b, .bool c => b = c
  | .int n, .int m => n = m
  | .str t, .str u => t = u
  | .range r, .range s => r = s
  | .list p, .list _ => p < h.lists.size
  | .tuple p, .tuple _ => p < h.tuples.size
  | .dict p, .dict entries => p < h.dicts.size ∧ (h.dict p).map Prod.fst = entries.map Prod.fst
  | _, _ => False

/-- A value holds data: it shows it, and what it contains holds what the data contains. -/
inductive Holds (h : Heap) : Value → Datum → Prop
  | intro {v : Value} {d : Datum} : h.shows v d → (h.inside v).length = d.inside.length →
      (∀ pair ∈ (h.inside v).zip d.inside, Holds h pair.1 pair.2) → Holds h v d

/-- Values hold data, each its own. -/
def HoldsAll (h : Heap) (vs : List Value) (ds : List Datum) : Prop :=
  vs.length = ds.length ∧ ∀ pair ∈ vs.zip ds, h.Holds pair.1 pair.2

section Holding

variable {h h' : Heap} {v : Value} {d : Datum} {vs : List Value} {ds : List Datum}

theorem holds_iff : h.Holds v d ↔ h.shows v d ∧ h.HoldsAll (h.inside v) d.inside :=
  ⟨fun hv => by cases hv with | intro hshows hlength hinside => exact ⟨hshows, hlength, hinside⟩,
    fun hv => .intro hv.1 hv.2.1 hv.2.2⟩

theorem holdsAll_nil : h.HoldsAll [] [] := ⟨rfl, fun _ hpair => nomatch hpair⟩

theorem HoldsAll.cons (hv : h.Holds v d) (hvs : h.HoldsAll vs ds) :
    h.HoldsAll (v :: vs) (d :: ds) := by
  refine ⟨congrArg Nat.succ hvs.1, fun pair hpair => ?_⟩
  rcases List.mem_cons.mp hpair with rfl | hpair
  · exact hv
  · exact hvs.2 pair hpair

section Shown

theorem eq_none_of_shows (hv : h.shows v .none) : v = .none := by
  cases v <;> first | rfl | exact hv.elim

theorem eq_bool_of_shows {b : Bool} (hv : h.shows v (.bool b)) : v = .bool b := by
  cases v <;> first | exact congrArg Value.bool hv | exact hv.elim

theorem eq_int_of_shows {n : Int} (hv : h.shows v (.int n)) : v = .int n := by
  cases v <;> first | exact congrArg Value.int hv | exact hv.elim

theorem eq_str_of_shows {t : Text} (hv : h.shows v (.str t)) : v = .str t := by
  cases v <;> first | exact congrArg Value.str hv | exact hv.elim

theorem eq_range_of_shows {r : Range} (hv : h.shows v (.range r)) : v = .range r := by
  cases v <;> first | exact congrArg Value.range hv | exact hv.elim

theorem exists_list_of_shows {items : List Datum} (hv : h.shows v (.list items)) :
    ∃ p, v = .list p := by
  cases v <;> first | exact ⟨_, rfl⟩ | exact hv.elim

theorem exists_tuple_of_shows {items : List Datum} (hv : h.shows v (.tuple items)) :
    ∃ p, v = .tuple p := by
  cases v <;> first | exact ⟨_, rfl⟩ | exact hv.elim

theorem exists_dict_of_shows {entries : List (Text × Datum)} (hv : h.shows v (.dict entries)) :
    ∃ p, v = .dict p ∧ (h.dict p).map Prod.fst = entries.map Prod.fst := by
  cases v <;> first | exact ⟨_, rfl, hv.2⟩ | exact hv.elim

end Shown

theorem shows.has (hv : h.shows v d) : h.has v := by
  cases v <;> cases d <;> first | trivial | exact hv | exact hv.1

/-- Whatever is in a value that holds data holds some of what the data contains. -/
theorem Holds.acyclic (hv : h.Holds v d) : h.Acyclic v := by
  induction hv with
  | @intro v d hshows hlength hinside ih =>
      refine .intro hshows.has fun w hw => ?_
      obtain ⟨i, hi, rfl⟩ := List.getElem_of_mem hw
      have hi' : i < d.inside.length := hlength ▸ hi
      have hzip : i < ((h.inside v).zip d.inside).length := by
        rw [List.length_zip]
        exact Nat.lt_min.mpr ⟨hi, hi'⟩
      have hpair := ih _ (List.getElem_mem hzip)
      rwa [List.getElem_zip] at hpair

theorem agrees_inside (hagrees : h.agrees h' v) : h'.inside v = h.inside v := by
  cases v with
  | list p => exact hagrees
  | tuple p => exact hagrees
  | dict p => exact congrArg (List.map Prod.snd) hagrees
  | _ => rfl

/-- A value still holds its data when the heap grows. -/
theorem Holds.extends (hext : h.Extends h') (hv : h.Holds v d) : h'.Holds v d := by
  induction hv with
  | @intro v d hshows hlength hinside ih =>
      have hagrees := hext.agrees v hshows.has
      have hsame := agrees_inside hagrees
      refine .intro ?_ (by rw [hsame, hlength]) fun pair hpair => ih pair (hsame ▸ hpair)
      have hplace := hext.has v hshows.has
      cases v <;> cases d <;> first
        | exact hshows
        | exact hplace
        | exact ⟨hplace, (congrArg (List.map Prod.fst) hagrees).trans hshows.2⟩

theorem HoldsAll.extends (hext : h.Extends h') (hvs : h.HoldsAll vs ds) : h'.HoldsAll vs ds :=
  ⟨hvs.1, fun pair hpair => (hvs.2 pair hpair).extends hext⟩

theorem HoldsAll.newList (hvs : h.HoldsAll vs ds) :
    { h with lists := h.lists.push vs }.Holds (.list h.lists.size) (.list ds) := by
  have hitems : { h with lists := h.lists.push vs }.inside (.list h.lists.size) = vs :=
    getD_push_self vs
  refine holds_iff.mpr ⟨?_, hitems.symm ▸ hvs.extends (h.extends_newList vs)⟩
  show h.lists.size < (h.lists.push vs).size
  rw [Array.size_push]
  exact Nat.lt_succ_self _

theorem HoldsAll.newTuple (hvs : h.HoldsAll vs ds) :
    { h with tuples := h.tuples.push vs }.Holds (.tuple h.tuples.size) (.tuple ds) := by
  have hitems : { h with tuples := h.tuples.push vs }.inside (.tuple h.tuples.size) = vs :=
    getD_push_self vs
  refine holds_iff.mpr ⟨?_, hitems.symm ▸ hvs.extends (h.extends_newTuple vs)⟩
  show h.tuples.size < (h.tuples.push vs).size
  rw [Array.size_push]
  exact Nat.lt_succ_self _

theorem HoldsAll.newDict {more : Entries Value} {entries : List (Text × Datum)}
    (hnames : more.map Prod.fst = entries.map Prod.fst)
    (hvs : h.HoldsAll (more.map Prod.snd) (entries.map Prod.snd)) :
    { h with dicts := h.dicts.push more }.Holds (.dict h.dicts.size) (.dict entries) := by
  have hentries : { h with dicts := h.dicts.push more }.dict h.dicts.size = more :=
    getD_push_self more
  have hvalues : { h with dicts := h.dicts.push more }.inside (.dict h.dicts.size) =
      more.map Prod.snd := congrArg (List.map Prod.snd) hentries
  refine holds_iff.mpr ⟨⟨?_, (congrArg (List.map Prod.fst) hentries).trans hnames⟩,
    hvalues.symm ▸ hvs.extends (h.extends_newDict more)⟩
  rw [Array.size_push]
  exact Nat.lt_succ_self _

end Holding

end Heap

end TemplateEngine
