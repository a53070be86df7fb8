import TemplateEngine.Proofs.Script.DataText
import TemplateEngine.Proofs.Script.Printing

/-!
# Written data read back

The written form of a value that holds data is parsed as the expression for the data, if the data
does not nest too deep, and that expression has a value which holds the same data: one level of
operands is enough for each container, and three for what is innermost.
-/
namespace TemplateEngine

open Lexeme TemplateEngine.Parser

namespace Datum

section Reading

variable {depth : Nat}

theorem completes_constant {c : Constant} (hc : c.Plain) :
    Completes (depth + 1) (Expr.constant c).print (.constant c) :=
  (trails_constant hc).heads.leads.completes (by decide)

theorem completes_intExpr {n : Int} (hn : Mirrored n) :
    Completes (depth + 2) (intExpr n).print (intExpr n) := by
  unfold intExpr
  split
  · exact (heads_unary (trails_constant (plain_negated hn ‹_›)).heads.leads
      (by decide)).leads.completes (by decide)
  · exact completes_constant (plain_of_mirrored hn ‹_›)

/-- Every container takes one level of operands, and what is innermost three at most. -/
theorem Plain.completes {d : Datum} (h : d.Plain) (hdepth : d.levels + 3 ≤ depth) :
    Completes depth d.expr.print d.expr := by
  induction h generalizing depth with
  | none | bool | str =>
      obtain ⟨depth, rfl⟩ := Nat.exists_eq_add_one.mpr (show 0 < depth by omega)
      exact completes_constant trivial
  | int hn =>
      obtain ⟨depth, rfl⟩ := Nat.exists_eq_add_of_le' (show 2 ≤ depth by omega)
      exact completes_intExpr hn
  | @range r hstart hstop hstep hzero =>
      obtain ⟨depth, rfl⟩ := Nat.exists_eq_add_of_le' (show 3 ≤ depth by omega)
      have hplain : Plain (.range r) := .range hstart hstop hstep hzero
      have hcall : Trails (depth + 2) (Datum.range r).expr.print (Datum.range r).expr := by
        refine trails_call (trails_name isName_range) (fun e he => ?_) (fun _ h => nomatch h)
          (fun _ h => nomatch h) List.nodup_nil
        obtain ⟨n, hn, rfl⟩ := List.mem_map.mp he
        have hmirrored := mirrored_of_mem_rangeArguments hplain hn
        exact ⟨(grammatical_intExpr hmirrored).phrase, completes_intExpr hmirrored⟩
      exact hcall.heads.leads.completes (by decide)
  | @list items hitems ih =>
      rw [levels] at hdepth
      obtain ⟨depth, rfl⟩ := Nat.exists_eq_add_one.mpr (show 0 < depth by omega)
      rw [expr, exprItems_eq]
      refine (trails_list fun e he => ?_).heads.leads.completes (by decide)
      obtain ⟨d, hd, rfl⟩ := List.mem_map.mp he
      have hlevels := levels_le_of_mem_items hd
      exact ⟨(hitems d hd).grammatical.phrase, ih d hd (by omega)⟩
  | @tuple items hitems ih =>
      rw [levels] at hdepth
      obtain ⟨depth, rfl⟩ := Nat.exists_eq_add_one.mpr (show 0 < depth by omega)
      rw [expr, exprItems_eq]
      refine (trails_tuple fun e he => ?_).heads.leads.completes (by decide)
      obtain ⟨d, hd, rfl⟩ := List.mem_map.mp he
      have hlevels := levels_le_of_mem_items hd
      exact ⟨(hitems d hd).grammatical.phrase, ih d hd (by omega)⟩
  | @dict entries _ hentries ih =>
      rw [levels] at hdepth
      obtain ⟨depth, rfl⟩ := Nat.exists_eq_add_of_le' (show 2 ≤ depth by omega)
      rw [expr, exprEntries_eq]
      refine (trails_dict (fun entry hentry => ?_)
        fun entry hentry => ?_).heads.leads.completes (by decide)
      · obtain ⟨source, hsource, rfl⟩ := List.mem_map.mp hentry
        exact ⟨phrase_constant trivial, completes_constant trivial⟩
      · obtain ⟨source, hsource, rfl⟩ := List.mem_map.mp hentry
        have hlevels := levels_le_of_mem_entries hsource
        exact ⟨(hentries source hsource).grammatical.phrase, ih source hsource (by omega)⟩

end Reading

section Evaluation

variable {ω : Type} {host : Host ω}

/-- An expression has a value that holds data, wherever a page does not take the name of ranges. Only
the heap changes, and it grows. -/
def Evaluates (host : Host ω) (e : Expr) (d : Datum) : Prop :=
  ∀ s : State ω, s.scope.resolve? "range".toList = Option.none → ∃ v heap,
    e.eval host s = .ok v { s with heap := heap } ∧ s.heap.Extends heap ∧ heap.Holds v d

theorem eval_constant (c : Constant) (s : State ω) :
    (Expr.constant c).eval host s = .ok c.value s := by
  rw [Expr.eval]
  rfl

theorem eval_intExpr {n : Int} (hn : Mirrored n) (s : State ω) :
    (intExpr n).eval host s = .ok (.int n) s := by
  have hfits : Word.Fits n := ⟨Int.le_of_lt hn.1, hn.2⟩
  unfold intExpr
  split
  · have hneg : Operator.unary .neg (.int (-n)) = .ok (.int n) := by
      show Number.checked (- -n) = _
      rw [Int.neg_neg, Number.checked, Word.checked?, if_pos hfits]
    rw [Expr.eval, Run.bind_ok (eval_constant _ s)]
    show Run.effect (Effect.ofExcept (Operator.unary .neg (.int (-n)))) s = _
    rw [hneg]
    rfl
  · exact eval_constant _ s

theorem evalAll_ints {ns : List Int} (hns : ∀ n ∈ ns, Mirrored n) (s : State ω) :
    evalAll host (ns.map intExpr) s = .ok (ns.map .int) s := by
  induction ns with
  | nil => rfl
  | cons n ns ih =>
      rw [List.map_cons, evalAll, Run.bind_ok (eval_intExpr (hns n List.mem_cons_self) s),
        Run.bind_ok (ih fun m hm => hns m (List.mem_cons_of_mem n hm))]
      rfl

theorem rangeOf_rangeArguments {r : Range} (hstep : r.step ≠ 0) :
    Builtin.rangeOf ⟨(rangeArguments r).map .int, []⟩ = .ok r := by
  unfold rangeArguments
  split
  · rename_i hone
    show Except.ok (Range.mk r.start r.stop 1) = _
    rw [← hone]
  · show (if r.step = 0 then throw Cause.zeroStep else pure r : Except Cause Range) = _
    rw [if_neg hstep]
    rfl

theorem evaluates_range {r : Range} (h : Plain (.range r)) :
    Evaluates host (Datum.range r).expr (.range r) := by
  intro s hname
  have hstep : r.step ≠ 0 := by
    cases h with
    | range _ _ _ hstep => exact hstep
  have hcallee : (Expr.name "range".toList).eval host s = .ok (.function (.builtin .range)) s := by
    rw [Printing.eval_name, Run.lookup_builtin hname (by decide)]
    rfl
  have harguments : evalAll host ((rangeArguments r).map intExpr) s = .ok _ s :=
    evalAll_ints (fun n hn => mirrored_of_mem_rangeArguments h hn) s
  have hcall : Builtin.range.call ⟨(rangeArguments r).map .int, []⟩ = fun heap =>
      .ok (.range r, heap) := by
    show (do return Value.range (← Effect.ofExcept (Builtin.rangeOf _)) : Effect Value) = _
    rw [rangeOf_rangeArguments hstep]
    rfl
  have heval : (Datum.range r).expr.eval host s = .ok (.range r) s := by
    rw [expr, Expr.eval, Run.bind_ok hcallee, Run.bind_ok harguments]
    show Run.effect (Builtin.range.call _) s = _
    rw [hcall]
    rfl
  exact ⟨_, s.heap, heval, .refl _, .intro rfl rfl fun _ hpair => by cases hpair⟩

/-- Items are evaluated one after the other, and each keeps its data while the heap grows. -/
theorem evalAll_items {items : List Datum} (h : ∀ d ∈ items, Evaluates host d.expr d) (s : State ω)
    (hname : s.scope.resolve? "range".toList = Option.none) : ∃ vs heap,
      evalAll host (exprItems items) s = .ok vs { s with heap := heap } ∧ s.heap.Extends heap ∧
        heap.HoldsAll vs items := by
  induction items generalizing s with
  | nil => exact ⟨[], s.heap, rfl, .refl _, Heap.holdsAll_nil⟩
  | cons d items ih =>
      obtain ⟨v, heap, hv, hgrown, hholds⟩ := h d List.mem_cons_self s hname
      obtain ⟨vs, heap', hvs, hgrown', hholds'⟩ :=
        ih (fun e he => h e (List.mem_cons_of_mem d he)) { s with heap := heap } hname
      refine ⟨v :: vs, heap', ?_, hgrown.trans hgrown', .cons (hholds.extends hgrown') hholds'⟩
      rw [exprItems, evalAll, Run.bind_ok hv, Run.bind_ok hvs]
      rfl

theorem put_of_not_mem {name : Text} {v : Value} {known : Entries Value}
    (h : name ∉ known.map Prod.fst) : Entries.put name v known = known ++ [(name, v)] := by
  induction known with
  | nil => rfl
  | cons entry known ih =>
      have hne := List.ne_of_not_mem_cons h
      rw [Entries.put, if_neg hne.symm, ih (List.not_mem_of_not_mem_cons h)]
      rfl

/-- The entries of a dict are put behind those there are, in order. -/
theorem evalEntries_entries {entries : List (Text × Datum)} {known : Entries Value}
    (h : ∀ entry ∈ entries, Evaluates host entry.2.expr entry.2)
    (hnames : (known.map Prod.fst ++ entries.map Prod.fst).Nodup) (s : State ω)
    (hname : s.scope.resolve? "range".toList = Option.none) : ∃ more heap,
      evalEntries host known (exprEntries entries) s =
          .ok (known ++ more) { s with heap := heap } ∧
        s.heap.Extends heap ∧ more.map Prod.fst = entries.map Prod.fst ∧
          heap.HoldsAll (more.map Prod.snd) (entries.map Prod.snd) := by
  induction entries generalizing known s with
  | nil =>
      refine ⟨[], s.heap, ?_, .refl _, rfl, Heap.holdsAll_nil⟩
      rw [List.append_nil]
      rfl
  | cons entry entries ih =>
      obtain ⟨name, d⟩ := entry
      obtain ⟨v, heap, hv, hgrown, hholds⟩ := h _ List.mem_cons_self s hname
      have hfresh : name ∉ known.map Prod.fst := by
        rw [List.nodup_append] at hnames
        exact fun hmem => hnames.2.2 name hmem name List.mem_cons_self rfl
      have hnames' : ((known ++ [(name, v)]).map Prod.fst ++ entries.map Prod.fst).Nodup := by
        rw [List.map_append, List.append_assoc]
        exact hnames
      obtain ⟨more, heap', hmore, hgrown', hsame, hholds'⟩ :=
        ih (fun e he => h e (List.mem_cons_of_mem _ he)) hnames' { s with heap := heap } hname
      refine ⟨(name, v) :: more, heap', ?_, hgrown.trans hgrown', congrArg (name :: ·) hsame,
        .cons (hholds.extends hgrown') hholds'⟩
      have hkey : Run.effect (Effect.ofExcept (Subscript.key (.str name))) s = .ok name s := rfl
      rw [exprEntries, evalEntries, Run.bind_ok (eval_constant _ s), Constant.value,
        Run.bind_ok hkey, Run.bind_ok hv, put_of_not_mem hfresh, hmore, List.append_assoc]
      rfl

/-- The expression for data has a value that holds the data. -/
theorem Plain.evaluates {d : Datum} (h : d.Plain) : Evaluates host d.expr d := by
  induction h with
  | none | bool | str =>
      exact fun s _ => ⟨_, s.heap, eval_constant _ s, .refl _,
        .intro (by trivial) rfl fun _ hpair => nomatch hpair⟩
  | int hn =>
      exact fun s _ => ⟨_, s.heap, eval_intExpr hn s, .refl _,
        .intro rfl rfl fun _ hpair => nomatch hpair⟩
  | range hstart hstop hstep hzero => exact evaluates_range (.range hstart hstop hstep hzero)
  | list _ ih =>
      intro s hname
      obtain ⟨vs, heap, hvs, hgrown, hholds⟩ := evalAll_items ih s hname
      refine ⟨_, _, ?_, hgrown.trans (heap.extends_newList vs), hholds.newList⟩
      rw [expr, Expr.eval, Run.bind_ok hvs]
      rfl
  | tuple _ ih =>
      intro s hname
      obtain ⟨vs, heap, hvs, hgrown, hholds⟩ := evalAll_items ih s hname
      refine ⟨_, _, ?_, hgrown.trans (heap.extends_newTuple vs), hholds.newTuple⟩
      rw [expr, Expr.eval, Run.bind_ok hvs]
      rfl
  | dict hnodup _ ih =>
      intro s hname
      have hfresh : (([] : Entries Value).map Prod.fst ++ _).Nodup := hnodup
      obtain ⟨more, heap, hmore, hgrown, hnames, hholds⟩ := evalEntries_entries ih hfresh s hname
      refine ⟨_, _, ?_, hgrown.trans (heap.extends_newDict more), hholds.newDict hnames⟩
      rw [expr, Expr.eval, Run.bind_ok hmore]
      rfl

end Evaluation

end Datum

/-- A quoted text is one token that stands for the text. -/
theorem tokenize_quoted (t : Text) : ∃ s s' s'',
    tokenize (Quoted.encode t) = .ok [⟨.string t, s⟩, ⟨.newline, s'⟩, ⟨.endOfInput, s''⟩] := by
  have hcode : Code (Expr.constant (.str t)).print := (Datum.Plain.str (t := t)).grammatical.phrase.code
  obtain ⟨us, s', s'', hus, htokens⟩ := lexed_code hcode
  obtain ⟨s, rfl⟩ := Spells.single (l := .quoted t) hus rfl
  have hline : line (Expr.constant (.str t)).print = Quoted.encode t := List.append_nil _
  rw [hline] at htokens
  exact ⟨s, s', s'', htokens⟩

/-- The written form of a value that holds data reads back, if the data does not nest too deep: it is
parsed as an expression which has, on any page without variables, a value that holds the same data
and is written in the same way. A quoted text on its own is one token that stands for the text. -/
theorem Heap.repr_rereads {h : Heap} {v : Value} {d : Datum} (hv : h.Holds v d) (hd : d.Plain)
    (hlevels : d.levels ≤ 90) :
    (∃ e, parseExpression (h.repr v) = .ok e ∧
      ∀ {ω : Type} (host : Host ω) (filter : Option Filter) (shared : Shared ω), ∃ v' s',
        e.eval host (Program.begin ⟨[], filter⟩ [] shared) = .ok v' s' ∧
          s'.heap.Holds v' d ∧ s'.heap.repr v' = h.repr v) ∧
    ∀ t : Text, ∃ s s' s'',
      tokenize (Quoted.encode t) = .ok [⟨.string t, s⟩, ⟨.newline, s'⟩, ⟨.endOfInput, s''⟩] := by
  have hdepth : d.levels + 3 ≤ maxExprDepth := by
    unfold maxExprDepth
    omega
  have hparsed : parseExpression (h.repr v) = .ok d.expr := by
    rw [hv.repr_eq hd]
    exact parseExpression_of_completes hd.grammatical.phrase.code (hd.completes hdepth)
  refine ⟨⟨d.expr, hparsed, fun host filter shared => ?_⟩, tokenize_quoted⟩
  have hevaluates : Datum.Evaluates host d.expr d := hd.evaluates
  obtain ⟨v', heap, hvalue, -, hholds⟩ :=
    hevaluates (Program.begin ⟨[], filter⟩ [] shared) rfl
  exact ⟨v', _, hvalue, hholds, (hholds.repr_eq hd).trans (hv.repr_eq hd).symm⟩

/-- A list of a negative number and a tuple of one dict, which has a text with both quotes and a line
break in it, and a range. -/
def nestedHeap : Heap where
  lists := #[[.int (-3), .tuple 0]]
  tuples := #[[.dict 0]]
  dicts := #[[("a b".toList, .str "'\"\n".toList), ("".toList, .range ⟨1, -5, -2⟩)]]
  identities := 0

/-- What that list holds. -/
def nestedDatum : Datum :=
  .list [.int (-3), .tuple [.dict [("a b".toList, .str "'\"\n".toList),
    ("".toList, .range ⟨1, -5, -2⟩)]]]

theorem repr_nestedHeap : nestedHeap.repr (.list 0) =
    "[-3, (\x7b'a b': '\\'\"\\n', '': range(1, -5, -2)\x7d,)]".toList := by
  decide

theorem repr_rereads_nested : ∃ e,
    parseExpression "[-3, (\x7b'a b': '\\'\"\\n', '': range(1, -5, -2)\x7d,)]".toList = .ok e ∧
      ∃ v' s', e.eval Host.absent (Program.begin ⟨[], none⟩ [] ⟨nestedHeap, ()⟩) = .ok v' s' ∧
        s'.heap.Holds v' nestedDatum := by
  have hdict : nestedHeap.Holds (.dict 0) (.dict [("a b".toList, .str "'\"\n".toList),
      ("".toList, .range ⟨1, -5, -2⟩)]) :=
    Heap.holds_iff.mpr ⟨⟨by decide, rfl⟩, .cons (.intro rfl rfl fun _ h => nomatch h)
      (.cons (.intro rfl rfl fun _ h => nomatch h) Heap.holdsAll_nil)⟩
  have htuple : nestedHeap.Holds (.tuple 0) (.tuple [.dict [("a b".toList, .str "'\"\n".toList),
      ("".toList, .range ⟨1, -5, -2⟩)]]) :=
    Heap.holds_iff.mpr ⟨(by decide : 0 < 1), .cons hdict Heap.holdsAll_nil⟩
  have hholds : nestedHeap.Holds (.list 0) nestedDatum :=
    Heap.holds_iff.mpr ⟨(by decide : 0 < 1), .cons (.intro rfl rfl fun _ h => nomatch h)
      (.cons htuple Heap.holdsAll_nil)⟩
  have hrange : (Datum.range ⟨1, -5, -2⟩).Plain :=
    .range ⟨by decide, by decide⟩ ⟨by decide, by decide⟩ ⟨by decide, by decide⟩ (by decide)
  have hplain : nestedDatum.Plain := by
    refine .list (List.forall_mem_cons.mpr ⟨.int ⟨by decide, by decide⟩,
      List.forall_mem_singleton.mpr (.tuple (List.forall_mem_singleton.mpr
        (.dict (by decide) (List.forall_mem_cons.mpr ⟨.str, ?_⟩))))⟩)
    exact List.forall_mem_singleton.mpr hrange
  obtain ⟨⟨e, hparsed, hvalue⟩, -⟩ := Heap.repr_rereads hholds hplain (by decide)
  rw [repr_nestedHeap] at hparsed
  obtain ⟨v', s', heval, hheld, -⟩ := hvalue Host.absent none ⟨nestedHeap, ()⟩
  exact ⟨e, hparsed, v', s', heval, hheld⟩

end TemplateEngine
