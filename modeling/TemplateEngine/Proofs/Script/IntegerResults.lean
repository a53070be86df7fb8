import TemplateEngine.Proofs.Script.Arithmetic
import TemplateEngine.Proofs.Script.Printing

/-!
# Exact results of integers

One operator gives the integer of mathematics or an overflow. So does a calculation of
many operators, and so does a sum: they have the result of mathematics if every result
on the way is a machine integer, and overflow if one is not. Numbered items have the
numbers from a start on, each as far as it is a machine integer; past the greatest one
the numbers go on at the least, without an overflow.
-/
namespace TemplateEngine

/-- What is computed from integers on a heap: a value that counts as the result if all results on
the way are machine integers, and an overflow if one is not. -/
structure ComputesAll (x : Except Cause (Value × Heap)) (h : Heap) (onWay : List Int) (n : Int) :
    Prop where
  exact : (∀ m ∈ onWay, Word.Fits m) → ∃ v, x = .ok (v, h) ∧ v.integer? = some n
  overflow : (∃ m ∈ onWay, ¬ Word.Fits m) → Raises .overflowError x

namespace Builtin

variable {h : Heap} {v : Value} {n : Int} {items : List Value} {ns : List Int} {args : Arguments}

/-- Values that count as integers. -/
abbrev Integers (items : List Value) (ns : List Int) : Prop :=
  List.Forall₂ (fun v n => v.integer? = some n) items ns

/-- The sums on the way when integers are added to a number one after the other. -/
def partialSums : Int → List Int → List Int
  | _, [] => []
  | m, n :: ns => (m + n) :: partialSums (m + n) ns

/-- Adding items to a number is exact if all sums on the way are. -/
theorem computes_total (hv : v.integer? = some n) (hitems : Integers items ns) :
    ComputesAll (total v items h) h (partialSums n ns) (ns.foldl (· + ·) n) := by
  induction hitems generalizing v n with
  | nil => exact ⟨fun _ => ⟨v, rfl, hv⟩, fun ⟨m, hm, _⟩ => nomatch hm⟩
  | @cons item m items ns hitem _ ih =>
      have hadd : (Operator.binary .add v item).Computes h (n + m) :=
        Operator.computes_binary .add hv hitem h
      constructor
      · intro hfit
        rw [partialSums, List.forall_mem_cons] at hfit
        rw [total, Effect.bind_ok (hadd.exact hfit.1)]
        exact (ih (v := .int (n + m)) rfl).exact hfit.2
      · rintro ⟨m', hm', hfit⟩
        rw [total]
        by_cases hfirst : Word.Fits (n + m)
        · rcases List.mem_cons.mp hm' with rfl | hrest
          · exact absurd hfirst hfit
          · rw [Effect.bind_ok (hadd.exact hfirst)]
            exact (ih (v := .int (n + m)) rfl).overflow ⟨m', hrest, hfit⟩
        · obtain ⟨cause, hcause, hkind⟩ := hadd.overflow hfirst
          exact ⟨cause, Effect.bind_error hcause, hkind⟩

/-- The number that a sum or a numbering starts from. -/
def startOf (args : Arguments) : Value := (args.named? "start" 1).getD (.int 0)

/-- A sum of integers is exact if all sums on the way are machine integers, and overflows if one is
not. -/
theorem computes_sum (hargs : args.check "sum" 1 (some 2) ["start".toList] = .ok ())
    (hstart : (startOf args).integer? = some n)
    (hiterate : h.iterate ((args.at? 0).getD .none) = .ok items) (hitems : Integers items ns) :
    ComputesAll (call .sum args h) h (partialSums n ns) (ns.foldl (· + ·) n) := by
  have hnoText : (startOf args).text?.isSome = false := by
    cases hs : startOf args <;> rw [hs] at hstart <;> first | rfl | cases hstart
  have hsum : call .sum args h = total (startOf args) items h := by
    change sumOf args h = _
    unfold sumOf
    rw [Effect.bind_ok (Effect.ofExcept_eq_ok hargs)]
    have hskip {x y : Effect Value} :
        (if (startOf args).text?.isSome = true then x else y) = y := by
      rw [hnoText]
      rfl
    exact (congrFun hskip h).trans (Effect.bind_ok (Effect.checking_ok hiterate))
  rw [hsum]
  exact computes_total hstart hitems

theorem computes_abs (h : Heap) (n : Int) :
    (call .abs ⟨[.int n], []⟩).Computes h n.natAbs :=
  Effect.computes_checked h n.natAbs

/-- Items paired with the numbers from a start on. What does not fit a machine integer is wrapped,
and only that. -/
structure Numbered (h : Heap) (start : Int) (items pairs : List Value) : Prop where
  length : pairs.length = items.length
  pair : ∀ (k : Nat) (v : Value), items[k]? = some v → ∃ t, pairs[k]? = some (.tuple t) ∧
    h.has (.tuple t) ∧ h.tuple t = [.int (Word.wrap (start + k)), v]

theorem Numbered.extends {h' : Heap} {pairs : List Value} (hpairs : Numbered h n items pairs)
    (hext : h.Extends h') : Numbered h' n items pairs where
  length := hpairs.length
  pair k v hv := by
    obtain ⟨t, ht, hplace, hpair⟩ := hpairs.pair k v hv
    have hagrees : h'.tuple t = h.tuple t := hext.agrees _ hplace
    exact ⟨t, ht, hext.has _ hplace, hagrees.trans hpair⟩

theorem numbered_ok (hn : Word.Fits n) (items : List Value) (h : Heap) :
    ∃ pairs h', numbered n items h = .ok (pairs, h') ∧ h.Extends h' ∧
      Numbered h' n items pairs := by
  induction items generalizing n h with
  | nil => exact ⟨[], h, rfl, .refl h, rfl, nofun⟩
  | cons item items ih =>
      have hnew := h.extends_newTuple [.int n, item]
      obtain ⟨pairs, h', hrest, hext, hnumbered⟩ := ih (Word.fits_wrap (n + 1))
        { h with tuples := h.tuples.push [.int n, item] }
      have hplace : Heap.has { h with tuples := h.tuples.push [.int n, item] }
          (.tuple h.tuples.size) := by simp [Heap.has]
      refine ⟨.tuple h.tuples.size :: pairs, h', ?_, hnew.trans hext,
        congrArg (· + 1) hnumbered.length, ?_⟩
      · rw [numbered, Effect.bind_ok rfl, Effect.bind_ok hrest]
        rfl
      · intro k v hv
        cases k with
        | zero =>
            cases hv
            have hpair : h'.tuple h.tuples.size = [.int n, item] :=
              (hext.agrees _ hplace).trans (Heap.getD_push_self _)
            exact ⟨h.tuples.size, rfl, hext.has _ hplace, by
              rw [hpair, Int.ofNat_zero, Int.add_zero, Word.wrap_of_fits hn]⟩
        | succ k =>
            obtain ⟨t, ht, hplace, hpair⟩ := hnumbered.pair k v hv
            refine ⟨t, ht, hplace, ?_⟩
            rw [hpair, Word.wrap_wrap_add, Int.add_assoc, Int.add_comm 1]
            rfl

/-- Numbering always succeeds. -/
theorem enumerate_ok (hargs : args.check "enumerate" 1 (some 2) ["start".toList] = .ok ())
    (hstart : (startOf args).integer? = some n) (hn : Word.Fits n)
    (hiterate : h.iterate ((args.at? 0).getD .none) = .ok items) :
    ∃ p h', call .enumerate args h = .ok (.list p, h') ∧ h.Extends h' ∧
      Numbered h' n items (h'.list p) := by
  obtain ⟨pairs, h', hnumbered, hext, hpairs⟩ := numbered_ok hn items h
  have hnew := h'.extends_newList pairs
  refine ⟨h'.lists.size, { h' with lists := h'.lists.push pairs }, ?_, hext.trans hnew, ?_⟩
  · change enumerateOf args h = _
    unfold enumerateOf
    rw [Effect.bind_ok (Effect.ofExcept_eq_ok hargs)]
    have hmade : (do
        let items ← Effect.checking fun h => h.iterate ((args.at? 0).getD .none)
        Effect.newList (← numbered n items) : Effect Value) h = _ :=
      (Effect.bind_ok (Effect.checking_ok hiterate)).trans (Effect.bind_ok hnumbered)
    unfold startOf at hstart
    cases hnamed : args.named? "start" 1 with
    | none =>
        rw [hnamed] at hstart
        cases hstart
        exact hmade
    | some v =>
        rw [hnamed] at hstart
        have hinteger : integerArgument "enumerate" v = .ok n := by
          have hv : v.integer? = some n := hstart
          unfold integerArgument
          rw [hv]
        exact (Effect.bind_ok (Effect.ofExcept_eq_ok hinteger)).trans hmade
  · have hlist : Heap.list { h' with lists := h'.lists.push pairs } h'.lists.size = pairs :=
      Heap.getD_push_self pairs
    rw [hlist]
    exact hpairs.extends hnew

end Builtin

namespace Run

variable {ω : Type} {s : State ω} {ms ns : List Int} {m n : Int}

/-- A run that computes from integers and leaves the state alone. -/
structure ComputesAll (x : Run ω Value) (s : State ω) (onWay : List Int) (n : Int) : Prop where
  exact : (∀ m ∈ onWay, Word.Fits m) → ∃ v, x s = .ok v s ∧ v.integer? = some n
  overflow : (∃ m ∈ onWay, ¬ Word.Fits m) →
    ∃ r, x s = .error (.raised r) s ∧ r.cause.kind = .overflowError

theorem computesAll_effect {x : Effect Value} (hx : x.Computes s.heap n) :
    ComputesAll (effect x) s [n] n := by
  constructor
  · intro hfit
    exact ⟨.int n, effect_of_ok (hx.exact (hfit n (List.mem_singleton_self n))), rfl⟩
  · rintro ⟨m, hm, hfit⟩
    rw [List.mem_singleton.mp hm] at hfit
    obtain ⟨cause, hcause, hkind⟩ := hx.overflow hfit
    exact ⟨⟨cause, 0⟩, effect_of_error hcause, hkind⟩

/-- An integer that is computed first is on the way to what is computed from it. -/
theorem ComputesAll.bind {x : Run ω Value} {f : Value → Run ω Value} (hx : ComputesAll x s ms m)
    (hf : ∀ v, v.integer? = some m → ComputesAll (f v) s ns n) :
    ComputesAll (x >>= f) s (ms ++ ns) n := by
  constructor
  · intro hfit
    rw [List.forall_mem_append] at hfit
    obtain ⟨v, hv, hinteger⟩ := hx.exact hfit.1
    obtain ⟨w, hw, hresult⟩ := (hf v hinteger).exact hfit.2
    exact ⟨w, (bind_ok hv).trans hw, hresult⟩
  · rintro ⟨k, hk, hfit⟩
    by_cases hfits : ∀ m ∈ ms, Word.Fits m
    · obtain ⟨v, hv, hinteger⟩ := hx.exact hfits
      have hrest : k ∈ ns := (List.mem_append.mp hk).resolve_left fun hms => hfit (hfits k hms)
      obtain ⟨r, hr, hkind⟩ := (hf v hinteger).overflow ⟨k, hrest, hfit⟩
      exact ⟨r, (bind_ok hv).trans hr, hkind⟩
    · push Not at hfits
      obtain ⟨r, hr, hkind⟩ := hx.overflow hfits
      exact ⟨r, bind_error f hr, hkind⟩

end Run

/-- A calculation: expressions for integers, put together by operators. -/
inductive Calculation where
  | operand (e : Expr) (n : Int)
  | negation (x : Calculation)
  | combination (op : RingOp) (x y : Calculation)

namespace Calculation

/-- The expression of a calculation. -/
def expr : Calculation → Expr
  | operand e _ => e
  | negation x => .unary .neg x.expr
  | combination op x y => .binary op.operator x.expr y.expr

/-- The result in the integers. -/
def value : Calculation → Int
  | operand _ n => n
  | negation x => -x.value
  | combination op x y => op.apply x.value y.value

/-- The results of all operators. -/
def results : Calculation → List Int
  | operand _ _ => []
  | negation x => x.results ++ [-x.value]
  | combination op x y => x.results ++ (y.results ++ [op.apply x.value y.value])

/-- Every operand is worth its integer and changes nothing. -/
def Given {ω : Type} (host : Host ω) (s : State ω) : Calculation → Prop
  | operand e n => ∃ v, e.eval host s = .ok v s ∧ v.integer? = some n
  | negation x => x.Given host s
  | combination _ x y => x.Given host s ∧ y.Given host s

theorem computes_expr {ω : Type} {host : Host ω} {s : State ω} {c : Calculation}
    (hgiven : c.Given host s) : Run.ComputesAll (c.expr.eval host) s c.results c.value := by
  induction c with
  | operand e n => exact ⟨fun _ => hgiven, fun ⟨_, hm, _⟩ => nomatch hm⟩
  | negation x ih =>
      exact (ih hgiven).bind fun v hv => Run.computesAll_effect (Operator.computes_neg hv s.heap)
  | combination op x y ihx ihy =>
      exact (ihx hgiven.1).bind fun v hv => (ihy hgiven.2).bind fun w hw =>
        Run.computesAll_effect (Operator.computes_binary op hv hw s.heap)

end Calculation

namespace Builtin

/-- Integers of scripts are exact or overflow: what one operator gives, what a calculation and a sum
give, and absolute values. Numbered items are exact as far as their numbers are machine integers. -/
theorem integers_exact (h : Heap) :
    (∀ (op : RingOp) (v w : Value) (m n : Int), v.integer? = some m → w.integer? = some n →
      (Operator.binary op.operator v w).Computes h (op.apply m n)) ∧
    (∀ (v : Value) (n : Int), v.integer? = some n →
      (Effect.ofExcept (Operator.unary .neg v)).Computes h (-n)) ∧
    (∀ n : Int, (call .abs ⟨[.int n], []⟩).Computes h n.natAbs) ∧
    (∀ (args : Arguments) (items : List Value) (n : Int) (ns : List Int),
      args.check "sum" 1 (some 2) ["start".toList] = .ok () →
      (startOf args).integer? = some n →
      h.iterate ((args.at? 0).getD .none) = .ok items → Integers items ns →
      ComputesAll (call .sum args h) h (partialSums n ns) (ns.foldl (· + ·) n)) ∧
    (∀ (args : Arguments) (items : List Value) (n : Int),
      args.check "enumerate" 1 (some 2) ["start".toList] = .ok () →
      (startOf args).integer? = some n → Word.Fits n →
      h.iterate ((args.at? 0).getD .none) = .ok items →
      ∃ p h', call .enumerate args h = .ok (.list p, h') ∧ h.Extends h' ∧
        (h'.list p).length = items.length ∧
        ∀ (k : Nat) (v : Value), items[k]? = some v → Word.Fits (n + k) →
          ∃ t, (h'.list p)[k]? = some (.tuple t) ∧ h'.tuple t = [.int (n + k), v]) ∧
    (∀ (ω : Type) (host : Host ω) (s : State ω) (c : Calculation), c.Given host s →
      Run.ComputesAll (c.expr.eval host) s c.results c.value) := by
  refine ⟨fun op v w m n hv hw => Operator.computes_binary op hv hw h,
    fun v n hv => Operator.computes_neg hv h, computes_abs h,
    fun args items n ns => computes_sum, ?_, fun ω host s c => Calculation.computes_expr⟩
  intro args items n hargs hstart hn hiterate
  obtain ⟨p, h', hcall, hext, hnumbered⟩ := enumerate_ok hargs hstart hn hiterate
  refine ⟨p, h', hcall, hext, hnumbered.length, fun k v hv hfit => ?_⟩
  obtain ⟨t, ht, -, hpair⟩ := hnumbered.pair k v hv
  rw [Word.wrap_of_fits hfit] at hpair
  exact ⟨t, ht, hpair⟩

/-- A list of integers on a heap. -/
def heapOf (ns : List Int) : Heap := { Heap.empty with lists := #[ns.map .int] }

/-- The same integers in two orders: one sum is exact and the other overflows. The greatest number is
given to an item. -/
theorem integers_exact_greatest :
    (∃ v, call .sum ⟨[.list 0], []⟩ (heapOf [Word.greatest, -1, 1]) =
      .ok (v, heapOf [Word.greatest, -1, 1]) ∧ v.integer? = some Word.greatest) ∧
    Raises .overflowError (call .sum ⟨[.list 0], []⟩ (heapOf [Word.greatest, 1, -1])) ∧
    ∃ p t h', call .enumerate ⟨[.list 0, .int Word.greatest], []⟩ (heapOf [1]) = .ok (.list p, h') ∧
      (h'.list p)[0]? = some (.tuple t) ∧ h'.tuple t = [.int Word.greatest, .int 1] := by
  have hintegers (m n k : Int) : Integers [.int m, .int n, .int k] [m, n, k] :=
    .cons rfl (.cons rfl (.cons rfl .nil))
  obtain ⟨-, -, -, hexact, -⟩ := integers_exact (heapOf [Word.greatest, -1, 1])
  obtain ⟨-, -, -, hoverflow, -⟩ := integers_exact (heapOf [Word.greatest, 1, -1])
  obtain ⟨-, -, -, -, hnumbers, -⟩ := integers_exact (heapOf [1])
  have hexact := hexact ⟨[.list 0], []⟩ _ 0 _ rfl rfl rfl (hintegers _ _ _)
  have hoverflow := hoverflow ⟨[.list 0], []⟩ _ 0 _ rfl rfl rfl (hintegers _ _ _)
  obtain ⟨p, h', hcall, -, -, hnumber⟩ :=
    hnumbers ⟨[.list 0, .int Word.greatest], []⟩ _ _ rfl rfl (by decide) rfl
  obtain ⟨t, ht, hpair⟩ := hnumber 0 _ rfl (by decide)
  exact ⟨hexact.exact (by decide), hoverflow.overflow (by decide), p, t, h', hcall, ht, hpair⟩

/-- Past the greatest integer the numbers go on at the least one. -/
theorem enumerate_wraps :
    ¬ Word.Fits (Word.greatest + 1) ∧
    call .enumerate ⟨[.list 0, .int Word.greatest], []⟩ (heapOf [1, 2]) =
      .ok (.list 1, { heapOf [1, 2] with
        lists := #[[.int 1, .int 2], [.tuple 0, .tuple 1]]
        tuples := #[[.int Word.greatest, .int 1], [.int Word.least, .int 2]] }) ∧
    ¬ Raises .overflowError
      (call .enumerate ⟨[.list 0, .int Word.greatest], []⟩ (heapOf [1, 2])) :=
  ⟨by decide, rfl, not_raises_ok⟩

end Builtin
end TemplateEngine
