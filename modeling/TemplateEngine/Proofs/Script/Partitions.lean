import TemplateEngine.Proofs.Script.Printing
import TemplateEngine.Proofs.Script.Subscripts

/-!
# Sequences cut into slices

A script cuts a sequence at a bound, or at two, and joins what comes out. Each slice
is a piece of the sequence on a heap that may have grown, and neighbouring pieces
join to the piece from where the first one starts to where the last one stops. So the
whole has the parts of the sequence again, and is equal to it if each part is equal to
itself; a double that is no number is the part that is not.
-/
namespace TemplateEngine

namespace Expr

variable {ω : Type}

/-- An expression that is worth a value, whatever is on the heap, and changes nothing. -/
def Worth (host : Host ω) (scope : Scope) (e : Expr) (v : Value) : Prop :=
  ∀ s : State ω, s.scope = scope → e.eval host s = .ok v s

/-- A bound of a slice that is worth an integer, or one that is absent. -/
def BoundWorth (host : Host ω) (scope : Scope) (e : Option Expr) (i : Option Int) : Prop :=
  ∀ s : State ω, s.scope = scope → evalBound host e s = .ok (i.map .int) s

variable {host : Host ω} {scope : Scope}

theorem worth_name {name : Text} {v : Value} (hname : scope.resolve? name = some v) :
    Worth host scope (.name name) v := by
  rintro s rfl
  rw [Printing.eval_name, Run.lookup_resolved hname]

theorem worth_constant (c : Constant) : Worth host scope (.constant c) c.value := fun _ _ => rfl

theorem boundWorth_none : BoundWorth host scope none none := fun _ _ => rfl

theorem Worth.bound {e : Expr} {i : Int} (he : Worth host scope e (.int i)) :
    BoundWorth host scope (some e) (some i) := by
  intro s hs
  rw [evalBound, Run.bind_ok (he s hs)]
  rfl

/-- A sequence cut at one place and joined again. -/
def cutOnce (sequence i : Expr) : Expr :=
  .binary .add (.slice sequence none (some i)) (.slice sequence (some i) none)

/-- A sequence cut at two places and joined again. -/
def cutTwice (sequence i j : Expr) : Expr :=
  .binary .add (.binary .add (.slice sequence none (some i)) (.slice sequence (some i) (some j)))
    (.slice sequence (some j) none)

section Pieces

open Subscript

variable {h : Heap} {e e' o i' j' : Expr} {v : Value} {items : List Value} {a b c : Nat} {i j : Int}

/-- An expression for a piece of a sequence, made anew on every heap that has grown from one. -/
def Piece (host : Host ω) (scope : Scope) (h : Heap) (v : Value) (items : List Value) (e : Expr)
    (a b : Nat) : Prop :=
  ∀ s : State ω, s.scope = scope → h.Extends s.heap →
    ∃ w h', e.eval host s = .ok w { s with heap := h' } ∧ s.heap.Made h' v w (items.extract a b)

theorem piece_slice {start stop : Option Expr} {i j : Option Int} (ho : Worth host scope o v)
    (hv : h.HasParts v items) (hstart : BoundWorth host scope start i)
    (hstop : BoundWorth host scope stop j) :
    Piece host scope h v items (.slice o start stop) (first items.length i)
      (last items.length i j) := by
  intro s hs hext
  have hbound (i : Option Int) : bound? (i.map .int) = .ok i := by cases i <;> rfl
  obtain ⟨w, h', hslice, hmade⟩ := slice_made _ _ (hv.extends hext) (hbound i) (hbound j)
  refine ⟨w, h', ?_, hmade⟩
  rw [Expr.eval, Run.bind_ok (ho s hs), Run.bind_ok (hstart s hs), Run.bind_ok (hstop s hs)]
  exact Run.effect_of_ok hslice

/-- Neighbouring pieces, joined. -/
theorem Piece.join (he : Piece host scope h v items e a b) (he' : Piece host scope h v items e' b c)
    (hab : a ≤ b) (hbc : b ≤ c) : Piece host scope h v items (.binary .add e e') a c := by
  intro s hs hext
  obtain ⟨w, h₁, hw, hmade⟩ := he s hs hext
  obtain ⟨w', h₂, hw', hmade'⟩ := he' { s with heap := h₁ } hs (hext.trans hmade.grown)
  obtain ⟨u, h₃, hjoin, hu⟩ := Operator.join_made (hmade.kind.symm.trans hmade'.kind)
    (hmade.extends hmade'.grown) hmade'.toHasParts
  rw [extract_append items hab hbc] at hu
  refine ⟨u, h₃, ?_, hu.after (hmade.grown.trans hmade'.grown) hmade.kind⟩
  rw [Expr.eval, Run.bind_ok hw, Run.bind_ok hw']
  exact Run.effect_of_ok hjoin

section Cuts

variable (ho : Worth host scope o v) (hv : h.HasParts v items) (hi : Worth host scope i' (.int i))
  (hj : Worth host scope j' (.int j))

include ho hv hi

theorem piece_front :
    Piece host scope h v items (.slice o none (some i')) 0 (cut items.length i) :=
  last_front items.length i ▸ piece_slice ho hv boundWorth_none hi.bound

theorem piece_back :
    Piece host scope h v items (.slice o (some i') none) (cut items.length i) items.length := by
  have hpiece := piece_slice ho hv hi.bound boundWorth_none
  rwa [last_back] at hpiece

theorem piece_cutOnce : Piece host scope h v items (cutOnce o i') 0 items.length :=
  (piece_front ho hv hi).join (piece_back ho hv hi) (Nat.zero_le _) (cut_le _ i)

include hj

theorem piece_cutTwice (hij : cut items.length i ≤ cut items.length j) :
    Piece host scope h v items (cutTwice o i' j') 0 items.length := by
  have hmiddle := piece_slice ho hv hi.bound hj.bound
  rw [last_middle hij] at hmiddle
  exact ((piece_front ho hv hi).join hmiddle (Nat.zero_le _) hij).join (piece_back ho hv hj)
    (Nat.zero_le _) (cut_le _ j)

end Cuts

/-- A piece from the start to the end is a sequence of the same kind with the same parts. -/
theorem Piece.whole (he : Piece host scope h v items e 0 items.length) {s : State ω}
    (hs : s.scope = scope) (hh : s.heap = h) :
    ∃ w h', e.eval host s = .ok w { s with heap := h' } ∧ h.Made h' v w items := by
  obtain ⟨w, h', hw, hmade⟩ := he s hs (hh ▸ .refl h)
  rw [extract_whole, hh] at hmade
  exact ⟨w, h', hw, hmade⟩

/-- It is equal to the sequence if each part is equal to itself. -/
theorem Piece.eval_eq (he : Piece host scope h v items e 0 items.length)
    (ho : Worth host scope o v) (hv : h.HasParts v items) (hplaced : h.Placed v)
    (hself : ∀ w ∈ items, h.equal w w = true) {s : State ω} (hs : s.scope = scope)
    (hh : s.heap = h) :
    ∃ h', (Expr.compare .eq e o).eval host s = .ok (.bool true) { s with heap := h' } := by
  obtain ⟨w, h', hw, hmade⟩ := he.whole hs hh
  have hequal : h'.equal w v = true := hmade.equal hv hplaced hself
  have hcompare : Run.effect (Effect.checking fun h => Operator.compare h .eq w v)
      { s with heap := h' } = .ok true { s with heap := h' } :=
    Run.effect_of_ok (Effect.checking_ok (congrArg Except.ok hequal))
  refine ⟨h', ?_⟩
  rw [Expr.eval]
  exact (Run.bind_ok hw).trans ((Run.bind_ok (ho { s with heap := h' } hs)).trans (Run.bind_ok hcompare))

/-- A subscript, as a script evaluates it. -/
theorem eval_index (ho : Worth host scope o v) (hv : h.HasParts v items)
    (hi : Worth host scope i' (.int i)) {s : State ω} (hs : s.scope = scope) (hh : s.heap = h) :
    (Meets items.length i → ∃ part, items[counted items.length i]? = some part ∧
      (Expr.index o i').eval host s = .ok part s) ∧
    (¬ Meets items.length i →
      ∃ r, (Expr.index o i').eval host s = .error (.raised r) s ∧ r.kind = .indexError) := by
  have heval : (Expr.index o i').eval host s =
      Run.effect (Effect.checking fun h => get h v (.int i)) s := by
    rw [Expr.eval, Run.bind_ok (ho s hs), Run.bind_ok (hi s hs)]
  obtain ⟨hmeets, hmisses⟩ := get_part hv.parts (v := .int i) rfl
  rw [heval]
  subst hh
  constructor
  · intro hi
    obtain ⟨part, hpart, hget⟩ := hmeets hi
    exact ⟨part, hpart, Run.effect_of_ok (Effect.checking_ok hget)⟩
  · intro hi
    obtain ⟨cause, hget, hkind⟩ := hmisses hi
    exact ⟨⟨cause, 0⟩, Run.effect_of_error (by rw [Effect.checking, hget]; rfl), hkind⟩

/-- Slices partition a sequence, and subscripts count the same parts. What is joined again is equal
to the sequence if each of its parts is equal to itself. -/
theorem slices_partition {s : State ω} (ho : Worth host s.scope o v)
    (hv : s.heap.HasParts v items) :
    (∀ (start stop : Option Expr) (i j : Option Int), BoundWorth host s.scope start i →
      BoundWorth host s.scope stop j →
      ∃ w h', (Expr.slice o start stop).eval host s = .ok w { s with heap := h' } ∧
        s.heap.Made h' v w (items.extract (first items.length i) (last items.length i j))) ∧
    (∀ (i' : Expr) (i : Int), Worth host s.scope i' (.int i) →
      (∃ w h', (cutOnce o i').eval host s = .ok w { s with heap := h' } ∧
        s.heap.Made h' v w items) ∧
      (s.heap.Placed v → (∀ w ∈ items, s.heap.equal w w = true) →
        ∃ h', (Expr.compare .eq (cutOnce o i') o).eval host s =
          .ok (.bool true) { s with heap := h' })) ∧
    (∀ (i' j' : Expr) (i j : Int), Worth host s.scope i' (.int i) →
      Worth host s.scope j' (.int j) → cut items.length i ≤ cut items.length j →
      (∃ w h', (cutTwice o i' j').eval host s = .ok w { s with heap := h' } ∧
        s.heap.Made h' v w items) ∧
      (s.heap.Placed v → (∀ w ∈ items, s.heap.equal w w = true) →
        ∃ h', (Expr.compare .eq (cutTwice o i' j') o).eval host s =
          .ok (.bool true) { s with heap := h' })) ∧
    (∀ (i' : Expr) (i : Int), Worth host s.scope i' (.int i) →
      (Meets items.length i → ∃ part, items[counted items.length i]? = some part ∧
        (Expr.index o i').eval host s = .ok part s) ∧
      (¬ Meets items.length i →
        ∃ r, (Expr.index o i').eval host s = .error (.raised r) s ∧ r.kind = .indexError)) := by
  refine ⟨fun start stop i j hstart hstop => ?_, fun i' i hi => ?_, fun i' j' i j hi hj hij => ?_,
    fun i' i hi => eval_index ho hv hi rfl rfl⟩
  · exact piece_slice ho hv hstart hstop s rfl (.refl s.heap)
  · have hpiece := piece_cutOnce ho hv hi
    exact ⟨hpiece.whole rfl rfl, fun hplaced hself => hpiece.eval_eq ho hv hplaced hself rfl rfl⟩
  · have hpiece := piece_cutTwice ho hv hi hj hij
    exact ⟨hpiece.whole rfl rfl, fun hplaced hself => hpiece.eval_eq ho hv hplaced hself rfl rfl⟩

end Pieces

/-- A list under the name `xs`. -/
def listed (items : List Value) : State Unit where
  heap := ⟨#[items], #[], #[], 0⟩
  world := ()
  scope := ⟨[("xs", .list 0)], [], [], none, 0, #[]⟩

/-- Two items, cut around the last one. -/
theorem slices_partition_pair :
    (∃ h', (Expr.compare .eq (cutOnce (.name "xs") (.constant (.int (-1)))) (.name "xs")).eval
        Host.absent (listed [.int 7, .str "é"]) =
      .ok (.bool true) { listed [.int 7, .str "é"] with heap := h' }) ∧
    (∃ h', (Expr.compare .eq (cutTwice (.name "xs") (.constant (.int (-1))) (.constant (.int 2)))
        (.name "xs")).eval Host.absent (listed [.int 7, .str "é"]) =
      .ok (.bool true) { listed [.int 7, .str "é"] with heap := h' }) ∧
    (Expr.index (.name "xs") (.constant (.int (-1)))).eval Host.absent
        (listed [.int 7, .str "é"]) = .ok (.str "é") (listed [.int 7, .str "é"]) ∧
    ∃ r, (Expr.index (.name "xs") (.constant (.int (-3)))).eval Host.absent
        (listed [.int 7, .str "é"]) = .error (.raised r) (listed [.int 7, .str "é"]) ∧
      r.kind = .indexError := by
  have hv : (listed [.int 7, .str "é"]).heap.HasParts (.list 0) [.int 7, .str "é"] :=
    ⟨Nat.zero_lt_one, rfl⟩
  have hacyclic : (listed [.int 7, .str "é"]).heap.Acyclic (.list 0) := by
    refine .intro hv.place fun v hv => ?_
    have hv : v ∈ [.int 7, .str "é"] := hv
    rcases List.mem_pair.mp hv with rfl | rfl
    · exact .intro trivial nofun
    · exact .intro trivial nofun
  have ho : Worth (Host.absent : Host Unit) (listed [.int 7, .str "é"]).scope (.name "xs")
      (.list 0) := worth_name rfl
  obtain ⟨-, hcut, hcuts, hget⟩ := slices_partition ho hv
  obtain ⟨-, hequal⟩ := hcut _ (-1) (worth_constant (.int (-1)))
  obtain ⟨-, hequals⟩ := hcuts _ _ (-1) 2 (worth_constant (.int (-1))) (worth_constant (.int 2))
    (by decide)
  obtain ⟨part, hpart, hlast⟩ := (hget _ (-1) (worth_constant (.int (-1)))).1
    ⟨by decide, by decide⟩
  cases hpart
  exact ⟨hequal hacyclic.placed (by decide), hequals hacyclic.placed (by decide), hlast,
    (hget _ (-3) (worth_constant (.int (-3)))).2 fun hi => absurd hi.1 (by decide)⟩

/-- A double that is no number, in a list that is cut and joined again: `xs[:0] + xs[0:] == xs`. -/
theorem eval_cutOnce_notANumber :
    ∃ s, (Expr.compare .eq (cutOnce (.name "xs") (.constant (.int 0))) (.name "xs")).eval
      Host.absent (listed [.float Double.notANumber]) = .ok (.bool false) s :=
  ⟨_, rfl⟩

end Expr
end TemplateEngine
