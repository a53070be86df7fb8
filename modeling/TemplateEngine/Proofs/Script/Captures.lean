import TemplateEngine.Proofs.Script.TameEvaluation
import TemplateEngine.Render.Page

/-!
# Output is taken back as it was put down

The output of a block that is diverted into a name is marked by a number of chunks
only. The mark holds because nothing on a tame page takes a chunk away that was there
before: a block adds chunks and a diverted one takes away its own, whether it ends by
running through, by a jump, or by an exception that leaves its chunks where they are.
-/
namespace TemplateEngine

namespace Run

variable {ω α : Type} {base : Heap}

/-- The state that a computation leaves, however it ends. -/
def left (x : Run ω α) (s : State ω) : State ω :=
  match x s with
  | .ok _ s' => s'
  | .error _ s' => s'

theorem Tame.grows {x : Run ω α} {P : α → Prop} (hx : x.Tame base P) {s : State ω}
    (hs : s.Tame base) : s.Grows base (x.left s) := by
  unfold left
  cases hrun : x s with
  | ok a s' => exact (hx.ok hs hrun).1
  | error stop s' => exact hx.error hs hrun

theorem tame_atLine (line : Nat) {x : Run ω α} {P : α → Prop} (hx : x.Tame base P) :
    (atLine line x).Tame base P where
  ok := by
    intro s s' a hs hrun
    unfold atLine at hrun
    split at hrun
    · cases hrun
    · exact hx.ok hs hrun
  error := by
    intro s s' stop hs hrun
    unfold atLine at hrun
    split at hrun
    · rename_i hraised
      cases hrun
      exact hx.error hs hraised
    · exact hx.error hs hrun

theorem tame_attempt {x : Run ω α} {P : α → Prop} (hx : x.Tame base P) :
    (attempt x).Tame base fun _ => True where
  ok := by
    intro s s' outcome hs hrun
    refine ⟨?_, trivial⟩
    unfold attempt at hrun
    split at hrun
    · rename_i hok
      cases hrun
      exact (hx.ok hs hok).1
    · rename_i hraised
      cases hrun
      exact hx.error hs hraised
    · cases hrun
  error := by
    intro s s' stop hs hrun
    unfold attempt at hrun
    split at hrun
    · cases hrun
    · cases hrun
    · rename_i hfuel
      cases hrun
      exact hx.error hs hfuel

theorem tame_settle (outcome : Except Raised α) :
    (settle outcome : Run ω α).Tame base fun _ => True := by
  cases outcome with
  | ok a => exact tame_pure trivial
  | error r => exact tame_throw

theorem tame_overList {step : Value → Run ω Flow} {items : List Value}
    (hitems : ∀ v ∈ items, base.Tame v)
    (hstep : ∀ v, base.Tame v → (step v).Tame base fun _ => True) :
    (overList step items).Tame base fun _ => True := by
  induction items with
  | nil => exact tame_pure trivial
  | cons v items ih =>
      rw [List.forall_mem_cons] at hitems
      unfold overList
      apply Tame.bind (hstep v hitems.1)
      intro flow _
      split
      · exact ih hitems.2
      · exact tame_pure trivial

theorem tame_overRange {step : Value → Run ω Flow}
    (hstep : ∀ v, base.Tame v → (step v).Tame base fun _ => True) (distance : Int) (count : Nat)
    (n : Int) : (overRange step distance count n).Tame base fun _ => True := by
  induction count generalizing n with
  | zero => exact tame_pure trivial
  | succ count ih =>
      unfold overRange
      apply Tame.bind (hstep (.int n) (Heap.tame_plain rfl))
      intro flow _
      split
      · exact ih (n + distance)
      · exact tame_pure trivial

theorem tame_whileHolds {condition : Run ω Bool} {step : Run ω Flow}
    (hcondition : condition.Tame base fun _ => True) (hstep : step.Tame base fun _ => True)
    (fuel : Nat) : (whileHolds condition step fuel).Tame base fun _ => True := by
  induction fuel with
  | zero => exact tame_throw
  | succ fuel ih =>
      unfold whileHolds
      apply Tame.bind hcondition
      intro holds _
      split
      · apply Tame.bind hstep
        intro flow _
        split
        · exact ih
        · exact tame_pure trivial
      · exact tame_pure trivial

theorem tame_unpack (names : List Text) {v : Value} (hv : base.Tame v) :
    (unpack names v : Run ω Unit).Tame base fun _ => True := by
  unfold unpack
  apply Tame.bind (tame_effect (Effect.tame_iterate hv))
  intro items hitems
  split
  · exact tame_fail
  · split
    · exact tame_fail
    · apply tame_change
      · intro scope hscope
        have hpairs : ∀ pair ∈ names.zip items, base.Tame pair.2 := fun pair hpair =>
          hitems pair.2 (List.of_mem_zip hpair).2
        exact List.foldlRecOn _ _ hscope fun scope hscope pair hpair =>
          hscope.assign (hpairs pair hpair) pair.1
      · intro scope
        refine List.foldlRecOn (motive := fun later : Scope => scope.chunks.toList <+: later.chunks.toList) _ _
          List.prefix_rfl ?_
        intro s hs pair _
        exact hs

section Statements

variable (host : Host ω)

theorem tame_bind (target : Target) {v : Value} (hv : base.Tame v) :
    (bind host target v).Tame base fun _ => True := by
  cases target with
  | name name => exact tame_assign name hv
  | index object key =>
      apply Tame.bind (object.tame_eval host base)
      intro container hcontainer
      apply Tame.bind (key.tame_eval host base)
      intro k _
      exact tame_effect (Subscript.tame_set hcontainer hv)
  | unpack names => exact tame_unpack names hv

theorem tame_current (target : Target) : (current host target).Tame base base.Tame := by
  cases target with
  | name name => exact tame_lookup name
  | index object key =>
      apply Tame.bind (object.tame_eval host base)
      intro container hcontainer
      apply Tame.bind (key.tame_eval host base)
      intro k _
      exact tame_effect (Effect.tame_checking fun _ hh _ hr => Subscript.tame_get hh hcontainer hr)
  | unpack names => exact tame_fail

theorem tame_exception (handling : List Raised) (e : Option Expr) :
    (exception host handling e).Tame base fun _ => True := by
  cases e with
  | none => exact tame_pure trivial
  | some e =>
      apply Tame.bind (e.tame_eval host base)
      intro v _
      split
      · exact tame_pure trivial
      · exact tame_pure trivial
      · exact tame_fail

theorem tame_caught (matcher : Option Expr) (line : Nat) (r : Raised) :
    (caught host matcher line r).Tame base fun _ => True := by
  cases matcher with
  | none => exact tame_pure trivial
  | some e =>
      apply tame_atLine
      apply Tame.bind (e.tame_eval host base)
      intro v _
      exact tame_effect (Effect.tame_checking fun _ _ _ _ => trivial)

theorem tame_bindException (name : Option Text) (r : Raised) :
    (bindException name r : Run ω Unit).Tame base fun _ => True := by
  cases name with
  | none => exact tame_pure trivial
  | some name =>
      apply Tame.bind (tame_effect Effect.tame_newIdentity)
      intro identity _
      exact tame_assign name (Heap.tame_plain rfl)

theorem tame_captureName (v : Value) : (captureName v : Run ω Text).Tame base fun _ => True := by
  cases v with
  | capture name => exact tame_pure trivial
  | _ => exact tame_fail

theorem tame_afterCleanup {cleanup : Run ω Flow} (hcleanup : cleanup.Tame base fun _ => True)
    (pending : Except Raised Flow) : (afterCleanup cleanup pending).Tame base fun _ => True := by
  apply Tame.bind hcleanup
  intro flow _
  cases flow with
  | normal => exact tame_settle pending
  | breakLoop => exact tame_pure trivial
  | continueLoop => exact tame_pure trivial

/-- A diverted block that ends without an exception gives back the output from before it, and
binds the name to the text of the chunks that it left after that. -/
theorem captured_ok {name : Text} {body : Run ω Flow} {s s₂ : State ω} {flow : Flow}
    {own : List Text} (hbody : body s = .ok flow s₂)
    (hown : s.scope.chunks.toList ++ own = s₂.scope.chunks.toList) :
    captured name body s = .ok flow
      { s₂ with
        scope := { s₂.scope with chunks := s.scope.chunks }.assign name (.markup own.flatten) } := by
  have htaken : s₂.scope.takeSince s.scope.mark =
      (own.flatten, { s₂.scope with chunks := s.scope.chunks }) := by
    have hsize : s.scope.mark = s.scope.chunks.toList.length := rfl
    have hrest : s₂.scope.chunks.toList.drop s.scope.mark = own := by
      rw [← hown, hsize, List.drop_left]
    have hkept : s₂.scope.chunks.take s.scope.mark = s.scope.chunks := by
      apply Array.toList_inj.mp
      rw [Array.take_eq_extract, Array.toList_extract, ← hown, hsize]
      simp
    unfold Scope.takeSince
    rw [hrest, hkept]
  have hrun : captured name body s = (do
      assign name (.markup (← takeSince s.scope.mark))
      return flow : Run ω Flow) s₂ := by
    show EStateM.bind body _ s = _
    unfold EStateM.bind
    rw [hbody]
  rw [hrun]
  simp only [Bind.bind, EStateM.bind, takeSince, htaken]
  rfl

theorem tame_captured (name : Text) {body : Run ω Flow} (hbody : body.Tame base fun _ => True) :
    (captured name body).Tame base fun _ => True where
  ok := by
    intro s s' flow hs hrun
    obtain ⟨mark, s₁, hmark, hrest⟩ := exists_of_bind hrun
    cases hmark
    obtain ⟨flow', s₂, hended, -⟩ := exists_of_bind hrest
    have hgrows := (hbody.ok hs hended).1
    obtain ⟨own, hown⟩ := hgrows.output
    rw [captured_ok hended hown] at hrun
    cases hrun
    refine ⟨⟨⟨hgrows.tame.heap, ?_⟩, List.prefix_rfl⟩, trivial⟩
    have hscope : Scope.Tame base { s₂.scope with chunks := s.scope.chunks } :=
      ⟨hgrows.tame.scope.locals, hgrows.tame.scope.vars, hgrows.tame.scope.globals⟩
    exact hscope.assign (Heap.tame_markup _) name
  error := by
    intro s s' stop hs hrun
    rcases error_of_bind hrun with hmark | ⟨mark, s₁, hmark, hrest⟩
    · cases hmark
    · cases hmark
      rcases error_of_bind hrest with hended | ⟨flow, s₂, -, hrest⟩
      · exact hbody.error hs hended
      · rcases error_of_bind hrest with htake | ⟨taken, s₃, -, hrest⟩
        · cases htake
        · rcases error_of_bind hrest with hassign | ⟨_, s₄, -, hpure⟩
          · cases hassign
          · cases hpure

end Statements

end Run

section Execution

variable {ω : Type} (host : Host ω) (base : Heap) (fuel : Nat)

mutual

theorem Stmt.tame_exec (stmt : Stmt) (handling : List Raised) :
    (stmt.exec host fuel handling).Tame base fun _ => True := by
  match stmt with
  | .at line action =>
      rw [Stmt.exec]
      exact Run.tame_atLine line (action.tame_exec handling)

/-- What a statement does lets a tame page grow. -/
theorem Action.tame_exec (action : Action) (handling : List Raised) :
    (action.exec host fuel handling).Tame base fun _ => True := by
  match action with
  | .expr value =>
      rw [Action.exec]
      apply Run.Tame.bind (value.tame_eval host base)
      intro v _
      exact Run.tame_pure trivial
  | .assign target value =>
      rw [Action.exec]
      apply Run.Tame.bind (value.tame_eval host base)
      intro v hv
      apply Run.Tame.bind (Run.tame_bind host target hv)
      intro _ _
      exact Run.tame_pure trivial
  | .augAssign target op value =>
      rw [Action.exec]
      apply Run.Tame.bind (Run.tame_current host target)
      intro old hold
      apply Run.Tame.bind (value.tame_eval host base)
      intro v hv
      apply Run.Tame.bind (Run.tame_effect (Operator.tame_binary op hold hv))
      intro new hnew
      apply Run.Tame.bind (Run.tame_bind host target hnew)
      intro _ _
      exact Run.tame_pure trivial
  | .branch branches otherwise =>
      rw [Action.exec]
      exact tame_execBranches branches handling (tame_execOption otherwise handling)
  | .forEach target items body =>
      have hstep : ∀ v, base.Tame v →
          Run.Tame base (Run.bind host target v >>= fun _ => execAll host fuel handling body)
            fun _ => True := by
        intro v hv
        apply Run.Tame.bind (Run.tame_bind host target hv)
        intro _ _
        exact tame_execAll body handling
      rw [Action.exec]
      apply Run.Tame.bind (items.tame_eval host base)
      intro v hv
      split
      · apply Run.Tame.bind (Run.tame_overRange hstep _ _ _)
        intro _ _
        exact Run.tame_pure trivial
      · apply Run.Tame.bind (Run.tame_effect (Effect.tame_iterate hv))
        intro values hvalues
        apply Run.Tame.bind (Run.tame_overList hvalues hstep)
        intro _ _
        exact Run.tame_pure trivial
  | .whileTrue condition body =>
      rw [Action.exec]
      apply Run.Tame.bind (Run.tame_whileHolds ?_ (tame_execAll body handling) fuel)
      · intro _ _
        exact Run.tame_pure trivial
      · apply Run.Tame.bind (condition.tame_eval host base)
        intro v _
        exact Run.tame_read _
  | .attempt body handlers cleanup =>
      have hcleanup := Run.tame_afterCleanup (tame_execOption cleanup handling)
      rw [Action.exec]
      apply Run.Tame.bind (Run.tame_attempt (tame_execAll body handling))
      intro outcome _
      cases outcome with
      | ok flow =>
          apply Run.Tame.bind (Run.tame_pure (P := fun _ => True) trivial)
          intro outcome _
          exact hcleanup outcome
      | error r =>
          apply Run.Tame.bind (Run.tame_attempt (tame_execHandlers handlers handling r))
          intro outcome _
          exact hcleanup outcome
  | .raise e =>
      rw [Action.exec]
      apply Run.Tame.bind (Run.tame_exception host handling e)
      intro r _
      exact Run.tame_throw
  | .within context name body =>
      rw [Action.exec]
      apply Run.Tame.bind (context.tame_eval host base)
      intro v hv
      apply Run.Tame.bind (Run.tame_captureName v)
      intro target _
      have hcaptured := Run.tame_captured target (tame_execAll body handling)
      cases name with
      | none => exact hcaptured
      | some name =>
          apply Run.Tame.bind (Run.tame_assign name hv)
          intro _ _
          exact hcaptured
  | .pass =>
      rw [Action.exec]
      exact Run.tame_pure trivial
  | .breakLoop =>
      rw [Action.exec]
      exact Run.tame_pure trivial
  | .continueLoop =>
      rw [Action.exec]
      exact Run.tame_pure trivial

theorem tame_execAll (stmts : List Stmt) (handling : List Raised) :
    (execAll host fuel handling stmts).Tame base fun _ => True := by
  match stmts with
  | [] =>
      rw [execAll]
      exact Run.tame_pure trivial
  | stmt :: stmts =>
      rw [execAll]
      apply Run.Tame.bind (stmt.tame_exec handling)
      intro flow _
      cases flow with
      | normal => exact tame_execAll stmts handling
      | breakLoop => exact Run.tame_pure trivial
      | continueLoop => exact Run.tame_pure trivial

theorem tame_execOption (block : Option (List Stmt)) (handling : List Raised) :
    (execOption host fuel handling block).Tame base fun _ => True := by
  match block with
  | none =>
      rw [execOption]
      exact Run.tame_pure trivial
  | some body =>
      rw [execOption]
      exact tame_execAll body handling

theorem tame_execBranches (branches : List (Expr × List Stmt)) (handling : List Raised)
    {otherwise : Run ω Flow} (hotherwise : otherwise.Tame base fun _ => True) :
    (execBranches host fuel handling branches otherwise).Tame base fun _ => True := by
  match branches with
  | [] =>
      rw [execBranches]
      exact hotherwise
  | (condition, body) :: branches =>
      rw [execBranches]
      apply Run.Tame.bind (condition.tame_eval host base)
      intro v _
      apply Run.Tame.bind (Run.tame_read _)
      intro holds _
      split
      · exact tame_execAll body handling
      · exact tame_execBranches branches handling hotherwise

theorem tame_execHandlers (handlers : List Handler) (handling : List Raised) (r : Raised) :
    (execHandlers host fuel handling r handlers).Tame base fun _ => True := by
  match handlers with
  | [] =>
      rw [execHandlers]
      exact Run.tame_throw
  | .clause matcher name body line :: handlers =>
      rw [execHandlers]
      apply Run.Tame.bind (Run.tame_caught host matcher line r)
      intro caught _
      split
      · apply Run.Tame.bind (Run.tame_bindException name r)
        intro _ _
        exact tame_execAll body (r :: handling)
      · exact tame_execHandlers handlers handling r

end

end Execution

/-- What is reached from a tame value on a later heap is tame, so the value is tame there as well. -/
theorem Heap.Tame.later {base h : Heap} {v : Value} (hv : base.Tame v) (hh : base.Tames h) :
    h.Tame v := by
  intro w hw
  have htame : base.Tame w := by
    induction hw with
    | refl => exact hv
    | tail _ hstep ih => exact hh.leads _ ih _ hstep
  exact htame.not_inclusion

theorem State.Tame.later {ω : Type} {base : Heap} {s : State ω} (hs : s.Tame base) :
    s.scope.Tame s.heap where
  locals entry hentry := (hs.scope.locals entry hentry).later hs.heap
  vars entry hentry := (hs.scope.vars entry hentry).later hs.heap
  globals entry hentry := (hs.scope.globals entry hentry).later hs.heap

section Diverted

variable {ω : Type} (host : Host ω) (fuel : Nat) (handling : List Raised)

/-- The state in which a diverted block begins: what diverts it may have been given a name. -/
def State.entered (known : Option Text) (v : Value) (s : State ω) : State ω :=
  match known with
  | some name => { s with scope := s.scope.assign name v }
  | none => s

theorem exec_within {context : Expr} {known : Option Text} {body : List Stmt} {name : Text}
    {s s₁ : State ω} (hcontext : context.eval host s = .ok (.capture name) s₁) :
    (Action.within context known body).exec host fuel handling s =
      Run.captured name (execAll host fuel handling body) (s₁.entered known (.capture name)) := by
  rw [Action.exec]
  show EStateM.bind (context.eval host) _ s = _
  unfold EStateM.bind
  rw [hcontext]
  cases known <;> rfl

/-- Diverted output obeys the discipline of a stack. From a page that reaches no way to render
another template, a block ends on such a page again, and with all chunks of output that were there
when it began, however it ends. A diverted block that does not end in an exception gives back
exactly the output with which it was entered and binds its name to the text of the chunks that it
left beyond that; all else is as the block left it. -/
theorem captures_nest {s : State ω} (hs : s.scope.Tame s.heap) :
    (∀ block : List Stmt,
      s.scope.chunks.toList <+:
          ((execAll host fuel handling block).left s).scope.chunks.toList ∧
        ((execAll host fuel handling block).left s).scope.Tame
          ((execAll host fuel handling block).left s).heap) ∧
    ∀ (line : Nat) (context : Expr) (known : Option Text) (body : List Stmt) (name : Text)
      (s₁ s₂ : State ω) (flow : Flow), context.eval host s = .ok (.capture name) s₁ →
        execAll host fuel handling body (s₁.entered known (.capture name)) = .ok flow s₂ →
          ∃ own : List Text,
            s₂.scope.chunks.toList =
              (s₁.entered known (.capture name)).scope.chunks.toList ++ own ∧
            (Stmt.at line (.within context known body)).exec host fuel handling s =
              .ok flow { s₂ with
                scope := { s₂.scope with
                  chunks := (s₁.entered known (.capture name)).scope.chunks }.assign name
                    (.markup own.flatten) } := by
  have htame : s.Tame s.heap := ⟨Heap.tames_refl _, hs⟩
  constructor
  · intro block
    have hgrows := (tame_execAll host s.heap fuel block handling).grows htame
    exact ⟨hgrows.output, hgrows.tame.later⟩
  · intro line context known body name s₁ s₂ flow hcontext hbody
    have hfirst := ((context.tame_eval host s.heap).ok htame hcontext).1.tame
    have hentered : (s₁.entered known (.capture name)).Tame s.heap := by
      cases known with
      | none => exact hfirst
      | some other => exact ⟨hfirst.heap, hfirst.scope.assign (Heap.tame_plain rfl) other⟩
    have hgrows := ((tame_execAll host s.heap fuel body handling).ok hentered hbody).1
    obtain ⟨own, hown⟩ := hgrows.output
    refine ⟨own, hown.symm, ?_⟩
    have hexec := (exec_within host fuel handling hcontext).trans (Run.captured_ok hbody hown)
    rw [Stmt.exec]
    unfold Run.atLine
    rw [hexec]

end Diverted

/-- A page that has put out a letter. -/
def oneLetter : State Unit := ⟨⟨.empty, ()⟩, ⟨[], [], [], none, 0, #[['a']]⟩⟩

/-- The call that diverts a block into a name. -/
def divertInto (name : Text) : Expr := .call (.name "capture") [.constant (.str name)] []

/-- Puts out a text. -/
def putOut (line : Nat) (t : Text) : Stmt :=
  .at line (.expr (.call (.name "__buffer_append") [.constant (.str t)] []))

/-- Puts out a letter, diverts another one into a name of its own, and jumps. -/
def lettersThenJump : List Stmt :=
  [putOut 2 ['b'], .at 3 (.within (divertInto ['y']) none [putOut 4 ['c']]), .at 5 .breakLoop]

theorem captures_nest_jump :
    oneLetter.scope.Tame oneLetter.heap ∧
    (divertInto ['x']).eval Host.absent oneLetter = .ok (.capture ['x']) oneLetter ∧
    ∃ s, (Stmt.at 1 (.within (divertInto ['x']) none lettersThenJump)).exec Host.absent 0 []
        oneLetter = .ok .breakLoop s ∧
      s.scope.chunks = #[['a']] ∧
      s.scope.locals = [(['y'], .markup ['c']), (['x'], .markup ['b'])] := by
  have htame : oneLetter.scope.Tame oneLetter.heap :=
    ⟨fun _ h => (nomatch h), fun _ h => (nomatch h), fun _ h => (nomatch h)⟩
  have hcontext : (divertInto ['x']).eval Host.absent oneLetter = .ok (.capture ['x']) oneLetter :=
    rfl
  have hbody : execAll Host.absent 0 [] lettersThenJump oneLetter = .ok .breakLoop
      { oneLetter with
        scope := { oneLetter.scope with
          locals := [(['y'], .markup ['c'])], chunks := #[['a'], ['b']] } } :=
    rfl
  obtain ⟨own, hown, hexec⟩ := (captures_nest Host.absent 0 [] htame).2 1 (divertInto ['x']) none
    lettersThenJump ['x'] oneLetter _ _ hcontext hbody
  have hletter : own = [['b']] := (List.cons.inj hown).2.symm
  subst hletter
  exact ⟨htame, hcontext, _, hexec, rfl, rfl⟩

end TemplateEngine
