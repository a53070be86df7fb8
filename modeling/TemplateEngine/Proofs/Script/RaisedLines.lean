import TemplateEngine.Proofs.Script.Parametricity
import TemplateEngine.Proofs.Syntax.Constants

/-!
# The lines of exceptions

An exception has no line when an expression raises it, and gets that of the innermost
statement around, or of the except clause whose matcher it comes from. It keeps the line
while it is handled, raised again or pending during a cleanup. So whatever leaves a
block has the line of a statement or an except clause inside it.
-/
namespace TemplateEngine

/-- What a host raises has no line yet. -/
def Host.Unplaced {ω : Type} (host : Host ω) : Prop :=
  ∀ request vars shared r shared', host request vars shared = .error (.raised r) shared' →
    r.line = 0

namespace Run

variable {ω α β : Type}

/-- A computation whose results have one property, and the lines of whose exceptions another. -/
structure Blames (x : Run ω α) (P : Nat → Prop) (Q : α → Prop) : Prop where
  ok : ∀ {s s' a}, x s = .ok a s' → Q a
  raised : ∀ {s s' r}, x s = .error (.raised r) s' → P r.line

/-- A computation whose exceptions have no line yet. -/
abbrev Unplaced (x : Run ω α) : Prop := x.Blames (· = 0) fun _ => True

theorem Blames.bind {x : Run ω α} {f : α → Run ω β} {P : Nat → Prop} {Q : α → Prop}
    {R : β → Prop} (hx : x.Blames P Q) (hf : ∀ a, Q a → (f a).Blames P R) :
    Blames (x >>= f) P R where
  ok := by
    intro s s'' b hrun
    have hrun : EStateM.bind x f s = .ok b s'' := hrun
    unfold EStateM.bind at hrun
    split at hrun
    · rename_i a s' hfirst
      exact (hf a (hx.ok hfirst)).ok hrun
    · cases hrun
  raised := by
    intro s s'' r hrun
    have hrun : EStateM.bind x f s = .error (.raised r) s'' := hrun
    unfold EStateM.bind at hrun
    split at hrun
    · rename_i a s' hfirst
      exact (hf a (hx.ok hfirst)).raised hrun
    · rename_i hfirst
      cases hrun
      exact hx.raised hfirst

theorem Blames.weaken {x : Run ω α} {P P' : Nat → Prop} {Q Q' : α → Prop} (hx : x.Blames P Q)
    (hP : ∀ line, P line → P' line) (hQ : ∀ a, Q a → Q' a) : x.Blames P' Q' where
  ok hrun := hQ _ (hx.ok hrun)
  raised hrun := hP _ (hx.raised hrun)

theorem blames_pure {a : α} {P : Nat → Prop} {Q : α → Prop} (ha : Q a) :
    Blames (pure a : Run ω α) P Q where
  ok := by
    intro s s' b hrun
    cases hrun
    exact ha
  raised := by
    intro s s' r hrun
    cases hrun

theorem blames_throw {r : Raised} {P : Nat → Prop} {Q : α → Prop} (hr : P r.line) :
    Blames (throw (.raised r) : Run ω α) P Q where
  ok := by
    intro s s' b hrun
    cases hrun
  raised := by
    intro s s' r hrun
    cases hrun
    exact hr

/-- A computation that always has a result raises nothing. -/
theorem blames_of_ok {x : Run ω α} {P : Nat → Prop} (hx : ∀ s, ∃ a s', x s = .ok a s') :
    x.Blames P fun _ => True where
  ok _ := trivial
  raised := by
    intro s s' r hrun
    obtain ⟨a, s'', hok⟩ := hx s
    rw [hok] at hrun
    cases hrun

theorem unplaced_pure (a : α) : Unplaced (pure a : Run ω α) := blames_pure trivial

theorem unplaced_fail (cause : Cause) : Unplaced (fail cause : Run ω α) := blames_throw rfl

theorem unplaced_effect (x : Effect α) : Unplaced (effect x : Run ω α) where
  ok _ := trivial
  raised := by
    intro s s' r hrun
    unfold effect at hrun
    split at hrun
    · cases hrun
    · cases hrun
      rfl

theorem unplaced_reading (f : Heap → α) : Unplaced (reading f : Run ω α) :=
  blames_of_ok fun s => ⟨f s.heap, s, rfl⟩

theorem unplaced_ofScope (f : Scope → α) : Unplaced (ofScope f : Run ω α) :=
  blames_of_ok fun s => ⟨f s.scope, s, rfl⟩

theorem unplaced_change (f : Scope → Scope) : Unplaced (change f : Run ω Unit) :=
  blames_of_ok fun _ => ⟨(), _, rfl⟩

theorem unplaced_takeSince (mark : Nat) : Unplaced (takeSince mark : Run ω Text) :=
  blames_of_ok fun _ => ⟨_, _, rfl⟩

theorem unplaced_request {host : Host ω} (hhost : host.Unplaced) (request : Request)
    (vars : Entries Value) : Unplaced (Run.request host request vars) where
  ok _ := trivial
  raised := by
    intro s s' r hrun
    unfold Run.request at hrun
    split at hrun
    · cases hrun
    · rename_i hraised
      cases hrun
      exact hhost _ _ _ _ _ hraised

end Run

/-- Expressions are put together from what raises without a line. -/
theorem Run.parametric_unplaced {ω : Type} :
    Run.Parametric fun α (x _ : Run ω α) => x.Unplaced where
  pure := unplaced_pure
  fail := unplaced_fail
  effect := unplaced_effect
  ofScope := unplaced_ofScope
  change := unplaced_change
  bind hx hf := hx.bind fun a _ => hf a

/-- What an expression raises has no line yet. -/
theorem Expr.unplaced_eval {ω : Type} {host : Host ω} (hhost : host.Unplaced) (e : Expr) :
    Run.Unplaced (e.eval host) := by
  have hrelated : host.Related (fun α (x _ : Run ω α) => x.Unplaced) host := fun request vars =>
    Run.unplaced_request hhost request vars
  exact e.related_eval Run.parametric_unplaced hrelated

namespace Run

variable {ω α : Type} {P : Nat → Prop}

/-- No line yet, or a line with a property. -/
def Pending (P : Nat → Prop) (line : Nat) : Prop := line = 0 ∨ P line

theorem Unplaced.pending {x : Run ω α} (hx : x.Unplaced) :
    x.Blames (Pending P) fun _ => True :=
  hx.weaken (fun _ hline => .inl hline) fun _ _ => trivial

theorem Blames.pending {x : Run ω α} {Q : α → Prop} (hx : x.Blames P Q) :
    x.Blames (Pending P) Q :=
  hx.weaken (fun _ hline => .inr hline) fun _ ha => ha

/-- An exception without a line gets the one at hand, and any other keeps its own. -/
theorem blames_atLine {line : Nat} {x : Run ω α} {Q : α → Prop} (hline : P line)
    (hx : x.Blames (Pending P) Q) : (atLine line x).Blames P Q where
  ok := by
    intro s s' a hrun
    unfold atLine at hrun
    split at hrun
    · cases hrun
    · exact hx.ok hrun
  raised := by
    intro s s' r hrun
    unfold atLine at hrun
    split at hrun
    · rename_i r' s₁ hraised
      cases hrun
      unfold Raised.atLine
      split
      · exact hline
      · rename_i hplaced
        exact (hx.raised hraised).resolve_left hplaced
    · rename_i hother
      exact absurd hrun (hother r s')

/-- The exception that is caught, if one is, has its line still. -/
theorem blames_attempt {x : Run ω α} {Q : α → Prop} (hx : x.Blames P Q) :
    (attempt x).Blames P fun outcome => ∀ r, outcome = .error r → P r.line where
  ok := by
    intro s s' outcome hrun
    unfold attempt at hrun
    split at hrun
    · cases hrun
      intro r hr
      cases hr
    · rename_i hraised
      cases hrun
      rintro r ⟨⟩
      exact hx.raised hraised
    · cases hrun
  raised := by
    intro s s' r hrun
    unfold attempt at hrun
    split at hrun <;> cases hrun

theorem blames_settle {outcome : Except Raised α} (houtcome : ∀ r, outcome = .error r → P r.line) :
    (settle outcome : Run ω α).Blames P fun _ => True := by
  cases outcome with
  | ok a => exact blames_pure trivial
  | error r => exact blames_throw (houtcome r rfl)

theorem blames_overList {step : Value → Run ω Flow}
    (hstep : ∀ v, (step v).Blames P fun _ => True) (items : List Value) :
    (overList step items).Blames P fun _ => True := by
  induction items with
  | nil => exact blames_pure trivial
  | cons v items ih =>
      unfold overList
      apply Blames.bind (hstep v)
      intro flow _
      split
      · exact ih
      · exact blames_pure trivial

theorem blames_overRange {step : Value → Run ω Flow}
    (hstep : ∀ v, (step v).Blames P fun _ => True) (distance : Int) (count : Nat) (n : Int) :
    (overRange step distance count n).Blames P fun _ => True := by
  induction count generalizing n with
  | zero => exact blames_pure trivial
  | succ count ih =>
      unfold overRange
      apply Blames.bind (hstep (.int n))
      intro flow _
      split
      · exact ih (n + distance)
      · exact blames_pure trivial

theorem blames_whileHolds {condition : Run ω Bool} {step : Run ω Flow}
    (hcondition : condition.Blames P fun _ => True) (hstep : step.Blames P fun _ => True)
    (fuel : Nat) : (whileHolds condition step fuel).Blames P fun _ => True := by
  induction fuel with
  | zero =>
      constructor
      · intro s s' a hrun
        trivial
      · intro s s' r hrun
        cases hrun
  | succ fuel ih =>
      unfold whileHolds
      apply Blames.bind hcondition
      intro holds _
      split
      · apply Blames.bind hstep
        intro flow _
        split
        · exact ih
        · exact blames_pure trivial
      · exact blames_pure trivial

theorem unplaced_unpack (names : List Text) (v : Value) :
    Unplaced (unpack names v : Run ω Unit) := by
  unfold unpack
  apply Blames.bind (unplaced_effect _)
  intro items _
  split
  · exact unplaced_fail _
  · split
    · exact unplaced_fail _
    · exact unplaced_change _

/-- Binding the name of an except clause raises nothing. -/
theorem blames_bindException (name : Option Text) (r : Raised) :
    (bindException name r : Run ω Unit).Blames P fun _ => True := by
  apply blames_of_ok
  intro s
  cases name with
  | none => exact ⟨(), s, rfl⟩
  | some name => exact ⟨(), _, rfl⟩

theorem unplaced_captureName (v : Value) : Unplaced (captureName v : Run ω Text) := by
  cases v with
  | capture name => exact unplaced_pure _
  | _ => exact unplaced_fail _

theorem blames_captured {name : Text} {body : Run ω Flow} (hbody : body.Blames P fun _ => True) :
    (captured name body).Blames (Pending P) fun _ => True := by
  apply Blames.bind (unplaced_ofScope _).pending
  intro mark _
  apply Blames.bind hbody.pending
  intro flow _
  apply Blames.bind (unplaced_takeSince mark).pending
  intro text _
  apply Blames.bind (unplaced_change _).pending
  intro _ _
  exact blames_pure trivial

theorem blames_afterCleanup {cleanup : Run ω Flow} (hcleanup : cleanup.Blames P fun _ => True)
    {pending : Except Raised Flow} (hpending : ∀ r, pending = .error r → P r.line) :
    (afterCleanup cleanup pending).Blames P fun _ => True := by
  apply Blames.bind hcleanup
  intro flow _
  cases flow with
  | normal => exact blames_settle hpending
  | breakLoop => exact blames_pure trivial
  | continueLoop => exact blames_pure trivial

section Hosted

variable {host : Host ω} (hhost : host.Unplaced)
include hhost

theorem unplaced_bind (target : Target) (v : Value) : Unplaced (bind host target v) := by
  cases target with
  | name name => exact unplaced_change _
  | index object key =>
      apply Blames.bind (object.unplaced_eval hhost)
      intro container _
      apply Blames.bind (key.unplaced_eval hhost)
      intro k _
      exact unplaced_effect _
  | unpack names => exact unplaced_unpack names v

theorem unplaced_current (target : Target) : Unplaced (current host target) := by
  cases target with
  | name name => exact Run.parametric_unplaced.lookup name
  | index object key =>
      apply Blames.bind (object.unplaced_eval hhost)
      intro container _
      apply Blames.bind (key.unplaced_eval hhost)
      intro k _
      exact unplaced_effect _
  | unpack names => exact unplaced_fail _

/-- The exception that a statement raises is a new one without a line, or the innermost of those
being handled. -/
theorem blames_exception {handling : List Raised} (hhandling : ∀ r ∈ handling, P r.line)
    (e : Option Expr) :
    (exception host handling e).Blames (Pending P) fun r => Pending P r.line := by
  cases e with
  | none =>
      apply blames_pure
      cases handling with
      | nil => exact .inl rfl
      | cons r others => exact .inr (hhandling r List.mem_cons_self)
  | some e =>
      apply Blames.bind (e.unplaced_eval hhost).pending
      intro v _
      split
      · exact blames_pure (.inl rfl)
      · exact blames_pure (.inl rfl)
      · exact blames_throw (.inl rfl)

/-- What a matcher raises has the line of its except clause. -/
theorem blames_caught {line : Nat} (hline : P line) (matcher : Option Expr) (r : Raised) :
    (caught host matcher line r).Blames P fun _ => True := by
  cases matcher with
  | none => exact blames_pure trivial
  | some e =>
      apply blames_atLine hline
      apply Blames.bind (e.unplaced_eval hhost).pending
      intro v _
      exact (unplaced_effect _).pending

end Hosted

end Run

section Execution

variable {ω : Type} {host : Host ω} (fuel : Nat) {P : Nat → Prop}

mutual

theorem Stmt.blames_exec (hhost : host.Unplaced) (stmt : Stmt)
    (hlines : ∀ line ∈ stmt.lines, P line) {handling : List Raised}
    (hhandling : ∀ r ∈ handling, P r.line) :
    (stmt.exec host fuel handling).Blames P fun _ => True := by
  match stmt with
  | .at line action =>
      rw [Stmt.lines, List.forall_mem_cons] at hlines
      rw [Stmt.exec]
      exact Run.blames_atLine hlines.1 (action.blames_exec hhost hlines.2 hhandling)

/-- What an action raises has no line yet, or that of a statement or an except clause inside it,
or of an exception being handled. -/
theorem Action.blames_exec (hhost : host.Unplaced) (action : Action)
    (hlines : ∀ line ∈ action.lines, P line) {handling : List Raised}
    (hhandling : ∀ r ∈ handling, P r.line) :
    (action.exec host fuel handling).Blames (Run.Pending P) fun _ => True := by
  match action with
  | .expr value =>
      rw [Action.exec]
      apply Run.Blames.bind (value.unplaced_eval hhost).pending
      intro v _
      exact Run.blames_pure trivial
  | .assign target value =>
      rw [Action.exec]
      apply Run.Blames.bind (value.unplaced_eval hhost).pending
      intro v _
      apply Run.Blames.bind (Run.unplaced_bind hhost target v).pending
      intro _ _
      exact Run.blames_pure trivial
  | .augAssign target op value =>
      rw [Action.exec]
      apply Run.Blames.bind (Run.unplaced_current hhost target).pending
      intro old _
      apply Run.Blames.bind (value.unplaced_eval hhost).pending
      intro v _
      apply Run.Blames.bind (Run.unplaced_effect _).pending
      intro new _
      apply Run.Blames.bind (Run.unplaced_bind hhost target new).pending
      intro _ _
      exact Run.blames_pure trivial
  | .branch branches otherwise =>
      rw [Action.lines, List.forall_mem_append] at hlines
      rw [Action.exec]
      exact blames_execBranches hhost branches hlines.1 hhandling
        (blames_execOption hhost otherwise hlines.2 hhandling).pending
  | .forEach target items body =>
      rw [Action.lines] at hlines
      have hstep : ∀ v, Run.Blames
          (Run.bind host target v >>= fun _ => execAll host fuel handling body)
          (Run.Pending P) fun _ => True := by
        intro v
        apply Run.Blames.bind (Run.unplaced_bind hhost target v).pending
        intro _ _
        exact (blames_execAll hhost body hlines hhandling).pending
      rw [Action.exec]
      apply Run.Blames.bind (items.unplaced_eval hhost).pending
      intro v _
      split
      · apply Run.Blames.bind (Run.blames_overRange hstep _ _ _)
        intro _ _
        exact Run.blames_pure trivial
      · apply Run.Blames.bind (Run.unplaced_effect _).pending
        intro values _
        apply Run.Blames.bind (Run.blames_overList hstep values)
        intro _ _
        exact Run.blames_pure trivial
  | .whileTrue condition body =>
      rw [Action.lines] at hlines
      rw [Action.exec]
      apply Run.Blames.bind (Run.blames_whileHolds ?_
        (blames_execAll hhost body hlines hhandling).pending fuel)
      · intro _ _
        exact Run.blames_pure trivial
      · apply Run.Blames.bind (condition.unplaced_eval hhost).pending
        intro v _
        exact (Run.unplaced_reading _).pending
  | .attempt body handlers cleanup =>
      rw [Action.lines, List.forall_mem_append, List.forall_mem_append] at hlines
      have hcleanup := blames_execOption hhost cleanup hlines.2.2 hhandling
      rw [Action.exec]
      have hbody := blames_execAll hhost body hlines.1 hhandling
      apply Run.Blames.bind (Run.blames_attempt hbody).pending
      intro outcome houtcome
      cases outcome with
      | ok flow =>
          exact Run.Blames.bind (Run.blames_pure houtcome) fun outcome houtcome =>
            (Run.blames_afterCleanup hcleanup houtcome).pending
      | error r =>
          have hhandlers := blames_execHandlers hhost handlers hlines.2.1 hhandling (houtcome r rfl)
          exact Run.Blames.bind (Run.blames_attempt hhandlers).pending fun outcome houtcome =>
            (Run.blames_afterCleanup hcleanup houtcome).pending
  | .raise e =>
      rw [Action.exec]
      apply Run.Blames.bind (Run.blames_exception hhost hhandling e)
      intro r hr
      exact Run.blames_throw hr
  | .within context name body =>
      rw [Action.lines] at hlines
      have hcaptured (target : Text) :
          (Run.captured target (execAll host fuel handling body)).Blames (Run.Pending P)
            fun _ => True :=
        Run.blames_captured (blames_execAll hhost body hlines hhandling)
      rw [Action.exec]
      apply Run.Blames.bind (context.unplaced_eval hhost).pending
      intro v _
      apply Run.Blames.bind (Run.unplaced_captureName v).pending
      intro target _
      cases name with
      | none => exact hcaptured target
      | some name =>
          apply Run.Blames.bind (Run.unplaced_change _).pending
          intro _ _
          exact hcaptured target
  | .pass =>
      rw [Action.exec]
      exact Run.blames_pure trivial
  | .breakLoop =>
      rw [Action.exec]
      exact Run.blames_pure trivial
  | .continueLoop =>
      rw [Action.exec]
      exact Run.blames_pure trivial

/-- What a block raises has the line of a statement or an except clause inside it, or of an
exception being handled. -/
theorem blames_execAll (hhost : host.Unplaced) (stmts : List Stmt)
    (hlines : ∀ line ∈ linesBlock stmts, P line) {handling : List Raised}
    (hhandling : ∀ r ∈ handling, P r.line) :
    (execAll host fuel handling stmts).Blames P fun _ => True := by
  match stmts with
  | [] =>
      rw [execAll]
      exact Run.blames_pure trivial
  | stmt :: stmts =>
      rw [linesBlock, List.forall_mem_append] at hlines
      rw [execAll]
      apply Run.Blames.bind (stmt.blames_exec hhost hlines.1 hhandling)
      intro flow _
      cases flow with
      | normal => exact blames_execAll hhost stmts hlines.2 hhandling
      | breakLoop => exact Run.blames_pure trivial
      | continueLoop => exact Run.blames_pure trivial

theorem blames_execOption (hhost : host.Unplaced) (block : Option (List Stmt))
    (hlines : ∀ line ∈ linesOption block, P line) {handling : List Raised}
    (hhandling : ∀ r ∈ handling, P r.line) :
    (execOption host fuel handling block).Blames P fun _ => True := by
  match block with
  | none =>
      rw [execOption]
      exact Run.blames_pure trivial
  | some body =>
      rw [linesOption] at hlines
      rw [execOption]
      exact blames_execAll hhost body hlines hhandling

theorem blames_execBranches (hhost : host.Unplaced) (branches : List (Expr × List Stmt))
    (hlines : ∀ line ∈ linesBranches branches, P line)
    {handling : List Raised} (hhandling : ∀ r ∈ handling, P r.line) {otherwise : Run ω Flow}
    (hotherwise : otherwise.Blames (Run.Pending P) fun _ => True) :
    (execBranches host fuel handling branches otherwise).Blames (Run.Pending P)
      fun _ => True := by
  match branches with
  | [] =>
      rw [execBranches]
      exact hotherwise
  | (condition, body) :: branches =>
      rw [linesBranches, List.forall_mem_append] at hlines
      rw [execBranches]
      apply Run.Blames.bind (condition.unplaced_eval hhost).pending
      intro v _
      apply Run.Blames.bind (Run.unplaced_reading _).pending
      intro holds _
      split
      · exact (blames_execAll hhost body hlines.1 hhandling).pending
      · exact blames_execBranches hhost branches hlines.2 hhandling hotherwise

theorem blames_execHandlers (hhost : host.Unplaced) (handlers : List Handler)
    (hlines : ∀ line ∈ linesHandlers handlers, P line)
    {handling : List Raised} (hhandling : ∀ r ∈ handling, P r.line) {r : Raised}
    (hr : P r.line) :
    (execHandlers host fuel handling r handlers).Blames P fun _ => True := by
  match handlers with
  | [] =>
      rw [execHandlers]
      exact Run.blames_throw hr
  | .clause matcher name body line :: handlers =>
      rw [linesHandlers, List.forall_mem_cons, List.forall_mem_append] at hlines
      rw [execHandlers]
      apply Run.Blames.bind (Run.blames_caught hhost hlines.1 matcher r)
      intro caught _
      split
      · apply Run.Blames.bind (Run.blames_bindException name r)
        intro _ _
        exact blames_execAll hhost body hlines.2.1 (List.forall_mem_cons.mpr ⟨hr, hhandling⟩)
      · exact blames_execHandlers hhost handlers hlines.2.2 hhandling hr

end

end Execution

end TemplateEngine
