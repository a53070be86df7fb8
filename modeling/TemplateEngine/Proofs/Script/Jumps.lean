import Mathlib
import TemplateEngine.Proofs.Script.Captures
import TemplateEngine.Proofs.Script.SoundEvaluation
import TemplateEngine.Proofs.Syntax.KeywordNames
import TemplateEngine.Proofs.Syntax.StatementForms

/-!
# Jumps stay inside of loops

A statement that is well formed jumps only where a loop is around it: a loop ends
normally however its body ends, and an attempt or a captured block passes on what its
blocks do. So an accepted program as a whole ends normally or by an exception, and none
of its statements ever finds an illegal target to add to.
-/
namespace TemplateEngine

/-- A block ends by a jump only inside of a loop. -/
def Flow.Fits (inLoop : Bool) (flow : Flow) : Prop := inLoop = false → flow = .normal

theorem Flow.fits_normal (inLoop : Bool) : Flow.normal.Fits inLoop := fun _ => rfl

theorem Flow.fits_inside (flow : Flow) : flow.Fits true := nofun

/-- What was caught or what a computation gave, each with its property. -/
def Run.Caught {α : Type} (Q : α → Prop) (outcome : Except Raised α) : Prop :=
  match outcome with
  | .ok a => Q a
  | .error r => r.Proper

namespace Run

variable {ω α : Type} {K : Heap → Prop} {Q : α → Prop}

theorem proper_atLine {r : Raised} (hr : r.Proper) (line : Nat) : (r.atLine line).Proper := by
  unfold Raised.atLine
  split <;> exact hr

theorem yields_atLine (line : Nat) {x : Run ω α} (hx : x.Yields K Q) :
    (atLine line x).Yields K Q where
  ok := by
    intro s s' a hrun
    unfold atLine at hrun
    split at hrun
    · cases hrun
    · exact hx.ok hrun
  error := by
    intro s s' stop hrun
    unfold atLine at hrun
    split at hrun
    · rename_i r s₁ hraised
      cases hrun
      obtain ⟨hkeeps, hr⟩ := hx.error hraised
      exact ⟨hkeeps, proper_raised (proper_atLine (hr r rfl) line)⟩
    · exact hx.error hrun

theorem yields_attempt {x : Run ω α} (hx : x.Yields K Q) : (attempt x).Yields K (Caught Q) where
  ok := by
    intro s s' outcome hrun
    unfold attempt at hrun
    split at hrun
    · rename_i hok
      cases hrun
      exact hx.ok hok
    · rename_i r s₁ hraised
      cases hrun
      obtain ⟨hkeeps, hr⟩ := hx.error hraised
      exact ⟨hkeeps, hr r rfl⟩
    · cases hrun
  error := by
    intro s s' stop hrun
    unfold attempt at hrun
    split at hrun
    · cases hrun
    · cases hrun
    · rename_i hstopped
      cases hrun
      exact hx.error hstopped

theorem yields_settle {outcome : Except Raised α} (houtcome : Caught Q outcome) :
    (settle outcome : Run ω α).Yields K Q := by
  cases outcome with
  | ok a => exact yields_pure houtcome
  | error r => exact yields_throw (proper_raised houtcome)

/-- A loop over a list ends however its rounds end. -/
theorem sound_overList {step : Value → Run ω Flow} (hstep : ∀ v, (step v).Sound K)
    (items : List Value) : (overList step items).Sound K := by
  induction items with
  | nil => exact sound_pure ()
  | cons v items ih =>
      unfold overList
      apply (hstep v).bind
      intro flow
      split
      · exact ih
      · exact sound_pure _

theorem sound_overRange {step : Value → Run ω Flow} (hstep : ∀ v, (step v).Sound K)
    (distance : Int) (count : Nat) (n : Int) : (overRange step distance count n).Sound K := by
  induction count generalizing n with
  | zero => exact sound_pure ()
  | succ count ih =>
      unfold overRange
      apply (hstep (.int n)).bind
      intro flow
      split
      · exact ih (n + distance)
      · exact sound_pure _

theorem sound_whileHolds {condition : Run ω Bool} {step : Run ω Flow}
    (hcondition : condition.Sound K) (hstep : step.Sound K) (fuel : Nat) :
    (whileHolds condition step fuel).Sound K := by
  induction fuel with
  | zero => exact yields_throw nofun
  | succ fuel ih =>
      unfold whileHolds
      apply hcondition.bind
      intro holds
      split
      · apply hstep.bind
        intro flow
        split
        · exact ih
        · exact sound_pure _
      · exact sound_pure _

/-- A captured block ends as it would if it were not captured. -/
theorem yields_captured {name : Text} {body : Run ω Flow} {Q : Flow → Prop}
    (hbody : body.Yields K Q) : (captured name body).Yields K Q := by
  apply (sound_ofScope _).bind
  intro mark
  apply hbody.bind
  intro flow hflow
  apply (sound_takeSince mark).bind
  intro text
  exact (sound_change _).bind fun _ => yields_pure hflow

/-- After a cleanup what was pending goes on, unless the cleanup itself jumps. -/
theorem yields_afterCleanup {cleanup : Run ω Flow} {Q : Flow → Prop}
    (hcleanup : cleanup.Yields K Q) {pending : Except Raised Flow} (hpending : Caught Q pending) :
    (afterCleanup cleanup pending).Yields K Q := by
  apply hcleanup.bind
  intro flow hflow
  cases flow with
  | normal => exact yields_settle hpending
  | breakLoop => exact yields_pure hflow
  | continueLoop => exact yields_pure hflow

theorem sound_captureName (v : Value) : Sound K (captureName v : Run ω Text) := by
  cases v with
  | capture name => exact sound_pure name
  | _ => exact yields_fail (by nofun)

theorem sound_unpack (names : List Text) (v : Value) : Sound K (unpack names v : Run ω Unit) := by
  unfold unpack
  apply (sound_effect (Effect.sound_checking fun h => h.proper_iterate v)).bind
  intro items
  split
  · exact yields_fail (by nofun)
  · split
    · exact yields_fail (by nofun)
    · exact sound_change _

section Hosted

variable [Heap.Steady K]

theorem sound_bindException (name : Option Text) (r : Raised) :
    Sound K (bindException name r : Run ω Unit) := by
  cases name with
  | none => exact sound_pure ()
  | some name =>
      exact (sound_effect Effect.closed_sound.newIdentity).bind fun identity => sound_change _

variable {host : Host ω} (hhost : host.Sound K)
include hhost

theorem sound_bind (target : Target) (v : Value) : (bind host target v).Sound K := by
  cases target with
  | name name => exact sound_change _
  | index object key =>
      exact (object.sound_eval hhost).bind fun container => (key.sound_eval hhost).bind fun k =>
        sound_effect (Effect.closed_sound.setItem container k v)
  | unpack names => exact sound_unpack names v

/-- The target of an augmented assignment has a value or raises, unless it is several names. -/
theorem sound_current {target : Target} (htarget : ∀ names, target ≠ .unpack names) :
    (current host target).Sound K := by
  cases target with
  | name name => exact sound_lookup name
  | index object key =>
      exact (object.sound_eval hhost).bind fun container => (key.sound_eval hhost).bind fun k =>
        sound_effect (Effect.sound_checking fun h => Subscript.proper_get h container k)
  | unpack names => exact absurd rfl (htarget names)

theorem yields_exception {handling : List Raised} (hhandling : ∀ r ∈ handling, r.Proper)
    (e : Option Expr) : (exception host handling e).Yields K Raised.Proper := by
  cases e with
  | none =>
      cases handling with
      | nil => exact yields_pure nofun
      | cons r others => exact yields_pure (hhandling r List.mem_cons_self)
  | some e =>
      apply (e.sound_eval hhost).bind
      intro v
      split
      · exact yields_pure nofun
      · exact yields_pure nofun
      · exact yields_fail (by nofun)

theorem sound_caught (matcher : Option Expr) (line : Nat) (r : Raised) :
    (caught host matcher line r).Sound K := by
  cases matcher with
  | none => exact sound_pure true
  | some e =>
      apply yields_atLine
      exact (e.sound_eval hhost).bind fun v =>
        sound_effect (Effect.sound_checking fun h => h.proper_catchesTo r.kind h.depth v)

end Hosted

end Run

section Execution

open Run

variable {ω : Type} {K : Heap → Prop} {host : Host ω} (fuel : Nat)

mutual

/-- A statement that is well formed jumps only where a loop is around it. -/
theorem Stmt.yields_exec [Heap.Steady K] (hhost : host.Sound K) {inLoop : Bool} (stmt : Stmt)
    (hstmt : stmt.action.WellFormed inLoop) {handling : List Raised}
    (hhandling : ∀ r ∈ handling, r.Proper) :
    (stmt.exec host fuel handling).Yields K (Flow.Fits inLoop) := by
  match stmt with
  | .at line action =>
      rw [Stmt.exec]
      exact yields_atLine line (action.yields_exec hhost hstmt hhandling)

theorem Action.yields_exec [Heap.Steady K] (hhost : host.Sound K) {inLoop : Bool}
    (action : Action) (haction : action.WellFormed inLoop) {handling : List Raised}
    (hhandling : ∀ r ∈ handling, r.Proper) :
    (action.exec host fuel handling).Yields K (Flow.Fits inLoop) := by
  match action with
  | .expr value =>
      rw [Action.exec]
      exact (value.sound_eval hhost).bind fun v => yields_pure (Flow.fits_normal inLoop)
  | .assign target value =>
      rw [Action.exec]
      exact (value.sound_eval hhost).bind fun v => (sound_bind hhost target v).bind fun _ =>
        yields_pure (Flow.fits_normal inLoop)
  | .augAssign target op value =>
      cases haction with
      | augAssign htarget hop =>
          rw [Action.exec]
          apply (sound_current hhost htarget).bind
          intro old
          apply (value.sound_eval hhost).bind
          intro v
          apply (sound_effect (Effect.closed_sound.binary op old v)).bind
          intro new
          exact (sound_bind hhost target new).bind fun _ => yields_pure (Flow.fits_normal inLoop)
  | .branch branches otherwise =>
      cases haction with
      | branch hbranches hotherwise =>
          rw [Action.exec]
          exact yields_execBranches hhost branches hbranches hhandling
            (yields_execOption hhost otherwise hotherwise hhandling)
  | .forEach target items body =>
      cases haction with
      | forEach hbody =>
          have hstep : ∀ v, Run.Sound K
              (Run.bind host target v >>= fun _ => execAll host fuel handling body) := fun v =>
            (sound_bind hhost target v).bind fun _ =>
              (yields_execAll hhost body hbody hhandling).sound
          rw [Action.exec]
          apply (items.sound_eval hhost).bind
          intro v
          split
          · exact (sound_overRange hstep _ _ _).bind fun _ => yields_pure (Flow.fits_normal inLoop)
          · apply (sound_effect (Effect.sound_checking fun h => h.proper_iterate _)).bind
            intro values
            exact (sound_overList hstep values).bind fun _ => yields_pure (Flow.fits_normal inLoop)
  | .whileTrue condition body =>
      cases haction with
      | whileTrue hbody =>
          have hholds : Run.Sound K (condition.eval host >>= fun v => Run.truthy v) :=
            (condition.sound_eval hhost).bind fun v => sound_reading _
          rw [Action.exec]
          have hbody := (yields_execAll hhost body hbody hhandling).sound
          exact (sound_whileHolds hholds hbody fuel).bind
            fun _ => yields_pure (Flow.fits_normal inLoop)
  | .attempt body handlers cleanup =>
      cases haction with
      | attempt hsome hbody hhandlers hcleanup =>
          have hcleaned := yields_execOption hhost cleanup hcleanup hhandling
          rw [Action.exec]
          apply (yields_attempt (yields_execAll hhost body hbody hhandling)).bind
          intro outcome houtcome
          cases outcome with
          | ok flow =>
              exact Yields.bind (yields_pure houtcome) fun outcome houtcome =>
                yields_afterCleanup hcleaned houtcome
          | error r =>
              have hhandled := yields_execHandlers hhost handlers hhandlers hhandling houtcome
              exact (yields_attempt hhandled).bind fun outcome houtcome =>
                yields_afterCleanup hcleaned houtcome
  | .raise e =>
      rw [Action.exec]
      exact (yields_exception hhost hhandling e).bind fun r hr => yields_throw (proper_raised hr)
  | .within context name body =>
      cases haction with
      | within hbody =>
          have hcaptured (target : Text) :
              (Run.captured target (execAll host fuel handling body)).Yields K
                (Flow.Fits inLoop) :=
            yields_captured (yields_execAll hhost body hbody hhandling)
          rw [Action.exec]
          apply (context.sound_eval hhost).bind
          intro v
          apply (sound_captureName v).bind
          intro target
          cases name with
          | none => exact hcaptured target
          | some name => exact (sound_change _).bind fun _ => hcaptured target
  | .pass =>
      rw [Action.exec]
      exact yields_pure (Flow.fits_normal inLoop)
  | .breakLoop =>
      cases haction
      rw [Action.exec]
      exact yields_pure (Flow.fits_inside .breakLoop)
  | .continueLoop =>
      cases haction
      rw [Action.exec]
      exact yields_pure (Flow.fits_inside .continueLoop)

theorem yields_execAll [Heap.Steady K] (hhost : host.Sound K) {inLoop : Bool}
    (stmts : List Stmt) (hstmts : ∀ s ∈ stmts, s.action.WellFormed inLoop)
    {handling : List Raised} (hhandling : ∀ r ∈ handling, r.Proper) :
    (execAll host fuel handling stmts).Yields K (Flow.Fits inLoop) := by
  match stmts with
  | [] =>
      rw [execAll]
      exact yields_pure (Flow.fits_normal inLoop)
  | stmt :: stmts =>
      rw [List.forall_mem_cons] at hstmts
      rw [execAll]
      apply (stmt.yields_exec hhost hstmts.1 hhandling).bind
      intro flow hflow
      cases flow with
      | normal => exact yields_execAll hhost stmts hstmts.2 hhandling
      | breakLoop => exact yields_pure hflow
      | continueLoop => exact yields_pure hflow

theorem yields_execOption [Heap.Steady K] (hhost : host.Sound K) {inLoop : Bool}
    (block : Option (List Stmt)) (hblock : ∀ body ∈ block, ∀ s ∈ body, s.action.WellFormed inLoop)
    {handling : List Raised} (hhandling : ∀ r ∈ handling, r.Proper) :
    (execOption host fuel handling block).Yields K (Flow.Fits inLoop) := by
  match block with
  | none =>
      rw [execOption]
      exact yields_pure (Flow.fits_normal inLoop)
  | some body =>
      rw [execOption]
      exact yields_execAll hhost body (hblock body rfl) hhandling

theorem yields_execBranches [Heap.Steady K] (hhost : host.Sound K) {inLoop : Bool}
    (branches : List (Expr × List Stmt))
    (hbranches : ∀ b ∈ branches, ∀ s ∈ b.2, s.action.WellFormed inLoop)
    {handling : List Raised} (hhandling : ∀ r ∈ handling, r.Proper) {otherwise : Run ω Flow}
    (hotherwise : otherwise.Yields K (Flow.Fits inLoop)) :
    (execBranches host fuel handling branches otherwise).Yields K (Flow.Fits inLoop) := by
  match branches with
  | [] =>
      rw [execBranches]
      exact hotherwise
  | (condition, body) :: branches =>
      rw [List.forall_mem_cons] at hbranches
      rw [execBranches]
      apply (condition.sound_eval hhost).bind
      intro v
      apply (sound_reading _).bind
      intro holds
      split
      · exact yields_execAll hhost body hbranches.1 hhandling
      · exact yields_execBranches hhost branches hbranches.2 hhandling hotherwise

theorem yields_execHandlers [Heap.Steady K] (hhost : host.Sound K) {inLoop : Bool}
    (handlers : List Handler)
    (hhandlers : ∀ handler ∈ handlers, ∀ s ∈ handler.body, s.action.WellFormed inLoop)
    {handling : List Raised} (hhandling : ∀ r ∈ handling, r.Proper) {r : Raised} (hr : r.Proper) :
    (execHandlers host fuel handling r handlers).Yields K (Flow.Fits inLoop) := by
  match handlers with
  | [] =>
      rw [execHandlers]
      exact yields_throw (proper_raised hr)
  | .clause matcher name body line :: handlers =>
      rw [List.forall_mem_cons] at hhandlers
      rw [execHandlers]
      apply (sound_caught hhost matcher line r).bind
      intro caught
      split
      · apply (sound_bindException name r).bind
        intro _
        exact yields_execAll hhost body hhandlers.1 (List.forall_mem_cons.mpr ⟨hr, hhandling⟩)
      · exact yields_execHandlers hhost handlers hhandlers.2 hhandling hr

end

end Execution

/-- Whether an action runs its block round after round. -/
def Action.isLoop : Action → Bool
  | .forEach _ _ _ | .whileTrue _ _ => true
  | _ => false

/-- A loop may stand anywhere that it may stand inside of another. -/
theorem Action.WellFormed.of_isLoop {inLoop : Bool} {action : Action}
    (haction : action.WellFormed inLoop) (hloop : action.isLoop = true) :
    action.WellFormed false := by
  cases haction with
  | forEach hbody => exact .forEach hbody
  | whileTrue hbody => exact .whileTrue hbody
  | _ => cases hloop

/-- The blocks of an action. -/
def Action.blocks : Action → List Block
  | .branch branches otherwise => branches.map (·.2) ++ otherwise.toList
  | .forEach _ _ body | .whileTrue _ body | .within _ _ body => [body]
  | .attempt body handlers cleanup => body :: (handlers.map Handler.body ++ cleanup.toList)
  | _ => []

/-- A statement of a program, or of a block inside of it. -/
inductive Block.Has (program : Block) : Stmt → Prop
  | outer {stmt : Stmt} : stmt ∈ program → Has program stmt
  | inner {stmt inside : Stmt} {block : Block} : Has program stmt →
      block ∈ stmt.action.blocks → inside ∈ block → Has program inside

theorem Action.WellFormed.blocks {inLoop : Bool} {action : Action}
    (haction : action.WellFormed inLoop) {block : Block} (hblock : block ∈ action.blocks)
    {stmt : Stmt} (hstmt : stmt ∈ block) : ∃ inLoop, stmt.action.WellFormed inLoop := by
  cases haction with
  | branch hbranches hotherwise =>
      rcases List.mem_append.mp hblock with hin | hin
      · obtain ⟨b, hb, rfl⟩ := List.mem_map.mp hin
        exact ⟨_, hbranches b hb stmt hstmt⟩
      · exact ⟨_, hotherwise block (Option.mem_toList.mp hin) stmt hstmt⟩
  | forEach hbody => exact ⟨_, hbody stmt (List.mem_singleton.mp hblock ▸ hstmt)⟩
  | whileTrue hbody => exact ⟨_, hbody stmt (List.mem_singleton.mp hblock ▸ hstmt)⟩
  | within hbody => exact ⟨_, hbody stmt (List.mem_singleton.mp hblock ▸ hstmt)⟩
  | attempt hsome hbody hhandlers hcleanup =>
      rcases List.mem_cons.mp hblock with rfl | hin
      · exact ⟨_, hbody stmt hstmt⟩
      · rcases List.mem_append.mp hin with hin | hin
        · obtain ⟨handler, hhandler, rfl⟩ := List.mem_map.mp hin
          exact ⟨_, hhandlers handler hhandler stmt hstmt⟩
        · exact ⟨_, hcleanup block (Option.mem_toList.mp hin) stmt hstmt⟩
  | _ => cases hblock

/-- Every statement inside of a well-formed program is well formed where it stands. -/
theorem Block.Has.wellFormed {program : Block} {stmt : Stmt} (hstmt : program.Has stmt)
    (hprogram : ∀ s ∈ program, s.action.WellFormed false) :
    ∃ inLoop, stmt.action.WellFormed inLoop := by
  induction hstmt with
  | outer hin => exact ⟨false, hprogram _ hin⟩
  | inner hstmt hblock hin ih =>
      obtain ⟨inLoop, hwell⟩ := ih
      exact hwell.blocks hblock hin

section Running

variable {ω : Type} {host : Host ω}

/-- A statement that cannot jump is followed by the statements after it. -/
theorem execAll_cons_of_normal {fuel : Nat} {handling : List Raised} {stmt : Stmt} {s : State ω}
    (hnormal : ∀ flow s', stmt.exec host fuel handling s = .ok flow s' → flow = .normal)
    (stmts : List Stmt) : execAll host fuel handling (stmt :: stmts) s =
      (do let _ ← stmt.exec host fuel handling; execAll host fuel handling stmts) s := by
  rw [execAll]
  show EStateM.bind _ _ s = EStateM.bind _ _ s
  unfold EStateM.bind
  cases hrun : stmt.exec host fuel handling s with
  | error stop s' => rfl
  | ok flow s' =>
      cases hnormal flow s' hrun
      rfl

/-- A program that was read keeps the names in all dicts distinct. -/
theorem keyed_of_parseProgram {source : Text} {program : Block}
    (h : parseProgram source = .ok program) (hhost : host.Sound Heap.Keyed) (fuel : Nat)
    {s : State ω} (hs : s.heap.Keyed) : ((execAll host fuel [] program).left s).heap.Keyed := by
  have hwell : ∀ stmt ∈ program, stmt.action.WellFormed false := fun stmt hstmt =>
    ((wellFormed_of_parseProgram h).1 stmt hstmt).1
  have hhandling : ∀ r ∈ ([] : List Raised), r.Proper := nofun
  have hyields := yields_execAll fuel hhost program hwell hhandling
  unfold Run.left
  split
  · rename_i hrun
    exact (hyields.ok hrun).1 hs
  · rename_i hrun
    exact (hyields.error hrun).1 hs

end Running

/-- An accepted program is well formed, with distinct names for the named arguments of every call
and no more open blocks than may nest. No host that a page can have raises what an augmented
assignment to an illegal target raises. And under every host that does not, the program ends
normally or by an exception, no statement inside of it raises that, and every loop inside of it
is followed by the statements after it. -/
theorem contained_of_parseProgram {source : Text} {program : Block}
    (h : parseProgram source = .ok program) :
    ((∀ stmt ∈ program, stmt.action.WellFormed false ∧
        stmt.nesting ≤ Parser.maxBlockDepth + 1) ∧
      (∀ e ∈ expressionsBlock program, e.WellNamed) ∧
      ∃ tokens, tokenize source = .ok tokens ∧ ∀ before, before <+: tokens.map Token.kind →
        before.count .indent ≤ before.count .dedent + Parser.maxBlockDepth) ∧
    ((∀ {ω : Type}, (Host.absent : Host ω).Proper) ∧
      ∀ (r : Renderer) (depth : Nat), (r.hostTo depth).Proper) ∧
    ∀ {ω : Type} {host : Host ω}, host.Proper → ∀ (fuel : Nat) (s : State ω),
      (∀ flow s', execAll host fuel [] program s = .ok flow s' → flow = .normal) ∧
      (∀ r s', execAll host fuel [] program s = .error (.raised r) s' →
        r.cause ≠ .illegalAugmentedTarget) ∧
      ∀ stmt, program.Has stmt → ∀ handling : List Raised,
        (∀ r ∈ handling, r.cause ≠ .illegalAugmentedTarget) →
        (∀ r s', stmt.exec host fuel handling s = .error (.raised r) s' →
          r.cause ≠ .illegalAugmentedTarget) ∧
        (stmt.action.isLoop = true → ∀ stmts, execAll host fuel handling (stmt :: stmts) s =
          (do let _ ← stmt.exec host fuel handling; execAll host fuel handling stmts) s) := by
  obtain ⟨hshape, htokens⟩ := wellFormed_of_parseProgram h
  have hwell : ∀ stmt ∈ program, stmt.action.WellFormed false := fun stmt hstmt =>
    (hshape stmt hstmt).1
  refine ⟨⟨hshape, wellNamed_of_parseProgram h, htokens⟩,
    ⟨Host.proper_absent, Renderer.proper_hostTo⟩, ?_⟩
  intro ω host hhost fuel s
  have hsound := hhost.sound
  have hnone : ∀ r ∈ ([] : List Raised), r.Proper := nofun
  have hrun := yields_execAll fuel hsound program hwell hnone
  refine ⟨fun flow s' hok => (hrun.ok hok).2 rfl,
    fun r s' herror => (hrun.error herror).2 r rfl, ?_⟩
  intro stmt hstmt handling hhandling
  obtain ⟨inLoop, hstmt⟩ := hstmt.wellFormed hwell
  constructor
  · intro r s' herror
    exact ((stmt.yields_exec fuel hsound hstmt hhandling).error herror).2 r rfl
  · intro hloop stmts
    have hends := stmt.yields_exec fuel hsound (hstmt.of_isLoop hloop) hhandling
    exact execAll_cons_of_normal (fun flow s' hok => (hends.ok hok).2 rfl) stmts

/-- A loop that breaks off. -/
def brokenLoop : Stmt := .at 1 (.whileTrue (.constant (.int 1)) [.at 2 .breakLoop])

/-- A statement that doubles a number. -/
def doubling : Stmt := .at 3 (.augAssign (.name "n") .mul (.constant (.int 2)))

/-- A page on which `n` is three. -/
def threeOnPage : State Unit where
  heap := .empty
  world := ()
  scope := ⟨[("n", .int 3)], [], [], none, 0, #[]⟩

theorem contained_of_parseProgram_doubling :
    parseProgram "while 1:\n break\nn *= 2\n".toList = .ok [brokenLoop, doubling] ∧
      (∀ stmt ∈ [brokenLoop, doubling], stmt.action.WellFormed false) ∧
      (Host.absent : Host Unit).Proper ∧
      (∃ flow s', execAll Host.absent 1 [] [brokenLoop, doubling] threeOnPage = .ok flow s' ∧
        flow = .normal ∧ Entries.get? "n" s'.scope.locals = some (.int 6)) ∧
      Block.Has [brokenLoop, doubling] brokenLoop ∧ brokenLoop.action.isLoop = true ∧
      execAll Host.absent 1 [] [brokenLoop, doubling] threeOnPage =
        (do let _ ← brokenLoop.exec Host.absent 1 []
            execAll Host.absent 1 [] [doubling]) threeOnPage := by
  have hprogram : parseProgram "while 1:\n break\nn *= 2\n".toList =
      .ok [brokenLoop, doubling] := by cbv
  have hloop : Block.Has [brokenLoop, doubling] brokenLoop := .outer List.mem_cons_self
  obtain ⟨⟨hshape, -⟩, ⟨hhost, -⟩, hruns⟩ := contained_of_parseProgram hprogram
  obtain ⟨hends, -, hinside⟩ := hruns hhost 1 threeOnPage
  obtain ⟨flow, s', hrun, hn⟩ :
      ∃ flow s', execAll Host.absent 1 [] [brokenLoop, doubling] threeOnPage = .ok flow s' ∧
        Entries.get? "n" s'.scope.locals = some (.int 6) := ⟨_, _, rfl, rfl⟩
  exact ⟨hprogram, fun stmt hstmt => (hshape stmt hstmt).1, hhost,
    ⟨flow, s', hrun, hends flow s' hrun, hn⟩, hloop, rfl,
    (hinside brokenLoop hloop [] (List.forall_mem_nil _)).2 rfl [doubling]⟩

end TemplateEngine
