import TemplateEngine.Proofs.Syntax.Levels
import TemplateEngine.Proofs.Syntax.ProgramText
import TemplateEngine.Proofs.Syntax.Roots
import TemplateEngine.Proofs.Syntax.TokenLayout

/-!
# The form of statements

What the parser of statements refuses is in no program: jumps outside of loops, attempts with
neither a handler nor a cleanup, augmented assignments to several names. It takes the token that
opens a block where another level is left, and gives the block back only behind the token that
closes it. So the levels of the parser are those of the tokens, and neither nest deeper than
they may.
-/
namespace TemplateEngine

/-- What statements of an accepted program do: they jump inside of loops only, catch something
or clean up after an attempt, and add to, subtract from or multiply one name or item. -/
inductive Action.WellFormed : Bool → Action → Prop
  | expr {inLoop : Bool} {value : Expr} : WellFormed inLoop (.expr value)
  | assign {inLoop : Bool} {target : Target} {value : Expr} :
      WellFormed inLoop (.assign target value)
  | augAssign {inLoop : Bool} {target : Target} {op : BinaryOp} {value : Expr} :
      (∀ names, target ≠ .unpack names) → op ∈ [.add, .sub, .mul] →
      WellFormed inLoop (.augAssign target op value)
  | branch {inLoop : Bool} {branches : List (Expr × List Stmt)} {otherwise : Option (List Stmt)} :
      (∀ b ∈ branches, ∀ s ∈ b.2, WellFormed inLoop s.action) →
      (∀ body ∈ otherwise, ∀ s ∈ body, WellFormed inLoop s.action) →
      WellFormed inLoop (.branch branches otherwise)
  | forEach {inLoop : Bool} {target : Target} {items : Expr} {body : List Stmt} :
      (∀ s ∈ body, WellFormed true s.action) → WellFormed inLoop (.forEach target items body)
  | whileTrue {inLoop : Bool} {condition : Expr} {body : List Stmt} :
      (∀ s ∈ body, WellFormed true s.action) → WellFormed inLoop (.whileTrue condition body)
  | attempt {inLoop : Bool} {body : List Stmt} {handlers : List Handler}
      {cleanup : Option (List Stmt)} : (handlers ≠ [] ∨ cleanup ≠ none) →
      (∀ s ∈ body, WellFormed inLoop s.action) →
      (∀ handler ∈ handlers, ∀ s ∈ handler.body, WellFormed inLoop s.action) →
      (∀ body ∈ cleanup, ∀ s ∈ body, WellFormed inLoop s.action) →
      WellFormed inLoop (.attempt body handlers cleanup)
  | raise {inLoop : Bool} {exception : Option Expr} : WellFormed inLoop (.raise exception)
  | within {inLoop : Bool} {context : Expr} {name : Option Text} {body : List Stmt} :
      (∀ s ∈ body, WellFormed inLoop s.action) → WellFormed inLoop (.within context name body)
  | pass {inLoop : Bool} : WellFormed inLoop .pass
  | breakLoop : WellFormed true .breakLoop
  | continueLoop : WellFormed true .continueLoop

section Nesting

variable {depth : Nat}

theorem nestingBlock_le {stmts : List Stmt} (h : ∀ s ∈ stmts, s.nesting ≤ depth) :
    nestingBlock stmts ≤ depth + 1 := by
  induction stmts with
  | nil => exact Nat.zero_le _
  | cons s stmts ih =>
      rw [List.forall_mem_cons] at h
      exact Nat.max_le.mpr ⟨Nat.succ_le_succ h.1, ih h.2⟩

theorem nestingBranches_le {branches : List (Expr × List Stmt)}
    (h : ∀ b ∈ branches, ∀ s ∈ b.2, s.nesting ≤ depth) : nestingBranches branches ≤ depth + 1 := by
  induction branches with
  | nil => exact Nat.zero_le _
  | cons b branches ih =>
      rw [List.forall_mem_cons] at h
      have hfirst := nestingBlock_le h.1
      have hrest := ih h.2
      obtain ⟨condition, body⟩ := b
      exact Nat.max_le.mpr ⟨hfirst, hrest⟩

theorem nestingHandlers_le {handlers : List Handler}
    (h : ∀ handler ∈ handlers, ∀ s ∈ handler.body, s.nesting ≤ depth) :
    nestingHandlers handlers ≤ depth + 1 := by
  induction handlers with
  | nil => exact Nat.zero_le _
  | cons handler handlers ih =>
      rw [List.forall_mem_cons] at h
      have hfirst := nestingBlock_le h.1
      have hrest := ih h.2
      obtain ⟨matcher, name, body, line⟩ := handler
      exact Nat.max_le.mpr ⟨hfirst, hrest⟩

theorem nestingOption_le {block : Option (List Stmt)}
    (h : ∀ body ∈ block, ∀ s ∈ body, s.nesting ≤ depth) : nestingOption block ≤ depth + 1 := by
  cases block with
  | none => exact Nat.zero_le _
  | some body => exact nestingBlock_le (h body rfl)

end Nesting

namespace Parser

variable {α β : Type} {G M G' : List Token → Prop} {p : Parser α} {P : α → Prop} {Q : β → Prop}

/-- From tokens of one sort a parser gives what has a property, and leaves tokens of another. -/
def Carries (G G' : List Token → Prop) (p : Parser α) (P : α → Prop) : Prop :=
  ∀ X a X', G X → p X = .ok (a, X') → P a ∧ G' X'

theorem Carries.bind {f : α → Parser β} (hp : Carries G M p P)
    (hf : ∀ a, P a → Carries M G' (f a) Q) : Carries G G' (p >>= f) Q := by
  intro X b X' hX hrun
  obtain ⟨a, mid, hfirst, hrest⟩ := exists_of_ok hrun
  obtain ⟨ha, hmid⟩ := hp X a mid hX hfirst
  exact hf a ha mid b X' hmid hrest

theorem Carries.of_gives (hp : Gives G' p P) (hG : ∀ X, G X → G' X) : Carries G G' p P :=
  fun X a X' hX hrun => hp X a X' (hG X hX) hrun

theorem carries_fail {fault : SyntaxFault} : Carries G G' (fail fault : Parser α) P := by
  intro X a X' _ hrun
  cases hrun

theorem carries_failUnexpected : Carries G G' (failUnexpected : Parser α) P := by
  intro X a X' _ hrun
  cases hrun

theorem carries_at {k : TokenKind} {f : Bool → Parser β}
    (htrue : Carries (fun X => G X ∧ (headToken X).kind = k) G' (f true) Q)
    (hfalse : Carries G G' (f false) Q) : Carries G G' (at_ k >>= f) Q := by
  intro X b X' hX hrun
  obtain ⟨found, mid, hat, hrest⟩ := exists_of_ok hrun
  cases hat
  cases hk : decide ((headToken X).kind = k) with
  | true => exact htrue X b X' ⟨hX, of_decide_eq_true hk⟩ (by rwa [hk] at hrest)
  | false => exact hfalse X b X' hX (by rwa [hk] at hrest)

/-- The tokens that open and close blocks are not among these. -/
def Flat (u : List TokenKind) : Prop := .indent ∉ u ∧ .dedent ∉ u

theorem flat_nil : Flat [] := ⟨List.not_mem_nil, List.not_mem_nil⟩

theorem Flat.cons {k : TokenKind} {u : List TokenKind} (hindent : k ≠ .indent)
    (hdedent : k ≠ .dedent) (hu : Flat u) : Flat (k :: u) :=
  ⟨List.not_mem_cons_of_ne_of_not_mem hindent.symm hu.1,
    List.not_mem_cons_of_ne_of_not_mem hdedent.symm hu.2⟩

theorem Flat.append {u v : List TokenKind} (hu : Flat u) (hv : Flat v) : Flat (u ++ v) :=
  ⟨List.not_mem_append hu.1 hv.1, List.not_mem_append hu.2 hv.2⟩

/-- The ends of lines and blocks are not among the tokens of expressions. -/
theorem flat_of_levels {listed : Bool} {level level' : Nat} {u : List TokenKind}
    (h : levels? listed level u = some level') : Flat u := by
  induction u generalizing level with
  | nil => exact flat_nil
  | cons k u ih =>
      rw [levels?_cons, Option.bind_eq_some_iff] at h
      obtain ⟨mid, hk, hu⟩ := h
      exact (ih hu).cons (by rintro rfl; cases hk) (by rintro rfl; cases hk)

theorem flat_expression : Takes expression fun u _ => Flat u ∧ u ≠ [] := by
  refine takes_expression.mono fun u e he => ?_
  have hwhole := he.whole fun _ _ => Derives.whole
  exact ⟨flat_of_levels hwhole.contained, hwhole.nonempty⟩

theorem flat_expressionList : Takes expressionList fun u _ => Flat u ∧ u ≠ [] := by
  refine takes_expression.bind fun u first hfirst => ?_
  have hwhole := hfirst.whole fun _ _ => Derives.whole
  apply takes_at
  · apply Takes.from
    refine TakesFrom.bind (takes_looping fun fuel => takes_tupleLoop (takes_operand _)
      endsExpression (fuel + 1)) fun w items hitems => ?_
    have hall := (hitems u first hfirst).contained fun _ _ => Derives.whole
    exact takes_pure ⟨by simpa using flat_of_levels hall, by simp [hwhole.nonempty]⟩
  · exact takes_pure ⟨by simpa using flat_of_levels hwhole.contained, by simp [hwhole.nonempty]⟩

theorem flat_lineEnd : Takes lineEnd fun u _ => Flat u := by
  refine takes_skip (by simp) (takes_pure (flat_nil.cons (by simp) (by simp))) ?_
  refine takes_at ?_ takes_failWanted
  exact takes_pure flat_nil

theorem flat_alias : Takes alias? fun u _ => Flat u := by
  refine takes_skip (by simp) ?_ (takes_pure flat_nil)
  exact takes_identifier fun name => takes_pure
    (.cons (by simp) (by simp) (flat_nil.cons (by simp) (by simp)))

theorem flat_namesLoop (fuel : Nat) : Takes (namesLoop fuel) fun u _ => Flat u := by
  induction fuel with
  | zero => exact takes_pure flat_nil
  | succ fuel ih =>
      refine takes_skip (by simp) ?_ (takes_pure flat_nil)
      refine takes_identifier fun name => ih.bind fun u names hu => takes_pure ?_
      rw [List.append_nil]
      exact .cons (by simp) (by simp) (hu.cons (by simp) (by simp))

theorem takes_target (e : Expr) : Takes (target e) fun u _ => u = [] := by
  unfold target
  split
  · exact takes_pure rfl
  · exact takes_fail

theorem of_augmentedOp {k : TokenKind} {op : BinaryOp} (h : augmentedOp? k = some op) :
    op ∈ [.add, .sub, .mul] ∧ k ≠ .indent ∧ k ≠ .dedent ∧ k ≠ .endOfInput := by
  unfold augmentedOp? at h
  split at h <;> cases h <;> simp

/-- A simple statement is well formed, and takes a token at least. -/
theorem takes_simple (inLoop : Bool) : Takes (simple inLoop) fun u a =>
    Flat u ∧ u ≠ [] ∧ a.WellFormed inLoop ∧ a.nesting = 0 := by
  have hword (k : Keyword) : Flat [.keyword k] := flat_nil.cons (by simp) (by simp)
  unfold simple
  apply takes_kind
  intro k
  split
  · exact takes_bump (by simp) (takes_pure ⟨hword _, by simp, .pass, rfl⟩)
  · split
    · rename_i hloop
      cases hloop
      exact takes_bump (by simp) (takes_pure ⟨hword _, by simp, .breakLoop, rfl⟩)
    · exact takes_fail
  · split
    · rename_i hloop
      cases hloop
      exact takes_bump (by simp) (takes_pure ⟨hword _, by simp, .continueLoop, rfl⟩)
    · exact takes_fail
  · refine takes_bump (by simp) (takes_at ?_ (takes_at ?_ ?_))
    · exact takes_pure ⟨hword _, by simp, .raise, rfl⟩
    · exact takes_pure ⟨hword _, by simp, .raise, rfl⟩
    · refine flat_expression.bind fun u e hu => takes_pure ⟨?_, by simp, .raise, rfl⟩
      rw [List.append_nil]
      exact hu.1.cons (by simp) (by simp)
  · apply Takes.from
    refine flat_expressionList.bind fun u e hu => takes_skip (by simp) ?_ ?_
    · refine (takes_target e).bind fun v t hv => flat_expressionList.bind fun w value hw =>
        takes_pure ⟨?_, by simp, .assign, rfl⟩
      subst hv
      exact hu.1.append (.cons (by simp) (by simp) (by simpa using hw.1))
    · apply takes_kind
      intro k
      split
      · rename_i op hop
        obtain ⟨hop, hindent, hdedent, hend⟩ := of_augmentedOp hop
        refine takes_bump hend ((takes_target e).bind fun v t hv => ?_)
        subst hv
        split
        · exact takes_fail
        · rename_i hnames
          refine flat_expression.bind fun w value hw => takes_pure
            ⟨hu.1.append (.cons hindent hdedent (by simpa using hw.1)), by simp, ?_, rfl⟩
          exact .augAssign (fun names heq => hnames names heq) hop
      · exact takes_pure (by simpa using ⟨hu.1, hu.2, .expr, rfl⟩)

/-- What is left of some tokens where a number of indented blocks are open, never more than may
nest: so many tokens at most. -/
structure Inside (all : List Token) (level room : Nat) (X : List Token) : Prop where
  split : ∃ u, all = u ++ X ∧
    (u.map Token.kind).count .indent = (u.map Token.kind).count .dedent + level ∧
    ∀ before, before <+: u.map Token.kind →
      before.count .indent ≤ before.count .dedent + maxBlockDepth
  length : X.length ≤ room

section Levels

variable {all : List Token} {level room : Nat} {X : List Token}

/-- One more token is taken, and moves from one level to another. -/
theorem Inside.step {t : Token} {level' : Nat} (h : Inside all level (room + 1) (t :: X))
    (hlevel : level + [t.kind].count .indent = level' + [t.kind].count .dedent)
    (hdepth : level' ≤ maxBlockDepth) : Inside all level' room X := by
  obtain ⟨⟨u, hall, hcount, hbound⟩, hlength⟩ := h
  have hmore : ((u ++ [t]).map Token.kind).count .indent =
      ((u ++ [t]).map Token.kind).count .dedent + level' := by
    rw [List.map_append, List.map_singleton, List.count_append, List.count_append]
    omega
  refine ⟨⟨u ++ [t], by simp [hall], hmore, fun before hbefore => ?_⟩,
    Nat.le_of_succ_le_succ hlength⟩
  rw [List.map_append, List.map_singleton, List.prefix_concat_iff] at hbefore
  rcases hbefore with rfl | hbefore
  · rw [List.map_append, List.map_singleton] at hmore
    omega
  · exact hbound before hbefore

theorem Inside.level_le (h : Inside all level room X) : level ≤ maxBlockDepth := by
  obtain ⟨⟨u, -, hcount, hbound⟩, -⟩ := h
  have hall := hbound _ (List.prefix_refl _)
  omega

theorem Inside.mono {room' : Nat} (h : Inside all level room X) (hroom : X.length ≤ room') :
    Inside all level room' X := ⟨h.split, hroom⟩

theorem Inside.tail {t : Token} (h : Inside all level (room + 1) (t :: X))
    (hindent : t.kind ≠ .indent) (hdedent : t.kind ≠ .dedent) : Inside all level room X :=
  h.step (by simp [hindent, hdedent]) h.level_le

/-- Tokens that neither open nor close blocks are taken. -/
theorem Inside.flat {u : List Token} (h : Inside all level room (u ++ X))
    (hu : Flat (u.map Token.kind)) : ∃ rest, room = u.length + rest ∧ Inside all level rest X := by
  induction u generalizing room with
  | nil => exact ⟨room, (Nat.zero_add room).symm, h⟩
  | cons t u ih =>
      obtain ⟨room, rfl⟩ := Nat.exists_eq_add_one.mpr (Nat.lt_of_lt_of_le (Nat.succ_pos _) h.length)
      rw [List.map_cons] at hu
      have hnext : Inside all level room (u ++ X) := Inside.tail h
        (fun heq => hu.1 (heq ▸ List.mem_cons_self)) fun heq => hu.2 (heq ▸ List.mem_cons_self)
      obtain ⟨rest, rfl, hrest⟩ := ih hnext
        ⟨fun hin => hu.1 (List.mem_cons_of_mem _ hin), fun hin => hu.2 (List.mem_cons_of_mem _ hin)⟩
      exact ⟨rest, by simp only [List.length_cons]; omega, hrest⟩

/-- At least one token has been taken. -/
def After (all : List Token) (level room : Nat) (X : List Token) : Prop :=
  ∃ rest, room = rest + 1 ∧ Inside all level rest X

/-- The token that opens a block has been taken. -/
def Entered (all : List Token) (level room : Nat) (X : List Token) : Prop :=
  ∃ t : Token, t.kind = .indent ∧ Inside all level room (t :: X)

theorem After.inside (h : After all level room X) : Inside all level room X := by
  obtain ⟨rest, rfl, h⟩ := h
  exact h.mono (Nat.le_succ_of_le h.length)

section Walk

variable {T : List TokenKind → α → Prop}

theorem Takes.gives_inside (h : Takes p T) (hT : ∀ u a, T u a → Flat u ∧ P a) :
    Gives (Inside all level room) p P := by
  intro X a X' hX hrun
  obtain ⟨u, rfl, ha⟩ := h X a X' trivial hrun
  obtain ⟨hflat, ha⟩ := hT _ a ha
  obtain ⟨rest, rfl, hrest⟩ := hX.flat hflat
  exact ⟨ha, hrest.mono (Nat.le_trans hrest.length (Nat.le_add_left _ _))⟩

theorem Takes.carries_after (h : Takes p T) (hT : ∀ u a, T u a → Flat u ∧ u ≠ [] ∧ P a) :
    Carries (Inside all level room) (After all level room) p P := by
  intro X a X' hX hrun
  obtain ⟨u, rfl, ha⟩ := h X a X' trivial hrun
  obtain ⟨hflat, hne, hP⟩ := hT _ a ha
  obtain ⟨rest, rfl, hrest⟩ := hX.flat hflat
  cases u with
  | nil => exact absurd rfl hne
  | cons t u =>
      refine ⟨hP, u.length + rest, by simp only [List.length_cons]; omega, hrest.mono ?_⟩
      exact Nat.le_trans hrest.length (Nat.le_add_left _ _)

theorem Gives.after (h : ∀ rest, Gives (Inside all level rest) p P) :
    Gives (After all level room) p P := by
  rintro X a X' ⟨rest, rfl, hX⟩ hrun
  obtain ⟨ha, hX'⟩ := h rest X a X' hX hrun
  exact ⟨ha, rest, rfl, hX'⟩

theorem takes_expect_self {k : TokenKind} (hk : k ≠ .endOfInput) :
    Takes (expect k) fun u _ => u = [k] := by
  have h := takes_expect (c := pure) (T := fun u _ => u = [k]) hk (takes_pure rfl)
  rwa [bind_pure] at h

theorem takes_skip_self {k : TokenKind} (hk : k ≠ .endOfInput) :
    Takes (skip k) fun u _ => u ⊆ [k] := by
  have h := takes_skip (g := pure) (T := fun u _ => u ⊆ [k]) hk
    (takes_pure (List.Subset.refl _)) (takes_pure (List.nil_subset _))
  rwa [bind_pure] at h

theorem carries_skip {k : TokenKind} (hend : k ≠ .endOfInput) (hindent : k ≠ .indent)
    (hdedent : k ≠ .dedent) {f : Bool → Parser β}
    (htrue : Carries (After all level room) G' (f true) Q)
    (hfalse : Carries (Inside all level room) G' (f false) Q) :
    Carries (Inside all level room) G' (skip k >>= f) Q := by
  intro X b X' hX hrun
  by_cases hkind : (headToken X).kind = k
  · obtain ⟨s, rest, rfl⟩ := exists_token hkind hend
    rw [bind_skip] at hrun
    obtain ⟨room, rfl⟩ := Nat.exists_eq_add_one.mpr (Nat.lt_of_lt_of_le (Nat.succ_pos _) hX.length)
    exact htrue rest b X' ⟨room, rfl, hX.tail hindent hdedent⟩ hrun
  · rw [bind_skip_false hkind] at hrun
    exact hfalse X b X' hX hrun

/-- The token that closes a block is taken if it is there. -/
theorem carries_skip_dedent {f : Bool → Parser β}
    (htrue : Carries (Inside all level room) G' (f true) Q)
    (hfalse : Carries (Inside all (level + 1) room) G' (f false) Q) :
    Carries (Inside all (level + 1) room) G' (skip .dedent >>= f) Q := by
  intro X b X' hX hrun
  by_cases hkind : (headToken X).kind = .dedent
  · obtain ⟨s, rest, rfl⟩ := exists_token hkind (by simp)
    rw [bind_skip] at hrun
    obtain ⟨room, rfl⟩ := Nat.exists_eq_add_one.mpr (Nat.lt_of_lt_of_le (Nat.succ_pos _) hX.length)
    have hclosed : Inside all level room rest := hX.step (by simp) (Nat.le_of_succ_le hX.level_le)
    exact htrue rest b X' (hclosed.mono (Nat.le_succ_of_le hclosed.length)) hrun
  · rw [bind_skip_false hkind] at hrun
    exact hfalse X b X' hX hrun

theorem Carries.after {level' : Nat} (h : ∀ rest, room = rest + 1 →
    Carries (Inside all level rest) (Inside all level' rest) p P) :
    Carries (After all level room) (Inside all level' room) p P := by
  rintro X a X' ⟨rest, hroom, hX⟩ hrun
  obtain ⟨ha, hX'⟩ := h rest hroom X a X' hX hrun
  exact ⟨ha, hX'.mono (hX'.length.trans (by omega))⟩

theorem flat_singleton {k : TokenKind} (hindent : k ≠ .indent) (hdedent : k ≠ .dedent) :
    Flat [k] := flat_nil.cons hindent hdedent

theorem gives_word (word : Keyword) :
    Gives (Inside all level room) (expect (.keyword word)) fun _ => True :=
  (takes_expect_self (by simp)).gives_inside fun u _ hu =>
    ⟨hu ▸ flat_singleton (by simp) (by simp), trivial⟩

theorem carries_word (word : Keyword) :
    Carries (Inside all level room) (After all level room) (expect (.keyword word)) fun _ => True :=
  (takes_expect_self (by simp)).carries_after fun u _ hu =>
    ⟨hu ▸ flat_singleton (by simp) (by simp), by simp [hu], trivial⟩

theorem gives_mark (mark : Symbol) :
    Gives (Inside all level room) (expectSymbol mark) fun _ => True :=
  (takes_expect_self (by simp)).gives_inside fun u _ hu =>
    ⟨hu ▸ flat_singleton (by simp) (by simp), trivial⟩

theorem gives_skip_word (word : Keyword) :
    Gives (Inside all level room) (skip (.keyword word)) fun _ => True :=
  (takes_skip_self (by simp)).gives_inside fun u _ hu => by
    refine ⟨⟨fun hin => ?_, fun hin => ?_⟩, trivial⟩ <;> simpa using hu hin

theorem gives_anyExpression : Gives (Inside all level room) expression fun _ => True :=
  flat_expression.gives_inside fun _ _ hu => ⟨hu.1, trivial⟩

theorem gives_anyAlias : Gives (Inside all level room) alias? fun _ => True :=
  flat_alias.gives_inside fun _ _ hu => ⟨hu, trivial⟩

theorem gives_anyIdentifier : Gives (Inside all level room) identifier fun _ => True := by
  have h := takes_identifier (i := pure) (T := fun u _ => Flat u) fun name =>
    takes_pure (flat_singleton (by simp) (by simp))
  rw [bind_pure] at h
  exact h.gives_inside fun u _ hu => ⟨hu, trivial⟩

/-- The current token is taken where it is known. -/
theorem carries_bump {k : TokenKind} (hend : k ≠ .endOfInput) (hindent : k ≠ .indent)
    (hdedent : k ≠ .dedent) : Carries (fun X => Inside all level room X ∧ (headToken X).kind = k)
      (After all level room) bump fun _ => True := by
  rintro X _ X' ⟨hX, hkind⟩ hrun
  obtain ⟨s, rest, rfl⟩ := exists_token hkind hend
  cases hrun
  obtain ⟨room, rfl⟩ := Nat.exists_eq_add_one.mpr (Nat.lt_of_lt_of_le (Nat.succ_pos _) hX.length)
  exact ⟨trivial, room, rfl, hX.tail hindent hdedent⟩

/-- A token that opens a block is taken if it is there. -/
theorem carries_skip_indent {f : Bool → Parser β}
    (htrue : Carries (Entered all level room) G' (f true) Q)
    (hfalse : Carries (Inside all level room) G' (f false) Q) :
    Carries (Inside all level room) G' (skip .indent >>= f) Q := by
  intro X b X' hX hrun
  by_cases hkind : (headToken X).kind = .indent
  · obtain ⟨s, rest, rfl⟩ := exists_token hkind (by simp)
    rw [bind_skip] at hrun
    exact htrue rest b X' ⟨⟨.indent, s⟩, rfl, hX⟩ hrun
  · rw [bind_skip_false hkind] at hrun
    exact hfalse X b X' hX hrun

end Walk

/-- Statements of a block that are well formed and in which no more blocks nest than may. -/
def Shaped (inLoop : Bool) (depth : Nat) (stmts : List Stmt) : Prop :=
  ∀ s ∈ stmts, s.action.WellFormed inLoop ∧ s.nesting ≤ depth

/-- A well-formed action in whose blocks no more blocks nest than may. -/
structure ShapedAction (inLoop : Bool) (depth : Nat) (a : Action) : Prop where
  wellFormed : a.WellFormed inLoop
  nesting : a.nesting ≤ depth + 1

theorem shaped_nil {inLoop : Bool} {depth : Nat} : Shaped inLoop depth [] :=
  fun _ h => absurd h List.not_mem_nil

section Blocks

variable {depth : Nat} {body : Bool → Parser Block}
  (hbody : ∀ inLoop room, Carries (Entered all level room) (Inside all level room) (body inLoop)
    (Shaped inLoop depth))
include hbody

theorem shaped_block (inLoop : Bool) :
    Gives (Inside all level room) (block body inLoop) (Shaped inLoop depth) := by
  refine (gives_mark _).bind fun _ _ => carries_at ?_ ?_
  · refine Carries.bind (carries_bump (by simp) (by simp) (by simp)) fun _ _ => ?_
    refine Carries.of_gives ?_ fun X hX => hX.inside
    refine carries_skip_indent ?_ ?_
    · exact hbody inLoop room
    · exact gives_pure shaped_nil
  · refine gives_line.bind fun n _ => ?_
    refine ((takes_simple inLoop).gives_inside (P := fun a => a.WellFormed inLoop ∧ a.nesting = 0)
      fun u a h => ⟨h.1, h.2.2⟩).bind fun action haction => ?_
    refine (flat_lineEnd.gives_inside fun u _ hu => ⟨hu, trivial⟩).bind fun _ _ => gives_pure ?_
    exact List.forall_mem_singleton.mpr ⟨haction.1, haction.2.trans_le (Nat.zero_le _)⟩

theorem shaped_branchesLoop (inLoop : Bool) (fuel : Nat) :
    Gives (Inside all level room) (branchesLoop body inLoop fuel) fun found =>
      (∀ b ∈ found.1, Shaped inLoop depth b.2) ∧ ∀ b ∈ found.2, Shaped inLoop depth b := by
  induction fuel with
  | zero => exact gives_pure ⟨nofun, nofun⟩
  | succ fuel ih =>
      refine (gives_skip_word _).bind fun isElif _ => ?_
      split
      · exact gives_anyExpression.bind fun condition _ =>
          (shaped_block hbody inLoop).bind fun inner hinner => ih.bind fun found hfound =>
          gives_pure ⟨List.forall_mem_cons.mpr ⟨hinner, hfound.1⟩, hfound.2⟩
      · refine (gives_skip_word _).bind fun isElse _ => ?_
        split
        · refine (shaped_block hbody inLoop).bind fun inner hinner => gives_pure ⟨nofun, ?_⟩
          rintro b ⟨⟩
          exact hinner
        · exact gives_pure ⟨nofun, nofun⟩

theorem shaped_ifStatement (inLoop : Bool) :
    Carries (Inside all level room) (After all level room) (ifStatement body inLoop)
      (ShapedAction inLoop depth) := by
  refine (carries_word _).bind fun _ _ => Gives.after fun rest => gives_anyExpression.bind
    fun condition _ => (shaped_block hbody inLoop).bind fun inner hinner =>
    (Gives.looping (shaped_branchesLoop hbody inLoop)).bind fun found hfound => gives_pure ?_
  have hbranches : ∀ b ∈ (condition, inner) :: found.1, Shaped inLoop depth b.2 :=
    List.forall_mem_cons.mpr ⟨hinner, hfound.1⟩
  refine ⟨.branch (fun b hb s hs => (hbranches b hb s hs).1)
    fun b hb s hs => (hfound.2 b hb s hs).1, Nat.max_le.mpr ⟨?_, ?_⟩⟩
  · exact nestingBranches_le fun b hb s hs => (hbranches b hb s hs).2
  · exact nestingOption_le fun b hb s hs => (hfound.2 b hb s hs).2

theorem shaped_forStatement (inLoop : Bool) :
    Carries (Inside all level room) (After all level room) (forStatement body)
      (ShapedAction inLoop depth) := by
  refine (carries_word _).bind fun _ _ => Gives.after fun rest => gives_anyIdentifier.bind
    fun first _ => (Gives.looping fun fuel => (flat_namesLoop fuel).gives_inside
      fun u _ hu => ⟨hu, trivial⟩).bind fun others _ => (gives_word _).bind fun _ _ =>
    (flat_expressionList.gives_inside fun u _ hu => ⟨hu.1, trivial⟩).bind fun items _ =>
    (shaped_block hbody true).bind fun inner hinner => gives_pure ?_
  exact ⟨.forEach fun s hs => (hinner s hs).1, nestingBlock_le fun s hs => (hinner s hs).2⟩

theorem shaped_whileStatement (inLoop : Bool) :
    Carries (Inside all level room) (After all level room) (whileStatement body)
      (ShapedAction inLoop depth) := by
  refine (carries_word _).bind fun _ _ => Gives.after fun rest => gives_anyExpression.bind
    fun condition _ => (shaped_block hbody true).bind fun inner hinner => gives_pure ?_
  exact ⟨.whileTrue fun s hs => (hinner s hs).1, nestingBlock_le fun s hs => (hinner s hs).2⟩

theorem shaped_handlersLoop (inLoop : Bool) (fuel : Nat) :
    Gives (Inside all level room) (handlersLoop body inLoop fuel) fun found =>
      ∀ handler ∈ found, Shaped inLoop depth handler.body := by
  induction fuel generalizing room with
  | zero => exact gives_pure nofun
  | succ fuel ih =>
      refine carries_at ?_ (gives_pure nofun)
      have hline : Gives (fun X => Inside all level room X ∧ (headToken X).kind =
        .keyword .exceptWord) line fun _ => True := gives_line
      refine Carries.bind hline fun n _ => ?_
      refine Carries.bind (carries_bump (by simp) (by simp) (by simp)) fun _ _ => ?_
      refine Carries.of_gives ?_ fun X hX => hX.inside
      exact Gives.bind gives_at fun isBare _ => .unless (P := fun _ => True) trivial
        gives_anyExpression fun matcher _ => gives_anyAlias.bind fun name _ =>
        (shaped_block hbody inLoop).bind fun inner hinner => ih.bind fun handlers hhandlers =>
        gives_pure (List.forall_mem_cons.mpr ⟨hinner, hhandlers⟩)

theorem shaped_tryStatement (inLoop : Bool) :
    Carries (Inside all level room) (After all level room) (tryStatement body inLoop)
      (ShapedAction inLoop depth) := by
  refine (carries_word _).bind fun _ _ => Gives.after fun rest =>
    (shaped_block hbody inLoop).bind fun inner hinner =>
    (Gives.looping (shaped_handlersLoop hbody inLoop)).bind fun handlers hhandlers =>
    (gives_skip_word _).bind fun isFinally _ =>
    .when (P := fun cleanup => ∀ b ∈ cleanup, Shaped inLoop depth b) nofun
      ((shaped_block hbody inLoop).mono fun b hb => ?_) fun cleanup hcleanup => ?_
  · rintro b' ⟨⟩
    exact hb
  · dsimp only
    split
    · exact Gives.bind gives_fail fun _ (h : False) => h.elim
    · rename_i hsome
      refine gives_pure ⟨.attempt ?_ (fun s hs => (hinner s hs).1)
        (fun handler hhandler s hs => (hhandlers handler hhandler s hs).1)
        fun b hb s hs => (hcleanup b hb s hs).1, ?_⟩
      · cases handlers with
        | nil =>
            cases cleanup with
            | none => exact absurd rfl hsome
            | some b => exact .inr nofun
        | cons handler handlers => exact .inl nofun
      · refine Nat.max_le.mpr ⟨nestingBlock_le fun s hs => (hinner s hs).2,
          Nat.max_le.mpr ⟨?_, ?_⟩⟩
        · exact nestingHandlers_le fun handler hhandler s hs => (hhandlers handler hhandler s hs).2
        · exact nestingOption_le fun b hb s hs => (hcleanup b hb s hs).2

theorem shaped_withStatement (inLoop : Bool) :
    Carries (Inside all level room) (After all level room) (withStatement body inLoop)
      (ShapedAction inLoop depth) := by
  refine (carries_word _).bind fun _ _ => Gives.after fun rest => gives_anyExpression.bind
    fun context _ => gives_anyAlias.bind fun name _ =>
    (shaped_block hbody inLoop).bind fun inner hinner => gives_pure ?_
  exact ⟨.within fun s hs => (hinner s hs).1, nestingBlock_le fun s hs => (hinner s hs).2⟩

/-- A statement takes a token at least, and gives back the blocks it opens. -/
theorem shaped_statement (inLoop : Bool) :
    Carries (Inside all level room) (After all level room) (statement body inLoop) fun s =>
      s.action.WellFormed inLoop ∧ s.nesting ≤ depth + 1 := by
  have hat (n : Nat) {p : Parser Action}
      (hp : Carries (Inside all level room) (After all level room) p (ShapedAction inLoop depth)) :
      Carries (Inside all level room) (After all level room)
        (p >>= fun action => pure (Stmt.at n action)) fun s =>
          s.action.WellFormed inLoop ∧ s.nesting ≤ depth + 1 :=
    hp.bind fun action haction => gives_pure ⟨haction.wellFormed, haction.nesting⟩
  refine Carries.bind gives_line fun n _ => Carries.bind gives_kind fun k _ => ?_
  split
  · exact hat n (shaped_ifStatement hbody inLoop)
  · exact hat n (shaped_forStatement hbody inLoop)
  · exact hat n (shaped_whileStatement hbody inLoop)
  · exact hat n (shaped_tryStatement hbody inLoop)
  · exact hat n (shaped_withStatement hbody inLoop)
  · exact carries_fail
  · exact carries_fail
  · exact carries_fail
  · exact carries_fail
  · exact carries_fail
  · exact carries_failUnexpected
  · refine ((takes_simple inLoop).carries_after (P := fun a => a.WellFormed inLoop ∧ a.nesting = 0)
      fun u a h => h).bind fun action haction => Gives.bind (Gives.after fun rest =>
      flat_lineEnd.gives_inside fun u _ hu => ⟨hu, trivial⟩) fun _ _ => gives_pure ?_
    exact ⟨haction.1, haction.2.trans_le (Nat.zero_le _)⟩

end Blocks

section Programs

/-- The end of the input is the last token, and all blocks are closed by then. -/
structure Closed (kinds : List TokenKind) : Prop where
  ends : ∃ before, kinds = before ++ [.endOfInput] ∧ .endOfInput ∉ before
  balanced : kinds.count .indent = kinds.count .dedent

variable (hall : Closed (all.map Token.kind))
include hall

/-- At the end of the input no blocks are open. -/
theorem Inside.at_end (h : Inside all level room X) (hend : (headToken X).kind = .endOfInput) :
    level = 0 ∧ ∀ before, before <+: all.map Token.kind →
      before.count .indent ≤ before.count .dedent + maxBlockDepth := by
  obtain ⟨⟨u, hsplit, hcount, hbound⟩, -⟩ := h
  obtain ⟨front, hkinds, hfront⟩ := hall.ends
  rw [hsplit, List.map_append] at hkinds
  have hrest : X.map Token.kind ⊆ [.endOfInput] := by
    cases X with
    | nil => exact List.nil_subset _
    | cons t X =>
        have hkind : t.kind = .endOfInput := hend
        obtain hnil | ⟨others, last, hlast⟩ := (X.map Token.kind).eq_nil_or_concat'
        · simp [hkind, hnil]
        · -- then the end would come twice
          rw [List.map_cons, hkind, hlast, ← List.cons_append, ← List.append_assoc,
            ← List.concat_eq_append, ← List.concat_eq_append] at hkinds
          have hearlier := (List.concat_inj.mp hkinds).1
          exact absurd (hearlier ▸ List.mem_append_right _ List.mem_cons_self) hfront
  have hindent : (X.map Token.kind).count .indent = 0 :=
    List.count_eq_zero.mpr fun hin => nomatch List.mem_singleton.mp (hrest hin)
  have hdedent : (X.map Token.kind).count .dedent = 0 :=
    List.count_eq_zero.mpr fun hin => nomatch List.mem_singleton.mp (hrest hin)
  have hbalanced := hall.balanced
  rw [hsplit, List.map_append, List.count_append, List.count_append] at hbalanced
  refine ⟨by omega, fun before hbefore => ?_⟩
  rw [hsplit, List.map_append] at hbefore
  rcases List.prefix_or_prefix_of_prefix hbefore (List.prefix_append _ _) with hearly | ⟨w, rfl⟩
  · exact hbound before hearly
  · have hw := (List.prefix_append_right_inj _).mp hbefore
    have hnone := hw.sublist.count_le .indent
    rw [List.count_append, List.count_append]
    omega

/-- Statements of an indented block, up to the token that closes it. -/
theorem shaped_blockLoop {depth : Nat} {body : Bool → Parser Block} (hbody : ∀ inLoop room,
    Carries (Entered all (level + 1) room) (Inside all (level + 1) room) (body inLoop)
      (Shaped inLoop depth)) (inLoop : Bool) {fuel : Nat} (hfuel : room < fuel) :
    Carries (Inside all (level + 1) room) (Inside all level room) (blockLoop body inLoop fuel)
      (Shaped inLoop (depth + 1)) := by
  induction fuel generalizing room with
  | zero => exact absurd hfuel (Nat.not_lt_zero _)
  | succ fuel ih =>
      have hmore : Carries (After all (level + 1) room) (Inside all level room)
          (blockLoop body inLoop fuel) (Shaped inLoop (depth + 1)) :=
        Carries.after fun rest hrest => ih (by omega)
      refine carries_skip_dedent (gives_pure shaped_nil) (carries_at ?_ ?_)
      · rintro X b X' ⟨hX, hend⟩ _
        exact absurd (hX.at_end hall hend).1 (Nat.succ_ne_zero level)
      · refine carries_skip (by simp) (by simp) (by simp) hmore ?_
        exact (shaped_statement hbody inLoop).bind fun first hfirst => hmore.bind fun rest hrest =>
          gives_pure (List.forall_mem_cons.mpr ⟨hfirst, hrest⟩)

/-- The statements of an indented block, where so many levels are left. -/
theorem shaped_blockBody {depth : Nat} (hdepth : level + depth = maxBlockDepth) (inLoop : Bool)
    (room : Nat) : Carries (Entered all level room) (Inside all level room) (blockBody depth inLoop)
      (Shaped inLoop depth) := by
  induction depth generalizing level inLoop room with
  | zero => exact carries_fail
  | succ depth ih =>
      rintro X b X' ⟨t, ht, hX⟩ hrun
      obtain ⟨room, rfl⟩ :=
        Nat.exists_eq_add_one.mpr (Nat.lt_of_lt_of_le (Nat.succ_pos _) hX.length)
      have hinner : Inside all (level + 1) X.length X :=
        (hX.step (by simp [ht]) (by omega)).mono (Nat.le_refl _)
      have hbody (inLoop : Bool) (room : Nat) : Carries (Entered all (level + 1) room)
          (Inside all (level + 1) room) (blockBody depth inLoop) (Shaped inLoop depth) :=
        ih (by omega) inLoop room
      obtain ⟨hb, hrest⟩ :=
        shaped_blockLoop hall hbody inLoop (Nat.lt_succ_self _) X b X' hinner hrun
      exact ⟨hb, hrest.mono (hrest.length.trans ((Nat.le_succ _).trans hX.length))⟩

/-- Statements up to the end of the input. -/
theorem shaped_programLoop {fuel : Nat} (hfuel : room < fuel) :
    Carries (Inside all 0 room) (fun X => Inside all 0 room X ∧ (headToken X).kind = .endOfInput)
      (programLoop fuel) (Shaped false (maxBlockDepth + 1)) := by
  have hbody (inLoop : Bool) (room : Nat) : Carries (Entered all 0 room) (Inside all 0 room)
      (blockBody maxBlockDepth inLoop) (Shaped inLoop maxBlockDepth) :=
    shaped_blockBody hall (Nat.zero_add _) inLoop room
  induction fuel generalizing room with
  | zero => exact absurd hfuel (Nat.not_lt_zero _)
  | succ fuel ih =>
      have hmore : Carries (After all 0 room)
          (fun X => Inside all 0 room X ∧ (headToken X).kind = .endOfInput) (programLoop fuel)
          (Shaped false (maxBlockDepth + 1)) := by
        rintro X b X' ⟨rest, rfl, hX⟩ hrun
        obtain ⟨hb, hX', hend⟩ := ih (by omega) X b X' hX hrun
        exact ⟨hb, hX'.mono (Nat.le_succ_of_le hX'.length), hend⟩
      refine carries_at ?_ ?_
      · exact gives_pure shaped_nil
      · refine carries_skip (by simp) (by simp) (by simp) hmore ?_
        exact (shaped_statement hbody false).bind fun first hfirst => hmore.bind fun rest hrest =>
          gives_pure (List.forall_mem_cons.mpr ⟨hfirst, hrest⟩)

end Programs

end Levels

end Parser

/-- An accepted program is well formed, and at every place of its source no more indented blocks
are open than may nest. A statement stands inside of one more block at most, which is the one on
the line of its header. -/
theorem wellFormed_of_parseProgram {source : Text} {program : Block}
    (h : parseProgram source = .ok program) :
    (∀ s ∈ program, s.action.WellFormed false ∧ s.nesting ≤ Parser.maxBlockDepth + 1) ∧
    ∃ tokens, tokenize source = .ok tokens ∧ ∀ before, before <+: tokens.map Token.kind →
      before.count .indent ≤ before.count .dedent + Parser.maxBlockDepth := by
  unfold parseProgram Parser.onSource at h
  split at h
  · cases h
  · rename_i tokens htokens
    split at h
    · rename_i program' X' hrun
      cases h
      have hall : Parser.Closed (tokens.map Token.kind) := by
        obtain ⟨hwhole, rfl⟩ := tokenize_eq_ok.mp htokens
        have hleads := Lexer.lexed_leads (Lexer.ofText_ordered source) hwhole
        have hlaid := (hleads .newline (by simp [Lexer.ofText])).laidOut
        exact ⟨hlaid.ends, hlaid.balanced⟩
      have hstart : Parser.Inside tokens 0 tokens.length tokens :=
        ⟨⟨[], rfl, rfl, by simp⟩, Nat.le_refl _⟩
      obtain ⟨hshaped, hinside, hend⟩ := Parser.shaped_programLoop hall (Nat.lt_succ_self _)
        tokens program X' hstart hrun
      exact ⟨hshaped, tokens, htokens, (hinside.at_end hall hend).2⟩
    · cases h

end TemplateEngine
