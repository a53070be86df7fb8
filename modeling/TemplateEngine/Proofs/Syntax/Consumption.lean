import TemplateEngine.Syntax.Parser.Statement

/-!
# What parsers take

What the parsers of single tokens do where the current token is known, as the first
steps of longer parsers.

A parser takes tokens off the front of a list, and what it gives goes with the kinds of the
tokens that it took. Such a relation is shown step by step: what comes next has to take what
the relation still asks for. Looking at a token takes nothing, but what is taken next is then
known to begin with it.
-/
namespace TemplateEngine.Parser

variable {α β : Type} {p : Parser α} {k : TokenKind} {tokens : List Token}

theorem bind_ok {f : α → Parser β} {rest : List Token} {a : α} (h : p tokens = .ok (a, rest)) :
    (p >>= f) tokens = f a rest := by
  simp only [bind, StateT.bind, h, Except.bind]

theorem exists_of_ok {f : α → Parser β} {rest : List Token} {b : β}
    (h : (p >>= f) tokens = .ok (b, rest)) :
    ∃ a others, p tokens = .ok (a, others) ∧ f a others = .ok (b, rest) := by
  have h : ((p tokens).bind fun r => f r.1 r.2) = .ok (b, rest) := h
  cases hp : p tokens with
  | error e =>
      rw [hp] at h
      cases h
  | ok r =>
      obtain ⟨a, others⟩ := r
      rw [hp] at h
      exact ⟨a, others, rfl, h⟩

theorem bind_kind (f : TokenKind → Parser β) (tokens : List Token) :
    (kind >>= f) tokens = f (headToken tokens).kind tokens := rfl

theorem bind_nextKind (f : TokenKind → Parser β) (tokens : List Token) :
    (nextKind >>= f) tokens = f (headToken tokens.tail).kind tokens := rfl

theorem bind_bump (f : Unit → Parser β) (t : Token) (tokens : List Token) :
    (bump >>= f) (t :: tokens) = f () tokens := rfl

theorem bind_at (h : (headToken tokens).kind ≠ k) (f : Bool → Parser β) :
    (at_ k >>= f) tokens = f false tokens := by
  have hat : at_ k tokens = .ok (false, tokens) := by rw [at_, decide_eq_false h]
  rw [bind_ok hat]

theorem bind_at_self (f : Bool → Parser β) (s : Span) :
    (at_ k >>= f) (⟨k, s⟩ :: tokens) = f true (⟨k, s⟩ :: tokens) := by
  have hat : at_ k (⟨k, s⟩ :: tokens) = .ok (true, ⟨k, s⟩ :: tokens) :=
    congrArg (fun b => Except.ok (b, _)) (decide_eq_true rfl)
  rw [bind_ok hat]

theorem bind_expect (f : Unit → Parser β) (s : Span) :
    (expect k >>= f) (⟨k, s⟩ :: tokens) = f () tokens := by
  have hexpect : expect k (⟨k, s⟩ :: tokens) = .ok ((), tokens) := if_pos rfl
  rw [bind_ok hexpect]

theorem bind_skip_true {f : Bool → Parser β} {t : Token} (h : t.kind = k) :
    (skip k >>= f) (t :: tokens) = f true tokens := by
  have hskip : skip k (t :: tokens) = .ok (true, tokens) := if_pos h
  rw [bind_ok hskip]

theorem bind_skip_false {f : Bool → Parser β} (h : (headToken tokens).kind ≠ k) :
    (skip k >>= f) tokens = f false tokens := by
  have hskip : skip k tokens = .ok (false, tokens) := if_neg h
  rw [bind_ok hskip]

theorem bind_skip (f : Bool → Parser β) (s : Span) :
    (skip k >>= f) (⟨k, s⟩ :: tokens) = f true tokens := bind_skip_true rfl

variable {α β : Type}

/-- On every list with a property, what a parser takes is of kinds that go with its result. -/
def TakesFrom (H : List Token → Prop) (p : Parser α) (T : List TokenKind → α → Prop) : Prop :=
  ∀ X a X', H X → p X = .ok (a, X') → ∃ u, X = u ++ X' ∧ T (u.map Token.kind) a

/-- What a parser takes is of kinds that go with its result. -/
abbrev Takes (p : Parser α) (T : List TokenKind → α → Prop) : Prop := TakesFrom (fun _ => True) p T

/-- What a parser takes where the current token is of a kind. -/
abbrev TakesAt (k : TokenKind) (p : Parser α) (T : List TokenKind → α → Prop) : Prop :=
  TakesFrom (fun X => (headToken X).kind = k) p T

/-- What a parser takes where the current token and the one after it are of two kinds. -/
abbrev TakesAhead (k next : TokenKind) (p : Parser α) (T : List TokenKind → α → Prop) : Prop :=
  TakesFrom (fun X => (headToken X).kind = k ∧ (headToken X.tail).kind = next) p T

variable {H : List Token → Prop} {p : Parser α} {k next : TokenKind}
  {T T' : List TokenKind → α → Prop} {U : List TokenKind → β → Prop}

/-- There is a token where the current one is not the end of the input. -/
theorem exists_token {X : List Token} (hkind : (headToken X).kind = k) (hk : k ≠ .endOfInput) :
    ∃ s rest, X = ⟨k, s⟩ :: rest := by
  cases X with
  | nil => exact absurd hkind.symm hk
  | cons t rest => exact ⟨t.span, rest, by rw [← hkind]; rfl⟩

theorem Takes.from (h : Takes p T) : TakesFrom H p T := fun X a X' _ hrun =>
  h X a X' trivial hrun

theorem TakesFrom.mono (h : TakesFrom H p T) (hT : ∀ u a, T u a → T' u a) : TakesFrom H p T' := by
  intro X a X' hX hrun
  obtain ⟨u, hu, ha⟩ := h X a X' hX hrun
  exact ⟨u, hu, hT _ _ ha⟩

theorem TakesFrom.bind {f : α → Parser β} (h : TakesFrom H p T)
    (hf : ∀ u a, T u a → Takes (f a) fun w => U (u ++ w)) : TakesFrom H (p >>= f) U := by
  intro X b X' hX hrun
  obtain ⟨a, mid, hfirst, hrest⟩ := exists_of_ok hrun
  obtain ⟨u, rfl, ha⟩ := h X a mid hX hfirst
  obtain ⟨w, rfl, hb⟩ := hf _ a ha mid b X' trivial hrest
  exact ⟨u ++ w, (List.append_assoc ..).symm, by rwa [List.map_append]⟩

theorem takes_pure {a : α} (h : T [] a) : TakesFrom H (pure a : Parser α) T := by
  intro X b X' _ hrun
  cases hrun
  exact ⟨[], rfl, h⟩

theorem takes_fail {fault : SyntaxFault} : TakesFrom H (fail fault : Parser α) T := by
  intro X a X' _ hrun
  cases hrun

theorem takes_failWanted {what : Wanted} : TakesFrom H (failWanted what : Parser α) T := by
  intro X a X' _ hrun
  cases hrun

/-- A loop starts with some fuel. -/
theorem takes_looping {loop : Nat → Parser α} (h : ∀ fuel, TakesFrom H (loop (fuel + 1)) T) :
    TakesFrom H (looping loop) T := fun X a X' hX hrun => h _ X a X' hX hrun

section Look

variable {f : TokenKind → Parser α} {g : Bool → Parser α} {c : Unit → Parser α}
  {i : Text → Parser α}

theorem takes_kind (h : ∀ k, TakesAt k (f k) T) : Takes (kind >>= f) T := by
  intro X a X' _ hrun
  rw [bind_kind] at hrun
  exact h _ X a X' rfl hrun

theorem takes_kind_at (h : TakesAt k (f k) T) : TakesAt k (kind >>= f) T := by
  intro X a X' hX hrun
  rw [bind_kind, hX] at hrun
  exact h X a X' hX hrun

theorem takes_nextKind (h : ∀ next, TakesAhead k next (f next) T) :
    TakesAt k (nextKind >>= f) T := by
  intro X a X' hX hrun
  rw [bind_nextKind] at hrun
  exact h _ X a X' ⟨hX, rfl⟩ hrun

theorem takes_at (htrue : TakesAt k (g true) T) (hfalse : Takes (g false) T) :
    Takes (at_ k >>= g) T := by
  intro X a X' _ hrun
  obtain ⟨found, mid, hat, hrest⟩ := exists_of_ok hrun
  cases hat
  cases hk : decide ((headToken X).kind = k) with
  | true => exact htrue X a X' (of_decide_eq_true hk) (by rwa [hk] at hrest)
  | false => exact hfalse X a X' trivial (by rwa [hk] at hrest)

theorem takes_bump (hk : k ≠ .endOfInput) (h : Takes (c ()) fun w => T (k :: w)) :
    TakesAt k (bump >>= c) T := by
  intro X a X' hX hrun
  obtain ⟨s, rest, rfl⟩ := exists_token hX hk
  rw [bind_bump] at hrun
  obtain ⟨u, rfl, ha⟩ := h rest a X' trivial hrun
  exact ⟨⟨k, s⟩ :: u, rfl, ha⟩

theorem takes_bump_ahead (hk : k ≠ .endOfInput) (h : TakesAt next (c ()) fun w => T (k :: w)) :
    TakesAhead k next (bump >>= c) T := by
  intro X a X' hX hrun
  obtain ⟨s, rest, rfl⟩ := exists_token hX.1 hk
  rw [bind_bump] at hrun
  obtain ⟨u, rfl, ha⟩ := h rest a X' hX.2 hrun
  exact ⟨⟨k, s⟩ :: u, rfl, ha⟩

theorem takes_skip (hk : k ≠ .endOfInput) (htrue : Takes (g true) fun w => T (k :: w))
    (hfalse : Takes (g false) T) : Takes (skip k >>= g) T := by
  intro X a X' _ hrun
  by_cases hkind : (headToken X).kind = k
  · obtain ⟨s, rest, rfl⟩ := exists_token hkind hk
    rw [bind_skip] at hrun
    obtain ⟨u, rfl, ha⟩ := htrue rest a X' trivial hrun
    exact ⟨⟨k, s⟩ :: u, rfl, ha⟩
  · rw [bind_skip_false hkind] at hrun
    exact hfalse X a X' trivial hrun

theorem takes_expect (hk : k ≠ .endOfInput) (h : Takes (c ()) fun w => T (k :: w)) :
    Takes (expect k >>= c) T := by
  intro X a X' _ hrun
  obtain ⟨_, mid, hexpect, hrest⟩ := exists_of_ok hrun
  unfold expect at hexpect
  split at hexpect
  · rename_i hkind
    obtain ⟨s, rest, rfl⟩ := exists_token hkind hk
    cases hexpect
    obtain ⟨u, rfl, ha⟩ := h rest a X' trivial hrest
    exact ⟨⟨k, s⟩ :: u, rfl, ha⟩
  · cases hexpect

theorem takes_identifier (h : ∀ name, Takes (i name) fun w => T (.identifier name :: w)) :
    Takes (identifier >>= i) T := by
  intro X a X' _ hrun
  obtain ⟨name, mid, hname, hrest⟩ := exists_of_ok hrun
  unfold identifier at hname
  split at hname
  · rename_i found hkind
    cases hname
    obtain ⟨s, rest, rfl⟩ := exists_token hkind (by simp)
    obtain ⟨u, rfl, ha⟩ := h name rest a X' trivial hrest
    exact ⟨⟨.identifier name, s⟩ :: u, rfl, ha⟩
  · cases hname

end Look

end TemplateEngine.Parser
