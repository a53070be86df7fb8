import TemplateEngine.Proofs.Syntax.Consumption

/-!
# Parsers on parting lists of tokens

An expression that stands alone is followed by the end of its line, and inside a
call by what closes the call. Two lists of tokens part there: up to that place
they hold tokens of the same kinds. Two parsers agree on such lists if, whenever
the first succeeds on the first list, it stops before the lists have parted and
the second one, where it succeeds at all, gives the same and stops there as well.
-/
namespace TemplateEngine.Parser

/-- Tokens that end a line, or open or close a block. -/
def breaksLine : TokenKind → Bool
  | .newline | .endOfInput | .indent | .dedent => true
  | _ => false

/-- Tokens that come after an expression inside a call, where none has been left out. -/
def leavesCall : TokenKind → Bool
  | .symbol .rightParen | .identifier _ => true
  | _ => false

/-- One list goes on with the end of a line, the other with what leaves a call. -/
structure Parts (E F : List Token) : Prop where
  breaks : breaksLine (headToken E).kind = true
  leaves : leavesCall (headToken F).kind = true

/-- Two lists that hold `n` tokens of the same kinds before they part. -/
inductive Beside (E F : List Token) : Nat → List Token → List Token → Prop
  | here : Beside E F 0 E F
  | next {n : Nat} {k : TokenKind} {s s' : Span} {X Y : List Token} :
      breaksLine k = false → Beside E F n X Y →
      Beside E F (n + 1) (⟨k, s⟩ :: X) (⟨k, s'⟩ :: Y)

theorem Beside.le_length {E F X Y : List Token} {n : Nat} (h : Beside E F n X Y) :
    n ≤ X.length ∧ n ≤ Y.length := by
  induction h with
  | here => exact ⟨Nat.zero_le _, Nat.zero_le _⟩
  | next _ _ ih =>
      simp only [List.length_cons]
      omega

/-- Two parsers agree on lists that part after `n` tokens. -/
def Agree {α : Type} (E F : List Token) (n : Nat) (p q : Parser α) : Prop :=
  ∀ X Y, Beside E F n X Y → ∀ a X', p X = .ok (a, X') →
    ∃ m Y', m ≤ n ∧ Beside E F m X' Y' ∧ ∀ b Y'', q Y = .ok (b, Y'') → b = a ∧ Y'' = Y'

/-- A parser that has no result on a list. -/
def Fails {α : Type} (E : List Token) (p : Parser α) : Prop := ∀ r, p E ≠ .ok r

section Rules

variable {α β : Type} {E F : List Token} {n : Nat} {p q : Parser α}

theorem Fails.bind (hp : Fails E p) {f : α → Parser β} : Fails E (p >>= f) := by
  rintro ⟨b, X'⟩ h
  obtain ⟨a, X₁, ha, -⟩ := exists_of_ok h
  exact hp _ ha

theorem Agree.bind {f g : α → Parser β} (hp : Agree E F n p q)
    (hf : ∀ a m, m ≤ n → Agree E F m (f a) (g a)) : Agree E F n (p >>= f) (q >>= g) := by
  intro X Y hXY b X' h
  obtain ⟨a, X₁, ha, hb⟩ := exists_of_ok h
  obtain ⟨m, Y₁, hm, hXY₁, hq⟩ := hp X Y hXY a X₁ ha
  obtain ⟨l, Y₂, hl, hXY₂, hg⟩ := hf a m hm X₁ Y₁ hXY₁ b X' hb
  refine ⟨l, Y₂, Nat.le_trans hl hm, hXY₂, ?_⟩
  intro c Y'' hc
  obtain ⟨a', Y₃, ha', hc'⟩ := exists_of_ok hc
  obtain ⟨rfl, rfl⟩ := hq a' Y₃ ha'
  exact hg c Y'' hc'

theorem agree_pure (a : α) : Agree E F n (pure a : Parser α) (pure a) := by
  intro X Y hXY b X' h
  cases h
  refine ⟨n, Y, Nat.le_refl n, hXY, ?_⟩
  intro c Y'' hc
  cases hc
  exact ⟨rfl, rfl⟩

theorem agree_of_fails (hp : Fails E p) : Agree E F 0 p q := by
  intro X Y hXY a X' h
  cases hXY
  exact absurd h (hp _)

/-- A parser that always fails agrees with every other. -/
theorem agree_failing (hp : ∀ X, Fails X p) : Agree E F n p q := by
  intro X Y _ a X' h
  exact absurd h (hp X _)

/-- If the second parser always fails, where the first one stops is all that matters. -/
theorem Agree.failing {q' : Parser α} (h : Agree E F n p q') (hq : ∀ Y, Fails Y q) :
    Agree E F n p q := by
  intro X Y hXY a X' ha
  obtain ⟨m, Y', hm, hXY', -⟩ := h X Y hXY a X' ha
  refine ⟨m, Y', hm, hXY', ?_⟩
  intro b Y'' hb
  exact absurd hb (hq Y _)

theorem agree_fail (fault : SyntaxFault) : Agree E F n (fail fault : Parser α) q :=
  agree_failing fun _ _ h => nomatch h

theorem agree_looping {loop loop' : Nat → Parser α}
    (h : ∀ f g, n < f → n < g → Agree E F n (loop f) (loop' g)) :
    Agree E F n (looping loop) (looping loop') := by
  intro X Y hXY
  have hlength := hXY.le_length
  exact h (X.length + 1) (Y.length + 1) (by omega) (by omega) X Y hXY

theorem agree_bump {f g : Unit → Parser β} (hf : Agree E F n (f ()) (g ())) :
    Agree E F (n + 1) (bump >>= f) (bump >>= g) := by
  intro X Y hXY
  cases hXY with
  | next _ hXY =>
      intro b X' h
      obtain ⟨m, Y', hm, hXY', hg⟩ := hf _ _ hXY b X' h
      exact ⟨m, Y', Nat.le_succ_of_le hm, hXY', hg⟩

theorem agree_bumps {f g : Unit → Parser β} (hf : Agree E F n (f ()) (g ())) (width : Nat) :
    Agree E F (n + width) (bumps width >>= f) (bumps width >>= g) := by
  induction width with
  | zero => exact hf
  | succ width ih =>
      exact agree_bump (f := fun _ => bumps width >>= f) (g := fun _ => bumps width >>= g) ih

theorem agree_kind {f g : TokenKind → Parser β}
    (hf : ∀ k, breaksLine k = false → Agree E F (n + 1) (f k) (g k)) :
    Agree E F (n + 1) (kind >>= f) (kind >>= g) := by
  intro X Y hXY
  cases hXY with
  | next hk hXY => exact hf _ hk _ _ (.next hk hXY)

/-- Where the lists part, each parser looks at a token of its own. -/
theorem agree_kind_here {f g : TokenKind → Parser β}
    (hf : Agree E F 0 (f (headToken E).kind) (g (headToken F).kind)) :
    Agree E F 0 (kind >>= f) (kind >>= g) := by
  intro X Y hXY
  cases hXY
  exact hf E F .here

theorem agree_nextKind_here {f g : TokenKind → Parser β}
    (hf : ∀ k k', Agree E F 0 (f k) (g k')) : Agree E F 0 (nextKind >>= f) (nextKind >>= g) := by
  intro X Y hXY
  cases hXY
  exact hf _ _ E F .here

/-- Before the last token that the lists share, each parser sees a token of its own next. -/
theorem agree_nextKind {f g : TokenKind → Parser β}
    (hf : ∀ k, breaksLine k = false → 0 < n → Agree E F (n + 1) (f k) (g k))
    (hlast : n = 0 → Agree E F (n + 1) (f (headToken E).kind) (g (headToken F).kind)) :
    Agree E F (n + 1) (nextKind >>= f) (nextKind >>= g) := by
  intro X Y hXY
  cases hXY with
  | next hk hXY =>
      cases hXY with
      | here => exact hlast rfl _ _ (.next hk .here)
      | next hk' hXY => exact hf _ hk' (Nat.succ_pos _) _ _ (.next hk (.next hk' hXY))

theorem agree_expect (hE : breaksLine (headToken E).kind = true) {k : TokenKind}
    (hk : breaksLine k = false) : Agree E F n (expect k) (expect k) := by
  intro X Y hXY a X' h
  cases hXY with
  | here =>
      have hne : (headToken E).kind ≠ k := by
        rintro heq
        rw [heq, hk] at hE
        cases hE
      rw [expect, if_neg hne] at h
      cases h
  | @next n kind s s' X Y _ hXY =>
      rw [expect] at h
      split at h
      · rename_i hkind
        cases h
        refine ⟨n, Y, Nat.le_succ n, hXY, ?_⟩
        intro b Y'' hb
        have hkind' : (headToken (⟨kind, s'⟩ :: Y)).kind = k := hkind
        rw [expect, if_pos hkind'] at hb
        cases hb
        exact ⟨rfl, rfl⟩
      · cases h

theorem agree_identifier (hE : breaksLine (headToken E).kind = true) :
    Agree E F n identifier identifier := by
  intro X Y hXY a X' h
  cases hXY with
  | here =>
      unfold identifier at h
      split at h
      · rename_i name hname
        rw [hname] at hE
        cases hE
      · cases h
  | @next n k s s' X Y _ hXY =>
      cases k with
      | identifier name =>
          cases h
          refine ⟨n, Y, Nat.le_succ n, hXY, ?_⟩
          intro b Y'' hb
          cases hb
          exact ⟨rfl, rfl⟩
      | _ => cases h

/-- A kind that is found neither at the end of a line nor where a call is left. -/
def inside (k : TokenKind) : Bool := !breaksLine k && !leavesCall k

theorem Parts.ne_of_inside (h : Parts E F) {k : TokenKind} (hk : inside k = true) :
    (headToken E).kind ≠ k ∧ (headToken F).kind ≠ k := by
  rw [inside, Bool.and_eq_true, Bool.not_eq_true', Bool.not_eq_true'] at hk
  constructor
  · rintro heq
    have hbreaks := h.breaks
    rw [heq, hk.1] at hbreaks
    cases hbreaks
  · rintro heq
    have hleaves := h.leaves
    rw [heq, hk.2] at hleaves
    cases hleaves

theorem agree_at {f g : Bool → Parser β} {k : TokenKind}
    (hf : ∀ b, Agree E F (n + 1) (f b) (g b)) :
    Agree E F (n + 1) (at_ k >>= f) (at_ k >>= g) := by
  intro X Y hXY
  cases hXY with
  | next hk hXY => exact hf _ _ _ (.next hk hXY)

theorem Parts.agree_at (h : Parts E F) {f g : Bool → Parser β} {k : TokenKind}
    (hk : inside k = true) (hyes : 0 < n → Agree E F n (f true) (g true))
    (hno : Agree E F n (f false) (g false)) : Agree E F n (at_ k >>= f) (at_ k >>= g) := by
  cases n with
  | zero =>
      have hne := h.ne_of_inside hk
      intro X Y hXY
      cases hXY
      have hX : (at_ k >>= f) E = f (decide ((headToken E).kind = k)) E := rfl
      have hY : (at_ k >>= g) F = g (decide ((headToken F).kind = k)) F := rfl
      rw [decide_eq_false hne.1] at hX
      rw [decide_eq_false hne.2] at hY
      rw [hX, hY]
      exact hno E F .here
  | succ n =>
      apply Parser.agree_at
      intro b
      cases b with
      | true => exact hyes (Nat.succ_pos n)
      | false => exact hno

theorem agree_skip {f g : Bool → Parser β} {k : TokenKind}
    (hyes : Agree E F n (f true) (g true)) (hno : Agree E F (n + 1) (f false) (g false)) :
    Agree E F (n + 1) (skip k >>= f) (skip k >>= g) := by
  intro X Y hXY
  cases hXY with
  | @next _ kind s s' X Y hkind hXY =>
      by_cases heq : kind = k
      · have hskip : ∀ (s : Span) (Z : List Token) (f : Bool → Parser β),
            (skip k >>= f) (⟨kind, s⟩ :: Z) = f true Z := by
          intro s Z f
          exact bind_skip_true heq
        rw [hskip, hskip]
        intro b X' h
        obtain ⟨m, Y', hm, hXY', hg⟩ := hyes X Y hXY b X' h
        exact ⟨m, Y', Nat.le_succ_of_le hm, hXY', hg⟩
      · have hskip : ∀ (s : Span) (Z : List Token) (f : Bool → Parser β),
            (skip k >>= f) (⟨kind, s⟩ :: Z) = f false (⟨kind, s⟩ :: Z) := by
          intro s Z f
          exact bind_skip_false heq
        rw [hskip, hskip]
        exact hno _ _ (.next hkind hXY)

theorem Parts.agree_skip (h : Parts E F) {f g : Bool → Parser β} {k : TokenKind}
    (hk : inside k = true) (hyes : ∀ m, m + 1 = n → Agree E F m (f true) (g true))
    (hno : Agree E F n (f false) (g false)) : Agree E F n (skip k >>= f) (skip k >>= g) := by
  cases n with
  | zero =>
      have hne := h.ne_of_inside hk
      intro X Y hXY
      cases hXY
      rw [bind_skip_false hne.1, bind_skip_false hne.2]
      exact hno E F .here
  | succ n => exact Parser.agree_skip (hyes n rfl) hno

end Rules

end TemplateEngine.Parser
