import TemplateEngine.Proofs.Syntax.Grammar

/-!
# Levels of brackets

An expression closes the brackets that it opens and no others, and what separates expressions
stands inside brackets only. So where the tokens of an expression end is settled by counting
brackets, and what is between the parentheses of a call is a single argument if it has that form.
-/
namespace TemplateEngine.Parser

/-- How many brackets are open behind a token, where so many are open before it. Nothing closes
more than was opened, and the end of a line comes nowhere. A comma and an equals sign come
between brackets; outside of all brackets they separate what is listed. -/
def levelAfter? (listed : Bool) (level : Nat) (k : TokenKind) : Option Nat :=
  match k with
  | .symbol .leftParen | .symbol .leftBracket | .symbol .leftBrace => some (level + 1)
  | .symbol .rightParen | .symbol .rightBracket | .symbol .rightBrace =>
    if level = 0 then none else some (level - 1)
  | .symbol .comma | .symbol .equals => if listed || 0 < level then some level else none
  | .newline | .indent | .dedent | .endOfInput => none
  | _ => some level

/-- How many brackets are open behind all tokens. -/
def levels? (listed : Bool) (level : Nat) (u : List TokenKind) : Option Nat :=
  u.foldlM (levelAfter? listed) level

/-- Tokens that close the brackets they open, and no others. -/
def Contained (listed : Bool) (u : List TokenKind) : Prop := levels? listed 0 u = some 0

/-- Tokens that may be those of one expression, as far as brackets and separators go. -/
structure Whole (u : List TokenKind) : Prop where
  contained : Contained false u
  nonempty : u ≠ []

variable {listed other : Bool} {level level' n : Nat} {k : TokenKind} {u v w : List TokenKind}

theorem levels?_cons : levels? listed level (k :: u) =
    (levelAfter? listed level k).bind fun level => levels? listed level u := List.foldlM_cons ..

theorem levels?_append : levels? listed level (u ++ v) =
    (levels? listed level u).bind fun level => levels? listed level v := List.foldlM_append ..

theorem levelAfter?_add (h : levelAfter? listed level k = some level')
    (hother : other = true ∨ 0 < n) : levelAfter? other (level + n) k = some (level' + n) := by
  unfold levelAfter? at h ⊢
  split at h
  all_goals grind

/-- What closes its brackets does so inside of others, where commas may come as well. -/
theorem levels?_add (h : levels? listed level u = some level') (hother : other = true ∨ 0 < n) :
    levels? other (level + n) u = some (level' + n) := by
  induction u generalizing level with
  | nil =>
      cases h
      rfl
  | cons k u ih =>
      rw [levels?_cons, Option.bind_eq_some_iff] at h
      obtain ⟨mid, hk, hu⟩ := h
      rw [levels?_cons, levelAfter?_add hk hother]
      exact ih hu

theorem Contained.levels?_succ (h : Contained listed u) : levels? other 1 u = some 1 :=
  levels?_add (n := 1) h (.inr (Nat.lt_succ_self 0))

theorem Contained.toList (h : Contained listed u) : Contained true u :=
  levels?_add (n := 0) h (.inl rfl)

theorem contained_nil : Contained listed [] := rfl

theorem Contained.append (hu : Contained listed u) (hv : Contained listed v) :
    Contained listed (u ++ v) := by
  unfold Contained at hu hv ⊢
  rw [levels?_append, hu]
  exact hv

theorem Contained.cons (hk : levelAfter? listed 0 k = some 0) (hu : Contained listed u) :
    Contained listed (k :: u) := by
  unfold Contained at hu ⊢
  rw [levels?_cons, hk]
  exact hu

theorem contained_singleton (hk : levelAfter? listed 0 k = some 0) : Contained listed [k] :=
  contained_nil.cons hk

/-- Anything may be listed between brackets. -/
theorem Contained.group {opening closing : Symbol} (hu : Contained listed u)
    (hopening : levelAfter? other 0 (.symbol opening) = some 1)
    (hclosing : levelAfter? other 1 (.symbol closing) = some 0) :
    Contained other (.symbol opening :: (u ++ [.symbol closing])) := by
  have hu : levels? other 1 u = some 1 := hu.levels?_succ
  unfold Contained
  rw [levels?_cons, hopening, Option.bind_some, levels?_append, hu, Option.bind_some, levels?_cons,
    hclosing]
  rfl

theorem Whole.append (hu : Whole u) (hv : Contained false v) : Whole (u ++ v) :=
  ⟨hu.contained.append hv, by simp [hu.nonempty]⟩

section Rules

variable {Inner : List TokenKind → Expr → Prop} (hinner : ∀ u e, Inner u e → Whole u)
include hinner

theorem Full.whole {e : Expr} (h : Full Inner u e) : Whole u := by
  induction h with
  | operand he => exact hinner _ _ he
  | conditional hvalue hcondition _ ih =>
      have hcondition := (hinner _ _ hcondition).contained
      exact (hinner _ _ hvalue).append (.cons rfl (hcondition.append (.cons rfl ih.contained)))

theorem Items.contained {es : List Expr} (h : Items Inner u es) : Contained true u := by
  induction h with
  | nil => exact contained_nil
  | one he => exact (he.whole hinner).contained.toList
  | cons he _ ih => exact (he.whole hinner).contained.toList.append (.cons rfl ih)

theorem Entries.contained {entries : List (Expr × Expr)} (h : Entries Inner u entries) :
    Contained true u := by
  induction h with
  | nil => exact contained_nil
  | one hkey hvalue =>
      have hvalue := (hvalue.whole hinner).contained.toList
      exact (hkey.whole hinner).contained.toList.append (.cons rfl hvalue)
  | cons hkey hvalue _ ih =>
      have hvalue := (hvalue.whole hinner).contained.toList
      exact (hkey.whole hinner).contained.toList.append (.cons rfl (hvalue.append (.cons rfl ih)))

theorem Arguments.contained {args : List Expr} {keywords : List (Text × Expr)}
    (h : Arguments Inner u args keywords) : Contained true u := by
  induction h with
  | nil => exact contained_nil
  | one he => exact (he.whole hinner).contained.toList
  | cons he _ ih => exact (he.whole hinner).contained.toList.append (.cons rfl ih)
  | oneNamed he => exact .cons rfl (.cons rfl (he.whole hinner).contained.toList)
  | consNamed he _ ih =>
      have he := (he.whole hinner).contained.toList
      exact .cons rfl (.cons rfl (he.append (.cons rfl ih)))

theorem Bound.contained {b : Option Expr} (h : Bound Inner u b) : Contained true u := by
  cases h with
  | absent => exact contained_nil
  | present he => exact (he.whole hinner).contained.toList

theorem Primary.whole {e : Expr} (h : Primary Inner u e) : Whole u := by
  have hgroup {opening closing : Symbol} {u : List TokenKind}
      (hu : Contained false (.symbol opening :: (u ++ [.symbol closing]))) :
      Whole (.symbol opening :: (u ++ [.symbol closing])) := ⟨hu, List.cons_ne_nil _ _⟩
  induction h with
  | @constant k c hk =>
      refine ⟨contained_singleton ?_, List.cons_ne_nil _ _⟩
      cases k with
      | int | float | bool | noneWord => rfl
      | _ => cases hk
  | @strings u t hne hstrings =>
      refine ⟨?_, hne⟩
      clear hne
      induction u with
      | nil => exact contained_nil
      | cons k u ih =>
          obtain ⟨s, rfl⟩ := hstrings k List.mem_cons_self
          exact .cons rfl (ih fun k hk => hstrings k (List.mem_cons_of_mem _ hk))
  | name => exact ⟨contained_singleton rfl, List.cons_ne_nil _ _⟩
  | parentheses he => exact hgroup ((he.whole hinner).contained.group rfl rfl)
  | tuple hes | list hes => exact hgroup ((hes.contained hinner).group rfl rfl)
  | dict hentries => exact hgroup ((hentries.contained hinner).group rfl rfl)
  | call _ hargs ih => exact ih.append ((hargs.contained hinner).group rfl rfl)
  | index _ hkey ih => exact ih.append ((hkey.whole hinner).contained.group rfl rfl)
  | slice _ hstart hstop ih =>
      have hstop := (hstop.contained hinner).cons (k := .symbol .colon) rfl
      have hbounds : Contained false (.symbol .leftBracket :: (_ ++ [.symbol .rightBracket])) :=
        ((hstart.contained hinner).append hstop).group rfl rfl
      simpa using ih.append hbounds
  | member _ ih => exact ih.append (.cons rfl (contained_singleton rfl))

omit hinner in
/-- An infix operator is made of words and signs. -/
theorem exists_connective {current next : TokenKind} {power width : Nat} {op : Connective}
    (h : connectiveAt? current next = some (power, op, width)) :
    Contained false ([current, next].take width) ∧ ∃ X, [current, next].take width = current :: X := by
  unfold connectiveAt? at h
  split at h
  -- `not` and `is` depend on the token behind them.
  all_goals try split at h
  all_goals cases h
  all_goals refine ⟨?_, _, rfl⟩
  all_goals first
    | rfl
    | rename_i hnext
      subst hnext
      rfl

theorem Chain.whole {e : Expr} (h : Chain Inner u e) : Whole u := by
  induction h with
  | primary he => exact he.whole hinner
  | not he | neg he | pos he => exact ⟨.cons rfl (hinner _ _ he).contained, List.cons_ne_nil _ _⟩
  | link _ hconnective hrhs ih =>
      have hsign := (exists_connective hconnective).1
      exact ih.append (hsign.append (hinner _ _ hrhs).contained)

end Rules

theorem Derives.whole {depth : Nat} {e : Expr} (h : Derives depth u e) : Whole u := by
  induction depth generalizing u e with
  | zero => exact h.elim
  | succ depth ih => exact Chain.whole (fun _ _ => ih) h

section Calls

variable {x y : Text} {e : Expr} {args : List Expr} {keywords : List (Text × Expr)}
  {X tail : List TokenKind}

/-- The tokens of a call of a function that has a name. -/
def callTokens (x : Text) (w : List TokenKind) : List TokenKind :=
  .identifier x :: .symbol .leftParen :: (w ++ [.symbol .rightParen])

theorem Contained.call (hw : Contained listed w) : Whole (callTokens x w) :=
  ⟨.cons rfl (hw.group rfl rfl), List.cons_ne_nil _ _⟩

/-- An expression at the front of a call is its function, or it is the whole call if nothing
behind that could go on. -/
theorem Whole.eq_of_call (hv : Whole v) (hw : Contained true w)
    (htail : ∀ k rest, tail = k :: rest → levelAfter? false 0 k = none)
    (h : v ++ X = callTokens x w ++ tail) :
    v = [.identifier x] ∧ X = .symbol .leftParen :: (w ++ .symbol .rightParen :: tail) ∨
      v = callTokens x w ∧ X = tail := by
  obtain ⟨hcontained, hne⟩ := hv
  obtain ⟨k, v, rfl⟩ := List.exists_cons_of_ne_nil hne
  simp only [callTokens, List.cons_append, List.append_assoc, List.cons.injEq] at h
  obtain ⟨rfl, h⟩ := h
  cases v with
  | nil => exact .inl ⟨rfl, h⟩
  | cons k v =>
      obtain ⟨rfl, hrest⟩ := List.cons.inj h
      right
      -- The parenthesis is open until the tokens end that are all inside of it.
      have hv : levels? false 1 v = some 0 := hcontained
      rcases List.append_eq_append_iff.mp hrest with ⟨between, rfl, -⟩ | ⟨behind, rfl, hbehind⟩
      · unfold Contained at hw
        rw [levels?_append, Option.bind_eq_some_iff] at hw
        obtain ⟨level, hw, -⟩ := hw
        have hopen : levels? false 1 v = some (level + 1) :=
          levels?_add (n := 1) hw (.inr (Nat.lt_succ_self 0))
        rw [hopen] at hv
        cases hv
      · rw [levels?_append, hw.levels?_succ, Option.bind_some] at hv
        cases behind with
        | nil => cases hv
        | cons k behind =>
            obtain ⟨rfl, rfl⟩ := List.cons.inj hbehind
            cases behind with
            | nil => exact ⟨rfl, rfl⟩
            | cons k behind =>
                have hv : levels? false 0 (k :: behind) = some 0 := hv
                rw [levels?_cons, htail k _ rfl] at hv
                cases hv

/-- An expression at the front of a call, with some of the call behind it, is its function. -/
theorem Whole.eq_of_front (hv : Whole v) (hw : Contained true w)
    (h : callTokens x w = v ++ k :: X) :
    v = [.identifier x] ∧ k = .symbol .leftParen ∧ X = w ++ [.symbol .rightParen] := by
  rw [← List.append_nil (callTokens x w)] at h
  rcases hv.eq_of_call hw (by simp) h.symm with ⟨rfl, hX⟩ | ⟨-, hX⟩
  · obtain ⟨rfl, rfl⟩ := List.cons.inj hX
    exact ⟨rfl, rfl, rfl⟩
  · cases hX

section Rules

variable {Inner : List TokenKind → Expr → Prop} (hinner : ∀ u e, Inner u e → Whole u)
include hinner

theorem Primary.eq_name (h : Primary Inner [.identifier x] e) : e = .name x := by
  have hlonger : ∀ {u X : List TokenKind} {k : TokenKind} {object : Expr},
      Primary Inner u object → [TokenKind.identifier x] ≠ u ++ k :: X := by
    intro u X k object hobject hu
    have hne := (hobject.whole hinner).nonempty
    have hlength := congrArg List.length hu
    rw [List.length_append, List.length_cons] at hlength
    exact hne (List.length_eq_zero_iff.mp (by simp at hlength; omega))
  generalize hu : [TokenKind.identifier x] = u at h
  cases h with
  | constant hk =>
      cases hu
      cases hk
  | strings _ hstrings =>
      subst hu
      obtain ⟨s, hs⟩ := hstrings _ List.mem_cons_self
      cases hs
  | name =>
      cases hu
      rfl
  | parentheses _ | tuple _ | list _ | dict _ => cases hu
  | call hobject | index hobject | slice hobject | member hobject =>
      exact absurd hu (hlonger hobject)

/-- What is made of the tokens of a call, as long as no operator goes on with it. -/
theorem Primary.of_call (hw : Contained true w) (h : Primary Inner (callTokens x w) e) :
    ∃ args keywords, e = .call (.name x) args keywords ∧ Arguments Inner w args keywords := by
  generalize hu : callTokens x w = u at h
  cases h with
  | constant _ | name => cases hu
  | strings _ hstrings =>
      subst hu
      obtain ⟨s, hs⟩ := hstrings _ List.mem_cons_self
      cases hs
  | parentheses _ | tuple _ | list _ | dict _ => cases hu
  | call hfunction hargs =>
      obtain ⟨rfl, -, hX⟩ := (hfunction.whole hinner).eq_of_front hw hu
      obtain rfl := List.append_cancel_right hX
      rw [hfunction.eq_name hinner]
      exact ⟨_, _, rfl, hargs⟩
  | index hobject | slice hobject | member hobject =>
      obtain ⟨-, hk, -⟩ := (hobject.whole hinner).eq_of_front hw hu
      cases hk

theorem Chain.of_call (hw : Contained true w) (h : Chain Inner (callTokens x w) e) :
    ∃ args keywords, e = .call (.name x) args keywords ∧ Arguments Inner w args keywords := by
  generalize hu : callTokens x w = u at h
  cases h with
  | primary he =>
      subst hu
      exact he.of_call hinner hw
  | not _ | neg _ | pos _ => cases hu
  | @link u v lhs rhs current next power width op hlhs hconnective _ =>
      obtain ⟨-, X, hX⟩ := exists_connective hconnective
      rw [hX, List.cons_append] at hu
      obtain ⟨-, rfl, -⟩ := (hlhs.whole hinner).eq_of_front hw hu
      cases hconnective

end Rules

/-- What is made of the tokens of a call. -/
theorem Full.of_call {depth : Nat} (hw : Contained true w)
    (h : Full (Derives depth) (callTokens x w) e) :
    ∃ level args keywords, e = .call (.name x) args keywords ∧
      Arguments (Derives level) w args keywords := by
  generalize hu : callTokens x w = u at h
  cases h with
  | operand he =>
      subst hu
      cases depth with
      | zero => exact he.elim
      | succ depth => exact ⟨depth, Chain.of_call (fun _ _ => Derives.whole) hw he⟩
  | conditional hvalue =>
      obtain ⟨-, hk, -⟩ := hvalue.whole.eq_of_front hw hu
      cases hk

/-- The tokens that a call is made of, if a name comes first. -/
theorem Full.to_call {depth : Nat}
    (h : Full (Derives depth) (.identifier y :: X) (.call (.name x) args keywords)) :
    ∃ level w, .identifier y :: X = callTokens x w ∧
      Arguments (Derives level) w args keywords := by
  generalize hu : TokenKind.identifier y :: X = u at h
  cases h with
  | operand he =>
      cases depth with
      | zero => exact he.elim
      | succ depth =>
          generalize hcall : Expr.call (.name x) args keywords = e at he
          cases he with
          | primary he =>
              subst hcall
              cases he with
              | parentheses _ => cases hu
              | call hfunction hargs =>
                  cases hfunction with
                  | name => exact ⟨depth, _, rfl, hargs⟩
                  | parentheses _ => cases hu
          | not _ | neg _ | pos _ => cases hcall
          | @link u v lhs rhs current next power width op _ _ _ => cases op <;> cases hcall

/-- Nothing, or one comma. -/
def OptionalComma (c : List TokenKind) : Prop := c = [] ∨ c = [.symbol .comma]

theorem OptionalComma.contained {c : List TokenKind} (h : OptionalComma c) : Contained true c := by
  rcases h with rfl | rfl
  · exact contained_nil
  · exact contained_singleton rfl

/-- A comma behind an expression is no part of one. -/
theorem Contained.not_comma (hu : Contained false u) :
    ¬Contained false (u ++ .symbol .comma :: v) := by
  intro h
  unfold Contained at hu h
  rw [levels?_append, hu, Option.bind_some, levels?_cons] at h
  cases h

section Rules

variable {Inner : List TokenKind → Expr → Prop} (hinner : ∀ u e, Inner u e → Whole u)
include hinner

theorem Arguments.of_nil (h : Arguments Inner [] args keywords) : args = [] ∧ keywords = [] := by
  generalize hw : ([] : List TokenKind) = w at h
  cases h with
  | nil => exact ⟨rfl, rfl⟩
  | one he => exact absurd hw.symm (he.whole hinner).nonempty
  | cons _ _ => exact absurd hw.symm (List.append_ne_nil_of_right_ne_nil _ (List.cons_ne_nil _ _))
  | oneNamed _ | consNamed _ _ => cases hw

/-- Arguments with no separator but perhaps a comma at the end are one without a name. -/
theorem Arguments.of_whole {c : List TokenKind} (hu : Whole u) (hc : OptionalComma c)
    (h : Arguments Inner (u ++ c) args keywords) :
    ∃ e, args = [e] ∧ keywords = [] ∧ Full Inner u e := by
  obtain ⟨hcontained, hne⟩ := hu
  have hnamed : ∀ {name : Text} {w : List TokenKind},
      u ++ c ≠ .identifier name :: .symbol .equals :: w := by
    intro name w hw
    obtain ⟨k, u, rfl⟩ := List.exists_cons_of_ne_nil hne
    obtain ⟨rfl, hrest⟩ := List.cons.inj hw
    cases u with
    | nil => rcases hc with rfl | rfl <;> cases hrest
    | cons k u =>
        obtain ⟨rfl, -⟩ := List.cons.inj hrest
        cases hcontained
  generalize hw : u ++ c = w at h
  cases h with
  | nil => exact absurd (List.append_eq_nil_iff.mp hw).1 hne
  | one he =>
      rcases hc with rfl | rfl
      · rw [List.append_nil] at hw
        subst hw
        exact ⟨_, rfl, rfl, he⟩
      · subst hw
        exact absurd (he.whole hinner).contained hcontained.not_comma
  | @cons v w e es keywords he hothers =>
      have hv := (he.whole hinner).contained
      have hlast : v = u ∧ c = .symbol .comma :: w := by
        rcases List.append_eq_append_iff.mp hw with ⟨more, rfl, hcomma⟩ | ⟨more, rfl, hcomma⟩
        · cases more with
          | nil => exact ⟨List.append_nil u, hcomma⟩
          | cons k more =>
              rcases hc with rfl | rfl
              · cases hcomma
              · obtain ⟨rfl, -⟩ := List.cons.inj hcomma
                exact absurd hv hcontained.not_comma
        · cases more with
          | nil => exact ⟨(List.append_nil v).symm, hcomma.symm⟩
          | cons k more =>
              obtain ⟨rfl, -⟩ := List.cons.inj hcomma
              exact absurd hcontained hv.not_comma
      obtain ⟨rfl, hcomma⟩ := hlast
      rcases hc with rfl | rfl
      · cases hcomma
      · obtain ⟨-, rfl⟩ := List.cons.inj hcomma
        obtain ⟨rfl, rfl⟩ := hothers.of_nil hinner
        exact ⟨_, rfl, rfl, he⟩
  | oneNamed _ | consNamed _ _ => exact absurd hw hnamed

end Rules

theorem Arguments.to_whole {Inner : List TokenKind → Expr → Prop} (h : Arguments Inner w [e] []) :
    ∃ u c, w = u ++ c ∧ OptionalComma c ∧ Full Inner u e := by
  cases h with
  | one he => exact ⟨w, [], by simp, .inl rfl, he⟩
  | cons he hothers =>
      cases hothers with
      | nil => exact ⟨_, _, rfl, .inr rfl, he⟩

end Calls

end TemplateEngine.Parser
