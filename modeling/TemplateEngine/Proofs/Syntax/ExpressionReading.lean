import TemplateEngine.Proofs.Syntax.Operands
import TemplateEngine.Proofs.Syntax.Phrases
import TemplateEngine.Proofs.Syntax.Statements

/-!
# Reading an expression back

The parser takes the tokens of an expression for the expression, whatever comes after
them that does not go on with it. For an operand the rest of a chain of operators is
left to do, so an operator with its operands is the first link of whatever chain it
stands in. Every level of a tree costs two levels of operands at most, one for the
operand and one for the parentheses around it.
-/
namespace TemplateEngine.Parser

open Lexeme

/-- Tokens that lexemes are cut into. -/
def Spells (ls : List Lexeme) (ts : List Token) : Prop := ts.map Token.kind = kinds ls

section Spells

variable {l : Lexeme} {ls ms : List Lexeme} {ts : List Token}

theorem Spells.eq_nil (h : Spells [] ts) : ts = [] := List.map_eq_nil_iff.mp h

theorem Spells.append (h : Spells (ls ++ ms) ts) :
    ∃ us vs, ts = us ++ vs ∧ Spells ls us ∧ Spells ms vs := by
  rw [Spells, kinds_append] at h
  exact List.map_eq_append_iff.mp h

theorem Spells.cons (h : Spells (l :: ls) ts) {kind : TokenKind} (hl : l.kind? = some kind) :
    ∃ span us, ts = ⟨kind, span⟩ :: us ∧ Spells ls us := by
  rw [Spells, kinds, List.filterMap_cons, hl] at h
  obtain ⟨⟨_, span⟩, us, rfl, rfl, hus⟩ := List.map_eq_cons_iff.mp h
  exact ⟨span, us, rfl, hus⟩

theorem Spells.single (h : Spells [l] ts) {kind : TokenKind} (hl : l.kind? = some kind) :
    ∃ span, ts = [⟨kind, span⟩] := by
  obtain ⟨span, us, rfl, hus⟩ := h.cons hl
  exact ⟨span, by rw [hus.eq_nil]⟩

theorem Spells.blank (h : Spells (.blank :: ls) ts) : Spells ls ts := h

theorem Spells.name {n : Text} (hn : IsName n) (h : Spells (.word n :: ls) ts) :
    ∃ span us, ts = ⟨.identifier n, span⟩ :: us ∧ Spells ls us :=
  h.cons (congrArg some hn.2)

theorem Spells.separated (h : Spells (separated ls) ts) :
    ls = [] ∧ ts = [] ∨ ls ≠ [] ∧ ∃ span us, ts = ⟨.symbol .comma, span⟩ :: us ∧ Spells ls us := by
  cases ls with
  | nil => exact .inl ⟨rfl, h.eq_nil⟩
  | cons l ls => exact .inr ⟨List.cons_ne_nil l ls, Spells.cons (l := .sign .comma) h rfl⟩

/-- The first token of an expression. -/
theorem Spells.phrase {power : Nat} (hls : Phrase power ls) (h : Spells ls ts) :
    ∃ t us, ts = t :: us ∧ t.kind.begins = true ∧
      (t.kind = .keyword .notWord → power ≤ notPower) ∧
        ∀ n, t.kind = .identifier n → (us.map Token.kind).head? ≠ some (.symbol .equals) := by
  obtain ⟨kind, others, hkinds, hbegins, hnot, hname⟩ := hls.begins
  rw [Spells, hkinds] at h
  obtain ⟨t, us, rfl, rfl, rfl⟩ := List.map_eq_cons_iff.mp h
  exact ⟨t, us, rfl, hbegins, hnot, hname⟩

end Spells

theorem ne_of_begins {k k' : TokenKind} (h : k.begins = true) (h' : k'.begins = false) : k ≠ k' := by
  rintro rfl
  rw [h] at h'
  cases h'

section Stops

/-- Whether two tokens do not go on with an expression whose operators bind with at least
a power: neither a trailer nor an operator of that power, and no string that would be
joined to one before it. -/
def stops (least : Nat) (current next : TokenKind) : Bool :=
  match current with
  | .symbol .leftParen | .symbol .leftBracket | .symbol .dot | .string _ => false
  | .keyword .ifWord => conditionalPower < least
  | _ =>
    match connectiveAt? current next with
    | none => true
    | some (power, _, _) => power < least

/-- What comes next does not go on with an expression. -/
def Stops (least : Nat) (ts : List Token) : Prop :=
  stops least (headToken ts).kind (headToken ts.tail).kind = true

variable {operand : Nat → Parser Expr} {least other : Nat} {ts : List Token}

theorem Stops.mono (h : Stops least ts) (hle : least ≤ other) : Stops other ts := by
  unfold Stops stops at h ⊢
  split at h
  · cases h
  · cases h
  · cases h
  · cases h
  · exact decide_eq_true (Nat.lt_of_lt_of_le (of_decide_eq_true h) hle)
  · split at h
    · rfl
    · exact decide_eq_true (Nat.lt_of_lt_of_le (of_decide_eq_true h) hle)

theorem Stops.not_string (h : Stops least ts) (t : Text) : (headToken ts).kind ≠ .string t := by
  intro hkind
  rw [Stops, hkind] at h
  cases h

theorem Stops.not_if (h : Stops conditionalPower ts) : (headToken ts).kind ≠ .keyword .ifWord := by
  intro hkind
  rw [Stops, hkind] at h
  cases h

theorem Stops.trailersLoop (h : Stops least ts) (e : Expr) (fuel : Nat) :
    trailersLoop operand e (fuel + 1) ts = .ok (e, ts) := by
  rw [Parser.trailersLoop]
  have hkind : kind ts = .ok ((headToken ts).kind, ts) := rfl
  rw [bind_ok hkind]
  unfold Stops at h
  generalize (headToken ts).kind = current at h
  split
  · cases h
  · cases h
  · cases h
  · rfl

theorem chainLoop_eq (lhs : Expr) (fuel : Nat) :
    chainLoop operand least lhs (fuel + 1) ts =
      link operand least lhs (fun e => chainLoop operand least e fuel)
        (connectiveAt? (headToken ts).kind (headToken ts.tail).kind) ts := by
  rw [chainLoop_succ]
  rfl

theorem Stops.chainLoop (h : Stops least ts) (lhs : Expr) (fuel : Nat) :
    chainLoop operand least lhs (fuel + 1) ts = .ok (lhs, ts) := by
  rw [chainLoop_eq]
  unfold Stops stops at h
  split at h
  · cases h
  · cases h
  · cases h
  · cases h
  · rename_i hkind
    rw [hkind]
    rfl
  · split at h
    · rename_i hnone
      rw [hnone]
      rfl
    · rename_i hsome
      rw [hsome, link, if_pos (of_decide_eq_true h)]
      rfl

theorem bumps_eq (width : Nat) : bumps width ts = .ok ((), ts.drop width) := by
  induction width generalizing ts with
  | zero => rfl
  | succ width ih =>
      have hstep : bumps (width + 1) ts = bumps width ts.tail := rfl
      rw [hstep, ih, List.drop_tail]

/-- A chain goes on with an operator of enough power. -/
theorem chainLoop_connective {power width : Nat} {op : Connective}
    (hop : connectiveAt? (headToken ts).kind (headToken ts.tail).kind = some (power, op, width))
    (hpower : least ≤ power) (lhs : Expr) (fuel : Nat) :
    chainLoop operand least lhs (fuel + 1) ts =
      (operand (power + 1) >>= fun rhs => chainLoop operand least (op.apply lhs rhs) fuel)
        (ts.drop width) := by
  rw [chainLoop_eq, hop, link, if_neg (Nat.not_lt.mpr hpower)]
  rw [bind_ok (bumps_eq width)]

end Stops

section Operands

/-- An operand is read up to where the operators behind it are to be read. -/
def Leads (depth power : Nat) (ls : List Lexeme) (e : Expr) : Prop :=
  ∀ least ts rest, least ≤ power → Spells ls ts → Stops (power + 1) rest →
    ∃ fuel, rest.length < fuel ∧ operand (depth + 1) least (ts ++ rest) =
      chainLoop (operand depth) least e fuel rest

/-- A prefix operator with its operand, or an operand without operators, is read. -/
def Heads (depth power : Nat) (ls : List Lexeme) (e : Expr) : Prop :=
  ∀ ts rest, Spells ls ts → Stops (power + 1) rest →
    headed (operand depth) (ts ++ rest) = .ok (e, rest)

/-- An operand without operators is read up to where the trailers behind it are to be
read. -/
def Trails (depth : Nat) (ls : List Lexeme) (e : Expr) : Prop :=
  ∀ ts rest, Spells ls ts → (∀ t, (headToken rest).kind ≠ .string t) →
    ∃ fuel, rest.length < fuel ∧ headed (operand depth) (ts ++ rest) =
      trailersLoop (operand depth) e fuel rest

/-- A whole expression is read. -/
def Completes (depth : Nat) (ls : List Lexeme) (e : Expr) : Prop :=
  ∀ ts rest fuel, Spells ls ts → Stops conditionalPower rest → ts.length < fuel →
    conditionalLoop (operand depth) fuel (ts ++ rest) = .ok (e, rest)

variable {depth power : Nat} {ls : List Lexeme} {e : Expr} {ts rest : List Token}

theorem Completes.expression (h : Completes depth ls e) (hts : Spells ls ts)
    (hrest : Stops conditionalPower rest) :
    expressionWith (operand depth) (ts ++ rest) = .ok (e, rest) := by
  refine h ts rest _ hts hrest ?_
  rw [List.length_append]
  omega

theorem Trails.heads (h : Trails depth ls e) : Heads depth postfixPower ls e := by
  intro ts rest hts hrest
  obtain ⟨fuel, hfuel, htrailers⟩ := h ts rest hts hrest.not_string
  obtain ⟨fuel, rfl⟩ := Nat.exists_eq_add_one.mpr (Nat.lt_of_le_of_lt (Nat.zero_le _) hfuel)
  rw [htrailers, hrest.trailersLoop]

theorem Heads.leads (h : Heads depth power ls e) : Leads depth power ls e := by
  intro least ts rest _ hts hrest
  refine ⟨rest.length + 1, Nat.lt_succ_self _, ?_⟩
  have hstep : operand (depth + 1) least (ts ++ rest) =
      (headed (operand depth) >>= fun e => looping (chainLoop (operand depth) least e))
        (ts ++ rest) := rfl
  rw [hstep, bind_ok (h ts rest hts hrest)]
  rfl

/-- An operand is read whole where the operators behind it bind less. -/
theorem Leads.operand (h : Leads depth power ls e) {least : Nat} (hleast : least ≤ power)
    (hts : Spells ls ts) (hrest : Stops least rest) :
    operand (depth + 1) least (ts ++ rest) = .ok (e, rest) := by
  obtain ⟨fuel, hfuel, hchain⟩ := h least ts rest hleast hts (hrest.mono (by omega))
  obtain ⟨fuel, rfl⟩ := Nat.exists_eq_add_one.mpr (Nat.lt_of_le_of_lt (Nat.zero_le _) hfuel)
  rw [hchain, hrest.chainLoop]

theorem Leads.completes (h : Leads depth power ls e) (hpower : orPower ≤ power) :
    Completes (depth + 1) ls e := by
  intro ts rest fuel hts hrest hfuel
  obtain ⟨fuel, rfl⟩ := Nat.exists_eq_add_one.mpr (Nat.lt_of_le_of_lt (Nat.zero_le _) hfuel)
  have hvalue := h.operand hpower hts (hrest.mono (show conditionalPower ≤ orPower by decide))
  rw [conditionalLoop, bind_ok hvalue, bind_at hrest.not_if]
  rfl

/-- A conditional is read with its condition and both of its values. -/
theorem completes_conditional {thenValue condition elseValue : Expr} {left middle : Nat}
    {thenText conditionText elseText : List Lexeme} (hleft : orPower ≤ left)
    (hmiddle : orPower ≤ middle) (hthen : Leads depth left thenText thenValue)
    (hcondition : Leads depth middle conditionText condition)
    (helse : Completes (depth + 1) elseText elseValue) :
    Completes (depth + 1) (thenText ++ .blank :: .word "if".toList :: .blank ::
      (conditionText ++ .blank :: .word "else".toList :: .blank :: elseText))
      (.conditional condition thenValue elseValue) := by
  intro ts rest fuel hts hrest hfuel
  obtain ⟨us, _, rfl, hus, hif⟩ := hts.append
  obtain ⟨s₁, _, rfl, hvalues⟩ := hif.blank.cons (show _ = some (.keyword .ifWord) from rfl)
  obtain ⟨vs, _, rfl, hvs, helseWord⟩ := hvalues.blank.append
  obtain ⟨s₂, ws, rfl, hws⟩ := helseWord.blank.cons (show _ = some (.keyword .elseWord) from rfl)
  obtain ⟨fuel, rfl⟩ := Nat.exists_eq_add_one.mpr (Nat.lt_of_le_of_lt (Nat.zero_le _) hfuel)
  simp only [List.length_append, List.length_cons] at hfuel
  have hvalue : operand (depth + 1) orPower
      (us ++ ⟨.keyword .ifWord, s₁⟩ :: (vs ++ ⟨.keyword .elseWord, s₂⟩ :: (ws ++ rest))) =
        .ok (thenValue, _) := hthen.operand hleft hus rfl
  have htest : operand (depth + 1) orPower (vs ++ ⟨.keyword .elseWord, s₂⟩ :: (ws ++ rest)) =
      .ok (condition, _) := hcondition.operand hmiddle hvs rfl
  have hother := helse ws rest fuel hws.blank hrest (by omega)
  simp only [List.append_assoc, List.cons_append]
  rw [conditionalLoop, bind_ok hvalue, bind_at_self, if_pos rfl, bind_bump, bind_ok htest,
    bind_expect, bind_ok hother]
  rfl

/-- What an atom in brackets is read as is an operand. -/
theorem trails_atom {opening closing : Symbol} {inner : List Lexeme}
    (hopening : opening ∈ [.leftParen, .leftBracket, .leftBrace])
    (hatom : ∀ s₁ s₂ us rest, Spells inner us →
      atom (operand depth) (⟨.symbol opening, s₁⟩ :: (us ++ ⟨.symbol closing, s₂⟩ :: rest)) =
        .ok (e, rest)) :
    Trails depth (.sign opening :: (inner ++ [.sign closing])) e := by
  intro ts rest hts _
  obtain ⟨s₁, _, rfl, hinside⟩ := hts.cons rfl
  obtain ⟨us, _, rfl, hus, hclosing⟩ := hinside.append
  obtain ⟨s₂, rfl⟩ := hclosing.single rfl
  have hstep : ∀ X, headed (operand depth) (⟨.symbol opening, s₁⟩ :: X) =
      (atom (operand depth) >>= fun e => looping (trailersLoop (operand depth) e))
        (⟨.symbol opening, s₁⟩ :: X) := by
    intro X
    simp only [List.mem_cons, List.not_mem_nil, or_false] at hopening
    rcases hopening with rfl | rfl | rfl <;> rfl
  refine ⟨rest.length + 1, Nat.lt_succ_self _, ?_⟩
  simp only [List.cons_append, List.append_assoc, List.nil_append]
  rw [hstep, bind_ok (hatom s₁ s₂ us rest hus)]
  rfl

/-- Parentheses around a whole expression make an operand of it. -/
theorem trails_group (h : Completes depth ls e) (hls : Phrase power ls) :
    Trails depth (.sign .leftParen :: (ls ++ [.sign .rightParen])) e := by
  refine trails_atom (by simp) fun s₁ s₂ us rest hus => ?_
  have hfirst : (headToken (us ++ ⟨.symbol .rightParen, s₂⟩ :: rest)).kind ≠
      .symbol .rightParen := by
    obtain ⟨t, us, rfl, hbegins, -⟩ := hus.phrase hls
    exact ne_of_begins hbegins rfl
  have hinside : expressionWith (operand depth) (us ++ ⟨.symbol .rightParen, s₂⟩ :: rest) =
      .ok (e, _) := h.expression hus rfl
  have hstep : ∀ X, atom (operand depth) (⟨.symbol .leftParen, s₁⟩ :: X) =
      parenthesized (operand depth) X := fun _ => rfl
  rw [hstep, parenthesized, skipSymbol, bind_skip_false hfirst, if_neg Bool.false_ne_true,
    bind_ok hinside, bind_skip, if_pos rfl]
  rfl

theorem stringsLoop_other (hrest : ∀ t, (headToken rest).kind ≠ .string t) (fuel : Nat) :
    stringsLoop fuel rest = .ok ([], rest) := by
  cases fuel with
  | zero => rfl
  | succ fuel =>
      have hkind : kind rest = .ok ((headToken rest).kind, rest) := rfl
      rw [stringsLoop, bind_ok hkind]
      generalize (headToken rest).kind = current at hrest
      split
      · exact absurd rfl (hrest _)
      · rfl

theorem trails_name {n : Text} (hn : IsName n) : Trails depth [.word n] (.name n) := by
  intro ts rest hts _
  obtain ⟨s, rfl⟩ := hts.single (congrArg some hn.2)
  exact ⟨rest.length + 1, Nat.lt_succ_self _, rfl⟩

theorem trails_constant {c : Constant} (hc : c.Plain) : Trails depth c.print (.constant c) := by
  intro ts rest hts hrest
  refine ⟨rest.length + 1, Nat.lt_succ_self _, ?_⟩
  cases c with
  | none =>
      obtain ⟨s, rfl⟩ := hts.single (show _ = some .noneWord from rfl)
      rfl
  | bool b =>
      obtain ⟨s, rfl⟩ : ∃ s, ts = [⟨.bool b, s⟩] := by
        cases b <;> exact hts.single rfl
      rfl
  | int n =>
      obtain ⟨s, rfl⟩ := hts.single rfl
      have hstep : headed (operand depth) (⟨.int n.toNat, s⟩ :: rest) =
          trailersLoop (operand depth) (.constant (.int n.toNat)) (rest.length + 1) rest := rfl
      rw [List.singleton_append, hstep, Int.toNat_of_nonneg hc.1]
  | float x => exact hc.elim
  | str t =>
      obtain ⟨s, rfl⟩ := hts.single rfl
      have hstrings : looping stringsLoop (⟨.string t, s⟩ :: rest) =
          (stringsLoop (rest.length + 1) >>= fun others => pure (t ++ others)) rest := rfl
      rw [bind_ok (stringsLoop_other hrest _)] at hstrings
      have hatom : atom (operand depth) (⟨.string t, s⟩ :: rest) =
          (looping stringsLoop >>= fun t => pure (.constant (.str t))) (⟨.string t, s⟩ :: rest) :=
        rfl
      rw [bind_ok hstrings, List.append_nil] at hatom
      have hstep : headed (operand depth) (⟨.string t, s⟩ :: rest) =
          (atom (operand depth) >>= fun e => looping (trailersLoop (operand depth) e))
            (⟨.string t, s⟩ :: rest) := rfl
      rw [List.singleton_append, hstep, bind_ok hatom]
      rfl

/-- An attribute of an operand. -/
theorem trails_attribute {n : Text} (h : Trails depth ls e) (hn : IsName n) :
    Trails depth (ls ++ [.sign .dot, .word n]) (.attribute e n) := by
  intro ts rest hts _
  obtain ⟨us, _, rfl, hus, hdot⟩ := hts.append
  obtain ⟨s₁, _, rfl, hname⟩ := hdot.cons rfl
  obtain ⟨s₂, rfl⟩ := hname.single (congrArg some hn.2)
  obtain ⟨fuel, hfuel, hobject⟩ := h us (⟨.symbol .dot, s₁⟩ :: ⟨.identifier n, s₂⟩ :: rest) hus
    (fun _ h => nomatch h)
  obtain ⟨fuel, rfl⟩ := Nat.exists_eq_add_one.mpr (Nat.lt_of_le_of_lt (Nat.zero_le _) hfuel)
  refine ⟨fuel, ?_, ?_⟩
  · simp only [List.length_cons] at hfuel
    omega
  · rw [List.append_assoc]
    exact hobject

/-- Something in brackets behind an operand, once what is between the brackets is read. -/
theorem trails_bracketed {opening closing : Symbol} {inner : List Lexeme} {result : Expr}
    (h : Trails depth ls e)
    (hinner : ∀ s₁ s₂ us rest fuel, Spells inner us →
      trailersLoop (operand depth) e (fuel + 1)
        (⟨.symbol opening, s₁⟩ :: (us ++ ⟨.symbol closing, s₂⟩ :: rest)) =
          trailersLoop (operand depth) result fuel rest) :
    Trails depth (ls ++ .sign opening :: (inner ++ [.sign closing])) result := by
  intro ts rest hts _
  obtain ⟨us, _, rfl, hus, hopening⟩ := hts.append
  obtain ⟨s₁, _, rfl, hinside⟩ := hopening.cons rfl
  obtain ⟨vs, _, rfl, hvs, hclosing⟩ := hinside.append
  obtain ⟨s₂, rfl⟩ := hclosing.single rfl
  obtain ⟨fuel, hfuel, hobject⟩ := h us
    (⟨.symbol opening, s₁⟩ :: (vs ++ ⟨.symbol closing, s₂⟩ :: rest)) hus (fun _ h => nomatch h)
  obtain ⟨fuel, rfl⟩ := Nat.exists_eq_add_one.mpr (Nat.lt_of_le_of_lt (Nat.zero_le _) hfuel)
  refine ⟨fuel, ?_, ?_⟩
  · simp only [List.length_cons, List.length_append] at hfuel
    omega
  · simp only [List.append_assoc, List.cons_append, List.nil_append]
    rw [hobject, hinner s₁ s₂ vs rest fuel hvs]

/-- The powers of operators leave gaps at the powers of prefix operators. -/
theorem connectiveAt?_power {current next : TokenKind} {power width : Nat} {op : Connective}
    (h : connectiveAt? current next = some (power, op, width)) : power = op.power := by
  unfold connectiveAt? at h
  split at h <;> first | (cases h <;> rfl) | (split at h <;> cases h <;> rfl)

theorem Stops.below {least : Nat} (h : Stops (least + 1) rest)
    (hleast : least = notPower ∨ least = unaryPower) : Stops least rest := by
  have hpower : ∀ op : Connective, op.power ≠ least := by
    intro op heq
    have hmem := op.power_mem
    rw [heq] at hmem
    rcases hleast with rfl | rfl <;> exact absurd hmem (by decide)
  unfold Stops stops at h ⊢
  split at h
  · cases h
  · cases h
  · cases h
  · cases h
  · rcases hleast with rfl | rfl <;> rfl
  · split at h
    · rfl
    · rename_i power op width hop
      have hlt : power < least + 1 := of_decide_eq_true h
      have hne := connectiveAt?_power hop ▸ hpower op
      exact decide_eq_true (by omega)

theorem heads_unary {op : UnaryOp} (h : Leads depth power ls e) (hpower : unaryPower ≤ power) :
    Heads (depth + 1) unaryPower (.sign op.sign :: ls) (.unary op e) := by
  intro ts rest hts hrest
  obtain ⟨s, us, rfl, hus⟩ := hts.cons rfl
  have hoperand := h.operand hpower hus (hrest.below (.inr rfl))
  have hstep : headed (operand (depth + 1)) (⟨.symbol op.sign, s⟩ :: (us ++ rest)) =
      (operand (depth + 1) unaryPower >>= fun e => pure (.unary op e)) (us ++ rest) := by
    cases op <;> rfl
  rw [List.cons_append, hstep, bind_ok hoperand]
  rfl

theorem heads_not (h : Leads depth power ls e) (hpower : notPower ≤ power) :
    Heads (depth + 1) notPower (.word "not".toList :: .blank :: ls) (.not e) := by
  intro ts rest hts hrest
  obtain ⟨s, us, rfl, hus⟩ := hts.cons (show _ = some (.keyword .notWord) from rfl)
  have hoperand := h.operand hpower hus.blank (hrest.below (.inl rfl))
  have hstep : headed (operand (depth + 1)) (⟨.keyword .notWord, s⟩ :: (us ++ rest)) =
      (operand (depth + 1) notPower >>= fun e => pure (.not e)) (us ++ rest) := rfl
  rw [List.cons_append, hstep, bind_ok hoperand]
  rfl

/-- The tokens of an infix operator are that operator, unless `not` comes after `is`. -/
theorem connectiveAt?_print {op : Connective} (hts : Spells op.print ts)
    (hrest : (headToken rest).kind ≠ .keyword .notWord ∨ op ≠ .compare .is) :
    connectiveAt? (headToken (ts ++ rest)).kind (headToken (ts ++ rest).tail).kind =
      some (op.power, op, ts.length) := by
  cases op with
  | or =>
      obtain ⟨s, rfl⟩ := hts.single (show _ = some (.keyword .orWord) from rfl)
      rfl
  | and =>
      obtain ⟨s, rfl⟩ := hts.single (show _ = some (.keyword .andWord) from rfl)
      rfl
  | binary op =>
      obtain ⟨s, rfl⟩ := hts.single rfl
      cases op <;> rfl
  | compare op =>
      cases op with
      | isIn =>
          obtain ⟨s, rfl⟩ := hts.single (show _ = some (.keyword .inWord) from rfl)
          rfl
      | is =>
          obtain ⟨s, rfl⟩ := hts.single (show _ = some (.keyword .isWord) from rfl)
          exact if_neg (hrest.resolve_right fun h => h rfl)
      | notIn =>
          obtain ⟨s₁, _, rfl, hin⟩ := hts.cons (show _ = some (.keyword .notWord) from rfl)
          obtain ⟨s₂, rfl⟩ := hin.blank.single (show _ = some (.keyword .inWord) from rfl)
          rfl
      | isNot =>
          obtain ⟨s₁, _, rfl, hnot⟩ := hts.cons (show _ = some (.keyword .isWord) from rfl)
          obtain ⟨s₂, rfl⟩ := hnot.blank.single (show _ = some (.keyword .notWord) from rfl)
          rfl
      | _ =>
          obtain ⟨s, rfl⟩ := hts.single rfl
          rfl

theorem stops_of_connective {current next : TokenKind} {least width : Nat} {op : Connective}
    (h : connectiveAt? current next = some (power, op, width)) (hpower : power < least) :
    stops least current next = true := by
  unfold stops
  split
  · cases h
  · cases h
  · cases h
  · cases h
  · cases h
  · rw [h]
    exact decide_eq_true hpower

/-- An infix operator with its operands is the first link of a chain. -/
theorem leads_connective {op : Connective} {left right : Nat} {rs : List Lexeme} {lhs rhs : Expr}
    (hleft : op.power ≤ left) (hright : op.power + 1 ≤ right) (hlhs : Leads (depth + 1) left ls lhs)
    (hrhs : Leads depth right rs rhs) (hrs : Phrase right rs) :
    Leads (depth + 1) op.power (ls ++ .blank :: (op.print ++ .blank :: rs)) (op.apply lhs rhs) := by
  intro least ts rest hleast hts hrest
  obtain ⟨us, _, rfl, hus, hop⟩ := hts.append
  obtain ⟨vs, ws, rfl, hvs, hws⟩ := hop.blank.append
  obtain ⟨t, ws, rfl, -, hnot, -⟩ := hws.blank.phrase hrs
  have hfirst : (headToken (t :: ws ++ rest)).kind ≠ .keyword .notWord ∨ op ≠ .compare .is := by
    by_cases his : op = .compare .is
    · subst his
      exact .inl fun hkind => absurd (Nat.le_trans hright (hnot hkind)) (by decide)
    · exact .inr his
  have hconnective := connectiveAt?_print hvs hfirst
  obtain ⟨fuel, hfuel, hchain⟩ := hlhs least us (vs ++ (t :: ws ++ rest))
    (Nat.le_trans hleast hleft) hus (stops_of_connective hconnective (by omega))
  obtain ⟨fuel, rfl⟩ := Nat.exists_eq_add_one.mpr (Nat.lt_of_le_of_lt (Nat.zero_le _) hfuel)
  refine ⟨fuel, ?_, ?_⟩
  · simp only [List.length_append, List.length_cons] at hfuel
    omega
  · rw [List.append_assoc, List.append_assoc, hchain, chainLoop_connective hconnective hleast,
      List.drop_left, bind_ok (hrhs.operand hright hws.blank hrest)]

end Operands

end TemplateEngine.Parser
