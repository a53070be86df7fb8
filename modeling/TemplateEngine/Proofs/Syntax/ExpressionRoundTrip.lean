import TemplateEngine.Proofs.Syntax.ExpressionReading

/-!
# Expressions read back

Items, entries and arguments are read one after the other up to the bracket that closes
them, so what is in brackets is read whole where its parts are. The tree of every
expression that the grammar admits comes back from its text, as long as it is not too
high for the depth that operands may nest to.
-/
namespace TemplateEngine.Parser

open Lexeme

/-- An expression that stands among others is read whole. -/
structure Item (depth : Nat) (e : Expr) : Prop where
  phrase : Phrase e.power e.print
  completes : Completes depth e.print e

section Sequences

variable {depth fuel : Nat} {ls : List Lexeme} {items : List Expr}
  {entries : List (Expr × Expr)} {keywords : List (Text × Expr)} {ts X : List Token}

/-- Neither a comma nor what comes after the last item goes on with an item. -/
theorem stops_separated (hts : Spells (separated ls) ts) (hX : Stops conditionalPower X) :
    Stops conditionalPower (ts ++ X) := by
  obtain ⟨-, rfl⟩ | ⟨-, s, us, rfl, -⟩ := hts.separated
  · exact hX
  · rfl

theorem printItems_ne_nil {e : Expr} (he : Item depth e) (others : List Lexeme) :
    printItems (e :: items) others ≠ [] := by
  obtain ⟨kind, kinds', hkinds, -⟩ := he.phrase.begins
  intro h
  obtain ⟨hprint, -⟩ := List.append_eq_nil_iff.mp h
  rw [hprint] at hkinds
  cases hkinds

theorem Item.first {e : Expr} (he : Item depth e) {us : List Token} (hus : Spells e.print us)
    {k : TokenKind} (hk : k.begins = false) : (headToken (us ++ X)).kind ≠ k := by
  obtain ⟨t, us, rfl, hbegins, -⟩ := hus.phrase he.phrase
  exact ne_of_begins hbegins hk

theorem Item.length {e : Expr} (he : Item depth e) {us : List Token} (hus : Spells e.print us) :
    0 < us.length := by
  obtain ⟨t, us, rfl, -⟩ := hus.phrase he.phrase
  exact Nat.succ_pos _

/-- The items of a list are read up to its bracket. -/
theorem itemsLoop_print (h : ∀ e ∈ items, Item depth e) (hts : Spells (printItems items []) ts)
    (s : Span) (rest : List Token) (hfuel : ts.length < fuel) :
    itemsLoop (operand depth) .rightBracket fuel (ts ++ ⟨.symbol .rightBracket, s⟩ :: rest) =
      .ok (items, ⟨.symbol .rightBracket, s⟩ :: rest) := by
  induction items generalizing ts fuel with
  | nil =>
      obtain rfl := hts.eq_nil
      obtain ⟨fuel, rfl⟩ := Nat.exists_eq_add_one.mpr hfuel
      rfl
  | cons e items ih =>
      have he := h e List.mem_cons_self
      have hitems : ∀ d ∈ items, Item depth d := fun d hd => h d (List.mem_cons_of_mem e hd)
      rw [printItems] at hts
      obtain ⟨us, vs, rfl, hus, hvs⟩ := hts.append
      obtain ⟨fuel, rfl⟩ := Nat.exists_eq_add_one.mpr (Nat.lt_of_le_of_lt (Nat.zero_le _) hfuel)
      have hitem := he.completes.expression hus
        (stops_separated hvs (show Stops _ (⟨.symbol .rightBracket, s⟩ :: rest) from rfl))
      rw [List.append_assoc, itemsLoop, bind_at (he.first hus rfl),
        if_neg Bool.false_ne_true, bind_ok hitem]
      obtain ⟨hnone, rfl⟩ | ⟨-, s', ws, rfl, hws⟩ := hvs.separated
      · cases items with
        | nil => rfl
        | cons d items => exact absurd hnone (printItems_ne_nil (hitems d List.mem_cons_self) [])
      · have hlength := he.length hus
        simp only [List.length_append, List.length_cons] at hfuel
        rw [List.cons_append, skipSymbol, bind_skip, if_pos rfl,
          bind_ok (ih hitems hws (by omega))]
        rfl

/-- The items of a tuple after its first one are read up to what does not go on with it. -/
theorem tupleLoop_print {stop : TokenKind → Bool} (hstop : ∀ k, k.begins = true → stop k = false)
    (hX : Stops conditionalPower X) (hcomma : (headToken X).kind ≠ .symbol .comma)
    (h : ∀ e ∈ items, Item depth e) (hts : Spells (separated (printItems items [])) ts)
    (hfuel : ts.length < fuel) :
    tupleLoop (operand depth) stop fuel (ts ++ X) = .ok (items, X) := by
  induction items generalizing ts fuel with
  | nil =>
      obtain rfl := Spells.eq_nil hts
      obtain ⟨fuel, rfl⟩ := Nat.exists_eq_add_one.mpr hfuel
      rw [tupleLoop, skipSymbol, List.nil_append, bind_skip_false hcomma]
      rfl
  | cons e items ih =>
      have he := h e List.mem_cons_self
      have hitems : ∀ d ∈ items, Item depth d := fun d hd => h d (List.mem_cons_of_mem e hd)
      obtain ⟨hnone, -⟩ | ⟨-, s, ws, rfl, hws⟩ := hts.separated
      · exact absurd hnone (printItems_ne_nil he [])
      · rw [printItems] at hws
        obtain ⟨us, vs, rfl, hus, hvs⟩ := hws.append
        obtain ⟨fuel, rfl⟩ := Nat.exists_eq_add_one.mpr (Nat.lt_of_le_of_lt (Nat.zero_le _) hfuel)
        simp only [List.length_append, List.length_cons] at hfuel
        have hgoOn : ¬ stop (headToken (us ++ (vs ++ X))).kind = true := by
          obtain ⟨t, us, rfl, hbegins, -⟩ := hus.phrase he.phrase
          exact Bool.not_eq_true _ ▸ hstop t.kind hbegins
        have hitem := he.completes.expression hus (stops_separated hvs hX)
        have hothers := ih hitems hvs (show vs.length < fuel by omega)
        rw [List.cons_append, List.append_assoc, tupleLoop, skipSymbol, bind_skip, if_pos rfl,
          bind_kind, if_neg hgoOn, bind_ok hitem, bind_ok hothers]
        rfl

/-- The entries of a dict are read up to its brace. -/
theorem entriesLoop_print (hkeys : ∀ entry ∈ entries, Item depth entry.1)
    (hvalues : ∀ entry ∈ entries, Item depth entry.2) (hts : Spells (printEntries entries) ts)
    (s : Span) (rest : List Token) (hfuel : ts.length < fuel) :
    entriesLoop (operand depth) fuel (ts ++ ⟨.symbol .rightBrace, s⟩ :: rest) =
      .ok (entries, ⟨.symbol .rightBrace, s⟩ :: rest) := by
  induction entries generalizing ts fuel with
  | nil =>
      obtain rfl := hts.eq_nil
      obtain ⟨fuel, rfl⟩ := Nat.exists_eq_add_one.mpr hfuel
      rfl
  | cons entry entries ih =>
      obtain ⟨key, value⟩ := entry
      have hkey : Item depth key := hkeys _ List.mem_cons_self
      have hvalue : Item depth value := hvalues _ List.mem_cons_self
      have hkeys' : ∀ entry ∈ entries, Item depth entry.1 := fun entry hentry =>
        hkeys entry (List.mem_cons_of_mem _ hentry)
      have hvalues' : ∀ entry ∈ entries, Item depth entry.2 := fun entry hentry =>
        hvalues entry (List.mem_cons_of_mem _ hentry)
      rw [printEntries] at hts
      obtain ⟨us, _, rfl, hus, hcolon⟩ := hts.append
      obtain ⟨s', _, rfl, hrest⟩ := hcolon.cons rfl
      obtain ⟨vs, ws, rfl, hvs, hws⟩ := hrest.blank.append
      obtain ⟨fuel, rfl⟩ := Nat.exists_eq_add_one.mpr (Nat.lt_of_le_of_lt (Nat.zero_le _) hfuel)
      simp only [List.length_append, List.length_cons] at hfuel
      have hfirst := hkey.completes.expression hus (show Stops _ (⟨.symbol .colon, s'⟩ ::
        (vs ++ (ws ++ ⟨.symbol .rightBrace, s⟩ :: rest))) from rfl)
      have hsecond := hvalue.completes.expression hvs
        (stops_separated hws (show Stops _ (⟨.symbol .rightBrace, s⟩ :: rest) from rfl))
      simp only [List.append_assoc, List.cons_append]
      rw [entriesLoop, bind_at (hkey.first hus rfl), if_neg Bool.false_ne_true,
        bind_ok hfirst, expectSymbol, bind_expect, bind_ok hsecond]
      obtain ⟨hnone, rfl⟩ | ⟨-, s'', zs, rfl, hzs⟩ := hws.separated
      · cases entries with
        | nil => rfl
        | cons entry entries =>
            obtain ⟨kind, others, hkinds, -⟩ := (hkeys' entry List.mem_cons_self).phrase.begins
            rw [printEntries] at hnone
            rw [(List.append_eq_nil_iff.mp hnone).1] at hkinds
            cases hkinds
      · simp only [List.length_cons] at hfuel
        rw [List.cons_append, skipSymbol, bind_skip, if_pos rfl,
          bind_ok (ih hkeys' hvalues' hzs (by omega))]
        rfl

/-- An expression does not look like the name of an argument. -/
theorem argumentName?_print {e : Expr} (he : Item depth e) {us : List Token}
    (hus : Spells e.print us) (hX : (headToken X).kind ≠ .symbol .equals) :
    argumentName? (headToken (us ++ X)).kind (headToken (us ++ X).tail).kind = none := by
  obtain ⟨⟨kind, span⟩, us, rfl, -, -, hname⟩ := hus.phrase he.phrase
  unfold argumentName?
  split
  · rename_i n hkind hequals
    refine absurd ?_ (hname n hkind)
    cases us with
    | nil => exact absurd hequals hX
    | cons t us => exact congrArg some hequals
  · rfl

/-- Named arguments are read after those before them, each name once. -/
theorem argumentsLoop_keywords (args : List Expr) {before : List (Text × Expr)}
    (hnames : ∀ keyword ∈ keywords, IsName keyword.1)
    (hvalues : ∀ keyword ∈ keywords, Item depth keyword.2)
    (hnodup : ((before ++ keywords).map Prod.fst).Nodup) (hts : Spells (printKeywords keywords) ts)
    (s : Span) (rest : List Token) (hfuel : ts.length < fuel) :
    argumentsLoop (operand depth) args before fuel (ts ++ ⟨.symbol .rightParen, s⟩ :: rest) =
      .ok ((args, before ++ keywords), ⟨.symbol .rightParen, s⟩ :: rest) := by
  induction keywords generalizing before ts fuel with
  | nil =>
      obtain rfl := hts.eq_nil
      obtain ⟨fuel, rfl⟩ := Nat.exists_eq_add_one.mpr hfuel
      rw [List.append_nil]
      rfl
  | cons keyword keywords ih =>
      obtain ⟨n, value⟩ := keyword
      have hvalue : Item depth value := hvalues _ List.mem_cons_self
      have hfresh : ¬ (before.any fun entry => entry.1 = n) = true := by
        intro hany
        obtain ⟨entry, hentry, hn⟩ := List.any_eq_true.mp hany
        rw [List.map_append, List.nodup_append] at hnodup
        exact hnodup.2.2 _ (List.mem_map_of_mem hentry) n (by simp) (of_decide_eq_true hn)
      rw [printKeywords] at hts
      obtain ⟨s₁, _, rfl, hequals⟩ := hts.name (hnames _ List.mem_cons_self)
      obtain ⟨s₂, _, rfl, hrest⟩ := hequals.cons rfl
      obtain ⟨vs, ws, rfl, hvs, hws⟩ := hrest.append
      obtain ⟨fuel, rfl⟩ := Nat.exists_eq_add_one.mpr (Nat.lt_of_le_of_lt (Nat.zero_le _) hfuel)
      simp only [List.length_append, List.length_cons] at hfuel
      have hitem := hvalue.completes.expression hvs
        (stops_separated hws (show Stops _ (⟨.symbol .rightParen, s⟩ :: rest) from rfl))
      have hname : ∀ Y, argumentsLoop (operand depth) args before (fuel + 1)
          (⟨.identifier n, s₁⟩ :: ⟨.symbol .equals, s₂⟩ :: Y) =
          named (operand depth) args before (fun args keywords =>
            argumentsLoop (operand depth) args keywords fuel) n Y := by
        intro Y
        rw [argumentsLoop_succ]
        rfl
      have hnamed : named (operand depth) args before (fun args keywords =>
            argumentsLoop (operand depth) args keywords fuel) n
            (vs ++ (ws ++ ⟨.symbol .rightParen, s⟩ :: rest)) =
          (skip (.symbol .comma) >>= fun more =>
            if more then argumentsLoop (operand depth) args (before ++ [(n, value)]) fuel
            else pure (args, before ++ [(n, value)])) (ws ++ ⟨.symbol .rightParen, s⟩ :: rest) := by
        rw [named, bind_ok hitem, if_neg hfresh]
        rfl
      simp only [List.cons_append, List.append_assoc]
      rw [hname, hnamed]
      obtain ⟨hnone, rfl⟩ | ⟨-, s₃, zs, rfl, hzs⟩ := hws.separated
      · cases keywords with
        | nil => rfl
        | cons keyword keywords => cases hnone
      · simp only [List.length_cons] at hfuel
        rw [List.append_cons before (n, value) keywords] at hnodup ⊢
        rw [List.cons_append, bind_skip, if_pos rfl]
        refine ih (fun keyword hkeyword => hnames keyword (List.mem_cons_of_mem _ hkeyword))
          (fun keyword hkeyword => hvalues keyword (List.mem_cons_of_mem _ hkeyword))
          hnodup hzs ?_
        omega

/-- The arguments of a call are read up to its parenthesis. -/
theorem argumentsLoop_print {before : List Expr} (hargs : ∀ e ∈ items, Item depth e)
    (hnames : ∀ keyword ∈ keywords, IsName keyword.1)
    (hvalues : ∀ keyword ∈ keywords, Item depth keyword.2)
    (hnodup : (keywords.map Prod.fst).Nodup)
    (hts : Spells (printItems items (printKeywords keywords)) ts) (s : Span) (rest : List Token)
    (hfuel : ts.length < fuel) :
    argumentsLoop (operand depth) before [] fuel (ts ++ ⟨.symbol .rightParen, s⟩ :: rest) =
      .ok ((before ++ items, keywords), ⟨.symbol .rightParen, s⟩ :: rest) := by
  induction items generalizing before ts fuel with
  | nil =>
      rw [List.append_nil]
      exact argumentsLoop_keywords before hnames hvalues
        (show (([] ++ keywords).map Prod.fst).Nodup from hnodup) hts s rest hfuel
  | cons e items ih =>
      have he := hargs e List.mem_cons_self
      rw [printItems] at hts
      obtain ⟨us, vs, rfl, hus, hvs⟩ := hts.append
      obtain ⟨fuel, rfl⟩ := Nat.exists_eq_add_one.mpr (Nat.lt_of_le_of_lt (Nat.zero_le _) hfuel)
      have hitem := he.completes.expression hus
        (stops_separated hvs (show Stops _ (⟨.symbol .rightParen, s⟩ :: rest) from rfl))
      have hequals : (headToken (vs ++ ⟨.symbol .rightParen, s⟩ :: rest)).kind ≠ .symbol .equals := by
        obtain ⟨-, rfl⟩ | ⟨-, s', ws, rfl, -⟩ := hvs.separated <;> simp [headToken]
      have hpositional : positional (operand depth) before [] (fun args keywords =>
            argumentsLoop (operand depth) args keywords fuel)
            (us ++ (vs ++ ⟨.symbol .rightParen, s⟩ :: rest)) =
          (skip (.symbol .comma) >>= fun more =>
            if more then argumentsLoop (operand depth) (before ++ [e]) [] fuel
            else pure (before ++ [e], [])) (vs ++ ⟨.symbol .rightParen, s⟩ :: rest) := by
        have hstep : ∀ next, positional (operand depth) before [] next =
            (expressionWith (operand depth) >>= fun arg => skip (.symbol .comma) >>= fun more =>
              if more then next (before ++ [arg]) [] else pure (before ++ [arg], [])) :=
          fun _ => rfl
        rw [hstep, bind_ok hitem]
      have hargument : ∀ next, argument (operand depth) before [] next
          (headToken (us ++ (vs ++ ⟨.symbol .rightParen, s⟩ :: rest))).kind
          (headToken (us ++ (vs ++ ⟨.symbol .rightParen, s⟩ :: rest)).tail).kind =
            positional (operand depth) before [] next := by
        intro next
        rw [argument, argumentName?_print he hus hequals]
      rw [List.append_assoc, argumentsLoop_succ, bind_at (he.first hus rfl),
        if_neg Bool.false_ne_true, bind_kind, bind_nextKind, hargument, hpositional]
      have hlength := he.length hus
      simp only [List.length_append] at hfuel
      obtain ⟨hnone, rfl⟩ | ⟨-, s', ws, rfl, hws⟩ := hvs.separated
      · cases items with
        | cons d items =>
            exact absurd hnone (printItems_ne_nil (hargs d (by simp)) _)
        | nil =>
            cases keywords with
            | nil => rfl
            | cons keyword keywords => cases hnone
      · simp only [List.length_cons] at hfuel
        rw [List.cons_append, bind_skip, if_pos rfl, List.append_cons before e items]
        refine ih (fun d hd => hargs d (List.mem_cons_of_mem e hd)) hws ?_
        omega

end Sequences

section Brackets

variable {depth : Nat} {ls : List Lexeme} {e : Expr} {items : List Expr}

theorem trails_list (h : ∀ e ∈ items, Item depth e) :
    Trails depth (Expr.list items).print (.list items) := by
  refine trails_atom (by simp) fun s₁ s₂ us rest hus => ?_
  have hitems : looping (itemsLoop (operand depth) .rightBracket)
      (us ++ ⟨.symbol .rightBracket, s₂⟩ :: rest) =
        .ok (items, ⟨.symbol .rightBracket, s₂⟩ :: rest) := by
    refine itemsLoop_print h hus s₂ rest ?_
    rw [List.length_append]
    omega
  have hstep : ∀ X, atom (operand depth) (⟨.symbol .leftBracket, s₁⟩ :: X) =
      (itemsUntil (operand depth) .rightBracket >>= fun items => pure (.list items)) X :=
    fun _ => rfl
  have huntil : itemsUntil (operand depth) .rightBracket
      (us ++ ⟨.symbol .rightBracket, s₂⟩ :: rest) = .ok (items, rest) := by
    rw [itemsUntil, bind_ok hitems, expectSymbol, bind_expect]
    rfl
  rw [hstep, bind_ok huntil]
  rfl

theorem trails_dict {entries : List (Expr × Expr)} (hkeys : ∀ entry ∈ entries, Item depth entry.1)
    (hvalues : ∀ entry ∈ entries, Item depth entry.2) :
    Trails depth (Expr.dict entries).print (.dict entries) := by
  refine trails_atom (by simp) fun s₁ s₂ us rest hus => ?_
  have hentries : looping (entriesLoop (operand depth)) (us ++ ⟨.symbol .rightBrace, s₂⟩ :: rest) =
      .ok (entries, ⟨.symbol .rightBrace, s₂⟩ :: rest) := by
    refine entriesLoop_print hkeys hvalues hus s₂ rest ?_
    rw [List.length_append]
    omega
  have hstep : ∀ X, atom (operand depth) (⟨.symbol .leftBrace, s₁⟩ :: X) =
      (looping (entriesLoop (operand depth)) >>= fun entries =>
        expect (.symbol .rightBrace) >>= fun _ => pure (.dict entries)) X := fun _ => rfl
  rw [hstep, bind_ok hentries, bind_expect]
  rfl

/-- What follows the first item of a tuple, up to its parenthesis. -/
theorem parenthesized_tuple (he : Item depth e) (h : ∀ d ∈ items, Item depth d)
    {us vs : List Token} (hus : Spells e.print us)
    (hvs : Spells (separated (printItems items []) ++
      if items.isEmpty then [.sign .comma] else []) vs) (s : Span) (rest : List Token) :
    parenthesized (operand depth) (us ++ (vs ++ ⟨.symbol .rightParen, s⟩ :: rest)) =
      .ok (.tuple (e :: items), rest) := by
  have hnext : ∃ s' ws, vs = ⟨.symbol .comma, s'⟩ :: ws := by
    cases items with
    | nil =>
        obtain ⟨s', hvs⟩ := Spells.single hvs rfl
        exact ⟨s', [], hvs⟩
    | cons d items =>
        obtain ⟨ws, zs, rfl, hws, -⟩ := hvs.append
        obtain ⟨hnone, -⟩ | ⟨-, s', ws, rfl, -⟩ := hws.separated
        · exact absurd hnone (printItems_ne_nil (h d List.mem_cons_self) [])
        · exact ⟨s', ws ++ zs, rfl⟩
  have hothers : looping (tupleLoop (operand depth) fun k => k = .symbol .rightParen)
      (vs ++ ⟨.symbol .rightParen, s⟩ :: rest) = .ok (items, ⟨.symbol .rightParen, s⟩ :: rest) := by
    cases items with
    | nil =>
        obtain ⟨s', rfl⟩ := Spells.single hvs rfl
        rfl
    | cons d items =>
        rw [List.isEmpty_cons, if_neg Bool.false_ne_true, List.append_nil] at hvs
        refine tupleLoop_print (fun k hk => decide_eq_false (ne_of_begins hk rfl)) rfl
          (by simp [headToken]) h hvs ?_
        rw [List.length_append]
        omega
  obtain ⟨s', ws, rfl⟩ := hnext
  have hfirst := he.completes.expression hus (show Stops _
    (⟨.symbol .comma, s'⟩ :: (ws ++ ⟨.symbol .rightParen, s⟩ :: rest)) from rfl)
  have hcomma : (headToken (⟨.symbol .comma, s'⟩ :: (ws ++ ⟨.symbol .rightParen, s⟩ :: rest))).kind ≠
      .symbol .rightParen := by simp [headToken]
  rw [List.cons_append] at hothers ⊢
  rw [parenthesized, skipSymbol, bind_skip_false (he.first hus rfl), if_neg Bool.false_ne_true,
    bind_ok hfirst, bind_skip_false hcomma, if_neg Bool.false_ne_true, bind_ok hothers,
    expectSymbol, bind_expect]
  rfl

theorem trails_tuple (h : ∀ e ∈ items, Item depth e) :
    Trails depth (Expr.tuple items).print (.tuple items) := by
  refine trails_atom (by simp) fun s₁ s₂ us rest hus => ?_
  have hstep : ∀ X, atom (operand depth) (⟨.symbol .leftParen, s₁⟩ :: X) =
      parenthesized (operand depth) X := fun _ => rfl
  rw [hstep]
  cases items with
  | nil =>
      obtain rfl := Spells.eq_nil hus
      rfl
  | cons e items =>
      have hprint : Spells (e.print ++ (separated (printItems items []) ++
          if items.isEmpty then [.sign .comma] else [])) us := by
        rw [← List.append_assoc]
        cases items <;> exact hus
      obtain ⟨us, vs, rfl, hus, hvs⟩ := hprint.append
      rw [List.append_assoc]
      exact parenthesized_tuple (h e List.mem_cons_self)
        (fun d hd => h d (List.mem_cons_of_mem e hd)) hus hvs s₂ rest

theorem subscript_other {operand : Nat → Parser Expr} {ts : List Token}
    (h : (headToken ts).kind ≠ .symbol .colon) (object : Expr) :
    subscript operand object ts =
      (expressionWith operand >>= fun e => subscriptFrom operand object (some e)) ts := by
  rw [subscript, bind_at h]
  rfl

theorem trails_index {key : Expr} (h : Trails depth ls e) (hkey : Item depth key) :
    Trails depth (ls ++ .sign .leftBracket :: (key.print ++ [.sign .rightBracket]))
      (.index e key) := by
  refine trails_bracketed h fun s₁ s₂ us rest fuel hus => ?_
  have hfirst := hkey.completes.expression hus
    (show Stops _ (⟨.symbol .rightBracket, s₂⟩ :: rest) from rfl)
  have hsubscript : subscript (operand depth) e (us ++ ⟨.symbol .rightBracket, s₂⟩ :: rest) =
      .ok (.index e key, rest) := by
    rw [subscript_other (hkey.first hus rfl), bind_ok hfirst]
    rfl
  have hstep : ∀ X, trailersLoop (operand depth) e (fuel + 1) (⟨.symbol .leftBracket, s₁⟩ :: X) =
      (subscript (operand depth) e >>= fun e => trailersLoop (operand depth) e fuel) X :=
    fun _ => rfl
  rw [hstep, bind_ok hsubscript]

/-- The second bound of a slice is read up to the bracket. -/
theorem subscriptFrom_bound {start stop : Option Expr} (hstop : ∀ e ∈ stop, Item depth e)
    {us : List Token} (hus : Spells (printBound stop) us) (s₁ s₂ : Span) (rest : List Token) :
    subscriptFrom (operand depth) e start
      (⟨.symbol .colon, s₁⟩ :: (us ++ ⟨.symbol .rightBracket, s₂⟩ :: rest)) =
        .ok (.slice e start stop, rest) := by
  cases stop with
  | none =>
      obtain rfl := Spells.eq_nil hus
      rfl
  | some bound =>
      have hbound := hstop bound rfl
      have hsecond := hbound.completes.expression hus
        (show Stops _ (⟨.symbol .rightBracket, s₂⟩ :: rest) from rfl)
      unfold subscriptFrom
      rw [skipSymbol, bind_skip, if_pos rfl, bind_at (hbound.first hus rfl),
        if_neg Bool.false_ne_true, bind_ok hsecond]
      rfl

theorem trails_slice {start stop : Option Expr} (h : Trails depth ls e)
    (hstart : ∀ e ∈ start, Item depth e) (hstop : ∀ e ∈ stop, Item depth e) :
    Trails depth (ls ++ .sign .leftBracket :: (printBound start ++
      .sign .colon :: printBound stop ++ [.sign .rightBracket])) (.slice e start stop) := by
  refine trails_bracketed h fun s₁ s₂ us rest fuel hus => ?_
  obtain ⟨vs, _, rfl, hvs, hcolon⟩ := hus.append
  obtain ⟨s₃, ws, rfl, hws⟩ := hcolon.cons rfl
  have hbound := @subscriptFrom_bound depth e start stop hstop ws hws s₃ s₂ rest
  have hsubscript : subscript (operand depth) e
      (vs ++ ⟨.symbol .colon, s₃⟩ :: (ws ++ ⟨.symbol .rightBracket, s₂⟩ :: rest)) =
        .ok (.slice e start stop, rest) := by
    cases start with
    | none =>
        obtain rfl := Spells.eq_nil hvs
        exact hbound
    | some first =>
        have hitem := hstart first rfl
        have hfirst := hitem.completes.expression hvs (show Stops _ (⟨.symbol .colon, s₃⟩ ::
          (ws ++ ⟨.symbol .rightBracket, s₂⟩ :: rest)) from rfl)
        rw [subscript_other (hitem.first hvs rfl), bind_ok hfirst, hbound]
  have hstep : ∀ X, trailersLoop (operand depth) e (fuel + 1) (⟨.symbol .leftBracket, s₁⟩ :: X) =
      (subscript (operand depth) e >>= fun e => trailersLoop (operand depth) e fuel) X :=
    fun _ => rfl
  simp only [List.append_assoc, List.cons_append]
  rw [hstep, bind_ok hsubscript]

theorem trails_call {args : List Expr} {keywords : List (Text × Expr)} (h : Trails depth ls e)
    (hargs : ∀ e ∈ args, Item depth e) (hnames : ∀ keyword ∈ keywords, IsName keyword.1)
    (hvalues : ∀ keyword ∈ keywords, Item depth keyword.2)
    (hnodup : (keywords.map Prod.fst).Nodup) :
    Trails depth (ls ++ .sign .leftParen :: (printItems args (printKeywords keywords) ++
      [.sign .rightParen])) (.call e args keywords) := by
  refine trails_bracketed h fun s₁ s₂ us rest fuel hus => ?_
  have harguments : looping (argumentsLoop (operand depth) [] [])
      (us ++ ⟨.symbol .rightParen, s₂⟩ :: rest) =
        .ok ((args, keywords), ⟨.symbol .rightParen, s₂⟩ :: rest) := by
    refine argumentsLoop_print hargs hnames hvalues hnodup hus s₂ rest ?_
    rw [List.length_append]
    omega
  have hstep : ∀ X, trailersLoop (operand depth) e (fuel + 1) (⟨.symbol .leftParen, s₁⟩ :: X) =
      (looping (argumentsLoop (operand depth) [] []) >>= fun found =>
        expect (.symbol .rightParen) >>= fun _ =>
          trailersLoop (operand depth) (.call e found.1 found.2) fuel) X := fun _ => rfl
  rw [hstep, bind_ok harguments, bind_expect]

end Brackets

/-- An expression comes back from its text at every depth that leaves two levels of operands
for each level of its tree. -/
structure ReadsBack (e : Expr) : Prop where
  phrase : Phrase e.power e.print
  trails : e.power = postfixPower → ∀ depth, 2 * e.height ≤ depth → Trails depth e.print e
  leads : orPower ≤ e.power → ∀ depth, 2 * e.height ≤ depth → Leads depth e.power e.print e
  completes : ∀ depth, 2 * e.height < depth → Completes depth e.print e

section Trees

variable {e : Expr}

theorem ReadsBack.of_leads (hphrase : Phrase e.power e.print) (hpower : orPower ≤ e.power)
    (hother : e.power ≠ postfixPower)
    (h : ∀ depth, 2 * e.height ≤ depth → Leads depth e.power e.print e) : ReadsBack e where
  phrase := hphrase
  trails heq := absurd heq hother
  leads _ := h
  completes depth hdepth := by
    obtain ⟨depth, rfl⟩ := Nat.exists_eq_add_one.mpr (Nat.lt_of_le_of_lt (Nat.zero_le _) hdepth)
    exact (h depth (by omega)).completes hpower

theorem ReadsBack.of_trails (hphrase : Phrase e.power e.print) (hpower : e.power = postfixPower)
    (h : ∀ depth, 2 * e.height ≤ depth → Trails depth e.print e) : ReadsBack e where
  phrase := hphrase
  trails _ := h
  leads _ depth hdepth := hpower ▸ (h depth hdepth).heads.leads
  completes depth hdepth := by
    obtain ⟨depth, rfl⟩ := Nat.exists_eq_add_one.mpr (Nat.lt_of_le_of_lt (Nat.zero_le _) hdepth)
    exact (h depth (by omega)).heads.leads.completes (by decide)

theorem ReadsBack.item (h : ReadsBack e) {depth : Nat} (hdepth : 2 * e.height < depth) :
    Item depth e := ⟨h.phrase, h.completes depth hdepth⟩

/-- An operand of at least some power, with the parentheses that it needs for that. -/
theorem ReadsBack.within (h : ReadsBack e) {depth least : Nat} (hleast : orPower ≤ least)
    (hmost : least ≤ postfixPower) (hdepth : 2 * e.height < depth) :
    ∃ power, least ≤ power ∧ Phrase power (enclosed (e.power < least) e.print) ∧
      Leads depth power (enclosed (e.power < least) e.print) e := by
  unfold enclosed
  split
  · exact ⟨postfixPower, hmost, h.phrase.toSound.group (by decide),
      (trails_group (h.completes depth hdepth) h.phrase).heads.leads⟩
  · rename_i hpower
    rw [decide_eq_true_eq, Nat.not_lt] at hpower
    exact ⟨e.power, hpower, h.phrase,
      h.leads (Nat.le_trans hleast hpower) depth (Nat.le_of_lt hdepth)⟩

/-- What a trailer stands behind, with the parentheses that it needs for that. -/
theorem ReadsBack.object (h : ReadsBack e) {depth : Nat} (hdepth : 2 * e.height < depth) :
    Trails depth (enclosed (e.power < postfixPower) e.print) e := by
  unfold enclosed
  split
  · exact trails_group (h.completes depth hdepth) h.phrase
  · rename_i hpower
    rw [decide_eq_true_eq, Nat.not_lt] at hpower
    exact h.trails (Nat.le_antisymm e.power_le hpower) depth (Nat.le_of_lt hdepth)

theorem height_lt_of_mem {items : List Expr} (h : e ∈ items) : e.height < heightItems items := by
  induction items with
  | nil => cases h
  | cons d items ih =>
      rw [heightItems]
      rcases List.mem_cons.mp h with rfl | h
      · omega
      · have hlt := ih h
        omega

theorem height_lt_of_mem_entries {entries : List (Expr × Expr)} {entry : Expr × Expr}
    (h : entry ∈ entries) : entry.1.height < heightEntries entries ∧
      entry.2.height < heightEntries entries := by
  induction entries with
  | nil => cases h
  | cons other entries ih =>
      obtain ⟨key, value⟩ := other
      rw [heightEntries]
      rcases List.mem_cons.mp h with rfl | h
      · constructor <;> simp only <;> omega
      · have hlt := ih h
        omega

theorem height_lt_of_mem_keywords {keywords : List (Text × Expr)} {keyword : Text × Expr}
    (h : keyword ∈ keywords) : keyword.2.height < heightKeywords keywords := by
  induction keywords with
  | nil => cases h
  | cons other keywords ih =>
      obtain ⟨n, value⟩ := other
      rw [heightKeywords]
      rcases List.mem_cons.mp h with rfl | h
      · simp only
        omega
      · have hlt := ih h
        omega

theorem height_lt_of_mem_bound {bound : Option Expr} (h : e ∈ bound) :
    e.height < heightBound bound := by
  cases h
  exact Nat.lt_succ_self _

end Trees

end Parser

open Parser

/-- Every expression that the grammar admits comes back from its text. -/
theorem Expr.Grammatical.readsBack {e : Expr} (h : e.Grammatical) : ReadsBack e := by
  induction h with
  | constant hc => exact .of_trails (phrase_constant hc) rfl fun _ _ => trails_constant hc
  | name hn => exact .of_trails (phrase_name hn) rfl fun _ _ => trails_name hn
  | list hitems ih =>
      refine .of_trails (Expr.Grammatical.list hitems).phrase rfl fun depth hdepth =>
        trails_list fun e he => (ih e he).item ?_
      have hlt := height_lt_of_mem he
      rw [Expr.height] at hdepth
      omega
  | tuple hitems ih =>
      refine .of_trails (Expr.Grammatical.tuple hitems).phrase rfl fun depth hdepth =>
        trails_tuple fun e he => (ih e he).item ?_
      have hlt := height_lt_of_mem he
      rw [Expr.height] at hdepth
      omega
  | dict hkeys hvalues ihkeys ihvalues =>
      refine .of_trails (Expr.Grammatical.dict hkeys hvalues).phrase rfl fun depth hdepth =>
        trails_dict (fun entry hentry => (ihkeys entry hentry).item ?_)
          fun entry hentry => (ihvalues entry hentry).item ?_
      all_goals
        have hlt := height_lt_of_mem_entries hentry
        rw [Expr.height] at hdepth
        omega
  | member hobject hn ih =>
      refine .of_trails (Expr.Grammatical.member hobject hn).phrase rfl fun depth hdepth =>
        trails_attribute (ih.object ?_) hn
      rw [Expr.height] at hdepth
      omega
  | index hobject hkey ihobject ihkey =>
      refine .of_trails (Expr.Grammatical.index hobject hkey).phrase rfl fun depth hdepth =>
        trails_index (ihobject.object ?_) (ihkey.item ?_)
      all_goals
        rw [Expr.height] at hdepth
        omega
  | slice hobject hstart hstop ihobject ihstart ihstop =>
      refine .of_trails (Expr.Grammatical.slice hobject hstart hstop).phrase rfl
        fun depth hdepth => trails_slice (ihobject.object ?_)
          (fun e he => (ihstart e he).item ?_) fun e he => (ihstop e he).item ?_
      all_goals rw [Expr.height] at hdepth
      · omega
      · have hlt := height_lt_of_mem_bound he
        omega
      · have hlt := height_lt_of_mem_bound he
        omega
  | call hfunction hargs hnames hvalues hnodup ihfunction ihargs ihvalues =>
      refine .of_trails (Expr.Grammatical.call hfunction hargs hnames hvalues hnodup).phrase rfl
        fun depth hdepth => trails_call (ihfunction.object ?_)
          (fun e he => (ihargs e he).item ?_) hnames
          (fun keyword hkeyword => (ihvalues keyword hkeyword).item ?_) hnodup
      all_goals rw [Expr.height] at hdepth
      · omega
      · have hlt := height_lt_of_mem he
        omega
      · have hlt := height_lt_of_mem_keywords hkeyword
        omega
  | @unary op operand hoperand ih =>
      refine .of_leads (Expr.Grammatical.unary hoperand).phrase
        (show orPower ≤ unaryPower by decide) (show unaryPower ≠ postfixPower by decide)
        fun depth hdepth => ?_
      rw [Expr.height] at hdepth
      obtain ⟨depth, rfl⟩ := Nat.exists_eq_add_one.mpr (show 0 < depth by omega)
      obtain ⟨power, hpower, -, hleads⟩ := ih.within (show orPower ≤ unaryPower by decide)
        (by decide) (show 2 * operand.height < depth by omega)
      exact (heads_unary hleads hpower).leads
  | @not operand hoperand ih =>
      refine .of_leads (Expr.Grammatical.not hoperand).phrase
        (show orPower ≤ notPower by decide) (show notPower ≠ postfixPower by decide)
        fun depth hdepth => ?_
      rw [Expr.height] at hdepth
      obtain ⟨depth, rfl⟩ := Nat.exists_eq_add_one.mpr (show 0 < depth by omega)
      obtain ⟨power, hpower, -, hleads⟩ := ih.within (show orPower ≤ notPower by decide)
        (by decide) (show 2 * operand.height < depth by omega)
      exact (heads_not hleads hpower).leads
  | @connective op lhs rhs hlhs hrhs ihlhs ihrhs =>
      obtain ⟨hleast, hmost⟩ := op.power_lt
      refine .of_leads (Expr.Grammatical.connective hlhs hrhs).phrase
        (by rwa [op.power_apply]) (by rw [op.power_apply]; omega) fun depth hdepth => ?_
      rw [op.height_apply] at hdepth
      obtain ⟨depth, rfl⟩ := Nat.exists_eq_add_one.mpr (show 0 < depth by omega)
      obtain ⟨left, hleft, -, hlleads⟩ := ihlhs.within hleast (Nat.le_of_lt hmost)
        (show 2 * lhs.height < depth + 1 by omega)
      obtain ⟨right, hright, hrphrase, hrleads⟩ := ihrhs.within (Nat.le_succ_of_le hleast) hmost
        (show 2 * rhs.height < depth by omega)
      rw [op.power_apply, op.print_apply]
      exact leads_connective hleft hright hlleads hrleads hrphrase
  | @conditional condition thenValue elseValue hcondition hthen helse ihcondition ihthen ihelse =>
      refine ⟨(Expr.Grammatical.conditional hcondition hthen helse).phrase,
        fun h => absurd h (show conditionalPower ≠ postfixPower by decide),
        fun h => absurd h (show ¬ orPower ≤ conditionalPower by decide), fun depth hdepth => ?_⟩
      rw [Expr.height] at hdepth
      obtain ⟨depth, rfl⟩ := Nat.exists_eq_add_one.mpr (show 0 < depth by omega)
      obtain ⟨left, hleft, -, hvalue⟩ := ihthen.within (Nat.le_refl orPower) (by decide)
        (show 2 * thenValue.height < depth by omega)
      obtain ⟨middle, hmiddle, -, htest⟩ := ihcondition.within (Nat.le_refl orPower) (by decide)
        (show 2 * condition.height < depth by omega)
      exact completes_conditional hleft hmiddle hvalue htest (ihelse.completes (depth + 1) (by omega))

end TemplateEngine
