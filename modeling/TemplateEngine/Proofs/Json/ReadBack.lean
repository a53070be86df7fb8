import TemplateEngine.Json.Reader
import TemplateEngine.Json.Writer
import TemplateEngine.Proofs.Json.Numbers

/-!
# Reading JSON back

What a reader makes of the text of a value. A double that is not finite comes back
as null, everything else as it was, and nothing comes back of a value that is nested
deeper than the reader goes. The induction is on the value; whatever text follows,
as long as no number could go on with it, is left over.
-/
namespace TemplateEngine.Json

section Strings

theorem hexDigit?_hexDigit {n : Nat} (h : n < 16) : hexDigit? (hexDigit n) = some n := by
  have hall : ∀ m < 16, hexDigit? (hexDigit m) = some m := by decide
  exact hall n h

theorem stringBody?_escaped {d e : Char} (hd : d ≠ 'u') (he : escaped? d = some e) (rest : Text) :
    stringBody? ('\\' :: d :: rest) =
      (stringBody? rest).map fun (t, rest) => (e :: t, rest) := by
  rw [stringBody?.eq_def]
  split
  · rename_i heq
    cases heq
  · rename_i heq
    cases heq
  · rename_i heq
    cases heq
    exact absurd rfl hd
  · rename_i heq
    cases heq
    rw [he]
  · rename_i hother heq
    cases heq
    exact absurd rfl (hother d rest rfl)

theorem stringBody?_unit {n : Nat} (h : n < 0x20) (rest : Text) :
    stringBody? (['\\', 'u', '0', '0', hexDigit (n / 16), hexDigit (n % 16)] ++ rest) =
      (stringBody? rest).map fun (t, rest) => (Char.ofNat n :: t, rest) := by
  have hzero : hexDigit? '0' = some 0 := rfl
  have hunit : unit? '0' '0' (hexDigit (n / 16)) (hexDigit (n % 16)) = some n := by
    unfold unit?
    rw [hzero, hexDigit?_hexDigit (by omega), hexDigit?_hexDigit (by omega)]
    have hn : ((0 * 16 + 0) * 16 + n / 16) * 16 + n % 16 = n := by omega
    simp only [Option.bind_eq_bind, Option.bind_some, hn]
    rfl
  have hlow : (decide (n < 0xD800) || decide (0xE000 ≤ n)) = true := by
    simp
    omega
  show stringBody? ('\\' :: 'u' :: '0' :: '0' :: hexDigit (n / 16) :: hexDigit (n % 16) :: rest) = _
  rw [stringBody?, hunit]
  simp only [hlow, if_true]

theorem stringBody?_plain {c : Char} (hquote : c ≠ '"') (hslash : c ≠ '\\') (h : ¬ c.toNat < 0x20)
    (rest : Text) : stringBody? (c :: rest) =
      (stringBody? rest).map fun (t, rest) => (c :: t, rest) := by
  rw [stringBody?.eq_def]
  split
  · rename_i heq
    cases heq
  · rename_i heq
    cases heq
    exact absurd rfl hquote
  · rename_i heq
    cases heq
    exact absurd rfl hslash
  · rename_i heq
    cases heq
    exact absurd rfl hslash
  · rename_i heq
    cases heq
    simp [hslash, h]

/-- An encoded character is read as the character. -/
theorem stringBody?_encodeChar (c : Char) (rest : Text) :
    stringBody? (encodeChar c ++ rest) =
      (stringBody? rest).map fun (t, rest) => (c :: t, rest) := by
  unfold encodeChar
  split
  · subst c
    exact stringBody?_escaped (by decide) rfl rest
  split
  · subst c
    exact stringBody?_escaped (by decide) rfl rest
  split
  · subst c
    exact stringBody?_escaped (by decide) rfl rest
  split
  · subst c
    exact stringBody?_escaped (by decide) rfl rest
  split
  · subst c
    exact stringBody?_escaped (by decide) rfl rest
  split
  · subst c
    exact stringBody?_escaped (by decide) rfl rest
  split
  · subst c
    exact stringBody?_escaped (by decide) rfl rest
  split
  · rename_i h
    rw [stringBody?_unit h, Char.ofNat_toNat]
  · exact stringBody?_plain ‹_› ‹_› ‹_› rest

/-- A string is read up to its closing quote. -/
theorem stringBody?_encoded (t rest : Text) :
    stringBody? (t.flatMap encodeChar ++ '"' :: rest) = some (t, rest) := by
  induction t with
  | nil =>
      rw [List.flatMap_nil, List.nil_append, stringBody?]
  | cons c t ih =>
      rw [List.flatMap_cons, List.append_assoc, stringBody?_encodeChar, ih]
      rfl

end Strings

mutual

/-- How deep arrays and objects lie inside each other in a value. -/
def depth (j : Json) : Nat :=
  match j with
  | .array items => depthAll items + 1
  | .object members => depthMembers members + 1
  | _ => 0
  termination_by structural j

/-- The greatest depth of values. -/
def depthAll (items : List Json) : Nat :=
  match items with
  | [] => 0
  | item :: items => max (depth item) (depthAll items)
  termination_by structural items

/-- The greatest depth of the values of members. -/
def depthMembers (members : List (Text × Json)) : Nat :=
  match members with
  | [] => 0
  | (_, value) :: members => max (depth value) (depthMembers members)
  termination_by structural members

end

mutual

/-- What the text of a value says: the value, with null for each double that is not finite. -/
def written (j : Json) : Json :=
  match j with
  | .float x => if x.isFinite then .float x else .null
  | .array items => .array (writtenAll items)
  | .object members => .object (writtenMembers members)
  | j => j
  termination_by structural j

/-- What the texts of values say. -/
def writtenAll (items : List Json) : List Json :=
  match items with
  | [] => []
  | item :: items => written item :: writtenAll items
  termination_by structural items

/-- What the texts of members say. -/
def writtenMembers (members : List (Text × Json)) : List (Text × Json) :=
  match members with
  | [] => []
  | (name, value) :: members => (name, written value) :: writtenMembers members
  termination_by structural members

end

/-- A double whose text reads back as that double. -/
def ReadsBack (x : Float) : Prop := number? (floatText x) = some (.float x, [])

mutual

/-- A value whose integers have at most 64 bits and whose finite doubles read back. -/
def Readable (j : Json) : Prop :=
  match j with
  | .int n => -0x8000000000000000 ≤ n ∧ n < 0x10000000000000000
  | .float x => x.isFinite = true → ReadsBack x
  | .array items => ReadableAll items
  | .object members => ReadableMembers members
  | _ => True
  termination_by structural j

/-- Values that are readable. -/
def ReadableAll (items : List Json) : Prop :=
  match items with
  | [] => True
  | item :: items => Readable item ∧ ReadableAll items
  termination_by structural items

/-- Members whose values are readable. -/
def ReadableMembers (members : List (Text × Json)) : Prop :=
  match members with
  | [] => True
  | (_, value) :: members => Readable value ∧ ReadableMembers members
  termination_by structural members

end

section Heads

theorem number?_head {t : Text} {j : Json} {r : Text} (h : number? t = some (j, r)) :
    ∃ c u, t = c :: u ∧ (c.isDigit = true ∨ c = '-') := by
  have hunsigned : ∀ {minus : Bool} {t : Text}, unsigned? minus t = some (j, r) →
      ∃ c u, t = c :: u ∧ c.isDigit = true := by
    intro minus t ht
    rw [unsigned?_eq] at ht
    split at ht
    · cases ht
    · rename_i hwhole
      cases t with
      | nil => exact absurd rfl hwhole
      | cons c u =>
          refine ⟨c, u, rfl, ?_⟩
          by_contra hc
          apply hwhole
          simp [Double.leadingDigits, hc]
  unfold number? at h
  split at h
  · exact ⟨'-', _, rfl, .inr rfl⟩
  · obtain ⟨c, u, ht, hc⟩ := hunsigned h
    exact ⟨c, u, ht, .inl hc⟩

/-- The characters that a value can start with. -/
def StartsValue (c : Char) : Prop := isBlank c = false ∧ c ≠ ']' ∧ c ≠ '\x7d'

theorem startsValue_number {c : Char} (hc : c.isDigit = true ∨ c = '-') : StartsValue c := by
  rcases hc with hc | rfl
  · refine ⟨?_, ?_, ?_⟩
    · rw [Bool.eq_false_iff]
      intro hblank
      simp only [isBlank, Bool.or_eq_true, decide_eq_true_eq] at hblank
      rcases hblank with ((rfl | rfl) | rfl) | rfl <;> cases hc
    · rintro rfl
      cases hc
    · rintro rfl
      cases hc
  · exact ⟨rfl, by decide, by decide⟩

theorem text_head {j : Json} (hj : Readable j) : ∃ c u, text j = c :: u ∧ StartsValue c := by
  match j with
  | .null => exact ⟨'n', _, rfl, rfl, by decide, by decide⟩
  | .bool true => exact ⟨'t', _, rfl, rfl, by decide, by decide⟩
  | .bool false => exact ⟨'f', _, rfl, rfl, by decide, by decide⟩
  | .int n =>
      obtain ⟨c, u, ht, hc⟩ := number?_head (number?_ofInt hj)
      exact ⟨c, u, ht, startsValue_number hc⟩
  | .float x =>
      unfold text
      split
      · rename_i hx
        obtain ⟨c, u, ht, hc⟩ := number?_head (hj hx)
        exact ⟨c, u, ht, startsValue_number hc⟩
      · exact ⟨'n', _, rfl, rfl, by decide, by decide⟩
  | .string t => exact ⟨'"', _, rfl, rfl, by decide, by decide⟩
  | .array [] => exact ⟨'[', _, rfl, rfl, by decide, by decide⟩
  | .array (item :: items) => exact ⟨'[', _, rfl, rfl, by decide, by decide⟩
  | .object [] => exact ⟨'\x7b', _, rfl, rfl, by decide, by decide⟩
  | .object ((name, value) :: members) => exact ⟨'\x7b', _, rfl, rfl, by decide, by decide⟩

theorem skip_text {j : Json} (hj : Readable j) (rest : Text) :
    skip (text j ++ rest) = text j ++ rest := by
  obtain ⟨c, u, ht, hblank, -⟩ := text_head hj
  rw [ht, List.cons_append, skip, List.dropWhile_cons_of_neg]
  simp [hblank]

theorem value?_number {t : Text} {j : Json} {r : Text} (h : number? t = some (j, r)) (d : Nat) :
    value? d t = some (j, r) := by
  obtain ⟨c, u, rfl, hc⟩ := number?_head h
  rw [value?.eq_def]
  dsimp only
  split
  case h_7 => exact h
  all_goals
    rename_i heq
    cases heq
    exact absurd hc (by decide)

end Heads

section Values

theorem endsNumber_bracket (rest : Text) : EndsNumber (']' :: rest) :=
  endsNumber_cons (by decide)

theorem endsNumber_brace (rest : Text) : EndsNumber ('\x7d' :: rest) :=
  endsNumber_cons (by decide)

theorem length_itemsText (items : List Json) : items.length ≤ (itemsText items).length := by
  induction items with
  | nil => exact Nat.zero_le _
  | cons item items ih =>
      rw [itemsText]
      simp only [List.cons_append, List.length_cons, List.length_append]
      omega

theorem length_membersText (members : List (Text × Json)) :
    members.length ≤ (membersText members).length := by
  induction members with
  | nil => exact Nat.zero_le _
  | cons member members ih =>
      rw [membersText]
      simp only [List.cons_append, List.length_cons, List.length_append]
      omega

/-- A value is read from its text as what the text says, if the reader goes deep enough. -/
def Reads (d : Nat) (j : Json) : Prop :=
  ∀ rest, EndsNumber rest →
    value? d (text j ++ rest) = if depth j ≤ d then some (written j, rest) else none

theorem skip_of_head {c : Char} {t : Text} (hc : isBlank c = false) : skip (c :: t) = c :: t := by
  rw [skip, List.dropWhile_cons_of_neg]
  simp [hc]

/-- What comes after an item of an array. -/
def afterItem (item : Text → Option (Json × Text)) (fuel : Nat) (value : Json) (t : Text) :
    Option (List Json × Text) :=
  match t with
  | ',' :: rest => (items? item fuel rest).map fun (values, rest) => (value :: values, rest)
  | ']' :: rest => some ([value], rest)
  | _ => none

theorem afterItem_comma (item : Text → Option (Json × Text)) (fuel : Nat) (value : Json)
    (t : Text) : afterItem item fuel value (',' :: t) =
      (items? item fuel t).map fun (values, rest) => (value :: values, rest) := rfl

theorem items?_text_append {d fuel : Nat} {item : Json} (hitem : Reads d item)
    (hreadable : Readable item) {rest : Text} (hrest : EndsNumber rest) (hskip : skip rest = rest) :
    items? (value? d) (fuel + 1) (text item ++ rest) =
      if depth item ≤ d then afterItem (value? d) fuel (written item) rest else none := by
  rw [items?, skip_text hreadable, hitem rest hrest]
  split
  · rw [Option.bind_some]
    dsimp only
    rw [hskip]
    rfl
  · rfl

/-- What comes after a member of an object. -/
def afterMember (item : Text → Option (Json × Text)) (fuel : Nat) (known : List (Text × Json))
    (t : Text) : Option (List (Text × Json) × Text) :=
  match t with
  | ',' :: rest => members? item fuel known rest
  | '\x7d' :: rest => some (known, rest)
  | _ => none

theorem afterMember_comma (item : Text → Option (Json × Text)) (fuel : Nat)
    (known : List (Text × Json)) (t : Text) :
    afterMember item fuel known (',' :: t) = members? item fuel known t := rfl

theorem skip_stringText (name rest : Text) :
    skip (stringText name ++ rest) = stringText name ++ rest := skip_of_head rfl

theorem members?_quote (item : Text → Option (Json × Text)) (fuel : Nat)
    (known : List (Text × Json)) (t : Text) :
    members? item (fuel + 1) known ('"' :: t) =
      (stringBody? t).bind fun (name, rest) =>
        match skip rest with
        | ':' :: rest =>
          (item (skip rest)).bind fun (value, rest) =>
            afterMember item fuel (known ++ [(name, value)]) (skip rest)
        | _ => none := by
  rw [members?, skip_of_head rfl]
  rfl

theorem members?_name {item : Text → Option (Json × Text)} {fuel : Nat}
    {known : List (Text × Json)} {name t : Text} :
    members? item (fuel + 1) known (stringText name ++ ':' :: t) =
      (item (skip t)).bind fun (value, rest) =>
        afterMember item fuel (known ++ [(name, value)]) (skip rest) := by
  have hname : stringText name ++ ':' :: t =
      '"' :: (name.flatMap encodeChar ++ '"' :: ':' :: t) := by
    simp [stringText]
  rw [hname, members?_quote, stringBody?_encoded, Option.bind_some]
  dsimp only
  rw [skip_of_head rfl]
  rfl

theorem members?_text_append {d fuel : Nat} {value : Json} (hvalue : Reads d value)
    (hreadable : Readable value) (known : List (Text × Json)) (name : Text) {rest : Text}
    (hrest : EndsNumber rest) (hskip : skip rest = rest) :
    members? (value? d) (fuel + 1) known (stringText name ++ ':' :: (text value ++ rest)) =
      if depth value ≤ d then
        afterMember (value? d) fuel (known ++ [(name, written value)]) rest
      else none := by
  rw [members?_name, skip_text hreadable, hvalue rest hrest]
  split
  · rw [Option.bind_some]
    dsimp only
    rw [hskip]
  · rfl

theorem value?_bracket (d : Nat) (t : Text) : value? (d + 1) ('[' :: t) =
    match skip t with
    | ']' :: rest => some (.array [], rest)
    | rest => (items? (value? d) rest.length rest).map fun (items, rest) =>
        (.array items, rest) := by
  rw [value?.eq_def]
  rfl

theorem value?_array {d : Nat} {t : Text} (hskip : skip t = t) (ht : t.head? ≠ some ']') :
    value? (d + 1) ('[' :: t) =
      (items? (value? d) t.length t).map fun (items, rest) => (.array items, rest) := by
  rw [value?_bracket, hskip]
  split
  · exact absurd rfl ht
  · rfl

theorem value?_brace (d : Nat) (t : Text) : value? (d + 1) ('\x7b' :: t) =
    match skip t with
    | '\x7d' :: rest => some (.object [], rest)
    | rest => (members? (value? d) rest.length [] rest).map fun (members, rest) =>
        (.object members, rest) := by
  rw [value?.eq_def]
  rfl

theorem value?_object {d : Nat} {t : Text} (hskip : skip t = t) (ht : t.head? ≠ some '\x7d') :
    value? (d + 1) ('\x7b' :: t) =
      (members? (value? d) t.length [] t).map fun (members, rest) =>
        (.object members, rest) := by
  rw [value?_brace, hskip]
  split
  · exact absurd rfl ht
  · rfl

theorem value?_string (d : Nat) (t rest : Text) :
    value? d (stringText t ++ rest) = some (.string t, rest) := by
  have ht : stringText t ++ rest = '"' :: (t.flatMap encodeChar ++ '"' :: rest) := by
    simp [stringText]
  have hstart : value? d ('"' :: (t.flatMap encodeChar ++ '"' :: rest)) =
      (stringBody? (t.flatMap encodeChar ++ '"' :: rest)).map fun (t, rest) =>
        (.string t, rest) := by
    rw [value?.eq_def]
    rfl
  rw [ht, hstart, stringBody?_encoded]
  rfl

mutual

/-- Reading what was written. -/
theorem value?_text (j : Json) (hj : Readable j) (d : Nat) : Reads d j := by
  intro rest hrest
  match j with
  | .null =>
      rw [value?.eq_def]
      rfl
  | .bool true =>
      rw [value?.eq_def]
      rfl
  | .bool false =>
      rw [value?.eq_def]
      rfl
  | .int n =>
      have hread := number?_append hrest (number?_ofInt hj)
      exact value?_number hread d
  | .float x =>
      unfold text written
      split
      · rename_i hx
        exact value?_number (number?_append hrest (hj hx)) d
      · rw [value?.eq_def]
        rfl
  | .string t => exact value?_string d t rest
  | .array [] =>
      cases d with
      | zero =>
          rw [value?.eq_def]
          rfl
      | succ d =>
          rw [value?.eq_def]
          rfl
  | .array (item :: items) =>
      obtain ⟨hitem, hitems⟩ := hj
      have ht : text (.array (item :: items)) ++ rest =
          '[' :: (text item ++ (itemsText items ++ ']' :: rest)) := by
        simp [text]
      cases d with
      | zero =>
          rw [ht, value?.eq_def]
          rfl
      | succ d =>
          have hskip := skip_text hitem (itemsText items ++ ']' :: rest)
          obtain ⟨c, u, hc, -, hclose, -⟩ := text_head hitem
          have hlength := length_itemsText items
          rw [ht, value?_array hskip,
            items?_text items hitems _ (value?_text item hitem d) hitem rest]
          · by_cases hd : max (depth item) (depthAll items) ≤ d
            · have hdepth : depth (.array (item :: items)) ≤ d + 1 := Nat.succ_le_succ hd
              rw [if_pos hd, if_pos hdepth]
              rfl
            · have hdepth : ¬ depth (.array (item :: items)) ≤ d + 1 :=
                fun h => hd (Nat.le_of_succ_le_succ h)
              rw [if_neg hd, if_neg hdepth]
              rfl
          · simp only [List.length_append, List.length_cons]
            omega
          · rw [hc]
            intro heq
            exact hclose (Option.some.inj heq)
  | .object [] =>
      cases d with
      | zero =>
          rw [value?.eq_def]
          rfl
      | succ d =>
          rw [value?.eq_def]
          rfl
  | .object ((name, value) :: members) =>
      obtain ⟨hvalue, hmembers⟩ := hj
      have ht : text (.object ((name, value) :: members)) ++ rest =
          '\x7b' :: (stringText name ++
            ':' :: (text value ++ (membersText members ++ '\x7d' :: rest))) := by
        simp [text]
      cases d with
      | zero =>
          rw [ht, value?.eq_def]
          rfl
      | succ d =>
          have hlength := length_membersText members
          have hskip := skip_stringText name
            (':' :: (text value ++ (membersText members ++ '\x7d' :: rest)))
          rw [ht, value?_object hskip,
            members?_text members hmembers _ (value?_text value hvalue d) hvalue [] name rest]
          · by_cases hd : max (depth value) (depthMembers members) ≤ d
            · have hdepth : depth (.object ((name, value) :: members)) ≤ d + 1 :=
                Nat.succ_le_succ hd
              rw [if_pos hd, if_pos hdepth]
              rfl
            · have hdepth : ¬ depth (.object ((name, value) :: members)) ≤ d + 1 :=
                fun h => hd (Nat.le_of_succ_le_succ h)
              rw [if_neg hd, if_neg hdepth]
              rfl
          · simp only [List.length_append, List.length_cons]
            omega
          · intro heq
            cases heq

theorem items?_text (items : List Json) (hitems : ReadableAll items) {d fuel : Nat}
    (hfuel : items.length < fuel) {first : Json} (hfirst : Reads d first)
    (hreadable : Readable first) (rest : Text) :
    items? (value? d) fuel (text first ++ (itemsText items ++ ']' :: rest)) =
      if max (depth first) (depthAll items) ≤ d then
        some (written first :: writtenAll items, rest)
      else none := by
  obtain ⟨fuel, rfl⟩ := Nat.exists_eq_add_one.mpr (Nat.lt_of_le_of_lt (Nat.zero_le _) hfuel)
  match items with
  | [] =>
      rw [itemsText, List.nil_append,
        items?_text_append hfirst hreadable (endsNumber_bracket rest) (skip_of_head rfl), depthAll,
        Nat.max_zero, writtenAll]
      rfl
  | item :: items =>
      have ht : itemsText (item :: items) ++ ']' :: rest =
          ',' :: (text item ++ (itemsText items ++ ']' :: rest)) := by
        simp [itemsText]
      have hfuel : items.length < fuel := Nat.lt_of_succ_lt_succ hfuel
      have hnext := items?_text items hitems.2 hfuel (value?_text item hitems.1 d) hitems.1 rest
      rw [ht, items?_text_append hfirst hreadable (endsNumber_cons (by decide)) (skip_of_head rfl),
        depthAll, writtenAll]
      rw [afterItem_comma, hnext]
      by_cases hd : depth first ≤ d
      · rw [if_pos hd]
        split <;> rename_i hothers
        · rw [if_pos (by omega)]
          rfl
        · rw [if_neg (by omega)]
          rfl
      · rw [if_neg hd, if_neg (by omega)]

theorem members?_text (members : List (Text × Json)) (hmembers : ReadableMembers members)
    {d fuel : Nat} (hfuel : members.length < fuel) {first : Json} (hfirst : Reads d first)
    (hreadable : Readable first) (known : List (Text × Json)) (name rest : Text) :
    members? (value? d) fuel known
        (stringText name ++ ':' :: (text first ++ (membersText members ++ '\x7d' :: rest))) =
      if max (depth first) (depthMembers members) ≤ d then
        some (known ++ (name, written first) :: writtenMembers members, rest)
      else none := by
  obtain ⟨fuel, rfl⟩ := Nat.exists_eq_add_one.mpr (Nat.lt_of_le_of_lt (Nat.zero_le _) hfuel)
  match members with
  | [] =>
      rw [membersText, List.nil_append, members?_text_append hfirst hreadable known name
        (endsNumber_brace rest) (skip_of_head rfl), depthMembers, Nat.max_zero, writtenMembers]
      rfl
  | (second, value) :: members =>
      have ht : membersText ((second, value) :: members) ++ '\x7d' :: rest =
          ',' :: (stringText second ++
            ':' :: (text value ++ (membersText members ++ '\x7d' :: rest))) := by
        simp [membersText]
      have hfuel : members.length < fuel := Nat.lt_of_succ_lt_succ hfuel
      have hnext := members?_text members hmembers.2 hfuel (value?_text value hmembers.1 d)
        hmembers.1 (known ++ [(name, written first)]) second rest
      rw [List.append_assoc, List.singleton_append] at hnext
      rw [ht, members?_text_append hfirst hreadable known name (endsNumber_cons (by decide))
        (skip_of_head rfl), depthMembers, writtenMembers]
      rw [afterMember_comma, hnext]
      by_cases hd : depth first ≤ d
      · rw [if_pos hd]
        split <;> rename_i hothers
        · rw [if_pos (by omega)]
        · rw [if_neg (by omega)]
      · rw [if_neg hd, if_neg (by omega)]

end

/-- What a text made from a value says, unless the value is nested too deeply to be read. -/
theorem ofText?_text {j : Json} (hj : Readable j) :
    ofText? (text j) = if depth j ≤ maxDepth then some (written j) else none := by
  have hread := value?_text j hj maxDepth [] endsNumber_nil
  have hskip := skip_text hj []
  rw [List.append_nil] at hread hskip
  rw [ofText?, hskip, hread]
  split <;> rfl

end Values

end TemplateEngine.Json
