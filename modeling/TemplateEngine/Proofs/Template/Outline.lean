import TemplateEngine.Proofs.Text.Replacement
import TemplateEngine.Syntax.Lexer
import TemplateEngine.Template.Segment

/-!
# Outlines of templates

Literal text is written with the percent sign of every closing delimiter doubled
and then that of every opening one. What is written this way opens no tag, and
it reads back as the text it was.

An outline is a template seen as a tree: literal texts, prints of names, and
blocks with a header, clauses that continue it and a closing tag. It is written
as a sequence of parts, the literal texts with their delimiters escaped. Texts
are not empty and do not stand next to each other, since two of them would be
read as one.
-/
namespace TemplateEngine.Segment

/-- Literal text with its closing delimiters escaped. -/
def doubleClosers (t : Text) : Text := Text.replace "%>".toList "%%>".toList t

/-- Literal text with its opening delimiters escaped. -/
def doubleOpeners (t : Text) : Text := Text.replace "<%".toList "<%%".toList t

/-- Literal text as it is written in a template. -/
def escapeDelimiters (t : Text) : Text := doubleOpeners (doubleClosers t)

@[simp] theorem doubleOpeners_nil : doubleOpeners [] = [] := rfl

@[simp] theorem doubleClosers_nil : doubleClosers [] = [] := rfl

theorem doubleOpeners_found (t : Text) :
    doubleOpeners ('<' :: '%' :: t) = '<' :: '%' :: '%' :: doubleOpeners t :=
  Text.replace_found (by decide) _ t

theorem doubleOpeners_other {c : Char} {t : Text}
    (h : "<%".toList.isPrefixOf (c :: t) = false) :
    doubleOpeners (c :: t) = c :: doubleOpeners t :=
  Text.replace_other (by decide) _ h

theorem doubleClosers_found (t : Text) :
    doubleClosers ('%' :: '>' :: t) = '%' :: '%' :: '>' :: doubleClosers t :=
  Text.replace_found (by decide) _ t

theorem doubleClosers_other {c : Char} {t : Text}
    (h : "%>".toList.isPrefixOf (c :: t) = false) :
    doubleClosers (c :: t) = c :: doubleClosers t :=
  Text.replace_other (by decide) _ h

theorem head_doubleOpeners (t : Text) : (doubleOpeners t).head? = t.head? := by
  induction t using Text.replace_induction "<%".toList (by decide) with
  | nil => rfl
  | found t ih => rw [show "<%".toList ++ t = '<' :: '%' :: t from rfl, doubleOpeners_found]; rfl
  | other c t h ih => rw [doubleOpeners_other h, List.head?_cons, List.head?_cons]

theorem head_doubleClosers (t : Text) : (doubleClosers t).head? = t.head? := by
  induction t using Text.replace_induction "%>".toList (by decide) with
  | nil => rfl
  | found t ih => rw [show "%>".toList ++ t = '%' :: '>' :: t from rfl, doubleClosers_found]; rfl
  | other c t h ih => rw [doubleClosers_other h, List.head?_cons, List.head?_cons]

/-- A doubled text starts with a closing delimiter nowhere but after a percent sign. -/
theorem doubleClosers_not_closer (t u : Text) : doubleClosers t ≠ '%' :: '>' :: u := by
  intro hu
  induction t using Text.replace_induction "%>".toList (by decide) with
  | nil => cases hu
  | found t ih =>
      have h := (doubleClosers_found t).symm.trans hu
      simp at h
  | other c t h ih =>
      rw [doubleClosers_other h] at hu
      obtain ⟨rfl, htail⟩ := List.cons.inj hu
      have hhead := head_doubleClosers t
      rw [htail, List.head?_cons] at hhead
      exact Text.isPrefixOf_pair_eq_false.mp h ⟨rfl, hhead.symm⟩

theorem unescape_openers (t : Text) :
    Text.replace "<%%".toList "<%".toList (doubleOpeners t) = t := by
  induction t using Text.replace_induction "<%".toList (by decide) with
  | nil => rfl
  | found t ih =>
      have h : Text.replace "<%%".toList "<%".toList ("<%%".toList ++ doubleOpeners t) = _ :=
        Text.replace_found (by decide) _ _
      rw [ih] at h
      exact (congrArg _ (doubleOpeners_found t)).trans h
  | other c t h ih =>
      have hnot : "<%%".toList.isPrefixOf (c :: doubleOpeners t) = false := by
        rw [Bool.eq_false_iff]
        intro hpre
        have hfirst := Text.of_isPrefixOf hpre
        rw [head_doubleOpeners] at hfirst
        exact Text.isPrefixOf_pair_eq_false.mp h ⟨hfirst.1, hfirst.2.1⟩
      rw [doubleOpeners_other h, Text.replace_other (by decide) _ hnot, ih]

theorem unescape_closers (t : Text) :
    Text.replace "%%>".toList "%>".toList (doubleClosers t) = t := by
  induction t using Text.replace_induction "%>".toList (by decide) with
  | nil => rfl
  | found t ih =>
      have h : Text.replace "%%>".toList "%>".toList ("%%>".toList ++ doubleClosers t) = _ :=
        Text.replace_found (by decide) _ _
      rw [ih] at h
      exact (congrArg _ (doubleClosers_found t)).trans h
  | other c t h ih =>
      have hnot : "%%>".toList.isPrefixOf (c :: doubleClosers t) = false := by
        rw [Bool.eq_false_iff]
        intro hpre
        have hfirst := Text.of_isPrefixOf hpre
        have htail : ∃ u, doubleClosers t = '%' :: '>' :: u := by
          cases hd : doubleClosers t with
          | nil => simp [hd] at hfirst
          | cons d u =>
              simp only [hd, List.head?_cons, Option.some.injEq, List.tail_cons] at hfirst
              obtain ⟨v, hv⟩ := List.isPrefixOf_iff_prefix.mp hfirst.2.2
              exact ⟨v, by rw [hfirst.2.1, ← hv]; rfl⟩
        obtain ⟨u, hu⟩ := htail
        exact doubleClosers_not_closer t u hu
      rw [doubleClosers_other h, Text.replace_other (by decide) _ hnot, ih]

/-- Escaped literal text reads back as it was. -/
theorem unescapeLiteral_escapeDelimiters (t : Text) :
    unescapeLiteral (escapeDelimiters t) = t := by
  rw [unescapeLiteral, escapeDelimiters, unescape_openers, unescape_closers]

theorem newlines_doubleOpeners (t : Text) :
    (doubleOpeners t).newlines = t.newlines := by
  induction t using Text.replace_induction "<%".toList (by decide) with
  | nil => rfl
  | found t ih =>
      rw [show "<%".toList ++ t = '<' :: '%' :: t from rfl, doubleOpeners_found]
      simpa [Text.newlines] using ih
  | other c t h ih =>
      rw [doubleOpeners_other h]
      simpa [Text.newlines, List.count_cons] using ih

theorem newlines_doubleClosers (t : Text) :
    (doubleClosers t).newlines = t.newlines := by
  induction t using Text.replace_induction "%>".toList (by decide) with
  | nil => rfl
  | found t ih =>
      rw [show "%>".toList ++ t = '%' :: '>' :: t from rfl, doubleClosers_found]
      simpa [Text.newlines] using ih
  | other c t h ih =>
      rw [doubleClosers_other h]
      simpa [Text.newlines, List.count_cons] using ih

@[simp] theorem newlines_escapeDelimiters (t : Text) :
    (escapeDelimiters t).newlines = t.newlines := by
  rw [escapeDelimiters, newlines_doubleOpeners, newlines_doubleClosers]

theorem escapeDelimiters_ne_nil {t : Text} (h : t ≠ []) : escapeDelimiters t ≠ [] := by
  intro hnil
  have hhead : (escapeDelimiters t).head? = t.head? := by
    rw [escapeDelimiters, head_doubleOpeners, head_doubleClosers]
  rw [hnil, List.head?_nil] at hhead
  exact h (List.head?_eq_none_iff.mp hhead.symm)

/-- A text that opens no tag or starts with a tag: what may follow literal text. -/
def startsTag (t : Text) : Prop :=
  t = [] ∨ ∃ rest, t = '<' :: '%' :: rest ∧ rest.head? ≠ some '%'

theorem beforeOpener_of_startsTag {t : Text} (h : startsTag t) : beforeOpener t = ([], t) := by
  rcases h with rfl | ⟨rest, rfl, hrest⟩
  · rfl
  · cases rest with
    | nil => rfl
    | cons c rest =>
        have hc : c ≠ '%' := fun e => hrest (by rw [e, List.head?_cons])
        simp [beforeOpener, hc]

/-- Escaped literal text is passed over as a whole. -/
theorem beforeOpener_doubleOpeners (t : Text) {tail : Text} (h : startsTag tail) :
    beforeOpener (doubleOpeners t ++ tail) = (doubleOpeners t, tail) := by
  induction t using Text.replace_induction "<%".toList (by decide) with
  | nil => exact beforeOpener_of_startsTag h
  | found t ih =>
      rw [show "<%".toList ++ t = '<' :: '%' :: t from rfl, doubleOpeners_found]
      simp only [List.cons_append, beforeOpener, ih]
  | other c t hc ih =>
      rw [doubleOpeners_other hc, List.cons_append]
      have hnot : ¬ (c = '<' ∧ (doubleOpeners t ++ tail).head? = some '%') := by
        rintro ⟨rfl, hhead⟩
        rw [List.head?_append, head_doubleOpeners] at hhead
        cases ht : t.head? with
        | some d =>
            rw [ht, Option.some_or] at hhead
            exact Text.isPrefixOf_pair_eq_false.mp hc ⟨rfl, ht.trans hhead⟩
        | none =>
            rw [ht, Option.none_or] at hhead
            rcases h with rfl | ⟨rest, rfl, -⟩ <;> simp at hhead
      rw [beforeOpener, ih]
      · rintro rest rfl hrest
        exact hnot ⟨rfl, by rw [hrest, List.head?_cons]⟩
      · rintro rest rfl hrest
        exact hnot ⟨rfl, by rw [hrest, List.head?_cons]⟩

end TemplateEngine.Segment

namespace TemplateEngine.Outline

/-- An identifier that is no reserved word and no constant. -/
structure Name where
  first : Char
  rest : Text
  starts : Letter.isIdentifierStart first = true
  goesOn : ∀ c ∈ rest, Letter.isIdentifierContinue c = true
  notReserved : TokenKind.ofWord (first :: rest) = .identifier (first :: rest)

/-- The characters of a name. -/
def Name.text (n : Name) : Text := n.first :: n.rest

/-- What opens a block. -/
inductive Header where
  | ifTrue (condition : Name)
  | forEach (item items : Name)
  | whileTrue (condition : Name)
  | attempt
  | capture (target : Name)

/-- What continues a block. -/
inductive Clause where
  | elif (condition : Name)
  | otherwise
  | except (kind bound : Name)
  | cleanup

/-- The tags that close a block. -/
inductive Closer where
  | word
  | empty
  | brace

/-- An item of a template. -/
inductive Item where
  | text (t : Text)
  | print (raw : Bool) (name : Name)
  | block (header : Header) (body : List Item) (clauses : List (Clause × List Item))
      (closer : Closer)

namespace Header

/-- The code of a header. -/
def code : Header → Text
  | ifTrue n => "if ".toList ++ n.text ++ ":".toList
  | forEach v n => "for ".toList ++ v.text ++ " in ".toList ++ n.text ++ ":".toList
  | whileTrue n => "while ".toList ++ n.text ++ ":".toList
  | attempt => "try:"
  | capture x => "with capture(\"".toList ++ x.text ++ "\"):".toList

theorem code_ifTrue (n : Name) :
    (ifTrue n).code = "if ".toList ++ n.text ++ ":".toList := rfl

theorem code_forEach (v n : Name) :
    (forEach v n).code = "for ".toList ++ v.text ++ " in ".toList ++ n.text ++ ":".toList := rfl

theorem code_whileTrue (n : Name) :
    (whileTrue n).code = "while ".toList ++ n.text ++ ":".toList := rfl

theorem code_capture (x : Name) :
    (capture x).code = "with capture(\"".toList ++ x.text ++ "\"):".toList := rfl

/-- The names that stand in the code of a header outside quotes. -/
def names : Header → List Name
  | ifTrue n | whileTrue n => [n]
  | forEach v n => [v, n]
  | attempt | capture _ => []

/-- Whether a header goes with clauses: a conditional with further conditions and a last
`else`, an attempt with at least one `except` and a last `finally`. -/
def admits : Header → List Clause → Bool
  | ifTrue _, clauses => go clauses
  | attempt, .except _ _ :: clauses => goOn clauses
  | attempt, _ => false
  | forEach _ _, clauses | whileTrue _, clauses | capture _, clauses => clauses.isEmpty
where
  go : List Clause → Bool
    | [] | [.otherwise] => true
    | .elif _ :: clauses => go clauses
    | _ => false
  goOn : List Clause → Bool
    | [] | [.cleanup] => true
    | .except _ _ :: clauses => goOn clauses
    | _ => false

end Header

namespace Clause

/-- The code of a clause. -/
def code : Clause → Text
  | elif n => "elif ".toList ++ n.text ++ ":".toList
  | otherwise => "else:"
  | except k v => "except ".toList ++ k.text ++ " as ".toList ++ v.text ++ ":".toList
  | cleanup => "finally:"

theorem code_elif (n : Name) :
    (elif n).code = "elif ".toList ++ n.text ++ ":".toList := rfl

theorem code_except (k v : Name) :
    (except k v).code = "except ".toList ++ k.text ++ " as ".toList ++ v.text ++ ":".toList := rfl

/-- The names that stand in the code of a clause. -/
def names : Clause → List Name
  | elif n => [n]
  | except k v => [k, v]
  | otherwise | cleanup => []

end Clause

/-- The body of a closing tag. -/
def Closer.body : Closer → Text
  | word => " end "
  | empty => " "
  | brace => " :\x7d "

/-- A literal text or a tag, as they follow each other in a template. -/
inductive Part where
  | text (t : Text)
  | print (raw : Bool) (name : Name)
  | opening (header : Header)
  | clause (clause : Clause)
  | closing (closer : Closer)

namespace Part

/-- What is between the delimiters of a tag: its kind and its body. -/
def tag? : Part → Option (TagKind × Text)
  | text _ => none
  | print false n => some (.print, ' ' :: n.text ++ [' '])
  | print true n => some (.rawPrint, n.text ++ [' '])
  | opening h => some (.statement, ' ' :: h.code ++ [' '])
  | clause c => some (.statement, ' ' :: c.code ++ [' '])
  | closing c => some (.statement, c.body)

/-- The sign of a kind of tags, which follows the opening delimiter. -/
def sign : TagKind → Text
  | .print => "="
  | .rawPrint => "=r "
  | .statement => ""

/-- A part as it is written. -/
def written : Part → Text
  | text t => Segment.escapeDelimiters t
  | part =>
    match part.tag? with
    | some (kind, body) => "<%".toList ++ (sign kind ++ (body ++ "%>".toList))
    | none => []

/-- The segment that a part on a line is. -/
def segments (line : Nat) : Part → List Segment
  | text t => [.literal t line]
  | part =>
    match part.tag? with
    | some (kind, body) => [.tag ⟨kind, body, line, false, false⟩]
    | none => []

/-- The number of line breaks in a part. -/
def newlines : Part → Nat
  | text t => t.newlines
  | _ => 0

end Part

mutual

/-- The parts of an item, in order. -/
def Item.parts : Item → List Part
  | .text t => [.text t]
  | .print raw n => [.print raw n]
  | .block header body clauses closer =>
    .opening header :: (parts body ++ clauseParts clauses ++ [.closing closer])

/-- The parts of a sequence of items. -/
def parts : List Item → List Part
  | [] => []
  | item :: items => item.parts ++ parts items

/-- The parts of the clauses of a block. -/
def clauseParts : List (Clause × List Item) → List Part
  | [] => []
  | (clause, body) :: clauses => .clause clause :: (parts body ++ clauseParts clauses)

end

/-- The template of an outline. -/
def written (items : List Item) : Text := (parts items).flatMap Part.written

/-- The number of line breaks in parts. -/
def lineBreaks : List Part → Nat
  | [] => 0
  | part :: ps => part.newlines + lineBreaks ps

@[simp] theorem lineBreaks_nil : lineBreaks [] = 0 := rfl

@[simp] theorem lineBreaks_cons (part : Part) (ps : List Part) :
    lineBreaks (part :: ps) = part.newlines + lineBreaks ps := rfl

@[simp] theorem lineBreaks_append (ps qs : List Part) :
    lineBreaks (ps ++ qs) = lineBreaks ps + lineBreaks qs := by
  induction ps with
  | nil => simp
  | cons part ps ih => rw [List.cons_append, lineBreaks_cons, lineBreaks_cons, ih, Nat.add_assoc]

/-- The segments of parts, the first of them on a line. -/
def segments : Nat → List Part → List Segment
  | _, [] => []
  | line, part :: others => part.segments line ++ segments (line + part.newlines) others

/-- Texts are not empty and do not follow each other. -/
def separated : List Part → Prop
  | [] => True
  | .text t :: others =>
    t ≠ [] ∧ (∀ part ∈ others.head?, part.tag?.isSome) ∧ separated others
  | _ :: others => separated others

/-- Whether an item is a literal text. -/
def Item.isText : Item → Bool
  | .text _ => true
  | _ => false

mutual

/-- An item that reads back as it was written: blocks have the clauses that they may
have, and the closing word is no name in a header. -/
def Item.Valid : Item → Prop
  | .text t => t ≠ []
  | .print _ _ => True
  | .block header body clauses _ =>
    (∀ n ∈ header.names, n.text ≠ "end".toList) ∧
      header.admits (clauses.map Prod.fst) = true ∧ Valid body ∧ ClausesValid clauses

/-- Valid items with no two texts next to each other. -/
def Valid : List Item → Prop
  | [] => True
  | item :: items =>
    item.Valid ∧ (item.isText = true → ∀ next ∈ items.head?, next.isText = false) ∧ Valid items

/-- Clauses with valid bodies. -/
def ClausesValid : List (Clause × List Item) → Prop
  | [] => True
  | (clause, body) :: clauses =>
    (∀ n ∈ clause.names, n.text ≠ "end".toList) ∧ Valid body ∧ ClausesValid clauses

end

mutual

/-- How deep blocks nest in an item. -/
def Item.nesting : Item → Nat
  | .text _ | .print _ _ => 0
  | .block _ body clauses _ => max (nesting body) (clausesNesting clauses) + 1

/-- How deep blocks nest in a sequence of items. -/
def nesting : List Item → Nat
  | [] => 0
  | item :: items => max item.nesting (nesting items)

/-- How deep blocks nest in clauses. -/
def clausesNesting : List (Clause × List Item) → Nat
  | [] => 0
  | (_, body) :: clauses => max (nesting body) (clausesNesting clauses)

end

theorem separated_tail {part : Part} {others : List Part} (h : separated (part :: others)) :
    separated others := by
  cases part with
  | text _ => exact h.2.2
  | _ => exact h

theorem separated_cons_tag {part : Part} {others : List Part} (hpart : part.tag?.isSome = true)
    (h : separated others) : separated (part :: others) := by
  cases part with
  | text _ => cases hpart
  | _ => exact h

theorem Item.head_parts {item : Item} (h : item.isText = false) (others : List Part) :
    ∀ part ∈ (item.parts ++ others).head?, part.tag?.isSome = true := by
  cases item with
  | text _ => cases h
  | print raw n => cases raw <;> simp [Item.parts, Part.tag?]
  | block _ _ _ _ => simp [Item.parts, Part.tag?]

mutual

theorem Item.separated_parts (item : Item) (hitem : item.Valid) {others : List Part}
    (hothers : separated others)
    (hnext : item.isText = true → ∀ part ∈ others.head?, part.tag?.isSome = true) :
    separated (item.parts ++ others) := by
  match item with
  | .text t => exact ⟨hitem, hnext rfl, hothers⟩
  | .print raw n => exact hothers
  | .block header body clauses closer =>
      obtain ⟨-, -, hbody, hclauses⟩ := hitem
      simp only [Item.parts, List.cons_append, List.append_assoc]
      have hclosing : separated (.closing closer :: others) := hothers
      obtain ⟨hrest, hhead⟩ := separated_clauseParts clauses hclauses hclosing (by simp [Part.tag?])
      exact separated_cons_tag rfl (separated_parts body hbody hrest hhead)

/-- The parts of valid items are separated, also from what follows them. -/
theorem separated_parts (items : List Item) (hitems : Valid items) {others : List Part}
    (hothers : separated others) (hnext : ∀ part ∈ others.head?, part.tag?.isSome = true) :
    separated (parts items ++ others) := by
  match items with
  | [] => exact hothers
  | item :: items =>
      obtain ⟨hitem, happart, hrest⟩ := hitems
      rw [parts, List.append_assoc]
      refine Item.separated_parts item hitem (separated_parts items hrest hothers hnext) ?_
      intro htext
      cases items with
      | nil => exact hnext
      | cons next items =>
          rw [parts, List.append_assoc]
          exact Item.head_parts (happart htext next rfl) _

theorem separated_clauseParts (clauses : List (Clause × List Item))
    (hclauses : ClausesValid clauses) {others : List Part} (hothers : separated others)
    (hnext : ∀ part ∈ others.head?, part.tag?.isSome = true) :
    separated (clauseParts clauses ++ others) ∧
      ∀ part ∈ (clauseParts clauses ++ others).head?, part.tag?.isSome = true := by
  match clauses with
  | [] => exact ⟨hothers, hnext⟩
  | (clause, body) :: clauses =>
      obtain ⟨-, hbody, hrest⟩ := hclauses
      obtain ⟨hseparated, hhead⟩ := separated_clauseParts clauses hrest hothers hnext
      simp only [clauseParts, List.cons_append, List.append_assoc]
      refine ⟨separated_cons_tag rfl (separated_parts body hbody hseparated hhead), ?_⟩
      simp [Part.tag?]

end

end TemplateEngine.Outline
