import TemplateEngine.Encoding.Unicode

/-!
# Reading UTF-8 back

The bytes of a text decode to that text. The cases are those of the encoding: a
character has one to four bytes, and the first of them tells how many.
-/
namespace TemplateEngine.Utf8

theorem toNat_toUInt8 {n : Nat} (h : n < 0x100) : n.toUInt8.toNat = n := by
  rw [Nat.toUInt8, UInt8.toNat_ofNat']
  omega

theorem continuation?_toUInt8 {n : Nat} (h : n < 0x40) :
    continuation? (0x80 + n).toUInt8 = some n := by
  unfold continuation?
  rw [toNat_toUInt8 (by omega), if_pos (by simp; omega), Nat.add_sub_cancel_left]

theorem charFrom?_toNat {least n : Nat} {c : Char} (hn : n = c.toNat) (h : least ≤ c.toNat) :
    charFrom? least n = some c := by
  subst hn
  have hvalid : c.toNat.isValidChar := c.valid
  unfold charFrom?
  rw [if_neg (Nat.not_lt.mpr h), dif_pos hvalid]
  rfl

/-- What the bytes from one on decode to is settled by that byte. -/
theorem decode?_cons (a : UInt8) (rest : Bytes) : decode? (a :: rest) =
    if a.toNat < 0x80 then (decode? rest).map (Char.ofNat a.toNat :: ·)
    else if a.toNat < 0xC0 then none
    else if a.toNat < 0xE0 then
      match rest with
      | b :: rest => do
        let x ← continuation? b
        let c ← charFrom? 0x80 ((a.toNat - 0xC0) * 0x40 + x)
        (decode? rest).map (c :: ·)
      | _ => none
    else if a.toNat < 0xF0 then
      match rest with
      | b :: d :: rest => do
        let x ← continuation? b
        let y ← continuation? d
        let c ← charFrom? 0x800 ((a.toNat - 0xE0) * 0x1000 + x * 0x40 + y)
        (decode? rest).map (c :: ·)
      | _ => none
    else if a.toNat < 0xF8 then
      match rest with
      | b :: d :: e :: rest => do
        let x ← continuation? b
        let y ← continuation? d
        let z ← continuation? e
        let c ← charFrom? 0x10000 ((a.toNat - 0xF0) * 0x40000 + x * 0x1000 + y * 0x40 + z)
        (decode? rest).map (c :: ·)
      | _ => none
    else none := by
  conv => lhs; rw [decode?.eq_def]
  rfl

theorem bind_some {α β : Type} {o : Option α} {a : α} (h : o = some a) (f : α → Option β) :
    (o >>= f) = f a := by
  rw [h]
  rfl

section Sequences

variable {a b d e : UInt8} {x y z : Nat} {c : Char} (rest : Bytes)

theorem decode?_one (ha : a.toNat < 0x80) :
    decode? (a :: rest) = (decode? rest).map (Char.ofNat a.toNat :: ·) := by
  rw [decode?_cons, if_pos ha]

theorem decode?_two (ha : 0xC0 ≤ a.toNat ∧ a.toNat < 0xE0) (hb : continuation? b = some x)
    (hc : charFrom? 0x80 ((a.toNat - 0xC0) * 0x40 + x) = some c) :
    decode? (a :: b :: rest) = (decode? rest).map (c :: ·) := by
  rw [decode?_cons, if_neg (by omega), if_neg (by omega), if_pos ha.2]
  exact (bind_some hb _).trans (bind_some hc _)

theorem decode?_three (ha : 0xE0 ≤ a.toNat ∧ a.toNat < 0xF0) (hb : continuation? b = some x)
    (hd : continuation? d = some y)
    (hc : charFrom? 0x800 ((a.toNat - 0xE0) * 0x1000 + x * 0x40 + y) = some c) :
    decode? (a :: b :: d :: rest) = (decode? rest).map (c :: ·) := by
  rw [decode?_cons, if_neg (by omega), if_neg (by omega), if_neg (by omega), if_pos ha.2]
  exact (bind_some hb _).trans ((bind_some hd _).trans (bind_some hc _))

theorem decode?_four (ha : 0xF0 ≤ a.toNat ∧ a.toNat < 0xF8) (hb : continuation? b = some x)
    (hd : continuation? d = some y) (he : continuation? e = some z)
    (hc : charFrom? 0x10000 ((a.toNat - 0xF0) * 0x40000 + x * 0x1000 + y * 0x40 + z) = some c) :
    decode? (a :: b :: d :: e :: rest) = (decode? rest).map (c :: ·) := by
  rw [decode?_cons, if_neg (by omega), if_neg (by omega), if_neg (by omega), if_neg (by omega),
    if_pos ha.2]
  exact (bind_some hb _).trans ((bind_some hd _).trans
    ((bind_some he _).trans (bind_some hc _)))

end Sequences

/-- The bytes of a character decode to it, whatever follows. -/
theorem decode?_encodeChar (c : Char) (rest : Bytes) :
    decode? (encodeChar c ++ rest) = (decode? rest).map (c :: ·) := by
  have hvalid : c.toNat.isValidChar := c.valid
  have hlt : c.toNat < 0x110000 := by
    unfold Nat.isValidChar at hvalid
    omega
  unfold encodeChar
  dsimp only
  split
  · have ha : c.toNat.toUInt8.toNat = c.toNat := toNat_toUInt8 (by omega)
    rw [List.singleton_append, decode?_one rest (by omega), ha, Char.ofNat_toNat]
  split
  · have ha := toNat_toUInt8 (n := 0xC0 + c.toNat / 0x40) (by omega)
    exact decode?_two rest (by omega) (continuation?_toUInt8 (by omega))
      (charFrom?_toNat (by omega) (by omega))
  split
  · have ha := toNat_toUInt8 (n := 0xE0 + c.toNat / 0x1000) (by omega)
    exact decode?_three rest (by omega) (continuation?_toUInt8 (by omega))
      (continuation?_toUInt8 (by omega)) (charFrom?_toNat (by omega) (by omega))
  · have ha := toNat_toUInt8 (n := 0xF0 + c.toNat / 0x40000) (by omega)
    exact decode?_four rest (by omega) (continuation?_toUInt8 (by omega))
      (continuation?_toUInt8 (by omega)) (continuation?_toUInt8 (by omega))
      (charFrom?_toNat (by omega) (by omega))

/-- Decoding takes encoding back. -/
theorem decode?_encode (t : Text) : decode? (encode t) = some t := by
  induction t with
  | nil => rfl
  | cons c t ih =>
      have hcons : encode (c :: t) = encodeChar c ++ encode t := List.flatMap_cons
      rw [hcons, decode?_encodeChar, ih]
      rfl

end TemplateEngine.Utf8
