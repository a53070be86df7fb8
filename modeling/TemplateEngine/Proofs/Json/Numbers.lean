import Mathlib.Data.List.TakeWhile
import TemplateEngine.Json.Number

/-!
# Reading JSON numbers back

A number at the start of a text is read in the same way whatever comes after it, as
long as that does not go on with it. Integers of up to 64 bits read back as they are
written. Of doubles this module only says what it means that they do.
-/
namespace TemplateEngine.Json

open Double (leadingDigits)

/-- Text that a number before it does not go on with. -/
def EndsNumber (rest : Text) : Prop :=
  ∀ c ∈ rest.head?, c.isDigit = false ∧ c ≠ '.' ∧ c ≠ 'e' ∧ c ≠ 'E'

theorem endsNumber_nil : EndsNumber [] := by
  intro c hc
  cases hc

theorem endsNumber_cons {c : Char} {rest : Text}
    (h : c.isDigit = false ∧ c ≠ '.' ∧ c ≠ 'e' ∧ c ≠ 'E') : EndsNumber (c :: rest) := by
  intro d hd
  cases hd
  exact h

/-- The power at the start of a text, after its sign. -/
def power? (minus : Bool) (t : Text) : Option (Int × Text) :=
  (Word.digits? (leadingDigits t).1).map fun n =>
    (if minus then -(n : Int) else n, (leadingDigits t).2)

/-- Whether a minus sign starts a text, and the text after its sign. -/
def signed (t : Text) : Bool × Text :=
  match t with
  | '-' :: u => (true, u)
  | '+' :: u => (false, u)
  | u => (false, u)

theorem exponent?_cons (c : Char) (t : Text) :
    exponent? (c :: t) = power? (signed t).1 (signed t).2 := by
  unfold exponent? signed
  split
  rename_i minus rest hrest
  split at hrest <;> split <;> simp_all [power?]

/-- The double of a significand and a power of ten, with the exponent at the start of a
text if there is one. -/
def scaled? (minus : Bool) (significand : Nat) (exponent : Int) (t : Text) :
    Option (Json × Text) :=
  match t with
  | 'e' :: _ | 'E' :: _ =>
    (exponent? t).bind fun (power, rest) =>
      (double? minus significand (exponent + power)).map (·, rest)
  | _ => (double? minus significand exponent).map (·, t)

/-- The number whose digits before the point are given, from what follows them. -/
def afterWhole? (minus : Bool) (whole t : Text) : Option (Json × Text) :=
  let (significand, left) := absorb 0 whole
  match t with
  | '.' :: rest =>
    let (fraction, rest) := leadingDigits rest
    if fraction.isEmpty then none
    else
      let (significand, dropped) := absorb significand fraction
      scaled? minus significand (left.length - (fraction.length - dropped.length : Nat)) rest
  | 'e' :: _ | 'E' :: _ => scaled? minus significand left.length t
  | _ =>
    if left.isEmpty then some (integer minus significand, t)
    else scaled? minus significand left.length t

theorem scaled?_exponent {minus : Bool} {significand : Nat} {exponent : Int} {c : Char} {t : Text}
    (hc : c = 'e' ∨ c = 'E') : scaled? minus significand exponent (c :: t) =
      (exponent? (c :: t)).bind fun (power, rest) =>
        (double? minus significand (exponent + power)).map (·, rest) := by
  rcases hc with rfl | rfl <;> rfl

theorem scaled?_other {minus : Bool} {significand : Nat} {exponent : Int} {t : Text}
    (ht : ∀ c ∈ t.head?, ¬ (c = 'e' ∨ c = 'E')) : scaled? minus significand exponent t =
      (double? minus significand exponent).map (·, t) := by
  unfold scaled?
  split
  · exact absurd (.inl rfl) (ht 'e' rfl)
  · exact absurd (.inr rfl) (ht 'E' rfl)
  · rfl

theorem afterWhole?_point {minus : Bool} {whole t : Text} : afterWhole? minus whole ('.' :: t) =
    if (leadingDigits t).1.isEmpty then none
    else
      scaled? minus (absorb (absorb 0 whole).1 (leadingDigits t).1).1
        ((absorb 0 whole).2.length - ((leadingDigits t).1.length -
          (absorb (absorb 0 whole).1 (leadingDigits t).1).2.length : Nat)) (leadingDigits t).2 := by
  rfl

theorem afterWhole?_other {minus : Bool} {whole t : Text} (ht : ∀ c ∈ t.head?, c ≠ '.') :
    afterWhole? minus whole t =
      if (absorb 0 whole).2.isEmpty && t.head?.all fun c => c ≠ 'e' && c ≠ 'E' then
        some (integer minus (absorb 0 whole).1, t)
      else scaled? minus (absorb 0 whole).1 (absorb 0 whole).2.length t := by
  unfold afterWhole?
  dsimp only
  split
  · exact absurd rfl (ht '.' rfl)
  · simp
  · simp
  · rename_i he hE
    have hother : (t.head?.all fun c => c ≠ 'e' && c ≠ 'E') = true := by
      cases t with
      | nil => rfl
      | cons d t =>
          have hd : d ≠ 'e' := fun hd => he t (by rw [hd])
          have hD : d ≠ 'E' := fun hD => hE t (by rw [hD])
          simp [hd, hD]
    rw [hother, Bool.and_true]

theorem unsigned?_eq (minus : Bool) (t : Text) : unsigned? minus t =
    if (leadingDigits t).1.isEmpty ||
        ((leadingDigits t).1.head? = some '0' && 1 < (leadingDigits t).1.length) then none
    else afterWhole? minus (leadingDigits t).1 (leadingDigits t).2 := by
  rfl

section Append

variable {rest : Text} (hrest : EndsNumber rest)

include hrest

theorem leadingDigits_append (t : Text) :
    leadingDigits (t ++ rest) = ((leadingDigits t).1, (leadingDigits t).2 ++ rest) := by
  unfold leadingDigits
  induction t with
  | nil =>
      cases rest with
      | nil => rfl
      | cons c rest => simp [(hrest c rfl).1]
  | cons c t ih =>
      simp only [Prod.mk.injEq] at ih
      cases hc : c.isDigit with
      | true => simp [hc, ih.1, ih.2]
      | false => simp [hc]

theorem power?_append {minus : Bool} {t r : Text} {n : Int} (h : power? minus t = some (n, r)) :
    power? minus (t ++ rest) = some (n, r ++ rest) := by
  unfold power? at h ⊢
  rw [leadingDigits_append hrest]
  obtain ⟨k, hk, hpair⟩ := Option.map_eq_some_iff.mp h
  cases hpair
  simp only [hk]
  rfl

theorem exponent?_append {t r : Text} {n : Int} (h : exponent? t = some (n, r)) :
    exponent? (t ++ rest) = some (n, r ++ rest) := by
  cases t with
  | nil => cases h
  | cons c t =>
      rw [exponent?_cons] at h
      rw [List.cons_append, exponent?_cons]
      cases t with
      | nil => cases h
      | cons d t =>
          have hsigned : signed (d :: t ++ rest) =
              ((signed (d :: t)).1, (signed (d :: t)).2 ++ rest) := by
            rw [List.cons_append]
            unfold signed
            split <;> split <;> simp_all
          rw [hsigned]
          exact power?_append hrest h

theorem scaled?_append {minus : Bool} {significand : Nat} {exponent : Int} {t r : Text} {j : Json}
    (h : scaled? minus significand exponent t = some (j, r)) :
    scaled? minus significand exponent (t ++ rest) = some (j, r ++ rest) := by
  by_cases ht : ∀ c ∈ t.head?, ¬ (c = 'e' ∨ c = 'E')
  · have hother : ∀ c ∈ (t ++ rest).head?, ¬ (c = 'e' ∨ c = 'E') := by
      cases t with
      | nil =>
          intro c hc
          have hends := hrest c hc
          exact not_or.mpr hends.2.2
      | cons d t => exact ht
    rw [scaled?_other ht] at h
    rw [scaled?_other hother]
    obtain ⟨x, hx, hpair⟩ := Option.map_eq_some_iff.mp h
    cases hpair
    rw [hx]
    rfl
  · cases t with
    | nil => exact absurd (fun _ hc => nomatch hc) ht
    | cons c t =>
        have hc : c = 'e' ∨ c = 'E' := by
          by_contra hne
          apply ht
          intro d hd
          cases hd
          exact hne
        rw [scaled?_exponent hc] at h
        rw [List.cons_append, scaled?_exponent hc]
        obtain ⟨⟨power, after⟩, hpower, hdouble⟩ := Option.bind_eq_some_iff.mp h
        have happend := exponent?_append hrest hpower
        rw [List.cons_append] at happend
        obtain ⟨x, hx, hpair⟩ := Option.map_eq_some_iff.mp hdouble
        cases hpair
        rw [happend, Option.bind_some]
        dsimp only at hx ⊢
        rw [hx]
        rfl

theorem afterWhole?_append {minus : Bool} {whole t r : Text} {j : Json}
    (h : afterWhole? minus whole t = some (j, r)) :
    afterWhole? minus whole (t ++ rest) = some (j, r ++ rest) := by
  by_cases ht : ∀ c ∈ t.head?, c ≠ '.'
  · have hother : ∀ c ∈ (t ++ rest).head?, c ≠ '.' := by
      cases t with
      | nil => exact fun c hc => (hrest c hc).2.1
      | cons d t => exact ht
    have hexponent : ((t ++ rest).head?.all fun c => c ≠ 'e' && c ≠ 'E') =
        t.head?.all fun c => c ≠ 'e' && c ≠ 'E' := by
      cases t with
      | nil =>
          rw [List.nil_append, List.head?_nil, Option.all_none, Option.all_eq_true]
          intro c hc
          simpa using (hrest c hc).2.2
      | cons d t => rfl
    rw [afterWhole?_other ht] at h
    rw [afterWhole?_other hother, hexponent]
    split at h
    · rename_i hwhole
      cases h
      rw [if_pos hwhole]
    · rename_i hwhole
      rw [if_neg hwhole]
      exact scaled?_append hrest h
  · cases t with
    | nil => exact absurd (fun _ hc => nomatch hc) ht
    | cons c t =>
        have hc : c = '.' := by
          by_contra hne
          apply ht
          intro d hd
          cases hd
          exact hne
        subst hc
        rw [afterWhole?_point] at h
        rw [List.cons_append, afterWhole?_point, leadingDigits_append hrest]
        split at h
        · cases h
        · rename_i hfraction
          rw [if_neg hfraction]
          exact scaled?_append hrest h

theorem unsigned?_append {minus : Bool} {t r : Text} {j : Json}
    (h : unsigned? minus t = some (j, r)) : unsigned? minus (t ++ rest) = some (j, r ++ rest) := by
  rw [unsigned?_eq] at h ⊢
  rw [leadingDigits_append hrest]
  split at h
  · cases h
  · rename_i hwhole
    rw [if_neg hwhole]
    exact afterWhole?_append hrest h

theorem number?_append {t r : Text} {j : Json} (h : number? t = some (j, r)) :
    number? (t ++ rest) = some (j, r ++ rest) := by
  cases t with
  | nil => cases h
  | cons c t =>
      by_cases hc : c = '-'
      · subst hc
        exact unsigned?_append hrest h
      · have hnumber : ∀ u : Text, number? (c :: u) = unsigned? false (c :: u) := by
          intro u
          unfold number?
          split
          · rename_i heq
            cases heq
            exact absurd rfl hc
          · rfl
        rw [hnumber] at h
        rw [List.cons_append, hnumber]
        exact unsigned?_append hrest h

end Append

section Integers

theorem le_ofDigitChars (digits : Text) (n : Nat) : n ≤ Nat.ofDigitChars 10 digits n := by
  induction digits generalizing n with
  | nil => exact Nat.le_refl n
  | cons c digits ih =>
      rw [Nat.ofDigitChars_cons]
      have hrest := ih (10 * n + (c.toNat - '0'.toNat))
      omega

/-- Digits that fit into a significand are all taken into it. -/
theorem absorb_eq {digits : Text} (hdigits : ∀ c ∈ digits, c.isDigit = true) {n : Nat}
    (h : Nat.ofDigitChars 10 digits n ≤ maxSignificand) :
    absorb n digits = (Nat.ofDigitChars 10 digits n, []) := by
  induction digits generalizing n with
  | nil => rfl
  | cons c digits ih =>
      have hzero : '0'.toNat = 48 := rfl
      rw [Nat.ofDigitChars_cons, hzero, Nat.mul_comm] at h ⊢
      have hle := le_ofDigitChars digits (n * 10 + (c.toNat - 48))
      have hc := hdigits c List.mem_cons_self
      rw [absorb, if_pos]
      · exact ih (fun d hd => hdigits d (List.mem_cons_of_mem c hd)) h
      · simp only [hc, Bool.true_and, decide_eq_true_eq]
        omega

theorem head_toDigits {n : Nat} (hn : 0 < n) : (Nat.toDigits 10 n).head? ≠ some '0' := by
  induction n using Nat.strongRecOn with
  | ind n ih =>
      by_cases hlt : n < 10
      · rw [Nat.toDigits_of_lt_base hlt]
        intro hhead
        have hdigit : ∀ m < 10, Nat.digitChar m = '0' → m = 0 := by decide
        have hzero := hdigit n hlt (Option.some.inj hhead)
        omega
      · have hhead := ih (n / 10) (by omega) (by omega)
        rw [Nat.toDigits_of_base_le (by omega) (by omega), List.head?_append]
        cases hdigits : Nat.toDigits 10 (n / 10) with
        | nil => exact absurd hdigits Nat.toDigits_ne_nil
        | cons c digits =>
            rw [hdigits] at hhead
            exact hhead

theorem leadingDigits_ofNat (n : Nat) : leadingDigits (Text.ofNat n) = (Text.ofNat n, []) := by
  have hdigits : ∀ c ∈ Text.ofNat n, c.isDigit = true := by
    intro c hc
    exact Nat.isDigit_of_mem_toDigits (by omega) (by omega) hc
  unfold leadingDigits
  rw [List.takeWhile_eq_self_iff.mpr hdigits, List.dropWhile_eq_nil_iff.mpr hdigits]

theorem unsigned?_ofNat (minus : Bool) {n : Nat} (h : n ≤ maxSignificand) :
    unsigned? minus (Text.ofNat n) = some (integer minus n, []) := by
  have hdigits : ∀ c ∈ Text.ofNat n, c.isDigit = true := by
    intro c hc
    exact Nat.isDigit_of_mem_toDigits (by omega) (by omega) hc
  have hvalue : Nat.ofDigitChars 10 (Text.ofNat n) 0 = n := Nat.ofDigitChars_ten_toDigits
  have habsorb : absorb 0 (Text.ofNat n) = (n, []) := by
    rw [absorb_eq hdigits (by rw [hvalue]; exact h), hvalue]
  have hempty : (Text.ofNat n).isEmpty = false := by
    rw [List.isEmpty_eq_false_iff]
    exact Nat.toDigits_ne_nil
  have hzero : ¬ ((Text.ofNat n).head? = some '0' ∧ 1 < (Text.ofNat n).length) := by
    rintro ⟨hhead, hlength⟩
    rcases Nat.eq_zero_or_pos n with rfl | hn
    · exact absurd hlength (by decide)
    · exact head_toDigits hn hhead
  have hpoint : ∀ c ∈ ([] : Text).head?, c ≠ '.' := fun c hc => by cases hc
  rw [unsigned?_eq, leadingDigits_ofNat, if_neg, afterWhole?_other hpoint, habsorb]
  · rfl
  · simp only [hempty, Bool.false_or, Bool.and_eq_true, decide_eq_true_eq]
    exact hzero

/-- Integers that machine words can hold read back as they are written. -/
theorem number?_ofInt {n : Int} (h : -0x8000000000000000 ≤ n ∧ n < 0x10000000000000000) :
    number? (Text.ofInt n) = some (.int n, []) := by
  unfold Text.ofInt
  split
  · rename_i hn
    have hmax : n.natAbs ≤ maxSignificand := by
      unfold maxSignificand
      omega
    show unsigned? true (Text.ofNat n.natAbs) = _
    rw [unsigned?_ofNat true hmax]
    have habs : -(n.natAbs : Int) = n := by omega
    have hbounds : ¬ (n.natAbs = 0 ∨ 0x8000000000000000 < n.natAbs) := by omega
    rw [integer, if_neg (by decide), if_neg (by simpa only [Bool.or_eq_true, decide_eq_true_eq]
      using hbounds), habs]
  · rename_i hn
    have hmax : n.natAbs ≤ maxSignificand := by
      unfold maxSignificand
      omega
    have hsign : number? (Text.ofNat n.natAbs) = unsigned? false (Text.ofNat n.natAbs) := by
      unfold number?
      split
      · rename_i rest heq
        have hmem : '-' ∈ Text.ofNat n.natAbs := by
          rw [heq]
          exact List.mem_cons_self
        exact absurd (Nat.isDigit_of_mem_toDigits (by omega) (by omega) hmem) (by decide)
      · rfl
    rw [hsign, unsigned?_ofNat false hmax]
    have habs : (n.natAbs : Int) = n := by omega
    simp [integer, habs]

end Integers

end TemplateEngine.Json
