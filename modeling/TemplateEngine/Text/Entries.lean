import TemplateEngine.Text.Basic

/-!
# Entries in order of insertion

Names with values, in the order in which the names first came. Putting a value
under a name that is there replaces the value and keeps the place.
-/
namespace TemplateEngine

/-- Names with values. -/
abbrev Entries (α : Type) := List (Text × α)

namespace Entries

variable {α : Type}

/-- The value under a name. -/
def get? (name : Text) : Entries α → Option α
  | [] => none
  | (known, value) :: rest => if known = name then some value else get? name rest

/-- The entries with a value put under a name. -/
def put (name : Text) (value : α) : Entries α → Entries α
  | [] => [(name, value)]
  | (known, old) :: rest =>
    if known = name then (known, value) :: rest else (known, old) :: put name value rest

/-- The entries with more of them put in, one after the other. -/
def putAll (more entries : Entries α) : Entries α :=
  more.foldl (fun entries entry => put entry.1 entry.2 entries) entries

/-- The names, in order. -/
def names (entries : Entries α) : List Text := entries.map (·.1)

@[simp] theorem get?_put_self (name : Text) (value : α) (entries : Entries α) :
    get? name (put name value entries) = some value := by
  induction entries with
  | nil => simp [put, get?]
  | cons entry rest ih =>
    by_cases h : entry.1 = name <;> simp [put, get?, h, ih]

theorem get?_put_of_ne {name other : Text} (h : other ≠ name) (value : α) (entries : Entries α) :
    get? name (put other value entries) = get? name entries := by
  induction entries with
  | nil => simp [put, get?, h]
  | cons entry rest ih =>
    by_cases hk : entry.1 = other
    · simp [put, get?, hk, h]
    · rw [put, if_neg hk]
      simp [get?, ih]

/-- Putting a value changes what is under its name and nothing else. -/
theorem get?_put (name other : Text) (value : α) (entries : Entries α) :
    get? name (put other value entries) =
      if name = other then some value else get? name entries := by
  by_cases h : name = other
  · subst h
    simp
  · simp [h, get?_put_of_ne (Ne.symm h)]

/-- A name that is there keeps its place, and any other comes last. -/
theorem names_put (name : Text) (value : α) (entries : Entries α) :
    (put name value entries).names =
      if name ∈ entries.names then entries.names else entries.names ++ [name] := by
  induction entries with
  | nil => simp [put, names]
  | cons entry rest ih =>
    by_cases h : entry.1 = name
    · simp [put, names, h]
    · have ih' : (put name value rest).map (·.1) =
          if name ∈ rest.map (·.1) then rest.map (·.1) else rest.map (·.1) ++ [name] := ih
      have h' : ¬ name = entry.1 := fun e => h e.symm
      rw [put, if_neg h]
      simp only [names, List.map_cons, List.mem_cons, h', false_or, ih']
      split <;> rfl

theorem get?_append (name : Text) (entries more : Entries α) :
    get? name (entries ++ more) = (get? name entries).or (get? name more) := by
  induction entries with
  | nil => rfl
  | cons entry rest ih =>
    rw [List.cons_append, get?, get?]
    split
    · rfl
    · exact ih

theorem get?_eq_none {name : Text} {entries : Entries α} (h : name ∉ entries.names) :
    get? name entries = none := by
  induction entries with
  | nil => rfl
  | cons entry rest ih =>
    rw [names, List.map_cons, List.mem_cons, not_or] at h
    rw [get?, if_neg fun heq => h.1 heq.symm]
    exact ih h.2

/-- The last value that is put under a name is the one that stays there. -/
theorem get?_putAll (name : Text) (more entries : Entries α) :
    get? name (putAll more entries) = (get? name more.reverse).or (get? name entries) := by
  induction more generalizing entries with
  | nil => rfl
  | cons entry more ih =>
    have hfirst : putAll (entry :: more) entries = putAll more (put entry.1 entry.2 entries) := rfl
    have hput : get? name (put entry.1 entry.2 entries) =
        (get? name [entry]).or (get? name entries) := by
      rw [get?_put, get?, get?]
      by_cases h : entry.1 = name
      · rw [if_pos h.symm, if_pos h]
        rfl
      · rw [if_neg (Ne.symm h), if_neg h]
        rfl
    rw [hfirst, ih, hput, List.reverse_cons, get?_append, Option.or_assoc]

/-- Where no name comes twice, the order makes no difference. -/
theorem get?_reverse {entries : Entries α} (h : entries.names.Nodup) (name : Text) :
    get? name entries.reverse = get? name entries := by
  induction entries with
  | nil => rfl
  | cons entry rest ih =>
    rw [names, List.map_cons, List.nodup_cons] at h
    rw [List.reverse_cons, get?_append, ih h.2]
    by_cases hname : entry.1 = name
    · rw [get?_eq_none (hname ▸ h.1), get?, if_pos hname, get?, if_pos hname, Option.none_or]
    · rw [get?, if_neg hname, get?, Option.or_none, get?, if_neg hname]

end Entries

end TemplateEngine
