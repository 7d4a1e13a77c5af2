import Mathlib.Algebra.Ring.Int.Defs
import Mathlib.Algebra.Ring.Nat
import Mathlib.Logic.Function.Basic
import Mathlib.Data.Fin.Tuple.Basic
import Mathlib.Data.Fintype.Basic
import Mathlib.Data.Finset.Card

/-!
# Fixed tables of slots

A table has a fixed number of entries; an entry is free or holds a value.
Allocation takes the first free entry.  What C makes of an `int` that is an
index or a size comes first.  `Grows` says what any number of
allocations may do to a table: held values stay where they are, and every new
value is one of those allocated.
-/

namespace DvsServer.Lib

/-- The entry a C array of length `n` has at a signed index, when it has one. -/
def index? (n : Nat) (i : Int) : Option (Fin n) :=
  if inside : 0 ≤ i ∧ i.toNat < n then some ⟨i.toNat, inside.2⟩ else none

/-- A C `int` converted to a `size_t` of 64 bits. -/
def sizeOfInt (len : Int32) : Nat := (len.toInt % 2 ^ 64).toNat

theorem index?_eq_some {n : Nat} {i : Int} {entry : Fin n} :
    index? n i = some entry ↔ i = entry := by
  unfold index?
  constructor
  · intro found
    split at found
    · rename_i inside
      cases found
      exact (Int.toNat_of_nonneg inside.1).symm
    · cases found
  · intro same
    subst same
    have below := entry.isLt
    rw [dif_pos ⟨by omega, by simp⟩]
    simp

@[simp] theorem index?_val {n : Nat} (entry : Fin n) : index? n (entry : Int) = some entry :=
  index?_eq_some.mpr rfl

/-- The first entry that holds nothing. -/
def firstFree {n : Nat} {α : Type} (free : α → Bool) (table : Fin n → α) : Option (Fin n) :=
  Fin.find? fun i => free (table i)

theorem firstFree_eq_some {n : Nat} {α : Type} {free : α → Bool} {table : Fin n → α} {i : Fin n} :
    firstFree free table = some i ↔ free (table i) = true ∧ ∀ j < i, free (table j) = false :=
  Fin.find?_eq_some_iff

theorem firstFree_eq_none {n : Nat} {α : Type} {free : α → Bool} {table : Fin n → α} :
    firstFree free table = none ↔ ∀ i, free (table i) = false :=
  Fin.find?_eq_none_iff

/-- The number of entries that hold nothing. -/
def freeCount {n : Nat} {α : Type} (free : α → Bool) (table : Fin n → α) : Nat :=
  (Finset.univ.filter fun i => free (table i) = true).card

/-- Filling a free entry takes one from the count. -/
theorem freeCount_fill {n : Nat} {α : Type} {free : α → Bool} {table : Fin n → α} {i : Fin n}
    {entry : α} (isFree : free (table i) = true) (used : free entry = false) :
    freeCount free (Function.update table i entry) + 1 = freeCount free table := by
  have fewer : (Finset.univ.filter fun j => free (Function.update table i entry j) = true) =
      (Finset.univ.filter fun j => free (table j) = true).erase i := by
    ext j
    by_cases same : j = i
    · subst same
      simp [used]
    · simp [same]
  rw [freeCount, fewer]
  apply Finset.card_erase_add_one
  simpa using isFree

theorem freeCount_eq_zero {n : Nat} {α : Type} {free : α → Bool} {table : Fin n → α} :
    freeCount free table = 0 ↔ ∀ i, free (table i) = false := by
  simp [freeCount, Finset.filter_eq_empty_iff]

/-- `after` arises from `before` by placing values of `made` into entries that
held nothing; `content` reads the value an entry holds. -/
structure Grows {n : Nat} {α β : Type} (content : α → Option β) (before after : Fin n → α)
    (made : List β) : Prop where
  keeps : ∀ i value, content (before i) = some value → after i = before i
  origin : ∀ i value, content (after i) = some value →
    content (before i) = some value ∨ (content (before i) = none ∧ value ∈ made)

namespace Grows

theorem refl {n : Nat} {α β : Type} (content : α → Option β) (table : Fin n → α) :
    Grows content table table [] :=
  ⟨fun _ _ _ => rfl, fun _ _ held => .inl held⟩

/-- Placing one value into a free entry. -/
theorem place {n : Nat} {α β : Type} {content : α → Option β} {table : Fin n → α} {i : Fin n}
    {entry : α} {value : β} (free : content (table i) = none)
    (placed : content entry = some value) :
    Grows content table (Function.update table i entry) [value] := by
  refine ⟨fun j held hheld => ?_, fun j held hheld => ?_⟩
  · have other : j ≠ i := by
      intro same
      rw [same, free] at hheld
      cases hheld
    exact Function.update_of_ne other _ _
  · by_cases same : j = i
    · subst same
      rw [Function.update_self, placed] at hheld
      cases hheld
      exact .inr ⟨free, List.mem_singleton.mpr rfl⟩
    · rw [Function.update_of_ne same] at hheld
      exact .inl hheld

theorem trans {n : Nat} {α β : Type} {content : α → Option β} {first second third : Fin n → α}
    {made more : List β} (one : Grows content first second made)
    (two : Grows content second third more) : Grows content first third (made ++ more) := by
  refine ⟨fun i value held => ?_, fun i value held => ?_⟩
  · have same := one.keeps i value held
    rw [two.keeps i value (same ▸ held), same]
  · rcases two.origin i value held with before | ⟨free, inMore⟩
    · rcases one.origin i value before with before | ⟨free, inMade⟩
      · exact .inl before
      · exact .inr ⟨free, List.mem_append_left _ inMade⟩
    · refine .inr ⟨?_, List.mem_append_right _ inMore⟩
      cases content_eq : content (first i) with
      | none => rfl
      | some old =>
          rw [one.keeps i old content_eq, content_eq] at free
          cases free

/-- A held value survives. -/
theorem held {n : Nat} {α β : Type} {content : α → Option β} {before after : Fin n → α}
    {made : List β} (grown : Grows content before after made) {i : Fin n} {value : β}
    (held : content (before i) = some value) : content (after i) = some value := by
  rw [grown.keeps i value held, held]

end Grows

end DvsServer.Lib
