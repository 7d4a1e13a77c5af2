import Mathlib.Data.Finset.Card
import Mathlib.Logic.Function.Basic

/-!
# Finite memories

Cells of one type, finitely many of which hold something.  Counting the cells
with a property is what reference counts are compared with.
-/

namespace DvsServer.Lib

/-- What the cells hold, and which ones do. -/
structure Cells (ι α : Type) where
  get : ι → Option α
  live : Finset ι
  mem_live : ∀ a, a ∈ live ↔ get a ≠ none

namespace Cells

variable {ι α : Type}

@[ext] theorem ext {cells other : Cells ι α} (same : ∀ a, cells.get a = other.get a) :
    cells = other := by
  have live : cells.live = other.live := by
    ext a
    rw [cells.mem_live, other.mem_live, same]
  obtain ⟨get, _, _⟩ := cells
  obtain ⟨get', _, _⟩ := other
  obtain rfl : get = get' := funext same
  cases live
  rfl

def empty : Cells ι α := ⟨fun _ => none, ∅, by simp⟩

@[simp] theorem get_empty (a : ι) : (empty : Cells ι α).get a = none := rfl

theorem live_of_get {cells : Cells ι α} {a : ι} {value : α} (held : cells.get a = some value) :
    a ∈ cells.live := by
  rw [cells.mem_live, held]
  exact Option.some_ne_none value

theorem not_live {cells : Cells ι α} {a : ι} (free : cells.get a = none) : a ∉ cells.live := by
  rw [cells.mem_live, free]
  simp

theorem ne_of_free {cells : Cells ι α} {a b : ι} {value : α} (free : cells.get a = none)
    (held : cells.get b = some value) : b ≠ a := by
  rintro rfl
  rw [free] at held
  cases held

/-! ## Counting -/

/-- How many cells hold something with a property. -/
def count (cells : Cells ι α) (p : α → Bool) : Nat :=
  (cells.live.filter fun a => (cells.get a).any p = true).card

section Counting

variable {cells : Cells ι α} {p : α → Bool}

theorem mem_counted {a : ι} :
    (a ∈ cells.live.filter fun a => (cells.get a).any p = true) ↔
      ∃ value, cells.get a = some value ∧ p value = true := by
  rw [Finset.mem_filter, cells.mem_live]
  cases held : cells.get a with
  | none => simp
  | some value => simp

theorem exists_of_count_pos (some_ : 0 < cells.count p) :
    ∃ a value, cells.get a = some value ∧ p value = true := by
  obtain ⟨a, inside⟩ := Finset.card_pos.mp some_
  exact ⟨a, mem_counted.mp inside⟩

/-- The only cell with a property. -/
theorem eq_of_count_one {a b : ι} {value other : α} (one : cells.count p = 1)
    (held : cells.get a = some value) (holds : p value = true) (held' : cells.get b = some other)
    (holds' : p other = true) : b = a := by
  obtain ⟨c, only⟩ := Finset.card_eq_one.mp one
  have inA := mem_counted.mpr ⟨value, held, holds⟩
  have inB := mem_counted.mpr ⟨other, held', holds'⟩
  rw [only, Finset.mem_singleton] at inA inB
  rw [inA, inB]

end Counting

/-! ## Changes -/

variable [DecidableEq ι]

theorem mem_live_put (cells : Cells ι α) (a : ι) (value : α) (b : ι) :
    b ∈ insert a cells.live ↔ Function.update cells.get a (some value) b ≠ none := by
  by_cases same : b = a
  · simp [same]
  · simp [same, cells.mem_live]

def put (cells : Cells ι α) (a : ι) (value : α) : Cells ι α :=
  ⟨Function.update cells.get a (some value), insert a cells.live, cells.mem_live_put a value⟩

theorem mem_live_drop (cells : Cells ι α) (a b : ι) :
    b ∈ cells.live.erase a ↔ Function.update cells.get a none b ≠ none := by
  by_cases same : b = a
  · simp [same]
  · simp [same, cells.mem_live]

def drop (cells : Cells ι α) (a : ι) : Cells ι α :=
  ⟨Function.update cells.get a none, cells.live.erase a, cells.mem_live_drop a⟩

section Access

variable {cells : Cells ι α} {a b : ι}

@[simp] theorem get_put (value : α) : (cells.put a value).get a = some value :=
  Function.update_self _ _ _

theorem get_put_ne (value : α) (other : b ≠ a) : (cells.put a value).get b = cells.get b :=
  Function.update_of_ne other _ _

@[simp] theorem get_drop : (cells.drop a).get a = none :=
  Function.update_self _ _ _

theorem get_drop_ne (other : b ≠ a) : (cells.drop a).get b = cells.get b :=
  Function.update_of_ne other _ _

@[simp] theorem live_put (value : α) : (cells.put a value).live = insert a cells.live := rfl

@[simp] theorem live_drop : (cells.drop a).live = cells.live.erase a := rfl

theorem drop_put (value : α) (free : cells.get a = none) : (cells.put a value).drop a = cells := by
  ext b : 1
  by_cases same : b = a
  · rw [same, get_drop, free]
  · rw [get_drop_ne same, get_put_ne value same]

end Access

/-! ## Counts after a change -/

section Count

variable {cells : Cells ι α} {a : ι} {value : α} (p : α → Bool)

theorem count_put_of_free (free : cells.get a = none) :
    (cells.put a value).count p = cells.count p + if p value then 1 else 0 := by
  have absent : a ∉ cells.live := not_live free
  have same : (cells.live.filter fun b => ((cells.put a value).get b).any p = true) =
      cells.live.filter fun b => (cells.get b).any p = true := by
    apply Finset.filter_congr
    intro b inside
    rw [get_put_ne]
    rintro rfl
    exact absent inside
  rw [count, live_put, Finset.filter_insert, same, get_put]
  by_cases holds : p value = true
  · rw [if_pos (by simpa using holds), if_pos holds, Finset.card_insert_of_notMem]
    · rfl
    · simp [absent]
  · rw [if_neg (by simpa using holds), if_neg holds]
    rfl

theorem count_drop (held : cells.get a = some value) :
    ((cells.drop a).count p + if p value then 1 else 0) = cells.count p := by
  have inside : a ∈ cells.live := live_of_get held
  have same : (cells.live.erase a).filter (fun b => ((cells.drop a).get b).any p = true) =
      (cells.live.filter fun b => (cells.get b).any p = true).erase a := by
    ext b
    by_cases own : b = a
    · simp [own]
    · simp [own, get_drop_ne own]
  rw [count, live_drop, same, count]
  by_cases holds : p value = true
  · have counted : a ∈ cells.live.filter fun b => (cells.get b).any p = true := by
      simp [inside, held, holds]
    rw [if_pos holds, Finset.card_erase_add_one counted]
  · rw [if_neg holds, Finset.erase_eq_of_notMem, Nat.add_zero]
    simp [held, holds]

theorem count_put_of_same {before : α} (held : cells.get a = some before)
    (same : p value = p before) : (cells.put a value).count p = cells.count p := by
  have inside : a ∈ cells.live := live_of_get held
  rw [count, count, live_put, Finset.insert_eq_of_mem inside]
  congr 1
  apply Finset.filter_congr
  intro b _
  by_cases own : b = a
  · rw [own, get_put, held, Option.any_some, Option.any_some, same]
  · rw [get_put_ne value own]

end Count

end Cells

end DvsServer.Lib
