import Mathlib.Logic.Function.Basic
import Mathlib.Data.List.Basic
import Mathlib.Data.Nat.ModEq

/-!
# Ring buffers

A block of `len` cells with a cursor for reading and one for writing.  What
the ring holds is read off as a list: putting appends to it, dropping takes
its head.
-/

namespace DvsServer.Lib

structure RingBuffer (α : Type) where
  curRd : Nat
  curWr : Nat
  len : Nat
  count : Nat
  queue : Nat → α

namespace RingBuffer

variable {α : Type}

/-- A ring with nothing in it; the cells are not initialised. -/
def create (len : Nat) (garbage : Nat → α) : RingBuffer α := ⟨0, 0, len, 0, garbage⟩

/-- Write the cell under `curWr` and move on. -/
def put (q : RingBuffer α) (value : α) : RingBuffer α :=
  { q with
    queue := Function.update q.queue q.curWr value
    curWr := (q.curWr + 1) % q.len
    count := q.count + 1 }

/-- The cell under `curRd`. -/
def front (q : RingBuffer α) : α := q.queue q.curRd

/-- Move on to the next cell to be read. -/
def drop (q : RingBuffer α) : RingBuffer α :=
  { q with curRd := (q.curRd + 1) % q.len, count := q.count - 1 }

/-- The index of the cell with the `i`-th element. -/
def cell (q : RingBuffer α) (i : Nat) : Nat := (q.curRd + i) % q.len

/-- The elements, oldest first. -/
def contents (q : RingBuffer α) : List α := (List.range q.count).map fun i => q.queue (q.cell i)

/-- The cursors are inside the block and `count` cells apart. -/
structure WellFormed (q : RingBuffer α) : Prop where
  count_le : q.count ≤ q.len
  curRd_lt : 0 < q.len → q.curRd < q.len
  curWr_eq : q.curWr = q.cell q.count

theorem wellFormed_create (len : Nat) (garbage : Nat → α) : (create len garbage).WellFormed := by
  refine ⟨Nat.zero_le _, fun positive => positive, ?_⟩
  simp [create, cell]

@[simp] theorem length_contents (q : RingBuffer α) : q.contents.length = q.count := by
  simp [contents]

/-- Different elements lie in different cells. -/
theorem cell_injective (q : RingBuffer α) {i j : Nat} (hi : i < q.len) (hj : j < q.len)
    (same : q.cell i = q.cell j) : i = j := by
  have shifted : q.curRd + i ≡ q.curRd + j [MOD q.len] := same
  have plain : i ≡ j [MOD q.len] := Nat.ModEq.add_left_cancel' q.curRd shifted
  exact plain.eq_of_lt_of_lt hi hj

theorem WellFormed.put {q : RingBuffer α} (wf : q.WellFormed) (room : q.count < q.len) (value : α) :
    (q.put value).WellFormed := by
  refine ⟨room, wf.curRd_lt, ?_⟩
  change (q.curWr + 1) % q.len = (q.curRd + (q.count + 1)) % q.len
  rw [wf.curWr_eq, cell, Nat.mod_add_mod, Nat.add_assoc]

theorem WellFormed.drop {q : RingBuffer α} (wf : q.WellFormed) (some : 0 < q.count) :
    q.drop.WellFormed := by
  have bounded := wf.count_le
  refine ⟨?_, fun positive => Nat.mod_lt _ positive, ?_⟩
  · change q.count - 1 ≤ q.len
    omega
  · change q.curWr = ((q.curRd + 1) % q.len + (q.count - 1)) % q.len
    have regroup : q.curRd + 1 + (q.count - 1) = q.curRd + q.count := by omega
    rw [wf.curWr_eq, cell, Nat.mod_add_mod, regroup]

/-- Putting appends: no cell that is in use is overwritten. -/
theorem contents_put {q : RingBuffer α} (wf : q.WellFormed) (room : q.count < q.len) (value : α) :
    (q.put value).contents = q.contents ++ [value] := by
  have written : q.curWr = q.cell q.count := wf.curWr_eq
  have kept : ∀ i ∈ List.range q.count,
      (q.put value).queue ((q.put value).cell i) = q.queue (q.cell i) := by
    intro i inside
    have before : i < q.count := List.mem_range.mp inside
    apply Function.update_of_ne
    rw [written]
    intro same
    have equal := q.cell_injective (before.trans room) room same
    omega
  change (List.range (q.count + 1)).map _ = _
  rw [List.range_succ, List.map_append, List.map_congr_left kept]
  simp only [List.map_cons, List.map_nil, contents]
  congr 2
  change Function.update q.queue q.curWr value (q.cell q.count) = value
  rw [written, Function.update_self]

/-- The front is the head of the list and dropping takes it off. -/
theorem contents_eq_cons {q : RingBuffer α} (wf : q.WellFormed) (some : 0 < q.count) :
    q.contents = q.front :: q.drop.contents := by
  have inside : q.curRd < q.len := wf.curRd_lt (some.trans_le wf.count_le)
  obtain ⟨n, counted⟩ : ∃ n, q.count = n + 1 := ⟨q.count - 1, by omega⟩
  have first : q.cell 0 = q.curRd := Nat.mod_eq_of_lt inside
  have next : ∀ i, q.cell (i + 1) = q.drop.cell i := by
    intro i
    change (q.curRd + (i + 1)) % q.len = ((q.curRd + 1) % q.len + i) % q.len
    rw [Nat.mod_add_mod, Nat.add_assoc, Nat.add_comm 1 i]
  have dropped : q.drop.count = n := by
    change q.count - 1 = n
    omega
  unfold contents
  rw [dropped, counted, List.range_succ_eq_map, List.map_cons, List.map_map, first]
  congr 1
  apply List.map_congr_left
  intro i _
  change q.queue (q.cell (i + 1)) = q.queue (q.drop.cell i)
  rw [next]

theorem contents_eq_nil {q : RingBuffer α} : q.contents = [] ↔ q.count = 0 := by
  rw [← List.length_eq_zero_iff, length_contents]

end RingBuffer

end DvsServer.Lib
