import Mathlib.Algebra.Ring.Int.Defs
import Mathlib.Algebra.Ring.Nat
import Mathlib.Data.List.Basic

/-!
# Cutting a stream into chunks

A stream of known length is cut at given sizes.  Its blocks are the chunks of
one fixed size, with what remains at the end.
-/

namespace DvsServer.Lib

/-- The chunks of these sizes, in the order of the stream. -/
def cut {α : Type} : List Nat → List α → List (List α)
  | [], _ => []
  | size :: rest, stream => stream.take size :: cut rest (stream.drop size)

/-- The sizes of the blocks of a stream of length `len`. -/
def blocks (n len : Nat) : List Nat :=
  List.replicate (len / n) n ++ if len % n = 0 then [] else [len % n]

theorem sum_blocks (n len : Nat) : (blocks n len).sum = len := by
  rw [blocks, List.sum_append, List.sum_replicate_nat, Nat.mul_comm]
  have split_ := Nat.div_add_mod len n
  by_cases whole : len % n = 0
  · rw [if_pos whole, List.sum_nil]
    omega
  · rw [if_neg whole, List.sum_singleton]
    omega

theorem pos_of_mem_blocks {n len size : Nat} (pos : 0 < n) (member : size ∈ blocks n len) :
    0 < size := by
  rcases List.mem_append.mp member with block | remainder
  · rw [List.eq_of_mem_replicate block]
    exact pos
  · split at remainder
    · cases remainder
    · rw [List.mem_singleton.mp remainder]
      omega

/-- Sizes that add up to the length of the stream are the lengths of the chunks. -/
theorem map_length_cut {α : Type} {sizes : List Nat} {stream : List α}
    (length_eq : stream.length = sizes.sum) : (cut sizes stream).map List.length = sizes := by
  induction sizes generalizing stream with
  | nil => rfl
  | cons size rest ih =>
      rw [List.sum_cons] at length_eq
      rw [cut, List.map_cons, List.length_take, ih (by rw [List.length_drop]; omega)]
      exact congrArg (· :: rest) (by omega)

/-- Positive sizes cut no empty chunk. -/
theorem cut_ne_nil {α : Type} {sizes : List Nat} {stream : List α}
    (positive : ∀ size ∈ sizes, 0 < size) (length_eq : stream.length = sizes.sum) :
    ∀ chunk ∈ cut sizes stream, chunk ≠ [] := by
  rintro _ member rfl
  refine Nat.lt_irrefl 0 (positive 0 ?_)
  rw [← map_length_cut length_eq]
  exact List.mem_map_of_mem (f := List.length) member

end DvsServer.Lib
