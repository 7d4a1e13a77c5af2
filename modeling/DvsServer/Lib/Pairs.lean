import Mathlib.Algebra.Order.Ring.Int
import Mathlib.Data.Finset.Insert
import Mathlib.Data.Finset.Disjoint

/-!
# Pairs of neighbours

Numbers that each take their successor too.  A list of them may fill an interval; two
lists that fill intervals are apart where the intervals are.
-/

namespace DvsServer.Lib

def pairAt (p : Int) : Finset Int := {p, p + 1}

@[simp] theorem mem_pairAt {p x : Int} : x ∈ pairAt p ↔ x = p ∨ x = p + 1 := by
  simp [pairAt]

theorem pairAt_disjoint_iff {p q : Int} :
    Disjoint (pairAt p) (pairAt q) ↔ p + 1 < q ∨ q + 1 < p := by
  rw [Finset.disjoint_left]
  constructor
  · intro apart
    have first := @apart p (by simp)
    have second := @apart (p + 1) (by simp)
    simp only [mem_pairAt] at first second
    omega
  · intro away x inP inQ
    simp only [mem_pairAt] at inP inQ
    omega

/-- The pairs make up the interval of `2 * n` numbers from `low`. -/
def Fills (ports : List Int) (low : Int) (n : Nat) : Prop :=
  ∀ x, (∃ p ∈ ports, x ∈ pairAt p) ↔ low ≤ x ∧ x < low + 2 * n

theorem Fills.bounds {ports : List Int} {low : Int} {n : Nat} (fills : Fills ports low n) {p : Int}
    (used : p ∈ ports) : low ≤ p ∧ p + 1 < low + 2 * n :=
  ⟨((fills p).mp ⟨p, used, by simp⟩).1, ((fills (p + 1)).mp ⟨p, used, by simp⟩).2⟩

theorem Fills.empty (low : Int) : Fills [] low 0 := by
  intro x
  simp

/-- Pairs within bounds are pairs of an interval within them. -/
theorem Fills.within_iff {ports : List Int} {low : Int} {n : Nat} (fills : Fills ports low n)
    {least most : Int} :
    (∀ p ∈ ports, least ≤ p ∧ p + 1 ≤ most) ↔ n = 0 ∨ least ≤ low ∧ low + 2 * n ≤ most + 1 := by
  constructor
  · intro within
    by_cases none_ : n = 0
    · exact .inl none_
    · obtain ⟨p, used, start⟩ := (fills low).mpr (by omega)
      obtain ⟨q, used', stop⟩ := (fills (low + 2 * n - 1)).mpr (by omega)
      have first := within p used
      have last := within q used'
      have bound := fills.bounds used
      simp only [mem_pairAt] at start stop
      omega
  · intro inside p used
    have bound := fills.bounds used
    omega

/-- Two lists of pairs are apart where one interval ends before the other begins. -/
theorem Fills.apart_iff {ports others : List Int} {low low' : Int} {n n' : Nat}
    (fills : Fills ports low n) (fills' : Fills others low' n') :
    (∀ p ∈ ports, ∀ q ∈ others, Disjoint (pairAt p) (pairAt q)) ↔
      n = 0 ∨ n' = 0 ∨ low + 2 * n ≤ low' ∨ low' + 2 * n' ≤ low := by
  constructor
  · intro apart
    by_contra overlap
    obtain ⟨p, used, inP⟩ := (fills (max low low')).mpr (by omega)
    obtain ⟨q, used', inQ⟩ := (fills' (max low low')).mpr (by omega)
    exact Finset.disjoint_left.mp (apart p used q used') inP inQ
  · intro away p used q used'
    have bound := fills.bounds used
    have bound' := fills'.bounds used'
    rw [pairAt_disjoint_iff]
    omega

theorem fills_up (base : Int) (n : Nat) :
    Fills ((List.range n).map fun i : Nat => base + i * 2) base n := by
  intro x
  simp only [List.mem_map, List.mem_range, exists_exists_and_eq_and, mem_pairAt]
  constructor
  · rintro ⟨i, below, here⟩
    omega
  · rintro ⟨lower, upper⟩
    exact ⟨((x - base) / 2).toNat, by omega, by omega⟩

theorem fills_down (base : Int) (n : Nat) :
    Fills ((List.range n).map fun i : Nat => base - i * 2) (base - 2 * n + 2) n := by
  intro x
  simp only [List.mem_map, List.mem_range, exists_exists_and_eq_and, mem_pairAt]
  constructor
  · rintro ⟨i, below, here⟩
    omega
  · rintro ⟨lower, upper⟩
    exact ⟨((base + 1 - x) / 2).toNat, by omega, by omega⟩

end DvsServer.Lib
