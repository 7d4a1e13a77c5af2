import Mathlib.Data.BitVec

/-!
# Serial numbers

Numbers that count around a circle.  Of two of them the newer one is at most
half a circle ahead.  Inside a window of half a circle this is the order of
the distances from the start of the window; on the whole circle it is neither
antisymmetric nor transitive.
-/

namespace DvsServer.Lib.SerialNumber

variable {w : Nat}

/-- `a` is `b` or less than half a circle ahead of it. -/
def newer (a b : BitVec (w + 1)) : Bool := decide ((a - b).toNat < 2 ^ w)

/-- How far `a` is ahead of `base`. -/
def distance (base a : BitVec (w + 1)) : Nat := (a - base).toNat

/-- `a` lies in the half circle that starts at `base`. -/
def InWindow (base a : BitVec (w + 1)) : Prop := distance base a < 2 ^ w

instance (base a : BitVec (w + 1)) : Decidable (InWindow base a) :=
  inferInstanceAs (Decidable (_ < _))

theorem distance_lt (base a : BitVec (w + 1)) : distance base a < 2 ^ (w + 1) := (a - base).isLt

@[simp] theorem distance_self (base : BitVec (w + 1)) : distance base base = 0 := by
  simp [distance]

theorem distance_injective {base a b : BitVec (w + 1)} (same : distance base a = distance base b) :
    a = b := by
  have equal : a - base = b - base := BitVec.eq_of_toNat_eq same
  have shifted := congrArg (· + base) equal
  simpa using shifted

/-- The distances of two numbers give their distance. -/
theorem toNat_sub_eq (base a b : BitVec (w + 1)) :
    (a - b).toNat = (2 ^ (w + 1) - distance base b + distance base a) % 2 ^ (w + 1) := by
  have split : a - b = (a - base) - (b - base) := by
    rw [sub_sub_sub_cancel_right]
  rw [split, BitVec.toNat_sub]
  rfl

/-- In a window the newer number is the one that is farther ahead. -/
theorem newer_iff {base a b : BitVec (w + 1)} (ha : InWindow base a) (hb : InWindow base b) :
    newer a b = true ↔ distance base b ≤ distance base a := by
  have whole : 2 ^ (w + 1) = 2 ^ w + 2 ^ w := by omega
  unfold InWindow at ha hb
  simp only [newer, decide_eq_true_eq, toNat_sub_eq base]
  constructor
  · intro near
    by_contra behind
    have small : 2 ^ (w + 1) - distance base b + distance base a < 2 ^ (w + 1) := by omega
    rw [Nat.mod_eq_of_lt small] at near
    omega
  · intro ahead
    have shifted : 2 ^ (w + 1) - distance base b + distance base a =
        (distance base a - distance base b) + 2 ^ (w + 1) := by omega
    rw [shifted, Nat.add_mod_right, Nat.mod_eq_of_lt (by omega)]
    omega

/-- Going ahead from a number adds to its distance, up to a whole circle. -/
theorem distance_add {base a ahead : BitVec (w + 1)}
    (room : distance base a + ahead.toNat < 2 ^ (w + 1)) :
    distance base (a + ahead) = distance base a + ahead.toNat := by
  have split : a + ahead - base = (a - base) + ahead := by
    rw [add_sub_right_comm]
  unfold distance at room ⊢
  rw [split, BitVec.toNat_add, Nat.mod_eq_of_lt room]

theorem distance_ofNat_add {a ahead : Nat} (room : ahead < 2 ^ (w + 1)) :
    distance (BitVec.ofNat (w + 1) a) (BitVec.ofNat (w + 1) (a + ahead)) = ahead := by
  have small : (BitVec.ofNat (w + 1) ahead).toNat = ahead := by
    rw [BitVec.toNat_ofNat, Nat.mod_eq_of_lt room]
  rw [BitVec.ofNat_add, distance_add, distance_self, small, Nat.zero_add]
  rw [distance_self, small, Nat.zero_add]
  exact room

/-- A number that is behind by at most half a circle is not newer. -/
theorem not_newer_of_behind {base a b : BitVec (w + 1)} (behind : distance base a < distance base b)
    (near : distance base b ≤ distance base a + 2 ^ w) : newer a b = false := by
  have whole : 2 ^ (w + 1) = 2 ^ w + 2 ^ w := by omega
  have bounded := distance_lt base b
  have small : 2 ^ (w + 1) - distance base b + distance base a < 2 ^ (w + 1) := by omega
  simp only [newer, decide_eq_false_iff_not, toNat_sub_eq base]
  rw [Nat.mod_eq_of_lt small]
  omega

/-- Two different numbers are not both newer than the other. -/
theorem newer_antisymm {a b : BitVec (w + 1)} (ab : newer a b = true) (ba : newer b a = true) :
    a = b := by
  have whole : 2 ^ (w + 1) = 2 ^ w + 2 ^ w := by omega
  simp only [newer, decide_eq_true_eq] at ab ba
  by_contra differ
  have nonzero : (a - b).toNat ≠ 0 := by
    intro zero
    have none : a - b = 0 := BitVec.eq_of_toNat_eq zero
    exact differ (sub_eq_zero.mp none)
  have opposite : b - a = -(a - b) := by simp
  rw [opposite, BitVec.toNat_neg, Nat.mod_eq_of_lt (by omega)] at ba
  omega

end DvsServer.Lib.SerialNumber
