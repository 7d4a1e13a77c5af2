import Mathlib.Order.Basic

/-!
# Changes to a word of flags

A sequence of `flags &= ~mask` and `flags |= mask` keeps some bits and puts others,
whatever the word was before.
-/

namespace DvsServer.Lib

/-- The bits of `keep` stay as they are, those of `put` are set. -/
structure FlagPatch (w : Nat) where
  keep : BitVec w
  put : BitVec w
deriving DecidableEq

namespace FlagPatch

variable {w : Nat}

def apply (p : FlagPatch w) (flags : BitVec w) : BitVec w := (flags &&& p.keep) ||| p.put

/-- `flags &= ~mask` -/
def clear (mask : BitVec w) : FlagPatch w := ⟨~~~mask, 0⟩

/-- `flags |= mask` -/
def raise (mask : BitVec w) : FlagPatch w := ⟨~~~mask, mask⟩

/-- One patch and then another. -/
def andThen (p q : FlagPatch w) : FlagPatch w := ⟨p.keep &&& q.keep, (p.put &&& q.keep) ||| q.put⟩

@[simp] theorem apply_clear (mask flags : BitVec w) : (clear mask).apply flags = flags &&& ~~~mask := by
  simp [apply, clear]

@[simp] theorem apply_raise (mask flags : BitVec w) : (raise mask).apply flags = flags ||| mask := by
  apply BitVec.eq_of_getElem_eq
  intro i bound
  simp only [apply, raise, BitVec.getElem_or, BitVec.getElem_and, BitVec.getElem_not]
  cases mask[i] with
  | false => simp
  | true => simp

@[simp] theorem apply_andThen (p q : FlagPatch w) (flags : BitVec w) :
    (p.andThen q).apply flags = q.apply (p.apply flags) := by
  simp only [apply, andThen, BitVec.and_or_distrib_right, BitVec.and_assoc, BitVec.or_assoc]

/-! ### Masks -/

/-- The bits of a mask become these, whatever they were. -/
structure Puts (p : FlagPatch w) (mask bits : BitVec w) : Prop where
  keep : p.keep &&& mask = 0
  put : p.put &&& mask = bits

/-- The bits of a mask stay as they are. -/
structure Spares (p : FlagPatch w) (mask : BitVec w) : Prop where
  keep : p.keep &&& mask = mask
  put : p.put &&& mask = 0

variable {p q : FlagPatch w} {mask bits : BitVec w}

theorem apply_and (p : FlagPatch w) (flags mask : BitVec w) :
    p.apply flags &&& mask = (flags &&& (p.keep &&& mask)) ||| (p.put &&& mask) := by
  rw [apply, BitVec.and_or_distrib_right, BitVec.and_assoc]

theorem andThen_keep_and (p q : FlagPatch w) (mask : BitVec w) :
    (p.andThen q).keep &&& mask = p.keep &&& (q.keep &&& mask) :=
  BitVec.and_assoc _ _ _

theorem andThen_put_and (p q : FlagPatch w) (mask : BitVec w) :
    (p.andThen q).put &&& mask = (p.put &&& (q.keep &&& mask)) ||| (q.put &&& mask) := by
  rw [andThen, BitVec.and_or_distrib_right, BitVec.and_assoc]

theorem Puts.apply (puts : p.Puts mask bits) (flags : BitVec w) : p.apply flags &&& mask = bits := by
  rw [apply_and, puts.keep, puts.put]
  simp

theorem Spares.apply (spares : p.Spares mask) (flags : BitVec w) :
    p.apply flags &&& mask = flags &&& mask := by
  rw [apply_and, spares.keep, spares.put]
  simp

/-- The later of two patches has the last word. -/
theorem Puts.after (p : FlagPatch w) (puts : q.Puts mask bits) : (p.andThen q).Puts mask bits where
  keep := by
    rw [andThen_keep_and, puts.keep]
    simp
  put := by
    rw [andThen_put_and, puts.keep, puts.put]
    simp

theorem Puts.andThen (puts : p.Puts mask bits) (spares : q.Spares mask) :
    (p.andThen q).Puts mask bits where
  keep := by
    rw [andThen_keep_and, spares.keep]
    exact puts.keep
  put := by
    rw [andThen_put_and, spares.keep, spares.put, puts.put]
    simp

theorem Spares.andThen (first : p.Spares mask) (second : q.Spares mask) :
    (p.andThen q).Spares mask where
  keep := by
    rw [andThen_keep_and, second.keep]
    exact first.keep
  put := by
    rw [andThen_put_and, second.keep, second.put, first.put]
    simp

end FlagPatch

end DvsServer.Lib
