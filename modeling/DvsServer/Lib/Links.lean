import Mathlib.Data.List.Chain
import Mathlib.Logic.Function.Basic

/-!
# Doubly linked lists

Two pointers a node, and the lists that they describe.  A node is linked in and
out by changing the pointers of its neighbours; everything else stays.
-/

namespace DvsServer.Lib

/-- The pointers of the nodes; `none` is the null pointer. -/
structure Links (ι : Type) where
  next : ι → Option ι
  prev : ι → Option ι

namespace Links

variable {ι : Type}

/-- Neighbours that point to each other. -/
def Joined (s : Links ι) (a b : ι) : Prop := s.next a = some b ∧ s.prev b = some a

/-- The nodes of a list one behind the other. -/
def Linked (s : Links ι) (nodes : List ι) : Prop := nodes.IsChain s.Joined

section Pointers

variable [DecidableEq ι]

def setNext (s : Links ι) (a : ι) (b : Option ι) : Links ι :=
  { s with next := Function.update s.next a b }

def setPrev (s : Links ι) (a : ι) (b : Option ι) : Links ι :=
  { s with prev := Function.update s.prev a b }

@[simp] theorem next_setNext (s : Links ι) (a : ι) (b : Option ι) : (s.setNext a b).next a = b :=
  Function.update_self _ _ _

@[simp] theorem prev_setPrev (s : Links ι) (a : ι) (b : Option ι) : (s.setPrev a b).prev a = b :=
  Function.update_self _ _ _

@[simp] theorem prev_setNext (s : Links ι) (a : ι) (b : Option ι) : (s.setNext a b).prev = s.prev :=
  rfl

@[simp] theorem next_setPrev (s : Links ι) (a : ι) (b : Option ι) : (s.setPrev a b).next = s.next :=
  rfl

theorem next_setNext_ne (s : Links ι) {a c : ι} (b : Option ι) (other : c ≠ a) :
    (s.setNext a b).next c = s.next c :=
  Function.update_of_ne other _ _

theorem prev_setPrev_ne (s : Links ι) {a c : ι} (b : Option ι) (other : c ≠ a) :
    (s.setPrev a b).prev c = s.prev c :=
  Function.update_of_ne other _ _

end Pointers

variable {s s' : Links ι} {a b x : ι} {front back nodes : List ι}

namespace Linked

/-- A list whose pointers a change leaves alone. -/
theorem same (linked : s.Linked nodes) (next : ∀ c ∈ nodes.dropLast, s'.next c = s.next c)
    (prev : ∀ c ∈ nodes.tail, s'.prev c = s.prev c) : s'.Linked nodes := by
  induction nodes with
  | nil => exact List.IsChain.nil
  | cons c rest ih =>
      cases rest with
      | nil => exact List.IsChain.singleton c
      | cons d rest =>
          obtain ⟨⟨forth, back⟩, tail⟩ := List.isChain_cons_cons.mp linked
          refine List.isChain_cons_cons.mpr ⟨⟨?_, ?_⟩, ih tail ?_ ?_⟩
          · exact (next c (by simp)).trans forth
          · exact (prev d (by simp)).trans back
          · intro e inside
            exact next e (by simp [inside])
          · intro e inside
            exact prev e (by simp only [List.tail_cons] at inside ⊢; exact List.mem_cons_of_mem _ inside)

theorem joined (linked : s.Linked (front ++ a :: b :: back)) : s.Joined a b :=
  (List.isChain_append_cons_cons.mp linked).2.1

end Linked

/-- `x` has come in between `a` and `b`. -/
structure Inserts (s s' : Links ι) (a x b : ι) : Prop where
  left : s'.Joined a x
  right : s'.Joined x b
  next : ∀ c, c ≠ a → c ≠ x → s'.next c = s.next c
  prev : ∀ c, c ≠ b → c ≠ x → s'.prev c = s.prev c

theorem Inserts.linked (inserts : Inserts s s' a x b) (linked : s.Linked (front ++ a :: b :: back))
    (once : (front ++ a :: b :: back).Nodup) (new : x ∉ front ++ a :: b :: back) :
    s'.Linked (front ++ a :: x :: b :: back) := by
  obtain ⟨first, -, second⟩ := List.isChain_append_cons_cons.mp linked
  have apart := List.nodup_append.mp once
  have apart' := List.nodup_cons.mp apart.2.1
  have apart'' := List.nodup_cons.mp apart'.2
  simp only [List.mem_append, List.mem_cons, not_or] at new
  refine List.isChain_append_cons_cons.mpr ⟨?_, inserts.left,
    List.isChain_cons_cons.mpr ⟨inserts.right, ?_⟩⟩
  · refine Linked.same first ?_ ?_
    · intro c inside
      rw [List.dropLast_concat] at inside
      refine inserts.next c (apart.2.2 c inside a (by simp)) ?_
      rintro rfl
      exact new.1 inside
    · intro c inside
      have member := List.mem_of_mem_tail inside
      refine inserts.prev c ?_ ?_
      · rintro rfl
        rcases List.mem_append.mp member with before | same
        · exact apart.2.2 c before c (by simp) rfl
        · exact apart'.1 (by simp [List.mem_singleton.mp same])
      · rintro rfl
        rcases List.mem_append.mp member with before | same
        · exact new.1 before
        · exact new.2.1 (List.mem_singleton.mp same)
  · refine Linked.same second ?_ ?_
    · intro c inside
      have member := (List.dropLast_sublist _).subset inside
      refine inserts.next c ?_ ?_
      · rintro rfl
        exact apart'.1 member
      · rintro rfl
        rcases List.mem_cons.mp member with same | behind
        · exact new.2.2.1 same
        · exact new.2.2.2 behind
    · intro c inside
      rw [List.tail_cons] at inside
      refine inserts.prev c ?_ ?_
      · rintro rfl
        exact apart''.1 inside
      · rintro rfl
        exact new.2.2.2 inside

/-- `x` has been taken out between `a` and `b`. -/
structure Unlinks (s s' : Links ι) (a x b : ι) : Prop where
  joined : s'.Joined a b
  next : ∀ c, c ≠ a → c ≠ x → s'.next c = s.next c
  prev : ∀ c, c ≠ b → c ≠ x → s'.prev c = s.prev c

theorem Unlinks.linked (unlinks : Unlinks s s' a x b)
    (linked : s.Linked (front ++ a :: x :: b :: back))
    (once : (front ++ a :: x :: b :: back).Nodup) : s'.Linked (front ++ a :: b :: back) := by
  obtain ⟨first, -, second⟩ := List.isChain_append_cons_cons.mp linked
  obtain ⟨-, third⟩ := List.isChain_cons_cons.mp second
  have apart := List.nodup_append.mp once
  have apart' := List.nodup_cons.mp apart.2.1
  have apart'' := List.nodup_cons.mp apart'.2
  have apart''' := List.nodup_cons.mp apart''.2
  refine List.isChain_append_cons_cons.mpr ⟨?_, unlinks.joined, ?_⟩
  · refine Linked.same first ?_ ?_
    · intro c inside
      rw [List.dropLast_concat] at inside
      exact unlinks.next c (apart.2.2 c inside a (by simp)) (apart.2.2 c inside x (by simp))
    · intro c inside
      have member := List.mem_of_mem_tail inside
      have other : ∀ y ∈ x :: b :: back, c ≠ y := by
        rintro y behind rfl
        rcases List.mem_append.mp member with before | same
        · exact apart.2.2 c before c (List.mem_cons_of_mem _ behind) rfl
        · exact apart'.1 (List.mem_singleton.mp same ▸ behind)
      exact unlinks.prev c (other b (by simp)) (other x (by simp))
  · refine Linked.same third ?_ ?_
    · intro c inside
      have member := (List.dropLast_sublist _).subset inside
      refine unlinks.next c ?_ ?_
      · rintro rfl
        exact apart'.1 (List.mem_cons_of_mem _ member)
      · rintro rfl
        exact apart''.1 member
    · intro c inside
      rw [List.tail_cons] at inside
      refine unlinks.prev c ?_ ?_
      · rintro rfl
        exact apart'''.1 inside
      · rintro rfl
        exact apart''.1 (List.mem_cons_of_mem _ inside)

end Links

end DvsServer.Lib
