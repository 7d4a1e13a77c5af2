import Mathlib.Logic.Function.Basic
import Mathlib.Data.Finset.Card
import Mathlib.Data.Finset.Dedup
import DvsServer.Lib.RingBuffer

/-!
# Queues of things that have a place

A thing that goes round between queues and holders is in one place at a time.
A queue tracks a place when it holds the things that are there, once each; its
length is then bounded by the number of things there are.
-/

namespace DvsServer.Lib

/-- The list holds the things whose place is `here`, once each. -/
structure Tracks {ι π : Type} (contents : List ι) (place : ι → π) (here : π) : Prop where
  once : contents.Nodup
  mem_iff : ∀ thing, thing ∈ contents ↔ place thing = here

namespace Tracks

variable {ι π : Type} [DecidableEq ι] {contents : List ι} {place : ι → π} {here next : π} {thing : ι}

/-- The first thing leaves. -/
theorem leave (tracks : Tracks (thing :: contents) place here) (away : next ≠ here) :
    Tracks contents (Function.update place thing next) here := by
  have absent : thing ∉ contents := (List.nodup_cons.mp tracks.once).1
  refine ⟨(List.nodup_cons.mp tracks.once).2, ?_⟩
  intro other
  by_cases same : other = thing
  · simp [same, absent, away]
  · rw [Function.update_of_ne same, ← tracks.mem_iff]
    simp [same]

/-- A thing enters at the end. -/
theorem enter (tracks : Tracks contents place here) (outside : place thing ≠ here) :
    Tracks (contents ++ [thing]) (Function.update place thing here) here := by
  have absent : thing ∉ contents := fun inside => outside ((tracks.mem_iff thing).mp inside)
  constructor
  · rw [List.nodup_append]
    refine ⟨tracks.once, List.nodup_singleton thing, ?_⟩
    rintro other inside _ (_ | ⟨_, ⟨⟩⟩) rfl
    exact absent inside
  · intro other
    by_cases same : other = thing
    · simp [same]
    · rw [Function.update_of_ne same, ← tracks.mem_iff]
      simp [same]

/-- A thing moves elsewhere. -/
theorem frame (tracks : Tracks contents place here) (outside : place thing ≠ here)
    (away : next ≠ here) : Tracks contents (Function.update place thing next) here := by
  refine ⟨tracks.once, ?_⟩
  intro other
  rw [tracks.mem_iff]
  by_cases same : other = thing
  · simp [same, outside, away]
  · rw [Function.update_of_ne same]

/-- The queue is no longer than the set of things that may be in it. -/
theorem length_le (tracks : Tracks contents place here) (pool : Finset ι)
    (inside : ∀ thing, place thing = here → thing ∈ pool) : contents.length ≤ pool.card := by
  rw [← List.toFinset_card_of_nodup tracks.once]
  apply Finset.card_le_card
  intro thing member
  exact inside thing ((tracks.mem_iff thing).mp (List.mem_toFinset.mp member))

/-- While a thing is elsewhere the queue has room for it. -/
theorem length_lt (tracks : Tracks contents place here) (pool : Finset ι)
    (inside : ∀ thing, place thing = here → thing ∈ pool) (own : thing ∈ pool)
    (outside : place thing ≠ here) : contents.length < pool.card := by
  apply (tracks.length_le (pool.erase thing) ?_).trans_lt (Finset.card_erase_lt_of_mem own)
  intro other there
  apply Finset.mem_erase.mpr
  refine ⟨?_, inside other there⟩
  intro same
  rw [same] at there
  exact outside there

end Tracks

/-- A family of ring buffers of one size, each of which tracks a place of its own. -/
structure Queues {κ ι π : Type} (len : Nat) (queues : κ → RingBuffer ι) (place : ι → π)
    (of : κ → π) : Prop where
  wellFormed : ∀ key, (queues key).WellFormed
  len_eq : ∀ key, (queues key).len = len
  tracks : ∀ key, Tracks (queues key).contents place (of key)

namespace Queues

variable {κ ι π : Type} [DecidableEq κ] [DecidableEq ι] {len : Nat} {queues : κ → RingBuffer ι}
  {place : ι → π} {of : κ → π} {next : π} {thing : ι} {key : κ}

omit [DecidableEq κ] [DecidableEq ι] in
theorem front_place (all : Queues len queues place of) (some_ : 0 < (queues key).count) :
    place (queues key).front = of key := by
  apply ((all.tracks key).mem_iff _).mp
  rw [RingBuffer.contents_eq_cons (all.wellFormed key) some_]
  exact List.mem_cons_self

/-- The first thing of one queue leaves for a place that is no queue. -/
theorem drop (all : Queues len queues place of) (some_ : 0 < (queues key).count)
    (apart : ∀ other, of other = of key → other = key) (away : ∀ other, next ≠ of other) :
    Queues len (Function.update queues key (queues key).drop)
      (Function.update place (queues key).front next) of := by
  have tracks := all.tracks key
  rw [RingBuffer.contents_eq_cons (all.wellFormed key) some_] at tracks
  constructor
  · intro other
    by_cases same : other = key
    · rw [same, Function.update_self]
      exact (all.wellFormed key).drop some_
    · rw [Function.update_of_ne same]
      exact all.wellFormed other
  · intro other
    by_cases same : other = key
    · rw [same, Function.update_self]
      exact all.len_eq key
    · rw [Function.update_of_ne same]
      exact all.len_eq other
  · intro other
    by_cases same : other = key
    · rw [same, Function.update_self]
      exact tracks.leave (away key)
    · rw [Function.update_of_ne same]
      apply (all.tracks other).frame _ (away other)
      rw [all.front_place some_]
      exact fun elsewhere => same (apart other elsewhere.symm)

/-- A thing that was in no queue enters one. -/
theorem put (all : Queues len queues place of) (room : (queues key).count < (queues key).len)
    (apart : ∀ other, of other = of key → other = key) (outside : ∀ other, place thing ≠ of other) :
    Queues len (Function.update queues key ((queues key).put thing))
      (Function.update place thing (of key)) of := by
  constructor
  · intro other
    by_cases same : other = key
    · rw [same, Function.update_self]
      exact (all.wellFormed key).put room thing
    · rw [Function.update_of_ne same]
      exact all.wellFormed other
  · intro other
    by_cases same : other = key
    · rw [same, Function.update_self]
      exact all.len_eq key
    · rw [Function.update_of_ne same]
      exact all.len_eq other
  · intro other
    by_cases same : other = key
    · rw [same, Function.update_self, RingBuffer.contents_put (all.wellFormed key) room]
      exact (all.tracks key).enter (outside key)
    · rw [Function.update_of_ne same]
      apply (all.tracks other).frame (outside other)
      exact fun elsewhere => same (apart other elsewhere.symm)

omit [DecidableEq κ] in
/-- A thing moves between places that are no queues. -/
theorem frame (all : Queues len queues place of) (outside : ∀ other, place thing ≠ of other)
    (away : ∀ other, next ≠ of other) : Queues len queues (Function.update place thing next) of :=
  ⟨all.wellFormed, all.len_eq, fun other => (all.tracks other).frame (outside other) (away other)⟩

end Queues

end DvsServer.Lib
