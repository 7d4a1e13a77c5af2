import DvsServer.Lib.SlotTable
import Mathlib.Data.List.Nodup
import Mathlib.Data.Fintype.Card

/-!
# The scheduler's list of sessions (`utils/ortp/src/scheduler.c`)

`rtp_scheduler_add_session` and `rtp_scheduler_remove_session` run under the
lock of the scheduler.  A session object is named by its handle.  The masks of
sessions with events, which only `session_set_select` reads, are left out.
-/

namespace DvsServer.Ortp.Scheduler

open DvsServer.Lib

/-- The number of bits of a `SessionSet`. -/
abbrev maxSessions : Nat := 1024

/-- What the scheduler keeps in a session object. -/
structure Scheduled where
  maskPos : Fin maxSessions
  /-- The flag `RTP_SESSION_IN_SCHEDULER`. -/
  inScheduler : Bool

structure RtpScheduler where
  list : List Nat
  allSessions : Fin maxSessions → Bool
  allMax : Nat
  sessions : Nat → Scheduled

/-- `rtp_scheduler_init`; the objects are whatever they are. -/
def rtpSchedulerInit (sessions : Nat → Scheduled) : RtpScheduler := ⟨[], fun _ => false, 0, sessions⟩

/-- The `memset` of `rtp_session_init`. -/
def RtpScheduler.clearSession (sched : RtpScheduler) (session : Nat) : RtpScheduler :=
  { sched with sessions := Function.update sched.sessions session ⟨0, false⟩ }

def rtpSchedulerAddSession (sched : RtpScheduler) (session : Nat) : RtpScheduler :=
  if (sched.sessions session).inScheduler then sched
  else
    let sched := { sched with list := session :: sched.list }
    match firstFree (fun used => !used) sched.allSessions with
    | some i =>
        { sched with
          sessions := Function.update sched.sessions session ⟨i, true⟩
          allSessions := Function.update sched.allSessions i true
          allMax := if sched.allMax < i then i else sched.allMax }
    -- no position is free: the session keeps the one it has
    | none =>
        { sched with
          sessions := Function.update sched.sessions session
            ⟨(sched.sessions session).maskPos, true⟩ }

/-- The loop that takes a session out of the list. -/
def unlink (session : Nat) : List Nat → List Nat
  | [] => []
  | tmp :: rest => if tmp = session then rest else tmp :: unlink session rest

def rtpSchedulerRemoveSession (sched : RtpScheduler) (session : Nat) : RtpScheduler :=
  if (sched.sessions session).inScheduler then
    { sched with
      list := unlink session sched.list
      sessions := Function.update sched.sessions session
        ⟨(sched.sessions session).maskPos, false⟩
      allSessions := Function.update sched.allSessions (sched.sessions session).maskPos false }
  else sched

theorem unlink_eq_erase (session : Nat) (l : List Nat) : unlink session l = l.erase session := by
  induction l with
  | nil => rfl
  | cons tmp rest ih =>
      rw [unlink, List.erase_cons, ih]
      simp only [beq_iff_eq]

/-- A session that was set up anew is put in front of the list. -/
theorem list_add (sched : RtpScheduler) (session : Nat) :
    (rtpSchedulerAddSession (sched.clearSession session) session).list = session :: sched.list := by
  have unflagged : ¬ ((sched.clearSession session).sessions session).inScheduler = true := by
    simp [RtpScheduler.clearSession]
  rw [rtpSchedulerAddSession, if_neg unflagged]
  dsimp only
  split <;> rfl

/-- A removal adds no session. -/
theorem mem_of_mem_remove {sched : RtpScheduler} {session other : Nat}
    (listed : other ∈ (rtpSchedulerRemoveSession sched session).list) : other ∈ sched.list := by
  unfold rtpSchedulerRemoveSession at listed
  split at listed
  · dsimp only at listed
    rw [unlink_eq_erase] at listed
    exact List.mem_of_mem_erase listed
  · exact listed

/-! ## What stays true -/

/-- The listed sessions own one position of the mask each. -/
structure Sound (sched : RtpScheduler) : Prop where
  nodup : sched.list.Nodup
  flagged : ∀ session, (sched.sessions session).inScheduler = true ↔ session ∈ sched.list
  marked : ∀ session ∈ sched.list, sched.allSessions (sched.sessions session).maskPos = true
  owned : ∀ i, sched.allSessions i = true →
    ∃ session ∈ sched.list, (sched.sessions session).maskPos = i
  apart : ∀ session ∈ sched.list, ∀ other ∈ sched.list,
    (sched.sessions session).maskPos = (sched.sessions other).maskPos → session = other
  bounded : ∀ i, sched.allSessions i = true → i ≤ sched.allMax

theorem sound_init {sessions : Nat → Scheduled}
    (fresh : ∀ session, (sessions session).inScheduler = false) :
    Sound (rtpSchedulerInit sessions) := by
  constructor
  · exact .nil
  · intro session
    simp [rtpSchedulerInit, fresh session]
  · intro session listed
    cases listed
  · intro i set
    cases set
  · intro session listed
    cases listed
  · intro i set
    cases set

namespace Sound

variable {sched : RtpScheduler}

/-- A full mask means that as many sessions are listed. -/
theorem position (sound : Sound sched) (room : sched.list.length < maxSessions) :
    ∃ i, firstFree (fun used => !used) sched.allSessions = some i := by
  cases found : firstFree (fun used => !used) sched.allSessions with
  | some i => exact ⟨i, rfl⟩
  | none =>
      have full : ∀ i, i ∈ sched.list.map fun session => (sched.sessions session).maskPos := by
        intro i
        have used := firstFree_eq_none.mp found i
        obtain ⟨session, listed, place⟩ := sound.owned i (by simpa using used)
        exact List.mem_map.mpr ⟨session, listed, place⟩
      have covers : (Finset.univ : Finset (Fin maxSessions)) ⊆
          (sched.list.map fun session => (sched.sessions session).maskPos).toFinset := by
        intro i _
        exact List.mem_toFinset.mpr (full i)
      have many := Finset.card_le_card covers
      have few := List.toFinset_card_le (sched.list.map fun session =>
        (sched.sessions session).maskPos)
      rw [Finset.card_univ, Fintype.card_fin] at many
      rw [List.length_map] at few
      omega

/-- An object that is set up again must not be in the list. -/
theorem clearSession (sound : Sound sched) {session : Nat} (free : session ∉ sched.list) :
    Sound (sched.clearSession session) := by
  have kept : ∀ other ∈ sched.list,
      (sched.clearSession session).sessions other = sched.sessions other := by
    intro other listed
    apply Function.update_of_ne
    intro same
    exact free (same ▸ listed)
  constructor
  · exact sound.nodup
  · intro other
    by_cases same : other = session
    · rw [same]
      change (Function.update sched.sessions session _ session).inScheduler = true ↔ _
      rw [Function.update_self]
      exact ⟨fun set => absurd set Bool.false_ne_true, fun listed => absurd listed free⟩
    · change (Function.update sched.sessions session _ other).inScheduler = true ↔ _
      rw [Function.update_of_ne same]
      exact sound.flagged other
  · intro other listed
    rw [kept other listed]
    exact sound.marked other listed
  · intro i set
    obtain ⟨other, listed, place⟩ := sound.owned i set
    refine ⟨other, listed, ?_⟩
    rw [kept other listed]
    exact place
  · intro one first two second same
    rw [kept one first, kept two second] at same
    exact sound.apart one first two second same
  · exact sound.bounded

/-- A session that is added gets a position of its own. -/
theorem add (sound : Sound sched) {session : Nat} (free : session ∉ sched.list)
    (room : sched.list.length < maxSessions) :
    Sound (rtpSchedulerAddSession sched session) ∧
      (rtpSchedulerAddSession sched session).list = session :: sched.list := by
  have unflagged : ¬ (sched.sessions session).inScheduler = true := by
    intro flagged
    exact free ((sound.flagged session).mp flagged)
  obtain ⟨i, found⟩ := sound.position room
  have unset : sched.allSessions i = false := by
    have isFree := (firstFree_eq_some.mp found).1
    simpa using isFree
  have added : rtpSchedulerAddSession sched session =
      { sched with
        list := session :: sched.list
        sessions := Function.update sched.sessions session ⟨i, true⟩
        allSessions := Function.update sched.allSessions i true
        allMax := if sched.allMax < i then i else sched.allMax } := by
    rw [rtpSchedulerAddSession, if_neg unflagged]
    simp only [found]
  have kept : ∀ other ∈ sched.list,
      Function.update sched.sessions session ⟨i, true⟩ other = sched.sessions other := by
    intro other listed
    apply Function.update_of_ne
    intro same
    exact free (same ▸ listed)
  have elsewhere : ∀ other ∈ sched.list, (sched.sessions other).maskPos ≠ i := by
    intro other listed same
    have set := sound.marked other listed
    rw [same, unset] at set
    cases set
  rw [added]
  refine ⟨⟨?_, ?_, ?_, ?_, ?_, ?_⟩, rfl⟩
  · exact List.nodup_cons.mpr ⟨free, sound.nodup⟩
  · intro other
    dsimp only
    by_cases same : other = session
    · simp [same]
    · rw [Function.update_of_ne same, sound.flagged other]
      simp [same]
  · intro other listed
    dsimp only
    rcases List.mem_cons.mp listed with rfl | older
    · simp
    · rw [kept other older, Function.update_of_ne (elsewhere other older)]
      exact sound.marked other older
  · intro j set
    dsimp only at set ⊢
    by_cases same : j = i
    · exact ⟨session, List.mem_cons_self, by simp [same]⟩
    · rw [Function.update_of_ne same] at set
      obtain ⟨other, listed, place⟩ := sound.owned j set
      refine ⟨other, List.mem_cons_of_mem _ listed, ?_⟩
      rw [kept other listed]
      exact place
  · intro one first two second same
    dsimp only at same
    rcases List.mem_cons.mp first with rfl | olderOne
    · rcases List.mem_cons.mp second with rfl | olderTwo
      · rfl
      · rw [Function.update_self, kept two olderTwo] at same
        exact absurd same.symm (elsewhere two olderTwo)
    · rcases List.mem_cons.mp second with rfl | olderTwo
      · rw [Function.update_self, kept one olderOne] at same
        exact absurd same (elsewhere one olderOne)
      · rw [kept one olderOne, kept two olderTwo] at same
        exact sound.apart one olderOne two olderTwo same
  · intro j set
    dsimp only at set ⊢
    by_cases same : j = i
    · rw [same]
      split
      · exact Nat.le_refl _
      · omega
    · rw [Function.update_of_ne same] at set
      have below := sound.bounded j set
      split
      · omega
      · exact below

/-- A session that is removed leaves its position behind, and no other. -/
theorem remove (sound : Sound sched) {session : Nat} (listed : session ∈ sched.list) :
    Sound (rtpSchedulerRemoveSession sched session) ∧
      (rtpSchedulerRemoveSession sched session).list = sched.list.erase session := by
  have flagged := (sound.flagged session).mpr listed
  have removed : rtpSchedulerRemoveSession sched session =
      { sched with
        list := sched.list.erase session
        sessions := Function.update sched.sessions session
          ⟨(sched.sessions session).maskPos, false⟩
        allSessions := Function.update sched.allSessions (sched.sessions session).maskPos false } := by
    rw [rtpSchedulerRemoveSession, if_pos flagged, unlink_eq_erase]
  have remaining : ∀ other, other ∈ sched.list.erase session ↔
      other ≠ session ∧ other ∈ sched.list := fun other => sound.nodup.mem_erase_iff
  rw [removed]
  refine ⟨⟨?_, ?_, ?_, ?_, ?_, ?_⟩, rfl⟩
  · exact sound.nodup.erase session
  · intro other
    dsimp only
    rw [remaining]
    by_cases same : other = session
    · simp [same]
    · rw [Function.update_of_ne same, sound.flagged other]
      simp [same]
  · intro other inside
    dsimp only
    obtain ⟨differs, older⟩ := (remaining other).mp inside
    have elsewhere : (sched.sessions other).maskPos ≠ (sched.sessions session).maskPos := by
      intro same
      exact differs (sound.apart other older session listed same)
    rw [Function.update_of_ne differs, Function.update_of_ne elsewhere]
    exact sound.marked other older
  · intro j set
    dsimp only at set ⊢
    by_cases same : j = (sched.sessions session).maskPos
    · rw [same, Function.update_self] at set
      cases set
    · rw [Function.update_of_ne same] at set
      obtain ⟨other, older, place⟩ := sound.owned j set
      have differs : other ≠ session := by
        intro equal
        rw [equal] at place
        exact same place.symm
      refine ⟨other, (remaining other).mpr ⟨differs, older⟩, ?_⟩
      rw [Function.update_of_ne differs]
      exact place
  · intro one first two second same
    dsimp only at same
    obtain ⟨differsOne, olderOne⟩ := (remaining one).mp first
    obtain ⟨differsTwo, olderTwo⟩ := (remaining two).mp second
    rw [Function.update_of_ne differsOne, Function.update_of_ne differsTwo] at same
    exact sound.apart one olderOne two olderTwo same
  · intro j set
    dsimp only at set ⊢
    apply sound.bounded j
    by_cases same : j = (sched.sessions session).maskPos
    · rw [same, Function.update_self] at set
      cases set
    · rw [Function.update_of_ne same] at set
      exact set

end Sound

end DvsServer.Ortp.Scheduler
