import DvsServer.Core.SessionRun

/-!
# Orphaned sessions

Every live session should be recorded by an active client, so that deleting the
client frees it.  `del_client` resets the IDs of slot `chs / CHS_PER_SESSION`
instead of those of the slot it was given, and an active client in that slot
loses the record of its sessions.  No other call makes orphans.
-/

namespace DvsServer.Core.Session

open DvsServer.Lib DvsServer.Com.RtpSend

/-- Every live session is recorded by an active client. -/
def NoOrphans (chs : Int) (s : Server) : Prop :=
  ∀ i, s.rtp.live i ≠ none → ∃ c, s.Active c ∧ s.Recorded chs c i

instance (chs : Int) (s : Server) : Decidable (NoOrphans chs s) :=
  inferInstanceAs (Decidable (∀ i, s.rtp.live i ≠ none → ∃ c, s.Active c ∧ s.Recorded chs c i))

/-- Registrations succeed. -/
def AddsSucceed (_ : Server) : Event → Prop
  | (.addClient _ _ _, outcome) => 0 ≤ outcome.ret
  | _ => True

instance (s : Server) : (event : Event) → Decidable (AddsSucceed s event)
  | (.addClient _ _ _, outcome) => inferInstanceAs (Decidable (0 ≤ outcome.ret))
  | (.delClient _, _) => .isTrue trivial
  | (.openChannel _ _, _) => .isTrue trivial
  | (.closeChannel _ _, _) => .isTrue trivial
  | (.sendToClient _, _) => .isTrue trivial

/-- Resetting the IDs of slot `wiped` loses no live session. -/
def Spared (chs : Int) (s : Server) (wiped : Fin maxClientNum) : Prop :=
  ∀ i, s.rtp.live i ≠ none → s.Recorded chs wiped i →
    ∃ d, d ≠ wiped ∧ s.Active d ∧ s.Recorded chs d i

/-- A deletion of another active client finds slot `chs / CHS_PER_SESSION` free or
without a live session of its own. -/
def SparesSlot (chs : Int) (s : Server) : Event → Prop
  | (.delClient clientId, _) => ∀ c : Fin maxClientNum, clientId = c → s.Active c →
      ∀ wiped : Fin maxClientNum, wiped.val = groups chs → wiped ≠ c → s.Active wiped →
        Spared chs s wiped
  | _ => True

instance (chs : Int) (s : Server) : (event : Event) → Decidable (SparesSlot chs s event)
  | (.delClient clientId, _) =>
      inferInstanceAs (Decidable (∀ c : Fin maxClientNum, clientId = c → s.Active c →
        ∀ wiped : Fin maxClientNum, wiped.val = groups chs → wiped ≠ c → s.Active wiped →
          ∀ i, s.rtp.live i ≠ none → s.Recorded chs wiped i →
            ∃ d, d ≠ wiped ∧ s.Active d ∧ s.Recorded chs d i))
  | (.addClient _ _ _, _) => .isTrue trivial
  | (.openChannel _ _, _) => .isTrue trivial
  | (.closeChannel _ _, _) => .isTrue trivial
  | (.sendToClient _, _) => .isTrue trivial

/-- A successful registration records all it creates, in a slot that was free. -/
theorem NoOrphans.added {chs : Int} {base : Medium → Int} {id : Fin maxClientNum}
    {s after : Server} {created : List RtpSession} (recorded : NoOrphans chs s)
    (free : ¬ s.Active id) (effect : AddEffect chs base id s after created)
    (done : AddDone chs base id s after created) : NoOrphans chs after := by
  intro i held
  have activeId : after.Active id := by
    rw [Server.Active, done.clientID]
    omega
  cases before : s.rtp.live i with
  | none =>
      obtain ⟨m, g, below, at_i⟩ := done.covered i before held
      exact ⟨id, activeId, m, g, Nat.zero_le _, Nat.lt_of_lt_of_le below (span_le chs _), at_i⟩
  | some session =>
      obtain ⟨c, active, at_c⟩ := recorded i (by rw [before]; simp)
      have other : c ≠ id := fun same => free (same ▸ active)
      refine ⟨c, ?_, ?_⟩
      · rw [Server.Active, effect.others c other]
        exact active
      · rw [Server.Recorded, effect.others c other]
        exact at_c

/-- Deleting `c` while `wiped` loses its IDs: exactly the sessions that only
`wiped` records become orphans. -/
theorem DelEffect.noOrphans_iff {chs : Int} {c wiped : Fin maxClientNum} {s after : Server}
    (recorded : NoOrphans chs s) (active : s.Active c) (effect : DelEffect chs c wiped s after) :
    NoOrphans chs after ↔ (wiped ≠ c → s.Active wiped → Spared chs s wiped) := by
  have kept : ∀ d, d ≠ wiped → ∀ i, after.Recorded chs d i ↔ s.Recorded chs d i := fun d other i => by
    rw [Server.Recorded, effect.ids_kept d other]
    exact Iff.rfl
  constructor
  · intro clean differs _ i held atWiped
    by_cases byC : s.Recorded chs c i
    · exact ⟨c, differs.symm, active, byC⟩
    · have still : after.rtp.live i ≠ none := by
        rw [SessionMgr.live, effect.entry_kept i byC]
        exact held
      obtain ⟨d, activeD, atD⟩ := clean i still
      have other : d ≠ wiped := by
        intro same
        subst same
        obtain ⟨m, g, _, _, at_i⟩ := atD
        have unset : (after.clients d).sessionPair.ids m g = -1 := effect.ids_wiped m g
        omega
      exact ⟨d, other, ((effect.active_iff d).mp activeD).2, (kept d other i).mp atD⟩
  · intro spared i still
    obtain ⟨session, held⟩ := Option.ne_none_iff_exists'.mp still
    obtain ⟨before, notByC⟩ := effect.live_kept held
    obtain ⟨d, activeD, atD⟩ := recorded i (by rw [before]; simp)
    have notC : ∀ e, s.Recorded chs e i → e ≠ c := fun e atE same => notByC (same ▸ atE)
    by_cases same : d = wiped
    · subst same
      obtain ⟨e, other, activeE, atE⟩ := spared (notC d atD) activeD i (by rw [before]; simp) atD
      exact ⟨e, (effect.active_iff e).mpr ⟨notC e atE, activeE⟩, (kept e other i).mpr atE⟩
    · exact ⟨d, (effect.active_iff d).mpr ⟨notC d atD, activeD⟩, (kept d same i).mpr atD⟩

/-- One call that spares the slot makes no orphan. -/
theorem NoOrphans.step {chs : Int} {s after : Server} {event : Event}
    (recorded : NoOrphans chs s) (succeeds : AddsSucceed s event) (spares : SparesSlot chs s event)
    (effect : Effect chs s event after) : NoOrphans chs after := by
  have quiet : ∀ {next : Server}, (∀ i, next.rtp.live i = s.rtp.live i) →
      (∀ c, next.Active c ↔ s.Active c) → (∀ c, next.ids c = s.ids c) → NoOrphans chs next := by
    intro next live active ids i held
    rw [live] at held
    obtain ⟨c, activeC, m, g, lower, upper, at_i⟩ := recorded i held
    refine ⟨c, (active c).mpr activeC, m, g, lower, upper, ?_⟩
    change next.ids c m g = i
    rw [ids c]
    exact at_i
  cases effect with
  | add destIp baseVideoPort baseAudioPort adds =>
      cases adds with
      | noSlot busy => exact recorded
      | @failed ret created after id free code clientID effect =>
          have nonneg : 0 ≤ ret := succeeds
          omega
      | added id free first effect done => exact recorded.added free effect done
  | del c deletes =>
      cases deletes with
      | inactive free => exact recorded
      | deleted wiped active effect =>
          exact (effect.noOrphans_iff recorded active).mpr
            (spares c rfl active wiped effect.wiped_eq)
  | setFlags value c chId active =>
      exact quiet (fun _ => rfl) (fun d => withFlags_active s c d _) fun d => withFlags_ids s c d _
  | ignored value c chId inactive => exact recorded
  | send e done =>
      obtain ⟨clients_eq, live_eq, _, _⟩ := sendLoop_cases done
      refine quiet live_eq (fun c => ?_) fun c => ?_
      · rw [Server.Active, clients_eq]
        exact Iff.rfl
      · rw [Server.ids, clients_eq]
        rfl

/-- Sessions are never orphaned: as long as registrations succeed and deletions
spare the slot whose IDs they reset, every live session is recorded by an active
client, and the table is free when no client is active. -/
theorem no_orphans_of_spared_slot {chs : Int} {start s : Server} {history : List Event}
    (booted : Booted chs start)
    (run : Run (Guarded (fun s event => AddsSucceed s event ∧ SparesSlot chs s event) (Step chs))
      start history s) :
    NoOrphans chs s ∧ ((∀ c, ¬ s.Active c) → ∀ i, s.rtp.live i = none) := by
  have recorded : NoOrphans chs s :=
    run.invariant (fun _ s => NoOrphans chs s)
      (fun i held => absurd (booted.free i) held)
      fun _ recorded step => recorded.step step.1.1 step.1.2 step.2.effect
  refine ⟨recorded, fun none_ i => ?_⟩
  by_contra held
  obtain ⟨c, active, _⟩ := recorded i held
  exact none_ c active

/-- The client in slot 1 leaves before the one in slot 0. -/
theorem no_orphans_of_spared_slot_reversed :
    ∃ result, traceChecked (fun s event => AddsSucceed s event ∧ SparesSlot 4 s event) 4
      [.addClient "10.0.0.1" 5000 7000, .addClient "10.0.0.2" 6000 8000, .delClient 1,
        .delClient 0] = some result ∧
      NoOrphans 4 result.2 ∧
        ((∀ c, ¬ result.2.Active c) → ∀ i, result.2.rtp.live i = none) := by
  obtain ⟨result, traced⟩ := Option.isSome_iff_exists.mp
    (show (traceChecked (fun s event => AddsSucceed s event ∧ SparesSlot 4 s event) 4
      [.addClient "10.0.0.1" 5000 7000, .addClient "10.0.0.2" 6000 8000, .delClient 1,
        .delClient 0]).isSome = true by decide)
  obtain ⟨start, booted, run⟩ := traceChecked_run traced
  exact ⟨result, traced, no_orphans_of_spared_slot booted run⟩

/-- With four channels the deletion of client 0 resets the IDs of client 1, and
after the deletion of client 1 its sessions stay in the table. -/
theorem no_orphans_fails : ¬ ∀ (chs : Int) (start s : Server) (history : List Event),
    0 < chs → chs ≤ maxVideoChannel → chs % chsPerSession = 0 → Booted chs start →
      Run (Guarded AddsSucceed (Step chs)) start history s →
        NoOrphans chs s ∧ ((∀ c, ¬ s.Active c) → ∀ i, s.rtp.live i = none) := by
  intro claim
  have orphaned : ((traceChecked AddsSucceed 4 [.addClient "10.0.0.1" 5000 7000,
      .addClient "10.0.0.2" 6000 8000, .delClient 0, .delClient 1]).any
        fun (_, s) => !decide (NoOrphans 4 s)) = true := by
    decide
  obtain ⟨⟨history, s⟩, traced, orphan⟩ := (Option.any_eq_true _ _).mp orphaned
  obtain ⟨start, booted, run⟩ := traceChecked_run traced
  have clean := (claim 4 start s history (by decide) (by decide) (by decide) booted run).1
  have found : (!decide (NoOrphans 4 s)) = true := orphan
  rw [decide_eq_true clean] at found
  cases found

end DvsServer.Core.Session
