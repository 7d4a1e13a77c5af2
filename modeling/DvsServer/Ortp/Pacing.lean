import DvsServer.Lib.Run
import DvsServer.Lib.SerialNumber
import DvsServer.Ortp.Scheduler

/-!
# Sending in time (`utils/ortp/src/rtpsession.c`, `utils/ortp/src/scheduler.c`)

In scheduled and blocking mode `rtp_session_sendm_with_ts` sleeps at the wait
point of its session until the scheduler's clock has reached the time of the
packet.  The scheduler thread, the senders and the calls that add and remove
sessions interleave; one thread at a time sends on a session, and a session that
is added has just been made.  One may be removed while its sender is in a call.
The conversion of the time stamps of a payload type to milliseconds is floating
point arithmetic and a parameter.
-/

namespace DvsServer.Ortp.Pacing

open DvsServer.Lib DvsServer.Ortp.Scheduler

abbrev Time := BitVec 32

def timeIsNewerThan (t1 t2 : Time) : Bool := SerialNumber.newer t1 t2

def timeIsStrictlyNewerThan (t1 t2 : Time) : Bool := timeIsNewerThan t1 t2 && t1 != t2

structure WaitPoint where
  time : Time
  wakeup : Bool

/-- The fields of `RtpSession` and its `RtpStream` that pacing uses. -/
structure Stream where
  sendPt : Nat
  /-- The flag `RTP_SESSION_SEND_NOT_STARTED`. -/
  sendNotStarted : Bool
  sndTsOffset : BitVec 32
  sndTimeOffset : Time
  sendWp : WaitPoint

/-- Where the sender of a session is: outside `rtp_session_sendm_with_ts`, in
front of the wait point, asleep there, or behind it; `woken` if it woke there for
no reason. -/
inductive Place where
  | outside
  | timed (timestamp : BitVec 32) (packetTime : Time)
  | asleep (timestamp : BitVec 32) (packetTime : Time)
  | behind (timestamp : BitVec 32) (woken : Bool)
deriving DecidableEq

/-- Where `rtp_scheduler_schedule` is: in front of the lock, at a session of
its list, or in the timer. -/
inductive SchedulerPlace where
  | waiting
  | processing (current : List Nat)
  | sleeping
deriving DecidableEq

/-- The scheduler thread holds the lock of the scheduler. -/
def SchedulerPlace.locked : SchedulerPlace → Bool
  | .processing _ => true
  | _ => false

structure State where
  sched : RtpScheduler
  scheduler : SchedulerPlace
  time : Time
  streams : Nat → Stream
  place : Nat → Place

/-- `POSIXTIMER_INTERVAL` in milliseconds. -/
def timerInc : Nat := 10

inductive Op where
  | addSession (session sendPt : Nat)
  | removeSession (session : Nat)
  | send (session : Nat) (timestamp : BitVec 32)
  | check (session : Nat)
  | spurious (session : Nat)
  | transmit (session : Nat)
  | lock
  | process
  | unlock
  | tick
deriving DecidableEq

/-- The stream of a session that was set up for a payload type. -/
def newStream (sendPt : Nat) : Stream := ⟨sendPt, true, 0, 0, ⟨0, false⟩⟩

/-- `RTP_SESSION_SEND_NOT_STARTED` at the start of a send. -/
def Stream.start (stream : Stream) (timestamp : BitVec 32) (time : Time) : Stream :=
  if stream.sendNotStarted then
    { stream with sendNotStarted := false, sndTsOffset := timestamp, sndTimeOffset := time }
  else stream

variable (tsToTime : Nat → BitVec 32 → Time)

def Stream.packetTime (stream : Stream) (timestamp : BitVec 32) : Time :=
  tsToTime stream.sendPt (timestamp - stream.sndTsOffset) + stream.sndTimeOffset

def setPlace (s : State) (session : Nat) (place : Place) : State :=
  { s with place := Function.update s.place session place }

def setStream (s : State) (session : Nat) (stream : Stream) : State :=
  { s with streams := Function.update s.streams session stream }

/-- `wait_point_check` and, where it says so, `wait_point_wakeup`. -/
def processSession (s : State) (session : Nat) : State :=
  let stream := s.streams session
  if stream.sendWp.wakeup && timeIsNewerThan s.time stream.sendWp.time then
    let s := setStream s session { stream with sendWp := { stream.sendWp with wakeup := false } }
    match s.place session with
    | .asleep timestamp _ => setPlace s session (.behind timestamp false)
    | _ => s
  else s

/-- One step; the outcome is the time stamp of the packet that goes out. -/
def pacingExec (s : State) : Op → Option (Option (BitVec 32) × State)
  | .addSession session sendPt =>
      if s.scheduler.locked then none
      else if session ∈ s.sched.list ∨ s.place session ≠ .outside then none
      else some (none, setStream
        { s with sched := rtpSchedulerAddSession (s.sched.clearSession session) session }
        session (newStream sendPt))
  | .removeSession session =>
      if s.scheduler.locked then none
      else some (none, { s with sched := rtpSchedulerRemoveSession s.sched session })
  | .send session timestamp =>
      if session ∈ s.sched.list ∧ s.place session = .outside then
        let stream := (s.streams session).start timestamp s.time
        some (none, setPlace (setStream s session stream) session
          (.timed timestamp (stream.packetTime tsToTime timestamp)))
      else none
  -- the comparison, under the lock of the wait point
  | .check session =>
      match s.place session with
      | .timed timestamp packetTime =>
          if timeIsStrictlyNewerThan packetTime s.time then
            some (none, setPlace (setStream s session
              { s.streams session with sendWp := ⟨packetTime, true⟩ }) session
              (.asleep timestamp packetTime))
          else some (none, setPlace s session (.behind timestamp false))
      | _ => none
  | .spurious session =>
      match s.place session with
      | .asleep timestamp _ => some (none, setPlace s session (.behind timestamp true))
      | _ => none
  | .transmit session =>
      match s.place session with
      | .behind timestamp _ => some (some timestamp, setPlace s session .outside)
      | _ => none
  | .lock =>
      match s.scheduler with
      | .waiting => some (none, { s with scheduler := .processing s.sched.list })
      | _ => none
  | .process =>
      match s.scheduler with
      | .processing (current :: next) =>
          some (none, { processSession s current with scheduler := .processing next })
      | _ => none
  | .unlock =>
      match s.scheduler with
      | .processing [] => some (none, { s with scheduler := .sleeping })
      | _ => none
  | .tick =>
      match s.scheduler with
      | .sleeping =>
          some (none, { s with scheduler := .waiting, time := s.time + BitVec.ofNat 32 timerInc })
      | _ => none

/-! ## Time -/

abbrev History := List (Op × Option (BitVec 32))

/-- The milliseconds that the scheduler's clock has counted. -/
def elapsed : History → Nat
  | [] => 0
  | (.tick, _) :: before => elapsed before + timerInc
  | _ :: before => elapsed before

theorem elapsed_le_cons (event : Op × Option (BitVec 32)) (history : History) :
    elapsed history ≤ elapsed (event :: history) := by
  obtain ⟨op, outcome⟩ := event
  cases op with
  | tick => exact Nat.le_add_right _ _
  | _ => exact Nat.le_refl _

/-- Below half of the circle the comparison of times is that of numbers. -/
theorem timeIsNewerThan_iff {t1 t2 : Time} (low1 : t1.toNat < 2 ^ 31) (low2 : t2.toNat < 2 ^ 31) :
    timeIsNewerThan t1 t2 = true ↔ t2.toNat ≤ t1.toNat := by
  have distance : ∀ t : Time, SerialNumber.distance 0 t = t.toNat := by
    intro t
    simp [SerialNumber.distance]
  have inside1 : SerialNumber.InWindow 0 t1 := by
    change _ < _
    rw [distance]
    exact low1
  have inside2 : SerialNumber.InWindow 0 t2 := by
    change _ < _
    rw [distance]
    exact low2
  rw [← distance t1, ← distance t2]
  exact SerialNumber.newer_iff inside1 inside2

theorem timeIsStrictlyNewerThan_iff {t1 t2 : Time} (low1 : t1.toNat < 2 ^ 31)
    (low2 : t2.toNat < 2 ^ 31) : timeIsStrictlyNewerThan t1 t2 = true ↔ t2.toNat < t1.toNat := by
  have differ : t1 ≠ t2 ↔ t1.toNat ≠ t2.toNat := by
    rw [ne_eq, ← BitVec.toNat_inj]
  simp only [timeIsStrictlyNewerThan, Bool.and_eq_true, timeIsNewerThan_iff low1 low2, bne_iff_ne,
    differ]
  omega

/-- The milliseconds at which a packet is due. -/
def Stream.due (stream : Stream) (timestamp : BitVec 32) : Nat :=
  stream.sndTimeOffset.toNat + (tsToTime stream.sendPt (timestamp - stream.sndTsOffset)).toNat

/-! ## The invariant -/

/-- The scheduler has not come to the session since its clock went on. -/
def Unseen (scheduler : SchedulerPlace) (session : Nat) : Prop :=
  match scheduler with
  | .waiting => True
  | .processing current => session ∈ current
  | .sleeping => False

/-- The same, or it does not come to the session at all. -/
def Overlooked (s : State) (session : Nat) : Prop :=
  session ∉ s.sched.list ∨ Unseen s.scheduler session

/-- What holds of a sender: the packet time is the time it is due, a sleeper is
armed and has been compared with the clock, and nobody who was woken by the
scheduler or did not sleep is behind the wait point too early. -/
inductive SenderOk (now : Nat) (overlooked : Prop) (stream : Stream) : Place → Prop where
  | outside : SenderOk now overlooked stream .outside
  | timed {timestamp : BitVec 32} {packetTime : Time}
      (exact_ : packetTime.toNat = stream.due tsToTime timestamp) :
      SenderOk now overlooked stream (.timed timestamp packetTime)
  | asleep {timestamp : BitVec 32} {packetTime : Time}
      (exact_ : packetTime.toNat = stream.due tsToTime timestamp)
      (armed : stream.sendWp = ⟨packetTime, true⟩) (early : overlooked ∨ now < packetTime.toNat) :
      SenderOk now overlooked stream (.asleep timestamp packetTime)
  | behind {timestamp : BitVec 32} (reached : stream.due tsToTime timestamp ≤ now) :
      SenderOk now overlooked stream (.behind timestamp false)
  | woken {timestamp : BitVec 32} : SenderOk now overlooked stream (.behind timestamp true)

structure Paced (history : History) (s : State) : Prop where
  clock : s.time.toNat = elapsed history
  offset : ∀ session, (s.streams session).sndTimeOffset.toNat ≤ elapsed history
  sender : ∀ session,
    SenderOk tsToTime (elapsed history) (Overlooked s session) (s.streams session) (s.place session)

namespace SenderOk

variable {tsToTime} {now : Nat} {overlooked : Prop} {stream : Stream} {place : Place}

theorem mono {now' : Nat} {overlooked' : Prop}
    (before : SenderOk tsToTime now overlooked stream place) (later : now ≤ now')
    (stays : overlooked → overlooked') (same : ¬ overlooked' → now' = now) :
    SenderOk tsToTime now' overlooked' stream place := by
  cases before with
  | outside => exact .outside
  | timed exact_ => exact .timed exact_
  | asleep exact_ armed early =>
      apply SenderOk.asleep exact_ armed
      by_cases overlooked' : overlooked'
      · exact .inl overlooked'
      · right
        rw [same overlooked']
        exact early.resolve_left fun overlooked => overlooked' (stays overlooked)
  | behind reached => exact .behind (reached.trans later)
  | woken => exact .woken

end SenderOk

/-- Every conversion gives less than twelve days. -/
def Short : Prop := ∀ sendPt timestamp, (tsToTime sendPt timestamp).toNat < 2 ^ 30

namespace Paced

variable {tsToTime} {history : History} {s : State}

theorem due_lt (before : Paced tsToTime history s) (short : Short tsToTime)
    (uptime : elapsed history < 2 ^ 30) (session : Nat) (timestamp : BitVec 32) :
    (s.streams session).due tsToTime timestamp < 2 ^ 31 := by
  have offset := before.offset session
  have small := short (s.streams session).sendPt (timestamp - (s.streams session).sndTsOffset)
  unfold Stream.due
  omega

/-- A step of one session, while the clock and the scheduler stand still. -/
theorem at_session (before : Paced tsToTime history s) {event : Op × Option (BitVec 32)}
    {next : State} (session : Nat) (still : elapsed (event :: history) = elapsed history)
    (time : next.time = s.time)
    (overlooked : ∀ other, Overlooked s other → Overlooked next other ∨ other = session)
    (others : ∀ other, other ≠ session →
      next.streams other = s.streams other ∧ next.place other = s.place other)
    (offset : (next.streams session).sndTimeOffset.toNat ≤ elapsed history)
    (own : SenderOk tsToTime (elapsed history) (Overlooked next session) (next.streams session)
      (next.place session)) :
    Paced tsToTime (event :: history) next := by
  constructor
  · rw [time, still]
    exact before.clock
  · intro other
    rw [still]
    by_cases same : other = session
    · rw [same]
      exact offset
    · rw [(others other same).1]
      exact before.offset other
  · intro other
    rw [still]
    by_cases same : other = session
    · rw [same]
      exact own
    · rw [(others other same).1, (others other same).2]
      exact (before.sender other).mono (Nat.le_refl _)
        (fun was => (overlooked other was).resolve_right same) (fun _ => rfl)

/-- A step of the scheduler thread that touches no session. -/
theorem at_scheduler (before : Paced tsToTime history s) {event : Op × Option (BitVec 32)}
    {next : State} (clock : next.time.toNat = elapsed (event :: history))
    (streams : next.streams = s.streams) (place : next.place = s.place)
    (overlooked : ∀ session, Overlooked s session → Overlooked next session)
    (still : ∀ session, ¬ Overlooked next session → elapsed (event :: history) = elapsed history) :
    Paced tsToTime (event :: history) next := by
  constructor
  · exact clock
  · intro session
    rw [streams]
    exact (before.offset session).trans (elapsed_le_cons _ _)
  · intro session
    rw [streams, place]
    exact (before.sender session).mono (elapsed_le_cons _ _) (overlooked session) (still session)

theorem send (before : Paced tsToTime history s) (short : Short tsToTime)
    (uptime : elapsed history < 2 ^ 30) {session : Nat} (timestamp : BitVec 32)
    {outcome : Option (BitVec 32)} :
    let stream := (s.streams session).start timestamp s.time
    Paced tsToTime ((.send session timestamp, outcome) :: history)
      (setPlace (setStream s session stream) session
        (.timed timestamp (stream.packetTime tsToTime timestamp))) := by
  intro stream
  have offset : stream.sndTimeOffset.toNat ≤ elapsed history := by
    have old := before.offset session
    have clock := before.clock
    simp only [stream, Stream.start]
    split
    · exact Nat.le_of_eq clock
    · exact old
  refine before.at_session session rfl rfl (fun _ => .inl) ?_ ?_ ?_
  · intro other differs
    simp [setPlace, setStream, differs]
  · simpa [setPlace, setStream] using offset
  · simp only [setPlace, setStream, Function.update_self]
    apply SenderOk.timed
    have small := short stream.sendPt (timestamp - stream.sndTsOffset)
    unfold Stream.packetTime Stream.due
    rw [BitVec.toNat_add, Nat.mod_eq_of_lt (by omega), Nat.add_comm]

theorem check (before : Paced tsToTime history s) (short : Short tsToTime)
    (uptime : elapsed history < 2 ^ 30) {session : Nat} {next : State}
    {outcome : Option (BitVec 32)}
    (taken : pacingExec tsToTime s (.check session) = some (outcome, next)) :
    Paced tsToTime ((.check session, outcome) :: history) next := by
  have sender := before.sender session
  have clock := before.clock
  unfold pacingExec at taken
  dsimp only at taken
  generalize place : s.place session = there at taken sender
  cases sender with
  | outside => cases taken
  | asleep => cases taken
  | behind => cases taken
  | woken => cases taken
  | @timed timestamp packetTime exact_ =>
      have low : packetTime.toNat < 2 ^ 31 := by
        rw [exact_]
        exact before.due_lt short uptime session timestamp
      have current : s.time.toNat < 2 ^ 31 := by omega
      have compares := timeIsStrictlyNewerThan_iff low current
      dsimp only at taken
      split at taken
      · rename_i newer
        cases taken
        have early := compares.mp newer
        refine before.at_session session rfl rfl (fun _ => .inl) ?_ ?_ ?_
        · intro other differs
          simp [setPlace, setStream, differs]
        · simpa [setPlace, setStream] using before.offset session
        · simp only [setPlace, setStream, Function.update_self]
          refine SenderOk.asleep exact_ rfl (.inr ?_)
          omega
      · rename_i notNewer
        cases taken
        have reached : ¬ s.time.toNat < packetTime.toNat := fun early => notNewer (compares.mpr early)
        refine before.at_session session rfl rfl (fun _ => .inl) ?_ ?_ ?_
        · intro other differs
          simp [setPlace, differs]
        · exact before.offset session
        · simp only [setPlace, Function.update_self]
          apply SenderOk.behind
          omega

theorem spurious (before : Paced tsToTime history s) {session : Nat} {next : State}
    {outcome : Option (BitVec 32)}
    (taken : pacingExec tsToTime s (.spurious session) = some (outcome, next)) :
    Paced tsToTime ((.spurious session, outcome) :: history) next := by
  unfold pacingExec at taken
  dsimp only at taken
  split at taken
  · cases taken
    refine before.at_session session rfl rfl (fun _ => .inl) ?_ ?_ ?_
    · intro other differs
      simp [setPlace, differs]
    · exact before.offset session
    · simp only [setPlace, Function.update_self]
      exact .woken
  · cases taken

theorem transmit (before : Paced tsToTime history s) {session : Nat} {next : State}
    {outcome : Option (BitVec 32)}
    (taken : pacingExec tsToTime s (.transmit session) = some (outcome, next)) :
    Paced tsToTime ((.transmit session, outcome) :: history) next := by
  unfold pacingExec at taken
  dsimp only at taken
  split at taken
  · cases taken
    refine before.at_session session rfl rfl (fun _ => .inl) ?_ ?_ ?_
    · intro other differs
      simp [setPlace, differs]
    · exact before.offset session
    · simp only [setPlace, Function.update_self]
      exact .outside
  · cases taken

/-- A new session has no sender yet. -/
theorem addSession (before : Paced tsToTime history s) {session sendPt : Nat} {next : State}
    {outcome : Option (BitVec 32)}
    (taken : pacingExec tsToTime s (.addSession session sendPt) = some (outcome, next)) :
    Paced tsToTime ((.addSession session sendPt, outcome) :: history) next := by
  unfold pacingExec at taken
  dsimp only at taken
  split at taken
  · cases taken
  · split at taken
    · cases taken
    · rename_i fresh
      cases taken
      have outside : s.place session = .outside := by
        by_contra inside
        exact fresh (.inr inside)
      refine before.at_session session rfl rfl ?_ ?_ ?_ ?_
      · intro other was
        by_cases same : other = session
        · exact .inr same
        · refine .inl (was.imp ?_ id)
          intro absent listed
          simp only [setStream, list_add] at listed
          exact absent ((List.mem_cons.mp listed).resolve_left same)
      · intro other differs
        simp [setStream, differs]
      · simp [setStream, newStream]
      · change SenderOk tsToTime _ _ _ (s.place session)
        rw [outside]
        exact .outside

/-- The scheduler does not come to a session any more that has been removed. -/
theorem removeSession (before : Paced tsToTime history s) {session : Nat} {next : State}
    {outcome : Option (BitVec 32)}
    (taken : pacingExec tsToTime s (.removeSession session) = some (outcome, next)) :
    Paced tsToTime ((.removeSession session, outcome) :: history) next := by
  unfold pacingExec at taken
  dsimp only at taken
  split at taken
  · cases taken
  · cases taken
    refine before.at_scheduler before.clock rfl rfl ?_ (fun _ _ => rfl)
    intro other was
    exact was.imp (fun absent listed => absent (mem_of_mem_remove listed)) id

theorem lock (before : Paced tsToTime history s) {next : State} {outcome : Option (BitVec 32)}
    (taken : pacingExec tsToTime s .lock = some (outcome, next)) :
    Paced tsToTime ((.lock, outcome) :: history) next := by
  unfold pacingExec at taken
  dsimp only at taken
  split at taken
  · cases taken
    refine before.at_scheduler before.clock rfl rfl ?_ (fun _ _ => rfl)
    intro session _
    by_cases listed : session ∈ s.sched.list
    · exact .inr listed
    · exact .inl listed
  · cases taken

theorem unlock (before : Paced tsToTime history s) {next : State} {outcome : Option (BitVec 32)}
    (taken : pacingExec tsToTime s .unlock = some (outcome, next)) :
    Paced tsToTime ((.unlock, outcome) :: history) next := by
  unfold pacingExec at taken
  dsimp only at taken
  split at taken
  · rename_i place
    cases taken
    refine before.at_scheduler before.clock rfl rfl ?_ (fun _ _ => rfl)
    rintro session (absent | unseen)
    · exact .inl absent
    · rw [place] at unseen
      cases unseen
  · cases taken

theorem tick (before : Paced tsToTime history s)
    (uptime : elapsed history + timerInc < 2 ^ 30) {next : State} {outcome : Option (BitVec 32)}
    (taken : pacingExec tsToTime s .tick = some (outcome, next)) :
    Paced tsToTime ((.tick, outcome) :: history) next := by
  have clock := before.clock
  unfold pacingExec at taken
  dsimp only at taken
  split at taken
  · cases taken
    refine before.at_scheduler ?_ rfl rfl (fun _ _ => .inr trivial) ?_
    · have inc : (BitVec.ofNat 32 timerInc).toNat = timerInc := rfl
      change (s.time + BitVec.ofNat 32 timerInc).toNat = elapsed history + timerInc
      rw [BitVec.toNat_add, inc, clock]
      exact Nat.mod_eq_of_lt (by omega)
    · intro session seen
      exact absurd (.inr trivial) seen
  · cases taken

/-- What `rtp_session_process` does: afterwards the sender of the session does
not sleep when its packet is due. -/
structure Processed (tsToTime : Nat → BitVec 32 → Time) (history : History) (s : State) (current : Nat)
    (next : State) : Prop where
  time : next.time = s.time
  sched : next.sched = s.sched
  offset : ∀ session, (next.streams session).sndTimeOffset = (s.streams session).sndTimeOffset
  streams : ∀ session, session ≠ current → next.streams session = s.streams session
  place : ∀ session, session ≠ current → next.place session = s.place session
  own : SenderOk tsToTime (elapsed history) False (next.streams current) (next.place current)

theorem processed (before : Paced tsToTime history s) (short : Short tsToTime)
    (uptime : elapsed history < 2 ^ 30) (current : Nat) :
    Processed tsToTime history s current (processSession s current) := by
  have sender := before.sender current
  have clock := before.clock
  unfold processSession
  dsimp only
  split
  · rename_i due
    -- the flag of the wait point falls
    have own : ∀ wp, SenderOk tsToTime (elapsed history) False
        { s.streams current with sendWp := wp }
        (match s.place current with
          | .asleep timestamp _ => .behind timestamp false
          | other => other) := by
      intro wp
      generalize place : s.place current = there at sender
      cases sender with
      | outside => exact .outside
      | timed exact_ => exact .timed exact_
      | behind reached => exact .behind reached
      | woken => exact .woken
      | @asleep timestamp packetTime exact_ armed early =>
          have low : packetTime.toNat < 2 ^ 31 := by
            rw [exact_]
            exact before.due_lt short uptime current timestamp
          rw [armed, Bool.true_and, timeIsNewerThan_iff (by omega) low] at due
          apply SenderOk.behind
          change (s.streams current).due tsToTime timestamp ≤ elapsed history
          omega
    have own := own ⟨(s.streams current).sendWp.time, false⟩
    split
    · rename_i timestamp packetTime place
      change s.place current = .asleep timestamp packetTime at place
      rw [place] at own
      refine ⟨rfl, rfl, ?_, ?_, ?_, ?_⟩
      · intro session
        by_cases same : session = current
        · simp [setPlace, setStream, same]
        · simp [setPlace, setStream, same]
      · intro session differs
        simp [setPlace, setStream, differs]
      · intro session differs
        simp [setPlace, setStream, differs]
      · simpa [setPlace, setStream] using own
    · rename_i awake
      refine ⟨rfl, rfl, ?_, ?_, fun _ _ => rfl, ?_⟩
      · intro session
        by_cases same : session = current
        · simp [setStream, same]
        · simp [setStream, same]
      · intro session differs
        simp [setStream, differs]
      · have same : (match s.place current with
            | .asleep timestamp _ => Place.behind timestamp false
            | other => other) = s.place current := by
          split
          · rename_i timestamp packetTime place
            exact absurd place (awake timestamp packetTime)
          · rfl
        rw [same] at own
        simpa [setStream] using own
  · rename_i notDue
    refine ⟨rfl, rfl, fun _ => rfl, fun _ _ => rfl, fun _ _ => rfl, ?_⟩
    generalize place : s.place current = there at sender
    cases sender with
    | outside => exact .outside
    | timed exact_ => exact .timed exact_
    | behind reached => exact .behind reached
    | woken => exact .woken
    | @asleep timestamp packetTime exact_ armed early =>
        have low : packetTime.toNat < 2 ^ 31 := by
          rw [exact_]
          exact before.due_lt short uptime current timestamp
        rw [armed, Bool.true_and, timeIsNewerThan_iff (by omega) low] at notDue
        refine SenderOk.asleep exact_ armed (.inr ?_)
        omega

theorem process (before : Paced tsToTime history s) (short : Short tsToTime)
    (uptime : elapsed history < 2 ^ 30) {next : State} {outcome : Option (BitVec 32)}
    (taken : pacingExec tsToTime s .process = some (outcome, next)) :
    Paced tsToTime ((.process, outcome) :: history) next := by
  unfold pacingExec at taken
  dsimp only at taken
  split at taken
  · rename_i current rest place
    cases taken
    have effect := before.processed short uptime current
    constructor
    · rw [effect.time]
      exact before.clock
    · intro session
      rw [effect.offset]
      exact before.offset session
    · intro session
      change SenderOk tsToTime (elapsed history) (Overlooked _ session) _ _
      by_cases same : session = current
      · rw [same]
        exact effect.own.mono (Nat.le_refl _) False.elim (fun _ => rfl)
      · rw [effect.streams session same, effect.place session same]
        apply (before.sender session).mono (Nat.le_refl _) ?_ (fun _ => rfl)
        rintro (absent | unseen)
        · left
          change session ∉ (processSession s current).sched.list
          rw [effect.sched]
          exact absent
        · rw [place] at unseen
          exact .inr ((List.mem_cons.mp unseen).resolve_left same)
  · cases taken

theorem step (before : Paced tsToTime history s) (short : Short tsToTime)
    {event : Op × Option (BitVec 32)} {next : State}
    (uptime : elapsed (event :: history) < 2 ^ 30)
    (taken : ExecStep (pacingExec tsToTime) s event next) :
    Paced tsToTime (event :: history) next := by
  obtain ⟨op, outcome⟩ := event
  have earlier : elapsed history < 2 ^ 30 := (elapsed_le_cons _ history).trans_lt uptime
  change pacingExec tsToTime s op = some (outcome, next) at taken
  cases op with
  | addSession session sendPt => exact before.addSession taken
  | removeSession session => exact before.removeSession taken
  | send session timestamp =>
      unfold pacingExec at taken
      dsimp only at taken
      split at taken
      · cases taken
        exact before.send short earlier timestamp
      · cases taken
  | check session => exact before.check short earlier taken
  | spurious session => exact before.spurious taken
  | transmit session => exact before.transmit taken
  | lock => exact before.lock taken
  | process => exact before.process short earlier taken
  | unlock => exact before.unlock taken
  | tick => exact before.tick uptime taken

end Paced

/-- The scheduler has been set up and no session made. -/
def started (sessions : Nat → Scheduled) : State :=
  ⟨rtpSchedulerInit sessions, .waiting, 0, fun _ => newStream 0, fun _ => .outside⟩

theorem paced_started (sessions : Nat → Scheduled) : Paced tsToTime [] (started sessions) :=
  ⟨rfl, fun _ => Nat.le_refl _, fun _ => .outside⟩

/-- Over every interleaving of the scheduler thread, the senders and the calls
that add and remove sessions, while the scheduler has run for less than `2^30`
milliseconds: a sender that did not wake for no reason passes its wait point only
when its packet is due; and when the scheduler has been through its list, nobody
whose packet is due is asleep in one of the sessions there. -/
theorem packets_are_paced {sessions : Nat → Scheduled} (short : Short tsToTime)
    {history : History} {s : State} (uptime : elapsed history < 2 ^ 30)
    (run : Run (ExecStep (pacingExec tsToTime)) (started sessions) history s) :
    (∀ session timestamp, s.place session = .behind timestamp false →
      (s.streams session).due tsToTime timestamp ≤ elapsed history) ∧
    (s.scheduler = .sleeping → ∀ session ∈ s.sched.list, ∀ timestamp packetTime,
      s.place session = .asleep timestamp packetTime →
        elapsed history < (s.streams session).due tsToTime timestamp) := by
  have paced : elapsed history < 2 ^ 30 → Paced tsToTime history s := by
    apply run.invariant (fun history s => elapsed history < 2 ^ 30 → Paced tsToTime history s)
    · intro _
      exact paced_started tsToTime sessions
    · intro history state event next _ before taken uptime
      exact (before ((elapsed_le_cons event history).trans_lt uptime)).step short uptime taken
  have paced := paced uptime
  constructor
  · intro session timestamp place
    have sender := paced.sender session
    rw [place] at sender
    cases sender with
    | behind reached => exact reached
  · intro slept session listed timestamp packetTime place
    have sender := paced.sender session
    rw [place] at sender
    cases sender with
    | asleep exact_ armed early =>
        rw [← exact_]
        refine early.resolve_left ?_
        rintro (absent | unseen)
        · exact absent listed
        · rw [slept] at unseen
          exact unseen

/-- Payload type 34 at 90 kHz, all others at 16 kHz. -/
def clockTime (sendPt : Nat) (timestamp : BitVec 32) : Time :=
  BitVec.ofNat 32 (timestamp.toNat / if sendPt = 34 then 90 else 16)

theorem clockTime_short : Short clockTime := by
  intro sendPt timestamp
  have small := timestamp.isLt
  simp only [clockTime, BitVec.toNat_ofNat]
  split <;> omega

/-- A sender of video and one of audio whose second packets are due after ten
milliseconds; the audio session is removed while its sender sleeps. -/
theorem packets_are_paced_second_packet : ∃ history s,
    execAll (pacingExec clockTime)
        [.addSession 0 34, .addSession 1 0, .send 0 0, .check 0, .transmit 0, .send 1 0, .check 1,
          .transmit 1, .send 0 900, .check 0, .send 1 160, .check 1, .removeSession 1,
          .lock, .process, .unlock, .tick, .lock, .process]
        ([], started fun _ => ⟨0, false⟩) = some (history, s) ∧
      s.place 0 = .behind 900 false ∧ s.place 1 = .asleep 160 10 ∧
      (s.streams 0).due clockTime 900 ≤ elapsed history := by
  have awake : ((execAll (pacingExec clockTime)
      [.addSession 0 34, .addSession 1 0, .send 0 0, .check 0, .transmit 0, .send 1 0, .check 1,
        .transmit 1, .send 0 900, .check 0, .send 1 160, .check 1, .removeSession 1,
        .lock, .process, .unlock, .tick, .lock, .process]
      ([], started fun _ => ⟨0, false⟩)).map fun result =>
        (result.2.place 0, result.2.place 1, elapsed result.1)) =
      some (.behind 900 false, .asleep 160 10, timerInc) := by
    decide +kernel
  obtain ⟨result, executed, outcome⟩ := Option.map_eq_some_iff.mp awake
  obtain ⟨video, outcome⟩ := Prod.mk.inj outcome
  obtain ⟨audio, clock⟩ := Prod.mk.inj outcome
  have uptime : elapsed result.1 < 2 ^ 30 := by
    rw [clock]
    decide
  have paced := packets_are_paced clockTime clockTime_short uptime (execAll_run .nil executed)
  exact ⟨result.1, result.2, executed, video, audio, paced.1 0 900 video⟩

end DvsServer.Ortp.Pacing
