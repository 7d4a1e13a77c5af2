import DvsServer.Core.Entries

/-!
# The RTP clock of a channel

`videoEncodeThrFxn` puts one frame for each channel and round into the FIFO of the
channel's group, and the group's sub-session thread sends what it gets.  The channels of
a group share one session of each client, whose time stamp advances with every frame
sent on it.  Calls are executed one at a time.
-/

namespace DvsServer.Core.Clock

open DvsServer.Lib DvsServer.Com.RtpSend DvsServer.Core.Session

/-- A frame of a round. -/
structure Frame where
  round : Nat
  ch : Fin maxVideoChannel
  len : UInt32

/-- `s_elt` when it is put; `buffer` numbers `video_encoded_frame_buf`. -/
def Frame.element (frame : Frame) : SessionElement where
  command := cmdSessionBuffer
  chId := frame.ch.val.toUInt8
  dataType := sessionTypeVideo.toUInt8
  buffer := frame.ch
  len := frame.len

structure Feed where
  server : Server
  /-- the rounds of `videoEncodeThrFxn` that are complete -/
  round : Nat
  /-- its loop variable -/
  i : Nat
  fifos : Fin maxGroupNum → List Frame

inductive FeedOp where
  /-- the next `FifoUtil_put` of `videoEncodeThrFxn` -/
  | put (len : UInt32)
  /-- `FifoUtil_get` and `send_to_client` of a sub-session thread -/
  | deliver (g : Fin maxGroupNum)
  | command (op : Op)

inductive FeedAct where
  | puts (frame : Frame)
  /-- a frame is sent to those slots that have its channel open -/
  | delivers (frame : Frame) (opened : Fin maxClientNum → Bool) (outcome : Outcome)
  | returns (outcome : Outcome)

abbrev History := List (FeedOp × FeedAct)

def Feed.setFifo (p : Feed) (g : Fin maxGroupNum) (frames : List Frame) : Feed :=
  { p with fifos := Function.update p.fifos g frames }

/-- `i++`, and the next round behind the last channel. -/
def Feed.next (chs : Int) (p : Feed) : Feed :=
  if p.i + 1 < chs then { p with i := p.i + 1 } else { p with i := 0, round := p.round + 1 }

def isCommand : Op → Bool
  | .sendToClient _ => false
  | _ => true

def feedExec (chs : Int) (p : Feed) : FeedOp → Option (FeedAct × Feed)
  | .put len =>
      if p.i < chs then
        (index? maxVideoChannel p.i).map fun ch =>
          (.puts ⟨p.round, ch, len⟩,
            (p.setFifo (groupOf ch) (p.fifos (groupOf ch) ++ [⟨p.round, ch, len⟩])).next chs)
      else none
  | .deliver g =>
      if g.val < groups chs then
        (p.fifos g).head?.bind fun frame =>
          (exec chs p.server (.sendToClient frame.element)).map fun (outcome, server) =>
            (.delivers frame (routed p.server frame.ch) outcome,
              { p.setFifo g (p.fifos g).tail with server })
      else none
  | .command op =>
      if isCommand op then
        (exec chs p.server op).map fun (outcome, server) => (.returns outcome, { p with server })
      else none

/-- The server has been set up and nothing has been put. -/
structure Started (chs : Int) (p : Feed) : Prop where
  server : Booted chs p.server
  round : p.round = 0
  i : p.i = 0
  fifos : ∀ g, p.fifos g = []

/-! ## The property -/

/-- The calls on the client table. -/
def calls : History → List Event
  | [] => []
  | (_, .delivers frame _ outcome) :: before => (.sendToClient frame.element, outcome) :: calls before
  | (.command op, .returns outcome) :: before => (op, outcome) :: calls before
  | _ :: before => calls before

/-- Two deliveries of one group and what happens between them. -/
structure Window where
  start : Feed
  earlier : History
  atFirst : Feed
  first : Frame
  firstOutcome : Outcome
  afterFirst : Feed
  between : History
  atSecond : Feed
  second : Frame
  secondOutcome : Outcome
  afterSecond : Feed

/-- The deliveries are those of channel `ch` in two consecutive rounds, and slot `c` has
the channel open all the time. -/
structure TwoRounds (chs : Int) (step : Feed → FeedOp × FeedAct → Feed → Prop) (c : Fin maxClientNum)
    (ch : Fin maxVideoChannel) (w : Window) : Prop where
  started : Started chs w.start
  earlier : Run step w.start w.earlier w.atFirst
  first : step w.atFirst (.deliver (groupOf ch),
    .delivers w.first (routed w.atFirst.server w.first.ch) w.firstOutcome) w.afterFirst
  between : Run (Guarded (fun p _ => routed p.server ch c = true) step) w.afterFirst w.between w.atSecond
  second : step w.atSecond (.deliver (groupOf ch),
    .delivers w.second (routed w.atSecond.server w.second.ch) w.secondOutcome) w.afterSecond
  channels : w.first.ch = ch ∧ w.second.ch = ch
  consecutive : w.second.round = w.first.round + 1
  opened : routed w.atFirst.server ch c = true ∧ routed w.atSecond.server ch c = true

/-- Both frames leave on one session, with the standard distance. -/
def SentApart (c : Fin maxClientNum) (w : Window) : Prop :=
  ∃ session timestamp, stampsOf c w.firstOutcome.sends = [(session, timestamp)] ∧
    stampsOf c w.secondOutcome.sends = [(session, timestamp + videoTimeStampIncStd)]

/-- The client has registered with a video port. -/
def AskedForVideo (c : Fin maxClientNum) (w : Window) : Prop :=
  ∃ reg, registration c (calls w.earlier) = some reg ∧ reg.base .video > 0

/-- The frames of the group delivered in between find their channel open. -/
def Attended (c : Fin maxClientNum) (ch : Fin maxVideoChannel) (w : Window) : Prop :=
  ∀ frame opened outcome, (.deliver (groupOf ch), .delivers frame opened outcome) ∈ w.between →
    opened c = true

/-- Registrations find nothing left over, and deletions spare the IDs of others. -/
def KeepsClients (chs : Int) (p : Feed) : FeedOp × FeedAct → Prop
  | (.command op, .returns outcome) => KeepsEntries chs p.server (op, outcome)
  | _ => True

instance (chs : Int) (p : Feed) : (event : FeedOp × FeedAct) → Decidable (KeepsClients chs p event)
  | (.command op, .returns outcome) => inferInstanceAs (Decidable (KeepsEntries chs p.server (op, outcome)))
  | (.command _, .puts _) => .isTrue trivial
  | (.command _, .delivers _ _ _) => .isTrue trivial
  | (.put _, _) => .isTrue trivial
  | (.deliver _, _) => .isTrue trivial

/-! ## What a step does -/

inductive Feeds (chs : Int) (p : Feed) : FeedOp × FeedAct → Feed → Prop where
  | put {len : UInt32} {ch : Fin maxVideoChannel} (slot : p.i = ch.val) (below : p.i < chs) :
      Feeds chs p (.put len, .puts ⟨p.round, ch, len⟩)
        ((p.setFifo (groupOf ch) (p.fifos (groupOf ch) ++ [⟨p.round, ch, len⟩])).next chs)
  | deliver {g : Fin maxGroupNum} {frame : Frame} {rest : List Frame} {outcome : Outcome} {server : Server}
      (inside : g.val < groups chs) (fifo : p.fifos g = frame :: rest)
      (sent : Step chs p.server (.sendToClient frame.element, outcome) server) :
      Feeds chs p (.deliver g, .delivers frame (routed p.server frame.ch) outcome)
        { p.setFifo g rest with server }
  | command {op : Op} {outcome : Outcome} {server : Server} (notSend : isCommand op = true)
      (done : Step chs p.server (op, outcome) server) :
      Feeds chs p (.command op, .returns outcome) { p with server }

theorem feedExec_cases {chs : Int} {p after : Feed} {event : FeedOp × FeedAct}
    (step : ExecStep (feedExec chs) p event after) : Feeds chs p event after := by
  obtain ⟨op, act⟩ := event
  unfold ExecStep feedExec at step
  cases op with
  | put len =>
      dsimp only at step
      split at step
      · rename_i below
        obtain ⟨ch, found, same⟩ := Option.map_eq_some_iff.mp step
        cases same
        exact .put (Int.ofNat.inj (index?_eq_some.mp found)) below
      · cases step
  | deliver g =>
      dsimp only at step
      split at step
      · rename_i inside
        obtain ⟨frame, head, step⟩ := Option.bind_eq_some_iff.mp step
        obtain ⟨⟨outcome, server⟩, sent, same⟩ := Option.map_eq_some_iff.mp step
        cases same
        have fifo := List.eq_cons_of_mem_head? head
        exact .deliver inside fifo sent
      · cases step
  | command op =>
      dsimp only at step
      split at step
      · rename_i notSend
        obtain ⟨⟨outcome, server⟩, done, same⟩ := Option.map_eq_some_iff.mp step
        cases same
        exact .command notSend done
      · cases step

theorem delivery_cases {chs : Int} {p after : Feed} {g : Fin maxGroupNum} {frame : Frame}
    {opened : Fin maxClientNum → Bool} {outcome : Outcome}
    (step : ExecStep (feedExec chs) p (.deliver g, .delivers frame opened outcome) after) :
    g.val < groups chs ∧ (∃ rest, p.fifos g = frame :: rest) ∧
      Step chs p.server (.sendToClient frame.element, outcome) after.server := by
  cases feedExec_cases step with
  | deliver inside fifo sent => exact ⟨inside, ⟨_, fifo⟩, sent⟩

@[simp] theorem setFifo_self (p : Feed) (g : Fin maxGroupNum) (frames : List Frame) :
    (p.setFifo g frames).fifos g = frames :=
  Function.update_self ..

theorem setFifo_ne {p : Feed} {g h : Fin maxGroupNum} (other : h ≠ g) (frames : List Frame) :
    (p.setFifo g frames).fifos h = p.fifos h :=
  Function.update_of_ne other ..

@[simp] theorem next_server (chs : Int) (p : Feed) : (p.next chs).server = p.server := by
  unfold Feed.next
  split <;> rfl

@[simp] theorem next_fifos (chs : Int) (p : Feed) : (p.next chs).fifos = p.fifos := by
  unfold Feed.next
  split <;> rfl

/-- The calls of a run are a run of the client table. -/
theorem run_calls {chs : Int} {start p : Feed} {history : History}
    (run : Run (Guarded (KeepsClients chs) (ExecStep (feedExec chs))) start history p) :
    Run (Guarded (KeepsEntries chs) (Step chs)) start.server (calls history) p.server := by
  induction run with
  | nil => exact .nil
  | snoc earlier taken ih =>
      obtain ⟨keeps, step⟩ := taken
      cases feedExec_cases step with
      | put slot below =>
          rw [next_server]
          exact ih
      | deliver inside fifo sent => exact .snoc ih ⟨⟨trivial, trivial⟩, sent⟩
      | command notSend done => exact .snoc ih ⟨keeps, done⟩

/-! ## The order of the frames -/

/-- The number of a frame among those of its group. -/
def Frame.index (frame : Frame) : Nat := chsPerSession * frame.round + frame.ch.val % chsPerSession

/-- How many frames of group `g` have been put. -/
def Feed.produced (p : Feed) (g : Fin maxGroupNum) : Nat :=
  chsPerSession * p.round + min chsPerSession (p.i - chsPerSession * g)

def isDelivery (g : Fin maxGroupNum) : FeedOp × FeedAct → Bool
  | (.deliver h, .delivers _ _ _) => h == g
  | _ => false

/-- The FIFO of a group holds the frames put and not delivered, in the order of their numbers. -/
structure InOrder (g : Fin maxGroupNum) (history : History) (p : Feed) : Prop where
  group : ∀ frame ∈ p.fifos g, groupOf frame.ch = g
  index : (p.fifos g).map Frame.index = List.range' (history.countP (isDelivery g)) (p.fifos g).length
  produced : history.countP (isDelivery g) + (p.fifos g).length = p.produced g

theorem next_produced {chs : Int} {p : Feed} {ch : Fin maxVideoChannel} {g : Fin maxGroupNum}
    (slot : p.i = ch.val) (inside : g.val < groups chs) :
    (p.next chs).produced g = p.produced g + if groupOf ch = g then 1 else 0 := by
  have width : chsPerSession = 4 := rfl
  have group : groupOf ch = g ↔ ch.val / 4 = g.val := Fin.ext_iff
  simp only [group]
  unfold Feed.next Feed.produced
  split
  · simp only [width]
    split <;> omega
  · rename_i ended
    have past := round_end_past (i := p.i + 1) (by omega) inside
    simp only [width] at past ⊢
    split <;> omega

theorem InOrder.put {chs : Int} {p : Feed} {history : History} {g : Fin maxGroupNum}
    {ch : Fin maxVideoChannel} (ordered : InOrder g history p) (slot : p.i = ch.val)
    (inside : g.val < groups chs) (len : UInt32) :
    InOrder g ((.put len, .puts ⟨p.round, ch, len⟩) :: history)
      ((p.setFifo (groupOf ch) (p.fifos (groupOf ch) ++ [⟨p.round, ch, len⟩])).next chs) := by
  have produced := next_produced (p := p.setFifo (groupOf ch) (p.fifos (groupOf ch) ++ [⟨p.round, ch, len⟩]))
    slot inside
  have same : (p.setFifo (groupOf ch) (p.fifos (groupOf ch) ++ [⟨p.round, ch, len⟩])).produced g =
    p.produced g := rfl
  rw [same] at produced
  have count : ((.put len, .puts ⟨p.round, ch, len⟩) :: history : History).countP (isDelivery g) =
      history.countP (isDelivery g) := List.countP_cons_of_neg (by simp [isDelivery])
  by_cases here : groupOf ch = g
  · subst here
    rw [if_pos rfl, ← ordered.produced] at produced
    constructor
    · intro frame member
      rw [next_fifos, setFifo_self] at member
      rcases List.mem_append.mp member with before | last
      · exact ordered.group frame before
      · rw [List.mem_singleton.mp last]
    · have number : Frame.index ⟨p.round, ch, len⟩ =
          history.countP (isDelivery (groupOf ch)) + (p.fifos (groupOf ch)).length := by
        have width : chsPerSession = 4 := rfl
        have group : (groupOf ch).val = ch.val / chsPerSession := rfl
        rw [ordered.produced, Feed.produced, Frame.index, slot, group]
        dsimp only
        rw [width]
        omega
      rw [next_fifos, setFifo_self, count, List.map_append, ordered.index, List.length_append,
        List.length_singleton, List.range'_1_concat, List.map_singleton, number]
    · rw [next_fifos, setFifo_self, count, produced, List.length_append, List.length_singleton]
      omega
  · rw [if_neg here] at produced
    constructor
    · rw [next_fifos, setFifo_ne (Ne.symm here)]
      exact ordered.group
    · rw [next_fifos, setFifo_ne (Ne.symm here), count]
      exact ordered.index
    · rw [next_fifos, setFifo_ne (Ne.symm here), count, produced]
      exact ordered.produced

theorem InOrder.deliver {p : Feed} {history : History} {g h : Fin maxGroupNum} {frame : Frame}
    {rest : List Frame} {opened : Fin maxClientNum → Bool} {outcome : Outcome} {server : Server}
    (ordered : InOrder g history p) (fifo : p.fifos h = frame :: rest) :
    InOrder g ((.deliver h, .delivers frame opened outcome) :: history)
      { p.setFifo h rest with server } := by
  by_cases here : h = g
  · subst here
    have index := ordered.index
    have produced := ordered.produced
    have group := ordered.group
    rw [fifo] at group index produced
    rw [List.map_cons, List.length_cons, List.range'_succ] at index
    have count : ((.deliver h, .delivers frame opened outcome) :: history : History).countP (isDelivery h) =
        history.countP (isDelivery h) + 1 := List.countP_cons_of_pos (by simp [isDelivery])
    constructor
    · intro frame' member
      change frame' ∈ (p.setFifo h rest).fifos h at member
      rw [setFifo_self] at member
      exact group frame' (List.mem_cons_of_mem _ member)
    · simpa [count] using (List.cons.inj index).2
    · change _ + ((p.setFifo h rest).fifos h).length = p.produced h
      rw [setFifo_self, count, ← produced, List.length_cons]
      omega
  · have count : ((.deliver h, .delivers frame opened outcome) :: history : History).countP (isDelivery g) =
        history.countP (isDelivery g) := List.countP_cons_of_neg (by simp [isDelivery, here])
    have fifo_g : (p.setFifo h rest).fifos g = p.fifos g := setFifo_ne (Ne.symm here) rest
    constructor
    · simpa [fifo_g] using ordered.group
    · simpa [fifo_g, count] using ordered.index
    · change _ + ((p.setFifo h rest).fifos g).length = p.produced g
      rw [fifo_g, count]
      exact ordered.produced

theorem Started.inOrder {chs : Int} {p : Feed} (started : Started chs p) (g : Fin maxGroupNum) :
    InOrder g [] p := by
  constructor
  · simp [started.fifos]
  · simp [started.fifos]
  · simp [started.fifos, Feed.produced, started.round, started.i]

theorem run_inOrder {chs : Int} {start p : Feed} {history : History} (started : Started chs start)
    (run : Run (ExecStep (feedExec chs)) start history p) {g : Fin maxGroupNum} (inside : g.val < groups chs) :
    InOrder g history p := by
  apply run.invariant (InOrder g) (started.inOrder g)
  intro history p event next _ ordered step
  cases feedExec_cases step with
  | put slot below => exact ordered.put slot inside _
  | deliver inside' fifo sent => exact ordered.deliver fifo
  | command notSend done =>
      exact ⟨ordered.group, ordered.index, ordered.produced⟩

/-- The frame a group delivers next is the next one of its group. -/
theorem InOrder.first {p : Feed} {history : History} {g : Fin maxGroupNum} {frame : Frame} {rest : List Frame}
    (ordered : InOrder g history p) (fifo : p.fifos g = frame :: rest) :
    groupOf frame.ch = g ∧ frame.index = history.countP (isDelivery g) := by
  have index := ordered.index
  have group := ordered.group
  rw [fifo] at index group
  rw [List.map_cons, List.length_cons, List.range'_succ] at index
  exact ⟨group frame List.mem_cons_self, (List.cons.inj index).1⟩

/-- Three frames of the group are delivered between two of one channel. -/
theorem TwoRounds.three {chs : Int} {c : Fin maxClientNum} {ch : Fin maxVideoChannel} {w : Window}
    (window : TwoRounds chs (ExecStep (feedExec chs)) c ch w) :
    w.between.countP (isDelivery (groupOf ch)) = 3 := by
  obtain ⟨inside, ⟨rest, fifo⟩, _⟩ := delivery_cases window.first
  obtain ⟨_, ⟨rest', fifo'⟩, _⟩ := delivery_cases window.second
  have toFirst := run_inOrder window.started window.earlier inside
  have toSecond := run_inOrder window.started
    ((window.earlier.snoc window.first).trans window.between.of_guarded) inside
  have first := (toFirst.first fifo).2
  have second := (toSecond.first fifo').2
  rw [List.countP_append, List.countP_cons_of_pos (by simp [isDelivery])] at second
  have width : chsPerSession = 4 := rfl
  have consecutive := window.consecutive
  rw [Frame.index, window.channels.1, width] at first
  rw [Frame.index, window.channels.2, width] at second
  omega

/-! ## The clock of a client -/

theorem element_channel (frame : Frame) : frame.element.chId.toNat = frame.ch.val := by
  have below : frame.ch.val < 32 := frame.ch.isLt
  change frame.ch.val % 256 = frame.ch.val
  omega

/-- The next video frame for client `c` and group `g` leaves on `session`, stamped `stamp`. -/
structure Ticks (c : Fin maxClientNum) (g : Fin maxGroupNum) (i : Fin maxSessionNum) (session : RtpSession)
    (stamp : UInt32) (s : Server) : Prop where
  own : OwnEntry s c .video g i
  live : s.rtp.live i = some session
  stamp : (s.rtp.table i).curTimeStamp = stamp

theorem Ticks.deliver {chs : Int} {before : List Event} {s after : Server} {c : Fin maxClientNum}
    {g : Fin maxGroupNum} {i : Fin maxSessionNum} {session : RtpSession} {stamp : UInt32} {frame : Frame}
    {outcome : Outcome} (ticks : Ticks c g i session stamp s) (owned : Owned chs before s) (ok : ClientsOk s)
    (group : groupOf frame.ch = g) (opened : routed s frame.ch c = true)
    (sent : Step chs s (.sendToClient frame.element, outcome) after) :
    stampsOf c outcome.sends = [(session, stamp)] ∧
      Ticks c g i session (stamp + videoTimeStampInc) after := by
  have done := sent.sends
  subst group
  have others : ∀ d, d ≠ c → routed s frame.ch d = true → s.ids d .video (groupOf frame.ch) ≠ i :=
    fun d differs opened' => ticks.own.others owned (routed_active opened) differs opened'
  obtain ⟨stamps, advanced⟩ := sendLoop_stamps (element_channel frame) ok (List.mem_finRange c)
    (List.nodup_finRange _) opened ticks.own.at_ ticks.live others done
  obtain ⟨clients_eq, live_eq, _⟩ := sendLoop_cases done
  refine ⟨by rw [stamps, ticks.stamp], ?_, (live_eq i).trans ticks.live, ?_⟩
  · apply ticks.own.congr _ (sendLoop_inc done i)
    rw [Server.ids, clients_eq]
    rfl
  · have inc : (s.rtp.table i).timeStampInc = videoTimeStampInc := ticks.own.inc
    rw [advanced]
    simp [SessionMgr.advance, SessionMgr.store, ticks.stamp, inc]

/-- A frame of another group, or one the client does not get. -/
theorem Ticks.pass {chs : Int} {before : List Event} {s after : Server} {c : Fin maxClientNum}
    {g : Fin maxGroupNum} {i : Fin maxSessionNum} {session : RtpSession} {stamp : UInt32} {frame : Frame}
    {outcome : Outcome} (ticks : Ticks c g i session stamp s) (owned : Owned chs before s) (ok : ClientsOk s)
    (active : s.Active c) (misses : groupOf frame.ch = g → routed s frame.ch c = false)
    (sent : Step chs s (.sendToClient frame.element, outcome) after) : Ticks c g i session stamp after := by
  have done := sent.sends
  have elsewhere : ∀ d ∈ List.finRange maxClientNum, routed s frame.ch d = true →
      s.ids d .video (groupOf frame.ch) ≠ i := by
    intro d _ opened recorded
    by_cases differs : d = c
    · subst differs
      rw [misses (ticks.own.only .video _ recorded).2] at opened
      cases opened
    · exact ticks.own.others owned active differs opened recorded
  have kept := sendLoop_elsewhere (element_channel frame) ok elsewhere done
  obtain ⟨clients_eq, live_eq, _⟩ := sendLoop_cases done
  refine ⟨?_, (live_eq i).trans ticks.live, ?_⟩
  · apply ticks.own.congr _ (sendLoop_inc done i)
    rw [Server.ids, clients_eq]
    rfl
  · rw [kept]
    exact ticks.stamp

theorem Ticks.command {chs : Int} {before : List Event} {s after : Server} {c : Fin maxClientNum}
    {g : Fin maxGroupNum} {i : Fin maxSessionNum} {session : RtpSession} {stamp : UInt32} {op : Op}
    {outcome : Outcome} (ticks : Ticks c g i session stamp s) (owned : Owned chs before s)
    (keeps : KeepsEntries chs s (op, outcome)) (notSend : isCommand op = true) (active : s.Active c)
    (still : after.Active c) (done : Step chs s (op, outcome) after) : Ticks c g i session stamp after := by
  have ownedAfter := owned.step keeps.1 done.effect
  obtain ⟨reg, found⟩ := Option.isSome_iff_exists.mp ((ownedAfter.active_iff c).mp still)
  have notAdd : ¬ IsAdd c (op, outcome) := by
    rintro ⟨⟨destIp, videoPort, audioPort, rfl⟩, returned⟩
    exact (done.effect.added returned).1 active
  obtain ⟨ids, kept | ⟨e, _, rfl, _⟩⟩ := owned.kept keeps.2 done.effect notAdd found ticks.own.at_
  · refine ⟨ticks.own.congr ids (by rw [kept]), ?_, ?_⟩
    · rw [SessionMgr.live, kept]
      exact ticks.live
    · rw [kept]
      exact ticks.stamp
  · cases notSend

/-- A frame is delivered that finds its channel open. -/
def finds (c : Fin maxClientNum) : FeedOp × FeedAct → Bool
  | (_, .delivers _ opened _) => opened c
  | _ => false

def attends (c : Fin maxClientNum) (g : Fin maxGroupNum) (event : FeedOp × FeedAct) : Bool :=
  isDelivery g event && finds c event

/-- While a client keeps channel `ch` open, its clock advances with every frame of the
group that it gets. -/
theorem Ticks.feed {chs : Int} {p after : Feed} {before : List Event} {event : FeedOp × FeedAct}
    {c : Fin maxClientNum} {g : Fin maxGroupNum} {i : Fin maxSessionNum} {session : RtpSession}
    {stamp : UInt32} (ticks : Ticks c g i session stamp p.server)
    (owned : Owned chs before p.server) (ok : ClientsOk p.server)
    (group : ∀ h, h.val < groups chs → ∀ frame ∈ p.fifos h, groupOf frame.ch = h)
    (active : p.server.Active c) (still : after.server.Active c)
    (keeps : KeepsClients chs p event) (step : ExecStep (feedExec chs) p event after) :
    Ticks c g i session (if attends c g event then stamp + videoTimeStampInc else stamp) after.server := by
  cases feedExec_cases step with
  | put slot below =>
      rw [next_server]
      exact ticks
  | @deliver h frame rest outcome server inside fifo sent =>
      have here : groupOf frame.ch = h := group h inside frame (by rw [fifo]; exact List.mem_cons_self)
      by_cases attended :
          attends c g (.deliver h, .delivers frame (routed p.server frame.ch) outcome) = true
      · obtain ⟨same, opened⟩ := (Bool.and_eq_true _ _).mp attended
        rw [if_pos attended]
        exact (ticks.deliver owned ok (here.trans (beq_iff_eq.mp same)) opened sent).2
      · rw [if_neg attended]
        apply ticks.pass owned ok active _ sent
        intro same
        simpa [attends, isDelivery, finds, here.symm.trans same] using attended
  | command notSend done => exact ticks.command owned keeps notSend active still done

/-- What every run keeps. -/
structure Settled (chs : Int) (history : History) (p : Feed) : Prop where
  ok : ClientsOk p.server
  owned : Owned chs (calls history) p.server
  equipped : Equipped chs (calls history) p.server
  group : ∀ g, g.val < groups chs → ∀ frame ∈ p.fifos g, groupOf frame.ch = g

theorem run_settled {chs : Int} {start p : Feed} {history : History} (started : Started chs start)
    (run : Run (Guarded (KeepsClients chs) (ExecStep (feedExec chs))) start history p) :
    Settled chs history p := by
  obtain ⟨owned, equipped⟩ := run_equipped started.server (run_calls run)
  have ok := run_clientsOk (run_calls run).of_guarded started.server.initialised.clientsOk
  exact ⟨ok, owned, equipped, fun g inside => (run_inOrder started run.of_guarded inside).group⟩

theorem run_ticks {chs : Int} {start middle p : Feed} {earlier between : History} {c : Fin maxClientNum}
    {ch : Fin maxVideoChannel} {g : Fin maxGroupNum} {i : Fin maxSessionNum} {session : RtpSession}
    {stamp : UInt32} (started : Started chs start)
    (toMiddle : Run (Guarded (KeepsClients chs) (ExecStep (feedExec chs))) start earlier middle)
    (run : Run (Guarded (fun p _ => routed p.server ch c = true)
      (Guarded (KeepsClients chs) (ExecStep (feedExec chs)))) middle between p)
    (ticks : Ticks c g i session stamp middle.server) (opened : routed p.server ch c = true) :
    Ticks c g i session (stamp + videoTimeStampInc * UInt32.ofNat (between.countP (attends c g))) p.server := by
  induction run with
  | nil => simpa using ticks
  | @snoc before p next event run taken ih =>
      obtain ⟨openedBefore, keeps, step⟩ := taken
      have settled := run_settled started (toMiddle.trans run.of_guarded)
      have next := (ih openedBefore).feed settled.owned settled.ok settled.group
        (routed_active openedBefore) (routed_active opened) keeps step
      rw [List.countP_cons]
      split at next
      · rename_i attended
        rw [if_pos attended, UInt32.ofNat_add, UInt32.mul_add, ← UInt32.add_assoc]
        exact next
      · rename_i missed
        rw [if_neg missed]
        exact next

/-! ## Observed windows -/

def deliverNext (chs : Int) (g : Fin maxGroupNum) (p : Feed) : Option (Frame × Outcome × Feed) :=
  (feedExec chs p (.deliver g)).bind fun (act, after) =>
    match act with
    | .delivers frame _ outcome => some (frame, outcome, after)
    | _ => none

theorem deliverNext_step {chs : Int} {g : Fin maxGroupNum} {p after : Feed} {frame : Frame} {outcome : Outcome}
    (done : deliverNext chs g p = some (frame, outcome, after)) :
    ExecStep (feedExec chs) p (.deliver g, .delivers frame (routed p.server frame.ch) outcome) after := by
  obtain ⟨⟨act, next⟩, taken, same⟩ := Option.bind_eq_some_iff.mp done
  have step : ExecStep (feedExec chs) p (.deliver g, act) next := taken
  cases feedExec_cases step with
  | deliver inside fifo sent =>
      cases Option.some.inj same
      exact step

/-- Operations on a server that has just been set up, a delivery of the group of `ch`,
operations while slot `c` has `ch` open, and another delivery. -/
def observe (chs : Int) (c : Fin maxClientNum) (ch : Fin maxVideoChannel) (before amid : List FeedOp) :
    Option Window := do
  let server ← boot chs
  let start : Feed := ⟨server, 0, 0, fun _ => []⟩
  let (earlier, atFirst) ← execAll (checked (KeepsClients chs) (feedExec chs)) before ([], start)
  let (first, firstOutcome, afterFirst) ← deliverNext chs (groupOf ch) atFirst
  let (between, atSecond) ← execAll (checked (fun p _ => routed p.server ch c = true)
    (checked (KeepsClients chs) (feedExec chs))) amid ([], afterFirst)
  let (second, secondOutcome, afterSecond) ← deliverNext chs (groupOf ch) atSecond
  if (first.ch = ch ∧ second.ch = ch) ∧ second.round = first.round + 1 ∧
      routed atFirst.server ch c = true ∧ routed atSecond.server ch c = true then
    some ⟨start, earlier, atFirst, first, firstOutcome, afterFirst, between, atSecond, second,
      secondOutcome, afterSecond⟩
  else none

theorem observe_twoRounds {chs : Int} {c : Fin maxClientNum} {ch : Fin maxVideoChannel}
    {before amid : List FeedOp} {w : Window} (done : observe chs c ch before amid = some w) :
    TwoRounds chs (Guarded (KeepsClients chs) (ExecStep (feedExec chs))) c ch w := by
  obtain ⟨server, booted, done⟩ := Option.bind_eq_some_iff.mp done
  obtain ⟨⟨earlier, atFirst⟩, toFirst, done⟩ := Option.bind_eq_some_iff.mp done
  obtain ⟨⟨first, firstOutcome, afterFirst⟩, firstStep, done⟩ := Option.bind_eq_some_iff.mp done
  obtain ⟨⟨between, atSecond⟩, toSecond, done⟩ := Option.bind_eq_some_iff.mp done
  obtain ⟨⟨second, secondOutcome, afterSecond⟩, secondStep, done⟩ := Option.bind_eq_some_iff.mp done
  dsimp only at done
  split at done
  · rename_i observed
    cases Option.some.inj done
    obtain ⟨channels, consecutive, opened⟩ := observed
    exact {
      started := ⟨boot_booted booted, rfl, rfl, fun _ => rfl⟩
      earlier := (execAll_run .nil toFirst).mono ExecStep.guarded
      first := ⟨trivial, deliverNext_step firstStep⟩
      between := (execAll_run .nil toSecond).mono fun taken =>
        ⟨taken.guarded.1, taken.guarded.2.guarded⟩
      second := ⟨trivial, deliverNext_step secondStep⟩
      channels
      consecutive
      opened }
  · cases done

/-! ## The distance of two frames -/

theorem TwoRounds.mono {chs : Int} {step wider : Feed → FeedOp × FeedAct → Feed → Prop}
    {c : Fin maxClientNum} {ch : Fin maxVideoChannel} {w : Window}
    (weaken : ∀ {p event after}, step p event after → wider p event after)
    (window : TwoRounds chs step c ch w) : TwoRounds chs wider c ch w where
  started := window.started
  earlier := window.earlier.mono weaken
  first := weaken window.first
  between := window.between.mono fun taken => ⟨taken.1, weaken taken.2⟩
  second := weaken window.second
  channels := window.channels
  consecutive := window.consecutive
  opened := window.opened

theorem isDelivery_cases {g : Fin maxGroupNum} {event : FeedOp × FeedAct} (delivery : isDelivery g event = true) :
    ∃ frame opened outcome, event = (.deliver g, .delivers frame opened outcome) := by
  obtain ⟨op, act⟩ := event
  cases op with
  | put => cases delivery
  | command => cases delivery
  | deliver h =>
      cases act with
      | puts => cases delivery
      | returns => cases delivery
      | delivers frame opened outcome =>
          have same : h = g := beq_iff_eq.mp delivery
          exact ⟨frame, opened, outcome, by rw [same]⟩

theorem attends_count (c : Fin maxClientNum) (g : Fin maxGroupNum) (history : History) :
    history.countP (attends c g) = (history.filter (isDelivery g)).countP (finds c) := by
  rw [List.countP_filter]
  apply List.countP_congr
  intro event _
  rw [attends, Bool.and_comm]

theorem attends_le (c : Fin maxClientNum) (g : Fin maxGroupNum) (history : History) :
    history.countP (attends c g) ≤ history.countP (isDelivery g) := by
  apply List.countP_mono_left
  intro event _ attended
  exact ((Bool.and_eq_true _ _).mp attended).1

theorem attended_iff {c : Fin maxClientNum} {ch : Fin maxVideoChannel} {w : Window} :
    Attended c ch w ↔
      w.between.countP (attends c (groupOf ch)) = w.between.countP (isDelivery (groupOf ch)) := by
  rw [attends_count, List.countP_eq_length_filter (p := isDelivery (groupOf ch)), List.countP_eq_length]
  constructor
  · intro attended event member
    obtain ⟨inBetween, delivery⟩ := List.mem_filter.mp member
    obtain ⟨frame, opened, outcome, rfl⟩ := isDelivery_cases delivery
    exact attended frame opened outcome inBetween
  · intro all frame opened outcome inBetween
    exact all _ (List.mem_filter.mpr ⟨inBetween, beq_self_eq_true _⟩)

/-- The time stamps of both frames, for a client with an entry for the group. -/
theorem TwoRounds.stamps {chs : Int} {c : Fin maxClientNum} {ch : Fin maxVideoChannel} {w : Window}
    (window : TwoRounds chs (Guarded (KeepsClients chs) (ExecStep (feedExec chs))) c ch w)
    {i : Fin maxSessionNum} {session : RtpSession} (own : OwnEntry w.atFirst.server c .video (groupOf ch) i)
    (live : w.atFirst.server.rtp.live i = some session) :
    ∃ stamp, stampsOf c w.firstOutcome.sends = [(session, stamp)] ∧
      stampsOf c w.secondOutcome.sends = [(session, stamp + (videoTimeStampInc +
        videoTimeStampInc * UInt32.ofNat (w.between.countP (attends c (groupOf ch)))))] := by
  obtain ⟨firstCh, secondCh⟩ := window.channels
  obtain ⟨opened, openedLater⟩ := window.opened
  obtain ⟨_, _, sent⟩ := delivery_cases window.first.2
  obtain ⟨_, _, sentLater⟩ := delivery_cases window.second.2
  have toAfter := window.earlier.snoc window.first
  have atFirst := run_settled window.started window.earlier
  have atSecond := run_settled window.started (toAfter.trans window.between.of_guarded)
  have ticks : Ticks c (groupOf ch) i session _ w.atFirst.server := ⟨own, live, rfl⟩
  rw [← firstCh] at opened
  obtain ⟨stamps, ticks⟩ := ticks.deliver atFirst.owned atFirst.ok (by rw [firstCh]) opened sent
  have ticks := run_ticks window.started toAfter window.between ticks openedLater
  rw [← secondCh] at openedLater
  obtain ⟨stampsLater, _⟩ := ticks.deliver atSecond.owned atSecond.ok (by rw [secondCh]) openedLater sentLater
  refine ⟨_, stamps, ?_⟩
  rw [stampsLater, UInt32.add_assoc]

/-- Of the three frames in between, all must advance the clock. -/
theorem advances_iff {k : Nat} (atMost : k ≤ 3) :
    videoTimeStampInc + videoTimeStampInc * UInt32.ofNat k = videoTimeStampIncStd ↔ k = 3 := by
  revert k
  decide

theorem TwoRounds.sentApart_iff {chs : Int} {c : Fin maxClientNum} {ch : Fin maxVideoChannel} {w : Window}
    (window : TwoRounds chs (Guarded (KeepsClients chs) (ExecStep (feedExec chs))) c ch w)
    {i : Fin maxSessionNum} {session : RtpSession} (own : OwnEntry w.atFirst.server c .video (groupOf ch) i)
    (live : w.atFirst.server.rtp.live i = some session) : SentApart c w ↔ Attended c ch w := by
  have three := (window.mono And.right).three
  have atMost := attends_le c (groupOf ch) w.between
  obtain ⟨stamp, first, second⟩ := window.stamps own live
  rw [attended_iff, three]
  rw [three] at atMost
  apply Iff.trans _ (advances_iff atMost)
  constructor
  · rintro ⟨session', stamp', first', second'⟩
    rw [first] at first'
    cases first'
    rw [second] at second'
    simpa using second'
  · intro advances
    refine ⟨session, stamp, first, ?_⟩
    rw [second, advances]

/-- Nothing is sent to a client that has not asked for video. -/
theorem TwoRounds.unasked {chs : Int} {c : Fin maxClientNum} {ch : Fin maxVideoChannel} {w : Window}
    (window : TwoRounds chs (Guarded (KeepsClients chs) (ExecStep (feedExec chs))) c ch w)
    {reg : Registration} (found : registration c (calls w.earlier) = some reg)
    (unasked : ¬ reg.base .video > 0) : ¬ SentApart c w := by
  rintro ⟨session, stamp, first, _⟩
  have atFirst := run_settled window.started window.earlier
  obtain ⟨_, _, sent⟩ := delivery_cases window.first.2
  rcases atFirst.owned.recorded c reg found .video (groupOf ch) with unset | ⟨asked, _⟩
  · rw [← window.channels.1] at unset
    rw [sendLoop_unset (element_channel w.first) unset sent.sends] at first
    cases first
  · exact unasked asked

/-- The clock of a channel.  In the runs whose registrations find nothing left over and
whose deletions spare the IDs of others, two consecutive frames of a channel that stays
open leave on the client's session with the standard distance exactly when the client has
asked for video and has the channels of the three frames in between open as well. -/
theorem clock_standard_iff_attended {chs : Int} {c : Fin maxClientNum} {ch : Fin maxVideoChannel}
    {w : Window} (window : TwoRounds chs (Guarded (KeepsClients chs) (ExecStep (feedExec chs))) c ch w) :
    SentApart c w ↔ AskedForVideo c w ∧ Attended c ch w := by
  have atFirst := run_settled window.started window.earlier
  have active := routed_active window.opened.1
  obtain ⟨reg, found⟩ := Option.isSome_iff_exists.mp ((atFirst.owned.active_iff c).mp active)
  by_cases asked : reg.base .video > 0
  · obtain ⟨inside, _, _⟩ := delivery_cases window.first.2
    obtain ⟨i, own⟩ := atFirst.equipped c reg found .video (groupOf ch) inside asked
    obtain ⟨session, live⟩ := atFirst.owned.live found own.at_
    rw [window.sentApart_iff own live]
    exact (and_iff_right ⟨reg, found, asked⟩).symm
  · constructor
    · intro sent
      exact absurd sent (window.unasked found asked)
    · rintro ⟨⟨reg', found', asked'⟩, _⟩
      rw [found] at found'
      cases found'
      exact absurd asked' asked

/-- Four channels, all open; channel 2 is closed and opened again in between. -/
theorem clock_standard_iff_attended_four :
    ∃ w, observe 4 0 0 [.command (.addClient "10.0.0.1" 5000 7000), .command (.openChannel 0 255),
      .put 100, .put 100, .put 100, .put 100, .put 100]
      [.deliver 0, .command (.closeChannel 0 2), .command (.openChannel 0 2), .deliver 0, .deliver 0] = some w ∧
        (SentApart 0 w ↔ AskedForVideo 0 w ∧ Attended 0 0 w) := by
  obtain ⟨w, observed⟩ := Option.isSome_iff_exists.mp
    (show (observe 4 0 0 [.command (.addClient "10.0.0.1" 5000 7000), .command (.openChannel 0 255),
      .put 100, .put 100, .put 100, .put 100, .put 100]
      [.deliver 0, .command (.closeChannel 0 2), .command (.openChannel 0 2), .deliver 0,
        .deliver 0]).isSome = true by decide)
  exact ⟨w, observed, clock_standard_iff_attended (observe_twoRounds observed)⟩

/-- The registration asked for video, and the frames are not `VIDEO_TIME_STAMP_INC_STD` apart. -/
def drifts (c : Fin maxClientNum) (w : Window) : Bool :=
  ((registration c (calls w.earlier)).any fun reg => decide (reg.base .video > 0)) &&
    !((stampsOf c w.firstOutcome.sends).any fun (_, one) =>
      (stampsOf c w.secondOutcome.sends).any fun (_, two) => two == one + videoTimeStampIncStd)

theorem drifts_cases {c : Fin maxClientNum} {w : Window} (found : drifts c w = true) :
    AskedForVideo c w ∧ ¬ SentApart c w := by
  obtain ⟨asked, apart⟩ := (Bool.and_eq_true _ _).mp found
  obtain ⟨reg, registered, positive⟩ := Option.any_eq_true _ _ |>.mp asked
  refine ⟨⟨reg, registered, of_decide_eq_true positive⟩, ?_⟩
  rintro ⟨session, stamp, first, second⟩
  simp [first, second] at apart

/-- A client that has only channel 0 open: the frames of the other three channels do not
advance its clock. -/
theorem clock_standard_fails :
    ¬ ∀ (chs : Int) (c : Fin maxClientNum) (ch : Fin maxVideoChannel) (w : Window),
      TwoRounds chs (ExecStep (feedExec chs)) c ch w → AskedForVideo c w → SentApart c w := by
  intro standard
  obtain ⟨w, observed, found⟩ := Option.any_eq_true _ _ |>.mp
    (show (observe 4 0 0 [.command (.addClient "10.0.0.1" 5000 7000), .command (.openChannel 0 0),
      .put 100, .put 100, .put 100, .put 100, .put 100]
      [.deliver 0, .deliver 0, .deliver 0]).any (drifts 0) = true by decide)
  obtain ⟨asked, apart⟩ := drifts_cases found
  exact apart (standard 4 0 0 w ((observe_twoRounds observed).mono And.right) asked)

end DvsServer.Core.Clock
