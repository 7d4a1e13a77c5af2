import DvsServer.Core.Routing

/-!
# Stream isolation between clients

A frame sent for a client leaves on a session its own registration created.
`add_client` leaves the IDs of a medium it was not asked for as it found them,
and `del_client` resets the IDs of a slot chosen by its loop counter.  A slot
can therefore be handed to a new client with the old client's IDs, and these
may meanwhile name the sessions of somebody else.  Isolation holds in the runs
whose registrations find nothing left over.
-/

namespace DvsServer.Core.Session

open DvsServer.Lib DvsServer.Com.RtpSend

/-- What the `add_client` call of a current registration was given and made. -/
structure Registration where
  base : Medium → Int
  created : List RtpSession

/-- The registration slot `c` has after a history, when it has one. -/
def registration (c : Fin maxClientNum) : List Event → Option Registration
  | [] => none
  | (.addClient _ baseVideoPort baseAudioPort, outcome) :: before =>
      if outcome.ret = c then some ⟨basePort baseVideoPort baseAudioPort, outcome.created⟩
      else registration c before
  | (.delClient d, _) :: before => if d = c then none else registration c before
  | (.openChannel _ _, _) :: before => registration c before
  | (.closeChannel _ _, _) :: before => registration c before
  | (.sendToClient _, _) :: before => registration c before

@[simp] theorem registration_set (c d : Fin maxClientNum) (value : Bool) (chId : Int)
    (outcome : Outcome) (before : List Event) :
    registration c ((if value then .openChannel d chId else .closeChannel d chId, outcome) :: before) =
      registration c before := by
  cases value <;> rfl

theorem registration_del (c d : Fin maxClientNum) (outcome : Outcome) (before : List Event) :
    registration c ((.delClient d, outcome) :: before) =
      if d = c then none else registration c before := by
  rw [registration]
  by_cases same : d = c
  · rw [if_pos same, if_pos (by rw [same])]
  · rw [if_neg same, if_neg fun eq => same (Fin.ext (by omega))]

/-- A frame that left for a client left on a session made by the client's own
registration, which asked for that medium, and by nobody else's. -/
structure Isolated (history : List Event) (e : SessionElement) (c : Fin maxClientNum)
    (session : RtpSession) : Prop where
  own : ∃ reg, registration c history = some reg ∧ session ∈ reg.created ∧
    session.payloadType = (mediumOf e.dataType).payloadType ∧ reg.base (mediumOf e.dataType) > 0
  foreign : ∀ d, d ≠ c → ∀ reg, registration d history = some reg → session ∉ reg.created

/-- Every frame `send_to_client` can send after this history is isolated. -/
def StreamIsolation (history : List Event) (s : Server) : Prop :=
  ∀ e sends after, sendToClient s e = some (sends, after) →
    ∀ send ∈ sends, ∀ sent, send.sent = some sent → Isolated history e send.client sent.session

/-- The slot `add_client` is about to choose records no session ID for a medium
that is not asked for. -/
def NothingLeftOver (s : Server) : Event → Prop
  | (.addClient _ baseVideoPort baseAudioPort, _) =>
      ∀ id, ¬ s.Active id → (∀ c < id, s.Active c) →
        ∀ m, basePort baseVideoPort baseAudioPort m ≤ 0 → ∀ g, s.ids id m g = -1
  | _ => True

instance (s : Server) : (event : Event) → Decidable (NothingLeftOver s event)
  | (.addClient _ baseVideoPort baseAudioPort, _) =>
      inferInstanceAs (Decidable (∀ id, ¬ s.Active id → (∀ c < id, s.Active c) →
        ∀ m, basePort baseVideoPort baseAudioPort m ≤ 0 → ∀ g, s.ids id m g = -1))
  | (.delClient _, _) => .isTrue trivial
  | (.openChannel _ _, _) => .isTrue trivial
  | (.closeChannel _ _, _) => .isTrue trivial
  | (.sendToClient _, _) => .isTrue trivial

/-- The IDs of an active slot name live sessions of its own registration. -/
structure Owned (chs : Int) (history : List Event) (s : Server) : Prop where
  active_iff : ∀ c, s.Active c ↔ (registration c history).isSome
  recorded : ∀ c reg, registration c history = some reg → ∀ m g,
    s.ids c m g = -1 ∨ reg.base m > 0 ∧ ∃ (i : Fin maxSessionNum) (session : RtpSession),
      s.ids c m g = i ∧ s.rtp.live i = some session ∧ session ∈ reg.created ∧
        session.payloadType = m.payloadType
  bounded : ∀ c reg, registration c history = some reg →
    ∀ session ∈ reg.created, session.handle < s.rtp.nextHandle
  disjoint : ∀ c d reg other, c ≠ d → registration c history = some reg →
    registration d history = some other →
    ∀ one ∈ reg.created, ∀ two ∈ other.created, one.handle ≠ two.handle
  unused : ∀ c m (g : Fin maxGroupNum), groups chs ≤ g.val → s.ids c m g = -1

/-- Two registrations never claim the same entry. -/
theorem Owned.entry_unique {chs : Int} {history : List Event} {s : Server}
    (owned : Owned chs history s) {c d : Fin maxClientNum} {reg other : Registration}
    (differs : c ≠ d) (regC : registration c history = some reg)
    (regD : registration d history = some other) {m n : Medium} {g h : Fin maxGroupNum}
    {i : Fin maxSessionNum} (one : s.ids c m g = i) : s.ids d n h ≠ i := by
  intro two
  rcases owned.recorded c reg regC m g with unset | ⟨_, j, session, at_j, held, made, _⟩
  · omega
  rcases owned.recorded d other regD n h with unset | ⟨_, k, session', at_k, held', made', _⟩
  · omega
  have j_eq : j = k := Fin.ext (by omega)
  subst j_eq
  rw [held] at held'
  cases Option.some.inj held'
  exact owned.disjoint c d reg other differs regC regD session made session made' rfl

/-- Calls that keep IDs, activity and live sessions keep ownership. -/
theorem Owned.transport {chs : Int} {history longer : List Event} {s after : Server}
    (owned : Owned chs history s) (regs : ∀ c, registration c longer = registration c history)
    (active : ∀ c, after.Active c ↔ s.Active c)
    (ids : ∀ c, s.Active c → after.ids c = s.ids c)
    (live : ∀ i session, s.rtp.live i = some session → after.rtp.live i = some session)
    (nextHandle : s.rtp.nextHandle ≤ after.rtp.nextHandle)
    (unused : ∀ c m (g : Fin maxGroupNum), groups chs ≤ g.val → after.ids c m g = -1) :
    Owned chs longer after := by
  have isActive : ∀ c reg, registration c history = some reg → s.Active c := fun c reg found => by
    rw [owned.active_iff, found]
    rfl
  refine ⟨fun c => ?_, fun c reg found m g => ?_, fun c reg found session made => ?_,
    fun c d reg other differs found found' => ?_, unused⟩
  · rw [active, regs]
    exact owned.active_iff c
  · rw [regs] at found
    rw [ids c (isActive c reg found)]
    refine (owned.recorded c reg found m g).imp_right ?_
    rintro ⟨asked, i, session, at_i, held, made⟩
    exact ⟨asked, i, session, at_i, live i session held, made⟩
  · rw [regs] at found
    have := owned.bounded c reg found session made
    omega
  · rw [regs] at found found'
    exact owned.disjoint c d reg other differs found found'

theorem AddEffect.unused {chs : Int} {base : Medium → Int} {id : Fin maxClientNum}
    {s after : Server} {created : List RtpSession} (effect : AddEffect chs base id s after created)
    (unused : ∀ c m (g : Fin maxGroupNum), groups chs ≤ g.val → s.ids c m g = -1)
    (c : Fin maxClientNum) (m : Medium) (g : Fin maxGroupNum) (outside : groups chs ≤ g.val) :
    after.ids c m g = -1 := by
  by_cases same : c = id
  · subst same
    rw [effect.ids_kept m g (Nat.le_trans (span_le chs _) outside)]
    exact unused c m g outside
  · rw [Server.ids, effect.others c same]
    exact unused c m g outside

/-- A registration in a slot with nothing left over. -/
theorem Owned.added {chs : Int} {history : List Event} {s after : Server} {id : Fin maxClientNum}
    {baseVideoPort baseAudioPort : Int} {destIp : String} {created : List RtpSession}
    (owned : Owned chs history s) (free : ¬ s.Active id)
    (clean : ∀ m, basePort baseVideoPort baseAudioPort m ≤ 0 → ∀ g, s.ids id m g = -1)
    (effect : AddEffect chs (basePort baseVideoPort baseAudioPort) id s after created)
    (done : AddDone chs (basePort baseVideoPort baseAudioPort) id s after created) :
    Owned chs ((.addClient destIp baseVideoPort baseAudioPort, ⟨id, created, []⟩) :: history)
      after := by
  have here : registration id
      ((.addClient destIp baseVideoPort baseAudioPort, ⟨id, created, []⟩) :: history) =
        some ⟨basePort baseVideoPort baseAudioPort, created⟩ := if_pos rfl
  have there : ∀ c, c ≠ id → registration c
      ((.addClient destIp baseVideoPort baseAudioPort, ⟨id, created, []⟩) :: history) =
        registration c history := fun c other =>
    if_neg fun (same : (id.val : Int) = c) => other (Fin.ext (by omega))
  have old : ∀ c reg, c ≠ id → registration c history = some reg →
      ∀ session ∈ reg.created, ∀ new ∈ created, session.handle < new.handle := by
    intro c reg _ found session made new inCreated
    have before := owned.bounded c reg found session made
    have := (effect.created.fresh new inCreated).1
    omega
  refine ⟨fun c => ?_, fun c reg found m g => ?_, fun c reg found session made => ?_,
    fun c d reg other differs found found' one madeOne two madeTwo => ?_,
    effect.unused owned.unused⟩
  · by_cases same : c = id
    · subst same
      rw [here]
      refine ⟨fun _ => rfl, fun _ inactive => ?_⟩
      rw [done.clientID] at inactive
      omega
    · rw [there c same, Server.Active, effect.others c same]
      exact owned.active_iff c
  · by_cases same : c = id
    · subst same
      rw [here] at found
      cases Option.some.inj found
      by_cases asked : basePort baseVideoPort baseAudioPort m > 0
      · by_cases inside : g.val < groups chs
        · have below : g.val < span chs (basePort baseVideoPort baseAudioPort m) := by
            rw [span, if_pos asked]
            exact inside
          exact .inr ⟨asked, done.recorded m g below⟩
        · exact .inl (effect.unused owned.unused c m g (Nat.le_of_not_lt inside))
      · have outside : span chs (basePort baseVideoPort baseAudioPort m) ≤ g.val := by
          rw [span, if_neg asked]
          exact Nat.zero_le _
        rw [effect.ids_kept m g outside]
        exact .inl (clean m (Int.not_lt.mp asked) g)
    · rw [there c same] at found
      rw [Server.ids, effect.others c same]
      refine (owned.recorded c reg found m g).imp_right ?_
      rintro ⟨asked, i, session, at_i, held, made⟩
      exact ⟨asked, i, session, at_i, effect.created.live held, made⟩
  · by_cases same : c = id
    · subst same
      rw [here] at found
      cases Option.some.inj found
      exact (effect.created.fresh session made).2
    · rw [there c same] at found
      have := owned.bounded c reg found session made
      have := effect.created.nextHandle_le
      omega
  · by_cases sameC : c = id
    · have sameD : d ≠ id := fun same => differs (sameC.trans same.symm)
      subst sameC
      rw [here] at found
      rw [there d sameD] at found'
      cases Option.some.inj found
      have := old d other sameD found' two madeTwo one madeOne
      omega
    · rw [there c sameC] at found
      by_cases sameD : d = id
      · subst sameD
        rw [here] at found'
        cases Option.some.inj found'
        have := old c reg sameC found one madeOne two madeTwo
        omega
      · rw [there d sameD] at found'
        exact owned.disjoint c d reg other differs found found' one madeOne two madeTwo

/-- Deleting `c` frees entries of `c` only. -/
theorem Owned.deleted {chs : Int} {history : List Event} {s after : Server}
    {c wiped : Fin maxClientNum} {outcome : Outcome} (owned : Owned chs history s)
    (active : s.Active c) (effect : DelEffect chs c wiped s after) :
    Owned chs ((.delClient c, outcome) :: history) after := by
  have gone : registration c ((.delClient c, outcome) :: history) = none := by
    rw [registration_del, if_pos rfl]
  have there : ∀ d, d ≠ c →
      registration d ((.delClient c, outcome) :: history) = registration d history :=
    fun d other => by rw [registration_del, if_neg other.symm]
  have found : ∀ d reg, registration d ((.delClient c, outcome) :: history) = some reg →
      d ≠ c ∧ registration d history = some reg := by
    intro d reg regD
    by_cases same : d = c
    · subst same
      rw [gone] at regD
      cases regD
    · exact ⟨same, (there d same).symm.trans regD⟩
  obtain ⟨old, regC⟩ := Option.isSome_iff_exists.mp ((owned.active_iff c).mp active)
  refine ⟨fun d => ?_, fun d reg regD m g => ?_, fun d reg regD session made => ?_,
    fun d e reg other differs regD regE => ?_, fun d m g outside => ?_⟩
  · rw [effect.active_iff]
    by_cases same : d = c
    · subst same
      rw [gone]
      exact ⟨fun both => absurd rfl both.1, fun isSome => by cases isSome⟩
    · rw [there d same, ← owned.active_iff d]
      exact and_iff_right same
  · obtain ⟨other, regD⟩ := found d reg regD
    rcases effect.ids_cases d m g with unset | ⟨_, kept⟩
    · exact .inl unset
    · rw [kept]
      refine (owned.recorded d reg regD m g).imp_right ?_
      rintro ⟨asked, i, session, at_i, held, made⟩
      have notOfC : ¬ Records (s.clients c).sessionPair 0 (groups chs) i := fun ⟨n, h, _, _, two⟩ =>
        owned.entry_unique other regD regC at_i two
      refine ⟨asked, i, session, at_i, ?_, made⟩
      rw [SessionMgr.live, effect.entry_kept i notOfC]
      exact held
  · rw [effect.nextHandle]
    exact owned.bounded d reg (found d reg regD).2 session made
  · exact owned.disjoint d e reg other differs (found d reg regD).2 (found e other regE).2
  · rcases effect.ids_cases d m g with unset | ⟨_, kept⟩
    · exact unset
    · rw [kept]
      exact owned.unused d m g outside

/-- One call that finds nothing left over keeps ownership. -/
theorem Owned.step {chs : Int} {history : List Event} {s after : Server} {event : Event}
    (owned : Owned chs history s) (clean : NothingLeftOver s event)
    (effect : Effect chs s event after) : Owned chs (event :: history) after := by
  cases effect with
  | add destIp baseVideoPort baseAudioPort adds =>
      cases adds with
      | noSlot busy =>
          exact owned.transport
            (fun c => if_neg fun (same : (-1 : Int) = c) => by omega)
            (fun _ => Iff.rfl) (fun _ _ => rfl) (fun _ _ held => held) (Nat.le_refl _) owned.unused
      | @failed ret created after id free code clientID effect =>
          have other : ∀ c, s.Active c → c ≠ id := fun c active same => free (same ▸ active)
          refine owned.transport
            (fun c => if_neg fun (same : ret = c) => by rcases code with code | code <;> omega)
            (fun c => ?_) (fun c active => ?_) (fun i session held => effect.created.live held)
            effect.created.nextHandle_le (effect.unused owned.unused)
          · by_cases same : c = id
            · subst same
              exact ⟨fun active => absurd clientID active, fun active => absurd active free⟩
            · rw [Server.Active, effect.others c same]
              exact Iff.rfl
          · rw [Server.ids, effect.others c (other c active)]
            rfl
      | added id free first effect done =>
          exact owned.added free (clean id free first) effect done
  | del c deletes =>
      cases deletes with
      | deleted wiped active effect => exact owned.deleted active effect
      | inactive free =>
          refine owned.transport (fun d => ?_) (fun _ => Iff.rfl) (fun _ _ => rfl)
            (fun _ _ held => held) (Nat.le_refl _) owned.unused
          rw [registration_del]
          by_cases same : c = d
          · subst same
            rw [if_pos rfl]
            cases found : registration c history with
            | none => rfl
            | some reg => exact absurd ((owned.active_iff c).mpr (by rw [found]; rfl)) free
          · rw [if_neg same]
  | setFlags value c chId active =>
      exact owned.transport (fun d => registration_set d c value chId _ history)
        (fun d => withFlags_active s c d _) (fun d _ => withFlags_ids s c d _)
        (fun _ _ held => held) (Nat.le_refl _)
        (fun d m g outside => by rw [withFlags_ids]; exact owned.unused d m g outside)
  | ignored value c chId inactive =>
      exact owned.transport (fun d => registration_set d c value chId _ history)
        (fun _ => Iff.rfl) (fun _ _ => rfl) (fun _ _ held => held) (Nat.le_refl _) owned.unused
  | send e done =>
      obtain ⟨clients_eq, live_eq, next_eq, _⟩ := sendLoop_cases done
      refine owned.transport (fun _ => rfl) (fun d => ?_) (fun d _ => ?_)
        (fun i session held => (live_eq i).trans held) (Nat.le_of_eq next_eq.symm)
        fun d m g outside => ?_
      · rw [Server.Active, clients_eq]
        exact Iff.rfl
      · rw [Server.ids, clients_eq]
        rfl
      · rw [Server.ids, clients_eq]
        exact owned.unused d m g outside

/-- Ownership along the runs in which every registration finds a clean slot. -/
theorem run_owned {chs : Int} {start s : Server} {history : List Event}
    (booted : Booted chs start)
    (run : Run (Guarded NothingLeftOver (Step chs)) start history s) : Owned chs history s := by
  refine run.invariant (Owned chs) ?_ fun _ owned step => owned.step step.1 step.2.effect
  obtain ⟨before, ssrc, pipeOk, ret, done⟩ := booted
  obtain ⟨_, inactive, unset⟩ := initSessionTsk_cases done
  exact ⟨fun c => ⟨fun active => absurd active (inactive c), fun isSome => by cases isSome⟩,
    fun _ _ found => (nomatch found), fun _ _ found => (nomatch found),
    fun _ _ _ _ _ found => (nomatch found), fun c m g _ => unset c m g⟩

/-- What is sent from tables that are owned is isolated. -/
theorem Owned.isolation {chs : Int} {history : List Event} {s : Server}
    (owned : Owned chs history s) : StreamIsolation history s := by
  intro e sends after done send member sent sent_eq
  obtain ⟨active, ⟨g, _, id_eq⟩, _, _, onLive⟩ := (sendLoop_cases done).2.2.2 send member
  obtain ⟨i, at_i, held⟩ := onLive sent sent_eq
  obtain ⟨reg, regC⟩ := Option.isSome_iff_exists.mp ((owned.active_iff send.client).mp active)
  rcases owned.recorded send.client reg regC (mediumOf e.dataType) g with unset | recorded
  · omega
  obtain ⟨asked, j, session, at_j, held', made, payload⟩ := recorded
  have same : i = j := Fin.ext (by omega)
  subst same
  rw [held] at held'
  cases Option.some.inj held'
  refine ⟨⟨reg, regC, made, payload, asked⟩, fun d differs other regD made' => ?_⟩
  exact owned.disjoint send.client d reg other differs.symm regC regD _ made _ made' rfl

/-- Stream isolation: from `rtp_init` and `init_session_tsk` on, as long as
every registration finds nothing left over in its slot, a frame sent for a
client leaves on a session that the client's own registration created for that
medium, and that no other client's registration created. -/
theorem stream_isolation_of_clean_slots {chs : Int} {start s : Server} {history : List Event}
    (booted : Booted chs start)
    (run : Run (Guarded NothingLeftOver (Step chs)) start history s) :
    StreamIsolation history s :=
  (run_owned booted run).isolation

/-- Two clients that ask for both media, one after the other in one slot. -/
theorem stream_isolation_of_clean_slots_reused :
    ∃ result, traceChecked NothingLeftOver 16 [.addClient "10.0.0.1" 5000 7000, .openChannel 0 255,
      .delClient 0, .addClient "10.0.0.2" 5000 7000, .openChannel 0 3,
      .sendToClient ⟨cmdSessionBuffer, 3, 0, 0, 100⟩] = some result ∧
        StreamIsolation result.1 result.2 := by
  obtain ⟨result, traced⟩ := Option.isSome_iff_exists.mp
    (show (traceChecked NothingLeftOver 16 [.addClient "10.0.0.1" 5000 7000, .openChannel 0 255,
      .delClient 0, .addClient "10.0.0.2" 5000 7000, .openChannel 0 3,
      .sendToClient ⟨cmdSessionBuffer, 3, 0, 0, 100⟩]).isSome = true by decide)
  obtain ⟨start, booted, run⟩ := traceChecked_run traced
  exact ⟨result, traced, stream_isolation_of_clean_slots booted run⟩

/-- Some frame leaves on a live session for a client that was not registered for
its medium. -/
def leaks (history : List Event) (s : Server) (e : SessionElement) : Bool :=
  (sendToClient s e).any fun (sends, _) => sends.any fun send =>
    send.sent.isSome && (registration send.client history).all fun reg =>
      decide (reg.base (mediumOf e.dataType) ≤ 0)

theorem StreamIsolation.no_leak {history : List Event} {s : Server}
    (isolated : StreamIsolation history s) (e : SessionElement) : leaks history s e = false := by
  unfold leaks
  cases done : sendToClient s e with
  | none => rfl
  | some result =>
      obtain ⟨sends, after⟩ := result
      rw [Option.any_some, List.any_eq_false]
      intro send member
      rw [Bool.and_eq_true, not_and]
      intro isSome isLow
      obtain ⟨sent, sent_eq⟩ := Option.isSome_iff_exists.mp isSome
      obtain ⟨reg, found, _, _, asked⟩ := (isolated e sends after done send member sent sent_eq).own
      rw [found, Option.all_some, decide_eq_true_eq] at isLow
      omega

/-- A client that asked for video on port 5000 leaves; the next owner of its slot
asks for nothing and opens channel 0, and one more client asks for video.  Then
a video frame leaves for the second client on a session of the third. -/
theorem stream_isolation_fails : ¬ ∀ (chs : Int) (start s : Server) (history : List Event),
    0 < chs → chs ≤ maxVideoChannel → chs % chsPerSession = 0 → Booted chs start →
      Run (Step chs) start history s → StreamIsolation history s := by
  intro claim
  have leaked : ((trace 16 [.addClient "10.0.0.1" 5000 (-1), .delClient 0,
      .addClient "10.0.0.2" (-1) (-1), .addClient "10.0.0.3" 6000 (-1), .openChannel 0 0]).any
        fun (history, s) => leaks history s ⟨cmdSessionBuffer, 0, 0, 0, 100⟩) = true := by
    decide
  obtain ⟨⟨history, s⟩, traced, leak⟩ := (Option.any_eq_true _ _).mp leaked
  obtain ⟨start, booted, run⟩ := trace_run traced
  have isolated := claim 16 start s history (by decide) (by decide) (by decide) booted run
  exact absurd ((isolated.no_leak _).symm.trans leak) Bool.false_ne_true

end DvsServer.Core.Session
