import DvsServer.Core.SessionOps
import DvsServer.Lib.Run

/-!
# Runs of the client table

The operations executed one call at a time, in any order and with any
arguments.  A run exists as long as every call stays inside the arrays.
-/

namespace DvsServer.Core.Session

open DvsServer.Lib DvsServer.Com.RtpSend

inductive Op where
  | addClient (destIp : String) (baseVideoPort baseAudioPort : Int)
  | delClient (clientId : Int)
  | openChannel (clientID chId : Int)
  | closeChannel (clientID chId : Int)
  | sendToClient (e : SessionElement)

/-- The return value of a call, the sessions it created and the frames it sent. -/
structure Outcome where
  ret : Int
  created : List RtpSession
  sends : List ClientSend

abbrev Event := Op × Outcome

def exec (chs : Int) (s : Server) : Op → Option (Outcome × Server)
  | .addClient destIp baseVideoPort baseAudioPort =>
      (addClient chs s destIp baseVideoPort baseAudioPort).map fun adding =>
        (⟨adding.ret, adding.created, []⟩, adding.server)
  | .delClient clientId => (delClient chs s clientId).map fun (ret, s) => (⟨ret, [], []⟩, s)
  | .openChannel clientID chId =>
      (openChannel s clientID chId).map fun (ret, s) => (⟨ret, [], []⟩, s)
  | .closeChannel clientID chId =>
      (closeChannel s clientID chId).map fun (ret, s) => (⟨ret, [], []⟩, s)
  | .sendToClient e => (sendToClient s e).map fun (sends, s) => (⟨0, [], sends⟩, s)

def Step (chs : Int) : Server → Event → Server → Prop := ExecStep (exec chs)

/-- The server after `init_session_tsk`, whatever the session table holds. -/
def Initialised (chs : Int) (s : Server) : Prop :=
  ∃ before pipeOk ret, initSessionTsk chs pipeOk before = some (ret, s)

/-- The server after `rtp_init` and then `init_session_tsk`. -/
def Booted (chs : Int) (s : Server) : Prop :=
  ∃ (before : Server) (ssrc : Option Int) (pipeOk : Nat → Bool) (ret : Int),
    initSessionTsk chs pipeOk { before with rtp := rtpInit ssrc before.rtp } = some (ret, s)

theorem Booted.initialised {chs : Int} {s : Server} (booted : Booted chs s) :
    Initialised chs s := by
  obtain ⟨before, ssrc, pipeOk, ret, done⟩ := booted
  exact ⟨_, pipeOk, ret, done⟩

theorem initSessionTsk_cases {chs ret : Int} {pipeOk : Nat → Bool} {s after : Server}
    (done : initSessionTsk chs pipeOk s = some (ret, after)) :
    after.rtp = s.rtp ∧ (∀ c, ¬ after.Active c) ∧ ∀ c m g, after.ids c m g = -1 := by
  unfold initSessionTsk at done
  dsimp only at done
  split at done
  · cases done
  · cases Option.some.inj done
    exact ⟨rfl, fun c active => active rfl, fun c m g => unset_ids m g⟩

/-- The server's memory before `main`: every byte of it is zero. -/
def Server.zero : Server :=
  ⟨fun _ => ⟨0, fun _ => false, ⟨fun _ => 0, fun _ => 0⟩⟩, ⟨fun _ => ⟨none, 0, 0⟩, none, 0⟩⟩

/-- The server `main` has set up when `SSRC` is not set and no `pipe` fails. -/
def boot (chs : Int) : Option Server :=
  (initSessionTsk chs (fun _ => true)
    { Server.zero with rtp := rtpInit none Server.zero.rtp }).map Prod.snd

theorem boot_booted {chs : Int} {s : Server} (done : boot chs = some s) : Booted chs s := by
  obtain ⟨⟨ret, after⟩, init, same⟩ := Option.map_eq_some_iff.mp done
  cases same
  exact ⟨_, none, _, ret, init⟩

/-- Run calls one after the other on a server that has just been set up. -/
def trace (chs : Int) (ops : List Op) : Option (List Event × Server) :=
  (boot chs).bind fun s => execAll (exec chs) ops ([], s)

theorem trace_run {chs : Int} {ops : List Op} {result : List Event × Server}
    (done : trace chs ops = some result) :
    ∃ start, Booted chs start ∧ Run (Step chs) start result.1 result.2 := by
  obtain ⟨start, booted, executed⟩ := Option.bind_eq_some_iff.mp done
  exact ⟨start, boot_booted booted, execAll_run .nil executed⟩

/-- The same for calls whose guard is checked. -/
def traceChecked (guard : Server → Event → Prop) [∀ s event, Decidable (guard s event)]
    (chs : Int) (ops : List Op) : Option (List Event × Server) :=
  (boot chs).bind fun s => execAll (checked guard (exec chs)) ops ([], s)

theorem traceChecked_run {guard : Server → Event → Prop} [∀ s event, Decidable (guard s event)]
    {chs : Int} {ops : List Op} {result : List Event × Server}
    (done : traceChecked guard chs ops = some result) :
    ∃ start, Booted chs start ∧ Run (Guarded guard (Step chs)) start result.1 result.2 := by
  obtain ⟨start, booted, executed⟩ := Option.bind_eq_some_iff.mp done
  exact ⟨start, boot_booted booted, (execAll_run .nil executed).mono ExecStep.guarded⟩

/-! ## What every call keeps -/

/-- An active slot's `clientID` is its own index, and only valid IDs are recorded. -/
structure ClientsOk (s : Server) : Prop where
  own : ∀ c, s.Active c → (s.clients c).clientID = c
  valid : ∀ c m g, ValidID (s.ids c m g)

theorem Initialised.clientsOk {chs : Int} {s : Server} (init : Initialised chs s) :
    ClientsOk s := by
  obtain ⟨before, pipeOk, ret, done⟩ := init
  obtain ⟨_, inactive, unset⟩ := initSessionTsk_cases done
  exact ⟨fun c active => absurd active (inactive c), fun c m g => .inl (unset c m g)⟩

theorem Booted.free {chs : Int} {s : Server} (booted : Booted chs s) (i : Fin maxSessionNum) :
    s.rtp.live i = none := by
  obtain ⟨before, ssrc, pipeOk, ret, done⟩ := booted
  rw [(initSessionTsk_cases done).1]
  rfl

theorem Booted.handlesOk {chs : Int} {s : Server} (booted : Booted chs s) : HandlesOk s.rtp := by
  refine ⟨fun i session held => ?_, fun i j one two held => ?_⟩
  · rw [booted.free i] at held
    cases held
  · rw [booted.free i] at held
    cases held

/-- The calls seen through their specifications. -/
inductive Effect (chs : Int) (s : Server) : Event → Server → Prop where
  | add {adding : Adding} (destIp : String) (baseVideoPort baseAudioPort : Int)
      (adds : Adds chs s (basePort baseVideoPort baseAudioPort) adding) :
      Effect chs s (.addClient destIp baseVideoPort baseAudioPort, ⟨adding.ret, adding.created, []⟩)
        adding.server
  | del {ret : Int} {after : Server} (c : Fin maxClientNum) (deletes : Deletes chs s c (ret, after)) :
      Effect chs s (.delClient c, ⟨ret, [], []⟩) after
  | setFlags (value : Bool) (c : Fin maxClientNum) (chId : Int) (active : s.Active c) :
      Effect chs s (if value then .openChannel c chId else .closeChannel c chId, ⟨-1, [], []⟩)
        (s.withFlags c (storeFlags value chId (s.clients c).flag))
  | ignored (value : Bool) (c : Fin maxClientNum) (chId : Int) (inactive : ¬ s.Active c) :
      Effect chs s (if value then .openChannel c chId else .closeChannel c chId, ⟨-1, [], []⟩) s
  | send {sends : List ClientSend} {after : Server} (e : SessionElement)
      (done : sendToClient s e = some (sends, after)) :
      Effect chs s (.sendToClient e, ⟨0, [], sends⟩) after

theorem exec_effect {chs : Int} {s after : Server} {op : Op} {outcome : Outcome}
    (step : exec chs s op = some (outcome, after)) : Effect chs s (op, outcome) after := by
  have flags : ∀ (value : Bool) {clientID chId : Int} {op : Op} {outcome : Outcome},
      (∀ c : Fin maxClientNum, clientID = c →
        op = if value then .openChannel c chId else .closeChannel c chId) →
      (setChannel value s clientID chId).map (fun (ret, s) => (Outcome.mk ret [] [], s)) =
        some (outcome, after) → Effect chs s (op, outcome) after := by
    intro value clientID chId op outcome op_eq done
    obtain ⟨⟨ret, next⟩, called, same⟩ := Option.map_eq_some_iff.mp done
    cases same
    obtain ⟨c, clientID_eq, rfl, ⟨inactive, rfl⟩ | ⟨active, rfl⟩⟩ := setChannel_cases called
    · rw [op_eq c clientID_eq]
      exact .ignored value c chId inactive
    · rw [op_eq c clientID_eq]
      exact .setFlags value c chId active
  cases op with
  | addClient destIp baseVideoPort baseAudioPort =>
      obtain ⟨adding, done, same⟩ := Option.map_eq_some_iff.mp step
      cases same
      exact .add destIp baseVideoPort baseAudioPort (addClient_cases done)
  | delClient clientId =>
      obtain ⟨⟨ret, next⟩, done, same⟩ := Option.map_eq_some_iff.mp step
      cases same
      obtain ⟨c, rfl, deletes⟩ := delClient_cases done
      exact .del c deletes
  | openChannel clientID chId => exact flags true (fun c same => same ▸ rfl) step
  | closeChannel clientID chId => exact flags false (fun c same => same ▸ rfl) step
  | sendToClient e =>
      obtain ⟨⟨sends, next⟩, done, same⟩ := Option.map_eq_some_iff.mp step
      cases same
      exact .send e done

theorem Step.effect {chs : Int} {s after : Server} {event : Event}
    (step : Step chs s event after) : Effect chs s event after :=
  exec_effect step

theorem AddEffect.clientsOk {chs : Int} {base : Medium → Int} {id : Fin maxClientNum}
    {s after : Server} {created : List RtpSession} (effect : AddEffect chs base id s after created)
    (clientID : after.Active id → (after.clients id).clientID = id) (ok : ClientsOk s) :
    ClientsOk after := by
  refine ⟨fun c active => ?_, fun c m g => ?_⟩
  · by_cases same : c = id
    · subst same
      exact clientID active
    · rw [Server.Active, effect.others c same] at active
      rw [effect.others c same]
      exact ok.own c active
  · by_cases same : c = id
    · subst same
      exact effect.valid m g (ok.valid c m g)
    · rw [Server.ids, effect.others c same]
      exact ok.valid c m g

theorem DelEffect.ids_cases {chs : Int} {c wiped : Fin maxClientNum} {s after : Server}
    (effect : DelEffect chs c wiped s after) (d : Fin maxClientNum) (m : Medium)
    (g : Fin maxGroupNum) : after.ids d m g = -1 ∨ (d ≠ wiped ∧ after.ids d m g = s.ids d m g) := by
  by_cases same : d = wiped
  · exact .inl (same ▸ effect.ids_wiped m g)
  · exact .inr ⟨same, by rw [Server.ids, effect.ids_kept d same]; rfl⟩

theorem DelEffect.active_iff {chs : Int} {c wiped : Fin maxClientNum} {s after : Server}
    (effect : DelEffect chs c wiped s after) (d : Fin maxClientNum) :
    after.Active d ↔ d ≠ c ∧ s.Active d := by
  by_cases same : d = c
  · subst same
    exact ⟨fun active => absurd effect.clientID active, fun both => absurd rfl both.1⟩
  · rw [Server.Active, effect.clientID_kept d same]
    exact ⟨fun active => ⟨same, active⟩, And.right⟩

/-- What an entry holds after a deletion it held before. -/
theorem DelEffect.live_kept {chs : Int} {c wiped : Fin maxClientNum} {s after : Server}
    (effect : DelEffect chs c wiped s after) {i : Fin maxSessionNum} {session : RtpSession}
    (held : after.rtp.live i = some session) :
    s.rtp.live i = some session ∧ ¬ Records (s.clients c).sessionPair 0 (groups chs) i := by
  by_cases recorded : Records (s.clients c).sessionPair 0 (groups chs) i
  · rw [effect.freed i recorded] at held
    cases held
  · rw [SessionMgr.live, effect.entry_kept i recorded] at held
    exact ⟨held, recorded⟩

theorem Effect.clientsOk {chs : Int} {s after : Server} {event : Event}
    (effect : Effect chs s event after) (ok : ClientsOk s) : ClientsOk after := by
  cases effect with
  | add destIp baseVideoPort baseAudioPort adds =>
      cases adds with
      | noSlot => exact ok
      | failed id free code clientID effect =>
          exact effect.clientsOk (fun active => absurd clientID active) ok
      | added id free first effect done => exact effect.clientsOk (fun _ => done.clientID) ok
  | del c deletes =>
      cases deletes with
      | inactive => exact ok
      | deleted wiped active effect =>
          refine ⟨fun d active => ?_, fun d m g => ?_⟩
          · obtain ⟨other, before⟩ := (effect.active_iff d).mp active
            rw [effect.clientID_kept d other]
            exact ok.own d before
          · rcases effect.ids_cases d m g with unset | ⟨_, kept⟩
            · exact .inl unset
            · rw [kept]
              exact ok.valid d m g
  | setFlags value c chId active =>
      refine ⟨fun d active => ?_, fun d m g => ?_⟩
      · rw [withFlags_active] at active
        rw [withFlags_clientID]
        exact ok.own d active
      · rw [withFlags_ids]
        exact ok.valid d m g
  | ignored => exact ok
  | send e done =>
      obtain ⟨clients_eq, _⟩ := sendLoop_cases done
      refine ⟨fun d active => ?_, fun d m g => ?_⟩
      · rw [Server.Active, clients_eq] at active
        rw [clients_eq]
        exact ok.own d active
      · rw [Server.ids, clients_eq]
        exact ok.valid d m g

/-- Handles stay valid where every held object was held before and no handle is forgotten. -/
theorem HandlesOk.shrink {before after : SessionMgr} (ok : HandlesOk before)
    (nextHandle : after.nextHandle = before.nextHandle)
    (held : ∀ i session, after.live i = some session → before.live i = some session) :
    HandlesOk after := by
  refine ⟨fun i session found => ?_, fun i j one two foundOne foundTwo => ?_⟩
  · rw [nextHandle]
    exact ok.bounded i session (held i session found)
  · exact ok.distinct i j one two (held i one foundOne) (held j two foundTwo)

theorem Effect.handlesOk {chs : Int} {s after : Server} {event : Event}
    (effect : Effect chs s event after) (ok : HandlesOk s.rtp) : HandlesOk after.rtp := by
  cases effect with
  | add destIp baseVideoPort baseAudioPort adds =>
      cases adds with
      | noSlot => exact ok
      | failed id free code clientID effect => exact effect.created.handles ok
      | added id free first effect done => exact effect.created.handles ok
  | del c deletes =>
      cases deletes with
      | inactive => exact ok
      | deleted wiped active effect =>
          exact ok.shrink effect.nextHandle fun i session held => (effect.live_kept held).1
  | setFlags => exact ok
  | ignored => exact ok
  | send e done =>
      obtain ⟨_, live_eq, next_eq, _⟩ := sendLoop_cases done
      exact ok.shrink next_eq fun i session held => (live_eq i).symm.trans held

/-- Only its own deletion makes an active client inactive. -/
theorem Effect.active_kept {chs : Int} {s after : Server} {event : Event} {c : Fin maxClientNum}
    (effect : Effect chs s event after) (active : s.Active c) (kept : event.1 ≠ .delClient c) :
    after.Active c := by
  cases effect with
  | add destIp baseVideoPort baseAudioPort adds =>
      cases adds with
      | noSlot => exact active
      | failed id free code clientID effect =>
          rw [Server.Active, effect.others c fun same => free (same ▸ active)]
          exact active
      | added id free first effect done =>
          rw [Server.Active, effect.others c fun same => free (same ▸ active)]
          exact active
  | del d deletes =>
      cases deletes with
      | inactive => exact active
      | deleted wiped activeD effect =>
          exact (effect.active_iff c).mpr ⟨fun same => kept (same ▸ rfl), active⟩
  | setFlags value d chId => exact (withFlags_active s d c _).mpr active
  | ignored => exact active
  | send e done =>
      rw [Server.Active, (sendLoop_cases done).1]
      exact active

/-- `add_client` returns a slot that was free and is active now. -/
theorem Effect.added {chs : Int} {s after : Server} {destIp : String} {videoPort audioPort : Int}
    {outcome : Outcome} {c : Fin maxClientNum}
    (effect : Effect chs s (.addClient destIp videoPort audioPort, outcome) after)
    (returned : outcome.ret = c) : ¬ s.Active c ∧ after.Active c := by
  generalize event_eq : ((.addClient destIp videoPort audioPort, outcome) : Event) = event at effect
  cases effect with
  | add _ _ _ adds =>
      injection event_eq with _ outcome_eq
      rw [outcome_eq] at returned
      cases adds with
      | noSlot =>
          have ret_eq : (-1 : Int) = c := returned
          omega
      | @failed ret created after id free code clientID effect =>
          have ret_eq : ret = c := returned
          omega
      | added id free first effect done =>
          have same : c = id := Fin.ext (by have ret_eq : (id.val : Int) = c := returned; omega)
          subst same
          refine ⟨free, fun inactive => ?_⟩
          rw [done.clientID] at inactive
          omega
  | del => cases event_eq
  | setFlags value => cases value <;> cases event_eq
  | ignored value => cases value <;> cases event_eq
  | send => cases event_eq

/-- `del_client` leaves its slot inactive. -/
theorem Effect.deleted {chs : Int} {s after : Server} {outcome : Outcome} {c : Fin maxClientNum}
    (effect : Effect chs s (.delClient c, outcome) after) : ¬ after.Active c := by
  generalize event_eq : ((.delClient c, outcome) : Event) = event at effect
  cases effect with
  | del d deletes =>
      injection event_eq with op_eq
      injection op_eq with slot_eq
      have same : c = d := Fin.ext (by omega)
      subst same
      cases deletes with
      | inactive free => exact free
      | deleted wiped active effect => exact fun still => ((effect.active_iff c).mp still).1 rfl
  | add => cases event_eq
  | setFlags value => cases value <;> cases event_eq
  | ignored value => cases value <;> cases event_eq
  | send => cases event_eq

theorem run_clientsOk {chs : Int} {start s : Server} {history : List Event}
    (run : Run (Step chs) start history s) (ok : ClientsOk start) : ClientsOk s :=
  run.invariant (fun _ s => ClientsOk s) ok fun _ ok step => step.effect.clientsOk ok

theorem run_handlesOk {chs : Int} {start s : Server} {history : List Event}
    (run : Run (Step chs) start history s) (ok : HandlesOk start.rtp) : HandlesOk s.rtp :=
  run.invariant (fun _ s => HandlesOk s.rtp) ok fun _ ok step => step.effect.handlesOk ok

end DvsServer.Core.Session
