import DvsServer.Core.AddSteps
import DvsServer.Core.Isolation

/-!
# Two registrations at once

Two connection threads execute `add_client` on the same tables, and nothing
keeps their steps apart: a slot is free until its registration is complete, and
an entry of the session table is free until its session is published.  Where
one thread does not choose its slot between the other's choice and its store of
the client ID, the calls take effect one after the other and cannot collide.
-/

namespace DvsServer.Core.Session

open DvsServer.Lib DvsServer.Com.RtpSend

inductive Side where
  | one
  | two
deriving DecidableEq

def Side.other : Side → Side
  | .one => .two
  | .two => .one

/-- The tables and the two threads. -/
structure Pair where
  server : Server
  pc : Side → Adder

def Pair.move (p : Pair) (side : Side) (next : Adder) (after : Server) : Pair :=
  ⟨after, Function.update p.pc side next⟩

/-- One thread makes a step. -/
def pairExec (chs : Int) (calls : Side → AddCall) (p : Pair) (side : Side) :
    Option (AddAct × Pair) :=
  match addStep chs (calls side) (p.pc side) p.server with
  | none => none
  | some (act, next, after) => some (act, p.move side next after)

/-- Two successful calls return different slots that share no session, and no
publication overwrote a session. -/
def NoCollision (chs : Int) (history : List (Side × AddAct)) (p : Pair) : Prop :=
  ∀ ret ret', p.pc .one = .returned ret → p.pc .two = .returned ret' → 0 ≤ ret → 0 ≤ ret' →
    ret ≠ ret' ∧
      (∀ c d : Fin maxClientNum, ret = c → ret' = d → ∀ i,
        ¬ (p.server.Recorded chs c i ∧ p.server.Recorded chs d i)) ∧
      ∀ event ∈ history, event.2.Clean

/-- Not between the choice of a slot and the store of the client ID there. -/
def Adder.settled : Adder → Bool
  | .start => true
  | .finish _ => true
  | .returned _ => true
  | _ => false

/-- The call finds nothing left over in the slot it is about to choose. -/
def AddCall.Tidy (call : AddCall) (s : Server) : Prop :=
  NothingLeftOver s (.addClient call.destIp call.baseVideoPort call.baseAudioPort, ⟨0, [], []⟩)

instance (call : AddCall) (s : Server) : Decidable (call.Tidy s) :=
  inferInstanceAs (Decidable (NothingLeftOver _ _))

/-- A thread chooses its slot while the other one has not chosen its own or has
marked it already, and finds nothing left over in it. -/
def Apart (calls : Side → AddCall) (p : Pair) : Side × AddAct → Prop
  | (side, .scan _) => (p.pc side.other).settled = true ∧ (calls side).Tidy p.server
  | _ => True

instance (calls : Side → AddCall) (p : Pair) : (event : Side × AddAct) →
    Decidable (Apart calls p event)
  | (side, .scan _) =>
      inferInstanceAs (Decidable ((p.pc side.other).settled = true ∧ (calls side).Tidy p.server))
  | (_, .alloc _) => .isTrue trivial
  | (_, .create _) => .isTrue trivial
  | (_, .publish _ _ _) => .isTrue trivial
  | (_, .record _) => .isTrue trivial
  | (_, .mark) => .isTrue trivial
  | (_, .finish) => .isTrue trivial

@[simp] theorem Side.other_other (side : Side) : side.other.other = side := by
  cases side <;> rfl

theorem Side.other_ne (side : Side) : side.other ≠ side := by
  cases side <;> decide

theorem Side.eq_or (side mover : Side) : mover = side ∨ mover = side.other := by
  cases side <;> cases mover <;> first | exact .inl rfl | exact .inr rfl

@[simp] theorem move_server (p : Pair) (side : Side) (next : Adder) (after : Server) :
    (p.move side next after).server = after := rfl

@[simp] theorem move_self (p : Pair) (side : Side) (next : Adder) (after : Server) :
    (p.move side next after).pc side = next :=
  Function.update_self _ _ _

@[simp] theorem move_other (p : Pair) (side : Side) (next : Adder) (after : Server) :
    (p.move side next after).pc side.other = p.pc side.other :=
  Function.update_of_ne side.other_ne _ _

@[simp] theorem move_by_other (p : Pair) (side : Side) (next : Adder) (after : Server) :
    (p.move side.other next after).pc side = p.pc side :=
  Function.update_of_ne side.other_ne.symm _ _

/-! ## The last store of a call -/

/-- The last store of `add_client`: no channel of the slot is open. -/
def Server.clearFlags (s : Server) (id : Fin maxClientNum) : Server :=
  s.setClient id { s.clients id with flag := fun _ => false }

@[simp] theorem clearFlags_clientID (s : Server) (id c : Fin maxClientNum) :
    ((s.clearFlags id).clients c).clientID = (s.clients c).clientID := by
  by_cases same : c = id
  · simp [Server.clearFlags, Server.setClient, same]
  · simp [Server.clearFlags, Server.setClient, same]

@[simp] theorem clearFlags_ids (s : Server) (id c : Fin maxClientNum) :
    (s.clearFlags id).ids c = s.ids c := by
  by_cases same : c = id
  · simp [Server.clearFlags, Server.setClient, Server.ids, same]
  · simp [Server.clearFlags, Server.setClient, Server.ids, same]

theorem clearFlags_of_ne (s : Server) {own id : Fin maxClientNum} (differs : own ≠ id) :
    (s.clearFlags id).clients own = s.clients own :=
  Function.update_of_ne differs _ _

/-- A store to another slot does not mind it. -/
theorem setClient_clearFlags (s : Server) {own id : Fin maxClientNum} (differs : own ≠ id)
    (client : ClientObj) :
    (s.clearFlags id).setClient own client = (s.setClient own client).clearFlags id := by
  unfold Server.clearFlags Server.setClient
  dsimp only
  rw [Function.update_of_ne differs.symm, Function.update_comm differs]

theorem AddCall.Tidy.clearFlags {call : AddCall} {s : Server} (tidy : call.Tidy s)
    (id : Fin maxClientNum) : call.Tidy (s.clearFlags id) := by
  intro own free first m unasked g
  rw [clearFlags_ids]
  refine tidy own ?_ (fun c below => ?_) m unasked g
  · rwa [Server.Active, clearFlags_clientID] at free
  · have active := first c below
    rwa [Server.Active, clearFlags_clientID] at active

/-- The thread has chosen, and not this slot. -/
def Adder.Elsewhere (id : Fin maxClientNum) : Adder → Prop
  | .start => False
  | .alloc own _ _ => own ≠ id
  | .create own _ _ _ => own ≠ id
  | .publish own _ _ _ _ => own ≠ id
  | .record own _ _ _ => own ≠ id
  | .mark own => own ≠ id
  | .finish own => own ≠ id
  | .returned _ => True

theorem loop_elsewhere (chs : Int) (call : AddCall) {own id : Fin maxClientNum} (differs : own ≠ id)
    (medium : Medium) (i : Nat) : (call.loop chs own medium i).Elsewhere id := by
  have audio : ∀ j, (call.audioLoop chs own j).Elsewhere id := fun j => by
    unfold AddCall.audioLoop
    split
    · exact differs
    · exact differs
  cases medium with
  | audio => exact audio i
  | video =>
      rw [AddCall.loop]
      split
      · exact differs
      · exact audio 0

/-- The choice of a slot is the same after the last store to a slot in use. -/
theorem addStep_scan_clearFlags {chs : Int} {call : AddCall} {s after : Server} {act : AddAct}
    {next : Adder} {id : Fin maxClientNum} (active : s.Active id)
    (step : addStep chs call .start s = some (act, next, after)) :
    next.Elsewhere id ∧ after = s ∧
      addStep chs call .start (s.clearFlags id) = some (act, next, s.clearFlags id) := by
  have scan : firstFree (fun client => client.clientID == -1) (s.clearFlags id).clients =
      firstFree (fun client => client.clientID == -1) s.clients := by
    cases found : firstFree (fun client => client.clientID == -1) s.clients with
    | none =>
        rw [firstFree_eq_none] at found ⊢
        simpa using found
    | some own =>
        rw [firstFree_eq_some] at found ⊢
        simpa using found
  unfold addStep at step ⊢
  dsimp only at step ⊢
  rw [scan]
  split at step
  · cases Option.some.inj step
    exact ⟨trivial, rfl, rfl⟩
  · rename_i own found
    cases Option.some.inj step
    refine ⟨loop_elsewhere chs call ?_ .video 0, rfl, rfl⟩
    rintro rfl
    have unused := (firstFree_eq_some.mp found).1
    exact active (by simpa using unused)

/-- The steps at another slot neither see nor undo it. -/
theorem addStep_clearFlags {chs : Int} {call : AddCall} {pc next : Adder} {s after : Server}
    {act : AddAct} {id : Fin maxClientNum} (elsewhere : pc.Elsewhere id)
    (step : addStep chs call pc s = some (act, next, after)) :
    next.Elsewhere id ∧ after.clients id = s.clients id ∧
      addStep chs call pc (s.clearFlags id) = some (act, next, after.clearFlags id) := by
  unfold addStep at step ⊢
  cases pc with
  | start => exact elsewhere.elim
  | alloc own medium i =>
      have table : (s.clearFlags id).rtp = s.rtp := rfl
      dsimp only at step ⊢
      rw [table]
      split at step
      · cases Option.some.inj step
        exact ⟨elsewhere, rfl, rfl⟩
      · cases Option.some.inj step
        exact ⟨elsewhere, rfl, rfl⟩
  | create own medium i newSessionID =>
      cases Option.some.inj step
      exact ⟨elsewhere, rfl, rfl⟩
  | publish own medium i newSessionID session =>
      cases Option.some.inj step
      exact ⟨elsewhere, rfl, rfl⟩
  | record own medium i ret =>
      have stored : ∀ g, (s.clearFlags id).recordID own medium g ret =
          (s.recordID own medium g ret).clearFlags id := by
        intro g
        unfold Server.recordID recordCreation
        dsimp only
        rw [clearFlags_of_ne s elsewhere]
        exact setClient_clearFlags s elsewhere _
      dsimp only at step ⊢
      split at step
      · cases step
      · cases Option.some.inj step
        refine ⟨?_, Function.update_of_ne elsewhere.symm _ _, ?_⟩
        · split
          · trivial
          · exact loop_elsewhere chs call elsewhere medium (i + 1)
        · rw [stored]
  | mark own =>
      cases Option.some.inj step
      refine ⟨elsewhere, Function.update_of_ne (Ne.symm elsewhere) _ _, ?_⟩
      dsimp only
      rw [clearFlags_of_ne s elsewhere, setClient_clearFlags s elsewhere]
  | finish own =>
      cases Option.some.inj step
      refine ⟨trivial, Function.update_of_ne (Ne.symm elsewhere) _ _, ?_⟩
      dsimp only
      rw [clearFlags_of_ne s elsewhere, setClient_clearFlags s elsewhere]
  | returned ret => cases step

/-! ## Guarded runs are serial -/

/-- One call is under way or done, or one is done, perhaps up to its last store,
and the other under way or done; each does what the sequential call does on the
tables it found. -/
inductive Serial (chs : Int) (calls : Side → AddCall) (s : Server) (p : Pair) : Prop where
  | first (side : Side) (made : List RtpSession) (waiting : p.pc side.other = .start)
      (fresh : p.pc side = .start → p.server = s)
      (tidy : p.pc side ≠ .start → (calls side).Tidy s)
      (ok : (calls side).Ok chs p.server (p.pc side))
      (rest : (calls side).remaining chs (p.pc side) made p.server = (calls side).add chs s)
  | overlap (side : Side) (id : Fin maxClientNum) (one : Adding) (made : List RtpSession)
      (done : (calls side).add chs s = some one) (marked : p.pc side = .finish id)
      (number : one.ret = (p.server.clients id).clientID)
      (tidy : (calls side).Tidy s) (tidy' : (calls side.other).Tidy one.server)
      (elsewhere : (p.pc side.other).Elsewhere id)
      (ok : (calls side.other).Ok chs (p.server.clearFlags id) (p.pc side.other))
      (rest : (calls side.other).remaining chs (p.pc side.other) made (p.server.clearFlags id) =
        (calls side.other).add chs one.server)
  | second (side : Side) (one : Adding) (made : List RtpSession)
      (done : (calls side).add chs s = some one) (returned : p.pc side = .returned one.ret)
      (tidy : (calls side).Tidy s) (tidy' : (calls side.other).Tidy one.server)
      (ok : (calls side.other).Ok chs p.server (p.pc side.other))
      (rest : (calls side.other).remaining chs (p.pc side.other) made p.server =
        (calls side.other).add chs one.server)

theorem addStep_scan {chs : Int} {call : AddCall} {s after : Server} {act : AddAct} {next : Adder}
    (step : addStep chs call .start s = some (act, next, after)) : ∃ id, act = .scan id := by
  unfold addStep at step
  dsimp only at step
  split at step
  · cases Option.some.inj step
    exact ⟨_, rfl⟩
  · cases Option.some.inj step
    exact ⟨_, rfl⟩

/-- A thread that has chosen its slot while the other waits. -/
theorem Serial.chosen {chs : Int} {calls : Side → AddCall} {after : Server} {p : Pair}
    {side : Side} {act : AddAct} {next : Adder} (waiting : p.pc side.other = .start)
    (tidy : (calls side).Tidy p.server)
    (step : addStep chs (calls side) .start p.server = some (act, next, after)) :
    act.Clean ∧ Serial chs calls p.server (p.move side next after) := by
  obtain ⟨started, ok, clean⟩ := addStep_ok (ok_start chs _ _) step
  obtain ⟨made, rest⟩ := addStep_remaining [] (ok_start chs _ _) step
  rw [remaining_start] at rest
  refine ⟨clean, .first side made ?_ (fun still => ?_) (fun _ => tidy) ?_ ?_⟩
  · rw [move_other]
    exact waiting
  · rw [move_self] at still
    rw [still] at started
    cases started
  · rw [move_self]
    exact ok
  · rw [move_self]
    exact rest

/-- Every step that keeps the choices apart keeps the run serial. -/
theorem Serial.step {chs : Int} {calls : Side → AddCall} {s after : Server} {p : Pair} {side : Side}
    {act : AddAct} {next : Adder} (serial : Serial chs calls s p)
    (apart : Apart calls p (side, act))
    (step : addStep chs (calls side) (p.pc side) p.server = some (act, next, after)) :
    act.Clean ∧ Serial chs calls s (p.move side next after) := by
  cases serial with
  | first mover made waiting fresh tidy ok rest =>
      by_cases scanning : p.pc side = .start
      · -- a thread chooses its slot, and the other one is not at work
        rw [scanning] at step
        obtain ⟨id, rfl⟩ := addStep_scan step
        obtain ⟨settled, tidyNow⟩ := apart
        rcases side.eq_or mover with same | same
        · subst same
          rw [← fresh scanning]
          exact Serial.chosen waiting tidyNow step
        · subst same
          rw [Side.other_other] at waiting
          cases pc_eq : p.pc side.other with
          | start =>
              rw [← fresh pc_eq]
              exact Serial.chosen pc_eq tidyNow step
          | returned ret =>
              obtain ⟨_, ok', clean⟩ := addStep_ok (ok_start chs _ _) step
              obtain ⟨made', rest'⟩ := addStep_remaining [] (ok_start chs _ _) step
              rw [remaining_start] at rest'
              rw [pc_eq] at rest
              refine ⟨clean, .second side.other ⟨ret, made, p.server⟩ made' rest.symm ?_
                (tidy (by simp [pc_eq])) ?_ ?_ ?_⟩
              · rw [move_other]
                exact pc_eq
              · rw [Side.other_other]
                exact tidyNow
              · rw [Side.other_other, move_self]
                exact ok'
              · rw [Side.other_other, move_self]
                exact rest'
          | finish slot =>
              rw [pc_eq] at ok rest
              have active : p.server.Active slot := by
                rw [Server.Active, ok]
                omega
              obtain ⟨elsewhere, rfl, step'⟩ := addStep_scan_clearFlags active step
              obtain ⟨_, ok', clean⟩ := addStep_ok (ok_start chs _ _) step'
              obtain ⟨made', rest'⟩ := addStep_remaining [] (ok_start chs _ _) step'
              rw [remaining_start] at rest'
              refine ⟨clean, .overlap side.other slot
                ⟨(p.server.clients slot).clientID, made, p.server.clearFlags slot⟩ made' rest.symm
                ?_ rfl (tidy (by simp [pc_eq])) ?_ ?_ ?_ ?_⟩
              · rw [move_other]
                exact pc_eq
              · rw [Side.other_other]
                exact tidyNow.clearFlags slot
              · rw [Side.other_other, move_self]
                exact elsewhere
              · rw [Side.other_other, move_self]
                exact ok'
              · rw [Side.other_other, move_self]
                exact rest'
          | _ => rw [pc_eq] at settled; cases settled
      · rcases mover.eq_or side with same | same
        · subst same
          obtain ⟨started, ok', clean⟩ := addStep_ok ok step
          obtain ⟨made', rest'⟩ := addStep_remaining made ok step
          refine ⟨clean, .first side made' ?_ (fun still => ?_) (fun _ => tidy scanning) ?_ ?_⟩
          · rw [move_other]
            exact waiting
          · rw [move_self] at still
            rw [still] at started
            cases started
          · rw [move_self]
            exact ok'
          · rw [move_self]
            exact rest'.trans rest
        · subst same
          exact absurd waiting scanning
  | overlap first slot one made done marked number tidy tidy' elsewhere ok rest =>
      rcases first.eq_or side with same | same
      · -- the last store
        subst same
        rw [marked] at step
        cases Option.some.inj step
        refine ⟨trivial, .second side one made done ?_ tidy tidy' ?_ ?_⟩
        · rw [move_self, number]
        · rw [move_other]
          exact ok
        · rw [move_other]
          exact rest
      · subst same
        obtain ⟨elsewhere', kept, step'⟩ := addStep_clearFlags elsewhere step
        obtain ⟨_, ok', clean⟩ := addStep_ok ok step'
        obtain ⟨made', rest'⟩ := addStep_remaining made ok step'
        refine ⟨clean, .overlap first slot one made' done ?_ ?_ tidy tidy' ?_ ?_ ?_⟩
        · rw [move_by_other]
          exact marked
        · rw [move_server, kept]
          exact number
        · rw [move_self]
          exact elsewhere'
        · rw [move_self]
          exact ok'
        · rw [move_self]
          exact rest'.trans rest
  | second first one made done returned tidy tidy' ok rest =>
      rcases first.eq_or side with same | same
      · subst same
        rw [returned] at step
        cases step
      · subst same
        obtain ⟨_, ok', clean⟩ := addStep_ok ok step
        obtain ⟨made', rest'⟩ := addStep_remaining made ok step
        refine ⟨clean, .second first one made' done ?_ tidy tidy' ?_ ?_⟩
        · rw [move_by_other]
          exact returned
        · rw [move_self]
          exact ok'
        · rw [move_self]
          exact rest'.trans rest

/-- Along the runs that keep the choices apart the calls take effect one after
the other, and every session is published to a free entry. -/
theorem run_serial {chs : Int} {calls : Side → AddCall} {s : Server} {p : Pair}
    {history : List (Side × AddAct)}
    (run : Run (Guarded (Apart calls) (ExecStep (pairExec chs calls))) ⟨s, fun _ => .start⟩
      history p) :
    (∀ event ∈ history, event.2.Clean) ∧ Serial chs calls s p := by
  refine run.invariant (fun history p => (∀ event ∈ history, event.2.Clean) ∧ Serial chs calls s p)
    ?_ ?_
  · refine ⟨fun _ inNil => absurd inNil List.not_mem_nil, ?_⟩
    exact .first .one [] rfl (fun _ => rfl) (fun impossible => absurd rfl impossible) trivial
      (remaining_start chs _ s)
  · intro before p event q _ holds step
    obtain ⟨side, act⟩ := event
    obtain ⟨apart, taken⟩ := step
    change pairExec chs calls p side = some (act, q) at taken
    unfold pairExec at taken
    split at taken
    · cases taken
    · rename_i act' next after step
      cases Option.some.inj taken
      obtain ⟨clean, serial⟩ := holds.2.step apart step
      refine ⟨fun event member => ?_, serial⟩
      rcases List.mem_cons.mp member with here | earlier
      · exact here ▸ clean
      · exact holds.1 event earlier

/-! ## Two calls in sequence -/

/-- What a successful call in a tidy slot records was free before it. -/
theorem AddDone.records_new {chs : Int} {base : Medium → Int} {id : Fin maxClientNum}
    {s after : Server} {created : List RtpSession} (handles : HandlesOk s.rtp)
    (effect : AddEffect chs base id s after created) (done : AddDone chs base id s after created)
    (tidy : ∀ m, base m ≤ 0 → ∀ g, s.ids id m g = -1) {i : Fin maxSessionNum}
    (recorded : after.Recorded chs id i) : s.rtp.live i = none ∧ after.rtp.live i ≠ none := by
  obtain ⟨m, g, _, below, at_i⟩ := recorded
  have ids_eq : after.ids id m g = i := at_i
  by_cases asked : base m > 0
  · obtain ⟨j, session, at_j, held, made, _⟩ := done.recorded m g (by rw [span, if_pos asked]; exact below)
    have same : i = j := Fin.ext (by omega)
    subst same
    refine ⟨?_, by rw [held]; simp⟩
    cases before : s.rtp.live i with
    | none => rfl
    | some old =>
        have still := effect.created.live before
        rw [held] at still
        cases Option.some.inj still
        have := handles.bounded i session before
        have := (effect.created.fresh session made).1
        omega
  · have kept := effect.ids_kept m g (by rw [span, if_neg asked]; exact Nat.zero_le _)
    have unset := tidy m (Int.not_lt.mp asked) g
    omega

/-- A successful sequential call, seen through its specification. -/
theorem add_succeeds {chs : Int} {call : AddCall} {s : Server} {adding : Adding}
    (done : call.add chs s = some adding) (success : 0 ≤ adding.ret) :
    ∃ id : Fin maxClientNum, adding.ret = id ∧ ¬ s.Active id ∧ (∀ c < id, s.Active c) ∧
      AddEffect chs call.base id s adding.server adding.created ∧
      AddDone chs call.base id s adding.server adding.created := by
  have adds := addClient_cases done
  cases adds with
  | noSlot =>
      have nonneg : (0 : Int) ≤ -1 := success
      omega
  | @failed ret created after id free code =>
      have nonneg : 0 ≤ ret := success
      omega
  | added id free first effect finished => exact ⟨id, rfl, free, first, effect, finished⟩

theorem sequence_apart {chs : Int} {call call' : AddCall} {s : Server} {one two : Adding}
    (handles : HandlesOk s.rtp) (done : call.add chs s = some one)
    (done' : call'.add chs one.server = some two) (tidy : call.Tidy s)
    (tidy' : call'.Tidy one.server) (success : 0 ≤ one.ret) (success' : 0 ≤ two.ret) :
    one.ret ≠ two.ret ∧ ∀ c d : Fin maxClientNum, one.ret = c → two.ret = d → ∀ i,
      ¬ (two.server.Recorded chs c i ∧ two.server.Recorded chs d i) := by
  obtain ⟨a, ret_a, freeA, firstA, effectA, doneA⟩ := add_succeeds done success
  obtain ⟨b, ret_b, freeB, firstB, effectB, doneB⟩ := add_succeeds done' success'
  have active : one.server.Active a := by
    rw [Server.Active, doneA.clientID]
    omega
  have differs : a ≠ b := fun same => freeB (same ▸ active)
  constructor
  · intro same
    exact differs (Fin.ext (by omega))
  · intro c d at_c at_d i both
    have same : c = a := Fin.ext (by omega)
    have same' : d = b := Fin.ext (by omega)
    subst same same'
    have recordedA : one.server.Recorded chs c i := by
      have recorded := both.1
      rw [Server.Recorded, effectB.others c differs] at recorded
      exact recorded
    have used := (doneA.records_new handles effectA (tidy c freeA firstA) recordedA).2
    have unused := (doneB.records_new (effectA.created.handles handles) effectB
      (tidy' d freeB firstB) both.2).1
    exact used unused

/-- From any tables the server can reach, two registrations never collide when
neither chooses its slot between the other's choice and its store of the client
ID, and both find nothing left over there. -/
theorem registrations_apart_never_collide {chs : Int} {boot s : Server} {calls : Side → AddCall}
    {before : List Event} {history : List (Side × AddAct)} {p : Pair} (booted : Booted chs boot)
    (reached : Run (Step chs) boot before s)
    (run : Run (Guarded (Apart calls) (ExecStep (pairExec chs calls))) ⟨s, fun _ => .start⟩
      history p) :
    NoCollision chs history p := by
  obtain ⟨clean, serial⟩ := run_serial run
  have handles := run_handlesOk reached booted.handlesOk
  intro ret ret' pc_one pc_two success success'
  have pc_of : ∀ side : Side, p.pc side = .returned (if side = .one then ret else ret') := by
    intro side
    cases side with
    | one => exact pc_one
    | two => exact pc_two
  cases serial with
  | first side made waiting =>
      rw [pc_of] at waiting
      cases waiting
  | overlap side slot one made done marked =>
      rw [pc_of] at marked
      cases marked
  | second side one made done returned tidy tidy' ok rest =>
      rw [pc_of] at rest
      cases side with
      | one =>
          rw [pc_one] at returned
          cases returned
          obtain ⟨differ, disjoint⟩ := sequence_apart handles done rest.symm tidy tidy' success success'
          exact ⟨differ, disjoint, clean⟩
      | two =>
          rw [pc_two] at returned
          cases returned
          obtain ⟨differ, disjoint⟩ := sequence_apart handles done rest.symm tidy tidy' success' success
          exact ⟨differ.symm, fun c d at_c at_d i both => disjoint d c at_d at_c i both.symm, clean⟩

/-- Two clients that both want video on port 5000. -/
def sameCalls (_ : Side) : AddCall := ⟨"10.0.0.1", 5000, -1⟩

/-- The second registration begins before the last store of the first, on a server
with four channels. -/
theorem registrations_apart_never_collide_overlap :
    ∃ result, (boot 4).bind (fun s => execAll (checked (Apart sameCalls) (pairExec 4 sameCalls))
      (List.replicate 6 .one ++ [.two, .one] ++ List.replicate 6 .two)
        ([], ⟨s, fun _ => .start⟩)) = some result ∧
        NoCollision 4 result.1 result.2 := by
  obtain ⟨result, executed⟩ := Option.isSome_iff_exists.mp
    (show ((boot 4).bind fun s => execAll (checked (Apart sameCalls) (pairExec 4 sameCalls))
      (List.replicate 6 .one ++ [.two, .one] ++ List.replicate 6 .two)
        ([], ⟨s, fun _ => .start⟩)).isSome = true by
        decide)
  obtain ⟨s, booted, ran⟩ := Option.bind_eq_some_iff.mp executed
  exact ⟨result, executed, registrations_apart_never_collide (boot_booted booted) .nil
    ((execAll_run .nil ran).mono ExecStep.guarded)⟩

/-- What a thread has returned. -/
def Adder.result : Adder → Option Int
  | .returned ret => some ret
  | _ => none

theorem Adder.result_eq {pc : Adder} {ret : Int} (found : pc.result = some ret) :
    pc = .returned ret := by
  cases pc <;> cases found
  rfl

/-- Both threads choose their slot before either has finished: both return 0. -/
theorem registrations_collide : ¬ ∀ (chs : Int) (start s : Server) (calls : Side → AddCall)
    (before : List Event) (history : List (Side × AddAct)) (p : Pair),
      0 < chs → chs ≤ maxVideoChannel → chs % chsPerSession = 0 → Booted chs start →
      Run (Step chs) start before s →
      Run (ExecStep (pairExec chs calls)) ⟨s, fun _ => .start⟩ history p →
        NoCollision chs history p := by
  intro claim
  have collided : ((boot 4).any fun s =>
      (execAll (pairExec 4 sameCalls)
        ([.one, .two] ++ List.replicate 6 .one ++ List.replicate 6 .two)
          ([], ⟨s, fun _ => .start⟩)).any fun (_, p) =>
            (p.pc .one).result == some 0 && (p.pc .two).result == some 0) = true := by
    decide
  obtain ⟨s, booted, collided⟩ := (Option.any_eq_true _ _).mp collided
  obtain ⟨⟨history, p⟩, ran, same⟩ := (Option.any_eq_true _ _).mp collided
  simp only [Bool.and_eq_true, beq_iff_eq] at same
  have apart := claim 4 s s sameCalls [] history p (by decide) (by decide) (by decide)
    (boot_booted booted) .nil (execAll_run .nil ran) 0 0 (Adder.result_eq same.1)
    (Adder.result_eq same.2) (by decide) (by decide)
  exact apart.1 rfl

end DvsServer.Core.Session
