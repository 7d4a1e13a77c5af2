import DvsServer.Core.SendDelete

/-!
# A thread alone computes the sequential function

The tables that the rest of a call leaves behind are the same before and after
each of its steps, as long as no other thread makes a step.  So a thread that
runs alone leaves the tables as `send_to_client` or `del_client` leaves them.
-/

namespace DvsServer.Core.Session

open DvsServer.Lib DvsServer.Com.RtpSend

/-! ## `send_to_client` -/

/-- The tables after the passes from slot `i` on. -/
def sendFrom (e : SessionElement) (i : Nat) (s : Server) : Option Server :=
  (sendLoop e ((List.finRange maxClientNum).drop i) s).map Prod.snd

/-- From the call of `rtp_send` on. -/
def sendTested (e : SessionElement) (c : Fin maxClientNum) (sessionID : Int) (s : Server) :
    Option Server :=
  match rtpSend s.rtp sessionID e.buffer e.len.toInt32 with
  | none => none
  | some sending => sendFrom e (c + 1) { s with rtp := sending.mgr }

/-- From the choice of the session on. -/
def sendRouted (e : SessionElement) (c : Fin maxClientNum) (s : Server) : Option Server :=
  match index? maxGroupNum (e.chId.toNat / chsPerSession : Nat) with
  | none => none
  | some g => sendTested e c (s.ids c (mediumOf e.dataType) g) s

/-- From the call of `check_channel` on. -/
def sendFlagged (e : SessionElement) (c : Fin maxClientNum) (clientID : Int) (s : Server) :
    Option Server :=
  match checkChannel s clientID e.chId.toNat with
  | none => none
  | some false => sendFrom e (c + 1) s
  | some true => sendRouted e c s

/-- The tables at the end of the call if nobody interferes. -/
def SendPc.remaining (e : SessionElement) : SendPc → Server → Option Server
  | .visit i, s => sendFrom e i s
  | .check c, s => sendFlagged e c (s.clients c).clientID s
  | .flag c clientID, s => sendFlagged e c clientID s
  | .route c, s => sendRouted e c s
  | .test c sessionID, s => sendTested e c sessionID s
  | .load c entry, s => sendFrom e (c + 1) { s with rtp := s.rtp.advance entry }
  | .send c entry _, s => sendFrom e (c + 1) { s with rtp := s.rtp.advance entry }
  | .sending c entry _, s => sendFrom e (c + 1) { s with rtp := s.rtp.advance entry }
  | .stamp c entry, s => sendFrom e (c + 1) { s with rtp := s.rtp.advance entry }
  | .done, s => some s

theorem sendFrom_end {e : SessionElement} {i : Nat} {s : Server}
    (outside : index? maxClientNum i = none) : sendFrom e i s = some s := by
  have ended : maxClientNum ≤ i := by
    by_contra below
    have inside := index?_val (⟨i, Nat.lt_of_not_le below⟩ : Fin maxClientNum)
    rw [outside] at inside
    cases inside
  rw [sendFrom, List.drop_eq_nil_of_le (by rw [List.length_finRange]; exact ended)]
  rfl

theorem drop_slot (c : Fin maxClientNum) :
    (List.finRange maxClientNum).drop c = c :: (List.finRange maxClientNum).drop (c + 1) := by
  rw [List.drop_eq_getElem_cons (by rw [List.length_finRange]; exact c.isLt), List.getElem_finRange]
  rfl

/-- One pass of the loop of `send_to_client`. -/
theorem sendFrom_slot (e : SessionElement) (c : Fin maxClientNum) (s : Server) :
    sendFrom e c s =
      if (s.clients c).clientID = -1 then sendFrom e (c + 1) s
      else sendFlagged e c (s.clients c).clientID s := by
  rw [sendFrom, drop_slot, sendLoop, sendFlagged]
  split
  · rfl
  · cases checkChannel s (s.clients c).clientID e.chId.toNat with
    | none => rfl
    | some flag =>
        cases flag with
        | false => rfl
        | true =>
            dsimp only [sendRouted]
            cases index? maxGroupNum (e.chId.toNat / chsPerSession : Nat) with
            | none => rfl
            | some g =>
                dsimp only [sendTested, Server.ids]
                cases rtpSend s.rtp ((s.clients c).sessionPair.ids (mediumOf e.dataType) g) e.buffer
                    e.len.toInt32 with
                | none => rfl
                | some sending =>
                    dsimp only [sendFrom]
                    cases sendLoop e ((List.finRange maxClientNum).drop (c + 1))
                        { s with rtp := sending.mgr } with
                    | none => rfl
                    | some result => rfl

theorem sendStep_remaining {e : SessionElement} {pc next : SendPc} {s after : Server}
    {act : SendAct} (step : sendStep e pc s = some (act, next, after)) :
    next.remaining e after = pc.remaining e s := by
  unfold sendStep at step
  cases pc with
  | visit i =>
      rw [SendPc.remaining]
      dsimp only at step
      split at step
      · rename_i outside
        cases Option.some.inj step
        rw [SendPc.remaining, sendFrom_end outside]
      · rename_i c inside
        have same : i = c := Int.ofNat.inj (index?_eq_some.mp inside)
        subst same
        rw [sendFrom_slot]
        split at step
        · rename_i unused
          cases Option.some.inj step
          rw [if_pos unused, SendPc.remaining]
        · rename_i used
          cases Option.some.inj step
          rw [if_neg used, SendPc.remaining]
  | check c =>
      cases Option.some.inj step
      rfl
  | flag c clientID =>
      dsimp only at step
      change next.remaining e after = sendFlagged e c clientID s
      rw [sendFlagged]
      cases flag : checkChannel s clientID e.chId.toNat with
      | none => rw [flag] at step; cases step
      | some opened =>
          rw [flag] at step
          cases opened with
          | false =>
              cases Option.some.inj step
              rfl
          | true =>
              cases Option.some.inj step
              rfl
  | route c =>
      dsimp only at step
      change next.remaining e after = sendRouted e c s
      rw [sendRouted]
      cases group : index? maxGroupNum (e.chId.toNat / chsPerSession : Nat) with
      | none => rw [group] at step; cases step
      | some g =>
          rw [group] at step
          cases Option.some.inj step
          rfl
  | test c sessionID =>
      dsimp only at step
      change next.remaining e after = sendTested e c sessionID s
      rw [sendTested]
      cases checked : checkedEntry sessionID with
      | none => rw [checked] at step; cases step
      | some target =>
          rw [checked] at step
          cases target with
          | none =>
              cases Option.some.inj step
              rw [SendPc.remaining, rtpSend, checked]
          | some entry =>
              dsimp only at step
              cases live : s.rtp.live entry with
              | none =>
                  rw [live] at step
                  cases Option.some.inj step
                  rw [SendPc.remaining, rtpSend_dead checked live]
              | some session =>
                  rw [live] at step
                  cases Option.some.inj step
                  rw [SendPc.remaining, rtpSend_live checked live]
  | load c entry =>
      cases Option.some.inj step
      rfl
  | send c entry session =>
      cases Option.some.inj step
      rfl
  | sending c entry session =>
      cases Option.some.inj step
      rfl
  | stamp c entry =>
      cases Option.some.inj step
      rfl
  | done => cases step

/-- The steps of a thread that runs alone. -/
def Alone {pc act : Type} (step : pc → Server → Option (act × pc × Server)) :
    pc × Server → act → pc × Server → Prop :=
  fun before event after => step before.1 before.2 = some (event, after.1, after.2)

theorem alone_sends {e : SessionElement} {s after : Server} {history : List SendAct}
    (run : Run (Alone (sendStep e)) (.visit 0, s) history (.done, after)) :
    (sendToClient s e).map Prod.snd = some after := by
  have kept : SendPc.remaining e .done after = SendPc.remaining e (.visit 0) s := by
    apply run.invariant fun _ at_ => at_.1.remaining e at_.2 = SendPc.remaining e (.visit 0) s
    · rfl
    · intro history before event next _ same step
      exact (sendStep_remaining step).trans same
  exact kept.symm

/-! ## `del_client` -/

/-- The loop of `del_client`, from group `i` and one of its two calls on. -/
def removeFrom (chs : Int) (pair : SessionPair) : Medium → Nat → SessionMgr → Option SessionMgr
  | .video, i, m => removeLoop pair (groups chs - i) i m
  | .audio, i, m =>
      if i < groups chs then
        match index? maxGroupNum i with
        | none => none
        | some g =>
            match removeSessionObj m (pair.audioIDs g) with
            | none => none
            | some (_, m) => removeLoop pair (groups chs - (i + 1)) (i + 1) m
      else some m

/-- What follows a call of `remove_session_obj`. -/
def removeNext (chs : Int) (pair : SessionPair) : Medium → Nat → SessionMgr → Option SessionMgr
  | .video, i, m => removeFrom chs pair .audio i m
  | .audio, i, m => removeFrom chs pair .video (i + 1) m

/-- The two calls of `memset` and the return. -/
def wiped (chs : Int) (s : Server) : Option (Int × Server) :=
  match index? maxClientNum (groups chs) with
  | none => none
  | some i => some (0, s.setClient i { s.clients i with sessionPair := .unset })

/-- From the end of the loop on. -/
def unmarked (chs : Int) (c : Fin maxClientNum) (s : Server) : Option SessionMgr → Option (Int × Server)
  | none => none
  | some m => wiped chs ({ s with rtp := m }.setClient c { s.clients c with clientID := -1 })

/-- The result of the call if nobody interferes. -/
def DelPc.remaining (chs : Int) (c : Fin maxClientNum) : DelPc → Server → Option (Int × Server)
  | .start, s => delClient chs s c
  | .pick medium i, s => unmarked chs c s (removeFrom chs (s.clients c).sessionPair medium i s.rtp)
  | .test medium i entry, s =>
      unmarked chs c s (removeNext chs (s.clients c).sessionPair medium i (s.rtp.store entry ⟨none, 0, 0⟩))
  | .destroy medium i entry, s =>
      unmarked chs c s (removeNext chs (s.clients c).sessionPair medium i (s.rtp.store entry ⟨none, 0, 0⟩))
  | .clear medium i entry, s =>
      unmarked chs c s (removeNext chs (s.clients c).sessionPair medium i (s.rtp.store entry ⟨none, 0, 0⟩))
  | .reset medium i entry, s =>
      unmarked chs c s (removeNext chs (s.clients c).sessionPair medium i (s.rtp.resetStamps entry))
  | .unmark, s => unmarked chs c s (some s.rtp)
  | .wipe, s => wiped chs s
  | .done ret, s => some (ret, s)

theorem removeFrom_ended {chs : Int} {i : Nat} (ended : ¬ i < groups chs) (pair : SessionPair)
    (medium : Medium) (m : SessionMgr) : removeFrom chs pair medium i m = some m := by
  cases medium with
  | video =>
      have none_left : groups chs - i = 0 := by omega
      rw [removeFrom, none_left, removeLoop]
  | audio => rw [removeFrom, if_neg ended]

theorem removeFrom_audio {chs : Int} {i : Nat} {g : Fin maxGroupNum} (below : i < groups chs)
    (group : index? maxGroupNum i = some g) (pair : SessionPair) (m : SessionMgr) :
    removeFrom chs pair .audio i m =
      match removeSessionObj m (pair.audioIDs g) with
      | none => none
      | some (_, m) => removeLoop pair (groups chs - (i + 1)) (i + 1) m := by
  simp only [removeFrom, if_pos below, group]

/-- One call of `remove_session_obj` and what follows it. -/
theorem removeFrom_pick {chs : Int} {i : Nat} (below : i < groups chs) (pair : SessionPair)
    (medium : Medium) (m : SessionMgr) :
    removeFrom chs pair medium i m =
      match index? maxGroupNum i with
      | none => none
      | some g =>
          match removeSessionObj m (pair.ids medium g) with
          | none => none
          | some (_, m) => removeNext chs pair medium i m := by
  cases medium with
  | video =>
      have pass : groups chs - i = groups chs - (i + 1) + 1 := by omega
      rw [removeFrom, pass, removeLoop]
      cases group : index? maxGroupNum i with
      | none => rfl
      | some g =>
          dsimp only [SessionPair.ids]
          cases removeSessionObj m (pair.videoIDs g) with
          | none => rfl
          | some removed => exact (removeFrom_audio below group pair removed.2).symm
  | audio => rw [removeFrom, if_pos below]; rfl

theorem remaining_next (chs : Int) (c : Fin maxClientNum) (medium : Medium) (i : Nat) (s : Server) :
    (DelPc.next medium i).remaining chs c s =
      unmarked chs c s (removeNext chs (s.clients c).sessionPair medium i s.rtp) := by
  cases medium <;> rfl

theorem resetStamps_clear (m : SessionMgr) (i : Fin maxSessionNum) :
    (m.clear i).resetStamps i = m.store i ⟨none, 0, 0⟩ := by
  simp [SessionMgr.clear, SessionMgr.resetStamps, SessionMgr.store]

theorem resetStamps_free {m : SessionMgr} {i : Fin maxSessionNum} (free : m.live i = none) :
    m.resetStamps i = m.store i ⟨none, 0, 0⟩ := by
  change (m.table i).pSession = none at free
  simp only [SessionMgr.resetStamps, free]

theorem delStep_remaining {chs : Int} {c : Fin maxClientNum} {pc next : DelPc} {s after : Server}
    {act : DelAct} (step : delStep chs c pc s = some (act, next, after)) :
    next.remaining chs c after = pc.remaining chs c s := by
  unfold delStep at step
  cases pc with
  | start =>
      dsimp only at step
      rw [DelPc.remaining, delClient, index?_val]
      dsimp only
      split at step
      · rename_i unused
        cases Option.some.inj step
        rw [if_pos unused, DelPc.remaining]
      · rename_i used
        cases Option.some.inj step
        rw [if_neg used, DelPc.remaining, removeFrom, Nat.sub_zero]
        cases removeLoop (s.clients c).sessionPair (groups chs) 0 s.rtp with
        | none => rfl
        | some m => rfl
  | pick medium i =>
      dsimp only at step
      rw [DelPc.remaining]
      split at step
      · rename_i below
        rw [removeFrom_pick below]
        cases group : index? maxGroupNum i with
        | none => rw [group] at step; cases step
        | some g =>
          rw [group] at step
          dsimp only [removeSessionObj]
          dsimp only [Server.ids] at step
          cases checked : checkedEntry ((s.clients c).sessionPair.ids medium g) with
          | none => rw [checked] at step; cases step
          | some target =>
              rw [checked] at step
              cases target with
              | none =>
                  cases Option.some.inj step
                  rw [remaining_next]
              | some entry =>
                  cases Option.some.inj step
                  rw [DelPc.remaining]
      · rename_i ended
        cases Option.some.inj step
        rw [removeFrom_ended ended, DelPc.remaining]
  | test medium i entry =>
      dsimp only at step
      rw [DelPc.remaining]
      split at step
      · rename_i dead
        cases Option.some.inj step
        rw [DelPc.remaining, resetStamps_free dead]
      · cases Option.some.inj step
        rw [DelPc.remaining]
  | destroy medium i entry =>
      cases Option.some.inj step
      rfl
  | clear medium i entry =>
      cases Option.some.inj step
      rw [DelPc.remaining, DelPc.remaining, resetStamps_clear]
      rfl
  | reset medium i entry =>
      cases Option.some.inj step
      rw [remaining_next, DelPc.remaining]
      rfl
  | unmark =>
      cases Option.some.inj step
      rfl
  | wipe =>
      dsimp only at step
      change next.remaining chs c after = wiped chs s
      rw [wiped]
      cases inside : index? maxClientNum (groups chs) with
      | none => rw [inside] at step; cases step
      | some k =>
          rw [inside] at step
          cases Option.some.inj step
          rfl
  | done ret => cases step

theorem alone_deletes {chs : Int} {c : Fin maxClientNum} {s after : Server}
    {history : List DelAct} {ret : Int}
    (run : Run (Alone (delStep chs c)) (.start, s) history (.done ret, after)) :
    delClient chs s c = some (ret, after) := by
  have kept : DelPc.remaining chs c (.done ret) after = DelPc.remaining chs c .start s := by
    apply run.invariant fun _ at_ => at_.1.remaining chs c at_.2 = DelPc.remaining chs c .start s
    · rfl
    · intro history before event next _ same step
      exact (delStep_remaining step).trans same
  exact kept.symm

end DvsServer.Core.Session
