import DvsServer.Core.SessionRun

/-!
# Time stamps across slot reuse

`create_rtp_session` stores the increment of a session and leaves its time
stamp alone.  The clock of a session starts at zero all the same, because every
call leaves a free entry cleared.
-/

namespace DvsServer.Core.TimeStamps

open DvsServer.Lib DvsServer.Com.RtpSend DvsServer.Core.Session

/-- A call into `rtpsend.c`.  `sendBytes` is what oRTP returns to `rtp_send`. -/
inductive RtpOp where
  | rtpInit (getenvSSRC : Option Int)
  | createRtpSession (medium : Medium) (ipStr : String) (port : Int)
  | rtpSend (sessionID : Int) (buffer : Nat) (len sendBytes : Int32)
  | removeSessionObj (sessionID : Int)

/-- The session ID a call is given names an entry or is negative. -/
def RtpOp.Inside : RtpOp → Prop
  | .rtpInit _ | .createRtpSession _ _ _ => True
  | .rtpSend sessionID _ _ _ | .removeSessionObj sessionID => sessionID < maxSessionNum

instance : DecidablePred RtpOp.Inside
  | .rtpInit _ | .createRtpSession _ _ _ => isTrue trivial
  | .rtpSend sessionID _ _ _ | .removeSessionObj sessionID =>
      inferInstanceAs (Decidable (sessionID < maxSessionNum))

/-- The value a call returns, zero for `rtp_init`, and its oRTP send. -/
structure RtpOutcome where
  ret : Int
  sent : Option OrtpSend

def rtpExec (m : SessionMgr) : RtpOp → Option (RtpOutcome × SessionMgr)
  | .rtpInit getenvSSRC => some (⟨0, none⟩, rtpInit getenvSSRC m)
  | .createRtpSession medium ipStr port =>
      let creation := createRtpSession m ipStr port medium.sessionType
      some (⟨creation.ret, none⟩, creation.mgr)
  -- the number of bytes sent is looked at nowhere
  | .rtpSend sessionID buffer len _ =>
      (rtpSend m sessionID buffer len).map fun sending => (⟨sending.ret, sending.sent⟩, sending.mgr)
  | .removeSessionObj sessionID =>
      (removeSessionObj m sessionID).map fun (ret, m) => (⟨ret, none⟩, m)

/-! ## The property -/

/-- The medium that the live session of entry `i` was created with, and the
number of `rtp_send` calls on it since. -/
def usage (i : Fin maxSessionNum) : List (RtpOp × RtpOutcome) → Option (Medium × Nat)
  | [] => none
  | (.rtpInit _, _) :: _ => none
  | (.createRtpSession medium _ _, outcome) :: before =>
      if outcome.ret = i then some (medium, 0) else usage i before
  | (.rtpSend sessionID _ _ _, _) :: before =>
      if sessionID = i then (usage i before).map fun (medium, k) => (medium, k + 1)
      else usage i before
  | (.removeSessionObj sessionID, _) :: before =>
      if sessionID = i then none else usage i before

/-- The value of a clock after `k` increments. -/
def stampAt (medium : Medium) (k : Nat) : UInt32 := .ofNat (k * medium.timeStampInc.toNat)

/-- The next `rtp_send` on every live session carries the exact time stamp. -/
def StampsExact (history : List (RtpOp × RtpOutcome)) (m : SessionMgr) : Prop :=
  ∀ i session, m.live i = some session → ∃ medium k, usage i history = some (medium, k) ∧
    ∀ buffer len sendBytes, ∃ next, rtpExec m (.rtpSend i buffer len sendBytes) =
      some (⟨0, some ⟨session, buffer, len, stampAt medium k⟩⟩, next)

/-! ## The clock of one entry -/

/-- What an entry holds, given its usage. -/
inductive Clocked : Option (Medium × Nat) → SessionObj → Prop where
  | free : Clocked none ⟨none, 0, 0⟩
  | used (session : RtpSession) (medium : Medium) (k : Nat) :
      Clocked (some (medium, k)) ⟨some session, stampAt medium k, medium.timeStampInc⟩

theorem stampAt_succ (medium : Medium) (k : Nat) :
    stampAt medium k + medium.timeStampInc = stampAt medium (k + 1) := by
  simp only [stampAt, Nat.succ_mul, UInt32.ofNat_add, UInt32.ofNat_toNat]

theorem Clocked.free_iff {use : Option (Medium × Nat)} {entry : SessionObj}
    (clocked : Clocked use entry) (isFree : entry.pSession = none) :
    use = none ∧ entry = ⟨none, 0, 0⟩ := by
  cases clocked with
  | free => exact ⟨rfl, rfl⟩
  | used => cases isFree

theorem Clocked.used_iff {use : Option (Medium × Nat)} {entry : SessionObj} {session : RtpSession}
    (clocked : Clocked use entry) (live : entry.pSession = some session) :
    ∃ medium k, use = some (medium, k) ∧
      entry = ⟨some session, stampAt medium k, medium.timeStampInc⟩ := by
  cases clocked with
  | free => cases live
  | used held medium k =>
      cases live
      exact ⟨medium, k, rfl, rfl⟩

/-- Every entry of the table holds what its usage says. -/
def AllClocked (history : List (RtpOp × RtpOutcome)) (m : SessionMgr) : Prop :=
  ∀ i, Clocked (usage i history) (m.table i)

theorem AllClocked.store {history later : List (RtpOp × RtpOutcome)} {m : SessionMgr}
    {j : Fin maxSessionNum} {entry : SessionObj} (clocked : AllClocked history m)
    (here : Clocked (usage j later) entry)
    (elsewhere : ∀ i, i ≠ j → usage i later = usage i history) :
    AllClocked later (m.store j entry) := by
  intro i
  by_cases same : i = j
  · subst same
    simpa [SessionMgr.store] using here
  · rw [elsewhere i same]
    simpa [SessionMgr.store, same] using clocked i

theorem AllClocked.create {history : List (RtpOp × RtpOutcome)} {m : SessionMgr}
    (clocked : AllClocked history m) (medium : Medium) (ipStr : String) (port : Int) :
    AllClocked ((.createRtpSession medium ipStr port,
        ⟨(createRtpSession m ipStr port medium.sessionType).ret, none⟩) :: history)
      (createRtpSession m ipStr port medium.sessionType).mgr := by
  have creates := creates_medium medium m ipStr port
  generalize createRtpSession m ipStr port medium.sessionType = creation at creates
  cases creates with
  | full used =>
      intro i
      have failed : (-1 : Int) ≠ i := by omega
      simpa [usage, failed] using clocked i
  | made j free first =>
      have cleared := ((clocked j).free_iff free).2
      have session_used := Clocked.used (newSession m ipStr port medium.payloadType) medium 0
      have fresh : AllClocked ((.createRtpSession medium ipStr port, ⟨j, none⟩) :: history)
          (m.store j ⟨some (newSession m ipStr port medium.payloadType), stampAt medium 0,
            medium.timeStampInc⟩) := by
        apply clocked.store
        · simpa only [usage, if_true] using session_used
        · intro i other
          have apart : (j : Int) ≠ i := fun same => other (Fin.ext (by omega))
          simp [usage, apart]
      intro i
      simpa [SessionMgr.publish, SessionMgr.store, cleared, stampAt] using fresh i

/-- A call on a session ID outside the table, or on a free entry. -/
theorem AllClocked.send_idle {history : List (RtpOp × RtpOutcome)} {m : SessionMgr}
    (clocked : AllClocked history m) {sessionID : Int}
    (idle : ∀ j : Fin maxSessionNum, sessionID = j → m.live j = none)
    (buffer : Nat) (len sendBytes : Int32) (outcome : RtpOutcome) :
    AllClocked ((.rtpSend sessionID buffer len sendBytes, outcome) :: history) m := by
  intro i
  by_cases here : sessionID = i
  · have unused := ((clocked i).free_iff (idle i here)).1
    simpa [usage, here, unused] using clocked i
  · simpa [usage, here] using clocked i

theorem AllClocked.send {history : List (RtpOp × RtpOutcome)} {m : SessionMgr}
    (clocked : AllClocked history m) {sessionID : Int} {buffer : Nat} {len : Int32}
    {sending : Sending} (done : rtpSend m sessionID buffer len = some sending)
    (sendBytes : Int32) (outcome : RtpOutcome) :
    AllClocked ((.rtpSend sessionID buffer len sendBytes, outcome) :: history) sending.mgr := by
  cases entry_eq : checkedEntry sessionID with
  | none =>
      simp [rtpSend, entry_eq] at done
  | some accepted =>
      cases accepted with
      | none =>
          have kept : sending = ⟨-1, none, m⟩ := by simpa [rtpSend, entry_eq] using done.symm
          subst kept
          apply clocked.send_idle
          intro j same
          exact absurd same (checkedEntry_rejected entry_eq j)
      | some j =>
          have here := checkedEntry_eq entry_eq
          cases held : m.live j with
          | none =>
              rw [rtpSend_dead entry_eq held] at done
              cases Option.some.inj done
              apply clocked.send_idle
              intro i same
              have eq : i = j := Fin.ext (by omega)
              rwa [eq]
          | some session =>
              rw [rtpSend_live entry_eq held] at done
              cases Option.some.inj done
              obtain ⟨medium, k, use, entry⟩ := (clocked j).used_iff held
              apply clocked.store
              · simp only [usage, here, if_true, use, Option.map_some, entry, stampAt_succ]
                exact .used session medium (k + 1)
              · intro i other
                have apart : sessionID ≠ i := fun same => other (Fin.ext (by omega))
                simp [usage, apart]

theorem AllClocked.remove {history : List (RtpOp × RtpOutcome)} {m after : SessionMgr}
    (clocked : AllClocked history m) {sessionID ret : Int}
    (done : removeSessionObj m sessionID = some (ret, after)) (outcome : RtpOutcome) :
    AllClocked ((.removeSessionObj sessionID, outcome) :: history) after := by
  cases entry_eq : checkedEntry sessionID with
  | none => simp [removeSessionObj, entry_eq] at done
  | some accepted =>
      cases accepted with
      | none =>
          have kept : after = m := by
            have both : ret = -1 ∧ after = m := by
              simpa [removeSessionObj, entry_eq, eq_comm] using done
            exact both.2
          subst kept
          intro i
          have apart := checkedEntry_rejected entry_eq i
          simpa [usage, apart] using clocked i
      | some j =>
          have here := checkedEntry_eq entry_eq
          have cleared : after = m.store j ⟨none, 0, 0⟩ := by
            have both : ret = 0 ∧ after = m.store j ⟨none, 0, 0⟩ := by
              simpa [removeSessionObj, entry_eq, eq_comm] using done
            exact both.2
          subst cleared
          apply clocked.store
          · simp only [usage, here, if_true]
            exact .free
          · intro i other
            have apart : sessionID ≠ i := fun same => other (Fin.ext (by omega))
            simp [usage, apart]

/-! ## Runs -/

/-- One call keeps every entry clocked. -/
theorem AllClocked.step {history : List (RtpOp × RtpOutcome)} {m after : SessionMgr}
    {event : RtpOp × RtpOutcome} (clocked : AllClocked history m)
    (taken : ExecStep rtpExec m event after) : AllClocked (event :: history) after := by
  obtain ⟨op, outcome⟩ := event
  cases op with
  | rtpInit getenvSSRC =>
      cases Option.some.inj taken
      intro i
      exact .free
  | createRtpSession medium ipStr port =>
      cases Option.some.inj taken
      exact clocked.create medium ipStr port
  | rtpSend sessionID buffer len sendBytes =>
      obtain ⟨sending, done, same⟩ := Option.map_eq_some_iff.mp taken
      cases same
      exact clocked.send done sendBytes _
  | removeSessionObj sessionID =>
      obtain ⟨⟨ret, next⟩, done, same⟩ := Option.map_eq_some_iff.mp taken
      cases same
      exact clocked.remove done _

theorem run_clocked {history : List (RtpOp × RtpOutcome)} {m : SessionMgr}
    (run : Run (ExecStep rtpExec) Server.zero.rtp history m) : AllClocked history m := by
  apply run.invariant AllClocked
  · intro i
    exact .free
  · intro _ _ _ _ _ clocked taken
    exact clocked.step taken

theorem AllClocked.stampsExact {history : List (RtpOp × RtpOutcome)} {m : SessionMgr}
    (clocked : AllClocked history m) : StampsExact history m := by
  intro i session live
  obtain ⟨medium, k, use, entry⟩ := (clocked i).used_iff live
  refine ⟨medium, k, use, fun buffer len sendBytes => ⟨m.advance i, ?_⟩⟩
  rw [rtpExec, rtpSend_live (checkedEntry_index i) live, entry]
  rfl

theorem checkedEntry_inside {sessionID : Int} (inside : sessionID < maxSessionNum) :
    ∃ accepted, checkedEntry sessionID = some accepted := by
  unfold checkedEntry
  split
  · exact ⟨none, rfl⟩
  · rename_i accepted
    have entry : index? maxSessionNum sessionID = some ⟨sessionID.toNat, by omega⟩ :=
      index?_eq_some.mpr (by simp; omega)
    exact ⟨_, by rw [entry]; rfl⟩

/-- No call with a session ID below the bound leaves the table. -/
theorem rtpExec_defined {op : RtpOp} (inside : op.Inside) (m : SessionMgr) :
    ∃ result, rtpExec m op = some result := by
  cases op with
  | rtpInit getenvSSRC => exact ⟨_, rfl⟩
  | createRtpSession medium ipStr port => exact ⟨_, rfl⟩
  | rtpSend sessionID buffer len sendBytes =>
      obtain ⟨accepted, entry⟩ := checkedEntry_inside inside
      cases accepted with
      | none => exact ⟨_, by rw [rtpExec, rtpSend, entry]; rfl⟩
      | some i =>
          cases held : m.live i with
          | none => exact ⟨_, by rw [rtpExec, rtpSend_dead entry held]; rfl⟩
          | some session => exact ⟨_, by rw [rtpExec, rtpSend_live entry held]; rfl⟩
  | removeSessionObj sessionID =>
      obtain ⟨accepted, entry⟩ := checkedEntry_inside inside
      cases accepted with
      | none => exact ⟨_, by rw [rtpExec, removeSessionObj, entry]; rfl⟩
      | some i => exact ⟨_, by rw [rtpExec, removeSessionObj, entry]; rfl⟩

/-- Whatever calls were made since the program started, all of them are defined
and the next send on each live session carries `k * inc`. -/
theorem timeStamps_exact (ops : List RtpOp) (inside : ∀ op ∈ ops, op.Inside) :
    ∃ history m, execAll rtpExec ops ([], Server.zero.rtp) = some (history, m) ∧
      StampsExact history m := by
  obtain ⟨⟨history, m⟩, executed⟩ :=
    execAll_defined (fun op inOps m => rtpExec_defined (inside op inOps) m) [] Server.zero.rtp
  exact ⟨history, m, executed, (run_clocked (execAll_run .nil executed)).stampsExact⟩

/-- A video entry is used, freed and used again for audio. -/
def reuse : List RtpOp :=
  [.rtpInit none, .createRtpSession .video "10.0.0.2" 9000, .rtpSend 0 7 100 (-1),
    .removeSessionObj 0, .createRtpSession .audio "10.0.0.3" 9100, .rtpSend 0 8 100 50]

theorem timeStamps_exact_reuse :
    ∃ history m, execAll rtpExec reuse ([], Server.zero.rtp) = some (history, m) ∧
      StampsExact history m :=
  timeStamps_exact reuse (by decide)

example : (execAll rtpExec reuse ([], Server.zero.rtp)).map
    (fun (history, m) => (usage 0 history, (m.table 0).curTimeStamp)) = some (some (.audio, 1), 80) := by
  decide

end DvsServer.Core.TimeStamps
