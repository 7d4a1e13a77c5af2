import DvsServer.Com.RtpSend

/-!
# The range test of session IDs (`utils/com/src/rtpsend.c`)

`rtp_send` and `remove_session_obj` share one test of the ID they are given.
-/

namespace DvsServer.Com.RtpSend

open DvsServer.Lib

/-- The ID was rejected with the globals unchanged, or it is an index of the table and no
more than its entry was written. -/
inductive Guarded (m : SessionMgr) : Int → Option (Int × SessionMgr) → Prop where
  | rejected (sessionID : Int) : Guarded m sessionID (some (-1, m))
  | within (i : Fin maxSessionNum) (ret : Int) (entry : SessionObj) :
      Guarded m i (some (ret, m.store i entry))

theorem Guarded.defined {m : SessionMgr} {sessionID : Int} {result : Option (Int × SessionMgr)}
    (guarded : Guarded m sessionID result) : result ≠ none := by
  cases guarded with
  | rejected => exact Option.some_ne_none _
  | within i ret entry => exact Option.some_ne_none _

/-- The ID behind the last entry passes the test. -/
theorem checkedEntry_max : checkedEntry maxSessionNum = none := rfl

theorem checkedEntry_cases {sessionID : Int} (inside : sessionID ≠ maxSessionNum) :
    checkedEntry sessionID = some none ∨
      ∃ i : Fin maxSessionNum, sessionID = i ∧ checkedEntry sessionID = some (some i) := by
  by_cases outside : sessionID < 0 ∨ sessionID > maxSessionNum
  · exact .inl (if_pos outside)
  · have below : sessionID.toNat < maxSessionNum := by omega
    obtain ⟨i, rfl⟩ : ∃ i : Fin maxSessionNum, sessionID = i := by
      refine ⟨⟨sessionID.toNat, below⟩, ?_⟩
      change sessionID = (sessionID.toNat : Int)
      omega
    exact .inr ⟨i, rfl, checkedEntry_index i⟩

/-- The result of `rtp_send` and the globals behind it. -/
def sendResult (m : SessionMgr) (sessionID : Int) (buffer : Nat) (len : Int32) :
    Option (Int × SessionMgr) :=
  (rtpSend m sessionID buffer len).map fun sending => (sending.ret, sending.mgr)

theorem rtpSend_guarded_iff (m : SessionMgr) (sessionID : Int) (buffer : Nat) (len : Int32) :
    Guarded m sessionID (sendResult m sessionID buffer len) ↔ sessionID ≠ maxSessionNum := by
  unfold sendResult rtpSend
  constructor
  · rintro guarded rfl
    rw [checkedEntry_max] at guarded
    exact guarded.defined rfl
  · intro inside
    rcases checkedEntry_cases inside with rejected | ⟨i, rfl, entry⟩
    · rw [rejected]
      exact .rejected _
    · rw [entry]
      dsimp only
      cases (m.table i).pSession with
      | none => exact .rejected _
      | some session => exact .within i _ _

theorem removeSessionObj_guarded_iff (m : SessionMgr) (sessionID : Int) :
    Guarded m sessionID (removeSessionObj m sessionID) ↔ sessionID ≠ maxSessionNum := by
  unfold removeSessionObj
  constructor
  · rintro guarded rfl
    rw [checkedEntry_max] at guarded
    exact guarded.defined rfl
  · intro inside
    rcases checkedEntry_cases inside with rejected | ⟨i, rfl, entry⟩
    · rw [rejected]
      exact .rejected _
    · rw [entry]
      exact .within i _ _

/-- The test protects the table from every ID but `MAX_SESSION_NUM`. -/
theorem session_id_guard_iff (m : SessionMgr) (sessionID : Int) (buffer : Nat) (len : Int32) :
    (Guarded m sessionID (sendResult m sessionID buffer len) ↔ sessionID ≠ maxSessionNum) ∧
      (Guarded m sessionID (removeSessionObj m sessionID) ↔ sessionID ≠ maxSessionNum) :=
  ⟨rtpSend_guarded_iff m sessionID buffer len, removeSessionObj_guarded_iff m sessionID⟩

/-- Both functions go to the entry behind the table. -/
theorem session_id_behind_table :
    ¬∀ (m : SessionMgr) (sessionID : Int) (buffer : Nat) (len : Int32),
      Guarded m sessionID (sendResult m sessionID buffer len) ∧
        Guarded m sessionID (removeSessionObj m sessionID) := by
  intro always
  exact (always ⟨fun _ => ⟨none, 0, 0⟩, none, 0⟩ maxSessionNum 0 0).1.defined rfl

end DvsServer.Com.RtpSend
