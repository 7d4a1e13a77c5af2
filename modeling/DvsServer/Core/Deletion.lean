import DvsServer.Core.AddClient

/-!
# What a deletion removes

`del_client` frees the entries whose IDs its slot records, and resets the IDs of
the slot its loop counter ends at.  It removes one client exactly where the two
slots agree, or have nothing to reset, and the IDs are those of the client's own
registration.
-/

namespace DvsServer.Core.Session

open DvsServer.Lib DvsServer.Com.RtpSend

/-! ## Free entries -/

/-- A free entry has no time stamps left in it. -/
def FreeCleared (m : SessionMgr) : Prop := ∀ i, m.live i = none → m.table i = ⟨none, 0, 0⟩

theorem FreeCleared.store {m : SessionMgr} (cleared : FreeCleared m) {i : Fin maxSessionNum}
    {entry : SessionObj} (kept : entry.pSession = none → entry = ⟨none, 0, 0⟩) :
    FreeCleared (m.store i entry) := by
  intro j free
  by_cases same : j = i
  · subst same
    rw [store_live_self] at free
    simpa [SessionMgr.store] using kept free
  · rw [store_live_ne same] at free
    simpa [SessionMgr.store, same] using cleared j free

theorem FreeCleared.send {m : SessionMgr} (cleared : FreeCleared m) {sessionID : Int} {buffer : Nat}
    {len : Int32} {sending : Sending} (done : rtpSend m sessionID buffer len = some sending) :
    FreeCleared sending.mgr := by
  unfold rtpSend at done
  split at done
  · cases done
  · cases Option.some.inj done
    exact cleared
  · rename_i i checked
    dsimp only at done
    split at done
    · cases Option.some.inj done
      exact cleared
    · rename_i session held
      cases Option.some.inj done
      apply cleared.store
      intro free
      dsimp only at free
      rw [held] at free
      cases free

theorem FreeCleared.sendLoop {e : SessionElement} {slots : List (Fin maxClientNum)} {s after : Server}
    {sends : List ClientSend} (cleared : FreeCleared s.rtp)
    (done : sendLoop e slots s = some (sends, after)) : FreeCleared after.rtp := by
  induction slots generalizing s sends with
  | nil =>
      cases Option.some.inj done
      exact cleared
  | cons c rest ih =>
      rw [Session.sendLoop] at done
      dsimp only at done
      split at done
      · exact ih cleared done
      · split at done
        · cases done
        · exact ih cleared done
        · split at done
          · cases done
          · split at done
            · cases done
            · rename_i sending sent
              split at done
              · cases done
              · rename_i others last later
                cases Option.some.inj done
                exact ih (cleared.send sent) later

theorem FreeCleared.remove {m after : SessionMgr} {sessionID ret : Int} (cleared : FreeCleared m)
    (done : removeSessionObj m sessionID = some (ret, after)) : FreeCleared after := by
  unfold removeSessionObj at done
  split at done
  · cases done
  · cases Option.some.inj done
    exact cleared
  · cases Option.some.inj done
    exact cleared.store fun _ => rfl

theorem FreeCleared.removeLoop {pair : SessionPair} {k i : Nat} {m after : SessionMgr}
    (cleared : FreeCleared m) (done : removeLoop pair k i m = some after) : FreeCleared after := by
  induction k generalizing i m with
  | zero =>
      cases Option.some.inj done
      exact cleared
  | succ k ih =>
      rw [Session.removeLoop] at done
      split at done
      · cases done
      · split at done
        · cases done
        · rename_i ret first removedVideo
          split at done
          · cases done
          · rename_i ret' second removedAudio
            exact ih ((cleared.remove removedVideo).remove removedAudio) done

theorem FreeCleared.delClient {chs clientId : Int} {s : Server} {result : Int × Server}
    (cleared : FreeCleared s.rtp) (done : delClient chs s clientId = some result) :
    FreeCleared result.2.rtp := by
  unfold Session.delClient at done
  split at done
  · cases done
  · dsimp only at done
    split at done
    · cases Option.some.inj done
      exact cleared
    · split at done
      · cases done
      · rename_i m removed
        split at done
        · cases done
        · cases Option.some.inj done
          exact cleared.removeLoop removed

theorem Adds.made {chs : Int} {s : Server} {base : Medium → Int} {adding : Adding}
    (adds : Adds chs s base adding) : Created s.rtp adding.server.rtp adding.created := by
  cases adds with
  | noSlot => exact .refl _
  | failed id free code clientID effect => exact effect.created
  | added id free first effect done => exact effect.created

theorem FreeCleared.addClient {chs : Int} (bound : chs ≤ maxVideoChannel) {s : Server}
    {destIp : String} {baseVideoPort baseAudioPort : Int} {adding : Adding}
    (cleared : FreeCleared s.rtp)
    (done : addClient chs s destIp baseVideoPort baseAudioPort = some adding) :
    FreeCleared adding.server.rtp := by
  cases slot : freeSlot s with
  | none =>
      rw [addClient_noSlot (freeSlot_eq_none.mp slot)] at done
      cases Option.some.inj done
      exact cleared
  | some c =>
      obtain ⟨adding', done', _, _, spares⟩ :=
        addClient_outcome bound slot destIp baseVideoPort baseAudioPort
      rw [done] at done'
      cases Option.some.inj done'
      intro i free
      have before := (addClient_cases done).made.free free
      rw [spares i free]
      exact cleared i before

/-- One call leaves free entries cleared. -/
theorem FreeCleared.step {chs : Int} (bound : chs ≤ maxVideoChannel) {s after : Server} {event : Event}
    (cleared : FreeCleared s.rtp) (step : Step chs s event after) : FreeCleared after.rtp := by
  obtain ⟨op, outcome⟩ := event
  have flags : ∀ {value : Bool} {clientID chId : Int} {result : Int × Server},
      setChannel value s clientID chId = some result → FreeCleared result.2.rtp := by
    intro value clientID chId result done
    obtain ⟨ret, next⟩ := result
    obtain ⟨c, _, _, ⟨_, same⟩ | ⟨_, same⟩⟩ := setChannel_cases done
    · rw [same]
      exact cleared
    · rw [same]
      exact cleared
  cases op with
  | addClient destIp baseVideoPort baseAudioPort =>
      obtain ⟨adding, done, same⟩ := Option.map_eq_some_iff.mp step
      cases same
      exact cleared.addClient bound done
  | delClient clientId =>
      obtain ⟨result, done, same⟩ := Option.map_eq_some_iff.mp step
      cases same
      exact cleared.delClient done
  | openChannel clientID chId =>
      obtain ⟨result, done, same⟩ := Option.map_eq_some_iff.mp step
      cases same
      exact flags done
  | closeChannel clientID chId =>
      obtain ⟨result, done, same⟩ := Option.map_eq_some_iff.mp step
      cases same
      exact flags done
  | sendToClient e =>
      obtain ⟨⟨sends, next⟩, done, same⟩ := Option.map_eq_some_iff.mp step
      cases same
      exact cleared.sendLoop done

theorem Booted.freeCleared {chs : Int} {s : Server} (booted : Booted chs s) : FreeCleared s.rtp := by
  obtain ⟨before, ssrc, pipeOk, ret, done⟩ := booted
  intro i _
  rw [(initSessionTsk_cases done).1]
  rfl

theorem run_freeCleared {chs : Int} (bound : chs ≤ maxVideoChannel) {start s : Server}
    {history : List Event} (booted : Booted chs start) (run : Run (Step chs) start history s) :
    FreeCleared s.rtp := by
  apply run.invariant fun _ s => FreeCleared s.rtp
  · exact booted.freeCleared
  · intro _ _ _ _ _ cleared step
    exact cleared.step bound step

/-! ## Registrations -/

theorem registration_of_registered {c : Fin maxClientNum} {history : List Event}
    (registered : Registered c history) : ∃ reg, registration c history = some reg := by
  induction registered with
  | @here event before isAdd =>
      obtain ⟨op, outcome⟩ := event
      obtain ⟨⟨destIp, videoPort, audioPort, rfl⟩, returned⟩ := isAdd
      exact ⟨_, if_pos returned⟩
  | @later event before neither _ ih =>
      obtain ⟨op, outcome⟩ := event
      obtain ⟨reg, found⟩ := ih
      refine ⟨reg, ?_⟩
      cases op with
      | addClient destIp videoPort audioPort =>
          rw [registration, if_neg, found]
          intro returned
          exact neither.1 ⟨⟨_, _, _, rfl⟩, returned⟩
      | delClient clientId =>
          rw [registration, if_neg, found]
          intro same
          exact neither.2 (by rw [IsDel, same])
      | openChannel clientID chId => exact found
      | closeChannel clientID chId => exact found
      | sendToClient e => exact found

/-- Entry `i` holds a session that the current registration of slot `c` created. -/
def HoldsOwn (history : List Event) (s : Server) (c : Fin maxClientNum) (i : Fin maxSessionNum) : Prop :=
  ∃ reg session, registration c history = some reg ∧ s.rtp.live i = some session ∧
    session ∈ reg.created

/-! ## The property -/

/-- Slot `c` and the sessions of its registration are gone, and nothing else. -/
structure RemovesExactly (history : List Event) (c : Fin maxClientNum) (s after : Server) : Prop where
  freed : ∀ i, HoldsOwn history s c i → after.rtp.live i = none
  entries : ∀ i, ¬ HoldsOwn history s c i → after.rtp.table i = s.rtp.table i
  clientID : (after.clients c).clientID = -1
  ids : ∀ m g, after.ids c m g = -1
  others : ∀ d, d ≠ c → after.clients d = s.clients d

/-- The reset slot is the deleted one, or neither has an ID to reset. -/
def ResetsOwn (chs : Int) (s : Server) (c : Fin maxClientNum) : Prop :=
  c.val = groups chs ∨
    ∀ d : Fin maxClientNum, d = c ∨ d.val = groups chs → ∀ m g, s.ids d m g = -1

/-- Slot `c` records the entries of its registration and no other live one. -/
def RecordsOwn (chs : Int) (history : List Event) (s : Server) (c : Fin maxClientNum) : Prop :=
  ∀ i, s.rtp.live i ≠ none → (s.Recorded chs c i ↔ HoldsOwn history s c i)

theorem pair_eq_of_ids {one two : SessionPair} (same : ∀ m g, one.ids m g = two.ids m g) :
    one = two := by
  have video : one.videoIDs = two.videoIDs := funext (same .video)
  have audio : one.audioIDs = two.audioIDs := funext (same .audio)
  calc one = ⟨one.videoIDs, one.audioIDs⟩ := rfl
    _ = ⟨two.videoIDs, two.audioIDs⟩ := by rw [video, audio]
    _ = two := rfl

theorem client_eq_of_fields {one two : ClientObj} (clientID : one.clientID = two.clientID)
    (flag : one.flag = two.flag) (pair : one.sessionPair = two.sessionPair) : one = two := by
  calc one = ⟨one.clientID, one.flag, one.sessionPair⟩ := rfl
    _ = ⟨two.clientID, two.flag, two.sessionPair⟩ := by rw [clientID, flag, pair]
    _ = two := rfl

theorem DelEffect.removesExactly_iff {chs : Int} {history : List Event} {c wiped : Fin maxClientNum}
    {s after : Server} (effect : DelEffect chs c wiped s after) (cleared : FreeCleared s.rtp)
    (clearedAfter : FreeCleared after.rtp) :
    RemovesExactly history c s after ↔ ResetsOwn chs s c ∧ RecordsOwn chs history s c := by
  have live_of_own : ∀ i, HoldsOwn history s c i → s.rtp.live i ≠ none := by
    rintro i ⟨reg, session, _, held, _⟩
    rw [held]
    exact Option.some_ne_none _
  constructor
  · intro removes
    constructor
    · by_cases same : c = wiped
      · exact .inl (same ▸ effect.wiped_eq)
      · refine .inr fun d either m g => ?_
        rcases either with here | there
        · have kept : after.ids d m g = s.ids d m g := by
            rw [here, Server.ids, effect.ids_kept c same]
            rfl
          rw [← kept, here]
          exact removes.ids m g
        · have slot : d = wiped := Fin.ext (there.trans effect.wiped_eq.symm)
          have unset := effect.ids_wiped m g
          rw [Server.ids, removes.others wiped (Ne.symm same)] at unset
          rw [slot]
          exact unset
    · intro i used
      constructor
      · intro recorded
        by_contra foreign
        have gone := effect.freed i recorded
        rw [SessionMgr.live, removes.entries i foreign] at gone
        exact used gone
      · intro own
        by_contra unrecorded
        have gone := removes.freed i own
        rw [SessionMgr.live, effect.entry_kept i unrecorded] at gone
        exact used gone
  · rintro ⟨resets, records⟩
    constructor
    · intro i own
      exact effect.freed i ((records i (live_of_own i own)).mpr own)
    · intro i foreign
      by_cases recorded : s.Recorded chs c i
      · -- an ID that names no live session of the client names a free entry
        have free : s.rtp.live i = none := by
          by_contra used
          exact foreign ((records i used).mp recorded)
        rw [clearedAfter i (effect.freed i recorded), cleared i free]
      · exact effect.entry_kept i recorded
    · exact effect.clientID
    · intro m g
      rcases resets with same | unset
      · have slot : c = wiped := Fin.ext (same.trans effect.wiped_eq.symm)
        rw [slot]
        exact effect.ids_wiped m g
      · by_cases slot : c = wiped
        · rw [slot]
          exact effect.ids_wiped m g
        · rw [Server.ids, effect.ids_kept c slot]
          exact unset c (.inl rfl) m g
    · intro d other
      have clientID := effect.clientID_kept d other
      have flag := effect.flag d
      have pair : (after.clients d).sessionPair = (s.clients d).sessionPair := by
        by_cases slot : d = wiped
        · rcases resets with same | unset
          · exact absurd (slot.trans (Fin.ext (effect.wiped_eq.trans same.symm))) other
          · have gone := effect.ids_wiped
            have before := unset d (.inr (slot ▸ effect.wiped_eq))
            rw [← slot] at gone
            exact pair_eq_of_ids fun m g => (gone m g).trans (before m g).symm
        · exact effect.ids_kept d slot
      exact client_eq_of_fields clientID flag pair

/-- After any calls, a deletion of an active client is defined and returns 0.  It removes
this client and nothing else exactly under the two conditions. -/
theorem deletion_exact_iff_own {chs : Int} {start s : Server} {history : List Event}
    {c : Fin maxClientNum} (bound : chs ≤ maxVideoChannel) (booted : Booted chs start)
    (run : Run (Step chs) start history s) (active : s.Active c) :
    (∃ reg, registration c history = some reg) ∧
      ∃ after, delClient chs s c = some (0, after) ∧
        (RemovesExactly history c s after ↔ ResetsOwn chs s c ∧ RecordsOwn chs history s c) := by
  have registered := ((run_tracks booted.initialised run) c).1.mp active
  have ok := run_clientsOk run booted.initialised.clientsOk
  have cleared := run_freeCleared bound booted run
  obtain ⟨⟨ret, after⟩, done⟩ := delClient_defined (fun m g => ok.valid c m g) (groups_le bound)
  obtain ⟨d, same, deletes⟩ := delClient_cases done
  have slot : c = d := Fin.ext (by omega)
  subst slot
  refine ⟨registration_of_registered registered, after, ?_⟩
  cases deletes with
  | inactive free => exact absurd active free
  | deleted wiped _ effect =>
      exact ⟨done, effect.removesExactly_iff cleared (cleared.delClient done)⟩

/-- Four channels, and the client in slot 1 is deleted. -/
theorem deletion_exact_iff_own_slot_one : ∃ start s history, Booted 4 start ∧
    Run (Step 4) start history s ∧ s.Active 1 ∧
      (∃ reg, registration 1 history = some reg) ∧
        ∃ after, delClient 4 s (1 : Fin maxClientNum) = some (0, after) ∧
          (RemovesExactly history 1 s after ↔ ResetsOwn 4 s 1 ∧ RecordsOwn 4 history s 1) := by
  have reached : ((trace 4 [.addClient "10.0.0.1" 5000 7000, .addClient "10.0.0.2" 6000 8000]).any
      fun (_, s) => decide (s.Active 1)) = true := by
    decide
  obtain ⟨⟨history, s⟩, traced, added⟩ := (Option.any_eq_true _ _).mp reached
  have active : s.Active 1 := of_decide_eq_true added
  obtain ⟨start, booted, run⟩ := trace_run traced
  exact ⟨start, s, history, booted, run, active, deletion_exact_iff_own (by decide) booted run active⟩

/-- Four channels and one client, in slot 0, whose IDs stay behind. -/
theorem deletion_exact_fails : ¬ ∀ (chs : Int) (start s after : Server) (history : List Event)
    (c : Fin maxClientNum), 0 < chs → chs ≤ maxVideoChannel → chs % chsPerSession = 0 →
      Booted chs start → Run (Step chs) start history s → s.Active c →
        delClient chs s c = some (0, after) → RemovesExactly history c s after := by
  intro claim
  have stale : ((trace 4 [.addClient "10.0.0.1" 5000 7000]).any fun reached =>
      decide (reached.2.Active 0) &&
        (delClient 4 reached.2 (0 : Fin maxClientNum)).any fun result =>
          decide (result.1 = 0 ∧ result.2.ids 0 .video 0 = 0)) = true := by
    decide
  obtain ⟨⟨history, s⟩, traced, found⟩ := (Option.any_eq_true _ _).mp stale
  simp only [Bool.and_eq_true, decide_eq_true_eq] at found
  obtain ⟨active, deleted⟩ := found
  obtain ⟨⟨ret, after⟩, done, kept⟩ := (Option.any_eq_true _ _).mp deleted
  obtain ⟨zero, kept⟩ := of_decide_eq_true kept
  dsimp only at zero
  subst zero
  obtain ⟨start, booted, run⟩ := trace_run traced
  have unset := (claim 4 start s after history 0 (by decide) (by decide) (by decide) booted run
    active done).ids .video 0
  rw [kept] at unset
  exact absurd unset (by decide)

end DvsServer.Core.Session
