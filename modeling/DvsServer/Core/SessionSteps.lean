import DvsServer.Core.Session

/-!
# What one call of `session.c` does

One specification lemma for each operation.  Later modules use these and never
unfold the operations themselves.
-/

namespace DvsServer.Core.Session

open DvsServer.Lib DvsServer.Com.RtpSend

/-! ## Session table -/

/-- Every object in the table was made earlier, and no two entries share one. -/
structure HandlesOk (m : SessionMgr) : Prop where
  bounded : ∀ i session, m.live i = some session → session.handle < m.nextHandle
  distinct : ∀ i j one two, m.live i = some one → m.live j = some two →
    one.handle = two.handle → i = j

/-- `made` are the new objects of the table, with handles no object had before. -/
structure Created (before after : SessionMgr) (made : List RtpSession) : Prop where
  grows : Grows SessionObj.pSession before.table after.table made
  nextHandle_le : before.nextHandle ≤ after.nextHandle
  fresh : ∀ session ∈ made,
    before.nextHandle ≤ session.handle ∧ session.handle < after.nextHandle
  handles : HandlesOk before → HandlesOk after

namespace Created

theorem refl (m : SessionMgr) : Created m m [] :=
  ⟨.refl _ _, Nat.le_refl _, fun _ inNil => absurd inNil List.not_mem_nil, id⟩

theorem publish_handles {m : SessionMgr} (ok : HandlesOk m) (i : Fin maxSessionNum)
    (ipStr : String) (port : Int) (payloadType : Nat) (inc : UInt32) :
    HandlesOk (m.publish i (newSession m ipStr port payloadType) inc) := by
  have held : ∀ j session,
      (m.publish i (newSession m ipStr port payloadType) inc).live j = some session →
        (j = i ∧ session.handle = m.nextHandle) ∨ (j ≠ i ∧ m.live j = some session) := by
    intro j session found
    by_cases same : j = i
    · subst same
      rw [publish_live_self] at found
      cases Option.some.inj found
      exact .inl ⟨rfl, rfl⟩
    · rw [publish_live_ne same] at found
      exact .inr ⟨same, found⟩
  refine ⟨fun j session found => ?_, fun j k one two foundOne foundTwo same => ?_⟩
  · change session.handle < m.nextHandle + 1
    rcases held j session found with ⟨_, new⟩ | ⟨_, old⟩
    · omega
    · have := ok.bounded j session old
      omega
  · rcases held j one foundOne with ⟨here, newOne⟩ | ⟨_, oldOne⟩ <;>
      rcases held k two foundTwo with ⟨there, newTwo⟩ | ⟨_, oldTwo⟩
    · exact here.trans there.symm
    · have := ok.bounded k two oldTwo
      omega
    · have := ok.bounded j one oldOne
      omega
    · exact ok.distinct j k one two oldOne oldTwo same

theorem publish {m : SessionMgr} {i : Fin maxSessionNum} (free : m.live i = none)
    (ipStr : String) (port : Int) (payloadType : Nat) (inc : UInt32) :
    Created m (m.publish i (newSession m ipStr port payloadType) inc)
      [newSession m ipStr port payloadType] := by
  refine ⟨Grows.place free rfl, Nat.le_succ _, fun session inOne => ?_,
    fun ok => publish_handles ok i ipStr port payloadType inc⟩
  cases List.mem_singleton.mp inOne
  exact ⟨Nat.le_refl _, Nat.lt_succ_self _⟩

theorem trans {first second third : SessionMgr} {made more : List RtpSession}
    (one : Created first second made) (two : Created second third more) :
    Created first third (made ++ more) := by
  refine ⟨one.grows.trans two.grows, Nat.le_trans one.nextHandle_le two.nextHandle_le, ?_,
    two.handles ∘ one.handles⟩
  intro session inBoth
  rcases List.mem_append.mp inBoth with inMade | inMore
  · exact ⟨(one.fresh _ inMade).1, Nat.lt_of_lt_of_le (one.fresh _ inMade).2 two.nextHandle_le⟩
  · exact ⟨Nat.le_trans one.nextHandle_le (two.fresh _ inMore).1, (two.fresh _ inMore).2⟩

theorem live {before after : SessionMgr} {made : List RtpSession}
    (created : Created before after made) {i : Fin maxSessionNum} {session : RtpSession}
    (held : before.live i = some session) : after.live i = some session :=
  created.grows.held held

theorem free {before after : SessionMgr} {made : List RtpSession}
    (created : Created before after made) {i : Fin maxSessionNum}
    (isFree : after.live i = none) : before.live i = none := by
  cases held : before.live i with
  | none => rfl
  | some session => exact absurd ((created.live held).symm.trans isFree) (by simp)

end Created

theorem creates_medium (medium : Medium) (m : SessionMgr) (ipStr : String) (port : Int) :
    Creates m ipStr port medium.payloadType medium.timeStampInc
      (createRtpSession m ipStr port medium.sessionType) := by
  cases medium with
  | video => exact createRtpSession_video m ipStr port
  | audio => exact createRtpSession_audio m ipStr port

/-- `rtp_send` and `remove_session_obj` accept every ID the server can hold. -/
theorem checkedEntry_valid {sessionID : Int} (valid : ValidID sessionID) :
    checkedEntry sessionID = some none ∨
      ∃ i : Fin maxSessionNum, sessionID = i ∧ checkedEntry sessionID = some (some i) := by
  rcases valid with same | ⟨i, same⟩
  · exact .inl (same ▸ checkedEntry_neg_one)
  · exact .inr ⟨i, same, same ▸ checkedEntry_index i⟩

theorem checkedEntry_eq {sessionID : Int} {i : Fin maxSessionNum}
    (inside : checkedEntry sessionID = some (some i)) : sessionID = i := by
  unfold checkedEntry at inside
  split at inside
  · cases inside
  · obtain ⟨entry, found, same⟩ := Option.map_eq_some_iff.mp inside
    cases same
    exact index?_eq_some.mp found

theorem checkedEntry_rejected {sessionID : Int} (rejected : checkedEntry sessionID = some none)
    (i : Fin maxSessionNum) : sessionID ≠ i := by
  intro same
  rw [same, checkedEntry_index] at rejected
  cases rejected

/-- `rtp_send` makes its oRTP call on the object its session ID names, and
changes no object. -/
theorem rtpSend_cases {m : SessionMgr} {sessionID : Int} {buffer : Nat} {len : Int32}
    {sending : Sending} (done : rtpSend m sessionID buffer len = some sending) :
    (∀ i, sending.mgr.live i = m.live i) ∧ sending.mgr.nextHandle = m.nextHandle ∧
      ∀ sent, sending.sent = some sent →
        ∃ i : Fin maxSessionNum, sessionID = i ∧ m.live i = some sent.session := by
  unfold rtpSend at done
  cases entry_eq : checkedEntry sessionID with
  | none => rw [entry_eq] at done; cases done
  | some accepted =>
      rw [entry_eq] at done
      cases accepted with
      | none =>
          cases Option.some.inj done
          exact ⟨fun _ => rfl, rfl, fun _ impossible => by cases impossible⟩
      | some i =>
          dsimp only at done
          cases held : (m.table i).pSession with
          | none =>
              rw [held] at done
              cases Option.some.inj done
              exact ⟨fun _ => rfl, rfl, fun _ impossible => by cases impossible⟩
          | some session =>
              rw [held] at done
              cases Option.some.inj done
              refine ⟨fun j => ?_, rfl, fun sent same => ?_⟩
              · by_cases same : j = i
                · subst same
                  rw [store_live_self]
                  exact held.symm
                · exact store_live_ne same _
              · cases Option.some.inj same
                exact ⟨i, checkedEntry_eq entry_eq, held⟩

theorem rtpSend_defined {sessionID : Int} (valid : ValidID sessionID) (m : SessionMgr)
    (buffer : Nat) (len : Int32) : ∃ sending, rtpSend m sessionID buffer len = some sending := by
  unfold rtpSend
  rcases checkedEntry_valid valid with rejected | ⟨i, _, inside⟩
  · exact ⟨_, by rw [rejected]⟩
  · rw [inside]
    cases held : (m.table i).pSession <;> simp only [held] <;> exact ⟨_, rfl⟩

/-- A call of `rtp_send` that passes both tests advances the time stamp. -/
theorem rtpSend_live {m : SessionMgr} {sessionID : Int} {entry : Fin maxSessionNum}
    {session : RtpSession} (checked : checkedEntry sessionID = some (some entry))
    (live : m.live entry = some session) (buffer : Nat) (len : Int32) :
    rtpSend m sessionID buffer len =
      some ⟨0, some ⟨session, buffer, len, (m.table entry).curTimeStamp⟩, m.advance entry⟩ := by
  change (m.table entry).pSession = some session at live
  simp only [rtpSend, checked, live, SessionMgr.advance]

theorem rtpSend_dead {m : SessionMgr} {sessionID : Int} {entry : Fin maxSessionNum}
    (checked : checkedEntry sessionID = some (some entry)) (dead : m.live entry = none)
    (buffer : Nat) (len : Int32) : rtpSend m sessionID buffer len = some ⟨-1, none, m⟩ := by
  change (m.table entry).pSession = none at dead
  simp only [rtpSend, checked, dead]

/-- `remove_session_obj` frees the entry its session ID names and no other. -/
theorem removeSessionObj_cases {m after : SessionMgr} {sessionID ret : Int}
    (done : removeSessionObj m sessionID = some (ret, after)) :
    after.nextHandle = m.nextHandle ∧
      ∀ i : Fin maxSessionNum, (sessionID = i → after.live i = none) ∧
        (sessionID ≠ i → after.table i = m.table i) := by
  unfold removeSessionObj at done
  cases entry_eq : checkedEntry sessionID with
  | none => rw [entry_eq] at done; cases done
  | some accepted =>
      rw [entry_eq] at done
      cases accepted with
      | none =>
          cases Option.some.inj done
          exact ⟨rfl, fun i => ⟨fun same => absurd same (checkedEntry_rejected entry_eq i),
            fun _ => rfl⟩⟩
      | some entry =>
          cases Option.some.inj done
          refine ⟨rfl, fun i => ⟨fun same => ?_, fun other => ?_⟩⟩
          · have here : entry = i := by
              rw [same, checkedEntry_index] at entry_eq
              exact (Option.some.inj (Option.some.inj entry_eq)).symm
            rw [here, store_live_self]
          · have elsewhere : i ≠ entry := fun same => other (same ▸ checkedEntry_eq entry_eq)
            exact Function.update_of_ne elsewhere _ _

theorem removeSessionObj_defined {sessionID : Int} (valid : ValidID sessionID) (m : SessionMgr) :
    ∃ result, removeSessionObj m sessionID = some result := by
  unfold removeSessionObj
  rcases checkedEntry_valid valid with rejected | ⟨i, _, inside⟩
  · exact ⟨_, by rw [rejected]⟩
  · exact ⟨_, by rw [inside]⟩

/-! ## Registration -/

@[simp] theorem setID_ids_self (pair : SessionPair) (medium : Medium) (g : Fin maxGroupNum)
    (id : Int) : (pair.setID g id medium).ids medium g = id := by
  cases medium <;> exact Function.update_self _ _ _

theorem setID_ids_ne {pair : SessionPair} {medium other : Medium} {g h : Fin maxGroupNum}
    (differs : other ≠ medium ∨ h ≠ g) (id : Int) :
    (pair.setID g id medium).ids other h = pair.ids other h := by
  rcases differs with differs | differs
  · cases medium <;> cases other <;> first | rfl | exact absurd rfl differs
  · cases medium <;> cases other <;> first | rfl | exact Function.update_of_ne differs _ _

@[simp] theorem setClient_self (s : Server) (c : Fin maxClientNum) (client : ClientObj) :
    (s.setClient c client).clients c = client :=
  Function.update_self _ _ _

theorem setClient_ne {s : Server} {c d : Fin maxClientNum} (other : d ≠ c) (client : ClientObj) :
    (s.setClient c client).clients d = s.clients d :=
  Function.update_of_ne other _ _

@[simp] theorem setClient_rtp (s : Server) (c : Fin maxClientNum) (client : ClientObj) :
    (s.setClient c client).rtp = s.rtp := rfl

theorem setClient_twice (s : Server) (c : Fin maxClientNum) (client other : ClientObj) :
    (s.setClient c client).setClient c other = s.setClient c other := by
  simp [Server.setClient]

/-- The session IDs a client slot records. -/
def Server.ids (s : Server) (c : Fin maxClientNum) : Medium → Fin maxGroupNum → Int :=
  (s.clients c).sessionPair.ids

/-- What a registration loop over the groups from `lo` up to `hi` does. -/
structure LoopEffect (medium : Medium) (id : Fin maxClientNum) (lo hi : Nat) (s after : Server)
    (made : List RtpSession) : Prop where
  others : ∀ d, d ≠ id → after.clients d = s.clients d
  clientID : (after.clients id).clientID = (s.clients id).clientID
  flag : (after.clients id).flag = (s.clients id).flag
  ids_kept : ∀ m (g : Fin maxGroupNum), m ≠ medium ∨ g.val < lo ∨ hi ≤ g.val →
    after.ids id m g = s.ids id m g
  valid : ∀ m g, ValidID (s.ids id m g) → ValidID (after.ids id m g)
  created : Created s.rtp after.rtp made
  payload : ∀ session ∈ made, session.payloadType = medium.payloadType

/-- A registration loop that did not fail recorded every session it created. -/
structure LoopDone (medium : Medium) (id : Fin maxClientNum) (lo hi : Nat) (s after : Server)
    (made : List RtpSession) : Prop where
  recorded : ∀ g : Fin maxGroupNum, lo ≤ g.val → g.val < hi →
    ∃ (i : Fin maxSessionNum) (session : RtpSession), after.ids id medium g = i ∧
      s.rtp.live i = none ∧ after.rtp.live i = some session ∧ session ∈ made
  covered : ∀ i, s.rtp.live i = none → after.rtp.live i ≠ none →
    ∃ g : Fin maxGroupNum, lo ≤ g.val ∧ g.val < hi ∧ after.ids id medium g = i

@[simp] theorem recordCreation_rtp (medium : Medium) (id : Fin maxClientNum)
    (g : Fin maxGroupNum) (creation : Creation) (s : Server) :
    (recordCreation medium id g creation s).rtp = creation.mgr := rfl

theorem recordCreation_ids_self (medium : Medium) (id : Fin maxClientNum)
    (g : Fin maxGroupNum) (creation : Creation) (s : Server) :
    (recordCreation medium id g creation s).ids id medium g = creation.ret := by
  simp [recordCreation, Server.ids]

theorem recordCreation_effect {medium : Medium} (id : Fin maxClientNum) (g : Fin maxGroupNum)
    {destIp : String} {port : Int} {inc : UInt32} {creation : Creation} {s : Server}
    (creates : Creates s.rtp destIp port medium.payloadType inc creation) :
    LoopEffect medium id g (g + 1) s (recordCreation medium id g creation s)
      creation.session.toList := by
  have created : Created s.rtp creation.mgr creation.session.toList ∧
      (∀ session ∈ creation.session.toList, session.payloadType = medium.payloadType) ∧
      ValidID creation.ret := by
    cases creates with
    | full => exact ⟨.refl _, fun _ inNil => absurd inNil List.not_mem_nil, .inl rfl⟩
    | made i free =>
        refine ⟨.publish free _ _ _ _, fun session inOne => ?_, .inr ⟨i, rfl⟩⟩
        cases List.mem_singleton.mp inOne
        rfl
  have kept : ∀ m (h : Fin maxGroupNum), m ≠ medium ∨ h ≠ g →
      (recordCreation medium id g creation s).ids id m h = s.ids id m h := fun m h differs => by
    simp only [Server.ids, recordCreation, setClient_self]
    exact setID_ids_ne differs _
  refine ⟨fun d other => setClient_ne other _, ?_, ?_, fun m h differs => ?_, fun m h valid => ?_,
    created.1, created.2.1⟩
  · simp [recordCreation]
  · simp [recordCreation]
  · refine kept m h (differs.imp_right fun away same => ?_)
    subst same
    omega
  · by_cases here : m = medium ∧ h = g
    · obtain ⟨rfl, rfl⟩ := here
      rw [recordCreation_ids_self]
      exact created.2.2
    · rw [kept m h (not_and_or.mp here)]
      exact valid

theorem LoopEffect.refl (medium : Medium) (id : Fin maxClientNum) (lo hi : Nat) (s : Server) :
    LoopEffect medium id lo hi s s [] :=
  ⟨fun _ _ => rfl, rfl, rfl, fun _ _ _ => rfl, fun _ _ valid => valid, .refl _,
    fun _ inNil => absurd inNil List.not_mem_nil⟩

theorem LoopEffect.append {medium : Medium} {id : Fin maxClientNum} {lo mid hi : Nat}
    {s between after : Server} {made more : List RtpSession} (le : lo ≤ mid) (le' : mid ≤ hi)
    (one : LoopEffect medium id lo mid s between made)
    (two : LoopEffect medium id mid hi between after more) :
    LoopEffect medium id lo hi s after (made ++ more) where
  others d other := (two.others d other).trans (one.others d other)
  clientID := two.clientID.trans one.clientID
  flag := two.flag.trans one.flag
  ids_kept m g differs := by
    rw [two.ids_kept m g (differs.imp_right fun outside => by omega),
      one.ids_kept m g (differs.imp_right fun outside => by omega)]
  valid m g := two.valid m g ∘ one.valid m g
  created := one.created.trans two.created
  payload session inBoth := by
    rcases List.mem_append.mp inBoth with inMade | inMore
    · exact one.payload _ inMade
    · exact two.payload _ inMore

/-- A pass that created a session, and then the rest of the loop. -/
theorem LoopDone.cons {medium : Medium} {id : Fin maxClientNum} {g : Fin maxGroupNum} {hi : Nat}
    {destIp : String} {port : Int} {inc : UInt32} {creation : Creation} {s after : Server}
    {more : List RtpSession}
    (creates : Creates s.rtp destIp port medium.payloadType inc creation)
    (succeeded : ¬ creation.ret < 0) (below : g.val < hi)
    (effect : LoopEffect medium id (g + 1) hi (recordCreation medium id g creation s) after more)
    (rest : LoopDone medium id (g + 1) hi (recordCreation medium id g creation s) after more) :
    LoopDone medium id g hi s after (creation.session.toList ++ more) := by
  have here : after.ids id medium g = creation.ret := by
    rw [effect.ids_kept medium g (.inr (.inl (Nat.lt_succ_self _)))]
    exact recordCreation_ids_self medium id g creation s
  have pass := recordCreation_effect id g creates
  cases creates with
  | full => exact absurd (show (-1 : Int) < 0 by decide) succeeded
  | made i free first =>
      have placed := effect.created.live (publish_live_self s.rtp i _ _)
      constructor
      · intro h lower upper
        by_cases same : h = g
        · subst same
          exact ⟨i, _, here, free, placed, List.mem_cons_self⟩
        · have lower' : g.val + 1 ≤ h.val := by
            have := fun eq => same (Fin.ext eq)
            omega
          obtain ⟨j, session, recorded, unused, held, inMore⟩ := rest.recorded h lower' upper
          exact ⟨j, session, recorded, pass.created.free unused, held, List.mem_cons_of_mem _ inMore⟩
      · intro j unused used
        by_cases same : j = i
        · subst same
          exact ⟨g, Nat.le_refl _, below, here⟩
        · obtain ⟨h, lower, upper, recorded⟩ :=
            rest.covered j ((publish_live_ne same _ _).trans unused) used
          exact ⟨h, by omega, upper, recorded⟩

/-- How a loop with `k + 1` groups left goes on when it has made its creation for group `g`. -/
inductive LoopPass (medium : Medium) (destIp : String) (base : Int) (id : Fin maxClientNum) (k : Nat)
    (g : Fin maxGroupNum) (creation : Creation) (s : Server) : Bool → List RtpSession → Server → Prop where
  | failed (failed : creation.ret < 0) :
      LoopPass medium destIp base id k g creation s false creation.session.toList
        (recordCreation medium id g creation s)
  | more {ok : Bool} {made : List RtpSession} {after : Server} (succeeded : ¬ creation.ret < 0)
      (rest : createLoop medium destIp base id k (g + 1) (recordCreation medium id g creation s) =
        some (ok, made, after)) :
      LoopPass medium destIp base id k g creation s ok (creation.session.toList ++ made) after

theorem createLoop_cases {medium : Medium} {destIp : String} {base : Int} {id : Fin maxClientNum}
    {k i : Nat} {s after : Server} {ok : Bool} {made : List RtpSession}
    (done : createLoop medium destIp base id (k + 1) i s = some (ok, made, after)) :
    ∃ (g : Fin maxGroupNum) (creation : Creation), i = g.val ∧
      Creates s.rtp destIp (medium.port base i) medium.payloadType medium.timeStampInc creation ∧
      LoopPass medium destIp base id k g creation s ok made after := by
  rw [createLoop] at done
  cases group : index? maxGroupNum i with
  | none =>
      rw [group] at done
      cases done
  | some g =>
      rw [group] at done
      dsimp only at done
      have start : i = g.val := by
        have found := index?_eq_some.mp group
        omega
      refine ⟨g, _, start, creates_medium medium s.rtp destIp (medium.port base i), ?_⟩
      subst start
      split at done
      · rename_i failed
        cases Option.some.inj done
        exact .failed failed
      · rename_i succeeded
        split at done
        · cases done
        · rename_i rest
          cases Option.some.inj done
          exact .more succeeded rest

/-- A registration loop from group `i` with `k` groups left. -/
theorem createLoop_effect {medium : Medium} {destIp : String} {base : Int}
    {id : Fin maxClientNum} {k i : Nat} {s after : Server} {ok : Bool} {made : List RtpSession}
    (done : createLoop medium destIp base id k i s = some (ok, made, after)) :
    LoopEffect medium id i (i + k) s after made ∧
      (ok = true → LoopDone medium id i (i + k) s after made) := by
  induction k generalizing i s ok made after with
  | zero =>
      cases Option.some.inj done
      refine ⟨.refl medium id i (i + 0) s, fun _ => ⟨?_, ?_⟩⟩
      · intro g lower upper
        omega
      · intro j unused used
        exact absurd unused used
  | succ k ih =>
      obtain ⟨g, creation, rfl, creates, pass⟩ := createLoop_cases done
      have first := recordCreation_effect id g creates
      have hi_eq : g.val + 1 + k = g.val + (k + 1) := by omega
      cases pass with
      | failed =>
          refine ⟨?_, fun impossible => by cases impossible⟩
          simpa using first.append (by omega) (by omega) (.refl medium id (g + 1) (g + (k + 1)) _)
      | more succeeded rest =>
          obtain ⟨effect, finished⟩ := ih rest
          rw [hi_eq] at effect finished
          exact ⟨first.append (by omega) (by omega) effect,
            fun yes => .cons creates succeeded (by omega) effect (finished yes)⟩

end DvsServer.Core.Session
