import DvsServer.Core.Isolation

/-!
# The entries of a registration

A registration records an entry of its own for each group of each medium it asked for,
with the time stamp step of the medium.  The entry stays the client's until the client
is deleted, unless the deletion of another client resets its IDs.
-/

namespace DvsServer.Core.Session

open DvsServer.Lib DvsServer.Com.RtpSend

/-! ## What a registration records -/

/-- Entry `i`, free before, is recorded for group `g` and for no other in this range. -/
structure Recording (medium : Medium) (id : Fin maxClientNum) (lo hi : Nat) (s after : Server)
    (g : Fin maxGroupNum) (i : Fin maxSessionNum) : Prop where
  at_ : after.ids id medium g = i
  free : s.rtp.live i = none
  used : after.rtp.live i ≠ none
  inc : (after.rtp.table i).timeStampInc = medium.timeStampInc
  only : ∀ h : Fin maxGroupNum, lo ≤ h.val → h.val < hi → after.ids id medium h = i → h = g

theorem Created.entry_kept {before after : SessionMgr} {made : List RtpSession}
    (created : Created before after made) {i : Fin maxSessionNum} (used : before.live i ≠ none) :
    after.table i = before.table i := by
  obtain ⟨session, held⟩ := Option.ne_none_iff_exists'.mp used
  exact created.grows.keeps i session held

/-- A pass that fills entry `i`, and then the rest of the loop. -/
theorem Recording.cons {medium : Medium} {id : Fin maxClientNum} {first : Fin maxGroupNum} {hi : Nat}
    {i : Fin maxSessionNum} {s after : Server} {session : RtpSession} {made : List RtpSession}
    (free : s.rtp.live i = none)
    (effect : LoopEffect medium id (first + 1) hi
      (recordCreation medium id first ⟨i, some session, s.rtp.publish i session medium.timeStampInc⟩ s)
      after made)
    (later : ∀ g : Fin maxGroupNum, first.val + 1 ≤ g.val → g.val < hi →
      ∃ entry, Recording medium id (first + 1) hi
        (recordCreation medium id first ⟨i, some session, s.rtp.publish i session medium.timeStampInc⟩ s)
        after g entry)
    (g : Fin maxGroupNum) (lower : first.val ≤ g.val) (upper : g.val < hi) :
    ∃ entry, Recording medium id first hi s after g entry := by
  have placed := publish_live_self s.rtp i session medium.timeStampInc
  have kept : after.rtp.table i = (s.rtp.publish i session medium.timeStampInc).table i :=
    effect.created.entry_kept (by rw [recordCreation_rtp, placed]; exact Option.some_ne_none _)
  have here : after.ids id medium first = i := by
    rw [effect.ids_kept medium first (.inr (.inl (Nat.lt_succ_self _)))]
    exact recordCreation_ids_self ..
  have apart : ∀ {h : Fin maxGroupNum} {entry}, Recording medium id (first + 1) hi
      (recordCreation medium id first ⟨i, some session, s.rtp.publish i session medium.timeStampInc⟩ s)
      after h entry → entry ≠ i := by
    rintro h entry recording rfl
    have unused := recording.free
    rw [recordCreation_rtp, placed] at unused
    cases unused
  have above : ∀ {h : Fin maxGroupNum}, first.val ≤ h.val → h ≠ first → first.val + 1 ≤ h.val := by
    intro h atLeast differs
    have differs' := fun same => differs (Fin.ext same)
    omega
  by_cases same : g = first
  · subst same
    refine ⟨i, here, free, ?_, ?_, ?_⟩
    · rw [SessionMgr.live, kept]
      exact fun none_ => Option.some_ne_none _ (placed.symm.trans none_)
    · rw [kept]
      simp [SessionMgr.publish, SessionMgr.store]
    · intro h lower' upper' recorded
      by_contra differs
      obtain ⟨entry, recording⟩ := later h (above lower' differs) upper'
      have entry_eq : entry = i := Fin.ext (by
        have at_ := recording.at_
        omega)
      exact apart recording entry_eq
  · obtain ⟨entry, recording⟩ := later g (above lower same) upper
    refine ⟨entry, recording.at_, ?_, recording.used, recording.inc, ?_⟩
    · have unused := recording.free
      rw [recordCreation_rtp, publish_live_ne (apart recording)] at unused
      exact unused
    · intro h lower' upper' recorded
      by_cases first_ : h = first
      · rw [first_, here] at recorded
        exact absurd (Fin.ext (by omega)) (apart recording)
      · exact recording.only h (above lower' first_) upper' recorded

theorem createLoop_recording {medium : Medium} {destIp : String} {base : Int} {id : Fin maxClientNum}
    {k i : Nat} {s after : Server} {made : List RtpSession}
    (done : createLoop medium destIp base id k i s = some (true, made, after)) :
    ∀ g : Fin maxGroupNum, i ≤ g.val → g.val < i + k →
      ∃ entry, Recording medium id i (i + k) s after g entry := by
  induction k generalizing i s made with
  | zero =>
      intro g lower upper
      omega
  | succ k ih =>
      obtain ⟨first, creation, rfl, creates, pass⟩ := createLoop_cases done
      have hi_eq : first.val + 1 + k = first.val + (k + 1) := by omega
      cases pass with
      | more succeeded rest =>
          have effect := (createLoop_effect rest).1
          have later := ih rest
          rw [hi_eq] at effect later
          cases creates with
          | full => exact absurd (show (-1 : Int) < 0 by decide) succeeded
          | made entry free _ => exact Recording.cons free effect later

theorem createSessions_recording {medium : Medium} {chs : Int} {destIp : String} {base : Int}
    {id : Fin maxClientNum} {s after : Server} {made : List RtpSession}
    (done : createSessions medium chs destIp base id s = some (true, made, after)) (g : Fin maxGroupNum)
    (below : g.val < span chs base) : ∃ entry, Recording medium id 0 (span chs base) s after g entry := by
  unfold createSessions at done
  unfold span at below ⊢
  split at done
  · rename_i positive
    rw [if_pos positive] at below ⊢
    have recording := createLoop_recording done g (Nat.zero_le _)
    rw [Nat.zero_add] at recording
    exact recording below
  · rename_i unused
    rw [if_neg unused] at below
    omega

/-- Entry `i` is the one slot `c` records for group `g` of medium `m`, and for nothing else. -/
structure OwnEntry (s : Server) (c : Fin maxClientNum) (m : Medium) (g : Fin maxGroupNum)
    (i : Fin maxSessionNum) : Prop where
  at_ : s.ids c m g = i
  inc : (s.rtp.table i).timeStampInc = m.timeStampInc
  only : ∀ n h, s.ids c n h = i → n = m ∧ h = g

/-- The entries of a registration, as far as the medium was asked for. -/
theorem addClient_recording {chs : Int} {s : Server} {destIp : String} {videoPort audioPort : Int}
    {adding : Adding} {id : Fin maxClientNum}
    (done : addClient chs s destIp videoPort audioPort = some adding) (ret : adding.ret = id)
    (m : Medium) (g : Fin maxGroupNum) (below : g.val < span chs (basePort videoPort audioPort m)) :
    ∃ i : Fin maxSessionNum, adding.server.ids id m g = i ∧ s.rtp.live i = none ∧
      (adding.server.rtp.table i).timeStampInc = m.timeStampInc ∧
      ∀ n (h : Fin maxGroupNum), h.val < span chs (basePort videoPort audioPort n) →
        adding.server.ids id n h = i → n = m ∧ h = g := by
  obtain ⟨slot, video, between, audio, after, madeVideo, madeAudio, rfl⟩ :=
    addClient_success done (by omega)
  have same : slot = id := Fin.ext (by
    have ret' : (slot.val : Int) = id := ret
    omega)
  subst same
  have two := (createSessions_effect madeAudio).1
  have one := createSessions_recording madeVideo
  have other := createSessions_recording madeAudio
  have videoKept : ∀ g, after.ids slot .video g = between.ids slot .video g := fun g =>
    two.ids_kept _ g (.inl (by decide))
  simp only [Server.ids, setClient_self, setClient_rtp]
  -- the entries of the audio loop were free when the video loop had filled its own
  cases m with
  | video =>
      obtain ⟨i, recording⟩ := one g below
      refine ⟨i, (videoKept g).trans recording.at_, recording.free, ?_, ?_⟩
      · rw [two.created.entry_kept recording.used]
        exact recording.inc
      · intro n h below' recorded
        cases n with
        | video => exact ⟨rfl, recording.only h (Nat.zero_le _) below' ((videoKept h).symm.trans recorded)⟩
        | audio =>
            obtain ⟨j, recording'⟩ := other h below'
            have same : j = i := Fin.ext (by
              have at_ : after.ids slot .audio h = j := recording'.at_
              have recorded' : after.ids slot .audio h = i := recorded
              omega)
            exact absurd (same ▸ recording'.free) recording.used
  | audio =>
      obtain ⟨i, recording⟩ := other g below
      have free := (createSessions_effect madeVideo).1.created.free recording.free
      refine ⟨i, recording.at_, free, recording.inc, ?_⟩
      intro n h below' recorded
      cases n with
      | audio => exact ⟨rfl, recording.only h (Nat.zero_le _) below' recorded⟩
      | video =>
          obtain ⟨j, recording'⟩ := one h below'
          have same : j = i := Fin.ext (by
            have at_ := recording'.at_
            have recorded' : after.ids slot .video h = i := recorded
            rw [videoKept] at recorded'
            omega)
          exact absurd recording.free (same ▸ recording'.used)

/-! ## What sending does to an entry -/

/-- `rtp_send` touches no entry but the one its session ID names. -/
theorem rtpSend_elsewhere {m : SessionMgr} {sessionID : Int} {buffer : Nat} {len : Int32}
    {sending : Sending} (done : rtpSend m sessionID buffer len = some sending) {i : Fin maxSessionNum}
    (differs : sessionID ≠ i) : sending.mgr.table i = m.table i := by
  unfold rtpSend at done
  cases entry_eq : checkedEntry sessionID with
  | none =>
      rw [entry_eq] at done
      cases done
  | some accepted =>
      rw [entry_eq] at done
      cases accepted with
      | none =>
          cases Option.some.inj done
          rfl
      | some j =>
          have elsewhere : i ≠ j := fun same => differs (same ▸ checkedEntry_eq entry_eq)
          dsimp only at done
          split at done
          · cases Option.some.inj done
            rfl
          · cases Option.some.inj done
            exact Function.update_of_ne elsewhere _ _

theorem rtpSend_inc {m : SessionMgr} {sessionID : Int} {buffer : Nat} {len : Int32} {sending : Sending}
    (done : rtpSend m sessionID buffer len = some sending) (i : Fin maxSessionNum) :
    (sending.mgr.table i).timeStampInc = (m.table i).timeStampInc := by
  by_cases here : sessionID = i
  · rw [here, rtpSend, checkedEntry_index] at done
    dsimp only at done
    split at done
    · cases Option.some.inj done
      rfl
    · cases Option.some.inj done
      simp [SessionMgr.store]
  · rw [rtpSend_elsewhere done here]

/-- One pass of the loop of `send_to_client`, when the slots hold their own numbers. -/
inductive SendPass (e : SessionElement) (ch : Fin maxVideoChannel) (c : Fin maxClientNum)
    (rest : List (Fin maxClientNum)) (s : Server) (sends : List ClientSend) (after : Server) : Prop where
  | skip (closed : routed s ch c = false) (done : sendLoop e rest s = some (sends, after)) :
      SendPass e ch c rest s sends after
  | send {sending : Sending} {more : List ClientSend} (opened : routed s ch c = true)
      (sent : rtpSend s.rtp (s.ids c (mediumOf e.dataType) (groupOf ch)) e.buffer e.len.toInt32 = some sending)
      (done : sendLoop e rest { s with rtp := sending.mgr } = some (more, after))
      (sends_eq : sends = ⟨c, s.ids c (mediumOf e.dataType) (groupOf ch), e.buffer, e.len.toInt32,
        sending.sent⟩ :: more) :
      SendPass e ch c rest s sends after

theorem sendLoop_pass {e : SessionElement} {ch : Fin maxVideoChannel} {c : Fin maxClientNum}
    {rest : List (Fin maxClientNum)} {s after : Server} {sends : List ClientSend}
    (channel : e.chId.toNat = ch.val) (ok : ClientsOk s)
    (done : sendLoop e (c :: rest) s = some (sends, after)) : SendPass e ch c rest s sends after := by
  have group : index? maxGroupNum (ch.val / chsPerSession : Nat) = some (groupOf ch) :=
    index?_eq_some.mpr rfl
  rw [sendLoop] at done
  dsimp only at done
  by_cases inactive : (s.clients c).clientID = -1
  · rw [if_pos inactive] at done
    exact .skip (by simp [routed, inactive]) done
  · rw [if_neg inactive, channel, checkChannel_own ok inactive ch] at done
    cases raised : (s.clients c).flag ch with
    | false =>
        rw [raised] at done
        exact .skip (by simp [routed, raised]) done
    | true =>
        rw [raised, group] at done
        dsimp only at done
        split at done
        · cases done
        · rename_i sending sent
          split at done
          · cases done
          · rename_i more last rest_eq
            cases Option.some.inj done
            exact .send (by simp [routed, raised, inactive]) sent rest_eq rfl

/-- The slots keep their numbers and IDs while frames are sent. -/
theorem ClientsOk.send {s : Server} (ok : ClientsOk s) (mgr : SessionMgr) :
    ClientsOk { s with rtp := mgr } :=
  ⟨ok.own, ok.valid⟩

theorem sendLoop_inc {e : SessionElement} {slots : List (Fin maxClientNum)} {s after : Server}
    {sends : List ClientSend} (done : sendLoop e slots s = some (sends, after)) (i : Fin maxSessionNum) :
    (after.rtp.table i).timeStampInc = (s.rtp.table i).timeStampInc := by
  induction slots generalizing s sends with
  | nil =>
      cases Option.some.inj done
      rfl
  | cons c rest ih =>
      rw [sendLoop] at done
      dsimp only at done
      split at done
      · exact ih done
      · split at done
        · cases done
        · exact ih done
        · split at done
          · cases done
          · split at done
            · cases done
            · rename_i sent
              split at done
              · cases done
              · rename_i rest_eq
                cases Option.some.inj done
                exact (ih rest_eq).trans (rtpSend_inc sent i)

theorem Step.sends {chs : Int} {s after : Server} {e : SessionElement} {outcome : Outcome}
    (step : Step chs s (.sendToClient e, outcome) after) : sendToClient s e = some (outcome.sends, after) := by
  obtain ⟨⟨sends, next⟩, done, same⟩ := Option.map_eq_some_iff.mp step
  cases same
  exact done

/-- The frames sent for a client, each with its session and its time stamp. -/
def stampsOf (c : Fin maxClientNum) (sends : List ClientSend) : List (RtpSession × UInt32) :=
  sends.filterMap fun send =>
    if send.client = c then send.sent.map fun sent => (sent.session, sent.timestamp) else none

theorem stampsOf_cons_ne {c : Fin maxClientNum} {send : ClientSend} (differs : send.client ≠ c)
    (more : List ClientSend) : stampsOf c (send :: more) = stampsOf c more := by
  simp [stampsOf, differs]

theorem stampsOf_cons_self {send : ClientSend} {sent : OrtpSend} (sent_eq : send.sent = some sent)
    (more : List ClientSend) :
    stampsOf send.client (send :: more) = (sent.session, sent.timestamp) :: stampsOf send.client more := by
  simp [stampsOf, sent_eq]

/-- An entry no visited slot sends on. -/
theorem sendLoop_elsewhere {e : SessionElement} {ch : Fin maxVideoChannel}
    (channel : e.chId.toNat = ch.val) {i : Fin maxSessionNum} {slots : List (Fin maxClientNum)}
    {s after : Server} {sends : List ClientSend} (ok : ClientsOk s)
    (elsewhere : ∀ d ∈ slots, routed s ch d = true → s.ids d (mediumOf e.dataType) (groupOf ch) ≠ i)
    (done : sendLoop e slots s = some (sends, after)) : after.rtp.table i = s.rtp.table i := by
  induction slots generalizing s sends with
  | nil =>
      cases Option.some.inj done
      rfl
  | cons d rest ih =>
      have elsewhere' : ∀ d ∈ rest, routed s ch d = true →
          s.ids d (mediumOf e.dataType) (groupOf ch) ≠ i := fun d inRest =>
        elsewhere d (List.mem_cons_of_mem _ inRest)
      cases sendLoop_pass channel ok done with
      | skip closed done => exact ih ok elsewhere' done
      | @send sending more opened sent done _ =>
          rw [ih (ok.send sending.mgr) elsewhere' done]
          exact rtpSend_elsewhere sent (elsewhere d List.mem_cons_self opened)

/-- A client whose slot is not visited, or has the channel closed. -/
theorem sendLoop_silent {e : SessionElement} {ch : Fin maxVideoChannel}
    (channel : e.chId.toNat = ch.val) {c : Fin maxClientNum} {slots : List (Fin maxClientNum)}
    {s after : Server} {sends : List ClientSend} (ok : ClientsOk s)
    (silent : c ∈ slots → routed s ch c = false) (done : sendLoop e slots s = some (sends, after)) :
    stampsOf c sends = [] := by
  induction slots generalizing s sends with
  | nil =>
      cases Option.some.inj done
      rfl
  | cons d rest ih =>
      have silent' : c ∈ rest → routed s ch c = false := fun inRest => silent (List.mem_cons_of_mem _ inRest)
      cases sendLoop_pass channel ok done with
      | skip closed done => exact ih ok silent' done
      | @send sending more opened sent done sends_eq =>
          have differs : d ≠ c := by
            rintro rfl
            rw [silent List.mem_cons_self] at opened
            cases opened
          rw [sends_eq, stampsOf_cons_ne differs]
          exact ih (ok.send sending.mgr) silent' done

/-- A client whose entry nobody else sends on: one frame leaves for it, with the entry's
time stamp, which advances. -/
theorem sendLoop_stamps {e : SessionElement} {ch : Fin maxVideoChannel}
    (channel : e.chId.toNat = ch.val) {c : Fin maxClientNum} {i : Fin maxSessionNum}
    {session : RtpSession} {slots : List (Fin maxClientNum)} {s after : Server} {sends : List ClientSend}
    (ok : ClientsOk s) (visited : c ∈ slots) (once : slots.Nodup) (opened : routed s ch c = true)
    (at_ : s.ids c (mediumOf e.dataType) (groupOf ch) = i) (live : s.rtp.live i = some session)
    (others : ∀ d, d ≠ c → routed s ch d = true → s.ids d (mediumOf e.dataType) (groupOf ch) ≠ i)
    (done : sendLoop e slots s = some (sends, after)) :
    stampsOf c sends = [(session, (s.rtp.table i).curTimeStamp)] ∧
      after.rtp.table i = (s.rtp.advance i).table i := by
  induction slots generalizing s sends with
  | nil => cases visited
  | cons d rest ih =>
      obtain ⟨notInRest, once'⟩ := List.nodup_cons.mp once
      cases sendLoop_pass channel ok done with
      | skip closed done =>
          have differs : c ≠ d := by
            rintro rfl
            rw [closed] at opened
            cases opened
          exact ih ok (List.mem_of_ne_of_mem differs visited) once' opened at_ live others done
      | @send sending more opened' sent done sends_eq =>
          by_cases here : d = c
          · subst here
            rw [at_, rtpSend_live (checkedEntry_index i) live] at sent
            cases Option.some.inj sent
            have rest_silent := sendLoop_silent (c := d) channel (ok.send (s.rtp.advance i))
              (fun inRest => absurd inRest notInRest) done
            have rest_elsewhere := sendLoop_elsewhere (i := i) channel (ok.send (s.rtp.advance i))
              (fun d' inRest opened => others d' (fun same => notInRest (same ▸ inRest)) opened) done
            refine ⟨?_, rest_elsewhere⟩
            rw [sends_eq]
            exact (stampsOf_cons_self rfl more).trans (congrArg _ rest_silent)
          · have kept := rtpSend_elsewhere sent (others d here opened')
            have live' : sending.mgr.live i = some session := by
              rw [SessionMgr.live, kept]
              exact live
            obtain ⟨stamps, advanced⟩ := ih (ok.send sending.mgr)
              (List.mem_of_ne_of_mem (Ne.symm here) visited) once' opened at_ live' others done
            constructor
            · rw [sends_eq, stampsOf_cons_ne here, ← kept]
              exact stamps
            · rw [advanced]
              simp [SessionMgr.advance, SessionMgr.store, kept]

/-- A client without a session. -/
theorem sendLoop_unset {e : SessionElement} {ch : Fin maxVideoChannel}
    (channel : e.chId.toNat = ch.val) {c : Fin maxClientNum} {slots : List (Fin maxClientNum)}
    {s after : Server} {sends : List ClientSend} (unset : s.ids c (mediumOf e.dataType) (groupOf ch) = -1)
    (done : sendLoop e slots s = some (sends, after)) : stampsOf c sends = [] := by
  apply List.filterMap_eq_nil_iff.mpr
  intro send member
  obtain ⟨_, ⟨g, g_eq, id_eq⟩, _, _, sent⟩ := (sendLoop_cases done).2.2.2 send member
  have group : g = groupOf ch := Fin.ext (by rw [g_eq, channel]; rfl)
  split
  · rename_i own
    cases sent_eq : send.sent with
    | none => rfl
    | some call =>
        obtain ⟨i, at_i, _⟩ := sent call sent_eq
        rw [id_eq, own, group, unset] at at_i
        omega
  · rfl

/-! ## Along a run -/

/-- A deletion of another client finds no IDs to reset. -/
def SparesIDs (chs : Int) (s : Server) : Event → Prop
  | (.delClient clientId, _) => ∀ c wiped : Fin maxClientNum, clientId = c → wiped.val = groups chs →
      s.Active c → wiped ≠ c → s.Active wiped → ∀ m g, s.ids wiped m g = -1
  | _ => True

instance (chs : Int) (s : Server) : (event : Event) → Decidable (SparesIDs chs s event)
  | (.delClient clientId, _) =>
      inferInstanceAs (Decidable (∀ c wiped : Fin maxClientNum, clientId = c → wiped.val = groups chs →
        s.Active c → wiped ≠ c → s.Active wiped → ∀ m g, s.ids wiped m g = -1))
  | (.addClient _ _ _, _) => .isTrue trivial
  | (.openChannel _ _, _) => .isTrue trivial
  | (.closeChannel _ _, _) => .isTrue trivial
  | (.sendToClient _, _) => .isTrue trivial

/-- A registration that asked for a medium has an entry of its own for every group. -/
def Equipped (chs : Int) (history : List Event) (s : Server) : Prop :=
  ∀ c reg, registration c history = some reg → ∀ m (g : Fin maxGroupNum), g.val < groups chs →
    reg.base m > 0 → ∃ i, OwnEntry s c m g i

theorem OwnEntry.congr {s after : Server} {c : Fin maxClientNum} {m : Medium} {g : Fin maxGroupNum}
    {i : Fin maxSessionNum} (own : OwnEntry s c m g i) (ids : after.ids c = s.ids c)
    (inc : (after.rtp.table i).timeStampInc = (s.rtp.table i).timeStampInc) : OwnEntry after c m g i := by
  refine ⟨?_, inc.trans own.inc, ?_⟩
  · rw [ids]
    exact own.at_
  · rw [ids]
    exact own.only

/-- The entries of an active client are live. -/
theorem Owned.live {chs : Int} {history : List Event} {s : Server} (owned : Owned chs history s)
    {c : Fin maxClientNum} {reg : Registration} (found : registration c history = some reg) {m : Medium}
    {g : Fin maxGroupNum} {i : Fin maxSessionNum} (at_ : s.ids c m g = i) :
    ∃ session, s.rtp.live i = some session := by
  rcases owned.recorded c reg found m g with unset | ⟨_, j, session, at_j, held, _⟩
  · omega
  · have same : i = j := Fin.ext (by omega)
    rw [same]
    exact ⟨session, held⟩

theorem routed_active {s : Server} {ch : Fin maxVideoChannel} {c : Fin maxClientNum}
    (opened : routed s ch c = true) : s.Active c := by
  rw [routed, Bool.and_eq_true] at opened
  exact bne_iff_ne.mp opened.1

/-- Nobody else's frames leave on the entry of a client. -/
theorem OwnEntry.others {chs : Int} {history : List Event} {s : Server} {c d : Fin maxClientNum} {m n : Medium}
    {g : Fin maxGroupNum} {i : Fin maxSessionNum} {ch : Fin maxVideoChannel} (own : OwnEntry s c m g i)
    (owned : Owned chs history s) (active : s.Active c) (differs : d ≠ c) (opened : routed s ch d = true) :
    s.ids d n (groupOf ch) ≠ i := by
  obtain ⟨reg, found⟩ := Option.isSome_iff_exists.mp ((owned.active_iff c).mp active)
  obtain ⟨regD, foundD⟩ := Option.isSome_iff_exists.mp ((owned.active_iff d).mp (routed_active opened))
  exact owned.entry_unique differs.symm found foundD own.at_

theorem registration_kept {c : Fin maxClientNum} {history : List Event} {event : Event} {reg : Registration}
    (notAdd : ¬ IsAdd c event) (found : registration c (event :: history) = some reg) :
    registration c history = some reg := by
  obtain ⟨op, outcome⟩ := event
  cases op with
  | addClient destIp videoPort audioPort =>
      rw [registration] at found
      split at found
      · rename_i returned
        exact absurd ⟨⟨_, _, _, rfl⟩, returned⟩ notAdd
      · exact found
  | delClient clientId =>
      rw [registration] at found
      split at found
      · cases found
      · exact found
  | openChannel clientID chId => exact found
  | closeChannel clientID chId => exact found
  | sendToClient e => exact found

/-- Nobody else's calls touch the entry of a client, nor its IDs when they are spared. -/
theorem Owned.kept {chs : Int} {history : List Event} {s after : Server} {event : Event}
    {c : Fin maxClientNum} {reg : Registration} {m : Medium} {g : Fin maxGroupNum}
    {i : Fin maxSessionNum} (owned : Owned chs history s) (spares : SparesIDs chs s event)
    (effect : Effect chs s event after) (notAdd : ¬ IsAdd c event)
    (found : registration c (event :: history) = some reg) (at_ : s.ids c m g = i) :
    after.ids c = s.ids c ∧
      (after.rtp.table i = s.rtp.table i ∨
        ∃ e sends, event.1 = .sendToClient e ∧ sendToClient s e = some (sends, after)) := by
  have before := registration_kept notAdd found
  have active := (owned.active_iff c).mpr (by rw [before]; rfl)
  obtain ⟨session, held⟩ := owned.live before at_
  have used : s.rtp.live i ≠ none := by
    rw [held]
    exact Option.some_ne_none _
  cases effect with
  | add destIp videoPort audioPort adds =>
      cases adds with
      | noSlot busy => exact ⟨rfl, .inl rfl⟩
      | failed id free code clientID effect =>
          have other : c ≠ id := fun same => free (same ▸ active)
          refine ⟨?_, .inl (effect.created.entry_kept used)⟩
          rw [Server.ids, effect.others c other]
          rfl
      | added id free first effect done =>
          have other : c ≠ id := fun same => free (same ▸ active)
          refine ⟨?_, .inl (effect.created.entry_kept used)⟩
          rw [Server.ids, effect.others c other]
          rfl
  | del d deletes =>
      cases deletes with
      | inactive free => exact ⟨rfl, .inl rfl⟩
      | deleted wiped activeD effect =>
          have differs : c ≠ d := by
            rintro rfl
            rw [registration_del, if_pos rfl] at found
            cases found
          have notWiped : c ≠ wiped := by
            rintro rfl
            have unset := spares d c rfl effect.wiped_eq activeD differs active m g
            omega
          obtain ⟨other, regD⟩ := Option.isSome_iff_exists.mp ((owned.active_iff d).mp activeD)
          have notOfD : ¬ Records (s.clients d).sessionPair 0 (groups chs) i := by
            rintro ⟨n, h, _, _, recorded⟩
            exact owned.entry_unique differs before regD at_ recorded
          refine ⟨?_, .inl (effect.entry_kept i notOfD)⟩
          rw [Server.ids, effect.ids_kept c notWiped]
          rfl
  | setFlags value d chId active => exact ⟨withFlags_ids .., .inl rfl⟩
  | ignored value d chId inactive => exact ⟨rfl, .inl rfl⟩
  | send e done =>
      refine ⟨?_, .inr ⟨e, _, rfl, done⟩⟩
      rw [Server.ids, (sendLoop_cases done).1]
      rfl

/-- A new registration is equipped. -/
theorem Owned.equips {chs : Int} {history : List Event} {s after : Server} {event : Event}
    {c : Fin maxClientNum} {reg : Registration} (ownedAfter : Owned chs (event :: history) after)
    (step : Step chs s event after) (isAdd : IsAdd c event)
    (found : registration c (event :: history) = some reg) {m : Medium} {g : Fin maxGroupNum}
    (below : g.val < groups chs) (asked : reg.base m > 0) : ∃ i, OwnEntry after c m g i := by
  obtain ⟨op, outcome⟩ := event
  obtain ⟨⟨destIp, videoPort, audioPort, rfl⟩, returned⟩ := isAdd
  obtain ⟨adding, done, same⟩ := Option.map_eq_some_iff.mp step
  cases same
  have reg_eq : registration c ((.addClient destIp videoPort audioPort,
      ⟨adding.ret, adding.created, []⟩) :: history) =
        some ⟨basePort videoPort audioPort, adding.created⟩ := if_pos returned
  have reg_found := found
  rw [reg_eq] at found
  cases Option.some.inj found
  have inSpan : g.val < span chs (basePort videoPort audioPort m) := by
    rw [span, if_pos asked]
    exact below
  obtain ⟨i, at_, _, inc, only⟩ := addClient_recording done returned m g inSpan
  refine ⟨i, at_, inc, fun n h recorded => only n h ?_ recorded⟩
  rcases ownedAfter.recorded c _ reg_found n h with unset | ⟨asked', _⟩
  · omega
  · rw [span, if_pos asked']
    by_contra outside
    have unset := ownedAfter.unused c n h (Nat.le_of_not_lt outside)
    omega

theorem Equipped.step {chs : Int} {history : List Event} {s after : Server} {event : Event}
    (equipped : Equipped chs history s) (owned : Owned chs history s) (clean : NothingLeftOver s event)
    (spares : SparesIDs chs s event) (step : Step chs s event after) :
    Equipped chs (event :: history) after := by
  intro c reg found m g below asked
  by_cases isAdd : IsAdd c event
  · exact (owned.step clean step.effect).equips step isAdd found below asked
  · obtain ⟨i, own⟩ := equipped c reg (registration_kept isAdd found) m g below asked
    obtain ⟨ids, kept | ⟨e, sends, _, sent⟩⟩ := owned.kept spares step.effect isAdd found own.at_
    · exact ⟨i, own.congr ids (by rw [kept])⟩
    · exact ⟨i, own.congr ids (sendLoop_inc sent i)⟩

/-- Registrations find nothing left over, and deletions spare the IDs of others. -/
def KeepsEntries (chs : Int) (s : Server) (event : Event) : Prop := NothingLeftOver s event ∧ SparesIDs chs s event

instance (chs : Int) (s : Server) (event : Event) : Decidable (KeepsEntries chs s event) :=
  inferInstanceAs (Decidable (_ ∧ _))

theorem run_equipped {chs : Int} {start s : Server} {history : List Event} (booted : Booted chs start)
    (run : Run (Guarded (KeepsEntries chs) (Step chs)) start history s) :
    Owned chs history s ∧ Equipped chs history s := by
  apply run.invariant fun history s => Owned chs history s ∧ Equipped chs history s
  · exact ⟨run_owned booted .nil, fun _ _ found => nomatch found⟩
  · rintro history s event next _ ⟨owned, equipped⟩ ⟨⟨clean, spares⟩, step⟩
    exact ⟨owned.step clean step.effect, equipped.step owned clean spares step⟩

end DvsServer.Core.Session
