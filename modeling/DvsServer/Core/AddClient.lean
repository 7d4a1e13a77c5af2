import DvsServer.Core.Entries

/-!
# When `add_client` succeeds

The two loops of `add_client` take one session entry for every group of every
medium that was asked for.  Whether they all find one depends on the number of
free entries alone, however these lie in the table.
-/

namespace DvsServer.Core.Session

open DvsServer.Lib DvsServer.Com.RtpSend

/-- The entries with `pSession == NULL`. -/
def freeEntries (m : SessionMgr) : Nat := freeCount (fun entry => entry.pSession.isNone) m.table

/-- The sessions a call asks for. -/
def need (chs : Int) (base : Medium → Int) : Nat := span chs (base .video) + span chs (base .audio)

/-! ## Counting -/

theorem freeEntries_eq_zero {m : SessionMgr} : freeEntries m = 0 ↔ ∀ i, m.live i ≠ none := by
  rw [freeEntries, freeCount_eq_zero]
  constructor
  · intro used i free
    have busy := used i
    change (m.live i).isNone = false at busy
    rw [free] at busy
    cases busy
  · intro used i
    exact Option.isNone_eq_false_iff.mpr (Option.isSome_iff_ne_none.mpr (used i))

/-- A creation fails on a full table, and takes one entry of any other. -/
theorem creates_left {m : SessionMgr} {ipStr : String} {port : Int} {payloadType : Nat}
    {inc : UInt32} {creation : Creation} (creates : Creates m ipStr port payloadType inc creation) :
    (freeEntries m = 0 ∧ creation = ⟨-1, none, m⟩) ∨
      (0 ≤ creation.ret ∧ freeEntries creation.mgr + 1 = freeEntries m) := by
  cases creates with
  | full used => exact .inl ⟨freeEntries_eq_zero.mpr used, rfl⟩
  | made i free first =>
      refine .inr ⟨Int.natCast_nonneg _, ?_⟩
      apply freeCount_fill
      · exact Option.isNone_iff_eq_none.mpr free
      · rfl

/-- A loop ends with success when no fewer entries are free than it has groups
left; it takes one for each group, or all there are. -/
theorem createLoop_outcome (medium : Medium) (destIp : String) (base : Int) (id : Fin maxClientNum)
    {k i : Nat} (inside : i + k ≤ maxGroupNum) (s : Server) :
    ∃ made after,
      createLoop medium destIp base id k i s = some (decide (k ≤ freeEntries s.rtp), made, after) ∧
        freeEntries after.rtp = freeEntries s.rtp - k := by
  induction k generalizing i s with
  | zero => exact ⟨[], s, rfl, rfl⟩
  | succ k ih =>
      have group : index? maxGroupNum i = some ⟨i, by omega⟩ := index?_eq_some.mpr rfl
      have creates := creates_medium medium s.rtp destIp (medium.port base i)
      rw [createLoop, group]
      generalize createRtpSession s.rtp destIp (medium.port base i) medium.sessionType = creation
        at creates
      rcases creates_left creates with ⟨none_, failed⟩ | ⟨succeeded, fewer⟩
      · subst failed
        refine ⟨[], recordCreation medium id ⟨i, by omega⟩ ⟨-1, none, s.rtp⟩ s, ?_, ?_⟩
        · simp [none_]
        · simp [none_]
      · obtain ⟨made, last, rest, left⟩ := ih (i := i + 1) (by omega)
          (recordCreation medium id ⟨i, by omega⟩ creation s)
        rw [recordCreation_rtp] at rest left
        have same : decide (k ≤ freeEntries creation.mgr) = decide (k + 1 ≤ freeEntries s.rtp) := by
          apply decide_eq_decide.mpr
          omega
        refine ⟨creation.session.toList ++ made, last, ?_, by omega⟩
        dsimp only
        rw [if_neg (by omega), rest, same]

/-- On a full table a loop fails at its first group, whose ID becomes `-1`. -/
theorem createLoop_full {medium : Medium} {destIp : String} {base : Int} {id : Fin maxClientNum}
    {k i : Nat} {s : Server} {g : Fin maxGroupNum} (full : freeEntries s.rtp = 0) (start : i = g.val) :
    createLoop medium destIp base id (k + 1) i s =
      some (false, [], recordCreation medium id g ⟨-1, none, s.rtp⟩ s) := by
  subst start
  have creates := creates_medium medium s.rtp destIp (medium.port base g)
  rw [createLoop, index?_val]
  generalize createRtpSession s.rtp destIp (medium.port base g) medium.sessionType = creation
    at creates
  rcases creates_left creates with ⟨_, failed⟩ | ⟨_, fewer⟩
  · subst failed
    rfl
  · omega

theorem groups_le {chs : Int} (bound : chs ≤ maxVideoChannel) : groups chs ≤ maxGroupNum := by
  by_cases none_ : groups chs = 0
  · omega
  · have width : chsPerSession = 4 := rfl
    have positive := groups_nonneg (Nat.pos_of_ne_zero none_)
    rw [groups, Int.tdiv_eq_ediv_of_nonneg positive, width]
    have wide : (maxVideoChannel : Int) = 32 := rfl
    have many : maxGroupNum = 8 := rfl
    omega

theorem createSessions_outcome (medium : Medium) {chs : Int} (bound : chs ≤ maxVideoChannel)
    (destIp : String) (base : Int) (id : Fin maxClientNum) (s : Server) :
    ∃ made after, createSessions medium chs destIp base id s =
        some (decide (span chs base ≤ freeEntries s.rtp), made, after) ∧
      freeEntries after.rtp = freeEntries s.rtp - span chs base := by
  unfold createSessions span
  split
  · apply createLoop_outcome
    rw [Nat.zero_add]
    exact groups_le bound
  · exact ⟨[], s, by simp, rfl⟩

/-! ## Entries left alone -/

theorem creates_spares {m : SessionMgr} {ipStr : String} {port : Int} {payloadType : Nat}
    {inc : UInt32} {creation : Creation} (creates : Creates m ipStr port payloadType inc creation)
    {i : Fin maxSessionNum} (free : creation.mgr.live i = none) : creation.mgr.table i = m.table i := by
  cases creates with
  | full => rfl
  | made j _ _ =>
      have other : i ≠ j := by
        intro same
        rw [same, publish_live_self] at free
        cases free
      exact Function.update_of_ne other _ _

/-- An entry that is free after a loop has not been touched by it. -/
theorem createLoop_spares {medium : Medium} {destIp : String} {base : Int} {id : Fin maxClientNum}
    {k i : Nat} {s after : Server} {ok : Bool} {made : List RtpSession}
    (done : createLoop medium destIp base id k i s = some (ok, made, after)) {entry : Fin maxSessionNum}
    (free : after.rtp.live entry = none) : after.rtp.table entry = s.rtp.table entry := by
  induction k generalizing i s ok made after with
  | zero =>
      cases Option.some.inj done
      rfl
  | succ k ih =>
      obtain ⟨g, creation, rfl, creates, pass⟩ := createLoop_cases done
      cases pass with
      | failed => exact creates_spares creates free
      | more succeeded rest =>
          have later := (createLoop_effect rest).1.created.free free
          exact (ih rest free).trans (creates_spares creates later)

theorem createSessions_spares {medium : Medium} {chs : Int} {destIp : String} {base : Int}
    {id : Fin maxClientNum} {s after : Server} {ok : Bool} {made : List RtpSession}
    (done : createSessions medium chs destIp base id s = some (ok, made, after))
    {entry : Fin maxSessionNum} (free : after.rtp.live entry = none) :
    after.rtp.table entry = s.rtp.table entry := by
  unfold createSessions at done
  split at done
  · exact createLoop_spares done free
  · cases Option.some.inj done
    rfl

/-! ## The whole call -/

/-- The slot `add_client` takes. -/
def freeSlot (s : Server) : Option (Fin maxClientNum) :=
  firstFree (fun client => client.clientID == -1) s.clients

theorem freeSlot_eq_some {s : Server} {c : Fin maxClientNum} :
    freeSlot s = some c ↔ ¬ s.Active c ∧ ∀ d < c, s.Active d := by
  rw [freeSlot, firstFree_eq_some]
  simp only [Server.Active, beq_iff_eq, not_not, beq_eq_false_iff_ne, ne_eq]

theorem freeSlot_eq_none {s : Server} : freeSlot s = none ↔ ∀ c, s.Active c := by
  rw [freeSlot, firstFree_eq_none]
  simp only [Server.Active, beq_eq_false_iff_ne]

theorem addClient_noSlot {chs : Int} {s : Server} (busy : ∀ c, s.Active c) (destIp : String)
    (baseVideoPort baseAudioPort : Int) :
    addClient chs s destIp baseVideoPort baseAudioPort = some ⟨-1, [], s⟩ := by
  have none_ := freeSlot_eq_none.mpr busy
  rw [freeSlot] at none_
  rw [addClient, none_]

/-- What a call that found slot `c` returns, and what it leaves of the free entries. -/
theorem addClient_outcome {chs : Int} (bound : chs ≤ maxVideoChannel) {s : Server}
    {c : Fin maxClientNum} (slot : freeSlot s = some c) (destIp : String)
    (baseVideoPort baseAudioPort : Int) :
    ∃ adding, addClient chs s destIp baseVideoPort baseAudioPort = some adding ∧
      (adding.ret = if need chs (basePort baseVideoPort baseAudioPort) ≤ freeEntries s.rtp then (c : Int)
        else if span chs baseVideoPort ≤ freeEntries s.rtp then -3 else -2) ∧
      freeEntries adding.server.rtp =
        freeEntries s.rtp - need chs (basePort baseVideoPort baseAudioPort) ∧
      ∀ i, adding.server.rtp.live i = none → adding.server.rtp.table i = s.rtp.table i := by
  rw [freeSlot] at slot
  obtain ⟨video, between, madeVideo, leftVideo⟩ :=
    createSessions_outcome .video bound destIp baseVideoPort c s
  obtain ⟨audio, after, madeAudio, leftAudio⟩ :=
    createSessions_outcome .audio bound destIp baseAudioPort c between
  have need_eq : need chs (basePort baseVideoPort baseAudioPort) =
      span chs baseVideoPort + span chs baseAudioPort := rfl
  rw [addClient, slot]
  dsimp only
  by_cases enough : span chs baseVideoPort ≤ freeEntries s.rtp
  · rw [decide_eq_true enough] at madeVideo
    rw [madeVideo]
    dsimp only
    by_cases all : span chs baseAudioPort ≤ freeEntries between.rtp
    · rw [decide_eq_true all] at madeAudio
      rw [madeAudio]
      refine ⟨_, rfl, ?_, ?_, ?_⟩
      · dsimp only
        rw [if_pos (by omega)]
      · rw [setClient_rtp, leftAudio, leftVideo, need_eq]
        omega
      · intro i free
        rw [setClient_rtp] at free ⊢
        have earlier := (createSessions_effect madeAudio).1.created.free free
        exact (createSessions_spares madeAudio free).trans (createSessions_spares madeVideo earlier)
    · rw [decide_eq_false all] at madeAudio
      rw [madeAudio]
      refine ⟨_, rfl, ?_, ?_, ?_⟩
      · dsimp only
        rw [if_neg (by omega), if_pos enough]
      · dsimp only
        omega
      · intro i free
        have earlier := (createSessions_effect madeAudio).1.created.free free
        exact (createSessions_spares madeAudio free).trans (createSessions_spares madeVideo earlier)
  · rw [decide_eq_false enough] at madeVideo
    rw [madeVideo]
    refine ⟨_, rfl, ?_, ?_, ?_⟩
    · dsimp only
      rw [if_neg (by omega), if_neg enough]
    · dsimp only
      omega
    · intro i free
      exact createSessions_spares madeVideo free

/-- What a registration in slot `c` does to the tables. -/
structure Registers (chs : Int) (base : Medium → Int) (c : Fin maxClientNum) (s after : Server) :
    Prop where
  lowest : ¬ s.Active c ∧ ∀ d < c, s.Active d
  clientID : (after.clients c).clientID = c
  flag : ∀ ch, (after.clients c).flag ch = false
  recorded : ∀ m (g : Fin maxGroupNum), g.val < span chs (base m) →
    ∃ i : Fin maxSessionNum, after.ids c m g = i ∧ s.rtp.live i = none ∧ after.rtp.live i ≠ none
  distinct : ∀ m n (g h : Fin maxGroupNum), g.val < span chs (base m) → h.val < span chs (base n) →
    after.ids c m g = after.ids c n h → m = n ∧ g = h
  others : ∀ d, d ≠ c → after.clients d = s.clients d
  spared : ∀ i : Fin maxSessionNum,
    (∀ m (g : Fin maxGroupNum), g.val < span chs (base m) → after.ids c m g ≠ i) →
      after.rtp.table i = s.rtp.table i

theorem addClient_registers {chs : Int} {s : Server} {destIp : String}
    {baseVideoPort baseAudioPort : Int} {adding : Adding} {c : Fin maxClientNum}
    (done : addClient chs s destIp baseVideoPort baseAudioPort = some adding) (ret : adding.ret = c)
    (left : ∀ i, adding.server.rtp.live i = none → adding.server.rtp.table i = s.rtp.table i) :
    Registers chs (basePort baseVideoPort baseAudioPort) c s adding.server := by
  have recording := addClient_recording done ret
  have adds := addClient_cases done
  cases adds with
  | noSlot =>
      have impossible : (-1 : Int) = c := ret
      omega
  | failed _ _ code =>
      dsimp only at ret
      omega
  | added id free first effect registered =>
      have same : id = c := Fin.ext (by
        have ret' : (id.val : Int) = c := ret
        omega)
      subst same
      constructor
      · exact ⟨free, first⟩
      · exact registered.clientID
      · exact registered.flag
      · intro m g below
        obtain ⟨i, session, at_, live, _⟩ := registered.recorded m g below
        obtain ⟨j, at_', unused, _⟩ := recording m g below
        have same : i = j := Fin.ext (by
          have at_'' : (i.val : Int) = j := at_.symm.trans at_'
          omega)
        subst same
        exact ⟨i, at_, unused, by rw [live]; exact Option.some_ne_none _⟩
      · intro m n g h below below' same
        obtain ⟨i, at_, _, _, only⟩ := recording n h below'
        exact only m g below (same.trans at_)
      · exact effect.others
      · intro i unrecorded
        by_cases free' : s.rtp.live i = none
        · apply left
          by_contra used
          obtain ⟨m, g, below, recorded⟩ := registered.covered i free' used
          exact unrecorded m g below recorded
        · exact effect.created.entry_kept free'

theorem addClient_total {chs : Int} (bound : chs ≤ maxVideoChannel) (s : Server) (destIp : String)
    (baseVideoPort baseAudioPort : Int) :
    ∃ adding, addClient chs s destIp baseVideoPort baseAudioPort = some adding := by
  cases slot : freeSlot s with
  | none =>
      exact ⟨_, addClient_noSlot (freeSlot_eq_none.mp slot) destIp baseVideoPort baseAudioPort⟩
  | some c =>
      obtain ⟨adding, done, _⟩ := addClient_outcome bound slot destIp baseVideoPort baseAudioPort
      exact ⟨adding, done⟩

section

variable {chs : Int} {s : Server} {destIp : String} {baseVideoPort baseAudioPort : Int}
  {adding : Adding}

theorem addClient_busy (done : addClient chs s destIp baseVideoPort baseAudioPort = some adding)
    (busy : ∀ c, s.Active c) : adding.ret = -1 := by
  rw [addClient_noSlot busy] at done
  rw [← Option.some.inj done]

/-- The result of a call that finds a free slot. -/
theorem addClient_idle (bound : chs ≤ maxVideoChannel)
    (done : addClient chs s destIp baseVideoPort baseAudioPort = some adding)
    (idle : ¬ ∀ c, s.Active c) : ∃ c : Fin maxClientNum, ¬ s.Active c ∧
      (adding.ret =
        if need chs (basePort baseVideoPort baseAudioPort) ≤ freeEntries s.rtp then (c : Int)
        else if span chs baseVideoPort ≤ freeEntries s.rtp then -3 else -2) ∧
      ∀ i, adding.server.rtp.live i = none → adding.server.rtp.table i = s.rtp.table i := by
  cases slot : freeSlot s with
  | none => exact absurd (freeSlot_eq_none.mp slot) idle
  | some c =>
      obtain ⟨adding', done', ret, _, left⟩ :=
        addClient_outcome bound slot destIp baseVideoPort baseAudioPort
      cases Option.some.inj (done.symm.trans done')
      exact ⟨c, (freeSlot_eq_some.mp slot).1, ret, left⟩

theorem addClient_succeeds_iff (bound : chs ≤ maxVideoChannel)
    (done : addClient chs s destIp baseVideoPort baseAudioPort = some adding) :
    0 ≤ adding.ret ↔ (∃ c, ¬ s.Active c) ∧
      need chs (basePort baseVideoPort baseAudioPort) ≤ freeEntries s.rtp := by
  by_cases busy : ∀ c, s.Active c
  · have ret := addClient_busy done busy
    constructor
    · intro succeeded
      omega
    · rintro ⟨⟨c, free⟩, _⟩
      exact absurd (busy c) free
  · obtain ⟨c, free, ret, _⟩ := addClient_idle bound done busy
    constructor
    · intro succeeded
      refine ⟨⟨c, free⟩, ?_⟩
      by_contra short
      rw [if_neg short] at ret
      split at ret <;> omega
    · rintro ⟨_, enough⟩
      rw [if_pos enough] at ret
      omega

theorem addClient_registers_slot (bound : chs ≤ maxVideoChannel)
    (done : addClient chs s destIp baseVideoPort baseAudioPort = some adding)
    (succeeded : 0 ≤ adding.ret) : ∃ c : Fin maxClientNum, adding.ret = c ∧
      Registers chs (basePort baseVideoPort baseAudioPort) c s adding.server := by
  obtain ⟨⟨idle, free'⟩, enough⟩ := (addClient_succeeds_iff bound done).mp succeeded
  obtain ⟨c, _, ret, left⟩ := addClient_idle bound done fun busy => free' (busy idle)
  rw [if_pos enough] at ret
  exact ⟨c, ret, addClient_registers done ret left⟩

/-- Which error a call returns. -/
theorem addClient_code (bound : chs ≤ maxVideoChannel)
    (done : addClient chs s destIp baseVideoPort baseAudioPort = some adding)
    (failed : adding.ret < 0) : adding.ret =
      if ∀ c, s.Active c then -1
      else if baseVideoPort > 0 ∧ freeEntries s.rtp < groups chs then -2 else -3 := by
  by_cases busy : ∀ c, s.Active c
  · rw [if_pos busy]
    exact addClient_busy done busy
  · obtain ⟨c, _, ret, _⟩ := addClient_idle bound done busy
    have video : span chs baseVideoPort ≤ freeEntries s.rtp ↔
        ¬ (baseVideoPort > 0 ∧ freeEntries s.rtp < groups chs) := by
      unfold span
      split
      · omega
      · omega
    rw [if_neg busy]
    split at ret
    · omega
    · by_cases enough : span chs baseVideoPort ≤ freeEntries s.rtp
      · rw [if_pos enough] at ret
        rw [if_neg (video.mp enough)]
        exact ret
      · rw [if_neg enough] at ret
        rw [if_pos (not_not.mp (fun other => enough (video.mpr other)))]
        exact ret

end

/-- When `add_client` succeeds, what it then does and how it fails otherwise. -/
theorem addClient_exact {chs : Int} (bound : chs ≤ maxVideoChannel) (s : Server) (destIp : String)
    (baseVideoPort baseAudioPort : Int) :
    ∃ adding, addClient chs s destIp baseVideoPort baseAudioPort = some adding ∧
      (0 ≤ adding.ret ↔ (∃ c, ¬ s.Active c) ∧
        need chs (basePort baseVideoPort baseAudioPort) ≤ freeEntries s.rtp) ∧
      (0 ≤ adding.ret → ∃ c : Fin maxClientNum, adding.ret = c ∧
        Registers chs (basePort baseVideoPort baseAudioPort) c s adding.server) ∧
      (adding.ret < 0 → adding.ret =
        if ∀ c, s.Active c then -1
        else if baseVideoPort > 0 ∧ freeEntries s.rtp < groups chs then -2 else -3) := by
  obtain ⟨adding, done⟩ := addClient_total bound s destIp baseVideoPort baseAudioPort
  exact ⟨adding, done, addClient_succeeds_iff bound done, addClient_registers_slot bound done,
    addClient_code bound done⟩

/-- A server that was just set up registers its first client; after a second one, of video only,
a third finds sessions for its video but none for its audio. -/
theorem addClient_exact_booted :
    (∃ s adding, boot 32 = some s ∧ addClient 32 s "10.0.0.1" 5000 7000 = some adding ∧
      adding.ret = 0 ∧
      (0 ≤ adding.ret ↔ (∃ c, ¬ s.Active c) ∧ need 32 (basePort 5000 7000) ≤ freeEntries s.rtp) ∧
      (0 ≤ adding.ret → ∃ c : Fin maxClientNum, adding.ret = c ∧
        Registers 32 (basePort 5000 7000) c s adding.server) ∧
      (adding.ret < 0 → adding.ret =
        if ∀ c, s.Active c then -1
        else if (5000 : Int) > 0 ∧ freeEntries s.rtp < groups 32 then -2 else -3)) ∧
    ∃ history s adding,
      trace 32 [.addClient "10.0.0.1" 5000 7000, .addClient "10.0.0.2" 5000 0] = some (history, s) ∧
      addClient 32 s "10.0.0.3" 5000 7000 = some adding ∧ adding.ret = -3 ∧
      (0 ≤ adding.ret ↔ (∃ c, ¬ s.Active c) ∧ need 32 (basePort 5000 7000) ≤ freeEntries s.rtp) ∧
      (0 ≤ adding.ret → ∃ c : Fin maxClientNum, adding.ret = c ∧
        Registers 32 (basePort 5000 7000) c s adding.server) ∧
      (adding.ret < 0 → adding.ret =
        if ∀ c, s.Active c then -1
        else if (5000 : Int) > 0 ∧ freeEntries s.rtp < groups 32 then -2 else -3) := by
  have bound : (32 : Int) ≤ maxVideoChannel := by decide
  constructor
  · have registered : ((boot 32).any fun s => (addClient 32 s "10.0.0.1" 5000 7000).any fun adding =>
        decide (adding.ret = 0)) = true := by
      decide
    obtain ⟨s, booted, registered⟩ := (Option.any_eq_true _ _).mp registered
    obtain ⟨adding, done, exact_⟩ := addClient_exact bound s "10.0.0.1" 5000 7000
    rw [done] at registered
    exact ⟨s, adding, booted, done, of_decide_eq_true registered, exact_⟩
  · have failed : ((trace 32 [.addClient "10.0.0.1" 5000 7000, .addClient "10.0.0.2" 5000 0]).any
        fun (_, s) => (addClient 32 s "10.0.0.3" 5000 7000).any fun adding =>
          decide (adding.ret = -3)) = true := by
      decide
    obtain ⟨⟨history, s⟩, traced, failed⟩ := (Option.any_eq_true _ _).mp failed
    obtain ⟨adding, done, exact_⟩ := addClient_exact bound s "10.0.0.3" 5000 7000
    dsimp only at failed
    rw [done] at failed
    exact ⟨history, s, adding, traced, done, of_decide_eq_true failed, exact_⟩

/-! ## Failed calls -/

/-- The medium whose loop runs first. -/
def firstMedium (baseVideoPort : Int) : Medium := if baseVideoPort > 0 then .video else .audio

theorem setID_self {pair : SessionPair} {m : Medium} {g : Fin maxGroupNum} {id : Int}
    (same : pair.ids m g = id) : pair.setID g id m = pair := by
  subst same
  cases m with
  | video => exact congrArg (SessionPair.mk · pair.audioIDs) (Function.update_eq_self g pair.videoIDs)
  | audio => exact congrArg (SessionPair.mk pair.videoIDs) (Function.update_eq_self g pair.audioIDs)

/-- A failed creation stores `-1` in the slot. -/
theorem recordCreation_clients_iff {m : Medium} {c : Fin maxClientNum} {g : Fin maxGroupNum} {s : Server} :
    (recordCreation m c g ⟨-1, none, s.rtp⟩ s).clients = s.clients ↔ s.ids c m g = -1 := by
  constructor
  · intro same
    have stored := recordCreation_ids_self m c g ⟨-1, none, s.rtp⟩ s
    rw [Server.ids, same] at stored
    exact stored
  · intro unset
    have pair := setID_self unset
    simp only [recordCreation, Server.setClient, pair]
    exact Function.update_eq_self c s.clients

/-- On a full table the call fails at the first session. -/
theorem addClient_full {chs : Int} {s : Server} {c : Fin maxClientNum} (slot : freeSlot s = some c)
    (full : freeEntries s.rtp = 0) (destIp : String) {baseVideoPort baseAudioPort : Int}
    (asked : 0 < need chs (basePort baseVideoPort baseAudioPort)) :
    ∃ ret, addClient chs s destIp baseVideoPort baseAudioPort =
      some ⟨ret, [], recordCreation (firstMedium baseVideoPort) c 0 ⟨-1, none, s.rtp⟩ s⟩ := by
  have need_eq : need chs (basePort baseVideoPort baseAudioPort) =
      span chs baseVideoPort + span chs baseAudioPort := rfl
  have some_ : ∃ k, groups chs = k + 1 := by
    have video := span_le chs baseVideoPort
    have audio := span_le chs baseAudioPort
    exact ⟨groups chs - 1, by omega⟩
  obtain ⟨k, groups_eq⟩ := some_
  have fails : ∀ (m : Medium) (base : Int), base > 0 → createSessions m chs destIp base c s =
      some (false, [], recordCreation m c 0 ⟨-1, none, s.rtp⟩ s) := by
    intro m base positive
    rw [createSessions, if_pos positive, groups_eq]
    exact createLoop_full full rfl
  rw [freeSlot] at slot
  rw [addClient, slot, firstMedium]
  dsimp only
  by_cases video : baseVideoPort > 0
  · rw [fails .video baseVideoPort video, if_pos video]
    exact ⟨-2, rfl⟩
  · have audio : baseAudioPort > 0 := by
      by_contra unused
      rw [span, if_neg video, span, if_neg unused] at need_eq
      omega
    have skipped : createSessions .video chs destIp baseVideoPort c s = some (true, [], s) := by
      rw [createSessions, if_neg video]
    rw [skipped]
    dsimp only
    rw [fails .audio baseAudioPort audio, if_neg video]
    exact ⟨-3, rfl⟩

/-- Neither the client table nor the session table has changed. -/
def TablesKept (s after : Server) : Prop := after.clients = s.clients ∧ after.rtp.table = s.rtp.table

/-- A failed call leaves the tables alone only where no session was left to create
and the ID it stores was there before. -/
theorem addClient_keeps_tables_iff {chs : Int} (bound : chs ≤ maxVideoChannel) (s : Server)
    (destIp : String) (baseVideoPort baseAudioPort : Int) :
    ∃ adding, addClient chs s destIp baseVideoPort baseAudioPort = some adding ∧
      ((adding.ret < 0 → TablesKept s adding.server) ↔
        (∀ c, s.Active c) ∨ need chs (basePort baseVideoPort baseAudioPort) ≤ freeEntries s.rtp ∨
          (freeEntries s.rtp = 0 ∧
            ∀ c, freeSlot s = some c → s.ids c (firstMedium baseVideoPort) 0 = -1)) := by
  cases slot : freeSlot s with
  | none =>
      have busy := freeSlot_eq_none.mp slot
      exact ⟨_, addClient_noSlot busy destIp baseVideoPort baseAudioPort,
        fun _ => .inl busy, fun _ _ => ⟨rfl, rfl⟩⟩
  | some c =>
      have idle : ¬ ∀ c, s.Active c := fun busy => (freeSlot_eq_some.mp slot).1 (busy c)
      obtain ⟨adding, done, ret, left, _⟩ :=
        addClient_outcome bound slot destIp baseVideoPort baseAudioPort
      refine ⟨adding, done, ?_⟩
      by_cases enough : need chs (basePort baseVideoPort baseAudioPort) ≤ freeEntries s.rtp
      · rw [if_pos enough] at ret
        exact ⟨fun _ => .inr (.inl enough), fun _ negative => by omega⟩
      · have negative : adding.ret < 0 := by
          rw [if_neg enough] at ret
          split at ret <;> omega
        by_cases full : freeEntries s.rtp = 0
        · have asked : 0 < need chs (basePort baseVideoPort baseAudioPort) := by omega
          obtain ⟨ret', failed⟩ := addClient_full slot full destIp asked
          rw [failed] at done
          cases Option.some.inj done
          constructor
          · intro keeps
            refine .inr (.inr ⟨full, fun d same => ?_⟩)
            cases Option.some.inj same
            exact recordCreation_clients_iff.mp (keeps negative).1
          · rintro (busy | enough' | ⟨_, unset⟩)
            · exact absurd busy idle
            · exact absurd enough' enough
            · intro _
              exact ⟨recordCreation_clients_iff.mpr (unset c rfl), rfl⟩
        · constructor
          · intro keeps
            -- sessions were created, and none of them has been released
            have same : freeEntries adding.server.rtp = freeEntries s.rtp := by
              rw [freeEntries, (keeps negative).2, freeEntries]
            omega
          · rintro (busy | enough' | ⟨none_, _⟩)
            · exact absurd busy idle
            · exact absurd enough' enough
            · exact absurd none_ full

/-- With 32 channels the third client finds a free slot and eight free entries; it needs 16. -/
theorem addClient_keeps_tables_iff_third : ∃ history s adding,
    trace 32 [.addClient "10.0.0.1" 5000 7000, .addClient "10.0.0.2" 5000 0] = some (history, s) ∧
      addClient 32 s "10.0.0.3" 5000 7000 = some adding ∧ adding.ret = -3 ∧
        ((adding.ret < 0 → TablesKept s adding.server) ↔
          (∀ c, s.Active c) ∨ need 32 (basePort 5000 7000) ≤ freeEntries s.rtp ∨
            (freeEntries s.rtp = 0 ∧
              ∀ c, freeSlot s = some c → s.ids c (firstMedium 5000) 0 = -1)) := by
  have failed : ((trace 32 [.addClient "10.0.0.1" 5000 7000, .addClient "10.0.0.2" 5000 0]).any
      fun (_, s) => (addClient 32 s "10.0.0.3" 5000 7000).any fun adding =>
        decide (adding.ret = -3)) = true := by
    decide
  obtain ⟨⟨history, s⟩, traced, failed⟩ := (Option.any_eq_true _ _).mp failed
  obtain ⟨adding, done, exact_⟩ := addClient_keeps_tables_iff
    (show (32 : Int) ≤ maxVideoChannel by decide) s "10.0.0.3" 5000 7000
  dsimp only at failed
  rw [done] at failed
  exact ⟨history, s, adding, traced, done, of_decide_eq_true failed, exact_⟩

/-- Two clients hold 24 of the 32 entries.  The third takes the last eight for its
video and then finds none for its audio. -/
theorem addClient_keeps_tables_fails : ¬ ∀ (chs : Int) (start s : Server) (history : List Event)
    (destIp : String) (baseVideoPort baseAudioPort : Int) (adding : Adding),
    0 < chs → chs ≤ maxVideoChannel → chs % chsPerSession = 0 → Booted chs start →
      Run (Step chs) start history s →
        addClient chs s destIp baseVideoPort baseAudioPort = some adding → adding.ret < 0 →
          TablesKept s adding.server := by
  intro claim
  have leaked : ((trace 32 [.addClient "10.0.0.1" 5000 7000, .addClient "10.0.0.2" 5000 0]).any
      fun (_, s) => (addClient 32 s "10.0.0.3" 5000 7000).any fun adding =>
        decide (adding.ret < 0) && (adding.server.rtp.live 24).isSome && (s.rtp.live 24).isNone) = true := by
    decide
  obtain ⟨⟨history, s⟩, traced, third⟩ := (Option.any_eq_true _ _).mp leaked
  obtain ⟨adding, done, left⟩ := (Option.any_eq_true _ _).mp third
  simp only [Bool.and_eq_true, decide_eq_true_eq] at left
  obtain ⟨⟨failed, held⟩, unused⟩ := left
  obtain ⟨start, booted, run⟩ := trace_run traced
  have kept := (claim 32 start s history "10.0.0.3" 5000 7000 adding (by decide) (by decide)
    (by decide) booted run done failed).2
  rw [SessionMgr.live, kept] at held
  rw [SessionMgr.live, Option.isNone_iff_eq_none] at unused
  rw [unused] at held
  cases held

end DvsServer.Core.Session
