import DvsServer.Core.SessionSteps

/-!
# The operations on the client table

One lemma for each operation of `session.c` says everything a call that
returned may have done.
-/

namespace DvsServer.Core.Session

open DvsServer.Lib DvsServer.Com.RtpSend

def Server.Active (s : Server) (c : Fin maxClientNum) : Prop := (s.clients c).clientID ≠ -1

instance (s : Server) (c : Fin maxClientNum) : Decidable (s.Active c) :=
  inferInstanceAs (Decidable (_ ≠ _))

/-! ## Groups -/

theorem groups_nonneg {chs : Int} (some_ : 0 < groups chs) : 0 ≤ chs := by
  by_contra negative
  have flipped : 0 ≤ (-chs).tdiv chsPerSession := Int.tdiv_nonneg (by omega) (by decide)
  rw [Int.neg_tdiv] at flipped
  have none_ : groups chs = 0 := Int.toNat_of_nonpos (by omega)
  omega

/-- Every channel belongs to a group. -/
theorem channel_group {chs : Int} {i : Nat} (aligned : chs % chsPerSession = 0) (below : i < chs) :
    i / chsPerSession < groups chs := by
  have width : chsPerSession = 4 := rfl
  rw [groups, Int.tdiv_eq_ediv_of_nonneg (by omega), width]
  rw [width] at aligned
  omega

/-- A round that has ended has passed every group. -/
theorem round_end_past {chs : Int} {i h : Nat} (ended : ¬ (i : Int) < chs) (below : h < groups chs) :
    chsPerSession * (h + 1) ≤ i := by
  have width : chsPerSession = 4 := rfl
  rw [groups, Int.tdiv_eq_ediv_of_nonneg (groups_nonneg (Nat.zero_lt_of_lt below)), width] at below
  rw [width]
  omega

/-! ## `add_client` -/

/-- The base port `add_client` is given for a medium. -/
def basePort (baseVideoPort baseAudioPort : Int) : Medium → Int
  | .video => baseVideoPort
  | .audio => baseAudioPort

/-- The number of sessions a registration with this base port creates. -/
def span (chs base : Int) : Nat := if base > 0 then groups chs else 0

theorem span_le (chs base : Int) : span chs base ≤ groups chs := by
  unfold span
  split
  · exact Nat.le_refl _
  · exact Nat.zero_le _

theorem createSessions_effect {medium : Medium} {chs : Int} {destIp : String} {base : Int}
    {id : Fin maxClientNum} {s after : Server} {ok : Bool} {made : List RtpSession}
    (done : createSessions medium chs destIp base id s = some (ok, made, after)) :
    LoopEffect medium id 0 (span chs base) s after made ∧
      (ok = true → LoopDone medium id 0 (span chs base) s after made) := by
  unfold createSessions at done
  unfold span
  split at done
  · rename_i positive
    have loop := createLoop_effect done
    rw [Nat.zero_add] at loop
    rw [if_pos positive]
    exact loop
  · rename_i unused
    cases Option.some.inj done
    rw [if_neg unused]
    refine ⟨.refl medium id 0 0 s, fun _ => ⟨fun g _ impossible => ?_, fun i free used => ?_⟩⟩
    · exact absurd impossible (Nat.not_lt_zero _)
    · exact absurd free used

/-- What every `add_client` that chose slot `id` does to the tables. -/
structure AddEffect (chs : Int) (base : Medium → Int) (id : Fin maxClientNum)
    (s after : Server) (created : List RtpSession) : Prop where
  others : ∀ d, d ≠ id → after.clients d = s.clients d
  ids_kept : ∀ m (g : Fin maxGroupNum), span chs (base m) ≤ g.val →
    after.ids id m g = s.ids id m g
  valid : ∀ m g, ValidID (s.ids id m g) → ValidID (after.ids id m g)
  created : Created s.rtp after.rtp created

/-- What a successful registration records. -/
structure AddDone (chs : Int) (base : Medium → Int) (id : Fin maxClientNum)
    (s after : Server) (created : List RtpSession) : Prop where
  clientID : (after.clients id).clientID = id
  flag : ∀ ch, (after.clients id).flag ch = false
  recorded : ∀ m (g : Fin maxGroupNum), g.val < span chs (base m) →
    ∃ (i : Fin maxSessionNum) (session : RtpSession), after.ids id m g = i ∧
      after.rtp.live i = some session ∧ session ∈ created ∧
      session.payloadType = m.payloadType
  covered : ∀ i, s.rtp.live i = none → after.rtp.live i ≠ none →
    ∃ m, ∃ g : Fin maxGroupNum, g.val < span chs (base m) ∧ after.ids id m g = i

/-- The three ways in which `add_client` returns. -/
inductive Adds (chs : Int) (s : Server) (base : Medium → Int) : Adding → Prop where
  | noSlot (busy : ∀ c, s.Active c) : Adds chs s base ⟨-1, [], s⟩
  | failed {ret : Int} {created : List RtpSession} {after : Server} (id : Fin maxClientNum)
      (free : ¬ s.Active id) (code : ret = -2 ∨ ret = -3)
      (clientID : (after.clients id).clientID = -1)
      (effect : AddEffect chs base id s after created) : Adds chs s base ⟨ret, created, after⟩
  | added {created : List RtpSession} {after : Server} (id : Fin maxClientNum)
      (free : ¬ s.Active id) (first : ∀ c < id, s.Active c)
      (effect : AddEffect chs base id s after created)
      (done : AddDone chs base id s after created) : Adds chs s base ⟨id, created, after⟩

theorem LoopEffect.addEffect {chs : Int} (base : Medium → Int) {id : Fin maxClientNum}
    {s between after : Server} {video audio : List RtpSession}
    (one : LoopEffect .video id 0 (span chs (base .video)) s between video)
    (two : LoopEffect .audio id 0 (span chs (base .audio)) between after audio) :
    AddEffect chs base id s after (video ++ audio) where
  others d other := (two.others d other).trans (one.others d other)
  ids_kept m g outside := by
    cases m with
    | video => rw [two.ids_kept _ g (.inl (by decide)), one.ids_kept _ g (.inr (.inr outside))]
    | audio => rw [two.ids_kept _ g (.inr (.inr outside)), one.ids_kept _ g (.inl (by decide))]
  valid m g := two.valid m g ∘ one.valid m g
  created := one.created.trans two.created

/-- Setting `clientID` and the flags touches neither IDs nor the session table. -/
theorem AddEffect.finish {chs : Int} {base : Medium → Int} {id : Fin maxClientNum}
    {s after : Server} {created : List RtpSession} (effect : AddEffect chs base id s after created)
    (clientID : Int) (flag : Fin maxVideoChannel → Bool) :
    AddEffect chs base id s
      (after.setClient id { after.clients id with clientID, flag }) created where
  others d other := (setClient_ne other _).trans (effect.others d other)
  ids_kept m g outside := by
    rw [← effect.ids_kept m g outside]
    simp only [Server.ids, setClient_self]
  valid m g valid := by
    simp only [Server.ids, setClient_self]
    exact effect.valid m g valid
  created := effect.created

theorem addDone {chs : Int} (base : Medium → Int) {id : Fin maxClientNum}
    {s between after : Server} {video audio : List RtpSession}
    (one : LoopEffect .video id 0 (span chs (base .video)) s between video)
    (oneDone : LoopDone .video id 0 (span chs (base .video)) s between video)
    (two : LoopEffect .audio id 0 (span chs (base .audio)) between after audio)
    (twoDone : LoopDone .audio id 0 (span chs (base .audio)) between after audio) :
    AddDone chs base id s
      (after.setClient id { after.clients id with clientID := id, flag := fun _ => false })
      (video ++ audio) := by
  have videoKept : ∀ g, after.ids id .video g = between.ids id .video g := fun g =>
    two.ids_kept _ g (.inl (by decide))
  refine ⟨by simp, fun ch => by simp, fun m g below => ?_, fun i free used => ?_⟩
  · simp only [Server.ids, setClient_self, setClient_rtp]
    cases m with
    | video =>
        obtain ⟨i, session, recorded, _, held, inVideo⟩ := oneDone.recorded g (Nat.zero_le _) below
        exact ⟨i, session, (videoKept g).trans recorded, two.created.live held,
          List.mem_append_left _ inVideo, one.payload _ inVideo⟩
    | audio =>
        obtain ⟨i, session, recorded, _, held, inAudio⟩ := twoDone.recorded g (Nat.zero_le _) below
        exact ⟨i, session, recorded, held, List.mem_append_right _ inAudio, two.payload _ inAudio⟩
  · simp only [Server.ids, setClient_self]
    cases held : between.rtp.live i with
    | none =>
        obtain ⟨g, _, below, recorded⟩ := twoDone.covered i held used
        exact ⟨.audio, g, below, recorded⟩
    | some session =>
        obtain ⟨g, _, below, recorded⟩ := oneDone.covered i free (by rw [held]; simp)
        exact ⟨.video, g, below, (videoKept g).trans recorded⟩

/-- In a call that succeeds both loops have run to their ends. -/
theorem addClient_success {chs : Int} {s : Server} {destIp : String}
    {baseVideoPort baseAudioPort : Int} {adding : Adding}
    (done : addClient chs s destIp baseVideoPort baseAudioPort = some adding)
    (succeeded : 0 ≤ adding.ret) :
    ∃ id video between audio after,
      createSessions .video chs destIp baseVideoPort id s = some (true, video, between) ∧
      createSessions .audio chs destIp baseAudioPort id between = some (true, audio, after) ∧
      adding = ⟨id, video ++ audio,
        after.setClient id { after.clients id with clientID := id, flag := fun _ => false }⟩ := by
  unfold addClient at done
  split at done
  · cases Option.some.inj done
    cases succeeded
  · rename_i id _
    split at done
    · cases done
    · cases Option.some.inj done
      cases succeeded
    · rename_i video between madeVideo
      split at done
      · cases done
      · cases Option.some.inj done
        cases succeeded
      · rename_i audio after madeAudio
        exact ⟨id, video, between, audio, after, madeVideo, madeAudio, (Option.some.inj done).symm⟩

theorem addClient_cases {chs : Int} {s : Server} {destIp : String}
    {baseVideoPort baseAudioPort : Int} {adding : Adding}
    (done : addClient chs s destIp baseVideoPort baseAudioPort = some adding) :
    Adds chs s (basePort baseVideoPort baseAudioPort) adding := by
  unfold addClient at done
  split at done
  · rename_i full
    cases Option.some.inj done
    refine .noSlot fun c inactive => ?_
    have used := firstFree_eq_none.mp full c
    rw [inactive] at used
    cases used
  · rename_i id found
    obtain ⟨isFree, isFirst⟩ := firstFree_eq_some.mp found
    have inactive : (s.clients id).clientID = -1 := by simpa using isFree
    have free : ¬ s.Active id := fun active => active inactive
    have first : ∀ c < id, s.Active c := fun c before same => by
      have used := isFirst c before
      rw [same] at used
      cases used
    split at done
    · cases done
    · rename_i video after madeVideo
      cases Option.some.inj done
      have one := (createSessions_effect madeVideo).1
      refine .failed id free (.inl rfl) (one.clientID.trans inactive) ?_
      simpa using LoopEffect.addEffect (basePort baseVideoPort baseAudioPort) one
        (.refl .audio id 0 _ after)
    · rename_i video between madeVideo
      obtain ⟨one, oneDone⟩ := createSessions_effect madeVideo
      split at done
      · cases done
      · rename_i audio after madeAudio
        cases Option.some.inj done
        have two := (createSessions_effect madeAudio).1
        exact .failed id free (.inr rfl) ((two.clientID.trans one.clientID).trans inactive)
          (LoopEffect.addEffect (basePort baseVideoPort baseAudioPort) one two)
      · rename_i audio after madeAudio
        obtain ⟨two, twoDone⟩ := createSessions_effect madeAudio
        cases Option.some.inj done
        exact .added id free first
          ((LoopEffect.addEffect (basePort baseVideoPort baseAudioPort) one two).finish _ _)
          (addDone (basePort baseVideoPort baseAudioPort) one (oneDone rfl) two (twoDone rfl))

/-! ## `del_client` -/

/-- Some loop pass of `del_client` reads the ID of entry `i` from the slot. -/
def Records (pair : SessionPair) (lo hi : Nat) (i : Fin maxSessionNum) : Prop :=
  ∃ m, ∃ g : Fin maxGroupNum, lo ≤ g.val ∧ g.val < hi ∧ pair.ids m g = i

/-- Some group of slot `c` records the ID of entry `i`. -/
def Server.Recorded (chs : Int) (s : Server) (c : Fin maxClientNum) (i : Fin maxSessionNum) : Prop :=
  Records (s.clients c).sessionPair 0 (groups chs) i

instance (chs : Int) (s : Server) (c : Fin maxClientNum) (i : Fin maxSessionNum) :
    Decidable (s.Recorded chs c i) :=
  inferInstanceAs (Decidable (∃ m, ∃ g : Fin maxGroupNum, 0 ≤ g.val ∧ g.val < groups chs ∧
    (s.clients c).sessionPair.ids m g = i))

theorem Records.succ_iff {pair : SessionPair} {g : Fin maxGroupNum} {hi : Nat}
    (below : g.val < hi) (i : Fin maxSessionNum) :
    Records pair g hi i ↔
      (pair.videoIDs g = i ∨ pair.audioIDs g = i) ∨ Records pair (g + 1) hi i := by
  constructor
  · rintro ⟨m, h, lower, upper, recorded⟩
    by_cases same : h = g
    · subst same
      cases m with
      | video => exact .inl (.inl recorded)
      | audio => exact .inl (.inr recorded)
    · have other := fun eq => same (Fin.ext eq)
      exact .inr ⟨m, h, by omega, upper, recorded⟩
  · rintro ((recorded | recorded) | ⟨m, h, lower, upper, recorded⟩)
    · exact ⟨.video, g, Nat.le_refl _, below, recorded⟩
    · exact ⟨.audio, g, Nat.le_refl _, below, recorded⟩
    · exact ⟨m, h, by omega, upper, recorded⟩

/-- The entries `del_client` frees are those whose IDs its loop reads. -/
theorem removeLoop_effect {pair : SessionPair} {k i : Nat} {m after : SessionMgr}
    (done : removeLoop pair k i m = some after) :
    after.nextHandle = m.nextHandle ∧
      ∀ j, (Records pair i (i + k) j → after.live j = none) ∧
        (¬ Records pair i (i + k) j → after.table j = m.table j) := by
  induction k generalizing i m with
  | zero =>
      cases Option.some.inj done
      refine ⟨rfl, fun j => ⟨fun ⟨_, g, lower, upper, _⟩ => ?_, fun _ => rfl⟩⟩
      omega
  | succ k ih =>
      rw [removeLoop] at done
      cases group : index? maxGroupNum i with
      | none => rw [group] at done; cases done
      | some g =>
          rw [group] at done
          have start : i = g.val := by
            have := index?_eq_some.mp group
            omega
          subst start
          dsimp only at done
          split at done
          · cases done
          · rename_i ret first removedVideo
            split at done
            · cases done
            · rename_i ret' second removedAudio
              obtain ⟨nextFirst, first_eq⟩ := removeSessionObj_cases removedVideo
              obtain ⟨nextSecond, second_eq⟩ := removeSessionObj_cases removedAudio
              obtain ⟨nextAfter, after_eq⟩ := ih done
              have hi_eq : g.val + 1 + k = g.val + (k + 1) := by omega
              rw [hi_eq] at after_eq
              refine ⟨nextAfter.trans (nextSecond.trans nextFirst), fun j => ?_⟩
              rw [Records.succ_iff (by omega)]
              have stays : ∀ {x y : SessionMgr}, x.table j = y.table j → y.live j = none →
                  x.live j = none := fun same isFree => by
                rw [SessionMgr.live, same]
                exact isFree
              constructor
              · rintro (atGroup | later)
                · by_cases later : Records pair (g + 1) (g.val + (k + 1)) j
                  · exact (after_eq j).1 later
                  · refine stays ((after_eq j).2 later) ?_
                    by_cases audio : pair.audioIDs g = j
                    · exact (second_eq j).1 audio
                    · exact stays ((second_eq j).2 audio) ((first_eq j).1 (atGroup.resolve_right audio))
                · exact (after_eq j).1 later
              · intro none_
                rw [(after_eq j).2 fun later => none_ (.inr later),
                  (second_eq j).2 fun audio => none_ (.inl (.inr audio)),
                  (first_eq j).2 fun video => none_ (.inl (.inl video))]

/-- What a `del_client` of the active slot `c` does.  The ID arrays it resets are
those of slot `wiped`, whatever `c` is. -/
structure DelEffect (chs : Int) (c wiped : Fin maxClientNum) (s after : Server) : Prop where
  wiped_eq : wiped.val = groups chs
  clientID : (after.clients c).clientID = -1
  clientID_kept : ∀ d, d ≠ c → (after.clients d).clientID = (s.clients d).clientID
  flag : ∀ d, (after.clients d).flag = (s.clients d).flag
  ids_wiped : ∀ m g, after.ids wiped m g = -1
  ids_kept : ∀ d, d ≠ wiped → (after.clients d).sessionPair = (s.clients d).sessionPair
  nextHandle : after.rtp.nextHandle = s.rtp.nextHandle
  freed : ∀ i, Records (s.clients c).sessionPair 0 (groups chs) i → after.rtp.live i = none
  entry_kept : ∀ i, ¬ Records (s.clients c).sessionPair 0 (groups chs) i →
    after.rtp.table i = s.rtp.table i

inductive Deletes (chs : Int) (s : Server) (c : Fin maxClientNum) : Int × Server → Prop where
  | inactive (free : ¬ s.Active c) : Deletes chs s c (-1, s)
  | deleted {after : Server} (wiped : Fin maxClientNum) (active : s.Active c)
      (effect : DelEffect chs c wiped s after) : Deletes chs s c (0, after)

@[simp] theorem unset_ids (m : Medium) (g : Fin maxGroupNum) : SessionPair.unset.ids m g = -1 := by
  cases m <;> rfl

theorem delClient_cases {chs : Int} {s : Server} {clientId : Int} {result : Int × Server}
    (done : delClient chs s clientId = some result) :
    ∃ c : Fin maxClientNum, clientId = c ∧ Deletes chs s c result := by
  unfold delClient at done
  split at done
  · cases done
  · rename_i c found
    refine ⟨c, index?_eq_some.mp found, ?_⟩
    dsimp only at done
    split at done
    · rename_i inactive
      cases Option.some.inj done
      exact .inactive fun active => active inactive
    · rename_i active
      split at done
      · cases done
      · rename_i m removed
        split at done
        · cases done
        · rename_i wiped wiped_found
          cases Option.some.inj done
          obtain ⟨nextHandle, entries⟩ := removeLoop_effect removed
          rw [Nat.zero_add] at entries
          have wiped_eq := index?_eq_some.mp wiped_found
          refine .deleted wiped active ⟨by omega, ?_, fun d other => ?_, fun d => ?_,
            fun m g => ?_, fun d other => ?_, nextHandle, fun i => (entries i).1,
            fun i => (entries i).2⟩
          · by_cases same : c = wiped
            · simp [same]
            · rw [setClient_ne same, setClient_self]
          · by_cases same : d = wiped
            · simp only [same, setClient_self]
              rw [setClient_ne (same ▸ other)]
            · rw [setClient_ne same, setClient_ne other]
          · by_cases same : d = wiped <;> by_cases same' : d = c
            · simp [← same, same']
            · simp only [same, setClient_self]
              rw [setClient_ne (same ▸ same')]
            · rw [setClient_ne same, same', setClient_self]
            · rw [setClient_ne same, setClient_ne same']
          · simp [Server.ids]
          · rw [setClient_ne other]
            by_cases same : d = c
            · rw [same, setClient_self]
            · rw [setClient_ne same]

theorem removeLoop_defined {pair : SessionPair} (valid : ∀ m g, ValidID (pair.ids m g)) {k i : Nat}
    (inside : i + k ≤ maxGroupNum) (m : SessionMgr) : ∃ after, removeLoop pair k i m = some after := by
  induction k generalizing i m with
  | zero => exact ⟨m, rfl⟩
  | succ k ih =>
      have group : index? maxGroupNum i = some ⟨i, by omega⟩ := index?_eq_some.mpr rfl
      obtain ⟨first, removedVideo⟩ := removeSessionObj_defined (valid .video ⟨i, by omega⟩) m
      obtain ⟨second, removedAudio⟩ := removeSessionObj_defined (valid .audio ⟨i, by omega⟩) first.2
      obtain ⟨after, rest⟩ := ih (i := i + 1) (by omega) second.2
      refine ⟨after, ?_⟩
      simp only [SessionPair.ids] at removedVideo removedAudio
      rw [removeLoop, group]
      simp only [removedVideo, removedAudio, rest]

theorem delClient_defined {chs : Int} {s : Server} {c : Fin maxClientNum}
    (valid : ∀ m g, ValidID (s.ids c m g)) (inside : groups chs ≤ maxGroupNum) :
    ∃ result, delClient chs s c = some result := by
  unfold delClient
  rw [index?_val]
  dsimp only
  split
  · exact ⟨_, rfl⟩
  · obtain ⟨after, removed⟩ := removeLoop_defined valid (k := groups chs) (i := 0) (by omega) s.rtp
    have slot : index? maxClientNum (groups chs) =
        some ⟨groups chs, Nat.lt_of_le_of_lt inside (by decide)⟩ := index?_eq_some.mpr rfl
    rw [removed, slot]
    exact ⟨_, rfl⟩

/-! ## `open_channel` and `close_channel` -/

/-- An open or close of channel argument `chId` is about channel `ch`. -/
def Concerns (chId : Int) (ch : Fin maxVideoChannel) : Prop := chId = ch ∨ chId ≥ maxVideoChannel

instance (chId : Int) (ch : Fin maxVideoChannel) : Decidable (Concerns chId ch) :=
  inferInstanceAs (Decidable (_ ∨ _))

/-- The flags after storing `value` for channel argument `chId`. -/
def storeFlags (value : Bool) (chId : Int) (flag : Fin maxVideoChannel → Bool) :
    Fin maxVideoChannel → Bool :=
  fun ch => if Concerns chId ch then value else flag ch

/-- The tables after a flag array was overwritten. -/
def Server.withFlags (s : Server) (c : Fin maxClientNum) (flag : Fin maxVideoChannel → Bool) :
    Server :=
  s.setClient c { s.clients c with flag }

@[simp] theorem withFlags_flag_self (s : Server) (c : Fin maxClientNum)
    (flag : Fin maxVideoChannel → Bool) : ((s.withFlags c flag).clients c).flag = flag := by
  rw [Server.withFlags, setClient_self]

theorem withFlags_ne {s : Server} {c d : Fin maxClientNum} (other : d ≠ c)
    (flag : Fin maxVideoChannel → Bool) : (s.withFlags c flag).clients d = s.clients d :=
  setClient_ne other _

@[simp] theorem withFlags_ids (s : Server) (c d : Fin maxClientNum)
    (flag : Fin maxVideoChannel → Bool) : (s.withFlags c flag).ids d = s.ids d := by
  by_cases same : d = c
  · subst same
    rw [Server.ids, Server.withFlags, setClient_self]
    rfl
  · rw [Server.ids, withFlags_ne same]
    rfl

@[simp] theorem withFlags_clientID (s : Server) (c d : Fin maxClientNum)
    (flag : Fin maxVideoChannel → Bool) :
    ((s.withFlags c flag).clients d).clientID = (s.clients d).clientID := by
  by_cases same : d = c
  · subst same
    rw [Server.withFlags, setClient_self]
  · rw [withFlags_ne same]

@[simp] theorem withFlags_active (s : Server) (c d : Fin maxClientNum)
    (flag : Fin maxVideoChannel → Bool) : (s.withFlags c flag).Active d ↔ s.Active d := by
  rw [Server.Active, withFlags_clientID]
  exact Iff.rfl

theorem setChannel_cases {value : Bool} {s after : Server} {clientID chId ret : Int}
    (done : setChannel value s clientID chId = some (ret, after)) :
    ∃ c : Fin maxClientNum, clientID = c ∧ ret = -1 ∧
      ((¬ s.Active c ∧ after = s) ∨
        (s.Active c ∧ after = s.withFlags c (storeFlags value chId (s.clients c).flag))) := by
  unfold setChannel at done
  split at done
  · cases done
  · rename_i c found
    refine ⟨c, index?_eq_some.mp found, ?_⟩
    dsimp only at done
    split at done
    · rename_i inactive
      cases Option.some.inj done
      exact ⟨rfl, .inl ⟨fun active => active inactive, rfl⟩⟩
    · rename_i active
      split at done
      · rename_i all
        cases Option.some.inj done
        refine ⟨rfl, .inr ⟨active, ?_⟩⟩
        have same : storeFlags value chId (s.clients c).flag = fun _ => value :=
          funext fun ch => if_pos (.inr all)
        rw [same]
        rfl
      · rename_i notAll
        split at done
        · cases done
        · rename_i ch channel
          cases Option.some.inj done
          refine ⟨rfl, .inr ⟨active, ?_⟩⟩
          have chId_eq := index?_eq_some.mp channel
          have same : storeFlags value chId (s.clients c).flag =
              Function.update (s.clients c).flag ch value := by
            funext other
            by_cases here : other = ch
            · subst here
              rw [Function.update_self]
              exact if_pos (.inl chId_eq)
            · rw [Function.update_of_ne here]
              refine if_neg fun concerns => ?_
              rcases concerns with same | all
              · exact here (Fin.ext (by omega))
              · exact notAll all
          rw [same]
          rfl

/-! ## `send_to_client` -/

/-- What every `send_to_client` that returned did, for any client table. -/
theorem sendLoop_cases {e : SessionElement} {slots : List (Fin maxClientNum)} {s after : Server}
    {sends : List ClientSend} (done : sendLoop e slots s = some (sends, after)) :
    after.clients = s.clients ∧ (∀ i, after.rtp.live i = s.rtp.live i) ∧
      after.rtp.nextHandle = s.rtp.nextHandle ∧
      ∀ send ∈ sends, s.Active send.client ∧
        (∃ g : Fin maxGroupNum, g.val = e.chId.toNat / chsPerSession ∧
          send.sessionID = s.ids send.client (mediumOf e.dataType) g) ∧
        send.buffer = e.buffer ∧ send.len = e.len.toInt32 ∧
        ∀ sent, send.sent = some sent →
          ∃ i : Fin maxSessionNum, send.sessionID = i ∧ s.rtp.live i = some sent.session := by
  induction slots generalizing s sends with
  | nil =>
      cases Option.some.inj done
      exact ⟨rfl, fun _ => rfl, rfl, fun _ inNil => absurd inNil List.not_mem_nil⟩
  | cons c rest ih =>
      rw [sendLoop] at done
      dsimp only at done
      split at done
      · exact ih done
      · rename_i active
        split at done
        · cases done
        · exact ih done
        · split at done
          · cases done
          · rename_i g group
            split at done
            · cases done
            · rename_i sending sent_eq
              split at done
              · cases done
              · rename_i others last rest_eq
                cases Option.some.inj done
                obtain ⟨live_eq, next_eq, sent⟩ := rtpSend_cases sent_eq
                obtain ⟨clients_eq, live_eq', next_eq', all⟩ := ih rest_eq
                refine ⟨clients_eq, fun i => (live_eq' i).trans (live_eq i),
                  next_eq'.trans next_eq, fun send member => ?_⟩
                have group_eq := index?_eq_some.mp group
                rcases List.mem_cons.mp member with here | later
                · subst here
                  exact ⟨active, ⟨g, by omega, rfl⟩, rfl, rfl, sent⟩
                · obtain ⟨act, ids, buffer, len, live⟩ := all send later
                  refine ⟨act, ids, buffer, len, fun sent same => ?_⟩
                  obtain ⟨i, id_eq, held⟩ := live sent same
                  exact ⟨i, id_eq, (live_eq i).symm.trans held⟩

end DvsServer.Core.Session
