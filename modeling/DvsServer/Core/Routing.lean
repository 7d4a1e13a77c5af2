import DvsServer.Core.SessionRun
import Mathlib.Data.List.FinRange
import Mathlib.Data.List.Nodup

/-!
# Subscriptions and frame routing

The abstract side of the client table is a history of commands: a client is
registered since the `add_client` that returned its slot, and subscribed to a
channel when the last word about that channel since then was an open.  The
flags of the table say exactly this, and `send_to_client` follows them.
-/

namespace DvsServer.Core.Session

open DvsServer.Lib DvsServer.Com.RtpSend

/-- An `add_client` call that returned slot `c`. -/
def IsAdd (c : Fin maxClientNum) (event : Event) : Prop :=
  (∃ destIp baseVideoPort baseAudioPort,
    event.1 = .addClient destIp baseVideoPort baseAudioPort) ∧ event.2.ret = c

def IsDel (c : Fin maxClientNum) (event : Event) : Prop := event.1 = .delClient c

/-- An open (`value = true`) or close of a channel argument that concerns `ch`. -/
def Says (value : Bool) (c : Fin maxClientNum) (ch : Fin maxVideoChannel) (event : Event) : Prop :=
  ∃ chId, Concerns chId ch ∧
    event.1 = if value then .openChannel c chId else .closeChannel c chId

/-- Slot `c` was added and has been neither deleted nor added again since. -/
def Registered (c : Fin maxClientNum) : List Event → Prop :=
  Since (fun event => ¬ IsAdd c event ∧ ¬ IsDel c event) fun event _ => IsAdd c event

/-- The last open or close that concerns `ch` since the registration of `c` is an open. -/
def Subscribed (c : Fin maxClientNum) (ch : Fin maxVideoChannel) : List Event → Prop :=
  Since (fun event => (¬ IsAdd c event ∧ ¬ IsDel c event) ∧ ∀ value, ¬ Says value c ch event)
    fun event before => Says true c ch event ∧ Registered c before

theorem Subscribed.registered {c : Fin maxClientNum} {ch : Fin maxVideoChannel}
    {history : List Event} (subscribed : Subscribed c ch history) : Registered c history := by
  induction subscribed with
  | here opened =>
      obtain ⟨⟨chId, _, op_eq⟩, registered⟩ := opened
      refine .later ⟨fun ⟨⟨_, _, _, add_eq⟩, _⟩ => ?_, fun del => ?_⟩ registered
      · rw [op_eq] at add_eq
        cases add_eq
      · rw [IsDel, op_eq] at del
        cases del
  | later kept _ ih => exact .later kept.1 ih

/-- Events that are about other slots, or about nothing, change no registration. -/
theorem registered_cons {c : Fin maxClientNum} {event : Event} {history : List Event}
    (notAdd : ¬ IsAdd c event) (notDel : ¬ IsDel c event) :
    Registered c (event :: history) ↔ Registered c history :=
  Since.cons_of_neutral ⟨notAdd, notDel⟩ notAdd

theorem subscribed_cons {c : Fin maxClientNum} {ch : Fin maxVideoChannel} {event : Event}
    {history : List Event} (notAdd : ¬ IsAdd c event) (notDel : ¬ IsDel c event)
    (silent : ∀ value, ¬ Says value c ch event) :
    Subscribed c ch (event :: history) ↔ Subscribed c ch history :=
  Since.cons_of_neutral ⟨⟨notAdd, notDel⟩, silent⟩ fun opened => silent true opened.1

/-- The table agrees with the history: the active slots are the registered ones,
and their raised flags are their subscriptions. -/
def Tracks (history : List Event) (s : Server) : Prop :=
  ∀ c, (s.Active c ↔ Registered c history) ∧
    ∀ ch, (s.Active c ∧ (s.clients c).flag ch = true) ↔ Subscribed c ch history

/-- An event silent about `c`, in a step that keeps what `c` looks like. -/
theorem tracks_other {c : Fin maxClientNum} {history : List Event} {event : Event}
    {s after : Server} (tracked : Tracks history s) (notAdd : ¬ IsAdd c event)
    (notDel : ¬ IsDel c event) (silent : ∀ value ch, ¬ Says value c ch event)
    (active : after.Active c ↔ s.Active c)
    (flag : s.Active c → (after.clients c).flag = (s.clients c).flag) :
    (after.Active c ↔ Registered c (event :: history)) ∧
      ∀ ch, (after.Active c ∧ (after.clients c).flag ch = true) ↔
        Subscribed c ch (event :: history) := by
  obtain ⟨registered, subscribed⟩ := tracked c
  rw [registered_cons notAdd notDel, active]
  refine ⟨registered, fun ch => ?_⟩
  rw [subscribed_cons notAdd notDel fun value => silent value ch, ← subscribed ch]
  exact and_congr_right fun isActive => by rw [flag isActive]

theorem not_says_of_add {c : Fin maxClientNum} {ch : Fin maxVideoChannel} {value : Bool}
    {destIp : String} {videoPort audioPort : Int} {outcome : Outcome} :
    ¬ Says value c ch (.addClient destIp videoPort audioPort, outcome) := by
  rintro ⟨chId, _, same⟩
  cases value <;> cases same

theorem not_says_of_del {c d : Fin maxClientNum} {ch : Fin maxVideoChannel} {value : Bool}
    {outcome : Outcome} : ¬ Says value c ch (.delClient d, outcome) := by
  rintro ⟨chId, _, same⟩
  cases value <;> cases same

theorem not_isAdd_of_set {c d : Fin maxClientNum} {value : Bool} {chId : Int} {outcome : Outcome} :
    ¬ IsAdd c (if value then .openChannel d chId else .closeChannel d chId, outcome) := by
  rintro ⟨⟨_, _, _, same⟩, _⟩
  cases value <;> cases same

theorem not_isDel_of_set {c d : Fin maxClientNum} {value : Bool} {chId : Int} {outcome : Outcome} :
    ¬ IsDel c (if value then .openChannel d chId else .closeChannel d chId, outcome) := by
  intro same
  cases value <;> cases same

theorem says_set_iff {c d : Fin maxClientNum} {ch : Fin maxVideoChannel} {value said : Bool}
    {chId : Int} {outcome : Outcome} :
    Says said c ch (if value then .openChannel d chId else .closeChannel d chId, outcome) ↔
      said = value ∧ d = c ∧ Concerns chId ch := by
  constructor
  · rintro ⟨chId', concerns, same⟩
    have both : said = value ∧ (d.val : Int) = c.val ∧ chId = chId' := by
      cases value <;> cases said <;> simp_all
    obtain ⟨rfl, slot, rfl⟩ := both
    exact ⟨rfl, Fin.ext (by omega), concerns⟩
  · rintro ⟨rfl, rfl, concerns⟩
    exact ⟨chId, concerns, rfl⟩

theorem tracks_add {chs : Int} {history : List Event} {s : Server} {base : Medium → Int}
    {adding : Adding} {destIp : String} {videoPort audioPort : Int} (tracked : Tracks history s)
    (adds : Adds chs s base adding) :
    Tracks ((.addClient destIp videoPort audioPort, ⟨adding.ret, adding.created, []⟩) :: history)
      adding.server := by
  intro c
  cases adds with
  | noSlot busy =>
      refine tracks_other tracked (fun add => ?_) (fun del => by cases del)
        (fun value ch => not_says_of_add) Iff.rfl fun _ => rfl
      have ret_eq : (-1 : Int) = c := add.2
      omega
  | failed id free code clientID effect =>
      refine tracks_other tracked (fun add => ?_) (fun del => by cases del)
        (fun value ch => not_says_of_add) ?_ ?_
      · have ret_eq : _ = (c : Int) := add.2
        dsimp only at ret_eq
        omega
      · by_cases same : c = id
        · subst same
          exact ⟨fun active => absurd clientID active, fun active => absurd active free⟩
        · rw [Server.Active, effect.others c same]
          exact Iff.rfl
      · intro active
        by_cases same : c = id
        · subst same
          exact absurd active free
        · rw [effect.others c same]
  | @added created after id free first effect done =>
      by_cases same : c = id
      · subst same
        have isAdd : IsAdd c (.addClient destIp videoPort audioPort, ⟨c, created, []⟩) :=
          ⟨⟨_, _, _, rfl⟩, rfl⟩
        constructor
        · refine ⟨fun _ => .here isAdd, fun _ inactive => ?_⟩
          rw [done.clientID] at inactive
          omega
        · intro ch
          refine ⟨fun raised => ?_, fun subscribed => ?_⟩
          · rw [done.flag ch] at raised
            cases raised.2
          · rcases Since.cons_iff.mp subscribed with ⟨said, _⟩ | ⟨kept, _⟩
            · exact absurd said not_says_of_add
            · exact absurd isAdd kept.1.1
      · refine tracks_other tracked (fun add => ?_) (fun del => by cases del)
          (fun value ch => not_says_of_add) ?_ fun _ => by rw [effect.others c same]
        · have ret_eq : (id.val : Int) = c := add.2
          exact same (Fin.ext (by omega))
        · rw [Server.Active, effect.others c same]
          exact Iff.rfl

theorem not_registered_of_del {c : Fin maxClientNum} {history : List Event} {outcome : Outcome} :
    ¬ Registered c ((.delClient c, outcome) :: history) := by
  intro registered
  rcases Since.cons_iff.mp registered with ⟨⟨_, _, _, add_eq⟩, _⟩ | ⟨kept, _⟩
  · cases add_eq
  · exact kept.2 rfl

theorem tracks_del {chs : Int} {history : List Event} {s after : Server} {d : Fin maxClientNum}
    {ret : Int} (tracked : Tracks history s) (deletes : Deletes chs s d (ret, after)) :
    Tracks ((.delClient d, ⟨ret, [], []⟩) :: history) after := by
  have gone : ¬ after.Active d := by
    cases deletes with
    | inactive free => exact free
    | deleted wiped active effect => exact fun still => ((effect.active_iff d).mp still).1 rfl
  have kept : ∀ c, c ≠ d → (after.Active c ↔ s.Active c) ∧
      (after.clients c).flag = (s.clients c).flag := by
    intro c other
    cases deletes with
    | inactive free => exact ⟨Iff.rfl, rfl⟩
    | deleted wiped active effect =>
        exact ⟨(effect.active_iff c).trans (and_iff_right other), effect.flag c⟩
  intro c
  by_cases same : c = d
  · subst same
    refine ⟨⟨fun active => absurd active gone, fun reg => absurd reg not_registered_of_del⟩, ?_⟩
    intro ch
    exact ⟨fun raised => absurd raised.1 gone,
      fun subscribed => absurd subscribed.registered not_registered_of_del⟩
  · refine tracks_other tracked (fun ⟨⟨_, _, _, add_eq⟩, _⟩ => by cases add_eq) (fun del => ?_)
      (fun value ch => not_says_of_del) (kept c same).1 fun _ => (kept c same).2
    injection del with slot
    exact same (Fin.ext (by omega))

theorem tracks_set {history : List Event} {s : Server} {value : Bool} {d : Fin maxClientNum}
    {chId : Int} {outcome : Outcome} (tracked : Tracks history s) (active : s.Active d) :
    Tracks ((if value then .openChannel d chId else .closeChannel d chId, outcome) :: history)
      (s.withFlags d (storeFlags value chId (s.clients d).flag)) := by
  intro c
  by_cases same : c = d
  · subst same
    obtain ⟨registered, subscribed⟩ := tracked c
    rw [registered_cons not_isAdd_of_set not_isDel_of_set, withFlags_active]
    refine ⟨registered, fun ch => ?_⟩
    rw [withFlags_flag_self]
    by_cases concerns : Concerns chId ch
    · have stored : storeFlags value chId (s.clients c).flag ch = value := if_pos concerns
      rw [Subscribed, Since.cons_iff, says_set_iff, stored]
      refine ⟨fun raised => .inl ⟨⟨raised.2.symm, rfl, concerns⟩, registered.mp active⟩, ?_⟩
      rintro (⟨⟨rfl, _⟩, _⟩ | ⟨kept, _⟩)
      · exact ⟨active, rfl⟩
      · exact absurd (says_set_iff.mpr ⟨rfl, rfl, concerns⟩) (kept.2 value)
    · have stored : storeFlags value chId (s.clients c).flag ch = (s.clients c).flag ch :=
        if_neg concerns
      rw [subscribed_cons not_isAdd_of_set not_isDel_of_set
        fun said spoken => concerns (says_set_iff.mp spoken).2.2, ← subscribed ch, stored]
  · refine tracks_other tracked not_isAdd_of_set not_isDel_of_set
      (fun said ch spoken => same (says_set_iff.mp spoken).2.1.symm) (withFlags_active s d c _)
      fun _ => ?_
    rw [withFlags_ne same]

/-- A command for an inactive slot opens nothing: the slot has no registration. -/
theorem tracks_ignored {history : List Event} {s : Server} {value : Bool} {d : Fin maxClientNum}
    {chId : Int} {outcome : Outcome} (tracked : Tracks history s) (inactive : ¬ s.Active d) :
    Tracks ((if value then .openChannel d chId else .closeChannel d chId, outcome) :: history) s := by
  intro c
  by_cases same : c = d
  · subst same
    have unregistered : ¬ Registered c history := fun reg => inactive ((tracked c).1.mpr reg)
    rw [registered_cons not_isAdd_of_set not_isDel_of_set]
    refine ⟨(tracked c).1, fun ch => ⟨fun raised => absurd raised.1 inactive, fun subscribed => ?_⟩⟩
    rcases Since.cons_iff.mp subscribed with ⟨_, registered⟩ | ⟨_, earlier⟩
    · exact absurd registered unregistered
    · exact absurd (Subscribed.registered earlier) unregistered
  · exact tracks_other tracked not_isAdd_of_set not_isDel_of_set
      (fun said ch spoken => same (says_set_iff.mp spoken).2.1.symm) Iff.rfl fun _ => rfl

theorem tracks_send {history : List Event} {s after : Server} {e : SessionElement}
    {outcome : Outcome} (tracked : Tracks history s) (clients_eq : after.clients = s.clients) :
    Tracks ((.sendToClient e, outcome) :: history) after := by
  intro c
  refine tracks_other tracked (fun ⟨⟨_, _, _, add_eq⟩, _⟩ => by cases add_eq) (fun del => by cases del)
    (fun value ch ⟨_, _, says_eq⟩ => by cases value <;> cases says_eq) ?_ fun _ => by rw [clients_eq]
  rw [Server.Active, clients_eq]
  exact Iff.rfl

theorem Effect.tracks {chs : Int} {history : List Event} {s after : Server} {event : Event}
    (tracked : Tracks history s) (effect : Effect chs s event after) :
    Tracks (event :: history) after := by
  cases effect with
  | add destIp videoPort audioPort adds => exact tracks_add tracked adds
  | del c deletes => exact tracks_del tracked deletes
  | setFlags value c chId active => exact tracks_set tracked active
  | ignored value c chId inactive => exact tracks_ignored tracked inactive
  | send e done => exact tracks_send tracked (sendLoop_cases done).1

/-- The client table follows the history of commands along every run. -/
theorem run_tracks {chs : Int} {start s : Server} {history : List Event}
    (init : Initialised chs start) (run : Run (Step chs) start history s) : Tracks history s := by
  refine run.invariant Tracks ?_ fun _ tracked step => step.effect.tracks tracked
  obtain ⟨before, pipeOk, ret, done⟩ := init
  have inactive := (initSessionTsk_cases done).2.1
  intro c
  exact ⟨⟨fun active => absurd active (inactive c), fun reg => absurd reg Since.nil⟩,
    fun ch => ⟨fun raised => absurd raised.1 (inactive c), fun sub => absurd sub Since.nil⟩⟩

/-! ## `send_to_client` -/

/-- The ID array index of a channel. -/
def groupOf (ch : Fin maxVideoChannel) : Fin maxGroupNum :=
  ⟨ch.val / chsPerSession, Nat.div_lt_of_lt_mul ch.isLt⟩

/-- The arguments of the `rtp_send` calls: slot, session ID, buffer and length. -/
def ClientSend.args (send : ClientSend) : Fin maxClientNum × Int × Nat × Int32 :=
  (send.client, send.sessionID, send.buffer, send.len)

/-- The call `send_to_client` makes for a subscribed slot. -/
def routedCall (s : Server) (e : SessionElement) (ch : Fin maxVideoChannel)
    (c : Fin maxClientNum) : Fin maxClientNum × Int × Nat × Int32 :=
  (c, s.ids c (mediumOf e.dataType) (groupOf ch), e.buffer, e.len.toInt32)

/-- The slots `send_to_client` does not pass over. -/
def routed (s : Server) (ch : Fin maxVideoChannel) (c : Fin maxClientNum) : Bool :=
  (s.clients c).clientID != -1 && (s.clients c).flag ch

theorem checkChannel_own {s : Server} (ok : ClientsOk s) {c : Fin maxClientNum}
    (active : s.Active c) (ch : Fin maxVideoChannel) :
    checkChannel s (s.clients c).clientID ch = some ((s.clients c).flag ch) := by
  unfold checkChannel
  rw [ok.own c active, index?_val]
  dsimp only
  rw [if_neg active, index?_val]
  rfl

theorem sendLoop_routes {e : SessionElement} {ch : Fin maxVideoChannel}
    (channel : e.chId.toNat = ch.val) (slots : List (Fin maxClientNum)) {s : Server}
    (ok : ClientsOk s) :
    ∃ sends after, sendLoop e slots s = some (sends, after) ∧
      sends.map ClientSend.args = (slots.filter (routed s ch)).map (routedCall s e ch) := by
  induction slots generalizing s with
  | nil => exact ⟨[], s, rfl, rfl⟩
  | cons c rest ih =>
      rw [sendLoop]
      dsimp only
      by_cases inactive : (s.clients c).clientID = -1
      · have skipped : routed s ch c = false := by simp [routed, inactive]
        rw [if_pos inactive, List.filter_cons_of_neg (by simp [skipped])]
        exact ih ok
      · rw [if_neg inactive, channel, checkChannel_own ok inactive ch]
        cases raised : (s.clients c).flag ch with
        | false =>
            have skipped : routed s ch c = false := by simp [routed, raised]
            rw [List.filter_cons_of_neg (by simp [skipped])]
            exact ih ok
        | true =>
            have taken : routed s ch c = true := by simp [routed, raised, inactive]
            have group : index? maxGroupNum (ch.val / chsPerSession : Nat) = some (groupOf ch) :=
              index?_eq_some.mpr rfl
            obtain ⟨sending, sent⟩ := rtpSend_defined
              (ok.valid c (mediumOf e.dataType) (groupOf ch)) s.rtp e.buffer e.len.toInt32
            have okNext : ClientsOk { s with rtp := sending.mgr } := ⟨ok.own, ok.valid⟩
            obtain ⟨sends, after, done, calls⟩ := ih okNext
            rw [Server.ids] at sent
            rw [group, List.filter_cons_of_pos taken]
            simp only [sent, done]
            exact ⟨_, _, rfl, congrArg (routedCall s e ch c :: ·) calls⟩

/-- Frame routing follows the subscriptions.  In every run from
`init_session_tsk`, `send_to_client` calls `rtp_send` once for each slot whose
client is subscribed to the channel, with the element's buffer and length and
the session ID of the channel's group, makes no other call, and leaves the
client table as it was. -/
theorem send_to_client_follows_subscriptions {chs : Int} {start s : Server}
    {history : List Event} (init : Initialised chs start)
    (run : Run (Step chs) start history s) (e : SessionElement) (ch : Fin maxVideoChannel)
    (channel : e.chId.toNat = ch.val) :
    ∃ sends after, sendToClient s e = some (sends, after) ∧ after.clients = s.clients ∧
      ∃ slots : List (Fin maxClientNum), slots.Nodup ∧
        (∀ c, c ∈ slots ↔ Subscribed c ch history) ∧
        sends.map ClientSend.args = slots.map (routedCall s e ch) := by
  have tracked := run_tracks init run
  have ok := run_clientsOk run init.clientsOk
  obtain ⟨sends, after, done, calls⟩ :=
    sendLoop_routes channel (List.finRange maxClientNum) ok
  refine ⟨sends, after, done, (sendLoop_cases done).1, _,
    (List.nodup_finRange _).filter (routed s ch), fun c => ?_, calls⟩
  rw [List.mem_filter, ← (tracked c).2 ch]
  simp [routed, Server.Active]

/-- Two clients that opened channel 3, one of them by opening all channels. -/
theorem send_to_client_follows_subscriptions_pair :
    ∃ result, trace 16 [.addClient "10.0.0.1" 5000 7000, .openChannel 0 255,
      .addClient "10.0.0.2" 6000 8000, .openChannel 1 3] = some result ∧
        ∃ sends after, sendToClient result.2 ⟨cmdSessionBuffer, 3, 0, 0, 100⟩ = some (sends, after) ∧
          after.clients = result.2.clients ∧
          ∃ slots : List (Fin maxClientNum), slots.Nodup ∧
            (∀ c, c ∈ slots ↔ Subscribed c 3 result.1) ∧ sends.map ClientSend.args =
              slots.map (routedCall result.2 ⟨cmdSessionBuffer, 3, 0, 0, 100⟩ 3) := by
  obtain ⟨result, traced⟩ := Option.isSome_iff_exists.mp
    (show (trace 16 [.addClient "10.0.0.1" 5000 7000, .openChannel 0 255,
      .addClient "10.0.0.2" 6000 8000, .openChannel 1 3]).isSome = true by decide)
  obtain ⟨start, booted, run⟩ := trace_run traced
  exact ⟨result, traced, send_to_client_follows_subscriptions booted.initialised run
    ⟨cmdSessionBuffer, 3, 0, 0, 100⟩ 3 rfl⟩

end DvsServer.Core.Session
