import DvsServer.Core.SendDelete

/-!
# No session is used after it is destroyed

While the sender relies on an entry, the entry holds the session the sender
tested, and this session is not destroyed.  The deleter keeps this true as long
as it does not destroy the session of that entry; nothing in the source makes it
wait.
-/

namespace DvsServer.Core.Session

open DvsServer.Lib DvsServer.Com.RtpSend

/-! ## Histories -/

/-- No object is destroyed by this step. -/
def RaceAct.spares : RaceAct → Prop
  | .deletes (.destroys _) => False
  | _ => True

theorem destroyed_spared {s : Server} {handle : Nat} (event : Mover × RaceAct)
    {before : List (Mover × RaceAct)} (spares : event.2.spares) :
    Destroyed s handle (event :: before) ↔ Destroyed s handle before := by
  refine or_congr_right ⟨?_, ?_⟩
  · rintro ⟨destruction, member, session, same, handle_eq⟩
    rcases List.mem_cons.mp member with here | earlier
    · rw [← here, same] at spares
      exact spares.elim
    · exact ⟨destruction, earlier, session, same, handle_eq⟩
  · rintro ⟨destruction, member, rest⟩
    exact ⟨destruction, List.mem_cons_of_mem _ member, rest⟩

/-- A destruction adds the handle of its object. -/
theorem destroyed_cons {s : Server} {handle : Nat} {mover : Mover} {object : Option RtpSession}
    {before : List (Mover × RaceAct)}
    (destroyed : Destroyed s handle ((mover, .deletes (.destroys object)) :: before)) :
    Destroyed s handle before ∨ ∃ session, object = some session ∧ session.handle = handle := by
  rcases destroyed with absent | ⟨destruction, member, session, same, handle_eq⟩
  · exact .inl (.inl absent)
  · rcases List.mem_cons.mp member with here | earlier
    · rw [here] at same
      cases same
      exact .inr ⟨session, rfl, handle_eq⟩
    · exact .inl (.inr ⟨destruction, earlier, session, same, handle_eq⟩)

/-! ## The invariant -/

/-- What an entry holds while the sender relies on it. -/
structure Holding (s : Server) (history : List (Mover × RaceAct)) (r : Race) : Prop where
  handles : HandlesOk r.server.rtp
  fresh : ∀ i session, r.server.rtp.live i = some session → r.deleter.clearing ≠ some i →
    ¬ Destroyed s session.handle history
  held : ∀ i, r.sender.holds = some i → r.deleter.clearing ≠ some i ∧
    r.server.rtp.live i ≠ none ∧
      ∀ session, r.sender.carries = some session → session = r.server.rtp.live i
  checking : ∀ d, r.sender = .check d → r.server.Active d
  calling : callUnderWay history = r.sender.calling

theorem calling_holds {pc : SendPc} {session : Option RtpSession} (calling : pc.calling = some session) :
    ∃ i, pc.holds = some i ∧ pc.carries = some session := by
  cases pc with
  | sending c entry object => exact ⟨entry, rfl, calling⟩
  | _ => cases calling

theorem sendStep_frame {e : SessionElement} {pc next : SendPc} {s after : Server} {act : SendAct}
    (step : sendStep e pc s = some (act, next, after)) :
    after.clients = s.clients ∧ (∀ i, after.rtp.live i = s.rtp.live i) ∧
      after.rtp.nextHandle = s.rtp.nextHandle := by
  have same : ∀ {a : SendAct} {n : SendPc}, some (a, n, s) = some (act, next, after) →
      after.clients = s.clients ∧ (∀ i, after.rtp.live i = s.rtp.live i) ∧
        after.rtp.nextHandle = s.rtp.nextHandle := by
    intro a n step
    cases Option.some.inj step
    exact ⟨rfl, fun _ => rfl, rfl⟩
  unfold sendStep at step
  cases pc with
  | visit i =>
      dsimp only at step
      split at step
      · exact same step
      · split at step
        · exact same step
        · exact same step
  | check c => exact same step
  | flag c clientID =>
      dsimp only at step
      split at step
      · cases step
      · exact same step
      · exact same step
  | route c =>
      dsimp only at step
      split at step
      · cases step
      · exact same step
  | test c sessionID =>
      dsimp only at step
      split at step
      · cases step
      · exact same step
      · split at step
        · exact same step
        · exact same step
  | load c entry => exact same step
  | send c entry session => exact same step
  | sending c entry session => exact same step
  | stamp c entry =>
      cases Option.some.inj step
      exact ⟨rfl, fun i => advance_live s.rtp entry i, rfl⟩
  | done => cases step

/-- A step of the sender that neither begins nor ends a call, and after which it
relies on no entry. -/
theorem Holding.sender_free {s after : Server} {history : List (Mover × RaceAct)} {r : Race}
    {e : SessionElement} {act : SendAct} {next : SendPc} (holding : Holding s history r)
    (step : sendStep e r.sender r.server = some (act, next, after))
    (under : callUnderWay ((.sender, .sends act) :: history) = next.calling)
    (free : next.holds = none) (checking : ∀ d, next = .check d → r.server.Active d) :
    Holding s ((.sender, .sends act) :: history) ⟨after, next, r.deleter⟩ := by
  obtain ⟨clients_eq, live_eq, next_eq⟩ := sendStep_frame step
  refine ⟨holding.handles.shrink next_eq fun i session found => (live_eq i).symm.trans found,
    fun i session found other => ?_, fun i holds => ?_, fun d here => ?_, under⟩
  · rw [destroyed_spared (.sender, .sends act) trivial]
    exact holding.fresh i session ((live_eq i).symm.trans found) other
  · rw [free] at holds
    cases holds
  · have active := checking d here
    rw [Server.Active, clients_eq]
    exact active

/-- A step of the sender after which it relies on an entry. -/
theorem Holding.sender_holding {s after : Server} {history : List (Mover × RaceAct)} {r : Race}
    {e : SessionElement} {act : SendAct} {next : SendPc} {entry : Fin maxSessionNum}
    (holding : Holding s history r)
    (step : sendStep e r.sender r.server = some (act, next, after))
    (under : callUnderWay ((.sender, .sends act) :: history) = next.calling)
    (holds : next.holds = some entry) (clear : r.deleter.clearing ≠ some entry)
    (live : r.server.rtp.live entry ≠ none)
    (carries : ∀ session, next.carries = some session → session = r.server.rtp.live entry) :
    Holding s ((.sender, .sends act) :: history) ⟨after, next, r.deleter⟩ := by
  obtain ⟨clients_eq, live_eq, next_eq⟩ := sendStep_frame step
  refine ⟨holding.handles.shrink next_eq fun i session found => (live_eq i).symm.trans found,
    fun i session found other => ?_, fun i holds' => ?_, fun d here => ?_, under⟩
  · rw [destroyed_spared (.sender, .sends act) trivial]
    exact holding.fresh i session ((live_eq i).symm.trans found) other
  · have same : entry = i := Option.some.inj (holds.symm.trans holds')
    subst same
    exact ⟨clear, by rw [live_eq]; exact live, fun session carried => by
      rw [live_eq]
      exact carries session carried⟩
  · have here' : next = .check d := here
    rw [here'] at holds
    cases holds

theorem Holding.sender_step {s after : Server} {history : List (Mover × RaceAct)} {r : Race}
    {c : Fin maxClientNum} {e : SessionElement} {act : SendAct} {next : SendPc}
    (holding : Holding s history r) (keeps : KeepsClear c r (.sender, .sends act))
    (step : sendStep e r.sender r.server = some (act, next, after)) :
    Harmless s history (.sends act) ∧
      Holding s ((.sender, .sends act) :: history) ⟨after, next, r.deleter⟩ := by
  have taken := step
  have under := holding.calling
  unfold sendStep at taken
  cases pc_eq : r.sender with
  | visit i =>
      rw [pc_eq] at taken under
      dsimp only at taken
      split at taken
      · cases Option.some.inj taken
        exact ⟨trivial, holding.sender_free step under rfl fun _ here => nomatch here⟩
      · split at taken
        · cases Option.some.inj taken
          exact ⟨trivial, holding.sender_free step under rfl fun _ here => nomatch here⟩
        · rename_i d _ active
          cases Option.some.inj taken
          refine ⟨trivial, holding.sender_free step under rfl fun d' here => ?_⟩
          cases here
          exact active
  | check d =>
      rw [pc_eq] at taken under
      cases Option.some.inj taken
      exact ⟨holding.checking d pc_eq, holding.sender_free step under rfl fun _ here => nomatch here⟩
  | flag d clientID =>
      rw [pc_eq] at taken under
      dsimp only at taken
      split at taken
      · cases taken
      · cases Option.some.inj taken
        exact ⟨trivial, holding.sender_free step under rfl fun _ here => nomatch here⟩
      · cases Option.some.inj taken
        exact ⟨trivial, holding.sender_free step under rfl fun _ here => nomatch here⟩
  | route d =>
      rw [pc_eq] at taken under
      dsimp only at taken
      split at taken
      · cases taken
      · cases Option.some.inj taken
        exact ⟨trivial, holding.sender_free step under rfl fun _ here => nomatch here⟩
  | test d sessionID =>
      rw [pc_eq] at taken under
      dsimp only at taken
      split at taken
      · cases taken
      · cases Option.some.inj taken
        exact ⟨trivial, holding.sender_free step under rfl fun _ here => nomatch here⟩
      · split at taken
        · cases Option.some.inj taken
          exact ⟨trivial, holding.sender_free step under rfl fun _ here => nomatch here⟩
        · rename_i entry _ session found
          cases Option.some.inj taken
          refine ⟨trivial, holding.sender_holding step under rfl keeps ?_ fun _ none_ => nomatch none_⟩
          rw [found]
          exact Option.some_ne_none session
  | load d entry =>
      obtain ⟨clear, live, _⟩ := holding.held entry (by rw [pc_eq]; rfl)
      rw [pc_eq] at taken under
      cases Option.some.inj taken
      refine ⟨trivial, holding.sender_holding step under rfl clear live fun session carried => ?_⟩
      exact (Option.some.inj carried).symm
  | send d entry session =>
      obtain ⟨clear, live, carries⟩ := holding.held entry (by rw [pc_eq]; rfl)
      have session_eq := carries session (by rw [pc_eq]; rfl)
      rw [pc_eq] at taken
      cases Option.some.inj taken
      -- the entry still holds the session the sender has tested and read
      refine ⟨?_, holding.sender_holding step rfl rfl clear live fun session' carried => ?_⟩
      · obtain ⟨object, held⟩ := Option.ne_none_iff_exists'.mp live
        exact ⟨object, session_eq.trans held, holding.fresh entry object held clear⟩
      · exact (Option.some.inj carried).symm.trans session_eq
  | sending d entry session =>
      rw [pc_eq] at taken
      cases Option.some.inj taken
      exact ⟨trivial, holding.sender_free step rfl rfl fun _ here => nomatch here⟩
  | stamp d entry =>
      rw [pc_eq] at taken under
      cases Option.some.inj taken
      exact ⟨trivial, holding.sender_free step under rfl fun _ here => nomatch here⟩
  | done =>
      rw [pc_eq] at taken
      cases taken

/-- A step of the deleter that keeps every object, destroys none and leaves no
entry to be cleared. -/
theorem Holding.deleter_quiet {s after : Server} {history : List (Mover × RaceAct)} {r : Race}
    {act : DelAct} {next : DelPc} (holding : Holding s history r)
    (spares : (RaceAct.deletes act).spares) (clearing : r.deleter.clearing = none)
    (done : next.clearing = none) (live : ∀ i, after.rtp.live i = r.server.rtp.live i)
    (nextHandle : after.rtp.nextHandle = r.server.rtp.nextHandle)
    (active : ∀ d, r.sender = .check d → r.server.Active d → after.Active d) :
    Holding s ((.deleter, .deletes act) :: history) ⟨after, r.sender, next⟩ := by
  refine ⟨holding.handles.shrink nextHandle fun i session found => (live i).symm.trans found,
    fun i session found _ => ?_, fun i holds => ?_, fun d here => ?_, ?_⟩
  · rw [destroyed_spared (.deleter, .deletes act) spares]
    exact holding.fresh i session ((live i).symm.trans found) (by rw [clearing]; exact nofun)
  · obtain ⟨_, held, carries⟩ := holding.held i holds
    exact ⟨by rw [done]; exact nofun, by rw [live]; exact held, fun session carried => by
      rw [live]
      exact carries session carried⟩
  · exact active d here (holding.checking d here)
  · cases act <;> exact holding.calling

/-- The object of a call that is under way is the one in the entry the sender
relies on, so that it is not the object of another entry. -/
theorem Holding.destroy_harmless {s : Server} {history : List (Mover × RaceAct)} {r : Race}
    {entry : Fin maxSessionNum} (holding : Holding s history r)
    (spared : r.sender.holds ≠ some entry) :
    Harmless s history (.deletes (.destroys (r.server.rtp.live entry))) := by
  intro live used held under same
  rw [holding.calling] at under
  obtain ⟨i, holds, carries⟩ := calling_holds under
  obtain ⟨_, _, read⟩ := holding.held i holds
  have used_eq := (read (some used) carries).symm
  exact spared (holding.handles.distinct i entry used live used_eq held same ▸ holds)

theorem Holding.destroy_step {s : Server} {history : List (Mover × RaceAct)} {r : Race}
    {medium : Medium} {i : Nat} {entry : Fin maxSessionNum} (holding : Holding s history r)
    (clearing : r.deleter.clearing = none) (spared : r.sender.holds ≠ some entry) :
    Holding s ((.deleter, .deletes (.destroys (r.server.rtp.live entry))) :: history)
      ⟨r.server, r.sender, .clear medium i entry⟩ := by
  refine ⟨holding.handles, fun j session found other destroyed => ?_, fun j holds => ?_,
    holding.checking, holding.calling⟩
  · rcases destroyed_cons destroyed with before | ⟨object, here, same⟩
    · exact holding.fresh j session found (by rw [clearing]; exact nofun) before
    · have at_entry := holding.handles.distinct entry j object session here found same
      exact other (congrArg some at_entry)
  · obtain ⟨_, held⟩ := holding.held j holds
    refine ⟨fun same => spared ?_, held⟩
    rw [holds, Option.some.inj same]

theorem Holding.clear_step {s : Server} {history : List (Mover × RaceAct)} {r : Race}
    {medium : Medium} {i : Nat} {entry : Fin maxSessionNum} (holding : Holding s history r)
    (clearing : r.deleter.clearing = some entry) :
    Holding s ((.deleter, .deletes (.clears entry)) :: history)
      ⟨{ r.server with rtp := r.server.rtp.clear entry }, r.sender, .reset medium i entry⟩ := by
  have kept : ∀ j session, (r.server.rtp.clear entry).live j = some session →
      j ≠ entry ∧ r.server.rtp.live j = some session := by
    intro j session found
    have other : j ≠ entry := by
      intro same
      rw [same, clear_live_self] at found
      cases found
    exact ⟨other, (clear_live_ne other).symm.trans found⟩
  refine ⟨holding.handles.shrink rfl fun j session found => (kept j session found).2,
    fun j session found _ => ?_, fun j holds => ?_, holding.checking, holding.calling⟩
  · obtain ⟨other, before⟩ := kept j session found
    rw [destroyed_spared (.deleter, .deletes (.clears entry)) trivial]
    exact holding.fresh j session before fun same => other (Option.some.inj (same.symm.trans clearing))
  · obtain ⟨spared, held, carries⟩ := holding.held j holds
    have other : j ≠ entry := fun same => spared (same ▸ clearing)
    refine ⟨nofun, ?_, fun session carried => ?_⟩
    · exact (clear_live_ne other).symm ▸ held
    · exact (carries session carried).trans (clear_live_ne other).symm

theorem Holding.deleter_step {chs : Int} {s after : Server} {history : List (Mover × RaceAct)}
    {r : Race} {c : Fin maxClientNum} {act : DelAct} {next : DelPc} (holding : Holding s history r)
    (keeps : KeepsClear c r (.deleter, .deletes act))
    (step : delStep chs c r.deleter r.server = some (act, next, after)) :
    Harmless s history (.deletes act) ∧
      Holding s ((.deleter, .deletes act) :: history) ⟨after, r.sender, next⟩ := by
  have nextPc : ∀ medium i, (DelPc.next medium i).clearing = none := fun medium i => by
    cases medium <;> rfl
  have quiet : ∀ {pc : DelPc}, r.deleter.clearing = none → pc.clearing = none →
      some (DelAct.quiet, pc, r.server) = some (act, next, after) →
        Harmless s history (.deletes act) ∧
          Holding s ((.deleter, .deletes act) :: history) ⟨after, r.sender, next⟩ := by
    intro pc clearing done same
    cases Option.some.inj same
    exact ⟨trivial, holding.deleter_quiet trivial clearing done (fun _ => rfl) rfl
      fun _ _ active => active⟩
  unfold delStep at step
  cases pc_eq : r.deleter with
  | start =>
      rw [pc_eq] at step quiet
      dsimp only at step
      split at step
      · exact quiet rfl rfl step
      · exact quiet rfl rfl step
  | pick medium i =>
      rw [pc_eq] at step quiet
      dsimp only at step
      split at step
      · split at step
        · cases step
        · split at step
          · cases step
          · exact quiet rfl (nextPc medium i) step
          · exact quiet rfl rfl step
      · exact quiet rfl rfl step
  | test medium i entry =>
      rw [pc_eq] at step quiet
      dsimp only at step
      split at step
      · exact quiet rfl rfl step
      · exact quiet rfl rfl step
  | destroy medium i entry =>
      have clearing : r.deleter.clearing = none := by rw [pc_eq]; rfl
      rw [pc_eq] at step
      cases Option.some.inj step
      have spared : r.sender.holds ≠ some entry := keeps entry (by rw [pc_eq]; rfl)
      constructor
      · exact holding.destroy_harmless spared
      · exact holding.destroy_step clearing spared
  | clear medium i entry =>
      have clearing : r.deleter.clearing = some entry := by rw [pc_eq]; rfl
      rw [pc_eq] at step
      cases Option.some.inj step
      exact ⟨trivial, holding.clear_step clearing⟩
  | reset medium i entry =>
      rw [pc_eq] at step
      cases Option.some.inj step
      exact ⟨trivial, holding.deleter_quiet trivial (by rw [pc_eq]; rfl) (nextPc medium i)
        (fun j => resetStamps_live _ entry j) rfl fun _ _ active => active⟩
  | unmark =>
      rw [pc_eq] at step
      cases Option.some.inj step
      refine ⟨trivial, holding.deleter_quiet trivial (by rw [pc_eq]; rfl) rfl (fun _ => rfl) rfl ?_⟩
      -- the sender is about to read another slot, if it is about to read one
      intro d here active
      rw [Server.Active, setClient_ne fun same => keeps (here.trans (congrArg SendPc.check same))]
      exact active
  | wipe =>
      rw [pc_eq] at step
      dsimp only at step
      split at step
      · cases step
      · rename_i k _
        cases Option.some.inj step
        refine ⟨trivial, holding.deleter_quiet trivial (by rw [pc_eq]; rfl) rfl (fun _ => rfl) rfl ?_⟩
        intro d _ active
        by_cases same : d = k
        · subst same
          rw [Server.Active, setClient_self]
          exact active
        · rw [Server.Active, setClient_ne same]
          exact active
  | done ret =>
      rw [pc_eq] at step
      cases step

/-! ## Every run -/

theorem holding_start {s : Server} (handles : HandlesOk s.rtp) :
    Holding s [] ⟨s, .visit 0, .start⟩ := by
  refine ⟨handles, fun i session found _ destroyed => ?_, nofun, nofun, rfl⟩
  rcases destroyed with absent | ⟨destruction, member, _⟩
  · exact absent i session found rfl
  · cases member

theorem Holding.race_step {chs : Int} {s : Server} {history : List (Mover × RaceAct)}
    {c : Fin maxClientNum} {e : SessionElement} {r after : Race} {event : Mover × RaceAct}
    (holding : Holding s history r) (keeps : KeepsClear c r event)
    (step : ExecStep (raceExec chs e c) r event after) :
    Harmless s history event.2 ∧ Holding s (event :: history) after := by
  obtain ⟨mover, act⟩ := event
  cases mover with
  | sender =>
      simp only [ExecStep, raceExec] at step
      split at step
      · cases step
      · rename_i taken
        cases Option.some.inj step
        exact holding.sender_step keeps taken
  | deleter =>
      simp only [ExecStep, raceExec] at step
      split at step
      · cases step
      · rename_i taken
        cases Option.some.inj step
        exact holding.deleter_step keeps taken

theorem run_holding {chs : Int} {s : Server} {history : List (Mover × RaceAct)}
    {c : Fin maxClientNum} {e : SessionElement} {r : Race} (handles : HandlesOk s.rtp)
    (run : Run (Guarded (KeepsClear c) (ExecStep (raceExec chs e c))) ⟨s, .visit 0, .start⟩
      history r) :
    UsedSafely s history ∧ Holding s history r := by
  apply run.invariant fun history r => UsedSafely s history ∧ Holding s history r
  · exact ⟨trivial, holding_start handles⟩
  · rintro history r event after _ ⟨safe, holding⟩ ⟨keeps, step⟩
    obtain ⟨harmless, next⟩ := holding.race_step keeps step
    exact ⟨⟨harmless, safe⟩, next⟩

theorem clear_deletions_are_safe {chs : Int} {start s : Server} {before : List Event}
    {e : SessionElement} {c : Fin maxClientNum} {history : List (Mover × RaceAct)} {r : Race}
    (booted : Booted chs start) (reached : Run (Step chs) start before s)
    (run : Run (Guarded (KeepsClear c) (ExecStep (raceExec chs e c))) ⟨s, .visit 0, .start⟩
      history r) :
    UsedSafely s history :=
  (run_holding (run_handlesOk reached booted.handlesOk) run).1

/-- One client with video on port 5000 that has opened channel 0. -/
def watching : List Op := [.addClient "10.0.0.1" 5000 (-1), .openChannel 0 0]

/-- A video frame of channel 0. -/
def frame : SessionElement := ⟨cmdSessionBuffer, 0, 0, 0, 100⟩

/-- The client is deleted after the frame was sent. -/
theorem clear_deletions_are_safe_after :
    ∃ result, ((trace 4 watching).bind fun (_, s) =>
      execAll (checked (KeepsClear 0) (raceExec 4 frame 0))
        (List.replicate 19 .sender ++ List.replicate 10 .deleter)
          ([], ⟨s, .visit 0, .start⟩)) = some result ∧
        ∃ s, UsedSafely s result.1 := by
  obtain ⟨result, executed⟩ := Option.isSome_iff_exists.mp
    (show ((trace 4 watching).bind fun (_, s) =>
      execAll (checked (KeepsClear 0) (raceExec 4 frame 0))
        (List.replicate 19 .sender ++ List.replicate 10 .deleter)
          ([], ⟨s, .visit 0, .start⟩)).isSome = true by decide)
  obtain ⟨⟨before, s⟩, traced, ran⟩ := Option.bind_eq_some_iff.mp executed
  obtain ⟨start, booted, reached⟩ := trace_run traced
  exact ⟨result, executed, s, clear_deletions_are_safe booted reached
    ((execAll_run .nil ran).mono ExecStep.guarded)⟩

/-- The newest step is a call on the object that the step before it destroyed. -/
def usesDestroyed : List (Mover × RaceAct) → Bool
  | (_, .sends (.starts (some used))) :: (_, .deletes (.destroys (some gone))) :: _ =>
      used.handle == gone.handle
  | _ => false

theorem usesDestroyed_unsafe {s : Server} {history : List (Mover × RaceAct)}
    (used : usesDestroyed history = true) : ¬ UsedSafely s history := by
  unfold usesDestroyed at used
  split at used
  · rename_i mover live mover' gone before
    rintro ⟨⟨object, same, spared⟩, _⟩
    cases same
    exact spared (.inr ⟨_, List.mem_cons_self, gone, rfl, (beq_iff_eq.mp used).symm⟩)
  · cases used

/-- The session is destroyed after the sender has read `pSession` for its call. -/
theorem deletions_are_safe_fails : ¬ ∀ (chs : Int) (start s : Server) (before : List Event)
    (e : SessionElement) (c : Fin maxClientNum) (history : List (Mover × RaceAct)) (r : Race),
      0 < chs → chs ≤ maxVideoChannel → chs % chsPerSession = 0 → Booted chs start →
      Run (Step chs) start before s →
      Run (ExecStep (raceExec chs e c)) ⟨s, .visit 0, .start⟩ history r → UsedSafely s history := by
  intro claim
  have used : ((trace 4 watching).any fun (_, s) =>
      (execAll (raceExec 4 frame 0)
        (List.replicate 6 .sender ++ List.replicate 4 .deleter ++ [.sender])
          ([], ⟨s, .visit 0, .start⟩)).any fun (history, _) => usesDestroyed history) = true := by
    decide
  obtain ⟨⟨before, s⟩, traced, used⟩ := (Option.any_eq_true _ _).mp used
  obtain ⟨⟨history, r⟩, ran, used⟩ := (Option.any_eq_true _ _).mp used
  obtain ⟨start, booted, reached⟩ := trace_run traced
  exact usesDestroyed_unsafe used (claim 4 start s before frame 0 history r (by decide) (by decide)
    (by decide) booted reached (execAll_run .nil ran))

end DvsServer.Core.Session
