import DvsServer.Network.ServerIf

/-!
# The slots a connection acts on

`clientID` holds whatever its memory held until the first `add_client`, and then
the result of the latest one, failure codes included.  `open_channel` and
`close_channel` use it unchecked, and the exit path deletes it unless it is `-1`.
The calls are made on the connection's own slots exactly when the commands come
in an order for which this single variable suffices.
-/

namespace DvsServer.Network.ServerIf

open DvsServer.Lib DvsServer.Core.Session DvsServer.Network.Command

abbrev PassEvent := Turn × List Call

/-- Some `add_client` of this connection returned `ret`. -/
def Returned (ret : Int) (history : List PassEvent) : Prop :=
  ∃ event ∈ history, ∃ call ∈ event.2, call.added = some ret

/-- Every call on a slot names one that an earlier `add_client` of the connection
returned. -/
def OwnSlots : List PassEvent → Prop
  | [] => True
  | (_, calls) :: before =>
      (∀ call ∈ calls, ∀ c, call.slot = some c →
        ∃ slot : Fin maxClientNum, c = slot ∧ Returned c before) ∧ OwnSlots before

/-! ## The condition on the packets and the results of `add_client` -/

/-- The result of the latest `add_client`; turns are listed newest first. -/
def latestAdd (turns : List Turn) : Option AddResult := turns.findSome? Turn.adds

def Leaves (turn : Turn) (before : List Turn) : Prop :=
  turn.quit = true ∨ before.head?.any Turn.quits = true ∨ turn.hungUp

/-- An open or close comes after an `add_client`, the latest of which succeeded;
at the end the latest one succeeded or found no slot, or there was none and the
initial `clientID` happened to be `-1`. -/
structure Registers (initial : Int) (turn : Turn) (before : List Turn) : Prop where
  leaving : Leaves turn before →
    match latestAdd before with
    | none => initial = -1
    | some result => result = .noSlot ∨ ∃ c, result = .slot c
  serving : ¬ Leaves turn before →
    turn.command = some .openChannel ∨ turn.command = some .closeChannel →
      ∃ c, latestAdd before = some (.slot c)

def RegistersFirst (initial : Int) : List Turn → Prop
  | [] => True
  | turn :: before => Registers initial turn before ∧ RegistersFirst initial before

/-! ## The invariant -/

/-- The locals of a thread in its loop, as the history determines them. -/
structure Locals (initial : Int) (history : List PassEvent) (t : TcpThread) : Prop where
  clientID : t.clientID = (latestAdd (history.map Prod.fst)).elim initial AddResult.ret
  clientQuit : t.clientQuit = (history.map Prod.fst).head?.any Turn.quits
  returned : ∀ ret, Returned ret history ↔
    ∃ turn ∈ history.map Prod.fst, ∃ result, turn.adds = some result ∧ result.ret = ret

theorem returned_cons {ret : Int} {event : PassEvent} {history : List PassEvent} :
    Returned ret (event :: history) ↔
      (∃ call ∈ event.2, call.added = some ret) ∨ Returned ret history := by
  simp [Returned]

theorem latestAdd_cons (turn : Turn) (before : List Turn) :
    latestAdd (turn :: before) = turn.adds.or (latestAdd before) := by
  rw [latestAdd, List.findSome?_cons]
  cases turn.adds <;> rfl

/-- What a pass that stays in the loop does to the locals, and the results its
calls of `add_client` returned. -/
theorem Passes.staying {t after : TcpThread} {turn : Turn} {calls : List Call}
    (passes : Passes t turn calls after) (stays : after.left = false) :
    after.clientID = turn.adds.elim t.clientID AddResult.ret ∧ after.clientQuit = turn.quits ∧
      ∀ ret, (∃ call ∈ calls, call.added = some ret) ↔
        ∃ result, turn.adds = some result ∧ result.ret = ret := by
  cases passes with
  | exits leaves => cases stays
  | idle _ _ _ nothing replies clientID still left =>
      have noAdd : turn.adds = none := by
        rw [Turn.adds, Turn.command_none nothing]
        rfl
      refine ⟨by rw [clientID, noAdd]; rfl, ?_, fun ret => ⟨?_, ?_⟩⟩
      · rw [still, Turn.quits, Turn.command_none nothing]
        rfl
      · rintro ⟨call, member, added⟩
        rw [replies.added member] at added
        cases added
      · rintro ⟨result, added, _⟩
        rw [noAdd] at added
        cases added
  | serves before header sPack _ _ _ dispatched replies clientID still left =>
      have command_eq := Turn.command_eq dispatched
      have adds_eq : turn.adds =
          if commandOf sPack = some .addClient then some turn.added else none := by
        rw [Turn.adds, command_eq]
      refine ⟨?_, ?_, fun ret => ?_⟩
      · rw [serve_clientID, adds_eq, clientID]
        split <;> rfl
      · rw [serve_clientQuit, still, Bool.false_or, Turn.quits, command_eq]
      · have served : (∃ call ∈ header ++ (serve before turn sPack).1, call.added = some ret) ↔
            ∃ call ∈ (serve before turn sPack).1, call.added = some ret := by
          refine ⟨?_, fun ⟨call, inServed, added⟩ => ⟨call, List.mem_append_right _ inServed, added⟩⟩
          rintro ⟨call, member, added⟩
          rcases List.mem_append.mp member with inHeader | inServed
          · rw [replies.added inHeader] at added
            cases added
          · exact ⟨call, inServed, added⟩
        rw [served, serve_added, adds_eq]
        split
        · rename_i adds
          exact ⟨fun ⟨same, _⟩ => ⟨_, rfl, same.symm⟩,
            fun ⟨_, result, same⟩ => ⟨by cases result; exact same.symm, adds⟩⟩
        · rename_i adds
          exact ⟨fun ⟨_, now⟩ => absurd now adds, fun ⟨_, impossible, _⟩ => nomatch impossible⟩

theorem Locals.step {initial : Int} {history : List PassEvent} {t after : TcpThread} {turn : Turn}
    {calls : List Call} (locals : Locals initial history t) (passes : Passes t turn calls after)
    (stays : after.left = false) : Locals initial ((turn, calls) :: history) after := by
  obtain ⟨clientID, clientQuit, added⟩ := passes.staying stays
  refine ⟨?_, clientQuit, fun ret => ?_⟩
  · rw [clientID, locals.clientID, List.map_cons, latestAdd_cons]
    cases turn.adds <;> rfl
  · rw [returned_cons, added, locals.returned]
    simp

theorem run_locals {initial : Int} {returnCMD : ReturnCMD} {resolution : UInt32}
    {history : List PassEvent} {t : TcpThread}
    (run : Run (ExecStep tcpPass) (.start initial returnCMD resolution) history t)
    (stays : t.left = false) : Locals initial history t := by
  refine run.invariant (fun history t => t.left = false → Locals initial history t)
    (fun _ => ⟨rfl, rfl, fun _ => by simp [Returned]⟩)
    (fun _ ih step stays => ?_) stays
  obtain ⟨left, passes⟩ := tcpPass_cases step
  exact (ih left).step passes stays

/-! ## Acting on own slots -/

theorem Locals.own_iff {initial : Int} {history : List PassEvent} {t : TcpThread}
    (locals : Locals initial history t) :
    (∃ slot : Fin maxClientNum, t.clientID = slot ∧ Returned t.clientID history) ↔
      ∃ c, latestAdd (history.map Prod.fst) = some (.slot c) := by
  constructor
  · rintro ⟨slot, at_slot, returned⟩
    cases latest : latestAdd (history.map Prod.fst) with
    | none =>
        obtain ⟨turn, member, result, added, _⟩ := (locals.returned _).mp returned
        rw [List.findSome?_eq_none_iff.mp latest turn member] at added
        cases added
    | some result =>
        have ret_eq : t.clientID = result.ret := by
          rw [locals.clientID, latest]
          rfl
        exact ⟨slot, congrArg some (AddResult.ret_eq_iff.mp (ret_eq.symm.trans at_slot))⟩
  · rintro ⟨c, latest⟩
    have ret_eq : t.clientID = c := by
      rw [locals.clientID, latest]
      rfl
    refine ⟨c, ret_eq, ?_⟩
    obtain ⟨turn, member, added⟩ := List.exists_of_findSome?_eq_some latest
    exact (locals.returned _).mpr ⟨turn, member, .slot c, added, ret_eq.symm⟩

theorem Locals.exitPath_acts_iff {initial : Int} {history : List PassEvent} {t : TcpThread}
    (locals : Locals initial history t) :
    (∀ call ∈ (exitPath t).1, ∀ c, call.slot = some c →
      ∃ slot : Fin maxClientNum, c = slot ∧ Returned c history) ↔
        t.clientID = -1 ∨ ∃ c, latestAdd (history.map Prod.fst) = some (.slot c) := by
  rw [← locals.own_iff]
  by_cases none_ : t.clientID = -1
  · simp [exitPath, none_]
  · simp [exitPath, none_, Call.slot]

theorem Locals.leaving_iff {initial : Int} {history : List PassEvent} {t : TcpThread} {turn : Turn}
    (locals : Locals initial history t) (leaving : Leaves turn (history.map Prod.fst)) :
    (t.clientID = -1 ∨ ∃ c, latestAdd (history.map Prod.fst) = some (.slot c)) ↔
      Registers initial turn (history.map Prod.fst) := by
  have id_eq := locals.clientID
  cases latest : latestAdd (history.map Prod.fst) with
  | none =>
      rw [latest, Option.elim_none] at id_eq
      constructor
      · rintro (unset | ⟨_, impossible⟩)
        · refine ⟨fun _ => ?_, fun stays => absurd leaving stays⟩
          rw [latest]
          exact id_eq ▸ unset
        · cases impossible
      · intro ordered
        have fine := ordered.leaving leaving
        rw [latest] at fine
        exact .inl (id_eq.trans fine)
  | some result =>
      rw [latest, Option.elim_some] at id_eq
      have unset : t.clientID = -1 ↔ result = .noSlot := by
        rw [id_eq]
        cases result with
        | slot c =>
            have differs : AddResult.ret (.slot c) ≠ -1 := by
              simp only [AddResult.ret]
              omega
            simp only [differs, reduceCtorEq]
        | noSlot => exact ⟨fun _ => rfl, fun _ => rfl⟩
        | noVideo => decide
        | noAudio => decide
      simp only [unset, Option.some.injEq]
      constructor
      · intro fine
        refine ⟨fun _ => ?_, fun stays => absurd leaving stays⟩
        rw [latest]
        exact fine
      · intro ordered
        have fine := ordered.leaving leaving
        rw [latest] at fine
        exact fine

/-- Of the commands only open and close act on a slot. -/
theorem Locals.serve_acts_iff {initial : Int} {history : List PassEvent} {t before : TcpThread}
    {turn : Turn} {header : List Call} {sPack : ServerPack} (locals : Locals initial history t)
    (dispatched : turn.dispatched = some sPack) (replies : Replies header)
    (clientID : before.clientID = t.clientID) :
    (∀ call ∈ header ++ (serve before turn sPack).1, ∀ c, call.slot = some c →
      ∃ slot : Fin maxClientNum, c = slot ∧ Returned c history) ↔
        (turn.command = some .openChannel ∨ turn.command = some .closeChannel →
          ∃ c, latestAdd (history.map Prod.fst) = some (.slot c)) := by
  rw [← locals.own_iff, Turn.command_eq dispatched]
  constructor
  · intro own acts
    obtain ⟨call, served, slot⟩ := serve_slot.mpr ⟨clientID.symm, acts⟩
    exact own call (List.mem_append_right _ served) _ slot
  · intro own call member c slot
    rcases List.mem_append.mp member with inHeader | served
    · rw [replies.slot inHeader] at slot
      cases slot
    · obtain ⟨at_c, acts⟩ := serve_slot.mp ⟨call, served, slot⟩
      rw [at_c, clientID]
      exact own acts

theorem Locals.acts_iff {initial : Int} {history : List PassEvent} {t after : TcpThread}
    {turn : Turn} {calls : List Call} (locals : Locals initial history t)
    (passes : Passes t turn calls after) :
    (∀ call ∈ calls, ∀ c, call.slot = some c →
      ∃ slot : Fin maxClientNum, c = slot ∧ Returned c history) ↔
        Registers initial turn (history.map Prod.fst) := by
  have goesOn : ¬ turn.hungUp → turn.quit = false → t.clientQuit = false →
      ¬ Leaves turn (history.map Prod.fst) := by
    rintro stays quit clientQuit (now | now | now)
    · rw [quit] at now
      cases now
    · rw [← locals.clientQuit, clientQuit] at now
      cases now
    · exact stays now
  cases passes with
  | exits leaves =>
      rw [locals.clientQuit] at leaves
      rw [locals.exitPath_acts_iff]
      exact locals.leaving_iff leaves
  | idle stays quit clientQuit nothing replies =>
      constructor
      · intro _
        refine ⟨fun leaving => absurd leaving (goesOn stays quit clientQuit), fun _ acts => ?_⟩
        rw [Turn.command_none nothing] at acts
        rcases acts with impossible | impossible <;> cases impossible
      · intro _ call member c acts
        rw [replies.slot member] at acts
        cases acts
  | serves before header sPack stays quit clientQuit dispatched replies clientID =>
      rw [locals.serve_acts_iff dispatched replies clientID]
      constructor
      · intro own
        exact ⟨fun leaving => absurd leaving (goesOn stays quit clientQuit), fun _ => own⟩
      · intro ordered
        exact ordered.serving (goesOn stays quit clientQuit)

/-- A connection acts on own slots only exactly when each open and close follows
an `add_client` with no failed one in between, and the latest `add_client`
before the end succeeded or found no slot. -/
theorem own_slots_iff_registers_first {initial : Int} {returnCMD : ReturnCMD}
    {resolution : UInt32} {history : List PassEvent} {t : TcpThread}
    (run : Run (ExecStep tcpPass) (.start initial returnCMD resolution) history t) :
    OwnSlots history ↔ RegistersFirst initial (history.map Prod.fst) := by
  induction run with
  | nil => exact Iff.rfl
  | @snoc earlier state next event run step ih =>
      obtain ⟨turn, calls⟩ := event
      obtain ⟨left, passes⟩ := tcpPass_cases step
      exact and_congr ((run_locals run left).acts_iff passes) ih

def receiving (serverCMD : UInt8) (parameters : List UInt8) (added : AddResult) : Turn :=
  { quit := false, recv := .stored (tcpCmdHeaderStr ++ [serverCMD, 0, 0, 0] ++ parameters)
    errno := .other, headerSent := returnPackLen, added, resolution := videoResolutionCif }

def hangingUp : Turn :=
  { quit := false, recv := .stored [], errno := .other, headerSent := returnPackLen
    added := .noSlot, resolution := videoResolutionCif }

/-- A client registers on ports 5000 and 7000, opens channel 5 and hangs up. -/
theorem own_slots_iff_registers_first_session :
    ∃ result, execAll tcpPass [receiving 1 [0x88, 0x13, 0, 0, 0x58, 0x1B, 0, 0] (.slot 2),
      receiving 3 [5, 0, 0, 0, 0, 0, 0, 0] .noSlot, hangingUp] ([], .start 7 .success 0) =
        some result ∧ (OwnSlots result.1 ↔ RegistersFirst 7 (result.1.map Prod.fst)) := by
  obtain ⟨result, executed⟩ := Option.isSome_iff_exists.mp
    (show (execAll tcpPass [receiving 1 [0x88, 0x13, 0, 0, 0x58, 0x1B, 0, 0] (.slot 2),
      receiving 3 [5, 0, 0, 0, 0, 0, 0, 0] .noSlot, hangingUp]
        ([], .start 7 .success 0)).isSome = true by decide)
  exact ⟨result, executed, own_slots_iff_registers_first (execAll_run .nil executed)⟩

/-- A client that opens channel 5 before it registers: the call is made on
whatever slot the uninitialised `clientID` names. -/
theorem own_slots_fails : ¬ ∀ (initial : Int) (returnCMD : ReturnCMD) (resolution : UInt32)
    (history : List PassEvent) (t : TcpThread),
      Run (ExecStep tcpPass) (.start initial returnCMD resolution) history t →
        OwnSlots history := by
  intro claim
  have opened : Run (ExecStep tcpPass) (.start 7 .success 0)
      [(receiving 3 [5, 0, 0, 0, 0, 0, 0, 0] .noSlot,
        [.dispatch 3 [5, 0, 0, 0, 0, 0, 0, 0], .openChannel 7 5,
          .send ⟨tcpCmdHeaderStr, .success, 0⟩])] (.start 7 .success 0) :=
    .snoc .nil rfl
  have own := claim _ _ _ _ _ opened
  obtain ⟨_, _, _, inNil, _⟩ := own.1 (.openChannel 7 5) (by simp) 7 rfl
  cases inNil

end DvsServer.Network.ServerIf
