import DvsServer.Lib.Placement
import DvsServer.Lib.Run
import DvsServer.Osa.Que

/-!
# Mailboxes (`utils/osa/src/osa_mbx.c`, `utils/osa/src/osa_msgq.c`)

A message is allocated by its sender and travels through the receive queue of
a mailbox to a handler.  The handler frees it, or sends it back as an
acknowledgement to the sender, who waits for it and frees it then.  The
parameter block of a message goes with it when the flags say so.

The steps of all senders and handlers interleave; every access to a message
that is not allocated is a fault, and so is freeing a parameter block that is
not.  The acknowledgements of a mailbox are flushed only while nobody waits for
them, and calls whose `OSA_assert` fails are left out.
-/

namespace DvsServer.Osa.Mbx

open DvsServer.Lib

/-- Mailboxes, messages, parameter blocks and threads by their addresses. -/
abbrev MbxHndl := Nat

abbrev Addr := Nat

abbrev Prm := Nat

abbrev Thread := Nat

abbrev osaMsgqLenMax : Nat := 32

abbrev osaMbxBroadcastMax : Nat := 10

abbrev osaMbxWaitAck : UInt16 := 0x0002

abbrev osaMbxFreePrm : UInt16 := 0x0004

/-- `OSA_MsgHndl`, but for the receiver's queue, which nobody reads. -/
structure MsgHndl where
  pFrom : Option MbxHndl
  pPrm : Option Prm
  status : Int
  cmd : UInt16
  flags : UInt16

def waitsAck (flags : UInt16) : Bool := flags &&& osaMbxWaitAck != 0

def freesPrm (flags : UInt16) : Bool := flags &&& osaMbxFreePrm != 0

/-- The arguments of a call that sends. -/
structure Call where
  mbxFrom : Option MbxHndl
  cmd : UInt16
  pPrm : Option Prm
  flags : UInt16
deriving DecidableEq

inductive Kind where
  | sendMsg
  | broadcastMsg
deriving DecidableEq

/-- Where a sender is: between calls, before its next `OSA_msgqSendMsg`, or in
the loop that collects the acknowledgements.  In the loop a message is paired
with its entry in `ackList`. -/
inductive Caller where
  | outside
  | sending (kind : Kind) (call : Call) (todo : List MbxHndl) (sent : List Addr)
  | collecting (kind : Kind) (call : Call) (acks : List (Addr × Bool)) (ackRetVal : Int)

structure State where
  rcvMbx : MbxHndl → RingBuffer Addr
  ackMbx : MbxHndl → RingBuffer Addr
  heap : Addr → Option MsgHndl
  prms : Prm → Bool
  callers : Thread → Caller
  /-- The messages that a handler has got and has yet to acknowledge or free. -/
  held : Addr → Bool
  /-- The parameter blocks that the application has not given away. -/
  owned : Prm → Bool
  /-- The thread that waits at the acknowledgement queue of a mailbox. -/
  user : MbxHndl → Option Thread

inductive Op where
  | allocPrm (prm : Prm)
  | sendMsg (thread : Thread) (pMbxTo : MbxHndl) (call : Call)
  | broadcastMsg (thread : Thread) (pMbxToList : List MbxHndl) (call : Call)
  | sendNext (thread : Thread) (addr : Addr)
  | recvAck (thread : Thread)
  | recvMsg (mbx : MbxHndl) (timeout : UInt32)
  | ackOrFreeMsg (addr : Addr) (ackRetVal : Int)
  | flushAck (mbx : MbxHndl)

inductive Outcome where
  | goesOn
  | got (addr : Addr)
  | returned (status : Int)
  | fault
deriving DecidableEq

/-! ## Memory -/

/-- `OSA_memFree` of a parameter block. -/
def memFreePrm (s : State) (prm : Prm) : Option State :=
  if s.prms prm then some { s with prms := Function.update s.prms prm false } else none

/-- `pPrm`, when the flags say that it is to be freed. -/
def prmToFree (flags : UInt16) (pPrm : Option Prm) : Option Prm :=
  if freesPrm flags then pPrm else none

def freePrm (s : State) (flags : UInt16) (pPrm : Option Prm) : Option State :=
  match prmToFree flags pPrm with
  | some prm => memFreePrm s prm
  | none => some s

def msgqFreeMsgHndl (s : State) (addr : Addr) : Option State :=
  match s.heap addr with
  | some _ => some { s with heap := Function.update s.heap addr none }
  | none => none

def mbxFreeMsg (s : State) (addr : Addr) : Option State :=
  match s.heap addr with
  | some msg => (freePrm s msg.flags msg.pPrm).bind fun s => msgqFreeMsgHndl s addr
  | none => none

def setCaller (s : State) (thread : Thread) (caller : Caller) : State :=
  { s with callers := Function.update s.callers thread caller }

/-- A call that has waited for acknowledgements returns. -/
def leaveCall (s : State) (thread : Thread) (mbx : MbxHndl) : State :=
  { setCaller s thread .outside with user := Function.update s.user mbx none }

/-! ## The steps -/

/-- What the caller of a sending function has to see to: the parameter block it
gives away is its own, and nobody else waits at its acknowledgement queue. -/
def mayCall (s : State) (call : Call) : Bool :=
  (match prmToFree call.flags call.pPrm with
    | some prm => s.owned prm
    | none => true) &&
  (match call.mbxFrom with
    | some mbx => !waitsAck call.flags || (s.user mbx).isNone
    | none => true)

/-- `OSA_assert(0)` where there is no mailbox to wait at. -/
def assertsFrom (call : Call) : Bool := call.mbxFrom.isSome || !waitsAck call.flags

/-- The other assertions of `OSA_mbxBroadcastMsg`. -/
def assertsBroadcast (numMsg : Nat) (call : Call) : Bool :=
  numMsg < osaMbxBroadcastMax && (!freesPrm call.flags || waitsAck call.flags || numMsg ≤ 1)

/-- The parameter block and the acknowledgement queue are the call's. -/
def beginCall (s : State) (thread : Thread) (kind : Kind) (call : Call) (todo : List MbxHndl) : State :=
  { setCaller s thread (.sending kind call todo []) with
    owned := match prmToFree call.flags call.pPrm with
      | some prm => Function.update s.owned prm false
      | none => s.owned
    user := match call.mbxFrom with
      | some mbx =>
          if waitsAck call.flags then Function.update s.user mbx (some thread) else s.user
      | none => s.user }

/-- `OSA_msgqSendMsg`: the message is allocated and queued; `none` while the
queue is full. -/
def msgqSendMsg (s : State) (to_ : MbxHndl) (call : Call) (addr : Addr) : Option State :=
  match s.heap addr, Que.quePut addr osaTimeoutForever (s.rcvMbx to_) with
  | none, .leave _ que _ =>
      let msg : MsgHndl := ⟨call.mbxFrom, call.pPrm, osaSok, call.cmd, call.flags⟩
      some { s with
        heap := Function.update s.heap addr (some msg)
        rcvMbx := Function.update s.rcvMbx to_ que }
  | _, _ => none

/-- Where a sender is after a message has gone. -/
def nextCaller (kind : Kind) (call : Call) (todo : List MbxHndl) (sent : List Addr) : Caller :=
  if todo ≠ [] then .sending kind call todo sent
  else if waitsAck call.flags then
    .collecting kind call (sent.map fun addr => (addr, false)) osaSok
  else .outside

/-- Mark the entry of `pSentMsgList` that is the message. -/
def mark (addr : Addr) : List (Addr × Bool) → List (Addr × Bool)
  | [] => []
  | (sent, acked) :: rest =>
      if sent = addr then (sent, true) :: rest else (sent, acked) :: mark addr rest

/-- One acknowledgement in the loop of `OSA_mbxSendMsg`. -/
def sendMsgAck (s : State) (thread : Thread) (mbx : MbxHndl) (acks : List (Addr × Bool))
    (addr : Addr) : Outcome × State :=
  match s.heap addr, mbxFreeMsg s addr with
  | some msg, some freed =>
      if acks.any (·.1 == addr) then (.returned msg.status, leaveCall freed thread mbx)
      else (.goesOn, freed)
  | _, _ => (.fault, s)

/-- One acknowledgement in the loop of `OSA_mbxBroadcastMsg`. -/
def broadcastAck (s : State) (thread : Thread) (mbx : MbxHndl) (call : Call)
    (acks : List (Addr × Bool)) (ackRetVal : Int) (addr : Addr) : Outcome × State :=
  if acks.any (·.1 == addr) then
    match s.heap addr, msgqFreeMsgHndl s addr with
    | some msg, some freed =>
        let ackRetVal := if ackRetVal = osaSok then msg.status else ackRetVal
        let acks := mark addr acks
        if acks.all (·.2) then
          match freePrm freed call.flags call.pPrm with
          | some freed => (.returned ackRetVal, leaveCall freed thread mbx)
          | none => (.fault, s)
        else (.goesOn, setCaller freed thread (.collecting .broadcastMsg call acks ackRetVal))
    | _, _ => (.fault, s)
  else
    match mbxFreeMsg s addr with
    | some freed => (.goesOn, freed)
    | none => (.fault, s)

/-- One step; `none` where a call has to wait, fails an assertion, or is not
made by a caller who may. -/
def mbxExec (s : State) : Op → Option (Outcome × State)
  | .allocPrm prm =>
      if s.prms prm then none
      else some (.goesOn, { s with
        prms := Function.update s.prms prm true
        owned := Function.update s.owned prm true })
  | .sendMsg thread pMbxTo call =>
      match s.callers thread with
      | .outside =>
          if mayCall s call && assertsFrom call then
            some (.goesOn, beginCall s thread .sendMsg call [pMbxTo])
          else none
      | _ => none
  | .broadcastMsg thread pMbxToList call =>
      match s.callers thread with
      | .outside =>
          if mayCall s call && assertsFrom call && assertsBroadcast pMbxToList.length call then
            if pMbxToList = [] then some (.returned osaSok, s)
            else some (.goesOn, beginCall s thread .broadcastMsg call pMbxToList)
          else none
      | _ => none
  | .sendNext thread addr =>
      match s.callers thread with
      | .sending kind call (to_ :: todo) sent =>
          match msgqSendMsg s to_ call addr with
          | some sending =>
              let waits := todo ≠ [] ∨ waitsAck call.flags
              some (if waits then .goesOn else .returned osaSok,
                setCaller sending thread (nextCaller kind call todo (sent ++ [addr])))
          | none => none
      | _ => none
  | .recvAck thread =>
      match s.callers thread with
      | .collecting kind call acks ackRetVal =>
          match call.mbxFrom with
          | none => none
          | some mbx =>
              match Que.queGet osaTimeoutForever (s.ackMbx mbx) with
              | .leave ⟨_, some addr⟩ que _ =>
                  let s := { s with ackMbx := Function.update s.ackMbx mbx que }
                  some (match kind with
                    | .sendMsg => sendMsgAck s thread mbx acks addr
                    | .broadcastMsg => broadcastAck s thread mbx call acks ackRetVal addr)
              | _ => none
      | _ => none
  -- `OSA_mbxWaitMsg` and `OSA_mbxCheckMsg`
  | .recvMsg mbx timeout =>
      match Que.queGet timeout (s.rcvMbx mbx) with
      | .leave ⟨_, some addr⟩ que _ =>
          some (.got addr, { s with
            rcvMbx := Function.update s.rcvMbx mbx que
            held := Function.update s.held addr true })
      | .leave ⟨status, none⟩ _ _ => some (.returned status, s)
      | .wait _ => none
  | .ackOrFreeMsg addr ackRetVal =>
      if s.held addr then
        let dropped := { s with held := Function.update s.held addr false }
        match s.heap addr with
        | none => some (.fault, s)
        | some msg =>
            if waitsAck msg.flags then
              -- `OSA_msgqSendAck`
              match msg.pFrom with
              | none => some (.fault, s)
              | some mbx =>
                  match Que.quePut addr osaTimeoutForever (s.ackMbx mbx) with
                  | .leave _ que _ =>
                      some (.returned osaSok, { dropped with
                        heap := Function.update s.heap addr (some { msg with status := ackRetVal })
                        ackMbx := Function.update s.ackMbx mbx que })
                  | .wait _ => none
            else
              match mbxFreeMsg dropped addr with
              | some freed => some (.returned osaSok, freed)
              | none => some (.fault, s)
      else none
  -- the second loop of `OSA_mbxFlush`
  | .flushAck mbx =>
      if (s.user mbx).isSome then none
      else
        match Que.queGet osaTimeoutNone (s.ackMbx mbx) with
        | .leave ⟨_, some addr⟩ que _ =>
            match mbxFreeMsg { s with ackMbx := Function.update s.ackMbx mbx que } addr with
            | some freed => some (.goesOn, freed)
            | none => some (.fault, s)
        | .leave ⟨status, none⟩ _ _ => some (.returned status, s)
        | .wait _ => none

/-! ## The invariant -/

abbrev History := List (Op × Outcome)

/-- The status with which a message was acknowledged since it was sent. -/
def lastAck (addr : Addr) : History → Option Int
  | [] => none
  | (.sendNext _ other, _) :: before => if other = addr then none else lastAck addr before
  | (.ackOrFreeMsg other ackRetVal, _) :: before =>
      if other = addr then some ackRetVal else lastAck addr before
  | _ :: before => lastAck addr before

/-- Where a message is. -/
inductive Where where
  | free
  | rcv (mbx : MbxHndl)
  | held
  | ack (mbx : MbxHndl)

/-- Who will free a parameter block. -/
inductive Owner where
  | free
  | application
  | message (addr : Addr)
  | call (thread : Thread)

def Caller.call? : Caller → Option Call
  | .outside => none
  | .sending _ call _ _ => some call
  | .collecting _ call _ _ => some call

/-- The messages whose acknowledgement is still to come. -/
def unacked (acks : List (Addr × Bool)) : List Addr :=
  (acks.filter fun entry => !entry.2).map fun entry => entry.1

def Caller.outstanding : Caller → List Addr
  | .outside => []
  | .sending _ call _ sent => if waitsAck call.flags then sent else []
  | .collecting _ _ acks _ => unacked acks

/-- A message of the call, on its way. -/
def Sent (s : State) (call : Call) (addr : Addr) : Prop :=
  ∃ msg, s.heap addr = some msg ∧ msg.flags = call.flags ∧ msg.pPrm = call.pPrm ∧
    msg.pFrom = call.mbxFrom

structure MsgOk (place : Addr → Where) (owner : Prm → Owner) (history : History) (s : State)
    (addr : Addr) (msg : MsgHndl) : Prop where
  waits : waitsAck msg.flags = true → ∃ mbx thread, msg.pFrom = some mbx ∧
    s.user mbx = some thread ∧ addr ∈ (s.callers thread).outstanding
  owns : waitsAck msg.flags = false → ∀ prm, prmToFree msg.flags msg.pPrm = some prm →
    owner prm = .message addr
  acked : ∀ mbx, place addr = .ack mbx → waitsAck msg.flags = true ∧ msg.pFrom = some mbx ∧
    lastAck addr history = some msg.status

inductive CallerOk (owner : Prm → Owner) (s : State) (thread : Thread) : Caller → Prop where
  | outside : CallerOk owner s thread .outside
  | sending {kind : Kind} {call : Call} {todo : List MbxHndl} {sent : List Addr}
      (more : todo ≠ []) (budget : sent.length + todo.length < osaMbxBroadcastMax)
      (one : kind = .sendMsg → sent.length + todo.length = 1)
      (waits : waitsAck call.flags = true →
        ∃ mbx, call.mbxFrom = some mbx ∧ s.user mbx = some thread)
      (once : waitsAck call.flags = true → sent.Nodup) (live : waitsAck call.flags = true → ∀ addr ∈ sent, Sent s call addr)
      (single : waitsAck call.flags = false → freesPrm call.flags = true →
        sent.length + todo.length = 1)
      (owns : ∀ prm, prmToFree call.flags call.pPrm = some prm → owner prm = .call thread) :
      CallerOk owner s thread (.sending kind call todo sent)
  | collecting {kind : Kind} {call : Call} {acks : List (Addr × Bool)} {ackRetVal : Int}
      (budget : acks.length < osaMbxBroadcastMax)
      (one : kind = .sendMsg → ∃ addr, acks = [(addr, false)])
      (waits : waitsAck call.flags = true)
      (user : ∃ mbx, call.mbxFrom = some mbx ∧ s.user mbx = some thread)
      (once : (acks.map fun entry => entry.1).Nodup)
      (live : ∀ addr ∈ unacked acks, Sent s call addr)
      (owns : ∀ prm, prmToFree call.flags call.pPrm = some prm → owner prm = .call thread) :
      CallerOk owner s thread (.collecting kind call acks ackRetVal)

inductive OwnerOk (s : State) (prm : Prm) : Owner → Prop where
  | free : OwnerOk s prm .free
  | application : OwnerOk s prm .application
  | message {addr : Addr} {msg : MsgHndl} (live : s.heap addr = some msg)
      (waits : waitsAck msg.flags = false) (own : prmToFree msg.flags msg.pPrm = some prm) :
      OwnerOk s prm (.message addr)
  | call {thread : Thread} {call : Call} (inside : (s.callers thread).call? = some call)
      (own : prmToFree call.flags call.pPrm = some prm) : OwnerOk s prm (.call thread)

structure Sound (place : Addr → Where) (owner : Prm → Owner) (history : History) (s : State) :
    Prop where
  rcvs : Queues osaMsgqLenMax s.rcvMbx place .rcv
  acks : Queues osaMsgqLenMax s.ackMbx place .ack
  held : ∀ addr, s.held addr = true ↔ place addr = .held
  heap : ∀ addr, s.heap addr = none ↔ place addr = .free
  prms : ∀ prm, s.prms prm = true ↔ owner prm ≠ .free
  owned : ∀ prm, s.owned prm = true ↔ owner prm = .application
  msgs : ∀ addr msg, s.heap addr = some msg → MsgOk place owner history s addr msg
  callers : ∀ thread, CallerOk owner s thread (s.callers thread)
  owners : ∀ prm, OwnerOk s prm (owner prm)

/-! ## Frames -/

variable {place place' : Addr → Where} {owner owner' : Prm → Owner} {history history' : History}
  {s s' : State}

theorem MsgOk.frame {addr : Addr} {msg : MsgHndl} (ok : MsgOk place owner history s addr msg)
    (waits : ∀ mbx thread, msg.pFrom = some mbx → s.user mbx = some thread →
      addr ∈ (s.callers thread).outstanding →
        s'.user mbx = some thread ∧ addr ∈ (s'.callers thread).outstanding)
    (owns : ∀ prm, owner prm = .message addr → owner' prm = .message addr)
    (acked : ∀ mbx, place' addr = .ack mbx → place addr = .ack mbx)
    (last : lastAck addr history' = lastAck addr history) :
    MsgOk place' owner' history' s' addr msg := by
  constructor
  · intro waiting
    obtain ⟨mbx, thread, pFrom, user, inside⟩ := ok.waits waiting
    exact ⟨mbx, thread, pFrom, waits mbx thread pFrom user inside⟩
  · intro free prm own
    exact owns prm (ok.owns free prm own)
  · intro mbx there
    rw [last]
    exact ok.acked mbx (acked mbx there)

theorem CallerOk.frame {thread : Thread} {caller : Caller} (ok : CallerOk owner s thread caller)
    (user : ∀ mbx, s.user mbx = some thread → s'.user mbx = some thread)
    (live : ∀ call addr, caller.call? = some call → addr ∈ caller.outstanding →
      waitsAck call.flags = true → Sent s call addr → Sent s' call addr)
    (owns : ∀ prm, owner prm = .call thread → owner' prm = .call thread) :
    CallerOk owner' s' thread caller := by
  cases ok with
  | outside => exact .outside
  | sending more budget one waits once sent single own =>
      refine .sending more budget one ?_ once ?_ single fun prm mine => owns prm (own prm mine)
      · intro waiting
        obtain ⟨mbx, mbxFrom, mine⟩ := waits waiting
        exact ⟨mbx, mbxFrom, user mbx mine⟩
      · intro waiting addr inside
        apply live _ addr rfl _ waiting (sent waiting addr inside)
        simpa [Caller.outstanding, waiting] using inside
  | collecting budget one waits mine once sent own =>
      refine .collecting budget one waits ?_ once ?_ fun prm mine => owns prm (own prm mine)
      · obtain ⟨mbx, mbxFrom, mine⟩ := mine
        exact ⟨mbx, mbxFrom, user mbx mine⟩
      · intro addr inside
        exact live _ addr rfl inside waits (sent addr inside)

/-- A caller who waits for acknowledgements has a mailbox for himself. -/
theorem CallerOk.user {thread : Thread} {caller : Caller} (ok : CallerOk owner s thread caller)
    {call : Call} (inside : caller.call? = some call) (waiting : waitsAck call.flags = true) :
    ∃ mbx, call.mbxFrom = some mbx ∧ s.user mbx = some thread := by
  cases ok with
  | outside => cases inside
  | sending more budget one waits once sent single own =>
      cases inside
      exact waits waiting
  | collecting budget one waits mine once sent own =>
      cases inside
      exact mine

theorem OwnerOk.frame {prm : Prm} {owns : Owner} (ok : OwnerOk s prm owns)
    (heap : ∀ addr msg, owns = .message addr → s.heap addr = some msg →
      prmToFree msg.flags msg.pPrm = some prm → ∃ msg',
        s'.heap addr = some msg' ∧ msg'.flags = msg.flags ∧ msg'.pPrm = msg.pPrm)
    (callers : ∀ thread call, owns = .call thread → (s.callers thread).call? = some call →
      prmToFree call.flags call.pPrm = some prm → (s'.callers thread).call? = some call) :
    OwnerOk s' prm owns := by
  cases ok with
  | free => exact .free
  | application => exact .application
  | message live waits own =>
      obtain ⟨msg', live', flags, pPrm⟩ := heap _ _ rfl live own
      exact .message live' (by rw [flags]; exact waits) (by rw [flags, pPrm]; exact own)
  | call inside own => exact .call (callers _ _ rfl inside own) own

/-- What is not at the changed point stays. -/
theorem update_keeps {α β : Type} [DecidableEq α] {f : α → β} {point other : α} {next value : β}
    (same : f other = value) (apart : f point ≠ value) : Function.update f point next other = value := by
  rw [Function.update_of_ne ?_, same]
  intro equal
  rw [equal] at same
  exact apart same

/-- What is somewhere is allocated. -/
theorem Sound.live (sound : Sound place owner history s) (addr : Addr)
    (somewhere : place addr ≠ .free) : ∃ msg, s.heap addr = some msg := by
  rw [← Option.ne_none_iff_exists', ne_eq, sound.heap]
  exact somewhere

theorem Sound.remember (sound : Sound place owner history s)
    (last : ∀ addr, lastAck addr history' = lastAck addr history) :
    Sound place owner history' s := by
  refine ⟨sound.rcvs, sound.acks, sound.held, sound.heap, sound.prms, sound.owned, ?_,
    sound.callers, sound.owners⟩
  intro addr msg live
  exact (sound.msgs addr msg live).frame (fun _ _ _ user inside => ⟨user, inside⟩)
    (fun _ own => own) (fun _ there => there) (last addr)

/-! ## Parameter blocks -/

/-- A parameter block passes to another owner, if it is to be freed. -/
def pass (owner : Prm → Owner) (flags : UInt16) (pPrm : Option Prm) (next : Owner) : Prm → Owner :=
  match prmToFree flags pPrm with
  | some prm => Function.update owner prm next
  | none => owner

theorem pass_own {flags : UInt16} {pPrm : Option Prm} {prm : Prm} {next : Owner}
    (own : prmToFree flags pPrm = some prm) : pass owner flags pPrm next prm = next := by
  simp [pass, own]

theorem pass_none {flags : UInt16} {pPrm : Option Prm} {next : Owner}
    (own : prmToFree flags pPrm = none) : pass owner flags pPrm next = owner := by
  simp [pass, own]

theorem pass_keeps {flags : UInt16} {pPrm : Option Prm} {before next value : Owner} {prm : Prm}
    (owns : ∀ prm, prmToFree flags pPrm = some prm → owner prm = before)
    (same : owner prm = value) (apart : before ≠ value) :
    pass owner flags pPrm next prm = value := by
  cases own : prmToFree flags pPrm with
  | none =>
      rw [pass_none own]
      exact same
  | some mine =>
      simp only [pass, own]
      apply update_keeps same
      rw [owns mine own]
      exact apart

/-- Who a block belongs to after it was passed on. -/
theorem pass_cases (owner : Prm → Owner) (flags : UInt16) (pPrm : Option Prm) (next : Owner)
    (prm : Prm) :
    (prmToFree flags pPrm = some prm ∧ pass owner flags pPrm next prm = next) ∨
      (prmToFree flags pPrm ≠ some prm ∧ pass owner flags pPrm next prm = owner prm) := by
  by_cases own : prmToFree flags pPrm = some prm
  · exact .inl ⟨own, pass_own own⟩
  · right
    refine ⟨own, ?_⟩
    cases other : prmToFree flags pPrm with
    | none => rw [pass_none other]
    | some mine =>
        have differs : prm ≠ mine := by
          intro same
          rw [same] at own
          exact own other
        simp only [pass, other, Function.update_of_ne differs]

/-- The allocated blocks after a call of `freePrm`. -/
def released (prms : Prm → Bool) (flags : UInt16) (pPrm : Option Prm) : Prm → Bool :=
  match prmToFree flags pPrm with
  | some prm => Function.update prms prm false
  | none => prms

theorem freePrm_eq {flags : UInt16} {pPrm : Option Prm}
    (live : ∀ prm, prmToFree flags pPrm = some prm → s.prms prm = true) :
    freePrm s flags pPrm = some { s with prms := released s.prms flags pPrm } := by
  unfold freePrm released
  split
  · rename_i prm own
    rw [memFreePrm, if_pos (live prm own)]
  · rfl

theorem mbxFreeMsg_eq {addr : Addr} {msg : MsgHndl} (here : s.heap addr = some msg)
    (live : ∀ prm, prmToFree msg.flags msg.pPrm = some prm → s.prms prm = true) :
    mbxFreeMsg s addr = some { s with
      prms := released s.prms msg.flags msg.pPrm
      heap := Function.update s.heap addr none } := by
  simp [mbxFreeMsg, msgqFreeMsgHndl, here, freePrm_eq live]

theorem released_iff {flags : UInt16} {pPrm : Option Prm}
    (prms : ∀ prm, s.prms prm = true ↔ owner prm ≠ .free) (prm : Prm) :
    released s.prms flags pPrm prm = true ↔ pass owner flags pPrm .free prm ≠ .free := by
  cases own : prmToFree flags pPrm with
  | none =>
      simp only [released, pass, own]
      exact prms prm
  | some mine =>
      simp only [released, pass, own]
      by_cases same : prm = mine
      · simp [same]
      · simp [same, prms]

/-! ## What a step keeps -/

namespace Sound

theorem allocPrm (sound : Sound place owner history s) {prm : Prm} {outcome : Outcome}
    (fresh : s.prms prm = false) :
    Sound place (Function.update owner prm .application) ((.allocPrm prm, outcome) :: history)
      { s with
        prms := Function.update s.prms prm true
        owned := Function.update s.owned prm true } := by
  have free : owner prm = .free := by
    by_contra taken
    rw [(sound.prms prm).mpr taken] at fresh
    cases fresh
  refine ⟨sound.rcvs, sound.acks, sound.held, sound.heap, ?_, ?_, ?_, ?_, ?_⟩
  · intro other
    by_cases same : other = prm
    · simp [same]
    · simp [same, sound.prms]
  · intro other
    by_cases same : other = prm
    · simp [same]
    · simp [same, sound.owned]
  · intro addr msg live
    refine (sound.msgs addr msg live).frame (fun _ _ _ user inside => ⟨user, inside⟩) ?_
      (fun _ there => there) ?_
    · intro other own
      exact update_keeps own (by simp [free])
    · rfl
  · intro thread
    refine (sound.callers thread).frame (fun _ user => user) (fun _ _ _ _ _ sent => sent) ?_
    intro other own
    exact update_keeps own (by simp [free])
  · intro other
    by_cases same : other = prm
    · rw [same, Function.update_self]
      exact .application
    · rw [Function.update_of_ne same]
      exact (sound.owners other).frame (fun addr msg _ live _ => ⟨msg, live, rfl, rfl⟩)
        (fun _ _ _ inside _ => inside)

theorem beginCall (sound : Sound place owner history s) {thread : Thread} {kind : Kind}
    {call : Call} {todo : List MbxHndl} {event : Op × Outcome}
    (last : ∀ addr, lastAck addr (event :: history) = lastAck addr history)
    (outside : s.callers thread = .outside) (may : mayCall s call = true)
    (asserts : assertsFrom call = true) (more : todo ≠ [])
    (budget : todo.length < osaMbxBroadcastMax) (one : kind = .sendMsg → todo.length = 1)
    (single : waitsAck call.flags = false → freesPrm call.flags = true → todo.length = 1) :
    Sound place (pass owner call.flags call.pPrm (.call thread)) (event :: history)
      (beginCall s thread kind call todo) := by
  have own : ∀ prm, prmToFree call.flags call.pPrm = some prm → owner prm = .application := by
    intro prm own
    rw [← sound.owned]
    simp only [mayCall, own, Bool.and_eq_true] at may
    exact may.1
  have unused : ∀ mbx, call.mbxFrom = some mbx → waitsAck call.flags = true →
      s.user mbx = none := by
    intro mbx mbxFrom waits
    simp only [mayCall, mbxFrom, waits, Bool.and_eq_true] at may
    simpa using may.2
  have user : ∀ mbx other, s.user mbx = some other →
      (Mbx.beginCall s thread kind call todo).user mbx = some other := by
    intro mbx other user
    cases mbxFrom : call.mbxFrom with
    | none => simpa [Mbx.beginCall, mbxFrom] using user
    | some mine =>
        by_cases waits : waitsAck call.flags = true
        · simp only [Mbx.beginCall, mbxFrom, waits, if_true]
          apply update_keeps user
          simp [unused mine mbxFrom waits]
        · simpa [Mbx.beginCall, mbxFrom, waits] using user
  have callers : ∀ other, other ≠ thread →
      (Mbx.beginCall s thread kind call todo).callers other = s.callers other := by
    intro other differs
    exact Function.update_of_ne differs ..
  have entered : (Mbx.beginCall s thread kind call todo).callers thread =
      .sending kind call todo [] := Function.update_self ..
  refine ⟨sound.rcvs, sound.acks, sound.held, sound.heap, ?_, ?_, ?_, ?_, ?_⟩
  · intro prm
    change s.prms prm = true ↔ _
    rw [sound.prms]
    rcases pass_cases owner call.flags call.pPrm (.call thread) prm with ⟨mine, passed⟩ | ⟨_, passed⟩
    · simp [passed, own prm mine]
    · rw [passed]
  · intro prm
    rcases pass_cases owner call.flags call.pPrm (.call thread) prm with ⟨mine, passed⟩ | ⟨other, passed⟩
    · simp [passed, Mbx.beginCall, mine]
    · rw [passed, ← sound.owned]
      cases taken : prmToFree call.flags call.pPrm with
      | none => simp [Mbx.beginCall, taken, setCaller]
      | some mine =>
          have differs : prm ≠ mine := by
            intro same
            rw [same] at other
            exact other taken
          simp [Mbx.beginCall, taken, differs, setCaller]
  · intro addr msg live
    refine (sound.msgs addr msg live).frame ?_ (fun prm mine => pass_keeps own mine (by simp))
      (fun _ there => there) (last addr)
    intro mbx other _ uses inside
    have differs : other ≠ thread := by
      intro same
      rw [same, outside] at inside
      cases inside
    rw [callers other differs]
    exact ⟨user mbx other uses, inside⟩
  · intro other
    by_cases same : other = thread
    · rw [same, entered]
      refine .sending more (by simpa using budget) (by simpa using one) ?_ (fun _ => List.nodup_nil)
        (fun _ addr inside => by cases inside) (by simpa using single)
        (fun prm mine => pass_own mine)
      intro waits
      obtain ⟨mbx, mbxFrom⟩ : ∃ mbx, call.mbxFrom = some mbx := by
        simpa [assertsFrom, waits, Option.isSome_iff_exists] using asserts
      refine ⟨mbx, mbxFrom, ?_⟩
      simp [Mbx.beginCall, mbxFrom, waits]
    · rw [callers other same]
      exact (sound.callers other).frame (fun mbx => user mbx other) (fun _ _ _ _ _ sent => sent)
        (fun prm mine => pass_keeps own mine (by simp))
  · intro prm
    rcases pass_cases owner call.flags call.pPrm (.call thread) prm with ⟨mine, passed⟩ | ⟨_, passed⟩
    · rw [passed]
      exact .call (by rw [entered]; rfl) mine
    · rw [passed]
      refine (sound.owners prm).frame (fun addr msg _ live _ => ⟨msg, live, rfl, rfl⟩) ?_
      intro other call' _ inside _
      have differs : other ≠ thread := by
        intro same
        rw [same, outside] at inside
        cases inside
      rw [callers other differs]
      exact inside

theorem unacked_sent (sent : List Addr) : unacked (sent.map fun addr => (addr, false)) = sent := by
  induction sent with
  | nil => rfl
  | cons addr rest ih => simpa [unacked] using ih

/-- A parameter block goes with a message that nobody waits for. -/
def handedOn (owner : Prm → Owner) (call : Call) (addr : Addr) : Prm → Owner :=
  if waitsAck call.flags then owner else pass owner call.flags call.pPrm (.message addr)

theorem handedOn_keeps {call : Call} {addr : Addr} {before value : Owner} {prm : Prm}
    (owns : ∀ prm, prmToFree call.flags call.pPrm = some prm → owner prm = before)
    (same : owner prm = value) (apart : before ≠ value) : handedOn owner call addr prm = value := by
  unfold handedOn
  split
  · exact same
  · exact pass_keeps owns same apart

theorem handedOn_cases (owner : Prm → Owner) (call : Call) (addr : Addr) (prm : Prm) :
    (waitsAck call.flags = false ∧ prmToFree call.flags call.pPrm = some prm ∧
        handedOn owner call addr prm = .message addr) ∨
      ((waitsAck call.flags = true ∨ prmToFree call.flags call.pPrm ≠ some prm) ∧
        handedOn owner call addr prm = owner prm) := by
  unfold handedOn
  by_cases waits : waitsAck call.flags = true
  · rw [if_pos waits]
    exact .inr ⟨.inl waits, rfl⟩
  · rw [if_neg waits]
    rcases pass_cases owner call.flags call.pPrm (.message addr) prm with
      ⟨mine, passed⟩ | ⟨other, passed⟩
    · exact .inl ⟨by simpa using waits, mine, passed⟩
    · exact .inr ⟨.inr other, passed⟩

theorem outstanding_nextCaller {kind : Kind} {call : Call} {todo : List MbxHndl} {sent : List Addr}
    (waits : waitsAck call.flags = true) : (nextCaller kind call todo sent).outstanding = sent := by
  unfold nextCaller
  split
  · simp [Caller.outstanding, waits]
  · simp [Caller.outstanding, unacked_sent]

theorem call?_nextCaller {kind : Kind} {call : Call} {todo : List MbxHndl} {sent : List Addr}
    (waits : waitsAck call.flags = true) : (nextCaller kind call todo sent).call? = some call := by
  unfold nextCaller
  split
  · rfl
  · simp [Caller.call?]

/-- What `OSA_msgqSendMsg` does. -/
structure Posted (s : State) (to_ : MbxHndl) (call : Call) (addr : Addr) (next : State) : Prop where
  fresh : s.heap addr = none
  room : (s.rcvMbx to_).count < (s.rcvMbx to_).len
  next_eq : next = { s with
    heap := Function.update s.heap addr
      (some ⟨call.mbxFrom, call.pPrm, osaSok, call.cmd, call.flags⟩)
    rcvMbx := Function.update s.rcvMbx to_ ((s.rcvMbx to_).put addr) }

theorem posted_of_send {to_ : MbxHndl} {call : Call} {addr : Addr} {next : State}
    (sends : msgqSendMsg s to_ call addr = some next) : Posted s to_ call addr next := by
  unfold msgqSendMsg at sends
  split at sends
  · rename_i result que signals fresh leaves
    have leaves : Que.Leaves _ (.put addr osaTimeoutForever) _ _ _ := Que.leaves_of_body leaves
    cases leaves with
    | put room =>
        cases sends
        exact ⟨fresh, room, rfl⟩
  · cases sends

namespace Posted

variable {to_ : MbxHndl} {call : Call} {addr : Addr} {next : State}

theorem ne (posted : Posted s to_ call addr next) {other : Addr} {msg : MsgHndl}
    (live : s.heap other = some msg) : other ≠ addr := by
  intro same
  rw [same, posted.fresh] at live
  cases live

theorem heap_self (posted : Posted s to_ call addr next) :
    next.heap addr = some ⟨call.mbxFrom, call.pPrm, osaSok, call.cmd, call.flags⟩ := by
  rw [posted.next_eq]
  exact Function.update_self ..

theorem heap_of_ne (posted : Posted s to_ call addr next) {other : Addr} (differs : other ≠ addr) :
    next.heap other = s.heap other := by
  rw [posted.next_eq]
  exact Function.update_of_ne differs ..

theorem sent (posted : Posted s to_ call addr next) {call' : Call} {other : Addr}
    (before : Sent s call' other) : Sent next call' other := by
  obtain ⟨msg, live, fields⟩ := before
  refine ⟨msg, ?_, fields⟩
  rw [posted.heap_of_ne (posted.ne live)]
  exact live

end Posted

/-- The caller after one of its messages has gone. -/
theorem caller_sent {thread : Thread} {kind : Kind} {call : Call} {to_ : MbxHndl}
    {todo : List MbxHndl} {sent : List Addr} {addr : Addr} {next : State}
    (caller : CallerOk owner s thread (.sending kind call (to_ :: todo) sent))
    (posted : Posted s to_ call addr next) :
    CallerOk (handedOn owner call addr) next thread (nextCaller kind call todo (sent ++ [addr])) := by
  have user : next.user = s.user := by
    rw [posted.next_eq]
  cases caller with
  | sending more budget one waits once live single owns =>
      rw [← user] at waits
      simp only [List.length_cons] at budget one single
      have newLive : waitsAck call.flags = true → ∀ mine ∈ sent ++ [addr], Sent next call mine := by
        intro waiting mine member
        rcases List.mem_append.mp member with old | new
        · exact posted.sent (live waiting mine old)
        · rw [List.mem_singleton.mp new]
          exact ⟨_, posted.heap_self, rfl, rfl, rfl⟩
      have newOnce : waitsAck call.flags = true → (sent ++ [addr]).Nodup := by
        intro waiting
        rw [List.nodup_append]
        refine ⟨once waiting, List.nodup_singleton addr, ?_⟩
        rintro mine old _ (_ | ⟨_, ⟨⟩⟩) rfl
        obtain ⟨msg, here, _⟩ := live waiting mine old
        exact posted.ne here rfl
      have newLength : (sent ++ [addr]).length = sent.length + 1 := by simp
      unfold nextCaller
      split
      · rename_i unfinished
        have longer : 0 < todo.length := List.length_pos_iff.mpr unfinished
        refine .sending unfinished (by omega) (fun isSend => ?_) waits newOnce newLive
          (fun free frees => ?_) ?_
        · have := one isSend
          omega
        · have := single free frees
          omega
        · intro prm mine
          unfold handedOn
          split
          · exact owns prm mine
          · rename_i free
            -- a block to be freed by the receiver goes to one receiver only
            have frees : freesPrm call.flags = true := by
              by_contra keeps
              simp [prmToFree, keeps] at mine
            have := single (by simpa using free) frees
            omega
      · split
        · rename_i waiting
          refine .collecting ?_ ?_ waiting (waits waiting) ?_ ?_ ?_
          · rw [List.length_map]
            omega
          · intro isSend
            have first : sent = [] := by
              apply List.eq_nil_of_length_eq_zero
              have := one isSend
              omega
            exact ⟨addr, by simp [first]⟩
          · simpa [Function.comp_def] using newOnce waiting
          · rw [unacked_sent]
            exact newLive waiting
          · intro prm mine
            rw [handedOn, if_pos waiting]
            exact owns prm mine
        · exact .outside

theorem sendNext (sound : Sound place owner history s) {thread : Thread} {kind : Kind}
    {call : Call} {to_ : MbxHndl} {todo : List MbxHndl} {sent : List Addr} {addr : Addr}
    {outcome : Outcome} {next : State}
    (inside : s.callers thread = .sending kind call (to_ :: todo) sent)
    (posted : Posted s to_ call addr next) :
    Sound (Function.update place addr (.rcv to_)) (handedOn owner call addr)
      ((.sendNext thread addr, outcome) :: history)
      (setCaller next thread (nextCaller kind call todo (sent ++ [addr]))) := by
  have free : place addr = .free := (sound.heap addr).mp posted.fresh
  have caller := sound.callers thread
  rw [inside] at caller
  have after := caller_sent caller posted
  have eq := posted.next_eq
  cases caller with
  | sending more budget one waits once live single owns =>
  have others : ∀ other, other ≠ thread →
      (setCaller next thread (nextCaller kind call todo (sent ++ [addr]))).callers other =
        s.callers other := by
    intro other differs
    rw [eq]
    exact Function.update_of_ne differs ..
  have own : (setCaller next thread (nextCaller kind call todo (sent ++ [addr]))).callers thread =
      nextCaller kind call todo (sent ++ [addr]) := Function.update_self ..
  refine ⟨?_, ?_, ?_, ?_, ?_, ?_, ?_, ?_, ?_⟩
  · rw [eq]
    exact sound.rcvs.put posted.room (fun other same => by cases same; rfl) (by simp [free])
  · rw [eq]
    exact sound.acks.frame (by simp [free]) (by simp)
  · intro other
    rw [eq]
    by_cases same : other = addr
    · rw [same, Function.update_self]
      have notHeld := sound.held addr
      rw [free] at notHeld
      simpa [setCaller] using notHeld
    · rw [Function.update_of_ne same]
      exact sound.held other
  · intro other
    change next.heap other = none ↔ _
    by_cases same : other = addr
    · simp [same, posted.heap_self]
    · rw [posted.heap_of_ne same, Function.update_of_ne same]
      exact sound.heap other
  · intro prm
    have prms : next.prms = s.prms := by rw [eq]
    change next.prms prm = true ↔ _
    rw [prms, sound.prms]
    rcases handedOn_cases owner call addr prm with ⟨_, mine, passed⟩ | ⟨_, passed⟩
    · simp [passed, owns prm mine]
    · rw [passed]
  · intro prm
    have owned : next.owned = s.owned := by rw [eq]
    change next.owned prm = true ↔ _
    rw [owned, sound.owned]
    rcases handedOn_cases owner call addr prm with ⟨_, mine, passed⟩ | ⟨_, passed⟩
    · simp [passed, owns prm mine]
    · rw [passed]
  · intro other msg live
    have user : next.user = s.user := by rw [eq]
    change next.heap other = some msg at live
    by_cases same : other = addr
    · rw [same, posted.heap_self] at live
      cases live
      rw [same]
      constructor
      · intro waiting
        obtain ⟨mbx, mbxFrom, mine⟩ := waits waiting
        refine ⟨mbx, thread, mbxFrom, ?_, ?_⟩
        · change next.user mbx = some thread
          rw [user]
          exact mine
        · rw [own, outstanding_nextCaller waiting]
          simp
      · intro notWaits prm mine
        rw [handedOn, if_neg (by simpa using notWaits)]
        exact pass_own mine
      · intro mbx there
        simp at there
    · rw [posted.heap_of_ne same] at live
      refine (sound.msgs other msg live).frame ?_ (fun prm mine => handedOn_keeps owns mine (by simp))
        ?_ ?_
      · intro mbx thread' _ uses member
        refine ⟨?_, ?_⟩
        · change next.user mbx = some thread'
          rw [user]
          exact uses
        · by_cases mine : thread' = thread
          · rw [mine, inside] at member
            rw [mine, own]
            by_cases waits : waitsAck call.flags = true
            · rw [outstanding_nextCaller waits]
              simp only [Caller.outstanding, waits, if_true] at member
              exact List.mem_append_left _ member
            · simp [Caller.outstanding, waits] at member
          · rw [others thread' mine]
            exact member
      · intro mbx there
        rwa [Function.update_of_ne same] at there
      · simp [lastAck, Ne.symm same]
  · intro other
    by_cases same : other = thread
    · rw [same, own]
      exact after.frame (fun _ user => user) (fun _ _ _ _ _ sent => sent) (fun _ owns => owns)
    · rw [others other same]
      refine (sound.callers other).frame ?_ (fun call' mine _ _ _ before => posted.sent before) ?_
      · intro mbx user
        rw [eq]
        exact user
      · intro prm mine
        exact handedOn_keeps owns mine (by simpa using Ne.symm same)
  · intro prm
    rcases handedOn_cases owner call addr prm with ⟨notWaits, mine, passed⟩ | ⟨keeps, passed⟩
    · rw [passed]
      exact .message posted.heap_self notWaits mine
    · rw [passed]
      refine (sound.owners prm).frame ?_ ?_
      · intro other msg _ live _
        refine ⟨msg, ?_, rfl, rfl⟩
        change next.heap other = some msg
        rw [posted.heap_of_ne (posted.ne live)]
        exact live
      · intro other call' _ inside' mine
        by_cases same : other = thread
        · rw [same, inside] at inside'
          cases inside'
          rw [same, own]
          exact call?_nextCaller (keeps.resolve_right fun notMine => notMine mine)
        · rw [others other same]
          exact inside'

theorem recvMsg (sound : Sound place owner history s) {mbx : MbxHndl} {timeout : UInt32}
    {outcome : Outcome} (some_ : 0 < (s.rcvMbx mbx).count) :
    Sound (Function.update place (s.rcvMbx mbx).front .held) owner
      ((.recvMsg mbx timeout, outcome) :: history)
      { s with
        rcvMbx := Function.update s.rcvMbx mbx (s.rcvMbx mbx).drop
        held := Function.update s.held (s.rcvMbx mbx).front true } := by
  have there := sound.rcvs.front_place some_
  refine ⟨?_, ?_, ?_, ?_, sound.prms, sound.owned, ?_, ?_, ?_⟩
  · exact sound.rcvs.drop some_ (fun other same => by cases same; rfl) (by simp)
  · exact sound.acks.frame (by simp [there]) (by simp)
  · intro other
    by_cases same : other = (s.rcvMbx mbx).front
    · simp [same]
    · simp only [Function.update_of_ne same]
      exact sound.held other
  · intro other
    by_cases same : other = (s.rcvMbx mbx).front
    · rw [same, Function.update_self]
      change s.heap _ = none ↔ _
      rw [sound.heap, there]
      simp
    · rw [Function.update_of_ne same]
      exact sound.heap other
  · intro other msg live
    refine (sound.msgs other msg live).frame (fun _ _ _ user inside => ⟨user, inside⟩)
      (fun _ own => own) ?_ ?_
    · intro mbx' next
      by_cases same : other = (s.rcvMbx mbx).front
      · rw [same, Function.update_self] at next
        cases next
      · rwa [Function.update_of_ne same] at next
    · rfl
  · intro thread
    exact (sound.callers thread).frame (fun _ user => user) (fun _ _ _ _ _ sent => sent)
      (fun _ own => own)
  · intro prm
    exact (sound.owners prm).frame (fun _ msg _ live _ => ⟨msg, live, rfl, rfl⟩)
      (fun _ _ _ inside _ => inside)

theorem sendAck (sound : Sound place owner history s) {addr : Addr} {ackRetVal : Int}
    {msg : MsgHndl} {mbx : MbxHndl} {outcome : Outcome} (held : s.held addr = true)
    (here : s.heap addr = some msg) (waits : waitsAck msg.flags = true)
    (pFrom : msg.pFrom = some mbx) (room : (s.ackMbx mbx).count < (s.ackMbx mbx).len) :
    Sound (Function.update place addr (.ack mbx)) owner
      ((.ackOrFreeMsg addr ackRetVal, outcome) :: history)
      { s with
        held := Function.update s.held addr false
        heap := Function.update s.heap addr (some { msg with status := ackRetVal })
        ackMbx := Function.update s.ackMbx mbx ((s.ackMbx mbx).put addr) } := by
  have there : place addr = .held := (sound.held addr).mp held
  refine ⟨?_, ?_, ?_, ?_, sound.prms, sound.owned, ?_, ?_, ?_⟩
  · exact sound.rcvs.frame (by simp [there]) (by simp)
  · exact sound.acks.put room (fun other same => by cases same; rfl) (by simp [there])
  · intro other
    by_cases same : other = addr
    · simp [same]
    · simp only [Function.update_of_ne same]
      exact sound.held other
  · intro other
    by_cases same : other = addr
    · simp [same]
    · simp only [Function.update_of_ne same]
      exact sound.heap other
  · intro other msg' live
    by_cases same : other = addr
    · rw [same] at live ⊢
      simp only [Function.update_self, Option.some.injEq] at live
      subst live
      have ok := sound.msgs addr msg here
      constructor
      · exact ok.waits
      · exact ok.owns
      · intro mbx' next
        rw [Function.update_self] at next
        cases next
        exact ⟨waits, pFrom, by simp [lastAck]⟩
    · simp only [Function.update_of_ne same] at live
      refine (sound.msgs other msg' live).frame (fun _ _ _ user inside => ⟨user, inside⟩)
        (fun _ own => own) ?_ ?_
      · intro mbx' next
        rwa [Function.update_of_ne same] at next
      · simp [lastAck, Ne.symm same]
  · intro thread
    refine (sound.callers thread).frame (fun _ user => user) ?_ (fun _ own => own)
    rintro call other _ _ _ ⟨msg', live, fields⟩
    by_cases same : other = addr
    · rw [same] at live ⊢
      cases here.symm.trans live
      exact ⟨_, Function.update_self .., fields⟩
    · exact ⟨msg', by simpa [same] using live, fields⟩
  · intro prm
    refine (sound.owners prm).frame ?_ (fun _ _ _ inside _ => inside)
    intro other msg' _ live _
    by_cases same : other = addr
    · rw [same] at live ⊢
      cases here.symm.trans live
      exact ⟨_, Function.update_self .., rfl, rfl⟩
    · exact ⟨msg', by simpa [same] using live, rfl, rfl⟩

theorem freeMsg (sound : Sound place owner history s) {addr : Addr} {ackRetVal : Int}
    {msg : MsgHndl} {outcome : Outcome} (held : s.held addr = true)
    (here : s.heap addr = some msg) (free : waitsAck msg.flags = false) :
    Sound (Function.update place addr .free) (pass owner msg.flags msg.pPrm .free)
      ((.ackOrFreeMsg addr ackRetVal, outcome) :: history)
      { s with
        held := Function.update s.held addr false
        prms := released s.prms msg.flags msg.pPrm
        heap := Function.update s.heap addr none } := by
  have there : place addr = .held := (sound.held addr).mp held
  have owns := (sound.msgs addr msg here).owns free
  refine ⟨?_, ?_, ?_, ?_, released_iff sound.prms, ?_, ?_, ?_, ?_⟩
  · exact sound.rcvs.frame (by simp [there]) (by simp)
  · exact sound.acks.frame (by simp [there]) (by simp)
  · intro other
    by_cases same : other = addr
    · simp [same]
    · simp only [Function.update_of_ne same]
      exact sound.held other
  · intro other
    by_cases same : other = addr
    · simp [same]
    · simp only [Function.update_of_ne same]
      exact sound.heap other
  · intro prm
    change s.owned prm = true ↔ _
    rw [sound.owned]
    rcases pass_cases owner msg.flags msg.pPrm .free prm with ⟨mine, passed⟩ | ⟨_, passed⟩
    · simp [passed, owns prm mine]
    · rw [passed]
  · intro other msg' live
    by_cases same : other = addr
    · rw [same] at live
      simp at live
    · simp only [Function.update_of_ne same] at live
      refine (sound.msgs other msg' live).frame (fun _ _ _ user inside => ⟨user, inside⟩) ?_ ?_ ?_
      · intro prm mine
        exact pass_keeps owns mine (by simpa using Ne.symm same)
      · intro mbx next
        rwa [Function.update_of_ne same] at next
      · simp [lastAck, Ne.symm same]
  · intro thread
    refine (sound.callers thread).frame (fun _ user => user) ?_ ?_
    · rintro call other _ _ waits ⟨msg', live, flags, fields⟩
      have differs : other ≠ addr := by
        intro same
        rw [same, here] at live
        cases live
        rw [flags, waits] at free
        cases free
      exact ⟨msg', by simpa [differs] using live, flags, fields⟩
    · intro prm mine
      exact pass_keeps owns mine (by simp)
  · intro prm
    rcases pass_cases owner msg.flags msg.pPrm .free prm with ⟨_, passed⟩ | ⟨notMine, passed⟩
    · rw [passed]
      exact .free
    · rw [passed]
      refine (sound.owners prm).frame ?_ (fun _ _ _ inside _ => inside)
      intro other msg' _ live mine
      have differs : other ≠ addr := by
        intro same
        rw [same, here] at live
        cases live
        exact notMine mine
      exact ⟨msg', by simpa [differs] using live, rfl, rfl⟩

/-! ### Acknowledgements -/

theorem mem_unacked {acks : List (Addr × Bool)} {addr : Addr} :
    addr ∈ unacked acks ↔ (addr, false) ∈ acks := by
  simp [unacked]

theorem keys_mark (addr : Addr) (acks : List (Addr × Bool)) :
    (mark addr acks).map (fun entry => entry.1) = acks.map fun entry => entry.1 := by
  induction acks with
  | nil => rfl
  | cons entry rest ih =>
      unfold mark
      split
      · rfl
      · simp [ih]

/-- Marking takes the message off the list of those to come. -/
theorem unacked_mark {addr : Addr} {acks : List (Addr × Bool)}
    (once : (acks.map fun entry => entry.1).Nodup) (other : Addr) :
    other ∈ unacked (mark addr acks) ↔ other ∈ unacked acks ∧ other ≠ addr := by
  induction acks with
  | nil => simp [mark, unacked]
  | cons entry rest ih =>
      obtain ⟨sent, acked⟩ := entry
      simp only [List.map_cons, List.nodup_cons] at once
      have ih := ih once.2
      simp only [mem_unacked] at ih ⊢
      by_cases same : sent = addr
      · have absent : (addr, false) ∉ rest := by
          intro inside
          rw [same] at once
          exact once.1 (List.mem_map.mpr ⟨_, inside, rfl⟩)
        simp only [mark, same, if_true, List.mem_cons, Prod.mk.injEq, Bool.false_eq_true, and_false,
          false_or]
        constructor
        · intro inside
          refine ⟨.inr inside, ?_⟩
          intro equal
          rw [equal] at inside
          exact absent inside
        · rintro ⟨⟨equal, -⟩ | inside, differs⟩
          · exact absurd equal differs
          · exact inside
      · simp only [mark, same, if_false, List.mem_cons, ih]
        constructor
        · rintro (first | ⟨inside, differs⟩)
          · refine ⟨.inl first, ?_⟩
            rw [(Prod.mk.inj first).1]
            exact same
          · exact ⟨.inr inside, differs⟩
        · rintro ⟨first | inside, differs⟩
          · exact .inl first
          · exact .inr ⟨inside, differs⟩

theorem any_of_unacked {addr : Addr} {acks : List (Addr × Bool)} (inside : addr ∈ unacked acks) :
    acks.any (·.1 == addr) = true := by
  rw [List.any_eq_true]
  exact ⟨(addr, false), mem_unacked.mp inside, by simp⟩

/-- What a sender finds when it takes an acknowledgement: one of its own messages. -/
structure Acknowledged (history : History) (s : State) (thread : Thread) (call : Call)
    (acks : List (Addr × Bool)) (mbx : MbxHndl) (addr : Addr) (msg : MsgHndl) : Prop where
  here : s.heap addr = some msg
  flags : msg.flags = call.flags
  pPrm : msg.pPrm = call.pPrm
  unacked : addr ∈ unacked acks
  status : lastAck addr history = some msg.status
  user : s.user mbx = some thread

theorem acknowledged (sound : Sound place owner history s) {thread : Thread} {kind : Kind}
    {call : Call} {acks : List (Addr × Bool)} {ackRetVal : Int} {mbx : MbxHndl}
    (inside : s.callers thread = .collecting kind call acks ackRetVal)
    (mbxFrom : call.mbxFrom = some mbx) (some_ : 0 < (s.ackMbx mbx).count) :
    ∃ msg, Acknowledged history s thread call acks mbx (s.ackMbx mbx).front msg := by
  have there := sound.acks.front_place some_
  obtain ⟨msg, here⟩ := sound.live (s.ackMbx mbx).front (by simp [there])
  have ok := sound.msgs _ msg here
  obtain ⟨waits, pFrom, last⟩ := ok.acked mbx there
  obtain ⟨mbx', thread', pFrom', user, outstanding⟩ := ok.waits waits
  cases pFrom.symm.trans pFrom'
  have caller := sound.callers thread
  rw [inside] at caller
  cases caller with
  | collecting budget one waiting uses once live owns =>
      obtain ⟨own, ownFrom, ownUser⟩ := uses
      cases mbxFrom.symm.trans ownFrom
      cases user.symm.trans ownUser
      rw [inside] at outstanding
      obtain ⟨msg', here', flags, pPrm, -⟩ := live _ outstanding
      cases here.symm.trans here'
      exact ⟨msg, here, flags, pPrm, outstanding, last, user⟩

/-- The queues and the messages after a sender has taken an acknowledgement
and freed it. -/
theorem taken_heap (sound : Sound place owner history s) {mbx : MbxHndl}
    (some_ : 0 < (s.ackMbx mbx).count) :
    Queues osaMsgqLenMax s.rcvMbx (Function.update place (s.ackMbx mbx).front .free) .rcv ∧
      Queues osaMsgqLenMax (Function.update s.ackMbx mbx (s.ackMbx mbx).drop)
        (Function.update place (s.ackMbx mbx).front .free) .ack ∧
      (∀ addr, s.held addr = true ↔
        Function.update place (s.ackMbx mbx).front .free addr = .held) ∧
      ∀ addr, Function.update s.heap (s.ackMbx mbx).front none addr = none ↔
        Function.update place (s.ackMbx mbx).front .free addr = .free := by
  have there := sound.acks.front_place some_
  refine ⟨?_, ?_, ?_, ?_⟩
  · exact sound.rcvs.frame (by simp [there]) (by simp)
  · exact sound.acks.drop some_ (fun other same => by cases same; rfl) (by simp)
  · intro other
    by_cases same : other = (s.ackMbx mbx).front
    · rw [same, Function.update_self, sound.held, there]
      simp
    · rw [Function.update_of_ne same]
      exact sound.held other
  · intro other
    by_cases same : other = (s.ackMbx mbx).front
    · simp [same]
    · rw [Function.update_of_ne same, Function.update_of_ne same]
      exact sound.heap other

/-- The last acknowledgement of a call. -/
theorem returns (sound : Sound place owner history s) {thread : Thread} {kind : Kind}
    {call : Call} {acks : List (Addr × Bool)} {ackRetVal : Int} {mbx : MbxHndl} {msg : MsgHndl}
    {event : Op × Outcome} (last : ∀ addr, lastAck addr (event :: history) = lastAck addr history)
    (inside : s.callers thread = .collecting kind call acks ackRetVal)
    (some_ : 0 < (s.ackMbx mbx).count)
    (ack : Acknowledged history s thread call acks mbx (s.ackMbx mbx).front msg)
    (only : ∀ other ∈ unacked acks, other = (s.ackMbx mbx).front) :
    Sound (Function.update place (s.ackMbx mbx).front .free)
      (pass owner call.flags call.pPrm .free) (event :: history)
      (leaveCall { s with
        ackMbx := Function.update s.ackMbx mbx (s.ackMbx mbx).drop
        prms := released s.prms call.flags call.pPrm
        heap := Function.update s.heap (s.ackMbx mbx).front none } thread mbx) := by
  obtain ⟨rcvs, acks', held, heap⟩ := sound.taken_heap some_
  have caller := sound.callers thread
  rw [inside] at caller
  cases caller with
  | collecting budget one waits uses once live owns =>
  have gone : ∀ other, other ≠ thread → ∀ mine ∈ (s.callers other).outstanding,
      ∀ mbx', s.user mbx' = some other → Function.update s.user mbx none mbx' = some other := by
    intro other differs mine _ mbx' user
    apply update_keeps user
    rw [ack.user]
    simpa using Ne.symm differs
  refine ⟨rcvs, acks', held, heap, released_iff sound.prms, ?_, ?_, ?_, ?_⟩
  · intro prm
    change s.owned prm = true ↔ _
    rw [sound.owned]
    rcases pass_cases owner call.flags call.pPrm .free prm with ⟨mine, passed⟩ | ⟨_, passed⟩
    · simp [passed, owns prm mine]
    · rw [passed]
  · intro other msg' live'
    by_cases same : other = (s.ackMbx mbx).front
    · rw [same] at live'
      simp [leaveCall, setCaller] at live'
    · simp only [leaveCall, setCaller, Function.update_of_ne same] at live'
      refine (sound.msgs other msg' live').frame ?_ ?_ ?_ (last other)
      · intro mbx' thread' _ user member
        have differs : thread' ≠ thread := by
          intro equal
          rw [equal, inside] at member
          exact same (only other member)
        refine ⟨gone thread' differs other member mbx' user, ?_⟩
        simpa [leaveCall, setCaller, differs] using member
      · intro prm mine
        exact pass_keeps owns mine (by simp)
      · intro mbx' next
        rwa [Function.update_of_ne same] at next
  · intro other
    by_cases same : other = thread
    · rw [same]
      simp only [leaveCall, setCaller, Function.update_self]
      exact .outside
    · simp only [leaveCall, setCaller, Function.update_of_ne same]
      refine (sound.callers other).frame ?_ ?_ ?_
      · intro mbx' user
        apply update_keeps user
        rw [ack.user]
        simpa using Ne.symm same
      · rintro call' mine inside' _ waiting ⟨msg', live', flags, pPrm, pFrom⟩
        have differs : mine ≠ (s.ackMbx mbx).front := by
          -- the message is waited for at one mailbox, and there by one thread
          intro equal
          rw [equal] at live'
          have acked := (sound.msgs _ msg' live').acked mbx (sound.acks.front_place some_)
          obtain ⟨mbx', mbxFrom, user⟩ := (sound.callers other).user inside' waiting
          rw [acked.2.1, mbxFrom] at pFrom
          cases pFrom
          exact same (Option.some.inj (user.symm.trans ack.user))
        exact ⟨msg', by simpa [differs] using live', flags, pPrm, pFrom⟩
      · intro prm mine
        exact pass_keeps owns mine (by simpa using Ne.symm same)
  · intro prm
    rcases pass_cases owner call.flags call.pPrm .free prm with ⟨_, passed⟩ | ⟨notMine, passed⟩
    · rw [passed]
      exact .free
    · rw [passed]
      refine (sound.owners prm).frame ?_ ?_
      · intro other msg' owns' live' mine
        have differs : other ≠ (s.ackMbx mbx).front := by
          intro equal
          rw [equal, ack.here] at live'
          cases live'
          rw [ack.flags, ack.pPrm] at mine
          exact notMine mine
        exact ⟨msg', by simpa [leaveCall, setCaller, differs] using live', rfl, rfl⟩
      · intro other call' _ inside' mine
        have differs : other ≠ thread := by
          intro equal
          rw [equal, inside] at inside'
          cases inside'
          exact notMine mine
        simpa [leaveCall, setCaller, differs] using inside'

theorem length_mark (addr : Addr) (acks : List (Addr × Bool)) :
    (mark addr acks).length = acks.length := by
  have keys := congrArg List.length (keys_mark addr acks)
  simpa using keys

/-- An acknowledgement of a broadcast that is not the last. -/
theorem marks (sound : Sound place owner history s) {thread : Thread} {call : Call}
    {acks : List (Addr × Bool)} {ackRetVal next : Int} {mbx : MbxHndl} {msg : MsgHndl}
    {event : Op × Outcome} (last : ∀ addr, lastAck addr (event :: history) = lastAck addr history)
    (inside : s.callers thread = .collecting .broadcastMsg call acks ackRetVal)
    (some_ : 0 < (s.ackMbx mbx).count)
    (ack : Acknowledged history s thread call acks mbx (s.ackMbx mbx).front msg) :
    Sound (Function.update place (s.ackMbx mbx).front .free) owner (event :: history)
      (setCaller { s with
        ackMbx := Function.update s.ackMbx mbx (s.ackMbx mbx).drop
        heap := Function.update s.heap (s.ackMbx mbx).front none } thread
        (.collecting .broadcastMsg call (mark (s.ackMbx mbx).front acks) next)) := by
  obtain ⟨rcvs, acks', held, heap⟩ := sound.taken_heap some_
  have caller := sound.callers thread
  rw [inside] at caller
  cases caller with
  | collecting budget one waits uses once live owns =>
  refine ⟨rcvs, acks', held, heap, sound.prms, sound.owned, ?_, ?_, ?_⟩
  · intro other msg' live'
    by_cases same : other = (s.ackMbx mbx).front
    · rw [same] at live'
      simp [setCaller] at live'
    · simp only [setCaller, Function.update_of_ne same] at live'
      refine (sound.msgs other msg' live').frame ?_ (fun _ own => own) ?_ (last other)
      · intro mbx' thread' _ user member
        refine ⟨user, ?_⟩
        by_cases equal : thread' = thread
        · rw [equal, inside] at member
          rw [equal]
          simp only [setCaller, Function.update_self]
          exact (unacked_mark once other).mpr ⟨member, same⟩
        · simpa [setCaller, equal] using member
      · intro mbx' next
        rwa [Function.update_of_ne same] at next
  · intro other
    by_cases same : other = thread
    · rw [same]
      simp only [setCaller, Function.update_self]
      refine .collecting ?_ (fun isSend => by cases isSend) waits uses ?_ ?_ owns
      · rw [length_mark]
        exact budget
      · rw [keys_mark]
        exact once
      · intro mine member
        obtain ⟨member, differs⟩ := (unacked_mark once mine).mp member
        obtain ⟨msg', live', fields⟩ := live mine member
        exact ⟨msg', by simpa [differs] using live', fields⟩
    · simp only [setCaller, Function.update_of_ne same]
      refine (sound.callers other).frame (fun _ user => user) ?_ (fun _ own => own)
      rintro call' mine inside' _ waiting ⟨msg', live', flags, pPrm, pFrom⟩
      have differs : mine ≠ (s.ackMbx mbx).front := by
        -- the message is waited for at one mailbox, and there by one thread
        intro equal
        rw [equal] at live'
        have acked := (sound.msgs _ msg' live').acked mbx (sound.acks.front_place some_)
        obtain ⟨mbx', mbxFrom, user⟩ := (sound.callers other).user inside' waiting
        rw [acked.2.1, mbxFrom] at pFrom
        cases pFrom
        exact same (Option.some.inj (user.symm.trans ack.user))
      exact ⟨msg', by simpa [differs] using live', flags, pPrm, pFrom⟩
  · intro prm
    refine (sound.owners prm).frame ?_ ?_
    · intro other msg' owns' live' mine
      have differs : other ≠ (s.ackMbx mbx).front := by
        -- the block of an acknowledged message belongs to the call
        intro equal
        rw [equal, ack.here] at live'
        cases live'
        rw [ack.flags, ack.pPrm] at mine
        cases owns'.symm.trans (owns prm mine)
      exact ⟨msg', by simpa [setCaller, differs] using live', rfl, rfl⟩
    · intro other call' _ inside' _
      by_cases same : other = thread
      · rw [same, inside] at inside'
        rw [same]
        simpa [setCaller, Caller.call?] using inside'
      · simpa [setCaller, same] using inside'

/-- Nothing is in the acknowledgement queue of a mailbox that nobody waits at. -/
theorem quiet (sound : Sound place owner history s) {mbx : MbxHndl} (unused : s.user mbx = none) :
    ¬ 0 < (s.ackMbx mbx).count := by
  intro some_
  have there := sound.acks.front_place some_
  obtain ⟨msg, here⟩ := sound.live (s.ackMbx mbx).front (by simp [there])
  have ok := sound.msgs _ msg here
  obtain ⟨waits, pFrom, -⟩ := ok.acked mbx there
  obtain ⟨mbx', thread, pFrom', user, -⟩ := ok.waits waits
  cases pFrom.symm.trans pFrom'
  rw [unused] at user
  cases user

/-- The blocks that a message or a call frees are allocated. -/
theorem live_of_owner (sound : Sound place owner history s) {flags : UInt16} {pPrm : Option Prm}
    {who : Owner} (named : who ≠ .free)
    (owns : ∀ prm, prmToFree flags pPrm = some prm → owner prm = who) :
    ∀ prm, prmToFree flags pPrm = some prm → s.prms prm = true := by
  intro prm mine
  rw [sound.prms, owns prm mine]
  exact named

/-! ### Steps -/

/-- A step that keeps the invariant and is no fault. -/
def Safe (history : History) (op : Op) (outcome : Outcome) (next : State) : Prop :=
  outcome ≠ .fault ∧ ∃ place owner, Sound place owner ((op, outcome) :: history) next

theorem step_recvAck (sound : Sound place owner history s) {thread : Thread} {outcome : Outcome}
    {next : State} (taken : mbxExec s (.recvAck thread) = some (outcome, next)) :
    Safe history (.recvAck thread) outcome next := by
  simp only [mbxExec] at taken
  split at taken
  · rename_i kind call acks ackRetVal inside
    split at taken
    · cases taken
    · rename_i mbx mbxFrom
      split at taken
      · rename_i status addr que signals leaves
        have leaves : Que.Leaves _ (.get osaTimeoutForever) _ _ _ := Que.leaves_of_body leaves
        cases leaves with
        | get some_ =>
        obtain ⟨msg, ack⟩ := sound.acknowledged inside mbxFrom some_
        have caller := sound.callers thread
        rw [inside] at caller
        cases caller with
        | collecting budget one waits uses once live owns =>
        have known := any_of_unacked ack.unacked
        have blocks := sound.live_of_owner (by simp) owns
        cases kind with
        | sendMsg =>
            obtain ⟨sent, single⟩ := one rfl
            have blocks' := blocks
            rw [← ack.flags, ← ack.pPrm] at blocks'
            have freed := mbxFreeMsg_eq (s := { s with
              ackMbx := Function.update s.ackMbx mbx (s.ackMbx mbx).drop }) ack.here blocks'
            simp only [sendMsgAck, ack.here, freed, known, if_true, Option.some.injEq] at taken
            cases taken
            have only : ∀ other ∈ unacked acks, other = (s.ackMbx mbx).front := by
              intro other member
              have own := ack.unacked
              rw [single] at member own
              simp only [mem_unacked, List.mem_singleton, Prod.mk.injEq, and_true] at member own
              rw [member, own]
            have after : Sound _ _ ((.recvAck thread, .returned msg.status) :: history) _ :=
              sound.returns (fun _ => rfl) inside some_ ack only
            rw [← ack.flags, ← ack.pPrm] at after
            exact ⟨by simp, _, _, after⟩
        | broadcastMsg =>
            simp only [broadcastAck, known, if_true, msgqFreeMsgHndl, ack.here] at taken
            split at taken
            · rename_i all
              have freed := freePrm_eq (s := { s with
                ackMbx := Function.update s.ackMbx mbx (s.ackMbx mbx).drop
                heap := Function.update s.heap (s.ackMbx mbx).front none }) blocks
              simp only [freed] at taken
              cases taken
              refine ⟨by simp, _, _, sound.returns (fun _ => rfl) inside some_ ack ?_⟩
              intro other member
              by_contra differs
              have left := (unacked_mark once other).mpr ⟨member, differs⟩
              have done := List.all_eq_true.mp all _ (mem_unacked.mp left)
              cases done
            · cases taken
              exact ⟨by simp, _, _, sound.marks (fun _ => rfl) inside some_ ack⟩
      · cases taken
  · cases taken

theorem step_ackOrFreeMsg (sound : Sound place owner history s) {addr : Addr} {ackRetVal : Int}
    {outcome : Outcome} {next : State}
    (taken : mbxExec s (.ackOrFreeMsg addr ackRetVal) = some (outcome, next)) :
    Safe history (.ackOrFreeMsg addr ackRetVal) outcome next := by
  simp only [mbxExec] at taken
  split at taken
  · rename_i held
    have there := (sound.held addr).mp held
    split at taken
    · rename_i gone
      rw [sound.heap, there] at gone
      cases gone
    · rename_i msg here
      have ok := sound.msgs addr msg here
      split at taken
      · rename_i waits
        obtain ⟨mbx, thread, pFrom, user, -⟩ := ok.waits waits
        split at taken
        · rename_i nobody
          cases pFrom.symm.trans nobody
        · rename_i mbx pFrom
          split at taken
          · rename_i result que signals leaves
            have leaves : Que.Leaves _ (.put addr osaTimeoutForever) _ _ _ := Que.leaves_of_body leaves
            cases leaves with
            | put room =>
                cases taken
                exact ⟨by simp, _, _, sound.sendAck held here waits pFrom room⟩
          · cases taken
      · rename_i free
        have free : waitsAck msg.flags = false := by simpa using free
        have blocks := sound.live_of_owner (by simp) (ok.owns free)
        have freed := mbxFreeMsg_eq (s := { s with held := Function.update s.held addr false })
          here blocks
        simp only [freed] at taken
        cases taken
        exact ⟨by simp, _, _, sound.freeMsg held here free⟩
  · cases taken

theorem step_flushAck (sound : Sound place owner history s) {mbx : MbxHndl} {outcome : Outcome}
    {next : State} (taken : mbxExec s (.flushAck mbx) = some (outcome, next)) :
    Safe history (.flushAck mbx) outcome next := by
  simp only [mbxExec] at taken
  split at taken
  · cases taken
  · rename_i unused
    have nobody := sound.quiet (by simpa using unused)
    split at taken
    · rename_i status addr que signals leaves
      have leaves : Que.Leaves _ (.get osaTimeoutNone) _ _ _ := Que.leaves_of_body leaves
      cases leaves with
      | get some_ => exact absurd some_ nobody
    · cases taken
      exact ⟨by simp, _, _, sound.remember fun _ => rfl⟩
    · cases taken

theorem step_recvMsg (sound : Sound place owner history s) {mbx : MbxHndl} {timeout : UInt32}
    {outcome : Outcome} {next : State}
    (taken : mbxExec s (.recvMsg mbx timeout) = some (outcome, next)) :
    Safe history (.recvMsg mbx timeout) outcome next := by
  simp only [mbxExec] at taken
  split at taken
  · rename_i status addr que signals leaves
    have leaves : Que.Leaves _ (.get timeout) _ _ _ := Que.leaves_of_body leaves
    cases leaves with
    | get some_ =>
        cases taken
        exact ⟨by simp, _, _, sound.recvMsg some_⟩
  · cases taken
    exact ⟨by simp, _, _, sound.remember fun _ => rfl⟩
  · cases taken

theorem step_sendNext (sound : Sound place owner history s) {thread : Thread} {addr : Addr}
    {outcome : Outcome} {next : State}
    (taken : mbxExec s (.sendNext thread addr) = some (outcome, next)) :
    Safe history (.sendNext thread addr) outcome next := by
  simp only [mbxExec] at taken
  split at taken
  · rename_i kind call to_ todo sent inside
    split at taken
    · rename_i sending sends
      cases taken
      refine ⟨?_, _, _, sound.sendNext inside (posted_of_send sends)⟩
      split <;> simp
    · cases taken
  · cases taken

theorem step_begin (sound : Sound place owner history s) {op : Op} {outcome : Outcome} {next : State}
    (which : (∃ thread pMbxTo call, op = .sendMsg thread pMbxTo call) ∨
      ∃ thread pMbxToList call, op = .broadcastMsg thread pMbxToList call)
    (taken : mbxExec s op = some (outcome, next)) : Safe history op outcome next := by
  rcases which with ⟨thread, pMbxTo, call, rfl⟩ | ⟨thread, pMbxToList, call, rfl⟩
  · simp only [mbxExec] at taken
    split at taken
    · rename_i outside
      split at taken
      · rename_i may
        simp only [Bool.and_eq_true] at may
        cases taken
        have one : [pMbxTo].length < osaMbxBroadcastMax := (by decide : 1 < osaMbxBroadcastMax)
        exact ⟨by simp, _, _, sound.beginCall (fun _ => rfl) outside may.1 may.2 (by simp) one
          (fun _ => rfl) (fun _ _ => rfl)⟩
      · cases taken
    · cases taken
  · simp only [mbxExec] at taken
    split at taken
    · rename_i outside
      split at taken
      · rename_i may
        simp only [assertsBroadcast, Bool.and_eq_true, Bool.or_eq_true, Bool.not_eq_true',
          decide_eq_true_eq] at may
        obtain ⟨⟨may, asserts⟩, short, single⟩ := may
        split at taken
        · cases taken
          exact ⟨by simp, _, _, sound.remember fun _ => rfl⟩
        · rename_i more
          have longer : 0 < pMbxToList.length := List.length_pos_iff.mpr more
          cases taken
          refine ⟨by simp, _, _, sound.beginCall (fun _ => rfl) outside may asserts more short
            (fun isSend => by cases isSend) ?_⟩
          intro free frees
          rcases single with (keeps | waits) | one
          · rw [frees] at keeps
            cases keeps
          · rw [free] at waits
            cases waits
          · omega
      · cases taken
    · cases taken

theorem step (sound : Sound place owner history s) {op : Op} {outcome : Outcome} {next : State}
    (taken : mbxExec s op = some (outcome, next)) : Safe history op outcome next := by
  cases op with
  | allocPrm prm =>
      simp only [mbxExec] at taken
      split at taken
      · cases taken
      · rename_i fresh
        cases taken
        exact ⟨by simp, _, _, sound.allocPrm (by simpa using fresh)⟩
  | sendMsg thread pMbxTo call => exact sound.step_begin (.inl ⟨thread, pMbxTo, call, rfl⟩) taken
  | broadcastMsg thread pMbxToList call =>
      exact sound.step_begin (.inr ⟨thread, pMbxToList, call, rfl⟩) taken
  | sendNext thread addr => exact sound.step_sendNext taken
  | recvAck thread => exact sound.step_recvAck taken
  | recvMsg mbx timeout => exact sound.step_recvMsg taken
  | ackOrFreeMsg addr ackRetVal => exact sound.step_ackOrFreeMsg taken
  | flushAck mbx => exact sound.step_flushAck taken

end Sound

/-! ## Runs -/

/-- All mailboxes have been created and nothing sent. -/
def created (garbage : Nat → Addr) : State where
  rcvMbx := fun _ => Que.queCreate osaMsgqLenMax garbage
  ackMbx := fun _ => Que.queCreate osaMsgqLenMax garbage
  heap := fun _ => none
  prms := fun _ => false
  callers := fun _ => .outside
  held := fun _ => false
  owned := fun _ => false
  user := fun _ => none

theorem sound_created (garbage : Nat → Addr) :
    Sound (fun _ => .free) (fun _ => .free) [] (created garbage) := by
  have queues : ∀ of : MbxHndl → Where, (∀ mbx, of mbx ≠ .free) →
      Queues osaMsgqLenMax (fun _ : MbxHndl => Que.queCreate osaMsgqLenMax garbage)
        (fun _ : Addr => Where.free) of := by
    intro of named
    refine ⟨fun _ => RingBuffer.wellFormed_create osaMsgqLenMax garbage, fun _ => rfl, ?_⟩
    intro mbx
    refine ⟨List.nodup_nil, ?_⟩
    intro addr
    constructor
    · intro inside
      cases inside
    · intro here
      exact absurd here.symm (named mbx)
  refine ⟨queues _ (by simp), queues _ (by simp), ?_, ?_, ?_, ?_, ?_, fun _ => .outside, fun _ => .free⟩
  · simp [created]
  · simp [created]
  · simp [created]
  · simp [created]
  · intro addr msg live
    cases live

theorem sound_of_run {garbage : Nat → Addr} {history : History} {s : State}
    (run : Run (ExecStep mbxExec) (created garbage) history s) :
    (∀ event ∈ history, event.2 ≠ .fault) ∧ ∃ place owner, Sound place owner history s := by
  apply run.invariant (fun history s =>
    (∀ event ∈ history, event.2 ≠ .fault) ∧ ∃ place owner, Sound place owner history s)
  · refine ⟨?_, _, _, sound_created garbage⟩
    intro event member
    cases member
  · rintro history state ⟨op, outcome⟩ next - ⟨before, place, owner, sound⟩ taken
    obtain ⟨noFault, after⟩ := sound.step taken
    refine ⟨?_, after⟩
    intro event member
    rcases List.mem_cons.mp member with rfl | earlier
    · exact noFault
    · exact before event earlier

/-- Over every interleaving of senders and handlers, where no two threads wait
at one mailbox, nobody uses or frees a message and nobody frees a parameter
block that is not allocated; and when no call is going on, no message queued and none with a
handler, then no message is left and every block belongs to the application. -/
theorem messages_are_freed_once {garbage : Nat → Addr} {history : History} {s : State}
    (run : Run (ExecStep mbxExec) (created garbage) history s) :
    (∀ event ∈ history, event.2 ≠ .fault) ∧
      ((∀ thread, s.callers thread = .outside) → (∀ mbx, (s.rcvMbx mbx).count = 0) →
        (∀ addr, s.held addr = false) →
          (∀ addr, s.heap addr = none) ∧ ∀ prm, s.prms prm = s.owned prm) := by
  obtain ⟨noFault, place, owner, sound⟩ := sound_of_run run
  refine ⟨noFault, ?_⟩
  intro outside empty unheld
  have gone : ∀ addr, s.heap addr = none := by
    intro addr
    rw [sound.heap]
    cases there : place addr with
    | free => rfl
    | rcv mbx =>
        have inside := ((sound.rcvs.tracks mbx).mem_iff addr).mpr there
        rw [RingBuffer.contents_eq_nil.mpr (empty mbx)] at inside
        cases inside
    | held =>
        have held := (sound.held addr).mpr there
        rw [unheld addr] at held
        cases held
    | ack mbx =>
        -- somebody would wait for it
        obtain ⟨msg, live⟩ := sound.live addr (by simp [there])
        have ok := sound.msgs addr msg live
        obtain ⟨-, thread, -, -, inside⟩ := ok.waits (ok.acked mbx there).1
        rw [outside thread] at inside
        cases inside
  refine ⟨gone, ?_⟩
  intro prm
  have ok := sound.owners prm
  rw [Bool.eq_iff_iff, sound.prms, sound.owned]
  generalize owner prm = who at ok
  cases ok with
  | free => simp
  | application => simp
  | message live waits own =>
      rw [gone] at live
      cases live
  | call inside own =>
      rw [outside] at inside
      cases inside

theorem outstanding_lt {owner : Prm → Owner} {s : State} {thread : Thread} {caller : Caller}
    (ok : CallerOk owner s thread caller) : caller.outstanding.length < osaMbxBroadcastMax := by
  cases ok with
  | outside => decide
  | sending more budget one waits once live single owns =>
      simp only [Caller.outstanding]
      split
      · omega
      · decide
  | @collecting kind call acks ackRetVal budget one waits user once live owns =>
      simp only [Caller.outstanding, unacked, List.length_map]
      exact (List.length_filter_le _ acks).trans_lt budget

/-- The application allocates a block, and a thread sends it and waits for the
acknowledgement. -/
def sendAndWait : List Op :=
  [.allocPrm 5, .sendMsg 0 1 ⟨some 0, 7, some 5, osaMbxWaitAck ||| osaMbxFreePrm⟩, .sendNext 0 100,
    .recvMsg 1 osaTimeoutForever]

theorem messages_are_freed_once_sendAndWait : ∃ history s,
    execAll mbxExec (sendAndWait ++ [.ackOrFreeMsg 100 3, .recvAck 0]) ([], created fun _ => 0) =
        some (history, s) ∧
      ∀ event ∈ history, event.2 ≠ .fault := by
  obtain ⟨result, executed⟩ : ∃ result,
      execAll mbxExec (sendAndWait ++ [.ackOrFreeMsg 100 3, .recvAck 0]) ([], created fun _ => 0) =
        some result := ⟨_, rfl⟩
  exact ⟨result.1, result.2, executed, (messages_are_freed_once (execAll_run .nil executed)).1⟩

/-- An acknowledgement never waits for room: a mailbox has at most nine of them
to come. -/
theorem acks_never_wait {garbage : Nat → Addr} {history : History} {s : State}
    (run : Run (ExecStep mbxExec) (created garbage) history s) {addr : Addr}
    (held : s.held addr = true) (ackRetVal : Int) :
    (mbxExec s (.ackOrFreeMsg addr ackRetVal)).isSome := by
  obtain ⟨-, place, owner, sound⟩ := sound_of_run run
  have there := (sound.held addr).mp held
  obtain ⟨msg, here⟩ := sound.live addr (by simp [there])
  have ok := sound.msgs addr msg here
  by_cases waits : waitsAck msg.flags = true
  · obtain ⟨mbx, thread, pFrom, user, -⟩ := ok.waits waits
    -- what is queued at the mailbox is waited for by the same call
    have inside : ∀ other, place other = .ack mbx →
        other ∈ (s.callers thread).outstanding.toFinset := by
      intro other queued
      obtain ⟨msg', here'⟩ := sound.live other (by simp [queued])
      have ok' := sound.msgs other msg' here'
      obtain ⟨waits', pFrom', -⟩ := ok'.acked mbx queued
      obtain ⟨mbx', thread', pFrom'', user', member⟩ := ok'.waits waits'
      cases pFrom'.symm.trans pFrom''
      cases user.symm.trans user'
      exact List.mem_toFinset.mpr member
    have short := (sound.acks.tracks mbx).length_le _ inside
    have few := outstanding_lt (sound.callers thread)
    have card := List.toFinset_card_le (s.callers thread).outstanding
    have room : (s.ackMbx mbx).count < (s.ackMbx mbx).len := by
      rw [sound.acks.len_eq, ← RingBuffer.length_contents]
      have smaller : osaMbxBroadcastMax ≤ osaMsgqLenMax := by decide
      omega
    simp [mbxExec, held, here, waits, pFrom, Que.quePut, room]
  · have free : waitsAck msg.flags = false := by simpa using waits
    have blocks := sound.live_of_owner (by simp) (ok.owns free)
    have freed := mbxFreeMsg_eq (s := { s with held := Function.update s.held addr false })
      here blocks
    simp [mbxExec, held, here, free, freed]

theorem acks_never_wait_sendAndWait : ∃ history s,
    execAll mbxExec sendAndWait ([], created fun _ => 0) = some (history, s) ∧
      (mbxExec s (.ackOrFreeMsg 100 3)).isSome := by
  have got : (execAll mbxExec sendAndWait ([], created fun _ => 0)).map (·.2.held 100) =
      some true := rfl
  obtain ⟨result, executed, held⟩ := Option.map_eq_some_iff.mp got
  exact ⟨result.1, result.2, executed, acks_never_wait (execAll_run .nil executed) held 3⟩

/-- What `OSA_mbxSendMsg` returns after waiting is the status with which its
message was acknowledged since it was sent. -/
theorem send_returns_ack {garbage : Nat → Addr} {history : History} {s : State}
    (run : Run (ExecStep mbxExec) (created garbage) history s) {thread : Thread} {call : Call}
    {acks : List (Addr × Bool)} {ackRetVal status : Int} {next : State}
    (waiting : s.callers thread = .collecting .sendMsg call acks ackRetVal)
    (returned : mbxExec s (.recvAck thread) = some (.returned status, next)) :
    ∃ addr, acks = [(addr, false)] ∧ lastAck addr history = some status := by
  obtain ⟨-, place, owner, sound⟩ := sound_of_run run
  have caller := sound.callers thread
  rw [waiting] at caller
  cases caller with
  | collecting budget one waits uses once live owns =>
  obtain ⟨addr, single⟩ := one rfl
  refine ⟨addr, single, ?_⟩
  simp only [mbxExec, waiting] at returned
  split at returned
  · cases returned
  · rename_i mbx mbxFrom
    split at returned
    · rename_i code front que signals leaves
      have leaves : Que.Leaves _ (.get osaTimeoutForever) _ _ _ := Que.leaves_of_body leaves
      cases leaves with
      | get some_ =>
      obtain ⟨msg, ack⟩ := sound.acknowledged waiting mbxFrom some_
      have blocks := sound.live_of_owner (by simp) owns
      rw [← ack.flags, ← ack.pPrm] at blocks
      have freed := mbxFreeMsg_eq (s := { s with
        ackMbx := Function.update s.ackMbx mbx (s.ackMbx mbx).drop }) ack.here blocks
      have own := ack.unacked
      rw [single] at own
      simp only [Sound.mem_unacked, List.mem_singleton, Prod.mk.injEq, and_true] at own
      simp only [sendMsgAck, ack.here, freed, Sound.any_of_unacked ack.unacked, if_true,
        Option.some.injEq, Prod.mk.injEq, Outcome.returned.injEq] at returned
      rw [← returned.1, ← own]
      exact ack.status
    · cases returned

theorem send_returns_ack_sendAndWait : ∃ history s,
    execAll mbxExec (sendAndWait ++ [.ackOrFreeMsg 100 3]) ([], created fun _ => 0) =
        some (history, s) ∧
      ∃ addr, [(100, false)] = [(addr, false)] ∧ lastAck addr history = some 3 := by
  obtain ⟨result, executed⟩ : ∃ result,
      execAll mbxExec (sendAndWait ++ [.ackOrFreeMsg 100 3]) ([], created fun _ => 0) =
        some result := ⟨_, rfl⟩
  have waiting : result.2.callers 0 = .collecting .sendMsg
      ⟨some 0, 7, some 5, osaMbxWaitAck ||| osaMbxFreePrm⟩ [(100, false)] osaSok := by
    cases executed
    rfl
  have returns : (mbxExec result.2 (.recvAck 0)).map (·.1) = some (.returned 3) := by
    cases executed
    rfl
  obtain ⟨⟨outcome, next⟩, taken, code⟩ := Option.map_eq_some_iff.mp returns
  cases code
  exact ⟨result.1, result.2, executed, send_returns_ack (execAll_run .nil executed) waiting taken⟩

end DvsServer.Osa.Mbx
