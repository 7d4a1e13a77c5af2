import DvsServer.Uart.Service
import Mathlib.Data.List.Basic
import Mathlib.Data.List.Induction

/-!
# The grammar of the UART commands

The stream of a client is a sequence of messages.  The thread takes a `recv` that gives
less than a header or a body for the end of the connection, and what the serial port
sees agrees with the grammar only if this comes too late to matter.
-/

namespace DvsServer.Uart.Segmentation

open DvsServer.Uart.Command DvsServer.Uart.Operate DvsServer.Uart.Service

/-! ## The grammar -/

/-- The size of what follows a header. -/
def bodyLen (command : UInt8) : Nat :=
  if command = dvsTcpCmdUart then serialPackLen
  else if command = dvsTcpCmdPtz then ptzCmdPackLen
  else 0

structure Message where
  command : UInt8
  body : List UInt8
  length_eq : body.length = bodyLen command

namespace Message

def size (message : Message) : Nat := tcpCmdHeaderLen + message.body.length

/-- The sizes of the header and of the body. -/
def pieces (message : Message) : List Nat :=
  tcpCmdHeaderLen :: if message.body.length = 0 then [] else [message.body.length]

/-- Undefined for a camera command with a length that its array cannot have. -/
def execute (port : Port) (message : Message) (calls : PortCalls) : Option (Int × PortCalls) :=
  if message.command = dvsTcpCmdUart then some (setSerialPort port (.ofBytes message.body) calls)
  else if message.command = dvsTcpCmdPtz then execPtz port (.ofBytes message.body) calls
  else some (0, calls)

/-- The length of a camera command is one its array can have. -/
def Printable (message : Message) : Prop :=
  message.command = dvsTcpCmdPtz → (PtzCmdPack.ofBytes message.body).len.toInt ≤ ptzCmdMaxLen

end Message

/-- The message a stream begins with. -/
def nextMessage (stream : List UInt8) : Option Message :=
  if tcpCmdHeaderLen ≤ stream.length ∧
      stream.take tcpCmdPosition = tcpCmdHeaderStr.take tcpCmdPosition then
    if whole : ((stream.drop tcpCmdHeaderLen).take (bodyLen (byte stream tcpCmdPosition))).length =
        bodyLen (byte stream tcpCmdPosition) then
      some ⟨_, _, whole⟩
    else none
  else none

def messagesUpTo : Nat → List UInt8 → List Message
  | 0, _ => []
  | fuel + 1, stream =>
      (nextMessage stream).elim [] fun message =>
        message :: messagesUpTo fuel (stream.drop message.size)

/-- The messages up to the first wrong magic or the end of the stream. -/
def messages (stream : List UInt8) : List Message := messagesUpTo stream.length stream

/-- The messages are executed up to the first that fails. -/
def perform (port : Port) : List Message → PortCalls → Option PortCalls
  | [], calls => calls
  | message :: rest, calls =>
      (message.execute port calls).bind fun (ret, calls) =>
        if ret < 0 then some calls else perform port rest calls

/-- Every message that is executed is printable. -/
def AllPrintable (port : Port) : List Message → PortCalls → Prop
  | [], _ => True
  | message :: rest, calls =>
      message.Printable ∧ (message.execute port calls).elim True fun (ret, calls) =>
        if ret < 0 then True else AllPrintable port rest calls

/-- Settings and writes. -/
def performs : PortCall → Bool
  | .tcsetattr _ => true
  | .write _ _ => true
  | _ => false

def performed (calls : PortCalls) : PortCalls := calls.filter performs

/-- The sizes of the headers and bodies up to the last message that makes a setting
or a write. -/
def needed (port : Port) : List Message → PortCalls → List Nat
  | [], _ => []
  | message :: rest, calls =>
      (message.execute port calls).elim [] fun (ret, after) =>
        let later := if ret < 0 then [] else needed port rest after
        if later = [] ∧ performed after = performed calls then [] else message.pieces ++ later

/-! ## Executing one message -/

theorem recvTcpPack_full {len : Nat} {chunk : List UInt8} (full : chunk.length = len) :
    recvTcpPack len chunk = some chunk :=
  if_pos full

theorem recvTcpPack_short {len : Nat} {chunk : List UInt8} (short : chunk.length ≠ len) :
    recvTcpPack len chunk = none :=
  if_neg short

theorem dispatch_command (command : UInt8) :
    dispatch command.toNat =
      if command = dvsTcpCmdUart then .serialPack
      else if command = dvsTcpCmdPtz then .ptzPack
      else .header := by
  have same : ∀ other : UInt8, (command.toNat : Int) = other.toNat ↔ command = other := by
    intro other
    rw [Int.natCast_inj, UInt8.toNat_inj]
  have positive : ¬ (command.toNat : Int) < 0 := by omega
  unfold dispatch
  simp only [positive, if_false, same]

/-- Another command is none at all. -/
theorem unsupported {command : UInt8} (nothing : bodyLen command = 0) :
    command ≠ dvsTcpCmdUart ∧ command ≠ dvsTcpCmdPtz := by
  constructor
  · rintro rfl
    cases nothing
  · rintro rfl
    cases nothing

theorem advance_body (port : Port) (message : Message) (follows : bodyLen message.command ≠ 0)
    (calls : PortCalls) :
    advance port message.body calls (dispatch message.command.toNat) =
      (message.execute port calls).map fun (ret, calls) =>
        (if ret < 0 then .exited else .header, calls) := by
  have full := message.length_eq
  rw [dispatch_command]
  unfold bodyLen at follows full
  unfold Message.execute
  by_cases uart : message.command = dvsTcpCmdUart
  · rw [if_pos uart] at full
    simp only [uart, if_true, advance, tcpCmdSetSerialPort, recvTcpPack_full full, Option.elim_some,
      Option.map_some]
  · by_cases ptz : message.command = dvsTcpCmdPtz
    · have differs : dvsTcpCmdPtz ≠ dvsTcpCmdUart := by decide
      rw [if_neg uart, if_pos ptz] at full
      simp only [ptz, differs, if_false, if_true, advance, tcpCmdExecPtz, recvTcpPack_full full,
        Option.elim_some]
    · rw [if_neg uart, if_neg ptz] at follows
      exact absurd rfl follows

/-- A body that does not come in one piece ends the loop. -/
theorem advance_short {port : Port} {command : UInt8} {chunk : List UInt8} (follows : bodyLen command ≠ 0)
    (short : chunk.length ≠ bodyLen command) (calls : PortCalls) :
    advance port chunk calls (dispatch command.toNat) = some (.exited, calls) := by
  rw [dispatch_command]
  unfold bodyLen at follows short
  by_cases uart : command = dvsTcpCmdUart
  · rw [if_pos uart] at short
    simp [uart, advance, tcpCmdSetSerialPort, recvTcpPack_short short]
  · by_cases ptz : command = dvsTcpCmdPtz
    · rw [if_neg uart, if_pos ptz] at short
      rw [if_neg uart, if_pos ptz]
      simp [advance, tcpCmdExecPtz, recvTcpPack_short short]
    · rw [if_neg uart, if_neg ptz] at follows
      exact absurd rfl follows

theorem serve_exited (port : Port) (chunks : List (List UInt8)) (calls : PortCalls) :
    serve port .exited chunks calls = some calls := by
  induction chunks with
  | nil => rfl
  | cons chunk rest ih => exact ih

theorem execute_isSome_iff {port : Port} {message : Message} {calls : PortCalls} :
    (message.execute port calls).isSome ↔ message.Printable := by
  unfold Message.execute Message.Printable
  by_cases uart : message.command = dvsTcpCmdUart
  · rw [if_pos uart, uart]
    exact iff_of_true rfl fun ptz => absurd ptz (by decide)
  · rw [if_neg uart]
    by_cases ptz : message.command = dvsTcpCmdPtz
    · rw [if_pos ptz, execPtz_isSome_iff]
      exact ⟨fun le _ => le, fun le => le ptz⟩
    · rw [if_neg ptz]
      exact iff_of_true rfl fun ptz' => absurd ptz' ptz

/-! ## The messages of a stream -/

theorem size_pos (message : Message) : 0 < message.size := by
  exact Nat.add_pos_left (by decide) _

theorem messagesUpTo_eq {fuel : Nat} {stream : List UInt8} (enough : stream.length ≤ fuel) :
    messagesUpTo fuel stream = messages stream := by
  induction fuel using Nat.strong_induction_on generalizing stream with
  | _ fuel ih =>
      unfold messages
      cases fuel with
      | zero =>
          rw [Nat.le_zero.mp enough]
      | succ fuel =>
          cases stream with
          | nil => rfl
          | cons byte_ stream =>
              rw [List.length_cons, messagesUpTo, messagesUpTo]
              cases nextMessage (byte_ :: stream) with
              | none => rfl
              | some message =>
                  have shorter : ((byte_ :: stream).drop message.size).length ≤ stream.length := by
                    have pos := size_pos message
                    rw [List.length_drop, List.length_cons]
                    omega
                  rw [List.length_cons] at enough
                  rw [Option.elim_some, Option.elim_some, ih fuel (Nat.lt_succ_self _) (by omega)]
                  by_cases same : stream.length = fuel
                  · rw [same, ih fuel (Nat.lt_succ_self _) (by omega)]
                  · rw [ih stream.length (by omega) shorter]

/-- A stream begins with its next message. -/
theorem messages_eq (stream : List UInt8) :
    messages stream = (nextMessage stream).elim [] fun message =>
      message :: messages (stream.drop message.size) := by
  cases stream with
  | nil => rfl
  | cons byte_ stream =>
      rw [messages, List.length_cons, messagesUpTo]
      cases nextMessage (byte_ :: stream) with
      | none => rfl
      | some message =>
          rw [Option.elim_some, Option.elim_some, messagesUpTo_eq]
          have pos := size_pos message
          rw [List.length_drop, List.length_cons]
          omega

theorem nextMessage_wrong {header rest : List UInt8} (full : header.length = tcpCmdHeaderLen)
    (wrong : header.take tcpCmdPosition ≠ tcpCmdHeaderStr.take tcpCmdPosition) :
    nextMessage (header ++ rest) = none := by
  apply if_neg
  rintro ⟨_, right⟩
  rw [List.take_append_of_le_length (by rw [full]; decide)] at right
  exact wrong right

/-- Behind a right header comes the body. -/
theorem nextMessage_headed {header rest : List UInt8} (full : header.length = tcpCmdHeaderLen)
    (right : header.take tcpCmdPosition = tcpCmdHeaderStr.take tcpCmdPosition) :
    nextMessage (header ++ rest) =
      if whole : (rest.take (bodyLen (byte header tcpCmdPosition))).length =
          bodyLen (byte header tcpCmdPosition) then
        some ⟨_, _, whole⟩
      else none := by
  have command : byte (header ++ rest) tcpCmdPosition = byte header tcpCmdPosition := by
    unfold byte
    rw [List.getD_eq_getElem?_getD, List.getElem?_append_left (by rw [full]; decide),
      ← List.getD_eq_getElem?_getD]
  have body : (header ++ rest).drop tcpCmdHeaderLen = rest := by
    rw [← full, List.drop_left]
  have long : tcpCmdHeaderLen ≤ (header ++ rest).length ∧
      (header ++ rest).take tcpCmdPosition = tcpCmdHeaderStr.take tcpCmdPosition := by
    constructor
    · rw [List.length_append, full]
      exact Nat.le_add_right _ _
    · rw [List.take_append_of_le_length (by rw [full]; decide)]
      exact right
  unfold nextMessage
  rw [if_pos long]
  simp only [command, body]

theorem messages_headed {header body rest : List UInt8} (full : header.length = tcpCmdHeaderLen)
    (right : header.take tcpCmdPosition = tcpCmdHeaderStr.take tcpCmdPosition)
    (length_eq : body.length = bodyLen (byte header tcpCmdPosition)) :
    messages (header ++ (body ++ rest)) = ⟨_, body, length_eq⟩ :: messages rest := by
  have taken : (body ++ rest).take (bodyLen (byte header tcpCmdPosition)) = body := by
    rw [← length_eq, List.take_left]
  have behind : (header ++ (body ++ rest)).drop (tcpCmdHeaderLen + body.length) = rest := by
    rw [← full, ← List.length_append, ← List.append_assoc, List.drop_left]
  rw [messages_eq, nextMessage_headed full right]
  simp only [taken, dif_pos length_eq, Option.elim_some, Message.size, behind]

/-! ## What the grammar performs -/

theorem execute_suffix {port : Port} {message : Message} {calls after : PortCalls} {ret : Int}
    (done : message.execute port calls = some (ret, after)) : calls <:+ after := by
  unfold Message.execute at done
  split at done
  · have suffix := setSerialPort_suffix port (.ofBytes message.body) calls
    rw [Option.some.inj done] at suffix
    exact suffix
  · split at done
    · exact execPtz_suffix done
    · cases Option.some.inj done
      exact List.suffix_rfl

theorem perform_cons {port : Port} {message : Message} {rest : List Message}
    {calls after : PortCalls} {ret : Int} (done : message.execute port calls = some (ret, after)) :
    perform port (message :: rest) calls = if ret < 0 then some after else perform port rest after := by
  rw [perform, done]
  rfl

/-- The grammar is defined where the messages are printable. -/
theorem perform_isSome_iff {port : Port} {sequence : List Message} {calls : PortCalls} :
    (perform port sequence calls).isSome ↔ AllPrintable port sequence calls := by
  induction sequence generalizing calls with
  | nil => exact iff_of_true rfl trivial
  | cons message rest ih =>
      have one : (message.execute port calls).isSome ↔ message.Printable := execute_isSome_iff
      rw [AllPrintable, ← one, perform]
      cases message.execute port calls with
      | none => exact iff_of_false Bool.false_ne_true fun both => absurd both.1 Bool.false_ne_true
      | some result =>
          obtain ⟨ret, after⟩ := result
          rw [Option.bind_some, Option.elim_some, Option.isSome_some, and_iff_right rfl]
          dsimp only
          split
          · exact iff_of_true rfl trivial
          · exact ih

/-- Where the grammar is defined, its first message is. -/
theorem execute_of_perform {port : Port} {message : Message} {rest : List Message}
    {calls expected : PortCalls} (grammar : perform port (message :: rest) calls = some expected) :
    ∃ ret after, message.execute port calls = some (ret, after) := by
  obtain ⟨⟨ret, after⟩, done, _⟩ := Option.bind_eq_some_iff.mp grammar
  exact ⟨ret, after, done⟩

theorem perform_suffix {port : Port} {sequence : List Message} {calls expected : PortCalls}
    (grammar : perform port sequence calls = some expected) : calls <:+ expected := by
  induction sequence generalizing calls with
  | nil =>
      cases Option.some.inj grammar
      exact List.suffix_rfl
  | cons message rest ih =>
      obtain ⟨ret, after, done⟩ := execute_of_perform grammar
      rw [perform_cons done] at grammar
      split at grammar
      · cases Option.some.inj grammar
        exact execute_suffix done
      · exact (execute_suffix done).trans (ih grammar)

theorem performed_between {calls middle after : PortCalls} (grows : calls <:+ middle)
    (grows' : middle <:+ after) (same : performed after = performed calls) :
    performed middle = performed calls ∧ performed after = performed middle := by
  have first : performed calls <:+ performed middle := grows.filter performs
  have second : performed middle <:+ performed after := grows'.filter performs
  rw [same] at second
  have middle_eq : performed middle = performed calls := second.eq_of_length_le first.length_le
  exact ⟨middle_eq, same.trans middle_eq.symm⟩

/-- What is needed behind a message. -/
def neededBehind (port : Port) (ret : Int) (rest : List Message) (after : PortCalls) : List Nat :=
  if ret < 0 then [] else needed port rest after

theorem needed_cons {port : Port} {message : Message} {rest : List Message}
    {calls after : PortCalls} {ret : Int} (done : message.execute port calls = some (ret, after)) :
    needed port (message :: rest) calls =
      if neededBehind port ret rest after = [] ∧ performed after = performed calls then []
      else message.pieces ++ neededBehind port ret rest after := by
  rw [needed, done]
  rfl

theorem needed_cons_eq_nil {port : Port} {message : Message} {rest : List Message}
    {calls after : PortCalls} {ret : Int} (done : message.execute port calls = some (ret, after)) :
    needed port (message :: rest) calls = [] ↔
      neededBehind port ret rest after = [] ∧ performed after = performed calls := by
  rw [needed_cons done]
  split
  · rename_i nothing
    exact iff_of_true rfl nothing
  · rename_i something
    exact iff_of_false (fun empty => nomatch empty) something

/-- Nothing is needed of a stream that makes no setting and no write. -/
theorem needed_eq_nil {port : Port} {sequence : List Message} {calls expected : PortCalls}
    (grammar : perform port sequence calls = some expected) :
    needed port sequence calls = [] ↔ performed expected = performed calls := by
  induction sequence generalizing calls with
  | nil =>
      cases Option.some.inj grammar
      exact ⟨fun _ => rfl, fun _ => rfl⟩
  | cons message rest ih =>
      obtain ⟨ret, after, done⟩ := execute_of_perform grammar
      rw [needed_cons_eq_nil done, neededBehind]
      rw [perform_cons done] at grammar
      split at grammar
      · rename_i failed
        cases Option.some.inj grammar
        rw [if_pos failed]
        exact and_iff_right rfl
      · rename_i goesOn
        rw [if_neg goesOn, ih grammar]
        constructor
        · rintro ⟨later, here⟩
          exact later.trans here
        · intro same
          exact (performed_between (execute_suffix done) (perform_suffix grammar) same).symm

/-- A message that comes in its pieces does not matter. -/
theorem needed_cons_prefix {port : Port} {message : Message} {rest : List Message}
    {calls after : PortCalls} {ret : Int} {sizes : List Nat}
    (done : message.execute port calls = some (ret, after)) :
    needed port (message :: rest) calls <+: message.pieces ++ sizes ↔
      neededBehind port ret rest after <+: sizes := by
  rw [needed_cons done]
  split
  · rename_i nothing
    rw [nothing.1]
    exact iff_of_true List.nil_prefix List.nil_prefix
  · exact List.prefix_append_right_inj _

/-- Where the first message does not come in its pieces, the thread sees no more of the
stream, and that is right only if no more of it is needed. -/
theorem cut_iff {port : Port} {sequence : List Message} {calls expected : PortCalls} {sizes : List Nat}
    (grammar : perform port sequence calls = some expected)
    (broken : ∀ message ∈ sequence.head?, ¬ message.pieces <+: sizes) :
    performed calls = performed expected ↔ needed port sequence calls <+: sizes := by
  rw [eq_comm, ← needed_eq_nil grammar]
  constructor
  · intro nothing
    rw [nothing]
    exact List.nil_prefix
  · intro whole
    cases sequence with
    | nil => rfl
    | cons message rest =>
        obtain ⟨ret, after, done⟩ := execute_of_perform grammar
        rw [needed_cons done] at whole ⊢
        split
        · rfl
        · rename_i something
          rw [if_neg something] at whole
          exact absurd ((List.prefix_append _ _).trans whole) (broken message rfl)

/-! ## Every stream and every way to cut it -/

/-- A message behind this header comes in two pieces. -/
theorem headed_pieces {header rest : List UInt8} (full : header.length = tcpCmdHeaderLen)
    (right : header.take tcpCmdPosition = tcpCmdHeaderStr.take tcpCmdPosition)
    (follows : bodyLen (byte header tcpCmdPosition) ≠ 0) {message : Message}
    (first : message ∈ (messages (header ++ rest)).head?) :
    message.pieces = [tcpCmdHeaderLen, bodyLen (byte header tcpCmdPosition)] := by
  rw [messages_eq, nextMessage_headed full right] at first
  split at first
  · rename_i whole
    cases Option.some.inj first
    simp only [Message.pieces, whole, follows, if_false]
  · cases first

/-- The thread is defined, and the port sees what the grammar performs exactly if what is
needed comes in its pieces. -/
def Agrees (port : Port) (at_ : At) (chunks rest : List (List UInt8)) (calls expected : PortCalls) :
    Prop :=
  ∃ after, serve port at_ rest calls = some after ∧
    (performed after = performed expected ↔
      needed port (messages chunks.flatten) calls <+: chunks.map List.length)

/-- A thread that has left its loop saw all that was needed if it comes in its pieces. -/
theorem agrees_exited {port : Port} {chunks rest : List (List UInt8)} {calls expected : PortCalls}
    (cut : performed calls = performed expected ↔
      needed port (messages chunks.flatten) calls <+: chunks.map List.length) :
    Agrees port .exited chunks rest calls expected :=
  ⟨calls, serve_exited port rest calls, cut⟩

/-- Behind the header of a message with a body. -/
theorem serve_body {port : Port} {header chunk : List UInt8} {rest : List (List UInt8)}
    {calls expected : PortCalls} (full : header.length = tcpCmdHeaderLen)
    (right : header.take tcpCmdPosition = tcpCmdHeaderStr.take tcpCmdPosition)
    (follows : bodyLen (byte header tcpCmdPosition) ≠ 0)
    (grammar : perform port (messages (header :: chunk :: rest).flatten) calls = some expected)
    (later : ∀ {calls}, perform port (messages rest.flatten) calls = some expected →
      Agrees port .header rest rest calls expected) :
    Agrees port (dispatch (byte header tcpCmdPosition).toNat) (header :: chunk :: rest)
      (chunk :: rest) calls expected := by
  unfold Agrees
  rw [List.flatten_cons, List.flatten_cons] at grammar ⊢
  rw [List.map_cons, List.map_cons, serve]
  by_cases whole : chunk.length = bodyLen (byte header tcpCmdPosition)
  · have sizes : header.length :: chunk.length :: rest.map List.length =
        Message.pieces ⟨_, chunk, whole⟩ ++ rest.map List.length := by
      rw [Message.pieces, if_neg (by rw [whole]; exact follows), full]
      rfl
    rw [messages_headed full right whole] at grammar ⊢
    obtain ⟨ret, after, done⟩ := execute_of_perform grammar
    rw [perform_cons done] at grammar
    rw [advance_body port ⟨_, chunk, whole⟩ follows calls, sizes, needed_cons_prefix done,
      neededBehind, done, Option.map_some, Option.bind_some]
    dsimp only
    split at grammar
    · rename_i failed
      cases Option.some.inj grammar
      rw [if_pos failed, if_pos failed]
      exact ⟨_, serve_exited port rest _, iff_of_true rfl List.nil_prefix⟩
    · rename_i goesOn
      rw [if_neg goesOn, if_neg goesOn]
      exact later grammar
  · rw [advance_short follows whole, Option.bind_some]
    refine ⟨_, serve_exited port rest calls, cut_iff grammar ?_⟩
    intro message first pieces
    rw [headed_pieces full right follows first, full, List.prefix_cons_inj,
      List.cons_prefix_cons] at pieces
    exact whole pieces.1.symm

/-- From a header to what follows it. -/
theorem serve_header {port : Port} {header : List UInt8} {rest : List (List UInt8)}
    {calls expected : PortCalls}
    (grammar : perform port (messages (header :: rest).flatten) calls = some expected)
    (noBody : perform port (messages rest.flatten) calls = some expected →
      Agrees port .header rest rest calls expected)
    (body : header.length = tcpCmdHeaderLen →
      header.take tcpCmdPosition = tcpCmdHeaderStr.take tcpCmdPosition →
      bodyLen (byte header tcpCmdPosition) ≠ 0 →
        Agrees port (dispatch (byte header tcpCmdPosition).toNat) (header :: rest) rest calls expected) :
    Agrees port .header (header :: rest) (header :: rest) calls expected := by
  have step : ∀ next, advance port header calls .header = some (next, calls) →
      Agrees port next (header :: rest) rest calls expected →
      Agrees port .header (header :: rest) (header :: rest) calls expected := by
    rintro next advanced ⟨after, served, exact_⟩
    exact ⟨after, by rw [serve, advanced]; exact served, exact_⟩
  by_cases full : header.length = tcpCmdHeaderLen
  · by_cases right : header.take tcpCmdPosition = tcpCmdHeaderStr.take tcpCmdPosition
    · have advanced : advance port header calls .header =
          some (dispatch (byte header tcpCmdPosition).toNat, calls) := by
        rw [advance, tcpAnalysisCmdheader, recvTcpPack_full full, Option.elim_some, if_pos right]
      refine step _ advanced ?_
      by_cases follows : bodyLen (byte header tcpCmdPosition) = 0
      · obtain ⟨notUart, notPtz⟩ := unsupported follows
        have empty : ([] : List UInt8).length = bodyLen (byte header tcpCmdPosition) := follows.symm
        have sequence : messages (header ++ ([] ++ rest.flatten)) =
            ⟨_, [], follows.symm⟩ :: messages rest.flatten := messages_headed full right empty
        have sizes : (header :: rest).map List.length =
            Message.pieces ⟨_, [], follows.symm⟩ ++ rest.map List.length := by
          rw [List.map_cons, full]
          rfl
        have ignored : Message.execute port ⟨_, [], follows.symm⟩ calls = some (0, calls) := by
          rw [Message.execute, if_neg notUart, if_neg notPtz]
        rw [List.nil_append] at sequence
        rw [List.flatten_cons, sequence, perform_cons ignored] at grammar
        rw [dispatch_command, if_neg notUart, if_neg notPtz, Agrees, List.flatten_cons, sequence, sizes,
          needed_cons_prefix ignored]
        exact noBody grammar
      · exact body full right follows
    · refine step .exited ?_ (agrees_exited ?_)
      · rw [advance, tcpAnalysisCmdheader, recvTcpPack_full full, Option.elim_some, if_neg right]
        rfl
      · have nothing : messages (header :: rest).flatten = [] := by
          rw [List.flatten_cons, messages_eq, nextMessage_wrong full right]
          rfl
        rw [nothing] at grammar ⊢
        cases Option.some.inj grammar
        exact iff_of_true rfl List.nil_prefix
  · refine step .exited ?_ (agrees_exited (cut_iff grammar ?_))
    · rw [advance, tcpAnalysisCmdheader, recvTcpPack_short full]
      rfl
    · intro message _ pieces
      exact full (List.cons_prefix_cons.mp pieces).1.symm

/-- Where the grammar is defined, the thread is. -/
theorem serve_agrees {port : Port} {chunks : List (List UInt8)} {calls expected : PortCalls}
    (grammar : perform port (messages chunks.flatten) calls = some expected) :
    Agrees port .header chunks chunks calls expected := by
  induction chunks using List.twoStepInduction generalizing calls with
  | nil =>
      cases Option.some.inj grammar
      exact ⟨_, rfl, iff_of_true rfl List.nil_prefix⟩
  | singleton header =>
      refine serve_header grammar ?_ ?_
      · intro grammar'
        cases Option.some.inj grammar'
        exact ⟨_, rfl, iff_of_true rfl List.nil_prefix⟩
      · intro full right follows
        refine ⟨_, rfl, cut_iff grammar ?_⟩
        intro message first pieces
        rw [List.flatten_cons] at first
        rw [headed_pieces full right follows first] at pieces
        have longer := pieces.length_le
        contradiction
  | cons_cons header body rest ih ih' =>
      refine serve_header grammar (ih' body) ?_
      intro full right follows
      exact serve_body full right follows grammar ih

/-- Cutting the stream does no harm exactly if the camera commands are printable and the
headers and bodies up to the last one that matters come in one piece each. -/
theorem cutting_harmless_iff_pieces (port : Port) (chunks : List (List UInt8)) :
    (∃ after expected, uartServiceThr port chunks [] = some after ∧
        perform port (messages chunks.flatten) [] = some expected ∧
        performed after = performed expected) ↔
      AllPrintable port (messages chunks.flatten) [] ∧
        needed port (messages chunks.flatten) [] <+: chunks.map List.length := by
  rw [← perform_isSome_iff]
  constructor
  · rintro ⟨after, expected, served, grammar, same⟩
    obtain ⟨after', served', agrees⟩ := serve_agrees grammar
    cases Option.some.inj (served.symm.trans served')
    exact ⟨Option.isSome_iff_exists.mpr ⟨expected, grammar⟩, agrees.mp same⟩
  · rintro ⟨defined, pieces⟩
    obtain ⟨expected, grammar⟩ := Option.isSome_iff_exists.mp defined
    obtain ⟨after, served, agrees⟩ := serve_agrees grammar
    exact ⟨after, expected, served, grammar, agrees.mpr pieces⟩

/-- A port whose calls succeed. -/
def working : Port where
  tcgetattr _ := (0, ⟨0o15, 0o15, 0, 0, 0o60, 0, 0, 0, []⟩)
  tcsetattr _ := 0
  write calls := calls.head?.elim 0 fun
    | .write _ len => len.toInt
    | _ => 0

/-- The header of a camera command. -/
def ptzHeader : List UInt8 := [0xBB, 0xB1, 0xB2, 0xB3, 0xB4, 0xB5, 0xFF, 0x00]

/-- A camera command of seven bytes. -/
def ptzBody : List UInt8 := [0xFF, 0x01, 0x00, 0x08, 0x00, 0x20, 0x29, 0x00, 7, 0, 0, 0]

/-- The header of a camera command comes in two pieces. -/
theorem cutting_harmless_fails : ¬ ∀ (port : Port) (chunks : List (List UInt8)),
    Received port .header chunks [] →
      ∃ after expected, uartServiceThr port chunks [] = some after ∧
        perform port (messages chunks.flatten) [] = some expected ∧
        performed after = performed expected := by
  intro claim
  obtain ⟨after, expected, served, grammar, same⟩ :=
    claim working [ptzHeader.take 5, ptzHeader.drop 5, ptzBody]
      ⟨.inr (by decide), .inl rfl, .inl rfl, trivial⟩
  cases Option.some.inj served
  have performs_write : (perform working (messages
      [ptzHeader.take 5, ptzHeader.drop 5, ptzBody].flatten) []).map performed ≠ some [] := by decide
  rw [grammar] at performs_write
  exact performs_write (congrArg some same.symm)

end DvsServer.Uart.Segmentation
