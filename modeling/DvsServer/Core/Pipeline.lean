import DvsServer.Core.VideoEncode
import DvsServer.Lib.Fifo
import DvsServer.Lib.Run

/-!
# The frame pipeline (`core/src/videoEncode.c`, `core/src/session.c`)

The video thread, the sub-session threads with one FIFO each, the session thread
and `main`, from the point where all of them have started and every sub-session
thread has read its index.  The elements in the FIFOs point to the video
thread's buffers.  What `send_to_client` does with the bytes and the deletion of
the clients at the end wait for none of these threads.
-/

namespace DvsServer.Core.Pipeline

open DvsServer.Lib DvsServer.Com.RtpSend DvsServer.Core.Session DvsServer.Core.VideoEncode

/-! ## The threads -/

/-- Where the video thread stands in `videoEncodeThrFxn`; `i` is the loop counter. -/
inductive VideoPc where
  /-- the test of the quit flag -/
  | head
  /-- `readEncodedFrameInFile`, before the header is read -/
  | header
  /-- `readEncodedFrameInFile`, before the channel is stored in the header -/
  | mark
  /-- `readEncodedFrameInFile`, before the frame is read -/
  | frame
  /-- the loop condition, and then `memcpy` -/
  | copy (i : Nat)
  /-- before the channel is stored in the copied header -/
  | patch (i : Nat)
  | put (i : Nat)
  /-- the loop that puts `CMD_SESSION_FLUSH` -/
  | flush (i : Nat)
  | done
deriving DecidableEq

/-- The video thread with its variable `s_elt`. -/
structure Video where
  pc : VideoPc
  elt : SessionElement

/-- Where a thread stands in `subSessionThrFxn`. -/
inductive Reader where
  /-- the test of the quit flag -/
  | head
  | get
  /-- an element has been taken -/
  | got (e : SessionElement)
  | exited
deriving DecidableEq

/-- Where the session thread stands in `sessionThrFxn` after it has created the
sub-session threads. -/
inductive Joiner where
  | join (i : Nat)
  /-- the deletion of the clients in `delete_session_tsk` -/
  | clients
  | close (i : Nat)
  | done
deriving DecidableEq

structure State where
  memory : Memory
  fifos : Fin maxGroupNum → Fifo SessionElement
  video : Video
  readers : Fin maxGroupNum → Reader
  session : Joiner
  quit : Bool

def State.setFifo (p : State) (g : Fin maxGroupNum) (f : Fifo SessionElement) : State :=
  { p with fifos := Function.update p.fifos g f }

def State.setReader (p : State) (g : Fin maxGroupNum) (reader : Reader) : State :=
  { p with readers := Function.update p.readers g reader }

/-- The video thread goes on at another place. -/
def State.goto (p : State) (pc : VideoPc) : State :=
  { p with video := { p.video with pc } }

/-- The video thread has written to its buffers and goes on. -/
def State.stored (p : State) (memory : Memory) (pc : VideoPc) : State :=
  { p with memory, video := { p.video with pc } }

/-- The bytes an element points to. -/
def State.bytes (p : State) (e : SessionElement) : List UInt8 :=
  p.memory.bytes e.buffer e.len.toNat

inductive Mover where
  | video
  | reader (g : Fin maxGroupNum)
  | session
  | main
deriving DecidableEq

/-- What a step did. -/
inductive Act where
  | quiet
  /-- bytes were stored in a channel's buffer; `asked` is the size that `fread` or
  `memcpy` was given -/
  | writes (ch : Fin maxVideoChannel) (offset asked : Nat) (data : List UInt8)
  /-- an element was put, with the bytes it pointed to then -/
  | puts (g : Fin maxGroupNum) (e : SessionElement) (bytes : List UInt8)
  | putFails (g : Fin maxGroupNum)
  | gets (g : Fin maxGroupNum) (e : SessionElement)
  | getFails (g : Fin maxGroupNum)
  /-- a sub-session thread has seen the quit flag -/
  | leaves (g : Fin maxGroupNum)
  /-- an element was passed to `send_to_client`, with the bytes it pointed to then -/
  | sends (g : Fin maxGroupNum) (e : SessionElement) (bytes : List UInt8)
  | closes (g : Fin maxGroupNum)
  | quits

/-! ## The steps -/

/-- `FifoUtil_put` of `s_elt`, whose result is not looked at. -/
def putStep (capacity : Option Nat) (p : State) (g : Fin maxGroupNum) (elt : SessionElement)
    (pc : VideoPc) : Outcome (Act × State) :=
  match (p.fifos g).put capacity elt with
  | .blocked => .blocked
  | .undefined => .undefined
  | .next (ok, f) =>
      .next (if ok then .puts g elt (p.bytes elt) else .putFails g,
        { p.setFifo g f with video := ⟨pc, elt⟩ })

def videoStep (chs : Int) (capacity : Option Nat) (p : State) : Outcome (Act × State) :=
  let elt := p.video.elt
  match p.video.pc with
  | .head =>
      if p.quit then .next (.quiet, { p with video := ⟨.flush 0, { elt with command := cmdSessionFlush }⟩ })
      else .next (.quiet, p.goto .header)
  | .header =>
      match p.memory.fread sourceChannel 0 frameHeaderLen with
      | none => .undefined
      | some (data, memory) =>
          .next (.writes sourceChannel 0 frameHeaderLen data,
            -- at the end of the file the next call starts over
            if data = [] then p.stored (memory.rewind sourceChannel) .head else p.stored memory .mark)
  | .mark =>
      match p.memory.write sourceChannel chIdOffset [UInt8.ofNat sourceChannel] with
      | none => .undefined
      | some memory =>
          .next (.writes sourceChannel chIdOffset 1 [UInt8.ofNat sourceChannel], p.stored memory .frame)
  | .frame =>
      match p.memory.buf sourceChannel with
      | none => .undefined
      | some b =>
          let asked := sizeOfInt b.headerLen.toInt32
          match p.memory.fread sourceChannel frameHeaderLen asked with
          | none => .undefined
          | some (data, memory) =>
              .next (.writes sourceChannel frameHeaderLen asked data,
                if data = [] then p.stored memory .head
                else { p with memory, video := ⟨.copy 0, { elt with len := UInt32.ofNat (data.length + frameHeaderLen) }⟩ })
  | .copy i =>
      if i < chs then
        match index? maxVideoChannel i with
        | none => .undefined
        | some ch =>
            if ch = sourceChannel then .next (.quiet, p.goto (.put i))
            else
              match p.memory.buf sourceChannel with
              | none => .undefined
              | some b =>
                  match p.memory.write ch 0 (b.take elt.len.toNat) with
                  | none => .undefined
                  | some memory =>
                      .next (.writes ch 0 elt.len.toNat (b.take elt.len.toNat), p.stored memory (.patch i))
      else .next (.quiet, p.goto .head)
  | .patch i =>
      match index? maxVideoChannel i with
      | none => .undefined
      | some ch =>
          match p.memory.write ch chIdOffset [UInt8.ofNat i] with
          | none => .undefined
          | some memory => .next (.writes ch chIdOffset 1 [UInt8.ofNat i], p.stored memory (.put i))
  | .put i =>
      match index? maxGroupNum (i / chsPerSession : Nat) with
      | none => .undefined
      | some g => putStep capacity p g { elt with chId := UInt8.ofNat i, buffer := i } (.copy (i + 1))
  | .flush i =>
      if i < groups chs then
        match index? maxGroupNum i with
        | none => .undefined
        | some g => putStep capacity p g elt (.flush (i + 1))
      else .next (.quiet, p.goto .done)
  | .done => .blocked

def readerStep (g : Fin maxGroupNum) (p : State) : Outcome (Act × State) :=
  match p.readers g with
  | .head =>
      if p.quit then .next (.leaves g, p.setReader g .exited) else .next (.quiet, p.setReader g .get)
  | .get =>
      match (p.fifos g).get with
      | .blocked => .blocked
      | .undefined => .undefined
      | .next (none, _) => .next (.getFails g, p.setReader g .exited)
      | .next (some e, f) => .next (.gets g e, (p.setFifo g f).setReader g (.got e))
  | .got e =>
      if e.command = cmdSessionFlush then .next (.quiet, p.setReader g .exited)
      else .next (.sends g e (p.bytes e), p.setReader g .head)
  | .exited => .blocked

def sessionStep (chs : Int) (p : State) : Outcome (Act × State) :=
  match p.session with
  | .join i =>
      if i < groups chs then
        match index? maxGroupNum i with
        | none => .undefined
        | some g =>
            if p.readers g = .exited then .next (.quiet, { p with session := .join (i + 1) }) else .blocked
      else .next (.quiet, { p with session := .clients })
  | .clients => .next (.quiet, { p with session := .close 0 })
  | .close i =>
      if i < groups chs then
        match index? maxGroupNum i with
        | none => .undefined
        | some g =>
            .next (.closes g, { p.setFifo g ⟨(p.fifos g).queue, true⟩ with session := .close (i + 1) })
      else .next (.quiet, { p with session := .done })
  | .done => .blocked

/-- One step of a thread; `main` sets the quit flag once. -/
def pipelineStep (chs : Int) (capacity : Option Nat) (p : State) : Mover → Outcome (Act × State)
  | .video => videoStep chs capacity p
  | .reader g => if g.val < groups chs then readerStep g p else .blocked
  | .session => sessionStep chs p
  | .main => if p.quit then .blocked else .next (.quits, { p with quit := true })

def pipelineExec (chs : Int) (capacity : Option Nat) (p : State) (mover : Mover) :
    Option (Act × State) :=
  (pipelineStep chs capacity p mover).toOption

/-- All threads have started; the buffers, the file and the fields of `s_elt` that
are not set yet are arbitrary. -/
structure Started (p : State) : Prop where
  fifos : ∀ g, p.fifos g = .empty
  video : p.video.pc = .head
  command : p.video.elt.command = cmdSessionBuffer
  dataType : p.video.elt.dataType.toNat = sessionTypeVideo
  readers : ∀ g, p.readers g = .head
  session : p.session = .join 0
  quit : p.quit = false

/-- The threads at their start, with the buffers zeroed and a file for channel 2. -/
def initial (chs : Int) (content : List UInt8) : State where
  memory := ⟨fun ch => if ch < chs then some fun _ => 0 else none,
    fun ch => if ch = sourceChannel then some ⟨content, 0⟩ else none⟩
  fifos _ := .empty
  video := ⟨.head, ⟨cmdSessionBuffer, 0, 0, 0, 0⟩⟩
  readers _ := .head
  session := .join 0
  quit := false

theorem initial_started (chs : Int) (content : List UInt8) : Started (initial chs content) :=
  ⟨fun _ => rfl, rfl, rfl, rfl, fun _ => rfl, rfl, rfl⟩

/-- A frame of one byte, as it stands in the file. -/
def shortFrame (payload : UInt8) : List UInt8 :=
  [0xAA, 0xA1, 0xA2, 0xA3, 0xA4, 0xA5, 0xA6, 0xA7, 0xA8, 0xFF, 2, 0, 1, 0, 0, 0, 0, 0, 0, 0, payload]

abbrev History := List (Mover × Act)

/-! ## What a step does -/

@[simp] theorem setFifo_self (p : State) (g : Fin maxGroupNum) (f : Fifo SessionElement) :
    (p.setFifo g f).fifos g = f :=
  Function.update_self ..

theorem setFifo_ne {p : State} {g h : Fin maxGroupNum} (other : h ≠ g) (f : Fifo SessionElement) :
    (p.setFifo g f).fifos h = p.fifos h :=
  Function.update_of_ne other ..

@[simp] theorem setReader_self (p : State) (g : Fin maxGroupNum) (reader : Reader) :
    (p.setReader g reader).readers g = reader :=
  Function.update_self ..

theorem setReader_ne {p : State} {g h : Fin maxGroupNum} (other : h ≠ g) (reader : Reader) :
    (p.setReader g reader).readers h = p.readers h :=
  Function.update_of_ne other ..

/-- The steps of the video thread that store into a buffer: where, what, and where
the thread is afterwards. -/
inductive Stores (chs : Int) (p : State) : Fin maxVideoChannel → Nat → List UInt8 → Video → Prop where
  | fileEnd (pc : p.video.pc = .header) :
      Stores chs p sourceChannel 0 [] { p.video with pc := .head }
  | header {data : List UInt8} (pc : p.video.pc = .header) :
      Stores chs p sourceChannel 0 data { p.video with pc := .mark }
  | mark (pc : p.video.pc = .mark) :
      Stores chs p sourceChannel chIdOffset [UInt8.ofNat sourceChannel] { p.video with pc := .frame }
  | noFrame (pc : p.video.pc = .frame) :
      Stores chs p sourceChannel frameHeaderLen [] { p.video with pc := .head }
  | frame {data : List UInt8} (pc : p.video.pc = .frame) (some_ : data ≠ [])
      (fits : data.length + frameHeaderLen ≤ maxVideoBufferLen) :
      Stores chs p sourceChannel frameHeaderLen data
        ⟨.copy 0, { p.video.elt with len := UInt32.ofNat (data.length + frameHeaderLen) }⟩
  | copy {i : Nat} {ch : Fin maxVideoChannel} {b : Buffer} (pc : p.video.pc = .copy i) (below : i < chs)
      (at_ : (i : Int) = ch) (other : ch ≠ sourceChannel) (source : p.memory.buf sourceChannel = some b) :
      Stores chs p ch 0 (b.take p.video.elt.len.toNat) { p.video with pc := .patch i }
  | patch {i : Nat} {ch : Fin maxVideoChannel} (pc : p.video.pc = .patch i) (at_ : (i : Int) = ch) :
      Stores chs p ch chIdOffset [UInt8.ofNat i] { p.video with pc := .put i }

/-- The steps of the video thread that call `FifoUtil_put`. -/
inductive PutsTo (chs : Int) (p : State) : Fin maxGroupNum → SessionElement → VideoPc → Prop where
  | frame {i : Nat} {g : Fin maxGroupNum} (pc : p.video.pc = .put i)
      (at_ : ((i / chsPerSession : Nat) : Int) = g) :
      PutsTo chs p g { p.video.elt with chId := UInt8.ofNat i, buffer := i } (.copy (i + 1))
  | flush {i : Nat} {g : Fin maxGroupNum} (pc : p.video.pc = .flush i) (below : i < groups chs)
      (at_ : (i : Int) = g) : PutsTo chs p g p.video.elt (.flush (i + 1))

/-- The steps of the video thread. -/
inductive VideoSteps (chs : Int) (capacity : Option Nat) (p : State) : Act → State → Prop where
  | leave (pc : p.video.pc = .head) (quit : p.quit = true) :
      VideoSteps chs capacity p .quiet
        { p with video := ⟨.flush 0, { p.video.elt with command := cmdSessionFlush }⟩ }
  | enter (pc : p.video.pc = .head) (quit : p.quit = false) :
      VideoSteps chs capacity p .quiet (p.goto .header)
  | store {ch : Fin maxVideoChannel} {offset asked : Nat} {data : List UInt8} {b : Buffer}
      {memory : Memory} {next : Video} (stores : Stores chs p ch offset data next)
      (held : p.memory.buf ch = some b)
      (stored : memory.buf = (p.memory.setBuf ch (b.store offset data)).buf) :
      VideoSteps chs capacity p (.writes ch offset asked data) { p with memory, video := next }
  | skip {i : Nat} (pc : p.video.pc = .copy i) (below : i < chs) (source : i = sourceChannel.val) :
      VideoSteps chs capacity p .quiet (p.goto (.put i))
  | round {i : Nat} (pc : p.video.pc = .copy i) (ended : ¬ i < chs) :
      VideoSteps chs capacity p .quiet (p.goto .head)
  | put {g : Fin maxGroupNum} {elt : SessionElement} {pc : VideoPc} {ok : Bool}
      {f : Fifo SessionElement} (target : PutsTo chs p g elt pc) (puts : Fifo.Puts capacity (p.fifos g) elt ok f) :
      VideoSteps chs capacity p (if ok then .puts g elt (p.bytes elt) else .putFails g)
        { p.setFifo g f with video := ⟨pc, elt⟩ }
  | flushed {i : Nat} (pc : p.video.pc = .flush i) (ended : ¬ i < groups chs) :
      VideoSteps chs capacity p .quiet (p.goto .done)

theorem putStep_cases {chs : Int} {capacity : Option Nat} {p after : State} {g : Fin maxGroupNum}
    {elt : SessionElement} {pc : VideoPc} {act : Act} (target : PutsTo chs p g elt pc)
    (step : putStep capacity p g elt pc = .next (act, after)) : VideoSteps chs capacity p act after := by
  unfold putStep at step
  split at step
  · cases step
  · cases step
  · rename_i ok f done
    cases step
    exact .put target (Fifo.put_cases done)

theorem videoStep_cases {chs : Int} {capacity : Option Nat} {p after : State} {act : Act}
    (step : videoStep chs capacity p = .next (act, after)) : VideoSteps chs capacity p act after := by
  unfold videoStep at step
  cases pc : p.video.pc with
  | head =>
      rw [pc] at step
      dsimp only at step
      split at step
      · rename_i quit
        cases step
        exact .leave pc quit
      · rename_i working
        cases step
        exact .enter pc (Bool.eq_false_iff.mpr working)
  | header =>
      rw [pc] at step
      dsimp only at step
      split at step
      · cases step
      · rename_i data memory done
        obtain ⟨_, _, b, held, stored⟩ := fread_eq_some done
        split at step
        · rename_i nothing
          cases step
          subst nothing
          exact .store (.fileEnd pc) held ((rewind_buf ..).trans stored)
        · cases step
          exact .store (.header pc) held stored
  | mark =>
      rw [pc] at step
      dsimp only at step
      split at step
      · cases step
      · rename_i memory done
        cases step
        obtain ⟨b, held, same⟩ := write_eq_some done
        exact .store (.mark pc) held (congrArg Memory.buf same)
  | frame =>
      rw [pc] at step
      dsimp only at step
      split at step
      · cases step
      · split at step
        · cases step
        · rename_i data memory done
          obtain ⟨_, fits, b, held, stored⟩ := fread_eq_some done
          split at step
          · rename_i nothing
            cases step
            subst nothing
            exact .store (.noFrame pc) held stored
          · rename_i some_
            cases step
            exact .store (.frame pc some_ (by omega)) held stored
  | copy i =>
      rw [pc] at step
      dsimp only at step
      split at step
      · rename_i below
        split at step
        · cases step
        · rename_i ch at_
          have at' := index?_eq_some.mp at_
          split at step
          · rename_i source
            cases step
            subst source
            exact .skip pc below (Int.ofNat.inj at')
          · rename_i other
            split at step
            · cases step
            · rename_i b source
              split at step
              · cases step
              · rename_i memory done
                cases step
                obtain ⟨target, held, same⟩ := write_eq_some done
                exact .store (.copy pc below at' other source) held (congrArg Memory.buf same)
      · rename_i ended
        cases step
        exact .round pc ended
  | patch i =>
      rw [pc] at step
      dsimp only at step
      split at step
      · cases step
      · rename_i ch at_
        split at step
        · cases step
        · rename_i memory done
          cases step
          obtain ⟨b, held, same⟩ := write_eq_some done
          exact .store (.patch pc (index?_eq_some.mp at_)) held (congrArg Memory.buf same)
  | put i =>
      rw [pc] at step
      dsimp only at step
      split at step
      · cases step
      · rename_i g at_
        exact putStep_cases (.frame pc (index?_eq_some.mp at_)) step
  | flush i =>
      rw [pc] at step
      dsimp only at step
      split at step
      · rename_i below
        split at step
        · cases step
        · rename_i g at_
          exact putStep_cases (.flush pc below (index?_eq_some.mp at_)) step
      · rename_i ended
        cases step
        exact .flushed pc ended
  | done =>
      rw [pc] at step
      cases step

/-- The steps of a sub-session thread. -/
inductive ReaderSteps (g : Fin maxGroupNum) (p : State) : Act → State → Prop where
  | leave (at_ : p.readers g = .head) (quit : p.quit = true) :
      ReaderSteps g p (.leaves g) (p.setReader g .exited)
  | enter (at_ : p.readers g = .head) (quit : p.quit = false) :
      ReaderSteps g p .quiet (p.setReader g .get)
  | get {e : SessionElement} {rest : List SessionElement} (at_ : p.readers g = .get)
      (open_ : (p.fifos g).closed = false) (queue : (p.fifos g).queue = e :: rest) :
      ReaderSteps g p (.gets g e) ((p.setFifo g ⟨rest, (p.fifos g).closed⟩).setReader g (.got e))
  | fail (at_ : p.readers g = .get) (closed : (p.fifos g).closed = true) :
      ReaderSteps g p (.getFails g) (p.setReader g .exited)
  | flush {e : SessionElement} (at_ : p.readers g = .got e) (command : e.command = cmdSessionFlush) :
      ReaderSteps g p .quiet (p.setReader g .exited)
  | send {e : SessionElement} (at_ : p.readers g = .got e) (command : e.command ≠ cmdSessionFlush) :
      ReaderSteps g p (.sends g e (p.bytes e)) (p.setReader g .head)

theorem readerStep_cases {g : Fin maxGroupNum} {p after : State} {act : Act}
    (step : readerStep g p = .next (act, after)) : ReaderSteps g p act after := by
  unfold readerStep at step
  cases at_ : p.readers g with
  | head =>
      rw [at_] at step
      dsimp only at step
      split at step
      · rename_i quit
        cases step
        exact .leave at_ quit
      · rename_i working
        cases step
        exact .enter at_ (Bool.eq_false_iff.mpr working)
  | get =>
      rw [at_] at step
      dsimp only at step
      split at step
      · cases step
      · cases step
      · rename_i f done
        cases step
        cases Fifo.get_cases done with
        | closed closed => exact .fail at_ closed
      · rename_i e f done
        cases step
        cases Fifo.get_cases done with
        | got open_ queue => exact .get at_ open_ queue
  | got e =>
      rw [at_] at step
      dsimp only at step
      split at step
      · rename_i command
        cases step
        exact .flush at_ command
      · rename_i command
        cases step
        exact .send at_ command
  | exited =>
      rw [at_] at step
      cases step

/-- The steps of the session thread. -/
inductive SessionSteps (chs : Int) (p : State) : Act → State → Prop where
  | join {i : Nat} {g : Fin maxGroupNum} (at_ : p.session = .join i) (below : i < groups chs)
      (group : (i : Int) = g) (exited : p.readers g = .exited) :
      SessionSteps chs p .quiet { p with session := .join (i + 1) }
  | joined {i : Nat} (at_ : p.session = .join i) (ended : ¬ i < groups chs) :
      SessionSteps chs p .quiet { p with session := .clients }
  | delete (at_ : p.session = .clients) : SessionSteps chs p .quiet { p with session := .close 0 }
  | close {i : Nat} {g : Fin maxGroupNum} (at_ : p.session = .close i) (below : i < groups chs)
      (group : (i : Int) = g) :
      SessionSteps chs p (.closes g)
        { p.setFifo g ⟨(p.fifos g).queue, true⟩ with session := .close (i + 1) }
  | closed {i : Nat} (at_ : p.session = .close i) (ended : ¬ i < groups chs) :
      SessionSteps chs p .quiet { p with session := .done }

theorem sessionStep_cases {chs : Int} {p after : State} {act : Act}
    (step : sessionStep chs p = .next (act, after)) : SessionSteps chs p act after := by
  unfold sessionStep at step
  cases at_ : p.session with
  | join i =>
      rw [at_] at step
      dsimp only at step
      split at step
      · rename_i below
        split at step
        · cases step
        · rename_i g group
          split at step
          · rename_i exited
            cases step
            exact .join at_ below (index?_eq_some.mp group) exited
          · cases step
      · rename_i ended
        cases step
        exact .joined at_ ended
  | clients =>
      rw [at_] at step
      cases step
      exact .delete at_
  | close i =>
      rw [at_] at step
      dsimp only at step
      split at step
      · rename_i below
        split at step
        · cases step
        · rename_i g group
          cases step
          exact .close at_ below (index?_eq_some.mp group)
      · rename_i ended
        cases step
        exact .closed at_ ended
  | done =>
      rw [at_] at step
      cases step

/-- The steps of all threads. -/
inductive Steps (chs : Int) (capacity : Option Nat) (p : State) : Mover × Act → State → Prop where
  | video {act : Act} {after : State} (steps : VideoSteps chs capacity p act after) :
      Steps chs capacity p (.video, act) after
  | reader {g : Fin maxGroupNum} {act : Act} {after : State} (below : g.val < groups chs)
      (steps : ReaderSteps g p act after) : Steps chs capacity p (.reader g, act) after
  | session {act : Act} {after : State} (steps : SessionSteps chs p act after) :
      Steps chs capacity p (.session, act) after
  | main (working : p.quit = false) : Steps chs capacity p (.main, .quits) { p with quit := true }

theorem pipelineExec_cases {chs : Int} {capacity : Option Nat} {p after : State}
    {event : Mover × Act} (step : ExecStep (pipelineExec chs capacity) p event after) :
    Steps chs capacity p event after := by
  obtain ⟨mover, act⟩ := event
  have taken := Outcome.toOption_eq_some.mp step
  cases mover with
  | video => exact .video (videoStep_cases taken)
  | reader g =>
      rw [pipelineStep] at taken
      split at taken
      · rename_i below
        exact .reader below (readerStep_cases taken)
      · cases taken
  | session => exact .session (sessionStep_cases taken)
  | main =>
      rw [pipelineStep] at taken
      split at taken
      · cases taken
      · rename_i working
        cases taken
        exact .main (Bool.eq_false_iff.mpr working)

end DvsServer.Core.Pipeline
