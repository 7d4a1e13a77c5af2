import DvsServer.Core.Encoder

/-!
# The encoder thread replays its file (`core/src/videoEncode.c`)

A well-formed file is a list of frames.  Each iteration of the loop puts the next
frame for every channel; the iteration that finds the end of the file puts nothing
and goes back to the first frame.
-/

namespace DvsServer.Core.Encoder

open DvsServer.Lib DvsServer.Com.RtpSend DvsServer.Core.Session DvsServer.Core.VideoEncode

/-- A frame of the file: a header and the payload its field `len` tells the length of. -/
structure EncodedFrame where
  header : List UInt8
  data : List UInt8
  header_length : header.length = frameHeaderLen
  data_some : 1 ≤ data.length
  data_fits : data.length ≤ maxVideoBufferLen - frameHeaderLen
  len : (lenField header).toNat = data.length

namespace EncodedFrame

def bytes (frame : EncodedFrame) : List UInt8 := frame.header ++ frame.data

/-- The element that is put for channel `i`. -/
def element (frame : EncodedFrame) (i : Nat) : SessionElement where
  command := cmdSessionBuffer
  chId := UInt8.ofNat i
  dataType := sessionTypeVideo.toUInt8
  buffer := i
  len := UInt32.ofNat (frame.data.length + frameHeaderLen)

/-- The frame's bytes with the header's `chId` replaced go to the FIFO of the channel's group. -/
def put (frame : EncodedFrame) (i : Nat) : Put where
  fifo := i / chsPerSession
  element := frame.element i
  bytes := frame.bytes.set chIdOffset (UInt8.ofNat i)

/-- The frame is put for all channels in their order. -/
def round (chs : Int) (frame : EncodedFrame) : List Put := (List.range chs.toNat).map frame.put

theorem bytes_length (frame : EncodedFrame) :
    frame.bytes.length = frameHeaderLen + frame.data.length := by
  rw [bytes, List.length_append, frame.header_length]

theorem bytes_fit (frame : EncodedFrame) :
    frameHeaderLen + frame.data.length ≤ maxVideoBufferLen := by
  have fits := frame.data_fits
  have room : frameHeaderLen ≤ maxVideoBufferLen := by decide
  omega

/-! ## A frame at the file's position -/

variable (frame : EncodedFrame) (later : List UInt8)

theorem lenField_bytes : lenField (frame.bytes ++ later) = lenField frame.header := by
  apply lenField_congr
  intro k _ upTo
  have inHeader : k < frame.header.length := by
    rw [frame.header_length]
    change k < 20
    change k < 16 at upTo
    omega
  rw [bytes, List.append_assoc, List.getElem?_append_left inHeader]

/-- The second `fread` asks for the payload. -/
theorem payloadSize_bytes (b : Buffer) :
    payloadSize (marked b (frame.bytes ++ later)) = frame.data.length := by
  have whole : frameHeaderLen ≤ (frame.bytes ++ later).length := by
    rw [List.length_append, frame.bytes_length]
    omega
  have value : (marked b (frame.bytes ++ later)).headerLen.toNat = frame.data.length := by
    rw [marked_headerLen whole, frame.lenField_bytes, frame.len]
  have fits := frame.data_fits
  have small : (marked b (frame.bytes ++ later)).headerLen.toNat < 2 ^ 31 := by
    rw [value]
    change frame.data.length ≤ 999980 at fits
    omega
  rw [payloadSize_small small, value]

theorem payload_bytes (b : Buffer) : payload b (frame.bytes ++ later) = frame.data := by
  have behind : (frame.bytes ++ later).drop frameHeaderLen = frame.data ++ later := by
    rw [bytes, List.append_assoc, ← frame.header_length, List.drop_left]
  rw [payload, frame.payloadSize_bytes, behind, List.take_left]

/-- What the encoder puts for a channel. -/
theorem framePut_eq {elt : SessionElement} (command : elt.command = cmdSessionBuffer)
    (dataType : elt.dataType = sessionTypeVideo.toUInt8) (b : Buffer) (i : Nat) :
    framePut (withLen elt frame.data.length) (frameBuffer b (frame.bytes ++ later)) i =
      frame.put i := by
  have whole : frameHeaderLen ≤ (frame.bytes ++ later).length := by
    rw [List.length_append, frame.bytes_length]
    omega
  have fits : frameHeaderLen + (payload b (frame.bytes ++ later)).length ≤ maxVideoBufferLen := by
    rw [frame.payload_bytes]
    exact frame.bytes_fit
  have bytes_ := framePut_bytes elt i whole fits
  rw [frame.payload_bytes, ← frame.bytes_length, List.take_left] at bytes_
  have element_ : (framePut (withLen elt frame.data.length) (frameBuffer b (frame.bytes ++ later))
      i).element = frame.element i := by
    rw [framePut, withLen, element, command, dataType]
  rw [put, ← bytes_, ← element_]
  rfl

end EncodedFrame

/-! ## The file -/

/-- The content of a file of frames. -/
def fileOf (frames : List EncodedFrame) : List UInt8 := frames.flatMap EncodedFrame.bytes

/-- The position behind the first `j` frames. -/
def startOf (frames : List EncodedFrame) (j : Nat) : Nat := (fileOf (frames.take j)).length

theorem fileOf_drop (frames : List EncodedFrame) (j : Nat) :
    (fileOf frames).drop (startOf frames j) = fileOf (frames.drop j) := by
  have split_ : fileOf frames = fileOf (frames.take j) ++ fileOf (frames.drop j) := by
    rw [fileOf, fileOf, fileOf, ← List.flatMap_append, List.take_append_drop]
  rw [startOf, split_, List.drop_left]

theorem fileOf_at {frames : List EncodedFrame} {j : Nat} (inside : j < frames.length) :
    (fileOf frames).drop (startOf frames j) = frames[j].bytes ++ fileOf (frames.drop (j + 1)) := by
  rw [fileOf_drop, List.drop_eq_getElem_cons inside, fileOf, List.flatMap_cons, fileOf]

theorem fileOf_end (frames : List EncodedFrame) :
    (fileOf frames).drop (startOf frames frames.length) = [] := by
  rw [fileOf_drop, List.drop_length]
  rfl

theorem startOf_succ {frames : List EncodedFrame} {j : Nat} (inside : j < frames.length) :
    startOf frames (j + 1) = startOf frames j + frames[j].bytes.length := by
  rw [startOf, startOf, fileOf, fileOf, List.take_succ_eq_append_getElem inside, List.flatMap_append,
    List.length_append, List.flatMap_singleton]

/-! ## One iteration -/

/-- The thread stands before frame `j`. -/
structure Before (chs : Int) (frames : List EncodedFrame) (j : Nat) (s : VideoThr) : Prop where
  memory : ∃ b, Ready chs (fileOf frames) (startOf frames j) b s.memory
  command : s.elt.command = cmdSessionBuffer
  dataType : s.elt.dataType = sessionTypeVideo.toUInt8

namespace Before

variable {chs : Int} {frames : List EncodedFrame} {j : Nat} {s : VideoThr}

theorem iteration_frame (before : Before chs frames j s) (bound : chs ≤ maxVideoChannel)
    (inside : j < frames.length) :
    ∃ next, iteration chs s = some (frames[j].round chs, next) ∧ Before chs frames (j + 1) next := by
  obtain ⟨b, ready⟩ := before.memory
  have rest := fileOf_at inside
  have read := frames[j].payload_bytes (fileOf (frames.drop (j + 1))) b
  rw [← rest] at read
  have some_ : payload b ((fileOf frames).drop (startOf frames j)) ≠ [] := by
    rw [read]
    exact List.length_pos_iff.mp frames[j].data_some
  obtain ⟨next, done, stored, command, dataType⟩ := ready.iteration_round bound some_ (by
    rw [read]
    exact frames[j].bytes_fit)
  rw [read, rest] at done stored
  have header : ((frames[j].bytes ++ fileOf (frames.drop (j + 1))).take frameHeaderLen).length =
      frameHeaderLen := by
    rw [List.length_take, List.length_append, frames[j].bytes_length]
    omega
  have behind : startOf frames j + frameHeaderLen + frames[j].data.length =
      startOf frames (j + 1) := by
    rw [startOf_succ inside, frames[j].bytes_length, Nat.add_assoc]
  rw [header, behind] at stored
  have each : framePut (withLen s.elt frames[j].data.length)
      (frameBuffer b (frames[j].bytes ++ fileOf (frames.drop (j + 1)))) = frames[j].put := by
    funext i
    exact frames[j].framePut_eq _ before.command before.dataType b i
  refine ⟨next, ?_, ⟨_, stored⟩, command.trans before.command, dataType.trans before.dataType⟩
  rw [done, frameRound, each, EncodedFrame.round]

theorem iteration_rewinds (before : Before chs frames frames.length s) :
    ∃ next, iteration chs s = some ([], next) ∧ Before chs frames 0 next := by
  obtain ⟨b, ready⟩ := before.memory
  obtain ⟨next, done, rewound, kept⟩ := ready.iteration_end (fileOf_end frames)
  refine ⟨next, done, ⟨b, rewound⟩, ?_, ?_⟩
  · rw [kept]
    exact before.command
  · rw [kept]
    exact before.dataType

end Before

theorem Starts.before {chs : Int} {frames : List EncodedFrame} {s : VideoThr}
    (starts : Starts chs (fileOf frames) s) (source : sourceChannel < chs) :
    Before chs frames 0 s :=
  ⟨starts.ready source, starts.command, starts.dataType⟩

/-! ## The run -/

theorem cyclic_lt {frames : List EncodedFrame} (some_ : frames ≠ []) (r : Nat) :
    r % frames.length < frames.length :=
  Nat.mod_lt r (List.length_pos_iff.mpr some_)

/-- The `r`-th frame when the file is repeated. -/
def cyclicFrame (frames : List EncodedFrame) (some_ : frames ≠ []) (r : Nat) : EncodedFrame :=
  frames.get ⟨r % frames.length, cyclic_lt some_ r⟩

/-- The first rounds. -/
def replay (chs : Int) (frames : List EncodedFrame) (some_ : frames ≠ []) (rounds : Nat) :
    List Put :=
  (List.range rounds).flatMap fun r => (cyclicFrame frames some_ r).round chs

/-- The rounds among the first `k` iterations: one iteration in each pass finds the end of
the file of `frameNum` frames. -/
def roundsIn (frameNum k : Nat) : Nat := k - k / (frameNum + 1)

theorem roundsIn_at {frameNum pass j : Nat} (inside : j ≤ frameNum) :
    roundsIn frameNum (pass * (frameNum + 1) + j) = pass * frameNum + j := by
  have passes : (pass * (frameNum + 1) + j) / (frameNum + 1) = pass := by
    rw [Nat.mul_comm, Nat.mul_add_div (Nat.succ_pos frameNum),
      Nat.div_eq_of_lt (Nat.lt_succ_of_le inside), Nat.add_zero]
  rw [roundsIn, passes, Nat.mul_succ]
  omega

theorem replay_succ {chs : Int} {frames : List EncodedFrame} {some_ : frames ≠ []}
    {pass j : Nat} (inside : j < frames.length) :
    replay chs frames some_ (pass * frames.length + (j + 1)) =
      replay chs frames some_ (pass * frames.length + j) ++ frames[j].round chs := by
  have next : cyclicFrame frames some_ (pass * frames.length + j) = frames[j] := by
    have index : (pass * frames.length + j) % frames.length = j := by
      rw [Nat.mul_add_mod', Nat.mod_eq_of_lt inside]
    simp only [cyclicFrame, index, List.get_eq_getElem]
  rw [replay, ← Nat.add_assoc, List.range_succ, List.flatMap_append, List.flatMap_singleton, next,
    ← replay]

/-- After `j` frames of a pass everything put so far is the replay of that many frames. -/
theorem Before.replays {chs : Int} (bound : chs ≤ maxVideoChannel) {frames : List EncodedFrame}
    (some_ : frames ≠ []) {start : VideoThr} (first : Before chs frames 0 start) (k : Nat) :
    ∃ pass j last, k = pass * (frames.length + 1) + j ∧ j ≤ frames.length ∧
      iterations chs k start = some (replay chs frames some_ (pass * frames.length + j), last) ∧
      Before chs frames j last := by
  induction k with
  | zero =>
      refine ⟨0, 0, start, by omega, Nat.zero_le _, ?_, first⟩
      rw [Nat.zero_mul]
      rfl
  | succ k ih =>
      obtain ⟨pass, j, s, count, upTo, run, before⟩ := ih
      rw [iterations, run, Option.bind_some]
      dsimp only
      rcases Nat.lt_or_eq_of_le upTo with inside | ended
      · obtain ⟨next, done, moved⟩ := before.iteration_frame bound inside
        refine ⟨pass, j + 1, next, by omega, inside, ?_, moved⟩
        rw [done, Option.map_some, replay_succ inside]
      · subst ended
        obtain ⟨next, done, rewound⟩ := before.iteration_rewinds
        refine ⟨pass + 1, 0, next, ?_, Nat.zero_le _, ?_, rewound⟩
        · rw [count, Nat.succ_mul]
          omega
        · rw [done, Option.map_some, List.append_nil, Nat.succ_mul, Nat.add_zero]

/-- The encoder thread replays a well-formed file exactly. -/
theorem replays_file {chs : Int} (positive : 0 < chs) (bound : chs ≤ maxVideoChannel)
    (whole : chs % chsPerSession = 0) {frames : List EncodedFrame} (some_ : frames ≠ [])
    {start : VideoThr} (starts : Starts chs (fileOf frames) start) (k : Nat) :
    ∃ last, iterations chs k start =
      some (replay chs frames some_ (roundsIn frames.length k), last) := by
  have source : (sourceChannel : Int) < chs := by
    change (2 : Int) < chs
    change chs % 4 = 0 at whole
    omega
  obtain ⟨pass, j, last, count, upTo, run, _⟩ :=
    Before.replays bound some_ (starts.before source) k
  refine ⟨last, ?_⟩
  rw [run, count, roundsIn_at upTo]

/-! ## A file of two frames -/

/-- A header that announces one byte. -/
def shortHeader : List UInt8 := cmdHeaderStr ++ [2, 0, 1, 0, 0, 0, 0, 0, 0, 0]

theorem shortHeader_length : shortHeader.length = frameHeaderLen := rfl

theorem shortHeader_len (v : UInt8) : (lenField shortHeader).toNat = [v].length := rfl

theorem short_some (v : UInt8) : 1 ≤ [v].length := Nat.le_refl 1

theorem short_fits (v : UInt8) : [v].length ≤ maxVideoBufferLen - frameHeaderLen := by
  change 1 ≤ maxVideoBufferLen - frameHeaderLen
  decide

def oneByteFrame (v : UInt8) : EncodedFrame :=
  ⟨shortHeader, [v], shortHeader_length, short_some v, short_fits v, shortHeader_len v⟩

/-- The third iteration rewinds the file and the fourth puts the first frame again. -/
theorem replays_file_twice : ∃ start last,
    Starts 4 (fileOf [oneByteFrame 7, oneByteFrame 9]) start ∧
      iterations 4 4 start = some ((oneByteFrame 7).round 4 ++ (oneByteFrame 9).round 4 ++
        (oneByteFrame 7).round 4, last) := by
  have chs : (4 : Int) ≤ maxVideoChannel := by decide
  obtain ⟨start, starts⟩ := exists_starts chs (fileOf [oneByteFrame 7, oneByteFrame 9])
  obtain ⟨last, run⟩ := replays_file (by decide) chs (by decide) (List.cons_ne_nil _ _) starts 4
  exact ⟨start, last, starts, run⟩

end DvsServer.Core.Encoder
