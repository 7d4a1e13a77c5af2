import DvsServer.Core.VideoEncode

/-!
# The encoder thread (`core/src/videoEncode.c`)

`videoEncodeThrFxn` as a function of its buffers and files, one iteration of its
loop at a time.  The elements it puts are listed with the bytes they point to at
the moment of the put.
-/

namespace DvsServer.Core.Encoder

open DvsServer.Lib DvsServer.Com.RtpSend DvsServer.Core.Session DvsServer.Core.VideoEncode

/-- A call of `FifoUtil_put` on `g_NetSessionFifos[fifo]`. -/
structure Put where
  fifo : Nat
  element : SessionElement
  bytes : List UInt8
deriving DecidableEq

/-- The buffers and files with the variable `s_elt`. -/
structure VideoThr where
  memory : Memory
  elt : SessionElement

/-! ## Set up -/

/-- The loop of `videoEncodeInit` from channel `i` with `k` channels left; `malloc` and
`fopen` tell what the calls for each channel yield. -/
def initLoop (malloc : Fin maxVideoChannel → Option Buffer)
    (fopen : Fin maxVideoChannel → Option (List UInt8)) : Nat → Nat → Memory → Option (Int × Memory)
  | 0, _, m => some (0, m)
  | k + 1, i, m =>
      (index? maxVideoChannel i).bind fun ch =>
        let m := { m with buf := Function.update m.buf ch (malloc ch) }
        if (malloc ch).isNone then some (-1, m)
        else
          -- a file that cannot be opened leaves a null pointer
          let file := (fopen ch).map fun content => ⟨content, 0⟩
          initLoop malloc fopen k (i + 1) { m with fp := Function.update m.fp ch file }

def videoEncodeInit (chs : Int) (malloc : Fin maxVideoChannel → Option Buffer)
    (fopen : Fin maxVideoChannel → Option (List UInt8)) (m : Memory) : Option (Int × Memory) :=
  initLoop malloc fopen chs.toNat 0 m

/-! ## One iteration -/

/-- The first `fread` of `readEncodedFrameInFile` and the store behind it; no value when
the file has ended. -/
def readHeader (m : Memory) (chId : Fin maxVideoChannel) : Option (Option Buffer × Memory) :=
  (m.fread chId 0 frameHeaderLen).bind fun (header, m) =>
    if header = [] then some (none, m.rewind chId)
    else
      (m.write chId chIdOffset [UInt8.ofNat chId]).bind fun m =>
        (m.buf chId).map fun b => (some b, m)

/-- The size the second `fread` is given. -/
def payloadSize (b : Buffer) : Nat := sizeOfInt b.headerLen.toInt32

/-- `readEncodedFrameInFile(video_file_fp[chId], chId)` -/
def readEncodedFrameInFile (m : Memory) (chId : Fin maxVideoChannel) : Option (Int × Memory) :=
  (readHeader m chId).bind fun (header, m) =>
    header.elim (some (0, m)) fun b =>
      (m.fread chId frameHeaderLen (payloadSize b)).map fun (data, m) => (data.length, m)

/-- The source channel's buffer is copied to channel `i` and its `chId` replaced. -/
def copyFrame (i : Nat) (len : UInt32) (m : Memory) : Option Memory :=
  (index? maxVideoChannel i).bind fun ch =>
    if ch = sourceChannel then some m
    else
      (m.buf sourceChannel).bind fun b =>
        (m.write ch 0 (b.take len.toNat)).bind fun m => m.write ch chIdOffset [UInt8.ofNat i]

/-- The `for` loop, from channel `i` with `k` channels left. -/
def putFrames : Nat → Nat → VideoThr → Option (List Put × VideoThr)
  | 0, _, s => some ([], s)
  | k + 1, i, s =>
      (copyFrame i s.elt.len s.memory).bind fun memory =>
        (index? maxGroupNum (i / chsPerSession : Nat)).bind fun g =>
          let elt := { s.elt with chId := UInt8.ofNat i, buffer := i }
          (putFrames k (i + 1) ⟨memory, elt⟩).map fun (puts, last) =>
            (⟨g, elt, memory.bytes i elt.len.toNat⟩ :: puts, last)

/-- One iteration of the `while` loop. -/
def iteration (chs : Int) (s : VideoThr) : Option (List Put × VideoThr) :=
  (readEncodedFrameInFile s.memory sourceChannel).bind fun (frameLen, memory) =>
    if frameLen ≤ 0 then some ([], { s with memory })
    else
      putFrames chs.toNat 0
        ⟨memory, { s.elt with len := UInt32.ofNat (frameLen.toNat + frameHeaderLen) }⟩

/-- The first iterations, with all they put. -/
def iterations (chs : Int) : Nat → VideoThr → Option (List Put × VideoThr)
  | 0, s => some ([], s)
  | n + 1, s =>
      (iterations chs n s).bind fun (puts, s) =>
        (iteration chs s).map fun (round, s) => (puts ++ round, s)

/-- The thread at the loop: `videoEncodeInit` has succeeded and `s_elt` has been set up. -/
structure Starts (chs : Int) (content : List UInt8) (s : VideoThr) : Prop where
  init : ∃ malloc fopen before, videoEncodeInit chs malloc fopen before = some (0, s.memory) ∧
    fopen sourceChannel = some content
  command : s.elt.command = cmdSessionBuffer
  dataType : s.elt.dataType = sessionTypeVideo.toUInt8

/-! ## Buffers -/

/-- A store at the end of a prefix. -/
theorem take_store_append (b : Buffer) (offset : Nat) (data : List UInt8) :
    (b.store offset data).take (offset + data.length) = b.take offset ++ data := by
  apply List.ext_getElem?
  intro k
  by_cases before : k < offset
  · rw [List.getElem?_append_left (by rw [take_length]; exact before), take_getElem? _ before,
      take_getElem? _ (by omega), store_before before]
  · obtain ⟨j, rfl⟩ := Nat.exists_eq_add_of_le (Nat.le_of_not_lt before)
    rw [List.getElem?_append_right (by rw [take_length]; omega), take_length, Nat.add_sub_cancel_left]
    by_cases below : j < data.length
    · rw [take_getElem? _ (by omega), store_at below, List.getElem?_eq_getElem below]
    · rw [List.getElem?_eq_none (by rw [take_length]; omega), List.getElem?_eq_none (by omega)]

theorem take_store (b : Buffer) (data : List UInt8) : (b.store 0 data).take data.length = data := by
  have stored := take_store_append b 0 data
  rw [Nat.zero_add] at stored
  exact stored

/-- Storing one byte inside a prefix. -/
theorem take_store_one (b : Buffer) (len offset : Nat) (v : UInt8) :
    (b.store offset [v]).take len = (b.take len).set offset v := by
  apply List.ext_getElem?
  intro k
  rw [List.getElem?_set]
  by_cases below : k < len
  · rw [take_getElem? _ below, take_getElem? _ below]
    by_cases here : offset = k
    · subst here
      have stored : b.store offset [v] (offset + 0) = [v][0] := store_at Nat.one_pos
      rw [Nat.add_zero] at stored
      simp [stored, below]
    · rw [if_neg here]
      rcases Nat.lt_or_gt_of_ne here with after | before
      · rw [store_after (show offset + [v].length ≤ k from after)]
      · rw [store_before before]
  · rw [List.getElem?_eq_none (by rw [take_length]; omega),
      List.getElem?_eq_none (by rw [take_length]; omega), take_length]
    split
    · rw [if_neg (by omega)]
    · rfl

theorem take_set_own (b : Buffer) (len offset : Nat) :
    (b.take len).set offset (b offset) = b.take len := by
  apply List.ext_getElem?
  intro k
  rw [List.getElem?_set, take_length]
  by_cases here : offset = k
  · subst here
    by_cases short : offset < len
    · rw [if_pos rfl, if_pos short, take_getElem? b short]
    · rw [if_pos rfl, if_neg short, List.getElem?_eq_none (by rw [take_length]; omega)]
  · rw [if_neg here]

theorem bytes_of_buf {m : Memory} {i len : Nat} {b : Buffer} (inside : i < maxVideoChannel)
    (held : m.buf ⟨i, inside⟩ = some b) : m.bytes i len = b.take len := by
  have found : index? maxVideoChannel i = some ⟨i, inside⟩ := index?_eq_some.mpr rfl
  rw [Memory.bytes, found]
  dsimp only
  rw [held]

/-! ## What the calls do -/

/-- The source channel's buffer after the header has been read and marked. -/
def marked (b : Buffer) (rest : List UInt8) : Buffer :=
  (b.store 0 (rest.take frameHeaderLen)).store chIdOffset [UInt8.ofNat sourceChannel]

/-- The file's bytes that the second `fread` reads. -/
def payload (b : Buffer) (rest : List UInt8) : List UInt8 :=
  (rest.drop frameHeaderLen).take (payloadSize (marked b rest))

/-- The source channel's buffer after both reads. -/
def frameBuffer (b : Buffer) (rest : List UInt8) : Buffer :=
  (marked b rest).store frameHeaderLen (payload b rest)

/-- The put for channel `i` of the frame in buffer `b`. -/
def framePut (elt : SessionElement) (b : Buffer) (i : Nat) : Put :=
  ⟨i / chsPerSession, { elt with chId := UInt8.ofNat i, buffer := i },
    (b.take elt.len.toNat).set chIdOffset (UInt8.ofNat i)⟩

/-- `s_elt.len = frame_len + FRAME_HEADER_LEN` -/
def withLen (elt : SessionElement) (frameLen : Nat) : SessionElement :=
  { elt with len := UInt32.ofNat (frameLen + frameHeaderLen) }

/-- A round of puts. -/
def frameRound (chs : Int) (elt : SessionElement) (b : Buffer) : List Put :=
  (List.range chs.toNat).map (framePut elt b)

theorem withLen_len {frameLen : Nat} (fits : frameHeaderLen + frameLen ≤ maxVideoBufferLen)
    (elt : SessionElement) : (withLen elt frameLen).len.toNat = frameLen + frameHeaderLen := by
  have small : maxVideoBufferLen < 2 ^ 32 := by decide
  apply UInt32.toNat_ofNat_of_lt'
  change frameLen + frameHeaderLen < 2 ^ 32
  omega

@[simp] theorem withLen_command (elt : SessionElement) (frameLen : Nat) :
    (withLen elt frameLen).command = elt.command := rfl

@[simp] theorem withLen_dataType (elt : SessionElement) (frameLen : Nat) :
    (withLen elt frameLen).dataType = elt.dataType := rfl

theorem marked_chId (b : Buffer) (rest : List UInt8) :
    marked b rest chIdOffset = UInt8.ofNat sourceChannel := by
  have stored : marked b rest (chIdOffset + 0) = [UInt8.ofNat sourceChannel][0] :=
    store_at Nat.one_pos
  exact stored

theorem frameBuffer_chId (b : Buffer) (rest : List UInt8) :
    frameBuffer b rest chIdOffset = UInt8.ofNat sourceChannel := by
  rw [frameBuffer, store_before (by decide), marked_chId]

theorem iteration_read {chs : Int} {s : VideoThr} {frameLen : Nat} {memory : Memory}
    (read : readEncodedFrameInFile s.memory sourceChannel = some ((frameLen : Int), memory))
    (positive : 0 < frameLen) :
    iteration chs s = putFrames chs.toNat 0 ⟨memory, withLen s.elt frameLen⟩ := by
  have more : ¬ (frameLen : Int) ≤ 0 := by omega
  rw [iteration, read, Option.bind_some]
  dsimp only
  rw [if_neg more, Int.toNat_natCast, withLen]

/-- Every channel has its buffer, the source channel's holds `b`, and its file stands
at `pos`. -/
structure Ready (chs : Int) (content : List UInt8) (pos : Nat) (b : Buffer) (m : Memory) : Prop where
  bufs : ∀ ch : Fin maxVideoChannel, (ch : Int) < chs → ∃ b, m.buf ch = some b
  source : m.buf sourceChannel = some b
  file : m.fp sourceChannel = some ⟨content, pos⟩

namespace Ready

variable {chs : Int} {content : List UInt8} {pos : Nat} {b : Buffer} {m : Memory}

theorem setBuf_source (ready : Ready chs content pos b m) (b' : Buffer) :
    Ready chs content pos b' (m.setBuf sourceChannel b') := by
  refine ⟨fun ch below => ?_, setBuf_self m sourceChannel b', ready.file⟩
  by_cases same : ch = sourceChannel
  · exact ⟨b', same ▸ setBuf_self m sourceChannel b'⟩
  · rw [setBuf_ne same]
    exact ready.bufs ch below

theorem setBuf_other (ready : Ready chs content pos b m) {ch : Fin maxVideoChannel}
    (other : ch ≠ sourceChannel) (b' : Buffer) : Ready chs content pos b (m.setBuf ch b') := by
  refine ⟨fun d below => ?_, ?_, ready.file⟩
  · by_cases same : d = ch
    · exact ⟨b', same ▸ setBuf_self m ch b'⟩
    · rw [setBuf_ne same]
      exact ready.bufs d below
  · rw [setBuf_ne (Ne.symm other)]
    exact ready.source

theorem seek (ready : Ready chs content pos b m) (pos' : Nat) :
    Ready chs content pos' b (m.setFile sourceChannel ⟨content, pos'⟩) := by
  refine ⟨ready.bufs, ready.source, ?_⟩
  rw [Memory.setFile]
  exact Function.update_self sourceChannel _ m.fp

theorem write_source (ready : Ready chs content pos b m) (offset : Nat) (data : List UInt8)
    (fits : offset + data.length ≤ maxVideoBufferLen) :
    ∃ after, m.write sourceChannel offset data = some after ∧
      Ready chs content pos (b.store offset data) after := by
  refine ⟨m.setBuf sourceChannel (b.store offset data), ?_, ready.setBuf_source _⟩
  rw [Memory.write, ready.source]
  exact if_pos fits

theorem rewind (ready : Ready chs content pos b m) :
    Ready chs content 0 b (m.rewind sourceChannel) := by
  rw [Memory.rewind, ready.file]
  exact ready.seek 0

/-- A `fread` stores what the file still has, up to the size asked for. -/
theorem fread (ready : Ready chs content pos b m) (offset asked : Nat)
    (fits : offset + ((content.drop pos).take asked).length ≤ maxVideoBufferLen) :
    ∃ after, m.fread sourceChannel offset asked = some ((content.drop pos).take asked, after) ∧
      Ready chs content (pos + ((content.drop pos).take asked).length)
        (b.store offset ((content.drop pos).take asked)) after := by
  obtain ⟨between, wrote, stored⟩ := ready.write_source offset _ fits
  refine ⟨_, ?_, stored.seek _⟩
  rw [Memory.fread, ready.file]
  dsimp only
  rw [wrote]

theorem fread_overflows (ready : Ready chs content pos b m) (offset asked : Nat)
    (overflows : ¬ offset + ((content.drop pos).take asked).length ≤ maxVideoBufferLen) :
    m.fread sourceChannel offset asked = none := by
  rw [Memory.fread, ready.file]
  dsimp only
  rw [Memory.write, ready.source]
  dsimp only
  rw [if_neg overflows]

theorem readHeader_end (ready : Ready chs content pos b m) (ended : content.drop pos = []) :
    ∃ after, readHeader m sourceChannel = some (none, after) ∧ Ready chs content 0 b after := by
  have nothing : (content.drop pos).take frameHeaderLen = [] := by rw [ended, List.take_nil]
  obtain ⟨after, read, stored⟩ := ready.fread 0 frameHeaderLen (by
    rw [nothing]
    exact Nat.zero_le _)
  rw [nothing] at read stored
  rw [store_nil] at stored
  refine ⟨after.rewind sourceChannel, ?_, stored.rewind⟩
  rw [readHeader, read]
  rfl

theorem readHeader_some (ready : Ready chs content pos b m) (more : content.drop pos ≠ []) :
    ∃ after, readHeader m sourceChannel = some (some (marked b (content.drop pos)), after) ∧
      Ready chs content (pos + ((content.drop pos).take frameHeaderLen).length)
        (marked b (content.drop pos)) after := by
  have short : ((content.drop pos).take frameHeaderLen).length ≤ frameHeaderLen :=
    List.length_take_le _ _
  have room : frameHeaderLen ≤ maxVideoBufferLen := by decide
  obtain ⟨between, read, stored⟩ := ready.fread 0 frameHeaderLen (by omega)
  obtain ⟨after, wrote, marked_⟩ := stored.write_source chIdOffset [UInt8.ofNat sourceChannel]
    (by decide)
  have some_ : (content.drop pos).take frameHeaderLen ≠ [] := by
    simpa [frameHeaderLen] using more
  refine ⟨after, ?_, marked_⟩
  rw [readHeader, read, Option.bind_some]
  dsimp only
  rw [if_neg some_, wrote, Option.bind_some, marked_.source]
  rfl

/-- A short header leaves nothing behind it. -/
theorem drop_header : content.drop (pos + ((content.drop pos).take frameHeaderLen).length) =
    (content.drop pos).drop frameHeaderLen := by
  rw [← List.drop_drop, List.length_take]
  by_cases whole : frameHeaderLen ≤ (content.drop pos).length
  · rw [Nat.min_eq_left whole]
  · rw [Nat.min_eq_right (by omega), List.drop_length, List.drop_eq_nil_of_le (by omega)]

/-- What a call reads, as far as it stays inside the buffer. -/
theorem readEncodedFrameInFile_some (ready : Ready chs content pos b m)
    (more : content.drop pos ≠ [])
    (fits : frameHeaderLen + (payload b (content.drop pos)).length ≤ maxVideoBufferLen) :
    ∃ after, readEncodedFrameInFile m sourceChannel =
        some (((payload b (content.drop pos)).length : Int), after) ∧
      Ready chs content (pos + ((content.drop pos).take frameHeaderLen).length +
          (payload b (content.drop pos)).length)
        ((marked b (content.drop pos)).store frameHeaderLen (payload b (content.drop pos))) after := by
  obtain ⟨between, read, header⟩ := ready.readHeader_some more
  obtain ⟨after, got, stored⟩ := header.fread frameHeaderLen (payloadSize (marked b (content.drop pos)))
    (by rw [drop_header]; exact fits)
  rw [drop_header, ← payload] at got stored
  refine ⟨after, ?_, stored⟩
  rw [readEncodedFrameInFile, read, Option.bind_some]
  dsimp only [Option.elim_some]
  rw [got, Option.map_some]

/-- A payload that does not fit is read behind the end of the buffer. -/
theorem readEncodedFrameInFile_overflows (ready : Ready chs content pos b m)
    (more : content.drop pos ≠ [])
    (overflows : ¬ frameHeaderLen + (payload b (content.drop pos)).length ≤ maxVideoBufferLen) :
    readEncodedFrameInFile m sourceChannel = none := by
  obtain ⟨between, read, header⟩ := ready.readHeader_some more
  have none_ := header.fread_overflows frameHeaderLen
    (payloadSize (marked b (content.drop pos))) (by
      rw [drop_header]
      exact overflows)
  rw [readEncodedFrameInFile, read, Option.bind_some]
  dsimp only [Option.elim_some]
  rw [none_, Option.map_none]

theorem readEncodedFrameInFile_end (ready : Ready chs content pos b m)
    (ended : content.drop pos = []) :
    ∃ after, readEncodedFrameInFile m sourceChannel = some (0, after) ∧
      Ready chs content 0 b after := by
  obtain ⟨after, read, kept⟩ := ready.readHeader_end ended
  refine ⟨after, ?_, kept⟩
  rw [readEncodedFrameInFile, read, Option.bind_some]
  rfl

/-! ## The round -/

/-- After the copy the channel's buffer holds the frame with its own `chId`. -/
theorem copyFrame_some (ready : Ready chs content pos b m) {i : Nat} (below : (i : Int) < chs)
    (bound : chs ≤ maxVideoChannel) {len : UInt32} (fits : len.toNat ≤ maxVideoBufferLen)
    (own : b chIdOffset = UInt8.ofNat sourceChannel) :
    ∃ after, copyFrame i len m = some after ∧ Ready chs content pos b after ∧
      after.bytes i len.toNat = (b.take len.toNat).set chIdOffset (UInt8.ofNat i) := by
  have inside : i < maxVideoChannel := by omega
  have found : index? maxVideoChannel i = some ⟨i, inside⟩ := index?_eq_some.mpr rfl
  rw [copyFrame, found, Option.bind_some]
  by_cases source : (⟨i, inside⟩ : Fin maxVideoChannel) = sourceChannel
  · refine ⟨m, if_pos source, ready, ?_⟩
    have same : i = (sourceChannel : Nat) := congrArg Fin.val source
    rw [bytes_of_buf inside (by rw [source]; exact ready.source), same, ← own, take_set_own]
  · obtain ⟨b', held⟩ := ready.bufs ⟨i, inside⟩ below
    have room : chIdOffset + 1 ≤ maxVideoBufferLen := by decide
    refine ⟨(m.setBuf ⟨i, inside⟩ (b'.store 0 (b.take len.toNat))).setBuf ⟨i, inside⟩
      ((b'.store 0 (b.take len.toNat)).store chIdOffset [UInt8.ofNat i]), ?_, ?_, ?_⟩
    · rw [if_neg source, ready.source, Option.bind_some, Memory.write, held]
      dsimp only
      rw [if_pos (by rw [take_length]; omega), Option.bind_some, Memory.write, setBuf_self]
      exact if_pos room
    · exact (ready.setBuf_other source _).setBuf_other source _
    · have copied := take_store b' (b.take len.toNat)
      rw [take_length] at copied
      rw [bytes_of_buf inside (setBuf_self ..), take_store_one, copied]

theorem putFrames_some (ready : Ready chs content pos b m) (bound : chs ≤ maxVideoChannel)
    {elt : SessionElement} (fits : elt.len.toNat ≤ maxVideoBufferLen)
    (own : b chIdOffset = UInt8.ofNat sourceChannel) {k i : Nat} (upTo : i + k ≤ chs.toNat) :
    ∃ last, putFrames k i ⟨m, elt⟩ = some ((List.range k).map fun j => framePut elt b (i + j), last) ∧
      Ready chs content pos b last.memory ∧ last.elt.command = elt.command ∧
        last.elt.dataType = elt.dataType := by
  induction k generalizing i m elt with
  | zero => exact ⟨⟨m, elt⟩, rfl, ready, rfl, rfl⟩
  | succ k ih =>
      obtain ⟨memory, copied, kept, bytes⟩ :=
        ready.copyFrame_some (show (i : Int) < chs by omega) bound fits own
      have inside : i / chsPerSession < maxGroupNum := by
        have width : chsPerSession = 4 := rfl
        have many : maxGroupNum = 8 := rfl
        have wide : (maxVideoChannel : Int) = 32 := rfl
        rw [width, many]
        omega
      have group : index? maxGroupNum (i / chsPerSession : Nat) = some ⟨i / chsPerSession, inside⟩ :=
        index?_eq_some.mpr rfl
      -- storing `chId` and `buffer` leaves the length as it is
      have fits' : ({ elt with chId := UInt8.ofNat i, buffer := i } : SessionElement).len.toNat ≤
          maxVideoBufferLen := fits
      obtain ⟨last, rest, ready', command, dataType⟩ :=
        ih kept fits' (show i + 1 + k ≤ chs.toNat by omega)
      refine ⟨last, ?_, ready', command, dataType⟩
      rw [putFrames]
      dsimp only
      rw [copied, Option.bind_some, group, Option.bind_some, rest, Option.map_some, bytes,
        List.range_succ_eq_map, List.map_cons, List.map_map]
      congr 3
      apply List.map_congr_left
      intro j _
      have shift : i + 1 + j = i + (j + 1) := by omega
      simp only [Function.comp_apply, framePut, shift, Nat.succ_eq_add_one]

theorem round_some (ready : Ready chs content pos b m) (bound : chs ≤ maxVideoChannel)
    {elt : SessionElement} (fits : elt.len.toNat ≤ maxVideoBufferLen)
    (own : b chIdOffset = UInt8.ofNat sourceChannel) :
    ∃ last, putFrames chs.toNat 0 ⟨m, elt⟩ = some (frameRound chs elt b, last) ∧
      Ready chs content pos b last.memory ∧ last.elt.command = elt.command ∧
        last.elt.dataType = elt.dataType := by
  obtain ⟨last, done, rest⟩ :=
    ready.putFrames_some bound fits own (show 0 + chs.toNat ≤ chs.toNat by omega)
  simp only [Nat.zero_add] at done
  exact ⟨last, done, rest⟩

/-! ## One iteration -/

/-- At the end of the file nothing is put and the file is rewound. -/
theorem iteration_end {s : VideoThr} (ready : Ready chs content pos b s.memory)
    (ended : content.drop pos = []) :
    ∃ next, iteration chs s = some ([], next) ∧ Ready chs content 0 b next.memory ∧
      next.elt = s.elt := by
  obtain ⟨after, read, rewound⟩ := ready.readEncodedFrameInFile_end ended
  refine ⟨{ s with memory := after }, ?_, rewound, rfl⟩
  rw [iteration, read, Option.bind_some]
  rfl

/-- A header with nothing behind it is skipped. -/
theorem iteration_empty {s : VideoThr} (ready : Ready chs content pos b s.memory)
    (more : content.drop pos ≠ []) (empty : payload b (content.drop pos) = []) :
    ∃ next, iteration chs s = some ([], next) ∧
      Ready chs content (pos + ((content.drop pos).take frameHeaderLen).length)
        (marked b (content.drop pos)) next.memory ∧ next.elt = s.elt := by
  obtain ⟨after, read, kept⟩ := ready.readEncodedFrameInFile_some more (by
    rw [empty]
    decide)
  rw [empty, List.length_nil] at read kept
  rw [store_nil] at kept
  refine ⟨{ s with memory := after }, ?_, kept, rfl⟩
  rw [iteration, read, Option.bind_some]
  rfl

theorem iteration_nothing {s : VideoThr} (ready : Ready chs content pos b s.memory)
    (empty : payload b (content.drop pos) = []) : ∃ next, iteration chs s = some ([], next) := by
  by_cases ended : content.drop pos = []
  · obtain ⟨next, done, _⟩ := ready.iteration_end ended
    exact ⟨next, done⟩
  · obtain ⟨next, done, _⟩ := ready.iteration_empty ended empty
    exact ⟨next, done⟩

/-- A frame is put for every channel. -/
theorem iteration_round {s : VideoThr} (ready : Ready chs content pos b s.memory)
    (bound : chs ≤ maxVideoChannel) (some_ : payload b (content.drop pos) ≠ [])
    (fits : frameHeaderLen + (payload b (content.drop pos)).length ≤ maxVideoBufferLen) :
    ∃ next, iteration chs s = some (frameRound chs
          (withLen s.elt (payload b (content.drop pos)).length) (frameBuffer b (content.drop pos)),
          next) ∧
      Ready chs content (pos + ((content.drop pos).take frameHeaderLen).length +
          (payload b (content.drop pos)).length) (frameBuffer b (content.drop pos)) next.memory ∧
      next.elt.command = s.elt.command ∧ next.elt.dataType = s.elt.dataType := by
  have more : content.drop pos ≠ [] := by
    intro ended
    apply some_
    rw [payload, ended, List.drop_nil, List.take_nil]
  obtain ⟨after, read, kept⟩ := ready.readEncodedFrameInFile_some more fits
  have positive : 0 < (payload b (content.drop pos)).length := List.length_pos_iff.mpr some_
  have recorded : (withLen s.elt (payload b (content.drop pos)).length).len.toNat ≤
      maxVideoBufferLen := by
    rw [withLen_len fits]
    omega
  obtain ⟨next, done, stored, command, dataType⟩ :=
    kept.round_some bound recorded (frameBuffer_chId b _)
  rw [withLen_command] at command
  rw [withLen_dataType] at dataType
  exact ⟨next, (iteration_read read positive).trans done, stored, command, dataType⟩

/-- A frame behind the end of the buffer has no defined behaviour. -/
theorem iteration_overflows {s : VideoThr} (ready : Ready chs content pos b s.memory)
    (overflows : ¬ frameHeaderLen + (payload b (content.drop pos)).length ≤ maxVideoBufferLen) :
    iteration chs s = none := by
  have more : content.drop pos ≠ [] := by
    intro ended
    apply overflows
    rw [payload, ended, List.drop_nil, List.take_nil]
    decide
  rw [iteration, ready.readEncodedFrameInFile_overflows more overflows, Option.bind_none]

/-- An iteration leaves the buffers and the file in place. -/
theorem iteration_ready {s next : VideoThr} {round : List Put}
    (ready : Ready chs content pos b s.memory) (bound : chs ≤ maxVideoChannel)
    (done : iteration chs s = some (round, next)) :
    ∃ pos' b', Ready chs content pos' b' next.memory := by
  by_cases fits : frameHeaderLen + (payload b (content.drop pos)).length ≤ maxVideoBufferLen
  · by_cases empty : payload b (content.drop pos) = []
    · by_cases ended : content.drop pos = []
      · obtain ⟨last, did, rewound, _⟩ := ready.iteration_end ended
        cases Option.some.inj (did.symm.trans done)
        exact ⟨_, _, rewound⟩
      · obtain ⟨last, did, kept, _⟩ := ready.iteration_empty ended empty
        cases Option.some.inj (did.symm.trans done)
        exact ⟨_, _, kept⟩
    · obtain ⟨last, did, kept, _⟩ := ready.iteration_round bound empty fits
      cases Option.some.inj (did.symm.trans done)
      exact ⟨_, _, kept⟩
  · rw [ready.iteration_overflows fits] at done
    cases done

end Ready

/-! ## The first iteration -/

variable {malloc : Fin maxVideoChannel → Option Buffer}
  {fopen : Fin maxVideoChannel → Option (List UInt8)}

/-- The loop does not come back to the channels before `i`. -/
theorem initLoop_before {k i : Nat} {m after : Memory}
    (done : initLoop malloc fopen k i m = some (0, after)) {ch : Fin maxVideoChannel}
    (before : (ch : Nat) < i) : after.buf ch = m.buf ch ∧ after.fp ch = m.fp ch := by
  induction k generalizing i m with
  | zero =>
      cases Option.some.inj done
      exact ⟨rfl, rfl⟩
  | succ k ih =>
      obtain ⟨own, found, rest⟩ := Option.bind_eq_some_iff.mp done
      have differs : ch ≠ own := by
        intro same
        have value := index?_eq_some.mp found
        rw [← same] at value
        omega
      split at rest
      · cases Option.some.inj rest
      · obtain ⟨buf, fp⟩ := ih rest (by omega)
        dsimp only at buf fp
        rw [Function.update_of_ne differs] at buf fp
        exact ⟨buf, fp⟩

/-- Every channel the loop has reached has its buffer and what `fopen` gave. -/
theorem initLoop_reached {k i : Nat} {m after : Memory}
    (done : initLoop malloc fopen k i m = some (0, after)) {ch : Fin maxVideoChannel}
    (from_ : i ≤ ch) (upTo : ch < i + k) :
    (∃ b, after.buf ch = some b) ∧ after.fp ch = (fopen ch).map fun content => ⟨content, 0⟩ := by
  induction k generalizing i m with
  | zero => omega
  | succ k ih =>
      obtain ⟨own, found, rest⟩ := Option.bind_eq_some_iff.mp done
      have value := index?_eq_some.mp found
      split at rest
      · cases Option.some.inj rest
      · rename_i allocated
        by_cases same : ch = own
        · obtain ⟨buf, fp⟩ := initLoop_before rest (show (ch : Nat) < i + 1 by omega)
          subst same
          dsimp only at buf fp
          rw [Function.update_self] at buf fp
          obtain ⟨b, held⟩ := Option.ne_none_iff_exists'.mp (mt Option.isNone_iff_eq_none.mpr allocated)
          exact ⟨⟨b, buf.trans held⟩, fp⟩
        · have other : (ch : Nat) ≠ own := fun equal => same (Fin.ext equal)
          exact ih rest (by omega) (by omega)

theorem initLoop_succeeds (allocated : ∀ ch, malloc ch ≠ none) {k i : Nat}
    (inside : i + k ≤ maxVideoChannel) (m : Memory) :
    ∃ after, initLoop malloc fopen k i m = some (0, after) := by
  induction k generalizing i m with
  | zero => exact ⟨m, rfl⟩
  | succ k ih =>
      have found : index? maxVideoChannel i = some ⟨i, by omega⟩ := index?_eq_some.mpr rfl
      obtain ⟨b, own⟩ := Option.ne_none_iff_exists'.mp (allocated ⟨i, by omega⟩)
      rw [initLoop, found, Option.bind_some]
      dsimp only
      rw [own, if_neg (by simp)]
      apply ih
      omega

/-- The set up succeeds whatever the file holds. -/
theorem exists_starts {chs : Int} (bound : chs ≤ maxVideoChannel) (content : List UInt8) :
    ∃ start, Starts chs content start := by
  have room : 0 + chs.toNat ≤ maxVideoChannel := by omega
  have init : ∃ memory, initLoop (fun _ => some fun _ => 0) (fun _ => some content) chs.toNat 0
      ⟨fun _ => none, fun _ => none⟩ = some (0, memory) :=
    initLoop_succeeds (fun _ => Option.some_ne_none _) room _
  obtain ⟨memory, done⟩ := init
  exact ⟨⟨memory, cmdSessionBuffer, 0, sessionTypeVideo.toUInt8, 0, 0⟩,
    ⟨_, _, _, done, rfl⟩, rfl, rfl⟩

/-! ## The bytes of a frame -/

/-- The field `len` of a header in a list of bytes. -/
def lenField (bytes : List UInt8) : UInt32 := Buffer.headerLen fun k => bytes.getD k 0

theorem headerLen_congr {b b' : Buffer}
    (same : ∀ k, lenOffset ≤ k → k < lenOffset + 4 → b k = b' k) : b.headerLen = b'.headerLen := by
  unfold Buffer.headerLen
  rw [same lenOffset (by omega) (by omega), same (lenOffset + 1) (by omega) (by omega),
    same (lenOffset + 2) (by omega) (by omega), same (lenOffset + 3) (by omega) (by omega)]

theorem lenField_congr {bytes bytes' : List UInt8}
    (same : ∀ k, lenOffset ≤ k → k < lenOffset + 4 → bytes[k]? = bytes'[k]?) :
    lenField bytes = lenField bytes' := by
  apply headerLen_congr
  intro k from_ upTo
  rw [List.getD_eq_getElem?_getD, List.getD_eq_getElem?_getD, same k from_ upTo]

/-- Behind `chId` the header is the file's, as far as the file goes. -/
theorem marked_at (b : Buffer) (rest : List UInt8) {k : Nat} (behind : chIdOffset < k)
    (inside : k < frameHeaderLen) : marked b rest k = rest.getD k (b k) := by
  have after : chIdOffset + [UInt8.ofNat sourceChannel].length ≤ k := behind
  rw [marked, store_after after]
  unfold Buffer.store
  rw [if_neg (Nat.not_lt_zero k), Nat.sub_zero, List.getD_eq_getElem?_getD,
    List.getD_eq_getElem?_getD, List.getElem?_take_of_lt inside]

/-- A whole header in the file decides `len`. -/
theorem marked_headerLen {b : Buffer} {rest : List UInt8} (whole : frameHeaderLen ≤ rest.length) :
    (marked b rest).headerLen = lenField rest := by
  apply headerLen_congr
  intro k from_ upTo
  have inside : k < frameHeaderLen := lt_of_lt_of_le upTo (by decide)
  rw [marked_at b rest (lt_of_lt_of_le (by decide) from_) inside, List.getD_eq_getElem?_getD,
    List.getD_eq_getElem?_getD, List.getElem?_eq_getElem (by omega), Option.getD_some,
    Option.getD_some]

/-- The bytes of a put are those of the file with another `chId`. -/
theorem framePut_bytes (elt : SessionElement) {b : Buffer} {rest : List UInt8} (i : Nat)
    (whole : frameHeaderLen ≤ rest.length)
    (fits : frameHeaderLen + (payload b rest).length ≤ maxVideoBufferLen) :
    (framePut (withLen elt (payload b rest).length) (frameBuffer b rest) i).bytes =
      (rest.take (frameHeaderLen + (payload b rest).length)).set chIdOffset (UInt8.ofNat i) := by
  have header : (rest.take frameHeaderLen).length = frameHeaderLen := by
    rw [List.length_take]
    omega
  have inHeader : chIdOffset < (rest.take frameHeaderLen).length := by
    rw [header]
    decide
  have read : (rest.drop frameHeaderLen).take (payload b rest).length = payload b rest := by
    rw [payload, List.length_take, ← List.take_eq_take_min]
  have kept : (marked b rest).take frameHeaderLen =
      (rest.take frameHeaderLen).set chIdOffset (UInt8.ofNat sourceChannel) := by
    have stored := take_store b (rest.take frameHeaderLen)
    rw [header] at stored
    rw [marked, take_store_one, stored]
  calc (framePut (withLen elt (payload b rest).length) (frameBuffer b rest) i).bytes
      = ((frameBuffer b rest).take (frameHeaderLen + (payload b rest).length)).set chIdOffset
          (UInt8.ofNat i) := by
        rw [framePut, withLen_len fits, Nat.add_comm]
    _ = (((rest.take frameHeaderLen).set chIdOffset (UInt8.ofNat sourceChannel)) ++
          payload b rest).set chIdOffset (UInt8.ofNat i) := by
        rw [frameBuffer, take_store_append, kept]
    _ = (rest.take frameHeaderLen ++ payload b rest).set chIdOffset (UInt8.ofNat i) := by
        rw [List.set_append_left _ _ (by rw [List.length_set]; exact inHeader), List.set_set,
          List.set_append_left _ _ inHeader]
    _ = (rest.take (frameHeaderLen + (payload b rest).length)).set chIdOffset (UInt8.ofNat i) := by
        rw [List.take_add, read]

/-! ## The size that is asked for -/

theorem toInt_toInt32 (len : UInt32) :
    len.toInt32.toInt = if len.toNat < 2 ^ 31 then (len.toNat : Int) else len.toNat - 2 ^ 32 := by
  have signed := BitVec.toInt_eq_toNat_cond len.toBitVec
  have value : len.toBitVec.toNat = len.toNat := rfl
  have same : len.toInt32.toInt = len.toBitVec.toInt := rfl
  rw [same, signed, value]
  split
  · rw [if_pos (by omega)]
  · rw [if_neg (by omega)]
    rfl

theorem payloadSize_small {b : Buffer} (small : b.headerLen.toNat < 2 ^ 31) :
    payloadSize b = b.headerLen.toNat := by
  unfold payloadSize sizeOfInt
  rw [toInt_toInt32, if_pos small]
  omega

/-- A `len` that is negative as an `int` asks for at least `2 ^ 31` bytes. -/
theorem payloadSize_large {b : Buffer} (large : ¬ b.headerLen.toNat < 2 ^ 31) :
    2 ^ 31 ≤ payloadSize b := by
  have bits := b.headerLen.toNat_lt
  unfold payloadSize sizeOfInt
  rw [toInt_toInt32, if_neg large]
  omega

namespace Starts

variable {chs : Int} {content : List UInt8} {s : VideoThr}

theorem ready (starts : Starts chs content s) (source : sourceChannel < chs) :
    ∃ b, Ready chs content 0 b s.memory := by
  obtain ⟨malloc, fopen, before, done, opened⟩ := starts.init
  have bufs : ∀ ch : Fin maxVideoChannel, (ch : Int) < chs → ∃ b, s.memory.buf ch = some b := by
    intro ch below
    exact (initLoop_reached done (Nat.zero_le _) (by omega)).1
  obtain ⟨b, held⟩ := bufs sourceChannel source
  refine ⟨b, bufs, held, ?_⟩
  rw [(initLoop_reached done (Nat.zero_le _) (by omega)).2, opened]
  rfl

/-- Every state the thread reaches has its buffers and its file. -/
theorem iterations_ready (starts : Starts chs content s) (source : sourceChannel < chs)
    (bound : chs ≤ maxVideoChannel) {k : Nat} {puts : List Put} {reached : VideoThr}
    (run : iterations chs k s = some (puts, reached)) :
    ∃ pos b, Ready chs content pos b reached.memory := by
  induction k generalizing puts reached with
  | zero =>
      cases Option.some.inj run
      obtain ⟨b, ready⟩ := starts.ready source
      exact ⟨0, b, ready⟩
  | succ k ih =>
      obtain ⟨⟨before, between⟩, ran, stepped⟩ := Option.bind_eq_some_iff.mp run
      obtain ⟨⟨round, last⟩, did, same⟩ := Option.map_eq_some_iff.mp stepped
      cases same
      obtain ⟨pos, b, ready⟩ := ih ran
      exact ready.iteration_ready bound did

end Starts

/-! ## Properties of every iteration -/

/-- What the source channel's file still has. -/
def unread (s : VideoThr) : List UInt8 :=
  (s.memory.fp sourceChannel).elim [] fun file => file.content.drop file.pos

theorem Ready.unread_eq {chs : Int} {content : List UInt8} {pos : Nat} {b : Buffer} {s : VideoThr}
    (ready : Ready chs content pos b s.memory) : unread s = content.drop pos := by
  rw [unread, ready.file, Option.elim_some]

/-- A property of the iterations against a condition on the states before them, when the
property says at least that the iteration is defined. -/
theorem every_iteration_iff {chs : Int} {start : VideoThr} {k : Nat} {Good Fit : VideoThr → Prop}
    (each : ∀ j puts s, iterations chs j start = some (puts, s) → (Good s ↔ Fit s))
    (defined : ∀ s, Good s → iteration chs s ≠ none) :
    (∀ j < k, ∃ puts s, iterations chs j start = some (puts, s) ∧ Good s) ↔
      ∀ j < k, ∀ puts s, iterations chs j start = some (puts, s) → Fit s := by
  constructor
  · intro good j before puts s run
    obtain ⟨puts', s', run', holds⟩ := good j before
    cases Option.some.inj (run'.symm.trans run)
    exact (each j puts s run).mp holds
  · intro fit j before
    have reached : ∃ puts s, iterations chs j start = some (puts, s) := by
      induction j with
      | zero => exact ⟨[], start, rfl⟩
      | succ j ih =>
          obtain ⟨puts, s, run⟩ := ih (by omega)
          have holds := (each j puts s run).mpr (fit j (by omega) puts s run)
          obtain ⟨⟨round, next⟩, done⟩ := Option.ne_none_iff_exists'.mp (defined s holds)
          refine ⟨puts ++ round, next, ?_⟩
          rw [iterations, run, Option.bind_some]
          dsimp only
          rw [done, Option.map_some]
    obtain ⟨puts, s, run⟩ := reached
    exact ⟨puts, s, run, (each j puts s run).mpr (fit j before puts s run)⟩

end DvsServer.Core.Encoder
