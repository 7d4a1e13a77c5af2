import DvsServer.Core.Encoder

/-!
# The bounds of the channel buffers (`core/src/videoEncode.c`)

`len` comes from the file as a `uint32_t`, is kept in an `int` and reaches `fread`
as a `size_t`; nothing compares it with `MAX_VIDEO_BUFFER_LEN`.
-/

namespace DvsServer.Core.Encoder

open DvsServer.Lib DvsServer.Com.RtpSend DvsServer.Core.Session DvsServer.Core.VideoEncode

/-- The second `fread` of an iteration asks for no more than the buffer has room for, and no
length above the buffer's is copied or recorded. -/
structure WithinBuffer (chs : Int) (s : VideoThr) : Prop where
  asks : ∀ b memory, readHeader s.memory sourceChannel = some (some b, memory) →
    payloadSize b ≤ maxVideoBufferLen - frameHeaderLen
  records : ∃ round next, iteration chs s = some (round, next) ∧
    ∀ put ∈ round, put.element.len.toNat ≤ maxVideoBufferLen

/-- The header the next call finds: the file's next bytes, and behind them those that the
buffer already has. -/
def nextHeader (b : Buffer) (rest : List UInt8) : List UInt8 :=
  rest.take frameHeaderLen ++ (b.take frameHeaderLen).drop rest.length

/-- The file has ended, or the next `len` as an unsigned number leaves room for the header. -/
def Announces (s : VideoThr) : Prop :=
  unread s = [] ∨ ∀ b, s.memory.buf sourceChannel = some b →
    (lenField (nextHeader b (unread s))).toNat ≤ maxVideoBufferLen - frameHeaderLen

/-! ## The size -/

theorem payloadSize_le_iff {b : Buffer} :
    payloadSize b ≤ maxVideoBufferLen - frameHeaderLen ↔
      b.headerLen.toNat ≤ maxVideoBufferLen - frameHeaderLen := by
  have room : maxVideoBufferLen - frameHeaderLen < 2 ^ 31 := by decide
  by_cases small : b.headerLen.toNat < 2 ^ 31
  · rw [payloadSize_small small]
  · have many := payloadSize_large small
    constructor
    · intro below
      omega
    · intro below
      omega

/-- Bytes the file does not have any more are those of an earlier header. -/
theorem nextHeader_len (b : Buffer) (rest : List UInt8) :
    lenField (nextHeader b rest) = (marked b rest).headerLen := by
  apply headerLen_congr
  intro k from_ upTo
  have inside : k < frameHeaderLen := lt_of_lt_of_le upTo (by decide)
  have header : (rest.take frameHeaderLen).length = min frameHeaderLen rest.length := List.length_take
  rw [marked_at b rest (lt_of_lt_of_le (by decide) from_) inside, List.getD_eq_getElem?_getD,
    List.getD_eq_getElem?_getD, nextHeader]
  by_cases read : k < rest.length
  · rw [List.getElem?_append_left (by omega), List.getElem?_take_of_lt inside,
      List.getElem?_eq_getElem read, Option.getD_some, Option.getD_some]
  · have place : rest.length + (k - min frameHeaderLen rest.length) = k := by omega
    rw [List.getElem?_append_right (by omega), List.getElem?_drop, header, place,
      take_getElem? b inside, List.getElem?_eq_none (by omega), Option.getD_some, Option.getD_none]

/-! ## One iteration -/

section

variable {chs : Int} {content : List UInt8} {pos : Nat} {b : Buffer} {s : VideoThr}

/-- At the end of the file nothing is asked for. -/
theorem Ready.withinBuffer_end (ready : Ready chs content pos b s.memory)
    (ended : content.drop pos = []) : WithinBuffer chs s := by
  obtain ⟨next, done, _⟩ := ready.iteration_end ended
  obtain ⟨after, noHeader, _⟩ := ready.readHeader_end ended
  constructor
  · intro b' memory read
    rw [noHeader] at read
    cases read
  · exact ⟨[], next, done, fun put member => absurd member List.not_mem_nil⟩

theorem Ready.announces_iff (ready : Ready chs content pos b s.memory)
    (more : content.drop pos ≠ []) : Announces s ↔
      payloadSize (marked b (content.drop pos)) ≤ maxVideoBufferLen - frameHeaderLen := by
  rw [payloadSize_le_iff, ← nextHeader_len, Announces, ready.unread_eq, ready.source]
  constructor
  · rintro (nothing | fits)
    · exact absurd nothing more
    · exact fits b rfl
  · intro fits
    right
    rintro b' ⟨⟩
    exact fits

/-- What is read in bounds is copied and recorded in bounds. -/
theorem Ready.records_within (ready : Ready chs content pos b s.memory)
    (bound : chs ≤ maxVideoChannel)
    (fits : payloadSize (marked b (content.drop pos)) ≤ maxVideoBufferLen - frameHeaderLen) :
    ∃ round next, iteration chs s = some (round, next) ∧
      ∀ put ∈ round, put.element.len.toNat ≤ maxVideoBufferLen := by
  have room : frameHeaderLen ≤ maxVideoBufferLen := by decide
  have short : (payload b (content.drop pos)).length ≤ payloadSize (marked b (content.drop pos)) :=
    List.length_take_le _ _
  by_cases empty : payload b (content.drop pos) = []
  · obtain ⟨next, done⟩ := ready.iteration_nothing empty
    exact ⟨[], next, done, fun put member => absurd member List.not_mem_nil⟩
  · have inside : frameHeaderLen + (payload b (content.drop pos)).length ≤ maxVideoBufferLen := by
      omega
    obtain ⟨next, done, _⟩ := ready.iteration_round bound empty inside
    refine ⟨_, next, done, ?_⟩
    intro put member
    obtain ⟨i, _, rfl⟩ := List.mem_map.mp member
    rw [framePut, withLen_len inside]
    omega

theorem Ready.withinBuffer_iff (ready : Ready chs content pos b s.memory)
    (bound : chs ≤ maxVideoChannel) : WithinBuffer chs s ↔ Announces s := by
  by_cases ended : content.drop pos = []
  · constructor
    · intro _
      exact .inl (ready.unread_eq.trans ended)
    · intro _
      exact ready.withinBuffer_end ended
  · obtain ⟨after, header, _⟩ := ready.readHeader_some ended
    rw [ready.announces_iff ended]
    constructor
    · intro within
      exact within.asks _ after header
    · intro fits
      refine ⟨?_, ready.records_within bound fits⟩
      intro b' memory read
      cases Option.some.inj (header.symm.trans read)
      exact fits

end

/-! ## The run -/

/-- The iterations of a run stay within the buffers exactly when every header they find announces
a payload for which there is room. -/
theorem frames_within_buffer_iff {chs : Int} (source : sourceChannel < chs)
    (bound : chs ≤ maxVideoChannel) {content : List UInt8} {start : VideoThr}
    (starts : Starts chs content start) (k : Nat) :
    (∀ j < k, ∃ puts s, iterations chs j start = some (puts, s) ∧ WithinBuffer chs s) ↔
      ∀ j < k, ∀ puts s, iterations chs j start = some (puts, s) → Announces s := by
  apply every_iteration_iff
  · intro j puts s run
    obtain ⟨pos, b, ready⟩ := starts.iterations_ready source bound run
    exact ready.withinBuffer_iff bound
  · intro s within undefined
    obtain ⟨round, next, done, _⟩ := within.records
    rw [undefined] at done
    cases done

/-- A header that announces one byte. -/
def oneByteFile : List UInt8 := cmdHeaderStr ++ [2, 0, 1, 0, 0, 0, 0, 0, 0, 0, 7]

theorem frames_within_buffer_iff_one : ∃ start, Starts 4 oneByteFile start ∧
    ∃ puts s, iterations 4 0 start = some (puts, s) ∧ WithinBuffer 4 s := by
  have chs : (4 : Int) ≤ maxVideoChannel := by decide
  have source : (sourceChannel : Int) < 4 := by decide
  obtain ⟨start, starts⟩ := exists_starts chs oneByteFile
  obtain ⟨b, ready⟩ := starts.ready source
  refine ⟨start, starts, (frames_within_buffer_iff source chs starts 1).mpr ?_ 0 Nat.one_pos⟩
  intro j first puts s run
  obtain rfl : j = 0 := by omega
  cases Option.some.inj run
  right
  intro b' _
  rw [ready.unread_eq, nextHeader_len, marked_headerLen (by decide)]
  decide

/-- A header with the largest `len`, -1 as an `int`. -/
def negativeLen : List UInt8 := cmdHeaderStr ++ [2, 0, 0xFF, 0xFF, 0xFF, 0xFF, 0, 0, 0, 0]

theorem frames_within_buffer_fails : ¬ ∀ (chs : Int) (content : List UInt8) (start : VideoThr)
    (k : Nat), sourceChannel < chs → chs ≤ maxVideoChannel → Starts chs content start →
      ∀ j < k, ∃ puts s, iterations chs j start = some (puts, s) ∧ WithinBuffer chs s := by
  intro claimed
  have chs : (4 : Int) ≤ maxVideoChannel := by decide
  have source : (sourceChannel : Int) < 4 := by decide
  obtain ⟨start, starts⟩ := exists_starts chs negativeLen
  obtain ⟨b, ready⟩ := starts.ready source
  obtain ⟨puts, s, run, within⟩ := claimed 4 negativeLen start 1 source chs starts 0 Nat.one_pos
  cases Option.some.inj run
  obtain ⟨after, header, _⟩ := ready.readHeader_some (List.cons_ne_nil _ _)
  have asks := within.asks _ after header
  rw [payloadSize_le_iff, marked_headerLen (by decide)] at asks
  exact absurd asks (by decide)

end DvsServer.Core.Encoder
