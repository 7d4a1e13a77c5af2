import DvsServer.Core.Encoder

/-!
# Whole frames (`core/src/videoEncode.c`)

`readEncodedFrameInFile` takes any bytes for a header, and a payload the file does
not have in full is passed on with the length the header announced.
-/

namespace DvsServer.Core.Encoder

open DvsServer.Lib DvsServer.Com.RtpSend DvsServer.Core.Session DvsServer.Core.VideoEncode

/-- A whole, valid frame; `rest` is what the file still had when the call began. -/
structure WholeFrame (rest : List UInt8) (put : Put) : Prop where
  magic : cmdHeaderStr <+: put.bytes
  len : (lenField put.bytes).toNat + frameHeaderLen = put.element.len.toNat
  complete : put.bytes.length = put.element.len.toNat
  contiguous : put.bytes = (rest.take put.element.len.toNat).set chIdOffset put.element.chId

/-- An iteration puts whole, valid frames only. -/
def EmitsWhole (chs : Int) (s : VideoThr) : Prop :=
  ∃ round next, iteration chs s = some (round, next) ∧ ∀ put ∈ round, WholeFrame (unread s) put

/-- The file has no byte behind a header, or a header that announces no payload, or a valid
header with its whole payload, which fits in the buffer. -/
def AtFrame (rest : List UInt8) : Prop :=
  rest.length ≤ frameHeaderLen ∨ lenField rest = 0 ∨
    (cmdHeaderStr <+: rest ∧ frameHeaderLen + (lenField rest).toNat ≤ rest.length ∧
      frameHeaderLen + (lenField rest).toNat ≤ maxVideoBufferLen)

/-! ## The header of a put -/

/-- The channel is no part of `cmdHeader`. -/
theorem magic_patched {rest : List UInt8} {n : Nat} (whole : frameHeaderLen ≤ n) (v : UInt8) :
    cmdHeaderStr <+: (rest.take n).set chIdOffset v ↔ cmdHeaderStr <+: rest := by
  have offset : cmdHeaderStr.length ≤ chIdOffset := by decide
  have inHeader : cmdHeaderStr.length ≤ n := le_trans (by decide) whole
  rw [List.prefix_iff_eq_take, List.prefix_iff_eq_take, List.take_set_of_le offset, List.take_take,
    Nat.min_eq_left inHeader]

theorem lenField_patched {rest : List UInt8} {n : Nat} (whole : frameHeaderLen ≤ n) (v : UInt8) :
    lenField ((rest.take n).set chIdOffset v) = lenField rest := by
  apply lenField_congr
  intro k from_ upTo
  change 12 ≤ k at from_
  change k < 16 at upTo
  change 20 ≤ n at whole
  have other : chIdOffset ≠ k := by
    change 10 ≠ k
    omega
  rw [List.getElem?_set_ne other, List.getElem?_take_of_lt (by omega)]

/-! ## One iteration -/

/-- No payload is read exactly when there is none or none is announced. -/
theorem payload_eq_nil {b : Buffer} {rest : List UInt8} :
    payload b rest = [] ↔ rest.length ≤ frameHeaderLen ∨ lenField rest = 0 := by
  constructor
  · intro empty
    by_cases short : rest.length ≤ frameHeaderLen
    · exact .inl short
    · right
      rw [payload, List.take_eq_nil_iff, List.drop_eq_nil_iff] at empty
      have zero : payloadSize (marked b rest) = 0 := by
        rcases empty with zero | short'
        · exact zero
        · exact absurd short' short
      have small : (marked b rest).headerLen.toNat < 2 ^ 31 := by
        by_contra large
        have many := payloadSize_large large
        omega
      rw [payloadSize_small small, marked_headerLen (by omega)] at zero
      exact UInt32.toNat_inj.mp zero
  · intro nothing
    by_cases short : rest.length ≤ frameHeaderLen
    · rw [payload, List.drop_eq_nil_of_le short, List.take_nil]
    · have zero : lenField rest = 0 := nothing.resolve_left short
      have value : (marked b rest).headerLen.toNat = 0 := by
        rw [marked_headerLen (by omega), zero]
        rfl
      rw [payload, payloadSize_small (by omega), value, List.take_zero]

/-- A payload as long as its header says. -/
theorem payload_length {b : Buffer} {rest : List UInt8}
    (whole : frameHeaderLen + (lenField rest).toNat ≤ rest.length)
    (fits : frameHeaderLen + (lenField rest).toNat ≤ maxVideoBufferLen) :
    (payload b rest).length = (lenField rest).toNat := by
  have value : (marked b rest).headerLen.toNat = (lenField rest).toNat := by
    rw [marked_headerLen (by omega)]
  have bound : maxVideoBufferLen < 2 ^ 31 := by decide
  rw [payload, payloadSize_small (by omega), value, List.length_take, List.length_drop]
  omega

/-- What is put for a channel is a whole frame exactly when the header is valid and the payload
has the announced length. -/
theorem framePut_whole_iff (elt : SessionElement) {b : Buffer} {rest : List UInt8} (i : Nat)
    (long : frameHeaderLen < rest.length)
    (fits : frameHeaderLen + (payload b rest).length ≤ maxVideoBufferLen) :
    WholeFrame rest (framePut (withLen elt (payload b rest).length) (frameBuffer b rest) i) ↔
      cmdHeaderStr <+: rest ∧ (lenField rest).toNat = (payload b rest).length := by
  have bytes := framePut_bytes elt (b := b) i (Nat.le_of_lt long) fits
  have len : (framePut (withLen elt (payload b rest).length) (frameBuffer b rest) i).element.len.toNat =
      frameHeaderLen + (payload b rest).length := by
    rw [framePut, withLen_len fits, Nat.add_comm]
  have whole : frameHeaderLen ≤ frameHeaderLen + (payload b rest).length := Nat.le_add_right _ _
  have read : (payload b rest).length ≤ rest.length - frameHeaderLen := by
    rw [payload, List.length_take, List.length_drop]
    exact Nat.min_le_right _ _
  constructor
  · intro frame
    have magic := frame.magic
    have announced := frame.len
    rw [bytes, magic_patched whole] at magic
    rw [bytes, lenField_patched whole, len] at announced
    exact ⟨magic, by omega⟩
  · rintro ⟨magic, announced⟩
    refine ⟨?_, ?_, ?_, ?_⟩
    · rw [bytes, magic_patched whole]
      exact magic
    · rw [bytes, lenField_patched whole, len, announced, Nat.add_comm]
    · rw [bytes, len, List.length_set, List.length_take]
      omega
    · rw [bytes, len]
      rfl

/-- Nothing is put: the property holds. -/
theorem Ready.emitsWhole_nothing {chs : Int} {content : List UInt8} {pos : Nat} {b : Buffer}
    {s : VideoThr} (ready : Ready chs content pos b s.memory)
    (empty : payload b (content.drop pos) = []) : EmitsWhole chs s := by
  obtain ⟨next, done⟩ := ready.iteration_nothing empty
  exact ⟨[], next, done, fun put member => absurd member List.not_mem_nil⟩

/-- A round of puts: all are whole frames or none is. -/
theorem Ready.emitsWhole_round {chs : Int} {content : List UInt8} {pos : Nat} {b : Buffer}
    {s : VideoThr} (ready : Ready chs content pos b s.memory) (source : sourceChannel < chs)
    (bound : chs ≤ maxVideoChannel) (some_ : payload b (content.drop pos) ≠ [])
    (fits : frameHeaderLen + (payload b (content.drop pos)).length ≤ maxVideoBufferLen) :
    EmitsWhole chs s ↔ cmdHeaderStr <+: content.drop pos ∧
      (lenField (content.drop pos)).toNat = (payload b (content.drop pos)).length := by
  have long : frameHeaderLen < (content.drop pos).length := by
    by_contra short
    exact some_ (payload_eq_nil.mpr (.inl (Nat.le_of_not_lt short)))
  obtain ⟨next, done, _⟩ := ready.iteration_round bound some_ fits
  constructor
  · rintro ⟨round, last, did, whole⟩
    cases Option.some.inj (done.symm.trans did)
    have first : 0 < chs.toNat := by omega
    have frame := whole _ (List.mem_map_of_mem (List.mem_range.mpr first))
    rw [ready.unread_eq] at frame
    exact (framePut_whole_iff s.elt 0 long fits).mp frame
  · intro valid
    refine ⟨_, next, done, ?_⟩
    intro put member
    obtain ⟨i, _, rfl⟩ := List.mem_map.mp member
    rw [ready.unread_eq]
    exact (framePut_whole_iff s.elt i long fits).mpr valid

/-- An iteration puts whole frames only exactly when the file stands at one. -/
theorem Ready.emitsWhole_iff {chs : Int} {content : List UInt8} {pos : Nat} {b : Buffer}
    {s : VideoThr} (ready : Ready chs content pos b s.memory) (source : sourceChannel < chs)
    (bound : chs ≤ maxVideoChannel) : EmitsWhole chs s ↔ AtFrame (unread s) := by
  rw [ready.unread_eq]
  by_cases empty : payload b (content.drop pos) = []
  · have nothing := payload_eq_nil.mp empty
    constructor
    · intro _
      exact nothing.imp_right .inl
    · intro _
      exact ready.emitsWhole_nothing empty
  · have some_ := mt payload_eq_nil.mpr empty
    by_cases fits : frameHeaderLen + (payload b (content.drop pos)).length ≤ maxVideoBufferLen
    · rw [ready.emitsWhole_round source bound empty fits]
      constructor
      · rintro ⟨magic, announced⟩
        have read : (payload b (content.drop pos)).length ≤
            (content.drop pos).length - frameHeaderLen := by
          rw [payload, List.length_take, List.length_drop]
          exact Nat.min_le_right _ _
        rw [not_or] at some_
        exact .inr (.inr ⟨magic, by omega, by omega⟩)
      · rintro (short | zero | ⟨magic, whole, room⟩)
        · exact absurd (.inl short) some_
        · exact absurd (.inr zero) some_
        · exact ⟨magic, (payload_length whole room).symm⟩
    · -- the payload is stored behind the end of the buffer
      constructor
      · rintro ⟨round, next, done, _⟩
        rw [ready.iteration_overflows fits] at done
        cases done
      · rintro (short | zero | ⟨magic, whole, room⟩)
        · exact absurd (.inl short) some_
        · exact absurd (.inr zero) some_
        · rw [payload_length whole room] at fits
          exact absurd room fits

/-! ## The run -/

/-- Every iteration of a run puts whole, valid frames only exactly when the file stands at one
before each. -/
theorem whole_frames_iff {chs : Int} (source : sourceChannel < chs) (bound : chs ≤ maxVideoChannel)
    {content : List UInt8} {start : VideoThr} (starts : Starts chs content start) (k : Nat) :
    (∀ j < k, ∃ puts s, iterations chs j start = some (puts, s) ∧ EmitsWhole chs s) ↔
      ∀ j < k, ∀ puts s, iterations chs j start = some (puts, s) → AtFrame (unread s) := by
  apply every_iteration_iff
  · intro j puts s run
    obtain ⟨pos, b, ready⟩ := starts.iterations_ready source bound run
    exact ready.emitsWhole_iff source bound
  · rintro s ⟨round, next, done, _⟩ undefined
    rw [undefined] at done
    cases done

/-- A frame of one byte and an incomplete header behind it. -/
def cutFile : List UInt8 := cmdHeaderStr ++ [2, 0, 1, 0, 0, 0, 0, 0, 0, 0, 7] ++ cmdHeaderStr

theorem whole_frames_iff_cut : ∃ start, Starts 4 cutFile start ∧
    ∃ puts s, iterations 4 0 start = some (puts, s) ∧ EmitsWhole 4 s := by
  have chs : (4 : Int) ≤ maxVideoChannel := by decide
  have source : (sourceChannel : Int) < 4 := by decide
  obtain ⟨start, starts⟩ := exists_starts chs cutFile
  obtain ⟨b, ready⟩ := starts.ready source
  refine ⟨start, starts, (whole_frames_iff source chs starts 1).mpr ?_ 0 Nat.one_pos⟩
  intro j first puts s run
  obtain rfl : j = 0 := by omega
  cases Option.some.inj run
  rw [ready.unread_eq]
  exact .inr (.inr (by decide))

/-- A header that announces five bytes, of which the file has one. -/
def truncated : List UInt8 := cmdHeaderStr ++ [2, 0, 5, 0, 0, 0, 0, 0, 0, 0, 7]

theorem whole_frames_fails : ¬ ∀ (chs : Int) (content : List UInt8) (start : VideoThr) (k : Nat),
    sourceChannel < chs → chs ≤ maxVideoChannel → Starts chs content start →
      ∀ j < k, ∃ puts s, iterations chs j start = some (puts, s) ∧ EmitsWhole chs s := by
  intro claimed
  have chs : (4 : Int) ≤ maxVideoChannel := by decide
  have source : (sourceChannel : Int) < 4 := by decide
  obtain ⟨start, starts⟩ := exists_starts chs truncated
  obtain ⟨b, ready⟩ := starts.ready source
  obtain ⟨puts, s, run, whole⟩ := claimed 4 truncated start 1 source chs starts 0 Nat.one_pos
  cases Option.some.inj run
  rw [ready.emitsWhole_iff source chs, ready.unread_eq] at whole
  exact absurd whole (by unfold AtFrame; decide)

end DvsServer.Core.Encoder
