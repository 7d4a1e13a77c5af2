import DvsServer.Core.Session

/-!
# The video encoder's buffers and file (`core/src/videoEncode.c`)

One buffer per channel and the file the frames are read from.  A call of `fread`
reads what is left of the file, up to the size it is asked for.  A store behind
the end of a buffer and a use of a null pointer are undefined and modelled by
`none`.
-/

namespace DvsServer.Core.VideoEncode

open DvsServer.Lib DvsServer.Core.Session

def maxVideoBufferLen : Nat := 1000000

/-- `sizeof(FrameHeader)`: the packed fields `cmdHeader`, `chId`, `dataType`,
`len` and `timestamp`. -/
def frameHeaderLen : Nat := 20

/-- `CMD_HEADER_STR`, the value of `cmdHeader`. -/
def cmdHeaderStr : List UInt8 := [0xAA, 0xA1, 0xA2, 0xA3, 0xA4, 0xA5, 0xA6, 0xA7, 0xA8, 0xFF]

/-- The offset of `chId` in `FrameHeader`. -/
def chIdOffset : Nat := 10

/-- The offset of `len` in `FrameHeader`. -/
def lenOffset : Nat := 12

/-- The channel whose file is read: `chId = 2`. -/
def sourceChannel : Fin maxVideoChannel := 2

abbrev Buffer := Nat → UInt8

def Buffer.store (b : Buffer) (offset : Nat) (data : List UInt8) : Buffer := fun k =>
  if k < offset then b k else data.getD (k - offset) (b k)

/-- The first `len` bytes. -/
def Buffer.take (b : Buffer) (len : Nat) : List UInt8 := (List.range len).map b

/-- An open file; `fseek` and `fread` move `pos`. -/
structure VideoFile where
  content : List UInt8
  pos : Nat

/-- `video_encoded_frame_buf` and `video_file_fp`. -/
structure Memory where
  buf : Fin maxVideoChannel → Option Buffer
  fp : Fin maxVideoChannel → Option VideoFile

/-- Replace a channel's buffer. -/
def Memory.setBuf (m : Memory) (ch : Fin maxVideoChannel) (b : Buffer) : Memory :=
  { m with buf := Function.update m.buf ch (some b) }

def Memory.setFile (m : Memory) (ch : Fin maxVideoChannel) (f : VideoFile) : Memory :=
  { m with fp := Function.update m.fp ch (some f) }

/-- Store bytes in a channel's buffer. -/
def Memory.write (m : Memory) (ch : Fin maxVideoChannel) (offset : Nat) (data : List UInt8) :
    Option Memory :=
  match m.buf ch with
  | none => none
  | some b =>
      if offset + data.length ≤ maxVideoBufferLen then some (m.setBuf ch (b.store offset data))
      else none

/-- `fread(video_encoded_frame_buf[chId] + offset, 1, asked, video_file_fp[chId])`,
with the bytes it read. -/
def Memory.fread (m : Memory) (ch : Fin maxVideoChannel) (offset asked : Nat) :
    Option (List UInt8 × Memory) :=
  match m.fp ch with
  | none => none
  | some f =>
      let data := (f.content.drop f.pos).take asked
      match m.write ch offset data with
      | none => none
      | some m => some (data, m.setFile ch { f with pos := f.pos + data.length })

/-- `fseek(fp, 0, SEEK_SET)` -/
def Memory.rewind (m : Memory) (ch : Fin maxVideoChannel) : Memory :=
  match m.fp ch with
  | none => m
  | some f => m.setFile ch { f with pos := 0 }

/-- `header->len`, stored with the low byte first. -/
def Buffer.headerLen (b : Buffer) : UInt32 :=
  (b lenOffset).toUInt32 + (b (lenOffset + 1)).toUInt32 <<< 8 +
    (b (lenOffset + 2)).toUInt32 <<< 16 + (b (lenOffset + 3)).toUInt32 <<< 24

/-- The bytes a `SessionElement` with this buffer and length points to. -/
def Memory.bytes (m : Memory) (buffer len : Nat) : List UInt8 :=
  match index? maxVideoChannel buffer with
  | none => []
  | some ch =>
      match m.buf ch with
      | none => []
      | some b => b.take len

/-! ## Stores -/

theorem store_nil (b : Buffer) (offset : Nat) : b.store offset [] = b := by
  funext k
  unfold Buffer.store
  split <;> rfl

theorem store_at {b : Buffer} {offset : Nat} {data : List UInt8} {k : Nat} (below : k < data.length) :
    b.store offset data (offset + k) = data[k] := by
  unfold Buffer.store
  rw [if_neg (by omega), Nat.add_sub_cancel_left, List.getD_eq_getElem?_getD,
    List.getElem?_eq_getElem below, Option.getD_some]

theorem store_before {b : Buffer} {offset : Nat} {data : List UInt8} {k : Nat} (before : k < offset) :
    b.store offset data k = b k := by
  unfold Buffer.store
  rw [if_pos before]

theorem store_after {b : Buffer} {offset : Nat} {data : List UInt8} {k : Nat}
    (after : offset + data.length ≤ k) : b.store offset data k = b k := by
  unfold Buffer.store
  rw [if_neg (by omega), List.getD_eq_getElem?_getD, List.getElem?_eq_none (by omega),
    Option.getD_none]

@[simp] theorem take_getElem? (b : Buffer) {len k : Nat} (below : k < len) :
    (b.take len)[k]? = some (b k) := by
  rw [Buffer.take, List.getElem?_map, List.getElem?_range below]
  rfl

@[simp] theorem take_length (b : Buffer) (len : Nat) : (b.take len).length = len := by
  rw [Buffer.take, List.length_map, List.length_range]

@[simp] theorem setBuf_self (m : Memory) (ch : Fin maxVideoChannel) (b : Buffer) :
    (m.setBuf ch b).buf ch = some b :=
  Function.update_self ..

theorem setBuf_ne {m : Memory} {ch other : Fin maxVideoChannel} (differs : other ≠ ch) (b : Buffer) :
    (m.setBuf ch b).buf other = m.buf other :=
  Function.update_of_ne differs ..

@[simp] theorem rewind_buf (m : Memory) (ch : Fin maxVideoChannel) : (m.rewind ch).buf = m.buf := by
  unfold Memory.rewind
  split <;> rfl

theorem write_fits {m after : Memory} {ch : Fin maxVideoChannel} {offset : Nat}
    {data : List UInt8} (done : m.write ch offset data = some after) :
    offset + data.length ≤ maxVideoBufferLen := by
  unfold Memory.write at done
  split at done
  · cases done
  · split at done
    · assumption
    · cases done

theorem write_eq_some {m after : Memory} {ch : Fin maxVideoChannel} {offset : Nat}
    {data : List UInt8} (done : m.write ch offset data = some after) :
    ∃ b, m.buf ch = some b ∧ after = m.setBuf ch (b.store offset data) := by
  unfold Memory.write at done
  split at done
  · cases done
  · rename_i b held
    split at done
    · exact ⟨b, held, (Option.some.inj done).symm⟩
    · cases done

theorem fread_eq_some {m after : Memory} {ch : Fin maxVideoChannel} {offset asked : Nat}
    {data : List UInt8} (done : m.fread ch offset asked = some (data, after)) :
    data.length ≤ asked ∧ offset + data.length ≤ maxVideoBufferLen ∧
      ∃ b, m.buf ch = some b ∧ after.buf = (m.setBuf ch (b.store offset data)).buf := by
  unfold Memory.fread at done
  split at done
  · cases done
  · rename_i f opened
    dsimp only at done
    split at done
    · cases done
    · rename_i between wrote
      cases Option.some.inj done
      obtain ⟨b, held, same⟩ := write_eq_some wrote
      subst same
      exact ⟨List.length_take_le _ _, write_fits wrote, b, held, rfl⟩

end DvsServer.Core.VideoEncode
