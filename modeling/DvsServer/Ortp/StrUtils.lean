import DvsServer.Lib.Cells
import DvsServer.Ortp.Rtp

/-!
# Message blocks (`utils/ortp/src/str_utils.c`)

A message is a chain of blocks, each a view of a buffer that several blocks may
share through a counted `dblk_t`.  `none` is what has no meaning in C: the use
of memory that is not allocated, and reads and writes outside a buffer.  The
answers of `malloc` are arbitrary, and so is what lies in the memory it gives; an
`int` that overflows has no meaning either.
The links of a queue, `b_next` and `b_prev`, are not part of a message.
-/

namespace DvsServer.Ortp.StrUtils

open DvsServer.Lib

abbrev Addr := Nat

/-- `mblk_t`; the pointers into the buffer count from its base. -/
structure Mblk where
  bCont : Option Addr
  bDatap : Addr
  bRptr : Nat
  bWptr : Nat
deriving DecidableEq

/-- `dblk_t` -/
structure Dblk where
  dbBase : Addr
  dbLim : Nat
  /-- Whether `db_freefn` is set. -/
  dbFreefn : Bool
  refCount : Int
deriving DecidableEq

structure Heap where
  mblk : Cells Addr Mblk
  dblk : Cells Addr Dblk
  buf : Cells Addr (List Byte)

/-- `malloc` gives memory that is not in use. -/
structure Malloc where
  mblk : Heap → Addr
  dblk : Heap → Addr
  buf : Heap → Addr
  content : Heap → Nat → List Byte
  mblk_free : ∀ h : Heap, h.mblk.get (mblk h) = none
  dblk_free : ∀ h : Heap, h.dblk.get (dblk h) = none
  buf_free : ∀ h : Heap, h.buf.get (buf h) = none
  length_content : ∀ h size, (content h size).length = size

namespace Heap

def empty : Heap := ⟨.empty, .empty, .empty⟩

/-- More than any walk along `b_cont` takes. -/
def steps (h : Heap) : Nat := h.mblk.live.card + 1

def setCont (h : Heap) (mp : Addr) (bCont : Option Addr) : Option Heap := do
  let m ← h.mblk.get mp
  some { h with mblk := h.mblk.put mp { m with bCont } }

/-- What the block shows of its buffer. -/
def bytes? (h : Heap) (mp : Addr) : Option (List Byte) := do
  let m ← h.mblk.get mp
  let d ← h.dblk.get m.bDatap
  let buf ← h.buf.get d.dbBase
  if m.bRptr ≤ m.bWptr ∧ m.bWptr ≤ buf.length then
    some ((buf.drop m.bRptr).take (m.bWptr - m.bRptr))
  else none

/-- `memcpy` to `b_wptr`, which then goes on behind the bytes. -/
def write (h : Heap) (mp : Addr) (bytes : List Byte) : Option Heap := do
  let m ← h.mblk.get mp
  let d ← h.dblk.get m.bDatap
  let buf ← h.buf.get d.dbBase
  if m.bWptr + bytes.length ≤ buf.length then
    some { h with
      mblk := h.mblk.put mp { m with bWptr := m.bWptr + bytes.length }
      buf := h.buf.put d.dbBase (buf.take m.bWptr ++ bytes ++ buf.drop (m.bWptr + bytes.length)) }
  else none

end Heap

/-! ## One block -/

/-- `allocb_with_buf` -/
def allocbWithBuf (malloc : Malloc) (h : Heap) (buf : Addr) (size : Nat) (freefn : Bool) :
    Addr × Heap :=
  let mp := malloc.mblk h
  let datab := malloc.dblk h
  (mp, { h with
    mblk := h.mblk.put mp ⟨none, datab, 0, 0⟩
    dblk := h.dblk.put datab ⟨buf, size, freefn, 1⟩ })

/-- `allocb` -/
def allocb (malloc : Malloc) (h : Heap) (size : Nat) : Addr × Heap :=
  let buf := malloc.buf h
  allocbWithBuf malloc { h with buf := h.buf.put buf (malloc.content h size) } buf size true

/-- The buffer of a `dblk_t` whose last block goes. -/
def freeBase (h : Heap) (d : Dblk) : Option Heap :=
  if d.dbFreefn then (h.buf.get d.dbBase).map fun _ => { h with buf := h.buf.drop d.dbBase }
  else some h

/-- `freeb` -/
def freeb (h : Heap) (mp : Addr) : Option Heap := do
  let m ← h.mblk.get mp
  let d ← h.dblk.get m.bDatap
  let h ←
    if d.refCount - 1 = 0 then
      (freeBase h d).map fun h => { h with dblk := h.dblk.drop m.bDatap }
    else some { h with dblk := h.dblk.put m.bDatap { d with refCount := d.refCount - 1 } }
  some { h with mblk := h.mblk.drop mp }

/-- `dupb` -/
def dupb (malloc : Malloc) (h : Heap) (mp : Addr) : Option (Addr × Heap) := do
  let m ← h.mblk.get mp
  let d ← h.dblk.get m.bDatap
  let newm := malloc.mblk h
  some (newm, { h with
    mblk := h.mblk.put newm ⟨none, m.bDatap, m.bRptr, m.bWptr⟩
    dblk := h.dblk.put m.bDatap { d with refCount := d.refCount + 1 } })

/-- `copyb` -/
def copyb (malloc : Malloc) (h : Heap) (mp : Addr) : Option (Addr × Heap) := do
  let bytes ← h.bytes? mp
  let (newm, h) := allocb malloc h bytes.length
  let h ← h.write newm bytes
  some (newm, h)

/-! ## Messages -/

/-- `freemsg` -/
def freemsgLoop : Nat → Heap → Option Addr → Option Heap
  | 0, _, _ => none
  | _ + 1, h, none => some h
  | fuel + 1, h, some mp => do
      let m ← h.mblk.get mp
      let h ← freeb h mp
      freemsgLoop fuel h m.bCont

def freemsg (h : Heap) (mp : Addr) : Option Heap := freemsgLoop h.steps h (some mp)

/-- The loop of `dupmsg` and of `copymsg`, which appends a copy of each block. -/
def copyLoop (each : Heap → Addr → Option (Addr × Heap)) :
    Nat → Heap → Option Addr → Addr → Option Heap
  | 0, _, _, _ => none
  | _ + 1, h, none, _ => some h
  | fuel + 1, h, some m, prev => do
      let (mp, h) ← each h m
      let h ← h.setCont prev (some mp)
      let block ← h.mblk.get m
      copyLoop each fuel h block.bCont mp

def copyChain (each : Heap → Addr → Option (Addr × Heap)) (h : Heap) (m : Addr) :
    Option (Addr × Heap) := do
  let (newm, h') ← each h m
  let block ← h'.mblk.get m
  let h' ← copyLoop each h.steps h' block.bCont newm
  some (newm, h')

/-- `dupmsg` -/
def dupmsg (malloc : Malloc) : Heap → Addr → Option (Addr × Heap) := copyChain (dupb malloc)

/-- `copymsg` -/
def copymsg (malloc : Malloc) : Heap → Addr → Option (Addr × Heap) := copyChain (copyb malloc)

/-- More than the largest `int`. -/
abbrev intLimit : Nat := 2 ^ 31

/-- A value that is computed in an `int`. -/
def int? (value : Int) : Option Int :=
  if -intLimit ≤ value ∧ value < intLimit then some value else none

/-- The loop of `msgdsize`. -/
def msgdsizeLoop : Nat → Heap → Option Addr → Int → Option Int
  | 0, _, _, _ => none
  | _ + 1, _, none, msgsize => some msgsize
  | fuel + 1, h, some mp, msgsize => do
      let m ← h.mblk.get mp
      let msgsize ← int? (msgsize + ((m.bWptr : Int) - m.bRptr))
      msgdsizeLoop fuel h m.bCont msgsize

/-- `msgdsize` -/
def msgdsize (h : Heap) (mp : Addr) : Option Int := msgdsizeLoop h.steps h (some mp) 0

/-- The loop of `msgpullup`. -/
def pullupLoop (malloc : Malloc) (newm : Addr) : Nat → Heap → Option Addr → Nat → Option Heap
  | 0, _, _, _ => none
  | _ + 1, h, none, _ => some h
  | fuel + 1, h, some mp, rlen => do
      let bytes ← h.bytes? mp
      if bytes.length ≤ rlen then
        let h ← h.write newm bytes
        let m ← h.mblk.get mp
        pullupLoop malloc newm fuel h m.bCont (rlen - bytes.length)
      else
        let h ← h.write newm (bytes.take rlen)
        -- the end of the original message, behind what was copied
        let (rest, h) ← dupmsg malloc h mp
        let h ← h.setCont newm (some rest)
        let m ← h.mblk.get rest
        some { h with mblk := h.mblk.put rest { m with bRptr := m.bRptr + rlen } }

/-- `msgpullup` -/
def msgpullup (malloc : Malloc) (h : Heap) (mp : Addr) (len : Int) : Option (Addr × Heap) := do
  let msgsize ← msgdsize h mp
  let len := if len = -1 ∨ msgsize < len then msgsize else len
  if len < 0 then none
  else
    let (newm, h') := allocb malloc h len.toNat
    let h' ← pullupLoop malloc newm h.steps h' (some mp) len.toNat
    some (newm, h')

/-- The walk to the last block. -/
def lastBlock : Nat → Heap → Addr → Option Addr
  | 0, _, _ => none
  | fuel + 1, h, mp => do
      let m ← h.mblk.get mp
      match m.bCont with
      | none => some mp
      | some next => lastBlock fuel h next

/-- The bytes that `appendb` pads with; buffers start at multiples of four, as
`malloc` gives them. -/
def padcnt (m : Mblk) (size : Nat) (pad : Bool) : Nat :=
  if pad then (4 - (m.bWptr + size) % 4) % 4 else 0

/-- `appendb` -/
def appendb (malloc : Malloc) (h : Heap) (mp : Addr) (data : List Byte) (pad : Bool) :
    Option (Addr × Heap) := do
  let m ← h.mblk.get mp
  let d ← h.dblk.get m.bDatap
  let padcnt := padcnt m data.length pad
  let (mp, h) ←
    if d.dbLim < m.bWptr + data.length + padcnt then do
      let (next, h) := allocb malloc h (max d.dbLim data.length)
      let h ← h.setCont mp (some next)
      some (next, h)
    else some (mp, h)
  let h ← h.write mp data
  let h ← h.write mp (List.replicate padcnt 0)
  some (mp, h)

/-- `msgappend` -/
def msgappend (malloc : Malloc) (h : Heap) (mp : Addr) (data : List Byte) (pad : Bool) :
    Option Heap := do
  let last ← lastBlock h.steps h mp
  let (_, h) ← appendb malloc h last data pad
  some h

/-- `concatb` -/
def concatb (h : Heap) (mp newm : Addr) : Option (Addr × Heap) := do
  let last ← lastBlock h.steps h mp
  let h ← h.setCont last (some newm)
  let end_ ← lastBlock h.steps h newm
  some (end_, h)

/-! ## How they are used -/

/-- The start of `rtp_session_create_packet`: a new block with some bytes. -/
def newPacket (malloc : Malloc) (h : Heap) (size : Nat) (data : List Byte) :
    Option (Addr × Heap) := do
  let (mp, h) := allocb malloc h size
  let h ← h.write mp data
  some (mp, h)

/-- The second block of `rtp_session_create_packet_with_data`: the payload stays
where it is.  The first is a `newPacket`, linked to it as by `concatb`. -/
def wrapPayload (malloc : Malloc) (h : Heap) (payload : Addr) (size : Nat) (freefn : Bool) :
    Option (Addr × Heap) := do
  let (mp, h) := allocbWithBuf malloc h payload size freefn
  let m ← h.mblk.get mp
  some (mp, { h with mblk := h.mblk.put mp { m with bWptr := m.bWptr + size } })

/-- `rtp_recv` and `rtcp_recv` of one datagram: the buffer of the new block
shrinks to what was received. -/
def recvBlock (malloc : Malloc) (h : Heap) (size : Nat) (datagram : List Byte) :
    Option (Addr × Heap) := do
  let (mp, h) := allocb malloc h size
  let h ← h.write mp datagram
  let m ← h.mblk.get mp
  let d ← h.dblk.get m.bDatap
  let buf ← h.buf.get d.dbBase
  let h := { h with buf := h.buf.drop d.dbBase }
  let p := malloc.buf h
  some (mp, { h with
    buf := h.buf.put p (buf.take datagram.length)
    dblk := h.dblk.put m.bDatap { d with dbBase := p, dbLim := datagram.length } })

/-- `split_and_queue` up to the queue: the header keeps its block, and the
data gets a second one on the same buffer. -/
def splitBlock (malloc : Malloc) (h : Heap) (mp : Addr) (headerSize : Nat) : Option Heap := do
  let (mdata, h) ← dupb malloc h mp
  let m ← h.mblk.get mp
  let h := { h with mblk := h.mblk.put mp { m with bWptr := m.bRptr + headerSize } }
  let data ← h.mblk.get mdata
  let h := { h with mblk := h.mblk.put mdata { data with bRptr := data.bRptr + headerSize } }
  h.setCont mp (some mdata)

end DvsServer.Ortp.StrUtils
