import DvsServer.Ortp.Messages
import Mathlib.Data.Finset.Fold

/-!
# Messages are values

For the application a message is a string of bytes: copies, shared buffers and
`freemsg` do not show.  It is asked to use only messages that it has, to write
to a message only while no other shares its buffer, to leave its own buffers
alone while messages show them, and to make no message too long for an `int`.
-/

namespace DvsServer.Ortp.StrUtils

open DvsServer.Lib

/-- What the application has: its messages with their bytes, and its buffers. -/
structure Client where
  store : Cells Addr (List Byte)
  statics : Cells Addr (List Byte)

structure State where
  heap : Heap
  client : Client

inductive Op where
  /-- The application takes a buffer of its own and fills it. -/
  | clientBuf (content : List Byte)
  | newPacket (size : Nat) (data : List Byte)
  | wrapPayload (payload : Addr) (size : Nat) (freefn : Bool)
  | recv (size : Nat) (datagram : List Byte)
  | split (mp : Addr) (headerSize : Nat)
  | dupmsg (mp : Addr)
  | copymsg (mp : Addr)
  | msgpullup (mp : Addr) (len : Int)
  | concatb (mp newm : Addr)
  | msgappend (mp : Addr) (data : List Byte) (pad : Bool)
  | freemsg (mp : Addr)

/-- One call: the message or the buffer that it gives, and the heap after it. -/
def msgExec (malloc : Malloc) (h : Heap) : Op → Option (Option Addr × Heap)
  | .clientBuf content =>
      some (some (malloc.buf h), { h with buf := h.buf.put (malloc.buf h) content })
  | .newPacket size data => (newPacket malloc h size data).map fun made => (some made.1, made.2)
  | .wrapPayload payload size freefn =>
      (wrapPayload malloc h payload size freefn).map fun made => (some made.1, made.2)
  | .recv size datagram =>
      (recvBlock malloc h size datagram).map fun made => (some made.1, made.2)
  | .split mp headerSize => (splitBlock malloc h mp headerSize).map fun h => (none, h)
  | .dupmsg mp => (dupmsg malloc h mp).map fun made => (some made.1, made.2)
  | .copymsg mp => (copymsg malloc h mp).map fun made => (some made.1, made.2)
  | .msgpullup mp len => (msgpullup malloc h mp len).map fun made => (some made.1, made.2)
  | .concatb mp newm => (concatb h mp newm).map fun joined => (none, joined.2)
  | .msgappend mp data pad => (msgappend malloc h mp data pad).map fun h => (none, h)
  | .freemsg mp => (freemsg h mp).map fun h => (none, h)

/-- The block at which `msgappend` starts. -/
def Heap.lastOf (h : Heap) (mp : Addr) : Option Mblk :=
  (lastBlock h.steps h mp).bind h.mblk.get

namespace Client

def bytes (c : Client) (mp : Addr) : List Byte := (c.store.get mp).getD []

/-- A further message of the application, or one that now has other bytes. -/
def sets (c : Client) (bytes : List Byte) : Option Addr → Client
  | none => c
  | some mp => { c with store := c.store.put mp bytes }

end Client

/-- What the application is asked for. -/
def Allowed (s : State) : Op → Prop
  | .clientBuf _ => True
  | .newPacket size data => data.length ≤ size ∧ size < intLimit
  | .wrapPayload payload size freefn => ∃ content, s.client.statics.get payload = some content ∧
      size ≤ content.length ∧ size < intLimit ∧
      (freefn = true → ∀ a d, s.heap.dblk.get a = some d → d.dbBase ≠ payload)
  | .recv size datagram => datagram.length ≤ size ∧ size < intLimit
  | .split mp headerSize => ∃ bytes m, s.client.store.get mp = some bytes ∧
      headerSize ≤ bytes.length ∧ s.heap.mblk.get mp = some m ∧ m.bCont = none
  | .dupmsg mp => s.client.store.get mp ≠ none
  | .copymsg mp => s.client.store.get mp ≠ none
  | .msgpullup mp len => s.client.store.get mp ≠ none ∧ -1 ≤ len
  | .concatb mp newm =>
      s.client.store.get mp ≠ none ∧ s.client.store.get newm ≠ none ∧ mp ≠ newm ∧
      (s.client.bytes mp).length + (s.client.bytes newm).length < intLimit
  | .msgappend mp data pad => s.client.store.get mp ≠ none ∧
      ∃ m d, s.heap.lastOf mp = some m ∧ s.heap.dblk.get m.bDatap = some d ∧ d.refCount = 1 ∧
        d.dbFreefn = true ∧ (pad = true → data.length + 3 ≤ d.dbLim) ∧
        (s.client.bytes mp).length + data.length + 3 < intLimit
  | .freemsg mp => s.client.store.get mp ≠ none

/-- What a call means to the application, which is given `ret`. -/
def State.after (s : State) (op : Op) (ret : Option Addr) : Client :=
  let c := s.client
  match op with
  | .clientBuf content =>
      match ret with
      | none => c
      | some b => { c with statics := c.statics.put b content }
  | .newPacket _ data => c.sets data ret
  | .wrapPayload payload size freefn =>
      let content := (c.statics.get payload).getD []
      let statics := if freefn then c.statics.drop payload else c.statics
      { c with statics }.sets (content.take size) ret
  | .recv _ datagram => c.sets datagram ret
  | .split _ _ => c
  | .dupmsg mp => c.sets (c.bytes mp) ret
  | .copymsg mp => c.sets (c.bytes mp) ret
  | .msgpullup mp _ => c.sets (c.bytes mp) ret
  | .concatb mp newm =>
      { c with store := (c.store.drop newm).put mp (c.bytes mp ++ c.bytes newm) }
  | .msgappend mp data pad =>
      let n := (s.heap.lastOf mp).elim 0 fun m => padcnt m data.length pad
      c.sets (c.bytes mp ++ data ++ List.replicate n 0) (some mp)
  | .freemsg mp => { c with store := c.store.drop mp }

/-- What a call gives is none of what the application has. -/
def State.New (s : State) (op : Op) : Option Addr → Prop
  | none => True
  | some a =>
      match op with
      | .clientBuf _ => s.client.statics.get a = none
      | _ => s.client.store.get a = none

/-- A call with the answers of `malloc` and what it gave. -/
structure Event where
  malloc : Malloc
  op : Op
  ret : Option Addr

/-- A call that keeps to what is asked for. -/
def Calls (s : State) (e : Event) (s' : State) : Prop :=
  Allowed s e.op ∧ msgExec e.malloc s.heap e.op = some (e.ret, s'.heap) ∧
    s'.client = s.after e.op e.ret

def started : State := ⟨.empty, ⟨.empty, .empty⟩⟩

/-! ## What a message holds -/

/-- The loop over the blocks of a message. -/
def readLoop : Nat → Heap → Option Addr → Option (List Byte)
  | 0, _, _ => none
  | _ + 1, _, none => some []
  | fuel + 1, h, some mp => do
      let m ← h.mblk.get mp
      let bytes ← h.bytes? mp
      let rest ← readLoop fuel h m.bCont
      some (bytes ++ rest)

/-- The bytes of a message. -/
def message (h : Heap) (mp : Addr) : Option (List Byte) := readLoop h.steps h (some mp)

theorem readLoop_spec {h : Heap} {statics : Cells Addr (List Byte)} (sound : Sound h statics)
    {p : Option Addr} {blocks : List Addr} {fuel : Nat} (chain : Chain h p blocks)
    (enough : blocks.length < fuel) : readLoop fuel h p = some (contents h blocks) := by
  induction blocks generalizing p fuel with
  | nil =>
      obtain rfl : p = none := chain
      obtain ⟨fuel, rfl⟩ := exists_fuel enough
      rfl
  | cons a rest ih =>
      obtain ⟨rfl, m, there, tail⟩ := chain
      obtain ⟨fuel, rfl⟩ := exists_fuel enough
      obtain ⟨d, buf, view⟩ := sound.view there
      have bytes : h.bytes? a = some (h.shown a) := by rw [view.shown, view.bytes]
      simp only [readLoop, there, bytes, ih tail (Nat.lt_of_succ_lt_succ enough),
        Option.bind_eq_bind, Option.bind_some, contents_cons]

/-- The blocks are those of the application's messages, which hold their bytes. -/
structure Stored (h : Heap) (c : Client) : Prop where
  sound : Sound h c.statics
  holds : ∀ {mp bytes}, c.store.get mp = some bytes →
    ∃ blocks, Chain h (some mp) blocks ∧ contents h blocks = bytes
  apart : ∀ {mp mp' blocks blocks' a}, c.store.get mp ≠ none → c.store.get mp' ≠ none →
    Chain h (some mp) blocks → Chain h (some mp') blocks' → a ∈ blocks → a ∈ blocks' → mp = mp'
  covered : ∀ {a m}, h.mblk.get a = some m →
    ∃ mp blocks, c.store.get mp ≠ none ∧ Chain h (some mp) blocks ∧ a ∈ blocks

/-- The messages that are `gone`, and new blocks, are all that is touched. -/
structure Taken (h : Heap) (c : Client) (gone : Addr → Prop) (touched : List Addr) : Prop where
  known : ∀ mp, gone mp → c.store.get mp ≠ none
  origin : ∀ a ∈ touched, h.mblk.get a = none ∨
    ∃ mp blocks, gone mp ∧ Chain h (some mp) blocks ∧ a ∈ blocks
  whole : ∀ mp blocks, gone mp → Chain h (some mp) blocks → blocks ⊆ touched

theorem Taken.of_message {h : Heap} {c : Client} {mp : Addr} {blocks touched : List Addr}
    (held : c.store.get mp ≠ none) (chain : Chain h (some mp) blocks) (covers : blocks ⊆ touched)
    (others : ∀ a ∈ touched, a ∈ blocks ∨ h.mblk.get a = none) :
    Taken h c (fun a => a = mp) touched := by
  constructor
  · rintro _ rfl
    exact held
  · intro a inside
    rcases others a inside with own | fresh
    · exact .inr ⟨mp, blocks, rfl, chain, own⟩
    · exact .inl fresh
  · rintro _ blocks' rfl chain'
    rw [chain'.unique chain]
    exact covers

theorem Taken.of_new {h : Heap} {c : Client} {touched : List Addr}
    (fresh : ∀ a ∈ touched, h.mblk.get a = none) : Taken h c (fun _ => False) touched :=
  ⟨fun _ gone => gone.elim, fun a inside => .inl (fresh a inside), fun _ _ gone => gone.elim⟩

namespace Stored

variable {h h' : Heap} {c : Client} {touched : List Addr}

theorem of_get (stored : Stored h c) {mp : Addr} (held : c.store.get mp ≠ none) :
    ∃ bytes blocks, c.store.get mp = some bytes ∧ Chain h (some mp) blocks ∧
      contents h blocks = bytes := by
  obtain ⟨bytes, found⟩ := Option.ne_none_iff_exists'.mp held
  obtain ⟨blocks, chain, same⟩ := stored.holds found
  exact ⟨bytes, blocks, found, chain, same⟩

/-- A message starts with a block. -/
theorem head {p : Addr} {blocks : List Addr} (chain : Chain h (some p) blocks) : p ∈ blocks := by
  cases blocks with
  | nil => cases chain
  | cons a rest =>
      obtain ⟨same, -⟩ := chain
      cases same
      exact List.mem_cons_self

/-- A new block is not the start of a message. -/
theorem new (stored : Stored h c) {mp : Addr} (free : h.mblk.get mp = none) :
    c.store.get mp = none := by
  by_contra held
  obtain ⟨bytes, blocks, -, chain, -⟩ := stored.of_get held
  obtain ⟨m, there⟩ := chain.live (head chain)
  rw [free] at there
  cases there

/-- What is left of the application's messages when some are `gone`. -/
theorem others (stored : Stored h c) (frame : Frame h h' touched) {gone : Addr → Prop}
    (taken : Taken h c gone touched)
    {mp : Addr} {bytes : List Byte} (held : c.store.get mp = some bytes) (stays : ¬ gone mp) :
    ∃ blocks, Chain h (some mp) blocks ∧ Chain h' (some mp) blocks ∧ contents h' blocks = bytes ∧
      ∀ a ∈ blocks, a ∉ touched := by
  obtain ⟨blocks, chain, same⟩ := stored.holds held
  have untouched : ∀ a ∈ blocks, a ∉ touched := by
    intro a inside touch
    rcases taken.origin a touch with free | ⟨mp', blocks', leaves, chain', inside'⟩
    · obtain ⟨m, there⟩ := chain.live inside
      rw [free] at there
      cases there
    · have equal := stored.apart (by simp [held]) (taken.known mp' leaves) chain chain' inside inside'
      exact stays (equal ▸ leaves)
  obtain ⟨chain', same'⟩ := frame.chain chain untouched
  exact ⟨blocks, chain, chain', same'.trans same, untouched⟩

/-- The messages that a change leaves alone are the same afterwards. -/
theorem stays (stored : Stored h c) (frame : Frame h h' touched) {gone : Addr → Prop}
    (taken : Taken h c gone touched)
    {mp : Addr} (held : c.store.get mp ≠ none) (kept : ¬ gone mp) {blocks : List Addr}
    (chain' : Chain h' (some mp) blocks) :
    Chain h (some mp) blocks ∧ ∀ a ∈ blocks, a ∉ touched := by
  obtain ⟨bytes, found⟩ := Option.ne_none_iff_exists'.mp held
  obtain ⟨blocks', chain, now, -, untouched⟩ := stored.others frame taken found kept
  rw [chain'.unique now]
  exact ⟨chain, untouched⟩

/-- The messages that are gone have left nothing behind. -/
theorem removes (stored : Stored h c) (frame : Frame h h' touched) {gone : Addr → Prop}
    (taken : Taken h c gone touched) {c' : Client}
    (sound : Sound h' c'.statics) (freed : ∀ a ∈ touched, h'.mblk.get a = none)
    (left : ∀ a, ¬ gone a → c'.store.get a = c.store.get a)
    (dropped : ∀ a, gone a → c'.store.get a = none) : Stored h' c' := by
  have kept : ∀ {mp}, c'.store.get mp ≠ none → ¬ gone mp ∧ c.store.get mp ≠ none := by
    intro mp held
    have remains : ¬ gone mp := fun leaves => held (dropped mp leaves)
    exact ⟨remains, left mp remains ▸ held⟩
  constructor
  case sound => exact sound
  case holds =>
    intro mp bytes held
    obtain ⟨remains, -⟩ := kept (by rw [held]; exact Option.some_ne_none bytes)
    rw [left mp remains] at held
    obtain ⟨blocks, -, now, same, -⟩ := stored.others frame taken held remains
    exact ⟨blocks, now, same⟩
  case apart =>
    intro mp mp' blocks blocks' a held held' chain chain' inside inside'
    obtain ⟨remains, before⟩ := kept held
    obtain ⟨remains', before'⟩ := kept held'
    exact stored.apart before before' (stored.stays frame taken before remains chain).1
      (stored.stays frame taken before' remains' chain').1 inside inside'
  case covered =>
    intro a m there
    have outside : a ∉ touched := by
      intro touch
      rw [freed a touch] at there
      cases there
    have live : h.mblk.get a ≠ none := by
      intro free
      rw [frame.free a free outside] at there
      cases there
    obtain ⟨m', there'⟩ := Option.ne_none_iff_exists'.mp live
    obtain ⟨mp, blocks, held, chain, inside⟩ := stored.covered there'
    have remains : ¬ gone mp := fun leaves => outside (taken.whole mp blocks leaves chain inside)
    obtain ⟨bytes, found⟩ := Option.ne_none_iff_exists'.mp held
    obtain ⟨blocks', old, now, -, -⟩ := stored.others frame taken found remains
    rw [chain.unique old] at inside
    exact ⟨mp, blocks', by rw [left mp remains]; exact held, now, inside⟩

/-- The blocks of the messages that are gone, and new ones, are now one message. -/
theorem replaces (stored : Stored h c) (frame : Frame h h' touched) {gone : Addr → Prop}
    (taken : Taken h c gone touched) {c' : Client}
    (sound : Sound h' c'.statics) {mp : Addr} {bytes : List Byte}
    (own : ¬ gone mp → c.store.get mp = none) (chain : Chain h' (some mp) touched)
    (holds : contents h' touched = bytes) (made : c'.store.get mp = some bytes)
    (left : ∀ a, a ≠ mp → ¬ gone a → c'.store.get a = c.store.get a)
    (dropped : ∀ a, a ≠ mp → gone a → c'.store.get a = none) : Stored h' c' := by
  have kept : ∀ {a}, a ≠ mp → c'.store.get a ≠ none → ¬ gone a ∧ c.store.get a ≠ none := by
    intro a other held
    have remains : ¬ gone a := fun leaves => held (dropped a other leaves)
    exact ⟨remains, left a other remains ▸ held⟩
  have other : ∀ {a blocks}, a ≠ mp → c'.store.get a ≠ none → Chain h' (some a) blocks →
      c.store.get a ≠ none ∧ Chain h (some a) blocks ∧ ∀ b ∈ blocks, b ∉ touched := by
    intro a blocks different held chain'
    obtain ⟨remains, before⟩ := kept different held
    exact ⟨before, stored.stays frame taken before remains chain'⟩
  constructor
  case sound => exact sound
  case holds =>
    intro a bytes' held
    by_cases same : a = mp
    · rw [same, made] at held
      cases held
      rw [same]
      exact ⟨touched, chain, holds⟩
    · obtain ⟨remains, -⟩ := kept same (by rw [held]; exact Option.some_ne_none bytes')
      rw [left a same remains] at held
      obtain ⟨blocks, -, now, same', -⟩ := stored.others frame taken held remains
      exact ⟨blocks, now, same'⟩
  case apart =>
    intro a a' blocks blocks' b held held' chain₁ chain₂ in₁ in₂
    by_cases same : a = mp <;> by_cases same' : a' = mp
    · rw [same, same']
    · rw [same] at chain₁
      rw [chain₁.unique chain] at in₁
      exact absurd in₁ ((other same' held' chain₂).2.2 b in₂)
    · rw [same'] at chain₂
      rw [chain₂.unique chain] at in₂
      exact absurd in₂ ((other same held chain₁).2.2 b in₁)
    · obtain ⟨before, old, -⟩ := other same held chain₁
      obtain ⟨before', old', -⟩ := other same' held' chain₂
      exact stored.apart before before' old old' in₁ in₂
  case covered =>
    intro a m there
    by_cases touch : a ∈ touched
    · exact ⟨mp, touched, by rw [made]; exact Option.some_ne_none bytes, chain, touch⟩
    · have live : h.mblk.get a ≠ none := by
        intro free
        rw [frame.free a free touch] at there
        cases there
      obtain ⟨m', there'⟩ := Option.ne_none_iff_exists'.mp live
      obtain ⟨mp', blocks, held, chain', inside⟩ := stored.covered there'
      have remains : ¬ gone mp' := fun leaves => touch (taken.whole mp' blocks leaves chain' inside)
      have same : mp' ≠ mp := by
        rintro rfl
        exact held (own remains)
      obtain ⟨bytes', found⟩ := Option.ne_none_iff_exists'.mp held
      obtain ⟨blocks', old, now, -, -⟩ := stored.others frame taken found remains
      rw [chain'.unique old] at inside
      exact ⟨mp', blocks', by rw [left mp' same remains]; exact held, now, inside⟩

/-- A message of new blocks. -/
theorem adds (stored : Stored h c) {mp : Addr} {news : List Addr} {bytes : List Byte}
    {statics : Cells Addr (List Byte)} (frame : Frame h h' (mp :: news))
    (fresh : ∀ a ∈ mp :: news, h.mblk.get a = none) (sound : Sound h' statics)
    (chain : Chain h' (some mp) (mp :: news)) (holds : contents h' (mp :: news) = bytes) :
    Stored h' ({ c with statics }.sets bytes (some mp)) := by
  refine stored.replaces frame (Taken.of_new fresh) sound
    (fun _ => stored.new (fresh mp List.mem_cons_self)) chain holds (Cells.get_put _) ?_
    (fun _ _ gone => gone.elim)
  intro a other _
  exact Cells.get_put_ne _ other

/-- A message of one new block. -/
theorem addsBlock (stored : Stored h c) {mp : Addr} {bytes : List Byte}
    {statics : Cells Addr (List Byte)} (sound : Sound h' statics) (made : Adds h h' mp bytes) :
    Stored h' ({ c with statics }.sets bytes (some mp)) := by
  obtain ⟨m, there, single⟩ := made.mblk
  refine stored.adds (Frame.of_adds made) ?_ sound ⟨rfl, m, there, single⟩ ?_
  · intro a inside
    rw [List.mem_singleton.mp inside]
    exact made.new
  · rw [contents_cons, contents_nil, List.append_nil, made.shown]

/-- A message with other blocks behind its own, and other bytes. -/
theorem rewrites (stored : Stored h c) {mp : Addr} {blocks : List Addr} {bytes : List Byte}
    {c' : Client} (held : c.store.get mp ≠ none) (chain : Chain h (some mp) blocks)
    (frame : Frame h h' touched) (covers : blocks ⊆ touched)
    (others : ∀ a ∈ touched, a ∈ blocks ∨ h.mblk.get a = none) (sound : Sound h' c'.statics)
    (chain' : Chain h' (some mp) touched) (holds : contents h' touched = bytes)
    (made : c'.store.get mp = some bytes)
    (left : ∀ a, a ≠ mp → c'.store.get a = c.store.get a) : Stored h' c' :=
  stored.replaces frame (.of_message held chain covers others) sound
    (fun stays => absurd rfl stays) chain' holds made (fun a other _ => left a other)
    (fun _ other same => absurd same other)

end Stored

/-! ## The calls -/

theorem Client.bytes_of_get {c : Client} {mp : Addr} {bytes : List Byte}
    (found : c.store.get mp = some bytes) : c.bytes mp = bytes := by
  rw [Client.bytes, found]
  rfl

/-- The length of every message is an `int`. -/
def Client.Small (c : Client) : Prop :=
  ∀ mp bytes, c.store.get mp = some bytes → bytes.length < intLimit

namespace Client.Small

variable {c : Client}

theorem bytes (small : c.Small) (mp : Addr) : (c.bytes mp).length < intLimit := by
  cases found : c.store.get mp with
  | none =>
      rw [Client.bytes, found]
      decide
  | some bytes =>
      rw [bytes_of_get found]
      exact small _ _ found

theorem put (small : c.Small) {mp : Addr} {bytes : List Byte} (fits : bytes.length < intLimit)
    {statics : Cells Addr (List Byte)} : Small ⟨c.store.put mp bytes, statics⟩ := by
  intro a other found
  by_cases same : a = mp
  · rw [same, Cells.get_put] at found
    cases found
    exact fits
  · rw [Cells.get_put_ne _ same] at found
    exact small _ _ found

theorem drop (small : c.Small) (mp : Addr) : Small { c with store := c.store.drop mp } := by
  intro a other found
  by_cases same : a = mp
  · rw [same, Cells.get_drop] at found
    cases found
  · rw [Cells.get_drop_ne same] at found
    exact small _ _ found

theorem sets (small : c.Small) {bytes : List Byte} (fits : bytes.length < intLimit)
    {statics : Cells Addr (List Byte)} (ret : Option Addr) :
    ({ c with statics }.sets bytes ret).Small := by
  cases ret with
  | none => exact small
  | some mp => exact small.put fits

/-- No call makes a message that is too long. -/
theorem after {s : State} (small : s.client.Small) {op : Op} (allowed : Allowed s op)
    (ret : Option Addr) : (s.after op ret).Small := by
  cases op with
  | clientBuf content => cases ret <;> exact small
  | newPacket size data => exact small.sets (Nat.lt_of_le_of_lt allowed.1 allowed.2) ret
  | wrapPayload payload size freefn =>
      obtain ⟨content, -, -, short, -⟩ := allowed
      exact small.sets (Nat.lt_of_le_of_lt (List.length_take_le _ _) short) ret
  | recv size datagram => exact small.sets (Nat.lt_of_le_of_lt allowed.1 allowed.2) ret
  | split mp headerSize => exact small
  | dupmsg mp => exact small.sets (small.bytes mp) ret
  | copymsg mp => exact small.sets (small.bytes mp) ret
  | msgpullup mp len => exact small.sets (small.bytes mp) ret
  | concatb mp newm =>
      obtain ⟨-, -, -, short⟩ := allowed
      refine (small.drop newm).put ?_
      rw [List.length_append]
      exact short
  | msgappend mp data pad =>
      obtain ⟨-, m, -, lastOf, -, -, -, -, short⟩ := allowed
      have padding := padcnt_lt m data.length pad
      refine small.sets ?_ (some mp)
      rw [lastOf, Option.elim_some, List.length_append, List.length_append, List.length_replicate]
      omega
  | freemsg mp => exact small.drop mp

theorem calls {s s' : State} {e : Event} (small : s.client.Small) (called : Calls s e s') :
    s'.client.Small := by
  obtain ⟨allowed, -, client⟩ := called
  rw [client]
  exact small.after allowed e.ret

end Client.Small

namespace Stored

variable {s : State} (malloc : Malloc)

/-- The call is defined, what it gives is new, and the messages are what the
application takes them for. -/
def Serves (malloc : Malloc) (s : State) (op : Op) : Prop :=
  ∃ ret h', msgExec malloc s.heap op = some (ret, h') ∧ s.New op ret ∧ Stored h' (s.after op ret)

theorem clientBuf (stored : Stored s.heap s.client) (content : List Byte) :
    Serves malloc s (.clientBuf content) := by
  have free := malloc.buf_free s.heap
  obtain ⟨sound, same⟩ := stored.sound.put_buf free content
  have fresh : ∀ a ∈ ([] : List Addr), s.heap.mblk.get a = none := by simp
  refine ⟨_, _, rfl, stored.sound.not_static free, ?_⟩
  exact stored.removes ⟨fun a m there _ => same a m there, fun _ free _ => free⟩
    (.of_new fresh) sound (by simp) (fun _ _ => rfl) (fun _ gone => gone.elim)

theorem newPacket (stored : Stored s.heap s.client) {size : Nat} {data : List Byte}
    (allowed : Allowed s (.newPacket size data)) : Serves malloc s (.newPacket size data) := by
  obtain ⟨mp, h', made, sound, -, adds⟩ := stored.sound.newPacket malloc allowed.1
  refine ⟨some mp, h', ?_, stored.new adds.new, stored.addsBlock sound adds⟩
  rw [msgExec, made]
  rfl

theorem recv (stored : Stored s.heap s.client) {size : Nat} {datagram : List Byte}
    (allowed : Allowed s (.recv size datagram)) : Serves malloc s (.recv size datagram) := by
  obtain ⟨mp, h', made, sound, adds⟩ := stored.sound.recvBlock malloc allowed.1
  refine ⟨some mp, h', ?_, stored.new adds.new, stored.addsBlock sound adds⟩
  rw [msgExec, made]
  rfl

theorem wrapPayload (stored : Stored s.heap s.client) {payload : Addr} {size : Nat} {freefn : Bool}
    (allowed : Allowed s (.wrapPayload payload size freefn)) :
    Serves malloc s (.wrapPayload payload size freefn) := by
  obtain ⟨content, given, fits, -, alone⟩ := allowed
  obtain ⟨mp, h', made, sound, -, adds⟩ :=
    stored.sound.wrapPayload malloc freefn (stored.sound.kept given) given fits alone
  refine ⟨some mp, h', ?_, stored.new adds.new, ?_⟩
  · rw [msgExec, made]
    rfl
  · have after := stored.addsBlock sound adds
    simpa only [State.after, given, Option.getD_some] using after

theorem copyChain (stored : Stored s.heap s.client)
    {each : Heap → Addr → Option (Addr × Heap)} (copier : Copier each) {mp : Addr}
    (held : s.client.store.get mp ≠ none) :
    ∃ newm h', StrUtils.copyChain each s.heap mp = some (newm, h') ∧
      s.client.store.get newm = none ∧
      Stored h' (s.client.sets (s.client.bytes mp) (some newm)) := by
  obtain ⟨bytes, blocks, found, chain, same⟩ := stored.of_get held
  obtain ⟨newm, h', news, made, sound, chain', -, contents', frame, fresh⟩ :=
    copyChain_spec copier stored.sound chain
  refine ⟨newm, h', made, stored.new (fresh newm List.mem_cons_self), ?_⟩
  rw [Client.bytes_of_get found]
  exact stored.adds frame fresh sound chain' (contents'.trans same)

theorem dupmsg (stored : Stored s.heap s.client) {mp : Addr} (allowed : Allowed s (.dupmsg mp)) :
    Serves malloc s (.dupmsg mp) := by
  obtain ⟨newm, h', made, new, after⟩ := stored.copyChain (copier_dupb malloc) allowed
  refine ⟨some newm, h', ?_, new, after⟩
  rw [msgExec, StrUtils.dupmsg, made]
  rfl

theorem copymsg (stored : Stored s.heap s.client) {mp : Addr} (allowed : Allowed s (.copymsg mp)) :
    Serves malloc s (.copymsg mp) := by
  obtain ⟨newm, h', made, new, after⟩ := stored.copyChain (copier_copyb malloc) allowed
  refine ⟨some newm, h', ?_, new, after⟩
  rw [msgExec, StrUtils.copymsg, made]
  rfl

theorem msgpullup (stored : Stored s.heap s.client) (small : s.client.Small) {mp : Addr}
    {len : Int} (allowed : Allowed s (.msgpullup mp len)) : Serves malloc s (.msgpullup mp len) := by
  obtain ⟨held, proper⟩ := allowed
  obtain ⟨bytes, blocks, found, chain, same⟩ := stored.of_get held
  obtain ⟨newm, h', news, made, sound, chain', contents', frame, fresh⟩ :=
    msgpullup_spec malloc stored.sound chain (same ▸ small _ _ found) proper
  refine ⟨some newm, h', ?_, stored.new (fresh newm List.mem_cons_self), ?_⟩
  · rw [msgExec, made]
    rfl
  · simp only [State.after, Client.bytes_of_get found]
    exact stored.adds frame fresh sound chain' (contents'.trans same)

theorem split (stored : Stored s.heap s.client) {mp : Addr} {headerSize : Nat}
    (allowed : Allowed s (.split mp headerSize)) : Serves malloc s (.split mp headerSize) := by
  obtain ⟨bytes, m, found, fits, there, single⟩ := allowed
  have held : s.client.store.get mp ≠ none := by rw [found]; exact Option.some_ne_none bytes
  obtain ⟨blocks, chain, same⟩ := stored.holds found
  have alone : Chain s.heap (some mp) [mp] := ⟨rfl, m, there, single⟩
  rw [chain.unique alone, contents_cons, contents_nil, List.append_nil] at same
  rw [← same] at fits
  obtain ⟨mdata, h', made, sound, chain', contents', frame, fresh⟩ :=
    splitBlock_spec stored.sound malloc there fits
  refine ⟨none, h', ?_, trivial, ?_⟩
  · rw [msgExec, made]
    rfl
  · refine stored.rewrites held alone frame (by simp) ?_ sound chain' (contents'.trans same) found
      fun _ _ => rfl
    intro a inside
    rcases List.mem_cons.mp inside with rfl | data
    · exact .inl List.mem_cons_self
    · rw [List.mem_singleton.mp data]
      exact .inr fresh

theorem concatb (stored : Stored s.heap s.client) {mp newm : Addr}
    (allowed : Allowed s (.concatb mp newm)) : Serves malloc s (.concatb mp newm) := by
  obtain ⟨held, held', different, -⟩ := allowed
  obtain ⟨bytes, blocks, found, chain, same⟩ := stored.of_get held
  obtain ⟨bytes', blocks', found', chain', same'⟩ := stored.of_get held'
  have apart : ∀ a ∈ blocks, a ∉ blocks' := fun a inside inside' =>
    different (stored.apart held held' chain chain' inside inside')
  obtain ⟨end_, h', made, sound, joined, contents', frame⟩ :=
    concatb_spec stored.sound chain chain' apart
  have taken : Taken s.heap s.client (fun a => a = mp ∨ a = newm) (blocks ++ blocks') := by
    constructor
    · rintro _ (rfl | rfl)
      · exact held
      · exact held'
    · intro a inside
      rcases List.mem_append.mp inside with first | second
      · exact .inr ⟨mp, blocks, .inl rfl, chain, first⟩
      · exact .inr ⟨newm, blocks', .inr rfl, chain', second⟩
    · rintro _ _ (rfl | rfl) old
      · rw [old.unique chain]
        exact List.subset_append_left _ _
      · rw [old.unique chain']
        exact List.subset_append_right _ _
  refine ⟨none, h', ?_, trivial, ?_⟩
  · rw [msgExec, made]
    rfl
  · refine stored.replaces (frame.mono (List.subset_append_left _ _)) taken sound
      (fun stays => absurd (.inl rfl) stays) joined contents' ?_ ?_ ?_
    · simp only [State.after, Cells.get_put, Client.bytes_of_get found, Client.bytes_of_get found',
        same, same']
    · intro a other stays
      simp only [State.after]
      rw [Cells.get_put_ne _ other, Cells.get_drop_ne fun equal => stays (.inr equal)]
    · rintro a other (equal | rfl)
      · exact absurd equal other
      · simp only [State.after]
        rw [Cells.get_put_ne _ other, Cells.get_drop]

theorem msgappend (stored : Stored s.heap s.client) {mp : Addr} {data : List Byte} {pad : Bool}
    (allowed : Allowed s (.msgappend mp data pad)) : Serves malloc s (.msgappend mp data pad) := by
  obtain ⟨held, m, d, lastOf, dblk, one, frees, roomy, -⟩ := allowed
  obtain ⟨bytes, blocks, found, chain, same⟩ := stored.of_get held
  obtain ⟨init, last, m', rfl, there, ends⟩ := chain.exists_last (Option.some_ne_none mp)
  obtain ⟨d', buf, view⟩ := stored.sound.view there
  have walked := lastBlock_steps chain there ends
  have at_ : s.heap.lastOf mp = some m' := by
    rw [Heap.lastOf, walked]
    exact there
  rw [at_] at lastOf
  cases lastOf
  have backed := view.dblk_eq
  rw [dblk] at backed
  cases backed
  obtain ⟨h', news, made, sound, chain', contents', frame, fresh⟩ :=
    msgappend_spec malloc stored.sound chain ends view one frees roomy
  refine ⟨none, h', ?_, trivial, ?_⟩
  · rw [msgExec, made]
    rfl
  · refine stored.rewrites held chain (frame.mono ?_) ?_ ?_ sound chain' contents' ?_ ?_
    · exact List.subset_append_right _ _
    · intro a inside
      simp only [List.mem_append, List.mem_cons, List.not_mem_nil, or_false] at inside ⊢
      tauto
    · intro a inside
      simp only [List.mem_append, List.mem_cons, List.not_mem_nil, or_false] at inside ⊢
      rcases inside with first | rfl | further
      · exact .inl (.inl first)
      · exact .inl (.inr rfl)
      · exact .inr (fresh a further)
    · simp only [State.after, Client.sets, Cells.get_put, at_, Option.elim_some,
        Client.bytes_of_get found, same]
    · intro a other
      exact Cells.get_put_ne _ other

theorem freemsg (stored : Stored s.heap s.client) {mp : Addr} (allowed : Allowed s (.freemsg mp)) :
    Serves malloc s (.freemsg mp) := by
  obtain ⟨bytes, blocks, found, chain, -⟩ := stored.of_get allowed
  obtain ⟨h', freed, sound, frame, gone⟩ := freemsg_spec stored.sound chain
  refine ⟨none, h', ?_, trivial, ?_⟩
  · rw [msgExec, freed]
    rfl
  · refine stored.removes frame
      (.of_message allowed chain (List.Subset.refl _) fun a inside => .inl inside) sound gone ?_ ?_
    · intro a other
      exact Cells.get_drop_ne other
    · rintro _ rfl
      exact Cells.get_drop

theorem serves (stored : Stored s.heap s.client) (small : s.client.Small) {op : Op}
    (allowed : Allowed s op) : Serves malloc s op := by
  cases op with
  | clientBuf content => exact stored.clientBuf malloc content
  | newPacket size data => exact stored.newPacket malloc allowed
  | wrapPayload payload size freefn => exact stored.wrapPayload malloc allowed
  | recv size datagram => exact stored.recv malloc allowed
  | split mp headerSize => exact stored.split malloc allowed
  | dupmsg mp => exact stored.dupmsg malloc allowed
  | copymsg mp => exact stored.copymsg malloc allowed
  | msgpullup mp len => exact stored.msgpullup malloc small allowed
  | concatb mp newm => exact stored.concatb malloc allowed
  | msgappend mp data pad => exact stored.msgappend malloc allowed
  | freemsg mp => exact stored.freemsg malloc allowed

theorem calls {s' : State} {e : Event} (stored : Stored s.heap s.client) (small : s.client.Small)
    (called : Calls s e s') : Stored s'.heap s'.client := by
  obtain ⟨allowed, done, client⟩ := called
  obtain ⟨ret, h', done', -, after⟩ := stored.serves e.malloc small allowed
  rw [done] at done'
  cases done'
  rw [client]
  exact after

theorem started : Stored started.heap started.client := by
  constructor
  case sound => exact Sound.empty
  case holds => intro mp bytes held; cases held
  case apart => intro mp mp' blocks blocks' a held; exact absurd rfl held
  case covered => intro a m there; cases there

theorem of_run {history : List Event} (run : Run Calls StrUtils.started history s) :
    Stored s.heap s.client ∧ s.client.Small :=
  run.invariant (fun _ s => Stored s.heap s.client ∧ s.client.Small) ⟨started, nofun⟩
    fun _ both called => ⟨both.1.calls both.2 called, both.2.calls called⟩

end Stored

/-! ## Runs -/

/-- An address above all that are in use. -/
def above {α : Type} (cells : Cells Addr α) : Addr := cells.live.fold max 0 id + 1

theorem above_free {α : Type} (cells : Cells Addr α) : cells.get (above cells) = none := by
  by_contra used
  have below : above cells ≤ cells.live.fold max 0 id :=
    (Finset.le_fold_max _).mpr (.inr ⟨_, (cells.mem_live _).mpr used, Nat.le_refl _⟩)
  exact Nat.not_succ_le_self _ below

/-- A `malloc` that goes on upwards and clears the memory. -/
def upwards : Malloc where
  mblk h := above h.mblk
  dblk h := above h.dblk
  buf h := above h.buf
  content _ size := List.replicate size 0
  mblk_free h := above_free h.mblk
  dblk_free h := above_free h.dblk
  buf_free h := above_free h.buf
  length_content _ _ := List.length_replicate

/-- The state after a call. -/
def next (s : State) (op : Op) : State :=
  match msgExec upwards s.heap op with
  | none => s
  | some (ret, h) => ⟨h, s.after op ret⟩

-- the padding is counted for the old block, and goes behind the end of the new one
example : msgExec upwards (next started (.newPacket 4 [1, 2, 3, 4])).heap
    (.msgappend 1 [5, 6, 7, 8, 9] true) = none := rfl

def created : State := next started (.newPacket 4 [1, 2])

def copied : State := next created (.dupmsg 1)

/-- A message is freed, and a copy of it stays. -/
def sent : State := next copied (.freemsg 1)

theorem run_sent : ∃ history, Run Calls started history sent := by
  have first : Calls started ⟨upwards, .newPacket 4 [1, 2], some 1⟩ created :=
    ⟨⟨show 2 ≤ 4 by decide, show 4 < intLimit by decide⟩, rfl, rfl⟩
  have second : Calls created ⟨upwards, .dupmsg 1, some 2⟩ copied :=
    ⟨Option.some_ne_none _, rfl, rfl⟩
  have third : Calls copied ⟨upwards, .freemsg 1, none⟩ sent := ⟨Option.some_ne_none _, rfl, rfl⟩
  exact ⟨_, ((Run.nil.snoc first).snoc second).snoc third⟩

section Runs

variable {history : List Event} {s : State}

/-- Whatever the application has done, and wherever `malloc` finds memory: a
call that keeps to what is asked for uses no memory that is freed, frees none
twice and stays inside the buffers, and what it gives is new. -/
theorem calls_are_defined (run : Run Calls started history s) {op : Op} (allowed : Allowed s op)
    (malloc : Malloc) : ∃ ret s', Calls s ⟨malloc, op, ret⟩ s' ∧ s.New op ret := by
  obtain ⟨stored, small⟩ := Stored.of_run run
  obtain ⟨ret, h', done, new, -⟩ := stored.serves malloc small allowed
  exact ⟨ret, ⟨h', s.after op ret⟩, ⟨allowed, done, rfl⟩, new⟩

theorem calls_are_defined_sent : ∃ history ret s', Run Calls started history sent ∧
    Calls sent ⟨upwards, .msgpullup 2 (-1), ret⟩ s' ∧ sent.New (.msgpullup 2 (-1)) ret := by
  obtain ⟨history, run⟩ := run_sent
  have allowed : Allowed sent (.msgpullup 2 (-1)) := ⟨Option.some_ne_none _, by decide⟩
  obtain ⟨ret, s', called, new⟩ := calls_are_defined run allowed upwards
  exact ⟨history, ret, s', run, called, new⟩

/-- Every message holds the bytes that the application takes it for, whatever
was done to the others. -/
theorem messages_are_values (run : Run Calls started history s) {mp : Addr} {bytes : List Byte}
    (held : s.client.store.get mp = some bytes) :
    message s.heap mp = some bytes ∧ msgdsize s.heap mp = some (bytes.length : Int) := by
  obtain ⟨stored, small⟩ := Stored.of_run run
  obtain ⟨blocks, chain, rfl⟩ := stored.holds held
  exact ⟨readLoop_spec stored.sound chain chain.length_lt,
    msgdsize_spec stored.sound chain (small _ _ held)⟩

theorem messages_are_values_sent :
    message sent.heap 2 = some [1, 2] ∧ msgdsize sent.heap 2 = some 2 := by
  obtain ⟨history, run⟩ := run_sent
  exact messages_are_values run rfl

/-- An application that has freed its messages has left no memory in use but
its own buffers. -/
theorem nothing_leaks (run : Run Calls started history s)
    (freed : ∀ mp, s.client.store.get mp = none) :
    s.heap = ⟨.empty, .empty, s.client.statics⟩ := by
  have stored := (Stored.of_run run).1
  have sound := stored.sound
  have mblk : ∀ a, s.heap.mblk.get a = none := by
    intro a
    by_contra live
    obtain ⟨m, there⟩ := Option.ne_none_iff_exists'.mp live
    obtain ⟨mp, -, held, -⟩ := stored.covered there
    exact held (freed mp)
  have dblk : ∀ a, s.heap.dblk.get a = none := by
    intro a
    by_contra live
    obtain ⟨d, there⟩ := Option.ne_none_iff_exists'.mp live
    obtain ⟨b, m, _, _, view, -⟩ := sound.exists_view (sound.used there)
    have own := view.mblk_eq
    rw [mblk b] at own
    cases own
  have buf : ∀ b, s.heap.buf.get b = s.client.statics.get b := by
    intro b
    cases static : s.client.statics.get b with
    | some content => exact sound.kept static
    | none =>
        by_contra live
        obtain ⟨found, there⟩ := Option.ne_none_iff_exists'.mp live
        rcases sound.owned there with own | ⟨a, d, shared, -⟩
        · exact own static
        · rw [dblk a] at shared
          cases shared
  cases heap : s.heap
  rw [heap] at mblk dblk buf
  congr
  · exact Cells.ext mblk
  · exact Cells.ext dblk
  · exact Cells.ext buf

theorem nothing_leaks_sent : (next sent (.freemsg 2)).heap = ⟨.empty, .empty, .empty⟩ := by
  obtain ⟨history, run⟩ := run_sent
  have freed : Calls sent ⟨upwards, .freemsg 2, none⟩ (next sent (.freemsg 2)) :=
    ⟨Option.some_ne_none _, rfl, rfl⟩
  refine nothing_leaks (run.snoc freed) ?_
  intro mp
  by_cases second : mp = 2
  · rw [second]
    rfl
  · by_cases first : mp = 1
    · rw [first]
      rfl
    · change ((((Cells.empty.put 1 _).put 2 _).drop 1).drop 2).get mp = none
      rw [Cells.get_drop_ne second, Cells.get_drop_ne first, Cells.get_put_ne _ second,
        Cells.get_put_ne _ first, Cells.get_empty]

end Runs

end DvsServer.Ortp.StrUtils
