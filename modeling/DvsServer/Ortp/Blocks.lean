import DvsServer.Ortp.StrUtils

/-!
# Counted blocks

What every change of a block keeps: a block shows a part of a buffer that is
there, a `dblk_t` counts the blocks that share it, and a buffer that is to be
freed has one `dblk_t`.  Buffers that the application keeps are apart.
-/

namespace DvsServer.Ortp.StrUtils

open DvsServer.Lib

/-- The blocks that share a `dblk_t`. -/
def Heap.refs (h : Heap) (datab : Addr) : Nat := h.mblk.count fun m => decide (m.bDatap = datab)

/-- A block with all it points to. -/
structure View (h : Heap) (a : Addr) (m : Mblk) (d : Dblk) (buf : List Byte) : Prop where
  mblk_eq : h.mblk.get a = some m
  dblk_eq : h.dblk.get m.bDatap = some d
  buf_eq : h.buf.get d.dbBase = some buf
  ordered : m.bRptr ≤ m.bWptr
  inside : m.bWptr ≤ d.dbLim
  room : d.dbLim ≤ buf.length

theorem View.bytes {h : Heap} {a : Addr} {m : Mblk} {d : Dblk} {buf : List Byte}
    (view : View h a m d buf) :
    h.bytes? a = some ((buf.drop m.bRptr).take (m.bWptr - m.bRptr)) := by
  have inside := view.inside.trans view.room
  simp [Heap.bytes?, view.mblk_eq, view.dblk_eq, view.buf_eq, view.ordered, inside]

/-- The bytes of a block, when there is one. -/
def Heap.shown (h : Heap) (a : Addr) : List Byte := (h.bytes? a).getD []

theorem View.shown {h : Heap} {a : Addr} {m : Mblk} {d : Dblk} {buf : List Byte}
    (view : View h a m d buf) : h.shown a = (buf.drop m.bRptr).take (m.bWptr - m.bRptr) := by
  rw [Heap.shown, view.bytes]
  rfl

theorem View.length_shown {h : Heap} {a : Addr} {m : Mblk} {d : Dblk} {buf : List Byte}
    (view : View h a m d buf) : (h.shown a).length = m.bWptr - m.bRptr := by
  have inside := view.inside.trans view.room
  rw [view.shown, List.length_take, List.length_drop]
  omega

/-- The blocks, their data and the buffers agree; `statics` are the buffers of
the application. -/
structure Sound (h : Heap) (statics : Cells Addr (List Byte)) : Prop where
  view : ∀ {a m}, h.mblk.get a = some m → ∃ d buf, View h a m d buf
  counted : ∀ {a d}, h.dblk.get a = some d → d.refCount = h.refs a
  used : ∀ {a d}, h.dblk.get a = some d → 0 < h.refs a
  frees_iff : ∀ {a d}, h.dblk.get a = some d → (d.dbFreefn = true ↔ statics.get d.dbBase = none)
  apart : ∀ {a a' d d'}, h.dblk.get a = some d → h.dblk.get a' = some d' → d.dbFreefn = true →
    d.dbBase = d'.dbBase → a = a'
  owned : ∀ {b buf}, h.buf.get b = some buf →
    statics.get b ≠ none ∨ ∃ a d, h.dblk.get a = some d ∧ d.dbBase = b
  kept : ∀ {b content}, statics.get b = some content → h.buf.get b = some content

/-- A block that a change leaves alone. -/
structure Same (h h' : Heap) (a : Addr) : Prop where
  mblk : h'.mblk.get a = h.mblk.get a
  shown : h'.shown a = h.shown a

theorem Same.refl (h : Heap) (a : Addr) : Same h h a := ⟨rfl, rfl⟩

theorem Same.trans {h h' h'' : Heap} {a : Addr} (first : Same h h' a) (second : Same h' h'' a) :
    Same h h'' a :=
  ⟨second.mblk.trans first.mblk, second.shown.trans first.shown⟩

theorem same_put_mblk (h : Heap) {a b : Addr} (other : b ≠ a) (m : Mblk) :
    Same h { h with mblk := h.mblk.put a m } b := by
  refine ⟨Cells.get_put_ne m other, ?_⟩
  simp only [Heap.shown, Heap.bytes?, Cells.get_put_ne m other]

/-- What a block shows stays while its pointers and its buffer do. -/
theorem View.same {h h' : Heap} {a : Addr} {m : Mblk} {d d' : Dblk} {buf : List Byte}
    (view : View h a m d buf) (mblk : h'.mblk.get a = some m)
    (dblk : h'.dblk.get m.bDatap = some d') (base : d'.dbBase = d.dbBase)
    (bufSame : h'.buf.get d.dbBase = some buf) : Same h h' a := by
  refine ⟨mblk.trans view.mblk_eq.symm, ?_⟩
  rw [← base] at bufSame
  have inside := view.inside.trans view.room
  rw [view.shown]
  simp [Heap.shown, Heap.bytes?, mblk, dblk, bufSame, view.ordered, inside]

/-- A block whose `dblk_t` at most counts differently. -/
theorem View.keeps {h h' : Heap} {a : Addr} {m : Mblk} {d d' : Dblk} {buf : List Byte}
    (view : View h a m d buf) (mblk : h'.mblk.get a = some m)
    (dblk : h'.dblk.get m.bDatap = some d') (base : d'.dbBase = d.dbBase)
    (lim : d'.dbLim = d.dbLim) (bufSame : h'.buf.get d.dbBase = some buf) :
    View h' a m d' buf ∧ Same h h' a := by
  refine ⟨⟨mblk, dblk, ?_, view.ordered, ?_, ?_⟩, view.same mblk dblk base bufSame⟩
  · rw [base]
    exact bufSame
  · rw [lim]
    exact view.inside
  · rw [lim]
    exact view.room

/-- A change that adds one block, the end of a message of its own. -/
structure Adds (h h' : Heap) (mp : Addr) (bytes : List Byte) : Prop where
  new : h.mblk.get mp = none
  mblk : ∃ m, h'.mblk.get mp = some m ∧ m.bCont = none
  only : ∀ a, a ≠ mp → h'.mblk.get a = h.mblk.get a
  shown : h'.shown mp = bytes
  same : ∀ a m, h.mblk.get a = some m → Same h h' a

/-- A `dblk_t` at `datab` that agrees with the blocks after a change and with the
other `dblk_t`s from before it. -/
structure Entry (h h' : Heap) (statics' : Cells Addr (List Byte)) (datab : Addr) (d : Dblk) :
    Prop where
  counted : d.refCount = h'.refs datab
  used : 0 < h'.refs datab
  frees_iff : d.dbFreefn = true ↔ statics'.get d.dbBase = none
  apart : ∀ x d', x ≠ datab → h.dblk.get x = some d' → d'.dbFreefn = true ∨ d.dbFreefn = true →
    d'.dbBase ≠ d.dbBase

namespace Sound

variable {h : Heap} {statics : Cells Addr (List Byte)}

theorem empty : Sound .empty .empty := by
  constructor
  case view => intro a m held; cases held
  case counted => intro a d held; cases held
  case used => intro a d held; cases held
  case frees_iff => intro a d held; cases held
  case apart => intro a a' d d' held; cases held
  case owned => intro b buf held; cases held
  case kept => intro b content held; cases held

theorem not_static (sound : Sound h statics) {b : Addr} (free : h.buf.get b = none) :
    statics.get b = none := by
  cases static : statics.get b with
  | none => rfl
  | some content =>
      rw [sound.kept static] at free
      cases free

/-- A buffer of the application is not one that is to be freed. -/
theorem static_ne (sound : Sound h statics) {a b : Addr} {d : Dblk} {content : List Byte}
    (held : h.dblk.get a = some d) (frees : d.dbFreefn = true)
    (static : statics.get b = some content) : b ≠ d.dbBase := by
  rintro rfl
  rw [(sound.frees_iff held).mp frees] at static
  cases static

theorem exists_view (sound : Sound h statics) {datab : Addr} (used : 0 < h.refs datab) :
    ∃ a m d buf, View h a m d buf ∧ m.bDatap = datab := by
  obtain ⟨a, m, held, points⟩ := Cells.exists_of_count_pos used
  obtain ⟨d, buf, view⟩ := sound.view held
  exact ⟨a, m, d, buf, view, of_decide_eq_true points⟩

/-- Nothing points where there is no `dblk_t`. -/
theorem refs_eq_zero (sound : Sound h statics) {datab : Addr} (free : h.dblk.get datab = none) :
    h.refs datab = 0 := by
  by_contra some_
  obtain ⟨a, m, d, buf, view, rfl⟩ := sound.exists_view (Nat.pos_of_ne_zero some_)
  have there := view.dblk_eq
  rw [free] at there
  cases there

/-- The buffer of a `dblk_t` is there. -/
theorem backed (sound : Sound h statics) {datab : Addr} {d : Dblk}
    (held : h.dblk.get datab = some d) :
    ∃ buf, h.buf.get d.dbBase = some buf ∧ d.dbLim ≤ buf.length := by
  obtain ⟨a, m, d', buf, view, rfl⟩ := sound.exists_view (sound.used held)
  have there := view.dblk_eq
  rw [held] at there
  cases there
  exact ⟨buf, view.buf_eq, view.room⟩

/-- A change of one `dblk_t`, which may be new or go. -/
theorem rebuild (sound : Sound h statics) {h' : Heap} {statics' : Cells Addr (List Byte)}
    {datab : Addr} (views : ∀ a m, h'.mblk.get a = some m → ∃ d buf, View h' a m d buf)
    (dblkOld : ∀ x, x ≠ datab → h'.dblk.get x = h.dblk.get x)
    (refsOld : ∀ x, x ≠ datab → h'.refs x = h.refs x)
    (staticsOld : ∀ x d, x ≠ datab → h.dblk.get x = some d →
      statics'.get d.dbBase = statics.get d.dbBase)
    (entry : ∀ d, h'.dblk.get datab = some d → Entry h h' statics' datab d)
    (owned : ∀ b buf, h'.buf.get b = some buf →
      statics'.get b ≠ none ∨ ∃ a d, h'.dblk.get a = some d ∧ d.dbBase = b)
    (kept : ∀ b content, statics'.get b = some content → h'.buf.get b = some content) :
    Sound h' statics' := by
  constructor
  case view => exact fun {a m} there => views a m there
  case counted =>
    intro x d there
    by_cases same : x = datab
    · rw [same] at there ⊢
      exact (entry d there).counted
    · rw [dblkOld x same] at there
      rw [refsOld x same]
      exact sound.counted there
  case used =>
    intro x d there
    by_cases same : x = datab
    · rw [same] at there ⊢
      exact (entry d there).used
    · rw [dblkOld x same] at there
      rw [refsOld x same]
      exact sound.used there
  case frees_iff =>
    intro x d there
    by_cases same : x = datab
    · rw [same] at there
      exact (entry d there).frees_iff
    · rw [dblkOld x same] at there
      rw [sound.frees_iff there, staticsOld x d same there]
  case apart =>
    intro x x' d d' there there' frees base
    by_cases same : x = datab <;> by_cases same' : x' = datab
    · rw [same, same']
    · rw [same] at there
      rw [dblkOld x' same'] at there'
      exact absurd base.symm ((entry d there).apart x' d' same' there' (.inr frees))
    · rw [same'] at there'
      rw [dblkOld x same] at there
      exact absurd base ((entry d' there').apart x d same there (.inl frees))
    · rw [dblkOld x same] at there
      rw [dblkOld x' same'] at there'
      exact sound.apart there there' frees base
  case owned => exact fun {b buf} live => owned b buf live
  case kept => exact fun {b content} static => kept b content static

/-- A block stays on its `dblk_t` and in its bounds. -/
theorem put_mblk (sound : Sound h statics) {a : Addr} {m : Mblk} {d : Dblk} {buf : List Byte}
    (view : View h a m d buf) (m' : Mblk) (datap : m'.bDatap = m.bDatap)
    (ordered : m'.bRptr ≤ m'.bWptr) (inside : m'.bWptr ≤ d.dbLim) :
    Sound { h with mblk := h.mblk.put a m' } statics ∧
      View { h with mblk := h.mblk.put a m' } a m' d buf := by
  have refs : ∀ datab, ({ h with mblk := h.mblk.put a m' } : Heap).refs datab = h.refs datab := by
    intro datab
    apply Cells.count_put_of_same _ view.mblk_eq
    rw [datap]
  have own : View { h with mblk := h.mblk.put a m' } a m' d buf :=
    ⟨Cells.get_put _, by rw [datap]; exact view.dblk_eq, view.buf_eq, ordered, inside, view.room⟩
  refine ⟨?_, own⟩
  constructor
  case view =>
    intro b mb held
    by_cases same : b = a
    · subst same
      rw [Cells.get_put] at held
      cases held
      exact ⟨d, buf, own⟩
    · rw [Cells.get_put_ne _ same] at held
      obtain ⟨d', buf', view'⟩ := sound.view held
      exact ⟨d', buf', (Cells.get_put_ne _ same).trans held, view'.dblk_eq, view'.buf_eq,
        view'.ordered, view'.inside, view'.room⟩
  case counted => intro b d' held; rw [refs]; exact sound.counted held
  case used => intro b d' held; rw [refs]; exact sound.used held
  case frees_iff => exact sound.frees_iff
  case apart => exact sound.apart
  case owned => exact sound.owned
  case kept => exact sound.kept

/-- A further buffer of the application. -/
theorem put_buf (sound : Sound h statics) {b : Addr} (free : h.buf.get b = none)
    (content : List Byte) :
    Sound { h with buf := h.buf.put b content } (statics.put b content) ∧
      ∀ a m, h.mblk.get a = some m → Same h { h with buf := h.buf.put b content } a := by
  have base : ∀ {a d}, h.dblk.get a = some d → d.dbBase ≠ b := by
    intro a d held same
    obtain ⟨buf, found, -⟩ := sound.backed held
    rw [same, free] at found
    cases found
  constructor
  · constructor
    case view =>
      intro a m held
      obtain ⟨d, buf, view⟩ := sound.view held
      exact ⟨d, buf, held, view.dblk_eq, (Cells.get_put_ne _ (base view.dblk_eq)).trans view.buf_eq,
        view.ordered, view.inside, view.room⟩
    case counted => exact sound.counted
    case used => exact sound.used
    case frees_iff =>
      intro a d held
      rw [Cells.get_put_ne _ (base held)]
      exact sound.frees_iff held
    case apart => exact sound.apart
    case owned =>
      intro c buf held
      by_cases same : c = b
      · exact .inl (by rw [same, Cells.get_put]; simp)
      · rw [Cells.get_put_ne _ same] at held ⊢
        exact sound.owned held
    case kept =>
      intro c found held
      by_cases same : c = b
      · rw [same, Cells.get_put] at held ⊢
        exact held
      · rw [Cells.get_put_ne _ same] at held ⊢
        exact sound.kept held
  · intro a m held
    obtain ⟨d, buf, view⟩ := sound.view held
    exact view.same held view.dblk_eq rfl
      ((Cells.get_put_ne _ (base view.dblk_eq)).trans view.buf_eq)

/-- A new block on the `dblk_t` that is then `d`: a new one, or one that
counts one more. -/
theorem put_block (sound : Sound h statics) {mp : Addr} {m : Mblk} {d : Dblk} {buf : List Byte}
    {statics' : Cells Addr (List Byte)} (new : h.mblk.get mp = none)
    (first : h.dblk.get m.bDatap = none → d.refCount = 1)
    (next : ∀ d', h.dblk.get m.bDatap = some d' → d = { d' with refCount := d'.refCount + 1 })
    (held : h.buf.get d.dbBase = some buf) (ordered : m.bRptr ≤ m.bWptr)
    (inside : m.bWptr ≤ d.dbLim) (room : d.dbLim ≤ buf.length)
    (frees : d.dbFreefn = true ↔ statics'.get d.dbBase = none)
    (others : ∀ a d', a ≠ m.bDatap → h.dblk.get a = some d' →
      statics'.get d'.dbBase = statics.get d'.dbBase ∧
        (d'.dbFreefn = true ∨ d.dbFreefn = true → d'.dbBase ≠ d.dbBase))
    (fewer : ∀ b content, statics'.get b = some content → statics.get b = some content)
    (most : ∀ b, b ≠ d.dbBase → statics'.get b = statics.get b) :
    Sound { h with mblk := h.mblk.put mp m, dblk := h.dblk.put m.bDatap d } statics' ∧
      View { h with mblk := h.mblk.put mp m, dblk := h.dblk.put m.bDatap d } mp m d buf ∧
      ∀ a m', h.mblk.get a = some m' →
        Same h { h with mblk := h.mblk.put mp m, dblk := h.dblk.put m.bDatap d } a := by
  generalize next_eq :
    ({ h with mblk := h.mblk.put mp m, dblk := h.dblk.put m.bDatap d } : Heap) = h'
  have mblkNew : h'.mblk.get mp = some m := by rw [← next_eq]; exact Cells.get_put _
  have mblkOld : ∀ a, a ≠ mp → h'.mblk.get a = h.mblk.get a := by
    intro a other
    rw [← next_eq]
    exact Cells.get_put_ne _ other
  have dblkNew : h'.dblk.get m.bDatap = some d := by rw [← next_eq]; exact Cells.get_put _
  have dblkOld : ∀ a, a ≠ m.bDatap → h'.dblk.get a = h.dblk.get a := by
    intro a other
    rw [← next_eq]
    exact Cells.get_put_ne _ other
  have bufSame : h'.buf = h.buf := by rw [← next_eq]
  have refs : ∀ x, h'.refs x = h.refs x + if m.bDatap = x then 1 else 0 := by
    intro x
    rw [← next_eq]
    simpa [Heap.refs] using Cells.count_put_of_free (fun m : Mblk => decide (m.bDatap = x)) new
  have own : View h' mp m d buf :=
    ⟨mblkNew, dblkNew, by rw [bufSame]; exact held, ordered, inside, room⟩
  -- the `dblk_t` of a block from before has kept its buffer
  have views : ∀ {a m'}, h.mblk.get a = some m' →
      ∃ d' buf', View h' a m' d' buf' ∧ Same h h' a := by
    intro a m' there
    have other : a ≠ mp := Cells.ne_of_free new there
    obtain ⟨d', buf', view⟩ := sound.view there
    have still : h'.buf.get d'.dbBase = some buf' := by rw [bufSame]; exact view.buf_eq
    by_cases shared : m'.bDatap = m.bDatap
    · have was := view.dblk_eq
      rw [shared] at was
      have now := next d' was
      have base : d.dbBase = d'.dbBase := by rw [now]
      have lim : d.dbLim = d'.dbLim := by rw [now]
      exact ⟨d, buf', view.keeps ((mblkOld a other).trans there) (by rw [shared]; exact dblkNew) base
        lim still⟩
    · have kept : h'.dblk.get m'.bDatap = some d' := (dblkOld _ shared).trans view.dblk_eq
      exact ⟨d', buf', view.keeps ((mblkOld a other).trans there) kept rfl rfl still⟩
  refine ⟨?_, own, ?_⟩
  · have refsOld : ∀ x, x ≠ m.bDatap → h'.refs x = h.refs x := by
      intro x other
      rw [refs, if_neg (Ne.symm other)]
      rfl
    refine sound.rebuild ?_ dblkOld refsOld (fun x d' other there => (others x d' other there).1)
      ?_ ?_ ?_
    · intro a m' there
      by_cases same : a = mp
      · rw [same, mblkNew] at there
        cases there
        rw [same]
        exact ⟨d, buf, own⟩
      · rw [mblkOld a same] at there
        obtain ⟨d', buf', view, -⟩ := views there
        exact ⟨d', buf', view⟩
    · intro d' there
      rw [dblkNew] at there
      cases there
      have one := refs m.bDatap
      rw [if_pos rfl] at one
      refine ⟨?_, by omega, frees, fun x d' other at_ => (others x d' other at_).2⟩
      rw [one]
      cases was : h.dblk.get m.bDatap with
      | none => rw [first was, sound.refs_eq_zero was]; rfl
      | some d' => rw [next d' was, sound.counted was]; rfl
    · intro b buf' live
      rw [bufSame] at live
      have own : ∃ a d', h'.dblk.get a = some d' ∧ d'.dbBase = d.dbBase := ⟨_, d, dblkNew, rfl⟩
      rcases sound.owned live with static | ⟨a, d', there, rfl⟩
      · by_cases same : b = d.dbBase
        · rw [same]
          exact .inr own
        · rw [most b same]
          exact .inl static
      · right
        by_cases same : a = m.bDatap
        · rw [same] at there
          refine ⟨_, d, dblkNew, ?_⟩
          rw [next d' there]
        · exact ⟨a, d', (dblkOld a same).trans there, rfl⟩
    · intro b content static
      rw [bufSame]
      exact sound.kept (fewer b content static)
  · intro a m' there
    obtain ⟨d', buf', -, same⟩ := views there
    exact same

/-- `allocb_with_buf` with a buffer of the application, which goes to the block
with `freefn`. -/
theorem allocbWithBuf (sound : Sound h statics) (malloc : Malloc) {b : Addr} {buf : List Byte}
    {size : Nat} (freefn : Bool) (held : h.buf.get b = some buf) (given : statics.get b = some buf)
    (fits : size ≤ buf.length)
    (alone : freefn = true → ∀ a d, h.dblk.get a = some d → d.dbBase ≠ b) :
    Sound (allocbWithBuf malloc h b size freefn).2 (if freefn then statics.drop b else statics) ∧
      View (allocbWithBuf malloc h b size freefn).2 (malloc.mblk h) ⟨none, malloc.dblk h, 0, 0⟩
        ⟨b, size, freefn, 1⟩ buf ∧
      ∀ a m, h.mblk.get a = some m → Same h (allocbWithBuf malloc h b size freefn).2 a := by
  have newDblk := malloc.dblk_free h
  have frees : ∀ {a d}, h.dblk.get a = some d → d.dbFreefn = true → d.dbBase ≠ b := by
    intro a d there frees same
    have kept := (sound.frees_iff there).mp frees
    rw [same, given] at kept
    cases kept
  apply sound.put_block (malloc.mblk_free h) (m := ⟨none, malloc.dblk h, 0, 0⟩)
    (d := ⟨b, size, freefn, 1⟩)
  · intro _
    rfl
  · intro d' there
    rw [newDblk] at there
    cases there
  · exact held
  · exact Nat.le_refl 0
  · exact Nat.zero_le _
  · exact fits
  · cases freefn with
    | true => simp
    | false => simp [given]
  · intro a d' _ there
    cases freefn with
    | true =>
        have other := alone rfl a d' there
        exact ⟨Cells.get_drop_ne other, fun _ => other⟩
    | false =>
        refine ⟨rfl, ?_⟩
        rintro (freed | ⟨⟨⟩⟩)
        exact frees there freed
  · intro c content static
    cases freefn with
    | true =>
        by_cases same : c = b
        · rw [if_pos rfl, same, Cells.get_drop] at static
          cases static
        · rw [if_pos rfl, Cells.get_drop_ne same] at static
          exact static
    | false => exact static
  · intro c other
    cases freefn with
    | true => exact Cells.get_drop_ne other
    | false => rfl

/-- `allocb` -/
theorem allocb (sound : Sound h statics) (malloc : Malloc) (size : Nat) :
    Sound (allocb malloc h size).2 statics ∧
      (∃ datab base buf, View (allocb malloc h size).2 (allocb malloc h size).1
        ⟨none, datab, 0, 0⟩ ⟨base, size, true, 1⟩ buf) ∧
      Adds h (allocb malloc h size).2 (allocb malloc h size).1 [] := by
  have free := malloc.buf_free h
  have absent : statics.get (malloc.buf h) = none := sound.not_static free
  obtain ⟨sound', same⟩ := sound.put_buf free (malloc.content h size)
  have base : ∀ a d, h.dblk.get a = some d → d.dbBase ≠ malloc.buf h := by
    intro a d there equal
    obtain ⟨buf, found, -⟩ := sound.backed there
    rw [equal, free] at found
    cases found
  obtain ⟨sound'', view, same'⟩ := sound'.allocbWithBuf malloc true (Cells.get_put _)
    (Cells.get_put _) (Nat.le_of_eq (malloc.length_content h size).symm)
    (fun _ => base)
  rw [if_pos rfl, Cells.drop_put _ absent] at sound''
  refine ⟨sound'', ⟨_, _, _, view⟩, ?_⟩
  refine ⟨malloc.mblk_free { h with buf := h.buf.put (malloc.buf h) (malloc.content h size) },
    ⟨_, view.mblk_eq, rfl⟩, fun a other => Cells.get_put_ne _ other, ?_, ?_⟩
  · exact view.shown.trans (by simp)
  · intro a m there
    exact (same a m there).trans (same' a m there)

/-- `dupb` -/
theorem dupb (sound : Sound h statics) (malloc : Malloc) {mp : Addr} {m : Mblk}
    (there : h.mblk.get mp = some m) :
    ∃ newm h', dupb malloc h mp = some (newm, h') ∧ Sound h' statics ∧
      h'.mblk.get newm = some { m with bCont := none } ∧ Adds h h' newm (h.shown mp) := by
  obtain ⟨d, buf, view⟩ := sound.view there
  have others : ∀ a d', a ≠ m.bDatap → h.dblk.get a = some d' →
      statics.get d'.dbBase = statics.get d'.dbBase ∧
        (d'.dbFreefn = true ∨ d.dbFreefn = true → d'.dbBase ≠ d.dbBase) := by
    intro a d' other at_
    refine ⟨rfl, ?_⟩
    rintro (frees | frees) equal
    · exact other (sound.apart at_ view.dblk_eq frees equal)
    · exact other (sound.apart view.dblk_eq at_ frees equal.symm).symm
  have flag := sound.frees_iff view.dblk_eq
  have frees : ({ d with refCount := d.refCount + 1 } : Dblk).dbFreefn = true ↔
      statics.get d.dbBase = none := flag
  obtain ⟨sound', view', same⟩ := sound.put_block (malloc.mblk_free h)
    (m := ⟨none, m.bDatap, m.bRptr, m.bWptr⟩) (d := { d with refCount := d.refCount + 1 })
    (fun free => by rw [view.dblk_eq] at free; cases free)
    (fun d' at_ => by rw [view.dblk_eq] at at_; cases at_; rfl)
    view.buf_eq view.ordered view.inside view.room frees others
    (fun _ _ => id) (fun _ _ => rfl)
  refine ⟨_, _, ?_, sound', view'.mblk_eq, malloc.mblk_free h, ⟨_, view'.mblk_eq, rfl⟩,
    fun a other => Cells.get_put_ne _ other, ?_, same⟩
  · simp [StrUtils.dupb, there, view.dblk_eq]
  · rw [view'.shown, view.shown]

/-- The other blocks are on other buffers. -/
theorem alone (sound : Sound h statics) {a b : Addr} {m m' : Mblk} {d d' : Dblk}
    {buf buf' : List Byte} (view : View h a m d buf) (one : d.refCount = 1)
    (frees : d.dbFreefn = true) (view' : View h b m' d' buf') (other : b ≠ a) :
    m'.bDatap ≠ m.bDatap ∧ d'.dbBase ≠ d.dbBase := by
  have apart : m'.bDatap ≠ m.bDatap := by
    intro same
    have only : h.mblk.count (fun n => decide (n.bDatap = m.bDatap)) = 1 := by
      have counted := sound.counted view.dblk_eq
      rw [one] at counted
      exact_mod_cast counted.symm
    exact other (Cells.eq_of_count_one only view.mblk_eq (by simp) view'.mblk_eq (by simp [same]))
  refine ⟨apart, ?_⟩
  intro base
  exact apart (sound.apart view.dblk_eq view'.dblk_eq frees base.symm).symm

/-- The bytes in front of `n` and the `k` written there. -/
theorem take_overwrite {buf bytes : List Byte} {r n : Nat} (before : r ≤ n)
    (fits : n + bytes.length ≤ buf.length) :
    ((buf.take n ++ bytes ++ buf.drop (n + bytes.length)).drop r).take (n + bytes.length - r) =
      (buf.drop r).take (n - r) ++ bytes := by
  have taken : (buf.take n).length = n := by
    rw [List.length_take]
    omega
  have front : (buf.take n ++ bytes).length = n + bytes.length := by
    rw [List.length_append, taken]
  rw [← List.drop_take, ← List.drop_take, List.take_left' front,
    List.drop_append_of_le_length (by rw [taken]; exact before)]

/-- The bytes go behind those that the block has, and no other block changes. -/
theorem write (sound : Sound h statics) {a : Addr} {m : Mblk} {d : Dblk} {buf bytes : List Byte}
    (view : View h a m d buf) (one : d.refCount = 1) (frees : d.dbFreefn = true)
    (fits : m.bWptr + bytes.length ≤ d.dbLim) :
    ∃ h' buf', h.write a bytes = some h' ∧ Sound h' statics ∧
      View h' a { m with bWptr := m.bWptr + bytes.length } d buf' ∧
      h'.mblk = h.mblk.put a { m with bWptr := m.bWptr + bytes.length } ∧
      h'.shown a = h.shown a ++ bytes ∧
      ∀ b m', h.mblk.get b = some m' → b ≠ a → Same h h' b := by
  have room := fits.trans view.room
  obtain ⟨moved, view'⟩ := sound.put_mblk view { m with bWptr := m.bWptr + bytes.length } rfl
    (view.ordered.trans (Nat.le_add_right _ _)) fits
  generalize written : buf.take m.bWptr ++ bytes ++ buf.drop (m.bWptr + bytes.length) = buf'
  have length : buf'.length = buf.length := by
    rw [← written]
    simp only [List.length_append, List.length_take, List.length_drop]
    omega
  have executed : h.write a bytes = some { h with
      mblk := h.mblk.put a { m with bWptr := m.bWptr + bytes.length }
      buf := h.buf.put d.dbBase buf' } := by
    simp [Heap.write, view.mblk_eq, view.dblk_eq, view.buf_eq, room, ← written]
  have others : ∀ {b m' d' buf''}, View h b m' d' buf'' → b ≠ a →
      (h.buf.put d.dbBase buf').get d'.dbBase = some buf'' := by
    intro b m' d' buf'' view'' other
    rw [Cells.get_put_ne _ (sound.alone view one frees view'' other).2]
    exact view''.buf_eq
  have own : View { h with
      mblk := h.mblk.put a { m with bWptr := m.bWptr + bytes.length }
      buf := h.buf.put d.dbBase buf' } a { m with bWptr := m.bWptr + bytes.length } d buf' :=
    ⟨Cells.get_put _, view.dblk_eq, Cells.get_put _, view'.ordered, fits, length ▸ view.room⟩
  refine ⟨_, buf', executed, ?_, own, rfl, ?_, ?_⟩
  · constructor
    case view =>
      intro b m' there
      by_cases same : b = a
      · rw [same, Cells.get_put] at there
        cases there
        rw [same]
        exact ⟨d, buf', own⟩
      · rw [Cells.get_put_ne _ same] at there
        obtain ⟨d', buf'', view''⟩ := sound.view there
        exact ⟨d', buf'', (Cells.get_put_ne _ same).trans there, view''.dblk_eq, others view'' same,
          view''.ordered, view''.inside, view''.room⟩
    case counted => exact moved.counted
    case used => exact moved.used
    case frees_iff => exact sound.frees_iff
    case apart => exact sound.apart
    case owned =>
      intro b found live
      by_cases same : b = d.dbBase
      · rw [same]
        exact .inr ⟨_, d, view.dblk_eq, rfl⟩
      · rw [Cells.get_put_ne _ same] at live
        exact sound.owned live
    case kept =>
      intro b content static
      rw [Cells.get_put_ne _ (sound.static_ne view.dblk_eq frees static)]
      exact sound.kept static
  · rw [own.shown, view.shown, ← written]
    exact take_overwrite view.ordered room
  · intro b m' there other
    obtain ⟨d', buf'', view''⟩ := sound.view there
    exact view''.same ((Cells.get_put_ne _ other).trans there) view''.dblk_eq rfl
      (others view'' other)

theorem refs_drop {a : Addr} {m : Mblk} (there : h.mblk.get a = some m) {h' : Heap}
    (dropped : h'.mblk = h.mblk.drop a) (x : Addr) :
    h'.refs x + (if m.bDatap = x then 1 else 0) = h.refs x := by
  rw [Heap.refs, dropped]
  simpa [Heap.refs] using Cells.count_drop (fun n : Mblk => decide (n.bDatap = x)) there

theorem refs_of_ne {datab : Addr} {h' : Heap}
    (refs : ∀ x, h'.refs x + (if datab = x then 1 else 0) = h.refs x) (x : Addr)
    (other : x ≠ datab) : h'.refs x = h.refs x := by
  rw [← refs x, if_neg (Ne.symm other)]
  rfl

/-- `freeb` of a block whose `dblk_t` others share. -/
theorem freeb_shared (sound : Sound h statics) {a : Addr} {m : Mblk} {d : Dblk} {buf : List Byte}
    (view : View h a m d buf) (shared : d.refCount - 1 ≠ 0) {h' : Heap}
    (after : h' = { h with
      mblk := h.mblk.drop a
      dblk := h.dblk.put m.bDatap { d with refCount := d.refCount - 1 } }) :
    Sound h' statics ∧ ∀ b m', h.mblk.get b = some m' → b ≠ a → Same h h' b := by
  have dropped : h'.mblk = h.mblk.drop a := by rw [after]
  have bufSame : h'.buf = h.buf := by rw [after]
  have dblkNew : h'.dblk.get m.bDatap = some { d with refCount := d.refCount - 1 } := by
    rw [after]
    exact Cells.get_put _
  have dblkOld : ∀ x, x ≠ m.bDatap → h'.dblk.get x = h.dblk.get x := by
    intro x other
    rw [after]
    exact Cells.get_put_ne _ other
  have refs := refs_drop view.mblk_eq dropped
  have counted := sound.counted view.dblk_eq
  have own := refs m.bDatap
  rw [if_pos rfl] at own
  have views : ∀ {b m'}, h.mblk.get b = some m' → b ≠ a →
      ∃ d' buf', View h' b m' d' buf' ∧ Same h h' b := by
    intro b m' there other
    obtain ⟨d', buf', view'⟩ := sound.view there
    have still : h'.mblk.get b = some m' := by rw [dropped, Cells.get_drop_ne other, there]
    have stillBuf : h'.buf.get d'.dbBase = some buf' := by rw [bufSame]; exact view'.buf_eq
    by_cases same : m'.bDatap = m.bDatap
    · have was := view'.dblk_eq
      rw [same, view.dblk_eq] at was
      cases was
      have now := dblkNew
      rw [← same] at now
      exact ⟨_, buf', view'.keeps still now rfl rfl stillBuf⟩
    · have now := (dblkOld _ same).trans view'.dblk_eq
      exact ⟨d', buf', view'.keeps still now rfl rfl stillBuf⟩
  refine ⟨?_, fun b m' there other => ?_⟩
  rotate_left
  · obtain ⟨_, _, -, same⟩ := views there other
    exact same
  refine sound.rebuild ?_ dblkOld (refs_of_ne refs) (fun _ _ _ _ => rfl) ?_ ?_ ?_
  · intro b m' there
    have other : b ≠ a := by
      rintro rfl
      rw [dropped, Cells.get_drop] at there
      cases there
    rw [dropped, Cells.get_drop_ne other] at there
    obtain ⟨d', buf', view', -⟩ := views there other
    exact ⟨d', buf', view'⟩
  · intro d' there
    rw [dblkNew] at there
    cases there
    have flag := sound.frees_iff view.dblk_eq
    refine ⟨?_, by omega, flag, ?_⟩
    · dsimp only
      omega
    · rintro x d' other at_ (frees | frees) base
      · exact other (sound.apart at_ view.dblk_eq frees base)
      · exact other (sound.apart view.dblk_eq at_ frees base.symm).symm
  · intro b buf' live
    rw [bufSame] at live
    rcases sound.owned live with static | ⟨x, d', there, rfl⟩
    · exact .inl static
    · right
      by_cases same : x = m.bDatap
      · rw [same, view.dblk_eq] at there
        cases there
        exact ⟨_, _, dblkNew, rfl⟩
      · exact ⟨x, d', (dblkOld x same).trans there, rfl⟩
  · intro b content static
    rw [bufSame]
    exact sound.kept static

/-- `freeb` of the last block of a `dblk_t`: its buffer is freed, or stays with
the application. -/
theorem freeb_last (sound : Sound h statics) {a : Addr} {m : Mblk} {d : Dblk} {buf : List Byte}
    (view : View h a m d buf) (one : d.refCount = 1) (h' : Heap)
    (dropped : h'.mblk = h.mblk.drop a) (gone : h'.dblk = h.dblk.drop m.bDatap)
    (freed : h'.buf = if d.dbFreefn then h.buf.drop d.dbBase else h.buf) :
    Sound h' statics ∧ ∀ b m', h.mblk.get b = some m' → b ≠ a → Same h h' b := by
  have refs := refs_drop view.mblk_eq dropped
  have only : h.mblk.count (fun n => decide (n.bDatap = m.bDatap)) = 1 := by
    have counted := sound.counted view.dblk_eq
    rw [one] at counted
    exact_mod_cast counted.symm
  have apart : ∀ {b m'}, h.mblk.get b = some m' → b ≠ a → m'.bDatap ≠ m.bDatap := by
    intro b m' there other same
    exact other (Cells.eq_of_count_one only view.mblk_eq (by simp) there (by simp [same]))
  have bufOld : ∀ {x d'}, h.dblk.get x = some d' → x ≠ m.bDatap →
      h'.buf.get d'.dbBase = h.buf.get d'.dbBase := by
    intro x d' there other
    rw [freed]
    split
    · rename_i frees
      rw [Cells.get_drop_ne]
      intro base
      exact other (sound.apart view.dblk_eq there frees base.symm).symm
    · rfl
  have dblkOld : ∀ x, x ≠ m.bDatap → h'.dblk.get x = h.dblk.get x := by
    intro x other
    rw [gone, Cells.get_drop_ne other]
  have views : ∀ {b m'}, h.mblk.get b = some m' → b ≠ a →
      ∃ d' buf', View h' b m' d' buf' ∧ Same h h' b := by
    intro b m' there other
    obtain ⟨d', buf', view'⟩ := sound.view there
    have still : h'.mblk.get b = some m' := by rw [dropped, Cells.get_drop_ne other, there]
    have now : h'.dblk.get m'.bDatap = some d' := by
      rw [gone, Cells.get_drop_ne (apart there other), view'.dblk_eq]
    have stillBuf : h'.buf.get d'.dbBase = some buf' :=
      (bufOld view'.dblk_eq (apart there other)).trans view'.buf_eq
    exact ⟨d', buf', view'.keeps still now rfl rfl stillBuf⟩
  refine ⟨?_, fun b m' there other => ?_⟩
  rotate_left
  · obtain ⟨_, _, -, same⟩ := views there other
    exact same
  refine sound.rebuild ?_ dblkOld (refs_of_ne refs) (fun _ _ _ _ => rfl) ?_ ?_ ?_
  · intro b m' there
    have other : b ≠ a := by
      rintro rfl
      rw [dropped, Cells.get_drop] at there
      cases there
    rw [dropped, Cells.get_drop_ne other] at there
    obtain ⟨d', buf', view', -⟩ := views there other
    exact ⟨d', buf', view'⟩
  · intro d' there
    rw [gone, Cells.get_drop] at there
    cases there
  · intro b buf' live
    rw [freed] at live
    have still : h.buf.get b = some buf' ∧ (d.dbFreefn = true → b ≠ d.dbBase) := by
      split at live
      · have other : b ≠ d.dbBase := by
          rintro rfl
          rw [Cells.get_drop] at live
          cases live
        rw [Cells.get_drop_ne other] at live
        exact ⟨live, fun _ => other⟩
      · rename_i keeps
        exact ⟨live, fun frees => absurd frees keeps⟩
    rcases sound.owned still.1 with static | ⟨x, d', there, rfl⟩
    · exact .inl static
    · by_cases same : x = m.bDatap
      · rw [same, view.dblk_eq] at there
        cases there
        left
        intro notStatic
        exact still.2 ((sound.frees_iff view.dblk_eq).mpr notStatic) rfl
      · right
        refine ⟨x, d', ?_, rfl⟩
        rw [gone, Cells.get_drop_ne same, there]
  · intro b content static
    rw [freed]
    split
    · rename_i frees
      rw [Cells.get_drop_ne (sound.static_ne view.dblk_eq frees static)]
      exact sound.kept static
    · exact sound.kept static

/-- `freeb`: the last block of a `dblk_t` takes it along, and its buffer. -/
theorem freeb (sound : Sound h statics) {a : Addr} {m : Mblk} (there : h.mblk.get a = some m) :
    ∃ h', freeb h a = some h' ∧ Sound h' statics ∧ h'.mblk = h.mblk.drop a ∧
      ∀ b m', h.mblk.get b = some m' → b ≠ a → Same h h' b := by
  obtain ⟨d, buf, view⟩ := sound.view there
  by_cases last : d.refCount - 1 = 0
  · have one : d.refCount = 1 := by omega
    refine ⟨⟨h.mblk.drop a, h.dblk.drop m.bDatap,
      if d.dbFreefn then h.buf.drop d.dbBase else h.buf⟩, ?_, ?_⟩
    · cases frees : d.dbFreefn with
      | true => simp [StrUtils.freeb, freeBase, there, view.dblk_eq, view.buf_eq, last, frees]
      | false => simp [StrUtils.freeb, freeBase, there, view.dblk_eq, last, frees]
    · obtain ⟨sound', same⟩ := sound.freeb_last view one ⟨_, _, _⟩ rfl rfl rfl
      exact ⟨sound', rfl, same⟩
  · refine ⟨⟨h.mblk.drop a, h.dblk.put m.bDatap { d with refCount := d.refCount - 1 }, h.buf⟩,
      ?_, ?_⟩
    · simp only [StrUtils.freeb, there, view.dblk_eq, Option.bind_eq_bind, Option.bind_some,
        if_neg last]
    · obtain ⟨sound', same⟩ := sound.freeb_shared view last rfl
      exact ⟨sound', rfl, same⟩

/-- `realloc` of the buffer of an unshared block to what the block shows. -/
theorem realloc (sound : Sound h statics) {a p : Addr} {m : Mblk} {d : Dblk} {buf : List Byte}
    (view : View h a m d buf) (one : d.refCount = 1) (frees : d.dbFreefn = true)
    (free : (h.buf.drop d.dbBase).get p = none) (h' : Heap) (mblkSame : h'.mblk = h.mblk)
    (shrunk : h'.dblk = h.dblk.put m.bDatap { d with dbBase := p, dbLim := m.bWptr })
    (moved : h'.buf = (h.buf.drop d.dbBase).put p (buf.take m.bWptr)) :
    Sound h' statics ∧
      View h' a m { d with dbBase := p, dbLim := m.bWptr } (buf.take m.bWptr) ∧
      h'.shown a = h.shown a ∧ ∀ b m', h.mblk.get b = some m' → b ≠ a → Same h h' b := by
  have inside := view.inside.trans view.room
  have length : (buf.take m.bWptr).length = m.bWptr := by
    rw [List.length_take]
    omega
  have dblkNew : h'.dblk.get m.bDatap = some { d with dbBase := p, dbLim := m.bWptr } := by
    rw [shrunk]
    exact Cells.get_put _
  have dblkOld : ∀ x, x ≠ m.bDatap → h'.dblk.get x = h.dblk.get x := by
    intro x other
    rw [shrunk]
    exact Cells.get_put_ne _ other
  have bufNew : h'.buf.get p = some (buf.take m.bWptr) := by
    rw [moved]
    exact Cells.get_put _
  have bufOld : ∀ {x found}, x ≠ d.dbBase → h.buf.get x = some found →
      h'.buf.get x = some found ∧ x ≠ p := by
    intro x found other live
    have apart : x ≠ p := by
      rintro rfl
      rw [Cells.get_drop_ne other, live] at free
      cases free
    rw [moved, Cells.get_put_ne _ apart, Cells.get_drop_ne other]
    exact ⟨live, apart⟩
  have pFresh : statics.get p = none := by
    cases static : statics.get p with
    | none => rfl
    | some content =>
        have other := sound.static_ne view.dblk_eq frees static
        exact absurd rfl (bufOld other (sound.kept static)).2
  have refs : ∀ x, h'.refs x = h.refs x := by
    intro x
    rw [Heap.refs, mblkSame, Heap.refs]
  have base : ∀ {x d'}, h.dblk.get x = some d' → x ≠ m.bDatap →
      d'.dbBase ≠ d.dbBase ∧ d'.dbBase ≠ p := by
    intro x d' there other
    have apart : d'.dbBase ≠ d.dbBase := by
      intro equal
      exact other (sound.apart view.dblk_eq there frees equal.symm).symm
    obtain ⟨buf', found, -⟩ := sound.backed there
    exact ⟨apart, (bufOld apart found).2⟩
  have own : View h' a m { d with dbBase := p, dbLim := m.bWptr } (buf.take m.bWptr) :=
    ⟨by rw [mblkSame]; exact view.mblk_eq, dblkNew, bufNew, view.ordered, Nat.le_refl _,
      Nat.le_of_eq length.symm⟩
  have views : ∀ {b m'}, h.mblk.get b = some m' → b ≠ a →
      ∃ d' buf', View h' b m' d' buf' ∧ Same h h' b := by
    intro b m' there other
    obtain ⟨d', buf', view'⟩ := sound.view there
    obtain ⟨apart, apartBase⟩ := sound.alone view one frees view' other
    have still : h'.mblk.get b = some m' := by rw [mblkSame]; exact there
    have now := (dblkOld _ apart).trans view'.dblk_eq
    have stillBuf := (bufOld apartBase view'.buf_eq).1
    exact ⟨d', buf', view'.keeps still now rfl rfl stillBuf⟩
  refine ⟨?_, own, ?_, ?_⟩
  · refine sound.rebuild ?_ dblkOld (fun x _ => refs x) (fun _ _ _ _ => rfl) ?_ ?_ ?_
    · intro b m' there
      by_cases same : b = a
      · rw [same, own.mblk_eq] at there
        cases there
        rw [same]
        exact ⟨_, _, own⟩
      · rw [mblkSame] at there
        obtain ⟨d', buf', view', -⟩ := views there same
        exact ⟨d', buf', view'⟩
    · intro d' there
      rw [dblkNew] at there
      cases there
      refine ⟨?_, ?_, ⟨fun _ => pFresh, fun _ => frees⟩, fun x d' other at_ _ => (base at_ other).2⟩
      · have counted := sound.counted view.dblk_eq
        rw [refs]
        exact counted
      · rw [refs]
        exact sound.used view.dblk_eq
    · intro b found live
      by_cases new : b = p
      · rw [new]
        exact .inr ⟨_, _, dblkNew, rfl⟩
      · have other : b ≠ d.dbBase := by
          rintro rfl
          rw [moved, Cells.get_put_ne _ new, Cells.get_drop] at live
          cases live
        rw [moved, Cells.get_put_ne _ new, Cells.get_drop_ne other] at live
        rcases sound.owned live with static | ⟨x, d', there, rfl⟩
        · exact .inl static
        · right
          refine ⟨x, d', (dblkOld x ?_).trans there, rfl⟩
          rintro rfl
          rw [view.dblk_eq] at there
          cases there
          exact other rfl
    · intro b content static
      exact (bufOld (sound.static_ne view.dblk_eq frees static) (sound.kept static)).1
  · rw [own.shown, view.shown, ← List.drop_take, ← List.drop_take]
    congr 1
    rw [List.take_take]
    congr 1
    omega
  · intro b m' there other
    obtain ⟨_, _, -, same⟩ := views there other
    exact same

/-- Bytes written to a block that has just been added. -/
theorem write_added {h' : Heap} {mp datab base : Addr} {size : Nat}
    {buf data : List Byte} (sound' : Sound h' statics)
    (view : View h' mp ⟨none, datab, 0, 0⟩ ⟨base, size, true, 1⟩ buf) (adds : Adds h h' mp [])
    (fits : data.length ≤ size) :
    ∃ h'' buf', h'.write mp data = some h'' ∧ Sound h'' statics ∧
      View h'' mp ⟨none, datab, 0, data.length⟩ ⟨base, size, true, 1⟩ buf' ∧
      Adds h h'' mp data := by
  obtain ⟨h'', buf', written, sound'', view', mblk, shown, same⟩ :=
    sound'.write view rfl rfl (show 0 + data.length ≤ size by omega)
  rw [Nat.zero_add] at view' mblk
  refine ⟨h'', buf', written, sound'', view', adds.new, ⟨_, view'.mblk_eq, rfl⟩, ?_, ?_, ?_⟩
  · intro a other
    rw [mblk, Cells.get_put_ne _ other]
    exact adds.only a other
  · rw [shown, adds.shown, List.nil_append]
  · intro a m there
    have there' := (adds.same a m there).mblk.trans there
    exact (adds.same a m there).trans (same a m there' (Cells.ne_of_free adds.new there))

/-- `allocb` with some bytes written. -/
theorem newPacket (sound : Sound h statics) (malloc : Malloc) {size : Nat} {data : List Byte}
    (fits : data.length ≤ size) :
    ∃ mp h', newPacket malloc h size data = some (mp, h') ∧ Sound h' statics ∧
      (∃ m d buf, View h' mp m d buf ∧ d.refCount = 1 ∧ d.dbFreefn = true ∧ d.dbLim = size ∧
        m.bWptr = data.length) ∧ Adds h h' mp data := by
  obtain ⟨sound', ⟨datab, base, buf, view⟩, adds⟩ := sound.allocb malloc size
  obtain ⟨h', buf', written, sound'', view', adds'⟩ := sound'.write_added view adds fits
  refine ⟨_, h', ?_, sound'', ⟨_, _, buf', view', rfl, rfl, rfl, rfl⟩, adds'⟩
  simp [StrUtils.newPacket, written]

/-- `copyb` -/
theorem copyb (sound : Sound h statics) (malloc : Malloc) {mp : Addr} {m : Mblk}
    (there : h.mblk.get mp = some m) :
    ∃ newm h', copyb malloc h mp = some (newm, h') ∧ Sound h' statics ∧
      Adds h h' newm (h.shown mp) := by
  obtain ⟨d, buf, view⟩ := sound.view there
  obtain ⟨newm, h', made, sound', -, adds⟩ :=
    sound.newPacket malloc (Nat.le_refl (h.shown mp).length)
  refine ⟨newm, h', ?_, sound', adds⟩
  have bytes : h.bytes? mp = some (h.shown mp) := by rw [view.shown, view.bytes]
  rw [StrUtils.copyb, bytes]
  exact made

/-- `allocb_with_buf` and the payload's length. -/
theorem wrapPayload (sound : Sound h statics) (malloc : Malloc) {b : Addr} {buf : List Byte}
    {size : Nat} (freefn : Bool) (held : h.buf.get b = some buf) (given : statics.get b = some buf)
    (fits : size ≤ buf.length)
    (alone : freefn = true → ∀ a d, h.dblk.get a = some d → d.dbBase ≠ b) :
    ∃ mp h', wrapPayload malloc h b size freefn = some (mp, h') ∧
      Sound h' (if freefn then statics.drop b else statics) ∧ h'.buf = h.buf ∧
      Adds h h' mp (buf.take size) := by
  obtain ⟨sound', view, same⟩ := sound.allocbWithBuf malloc freefn held given fits alone
  obtain ⟨sound'', view'⟩ := sound'.put_mblk view ⟨none, malloc.dblk h, 0, 0 + size⟩ rfl
    (Nat.zero_le _) (by simp)
  refine ⟨malloc.mblk h, _, ?_, sound'', rfl, malloc.mblk_free h, ⟨_, view'.mblk_eq, rfl⟩,
    ?_, ?_, ?_⟩
  · have there := view.mblk_eq
    simp only [StrUtils.wrapPayload]
    change (do
      let m ← (StrUtils.allocbWithBuf malloc h b size freefn).2.mblk.get (malloc.mblk h)
      some (malloc.mblk h, { (StrUtils.allocbWithBuf malloc h b size freefn).2 with
        mblk := (StrUtils.allocbWithBuf malloc h b size freefn).2.mblk.put (malloc.mblk h)
          { m with bWptr := m.bWptr + size } })) = _
    rw [there]
    rfl
  · intro a other
    rw [Cells.get_put_ne _ other]
    exact Cells.get_put_ne _ other
  · rw [view'.shown]
    simp
  · intro a m there
    exact (same a m there).trans (same_put_mblk _ (Cells.ne_of_free (malloc.mblk_free h) there) _)

/-- What `rtp_recv` makes of a datagram. -/
theorem recvBlock (sound : Sound h statics) (malloc : Malloc) {size : Nat} {datagram : List Byte}
    (fits : datagram.length ≤ size) :
    ∃ mp h', recvBlock malloc h size datagram = some (mp, h') ∧ Sound h' statics ∧
      Adds h h' mp datagram := by
  obtain ⟨received, ⟨datab, base, buf, view⟩, adds⟩ := sound.allocb malloc size
  obtain ⟨h', buf', written, filled, view', adds'⟩ := received.write_added view adds fits
  have free := malloc.buf_free { h' with buf := h'.buf.drop base }
  generalize moved : malloc.buf { h' with buf := h'.buf.drop base } = p at free
  obtain ⟨resized, view'', shown, same⟩ := filled.realloc view' rfl rfl free
    { h' with
      buf := (h'.buf.drop base).put p (buf'.take datagram.length)
      dblk := h'.dblk.put datab ⟨p, datagram.length, true, 1⟩ } rfl rfl rfl
  refine ⟨_, _, ?_, resized, adds'.new, ⟨_, view''.mblk_eq, rfl⟩, adds'.only,
    shown.trans adds'.shown, ?_⟩
  · simp only [StrUtils.recvBlock, written, Option.bind_eq_bind, Option.bind_some, view'.mblk_eq,
      view'.dblk_eq, view'.buf_eq, moved]
  · intro a m there
    have there' := (adds'.same a m there).mblk.trans there
    exact (adds'.same a m there).trans (same a m there' (Cells.ne_of_free adds'.new there))

end Sound

end DvsServer.Ortp.StrUtils
