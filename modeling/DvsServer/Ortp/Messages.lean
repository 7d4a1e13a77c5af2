import DvsServer.Ortp.Blocks
import DvsServer.Lib.Run

/-!
# Messages

Chains of blocks along `b_cont`, and what the operations on messages do to
them: which blocks a message then has, what these show, and which blocks were
touched at all.
-/

namespace DvsServer.Ortp.StrUtils

open DvsServer.Lib

/-- The blocks from `p` on, along `b_cont`. -/
def Chain (h : Heap) : Option Addr → List Addr → Prop
  | p, [] => p = none
  | p, a :: rest => p = some a ∧ ∃ m, h.mblk.get a = some m ∧ Chain h m.bCont rest

def contents (h : Heap) (blocks : List Addr) : List Byte := blocks.flatMap h.shown

@[simp] theorem contents_nil (h : Heap) : contents h [] = [] := rfl

@[simp] theorem contents_cons (h : Heap) (a : Addr) (rest : List Addr) :
    contents h (a :: rest) = h.shown a ++ contents h rest := rfl

@[simp] theorem contents_append (h : Heap) (first second : List Addr) :
    contents h (first ++ second) = contents h first ++ contents h second :=
  List.flatMap_append

theorem contents_same {h h' : Heap} {blocks : List Addr}
    (same : ∀ a ∈ blocks, h'.shown a = h.shown a) : contents h' blocks = contents h blocks :=
  List.flatMap_congr same

namespace Chain

variable {h h' : Heap} {p : Option Addr} {blocks : List Addr}

theorem nil_iff : Chain h none blocks ↔ blocks = [] := by
  cases blocks with
  | nil => simp [Chain]
  | cons a rest => simp [Chain]

theorem unique {blocks' : List Addr} (chain : Chain h p blocks) (chain' : Chain h p blocks') :
    blocks = blocks' := by
  induction blocks generalizing p blocks' with
  | nil =>
      obtain rfl : p = none := chain
      exact (nil_iff.mp chain').symm
  | cons a rest ih =>
      obtain ⟨rfl, m, there, tail⟩ := chain
      cases blocks' with
      | nil => cases chain'
      | cons b rest' =>
          obtain ⟨same, m', there', tail'⟩ := chain'
          cases same
          rw [there] at there'
          cases there'
          rw [ih tail tail']

theorem live (chain : Chain h p blocks) {a : Addr} (inside : a ∈ blocks) :
    ∃ m, h.mblk.get a = some m := by
  induction blocks generalizing p with
  | nil => cases inside
  | cons b rest ih =>
      obtain ⟨rfl, m, there, tail⟩ := chain
      rcases List.mem_cons.mp inside with rfl | later
      · exact ⟨m, there⟩
      · exact ih tail later

theorem of_mem (chain : Chain h p blocks) {a : Addr} (inside : a ∈ blocks) :
    ∃ rest, Chain h (some a) (a :: rest) ∧ rest.length < blocks.length := by
  induction blocks generalizing p with
  | nil => cases inside
  | cons b rest ih =>
      obtain ⟨rfl, m, there, tail⟩ := chain
      rcases List.mem_cons.mp inside with rfl | later
      · exact ⟨rest, ⟨rfl, m, there, tail⟩, Nat.lt_succ_self _⟩
      · obtain ⟨rest', chain', shorter⟩ := ih tail later
        exact ⟨rest', chain', Nat.lt_succ_of_lt shorter⟩

/-- A chain that ends does not come back to a block. -/
theorem nodup (chain : Chain h p blocks) : blocks.Nodup := by
  induction blocks generalizing p with
  | nil => exact List.nodup_nil
  | cons a rest ih =>
      obtain ⟨rfl, m, there, tail⟩ := chain
      refine List.nodup_cons.mpr ⟨?_, ih tail⟩
      intro again
      obtain ⟨rest', chain', shorter⟩ := tail.of_mem again
      have whole : Chain h (some a) (a :: rest) := ⟨rfl, m, there, tail⟩
      have same := List.cons.inj (whole.unique chain')
      rw [← same.2] at shorter
      exact Nat.lt_irrefl _ shorter

theorem length_lt (chain : Chain h p blocks) : blocks.length < h.steps := by
  have few : blocks.toFinset ⊆ h.mblk.live := by
    intro a inside
    obtain ⟨m, there⟩ := chain.live (List.mem_toFinset.mp inside)
    exact Cells.live_of_get there
  have counted := Finset.card_le_card few
  rw [List.toFinset_card_of_nodup chain.nodup] at counted
  exact Nat.lt_succ_of_le counted

theorem same (chain : Chain h p blocks)
    (same : ∀ a ∈ blocks, h'.mblk.get a = h.mblk.get a) : Chain h' p blocks := by
  induction blocks generalizing p with
  | nil => exact chain
  | cons a rest ih =>
      obtain ⟨rfl, m, there, tail⟩ := chain
      refine ⟨rfl, m, (same a List.mem_cons_self).trans there, ih tail ?_⟩
      intro b inside
      exact same b (List.mem_cons_of_mem _ inside)

/-- Another end behind the last block. -/
theorem extend {init rest : List Addr} {last : Addr} {m : Mblk}
    (chain : Chain h p (init ++ [last])) (same : ∀ a ∈ init, h'.mblk.get a = h.mblk.get a)
    (there : h'.mblk.get last = some m) (tail : Chain h' m.bCont rest) :
    Chain h' p (init ++ last :: rest) := by
  induction init generalizing p with
  | nil =>
      obtain ⟨rfl, -⟩ := chain
      exact ⟨rfl, m, there, tail⟩
  | cons a init ih =>
      obtain ⟨rfl, m', there', chain'⟩ := chain
      refine ⟨rfl, m', (same a List.mem_cons_self).trans there', ih chain' ?_⟩
      intro b inside
      exact same b (List.mem_cons_of_mem _ inside)

/-- The last block of a chain, behind which there is nothing. -/
theorem exists_last (chain : Chain h p blocks) (some_ : p ≠ none) :
    ∃ init last m, blocks = init ++ [last] ∧ h.mblk.get last = some m ∧ m.bCont = none := by
  induction blocks generalizing p with
  | nil => exact absurd chain some_
  | cons a rest ih =>
      obtain ⟨rfl, m, there, tail⟩ := chain
      by_cases ends : m.bCont = none
      · rw [ends] at tail
        rw [nil_iff.mp tail]
        exact ⟨[], a, m, rfl, there, ends⟩
      · obtain ⟨init, last, m', rfl, there', ends'⟩ := ih tail ends
        exact ⟨a :: init, last, m', rfl, there', ends'⟩

end Chain

/-! ## What is touched -/

/-- Outside the blocks touched all is as before. -/
structure Frame (h h' : Heap) (touched : List Addr) : Prop where
  same : ∀ a m, h.mblk.get a = some m → a ∉ touched → Same h h' a
  free : ∀ a, h.mblk.get a = none → a ∉ touched → h'.mblk.get a = none

namespace Frame

variable {h h' h'' : Heap} {touched further : List Addr}

theorem refl (h : Heap) : Frame h h [] := ⟨fun a _ _ _ => Same.refl h a, fun _ free _ => free⟩

theorem mono (frame : Frame h h' touched) (more : touched ⊆ further) : Frame h h' further :=
  ⟨fun a m there outside => frame.same a m there fun inside => outside (more inside),
    fun a free outside => frame.free a free fun inside => outside (more inside)⟩

theorem trans (first : Frame h h' touched) (second : Frame h' h'' further) :
    Frame h h'' (touched ++ further) := by
  constructor
  · intro a m there outside
    rw [List.mem_append, not_or] at outside
    have kept := first.same a m there outside.1
    exact kept.trans (second.same a m (kept.mblk.trans there) outside.2)
  · intro a free outside
    rw [List.mem_append, not_or] at outside
    exact second.free a (first.free a free outside.1) outside.2

theorem of_adds {mp : Addr} {bytes : List Byte} (adds : Adds h h' mp bytes) : Frame h h' [mp] := by
  constructor
  · intro a m there _
    exact adds.same a m there
  · intro a free outside
    rw [adds.only a (by simpa using outside)]
    exact free

theorem chain (frame : Frame h h' touched) {p : Option Addr} {blocks : List Addr}
    (chain : Chain h p blocks) (apart : ∀ a ∈ blocks, a ∉ touched) :
    Chain h' p blocks ∧ contents h' blocks = contents h blocks := by
  constructor
  · apply chain.same
    intro a inside
    obtain ⟨m, there⟩ := chain.live inside
    exact (frame.same a m there (apart a inside)).mblk
  · apply contents_same
    intro a inside
    obtain ⟨m, there⟩ := chain.live inside
    exact (frame.same a m there (apart a inside)).shown

end Frame

section Operations

variable {h : Heap} {statics : Cells Addr (List Byte)}

theorem Sound.setCont (sound : Sound h statics) {a : Addr} {m : Mblk}
    (there : h.mblk.get a = some m) (bCont : Option Addr) :
    ∃ h', h.setCont a bCont = some h' ∧ Sound h' statics ∧
      h'.mblk.get a = some { m with bCont } ∧ h'.shown a = h.shown a ∧ Frame h h' [a] := by
  obtain ⟨d, buf, view⟩ := sound.view there
  obtain ⟨sound', view'⟩ := sound.put_mblk view { m with bCont } rfl view.ordered view.inside
  refine ⟨_, ?_, sound', view'.mblk_eq, ?_, ?_, ?_⟩
  · simp [Heap.setCont, there]
  · rw [view'.shown, view.shown]
  · intro b m' _ outside
    exact same_put_mblk h (by simpa using outside) _
  · intro b free outside
    rw [Cells.get_put_ne _ (by simpa using outside)]
    exact free

theorem View.setCont {h' : Heap} {a b : Addr} {m : Mblk} {d : Dblk} {buf : List Byte}
    {bCont : Option Addr} (view : View h b m d buf) (other : b ≠ a)
    (linked : h.setCont a bCont = some h') : View h' b m d buf := by
  obtain ⟨ma, -, same⟩ := Option.bind_eq_some_iff.mp linked
  obtain rfl := Option.some.inj same
  exact ⟨(Cells.get_put_ne _ other).trans view.mblk_eq, view.dblk_eq, view.buf_eq, view.ordered,
    view.inside, view.room⟩

/-- A block that shows less of its buffer. -/
theorem Sound.trim (sound : Sound h statics) {a : Addr} {m : Mblk} (there : h.mblk.get a = some m)
    {rptr wptr : Nat} (start : m.bRptr ≤ rptr) (ordered : rptr ≤ wptr) (stop : wptr ≤ m.bWptr)
    {h' : Heap}
    (after : h' = { h with mblk := h.mblk.put a { m with bRptr := rptr, bWptr := wptr } }) :
    Sound h' statics ∧ h'.mblk.get a = some { m with bRptr := rptr, bWptr := wptr } ∧
      h'.shown a = ((h.shown a).drop (rptr - m.bRptr)).take (wptr - rptr) ∧ Frame h h' [a] := by
  obtain ⟨d, buf, view⟩ := sound.view there
  obtain ⟨sound', view'⟩ := sound.put_mblk view { m with bRptr := rptr, bWptr := wptr } rfl ordered
    (stop.trans view.inside)
  rw [after]
  refine ⟨sound', view'.mblk_eq, ?_, ?_, ?_⟩
  · rw [view'.shown, view.shown, List.drop_take, List.drop_drop, List.take_take]
    congr 1
    · dsimp only
      omega
    · congr 1
      dsimp only
      omega
  · intro b m' _ outside
    exact same_put_mblk h (by simpa using outside) _
  · intro b free outside
    rw [Cells.get_put_ne _ (by simpa using outside)]
    exact free

/-- Bytes written to a block, which shares its buffer with no other. -/
theorem Sound.append (sound : Sound h statics) {a : Addr} {m : Mblk} {d : Dblk}
    {buf bytes : List Byte} (view : View h a m d buf) (one : d.refCount = 1)
    (frees : d.dbFreefn = true) (fits : m.bWptr + bytes.length ≤ d.dbLim) :
    ∃ h' buf', h.write a bytes = some h' ∧ Sound h' statics ∧
      View h' a { m with bWptr := m.bWptr + bytes.length } d buf' ∧
      h'.shown a = h.shown a ++ bytes ∧ Frame h h' [a] := by
  obtain ⟨h', buf', written, sound', view', mblk, shown, same⟩ := sound.write view one frees fits
  refine ⟨h', buf', written, sound', view', shown, ?_, ?_⟩
  · intro b m' there outside
    exact same b m' there (by simpa using outside)
  · intro b free outside
    rw [mblk, Cells.get_put_ne _ (by simpa using outside)]
    exact free

/-! ## Freeing -/

theorem freemsgLoop_spec (sound : Sound h statics) {p : Option Addr} {blocks : List Addr}
    {fuel : Nat} (chain : Chain h p blocks) (enough : blocks.length < fuel) :
    ∃ h', freemsgLoop fuel h p = some h' ∧ Sound h' statics ∧ Frame h h' blocks ∧
      ∀ a ∈ blocks, h'.mblk.get a = none := by
  induction blocks generalizing h p fuel with
  | nil =>
      obtain rfl : p = none := chain
      obtain ⟨fuel, rfl⟩ := exists_fuel enough
      exact ⟨h, rfl, sound, Frame.refl h, by simp⟩
  | cons a rest ih =>
      have once := List.nodup_cons.mp chain.nodup
      obtain ⟨rfl, m, there, tail⟩ := chain
      obtain ⟨fuel, rfl⟩ := exists_fuel enough
      obtain ⟨h', freed, sound', mblk, same⟩ := sound.freeb there
      have frame : Frame h h' [a] := by
        constructor
        · intro b m' there' outside
          exact same b m' there' (by simpa using outside)
        · intro b free outside
          rw [mblk, Cells.get_drop_ne (by simpa using outside)]
          exact free
      obtain ⟨tail', -⟩ := frame.chain tail fun b inside => by
        rw [List.mem_singleton]
        rintro rfl
        exact once.1 inside
      obtain ⟨h'', looped, sound'', frame', gone⟩ := ih sound' tail' (Nat.lt_of_succ_lt_succ enough)
      refine ⟨h'', ?_, sound'', frame.trans frame', ?_⟩
      · simp only [freemsgLoop, there, freed, Option.bind_eq_bind, Option.bind_some]
        exact looped
      · intro b inside
        rcases List.mem_cons.mp inside with rfl | later
        · have free : h'.mblk.get b = none := by rw [mblk, Cells.get_drop]
          exact frame'.free b free once.1
        · exact gone b later

/-- `freemsg` frees the blocks of the message and no other. -/
theorem freemsg_spec (sound : Sound h statics) {mp : Addr} {blocks : List Addr}
    (chain : Chain h (some mp) blocks) :
    ∃ h', freemsg h mp = some h' ∧ Sound h' statics ∧ Frame h h' blocks ∧
      ∀ a ∈ blocks, h'.mblk.get a = none :=
  freemsgLoop_spec sound chain chain.length_lt

/-! ## Copying -/

/-- What `dupb` and `copyb` have in common. -/
structure Copier (each : Heap → Addr → Option (Addr × Heap)) : Prop where
  copies : ∀ {h : Heap} {statics : Cells Addr (List Byte)} {a : Addr} {m : Mblk}, Sound h statics →
    h.mblk.get a = some m → ∃ newm h', each h a = some (newm, h') ∧ Sound h' statics ∧
      Adds h h' newm (h.shown a)

theorem copier_dupb (malloc : Malloc) : Copier (dupb malloc) := by
  constructor
  intro h statics a m sound there
  obtain ⟨newm, h', made, sound', -, adds⟩ := sound.dupb malloc there
  exact ⟨newm, h', made, sound', adds⟩

theorem copier_copyb (malloc : Malloc) : Copier (copyb malloc) :=
  ⟨fun sound there => sound.copyb malloc there⟩

variable {each : Heap → Addr → Option (Addr × Heap)}

theorem copyLoop_spec (copier : Copier each) (sound : Sound h statics) {p : Option Addr}
    {blocks : List Addr} {fuel : Nat} {prev : Addr} {m : Mblk} (chain : Chain h p blocks)
    (enough : blocks.length < fuel) (there : h.mblk.get prev = some m) (single : m.bCont = none)
    (apart : prev ∉ blocks) :
    ∃ h' news bCont, copyLoop each fuel h p prev = some h' ∧ Sound h' statics ∧
      Chain h' (some prev) (prev :: news) ∧ h'.mblk.get prev = some { m with bCont } ∧
      h'.shown prev = h.shown prev ∧ contents h' news = contents h blocks ∧
      Frame h h' (prev :: news) ∧ ∀ a ∈ news, h.mblk.get a = none := by
  induction blocks generalizing h p fuel prev m with
  | nil =>
      obtain rfl : p = none := chain
      obtain ⟨fuel, rfl⟩ := exists_fuel enough
      have alone : Chain h m.bCont [] := single
      exact ⟨h, [], m.bCont, rfl, sound, ⟨rfl, m, there, alone⟩, there, rfl, rfl,
        (Frame.refl h).mono (List.nil_subset _), by simp⟩
  | cons a rest ih =>
      have once := List.nodup_cons.mp chain.nodup
      obtain ⟨rfl, ma, thereA, tail⟩ := chain
      obtain ⟨fuel, rfl⟩ := exists_fuel enough
      rw [List.mem_cons, not_or] at apart
      obtain ⟨newm, h₁, made, sound₁, adds⟩ := copier.copies sound thereA
      have prevOther : prev ≠ newm := Cells.ne_of_free adds.new there
      have there₁ := (adds.only prev prevOther).trans there
      obtain ⟨h₂, linked, sound₂, there₂, shown₂, frame₂⟩ := sound₁.setCont there₁ (some newm)
      obtain ⟨mNew, thereNew, singleNew⟩ := adds.mblk
      have thereNew₂ : h₂.mblk.get newm = some mNew :=
        (frame₂.same newm mNew thereNew (by simpa using prevOther.symm)).mblk.trans thereNew
      have frame := (Frame.of_adds adds).trans frame₂
      obtain ⟨tail₂, contents₂⟩ := frame.chain tail fun b inside => by
        obtain ⟨mb, thereB⟩ := tail.live inside
        have other := Cells.ne_of_free adds.new thereB
        have notPrev : b ≠ prev := fun same => apart.2 (same ▸ inside)
        simp [other, notPrev]
      have newApart : newm ∉ rest := by
        intro inside
        obtain ⟨mb, thereB⟩ := tail.live inside
        exact Cells.ne_of_free adds.new thereB rfl
      obtain ⟨h', news, bCont, looped, sound', chain', thereNew', shown', contents', frame',
        fresh⟩ := ih sound₂ tail₂ (Nat.lt_of_succ_lt_succ enough) thereNew₂ singleNew newApart
      have prevApart : prev ∉ newm :: news := by
        rw [List.mem_cons, not_or]
        refine ⟨prevOther, ?_⟩
        intro inside
        have free := fresh prev inside
        rw [there₂] at free
        cases free
      have prevKept := frame'.same prev _ there₂ prevApart
      have thereA₂ : h₂.mblk.get a = some ma := by
        have other := Cells.ne_of_free adds.new thereA
        have kept := frame.same a ma thereA (by simp [other, Ne.symm apart.1])
        exact kept.mblk.trans thereA
      refine ⟨h', newm :: news, some newm, ?_, sound', ?_, prevKept.mblk.trans there₂, ?_, ?_, ?_,
        ?_⟩
      · simp only [copyLoop, made, linked, thereA₂, Option.bind_eq_bind, Option.bind_some]
        exact looped
      · exact ⟨rfl, _, prevKept.mblk.trans there₂, chain'⟩
      · rw [prevKept.shown, shown₂]
        exact (adds.same prev m there).shown
      · have newKept := frame₂.same newm mNew thereNew (by simpa using prevOther.symm)
        rw [contents_cons, contents_cons, shown', newKept.shown, adds.shown, contents', contents₂]
      · refine (frame.trans frame').mono ?_
        intro b inside
        simp only [List.mem_append, List.mem_cons, List.not_mem_nil, or_false] at inside ⊢
        tauto
      · intro b inside
        rcases List.mem_cons.mp inside with rfl | later
        · exact adds.new
        · by_contra some_
          obtain ⟨mb, thereB⟩ := Option.ne_none_iff_exists'.mp some_
          have other := Cells.ne_of_free adds.new thereB
          have free := fresh b later
          by_cases same : b = prev
          · rw [same, there₂] at free
            cases free
          · have kept := frame.same b mb thereB (by simp [other, same])
            rw [kept.mblk, thereB] at free
            cases free

/-- The copy of a message shows what the message shows, block by block. -/
theorem copyChain_spec (copier : Copier each) (sound : Sound h statics) {mp : Addr}
    {blocks : List Addr} (chain : Chain h (some mp) blocks) :
    ∃ newm h' news, copyChain each h mp = some (newm, h') ∧ Sound h' statics ∧
      Chain h' (some newm) (newm :: news) ∧ h'.shown newm = h.shown mp ∧
      contents h' (newm :: news) = contents h blocks ∧ Frame h h' (newm :: news) ∧
      ∀ a ∈ newm :: news, h.mblk.get a = none := by
  have enough := chain.length_lt
  cases blocks with
  | nil => cases chain
  | cons a rest =>
      obtain ⟨same, m, there, tail⟩ := chain
      cases same
      obtain ⟨newm, h₁, made, sound₁, adds⟩ := copier.copies sound there
      obtain ⟨m', there', single⟩ := adds.mblk
      have other := Cells.ne_of_free adds.new there
      have stays : h₁.mblk.get mp = some m := (adds.only mp other).trans there
      have apart : ∀ b ∈ rest, b ∉ [newm] := by
        intro b inside
        obtain ⟨mb, thereB⟩ := tail.live inside
        simpa using Cells.ne_of_free adds.new thereB
      obtain ⟨tail₁, contents₁⟩ := (Frame.of_adds adds).chain tail apart
      obtain ⟨h', news, bCont, looped, sound', chain', -, shown, contents', frame, fresh⟩ :=
        copyLoop_spec copier sound₁ tail₁ (Nat.lt_of_succ_lt enough) there' single
          (fun inside => apart newm inside (by simp))
      refine ⟨newm, h', news, ?_, sound', chain', shown.trans adds.shown, ?_, ?_, ?_⟩
      · simp only [copyChain, made, stays, Option.bind_eq_bind, Option.bind_some]
        rw [looped]
        rfl
      · rw [contents_cons, contents_cons, shown, adds.shown, contents', contents₁]
      · refine ((Frame.of_adds adds).trans frame).mono ?_
        intro b inside
        simpa using inside
      · intro b inside
        rcases List.mem_cons.mp inside with rfl | later
        · exact adds.new
        · have notNew : b ≠ newm := by
            rintro rfl
            have free := fresh b later
            rw [there'] at free
            cases free
          exact (adds.only b notNew).symm.trans (fresh b later)

/-! ## Reading -/

theorem int?_of_lt {n : Nat} (small : n < intLimit) : int? n = some n :=
  if_pos ⟨by omega, by omega⟩

theorem msgdsizeLoop_spec (sound : Sound h statics) {p : Option Addr} {blocks : List Addr}
    {fuel msgsize : Nat} (chain : Chain h p blocks) (enough : blocks.length < fuel)
    (small : msgsize + (contents h blocks).length < intLimit) :
    msgdsizeLoop fuel h p msgsize = some ((msgsize + (contents h blocks).length : Nat) : Int) := by
  induction blocks generalizing p fuel msgsize with
  | nil =>
      obtain rfl : p = none := chain
      obtain ⟨fuel, rfl⟩ := exists_fuel enough
      rfl
  | cons a rest ih =>
      obtain ⟨rfl, m, there, tail⟩ := chain
      obtain ⟨fuel, rfl⟩ := exists_fuel enough
      obtain ⟨d, buf, view⟩ := sound.view there
      have size := view.length_shown
      have ordered := view.ordered
      rw [contents_cons, List.length_append] at small ⊢
      have added : (msgsize : Int) + ((m.bWptr : Int) - m.bRptr) =
          ((msgsize + (h.shown a).length : Nat) : Int) := by omega
      have rest_small : msgsize + (h.shown a).length + (contents h rest).length < intLimit := by omega
      have step : msgdsizeLoop (fuel + 1) h (some a) msgsize =
          msgdsizeLoop fuel h m.bCont (msgsize + (h.shown a).length : Nat) := by
        rw [msgdsizeLoop, there, Option.bind_eq_bind, Option.bind_some, added,
          int?_of_lt (show msgsize + (h.shown a).length < intLimit by omega)]
        rfl
      rw [step, ih tail (Nat.lt_of_succ_lt_succ enough) rest_small, Nat.add_assoc]

/-- `msgdsize` is the length of what the message shows. -/
theorem msgdsize_spec (sound : Sound h statics) {mp : Addr} {blocks : List Addr}
    (chain : Chain h (some mp) blocks) (small : (contents h blocks).length < intLimit) :
    msgdsize h mp = some ((contents h blocks).length : Int) := by
  have counted := msgdsizeLoop_spec sound chain chain.length_lt
    (show 0 + (contents h blocks).length < intLimit by omega)
  rw [Nat.zero_add] at counted
  exact counted

theorem lastBlock_spec {init : List Addr} {last : Addr} {m : Mblk} {fuel : Nat} {mp : Addr}
    (chain : Chain h (some mp) (init ++ [last])) (there : h.mblk.get last = some m)
    (ends : m.bCont = none) (enough : init.length < fuel) : lastBlock fuel h mp = some last := by
  induction init generalizing mp fuel with
  | nil =>
      obtain ⟨same, -⟩ := chain
      cases same
      obtain ⟨fuel, rfl⟩ := exists_fuel enough
      simp only [lastBlock, there, Option.bind_eq_bind, Option.bind_some, ends]
  | cons a init ih =>
      obtain ⟨same, m', there', tail⟩ := chain
      cases same
      obtain ⟨fuel, rfl⟩ := exists_fuel enough
      cases next : m'.bCont with
      | none =>
          rw [next] at tail
          exact absurd (Chain.nil_iff.mp tail) (by simp)
      | some b =>
          rw [next] at tail
          simp only [lastBlock, there', Option.bind_eq_bind, Option.bind_some, next]
          exact ih tail (Nat.lt_of_succ_lt_succ enough)

theorem lastBlock_steps {init : List Addr} {last : Addr} {m : Mblk} {mp : Addr}
    (chain : Chain h (some mp) (init ++ [last])) (there : h.mblk.get last = some m)
    (ends : m.bCont = none) : lastBlock h.steps h mp = some last := by
  have enough := chain.length_lt
  rw [List.length_append] at enough
  exact lastBlock_spec chain there ends (by omega)

/-! ## Joining and cutting -/

/-- `concatb` -/
theorem concatb_spec (sound : Sound h statics) {mp newm : Addr} {blocks blocks' : List Addr}
    (chain : Chain h (some mp) blocks) (chain' : Chain h (some newm) blocks')
    (apart : ∀ a ∈ blocks, a ∉ blocks') :
    ∃ end_ h', concatb h mp newm = some (end_, h') ∧ Sound h' statics ∧
      Chain h' (some mp) (blocks ++ blocks') ∧
      contents h' (blocks ++ blocks') = contents h blocks ++ contents h blocks' ∧
      Frame h h' blocks := by
  obtain ⟨init, last, m, rfl, there, ends⟩ := chain.exists_last (Option.some_ne_none mp)
  obtain ⟨init', last', m', rfl, there', ends'⟩ := chain'.exists_last (Option.some_ne_none newm)
  obtain ⟨h', linked, sound', now, shown, frame⟩ := sound.setCont there (some newm)
  have once := List.nodup_append.mp chain.nodup
  have notLast : ∀ a ∈ init, a ∉ [last] := by
    intro a inside
    rw [List.mem_singleton]
    exact once.2.2 a inside last (by simp)
  obtain ⟨behind, contents'⟩ := frame.chain chain' fun a inside => by
    rw [List.mem_singleton]
    rintro rfl
    exact apart a (by simp) inside
  have front : ∀ a ∈ init, Same h h' a := by
    intro a inside
    obtain ⟨ma, thereA⟩ := chain.live (List.mem_append_left _ inside)
    exact frame.same a ma thereA (notLast a inside)
  have whole : Chain h' (some mp) (init ++ last :: (init' ++ [last'])) :=
    chain.extend (fun a inside => (front a inside).mblk) now behind
  have there'' : h'.mblk.get last' = some m' := by
    have outside : last' ∉ [last] := by
      rw [List.mem_singleton]
      rintro rfl
      exact apart last' (by simp) (by simp)
    exact (frame.same last' m' there' outside).mblk.trans there'
  have joined : (init ++ [last]) ++ (init' ++ [last']) = init ++ last :: (init' ++ [last']) := by
    simp
  refine ⟨last', h', ?_, sound', ?_, ?_, frame.mono (by simp)⟩
  · simp only [concatb, lastBlock_steps chain there ends, linked,
      lastBlock_steps behind there'' ends', Option.bind_eq_bind, Option.bind_some]
  · rw [joined]
    exact whole
  · rw [contents_append, contents', contents_append, contents_append,
      contents_same fun a inside => (front a inside).shown]
    simp [shown]

/-- `split_and_queue` up to the queue. -/
theorem splitBlock_spec (sound : Sound h statics) (malloc : Malloc) {mp : Addr} {m : Mblk}
    (there : h.mblk.get mp = some m) {headerSize : Nat}
    (fits : headerSize ≤ (h.shown mp).length) :
    ∃ mdata h', splitBlock malloc h mp headerSize = some h' ∧ Sound h' statics ∧
      Chain h' (some mp) [mp, mdata] ∧ contents h' [mp, mdata] = h.shown mp ∧
      Frame h h' [mp, mdata] ∧ h.mblk.get mdata = none := by
  obtain ⟨mdata, h₁, made, sound₁, data, adds⟩ := sound.dupb malloc there
  have other := Cells.ne_of_free adds.new there
  have there₁ : h₁.mblk.get mp = some m := (adds.only mp other).trans there
  obtain ⟨d, buf, view⟩ := sound.view there
  have size := view.length_shown
  have ordered := view.ordered
  have shown₁ := (adds.same mp m there).shown
  -- the header ends where the data starts
  obtain ⟨sound₂, there₂, shown₂, frame₂⟩ := sound₁.trim there₁ (Nat.le_refl m.bRptr)
    (Nat.le_add_right m.bRptr headerSize) (by omega) rfl
  have data₂ := (frame₂.same mdata _ data (by simpa using Ne.symm other))
  obtain ⟨sound₃, there₃, shown₃, frame₃⟩ := sound₂.trim (data₂.mblk.trans data)
    (Nat.le_add_right m.bRptr headerSize) (show m.bRptr + headerSize ≤ m.bWptr by omega)
    (Nat.le_refl m.bWptr) rfl
  have header₃ := frame₃.same mp _ there₂ (by simpa using other)
  obtain ⟨h', linked, sound', there', shown', frame'⟩ :=
    sound₃.setCont (header₃.mblk.trans there₂) (some mdata)
  have data' := frame'.same mdata _ there₃ (by simpa using Ne.symm other)
  refine ⟨mdata, h', ?_, sound', ?_, ?_, ?_, adds.new⟩
  · simp only [splitBlock, made, there₁, Option.bind_eq_bind, Option.bind_some]
    have found := data₂.mblk.trans data
    rw [found]
    exact linked
  · exact ⟨rfl, _, there', rfl, _, data'.mblk.trans there₃, rfl⟩
  · rw [contents_cons, contents_cons, contents_nil, List.append_nil, shown', header₃.shown, shown₂,
      data'.shown, shown₃, data₂.shown, adds.shown, shown₁]
    have first : m.bRptr + headerSize - m.bRptr = headerSize := by omega
    have rest : m.bWptr - (m.bRptr + headerSize) = ((h.shown mp).drop headerSize).length := by
      rw [List.length_drop]
      omega
    dsimp only
    rw [Nat.sub_self, List.drop_zero, first, rest, List.take_length, List.take_append_drop]
  · refine ((((Frame.of_adds adds).trans frame₂).trans frame₃).trans frame').mono ?_
    intro b inside
    simp only [List.mem_append, List.mem_cons, List.not_mem_nil, or_false] at inside ⊢
    tauto

/-! ## Pulling up -/

/-- A block that is live in one heap and new to another is not the same. -/
theorem Frame.fresh {h h' : Heap} {touched news : List Addr} (frame : Frame h h' touched)
    (kept : ∀ a ∈ touched, h'.mblk.get a ≠ none) (fresh : ∀ a ∈ news, h'.mblk.get a = none) :
    ∀ a ∈ news, h.mblk.get a = none := by
  intro a inside
  have free := fresh a inside
  by_contra some_
  obtain ⟨m, there⟩ := Option.ne_none_iff_exists'.mp some_
  by_cases touch : a ∈ touched
  · exact kept a touch free
  · rw [(frame.same a m there touch).mblk, there] at free
    cases free

/-- What `msgpullup` does with the end of the original message: the copy of it
goes behind `newm`, less the bytes that are copied already. -/
theorem pullup_rest (malloc : Malloc) (sound : Sound h statics) {newm a : Addr} {rest : List Addr}
    {m : Mblk} {rlen : Nat} (there : h.mblk.get newm = some m)
    (whole : Chain h (some a) (a :: rest)) (short : rlen < (h.shown a).length) :
    ∃ rest' h₂ h₃ h' mr news, dupmsg malloc h a = some (rest', h₂) ∧
      h₂.setCont newm (some rest') = some h₃ ∧ h₃.mblk.get rest' = some mr ∧
      h' = { h₃ with mblk := h₃.mblk.put rest' { mr with bRptr := mr.bRptr + rlen } } ∧
      Sound h' statics ∧ Chain h' (some newm) (newm :: rest' :: news) ∧
      contents h' (newm :: rest' :: news) =
        h.shown newm ++ (h.shown a).drop rlen ++ contents h rest ∧
      Frame h h' (newm :: rest' :: news) ∧ ∀ b ∈ rest' :: news, h.mblk.get b = none := by
  obtain ⟨rest', h₂, news, made, sound₂, chain₂, shown₂, contents₂, frame₂, fresh⟩ :=
    copyChain_spec (copier_dupb malloc) sound whole
  have apart : ∀ b ∈ rest' :: news, b ∉ [newm] := by
    intro b inside
    rw [List.mem_singleton]
    rintro rfl
    rw [fresh b inside] at there
    cases there
  have kept := frame₂.same newm m there fun inside => apart newm inside (by simp)
  obtain ⟨h₃, linked, sound₃, there₃, shown₃, frame₃⟩ :=
    sound₂.setCont (kept.mblk.trans there) (some rest')
  obtain ⟨chain₃, contents₃⟩ := frame₃.chain chain₂ apart
  have once := List.nodup_cons.mp chain₃.nodup
  obtain ⟨-, mr, thereR, tail₃⟩ := chain₃
  obtain ⟨_, mr₂, thereR₂, -⟩ := chain₂
  have shownR : h₃.shown rest' = h.shown a :=
    (frame₃.same rest' mr₂ thereR₂ (apart rest' List.mem_cons_self)).shown.trans shown₂
  obtain ⟨d, buf, view⟩ := sound₃.view thereR
  have size := view.length_shown
  rw [shownR] at size
  obtain ⟨sound', there', shown', frame'⟩ := sound₃.trim thereR (Nat.le_add_right mr.bRptr rlen)
    (show mr.bRptr + rlen ≤ mr.bWptr by omega) (Nat.le_refl mr.bWptr) rfl
  have newOutside : newm ∉ [rest'] := by
    have other := apart rest' List.mem_cons_self
    simpa [eq_comm] using other
  have newKept := frame'.same newm _ there₃ newOutside
  obtain ⟨tail', contents'⟩ := frame'.chain tail₃ fun b inside => by
    rw [List.mem_singleton]
    rintro rfl
    exact once.1 inside
  have rests : contents h₃ news = contents h rest := by
    have both := contents₃.trans contents₂
    rw [contents_cons, contents_cons, shownR] at both
    exact List.append_cancel_left both
  refine ⟨rest', h₂, h₃, _, mr, news, made, linked, thereR, rfl, sound', ?_, ?_, ?_, fresh⟩
  · exact ⟨rfl, _, newKept.mblk.trans there₃, rfl, _, there', tail'⟩
  · rw [contents_cons, contents_cons, newKept.shown, shown₃, kept.shown, shown', shownR, contents',
      rests, List.append_assoc]
    congr 2
    have behind : mr.bRptr + rlen - mr.bRptr = rlen := by omega
    have length : mr.bWptr - (mr.bRptr + rlen) = ((h.shown a).drop rlen).length := by
      rw [List.length_drop]
      omega
    rw [behind, length, List.take_length]
  · refine ((frame₂.trans frame₃).trans frame').mono ?_
    intro b inside
    simp only [List.mem_append, List.mem_cons, List.not_mem_nil, or_false] at inside ⊢
    tauto

theorem pullupLoop_spec (malloc : Malloc) (sound : Sound h statics) {newm : Addr}
    {p : Option Addr} {blocks : List Addr} {fuel rlen : Nat} {m : Mblk} {d : Dblk}
    {buf : List Byte} (chain : Chain h p blocks) (enough : blocks.length < fuel)
    (view : View h newm m d buf) (single : m.bCont = none) (one : d.refCount = 1)
    (frees : d.dbFreefn = true) (room : m.bWptr + rlen ≤ d.dbLim) (apart : newm ∉ blocks) :
    ∃ h' news, pullupLoop malloc newm fuel h p rlen = some h' ∧ Sound h' statics ∧
      Chain h' (some newm) (newm :: news) ∧
      contents h' (newm :: news) = h.shown newm ++ contents h blocks ∧
      Frame h h' (newm :: news) ∧ ∀ a ∈ news, h.mblk.get a = none := by
  induction blocks generalizing h p fuel rlen m buf with
  | nil =>
      obtain rfl : p = none := chain
      obtain ⟨fuel, rfl⟩ := exists_fuel enough
      have alone : Chain h m.bCont [] := single
      exact ⟨h, [], rfl, sound, ⟨rfl, m, view.mblk_eq, alone⟩, rfl,
        (Frame.refl h).mono (List.nil_subset _), by simp⟩
  | cons a rest ih =>
      have whole := chain
      obtain ⟨rfl, ma, there, tail⟩ := chain
      obtain ⟨fuel, rfl⟩ := exists_fuel enough
      rw [List.mem_cons, not_or] at apart
      have outside : a ∉ [newm] := by simpa using Ne.symm apart.1
      obtain ⟨da, bufA, viewA⟩ := sound.view there
      have bytes : h.bytes? a = some (h.shown a) := by rw [viewA.shown, viewA.bytes]
      have restOutside : ∀ b ∈ rest, b ∉ [newm] := by
        intro b inside
        rw [List.mem_singleton]
        rintro rfl
        exact apart.2 inside
      by_cases fits : (h.shown a).length ≤ rlen
      · obtain ⟨h₁, buf₁, written, sound₁, view₁, shown₁, frame₁⟩ :=
          sound.append view one frees (show m.bWptr + (h.shown a).length ≤ d.dbLim by omega)
        obtain ⟨tail₁, contents₁⟩ := frame₁.chain tail restOutside
        obtain ⟨h', news, looped, sound', chain', contents', frame', fresh⟩ :=
          ih sound₁ tail₁ (Nat.lt_of_succ_lt_succ enough) view₁ single
            (show m.bWptr + (h.shown a).length + (rlen - (h.shown a).length) ≤ d.dbLim by omega)
            apart.2
        refine ⟨h', news, ?_, sound', chain', ?_, ?_, ?_⟩
        · have stays := (frame₁.same a ma there outside).mblk.trans there
          simp only [pullupLoop, bytes, Option.bind_eq_bind, Option.bind_some, if_pos fits, written,
            stays]
          exact looped
        · rw [contents', shown₁, contents₁, contents_cons, List.append_assoc]
        · refine (frame₁.trans frame').mono ?_
          intro b inside
          simpa using inside
        · exact frame₁.fresh (by simp [view₁.mblk_eq]) fresh
      · obtain ⟨h₁, buf₁, written, sound₁, view₁, shown₁, frame₁⟩ :=
          sound.append view one frees (show m.bWptr + ((h.shown a).take rlen).length ≤ d.dbLim by
            rw [List.length_take]
            omega)
        obtain ⟨whole₁, contents₁⟩ := frame₁.chain whole fun b inside => by
          rcases List.mem_cons.mp inside with rfl | later
          · exact outside
          · exact restOutside b later
        have shownA := (frame₁.same a ma there outside).shown
        obtain ⟨rest', h₂, h₃, h', mr, news, made, linked, thereR, after, sound', chain', contents',
          frame', fresh⟩ := pullup_rest malloc sound₁ view₁.mblk_eq whole₁
            (show rlen < (h₁.shown a).length by rw [shownA]; omega)
        refine ⟨h', rest' :: news, ?_, sound', chain', ?_, ?_, ?_⟩
        · simp only [pullupLoop, bytes, Option.bind_eq_bind, Option.bind_some, if_neg fits, written,
            made, linked, thereR, after]
        · rw [contents', shown₁, shownA, contents_cons]
          rw [contents_cons, contents_cons, shownA] at contents₁
          rw [List.append_cancel_left contents₁]
          simp only [List.append_assoc]
          rw [← List.append_assoc (List.take rlen _), List.take_append_drop]
        · refine (frame₁.trans frame').mono ?_
          intro b inside
          simpa using inside
        · exact frame₁.fresh (by simp [view₁.mblk_eq]) fresh

/-- `msgpullup`: the same bytes, the first of them in one block. -/
theorem msgpullup_spec (malloc : Malloc) (sound : Sound h statics) {mp : Addr}
    {blocks : List Addr} (chain : Chain h (some mp) blocks)
    (small : (contents h blocks).length < intLimit) {len : Int} (proper : -1 ≤ len) :
    ∃ newm h' news, msgpullup malloc h mp len = some (newm, h') ∧ Sound h' statics ∧
      Chain h' (some newm) (newm :: news) ∧ contents h' (newm :: news) = contents h blocks ∧
      Frame h h' (newm :: news) ∧ ∀ a ∈ newm :: news, h.mblk.get a = none := by
  have size := msgdsize_spec sound chain small
  obtain ⟨n, n_eq⟩ : ∃ n : Nat, (if len = -1 ∨ ((contents h blocks).length : Int) < len then
      ((contents h blocks).length : Int) else len) = n := by
    split
    · exact ⟨_, rfl⟩
    · exact ⟨len.toNat, by omega⟩
  obtain ⟨sound₁, ⟨datab, base, buf, view₁⟩, adds⟩ := sound.allocb malloc n
  have frame₁ := Frame.of_adds adds
  obtain ⟨chain₁, contents₁⟩ := frame₁.chain chain fun a inside => by
    obtain ⟨m, there⟩ := chain.live inside
    simpa using Cells.ne_of_free adds.new there
  have apart : (allocb malloc h n).1 ∉ blocks := by
    intro inside
    obtain ⟨m, there⟩ := chain.live inside
    exact Cells.ne_of_free adds.new there rfl
  obtain ⟨h', news, looped, sound', chain', contents', frame', fresh⟩ :=
    pullupLoop_spec malloc sound₁ chain₁ chain.length_lt view₁ rfl rfl rfl
      (show 0 + n ≤ n by omega) apart
  refine ⟨_, h', news, ?_, sound', chain', ?_, ?_, ?_⟩
  · have proper' : ¬ ((n : Int) < 0) := by omega
    simp only [msgpullup, size, Option.bind_eq_bind, Option.bind_some, n_eq, if_neg proper',
      Int.toNat_natCast, looped]
  · rw [contents', adds.shown, contents₁, List.nil_append]
  · refine (frame₁.trans frame').mono ?_
    intro b inside
    simpa using inside
  · intro b inside
    rcases List.mem_cons.mp inside with rfl | later
    · exact adds.new
    · exact frame₁.fresh (by simp [view₁.mblk_eq]) fresh b later

/-! ## Appending -/

theorem padcnt_lt (m : Mblk) (size : Nat) (pad : Bool) : padcnt m size pad < 4 := by
  unfold padcnt
  split <;> omega

/-- `appendb` at the last block of a message that shares no buffer, and
`msgappend`: the padding has room where the data goes. -/
theorem msgappend_spec (malloc : Malloc) (sound : Sound h statics) {mp last : Addr}
    {init : List Addr} {m : Mblk} {d : Dblk} {buf data : List Byte} {pad : Bool}
    (chain : Chain h (some mp) (init ++ [last])) (ends : m.bCont = none)
    (view : View h last m d buf) (one : d.refCount = 1) (frees : d.dbFreefn = true)
    (roomy : pad = true → data.length + 3 ≤ d.dbLim) :
    ∃ h' news, msgappend malloc h mp data pad = some h' ∧ Sound h' statics ∧
      Chain h' (some mp) (init ++ last :: news) ∧
      contents h' (init ++ last :: news) =
        contents h (init ++ [last]) ++ data ++ List.replicate (padcnt m data.length pad) 0 ∧
      Frame h h' (last :: news) ∧ ∀ a ∈ news, h.mblk.get a = none := by
  have walked := lastBlock_steps chain view.mblk_eq ends
  have once := List.nodup_append.mp chain.nodup
  have few := padcnt_lt m data.length pad
  have none_ : pad = false → padcnt m data.length pad = 0 := by
    rintro rfl
    rfl
  generalize count : padcnt m data.length pad = n at few none_ ⊢
  have initApart : ∀ a ∈ init, a ≠ last := fun a inside => once.2.2 a inside last (by simp)
  by_cases fits : d.dbLim < m.bWptr + data.length + n
  · -- no room: a further block, where the padding was counted for the old one
    have newRoom : data.length + n ≤ max d.dbLim data.length := by
      cases pad with
      | true =>
          have enough := roomy rfl
          omega
      | false =>
          rw [none_ rfl]
          omega
    obtain ⟨sound₁, ⟨datab, base, buf₁, view₁⟩, adds⟩ :=
      sound.allocb malloc (max d.dbLim data.length)
    generalize allocated : allocb malloc h (max d.dbLim data.length) = made
      at sound₁ view₁ adds
    obtain ⟨next, h₁⟩ := made
    have lastOther := Cells.ne_of_free adds.new view.mblk_eq
    obtain ⟨h₂, linked, sound₂, there₂, shown₂, frame₂⟩ :=
      sound₁.setCont ((adds.only last lastOther).trans view.mblk_eq) (some next)
    have view₂ := view₁.setCont lastOther.symm linked
    have blank : h₂.shown next = [] := by
      rw [view₂.shown]
      simp
    obtain ⟨h₃, buf₃, written₃, sound₃, view₃, shown₃, frame₃⟩ :=
      sound₂.append view₂ rfl rfl (show 0 + data.length ≤ max d.dbLim data.length by omega)
    obtain ⟨h', buf', written, sound', view', shown', frame'⟩ :=
      sound₃.append view₃ rfl rfl
        (show 0 + data.length + (List.replicate n (0 : Byte)).length ≤ max d.dbLim data.length by
          rw [List.length_replicate]
          omega)
    have frame := (((Frame.of_adds adds).trans frame₂).trans frame₃).trans frame'
    have touched : ∀ a, a ≠ last → a ≠ next → a ∉ [next] ++ [last] ++ [next] ++ [next] := by
      intro a notLast notNext
      simp [notLast, notNext]
    have front : ∀ a ∈ init, Same h h' a := by
      intro a inside
      obtain ⟨ma, thereA⟩ := chain.live (List.mem_append_left _ inside)
      exact frame.same a ma thereA
        (touched a (initApart a inside) (Cells.ne_of_free adds.new thereA))
    have lastKept : Same h₂ h' last :=
      (frame₃.trans frame').same last _ there₂ (by simp [lastOther])
    refine ⟨h', [next], ?_, sound', ?_, ?_, ?_, ?_⟩
    · simp only [msgappend, walked, appendb, view.mblk_eq, view.dblk_eq, count, if_pos fits,
        allocated, linked, written₃, written, Option.bind_eq_bind, Option.bind_some]
    · refine chain.extend (fun a inside => (front a inside).mblk) (lastKept.mblk.trans there₂) ?_
      exact ⟨rfl, _, view'.mblk_eq, rfl⟩
    · rw [contents_append, contents_append, contents_cons, contents_cons, contents_cons,
        contents_nil, lastKept.shown, shown₂, (adds.same last m view.mblk_eq).shown, shown',
        shown₃, blank, contents_same fun a inside => (front a inside).shown]
      simp
    · refine frame.mono ?_
      intro b inside
      simp only [List.mem_append, List.mem_cons, List.not_mem_nil, or_false] at inside ⊢
      tauto
    · intro a inside
      rw [List.mem_singleton.mp inside]
      exact adds.new
  · obtain ⟨h₁, buf₁, written₁, sound₁, view₁, shown₁, frame₁⟩ :=
      sound.append view one frees (show m.bWptr + data.length ≤ d.dbLim by omega)
    obtain ⟨h', buf', written, sound', view', shown', frame'⟩ :=
      sound₁.append view₁ one frees
        (show m.bWptr + data.length + (List.replicate n (0 : Byte)).length ≤ d.dbLim by
          rw [List.length_replicate]
          omega)
    have frame := frame₁.trans frame'
    have front : ∀ a ∈ init, Same h h' a := by
      intro a inside
      obtain ⟨ma, thereA⟩ := chain.live (List.mem_append_left _ inside)
      exact frame.same a ma thereA (by simp [initApart a inside])
    refine ⟨h', [], ?_, sound', ?_, ?_, ?_, by simp⟩
    · simp only [msgappend, walked, appendb, view.mblk_eq, view.dblk_eq, count, if_neg fits,
        written₁, written, Option.bind_eq_bind, Option.bind_some]
    · exact chain.extend (fun a inside => (front a inside).mblk) view'.mblk_eq ends
    · rw [contents_append, contents_append, contents_cons, contents_cons, contents_nil, shown',
        shown₁, contents_same fun a inside => (front a inside).shown]
      simp
    · exact frame.mono (by simp)

end Operations

end DvsServer.Ortp.StrUtils
