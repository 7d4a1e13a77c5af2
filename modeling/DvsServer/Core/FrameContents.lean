import DvsServer.Core.Pipeline

/-!
# A queued frame keeps its contents

An element carries a pointer to the buffer of its channel, and the next frame is
stored in the same buffer.  Elements reach `send_to_client` with the bytes they
were put with as long as the video thread stores nothing in the buffer of an
element that is still to be sent; nothing in the source makes it wait.
-/

namespace DvsServer.Core.Pipeline

open DvsServer.Lib DvsServer.Com.RtpSend DvsServer.Core.Session DvsServer.Core.VideoEncode

/-! ## Histories -/

/-- An element with the bytes it points to. -/
abbrev Loaded := SessionElement × List UInt8

def Act.put? (g : Fin maxGroupNum) : Act → Option Loaded
  | .puts h e bytes => if h = g then some (e, bytes) else none
  | _ => none

def Act.sent? (g : Fin maxGroupNum) : Act → Option Loaded
  | .sends h e bytes => if h = g then some (e, bytes) else none
  | _ => none

/-- What the steps of a history did, in the order in which they did it. -/
def log (pick : Act → Option Loaded) (history : History) : List Loaded :=
  (history.filterMap fun event => pick event.2).reverse

theorem log_none {pick : Act → Option Loaded} {event : Mover × Act} {history : History}
    (nothing : pick event.2 = none) : log pick (event :: history) = log pick history := by
  simp only [log, List.filterMap_cons, nothing]

theorem log_some {pick : Act → Option Loaded} {event : Mover × Act} {history : History}
    {loaded : Loaded} (picked : pick event.2 = some loaded) :
    log pick (event :: history) = log pick history ++ [loaded] := by
  simp only [log, List.filterMap_cons, picked, List.reverse_cons]

/-! ## The property -/

/-- What the sub-session thread of a group passed to `send_to_client` are the first
of the elements put for the group, in order, with the same bytes, and their
headers name their channels. -/
def ContentsKept (history : History) : Prop :=
  ∀ g, log (Act.sent? g) history <+: log (Act.put? g) history ∧
    ∀ sent ∈ log (Act.sent? g) history, sent.2[chIdOffset]? = some sent.1.chId

/-- The elements of a group that are still to be sent. -/
def State.unsent (p : State) (g : Fin maxGroupNum) : List SessionElement :=
  match p.readers g with
  | .got e => e :: (p.fifos g).queue
  | .exited => []
  | _ => (p.fifos g).queue

/-- Nothing is stored in the buffer of an element that is still to be sent. -/
def KeepsUnsent (p : State) : Mover × Act → Prop
  | (_, .writes ch _ _ data) => data ≠ [] → ∀ g, ∀ e ∈ p.unsent g, e.buffer ≠ ch
  | _ => True

instance (p : State) : DecidablePred (KeepsUnsent p)
  | (_, .writes ch _ _ data) =>
      inferInstanceAs (Decidable (data ≠ [] → ∀ g, ∀ e ∈ p.unsent g, e.buffer ≠ ch))
  | (_, .quiet) | (_, .puts _ _ _) | (_, .putFails _) | (_, .gets _ _) | (_, .getFails _)
  | (_, .leaves _) | (_, .sends _ _ _) | (_, .closes _) | (_, .quits) => .isTrue trivial

/-! ## The bytes of an element -/

theorem bytes_congr {m m' : Memory} (same : m.buf = m'.buf) (buffer len : Nat) :
    m.bytes buffer len = m'.bytes buffer len := by
  unfold Memory.bytes
  rw [same]

theorem bytes_setBuf_ne {m : Memory} {ch : Fin maxVideoChannel} {buffer : Nat} (other : buffer ≠ ch)
    (b : Buffer) (len : Nat) : (m.setBuf ch b).bytes buffer len = m.bytes buffer len := by
  unfold Memory.bytes
  split
  · rfl
  · rename_i target at_
    have differs : target ≠ ch := by
      intro same
      subst same
      exact other (Int.ofNat.inj (index?_eq_some.mp at_))
    rw [setBuf_ne differs]

theorem bytes_at {m : Memory} {ch : Fin maxVideoChannel} {b : Buffer} (held : m.buf ch = some b)
    (len : Nat) : m.bytes ch len = b.take len := by
  rw [Memory.bytes, index?_val]
  dsimp only
  rw [held]

/-- A store that the guard allows changes no byte of an element still to be sent. -/
theorem stored_bytes {m after : Memory} {ch : Fin maxVideoChannel} {offset : Nat}
    {data : List UInt8} {b : Buffer} {e : SessionElement} (held : m.buf ch = some b)
    (stored : after.buf = (m.setBuf ch (b.store offset data)).buf)
    (clear : data ≠ [] → e.buffer ≠ ch) (len : Nat) :
    after.bytes e.buffer len = m.bytes e.buffer len := by
  rw [bytes_congr stored]
  by_cases nothing : data = []
  · rw [nothing, store_nil]
    apply bytes_congr
    rw [Memory.setBuf, ← held, Function.update_eq_self]
  · exact bytes_setBuf_ne (clear nothing) _ _

/-! ## Elements and their bytes -/

/-- The elements put for a group are those sent and then those still to be sent,
with the bytes they point to now; of a thread that has left its loop it is known
that it sent the first ones. -/
def KeptAt (g : Fin maxGroupNum) (history : History) (p : State) : Prop :=
  ∃ rest, log (Act.put? g) history = log (Act.sent? g) history ++ rest ∧
    (p.readers g ≠ .exited → rest = (p.unsent g).map fun e => (e, p.bytes e))

/-- A step that neither puts nor sends for the group, and changes neither what is
still to be sent nor its bytes. -/
theorem KeptAt.frame {g : Fin maxGroupNum} {history : History} {p after : State}
    {event : Mover × Act} (kept : KeptAt g history p) (put : event.2.put? g = none)
    (sent : event.2.sent? g = none)
    (same : after.readers g ≠ .exited → p.readers g ≠ .exited ∧ after.unsent g = p.unsent g ∧
      ∀ e ∈ p.unsent g, after.bytes e = p.bytes e) :
    KeptAt g (event :: history) after := by
  obtain ⟨rest, split, here⟩ := kept
  refine ⟨rest, by rw [log_none put, log_none sent, split], fun running => ?_⟩
  obtain ⟨before, unsent, bytes⟩ := same running
  rw [here before, unsent]
  exact List.map_congr_left fun e member => by rw [bytes e member]

theorem unsent_congr {p after : State} {g : Fin maxGroupNum}
    (reader : after.readers g = p.readers g) (queue : (after.fifos g).queue = (p.fifos g).queue) :
    after.unsent g = p.unsent g := by
  unfold State.unsent
  rw [reader, queue]

/-- A step that leaves the queue and the thread of the group and all buffers alone. -/
theorem KeptAt.elsewhere {g : Fin maxGroupNum} {history : History} {p after : State}
    {event : Mover × Act} (kept : KeptAt g history p) (put : event.2.put? g = none)
    (sent : event.2.sent? g = none) (reader : after.readers g = p.readers g)
    (queue : (after.fifos g).queue = (p.fifos g).queue) (memory : after.memory = p.memory) :
    KeptAt g (event :: history) after := by
  apply kept.frame put sent
  intro running
  rw [reader] at running
  refine ⟨running, unsent_congr reader queue, fun e _ => ?_⟩
  rw [State.bytes, memory]
  rfl

/-- An element is put into an open FIFO. -/
theorem KeptAt.put {g : Fin maxGroupNum} {history : History} {p after : State} {mover : Mover}
    {e : SessionElement} (kept : KeptAt g history p) (reader : after.readers g = p.readers g)
    (queue : (after.fifos g).queue = (p.fifos g).queue ++ [e]) (memory : after.memory = p.memory) :
    KeptAt g ((mover, .puts g e (p.bytes e)) :: history) after := by
  obtain ⟨rest, split, here⟩ := kept
  have picked : (Act.puts g e (p.bytes e)).put? g = some (e, p.bytes e) := if_pos rfl
  refine ⟨rest ++ [(e, p.bytes e)], ?_, fun running => ?_⟩
  · rw [log_some picked, log_none rfl, split, List.append_assoc]
  · have unsent : after.unsent g = p.unsent g ++ [e] := by
      unfold State.unsent
      rw [reader] at running ⊢
      cases at_ : p.readers g with
      | exited => exact absurd at_ running
      | head => exact queue
      | get => exact queue
      | got taken => exact congrArg (List.cons taken) queue
    rw [reader] at running
    rw [unsent, List.map_append, here running]
    unfold State.bytes
    rw [memory]
    rfl

/-- The element a thread has taken is passed to `send_to_client`. -/
theorem KeptAt.send {g : Fin maxGroupNum} {history : History} {p : State} {mover : Mover}
    {e : SessionElement} (kept : KeptAt g history p) (taken : p.readers g = .got e) :
    KeptAt g ((mover, .sends g e (p.bytes e)) :: history) (p.setReader g .head) := by
  obtain ⟨rest, split, here⟩ := kept
  have picked : (Act.sends g e (p.bytes e)).sent? g = some (e, p.bytes e) := if_pos rfl
  have unsent : p.unsent g = e :: (p.fifos g).queue := by rw [State.unsent, taken]
  have rest_eq := here (by rw [taken]; exact nofun)
  rw [unsent, List.map_cons] at rest_eq
  refine ⟨(p.fifos g).queue.map fun e => (e, p.bytes e), ?_, fun _ => ?_⟩
  · rw [log_none rfl, log_some picked, split, rest_eq, List.append_assoc]
    rfl
  · rw [State.unsent, setReader_self]
    rfl

theorem KeptAt.video_step {chs : Int} {capacity : Option Nat} {g : Fin maxGroupNum}
    {history : History} {p after : State} {act : Act} (kept : KeptAt g history p)
    (keeps : KeepsUnsent p (.video, act)) (steps : VideoSteps chs capacity p act after) :
    KeptAt g ((.video, act) :: history) after := by
  cases steps with
  | leave => exact kept.elsewhere rfl rfl rfl rfl rfl
  | enter => exact kept.elsewhere rfl rfl rfl rfl rfl
  | store stores held stored =>
      apply kept.frame rfl rfl
      intro running
      refine ⟨running, rfl, fun e member => ?_⟩
      exact stored_bytes held stored (fun some_ => keeps some_ g e member) _
  | skip => exact kept.elsewhere rfl rfl rfl rfl rfl
  | round => exact kept.elsewhere rfl rfl rfl rfl rfl
  | flushed => exact kept.elsewhere rfl rfl rfl rfl rfl
  | @put h elt pc ok f target puts =>
      cases puts with
      | closed closed =>
          refine kept.elsewhere rfl rfl rfl ?_ rfl
          by_cases same : g = h
          · subst same
            exact congrArg Fifo.queue (setFifo_self ..)
          · exact congrArg Fifo.queue (setFifo_ne same _)
      | put open_ room =>
          by_cases same : g = h
          · subst same
            exact kept.put rfl (congrArg Fifo.queue (setFifo_self ..)) rfl
          · refine kept.elsewhere ?_ rfl rfl (congrArg Fifo.queue (setFifo_ne same _)) rfl
            exact if_neg fun here => same here.symm

theorem KeptAt.reader_step {g h : Fin maxGroupNum} {history : History} {p after : State} {act : Act}
    (kept : KeptAt g history p) (steps : ReaderSteps h p act after) :
    KeptAt g ((.reader h, act) :: history) after := by
  by_cases same : g = h
  · subst same
    -- a thread that leaves its loop sends nothing any more
    have exits : ∀ {act : Act}, act.put? g = none → act.sent? g = none →
        KeptAt g ((.reader g, act) :: history) (p.setReader g .exited) := by
      intro act put sent
      exact kept.frame put sent fun running => absurd (setReader_self ..) running
    cases steps with
    | leave => exact exits rfl rfl
    | fail => exact exits rfl rfl
    | flush => exact exits rfl rfl
    | enter at_ quit =>
        apply kept.frame rfl rfl
        intro _
        refine ⟨by rw [at_]; exact nofun, ?_, fun _ _ => rfl⟩
        rw [State.unsent, setReader_self, State.unsent, at_]
        rfl
    | get at_ open_ queue =>
        apply kept.frame rfl rfl
        intro _
        refine ⟨by rw [at_]; exact nofun, ?_, fun _ _ => rfl⟩
        rw [State.unsent, setReader_self, State.unsent, at_]
        dsimp only [State.setReader]
        rw [setFifo_self, queue]
    | send at_ command => exact kept.send at_
  · have other : ∀ reader, (p.setReader h reader).readers g = p.readers g := fun reader =>
      setReader_ne same reader
    cases steps with
    | leave => exact kept.elsewhere rfl rfl (other _) rfl rfl
    | enter => exact kept.elsewhere rfl rfl (other _) rfl rfl
    | fail => exact kept.elsewhere rfl rfl (other _) rfl rfl
    | flush => exact kept.elsewhere rfl rfl (other _) rfl rfl
    | get at_ open_ queue =>
        exact kept.elsewhere rfl rfl (other _) (congrArg Fifo.queue (setFifo_ne same _)) rfl
    | send at_ command =>
        refine kept.elsewhere rfl ?_ (other _) rfl rfl
        exact if_neg fun here => same here.symm

theorem KeptAt.session_step {chs : Int} {g : Fin maxGroupNum} {history : History} {p after : State}
    {act : Act} (kept : KeptAt g history p) (steps : SessionSteps chs p act after) :
    KeptAt g ((.session, act) :: history) after := by
  cases steps with
  | join => exact kept.elsewhere rfl rfl rfl rfl rfl
  | joined => exact kept.elsewhere rfl rfl rfl rfl rfl
  | delete => exact kept.elsewhere rfl rfl rfl rfl rfl
  | closed => exact kept.elsewhere rfl rfl rfl rfl rfl
  | @close i h at_ below group =>
      refine kept.elsewhere rfl rfl rfl ?_ rfl
      by_cases same : g = h
      · subst same
        dsimp only
        rw [setFifo_self]
      · exact congrArg Fifo.queue (setFifo_ne same _)

theorem KeptAt.step {chs : Int} {capacity : Option Nat} {g : Fin maxGroupNum} {history : History}
    {p after : State} {event : Mover × Act} (kept : KeptAt g history p) (keeps : KeepsUnsent p event)
    (steps : Steps chs capacity p event after) : KeptAt g (event :: history) after := by
  cases steps with
  | video steps => exact kept.video_step keeps steps
  | reader below steps => exact kept.reader_step steps
  | session steps => exact kept.session_step steps
  | main => exact kept.elsewhere rfl rfl rfl rfl rfl

/-! ## Headers -/

/-- The header in a channel's buffer has the number of the channel. -/
def State.NamesChannel (p : State) (ch : Fin maxVideoChannel) : Prop :=
  ∃ b, p.memory.buf ch = some b ∧ b chIdOffset = UInt8.ofNat ch

/-- The channel has been stored in the header that was read. -/
def VideoPc.marked : VideoPc → Bool
  | .frame | .copy _ | .patch _ | .put _ => true
  | _ => false

/-- `s_elt.len` is the length of the frame that was read. -/
def VideoPc.sized : VideoPc → Bool
  | .copy _ | .patch _ | .put _ => true
  | _ => false

/-- What the video thread has stored when it comes to a put. -/
structure Marked (p : State) : Prop where
  source : p.video.pc.marked = true → p.NamesChannel sourceChannel
  sized : p.video.pc.sized = true → chIdOffset < p.video.elt.len.toNat
  own : ∀ (i : Nat) (ch : Fin maxVideoChannel), p.video.pc = .put i → (i : Int) = ch → p.NamesChannel ch
  flush : ∀ i, p.video.pc = .flush i → p.video.elt.command = cmdSessionFlush

theorem Marked.congr {p after : State} (marked : Marked p) (video : after.video = p.video)
    (memory : after.memory = p.memory) : Marked after := by
  have names : ∀ {ch}, p.NamesChannel ch → after.NamesChannel ch := by
    rintro ch ⟨b, held, at_⟩
    exact ⟨b, by rw [memory, held], at_⟩
  refine ⟨fun past => ?_, fun past => ?_, fun i ch pc at_ => ?_, fun i pc => ?_⟩
  · rw [video] at past
    exact names (marked.source past)
  · rw [video] at past ⊢
    exact marked.sized past
  · rw [video] at pc
    exact names (marked.own i ch pc at_)
  · rw [video] at pc ⊢
    exact marked.flush i pc

/-- A store of the channel's number, and a store elsewhere. -/
theorem NamesChannel.store {p after : State} {ch target : Fin maxVideoChannel} {offset : Nat}
    {data : List UInt8} {b : Buffer} (held : p.memory.buf target = some b)
    (stored : after.memory.buf = (p.memory.setBuf target (b.store offset data)).buf)
    (names : ch ≠ target ∨ chIdOffset < offset → p.NamesChannel ch)
    (writes : ch = target → chIdOffset < offset ∨ offset = chIdOffset ∧ data = [UInt8.ofNat target]) :
    after.NamesChannel ch := by
  by_cases same : ch = target
  · subst same
    refine ⟨b.store offset data, by rw [stored, setBuf_self], ?_⟩
    rcases writes rfl with behind | ⟨at_, value⟩
    · obtain ⟨b', held', at_⟩ := names (.inr behind)
      cases Option.some.inj (held.symm.trans held')
      rw [store_before behind, at_]
    · subst value
      rw [← at_]
      have first : 0 < [UInt8.ofNat ch].length := Nat.one_pos
      exact store_at first
  · obtain ⟨b', held', at_⟩ := names (.inl same)
    exact ⟨b', by rw [stored, setBuf_ne same, held'], at_⟩

theorem Marked.store_step {chs : Int} {p : State} {memory : Memory} {ch : Fin maxVideoChannel}
    {offset : Nat} {data : List UInt8} {b : Buffer} {next : Video} (marked : Marked p)
    (stores : Stores chs p ch offset data next) (held : p.memory.buf ch = some b)
    (stored : memory.buf = (p.memory.setBuf ch (b.store offset data)).buf) :
    Marked { p with memory, video := next } := by
  cases stores with
  | fileEnd pc => exact ⟨nofun, nofun, nofun, nofun⟩
  | header pc => exact ⟨nofun, nofun, nofun, nofun⟩
  | mark pc =>
      refine ⟨fun _ => ?_, nofun, nofun, nofun⟩
      exact NamesChannel.store held stored (fun some_ => by
        rcases some_ with differs | behind
        · exact absurd rfl differs
        · exact absurd behind (Nat.lt_irrefl _)) fun _ => .inr ⟨rfl, rfl⟩
  | noFrame pc => exact ⟨nofun, nofun, nofun, nofun⟩
  | frame pc some_ fits =>
      refine ⟨fun _ => ?_, fun _ => ?_, nofun, nofun⟩
      · exact NamesChannel.store held stored (fun _ => marked.source (by rw [pc]; rfl)) fun _ =>
          .inl (by decide)
      · have size : maxVideoBufferLen = 1000000 := rfl
        have offset : chIdOffset = 10 := rfl
        have header : frameHeaderLen = 20 := rfl
        dsimp only
        rw [UInt32.toNat_ofNat_of_lt' (by rw [UInt32.size]; omega)]
        omega
  | copy pc below at_ other source =>
      refine ⟨fun _ => ?_, fun _ => marked.sized (by rw [pc]; rfl), nofun, nofun⟩
      exact NamesChannel.store held stored (fun _ => marked.source (by rw [pc]; rfl)) fun same =>
        absurd same.symm other
  | @patch i ch pc at_ =>
      have named := Int.ofNat.inj at_
      subst named
      have writes : ∀ target, p.NamesChannel target ∨ target = ch →
          ({ p with memory, video := { p.video with pc := .put ch } } : State).NamesChannel target := by
        intro target either
        apply NamesChannel.store held stored
        · rintro (differs | behind)
          · exact either.resolve_right differs
          · exact absurd behind (Nat.lt_irrefl _)
        · exact fun _ => .inr ⟨rfl, rfl⟩
      refine ⟨fun _ => writes _ (.inl (marked.source (by rw [pc]; rfl))),
        fun _ => marked.sized (by rw [pc]; rfl), fun j target put same => ?_, nofun⟩
      cases put
      exact writes target (.inr (Fin.ext (Int.ofNat.inj same).symm))

theorem Marked.video_step {chs : Int} {capacity : Option Nat} {p after : State} {act : Act}
    (marked : Marked p) (steps : VideoSteps chs capacity p act after) : Marked after := by
  cases steps with
  | leave pc quit =>
      refine ⟨nofun, nofun, nofun, fun i at_ => rfl⟩
  | enter pc quit => exact ⟨nofun, nofun, nofun, nofun⟩
  | store stores held stored => exact marked.store_step stores held stored
  | skip pc below source =>
      refine ⟨fun _ => marked.source (by rw [pc]; rfl), fun _ => marked.sized (by rw [pc]; rfl),
        fun j ch put same => ?_, nofun⟩
      cases put
      have at_ : ch = sourceChannel := Fin.ext ((Int.ofNat.inj same).symm.trans source)
      subst at_
      exact marked.source (by rw [pc]; rfl)
  | round pc ended => exact ⟨nofun, nofun, nofun, nofun⟩
  | put target puts =>
      cases target with
      | frame pc at_ =>
          exact ⟨fun _ => marked.source (by rw [pc]; rfl), fun _ => marked.sized (by rw [pc]; rfl),
            nofun, nofun⟩
      | @flush i g pc below at_ =>
          exact ⟨nofun, nofun, nofun, fun _ _ => marked.flush i pc⟩
  | flushed pc ended => exact ⟨nofun, nofun, nofun, nofun⟩

theorem Marked.step {chs : Int} {capacity : Option Nat} {p after : State} {event : Mover × Act}
    (marked : Marked p) (steps : Steps chs capacity p event after) : Marked after := by
  cases steps with
  | video steps => exact marked.video_step steps
  | reader below steps => cases steps <;> exact marked.congr rfl rfl
  | session steps => cases steps <;> exact marked.congr rfl rfl
  | main => exact marked.congr rfl rfl

/-- The header of an element that is put names the channel of the element. -/
theorem Marked.put_header {chs : Int} {p : State} {g : Fin maxGroupNum} {e : SessionElement}
    {pc : VideoPc} (marked : Marked p) (target : PutsTo chs p g e pc) :
    e.command = cmdSessionFlush ∨ (p.bytes e)[chIdOffset]? = some e.chId := by
  cases target with
  | @frame i _ pc at_ =>
      right
      have below : i < maxVideoChannel := by
        have group : i / 4 = g := Int.ofNat.inj at_
        have bound : g.val < 8 := g.isLt
        have channels : maxVideoChannel = 32 := rfl
        omega
      obtain ⟨b, held, named⟩ := marked.own i ⟨i, below⟩ pc rfl
      have bytes := bytes_at held p.video.elt.len.toNat
      dsimp only [State.bytes]
      rw [bytes, take_getElem? b (marked.sized (by rw [pc]; rfl)), named]
  | flush pc below at_ => exact .inl (marked.flush _ pc)

/-- What is known of the elements put and sent. -/
structure Headed (history : History) : Prop where
  put : ∀ g, ∀ put ∈ log (Act.put? g) history,
    put.1.command = cmdSessionFlush ∨ put.2[chIdOffset]? = some put.1.chId
  sent : ∀ g, ∀ sent ∈ log (Act.sent? g) history, sent.1.command ≠ cmdSessionFlush

/-- A step that puts and sends nothing. -/
theorem Headed.quiet {history : History} {event : Mover × Act} (headed : Headed history)
    (put : ∀ g, event.2.put? g = none) (sent : ∀ g, event.2.sent? g = none) :
    Headed (event :: history) := by
  refine ⟨fun g => ?_, fun g => ?_⟩
  · rw [log_none (put g)]
    exact headed.put g
  · rw [log_none (sent g)]
    exact headed.sent g

theorem Headed.step {chs : Int} {capacity : Option Nat} {history : History} {p after : State}
    {event : Mover × Act} (headed : Headed history) (marked : Marked p)
    (steps : Steps chs capacity p event after) : Headed (event :: history) := by
  cases steps with
  | video steps =>
      cases steps with
      | leave => exact headed.quiet (fun _ => rfl) fun _ => rfl
      | enter => exact headed.quiet (fun _ => rfl) fun _ => rfl
      | store => exact headed.quiet (fun _ => rfl) fun _ => rfl
      | skip => exact headed.quiet (fun _ => rfl) fun _ => rfl
      | round => exact headed.quiet (fun _ => rfl) fun _ => rfl
      | flushed => exact headed.quiet (fun _ => rfl) fun _ => rfl
      | @put h elt pc ok f target puts =>
          cases ok with
          | false => exact headed.quiet (fun _ => rfl) fun _ => rfl
          | true =>
              refine ⟨fun g => ?_, fun g => ?_⟩
              · by_cases here : h = g
                · have picked : (Act.puts h elt (p.bytes elt)).put? g = some (elt, p.bytes elt) :=
                    if_pos here
                  rw [if_pos rfl, log_some picked]
                  intro put member
                  rcases List.mem_append.mp member with before | now
                  · exact headed.put g put before
                  · rw [List.mem_singleton.mp now]
                    exact marked.put_header target
                · have nothing : (Act.puts h elt (p.bytes elt)).put? g = none := if_neg here
                  rw [if_pos rfl, log_none nothing]
                  exact headed.put g
              · rw [if_pos rfl, log_none rfl]
                exact headed.sent g
  | reader below steps =>
      cases steps with
      | leave => exact headed.quiet (fun _ => rfl) fun _ => rfl
      | enter => exact headed.quiet (fun _ => rfl) fun _ => rfl
      | get => exact headed.quiet (fun _ => rfl) fun _ => rfl
      | fail => exact headed.quiet (fun _ => rfl) fun _ => rfl
      | flush => exact headed.quiet (fun _ => rfl) fun _ => rfl
      | @send e at_ command =>
          rename_i h
          refine ⟨fun g => ?_, fun g => ?_⟩
          · rw [log_none rfl]
            exact headed.put g
          · by_cases here : h = g
            · have picked : (Act.sends h e (p.bytes e)).sent? g = some (e, p.bytes e) := if_pos here
              rw [log_some picked]
              intro sent member
              rcases List.mem_append.mp member with before | now
              · exact headed.sent g sent before
              · rw [List.mem_singleton.mp now]
                exact command
            · have nothing : (Act.sends h e (p.bytes e)).sent? g = none := if_neg here
              rw [log_none nothing]
              exact headed.sent g
  | session steps => cases steps <;> exact headed.quiet (fun _ => rfl) fun _ => rfl
  | main => exact headed.quiet (fun _ => rfl) fun _ => rfl

/-! ## Every run -/

theorem Started.marked {p : State} (started : Started p) : Marked p := by
  refine ⟨fun past => ?_, fun past => ?_, fun i ch pc => ?_, fun i pc => ?_⟩
  · rw [started.video] at past
    cases past
  · rw [started.video] at past
    cases past
  · rw [started.video] at pc
    cases pc
  · rw [started.video] at pc
    cases pc

theorem Started.keptAt {p : State} (started : Started p) (g : Fin maxGroupNum) : KeptAt g [] p := by
  refine ⟨[], rfl, fun _ => ?_⟩
  rw [State.unsent, started.readers, started.fifos]
  rfl

theorem frames_keep_their_contents {chs : Int} {capacity : Option Nat} {start p : State}
    {history : History} (started : Started start)
    (run : Run (Guarded KeepsUnsent (ExecStep (pipelineExec chs capacity))) start history p) :
    ContentsKept history := by
  have held : Marked p ∧ Headed history ∧ ∀ g, KeptAt g history p := by
    apply run.invariant fun history p => Marked p ∧ Headed history ∧ ∀ g, KeptAt g history p
    · exact ⟨started.marked, ⟨fun _ => nofun, fun _ => nofun⟩, started.keptAt⟩
    · rintro history p event after _ ⟨marked, headed, kept⟩ ⟨keeps, step⟩
      have steps := pipelineExec_cases step
      exact ⟨marked.step steps, headed.step marked steps, fun g => (kept g).step keeps steps⟩
  obtain ⟨_, headed, kept⟩ := held
  intro g
  obtain ⟨rest, split, _⟩ := kept g
  refine ⟨⟨rest, split.symm⟩, fun sent member => ?_⟩
  have put : sent ∈ log (Act.put? g) history := by
    rw [split]
    exact List.mem_append_left _ member
  exact (headed.put g sent put).resolve_left (headed.sent g sent member)

/-- Four channels and a file of two frames. -/
def fourChannels : State := initial 4 (shortFrame 7 ++ shortFrame 9)

/-- The second frame is read after the four elements of the first were sent. -/
theorem frames_keep_their_contents_sent : ∃ result,
    execAll (checked KeepsUnsent (pipelineExec 4 none))
      (List.replicate 16 .video ++ List.replicate 12 (.reader 0) ++ List.replicate 5 .video)
        ([], fourChannels) = some result ∧ ContentsKept result.1 := by
  obtain ⟨result, executed⟩ := Option.isSome_iff_exists.mp
    (show (execAll (checked KeepsUnsent (pipelineExec 4 none))
      (List.replicate 16 .video ++ List.replicate 12 (.reader 0) ++ List.replicate 5 .video)
        ([], fourChannels)).isSome = true by decide)
  exact ⟨result, executed, frames_keep_their_contents (initial_started ..)
    ((execAll_run .nil executed).mono ExecStep.guarded)⟩

/-- The first element sent has other bytes than the first element put. -/
def firstChanged (g : Fin maxGroupNum) (history : History) : Bool :=
  match log (Act.sent? g) history, log (Act.put? g) history with
  | sent :: _, put :: _ => sent.2 != put.2
  | _, _ => false

theorem firstChanged_not_kept {g : Fin maxGroupNum} {history : History}
    (changed : firstChanged g history = true) : ¬ ContentsKept history := by
  intro kept
  unfold firstChanged at changed
  split at changed
  · rename_i sent sents put puts sent_eq put_eq
    have ordered := (kept g).1
    rw [sent_eq, put_eq, List.cons_prefix_cons] at ordered
    rw [ordered.1, bne_self_eq_false] at changed
    cases changed
  · cases changed

/-- The second frame is stored in the buffer of channel 0 before the first one has
been sent. -/
theorem frames_keep_contents_fails : ¬ ∀ (chs : Int) (capacity : Option Nat) (start p : State)
    (history : History), 0 < chs → chs ≤ maxVideoChannel → chs % chsPerSession = 0 → Started start →
      Run (ExecStep (pipelineExec chs capacity)) start history p → ContentsKept history := by
  intro claim
  have changed : ((execAll (pipelineExec 4 none)
      (List.replicate 21 .video ++ List.replicate 3 (.reader 0)) ([], fourChannels)).any
        fun (history, _) => firstChanged 0 history) = true := by
    decide
  obtain ⟨⟨history, p⟩, ran, changed⟩ := (Option.any_eq_true _ _).mp changed
  exact firstChanged_not_kept changed (claim 4 none fourChannels p history (by decide) (by decide)
    (by decide) (initial_started ..) (execAll_run .nil ran))

end DvsServer.Core.Pipeline
