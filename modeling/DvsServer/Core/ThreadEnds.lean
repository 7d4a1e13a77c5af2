import DvsServer.Core.Pipeline

/-!
# How the threads of the pipeline end

The video thread leaves its rounds on the quit flag and puts one flush element for
every group.  A sub-session thread leaves its loop on the quit flag or on that
element.  The session thread closes the FIFOs when all of them have.
-/

namespace DvsServer.Core.Pipeline

open DvsServer.Lib DvsServer.Com.RtpSend DvsServer.Core.Session DvsServer.Core.VideoEncode

/-! ## The video thread -/

/-- The video thread has seen the quit flag. -/
def VideoPc.flushing : VideoPc → Bool
  | .flush _ | .done => true
  | _ => false

/-- The video thread has put `CMD_SESSION_FLUSH` for group `g`. -/
def VideoPc.passed : VideoPc → Nat → Bool
  | .flush i, g => g < i
  | .done, _ => true
  | _, _ => false

theorem passed_flushing {pc : VideoPc} {g : Nat} (passed : pc.passed g = true) : pc.flushing = true := by
  cases pc with
  | flush i => rfl
  | done => rfl
  | _ => cases passed

structure VideoOk (chs : Int) (p : State) : Prop where
  inRound : ∀ i : Nat, p.video.pc = .patch i ∨ p.video.pc = .put i → (i : Int) < chs
  command : p.video.elt.command = if p.video.pc.flushing then cmdSessionFlush else cmdSessionBuffer
  quitting : p.video.pc.flushing = true → p.quit = true

/-- The video thread stays in its rounds. -/
theorem VideoOk.next {chs : Int} {p after : State} (ok : VideoOk chs p)
    (working : p.video.pc.flushing = false) (working' : after.video.pc.flushing = false)
    (command : after.video.elt.command = p.video.elt.command)
    (inRound : ∀ i : Nat, after.video.pc = .patch i ∨ after.video.pc = .put i → (i : Int) < chs) :
    VideoOk chs after := by
  refine ⟨inRound, ?_, fun flushing => ?_⟩
  · have before := ok.command
    rw [working] at before
    rw [command, working', before]
  · rw [working'] at flushing
    cases flushing

theorem VideoOk.video_step {chs : Int} {capacity : Option Nat} {p after : State} {act : Act}
    (ok : VideoOk chs p) (steps : VideoSteps chs capacity p act after) : VideoOk chs after := by
  have outside : ∀ {pc : VideoPc}, (∀ i, pc ≠ .patch i) → (∀ i, pc ≠ .put i) →
      ∀ i : Nat, pc = .patch i ∨ pc = .put i → (i : Int) < chs := fun patch put i either =>
    either.elim (fun here => absurd here (patch i)) fun here => absurd here (put i)
  cases steps with
  | leave pc quit => exact ⟨outside nofun nofun, rfl, fun _ => quit⟩
  | enter pc quit => exact ok.next (by rw [pc]; rfl) rfl rfl (outside nofun nofun)
  | store stores held stored =>
      cases stores with
      | fileEnd pc => exact ok.next (by rw [pc]; rfl) rfl rfl (outside nofun nofun)
      | header pc => exact ok.next (by rw [pc]; rfl) rfl rfl (outside nofun nofun)
      | mark pc => exact ok.next (by rw [pc]; rfl) rfl rfl (outside nofun nofun)
      | noFrame pc => exact ok.next (by rw [pc]; rfl) rfl rfl (outside nofun nofun)
      | frame pc some_ fits => exact ok.next (by rw [pc]; rfl) rfl rfl (outside nofun nofun)
      | @copy j ch b pc below at_ other source =>
          refine ok.next (by rw [pc]; rfl) rfl rfl fun i either => ?_
          cases either with
          | inl here =>
              cases here
              exact below
          | inr here => cases here
      | @patch j ch pc at_ =>
          refine ok.next (by rw [pc]; rfl) rfl rfl fun i either => ?_
          cases either with
          | inl here => cases here
          | inr here =>
              cases here
              exact ok.inRound j (.inl pc)
  | @skip j pc below source =>
      refine ok.next (by rw [pc]; rfl) rfl rfl fun i either => ?_
      cases either with
      | inl here => cases here
      | inr here =>
          cases here
          exact below
  | round pc ended => exact ok.next (by rw [pc]; rfl) rfl rfl (outside nofun nofun)
  | put target puts =>
      cases target with
      | frame pc at_ => exact ok.next (by rw [pc]; rfl) rfl rfl (outside nofun nofun)
      | flush pc below at_ =>
          refine ⟨outside nofun nofun, ?_, fun _ => ok.quitting (by rw [pc]; rfl)⟩
          have command := ok.command
          rw [pc] at command
          exact command
  | flushed pc ended =>
      refine ⟨outside nofun nofun, ?_, fun _ => ok.quitting (by rw [pc]; rfl)⟩
      have command := ok.command
      rw [pc] at command
      exact command

/-- The other threads leave the video thread alone and do not clear the quit flag. -/
theorem VideoOk.congr {chs : Int} {p after : State} (ok : VideoOk chs p)
    (video : after.video = p.video) (quit : p.quit = true → after.quit = true) : VideoOk chs after := by
  refine ⟨?_, ?_, ?_⟩
  · rw [video]
    exact ok.inRound
  · rw [video]
    exact ok.command
  · rw [video]
    exact fun flushing => quit (ok.quitting flushing)

theorem VideoOk.step {chs : Int} {capacity : Option Nat} {p after : State} {event : Mover × Act}
    (ok : VideoOk chs p) (steps : Steps chs capacity p event after) : VideoOk chs after := by
  cases steps with
  | video steps => exact ok.video_step steps
  | reader below steps => cases steps <;> exact ok.congr rfl id
  | session steps => cases steps <;> exact ok.congr rfl id
  | main => exact ok.congr rfl fun _ => rfl

/-! ## The session thread -/

structure JoinOk (chs : Int) (p : State) : Prop where
  joined : ∀ i, p.session = .join i → ∀ g : Fin maxGroupNum, g.val < i → p.readers g = .exited
  allLeft : (∀ i, p.session ≠ .join i) → ∀ g : Fin maxGroupNum, g.val < groups chs → p.readers g = .exited
  closed : ∀ g, (p.fifos g).closed = true → ∀ i, p.session ≠ .join i
  closing : ∀ g : Fin maxGroupNum, g.val < groups chs →
    p.session = .done ∨ (∃ i, p.session = .close i ∧ g.val < i) → (p.fifos g).closed = true

/-- A FIFO is closed only when every sub-session thread has left its loop. -/
theorem JoinOk.closed_exited {chs : Int} {p : State} (ok : JoinOk chs p) {g h : Fin maxGroupNum}
    (closed : (p.fifos g).closed = true) (below : h.val < groups chs) : p.readers h = .exited :=
  ok.allLeft (ok.closed g closed) h below

theorem JoinOk.congr {chs : Int} {p after : State} (ok : JoinOk chs p)
    (session : after.session = p.session)
    (readers : ∀ g, p.readers g = .exited → after.readers g = .exited)
    (closed : ∀ g, (after.fifos g).closed = (p.fifos g).closed) : JoinOk chs after := by
  refine ⟨?_, ?_, ?_, ?_⟩
  · rw [session]
    exact fun i at_ g before => readers g (ok.joined i at_ g before)
  · rw [session]
    exact fun past g below => readers g (ok.allLeft past g below)
  · rw [session]
    intro g
    rw [closed]
    exact ok.closed g
  · rw [session]
    intro g
    rw [closed]
    exact ok.closing g

theorem Started.joinOk {chs : Int} {p : State} (started : Started p) : JoinOk chs p := by
  refine ⟨fun i at_ g before => ?_, fun past => ?_, fun g closed => ?_, fun g _ either => ?_⟩
  · rw [started.session] at at_
    cases at_
    exact absurd before (Nat.not_lt_zero _)
  · exact absurd started.session (past 0)
  · rw [started.fifos] at closed
    cases closed
  · rw [started.session] at either
    rcases either with here | ⟨i, here, _⟩ <;> cases here

theorem ReaderSteps.exited {g h : Fin maxGroupNum} {p after : State} {act : Act}
    (steps : ReaderSteps g p act after) (exited : p.readers h = .exited) : after.readers h = .exited := by
  by_cases same : h = g
  · subst same
    -- a thread that has left its loop makes no step
    cases steps with
    | leave at_ => rw [at_] at exited; cases exited
    | enter at_ => rw [at_] at exited; cases exited
    | get at_ => rw [at_] at exited; cases exited
    | fail at_ => rw [at_] at exited; cases exited
    | flush at_ => rw [at_] at exited; cases exited
    | send at_ => rw [at_] at exited; cases exited
  · cases steps <;> exact (setReader_ne same _).trans exited

theorem ReaderSteps.closed {g : Fin maxGroupNum} {p after : State} {act : Act}
    (steps : ReaderSteps g p act after) (h : Fin maxGroupNum) :
    (after.fifos h).closed = (p.fifos h).closed := by
  cases steps with
  | get at_ open_ queue =>
      by_cases same : h = g
      · subst same
        dsimp only [State.setReader]
        rw [setFifo_self]
      · exact congrArg Fifo.closed (setFifo_ne same _)
  | _ => rfl

theorem VideoSteps.closed {chs : Int} {capacity : Option Nat} {p after : State} {act : Act}
    (steps : VideoSteps chs capacity p act after) (h : Fin maxGroupNum) :
    (after.fifos h).closed = (p.fifos h).closed := by
  cases steps with
  | @put g elt pc ok f target puts =>
      by_cases same : h = g
      · subst same
        cases puts with
        | closed closed => exact congrArg Fifo.closed (setFifo_self p h _)
        | put open_ room =>
            dsimp only
            rw [setFifo_self]
      · exact congrArg Fifo.closed (setFifo_ne same _)
  | _ => rfl

theorem VideoSteps.readers {chs : Int} {capacity : Option Nat} {p after : State} {act : Act}
    (steps : VideoSteps chs capacity p act after) : after.readers = p.readers := by
  cases steps <;> rfl

theorem JoinOk.session_step {chs : Int} {p after : State} {act : Act} (ok : JoinOk chs p)
    (steps : SessionSteps chs p act after) : JoinOk chs after := by
  cases steps with
  | @join i g at_ below group exited =>
      refine ⟨fun j here h before => ?_, fun past => absurd rfl (past (i + 1)), fun h closed => ?_,
        fun h _ either => ?_⟩
      · cases here
        by_cases same : h = g
        · rw [same]
          exact exited
        · have differs : h.val ≠ g.val := fun equal => same (Fin.ext equal)
          exact ok.joined i at_ h (by omega)
      · exact absurd at_ (ok.closed h closed i)
      · rcases either with here | ⟨j, here, _⟩ <;> cases here
  | @joined i at_ ended =>
      refine ⟨nofun, fun _ g below => ok.joined i at_ g (by omega), fun _ _ => nofun, fun h _ either => ?_⟩
      rcases either with here | ⟨j, here, _⟩ <;> cases here
  | delete at_ =>
      have past : ∀ i, p.session ≠ .join i := fun i here => by rw [at_] at here; cases here
      refine ⟨nofun, fun _ => ok.allLeft past, fun _ _ => nofun, fun h _ either => ?_⟩
      rcases either with here | ⟨j, here, before⟩
      · cases here
      · cases here
        exact absurd before (Nat.not_lt_zero _)
  | @close i g at_ below group =>
      have past : ∀ i, p.session ≠ .join i := fun i here => by rw [at_] at here; cases here
      refine ⟨nofun, fun _ => ok.allLeft past, fun _ _ => nofun, fun h inside either => ?_⟩
      rcases either with here | ⟨j, here, before⟩
      · cases here
      · cases here
        by_cases same : h = g
        · subst same
          exact congrArg Fifo.closed (setFifo_self p h _)
        · have differs : h.val ≠ g.val := fun equal => same (Fin.ext equal)
          have earlier := ok.closing h inside (.inr ⟨i, at_, by omega⟩)
          exact (congrArg Fifo.closed (setFifo_ne same _)).trans earlier
  | @closed i at_ ended =>
      have past : ∀ i, p.session ≠ .join i := fun i here => by rw [at_] at here; cases here
      refine ⟨nofun, fun _ => ok.allLeft past, fun _ _ => nofun, fun h inside _ => ?_⟩
      exact ok.closing h inside (.inr ⟨i, at_, by omega⟩)

theorem JoinOk.step {chs : Int} {capacity : Option Nat} {p after : State} {event : Mover × Act}
    (ok : JoinOk chs p) (steps : Steps chs capacity p event after) : JoinOk chs after := by
  cases steps with
  | video steps =>
      refine ok.congr ?_ (fun g exited => ?_) steps.closed
      · cases steps <;> rfl
      · rw [steps.readers]
        exact exited
  | reader below steps =>
      refine ok.congr ?_ (fun g => steps.exited) steps.closed
      cases steps <;> rfl
  | session steps => exact ok.session_step steps
  | main => exact ok.congr rfl (fun _ => id) fun _ => rfl

/-! ## The flush elements -/

/-- The element is queued for a group, or its thread has taken it. -/
def State.Holds (p : State) (g : Fin maxGroupNum) (e : SessionElement) : Prop :=
  p.readers g = .got e ∨ e ∈ (p.fifos g).queue

structure FlushOk (chs : Int) (n : Nat) (p : State) : Prop where
  passed : ∀ g e, p.Holds g e → e.command = cmdSessionFlush → p.video.pc.passed g = true
  waiting : ∀ g : Fin maxGroupNum, g.val < groups chs → p.video.pc.passed g = true →
    p.readers g ≠ .exited → ∃ e, p.Holds g e ∧ e.command = cmdSessionFlush
  bounded : ∀ g, (p.fifos g).queue.length ≤ n
  left : ∀ g, p.readers g = .exited → p.quit = true

/-- Nothing but the place of the video thread changes, and it passes no group. -/
theorem FlushOk.congr {chs : Int} {n : Nat} {p after : State} (ok : FlushOk chs n p)
    (readers : after.readers = p.readers) (queue : ∀ g, (after.fifos g).queue = (p.fifos g).queue)
    (passed : ∀ g, after.video.pc.passed g = true → p.video.pc.passed g = true ∨ groups chs ≤ g)
    (kept : ∀ g, p.video.pc.passed g = true → after.video.pc.passed g = true)
    (quit : p.quit = true → after.quit = true) : FlushOk chs n after := by
  have holds : ∀ g e, after.Holds g e ↔ p.Holds g e := by
    intro g e
    unfold State.Holds
    rw [readers, queue]
  refine ⟨fun g e held command => ?_, fun g below past running => ?_, fun g => ?_, fun g exited => ?_⟩
  · exact kept g (ok.passed g e ((holds g e).mp held) command)
  · have before := (passed g past).resolve_right (Nat.not_le.mpr below)
    rw [readers] at running
    obtain ⟨e, held, command⟩ := ok.waiting g below before running
    exact ⟨e, (holds g e).mpr held, command⟩
  · rw [queue]
    exact ok.bounded g
  · rw [readers] at exited
    exact quit (ok.left g exited)

/-- A step from one place where no group is passed to another. -/
theorem FlushOk.goto {chs : Int} {n : Nat} {p after : State} (ok : FlushOk chs n p)
    (readers : after.readers = p.readers) (fifos : after.fifos = p.fifos) (quit : after.quit = p.quit)
    (before : ∀ g, p.video.pc.passed g = false) (now : ∀ g, after.video.pc.passed g = false) :
    FlushOk chs n after := by
  refine ok.congr readers (fun g => by rw [fifos]) (fun g past => ?_) (fun g past => ?_) ?_
  · rw [now] at past
    cases past
  · rw [before] at past
    cases past
  · rw [quit]
    exact id

/-- The video thread does not put to a FIFO it has put the flush element to. -/
theorem PutsTo.not_passed {chs : Int} {p : State} {g : Fin maxGroupNum} {e : SessionElement}
    {pc : VideoPc} (target : PutsTo chs p g e pc) : p.video.pc.passed g = false := by
  cases target with
  | frame at_ =>
      rw [at_]
      rfl
  | flush at_ below group =>
      rw [at_]
      exact decide_eq_false (by omega)

theorem PutsTo.passed_kept {chs : Int} {p : State} {g : Fin maxGroupNum} {e : SessionElement}
    {pc : VideoPc} (target : PutsTo chs p g e pc) {h : Nat} (past : p.video.pc.passed h = true) :
    pc.passed h = true := by
  cases target with
  | frame at_ =>
      rw [at_] at past
      cases past
  | flush at_ below group =>
      rw [at_] at past
      have before := of_decide_eq_true past
      exact decide_eq_true (Nat.lt_succ_of_lt before)

/-- A group is passed by putting the flush element to it. -/
theorem PutsTo.passed_new {chs : Int} {p : State} {g : Fin maxGroupNum} {e : SessionElement}
    {pc : VideoPc} (target : PutsTo chs p g e pc) (video : VideoOk chs p) {h : Nat}
    (past : pc.passed h = true) :
    p.video.pc.passed h = true ∨ h = g ∧ e.command = cmdSessionFlush := by
  have set := video.command
  cases target with
  | frame at_ => cases past
  | @flush i _ at_ below group =>
      rw [at_] at set
      have until_ : h < i + 1 := of_decide_eq_true past
      by_cases here : h = g
      · exact .inr ⟨here, set⟩
      · rw [at_]
        exact .inl (decide_eq_true (by omega))

theorem PutsTo.flushes {chs : Int} {p : State} {g : Fin maxGroupNum} {e : SessionElement}
    {pc : VideoPc} (target : PutsTo chs p g e pc) (video : VideoOk chs p)
    (command : e.command = cmdSessionFlush) : pc.passed g = true := by
  have set := video.command
  cases target with
  | frame at_ =>
      rw [at_] at set
      change p.video.elt.command = cmdSessionBuffer at set
      exact absurd (set.symm.trans command) (by decide)
  | flush at_ below group => exact decide_eq_true (by omega)

theorem FlushOk.put_step {chs : Int} {n : Nat} {p : State} {g : Fin maxGroupNum} {e : SessionElement}
    {pc : VideoPc} {ok : Bool} {f : Fifo SessionElement} (flush : FlushOk chs n p)
    (video : VideoOk chs p) (join : JoinOk chs p) (target : PutsTo chs p g e pc)
    (puts : Fifo.Puts (some n) (p.fifos g) e ok f) :
    FlushOk chs n { p.setFifo g f with video := ⟨pc, e⟩ } := by
  cases puts with
  | closed closed =>
      -- all sub-session threads have left their loops
      have same : ∀ h, ((p.setFifo g (p.fifos g)).fifos h) = p.fifos h := fun h => by
        rw [State.setFifo, Function.update_eq_self]
      refine ⟨fun h e' held command => ?_, fun h below _ running => ?_, fun h => ?_, flush.left⟩
      · refine target.passed_kept (flush.passed h e' (held.imp id fun queued => ?_) command)
        rw [← same h]
        exact queued
      · exact absurd (join.closed_exited closed below) running
      · dsimp only
        rw [same h]
        exact flush.bounded h
  | put open_ room =>
      have queue_g : (p.setFifo g ⟨(p.fifos g).queue ++ [e], (p.fifos g).closed⟩).fifos g =
          ⟨(p.fifos g).queue ++ [e], (p.fifos g).closed⟩ := setFifo_self ..
      have has_room : (p.fifos g).queue.length < n := by
        simp only [Fifo.full, decide_eq_false_iff_not, Nat.not_le] at room
        exact room
      refine ⟨fun h e' held command => ?_, fun h below past running => ?_, fun h => ?_, flush.left⟩
      · by_cases same : h = g
        · subst same
          rcases held with taken | queued
          · exact target.passed_kept (flush.passed h e' (.inl taken) command)
          · dsimp only at queued
            rw [queue_g] at queued
            rcases List.mem_append.mp queued with before | now
            · exact target.passed_kept (flush.passed h e' (.inr before) command)
            · rw [List.mem_singleton.mp now] at command
              exact target.flushes video command
        · refine target.passed_kept (flush.passed h e' (held.imp id fun queued => ?_) command)
          rw [← setFifo_ne same]
          exact queued
      · rcases target.passed_new video past with before | ⟨here, command⟩
        · have same : h ≠ g := by
            rintro rfl
            rw [target.not_passed] at before
            cases before
          obtain ⟨e', held, command⟩ := flush.waiting h below before running
          refine ⟨e', held.imp id fun queued => ?_, command⟩
          dsimp only
          rw [setFifo_ne same]
          exact queued
        · refine ⟨e, .inr ?_, command⟩
          dsimp only
          rw [Fin.ext here, queue_g]
          exact List.mem_append_right _ (List.mem_singleton_self e)
      · dsimp only
        by_cases same : h = g
        · subst same
          rw [queue_g, List.length_append]
          exact has_room
        · rw [setFifo_ne same]
          exact flush.bounded h

theorem FlushOk.video_step {chs : Int} {n : Nat} {p after : State} {act : Act} (ok : FlushOk chs n p)
    (video : VideoOk chs p) (join : JoinOk chs p)
    (steps : VideoSteps chs (some n) p act after) : FlushOk chs n after := by
  cases steps with
  | leave pc quit =>
      refine ok.goto rfl rfl rfl (fun g => by rw [pc]; rfl) fun g => ?_
      exact decide_eq_false (Nat.not_lt_zero g)
  | enter pc quit => exact ok.goto rfl rfl rfl (fun g => by rw [pc]; rfl) fun g => rfl
  | store stores held stored =>
      cases stores with
      | fileEnd pc => exact ok.goto rfl rfl rfl (fun g => by rw [pc]; rfl) fun g => rfl
      | header pc => exact ok.goto rfl rfl rfl (fun g => by rw [pc]; rfl) fun g => rfl
      | mark pc => exact ok.goto rfl rfl rfl (fun g => by rw [pc]; rfl) fun g => rfl
      | noFrame pc => exact ok.goto rfl rfl rfl (fun g => by rw [pc]; rfl) fun g => rfl
      | frame pc => exact ok.goto rfl rfl rfl (fun g => by rw [pc]; rfl) fun g => rfl
      | copy pc => exact ok.goto rfl rfl rfl (fun g => by rw [pc]; rfl) fun g => rfl
      | patch pc => exact ok.goto rfl rfl rfl (fun g => by rw [pc]; rfl) fun g => rfl
  | skip pc => exact ok.goto rfl rfl rfl (fun g => by rw [pc]; rfl) fun g => rfl
  | round pc => exact ok.goto rfl rfl rfl (fun g => by rw [pc]; rfl) fun g => rfl
  | put target puts => exact ok.put_step video join target puts
  | @flushed i pc ended =>
      refine ok.congr rfl (fun _ => rfl) (fun g _ => ?_) (fun _ _ => rfl) id
      rw [pc]
      by_cases before : g < i
      · exact .inl (decide_eq_true before)
      · exact .inr (by omega)

/-- A step that takes nothing from the queue, and after which the thread has no element. -/
theorem FlushOk.move_reader {chs : Int} {n : Nat} {p : State} {g : Fin maxGroupNum} {reader : Reader}
    (ok : FlushOk chs n p) (empty : ∀ e, reader ≠ .got e) (exits : reader = .exited → p.quit = true)
    (runs : reader ≠ .exited → p.readers g ≠ .exited ∧
      ∀ e, p.readers g = .got e → e.command ≠ cmdSessionFlush) : FlushOk chs n (p.setReader g reader) := by
  refine ⟨fun h e held command => ?_, fun h inside past running => ?_, ok.bounded, fun h exited => ?_⟩
  · by_cases same : h = g
    · subst same
      rcases held with taken | queued
      · rw [setReader_self] at taken
        exact absurd taken (empty e)
      · exact ok.passed h e (.inr queued) command
    · rw [State.Holds, setReader_ne same] at held
      exact ok.passed h e held command
  · by_cases same : h = g
    · subst same
      rw [setReader_self] at running
      obtain ⟨before, plain⟩ := runs running
      obtain ⟨e, held, command⟩ := ok.waiting h inside past before
      rcases held with taken | queued
      · exact absurd command (plain e taken)
      · exact ⟨e, .inr queued, command⟩
    · rw [setReader_ne same] at running
      obtain ⟨e, held, command⟩ := ok.waiting h inside past running
      refine ⟨e, ?_, command⟩
      rw [State.Holds, setReader_ne same]
      exact held
  · by_cases same : h = g
    · subst same
      rw [setReader_self] at exited
      exact exits exited
    · rw [setReader_ne same] at exited
      exact ok.left h exited

/-- A thread takes the element at the head of its queue. -/
theorem FlushOk.get_step {chs : Int} {n : Nat} {p : State} {g : Fin maxGroupNum} {e : SessionElement}
    {rest : List SessionElement} (ok : FlushOk chs n p) (at_ : p.readers g = .get)
    (queue : (p.fifos g).queue = e :: rest) :
    FlushOk chs n ((p.setFifo g ⟨rest, (p.fifos g).closed⟩).setReader g (.got e)) := by
  have queue_g : (p.setFifo g ⟨rest, (p.fifos g).closed⟩).fifos g = ⟨rest, (p.fifos g).closed⟩ :=
    setFifo_self ..
  have holds : ∀ h e', ((p.setFifo g ⟨rest, (p.fifos g).closed⟩).setReader g (.got e)).Holds h e' ↔
      p.Holds h e' := by
    intro h e'
    by_cases same : h = g
    · subst same
      unfold State.Holds
      rw [setReader_self, at_, queue]
      dsimp only [State.setReader]
      rw [queue_g, List.mem_cons]
      simp only [Reader.got.injEq, reduceCtorEq, false_or, eq_comm]
    · unfold State.Holds
      rw [setReader_ne same]
      dsimp only [State.setReader]
      rw [setFifo_ne same]
      rfl
  refine ⟨fun h e' held => ok.passed h e' ((holds h e').mp held), fun h inside past running => ?_,
    fun h => ?_, fun h exited => ?_⟩
  · have before : p.readers h ≠ .exited := by
      by_cases same : h = g
      · rw [same, at_]
        exact nofun
      · rw [setReader_ne same] at running
        exact running
    obtain ⟨e', held, command⟩ := ok.waiting h inside past before
    exact ⟨e', (holds h e').mpr held, command⟩
  · have bound := ok.bounded h
    by_cases same : h = g
    · subst same
      dsimp only [State.setReader]
      rw [queue, List.length_cons] at bound
      rw [queue_g]
      exact Nat.le_of_succ_le bound
    · dsimp only [State.setReader]
      rw [setFifo_ne same]
      exact bound
  · by_cases same : h = g
    · rw [same, setReader_self] at exited
      cases exited
    · rw [setReader_ne same] at exited
      exact ok.left h exited

theorem FlushOk.reader_step {chs : Int} {n : Nat} {p after : State} {g : Fin maxGroupNum} {act : Act}
    (ok : FlushOk chs n p) (video : VideoOk chs p) (join : JoinOk chs p) (below : g.val < groups chs)
    (steps : ReaderSteps g p act after) : FlushOk chs n after := by
  cases steps with
  | leave at_ quit => exact ok.move_reader nofun (fun _ => quit) fun running => absurd rfl running
  | enter at_ quit =>
      refine ok.move_reader nofun nofun fun _ => ⟨by rw [at_]; exact nofun, fun e taken => ?_⟩
      rw [at_] at taken
      cases taken
  | fail at_ closed =>
      have exited := join.closed_exited closed below
      rw [at_] at exited
      cases exited
  | flush at_ command =>
      have past := ok.passed g _ (.inl at_) command
      exact ok.move_reader nofun (fun _ => video.quitting (passed_flushing past)) fun running => absurd rfl running
  | send at_ command =>
      refine ok.move_reader nofun nofun fun _ => ⟨by rw [at_]; exact nofun, fun e taken => ?_⟩
      rw [at_] at taken
      cases taken
      exact command
  | get at_ open_ queue => exact ok.get_step at_ queue

theorem FlushOk.step {chs : Int} {n : Nat} {p after : State} {event : Mover × Act}
    (ok : FlushOk chs n p) (video : VideoOk chs p) (join : JoinOk chs p)
    (steps : Steps chs (some n) p event after) : FlushOk chs n after := by
  cases steps with
  | video steps => exact ok.video_step video join steps
  | reader below steps => exact ok.reader_step video join below steps
  | session steps =>
      cases steps with
      | @close i g at_ below group =>
          refine ok.congr rfl (fun h => ?_) (fun _ past => .inl past) (fun _ past => past) id
          by_cases same : h = g
          · subst same
            dsimp only
            rw [setFifo_self]
          · exact congrArg Fifo.queue (setFifo_ne same _)
      | _ => exact ok.congr rfl (fun _ => rfl) (fun _ past => .inl past) (fun _ past => past) id
  | main => exact ok.congr rfl (fun _ => rfl) (fun _ past => .inl past) (fun _ past => past) fun _ => rfl

end DvsServer.Core.Pipeline
