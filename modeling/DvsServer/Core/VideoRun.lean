import DvsServer.Core.Pipeline
import DvsServer.Core.Replay

/-!
# The video thread of the pipeline runs the encoder's iterations

What is left of an iteration of `videoEncodeThrFxn` is the same before and after
each step of the video thread, up to the element the step puts, and no other
thread touches it.  So in every interleaving the elements in the FIFOs come from
the iterations of the thread alone.
-/

namespace DvsServer.Core.Pipeline

open DvsServer.Lib DvsServer.Com.RtpSend DvsServer.Core.Session DvsServer.Core.VideoEncode
open DvsServer.Core.Encoder

/-! ## What is left of an iteration -/

/-- The video thread's part of the state. -/
def State.thr (p : State) : VideoThr := ⟨p.memory, p.video.elt⟩

/-- From the second `fread` of `readEncodedFrameInFile` on. -/
def frameRest (chs : Int) (s : VideoThr) : Option (List Put × VideoThr) :=
  (s.memory.buf sourceChannel).bind fun b =>
    (s.memory.fread sourceChannel frameHeaderLen (payloadSize b)).bind fun (data, memory) =>
      if data = [] then some ([], { s with memory })
      else putFrames chs.toNat 0 ⟨memory, withLen s.elt data.length⟩

/-- From the store behind the first `fread` on. -/
def markRest (chs : Int) (s : VideoThr) : Option (List Put × VideoThr) :=
  (s.memory.write sourceChannel chIdOffset [UInt8.ofNat sourceChannel]).bind fun memory =>
    frameRest chs { s with memory }

/-- From the call of `FifoUtil_put` for channel `i` on. -/
def putRest (chs : Int) (i : Nat) (s : VideoThr) : Option (List Put × VideoThr) :=
  (index? maxGroupNum (i / chsPerSession : Nat)).bind fun g =>
    let elt := { s.elt with chId := UInt8.ofNat i, buffer := i }
    (putFrames (chs.toNat - (i + 1)) (i + 1) ⟨s.memory, elt⟩).map fun (puts, last) =>
      (⟨g, elt, s.memory.bytes i elt.len.toNat⟩ :: puts, last)

/-- From the store in the copied header on. -/
def patchRest (chs : Int) (i : Nat) (s : VideoThr) : Option (List Put × VideoThr) :=
  (index? maxVideoChannel i).bind fun ch =>
    (s.memory.write ch chIdOffset [UInt8.ofNat i]).bind fun memory => putRest chs i { s with memory }

/-- What the thread puts up to the end of its iteration, with the thread as the loop
leaves it. -/
def VideoPc.remaining (chs : Int) : VideoPc → VideoThr → Option (List Put × VideoThr)
  | .head, s => some ([], s)
  | .header, s => iteration chs s
  | .mark, s => markRest chs s
  | .frame, s => frameRest chs s
  | .copy i, s => putFrames (chs.toNat - i) i s
  | .patch i, s => patchRest chs i s
  | .put i, s => putRest chs i s
  | .flush _, s | .done, s => some ([], { s with elt := { s.elt with command := cmdSessionBuffer } })

theorem iteration_split (chs : Int) (s : VideoThr) :
    iteration chs s =
      (s.memory.fread sourceChannel 0 frameHeaderLen).bind fun (header, memory) =>
        if header = [] then some ([], { s with memory := memory.rewind sourceChannel })
        else markRest chs { s with memory } := by
  rw [iteration, readEncodedFrameInFile, readHeader]
  cases s.memory.fread sourceChannel 0 frameHeaderLen with
  | none => rfl
  | some read =>
      obtain ⟨header, memory⟩ := read
      simp only [Option.bind_some]
      by_cases ended : header = []
      · rw [if_pos ended, if_pos ended]
        rfl
      · rw [if_neg ended, if_neg ended, markRest]
        dsimp only
        cases memory.write sourceChannel chIdOffset [UInt8.ofNat sourceChannel] with
        | none => rfl
        | some marked =>
            simp only [Option.bind_some, frameRest]
            cases marked.buf sourceChannel with
            | none => rfl
            | some b =>
                simp only [Option.map_some, Option.bind_some, Option.elim_some]
                cases marked.fread sourceChannel frameHeaderLen (payloadSize b) with
                | none => rfl
                | some got =>
                    obtain ⟨data, after⟩ := got
                    simp only [Option.map_some, Option.bind_some]
                    cases data with
                    | nil => rfl
                    | cons first rest =>
                        have more : ¬ ((first :: rest).length : Int) ≤ 0 := by
                          rw [List.length_cons]
                          omega
                        rw [if_neg more, if_neg (List.cons_ne_nil _ _), withLen, Int.toNat_natCast]

/-- The loop before channel `i`. -/
theorem putFrames_split {chs : Int} {i : Nat} (below : i < chs) (s : VideoThr) :
    putFrames (chs.toNat - i) i s =
      (index? maxVideoChannel i).bind fun ch =>
        if ch = sourceChannel then putRest chs i s
        else
          (s.memory.buf sourceChannel).bind fun b =>
            (s.memory.write ch 0 (b.take s.elt.len.toNat)).bind fun memory =>
              patchRest chs i { s with memory } := by
  have left : chs.toNat - i = chs.toNat - (i + 1) + 1 := by omega
  rw [left, putFrames, copyFrame]
  cases found : index? maxVideoChannel i with
  | none => rfl
  | some ch =>
      simp only [Option.bind_some]
      by_cases source : ch = sourceChannel
      · rw [if_pos source, if_pos source, Option.bind_some, putRest]
      · rw [if_neg source, if_neg source]
        cases s.memory.buf sourceChannel with
        | none => rfl
        | some b =>
            simp only [Option.bind_some]
            cases s.memory.write ch 0 (b.take s.elt.len.toNat) with
            | none => rfl
            | some copied =>
                simp only [Option.bind_some, patchRest, found]
                rfl

/-! ## One step -/

/-- The put of a frame, as the encoder's model lists it. -/
def Act.framePut? : Act → Option Put
  | .puts g e bytes => if e.command = cmdSessionFlush then none else some ⟨g, e, bytes⟩
  | _ => none

/-- The frames put, in the order of the puts. -/
def framePuts (history : History) : List Put :=
  (history.filterMap fun event => event.2.framePut?).reverse

/-- Puts before those that are left. -/
def emitting (puts : List Put) (rest : Option (List Put × VideoThr)) : Option (List Put × VideoThr) :=
  rest.map fun (more, last) => (puts ++ more, last)

/-- What `s_elt.command` is at a place. -/
def VideoPc.command : VideoPc → Int
  | .flush _ | .done => cmdSessionFlush
  | _ => cmdSessionBuffer

theorem framePuts_cons (event : Mover × Act) (history : History) :
    framePuts (event :: history) = framePuts history ++ event.2.framePut?.toList := by
  cases picked : event.2.framePut? with
  | none => simp [framePuts, picked]
  | some put => simp [framePuts, picked]

@[simp] theorem emitting_nil (rest : Option (List Put × VideoThr)) : emitting [] rest = rest := by
  cases rest <;> rfl

theorem emitting_append (first second : List Put) (rest : Option (List Put × VideoThr)) :
    emitting first (emitting second rest) = emitting (first ++ second) rest := by
  cases rest with
  | none => rfl
  | some left => simp [emitting]

/-- How a step of the video thread changes what is left. -/
inductive Advances (chs : Int) (p : State) (act : Act) (after : State) : Prop where
  | begins (head : p.video.pc = .head) (next : after.video.pc = .header) (thr : after.thr = p.thr)
      (quiet : act = .quiet)
  /-- `attempted` is what the step gave to `FifoUtil_put` -/
  | goesOn (attempted : List Put) (made : act.framePut?.toList.Sublist attempted)
      (all : (∀ g, act ≠ .putFails g) → act.framePut?.toList = attempted)
      (rest : p.video.pc.remaining chs p.thr =
        emitting attempted (after.video.pc.remaining chs after.thr))

theorem Advances.silent {chs : Int} {p after : State} {act : Act} (nothing : act.framePut? = none)
    (rest : p.video.pc.remaining chs p.thr = after.video.pc.remaining chs after.thr) :
    Advances chs p act after := by
  apply Advances.goesOn []
  · rw [nothing]
    exact List.Sublist.refl _
  · intro _
    rw [nothing]
    rfl
  · rw [emitting_nil]
    exact rest

/-- A put of a frame. -/
theorem putStep_advances {chs : Int} {capacity : Option Nat} {p after : State} {act : Act} {i : Nat}
    {g : Fin maxGroupNum} (pc : p.video.pc = .put i)
    (group : index? maxGroupNum (i / chsPerSession : Nat) = some g)
    (command : p.video.elt.command = cmdSessionBuffer)
    (step : putStep capacity p g { p.video.elt with chId := UInt8.ofNat i, buffer := i }
      (.copy (i + 1)) = .next (act, after)) : Advances chs p act after := by
  unfold putStep at step
  split at step
  · cases step
  · cases step
  · rename_i ok f done
    cases step
    apply Advances.goesOn [⟨g, { p.video.elt with chId := UInt8.ofNat i, buffer := i },
      p.bytes { p.video.elt with chId := UInt8.ofNat i, buffer := i }⟩]
    · cases ok with
      | false => exact List.nil_sublist _
      | true =>
          simp only [if_true, Act.framePut?, command]
          exact List.Sublist.refl _
    · intro works
      cases ok with
      | false => exact absurd rfl (works g)
      | true =>
          simp only [if_true, Act.framePut?, command]
          rfl
    · rw [pc]
      change putRest chs i p.thr = _
      unfold putRest
      rw [group, Option.bind_some]
      rfl

/-- The elements with `CMD_SESSION_FLUSH` are no frames. -/
theorem flushStep_advances {chs : Int} {capacity : Option Nat} {p after : State} {act : Act} {i : Nat}
    {g : Fin maxGroupNum} (pc : p.video.pc = .flush i)
    (command : p.video.elt.command = cmdSessionFlush)
    (step : putStep capacity p g p.video.elt (.flush (i + 1)) = .next (act, after)) :
    Advances chs p act after := by
  unfold putStep at step
  split at step
  · cases step
  · cases step
  · rename_i ok f done
    cases step
    apply Advances.silent
    · cases ok with
      | false => rfl
      | true =>
          simp only [if_true, Act.framePut?, command]
    · rw [pc]
      rfl

section

variable {chs : Int} {capacity : Option Nat} {p after : State} {act : Act}

/-- Either the iteration begins or the loop is left. -/
theorem head_advances (pc : p.video.pc = .head) (command : p.video.elt.command = cmdSessionBuffer)
    (step : videoStep chs capacity p = .next (act, after)) : Advances chs p act after := by
  unfold videoStep at step
  rw [pc] at step
  dsimp only at step
  split at step
  · cases step
    apply Advances.silent rfl
    rw [pc]
    change some ([], p.thr) = some ([], { p.thr with
      elt := { p.video.elt with command := cmdSessionBuffer } })
    rw [← command]
    rfl
  · cases step
    exact .begins pc rfl rfl rfl

theorem header_advances (pc : p.video.pc = .header)
    (step : videoStep chs capacity p = .next (act, after)) : Advances chs p act after := by
  unfold videoStep at step
  rw [pc] at step
  dsimp only at step
  have split_ := iteration_split chs p.thr
  split at step
  · cases step
  · rename_i data memory read
    change p.thr.memory.fread sourceChannel 0 frameHeaderLen = some (data, memory) at read
    rw [read, Option.bind_some] at split_
    cases step
    apply Advances.silent rfl
    rw [pc]
    change iteration chs p.thr = _
    rw [split_]
    dsimp only
    by_cases ended : data = []
    · rw [if_pos ended, if_pos ended]
      rfl
    · rw [if_neg ended, if_neg ended]
      rfl

theorem mark_advances (pc : p.video.pc = .mark)
    (step : videoStep chs capacity p = .next (act, after)) : Advances chs p act after := by
  unfold videoStep at step
  rw [pc] at step
  dsimp only at step
  split at step
  · cases step
  · rename_i memory wrote
    cases step
    apply Advances.silent rfl
    rw [pc]
    change markRest chs p.thr = _
    unfold markRest
    change p.thr.memory.write sourceChannel chIdOffset _ = some memory at wrote
    rw [wrote, Option.bind_some]
    rfl

theorem frame_advances (pc : p.video.pc = .frame)
    (step : videoStep chs capacity p = .next (act, after)) : Advances chs p act after := by
  unfold videoStep at step
  rw [pc] at step
  dsimp only at step
  split at step
  · cases step
  · rename_i b held
    split at step
    · cases step
    · rename_i data memory read
      cases step
      apply Advances.silent rfl
      rw [pc]
      change frameRest chs p.thr = _
      unfold frameRest
      change p.thr.memory.buf sourceChannel = some b at held
      change p.thr.memory.fread sourceChannel frameHeaderLen (payloadSize b) =
        some (data, memory) at read
      rw [held, Option.bind_some, read, Option.bind_some]
      dsimp only
      by_cases ended : data = []
      · rw [if_pos ended, if_pos ended]
        rfl
      · rw [if_neg ended, if_neg ended]
        rfl

/-- The loop condition, and a copy to any other channel's buffer. -/
theorem copy_advances {i : Nat} (pc : p.video.pc = .copy i)
    (step : videoStep chs capacity p = .next (act, after)) : Advances chs p act after := by
  unfold videoStep at step
  rw [pc] at step
  dsimp only at step
  split at step
  · rename_i below
    have split_ := putFrames_split below p.thr
    split at step
    · cases step
    · rename_i ch found
      rw [found, Option.bind_some] at split_
      split at step
      · rename_i source
        cases step
        apply Advances.silent rfl
        rw [pc]
        change putFrames (chs.toNat - i) i p.thr = _
        rw [split_, if_pos source]
        rfl
      · rename_i other
        rw [if_neg other] at split_
        split at step
        · cases step
        · rename_i b held
          change p.thr.memory.buf sourceChannel = some b at held
          rw [held, Option.bind_some] at split_
          split at step
          · cases step
          · rename_i memory wrote
            change p.thr.memory.write ch 0 (b.take p.thr.elt.len.toNat) = some memory at wrote
            rw [wrote, Option.bind_some] at split_
            cases step
            apply Advances.silent rfl
            rw [pc]
            change putFrames (chs.toNat - i) i p.thr = _
            rw [split_]
            rfl
  · rename_i ended
    cases step
    apply Advances.silent rfl
    have none_ : chs.toNat - i = 0 := by omega
    rw [pc]
    change putFrames (chs.toNat - i) i p.thr = _
    rw [none_]
    rfl

theorem patch_advances {i : Nat} (pc : p.video.pc = .patch i)
    (step : videoStep chs capacity p = .next (act, after)) : Advances chs p act after := by
  unfold videoStep at step
  rw [pc] at step
  dsimp only at step
  split at step
  · cases step
  · rename_i ch found
    split at step
    · cases step
    · rename_i memory wrote
      cases step
      apply Advances.silent rfl
      rw [pc]
      change patchRest chs i p.thr = _
      unfold patchRest
      change p.thr.memory.write ch chIdOffset _ = some memory at wrote
      rw [found, Option.bind_some, wrote, Option.bind_some]
      rfl

theorem videoStep_advances (command : p.video.elt.command = p.video.pc.command)
    (step : videoStep chs capacity p = .next (act, after)) : Advances chs p act after := by
  cases pc : p.video.pc with
  | head =>
      rw [pc] at command
      exact head_advances pc command step
  | header => exact header_advances pc step
  | mark => exact mark_advances pc step
  | frame => exact frame_advances pc step
  | copy i => exact copy_advances pc step
  | patch i => exact patch_advances pc step
  | put i =>
      unfold videoStep at step
      rw [pc] at step command
      dsimp only at step
      split at step
      · cases step
      · rename_i g group
        exact putStep_advances pc group command step
  | flush i =>
      unfold videoStep at step
      rw [pc] at step command
      dsimp only at step
      split at step
      · split at step
        · cases step
        · exact flushStep_advances pc command step
      · cases step
        apply Advances.silent rfl
        rw [pc]
        rfl
  | done =>
      unfold videoStep at step
      rw [pc] at step
      cases step

end

/-- `s_elt.command` changes behind the loop only. -/
theorem command_step {chs : Int} {capacity : Option Nat} {p after : State} {act : Act}
    (command : p.video.elt.command = p.video.pc.command)
    (steps : VideoSteps chs capacity p act after) :
    after.video.elt.command = after.video.pc.command := by
  cases steps with
  | leave pc quit => rfl
  | enter pc quit =>
      rw [pc] at command
      exact command
  | store stores held stored =>
      cases stores with
      | fileEnd pc | header pc | mark pc | noFrame pc | frame pc _ _ | copy pc _ _ _ _ | patch pc _ =>
          rw [pc] at command
          exact command
  | skip pc below source =>
      rw [pc] at command
      exact command
  | round pc ended =>
      rw [pc] at command
      exact command
  | put target puts =>
      cases target with
      | frame pc at_ =>
          rw [pc] at command
          exact command
      | flush pc below at_ =>
          rw [pc] at command
          exact command
  | flushed pc ended =>
      rw [pc] at command
      exact command

/-! ## The run -/

/-- The frames put so far and what is left of the iteration make up the first iterations of
the thread alone, but for the frames whose put has failed. -/
structure Follows (chs : Int) (start : VideoThr) (history : History) (p : State) : Prop where
  command : p.video.elt.command = p.video.pc.command
  rest : ∃ n attempted, (framePuts history).Sublist attempted ∧
    ((∀ event ∈ history, ∀ g, event.2 ≠ .putFails g) → framePuts history = attempted) ∧
    iterations chs n start = emitting attempted (p.video.pc.remaining chs p.thr)

namespace Follows

variable {chs : Int} {start : VideoThr} {history : History} {p after : State}

theorem video_step {capacity : Option Nat} {mover : Mover} {act : Act}
    (follows : Follows chs start history p) (step : videoStep chs capacity p = .next (act, after)) :
    Follows chs start ((mover, act) :: history) after := by
  refine ⟨command_step follows.command (videoStep_cases step), ?_⟩
  obtain ⟨n, attempted, made, all, rest⟩ := follows.rest
  cases videoStep_advances follows.command step with
  | begins head next thr quiet =>
      refine ⟨n + 1, attempted, ?_, ?_, ?_⟩
      · rw [framePuts_cons, quiet]
        simpa [Act.framePut?] using made
      · intro works
        rw [framePuts_cons, quiet]
        simpa [Act.framePut?] using all fun event member => works event (List.mem_cons_of_mem _ member)
      · rw [head] at rest
        change iterations chs n start = some (attempted ++ [], p.thr) at rest
        rw [iterations, rest, next, thr, Option.bind_some, List.append_nil]
        rfl
  | goesOn now madeNow allNow restNow =>
      refine ⟨n, attempted ++ now, ?_, ?_, ?_⟩
      · rw [framePuts_cons]
        exact made.append madeNow
      · intro works
        rw [framePuts_cons, all fun event member => works event (List.mem_cons_of_mem _ member),
          allNow (works (mover, act) List.mem_cons_self)]
      · rw [rest, restNow, emitting_append]

/-- The other threads put no frames and leave the video thread's part as it is. -/
theorem silent_step {event : Mover × Act} (follows : Follows chs start history p)
    (nothing : event.2.framePut? = none) (video : after.video = p.video)
    (memory : after.memory = p.memory) : Follows chs start (event :: history) after := by
  have same : after.thr = p.thr := by rw [State.thr, State.thr, video, memory]
  obtain ⟨n, attempted, made, all, rest⟩ := follows.rest
  have kept : framePuts (event :: history) = framePuts history := by
    rw [framePuts_cons, nothing]
    exact List.append_nil _
  refine ⟨?_, n, attempted, ?_, ?_, ?_⟩
  · rw [video]
    exact follows.command
  · rw [kept]
    exact made
  · intro works
    rw [kept]
    exact all fun event member => works event (List.mem_cons_of_mem _ member)
  · rw [video, same]
    exact rest

theorem step {capacity : Option Nat} {event : Mover × Act} (follows : Follows chs start history p)
    (step : ExecStep (pipelineExec chs capacity) p event after) :
    Follows chs start (event :: history) after := by
  have steps := pipelineExec_cases step
  obtain ⟨mover, act⟩ := event
  cases steps with
  | video _ => exact follows.video_step (Outcome.toOption_eq_some.mp step)
  | reader _ steps => cases steps <;> exact follows.silent_step rfl rfl rfl
  | session steps => cases steps <;> exact follows.silent_step rfl rfl rfl
  | main _ => exact follows.silent_step rfl rfl rfl

end Follows

theorem Started.follows {start : State} (chs : Int) (started : Started start) :
    Follows chs start.thr [] start := by
  refine ⟨?_, 0, [], List.Sublist.refl _, fun _ => rfl, ?_⟩
  · rw [started.command, started.video]
    rfl
  · rw [started.video]
    rfl

/-- In every interleaving of the threads the frames put are those of the iterations that the
video thread makes alone. -/
theorem run_follows {chs : Int} {capacity : Option Nat} {start p : State} {history : History}
    (started : Started start) (run : Run (ExecStep (pipelineExec chs capacity)) start history p) :
    Follows chs start.thr history p := by
  apply run.invariant (Follows chs start.thr)
  · exact started.follows chs
  · intro history state event next _ follows step
    exact follows.step step

/-- With a well-formed file the frames put are frames of the replay, in its order and none
twice; as long as no put has failed they are the first of them. -/
theorem pipeline_replays {chs : Int} {capacity : Option Nat} (bound : chs ≤ maxVideoChannel)
    {frames : List EncodedFrame} (some_ : frames ≠ []) {start p : State} {history : History} {b : Buffer}
    (started : Started start) (ready : Ready chs (fileOf frames) 0 b start.memory)
    (run : Run (ExecStep (pipelineExec chs capacity)) start history p) :
    ∃ rounds, (framePuts history).Sublist (replay chs frames some_ rounds) ∧
      ((∀ event ∈ history, ∀ g, event.2 ≠ .putFails g) →
        framePuts history <+: replay chs frames some_ rounds) := by
  have dataType : start.thr.elt.dataType = sessionTypeVideo.toUInt8 :=
    UInt8.toNat_inj.mp started.dataType
  have first : Before chs frames 0 start.thr := ⟨⟨b, ready⟩, started.command, dataType⟩
  obtain ⟨n, attempted, made, all, rest⟩ := (run_follows started run).rest
  obtain ⟨pass, j, last, _, _, done, _⟩ := first.replays bound some_ n
  rw [done] at rest
  obtain ⟨⟨left, reached⟩, _, whole⟩ := Option.map_eq_some_iff.mp rest.symm
  have split_ : attempted ++ left = replay chs frames some_ (pass * frames.length + j) :=
    congrArg Prod.fst whole
  refine ⟨pass * frames.length + j, ?_, ?_⟩
  · rw [← split_]
    exact made.trans (List.sublist_append_left attempted left)
  · intro works
    rw [← split_, all works]
    exact List.prefix_append attempted left

end DvsServer.Core.Pipeline
