import DvsServer.Lib.Chunks
import DvsServer.Network.ServerIf

/-!
# Command framing

The thread takes every `recv` of `SERVER_PACK_LEN` bytes for a packet and drops
what a shorter one returned, so a packet that TCP cuts in two is lost.  The
segmentation is not seen exactly when the full chunks are, one by one and as far
as the thread reads them, the packets of the stream.
-/

namespace DvsServer.Network.ServerIf

open DvsServer.Lib DvsServer.Core.Session DvsServer.Network.Command

/-- What the rest of the system answers while a packet is served. -/
structure Answers where
  headerSent : Int
  added : AddResult
  resolution : Int

/-- A pass that receives one chunk of the stream. -/
def chunkTurn (answers : Answers) (chunk : List UInt8) : Turn :=
  { quit := false, recv := .stored chunk, errno := .other, headerSent := answers.headerSent
    added := answers.added, resolution := answers.resolution }

/-- The calls made while these chunks arrive; `answers` belong to the packets as
they are counted by the thread, from number `k` on. -/
def serveChunks (answers : Nat → Answers) : Nat → TcpThread → List (List UInt8) → List Call
  | _, _, [] => []
  | k, t, chunk :: rest =>
      match tcpPass t (chunkTurn (answers k) chunk) with
      | none => []
      | some (calls, next) =>
          calls ++ serveChunks answers (if chunk.length = serverPackLen then k + 1 else k) next rest

def Call.visible : Call → Bool
  | .dispatch _ _ => true
  | .send _ => true
  | _ => false

/-- The commands dispatched and the replies sent while a stream arrives in chunks
of the given sizes. -/
def service (answers : Nat → Answers) (k : Nat) (t : TcpThread) (sizes : List Nat)
    (stream : List UInt8) : List Call :=
  (serveChunks answers k t (cut sizes stream)).filter Call.visible

/-! ## The packets a thread receives -/

/-- The full chunks. -/
def packs (chunks : List (List UInt8)) : List ServerPack :=
  chunks.filterMap fun chunk => (Recv.stored chunk).pack

/-- What the thread goes by in a packet: whether its header is valid, and the
command and parameters unless the packet is refused. -/
def heeded (answers : Answers) (sPack : ServerPack) : Bool × Option (UInt32 × List UInt8) :=
  (sPack.cmdHeader == tcpCmdHeaderStr,
    if sPack.cmdHeader ≠ tcpCmdHeaderStr ∧ sentShort answers.headerSent = true then none
    else some (sPack.serverCMD, sPack.parameters))

/-- One sequence of packets repeats the other, up to the packet with which the
thread leaves its loop. -/
def Repeats (answers : Nat → Answers) : Nat → List ServerPack → List ServerPack → Prop
  | _, [], [] => True
  | k, sPack :: rest, other :: others =>
      heeded (answers k) sPack = heeded (answers k) other ∧
        ((chunkTurn (answers k) sPack.bytes).quits = true ∨ Repeats answers (k + 1) rest others)
  | _, [], _ :: _ => False
  | _, _ :: _, [] => False

instance Repeats.decidable (answers : Nat → Answers) :
    ∀ k rest others, Decidable (Repeats answers k rest others)
  | _, [], [] => inferInstanceAs (Decidable True)
  | k, _ :: rest, _ :: others =>
      let _ := Repeats.decidable answers (k + 1) rest others
      inferInstanceAs (Decidable (_ ∧ (_ ∨ Repeats answers (k + 1) rest others)))
  | _, [], _ :: _ => inferInstanceAs (Decidable False)
  | _, _ :: _, [] => inferInstanceAs (Decidable False)

/-! ## Short chunks -/

/-- A pass that receives part of a packet drops it. -/
theorem tcpPass_short {t : TcpThread} {answers : Answers} {chunk : List UInt8}
    (nonempty : chunk ≠ []) (short : chunk.length ≠ serverPackLen) (looping : t.left = false) :
    tcpPass t (chunkTurn answers chunk) = some (if t.clientQuit then exitPath t else ([], t)) := by
  have noPack : (chunkTurn answers chunk).recv.pack = none := dif_neg short
  have received : ¬ ((chunkTurn answers chunk).recv.returnBytes ≤ 0 ∧
      (chunkTurn answers chunk).errno ≠ .eintr ∧ (chunkTurn answers chunk).errno ≠ .ewouldblock ∧
      (chunkTurn answers chunk).errno ≠ .eagain) := by
    intro broken
    have pos := List.length_pos_iff.mpr nonempty
    have le : (chunk.length : Int) ≤ 0 := broken.1
    omega
  unfold tcpPass
  rw [looping, if_neg Bool.false_ne_true, noPack]
  cases quit : t.clientQuit with
  | true => exact if_pos rfl
  | false => exact (if_neg Bool.false_ne_true).trans (if_neg received)

theorem exitPath_visible (t : TcpThread) : (exitPath t).1.filter Call.visible = [] := by
  unfold exitPath
  by_cases noClient : t.clientID = -1
  · simp [noClient]
  · simp [noClient, Call.visible]

theorem serveChunks_left {answers : Nat → Answers} {k : Nat} {t : TcpThread}
    {chunks : List (List UInt8)} (left : t.left = true) : serveChunks answers k t chunks = [] := by
  cases chunks with
  | nil => rfl
  | cons chunk rest =>
      rw [serveChunks, tcpPass, if_pos left]

theorem serveChunks_leaving {answers : Nat → Answers} {k : Nat} {t : TcpThread}
    {chunks : List (List UInt8)} (looping : t.left = false) (quit : t.clientQuit = true) :
    (serveChunks answers k t chunks).filter Call.visible = [] := by
  cases chunks with
  | nil => rfl
  | cons chunk rest =>
      have exits : tcpPass t (chunkTurn (answers k) chunk) = some (exitPath t) := by
        unfold tcpPass
        rw [looping, if_neg Bool.false_ne_true, quit, Bool.or_true, if_pos rfl]
      rw [serveChunks, exits]
      dsimp only
      rw [List.filter_append, exitPath_visible, List.nil_append, serveChunks_left rfl]
      rfl

theorem serveChunks_packs {answers : Nat → Answers} {k : Nat} {t : TcpThread}
    {chunks : List (List UInt8)} (looping : t.left = false) (nonempty : ∀ chunk ∈ chunks, chunk ≠ []) :
    (serveChunks answers k t chunks).filter Call.visible =
      (serveChunks answers k t ((packs chunks).map ServerPack.bytes)).filter Call.visible := by
  induction chunks generalizing k t with
  | nil => rfl
  | cons chunk rest ih =>
      have nonempty' : ∀ other ∈ rest, other ≠ [] := fun other inRest =>
        nonempty other (List.mem_cons_of_mem _ inRest)
      by_cases full : chunk.length = serverPackLen
      · have found : packs (chunk :: rest) = ⟨chunk, full⟩ :: packs rest :=
          List.filterMap_cons_some (dif_pos full)
        rw [found, List.map_cons, serveChunks, serveChunks]
        obtain ⟨calls, after, done⟩ := tcpPass_defined looping (chunkTurn (answers k) chunk)
        rw [done]
        dsimp only
        rw [List.filter_append, List.filter_append]
        refine congrArg _ ?_
        by_cases gone : after.left = true
        · rw [serveChunks_left gone, serveChunks_left gone]
        · exact ih (Bool.eq_false_of_not_eq_true gone) nonempty'
      · have dropped : packs (chunk :: rest) = packs rest :=
          List.filterMap_cons_none (dif_neg full)
        have passed : tcpPass t (chunkTurn (answers k) chunk) =
            some (if t.clientQuit then exitPath t else ([], t)) :=
          tcpPass_short (nonempty chunk List.mem_cons_self) full looping
        rw [dropped, serveChunks, passed, if_neg full]
        cases quit : t.clientQuit with
        | true =>
            rw [if_pos rfl]
            dsimp only
            rw [List.filter_append, exitPath_visible, List.nil_append, serveChunks_left rfl,
              serveChunks_leaving looping quit]
            rfl
        | false => exact ih looping nonempty'

/-! ## Full chunks -/

structure Looping (t : TcpThread) : Prop where
  left : t.left = false
  clientQuit : t.clientQuit = false

theorem serve_congr {t : TcpThread} {answers : Answers} {sPack other : ServerPack}
    (serverCMD : sPack.serverCMD = other.serverCMD) (parameters : sPack.parameters = other.parameters) :
    serve t (chunkTurn answers sPack.bytes) sPack = serve t (chunkTurn answers other.bytes) other := by
  have byte_eq : ∀ i, tcpCmdHeaderLen + 4 ≤ i → sPack.byte i = other.byte i := by
    intro i behind
    obtain ⟨further, rfl⟩ := Nat.exists_eq_add_of_le behind
    rw [ServerPack.byte, ServerPack.byte, List.getD_eq_getElem?_getD, List.getD_eq_getElem?_getD,
      ← List.getElem?_drop, ← List.getElem?_drop]
    exact congrArg (fun bytes : List UInt8 => (bytes[further]?).getD 0) parameters
  have word_eq : ∀ i, tcpCmdHeaderLen + 4 ≤ i → sPack.word i = other.word i := by
    intro i behind
    unfold ServerPack.word
    rw [byte_eq i behind, byte_eq (i + 1) (by omega), byte_eq (i + 2) (by omega),
      byte_eq (i + 3) (by omega)]
  have chId : sPack.chId = other.chId := byte_eq _ (by decide)
  have resolution : sPack.resolution = other.resolution := word_eq _ (by decide)
  have videoport : sPack.videoport = other.videoport :=
    congrArg (fun word : UInt32 => word.toInt32.toInt) (word_eq _ (by decide))
  have audioport : sPack.audioport = other.audioport :=
    congrArg (fun word : UInt32 => word.toInt32.toInt) (word_eq _ (by decide))
  unfold serve runCommand
  rw [serverCMD, parameters, chId, resolution, videoport, audioport]
  rfl

theorem tcpPass_packet {t : TcpThread} (looping : Looping t) (answers : Answers)
    (sPack : ServerPack) :
    tcpPass t (chunkTurn answers sPack.bytes) = some (
      let refused := t.setReturn .invlidHeader
      if sPack.cmdHeader = tcpCmdHeaderStr then serve t (chunkTurn answers sPack.bytes) sPack
      else if sentShort answers.headerSent then ([.send refused.rPack], refused)
      else (.send refused.rPack :: (serve refused (chunkTurn answers sPack.bytes) sPack).1,
        (serve refused (chunkTurn answers sPack.bytes) sPack).2)) := by
  have pack : (chunkTurn answers sPack.bytes).recv.pack = some sPack := dif_pos sPack.length_eq
  unfold tcpPass
  rw [looping.left, looping.clientQuit, pack, if_neg Bool.false_ne_true]
  refine (if_neg Bool.false_ne_true).trans ?_
  dsimp only
  by_cases valid : sPack.cmdHeader = tcpCmdHeaderStr
  · rw [if_neg (not_not_intro valid), if_pos valid]
  · rw [if_pos valid, if_neg valid]
    exact (apply_ite some _ _ _).symm

theorem heeded_valid {answers : Answers} {sPack : ServerPack}
    (valid : sPack.cmdHeader = tcpCmdHeaderStr) :
    heeded answers sPack = (true, some (sPack.serverCMD, sPack.parameters)) := by
  rw [heeded, if_neg fun both => both.1 valid, beq_iff_eq.mpr valid]

theorem heeded_refused {answers : Answers} {sPack : ServerPack}
    (invalid : sPack.cmdHeader ≠ tcpCmdHeaderStr) (short : sentShort answers.headerSent = true) :
    heeded answers sPack = (false, none) := by
  rw [heeded, if_pos ⟨invalid, short⟩, beq_eq_false_iff_ne.mpr invalid]

theorem heeded_passed {answers : Answers} {sPack : ServerPack}
    (invalid : sPack.cmdHeader ≠ tcpCmdHeaderStr) (long : ¬ sentShort answers.headerSent = true) :
    heeded answers sPack = (false, some (sPack.serverCMD, sPack.parameters)) := by
  rw [heeded, if_neg fun both => long both.2, beq_eq_false_iff_ne.mpr invalid]

/-- What a thread can go by in a packet. -/
inductive Heeds (answers : Answers) (sPack : ServerPack) :
    Bool × Option (UInt32 × List UInt8) → Prop where
  | valid (valid : sPack.cmdHeader = tcpCmdHeaderStr) :
      Heeds answers sPack (true, some (sPack.serverCMD, sPack.parameters))
  | refused (invalid : sPack.cmdHeader ≠ tcpCmdHeaderStr)
      (short : sentShort answers.headerSent = true) : Heeds answers sPack (false, none)
  | passed (invalid : sPack.cmdHeader ≠ tcpCmdHeaderStr)
      (long : ¬ sentShort answers.headerSent = true) :
      Heeds answers sPack (false, some (sPack.serverCMD, sPack.parameters))

theorem heeds (answers : Answers) (sPack : ServerPack) :
    Heeds answers sPack (heeded answers sPack) := by
  by_cases valid : sPack.cmdHeader = tcpCmdHeaderStr
  · rw [heeded_valid valid]
    exact .valid valid
  · by_cases short : sentShort answers.headerSent = true
    · rw [heeded_refused valid short]
      exact .refused valid short
    · rw [heeded_passed valid short]
      exact .passed valid short

/-- The commands and replies of a pass, by what the thread goes by; `header` is the
reply to a wrong header. -/
def answered (header reply : ReturnPack) (went : Bool × Option (UInt32 × List UInt8)) : List Call :=
  (if went.1 then [] else [.send header]) ++
    went.2.elim [] fun command => [.dispatch command.1 command.2, .send reply]

theorem serve_visible (t : TcpThread) (turn : Turn) (sPack : ServerPack) :
    (serve t turn sPack).1.filter Call.visible =
      [.dispatch sPack.serverCMD sPack.parameters, .send (serve t turn sPack).2.rPack] := by
  unfold serve runCommand
  cases ServerCMD.ofCode sPack.serverCMD with
  | none => rfl
  | some command => cases command <;> rfl

theorem tcpPass_congr {t : TcpThread} (looping : Looping t) {answers : Answers}
    {sPack other : ServerPack} (alike : heeded answers sPack = heeded answers other) :
    tcpPass t (chunkTurn answers sPack.bytes) = tcpPass t (chunkTurn answers other.bytes) := by
  have header : sPack.cmdHeader = tcpCmdHeaderStr ↔ other.cmdHeader = tcpCmdHeaderStr := by
    rw [← beq_iff_eq, ← beq_iff_eq (a := other.cmdHeader)]
    exact iff_of_eq (congrArg (fun went : Bool × _ => went.1 = true) alike)
  rw [tcpPass_packet looping, tcpPass_packet looping]
  by_cases valid : sPack.cmdHeader = tcpCmdHeaderStr
  · have valid' := header.mp valid
    rw [heeded_valid valid, heeded_valid valid'] at alike
    obtain ⟨serverCMD, parameters⟩ := Prod.mk.inj (Option.some.inj (Prod.mk.inj alike).2)
    rw [if_pos valid, if_pos valid', serve_congr serverCMD parameters]
  · have invalid' := fun valid' => valid (header.mpr valid')
    rw [if_neg valid, if_neg invalid']
    by_cases short : sentShort answers.headerSent = true
    · rw [if_pos short, if_pos short]
    · rw [heeded_passed valid short, heeded_passed invalid' short] at alike
      obtain ⟨serverCMD, parameters⟩ := Prod.mk.inj (Option.some.inj (Prod.mk.inj alike).2)
      rw [if_neg short, if_neg short, serve_congr serverCMD parameters]

theorem quits_of_dispatched {answers : Answers} {sPack : ServerPack}
    (dispatched : (chunkTurn answers sPack.bytes).dispatched = some sPack) :
    (chunkTurn answers sPack.bytes).quits =
      (commandOf sPack == some .delClient || commandOf sPack == some .setResolution) := by
  rw [Turn.quits, Turn.command_eq dispatched]

theorem tcpPass_visible {t : TcpThread} (looping : Looping t) (answers : Answers)
    (sPack : ServerPack) :
    ∃ calls after reply, tcpPass t (chunkTurn answers sPack.bytes) = some (calls, after) ∧
      calls.filter Call.visible =
        answered (t.setReturn .invlidHeader).rPack reply (heeded answers sPack) ∧
      after.left = false ∧ after.clientQuit = (chunkTurn answers sPack.bytes).quits := by
  have pack : (chunkTurn answers sPack.bytes).recv.pack = some sPack := dif_pos sPack.length_eq
  have served : ∀ before : TcpThread, before.left = false → before.clientQuit = false →
      (chunkTurn answers sPack.bytes).dispatched = some sPack →
      (serve before (chunkTurn answers sPack.bytes) sPack).2.left = false ∧
        (serve before (chunkTurn answers sPack.bytes) sPack).2.clientQuit =
          (chunkTurn answers sPack.bytes).quits := by
    intro before left still dispatched
    rw [serve_left, serve_clientQuit, still, Bool.false_or, quits_of_dispatched dispatched]
    exact ⟨left, rfl⟩
  rw [tcpPass_packet looping]
  by_cases valid : sPack.cmdHeader = tcpCmdHeaderStr
  · have dispatched : (chunkTurn answers sPack.bytes).dispatched = some sPack := by
      rw [Turn.dispatched, pack, Option.bind_some, if_neg fun both => both.1 valid]
    rw [if_pos valid, heeded_valid valid]
    exact ⟨_, _, _, rfl, serve_visible t (chunkTurn answers sPack.bytes) sPack,
      served t looping.left looping.clientQuit dispatched⟩
  · rw [if_neg valid]
    by_cases short : sentShort answers.headerSent = true
    · have nothing : (chunkTurn answers sPack.bytes).dispatched = none := by
        rw [Turn.dispatched, pack, Option.bind_some, if_pos ⟨valid, short⟩]
      rw [if_pos short, heeded_refused valid short]
      refine ⟨_, _, t.rPack, rfl, rfl, looping.left, ?_⟩
      rw [Turn.quits, Turn.command_none nothing]
      exact looping.clientQuit
    · have dispatched : (chunkTurn answers sPack.bytes).dispatched = some sPack := by
        rw [Turn.dispatched, pack, Option.bind_some, if_neg fun both => short both.2]
      rw [if_neg short, heeded_passed valid short]
      exact ⟨_, _, _, rfl, congrArg (_ :: ·) (serve_visible (t.setReturn .invlidHeader)
          (chunkTurn answers sPack.bytes) sPack),
        served (t.setReturn .invlidHeader) looping.left looping.clientQuit dispatched⟩

theorem answered_ne_nil {answers : Answers} {sPack : ServerPack} (header reply : ReturnPack)
    (later : List Call) : answered header reply (heeded answers sPack) ++ later ≠ [] := by
  have heeds := heeds answers sPack
  generalize heeded answers sPack = went at heeds ⊢
  cases heeds with
  | valid => exact List.cons_ne_nil _ _
  | refused => exact List.cons_ne_nil _ _
  | passed => exact List.cons_ne_nil _ _

/-- The calls tell what the thread went by. -/
theorem heeded_eq_of_answered {answers : Answers} {sPack other : ServerPack}
    {header reply reply' : ReturnPack} {later later' : List Call}
    (same : answered header reply (heeded answers sPack) ++ later =
      answered header reply' (heeded answers other) ++ later') :
    heeded answers sPack = heeded answers other := by
  have one := heeds answers sPack
  have two := heeds answers other
  generalize heeded answers sPack = went at one same ⊢
  generalize heeded answers other = went' at two same ⊢
  cases one with
  | valid =>
      cases two with
      | valid =>
          obtain ⟨serverCMD, parameters⟩ := Call.dispatch.inj (List.cons.inj same).1
          exact congrArg (fun command => (true, some command)) (Prod.ext serverCMD parameters)
      | refused => exact Call.noConfusion (List.cons.inj same).1
      | passed => exact Call.noConfusion (List.cons.inj same).1
  | refused _ short =>
      cases two with
      | valid => exact Call.noConfusion (List.cons.inj same).1
      | refused => rfl
      | passed _ long => exact absurd short long
  | passed _ long =>
      cases two with
      | valid => exact Call.noConfusion (List.cons.inj same).1
      | refused _ short => exact absurd short long
      | passed =>
          obtain ⟨serverCMD, parameters⟩ :=
            Call.dispatch.inj (List.cons.inj (List.cons.inj same).2).1
          exact congrArg (fun command => (false, some command)) (Prod.ext serverCMD parameters)

/-- The client sees two sequences of packets as the same when one repeats the other. -/
theorem serveChunks_eq_iff {answers : Nat → Answers} {k : Nat} {t : TcpThread}
    (looping : Looping t) {rest others : List ServerPack} :
    (serveChunks answers k t (rest.map ServerPack.bytes)).filter Call.visible =
        (serveChunks answers k t (others.map ServerPack.bytes)).filter Call.visible ↔
      Repeats answers k rest others := by
  induction rest generalizing k t others with
  | nil =>
      cases others with
      | nil => exact iff_of_true rfl trivial
      | cons other others =>
          obtain ⟨calls, after, reply, done, visible, _⟩ := tcpPass_visible looping (answers k) other
          refine iff_of_false ?_ id
          rw [List.map_cons, serveChunks, done]
          dsimp only
          rw [List.filter_append, visible]
          exact (answered_ne_nil _ _ _).symm
  | cons sPack rest ih =>
      obtain ⟨calls, after, reply, done, visible, left, clientQuit⟩ :=
        tcpPass_visible looping (answers k) sPack
      cases others with
      | nil =>
          refine iff_of_false ?_ id
          rw [List.map_cons, serveChunks, done]
          dsimp only
          rw [List.filter_append, visible]
          exact answered_ne_nil _ _ _
      | cons other others =>
          rw [List.map_cons, List.map_cons, serveChunks, serveChunks, done, if_pos sPack.length_eq,
            if_pos other.length_eq]
          constructor
          · intro same
            obtain ⟨calls', after', reply', done', visible', _⟩ :=
              tcpPass_visible looping (answers k) other
            rw [done'] at same
            dsimp only at same
            rw [List.filter_append, List.filter_append, visible, visible'] at same
            have alike := heeded_eq_of_answered same
            refine ⟨alike, ?_⟩
            -- the same pass, so the calls behind it are the same
            rw [tcpPass_congr looping alike, done'] at done
            cases Option.some.inj done
            cases quits : (chunkTurn (answers k) sPack.bytes).quits with
            | true => exact .inl rfl
            | false =>
                refine .inr ((ih ⟨left, clientQuit.trans quits⟩).mp ?_)
                rw [← visible, ← visible'] at same
                exact List.append_cancel_left same
          · rintro ⟨alike, next⟩
            rw [← tcpPass_congr looping alike, done]
            dsimp only
            rw [List.filter_append, List.filter_append]
            refine congrArg _ ?_
            rcases next with quits | next
            · rw [serveChunks_leaving left (clientQuit.trans quits),
                serveChunks_leaving left (clientQuit.trans quits)]
            · cases quits : (chunkTurn (answers k) sPack.bytes).quits with
              | true =>
                  rw [serveChunks_leaving left (clientQuit.trans quits),
                    serveChunks_leaving left (clientQuit.trans quits)]
              | false => exact (ih ⟨left, clientQuit.trans quits⟩).mpr next

/-- A stream in chunks is served as whole packets are exactly when its full chunks
repeat its packets, as far as the thread reads them. -/
theorem segmentation_invisible_iff_repeats (answers : Nat → Answers) (clientID : Int)
    (returnCMD : ReturnCMD) (resolution : UInt32) (sizes : List Nat)
    (positive : ∀ size ∈ sizes, 0 < size) (stream : List UInt8)
    (length_eq : stream.length = sizes.sum) :
    service answers 0 (.start clientID returnCMD resolution) sizes stream =
        service answers 0 (.start clientID returnCMD resolution)
          (blocks serverPackLen stream.length) stream ↔
      Repeats answers 0 (packs (cut sizes stream))
        (packs (cut (blocks serverPackLen stream.length) stream)) := by
  have looping : Looping (.start clientID returnCMD resolution) := ⟨rfl, rfl⟩
  have blocks_eq : stream.length = (blocks serverPackLen stream.length).sum :=
    (sum_blocks _ _).symm
  unfold service
  rw [serveChunks_packs looping.left (cut_ne_nil positive length_eq),
    serveChunks_packs looping.left (cut_ne_nil (fun _ => pos_of_mem_blocks (by decide)) blocks_eq)]
  exact serveChunks_eq_iff looping

/-- The rest of the system lets every reply through. -/
def accepting (_ : Nat) : Answers := ⟨returnPackLen, .noSlot, videoResolutionCif⟩

/-- A packet for channel 5. -/
def packetOf (code : UInt8) : List UInt8 :=
  tcpCmdHeaderStr ++ [code, 0, 0, 0, 5, 0, 0, 0, 0, 0, 0, 0]

/-- Behind `DVS_CMD_DEL_CLIENT` a packet may be cut. -/
theorem segmentation_invisible_iff_repeats_del :
    (service accepting 0 (.start 0 .success 0) [20, 12, 8] (packetOf 2 ++ packetOf 3) =
        service accepting 0 (.start 0 .success 0) (blocks serverPackLen 40)
          (packetOf 2 ++ packetOf 3) ↔
      Repeats accepting 0 (packs (cut [20, 12, 8] (packetOf 2 ++ packetOf 3)))
        (packs (cut (blocks serverPackLen 40) (packetOf 2 ++ packetOf 3)))) ∧
      Repeats accepting 0 (packs (cut [20, 12, 8] (packetOf 2 ++ packetOf 3)))
        (packs (cut (blocks serverPackLen 40) (packetOf 2 ++ packetOf 3))) :=
  ⟨segmentation_invisible_iff_repeats accepting 0 .success 0 [20, 12, 8] (by decide)
    (packetOf 2 ++ packetOf 3) rfl, by decide⟩

/-- A packet that arrives in two pieces is not served. -/
theorem segmentation_invisible_fails : ¬ ∀ (answers : Nat → Answers) (clientID : Int)
    (returnCMD : ReturnCMD) (resolution : UInt32) (sizes : List Nat) (stream : List UInt8),
    (∀ size ∈ sizes, 0 < size ∧ size ≤ serverPackLen) → stream.length = sizes.sum →
      service answers 0 (.start clientID returnCMD resolution) sizes stream =
        service answers 0 (.start clientID returnCMD resolution)
          (blocks serverPackLen stream.length) stream := by
  intro claim
  have same := claim accepting 0 .success 0 [12, 8] (packetOf 3) (by decide) rfl
  exact absurd same (by decide)

end DvsServer.Network.ServerIf
