import DvsServer.Lib.Pairs
import DvsServer.Core.SessionOps

/-!
# The ports of one client (`core/src/session.c`)

`add_client` derives a port for each session from two base ports; RTP takes the port and
RTCP its successor.
-/

namespace DvsServer.Core.Session

open DvsServer.Lib DvsServer.Com.RtpSend

/-- The value is one of the type `int`. -/
def IsInt (value : Int) : Prop := -2 ^ 31 ≤ value ∧ value < 2 ^ 31

/-- The bases of the two media, the number of groups and the ports derived for the sessions. -/
structure PortsValid (base : Medium → Int) (n : Nat) (ports : List Int) : Prop where
  noOverflow : ∀ m, base m > 0 → ∀ i < n, IsInt (m.port (base m) i)
  range : ∀ p ∈ ports, 1 ≤ p ∧ p + 1 ≤ 65535
  apart : ports.Pairwise fun p q => Disjoint (pairAt p) (pairAt q)

/-- The ports that the loop of a medium derives. -/
def mediumPorts (m : Medium) (n : Nat) (base : Int) : List Int :=
  if base > 0 then (List.range n).map (m.port base) else []

/-! ## The loops -/

section

variable {medium : Medium} {destIp : String} {base : Int} {id : Fin maxClientNum}
  {s after : Server} {made : List RtpSession}

theorem creates_port {m : SessionMgr} {port : Int} {payloadType : Nat} {inc : UInt32}
    {creation : Creation} (creates : Creates m destIp port payloadType inc creation)
    (succeeded : ¬creation.ret < 0) : creation.session.toList.map RtpSession.remotePort = [port] := by
  cases creates with
  | full => exact absurd (show (-1 : Int) < 0 by decide) succeeded
  | made i free first => rfl

theorem createLoop_ports {k i : Nat}
    (done : createLoop medium destIp base id k i s = some (true, made, after)) :
    made.map RtpSession.remotePort = (List.range' i k).map (medium.port base) := by
  induction k generalizing i s made with
  | zero =>
      cases Option.some.inj done
      rfl
  | succ k ih =>
      obtain ⟨g, creation, rfl, creates, pass⟩ := createLoop_cases done
      cases pass with
      | more succeeded rest =>
          rw [List.map_append, creates_port creates succeeded, ih rest, List.range'_succ]
          rfl

theorem createSessions_ports {chs : Int}
    (done : createSessions medium chs destIp base id s = some (true, made, after)) :
    made.map RtpSession.remotePort = mediumPorts medium (groups chs) base := by
  unfold createSessions at done
  unfold mediumPorts
  split at done
  · rename_i positive
    rw [if_pos positive, List.range_eq_range']
    exact createLoop_ports done
  · rename_i unused
    cases Option.some.inj done
    rw [if_neg unused]
    rfl

end

/-- The ports of a client that `add_client` has registered. -/
theorem addClient_ports {chs : Int} {s : Server} {destIp : String} {baseVideoPort baseAudioPort : Int}
    {adding : Adding} (done : addClient chs s destIp baseVideoPort baseAudioPort = some adding)
    (succeeded : 0 ≤ adding.ret) :
    adding.created.map RtpSession.remotePort =
      mediumPorts .video (groups chs) baseVideoPort ++ mediumPorts .audio (groups chs) baseAudioPort := by
  obtain ⟨id, video, between, audio, after, madeVideo, madeAudio, rfl⟩ :=
    addClient_success done succeeded
  rw [List.map_append, createSessions_ports madeVideo, createSessions_ports madeAudio]

/-! ## Which bases are good -/

/-- Where the ports of a medium begin. -/
def Medium.lowest : Medium → Nat → Int → Int
  | .video, n, base => base - 2 * n + 2
  | .audio, _, base => base

theorem mediumPorts_fills (m : Medium) (n : Nat) (base : Int) :
    Fills (mediumPorts m n base) (m.lowest n base) (if base > 0 then n else 0) := by
  unfold mediumPorts
  split
  · cases m with
    | video => exact fills_down base n
    | audio => exact fills_up base n
  · exact .empty _

theorem mediumPorts_apart (m : Medium) (n : Nat) (base : Int) :
    (mediumPorts m n base).Pairwise fun p q => Disjoint (pairAt p) (pairAt q) := by
  unfold mediumPorts
  split
  · rw [List.pairwise_map]
    apply List.pairwise_lt_range.imp
    intro i j before
    rw [pairAt_disjoint_iff]
    cases m with
    | video => simp only [Medium.port]; omega
    | audio => simp only [Medium.port]; omega
  · exact .nil

theorem mem_mediumPorts {m : Medium} {n i : Nat} {base : Int} (positive : base > 0) (below : i < n) :
    m.port base i ∈ mediumPorts m n base := by
  rw [mediumPorts, if_pos positive]
  exact List.mem_map_of_mem (List.mem_range.mpr below)

/-- The lowest video port is a port, the highest port of each medium has a successor, and
the two intervals of ports do not meet. -/
def PortsFit (n : Nat) (baseVideoPort baseAudioPort : Int) : Prop :=
  n = 0 ∨
    (baseVideoPort > 0 → 2 * n - 1 ≤ baseVideoPort ∧ baseVideoPort ≤ 65534) ∧
    (baseAudioPort > 0 → baseAudioPort + 2 * n ≤ 65536) ∧
    (baseVideoPort > 0 → baseAudioPort > 0 →
      baseVideoPort + 2 ≤ baseAudioPort ∨ baseAudioPort + 4 * n - 2 ≤ baseVideoPort)

instance (n : Nat) (baseVideoPort baseAudioPort : Int) :
    Decidable (PortsFit n baseVideoPort baseAudioPort) :=
  inferInstanceAs (Decidable (_ ∨ _))

theorem portsFit_iff {n video audio : Nat} {baseVideoPort baseAudioPort : Int}
    (video_eq : video = if baseVideoPort > 0 then n else 0)
    (audio_eq : audio = if baseAudioPort > 0 then n else 0) :
    PortsFit n baseVideoPort baseAudioPort ↔
      ((video = 0 ∨ 1 ≤ Medium.video.lowest n baseVideoPort ∧
          Medium.video.lowest n baseVideoPort + 2 * video ≤ 65535 + 1) ∧
        (audio = 0 ∨ 1 ≤ Medium.audio.lowest n baseAudioPort ∧
          Medium.audio.lowest n baseAudioPort + 2 * audio ≤ 65535 + 1)) ∧
      (video = 0 ∨ audio = 0 ∨
        Medium.video.lowest n baseVideoPort + 2 * video ≤ Medium.audio.lowest n baseAudioPort ∨
        Medium.audio.lowest n baseAudioPort + 2 * audio ≤ Medium.video.lowest n baseVideoPort) := by
  simp only [PortsFit, Medium.lowest]
  split at video_eq
  · split at audio_eq
    · omega
    · omega
  · split at audio_eq
    · omega
    · omega

theorem portsValid_iff (n : Nat) (baseVideoPort baseAudioPort : Int) :
    PortsValid (basePort baseVideoPort baseAudioPort) n
        (mediumPorts .video n baseVideoPort ++ mediumPorts .audio n baseAudioPort) ↔
      PortsFit n baseVideoPort baseAudioPort := by
  have video := mediumPorts_fills .video n baseVideoPort
  have audio := mediumPorts_fills .audio n baseAudioPort
  rw [portsFit_iff rfl rfl, ← video.within_iff, ← audio.within_iff, ← video.apart_iff audio,
    ← List.forall_mem_append]
  constructor
  · intro valid
    exact ⟨valid.range, (List.pairwise_append.mp valid.apart).2.2⟩
  · rintro ⟨range, cross⟩
    refine ⟨?_, range, List.pairwise_append.mpr
      ⟨mediumPorts_apart _ _ _, mediumPorts_apart _ _ _, cross⟩⟩
    intro m positive i below
    have within : 1 ≤ m.port (basePort baseVideoPort baseAudioPort m) i ∧
        m.port (basePort baseVideoPort baseAudioPort m) i + 1 ≤ 65535 := by
      apply range
      cases m with
      | video => exact List.mem_append_left _ (mem_mediumPorts positive below)
      | audio => exact List.mem_append_right _ (mem_mediumPorts positive below)
    unfold IsInt
    omega

/-- The sessions of a client have good ports where its bases fit. -/
theorem ports_valid_iff {chs : Int} {s : Server} {destIp : String} {baseVideoPort baseAudioPort : Int}
    {adding : Adding} (done : addClient chs s destIp baseVideoPort baseAudioPort = some adding)
    (succeeded : 0 ≤ adding.ret) :
    PortsValid (basePort baseVideoPort baseAudioPort) (groups chs)
        (adding.created.map RtpSession.remotePort) ↔
      PortsFit (groups chs) baseVideoPort baseAudioPort := by
  rw [addClient_ports done succeeded]
  exact portsValid_iff (groups chs) baseVideoPort baseAudioPort

/-- A server without clients and sessions. -/
def Server.idle : Server :=
  ⟨fun _ => ⟨-1, fun _ => false, .unset⟩, ⟨fun _ => ⟨none, 0, 0⟩, none, 0⟩⟩

theorem ports_valid_eight : ∃ adding, addClient 8 Server.idle "10.0.0.1" 5000 7000 = some adding ∧
    PortsValid (basePort 5000 7000) (groups 8) (adding.created.map RtpSession.remotePort) := by
  have added : (addClient 8 Server.idle "10.0.0.1" 5000 7000).any
      (fun adding => decide (0 ≤ adding.ret)) = true := by decide
  obtain ⟨adding, done, succeeded⟩ := (Option.any_eq_true _ _).mp added
  exact ⟨adding, done, (ports_valid_iff done (of_decide_eq_true succeeded)).mpr (by decide)⟩

/-- With the base 1 the second video session goes to the port -1. -/
theorem ports_valid_fails : ¬∀ (chs : Int) (s : Server) (destIp : String)
    (baseVideoPort baseAudioPort : Int) (adding : Adding),
    addClient chs s destIp baseVideoPort baseAudioPort = some adding → 0 ≤ adding.ret →
      PortsValid (basePort baseVideoPort baseAudioPort) (groups chs)
        (adding.created.map RtpSession.remotePort) := by
  intro always
  have added : (addClient 8 Server.idle "10.0.0.1" 1 0).any
      (fun adding => decide (0 ≤ adding.ret)) = true := by decide
  obtain ⟨adding, done, succeeded⟩ := (Option.any_eq_true _ _).mp added
  have registered := of_decide_eq_true succeeded
  have valid := always 8 Server.idle "10.0.0.1" 1 0 adding done registered
  rw [addClient_ports done registered] at valid
  have positive := (valid.range (-1) (by decide)).1
  revert positive
  decide

end DvsServer.Core.Session
