import CameraDrivers.CaptureRuns

/-!
# The streaming callbacks of camera_main.c

`start_streaming` and `stop_streaming` of camera_main.c in the place of those of camera_vb2.c,
with the repository's `buf_queue` and interrupt handler. vb2 hands every queued buffer over
before `start_streaming`, and takes what the driver still has when that fails or
`stop_streaming` returns.
-/
namespace CameraDrivers.MainCallbacks
open LinkedListHeap CameraState CaptureRuns TransitionRuns

/-- What a callback leaves, with its calls of `vb2_buffer_done` and its I2C writes. -/
structure Outcome (n : ℕ) where
  ret : ℤ
  cam : CameraDev n
  returned : List (Fin n × Vb2BufferState)
  writes : List (BitVec 8 × BitVec 8)

def einval : ℤ := 22

/-- The register is passed as an `u8`. -/
def i2cWrite (command : ℕ) (value : BitVec 8) : BitVec 8 × BitVec 8 :=
  (BitVec.ofNat 8 command, value)

variable {n : ℕ}

/-- `reply` is the result of the write. -/
def imx219SetResolution (width height reply : ℤ) : ℤ × List (BitVec 8 × BitVec 8) :=
  if width = 640 ∧ height = 480 then
    if reply < 0 then (reply, [i2cWrite 0x0160 0x01]) else (0, [i2cWrite 0x0160 0x01])
  else (-einval, [])

/-- `client` says that `cam->i2c_client` is not NULL. -/
def startStreaming (client : Bool) (reply : ℤ) (cam : CameraDev n) : Outcome n :=
  if client then
    let resolution := imx219SetResolution 640 480 reply
    if resolution.1 < 0 then ⟨resolution.1, cam, [], resolution.2⟩
    else ⟨0, { cam with streaming := true }, [], resolution.2⟩
  else ⟨-einval, cam, [], []⟩

/-- The result of the write is not looked at. -/
def stopStreaming (client : Bool) (cam : CameraDev n) : Outcome n :=
  ⟨0, { cam with streaming := false }, [], if client then [i2cWrite 0x01 0x00] else []⟩

inductive Action (n : ℕ)
  | qbuf (b : Fin n)
  | dqbuf
  | streamon (reply : ℤ)
  | streamoff (reply : ℤ)
  | interrupt (elapsed : ℕ)

/-- After a failed `start_streaming`, vb2 takes the buffers that are still ACTIVE. -/
def reclaim (q : Vb2Queue n) : Vb2Queue n :=
  { q with buf := fun b =>
      if q.state b = .active then { q.buf b with state := .queued } else q.buf b }

def handOver (s : Capture n) : Option (Capture n) :=
  s.cam.queue.queuedList.foldlM enqueueInDriver s

def streamon (client : Bool) (reply : ℤ) (s : Capture n) : Option (Capture n) :=
  if s.phase = .stopped then
    (handOver s).map (fun t =>
      let outcome := startStreaming client reply t.cam
      if outcome.ret ≠ 0 then
        { t with cam := { outcome.cam with queue := reclaim outcome.cam.queue } }
      else { t with cam := outcome.cam, phase := .started, completed := [], delivered := [] })
  else some s

def streamoff (client : Bool) (s : Capture n) : Capture n :=
  let cam := if s.phase = .started then (stopStreaming client s.cam).cam else s.cam
  { s with cam := { cam with queue := cancelQueue cam.queue }, phase := .stopped }

def step (client : Bool) (s : Capture n) : Action n → Option (Capture n)
  | .qbuf b => qbuf b s
  | .dqbuf => some (dqbuf s)
  | .streamon reply => streamon client reply s
  | .streamoff _ => some (streamoff client s)
  | .interrupt elapsed => some (interrupt elapsed s)

structure SameEffect (cam cam' : CameraDev n) : Prop where
  streaming : cam.streaming = cam'.streaming
  frameCount : cam.frameCount = cam'.frameCount
  queuedList : cam.queuedList = cam'.queuedList
  state : ∀ b, cam.queue.state b = cam'.queue.state b

/-- What vb2 requires of `start_streaming` when every ACTIVE buffer was just handed over, and
how it compares with that of camera_vb2.c. -/
structure StartHonours (client : Bool) (reply : ℤ) (cam : CameraDev n) : Prop where
  returned : (startStreaming client reply cam).ret ≠ 0 → ∀ b, cam.queue.state b = .active →
    (startStreaming client reply cam).returned.count (b, .queued) = 1
  emptied : (startStreaming client reply cam).ret ≠ 0 →
    ListEmpty (startStreaming client reply cam).cam.queuedList .head
  stopped : (startStreaming client reply cam).ret ≠ 0 →
    (startStreaming client reply cam).cam.streaming = false
  agrees : client = true → 0 ≤ reply →
    SameEffect (startStreaming client reply cam).cam (CameraCallbacks.startStreaming cam)

structure StopHonours (client : Bool) (reply : ℤ) (cam : CameraDev n) : Prop where
  returned : ∀ b, cam.queue.state b = .active →
    (stopStreaming client cam).returned.count (b, .error) = 1
  emptied : ListEmpty (stopStreaming client cam).cam.queuedList .head
  agrees : client = true → 0 ≤ reply → ∃ cam', CameraCallbacks.stopStreaming cam = some cam' ∧
    SameEffect (stopStreaming client cam).cam cam'

/-- The callback that the ioctl calls, if it calls one, honours its contract. -/
def honours (client : Bool) (s : Capture n) : Action n → Prop
  | .streamon reply => s.phase = .stopped → ∀ t, handOver s = some t →
      StartHonours client reply t.cam
  | .streamoff reply => s.phase = .started → StopHonours client reply s.cam
  | _ => True

/-- A STREAMON that fails finds no buffer queued, and a STREAMOFF comes before the first call of
`buf_queue`. -/
def spared (client : Bool) (s : Capture n) : Action n → Prop
  | .streamon reply => s.phase = .stopped → client = false ∨ reply < 0 →
      s.cam.queue.queuedList = []
  | .streamoff _ => s.phase = .started → s.calls = 0
  | _ => True

variable {client : Bool} {s t : Capture n} {a : Action n} {b : Fin n} {cam : CameraDev n}

theorem startStreaming_fails {reply : ℤ} (h : client = false ∨ reply < 0) (cam : CameraDev n) :
    (startStreaming client reply cam).ret ≠ 0 ∧ (startStreaming client reply cam).cam = cam ∧
      (startStreaming client reply cam).returned = [] := by
  cases client with
  | false =>
    have hcode : -einval ≠ 0 := by decide
    exact ⟨hcode, rfl, rfl⟩
  | true =>
    have hreply : reply < 0 := h.resolve_left (by decide)
    have hstart : startStreaming true reply cam = ⟨reply, cam, [], [i2cWrite 0x0160 0x01]⟩ := by
      simp [startStreaming, imx219SetResolution, hreply]
    rw [hstart]
    exact ⟨hreply.ne, rfl, rfl⟩

theorem startStreaming_succeeds {reply : ℤ} (h : 0 ≤ reply) (cam : CameraDev n) :
    (startStreaming true reply cam).ret = 0 ∧
      (startStreaming true reply cam).cam = { cam with streaming := true } := by
  have hreply : ¬ reply < 0 := by omega
  have hstart : startStreaming true reply cam =
      ⟨0, { cam with streaming := true }, [], [i2cWrite 0x0160 0x01]⟩ := by
    simp [startStreaming, imx219SetResolution, hreply]
  rw [hstart]
  exact ⟨rfl, rfl⟩

/-- A failing start gives nothing back. -/
theorem startHonours_fails_iff {reply : ℤ} (h : client = false ∨ reply < 0) :
    StartHonours client reply cam ↔
      (∀ b, cam.queue.state b ≠ .active) ∧ ListEmpty cam.queuedList .head ∧
        cam.streaming = false := by
  obtain ⟨hret, hcam, hreturned⟩ := startStreaming_fails h cam
  constructor
  · intro hs
    refine ⟨?_, hcam ▸ hs.emptied hret, hcam ▸ hs.stopped hret⟩
    intro b hb
    have hone := hs.returned hret b hb
    rw [hreturned] at hone
    cases hone
  · intro hs
    obtain ⟨hnone, hempty, hoff⟩ := hs
    refine ⟨fun _ b hb => absurd hb (hnone b), fun _ => ?_, fun _ => ?_, ?_⟩
    · rw [hcam]
      exact hempty
    · rw [hcam]
      exact hoff
    · intro hclient hreply
      rw [hclient] at h
      have hneg := h.resolve_left (by decide)
      omega

/-- A start that succeeds does not reset the frame counter. -/
theorem startHonours_succeeds_iff {reply : ℤ} (h : 0 ≤ reply) :
    StartHonours true reply cam ↔ cam.frameCount = 0 := by
  obtain ⟨hret, hcam⟩ := startStreaming_succeeds h cam
  constructor
  · intro hs
    have hcount := (hs.agrees rfl h).frameCount
    rw [hcam] at hcount
    exact hcount
  · intro hcount
    refine ⟨fun hr => absurd hret hr, fun hr => absurd hret hr, fun hr => absurd hret hr, ?_⟩
    intro _ _
    rw [hcam]
    exact ⟨rfl, hcount, rfl, fun _ => rfl⟩

theorem stopStreaming_empty (h : ListEmpty cam.queuedList .head) :
    CameraCallbacks.stopStreaming cam = some (CameraCallbacks.clearStreaming cam) :=
  listForEachEntrySafe_empty (s := CameraCallbacks.clearStreaming cam) h _

/-- A stop gives nothing back either. -/
theorem stopHonours_iff (client : Bool) (reply : ℤ) (cam : CameraDev n) :
    StopHonours client reply cam ↔
      (∀ b, cam.queue.state b ≠ .active) ∧ ListEmpty cam.queuedList .head := by
  constructor
  · intro hs
    refine ⟨?_, hs.emptied⟩
    intro b hb
    have hone := hs.returned b hb
    cases hone
  · intro hs
    obtain ⟨hnone, hempty⟩ := hs
    refine ⟨fun b hb => absurd hb (hnone b), hempty, ?_⟩
    intro _ _
    exact ⟨_, stopStreaming_empty hempty, rfl, rfl, rfl, fun _ => rfl⟩

/-- Before the first call of `buf_queue` everything is as `camera_queue_init` left it, and
afterwards the list is never empty again. -/
structure Inv (s : Capture n) : Prop where
  phase : s.phase ≠ .starting
  list : s.calls = 0 → s.cam.queuedList = (CameraDev.fresh n).queuedList
  frameCount : s.calls = 0 → s.cam.frameCount = 0
  inactive : s.calls = 0 → ∀ b, s.state b ≠ .active
  linked : s.calls ≠ 0 → ∃ b, s.cam.queuedList.next .head = .cell (.node b)
  stopped : s.phase = .stopped → s.calls = 0 ∧ s.cam.streaming = false
  running : s.phase = .started → s.calls = 0 → s.cam.queue.queuedList = []

theorem listEmpty_fresh (n : ℕ) : ListEmpty (CameraDev.fresh n).queuedList .head := by
  simp [ListEmpty, CameraDev.fresh, initListHead]

theorem Inv.listEmpty_iff (h : Inv s) : ListEmpty s.cam.queuedList .head ↔ s.calls = 0 := by
  constructor
  · intro hempty
    by_contra hcalls
    obtain ⟨b, hb⟩ := h.linked hcalls
    rw [ListEmpty, hb] at hempty
    cases hempty
  · intro hcalls
    rw [h.list hcalls]
    exact listEmpty_fresh n

theorem inv_initial (n : ℕ) : Inv (Capture.initial n) := by
  constructor <;> simp [Capture.initial, CameraDev.fresh, Vb2Queue.fresh, Vb2Queue.state]

/-- The links of the head after `list_add_tail`. -/
theorem enqueueInDriver_linked (hs : enqueueInDriver s b = some t)
    (hlist : s.calls = 0 → s.cam.queuedList = (CameraDev.fresh n).queuedList)
    (hlinked : s.calls ≠ 0 → ∃ c, s.cam.queuedList.next .head = .cell (.node c)) :
    t.calls = s.calls + 1 ∧ ∃ c, t.cam.queuedList.next .head = .cell (.node c) := by
  obtain ⟨cam, hcam, rfl⟩ := Option.map_eq_some_iff.mp hs
  obtain ⟨l, hl, rfl⟩ := Option.map_eq_some_iff.mp hcam
  refine ⟨rfl, ?_⟩
  simp only [listAddTail] at hl
  split at hl
  · next last hlast =>
    cases hl
    cases last with
    | head => exact ⟨b, by simp [listAdd]⟩
    | node c =>
      have hcalls : s.calls ≠ 0 := by
        intro hzero
        rw [hlist hzero] at hlast
        simp [CameraDev.fresh, initListHead] at hlast
      obtain ⟨d, hd⟩ := hlinked hcalls
      exact ⟨d, by simp [listAdd, hd]⟩
  · cases hl

/-- Handing over leaves the session alone, counts its calls and makes the buffers ACTIVE. -/
theorem handOver_linked {ws : List (Fin n)} (hs : ws.foldlM enqueueInDriver s = some t)
    (hlist : s.calls = 0 → s.cam.queuedList = (CameraDev.fresh n).queuedList)
    (hlinked : s.calls ≠ 0 → ∃ c, s.cam.queuedList.next .head = .cell (.node c)) :
    t.calls = s.calls + ws.length ∧
      (t.calls ≠ 0 → ∃ c, t.cam.queuedList.next .head = .cell (.node c)) ∧
      QueueFrame s t ∧ t.cam.streaming = s.cam.streaming ∧
      ∀ b, b ∈ ws ∨ s.state b = .active → t.state b = .active := by
  induction ws generalizing s with
  | nil =>
    cases hs
    exact ⟨rfl, hlinked, (HandedOver.refl _).frame, rfl, by simp⟩
  | cons b ws ih =>
    simp only [List.foldlM_cons, Option.bind_eq_bind, Option.bind_eq_some_iff] at hs
    obtain ⟨y, hy, ht⟩ := hs
    obtain ⟨hcalls, hhead⟩ := enqueueInDriver_linked hy hlist hlinked
    have hfirst := handedOver_enqueue hy
    obtain ⟨htotal, hlast, hframe, hstreaming, hactive⟩ := ih ht (by omega) (fun _ => hhead)
    refine ⟨by rw [htotal, hcalls, List.length_cons]; omega, hlast, hfirst.frame.trans hframe,
      hstreaming.trans hfirst.streaming, ?_⟩
    intro c hc
    apply hactive
    simp only [hfirst.state, List.mem_singleton]
    simp only [List.mem_cons] at hc
    by_cases hcb : c = b <;> simp_all

theorem inv_qbuf (h : Inv s) (hs : qbuf b s = some t) : Inv t := by
  rw [qbuf] at hs
  split at hs
  · cases hs
    exact h
  · dsimp only at hs
    split at hs
    · next hp =>
      obtain ⟨hcalls, hhead⟩ := enqueueInDriver_linked hs h.list h.linked
      have hphase : t.phase = .started := (handedOver_enqueue hs).phase.trans hp
      constructor
      · simp [hphase]
      · intro hzero
        omega
      · intro hzero
        omega
      · intro hzero
        omega
      · exact fun _ => hhead
      · intro hstopped
        rw [hphase] at hstopped
        cases hstopped
      · intro _ hzero
        omega
    · next hp =>
      cases hs
      refine ⟨h.phase, h.list, h.frameCount, ?_, h.linked, h.stopped, fun hon => absurd hon hp⟩
      intro hzero c
      simp only [Capture.state, state_queueBuffer]
      split
      · simp
      · exact h.inactive hzero c

theorem inv_dqbuf (h : Inv s) : Inv (dqbuf s) := by
  rw [dqbuf]
  split
  · split
    · exact h
    · next b rest hdone =>
      refine ⟨h.phase, h.list, h.frameCount, ?_, h.linked, h.stopped, ?_⟩
      · intro hzero c
        simp only [Capture.state, state_dequeueBuffer]
        split
        · simp
        · exact h.inactive hzero c
      · intro hon hzero
        simp [dequeueBuffer, h.running hon hzero]
  · exact h

/-- Before the first call of `buf_queue` an interrupt finds nothing to complete. -/
theorem inv_interrupt (h : Inv s) (elapsed : ℕ) : Inv (interrupt elapsed s) := by
  have hcases := CameraCallbacks.cameraIrqHandler_cases (s.clock + elapsed) s.cam
  have hidle : s.calls = 0 →
      CameraCallbacks.cameraIrqHandler (s.clock + elapsed) s.cam = s.cam := by
    intro hzero
    have hlists : s.cam.streaming = false ∨ s.cam.queue.queuedList = [] := by
      cases hp : s.phase with
      | stopped => exact .inl (h.stopped hp).2
      | starting => exact absurd hp h.phase
      | started => exact .inr (h.running hp hzero)
    rw [CameraCallbacks.cameraIrqHandler]
    cases hlists with
    | inl hoff => simp [hoff]
    | inr hnil =>
      rw [hnil]
      split <;> rfl
  have hframe : (CameraCallbacks.cameraIrqHandler (s.clock + elapsed) s.cam).queuedList =
        s.cam.queuedList ∧
      (CameraCallbacks.cameraIrqHandler (s.clock + elapsed) s.cam).streaming =
        s.cam.streaming := by
    rcases hcases with ⟨-, -, hsame⟩ | ⟨b, rest, -, -, -, -, hdone⟩ | ⟨b, rest, -, -, -, -, hdone⟩
    · rw [hsame]
      exact ⟨rfl, rfl⟩
    · rw [hdone]
      exact ⟨rfl, rfl⟩
    · rw [hdone]
      exact ⟨rfl, rfl⟩
  refine ⟨h.phase, ?_, ?_, ?_, ?_, ?_, ?_⟩
  · intro hzero
    exact hframe.1.trans (h.list hzero)
  · intro hzero
    exact (congrArg CameraDev.frameCount (hidle hzero)).trans (h.frameCount hzero)
  · intro hzero b
    have hstate := h.inactive hzero b
    rwa [Capture.state, ← hidle hzero] at hstate
  · intro hcalls
    obtain ⟨b, hb⟩ := h.linked hcalls
    exact ⟨b, (congrArg (fun l => l.next Cell.head) hframe.1).trans hb⟩
  · intro hp
    exact ⟨(h.stopped hp).1, hframe.2.trans (h.stopped hp).2⟩
  · intro hp hzero
    exact (congrArg (fun cam => cam.queue.queuedList) (hidle hzero)).trans (h.running hp hzero)

theorem handOver_nil (h : s.cam.queue.queuedList = []) : handOver s = some s := by
  rw [handOver, h]
  rfl

theorem reclaim_inactive {q : Vb2Queue n} (h : ∀ b, q.state b ≠ .active) : reclaim q = q := by
  rw [reclaim]
  congr 1
  funext b
  exact if_neg (h b)

theorem streamon_fails {reply : ℤ} (hp : s.phase = .stopped) (hf : client = false ∨ reply < 0)
    (hs : streamon client reply s = some t) :
    ∃ y, handOver s = some y ∧
      t = { y with cam := { y.cam with queue := reclaim y.cam.queue } } := by
  rw [streamon, if_pos hp] at hs
  obtain ⟨y, hy, rfl⟩ := Option.map_eq_some_iff.mp hs
  obtain ⟨hret, hcam, -⟩ := startStreaming_fails hf y.cam
  refine ⟨y, hy, ?_⟩
  simp only [if_pos hret, hcam]

theorem streamon_succeeds {reply : ℤ} (hp : s.phase = .stopped) (hr : 0 ≤ reply)
    (hs : streamon true reply s = some t) :
    ∃ y, handOver s = some y ∧ t = { y with
      cam := { y.cam with streaming := true }, phase := .started, completed := [],
      delivered := [] } := by
  rw [streamon, if_pos hp] at hs
  obtain ⟨y, hy, rfl⟩ := Option.map_eq_some_iff.mp hs
  obtain ⟨hret, hcam⟩ := startStreaming_succeeds hr y.cam
  refine ⟨y, hy, ?_⟩
  simp only [hret, hcam, ne_eq, not_true_eq_false, if_false]

theorem outcome_cases (client : Bool) (reply : ℤ) :
    (client = false ∨ reply < 0) ∨ (client = true ∧ 0 ≤ reply) := by
  cases client with
  | false => exact .inl (.inl rfl)
  | true =>
    cases Int.lt_or_le reply 0 with
    | inl hneg => exact .inl (.inr hneg)
    | inr hpos => exact .inr ⟨rfl, hpos⟩

theorem inv_streamon {reply : ℤ} (h : Inv s) (hok : spared client s (.streamon reply))
    (hs : streamon client reply s = some t) : Inv t := by
  by_cases hp : s.phase = .stopped
  · cases outcome_cases client reply with
    | inl hf =>
      obtain ⟨y, hy, rfl⟩ := streamon_fails hp hf hs
      rw [handOver_nil (hok hp hf)] at hy
      cases hy
      have hnone := h.inactive (h.stopped hp).1
      rw [reclaim_inactive hnone]
      exact h
    | inr hsuccess =>
      obtain ⟨rfl, hr⟩ := hsuccess
      obtain ⟨y, hy, rfl⟩ := streamon_succeeds hp hr hs
      obtain ⟨hcalls, hlinked, hframe, -, -⟩ := handOver_linked hy h.list h.linked
      -- without a call of `buf_queue` there was no buffer to hand over
      have hsame : y.calls = 0 → s.cam.queue.queuedList = [] ∧ y = s := by
        intro hzero
        have hnil := List.eq_nil_of_length_eq_zero (by omega : s.cam.queue.queuedList.length = 0)
        rw [handOver_nil hnil] at hy
        exact ⟨hnil, (Option.some.inj hy).symm⟩
      refine ⟨by simp, ?_, ?_, ?_, hlinked, ?_, ?_⟩
      · intro hzero
        obtain ⟨-, rfl⟩ := hsame hzero
        exact h.list hzero
      · intro hzero
        obtain ⟨-, rfl⟩ := hsame hzero
        exact h.frameCount hzero
      · intro hzero
        obtain ⟨-, rfl⟩ := hsame hzero
        exact h.inactive hzero
      · intro hstopped
        cases hstopped
      · intro _ hzero
        obtain ⟨hnil, rfl⟩ := hsame hzero
        exact hnil
  · rw [streamon, if_neg hp] at hs
    cases hs
    exact h

theorem inv_streamoff (reply : ℤ) (h : Inv s) (hok : spared client s (.streamoff reply)) :
    Inv (streamoff client s) := by
  have hzero : s.calls = 0 := by
    cases hp : s.phase with
    | stopped => exact (h.stopped hp).1
    | starting => exact absurd hp h.phase
    | started => exact hok hp
  have hcam : (streamoff client s).cam.queuedList = s.cam.queuedList ∧
      (streamoff client s).cam.frameCount = s.cam.frameCount ∧
      (streamoff client s).cam.streaming = false := by
    rw [streamoff]
    by_cases hp : s.phase = .started
    · simp [hp, stopStreaming]
    · have hstopped : s.phase = .stopped := by
        cases hs : s.phase with
        | stopped => rfl
        | starting => exact absurd hs h.phase
        | started => exact absurd hs hp
      simp [hp, (h.stopped hstopped).2]
  refine ⟨by simp [streamoff], fun _ => hcam.1.trans (h.list hzero),
    fun _ => hcam.2.1.trans (h.frameCount hzero), ?_, fun hcalls => absurd hzero hcalls,
    fun _ => ⟨hzero, hcam.2.2⟩, fun hp => by cases hp⟩
  intro _ b
  have hstate : (streamoff client s).state b = .dequeued := rfl
  rw [hstate]
  simp

theorem inv_step (h : Inv s) (hok : spared client s a) (hs : step client s a = some t) :
    Inv t := by
  cases a with
  | qbuf b => exact inv_qbuf h hs
  | dqbuf =>
    cases hs
    exact inv_dqbuf h
  | streamon reply => exact inv_streamon h hok hs
  | streamoff reply =>
    cases hs
    exact inv_streamoff reply h hok
  | interrupt elapsed =>
    cases hs
    exact inv_interrupt h elapsed

theorem honours_streamon_iff {reply : ℤ} (h : Inv s) (hs : streamon client reply s = some t) :
    honours client s (.streamon reply) ↔ spared client s (.streamon reply) := by
  by_cases hp : s.phase = .stopped
  · have hzero := (h.stopped hp).1
    cases outcome_cases client reply with
    | inl hf =>
      obtain ⟨y, hy, -⟩ := streamon_fails hp hf hs
      constructor
      · intro hon _ _
        obtain ⟨-, -, -, -, hactive⟩ := handOver_linked hy h.list h.linked
        have hnone := ((startHonours_fails_iff hf).mp (hon hp y hy)).1
        refine List.eq_nil_iff_forall_not_mem.mpr (fun b hb => ?_)
        exact hnone b (hactive b (.inl hb))
      · intro hok _ y' hy'
        rw [handOver_nil (hok hp hf)] at hy'
        cases hy'
        exact (startHonours_fails_iff hf).mpr
          ⟨h.inactive hzero, h.listEmpty_iff.mpr hzero, (h.stopped hp).2⟩
    | inr hsuccess =>
      obtain ⟨rfl, hr⟩ := hsuccess
      refine iff_of_true ?_ ?_
      · intro _ y hy
        obtain ⟨-, -, hframe, -, -⟩ := handOver_linked hy h.list h.linked
        exact (startHonours_succeeds_iff hr).mpr (hframe.frameCount.trans (h.frameCount hzero))
      · intro _ hf
        have hneg := hf.resolve_left (by decide)
        omega
  · exact iff_of_true (fun hstopped => absurd hstopped hp) (fun hstopped => absurd hstopped hp)

theorem honours_iff (h : Inv s) (hs : step client s a = some t) :
    honours client s a ↔ spared client s a := by
  cases a with
  | qbuf b | dqbuf | interrupt elapsed => exact Iff.rfl
  | streamon reply => exact honours_streamon_iff h hs
  | streamoff reply =>
    constructor
    · intro hon hp
      exact h.listEmpty_iff.mp ((stopHonours_iff client reply s.cam).mp (hon hp)).2
    · intro hok hp
      have hzero := hok hp
      exact (stopHonours_iff client reply s.cam).mpr
        ⟨h.inactive hzero, h.listEmpty_iff.mpr hzero⟩

/-- The runs in which every call of a callback honours its contract are those in which none of
them has a buffer to give back. -/
theorem callbacks_run_iff (client : Bool) (n : ℕ) (as : List (Action n)) (s : Capture n) :
    Run (Within (honours client) (Steps (step client))) (.initial n) as s ↔
      Run (Within (spared client) (Steps (step client))) (.initial n) as s := by
  apply run_within_iff Inv (inv_initial n)
  · exact fun _ _ _ h hok hs => inv_step h hok hs
  · exact fun _ _ _ h hs => honours_iff h hs

/-- One buffer is queued, and the write to the sensor fails. -/
theorem start_keeps_buffer : ¬ ∀ (client : Bool) (n : ℕ) (as : List (Action n)) (s : Capture n),
    Run (Steps (step client)) (.initial n) as s →
    Run (Within (honours client) (Steps (step client))) (.initial n) as s := by
  intro hall
  let as : List (Action 1) := [.qbuf 0, .streamon (-5)]
  have run : (follow (step true) (.initial 1) as).isSome := by decide
  obtain ⟨s, hs⟩ := Option.isSome_iff_exists.mp run
  have hrun := hall true 1 as s (run_steps_iff.mpr hs)
  obtain ⟨y, hfirst, hrest⟩ := run_cons_iff.mp hrun
  obtain ⟨z, hsecond, -⟩ := run_cons_iff.mp hrest
  have hy : qbuf 0 (Capture.initial 1) = some y := hfirst.2
  have hspared := (honours_iff (inv_qbuf (inv_initial 1) hy) hsecond.2).mp hsecond.1
  have hqueued : y.phase = .stopped ∧ y.cam.queue.queuedList = [0] := by
    cases hy
    exact ⟨rfl, rfl⟩
  have hnil := hspared hqueued.1 (.inr (by decide))
  rw [hqueued.2] at hnil
  cases hnil

end CameraDrivers.MainCallbacks
