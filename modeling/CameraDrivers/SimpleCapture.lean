import CameraDrivers.CapabilityIoctls
import CameraDrivers.FramePayload
import CameraDrivers.TangledSessions

/-!
# The capture program of the test directory on the driver

`main` of test/simple_capture.c with the functions it calls, one system call for each step,
between frame interrupts at any time. The program maps and queues the `n` buffers that
REQBUFS gave it, captures its frames in a loop, and stops. A step is `none` when the kernel
crashes in it or never leaves it: on a bad list pointer, on the NULL that `video_drvdata` may
give, and on `done_lock`, which `vb2_buffer_done` takes while the handler holds it. Every other
lock is free when it is taken, as the steps are whole callbacks and whole interrupts.
-/
namespace CameraDrivers.SimpleCapture
open ReaddedCells CameraState CameraCallbacks TransitionRuns CaptureRuns TangledSessions
open FormatIoctls (V4l2Format)

/-- The next system call of the program; `failed` is its exit with EXIT_FAILURE. -/
inductive Pc (n : ℕ)
  | querycap | sFmt | reqbufs
  | mapBuffer (i : ℕ)
  | queueBuffer (i : ℕ)
  | streamon | streamonStarted
  | dequeue (i : ℕ)
  | requeue (i : ℕ) (b : Fin n)
  | streamoff
  | unmap (i : ℕ)
  | closed | failed
  deriving DecidableEq

/-- What `capture_frame` prints about a frame and writes to its file. -/
structure Frame (n : ℕ) where
  number : ℕ
  index : Fin n
  bytesused : ℕ
  deriving DecidableEq

/-- `drvdata` is what `video_drvdata` gives, here with the `current_fmt` of the device. It is NULL
as long as nobody calls `video_set_drvdata`. -/
structure Program (n : ℕ) where
  driver : Monitored n
  drvdata : Option V4l2Format
  pc : Pc n
  mapped : List (ℕ × ℕ)
  frames : List (Frame n)

/-- A system call of the program returns, or fails with EINTR, or its mmap fails. -/
inductive Event
  | call | eintr | mmapFails
  | interrupt (elapsed : ℕ)
  deriving DecidableEq

/-- The argument of S_FMT: 640x480 in YUYV, the rest cleared. -/
def request : V4l2Format where
  type := 1
  pix := ⟨640, 480, FormatIoctls.cameraFmt, 0, 0, 0, 0, 0, 0, 0, 0, 0⟩
  rest := 0

/-- What QUERYBUF reports: the size that `queue_setup` asked for, in whole pages. -/
def bufferLength : ℕ :=
  ((FramePayload.queueSetup 0 (fun _ => 0)).2.2 0).toNat.add 4095 / 4096 * 4096

def hasCapability (cap : CapabilityIoctls.V4l2Capability) (flag : BitVec 32) : Bool :=
  cap.capabilities &&& flag ≠ 0

variable {n : ℕ}

def Program.start (n : ℕ) (drvdata : Option V4l2Format) : Program n :=
  ⟨.initial n, drvdata, .querycap, [], []⟩

/-- The head of the loop in `main`, with `num_frames`. -/
def loopHead (numFrames i : ℕ) : Pc n := if i < numFrames then .dequeue i else .streamoff

/-- A step of the driver, after which the program is at `pc`. -/
def Program.drive (s : Program n) (a : Action n) (pc : Pc n) : Option (Program n) :=
  (TangledSessions.next s.driver a).map (fun driver => { s with driver := driver, pc := pc })

def call (numFrames : ℕ) (cap : CapabilityIoctls.V4l2Capability) (s : Program n) :
    Option (Program n) :=
  match s.pc with
  | .querycap =>
    let answer := (CapabilityIoctls.querycap 0 0 cap).2
    if hasCapability answer CapabilityIoctls.capVideoCapture &&
        hasCapability answer CapabilityIoctls.capStreaming then
      some { s with pc := .sFmt }
    else some { s with pc := .failed }
  | .sFmt =>
    match s.drvdata with
    | some currentFmt =>
      let answer := FormatIoctls.sFmt currentFmt request
      some { s with
        drvdata := some answer.2.2
        pc := if answer.1 < 0 then .failed else .reqbufs }
    -- the format is looked at first, then copied to `&cam->current_fmt`
    | none => if (FormatIoctls.tryFmt request).1 < 0 then some { s with pc := .failed } else none
  | .reqbufs => some { s with pc := if n < 2 then .failed else .mapBuffer 0 }
  | .mapBuffer i => some { s with
      mapped := s.mapped ++ [(i, bufferLength)]
      pc := if i + 1 < n then .mapBuffer (i + 1) else .queueBuffer 0 }
  | .queueBuffer i =>
    if h : i < n then
      s.drive (.qbuf ⟨i, h⟩) (if i + 1 < n then .queueBuffer (i + 1) else .streamon)
    else some s
  | .streamon => s.drive .streamon .streamonStarted
  | .streamonStarted => s.drive .startReset (loopHead numFrames 0)
  | .dequeue i =>
    match s.driver.capture.cam.queue.doneList with
    | [] => some s
    | b :: _ =>
      let frame : Frame n := ⟨i + 1, b, (s.driver.capture.cam.queue.buf b).payload⟩
      { s with frames := s.frames ++ [frame] }.drive .dqbuf (.requeue i b)
  | .requeue i b => s.drive (.qbuf b) (loopHead numFrames (i + 1))
  | .streamoff => s.drive .streamoff (.unmap 0)
  | .unmap i => some { s with
      mapped := s.mapped.erase (i, bufferLength)
      pc := if i + 1 < n then .unmap (i + 1) else .closed }
  | .closed => some s
  | .failed => some s

/-- A frame interrupt. Where a CPU that finds a lock held `spins`, as on SMP, the handler that
completes a buffer waits for the lock it holds. -/
def frameInterrupt (spins : Bool) (elapsed : ℕ) (s : Program n) : Option (Program n) :=
  if spins && (completes s.driver.capture.cam).isSome then none
  else s.drive (.interrupt elapsed) s.pc

/-- DQBUF with nothing to dequeue waits, and so does nothing. -/
def next (spins : Bool) (numFrames : ℕ) (cap : CapabilityIoctls.V4l2Capability)
    (s : Program n) : Event → Option (Program n)
  | .call => call numFrames cap s
  | .eintr => some s
  | .mmapFails =>
    match s.pc with
    | .mapBuffer _ => some { s with pc := .failed }
    | _ => some s
  | .interrupt elapsed => frameInterrupt spins elapsed s

section Turns

variable [NeZero n] {i j k : ℕ}

/-- The buffers in turn. -/
def turn (i : ℕ) : Fin n := Fin.ofNat n i

/-- The history of the driver's list after `k` calls of `buf_queue` for the buffers in turn. -/
def turns (k : ℕ) : History (Cell n) := addAll .clean ((List.range k).map turn)

theorem turn_eq_iff : (turn i : Fin n) = turn j ↔ i % n = j % n := Fin.ext_iff

theorem turn_ne (hij : i < j) (hjn : j < i + n) : (turn i : Fin n) ≠ turn j := by
  intro he
  have hdvd : n ∣ j - i := (Nat.modEq_iff_dvd' hij.le).mp (turn_eq_iff.mp he)
  have hle := Nat.le_of_dvd (by omega) hdvd
  omega

theorem turn_add (i : ℕ) : (turn (i + n) : Fin n) = turn i := by
  rw [turn_eq_iff, Nat.add_mod_right]

theorem turns_succ (k : ℕ) :
    (turns (k + 1) : History (Cell n)) = (turns k).add (.node (turn k)) := by
  simp [turns, addAll_eq, List.range_succ, History.add]

theorem turns_added (k : ℕ) :
    (turns k : History (Cell n)).added = (List.range k).map (fun i => .node (turn i)) := by
  simp [turns, addAll_eq, History.clean]

theorem turns_first (k : ℕ) : (turns (k + 1) : History (Cell n)).first = some (.node (turn 0)) := by
  induction k with
  | zero => rfl
  | succ k ih => rw [turns_succ, History.first_add, ih, Option.getD_some]

theorem turns_last (k : ℕ) : (turns (k + 1) : History (Cell n)).last = some (.node (turn k)) := by
  rw [turns_succ, History.last_add]

theorem mem_turns (k : ℕ) : Cell.node (turn 0) ∈ (turns (k + 1) : History (Cell n)).added := by
  rw [turns_added]
  exact List.mem_map.mpr ⟨0, by simp, rfl⟩

/-- The path of the first round: the buffers in order. -/
theorem turns_path_first (hk : k < n) : (turns (k + 1) : History (Cell n)).path =
    (List.range (k + 1)).map (fun i => .node (turn i)) := by
  induction k with
  | zero =>
    have hadded : (turns 1 : History (Cell n)).added = [] ++ [.node (turn 0)] := by
      simp [turns_added]
    rw [History.path_eq (turns_first 0), hadded, beyond_concat_self]
    rfl
  | succ k ih =>
    rw [turns_succ, History.path_add (turns_first k) (mem_turns k), ih (by omega),
      visit_of_notMem, List.range_succ (n := k + 1)]
    · simp
    · simp only [List.mem_map, List.mem_range, Cell.node.injEq, not_exists, not_and]
      intro i hi
      exact turn_ne hi (by omega)

theorem succ_mod (hz : (j + 1) % n ≠ 0) : (j + 1) % n = j % n + 1 := by
  have hlt := Nat.mod_lt j (Nat.pos_of_neZero n)
  have hj : j + 1 = (j % n + 1) + n * (j / n) := by
    have hdiv := Nat.mod_add_div j n
    omega
  rw [hj, Nat.add_mul_mod_self_left] at hz ⊢
  by_cases he : j % n + 1 = n
  · rw [he, Nat.mod_self] at hz
    exact absurd rfl hz
  · exact Nat.mod_eq_of_lt (by omega)

theorem visit_turn_zero (m : ℕ) :
    visit ((List.range (m + 1)).map (fun i => Cell.node (turn i : Fin n))) (.node (turn 0)) =
      [.node (turn 0)] := by
  rw [List.range_succ_eq_map, List.map_cons, ← List.nil_append (_ :: _),
    visit_append_cons (by simp), List.nil_append]

/-- Later the path ends at the buffer that was added last. -/
theorem turns_path (j : ℕ) : (turns (n + j + 1) : History (Cell n)).path =
    (List.range (j % n + 1)).map (fun i => .node (turn i)) := by
  obtain ⟨m, hm⟩ : ∃ m, n = m + 1 := Nat.exists_eq_succ_of_ne_zero (NeZero.ne n)
  have hstep : ∀ k, (turns (n + k + 1) : History (Cell n)).path =
      visit (turns (n + k)).path (.node (turn k)) := by
    intro k
    have hk : n + k = m + k + 1 := by omega
    rw [turns_succ, Nat.add_comm n k, turn_add, Nat.add_comm k n, hk,
      History.path_add (turns_first _) (mem_turns _)]
  induction j with
  | zero =>
    have hround : (turns n : History (Cell n)) = turns (m + 1) := by rw [← hm]
    rw [hstep 0, Nat.add_zero, hround, turns_path_first (by omega), visit_turn_zero, Nat.zero_mod]
    rfl
  | succ j ih =>
    rw [hstep (j + 1), ← Nat.add_assoc, ih]
    by_cases hz : (j + 1) % n = 0
    · have hturn : (turn (j + 1) : Fin n) = turn 0 := by rw [turn_eq_iff, hz, Nat.zero_mod]
      rw [hturn, visit_turn_zero, hz]
      rfl
    · have hmod := succ_mod hz
      have hlt := Nat.mod_lt (j + 1) (Nat.pos_of_neZero n)
      have hturn : (turn (j + 1) : Fin n) = turn (j % n + 1) := by
        rw [turn_eq_iff, Nat.mod_add_mod]
      rw [hturn, visit_of_notMem, hmod, List.range_succ (n := j % n + 1)]
      · simp
      · simp only [List.mem_map, List.mem_range, Cell.node.injEq, not_exists, not_and]
        intro i hi
        exact turn_ne hi (by omega)

theorem turns_looped (k : ℕ) : (turns (k + 2) : History (Cell n)).looped = decide (n = 1) := by
  rw [turns_succ, History.looped_add, turns_last]
  congr 1
  rw [Option.some.injEq, Cell.node.injEq, turn_eq_iff, eq_iff_iff]
  have hn := Nat.pos_of_neZero n
  constructor
  · intro he
    by_contra hne
    exact turn_ne (n := n) (i := k) (j := k + 1) (by omega) (by omega) (turn_eq_iff.mpr he)
  · rintro rfl
    simp [Nat.mod_one]

theorem turn_pred_of_dvd (hj : n ∣ j + 1) : (turn j : Fin n) = turn (n - 1) := by
  have hn := Nat.pos_of_neZero n
  obtain ⟨q, hq⟩ := hj
  obtain ⟨p, rfl⟩ : ∃ p, q = p + 1 := Nat.exists_eq_succ_of_ne_zero (by
    rintro rfl
    simp at hq)
  have hsplit : j = n - 1 + n * p := by
    rw [Nat.mul_succ] at hq
    omega
  rw [turn_eq_iff, hsplit, Nat.add_mul_mod_self_left]

theorem turns_pred_first (hk : k < n) :
    (turns (k + 1) : History (Cell n)).pred (.node (turn 0)) = none := by
  induction k with
  | zero =>
    rw [turns_succ, History.pred_add_self]
    rfl
  | succ k ih =>
    have hne : (Cell.node (turn (k + 1)) : Cell n) ≠ .node (turn 0) :=
      fun he => turn_ne (Nat.succ_pos k) (by omega) (Cell.node.inj he).symm
    rw [turns_succ, History.pred_add_of_ne _ hne, ih (by omega)]

/-- The cell before the first one, once that was added again. -/
theorem turns_pred (j : ℕ) : (turns (n + j + 1) : History (Cell n)).pred (.node (turn 0)) =
    some (.node (turn (n - 1))) := by
  have hn := Nat.pos_of_neZero n
  have hlast : ∀ i, (turns (n + i) : History (Cell n)).last = some (.node (turn (n + i - 1))) := by
    intro i
    have hsucc : n + i = n + i - 1 + 1 := by omega
    conv_lhs => rw [hsucc]
    exact turns_last _
  have hshift : ∀ i, (turn (n + i) : Fin n) = turn i := fun i => by rw [Nat.add_comm, turn_add]
  induction j with
  | zero =>
    have hzero : (turn n : Fin n) = turn 0 := hshift 0
    rw [Nat.add_zero, turns_succ, hzero, History.pred_add_self]
    exact hlast 0
  | succ j ih =>
    rw [turns_succ, hshift]
    by_cases hz : n ∣ j + 1
    · have hturn : (turn (j + 1) : Fin n) = turn 0 := by
        rw [turn_eq_iff, Nat.mod_eq_zero_of_dvd hz, Nat.zero_mod]
      have hback : n + (j + 1) - 1 = n + j := by omega
      rw [hturn, History.pred_add_self, hlast, hback, hshift, turn_pred_of_dvd hz]
    · have hne : (Cell.node (turn (j + 1)) : Cell n) ≠ .node (turn 0) := by
        intro he
        rw [Cell.node.injEq, turn_eq_iff, Nat.zero_mod] at he
        exact hz (Nat.dvd_of_mod_eq_zero he)
      rw [History.pred_add_of_ne _ hne, ← Nat.add_assoc, ih]

theorem turn_mem_tail_iff (m : ℕ) (hm : m < n) (h2 : 2 ≤ n) :
    Cell.node (turn (n - 1) : Fin n) ∈
      ((List.range (m + 1)).map (fun i => Cell.node (turn i : Fin n))).tail ↔ m = n - 1 := by
  rw [List.range_succ_eq_map, List.map_cons, List.tail_cons, List.map_map]
  simp only [List.mem_map, List.mem_range, Function.comp_apply, Cell.node.injEq]
  constructor
  · rintro ⟨i, hi, he⟩
    by_contra hne
    exact turn_ne (by omega) (by omega) he
  · rintro rfl
    exact ⟨n - 2, by omega, by congr 1; omega⟩

/-- The drain after `j` more calls than there are buffers. -/
theorem turns_drainable (j : ℕ) : (turns (n + j) : History (Cell n)).drainable = false ↔
    0 < j ∧ n ∣ j := by
  have hn := Nat.pos_of_neZero n
  obtain ⟨m, hm⟩ : ∃ m, n = m + 1 := Nat.exists_eq_succ_of_ne_zero (NeZero.ne n)
  cases j with
  | zero =>
    have hround : (turns (n + 0) : History (Cell n)) = turns (m + 1) := by rw [Nat.add_zero, ← hm]
    rw [hround, History.not_drainable_iff (turns_first m), turns_pred_first (by omega)]
    have hloop : (turns (m + 1) : History (Cell n)).looped = false := by
      cases m with
      | zero =>
        rw [turns_succ, History.looped_add]
        rfl
      | succ m =>
        rw [turns_looped]
        simpa using fun he => by omega
    simp [hloop, mem_turns]
  | succ j =>
    have hsplit : n + (j + 1) = m + j + 2 := by omega
    have hloop : (turns (n + (j + 1)) : History (Cell n)).looped = decide (n = 1) := by
      rw [hsplit, turns_looped]
    have hfirst := turns_first (n := n) (n + j)
    rw [Nat.add_assoc] at hfirst
    have hmem := mem_turns (n := n) (n + j)
    rw [Nat.add_assoc] at hmem
    have hpred := turns_pred (n := n) j
    have hpath := turns_path (n := n) j
    rw [Nat.add_assoc] at hpred hpath
    rw [History.not_drainable_iff hfirst, hloop, hpred, hpath]
    by_cases h1 : n = 1
    · simp [h1]
    · have htail := turn_mem_tail_iff (n := n) (j % n) (Nat.mod_lt _ hn) (by omega)
      simp only [hmem, not_true_eq_false, decide_eq_true_eq, h1, false_or, Option.some.injEq,
        exists_eq_left', htail, Nat.succ_pos, true_and]
      constructor
      · intro he
        by_contra hz
        have hmod := succ_mod (n := n) (j := j) (fun hz' => hz (Nat.dvd_of_mod_eq_zero hz'))
        have hlt := Nat.mod_lt (j + 1) hn
        omega
      · intro hz
        have hturn := turn_eq_iff.mp (turn_pred_of_dvd hz)
        rwa [Nat.mod_eq_of_lt (by omega : n - 1 < n)] at hturn

end Turns

section Program

variable [NeZero n] {m m' : Monitored n} {phase : Phase} {first count : ℕ} {a : Action n}
  {t : Capture n}

structure Kept (s : Capture n) (h : History (Cell n)) : Prop where
  sound : ∃ xs, Sound s xs
  follow : Follow s h
  empty : FramePayload.Empty s

/-- vb2's list holds `count` buffers in turn, and while the queue streams the driver was given
all buffers up to the last of them. -/
structure Standing (m : Monitored n) (phase : Phase) (first count : ℕ) : Prop where
  kept : Kept m.capture m.history
  phase_eq : m.capture.phase = phase
  queued : m.capture.cam.queue.queuedList = (List.range' first count).map turn
  history : m.history = if phase = .stopped then .clean else turns (first + count)

omit [NeZero n] in
theorem Kept.next (h : Kept m.capture m.history) (hs : step m.capture a = some t) :
    TangledSessions.next m a = some ⟨t, record m.capture m.history a⟩ ∧
      Kept t (record m.capture m.history a) := by
  exact ⟨by simp [TangledSessions.next, hs], sound_step h.sound hs, follow_of_step h.follow hs,
    FramePayload.empty_step h.empty hs⟩

theorem standing_initial : Standing (Monitored.initial n) .stopped 0 0 where
  kept := ⟨⟨[], sound_initial n⟩, tangled_initListHead _ _, fun _ => rfl⟩
  phase_eq := rfl
  queued := rfl
  history := rfl

theorem Standing.off (h : Standing m .stopped first count) :
    m.capture.cam.streaming = false := by
  obtain ⟨xs, hs⟩ := h.kept.sound
  have hiff := hs.streaming_iff
  simpa [h.phase_eq] using hiff

/-- With all buffers queued and none completed, an interrupt completes the first of them. -/
theorem Standing.completes (h : Standing m phase first n) (hp : phase ≠ .stopped)
    (hd : m.capture.cam.queue.doneList = []) :
    (completes m.capture.cam).isSome = true := by
  obtain ⟨xs, hs⟩ := h.kept.sound
  have hphase : m.capture.phase ≠ .stopped := h.phase_eq ▸ hp
  obtain ⟨b, rest, hq⟩ : ∃ b rest, m.capture.cam.queue.queuedList = b :: rest := by
    refine List.exists_cons_of_ne_nil ?_
    simp [h.queued, NeZero.ne n]
  rcases hs.head hphase hq with ⟨hb, -, -⟩ | ⟨-, ds, hdone⟩
  · simp [CameraCallbacks.completes, hs.streaming_iff.mpr hphase, hq, hb]
  · rw [hd] at hdone
    cases hdone

theorem Standing.interrupt (h : Standing m phase first count) (elapsed : ℕ) :
    ∃ m', TangledSessions.next m (.interrupt elapsed) = some m' ∧
      Standing m' phase first count := by
  obtain ⟨hn, hkept⟩ := h.kept.next (a := .interrupt elapsed) rfl
  have hlist : (CaptureRuns.interrupt elapsed m.capture).cam.queue.queuedList =
      m.capture.cam.queue.queuedList := by
    rcases cameraIrqHandler_cases (m.capture.clock + elapsed) m.capture.cam with ⟨-, -, hi⟩ |
        ⟨b, _, -, -, -, -, hi⟩ | ⟨b, _, -, -, -, -, hi⟩
    all_goals simp [CaptureRuns.interrupt, hi, advanceFrameCount, completeBuffer, stampBuffer]
  have hrecord : record m.capture m.history (.interrupt elapsed) = m.history := by
    simp [record, handed, addAll]
  rw [hrecord] at hn hkept
  exact ⟨_, hn, hkept, h.phase_eq, hlist.trans h.queued, h.history⟩

/-- The next buffer in turn is not with vb2. -/
theorem Standing.next_free (h : Standing m phase first count) (hc : count < n) :
    m.capture.state (turn (first + count)) = .dequeued := by
  obtain ⟨xs, hs⟩ := h.kept.sound
  have hfree : turn (first + count) ∉ m.capture.cam.queue.queuedList := by
    rw [h.queued]
    simp only [List.mem_map, List.mem_range'_1, not_exists, not_and]
    rintro i ⟨hlo, hhi⟩
    exact turn_ne hhi (by omega)
  by_contra hne
  exact hfree ((hs.queued_iff _).mpr hne)

theorem turn_range'_succ (first count : ℕ) : (List.range' first (count + 1)).map (turn (n := n)) =
    (List.range' first count).map turn ++ [turn (first + count)] := by
  rw [List.range'_concat, List.map_append, Nat.one_mul]
  rfl

theorem Standing.qbuf (h : Standing m phase first count) (hc : count < n)
    (hp : phase ≠ .starting) :
    ∃ m', TangledSessions.next m (.qbuf (turn (first + count))) = some m' ∧
      Standing m' phase first (count + 1) := by
  have hb := h.next_free hc
  obtain ⟨t, ht, -⟩ := qbuf_follows h.kept.follow (turn (first + count))
  obtain ⟨hn, hkept⟩ := h.kept.next (a := .qbuf _) ht
  obtain ⟨hlist, hphase⟩ := qbuf_queued (h.phase_eq ▸ hp) hb ht
  refine ⟨_, hn, hkept, hphase.trans h.phase_eq, ?_, ?_⟩
  · rw [hlist, h.queued, turn_range'_succ]
  · have hh := h.history
    rw [record_eq (by simp), handed]
    cases hph : phase with
    | stopped => simpa [hph, h.phase_eq, addAll] using hh
    | starting => exact absurd hph hp
    | started =>
      have hnext : first + (count + 1) = first + count + 1 := rfl
      simp only [hph, reduceCtorEq, if_false] at hh ⊢
      rw [if_pos ⟨h.phase_eq.trans hph, hb⟩, hh, hnext, turns_succ]
      rfl

theorem Standing.streamon (h : Standing m .stopped 0 count) :
    ∃ m', TangledSessions.next m .streamon = some m' ∧ Standing m' .starting 0 count := by
  obtain ⟨t, ht, -⟩ := streamon_follows h.kept.follow
  obtain ⟨hn, hkept⟩ := h.kept.next (a := .streamon) ht
  obtain ⟨xs, hs⟩ := h.kept.sound
  obtain ⟨z, hz, rfl⟩ := streamon_some h.phase_eq ht
  have ho := handedOver_fold hz hs.nodup
  refine ⟨_, hn, hkept, rfl, ho.queuedList.trans h.queued, ?_⟩
  have hh := h.history
  rw [if_pos rfl] at hh
  rw [if_neg (by simp), record_eq (by simp), handed, if_pos h.phase_eq, h.queued, hh,
    ← List.range_eq_range', Nat.zero_add]
  rfl

theorem Standing.startReset (h : Standing m .starting 0 count) :
    ∃ m', TangledSessions.next m .startReset = some m' ∧ Standing m' .started 0 count := by
  obtain ⟨hn, hkept⟩ := h.kept.next (a := .startReset) rfl
  have hrecord : record m.capture m.history .startReset = m.history := by
    simp [record, handed, addAll]
  have hreset : CaptureRuns.startReset m.capture =
      { m.capture with cam := resetFrameCount m.capture.cam, phase := .started } :=
    if_pos h.phase_eq
  rw [hrecord] at hn hkept
  rw [hreset] at hn hkept
  exact ⟨_, hn, hkept, rfl, h.queued, by simpa using h.history⟩

/-- DQBUF returns the buffer whose turn it is. -/
theorem Standing.dqbuf {b : Fin n} {rest : List (Fin n)} (h : Standing m .started first count)
    (hd : m.capture.cam.queue.doneList = b :: rest) :
    b = turn first ∧ ∃ m', TangledSessions.next m .dqbuf = some m' ∧
      Standing m' .started (first + 1) (count - 1) := by
  obtain ⟨xs, hs⟩ := h.kept.sound
  have hrun := hs.running (by simp [h.phase_eq])
  rw [hd, h.queued, List.cons_append] at hrun
  obtain ⟨hn, hkept⟩ := h.kept.next (a := .dqbuf) rfl
  have hrecord : record m.capture m.history .dqbuf = m.history := by
    simp [record, handed, addAll]
  have hdq : (CaptureRuns.dqbuf m.capture).cam.queue.queuedList =
      m.capture.cam.queue.queuedList.erase b ∧
      (CaptureRuns.dqbuf m.capture).phase = m.capture.phase := by
    simp [CaptureRuns.dqbuf, h.phase_eq, hd, dequeueBuffer]
  cases count with
  | zero => simp at hrun
  | succ count =>
    rw [List.range'_succ, List.map_cons, List.cons.injEq] at hrun
    obtain ⟨rfl, -⟩ := hrun
    rw [hrecord] at hn hkept
    refine ⟨rfl, _, hn, hkept, hdq.2.trans h.phase_eq, ?_, ?_⟩
    · rw [hdq.1, h.queued, List.range'_succ, List.map_cons, List.erase_cons_head,
        Nat.add_sub_cancel]
    · have hsum : first + 1 + (count + 1 - 1) = first + (count + 1) := by omega
      rw [hsum]
      exact h.history

omit [NeZero n] in
theorem Program.drive_eq {s : Program n} (hn : TangledSessions.next s.driver a = some m')
    (pc : Pc n) : s.drive a pc = some { s with driver := m', pc := pc } := by
  rw [drive, hn, Option.map_some]

omit [NeZero n] in
theorem Program.drive_some {s s' : Program n} {pc : Pc n} (h : s.drive a pc = some s') :
    ∃ c, step s.driver.capture a = some c ∧ s' = { s with
      driver := ⟨c, record s.driver.capture s.driver.history a⟩, pc := pc } := by
  obtain ⟨m, hm, rfl⟩ := Option.map_eq_some_iff.mp h
  obtain ⟨c, hc, rfl⟩ := Option.map_eq_some_iff.mp hm
  exact ⟨c, hc, rfl⟩

/-- Where the driver is while the program is at its next call. -/
def Pc.stage (numFrames : ℕ) : Pc n → Option (Phase × ℕ × ℕ)
  | .querycap | .sFmt | .reqbufs | .mapBuffer _ => some (.stopped, 0, 0)
  | .queueBuffer i => some (.stopped, 0, i)
  | .streamon => some (.stopped, 0, n)
  | .streamonStarted => some (.starting, 0, n)
  | .dequeue i => some (.started, i, n)
  | .requeue i _ => some (.started, i + 1, n - 1)
  | .streamoff => some (.started, numFrames, n)
  | .unmap _ | .closed | .failed => none

/-- The program is between STREAMON and the return of STREAMOFF. -/
def Pc.streams : Pc n → Bool
  | .streamonStarted | .dequeue _ | .requeue _ _ | .streamoff => true
  | _ => false

/-- The frames captured so far. -/
def Pc.captured (numFrames : ℕ) : Pc n → ℕ
  | .dequeue i => i
  | .requeue i _ => i + 1
  | .streamoff | .unmap _ | .closed => numFrames
  | _ => 0

/-- The first of the mappings, and their number. -/
def Pc.mappings : Pc n → ℕ × ℕ
  | .querycap | .sFmt | .reqbufs => (0, 0)
  | .mapBuffer i => (0, i)
  | .unmap i => (i, n - i)
  | .closed => (n, 0)
  | _ => (0, n)

structure Good (numFrames : ℕ) (s : Program n) : Prop where
  standing : ∀ phase first count, s.pc.stage numFrames = some (phase, first, count) →
    Standing s.driver phase first count
  ended : s.pc.stage numFrames = none → s.driver.capture.cam.streaming = false
  mapping : ∀ i, s.pc = .mapBuffer i → i < n
  queueing : ∀ i, s.pc = .queueBuffer i → i < n
  looping : ∀ i, s.pc = .dequeue i → i < numFrames
  requeueing : ∀ i b, s.pc = .requeue i b → i < numFrames ∧ b = turn i
  unmapping : ∀ i, s.pc = .unmap i → i < n
  frames : s.frames =
    (List.range (s.pc.captured numFrames)).map (fun i => ⟨i + 1, turn i, 0⟩)
  mapped : s.pc ≠ .failed → s.mapped =
    (List.range' s.pc.mappings.1 s.pc.mappings.2).map (fun i => (i, bufferLength))

variable {spins : Bool} {numFrames i : ℕ} {cap : CapabilityIoctls.V4l2Capability}
  {s : Program n} {drvdata : Option V4l2Format} {es : List Event}

/-- The driver accepts the program's checks and its format. -/
theorem querycap_accepted (cap : CapabilityIoctls.V4l2Capability) :
    hasCapability (CapabilityIoctls.querycap 0 0 cap).2 CapabilityIoctls.capVideoCapture = true ∧
      hasCapability (CapabilityIoctls.querycap 0 0 cap).2 CapabilityIoctls.capStreaming = true := by
  have hcaps : (CapabilityIoctls.querycap 0 0 cap).2.capabilities =
      CapabilityIoctls.capVideoCapture ||| CapabilityIoctls.capStreaming |||
        CapabilityIoctls.capExtPixFormat := rfl
  simp only [hasCapability, hcaps]
  exact ⟨by decide, by decide⟩

theorem sFmt_accepted (currentFmt : V4l2Format) : (FormatIoctls.sFmt currentFmt request).1 = 0 := by
  rfl

omit [NeZero n] in
/-- An S_FMT that returns had a device to write to. -/
theorem call_sFmt {t : Program n} (hpc : s.pc = .sFmt) (hc : call numFrames cap s = some t) :
    ∃ currentFmt, s.drvdata = some currentFmt ∧ t = { s with
      drvdata := some (FormatIoctls.sFmt currentFmt request).2.2, pc := .reqbufs } := by
  rw [call, hpc] at hc
  cases hfmt : s.drvdata with
  | none =>
    rw [hfmt] at hc
    cases hc
  | some currentFmt =>
    rw [hfmt] at hc
    exact ⟨currentFmt, rfl, (Option.some.inj hc).symm⟩

theorem good_loopHead (h : Good numFrames s) {pc : Pc n} (hpc : s.pc = pc)
    (hmap : pc.mappings = (0, n)) (hfail : pc ≠ .failed) (hi : i ≤ numFrames)
    (hcap : pc.captured numFrames = i) (hm : Standing m' .started i n) :
    Good numFrames { s with driver := m', pc := loopHead numFrames i } := by
  have hframes := h.frames
  have hmapped := h.mapped (hpc ▸ hfail)
  rw [hpc, hcap] at hframes
  rw [hpc, hmap] at hmapped
  rw [loopHead]
  split
  · next hlt =>
    constructor <;> simp [Pc.stage, Pc.captured, Pc.mappings, hframes, hmapped, hm, hlt]
  · next hlt =>
    obtain rfl : i = numFrames := by omega
    constructor <;> simp [Pc.stage, Pc.captured, Pc.mappings, hframes, hmapped, hm]

theorem good_start (numFrames : ℕ) (drvdata : Option V4l2Format) :
    Good numFrames (Program.start n drvdata) := by
  constructor <;> simp [Program.start, Pc.stage, Pc.captured, Pc.mappings, standing_initial]

/-- A call of `init_device`. -/
theorem good_init (h : Good numFrames s)
    (hpc : s.pc = .querycap ∨ (s.pc = .sFmt ∧ ∃ currentFmt, s.drvdata = some currentFmt) ∨
      s.pc = .reqbufs ∨ ∃ i, s.pc = .mapBuffer i) :
    ∃ t, call numFrames cap s = some t ∧ Good numFrames t := by
  have hframes := h.frames
  have hmapped := h.mapped
  have hst := h.standing
  have hn := Nat.pos_of_neZero n
  rcases hpc with hpc | ⟨hpc, currentFmt, hfmt⟩ | hpc | ⟨i, hpc⟩
  all_goals
    simp only [hpc, Pc.stage, Pc.captured, Pc.mappings, ne_eq, reduceCtorEq, not_false_eq_true,
      true_imp_iff, Option.some.injEq, Prod.mk.injEq] at hframes hmapped hst
    replace hst := hst _ _ _ ⟨rfl, rfl, rfl⟩
    rw [call, hpc]
  · simp only [querycap_accepted, Bool.and_self, if_true]
    refine ⟨_, rfl, ?_⟩
    constructor <;> simp [Pc.stage, Pc.captured, Pc.mappings, hframes, hmapped, hst]
  · simp only [hfmt, sFmt_accepted, lt_irrefl, if_false]
    refine ⟨_, rfl, ?_⟩
    constructor <;> simp [Pc.stage, Pc.captured, Pc.mappings, hframes, hmapped, hst]
  · by_cases h2 : n < 2
    · simp only [if_pos h2]
      refine ⟨_, rfl, ?_⟩
      constructor <;> simp [Pc.stage, Pc.captured, hframes, hst.off]
    · simp only [if_neg h2]
      refine ⟨_, rfl, ?_⟩
      constructor <;> simp [Pc.stage, Pc.captured, Pc.mappings, hframes, hmapped, hst, hn]
  · have hi := h.mapping i hpc
    have hnext : s.mapped ++ [(i, bufferLength)] =
        (List.range' 0 (i + 1)).map (fun i => (i, bufferLength)) := by
      simp [hmapped, List.range'_concat]
    by_cases hlast : i + 1 < n
    · simp only [if_pos hlast]
      refine ⟨_, rfl, ?_⟩
      constructor <;> simp [Pc.stage, Pc.captured, Pc.mappings, hframes, hnext, hst, hlast]
    · have he : i + 1 = n := by omega
      simp only [if_neg hlast]
      refine ⟨_, rfl, ?_⟩
      constructor <;> simp [Pc.stage, Pc.captured, Pc.mappings, hframes, hnext, hst, hn, he]

/-- A call of `start_capturing`. -/
theorem good_startCapturing (h : Good numFrames s)
    (hpc : (∃ i, s.pc = .queueBuffer i) ∨ s.pc = .streamon ∨ s.pc = .streamonStarted) :
    ∃ t, call numFrames cap s = some t ∧ Good numFrames t := by
  have hframes := h.frames
  have hmapped := h.mapped
  have hst := h.standing
  rcases hpc with ⟨i, hpc⟩ | hpc | hpc
  all_goals
    simp only [hpc, Pc.stage, Pc.captured, Pc.mappings, ne_eq, reduceCtorEq, not_false_eq_true,
      true_imp_iff, Option.some.injEq, Prod.mk.injEq] at hframes hmapped hst
    replace hst := hst _ _ _ ⟨rfl, rfl, rfl⟩
    rw [call, hpc]
  · have hi := h.queueing i hpc
    have hturn : (⟨i, hi⟩ : Fin n) = turn (0 + i) := by
      rw [Nat.zero_add]
      exact Fin.ext (Nat.mod_eq_of_lt hi).symm
    obtain ⟨m', hm', hs'⟩ := hst.qbuf hi (by simp)
    simp only [dif_pos hi, hturn]
    refine ⟨_, s.drive_eq hm' _, ?_⟩
    by_cases hlast : i + 1 < n
    · rw [if_pos hlast]
      constructor <;> simp [Pc.stage, Pc.captured, Pc.mappings, hframes, hmapped, hs', hlast]
    · have he : i + 1 = n := by omega
      rw [he] at hs'
      rw [if_neg hlast]
      constructor <;> simp [Pc.stage, Pc.captured, Pc.mappings, hframes, hmapped, hs']
  · obtain ⟨m', hm', hs'⟩ := hst.streamon
    refine ⟨_, s.drive_eq hm' _, ?_⟩
    constructor <;> simp [Pc.stage, Pc.captured, Pc.mappings, hframes, hmapped, hs']
  · obtain ⟨m', hm', hs'⟩ := hst.startReset
    exact ⟨_, s.drive_eq hm' _, good_loopHead h hpc rfl (by simp) (Nat.zero_le _) rfl hs'⟩

/-- A call of `capture_frame`. -/
theorem good_captureFrame (h : Good numFrames s)
    (hpc : (∃ i, s.pc = .dequeue i) ∨ ∃ i b, s.pc = .requeue i b) :
    ∃ t, call numFrames cap s = some t ∧ Good numFrames t := by
  have hn := Nat.pos_of_neZero n
  have hframes := h.frames
  have hmapped := h.mapped
  have hst := h.standing
  rcases hpc with ⟨i, hpc⟩ | ⟨i, b, hpc⟩
  all_goals
    simp only [hpc, Pc.stage, Pc.captured, Pc.mappings, ne_eq, reduceCtorEq, not_false_eq_true,
      true_imp_iff, Option.some.injEq, Prod.mk.injEq] at hframes hmapped hst
    replace hst := hst _ _ _ ⟨rfl, rfl, rfl⟩
    rw [call, hpc]
  · have hi := h.looping i hpc
    cases hd : s.driver.capture.cam.queue.doneList with
    | nil => exact ⟨s, rfl, h⟩
    | cons b rest =>
      obtain ⟨rfl, m', hm', hs'⟩ := hst.dqbuf hd
      simp only [hst.kept.empty (turn i), Program.drive, hm', Option.map_some]
      refine ⟨_, rfl, ?_⟩
      constructor <;>
        simp [Pc.stage, Pc.captured, Pc.mappings, hframes, hmapped, hs', hi, List.range_succ]
  · obtain ⟨hi, rfl⟩ := h.requeueing i b hpc
    have hround : i + 1 + (n - 1) = i + n := by omega
    have hcount : n - 1 + 1 = n := by omega
    obtain ⟨m', hm', hs'⟩ := hst.qbuf (by omega) (by simp)
    rw [hround, turn_add] at hm'
    rw [hcount] at hs'
    exact ⟨_, s.drive_eq hm' _, good_loopHead h hpc rfl (by simp) hi rfl hs'⟩

/-- The STREAMOFF of `stop_capturing`. -/
theorem streamoff_faults_iff (h : Standing m .started numFrames n) :
    Faults m .streamoff ↔ 0 < numFrames ∧ n ∣ numFrames := by
  have hh := h.history
  rw [if_neg (by simp), Nat.add_comm] at hh
  rw [Faults, hh, turns_drainable]
  simp [h.phase_eq]

/-- The calls behind STREAMOFF. -/
theorem good_end (h : Good numFrames s)
    (hpc : (∃ i, s.pc = .unmap i) ∨ s.pc = .closed ∨ s.pc = .failed) :
    ∃ t, call numFrames cap s = some t ∧ Good numFrames t := by
  rcases hpc with ⟨i, hpc⟩ | hpc | hpc
  · have hi := h.unmapping i hpc
    have hframes := h.frames
    have hmapped := h.mapped
    have hoff := h.ended (by rw [hpc]; rfl)
    simp only [hpc, Pc.captured, Pc.mappings, ne_eq, reduceCtorEq, not_false_eq_true,
      true_imp_iff] at hframes hmapped
    obtain ⟨k, hk⟩ : ∃ k, n - i = k + 1 := ⟨n - i - 1, by omega⟩
    have hnext : s.mapped.erase (i, bufferLength) =
        (List.range' (i + 1) (n - (i + 1))).map (fun i => (i, bufferLength)) := by
      have hk' : n - (i + 1) = k := by omega
      rw [hmapped, hk, List.range'_succ, List.map_cons, List.erase_cons_head, hk']
    rw [call, hpc]
    refine ⟨_, rfl, ?_⟩
    by_cases hlast : i + 1 < n
    · simp only [if_pos hlast]
      constructor <;> simp [Pc.stage, Pc.captured, Pc.mappings, hframes, hnext, hlast, hoff]
    · have he : n - (i + 1) = 0 := by omega
      rw [he] at hnext
      simp only [if_neg hlast]
      constructor <;> simp [Pc.stage, Pc.captured, Pc.mappings, hframes, hnext, hoff]
  · exact ⟨s, by rw [call, hpc], h⟩
  · exact ⟨s, by rw [call, hpc], h⟩

/-- A call that crashes: the `memcpy` of S_FMT to NULL, and the drain of STREAMOFF. -/
def Crashes (numFrames : ℕ) (s : Program n) : Prop :=
  s.pc = .sFmt ∧ s.drvdata = none ∨ s.pc = .streamoff ∧ 0 < numFrames ∧ n ∣ numFrames

/-- A call: it crashes, or the program goes on. -/
theorem good_call (cap : CapabilityIoctls.V4l2Capability) (h : Good numFrames s) :
    Crashes numFrames s ∧ call numFrames cap s = none ∨
      ¬ Crashes numFrames s ∧ ∃ t, call numFrames cap s = some t ∧ Good numFrames t := by
  cases hpc : s.pc with
  | querycap => exact .inr ⟨by simp [Crashes, hpc], good_init h (.inl hpc)⟩
  | sFmt =>
    cases hfmt : s.drvdata with
    | none => exact .inl ⟨.inl ⟨hpc, hfmt⟩, by rw [call, hpc, hfmt]; rfl⟩
    | some currentFmt =>
      exact .inr ⟨by simp [Crashes, hpc, hfmt], good_init h (.inr (.inl ⟨hpc, currentFmt, hfmt⟩))⟩
  | reqbufs => exact .inr ⟨by simp [Crashes, hpc], good_init h (.inr (.inr (.inl hpc)))⟩
  | mapBuffer i => exact .inr ⟨by simp [Crashes, hpc], good_init h (.inr (.inr (.inr ⟨i, hpc⟩)))⟩
  | queueBuffer i => exact .inr ⟨by simp [Crashes, hpc], good_startCapturing h (.inl ⟨i, hpc⟩)⟩
  | streamon => exact .inr ⟨by simp [Crashes, hpc], good_startCapturing h (.inr (.inl hpc))⟩
  | streamonStarted =>
    exact .inr ⟨by simp [Crashes, hpc], good_startCapturing h (.inr (.inr hpc))⟩
  | dequeue i => exact .inr ⟨by simp [Crashes, hpc], good_captureFrame h (.inl ⟨i, hpc⟩)⟩
  | requeue i b => exact .inr ⟨by simp [Crashes, hpc], good_captureFrame h (.inr ⟨i, b, hpc⟩)⟩
  | unmap i => exact .inr ⟨by simp [Crashes, hpc], good_end h (.inl ⟨i, hpc⟩)⟩
  | closed => exact .inr ⟨by simp [Crashes, hpc], good_end h (.inr (.inl hpc))⟩
  | failed => exact .inr ⟨by simp [Crashes, hpc], good_end h (.inr (.inr hpc))⟩
  | streamoff =>
    have hst := h.standing .started numFrames n (by rw [hpc]; rfl)
    have hiff := streamoff_faults_iff hst
    rw [call, hpc]
    rcases step_follows hst.kept.follow .streamoff with ⟨hfault, hnone⟩ | ⟨hok, t, ht, -⟩
    · refine .inl ⟨.inr ⟨hpc, hiff.mp hfault⟩, ?_⟩
      simp [Program.drive, TangledSessions.next, hnone]
    · refine .inr ⟨by simpa [Crashes, hpc] using fun hc => hok (hiff.mpr hc), ?_⟩
      have hn := Nat.pos_of_neZero n
      have hframes := h.frames
      have hmapped := h.mapped
      have hoff := streamoff_streaming hst.phase_eq ht
      simp only [hpc, Pc.captured, Pc.mappings, ne_eq, reduceCtorEq, not_false_eq_true,
        true_imp_iff] at hframes hmapped
      refine ⟨_, s.drive_eq (hst.kept.next ht).1 _, ?_⟩
      constructor <;> simp [Pc.stage, Pc.captured, Pc.mappings, hframes, hmapped, hn, hoff]

theorem call_eq_none_iff (cap : CapabilityIoctls.V4l2Capability) (h : Good numFrames s) :
    call numFrames cap s = none ↔ Crashes numFrames s := by
  rcases good_call cap h with ⟨hcrash, hnone⟩ | ⟨hok, t, ht, -⟩
  · exact ⟨fun _ => hcrash, fun _ => hnone⟩
  · refine ⟨fun hnone => ?_, fun hcrash => absurd hcrash hok⟩
    rw [ht] at hnone
    cases hnone

omit [NeZero n] in
theorem frameInterrupt_eq_none_iff (spins : Bool) (elapsed : ℕ) (s : Program n) :
    frameInterrupt spins elapsed s = none ↔
      spins = true ∧ (completes s.driver.capture.cam).isSome = true := by
  rw [frameInterrupt]
  split
  · next h => simpa using h
  · next h => simpa [Program.drive, TangledSessions.next, step] using h

omit [NeZero n] in
theorem frameInterrupt_some {elapsed : ℕ} {t : Program n}
    (ht : frameInterrupt spins elapsed s = some t) :
    s.drive (.interrupt elapsed) s.pc = some t ∧
      (spins = true → completes s.driver.capture.cam = none) := by
  rw [frameInterrupt] at ht
  split at ht
  · cases ht
  · next h => exact ⟨ht, by simpa using h⟩

theorem good_interrupt {elapsed : ℕ} {t : Program n} (h : Good numFrames s)
    (ht : s.drive (.interrupt elapsed) s.pc = some t) : Good numFrames t := by
  obtain ⟨c, hc, rfl⟩ := s.drive_some ht
  cases hc
  refine ⟨?_, ?_, h.mapping, h.queueing, h.looping, h.requeueing, h.unmapping, h.frames, h.mapped⟩
  · intro phase first count hstage
    obtain ⟨m, hm, hs⟩ := (h.standing phase first count hstage).interrupt elapsed
    cases hm
    exact hs
  · exact fun hstage => (interrupt_streaming elapsed _).trans (h.ended hstage)

theorem good_of_next {e : Event} {t : Program n} (h : Good numFrames s)
    (ht : next spins numFrames cap s e = some t) : Good numFrames t := by
  cases e with
  | call =>
    rcases good_call cap h with ⟨-, hnone⟩ | ⟨-, t', ht', hgood⟩
    · exact absurd (hnone.symm.trans ht) (by simp)
    · obtain rfl : t' = t := Option.some.inj (ht'.symm.trans ht)
      exact hgood
  | eintr => exact Option.some.inj ht ▸ h
  | mmapFails =>
    cases hpc : s.pc with
    | mapBuffer i =>
      have hframes := h.frames
      have hst := h.standing .stopped 0 0 (by rw [hpc]; rfl)
      simp only [hpc, Pc.captured] at hframes
      obtain rfl : { s with pc := .failed } = t := by simpa [next, hpc] using ht
      constructor <;> simp [Pc.stage, Pc.captured, hframes, hst.off]
    | _ =>
      obtain rfl : s = t := by simpa [next, hpc] using ht
      exact h
  | interrupt elapsed => exact good_interrupt h (frameInterrupt_some ht).1

theorem good_run (run : Run (Steps (next spins numFrames cap)) (Program.start n drvdata) es s) :
    Good numFrames s :=
  run.invariant (Good numFrames) (good_start numFrames drvdata)
    (fun _ _ _ hs ht => good_of_next hs ht)

/-- No frame was ever completed. -/
structure Unfilled (s : Program n) : Prop where
  done : s.driver.capture.cam.queue.doneList = []
  pc : ∀ i b, s.pc ≠ .requeue i b

omit [NeZero n] in
theorem Unfilled.drive {t : Program n} {pc : Pc n} (h : Unfilled s)
    (hs : ∃ xs, Sound s.driver.capture xs) (ha : ∀ d, a ≠ .interrupt d)
    (hpc : ∀ i b, pc ≠ .requeue i b) (ht : s.drive a pc = some t) : Unfilled t := by
  obtain ⟨c, hc, rfl⟩ := s.drive_some ht
  exact ⟨doneList_eq_nil_of_step hs hc ha h.done, hpc⟩

omit [NeZero n] in
theorem loopHead_ne_requeue (numFrames i j : ℕ) (b : Fin n) :
    loopHead numFrames i ≠ .requeue j b := by
  rw [loopHead]
  split <;> simp

theorem unfilled_call {t : Program n} (hg : Good numFrames s) (h : Unfilled s)
    (hc : call numFrames cap s = some t) : Unfilled t := by
  have hdone := h.done
  have hcall := hc
  rw [call] at hc
  cases hpc : s.pc with
  | querycap =>
    simp only [hpc] at hc
    split at hc <;> cases hc <;> exact ⟨hdone, by simp⟩
  | sFmt =>
    obtain ⟨currentFmt, -, rfl⟩ := call_sFmt hpc hcall
    exact ⟨hdone, by simp⟩
  | reqbufs =>
    simp only [hpc, Option.some.injEq] at hc
    subst hc
    exact ⟨hdone, by dsimp only; split <;> simp⟩
  | mapBuffer i =>
    simp only [hpc, Option.some.injEq] at hc
    subst hc
    exact ⟨hdone, by dsimp only; split <;> simp⟩
  | queueBuffer i =>
    have hst := hg.standing .stopped 0 i (by rw [hpc]; rfl)
    simp only [hpc, dif_pos (hg.queueing i hpc)] at hc
    exact h.drive hst.kept.sound (by simp) (by split <;> simp) hc
  | streamon =>
    have hst := hg.standing .stopped 0 n (by rw [hpc]; rfl)
    simp only [hpc] at hc
    exact h.drive hst.kept.sound (by simp) (by simp) hc
  | streamonStarted =>
    have hst := hg.standing .starting 0 n (by rw [hpc]; rfl)
    simp only [hpc] at hc
    exact h.drive hst.kept.sound (by simp) (loopHead_ne_requeue numFrames 0) hc
  | dequeue i =>
    simp only [hpc, hdone, Option.some.injEq] at hc
    exact hc ▸ h
  | requeue i b => exact absurd hpc (h.pc i b)
  | streamoff =>
    have hst := hg.standing .started numFrames n (by rw [hpc]; rfl)
    simp only [hpc] at hc
    exact h.drive hst.kept.sound (by simp) (by simp) hc
  | unmap i =>
    simp only [hpc, Option.some.injEq] at hc
    subst hc
    exact ⟨hdone, by dsimp only; split <;> simp⟩
  | closed | failed =>
    simp only [hpc, Option.some.injEq] at hc
    exact hc ▸ h

/-- Where a held lock spins, no frame is completed: the interrupt that would do so never ends. -/
theorem unfilled_of_next {e : Event} {t : Program n} (hg : Good numFrames s) (h : Unfilled s)
    (ht : next true numFrames cap s e = some t) : Unfilled t := by
  cases e with
  | call => exact unfilled_call hg h ht
  | eintr => exact Option.some.inj ht ▸ h
  | mmapFails =>
    replace ht : next true numFrames cap s .mmapFails = some t := ht
    rw [next] at ht
    split at ht
    · cases ht
      exact ⟨h.done, by simp⟩
    · exact Option.some.inj ht ▸ h
  | interrupt elapsed =>
    obtain ⟨hdrive, hnone⟩ := frameInterrupt_some ht
    obtain ⟨c, hc, rfl⟩ := s.drive_some hdrive
    cases hc
    exact ⟨(interrupt_doneList (hnone rfl) elapsed).trans h.done, h.pc⟩

theorem Unfilled.run {t : Program n} (h : Unfilled s) (hg : Good numFrames s)
    (run : Run (Steps (next true numFrames cap)) s es t) : Good numFrames t ∧ Unfilled t :=
  run.invariant (fun s => Good numFrames s ∧ Unfilled s) ⟨hg, h⟩
    (fun _ _ _ hs ht => ⟨good_of_next hs.1 ht, unfilled_of_next hs.1 hs.2 ht⟩)

theorem unfilled_run (run : Run (Steps (next true numFrames cap)) (Program.start n drvdata) es s) :
    Unfilled s :=
  (Unfilled.run ⟨rfl, by simp [Program.start]⟩ (good_start numFrames drvdata) run).2

/-- With no frame completed before, an interrupt completes one whenever the program streams. -/
theorem completes_iff (hg : Good numFrames s) (h : Unfilled s) :
    (completes s.driver.capture.cam).isSome = true ↔ s.pc.streams = true := by
  have hoff : s.driver.capture.cam.streaming = false →
      (completes s.driver.capture.cam).isSome = false := by
    intro hs
    simp [completes, hs]
  cases hpc : s.pc with
  | querycap | sFmt | reqbufs | mapBuffer i | queueBuffer i | streamon =>
    have hst := hg.standing .stopped 0 _ (by rw [hpc]; rfl)
    simp [hoff hst.off, Pc.streams]
  | streamonStarted =>
    have hst := hg.standing .starting 0 n (by rw [hpc]; rfl)
    simp [hst.completes (by simp) h.done, Pc.streams]
  | dequeue i =>
    have hst := hg.standing .started i n (by rw [hpc]; rfl)
    simp [hst.completes (by simp) h.done, Pc.streams]
  | requeue i b => exact absurd hpc (h.pc i b)
  | streamoff =>
    have hst := hg.standing .started numFrames n (by rw [hpc]; rfl)
    simp [hst.completes (by simp) h.done, Pc.streams]
  | unmap i | closed | failed => simp [hoff (hg.ended (by rw [hpc]; rfl)), Pc.streams]

/-- The steps that the kernel does not come back from: the two calls that crash, and where a held
lock spins also the first frame interrupt after STREAMON. -/
theorem next_faults_iff
    (run : Run (Steps (next spins numFrames cap)) (Program.start n drvdata) es s) (e : Event) :
    next spins numFrames cap s e = none ↔
      e = .call ∧ Crashes numFrames s ∨
        spins = true ∧ s.pc.streams = true ∧ ∃ elapsed, e = .interrupt elapsed := by
  have hg := good_run run
  cases e with
  | call => simpa [next] using call_eq_none_iff cap hg
  | eintr => simp [next]
  | mmapFails =>
    rw [next]
    split <;> simp
  | interrupt elapsed =>
    rw [next, frameInterrupt_eq_none_iff]
    simp only [reduceCtorEq, false_and, false_or, Event.interrupt.injEq, exists_eq', and_true]
    refine and_congr_right (fun hspins => ?_)
    subst hspins
    exact completes_iff hg (unfilled_run run)

/-- Two buffers, two frames. -/
theorem next_faults_two : ∃ s : Program 2, s.frames.length = 2 ∧
    next false 2 .cleared s .call = none := by
  let es : List Event := List.replicate 9 .call ++
    [.interrupt 1, .call, .call, .interrupt 1, .call, .call]
  have heval : (follow (next false 2 .cleared) (Program.start 2 (some request)) es).map
      (fun s => (s.frames.length, s.pc)) = some (2, .streamoff) := by decide
  obtain ⟨s, run, hs⟩ := run_of_follow heval
  simp only [Prod.mk.injEq] at hs
  exact ⟨s, hs.1, (next_faults_iff run .call).mpr (.inl ⟨rfl, .inr ⟨hs.2, by decide⟩⟩)⟩

/-- The frames come from the buffers in turn, and their files are empty. -/
theorem frames_inTurn
    (run : Run (Steps (next spins numFrames cap)) (Program.start n drvdata) es s) :
    s.frames = (List.range s.frames.length).map (fun i => ⟨i + 1, turn i, 0⟩) := by
  have hframes := (good_run run).frames
  have hlen : s.frames.length = s.pc.captured numFrames := by simp [hframes]
  rw [hlen]
  exact hframes

theorem frames_inTurn_two : ∃ s : Program 2, s.frames = [⟨1, 0, 0⟩, ⟨2, 1, 0⟩, ⟨3, 0, 0⟩] := by
  let es : List Event := List.replicate 9 .call ++
    [.interrupt 1, .call, .call, .interrupt 1, .call, .call, .interrupt 1, .call]
  have heval : (follow (next false 3 .cleared) (Program.start 2 (some request)) es).map
      (fun s => s.frames.length) = some 3 := by decide
  obtain ⟨s, run, hs⟩ := run_of_follow heval
  refine ⟨s, ?_⟩
  rw [frames_inTurn run, hs]
  decide

/-- The program reads frames while all its buffers are mapped, it unmaps each of them once, and
none is left when it has ended. -/
theorem mapped_throughout
    (run : Run (Steps (next spins numFrames cap)) (Program.start n drvdata) es s)
    (hfail : s.pc ≠ .failed) :
    s.mapped.Nodup ∧
      (∀ i, s.pc = .dequeue i → ∀ b : Fin n, (b.val, bufferLength) ∈ s.mapped) ∧
      (∀ i, s.pc = .unmap i → (i, bufferLength) ∈ s.mapped) ∧
      (s.pc = .closed → s.mapped = []) := by
  have h := good_run run
  have hmapped := h.mapped hfail
  refine ⟨?_, ?_, ?_, ?_⟩
  · rw [hmapped]
    exact List.Nodup.map (fun i j hij => congrArg Prod.fst hij) List.nodup_range'
  · intro i hpc b
    rw [hmapped, hpc]
    exact List.mem_map.mpr ⟨b.val, by simp [Pc.mappings, List.mem_range'_1, b.isLt], rfl⟩
  · intro i hpc
    have hi := h.unmapping i hpc
    rw [hmapped, hpc]
    exact List.mem_map.mpr ⟨i, by simp [Pc.mappings, List.mem_range'_1]; omega, rfl⟩
  · intro hpc
    rw [hmapped, hpc]
    rfl

theorem mapped_throughout_two : ∃ s : Program 2, s.pc = .dequeue 0 ∧
    (1, bufferLength) ∈ s.mapped := by
  have heval : (follow (next false 3 .cleared) (Program.start 2 (some request))
      (List.replicate 9 .call)).map (fun s => s.pc) = some (.dequeue 0) := by decide
  obtain ⟨s, run, hpc⟩ := run_of_follow heval
  have hmapped := mapped_throughout run (by simp [hpc])
  exact ⟨s, hpc, hmapped.2.1 0 hpc 1⟩

end Program

end CameraDrivers.SimpleCapture
