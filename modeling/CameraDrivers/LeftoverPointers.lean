import CameraDrivers.CaptureTermination

/-!
# What stop_streaming leaves on the driver-owned list

While the queue is stopped, vb2 frees its buffers for a REQBUFS or a close, and nobody tells
the driver. The list must then be empty. It is, unless a session handed its first buffer over
a second time: `list_del` unlinks that buffer behind its last predecessor, and the head still
points at it. The runs are those of whole calls, with the waits for spinlocks set aside.
-/
namespace CameraDrivers.LeftoverPointers
open ReaddedCells CameraState CameraCallbacks TransitionRuns CaptureRuns TangledSessions

variable {n : ℕ}

/-- A run with the buffers that each session handed to the driver: those of the sessions that
are over, and those of the present one. -/
structure Chronicle (n : ℕ) where
  monitored : Monitored n
  past : List (List (Fin n))
  current : List (Fin n)

def Chronicle.initial (n : ℕ) : Chronicle n := ⟨.initial n, [], []⟩

def next (c : Chronicle n) (a : Action n) : Option (Chronicle n) :=
  (TangledSessions.next c.monitored a).map (fun m =>
    if a = .streamoff ∧ c.monitored.capture.phase = .started then
      ⟨m, c.past ++ [c.current], []⟩
    else ⟨m, c.past, c.current ++ handed c.monitored.capture a⟩)

/-- The first buffer comes only once. -/
def Once (bs : List (Fin n)) : Prop := ∀ b, bs.head? = some b → b ∉ bs.tail

/-- `!list_empty(&cam->queued_list)`. -/
def PointsAtBuffer (cam : CameraDev n) : Prop := ∃ b, cam.queuedList.next .head = .cell (.node b)

structure Told (c : Chronicle n) : Prop where
  follow : Follow c.monitored.capture c.monitored.history
  added : c.monitored.history.added = c.current.map .node
  entry_iff : c.monitored.history.entry = none ↔ ∀ bs ∈ c.past, Once bs
  stopped : c.monitored.capture.phase = .stopped → c.current = []

variable {s t : Capture n} {c d : Chronicle n} {a : Action n}

theorem once_iff (bs : List (Fin n)) : Once bs ↔
    ∀ f, (bs.map Cell.node).head? = some f → f ∉ (bs.map Cell.node).tail := by
  cases bs with
  | nil => simp [Once]
  | cons b bs =>
    simp only [Once, List.head?_cons, Option.some.injEq, List.tail_cons, List.map_cons,
      forall_eq']
    rw [List.mem_map_of_injective node_injective]

/-- Only a STREAMOFF of a started session stops the queue. -/
theorem step_stopped (hs : step s a = some t) (ht : t.phase = .stopped) :
    s.phase = .stopped ∧ handed s a = [] ∨ a = .streamoff ∧ s.phase = .started := by
  cases a with
  | qbuf b =>
    have hp : s.phase = .stopped := (queueFrame_qbuf hs).phase ▸ ht
    exact .inl ⟨hp, by simp [handed, hp]⟩
  | dqbuf =>
    obtain rfl : dqbuf s = t := Option.some.inj hs
    have hp : (dqbuf s).phase = s.phase := by
      rw [dqbuf]
      split
      · split <;> rfl
      · rfl
    exact .inl ⟨hp ▸ ht, rfl⟩
  | streamon =>
    by_cases hp : s.phase = .stopped
    · obtain ⟨z, -, rfl⟩ := streamon_some hp hs
      cases ht
    · have hsame : s = t := by simpa [step, streamon, hp] using hs
      exact absurd (hsame ▸ ht) hp
  | startReset =>
    obtain rfl : startReset s = t := Option.some.inj hs
    rw [startReset] at ht
    split at ht
    · cases ht
    · exact .inl ⟨ht, rfl⟩
  | streamoff =>
    cases hp : s.phase with
    | stopped => exact .inl ⟨rfl, rfl⟩
    | started => exact .inr ⟨rfl, rfl⟩
    | starting =>
      have hsame : s = t := by simpa [step, streamoff, hp] using hs
      rw [← hsame, hp] at ht
      cases ht
  | interrupt elapsed =>
    obtain rfl : interrupt elapsed s = t := Option.some.inj hs
    exact .inl ⟨ht, rfl⟩

theorem told_initial (n : ℕ) : Told (Chronicle.initial n) := by
  refine ⟨tangled_initListHead _ _, rfl, ?_, fun _ => rfl⟩
  simp [Chronicle.initial, Monitored.initial, History.clean]

theorem told_next (h : Told c) (hs : next c a = some d) : Told d := by
  obtain ⟨m, hm, rfl⟩ := Option.map_eq_some_iff.mp hs
  obtain ⟨t, ht, rfl⟩ := Option.map_eq_some_iff.mp hm
  have hfollow : Follow t (record c.monitored.capture c.monitored.history a) :=
    follow_of_step h.follow ht
  by_cases hend : a = .streamoff ∧ c.monitored.capture.phase = .started
  · have hrecord : record c.monitored.capture c.monitored.history a =
        c.monitored.history.drained := if_pos hend
    rw [if_pos hend]
    rw [hrecord] at hfollow ⊢
    refine ⟨hfollow, ?_, ?_, fun _ => rfl⟩
    · rw [History.drained_added]
      rfl
    · rw [History.drained_entry_iff h.follow.based, h.entry_iff, h.added, ← once_iff]
      simp [or_imp, forall_and]
  · have hrecord : record c.monitored.capture c.monitored.history a =
        addAll c.monitored.history (handed c.monitored.capture a) := if_neg hend
    rw [if_neg hend]
    rw [hrecord] at hfollow ⊢
    refine ⟨hfollow, ?_, ?_, ?_⟩
    · simp [addAll_eq, h.added]
    · simpa [addAll_eq] using h.entry_iff
    · intro hp
      rcases step_stopped ht hp with ⟨hstopped, hnone⟩ | hstop
      · simp [h.stopped hstopped, hnone]
      · exact absurd hstop hend

theorem told_run {as : List (Action n)} (run : Run (Steps next) (Chronicle.initial n) as c) :
    Told c :=
  run.invariant Told (told_initial n) (fun _ _ _ h hs => told_next h hs)

/-- With nothing added since the last drain, what the head points at is what that drain left. -/
theorem pointsAtBuffer_iff_entry {h : History (Cell n)} (hf : Follow s h) (ha : h.added = []) :
    PointsAtBuffer s.cam ↔ h.entry ≠ none := by
  have hhead := hf.next_head
  have hfirst : h.first = h.entry := by simp [History.first, ha]
  rw [hfirst] at hhead
  rw [PointsAtBuffer, hhead]
  cases he : h.entry with
  | none => simp
  | some f =>
    cases f with
    | head => exact absurd he hf.entry_ne
    | node b => exact iff_of_true ⟨b, rfl⟩ (by simp)

/-- In a stopped queue the list still points at a buffer exactly when some session of the run
handed over its first buffer again. -/
theorem pointsAtBuffer_iff {as : List (Action n)}
    (run : Run (Steps next) (Chronicle.initial n) as c)
    (hp : c.monitored.capture.phase = .stopped) :
    PointsAtBuffer c.monitored.capture.cam ↔ ∃ bs ∈ c.past, ¬ Once bs := by
  have h := told_run run
  have hadded : c.monitored.history.added = [] := by simp [h.added, h.stopped hp]
  rw [pointsAtBuffer_iff_entry h.follow hadded, Ne, h.entry_iff]
  simp only [not_forall, exists_prop]

/-- The first of two buffers is dequeued and queued again. -/
theorem pointsAtBuffer_requeued : ∃ c : Chronicle 2, c.past = [[0, 1, 0]] ∧
    PointsAtBuffer c.monitored.capture.cam := by
  have heval : (follow next (Chronicle.initial 2) [.qbuf 0, .qbuf 1, .streamon, .startReset,
      .interrupt 1, .dqbuf, .qbuf 0, .streamoff]).map
        (fun c => (c.past, c.monitored.capture.phase)) = some ([[0, 1, 0]], .stopped) := by decide
  obtain ⟨c, run, hc⟩ := run_of_follow heval
  simp only [Prod.mk.injEq] at hc
  refine ⟨c, hc.1, (pointsAtBuffer_iff run hc.2).mpr ⟨[0, 1, 0], by simp [hc.1], ?_⟩⟩
  simp [Once]

section Program
open SimpleCapture (Program Pc Event turn turns)
open CaptureTermination (drive_pc drive_driver run_monitored)

/-- The program is behind its STREAMOFF. -/
def ended : Pc n → Bool
  | .unmap _ | .closed => true
  | _ => false

variable {spins : Bool} {numFrames : ℕ} {cap : CapabilityIoctls.V4l2Capability} {x y : Program n}
  {drvdata : Option FormatIoctls.V4l2Format} {es : List Event}

theorem ended_loopHead (numFrames i : ℕ) :
    ended (SimpleCapture.loopHead numFrames i : Pc n) = false := by
  rw [SimpleCapture.loopHead]
  split <;> rfl

/-- The program comes to its end through STREAMOFF, and then leaves the driver alone. -/
theorem call_ended (hc : SimpleCapture.call numFrames cap x = some y) (hy : ended y.pc = true) :
    ended x.pc = true ∧ y.driver = x.driver ∨
      x.pc = .streamoff ∧ TangledSessions.next x.driver .streamoff = some y.driver := by
  have hcall := hc
  rw [SimpleCapture.call] at hc
  cases hpc : x.pc with
  | querycap =>
    simp only [hpc] at hc
    split at hc <;> cases hc <;> cases hy
  | sFmt =>
    obtain ⟨currentFmt, -, rfl⟩ := SimpleCapture.call_sFmt hpc hcall
    cases hy
  | reqbufs =>
    simp only [hpc, Option.some.injEq] at hc
    subst hc
    dsimp only at hy
    split at hy <;> cases hy
  | mapBuffer i =>
    simp only [hpc, Option.some.injEq] at hc
    subst hc
    dsimp only at hy
    split at hy <;> cases hy
  | queueBuffer i =>
    simp only [hpc] at hc
    split at hc
    · rw [drive_pc hc] at hy
      split at hy <;> cases hy
    · cases hc
      simp [hpc, ended] at hy
  | streamon =>
    simp only [hpc] at hc
    rw [drive_pc hc] at hy
    cases hy
  | streamonStarted =>
    simp only [hpc] at hc
    rw [drive_pc hc, ended_loopHead] at hy
    cases hy
  | dequeue i =>
    simp only [hpc] at hc
    split at hc
    · cases hc
      simp [hpc, ended] at hy
    · rw [drive_pc hc] at hy
      cases hy
  | requeue i b =>
    simp only [hpc] at hc
    rw [drive_pc hc, ended_loopHead] at hy
    cases hy
  | streamoff =>
    simp only [hpc] at hc
    exact .inr ⟨rfl, drive_driver hc⟩
  | unmap i =>
    simp only [hpc, Option.some.injEq] at hc
    exact .inl ⟨rfl, hc ▸ rfl⟩
  | closed =>
    simp only [hpc, Option.some.injEq] at hc
    exact .inl ⟨rfl, hc ▸ rfl⟩
  | failed =>
    simp only [hpc, Option.some.injEq] at hc
    subst hc
    simp [hpc, ended] at hy

variable [NeZero n]

theorem turn_zero_mem_iff (k : ℕ) :
    (turn 0 : Fin n) ∈ ((List.range (k + n)).map turn).tail ↔ 0 < k := by
  obtain ⟨m, hm⟩ : ∃ m, n = m + 1 := Nat.exists_eq_succ_of_ne_zero (NeZero.ne n)
  have htail : ((List.range (k + n)).map (turn : ℕ → Fin n)).tail =
      (List.range (k + m)).map (fun i => turn (i + 1)) := by
    have hlen : k + n = (k + m) + 1 := by omega
    rw [hlen, List.range_succ_eq_map]
    simp [Function.comp_def]
  rw [htail, List.mem_map]
  constructor
  · rintro ⟨i, hi, he⟩
    rw [SimpleCapture.turn_eq_iff, Nat.zero_mod] at he
    have hle := Nat.le_of_dvd (Nat.succ_pos i) (Nat.dvd_of_mod_eq_zero he)
    have hlt := List.mem_range.mp hi
    omega
  · intro hk
    refine ⟨m, List.mem_range.mpr (by omega), ?_⟩
    rw [SimpleCapture.turn_eq_iff, ← hm, Nat.mod_self, Nat.zero_mod]

theorem turns_once_iff (k : ℕ) : Once ((List.range (k + n)).map (turn : ℕ → Fin n)) ↔ k = 0 := by
  have hhead : ((List.range (k + n)).map (turn : ℕ → Fin n)).head? = some (turn 0) := by
    obtain ⟨m, hm⟩ : ∃ m, k + n = m + 1 :=
      Nat.exists_eq_succ_of_ne_zero (by have := Nat.pos_of_neZero n; omega)
    rw [hm, List.range_succ_eq_map]
    rfl
  have hmem := turn_zero_mem_iff (n := n) k
  rw [Once, hhead]
  simp only [Option.some.injEq, forall_eq', hmem]
  omega

theorem turns_drained_entry (k : ℕ) :
    (turns (k + n) : History (Cell n)).drained.entry = none ↔ k = 0 := by
  have hturns : (turns (k + n) : History (Cell n)) =
      ⟨none, none, ((List.range (k + n)).map turn).map .node⟩ := by
    rw [turns, addAll_eq]
    rfl
  rw [hturns, History.drained_entry_iff rfl, ← turns_once_iff (n := n) k, once_iff]
  simp

/-- Behind its STREAMOFF the program leaves the list as that drain left it. -/
theorem run_ended (run : Run (Steps (SimpleCapture.next spins numFrames cap))
    (Program.start n drvdata) es x) (hx : ended x.pc = true) :
    x.driver.history = (turns (numFrames + n)).drained := by
  refine (run.invariant (fun x => SimpleCapture.Good numFrames x ∧
    (ended x.pc = true → x.driver.history = (turns (numFrames + n)).drained))
    ⟨SimpleCapture.good_start numFrames drvdata, fun he => by cases he⟩ ?_).2 hx
  rintro x e y ⟨hgood, hdrained⟩ hy
  refine ⟨SimpleCapture.good_of_next hgood hy, fun he => ?_⟩
  cases e with
  | call =>
    rcases call_ended hy he with ⟨hended, hsame⟩ | ⟨hpc, hoff⟩
    · rw [hsame]
      exact hdrained hended
    · have hst := hgood.standing .started numFrames n (by rw [hpc]; rfl)
      have hhist := hst.history
      rw [if_neg (by simp)] at hhist
      obtain ⟨t, -, hm⟩ := Option.map_eq_some_iff.mp hoff
      rw [← hm, ← hhist]
      exact if_pos ⟨rfl, hst.phase_eq⟩
  | eintr =>
    cases hy
    exact hdrained he
  | mmapFails =>
    simp only [Steps, SimpleCapture.next] at hy
    split at hy
    · cases hy
      cases he
    · cases hy
      exact hdrained he
  | interrupt elapsed =>
    have hdrive := (SimpleCapture.frameInterrupt_some hy).1
    rw [drive_pc hdrive] at he
    obtain ⟨t, -, hm⟩ := Option.map_eq_some_iff.mp (drive_driver hdrive)
    rw [← hm, ← hdrained he]
    simp [record, handed, addAll]

/-- The program that has captured a frame and comes to its end leaves the list pointing at a
buffer that vb2 then frees. -/
theorem closed_pointsAtBuffer_iff (run : Run (Steps (SimpleCapture.next spins numFrames cap))
    (Program.start n drvdata) es x) (hx : x.pc = .closed) :
    PointsAtBuffer x.driver.capture.cam ↔ 0 < numFrames := by
  have hhist := run_ended run (by rw [hx]; rfl)
  obtain ⟨as, hrun⟩ := run_monitored run
  have hadded : x.driver.history.added = [] := by rw [hhist, History.drained_added]
  rw [pointsAtBuffer_iff_entry (run_follows hrun) hadded, hhist, Ne, turns_drained_entry]
  omega

/-- One frame from two buffers. -/
theorem closed_pointsAtBuffer_two : ∃ x : Program 2, x.pc = .closed ∧ x.mapped = [] ∧
    PointsAtBuffer x.driver.capture.cam := by
  let es : List Event := List.replicate 9 .call ++ [.interrupt 1] ++ List.replicate 5 .call
  have heval : (follow (SimpleCapture.next false 1 .cleared)
      (Program.start 2 (some SimpleCapture.request)) es).map (fun x => (x.pc, x.mapped)) =
        some (.closed, []) := by decide
  obtain ⟨x, run, hx⟩ := run_of_follow heval
  simp only [Prod.mk.injEq] at hx
  exact ⟨x, hx.1, hx.2, (closed_pointsAtBuffer_iff run hx.1).mpr (by decide)⟩

end Program

end CameraDrivers.LeftoverPointers
