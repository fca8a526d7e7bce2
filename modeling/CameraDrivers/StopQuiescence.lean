import CameraDrivers.CallbackSteps

/-!
# Quiescence after stop_streaming

`stop_streaming` clears the flag and does not wait for a handler on another CPU. A handler
that read the flag before goes on: it stamps a buffer, completes it and advances the frame
counter after `stop_streaming` has returned, unless it finds vb2's list empty.
-/
namespace CameraDrivers.StopQuiescence
open CameraState CameraCallbacks TransitionRuns CallbackSteps

variable {n : ℕ} {x y : Execution n} {a : Action n}

/-- The handler has selected a buffer: its next statement stamps it, belongs to the call of
`vb2_buffer_done` or advances `frame_count`. -/
def acts : IrqPc n → Bool
  | .picked _ | .stamped _ | .checked _ | .completing _ | .counting => true
  | .idle | .entered | .tested | .locked | .unlocking => false

/-- Between the return of `stop_streaming` and the next `start_streaming` the handler is
not about to touch a buffer or the counter. -/
def Quiescent (x : Execution n) : Prop := x.session = false → acts x.irq = false

/-- `stop_streaming` returns only when the handler is not between the selection of a buffer
and the end of its work on it, and a handler that comes to its `list_empty` test while no
session runs finds the list empty. -/
def settled (x : Execution n) : Action n → Prop
  | .proc => x.proc = .stopDrained → acts x.irq = false
  | .handler _ => x.irq = .locked → x.session = false → x.cam.queue.queuedList = []
  | _ => True

/-- `stop_streaming` returns only when no handler has passed its test of the flag. -/
def synchronised (x : Execution n) : Action n → Prop
  | .proc => x.proc = .stopDrained → x.irq = .idle ∨ x.irq = .entered
  | _ => True

instance (x : Execution n) (a : Action n) : Decidable (synchronised x a) :=
  match a with
  | .proc => inferInstanceAs (Decidable (_ → _))
  | .qbuf _ | .dqbuf | .streamon | .streamoff | .irq | .handler _ => isTrue trivial

/-- A statement of the process: the handler stays where it is, and only `start_streaming` and
the return of `stop_streaming` change the session. -/
structure ProcEffect (x y : Execution n) : Prop where
  irq : y.irq = x.irq
  session : x.proc ≠ .stopDrained → x.session = true → y.session = true
  returned : x.proc = .stopDrained → y.session = false

theorem handOver_effect (ws : List (Fin n)) (x : Execution n) :
    (handOver ws x).irq = x.irq ∧ (x.session = true → (handOver ws x).session = true) := by
  cases ws with
  | nil => exact ⟨rfl, fun _ => rfl⟩
  | cons b rest => exact ⟨rfl, id⟩

theorem acquire_effect (c : Context) (l : Lock) (x : Execution n) (pc : ProcPc n) :
    (acquire c l (moveProc pc) x).irq = x.irq ∧
      (acquire c l (moveProc pc) x).session = x.session ∧
      (acquire c l (moveProc pc) x).cam = x.cam := by
  cases hl : x.holder l <;> simp [acquire, hl, moveProc]

theorem procStep_effect (h : procStep x = some y) : ProcEffect x y := by
  rw [procStep] at h
  split at h
  case h_1 => cases h
  case h_2 hp | h_8 hp | h_13 hp =>
    cases h
    obtain ⟨hi, hs, -⟩ := acquire_effect .process _ x _
    exact ⟨hi, fun _ => hs.trans, by simp [hp]⟩
  case h_4 rest hp =>
    cases h
    cases rest with
    | none => exact ⟨rfl, fun _ => id, by simp [hp]⟩
    | some ws =>
      obtain ⟨hi, hs⟩ := handOver_effect ws (release .queuedLock x)
      exact ⟨hi, fun _ => hs, by simp [hp]⟩
  case h_3 hp | h_11 hp =>
    obtain ⟨_, -, rfl⟩ := Option.map_eq_some_iff.mp h
    exact ⟨rfl, fun _ => id, by simp [hp]⟩
  case h_9 hp | h_12 hp | h_15 hp =>
    split at h <;> cases h
    all_goals exact ⟨rfl, fun _ => id, by simp [hp]⟩
  case h_16 hp =>
    cases h
    exact ⟨rfl, fun hne => absurd hp hne, fun _ => rfl⟩
  case h_5 hp | h_6 hp | h_7 hp | h_10 hp | h_14 hp | h_17 hp =>
    cases h
    exact ⟨rfl, fun _ => id, by simp [hp]⟩

theorem userStep_effect (h : userStep x a = some y) :
    y.irq = x.irq ∧ (x.session = true → y.session = true) := by
  cases a with
  | qbuf b =>
    simp only [userStep, qbuf, Option.ite_none_right_eq_some, Option.some.injEq] at h
    obtain ⟨-, rfl⟩ := h
    split <;> exact ⟨rfl, id⟩
  | dqbuf =>
    simp only [userStep, dqbuf, Option.ite_none_right_eq_some] at h
    obtain ⟨-, h⟩ := h
    split at h <;> cases h
    exact ⟨rfl, id⟩
  | streamon =>
    simp only [userStep, streamon, Option.ite_none_left_eq_some, Option.some.injEq] at h
    obtain ⟨-, rfl⟩ := h
    exact handOver_effect _ _
  | streamoff =>
    cases h
    rw [streamoff]
    split <;> exact ⟨rfl, id⟩
  | proc | irq | handler now => cases h

/-- A statement of the handler leaves the session alone, and it selects a buffer only at its
`list_empty` test. -/
theorem handlerStep_effect {cpu : Cpu} {now : ℕ} (h : handlerStep cpu now x = some y) :
    y.session = x.session ∧ (acts x.irq = false →
      (acts y.irq = true ↔ x.irq = .locked ∧ x.cam.queue.queuedList ≠ [])) := by
  rw [handlerStep] at h
  split at h
  case h_1 => cases h
  case h_2 hp =>
    cases h
    refine ⟨rfl, fun _ => ?_⟩
    cases x.cam.streaming <;> simp [moveIrq, acts, hp]
  case h_3 hp =>
    cases h
    cases hl : x.holder .doneLock <;> simp [acquire, hl, moveIrq, acts, hp]
  case h_4 hp =>
    split at h <;> cases h
    · next hq => exact ⟨rfl, fun _ => by simp [moveIrq, acts, hq]⟩
    · next hq => exact ⟨rfl, fun _ => by simp [moveIrq, acts, hp, hq]⟩
  case h_5 hp | h_6 hp | h_8 hp | h_9 hp =>
    cases h
    exact ⟨rfl, fun hno => by simp [hp, acts] at hno⟩
  case h_7 hp =>
    split at h <;> cases h
    · exact ⟨by simp [acquire]; split <;> rfl, fun hno => by simp [hp, acts] at hno⟩
    · exact ⟨rfl, fun hno => by simp [hp, acts] at hno⟩
  case h_10 hp =>
    cases h
    exact ⟨rfl, fun _ => by simp [release, moveIrq, acts, hp]⟩

/-- A step that lets a session go on comes from outside one if it ends outside one. -/
theorem session_down (hkeep : x.session = true → y.session = true) (hy : y.session = false) :
    x.session = false := by
  cases hx : x.session with
  | false => rfl
  | true => simp [hkeep hx] at hy

theorem quiescent_step (h : Quiescent x) (hs : step .other x a = some y) :
    Quiescent y ↔ settled x a := by
  cases a with
  | irq =>
    simp only [step, Option.ite_none_right_eq_some, Option.some.injEq] at hs
    obtain ⟨-, rfl⟩ := hs
    exact iff_of_true (fun _ => rfl) trivial
  | handler now =>
    have hh : handlerStep .other now x = some y := hs
    obtain ⟨hsession, hacts⟩ := handlerStep_effect hh
    constructor
    · intro hy hlocked hx
      by_contra hne
      have hyes := (hacts (h hx)).mpr ⟨hlocked, hne⟩
      rw [hy (hsession.trans hx)] at hyes
      cases hyes
    · intro hok hy
      have hx := hsession.symm.trans hy
      by_contra hyes
      obtain ⟨hlocked, hne⟩ := (hacts (h hx)).mp (by simpa using hyes)
      exact hne (hok hlocked hx)
  | proc =>
    simp only [step, Option.ite_none_right_eq_some] at hs
    have he := procStep_effect hs.2
    constructor
    · intro hy hreturn
      rw [← he.irq]
      exact hy (he.returned hreturn)
    · intro hok hy
      rw [he.irq]
      by_cases hreturn : x.proc = .stopDrained
      · exact hok hreturn
      · exact h (session_down (he.session hreturn) hy)
  | qbuf b | dqbuf | streamon | streamoff =>
    simp only [step, Option.ite_none_right_eq_some] at hs
    obtain ⟨hi, hkeep⟩ := userStep_effect hs.2
    refine iff_of_true (fun hy => ?_) trivial
    rw [hi]
    exact h (session_down hkeep hy)

/-- The process before the statement that clears the flag, or past `stop_streaming`. -/
def mayStream : ProcPc n → Bool
  | .stopFlagged | .stopLocked | .stopLoop _ _ | .stopDeleted _ _ | .stopChecked _ _ => false
  | .stopCompleting _ _ | .stopNext _ | .stopDrained | .stopReturned => false
  | _ => true

/-- The flag is up only inside a session, and down from the first statement of
`stop_streaming` on. -/
structure Flagged (x : Execution n) : Prop where
  flag : x.cam.streaming = true → x.session = true ∧ mayStream x.proc = true
  start : x.proc = .startStreaming → x.session = true

theorem Flagged.congr (h : Flagged x) (hf : y.cam.streaming = x.cam.streaming)
    (hs : y.session = x.session) (hm : mayStream y.proc = mayStream x.proc)
    (hp : y.proc = .startStreaming → x.proc = .startStreaming) : Flagged y := by
  constructor
  · rw [hf, hs, hm]
    exact h.flag
  · rw [hs]
    exact fun hy => h.start (hp hy)

theorem flagged_handOver (ws : List (Fin n)) (h : x.cam.streaming = true → x.session = true) :
    Flagged (handOver ws x) := by
  cases ws with
  | nil => exact ⟨fun _ => ⟨rfl, rfl⟩, fun _ => rfl⟩
  | cons b rest => exact ⟨fun hf => ⟨h hf, rfl⟩, fun hp => by cases hp⟩

theorem flagged_acquire {l : Lock} {pc : ProcPc n} (h : Flagged x) (hpc : pc ≠ .startStreaming)
    (hm : mayStream pc = mayStream x.proc) :
    Flagged (acquire .process l (moveProc pc) x) := by
  obtain ⟨-, hs, hc⟩ := acquire_effect .process l x pc
  apply h.congr (by rw [hc]) hs
  · cases hl : x.holder l <;> simp [acquire, hl, moveProc, hm]
  · cases hl : x.holder l <;> simp [acquire, hl, moveProc, hpc]

theorem flagged_procStep (h : Flagged x) (hs : procStep x = some y) : Flagged y := by
  rw [procStep] at hs
  split at hs
  case h_1 => cases hs
  case h_2 hp | h_8 hp | h_13 hp =>
    cases hs
    exact flagged_acquire h (by simp) (by simp [hp, mayStream])
  case h_3 hp =>
    obtain ⟨cam, hcam, rfl⟩ := Option.map_eq_some_iff.mp hs
    obtain ⟨l, rfl⟩ := bufQueue_some hcam
    exact h.congr rfl rfl (by simp [hp, mayStream]) (by simp)
  case h_4 rest hp =>
    cases hs
    cases rest with
    | none =>
      exact h.congr rfl rfl (by simp [hp, mayStream, leaveBufQueue, moveProc])
        (by simp [leaveBufQueue, moveProc])
    | some ws => exact flagged_handOver ws (fun hf => (h.flag hf).1)
  case h_5 hp =>
    cases hs
    exact ⟨fun _ => ⟨h.start hp, rfl⟩, by simp⟩
  case h_6 hp =>
    cases hs
    exact h.congr rfl rfl (by simp [hp, mayStream]) (by simp)
  case h_7 hp =>
    cases hs
    exact ⟨by simp [clearStreaming], by simp⟩
  case h_11 hp =>
    obtain ⟨_, -, rfl⟩ := Option.map_eq_some_iff.mp hs
    exact h.congr rfl rfl (by simp [hp, mayStream]) (by simp)
  case h_9 hp | h_12 hp | h_15 hp =>
    split at hs <;> cases hs
    all_goals exact h.congr rfl rfl (by simp [hp, mayStream, moveProc]) (by simp [moveProc])
  case h_10 hp | h_14 hp =>
    cases hs
    exact h.congr rfl rfl (by simp [hp, mayStream, release, moveProc])
      (by simp [release, moveProc])
  case h_16 hp | h_17 hp =>
    -- the flag is down here, whatever the session is set to
    cases hs
    have hdown : x.cam.streaming ≠ true := fun hf => by simpa [hp, mayStream] using (h.flag hf).2
    exact ⟨fun hf => absurd hf hdown, by simp [release, moveProc]⟩

theorem flagged_userStep (h : Flagged x) (hu : x.proc = .user) (hs : userStep x a = some y) :
    Flagged y := by
  cases a with
  | qbuf b =>
    simp only [userStep, qbuf, Option.ite_none_right_eq_some, Option.some.injEq] at hs
    obtain ⟨-, rfl⟩ := hs
    split
    · exact h.congr rfl rfl (by simp [hu, mayStream, callBufQueue, moveProc])
        (by simp [callBufQueue, moveProc])
    · exact h.congr rfl rfl rfl id
  | dqbuf =>
    simp only [userStep, dqbuf, Option.ite_none_right_eq_some] at hs
    obtain ⟨-, hs⟩ := hs
    split at hs <;> cases hs
    exact h.congr rfl rfl rfl id
  | streamon =>
    simp only [userStep, streamon, Option.ite_none_left_eq_some, Option.some.injEq] at hs
    obtain ⟨-, rfl⟩ := hs
    exact flagged_handOver _ (fun hf => (h.flag hf).1)
  | streamoff =>
    cases hs
    rw [streamoff]
    split
    · exact h.congr rfl rfl (by simp [hu, mayStream, moveProc]) (by simp [moveProc])
    · exact h.congr rfl rfl rfl id
  | proc | irq | handler now => cases hs

/-- The handler writes neither the flag nor the process. -/
theorem handlerStep_flag {cpu : Cpu} {now : ℕ} (h : handlerStep cpu now x = some y) :
    y.cam.streaming = x.cam.streaming ∧ y.proc = x.proc := by
  rw [handlerStep] at h
  split at h
  case h_1 => cases h
  case h_3 hp =>
    cases h
    cases hl : x.holder .doneLock <;> simp [acquire, hl, moveIrq]
  case h_4 hp =>
    split at h <;> cases h
    all_goals exact ⟨rfl, rfl⟩
  case h_7 hp =>
    split at h <;> cases h
    · cases hl : x.holder .doneLock <;> simp [acquire, hl, moveIrq]
    · exact ⟨rfl, rfl⟩
  case h_2 | h_5 | h_6 | h_8 | h_9 | h_10 =>
    cases h
    exact ⟨rfl, rfl⟩

theorem flagged_step (h : Flagged x) (hs : step .other x a = some y) : Flagged y := by
  cases a with
  | irq =>
    simp only [step, Option.ite_none_right_eq_some, Option.some.injEq] at hs
    obtain ⟨-, rfl⟩ := hs
    exact h.congr rfl rfl rfl id
  | handler now =>
    have hh : handlerStep .other now x = some y := hs
    obtain ⟨hf, hp⟩ := handlerStep_flag hh
    exact h.congr hf (handlerStep_effect hh).1 (by rw [hp]) (fun hy => hp ▸ hy)
  | proc =>
    simp only [step, Option.ite_none_right_eq_some] at hs
    exact flagged_procStep h hs.2
  | qbuf b | dqbuf | streamon | streamoff =>
    simp only [step, Option.ite_none_right_eq_some] at hs
    exact flagged_userStep h hs.1.2 hs.2

/-- Outside a session the handler has not passed its test of the flag. -/
structure Waiting (x : Execution n) : Prop where
  flagged : Flagged x
  untested : x.session = false → x.irq = .idle ∨ x.irq = .entered

theorem waiting_initial (n : ℕ) : Waiting (Execution.initial n) := by
  refine ⟨⟨?_, ?_⟩, fun _ => .inl rfl⟩ <;> simp [Execution.initial, CameraDev.fresh]

theorem waiting_step (h : Waiting x) (hok : synchronised x a) (hs : step .other x a = some y) :
    Waiting y := by
  refine ⟨flagged_step h.flagged hs, fun hy => ?_⟩
  cases a with
  | irq =>
    simp only [step, Option.ite_none_right_eq_some, Option.some.injEq] at hs
    obtain ⟨-, rfl⟩ := hs
    exact .inr rfl
  | handler now =>
    have hh : handlerStep .other now x = some y := hs
    have hx := (handlerStep_effect hh).1.symm.trans hy
    rcases h.untested hx with hp | hp
    · simp [handlerStep, hp] at hh
    · have hf : x.cam.streaming = false := by
        cases hf : x.cam.streaming with
        | false => rfl
        | true => simp [(h.flagged.flag hf).1] at hx
      simp only [handlerStep, hp, hf, Option.some.injEq] at hh
      subst hh
      exact .inl rfl
  | proc =>
    simp only [step, Option.ite_none_right_eq_some] at hs
    have he := procStep_effect hs.2
    rw [he.irq]
    by_cases hreturn : x.proc = .stopDrained
    · exact hok hreturn
    · exact h.untested (session_down (he.session hreturn) hy)
  | qbuf b | dqbuf | streamon | streamoff =>
    simp only [step, Option.ite_none_right_eq_some] at hs
    obtain ⟨hi, hkeep⟩ := userStep_effect hs.2
    rw [hi]
    exact h.untested (session_down hkeep hy)

theorem Waiting.settled (h : Waiting x) (hok : synchronised x a) : settled x a := by
  cases a with
  | proc =>
    intro hreturn
    rcases hok hreturn with hi | hi <;> rw [hi] <;> rfl
  | handler now =>
    intro hlocked hx
    rcases h.untested hx with hi | hi <;> simp [hi] at hlocked
  | _ => trivial

/-- A run is quiescent in every state that it reaches exactly when its steps are settled,
and they are when `stop_streaming` never returns past a handler that has tested the flag. -/
theorem quiescent_run_iff (n : ℕ) (as : List (Action n)) (x : Execution n) :
    (Run (Reaching Quiescent (Steps (step .other))) (Execution.initial n) as x ↔
      Run (Within settled (Steps (step .other))) (Execution.initial n) as x) ∧
    (Run (Within synchronised (Steps (step .other))) (Execution.initial n) as x →
      Run (Within settled (Steps (step .other))) (Execution.initial n) as x) := by
  constructor
  · exact reaching_iff_within (fun _ => True) trivial (fun _ => rfl) (fun _ _ _ _ _ => trivial)
      (fun _ _ _ _ h hs => quiescent_step h hs)
  · intro run
    exact (run.upgrade Waiting (waiting_initial n) (fun _ _ _ h hs => waiting_step h hs.1 hs.2)
      (fun _ _ _ h hs => ⟨h.settled hs.1, hs.2⟩)).1

/-- A session of one frame, stopped while no handler runs: the handler that interrupts the
stop finds the flag down. -/
theorem quiescent_run_one : ∃ (as : List (Action 1)) (x : Execution 1),
    Run (Reaching Quiescent (Steps (step .other))) (Execution.initial 1) as x ∧
      x.session = false ∧ x.cam.frameCount = 1 := by
  let as : List (Action 1) := List.flatten [[.qbuf 0, .streamon], List.replicate 5 .proc,
    .irq :: List.replicate 9 (.handler 1), .streamoff :: List.replicate 3 .proc,
    .irq :: .handler 2 :: List.replicate 6 .proc]
  have run : (follow (guarded synchronised (step .other)) (Execution.initial 1) as).map
      (fun x => (x.session, x.cam.frameCount)) = some (false, 1) := by decide +kernel
  obtain ⟨x, hf, hx⟩ := Option.map_eq_some_iff.mp run
  obtain ⟨hs, hc⟩ := Prod.mk.inj hx
  obtain ⟨hiff, hsync⟩ := quiescent_run_iff 1 as x
  exact ⟨as, x, hiff.mpr (hsync (run_within_steps_iff.mpr hf)), hs, hc⟩

/-- The handler tests the flag, `stop_streaming` runs from its first statement to its last,
and the handler then selects the only buffer. -/
theorem handler_outlives_stop : ¬ ∀ (n : ℕ) (as : List (Action n)) (x : Execution n),
    Run (Steps (step .other)) (Execution.initial n) as x → Quiescent x := by
  intro hall
  let as : List (Action 1) := List.flatten [[.qbuf 0, .streamon], List.replicate 5 .proc,
    [.irq, .handler 1, .streamoff], List.replicate 10 .proc, List.replicate 2 (.handler 1)]
  have run : (follow (step .other) (Execution.initial 1) as).map
      (fun x => (x.session, x.irq)) = some (false, .picked 0) := by decide +kernel
  obtain ⟨x, hf, hx⟩ := Option.map_eq_some_iff.mp run
  obtain ⟨hs, hi⟩ := Prod.mk.inj hx
  have hq := hall 1 as x (run_steps_iff.mpr hf) hs
  simp [hi, acts] at hq

end CameraDrivers.StopQuiescence
