import CameraDrivers.CaptureRuns

/-!
# Which buffer a frame interrupt completes

The handler takes the first buffer of vb2's own list. A completed buffer stays on that
list until user space dequeues it, so the handler finds the oldest ACTIVE buffer exactly
when no completed buffer waits for DQBUF. Otherwise it stamps the waiting buffer once
more, vb2 refuses the completion and the frame counter advances all the same.
-/
namespace CameraDrivers.FrameCompletion
open CameraState CameraCallbacks TransitionRuns CaptureRuns

variable {n : ℕ} {s t : Capture n} {b : Fin n} {xs : List (Fin n)} {as : List (Action n)}

/-- The buffer that has been ACTIVE the longest. -/
def Oldest (s : Capture n) (b : Fin n) : Prop :=
  s.state b = .active ∧ ∀ c, s.state c = .active → c ≠ b → s.received b < s.received c

/-- vb2 accepts the completion of `b`, and nothing else happens to a buffer. -/
structure CompletesOnly (s : Capture n) (b : Fin n) (t : Capture n) : Prop where
  done : t.state b = .done
  doneList : t.cam.queue.doneList = s.cam.queue.doneList ++ [b]
  others : ∀ c ≠ b, t.cam.queue.buf c = s.cam.queue.buf c
  completed : t.completed = s.completed ++ [b]

/-- An interrupt completes exactly the oldest ACTIVE buffer, and does nothing to the
buffers and the counter when there is none. -/
def CompletesOldest (s : Capture n) (elapsed : ℕ) : Prop :=
  ((∃ b, s.state b = .active) → ∃ b, Oldest s b ∧ CompletesOnly s b (interrupt elapsed s)) ∧
  ((∀ b, s.state b ≠ .active) → (interrupt elapsed s).cam.queue.buf = s.cam.queue.buf ∧
    (interrupt elapsed s).cam.frameCount = s.cam.frameCount ∧
    (interrupt elapsed s).completed = s.completed)

/-- Every interrupt finds the buffers that earlier ones completed dequeued. -/
def dequeuedBefore (s : Capture n) : Action n → Prop
  | .interrupt _ => s.cam.queue.doneList = []
  | _ => True

/-- The steps a session is made of once STREAMON has raised the flag. -/
def Action.inSession : Action n → Bool
  | .streamon | .streamoff => false
  | _ => true

def Action.isInterrupt : Action n → Bool
  | .interrupt _ => true
  | _ => false

theorem oldest_head {rest : List (Fin n)} (h : ActiveInOrder s (b :: rest)) : Oldest s b := by
  refine ⟨(h.mem_iff b).mp (by simp), fun c hc hne => ?_⟩
  have hm := (h.mem_iff c).mpr hc
  exact (List.pairwise_cons.mp h.sorted).1 c ((List.mem_cons.mp hm).resolve_left hne)

private theorem completesOnly_head {rest : List (Fin n)} (hs : s.cam.streaming = true)
    (hq : s.cam.queue.queuedList = b :: rest) (hb : s.state b = .active) (d : ℕ) :
    CompletesOnly s b (interrupt d s) := by
  have hc : completes s.cam = some b := by
    simp only [Capture.state] at hb
    simp [completes, hs, hq, hb]
  have hact : (s.cam.queue.stamp b (s.clock + d) s.cam.frameCount).state b = .active := by
    simpa using hb
  have hcam : (interrupt d s).cam.queue =
      { (s.cam.queue.stamp b (s.clock + d) s.cam.frameCount).setState b .done with
        doneList := s.cam.queue.doneList ++ [b] } := by
    simp [interrupt, cameraIrqHandler, hs, hq, advanceFrameCount, completeBuffer, stampBuffer,
      vb2BufferDone_done hact]
  refine ⟨?_, by rw [hcam], fun c hne => ?_, by simp [interrupt, hc]⟩
  · rw [Capture.state, hcam]
    exact (state_setState _ b b .done).trans (by simp)
  · rw [hcam]
    simp [Vb2Queue.setState, Vb2Queue.stamp, hne]

/-- The exact condition in one state: no completed buffer waits for DQBUF. -/
theorem completesOldest_iff (h : Sound s xs) (hs : s.cam.streaming = true) (d : ℕ) :
    CompletesOldest s d ↔ s.cam.queue.doneList = [] := by
  have hp := h.streaming_iff.mp hs
  have hrun := h.running hp
  constructor
  · intro hcompletes
    obtain ⟨hsome, hnone⟩ := hcompletes
    by_contra hne
    obtain ⟨w, ws, hw⟩ := List.exists_cons_of_ne_nil hne
    have hwd : s.state w = .done := (h.done_iff w).mp (by simp [hw])
    rw [hw, List.cons_append] at hrun
    have hi : cameraIrqHandler (s.clock + d) s.cam =
        advanceFrameCount (stampBuffer w (s.clock + d) s.cam) := by
      simp only [Capture.state] at hwd
      simp [cameraIrqHandler, hs, hrun, completeBuffer, stampBuffer, hwd]
    by_cases hact : ∃ b, s.state b = .active
    · obtain ⟨b, hb, hdone, -⟩ := hsome hact
      have hsame : (interrupt d s).state b = s.state b := by
        simp [interrupt, hi, advanceFrameCount, stampBuffer]
      simp [hsame, hb.1] at hdone
    · obtain ⟨-, hcount, -⟩ := hnone (fun b hb => hact ⟨b, hb⟩)
      simp [interrupt, hi, advanceFrameCount, stampBuffer] at hcount
  · intro hnil
    rw [hnil, List.nil_append] at hrun
    cases xs with
    | nil =>
      have hi : cameraIrqHandler (s.clock + d) s.cam = s.cam := by simp [cameraIrqHandler, hrun]
      refine ⟨fun hact => ?_, fun _ => ?_⟩
      · obtain ⟨b, hb⟩ := hact
        simpa using (h.order.mem_iff b).mpr hb
      · simp [interrupt, hi, completes, hrun]
    | cons b rest =>
      have hold := oldest_head h.order
      exact ⟨fun _ => ⟨b, hold, completesOnly_head hs hrun hold.1 d⟩,
        fun hno => absurd hold.1 (hno b)⟩

/-- Along a session what was completed and what is ACTIVE add up to the hand-over order. -/
private theorem completed_run (h : Sound s xs) (hs : s.cam.streaming = true)
    (run : Run (Within dequeuedBefore (Steps step)) s as t)
    (hin : as.all Action.inSession) (hk : as.countP Action.isInterrupt ≤ xs.length) :
    ∃ ys zs, Sound t ys ∧ t.cam.streaming = true ∧ t.completed ++ ys = s.completed ++ (xs ++ zs) ∧
      t.completed.length = s.completed.length + as.countP Action.isInterrupt := by
  induction run with
  | refl => exact ⟨xs, [], h, hs, by simp, by simp⟩
  | @snoc y t as a run last ih =>
    simp only [List.all_append, List.all_cons, List.all_nil, Bool.and_true, Bool.and_eq_true] at hin
    simp only [List.countP_append, List.countP_singleton] at hk
    obtain ⟨ys, zs, hy, hys, hsum, hlen⟩ := ih hin.1 (by omega)
    obtain ⟨hok, hstep⟩ := last
    have hp := hy.streaming_iff.mp hys
    cases a with
    | qbuf b =>
      obtain ⟨vs, ht⟩ := sound_qbuf hy hstep
      have hf := queueFrame_qbuf hstep
      refine ⟨ys ++ vs, zs ++ vs, ht, ht.streaming_iff.mpr (hf.phase ▸ hp), ?_, ?_⟩
      · rw [hf.completed, ← List.append_assoc, hsum]
        simp
      · simpa [hf.completed, Action.isInterrupt] using hlen
    | dqbuf =>
      cases hstep
      have ht := sound_dqbuf hy
      have hc : (dqbuf y).completed = y.completed ∧ (dqbuf y).phase = y.phase := by
        rw [dqbuf]
        split
        · split <;> exact ⟨rfl, rfl⟩
        · exact ⟨rfl, rfl⟩
      refine ⟨ys, zs, ht, ht.streaming_iff.mpr (hc.2 ▸ hp), hc.1 ▸ hsum, ?_⟩
      simpa [hc.1, Action.isInterrupt] using hlen
    | startReset =>
      cases hstep
      have ht := sound_startReset hy
      have hc : (startReset y).completed = y.completed ∧ (startReset y).phase ≠ .stopped := by
        rw [startReset]
        split
        · exact ⟨rfl, by simp⟩
        · exact ⟨rfl, hp⟩
      refine ⟨ys, zs, ht, ht.streaming_iff.mpr hc.2, hc.1 ▸ hsum, ?_⟩
      simpa [hc.1, Action.isInterrupt] using hlen
    | streamon | streamoff => simp [Action.inSession] at hin
    | interrupt d =>
      cases hstep
      simp only [Action.isInterrupt, ↓reduceIte] at hk
      rcases sound_interrupt hy d with ⟨hnone, -⟩ | ⟨b, rest, rfl, -, hsome, ht⟩
      · -- with fewer interrupts than ACTIVE buffers so far, the list cannot be empty
        have hrun := hy.running hp
        rw [show y.cam.queue.doneList = [] from hok, List.nil_append] at hrun
        have hlen' := congrArg List.length hsum
        simp only [List.length_append] at hlen'
        obtain ⟨b, rest, rfl⟩ := List.exists_cons_of_ne_nil (l := ys) (by
          rintro rfl
          simp at hlen'
          omega)
        have hb := (oldest_head hy.order).1
        simp only [Capture.state] at hb
        simp [completes, hys, hrun, hb] at hnone
      · refine ⟨rest, zs, ht, ht.streaming_iff.mpr hp, ?_, ?_⟩
        · simpa [interrupt, hsome] using hsum
        · simp [interrupt, hsome, hlen, Action.isInterrupt]
          omega

/-- In a streaming state an interrupt completes the right buffer exactly when the done list
is empty. Where that holds at each of at most as many interrupts as there are ACTIVE
buffers, they deliver distinct buffers in hand-over order. -/
theorem interrupt_completes_oldest (reach : Reachable (Steps step) (Capture.initial n) s)
    (hs : s.cam.streaming = true) :
    (∀ d, CompletesOldest s d ↔ s.cam.queue.doneList = []) ∧
    ∀ xs as t, ActiveInOrder s xs → Run (Within dequeuedBefore (Steps step)) s as t →
      as.all Action.inSession → as.countP Action.isInterrupt ≤ xs.length →
      t.completed = s.completed ++ xs.take (as.countP Action.isInterrupt) ∧
        (xs.take (as.countP Action.isInterrupt)).Nodup := by
  obtain ⟨ys, h⟩ := sound_reachable reach
  refine ⟨completesOldest_iff h hs, fun xs as t hx run hin hk => ?_⟩
  obtain rfl := activeInOrder_unique hx h.order
  obtain ⟨us, zs, -, -, hsum, hlen⟩ := completed_run h hs run hin hk
  constructor
  · have ht := congrArg (List.take t.completed.length) hsum
    rw [List.take_left, hlen, List.take_append, List.take_append_of_le_length (by omega)] at ht
    rw [ht]
    simp
  · exact hx.nodup.take

/-- Two buffers in a streaming session: the first interrupt is in order. -/
theorem interrupt_completes_oldest_two : ∃ s : Capture 2,
    follow step (Capture.initial 2) [.qbuf 0, .qbuf 1, .streamon, .startReset] = some s ∧
      (CompletesOldest s 1 ↔ s.cam.queue.doneList = []) := by
  have run : (follow step (Capture.initial 2) [.qbuf 0, .qbuf 1, .streamon, .startReset]).map
      (·.cam.streaming) = some true := by decide
  obtain ⟨s, hf, hs⟩ := Option.map_eq_some_iff.mp run
  exact ⟨s, hf, (interrupt_completes_oldest ⟨_, run_steps_iff.mpr hf⟩ hs).1 1⟩

/-- A second interrupt before the DQBUF completes nothing although a buffer is ACTIVE. -/
theorem second_interrupt_misses : ¬ ∀ (n : ℕ) (s : Capture n),
    Reachable (Steps step) (Capture.initial n) s → s.cam.streaming = true →
      ∀ d, CompletesOldest s d := by
  intro hall
  let as : List (Action 2) := [.qbuf 0, .qbuf 1, .streamon, .startReset, .interrupt 1]
  have run : (follow step (Capture.initial 2) as).map
      (fun s => (s.cam.streaming, s.cam.queue.doneList)) = some (true, [0]) := by decide
  obtain ⟨s, hf, hs⟩ := Option.map_eq_some_iff.mp run
  obtain ⟨hstream, hdone⟩ := Prod.mk.inj hs
  have reach : Reachable (Steps step) (Capture.initial 2) s := ⟨as, run_steps_iff.mpr hf⟩
  obtain ⟨xs, h⟩ := sound_reachable reach
  have hnil := (completesOldest_iff h hstream 1).mp (hall 2 s reach hstream 1)
  simp [hnil] at hdone

end CameraDrivers.FrameCompletion
