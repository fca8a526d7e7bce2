import CameraDrivers.CaptureRuns

/-!
# Frame numbers and timestamps of a streaming session

The buffers a session has completed form a line: those user space dequeued, then those
still on the done list. Where every interrupt completes a fresh buffer, the line is
numbered from 0 by the frame counter. An interrupt that finds a completed buffer at the
head of vb2's list stamps it a second time, and one that comes between the two statements
of `start_streaming` numbers its buffer by the counter of the session before.
-/
namespace CameraDrivers.FrameNumbering
open CameraState CameraCallbacks TransitionRuns CaptureRuns

section Numbered

variable {α : Type*} {w : ℕ} {number : α → BitVec w} {xs ys : List α} {a : α}

/-- The entries carry 0, 1, 2, ... modulo `2 ^ w`. -/
def Numbered (number : α → BitVec w) (xs : List α) : Prop :=
  xs.map number = (List.range xs.length).map (BitVec.ofNat w)

theorem Numbered.nil : Numbered number [] := rfl

theorem Numbered.snoc (h : Numbered number xs) (ha : number a = BitVec.ofNat w xs.length) :
    Numbered number (xs ++ [a]) := by
  simp only [Numbered, List.map_append, List.map_cons, List.map_nil, List.length_append,
    List.length_cons, List.length_nil, Nat.zero_add, List.range_succ]
  rw [h, ha]

theorem Numbered.left (h : Numbered number (xs ++ ys)) : Numbered number xs := by
  have ht := congrArg (List.take xs.length) h
  simp only [List.map_append, ← List.map_take, List.length_append] at ht
  rw [List.take_left' (by simp), List.take_range] at ht
  simpa [Numbered] using ht

theorem Numbered.get (h : Numbered number xs) {i : ℕ} (hi : i < xs.length) :
    number xs[i] = BitVec.ofNat w i := by
  have hg := congrArg (fun l => l[i]?) h
  simpa [hi] using hg

end Numbered

variable {n : ℕ} {s t : Capture n} {b : Fin n} {xs : List (Fin n)} {as : List (Action n)}

/-- What user space dequeued in state DONE since the session started. -/
def deliveredDone (s : Capture n) : List Vb2V4l2Buffer :=
  s.delivered.filter (fun v => v.state = .done)

/-- The i-th dequeued buffer carries number i, and timestamps do not decrease. -/
structure InOrder (s : Capture n) : Prop where
  sequence : ∀ i (hi : i < (deliveredDone s).length),
    (deliveredDone s)[i].sequence = BitVec.ofNat 32 i
  timestamp : (deliveredDone s).Pairwise (fun v w => v.timestamp ≤ w.timestamp)

/-- The step writes the stamps of no buffer but the one that it completes. -/
def StampsKept (s : Capture n) (a : Action n) (t : Capture n) : Prop :=
  ∀ b, (t.cam.queue.buf b).timestamp = (s.cam.queue.buf b).timestamp ∧
      (t.cam.queue.buf b).sequence = (s.cam.queue.buf b).sequence ∨
    (∃ d, a = .interrupt d) ∧ completes s.cam = some b ∧ t.state b = .done

/-- An interrupt of a session finds the completed buffers dequeued, and inside
`start_streaming` it finds no buffer queued. -/
def onTime (s : Capture n) : Action n → Prop
  | .interrupt _ => s.cam.streaming = true →
      s.cam.queue.doneList = [] ∧ (s.phase = .starting → s.cam.queue.queuedList = [])
  | _ => True

instance (s : Capture n) (a : Action n) : Decidable (onTime s a) :=
  match a with
  | .interrupt _ => inferInstanceAs (Decidable (_ → _))
  | .qbuf _ | .dqbuf | .streamon | .startReset | .streamoff => isTrue trivial

/-- The buffers completed in the session, in the order of their completion. -/
def line (s : Capture n) : List Vb2V4l2Buffer :=
  s.delivered ++ s.cam.queue.doneList.map s.cam.queue.buf

structure LineUp (s : Capture n) : Prop where
  numbered : Numbered Vb2V4l2Buffer.sequence (line s)
  ordered : (line s).Pairwise (fun v w => v.timestamp ≤ w.timestamp)
  past : ∀ v ∈ line s, v.timestamp ≤ s.clock
  done : ∀ v ∈ line s, v.state = .done
  counter : s.phase = .started → s.cam.frameCount = BitVec.ofNat 32 (line s).length
  starting : s.phase = .starting → line s = []

theorem LineUp.inOrder (h : LineUp s) : InOrder s := by
  have hall : deliveredDone s = s.delivered :=
    List.filter_eq_self.mpr (fun v hv => by simpa using h.done v (List.mem_append_left _ hv))
  constructor
  · intro i hi
    simp only [hall] at hi ⊢
    exact h.numbered.left.get hi
  · rw [hall]
    exact (List.pairwise_append.mp h.ordered).1

/-- A step that keeps line, clock, counter and phase. -/
private theorem LineUp.congr (h : LineUp s) (hl : line t = line s) (hc : t.clock = s.clock)
    (hf : t.cam.frameCount = s.cam.frameCount) (hp : t.phase = s.phase) : LineUp t := by
  constructor
  · exact hl ▸ h.numbered
  · exact hl ▸ h.ordered
  · exact hl ▸ hc ▸ h.past
  · exact hl ▸ h.done
  · rw [hp, hf, hl]
    exact h.counter
  · rw [hp, hl]
    exact h.starting

private theorem lineUp_qbuf (h : LineUp s) (hs : Sound s xs) (ht : qbuf b s = some t) :
    LineUp t := by
  have hf := queueFrame_qbuf ht
  refine h.congr ?_ hf.clock hf.frameCount hf.phase
  rw [line, line, hf.delivered, hf.doneList]
  refine congrArg _ (List.map_congr_left (fun c hc => ?_))
  exact qbuf_kept ht ((hs.done_iff c).mp hc)

/-- DQBUF moves the head of the done list to the end of the delivered buffers. -/
private theorem line_dqbuf (hs : Sound s xs) : line (dqbuf s) = line s := by
  rw [dqbuf]
  split
  · next hp =>
    split
    · rfl
    · next b rest hd =>
      have hnd := hs.done_nodup (by simp [hp])
      rw [hd] at hnd
      simp only [line, hd, dequeueBuffer, List.map_cons, List.append_assoc, List.singleton_append]
      refine congrArg (s.delivered ++ _ :: ·) (List.map_congr_left (fun c hc => ?_))
      have hne : c ≠ b := fun e => (List.nodup_cons.mp hnd).1 (e ▸ hc)
      simp [Vb2Queue.setState, hne]
  · rfl

private theorem lineUp_dqbuf (h : LineUp s) (hs : Sound s xs) : LineUp (dqbuf s) := by
  refine h.congr (line_dqbuf hs) ?_ ?_ ?_ <;>
  · rw [dqbuf]
    split
    · split <;> rfl
    · rfl

private theorem lineUp_nil (hl : line t = []) (hf : t.phase = .started → t.cam.frameCount = 0) :
    LineUp t := by
  refine ⟨hl ▸ Numbered.nil, hl ▸ .nil, ?_, ?_, fun hp => ?_, fun _ => hl⟩
  · simp [hl]
  · simp [hl]
  · rw [hf hp, hl]
    rfl

private theorem lineUp_streamon (h : LineUp s) (hs : Sound s xs) (ht : streamon s = some t) :
    LineUp t := by
  by_cases hp : s.phase = .stopped
  · obtain ⟨z, hz, rfl⟩ := streamon_some hp ht
    have hdone := (handedOver_fold hz hs.nodup).doneList.trans (hs.stopped_lists hp).2.1
    exact lineUp_nil (by simp [line, raiseStreaming, hdone]) (by simp)
  · rw [streamon, if_neg hp, Option.some.injEq] at ht
    exact ht ▸ h

private theorem lineUp_startReset (h : LineUp s) : LineUp (startReset s) := by
  rw [startReset]
  split
  · next hp =>
    have hline := h.starting hp
    exact lineUp_nil hline (fun _ => rfl)
  · exact h

/-- A stopped device keeps only the delivered part of the line. -/
private theorem LineUp.left (h : LineUp s) (hl : line t = s.delivered) (hc : t.clock = s.clock)
    (hp : t.phase = .stopped) : LineUp t := by
  refine ⟨hl ▸ h.numbered.left, hl ▸ (List.pairwise_append.mp h.ordered).1, ?_, ?_, ?_, ?_⟩
  · intro v hv
    rw [hl] at hv
    rw [hc]
    exact h.past v (List.mem_append_left _ hv)
  · intro v hv
    rw [hl] at hv
    exact h.done v (List.mem_append_left _ hv)
  all_goals simp [hp]

private theorem lineUp_streamoff (h : LineUp s) (ht : streamoff s = some t) : LineUp t := by
  rw [streamoff] at ht
  split at ht
  · exact Option.some.inj ht ▸ h
  · next hp =>
    cases ht
    exact h.left (by simp [line, cancelQueue]) rfl hp
  · obtain ⟨cam, -, rfl⟩ := Option.map_eq_some_iff.mp ht
    exact h.left (by simp [line, cancelQueue]) rfl rfl

/-- An interrupt on time: nothing happens to the buffers, or the oldest one joins the line. -/
private theorem interrupt_onTime (hs : Sound s xs) {d : ℕ} (hok : onTime s (.interrupt d)) :
    (interrupt d s).cam = s.cam ∨ ∃ b, s.phase = .started ∧ completes s.cam = some b ∧
      s.cam.queue.doneList = [] ∧
      (interrupt d s).cam.frameCount = s.cam.frameCount + 1 ∧
      (interrupt d s).cam.queue = { (s.cam.queue.stamp b (s.clock + d) s.cam.frameCount).setState
        b .done with doneList := [b] } := by
  rcases cameraIrqHandler_cases (s.clock + d) s.cam with ⟨-, -, hi⟩ |
      ⟨b, rest, hst, hq, hb, hc, hi⟩ | ⟨b, rest, hst, hq, hb, -, -⟩
  · exact .inl hi
  · obtain ⟨hdone, hstart⟩ := hok hst
    have hp := hs.streaming_iff.mp hst
    have hphase : s.phase = .started := by
      cases hph : s.phase with
      | stopped => exact absurd hph hp
      | starting => simp [hstart hph] at hq
      | started => rfl
    have hact : (s.cam.queue.stamp b (s.clock + d) s.cam.frameCount).state b = .active := by
      simpa using hb
    refine .inr ⟨b, hphase, hc, hdone, ?_, ?_⟩
    · simp [interrupt, hi, advanceFrameCount, completeBuffer, stampBuffer]
    · simp [interrupt, hi, advanceFrameCount, completeBuffer, stampBuffer,
        vb2BufferDone_done hact, hdone]
  · obtain ⟨hdone, -⟩ := hok hst
    rcases hs.head (hs.streaming_iff.mp hst) hq with ⟨hact, -⟩ | ⟨-, ds, hd⟩
    · exact absurd hact hb
    · simp [hdone] at hd

private theorem lineUp_interrupt (h : LineUp s) (hs : Sound s xs) {d : ℕ}
    (hok : onTime s (.interrupt d)) : LineUp (interrupt d s) := by
  have hclock : s.clock ≤ (interrupt d s).clock := Nat.le_add_right _ _
  rcases interrupt_onTime hs hok with hcam | ⟨b, hp, -, hdone, hcount, hqueue⟩
  · have hl : line (interrupt d s) = line s := by rw [line, line, hcam]; rfl
    refine ⟨hl ▸ h.numbered, hl ▸ h.ordered, fun v hv => ?_, hl ▸ h.done, ?_, ?_⟩
    · exact (h.past v (hl ▸ hv)).trans hclock
    · rw [hl, hcam]
      exact h.counter
    · rw [hl]
      exact h.starting
  · let v : Vb2V4l2Buffer := { s.cam.queue.buf b with
      state := .done, timestamp := s.clock + d, sequence := s.cam.frameCount, field := .none }
    have hold : line s = s.delivered := by simp [line, hdone]
    have hl : line (interrupt d s) = line s ++ [v] := by
      rw [hold, line, hqueue]
      simp [v, interrupt, Vb2Queue.setState, Vb2Queue.stamp]
    have hnum : v.sequence = BitVec.ofNat 32 (line s).length := h.counter hp
    refine ⟨hl ▸ h.numbered.snoc hnum, ?_, ?_, ?_, fun _ => ?_, fun hp' => ?_⟩
    · rw [hl, List.pairwise_append]
      refine ⟨h.ordered, by simp, fun u hu w hw => ?_⟩
      rw [List.mem_singleton.mp hw]
      exact (h.past u hu).trans (Nat.le_add_right _ _)
    · intro u hu
      rw [hl, List.mem_append, List.mem_singleton] at hu
      rcases hu with hu | rfl
      · exact (h.past u hu).trans hclock
      · exact Nat.le_refl _
    · intro u hu
      rw [hl, List.mem_append, List.mem_singleton] at hu
      rcases hu with hu | rfl
      · exact h.done u hu
      · rfl
    · rw [hcount, hl, h.counter hp, List.length_append, BitVec.ofNat_add]
      rfl
    · have hs' : s.phase = .starting := hp'
      simp [hp] at hs'

private theorem lineUp_step (h : LineUp s) (hs : Sound s xs) {a : Action n} (hok : onTime s a)
    (ht : step s a = some t) : LineUp t := by
  cases a with
  | qbuf b => exact lineUp_qbuf h hs ht
  | dqbuf =>
    cases ht
    exact lineUp_dqbuf h hs
  | streamon => exact lineUp_streamon h hs ht
  | startReset =>
    cases ht
    exact lineUp_startReset h
  | streamoff => exact lineUp_streamoff h ht
  | interrupt d =>
    cases ht
    exact lineUp_interrupt h hs hok

private theorem stampsKept_step (hs : Sound s xs) {a : Action n} (hok : onTime s a)
    (ht : step s a = some t) : StampsKept s a t := by
  intro c
  cases a with
  | qbuf b =>
    have hf := queueFrame_qbuf ht
    exact .inl ⟨hf.timestamp c, hf.sequence c⟩
  | dqbuf =>
    cases ht
    left
    rw [dqbuf]
    split
    · split
      · exact ⟨rfl, rfl⟩
      · next b rest _ =>
        by_cases hc : c = b
        · subst hc
          simp [dequeueBuffer, Vb2Queue.setState]
        · simp [dequeueBuffer, Vb2Queue.setState, hc]
    · exact ⟨rfl, rfl⟩
  | streamon =>
    left
    by_cases hp : s.phase = .stopped
    · obtain ⟨z, hz, rfl⟩ := streamon_some hp ht
      have hf := (handedOver_fold hz hs.nodup).frame
      exact ⟨hf.timestamp c, hf.sequence c⟩
    · simp only [step, streamon, if_neg hp, Option.some.injEq] at ht
      simp [ht]
  | startReset =>
    cases ht
    left
    rw [startReset]
    split <;> exact ⟨rfl, rfl⟩
  | streamoff =>
    left
    simp only [step, streamoff] at ht
    split at ht
    · simp [Option.some.inj ht]
    · cases ht
      exact ⟨rfl, rfl⟩
    · obtain ⟨cam, hcam, rfl⟩ := Option.map_eq_some_iff.mp ht
      exact (stopStreaming_some hcam).stamps c
  | interrupt d =>
    cases ht
    rcases interrupt_onTime hs hok with hcam | ⟨b, -, hc, -, -, hqueue⟩
    · simp [hcam]
    · by_cases hcb : c = b
      · subst hcb
        refine .inr ⟨⟨d, rfl⟩, hc, ?_⟩
        rw [Capture.state, hqueue]
        exact (state_setState _ c c .done).trans (by simp)
      · left
        rw [hqueue]
        simp [Vb2Queue.setState, Vb2Queue.stamp, hcb]

/-- A session whose interrupts are on time delivers its frames numbered from 0, modulo
2^32, with timestamps that do not decrease, and the stamps of a buffer are written only
by the interrupt that completes it. -/
theorem session_inOrder (run : Run (Within onTime (Steps step)) (Capture.initial n) as s) :
    InOrder s ∧ ∀ a t, onTime s a → step s a = some t → StampsKept s a t := by
  have both : (∃ xs, Sound s xs) ∧ LineUp s := by
    refine run.invariant (fun s => (∃ xs, Sound s xs) ∧ LineUp s)
      ⟨⟨[], sound_initial n⟩, ?_⟩ ?_
    · exact lineUp_nil rfl (by simp [Capture.initial])
    · rintro y a t ⟨⟨xs, hs⟩, h⟩ ⟨hok, ht⟩
      exact ⟨sound_step ⟨xs, hs⟩ ht, lineUp_step h hs hok ht⟩
  obtain ⟨⟨xs, hs⟩, h⟩ := both
  exact ⟨h.inOrder, fun a t hok ht => stampsKept_step hs hok ht⟩

/-- A session of two frames, each dequeued before the next interrupt. -/
theorem session_inOrder_two : ∃ s : Capture 2, InOrder s ∧
    s.delivered.map (fun v => (v.sequence, v.timestamp)) = [(0, 3), (1, 5)] := by
  let as : List (Action 2) := [.qbuf 0, .qbuf 1, .streamon, .startReset, .interrupt 3, .dqbuf,
    .interrupt 2, .dqbuf]
  have run : (follow (guarded onTime step) (Capture.initial 2) as).map
      (fun s => s.delivered.map (fun v => (v.sequence, v.timestamp))) =
        some [(0, 3), (1, 5)] := by decide
  obtain ⟨s, hf, hs⟩ := Option.map_eq_some_iff.mp run
  exact ⟨s, (session_inOrder (run_within_steps_iff.mpr hf)).1, hs⟩

/-- A second interrupt before the first DQBUF numbers the first frame of the session 1. -/
theorem first_frame_renumbered : ¬ ∀ (n : ℕ) (as : List (Action n)) (s : Capture n),
    Run (Steps step) (Capture.initial n) as s → InOrder s := by
  intro hall
  let as : List (Action 2) :=
    [.qbuf 0, .qbuf 1, .streamon, .startReset, .interrupt 1, .interrupt 1, .dqbuf]
  have run : (follow step (Capture.initial 2) as).map
      (fun s => (deliveredDone s).map (·.sequence)) = some [1] := by decide
  obtain ⟨s, hf, hs⟩ := Option.map_eq_some_iff.mp run
  obtain ⟨v, hv, hseq⟩ := List.map_eq_singleton_iff.mp hs
  have hzero := (hall 2 as s (run_steps_iff.mpr hf)).sequence 0 (by simp [hv])
  simp [hv, hseq] at hzero

end CameraDrivers.FrameNumbering
