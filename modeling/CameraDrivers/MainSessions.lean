import CameraDrivers.FramePayload
import CameraDrivers.MainCallbacks
import CameraDrivers.TangledSessions

/-!
# All sessions of the driver with the callbacks of camera_main.c

This `stop_streaming` takes nothing out of `cam->queued_list`, so the list keeps every call of
`buf_queue` since it was initialised, and no pointer of it is ever poisoned. This
`start_streaming` does not reset the frame counter, so the sequence numbers go on from one
session to the next. To fault is to follow a pointer that is not a list cell; the waits for
the spinlocks, also that of the handler for the `done_lock` it holds, are set aside.
-/
namespace CameraDrivers.MainSessions
open LinkedListHeap ReaddedCells CameraState CameraCallbacks TransitionRuns
open CaptureRuns hiding Action step streamon streamoff
open TangledSessions (addAll Follow dqbuf_queuedList interrupt_queuedList)
open FramePayload (dequeued)
open MainCallbacks (Action)

variable {n : ℕ}

/-- A run of the driver, with the calls of `buf_queue` in `history`, the interrupts that stamped a
buffer, and for each frame that was dequeued the number of the last of them. -/
structure Service (n : ℕ) where
  capture : Capture n
  history : History (Cell n)
  stamped : ℕ
  letters : List Vb2V4l2Buffer
  taken : List ℕ

def Service.initial (n : ℕ) : Service n := ⟨.initial n, .clean, 0, [], []⟩

/-- The buffers that vb2 hands to the driver in a step. -/
def handed (s : Capture n) : Action n → List (Fin n)
  | .qbuf b => if s.phase = .started ∧ s.state b = .dequeued then [b] else []
  | .streamon _ => if s.phase = .stopped then s.cam.queue.queuedList else []
  | _ => []

/-- The interrupts that find a buffer. -/
def stamps (s : Capture n) : Action n → ℕ
  | .interrupt _ => if s.cam.streaming && !s.cam.queue.queuedList.isEmpty then 1 else 0
  | _ => 0

/-- The frame that user space gets in a step. -/
def letter (s : Capture n) : Action n → Option Vb2V4l2Buffer
  | .dqbuf => dequeued s
  | _ => none

def next (client : Bool) (s : Service n) (a : Action n) : Option (Service n) :=
  (MainCallbacks.step client s.capture a).map (fun t => {
    capture := t
    history := addAll s.history (handed s.capture a)
    stamped := s.stamped + stamps s.capture a
    letters := s.letters ++ (letter s.capture a).toList
    taken := s.taken ++ ((letter s.capture a).map (fun _ => s.stamped - 1)).toList })

variable {client : Bool} {s t : Capture n} {h : History (Cell n)} {a : Action n} {reply : ℤ}

theorem streamon_follows (client : Bool) (reply : ℤ) (hf : Follow s h) :
    ∃ t, MainCallbacks.streamon client reply s = some t ∧
      Follow t (addAll h (handed s (.streamon reply))) := by
  rw [MainCallbacks.streamon, handed]
  by_cases hp : s.phase = .stopped
  · obtain ⟨z, hz, hzf⟩ := TangledSessions.enqueueAll_follows hf s.cam.queue.queuedList
    have hlist : (MainCallbacks.startStreaming client reply z.cam).cam.queuedList =
        z.cam.queuedList := by
      rw [MainCallbacks.startStreaming]
      split
      · dsimp only
        split <;> rfl
      · rfl
    rw [if_pos hp, if_pos hp, MainCallbacks.handOver, hz]
    refine ⟨_, rfl, ?_⟩
    dsimp only
    split
    · rw [Follow]
      exact hlist ▸ hzf
    · rw [Follow]
      exact hlist ▸ hzf
  · rw [if_neg hp, if_neg hp]
    exact ⟨s, rfl, hf⟩

/-- No step faults, and the pointers are those of all calls of `buf_queue`. -/
theorem step_follows (client : Bool) (hf : Follow s h) (a : Action n) :
    ∃ t, MainCallbacks.step client s a = some t ∧ Follow t (addAll h (handed s a)) := by
  cases a with
  | qbuf b =>
    obtain ⟨t, ht, htf⟩ := TangledSessions.qbuf_follows hf b
    exact ⟨t, ht, by rwa [TangledSessions.record_eq (by simp)] at htf⟩
  | dqbuf =>
    refine ⟨_, rfl, ?_⟩
    rw [Follow, dqbuf_queuedList]
    exact hf
  | streamon reply => exact streamon_follows client reply hf
  | streamoff reply =>
    refine ⟨_, rfl, ?_⟩
    have hlist : (MainCallbacks.streamoff client s).cam.queuedList = s.cam.queuedList := by
      rw [MainCallbacks.streamoff]
      split <;> rfl
    rw [Follow, hlist]
    exact hf
  | interrupt elapsed =>
    refine ⟨_, rfl, ?_⟩
    rw [Follow, interrupt_queuedList]
    exact hf

theorem run_follows {s : Service n} {as : List (Action n)}
    (run : Run (Steps (next client)) (Service.initial n) as s) : Follow s.capture s.history := by
  apply run.invariant (fun s => Follow s.capture s.history)
  · exact tangled_initListHead _ _
  · intro s a s' hs hstep
    obtain ⟨t, ht, rfl⟩ := Option.map_eq_some_iff.mp hstep
    obtain ⟨t', ht', hf⟩ := step_follows client hs a
    obtain rfl : t' = t := Option.some.inj (ht'.symm.trans ht)
    exact hf

/-- A STREAMON that fails leaves every queued buffer queued. -/
theorem sound_refused {z : Capture n} {xs : List (Fin n)} (h : Sound s xs)
    (hp : s.phase = .stopped) (ho : HandedOver s s.cam.queue.queuedList z) :
    Sound { z with cam := { z.cam with queue := MainCallbacks.reclaim z.cam.queue } } [] := by
  obtain ⟨-, hdone, hqueued⟩ := h.stopped_lists hp
  have hstate : ∀ b, (MainCallbacks.reclaim z.cam.queue).state b =
      if b ∈ s.cam.queue.queuedList then .queued else .dequeued := by
    intro b
    have hz := ho.state b
    by_cases hb : b ∈ s.cam.queue.queuedList
    · rw [if_pos hb] at hz ⊢
      simp [MainCallbacks.reclaim, Vb2Queue.state] at hz ⊢
      simp [hz]
    · rw [if_neg hb] at hz ⊢
      have hfree : s.state b = .dequeued := by
        rcases h.stopped hp b with hb' | hb'
        · exact hb'
        · exact absurd ((hqueued b).mpr hb') hb
      rw [hfree] at hz
      simp only [Vb2Queue.state, Capture.state] at hz
      simp [MainCallbacks.reclaim, Vb2Queue.state, hz]
  have hlist : (MainCallbacks.reclaim z.cam.queue).queuedList = s.cam.queue.queuedList :=
    ho.queuedList
  constructor
  · refine ⟨fun b => ?_, List.Pairwise.nil⟩
    simp only [Capture.state, hstate]
    split <;> simp
  · simp
  · rw [hlist]
    exact h.nodup
  · intro b
    simp only [Capture.state, hstate, hlist]
    split <;> simp_all
  · intro b
    have hnone : (MainCallbacks.reclaim z.cam.queue).doneList = [] := ho.doneList.trans hdone
    simp only [Capture.state, hstate, hnone]
    split <;> simp
  · intro b
    simp only [Capture.state, hstate]
    split <;> simp
  · intro _ b
    simp only [Capture.state, hstate]
    split <;> simp
  · intro hphase
    exact absurd (ho.phase.trans hp) hphase
  · have hoff := h.streaming_iff
    rw [← ho.streaming, ← ho.phase] at hoff
    exact hoff

/-- The three ends of a STREAMON. -/
theorem streamon_cases (hs : MainCallbacks.streamon client reply s = some t) :
    (s.phase ≠ .stopped ∧ t = s) ∨
    (s.phase = .stopped ∧ ∃ z, s.cam.queue.queuedList.foldlM enqueueInDriver s = some z ∧
      (t = { z with cam := { z.cam with queue := MainCallbacks.reclaim z.cam.queue } } ∨
        t = { z with
          cam := { z.cam with streaming := true }, phase := .started
          completed := [], delivered := [] })) := by
  rw [MainCallbacks.streamon] at hs
  split at hs
  · next hp =>
    obtain ⟨z, hz, rfl⟩ := Option.map_eq_some_iff.mp hs
    refine .inr ⟨hp, z, hz, ?_⟩
    by_cases hok : client = true ∧ 0 ≤ reply
    · obtain ⟨rfl, hreply⟩ := hok
      obtain ⟨hret, hcam⟩ := MainCallbacks.startStreaming_succeeds hreply z.cam
      right
      simp [hret, hcam]
    · have hfail : client = false ∨ reply < 0 := by
        by_contra hc
        simp only [not_or, Bool.not_eq_false, not_lt] at hc
        exact hok hc
      obtain ⟨hret, hcam, -⟩ := MainCallbacks.startStreaming_fails hfail z.cam
      left
      simp [hret, hcam]
  · next hp => exact .inl ⟨hp, (Option.some.inj hs).symm⟩

theorem sound_step (hsound : ∃ xs, Sound s xs) (hp : s.phase ≠ .starting)
    (hs : MainCallbacks.step client s a = some t) :
    (∃ xs, Sound t xs) ∧ t.phase ≠ .starting := by
  obtain ⟨xs, h⟩ := hsound
  cases a with
  | qbuf b =>
    have hphase := (queueFrame_qbuf hs).phase
    exact ⟨CaptureRuns.sound_step (a := .qbuf b) ⟨xs, h⟩ hs, hphase ▸ hp⟩
  | dqbuf =>
    cases hs
    refine ⟨⟨xs, sound_dqbuf h⟩, ?_⟩
    have hphase : (dqbuf s).phase = s.phase := by
      rw [dqbuf]
      split
      · split <;> rfl
      · rfl
    rwa [hphase]
  | streamon reply =>
    rcases streamon_cases hs with ⟨-, rfl⟩ | ⟨hstop, z, hz, rfl | rfl⟩
    · exact ⟨⟨xs, h⟩, hp⟩
    · have ho := handedOver_fold hz h.nodup
      exact ⟨⟨[], sound_refused h hstop ho⟩, by simp [ho.phase, hstop]⟩
    · refine ⟨?_, by simp⟩
      have hstart : CaptureRuns.streamon s = some { z with
          cam := raiseStreaming z.cam, phase := .starting, completed := [], delivered := [] } := by
        rw [CaptureRuns.streamon, if_pos hstop, hz]
        rfl
      obtain ⟨ys, hys⟩ := CaptureRuns.sound_step (a := .streamon) ⟨xs, h⟩ hstart
      exact ⟨ys, (sound_startReset hys).congr (fun _ => rfl) rfl rfl rfl rfl rfl rfl⟩
  | streamoff reply =>
    cases hs
    refine ⟨⟨[], ?_⟩, by simp [MainCallbacks.streamoff]⟩
    rw [MainCallbacks.streamoff]
    apply sound_cancelled
    split
    · rfl
    · next hne =>
      rw [← Bool.not_eq_true, h.streaming_iff, not_not]
      cases hph : s.phase with
      | stopped => rfl
      | starting => exact absurd hph hp
      | started => exact absurd hph hne
  | interrupt elapsed =>
    cases hs
    exact ⟨CaptureRuns.sound_step (a := .interrupt elapsed) ⟨xs, h⟩ rfl, hp⟩

/-- The buffer that waits was stamped by the last interrupt that found one. -/
structure Waits (s : Service n) (b : Fin n) : Prop where
  positive : 0 < s.stamped
  sequence : (s.capture.cam.queue.buf b).sequence = BitVec.ofNat 32 (s.stamped - 1)
  fresh : ∀ i ∈ s.taken, i < s.stamped - 1
  timestamp : (s.capture.cam.queue.buf b).timestamp ≤ s.capture.clock
  later : ∀ v ∈ s.letters, v.timestamp ≤ (s.capture.cam.queue.buf b).timestamp

structure Numbered (s : Service n) : Prop where
  sound : ∃ xs, Sound s.capture xs
  settled : s.capture.phase ≠ .starting
  count : s.capture.cam.frameCount = BitVec.ofNat 32 s.stamped
  waiting : ∀ b rest, s.capture.cam.queue.doneList = b :: rest → rest = [] ∧ Waits s b
  below : ∀ i ∈ s.taken, i < s.stamped
  past : ∀ v ∈ s.letters, v.timestamp ≤ s.capture.clock
  increasing : s.taken.Pairwise (· < ·)
  inOrder : (s.letters.map (·.timestamp)).Pairwise (· ≤ ·)
  sequences : s.letters.map (·.sequence) = s.taken.map (BitVec.ofNat 32)

variable {m m' : Service n}

/-- A step that dequeues and stamps nothing. -/
theorem Numbered.quiet (h : Numbered m) (hsound : ∃ xs, Sound m'.capture xs)
    (hsettled : m'.capture.phase ≠ .starting)
    (hcount : m'.capture.cam.frameCount = m.capture.cam.frameCount)
    (hclock : m.capture.clock ≤ m'.capture.clock) (hstamped : m'.stamped = m.stamped)
    (hletters : m'.letters = m.letters) (htaken : m'.taken = m.taken)
    (hdone : m'.capture.cam.queue.doneList = [] ∨
      m'.capture.cam.queue.doneList = m.capture.cam.queue.doneList ∧
      ∀ b, (m'.capture.cam.queue.buf b).timestamp = (m.capture.cam.queue.buf b).timestamp ∧
        (m'.capture.cam.queue.buf b).sequence = (m.capture.cam.queue.buf b).sequence) :
    Numbered m' where
  sound := hsound
  settled := hsettled
  count := by rw [hcount, hstamped, h.count]
  waiting b rest hb := by
    rcases hdone with hnil | ⟨hsame, hbuf⟩
    · rw [hnil] at hb
      cases hb
    · obtain ⟨hrest, hw⟩ := h.waiting b rest (hsame ▸ hb)
      refine ⟨hrest, hstamped ▸ hw.positive, ?_, ?_, ?_, ?_⟩
      · rw [(hbuf b).2, hstamped, hw.sequence]
      · rw [htaken, hstamped]
        exact hw.fresh
      · rw [(hbuf b).1]
        exact hw.timestamp.trans hclock
      · rw [hletters, (hbuf b).1]
        exact hw.later
  below := by rw [htaken, hstamped]; exact h.below
  past := by rw [hletters]; exact fun v hv => (h.past v hv).trans hclock
  increasing := htaken ▸ h.increasing
  inOrder := hletters ▸ h.inOrder
  sequences := by rw [hletters, htaken, h.sequences]

/-- DQBUF of the buffer that waits. -/
theorem Numbered.taken (h : Numbered m) {b : Fin n} (hp : m.capture.phase = .started)
    (hdone : m.capture.cam.queue.doneList = [b]) (history : History (Cell n)) :
    Numbered ⟨dqbuf m.capture, history, m.stamped,
      m.letters ++ [m.capture.cam.queue.buf b], m.taken ++ [m.stamped - 1]⟩ := by
  obtain ⟨xs, hs⟩ := h.sound
  obtain ⟨-, hw⟩ := h.waiting b [] hdone
  have hdq : dqbuf m.capture = { m.capture with
      cam := { m.capture.cam with queue := dequeueBuffer m.capture.cam.queue b [] }
      delivered := m.capture.delivered ++ [m.capture.cam.queue.buf b] } := by
    simp [dqbuf, hp, hdone]
  have hsound := sound_dqbuf hs
  rw [hdq] at hsound ⊢
  refine ⟨⟨xs, hsound⟩, h.settled, h.count, fun c rest hc => ?_, ?_, ?_, ?_, ?_, ?_⟩
  · cases hc
  · intro i hi
    rcases List.mem_append.mp hi with hi | hi
    · exact h.below i hi
    · obtain rfl := List.mem_singleton.mp hi
      have hpos := hw.positive
      dsimp only
      omega
  · intro v hv
    rcases List.mem_append.mp hv with hv | hv
    · exact h.past v hv
    · obtain rfl := List.mem_singleton.mp hv
      exact hw.timestamp
  · refine List.pairwise_append.mpr ⟨h.increasing, List.pairwise_singleton _ _, ?_⟩
    intro i hi j hj
    obtain rfl := List.mem_singleton.mp hj
    exact hw.fresh i hi
  · rw [List.map_append]
    refine List.pairwise_append.mpr ⟨h.inOrder, List.pairwise_singleton _ _, ?_⟩
    intro i hi j hj
    obtain ⟨v, hv, rfl⟩ := List.mem_map.mp hi
    obtain rfl := List.mem_singleton.mp hj
    exact hw.later v hv
  · rw [List.map_append, List.map_append, h.sequences]
    simp [hw.sequence]

/-- An interrupt that finds the buffer `b` first: it waits afterwards with a new stamp. -/
theorem Numbered.stamped (h : Numbered m) {b : Fin n} {elapsed : ℕ}
    (hdone : (interrupt elapsed m.capture).cam.queue.doneList = [b])
    (hstamp : ((interrupt elapsed m.capture).cam.queue.buf b).timestamp =
        m.capture.clock + elapsed ∧
      ((interrupt elapsed m.capture).cam.queue.buf b).sequence = m.capture.cam.frameCount)
    (hcount : (interrupt elapsed m.capture).cam.frameCount = m.capture.cam.frameCount + 1)
    (history : History (Cell n)) :
    Numbered ⟨interrupt elapsed m.capture, history, m.stamped + 1, m.letters, m.taken⟩ := by
  obtain ⟨xs, hs⟩ := h.sound
  refine ⟨CaptureRuns.sound_step (a := .interrupt elapsed) ⟨xs, hs⟩ rfl, h.settled, ?_, ?_, ?_, ?_,
    h.increasing, h.inOrder, h.sequences⟩
  · rw [hcount, h.count, BitVec.ofNat_add]
    rfl
  · intro c rest hc
    rw [hdone] at hc
    obtain ⟨rfl, rfl⟩ := List.cons.inj hc
    refine ⟨rfl, Nat.succ_pos _, ?_, h.below, hstamp.1.le, fun v hv => ?_⟩
    · rw [hstamp.2, h.count]
      rfl
    · rw [hstamp.1]
      exact (h.past v hv).trans (Nat.le_add_right _ _)
  · exact fun i hi => (h.below i hi).trans (Nat.lt_succ_self _)
  · exact fun v hv => (h.past v hv).trans (Nat.le_add_right _ _)

theorem numbered_interrupt (h : Numbered m) (elapsed : ℕ)
    (hn : next client m (.interrupt elapsed) = some m') : Numbered m' := by
  obtain ⟨xs, hs⟩ := h.sound
  obtain ⟨t, ht, rfl⟩ := Option.map_eq_some_iff.mp hn
  cases ht
  simp only [handed, addAll, List.foldl_nil, letter, Option.toList_none, List.append_nil,
    Option.map_none]
  rcases cameraIrqHandler_cases (m.capture.clock + elapsed) m.capture.cam with ⟨hoff, -, hi⟩ |
      ⟨b, rest, hon, hq, hb, -, hi⟩ | ⟨b, rest, hon, hq, hb, -, hi⟩
  · have hzero : stamps m.capture (.interrupt elapsed) = 0 := by
      rcases hoff with hoff | hoff <;> simp [stamps, hoff]
    have hcam : (interrupt elapsed m.capture).cam = m.capture.cam := hi
    refine h.quiet ?_ h.settled (by rw [hcam]) (Nat.le_add_right _ _) (by simp [hzero]) rfl rfl
      (.inr ⟨by rw [hcam], fun c => by rw [hcam]; exact ⟨rfl, rfl⟩⟩)
    exact CaptureRuns.sound_step (a := .interrupt elapsed) ⟨xs, hs⟩ rfl
  all_goals
    have hone : stamps m.capture (.interrupt elapsed) = 1 := by simp [stamps, hon, hq]
    have hp := hs.streaming_iff.mp hon
    rw [hone]
  · obtain ⟨-, hdone, -⟩ | ⟨hd, -⟩ := hs.head hp hq
    · have hact : (m.capture.cam.queue.stamp b (m.capture.clock + elapsed)
          m.capture.cam.frameCount).state b = .active := by simpa using hb
      have hstamps := vb2BufferDone_stamps
        (stampBuffer b (m.capture.clock + elapsed) m.capture.cam).queue b b .done
      refine h.stamped (b := b) ?_ ?_ ?_ _
      · simp [interrupt, hi, advanceFrameCount, completeBuffer, vb2BufferDone_done hact,
          stampBuffer, hdone]
      · rw [interrupt, hi]
        refine ⟨hstamps.1.trans ?_, hstamps.2.trans ?_⟩
        · simp [stampBuffer, Vb2Queue.stamp]
        · simp [stampBuffer, Vb2Queue.stamp]
      · rw [interrupt, hi]
        rfl
    · simp [hd] at hb
  · obtain ⟨hact, -⟩ | ⟨-, ds, hdone⟩ := hs.head hp hq
    · exact absurd hact hb
    · obtain ⟨rfl, -⟩ := h.waiting b ds hdone
      refine h.stamped (b := b) ?_ ?_ ?_ _
      · simpa [interrupt, hi, advanceFrameCount, stampBuffer] using hdone
      · simp [interrupt, hi, advanceFrameCount, stampBuffer, Vb2Queue.stamp]
      · rw [interrupt, hi]
        rfl

theorem numbered_next (h : Numbered m) (hn : next client m a = some m') : Numbered m' := by
  obtain ⟨xs, hs⟩ := h.sound
  obtain ⟨t, ht, rfl⟩ := Option.map_eq_some_iff.mp hn
  obtain ⟨hsound, hsettled⟩ := sound_step h.sound h.settled ht
  cases a with
  | qbuf b =>
    have hf := queueFrame_qbuf ht
    refine h.quiet hsound hsettled hf.frameCount hf.clock.ge rfl (List.append_nil _)
      (List.append_nil _) (.inr ⟨hf.doneList, fun c => ⟨hf.timestamp c, hf.sequence c⟩⟩)
  | dqbuf =>
    cases ht
    cases hd : dequeued m.capture with
    | none =>
      have hsame : dqbuf m.capture = m.capture := by
        rw [dequeued] at hd
        rw [dqbuf]
        split
        · next hp =>
          rw [if_pos hp] at hd
          cases hdone : m.capture.cam.queue.doneList with
          | nil => rfl
          | cons b rest => simp [hdone] at hd
        · rfl
      simp only [letter, hd, Option.toList_none, Option.map_none]
      refine h.quiet hsound hsettled (by rw [hsame]) (by rw [hsame]) rfl (List.append_nil _)
        (List.append_nil _) (.inr ⟨by rw [hsame], fun c => by rw [hsame]; exact ⟨rfl, rfl⟩⟩)
    | some v =>
      rw [dequeued] at hd
      split at hd
      · next hp =>
        cases hdone : m.capture.cam.queue.doneList with
        | nil => simp [hdone] at hd
        | cons b rest =>
          obtain ⟨rfl, -⟩ := h.waiting b rest hdone
          have hletter : dequeued m.capture = some (m.capture.cam.queue.buf b) := by
            simp [dequeued, hp, hdone]
          simp only [letter, hletter, Option.map_some, Option.toList_some]
          exact h.taken hp hdone _
      · cases hd
  | streamon reply =>
    rcases streamon_cases ht with ⟨-, rfl⟩ | ⟨hstop, z, hz, hend⟩
    · exact h.quiet hsound hsettled rfl le_rfl rfl (List.append_nil _) (List.append_nil _)
        (.inr ⟨rfl, fun c => ⟨rfl, rfl⟩⟩)
    · have ho := handedOver_fold hz hs.nodup
      obtain ⟨-, hdone, -⟩ := hs.stopped_lists hstop
      have hnil : t.cam.queue.doneList = [] := by
        rcases hend with rfl | rfl
        · exact ho.doneList.trans hdone
        · exact ho.doneList.trans hdone
      refine h.quiet hsound hsettled ?_ ?_ rfl (List.append_nil _) (List.append_nil _) (.inl hnil)
      · rcases hend with rfl | rfl
        · exact ho.frameCount
        · exact ho.frameCount
      · rcases hend with rfl | rfl
        · exact ho.clock.ge
        · exact ho.clock.ge
  | streamoff reply =>
    cases ht
    have hcount : (MainCallbacks.streamoff client m.capture).cam.frameCount =
        m.capture.cam.frameCount := by
      rw [MainCallbacks.streamoff]
      split <;> rfl
    exact h.quiet hsound hsettled hcount le_rfl rfl (List.append_nil _) (List.append_nil _)
      (.inl rfl)
  | interrupt elapsed => exact numbered_interrupt h elapsed hn

theorem numbered_initial (n : ℕ) : Numbered (Service.initial n) := by
  constructor
  · exact ⟨[], sound_initial n⟩
  all_goals simp [Service.initial, Capture.initial, CameraDev.fresh, Vb2Queue.fresh]

theorem numbered_run {as : List (Action n)}
    (run : Run (Steps (next client)) (Service.initial n) as m) : Numbered m :=
  run.invariant Numbered (numbered_initial n) (fun _ _ _ h hn => numbered_next h hn)

/-- No run of this driver faults, whatever the list has become. -/
theorem run_neverFaults {as : List (Action n)}
    (run : Run (Steps (next client)) (Service.initial n) as m) (a : Action n) :
    ∃ t, MainCallbacks.step client m.capture a = some t := by
  obtain ⟨t, ht, -⟩ := step_follows client (run_follows run) a
  exact ⟨t, ht⟩

/-- Two sessions of one frame each. -/
def sessions : List (Action 1) :=
  [.qbuf 0, .streamon 0, .interrupt 3, .dqbuf, .qbuf 0, .streamoff 0,
    .qbuf 0, .streamon 0, .interrupt 2, .dqbuf]

/-- With the callbacks of camera_vb2.c the STREAMOFF of the first session is a fault. -/
theorem run_neverFaults_sessions : ∃ m : Service 1,
    m.history.added = [.node 0, .node 0, .node 0] ∧
      ∃ t, MainCallbacks.step true m.capture (.streamoff 0) = some t := by
  have heval : (follow (next true) (Service.initial 1) sessions).map (fun m => m.history.added) =
      some [.node 0, .node 0, .node 0] := by decide
  obtain ⟨m, run, hm⟩ := run_of_follow heval
  exact ⟨m, hm, run_neverFaults run (.streamoff 0)⟩

/-- The frames of all sessions together: no number comes twice before the counter wraps, and each
one is that of the last interrupt before its DQBUF that found a buffer. -/
theorem letters_numbered {as : List (Action n)}
    (run : Run (Steps (next client)) (Service.initial n) as m) :
    m.letters.map (·.sequence) = m.taken.map (BitVec.ofNat 32) ∧ m.taken.Pairwise (· < ·) ∧
      (∀ i ∈ m.taken, i < m.stamped) ∧ (m.letters.map (·.timestamp)).Pairwise (· ≤ ·) := by
  have h := numbered_run run
  exact ⟨h.sequences, h.increasing, h.below, h.inOrder⟩

theorem letters_numbered_sessions : ∃ m : Service 1, m.taken = [0, 1] ∧
    m.letters.map (·.sequence) = [0, 1] := by
  have heval : (follow (next true) (Service.initial 1) sessions).map (fun m => m.taken) =
      some [0, 1] := by decide
  obtain ⟨m, run, hm⟩ := run_of_follow heval
  exact ⟨m, hm, by rw [(letters_numbered run).1, hm]; rfl⟩

end CameraDrivers.MainSessions
