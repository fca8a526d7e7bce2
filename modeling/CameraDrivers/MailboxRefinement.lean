import CameraDrivers.CaptureRuns
import CameraDrivers.FrameMailbox

/-!
# The driver under vb2 is a mailbox with one place

`camera_irq_handler` picks the first buffer of vb2's own list, and that one stays first until
DQBUF. Whatever the driver-owned list has become, the driver and vb2 together behave as a
mailbox in which one frame waits, and is stamped anew by every interrupt until it is taken.
This is about the runs in which no step waits for a spinlock: taking them is set aside.
-/
namespace CameraDrivers.MailboxRefinement
open CameraState CameraCallbacks CaptureRuns FrameMailbox TransitionRuns

variable {n : ℕ}

def modeOf : Phase → Mode
  | .stopped => .idle
  | .starting => .arming
  | .started => .live

def actOf : Action n → Act (Fin n)
  | .qbuf b => .give b
  | .dqbuf => .take
  | .streamon => .start
  | .startReset => .reset
  | .streamoff => .stop
  | .interrupt elapsed => .tick elapsed

/-- The mailbox after the same actions. -/
def mailbox (as : List (Action n)) : Mailbox (Fin n) 32 := after (.initial _ _) (as.map actOf)

structure Abstracts (s : Capture n) (m : Mailbox (Fin n) 32) : Prop where
  mode : m.mode = modeOf s.phase
  clock : m.clock = s.clock
  count : m.count = s.cam.frameCount
  held : s.cam.queue.queuedList = m.held
  slot : s.cam.queue.doneList = m.slot.toList.map Letter.buffer
  stamps : ∀ f ∈ m.slot, (s.cam.queue.buf f.buffer).timestamp = f.time ∧
    (s.cam.queue.buf f.buffer).sequence = f.number
  delivered : s.phase ≠ .stopped →
    s.delivered.map (fun v => (v.timestamp, v.sequence)) = m.taken.map (fun f => (f.time, f.number))
  completed : s.phase ≠ .stopped → s.completed = m.letters.map Letter.buffer

variable {s t : Capture n} {m : Mailbox (Fin n) 32} {b : Fin n} {xs : List (Fin n)}

theorem abstracts_initial (n : ℕ) : Abstracts (Capture.initial n) (.initial _ _) := by
  constructor <;> simp [Capture.initial, Mailbox.initial, CameraDev.fresh, Vb2Queue.fresh, modeOf,
    Mailbox.held]

theorem abstracts_qbuf (h : Abstracts s m) (hsound : Sound s xs) (hs : qbuf b s = some t) :
    Abstracts t (give b m) := by
  have hmode : m.mode = .arming ↔ s.phase = .starting := by
    rw [h.mode]
    cases s.phase <;> simp [modeOf]
  have hheld : m.held.contains b = true ↔ s.state b ≠ .dequeued := by
    rw [List.contains_iff_mem, ← h.held, hsound.queued_iff]
  have hiff := or_congr hmode hheld
  by_cases hrefused : s.phase = .starting ∨ s.state b ≠ .dequeued
  · rw [qbuf, if_pos hrefused] at hs
    cases hs
    rwa [give, if_pos (hiff.mpr hrefused)]
  · rw [give, if_neg (fun hm => hrefused (hiff.mp hm))]
    simp only [not_or, not_not] at hrefused
    have hf := queueFrame_qbuf hs
    refine ⟨by rw [hf.phase, h.mode], by rw [hf.clock, h.clock], by rw [hf.frameCount, h.count],
      ?_, by rw [hf.doneList, h.slot], ?_, ?_, ?_⟩
    · rw [(qbuf_queued hrefused.1 hrefused.2 hs).1, h.held, Mailbox.held, Mailbox.held,
        List.append_assoc]
    · intro f hm
      rw [hf.timestamp, hf.sequence]
      exact h.stamps f hm
    · rw [hf.phase, hf.delivered]
      exact h.delivered
    · rw [hf.phase, hf.completed]
      exact h.completed

theorem abstracts_dqbuf (h : Abstracts s m) : Abstracts (dqbuf s) (take m) := by
  by_cases hp : s.phase = .started
  · have hmode : m.mode = .live := by rw [h.mode, hp, modeOf]
    cases hslot : m.slot with
    | none =>
      have hdone : s.cam.queue.doneList = [] := by simp [h.slot, hslot]
      have htake : take m = m := by simp [take, hslot]
      have hdq : dqbuf s = s := by simp [dqbuf, hp, hdone]
      rwa [htake, hdq]
    | some f =>
      have hdone : s.cam.queue.doneList = [f.buffer] := by simp [h.slot, hslot]
      have hheld : s.cam.queue.queuedList = f.buffer :: m.pending := by
        simp [h.held, Mailbox.held, hslot]
      have hstamps := h.stamps f hslot
      have hdq : dqbuf s = { s with
          cam := { s.cam with queue := dequeueBuffer s.cam.queue f.buffer [] }
          delivered := s.delivered ++ [s.cam.queue.buf f.buffer] } := by
        simp [dqbuf, hp, hdone]
      have hrunning : s.phase ≠ .stopped := by simp [hp]
      rw [hdq, take_some hmode hslot]
      refine ⟨h.mode, h.clock, h.count, ?_, rfl, by simp, fun _ => ?_, fun _ => ?_⟩
      · simp [dequeueBuffer, hheld, Mailbox.held]
      · simp [h.delivered hrunning, hstamps]
      · simp [h.completed hrunning, Mailbox.letters, hslot]
  · have hdq : dqbuf s = s := by simp [dqbuf, hp]
    have htake : take m = m := by
      have hmode := h.mode
      cases hph : s.phase with
      | started => exact absurd hph hp
      | stopped => simp [take, hmode, hph, modeOf]
      | starting => simp [take, hmode, hph, modeOf]
    rwa [hdq, htake]

theorem abstracts_streamon (h : Abstracts s m) (hacc : Accounted m) (hsound : Sound s xs)
    (hs : streamon s = some t) : Abstracts t (start m) := by
  by_cases hp : s.phase = .stopped
  · have hmode : m.mode = .idle := by rw [h.mode, hp, modeOf]
    obtain ⟨hslot, htaken, -⟩ := hacc.idle hmode
    obtain ⟨z, hz, rfl⟩ := streamon_some hp hs
    have ho := handedOver_fold hz hsound.nodup
    rw [start, if_pos hmode]
    refine ⟨rfl, h.clock.trans ho.clock.symm, h.count.trans ho.frameCount.symm,
      ho.queuedList.trans h.held, ho.doneList.trans h.slot, ?_, ?_, ?_⟩
    · intro f hf
      rw [hslot] at hf
      cases hf
    · simp [htaken]
    · simp [Mailbox.letters, htaken, hslot]
  · have hmode : m.mode ≠ .idle := by
      rw [h.mode]
      cases hph : s.phase <;> simp_all [modeOf]
    rw [streamon, if_neg hp] at hs
    cases hs
    rwa [start, if_neg hmode]

theorem abstracts_startReset (h : Abstracts s m) : Abstracts (startReset s) (reset m) := by
  by_cases hp : s.phase = .starting
  · have hmode : m.mode = .arming := by rw [h.mode, hp, modeOf]
    have hrunning : s.phase ≠ .stopped := by simp [hp]
    rw [reset, if_pos hmode, startReset, if_pos hp]
    exact ⟨rfl, h.clock, rfl, h.held, h.slot, h.stamps, fun _ => h.delivered hrunning,
      fun _ => h.completed hrunning⟩
  · have hmode : m.mode ≠ .arming := by
      rw [h.mode]
      cases hph : s.phase <;> simp_all [modeOf]
    rwa [reset, if_neg hmode, startReset, if_neg hp]

theorem abstracts_streamoff (h : Abstracts s m) (hs : streamoff s = some t) :
    Abstracts t (stop m) := by
  have hmode := h.mode
  rw [streamoff] at hs
  cases hp : s.phase with
  | starting =>
    have harming : m.mode = .arming := by rw [hmode, hp, modeOf]
    rw [hp] at hs
    cases hs
    rwa [stop, if_pos harming]
  | stopped =>
    have harming : m.mode ≠ .arming := by simp [hmode, hp, modeOf]
    rw [hp] at hs
    cases hs
    rw [stop, if_neg harming]
    exact ⟨rfl, h.clock, h.count, rfl, rfl, by simp, by simp, by simp⟩
  | started =>
    have harming : m.mode ≠ .arming := by simp [hmode, hp, modeOf]
    rw [hp] at hs
    obtain ⟨cam, hcam, rfl⟩ := Option.map_eq_some_iff.mp hs
    rw [stop, if_neg harming]
    exact ⟨rfl, h.clock, h.count.trans (stopStreaming_some hcam).frameCount.symm, rfl, rfl,
      by simp, by simp, by simp⟩

theorem Abstracts.idle_iff (h : Abstracts s m) (hsound : Sound s xs) :
    m.mode = .idle ↔ s.cam.streaming = false := by
  rw [← Bool.not_eq_true, hsound.streaming_iff, not_not, h.mode]
  cases s.phase <;> simp [modeOf]

/-- The handler completes the buffer, or finds it completed: the frame is the one that waits. -/
theorem abstracts_stamped (h : Abstracts s m) {bs : List (Fin n)} {now : ℕ} {cam : CameraDev n}
    {completed : List (Fin n)} (hheld : m.held = b :: bs)
    (hlist : cam.queue.queuedList = s.cam.queue.queuedList) (hdone : cam.queue.doneList = [b])
    (hcount : cam.frameCount = s.cam.frameCount + 1)
    (hstamp : (cam.queue.buf b).timestamp = now ∧ (cam.queue.buf b).sequence = s.cam.frameCount)
    (hcompleted : s.phase ≠ .stopped → completed = (m.taken.map Letter.buffer) ++ [b])
    (anew early : ℕ) :
    Abstracts { s with cam := cam, clock := now, completed := completed } { m with
      clock := now
      count := m.count + 1
      pending := bs
      slot := some ⟨b, now, m.count, m.stamped + 1⟩
      stamped := m.stamped + 1
      overwritten := anew
      early := early } where
  mode := h.mode
  clock := rfl
  count := by rw [h.count, hcount]
  held := by rw [hlist, h.held, hheld]; rfl
  slot := hdone
  stamps := by
    rintro f hf
    obtain rfl := Option.some.inj hf
    rw [h.count]
    exact hstamp
  delivered := h.delivered
  completed hp := by simpa [Mailbox.letters] using hcompleted hp

/-- While the queue streams a tick stamps the first buffer. -/
theorem tick_filled {bs : List (Fin n)} {d : ℕ} (hidle : m.mode = .idle ↔ s.cam.streaming = false)
    (hs : s.cam.streaming = true) (hheld : m.held = b :: bs) : tick d m = { m with
      clock := m.clock + d
      count := m.count + 1
      pending := bs
      slot := some ⟨b, m.clock + d, m.count, m.stamped + 1⟩
      stamped := m.stamped + 1
      overwritten := m.overwritten + if m.slot.isSome then 1 else 0
      early := if m.mode = .arming then m.stamped + 1 else m.early } := by
  rcases tick_cases d m with ⟨hempty, -⟩ | ⟨-, b', bs', hheld', ht⟩
  · rcases hempty with hm | hm
    · simp [hidle.mp hm] at hs
    · simp [hm] at hheld
  · rw [hheld] at hheld'
    obtain ⟨rfl, rfl⟩ := List.cons.inj hheld'
    exact ht

theorem abstracts_interrupt (h : Abstracts s m) (hsound : Sound s xs) (d : ℕ) :
    Abstracts (interrupt d s) (tick d m) := by
  have hidle := h.idle_iff hsound
  rcases cameraIrqHandler_cases (s.clock + d) s.cam with ⟨hnone, hc, hi⟩ |
      ⟨b, rest, hs, hq, hb, hc, hi⟩ | ⟨b, rest, hs, hq, hb, hc, hi⟩
  · have ht : tick d m = { m with clock := m.clock + d } := by
      rcases tick_cases d m with ⟨-, ht⟩ | ⟨hmode, b, bs, hheld, -⟩
      · exact ht
      · rcases hnone with hs | hq
        · exact absurd (hidle.mpr hs) hmode
        · rw [h.held, hheld] at hq
          cases hq
    rw [ht, interrupt, hi, hc, h.clock, Option.toList_none, List.append_nil]
    exact ⟨h.mode, rfl, h.count, h.held, h.slot, h.stamps, h.delivered, h.completed⟩
  · have hp := hsound.streaming_iff.mp hs
    obtain ⟨-, hdone, -⟩ | ⟨hd, -⟩ := hsound.head hp hq
    · have hheld : m.held = b :: rest := h.held ▸ hq
      have hslot : m.slot = none := by
        have hs' := h.slot
        rw [hdone] at hs'
        cases hm : m.slot with
        | none => rfl
        | some f => simp [hm] at hs'
      have hact : (s.cam.queue.stamp b (s.clock + d) s.cam.frameCount).state b = .active := by
        simpa using hb
      rw [tick_filled hidle hs hheld, interrupt, hi, hc, h.clock]
      apply abstracts_stamped h hheld
      · simp [advanceFrameCount, completeBuffer, stampBuffer]
      · simp [advanceFrameCount, completeBuffer, vb2BufferDone_done hact, stampBuffer, hdone]
      · rfl
      · have hstamps := vb2BufferDone_stamps (stampBuffer b (s.clock + d) s.cam).queue b b .done
        refine ⟨hstamps.1.trans ?_, hstamps.2.trans ?_⟩
        · simp [stampBuffer, Vb2Queue.stamp]
        · simp [stampBuffer, Vb2Queue.stamp]
      · intro hp
        rw [h.completed hp, Mailbox.letters, hslot]
        simp
    · simp [hd] at hb
  · have hp := hsound.streaming_iff.mp hs
    obtain ⟨hact, -⟩ | ⟨-, ds, hdone⟩ := hsound.head hp hq
    · exact absurd hact hb
    · have hheld : m.held = b :: rest := h.held ▸ hq
      obtain ⟨f, hslot, hf⟩ : ∃ f, m.slot = some f ∧ f.buffer = b := by
        have hs' := h.slot
        rw [hdone] at hs'
        cases hm : m.slot with
        | none => simp [hm] at hs'
        | some f =>
          simp only [hm, Option.toList_some, List.map_cons, List.cons.injEq] at hs'
          exact ⟨f, rfl, hs'.1.symm⟩
      have hone : s.cam.queue.doneList = [b] := by simp [h.slot, hslot, hf]
      rw [tick_filled hidle hs hheld, interrupt, hi, hc, h.clock]
      apply abstracts_stamped h hheld
      · simp [advanceFrameCount, stampBuffer]
      · simpa [advanceFrameCount, stampBuffer] using hone
      · rfl
      · simp [advanceFrameCount, stampBuffer, Vb2Queue.stamp]
      · intro hp
        rw [h.completed hp, Mailbox.letters, hslot]
        simp [hf]

theorem abstracts_step (h : Abstracts s m) (hacc : Accounted m) (hsound : Sound s xs)
    {a : Action n} (hs : step s a = some t) : Abstracts t (act m (actOf a)) := by
  cases a with
  | qbuf b => exact abstracts_qbuf h hsound hs
  | dqbuf =>
    cases hs
    exact abstracts_dqbuf h
  | streamon => exact abstracts_streamon h hacc hsound hs
  | startReset =>
    cases hs
    exact abstracts_startReset h
  | streamoff => exact abstracts_streamoff h hs
  | interrupt d =>
    cases hs
    exact abstracts_interrupt h hsound d

theorem abstracts_run {as : List (Action n)} (run : Run (Steps step) (Capture.initial n) as s) :
    Abstracts s (mailbox as) := by
  induction run with
  | refl => exact abstracts_initial n
  | @snoc s t as a run last ih =>
    obtain ⟨xs, hsound⟩ := sound_reachable ⟨as, run⟩
    have hafter : mailbox (as ++ [a]) = act (mailbox as) (actOf a) := by
      simp [mailbox, after, List.foldl_append]
    rw [hafter]
    exact abstracts_step ih (accounted_after _) hsound last

/-- In every run, the driver and vb2 are what the mailbox is after the same actions. -/
theorem run_refines {as : List (Action n)} (run : Run (Steps step) (Capture.initial n) as s) :
    Abstracts s (mailbox as) := abstracts_run run

/-- Two interrupts for the first frame and one for the second. -/
def overrun (a b : Fin n) : List (Action n) :=
  [.qbuf a, .qbuf b, .streamon, .startReset, .interrupt 3, .interrupt 2, .dqbuf, .interrupt 4]

theorem run_refines_overrun : ∃ s : Capture 2, s.delivered.length = 1 ∧
    Abstracts s (mailbox (overrun (0 : Fin 2) 1)) := by
  have heval : (follow step (Capture.initial 2) (overrun 0 1)).map (fun s => s.delivered.length) =
      some 1 := by decide
  obtain ⟨s, run, hs⟩ := run_of_follow heval
  exact ⟨s, hs, run_refines run⟩

/-- However many buffers are queued, one completed frame waits at most, and as long as it does
it is the first buffer of vb2's list. -/
theorem run_oneWaiting {as : List (Action n)} (run : Run (Steps step) (Capture.initial n) as s) :
    s.cam.queue.doneList.length ≤ 1 ∧ s.cam.queue.doneList <+: s.cam.queue.queuedList := by
  have h := abstracts_run run
  rw [h.slot, h.held, Mailbox.held]
  refine ⟨?_, List.prefix_append _ _⟩
  cases (mailbox as).slot <;> simp

theorem run_oneWaiting_overrun : ∃ s : Capture 2, s.cam.frameCount = 3 ∧
    s.cam.queue.doneList.length ≤ 1 := by
  have heval : (follow step (Capture.initial 2) (overrun 0 1)).map (fun s => s.cam.frameCount) =
      some 3 := by decide
  obtain ⟨s, run, hs⟩ := run_of_follow heval
  exact ⟨s, hs, (run_oneWaiting run).1⟩

/-- Frames of a session are completed and delivered in the order in which vb2 was given their
buffers, all but one of the completed ones are delivered, and the interrupts that stamped one
are those that completed it and those that overwrote it. -/
theorem session_accounted {as : List (Action n)}
    (run : Run (Steps step) (Capture.initial n) as s) (hp : s.phase ≠ .stopped) :
    (mailbox as).given = s.completed ++ s.cam.queue.queuedList.drop s.cam.queue.doneList.length ∧
      s.completed = (mailbox as).taken.map Letter.buffer ++ s.cam.queue.doneList ∧
      s.cam.queue.doneList.length ≤ 1 ∧
      s.delivered.map (fun v => (v.timestamp, v.sequence)) =
        (mailbox as).taken.map (fun f => (f.time, f.number)) ∧
      (mailbox as).stamped = s.completed.length + (mailbox as).overwritten := by
  have h := abstracts_run run
  have hacc : Accounted (mailbox as) := accounted_after _
  have hcompleted := h.completed hp
  refine ⟨?_, ?_, (run_oneWaiting run).1, h.delivered hp, ?_⟩
  · rw [hcompleted, h.slot, h.held, Mailbox.held, List.drop_left, hacc.order, Mailbox.letters,
      Mailbox.held, List.map_append, List.append_assoc]
  · rw [hcompleted, h.slot, Mailbox.letters, List.map_append]
  · rw [hcompleted, hacc.stamped, List.length_map]

theorem session_accounted_overrun : ∃ s : Capture 2, s.completed = [0, 1] ∧
    (mailbox (overrun (0 : Fin 2) 1)).stamped = s.completed.length + 1 ∧
    s.cam.queue.doneList = [1] := by
  have heval : (follow step (Capture.initial 2) (overrun 0 1)).map (fun s =>
      (s.completed, s.phase)) = some ([0, 1], .started) := by decide
  have hover : (mailbox (overrun (0 : Fin 2) 1)).overwritten = 1 := by decide
  have htaken : (mailbox (overrun (0 : Fin 2) 1)).taken.map Letter.buffer = [0] := by decide
  obtain ⟨s, run, hs⟩ := run_of_follow heval
  simp only [Prod.mk.injEq] at hs
  obtain ⟨-, hcompleted, -, -, hstamped⟩ := session_accounted run (by simp [hs.2])
  rw [hover] at hstamped
  rw [htaken, hs.1] at hcompleted
  exact ⟨s, hs.1, hstamped, (List.cons.inj hcompleted).2.symm⟩

/-- The delivered frames come with the interrupts that stamped them last, and their sequence
numbers count those since the counter was reset. -/
theorem session_numbered {as : List (Action n)}
    (run : Run (Steps step) (Capture.initial n) as s) (hp : s.phase ≠ .stopped) :
    ((mailbox as).taken.map Letter.index).Pairwise (· < ·) ∧
      (s.delivered.map (·.timestamp)).Pairwise (· ≤ ·) ∧
      List.Forall₂ (fun f v => (0 < f.index ∧ f.index ≤ (mailbox as).stamped) ∧
        v.timestamp = f.time ∧ ((mailbox as).early < f.index → v.sequence =
          BitVec.ofNat 32 (f.index - (mailbox as).early - 1))) (mailbox as).taken s.delivered := by
  have h := abstracts_run run
  have hacc : Accounted (mailbox as) := accounted_after _
  have hdel := h.delivered hp
  have hsub : (mailbox as).taken.Sublist (mailbox as).letters := List.sublist_append_left _ _
  have hinc := hacc.increasing.sublist hsub
  refine ⟨List.pairwise_map.mpr (hinc.imp (fun hfg => hfg.1)), ?_, ?_⟩
  · have htimes : s.delivered.map (·.timestamp) = (mailbox as).taken.map Letter.time := by
      simpa [Function.comp_def] using congrArg (List.map Prod.fst) hdel
    rw [htimes]
    exact List.pairwise_map.mpr (hinc.imp (fun hfg => hfg.2))
  · have hsame : List.Forall₂ Eq ((mailbox as).taken.map (fun f => (f.time, f.number)))
        (s.delivered.map (fun v => (v.timestamp, v.sequence))) := by
      rw [List.forall₂_eq_eq_eq, hdel]
    have hpairs := List.forall₂_map_left_iff.mp (List.forall₂_map_right_iff.mp hsame)
    have hbounds : ∀ f ∈ (mailbox as).taken, (0 < f.index ∧ f.index ≤ (mailbox as).stamped) ∧
        ((mailbox as).early < f.index →
          f.number = BitVec.ofNat 32 (f.index - (mailbox as).early - 1)) := by
      intro f hf
      have hb := hacc.bounded f (hsub.subset hf)
      exact ⟨⟨hb.1, hb.2.1⟩, hacc.numbers f (hsub.subset hf)⟩
    refine ((List.forall₂_and_left _ _).mpr ⟨hbounds, hpairs⟩).imp ?_
    rintro f v ⟨⟨hindex, hnumber⟩, hpair⟩
    obtain ⟨htime, hseq⟩ := Prod.mk.inj hpair
    exact ⟨hindex, htime.symm, fun hlate => hseq ▸ hnumber hlate⟩

/-- The second of three interrupts overwrote the frame that the first one completed. -/
theorem session_numbered_overrun : ∃ s : Capture 2, s.delivered.map (·.sequence) = [1] ∧
    (mailbox (overrun (0 : Fin 2) 1)).taken.map Letter.index = [2] ∧
    List.Forall₂ (fun (f : Letter (Fin 2) 32) v => v.timestamp = f.time)
      (mailbox (overrun (0 : Fin 2) 1)).taken s.delivered := by
  have heval : (follow step (Capture.initial 2) (overrun 0 1)).map (fun s =>
      (s.delivered.map (·.sequence), s.phase)) = some ([1], .started) := by decide
  obtain ⟨s, run, hs⟩ := run_of_follow heval
  simp only [Prod.mk.injEq] at hs
  have hnumbered := (session_numbered run (by simp [hs.2])).2.2
  exact ⟨s, hs.1, by decide, hnumbered.imp (fun _ _ hv => hv.2.1)⟩

end CameraDrivers.MailboxRefinement
