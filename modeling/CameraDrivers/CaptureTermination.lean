import CameraDrivers.MailboxRefinement
import CameraDrivers.SimpleCapture

/-!
# The end of the capture program

While the camera delivers frames, no DQBUF waits for ever: the program reaches its last call,
unless its S_FMT or its STREAMOFF crashes, or the first frame finds a handler that waits for the
lock it holds. The STREAMOFF that does not crash leaves buffers with the driver all the same.
-/
namespace CameraDrivers.CaptureTermination
open ReaddedCells CameraState CameraCallbacks TransitionRuns CaptureRuns TangledSessions
open SimpleCapture

variable {n : ℕ}

/-- The calls that are left, where no DQBUF waits. -/
def remaining (numFrames : ℕ) : Pc n → ℕ
  | .querycap => 3 * n + 2 * numFrames + 6
  | .sFmt => 3 * n + 2 * numFrames + 5
  | .reqbufs => 3 * n + 2 * numFrames + 4
  | .mapBuffer i => 3 * n + 2 * numFrames + 3 - i
  | .queueBuffer i => 2 * n + 2 * numFrames + 3 - i
  | .streamon => n + 2 * numFrames + 3
  | .streamonStarted => n + 2 * numFrames + 2
  | .dequeue i => n + 1 + 2 * (numFrames - i)
  | .requeue i _ => n + 2 * (numFrames - i)
  | .streamoff => n + 1
  | .unmap i => n - i
  | .closed | .failed => 0

/-- A DQBUF at this point waits. -/
def Waiting (s : Program n) : Prop :=
  (∃ i, s.pc = .dequeue i) ∧ s.driver.capture.cam.queue.doneList = []

/-- Frame interrupts, at least one of them, and calls that a signal breaks off. -/
structure Frames (es : List Event) : Prop where
  some : ∃ elapsed, .interrupt elapsed ∈ es
  only : ∀ e ∈ es, e = .eintr ∨ ∃ elapsed, e = .interrupt elapsed

/-- Every call after frames of its own. -/
def schedule (rounds : List (List Event)) : List Event :=
  rounds.flatMap (fun es => es ++ [.call])

section Calls

variable [NeZero n] {spins : Bool} {numFrames i : ℕ} {cap : CapabilityIoctls.V4l2Capability}
  {s t : Program n} {drvdata : Option FormatIoctls.V4l2Format} {es : List Event}

omit [NeZero n] in
theorem drive_pc {a : Action n} {pc : Pc n} (h : s.drive a pc = some t) : t.pc = pc := by
  obtain ⟨c, -, rfl⟩ := s.drive_some h
  rfl

omit [NeZero n] in
theorem remaining_loopHead (hi : i ≤ numFrames) :
    remaining numFrames (loopHead numFrames i : Pc n) = n + 1 + 2 * (numFrames - i) := by
  rw [loopHead]
  split
  · rfl
  · have hzero : numFrames - i = 0 := by omega
    rw [hzero]
    rfl

/-- A call that does not wait is one call less. -/
theorem remaining_call (h : Good numFrames s) (h2 : 2 ≤ n) (hw : ¬ Waiting s)
    (hc : call numFrames cap s = some t) :
    remaining numFrames t.pc = remaining numFrames s.pc - 1 ∧
      (t.pc = .failed → s.pc = .failed) := by
  have hcall := hc
  rw [call] at hc
  cases hpc : s.pc with
  | querycap =>
    simp only [hpc, querycap_accepted, Bool.and_self, if_true, Option.some.injEq] at hc
    subst hc
    simp [remaining]
  | sFmt =>
    obtain ⟨currentFmt, -, rfl⟩ := call_sFmt hpc hcall
    simp [remaining]
  | reqbufs =>
    simp only [hpc, if_neg (show ¬ n < 2 by omega), Option.some.injEq] at hc
    subst hc
    simp [remaining]
  | mapBuffer i =>
    have hi := h.mapping i hpc
    simp only [hpc, Option.some.injEq] at hc
    subst hc
    by_cases hlast : i + 1 < n
    · simp only [if_pos hlast, remaining]
      exact ⟨by omega, by simp⟩
    · simp only [if_neg hlast, remaining]
      exact ⟨by omega, by simp⟩
  | queueBuffer i =>
    have hi := h.queueing i hpc
    simp only [hpc, dif_pos hi] at hc
    rw [drive_pc hc]
    by_cases hlast : i + 1 < n
    · simp only [if_pos hlast, remaining]
      exact ⟨by omega, by simp⟩
    · simp only [if_neg hlast, remaining]
      exact ⟨by omega, by simp⟩
  | streamon =>
    simp only [hpc] at hc
    rw [drive_pc hc]
    simp [remaining]
  | streamonStarted =>
    simp only [hpc] at hc
    rw [drive_pc hc, remaining_loopHead (Nat.zero_le _), remaining]
    refine ⟨by omega, ?_⟩
    rw [loopHead]
    split <;> simp
  | dequeue i =>
    have hi := h.looping i hpc
    simp only [hpc] at hc
    cases hd : s.driver.capture.cam.queue.doneList with
    | nil => exact absurd ⟨⟨i, hpc⟩, hd⟩ hw
    | cons b rest =>
      simp only [hd] at hc
      rw [drive_pc hc, remaining, remaining]
      exact ⟨by omega, by simp⟩
  | requeue i b =>
    obtain ⟨hi, -⟩ := h.requeueing i b hpc
    simp only [hpc] at hc
    rw [drive_pc hc, remaining_loopHead hi, remaining]
    refine ⟨by omega, ?_⟩
    rw [loopHead]
    split <;> simp
  | streamoff =>
    simp only [hpc] at hc
    rw [drive_pc hc]
    simp [remaining]
  | unmap i =>
    have hi := h.unmapping i hpc
    simp only [hpc, Option.some.injEq] at hc
    subst hc
    by_cases hlast : i + 1 < n
    · simp only [if_pos hlast, remaining]
      exact ⟨by omega, by simp⟩
    · simp only [if_neg hlast, remaining]
      exact ⟨by omega, by simp⟩
  | closed =>
    simp only [hpc, Option.some.injEq] at hc
    subst hc
    simp [hpc, remaining]
  | failed =>
    simp only [hpc, Option.some.injEq] at hc
    subst hc
    simp [hpc, remaining]

omit [NeZero n] in
/-- An interrupt of a streaming queue leaves a completed buffer. -/
theorem interrupt_done {c : Capture n} {xs : List (Fin n)} (hs : Sound c xs)
    (hp : c.phase = .started) (hq : c.cam.queue.queuedList ≠ []) (elapsed : ℕ) :
    (interrupt elapsed c).cam.queue.doneList ≠ [] := by
  have hstream : c.cam.streaming = true := hs.streaming_iff.mpr (by simp [hp])
  rcases cameraIrqHandler_cases (c.clock + elapsed) c.cam with ⟨hoff | hempty, -, -⟩ |
      ⟨b, rest, -, -, hb, -, hi⟩ | ⟨b, rest, -, hlist, hb, -, hi⟩
  · rw [hstream] at hoff
    cases hoff
  · exact absurd hempty hq
  · have hact : (c.cam.queue.stamp b (c.clock + elapsed) c.cam.frameCount).state b = .active := by
      simpa using hb
    simp [interrupt, hi, advanceFrameCount, completeBuffer, stampBuffer, vb2BufferDone_done hact]
  · rcases hs.head (by simp [hp]) hlist with ⟨hactive, -, -⟩ | ⟨-, ds, hdone⟩
    · exact absurd hactive hb
    · simp [interrupt, hi, advanceFrameCount, stampBuffer, hdone]

theorem interrupt_wakes (cap : CapabilityIoctls.V4l2Capability) (h : Good numFrames s)
    (elapsed : ℕ) : ∃ t, next false numFrames cap s (.interrupt elapsed) = some t ∧
      Good numFrames t ∧ t.pc = s.pc ∧ t.drvdata = s.drvdata ∧ ¬ Waiting t := by
  let t : Program n := { s with driver :=
    ⟨interrupt elapsed s.driver.capture, record s.driver.capture s.driver.history
      (.interrupt elapsed)⟩ }
  have ht : next false numFrames cap s (.interrupt elapsed) = some t := rfl
  refine ⟨t, ht, good_of_next h ht, rfl, rfl, ?_⟩
  rintro ⟨⟨i, hi⟩, hdone⟩
  have hpc : s.pc = .dequeue i := hi
  have hst := h.standing .started i n (by rw [hpc]; rfl)
  obtain ⟨xs, hs⟩ := hst.kept.sound
  have hq : s.driver.capture.cam.queue.queuedList ≠ [] := by
    simp [hst.queued, NeZero.ne n]
  exact interrupt_done hs hst.phase_eq hq elapsed hdone

/-- After a frame no DQBUF waits. -/
theorem frames_run (cap : CapabilityIoctls.V4l2Capability)
    (hes : ∀ e ∈ es, e = .eintr ∨ ∃ elapsed, e = .interrupt elapsed) (h : Good numFrames s) :
    ∃ t, Run (Steps (next false numFrames cap)) s es t ∧ Good numFrames t ∧ t.pc = s.pc ∧
      t.drvdata = s.drvdata ∧
      ((∃ elapsed, .interrupt elapsed ∈ es) ∨ ¬ Waiting s → ¬ Waiting t) := by
  induction es generalizing s with
  | nil => exact ⟨s, .refl s, h, rfl, rfl, by simp⟩
  | cons e es ih =>
    have htail := fun e' he' => hes e' (List.mem_cons_of_mem e he')
    rcases hes e List.mem_cons_self with rfl | ⟨elapsed, rfl⟩
    · obtain ⟨t, hrun, hgood, hpc, hdrv, hwake⟩ := ih htail h
      exact ⟨t, run_cons_iff.mpr ⟨s, rfl, hrun⟩, hgood, hpc, hdrv, by simpa using hwake⟩
    · obtain ⟨u, hu, hgood, hpc, hdrv, hawake⟩ := interrupt_wakes cap h elapsed
      obtain ⟨t, hrun, hgood', hpc', hdrv', hwake⟩ := ih htail hgood
      exact ⟨t, run_cons_iff.mpr ⟨u, hu, hrun⟩, hgood', hpc'.trans hpc, hdrv'.trans hdrv,
        fun _ => hwake (.inr hawake)⟩

omit [NeZero n] in
/-- Only S_FMT writes to what `video_drvdata` gives. -/
theorem drvdata_call (hc : call numFrames cap s = some t) :
    t.drvdata.isSome = s.drvdata.isSome := by
  have hdrive : ∀ {s : Program n} {a : Action n} {pc : Pc n}, s.drive a pc = some t →
      t.drvdata = s.drvdata := by
    intro s a pc h
    obtain ⟨c, -, rfl⟩ := s.drive_some h
    rfl
  have hcall := hc
  rw [call] at hc
  cases hpc : s.pc with
  | querycap =>
    simp only [hpc] at hc
    split at hc <;> exact Option.some.inj hc ▸ rfl
  | queueBuffer i =>
    simp only [hpc] at hc
    split at hc
    · exact hdrive hc ▸ rfl
    · exact Option.some.inj hc ▸ rfl
  | sFmt =>
    obtain ⟨currentFmt, hfmt, rfl⟩ := call_sFmt hpc hcall
    rw [hfmt]
    rfl
  | dequeue i =>
    simp only [hpc] at hc
    split at hc
    · exact Option.some.inj hc ▸ rfl
    · exact hdrive hc ▸ rfl
  | streamon | streamonStarted | requeue | streamoff =>
    simp only [hpc] at hc
    exact hdrive hc ▸ rfl
  | _ =>
    simp only [hpc] at hc
    exact Option.some.inj hc ▸ rfl

/-- Round by round the program comes nearer to its end, or it crashes on the way. -/
theorem schedule_run (cap : CapabilityIoctls.V4l2Capability) (h2 : 2 ≤ n)
    (hok : ¬ (0 < numFrames ∧ n ∣ numFrames)) {rounds : List (List Event)}
    (hrounds : ∀ es ∈ rounds, Frames es) (h : Good numFrames s)
    (hdrv : s.drvdata.isSome = true) (hlive : s.pc ≠ .failed) :
    ∃ t, Run (Steps (next false numFrames cap)) s (schedule rounds) t ∧ Good numFrames t ∧
      t.pc ≠ .failed ∧ remaining numFrames t.pc = remaining numFrames s.pc - rounds.length := by
  induction rounds generalizing s with
  | nil => exact ⟨s, .refl s, h, hlive, rfl⟩
  | cons es rounds ih =>
    have hes := hrounds es List.mem_cons_self
    obtain ⟨u, hu, hgood, hpc, hsame, hwake⟩ := frames_run cap hes.only h
    rcases good_call cap hgood with ⟨⟨-, hnull⟩ | ⟨-, hcrash⟩, -⟩ | ⟨-, v, hv, hgood'⟩
    · simp [← hsame, hnull] at hdrv
    · exact absurd hcrash hok
    · obtain ⟨hless, hfail⟩ := remaining_call hgood h2 (hwake (.inl hes.some)) hv
      rw [hpc] at hless hfail
      obtain ⟨t, ht, hgood'', hlive', hleft⟩ := ih
        (fun es' hes' => hrounds es' (List.mem_cons_of_mem es hes')) hgood'
        (by rw [drvdata_call hv, hsame, hdrv]) (fun hv' => hlive (hfail hv'))
      refine ⟨t, ?_, hgood'', hlive', ?_⟩
      · have hcons : schedule (es :: rounds) = es ++ ([.call] ++ schedule rounds) := by
          simp [schedule]
        rw [hcons]
        exact hu.append ((Run.single hv).append ht)
      · rw [hleft, hless, List.length_cons]
        omega

theorem remaining_eq_zero {s : Program n} (h : Good numFrames s) (hlive : s.pc ≠ .failed)
    (hz : remaining numFrames s.pc = 0) : s.pc = .closed := by
  cases hpc : s.pc with
  | closed => rfl
  | failed => exact absurd hpc hlive
  | mapBuffer i =>
    have hi := h.mapping i hpc
    rw [hpc, remaining] at hz
    omega
  | queueBuffer i =>
    have hi := h.queueing i hpc
    rw [hpc, remaining] at hz
    omega
  | unmap i =>
    have hi := h.unmapping i hpc
    rw [hpc, remaining] at hz
    omega
  | _ =>
    have hn := Nat.pos_of_neZero n
    rw [hpc, remaining] at hz
    omega

theorem remaining_gt {s : Program n} (h : Good numFrames s) (hpc : s.pc ≠ .streamoff)
    (hleft : n < remaining numFrames s.pc) : n + 1 < remaining numFrames s.pc := by
  cases hpc' : s.pc with
  | streamoff => exact absurd hpc' hpc
  | mapBuffer i =>
    have hi := h.mapping i hpc'
    rw [remaining]
    omega
  | queueBuffer i =>
    have hi := h.queueing i hpc'
    rw [remaining]
    omega
  | dequeue i =>
    have hi := h.looping i hpc'
    rw [remaining]
    omega
  | requeue i b =>
    have hi := (h.requeueing i b hpc').1
    rw [remaining]
    omega
  | _ =>
    rw [hpc', remaining] at hleft
    rw [remaining]
    omega

/-- Where STREAMOFF crashes, the program does not get past it. -/
theorem crash_run (h2 : 2 ≤ n) (hcrash : 0 < numFrames ∧ n ∣ numFrames)
    (run : Run (Steps (next spins numFrames cap)) (Program.start n drvdata) es s) :
    s.pc = .failed ∨ n < remaining numFrames s.pc := by
  refine (run.invariant
    (fun s => Good numFrames s ∧ (s.pc = .failed ∨ n < remaining numFrames s.pc))
    ⟨good_start numFrames drvdata, .inr ?_⟩ ?_).2
  · simp only [Program.start, remaining]
    omega
  · rintro s e t ⟨hgood, hleft⟩ ht
    refine ⟨good_of_next hgood ht, ?_⟩
    cases e with
    | call =>
      replace ht : call numFrames cap s = some t := ht
      by_cases hw : Waiting s
      · obtain ⟨⟨i, hpc⟩, hdone⟩ := hw
        have hsame : call numFrames cap s = some s := by simp [call, hpc, hdone]
        obtain rfl : s = t := Option.some.inj (hsame.symm.trans ht)
        exact hleft
      · obtain ⟨hless, -⟩ := remaining_call hgood h2 hw ht
        rcases hleft with hfail | hleft
        · have hsame : call numFrames cap s = some s := by simp [call, hfail]
          obtain rfl : s = t := Option.some.inj (hsame.symm.trans ht)
          exact .inl hfail
        · have hpc : s.pc ≠ .streamoff := by
            intro hpc
            have hnone := (call_eq_none_iff cap hgood).mpr (.inr ⟨hpc, hcrash⟩)
            rw [hnone] at ht
            cases ht
          have hgt := remaining_gt hgood hpc hleft
          exact .inr (by omega)
    | eintr =>
      cases ht
      exact hleft
    | mmapFails =>
      simp only [Steps, SimpleCapture.next] at ht
      split at ht
      · cases ht
        exact .inl rfl
      · cases ht
        exact hleft
    | interrupt elapsed =>
      rw [drive_pc (frameInterrupt_some ht).1]
      exact hleft

omit [NeZero n] in
/-- Where `video_drvdata` gives NULL, the program does not get past S_FMT. -/
theorem null_run (run : Run (Steps (next spins numFrames cap)) (Program.start n none) es s) :
    s.drvdata = none ∧ (s.pc = .querycap ∨ s.pc = .sFmt ∨ s.pc = .failed) := by
  refine run.invariant
    (fun s => s.drvdata = none ∧ (s.pc = .querycap ∨ s.pc = .sFmt ∨ s.pc = .failed))
    ⟨rfl, .inl rfl⟩ ?_
  rintro s e t ⟨hnull, hpc⟩ ht
  cases e with
  | call =>
    replace ht : call numFrames cap s = some t := ht
    rcases hpc with hpc | hpc | hpc
    · simp only [call, hpc, querycap_accepted, Bool.and_self, if_true, Option.some.injEq] at ht
      subst ht
      exact ⟨hnull, .inr (.inl rfl)⟩
    · obtain ⟨currentFmt, hfmt, -⟩ := call_sFmt hpc ht
      rw [hnull] at hfmt
      cases hfmt
    · simp only [call, hpc, Option.some.injEq] at ht
      subst ht
      exact ⟨hnull, .inr (.inr hpc)⟩
  | eintr =>
    cases ht
    exact ⟨hnull, hpc⟩
  | mmapFails =>
    simp only [Steps, SimpleCapture.next] at ht
    split at ht
    · cases ht
      exact ⟨hnull, .inr (.inr rfl)⟩
    · cases ht
      exact ⟨hnull, hpc⟩
  | interrupt elapsed =>
    obtain ⟨c, -, rfl⟩ := s.drive_some (frameInterrupt_some ht).1
    exact ⟨hnull, hpc⟩

omit [NeZero n] in
/-- Frames and broken-off calls leave the program where it is. -/
theorem frames_pc (hes : ∀ e ∈ es, e = .eintr ∨ ∃ elapsed, e = .interrupt elapsed)
    (run : Run (Steps (next spins numFrames cap)) s es t) : t.pc = s.pc := by
  induction es generalizing s with
  | nil => rw [run_nil_iff.mp run]
  | cons e es ih =>
    obtain ⟨u, hu, hrest⟩ := run_cons_iff.mp run
    have htail := ih (fun e' he' => hes e' (List.mem_cons_of_mem e he')) hrest
    rcases hes e List.mem_cons_self with rfl | ⟨elapsed, rfl⟩
    · cases hu
      exact htail
    · exact htail.trans (drive_pc (frameInterrupt_some hu).1)

/-- Where a held lock spins, a program that has come through a frame does not stream. -/
theorem frames_spin (hes : Frames es) (hg : Good numFrames s) (h : Unfilled s)
    (run : Run (Steps (next true numFrames cap)) s es t) : s.pc.streams = false := by
  obtain ⟨elapsed, hmem⟩ := hes.some
  obtain ⟨pre, post, rfl⟩ := List.append_of_mem hmem
  obtain ⟨u, hpre, hrest⟩ := run_append_iff.mp run
  obtain ⟨v, hframe, -⟩ := run_cons_iff.mp hrest
  obtain ⟨hgood, hunfilled⟩ := h.run hg hpre
  have hpc := frames_pc (fun e he => hes.only e (List.mem_append_left _ he)) hpre
  have hiff := completes_iff hgood hunfilled
  rw [(frameInterrupt_some hframe).2 rfl, hpc] at hiff
  simpa using hiff

theorem remaining_gt_of_still {s : Program n} (h : Good numFrames s)
    (hpc : s.pc.streams = false) (hleft : n + 2 * numFrames + 1 < remaining numFrames s.pc) :
    n + 2 * numFrames + 2 < remaining numFrames s.pc := by
  cases hpc' : s.pc with
  | mapBuffer i =>
    have hi := h.mapping i hpc'
    rw [remaining]
    omega
  | queueBuffer i =>
    have hi := h.queueing i hpc'
    rw [remaining]
    omega
  | streamonStarted | dequeue | requeue | streamoff => simp [hpc', Pc.streams] at hpc
  | _ =>
    rw [hpc', remaining] at hleft
    rw [remaining]
    omega

/-- Where a held lock spins, the program does not get past the frame that follows STREAMON. -/
theorem spin_run (h2 : 2 ≤ n) {rounds : List (List Event)} (hrounds : ∀ es ∈ rounds, Frames es)
    (run : Run (Steps (next true numFrames cap)) (Program.start n drvdata) (schedule rounds) s) :
    s.pc = .failed ∨ n + 2 * numFrames + 1 < remaining numFrames s.pc := by
  induction rounds using List.reverseRecOn generalizing s with
  | nil =>
    obtain rfl := run_nil_iff.mp run
    refine .inr ?_
    simp only [Program.start, remaining]
    omega
  | append_singleton rounds es ih =>
    have hsnoc : schedule (rounds ++ [es]) = schedule rounds ++ (es ++ [.call]) := by
      simp [schedule]
    rw [hsnoc, run_append_iff] at run
    obtain ⟨u, hu, hround⟩ := run
    obtain ⟨v, hv, hlast⟩ := run_snoc_iff.mp hround
    have hcall : call numFrames cap v = some s := hlast
    have hes := hrounds es (by simp)
    have hstill := frames_spin hes (good_run hu) (unfilled_run hu) hv
    have hpc := frames_pc hes.only hv
    rcases ih (fun es' hes' => hrounds es' (List.mem_append_left _ hes')) hu with hfail | hleft
    · have hsame : call numFrames cap v = some v := by simp [call, hpc, hfail]
      obtain rfl : v = s := Option.some.inj (hsame.symm.trans hcall)
      exact .inl (hpc.trans hfail)
    · have hw : ¬ Waiting v := by
        rintro ⟨⟨i, hi⟩, -⟩
        rw [← hpc, hi] at hstill
        cases hstill
      obtain ⟨hless, -⟩ := remaining_call ((unfilled_run hu).run (good_run hu) hv).1 h2 hw hcall
      rw [hpc] at hless
      have hgt := remaining_gt_of_still (good_run hu) hstill hleft
      exact .inr (by omega)

/-- Given a frame before each of its calls, the program ends with all its frames and without
mappings, or the kernel does not come back from one of its steps. Which of the two depends on what
`video_drvdata` gives, on the locks and on the number of frames. -/
theorem finishes_iff (spins : Bool) (numFrames : ℕ) (cap : CapabilityIoctls.V4l2Capability)
    (drvdata : Option FormatIoctls.V4l2Format) (h2 : 2 ≤ n) {rounds : List (List Event)}
    (hrounds : ∀ es ∈ rounds, Frames es) (hlong : 3 * n + 2 * numFrames + 6 ≤ rounds.length) :
    (∃ s, Run (Steps (next spins numFrames cap)) (Program.start n drvdata) (schedule rounds) s ∧
        s.pc = .closed ∧ s.frames.length = numFrames ∧ s.mapped = []) ↔
      drvdata.isSome = true ∧ spins = false ∧ ¬ (0 < numFrames ∧ n ∣ numFrames) := by
  constructor
  · rintro ⟨s, hrun, hpc, -, -⟩
    refine ⟨?_, ?_, fun hcrash => ?_⟩
    · rw [Option.isSome_iff_ne_none]
      rintro rfl
      simpa [hpc] using (null_run hrun).2
    · rw [← Bool.not_eq_true]
      rintro rfl
      rcases spin_run h2 hrounds hrun with hfail | hleft
      · simp [hpc] at hfail
      · simp [hpc, remaining] at hleft
    · rcases crash_run h2 hcrash hrun with hfail | hleft
      · simp [hpc] at hfail
      · simp [hpc, remaining] at hleft
  · rintro ⟨hdrv, rfl, hok⟩
    obtain ⟨s, hrun, hgood, hlive, hleft⟩ := schedule_run cap h2 hok hrounds
      (good_start numFrames drvdata) hdrv (by simp [Program.start])
    have hz : remaining numFrames s.pc = 0 := by
      rw [hleft]
      simp only [Program.start, remaining]
      omega
    have hpc := remaining_eq_zero hgood hlive hz
    refine ⟨s, hrun, hpc, ?_, ?_⟩
    · simp [hgood.frames, hpc, Pc.captured]
    · simp [hgood.mapped hlive, hpc, Pc.mappings]

/-- One frame from two buffers. -/
theorem finishes_two : ∃ s : Program 2,
    Run (Steps (next false 1 .cleared)) (Program.start 2 (some request))
      (schedule (List.replicate 14 [.interrupt 1])) s ∧ s.pc = .closed := by
  have hrounds : ∀ es ∈ List.replicate 14 [Event.interrupt 1], Frames es := by
    intro es hes
    rw [List.eq_of_mem_replicate hes]
    exact ⟨⟨1, by simp⟩, by simp⟩
  obtain ⟨s, hrun, hpc, -⟩ :=
    (finishes_iff false 1 .cleared (some request) le_rfl hrounds le_rfl).mpr (by decide)
  exact ⟨s, hrun, hpc⟩

end Calls

section Streamoff

variable [NeZero n] {spins : Bool} {numFrames : ℕ} {cap : CapabilityIoctls.V4l2Capability}
  {s t : Program n} {drvdata : Option FormatIoctls.V4l2Format} {es : List Event}
  {cam' : CameraDev n}

omit [NeZero n] in
theorem drive_driver {a : Action n} {pc : Pc n} (h : s.drive a pc = some t) :
    Steps TangledSessions.next s.driver a t.driver := by
  obtain ⟨m, hm, rfl⟩ := Option.map_eq_some_iff.mp h
  exact hm

omit [NeZero n] in
/-- A call takes one step of the driver, or none. -/
theorem call_driver (hc : call numFrames cap s = some t) :
    t.driver = s.driver ∨ ∃ a, Steps TangledSessions.next s.driver a t.driver := by
  have hcall := hc
  rw [call] at hc
  cases hpc : s.pc with
  | querycap =>
    simp only [hpc] at hc
    split at hc <;> exact .inl (Option.some.inj hc ▸ rfl)
  | sFmt =>
    obtain ⟨currentFmt, -, rfl⟩ := call_sFmt hpc hcall
    exact .inl rfl
  | queueBuffer i =>
    simp only [hpc] at hc
    split at hc
    · exact .inr ⟨_, drive_driver hc⟩
    · exact .inl (Option.some.inj hc ▸ rfl)
  | dequeue i =>
    simp only [hpc] at hc
    split at hc
    · exact .inl (Option.some.inj hc ▸ rfl)
    · have hdriver := drive_driver hc
      exact .inr ⟨.dqbuf, hdriver⟩
  | streamon | streamonStarted | requeue | streamoff =>
    simp only [hpc] at hc
    exact .inr ⟨_, drive_driver hc⟩
  | _ =>
    simp only [hpc] at hc
    exact .inl (Option.some.inj hc ▸ rfl)

omit [NeZero n] in
theorem run_monitored (run : Run (Steps (SimpleCapture.next spins numFrames cap))
    (Program.start n drvdata) es s) :
    ∃ as, Run (Steps TangledSessions.next) (Monitored.initial n) as s.driver := by
  refine run.invariant (fun s => ∃ as, Run (Steps TangledSessions.next) (Monitored.initial n) as
    s.driver) ⟨[], .refl _⟩ ?_
  rintro s e t ⟨as, hrun⟩ ht
  have hdriver : t.driver = s.driver ∨ ∃ a, Steps TangledSessions.next s.driver a t.driver := by
    cases e with
    | call => exact call_driver ht
    | eintr => exact .inl (Option.some.inj ht ▸ rfl)
    | mmapFails =>
      simp only [Steps, SimpleCapture.next] at ht
      split at ht <;> exact .inl (Option.some.inj ht ▸ rfl)
    | interrupt elapsed => exact .inr ⟨_, drive_driver (frameInterrupt_some ht).1⟩
  rcases hdriver with hsame | ⟨a, ha⟩
  · exact ⟨as, hsame ▸ hrun⟩
  · exact ⟨as ++ [a], hrun.snoc ha⟩

omit [NeZero n] in
theorem run_driver (run : Run (Steps (SimpleCapture.next spins numFrames cap))
    (Program.start n drvdata) es s) :
    ∃ as, Run (Steps step) (Capture.initial n) as s.driver.capture := by
  obtain ⟨as, hrun⟩ := run_monitored run
  exact ⟨as, run_captures hrun⟩

theorem mem_path_iff {j : ℕ} (b : Fin n) :
    Cell.node b ∈ (turns (n + j + 1) : History (Cell n)).path ↔ b.val ≤ j % n := by
  have hlt := Nat.mod_lt j (Nat.pos_of_neZero n)
  rw [turns_path]
  simp only [List.mem_map, List.mem_range, Cell.node.injEq]
  constructor
  · rintro ⟨i, hi, rfl⟩
    have hval : (turn i : Fin n).val = i := Nat.mod_eq_of_lt (by omega)
    omega
  · intro hb
    exact ⟨b.val, by omega, Fin.ext (Nat.mod_eq_of_lt b.isLt)⟩

/-- Where all buffers are queued, those behind the first one are ACTIVE. -/
theorem active_of_standing {m : Monitored n} {as : List (Action n)} {first : ℕ}
    (run : Run (Steps step) (Capture.initial n) as m.capture)
    (h : Standing m .started first n) {b : Fin n} (hb : b ≠ turn first) :
    m.capture.state b = .active := by
  obtain ⟨xs, hs⟩ := h.kept.sound
  have hall : b ∈ m.capture.cam.queue.queuedList := by
    have hlength : m.capture.cam.queue.queuedList.length = n := by simp [h.queued]
    have huniv : m.capture.cam.queue.queuedList.toFinset = Finset.univ := by
      apply Finset.eq_univ_of_card
      rw [List.toFinset_card_of_nodup hs.nodup, hlength, Fintype.card_fin]
    exact List.mem_toFinset.mp (huniv ▸ Finset.mem_univ b)
  have hdone : b ∉ m.capture.cam.queue.doneList := by
    have ha := MailboxRefinement.abstracts_run run
    have hheld := ha.held
    have hfirst : List.range' first n = first :: List.range' (first + 1) (n - 1) := by
      obtain ⟨k, hk⟩ : ∃ k, n = k + 1 := Nat.exists_eq_succ_of_ne_zero (NeZero.ne n)
      rw [hk, List.range'_succ, Nat.add_sub_cancel]
    rw [h.queued, hfirst, List.map_cons, FrameMailbox.Mailbox.held] at hheld
    rw [ha.slot]
    cases hslot : (MailboxRefinement.mailbox as).slot with
    | none => simp
    | some f =>
      simp only [hslot, Option.toList_some, List.map_cons, List.map_nil, List.cons_append,
        List.nil_append, List.cons.injEq] at hheld
      simpa [← hheld.1] using hb
  rw [hs.running (by simp [h.phase_eq]), List.mem_append] at hall
  exact (hs.order.mem_iff b).mp (hall.resolve_left hdone)

/-- The STREAMOFF behind the last frame, when it returns: only as many buffers come back from
the driver as the number of frames is beyond whole rounds. -/
theorem streamoff_leaves
    (run : Run (Steps (SimpleCapture.next spins numFrames cap)) (Program.start n drvdata) es s)
    (hpc : s.pc = .streamoff) (hframes : 0 < numFrames)
    (hstop : stopStreaming s.driver.capture.cam = some cam') (b : Fin n) :
    (b.val < numFrames % n → cam'.queue.state b = .error) ∧
      (numFrames % n < b.val → cam'.queue.state b = .active) := by
  have hst := (good_run run).standing .started numFrames n (by rw [hpc]; rfl)
  obtain ⟨as, hrun⟩ := run_driver run
  have hactive := fun hb => active_of_standing hrun hst (b := b) hb
  obtain ⟨j, rfl⟩ : ∃ j, numFrames = j + 1 := Nat.exists_eq_succ_of_ne_zero (by omega)
  have hhist := hst.history
  rw [if_neg (by simp)] at hhist
  have hsum : j + 1 + n = n + j + 1 := by omega
  rw [hsum] at hhist
  cases hd : s.driver.history.drainable with
  | false =>
    rw [stopStreaming_faults hst.kept.follow hd] at hstop
    cases hstop
  | true =>
    obtain ⟨cam'', hcam, -, hstate⟩ := stopStreaming_follows hst.kept.follow hd
    obtain rfl : cam'' = cam' := Option.some.inj (hcam.symm.trans hstop)
    have hmod : (j + 1) % n = j % n + 1 := by
      refine succ_mod (fun hz => ?_)
      have hfalse := (turns_drainable (n := n) (j + 1)).mpr
        ⟨hframes, Nat.dvd_of_mod_eq_zero hz⟩
      rw [← Nat.add_assoc, ← hhist, hd] at hfalse
      cases hfalse
    have hturn : ∀ c : Fin n, c.val ≠ (j + 1) % n → c ≠ turn (j + 1) := by
      rintro c hc rfl
      exact hc rfl
    have hb := hstate b
    have hpath := mem_path_iff (j := j) b
    rw [← hhist] at hpath
    constructor
    · intro hlt
      rw [hb, if_pos ⟨hpath.mpr (by omega), hactive (hturn b (by omega))⟩]
    · intro hlt
      have hout : ¬ Cell.node b ∈ s.driver.history.path := fun hc => by
        have hle := hpath.mp hc
        omega
      rw [hb, if_neg (fun hc => hout hc.1)]
      exact hactive (hturn b (by omega))

/-- Three buffers, one frame: the last buffer stays with the driver. -/
theorem streamoff_leaves_three : ∃ (s : Program 3) (cam' : CameraDev 3), s.pc = .streamoff ∧
    stopStreaming s.driver.capture.cam = some cam' ∧ cam'.queue.state 0 = .error ∧
      cam'.queue.state 2 = .active := by
  let es : List Event := List.replicate 11 .call ++ [.interrupt 1, .call, .call]
  have heval : (follow (SimpleCapture.next false 1 .cleared)
      (Program.start 3 (some request)) es).map
        (fun s => (s.pc, (stopStreaming s.driver.capture.cam).isSome)) =
          some (.streamoff, true) := by decide
  obtain ⟨s, run, hs⟩ := run_of_follow heval
  simp only [Prod.mk.injEq] at hs
  obtain ⟨cam', hstop⟩ := Option.isSome_iff_exists.mp hs.2
  have hleft := streamoff_leaves run hs.1 (by decide) hstop
  exact ⟨s, cam', hs.1, hstop, (hleft 0).1 (by decide), (hleft 2).2 (by decide)⟩

end Streamoff

end CameraDrivers.CaptureTermination
