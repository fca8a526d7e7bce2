import CameraDrivers.CaptureRuns

/-!
# Ownership of the buffers on the driver's list

The driver-owned list should hold the ACTIVE buffers. `buf_queue` and `stop_streaming`
keep it so; the interrupt handler completes a buffer and leaves it linked, unlike
`stop_streaming`, which unlinks each buffer before it returns it.
-/
namespace CameraDrivers.BufferOwnership
open LinkedListHeap CameraState CameraCallbacks TransitionRuns CaptureRuns

variable {n : ℕ} {s t : Capture n} {b : Fin n} {xs ws : List (Fin n)}

/-- The driver-owned list is exactly the ACTIVE buffers, each once and in hand-over order,
no other buffer is linked, and no call of `buf_queue` found its buffer linked already. -/
def Owned (s : Capture n) : Prop :=
  ∃ xs, ActiveInOrder s xs ∧ DriverList s.cam.queuedList xs ∧ s.relinked = []

/-- The step is not a frame interrupt that completes a buffer. -/
def noCompletion (s : Capture n) : Action n → Prop
  | .interrupt _ => completes s.cam = none
  | _ => True

/-- Handing over a buffer that is not on the list. -/
private theorem enqueue_owned (hd : DriverList s.cam.queuedList xs) (hb : b ∉ xs) :
    ∃ t, enqueueInDriver s b = some t ∧ DriverList t.cam.queuedList (xs ++ [b]) ∧
      t.relinked = s.relinked := by
  obtain ⟨l, hl, hd'⟩ := bufQueue_spec
    { s.cam with queue := s.cam.queue.setState b .active } hd hb
  have hlinked : s.linked b = false := by
    simpa [Capture.linked, hb] using hd.linked_iff b
  exact ⟨_, by rw [enqueueInDriver, hl]; rfl, hd', by simp [hlinked]⟩

private theorem handOver_owned (hd : DriverList s.cam.queuedList xs) (hnd : ws.Nodup)
    (hw : ∀ b ∈ ws, b ∉ xs) :
    ∃ t, ws.foldlM enqueueInDriver s = some t ∧ DriverList t.cam.queuedList (xs ++ ws) ∧
      t.relinked = s.relinked := by
  induction ws generalizing s xs with
  | nil => exact ⟨s, rfl, by simpa using hd, rfl⟩
  | cons b ws ih =>
    obtain ⟨hbw, hnd⟩ := List.nodup_cons.mp hnd
    obtain ⟨y, hy, hdy, hry⟩ := enqueue_owned hd (hw b (by simp))
    have hw' : ∀ c ∈ ws, c ∉ xs ++ [b] := by
      intro c hc hm
      rcases List.mem_append.mp hm with hm | hm
      · exact hw c (by simp [hc]) hm
      · exact hbw (List.mem_singleton.mp hm ▸ hc)
    obtain ⟨t, ht, hdt, hrt⟩ := ih hdy hnd hw'
    refine ⟨t, ?_, by simpa using hdt, hrt.trans hry⟩
    simp [hy, ht]

private theorem owned_qbuf (h : Sound s xs) (hd : DriverList s.cam.queuedList xs)
    (hr : s.relinked = []) (b : Fin n) : ∃ t, qbuf b s = some t ∧ Owned t := by
  rw [qbuf]
  split
  · exact ⟨s, rfl, xs, h.order, hd, hr⟩
  · next hfree =>
    simp only [not_or, not_not] at hfree
    let q : Capture n := { s with cam := { s.cam with queue := queueBuffer s.cam.queue b } }
    have hstate : ∀ c, q.state c = if c = b then .queued else s.state c :=
      state_queueBuffer s.cam.queue b
    have horder : ActiveInOrder q xs := by
      refine ⟨fun c => ?_, h.order.sorted⟩
      rw [h.order.mem_iff, hstate]
      by_cases hc : c = b <;> simp_all
    have hb : b ∉ xs := fun hm => by simpa [hstate] using (horder.mem_iff b).mp hm
    change ∃ t, (if s.phase = .started then enqueueInDriver q b else some q) = some t ∧ Owned t
    split
    · obtain ⟨t, ht, hdt, hrt⟩ := enqueue_owned (s := q) hd hb
      have hact := (handedOver_enqueue ht).activeInOrder horder h.received_lt (by simp [hstate])
      exact ⟨t, ht, xs ++ [b], hact.1, hdt, hrt.trans hr⟩
    · exact ⟨q, rfl, xs, horder, hd, hr⟩

private theorem owned_streamon (h : Sound s xs) (hd : DriverList s.cam.queuedList xs)
    (hr : s.relinked = []) : ∃ t, streamon s = some t ∧ Owned t := by
  rw [streamon]
  split
  · next hp =>
    obtain ⟨rfl, -, hqueued⟩ := h.stopped_lists hp
    obtain ⟨z, hz, hdz, hrz⟩ := handOver_owned hd h.nodup (by simp)
    have hw : ∀ b ∈ s.cam.queue.queuedList, s.state b ≠ .active := fun b hb => by
      simp [(hqueued b).mp hb]
    have hact := ((handedOver_fold hz h.nodup).activeInOrder h.order h.received_lt hw).1
    rw [hz]
    exact ⟨_, rfl, _, ⟨hact.mem_iff, hact.sorted⟩, hdz, hrz.trans hr⟩
  · exact ⟨s, rfl, xs, h.order, hd, hr⟩

private theorem owned_streamoff (h : Sound s xs) (hd : DriverList s.cam.queuedList xs)
    (hr : s.relinked = []) : ∃ t, streamoff s = some t ∧ Owned t := by
  rw [streamoff]
  split
  · exact ⟨s, rfl, xs, h.order, hd, hr⟩
  · next hp =>
    obtain ⟨rfl, -⟩ := h.stopped_lists hp
    exact ⟨_, rfl, [], ⟨by simp, by simp⟩, hd, hr⟩
  · obtain ⟨l, hl, hdl⟩ := stopStreaming_spec hd
    rw [hl]
    exact ⟨_, rfl, [], ⟨by simp, by simp⟩, hdl, hr⟩

/-- Where the list is right no callback faults, and every step but the interrupt keeps it. -/
theorem owned_step (h : Sound s xs) (ho : Owned s) {a : Action n} (ha : ∀ d, a ≠ .interrupt d) :
    ∃ t, step s a = some t ∧ Owned t := by
  obtain ⟨ys, hys, hd, hr⟩ := ho
  obtain rfl := activeInOrder_unique hys h.order
  cases a with
  | qbuf b => exact owned_qbuf h hd hr b
  | dqbuf =>
    refine ⟨dqbuf s, rfl, ?_⟩
    have hs := sound_dqbuf h
    refine ⟨ys, hs.order, ?_⟩
    rw [dqbuf]
    split
    · split <;> exact ⟨hd, hr⟩
    · exact ⟨hd, hr⟩
  | streamon => exact owned_streamon h hd hr
  | startReset =>
    refine ⟨startReset s, rfl, ?_⟩
    rw [startReset]
    split <;> exact ⟨ys, ⟨h.order.mem_iff, h.order.sorted⟩, hd, hr⟩
  | streamoff => exact owned_streamoff h hd hr
  | interrupt d => exact absurd rfl (ha d)

/-- The handler keeps the list right exactly when it completes no buffer: the completed
one is no longer ACTIVE and still linked. -/
theorem owned_interrupt_iff (h : Sound s xs) (ho : Owned s) (d : ℕ) :
    Owned (interrupt d s) ↔ completes s.cam = none := by
  obtain ⟨ys, hys, hd, hr⟩ := ho
  obtain rfl := activeInOrder_unique hys h.order
  rcases cameraIrqHandler_cases (s.clock + d) s.cam with ⟨-, hc, hi⟩ |
      ⟨b, rest, hs, hq, hb, hc, hi⟩ | ⟨b, rest, hs, hq, hb, hc, hi⟩
  · refine iff_of_true ⟨ys, ⟨?_, hys.sorted⟩, ?_, hr⟩ hc
    · simpa [interrupt, hi] using hys.mem_iff
    · simpa [interrupt, hi] using hd
  · simp only [hc, reduceCtorEq, iff_false]
    rintro ⟨zs, hzs, hdz, -⟩
    have hsame : (interrupt d s).cam.queuedList = s.cam.queuedList := by
      simp [interrupt, hi, advanceFrameCount, completeBuffer, stampBuffer]
    obtain rfl := hd.unique (hsame ▸ hdz)
    have hb' : (interrupt d s).state b = .active :=
      (hzs.mem_iff b).mp ((hys.mem_iff b).mpr hb)
    have hdone : (interrupt d s).state b = .done := by
      simp only [interrupt, hi, Capture.state, advanceFrameCount, completeBuffer, stampBuffer]
      rw [vb2BufferDone_done (by simpa using hb)]
      exact (state_setState _ b b .done).trans (by simp)
    simp [hdone] at hb'
  · refine iff_of_true ⟨ys, ⟨?_, hys.sorted⟩, ?_, hr⟩ hc
    · intro c
      simpa [interrupt, hi, advanceFrameCount, stampBuffer] using hys.mem_iff c
    · simpa [interrupt, hi, advanceFrameCount, stampBuffer] using hd

theorem owned_initial (n : ℕ) : Owned (Capture.initial n) :=
  ⟨[], (sound_initial n).order, driverList_fresh n, rfl⟩

private theorem owned_exact (hs : ∃ xs, Sound s xs) (ho : Owned s) {a : Action n}
    (ht : Steps step s a t) : Owned t ↔ noCompletion s a := by
  obtain ⟨xs, hx⟩ := hs
  by_cases ha : ∃ d, a = .interrupt d
  · obtain ⟨d, rfl⟩ := ha
    cases ht
    exact owned_interrupt_iff hx ho d
  · obtain ⟨y, hy, hoy⟩ := owned_step hx ho (fun d e => ha ⟨d, e⟩)
    have he : y = t := Option.some.inj (hy.symm.trans ht)
    refine iff_of_true (he ▸ hoy) ?_
    cases a with
    | interrupt d => exact absurd ⟨d, rfl⟩ ha
    | _ => trivial

/-- A run keeps the list right in every state it reaches exactly when none of its
interrupts completes a buffer, and then no callback of it faults. -/
theorem owned_run_iff (n : ℕ) (as : List (Action n)) (s : Capture n) :
    (Run (Reaching Owned (Steps step)) (Capture.initial n) as s ↔
      Run (Within noCompletion (Steps step)) (Capture.initial n) as s) ∧
    (Run (Within noCompletion (Steps step)) (Capture.initial n) as s →
      Owned s ∧ ∀ a, ∃ t, step s a = some t) := by
  have exact : Run (Reaching Owned (Steps step)) (Capture.initial n) as s ↔
      Run (Within noCompletion (Steps step)) (Capture.initial n) as s :=
    reaching_iff_within (fun s => ∃ xs, Sound s xs) ⟨[], sound_initial n⟩
      (owned_initial n) (fun _ _ _ hs ht => sound_step hs ht)
      (fun _ _ _ hs ho ht => owned_exact hs ho ht)
  refine ⟨exact, fun h => ?_⟩
  obtain ⟨xs, hx⟩ := sound_reachable ⟨as, h.of_within⟩
  have ho : Owned s := by
    cases exact.mpr h with
    | refl => exact owned_initial n
    | snoc _ last => exact last.2
  refine ⟨ho, fun a => ?_⟩
  by_cases ha : ∃ d, a = .interrupt d
  · obtain ⟨d, rfl⟩ := ha
    exact ⟨interrupt d s, rfl⟩
  · obtain ⟨t, ht, -⟩ := owned_step hx ho (fun d e => ha ⟨d, e⟩)
    exact ⟨t, ht⟩

/-- One buffer that is queued, completed by an interrupt, dequeued and queued again is
linked a second time. -/
theorem requeue_relinks : ¬ ∀ (n : ℕ) (s : Capture n),
    Reachable (Steps step) (Capture.initial n) s → Owned s := by
  intro hall
  let as : List (Action 1) := [.qbuf 0, .streamon, .startReset, .interrupt 1, .dqbuf, .qbuf 0]
  have run : (follow step (Capture.initial 1) as).map (·.relinked) = some [0] := by decide
  obtain ⟨s, hs, hr⟩ := Option.map_eq_some_iff.mp run
  obtain ⟨_, -, -, h⟩ := hall 1 s ⟨as, run_steps_iff.mpr hs⟩
  simp [h] at hr

end CameraDrivers.BufferOwnership
