import CameraDrivers.CaptureRuns
import CameraDrivers.FormatIoctls

/-!
# The payload of delivered frames

REQBUFS and S_FMT around the runs of the driver. vb2 queues a capture buffer with payload 0,
and no callback of the driver sets it. The buffers of an allocation are some of the `n`
structures that a run uses.
-/
namespace CameraDrivers.FramePayload
open LinkedListHeap CameraState CameraCallbacks CaptureRuns TransitionRuns
open FormatIoctls (V4l2Format cameraWidth cameraHeight bytesPerPixel)

/-- `CAMERA_WIDTH * CAMERA_HEIGHT * BYTES_PER_PIXEL`. -/
def imageSize : BitVec 32 := cameraWidth * cameraHeight * bytesPerPixel

/-- `queue_setup` with the values it returns through its pointers. -/
def queueSetup (numPlanes : BitVec 32) (sizes : ℕ → BitVec 32) :
    ℤ × BitVec 32 × (ℕ → BitVec 32) :=
  if numPlanes ≠ 0 then (if sizes 0 < imageSize then -FormatIoctls.einval else 0, numPlanes, sizes)
  else (0, 1, Function.update sizes 0 imageSize)

/-- The buffers of the last REQBUFS, with the planes that `queue_setup` accepted for them. -/
structure Camera (n : ℕ) where
  capture : Capture n
  buffers : List (Fin n)
  numPlanes : BitVec 32
  planeSize : BitVec 32
  currentFmt : V4l2Format

inductive Action (n : ℕ)
  | reqbufs (buffers : List (Fin n))
  | sFmt (f : V4l2Format)
  | capture (a : CaptureRuns.Action n)

variable {n : ℕ}

def Camera.initial (n : ℕ) (currentFmt : V4l2Format) : Camera n :=
  ⟨.initial n, [], 0, 0, currentFmt⟩

/-- A new `struct camera_buffer` is zeroed. -/
def allocate (b : Fin n) (cam : CameraDev n) : CameraDev n where
  queue := { cam.queue with
    buf := Function.update cam.queue.buf b ⟨.dequeued, 0, 0, .any, 0⟩ }
  streaming := cam.streaming
  frameCount := cam.frameCount
  queuedList :=
    ⟨Function.update cam.queuedList.next (.node b) .null,
      Function.update cam.queuedList.prev (.node b) .null⟩

/-- While the queue streams, REQBUFS is refused. -/
def reqbufs (buffers : List (Fin n)) (s : Camera n) : Camera n :=
  if s.capture.phase = .stopped then
    let setup := queueSetup 0 (fun _ => 0)
    let cam := { s.capture.cam with queue := cancelQueue s.capture.cam.queue }
    { s with
      capture := { s.capture with cam := buffers.foldr allocate cam }
      buffers := buffers
      numPlanes := setup.2.1
      planeSize := setup.2.2 0 }
  else s

/-- A buffer that was not allocated cannot be queued. -/
def step (s : Camera n) : Action n → Option (Camera n)
  | .reqbufs buffers => some (reqbufs buffers s)
  | .sFmt f => some { s with currentFmt := (FormatIoctls.sFmt s.currentFmt f).2.2 }
  | .capture (.qbuf b) =>
    if b ∈ s.buffers then (qbuf b s.capture).map (fun t => { s with capture := t }) else some s
  | .capture a => (CaptureRuns.step s.capture a).map (fun t => { s with capture := t })

/-- The buffer that the next DQBUF hands to user space. -/
def dequeued (s : Capture n) : Option Vb2V4l2Buffer :=
  if s.phase = .started then s.cam.queue.doneList.head?.map s.cam.queue.buf else none

/-- One plane, with a payload of the size that the format ioctls report and the plane has. -/
structure Full (s : Camera n) (v : Vb2V4l2Buffer) : Prop where
  plane : s.numPlanes = 1
  got : ∀ f, v.payload = (FormatIoctls.gFmt f).2.pix.sizeimage.toNat
  tried : ∀ f, (FormatIoctls.tryFmt f).1 = 0 →
    v.payload = (FormatIoctls.tryFmt f).2.pix.sizeimage.toNat
  set : ∀ currentFmt f, (FormatIoctls.sFmt currentFmt f).1 = 0 →
    v.payload = (FormatIoctls.sFmt currentFmt f).2.1.pix.sizeimage.toNat
  fits : v.payload ≤ s.planeSize.toNat

def delivers (s : Camera n) : Action n → Prop
  | .capture .dqbuf => ∀ v ∈ dequeued s.capture, v.state = .done → Full s v
  | _ => True

/-- No DQBUF finds a completed frame. -/
def undelivered (s : Camera n) : Action n → Prop
  | .capture .dqbuf => ∀ v ∈ dequeued s.capture, v.state ≠ .done
  | _ => True

def Empty (s : Capture n) : Prop := ∀ b, (s.cam.queue.buf b).payload = 0

variable {s t : Capture n} {b c : Fin n} {q : Vb2Queue n}

/-- An update of a buffer that keeps its payload. -/
theorem update_payload {buf : Fin n → Vb2V4l2Buffer} {v : Vb2V4l2Buffer}
    (hv : v.payload = (buf b).payload) (c : Fin n) :
    (Function.update buf b v c).payload = (buf c).payload := by
  by_cases h : c = b
  · subst h
    rw [Function.update_self, hv]
  · rw [Function.update_of_ne h]

@[simp] theorem setState_payload (q : Vb2Queue n) (b c : Fin n) (st : Vb2BufferState) :
    ((q.setState b st).buf c).payload = (q.buf c).payload := by
  apply update_payload
  rfl

@[simp] theorem stamp_payload (q : Vb2Queue n) (b c : Fin n) (now : ℕ) (i : BitVec 32) :
    ((q.stamp b now i).buf c).payload = (q.buf c).payload := by
  apply update_payload
  rfl

/-- `vb2_buffer_done` leaves the payload alone. -/
@[simp] theorem vb2BufferDone_payload (q : Vb2Queue n) (b c : Fin n) (st : Vb2BufferState) :
    ((vb2BufferDone q b st).buf c).payload = (q.buf c).payload := by
  rw [vb2BufferDone]
  split
  · cases st <;> exact setState_payload q b c _
  · rfl

theorem empty_enqueueInDriver (h : Empty s) (hs : enqueueInDriver s b = some t) : Empty t := by
  intro c
  rw [(handedOver_enqueue hs).buf c]
  split <;> exact h c

theorem empty_handOver {ws : List (Fin n)} (h : Empty s)
    (hs : ws.foldlM enqueueInDriver s = some t) : Empty t := by
  induction ws generalizing s with
  | nil =>
    cases hs
    exact h
  | cons b ws ih =>
    simp only [List.foldlM_cons, Option.bind_eq_bind, Option.bind_eq_some_iff] at hs
    obtain ⟨y, hy, ht⟩ := hs
    exact ih (empty_enqueueInDriver h hy) ht

theorem empty_qbuf (h : Empty s) (hs : qbuf b s = some t) : Empty t := by
  have hq : ∀ c, ((queueBuffer s.cam.queue b).buf c).payload = 0 :=
    fun c => (update_payload (h b).symm c).trans (h c)
  rw [qbuf] at hs
  split at hs
  · cases hs
    exact h
  · dsimp only at hs
    split at hs
    · exact empty_enqueueInDriver (s := { s with cam :=
        { s.cam with queue := queueBuffer s.cam.queue b } }) hq hs
    · cases hs
      exact hq

theorem empty_dqbuf (h : Empty s) : Empty (dqbuf s) := by
  intro c
  rw [dqbuf]
  split
  · split
    · exact h c
    · exact (setState_payload _ _ _ _).trans (h c)
  · exact h c

theorem empty_streamon (h : Empty s) (hs : streamon s = some t) : Empty t := by
  rw [streamon] at hs
  split at hs
  · obtain ⟨y, hy, rfl⟩ := Option.map_eq_some_iff.mp hs
    have hempty : Empty y := empty_handOver h hy
    exact hempty
  · cases hs
    exact h

theorem empty_startReset (h : Empty s) : Empty (startReset s) := by
  rw [startReset]
  split <;> exact h

theorem empty_stopStreaming {cam cam' : CameraDev n} (h : ∀ b, (cam.queue.buf b).payload = 0)
    (hs : stopStreaming cam = some cam') : ∀ b, (cam'.queue.buf b).payload = 0 := by
  apply listForEachEntrySafe_preserves
    (fun cam : CameraDev n => ∀ b, (cam.queue.buf b).payload = 0) ?_ hs h
  intro cell cam cam' hbody hcam
  cases cell with
  | head => cases hbody
  | node b =>
    obtain ⟨l, -, rfl⟩ := Option.map_eq_some_iff.mp hbody
    intro c
    exact (vb2BufferDone_payload _ _ _ _).trans (hcam c)

theorem empty_streamoff (h : Empty s) (hs : streamoff s = some t) : Empty t := by
  rw [streamoff] at hs
  split at hs
  · cases hs
    exact h
  · cases hs
    exact h
  · obtain ⟨cam, hcam, rfl⟩ := Option.map_eq_some_iff.mp hs
    have hempty : ∀ b, (cam.queue.buf b).payload = 0 := empty_stopStreaming h hcam
    exact hempty

theorem empty_interrupt (h : Empty s) (elapsed : ℕ) : Empty (interrupt elapsed s) := by
  have hcases := cameraIrqHandler_cases (s.clock + elapsed) s.cam
  intro c
  rcases hcases with ⟨-, -, hsame⟩ | ⟨b, rest, -, -, -, -, hdone⟩ | ⟨b, rest, -, -, -, -, hdone⟩
  · simp only [interrupt, hsame]
    exact h c
  · simp only [interrupt, hdone, advanceFrameCount, completeBuffer, stampBuffer,
      vb2BufferDone_payload, stamp_payload]
    exact h c
  · simp only [interrupt, hdone, advanceFrameCount, stampBuffer, stamp_payload]
    exact h c

theorem empty_step (h : Empty s) {a : CaptureRuns.Action n} (hs : CaptureRuns.step s a = some t) :
    Empty t := by
  cases a with
  | qbuf b => exact empty_qbuf h hs
  | dqbuf =>
    cases hs
    exact empty_dqbuf h
  | streamon => exact empty_streamon h hs
  | startReset =>
    cases hs
    exact empty_startReset h
  | streamoff => exact empty_streamoff h hs
  | interrupt elapsed =>
    cases hs
    exact empty_interrupt h elapsed

theorem empty_allocate {buffers : List (Fin n)} {cam : CameraDev n}
    (h : ∀ b, (cam.queue.buf b).payload = 0) :
    ∀ b, ((buffers.foldr allocate cam).queue.buf b).payload = 0 := by
  induction buffers with
  | nil => exact h
  | cons b buffers ih =>
    intro c
    exact (update_payload (ih b).symm c).trans (ih c)

theorem empty_reqbufs {s : Camera n} (h : Empty s.capture) (buffers : List (Fin n)) :
    Empty (reqbufs buffers s).capture := by
  rw [reqbufs]
  split
  · have hcancelled : ∀ b, ((cancelQueue s.capture.cam.queue).buf b).payload = 0 := h
    exact empty_allocate hcancelled
  · exact h

/-- No step of a run gives a buffer a payload. -/
theorem empty_camera {s t : Camera n} {a : Action n} (h : Empty s.capture)
    (hs : step s a = some t) : Empty t.capture := by
  have hcapture : ∀ a, (CaptureRuns.step s.capture a).map
      (fun t => { s with capture := t }) = some t → Empty t.capture := by
    intro a hmap
    obtain ⟨y, hy, rfl⟩ := Option.map_eq_some_iff.mp hmap
    exact empty_step h hy
  cases a with
  | reqbufs buffers =>
    cases hs
    exact empty_reqbufs h buffers
  | sFmt f =>
    cases hs
    exact h
  | capture a =>
    cases a with
    | qbuf b =>
      rw [step] at hs
      split at hs
      · exact hcapture (.qbuf b) hs
      · cases hs
        exact h
    | dqbuf => exact hcapture .dqbuf hs
    | streamon => exact hcapture .streamon hs
    | startReset => exact hcapture .startReset hs
    | streamoff => exact hcapture .streamoff hs
    | interrupt elapsed => exact hcapture (.interrupt elapsed) hs

theorem dequeued_empty {v : Vb2V4l2Buffer} (h : Empty s) (hv : v ∈ dequeued s) :
    v.payload = 0 := by
  rw [dequeued] at hv
  split at hv
  · obtain ⟨b, -, rfl⟩ := Option.map_eq_some_iff.mp hv
    exact h b
  · cases hv

theorem not_full {s : Camera n} {v : Vb2V4l2Buffer} (h : v.payload = 0) : ¬ Full s v := by
  intro hfull
  have hgot := hfull.got ⟨0, ⟨0, 0, 0, 0, 0, 0, 0, 0, 0, 0, 0, 0⟩, 0⟩
  rw [h] at hgot
  revert hgot
  decide

theorem delivers_iff {s : Camera n} (h : Empty s.capture) (a : Action n) :
    delivers s a ↔ undelivered s a := by
  cases a with
  | reqbufs buffers => exact iff_of_true trivial trivial
  | sFmt f => exact iff_of_true trivial trivial
  | capture a =>
    cases a with
    | dqbuf =>
      refine forall₂_congr (fun v hv => ?_)
      have hpayload := not_full (s := s) (dequeued_empty h hv)
      exact imp_congr_right (fun _ => iff_false_intro hpayload)
    | qbuf b => exact iff_of_true trivial trivial
    | streamon => exact iff_of_true trivial trivial
    | startReset => exact iff_of_true trivial trivial
    | streamoff => exact iff_of_true trivial trivial
    | interrupt elapsed => exact iff_of_true trivial trivial

/-- `queue_setup` looks at the size of the first plane only. -/
theorem queueSetup_accepts {numPlanes : BitVec 32} (h : numPlanes ≠ 0) (sizes : ℕ → BitVec 32) :
    (queueSetup numPlanes sizes).1 = 0 ↔ imageSize ≤ sizes 0 := by
  rw [queueSetup, if_pos h]
  split
  · next hless =>
    have hnot : ¬ imageSize ≤ sizes 0 := by
      rw [BitVec.not_le]
      exact hless
    exact iff_of_false (show -FormatIoctls.einval ≠ 0 by decide) hnot
  · next hnot => exact iff_of_true rfl (BitVec.not_lt.mp hnot)

/-- The frames are empty: a run delivers full frames exactly when it delivers none, and a
request that `queue_setup` accepts is right exactly when it asks for one plane. -/
theorem payload_run_iff (n : ℕ) (currentFmt : V4l2Format) (as : List (Action n))
    (s : Camera n) :
    (Run (Within delivers (Steps step)) (.initial n currentFmt) as s ↔
      Run (Within undelivered (Steps step)) (.initial n currentFmt) as s) ∧
    ∀ numPlanes sizes, numPlanes ≠ 0 →
      (((queueSetup numPlanes sizes).1 = 0 → numPlanes = 1 ∧ imageSize ≤ sizes 0) ↔
        numPlanes = 1 ∨ sizes 0 < imageSize) := by
  constructor
  · apply run_within_iff (fun s => Empty s.capture)
    · exact fun _ => rfl
    · exact fun _ _ _ h _ hs => empty_camera h hs
    · exact fun _ a _ h _ => delivers_iff h a
  · intro numPlanes sizes hne
    rw [queueSetup_accepts hne, ← BitVec.not_le]
    constructor
    · intro himp
      by_cases hle : imageSize ≤ sizes 0
      · exact .inl (himp hle).1
      · exact .inr hle
    · intro hor hle
      exact ⟨hor.resolve_right (not_not_intro hle), hle⟩

theorem frame_arrives_empty : ¬ ∀ (n : ℕ) (currentFmt : V4l2Format) (as : List (Action n))
    (s : Camera n), Run (Steps step) (.initial n currentFmt) as s →
      Run (Within delivers (Steps step)) (.initial n currentFmt) as s := by
  intro hall
  let session : List (Action 1) := [.reqbufs [0], .capture (.qbuf 0), .capture .streamon,
    .capture .startReset, .capture (.interrupt 1)]
  have run : (follow step (Camera.initial 1 FormatIoctls.sampleFormat) session).map
      (fun s => (dequeued s.capture).map (fun v => (v.state, v.payload))) =
      some (some (.done, 0)) := by decide
  obtain ⟨s, hs, hframe⟩ := Option.map_eq_some_iff.mp run
  obtain ⟨v, hv, hdone⟩ := Option.map_eq_some_iff.mp hframe
  obtain ⟨hstate, hpayload⟩ := Prod.mk.inj hdone
  have hdqbuf : Steps step s (.capture .dqbuf) { s with capture := dqbuf s.capture } := rfl
  have hrun := hall 1 _ (session ++ [.capture .dqbuf]) _ (.snoc (run_steps_iff.mpr hs) hdqbuf)
  obtain ⟨t, hbefore, hlast⟩ := run_snoc_iff.mp hrun
  have ht := run_steps_iff.mp hbefore.of_within
  rw [hs] at ht
  cases ht
  exact not_full hpayload (hlast.1 v hv hstate)

end CameraDrivers.FramePayload
