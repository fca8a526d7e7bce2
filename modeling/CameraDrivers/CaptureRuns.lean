import CameraDrivers.CameraCallbacks
import CameraDrivers.TransitionRuns

/-!
# Runs of the rpi_camera driver under vb2

The ioctls of user space, carried out by vb2 under the queue mutex, and frame
interrupts. STREAMON hands every queued buffer over and enters `start_streaming`; an
interrupt can be delivered between its two statements, the ioctls cannot, they wait
for the mutex. An ioctl that vb2 refuses, or that waits, leaves the state as it is. A
step is `none` only when the driver follows a pointer that is not a list cell, or when
the loop of `stop_streaming` never ends. The steps are whole calls: taking the spinlocks
is set aside, and with it the wait of a handler for the `done_lock` it holds.
-/
namespace CameraDrivers.CaptureRuns
open LinkedListHeap CameraState CameraCallbacks TransitionRuns

inductive Phase | stopped | starting | started deriving DecidableEq

inductive Action (n : ℕ)
  | qbuf (b : Fin n) | dqbuf | streamon | startReset | streamoff
  | interrupt (elapsed : ℕ)
  deriving DecidableEq

/-- The device and, from `calls` on, the history of the run: how many calls of `buf_queue`
there were, the serial number of the latest one for each buffer, the calls that found the
buffer linked, and what this session completed and delivered. No step reads the history. -/
structure Capture (n : ℕ) where
  cam : CameraDev n
  phase : Phase
  clock : ℕ
  calls : ℕ
  received : Fin n → ℕ
  relinked : List (Fin n)
  completed : List (Fin n)
  delivered : List Vb2V4l2Buffer

variable {n : ℕ}

def Capture.initial (n : ℕ) : Capture n := ⟨.fresh n, .stopped, 0, 0, fun _ => 0, [], [], []⟩

@[simp] abbrev Capture.state (s : Capture n) (b : Fin n) : Vb2BufferState := s.cam.queue.state b

def Capture.linked (s : Capture n) (b : Fin n) : Bool := (s.cam.queuedList.next (.node b)).isCell

/-- vb2 gives a queued buffer to the driver: it is ACTIVE and `buf_queue` is called. -/
def enqueueInDriver (s : Capture n) (b : Fin n) : Option (Capture n) :=
  (bufQueue b { s.cam with queue := s.cam.queue.setState b .active }).map (fun cam =>
    { s with
      cam := cam
      calls := s.calls + 1
      received := Function.update s.received b s.calls
      relinked := if s.linked b then s.relinked ++ [b] else s.relinked })

/-- A capture buffer is queued with payload 0, at the end of vb2's own list. -/
def queueBuffer (q : Vb2Queue n) (b : Fin n) : Vb2Queue n where
  buf := Function.update q.buf b { q.buf b with state := .queued, payload := 0 }
  queuedList := q.queuedList ++ [b]
  doneList := q.doneList

@[simp] theorem state_queueBuffer (q : Vb2Queue n) (b c : Fin n) :
    (queueBuffer q b).state c = if c = b then .queued else q.state c := by
  by_cases h : c = b
  · subst h
    simp [Vb2Queue.state, queueBuffer]
  · simp [Vb2Queue.state, queueBuffer, h]

def qbuf (b : Fin n) (s : Capture n) : Option (Capture n) :=
  if s.phase = .starting ∨ s.state b ≠ .dequeued then some s
  else
    let queued := { s with cam := { s.cam with queue := queueBuffer s.cam.queue b } }
    if s.phase = .started then enqueueInDriver queued b else some queued

/-- The oldest entry of the done list goes back to user space and leaves both lists of vb2. -/
def dequeueBuffer (q : Vb2Queue n) (b : Fin n) (rest : List (Fin n)) : Vb2Queue n :=
  { q.setState b .dequeued with queuedList := q.queuedList.erase b, doneList := rest }

@[simp] theorem state_dequeueBuffer (q : Vb2Queue n) (b c : Fin n) (rest : List (Fin n)) :
    (dequeueBuffer q b rest).state c = if c = b then .dequeued else q.state c :=
  state_setState q b c .dequeued

def dqbuf (s : Capture n) : Capture n :=
  if s.phase = .started then
    match s.cam.queue.doneList with
    | [] => s
    | b :: rest => { s with
        cam := { s.cam with queue := dequeueBuffer s.cam.queue b rest }
        delivered := s.delivered ++ [s.cam.queue.buf b] }
  else s

def streamon (s : Capture n) : Option (Capture n) :=
  if s.phase = .stopped then
    (s.cam.queue.queuedList.foldlM enqueueInDriver s).map (fun s =>
      { s with cam := raiseStreaming s.cam, phase := .starting, completed := [], delivered := [] })
  else some s

/-- The second statement of `start_streaming`, and the return to user space. -/
def startReset (s : Capture n) : Capture n :=
  if s.phase = .starting then { s with cam := resetFrameCount s.cam, phase := .started } else s

/-- After `stop_streaming`, vb2 empties its lists and takes every buffer back. -/
def cancelQueue (q : Vb2Queue n) : Vb2Queue n where
  buf b := { q.buf b with state := .dequeued }
  queuedList := []
  doneList := []

@[simp] theorem state_cancelQueue (q : Vb2Queue n) (b : Fin n) :
    (cancelQueue q).state b = .dequeued := rfl

def streamoff (s : Capture n) : Option (Capture n) :=
  match s.phase with
  | .starting => some s
  | .stopped => some { s with cam := { s.cam with queue := cancelQueue s.cam.queue } }
  | .started => (stopStreaming s.cam).map (fun cam =>
      { s with cam := { cam with queue := cancelQueue cam.queue }, phase := .stopped })

def interrupt (elapsed : ℕ) (s : Capture n) : Capture n :=
  { s with
    cam := cameraIrqHandler (s.clock + elapsed) s.cam
    clock := s.clock + elapsed
    completed := s.completed ++ (completes s.cam).toList }

def step (s : Capture n) : Action n → Option (Capture n)
  | .qbuf b => qbuf b s
  | .dqbuf => some (dqbuf s)
  | .streamon => streamon s
  | .startReset => some (startReset s)
  | .streamoff => streamoff s
  | .interrupt elapsed => some (interrupt elapsed s)

/-- `xs` are the ACTIVE buffers, in the order in which `buf_queue` received them. -/
structure ActiveInOrder (s : Capture n) (xs : List (Fin n)) : Prop where
  mem_iff : ∀ b, b ∈ xs ↔ s.state b = .active
  sorted : xs.Pairwise (fun a b => s.received a < s.received b)

/-- What every run keeps of vb2's lists and states, whatever happens to the driver's list. -/
structure Sound (s : Capture n) (xs : List (Fin n)) : Prop where
  order : ActiveInOrder s xs
  received_lt : ∀ b ∈ xs, s.received b < s.calls
  nodup : s.cam.queue.queuedList.Nodup
  queued_iff : ∀ b, b ∈ s.cam.queue.queuedList ↔ s.state b ≠ .dequeued
  done_iff : ∀ b, b ∈ s.cam.queue.doneList ↔ s.state b = .done
  no_error : ∀ b, s.state b ≠ .error
  stopped : s.phase = .stopped → ∀ b, s.state b = .dequeued ∨ s.state b = .queued
  running : s.phase ≠ .stopped → s.cam.queue.queuedList = s.cam.queue.doneList ++ xs
  streaming_iff : s.cam.streaming = true ↔ s.phase ≠ .stopped

theorem ActiveInOrder.nodup {s : Capture n} {xs : List (Fin n)} (h : ActiveInOrder s xs) :
    xs.Nodup := by
  refine h.sorted.imp ?_
  rintro a b hab rfl
  exact lt_irrefl _ hab

theorem activeInOrder_unique {s : Capture n} {xs ys : List (Fin n)} (h : ActiveInOrder s xs)
    (h' : ActiveInOrder s ys) : xs = ys := by
  refine List.Perm.eq_of_pairwise
    (fun a b _ _ hab hba => absurd hab hba.asymm) h.sorted h'.sorted ?_
  exact (List.perm_ext_iff_of_nodup h.nodup h'.nodup).mpr
    (fun b => (h.mem_iff b).trans (h'.mem_iff b).symm)

/-- The effect of handing over the buffers `ws`, in this order. -/
structure HandedOver (s : Capture n) (ws : List (Fin n)) (t : Capture n) : Prop where
  buf : ∀ b, t.cam.queue.buf b =
    if b ∈ ws then { s.cam.queue.buf b with state := .active } else s.cam.queue.buf b
  queuedList : t.cam.queue.queuedList = s.cam.queue.queuedList
  doneList : t.cam.queue.doneList = s.cam.queue.doneList
  streaming : t.cam.streaming = s.cam.streaming
  frameCount : t.cam.frameCount = s.cam.frameCount
  phase : t.phase = s.phase
  clock : t.clock = s.clock
  completed : t.completed = s.completed
  delivered : t.delivered = s.delivered
  received_old : ∀ b ∉ ws, t.received b = s.received b
  received_new : ∀ b ∈ ws, s.calls ≤ t.received b ∧ t.received b < t.calls
  sorted : ws.Pairwise (fun a b => t.received a < t.received b)
  calls_le : s.calls ≤ t.calls

variable {s t z : Capture n} {b : Fin n} {ws xs : List (Fin n)}

theorem HandedOver.refl (s : Capture n) : HandedOver s [] s := by
  constructor <;> simp

theorem handedOver_enqueue (h : enqueueInDriver s b = some t) : HandedOver s [b] t := by
  obtain ⟨cam, hb, rfl⟩ := Option.map_eq_some_iff.mp h
  obtain ⟨l, rfl⟩ := bufQueue_some hb
  constructor <;> try simp
  · intro c
    by_cases hc : c = b
    · subst hc
      simp [Vb2Queue.setState]
    · simp [Vb2Queue.setState, hc]
  · intro c hc
    simp [hc]

theorem HandedOver.cons (h : HandedOver s [b] t) (h' : HandedOver t ws z) (hb : b ∉ ws) :
    HandedOver s (b :: ws) z where
  buf c := by
    rw [h'.buf, h.buf]
    by_cases hc : c = b
    · subst hc
      simp [hb]
    · simp [hc]
  queuedList := h'.queuedList.trans h.queuedList
  doneList := h'.doneList.trans h.doneList
  streaming := h'.streaming.trans h.streaming
  frameCount := h'.frameCount.trans h.frameCount
  phase := h'.phase.trans h.phase
  clock := h'.clock.trans h.clock
  completed := h'.completed.trans h.completed
  delivered := h'.delivered.trans h.delivered
  received_old c hc := by
    simp only [List.mem_cons, not_or] at hc
    rw [h'.received_old c hc.2, h.received_old c (by simpa using hc.1)]
  received_new c hc := by
    have hbn := h.received_new b (by simp)
    have hle := h'.calls_le
    rcases List.mem_cons.mp hc with rfl | hc
    · rw [h'.received_old c hb]
      omega
    · have hcn := h'.received_new c hc
      have := h.calls_le
      omega
  sorted := by
    refine List.pairwise_cons.mpr ⟨fun c hc => ?_, h'.sorted⟩
    have hbn := h.received_new b (by simp)
    have hcn := h'.received_new c hc
    rw [h'.received_old b hb]
    omega
  calls_le := h.calls_le.trans h'.calls_le

theorem handedOver_fold (h : ws.foldlM enqueueInDriver s = some t) (hnd : ws.Nodup) :
    HandedOver s ws t := by
  induction ws generalizing s with
  | nil =>
    cases h
    exact .refl _
  | cons b ws ih =>
    simp only [List.foldlM_cons, Option.bind_eq_bind, Option.bind_eq_some_iff] at h
    obtain ⟨y, hy, ht⟩ := h
    obtain ⟨hb, hnd⟩ := List.nodup_cons.mp hnd
    exact (handedOver_enqueue hy).cons (ih ht hnd) hb

theorem HandedOver.state (h : HandedOver s ws t) (b : Fin n) :
    t.state b = if b ∈ ws then .active else s.state b := by
  simp only [Capture.state, Vb2Queue.state, h.buf]
  split <;> rfl

/-- Buffers that were not ACTIVE line up behind the ones that were. -/
theorem HandedOver.activeInOrder (h : HandedOver s ws t) (ho : ActiveInOrder s xs)
    (hlt : ∀ b ∈ xs, s.received b < s.calls) (hw : ∀ b ∈ ws, s.state b ≠ .active) :
    ActiveInOrder t (xs ++ ws) ∧ ∀ b ∈ xs ++ ws, t.received b < t.calls := by
  have hold : ∀ b ∈ xs, t.received b = s.received b := fun b hb =>
    h.received_old b (fun hm => hw b hm ((ho.mem_iff b).mp hb))
  refine ⟨⟨fun b => ?_, ?_⟩, fun b hb => ?_⟩
  · rw [List.mem_append, ho.mem_iff, h.state]
    by_cases hb : b ∈ ws <;> simp [hb]
  · refine List.pairwise_append.mpr ⟨?_, h.sorted, fun a ha b hb => ?_⟩
    · exact ho.sorted.imp_of_mem (fun ha hb hab => by rwa [hold _ ha, hold _ hb])
    · have := hlt a ha
      have := (h.received_new b hb).1
      rw [hold a ha]
      omega
  · rcases List.mem_append.mp hb with hb | hb
    · have := hlt b hb
      have := h.calls_le
      rw [hold b hb]
      omega
    · exact (h.received_new b hb).2

/-- QBUF leaves the stamps, the clock, the counter and the record of the session alone. -/
structure QueueFrame (s t : Capture n) : Prop where
  timestamp : ∀ c, (t.cam.queue.buf c).timestamp = (s.cam.queue.buf c).timestamp
  sequence : ∀ c, (t.cam.queue.buf c).sequence = (s.cam.queue.buf c).sequence
  doneList : t.cam.queue.doneList = s.cam.queue.doneList
  frameCount : t.cam.frameCount = s.cam.frameCount
  phase : t.phase = s.phase
  clock : t.clock = s.clock
  completed : t.completed = s.completed
  delivered : t.delivered = s.delivered

theorem QueueFrame.trans (h : QueueFrame s t) (h' : QueueFrame t z) : QueueFrame s z where
  timestamp c := (h'.timestamp c).trans (h.timestamp c)
  sequence c := (h'.sequence c).trans (h.sequence c)
  doneList := h'.doneList.trans h.doneList
  frameCount := h'.frameCount.trans h.frameCount
  phase := h'.phase.trans h.phase
  clock := h'.clock.trans h.clock
  completed := h'.completed.trans h.completed
  delivered := h'.delivered.trans h.delivered

theorem HandedOver.frame (h : HandedOver s ws t) : QueueFrame s t where
  timestamp c := by
    rw [h.buf]
    split <;> rfl
  sequence c := by
    rw [h.buf]
    split <;> rfl
  doneList := h.doneList
  frameCount := h.frameCount
  phase := h.phase
  clock := h.clock
  completed := h.completed
  delivered := h.delivered

theorem queueFrame_qbuf (hs : qbuf b s = some t) : QueueFrame s t := by
  rw [qbuf] at hs
  split at hs
  · cases hs
    constructor <;> simp
  · let q : Capture n := { s with cam := { s.cam with queue := queueBuffer s.cam.queue b } }
    have hq : QueueFrame s q := by
      constructor <;> try rfl
      all_goals
        intro c
        by_cases hc : c = b
        · subst hc
          simp [q, queueBuffer]
        · simp [q, queueBuffer, hc]
    change (if s.phase = .started then enqueueInDriver q b else some q) = some t at hs
    split at hs
    · exact hq.trans (handedOver_enqueue hs).frame
    · exact Option.some.inj hs ▸ hq

/-- QBUF does not touch a buffer that is waiting for DQBUF. -/
theorem qbuf_kept (hs : qbuf b s = some t) {c : Fin n} (hc : s.state c = .done) :
    t.cam.queue.buf c = s.cam.queue.buf c := by
  rw [qbuf] at hs
  split at hs
  · cases hs
    rfl
  · next hfree =>
    simp only [not_or, not_not] at hfree
    have hne : c ≠ b := by
      rintro rfl
      simp [hfree.2] at hc
    let q : Capture n := { s with cam := { s.cam with queue := queueBuffer s.cam.queue b } }
    have hq : q.cam.queue.buf c = s.cam.queue.buf c := by simp [q, queueBuffer, hne]
    change (if s.phase = .started then enqueueInDriver q b else some q) = some t at hs
    split at hs
    · rw [(handedOver_enqueue hs).buf, if_neg (by simpa using hne), hq]
    · rw [← Option.some.inj hs, hq]

theorem sound_initial (n : ℕ) : Sound (Capture.initial n) [] := by
  constructor
  · constructor <;> simp [Capture.initial, CameraDev.fresh, Vb2Queue.fresh, Vb2Queue.state]
  all_goals simp [Capture.initial, CameraDev.fresh, Vb2Queue.fresh, Vb2Queue.state]

theorem Sound.done_nodup (h : Sound s xs) (hp : s.phase ≠ .stopped) :
    s.cam.queue.doneList.Nodup := (List.nodup_append.mp (h.running hp ▸ h.nodup)).1

/-- The head of vb2's list is ACTIVE exactly when no completed buffer waits for DQBUF, and
then it is the buffer handed over first. -/
theorem Sound.head (h : Sound s xs) (hp : s.phase ≠ .stopped) {rest : List (Fin n)}
    (hq : s.cam.queue.queuedList = b :: rest) :
    s.state b = .active ∧ s.cam.queue.doneList = [] ∧ xs = b :: rest ∨
      s.state b = .done ∧ ∃ ds, s.cam.queue.doneList = b :: ds := by
  have hr := h.running hp
  rw [hq] at hr
  cases hd : s.cam.queue.doneList with
  | nil =>
    rw [hd, List.nil_append] at hr
    refine .inl ⟨?_, rfl, hr.symm⟩
    exact (h.order.mem_iff b).mp (by simp [← hr])
  | cons d ds =>
    rw [hd, List.cons_append] at hr
    obtain ⟨rfl, -⟩ := List.cons.inj hr
    exact .inr ⟨(h.done_iff b).mp (by simp [hd]), ds, rfl⟩

/-- Stamps, counters and the record of the session are none of its business. -/
theorem Sound.congr (h : Sound s xs) (hstate : ∀ c, t.state c = s.state c)
    (hqueue : t.cam.queue.queuedList = s.cam.queue.queuedList)
    (hdone : t.cam.queue.doneList = s.cam.queue.doneList)
    (hstream : t.cam.streaming = s.cam.streaming) (hphase : t.phase = s.phase)
    (hreceived : t.received = s.received) (hcalls : t.calls = s.calls) : Sound t xs where
  order := ⟨fun c => by rw [hstate, h.order.mem_iff], by simpa [hreceived] using h.order.sorted⟩
  received_lt := by simpa [hreceived, hcalls] using h.received_lt
  nodup := hqueue ▸ h.nodup
  queued_iff c := by rw [hqueue, hstate, h.queued_iff]
  done_iff c := by rw [hdone, hstate, h.done_iff]
  no_error c := by
    rw [hstate]
    exact h.no_error c
  stopped hp c := by
    rw [hstate]
    exact h.stopped (hphase ▸ hp) c
  running hp := by rw [hqueue, hdone, h.running (hphase ▸ hp)]
  streaming_iff := by rw [hstream, hphase, h.streaming_iff]

/-- Queued, and not given to the driver: the buffer is on vb2's list only. -/
structure Enlisted (s : Capture n) (b : Fin n) (q : Capture n) : Prop where
  state : ∀ c, q.state c = if c = b then .queued else s.state c
  queuedList : q.cam.queue.queuedList = s.cam.queue.queuedList ++ [b]
  nodup : q.cam.queue.queuedList.Nodup
  mem_iff : ∀ c, c ∈ q.cam.queue.queuedList ↔ q.state c ≠ .dequeued

theorem Sound.enlisted (h : Sound s xs) (hb : s.state b = .dequeued) :
    Enlisted s b { s with cam := { s.cam with queue := queueBuffer s.cam.queue b } } ∧
      ActiveInOrder { s with cam := { s.cam with queue := queueBuffer s.cam.queue b } } xs := by
  have hstate := state_queueBuffer s.cam.queue b
  have hbq : b ∉ s.cam.queue.queuedList := fun hm => (h.queued_iff b).mp hm hb
  refine ⟨⟨hstate, rfl, ?_, fun c => ?_⟩, fun c => ?_, h.order.sorted⟩
  · refine List.nodup_append.mpr ⟨h.nodup, by simp, fun c hc d hd e => hbq ?_⟩
    rwa [← List.mem_singleton.mp hd, ← e]
  · refine List.mem_append.trans ?_
    rw [h.queued_iff, Capture.state, Capture.state, hstate]
    by_cases hc : c = b <;> simp [hc]
  · rw [h.order.mem_iff, Capture.state, Capture.state, hstate]
    by_cases hc : c = b <;> simp_all

/-- While vb2 runs it hands the queued buffer over at once, and it is last in line. -/
theorem sound_enqueued {q : Capture n} (h : Sound s xs) (hp : s.phase = .started)
    (he : Enlisted s b q) (horder : ActiveInOrder q xs) (hb : s.state b = .dequeued)
    (hlt : ∀ c ∈ xs, q.received c < q.calls) (hphase : q.phase = s.phase)
    (hdone : q.cam.queue.doneList = s.cam.queue.doneList)
    (hstream : q.cam.streaming = s.cam.streaming) (hs : enqueueInDriver q b = some t) :
    Sound t (xs ++ [b]) := by
  have ho := handedOver_enqueue hs
  have hact := ho.activeInOrder horder hlt (by simp [he.state])
  have hst : ∀ c, t.state c = if c = b then .active else s.state c := by
    intro c
    rw [ho.state, he.state]
    by_cases hc : c = b <;> simp [hc]
  refine ⟨hact.1, hact.2, ?_, ?_, ?_, ?_, ?_, ?_, ?_⟩
  · rw [ho.queuedList]
    exact he.nodup
  · intro c
    rw [ho.queuedList, hst, he.mem_iff, he.state]
    by_cases hc : c = b <;> simp [hc]
  · intro c
    rw [ho.doneList, hdone, hst, h.done_iff]
    by_cases hc : c = b <;> simp_all
  · intro c
    rw [hst]
    by_cases hc : c = b <;> simp [hc, h.no_error]
  · simp [ho.phase, hphase, hp]
  · intro _
    rw [ho.queuedList, ho.doneList, hdone, he.queuedList, h.running (by simp [hp]),
      List.append_assoc]
  · rw [ho.streaming, ho.phase, hphase, hstream]
    exact h.streaming_iff

/-- A queued buffer is last in line if vb2 hands it over at once. -/
theorem sound_qbuf (h : Sound s xs) (hs : qbuf b s = some t) : ∃ zs, Sound t (xs ++ zs) := by
  rw [qbuf] at hs
  split at hs
  · cases hs
    exact ⟨[], by simpa using h⟩
  · next hfree =>
    simp only [not_or, not_not] at hfree
    obtain ⟨hstart, hb⟩ := hfree
    obtain ⟨he, horder⟩ := h.enlisted hb
    split at hs
    · next hp =>
      exact ⟨[b], sound_enqueued h hp he horder hb h.received_lt rfl rfl rfl hs⟩
    · next hp =>
      cases hs
      have hstop : s.phase = .stopped := by
        cases hph : s.phase <;> simp_all
      rw [← List.append_nil xs] at horder
      refine ⟨[], horder, by simpa using h.received_lt, he.nodup, he.mem_iff, fun c => ?_,
        fun c => ?_, fun _ c => ?_, fun hne => absurd hstop hne, h.streaming_iff⟩
      · refine (h.done_iff c).trans ?_
        rw [he.state]
        by_cases hc : c = b <;> simp_all
      · rw [he.state]
        by_cases hc : c = b <;> simp [hc, h.no_error]
      · rw [he.state]
        by_cases hc : c = b
        · simp [hc]
        · simpa [hc] using h.stopped hstop c

theorem sound_dqbuf (h : Sound s xs) : Sound (dqbuf s) xs := by
  rw [dqbuf]
  split
  · next hp =>
    split
    · exact h
    · next b rest hd =>
      have hr := h.running (by simp [hp])
      have hnd := h.nodup
      rw [hr, hd] at hnd
      have hb : s.state b = .done := (h.done_iff b).mp (by simp [hd])
      have hbr : b ∉ rest ++ xs := (List.nodup_cons.mp hnd).1
      have hq : s.cam.queue.queuedList.erase b = rest ++ xs := by
        simp [hr, hd]
      have hstate : ∀ c, (dequeueBuffer s.cam.queue b rest).state c =
          if c = b then .dequeued else s.state c := by simp
      constructor
      · refine ⟨fun c => (h.order.mem_iff c).trans ?_, h.order.sorted⟩
        rw [Capture.state, Capture.state, hstate]
        by_cases hc : c = b <;> simp [hc, hb]
      · exact h.received_lt
      · exact h.nodup.erase b
      · intro c
        rw [Capture.state, hstate]
        change c ∈ s.cam.queue.queuedList.erase b ↔ _
        rw [h.nodup.mem_erase_iff, h.queued_iff]
        by_cases hc : c = b <;> simp [hc]
      · intro c
        have hold := h.done_iff c
        rw [Capture.state, hstate]
        rw [hd, List.mem_cons] at hold
        by_cases hc : c = b
        · have hbrest : b ∉ rest := fun hm => hbr (List.mem_append_left _ hm)
          simpa [hc, dequeueBuffer] using hbrest
        · simpa [hc, dequeueBuffer] using hold
      · intro c
        rw [Capture.state, hstate]
        by_cases hc : c = b <;> simp [hc, h.no_error c]
      · simp [hp]
      · exact fun _ => hq
      · exact h.streaming_iff
  · exact h

theorem streamon_some (hp : s.phase = .stopped) (hs : streamon s = some t) :
    ∃ z, s.cam.queue.queuedList.foldlM enqueueInDriver s = some z ∧ t = { z with
      cam := raiseStreaming z.cam, phase := .starting, completed := [], delivered := [] } := by
  rw [streamon, if_pos hp] at hs
  obtain ⟨z, hz, rfl⟩ := Option.map_eq_some_iff.mp hs
  exact ⟨z, hz, rfl⟩

theorem Sound.stopped_lists (h : Sound s xs) (hp : s.phase = .stopped) :
    xs = [] ∧ s.cam.queue.doneList = [] ∧
      ∀ b, b ∈ s.cam.queue.queuedList ↔ s.state b = .queued := by
  have hst := h.stopped hp
  refine ⟨?_, ?_, fun b => ?_⟩
  · refine List.eq_nil_iff_forall_not_mem.mpr (fun b hb => ?_)
    rcases hst b with hb' | hb' <;> simp [(h.order.mem_iff b).mp hb] at hb'
  · refine List.eq_nil_iff_forall_not_mem.mpr (fun b hb => ?_)
    rcases hst b with hb' | hb' <;> simp [(h.done_iff b).mp hb] at hb'
  · rw [h.queued_iff]
    rcases hst b with hb | hb <;> simp [hb]

private theorem sound_streamon (h : Sound s xs) (hs : streamon s = some t) : ∃ ys, Sound t ys := by
  by_cases hp : s.phase = .stopped
  · obtain ⟨z, hz, rfl⟩ := streamon_some hp hs
    obtain ⟨rfl, hdone, hqueued⟩ := h.stopped_lists hp
    have ho := handedOver_fold hz h.nodup
    have hw : ∀ b ∈ s.cam.queue.queuedList, s.state b ≠ .active := fun b hb => by
      simp [(hqueued b).mp hb]
    obtain ⟨horder, hlt⟩ := ho.activeInOrder h.order h.received_lt hw
    have hstate : ∀ b, z.state b = if b ∈ s.cam.queue.queuedList then .active else .dequeued := by
      intro b
      rw [ho.state]
      split
      · rfl
      · next hb =>
        rcases h.stopped hp b with hb' | hb'
        · exact hb'
        · exact absurd ((hqueued b).mpr hb') hb
    rw [List.nil_append] at horder hlt
    refine ⟨s.cam.queue.queuedList, ⟨horder.mem_iff, horder.sorted⟩, hlt, ?_, ?_, ?_, ?_, ?_, ?_,
      ?_⟩
    · exact ho.queuedList ▸ h.nodup
    · intro b
      change b ∈ z.cam.queue.queuedList ↔ z.state b ≠ .dequeued
      rw [ho.queuedList, hstate]
      split <;> simp_all
    · intro b
      change b ∈ z.cam.queue.doneList ↔ z.state b = .done
      rw [ho.doneList, hstate, hdone]
      split <;> simp
    · intro b
      change z.state b ≠ .error
      rw [hstate]
      split <;> simp
    · simp
    · intro _
      change z.cam.queue.queuedList = z.cam.queue.doneList ++ _
      rw [ho.queuedList, ho.doneList, hdone, List.nil_append]
    · simp [raiseStreaming]
  · rw [streamon, if_neg hp, Option.some.injEq] at hs
    exact ⟨xs, hs ▸ h⟩

theorem sound_startReset (h : Sound s xs) : Sound (startReset s) xs := by
  rw [startReset]
  split
  · next hp =>
    have hne : s.phase ≠ .stopped := by simp [hp]
    refine ⟨⟨h.order.mem_iff, h.order.sorted⟩, h.received_lt, h.nodup, h.queued_iff, h.done_iff,
      h.no_error, by simp, fun _ => h.running hne, ?_⟩
    simpa [resetFrameCount] using h.streaming_iff.mpr hne
  · exact h

/-- With every buffer back in user space nothing is left of the session. -/
theorem sound_cancelled {cam : CameraDev n} (hs : cam.streaming = false) :
    Sound { s with cam := { cam with queue := cancelQueue cam.queue }, phase := .stopped } [] := by
  constructor
  · constructor <;> simp
  all_goals simp [hs]
  all_goals simp [cancelQueue]

private theorem sound_streamoff (h : Sound s xs) (hs : streamoff s = some t) :
    ∃ ys, Sound t ys := by
  rw [streamoff] at hs
  split at hs
  · cases hs
    exact ⟨xs, h⟩
  · next hp =>
    cases hs
    have hf : s.cam.streaming = false := by
      have := h.streaming_iff
      simp_all
    have hc := sound_cancelled (s := s) hf
    rw [← hp] at hc
    exact ⟨[], hc⟩
  · obtain ⟨cam, hcam, rfl⟩ := Option.map_eq_some_iff.mp hs
    exact ⟨[], sound_cancelled (stopStreaming_some hcam).streaming⟩

/-- The oldest buffer is completed: it is DONE, and alone on the done list. -/
theorem Sound.completed {rest : List (Fin n)} (h : Sound s (b :: rest)) (hp : s.phase ≠ .stopped)
    (hdone : s.cam.queue.doneList = []) (hb : s.state b = .active)
    (hstate : ∀ c, t.state c = if c = b then .done else s.state c)
    (hqueue : t.cam.queue.queuedList = s.cam.queue.queuedList)
    (hlist : t.cam.queue.doneList = [b]) (hstream : t.cam.streaming = s.cam.streaming)
    (hphase : t.phase = s.phase) (hreceived : t.received = s.received)
    (hcalls : t.calls = s.calls) : Sound t rest := by
  have hq : s.cam.queue.queuedList = b :: rest := by rw [h.running hp, hdone, List.nil_append]
  have hnd := h.nodup
  rw [hq] at hnd
  have hbr := (List.nodup_cons.mp hnd).1
  refine ⟨⟨fun c => ?_, ?_⟩, fun c hc => ?_, hqueue ▸ h.nodup, fun c => ?_, fun c => ?_,
    fun c => ?_, fun hp' => absurd (hphase ▸ hp') hp, fun _ => ?_, ?_⟩
  · have hold := h.order.mem_iff c
    rw [List.mem_cons] at hold
    rw [hstate]
    by_cases hcb : c = b
    · simp [hcb, hbr]
    · simpa [hcb] using hold
  · simpa [hreceived] using (List.pairwise_cons.mp h.order.sorted).2
  · rw [hreceived, hcalls]
    exact h.received_lt c (by simp [hc])
  · rw [hqueue, hstate, h.queued_iff]
    by_cases hcb : c = b <;> simp [hcb, hb]
  · have hold := h.done_iff c
    rw [hdone] at hold
    rw [hlist, hstate]
    by_cases hcb : c = b
    · simp [hcb]
    · simpa [hcb] using hold
  · rw [hstate]
    by_cases hcb : c = b <;> simp [hcb, h.no_error]
  · rw [hqueue, hlist, hq]
    rfl
  · rw [hstream, hphase]
    exact h.streaming_iff

theorem interrupt_streaming (d : ℕ) (s : Capture n) :
    (interrupt d s).cam.streaming = s.cam.streaming := by
  rcases cameraIrqHandler_cases (s.clock + d) s.cam with ⟨-, -, hi⟩ | ⟨b, _, -, -, -, -, hi⟩ |
      ⟨b, _, -, -, -, -, hi⟩
  all_goals simp [interrupt, hi, advanceFrameCount, completeBuffer, stampBuffer]

theorem interrupt_doneList {s : Capture n} (hc : completes s.cam = none) (d : ℕ) :
    (interrupt d s).cam.queue.doneList = s.cam.queue.doneList := by
  rcases cameraIrqHandler_cases (s.clock + d) s.cam with ⟨-, -, hi⟩ | ⟨b, _, -, -, -, hb, -⟩ |
      ⟨b, _, -, -, -, -, hi⟩
  · simp [interrupt, hi]
  · rw [hc] at hb
    cases hb
  · simp [interrupt, hi, advanceFrameCount, stampBuffer]

/-- Either the handler completes nothing, or the done list is empty and it completes the
buffer that was handed over first. -/
theorem sound_interrupt (h : Sound s xs) (d : ℕ) :
    completes s.cam = none ∧ Sound (interrupt d s) xs ∨
      ∃ b rest, xs = b :: rest ∧ s.cam.queue.doneList = [] ∧ completes s.cam = some b ∧
        Sound (interrupt d s) rest := by
  rcases cameraIrqHandler_cases (s.clock + d) s.cam with ⟨-, hc, hi⟩ |
      ⟨b, rest, hs, hq, hb, hc, hi⟩ | ⟨b, rest, hs, hq, hb, hc, hi⟩
  · have hcam : (interrupt d s).cam = s.cam := hi
    exact .inl ⟨hc, h.congr (fun c => by rw [Capture.state, hcam]) (by rw [hcam]) (by rw [hcam])
      (by rw [hcam]) rfl rfl rfl⟩
  · have hp := h.streaming_iff.mp hs
    obtain ⟨-, hdone, rfl⟩ | ⟨hd, -⟩ := h.head hp hq
    · have hact : (s.cam.queue.stamp b (s.clock + d) s.cam.frameCount).state b = .active := by
        simpa using hb
      have hcam : (interrupt d s).cam.queue =
          { (s.cam.queue.stamp b (s.clock + d) s.cam.frameCount).setState b .done with
            doneList := [b] } := by
        simp [interrupt, hi, advanceFrameCount, completeBuffer, stampBuffer,
          vb2BufferDone_done hact, hdone]
      have hstate : ∀ c, (interrupt d s).state c = if c = b then .done else s.state c := by
        intro c
        rw [Capture.state, hcam]
        exact (state_setState _ b c .done).trans (by simp)
      exact .inr ⟨b, rest, rfl, hdone, hc, h.completed hp hdone hb hstate (by rw [hcam]; rfl)
        (by rw [hcam]) (interrupt_streaming d s) rfl rfl rfl⟩
    · simp [hd] at hb
  · have hcam : (interrupt d s).cam.queue = s.cam.queue.stamp b (s.clock + d) s.cam.frameCount := by
      simp [interrupt, hi, advanceFrameCount, stampBuffer]
    exact .inl ⟨hc, h.congr (fun c => by rw [Capture.state, hcam, state_stamp]) (by rw [hcam]; rfl)
      (by rw [hcam]; rfl) (interrupt_streaming d s) rfl rfl rfl⟩

theorem sound_step (h : ∃ xs, Sound s xs) {a : Action n} (hs : step s a = some t) :
    ∃ xs, Sound t xs := by
  obtain ⟨xs, h⟩ := h
  cases a with
  | qbuf b =>
    obtain ⟨zs, hz⟩ := sound_qbuf h hs
    exact ⟨xs ++ zs, hz⟩
  | dqbuf =>
    cases hs
    exact ⟨xs, sound_dqbuf h⟩
  | streamon => exact sound_streamon h hs
  | startReset =>
    cases hs
    exact ⟨xs, sound_startReset h⟩
  | streamoff => exact sound_streamoff h hs
  | interrupt d =>
    cases hs
    rcases sound_interrupt h d with ⟨-, hi⟩ | ⟨b, rest, -, -, -, hi⟩
    · exact ⟨xs, hi⟩
    · exact ⟨rest, hi⟩

/-- vb2's lists and states are sound in every reachable state. -/
theorem sound_reachable (h : Reachable (Steps step) (Capture.initial n) s) : ∃ xs, Sound s xs :=
  h.invariant _ ⟨[], sound_initial n⟩ (fun _ _ _ hs ht => sound_step hs ht)

theorem streamoff_streaming (hp : s.phase = .started) (hs : streamoff s = some t) :
    t.cam.streaming = false := by
  rw [streamoff, hp] at hs
  obtain ⟨cam, hcam, rfl⟩ := Option.map_eq_some_iff.mp hs
  exact (stopStreaming_some hcam).streaming

/-- Only an interrupt completes a buffer. -/
theorem doneList_eq_nil_of_step {a : Action n} (h : ∃ xs, Sound s xs) (hs : step s a = some t)
    (ha : ∀ d, a ≠ .interrupt d) (hd : s.cam.queue.doneList = []) :
    t.cam.queue.doneList = [] := by
  cases a with
  | qbuf b => exact (queueFrame_qbuf hs).doneList.trans hd
  | dqbuf =>
    obtain rfl : dqbuf s = t := Option.some.inj hs
    simp [dqbuf, hd]
  | streamon =>
    by_cases hp : s.phase = .stopped
    · obtain ⟨xs, hx⟩ := h
      obtain ⟨z, hz, rfl⟩ := streamon_some hp hs
      exact (handedOver_fold hz hx.nodup).doneList.trans hd
    · obtain rfl : s = t := by simpa [step, streamon, hp] using hs
      exact hd
  | startReset =>
    obtain rfl : startReset s = t := Option.some.inj hs
    rw [startReset]
    split <;> exact hd
  | streamoff =>
    replace hs : streamoff s = some t := hs
    rw [streamoff] at hs
    split at hs
    · cases hs
      exact hd
    · cases hs
      rfl
    · obtain ⟨cam, -, rfl⟩ := Option.map_eq_some_iff.mp hs
      rfl
  | interrupt d => exact absurd rfl (ha d)

/-- QBUF of a free buffer puts it at the end of vb2's list. -/
theorem qbuf_queued (hp : s.phase ≠ .starting) (hb : s.state b = .dequeued)
    (hs : qbuf b s = some t) :
    t.cam.queue.queuedList = s.cam.queue.queuedList ++ [b] ∧ t.phase = s.phase := by
  rw [qbuf, if_neg (by simp [hp, hb])] at hs
  split at hs
  · have ho := handedOver_enqueue hs
    exact ⟨ho.queuedList, ho.phase⟩
  · cases hs
    exact ⟨rfl, rfl⟩

end CameraDrivers.CaptureRuns
