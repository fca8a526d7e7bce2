import CameraDrivers.CameraState
import Mathlib.Data.Fintype.Card

/-!
# The vb2 callbacks and the frame interrupt handler of rpi_camera

`buf_queue`, `start_streaming` and `stop_streaming` of camera_vb2.c and
`camera_irq_handler` of camera_irq.c. `none` is a fault on a bad list pointer. The
statements that other contexts can be delivered between have definitions of their own.
-/
namespace CameraDrivers.CameraCallbacks
open LinkedListHeap CameraState

variable {n : ℕ}

/-- `list_add_tail(&cam_buf->list, &cam->queued_list)`. -/
def bufQueue (b : Fin n) (cam : CameraDev n) : Option (CameraDev n) :=
  (listAddTail cam.queuedList (.node b) .head).map (fun l => { cam with queuedList := l })

/-- The first statement of `start_streaming`. -/
def raiseStreaming (cam : CameraDev n) : CameraDev n := { cam with streaming := true }

/-- The second statement of `start_streaming`. -/
def resetFrameCount (cam : CameraDev n) : CameraDev n := { cam with frameCount := 0 }

def startStreaming (cam : CameraDev n) : CameraDev n := resetFrameCount (raiseStreaming cam)

/-- The first statement of `stop_streaming`. -/
def clearStreaming (cam : CameraDev n) : CameraDev n := { cam with streaming := false }

/-- The body of the loop in `stop_streaming`; the loop never enters it at the head. -/
def returnBuffer : Cell n → CameraDev n → Option (CameraDev n)
  | .head, _ => none
  | .node b, cam => (listDel cam.queuedList (.node b)).map (fun l =>
      { cam with queuedList := l, queue := vb2BufferDone cam.queue b .error })

/-- A bound on the iterations of the loop in `stop_streaming`. -/
def drainFuel (n : ℕ) : ℕ := 4 * n + 8

def stopStreaming (cam : CameraDev n) : Option (CameraDev n) :=
  listForEachEntrySafe CameraDev.queuedList .head returnBuffer (drainFuel n) (clearStreaming cam)

/-- `timestamp`, `sequence` and `field` of the buffer the handler picked. -/
def stampBuffer (b : Fin n) (now : ℕ) (cam : CameraDev n) : CameraDev n :=
  { cam with queue := cam.queue.stamp b now cam.frameCount }

def completeBuffer (b : Fin n) (cam : CameraDev n) : CameraDev n :=
  { cam with queue := vb2BufferDone cam.queue b .done }

def advanceFrameCount (cam : CameraDev n) : CameraDev n :=
  { cam with frameCount := cam.frameCount + 1 }

def cameraIrqHandler (now : ℕ) (cam : CameraDev n) : CameraDev n :=
  if !cam.streaming then cam
  else match cam.queue.queuedList with
    | [] => cam
    | vb :: _ => advanceFrameCount (completeBuffer vb (stampBuffer vb now cam))

/-- The buffer whose completion vb2 accepts when the handler runs now. -/
def completes (cam : CameraDev n) : Option (Fin n) :=
  if cam.streaming then
    match cam.queue.queuedList with
    | [] => none
    | vb :: _ => if cam.queue.state vb = .active then some vb else none
  else none

/-- The heap holds the driver-owned list `xs`, and only its buffers are linked. -/
structure DriverList (l : ListHeap (Cell n)) (xs : List (Fin n)) : Prop where
  ring : Ring l .head (xs.map .node)
  linked_iff : ∀ b, (l.next (.node b)).isCell ↔ b ∈ xs

variable {l : ListHeap (Cell n)} {xs : List (Fin n)} {b : Fin n} {cam cam' : CameraDev n}

theorem node_injective : Function.Injective (Cell.node (n := n)) := fun _ _ h => Cell.node.inj h

theorem driverList_fresh (n : ℕ) : DriverList (CameraDev.fresh n).queuedList [] where
  ring := ring_initListHead _ _
  linked_iff b := by simp [CameraDev.fresh, initListHead, Link.isCell]

theorem ring_nodup (h : Ring l .head (xs.map .node)) : xs.Nodup :=
  (List.nodup_map_iff node_injective).mp (List.nodup_cons.mp h.nodup).2

/-- The bound of the loop is enough for a list that holds no buffer twice. -/
theorem length_le_drainFuel (h : xs.Nodup) : xs.length ≤ drainFuel n := by
  have hc := h.length_le_card
  simp only [Fintype.card_fin] at hc
  simp only [drainFuel]
  omega

theorem DriverList.nodup (h : DriverList l xs) : xs.Nodup := ring_nodup h.ring

theorem DriverList.length_le (h : DriverList l xs) : xs.length ≤ drainFuel n :=
  length_le_drainFuel h.nodup

theorem DriverList.unique {ys : List (Fin n)} (h : DriverList l xs) (h' : DriverList l ys) :
    xs = ys := node_injective.list_map (h.ring.unique h'.ring)

/-- `list_add_tail` of a buffer that is not linked. -/
theorem DriverList.listAddTail (h : DriverList l xs) (hb : b ∉ xs) :
    ∃ l', listAddTail l (.node b) .head = some l' ∧ DriverList l' (xs ++ [b]) := by
  have hnew : Cell.node b ∉ Cell.head :: xs.map .node := by simpa using hb
  obtain ⟨l', hl, hr, hframe⟩ := h.ring.listAddTail hnew
  have hr' : Ring l' .head ((xs ++ [b]).map .node) := by simpa using hr
  refine ⟨l', hl, hr', ?_⟩
  intro c
  by_cases hc : c ∈ xs ++ [b]
  · simp [hr'.next_isCell (List.mem_map_of_mem hc), hc]
  · simp only [List.mem_append, List.mem_singleton, not_or] at hc
    have hcell : Cell.node c ∉ Cell.head :: xs.map .node := by simpa using hc.1
    rw [(hframe _ hcell (by simpa using hc.2)).1, h.linked_iff]
    simp [hc]

/-- `list_del` of the first buffer. -/
theorem DriverList.listDel (h : DriverList l (b :: xs)) :
    ∃ l', listDel l (.node b) = some l' ∧ DriverList l' xs := by
  have hring : Ring l .head ([] ++ .node b :: xs.map .node) := by simpa using h.ring
  obtain ⟨l', hl, hr, hpoison, hframe⟩ := hring.listDel
  refine ⟨l', hl, by simpa using hr, ?_⟩
  intro c
  have hbx := (List.nodup_cons.mp h.nodup).1
  by_cases hcb : c = b
  · simp [hcb, hpoison, Link.isCell, hbx]
  · by_cases hc : c ∈ xs
    · simp [hr.next_isCell (List.mem_map_of_mem hc), hc]
    · have hcell : Cell.node c ∉ Cell.head :: ([] ++ Cell.node b :: xs.map .node) := by
        simp [hcb, hc]
      rw [(hframe _ hcell).1, h.linked_iff]
      simp [hcb, hc]

theorem bufQueue_some (h : bufQueue b cam = some cam') :
    ∃ l, cam' = { cam with queuedList := l } := by
  obtain ⟨l, -, rfl⟩ := Option.map_eq_some_iff.mp h
  exact ⟨l, rfl⟩

theorem bufQueue_spec (cam : CameraDev n) (h : DriverList cam.queuedList xs) (hb : b ∉ xs) :
    ∃ l, bufQueue b cam = some { cam with queuedList := l } ∧ DriverList l (xs ++ [b]) := by
  obtain ⟨l, hl, hd⟩ := h.listAddTail hb
  exact ⟨l, by simp [bufQueue, hl], hd⟩

theorem returnBuffer_node (h : listDel cam.queuedList (.node b) = some l) :
    returnBuffer (.node b) cam =
      some { cam with queuedList := l, queue := vb2BufferDone cam.queue b .error } := by
  simp [returnBuffer, h]

/-- The vb2 side of a drain: every listed buffer is handed back with ERROR, in list order. -/
def returnAll (q : Vb2Queue n) (xs : List (Fin n)) : Vb2Queue n :=
  xs.foldl (fun q b => vb2BufferDone q b .error) q

/-- `stop_streaming` drains the driver-owned list. -/
theorem stopStreaming_spec (h : DriverList cam.queuedList xs) :
    ∃ l, stopStreaming cam = some { cam with
        streaming := false, queuedList := l, queue := returnAll cam.queue xs } ∧
      DriverList l [] := by
  let inv (cells : List (Cell n)) (s : CameraDev n) : Prop :=
    ∃ zs ys l, cells = ys.map .node ∧ xs = zs ++ ys ∧ DriverList l ys ∧ s = { cam with
      streaming := false, queuedList := l, queue := returnAll cam.queue zs }
  have ring : ∀ cells s, inv cells s → Ring s.queuedList .head cells := by
    rintro cells s ⟨zs, ys, l, rfl, -, hd, rfl⟩
    exact hd.ring
  have step : ∀ c cells s, inv (c :: cells) s → ∃ t, returnBuffer c s = some t ∧ inv cells t := by
    rintro c cells s ⟨zs, ys, l, hcells, hx, hd, rfl⟩
    obtain ⟨y, ys, rfl, rfl, rfl⟩ := List.map_eq_cons_iff.mp hcells.symm
    obtain ⟨l', hl', hd'⟩ := hd.listDel
    refine ⟨_, returnBuffer_node hl', zs ++ [y], ys, l', rfl, by simp [hx], hd', ?_⟩
    simp [returnAll]
  have start : inv (xs.map .node) (clearStreaming cam) := ⟨[], xs, cam.queuedList, rfl, rfl, h, rfl⟩
  obtain ⟨t, ht, zs, ys, l, hnil, hx, hd, rfl⟩ :=
    listForEachEntrySafe_drain ring step (by simpa using h.length_le) start
  obtain rfl := List.map_eq_nil_iff.mp hnil.symm
  rw [List.append_nil] at hx
  exact ⟨l, hx ▸ ht, hd⟩

/-- What a `stop_streaming` that returns does on any heap. -/
structure Stopped (cam cam' : CameraDev n) : Prop where
  streaming : cam'.streaming = false
  frameCount : cam'.frameCount = cam.frameCount
  stamps : ∀ b, (cam'.queue.buf b).timestamp = (cam.queue.buf b).timestamp ∧
    (cam'.queue.buf b).sequence = (cam.queue.buf b).sequence

theorem stopStreaming_some (h : stopStreaming cam = some cam') : Stopped cam cam' := by
  refine listForEachEntrySafe_preserves (Stopped cam) ?_ h
    ⟨rfl, rfl, fun _ => ⟨rfl, rfl⟩⟩
  intro c s t hb hs
  cases c with
  | head => cases hb
  | node b =>
    obtain ⟨l, -, rfl⟩ := Option.map_eq_some_iff.mp hb
    refine ⟨hs.streaming, hs.frameCount, fun c => ?_⟩
    have hc := vb2BufferDone_stamps s.queue b c .error
    exact ⟨hc.1.trans (hs.stamps c).1, hc.2.trans (hs.stamps c).2⟩

/-- The three ways a run of the handler can go. -/
theorem cameraIrqHandler_cases (now : ℕ) (cam : CameraDev n) :
    (cam.streaming = false ∨ cam.queue.queuedList = []) ∧ completes cam = none ∧
        cameraIrqHandler now cam = cam ∨
    (∃ b rest, cam.streaming = true ∧ cam.queue.queuedList = b :: rest ∧
        cam.queue.state b = .active ∧ completes cam = some b ∧
        cameraIrqHandler now cam =
          advanceFrameCount (completeBuffer b (stampBuffer b now cam))) ∨
    (∃ b rest, cam.streaming = true ∧ cam.queue.queuedList = b :: rest ∧
        cam.queue.state b ≠ .active ∧ completes cam = none ∧
        cameraIrqHandler now cam = advanceFrameCount (stampBuffer b now cam)) := by
  cases hs : cam.streaming with
  | false => exact .inl ⟨.inl rfl, by simp [completes, hs], by simp [cameraIrqHandler, hs]⟩
  | true =>
    cases hq : cam.queue.queuedList with
    | nil => exact .inl ⟨.inr rfl, by simp [completes, hq], by simp [cameraIrqHandler, hq]⟩
    | cons b rest =>
      by_cases hb : cam.queue.state b = .active
      · exact .inr (.inl ⟨b, rest, rfl, rfl, hb, by simp [completes, hs, hq, hb],
          by simp [cameraIrqHandler, hs, hq]⟩)
      · refine .inr (.inr ⟨b, rest, rfl, rfl, hb, by simp [completes, hq, hb], ?_⟩)
        simp [cameraIrqHandler, hs, hq, completeBuffer, stampBuffer, hb]

end CameraDrivers.CameraCallbacks
