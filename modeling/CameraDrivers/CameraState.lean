import CameraDrivers.LinkedListHeap
import Mathlib.Data.BitVec

/-!
# The state of the rpi_camera driver

`struct camera_dev` of camera_struct.h together with the part of its vb2 queue that
the callbacks and the interrupt handler read, or that vb2 changes around them. The
driver-owned list is kept as the `list_head` cells the driver links and unlinks; the two
lists of vb2 are the sequences of buffers on them.
-/
namespace CameraDrivers.CameraState
open LinkedListHeap

inductive Vb2BufferState | dequeued | queued | active | done | error deriving DecidableEq

inductive V4l2Field | any | none deriving DecidableEq

/-- `struct vb2_v4l2_buffer`; `payload` is the bytesused of its only plane. -/
structure Vb2V4l2Buffer where
  state : Vb2BufferState
  timestamp : ℕ
  sequence : BitVec 32
  field : V4l2Field
  payload : ℕ
  deriving DecidableEq

/-- The cell in `struct camera_dev` and the one in each `struct camera_buffer`. -/
inductive Cell (n : ℕ) | head | node (b : Fin n) deriving DecidableEq

structure Vb2Queue (n : ℕ) where
  buf : Fin n → Vb2V4l2Buffer
  queuedList : List (Fin n)
  doneList : List (Fin n)

structure CameraDev (n : ℕ) where
  queue : Vb2Queue n
  streaming : Bool
  frameCount : BitVec 32
  queuedList : ListHeap (Cell n)

variable {n : ℕ}

def Vb2Queue.state (q : Vb2Queue n) (b : Fin n) : Vb2BufferState := (q.buf b).state

def Vb2Queue.setState (q : Vb2Queue n) (b : Fin n) (st : Vb2BufferState) : Vb2Queue n :=
  { q with buf := Function.update q.buf b { q.buf b with state := st } }

@[simp] theorem setState_queuedList (q : Vb2Queue n) (b : Fin n) (st : Vb2BufferState) :
    (q.setState b st).queuedList = q.queuedList := rfl

@[simp] theorem setState_doneList (q : Vb2Queue n) (b : Fin n) (st : Vb2BufferState) :
    (q.setState b st).doneList = q.doneList := rfl

@[simp] theorem state_setState (q : Vb2Queue n) (b c : Fin n) (st : Vb2BufferState) :
    (q.setState b st).state c = if c = b then st else q.state c := by
  by_cases h : c = b
  · subst h
    simp [Vb2Queue.state, Vb2Queue.setState]
  · simp [Vb2Queue.state, Vb2Queue.setState, h]

/-- The part of `vb2_buffer_done` under `done_lock`: QUEUED gives the buffer back to vb2, every
state but QUEUED and DONE counts as ERROR, and a done buffer is appended to the done list. -/
def vb2Complete (q : Vb2Queue n) (b : Fin n) (st : Vb2BufferState) : Vb2Queue n :=
  match st with
  | .queued => q.setState b .queued
  | .done => { q.setState b .done with doneList := q.doneList ++ [b] }
  | _ => { q.setState b .error with doneList := q.doneList ++ [b] }

/-- A buffer that is not ACTIVE is refused with a warning. -/
def vb2BufferDone (q : Vb2Queue n) (b : Fin n) (st : Vb2BufferState) : Vb2Queue n :=
  if q.state b = .active then vb2Complete q b st else q

@[simp] theorem vb2BufferDone_refused {q : Vb2Queue n} {b : Fin n} (h : q.state b ≠ .active)
    (st : Vb2BufferState) : vb2BufferDone q b st = q := by simp [vb2BufferDone, h]

theorem vb2BufferDone_done {q : Vb2Queue n} {b : Fin n} (h : q.state b = .active) :
    vb2BufferDone q b .done = { q.setState b .done with doneList := q.doneList ++ [b] } := by
  simp [vb2BufferDone, vb2Complete, h]

theorem vb2BufferDone_error {q : Vb2Queue n} {b : Fin n} (h : q.state b = .active) :
    vb2BufferDone q b .error = { q.setState b .error with doneList := q.doneList ++ [b] } := by
  simp [vb2BufferDone, vb2Complete, h]

@[simp] theorem vb2BufferDone_queuedList (q : Vb2Queue n) (b : Fin n) (st : Vb2BufferState) :
    (vb2BufferDone q b st).queuedList = q.queuedList := by
  rw [vb2BufferDone]
  split
  · cases st <;> rfl
  · rfl

/-- A completion call leaves the stamps of every buffer alone. -/
theorem vb2BufferDone_stamps (q : Vb2Queue n) (b c : Fin n) (st : Vb2BufferState) :
    ((vb2BufferDone q b st).buf c).timestamp = (q.buf c).timestamp ∧
      ((vb2BufferDone q b st).buf c).sequence = (q.buf c).sequence := by
  rw [vb2BufferDone]
  split
  · by_cases h : c = b
    · subst h
      cases st <;> simp [vb2Complete, Vb2Queue.setState]
    · cases st <;> simp [vb2Complete, Vb2Queue.setState, h]
  · exact ⟨rfl, rfl⟩

/-- The fields that a completion writes into a buffer before it hands it to vb2. -/
def Vb2Queue.stamp (q : Vb2Queue n) (b : Fin n) (now : ℕ) (sequence : BitVec 32) : Vb2Queue n :=
  let stamped := { q.buf b with timestamp := now, sequence := sequence, field := .none }
  { q with buf := Function.update q.buf b stamped }

@[simp] theorem stamp_queuedList (q : Vb2Queue n) (b : Fin n) (now : ℕ) (i : BitVec 32) :
    (q.stamp b now i).queuedList = q.queuedList := rfl

@[simp] theorem stamp_doneList (q : Vb2Queue n) (b : Fin n) (now : ℕ) (i : BitVec 32) :
    (q.stamp b now i).doneList = q.doneList := rfl

@[simp] theorem state_stamp (q : Vb2Queue n) (b c : Fin n) (now : ℕ) (i : BitVec 32) :
    (q.stamp b now i).state c = q.state c := by
  by_cases h : c = b
  · subst h
    simp [Vb2Queue.state, Vb2Queue.stamp]
  · simp [Vb2Queue.state, Vb2Queue.stamp, h]

/-- A queue just after the allocation of its buffers: all of them belong to user space. -/
def Vb2Queue.fresh (n : ℕ) : Vb2Queue n where
  buf _ := ⟨.dequeued, 0, 0, .any, 0⟩
  queuedList := []
  doneList := []

/-- The zeroed device after `camera_queue_init`. -/
def CameraDev.fresh (n : ℕ) : CameraDev n where
  queue := .fresh n
  streaming := false
  frameCount := 0
  queuedList := initListHead ⟨fun _ => .null, fun _ => .null⟩ .head

end CameraDrivers.CameraState
