import CameraDrivers.CaptureRuns

/-!
# The rpi_camera callbacks and handler, statement by statement

One process context, which runs the callbacks under the queue mutex, and one interrupt
context. On the same CPU the handler preempts the process wherever interrupts are enabled
and the process waits until it is done; on another CPU both go on. A context that finds
a spinlock held spins. A step is `none` when it is not enabled, or on a bad list pointer.
-/
namespace CameraDrivers.CallbackSteps
open LinkedListHeap CameraState CameraCallbacks TransitionRuns CaptureRuns

/-- Where the frame interrupt is handled. On the other CPU the second acquisition of
`done_lock`, inside `vb2_buffer_done`, is set aside. -/
inductive Cpu | same | other deriving DecidableEq

inductive Context | process | interrupt deriving DecidableEq

inductive Lock | queuedLock | doneLock deriving DecidableEq

/-- The next statement of the process. Inside STREAMON, `rest` holds the buffers that are
handed over after this one and before `start_streaming`; inside QBUF it is `none`. -/
inductive ProcPc (n : ℕ)
  | user
  | bufQueue (b : Fin n) (rest : Option (List (Fin n)))
  | bufQueueLocked (b : Fin n) (rest : Option (List (Fin n)))
  | bufQueueAdded (rest : Option (List (Fin n)))
  | startStreaming | startFlagged
  | stopStreaming | stopFlagged | stopLocked
  | stopLoop (pos : Cell n) (tmp : Link (Cell n))
  | stopDeleted (b : Fin n) (tmp : Link (Cell n))
  | stopChecked (b : Fin n) (tmp : Link (Cell n))
  | stopCompleting (b : Fin n) (tmp : Link (Cell n))
  | stopNext (tmp : Link (Cell n))
  | stopDrained | stopReturned
  deriving DecidableEq

/-- The next statement of the handler; from `stamped` to `completing` it is in the call of
`vb2_buffer_done`. -/
inductive IrqPc (n : ℕ)
  | idle | entered | tested | locked
  | picked (vb : Fin n) | stamped (vb : Fin n) | checked (vb : Fin n) | completing (vb : Fin n)
  | counting | unlocking
  deriving DecidableEq

/-- An attempt to take a spinlock: who held it, and what the taker held already. -/
structure Attempt where
  taker : Context
  lock : Lock
  holder : Option Context
  held : List Lock
  deriving DecidableEq

/-- `session` is vb2's `start_streaming_called`; `attempts` is the history of the locks. -/
structure Execution (n : ℕ) where
  cam : CameraDev n
  session : Bool
  proc : ProcPc n
  irq : IrqPc n
  holder : Lock → Option Context
  attempts : List Attempt

inductive Action (n : ℕ)
  | qbuf (b : Fin n) | dqbuf | streamon | streamoff | proc
  | irq | handler (now : ℕ)
  deriving DecidableEq

variable {n : ℕ}

def Execution.initial (n : ℕ) : Execution n := ⟨.fresh n, false, .user, .idle, fun _ => none, []⟩

def heldBy (c : Context) (x : Execution n) : List Lock :=
  [Lock.queuedLock, Lock.doneLock].filter (fun l => x.holder l = some c)

/-- `spin_lock`: either the lock is free and the context goes on, or it stays where it is. -/
def acquire (c : Context) (l : Lock) (entered : Execution n → Execution n) (x : Execution n) :
    Execution n :=
  let x' := { x with attempts := x.attempts ++ [⟨c, l, x.holder l, heldBy c x⟩] }
  match x.holder l with
  | none => { entered x' with holder := Function.update x.holder l (some c) }
  | some _ => x'

def release (l : Lock) (x : Execution n) : Execution n :=
  { x with holder := Function.update x.holder l none }

def moveProc (pc : ProcPc n) (x : Execution n) : Execution n := { x with proc := pc }

def moveIrq (pc : IrqPc n) (x : Execution n) : Execution n := { x with irq := pc }

def setQueue (q : Vb2Queue n) (x : Execution n) : Execution n :=
  { x with cam := { x.cam with queue := q } }

/-- vb2 makes the buffer ACTIVE and calls `buf_queue`. -/
def callBufQueue (b : Fin n) (rest : Option (List (Fin n))) (x : Execution n) : Execution n :=
  moveProc (.bufQueue b rest) (setQueue (x.cam.queue.setState b .active) x)

/-- STREAMON hands over the queued buffers one after the other, then calls
`start_streaming`. -/
def handOver : List (Fin n) → Execution n → Execution n
  | [], x => { x with proc := .startStreaming, session := true }
  | b :: rest, x => callBufQueue b (some rest) x

def leaveBufQueue : Option (List (Fin n)) → Execution n → Execution n
  | none, x => moveProc .user x
  | some rest, x => handOver rest x

def procStep (x : Execution n) : Option (Execution n) :=
  match x.proc with
  | .user => none
  | .bufQueue b rest => some (acquire .process .queuedLock (moveProc (.bufQueueLocked b rest)) x)
  | .bufQueueLocked b rest => (bufQueue b x.cam).map (fun cam =>
      { x with cam := cam, proc := .bufQueueAdded rest })
  | .bufQueueAdded rest => some (leaveBufQueue rest (release .queuedLock x))
  | .startStreaming => some { x with cam := raiseStreaming x.cam, proc := .startFlagged }
  | .startFlagged => some { x with cam := resetFrameCount x.cam, proc := .user }
  | .stopStreaming => some { x with cam := clearStreaming x.cam, proc := .stopFlagged }
  | .stopFlagged => some (acquire .process .queuedLock (moveProc .stopLocked) x)
  | .stopLocked =>
    match x.cam.queuedList.next .head with
    | .cell first => some (moveProc (.stopLoop first (x.cam.queuedList.next first)) x)
    | _ => none
  | .stopLoop .head _ => some (moveProc .stopDrained x)
  | .stopLoop (.node b) tmp => (listDel x.cam.queuedList (.node b)).map (fun l =>
      { x with cam := { x.cam with queuedList := l }, proc := .stopDeleted b tmp })
  | .stopDeleted b tmp =>
    if x.cam.queue.state b = .active then some (moveProc (.stopChecked b tmp) x)
    else some (moveProc (.stopNext tmp) x)
  | .stopChecked b tmp =>
    some (acquire .process .doneLock (moveProc (.stopCompleting b tmp)) x)
  | .stopCompleting b tmp =>
    some (release .doneLock (moveProc (.stopNext tmp)
      (setQueue (vb2Complete x.cam.queue b .error) x)))
  | .stopNext tmp =>
    match tmp with
    | .cell pos => some (moveProc (.stopLoop pos (x.cam.queuedList.next pos)) x)
    | _ => none
  | .stopDrained => some (release .queuedLock { x with proc := .stopReturned, session := false })
  | .stopReturned => some (moveProc .user (setQueue (cancelQueue x.cam.queue) x))

def handlerStep (cpu : Cpu) (now : ℕ) (x : Execution n) : Option (Execution n) :=
  match x.irq with
  | .idle => none
  | .entered => some (moveIrq (if x.cam.streaming then .tested else .idle) x)
  | .tested => some (acquire .interrupt .doneLock (moveIrq .locked) x)
  | .locked =>
    match x.cam.queue.queuedList with
    | [] => some (moveIrq .unlocking x)
    | vb :: _ => some (moveIrq (.picked vb) x)
  | .picked vb => some { x with cam := stampBuffer vb now x.cam, irq := .stamped vb }
  | .stamped vb =>
    some (moveIrq (if x.cam.queue.state vb = .active then .checked vb else .counting) x)
  | .checked vb =>
    match cpu with
    | .same => some (acquire .interrupt .doneLock (moveIrq (.completing vb)) x)
    | .other => some (moveIrq (.completing vb) x)
  | .completing vb => some (moveIrq .counting (setQueue (vb2Complete x.cam.queue vb .done) x))
  | .counting => some { x with cam := advanceFrameCount x.cam, irq := .unlocking }
  | .unlocking => some (release .doneLock (moveIrq .idle x))

/-- QBUF of a buffer that user space owns. -/
def qbuf (b : Fin n) (x : Execution n) : Option (Execution n) :=
  if x.cam.queue.state b = .dequeued then
    let queued := setQueue (queueBuffer x.cam.queue b) x
    some (if x.session then callBufQueue b none queued else queued)
  else none

/-- DQBUF takes `done_lock` inside vb2, so it waits while the handler holds it. -/
def dqbuf (x : Execution n) : Option (Execution n) :=
  if x.session ∧ x.holder .doneLock = none then
    match x.cam.queue.doneList with
    | [] => none
    | b :: rest => some (setQueue (dequeueBuffer x.cam.queue b rest) x)
  else none

def streamon (x : Execution n) : Option (Execution n) :=
  if x.session then none else some (handOver x.cam.queue.queuedList x)

def streamoff (x : Execution n) : Execution n :=
  if x.session then moveProc .stopStreaming x
  else setQueue (cancelQueue x.cam.queue) x

/-- An ioctl of user space, up to the first statement of the driver. -/
def userStep (x : Execution n) : Action n → Option (Execution n)
  | .qbuf b => qbuf b x
  | .dqbuf => dqbuf x
  | .streamon => streamon x
  | .streamoff => some (streamoff x)
  | .proc | .irq | .handler _ => none

/-- The process has the CPU. -/
def processRuns (cpu : Cpu) (x : Execution n) : Prop := cpu = .other ∨ x.irq = .idle

instance (cpu : Cpu) (x : Execution n) : Decidable (processRuns cpu x) :=
  inferInstanceAs (Decidable (_ ∨ _))

/-- An interrupt is delivered when the handler is not running and, on the CPU of the
process, when that has not disabled interrupts inside `vb2_buffer_done`. -/
def delivered (cpu : Cpu) (x : Execution n) : Prop :=
  x.irq = .idle ∧ (cpu = .same → x.holder .doneLock ≠ some .process)

instance (cpu : Cpu) (x : Execution n) : Decidable (delivered cpu x) :=
  inferInstanceAs (Decidable (_ ∧ _))

def step (cpu : Cpu) (x : Execution n) : Action n → Option (Execution n)
  | .irq => if delivered cpu x then some (moveIrq .entered x) else none
  | .handler now => handlerStep cpu now x
  | .proc => if processRuns cpu x then procStep x else none
  | a => if processRuns cpu x ∧ x.proc = .user then userStep x a else none

end CameraDrivers.CallbackSteps
