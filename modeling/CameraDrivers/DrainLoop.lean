import CameraDrivers.CameraCallbacks
import CameraDrivers.TracedTraversal
import CameraDrivers.TransitionRuns

/-!
# The drain loop of stop_streaming over the pointers of the list

`buf_queue` and the loop of `stop_streaming` keep the circular shape of the driver-owned list
across streaming sessions, on any heap that `camera_queue_init` found. Only the ring of
the list is an invariant: the links of a buffer that is not on it are whatever an
earlier session, or the allocator, left there.
-/
namespace CameraDrivers.DrainLoop
open LinkedListHeap TracedTraversal CameraState CameraCallbacks TransitionRuns

/-- The arguments of a call of `vb2_buffer_done`. -/
abbrev DoneCall (n : ℕ) := Fin n × Vb2BufferState

abbrev Trace (n : ℕ) := List (Access (Cell n) (DoneCall n))

variable {n : ℕ}

/-- INIT_LIST_HEAD of the driver-owned list. -/
def cameraQueueInit (cam : CameraDev n) : CameraDev n :=
  { cam with queuedList := initListHead cam.queuedList .head }

/-- The body of the loop in `stop_streaming`, with its accesses. -/
def tracedReturnBuffer : Cell n → CameraDev n → Option (CameraDev n × Trace n)
  | .head, _ => none
  | .node b, cam => (tracedListDel cam.queuedList (.node b)).map (fun unlinked =>
      ({ cam with queuedList := unlinked.1, queue := vb2BufferDone cam.queue b .error },
        unlinked.2 ++ [.emit (b, .error)]))

def tracedStopStreaming (fuel : ℕ) (cam : CameraDev n) : Option (CameraDev n × Trace n) :=
  tracedForEachEntrySafe CameraDev.queuedList .head tracedReturnBuffer fuel (clearStreaming cam)

def errorCalls : Cell n → List (DoneCall n)
  | .head => []
  | .node b => [(b, .error)]

/-- The driver, and the buffers it was handed since the last `stop_streaming`. -/
structure Driver (n : ℕ) where
  cam : CameraDev n
  session : List (Fin n)

/-- The last kind of step is everything else that vb2 and the driver do between the calls. -/
inductive Action (n : ℕ)
  | queue (b : Fin n)
  | stop
  | other (queue : Vb2Queue n) (streaming : Bool) (frameCount : BitVec 32)

/-- vb2 hands over a buffer as ACTIVE, and a buffer of the session stays so. -/
def next (s : Driver n) : Action n → Option (Driver n)
  | .queue b =>
    if s.session.contains b then none
    else (bufQueue b { s.cam with queue := s.cam.queue.setState b .active }).map (fun cam =>
      ⟨cam, s.session ++ [b]⟩)
  | .stop => (stopStreaming s.cam).map (fun cam => ⟨cam, []⟩)
  | .other queue streaming frameCount =>
    if s.session.all (fun b => queue.state b = .active) then
      some { s with cam :=
        { s.cam with queue := queue, streaming := streaming, frameCount := frameCount } }
    else none

/-- What a call of `stop_streaming` does with the buffers of the session. -/
structure Drained (cam cam' : CameraDev n) (trace : Trace n) (session : List (Fin n)) :
    Prop where
  stops : stopStreaming cam = some cam'
  terminates : ∀ fuel ≥ session.length, tracedStopStreaming fuel cam = some (cam', trace)
  calls : emitted trace = session.map (fun b => (b, .error))
  once : session.Nodup
  unlinked : deleted trace = session.map .node
  live : FollowsLive trace
  headNext : cam'.queuedList.next .head = .cell .head
  headPrev : cam'.queuedList.prev .head = .cell .head
  streaming : cam'.streaming = false
  returned : ∀ b ∈ session, cam'.queue.state b = .error
  others : ∀ b ∉ session, cam'.queue.buf b = cam.queue.buf b
  doneList : cam'.queue.doneList = cam.queue.doneList ++ session

variable {cam : CameraDev n} {xs : List (Fin n)} {b : Fin n} {s t : Driver n} {a : Action n}

/-- The zeroed device is one of the heaps that `camera_queue_init` may find. -/
theorem cameraQueueInit_zeroed (n : ℕ) : cameraQueueInit
    ⟨.fresh n, false, 0, ⟨fun _ => .null, fun _ => .null⟩⟩ = CameraDev.fresh n := rfl

theorem tracedReturnBuffer_erases (c : Cell n) (cam : CameraDev n) :
    (tracedReturnBuffer c cam).map Prod.fst = returnBuffer c cam := by
  cases c with
  | head => rfl
  | node b =>
    have herase : (tracedListDel cam.queuedList (.node b) :
        Option (ListHeap (Cell n) × Trace n)).map Prod.fst = listDel cam.queuedList (.node b) :=
      tracedListDel_erases _ _
    rw [tracedReturnBuffer, returnBuffer, ← herase, Option.map_map, Option.map_map]
    rfl

/-- The traced loop is the loop of `stop_streaming`. -/
theorem tracedStopStreaming_erases (cam : CameraDev n) :
    (tracedStopStreaming (drainFuel n) cam).map Prod.fst = stopStreaming cam := by
  have hbody : (fun c cam => (tracedReturnBuffer (n := n) c cam).map Prod.fst) = returnBuffer := by
    funext c cam
    exact tracedReturnBuffer_erases c cam
  rw [tracedStopStreaming, tracedForEachEntrySafe_erases, hbody]
  rfl

/-- What the calls of `vb2_buffer_done` do to vb2. -/
structure Returned (q q' : Vb2Queue n) (xs : List (Fin n)) : Prop where
  error : ∀ b ∈ xs, q'.state b = .error
  others : ∀ b ∉ xs, q'.buf b = q.buf b
  doneList : q'.doneList = q.doneList ++ xs

theorem returnAll_active {q : Vb2Queue n} (hnd : xs.Nodup) (h : ∀ b ∈ xs, q.state b = .active) :
    Returned q (returnAll q xs) xs := by
  induction xs generalizing q with
  | nil => exact ⟨by simp, fun _ _ => rfl, (List.append_nil _).symm⟩
  | cons b xs ih =>
    obtain ⟨hb, hnd⟩ := List.nodup_cons.mp hnd
    have hdone := vb2BufferDone_error (h b List.mem_cons_self)
    have hstate : ∀ c, (vb2BufferDone q b .error).state c =
        if c = b then .error else q.state c := by
      intro c
      rw [hdone]
      exact state_setState q b c .error
    have hrest := ih (q := vb2BufferDone q b .error) hnd (fun c hc => by
      have hcb : c ≠ b := fun e => hb (e ▸ hc)
      rw [hstate, if_neg hcb]
      exact h c (List.mem_cons_of_mem _ hc))
    have hsplit : returnAll q (b :: xs) = returnAll (vb2BufferDone q b .error) xs := rfl
    rw [hsplit]
    constructor
    · intro c hc
      rcases List.mem_cons.mp hc with rfl | hc
      · rw [Vb2Queue.state, hrest.others c hb, ← Vb2Queue.state, hstate, if_pos rfl]
      · exact hrest.error c hc
    · intro c hc
      rw [List.mem_cons, not_or] at hc
      rw [hrest.others c hc.2, hdone]
      exact Function.update_of_ne hc.1 _ _
    · rw [hrest.doneList, hdone]
      simp

/-- Taking the first buffer off the list. -/
theorem tracedReturnBuffer_node (cam : CameraDev n)
    (h : Ring cam.queuedList .head (.node b :: xs.map .node)) :
    ∃ l, tracedReturnBuffer (.node b) cam = some ({ cam with
        queuedList := l, queue := vb2BufferDone cam.queue b .error },
          unlinkTrace errorCalls (.node b)) ∧
      Ring l .head (xs.map .node) := by
  have hring : Ring cam.queuedList .head ([] ++ .node b :: xs.map .node) := h
  obtain ⟨l, hl, hr, -⟩ := hring.listDel
  refine ⟨l, ?_, hr⟩
  rw [tracedReturnBuffer, tracedListDel, hl]
  rfl

theorem tracedStopStreaming_ring (h : Ring cam.queuedList .head (xs.map .node)) :
    ∃ l, Ring l .head [] ∧ ∀ fuel ≥ xs.length, tracedStopStreaming fuel cam = some
      ({ cam with streaming := false, queuedList := l, queue := returnAll cam.queue xs },
        drainTrace .head errorCalls (xs.map .node)) := by
  let inv (cells : List (Cell n)) (s : CameraDev n) : Prop :=
    ∃ zs ys l, cells = ys.map .node ∧ xs = zs ++ ys ∧ Ring l .head cells ∧ s = { cam with
      streaming := false, queuedList := l, queue := returnAll cam.queue zs }
  have ring : ∀ cells s, inv cells s → Ring s.queuedList .head cells := by
    rintro cells s ⟨zs, ys, l, -, -, hr, rfl⟩
    exact hr
  have step : ∀ c cells s, inv (c :: cells) s →
      ∃ t, tracedReturnBuffer c s = some (t, unlinkTrace errorCalls c) ∧ inv cells t := by
    rintro c cells s ⟨zs, ys, l, hcells, hx, hr, rfl⟩
    obtain ⟨y, ys, rfl, rfl, rfl⟩ := List.map_eq_cons_iff.mp hcells.symm
    obtain ⟨l', hl', hr'⟩ := tracedReturnBuffer_node { cam with
      streaming := false, queuedList := l, queue := returnAll cam.queue zs } hr
    exact ⟨_, hl', zs ++ [y], ys, l', rfl, by simp [hx], hr', by simp [returnAll]⟩
  have start : inv (xs.map .node) (clearStreaming cam) := ⟨[], xs, cam.queuedList, rfl, rfl, h, rfl⟩
  obtain ⟨t, hend, ht⟩ := tracedForEachEntrySafe_drain ring step start
  obtain ⟨zs, ys, l, hnil, hx, hr, rfl⟩ := hend
  obtain rfl := List.map_eq_nil_iff.mp hnil.symm
  rw [List.append_nil] at hx
  rw [List.length_map] at ht
  exact ⟨l, hr, hx ▸ ht⟩

/-- The list holds the buffers of the session in the order of their calls, all of them ACTIVE. -/
structure Inv (s : Driver n) : Prop where
  ring : Ring s.cam.queuedList .head (s.session.map .node)
  active : ∀ b ∈ s.session, s.cam.queue.state b = .active

theorem inv_init (cam : CameraDev n) : Inv ⟨cameraQueueInit cam, []⟩ where
  ring := ring_initListHead _ _
  active := by simp

/-- `buf_queue` appends a buffer of vb2 that is not on the list. -/
theorem Inv.queue (h : Inv s) (hb : b ∉ s.session) :
    ∃ t, next s (.queue b) = some t ∧ t.session = s.session ++ [b] ∧ Inv t := by
  have hnew : Cell.node b ∉ Cell.head :: s.session.map .node := by simpa using hb
  obtain ⟨l, hl, hr, -⟩ := h.ring.listAddTail hnew
  let cam : CameraDev n :=
    { s.cam with queue := s.cam.queue.setState b .active, queuedList := l }
  have hnext : next s (.queue b) = some ⟨cam, s.session ++ [b]⟩ := by
    have hfree : ¬ s.session.contains b = true := mt List.contains_iff_mem.mp hb
    simp only [next, if_neg hfree, bufQueue, hl, Option.map_some, cam]
  refine ⟨_, hnext, rfl, ?_, ?_⟩
  · rw [List.map_append]
    exact hr
  · intro c hc
    have hstate : cam.queue.state c = if c = b then .active else s.cam.queue.state c :=
      state_setState s.cam.queue b c .active
    change cam.queue.state c = .active
    rw [hstate]
    rcases List.mem_append.mp hc with hc | hc
    · rw [h.active c hc, ite_self]
    · rw [if_pos (List.mem_singleton.mp hc)]

theorem errorCalls_nodes (xs : List (Fin n)) :
    (xs.map Cell.node).flatMap errorCalls = xs.map (fun b => (b, .error)) := by
  rw [List.flatMap_map]
  exact List.map_eq_flatMap.symm

/-- In every state of the invariant `stop_streaming` drains the list. -/
theorem Inv.drained (h : Inv s) : ∃ cam' trace, Drained s.cam cam' trace s.session := by
  obtain ⟨l, hr, hloop⟩ := tracedStopStreaming_ring h.ring
  have hnd := ring_nodup h.ring
  have hreturned := returnAll_active hnd h.active
  refine ⟨{ s.cam with
      streaming := false, queuedList := l, queue := returnAll s.cam.queue s.session },
    drainTrace .head errorCalls (s.session.map .node), ?_⟩
  constructor
  · rw [← tracedStopStreaming_erases, hloop _ (length_le_drainFuel hnd)]
    rfl
  · exact hloop
  · rw [emitted_drainTrace, errorCalls_nodes]
  · exact hnd
  · exact deleted_drainTrace _ _ _
  · exact drainTrace_live h.ring.nodup
  · exact (ring_nil_iff.mp hr).1
  · exact (ring_nil_iff.mp hr).2
  · rfl
  · exact hreturned.error
  · exact hreturned.others
  · exact hreturned.doneList

theorem inv_step (h : Inv s) (hs : next s a = some t) : Inv t := by
  cases a with
  | queue b =>
    by_cases hb : b ∈ s.session
    · rw [next, if_pos (List.contains_iff_mem.mpr hb)] at hs
      cases hs
    · obtain ⟨t', ht', -, hi⟩ := h.queue hb
      rw [ht'] at hs
      cases hs
      exact hi
  | stop =>
    obtain ⟨cam', trace, hd⟩ := h.drained
    simp only [next, hd.stops, Option.map_some, Option.some.injEq] at hs
    subst hs
    exact ⟨ring_nil_iff.mpr ⟨hd.headNext, hd.headPrev⟩, by simp⟩
  | other queue streaming frameCount =>
    simp only [next] at hs
    split at hs
    · next hactive =>
      cases hs
      refine ⟨h.ring, ?_⟩
      intro b hb
      exact of_decide_eq_true (List.all_eq_true.mp hactive b hb)
    · cases hs

/-- After `camera_queue_init` on any heap, and after every sequence of calls of `buf_queue` and
`stop_streaming` with anything between them that leaves the driver its buffers:
`stop_streaming` drains the session, and every buffer that is not on the list can be queued. -/
theorem drain_run (cam : CameraDev n) (as : List (Action n)) (s : Driver n)
    (h : Run (Steps next) ⟨cameraQueueInit cam, []⟩ as s) :
    (∃ cam' trace, Drained s.cam cam' trace s.session) ∧
      ∀ b ∉ s.session, ∃ t, next s (.queue b) = some t ∧ t.session = s.session ++ [b] := by
  have hinv : Inv s := h.invariant Inv (inv_init cam) (fun _ _ _ hi hs => inv_step hi hs)
  refine ⟨hinv.drained, ?_⟩
  intro b hb
  obtain ⟨t, ht, hsession, -⟩ := hinv.queue hb
  exact ⟨t, ht, hsession⟩

/-- Two sessions with the same two buffers, on a heap of arbitrary links. -/
theorem drain_run_sessions : ∃ (cam : CameraDev 2) (as : List (Action 2)) (s : Driver 2),
    as.length = 5 ∧ Run (Steps next) ⟨cameraQueueInit cam, []⟩ as s ∧ s.session = [1, 0] ∧
      ∃ cam' trace, Drained s.cam cam' trace s.session := by
  let stale : ListHeap (Cell 2) := ⟨fun _ => .cell (.node 0), fun _ => .poison2⟩
  let cam : CameraDev 2 := { CameraDev.fresh 2 with queuedList := stale }
  let as : List (Action 2) := [.queue 0, .queue 1, .stop, .queue 1, .queue 0]
  have hsession : (follow next ⟨cameraQueueInit cam, []⟩ as).map Driver.session = some [1, 0] := by
    decide
  obtain ⟨s, hs, hlast⟩ := Option.map_eq_some_iff.mp hsession
  have run : Run (Steps next) ⟨cameraQueueInit cam, []⟩ as s := run_steps_iff.mpr hs
  exact ⟨cam, as, s, rfl, run, hlast, (drain_run cam as s run).1⟩

end CameraDrivers.DrainLoop
