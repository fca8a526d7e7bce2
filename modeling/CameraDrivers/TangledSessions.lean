import CameraDrivers.CaptureRuns
import CameraDrivers.ReaddedCells

/-!
# The driver-owned list over all sessions of a run

`camera_irq_handler` never unlinks the buffer it completes, so a later `buf_queue` adds a
linked cell again. The pointers of `cam->queued_list` are then those of the history of the
calls since the last `stop_streaming`, and that history decides whether the next one ends.
A step faults when it follows a pointer that is not a list cell, or loops for ever. The
spinlocks are set aside: they only take runs away.
-/
namespace CameraDrivers.TangledSessions
open LinkedListHeap ReaddedCells CameraState CameraCallbacks TransitionRuns CaptureRuns

variable {n : ℕ}

/-- A run of the driver, and the calls of `buf_queue` since the list was last drained. -/
structure Monitored (n : ℕ) where
  capture : Capture n
  history : History (Cell n)

def Monitored.initial (n : ℕ) : Monitored n := ⟨.initial n, .clean⟩

/-- The buffers that vb2 hands to the driver in a step. -/
def handed (s : Capture n) : Action n → List (Fin n)
  | .qbuf b => if s.phase = .started ∧ s.state b = .dequeued then [b] else []
  | .streamon => if s.phase = .stopped then s.cam.queue.queuedList else []
  | _ => []

def addAll (h : History (Cell n)) (bs : List (Fin n)) : History (Cell n) :=
  bs.foldl (fun h b => h.add (.node b)) h

def record (s : Capture n) (h : History (Cell n)) (a : Action n) : History (Cell n) :=
  if a = .streamoff ∧ s.phase = .started then h.drained else addAll h (handed s a)

def next (m : Monitored n) (a : Action n) : Option (Monitored n) :=
  (step m.capture a).map (fun t => ⟨t, record m.capture m.history a⟩)

/-- A step that the driver does not survive. -/
def Faults (m : Monitored n) (a : Action n) : Prop :=
  a = .streamoff ∧ m.capture.phase = .started ∧ m.history.drainable = false

abbrev Follow (s : Capture n) (h : History (Cell n)) : Prop := Tangled s.cam.queuedList .head h

variable {s t : Capture n} {h : History (Cell n)} {b : Fin n} {cam cam' : CameraDev n}

theorem addAll_eq (h : History (Cell n)) (bs : List (Fin n)) :
    addAll h bs = { h with added := h.added ++ bs.map .node } := by
  induction bs generalizing h with
  | nil => simp [addAll]
  | cons b bs ih =>
    have hcons : addAll h (b :: bs) = addAll (h.add (.node b)) bs := rfl
    rw [hcons, ih]
    simp [History.add]

theorem returnBuffer_deletes :
    Deletes (CameraDev.queuedList (n := n)) .head returnBuffer where
  able c s l hc hl := by
    cases c with
    | head => exact absurd rfl hc
    | node b => exact ⟨_, returnBuffer_node hl, rfl⟩
  faults c s hl := by
    cases c with
    | head => rfl
    | node b => simp [returnBuffer, hl]

/-- `buf_queue` never faults, however tangled the list is. -/
theorem enqueueInDriver_follows (hf : Follow s h) (b : Fin n) :
    ∃ t, enqueueInDriver s b = some t ∧ Follow t (h.add (.node b)) := by
  obtain ⟨l, hl, ht⟩ := hf.listAddTail (c := .node b) (by simp)
  have hbuf : bufQueue b { s.cam with queue := s.cam.queue.setState b .active } =
      some { s.cam with queue := s.cam.queue.setState b .active, queuedList := l } := by
    simp [bufQueue, hl]
  exact ⟨_, by rw [enqueueInDriver, hbuf, Option.map_some], ht⟩

theorem enqueueAll_follows (hf : Follow s h) (bs : List (Fin n)) :
    ∃ t, bs.foldlM enqueueInDriver s = some t ∧ Follow t (addAll h bs) := by
  induction bs generalizing s h with
  | nil => exact ⟨s, rfl, hf⟩
  | cons b bs ih =>
    obtain ⟨z, hz, hzf⟩ := enqueueInDriver_follows hf b
    obtain ⟨t, ht, htf⟩ := ih hzf
    exact ⟨t, by simpa [hz] using ht, htf⟩

/-- The path goes through buffers only, and through each of them once. -/
theorem path_eq_map (hf : Tangled cam.queuedList .head h) :
    ∃ xs : List (Fin n), h.path = xs.map .node ∧ xs.Nodup := by
  have hnode : ∀ cs : List (Cell n), .head ∉ cs → ∃ xs : List (Fin n), cs = xs.map .node := by
    intro cs hcs
    induction cs with
    | nil => exact ⟨[], rfl⟩
    | cons c cs ih =>
      obtain ⟨xs, rfl⟩ := ih (fun hm => hcs (List.mem_cons_of_mem _ hm))
      cases c with
      | head => exact absurd List.mem_cons_self hcs
      | node b => exact ⟨b :: xs, rfl⟩
  obtain ⟨xs, hxs⟩ := hnode h.path hf.head_notMem_path
  exact ⟨xs, hxs, (List.nodup_map_iff node_injective).mp (hxs ▸ h.path_nodup)⟩

theorem path_length_le (hf : Tangled cam.queuedList .head h) : h.path.length ≤ drainFuel n := by
  obtain ⟨xs, hxs, hnd⟩ := path_eq_map hf
  rw [hxs, List.length_map]
  exact length_le_drainFuel hnd

theorem foldlM_returnBuffer {xs : List (Fin n)}
    (h : (xs.map .node).foldlM (fun cam c => returnBuffer c cam) cam = some cam') :
    cam'.queue = returnAll cam.queue xs := by
  induction xs generalizing cam with
  | nil =>
    cases h
    rfl
  | cons b xs ih =>
    rw [List.map_cons, List.foldlM_cons] at h
    obtain ⟨mid, hmid, hrest⟩ := Option.bind_eq_some_iff.mp h
    obtain ⟨l, -, rfl⟩ := Option.map_eq_some_iff.mp hmid
    exact ih hrest

/-- vb2 accepts a buffer that is ACTIVE, and no other. -/
theorem state_returnAll (q : Vb2Queue n) (xs : List (Fin n)) (b : Fin n) :
    (returnAll q xs).state b = if b ∈ xs ∧ q.state b = .active then .error else q.state b := by
  induction xs generalizing q with
  | nil => simp [returnAll]
  | cons c xs ih =>
    have hcons : returnAll q (c :: xs) = returnAll (vb2BufferDone q c .error) xs := rfl
    rw [hcons, ih]
    by_cases hc : q.state c = .active
    · have hstate : (vb2BufferDone q c .error).state b =
          if b = c then .error else q.state b := by
        rw [vb2BufferDone_error hc]
        exact state_setState q c b .error
      rw [hstate]
      by_cases hbc : b = c
      · simp [hbc, hc]
      · simp [hbc]
    · rw [vb2BufferDone_refused hc]
      by_cases hbc : b = c
      · simp [hbc, hc]
      · simp [hbc]

/-- `stop_streaming` ends exactly when the history says so, and hands back the buffers of
the path that are ACTIVE. -/
theorem stopStreaming_follows (hf : Tangled cam.queuedList .head h) (hok : h.drainable = true) :
    ∃ cam', stopStreaming cam = some cam' ∧ Tangled cam'.queuedList .head h.drained ∧
      ∀ b, cam'.queue.state b =
        if .node b ∈ h.path ∧ cam.queue.state b = .active then .error else cam.queue.state b := by
  have hstart : Tangled (clearStreaming cam).queuedList .head h := hf
  obtain ⟨cam', hcam, hfold, ht⟩ :=
    hstart.drain returnBuffer_deletes (path_length_le hf) hok
  refine ⟨cam', hcam, ht, fun b => ?_⟩
  obtain ⟨xs, hxs, -⟩ := path_eq_map hf
  rw [hxs] at hfold
  have hqueue : (clearStreaming cam).queue = cam.queue := rfl
  rw [foldlM_returnBuffer hfold, hqueue, state_returnAll, hxs]
  simp

theorem stopStreaming_faults (hf : Tangled cam.queuedList .head h) (hok : h.drainable = false) :
    stopStreaming cam = none := by
  have hstart : Tangled (clearStreaming cam).queuedList .head h := hf
  exact hstart.drain_faults returnBuffer_deletes hok _

theorem record_eq {a : Action n} (ha : a ≠ .streamoff) :
    record s h a = addAll h (handed s a) := by
  simp [record, ha]

theorem qbuf_follows (hf : Follow s h) (b : Fin n) :
    ∃ t, qbuf b s = some t ∧ Follow t (record s h (.qbuf b)) := by
  rw [record_eq (by simp), qbuf]
  by_cases hrefused : s.phase = .starting ∨ s.state b ≠ .dequeued
  · have hnone : handed s (.qbuf b) = [] := by
      rw [handed, if_neg]
      rintro ⟨hp, hb⟩
      rcases hrefused with hs | hs
      · simp [hp] at hs
      · exact hs hb
    rw [if_pos hrefused, hnone]
    exact ⟨s, rfl, hf⟩
  · rw [if_neg hrefused]
    simp only [not_or, not_not] at hrefused
    by_cases hp : s.phase = .started
    · obtain ⟨t, ht, htf⟩ := enqueueInDriver_follows
        (s := { s with cam := { s.cam with queue := queueBuffer s.cam.queue b } }) hf b
      refine ⟨t, by simpa [hp] using ht, ?_⟩
      rwa [handed, if_pos ⟨hp, hrefused.2⟩]
    · have hnone : handed s (.qbuf b) = [] := if_neg (fun hc => hp hc.1)
      rw [if_neg hp, hnone]
      exact ⟨_, rfl, hf⟩

theorem streamon_follows (hf : Follow s h) :
    ∃ t, streamon s = some t ∧ Follow t (record s h .streamon) := by
  rw [record_eq (by simp), streamon, handed]
  by_cases hp : s.phase = .stopped
  · obtain ⟨t, ht, htf⟩ := enqueueAll_follows hf s.cam.queue.queuedList
    rw [if_pos hp, if_pos hp, ht]
    exact ⟨_, rfl, htf⟩
  · rw [if_neg hp, if_neg hp]
    exact ⟨s, rfl, hf⟩

theorem streamoff_follows (hf : Follow s h) (hok : ¬ Faults ⟨s, h⟩ .streamoff) :
    ∃ t, streamoff s = some t ∧ Follow t (record s h .streamoff) := by
  rw [streamoff, record]
  cases hp : s.phase with
  | stopped => exact ⟨_, rfl, hf⟩
  | starting => exact ⟨s, rfl, hf⟩
  | started =>
    have hdrain : h.drainable = true := by
      rw [← Bool.not_eq_false]
      exact fun hd => hok ⟨rfl, hp, hd⟩
    obtain ⟨cam', hcam, ht, -⟩ := stopStreaming_follows hf hdrain
    refine ⟨{ s with cam := { cam' with queue := cancelQueue cam'.queue }, phase := .stopped },
      by simp [hcam], ?_⟩
    simpa using ht

theorem dqbuf_queuedList (s : Capture n) : (dqbuf s).cam.queuedList = s.cam.queuedList := by
  rw [dqbuf]
  split
  · split <;> rfl
  · rfl

theorem interrupt_queuedList (elapsed : ℕ) (s : Capture n) :
    (interrupt elapsed s).cam.queuedList = s.cam.queuedList := by
  rcases cameraIrqHandler_cases (s.clock + elapsed) s.cam with ⟨-, -, hi⟩ | ⟨b, _, -, -, -, -, hi⟩ |
      ⟨b, _, -, -, -, -, hi⟩
  all_goals rw [interrupt, hi]
  all_goals rfl

/-- One step: it faults, or the pointers are those of the history it leaves. -/
theorem step_follows (hf : Follow s h) (a : Action n) :
    Faults ⟨s, h⟩ a ∧ step s a = none ∨
      ¬ Faults ⟨s, h⟩ a ∧ ∃ t, step s a = some t ∧ Follow t (record s h a) := by
  by_cases ha : Faults ⟨s, h⟩ a
  · obtain ⟨rfl, hp, hd⟩ := ha
    refine .inl ⟨⟨rfl, hp, hd⟩, ?_⟩
    have hs : s.phase = .started := hp
    simp [step, streamoff, hs, stopStreaming_faults hf hd]
  · refine .inr ⟨ha, ?_⟩
    cases a with
    | qbuf b => exact qbuf_follows hf b
    | dqbuf =>
      refine ⟨_, rfl, ?_⟩
      rw [Follow, dqbuf_queuedList]
      exact hf
    | streamon => exact streamon_follows hf
    | startReset =>
      refine ⟨_, rfl, ?_⟩
      have hlist : (startReset s).cam.queuedList = s.cam.queuedList := by
        rw [startReset]
        split <;> rfl
      rw [Follow, hlist]
      exact hf
    | streamoff => exact streamoff_follows hf ha
    | interrupt elapsed =>
      refine ⟨_, rfl, ?_⟩
      rw [Follow, interrupt_queuedList]
      exact hf

theorem follow_of_step {a : Action n} (hf : Follow s h) (hs : step s a = some t) :
    Follow t (record s h a) := by
  rcases step_follows hf a with ⟨-, hnone⟩ | ⟨-, t', ht', htf⟩
  · rw [hs] at hnone
    cases hnone
  · obtain rfl : t' = t := Option.some.inj (ht'.symm.trans hs)
    exact htf

theorem run_follows {m : Monitored n} {as : List (Action n)}
    (run : Run (Steps next) (Monitored.initial n) as m) : Follow m.capture m.history := by
  apply run.invariant (fun m => Follow m.capture m.history)
  · exact tangled_initListHead _ _
  · intro m a m' hm hs
    obtain ⟨t, ht, rfl⟩ := Option.map_eq_some_iff.mp hs
    exact follow_of_step hm ht

theorem run_captures {m m' : Monitored n} {as : List (Action n)} (run : Run (Steps next) m as m') :
    Run (Steps step) m.capture as m'.capture := by
  induction run with
  | refl => exact .refl _
  | snoc run last ih =>
    obtain ⟨t, ht, rfl⟩ := Option.map_eq_some_iff.mp last
    exact ih.snoc ht

/-- The record changes nothing: these are the runs of the driver. -/
theorem run_erases {as : List (Action n)} {s : Capture n} :
    Run (Steps step) (Capture.initial n) as s ↔
      ∃ h, Run (Steps next) (Monitored.initial n) as ⟨s, h⟩ := by
  constructor
  · intro run
    induction run with
    | refl => exact ⟨.clean, .refl _⟩
    | @snoc s t as a run last ih =>
      obtain ⟨h, hrun⟩ := ih
      have hstep : step s a = some t := last
      exact ⟨record s h a, hrun.snoc (by simp [Steps, next, hstep])⟩
  · rintro ⟨h, hrun⟩
    exact run_captures hrun

/-- When the driver faults, in any run. -/
theorem step_faults_iff {m : Monitored n} {as : List (Action n)}
    (run : Run (Steps next) (Monitored.initial n) as m) (a : Action n) :
    step m.capture a = none ↔ Faults m a := by
  rcases step_follows (run_follows run) a with ⟨hfault, hnone⟩ | ⟨hok, t, ht, -⟩
  · exact ⟨fun _ => hfault, fun _ => hnone⟩
  · refine ⟨fun hnone => ?_, fun hfault => absurd hfault hok⟩
    rw [ht] at hnone
    cases hnone

/-- The only buffer of a queue, completed, dequeued and queued again, is a list of its own. -/
theorem step_faults_requeued : ∃ m : Monitored 1, m.history.added = [.node 0, .node 0] ∧
    step m.capture .streamoff = none := by
  let as : List (Action 1) := [.qbuf 0, .streamon, .startReset, .interrupt 1, .dqbuf, .qbuf 0]
  have heval : (follow next (Monitored.initial 1) as).map
      (fun m => (m.history.added, m.capture.phase, m.history.drainable)) =
        some ([.node 0, .node 0], .started, false) := by decide
  obtain ⟨m, run, hm⟩ := run_of_follow heval
  simp only [Prod.mk.injEq] at hm
  exact ⟨m, hm.1, (step_faults_iff run .streamoff).mpr ⟨rfl, hm.2⟩⟩

/-- The buffers that a `stop_streaming` which ends takes back from the driver. -/
theorem stopStreaming_returns {m : Monitored n} {as : List (Action n)} {cam' : CameraDev n}
    (run : Run (Steps next) (Monitored.initial n) as m)
    (hstop : stopStreaming m.capture.cam = some cam') (b : Fin n) :
    cam'.queue.state b = if .node b ∈ m.history.path ∧ m.capture.state b = .active then .error
      else m.capture.state b := by
  have hf := run_follows run
  cases hd : m.history.drainable with
  | false =>
    rw [stopStreaming_faults hf hd] at hstop
    cases hstop
  | true =>
    obtain ⟨cam'', hcam, -, hstate⟩ := stopStreaming_follows hf hd
    obtain rfl : cam'' = cam' := Option.some.inj (hcam.symm.trans hstop)
    exact hstate b

/-- The second buffer is no longer on the path once the first one was queued again. -/
theorem stopStreaming_returns_two : ∃ (m : Monitored 2) (cam' : CameraDev 2),
    stopStreaming m.capture.cam = some cam' ∧ cam'.queue.state 0 = .error ∧
      cam'.queue.state 1 = .active := by
  let as : List (Action 2) :=
    [.qbuf 0, .qbuf 1, .streamon, .startReset, .interrupt 1, .dqbuf, .qbuf 0]
  have heval : (follow next (Monitored.initial 2) as).map (fun m =>
      (m.history.path, m.capture.state 0, m.capture.state 1,
        (stopStreaming m.capture.cam).isSome)) =
        some ([.node 0], .active, .active, true) := by decide
  obtain ⟨m, run, hm⟩ := run_of_follow heval
  simp only [Prod.mk.injEq] at hm
  obtain ⟨hpath, hzero, hone, hsome⟩ := hm
  obtain ⟨cam', hstop⟩ := Option.isSome_iff_exists.mp hsome
  refine ⟨m, cam', hstop, ?_, ?_⟩
  · rw [stopStreaming_returns run hstop, if_pos ⟨by simp [hpath], hzero⟩]
  · rw [stopStreaming_returns run hstop, hone]
    simp [hpath]

end CameraDrivers.TangledSessions
