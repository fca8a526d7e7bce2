import CameraDrivers.CallbackSteps

/-!
# Callbacks that nothing interrupts

The machine that takes a callback or an interrupt as one step is simulated by the machine
that takes them statement by statement: the answer to a step is the run of its statements
in a row. An interrupt that completes a buffer is answered only where the acquisition of
`done_lock` inside `vb2_buffer_done` is set aside; with it the handler spins.
-/
namespace CameraDrivers.CallbackAtomicity
open LinkedListHeap CameraState CameraCallbacks TransitionRuns CaptureRuns CallbackSteps

variable {n : ℕ}

/-- An execution between two statements, up to the history of the locks. -/
structure Place (n : ℕ) where
  cam : CameraDev n
  session : Bool
  proc : ProcPc n
  irq : IrqPc n
  holder : Lock → Option Context

def Place.after (p : Place n) (attempts : List Attempt) : Execution n :=
  ⟨p.cam, p.session, p.proc, p.irq, p.holder, attempts⟩

/-- From one place to the other by statements of one context. -/
def Leads (cpu : Cpu) (a : CallbackSteps.Action n) (p q : Place n) : Prop :=
  ∀ attempts, ∃ k attempts', Run (Steps (CallbackSteps.step cpu)) (p.after attempts)
    (List.replicate k a) (q.after attempts')

/-- The ioctl or the interrupt and its statements in a row, or nothing for an ioctl that vb2
refuses. -/
inductive Answers : CaptureRuns.Action n → List (CallbackSteps.Action n) → Prop
  | refused {a : CaptureRuns.Action n} (ioctl : ∀ d, a ≠ .interrupt d) : Answers a []
  | qbuf (b : Fin n) (k : ℕ) : Answers (.qbuf b) (.qbuf b :: List.replicate k .proc)
  | dqbuf : Answers .dqbuf [.dqbuf]
  | streamon (k : ℕ) : Answers .streamon (.streamon :: List.replicate k .proc)
  | startReset (k : ℕ) : Answers .startReset (List.replicate k .proc)
  | streamoff (k : ℕ) : Answers .streamoff (.streamoff :: List.replicate k .proc)
  | interrupt (d now k : ℕ) : Answers (.interrupt d) (.irq :: List.replicate k (.handler now))

/-- The step is no interrupt that takes `done_lock` a second time. -/
def Passes (cpu : Cpu) (s : Capture n) : CaptureRuns.Action n → Prop
  | .interrupt _ => cpu = .same → completes s.cam = none
  | _ => True

/-- A step of the atomic machine, between two of its places. -/
def Responds (cpu : Cpu) (a : CaptureRuns.Action n) (p q : Place n) : Prop :=
  ∀ attempts, ∃ bs attempts', Answers a bs ∧
    Run (Steps (CallbackSteps.step cpu)) (p.after attempts) bs (q.after attempts')

def free : Lock → Option Context := fun _ => none

def queuedHeld : Lock → Option Context := Function.update free .queuedLock (some .process)

def doneHeld : Lock → Option Context := Function.update free .doneLock (some .interrupt)

variable {p q r : Place n} {b : Fin n} {cam cam' : CameraDev n} {session : Bool} {cpu : Cpu}
  {a : CallbackSteps.Action n} {coarse : CaptureRuns.Action n}

theorem Leads.refl (a : CallbackSteps.Action n) (p : Place n) : Leads cpu a p p :=
  fun attempts => ⟨0, attempts, .refl _⟩

theorem Leads.trans (h : Leads cpu a p q) (h' : Leads cpu a q r) : Leads cpu a p r := by
  intro attempts
  obtain ⟨k, mid, run⟩ := h attempts
  obtain ⟨k', attempts', run'⟩ := h' mid
  refine ⟨k + k', attempts', ?_⟩
  rw [List.replicate_add]
  exact run.append run'

/-- While the process runs, the handler does not. -/
theorem Leads.proc (hidle : p.irq = .idle) (h : ∀ attempts, ∃ attempts',
    procStep (p.after attempts) = some (q.after attempts')) : Leads cpu .proc p q := by
  intro attempts
  obtain ⟨attempts', hs⟩ := h attempts
  refine ⟨1, attempts', .single ?_⟩
  rw [Steps, CallbackSteps.step, if_pos (.inr hidle), hs]

theorem Leads.handler (now : ℕ) (h : ∀ attempts, ∃ attempts',
    handlerStep cpu now (p.after attempts) = some (q.after attempts')) :
    Leads cpu (.handler now) p q := by
  intro attempts
  obtain ⟨attempts', hs⟩ := h attempts
  exact ⟨1, attempts', .single hs⟩

theorem Responds.refused (ioctl : ∀ d, coarse ≠ .interrupt d) : Responds cpu coarse p p :=
  fun attempts => ⟨[], attempts, .refused ioctl, .refl _⟩

/-- The first statement of an ioctl or an interrupt, and the others. -/
theorem Responds.enter {first : CallbackSteps.Action n}
    (answers : ∀ k, Answers coarse (first :: List.replicate k a))
    (h : ∀ attempts, CallbackSteps.step cpu (p.after attempts) first = some (q.after attempts))
    (h' : Leads cpu a q r) : Responds cpu coarse p r := by
  intro attempts
  obtain ⟨k, attempts', run⟩ := h' attempts
  exact ⟨_, attempts', answers k, run_cons_iff.mpr ⟨_, h attempts, run⟩⟩

theorem release_queuedHeld : Function.update queuedHeld .queuedLock none = free := by
  funext l
  cases l <;> rfl

theorem release_doneLock_queuedHeld :
    Function.update (Function.update queuedHeld .doneLock (some .process)) .doneLock none =
      queuedHeld := by
  funext l
  cases l <;> rfl

theorem release_doneHeld : Function.update doneHeld .doneLock none = free := by
  funext l
  cases l <;> rfl

/-- Where STREAMON hands over the buffers `ws`. -/
def handPlace : List (Fin n) → Place n → Place n
  | [], p => { p with proc := .startStreaming, session := true }
  | b :: ws, p => { p with
      cam := { p.cam with queue := p.cam.queue.setState b .active }, proc := .bufQueue b (some ws) }

theorem handOver_after (ws : List (Fin n)) (p : Place n) (attempts : List Attempt) :
    handOver ws (p.after attempts) = (handPlace ws p).after attempts := by
  cases ws <;> rfl

/-- The three statements of `buf_queue`, up to the return to vb2. -/
theorem bufQueue_leads {rest : Option (List (Fin n))} (hb : bufQueue b cam = some cam') :
    Leads cpu .proc ⟨cam, session, .bufQueue b rest, .idle, free⟩
      ⟨cam', session, .bufQueueAdded rest, .idle, queuedHeld⟩ := by
  have lock : Leads cpu .proc ⟨cam, session, .bufQueue b rest, .idle, free⟩
      ⟨cam, session, .bufQueueLocked b rest, .idle, queuedHeld⟩ :=
    .proc rfl (fun _ => ⟨_, rfl⟩)
  have add : Leads cpu .proc ⟨cam, session, .bufQueueLocked b rest, .idle, queuedHeld⟩
      ⟨cam', session, .bufQueueAdded rest, .idle, queuedHeld⟩ := by
    apply Leads.proc rfl
    intro attempts
    exact ⟨attempts, by simp [procStep, Place.after, hb]⟩
  exact lock.trans add

theorem handOver_leads (ws : List (Fin n)) {s t : Capture n} {pc : ProcPc n}
    (h : ws.foldlM enqueueInDriver s = some t) :
    Leads cpu .proc (handPlace ws ⟨s.cam, false, pc, .idle, free⟩)
      ⟨t.cam, true, .startStreaming, .idle, free⟩ := by
  induction ws generalizing s pc with
  | nil =>
    cases h
    exact .refl _ _
  | cons b ws ih =>
    rw [List.foldlM_cons] at h
    obtain ⟨mid, hmid, hrest⟩ := Option.bind_eq_some_iff.mp h
    obtain ⟨cam, hcam, hs⟩ := Option.map_eq_some_iff.mp hmid
    have hc : cam = mid.cam := by rw [← hs]
    have unlock : Leads cpu .proc ⟨cam, false, .bufQueueAdded (some ws), .idle, queuedHeld⟩
        (handPlace ws ⟨cam, false, .bufQueueAdded (some ws), .idle, free⟩) := by
      apply Leads.proc rfl
      intro attempts
      refine ⟨attempts, ?_⟩
      rw [← handOver_after, procStep]
      simp only [Place.after, leaveBufQueue, release, release_queuedHeld]
    exact ((bufQueue_leads hcam).trans unlock).trans (hc ▸ ih hrest)

/-- The call of `vb2_buffer_done` in the loop of `stop_streaming`, whether vb2 accepts the
buffer or refuses it. -/
theorem bufferDone_leads (cam : CameraDev n) (session : Bool) (b : Fin n) (tmp : Link (Cell n)) :
    Leads cpu .proc ⟨cam, session, .stopDeleted b tmp, .idle, queuedHeld⟩
      ⟨{ cam with queue := vb2BufferDone cam.queue b .error }, session, .stopNext tmp,
        .idle, queuedHeld⟩ := by
  cases hb : decide (cam.queue.state b = .active) with
  | true =>
    have hactive := of_decide_eq_true hb
    have check : Leads cpu .proc ⟨cam, session, .stopDeleted b tmp, .idle, queuedHeld⟩
        ⟨cam, session, .stopChecked b tmp, .idle, queuedHeld⟩ := by
      apply Leads.proc rfl
      intro attempts
      exact ⟨attempts, by simp [procStep, Place.after, moveProc, hactive]⟩
    have lock : Leads cpu .proc ⟨cam, session, .stopChecked b tmp, .idle, queuedHeld⟩
        ⟨cam, session, .stopCompleting b tmp,
          .idle, Function.update queuedHeld .doneLock (some .process)⟩ :=
      .proc rfl (fun _ => ⟨_, rfl⟩)
    have complete : Leads cpu .proc ⟨cam, session, .stopCompleting b tmp,
          .idle, Function.update queuedHeld .doneLock (some .process)⟩
        ⟨{ cam with queue := vb2BufferDone cam.queue b .error }, session, .stopNext tmp,
          .idle, queuedHeld⟩ := by
      apply Leads.proc rfl
      intro attempts
      refine ⟨attempts, ?_⟩
      simp only [procStep, Place.after, release, moveProc, setQueue, release_doneLock_queuedHeld,
        vb2BufferDone, if_pos hactive]
    exact (check.trans lock).trans complete
  | false =>
    have hrefused := of_decide_eq_false hb
    apply Leads.proc rfl
    intro attempts
    refine ⟨attempts, ?_⟩
    simp [procStep, Place.after, moveProc, hrefused]

/-- The loop of `stop_streaming`, by induction on the bound of its iterations. -/
theorem drain_leads (fuel : ℕ) (pos : Cell n) (tmp : Link (Cell n))
    (h : forEachFrom CameraDev.queuedList .head returnBuffer fuel pos tmp cam = some cam') :
    Leads cpu .proc ⟨cam, session, .stopLoop pos tmp, .idle, queuedHeld⟩
      ⟨cam', session, .stopDrained, .idle, queuedHeld⟩ := by
  have leave : Leads cpu .proc ⟨cam, session, .stopLoop .head tmp, .idle, queuedHeld⟩
      ⟨cam, session, .stopDrained, .idle, queuedHeld⟩ := .proc rfl (fun attempts => ⟨attempts, rfl⟩)
  induction fuel generalizing pos tmp cam with
  | zero =>
    simp only [forEachFrom] at h
    split at h
    · next hpos =>
      cases h
      exact hpos ▸ leave
    · cases h
  | succ fuel ih =>
    simp only [forEachFrom] at h
    split at h
    · next hpos =>
      cases h
      exact hpos ▸ leave
    · cases pos with
      | head => contradiction
      | node b =>
        split at h
        · next c =>
          obtain ⟨mid, hbody, hrest⟩ := Option.bind_eq_some_iff.mp h
          obtain ⟨l, hl, hmid⟩ := Option.map_eq_some_iff.mp hbody
          have delete : Leads cpu .proc
              ⟨cam, session, .stopLoop (.node b) (.cell c), .idle, queuedHeld⟩
              ⟨{ cam with queuedList := l }, session, .stopDeleted b (.cell c), .idle,
                queuedHeld⟩ := by
            apply Leads.proc rfl
            intro attempts
            exact ⟨attempts, by simp [procStep, Place.after, hl]⟩
          have advance : Leads cpu .proc ⟨mid, session, .stopNext (.cell c), .idle, queuedHeld⟩
              ⟨mid, session, .stopLoop c (mid.queuedList.next c), .idle, queuedHeld⟩ :=
            .proc rfl (fun attempts => ⟨attempts, rfl⟩)
          have done : Leads cpu .proc _ _ :=
            bufferDone_leads { cam with queuedList := l } session b (.cell c)
          simp only [hmid] at done
          exact ((delete.trans done).trans advance).trans
            (ih c _ hrest (.proc rfl (fun attempts => ⟨attempts, rfl⟩)))
        · cases h

theorem stopStreaming_leads (h : stopStreaming cam = some cam') :
    Leads cpu .proc ⟨cam, true, .stopStreaming, .idle, free⟩
      ⟨{ cam' with queue := cancelQueue cam'.queue }, false, .user, .idle, free⟩ := by
  rw [stopStreaming, listForEachEntrySafe] at h
  split at h
  · next first hfirst =>
    have clear : Leads cpu .proc ⟨cam, true, .stopStreaming, .idle, free⟩
        ⟨clearStreaming cam, true, .stopFlagged, .idle, free⟩ :=
      .proc rfl (fun attempts => ⟨attempts, rfl⟩)
    have lock : Leads cpu .proc ⟨clearStreaming cam, true, .stopFlagged, .idle, free⟩
        ⟨clearStreaming cam, true, .stopLocked, .idle, queuedHeld⟩ := .proc rfl (fun _ => ⟨_, rfl⟩)
    have enter : Leads cpu .proc ⟨clearStreaming cam, true, .stopLocked, .idle, queuedHeld⟩
        ⟨clearStreaming cam, true, .stopLoop first ((clearStreaming cam).queuedList.next first),
          .idle, queuedHeld⟩ := by
      apply Leads.proc rfl
      intro attempts
      exact ⟨attempts, by simp [procStep, Place.after, moveProc, hfirst]⟩
    have unlock : Leads cpu .proc ⟨cam', true, .stopDrained, .idle, queuedHeld⟩
        ⟨cam', false, .stopReturned, .idle, free⟩ := by
      apply Leads.proc rfl
      intro attempts
      refine ⟨attempts, ?_⟩
      simp only [procStep, Place.after, release, release_queuedHeld]
    have cancel : Leads cpu .proc ⟨cam', false, .stopReturned, .idle, free⟩
        ⟨{ cam' with queue := cancelQueue cam'.queue }, false, .user, .idle, free⟩ :=
      .proc rfl (fun attempts => ⟨attempts, rfl⟩)
    exact ((((clear.trans lock).trans enter).trans (drain_leads _ _ _ h)).trans unlock).trans cancel
  · cases h

/-- The call of `vb2_buffer_done` in the handler. -/
theorem completeBuffer_leads (now : ℕ) {pc : ProcPc n}
    (hpass : cpu = .same → cam.queue.state b ≠ .active) :
    Leads cpu (.handler now) ⟨cam, session, pc, .stamped b, doneHeld⟩
      ⟨completeBuffer b cam, session, pc, .counting, doneHeld⟩ := by
  cases hb : decide (cam.queue.state b = .active) with
  | true =>
    have hactive := of_decide_eq_true hb
    have check : Leads cpu (.handler now) ⟨cam, session, pc, .stamped b, doneHeld⟩
        ⟨cam, session, pc, .checked b, doneHeld⟩ := by
      apply Leads.handler now
      intro attempts
      exact ⟨attempts, by simp [handlerStep, Place.after, moveIrq, hactive]⟩
    have enter : Leads cpu (.handler now) ⟨cam, session, pc, .checked b, doneHeld⟩
        ⟨cam, session, pc, .completing b, doneHeld⟩ := by
      cases cpu with
      | same => exact absurd hactive (hpass rfl)
      | other => exact .handler now (fun attempts => ⟨attempts, rfl⟩)
    have complete : Leads cpu (.handler now) ⟨cam, session, pc, .completing b, doneHeld⟩
        ⟨completeBuffer b cam, session, pc, .counting, doneHeld⟩ := by
      apply Leads.handler now
      intro attempts
      refine ⟨attempts, ?_⟩
      simp only [handlerStep, Place.after, moveIrq, setQueue, completeBuffer, vb2BufferDone,
        if_pos hactive]
    exact (check.trans enter).trans complete
  | false =>
    have hrefused := of_decide_eq_false hb
    apply Leads.handler now
    intro attempts
    refine ⟨attempts, ?_⟩
    simp [handlerStep, Place.after, moveIrq, completeBuffer, hrefused]

/-- The statements of the handler, from the interrupt to its return. -/
theorem interrupt_leads (now : ℕ) (cam : CameraDev n) (session : Bool) (pc : ProcPc n)
    (hpass : cpu = .same → completes cam = none) :
    Leads cpu (.handler now) ⟨cam, session, pc, .entered, free⟩
      ⟨cameraIrqHandler now cam, session, pc, .idle, free⟩ := by
  have test (next : IrqPc n) (h : (if cam.streaming then .tested else .idle) = next) :
      Leads cpu (.handler now) ⟨cam, session, pc, .entered, free⟩ ⟨cam, session, pc, next, free⟩ :=
    .handler now (fun attempts => ⟨attempts, h ▸ rfl⟩)
  have unlock (cam' : CameraDev n) : Leads cpu (.handler now)
      ⟨cam', session, pc, .unlocking, doneHeld⟩ ⟨cam', session, pc, .idle, free⟩ := by
    apply Leads.handler now
    intro attempts
    refine ⟨attempts, ?_⟩
    simp only [handlerStep, Place.after, release, moveIrq, release_doneHeld]
  have advance (cam' : CameraDev n) : Leads cpu (.handler now)
      ⟨cam', session, pc, .counting, doneHeld⟩
      ⟨advanceFrameCount cam', session, pc, .unlocking, doneHeld⟩ :=
    .handler now (fun attempts => ⟨attempts, rfl⟩)
  cases hon : cam.streaming with
  | false =>
    rw [show cameraIrqHandler now cam = cam by simp [cameraIrqHandler, hon]]
    exact test .idle (by simp [hon])
  | true =>
    have lock : Leads cpu (.handler now) ⟨cam, session, pc, .entered, free⟩
        ⟨cam, session, pc, .locked, doneHeld⟩ :=
      (test .tested (by simp [hon])).trans (.handler now (fun _ => ⟨_, rfl⟩))
    cases hq : cam.queue.queuedList with
    | nil =>
      rw [show cameraIrqHandler now cam = cam by simp [cameraIrqHandler, hq]]
      have empty : Leads cpu (.handler now) ⟨cam, session, pc, .locked, doneHeld⟩
          ⟨cam, session, pc, .unlocking, doneHeld⟩ :=
        .handler now (fun attempts => ⟨attempts, by simp [handlerStep, Place.after, moveIrq, hq]⟩)
      exact (lock.trans empty).trans (unlock cam)
    | cons vb rest =>
      have pick : Leads cpu (.handler now) ⟨cam, session, pc, .locked, doneHeld⟩
          ⟨cam, session, pc, .picked vb, doneHeld⟩ :=
        .handler now (fun attempts => ⟨attempts, by simp [handlerStep, Place.after, moveIrq, hq]⟩)
      have stamp : Leads cpu (.handler now) ⟨cam, session, pc, .picked vb, doneHeld⟩
          ⟨stampBuffer vb now cam, session, pc, .stamped vb, doneHeld⟩ :=
        .handler now (fun attempts => ⟨attempts, rfl⟩)
      have complete : Leads cpu (.handler now)
          ⟨stampBuffer vb now cam, session, pc, .stamped vb, doneHeld⟩
          ⟨completeBuffer vb (stampBuffer vb now cam), session, pc, .counting, doneHeld⟩ :=
        completeBuffer_leads now (fun hsame => by
          have hnone := hpass hsame
          simpa [completes, hon, hq, stampBuffer] using hnone)
      rw [show cameraIrqHandler now cam =
          advanceFrameCount (completeBuffer vb (stampBuffer vb now cam)) by
        simp [cameraIrqHandler, hon, hq]]
      exact ((((lock.trans pick).trans stamp).trans complete).trans (advance _)).trans (unlock _)

def procOf : Phase → ProcPc n
  | .starting => .startFlagged
  | .stopped | .started => .user

/-- Where an execution is between two steps of the atomic machine. -/
def resting (s : Capture n) : Place n :=
  ⟨s.cam, decide (s.phase ≠ .stopped), procOf s.phase, .idle, free⟩

variable {s t : Capture n}

theorem resting_eq {phase : Phase} (hp : s.phase = phase) :
    resting s = ⟨s.cam, decide (phase ≠ .stopped), procOf phase, .idle, free⟩ := by
  rw [resting, hp]

theorem qbuf_responds (h : CaptureRuns.qbuf b s = some t) :
    Responds cpu (.qbuf b) (resting s) (resting t) := by
  rw [CaptureRuns.qbuf] at h
  split at h
  · cases h
    exact .refused (by simp)
  · next hno =>
    simp only [not_or, not_not] at hno
    obtain ⟨hphase, hstate⟩ := hno
    have hstate' : s.cam.queue.state b = .dequeued := hstate
    split at h
    · next hstarted =>
      obtain ⟨cam, hcam, hs⟩ := Option.map_eq_some_iff.mp h
      have ht : t.cam = cam ∧ t.phase = .started := by
        rw [← hs]
        exact ⟨rfl, hstarted⟩
      rw [resting_eq hstarted, resting_eq ht.2, ht.1]
      have unlock : Leads cpu .proc ⟨cam, true, .bufQueueAdded none, .idle, queuedHeld⟩
          ⟨cam, true, .user, .idle, free⟩ := by
        apply Leads.proc rfl
        intro attempts
        refine ⟨attempts, ?_⟩
        simp only [procStep, Place.after, leaveBufQueue, moveProc, release, release_queuedHeld]
      refine .enter (.qbuf b) ?_ ((bufQueue_leads hcam).trans unlock)
      intro attempts
      simp [CallbackSteps.step, processRuns, Place.after, userStep, CallbackSteps.qbuf, hstate',
        callBufQueue, moveProc, setQueue, procOf]
    · next hrest =>
      cases h
      have hstopped : s.phase = .stopped := by
        cases hp : s.phase with
        | stopped => rfl
        | starting => exact absurd hp hphase
        | started => exact absurd hp hrest
      simp only [resting, hstopped]
      refine .enter (.qbuf b) ?_ (.refl _ _)
      intro attempts
      simp [CallbackSteps.step, processRuns, Place.after, userStep, CallbackSteps.qbuf, hstate',
        setQueue, procOf]

theorem dqbuf_responds (s : Capture n) :
    Responds cpu .dqbuf (resting s) (resting (CaptureRuns.dqbuf s)) := by
  rw [CaptureRuns.dqbuf]
  split
  · next hstarted =>
    split
    · exact .refused (by simp)
    · next b rest hdone =>
      simp only [resting, hstarted]
      intro attempts
      refine ⟨_, attempts, .dqbuf, .single ?_⟩
      simp [Steps, CallbackSteps.step, processRuns, Place.after, userStep, CallbackSteps.dqbuf,
        hdone, setQueue, free, procOf]
  · exact .refused (by simp)

theorem streamon_responds (h : CaptureRuns.streamon s = some t) :
    Responds cpu .streamon (resting s) (resting t) := by
  rw [CaptureRuns.streamon] at h
  split at h
  · next hstopped =>
    obtain ⟨mid, hmid, hs⟩ := Option.map_eq_some_iff.mp h
    have ht : t.cam = raiseStreaming mid.cam ∧ t.phase = .starting := by
      rw [← hs]
      exact ⟨rfl, rfl⟩
    rw [resting_eq hstopped, resting_eq ht.2, ht.1]
    have raise : Leads cpu .proc ⟨mid.cam, true, .startStreaming, .idle, free⟩
        ⟨raiseStreaming mid.cam, true, .startFlagged, .idle, free⟩ :=
      .proc rfl (fun attempts => ⟨attempts, rfl⟩)
    refine .enter .streamon
      (q := handPlace s.cam.queue.queuedList ⟨s.cam, false, .user, .idle, free⟩)
      ?_ ((handOver_leads _ hmid).trans raise)
    intro attempts
    rw [← handOver_after]
    simp [CallbackSteps.step, processRuns, Place.after, userStep, CallbackSteps.streamon, procOf]
  · cases h
    exact .refused (by simp)

theorem startReset_responds (s : Capture n) :
    Responds cpu .startReset (resting s) (resting (startReset s)) := by
  rw [startReset]
  split
  · next hstarting =>
    rw [resting_eq hstarting]
    have reset : Leads cpu .proc ⟨s.cam, true, .startFlagged, .idle, free⟩
        ⟨resetFrameCount s.cam, true, .user, .idle, free⟩ :=
      .proc rfl (fun attempts => ⟨attempts, rfl⟩)
    intro attempts
    obtain ⟨k, attempts', run⟩ := reset attempts
    exact ⟨_, attempts', .startReset k, run⟩
  · exact .refused (by simp)

theorem streamoff_responds (h : CaptureRuns.streamoff s = some t) :
    Responds cpu .streamoff (resting s) (resting t) := by
  rw [CaptureRuns.streamoff] at h
  split at h
  · cases h
    exact .refused (by simp)
  · next hstopped =>
    cases h
    simp only [resting, hstopped]
    refine .enter .streamoff ?_ (.refl _ _)
    intro attempts
    simp [CallbackSteps.step, processRuns, Place.after, userStep, CallbackSteps.streamoff, setQueue,
      procOf]
  · next hstarted =>
    obtain ⟨cam, hcam, hs⟩ := Option.map_eq_some_iff.mp h
    rw [resting_eq hstarted, ← hs]
    refine .enter .streamoff ?_ (stopStreaming_leads hcam)
    intro attempts
    simp [CallbackSteps.step, processRuns, Place.after, userStep, CallbackSteps.streamoff, moveProc,
      procOf]

theorem interrupt_responds (d : ℕ) (s : Capture n) (hpass : cpu = .same → completes s.cam = none) :
    Responds cpu (.interrupt d) (resting s) (resting (CaptureRuns.interrupt d s)) := by
  have hrest : resting (CaptureRuns.interrupt d s) = ⟨cameraIrqHandler (s.clock + d) s.cam,
      decide (s.phase ≠ .stopped), procOf s.phase, .idle, free⟩ := rfl
  rw [hrest, resting]
  refine .enter (.interrupt d (s.clock + d)) ?_ (interrupt_leads (s.clock + d) _ _ _ hpass)
  intro attempts
  simp [CallbackSteps.step, delivered, Place.after, moveIrq, free]

theorem step_responds {a : CaptureRuns.Action n} (hpass : Passes cpu s a)
    (h : CaptureRuns.step s a = some t) : Responds cpu a (resting s) (resting t) := by
  cases a with
  | qbuf b => exact qbuf_responds h
  | dqbuf =>
    cases h
    exact dqbuf_responds s
  | streamon => exact streamon_responds h
  | startReset =>
    cases h
    exact startReset_responds s
  | streamoff => exact streamoff_responds h
  | interrupt d =>
    cases h
    exact interrupt_responds d s hpass

/-- Every run of the atomic machine whose interrupts come to their end is, action for action, a
run of the statements, and the two are in the same state after each action. -/
theorem run_simulated (cpu : Cpu) {as : List (CaptureRuns.Action n)}
    (run : Run (Within (Passes cpu) (Steps CaptureRuns.step)) (Capture.initial n) as s) :
    ∃ bss attempts, List.Forall₂ Answers as bss ∧
      Run (Steps (CallbackSteps.step cpu)) (Execution.initial n) bss.flatten
        ((resting s).after attempts) ∧
      ∀ k, ∃ t attempts,
        Run (Within (Passes cpu) (Steps CaptureRuns.step)) (Capture.initial n) (as.take k) t ∧
        Run (Steps (CallbackSteps.step cpu)) (Execution.initial n) (bss.take k).flatten
          ((resting t).after attempts) := by
  have start : ∃ attempts, Execution.initial n = (resting (Capture.initial n)).after attempts :=
    ⟨[], rfl⟩
  obtain ⟨bss, x, hbss, run', ⟨attempts, rfl⟩, hprefix⟩ := run.simulate_labels
    (fun s x => ∃ attempts, x = (resting s).after attempts) Answers start (by
      intro s a t x hrel hs
      obtain ⟨attempts, rfl⟩ := hrel
      obtain ⟨bs, attempts', hanswer, hrun⟩ := step_responds hs.1 hs.2 attempts
      exact ⟨bs, _, hanswer, hrun, attempts', rfl⟩)
  refine ⟨bss, attempts, hbss, run', fun k => ?_⟩
  obtain ⟨t, y, hcoarse, hfine, attempts', rfl⟩ := hprefix k
  exact ⟨t, attempts', hcoarse, hfine⟩

/-- A session of one frame. -/
theorem run_simulated_frame : ∃ s : Capture 1, s.cam.queue.state 0 = .dequeued ∧
    ∃ bss attempts, List.Forall₂ Answers
        [.qbuf 0, .streamon, .startReset, .interrupt 3, .dqbuf, .streamoff] bss ∧
      Run (Steps (CallbackSteps.step .other)) (Execution.initial 1) bss.flatten
        ((resting s).after attempts) := by
  have heval : (follow CaptureRuns.step (Capture.initial 1)
      [.qbuf 0, .streamon, .startReset, .interrupt 3, .dqbuf, .streamoff]).map
        (fun s => s.cam.queue.state 0) = some .dequeued := by decide
  obtain ⟨s, run, hs⟩ := run_of_follow heval
  have hpass : ∀ (s : Capture 1) a, Passes .other s a := by
    intro s a
    cases a <;> simp [Passes]
  obtain ⟨bss, attempts, hbss, run', -⟩ :=
    run_simulated .other (run.mono (fun s a _ hstep => ⟨hpass s a, hstep⟩))
  exact ⟨s, hs, bss, attempts, hbss, run'⟩

end CameraDrivers.CallbackAtomicity
