import CameraDrivers.CallbackSteps

/-!
# The spinlocks of rpi_camera on one CPU

`stop_streaming` calls `vb2_buffer_done` under `queued_lock`, which takes `done_lock`
inside. The handler calls it under `done_lock` itself: as soon as the buffer it picked is
ACTIVE it spins on the lock it holds. No context takes `queued_lock` under another lock, so
the two locks are never taken in opposite orders.
-/
namespace CameraDrivers.SpinlockDiscipline
open CameraState CameraCallbacks TransitionRuns CallbackSteps

/-- The locks that a context at this statement has taken and not released. -/
def procHolds {n : ℕ} : ProcPc n → Lock → Bool
  | .bufQueueLocked _ _, .queuedLock | .bufQueueAdded _, .queuedLock => true
  | .stopLocked, .queuedLock | .stopLoop _ _, .queuedLock => true
  | .stopDeleted _ _, .queuedLock | .stopChecked _ _, .queuedLock => true
  | .stopCompleting _ _, _ => true
  | .stopNext _, .queuedLock | .stopDrained, .queuedLock => true
  | _, _ => false

def irqHolds {n : ℕ} : IrqPc n → Lock → Bool
  | .idle, _ | .entered, _ | .tested, _ => false
  | _, .doneLock => true
  | _, .queuedLock => false

variable {n : ℕ}

def holds (x : Execution n) : Context → Lock → Bool
  | .process => procHolds x.proc
  | .interrupt => irqHolds x.irq

/-- The lock words agree with where the two contexts are. -/
def Locks (x : Execution n) : Prop := ∀ c l, x.holder l = some c ↔ holds x c l = true

/-- An attempt to take `l` that the source makes: `queued_lock` is an outermost lock, the
handler takes `done_lock` only, and it is the only one to take a lock that it holds. -/
structure Takes (c : Context) (l : Lock) (x : Execution n) : Prop where
  outer : l = .queuedLock → ∀ k, holds x c k = false
  inner : c = .interrupt → l = .doneLock
  again : holds x c l = true → ∃ vb, x.irq = .checked vb ∧ c = .interrupt

/-- What a statement of context `c` does to the locks. -/
inductive LockMove (c : Context) (x y : Execution n) : Prop
  | keep (holder : y.holder = x.holder) (attempts : y.attempts = x.attempts)
      (same : holds y = holds x)
  | take (l : Lock) (takes : Takes c l x) (free : x.holder l = none)
      (holder : y.holder = Function.update x.holder l (some c))
      (attempts : y.attempts = x.attempts ++ [⟨c, l, none, heldBy c x⟩])
      (taken : holds y = Function.update (holds x) c (Function.update (holds x c) l true))
  | spin (l : Lock) (takes : Takes c l x) (k : Context) (blocked : x.holder l = some k)
      (same : y = { x with attempts := x.attempts ++ [⟨c, l, some k, heldBy c x⟩] })
  | drop (l : Lock) (held : holds x c l = true)
      (holder : y.holder = Function.update x.holder l none) (attempts : y.attempts = x.attempts)
      (dropped : holds y = Function.update (holds x) c (Function.update (holds x c) l false))

variable {x y : Execution n} {c : Context} {l : Lock} {cpu : Cpu} {a : Action n}

theorem locks_initial (n : ℕ) : Locks (Execution.initial n) := by
  intro c l
  cases c <;> cases l <;> simp [Execution.initial, holds, procHolds, irqHolds]

theorem Locks.move (h : Locks x) (hm : LockMove c x y) : Locks y := by
  intro d k
  cases hm with
  | keep holder _ same => rw [holder, same, h]
  | spin l _ k' blocked same =>
    subst same
    exact h d k
  | take l _ free holder _ taken =>
    have hno : ∀ e, holds x e l = false := by
      intro e
      have he := h e l
      rw [free] at he
      simpa using he
    rw [holder, taken]
    by_cases hk : k = l
    · subst hk
      by_cases hd : d = c
      · simp [hd]
      · simp [hd, hno, Ne.symm hd]
    · by_cases hd : d = c
      · subst hd
        simp [hk, h d k]
      · simp [hk, hd, h d k]
  | drop l held holder _ dropped =>
    rw [holder, dropped]
    by_cases hk : k = l
    · subst hk
      by_cases hd : d = c
      · simp [hd]
      · have hother : holds x d k ≠ true := by
          intro he
          have hsame := (h d k).mpr he
          rw [(h c k).mpr held] at hsame
          exact hd (Option.some.inj hsame).symm
        simpa [hd] using hother
    · by_cases hd : d = c
      · subst hd
        simp [hk, h d k]
      · simp [hk, hd, h d k]

theorem holds_congr (hp : procHolds y.proc = procHolds x.proc)
    (hi : irqHolds y.irq = irqHolds x.irq) : holds y = holds x := by
  funext c
  cases c
  · exact hp
  · exact hi

theorem holds_process {f : Lock → Bool} (hp : procHolds y.proc = f)
    (hi : irqHolds y.irq = irqHolds x.irq) :
    holds y = Function.update (holds x) .process f := by
  funext c
  cases c
  · exact hp
  · exact hi

theorem holds_interrupt {f : Lock → Bool} (hi : irqHolds y.irq = f)
    (hp : procHolds y.proc = procHolds x.proc) :
    holds y = Function.update (holds x) .interrupt f := by
  funext c
  cases c
  · exact hp
  · exact hi

/-- A spinlock is taken when it is free, and the context spins otherwise. -/
theorem lockMove_acquireProc {pc : ProcPc n} (takes : Takes .process l x)
    (inside : ∀ k, procHolds pc k = Function.update (procHolds x.proc) l true k) :
    LockMove .process x (acquire .process l (moveProc pc) x) := by
  cases hl : x.holder l with
  | none =>
    refine .take l takes hl (by simp [acquire, hl]) (by simp [acquire, hl, moveProc])
      (holds_process ?_ (by simp [acquire, hl, moveProc]))
    simpa [acquire, hl, moveProc, holds] using funext inside
  | some k => exact .spin l takes k hl (by simp [acquire, hl])

theorem lockMove_acquireIrq {pc : IrqPc n} (takes : Takes .interrupt l x)
    (inside : ∀ k, irqHolds pc k = Function.update (irqHolds x.irq) l true k) :
    LockMove .interrupt x (acquire .interrupt l (moveIrq pc) x) := by
  cases hl : x.holder l with
  | none =>
    refine .take l takes hl (by simp [acquire, hl]) (by simp [acquire, hl, moveIrq])
      (holds_interrupt ?_ (by simp [acquire, hl, moveIrq]))
    simpa [acquire, hl, moveIrq, holds] using funext inside
  | some k => exact .spin l takes k hl (by simp [acquire, hl])

theorem handOver_move (ws : List (Fin n)) (x : Execution n) :
    (handOver ws x).holder = x.holder ∧ (handOver ws x).attempts = x.attempts ∧
      (handOver ws x).irq = x.irq ∧ procHolds (handOver ws x).proc = fun _ => false := by
  cases ws <;> exact ⟨rfl, rfl, rfl, funext (fun k => by cases k <;> rfl)⟩

theorem leaveBufQueue_move (rest : Option (List (Fin n))) (x : Execution n) :
    (leaveBufQueue rest x).holder = x.holder ∧ (leaveBufQueue rest x).attempts = x.attempts ∧
      (leaveBufQueue rest x).irq = x.irq ∧
      procHolds (leaveBufQueue rest x).proc = fun _ => false := by
  cases rest with
  | none => exact ⟨rfl, rfl, rfl, funext (fun k => by cases k <;> rfl)⟩
  | some ws => exact handOver_move ws x

theorem lockMove_keepProc (holder : y.holder = x.holder) (attempts : y.attempts = x.attempts)
    (irq : y.irq = x.irq) (proc : ∀ k, procHolds y.proc k = procHolds x.proc k) :
    LockMove .process x y ∧ y.irq = x.irq :=
  ⟨.keep holder attempts (holds_congr (funext proc) (by rw [irq])), irq⟩

theorem lockMove_keepIrq (holder : y.holder = x.holder) (attempts : y.attempts = x.attempts)
    (proc : y.proc = x.proc) (irq : ∀ k, irqHolds y.irq k = irqHolds x.irq k) :
    LockMove .interrupt x y ∧ y.proc = x.proc :=
  ⟨.keep holder attempts (holds_congr (by rw [proc]) (funext irq)), proc⟩

theorem acquireProc_irq {pc : ProcPc n} : (acquire .process l (moveProc pc) x).irq = x.irq := by
  rw [acquire]
  split <;> rfl

theorem acquireIrq_proc {pc : IrqPc n} : (acquire .interrupt l (moveIrq pc) x).proc = x.proc := by
  rw [acquire]
  split <;> rfl

theorem procStep_move (h : procStep x = some y) : LockMove .process x y ∧ y.irq = x.irq := by
  rw [procStep] at h
  split at h
  case h_1 => cases h
  case h_2 hp | h_8 hp =>
    cases h
    have takes : Takes .process .queuedLock x := ⟨by simp [holds, hp, procHolds], by simp,
      by simp [holds, hp, procHolds]⟩
    refine ⟨lockMove_acquireProc takes (fun k => ?_), acquireProc_irq⟩
    cases k <;> simp [hp, procHolds]
  case h_13 hp =>
    cases h
    have takes : Takes .process .doneLock x := ⟨by simp, by simp, by simp [holds, hp, procHolds]⟩
    refine ⟨lockMove_acquireProc takes (fun k => ?_), acquireProc_irq⟩
    cases k <;> simp [hp, procHolds]
  case h_4 rest hp =>
    cases h
    obtain ⟨hh, ha, hi, hl⟩ := leaveBufQueue_move rest (release .queuedLock x)
    refine ⟨.drop .queuedLock (by simp [holds, hp, procHolds]) hh ha
      (holds_process (hl.trans (funext (fun k => ?_))) (by rw [hi]; rfl)), hi⟩
    cases k <;> simp [holds, hp, procHolds]
  case h_14 hp =>
    cases h
    refine ⟨.drop .doneLock (by simp [holds, hp, procHolds]) rfl rfl (holds_process ?_ rfl), rfl⟩
    funext k
    cases k <;> simp [holds, hp, procHolds, release, moveProc]
  case h_16 hp =>
    cases h
    refine ⟨.drop .queuedLock (by simp [holds, hp, procHolds]) rfl rfl (holds_process ?_ rfl), rfl⟩
    funext k
    cases k <;> simp [holds, hp, procHolds, release]
  case h_3 hp | h_11 hp =>
    obtain ⟨_, -, rfl⟩ := Option.map_eq_some_iff.mp h
    refine lockMove_keepProc rfl rfl rfl (fun k => ?_)
    cases k <;> simp [hp, procHolds]
  case h_9 hp | h_12 hp | h_15 hp =>
    split at h <;> cases h
    all_goals
      refine lockMove_keepProc rfl rfl rfl (fun k => ?_)
      cases k <;> simp [hp, procHolds, moveProc]
  case h_5 hp | h_6 hp | h_7 hp | h_10 hp | h_17 hp =>
    cases h
    refine lockMove_keepProc rfl rfl rfl (fun k => ?_)
    cases k <;> simp [hp, procHolds, moveProc]

theorem handlerStep_move {now : ℕ} (h : handlerStep cpu now x = some y) :
    LockMove .interrupt x y ∧ y.proc = x.proc := by
  rw [handlerStep] at h
  split at h
  case h_1 => cases h
  case h_2 hp =>
    cases h
    refine lockMove_keepIrq rfl rfl rfl (fun k => ?_)
    cases k <;> cases x.cam.streaming <;> simp [hp, irqHolds, moveIrq]
  case h_3 hp =>
    cases h
    have takes : Takes .interrupt .doneLock x := ⟨by simp, by simp, by simp [holds, hp, irqHolds]⟩
    refine ⟨lockMove_acquireIrq takes (fun k => ?_), acquireIrq_proc⟩
    cases k <;> simp [hp, irqHolds]
  case h_6 vb hp =>
    cases h
    refine lockMove_keepIrq rfl rfl rfl (fun k => ?_)
    by_cases hb : x.cam.queue.state vb = .active <;> cases k <;> simp [hp, hb, irqHolds, moveIrq]
  case h_7 vb hp =>
    split at h <;> cases h
    · have takes : Takes .interrupt .doneLock x := ⟨by simp, by simp, fun _ => ⟨vb, hp, rfl⟩⟩
      refine ⟨lockMove_acquireIrq takes (fun k => ?_), acquireIrq_proc⟩
      cases k <;> simp [hp, irqHolds]
    · refine lockMove_keepIrq rfl rfl rfl (fun k => ?_)
      cases k <;> simp [hp, irqHolds, moveIrq]
  case h_4 hp =>
    split at h <;> cases h
    all_goals
      refine lockMove_keepIrq rfl rfl rfl (fun k => ?_)
      cases k <;> simp [hp, irqHolds, moveIrq]
  case h_5 hp | h_8 hp | h_9 hp =>
    cases h
    refine lockMove_keepIrq rfl rfl rfl (fun k => ?_)
    cases k <;> simp [hp, irqHolds, moveIrq, setQueue]
  case h_10 hp =>
    cases h
    refine ⟨.drop .doneLock (by simp [holds, hp, irqHolds]) rfl rfl (holds_interrupt ?_ rfl), rfl⟩
    funext k
    cases k <;> simp [holds, hp, irqHolds, release, moveIrq]

theorem userStep_move (hu : x.proc = .user) (h : userStep x a = some y) :
    LockMove .process x y ∧ y.irq = x.irq := by
  cases a with
  | qbuf b =>
    simp only [userStep, qbuf, Option.ite_none_right_eq_some, Option.some.injEq] at h
    obtain ⟨-, rfl⟩ := h
    split
    all_goals
      refine lockMove_keepProc rfl rfl rfl (fun k => ?_)
      cases k <;> simp [hu, procHolds, callBufQueue, moveProc, setQueue]
  | dqbuf =>
    simp only [userStep, dqbuf, Option.ite_none_right_eq_some] at h
    obtain ⟨-, h⟩ := h
    split at h <;> cases h
    exact lockMove_keepProc rfl rfl rfl (fun _ => rfl)
  | streamon =>
    simp only [userStep, streamon, Option.ite_none_left_eq_some, Option.some.injEq] at h
    obtain ⟨-, rfl⟩ := h
    obtain ⟨hh, ha, hi, hl⟩ := handOver_move x.cam.queue.queuedList x
    refine lockMove_keepProc hh ha hi (fun k => ?_)
    rw [hl]
    cases k <;> simp [hu, procHolds]
  | streamoff =>
    cases h
    rw [streamoff]
    split
    all_goals
      refine lockMove_keepProc rfl rfl rfl (fun k => ?_)
      cases k <;> simp [hu, procHolds, moveProc, setQueue]
  | proc | irq | handler now => cases h

/-- The process moves, or the handler, or an interrupt is delivered. -/
theorem step_cases (h : step cpu x a = some y) :
    (LockMove .process x y ∧ y.irq = x.irq ∧ processRuns cpu x) ∨
    (∃ now, a = .handler now ∧ handlerStep cpu now x = some y ∧ LockMove .interrupt x y ∧
      y.proc = x.proc) ∨
    (a = .irq ∧ delivered cpu x ∧ y = moveIrq .entered x ∧ LockMove .interrupt x y) := by
  cases a with
  | irq =>
    simp only [step, Option.ite_none_right_eq_some, Option.some.injEq] at h
    obtain ⟨hd, rfl⟩ := h
    have hsame : ∀ k, irqHolds (.entered : IrqPc n) k = irqHolds x.irq k := by
      simp [hd.1, irqHolds]
    exact .inr (.inr ⟨rfl, hd, rfl, .keep rfl rfl (holds_congr rfl (funext hsame))⟩)
  | handler now => exact .inr (.inl ⟨now, rfl, h, handlerStep_move h⟩)
  | proc =>
    simp only [step, Option.ite_none_right_eq_some] at h
    obtain ⟨hm, hi⟩ := procStep_move h.2
    exact .inl ⟨hm, hi, h.1⟩
  | qbuf b | dqbuf | streamon | streamoff =>
    simp only [step, Option.ite_none_right_eq_some] at h
    obtain ⟨hm, hi⟩ := userStep_move h.1.2 h.2
    exact .inl ⟨hm, hi, h.1.1⟩

/-- Attempts that would let two contexts wait for each other, or for themselves, are absent. -/
structure Clear (x : Execution n) : Prop where
  free : ∀ a ∈ x.attempts, a.holder ≠ some a.taker ∧
    (a.taker = .interrupt → a.holder ≠ some .process)
  ordered : ¬ ∃ a ∈ x.attempts, ∃ b ∈ x.attempts,
    a.lock ≠ b.lock ∧ b.lock ∈ a.held ∧ a.lock ∈ b.held

/-- What every run on one CPU keeps. -/
structure Disciplined (x : Execution n) : Prop where
  locks : Locks x
  outermost : ∀ a ∈ x.attempts, a.lock = .queuedLock → a.held = []
  enabled : x.irq ≠ .idle → x.holder .doneLock ≠ some .process

theorem Locks.heldBy_nil (h : Locks x) (hc : ∀ k, holds x c k = false) : heldBy c x = [] := by
  simp [heldBy, h c, hc]

/-- `queued_lock` stays an outermost lock. -/
theorem outermost_move (h : Locks x) (ho : ∀ a ∈ x.attempts, a.lock = .queuedLock → a.held = [])
    (hm : LockMove c x y) : ∀ a ∈ y.attempts, a.lock = .queuedLock → a.held = [] := by
  cases hm with
  | keep _ attempts _ | drop _ _ _ attempts _ =>
    rw [attempts]
    exact ho
  | take l takes _ _ attempts _ =>
    rw [attempts]
    simp only [List.forall_mem_append, List.forall_mem_singleton]
    exact ⟨ho, fun hl => h.heldBy_nil (takes.outer hl)⟩
  | spin l takes k _ same =>
    subst same
    simp only [List.forall_mem_append, List.forall_mem_singleton]
    exact ⟨ho, fun hl => h.heldBy_nil (takes.outer hl)⟩

theorem handler_keeps_enabled (hm : LockMove .interrupt x y)
    (h : x.holder .doneLock ≠ some .process) : y.holder .doneLock ≠ some .process := by
  cases hm with
  | keep holder _ _ => rwa [holder]
  | take l takes _ holder _ _ =>
    rw [holder, takes.inner rfl]
    simp
  | spin _ _ _ _ same =>
    subst same
    exact h
  | drop l held holder _ _ =>
    rw [holder]
    cases l <;> simp [h]

theorem disciplined_initial (n : ℕ) : Disciplined (Execution.initial n) where
  locks := locks_initial n
  outermost := by simp [Execution.initial]
  enabled := by simp [Execution.initial]

theorem disciplined_step (h : Disciplined x) (hs : step .same x a = some y) : Disciplined y := by
  rcases step_cases hs with ⟨hm, hi, hr⟩ | ⟨now, -, hh, hm, -⟩ | ⟨-, hd, rfl, hm⟩
  · refine ⟨h.locks.move hm, outermost_move h.locks h.outermost hm, fun hne => ?_⟩
    rw [hi] at hne
    exact absurd (hr.resolve_left (by simp)) hne
  · refine ⟨h.locks.move hm, outermost_move h.locks h.outermost hm, fun _ => ?_⟩
    refine handler_keeps_enabled hm (h.enabled ?_)
    rintro hidle
    simp [handlerStep, hidle] at hh
  · exact ⟨h.locks.move hm, outermost_move h.locks h.outermost hm, fun _ => hd.2 rfl⟩

theorem Disciplined.ordered (h : Disciplined x) : ¬ ∃ a ∈ x.attempts, ∃ b ∈ x.attempts,
    a.lock ≠ b.lock ∧ b.lock ∈ a.held ∧ a.lock ∈ b.held := by
  rintro ⟨a, ha, b, hb, hne, hba, hab⟩
  cases hal : a.lock with
  | queuedLock => simp [h.outermost a ha hal] at hba
  | doneLock =>
    have hbl : b.lock = .queuedLock := by
      cases hbl : b.lock <;> simp_all
    simp [h.outermost b hb hbl] at hab

/-- No interrupt is delivered while it has an ACTIVE buffer to complete: the flag is set and
the first buffer on vb2's list is ACTIVE. -/
def nothingToComplete (x : Execution n) : Action n → Prop
  | .irq => completes x.cam = none
  | _ => True

instance (x : Execution n) (a : Action n) : Decidable (nothingToComplete x a) :=
  match a with
  | .irq => inferInstanceAs (Decidable (_ = _))
  | .qbuf _ | .dqbuf | .streamon | .streamoff | .proc | .handler _ => isTrue trivial

/-- The handler has not picked an ACTIVE buffer, and is not about to. -/
def Harmless (x : Execution n) : Prop :=
  match x.irq with
  | .entered => completes x.cam = none
  | .tested | .locked => ∀ vb rest, x.cam.queue.queuedList = vb :: rest →
      x.cam.queue.state vb ≠ .active
  | .picked vb | .stamped vb => x.cam.queue.state vb ≠ .active
  | .checked _ | .completing _ => False
  | _ => True

theorem harmless_handler {now : ℕ} (h : Harmless x) (hs : handlerStep cpu now x = some y) :
    Harmless y := by
  rw [handlerStep] at hs
  split at hs
  case h_1 => cases hs
  case h_2 hp =>
    cases hs
    simp only [Harmless, hp] at h
    cases hf : x.cam.streaming with
    | false => simp [Harmless, moveIrq]
    | true =>
      simp only [Harmless, moveIrq, ↓reduceIte]
      intro vb rest hq
      simpa [completes, hf, hq] using h
  case h_3 hp =>
    cases hs
    simp only [Harmless, hp] at h
    cases hl : x.holder .doneLock <;> simpa [acquire, hl, Harmless, moveIrq, hp] using h
  case h_4 hp =>
    simp only [Harmless, hp] at h
    split at hs <;> cases hs
    · simp [Harmless, moveIrq]
    · next vb rest hq => exact h vb rest hq
  case h_5 vb hp =>
    cases hs
    simp only [Harmless, hp] at h
    simpa [Harmless, stampBuffer] using h
  case h_6 vb hp =>
    cases hs
    simp only [Harmless, hp] at h
    simp [Harmless, moveIrq, h]
  case h_7 hp | h_8 hp => simp [Harmless, hp] at h
  case h_9 | h_10 =>
    cases hs
    simp [Harmless, moveIrq, release]

structure Quiet (x : Execution n) : Prop where
  disciplined : Disciplined x
  harmless : Harmless x
  free : ∀ a ∈ x.attempts, a.holder = none

theorem Quiet.clear (h : Quiet x) : Clear x where
  free a ha := by simp [h.free a ha]
  ordered := h.disciplined.ordered

/-- A context that would spin on one CPU is the handler, on the lock that it holds. -/
theorem Disciplined.no_spin (h : Disciplined x) {k : Context} (takes : Takes c l x)
    (blocked : x.holder l = some k) (running : c = .process ↔ x.irq = .idle) :
    ∃ vb, x.irq = .checked vb ∧ c = .interrupt := by
  have hk := (h.locks k l).mp blocked
  by_cases hkc : k = c
  · exact takes.again (hkc ▸ hk)
  · cases c with
    | process =>
      cases k with
      | process => exact absurd rfl hkc
      | interrupt => simp [holds, running.mp rfl, irqHolds] at hk
    | interrupt =>
      cases k with
      | interrupt => exact absurd rfl hkc
      | process =>
        obtain rfl := takes.inner rfl
        exact absurd blocked (h.enabled (fun hidle => by simpa using running.mpr hidle))

/-- Where nobody spins, every attempt found its lock free. -/
theorem free_move (h : ∀ a ∈ x.attempts, a.holder = none) (hm : LockMove c x y)
    (hno : ∀ l k, Takes c l x → x.holder l ≠ some k) : ∀ a ∈ y.attempts, a.holder = none := by
  cases hm with
  | keep _ attempts _ | drop _ _ _ attempts _ => rwa [attempts]
  | take l _ _ _ attempts _ =>
    rw [attempts]
    simp only [List.forall_mem_append, List.forall_mem_singleton, and_true]
    exact h
  | spin l takes k blocked _ => exact absurd blocked (hno l k takes)

theorem quiet_initial (n : ℕ) : Quiet (Execution.initial n) :=
  ⟨disciplined_initial n, by simp [Harmless, Execution.initial], by simp [Execution.initial]⟩

theorem quiet_step (h : Quiet x) (hok : nothingToComplete x a) (hs : step .same x a = some y) :
    Quiet y := by
  have hd := disciplined_step h.disciplined hs
  have hno : ∀ c, (c = .process ↔ x.irq = .idle) → ∀ l k, Takes c l x → x.holder l ≠ some k := by
    intro c running l k takes blocked
    obtain ⟨vb, hc, -⟩ := h.disciplined.no_spin takes blocked running
    simpa [Harmless, hc] using h.harmless
  rcases step_cases hs with ⟨hm, hi, hr⟩ | ⟨now, -, hh, hm, -⟩ | ⟨rfl, hdel, rfl, hm⟩
  · have hidle := hr.resolve_left (by simp)
    exact ⟨hd, by simp [Harmless, hi, hidle], free_move h.free hm (hno _ (by simp [hidle]))⟩
  · have hbusy : x.irq ≠ .idle := by
      intro hidle
      simp [handlerStep, hidle] at hh
    exact ⟨hd, harmless_handler h.harmless hh, free_move h.free hm (hno _ (by simp [hbusy]))⟩
  · exact ⟨hd, hok, h.free⟩

theorem completes_some {cam : CameraDev n} {b : Fin n} (h : completes cam = some b) :
    ∃ rest, cam.streaming = true ∧ cam.queue.queuedList = b :: rest ∧
      cam.queue.state b = .active := by
  rcases cameraIrqHandler_cases 0 cam with ⟨-, hc, -⟩ | ⟨vb, rest, hs, hq, hb, hc, -⟩ |
      ⟨vb, rest, -, -, -, hc, -⟩ <;> rw [hc] at h
  · cases h
  · cases h
    exact ⟨rest, hs, hq, hb⟩
  · cases h

/-- Six statements into an interrupt that has a buffer to complete, the handler is inside
`vb2_buffer_done` and tries to take `done_lock`, which it took itself. -/
theorem handler_blocks (h : Disciplined x) (hs : step .same x .irq = some y)
    (hc : completes x.cam ≠ none) (now : ℕ) :
    ∃ z, follow (step .same) y (List.replicate 6 (.handler now)) = some z ∧
      ⟨.interrupt, .doneLock, some .interrupt, [.doneLock]⟩ ∈ z.attempts := by
  obtain ⟨b, hb⟩ := Option.ne_none_iff_exists'.mp hc
  obtain ⟨rest, hf, hq, hact⟩ := completes_some hb
  simp only [step, Option.ite_none_right_eq_some, Option.some.injEq] at hs
  obtain ⟨hd, rfl⟩ := hs
  have hfree : x.holder .doneLock = none := by
    cases hh : x.holder .doneLock with
    | none => rfl
    | some c =>
      have hc := (h.locks c .doneLock).mp hh
      cases c with
      | process => exact absurd hh (hd.2 rfl)
      | interrupt => simp [holds, hd.1, irqHolds] at hc
  have hqueued : x.holder .queuedLock ≠ some .interrupt := by
    intro hh
    simpa [holds, hd.1, irqHolds] using (h.locks .interrupt .queuedLock).mp hh
  simp [List.replicate, follow, step, handlerStep, moveIrq, acquire, heldBy, stampBuffer, hf, hq,
    hact, hfree, hqueued]

/-- On one CPU, a run whose interrupts find nothing to complete keeps the locks clear in
every state that it reaches. In any run, an interrupt that does find a buffer to complete
ends in a state that is not clear, six statements later. -/
theorem clear_run (n : ℕ) :
    (∀ as x, Run (Within nothingToComplete (Steps (step .same))) (Execution.initial n) as x →
      Run (Reaching Clear (Steps (step .same))) (Execution.initial n) as x) ∧
    ∀ x y, Reachable (Steps (step .same)) (Execution.initial n) x → step .same x .irq = some y →
      ¬ nothingToComplete x .irq →
      ∃ z, follow (step .same) y (List.replicate 6 (.handler 0)) = some z ∧ ¬ Clear z := by
  constructor
  · intro as x run
    exact run.reaching Quiet (quiet_initial n) (fun _ _ _ => quiet_step) (fun _ => Quiet.clear)
  · intro x y reach hs hbad
    have hd : Disciplined x :=
      reach.invariant Disciplined (disciplined_initial n) (fun _ _ _ => disciplined_step)
    obtain ⟨z, hz, hm⟩ := handler_blocks hd hs hbad 0
    exact ⟨z, hz, fun hclear => (hclear.free _ hm).1 rfl⟩

/-- QBUF and STREAMON, with an interrupt that preempts `buf_queue` inside `queued_lock`. -/
theorem clear_run_one : ∃ (as : List (Action 1)) (x : Execution 1),
    Run (Reaching Clear (Steps (step .same))) (Execution.initial 1) as x ∧
      x.attempts.map (fun a => (a.taker, a.lock)) = [(.process, .queuedLock)] := by
  let as : List (Action 1) := [.qbuf 0, .streamon, .proc, .irq, .handler 1, .proc]
  have run : (follow (guarded nothingToComplete (step .same)) (Execution.initial 1) as).map
      (fun x => x.attempts.map (fun a => (a.taker, a.lock))) =
        some [(.process, .queuedLock)] := by decide
  obtain ⟨x, hf, hx⟩ := Option.map_eq_some_iff.mp run
  exact ⟨as, x, (clear_run 1).1 as x (run_within_steps_iff.mpr hf), hx⟩

/-- The first frame interrupt of a session with one buffer blocks the CPU. -/
theorem first_interrupt_blocks : ¬ ∀ (n : ℕ) (as : List (Action n)) (x : Execution n),
    Run (Steps (step .same)) (Execution.initial n) as x → Clear x := by
  intro hall
  let as : List (Action 1) := List.flatten [[.qbuf 0, .streamon], List.replicate 5 .proc,
    .irq :: List.replicate 6 (.handler 1)]
  have run : (follow (step .same) (Execution.initial 1) as).map
      (fun x => x.attempts.getLast?) =
        some (some ⟨.interrupt, .doneLock, some .interrupt, [.doneLock]⟩) := by decide
  obtain ⟨x, hf, hx⟩ := Option.map_eq_some_iff.mp run
  exact ((hall 1 as x (run_steps_iff.mpr hf)).free _ (List.mem_of_getLast? hx)).1 rfl

end CameraDrivers.SpinlockDiscipline
