import CameraDrivers.HandlerSteps

/-!
# The status latch that unicam_isr clears

Events set bits of ISTA at any time, also between the read of the handler and its clearing
write. The executions of the handler do not overlap, and each of them is charged with what its
statements read, store and return.
-/
namespace CameraDrivers.FrameEndLatch
open TransitionRuns UnicamState UnicamIoctl StreamingAgreement ReadCoherence HandlerSteps

/-- The status that an execution read, the bits of ISTA it cleared, the times that FEI went from
set to clear, the samples of IBWP and the increments of the counter. -/
structure Execution where
  ista : BitVec 32
  cleared : BitVec 32
  falls : ℕ
  samples : ℕ
  increments : ℕ
  deriving DecidableEq

/-- What a statement of the handler does: where it leads, what it leaves, the registers that it read
with their values, and the return value if it is the last one. -/
structure Statement where
  pc : IsrPc
  dev : UnicamDevice
  reads : List (BitVec 32 × BitVec 32)
  ret : Option Bool

/-- `finished` has the return values with the executions. From `frameEnds` on it is history: the
frame ends so far, those of them that found FEI set, and the times that FEI went from set to
clear outside the statements of the handler. -/
structure Interrupts where
  dev : UnicamDevice
  isr : IsrPc
  running : Execution
  finished : List (Execution × Bool)
  frameEnds : ℕ
  merged : ℕ
  stray : ℕ

inductive Action
  | hardware (status ibwp : BitVec 32)
  | isr

variable (m : RegisterMap)

def frameEnd (status : BitVec 32) : Bool := status &&& m.fei != 0

def Execution.blank : Execution := ⟨0, 0, 0, 0, 0⟩

def Interrupts.start (dev : UnicamDevice) : Interrupts := ⟨dev, .idle, .blank, [], 0, 0, 0⟩

/-- `unicam_reg_read`, with the rest of the statement, which gets the value. -/
def readThen (dev : UnicamDevice) (reg : BitVec 32) (rest : BitVec 32 → Statement) : Statement :=
  let value := unicamRegRead dev reg
  { rest value with reads := (reg, value) :: (rest value).reads }

/-- The statements of `HandlerSteps.handlerStep` with what they read and return. -/
def statement (pc : IsrPc) (dev : UnicamDevice) : Statement :=
  match pc with
  | .idle => readThen dev m.ista (fun ista =>
      if ista = 0 then ⟨.idle, dev, [], some false⟩ else ⟨.clear ista, dev, [], none⟩)
  | .clear ista => ⟨.sample ista, unicamRegWrite m dev m.ista ista, [], none⟩
  | .sample ista =>
    if ista &&& m.fei ≠ 0 then
      readThen dev m.ibwp (fun ptr => ⟨.count, { dev with currentWritePtr := ptr }, [], none⟩)
    else ⟨.idle, dev, [], some true⟩
  | .count => ⟨.idle, { dev with frameCount := dev.frameCount + 1 }, [], some true⟩

def falls (dev dev' : UnicamDevice) : ℕ :=
  (frameEnd m (dev.regs m.ista) && !frameEnd m (dev'.regs m.ista)).toNat

/-- One more statement, from the device `dev`. A read of IBWP is a sample when its value stands in
`current_write_ptr` behind the statement. -/
def Execution.charge (dev : UnicamDevice) (s : Statement) (e : Execution) : Execution where
  ista := (s.reads.lookup m.ista).getD e.ista
  cleared := e.cleared ||| (dev.regs m.ista &&& ~~~s.dev.regs m.ista)
  falls := e.falls + FrameEndLatch.falls m dev s.dev
  samples := e.samples + s.reads.count (m.ibwp, s.dev.currentWritePtr)
  increments := e.increments + (s.dev.frameCount - dev.frameCount).toNat

def isr (x : Interrupts) : Interrupts :=
  let s := statement m x.isr x.dev
  let e := x.running.charge m x.dev s
  match s.ret with
  | none => { x with dev := s.dev, isr := s.pc, running := e }
  | some handled => { x with
      dev := s.dev, isr := s.pc, running := .blank, finished := x.finished ++ [(e, handled)] }

def hardware (status ibwp : BitVec 32) (x : Interrupts) : Interrupts :=
  let dev := raiseStatus m x.dev (x.dev.regs m.ista ||| status) ibwp
  { x with
    dev := dev
    frameEnds := x.frameEnds + (frameEnd m status).toNat
    merged := x.merged + (frameEnd m status && frameEnd m (x.dev.regs m.ista)).toNat
    stray := x.stray + falls m x.dev dev }

def advance (x : Interrupts) : Action → Interrupts
  | .hardware status ibwp => hardware m status ibwp x
  | .isr => isr m x

def step (x : Interrupts) (a : Action) (y : Interrupts) : Prop := advance m x a = y

def increments (x : Interrupts) : ℕ :=
  (x.finished.map (fun e => e.1.increments)).sum + x.running.increments

/-- The frame ends that the handler has cleared from the latch and not counted yet. -/
def pending : IsrPc → ℕ
  | .idle | .clear _ => 0
  | .sample ista => (frameEnd m ista).toNat
  | .count => 1

/-- The statements left to the handler. -/
def remaining : IsrPc → ℕ
  | .idle => 0
  | .clear _ => 3
  | .sample _ => 2
  | .count => 1

/-- An execution that has returned: one increment and one sample for each time FEI fell in it,
no bit cleared that it did not read as set, and IRQ_NONE only if it read 0 and did nothing. -/
structure Matched (e : Execution) (handled : Bool) : Prop where
  once : e.falls ≤ 1
  counted : e.increments = e.falls
  sampled : e.samples = e.falls
  only_read : e.cleared &&& ~~~e.ista = 0
  handled_iff : handled = true ↔ e.ista ≠ 0
  quiet : e.ista = 0 → e = .blank

/-- What holds of a state that a run from `dev` reaches. -/
structure Exact (dev : UnicamDevice) (x : Interrupts) : Prop where
  matched : ∀ e ∈ x.finished, Matched e.1 e.2
  stray : x.stray = 0
  only_read : x.running.cleared &&& ~~~x.running.ista = 0
  owed : x.running.falls = x.running.increments + pending m x.isr
  returns : x.isr ≠ .idle → remaining (statement m x.isr x.dev).pc < remaining x.isr
  quiet : x.isr = .idle → x.dev.regs m.ista = 0 →
    statement m x.isr x.dev = ⟨.idle, x.dev, [(m.ista, 0)], some false⟩
  bounded : increments x ≤ x.frameEnds
  all : x.isr = .idle → frameEnd m (x.dev.regs m.ista) = false → x.merged = 0 →
    increments x = x.frameEnds
  counter : x.dev.frameCount = dev.frameCount + BitVec.ofNat 32 (increments x)

/-- The execution under way at each position of the handler, over the status of the device. -/
inductive Progress (status : BitVec 32) : IsrPc → Execution → Prop
  | idle : Progress status .idle .blank
  | clear {ista : BitVec 32} (read : ista ≠ 0)
      (still : frameEnd m ista = true → frameEnd m status = true) :
      Progress status (.clear ista) ⟨ista, 0, 0, 0, 0⟩
  | sample {ista cleared : BitVec 32} (read : ista ≠ 0) (only_read : cleared &&& ~~~ista = 0) :
      Progress status (.sample ista) ⟨ista, cleared, (frameEnd m ista).toNat, 0, 0⟩
  | count {ista cleared : BitVec 32} (read : ista ≠ 0) (only_read : cleared &&& ~~~ista = 0) :
      Progress status .count ⟨ista, cleared, 1, 1, 0⟩

/-- Every frame end is counted, cleared and not counted yet, in the latch, or was merged with
one that was. -/
structure Inv (dev : UnicamDevice) (x : Interrupts) : Prop where
  matched : ∀ e ∈ x.finished, Matched e.1 e.2
  progress : Progress m (x.dev.regs m.ista) x.isr x.running
  stray : x.stray = 0
  balance : x.frameEnds =
    increments x + pending m x.isr + (frameEnd m (x.dev.regs m.ista)).toNat + x.merged
  counter : x.dev.frameCount = dev.frameCount + BitVec.ofNat 32 (increments x)

variable {m} {dev : UnicamDevice} {x y : Interrupts} {a : Action}

theorem ista_ne_ibwp (m : RegisterMap) : m.ista ≠ m.ibwp := by
  have hd := m.distinct
  simp only [List.nodup_cons, List.mem_cons, not_or] at hd
  exact hd.2.2.2.2.2.2.2.2.1.1

@[simp] theorem regs_raiseStatus (dev : UnicamDevice) (ista ibwp : BitVec 32) :
    (raiseStatus m dev ista ibwp).regs m.ista = ista := by
  simp [raiseStatus, ista_ne_ibwp]

@[simp] theorem regs_regWrite (dev : UnicamDevice) (value : BitVec 32) :
    (unicamRegWrite m dev m.ista value).regs m.ista = dev.regs m.ista &&& ~~~value := by
  simp [unicamRegWrite]

theorem frameEnd_iff (status : BitVec 32) : frameEnd m status = true ↔ status &&& m.fei ≠ 0 := by
  simp [frameEnd]

theorem frameEnd_not_iff (status : BitVec 32) :
    frameEnd m status = false ↔ ¬ status &&& m.fei ≠ 0 := by
  simp [frameEnd]

section Bit
variable (hbit : ∃ i < 32, m.fei = BitVec.twoPow 32 i)
include hbit

theorem frameEnd_or (status value : BitVec 32) :
    frameEnd m (status ||| value) = (frameEnd m status || frameEnd m value) := by
  obtain ⟨i, hi, hfei⟩ := hbit
  simp only [frameEnd, hfei, BitVec.and_twoPow, BitVec.getLsbD_or]
  cases status.getLsbD i <;> cases value.getLsbD i <;> simp

/-- Writing 1 to FEI is what clears it. -/
theorem frameEnd_clear (status value : BitVec 32) :
    frameEnd m (status &&& ~~~value) = (frameEnd m status && !frameEnd m value) := by
  obtain ⟨i, hi, hfei⟩ := hbit
  simp only [frameEnd, hfei, BitVec.and_twoPow, BitVec.getLsbD_and, BitVec.getLsbD_not, hi]
  cases status.getLsbD i <;> cases value.getLsbD i <;> simp

/-- A write to ISTA clears the bits that are set and written. -/
theorem charge_clear (dev : UnicamDevice) (ista : BitVec 32) :
    Execution.charge m dev (statement m (.clear ista) dev) ⟨ista, 0, 0, 0, 0⟩ =
      ⟨ista, dev.regs m.ista &&& ista,
        (frameEnd m (dev.regs m.ista) && frameEnd m ista).toNat, 0, 0⟩ := by
  have hcleared : dev.regs m.ista &&& ~~~(dev.regs m.ista &&& ~~~ista) =
      dev.regs m.ista &&& ista := by
    ext i hi
    simp only [BitVec.getElem_and, BitVec.getElem_not]
    cases (dev.regs m.ista)[i] <;> cases ista[i] <;> rfl
  have hcount : (unicamRegWrite m dev m.ista ista).frameCount = dev.frameCount := rfl
  simp only [Execution.charge, statement, falls, regs_regWrite, frameEnd_clear hbit, hcleared,
    hcount]
  cases frameEnd m (dev.regs m.ista) <;> cases frameEnd m ista <;> simp

end Bit

/-- The statements are those of the handler. -/
theorem statement_step (m : RegisterMap) (pc : IsrPc) (dev : UnicamDevice) :
    ((statement m pc dev).pc, (statement m pc dev).dev) = handlerStep m pc dev := by
  cases pc with
  | idle =>
    simp only [statement, readThen, handlerStep]
    split <;> rfl
  | clear ista => rfl
  | sample ista =>
    simp only [statement, handlerStep]
    split <;> rfl
  | count => rfl

theorem statement_quiet (hista : dev.regs m.ista = 0) :
    statement m .idle dev = ⟨.idle, dev, [(m.ista, 0)], some false⟩ := by
  simp [statement, readThen, unicamRegRead, hista]

theorem statement_read (hista : dev.regs m.ista ≠ 0) : statement m .idle dev =
    ⟨.clear (dev.regs m.ista), dev, [(m.ista, dev.regs m.ista)], none⟩ := by
  have hrest : (if unicamRegRead dev m.ista = 0 then ⟨.idle, dev, [], some false⟩ else
      ⟨.clear (unicamRegRead dev m.ista), dev, [], none⟩ : Statement) =
        ⟨.clear (dev.regs m.ista), dev, [], none⟩ := if_neg hista
  rw [statement, readThen, hrest]
  rfl

theorem statement_skip {ista : BitVec 32} (hother : frameEnd m ista = false) :
    statement m (.sample ista) dev = ⟨.idle, dev, [], some true⟩ :=
  if_neg ((frameEnd_not_iff ista).mp hother)

theorem statement_sample {ista : BitVec 32} (hend : frameEnd m ista = true) :
    statement m (.sample ista) dev = ⟨.count, { dev with currentWritePtr := dev.regs m.ibwp },
      [(m.ibwp, dev.regs m.ibwp)], none⟩ :=
  if_pos ((frameEnd_iff ista).mp hend)

/-- A statement that leaves ISTA and the counter alone and reads no ISTA. -/
theorem charge_same {s : Statement} (e : Execution) (hread : s.reads.lookup m.ista = none)
    (hista : s.dev.regs m.ista = dev.regs m.ista) (hcount : s.dev.frameCount = dev.frameCount) :
    e.charge m dev s =
      { e with samples := e.samples + s.reads.count (m.ibwp, s.dev.currentWritePtr) } := by
  simp [Execution.charge, falls, hread, hista, hcount]

/-- The read of ISTA is no sample. -/
theorem charge_read {pc : IsrPc} {ret : Option Bool} (ista : BitVec 32) :
    Execution.charge m dev ⟨pc, dev, [(m.ista, ista)], ret⟩ .blank = ⟨ista, 0, 0, 0, 0⟩ := by
  have hother : (m.ista, ista) ≠ (m.ibwp, dev.currentWritePtr) :=
    fun he => ista_ne_ibwp m (congrArg Prod.fst he)
  simp [Execution.charge, Execution.blank, falls, hother]

theorem charge_count (dev : UnicamDevice) (e : Execution) :
    e.charge m dev (statement m .count dev) = { e with increments := e.increments + 1 } := by
  simp [Execution.charge, statement, falls]

/-- Events do not disturb an execution. -/
theorem Progress.mono {status status' : BitVec 32} {pc : IsrPc} {e : Execution}
    (h : Progress m status pc e) (hset : frameEnd m status = true → frameEnd m status' = true) :
    Progress m status' pc e := by
  cases h with
  | idle => exact .idle
  | clear read still => exact .clear read (fun hread => hset (still hread))
  | sample read only_read => exact .sample read only_read
  | count read only_read => exact .count read only_read

theorem inv_start (h : dev.regs m.ista = 0) : Inv m dev (.start dev) where
  matched := by simp [Interrupts.start]
  progress := .idle
  stray := rfl
  balance := by simp [Interrupts.start, increments, Execution.blank, pending, frameEnd, h]
  counter := by simp [Interrupts.start, increments, Execution.blank]

theorem inv_hardware (hbit : ∃ i < 32, m.fei = BitVec.twoPow 32 i) (h : Inv m dev x)
    (status ibwp : BitVec 32) : Inv m dev (hardware m status ibwp x) where
  matched := h.matched
  progress := by
    have hset := frameEnd_or hbit (x.dev.regs m.ista) status
    simp only [hardware, regs_raiseStatus]
    apply h.progress.mono
    intro hold
    rw [hset, hold, Bool.true_or]
  stray := by
    have hset := frameEnd_or hbit (x.dev.regs m.ista) status
    simp only [hardware, falls, regs_raiseStatus, hset, h.stray]
    cases frameEnd m (x.dev.regs m.ista) <;> rfl
  balance := by
    have hset := frameEnd_or hbit (x.dev.regs m.ista) status
    have hbalance := h.balance
    simp only [hardware, increments, regs_raiseStatus, hset] at hbalance ⊢
    cases hold : frameEnd m (x.dev.regs m.ista) <;> cases frameEnd m status <;>
      simp [hold] at hbalance ⊢ <;> omega
  counter := h.counter

theorem matched_of_read {e : Execution} (read : e.ista ≠ 0) (once : e.falls ≤ 1)
    (counted : e.increments = e.falls) (sampled : e.samples = e.falls)
    (only_read : e.cleared &&& ~~~e.ista = 0) : Matched e true where
  once := once
  counted := counted
  sampled := sampled
  only_read := only_read
  handled_iff := iff_of_true rfl read
  quiet hzero := absurd hzero read

/-- The execution returns and leaves the device as `dev'`. -/
def finish (dev' : UnicamDevice) (e : Execution) (handled : Bool) (x : Interrupts) : Interrupts :=
  { x with dev := dev', isr := .idle, running := .blank, finished := x.finished ++ [(e, handled)] }

/-- The execution goes on at `pc` with the device `dev'`. -/
def proceed (dev' : UnicamDevice) (pc : IsrPc) (e : Execution) (x : Interrupts) : Interrupts :=
  { x with dev := dev', isr := pc, running := e }

theorem increments_finish (dev' : UnicamDevice) (e : Execution) (handled : Bool) :
    increments (finish dev' e handled x) + x.running.increments = increments x + e.increments := by
  simp only [finish, increments, List.map_append, List.sum_append, List.map_singleton,
    List.sum_singleton, Execution.blank]
  omega

theorem inv_finish {dev' : UnicamDevice} {e : Execution} {handled : Bool} (h : Inv m dev x)
    (hmatched : Matched e handled)
    (hcharged : e.increments = x.running.increments + pending m x.isr)
    (hista : dev'.regs m.ista = x.dev.regs m.ista)
    (hcount : dev'.frameCount = x.dev.frameCount + BitVec.ofNat 32 (pending m x.isr)) :
    Inv m dev (finish dev' e handled x) := by
  have hsum : increments (finish dev' e handled x) = increments x + pending m x.isr := by
    have hfinish := increments_finish (x := x) dev' e handled
    omega
  constructor
  · intro f hf
    rcases List.mem_append.mp hf with hf | hf
    · exact h.matched f hf
    · rw [List.mem_singleton.mp hf]
      exact hmatched
  · exact .idle
  · exact h.stray
  · have hbalance := h.balance
    have hidle : pending m (finish dev' e handled x).isr = 0 := rfl
    rw [hsum, hidle]
    simp only [finish, hista]
    omega
  · rw [hsum, BitVec.ofNat_add, ← BitVec.add_assoc, ← h.counter]
    exact hcount

theorem inv_proceed {dev' : UnicamDevice} {pc : IsrPc} {e : Execution} (h : Inv m dev x)
    (hprogress : Progress m (dev'.regs m.ista) pc e)
    (hcharged : e.increments = x.running.increments)
    (hcount : dev'.frameCount = x.dev.frameCount)
    (hpending : pending m pc + (frameEnd m (dev'.regs m.ista)).toNat =
      pending m x.isr + (frameEnd m (x.dev.regs m.ista)).toNat) :
    Inv m dev (proceed dev' pc e x) := by
  have hsum : increments (proceed dev' pc e x) = increments x := by
    simp only [proceed, increments, hcharged]
  constructor
  · exact h.matched
  · exact hprogress
  · exact h.stray
  · have hbalance := h.balance
    rw [hsum]
    simp only [proceed]
    omega
  · rw [hsum]
    exact hcount.trans h.counter

theorem isr_quiet (hpc : x.isr = .idle) (hrun : x.running = .blank)
    (hista : x.dev.regs m.ista = 0) : isr m x = finish x.dev .blank false x := by
  simp only [isr, hpc, hrun, statement_quiet hista, charge_read, finish]
  rfl

theorem isr_read (hpc : x.isr = .idle) (hrun : x.running = .blank)
    (hista : x.dev.regs m.ista ≠ 0) : isr m x =
      proceed x.dev (.clear (x.dev.regs m.ista)) ⟨x.dev.regs m.ista, 0, 0, 0, 0⟩ x := by
  simp only [isr, hpc, hrun, statement_read hista, charge_read, proceed]

theorem isr_clear (hbit : ∃ i < 32, m.fei = BitVec.twoPow 32 i) {ista : BitVec 32}
    (hpc : x.isr = .clear ista) (hrun : x.running = ⟨ista, 0, 0, 0, 0⟩) : isr m x =
      proceed (unicamRegWrite m x.dev m.ista ista) (.sample ista)
        ⟨ista, x.dev.regs m.ista &&& ista,
          (frameEnd m (x.dev.regs m.ista) && frameEnd m ista).toNat, 0, 0⟩ x := by
  simp only [isr, hpc, hrun, charge_clear hbit]
  rfl

/-- The handler read no frame end. -/
theorem isr_skip {ista : BitVec 32} (hpc : x.isr = .sample ista)
    (hother : frameEnd m ista = false) : isr m x = finish x.dev x.running true x := by
  have hcharge : x.running.charge m x.dev ⟨.idle, x.dev, [], some true⟩ = x.running :=
    charge_same x.running rfl rfl rfl
  simp only [isr, hpc, statement_skip hother, hcharge, finish]

/-- What was read from IBWP is stored. -/
theorem isr_sample {ista : BitVec 32} (hpc : x.isr = .sample ista)
    (hend : frameEnd m ista = true) : isr m x =
      proceed { x.dev with currentWritePtr := x.dev.regs m.ibwp } .count
        { x.running with samples := x.running.samples + 1 } x := by
  have hne : (m.ista == m.ibwp) = false := by simpa using ista_ne_ibwp m
  have hother : [(m.ibwp, x.dev.regs m.ibwp)].lookup m.ista = none := by simp [hne]
  have hcharge : x.running.charge m x.dev ⟨.count,
      { x.dev with currentWritePtr := x.dev.regs m.ibwp }, [(m.ibwp, x.dev.regs m.ibwp)], none⟩ =
        { x.running with samples := x.running.samples + 1 } :=
    (charge_same x.running hother rfl rfl).trans (by rw [List.count_singleton_self])
  simp only [isr, hpc, statement_sample hend, hcharge, proceed]

theorem isr_count (hpc : x.isr = .count) : isr m x =
    finish { x.dev with frameCount := x.dev.frameCount + 1 }
      { x.running with increments := x.running.increments + 1 } true x := by
  simp only [isr, hpc, charge_count]
  rfl

/-- Without an event in between, the statements make up `unicam_isr`. -/
theorem isr_alone (hbit : ∃ i < 32, m.fei = BitVec.twoPow 32 i) (hpc : x.isr = .idle)
    (hrun : x.running = .blank) :
    ∃ n e, (isr m)^[n] x = finish (unicamIsr m x.dev).2 e (unicamIsr m x.dev).1 x := by
  by_cases hista : x.dev.regs m.ista = 0
  · have hwhole : unicamIsr m x.dev = (false, x.dev) := if_pos hista
    rw [hwhole]
    exact ⟨1, .blank, isr_quiet hpc hrun hista⟩
  · cases hend : frameEnd m (x.dev.regs m.ista) with
    | false =>
      have hfei := (frameEnd_not_iff _).mp hend
      have hwhole : unicamIsr m x.dev = (true, _) := (if_neg hista).trans (if_neg hfei)
      apply Exists.intro 3
      apply Exists.intro
      rw [hwhole, Function.iterate_succ_apply, isr_read hpc hrun hista,
        Function.iterate_succ_apply, isr_clear hbit rfl rfl]
      exact isr_skip rfl hend
    | true =>
      have hfei := (frameEnd_iff _).mp hend
      have hwhole : unicamIsr m x.dev = (true, _) := (if_neg hista).trans (if_pos hfei)
      apply Exists.intro 4
      apply Exists.intro
      rw [hwhole, Function.iterate_succ_apply, isr_read hpc hrun hista,
        Function.iterate_succ_apply, isr_clear hbit rfl rfl, Function.iterate_succ_apply,
        isr_sample rfl hend, Function.iterate_one, isr_count rfl]
      rfl

theorem inv_isr (hbit : ∃ i < 32, m.fei = BitVec.twoPow 32 i) (h : Inv m dev x) :
    Inv m dev (isr m x) := by
  have hprogress := h.progress
  generalize hpc : x.isr = pc, hrun : x.running = e at hprogress
  cases hprogress with
  | idle =>
    by_cases hista : x.dev.regs m.ista = 0
    · rw [isr_quiet hpc hrun hista]
      apply inv_finish h
      · constructor <;> simp [Execution.blank]
      · rw [hrun, hpc]
        rfl
      · rfl
      · simp [hpc, pending]
    · rw [isr_read hpc hrun hista]
      apply inv_proceed h
      · exact .clear hista id
      · rw [hrun]
        rfl
      · rfl
      · rw [hpc]
        rfl
  | @clear ista read still =>
    have hfalls : (frameEnd m (x.dev.regs m.ista) && frameEnd m ista) = frameEnd m ista := by
      cases hread : frameEnd m ista with
      | false => exact Bool.and_false _
      | true => rw [still hread, Bool.and_true]
    rw [isr_clear hbit hpc hrun, hfalls]
    apply inv_proceed h
    · refine .sample read ?_
      rw [BitVec.and_assoc, BitVec.and_not_self]
      exact BitVec.and_zero
    · rw [hrun]
    · rfl
    · rw [regs_regWrite, frameEnd_clear hbit, hpc]
      cases hread : frameEnd m ista with
      | false => simp [pending, hread]
      | true => simp [pending, hread, still hread]
  | @sample ista cleared read only_read =>
    cases hread : frameEnd m ista with
    | false =>
      have hpending : pending m x.isr = 0 := by
        rw [hpc, pending, hread]
        rfl
      rw [isr_skip hpc hread]
      apply inv_finish h
      · rw [hrun, hread]
        exact matched_of_read read (Nat.zero_le 1) rfl rfl only_read
      · rw [hpending]
        rfl
      · rfl
      · rw [hpending]
        exact (BitVec.add_zero _).symm
    | true =>
      rw [isr_sample hpc hread]
      apply inv_proceed h
      · rw [hrun, hread]
        exact .count read only_read
      · rfl
      · rfl
      · rw [hpc, pending, pending, hread]
        rfl
  | @count ista cleared read only_read =>
    rw [isr_count hpc]
    apply inv_finish h
    · rw [hrun]
      exact matched_of_read read le_rfl rfl rfl only_read
    · rw [hpc]
      rfl
    · rfl
    · rw [hpc]
      rfl

theorem inv_step (hbit : ∃ i < 32, m.fei = BitVec.twoPow 32 i) (h : Inv m dev x)
    (hs : step m x a y) : Inv m dev y := by
  subst hs
  cases a with
  | hardware status ibwp => exact inv_hardware hbit h status ibwp
  | isr => exact inv_isr hbit h

/-- Whatever happens in between, an execution has at most three statements after the first. -/
theorem remaining_step {pc : IsrPc} (h : pc ≠ .idle) (dev : UnicamDevice) :
    remaining (statement m pc dev).pc < remaining pc := by
  cases pc with
  | idle => exact absurd rfl h
  | clear ista => simp [statement, remaining]
  | sample ista =>
    cases hend : frameEnd m ista with
    | false => simp [statement_skip hend, remaining]
    | true => simp [statement_sample hend, remaining]
  | count => simp [statement, remaining]

theorem Progress.owed {status : BitVec 32} {pc : IsrPc} {e : Execution}
    (h : Progress m status pc e) : e.falls = e.increments + pending m pc := by
  cases h <;> simp [Execution.blank, pending]

theorem Progress.only_read {status : BitVec 32} {pc : IsrPc} {e : Execution}
    (h : Progress m status pc e) : e.cleared &&& ~~~e.ista = 0 := by
  cases h with
  | idle => rfl
  | clear => exact BitVec.zero_and
  | sample _ only_read => exact only_read
  | count _ only_read => exact only_read

theorem exact_of_inv (h : Inv m dev x) : Exact m dev x where
  matched := h.matched
  stray := h.stray
  only_read := h.progress.only_read
  owed := h.progress.owed
  returns hpc := remaining_step hpc x.dev
  quiet hpc hista := by
    rw [hpc]
    exact statement_quiet hista
  bounded := by
    have hbalance := h.balance
    omega
  all hpc hclear hmerged := by
    have hbalance := h.balance
    rw [hpc, hclear, hmerged] at hbalance
    exact hbalance.symm
  counter := h.counter

/-- From ISTA = 0 on, under every interleaving of events and statements of the handler, no frame
end that reaches the latch is dropped or counted twice. -/
theorem latch_run (hbit : ∃ i < 32, m.fei = BitVec.twoPow 32 i) (hista : dev.regs m.ista = 0)
    (as : List Action) (hrun : Run (step m) (.start dev) as x) : Exact m dev x := by
  apply exact_of_inv
  apply hrun.invariant (Inv m dev) (inv_start hista)
  exact fun _ _ _ h hs => inv_step hbit h hs

/-- A frame end arrives between the read of a frame start and the write that clears it. -/
def session : List Action :=
  [.hardware 1 0x100, .isr, .hardware 2 0x200, .isr, .isr, .isr, .isr, .isr, .isr]

theorem latch_session : Exact sampleMap sampleDevice
    (session.foldl (advance sampleMap) (.start sampleDevice)) :=
  latch_run ⟨1, by decide, by decide⟩ rfl session (run_foldl_iff.mpr rfl)

end CameraDrivers.FrameEndLatch
