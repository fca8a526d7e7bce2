import CameraDrivers.IoctlSteps
import CameraDrivers.ExclusiveSections

/-!
# Concurrent START and STOP ioctls of manual-unicam

`unlocked_ioctl` handlers of several open handles run at the same time, one statement or
one I2C transfer after the other. `dev->streaming` is tested first and assigned last, so
two calls can pass the same test. Where no call passes its test while another one is
between its test and its assignment, every run has a serial order.
-/
namespace CameraDrivers.IoctlSerialisation
open TransitionRuns UnicamState UnicamIoctl StreamingAgreement IoctlSteps ExclusiveSections

inductive Pc
  | test
  | inside (l : Section)
  | resetCount
  | returned (ret : ℤ)
  deriving DecidableEq

def Pc.isInside : Pc → Bool
  | .inside _ => true
  | .test | .resetCount | .returned _ => false

structure Clients (ι : Type*) where
  dev : UnicamDevice
  pc : ι → Pc

variable {ι : Type*} [DecidableEq ι] (m : RegisterMap) (sensor : Imx219)

/-- After the assignment of the flag, START has its `atomic_set` left. -/
def leave : Section → ℤ → Pc
  | .setStreaming, _ => .resetCount
  | _, ret => .returned ret

def Clients.set (x : Clients ι) (i : ι) (pc : Pc) (dev : UnicamDevice) : Clients ι :=
  ⟨dev, Function.update x.pc i pc⟩

variable (calls : ι → Call)

def step (x : Clients ι) (i : ι) : Option (Clients ι) :=
  match x.pc i with
  | .test =>
    match answered (calls i) x.dev with
    | some ret => some (x.set i (.returned ret) x.dev)
    | none => some (x.set i (.inside (entry m (calls i) x.dev)) x.dev)
  | .inside l =>
    match sectionStep m sensor (calls i).replies l x.dev with
    | (.inl l', dev) => some (x.set i (.inside l') dev)
    | (.inr ret, dev) => some (x.set i (leave l ret) dev)
  | .resetCount => some (x.set i (.returned 0) { x.dev with frameCount := 0 })
  | .returned _ => none

/-- No other call is between its test and its assignment of the flag, or its error return,
when a call passes the test. -/
def passesAlone (x : Clients ι) (i : ι) : Prop :=
  x.pc i = .test → answered (calls i) x.dev = none → ∀ j, (x.pc j).isInside = false

instance [Fintype ι] (x : Clients ι) (i : ι) : Decidable (passesAlone calls x i) :=
  inferInstanceAs (Decidable (_ → _ → _))

/-- The same ioctl, run alone. -/
def ioctl (call : Call) (dev : UnicamDevice) : ℤ × UnicamDevice :=
  unicamIoctl m sensor dev call.command.cmd call.replies 0

/-- Calls one after the other, with the device in the end and what they returned. -/
def serial (order : List ι) (dev : UnicamDevice) : UnicamDevice × List (ι × ℤ) :=
  order.foldl (fun out i =>
    ((ioctl m sensor (calls i) out.1).2, out.2 ++ [(i, (ioctl m sensor (calls i) out.1).1)]))
    (dev, [])

/-- Every call ran once, in some order, with the outcome of the interleaved run. -/
structure Serialises (dev : UnicamDevice) (x : Clients ι) (order : List ι) : Prop where
  nodup : order.Nodup
  complete : ∀ i, i ∈ order
  returned_iff : ∀ i ret, (i, ret) ∈ (serial m sensor calls order dev).2 ↔ x.pc i = .returned ret
  streaming : x.dev.streaming = (serial m sensor calls order dev).1.streaming
  regs : x.dev.regs = (serial m sensor calls order dev).1.regs

/-- A device without its frame counter, which no ioctl reads. -/
def erase (dev : UnicamDevice) : UnicamDevice := { dev with frameCount := 0 }

variable {m sensor calls} {x y : Clients ι} {dev dev' : UnicamDevice} {i : ι} {l : Section}
  {replies : ℕ → I2cReply}

theorem op_erase (op : RegisterOp) (val : BitVec 32) (dev : UnicamDevice) :
    op.run m val (erase dev) = ((op.run m val dev).1, erase (op.run m val dev).2) := by
  cases op <;> rfl

theorem runOps_erase (ops : List RegisterOp) (val : BitVec 32) (dev : UnicamDevice) :
    runOps m ops val (erase dev) = erase (runOps m ops val dev) := by
  induction ops generalizing val dev with
  | nil => rfl
  | cons op ops ih => rw [runOps, op_erase, ih, runOps]

theorem sectionStep_erase (replies : ℕ → I2cReply) (l : Section) (dev : UnicamDevice) :
    sectionStep m sensor replies l (erase dev) =
      ((sectionStep m sensor replies l dev).1, erase (sectionStep m sensor replies l dev).2) := by
  cases l with
  | hwInit ops val | undo ret ops val | hwDisable ops val =>
    cases ops with
    | nil => rfl
    | cons op ops => simp only [sectionStep, op_erase]
  | writeReg k rest => cases rest <;> rfl
  | readIdH | readIdL h | setStreaming | stopSensor | clearStreaming => rfl

variable (m sensor calls) in
/-- The ioctls as calls with exclusive sections. -/
def ioctlCalls : Calls ι UnicamDevice Section ℤ where
  test i dev := answered (calls i) dev
  start i dev := entry m (calls i) dev
  next i l dev := sectionStep m sensor (calls i).replies l dev
  steady h j := by simp only [answered, sectionStep_steady h]

def statusOf : Pc → Status Section ℤ
  | .test => .waiting
  | .inside l => .inside l
  | .resetCount => .returned 0
  | .returned ret => .returned ret

/-- The machine with the frame counter erased, where a call has returned with its last
statement on the flag. -/
structure Simulated (x : Clients ι) (y : Interleaved ι UnicamDevice Section ℤ) : Prop where
  shared : y.shared = erase x.dev
  status : ∀ i, y.status i = statusOf (x.pc i)

theorem Simulated.set {x : Clients ι} {y : Interleaved ι UnicamDevice Section ℤ}
    (h : Simulated x y) (i : ι) (pc : Pc) (dev : UnicamDevice) :
    Simulated (x.set i pc dev) (y.set i (statusOf pc) (erase dev)) := by
  refine ⟨rfl, fun j => ?_⟩
  by_cases hj : j = i
  · subst hj
    simp [Clients.set, Interleaved.set]
  · simp [Clients.set, Interleaved.set, hj, h.status]

theorem statusOf_leave (l : Section) (ret : ℤ)
    (h : sectionStep m sensor replies l dev = (.inr ret, dev')) :
    statusOf (leave l ret) = .returned ret := by
  cases l <;> try rfl
  cases h
  rfl

theorem simulated_step {x z : Clients ι} {y : Interleaved ι UnicamDevice Section ℤ}
    (h : Simulated x y) (hok : passesAlone calls x i) (hs : step m sensor calls x i = some z) :
    ∃ is y', Run (Within (exclusive (ioctlCalls m sensor calls))
      (Steps (ExclusiveSections.step (ioctlCalls m sensor calls)))) y is y' ∧ Simulated z y' := by
  have htest : (ioctlCalls m sensor calls).test i y.shared = answered (calls i) x.dev := by
    rw [h.shared]
    rfl
  rw [step] at hs
  split at hs
  · next hpc =>
    have hw : y.status i = .waiting := by rw [h.status, hpc]; rfl
    have hex : exclusive (ioctlCalls m sensor calls) y i := by
      intro _ hn j l hj
      rw [h.status] at hj
      cases hpcj : x.pc j with
      | inside l' => simpa [hpcj, Pc.isInside] using hok hpc (htest ▸ hn) j
      | test | resetCount | returned _ => simp [hpcj, statusOf] at hj
    split at hs <;> cases hs
    · next ret ha =>
      refine ⟨[i], _, .single ⟨hex, ?_⟩, h.set i (.returned ret) x.dev⟩
      exact h.shared ▸ step_answered hw (htest.trans ha)
    · next ha =>
      refine ⟨[i], _, .single ⟨hex, ?_⟩, h.set i (.inside (entry m (calls i) x.dev)) x.dev⟩
      have hs := step_enters hw (htest.trans ha)
      rw [h.shared] at hs
      exact hs
  · next l hpc =>
    have hw : y.status i = .inside l := by rw [h.status, hpc]; rfl
    have hex : exclusive (ioctlCalls m sensor calls) y i := by
      intro hwait
      rw [hw] at hwait
      cases hwait
    have hnext : (ioctlCalls m sensor calls).next i l y.shared =
        ((sectionStep m sensor (calls i).replies l x.dev).1,
          erase (sectionStep m sensor (calls i).replies l x.dev).2) := by
      rw [h.shared]
      exact sectionStep_erase _ _ _
    split at hs <;> cases hs
    · next l' dev ha =>
      rw [ha] at hnext
      exact ⟨[i], _, .single ⟨hex, step_inside hw hnext⟩, h.set i (.inside l') dev⟩
    · next ret dev ha =>
      rw [ha] at hnext
      have hset := h.set i (leave l ret) dev
      rw [statusOf_leave l ret ha] at hset
      exact ⟨[i], _, .single ⟨hex, step_inside hw hnext⟩, hset⟩
  · next hpc =>
    -- the frame counter is not part of the other machine
    cases hs
    refine ⟨[], y, .refl y, h.shared, fun j => ?_⟩
    by_cases hj : j = i
    · subst hj
      simp [Clients.set, h.status, hpc, statusOf]
    · simp [Clients.set, hj, h.status]
  · cases hs

section Alone

variable {s t : UnicamDevice} {ret : ℤ} {out : ℤ × UnicamDevice}

omit [DecidableEq ι] in
theorem finishes_hwInit (ops : List RegisterOp) (val : BitVec 32) (s : UnicamDevice)
    (h : Finishes (ioctlCalls m sensor calls) i .readIdH (runOps m ops val s) out) :
    Finishes (ioctlCalls m sensor calls) i (.hwInit ops val) s out := by
  induction ops generalizing val s with
  | nil => exact .more rfl h
  | cons op ops ih => exact .more rfl (ih _ _ h)

omit [DecidableEq ι] in
theorem finishes_undo (ops : List RegisterOp) (val : BitVec 32) (s : UnicamDevice) :
    Finishes (ioctlCalls m sensor calls) i (.undo ret ops val) s (ret, runOps m ops val s) := by
  induction ops generalizing val s with
  | nil => exact .stop rfl
  | cons op ops ih => exact .more rfl (ih _ _)

omit [DecidableEq ι] in
/-- A statement that fails leads to `unicam_hw_disable` and the error. -/
theorem finishes_failed {s' : UnicamDevice} (h : (ioctlCalls m sensor calls).next i l s =
    (.inl (.undo ret (unicamHwDisableOps m) 0), s')) :
    Finishes (ioctlCalls m sensor calls) i l s (ret, unicamHwDisable m s') :=
  .more h (finishes_undo _ _ _)

omit [DecidableEq ι] in
theorem finishes_hwDisable (ops : List RegisterOp) (val : BitVec 32) (s : UnicamDevice) :
    Finishes (ioctlCalls m sensor calls) i (.hwDisable ops val) s
      (0, { runOps m ops val s with streaming := false }) := by
  induction ops generalizing val s with
  | nil => exact .more rfl (.stop rfl)
  | cons op ops ih => exact .more rfl (ih _ _)

/-- What follows the configuration of the sensor: the assignment of the flag, or
`unicam_hw_disable` and the error. -/
def conclude (m : RegisterMap) (configured : ℤ × List I2cTransfer) (s : UnicamDevice) :
    ℤ × UnicamDevice :=
  if configured.1 ≠ 0 then (configured.1, unicamHwDisable m (s.logged configured.2))
  else (0, { s.logged configured.2 with streaming := true })

theorem conclude_logged (t : I2cTransfer) (configured : ℤ × List I2cTransfer) (s : UnicamDevice) :
    conclude m configured (s.logged [t]) = conclude m (configured.1, t :: configured.2) s := by
  simp [conclude, UnicamDevice.logged]

omit [DecidableEq ι] in
theorem finishes_writeReg (k : ℕ) (rest : List (BitVec 16 × BitVec 8)) (s : UnicamDevice) :
    Finishes (ioctlCalls m sensor calls) i (.writeReg k rest) s
      (conclude m (imx219WriteTable rest (fun j => (calls i).replies (j + k))) s) := by
  induction rest generalizing k s with
  | nil =>
    refine .more rfl (.stop ?_)
    simp [ioctlCalls, sectionStep, imx219WriteTable, UnicamDevice.logged]
  | cons entry rest ih =>
    obtain ⟨addr, val⟩ := entry
    have hshift : (fun j => (calls i).replies (j + 1 + k)) =
        fun j => (calls i).replies (j + (k + 1)) := by
      funext j
      congr 1
      omega
    by_cases ha : ((calls i).replies k).ret = 1
    · have hnext : (ioctlCalls m sensor calls).next i (.writeReg k ((addr, val) :: rest)) s =
          (.inl (.writeReg (k + 1) rest),
            s.logged [(imx219WriteReg addr val ((calls i).replies k)).transfer]) := by
        simp [ioctlCalls, sectionStep, ha]
      have hrest := Finishes.more hnext (ih (k + 1) _)
      rw [conclude_logged] at hrest
      simpa [imx219WriteTable, ha, hshift] using hrest
    · have hnext : (ioctlCalls m sensor calls).next i (.writeReg k ((addr, val) :: rest)) s =
          (.inl (.undo (imx219WriteReg addr val ((calls i).replies k)).ret
            (unicamHwDisableOps m) 0),
            s.logged [(imx219WriteReg addr val ((calls i).replies k)).transfer]) := by
        simp [ioctlCalls, sectionStep, ha]
      simpa [imx219WriteTable, ha, conclude] using finishes_failed hnext

omit [DecidableEq ι] in
theorem finishes_configure (s : UnicamDevice) :
    Finishes (ioctlCalls m sensor calls) i .readIdH s
      (conclude m (imx219ConfigureMode7 sensor (calls i).replies) s) := by
  let h := imx219ReadReg sensor.regModelIdH ((calls i).replies 0)
  let l := imx219ReadReg sensor.regModelIdL ((calls i).replies 1)
  by_cases hh : ((calls i).replies 0).ret = 2
  · have hfirst : (ioctlCalls m sensor calls).next i .readIdH s =
        (.inl (.readIdL h.val), s.logged [h.transfer]) := by
      simp [ioctlCalls, sectionStep, h, hh]
    refine .more hfirst ?_
    by_cases hl : ((calls i).replies 1).ret = 2
    · by_cases hid : modelIdOf h.val l.val = sensor.modelId
      · have hsecond : (ioctlCalls m sensor calls).next i (.readIdL h.val)
            (s.logged [h.transfer]) =
            (.inl (.writeReg 2 sensor.mode7), (s.logged [h.transfer]).logged [l.transfer]) := by
          simp only [ioctlCalls, sectionStep]
          simp [l, hl, hid]
        have hrest := Finishes.more hsecond (finishes_writeReg 2 sensor.mode7 _)
        rw [conclude_logged, conclude_logged] at hrest
        simpa [imx219ConfigureMode7, h, l, hh, hl, hid] using hrest
      · have hsecond : (ioctlCalls m sensor calls).next i (.readIdL h.val)
            (s.logged [h.transfer]) =
            (.inl (.undo (-enodev) (unicamHwDisableOps m) 0),
              (s.logged [h.transfer]).logged [l.transfer]) := by
          simp only [ioctlCalls, sectionStep]
          simp [l, hl, hid]
        simpa [imx219ConfigureMode7, h, l, hh, hl, hid, conclude, enodev, UnicamDevice.logged]
          using finishes_failed hsecond
    · have hsecond : (ioctlCalls m sensor calls).next i (.readIdL h.val)
          (s.logged [h.transfer]) =
          (.inl (.undo l.ret (unicamHwDisableOps m) 0),
            (s.logged [h.transfer]).logged [l.transfer]) := by
        simp only [ioctlCalls, sectionStep]
        simp [l, hl]
      simpa [imx219ConfigureMode7, h, l, hh, hl, conclude, UnicamDevice.logged]
        using finishes_failed hsecond
  · have hfirst : (ioctlCalls m sensor calls).next i .readIdH s =
        (.inl (.undo h.ret (unicamHwDisableOps m) 0), s.logged [h.transfer]) := by
      simp [ioctlCalls, sectionStep, h, hh]
    simpa [imx219ConfigureMode7, h, hh, conclude] using finishes_failed hfirst

theorem ioctl_start {call : Call} (h : call.command = .start) (dev : UnicamDevice) :
    ioctl m sensor call dev = startStream m sensor dev call.replies := by
  simp [ioctl, unicamIoctl, h, Command.cmd]

theorem ioctl_stop {call : Call} (h : call.command = .stop) (dev : UnicamDevice) :
    ioctl m sensor call dev = stopStream m sensor dev call.replies := by
  simp [ioctl, unicamIoctl, h, Command.cmd, start_ne_stop.symm]

theorem unicamHwInit_erase (dev : UnicamDevice) :
    unicamHwInit m (erase dev) = erase (unicamHwInit m dev) := runOps_erase _ 0 dev

theorem unicamHwDisable_erase (dev : UnicamDevice) :
    unicamHwDisable m (erase dev) = erase (unicamHwDisable m dev) := runOps_erase _ 0 dev

/-- A START that passed its test, run without interruption. -/
theorem start_concludes (hs : dev.streaming = false) :
    conclude m (imx219ConfigureMode7 sensor replies) (unicamHwInit m (erase dev)) =
      ((startStream m sensor dev replies).1, erase (startStream m sensor dev replies).2) := by
  have hlogged : ∀ ts, (erase (unicamHwInit m dev)).logged ts =
      erase ((unicamHwInit m dev).logged ts) := fun _ => rfl
  rw [unicamHwInit_erase]
  by_cases hc : (imx219ConfigureMode7 sensor replies).1 = 0
  · simp only [conclude, startStream, hs, hc, ne_eq, not_true_eq_false, ↓reduceIte,
      Bool.false_eq_true, hlogged]
    rfl
  · simp [conclude, startStream, hs, hc, hlogged, unicamHwDisable_erase]

omit [DecidableEq ι] in
/-- The section of a call that is not interrupted is the rest of the ioctl. -/
theorem alone_ioctl (h : Alone (ioctlCalls m sensor calls) (erase dev) (i, ret) t) :
    ret = (ioctl m sensor (calls i) dev).1 ∧ t = erase (ioctl m sensor (calls i) dev).2 := by
  cases hc : (calls i).command with
  | start =>
    rw [ioctl_start hc]
    cases hs : dev.streaming with
    | true =>
      have hans : answered (calls i) (erase dev) = some 0 := by simp [answered, hc, erase, hs]
      rcases h with ⟨ht, rfl⟩ | ⟨ht, -⟩
      · have hret := hans.symm.trans ht
        cases hret
        exact ⟨by simp [startStream, hs], by simp [startStream, hs]⟩
      · cases hans.symm.trans ht
    | false =>
      have hans : answered (calls i) (erase dev) = none := by simp [answered, hc, erase, hs]
      rcases h with ⟨ht, -⟩ | ⟨-, hf⟩
      · cases hans.symm.trans ht
      · have hstart : (ioctlCalls m sensor calls).start i (erase dev) =
            .hwInit (unicamHwInitOps m (erase dev)) 0 := by simp [ioctlCalls, entry, hc]
        have hall : Finishes (ioctlCalls m sensor calls) i
            ((ioctlCalls m sensor calls).start i (erase dev)) (erase dev)
            (conclude m (imx219ConfigureMode7 sensor (calls i).replies)
              (unicamHwInit m (erase dev))) := by
          rw [hstart]
          exact finishes_hwInit _ _ _ (finishes_configure _)
        have hout := hf.unique hall
        rw [start_concludes hs, Prod.mk.injEq] at hout
        exact hout
  | stop =>
    rw [ioctl_stop hc]
    cases hs : dev.streaming with
    | false =>
      have hans : answered (calls i) (erase dev) = some 0 := by simp [answered, hc, erase, hs]
      rcases h with ⟨ht, rfl⟩ | ⟨ht, -⟩
      · have hret := hans.symm.trans ht
        cases hret
        exact ⟨by simp [stopStream, hs], by simp [stopStream, hs]⟩
      · cases hans.symm.trans ht
    | true =>
      have hans : answered (calls i) (erase dev) = none := by simp [answered, hc, erase, hs]
      rcases h with ⟨ht, -⟩ | ⟨-, hf⟩
      · cases hans.symm.trans ht
      · have hstart : (ioctlCalls m sensor calls).start i (erase dev) = .stopSensor := by
          simp [ioctlCalls, entry, hc]
        rw [hstart] at hf
        have hout := hf.unique (.more rfl (finishes_hwDisable _ _ _))
        rw [Prod.mk.injEq] at hout
        obtain ⟨hret, ht⟩ := hout
        have hzero : (stopStream m sensor dev (calls i).replies).1 = 0 := by simp [stopStream, hs]
        have hlogged : ∀ ts, (erase dev).logged ts = erase (dev.logged ts) := fun _ => rfl
        refine ⟨hret.trans hzero.symm, ?_⟩
        rw [ht, hlogged, runOps_erase]
        simp [stopStream, hs, erase, unicamHwDisable]

end Alone

omit [DecidableEq ι] in
theorem serial_snoc (order : List ι) (i : ι) (dev : UnicamDevice) :
    serial m sensor calls (order ++ [i]) dev =
      ((ioctl m sensor (calls i) (serial m sensor calls order dev).1).2,
        (serial m sensor calls order dev).2 ++
          [(i, (ioctl m sensor (calls i) (serial m sensor calls order dev).1).1)]) := by
  simp [serial]

omit [DecidableEq ι] in
/-- A serial order of the erased machine is one of the ioctls themselves. -/
theorem serial_of_alone {order : List (ι × ℤ)} {t : UnicamDevice}
    (run : Run (Alone (ioctlCalls m sensor calls)) (erase dev) order t) :
    (serial m sensor calls (order.map Prod.fst) dev).2 = order ∧
      t = erase (serial m sensor calls (order.map Prod.fst) dev).1 := by
  induction order using List.reverseRecOn generalizing t with
  | nil =>
    rw [run_nil_iff] at run
    exact ⟨rfl, run.symm⟩
  | append_singleton order call ih =>
    obtain ⟨s, hrun, hlast⟩ := run_snoc_iff.mp run
    obtain ⟨hout, rfl⟩ := ih hrun
    obtain ⟨i, ret⟩ := call
    obtain ⟨rfl, rfl⟩ := alone_ioctl hlast
    rw [List.map_append, List.map_singleton, serial_snoc]
    exact ⟨by rw [hout], rfl⟩

theorem ioctl_follows (h : Follows m dev) (call : Call) :
    Follows m (ioctl m sensor call dev).2 :=
  follows_step h (.ioctl call.command.cmd call.replies 0)

omit [DecidableEq ι] in
theorem serial_follows (h : Follows m dev) (order : List ι) :
    Follows m (serial m sensor calls order dev).1 := by
  induction order using List.reverseRecOn with
  | nil => exact h
  | append_singleton order i ih =>
    rw [serial_snoc]
    exact ioctl_follows ih (calls i)

theorem follows_erase : Follows m (erase dev) ↔ Follows m dev :=
  ⟨fun h => ⟨fun hs => (h.enabled hs).congr (fun _ _ => rfl) rfl rfl,
      fun hs => (h.disabled hs).congr (fun _ _ => rfl)⟩,
    fun h => ⟨fun hs => (h.enabled hs).congr (fun _ _ => rfl) rfl rfl,
      fun hs => (h.disabled hs).congr (fun _ _ => rfl)⟩⟩

/-- Once all calls have returned, a run in which they pass their tests alone has the outcome
of a serial order; if the registers followed the flag before, they follow it now. -/
theorem ioctls_serialisable {is : List ι}
    (run : Run (Within (passesAlone calls) (Steps (step m sensor calls)))
      ⟨dev, fun _ => .test⟩ is x)
    (done : ∀ i, ∃ ret, x.pc i = .returned ret) :
    (∃ order, Serialises m sensor calls dev x order) ∧ (Follows m dev → Follows m x.dev) := by
  have start : Simulated (⟨dev, fun _ => .test⟩ : Clients ι) (.initial (erase dev)) :=
    ⟨rfl, fun _ => rfl⟩
  obtain ⟨_, y, hrun, hsim⟩ := run.simulate Simulated start
    (fun _ _ _ _ hsim hs => simulated_step hsim hs.1 hs.2)
  have hstatus : ∀ i ret, y.status i = .returned ret ↔ x.pc i = .returned ret := by
    intro i ret
    obtain ⟨ret', hret⟩ := done i
    simp [hsim.status, hret, statusOf]
  obtain ⟨order, halone, hnodup, hreturned⟩ := serialisable hrun
    (fun i => (done i).imp (fun ret hret => (hstatus i ret).mpr hret))
  obtain ⟨hout, hshared⟩ := serial_of_alone halone
  have hdev := hsim.shared.symm.trans hshared
  refine ⟨⟨order.map Prod.fst, hnodup, fun i => ?_, fun i ret => ?_, ?_, ?_⟩, fun h => ?_⟩
  · obtain ⟨ret, hret⟩ := done i
    exact List.mem_map_of_mem ((hreturned i ret).mpr ((hstatus i ret).mpr hret))
  · rw [hout, hreturned, hstatus]
  · have hs := congrArg UnicamDevice.streaming hdev
    exact hs
  · have hr := congrArg UnicamDevice.regs hdev
    exact hr
  · rw [← follows_erase, hdev, follows_erase]
    exact serial_follows h _

/-- A START and a STOP of two clients. -/
def startStop (i : Fin 2) : Call :=
  if i = 0 then ⟨.start, sampleReplies 2⟩ else ⟨.stop, sampleReplies 1⟩

/-- Two STARTs; the sensor does not answer the second one. -/
def twoStarts (i : Fin 2) : Call :=
  if i = 0 then ⟨.start, sampleReplies 2⟩ else ⟨.start, fun _ => ⟨-5, 0⟩⟩

def outcome (x : Clients (Fin 2)) : Pc × Pc × Bool × BitVec 32 :=
  (x.pc 0, x.pc 1, x.dev.streaming, x.dev.regs sampleMap.ctrl)

theorem outcome_done {x : Clients (Fin 2)} {r r' : ℤ} {b : Bool} {v : BitVec 32}
    (h : outcome x = (.returned r, .returned r', b, v)) : ∀ i, ∃ ret, x.pc i = .returned ret := by
  simp only [outcome, Prod.mk.injEq] at h
  intro i
  match i with
  | 0 => exact ⟨r, h.1⟩
  | 1 => exact ⟨r', h.2.1⟩

/-- The STOP passes its test while the START still has its `atomic_set` left. -/
theorem ioctls_serialisable_two : ∃ (x : Clients (Fin 2)) (order : List (Fin 2)),
    Serialises sampleMap sampleSensor startStop sampleDevice x order ∧
      outcome x = (.returned 0, .returned 0, false, 0) := by
  let is : List (Fin 2) := List.replicate 20 0 ++ 1 :: 0 :: List.replicate 6 1
  have run : (follow (guarded (passesAlone startStop) (step sampleMap sampleSensor startStop))
      ⟨sampleDevice, fun _ => .test⟩ is).map outcome =
        some (.returned 0, .returned 0, false, 0) := by decide +kernel
  obtain ⟨x, hf, hx⟩ := Option.map_eq_some_iff.mp run
  obtain ⟨order, h⟩ :=
    (ioctls_serialisable (run_within_steps_iff.mpr hf) (outcome_done hx)).1
  exact ⟨x, order, h, hx⟩

/-- The second START tests the flag before the first one sets it, and disables the core after
the first one has returned 0. -/
theorem failed_start_disables : ¬ ∀ (m : RegisterMap) (sensor : Imx219) (calls : Fin 2 → Call)
    (dev : UnicamDevice) (is : List (Fin 2)) (x : Clients (Fin 2)), Follows m dev →
    Run (Steps (step m sensor calls)) ⟨dev, fun _ => .test⟩ is x →
    (∀ i, ∃ ret, x.pc i = .returned ret) → ∃ order, Serialises m sensor calls dev x order := by
  intro hall
  let is : List (Fin 2) := 1 :: List.replicate 21 0 ++ List.replicate 18 1
  have run : (follow (step sampleMap sampleSensor twoStarts)
      ⟨sampleDevice, fun _ => .test⟩ is).map outcome =
        some (.returned 0, .returned (-5), true, 0) := by decide +kernel
  obtain ⟨x, hf, hx⟩ := Option.map_eq_some_iff.mp run
  have hoff : Follows sampleMap sampleDevice := ⟨by simp [sampleDevice], fun _ => ⟨rfl, rfl, rfl⟩⟩
  obtain ⟨order, h⟩ := hall _ _ _ _ is x hoff (run_steps_iff.mpr hf) (outcome_done hx)
  simp only [outcome, Prod.mk.injEq] at hx
  have hon := (serial_follows hoff order).enabled (h.streaming.symm.trans hx.2.2.1)
  have hctrl := hon.ctrl
  rw [← h.regs, hx.2.2.2] at hctrl
  simp [sampleMap] at hctrl

end CameraDrivers.IoctlSerialisation
