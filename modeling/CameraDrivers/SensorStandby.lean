import CameraDrivers.StreamingAgreement
import CameraDrivers.TransitionRuns

/-!
# The sensor behind the streaming flag of manual-unicam

The sensor is a remote device: what it does is known only from the writes it acknowledged.
START sends a table that may switch it on at any entry, and every transfer may fail. An
ioctl that follows remove comes through a handle that is still open, and finds the
device as remove left it.
-/
namespace CameraDrivers.SensorStandby
open TransitionRuns UnicamState UnicamIoctl
open StreamingAgreement (Command start_ne_stop)

inductive Request
  | ioctl (cmd : Command) (replies : ℕ → I2cReply)
  | remove (replies : ℕ → I2cReply)

/-- The byte that an acknowledged transfer wrote to the register. -/
def acknowledgedWrite (reg : BitVec 16) (t : I2cTransfer) : Option (BitVec 8) :=
  match t.bytes with
  | [h, l, val] => if [h, l] = regBytes reg ∧ t.reads = false ∧ t.ret = 1 then some val else none
  | _ => none

def lastAcknowledged (reg : BitVec 16) (ts : List I2cTransfer) : Option (BitVec 8) :=
  (ts.filterMap (acknowledgedWrite reg)).getLast?

/-- The bytes that a part of the table writes to the register. -/
def tableWrites (reg : BitVec 16) (table : List (BitVec 16 × BitVec 8)) : List (BitVec 8) :=
  table.filterMap (fun entry => if entry.1 = reg then some entry.2 else none)

variable (m : RegisterMap) (sensor : Imx219)

/-- The part of `unicam_remove` that reaches the sensor and the core; the flag stays up. -/
def unicamRemove (dev : UnicamDevice) (replies : ℕ → I2cReply) : UnicamDevice :=
  if dev.streaming then
    unicamHwDisable m (dev.logged [(imx219StopStreaming sensor (replies 0)).transfer])
  else dev

def serve (dev : UnicamDevice) : Request → ℤ × UnicamDevice
  | .ioctl cmd replies => unicamIoctl m sensor dev cmd.cmd replies 0
  | .remove replies => (0, unicamRemove m sensor dev replies)

def step (dev : UnicamDevice) (request : Request) (dev' : UnicamDevice) : Prop :=
  (serve m sensor dev request).2 = dev'

/-- The last value acknowledged for the mode is standby, if any was ever acknowledged. -/
def Off (dev : UnicamDevice) : Prop :=
  ∀ val ∈ lastAcknowledged sensor.regModeSelect dev.transfers, val = sensor.modeStandby

/-- Since `dev`, a standby write was not acknowledged. -/
def StandbyRefused (dev dev' : UnicamDevice) : Prop :=
  ∃ t ∈ dev'.transfers.drop dev.transfers.length,
    t.bytes = regBytes sensor.regModeSelect ++ [sensor.modeStandby] ∧ t.reads = false ∧ t.ret ≠ 1

/-- What the answer to a request says about the sensor is true. -/
structure Honest (dev : UnicamDevice) (request : Request) : Prop where
  stopped : ∀ cmd replies, request = .ioctl cmd replies → (serve m sensor dev request).1 = 0 →
    (serve m sensor dev request).2.streaming = false → Off sensor (serve m sensor dev request).2
  failed : ∀ replies, request = .ioctl .start replies → (serve m sensor dev request).1 ≠ 0 →
    Off sensor (serve m sensor dev request).2
  reported : ∀ replies, request = .ioctl .stop replies →
    StandbyRefused sensor dev (serve m sensor dev request).2 → (serve m sensor dev request).1 ≠ 0

def Identified (replies : ℕ → I2cReply) : Prop :=
  (replies 0).ret = 2 ∧ (replies 1).ret = 2 ∧
    modelIdOf (replies 0).data (replies 1).data = sensor.modelId

/-- The sensor answers with its id, acknowledges the first `n` writes of the table and not
the next one. -/
structure RefusedAt (replies : ℕ → I2cReply) (n : ℕ) : Prop where
  identified : Identified sensor replies
  written : ∀ i < n, (replies (i + 2)).ret = 1
  entry : n < sensor.mode7.length
  refused : (replies (n + 2)).ret ≠ 1

/-- No START of a stopped device breaks off after a part of the table that switched the sensor
on, and no STOP of a streaming one has its write refused. -/
def Harmless (dev : UnicamDevice) : Request → Prop
  | .ioctl .start replies => dev.streaming = false → ∀ n, RefusedAt sensor replies n →
      ∀ val ∈ (tableWrites sensor.regModeSelect (sensor.mode7.take n)).getLast?,
        val = sensor.modeStandby
  | .ioctl .stop replies => dev.streaming = true → (replies 0).ret = 1
  | .remove _ => True

variable {m sensor} {dev dev' : UnicamDevice} {replies : ℕ → I2cReply} {reg : BitVec 16}

theorem regBytes_inj {a b : BitVec 16} : regBytes a = regBytes b ↔ a = b := by
  constructor
  · intro h
    simp only [regBytes, List.cons.injEq, and_true] at h
    have hhigh := congrArg BitVec.toNat h.1
    have hlow := congrArg BitVec.toNat h.2
    have hmask : BitVec.toNat (255 : BitVec 16) = 2 ^ 8 - 1 := rfl
    simp only [BitVec.toNat_setWidth, BitVec.toNat_ushiftRight, BitVec.toNat_and,
      Nat.shiftRight_eq_div_pow, hmask, Nat.and_two_pow_sub_one_eq_mod] at hhigh hlow
    apply BitVec.eq_of_toNat_eq
    omega
  · rintro rfl
    rfl

@[simp] theorem acknowledgedWrite_writeReg (reg r : BitVec 16) (val : BitVec 8)
    (reply : I2cReply) : acknowledgedWrite reg (imx219WriteReg r val reply).transfer =
      if r = reg ∧ reply.ret = 1 then some val else none := by
  have hbytes : [(r >>> 8).setWidth 8, (r &&& 0xff).setWidth 8] = regBytes reg ↔ r = reg :=
    regBytes_inj
  simp only [acknowledgedWrite, imx219WriteReg, regBytes, List.cons_append, List.nil_append,
    true_and] at hbytes ⊢
  simp only [hbytes]

@[simp] theorem acknowledgedWrite_readReg (reg r : BitVec 16) (reply : I2cReply) :
    acknowledgedWrite reg (imx219ReadReg r reply).transfer = none := rfl

theorem off_logged (ts : List I2cTransfer) : Off sensor (dev.logged ts) ↔
    ∀ val ∈ (lastAcknowledged sensor.regModeSelect ts).or
      (lastAcknowledged sensor.regModeSelect dev.transfers), val = sensor.modeStandby := by
  rw [Off, UnicamDevice.logged, lastAcknowledged, List.filterMap_append, List.getLast?_append]
  rfl

/-- A part of the table that was acknowledged up to its entry `n`. -/
theorem writeTable_acknowledged (table : List (BitVec 16 × BitVec 8)) (replies : ℕ → I2cReply)
    (n : ℕ) (hn : n < table.length) (written : ∀ i < n, (replies i).ret = 1)
    (refused : (replies n).ret ≠ 1) :
    (imx219WriteTable table replies).2.filterMap (acknowledgedWrite reg) =
      tableWrites reg (table.take n) := by
  induction table generalizing replies n with
  | nil => simp at hn
  | cons entry rest ih =>
    rw [imx219WriteTable]
    cases n with
    | zero => simp [refused, tableWrites]
    | succ n =>
      have hfirst : (replies 0).ret = 1 := written 0 (by omega)
      have hrest := ih (fun i => replies (i + 1)) n (by simpa using hn)
        (fun i hi => written (i + 1) (by omega)) refused
      simp only [imx219WriteReg_ret, ne_eq, hfirst, not_true_eq_false, if_false,
        List.filterMap_cons, acknowledgedWrite_writeReg, and_true, hrest, List.take_succ_cons,
        tableWrites]

theorem writeTable_refused (table : List (BitVec 16 × BitVec 8)) (replies : ℕ → I2cReply) :
    (∀ i < table.length, (replies i).ret = 1) ∨
    ∃ n < table.length, (∀ i < n, (replies i).ret = 1) ∧ (replies n).ret ≠ 1 := by
  induction table generalizing replies with
  | nil => simp
  | cons entry rest ih =>
    by_cases hfirst : (replies 0).ret = 1
    · cases ih (fun i => replies (i + 1)) with
      | inl hall =>
        left
        rw [List.length_cons, Nat.forall_lt_succ_left]
        exact ⟨hfirst, hall⟩
      | inr hsome =>
        obtain ⟨n, hn, written, refused⟩ := hsome
        refine .inr ⟨n + 1, by simpa using hn, ?_, refused⟩
        rw [Nat.forall_lt_succ_left]
        exact ⟨hfirst, written⟩
    · exact .inr ⟨0, by simp, by simp, hfirst⟩

theorem imx219ReadReg_val (reg : BitVec 16) (reply : I2cReply) :
    (imx219ReadReg reg reply).val = reply.data := rfl

/-- The reads of the id are followed by the table, or by nothing. -/
theorem configureMode7_acknowledged (reg : BitVec 16) (sensor : Imx219) (replies : ℕ → I2cReply) :
    (Identified sensor replies ∧
      (imx219ConfigureMode7 sensor replies).2.filterMap (acknowledgedWrite reg) =
        (imx219WriteTable sensor.mode7 (fun i => replies (i + 2))).2.filterMap
          (acknowledgedWrite reg)) ∨
    (¬ Identified sensor replies ∧
      (imx219ConfigureMode7 sensor replies).2.filterMap (acknowledgedWrite reg) = []) := by
  rw [imx219ConfigureMode7]
  by_cases hh : (replies 0).ret = 2
  · by_cases hl : (replies 1).ret = 2
    · by_cases hid : modelIdOf (replies 0).data (replies 1).data = sensor.modelId
      · left
        simp [imx219ReadReg_val, hh, hl, hid, Identified, List.filterMap_cons]
      · right
        simp [imx219ReadReg_val, hh, hl, hid, Identified, List.filterMap_cons]
    · right
      simp [hh, hl, Identified, List.filterMap_cons]
  · right
    simp [hh, Identified, List.filterMap_cons]

theorem configureMode7_refusedAt {n : ℕ} (h : RefusedAt sensor replies n) :
    (imx219ConfigureMode7 sensor replies).2.filterMap (acknowledgedWrite reg) =
      tableWrites reg (sensor.mode7.take n) := by
  cases configureMode7_acknowledged reg sensor replies with
  | inl hid =>
    rw [hid.2]
    exact writeTable_acknowledged _ _ n h.entry h.written h.refused
  | inr hid => exact absurd h.identified hid.1

/-- A sensor that could not be configured was written nothing, or a part of the table. -/
theorem configureMode7_broken (reg : BitVec 16) (h : ¬ Configures sensor replies) :
    (imx219ConfigureMode7 sensor replies).2.filterMap (acknowledgedWrite reg) = [] ∨
    ∃ n, RefusedAt sensor replies n := by
  cases configureMode7_acknowledged reg sensor replies with
  | inl hid =>
    right
    cases writeTable_refused sensor.mode7 (fun i => replies (i + 2)) with
    | inl hall => exact absurd ⟨hid.1.1, hid.1.2.1, hid.1.2.2, hall⟩ h
    | inr hsome =>
      obtain ⟨n, hn, written, refused⟩ := hsome
      exact ⟨n, hid.1, written, hn, refused⟩
  | inr hid => exact .inl hid.2

theorem not_configures {n : ℕ} (h : RefusedAt sensor replies n) : ¬ Configures sensor replies := by
  intro hc
  exact h.refused (hc.2.2.2 n h.entry)

theorem off_congr (h : dev'.transfers = dev.transfers) : Off sensor dev' ↔ Off sensor dev := by
  rw [Off, Off, h]

/-- A START that fails on a stopped device whose sensor is off. -/
theorem off_configure_iff (hoff : Off sensor dev) (hc : ¬ Configures sensor replies) :
    Off sensor (dev.logged (imx219ConfigureMode7 sensor replies).2) ↔
      ∀ n, RefusedAt sensor replies n →
        ∀ val ∈ (tableWrites sensor.regModeSelect (sensor.mode7.take n)).getLast?,
          val = sensor.modeStandby := by
  rw [off_logged]
  constructor
  · intro h n hn val hval
    apply h
    rw [lastAcknowledged, configureMode7_refusedAt hn, Option.mem_def.mp hval]
    rfl
  · intro h val hval
    cases configureMode7_broken sensor.regModeSelect hc with
    | inl hnone =>
      rw [lastAcknowledged, hnone] at hval
      exact hoff val (by simpa using hval)
    | inr hsome =>
      obtain ⟨n, hn⟩ := hsome
      rw [lastAcknowledged, configureMode7_refusedAt hn] at hval
      cases hlast : (tableWrites sensor.regModeSelect (sensor.mode7.take n)).getLast? with
      | none =>
        rw [hlast] at hval
        exact hoff val (by simpa using hval)
      | some last =>
        rw [hlast] at hval
        exact h n hn val (by simpa [hlast] using hval)

theorem startStream_transfers (hs : dev.streaming = false) :
    (startStream m sensor dev replies).2.transfers =
      (dev.logged (imx219ConfigureMode7 sensor replies).2).transfers := by
  rw [startStream]
  simp only [hs, Bool.false_eq_true, if_false]
  split <;> rfl

theorem serve_start (dev : UnicamDevice) (replies : ℕ → I2cReply) :
    serve m sensor dev (.ioctl .start replies) = startStream m sensor dev replies := rfl

theorem serve_stop (dev : UnicamDevice) (replies : ℕ → I2cReply) :
    serve m sensor dev (.ioctl .stop replies) = stopStream m sensor dev replies := by
  simp [serve, unicamIoctl, Command.cmd, start_ne_stop.symm]

theorem honest_start_iff (hoff : dev.streaming = false → Off sensor dev)
    (replies : ℕ → I2cReply) : Honest m sensor dev (.ioctl .start replies) ↔
      Harmless sensor dev (.ioctl .start replies) := by
  cases hs : dev.streaming with
  | true =>
    have hserve : serve m sensor dev (.ioctl .start replies) = (0, dev) := by
      rw [serve_start, startStream, if_pos hs]
    refine iff_of_true ⟨?_, ?_, ?_⟩ ?_
    · intro cmd replies' _ _ hstopped
      rw [hserve, hs] at hstopped
      cases hstopped
    · intro replies' _ herror
      rw [hserve] at herror
      exact absurd rfl herror
    · intro replies' h
      cases h
    · intro hstopped
      rw [hs] at hstopped
      cases hstopped
  | false =>
    have hcases := StreamingAgreement.startStream_cases m sensor hs replies
    have htransfers : Off sensor (startStream m sensor dev replies).2 ↔
        Off sensor (dev.logged (imx219ConfigureMode7 sensor replies).2) :=
      off_congr (startStream_transfers hs)
    cases hcases with
    | inl hstarted =>
      obtain ⟨hc, hzero, hon, -⟩ := hstarted
      refine iff_of_true ⟨?_, ?_, ?_⟩ ?_
      · intro cmd replies' _ _ hstopped
        rw [serve_start, hon] at hstopped
        cases hstopped
      · intro replies' _ herror
        rw [serve_start] at herror
        exact absurd hzero herror
      · intro replies' h
        cases h
      · intro _ n hn
        exact absurd hc (not_configures hn)
    | inr hfailed =>
      obtain ⟨hc, herror, -, -⟩ := hfailed
      have hiff := htransfers.trans (off_configure_iff (hoff hs) hc)
      constructor
      · intro h _
        exact hiff.mp (h.failed replies rfl herror)
      · intro h
        have hnow := hiff.mpr (h hs)
        exact ⟨fun _ _ _ _ _ => hnow, fun _ _ _ => hnow, fun _ he => by cases he⟩

/-- The value that the standby write leaves, if it is acknowledged. -/
theorem off_stopped (hr : (replies 0).ret = 1) :
    Off sensor (dev.logged [(imx219StopStreaming sensor (replies 0)).transfer]) := by
  rw [off_logged]
  intro val hval
  have hwrite : lastAcknowledged sensor.regModeSelect
      [(imx219StopStreaming sensor (replies 0)).transfer] = some sensor.modeStandby := by
    simp [lastAcknowledged, imx219StopStreaming, hr]
  rw [hwrite] at hval
  exact (Option.some.inj hval).symm

theorem honest_stop_iff (hoff : dev.streaming = false → Off sensor dev)
    (replies : ℕ → I2cReply) : Honest m sensor dev (.ioctl .stop replies) ↔
      Harmless sensor dev (.ioctl .stop replies) := by
  cases hs : dev.streaming with
  | false =>
    have hserve : serve m sensor dev (.ioctl .stop replies) = (0, dev) := by
      simp [serve_stop, stopStream, hs]
    refine iff_of_true ⟨?_, ?_, ?_⟩ ?_
    · intro _ _ _ _ _
      rw [hserve]
      exact hoff hs
    · intro _ h
      cases h
    · intro _ _ hrefused
      rw [hserve] at hrefused
      obtain ⟨t, ht, -⟩ := hrefused
      simp at ht
    · intro hon
      rw [hs] at hon
      cases hon
  | true =>
    let write := (imx219StopStreaming sensor (replies 0)).transfer
    have hzero : (serve m sensor dev (.ioctl .stop replies)).1 = 0 := by
      simp [serve_stop, stopStream, hs]
    have htransfers : (serve m sensor dev (.ioctl .stop replies)).2.transfers =
        (dev.logged [write]).transfers := by
      rw [serve_stop, stopStream, if_pos hs]
      rfl
    constructor
    · intro h _
      by_contra hr
      refine h.reported replies rfl ⟨write, ?_, rfl, rfl, hr⟩ hzero
      rw [htransfers]
      simp [UnicamDevice.logged]
    · intro h
      refine ⟨fun _ _ _ _ _ => (off_congr htransfers).mpr (off_stopped (h hs)), ?_, ?_⟩
      · intro _ he
        cases he
      · intro _ _ hrefused
        obtain ⟨t, ht, -, -, hret⟩ := hrefused
        rw [htransfers] at ht
        have hwrite : t = write := by simpa [UnicamDevice.logged] using ht
        rw [hwrite] at hret
        exact absurd (h hs) hret

theorem honest_iff (hoff : dev.streaming = false → Off sensor dev) (request : Request) :
    Honest m sensor dev request ↔ Harmless sensor dev request := by
  cases request with
  | ioctl cmd replies =>
    cases cmd with
    | start => exact honest_start_iff hoff replies
    | stop => exact honest_stop_iff hoff replies
  | remove replies =>
    refine iff_of_true ⟨?_, ?_, ?_⟩ trivial
    · intro _ _ he
      cases he
    · intro _ he
      cases he
    · intro _ he
      cases he

theorem honest_step (hoff : dev.streaming = false → Off sensor dev) {request : Request}
    (h : Honest m sensor dev request) (last : step m sensor dev request dev') :
    dev'.streaming = false → Off sensor dev' := by
  subst last
  cases request with
  | ioctl cmd replies =>
    cases cmd with
    | start =>
      intro hstopped
      by_cases hzero : (serve m sensor dev (.ioctl .start replies)).1 = 0
      · exact h.stopped .start replies rfl hzero hstopped
      · exact h.failed replies rfl hzero
    | stop =>
      intro hstopped
      have hzero : (serve m sensor dev (.ioctl .stop replies)).1 = 0 := by
        rw [serve_stop, stopStream]
        split <;> rfl
      exact h.stopped .stop replies rfl hzero hstopped
  | remove replies =>
    intro hstopped
    have hserve : (serve m sensor dev (.remove replies)).2 = unicamRemove m sensor dev replies :=
      rfl
    rw [hserve, unicamRemove] at hstopped ⊢
    cases hon : dev.streaming with
    | true =>
      have hkept : (unicamHwDisable m (dev.logged
          [(imx219StopStreaming sensor (replies 0)).transfer])).streaming = dev.streaming := rfl
      simp [hon, hkept] at hstopped
    | false => simpa [hon] using hoff hon

/-- Where the sensor was never written, the runs whose answers are all honest are the runs whose
requests are all harmless. -/
theorem honest_run_iff (hnew : dev.transfers = []) (requests : List Request)
    (dev' : UnicamDevice) :
    Run (Within (Honest m sensor) (step m sensor)) dev requests dev' ↔
      Run (Within (Harmless sensor) (step m sensor)) dev requests dev' := by
  have hstart : dev.streaming = false → Off sensor dev := by
    intro _ val hval
    simp [lastAcknowledged, hnew] at hval
  apply run_within_iff (fun d : UnicamDevice => d.streaming = false → Off sensor d) hstart
  · exact fun d r d' hi hok hstep => honest_step hi ((honest_iff hi r).mpr hok) hstep
  · exact fun d r d' hi _ => honest_iff hi r

/-- A START, its STOP, and a START that finds another sensor. -/
theorem honest_run_session : ∃ dev', Run (Within (Honest sampleMap sampleSensor)
    (step sampleMap sampleSensor)) sampleDevice [.ioctl .start (sampleReplies 2),
      .ioctl .stop (fun _ => ⟨1, 0⟩), .ioctl .start (fun _ => ⟨2, 0⟩)] dev' := by
  let started := serve sampleMap sampleSensor sampleDevice (.ioctl .start (sampleReplies 2))
  let stopped := serve sampleMap sampleSensor started.2 (.ioctl .stop (fun _ => ⟨1, 0⟩))
  let failed := serve sampleMap sampleSensor stopped.2 (.ioctl .start (fun _ => ⟨2, 0⟩))
  have hstart : Harmless sampleSensor sampleDevice (.ioctl .start (sampleReplies 2)) := by
    intro _ n hn
    have hacknowledged : (sampleReplies 2 (n + 2)).ret = 1 := by
      have hentry : n < 2 := hn.entry
      simp [sampleReplies, hentry]
    exact absurd hacknowledged hn.refused
  have hagain : Harmless sampleSensor stopped.2 (.ioctl .start (fun _ => ⟨2, 0⟩)) := by
    intro _ n hn
    exact absurd hn.identified.2.2 (by decide)
  refine ⟨failed.2, (honest_run_iff rfl _ _).mpr ?_⟩
  refine run_cons_iff.mpr ⟨started.2, ⟨hstart, rfl⟩, ?_⟩
  refine run_cons_iff.mpr ⟨stopped.2, ⟨fun _ => rfl, rfl⟩, ?_⟩
  exact .single ⟨hagain, rfl⟩

/-- The first entry switches the sensor on, the second one is not acknowledged. -/
theorem start_leaves_sensor_on : ¬ ∀ (m : RegisterMap) (sensor : Imx219)
    (dev dev' : UnicamDevice) (requests : List Request), dev.streaming = false →
    dev.transfers = [] → Run (step m sensor) dev requests dev' →
    Run (Within (Honest m sensor) (step m sensor)) dev requests dev' := by
  intro hall
  let sensor : Imx219 := { sampleSensor with mode7 := [(0x0100, 0x01), (0x0114, 0x01)] }
  let request : Request := .ioctl .start (sampleReplies 1)
  have hrun := hall sampleMap sensor sampleDevice _ [request] rfl rfl (.single rfl)
  obtain ⟨dev', hfirst, -⟩ := run_cons_iff.mp hrun
  have hnever : Off sensor sampleDevice := by
    intro val hval
    cases hval
  have hharmless := (honest_start_iff (fun _ => hnever) _).mp hfirst.1
  have hrefused : RefusedAt sensor (sampleReplies 1) 1 :=
    ⟨⟨rfl, rfl, rfl⟩, by decide, by decide, by decide⟩
  have hstandby := hharmless rfl 1 hrefused 0x01 rfl
  cases hstandby

end CameraDrivers.SensorStandby
