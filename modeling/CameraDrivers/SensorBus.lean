import CameraDrivers.RegisterPeripheral
import CameraDrivers.SensorConfiguration
import CameraDrivers.SensorStreaming

/-!
# The sensor at the other end of the I2C bus

A sensor whose registers have numbers of two bytes, behind the transfers of manual-unicam and
behind those of camera_main.c. A transfer that is not acknowledged broke off after some of its
bytes. The sensor answers reads with its registers, so the model id that START looks for is
the one it has.
-/
namespace CameraDrivers.SensorBus
open RegisterPeripheral UnicamState UnicamIoctl TransitionRuns
open StreamingAgreement (Op)

theorem regBytes_append (reg : BitVec 16) :
    (reg >>> 8).setWidth 8 ++ (reg &&& 0xff).setWidth 8 = reg := by
  have h := SensorConfiguration.decodeWrite_writeReg reg 0 ⟨1, 0⟩
  simpa [SensorConfiguration.decodeWrite, imx219WriteReg, regBytes] using h

/-- The messages that `imx219_write_reg` and `imx219_read_reg` send. -/
def twoByte : Framing (BitVec 16) where
  encode := regBytes
  decode
    | h :: l :: data => some (h ++ l, data)
    | _ => none
  succ reg := reg + 1
  decode_encode reg data := congrArg (fun r => some (r, data)) (regBytes_append reg)
  decode_cut reg k hk := by
    have hlength : (regBytes reg).length = 2 := rfl
    obtain rfl | rfl : k = 0 ∨ k = 1 := by omega
    · rfl
    · rfl

abbrev Sensor := Peripheral (BitVec 16)

/-- One transfer of the driver, as the sensor sees it. -/
def Exchange (t : I2cTransfer) (reply : I2cReply) (p p' : Sensor) : Prop :=
  if t.reads then
    ∃ q, Reaches twoByte t.bytes (reply.ret = 2) p q ∧
      (reply.ret = 2 → reply.data = (q.send twoByte).1) ∧ (p' = q ∨ p' = (q.send twoByte).2)
  else Reaches twoByte t.bytes (reply.ret = 1) p p'

def Talk : List I2cTransfer → (ℕ → I2cReply) → Sensor → Sensor → Prop
  | [], _, p, p' => p' = p
  | t :: ts, replies, p, p' =>
    ∃ q, Exchange t (replies 0) p q ∧ Talk ts (fun i => replies (i + 1)) q p'

/-- What a configuration does to the sensor. -/
structure Configured (sensor : Imx219) (p : Sensor) (ret : ℤ) (p' : Sensor) : Prop where
  success : ret = 0 → p'.regs = writeAll sensor.mode7 p.regs
  part : ∃ k ≤ sensor.mode7.length, p'.regs = writeAll (sensor.mode7.take k) p.regs
  stranger : modelIdOf (p.regs sensor.regModelIdH) (p.regs sensor.regModelIdL) ≠ sensor.modelId →
    ret ≠ 0 ∧ p'.regs = p.regs

variable {reg : BitVec 16} {val : BitVec 8} {reply : I2cReply} {p p' q : Sensor}
  {table : List (BitVec 16 × BitVec 8)} {replies : ℕ → I2cReply} {sensor : Imx219}

theorem exchange_writeReg (h : Exchange (imx219WriteReg reg val reply).transfer reply p p') :
    p'.regs = Function.update p.regs reg val ∨ reply.ret ≠ 1 ∧ p'.regs = p.regs :=
  Reaches.write (f := twoByte) h

theorem exchange_readReg (h : Exchange (imx219ReadReg reg reply).transfer reply p p') :
    p'.regs = p.regs ∧ (reply.ret = 2 → reply.data = p.regs reg) := by
  obtain ⟨q, hq, hdata, hp⟩ := h
  obtain ⟨hregs, hpointer⟩ := Reaches.address (f := twoByte) hq
  refine ⟨?_, fun hret => ?_⟩
  · rcases hp with rfl | rfl
    · exact hregs
    · exact hregs
  · rw [hdata hret, Peripheral.send, hpointer hret, hregs]

/-- The loop puts a part of the table into the sensor, and all of it if it returns 0. -/
theorem talk_writeTable (h : Talk (imx219WriteTable table replies).2 replies p p') :
    ∃ k ≤ table.length, p'.regs = writeAll (table.take k) p.regs ∧
      ((imx219WriteTable table replies).1 = 0 → k = table.length) := by
  induction table generalizing replies p with
  | nil =>
    obtain rfl : p' = p := h
    exact ⟨0, le_rfl, rfl, fun _ => rfl⟩
  | cons entry rest ih =>
    by_cases hret : (imx219WriteReg entry.1 entry.2 (replies 0)).ret = 0
    · have hloop : imx219WriteTable (entry :: rest) replies =
          ((imx219WriteTable rest (fun i => replies (i + 1))).1,
            (imx219WriteReg entry.1 entry.2 (replies 0)).transfer ::
              (imx219WriteTable rest (fun i => replies (i + 1))).2) := by
        simp only [imx219WriteTable, hret, ne_eq, not_true_eq_false, if_false]
      rw [hloop] at h ⊢
      obtain ⟨q, hq, hrest⟩ := h
      obtain ⟨k, hk, hregs, hall⟩ := ih hrest
      have hfirst : q.regs = Function.update p.regs entry.1 entry.2 := by
        rcases exchange_writeReg hq with hwritten | ⟨hrefused, -⟩
        · exact hwritten
        · exact absurd ((imx219WriteReg_ret _ _ _).mp hret) hrefused
      refine ⟨k + 1, by simpa using hk, ?_, fun hzero => by simpa using hall hzero⟩
      rw [hregs, hfirst, List.take_succ_cons, writeAll_cons]
    · have hloop : imx219WriteTable (entry :: rest) replies =
          ((imx219WriteReg entry.1 entry.2 (replies 0)).ret,
            [(imx219WriteReg entry.1 entry.2 (replies 0)).transfer]) := by
        simp only [imx219WriteTable, ne_eq, hret, not_false_eq_true, if_true]
      rw [hloop] at h ⊢
      obtain ⟨q, hq, rfl⟩ := h
      rcases exchange_writeReg hq with hwritten | ⟨-, hsame⟩
      · exact ⟨1, by simp, by simpa using hwritten, fun hzero => absurd hzero hret⟩
      · exact ⟨0, by simp, by simpa using hsame, fun hzero => absurd hzero hret⟩

/-- `imx219_configure_mode7` and the sensor together. -/
theorem talk_configureMode7
    (h : Talk (imx219ConfigureMode7 sensor replies).2 replies p p') :
    Configured sensor p (imx219ConfigureMode7 sensor replies).1 p' := by
  by_cases hh : (replies 0).ret = 2
  · by_cases hl : (replies 1).ret = 2
    · by_cases hid : modelIdOf (replies 0).data (replies 1).data = sensor.modelId
      · have hresult : imx219ConfigureMode7 sensor replies =
            ((imx219WriteTable sensor.mode7 (fun i => replies (i + 2))).1,
              (imx219ReadReg sensor.regModelIdH (replies 0)).transfer ::
              (imx219ReadReg sensor.regModelIdL (replies 1)).transfer ::
                (imx219WriteTable sensor.mode7 (fun i => replies (i + 2))).2) := by
          simp [imx219ConfigureMode7, SensorStandby.imx219ReadReg_val, hh, hl, hid]
        rw [hresult] at h ⊢
        obtain ⟨q, hq, r, hr, htable⟩ := h
        obtain ⟨hqregs, hqdata⟩ := exchange_readReg hq
        obtain ⟨hrregs, hrdata⟩ := exchange_readReg hr
        have hsame : r.regs = p.regs := hrregs.trans hqregs
        obtain ⟨k, hk, hregs, hall⟩ := talk_writeTable htable
        rw [hsame] at hregs
        refine ⟨fun hzero => ?_, ⟨k, hk, hregs⟩, fun hne => absurd ?_ hne⟩
        · rw [hregs, hall hzero, List.take_length]
        · rw [← hqdata hh, ← hqregs, ← hrdata hl, hid]
      · have hresult : imx219ConfigureMode7 sensor replies =
            (-enodev, SensorConfiguration.idReads sensor replies) := by
          simp [imx219ConfigureMode7, SensorStandby.imx219ReadReg_val, hh, hl, hid,
            SensorConfiguration.idReads]
        rw [hresult] at h ⊢
        obtain ⟨q, hq, r, hr, rfl⟩ := h
        have hsame := (exchange_readReg hr).1.trans (exchange_readReg hq).1
        exact ⟨by simp [enodev], ⟨0, by simp, hsame⟩, fun _ => ⟨by simp [enodev], hsame⟩⟩
    · have hresult : imx219ConfigureMode7 sensor replies =
          (-eio, SensorConfiguration.idReads sensor replies) := by
        simp [imx219ConfigureMode7, hh, hl, SensorConfiguration.idReads, imx219ReadReg, eio]
      rw [hresult] at h ⊢
      obtain ⟨q, hq, r, hr, rfl⟩ := h
      have hsame := (exchange_readReg hr).1.trans (exchange_readReg hq).1
      exact ⟨by simp [eio], ⟨0, by simp, hsame⟩, fun _ => ⟨by simp [eio], hsame⟩⟩
  · have hresult : imx219ConfigureMode7 sensor replies =
        (-eio, [(imx219ReadReg sensor.regModelIdH (replies 0)).transfer]) := by
      simp [imx219ConfigureMode7, hh, imx219ReadReg, eio]
    rw [hresult] at h ⊢
    obtain ⟨q, hq, rfl⟩ := h
    have hsame := (exchange_readReg hq).1
    exact ⟨by simp [eio], ⟨0, by simp, hsame⟩, fun _ => ⟨by simp [eio], hsame⟩⟩

/-- The value that comes back for a register is the last one of a table that was written, or
what the register held before it. -/
theorem readReg_written {read : I2cReply}
    (hwrite : Talk (imx219WriteTable table replies).2 replies p q)
    (hok : (imx219WriteTable table replies).1 = 0)
    (hread : Exchange (imx219ReadReg reg read).transfer read q p')
    (hread' : (imx219ReadReg reg read).ret = 0) :
    (imx219ReadReg reg read).val = (lastEntry table reg).getD (p.regs reg) := by
  obtain ⟨k, -, hregs, hall⟩ := talk_writeTable hwrite
  have hdata := (exchange_readReg hread).2 ((imx219ReadReg_ret reg read).mp hread')
  rw [SensorStandby.imx219ReadReg_val, hdata, hregs, hall hok, List.take_length, writeAll_apply]

theorem readReg_written_one : (imx219ReadReg 0x0100 ⟨2, 0x01⟩).val =
    (lastEntry [((0x0100 : BitVec 16), (0x01 : BitVec 8))] 0x0100).getD 0 := by
  let p : Sensor := ⟨fun _ => 0, 0⟩
  let q : Sensor := receive twoByte (regBytes 0x0100 ++ [0x01]) p
  let r : Sensor := receive twoByte (regBytes 0x0100) q
  have hwrite : Talk (imx219WriteTable [(0x0100, 0x01)] (fun _ => ⟨1, 0⟩)).2
      (fun _ => ⟨1, 0⟩) p q := ⟨q, .inl ⟨rfl, rfl⟩, rfl⟩
  have hread : Exchange (imx219ReadReg 0x0100 ⟨2, 0x01⟩).transfer ⟨2, 0x01⟩ q r :=
    ⟨r, .inl ⟨rfl, rfl⟩, fun _ => by decide, .inl rfl⟩
  exact readReg_written hwrite rfl hread rfl

section Runs

/-- manual-unicam and its sensor. -/
structure Bus where
  dev : UnicamDevice
  sensor : Sensor

/-- The answers to the transfers of an operation. -/
def answers : Op → ℕ → I2cReply
  | .ioctl _ replies _ => replies
  | _ => fun _ => ⟨0, 0⟩

def step (m : RegisterMap) (sensor : Imx219) (s : Bus) (op : Op) (s' : Bus) : Prop :=
  s'.dev = StreamingAgreement.step m sensor s.dev op ∧
    ∃ ts, s'.dev.transfers = s.dev.transfers ++ ts ∧ Talk ts (answers op) s.sensor s'.sensor

variable {m : RegisterMap} {s s' : Bus} {op : Op} {ops : List Op}

theorem talk_of_transfers {ts us : List I2cTransfer} {dev dev' : UnicamDevice}
    (hts : dev'.transfers = dev.transfers ++ ts) (hus : dev'.transfers = dev.transfers ++ us)
    (h : Talk ts replies p p') : Talk us replies p p' :=
  List.append_cancel_left (hts.symm.trans hus) ▸ h

theorem step_quiet (h : step m sensor s op s') (hdev : s'.dev.streaming = s.dev.streaming)
    (htransfers : s'.dev.transfers = s.dev.transfers) :
    s'.dev.streaming = s.dev.streaming ∧ s'.sensor = s.sensor := by
  obtain ⟨-, ts, hts, htalk⟩ := h
  have hnil : Talk [] (answers op) s.sensor s'.sensor :=
    talk_of_transfers hts (by rw [htransfers, List.append_nil]) htalk
  exact ⟨hdev, hnil⟩

theorem isr_transfers (m : RegisterMap) (dev : UnicamDevice) :
    (unicamIsr m dev).2.transfers = dev.transfers := by
  rw [unicamIsr]
  split
  · rfl
  · split <;> rfl

/-- What an operation does to the flag and to the sensor. -/
theorem step_cases (h : step m sensor s op s') :
    (s'.dev.streaming = s.dev.streaming ∧ s'.sensor = s.sensor) ∨
    (s.dev.streaming = false ∧ ∃ ret, (s'.dev.streaming = true ↔ ret = 0) ∧
      Configured sensor s.sensor ret s'.sensor) ∨
    (s.dev.streaming = true ∧ s'.dev.streaming = false ∧
      (s'.sensor.regs = s.sensor.regs ∨ s'.sensor.regs =
        Function.update s.sensor.regs sensor.regModeSelect sensor.modeStandby)) := by
  obtain ⟨hdev, ts, hts, htalk⟩ := h
  cases op with
  | read count uncopied => exact .inl (step_quiet ⟨hdev, ts, hts, htalk⟩ (by rw [hdev]; rfl)
      (by rw [hdev]; rfl))
  | hardware ista ibwp => exact .inl (step_quiet ⟨hdev, ts, hts, htalk⟩ (by rw [hdev]; rfl)
      (by rw [hdev]; rfl))
  | isr =>
    have hisr : s'.dev = (unicamIsr m s.dev).2 := hdev
    exact .inl (step_quiet ⟨hdev, ts, hts, htalk⟩
      (by rw [hisr, (StreamingAgreement.isr_frame m s.dev).1]) (by rw [hisr, isr_transfers]))
  | ioctl cmd replies uncopied =>
    have hioctl : s'.dev = (unicamIoctl m sensor s.dev cmd replies uncopied).2 := hdev
    by_cases hno : StreamingAgreement.noEffect s.dev cmd
    · rw [StreamingAgreement.ioctl_noEffect hno] at hioctl
      exact .inl (step_quiet ⟨hdev, ts, hts, htalk⟩ (by rw [hioctl]) (by rw [hioctl]))
    · right
      by_cases hstart : cmd = unicamIocStartStream
      · have hoff : s.dev.streaming = false := by
          by_contra hon
          exact hno (.inl ⟨hstart, by simpa using hon⟩)
        have hdev' : s'.dev = (startStream m sensor s.dev replies).2 := by
          rw [hioctl, unicamIoctl, if_pos hstart]
        have hus : s'.dev.transfers = s.dev.transfers ++
            (imx219ConfigureMode7 sensor replies).2 := by
          rw [hdev', SensorStandby.startStream_transfers hoff]
          rfl
        refine .inl ⟨hoff, _, ?_, talk_configureMode7 (talk_of_transfers hts hus htalk)⟩
        rw [hdev', imx219ConfigureMode7_ret]
        rcases StreamingAgreement.startStream_cases m sensor hoff replies with
          ⟨hc, -, hon, -⟩ | ⟨hc, -, hoff', -⟩
        · exact iff_of_true hon hc
        · exact iff_of_false (by simp [hoff']) hc
      · have hstop : cmd = unicamIocStopStream ∧ s.dev.streaming = true := by
          by_contra hc
          refine hno ?_
          by_cases hcmd : cmd = unicamIocStopStream
          · exact .inr (.inl ⟨hcmd, by simpa using fun hon => hc ⟨hcmd, hon⟩⟩)
          · exact .inr (.inr ⟨hstart, hcmd⟩)
        have hdev' : s'.dev = (stopStream m sensor s.dev replies).2 := by
          rw [hioctl, unicamIoctl, if_neg hstart, if_pos hstop.1]
        have hus : s'.dev.transfers = s.dev.transfers ++
            [(imx219StopStreaming sensor (replies 0)).transfer] := by
          rw [hdev', stopStream, if_pos hstop.2]
          rfl
        obtain ⟨q, hq, hlast⟩ := talk_of_transfers hts hus htalk
        have hlast' : s'.sensor = q := hlast
        refine .inr ⟨hstop.2, ?_, ?_⟩
        · rw [hdev']
          exact (StreamingAgreement.stopStream_streaming m sensor hstop.2 replies).1
        · rw [hlast']
          exact (exchange_writeReg hq).symm.imp_left And.right

/-- What the driver's flag and the table say about the registers of the sensor. -/
structure Held (sensor : Imx219) (p : Sensor) (s : Bus) : Prop where
  held : s.dev.streaming = true →
    ∀ reg val, lastEntry sensor.mode7 reg = some val → s.sensor.regs reg = val
  frame : ∀ reg, lastEntry sensor.mode7 reg = none → reg ≠ sensor.regModeSelect →
    s.sensor.regs reg = p.regs reg

theorem lastEntry_take {k : ℕ} (h : lastEntry table reg = none) :
    lastEntry (table.take k) reg = none := by
  rw [lastEntry_eq_none] at h ⊢
  exact fun entry hentry => h entry (List.mem_of_mem_take hentry)

theorem held_step (h : Held sensor p s) (hs : step m sensor s op s') : Held sensor p s' := by
  rcases step_cases hs with ⟨hon, hsame⟩ | ⟨-, ret, hon, hc⟩ | ⟨-, hoff, hregs⟩
  · exact ⟨fun hs' => hsame ▸ h.held (hon ▸ hs'), fun reg => hsame ▸ h.frame reg⟩
  · refine ⟨fun hs' reg val hval => ?_, fun reg hnone hmode => ?_⟩
    · rw [hc.success (hon.mp hs'), writeAll_apply, hval, Option.getD_some]
    · obtain ⟨k, -, hregs⟩ := hc.part
      rw [hregs, writeAll_apply, lastEntry_take hnone, Option.getD_none, h.frame reg hnone hmode]
  · refine ⟨fun hs' => by simp [hoff] at hs', fun reg hnone hmode => ?_⟩
    rcases hregs with hregs | hregs
    · rw [hregs, h.frame reg hnone hmode]
    · rw [hregs, Function.update_of_ne hmode, h.frame reg hnone hmode]

/-- In every run: while the driver streams the sensor holds the whole table, and no register
beside the table and the mode ever changes. -/
theorem streaming_tableHeld (hoff : s.dev.streaming = false) (run : Run (step m sensor) s ops s') :
    Held sensor s.sensor s' := by
  apply run.invariant (Held sensor s.sensor)
  · exact ⟨fun hon => by simp [hoff] at hon, fun _ _ _ => rfl⟩
  · exact fun _ _ _ => held_step

/-- A sensor with the id 0x0219. -/
def samplePeripheral : Sensor := ⟨fun r => if r = 0 then 0x02 else if r = 1 then 0x19 else 0, 0⟩

theorem streaming_tableHeld_start : ∃ s' : Bus, s'.dev.streaming = true ∧
    s'.sensor.regs 0x0114 = 0x01 := by
  let op : Op := .ioctl unicamIocStartStream (sampleReplies 4) 0
  let q : Sensor := receive twoByte (regBytes 0x0001)
    (receive twoByte (regBytes 0x0000) samplePeripheral)
  let s' : Bus := ⟨StreamingAgreement.step sampleMap sampleSensor sampleDevice op,
    receive twoByte (regBytes 0x0100 ++ [0x01]) (receive twoByte (regBytes 0x0114 ++ [0x01]) q)⟩
  have hstep : step sampleMap sampleSensor ⟨sampleDevice, samplePeripheral⟩ op s' :=
    ⟨rfl, _, rfl, _, ⟨_, .inl ⟨rfl, rfl⟩, fun _ => by decide, .inl rfl⟩,
      _, ⟨_, .inl ⟨rfl, rfl⟩, fun _ => by decide, .inl rfl⟩,
      _, .inl ⟨rfl, rfl⟩, _, .inl ⟨rfl, rfl⟩, rfl⟩
  have hheld := streaming_tableHeld rfl (Run.single hstep)
  exact ⟨s', rfl, hheld.held rfl 0x0114 0x01 (by decide)⟩

/-- A sensor with another id is never written, whatever the table and the transfers are. -/
theorem stranger_untouched (hoff : s.dev.streaming = false)
    (hid : modelIdOf (s.sensor.regs sensor.regModelIdH) (s.sensor.regs sensor.regModelIdL) ≠
      sensor.modelId) (run : Run (step m sensor) s ops s') :
    s'.dev.streaming = false ∧ s'.sensor.regs = s.sensor.regs := by
  apply run.invariant (fun t => t.dev.streaming = false ∧ t.sensor.regs = s.sensor.regs)
  · exact ⟨hoff, rfl⟩
  · rintro t op t' ⟨hoff', hregs⟩ ht
    rcases step_cases ht with ⟨hon, hsame⟩ | ⟨-, ret, hon, hc⟩ | ⟨hon, -, -⟩
    · rw [hon, hsame]
      exact ⟨hoff', hregs⟩
    · obtain ⟨hret, hsame⟩ := hc.stranger (hregs ▸ hid)
      refine ⟨?_, hsame.trans hregs⟩
      rw [← Bool.not_eq_true, hon]
      exact hret
    · simp [hoff'] at hon

theorem stranger_untouched_start : ∃ s' : Bus, s'.dev.transfers.length = 2 ∧
    s'.dev.streaming = false ∧ s'.sensor.regs = fun _ => 0 := by
  let op : Op := .ioctl unicamIocStartStream (fun _ => ⟨2, 0⟩) 0
  let p : Sensor := ⟨fun _ => 0, 0⟩
  let s' : Bus := ⟨StreamingAgreement.step sampleMap sampleSensor sampleDevice op,
    receive twoByte (regBytes 0x0001) (receive twoByte (regBytes 0x0000) p)⟩
  have hstep : step sampleMap sampleSensor ⟨sampleDevice, p⟩ op s' :=
    ⟨rfl, _, rfl, _, ⟨_, .inl ⟨rfl, rfl⟩, fun _ => rfl, .inl rfl⟩,
      _, ⟨_, .inl ⟨rfl, rfl⟩, fun _ => rfl, .inl rfl⟩, rfl⟩
  have hsame := stranger_untouched rfl (by decide) (Run.single hstep)
  exact ⟨s', rfl, hsame⟩

end Runs

section Smbus

open SensorStreaming (Call Helper Session)

/-- A use of the sensor by camera_main.c. -/
inductive MainCall
  | callback (c : Call)
  | helper (helper : Helper) (width height : ℤ) (replies : ℕ → ℤ)

structure MainBus (n : ℕ) where
  session : Session n
  sensor : Sensor

/-- The message of `i2c_smbus_write_byte_data`, and whether it was acknowledged. -/
def smbusMessage (w : BitVec 8 × BitVec 8) (ret : ℤ) : List Byte × Bool :=
  ([w.1, w.2], decide (0 ≤ ret))

variable {n : ℕ}

def messages (client : Bool) (s : Session n) : MainCall → List (List Byte × Bool)
  | .callback (.start reply) =>
    (MainCallbacks.startStreaming client reply s.cam).writes.map (smbusMessage · reply)
  | .callback (.stop reply) =>
    (MainCallbacks.stopStreaming client s.cam).writes.map (smbusMessage · reply)
  | .helper helper width height replies =>
    (helper.run width height replies).2.map (fun w => smbusMessage w.onBus w.ret)

def Hears : List (List Byte × Bool) → Sensor → Sensor → Prop
  | [], p, p' => p' = p
  | msg :: msgs, p, p' => ∃ q, Reaches twoByte msg.1 (msg.2 = true) p q ∧ Hears msgs q p'

def sessionAfter (client : Bool) (s : Session n) : MainCall → Session n
  | .callback c => SensorStreaming.call client s c
  | .helper _ _ _ _ => s

def mainStep (client : Bool) (s : MainBus n) (c : MainCall) (s' : MainBus n) : Prop :=
  s'.session = sessionAfter client s.session c ∧
    Hears (messages client s.session c) s.sensor s'.sensor

variable {s s' : MainBus n} {client : Bool} {cs : List MainCall}

/-- The sensor takes the two bytes for the number of a register. -/
theorem reaches_pair {h l : Byte} {done : Prop} (hr : Reaches twoByte [h, l] done p p') :
    p'.regs = p.regs := by
  rcases hr with ⟨-, rfl⟩ | ⟨-, k, rfl⟩
  · rfl
  · obtain rfl | rfl | hk : k = 0 ∨ k = 1 ∨ 2 ≤ k := by omega
    · rfl
    · rfl
    · rw [List.take_of_length_le (by simpa using hk)]
      rfl

theorem messages_pair {msg : List Byte × Bool} {s : Session n} {c : MainCall}
    (h : msg ∈ messages client s c) : ∃ h l, msg.1 = [h, l] := by
  cases c with
  | callback c =>
    cases c with
    | start reply =>
      obtain ⟨w, -, rfl⟩ := List.mem_map.mp h
      exact ⟨w.1, w.2, rfl⟩
    | stop reply =>
      obtain ⟨w, -, rfl⟩ := List.mem_map.mp h
      exact ⟨w.1, w.2, rfl⟩
  | helper helper width height replies =>
    obtain ⟨w, -, rfl⟩ := List.mem_map.mp h
    exact ⟨w.onBus.1, w.onBus.2, rfl⟩

theorem hears_pairs {msgs : List (List Byte × Bool)} (h : Hears msgs p p')
    (hpair : ∀ msg ∈ msgs, ∃ h l, msg.1 = [h, l]) : p'.regs = p.regs := by
  induction msgs generalizing p with
  | nil =>
    obtain rfl : p' = p := h
    rfl
  | cons msg msgs ih =>
    obtain ⟨q, hq, hrest⟩ := h
    obtain ⟨high, low, hmsg⟩ := hpair msg List.mem_cons_self
    rw [hmsg] at hq
    rw [ih hrest (fun msg' hm => hpair msg' (List.mem_cons_of_mem _ hm)), reaches_pair hq]

/-- Whatever camera_main.c calls, in any order and with any answers, no register of a sensor
with register numbers of two bytes changes. -/
theorem smbus_unheard (run : Run (mainStep client) s cs s') :
    s'.sensor.regs = s.sensor.regs := by
  apply run.invariant (fun t => t.sensor.regs = s.sensor.regs) rfl
  intro t c t' ht hstep
  exact (hears_pairs hstep.2 (fun _ => messages_pair)).trans ht

theorem smbus_unheard_start : ∃ s' : MainBus 1, s'.session.cam.streaming = true ∧
    s'.sensor.regs = samplePeripheral.regs := by
  let c : MainCall := .callback (.start 0)
  let s' : MainBus 1 := ⟨SensorStreaming.call true (.initial 1) (.start 0),
    receive twoByte [0x60, 0x01] samplePeripheral⟩
  have hstep : mainStep true ⟨.initial 1, samplePeripheral⟩ c s' :=
    ⟨rfl, _, .inl ⟨rfl, rfl⟩, rfl⟩
  exact ⟨s', rfl, smbus_unheard (Run.single hstep)⟩

end Smbus

end CameraDrivers.SensorBus
