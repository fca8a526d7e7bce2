import CameraDrivers.SensorStandby

/-!
# The configuration of the sensor of manual-unicam as a prefix of its table

`imx219_configure_mode7` reads the two halves of the id and then writes the table one entry at a
time, until a transfer is not acknowledged. What it did is read off the bus.
-/
namespace CameraDrivers.SensorConfiguration
open UnicamState UnicamIoctl
open SensorStandby (Identified writeTable_refused imx219ReadReg_val)

/-- The register and the value of a write: the high byte, the low byte, the value. -/
def decodeWrite (t : I2cTransfer) : Option (BitVec 16 × BitVec 8) :=
  match t.bytes with
  | [h, l, val] => some (h ++ l, val)
  | _ => none

def writesOf (ts : List I2cTransfer) : List I2cTransfer := ts.filter (fun t => !t.reads)

def acknowledgedOf (ts : List I2cTransfer) : List I2cTransfer :=
  (writesOf ts).filter (fun t => t.ret = 1)

/-- The transfers of the two reads of the id. -/
def idReads (sensor : Imx219) (replies : ℕ → I2cReply) : List I2cTransfer :=
  [(imx219ReadReg sensor.regModelIdH (replies 0)).transfer,
    (imx219ReadReg sensor.regModelIdL (replies 1)).transfer]

/-- The transfers of a table that is written to its end. -/
def attempts (replies : ℕ → I2cReply) (table : List (BitVec 16 × BitVec 8)) : List I2cTransfer :=
  table.mapIdx (fun i entry => (imx219WriteReg entry.1 entry.2 (replies i)).transfer)

/-- What the answers, the return value and the transfers of a configuration say of each other. The
error of a write is -EIO, whatever the transfer failed with. -/
structure PrefixWritten (sensor : Imx219) (replies : ℕ → I2cReply) (ret : ℤ)
    (ts : List I2cTransfer) : Prop where
  inOrder : ∃ k ≤ sensor.mode7.length,
    (writesOf ts).map decodeWrite = (sensor.mode7.take k).map some
  guarded : writesOf ts ≠ [] →
    Identified sensor replies ∧ ts = idReads sensor replies ++ writesOf ts
  success : ret = 0 ↔ Identified sensor replies ∧
    (acknowledgedOf ts).map decodeWrite = sensor.mode7.map some
  complete : Configures sensor replies ↔ ret = 0 ∧ ts = configuredTransfers sensor
  failure : ∀ k t, (writesOf ts)[k]? = some t → t.ret ≠ 1 →
    (writesOf ts).map decodeWrite = (sensor.mode7.take (k + 1)).map some ∧
    (acknowledgedOf ts).map decodeWrite = (sensor.mode7.take k).map some ∧
    ∃ entry, sensor.mode7[k]? = some entry ∧
      t = (imx219WriteReg entry.1 entry.2 (replies (k + 2))).transfer ∧ ret = -eio

variable {sensor : Imx219} {replies : ℕ → I2cReply} {table : List (BitVec 16 × BitVec 8)}

/-- The two bytes on the bus are the register number. -/
theorem decodeWrite_writeReg (reg : BitVec 16) (val : BitVec 8) (reply : I2cReply) :
    decodeWrite (imx219WriteReg reg val reply).transfer = some (reg, val) := by
  have hmask : BitVec.toNat (255 : BitVec 16) = 2 ^ 8 - 1 := rfl
  have hhigh : ((reg >>> 8).setWidth 8).toNat = reg.toNat / 2 ^ 8 := by
    rw [BitVec.toNat_setWidth, BitVec.toNat_ushiftRight, Nat.shiftRight_eq_div_pow]
    exact Nat.mod_eq_of_lt (by omega)
  have hlow : ((reg &&& 255).setWidth 8).toNat = reg.toNat % 2 ^ 8 := by
    rw [BitVec.toNat_setWidth, BitVec.toNat_and, hmask, Nat.and_two_pow_sub_one_eq_mod,
      Nat.mod_mod]
  have hreg : (reg >>> 8).setWidth 8 ++ (reg &&& 255).setWidth 8 = reg := by
    apply BitVec.eq_of_toNat_eq
    rw [BitVec.toNat_append, ← Nat.shiftLeft_add_eq_or_of_lt (BitVec.isLt _), hhigh, hlow,
      Nat.shiftLeft_eq]
    omega
  rw [decodeWrite]
  exact congrArg (fun r => some (r, val)) hreg

theorem writeTable_written (replies : ℕ → I2cReply) (h : ∀ i < table.length, (replies i).ret = 1) :
    imx219WriteTable table replies = (0, attempts replies table) := by
  induction table generalizing replies with
  | nil => rfl
  | cons entry rest ih =>
    rw [List.length_cons, Nat.forall_lt_succ_left] at h
    have hret := (imx219WriteReg_ret entry.1 entry.2 (replies 0)).mpr h.1
    have hrest := ih (fun i => replies (i + 1)) h.2
    simp only [imx219WriteTable, hret, hrest, attempts, List.mapIdx_cons, ne_eq,
      not_true_eq_false, if_false]

/-- The loop ends at the first entry that is refused. -/
theorem writeTable_stopped (replies : ℕ → I2cReply) {n : ℕ} {entry : BitVec 16 × BitVec 8}
    (hentry : table[n]? = some entry) (written : ∀ i < n, (replies i).ret = 1)
    (refused : (replies n).ret ≠ 1) :
    imx219WriteTable table replies =
      ((imx219WriteReg entry.1 entry.2 (replies n)).ret,
        attempts replies (table.take (n + 1))) := by
  induction table generalizing replies n with
  | nil => simp at hentry
  | cons first rest ih =>
    cases n with
    | zero =>
      cases hentry
      have hret := mt (imx219WriteReg_ret entry.1 entry.2 (replies 0)).mp refused
      simp only [imx219WriteTable, ne_eq, hret, not_false_eq_true, if_true, attempts,
        List.take_succ_cons, List.take_zero, List.mapIdx_cons, List.mapIdx_nil]
    | succ n =>
      rw [Nat.forall_lt_succ_left] at written
      have hret := (imx219WriteReg_ret first.1 first.2 (replies 0)).mpr written.1
      have hrest := ih (fun i => replies (i + 1)) hentry written.2 refused
      simp only [imx219WriteTable, hret, hrest, attempts, List.take_succ_cons, List.mapIdx_cons,
        ne_eq, not_true_eq_false, if_false]

theorem attempts_get? (replies : ℕ → I2cReply) (table : List (BitVec 16 × BitVec 8)) (k : ℕ) :
    (attempts replies table)[k]? =
      table[k]?.map (fun entry => (imx219WriteReg entry.1 entry.2 (replies k)).transfer) :=
  List.getElem?_mapIdx

theorem attempts_mem {t : I2cTransfer} (h : t ∈ attempts replies table) :
    ∃ i < table.length, t.reads = false ∧ t.ret = (replies i).ret := by
  obtain ⟨i, hi, rfl⟩ := List.mem_mapIdx.mp h
  exact ⟨i, hi, rfl, rfl⟩

theorem attempts_decode (replies : ℕ → I2cReply) (table : List (BitVec 16 × BitVec 8)) :
    (attempts replies table).map decodeWrite = table.map some := by
  apply List.ext_getElem?
  intro k
  rw [List.getElem?_map, List.getElem?_map, attempts_get?, Option.map_map]
  congr 1
  funext entry
  exact decodeWrite_writeReg entry.1 entry.2 (replies k)

theorem writesOf_attempts : writesOf (attempts replies table) = attempts replies table := by
  rw [writesOf, List.filter_eq_self]
  intro t ht
  obtain ⟨i, -, hwrite, -⟩ := attempts_mem ht
  simp [hwrite]

theorem acknowledgedOf_written (table : List (BitVec 16 × BitVec 8)) (replies : ℕ → I2cReply)
    (h : ∀ i < table.length, (replies i).ret = 1) :
    acknowledgedOf (attempts replies table) = attempts replies table := by
  rw [acknowledgedOf, writesOf_attempts, List.filter_eq_self]
  intro t ht
  obtain ⟨i, hi, -, hret⟩ := attempts_mem ht
  simp [hret, h i hi]

/-- The refused write is the last one, and the only one without an answer. -/
theorem acknowledgedOf_stopped (replies : ℕ → I2cReply) {n : ℕ} (hn : n < table.length)
    (written : ∀ i < n, (replies i).ret = 1) (refused : (replies n).ret ≠ 1) :
    acknowledgedOf (attempts replies (table.take (n + 1))) = attempts replies (table.take n) := by
  have hlength : (table.take n).length = n := List.length_take_of_le hn.le
  have hlast : attempts replies (table.take (n + 1)) = attempts replies (table.take n) ++
      [(imx219WriteReg table[n].1 table[n].2 (replies n)).transfer] := by
    rw [attempts, List.take_succ_eq_append_getElem hn, List.mapIdx_concat, hlength]
    rfl
  have hfirst := acknowledgedOf_written (table.take n) replies (by rwa [hlength])
  rw [acknowledgedOf, writesOf_attempts] at hfirst ⊢
  rw [hlast, List.filter_append, hfirst]
  simp [imx219WriteReg, refused]

/-- The table is written after the id was read and found right, and only then. -/
theorem configureMode7_cases (sensor : Imx219) (replies : ℕ → I2cReply) :
    (¬ Identified sensor replies ∧ (imx219ConfigureMode7 sensor replies).1 ≠ 0 ∧
      writesOf (imx219ConfigureMode7 sensor replies).2 = []) ∨
    (Identified sensor replies ∧ imx219ConfigureMode7 sensor replies =
      ((imx219WriteTable sensor.mode7 (fun i => replies (i + 2))).1, idReads sensor replies ++
        (imx219WriteTable sensor.mode7 (fun i => replies (i + 2))).2)) := by
  by_cases hh : (replies 0).ret = 2
  · by_cases hl : (replies 1).ret = 2
    · by_cases hid : modelIdOf (replies 0).data (replies 1).data = sensor.modelId
      · right
        refine ⟨⟨hh, hl, hid⟩, ?_⟩
        simp [imx219ConfigureMode7, imx219ReadReg_val, hh, hl, hid, idReads]
      · left
        have hresult : imx219ConfigureMode7 sensor replies = (-enodev, idReads sensor replies) := by
          simp [imx219ConfigureMode7, imx219ReadReg_val, hh, hl, hid, idReads]
        rw [hresult]
        exact ⟨fun h => hid h.2.2, by simp [enodev], rfl⟩
    · left
      have hresult : imx219ConfigureMode7 sensor replies = (-eio, idReads sensor replies) := by
        simp [imx219ConfigureMode7, hh, hl, idReads, imx219ReadReg, eio]
      rw [hresult]
      exact ⟨fun h => hl h.2.1, by simp [eio], rfl⟩
  · left
    have hresult : imx219ConfigureMode7 sensor replies =
        (-eio, [(imx219ReadReg sensor.regModelIdH (replies 0)).transfer]) := by
      simp [imx219ConfigureMode7, hh, imx219ReadReg, eio]
    rw [hresult]
    exact ⟨fun h => hh h.1, by simp [eio], rfl⟩

theorem writesOf_idReads (ts : List I2cTransfer) :
    writesOf (idReads sensor replies ++ ts) = writesOf ts := by
  rw [writesOf, List.filter_append]
  rfl

theorem acknowledgedOf_idReads (ts : List I2cTransfer) :
    acknowledgedOf (idReads sensor replies ++ ts) = acknowledgedOf ts := by
  rw [acknowledgedOf, writesOf_idReads, acknowledgedOf]

theorem configures_iff (sensor : Imx219) (replies : ℕ → I2cReply) :
    Configures sensor replies ↔ Identified sensor replies ∧
      ∀ i < sensor.mode7.length, (replies (i + 2)).ret = 1 := by
  simp only [Configures, Identified, and_assoc]

theorem configuredTransfers_eq (hid : Identified sensor replies)
    (written : ∀ i < sensor.mode7.length, (replies (i + 2)).ret = 1) :
    idReads sensor replies ++ attempts (fun i => replies (i + 2)) sensor.mode7 =
      configuredTransfers sensor := by
  have hc := (configures_iff sensor replies).mpr ⟨hid, written⟩
  have hts := ((imx219ConfigureMode7_transfers sensor replies).mpr hc).2
  rcases configureMode7_cases sensor replies with ⟨hno, -⟩ | ⟨-, hresult⟩
  · exact absurd hid hno
  · rw [hresult, writeTable_written _ written] at hts
    exact hts

/-- The sensor that does not answer with its id is written nothing. -/
theorem prefixWritten_unidentified {ret : ℤ} {ts : List I2cTransfer}
    (hid : ¬ Identified sensor replies) (hret : ret ≠ 0) (hts : writesOf ts = []) :
    PrefixWritten sensor replies ret ts where
  inOrder := ⟨0, by omega, by rw [hts]; rfl⟩
  guarded := fun h => absurd hts h
  success := iff_of_false hret (fun h => hid h.1)
  complete := iff_of_false (fun hc => hid ((configures_iff _ _).mp hc).1) (fun h => hret h.1)
  failure := by
    intro k t ht
    rw [hts] at ht
    cases ht

theorem prefixWritten_written (hid : Identified sensor replies)
    (written : ∀ i < sensor.mode7.length, (replies (i + 2)).ret = 1) :
    PrefixWritten sensor replies 0
      (idReads sensor replies ++ attempts (fun i => replies (i + 2)) sensor.mode7) := by
  have hacked := acknowledgedOf_written _ (fun i => replies (i + 2)) written
  constructor
  · rw [writesOf_idReads, writesOf_attempts, attempts_decode]
    exact ⟨sensor.mode7.length, le_rfl, by rw [List.take_length]⟩
  · intro _
    exact ⟨hid, by rw [writesOf_idReads, writesOf_attempts]⟩
  · rw [acknowledgedOf_idReads, hacked, attempts_decode]
    exact iff_of_true rfl ⟨hid, rfl⟩
  · exact iff_of_true ((configures_iff _ _).mpr ⟨hid, written⟩)
      ⟨rfl, configuredTransfers_eq hid written⟩
  · intro k t ht hret
    rw [writesOf_idReads, writesOf_attempts] at ht
    obtain ⟨i, hi, -, hreply⟩ := attempts_mem (List.mem_of_getElem? ht)
    rw [hreply] at hret
    exact absurd (written i hi) hret

theorem prefixWritten_stopped {n : ℕ} (hid : Identified sensor replies)
    (hn : n < sensor.mode7.length) (written : ∀ i < n, (replies (i + 2)).ret = 1)
    (refused : (replies (n + 2)).ret ≠ 1) :
    PrefixWritten sensor replies (-eio)
      (idReads sensor replies ++
        attempts (fun i => replies (i + 2)) (sensor.mode7.take (n + 1))) := by
  have hacked := acknowledgedOf_stopped (fun i => replies (i + 2)) hn written refused
  constructor
  · rw [writesOf_idReads, writesOf_attempts, attempts_decode]
    exact ⟨n + 1, hn, rfl⟩
  · intro _
    exact ⟨hid, by rw [writesOf_idReads, writesOf_attempts]⟩
  · rw [acknowledgedOf_idReads, hacked, attempts_decode]
    refine iff_of_false (by decide) ?_
    intro h
    have hlength := congrArg List.length h.2
    rw [List.length_map, List.length_map, List.length_take] at hlength
    omega
  · refine iff_of_false (fun hc => refused ?_) (fun h => absurd h.1 (by decide))
    exact ((configures_iff _ _).mp hc).2 n hn
  · intro k t ht hret
    rw [writesOf_idReads, writesOf_attempts, attempts_get?] at ht
    obtain ⟨entry, hentry, rfl⟩ := Option.map_eq_some_iff.mp ht
    -- every write before the last one was acknowledged
    have hk : k = n := by
      obtain ⟨hlt, -⟩ := List.getElem?_eq_some_iff.mp hentry
      rw [List.length_take] at hlt
      by_contra hne
      exact hret (written k (by omega))
    subst hk
    rw [List.getElem?_take_of_lt (by omega), List.getElem?_eq_getElem hn] at hentry
    cases hentry
    rw [acknowledgedOf_idReads, hacked, writesOf_idReads, writesOf_attempts, attempts_decode,
      attempts_decode]
    exact ⟨rfl, rfl, _, List.getElem?_eq_getElem hn, rfl, rfl⟩

/-- Whatever the table, the id and the answers are: the sensor is written a prefix of the table,
in order, after its id was found right; 0 stands for the whole table, and an error ends it. -/
theorem configureMode7_prefixWritten (sensor : Imx219) (replies : ℕ → I2cReply) :
    PrefixWritten sensor replies (imx219ConfigureMode7 sensor replies).1
      (imx219ConfigureMode7 sensor replies).2 := by
  cases configureMode7_cases sensor replies with
  | inl h =>
    obtain ⟨hid, hret, hts⟩ := h
    exact prefixWritten_unidentified hid hret hts
  | inr h =>
    obtain ⟨hid, hresult⟩ := h
    rw [hresult]
    cases writeTable_refused sensor.mode7 (fun i => replies (i + 2)) with
    | inl written =>
      rw [writeTable_written _ written]
      exact prefixWritten_written hid written
    | inr hsome =>
      obtain ⟨n, hn, written, refused⟩ := hsome
      rw [writeTable_stopped _ (List.getElem?_eq_getElem hn) written refused]
      have hret : (imx219WriteReg sensor.mode7[n].1 sensor.mode7[n].2 (replies (n + 2))).ret =
          -eio := if_pos refused
      rw [hret]
      exact prefixWritten_stopped hid hn written refused

/-- A write that times out does not end the configuration with the error of its transfer. -/
theorem configureMode7_error_replaced : ¬ ∀ (sensor : Imx219) (replies : ℕ → I2cReply) (k : ℕ)
    (t : I2cTransfer), (writesOf (imx219ConfigureMode7 sensor replies).2)[k]? = some t → t.ret < 0 →
      (imx219ConfigureMode7 sensor replies).1 = t.ret := by
  intro hall
  let replies : ℕ → I2cReply := fun i => if i < 2 then sampleReplies 0 i else ⟨-110, 0⟩
  have hret := hall sampleSensor replies 0 ⟨[0x01, 0x14, 0x01], false, -110⟩ (by decide) (by decide)
  exact absurd hret (by decide)

end CameraDrivers.SensorConfiguration
