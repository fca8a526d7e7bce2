import CameraDrivers.UnicamProbe

/-!
# unicam_probe of src/src/manual-unicam-driver.c

The character device is registered once, and every error label gives back what its callers
hold. The result of `device_create` is compared with NULL, `g_unicam_dev` is set before
anything can fail, and the adapter is put in the same way however it was found.
-/
namespace CameraDrivers.ProbeUnwinding
open ResourceLedger UnicamProbe

/-- The two references that an `i2c_adapter` counts. -/
inductive AdapterRef
  | device
  | owner
  deriving DecidableEq

/-- How the adapter is looked for, with the outcome of each call: through the i2c-bus phandle,
or by number, first 10 and then 0. -/
inductive Lookup
  | phandle (found : Bool)
  | numbered (bus10 bus0 : Bool)

def Lookup.found : Lookup → Bool
  | .phandle found => found
  | .numbered bus10 bus0 => bus10 || bus0

/-- `of_find_i2c_adapter_by_node` takes no reference on the module, `i2c_get_adapter` does. -/
def Lookup.taken : Lookup → List (Event AdapterRef)
  | .phandle _ => [.acquire .device]
  | .numbered _ _ => [.acquire .owner, .acquire .device]

def i2cPutAdapter : List (Event AdapterRef) := [.release .owner, .release .device]

variable (l : Lookup) (p : Pattern)

/-- The pattern with the outcome of the lookup. -/
def Lookup.resolve : Pattern := fun call =>
  match call with
  | .getAdapter => if l.found then none else some enodev
  | call => p call

/-- An ERR_PTR is not NULL, so `err_class` is never taken. -/
def registration (w : World) : ℤ × World :=
  match allocChrdevRegion (p (.allocRegion 1)) w with
  | (some e, w) => (e.code, errI2c id w)
  | (none, w) =>
    match cdevAdd (p (.cdevAdd 1)) w with
    | (some e, w) => (e.code, errChrdev id w)
    | (none, w) =>
      match classCreate (p (.classCreate 1)) w with
      | (some e, w) => (e.code, errCdev id w)
      | (none, w) => (0, (deviceCreate (p (.deviceCreate 1)) w).2)

def unicamProbe (w : World) : ℤ × World := probeFront id (l.resolve p) (registration p) w

/-- The references taken and dropped: the lookup comes after the DMA buffer, and the put after
`i2c_new_client_device`, whatever that returned. -/
def adapterEvents : List (Event AdapterRef) :=
  if (∀ call ∈ early ++ [.dmaAlloc], p call = none) ∧ l.found = true then l.taken ++ i2cPutAdapter
  else []

/-- What a successful probe holds. -/
def acquisitions (devt : ℕ) : List Resource :=
  [.clockLp, .clockVpu, .dmaBuffer, .i2cClient, .region devt, .cdev devt, .deviceClass, .node devt]

structure AllOrNothing (w : World) : Prop where
  all : (unicamProbe l p w).1 = 0 →
    ∀ r ∈ acquisitions (unicamProbe l p w).2.devt, .acquire r ∈ (unicamProbe l p w).2.events
  nothing : (unicamProbe l p w).1 ≠ 0 → Balanced (unicamProbe l p w).2.events
  forgotten : (unicamProbe l p w).1 ≠ 0 → (unicamProbe l p w).2.gUnicamDev = false
  references : ∀ r, (adapterEvents l p).count (.acquire r) = (adapterEvents l p).count (.release r)

/-- Every call before `device_create` succeeds. -/
structure Registers (classTaken : Bool) : Prop where
  front : ∀ call ∈ early ++ [.dmaAlloc, .newClient], p call = none
  adapter : l.found = true
  region : p (.allocRegion 1) = none
  cdev : p (.cdevAdd 1) = none
  deviceClass : p (.classCreate 1) = none ∧ classTaken = false

variable {l p} {nextDevt : ℕ} {classTaken : Bool}

/-- What probe holds when it registers the character device. -/
def clientWorld (nextDevt : ℕ) (classTaken : Bool) : World :=
  acquire .i2cClient (acquire .dmaBuffer (World.start nextDevt classTaken).clocked)

/-- The error labels undo the first `k` acquisitions in the opposite order. -/
theorem unwind_first (k devt : ℕ) :
    Balanced (((acquisitions devt).take k).map .acquire ++
      ((acquisitions devt).take k).reverse.map .release) := by
  have hnodup : (acquisitions devt).Nodup := by simp [acquisitions]
  exact balanced_unwind (hnodup.sublist (List.take_sublist k _))

/-- Every error of the registration gives back what probe holds, and a success has everything
except, perhaps, the node. -/
theorem registration_cases (p : Pattern) (nextDevt : ℕ) (classTaken : Bool) :
    ((registration p (clientWorld nextDevt classTaken)).1 ≠ 0 ∧
      Balanced (registration p (clientWorld nextDevt classTaken)).2.events ∧
      (registration p (clientWorld nextDevt classTaken)).2.gUnicamDev = true ∧
      ¬ (p (.allocRegion 1) = none ∧ p (.cdevAdd 1) = none ∧ p (.classCreate 1) = none ∧
        classTaken = false)) ∨
    ((registration p (clientWorld nextDevt classTaken)).1 = 0 ∧
      (p (.allocRegion 1) = none ∧ p (.cdevAdd 1) = none ∧ p (.classCreate 1) = none ∧
        classTaken = false) ∧
      ((∀ r ∈ acquisitions (registration p (clientWorld nextDevt classTaken)).2.devt,
        .acquire r ∈ (registration p (clientWorld nextDevt classTaken)).2.events) ↔
          p (.deviceCreate 1) = none)) := by
  rw [registration, allocChrdevRegion.eq_def]
  cases ha : p (.allocRegion 1) with
  | some e =>
    refine .inl ⟨e.code_ne_zero, ?_, rfl, by simp⟩
    rfl
  | none =>
    simp only [cdevAdd]
    cases hc : p (.cdevAdd 1) with
    | some e =>
      refine .inl ⟨e.code_ne_zero, ?_, rfl, by simp⟩
      exact unwind_first 5 nextDevt
    | none =>
      simp only [classCreate, acquire]
      cases hk : p (.classCreate 1) with
      | some e =>
        refine .inl ⟨e.code_ne_zero, ?_, rfl, by simp⟩
        exact unwind_first 6 nextDevt
      | none =>
        cases classTaken with
        | true =>
          refine .inl ⟨eexist.code_ne_zero, ?_, rfl, by simp⟩
          exact unwind_first 6 nextDevt
        | false =>
          refine .inr ⟨rfl, by simp, ?_⟩
          cases hn : p (.deviceCreate 1) <;>
            simp [acquisitions, deviceCreate, acquire, clientWorld, World.clocked, World.start]

/-- How a run of probe ends: with an error and everything given back, or with 0. -/
structure Fails (l : Lookup) (p : Pattern) (w : World) : Prop where
  error : (unicamProbe l p w).1 ≠ 0
  balanced : Balanced (unicamProbe l p w).2.events
  points : (unicamProbe l p w).2.gUnicamDev = (p .kzalloc).isNone
  registers : ¬ Registers l p w.classTaken

structure Succeeds (l : Lookup) (p : Pattern) (w : World) : Prop where
  zero : (unicamProbe l p w).1 = 0
  registers : Registers l p w.classTaken
  all_iff : (∀ r ∈ acquisitions (unicamProbe l p w).2.devt,
    .acquire r ∈ (unicamProbe l p w).2.events) ↔ p (.deviceCreate 1) = none

theorem resolve_early (l : Lookup) (p : Pattern) {call : Call} (h : call ≠ .getAdapter) :
    l.resolve p call = p call := by
  cases call <;> first | rfl | exact absurd rfl h

theorem early_ne_getAdapter {call : Call} (h : call ∈ early) : call ≠ .getAdapter := by
  rintro rfl
  revert h
  decide

/-- Probe returns before the DMA buffer. -/
theorem fails_early (h : ReturnsEarly (l.resolve p) (.start nextDevt classTaken)
    (unicamProbe l p (.start nextDevt classTaken)).2
    (unicamProbe l p (.start nextDevt classTaken)).1) :
    Fails l p (.start nextDevt classTaken) where
  error := h.error
  balanced := by
    cases h.events with
    | inl hevents =>
      rw [hevents]
      rfl
    | inr hevents =>
      rw [hevents]
      rfl
  points := by
    cases hk : p .kzalloc with
    | none => exact h.points hk
    | some e =>
      have hresolve : l.resolve p .kzalloc = some e := hk
      rw [unicamProbe, probeFront, hresolve]
      rfl
  registers := by
    intro hr
    obtain ⟨call, hmem, hne⟩ := h.call
    rw [resolve_early l p (early_ne_getAdapter hmem)] at hne
    exact hne (hr.front call (List.mem_append_left _ hmem))

/-- Probe returns an error after it got its device structure. -/
theorem fails_late {r : ℤ × World} (h : unicamProbe l p (.start nextDevt classTaken) = r)
    (hk : p .kzalloc = none) (error : r.1 ≠ 0) (balanced : Balanced r.2.events)
    (points : r.2.gUnicamDev = true) (registers : ¬ Registers l p classTaken) :
    Fails l p (.start nextDevt classTaken) := by
  subst h
  refine ⟨error, balanced, ?_, registers⟩
  rw [points, hk]
  rfl

/-- Past the clocks, probe fails at the buffer, the adapter or the client, or it comes to
register the character device. -/
theorem unicamProbe_buffer (hk : p .kzalloc = none)
    (hprobe : unicamProbe l p (.start nextDevt classTaken) =
      probeBuffer id (l.resolve p) (registration p) (World.start nextDevt classTaken).clocked) :
    Fails l p (.start nextDevt classTaken) ∨
    (p .dmaAlloc = none ∧ l.found = true ∧ p .newClient = none ∧
      unicamProbe l p (.start nextDevt classTaken) =
        registration p (clientWorld nextDevt classTaken)) := by
  have hdma : l.resolve p .dmaAlloc = p .dmaAlloc := rfl
  have hnew : l.resolve p .newClient = p .newClient := rfl
  have hget : l.resolve p .getAdapter = if l.found then none else some enodev := rfl
  rw [probeBuffer, hdma, hnew, hget] at hprobe
  cases hd : p .dmaAlloc with
  | some e =>
    rw [hd] at hprobe
    refine .inl (fails_late hprobe hk enomem.code_ne_zero rfl rfl ?_)
    intro hr
    rw [hr.front .dmaAlloc (by simp)] at hd
    cases hd
  | none =>
    cases hf : l.found with
    | false =>
      rw [hd, hf] at hprobe
      refine .inl (fails_late hprobe hk enodev.code_ne_zero rfl rfl ?_)
      intro hr
      rw [hr.adapter] at hf
      cases hf
    | true =>
      rw [hd, hf] at hprobe
      cases hn : p .newClient with
      | some e =>
        rw [hn] at hprobe
        refine .inl (fails_late hprobe hk e.code_ne_zero rfl rfl ?_)
        intro hr
        rw [hr.front .newClient (by simp)] at hn
        cases hn
      | none =>
        rw [hn] at hprobe
        exact .inr ⟨rfl, rfl, rfl, hprobe⟩

theorem unicamProbe_cases (l : Lookup) (p : Pattern) (nextDevt : ℕ) (classTaken : Bool) :
    Fails l p (.start nextDevt classTaken) ∨ Succeeds l p (.start nextDevt classTaken) := by
  cases probeFront_cases id (l.resolve p) (registration p) (.start nextDevt classTaken) with
  | inl h => exact .inl (fails_early h)
  | inr h =>
    obtain ⟨hfront, hcalls⟩ := h
    have hearly : ∀ call ∈ early, p call = none := by
      intro call hmem
      rw [← resolve_early l p (early_ne_getAdapter hmem)]
      exact hcalls call hmem
    have hk : p .kzalloc = none := hearly .kzalloc (by decide)
    cases unicamProbe_buffer hk hfront with
    | inl hfails => exact .inl hfails
    | inr hclient =>
      obtain ⟨hd, hf, hn, hreg⟩ := hclient
      cases registration_cases p nextDevt classTaken with
      | inl hfails =>
        obtain ⟨herror, hbalanced, hpoints, hnot⟩ := hfails
        refine .inl (fails_late hreg hk herror hbalanced hpoints ?_)
        intro hr
        exact hnot ⟨hr.region, hr.cdev, hr.deviceClass⟩
      | inr hsucceeds =>
        obtain ⟨hzero, hcalls', hall⟩ := hsucceeds
        have hfront' : ∀ call ∈ early ++ [.dmaAlloc, .newClient], p call = none := by
          intro call hmem
          rcases List.mem_append.mp hmem with hmem | hmem
          · exact hearly call hmem
          · simp only [List.mem_cons, List.not_mem_nil, or_false] at hmem
            rcases hmem with rfl | rfl
            · exact hd
            · exact hn
        refine .inr ⟨?_, ⟨hfront', hf, hcalls'.1, hcalls'.2.1, hcalls'.2.2⟩, ?_⟩
        · rw [hreg]
          exact hzero
        · rw [hreg]
          exact hall

theorem references_iff (l : Lookup) (p : Pattern) :
    (∀ r, (adapterEvents l p).count (.acquire r) = (adapterEvents l p).count (.release r)) ↔
      ((∀ call ∈ early ++ [.dmaAlloc], p call = none) → l ≠ .phandle true) := by
  rw [adapterEvents]
  by_cases hcalls : ∀ call ∈ early ++ [.dmaAlloc], p call = none
  · cases l with
    | phandle found =>
      cases found with
      | false => simp [Lookup.found]
      | true =>
        refine iff_of_false ?_ (fun h => h hcalls rfl)
        intro h
        have howner := h .owner
        rw [if_pos ⟨hcalls, rfl⟩] at howner
        revert howner
        decide
    | numbered bus10 bus0 =>
      refine iff_of_true ?_ (by simp)
      intro r
      split
      · cases r <;> rfl
      · rfl
  · refine iff_of_true ?_ (fun h => absurd h hcalls)
    intro r
    rw [if_neg (fun h => hcalls h.1)]
    rfl

/-- Probe is all or nothing when it does not even get its device structure, or when everything
succeeds and the adapter was found by its number. -/
theorem allOrNothing_iff (l : Lookup) (p : Pattern) (nextDevt : ℕ) (classTaken : Bool) :
    AllOrNothing l p (.start nextDevt classTaken) ↔
      p .kzalloc ≠ none ∨
      (Registers l p classTaken ∧ p (.deviceCreate 1) = none ∧ l ≠ .phandle true) := by
  have hsub : ∀ call ∈ early ++ [.dmaAlloc], call ∈ early ++ [.dmaAlloc, .newClient] := by decide
  cases unicamProbe_cases l p nextDevt classTaken with
  | inl hfails =>
    constructor
    · intro h
      left
      intro hk
      have hforgotten := h.forgotten hfails.error
      rw [hfails.points, hk] at hforgotten
      cases hforgotten
    · intro h
      have hk : p .kzalloc ≠ none := h.resolve_right (fun hr => hfails.registers hr.1)
      refine ⟨fun hzero => absurd hzero hfails.error, fun _ => hfails.balanced, fun _ => ?_, ?_⟩
      · rw [hfails.points]
        exact Option.isNone_eq_false_iff.mpr (Option.isSome_iff_ne_none.mpr hk)
      · exact (references_iff l p).mpr (fun hcalls => absurd (hcalls .kzalloc (by decide)) hk)
  | inr hsucceeds =>
    have hregisters := hsucceeds.registers
    have hcalls : ∀ call ∈ early ++ [.dmaAlloc], p call = none :=
      fun call hmem => hregisters.front call (hsub call hmem)
    constructor
    · intro h
      exact .inr ⟨hregisters, hsucceeds.all_iff.mp (h.all hsucceeds.zero),
        (references_iff l p).mp h.references hcalls⟩
    · intro h
      have hkzalloc : ¬ p .kzalloc ≠ none := fun hk => hk (hcalls .kzalloc (by decide))
      obtain ⟨-, hnode, hl⟩ := h.resolve_left hkzalloc
      refine ⟨fun _ => hsucceeds.all_iff.mpr hnode, fun herror => absurd hsucceeds.zero herror,
        fun herror => absurd hsucceeds.zero herror, (references_iff l p).mpr (fun _ => hl)⟩

/-- `device_create` fails, probe returns 0. -/
theorem node_missing : ¬ ∀ (l : Lookup) (p : Pattern) (nextDevt : ℕ) (classTaken : Bool),
    AllOrNothing l p (.start nextDevt classTaken) := by
  intro hall
  let p : Pattern := fun call => if call = .deviceCreate 1 then some enomem else none
  have hzero : (unicamProbe (.numbered true true) p (.start 1 false)).1 = 0 := by decide
  have hnode := (hall (.numbered true true) p 1 false).all hzero (.node 1) (by decide)
  revert hnode
  decide

end CameraDrivers.ProbeUnwinding
