import CameraDrivers.ProbeUnwinding
import CameraDrivers.TransitionRuns
import Mathlib.Logic.Function.Basic

/-!
# Several devices on the driver of src/src/manual-unicam-driver.c

Every device has resources of its own, but all of them share the class of the driver's name
and `g_unicam_dev`, which each `unicam_probe` points to the structure it is about to fill. The
class lets one device be bound at a time; the pointer follows the last probe, whatever became
of it.
-/
namespace CameraDrivers.SeveralDevices
open ResourceLedger UnicamProbe ProbeUnwinding TransitionRuns

/-- A node that was never made is not found. -/
def removeNode (w : World) : World :=
  if w.events.contains (.acquire (.node w.devt)) then deviceDestroy w else w

/-- Stopping the hardware, which comes first, holds and frees nothing. -/
def unicamRemove (w : World) : World :=
  let w := unregisterChrdevRegion (cdevDel (classDestroy (removeNode w)))
  let w := release .dmaBuffer (release .i2cClient w)
  let w := release .clockLp (release .clockVpu w)
  { w with gUnicamDev := false }

/-- A bound device: the number of its structure, and what its probe left. -/
structure Binding where
  device : ℕ
  world : World

/-- `devices` counts the structures that `devm_kzalloc` returned. `past` has the events of each
device up to its last failed probe or its last remove. -/
structure System (ι : Type*) where
  classTaken : Bool
  devices : ℕ
  gUnicamDev : Option ℕ
  bound : ι → Option Binding
  past : ι → List (Event Resource)

/-- `devt` is the number that `alloc_chrdev_region` returns. -/
inductive Action (ι : Type*)
  | probe (i : ι) (l : Lookup) (p : Pattern) (devt : ℕ)
  | remove (i : ι)

variable {ι : Type*}

def System.initial : System ι := ⟨false, 0, none, fun _ => none, fun _ => []⟩

/-- The structure that an open gets as `private_data`; `none` is -ENODEV. -/
def unicamOpen (s : System ι) : Option ℕ := s.gUnicamDev

/-- The structure has been released: devm does so after a failed probe and after a remove. -/
def Released (s : System ι) (device : ℕ) : Prop :=
  ∀ i b, s.bound i = some b → b.device ≠ device

def System.events (s : System ι) (i : ι) : List (Event Resource) :=
  s.past i ++ ((s.bound i).map (·.world.events)).getD []

def Action.allocates : Action ι → Prop
  | .probe _ _ p _ => p .kzalloc = none
  | .remove _ => False

section Steps
variable [DecidableEq ι]

/-- What a probe does to the driver, whatever it returns. -/
def System.probed (s : System ι) (w : World) : System ι :=
  if w.gUnicamDev then
    { s with
      classTaken := w.classTaken
      devices := s.devices + 1
      gUnicamDev := some (s.devices + 1) }
  else { s with classTaken := w.classTaken }

def probe (s : System ι) (i : ι) (l : Lookup) (p : Pattern) (devt : ℕ) : System ι :=
  let r := unicamProbe l p (.start devt s.classTaken)
  let s' := s.probed r.2
  if r.1 = 0 then { s' with bound := Function.update s.bound i (some ⟨s'.devices, r.2⟩) }
  else { s' with past := Function.update s.past i (s.past i ++ r.2.events) }

def remove (s : System ι) (i : ι) (b : Binding) : System ι :=
  let w := unicamRemove { b.world with classTaken := s.classTaken }
  { s with
    classTaken := w.classTaken
    gUnicamDev := none
    bound := Function.update s.bound i none
    past := Function.update s.past i (s.past i ++ w.events) }

/-- The device core probes a device that is not bound, and removes one that is. -/
def next (s : System ι) : Action ι → Option (System ι)
  | .probe i l p devt => if (s.bound i).isSome then none else some (probe s i l p devt)
  | .remove i => (s.bound i).map (remove s i)

end Steps

variable {l : Lookup} {p : Pattern} {devt : ℕ} {classTaken : Bool} {w : World}

/-- On an error the class is left as it was found. -/
def KeepsClass (f : World → ℤ × World) : Prop :=
  ∀ w, (f w).1 ≠ 0 → (f w).2.classTaken = w.classTaken

theorem keepsClass_registration (p : Pattern) : KeepsClass (registration p) := by
  intro w
  rw [registration, allocChrdevRegion.eq_def]
  cases p (.allocRegion 1) with
  | some e => exact fun _ => rfl
  | none =>
    simp only [cdevAdd]
    cases p (.cdevAdd 1) with
    | some e => exact fun _ => rfl
    | none =>
      simp only [classCreate, acquire]
      cases p (.classCreate 1) with
      | some e => exact fun _ => rfl
      | none =>
        cases hw : w.classTaken with
        | true => exact fun _ => rfl
        | false => exact fun h => absurd rfl h

theorem keepsClass_probeBuffer {next : World → ℤ × World} (h : KeepsClass next) (p : Pattern) :
    KeepsClass (probeBuffer id p next) := by
  intro w
  rw [probeBuffer]
  cases p .dmaAlloc with
  | some e => exact fun _ => rfl
  | none =>
    cases p .getAdapter with
    | some e => exact fun _ => rfl
    | none =>
      cases p .newClient with
      | some e => exact fun _ => rfl
      | none => exact h _

theorem keepsClass_probeClocks {next : World → ℤ × World} (h : KeepsClass next) (p : Pattern) :
    KeepsClass (probeClocks id p next) := by
  intro w
  rw [probeClocks]
  cases p .enableLp with
  | some e => exact fun _ => rfl
  | none =>
    cases p .enableVpu with
    | some e => exact fun _ => rfl
    | none => exact keepsClass_probeBuffer h p _

theorem keepsClass_unicamProbe (l : Lookup) (p : Pattern) : KeepsClass (unicamProbe l p) := by
  intro w
  rw [unicamProbe, probeFront]
  cases l.resolve p .kzalloc with
  | some e => exact fun _ => rfl
  | none =>
    cases l.resolve p .getResource with
    | some e => exact fun _ => rfl
    | none =>
      have hclocks := keepsClass_probeClocks (keepsClass_registration p) (l.resolve p)
      dsimp only
      generalize hw : ({ w with devt := 0, cdev := 0, deviceClass := .null, gUnicamDev := true } :
        World) = w₀
      have hclass : w₀.classTaken = w.classTaken := by rw [← hw]
      rw [← hclass]
      cases probeResources_cases id (l.resolve p) (registration p) w₀
          [.ioremap, .getIrq, .requestIrq, .clkGetLp, .clkGetVpu] with
      | inl hearly =>
        obtain ⟨e, heq, -⟩ := hearly
        rw [heq]
        exact fun _ => rfl
      | inr hlate =>
        rw [hlate.1]
        exact hclocks w₀

/-- What probe holds when it has registered the character device. -/
def registered (p : Pattern) (devt : ℕ) : World :=
  (deviceCreate (p (.deviceCreate 1)) (classCreate none (cdevAdd none (allocChrdevRegion none
    (clientWorld devt false)).2).2).2).2

theorem unicamProbe_registered (h : Registers l p classTaken) :
    unicamProbe l p (.start devt classTaken) = (0, registered p devt) := by
  have hclass := h.deviceClass.2
  subst hclass
  have hk : p .kzalloc = none := h.front .kzalloc (by decide)
  have hregistration : registration p (clientWorld devt false) = (0, registered p devt) := by
    rw [registration, allocChrdevRegion.eq_def, h.region]
    simp only [cdevAdd, h.cdev, classCreate, h.deviceClass.1]
    rfl
  cases probeFront_cases id (l.resolve p) (registration p) (.start devt false) with
  | inl hearly => exact absurd h (fails_early hearly).registers
  | inr hlate =>
    cases unicamProbe_buffer hk hlate.1 with
    | inl hfails => exact absurd h hfails.registers
    | inr hclient =>
      rw [hclient.2.2.2, hregistration]

/-- What a bound device holds: everything except, perhaps, the node. -/
def holds (p : Pattern) (devt : ℕ) : List Resource :=
  if p (.deviceCreate 1) = none then acquisitions devt else (acquisitions devt).take 7

theorem registered_events (p : Pattern) (devt : ℕ) :
    (registered p devt).events = (holds p devt).map .acquire := by
  rw [registered, holds]
  cases p (.deviceCreate 1) <;> rfl

/-- A remove undoes a probe in the opposite order. -/
theorem remove_events (p : Pattern) (devt : ℕ) (classTaken : Bool) :
    (unicamRemove { registered p devt with classTaken := classTaken }).events =
      (holds p devt).map .acquire ++ (holds p devt).reverse.map .release := by
  rw [registered, holds]
  cases p (.deviceCreate 1) <;>
    simp [acquisitions, unicamRemove, removeNode, deviceCreate, classCreate, cdevAdd,
      allocChrdevRegion, acquire, clientWorld, World.clocked, World.start, release,
      unregisterChrdevRegion, cdevDel, classDestroy, deviceDestroy]

theorem remove_classTaken (p : Pattern) (devt : ℕ) (classTaken : Bool) :
    (unicamRemove { registered p devt with classTaken := classTaken }).classTaken = false := by
  have hcreated : (removeNode { registered p devt with classTaken := classTaken }).deviceClass =
      .created := by
    rw [removeNode, registered]
    cases p (.deviceCreate 1) <;> split <;> rfl
  have hdestroyed : (classDestroy (removeNode
      { registered p devt with classTaken := classTaken })).classTaken = false := by
    rw [classDestroy, hcreated]
  exact hdestroyed

theorem nodup_holds (p : Pattern) (devt : ℕ) : (holds p devt).Nodup := by
  have hall : (acquisitions devt).Nodup := by simp [acquisitions]
  rw [holds]
  split
  · exact hall
  · exact hall.sublist (List.take_sublist 7 _)

theorem balanced_append {es es' : List (Event Resource)} (h : Balanced es) (h' : Balanced es') :
    Balanced (es ++ es') := by
  rw [balanced_iff, settle_append, h, Option.bind_some, h']

/-- Every binding is what a successful probe left, there is at most one, and it has the class. -/
structure Consistent (s : System ι) : Prop where
  probed : ∀ i b, s.bound i = some b → ∃ p devt, b.world = registered p devt
  numbered : ∀ i b, s.bound i = some b → b.device ≤ s.devices
  taken : s.classTaken = true ↔ ∃ i b, s.bound i = some b
  alone : ∀ i j b c, s.bound i = some b → s.bound j = some c → i = j
  settled : ∀ i, Balanced (s.past i)

variable [DecidableEq ι] {s t u : System ι} {i j : ι} {b c : Binding} {as bs : List (Action ι)}

omit [DecidableEq ι] in
theorem consistent_initial : Consistent (System.initial (ι := ι)) := by
  constructor <;> simp [System.initial, balanced_iff, settle]

/-- The structure of a probe, when there is memory for it. -/
def System.allocated (s : System ι) (p : Pattern) : System ι :=
  if p .kzalloc = none then { s with devices := s.devices + 1, gUnicamDev := some (s.devices + 1) }
  else s

/-- A probe that fails leaves its structure in `g_unicam_dev`; one that succeeds was the only
one to ask for the class. -/
theorem probe_cases (s : System ι) (i : ι) (l : Lookup) (p : Pattern) (devt : ℕ) :
    (¬ Registers l p s.classTaken ∧ ∃ es, Balanced es ∧ probe s i l p devt =
      { s.allocated p with past := Function.update s.past i (s.past i ++ es) }) ∨
    (Registers l p s.classTaken ∧ p .kzalloc = none ∧ probe s i l p devt =
      { s with
        classTaken := true
        devices := s.devices + 1
        gUnicamDev := some (s.devices + 1)
        bound := Function.update s.bound i (some ⟨s.devices + 1, registered p devt⟩) }) := by
  cases unicamProbe_cases l p devt s.classTaken with
  | inl hfails =>
    have hclass : (unicamProbe l p (.start devt s.classTaken)).2.classTaken = s.classTaken :=
      keepsClass_unicamProbe l p _ hfails.error
    refine .inl ⟨hfails.registers, _, hfails.balanced, ?_⟩
    rw [probe, if_neg hfails.error, System.probed, System.allocated, hfails.points, hclass]
    cases p .kzalloc <;> rfl
  | inr hsucceeds =>
    have hregisters : Registers l p s.classTaken := hsucceeds.registers
    have hk : p .kzalloc = none := hregisters.front .kzalloc (by decide)
    have hpoints : (registered p devt).gUnicamDev = true ∧
        (registered p devt).classTaken = true := by
      rw [registered]
      cases p (.deviceCreate 1) <;> exact ⟨rfl, rfl⟩
    refine .inr ⟨hregisters, hk, ?_⟩
    rw [probe, unicamProbe_registered hregisters]
    simp [System.probed, hpoints]

omit [DecidableEq ι] in
@[simp] theorem allocated_bound (s : System ι) (p : Pattern) :
    (s.allocated p).bound = s.bound ∧ (s.allocated p).classTaken = s.classTaken ∧
      s.devices ≤ (s.allocated p).devices := by
  rw [System.allocated]
  split <;> simp

theorem consistent_probe (h : Consistent s) (i : ι) (l : Lookup) (p : Pattern) (devt : ℕ) :
    Consistent (probe s i l p devt) := by
  cases probe_cases s i l p devt with
  | inl hfails =>
    obtain ⟨-, es, hes, heq⟩ := hfails
    obtain ⟨hbound, hclass, hdevices⟩ := allocated_bound s p
    rw [heq]
    refine ⟨?_, ?_, ?_, ?_, ?_⟩
    · simpa only [hbound] using h.probed
    · intro j b hj
      simp only [hbound] at hj
      exact Nat.le_trans (h.numbered j b hj) hdevices
    · simpa only [hbound, hclass] using h.taken
    · simpa only [hbound] using h.alone
    · intro j
      by_cases hij : j = i
      · subst hij
        simpa using balanced_append (h.settled j) hes
      · simpa [System.allocated, hij, apply_ite System.past] using h.settled j
  | inr hsucceeds =>
    obtain ⟨hregisters, -, heq⟩ := hsucceeds
    have hfree : ∀ j b, s.bound j ≠ some b := by
      intro j b hj
      have htaken := h.taken.mpr ⟨j, b, hj⟩
      rw [hregisters.deviceClass.2] at htaken
      cases htaken
    let new : Binding := ⟨s.devices + 1, registered p devt⟩
    have honly : ∀ j b, Function.update s.bound i (some new) j = some b → j = i ∧ b = new := by
      intro j b hj
      by_cases hij : j = i
      · subst hij
        rw [Function.update_self] at hj
        exact ⟨rfl, (Option.some.inj hj).symm⟩
      · rw [Function.update_of_ne hij] at hj
        exact absurd hj (hfree j b)
    rw [heq]
    refine ⟨?_, ?_, ?_, ?_, h.settled⟩
    · intro j b hj
      exact ⟨p, devt, by rw [(honly j b hj).2]⟩
    · intro j b hj
      have hb := (honly j b hj).2
      subst hb
      exact Nat.le_refl _
    · exact iff_of_true rfl ⟨i, _, Function.update_self ..⟩
    · intro j k b c hj hk
      rw [(honly j b hj).1, (honly k c hk).1]

theorem consistent_remove (h : Consistent s) (hi : s.bound i = some b) :
    Consistent (remove s i b) := by
  obtain ⟨p, devt, hw⟩ := h.probed i b hi
  have hclass : (remove s i b).classTaken = false := by
    rw [remove, hw]
    exact remove_classTaken p devt s.classTaken
  have hnone : ∀ j c, (remove s i b).bound j ≠ some c := by
    intro j c hj
    by_cases hij : j = i
    · subst hij
      simp [remove] at hj
    · rw [remove] at hj
      dsimp only at hj
      rw [Function.update_of_ne hij] at hj
      exact hij (h.alone j i c b hj hi)
  refine ⟨fun j c hj => absurd hj (hnone j c), fun j c hj => absurd hj (hnone j c), ?_,
    fun j _ c _ hj => absurd hj (hnone j c), ?_⟩
  · rw [hclass]
    simp [hnone]
  · intro j
    by_cases hij : j = i
    · subst hij
      have hevents :
          Balanced (unicamRemove { b.world with classTaken := s.classTaken }).events := by
        rw [hw, remove_events]
        exact balanced_unwind (nodup_holds p devt)
      simpa [remove] using balanced_append (h.settled j) hevents
    · simpa [remove, hij] using h.settled j

theorem consistent_next {a : Action ι} (h : Consistent s) (hs : next s a = some t) :
    Consistent t := by
  cases a with
  | probe i l p devt =>
    rw [next] at hs
    split at hs
    · cases hs
    · cases hs
      exact consistent_probe h i l p devt
  | remove i =>
    obtain ⟨b, hb, rfl⟩ := Option.map_eq_some_iff.mp hs
    exact consistent_remove h hb

theorem consistent_run (run : Run (Steps next) System.initial as s) : Consistent s :=
  run.invariant Consistent consistent_initial (fun _ _ _ h hs => consistent_next h hs)

/-- In a driver with a bound device no probe of another one succeeds, and none of them changes
what the first one holds. -/
theorem probe_refused (h : Consistent s) (hi : s.bound i = some b) (l : Lookup) (p : Pattern)
    (devt : ℕ) : (unicamProbe l p (.start devt s.classTaken)).1 ≠ 0 ∧
      (probe s j l p devt).bound = s.bound := by
  have htaken : s.classTaken = true := h.taken.mpr ⟨i, b, hi⟩
  cases unicamProbe_cases l p devt s.classTaken with
  | inl hfails =>
    refine ⟨hfails.error, ?_⟩
    rw [probe, if_neg hfails.error, System.probed]
    split <;> rfl
  | inr hsucceeds =>
    have hfree : s.classTaken = false := hsucceeds.registers.deviceClass.2
    rw [htaken] at hfree
    cases hfree

theorem probe_points (s : System ι) (i : ι) (l : Lookup) (p : Pattern) (devt : ℕ) :
    (probe s i l p devt).gUnicamDev =
      if p .kzalloc = none then some (s.devices + 1) else s.gUnicamDev := by
  cases probe_cases s i l p devt with
  | inl hfails =>
    obtain ⟨-, es, -, heq⟩ := hfails
    rw [heq, System.allocated]
    split <;> rfl
  | inr hsucceeds =>
    obtain ⟨-, hk, heq⟩ := hsucceeds
    rw [heq, if_pos hk]

theorem probe_bound (hs : next s (.probe i l p devt) = some t) (hb : t.bound i = some b) :
    t.gUnicamDev = some b.device := by
  rw [next] at hs
  split at hs
  · cases hs
  · next hfree =>
    cases hs
    cases probe_cases s i l p devt with
    | inl hfails =>
      obtain ⟨-, es, -, heq⟩ := hfails
      have hbound : s.bound i = some b := by
        rw [← (allocated_bound s p).1]
        rwa [heq] at hb
      simp [hbound] at hfree
    | inr hsucceeds =>
      obtain ⟨-, -, heq⟩ := hsucceeds
      rw [heq] at hb ⊢
      simp only [Function.update_self, Option.some.injEq] at hb
      rw [← hb]

/-- While a device stays bound, `g_unicam_dev` has its structure until the first probe of another
one that gets a structure, and a newer one from then on. -/
theorem points_run (h : Consistent s) (hi : s.bound i = some b)
    (hg : s.gUnicamDev = some b.device) (run : Run (Steps next) s bs t)
    (hkeep : .remove i ∉ bs) :
    Consistent t ∧ t.bound i = some b ∧
      ((∀ a ∈ bs, ¬ a.allocates) ∧ t.gUnicamDev = some b.device ∨
        (∃ a ∈ bs, a.allocates) ∧ ∃ k, t.gUnicamDev = some k ∧ b.device < k) := by
  induction run with
  | refl => exact ⟨h, hi, .inl ⟨by simp, hg⟩⟩
  | @snoc z u bs a run last ih =>
    have hkeep' : Action.remove i ∉ bs := fun hmem => hkeep (List.mem_append_left _ hmem)
    obtain ⟨hz, hzi, hpoints⟩ := ih hkeep'
    refine ⟨consistent_next hz last, ?_⟩
    cases a with
    | remove j =>
      obtain ⟨c, hc, -⟩ := Option.map_eq_some_iff.mp last
      have hji := hz.alone j i c b hc hzi
      subst hji
      simp at hkeep
    | probe j l p devt =>
      rw [Steps, next] at last
      split at last
      · cases last
      · cases last
        refine ⟨?_, ?_⟩
        · rw [(probe_refused hz hzi l p devt).2, hzi]
        · rw [probe_points]
          by_cases hk : p .kzalloc = none
          · right
            refine ⟨⟨.probe j l p devt, by simp, hk⟩, z.devices + 1, if_pos hk, ?_⟩
            exact Nat.lt_succ_of_le (hz.numbered i b hzi)
          · rw [if_neg hk]
            cases hpoints with
            | inl hown =>
              refine .inl ⟨fun a ha => ?_, hown.2⟩
              rcases List.mem_append.mp ha with hmem | hmem
              · exact hown.1 a hmem
              · rw [List.mem_singleton.mp hmem]
                exact hk
            | inr hnewer =>
              obtain ⟨⟨a, ha, halloc⟩, hk'⟩ := hnewer
              exact .inr ⟨⟨a, List.mem_append_left _ ha, halloc⟩, hk'⟩

/-- Two devices are never bound at once, and while one is, every probe of another returns an
error. -/
theorem bound_alone (run : Run (Steps next) System.initial as s) (hi : s.bound i = some b) :
    (∀ j c, s.bound j = some c → j = i) ∧
      ∀ l p devt, (unicamProbe l p (.start devt s.classTaken)).1 ≠ 0 := by
  have h := consistent_run run
  refine ⟨fun j c hj => h.alone j i c b hj hi, fun l p devt => ?_⟩
  exact (probe_refused (j := i) h hi l p devt).1

/-- One device is bound, and everything goes well with it. -/
def first : System Bool := probe .initial false (.numbered true true) (fun _ => none) 1

theorem run_first : Run (Steps next) System.initial
    [.probe false (.numbered true true) (fun _ => none) 1] first := .single rfl

theorem bound_alone_first : ∃ b, first.bound false = some b ∧
    (unicamProbe (.numbered true true) (fun _ => none) (.start 2 first.classTaken)).1 ≠ 0 :=
  ⟨_, rfl, (bound_alone run_first (i := false) rfl).2 _ _ 2⟩

/-- What the driver acquired for a device it has released again exactly when the device is not
bound, whatever happened to this and the other devices before. -/
theorem events_balanced_iff (run : Run (Steps next) System.initial as s) (i : ι) :
    Balanced (s.events i) ↔ s.bound i = none := by
  have h := consistent_run run
  rw [System.events]
  cases hi : s.bound i with
  | none => simpa using h.settled i
  | some b =>
    obtain ⟨p, devt, hw⟩ := h.probed i b hi
    have hheld : settle [] (s.past i ++ b.world.events) = some (holds p devt).reverse := by
      have hnodup : ((holds p devt).reverse ++ []).Nodup := by
        rw [List.append_nil]
        exact List.nodup_reverse.mpr (nodup_holds p devt)
      rw [settle_append, h.settled i, Option.bind_some, hw, registered_events,
        settle_acquire hnodup, List.append_nil]
    have hne : (holds p devt).reverse ≠ [] := by
      rw [holds]
      split <;> simp [acquisitions]
    refine iff_of_false ?_ (by simp)
    rw [balanced_iff]
    simp [hheld, hne]

theorem events_balanced_iff_first :
    ¬ Balanced (first.events false) ∧ Balanced (first.events true) := by
  constructor
  · rw [events_balanced_iff run_first]
    exact fun h => Option.some_ne_none _ h
  · rw [events_balanced_iff run_first]
    rfl

/-- An open of a bound device gets its structure exactly as long as no other device is probed.
After a probe that gets a structure it is handed one that is released, although the device
stays bound. -/
theorem open_own_iff (run : Run (Steps next) System.initial as s) {l : Lookup} {p : Pattern}
    {devt : ℕ} (hs : next s (.probe i l p devt) = some t) (hb : t.bound i = some b)
    (run' : Run (Steps next) t bs u) (hkeep : .remove i ∉ bs) :
    (unicamOpen u = some b.device ↔ ∀ a ∈ bs, ¬ a.allocates) ∧
      ((∃ a ∈ bs, a.allocates) → ∃ k, unicamOpen u = some k ∧ Released u k) := by
  have hg : t.gUnicamDev = some b.device := probe_bound hs hb
  have ht : Consistent t := consistent_next (consistent_run run) hs
  obtain ⟨hu, hui, hpoints⟩ := points_run ht hb hg run' hkeep
  cases hpoints with
  | inl hown =>
    refine ⟨iff_of_true hown.2 hown.1, ?_⟩
    rintro ⟨a, ha, halloc⟩
    exact absurd halloc (hown.1 a ha)
  | inr hnewer =>
    obtain ⟨⟨a, ha, halloc⟩, k, hk, hlt⟩ := hnewer
    refine ⟨iff_of_false ?_ (fun hnot => hnot a ha halloc), fun _ => ⟨k, hk, ?_⟩⟩
    · rw [unicamOpen, hk]
      intro he
      have := Option.some.inj he
      omega
    · intro j c hj
      have hji := hu.alone j i c b hj hui
      subst hji
      have hcb : c = b := Option.some.inj (hj.symm.trans hui)
      subst hcb
      omega

/-- The second device is probed in vain, and the first one can no longer be opened. -/
theorem open_own_iff_second : ∃ u : System Bool, (u.bound false).map (·.device) = some 1 ∧
    unicamOpen u ≠ some 1 ∧ ∃ k, unicamOpen u = some k ∧ Released u k := by
  let a : Action Bool := .probe true (.numbered true true) (fun _ => none) 2
  let u := probe first true (.numbered true true) (fun _ => none) 2
  have run' : Run (Steps next) first [a] u := .single rfl
  have hopen := open_own_iff (.refl System.initial) (i := false) (t := first) rfl rfl run'
    (by simp [a])
  have halloc : a.allocates := rfl
  refine ⟨_, rfl, ?_, hopen.2 ⟨a, by simp, halloc⟩⟩
  intro h
  exact hopen.1.mp h a (by simp) halloc

end CameraDrivers.SeveralDevices
