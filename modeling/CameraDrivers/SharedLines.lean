import Mathlib.Data.List.Count
import Mathlib.Logic.Function.Iterate

/-!
# Interrupt lines that devices share

The interrupt core of a kernel as a parameter, with what a driver may rely on: what a request adds
to the calls of a line, what a free takes away and when it warns. How the core keeps its
actions is left open.
-/
namespace CameraDrivers.SharedLines

universe u v w x

/-- `calls` lists the devices that the handler is called with on an interrupt of the line. A
request is one that succeeded, and a free answers `false` when it warns. -/
structure IrqCore (κ : Type u) (L : Type v) (ι : Type w) where
  request : κ → L → ι → κ
  free : κ → L → ι → Bool × κ
  calls : κ → L → List ι

variable {κ : Type u} {L : Type v} {ι : Type w} {σ : Type x} [DecidableEq L] [DecidableEq ι]

structure IrqCore.Lawful (core : IrqCore κ L ι) : Prop where
  request_count : ∀ k line i l j, (core.calls (core.request k line i) l).count j =
    (core.calls k l).count j + if l = line ∧ i = j then 1 else 0
  free_count : ∀ k line i l j, (core.calls (core.free k line i).2 l).count j =
    (core.calls k l).count j - if l = line ∧ i = j then 1 else 0
  free_found : ∀ k line i, (core.free k line i).1 = true ↔ i ∈ core.calls k line

/-- A core that keeps a list of actions for each line. -/
def listCore (L : Type v) (ι : Type w) [DecidableEq L] [DecidableEq ι] :
    IrqCore (L → List ι) L ι where
  request k line i := Function.update k line (k line ++ [i])
  free k line i := ((k line).contains i, Function.update k line ((k line).erase i))
  calls k line := k line

/-- What `f` makes of the devices that it is called with in turn. -/
def applyAll (f : σ → σ) (calls : List ι) (s : ι → σ) : ι → σ :=
  calls.foldl (fun s i => Function.update s i (f (s i))) s

theorem listCore_lawful : (listCore L ι).Lawful where
  request_count k line i l j := by
    by_cases hl : l = line
    · subst hl
      by_cases hij : i = j <;> simp [listCore, hij]
    · simp [listCore, hl]
  free_count k line i l j := by
    by_cases hl : l = line
    · subst hl
      by_cases hij : i = j
      · simp [listCore, hij]
      · simp [listCore, hij, List.count_erase_of_ne (Ne.symm hij)]
    · simp [listCore, hl]
  free_found k line i := by simp [listCore]

omit [DecidableEq L] in
theorem applyAll_apply (f : σ → σ) (calls : List ι) (s : ι → σ) (i : ι) :
    applyAll f calls s i = f^[calls.count i] (s i) := by
  induction calls generalizing s with
  | nil => rfl
  | cons j calls ih =>
    have hcons : applyAll f (j :: calls) s = applyAll f calls (Function.update s j (f (s j))) := rfl
    rw [hcons, ih]
    by_cases hij : j = i
    · subst hij
      rw [Function.update_self, List.count_cons_self, Function.iterate_succ_apply]
    · rw [Function.update_of_ne (Ne.symm hij), List.count_cons_of_ne hij]

end CameraDrivers.SharedLines
