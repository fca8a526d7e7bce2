import CameraDrivers.ReadCoherence

/-!
# unicam_isr on the device alone

The statements of the handler as a function of its position and of the device, for the
machines in which other parties than the readers matter.
-/
namespace CameraDrivers.HandlerSteps
open UnicamState UnicamIoctl ReadCoherence

variable (m : RegisterMap)

def handlerStep (pc : IsrPc) (dev : UnicamDevice) : IsrPc × UnicamDevice :=
  match pc with
  | .idle =>
    let ista := unicamRegRead dev m.ista
    (if ista = 0 then .idle else .clear ista, dev)
  | .clear ista => (.sample ista, unicamRegWrite m dev m.ista ista)
  | .sample ista =>
    if ista &&& m.fei ≠ 0 then
      (.count, { dev with currentWritePtr := unicamRegRead dev m.ibwp })
    else (.idle, dev)
  | .count => (.idle, { dev with frameCount := dev.frameCount + 1 })

/-- The next statement reads or writes a register. -/
def handlerTouches : IsrPc → Bool
  | .idle | .clear _ => true
  | .sample ista => ista &&& m.fei != 0
  | .count => false

variable {m} {ι : Type*}

theorem isrStep_eq (x : Driver ι) : (isrStep m x).isr = (handlerStep m x.isr x.dev).1 ∧
    (isrStep m x).dev = (handlerStep m x.isr x.dev).2 := by
  rw [isrStep, handlerStep.eq_def]
  cases hx : x.isr with
  | idle =>
    dsimp only
    split
    · exact ⟨hx, rfl⟩
    · exact ⟨rfl, rfl⟩
  | clear ista => exact ⟨rfl, rfl⟩
  | sample ista =>
    dsimp only
    split <;> exact ⟨rfl, rfl⟩
  | count => exact ⟨rfl, rfl⟩

end CameraDrivers.HandlerSteps
