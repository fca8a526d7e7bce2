import CameraDrivers.BoundedStrings
import CameraDrivers.FormatIoctls

/-!
# The capability ioctl of rpi_camera

`vidioc_querycap` of camera_v4l2.c, and what the V4L2 core does around it.
-/
namespace CameraDrivers.CapabilityIoctls
open BoundedStrings

structure V4l2Capability where
  driver : CharArray 16
  card : CharArray 32
  busInfo : CharArray 32
  version : BitVec 32
  capabilities : BitVec 32
  deviceCaps : BitVec 32

/-- The structure that the core clears for a QUERYCAP. -/
def V4l2Capability.cleared : V4l2Capability where
  driver := ⟨List.replicate 16 0, rfl⟩
  card := ⟨List.replicate 32 0, rfl⟩
  busInfo := ⟨List.replicate 32 0, rfl⟩
  version := 0
  capabilities := 0
  deviceCaps := 0

def driverName : List Byte := characters "rpi_camera_driver"
def cardName : List Byte := characters "RPi Camera Driver"
def busName : List Byte := characters "platform:camera"

def capVideoCapture : BitVec 32 := 0x00000001
def capStreaming : BitVec 32 := 0x04000000
def capExtPixFormat : BitVec 32 := 0x00200000
def capDeviceCaps : BitVec 32 := 0x80000000

def vidiocQuerycap (cap : V4l2Capability) : ℤ × V4l2Capability :=
  let capabilities := capVideoCapture ||| capStreaming
  (0, { cap with
    driver := cap.driver.assign driverName
    card := cap.card.assign cardName
    busInfo := cap.busInfo.assign busName
    capabilities := capabilities
    deviceCaps := capabilities })

/-- The core fills in the video device's own capabilities first, and adds a flag afterwards. -/
def querycap (version vdevCaps : BitVec 32) (cap : V4l2Capability) : ℤ × V4l2Capability :=
  let answer := vidiocQuerycap { cap with
    version := version, deviceCaps := vdevCaps, capabilities := vdevCaps ||| capDeviceCaps }
  (answer.1, { answer.2 with
    capabilities := answer.2.capabilities ||| capExtPixFormat
    deviceCaps := answer.2.deviceCaps ||| capExtPixFormat })

/-- What a caller reads, whatever the structure held before: the name of the driver is cut to
15 characters. -/
theorem querycap_text (version vdevCaps : BitVec 32) (cap : V4l2Capability) :
    text (querycap version vdevCaps cap).2.driver.bytes = driverName.take 15 ∧
      text (querycap version vdevCaps cap).2.card.bytes = cardName ∧
      text (querycap version vdevCaps cap).2.busInfo.bytes = busName := by
  refine ⟨?_, ?_, ?_⟩
  · exact CharArray.text_assign _ (by decide) (by decide)
  · exact (CharArray.text_assign _ (by decide) (by decide)).trans (by decide)
  · exact (CharArray.text_assign _ (by decide) (by decide)).trans (by decide)

end CameraDrivers.CapabilityIoctls
