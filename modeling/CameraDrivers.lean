import CameraDrivers.BufferOwnership
import CameraDrivers.FrameCompletion
import CameraDrivers.FrameNumbering
import CameraDrivers.SpinlockDiscipline
import CameraDrivers.StopQuiescence
import CameraDrivers.CallbackAtomicity
import CameraDrivers.StreamingAgreement
import CameraDrivers.IoctlSerialisation
import CameraDrivers.ReadCoherence
import CameraDrivers.UnicamLifetime
import CameraDrivers.DoubleRegistration
import CameraDrivers.SensorStandby
import CameraDrivers.HandlerSteps
import CameraDrivers.ClockedAccess
import CameraDrivers.MainCallbacks
import CameraDrivers.CameraProbe
import CameraDrivers.DevicePublication
import CameraDrivers.ModuleResources
import CameraDrivers.ProbeUnwinding
import CameraDrivers.FormatIoctls
import CameraDrivers.FramePayload
import CameraDrivers.FrameEndLatch
import CameraDrivers.BufferMapping
import CameraDrivers.DmaWindow
import CameraDrivers.SensorConfiguration
import CameraDrivers.SensorStreaming
import CameraDrivers.TracedTraversal
import CameraDrivers.DrainLoop
import CameraDrivers.ReaddedCells
import CameraDrivers.TangledSessions
import CameraDrivers.BoundedStrings
import CameraDrivers.CapabilityIoctls
import CameraDrivers.SimpleCapture
import CameraDrivers.FrameMailbox
import CameraDrivers.MailboxRefinement
import CameraDrivers.CaptureTermination
import CameraDrivers.RegisterPeripheral
import CameraDrivers.SensorBus
import CameraDrivers.MainSessions
import CameraDrivers.SharedLines
import CameraDrivers.InterruptLines
import CameraDrivers.SeveralDevices
import CameraDrivers.SequentialIoctls
import CameraDrivers.LeftoverPointers
