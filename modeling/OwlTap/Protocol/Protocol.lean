import Mathlib.Algebra.Field.Rat
import Mathlib.Algebra.Order.Ring.Rat
import OwlTap.Capture.CaptureSession

/-!
# Protocol decoding

What the decoders share: the frames that they return, and how they read a captured sample. Times
are rational numbers of microseconds, where the source has `double`.
-/

namespace OwlTap.Protocol

open OwlTap Bsdl BoundaryScan Capture

/-- Supported protocol kinds. -/
inductive ProtocolKind where
  | uart | spi | i2c
  deriving DecidableEq

/-- A single decoded protocol frame. -/
structure DecodedFrame where
  /-- Frame start time in microseconds from capture start. -/
  startUs : ℚ := 0
  /-- Frame end time. -/
  endUs : ℚ := 0
  kind : ProtocolKind := .uart
  /-- Short human-readable label. -/
  label : Text := []
  /-- Raw data bytes as hex string. -/
  data : Text := []
  /-- Framing, parity or NAK error detected. -/
  errorFlag : Bool := false
  deriving DecidableEq

/-- The label of a frame, and whether it is an error. -/
def DecodedFrame.event (f : DecodedFrame) : Text × Bool := (f.label, f.errorFlag)

/-- Whether a pin is high in a sample; what is not known is low. -/
def samplePinValue (frame : SampleFrame) (pin : Text) : Bool := frame.data.getPin pin = .high

/-- A time of the clock, in nanoseconds, as microseconds from another one. -/
def sampleTimeUs (frame t0Frame : SampleFrame) : ℚ := ((frame.timestamp : ℤ) - t0Frame.timestamp : ℤ) / 1000

/-- `%0*llX`. -/
def hexText (width n : ℕ) : Text := ((Nat.toDigits 16 n).map Char.toUpper).leftpad width '0'

end OwlTap.Protocol
