import OwlTap.Jtag.BoundaryAccess
import OwlTap.Jtag.ShiftDRRepeat

/-!
# Reads into a vector that is not empty

Every function that reads hands its result out in a vector of the caller's. Some assign the vector first, and
others only resize it and then set the bits that they read: there, bits from before stay. `doShift`
copies whole bytes, so only its last byte keeps them; `readBSR` keeps them everywhere.
-/

namespace OwlTap.Jtag

open OwlTap Ftdi

/-! ### The last byte of a scan -/

namespace TapController

variable {σ : Type} {T : Target σ}

end TapController

/-! ### Two runs -/

namespace TapController

variable {σ : Type} {T : Target σ}

end TapController

/-! ### One device -/

namespace JtagChain

variable {σ : Type} {T : Target σ}

/-- A vector that is resized. -/
def resize (n : ℕ) (v : List Byte) : List Byte := v.take n ++ List.replicate (n - v.length) 0

end JtagChain

end OwlTap.Jtag
