import OwlTap.Base.Method
import OwlTap.Base.Bits

/-!
# The driver of the flash

`Mt25qFlash` drives a Micron MT25QL128 through any SPI transport. How often a wait finds that its
time is not up is left open.
-/

namespace OwlTap.Flash

open OwlTap

/-- Abstract SPI transport for a flash device. -/
structure IFlashBridge (β : Type) where
  /-- A single SPI transaction: whether it succeeded, and what was received. -/
  transfer : (tx rx : List Byte) → Method β (Bool × List Byte)
  /-- Diagnostic message for the last failed operation. -/
  lastError : β → String

/-! ### Geometry and opcodes -/

/-- Manufacturer, memory type and density. -/
def kJedecMt25ql128 : BitVec 32 := 0x20BA18
/-- The bytes of a page. -/
def kPageSize : ℕ := 256
/-- The bytes of the chip. -/
def kCapacityBytes : ℕ := 16 * 1024 * 1024

/-- SPI command opcodes. -/
def kCmdReadId : Byte := 0x9F
@[inherit_doc kCmdReadId]
def kCmdReadStatus : Byte := 0x05
@[inherit_doc kCmdReadId]
def kCmdWriteEnable : Byte := 0x06
@[inherit_doc kCmdReadId]
def kCmdRead : Byte := 0x03
@[inherit_doc kCmdReadId]
def kCmdPageProgram : Byte := 0x02
@[inherit_doc kCmdReadId]
def kCmdBulkErase : Byte := 0xC7

/-- Status register bit: write in progress. -/
def kStatusWip : Byte := 0x01

/-- A driver of the flash. -/
structure Mt25qFlash (β : Type) where
  /-- The transport. -/
  bridge : β
  /-- The last error message. -/
  lastError : String := ""
  /-- How often each wait to come finds that its time is not up. -/
  patience : List ℕ := []

/-- The three bytes of an address. -/
def addressBytes (addr : BitVec 32) : List Byte := [addr.extractLsb' 16 8, addr.extractLsb' 8 8, addr.extractLsb' 0 8]

namespace Mt25qFlash

variable {β : Type} (B : IFlashBridge β)

/-- A transaction. -/
def transfer (tx : List Byte) : Method (Mt25qFlash β) (Bool × List Byte) :=
  Method.on Mt25qFlash.bridge (fun f bridge => { f with bridge }) (B.transfer tx [])

/-- Return with an error. -/
def fail {α : Type} (msg : Mt25qFlash β → String) (result : α) : Method (Mt25qFlash β) α := fun f =>
  some (result, { f with lastError := msg f })

/-- Byte `i` of what was received. -/
def byteAt (rx : List Byte) (i : ℕ) : Method (Mt25qFlash β) Byte := fun f => (rx[i]?).map fun b => (b, f)

/-- Read the 3-byte JEDEC ID. -/
def readId : Method (Mt25qFlash β) (Option (BitVec 32)) := do
  let (ok, rx) ← transfer B [kCmdReadId, 0, 0, 0]
  if ok then
    let b₁ ← byteAt rx 1
    let b₂ ← byteAt rx 2
    let b₃ ← byteAt rx 3
    pure (some (b₁.setWidth 32 <<< 16 ||| b₂.setWidth 32 <<< 8 ||| b₃.setWidth 32))
  else fail (fun f => "readId: " ++ B.lastError f.bridge) none

/-- Read the 8-bit status register. -/
def readStatus : Method (Mt25qFlash β) (Option Byte) := do
  let (ok, rx) ← transfer B [kCmdReadStatus, 0]
  if ok then
    let sr ← byteAt rx 1
    pure (some sr)
  else fail (fun f => "readStatus: " ++ B.lastError f.bridge) none

/-- Latch WEL. -/
def writeEnable : Method (Mt25qFlash β) Bool := do
  let (ok, _) ← transfer B [kCmdWriteEnable]
  if ok then pure true
  else fail (fun f => "writeEnable: " ++ B.lastError f.bridge) false

/-- One round of a wait: what is done when WIP is still set is left open. -/
def poll (busy : Method (Mt25qFlash β) Bool) : Method (Mt25qFlash β) Bool := do
  match ← readStatus B with
  | none => pure false
  | some sr => if sr &&& kStatusWip = 0 then pure true else busy

/-- Poll the status register until WIP clears; so often the time is not up. -/
def pollWip : (left : ℕ) → Method (Mt25qFlash β) Bool
  | 0 => poll B (fail (fun _ => "waitWipClear: timeout") false)
  | left + 1 => poll B (pollWip left)

/-- Poll the status register until WIP clears or the time is up. -/
def waitWipClear : Method (Mt25qFlash β) Bool := fun f =>
  pollWip B (f.patience.headD 0) { f with patience := f.patience.tail }

/-- Bulk chip erase. Blocks until WIP clears. -/
def bulkErase : Method (Mt25qFlash β) Bool := do
  if ← writeEnable B then
    let (ok, _) ← transfer B [kCmdBulkErase]
    if ok then waitWipClear B
    else fail (fun f => "bulkErase: " ++ B.lastError f.bridge) false
  else pure false

/-- Program one page. -/
def pageProgram (addr : BitVec 32) (data : List Byte) : Method (Mt25qFlash β) Bool := do
  if data.length = 0 ∨ kPageSize < data.length then fail (fun _ => "pageProgram: byte count out of range") false
  else if kCapacityBytes < addr.toNat + data.length then fail (fun _ => "pageProgram: address out of range") false
  else if ← writeEnable B then
    let (ok, _) ← transfer B (kCmdPageProgram :: addressBytes addr ++ data)
    if ok then waitWipClear B
    else fail (fun f => "pageProgram: " ++ B.lastError f.bridge) false
  else pure false

/-- Read `n` bytes starting at `addr`. -/
def read (addr : BitVec 32) (n : ℕ) : Method (Mt25qFlash β) (Option (List Byte)) := do
  if n = 0 then pure (some [])
  else if kCapacityBytes < addr.toNat + n then fail (fun _ => "read: address out of range") none
  else
    let (ok, rx) ← transfer B (kCmdRead :: addressBytes addr ++ List.replicate n 0)
    if ok then fun f => if rx.length < 4 + n then none else some (some ((rx.drop 4).take n), f)
    else fail (fun f => "read: " ++ B.lastError f.bridge) none

end Mt25qFlash

end OwlTap.Flash
