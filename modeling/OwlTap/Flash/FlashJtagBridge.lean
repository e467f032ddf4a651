import OwlTap.Config.PlConfig

/-!
# SPI transactions through a JTAG bridge

`FlashJtagBridge` drives a SPI flash through a bitstream that puts it on the USER1 data register of
the PL TAP. A transaction is one scan: the bytes to send, bit-reversed, at an offset of one bit for
each device nearer TDO, and what is received is taken from the same offset.
-/

namespace OwlTap.Flash

open OwlTap Ftdi Jtag Config

/-- IR opcode of the BSCAN USER1 register. -/
def kUser1Ir : BitVec 32 := 0x02

/-- A SPI transport over a chain. -/
structure FlashJtagBridge (σ : Type) where
  /-- The chain. -/
  chain : JtagChain σ
  /-- Index of the PL TAP. -/
  deviceIndex : ℤ
  /-- Whether USER1 has been loaded. -/
  user1Selected : Bool := false
  /-- The last error message. -/
  lastError : String := ""

/-- Per-byte bit reversal. -/
def reverseByte (b : Byte) : Byte :=
  let b := (b &&& 0xF0) >>> 4 ||| (b &&& 0x0F) <<< 4
  let b := (b &&& 0xCC) >>> 2 ||| (b &&& 0x33) <<< 2
  (b &&& 0xAA) >>> 1 ||| (b &&& 0x55) <<< 1

/-- The bytes to send, from number `i` on, go into the buffer from bit `bypassBefore` on. The positions are `int`;
nothing is done (`none`) when one overflows, or when a bit to be set lies outside the buffer. -/
def packTx (bypassBefore : ℕ) : (i : ℕ) → List Byte → List Byte → Option (List Byte)
  | _, [], tdi => some tdi
  | i, b :: tx, tdi =>
    let rb := reverseByte b
    let base := bypassBefore + 8 * i
    if 2 ^ 31 ≤ base + 7 ∨ ∃ k < 8, rb.getLsbD k = true ∧ 8 * tdi.length ≤ base + k then none
    else packTx bypassBefore (i + 1) tx (orBits rb.getLsbD base 8 tdi)

/-- Eight bits of the buffer, packed. -/
def packed (tdo : List Byte) (base : ℕ) : Byte :=
  (List.range 8).foldl (fun acc b => if bitAt tdo (base + b) then acc ||| 1#8 <<< b else acc) 0

/-- The received bytes, so many, from bit `bypassBefore` on; `none` when they reach outside the buffer. -/
def unpackRx (bypassBefore n : ℕ) (tdo : List Byte) : Option (List Byte) :=
  if 8 * tdo.length < bypassBefore + 8 * n then none
  else some ((List.range n).map fun i => reverseByte (packed tdo (bypassBefore + 8 * i)))

namespace FlashJtagBridge

variable {σ : Type} (T : Target σ)

/-- A call on the chain. -/
def onChain {α : Type} (m : Method (JtagChain σ) α) : Method (FlashJtagBridge σ) α :=
  Method.on FlashJtagBridge.chain (fun b chain => { b with chain }) m

/-- Return with an error. -/
def fail {α : Type} (msg : FlashJtagBridge σ → String) (result : α) : Method (FlashJtagBridge σ) α := fun b =>
  some (result, { b with lastError := msg b })

/-- How many devices stand before the target, or behind it. -/
def bypassCount (b : FlashJtagBridge σ) (side : ℤ → ℤ → Bool) : ℕ :=
  ((List.range b.chain.devices.length).filter fun i : ℕ => side i b.deviceIndex).length

/-- Load USER1 unless it is loaded. -/
def selectUser1 : Method (FlashJtagBridge σ) Bool := fun b =>
  if b.user1Selected then some (true, b)
  else
    (do
      if ← onChain (JtagChain.selectInstruction T b.deviceIndex kUser1Ir) then
        modify fun b => { b with user1Selected := true }
        pure true
      else fail (fun b => "USER1 load: " ++ b.chain.lastError) false : Method (FlashJtagBridge σ) Bool) b

/-- The scan of a transaction, of `totalBits` bits. The counts are `int`; nothing is done (`none`) when they overflow
or the buffer's size is negative. -/
def shiftTx (tx rx : List Byte) : Method (FlashJtagBridge σ) (Bool × List Byte) := fun b =>
  let dataBits := toInt tx.length * 8
  let bypassBefore := b.bypassCount (fun i k => decide (i < k))
  let bypassAfter := b.bypassCount (fun i k => decide (k < i))
  let totalBits := bypassBefore + dataBits + bypassAfter
  let tdiBytes := (totalBits + 7).tdiv 8
  if dataBits < -2 ^ 31 ∨ 2 ^ 31 ≤ dataBits ∨ 2 ^ 31 ≤ totalBits + 7 ∨ tdiBytes < 0 then none
  else
    match packTx bypassBefore 0 tx (List.replicate tdiBytes.toNat 0) with
    | none => none
    | some tdi =>
      (do
        let (ok, tdo) ← onChain (JtagChain.onTap (TapController.shiftDR T (some tdi) [] totalBits.toNat))
        if ok then fun b => (unpackRx bypassBefore tx.length tdo).map fun rx => ((true, rx), b)
        else fail (fun b => "shiftDR: " ++ b.chain.tap.lastError) (false, rx) :
          Method (FlashJtagBridge σ) (Bool × List Byte)) b

/-- Perform a single SPI transaction: send `tx`, and receive as many bytes into `rx`. -/
def transfer (tx rx : List Byte) : Method (FlashJtagBridge σ) (Bool × List Byte) := fun b =>
  if tx = [] then fail (fun _ => "transfer: tx is empty") (false, rx) b
  else if b.deviceIndex < 0 ∨ b.chain.devices.length ≤ b.deviceIndex then
    fail (fun _ => "transfer: invalid device index") (false, rx) b
  else
    (do
      if ← selectUser1 T then shiftTx T tx rx
      else pure (false, rx) : Method (FlashJtagBridge σ) (Bool × List Byte)) b

end FlashJtagBridge

end OwlTap.Flash
