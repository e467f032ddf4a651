import OwlTap.Base.Bits

/-!
# MPSSE command buffers

`MpsseCommandBuffer` accumulates the bytes of the commands a host sends to the
MPSSE engine of an FTDI chip, and counts the bytes it will have to read back.
-/

namespace OwlTap.Ftdi

open OwlTap

/-! ### MPSSE command bytes -/

namespace MpsseCmd

/-- Clock data bits out on -ve clock edge, LSB first. -/
def writeBitsNegLsb : Byte := 0x1B
/-- Clock data bits in on +ve clock edge, LSB first. -/
def readBitsPosLsb : Byte := 0x2A
/-- Clock data bits in/out, LSB first. -/
def rdwrBitsLsb : Byte := 0x3B
/-- Clock data bytes out on -ve edge, LSB first. -/
def writeNegLsb : Byte := 0x19
/-- Clock data bytes in on +ve edge, LSB first. -/
def readPosLsb : Byte := 0x28
/-- Clock data bytes in/out, LSB first. -/
def rdwrLsb : Byte := 0x39
/-- Clock TMS bits out on -ve edge (bit mode, LSB first). -/
def tmsOut : Byte := 0x4B
/-- Clock TMS bits out + read TDO, -ve edge (bit mode). -/
def tmsRdwr : Byte := 0x6B
/-- Set data bits low byte (ADBUS). -/
def setBitsLow : Byte := 0x80
/-- Set TCK divisor. -/
def tckDivisor : Byte := 0x86
/-- Disable clock divide by 5. -/
def disDiv5 : Byte := 0x8A
/-- Disable 3-phase data clocking. -/
def dis3Phase : Byte := 0x8D
/-- Disconnect TDI/DO loopback. -/
def loopbackEnd : Byte := 0x85
/-- Send immediate (flush USB buffer). -/
def sendImmediate : Byte := 0x87

end MpsseCmd

/-! ### Pointers -/

/-- A `const uint8_t*`: null, or the start of a buffer. -/
abbrev Ptr := Option (List Byte)

/-- `len` bytes from `p + off`; undefined for a null pointer and past the end of the buffer. -/
def Ptr.slice (p : Ptr) (off len : ℕ) : Option (List Byte) :=
  p.bind fun buf => if off + len ≤ buf.length then some ((buf.drop off).take len) else none

theorem Ptr.slice_some {buf : List Byte} {off len : ℕ} (h : off + len ≤ buf.length) :
    Ptr.slice (some buf) off len = some ((buf.drop off).take len) := by
  simp [Ptr.slice, h]

/-- What `slice` returns lies inside the buffer, and is as long as asked. -/
theorem Ptr.slice_eq_some {p : Ptr} {off len : ℕ} {bs : List Byte} (h : Ptr.slice p off len = some bs) :
    ∃ buf, p = some buf ∧ off + len ≤ buf.length ∧ bs = (buf.drop off).take len := by
  cases p with
  | none => simp [Ptr.slice] at h
  | some buf =>
    simp only [Ptr.slice, Option.bind_some] at h
    split at h
    case isTrue hl => exact ⟨buf, rfl, hl, (Option.some.inj h).symm⟩
    case isFalse => cases h

/-! ### The buffer -/

/-- Command buffer for building MPSSE command sequences. -/
structure MpsseCommandBuffer where
  /-- The raw command data. -/
  buffer : List Byte := []
  /-- Number of bytes expected to be read back from the device. -/
  expectedReadBytes : ℕ := 0

namespace MpsseCommandBuffer

/-- Append bytes, and count the bytes the device will answer with. -/
def append (c : MpsseCommandBuffer) (bs : List Byte) (answers : ℕ) : MpsseCommandBuffer :=
  ⟨c.buffer ++ bs, c.expectedReadBytes + answers⟩

@[simp] theorem buffer_append (c : MpsseCommandBuffer) (bs : List Byte) (n : ℕ) :
    (c.append bs n).buffer = c.buffer ++ bs := rfl

@[simp] theorem expectedReadBytes_append (c : MpsseCommandBuffer) (bs : List Byte) (n : ℕ) :
    (c.append bs n).expectedReadBytes = c.expectedReadBytes + n := rfl

/-- Clock TMS bits (1-7 bits per call), with TDI held; bit 7 of the data byte is the TDI value. -/
def clockTms (tmsBits : Byte) (bitCount : ℕ) (tdiValue readTdo : Bool) (c : MpsseCommandBuffer) :
    MpsseCommandBuffer :=
  if bitCount < 1 ∨ 7 < bitCount then c
  else c.append [if readTdo then MpsseCmd.tmsRdwr else MpsseCmd.tmsOut, BitVec.ofNat 8 (bitCount - 1),
      (tmsBits &&& 0x7F) ||| (if tdiValue then 0x80 else 0x00)] (if readTdo then 1 else 0)

/-- The loop `while (full_bytes > 0)` over chunks of up to 65536 bytes, each with its
length less one in two bytes. `fuel` bounds the passes; a pass takes at least one byte. -/
def byteChunks (op : Byte) (payload : ℕ → ℕ → Option (List Byte)) (read : Bool) :
    (fuel offset fullBytes : ℕ) → MpsseCommandBuffer → Option MpsseCommandBuffer
  | 0, _, _, c => some c
  | fuel + 1, offset, fullBytes, c =>
    if fullBytes = 0 then some c
    else
      let chunk := if fullBytes > 65536 then 65536 else fullBytes
      let len := BitVec.ofNat 16 (chunk - 1)
      (payload offset chunk).bind fun bs =>
        byteChunks op payload read fuel (offset + chunk) (fullBytes - chunk)
          (c.append (op :: len.setWidth 8 :: (len >>> 8).setWidth 8 :: bs) (if read then chunk else 0))

/-- The body `shiftOut`, `shiftIn` and `shiftInOut` share: full bytes in chunks, then the
remaining bits. They differ in their two opcodes, in what they drive and in whether they read. -/
def shift (opBytes opBits : Byte) (payload : ℕ → ℕ → Option (List Byte)) (read : Bool)
    (bitCount : ℕ) (c : MpsseCommandBuffer) : Option MpsseCommandBuffer :=
  if bitCount = 0 then some c
  else
    (byteChunks opBytes payload read (bitCount / 8) 0 (bitCount / 8) c).bind fun c =>
      if bitCount % 8 > 0 then
        (payload (bitCount / 8) 1).map fun d =>
          c.append (opBits :: BitVec.ofNat 8 (bitCount % 8 - 1) :: d) (if read then 1 else 0)
      else some c

/-- Shift data out on TDI, LSB first, no TDO read. -/
def shiftOut (data : Ptr) (bitCount : ℕ) : MpsseCommandBuffer → Option MpsseCommandBuffer :=
  shift MpsseCmd.writeNegLsb MpsseCmd.writeBitsNegLsb data.slice false bitCount

/-- Shift data in from TDO, LSB first, no TDI drive. -/
def shiftIn (bitCount : ℕ) : MpsseCommandBuffer → Option MpsseCommandBuffer :=
  shift MpsseCmd.readPosLsb MpsseCmd.readBitsPosLsb (fun _ _ => some []) true bitCount

/-- Shift data in/out simultaneously (TDI out, TDO in), LSB first. -/
def shiftInOut (data : Ptr) (bitCount : ℕ) : MpsseCommandBuffer → Option MpsseCommandBuffer :=
  shift MpsseCmd.rdwrLsb MpsseCmd.rdwrBitsLsb data.slice true bitCount

/-- Set ADBUS pin values and direction. -/
def setLowBits (value direction : Byte) (c : MpsseCommandBuffer) : MpsseCommandBuffer :=
  c.append [MpsseCmd.setBitsLow, value, direction] 0

/-- Set TCK frequency. -/
def setClockDivisor (divisor : BitVec 16) (c : MpsseCommandBuffer) : MpsseCommandBuffer :=
  c.append [MpsseCmd.tckDivisor, divisor.setWidth 8, (divisor >>> 8).setWidth 8] 0

/-- Disable /5 clock divider (use 60MHz base clock). -/
def disableClockDivide5 (c : MpsseCommandBuffer) : MpsseCommandBuffer := c.append [MpsseCmd.disDiv5] 0

/-- Disable adaptive clocking. -/
def disable3PhaseClocking (c : MpsseCommandBuffer) : MpsseCommandBuffer := c.append [MpsseCmd.dis3Phase] 0

/-- Disconnect internal TDI/TDO loopback. -/
def disableLoopback (c : MpsseCommandBuffer) : MpsseCommandBuffer := c.append [MpsseCmd.loopbackEnd] 0

/-- Request immediate USB flush. -/
def sendImmediate (c : MpsseCommandBuffer) : MpsseCommandBuffer := c.append [MpsseCmd.sendImmediate] 0

end MpsseCommandBuffer

end OwlTap.Ftdi
