import OwlTap.Protocol.Protocol

/-!
# The UART decoder

`decodeUart` looks for a low level, and from there on at the last sample that is not after the middle
of each bit. A frame that the samples do not complete is dropped.
-/

namespace OwlTap.Protocol

open OwlTap Bsdl BoundaryScan Capture

/-- UART decoder configuration. -/
structure UartConfig where
  rxPin : Text
  /-- In bits per second. -/
  baudRate : ℕ := 9600
  /-- 5 to 8. -/
  dataBits : ℕ := 8
  /-- 1 or 2. -/
  stopBits : ℕ := 1
  parityEnable : Bool := false
  /-- Odd or even parity. -/
  parityOdd : Bool := false

namespace UartConfig

/-- Duration of one bit in microseconds. -/
def bitUs (cfg : UartConfig) : ℚ := 1000000 / cfg.baudRate

/-- Whether the parity bit is to be high, for a number of data bits that are. -/
def expectedParity (cfg : UartConfig) (ones : ℕ) : Bool := if cfg.parityOdd then ones % 2 = 0 else ones % 2 = 1

def totalDataParityBits (cfg : UartConfig) : ℕ := cfg.dataBits + if cfg.parityEnable then 1 else 0

end UartConfig

/-- The label of a character. -/
def charLabel (ch : ℕ) : Text :=
  "0x".toList ++ hexText 2 ch ++ if 0x20 ≤ ch ∧ ch < 0x7F then " '".toList ++ [Char.ofNat ch] ++ "'".toList else []

namespace UartDecoder

/-- The last sample up to a point of time, with those that follow it; there is always one. -/
def advance (t0Frame : SampleFrame) (pointUs : ℚ) : SampleFrame → List SampleFrame → SampleFrame × List SampleFrame
  | cur, [] => (cur, [])
  | cur, next :: rest => if sampleTimeUs next t0Frame ≤ pointUs then advance t0Frame pointUs next rest else (cur, next :: rest)

theorem length_advance (t0Frame : SampleFrame) (pointUs : ℚ) (cur : SampleFrame) (rest : List SampleFrame) :
    (advance t0Frame pointUs cur rest).2.length ≤ rest.length := by
  induction rest generalizing cur with
  | nil => exact le_refl _
  | cons next rest ih =>
    unfold advance
    split
    · exact (ih next).trans (Nat.le_succ _)
    · exact le_refl _

/-- The data bits, least significant one first. -/
def readData (cfg : UartConfig) (t0Frame : SampleFrame) (startTimeUs : ℚ) (at₀ : SampleFrame × List SampleFrame) :
    BitVec 32 × SampleFrame × List SampleFrame :=
  (List.range cfg.dataBits).foldl (fun (dataVal, at₁) (bit : ℕ) =>
    let at₂ := advance t0Frame (startTimeUs + cfg.bitUs * (3 / 2 + bit)) at₁.1 at₁.2
    (if samplePinValue at₂.1 cfg.rxPin then dataVal ||| 1#32 <<< bit else dataVal, at₂)) (0, at₀)

/-- The parity bit, and whether it is wrong. -/
def readParity (cfg : UartConfig) (t0Frame : SampleFrame) (startTimeUs : ℚ) (dataVal : BitVec 32)
    (at₀ : SampleFrame × List SampleFrame) : Bool × SampleFrame × List SampleFrame :=
  if cfg.parityEnable then
    let at₁ := advance t0Frame (startTimeUs + cfg.bitUs * (3 / 2 + cfg.dataBits)) at₀.1 at₀.2
    let ones := ((List.range cfg.dataBits).map fun b => (dataVal >>> b &&& 1).toNat).sum
    (samplePinValue at₁.1 cfg.rxPin != cfg.expectedParity ones, at₁)
  else (false, at₀)

/-- A frame whose start bit has been seen, or none if it is cut off; with where the search goes on. -/
def decodeFrame (cfg : UartConfig) (t0Frame : SampleFrame) (startTimeUs : ℚ) (at₀ : SampleFrame × List SampleFrame) :
    Option DecodedFrame × List SampleFrame :=
  let (dataVal, at₁) := readData cfg t0Frame startTimeUs at₀
  let (parityError, at₂) := readParity cfg t0Frame startTimeUs dataVal at₁
  let stopCenterUs := startTimeUs + cfg.bitUs * (3 / 2 + cfg.totalDataParityBits)
  let at₃ := advance t0Frame stopCenterUs at₂.1 at₂.2
  -- the last sample is too far before the middle of the stop bit: there are not enough to complete the frame
  if sampleTimeUs at₃.1 t0Frame < stopCenterUs - cfg.bitUs / 2 then (none, at₃.2)
  else
    let frameError := parityError || !samplePinValue at₃.1 cfg.rxPin
    let ch := (dataVal &&& 0xFF).toNat
    (some {
      startUs := startTimeUs
      endUs := startTimeUs + cfg.bitUs * (1 + cfg.totalDataParityBits + cfg.stopBits)
      kind := .uart
      label := if frameError then "ERR".toList else charLabel ch
      data := hexText 2 ch
      errorFlag := frameError }, at₃.2)

theorem length_readData (cfg : UartConfig) (t0Frame : SampleFrame) (startTimeUs : ℚ) (at₀ : SampleFrame × List SampleFrame) :
    (readData cfg t0Frame startTimeUs at₀).2.2.length ≤ at₀.2.length := by
  unfold readData
  generalize List.range cfg.dataBits = bits, (0 : BitVec 32) = dataVal
  induction bits generalizing dataVal at₀ with
  | nil => exact le_refl _
  | cons bit bits ih => exact (ih _ _).trans (length_advance _ _ _ _)

theorem length_decodeFrame (cfg : UartConfig) (t0Frame : SampleFrame) (startTimeUs : ℚ)
    (at₀ : SampleFrame × List SampleFrame) : (decodeFrame cfg t0Frame startTimeUs at₀).2.length ≤ at₀.2.length := by
  have hparity : ∀ dataVal at₁, (readParity cfg t0Frame startTimeUs dataVal at₁).2.2.length ≤ at₁.2.length := by
    intro dataVal at₁
    unfold readParity
    split
    · exact length_advance _ _ _ _
    · exact le_refl _
  unfold decodeFrame
  dsimp only
  split
  · exact (length_advance _ _ _ _).trans ((hparity _ _).trans (length_readData _ _ _ _))
  · exact (length_advance _ _ _ _).trans ((hparity _ _).trans (length_readData _ _ _ _))

/-- The loop over the samples. -/
def decodeLoop (cfg : UartConfig) (t0Frame : SampleFrame) : List SampleFrame → List DecodedFrame
  | [] => []
  | frame :: rest =>
    -- wait for start bit
    if samplePinValue frame cfg.rxPin then decodeLoop cfg t0Frame rest
    else
      let startTimeUs := sampleTimeUs frame t0Frame
      let at₀ := advance t0Frame (startTimeUs + cfg.bitUs / 2) frame rest
      -- not a real start bit: keep searching
      if samplePinValue at₀.1 cfg.rxPin then decodeLoop cfg t0Frame at₀.2
      else (decodeFrame cfg t0Frame startTimeUs at₀).1.toList ++
        decodeLoop cfg t0Frame (decodeFrame cfg t0Frame startTimeUs at₀).2
termination_by samples => samples.length
decreasing_by
  · exact Nat.lt_succ_self _
  · exact Nat.lt_succ_of_le (length_advance _ _ _ _)
  · exact Nat.lt_succ_of_le ((length_decodeFrame _ _ _ _).trans (length_advance _ _ _ _))

end UartDecoder

/-- Decode UART frames from a captured sample stream. -/
def decodeUart (samples : List SampleFrame) (cfg : UartConfig) : List DecodedFrame :=
  match samples with
  | [] => []
  | t0Frame :: _ => if cfg.rxPin = [] ∨ cfg.baudRate = 0 then [] else UartDecoder.decodeLoop cfg t0Frame samples

end OwlTap.Protocol
