import Mathlib.Tactic.SplitIfs
import OwlTap.Ila.Bscane2Top

/-!
# The generator of cores

`renderIlaGeneratedFiles` writes a wrapper with one instance of `ila_bscane2_top`, for a
configuration that `validateIlaGeneratorConfig` accepts. What the host meets of it are the
parameters of the instance: a width of 1 to 32 bits, and any power of two as a depth.

Integers of type `int` are words of 32 bits here, compared with their signs. The texts of the
generated files are left out, but for the parameters.
-/

namespace OwlTap.Ila

open OwlTap

/-- The formats of a lane. -/
inductive IlaGeneratorFormat where
  | hex | dec | bin
  deriving DecidableEq, Repr

/-- A lane. -/
structure IlaGeneratorLane where
  /-- Its name. -/
  name : String
  /-- The highest bit. -/
  hi : BitVec 32 := 0
  /-- The lowest bit. -/
  lo : BitVec 32 := 0
  /-- The format. -/
  format : IlaGeneratorFormat := .hex
  deriving DecidableEq, Repr

/-- A path, as its iterator shows it. -/
structure Path where
  /-- It begins at the root. -/
  isAbsolute : Bool
  /-- Its parts. -/
  parts : List String
  deriving DecidableEq, Repr

/-- What is to be generated. -/
structure IlaGeneratorConfig where
  /-- Where the files go. -/
  outputSubdir : Path := ⟨false, ["hdl", "ila", "generated", "ila_generated"]⟩
  /-- The name of the project. -/
  projectName : String := "ila_generated"
  /-- The name of the wrapper. -/
  topModule : String := "ila_generated_top"
  /-- The device. -/
  fpgaPart : String := "xc7z020clg400-1"
  /-- The ports of the wrapper: the clock. -/
  clockPortName : String := "sample_clk"
  /-- The reset. -/
  resetPortName : String := "sample_rst_n"
  /-- The data. -/
  dataPortName : String := "data_in"
  /-- Whether they are valid. -/
  validPortName : String := "data_valid"
  /-- The frequency of the clock. -/
  sampleClockHz : BitVec 32 := 125000000
  /-- The width of a sample. -/
  dataWidth : BitVec 32 := 32
  /-- The number of samples. -/
  depth : BitVec 32 := 1024
  /-- The identity. -/
  idcode : BitVec 32 := 0xA17A0001
  /-- The lanes. -/
  lanes : List IlaGeneratorLane := []

/-- The most lanes that there may be. -/
def kMaxLaneCount : ℤ := 15

def isPowerOfTwo (value : BitVec 32) : Bool := decide (0 < value.toInt) && value &&& (value - 1) == 0

/-- The loop of `log2Exact`. An `int` is shifted 30 times at most. -/
def log2Loop : ℕ → BitVec 32 → ℕ → ℕ
  | 0, _, out => out
  | fuel + 1, value, out => if 1 < value.toInt then log2Loop fuel (value.sshiftRight 1) (out + 1) else out

def log2Exact (value : BitVec 32) : ℕ := log2Loop 31 value 0

def isIdentifier (text : String) : Bool :=
  match text.toList with
  | [] => false
  | first :: rest => (first.isAlpha || first == '_') && rest.all fun c => c.isAlphanum || c == '_'

def isSafeRelativePath (path : Path) : Bool := !path.parts.isEmpty && !path.isAbsolute && path.parts.all (· ≠ "..")

/-- What is wrong with a lane, if anything. -/
def laneError (dataWidth : BitVec 32) (lane : IlaGeneratorLane) : Option String :=
  if !isIdentifier lane.name then some "lane names must be valid identifiers"
  else if lane.lo.toInt < 0 ∨ lane.hi.toInt < lane.lo.toInt ∨ dataWidth.toInt ≤ lane.hi.toInt then
    some "lane bit range is out of bounds for the selected data width"
  else none

/-- The error, if the configuration is refused. -/
def validateIlaGeneratorConfig (config : IlaGeneratorConfig) : Option String :=
  if !isSafeRelativePath config.outputSubdir then
    some "output_subdir must be a safe relative path inside the repository"
  else if !isIdentifier config.projectName then some "project_name must be a valid identifier"
  else if !isIdentifier config.topModule then some "top_module must be a valid identifier"
  else if !isIdentifier config.clockPortName || !isIdentifier config.resetPortName ||
      !isIdentifier config.dataPortName || !isIdentifier config.validPortName then
    some "clock/reset/data/valid port names must be valid identifiers"
  else if config.fpgaPart.isEmpty then some "fpga_part must not be empty"
  else if config.sampleClockHz = 0 then some "sample_clock_hz must be non-zero"
  else if config.dataWidth.toInt < 1 ∨ 32 < config.dataWidth.toInt then some "data_width must be in the range 1..32"
  else if !isPowerOfTwo config.depth then some "depth must be a power of two"
  else if config.lanes.isEmpty then some "at least one signal lane is required"
  else if kMaxLaneCount < (BitVec.ofNat 32 config.lanes.length).toInt then some "no more than 15 signal lanes are supported"
  else config.lanes.findSome? (laneError config.dataWidth)

/-- The literal of a format. -/
def formatEnumLiteral : IlaGeneratorFormat → BitVec 4
  | .dec => 1
  | .bin => 2
  | .hex => 0

/-! ### The instance -/

namespace IlaGeneratorConfig

/-- `DATA_W`. -/
def dataW (config : IlaGeneratorConfig) : ℕ := config.dataWidth.toInt.toNat

/-- `ADDR_W`. -/
def addrW (config : IlaGeneratorConfig) : ℕ := log2Exact config.depth

/-- The other parameters. The wrapper leaves `JTAG_CHAIN` at its default; `joinSv8Array` and `joinSvFmtArray` put
zeros after the lanes. -/
def params (config : IlaGeneratorConfig) : IlaParams where
  jtagChain := 1
  numCh := 1
  idcodeVal := config.idcode
  sigCount := config.lanes.length
  sigHi i := (config.lanes[i]?).elim 0 fun lane => lane.hi.setWidth 8
  sigLo i := (config.lanes[i]?).elim 0 fun lane => lane.lo.setWidth 8
  sigFmt i := (config.lanes[i]?).elim 0 fun lane => formatEnumLiteral lane.format

end IlaGeneratorConfig

/-! ### What is accepted -/

theorem toNat_of_toInt_pos {value : BitVec 32} (h : 0 < value.toInt) : value.toInt = value.toNat ∧ value.toNat < 2 ^ 31 := by
  have := value.isLt
  rw [BitVec.toInt_eq_toNat_cond] at h ⊢
  split_ifs at h ⊢ with hlt
  · omega
  · omega

/-- A power of two is what it says. -/
theorem exists_pow_of_isPowerOfTwo {value : BitVec 32} (h : isPowerOfTwo value = true) :
    ∃ k ≤ 30, value.toNat = 2 ^ k := by
  rw [isPowerOfTwo, Bool.and_eq_true, decide_eq_true_iff, beq_iff_eq] at h
  obtain ⟨hint, hlt⟩ := toNat_of_toInt_pos h.1
  have hne : value.toNat ≠ 0 := by
    have := h.1
    omega
  have hand : value.toNat &&& (value.toNat - 1) = 0 := by
    have hsub : (value - 1).toNat = value.toNat - 1 := by
      rw [BitVec.toNat_sub_of_le (by rw [BitVec.le_def]; show 1 ≤ value.toNat; omega)]
      rfl
    have := congrArg BitVec.toNat h.2
    rwa [BitVec.toNat_and, hsub] at this
  obtain ⟨k, hk⟩ := (Nat.and_sub_one_eq_zero_iff_isPowerOfTwo hne).mp hand
  refine ⟨k, ?_, hk⟩
  have : 2 ^ k < 2 ^ 31 := hk ▸ hlt
  have := (Nat.pow_lt_pow_iff_right (by decide : 1 < 2)).mp this
  omega

theorem log2Loop_of_pow {k : ℕ} {value : BitVec 32} (h : value.toNat = 2 ^ k) (hk : k ≤ 30) {fuel : ℕ} (hf : k < fuel)
    (out : ℕ) : log2Loop fuel value out = out + k := by
  induction k generalizing value fuel out with
  | zero =>
    obtain ⟨fuel, rfl⟩ : ∃ f, fuel = f + 1 := ⟨fuel - 1, by omega⟩
    rw [log2Loop, if_neg (by rw [BitVec.toInt_eq_toNat_cond, h]; decide), Nat.add_zero]
  | succ k ih =>
    obtain ⟨fuel, rfl⟩ : ∃ f, fuel = f + 1 := ⟨fuel - 1, by omega⟩
    have hlt : value.toNat < 2 ^ 31 := h ▸ Nat.pow_lt_pow_right (by decide) (by omega)
    have hpos : 1 ≤ 2 ^ k := Nat.one_le_two_pow
    have hint : value.toInt = value.toNat := by rw [BitVec.toInt_eq_toNat_cond, if_pos (by omega)]
    have hhalf : (value.sshiftRight 1).toNat = 2 ^ k := by
      have hmsb : value.msb = false := by rw [BitVec.msb_eq_false_iff_two_mul_lt]; omega
      rw [BitVec.sshiftRight_eq_of_msb_false hmsb, BitVec.toNat_ushiftRight, h, Nat.shiftRight_eq_div_pow, Nat.pow_succ]
      omega
    rw [log2Loop, if_pos (by rw [hint, h, Nat.pow_succ]; omega), ih hhalf (by omega) (by omega)]
    omega

/-- What a configuration that is accepted says about the geometry. -/
theorem geometry_of_validate {config : IlaGeneratorConfig} (h : validateIlaGeneratorConfig config = none) :
    1 ≤ config.dataW ∧ config.dataW ≤ 32 ∧ config.addrW ≤ 30 ∧ config.depth.toNat = 2 ^ config.addrW := by
  simp only [validateIlaGeneratorConfig] at h
  split_ifs at h with h₁ h₂ h₃ h₄ h₅ h₆ hwidth hdepth
  obtain ⟨k, hk, hpow⟩ := exists_pow_of_isPowerOfTwo (by simpa using hdepth)
  have haddr : config.addrW = k := by
    rw [IlaGeneratorConfig.addrW, log2Exact, log2Loop_of_pow hpow hk (by omega), Nat.zero_add]
  rw [haddr, IlaGeneratorConfig.dataW]
  exact ⟨by omega, by omega, hk, hpow⟩

end OwlTap.Ila
