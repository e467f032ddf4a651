import Mathlib.Algebra.Order.Ring.Int
import Mathlib.Data.List.AList

/-!
# BSDL device descriptions

What the parser makes of a BSDL file, and the queries that boundary scan makes of it.
Names are lists of characters; maps are association lists without a key twice.
-/

namespace OwlTap.Bsdl

/-- A string of the source text, or a name from it. -/
abbrev Text := List Char

/-- A statement about the characters of a text is decided along the text. -/
instance decidableForallMem (s : Text) (p : Char → Prop) [DecidablePred p] : Decidable (∀ c ∈ s, p c) :=
  List.decidableBAll p s

/-- One about the next character, if there is one, is decided of that character. -/
instance decidableForallNext (o : Option Char) (p : Char → Prop) [DecidablePred p] : Decidable (∀ c ∈ o, p c) :=
  Option.decidableForallMem o

/-- Boundary cell function types. -/
inductive CellFunction where
  | input | output2 | output3 | control | bidir | clock | internal
  deriving DecidableEq, Repr

/-- Result when a cell is disabled. -/
inductive DisableResult where
  | none | pull0 | pull1 | highZ | keeper | unknown
  deriving DecidableEq, Repr

/-- A single boundary scan register cell. -/
structure BoundaryCell where
  /-- Bit position in the register, 0 closest to TDO. -/
  position : ℤ := -1
  /-- For example `BC_1`. -/
  cellType : Text := []
  /-- Port name; `*` is no pin connection. -/
  pinName : Text := []
  /-- What the cell does. -/
  function : CellFunction := .input
  /-- 0, 1, or -1 for don't care. -/
  safeValue : ℤ := -1
  /-- Position of the control cell, -1 for none. -/
  disabledBy : ℤ := -1
  /-- Value of the control cell that disables. -/
  disableValue : ℤ := -1
  /-- What the pin does then. -/
  disableResult : DisableResult := .none
  deriving DecidableEq, Repr

namespace BoundaryCell

/-- Is this cell connected to a physical pin? -/
def hasPin (c : BoundaryCell) : Bool := c.pinName ≠ ['*'] ∧ c.pinName ≠ []

/-- Is this an input capture cell? -/
def isInput (c : BoundaryCell) : Bool := c.function = .input ∨ c.function = .bidir ∨ c.function = .clock

/-- Is this an output drive cell? -/
def isOutput (c : BoundaryCell) : Bool := c.function = .output2 ∨ c.function = .output3 ∨ c.function = .bidir

/-- Is this a control cell? -/
def isControl (c : BoundaryCell) : Bool := c.function = .control

end BoundaryCell

/-- Pin direction, from the port declaration. -/
inductive PinDirection where
  | in | out | inout | buffer | linkage
  deriving DecidableEq, Repr

/-- Pin information from the port declaration. -/
structure PinInfo where
  /-- The port. -/
  name : Text
  /-- Its mode. -/
  direction : PinDirection := .in
  /-- From the pin map. -/
  physicalPin : ℤ := -1
  /-- Position of the input cell. -/
  inputCell : ℤ := -1
  /-- Position of the output cell. -/
  outputCell : ℤ := -1
  /-- Position of the control cell. -/
  controlCell : ℤ := -1
  deriving DecidableEq, Repr

/-- IDCODE register fields. -/
structure IdCode where
  /-- All 32 bits. -/
  raw : BitVec 32 := 0
  /-- Bits 28-31. -/
  version : BitVec 32 := 0
  /-- Bits 12-27. -/
  partNumber : BitVec 32 := 0
  /-- Bits 1-11. -/
  manufacturer : BitVec 32 := 0
  deriving DecidableEq, Repr

/-- Complete parsed BSDL device description. -/
structure BSDLDevice where
  /-- Entity name. -/
  entityName : Text := []
  /-- Bits of the instruction register. -/
  instructionLength : ℕ := 0
  /-- Opcodes by name. -/
  instructions : AList fun _ : Text => BitVec 32 := ∅
  /-- Bits of the boundary scan register. -/
  boundaryLength : ℕ := 0
  /-- Its cells, by position. -/
  boundaryCells : List BoundaryCell := []
  /-- Pins by name. -/
  pins : AList fun _ : Text => PinInfo := ∅
  /-- Package pins by signal name. -/
  packagePinMap : AList fun _ : Text => Text := ∅
  /-- Device identification. -/
  idcode : IdCode := {}

namespace BSDLDevice

/-- Get a specific instruction opcode. -/
def getInstruction (d : BSDLDevice) (name : Text) : Option (BitVec 32) := d.instructions.lookup name

/-- Get SAMPLE instruction opcode: `SAMPLE`, or else `SAMPLE/PRELOAD`. -/
def sampleOpcode (d : BSDLDevice) : Option (BitVec 32) :=
  match d.getInstruction "SAMPLE".toList with
  | some op => some op
  | none => d.getInstruction "SAMPLE/PRELOAD".toList

/-- Get EXTEST instruction opcode. -/
def extestOpcode (d : BSDLDevice) : Option (BitVec 32) := d.getInstruction "EXTEST".toList

/-- Get boundary cell by position. -/
def getCellAt (d : BSDLDevice) (position : ℤ) : Option BoundaryCell :=
  if 0 ≤ position then d.boundaryCells[position.toNat]? else none

/-- Find the output cell for a given pin name. -/
def getOutputCellForPin (d : BSDLDevice) (pinName : Text) : Option BoundaryCell :=
  d.boundaryCells.find? fun cell => cell.pinName = pinName ∧ cell.isOutput

/-- Find the control cell for a given output cell. -/
def getControlCellFor (d : BSDLDevice) (outputCell : BoundaryCell) : Option BoundaryCell :=
  if 0 ≤ outputCell.disabledBy then d.getCellAt outputCell.disabledBy else none

/-- Link a boundary cell to the pin it is connected to. -/
def linkCell (pins : AList fun _ : Text => PinInfo) (cell : BoundaryCell) : AList fun _ : Text => PinInfo :=
  if cell.hasPin then
    match pins.lookup cell.pinName with
    | none => pins
    | some pin =>
      pins.insert cell.pinName
        { pin with
          inputCell := if cell.isInput then cell.position else pin.inputCell
          outputCell := if cell.isOutput then cell.position else pin.outputCell
          controlCell := if cell.isControl then cell.position else pin.controlCell }
  else pins

/-- Cross-reference boundary cells with pin information. -/
def crossReference (d : BSDLDevice) : BSDLDevice :=
  { d with pins := d.boundaryCells.foldl linkCell d.pins }

end BSDLDevice

end OwlTap.Bsdl
