import OwlTap.Flash.FlashJtagBridge
import OwlTap.Flash.SpiFlash

/-!
# Programming the flash

`FlashProgrammer` loads the bridge bitstream, erases the flash, programs an image page by page and
reads it back. The transport is a parameter; the one over JTAG is `jtagBridge`. What was read back
is recorded beside.
-/

namespace OwlTap.Flash

open OwlTap Ftdi Jtag Config

/-- The transport over JTAG. -/
def jtagBridge {σ : Type} (T : Target σ) : IFlashBridge (FlashJtagBridge σ) :=
  ⟨FlashJtagBridge.transfer T, FlashJtagBridge.lastError⟩

/-- A number as hexadecimal digits. -/
def hexNumber (n : ℕ) : String := String.ofList ((Nat.toDigits 16 n).map Char.toUpper)

/-- An identity as six hexadecimal digits. -/
def hexJedec (jedec : BitVec 32) : String :=
  Jtag.hexByte (jedec.extractLsb' 16 8) ++ Jtag.hexByte (jedec.extractLsb' 8 8) ++ Jtag.hexByte (jedec.extractLsb' 0 8)

/-- The bytes read back at a time. -/
def kVerifyChunk : ℕ := 4096

/-- What a programming works with once the bridge is loaded. -/
structure Programming (β : Type) where
  /-- The flash. -/
  flash : Mt25qFlash β
  /-- The last error message. -/
  lastError : String := ""
  /-- What was read back, with its offset. -/
  readback : List (ℕ × List Byte) := []

namespace Programming

variable {β : Type} (B : IFlashBridge β)

/-- A call on the flash. -/
def onFlash {α : Type} (m : Method (Mt25qFlash β) α) : Method (Programming β) α :=
  Method.on Programming.flash (fun p flash => { p with flash }) m

/-- Return with an error. -/
def fail (msg : Programming β → String) : Method (Programming β) Bool := fun p =>
  some (false, { p with lastError := msg p })

/-- The page-program loop, from an offset on, in at most so many rounds. -/
def programLoop (image : List Byte) : (rounds off : ℕ) → Method (Programming β) Bool
  | 0, _ => pure true
  | rounds + 1, off =>
    if off < image.length then do
      let n := min kPageSize (image.length - off)
      if ← onFlash (Mt25qFlash.pageProgram B (BitVec.ofNat 32 off) ((image.drop off).take n)) then
        programLoop image rounds (off + kPageSize)
      else fail fun p => "Page program failed at 0x" ++ toString off ++ ": " ++ p.flash.lastError
    else pure true

/-- The first of `n` bytes that is not the image's. -/
def mismatch (image : List Byte) (off n : ℕ) (readback : List Byte) : Option ℕ :=
  (List.range n).find? fun i => readback.getD i 0 != image.getD (off + i) 0

/-- The verify loop, from an offset on, in at most so many rounds. -/
def verifyLoop (image : List Byte) : (rounds off : ℕ) → Method (Programming β) Bool
  | 0, _ => pure true
  | rounds + 1, off =>
    if off < image.length then do
      let n := min kVerifyChunk (image.length - off)
      match ← onFlash (Mt25qFlash.read B (BitVec.ofNat 32 off) n) with
      | none => fail fun p => "Verify read failed at 0x" ++ toString off ++ ": " ++ p.flash.lastError
      | some readback =>
        modify fun p => { p with readback := p.readback ++ [(off, readback)] }
        match mismatch image off n readback with
        | some i =>
          fail fun _ => "Verify mismatch at 0x" ++ hexNumber (off + i) ++ ": wrote 0x" ++ Jtag.hexByte (image.getD (off + i) 0) ++
            ", read 0x" ++ Jtag.hexByte (readback.getD i 0)
        | none => verifyLoop image rounds (off + kVerifyChunk)
    else pure true

/-- Check the flash, and write an image, if it could be loaded, into it: erase, program, verify. -/
def writeImage (loaded : Except String (List Byte)) : Method (Programming β) Bool := do
  match ← onFlash (Mt25qFlash.readId B) with
  | none => fail fun p => "Flash ID read failed: " ++ p.flash.lastError
  | some jedec =>
    if jedec ≠ kJedecMt25ql128 then
      fail fun _ => "Unsupported flash: JEDEC=0x" ++ hexJedec jedec ++ " (expected 0x" ++ hexJedec kJedecMt25ql128 ++ ")"
    else
      match loaded with
      | .error err => fail fun _ => err
      | .ok image =>
        if kCapacityBytes < image.length then fail fun _ => "Image exceeds flash capacity"
        else if ← onFlash (Mt25qFlash.bulkErase B) then
          if ← programLoop B image image.length 0 then verifyLoop B image image.length 0
          else pure false
        else fail fun p => "Bulk erase failed: " ++ p.flash.lastError

end Programming

/-- The programmer. -/
structure FlashProgrammer (σ β : Type) where
  /-- The chain. -/
  chain : JtagChain σ
  /-- Index of the PL TAP. -/
  plDeviceIndex : ℤ
  /-- Path of the bridge bitstream. -/
  bridgeBitPath : String
  /-- The last error message. -/
  lastError : String := ""
  /-- What the last programming worked with, if it came so far. -/
  programming : Option (Programming β) := none

namespace FlashProgrammer

variable {σ β : Type} (T : Target σ) (B : IFlashBridge β)

/-- Return with an error. -/
def fail (msg : FlashProgrammer σ β → String) : Method (FlashProgrammer σ β) Bool := fun fp =>
  some (false, { fp with lastError := msg fp })

/-- Load the bridge bitstream, with the given contents; what the configuration says. -/
def loadBridge (bridgeBit : Option (List Byte)) : Method (FlashProgrammer σ β) (Bool × String) := fun fp =>
  (PlConfig.program T fp.bridgeBitPath bridgeBit ⟨fp.chain, fp.plDeviceIndex, "", {}⟩).map fun r =>
    ((r.1, r.2.lastError), { fp with chain := r.2.chain })

/-- Reset the TAP, and let the bridge settle. -/
def settle : Method (FlashProgrammer σ β) Bool :=
  Method.on FlashProgrammer.chain (fun fp chain => { fp with chain }) <| JtagChain.onTap <|
    Method.andThen (TapController.reset T) (TapController.clkIdle T 16)

/-- Erase, program and verify. The bridge file has the given contents, if any; the image is what the loader answers;
`attach` makes the transport on the chain, and `detach` is the chain that it leaves. -/
def program (attach : JtagChain σ → ℤ → β) (detach : JtagChain σ → β → JtagChain σ) (bridgeBit : Option (List Byte))
    (loaded : Except String (List Byte)) (patience : List ℕ) : Method (FlashProgrammer σ β) Bool := do
  modify fun fp => { fp with programming := none }
  let (ok, plError) ← loadBridge T bridgeBit
  if ok then
    if ← settle T then
      fun fp =>
        (Programming.writeImage B loaded
          { flash := ⟨attach fp.chain fp.plDeviceIndex, "", patience⟩, lastError := fp.lastError }).map fun r =>
            (r.1, { fp with
              chain := detach fp.chain r.2.flash.bridge
              lastError := r.2.lastError
              programming := some r.2 })
    else fail fun fp => "TAP reset after bridge load: " ++ fp.chain.tap.lastError
  else fail fun _ => "Bridge bitstream load failed: " ++ plError

/-- Erase, program and verify over JTAG. -/
def programOverJtag (bridgeBit : Option (List Byte)) (loaded : Except String (List Byte)) (patience : List ℕ) :
    Method (FlashProgrammer σ (FlashJtagBridge σ)) Bool :=
  program T (jtagBridge T) (fun chain index => ⟨chain, index, false, ""⟩) (fun _ bridge => bridge.chain) bridgeBit loaded
    patience

end FlashProgrammer

end OwlTap.Flash
