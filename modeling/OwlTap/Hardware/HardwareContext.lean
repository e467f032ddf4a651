import OwlTap.BoundaryScan.PinDriver
import OwlTap.BoundaryScan.Scanner
import OwlTap.Ftdi.D2xx

/-!
# The hardware context

`HardwareContext` owns the device, the controller and the chain, with a scanner and a driver
for each device of the chain that has been asked for one. It outlives the connection: `close`
drops the scanners and drivers and closes the device, and `open` opens it again, but neither
touches the state in which the controller believes the TAP to be.
-/

namespace OwlTap.Hardware

open OwlTap Ftdi Jtag BoundaryScan

/-- Persistent application settings: the device connection. -/
structure AppConfig where
  /-- USB vendor ID. -/
  vendorId : BitVec 16 := 0x0403
  /-- USB product ID. -/
  productId : BitVec 16 := 0x6010
  /-- Serial number filter. -/
  serial : String := ""
  /-- Channel of the chip. -/
  interfaceChannel : ℤ := 0
  /-- Desired TCK frequency. -/
  clockFreqHz : ℕ := 1000000

/-- The FTDI + JTAG stack. -/
structure HardwareContext (σ : Type) where
  /-- The settings. -/
  config : AppConfig
  /-- The chain, with the controller and the device. -/
  chain : JtagChain σ
  /-- The scanners, by device index. -/
  scanners : AList fun _ : ℤ => ScannerData
  /-- The drivers, by device index. -/
  pinDrivers : AList fun _ : ℤ => DriverData
  /-- For the record: the state in which the TAP was left when the device was last closed, at first
  that in which hardware wakes up. -/
  left : TapState

namespace HardwareContext

variable {σ : Type} (T : Target σ)

/-- A context fresh from its constructor, for a link to the given hardware. -/
def new (config : AppConfig) (link : Link σ) : HardwareContext σ :=
  ⟨config, ⟨⟨⟨false, "", link, []⟩, .testLogicReset, ""⟩, [], ""⟩, ∅, ∅, .testLogicReset⟩

/-- The controller. -/
def tap (ctx : HardwareContext σ) : TapController σ := ctx.chain.tap

/-- The device. -/
def ftdi (ctx : HardwareContext σ) : FtdiDevice σ := ctx.tap.device

/-- The hardware. -/
def port (ctx : HardwareContext σ) : Port σ := ctx.ftdi.link.port

/-- Whether the device is open. -/
def isOpen (ctx : HardwareContext σ) : Bool := ctx.ftdi.isOpen

/-- With another controller. -/
def setTap (ctx : HardwareContext σ) (tap : TapController σ) : HardwareContext σ :=
  { ctx with chain := { ctx.chain with tap } }

/-- With another device. -/
def setFtdi (ctx : HardwareContext σ) (device : FtdiDevice σ) : HardwareContext σ :=
  ctx.setTap { ctx.tap with device }

/-- A call on the device. -/
def onFtdi {α : Type} (m : Method (FtdiDevice σ) α) : Method (HardwareContext σ) α := Method.on ftdi setFtdi m

/-- Open the FTDI device and initialise MPSSE; the empty string, or an error. -/
def «open» (w : D2xx) : Method (HardwareContext σ) String := fun ctx =>
  if ctx.isOpen then some ("", ctx)
  else
    (do
      if ← onFtdi (FtdiDevice.open ctx.config.vendorId ctx.config.productId ctx.config.serial
          ctx.config.interfaceChannel w) then
        if ← onFtdi (FtdiDevice.initMpsse T ctx.config.clockFreqHz w) then pure ""
        else fun ctx => some (ctx.ftdi.lastError, ctx.setFtdi ctx.ftdi.close)
      else fun ctx => some (ctx.ftdi.lastError, ctx) : Method (HardwareContext σ) String) ctx

/-- Drop the scanners and drivers. -/
def resetDeviceObjects (ctx : HardwareContext σ) : HardwareContext σ := { ctx with scanners := ∅, pinDrivers := ∅ }

/-- Close the FTDI device and release all lazily-constructed objects. -/
def close (ctx : HardwareContext σ) : HardwareContext σ :=
  { ctx.resetDeviceObjects.setFtdi ctx.ftdi.close with
    left := if ctx.isOpen then ctx.port.state else ctx.left }

/-! ### What opening and closing do -/

/-- The driver lets the context open. -/
def Opens (ctx : HardwareContext σ) (w : D2xx) : Prop := ∃ ctx', ctx.open T w = some ("", ctx')

@[simp] theorem ftdi_setFtdi (ctx : HardwareContext σ) (d : FtdiDevice σ) : (ctx.setFtdi d).ftdi = d := rfl

@[simp] theorem tap_setTap (ctx : HardwareContext σ) (tap : TapController σ) : (ctx.setTap tap).tap = tap := rfl

@[simp] theorem left_setTap (ctx : HardwareContext σ) (tap : TapController σ) : (ctx.setTap tap).left = ctx.left := rfl

@[simp] theorem isOpen_close (ctx : HardwareContext σ) : ctx.close.isOpen = false := rfl

theorem onFtdi_of_eq {α : Type} {m : Method (FtdiDevice σ) α} {ctx : HardwareContext σ} {a : α} {d : FtdiDevice σ}
    (h : m ctx.ftdi = some (a, d)) : onFtdi m ctx = some (a, ctx.setFtdi d) := Method.on_of_eq setFtdi h

variable {T}

/-- Opening a closed context moves neither the TAP nor the controller's state. When it succeeds the chip waits
with TMS high, and when it fails the device is closed. -/
theorem open_spec {ctx : HardwareContext σ} (hc : ctx.isOpen = false) (w : D2xx) :
    ∃ err d, ctx.open T w = some (err, ctx.setFtdi d) ∧ d.link.port = ctx.port ∧
      (err = "" → d.Waits true) ∧ (err ≠ "" → d.isOpen = false) := by
  obtain ⟨ok₁, d₁, e₁, h₁, hopen₁⟩ := FtdiDevice.open_stilled (T := T) ctx.config.vendorId ctx.config.productId
    ctx.config.serial ctx.config.interfaceChannel w ctx.ftdi
  rw [HardwareContext.open, if_neg (by simp [hc]), Method.bind_of_eq _ (onFtdi_of_eq e₁)]
  cases ok₁ with
  | false =>
    exact ⟨d₁.lastError, d₁, rfl, h₁.clocked.port, fun h => absurd h (h₁.lastError rfl), fun _ => hopen₁⟩
  | true =>
    obtain ⟨ok₂, d₂, e₂, h₂⟩ := FtdiDevice.initMpsse_stilled (T := T) ctx.config.clockFreqHz w hopen₁
    have hport : d₂.link.port = ctx.port := h₂.clocked.port.trans h₁.clocked.port
    rw [if_pos rfl, Method.bind_of_eq _ (onFtdi_of_eq (show _ = some (ok₂, d₂) from e₂))]
    cases ok₂ with
    | false =>
      exact ⟨d₂.lastError, d₂.close, rfl, hport, fun h => absurd h (h₂.lastError rfl), fun _ => rfl⟩
    | true => exact ⟨"", d₂, rfl, hport, fun _ => h₂.wanted rfl, fun h => absurd rfl h⟩

end HardwareContext

end OwlTap.Hardware
