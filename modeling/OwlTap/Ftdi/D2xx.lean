import Mathlib.Data.List.Infix
import OwlTap.Ftdi.FtdiDevice

/-!
# Opening and closing the device

`FtdiDevice.open` finds a chip in the driver's list, `initMpsse` brings it into MPSSE mode
and sets its pins, `close` takes it out of that mode. What the D2XX driver answers is the
environment's choice (`D2xx`). An initialised chip waits for a command with TMS high, and
nothing of all this clocks TCK: the hardware stays in whatever state it is in.
-/

namespace OwlTap.Ftdi

open OwlTap

namespace MpsseCmd

/-- Bad command (for sync detection). -/
def badCommand : Byte := 0xAB

end MpsseCmd

namespace JtagPins

/-- ADBUS0. -/
def tck : Byte := 0x01
/-- ADBUS1. -/
def tdi : Byte := 0x02
/-- ADBUS3. -/
def tms : Byte := 0x08
/-- ADBUS7: output-enable for Digilent board JTAG buffers. -/
def digilentOe : Byte := 0x80
/-- Output pins mask. -/
def outputMask : Byte := tck ||| tdi ||| tms ||| digilentOe
/-- Initial pin values: TMS=1 (idle), buffers enabled. -/
def initValue : Byte := tms ||| digilentOe

end JtagPins

/-! ### The driver -/

/-- A device in the driver's list. -/
structure DeviceNode where
  /-- Vendor and product. -/
  id : BitVec 32
  /-- The serial number. -/
  serialNumber : String
  /-- The description. -/
  description : String
  deriving DecidableEq

/-- What the driver answers to the calls of one `open` and one `initMpsse`; a status is 0 when
the call succeeds. -/
structure D2xx where
  /-- The library can be loaded. -/
  loads : Bool
  /-- The devices counted. -/
  nodes : List DeviceNode
  /-- The status of their enumeration. -/
  listStatus : ℕ := 0
  /-- The status of `FT_OpenEx`. -/
  openStatus : ℕ := 0
  /-- The status of `FT_SetLatencyTimer`. -/
  latencyStatus : ℕ := 0
  /-- The statuses of the two `FT_Purge`. -/
  purgeStatus : ℕ × ℕ := (0, 0)
  /-- The statuses of the two `FT_SetBitMode`. -/
  modeStatus : ℕ × ℕ := (0, 0)

/-- The end of the description of a chip's channel. -/
def ifaceSuffix (iface : ℤ) : String :=
  if iface = 1 then " B" else if iface = 2 then " C" else if iface = 3 then " D" else " A"

/-- A status in words. -/
def statusStr (st : ℕ) : String :=
  match st with
  | 0 => "FT_OK"
  | 1 => "FT_INVALID_HANDLE"
  | 2 => "FT_DEVICE_NOT_FOUND"
  | 3 => "FT_DEVICE_NOT_OPENED"
  | 4 => "FT_IO_ERROR"
  | 5 => "FT_INSUFFICIENT_RESOURCES"
  | 6 => "FT_INVALID_PARAMETER"
  | 10 => "FT_FAILED_TO_WRITE_DEVICE"
  | _ => s!"FT_STATUS({st})"

/-- Four hexadecimal digits. -/
def hexWord (w : BitVec 16) : String :=
  String.ofList ([12, 8, 4, 0].map fun i => (Nat.digitChar (w.toNat / 2 ^ i % 16)).toUpper)

/-- Whether a device of the list is the one to open. -/
def DeviceNode.Matches (node : DeviceNode) (vendorId productId : BitVec 16) (serial : String) (iface : ℤ) : Prop :=
  let desc := node.description.toList
  node.id = vendorId ++ productId ∧ (serial = "" ∨ serial.toList <:+: node.serialNumber.toList) ∧
    ((ifaceSuffix iface).toList <:+ desc ∨
      (¬" A".toList <:+: desc ∧ ¬" B".toList <:+: desc) ∧ iface = 0)

instance (node : DeviceNode) (vendorId productId : BitVec 16) (serial : String) (iface : ℤ) :
    Decidable (node.Matches vendorId productId serial iface) := by
  unfold DeviceNode.Matches; infer_instance

namespace FtdiDevice

variable {σ : Type} (T : Target σ)

/-- `last_error_ = msg; return false;` -/
def fail (msg : String) : Method (FtdiDevice σ) Bool := fun d => some (false, { d with lastError := msg })

/-- Close the device connection. -/
def close (d : FtdiDevice σ) : FtdiDevice σ := { d with isOpen := false }

/-- Open device by vendor/product ID and optional serial number. -/
def «open» (vendorId productId : BitVec 16) (serial : String) (iface : ℤ) (w : D2xx) :
    Method (FtdiDevice σ) Bool := do
  modify close
  if !w.loads then
    fail "FTD2XX.DLL not found. Install FTDI drivers from https://ftdichip.com/drivers/d2xx-drivers/"
  else if w.nodes = [] then fail "No FTDI devices found"
  else if w.listStatus ≠ 0 then fail "Failed to enumerate FTDI devices"
  else
    match w.nodes.find? fun node => node.Matches vendorId productId serial iface with
    | none =>
      fail s!"Device not found (VID=0x{hexWord vendorId} PID=0x{hexWord productId} channel{ifaceSuffix iface})"
    | some node =>
      if w.openStatus ≠ 0 then
        fail s!"FT_OpenEx(\"{node.description}\") failed: {statusStr w.openStatus}"
      else
        modify fun d => { d with isOpen := true }
        pure true

/-- Empty the queues. -/
def purgeBuffers (status : ℕ) : Method (FtdiDevice σ) Bool := fun d =>
  if status ≠ 0 then fail ("FT_Purge failed: " ++ statusStr status) d
  else some (true, { d with link := { d.link with rx := [] } })

/-- `FT_SetBitMode(h, 0, FT_BITMODE_MPSSE)`: the engine starts between commands. -/
def enterMpsse (d : FtdiDevice σ) : FtdiDevice σ :=
  { d with link := { d.link with chip := { d.link.chip with phase := .ready } } }

/-- Send an invalid MPSSE opcode; the engine echoes back 0xFA and the opcode. -/
def syncMpsse : Method (FtdiDevice σ) Bool := fun d =>
  let l := d.link.receive T [MpsseCmd.badCommand]
  match d.outcomes.headD .whole with
  | .cut chunk written _ =>
    fail "MPSSE sync: write failed"
      { d with
        link := d.link.receive T ([MpsseCmd.badCommand].take (65536 * chunk + written))
        outcomes := d.outcomes.tail }
  | .whole => response l l.rx.length 0 d
  | .short got late => response l got late d
where
  /-- The read loop, of which up to `got` bytes of the queue arrive before the retries are used up. -/
  response (l : Link σ) (got late : ℕ) (d : FtdiDevice σ) : Option (Bool × FtdiDevice σ) :=
    let totalRead := min (min got l.rx.length) 2
    if totalRead < 2 ∨ l.rx.headD 0 ≠ 0xFA then
      fail "MPSSE sync failed (no 0xFA response)"
        { d with link := { l with rx := (l.rx.drop totalRead).take late }, outcomes := d.outcomes.tail }
    else some (true, { d with link := { l with rx := l.rx.drop totalRead }, outcomes := d.outcomes.tail })

/-- The divisor for a TCK frequency: TCK = 60MHz / ((1 + divisor) * 2). -/
def clockDivisor (clockFreqHz : ℕ) : BitVec 16 :=
  if 0 < clockFreqHz ∧ clockFreqHz < 30000000 then BitVec.ofNat 16 (min 0xFFFF (30000000 / clockFreqHz - 1)) else 0

/-- The commands that configure the engine for JTAG. -/
def initCommands (clockFreqHz : ℕ) : MpsseCommandBuffer :=
  ({} : MpsseCommandBuffer).disableClockDivide5.disable3PhaseClocking.disableLoopback
    |>.setClockDivisor (clockDivisor clockFreqHz) |>.setLowBits JtagPins.initValue JtagPins.outputMask

/-- Initialize MPSSE mode for JTAG operations. -/
def initMpsse (clockFreqHz : ℕ) (w : D2xx) : Method (FtdiDevice σ) Bool := fun d =>
  if !d.isOpen then fail "Device not open" d
  else if w.latencyStatus ≠ 0 then fail "FT_SetLatencyTimer failed" d
  else
    Method.andThen (purgeBuffers w.purgeStatus.1) (fun d =>
      if w.modeStatus.1 ≠ 0 then fail "FT_SetBitMode(RESET) failed" d
      else if w.modeStatus.2 ≠ 0 then fail "FT_SetBitMode(MPSSE) failed" d
      else
        Method.andThen (purgeBuffers w.purgeStatus.2)
          (Method.andThen (syncMpsse T) (write T (initCommands clockFreqHz))) d.enterMpsse) d

/-! ### What an initialised device is like -/

/-- The commands of `initMpsse` clock nothing, and leave TMS high. -/
theorem runs_initCommands (t : Bool) (clockFreqHz : ℕ) : Runs t (initCommands clockFreqHz).buffer true [] :=
  fun _ => ⟨false, rfl⟩

/-- The bad command is echoed. -/
theorem runs_badCommand (t : Bool) : Runs t [MpsseCmd.badCommand] t [.reply 0xFA, .reply 0xAB] :=
  fun d => ⟨d, rfl⟩

variable {T}

/-- The first bytes of commands that clock nothing clock nothing. -/
theorem receive_take_of_runs {l : Link σ} {t t' : Bool} {bs : List Byte} {ms : List Micro}
    (hp : l.chip.phase = .ready) (ht : l.chip.tms = t) (hr : Runs t bs t' ms) (hms : pinsOf ms = []) (k : ℕ) :
    (l.receive T (bs.take k)).port = l.port ∧ (l.receive T (bs.take k)).trace = l.trace := by
  have hc : l.chip = ⟨.ready, t, l.chip.tdi⟩ := by rw [← hp, ← ht]
  obtain ⟨d', e⟩ := hr l.chip.tdi
  rw [← hc, ← List.take_append_drop k bs, Mpsse.feed_append] at e
  have hpins : pinsOf (l.chip.feed (bs.take k)).2 = [] := by
    have := congrArg (fun p => pinsOf p.2) e
    rw [pinsOf_append, hms] at this
    exact (List.append_eq_nil_iff.mp this).1
  rw [Link.receive, Link.micros_eq, hpins]
  exact ⟨rfl, List.append_nil _⟩

/-- A transfer that is cut fails, and says so. -/
theorem transfer_cut {d : FtdiDevice σ} {cmd : MpsseCommandBuffer} {chunk written status : ℕ}
    (hopen : d.isOpen = true) (hne : cmd.buffer ≠ []) (ho : d.outcomes.headD .whole = .cut chunk written status) :
    ∃ e, e ≠ "" ∧ transfer T cmd d = some ((false, []),
      { d with
        lastError := e
        link := d.link.receive T (cmd.buffer.take (65536 * chunk + written))
        outcomes := d.outcomes.tail }) := by
  refine ⟨s!"FT_Write failed: wrote {written} of {min 65536 (cmd.buffer.length - 65536 * chunk)} bytes (status {status})",
    fun h => ?_, ?_⟩
  · have := congrArg String.toList h
    simp at this
  · rw [transfer, if_neg (by simp [hopen]), if_neg (by simpa using hne), ho]

/-- What a step of `initMpsse` does: the hardware is left alone; when the step succeeds the result
is as wanted, and when it fails it says so. -/
structure Stilled (T : Target σ) (d : FtdiDevice σ) (wanted : FtdiDevice σ → Prop) (ok : Bool)
    (d' : FtdiDevice σ) : Prop where
  /-- Nothing is clocked. -/
  clocked : Clocked T d d' []
  /-- After success. -/
  wanted : ok = true → wanted d'
  /-- After failure. -/
  lastError : ok = false → d'.lastError ≠ ""

theorem Stilled.fail {d d' : FtdiDevice σ} {wanted : FtdiDevice σ → Prop} {msg : String} (h : msg ≠ "")
    (hc : Clocked T d d' []) : Stilled T d wanted false { d' with lastError := msg } :=
  ⟨⟨hc.port, hc.trace⟩, nofun, fun _ => h⟩

/-- A step, and then another. -/
theorem Stilled.andThen {d : FtdiDevice σ} {m k : Method (FtdiDevice σ) Bool} {P Q : FtdiDevice σ → Prop}
    (hm : ∃ ok d', m d = some (ok, d') ∧ Stilled T d P ok d')
    (hk : ∀ d', P d' → ∃ ok d'', k d' = some (ok, d'') ∧ Stilled T d' Q ok d'') :
    ∃ ok d', Method.andThen m k d = some (ok, d') ∧ Stilled T d Q ok d' := by
  obtain ⟨ok, d₁, e₁, h₁⟩ := hm
  cases ok with
  | false => exact ⟨false, d₁, Method.andThen_of_false _ e₁, h₁.clocked, nofun, h₁.lastError⟩
  | true =>
    obtain ⟨ok, d₂, e₂, h₂⟩ := hk d₁ (h₁.wanted rfl)
    exact ⟨ok, d₂, (Method.andThen_of_true _ e₁).trans e₂, h₁.clocked.trans h₂.clocked, h₂.wanted, h₂.lastError⟩

theorem Stilled.of_enterMpsse {d d' : FtdiDevice σ} {wanted : FtdiDevice σ → Prop} {ok : Bool}
    (h : Stilled T d.enterMpsse wanted ok d') : Stilled T d wanted ok d' :=
  ⟨⟨h.clocked.port, h.clocked.trace⟩, h.wanted, h.lastError⟩

/-- Commands that clock nothing and are not answered: when they are written whole, the chip waits
again; in any case the hardware is left alone. -/
theorem write_stilled {d : FtdiDevice σ} {t t' : Bool} {cmd : MpsseCommandBuffer} (hw : d.Waits t)
    (hr : Runs t cmd.buffer t' []) (hne : cmd.buffer ≠ []) (hx : cmd.expectedReadBytes = 0) :
    ∃ ok d', write T cmd d = some (ok, d') ∧ Stilled T d (Waits · t') ok d' := by
  by_cases ha : (d.outcomes.headD .whole).Answers 0
  · obtain ⟨d', e, hw', hc, -⟩ := transfer_answered (T := T) hw hne hr hx.symm (by rwa [hx])
    exact ⟨true, d', by rw [write, Method.bind_of_eq _ e]; rfl, hc, fun _ => hw', nofun⟩
  · cases ho : d.outcomes.headD .whole with
    | whole => rw [ho] at ha; exact absurd trivial ha
    | short got late => rw [ho] at ha; exact absurd (Nat.zero_le got) ha
    | cut chunk written status =>
      have hport := receive_take_of_runs (T := T) hw.phase hw.tms hr rfl (65536 * chunk + written)
      obtain ⟨e, hne', he⟩ := transfer_cut (T := T) hw.isOpen hne ho
      exact ⟨false, _, by rw [write, Method.bind_of_eq _ he]; rfl,
        ⟨hport.1, hport.2.trans (List.append_nil _).symm⟩, nofun, fun _ => hne'⟩

theorem purgeBuffers_stilled (status : ℕ) (d : FtdiDevice σ) :
    ∃ ok d', purgeBuffers status d = some (ok, d') ∧
      Stilled T d (fun d' => d' = { d with link := { d.link with rx := [] } }) ok d' := by
  by_cases h : status = 0
  · subst h
    exact ⟨true, _, rfl, ⟨rfl, (List.append_nil _).symm⟩, fun _ => rfl, nofun⟩
  · refine ⟨false, _, by rw [purgeBuffers, if_pos h]; rfl, .fail (fun he => ?_) (.refl d)⟩
    have := congrArg String.toList he
    simp at this

/-- After `syncMpsse` the chip waits as before, its echo read. -/
theorem syncMpsse_stilled {d : FtdiDevice σ} {t : Bool} (hw : d.Waits t) :
    ∃ ok d', syncMpsse T d = some (ok, d') ∧ Stilled T d (Waits · t) ok d' := by
  obtain ⟨hp, ht, hrx, hport, htrace⟩ := Link.receive_of_runs (T := T) hw.phase hw.tms (runs_badCommand t)
  have hcl : ∀ rx outcomes, Clocked T d
      { d with link := { d.link.receive T [MpsseCmd.badCommand] with rx }, outcomes } [] := fun _ _ =>
    ⟨hport, htrace⟩
  have hresponse : ∀ got late, ∃ ok d', syncMpsse.response (d.link.receive T [MpsseCmd.badCommand]) got late d =
      some (ok, d') ∧ Stilled T d (Waits · t) ok d' := by
    intro got late
    have hrx' : (d.link.receive T [MpsseCmd.badCommand]).rx = [0xFA, 0xAB] := by rw [hrx, hw.rx]; rfl
    by_cases hg : got < 2
    · refine ⟨false, _, ?_, .fail (show "MPSSE sync failed (no 0xFA response)" ≠ "" by decide)
        (hcl (([0xFA, 0xAB].drop (min (min got 2) 2)).take late) d.outcomes.tail)⟩
      have hshort : min (min got ([0xFA, 0xAB] : List Byte).length) 2 < 2 ∨ ([0xFA, 0xAB] : List Byte).headD 0 ≠ 0xFA :=
        .inl (by rw [List.length_cons, List.length_cons, List.length_nil]; omega)
      rw [syncMpsse.response, hrx', if_pos hshort]
      rfl
    · refine ⟨true, _, ?_, hcl [] d.outcomes.tail, fun _ => ⟨hw.isOpen, hp, ht, rfl⟩, nofun⟩
      rw [syncMpsse.response, hrx']
      simp [show min got 2 = 2 by omega]
  rw [syncMpsse]
  cases d.outcomes.headD .whole with
  | whole => exact hresponse _ _
  | short got late => exact hresponse got late
  | cut chunk written status =>
    have hport := receive_take_of_runs (T := T) hw.phase hw.tms (runs_badCommand t) rfl (65536 * chunk + written)
    exact ⟨false, _, rfl, .fail (by decide) ⟨hport.1, hport.2.trans (List.append_nil _).symm⟩⟩

/-- **Initialisation leaves the TAP alone.** `initMpsse` clocks nothing; when it succeeds the chip waits
for a command, with TMS high. -/
theorem initMpsse_stilled (clockFreqHz : ℕ) (w : D2xx) {d : FtdiDevice σ} (hopen : d.isOpen = true) :
    ∃ ok d', initMpsse T clockFreqHz w d = some (ok, d') ∧ Stilled T d (Waits · true) ok d' := by
  rw [initMpsse, if_neg (by simp [hopen])]
  split
  case isTrue => exact ⟨false, _, rfl, .fail (by decide) (.refl d)⟩
  refine Stilled.andThen (purgeBuffers_stilled _ d) fun d₁ h₁ => ?_
  subst h₁
  split
  case isTrue => exact ⟨false, _, rfl, .fail (by decide) (.refl _)⟩
  split
  case isTrue => exact ⟨false, _, rfl, .fail (by decide) (.refl _)⟩
  refine Exists.imp (fun ok => Exists.imp fun d' h => ⟨h.1, h.2.of_enterMpsse⟩)
    (Stilled.andThen (purgeBuffers_stilled _ _) fun d₂ h₂ => ?_)
  subst h₂
  exact Stilled.andThen (syncMpsse_stilled ⟨hopen, rfl, rfl, rfl⟩) fun d₃ h₃ =>
    write_stilled h₃ (runs_initCommands _ clockFreqHz) (by simp [initCommands, MpsseCommandBuffer.setLowBits]) rfl

/-- `open` leaves the chip and the hardware alone; the device is open when it succeeds, and only then. -/
theorem open_stilled (vendorId productId : BitVec 16) (serial : String) (iface : ℤ) (w : D2xx) (d : FtdiDevice σ) :
    ∃ ok d', FtdiDevice.open vendorId productId serial iface w d = some (ok, d') ∧
      Stilled T d (fun d' => d' = { d with isOpen := true }) ok d' ∧ d'.isOpen = ok := by
  have hfail : ∀ {msg : String}, msg ≠ "" → ∃ ok d', fail msg d.close = some (ok, d') ∧
      Stilled T d (fun d' => d' = { d with isOpen := true }) ok d' ∧ d'.isOpen = ok := fun h =>
    ⟨false, _, rfl, .fail h (show Clocked T d d.close [] from ⟨rfl, (List.append_nil _).symm⟩), rfl⟩
  rw [FtdiDevice.open, Method.modify_bind]
  split
  case isTrue => exact hfail (by decide)
  split
  case isTrue => exact hfail (by decide)
  split
  case isTrue => exact hfail (by decide)
  cases w.nodes.find? fun node => node.Matches vendorId productId serial iface with
  | none =>
    refine hfail fun h => ?_
    simp only [String.append_eq_empty_iff] at h
    exact absurd h.1.1.1.1.1.1 (by decide)
  | some node =>
    simp only
    split
    case isTrue =>
      refine hfail fun h => ?_
      simp only [String.append_eq_empty_iff] at h
      exact absurd h.1.1.1 (by decide)
    exact ⟨true, _, rfl, ⟨⟨rfl, (List.append_nil _).symm⟩, fun _ => rfl, nofun⟩, rfl⟩

end FtdiDevice

end OwlTap.Ftdi
