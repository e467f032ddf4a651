import OwlTap.Jtag.RestingChain

/-!
# What is in force at a capture

The record of the TCK cycles says which states the TAP passed. Replayed on the hardware as it
was, it says what the devices were at each CAPTURE-DR (`capturesSince`). A scan of data makes
one, of the devices as they were at rest; nothing else that the host does at rest makes any.
-/

namespace OwlTap

/-- What the cycle says about the pins that the host drives. -/
def Cycle.pins (c : Cycle) : Pins := ⟨c.tms, c.tdi⟩

namespace Port

variable {σ : Type} (T : Target σ)

theorem map_pins_cycles (p : Port σ) (cs : List Pins) : (p.cycles T cs).map Cycle.pins = cs := by
  induction cs generalizing p with
  | nil => rfl
  | cons c cs ih => rw [cycles_cons, List.map_cons, ih]; rfl

/-- The hardware at each CAPTURE-DR of a run. -/
def captures : Port σ → List Pins → List σ
  | _, [] => []
  | p, c :: cs => if p.state = .captureDr then p.target :: captures (p.clock T c) cs else captures (p.clock T c) cs

theorem captures_append (p : Port σ) (a b : List Pins) :
    p.captures T (a ++ b) = p.captures T a ++ (p.run T a).captures T b := by
  induction a generalizing p with
  | nil => rfl
  | cons c a ih =>
    rw [List.cons_append, captures, captures, run_cons, ih]
    split
    · rfl
    · rfl

/-- Where the TAP does not pass CAPTURE-DR, nothing is captured. -/
theorem captures_eq_nil (p : Port σ) {cs : List Pins} (h : .captureDr ∉ p.state.visits (cs.map Pins.tms)) :
    p.captures T cs = [] := by
  induction cs generalizing p with
  | nil => rfl
  | cons c cs ih =>
    rw [List.map_cons, TapState.visits, List.mem_cons, not_or] at h
    rw [captures, if_neg (fun he => h.1 he.symm)]
    exact ih (p.clock T c) h.2

end Port

namespace Ftdi.FtdiDevice

variable {σ : Type} {T : Target σ} {d₁ d₂ d₃ : FtdiDevice σ}

/-- The hardware at each CAPTURE-DR from one moment to another: the cycles recorded between them, replayed. -/
def capturesSince (T : Target σ) (d₁ d₂ : FtdiDevice σ) : List σ :=
  d₁.link.port.captures T ((d₂.link.trace.drop d₁.link.trace.length).map Cycle.pins)

theorem Clocked.capturesSince {cs : List Pins} (h : Clocked T d₁ d₂ cs) :
    FtdiDevice.capturesSince T d₁ d₂ = d₁.link.port.captures T cs := by
  rw [FtdiDevice.capturesSince, h.trace, List.drop_left, Port.map_pins_cycles]

end Ftdi.FtdiDevice

namespace Jtag

open Ftdi

variable {δ : Type} (L : TestLogic δ)

/-! ### Scans of a chain -/

theorem captureDr_notMem_scanPins (reg : Register) (buf : List Byte) {n : ℕ} (hn : 1 ≤ n) :
    .captureDr ∉ reg.shift.visits ((scanPins buf n).map Pins.tms) := by
  rw [TapController.visits_scanPins reg.isShift_shift buf hn, List.mem_replicate]
  intro h
  have := h.2
  cases reg <;> cases this

/-- From EXIT1 the way to RUN-TEST/IDLE passes no CAPTURE-DR. -/
theorem captures_exit1 (ch : List (Device δ)) (reg : Register) :
    (⟨reg.exit1, ch⟩ : Port _).captures (Target.chain L) (pathPins reg.exit1 .runTestIdle) = [] := by
  refine Port.captures_eq_nil _ _ ?_
  rw [map_tms_pathPins, tmsPath_exit1]
  show .captureDr ∉ reg.exit1.visits [true, false]
  cases reg <;> decide

/-- The way from RUN-TEST/IDLE to SHIFT-DR captures once, and that to SHIFT-IR does not. -/
theorem captures_shiftStart (ch : List (Device δ)) (reg : Register) :
    (⟨.runTestIdle, ch⟩ : Port _).captures (Target.chain L) (pathPins .runTestIdle reg.shift) =
      if reg = .dr then [ch] else [] := by
  cases reg with
  | dr =>
    have : pathPins .runTestIdle Register.dr.shift = [⟨true, false⟩, ⟨false, false⟩, ⟨false, false⟩] := by
      decide +kernel
    rw [this]
    rfl
  | ir =>
    refine Port.captures_eq_nil _ _ ?_
    rw [map_tms_pathPins]
    show .captureDr ∉ TapState.runTestIdle.visits (tmsPath .runTestIdle .shiftIr)
    decide +kernel

/-- A scan from rest makes one capture, if it is one of data. -/
theorem captures_scanTrack (ch : List (Device δ)) (reg : Register) (buf : List Byte) {n : ℕ} (hn : 1 ≤ n) :
    (⟨.runTestIdle, ch⟩ : Port _).captures (Target.chain L) (TapController.scanTrack .runTestIdle reg buf n) =
      if reg = .dr then [ch] else [] := by
  have hstart : ((⟨.runTestIdle, ch⟩ : Port _).run (Target.chain L) (pathPins .runTestIdle reg.shift)).state = reg.shift :=
    state_shiftStart L ⟨.runTestIdle, ch⟩ reg
  set p := (⟨.runTestIdle, ch⟩ : Port _).run (Target.chain L) (pathPins .runTestIdle reg.shift) with hp
  have hshift : p.captures (Target.chain L) (scanPins buf n) = [] := by
    refine Port.captures_eq_nil _ _ ?_
    rw [hstart]
    exact captureDr_notMem_scanPins reg buf hn
  have hend : (p.run (Target.chain L) (scanPins buf n)).state = reg.exit1 := by
    rw [Port.state_run, hstart, TapController.run_scanPins]
  have hback : (p.run (Target.chain L) (scanPins buf n)).captures (Target.chain L) (pathPins reg.exit1 .runTestIdle) = [] := by
    rw [show p.run (Target.chain L) (scanPins buf n) = ⟨reg.exit1, (p.run (Target.chain L) (scanPins buf n)).target⟩ from
      congrArg (Port.mk · _) hend]
    exact captures_exit1 L _ reg
  rw [TapController.scanTrack, Port.captures_append, Port.captures_append, captures_shiftStart, ← hp, hshift, hback,
    List.append_nil, List.append_nil]

namespace TapController

/-- From one moment to another the hardware was clocked, and the devices were in these states when they captured
data. -/
def Captures (c c' : TapController (List (Device δ))) (log : List (List δ)) : Prop :=
  ∃ cs, FtdiDevice.Clocked (Target.chain L) c.device c'.device cs ∧
    (c.device.link.port.captures (Target.chain L) cs).map (List.map Device.core) = log

variable {L} {c c' c'' : TapController (List (Device δ))} {log log' : List (List δ)}

theorem Captures.refl : Captures L c c [] := ⟨[], .refl _, rfl⟩

theorem Captures.trans (h : Captures L c c' log) (h' : Captures L c' c'' log') : Captures L c c'' (log ++ log') := by
  obtain ⟨cs, hc, rfl⟩ := h
  obtain ⟨cs', hc', rfl⟩ := h'
  exact ⟨cs ++ cs', hc.trans hc', by rw [Port.captures_append, List.map_append, hc.port]⟩

/-- The states are those that the record shows. -/
theorem Captures.eq (h : Captures L c c' log) :
    (FtdiDevice.capturesSince (Target.chain L) c.device c'.device).map (List.map Device.core) = log := by
  obtain ⟨cs, hc, rfl⟩ := h
  rw [hc.capturesSince]

namespace AtRest

/-- A scan of any number of bits: every device captures, and is updated with some bits. -/
theorem scan_any (L : TestLogic δ) (h : c.AtRest) (reg : Register) {buf : List Byte} {n : ℕ} (hn : 1 ≤ n)
    (hb : bytesFor n ≤ buf.length) (read : Bool) :
    ∃ c' tdo ys, TapController.scan (Target.chain L) reg (some buf) [] n read c = some ((true, tdo), c') ∧ c'.AtRest ∧
      ys.length = c.cores.length ∧ c'.cores = List.zipWith (L.update reg) c.cores ys ∧
      Captures L c c' (if reg = .dr then [c.cores] else []) := by
  obtain ⟨d, e, hs, hc, hd⟩ := scan_delivered (T := Target.chain L) reg hn hb read h.synced h.delivers
  obtain ⟨-, hrun⟩ := run_scanTrack L c.device.link.port reg buf hn
  set ys := (Series.shifts ((shiftStart L c.device.link.port reg).target.map Device.reg) (bits buf n)).1 with hys
  have hport : d.link.port = ⟨.runTestIdle, (Device.withRegs (shiftStart L c.device.link.port reg).target ys).map
      (Device.update L reg)⟩ := by
    rw [hc.port, ← h.synced.state, hrun]
  have hlen : ys.length = c.cores.length := by
    rw [hys, Series.length_shifts, List.length_map, ← List.length_map Device.core, h.start_cores]
  refine ⟨⟨d, .runTestIdle, c.lastError⟩, _, ys, e, ⟨hs, rfl, hd⟩, hlen, ?_, _, hc, ?_⟩
  · show d.link.port.target.map Device.core = _
    rw [hport, Device.map_core_update, h.start_cores]
  · rw [h.idle, h.port, captures_scanTrack _ _ _ _ hn]
    cases reg <;> rfl

end AtRest

end TapController

/-! ### The host's operations on a chain at rest -/

theorem irWidths_zipWith_update (r : Register) {cores : List δ} {ys : List (List Bool)} (h : ys.length = cores.length) :
    (List.zipWith (L.update r) cores ys).map L.irWidth = cores.map L.irWidth := by
  apply List.ext_getElem
  · simp [h]
  · intro i h₁ h₂
    simp only [List.getElem_map, List.getElem_zipWith]
    exact L.irWidth_update r _ _

namespace JtagChain

/-- The chain is at rest, and the host knows its devices. -/
structure Rested (devices : List ChainDevice) (c : JtagChain (List (Device δ))) : Prop where
  /-- The chain is at rest. -/
  rest : c.tap.AtRest
  /-- The host knows the lengths of the instruction registers. -/
  widths : c.KnowsWidths L
  /-- The devices that the host knows. -/
  devices : c.devices = devices

/-- A scan has been made, or has failed for want of bits. -/
inductive Scanned (reg : Register) (c c' : TapController (List (Device δ))) : Bool → Prop where
  /-- Every device has been updated with some bits. -/
  | made (ys : List (List Bool)) : ys.length = c.cores.length → c'.cores = List.zipWith (L.update reg) c.cores ys →
      TapController.Captures L c c' (if reg = .dr then [c.cores] else []) → Scanned reg c c' true
  /-- Nothing has been done. -/
  | refused : c' = c → Scanned reg c c' false

variable {L} {devices : List ChainDevice} {c : JtagChain (List (Device δ))}

/-- With another state of the TAP. -/
theorem Rested.of_cores (h : Rested L devices c) {tap : TapController (List (Device δ))} (hr : tap.AtRest)
    (hw : tap.cores.map L.irWidth = c.tap.cores.map L.irWidth) : Rested L devices { c with tap } :=
  ⟨hr, ⟨h.widths.widths.trans hw.symm, h.widths.range⟩, h.devices⟩

/-- The error text does not matter. -/
theorem Rested.fail (h : Rested L devices c) (lastError : String) : Rested L devices { c with lastError } :=
  ⟨h.rest, ⟨h.widths.widths, h.widths.range⟩, h.devices⟩

/-- A scan of any number of bits. -/
theorem Rested.scan (h : Rested L devices c) (reg : Register) {buf : List Byte} {n : ℕ} (hb : bytesFor n ≤ buf.length)
    (read : Bool) :
    ∃ ok tdo tap, TapController.scan (Target.chain L) reg (some buf) [] n read c.tap = some ((ok, tdo), tap) ∧
      Rested L devices { c with tap } ∧ Scanned L reg c.tap tap ok := by
  by_cases h0 : n = 0
  · refine ⟨false, [], c.tap, ?_, h, .refused rfl⟩
    rw [TapController.scan, if_pos h0]
    rfl
  · obtain ⟨tap, tdo, ys, e, hr, hlen, hcores, hlog⟩ := h.rest.scan_any L reg (Nat.pos_of_ne_zero h0) hb read
    refine ⟨true, tdo, tap, e, h.of_cores hr ?_, .made ys hlen hcores hlog⟩
    rw [hcores, irWidths_zipWith_update L reg hlen]

/-- Idle cycles. -/
theorem Rested.clkIdle (h : Rested L devices c) (cycles : ℕ) :
    ∃ tap, onTap (TapController.clkIdle (Target.chain L) cycles) c = some (true, { c with tap }) ∧
      Rested L devices { c with tap } ∧ tap.cores = c.tap.cores ∧ TapController.Captures L c.tap tap [] := by
  obtain ⟨d, m, e, hs, hc, ho⟩ := TapController.clkIdle_spec (T := Target.chain L) cycles h.rest.synced h.rest.delivers.noCut
  rw [h.rest.idle, pathPins_self, List.nil_append] at hc
  have hcores : (⟨d, .runTestIdle, c.tap.lastError⟩ : TapController (List (Device δ))).cores = c.tap.cores := by
    rw [TapController.cores, hc.port, h.rest.port, run_idle]
    rfl
  refine ⟨_, onTap_of_eq e, h.of_cores ⟨hs, rfl, fun o hm => h.rest.delivers o (List.mem_of_mem_drop (ho ▸ hm))⟩
    (congrArg _ hcores), hcores, _, hc, ?_⟩
  rw [Port.captures_eq_nil, List.map_nil]
  rw [h.rest.port, List.map_replicate]
  show .captureDr ∉ TapState.runTestIdle.visits (List.replicate cycles false)
  rw [TapState.Stays.visits_replicate (by decide), List.mem_replicate]
  exact fun hm => by cases hm.2

/-- An instruction is selected, unless there is no such device. -/
theorem Rested.selectInstruction (h : Rested L devices c) (i : ℤ) (op : BitVec 32) :
    (∃ lastError, JtagChain.selectInstruction (Target.chain L) i op c = some (false, { c with lastError })) ∨
    ∃ (k : ℕ) (tap : _), i = k ∧ k < devices.length ∧
      JtagChain.selectInstruction (Target.chain L) i op c = some (true, { c with tap }) ∧ Rested L devices { c with tap } ∧
      tap.cores = List.zipWith (L.update .ir) c.tap.cores (placed k op devices) ∧
      TapController.Captures L c.tap tap [] := by
  obtain rfl := h.devices
  by_cases hi : 0 ≤ i ∧ i.toNat < c.devices.length
  · obtain ⟨k, rfl⟩ : ∃ k : ℕ, i = k := ⟨i.toNat, (Int.toNat_of_nonneg hi.1).symm⟩
    have hk : k < c.devices.length := by simpa using hi.2
    have h32 : ∀ dev ∈ c.devices, dev.irLength ≤ 32 := fun dev hm => (h.widths.range dev hm).2
    obtain ⟨tap, e, hr, hcores⟩ := selectInstruction_rest L h.rest h.widths hk op
    obtain ⟨ok, tdo, tap', e', -, hlog⟩ := h.scan .ir (bytesFor_le_irData k op c.devices) false
    rw [selectInstruction_eq _ h32 hk] at e
    have htap : onTap (TapController.shiftIR (Target.chain L) _ (totalIRLength c.devices)) c = some (ok, { c with tap := tap' }) :=
      onTap_of_eq (by rw [TapController.shiftIR, Method.bind_of_eq _ e']; rfl)
    obtain ⟨hok, hc⟩ := Prod.mk.inj (Option.some.inj (htap.symm.trans e))
    obtain rfl : tap' = tap := congrArg JtagChain.tap hc
    subst hok
    have hplaced : (placed k op c.devices).length = c.tap.cores.length := by
      rw [placed, List.length_mapIdx, h.widths.length]
    refine .inr ⟨k, tap', rfl, hk, ?_, h.of_cores hr (by rw [hcores, irWidths_zipWith_update L .ir hplaced]), hcores, ?_⟩
    · rw [selectInstruction_eq _ h32 hk, htap]
    · cases hlog with
      | made ys _ _ hlog => exact hlog
  · refine .inl ⟨"Invalid device index", ?_⟩
    have hat : c.deviceAt i = none := by
      rw [deviceAt]
      by_cases h0 : 0 ≤ i
      · rw [if_pos h0, List.getElem?_eq_none]
        exact Nat.le_of_not_lt fun hlt => hi ⟨h0, hlt⟩
      · rw [if_neg h0]
    rw [JtagChain.selectInstruction, hat]
    rfl

/-- What a read or write of a data register leaves, whether or not it was refused. -/
def Accessed (devices : List ChainDevice) (c c' : JtagChain (List (Device δ))) (ok : Bool) : Prop :=
  Rested L devices c' ∧ Scanned L .dr c.tap c'.tap ok

theorem Rested.accessed_of_fail (h : Rested L devices c) {α : Type} {msg : JtagChain (List (Device δ)) → String} {x : α}
    {r : α} {c' : JtagChain (List (Device δ))} (e : JtagChain.fail msg x c = some (r, c')) :
    r = x ∧ Accessed (L := L) devices c c' false := by
  obtain ⟨rfl, rfl⟩ := Prod.mk.inj (Option.some.inj e)
  exact ⟨rfl, h.fail _, .refused rfl⟩

/-- Reading the boundary register. -/
theorem Rested.readBSR (h : Rested L devices c) {i : ℤ} {data : List Byte} {part : ℕ} {ok : Bool} {raw : List Byte}
    {c' : JtagChain (List (Device δ))} (e : JtagChain.readBSR (Target.chain L) i data part c = some ((ok, raw), c')) :
    Accessed (L := L) devices c c' ok := by
  rw [JtagChain.readBSR] at e
  split at e
  · obtain ⟨hr, hacc⟩ := h.accessed_of_fail e
    rwa [show ok = false from congrArg Prod.fst hr]
  split at e
  · obtain ⟨hr, hacc⟩ := h.accessed_of_fail e
    rwa [show ok = false from congrArg Prod.fst hr]
  rename_i bsdl _
  simp only at e
  set readLen := if 0 < part ∧ part < bsdl.boundaryLength then part else bsdl.boundaryLength with hlen
  obtain ⟨done, tdo, tap, hscan, hrest, hsc⟩ := h.scan .dr
    (show bytesFor (readLen + c.bypassBits) ≤ (List.replicate ((readLen + c.bypassBits + 7) / 8) (0 : Byte)).length by
      rw [List.length_replicate, bytesFor]) true
  have hcall : onTap (TapController.readDR (Target.chain L) [] (readLen + c.bypassBits)) c = some ((done, tdo), { c with tap }) :=
    onTap_of_eq hscan
  rw [Method.bind_of_eq _ hcall] at e
  cases done with
  | true =>
    obtain ⟨hr, rfl⟩ := Prod.mk.inj (Option.some.inj e)
    rw [← show true = ok from congrArg Prod.fst hr]
    exact ⟨hrest, hsc⟩
  | false =>
    obtain ⟨hr, rfl⟩ := Prod.mk.inj (Option.some.inj e)
    rw [← show false = ok from congrArg Prod.fst hr]
    exact ⟨hrest.fail _, hsc⟩

/-- Writing it. -/
theorem Rested.writeBSR (h : Rested L devices c) {i : ℤ} {data : List Byte} {len : ℕ} {ok : Bool}
    {c' : JtagChain (List (Device δ))} (e : JtagChain.writeBSR (Target.chain L) i data len c = some (ok, c')) :
    Accessed (L := L) devices c c' ok := by
  rw [JtagChain.writeBSR] at e
  split at e
  · obtain ⟨hr, hacc⟩ := h.accessed_of_fail e
    rwa [hr]
  split at e
  · cases e
  simp only at e
  obtain ⟨done, tdo, tap, hscan, hrest, hsc⟩ := h.scan .dr
    (show bytesFor (len + c.bypassBits) ≤
        (orBits (bitAt data) i.toNat len (List.replicate ((len + c.bypassBits + 7) / 8) 0)).length by
      rw [length_orBits, List.length_replicate, bytesFor]) false
  have hcall : onTap (TapController.shiftDROut (Target.chain L) (some (orBits (bitAt data) i.toNat len
      (List.replicate ((len + c.bypassBits + 7) / 8) 0))) (len + c.bypassBits)) c = some (done, { c with tap }) :=
    onTap_of_eq (by rw [TapController.shiftDROut, Method.bind_of_eq _ hscan]; rfl)
  obtain ⟨rfl, rfl⟩ := Prod.mk.inj (Option.some.inj (hcall.symm.trans e))
  exact ⟨hrest, hsc⟩

end JtagChain

end Jtag

end OwlTap
