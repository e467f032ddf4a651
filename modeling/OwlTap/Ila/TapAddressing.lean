import OwlTap.Ila.ChainIlaTapBackend
import OwlTap.Jtag.DetectDevices

/-!
# Addressing a dedicated access port after detection

`detectDevices` takes the length of an instruction register from the manufacturer in the
IDCODE: 4 for ARM, and 6 for everybody else. The register of `ila_tap` has 5 bits, and the
default IDCODE of the HDL has no manufacturer at all. So the host shifts one bit too many for
every logic analyser on the chain, and what stays in the registers are the last bits.

Then an opcode is in force in the logic analyser, and all ones in every other device, only
where the bits happen to agree (`Coincides`).
-/

namespace OwlTap.Ila

open OwlTap Ftdi Jtag

/-! ### Registers that are shorter than the host believes -/

/-- Instruction registers of the lengths `ws`: register `k` has the bits `b`, and the others ones. -/
def spread (k : ℕ) (b : ℕ → List Bool) (ws : List ℕ) : List (List Bool) :=
  ws.mapIdx fun i w => if i = k then b w else List.replicate w true

theorem flatten_mapIdx_ones {k : ℕ} (b : ℕ → List Bool) (ws : List ℕ) (off : ℕ) (h : ∀ i < ws.length, i + off ≠ k) :
    (ws.mapIdx fun i w => if i + off = k then b w else List.replicate w true).flatten = List.replicate ws.sum true := by
  induction ws generalizing off with
  | nil => rfl
  | cons w ws ih =>
    have ih := ih (off + 1) fun i hi => by
      have := h (i + 1) (by simpa using hi)
      omega
    rw [List.mapIdx_cons, if_neg (h 0 (by simp)), List.flatten_cons, List.sum_cons, List.replicate_add, ← ih]
    simp only [Nat.add_assoc, Nat.add_comm 1 off]

/-- Ones, then the bits of register `k`, then ones. -/
theorem flatten_spread (ws₁ ws₂ : List ℕ) (w : ℕ) (b : ℕ → List Bool) :
    (spread ws₁.length b (ws₁ ++ w :: ws₂)).flatten =
      List.replicate ws₁.sum true ++ b w ++ List.replicate ws₂.sum true := by
  rw [spread, List.mapIdx_append, List.mapIdx_cons, List.flatten_append, List.flatten_cons, Nat.zero_add, if_pos rfl]
  have h₁ := flatten_mapIdx_ones (k := ws₁.length) b ws₁ 0 fun i hi => by omega
  have h₂ := flatten_mapIdx_ones (k := ws₁.length) b ws₂ (1 + ws₁.length) fun i _ => by omega
  simp only [Nat.add_zero] at h₁
  simp only [Nat.add_assoc, h₁, h₂, List.append_assoc]

/-- What the host believes to be placed. -/
theorem placed_eq_spread (k : ℕ) (op : BitVec 32) (devices : List ChainDevice) :
    placed k op devices = spread k (fun w => (List.range w).map op.getLsbD) (devices.map ChainDevice.irLength) := by
  apply List.ext_getElem
  · simp [placed, spread]
  · intro i h₁ h₂
    simp [placed, spread]

theorem map_length_spread {k : ℕ} {b : ℕ → List Bool} {ws : List ℕ} (h : ∀ w, ws[k]? = some w → (b w).length = w) :
    (spread k b ws).map List.length = ws := by
  apply List.ext_getElem
  · simp [spread]
  · intro i h₁ h₂
    simp only [spread, List.getElem_map, List.getElem_mapIdx]
    split
    · next hik => exact h _ (hik ▸ List.getElem?_eq_getElem h₂)
    · exact List.length_replicate

/-- The bits of the host, on a chain with `c` registers after the one selected that are a bit shorter than it
believes, and `r` bits before: what stays is what should be there. -/
def Agrees (r c : ℕ) (op : BitVec 5) : Prop :=
  (List.replicate r true ++ toBits (op.setWidth 6 : BitVec 6) ++ List.replicate c true).drop (c + 1) =
    List.replicate r true ++ toBits op

instance (r c : ℕ) (op : BitVec 5) : Decidable (Agrees r c op) := inferInstanceAs (Decidable (_ = _))

/-- The opcode that arrives at a register nearest TDO, by how many of those behind it are a bit shorter. -/
def arriving (c : ℕ) : BitVec 5 := [0x00, 0x15, 0x1B, 0x1D, 0x1E].getD c 0x1F

theorem agrees_small : ∀ r ∈ [0, 4, 5, 6, 7, 8], ∀ c < 8, ∀ op : BitVec 5,
    (Agrees r c op ↔ r = 0 ∧ op = arriving c ∨ r = 4 ∧ c = 4 ∧ op = 0x1E) := by
  decide +kernel

theorem drop_ones (a r s : ℕ) (xs : List Bool) :
    (List.replicate (r + a) true ++ xs).drop (a + s) = (List.replicate r true ++ xs).drop s := by
  rw [Nat.add_comm r, List.replicate_add, List.append_assoc, ← List.drop_drop, List.drop_left' List.length_replicate]

/-- More than eight bits before it make no difference. -/
theorem agrees_far {c : ℕ} (hc : c < 8) (r : ℕ) (op : BitVec 5) : Agrees (8 + r) c op ↔ Agrees 8 c op := by
  have hones : ∀ xs : List Bool, List.replicate (8 + r) true ++ xs =
      List.replicate r true ++ (List.replicate 8 true ++ xs) := fun xs => by
    rw [Nat.add_comm 8, List.replicate_add, List.append_assoc]
  have hdrop : (List.replicate (8 + r) true ++ toBits (op.setWidth 6 : BitVec 6) ++ List.replicate c true).drop (c + 1) =
      List.replicate r true ++
        (List.replicate 8 true ++ toBits (op.setWidth 6 : BitVec 6) ++ List.replicate c true).drop (c + 1) := by
    rw [List.append_assoc, List.append_assoc, List.drop_append_of_le_length (by simp; omega),
      List.drop_append_of_le_length (by simp; omega), List.drop_replicate, List.drop_replicate, ← List.append_assoc,
      ← List.append_assoc, ← List.append_assoc, ← List.replicate_add, show r + (8 - (c + 1)) = 8 + r - (c + 1) by omega]
  rw [Agrees, Agrees, hdrop, hones, List.append_cancel_left_eq]

/-- The bits agree for one opcode, and only nearest TDO; or behind a register of 4 bits, by chance. -/
theorem agrees_iff {r c : ℕ} (hr : r = 0 ∨ 4 ≤ r) (hc : c < 8) (op : BitVec 5) :
    Agrees r c op ↔ r = 0 ∧ op = arriving c ∨ r = 4 ∧ c = 4 ∧ op = 0x1E := by
  by_cases h : r < 9
  · refine agrees_small r ?_ c hc op
    simp only [List.mem_cons, List.not_mem_nil, or_false]
    omega
  · obtain ⟨r', rfl⟩ : ∃ r', r = 8 + r' := ⟨r - 8, by omega⟩
    rw [agrees_far hc, agrees_small 8 (by decide) c hc op]
    omega

/-! ### The devices -/

/-- The kinds of devices on the chain. -/
inductive TapKind where
  /-- `ila_top`, with the default IDCODE of the HDL. -/
  | ilaTop
  /-- The PL TAP of a Xilinx device. -/
  | xilinxPl
  /-- The debug access port of an ARM core. -/
  | armDap
  deriving DecidableEq

/-- The default of `IDCODE_VAL`. -/
def kDefaultIdcode : BitVec 32 := 0xA17A0001

/-- What is fixed about a device on the chain. -/
def fixedOf : TapCore → BoundarySpec ⊕ IlaParams := Sum.map BoundaryDevice.spec IlaTap.params

/-- The device presents an IDCODE of a manufacturer (bits 1 to 11). -/
def PresentsIdcode (mfr : BitVec 32) (spec : BoundarySpec) : Prop :=
  ∃ id : BitVec 32, spec.identity = toBits id ∧ id.getLsbD 0 = true ∧ id >>> 1 &&& 0x7FF = mfr

namespace TapKind

/-- The length of the instruction register. -/
def irWidth : TapKind → ℕ
  | ilaTop => 5
  | xilinxPl => 6
  | armDap => 4

/-- What the host takes it for. -/
def irLength : TapKind → ℕ
  | ilaTop => 6
  | xilinxPl => 6
  | armDap => 4

/-- A device of the kind. -/
def Is : TapKind → BoundarySpec ⊕ IlaParams → Prop
  | ilaTop, .inr params => params.idcodeVal = kDefaultIdcode
  | xilinxPl, .inl spec => spec.irWidth = 6 ∧ PresentsIdcode 0x049 spec
  | armDap, .inl spec => spec.irWidth = 4 ∧ PresentsIdcode 0x23B spec
  | _, _ => False

theorem Is.irWidth_eq {kind : TapKind} {d : TapCore} (h : kind.Is (fixedOf d)) : tapLogic.irWidth d = kind.irWidth := by
  cases kind <;> cases d
  · exact h.elim
  · rfl
  · exact h.1
  · exact h.elim
  · exact h.1
  · exact h.elim

/-- An IDCODE with a manufacturer is not all ones. -/
theorem ne_ones {id : BitVec 32} {mfr : BitVec 32} (h : id >>> 1 &&& 0x7FF = mfr) (hm : mfr ≠ 0x7FF) : id ≠ 0xFFFFFFFF := by
  rintro rfl
  exact hm (h ▸ by decide)

theorem ne_zero {id : BitVec 32} (h : id.getLsbD 0 = true) : id ≠ 0 := by
  rintro rfl
  simp at h

/-- What a device of the kind presents after a reset: an IDCODE, from which the host takes its length. -/
theorem Is.identity {kind : TapKind} {d : TapCore} (h : kind.Is (fixedOf d)) :
    ∃ p : Identity, tapLogic.identity d = p.bits ∧ p.isIdcode = true ∧ p.code ≠ 0 ∧ irLengthOf p.code = kind.irLength := by
  cases kind <;> cases d
  · exact h.elim
  · exact ⟨.idcode kDefaultIdcode (by decide) (by decide), congrArg toBits h, rfl, by decide, by decide⟩
  · obtain ⟨-, id, hid, hlsb, hmfr⟩ := h
    refine ⟨.idcode id hlsb (ne_ones hmfr (by decide)), hid, rfl, ne_zero hlsb, ?_⟩
    exact if_neg fun harm => absurd (hmfr.symm.trans harm) (by decide)
  · exact h.elim
  · obtain ⟨-, id, hid, hlsb, hmfr⟩ := h
    exact ⟨.idcode id hlsb (ne_ones hmfr (by decide)), hid, rfl, ne_zero hlsb, if_pos hmfr⟩
  · exact h.elim

theorem irLength_eq (kind : TapKind) : kind.irLength = kind.irWidth + if kind = ilaTop then 1 else 0 := by
  cases kind <;> rfl

/-- The host believes in a bit more for every logic analyser. -/
theorem sum_irLength (kinds : List TapKind) :
    (kinds.map irLength).sum = (kinds.map irWidth).sum + kinds.count ilaTop := by
  induction kinds with
  | nil => rfl
  | cons kind kinds ih =>
    rw [List.map_cons, List.sum_cons, ih, List.map_cons, List.sum_cons, List.count_cons, irLength_eq]
    simp only [beq_iff_eq]
    omega

end TapKind

/-- The devices of a chain are of these kinds. -/
def AreKinds (kinds : List TapKind) (cores : List TapCore) : Prop :=
  List.Forall₂ TapKind.Is kinds (cores.map fixedOf)

namespace AreKinds

variable {kinds : List TapKind} {cores : List TapCore}

theorem irWidths (h : AreKinds kinds cores) : cores.map tapLogic.irWidth = kinds.map TapKind.irWidth := by
  induction cores generalizing kinds with
  | nil => cases h; rfl
  | cons d cores ih =>
    rcases h with _ | ⟨hd, h⟩
    exact congrArg₂ List.cons hd.irWidth_eq (ih h)

/-- An `ila_top` is an `ila_tap`. -/
theorem ilaTop {nearer farther : List TapKind} (h : AreKinds (nearer ++ .ilaTop :: farther) cores) :
    ∃ d, cores[nearer.length]? = some (.inr d) := by
  induction nearer generalizing cores with
  | nil =>
    cases cores with
    | nil => cases h
    | cons core cores =>
      rcases h with _ | ⟨hd, -⟩
      cases core with
      | inl d => exact hd.elim
      | inr d => exact ⟨d, rfl⟩
  | cons kind nearer ih =>
    cases cores with
    | nil => cases h
    | cons core cores =>
      rcases h with _ | ⟨-, h⟩
      exact ih h

/-- What the devices present after a reset. -/
theorem identities (h : AreKinds kinds cores) :
    ∃ ps : List Identity, cores.map tapLogic.identity = ps.map Identity.bits ∧
      (∀ p ∈ ps, p.isIdcode = true ∧ p.code ≠ 0) ∧ ps.map (fun p => irLengthOf p.code) = kinds.map TapKind.irLength := by
  induction cores generalizing kinds with
  | nil => cases h; exact ⟨[], rfl, by simp, rfl⟩
  | cons d cores ih =>
    rcases h with _ | ⟨hd, h⟩
    obtain ⟨p, hbits, hid, h0, hlen⟩ := hd.identity
    obtain ⟨ps, hbits', hids, hlens⟩ := ih h
    refine ⟨p :: ps, congrArg₂ List.cons hbits hbits', ?_, congrArg₂ List.cons hlen hlens⟩
    rintro q (_ | ⟨_, hq⟩)
    · exact ⟨hid, h0⟩
    · exact hids q hq

end AreKinds

/-! ### Detection -/

theorem seen_of_idcodes {ps : List Identity} (h : ∀ p ∈ ps, p.isIdcode = true) : Identity.Seen ps := by
  induction ps with
  | nil => trivial
  | cons p ps ih =>
    cases p with
    | idcode id lsb ne => exact ih fun q hq => h q (List.mem_cons_of_mem _ hq)
    | bypass => exact absurd (h _ List.mem_cons_self) (by decide)

theorem length_stream_idcodes {ps : List Identity} (h : ∀ p ∈ ps, p.isIdcode = true) :
    (Identity.stream ps).length = 32 * ps.length := by
  induction ps with
  | nil => rfl
  | cons p ps ih =>
    have hp : p.bits.length = 32 := by
      cases p with
      | idcode id lsb ne => simp [Identity.bits]
      | bypass => exact absurd (h _ List.mem_cons_self) (by decide)
    have ih := ih fun q hq => h q (List.mem_cons_of_mem _ hq)
    rw [Identity.stream, List.flatMap_cons, List.length_append, hp, ← Identity.stream, ih, List.length_cons]
    omega

theorem map_snd_listed (k : ℕ) (ps : List Identity) : (listed k ps).map Prod.snd = ps.map Identity.code := by
  induction ps generalizing k with
  | nil => rfl
  | cons p ps ih => exact congrArg _ (ih (k + 1))

/-- What is fixed about the devices stays. -/
theorem map_fixedOf_run (p : Port (List (Device TapCore))) (cs : List Pins) :
    (p.run tapTarget cs).target.map (fun d => fixedOf d.core) = p.target.map fun d => fixedOf d.core := by
  refine Chain.map_core_run tapLogic (f := fixedOf) (fun r d bits => ?_) (fun d => ?_) p cs
  · cases d <;> cases r <;> rfl
  · cases d <;> rfl

/-- `detectDevices` finds the devices, with the lengths that the host takes them for. -/
theorem detectDevices_kinds {c : JtagChain (List (Device TapCore))} {t : Bool} (hw : c.tap.device.Waits t)
    (hd : c.tap.device.Delivers) {kinds : List TapKind} (hk : AreKinds kinds c.tap.cores) (h8 : kinds.length ≤ 8) :
    ∃ c', JtagChain.detectDevices tapTarget c = some (kinds.length, c') ∧ c'.tap.AtRest ∧ AreKinds kinds c'.tap.cores ∧
      c'.devices.map ChainDevice.irLength = kinds.map TapKind.irLength := by
  obtain ⟨ps, hbits, hids, hlens⟩ := hk.identities
  have hn : ps.length = kinds.length := by simpa using congrArg List.length hlens
  have hroom : (Identity.stream ps).length ≤ maxBits := by
    rw [length_stream_idcodes fun p hp => (hids p hp).1, maxBits]
    omega
  have hp : c.tap.device.link.port.target.map (fun d => tapLogic.identity d.core) = ps.map Identity.bits := by
    rw [← hbits, TapController.cores, List.map_map]
    rfl
  obtain ⟨tdo, c', e, hpres, hdev, hs, hi, hdel, hport⟩ := JtagChain.detectDevices_spec tapLogic hw hd hp hroom
  have hentries := (decodeDevices_eq_iff (k := 0) hpres
    (Nat.lt_succ_of_le ((length_le_stream ps).trans hroom))).mpr (seen_of_idcodes fun p hp => (hids p hp).1)
  rw [← hdev] at hentries
  have hcodes : c'.devices.map ChainDevice.idcode = ps.map Identity.code := by
    rw [← map_snd_listed 0, ← hentries, List.map_map]
    rfl
  have hir : c'.devices.map ChainDevice.irLength = kinds.map TapKind.irLength := by
    calc c'.devices.map ChainDevice.irLength
        = c'.devices.map fun dev => irLengthOf dev.idcode := List.map_congr_left fun dev hm =>
          irLength_of_mem_decodeDevices (hdev ▸ hm) <| by
            obtain ⟨p, hp, hcode⟩ := List.mem_map.mp (hcodes ▸ List.mem_map_of_mem (f := ChainDevice.idcode) hm)
            exact hcode ▸ (hids p hp).2
      _ = (c'.devices.map ChainDevice.idcode).map irLengthOf := by rw [List.map_map]; rfl
      _ = kinds.map TapKind.irLength := by rw [hcodes, List.map_map, ← hlens]; rfl
  have hlen : c'.devices.length = kinds.length := by simpa using congrArg List.length hir
  refine ⟨c', hlen ▸ e, ⟨hs, hi, hdel⟩, ?_, hir⟩
  have hfixed := map_fixedOf_run c.tap.device.link.port JtagChain.detectPins
  rw [← hport] at hfixed
  rw [AreKinds, TapController.cores, List.map_map]
  rw [AreKinds, TapController.cores, List.map_map] at hk
  exact hfixed ▸ hk

/-! ### Selection -/

/-- `selectInstruction`, when the registers have no more bits than the host believes: the last bits stay. -/
theorem selectInstruction_excess {c : JtagChain (List (Device TapCore))} (hr : c.tap.AtRest)
    (hlen : ∀ dev ∈ c.devices, 1 ≤ dev.irLength ∧ dev.irLength ≤ 32) {k : ℕ} (hk : k < c.devices.length)
    (hmore : (c.tap.cores.map tapLogic.irWidth).sum ≤ JtagChain.totalIRLength c.devices) (op : BitVec 32) :
    ∃ tap regs, JtagChain.selectInstruction tapTarget k op c = some (true, { c with tap }) ∧
      tap.cores = List.zipWith (tapLogic.update .ir) c.tap.cores regs ∧
      regs.map List.length = c.tap.cores.map tapLogic.irWidth ∧
      regs.flatten = (placed k op c.devices).flatten.drop
        (JtagChain.totalIRLength c.devices - (c.tap.cores.map tapLogic.irWidth).sum) := by
  obtain ⟨d, buf, e, -, -, hbits, hpos, hcl⟩ := JtagChain.selectInstruction_delivered (T := tapTarget) hr.synced
    hr.delivers hlen hk op
  obtain ⟨-, hrun⟩ := run_scanTrack tapLogic c.tap.device.link.port .ir buf hpos
  rw [hr.start_regs, hbits, opcodeList_eq_placed k op fun dev h => (hlen dev h).2] at hrun
  have hcap : (c.tap.cores.map (tapLogic.capture .ir)).map List.length = c.tap.cores.map tapLogic.irWidth := by
    rw [List.map_map]
    exact List.map_congr_left fun d _ => tapLogic.length_capture_ir d
  have htotal : (placed k op c.devices).flatten.length = JtagChain.totalIRLength c.devices := by
    rw [← opcodeList_eq_placed k op fun dev h => (hlen dev h).2, length_flatten_opcodeList]
  have hsum : (c.tap.cores.map (tapLogic.capture .ir)).flatten.length = (c.tap.cores.map tapLogic.irWidth).sum := by
    rw [List.length_flatten, hcap]
  refine ⟨_, (Series.shifts (c.tap.cores.map (tapLogic.capture .ir)) (placed k op c.devices).flatten).1, e, ?_, ?_, ?_⟩
  · show d.link.port.target.map Device.core = _
    rw [hcl.port, ← hr.synced.state, hrun, Device.map_core_update, hr.start_cores]
  · rw [Series.map_length_shifts, hcap]
  · rw [Series.flatten_shifts, List.drop_append, List.drop_eq_nil_of_le (by rw [hsum, htotal]; exact hmore),
      List.nil_append, hsum, htotal]

/-- The opcode is in force in device `k`, an `ila_tap`, and every other device's instruction register has all
ones. -/
def Addressed (k : ℕ) (op : BitVec 5) (cores : List TapCore) : Prop :=
  (∃ d, cores[k]? = some (.inr d) ∧ d.irLatched = op) ∧ ∀ i (h : i < cores.length), i ≠ k → AllOnes cores[i]

/-- The bits in a device's instruction register are all ones. -/
theorem allOnes_updateIr_iff {d : TapCore} {bits : List Bool} (h : bits.length = tapLogic.irWidth d) :
    AllOnes (tapLogic.update .ir d bits) ↔ bits = List.replicate (tapLogic.irWidth d) true := by
  cases d with
  | inl d => exact Option.some_inj
  | inr d =>
    show ofBits 5 bits = 0x1F ↔ bits = List.replicate 5 true
    refine ⟨fun h' => ?_, fun h' => by rw [h']; decide⟩
    exact (toBits_ofBits h).symm.trans ((congrArg toBits h').trans (by decide))

/-- The bits in the instruction registers address device `k` if and only if they are its opcode, and ones. -/
theorem addressed_iff {cores : List TapCore} {regs : List (List Bool)}
    (hregs : regs.map List.length = cores.map tapLogic.irWidth) {k : ℕ} {d : IlaTap} (hk : cores[k]? = some (.inr d))
    (op : BitVec 5) :
    Addressed k op (List.zipWith (tapLogic.update .ir) cores regs) ↔
      regs = spread k (fun _ => toBits op) (cores.map tapLogic.irWidth) := by
  have hn : regs.length = cores.length := by simpa using congrArg List.length hregs
  have hlen : ∀ i (h : i < regs.length) (h' : i < cores.length), regs[i].length = tapLogic.irWidth cores[i] := by
    intro i h h'
    have hget := congrArg (·[i]?) hregs
    simpa [h, h'] using hget
  obtain ⟨hlt, hcore⟩ := List.getElem?_eq_some_iff.mp hk
  have hklt : k < regs.length := hn ▸ hlt
  have h5 : regs[k].length = 5 := (hlen k hklt hlt).trans (hcore ▸ rfl)
  have htarget : (List.zipWith (tapLogic.update .ir) cores regs)[k]? = some (.inr (d.updateIr regs[k])) := by
    rw [List.getElem?_zipWith, hk, List.getElem?_eq_getElem hklt]
    rfl
  constructor
  · rintro ⟨⟨d', hd', hop⟩, hrest⟩
    rw [htarget, Option.some.injEq, Sum.inr.injEq] at hd'
    apply List.ext_getElem
    · simp [spread, hn]
    · intro i h₁ h₂
      have hi : i < cores.length := hn ▸ h₁
      simp only [spread, List.getElem_mapIdx, List.getElem_map]
      by_cases hik : i = k
      · subst hik
        rw [if_pos rfl, ← hop, ← hd']
        exact (toBits_ofBits h5).symm
      · rw [if_neg hik]
        have := hrest i (by rw [List.length_zipWith]; omega) hik
        rw [List.getElem_zipWith] at this
        exact (allOnes_updateIr_iff (hlen i h₁ hi)).mp this
  · rintro hspread
    refine ⟨⟨_, htarget, ?_⟩, fun i hi hik => ?_⟩
    · show ofBits 5 regs[k] = op
      have : regs[k] = toBits op := by
        have hget := congrArg (·[k]?) hspread
        simpa [spread, hklt, hlt] using hget
      rw [this, ofBits_toBits]
    · have hi' : i < cores.length := by
        rw [List.length_zipWith] at hi
        omega
      have hr : i < regs.length := hn ▸ hi'
      rw [List.getElem_zipWith, allOnes_updateIr_iff (hlen i hr hi')]
      have hget := congrArg (·[i]?) hspread
      simpa [spread, hr, hi', hik] using hget

/-- On a chain of these kinds the bits that stay are the right ones if and only if they agree. -/
theorem drop_spread_iff (nearer farther : List TapKind) (op : BitVec 5) :
    (spread nearer.length (fun w => (List.range w).map (op.setWidth 32).getLsbD)
        ((nearer ++ .ilaTop :: farther).map TapKind.irLength)).flatten.drop
          ((nearer ++ .ilaTop :: farther).count .ilaTop) =
      (spread nearer.length (fun _ => toBits op) ((nearer ++ .ilaTop :: farther).map TapKind.irWidth)).flatten ↔
    Agrees (nearer.map TapKind.irWidth).sum (farther.count .ilaTop) op := by
  have hhost := flatten_spread (nearer.map TapKind.irLength) (farther.map TapKind.irLength) TapKind.ilaTop.irLength
    fun w => (List.range w).map (op.setWidth 32).getLsbD
  have hhard := flatten_spread (nearer.map TapKind.irWidth) (farther.map TapKind.irWidth) TapKind.ilaTop.irWidth
    fun _ => toBits op
  rw [List.length_map] at hhost hhard
  have hsix : (List.range TapKind.ilaTop.irLength).map (op.setWidth 32).getLsbD = toBits (op.setWidth 6 : BitVec 6) := by
    apply List.map_congr_left
    intro i hi
    have : i < 6 := List.mem_range.mp hi
    simp only [BitVec.getLsbD_setWidth, show i < 32 by omega, this]
  have hcount : (nearer ++ .ilaTop :: farther).count .ilaTop =
      nearer.count .ilaTop + (farther.count .ilaTop + 1) := by
    rw [List.count_append, List.count_cons_self]
  rw [List.map_append, List.map_cons, hhost, List.map_append, List.map_cons, hhard, hsix, hcount, TapKind.sum_irLength,
    TapKind.sum_irLength, List.append_assoc, drop_ones, Nat.add_comm (farther.map TapKind.irWidth).sum,
    List.replicate_add, ← List.append_assoc, ← List.append_assoc, List.append_assoc (List.replicate _ true ++ _),
    ← List.append_assoc (List.replicate _ true ++ _), List.drop_append_of_le_length (by simp; omega),
    List.append_cancel_right_eq, Agrees]

/-- The chains, targets and opcodes for which the bits that stay are the right ones: the target is nearest TDO,
with one opcode for each number of logic analysers behind it; or it comes second, behind an ARM DAP, with four
more behind it. -/
def Coincides (nearer farther : List TapKind) (op : BitVec 5) : Prop :=
  nearer = [] ∧ op = arriving (farther.count .ilaTop) ∨ nearer = [.armDap] ∧ farther.count .ilaTop = 4 ∧ op = 0x1E

instance (nearer farther : List TapKind) (op : BitVec 5) : Decidable (Coincides nearer farther op) :=
  inferInstanceAs (Decidable (_ ∨ _))

theorem agrees_iff_coincides {nearer farther : List TapKind} (h : (nearer ++ .ilaTop :: farther).length ≤ 8) (op : BitVec 5) :
    Agrees (nearer.map TapKind.irWidth).sum (farther.count .ilaTop) op ↔ Coincides nearer farther op := by
  have hc : farther.count .ilaTop < 8 := by
    have := List.count_le_length (a := TapKind.ilaTop) (l := farther)
    rw [List.length_append, List.length_cons] at h
    omega
  have h4 : ∀ kind : TapKind, 4 ≤ kind.irWidth := by
    intro kind
    cases kind <;> decide
  cases nearer with
  | nil => simp [agrees_iff (.inl rfl) hc, Coincides]
  | cons x nearer =>
    rw [List.map_cons, List.sum_cons, agrees_iff (.inr (by have := h4 x; omega)) hc]
    have hx := h4 x
    constructor
    · rintro (⟨h0, -⟩ | ⟨h4', hrest⟩)
      · omega
      · cases nearer with
        | nil =>
          refine .inr ⟨?_, hrest⟩
          cases x with
          | armDap => rfl
          | ilaTop | xilinxPl => exact absurd h4' (by decide)
        | cons y nearer =>
          have := h4 y
          rw [List.map_cons, List.sum_cons] at h4'
          omega
    · rintro (⟨h0, -⟩ | ⟨hdap, hrest⟩)
      · cases h0
      · rw [List.cons.injEq] at hdap
        obtain ⟨rfl, rfl⟩ := hdap
        exact .inr ⟨rfl, hrest⟩

/-- **Addressing after detection.** On every chain of up to eight `ila_top` cores, PL TAPs and ARM DAPs, after
`detectDevices` and for every target that is an `ila_top` and every opcode, `selectIr` puts the opcode in force
there, and all ones in every other instruction register, if and only if the bits coincide. -/
theorem selectIr_addresses_iff {c : JtagChain (List (Device TapCore))} {t : Bool} (hw : c.tap.device.Waits t)
    (hd : c.tap.device.Delivers) {kinds : List TapKind} (hk : AreKinds kinds c.tap.cores) (h8 : kinds.length ≤ 8) :
    ∃ c', JtagChain.detectDevices tapTarget c = some (kinds.length, c') ∧
      ∀ nearer farther, kinds = nearer ++ .ilaTop :: farther → ∀ op : BitVec 5,
        ∃ b, ChainIlaTapBackend.selectIr tapTarget (op.setWidth 32) ⟨c', nearer.length, ""⟩ = some (true, b) ∧
          (Addressed nearer.length op b.chain.tap.cores ↔ Coincides nearer farther op) := by
  obtain ⟨c', e, hr, hk', hir⟩ := detectDevices_kinds hw hd hk h8
  refine ⟨c', e, fun nearer farther hsplit op => ?_⟩
  subst hsplit
  have hn : c'.devices.length = (nearer ++ TapKind.ilaTop :: farther).length := by simpa using congrArg List.length hir
  have hlen : ∀ dev ∈ c'.devices, 1 ≤ dev.irLength ∧ dev.irLength ≤ 32 := by
    intro dev hm
    obtain ⟨kind, -, hkind⟩ := List.mem_map.mp (hir ▸ List.mem_map_of_mem (f := ChainDevice.irLength) hm)
    rw [← hkind]
    cases kind <;> decide
  have htotal : JtagChain.totalIRLength c'.devices =
      (c'.tap.cores.map tapLogic.irWidth).sum + (nearer ++ TapKind.ilaTop :: farther).count .ilaTop := by
    rw [JtagChain.totalIRLength, hir, hk'.irWidths, TapKind.sum_irLength]
  obtain ⟨tap, regs, hsel, hcores, hregs, hflat⟩ := selectInstruction_excess hr hlen
    (k := nearer.length) (by rw [hn, List.length_append, List.length_cons]; omega) (by rw [htotal]; omega) (op.setWidth 32)
  obtain ⟨d, hd⟩ := hk'.ilaTop
  refine ⟨⟨{ c' with tap }, nearer.length, ""⟩, ?_, ?_⟩
  · have hon : ChainIlaTapBackend.onChain (JtagChain.selectInstruction tapTarget nearer.length (op.setWidth 32))
        ⟨c', nearer.length, ""⟩ = some (true, ⟨{ c' with tap }, nearer.length, ""⟩) := Method.on_of_eq _ hsel
    rw [ChainIlaTapBackend.selectIr, Method.bind_of_eq _ hon]
    rfl
  · show Addressed nearer.length op tap.cores ↔ _
    have hwidths : ∀ w, (c'.tap.cores.map tapLogic.irWidth)[nearer.length]? = some w → (toBits op).length = w := by
      intro w hget
      rw [List.getElem?_map, hd, Option.map_some, Option.some.injEq] at hget
      exact (length_toBits op).trans hget
    rw [hcores, addressed_iff hregs hd, ← agrees_iff_coincides h8, ← drop_spread_iff, ← hk'.irWidths, ← hir,
      ← placed_eq_spread, List.eq_iff_flatten_eq, hregs, map_length_spread hwidths, hflat, htotal, Nat.add_sub_cancel_left]
    exact and_iff_left rfl

/-! ### A logic analyser alone -/

/-- An `ila_top` alone on the chain, and a host that has not looked at it. -/
def aloneOnChain : JtagChain (List (Device TapCore)) := .idle [] [⟨.inr (.powered 32 10 {}), []⟩]

theorem areKinds_alone : AreKinds [.ilaTop] aloneOnChain.tap.cores := .cons rfl .nil

theorem selectIr_addresses_alone :
    ∃ c', JtagChain.detectDevices tapTarget aloneOnChain = some (1, c') ∧
      ∀ nearer farther, [TapKind.ilaTop] = nearer ++ .ilaTop :: farther → ∀ op : BitVec 5,
        ∃ b, ChainIlaTapBackend.selectIr tapTarget (op.setWidth 32) ⟨c', nearer.length, ""⟩ = some (true, b) ∧
          (Addressed nearer.length op b.chain.tap.cores ↔ Coincides nearer farther op) :=
  selectIr_addresses_iff (JtagChain.idle_synced _ _).waits (JtagChain.idle_delivers _ _) areKinds_alone (by decide)

/-- The host selects CONFIG, and IDCODE is in force. -/
theorem selectIr_misses_alone :
    AreKinds [.ilaTop] aloneOnChain.tap.cores ∧
      (JtagChain.detectDevices tapTarget aloneOnChain).bind (fun r =>
        (ChainIlaTapBackend.selectIr tapTarget ((0x02 : BitVec 5).setWidth 32) ⟨r.2, 0, ""⟩).map fun s =>
          (r.1, r.2.devices.map ChainDevice.irLength, s.1,
            s.2.chain.tap.cores.map (Sum.elim (fun _ => none) fun d => some d.irLatched))) =
        some (1, [6], true, [some 0x01]) :=
  ⟨areKinds_alone, by decide +kernel⟩

end OwlTap.Ila
