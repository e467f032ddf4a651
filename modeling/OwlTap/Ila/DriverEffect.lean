import Mathlib.Tactic.SplitIfs
import OwlTap.Ila.RegisterFile

/-!
# What the driver does through any backend

A backend serves the driver as the register file does (`Serves`) when selecting an
instruction and scanning its register do what they do there: as far as the driver can tell,
and but for READ_DATA. Then every operation that reads no samples does what `IlaOp.effect`
says (`exec_effect`).
-/

namespace OwlTap.Ila

open OwlTap

variable {addrW : ℕ}

/-! ### Words -/

/-- A bit more on top of a string. -/
theorem ofBits_concat (w : ℕ) (xs : List Bool) (b : Bool) :
    ofBits w (xs ++ [b]) = if b then ofBits w xs ||| 1#w <<< xs.length else ofBits w xs := by
  apply BitVec.eq_of_getLsbD_eq
  intro i hi
  have hget : (xs ++ [b]).getD i false = (xs.getD i false || (decide (i = xs.length) && b)) := by
    by_cases hlt : i < xs.length
    · rw [List.getD_append _ _ _ _ hlt]
      simp [Nat.ne_of_lt hlt]
    · rw [List.getD_append_right _ _ _ _ (by omega), List.getD_eq_default xs _ (by omega)]
      by_cases he : i = xs.length
      · simp [he]
      · obtain ⟨k, hk⟩ : ∃ k, i - xs.length = k + 1 := ⟨i - xs.length - 1, by omega⟩
        simp [hk, he]
  rw [getLsbD_ofBits, hget]
  cases b
  · simp
  · rw [if_pos rfl, BitVec.getLsbD_or, getLsbD_one_shiftLeft hi, getLsbD_ofBits]
    simp [hi]

/-- A word that is widened first. -/
theorem setWidth_setWidth_of_ge {v m : ℕ} (x : BitVec v) (h : v ≤ m) (w : ℕ) :
    (x.setWidth m).setWidth w = x.setWidth w := by
  apply BitVec.eq_of_toNat_eq
  rw [BitVec.toNat_setWidth, BitVec.toNat_setWidth_of_le h, BitVec.toNat_setWidth]

/-- The low bits of a word. -/
def lowBits (n : ℕ) (v : BitVec 32) : BitVec 32 := ofBits 32 ((List.range n).map v.getLsbD)

theorem getLsbD_lowBits (n : ℕ) (v : BitVec 32) (i : ℕ) : (lowBits n v).getLsbD i = (decide (i < n) && v.getLsbD i) := by
  rw [lowBits, getLsbD_ofBits]
  by_cases hi : i < n
  · by_cases h32 : i < 32
    · simp [hi, h32]
    · simp [h32, BitVec.getLsbD_of_ge v i (by omega)]
  · simp [hi]

theorem lowBits_of_lt {n : ℕ} {v : BitVec 32} (h : v.toNat < 2 ^ n) : lowBits n v = v := by
  apply BitVec.eq_of_getLsbD_eq
  intro i _
  rw [getLsbD_lowBits]
  by_cases hi : i < n
  · simp [hi]
  · have hv : v.getLsbD i = false := by
      rw [BitVec.getLsbD, Nat.testBit_lt_two_pow (Nat.lt_of_lt_of_le h (Nat.pow_le_pow_right (by decide) (by omega)))]
    simp [hv]

@[simp] theorem lowBits_all (v : BitVec 32) : lowBits 32 v = v := lowBits_of_lt v.isLt

namespace IlaDriver

theorem packBits_eq (v : BitVec 32) {n : ℕ} (hn : n ≤ 64) :
    ∃ buf, packBits v n = some buf ∧ buf.length = bytesFor n ∧ bits buf n = (List.range n).map v.getLsbD := by
  refine ⟨_, if_neg (by omega), by simp [bytesFor], ?_⟩
  apply List.ext_getElem (by simp)
  intro i h₁ h₂
  rw [length_bits] at h₁
  have hroom : 0 + n ≤ 8 * (List.replicate ((n + 7) / 8) (0 : Byte)).length := by
    rw [List.length_replicate]
    omega
  rw [getElem_bits, bitAt_orBits _ _ hroom]
  simp [h₁]

/-- The bits of a buffer are the value's. -/
theorem unpackBits_eq {buf : List Byte} {n : ℕ} (hn : n ≤ 32) (hb : bytesFor n ≤ buf.length) :
    unpackBits buf n = some (ofBits 32 (bits buf n)) := by
  have hbytes := le_bytesFor n
  suffices h : ∀ k ≤ n, (List.range k).foldlM (fun v i => (buf[i / 8]?).bind fun b =>
      if b.getLsbD (i % 8) then if 32 ≤ i then none else some (v ||| 1#32 <<< i) else some v) 0 =
      some (ofBits 32 (bits buf k)) from h n (le_refl n)
  intro k
  induction k with
  | zero => exact fun _ => rfl
  | succ k ih =>
    intro hk
    have hget : buf[k / 8]? = some (buf.getD (k / 8) 0) := by
      rw [List.getElem?_eq_getElem (by omega), List.getD_eq_getElem _ _ (by omega)]
    have hbit : (buf.getD (k / 8) 0).getLsbD (k % 8) = bitAt buf k := rfl
    rw [List.range_succ, List.foldlM_append, ih (by omega)]
    simp only [Option.bind_eq_bind, Option.bind_some, List.foldlM_cons, List.foldlM_nil, hget, hbit, if_neg (show ¬32 ≤ k by omega)]
    rw [bits_succ, ofBits_concat, length_bits]
    cases bitAt buf k <;> rfl

/-! ### Backends -/

/-- The registers that only read. -/
def readOnly : List (BitVec 5) := [Opcode.idcode, Opcode.config, Opcode.sigDef, Opcode.status]

end IlaDriver

/-- A backend serves the driver as the register file does. They are related in one way between operations and in
another while an instruction is selected; both keep the opcode of the last scan, if there has been one. A scan
may see what the sample clock domain shows at its time. -/
structure Serves {β : Type} (B : IlaTapBackend β) (R S : Option (BitVec 5) → β → RegisterFile addrW → Prop) :
    Prop where
  /-- Instructions are selected. -/
  select : ∀ {s b f} (opcode : BitVec 32), R s b f →
    ∃ b', B.selectIr opcode b = some (true, b') ∧ S s b' (f.select (opcode.setWidth 5))
  /-- The register is scanned; what the host may use of it comes out. -/
  shift : ∀ {s b f n tdi}, S s b f → f.regs.storedIr ≠ Opcode.readData →
    (f.regs.storedIr = Opcode.sigDef → s ≠ none) → 1 ≤ n → n ≤ 32 → bytesFor n ≤ tdi.length →
    ∃ b' tdo side, B.shiftDr n tdi b = some ((true, tdo), b') ∧
      S (some f.regs.storedIr) b' ({ f with side }.update (ofBits 32 (bits tdi n))) ∧ bytesFor n ≤ tdo.length ∧
      (f.regs.storedIr ∈ IlaDriver.readOnly → bits tdo n = (List.range n).map ({ f with side }.read).getLsbD)
  /-- When no signal definitions are left to be read, the operation may end. -/
  idle : ∀ {s b f}, S s b f → f.regs.sigDefIdx = 0 → R s b f
  /-- An empty batch scans nothing. -/
  empty : ∀ n tdi b, B.shiftDrBatch 0 n tdi b = some ((true, []), b)

/-- As long as no samples are read, the last scan is not of READ_DATA. -/
theorem Serves.avoiding {β : Type} {B : IlaTapBackend β} {R S : Option (BitVec 5) → β → RegisterFile addrW → Prop}
    (h : Serves B R S) :
    Serves B (fun s b f => R s b f ∧ s ≠ some Opcode.readData) (fun s b f => S s b f ∧ s ≠ some Opcode.readData) where
  select opcode hR := by
    obtain ⟨b', e, hS⟩ := h.select opcode hR.1
    exact ⟨b', e, hS, hR.2⟩
  shift hS hr hs h1 h32 htdi := by
    obtain ⟨b', tdo, side, e, hS', hlen, hread⟩ := h.shift hS.1 hr hs h1 h32 htdi
    exact ⟨b', tdo, side, e, ⟨hS', fun he => hr (Option.some.inj he)⟩, hlen, hread⟩
  idle hS hidx := ⟨h.idle hS.1 hidx, hS.2⟩
  empty := h.empty

namespace IlaDriver

variable {β : Type} {B : IlaTapBackend β} {R S : Option (BitVec 5) → β → RegisterFile addrW → Prop}

/-- Between two operations: what is believed about the core is the default or the truth. -/
structure Ready (R : Option (BitVec 5) → β → RegisterFile addrW → Prop) (P : IlaParams) (s : Option (BitVec 5))
    (d : IlaDriver β) (f : RegisterFile addrW) : Prop where
  /-- The backend is at the register file. -/
  rel : R s d.backend f
  /-- The parameters are the core's. -/
  params : f.params = P
  /-- What is believed. -/
  caps : d.caps = {} ∨ d.caps = capsOf P addrW ∧ s ≠ none

/-- A scan of the instruction selected. -/
theorem shiftDrInt_effect (h : Serves B R S) {s : Option (BitVec 5)} {d : IlaDriver β} {f : RegisterFile addrW}
    (hS : S s d.backend f) (hr : f.regs.storedIr ≠ Opcode.readData) (hs : f.regs.storedIr = Opcode.sigDef → s ≠ none)
    {n : ℕ} (h1 : 1 ≤ n) (h32 : n ≤ 32) (v : BitVec 32) :
    ∃ b' w side, shiftDrInt B n v d = some (some w, { d with backend := b' }) ∧
      S (some f.regs.storedIr) b' ({ f with side }.update (lowBits n v)) ∧
      (f.regs.storedIr ∈ readOnly → w = lowBits n { f with side }.read) := by
  obtain ⟨tdi, hpack, hlen, hbits⟩ := packBits_eq v (show n ≤ 64 by omega)
  obtain ⟨b', tdo, side, hshift, hS', htdo, hread⟩ := h.shift hS hr hs h1 h32 (Nat.le_of_eq hlen.symm)
  rw [hbits] at hS'
  refine ⟨b', ofBits 32 (bits tdo n), side, ?_, hS', fun hm => ?_⟩
  · have hcall : onBackend (B.shiftDr n tdi) d = some ((true, tdo), { d with backend := b' }) := Method.on_of_eq _ hshift
    have hpure : (Method.ofOption (packBits v n) : Method (IlaDriver β) _) d = some (tdi, d) := by
      rw [Method.ofOption, hpack]
      rfl
    rw [shiftDrInt, Method.bind_of_eq _ hpure, Method.bind_of_eq _ hcall]
    show ((Method.ofOption (unpackBits tdo n) >>= fun v => pure (some v)) : Method (IlaDriver β) _) _ = _
    rw [unpackBits_eq h32 htdo]
    rfl
  · rw [hread hm]
    rfl

/-- Selecting an instruction. -/
theorem selectIr_effect (h : Serves B R S) {s : Option (BitVec 5)} {d : IlaDriver β} {f : RegisterFile addrW}
    (hR : R s d.backend f) (opcode : BitVec 32) :
    ∃ b', selectIr B opcode d = some (true, { d with backend := b' }) ∧ S s b' (f.select (opcode.setWidth 5)) := by
  obtain ⟨b', hsel, hS⟩ := h.select opcode hR
  refine ⟨b', ?_, hS⟩
  have hcall : onBackend (B.selectIr opcode) d = some (true, { d with backend := b' }) := Method.on_of_eq _ hsel
  rw [selectIr, Method.bind_of_eq _ hcall]
  rfl

/-- A write to the settings does not depend on what is left out of them. -/
theorem settings_write (opcode : BitVec 5) (data : BitVec 32) (r : IlaRegs 32 addrW) :
    (r.write opcode data).settings = r.settings.write opcode data := by
  simp only [IlaRegs.write, apply_ite IlaRegs.settings]
  rfl

theorem settings_update (opcode : BitVec 5) (data : BitVec 32) (f : RegisterFile addrW) :
    ((f.select opcode).update data).regs.settings = f.regs.settings.write opcode data := by
  rw [← settings_write]
  show ((f.select opcode).regs.write opcode data).settings = _
  rw [settings_write, settings_write]
  rfl

/-- An access to any register but READ_DATA and SIG_DEF. -/
theorem access_effect (h : Serves B R S) {P : IlaParams} {s : Option (BitVec 5)} {d : IlaDriver β} {f : RegisterFile addrW}
    (hd : Ready R P s d f) (opcode : BitVec 32) (hr : opcode.setWidth 5 ≠ Opcode.readData)
    (hs : opcode.setWidth 5 ≠ Opcode.sigDef) {n : ℕ} (h1 : 1 ≤ n) (h32 : n ≤ 32) (v : BitVec 32) :
    ∃ b' w f', access B opcode n v d = some (some w, { d with backend := b' }) ∧
      Ready R P (some (opcode.setWidth 5)) { d with backend := b' } f' ∧
      f'.regs.settings = f.regs.settings.write (opcode.setWidth 5) (lowBits n v) ∧
      f'.pulses = f.pulses ++ ctrlPulses (opcode.setWidth 5) (lowBits n v) ∧
      (opcode.setWidth 5 ∈ readOnly → w = lowBits n ({ f with side := f'.side }.select (opcode.setWidth 5)).read) := by
  obtain ⟨b₁, hsel, hS₁⟩ := selectIr_effect h hd.rel opcode
  obtain ⟨b', w, side, hshift, hS', hread⟩ :=
    shiftDrInt_effect h (d := { d with backend := b₁ }) hS₁ hr (fun hc => absurd hc hs) h1 h32 v
  have hidx : (f.select (opcode.setWidth 5)).nextSigDef = 0 := if_neg hs
  refine ⟨b', w, _, ?_, ⟨h.idle hS' hidx, hd.params, ?_⟩, settings_update _ _ _, rfl, hread⟩
  · rw [access, Method.bind_of_eq _ hsel]
    exact hshift
  · exact hd.caps.imp_right fun hc => ⟨hc.1, nofun⟩

/-! ### What is believed about the core -/

theorem toNat_append_add {m n : ℕ} (x : BitVec m) (y : BitVec n) : (x ++ y).toNat = x.toNat * 2 ^ n + y.toNat := by
  rw [BitVec.toNat_append, ← Nat.shiftLeft_add_eq_or_of_lt y.isLt, Nat.shiftLeft_eq]

theorem toNat_configVal (P : IlaParams) (dataW addrW : ℕ) :
    (configVal P dataW addrW).toNat =
      ((((3 * 16 + P.numCh % 16) * 16 + P.sigCount % 16) * 64 + (dataW - 1) % 64) * 4) * 256 + addrW % 256 := by
  simp only [configVal, toNat_append_add, BitVec.toNat_ofNat]
  rfl

/-- CONFIG says what a core is, as far as its fields reach. -/
theorem ofConfig_fields (P : IlaParams) {dataW addrW : ℕ} (hd : 1 ≤ dataW ∧ dataW ≤ 64) (ha : 1 ≤ addrW ∧ addrW ≤ 255) :
    (IlaCaps.ofConfig (configVal P dataW addrW)).version = 3 ∧
      (IlaCaps.ofConfig (configVal P dataW addrW)).dataW = dataW ∧
      (IlaCaps.ofConfig (configVal P dataW addrW)).addrW = addrW ∧
      (IlaCaps.ofConfig (configVal P dataW addrW)).sigCount = P.sigCount % 16 ∧
      (IlaCaps.ofConfig (configVal P dataW addrW)).depth = (if 20 < addrW then kDepth else 2 ^ addrW) ∧
      (IlaCaps.ofConfig (configVal P dataW addrW)).probed = true := by
  have hraw := toNat_configVal P dataW addrW
  have hver : field (configVal P dataW addrW) 24 8 = 3 := by
    rw [field, hraw]
    omega
  have haddr : field (configVal P dataW addrW) 0 8 = addrW := by
    rw [field, hraw]
    omega
  refine ⟨hver, ?_, haddr, ?_, ?_, ?_⟩
  · show field (configVal P dataW addrW) 10 6 + 1 = dataW
    rw [field, hraw]
    omega
  · show field (configVal P dataW addrW) 16 4 = _
    rw [field, hraw]
    omega
  · show (if field (configVal P dataW addrW) 0 8 = 0 ∨ 20 < field (configVal P dataW addrW) 0 8 then kDepth else
      2 ^ field (configVal P dataW addrW) 0 8) = _
    rw [haddr]
    by_cases h20 : 20 < addrW
    · rw [if_pos (.inr h20), if_pos h20]
    · rw [if_neg (by omega), if_neg h20]
  · show decide (field (configVal P dataW addrW) 24 8 ≠ 0) = true
    rw [hver]
    rfl

/-- What `probe` learns about a core with words of 32 bits. -/
theorem capsOf_fields (P : IlaParams) {addrW : ℕ} (h : 1 ≤ addrW ∧ addrW ≤ 32) :
    (capsOf P addrW).version = 3 ∧ (capsOf P addrW).dataW = 32 ∧ (capsOf P addrW).addrW = addrW ∧
      (capsOf P addrW).sigCount = P.sigCount % 16 ∧
      (capsOf P addrW).depth = (if 20 < addrW then kDepth else 2 ^ addrW) ∧ (capsOf P addrW).probed = true :=
  ofConfig_fields P (by decide) ⟨h.1, by omega⟩

/-- Whether or not the core has been probed, words have 32 bits, and the addresses accepted fit. -/
theorem Ready.widths {P : IlaParams} {s : Option (BitVec 5)} {d : IlaDriver β} {f : RegisterFile addrW}
    (hd : Ready R P s d f) (hw : 1 ≤ addrW ∧ addrW ≤ 32) :
    d.caps.dataW = 32 ∧ 1 ≤ d.caps.addrW ∧ d.caps.addrW ≤ 32 ∧ d.caps.depth ≤ 2 ^ d.caps.addrW := by
  rcases hd.caps with hc | ⟨hc, -⟩
  · rw [hc]
    decide
  · obtain ⟨-, hdata, haddr, -, hdepth, -⟩ := capsOf_fields P hw
    rw [hc, hdata, haddr, hdepth]
    refine ⟨rfl, hw.1, hw.2, ?_⟩
    split
    · exact Nat.le_trans (by decide : kDepth ≤ 2 ^ 20) (Nat.pow_le_pow_right (by decide) (by omega))
    · exact le_refl _

/-! ### Writes -/

/-- A method writes to the settings, and asks for control pulses. -/
def Does (R : Option (BitVec 5) → β → RegisterFile addrW → Prop) (P : IlaParams) (m : Method (IlaDriver β) Bool)
    (g : IlaRegs 32 addrW → IlaRegs 32 addrW) (ps : List CtrlBit) : Prop :=
  ∀ s d f, Ready R P s d f → ∃ b' s' f', m d = some (true, { d with backend := b' }) ∧
    Ready R P s' { d with backend := b' } f' ∧ f'.regs.settings = g f.regs.settings ∧ f'.pulses = f.pulses ++ ps

/-- A write to any register but READ_DATA and SIG_DEF. -/
theorem write_effect (h : Serves B R S) {P : IlaParams} {s : Option (BitVec 5)} {d : IlaDriver β} {f : RegisterFile addrW}
    (hd : Ready R P s d f) (opcode : BitVec 32) (hr : opcode.setWidth 5 ≠ Opcode.readData)
    (hs : opcode.setWidth 5 ≠ Opcode.sigDef) {n : ℕ} (h1 : 1 ≤ n) (h32 : n ≤ 32) (v : BitVec 32) :
    ∃ b' f', write B opcode n v d = some (true, { d with backend := b' }) ∧
      Ready R P (some (opcode.setWidth 5)) { d with backend := b' } f' ∧
      f'.regs.settings = f.regs.settings.write (opcode.setWidth 5) (lowBits n v) ∧
      f'.pulses = f.pulses ++ ctrlPulses (opcode.setWidth 5) (lowBits n v) := by
  obtain ⟨b', w, f', hacc, hd', hset, hpul, -⟩ := access_effect h hd opcode hr hs h1 h32 v
  refine ⟨b', f', ?_, hd', hset, hpul⟩
  rw [write, Method.bind_of_eq _ hacc]
  rfl

theorem does_write (h : Serves B R S) (P : IlaParams) (opcode : BitVec 32) (hr : opcode.setWidth 5 ≠ Opcode.readData)
    (hs : opcode.setWidth 5 ≠ Opcode.sigDef) {n : ℕ} (h1 : 1 ≤ n) (h32 : n ≤ 32) (v : BitVec 32) :
    Does R P (write B opcode n v) (IlaRegs.write (opcode.setWidth 5) (lowBits n v))
      (ctrlPulses (opcode.setWidth 5) (lowBits n v)) := by
  intro s d f hd
  obtain ⟨b', f', e, hd', hset, hpul⟩ := write_effect h hd opcode hr hs h1 h32 v
  exact ⟨b', _, f', e, hd', hset, hpul⟩

theorem does_pure (P : IlaParams) : Does R P (pure true : Method (IlaDriver β) Bool) id [] := fun s d f hd =>
  ⟨d.backend, s, f, rfl, hd, rfl, (List.append_nil _).symm⟩

theorem Does.andThen {P : IlaParams} {m k : Method (IlaDriver β) Bool} {g g' : IlaRegs 32 addrW → IlaRegs 32 addrW}
    {ps ps' : List CtrlBit} (hm : Does R P m g ps) (hk : Does R P k g' ps') :
    Does R P (Method.andThen m k) (fun r => g' (g r)) (ps ++ ps') := by
  intro s d f hd
  obtain ⟨b₁, s₁, f₁, e₁, hd₁, hset₁, hpul₁⟩ := hm s d f hd
  obtain ⟨b₂, s₂, f₂, e₂, hd₂, hset₂, hpul₂⟩ := hk s₁ _ f₁ hd₁
  refine ⟨b₂, s₂, f₂, ?_, hd₂, by rw [hset₂, hset₁], by rw [hpul₂, hpul₁, List.append_assoc]⟩
  rw [Method.andThen_of_true _ e₁, e₂]

theorem Does.congr {P : IlaParams} {m : Method (IlaDriver β) Bool} {g g' : IlaRegs 32 addrW → IlaRegs 32 addrW}
    {ps : List CtrlBit} (hm : Does R P m g ps) (h : ∀ r, g r = g' r) : Does R P m g' ps :=
  (funext h : g = g') ▸ hm

theorem does_control (h : Serves B R S) (P : IlaParams) {v : BitVec 32} {k : CtrlBit}
    (hk : ctrlPulses Opcode.ctrl (lowBits 4 v) = [k]) : Does R P (control B v) id [k] := by
  have hw := does_write h P kIrCtrl (by decide) (by decide) (show 1 ≤ 4 by decide) (by decide) v
  rw [show kIrCtrl.setWidth 5 = Opcode.ctrl from rfl, hk] at hw
  exact hw

section Trigger

variable {P : IlaParams} {caps : IlaCaps} (t : TriggerSetup)

theorem does_word (h : Serves B R S) (hdata : caps.dataW = 32) (opcode : BitVec 32)
    (hr : opcode.setWidth 5 ≠ Opcode.readData) (hs : opcode.setWidth 5 ≠ Opcode.sigDef)
    (hc : opcode.setWidth 5 ≠ Opcode.ctrl) (v : BitVec 32) :
    Does R P (write B opcode caps.dataW v) (IlaRegs.write (opcode.setWidth 5) v) [] := by
  have hw := does_write h P opcode hr hs (show 1 ≤ 32 by decide) (le_refl 32) v
  rw [lowBits_all, ctrlPulses, if_neg hc] at hw
  rw [hdata]
  exact hw

theorem does_addr (h : Serves B R S) (h1 : 1 ≤ caps.addrW) (h32 : caps.addrW ≤ 32) (opcode : BitVec 32)
    (hr : opcode.setWidth 5 ≠ Opcode.readData) (hs : opcode.setWidth 5 ≠ Opcode.sigDef)
    (hc : opcode.setWidth 5 ≠ Opcode.ctrl) {v : BitVec 16} (hv : v.toNat < 2 ^ caps.addrW) :
    Does R P (write B opcode caps.addrW (v.setWidth 32)) (IlaRegs.write (opcode.setWidth 5) (v.setWidth 32)) [] := by
  have hw := does_write h P opcode hr hs h1 h32 (v.setWidth 32)
  rw [lowBits_of_lt (by rwa [BitVec.toNat_setWidth_of_le (by decide)]), ctrlPulses, if_neg hc] at hw
  exact hw

theorem does_writeEdges (h : Serves B R S) (hdata : caps.dataW = 32) :
    Does R P (writeEdges B caps t) (fun r =>
      if 2 ≤ caps.version then { r with trigRiseMask := t.riseMask, trigFallMask := t.fallMask } else r) [] := by
  rw [writeEdges]
  by_cases hv : 2 ≤ caps.version
  · simp only [if_pos hv]
    exact (does_word h hdata kIrTrigRise (by decide) (by decide) (by decide) t.riseMask).andThen
      (does_word h hdata kIrTrigFall (by decide) (by decide) (by decide) t.fallMask)
  · simp only [if_neg hv]
    exact does_pure P

theorem does_writeGroupB (h : Serves B R S) (hdata : caps.dataW = 32) :
    Does R P (writeGroupB B caps t) (fun r =>
      if 3 ≤ caps.version then { r with trigMask2 := t.mask2, trigVal2 := t.val2, trigOrMode := t.orMode } else r)
      [] := by
  rw [writeGroupB]
  by_cases hv : 3 ≤ caps.version
  · simp only [if_pos hv]
    refine ((does_word h hdata kIrTrigMask2 (by decide) (by decide) (by decide) t.mask2).andThen
      ((does_word h hdata kIrTrigVal2 (by decide) (by decide) (by decide) t.val2).andThen
        (does_word h hdata kIrTrigCtrl (by decide) (by decide) (by decide) (if t.orMode then 1 else 0)))).congr
      fun r => ?_
    cases t.orMode <;> rfl
  · simp only [if_neg hv]
    exact does_pure P

/-- The registers of a trigger are written. -/
theorem does_writeTrigger (h : Serves B R S) (hdata : caps.dataW = 32) (h1 : 1 ≤ caps.addrW) (h32 : caps.addrW ≤ 32)
    (hpre : t.preSamples.toNat < 2 ^ caps.addrW) :
    Does R P (writeTrigger B caps t) (t.apply caps.version) [] := by
  refine ((does_word h hdata kIrTrigMask (by decide) (by decide) (by decide) t.mask).andThen
    ((does_word h hdata kIrTrigVal (by decide) (by decide) (by decide) t.value).andThen
      ((does_addr h h1 h32 kIrPreSamples (by decide) (by decide) (by decide) hpre).andThen
        ((does_writeEdges t h hdata).andThen (does_writeGroupB t h hdata))))).congr fun r => ?_
  have haddr : ((t.preSamples.setWidth 32).setWidth addrW : BitVec addrW) = t.preSamples.setWidth addrW :=
    setWidth_setWidth_of_ge _ (by decide) _
  by_cases h2 : 2 ≤ caps.version
  · by_cases h3 : 3 ≤ caps.version
    · simp only [TriggerSetup.apply, h2, h3, if_true, ← haddr]
      rfl
    · simp only [TriggerSetup.apply, h2, h3, if_true, if_false, ← haddr]
      rfl
  · have h3 : ¬3 ≤ caps.version := by omega
    simp only [TriggerSetup.apply, h2, h3, if_false, ← haddr]
    rfl

end Trigger

/-! ### Reads -/

/-- IDCODE, CONFIG and STATUS are read without an effect. -/
theorem read_effect (h : Serves B R S) {P : IlaParams} {s : Option (BitVec 5)} {d : IlaDriver β} {f : RegisterFile addrW}
    (hd : Ready R P s d f) (opcode : BitVec 32)
    (hm : opcode.setWidth 5 ∈ [Opcode.idcode, Opcode.config, Opcode.status]) {n : ℕ} (h1 : 1 ≤ n) (h32 : n ≤ 32) :
    ∃ b' f', access B opcode n 0 d =
        some (some (lowBits n ({ f with side := f'.side }.select (opcode.setWidth 5)).read), { d with backend := b' }) ∧
      Ready R P (some (opcode.setWidth 5)) { d with backend := b' } f' ∧ f'.regs.settings = f.regs.settings ∧
      f'.pulses = f.pulses := by
  have hne : opcode.setWidth 5 ≠ Opcode.readData ∧ opcode.setWidth 5 ≠ Opcode.sigDef ∧
      opcode.setWidth 5 ≠ Opcode.ctrl ∧ opcode.setWidth 5 ∈ readOnly ∧
      ∀ (r : IlaRegs 32 addrW) v, r.write (opcode.setWidth 5) v = r := by
    simp only [List.mem_cons, List.not_mem_nil, or_false] at hm
    rcases hm with hm | hm | hm <;> rw [hm] <;>
      exact ⟨by decide, by decide, by decide, by decide, fun _ _ => rfl⟩
  obtain ⟨hr, hs, hc, hro, hwrite⟩ := hne
  obtain ⟨b', w, f', hacc, hd', hset, hpul, hread⟩ := access_effect h hd opcode hr hs h1 h32 0
  rw [hwrite] at hset
  rw [ctrlPulses, if_neg hc, List.append_nil] at hpul
  exact ⟨b', f', by rw [hacc, hread hro], hd', hset, hpul⟩

theorem readIdcode_effect (h : Serves B R S) {P : IlaParams} {s : Option (BitVec 5)} {d : IlaDriver β}
    {f : RegisterFile addrW} (hd : Ready R P s d f) :
    ∃ b' f', readIdcode B d = some (some P.idcodeVal, { d with backend := b' }) ∧
      Ready R P (some Opcode.idcode) { d with backend := b' } f' ∧ f'.regs.settings = f.regs.settings ∧
      f'.pulses = f.pulses := by
  obtain ⟨b', f', hacc, hd', hset, hpul⟩ := read_effect h hd kIrIdcode (by decide)
    (show 1 ≤ 32 by decide) (le_refl 32)
  refine ⟨b', f', ?_, hd', hset, hpul⟩
  rw [readIdcode, hacc, lowBits_all]
  show some (some (f.params.idcodeVal.setWidth 32), _) = _
  rw [hd.params, BitVec.setWidth_eq]

/-- `probe` learns what the core is. -/
theorem probe_effect (h : Serves B R S) {P : IlaParams} (hw : 1 ≤ addrW ∧ addrW ≤ 32) {s : Option (BitVec 5)}
    {d : IlaDriver β} {f : RegisterFile addrW} (hd : Ready R P s d f) (out : IlaCaps) :
    ∃ b' s' f', probe B out d =
        some ((true, capsOf P addrW), { d with backend := b', caps := capsOf P addrW }) ∧
      Ready R P s' { d with backend := b', caps := capsOf P addrW } f' ∧ f'.regs.settings = f.regs.settings ∧
      f'.pulses = f.pulses := by
  obtain ⟨b₁, f₁, e₁, hd₁, hset₁, hpul₁⟩ := readIdcode_effect h hd
  obtain ⟨b₂, f₂, e₂, hd₂, hset₂, hpul₂⟩ := read_effect h hd₁ kIrConfig (by decide)
    (show 1 ≤ 32 by decide) (le_refl 32)
  obtain ⟨b₃, f₃, e₃, hd₃, hset₃, hpul₃⟩ := readIdcode_effect h hd₂
  rw [lowBits_all] at e₂
  have hraw : ({ f₁ with side := f₂.side }.select (kIrConfig.setWidth 5)).read = configVal P 32 addrW := by
    show (configVal f₁.params 32 addrW).setWidth 32 = _
    rw [hd₁.params, BitVec.setWidth_eq]
  rw [hraw] at e₂
  have hprobed : (IlaCaps.ofConfig (configVal P 32 addrW)).probed = true := (capsOf_fields P hw).2.2.2.2.2
  refine ⟨b₃, _, f₃, ?_, ⟨hd₃.rel, hd₃.params, .inr ⟨rfl, nofun⟩⟩, by rw [hset₃, hset₂, hset₁],
    by rw [hpul₃, hpul₂, hpul₁]⟩
  rw [probe, Method.bind_of_eq _ e₁, Method.bind_of_eq _ e₂]
  show (ite ((IlaCaps.ofConfig (configVal P 32 addrW)).probed = true) _ _ : Method (IlaDriver β) _) _ = _
  rw [if_pos hprobed, Method.bind_of_eq _ e₃]
  rfl

/-- `readStatus` reads what the sample clock domain shows. -/
theorem readStatus_effect (h : Serves B R S) {P : IlaParams} {s : Option (BitVec 5)} {d : IlaDriver β}
    {f : RegisterFile addrW} (hd : Ready R P s d f) (out : IlaStatus) :
    ∃ b' f', readStatus B out d = some ((true, f'.side.status), { d with backend := b' }) ∧
      Ready R P (some Opcode.status) { d with backend := b' } f' ∧ f'.regs.settings = f.regs.settings ∧ f'.pulses = f.pulses := by
  obtain ⟨b', f', e, hd', hset, hpul⟩ := read_effect h hd kIrStatus (by decide)
    (show 1 ≤ 8 by decide) (by decide)
  refine ⟨b', f', ?_, hd', hset, hpul⟩
  have hread : ({ f with side := f'.side }.select (kIrStatus.setWidth 5)).read = f'.side.status.val := rfl
  rw [hread] at e
  have hword : IlaStatus.ofWord (lowBits 8 f'.side.status.val) = f'.side.status := by
    simp only [IlaStatus.ofWord, getLsbD_lowBits, IlaStatus.val, getLsbD_ofBits]
    rfl
  rw [readStatus, Method.bind_of_eq _ e]
  show some ((true, IlaStatus.ofWord (lowBits 8 f'.side.status.val)), _) = _
  rw [hword]

/-! ### Signal definitions -/

/-- The index goes through the definitions, and is back at the first after the last. -/
theorem nextSigDef_ofNat {f : RegisterFile addrW} (hsel : f.regs.storedIr = Opcode.sigDef) {j m : ℕ}
    (hm : m = f.params.sigCount % 16) (hj : j < m) (hidx : f.regs.sigDefIdx = BitVec.ofNat 4 j) :
    f.nextSigDef = BitVec.ofNat 4 (if j + 1 = m then 0 else j + 1) := by
  rw [RegisterFile.nextSigDef, if_pos hsel, hidx]
  have hlt : BitVec.ofNat 4 j < BitVec.ofNat 4 (f.params.sigCount - 1) ↔ j + 1 ≠ m := by
    rw [BitVec.lt_def, BitVec.toNat_ofNat, BitVec.toNat_ofNat]
    omega
  by_cases he : j + 1 = m
  · rw [if_neg (fun hc => hlt.mp hc he), if_pos he]
    rfl
  · rw [if_pos (hlt.mpr he), if_neg he, BitVec.ofNat_add]
    rfl

/-- One definition is read. -/
theorem signalDef_effect (h : Serves B R S) {P : IlaParams} {s : Option (BitVec 5)} {d : IlaDriver β}
    {f : RegisterFile addrW} (hS : S s d.backend f) (hP : f.params = P) (hs : s ≠ none)
    (hsel : f.regs.storedIr = Opcode.sigDef) {j m : ℕ} (hm : m = P.sigCount % 16) (hj : j < m)
    (hidx : f.regs.sigDefIdx = BitVec.ofNat 4 j) :
    ∃ b' f', shiftDrInt B 32 0 d = some (some (sigDefVal P (BitVec.ofNat 4 j)), { d with backend := b' }) ∧
      S (some Opcode.sigDef) b' f' ∧ f'.params = P ∧ f'.regs.storedIr = Opcode.sigDef ∧
      f'.regs.sigDefIdx = BitVec.ofNat 4 (if j + 1 = m then 0 else j + 1) ∧
      f'.regs.settings = f.regs.settings ∧ f'.pulses = f.pulses := by
  obtain ⟨b', w, side, e, hS', hread⟩ := shiftDrInt_effect h hS (by rw [hsel]; decide) (fun _ => hs)
    (show 1 ≤ 32 by decide) (le_refl 32) 0
  have hwrite : f.regs.write f.regs.storedIr (lowBits 32 0) = f.regs := by
    rw [hsel]
    rfl
  have hword : ({ f with side }.read) = sigDefVal P (BitVec.ofNat 4 j) := by
    have : ({ f with side }.read) = (sigDefVal f.params f.regs.sigDefIdx).setWidth 32 := by
      rw [RegisterFile.read, IlaRegs.captureData, hsel]
      rfl
    rw [this, hP, hidx, BitVec.setWidth_eq]
  rw [lowBits_all, hword] at hread
  rw [hsel] at hS'
  refine ⟨b', { f with side }.update (lowBits 32 0), by rw [e, hread (by rw [hsel]; decide)], hS', hP, ?_, ?_, ?_, ?_⟩
  · show (f.regs.write f.regs.storedIr (lowBits 32 0)).storedIr = _
    rw [hwrite, hsel]
  · exact nextSigDef_ofNat (f := { f with side }) hsel (hP ▸ hm) hj hidx
  · show (f.regs.write f.regs.storedIr (lowBits 32 0)).settings = _
    rw [hwrite]
  · show f.pulses ++ ctrlPulses f.regs.storedIr _ = _
    rw [hsel, ctrlPulses, if_neg (by decide), List.append_nil]

/-- The loop reads the definitions from `j` to the last, and the first is the next one then. -/
theorem signalDefsLoop_effect (h : Serves B R S) {P : IlaParams} (count : ℕ) {s : Option (BitVec 5)} {d : IlaDriver β}
    {f : RegisterFile addrW} (hS : S s d.backend f) (hP : f.params = P) (hs : s ≠ none)
    (hsel : f.regs.storedIr = Opcode.sigDef) {j m : ℕ} (hm : m = P.sigCount % 16) (hj : j + (count + 1) = m)
    (hidx : f.regs.sigDefIdx = BitVec.ofNat 4 j) (out : List IlaSignalEntry) :
    ∃ b' f', signalDefsLoop B (count + 1) out d =
        some ((true, out ++ (List.range' j (count + 1)).map fun i => .ofWord (sigDefVal P (BitVec.ofNat 4 i))),
          { d with backend := b' }) ∧
      S (some Opcode.sigDef) b' f' ∧ f'.params = P ∧ f'.regs.sigDefIdx = 0 ∧
      f'.regs.settings = f.regs.settings ∧ f'.pulses = f.pulses := by
  induction count generalizing s d f j out with
  | zero =>
    obtain ⟨b₁, f₁, e₁, hS₁, hP₁, -, hidx₁, hset₁, hpul₁⟩ := signalDef_effect h hS hP hs hsel hm (by omega) hidx
    rw [if_pos (by omega)] at hidx₁
    refine ⟨b₁, f₁, ?_, hS₁, hP₁, hidx₁, hset₁, hpul₁⟩
    rw [signalDefsLoop, Method.bind_of_eq _ e₁]
    rfl
  | succ count ih =>
    obtain ⟨b₁, f₁, e₁, hS₁, hP₁, hsel₁, hidx₁, hset₁, hpul₁⟩ :=
      signalDef_effect h hS hP hs hsel hm (by omega) hidx
    rw [if_neg (by omega)] at hidx₁
    obtain ⟨b₂, f₂, e₂, hS₂, hP₂, hidx₂, hset₂, hpul₂⟩ := ih (d := { d with backend := b₁ }) hS₁ hP₁ nofun hsel₁
      (j := j + 1) (by omega) hidx₁ (out ++ [.ofWord (sigDefVal P (BitVec.ofNat 4 j))])
    refine ⟨b₂, f₂, ?_, hS₂, hP₂, hidx₂, hset₂.trans hset₁, hpul₂.trans hpul₁⟩
    rw [signalDefsLoop, Method.bind_of_eq _ e₁]
    refine e₂.trans ?_
    rw [List.range'_succ, List.map_cons, List.append_assoc]
    rfl

/-- `readSignalDefs` reads all definitions, if there are any. -/
theorem readSignalDefs_effect (h : Serves B R S) {P : IlaParams} (hw : 1 ≤ addrW ∧ addrW ≤ 32) {s : Option (BitVec 5)}
    {d : IlaDriver β} {f : RegisterFile addrW} (hd : Ready R P s d f) (hc : d.caps.sigCount ≠ 0)
    (out : List IlaSignalEntry) :
    ∃ b' s' f', readSignalDefs B out d =
        some ((true, (List.range d.caps.sigCount).map fun i => .ofWord (sigDefVal P (BitVec.ofNat 4 i))),
          { d with backend := b' }) ∧
      Ready R P s' { d with backend := b' } f' ∧ f'.regs.settings = f.regs.settings ∧ f'.pulses = f.pulses := by
  -- only a core that has been probed is known to have some
  rcases hd.caps with hcaps | ⟨hcaps, hs⟩
  · rw [hcaps] at hc
    exact absurd rfl hc
  · obtain ⟨count, hcount⟩ : ∃ count, d.caps.sigCount = count + 1 := ⟨d.caps.sigCount - 1, by omega⟩
    have hm : count + 1 = P.sigCount % 16 := by rw [← hcount, hcaps, (capsOf_fields P hw).2.2.2.1]
    obtain ⟨b₁, e₁, hS₁⟩ := selectIr_effect h hd.rel kIrSigDef
    obtain ⟨b₂, f₂, e₂, hS₂, hP₂, hidx₂, hset₂, hpul₂⟩ := signalDefsLoop_effect h count (d := { d with backend := b₁ })
      hS₁ hd.params hs rfl (j := 0) hm (Nat.zero_add _) rfl []
    refine ⟨b₂, _, f₂, ?_, ⟨h.idle hS₂ hidx₂, hP₂, .inr ⟨hcaps, nofun⟩⟩, hset₂, hpul₂⟩
    rw [readSignalDefs, if_neg hc, Method.bind_of_eq _ e₁]
    show signalDefsLoop B d.caps.sigCount [] _ = _
    rw [hcount, e₂, List.nil_append, List.range_eq_range']

/-- `readSamples` of no samples only selects the register. -/
theorem readSamples_zero (h : Serves B R S) {s : Option (BitVec 5)} {d : IlaDriver β} {f : RegisterFile addrW}
    (hR : R s d.backend f) (out : List (BitVec 32)) :
    ∃ b', readSamples B (some 0) out d = some ((true, []), { d with backend := b' }) ∧ R s b' (f.select Opcode.readData) := by
  obtain ⟨b', e, hS⟩ := selectIr_effect h hR kIrReadData
  refine ⟨b', ?_, h.idle hS rfl⟩
  have hbatch : onBackend (B.shiftDrBatch (0 : BitVec 32).toInt d.caps.dataW [0, 0, 0, 0]) { d with backend := b' } =
      some ((true, []), { d with backend := b' }) := Method.on_of_eq _ (h.empty _ _ b')
  rw [readSamples, Method.bind_of_eq _ e]
  simp only [if_true, Option.getD_some]
  rw [Method.bind_of_eq _ hbatch]
  rfl

/-! ### Operations -/

/-- What the driver believes, and what it has done to the register file. -/
def view (d : IlaDriver β) (f : RegisterFile addrW) : IlaView addrW :=
  ⟨d.caps, d.lastError, f.regs.settings, f.pulses⟩

theorem setReadAddr_effect (h : Serves B R S) {P : IlaParams} (hw : 1 ≤ addrW ∧ addrW ≤ 32) {s : Option (BitVec 5)}
    {d : IlaDriver β} {f : RegisterFile addrW} (hd : Ready R P s d f) (addr : BitVec 16)
    (hlt : addr.toNat < d.caps.depth) :
    ∃ b' f', setReadAddr B addr d = some (true, { d with backend := b' }) ∧
      Ready R P (some Opcode.readAddr) { d with backend := b' } f' ∧
      f'.regs.settings = { f.regs.settings with rdAddr := addr.setWidth addrW } ∧ f'.pulses = f.pulses := by
  obtain ⟨-, h1, h32, hdepth⟩ := hd.widths hw
  obtain ⟨b', f', e, hd', hset, hpul⟩ := write_effect h hd kIrReadAddr (by decide) (by decide) h1 h32 (addr.setWidth 32)
  have hfit : lowBits d.caps.addrW (addr.setWidth 32) = addr.setWidth 32 :=
    lowBits_of_lt (by rw [BitVec.toNat_setWidth_of_le (by decide)]; exact Nat.lt_of_lt_of_le hlt hdepth)
  rw [hfit] at hset
  refine ⟨b', f', ?_, hd', ?_, hpul.trans (List.append_nil _)⟩
  · rw [setReadAddr, if_neg (by omega), e]
  · rw [hset, ← setWidth_setWidth_of_ge addr (show 16 ≤ 32 by decide) addrW]
    rfl

theorem configureTrigger_eq (t : TriggerSetup) (d : IlaDriver β) :
    configureTrigger B t d =
      match t.refusal d.caps with
      | some msg => some (false, { d with lastError := msg })
      | none => writeTrigger B d.caps t d := by
  rw [configureTrigger, TriggerSetup.refusal]
  split_ifs <;> rfl

theorem TriggerSetup.lt_depth_of_refusal {t : TriggerSetup} {caps : IlaCaps} (h : t.refusal caps = none) :
    t.preSamples.toNat < caps.depth := by
  by_contra hge
  rw [TriggerSetup.refusal, if_pos (by omega)] at h
  cases h

/-- **The driver does what it is for.** Every operation that reads no samples, through any backend that serves
the driver, returns and does what its effect says. -/
theorem exec_effect (h : Serves B R S) {P : IlaParams} (hw : 1 ≤ addrW ∧ addrW ≤ 32) {s : Option (BitVec 5)}
    {d : IlaDriver β} {f : RegisterFile addrW} (hd : Ready R P s d f) {op : IlaOp} (hop : ¬op.ReadsSamples) :
    ∃ d' s' f', exec B op d = some ((op.effect P f'.side (view d f)).1, d') ∧ Ready R P s' d' f' ∧
      view d' f' = (op.effect P f'.side (view d f)).2 := by
  -- an operation that only asks for a control pulse
  have hcontrol : ∀ (m : Method (IlaDriver β) Bool) (k : CtrlBit), Does R P m id [k] → ∃ d' s' f',
      (do pure (.done (← m)) : Method (IlaDriver β) IlaReply) d = some (.done true, d') ∧ Ready R P s' d' f' ∧
        view d' f' = { view d f with pulses := f.pulses ++ [k] } := by
    intro m k hm
    obtain ⟨b', s', f', e, hd', hset, hpul⟩ := hm s d f hd
    refine ⟨_, s', f', Method.bind_of_eq _ e, hd', ?_⟩
    rw [view, hset, hpul]
    rfl
  -- one that is refused
  have hrefused : ∀ msg : String, Ready R P s { d with lastError := msg } f := fun msg =>
    ⟨hd.rel, hd.params, hd.caps⟩
  cases op with
  | probe =>
    obtain ⟨b', s', f', e, hd', hset, hpul⟩ := probe_effect h hw hd {}
    refine ⟨_, s', f', Method.bind_of_eq _ e, hd', ?_⟩
    rw [view, hset, hpul]
    rfl
  | readIdcode =>
    obtain ⟨b', f', e, hd', hset, hpul⟩ := readIdcode_effect h hd
    refine ⟨_, _, f', Method.bind_of_eq _ e, hd', ?_⟩
    rw [view, hset, hpul]
    rfl
  | readSignalDefs =>
    by_cases hc : d.caps.sigCount = 0
    · have heff : ∀ side, IlaOp.readSignalDefs.effect P side (view d f) = (.signalDefs false [],
          { view d f with lastError := "sig_count is 0; no SIG_DEF entries available" }) := fun _ => if_pos hc
      have e : readSignalDefs B [] d = some ((false, []),
          { d with lastError := "sig_count is 0; no SIG_DEF entries available" }) := if_pos hc
      refine ⟨_, s, f, ?_, hrefused _, by rw [heff]; rfl⟩
      rw [heff]
      exact Method.bind_of_eq _ e
    · obtain ⟨b', s', f', e, hd', hset, hpul⟩ := readSignalDefs_effect h hw hd hc []
      have heff : IlaOp.readSignalDefs.effect P f'.side (view d f) = (.signalDefs true
          ((List.range d.caps.sigCount).map fun i => .ofWord (sigDefVal P (BitVec.ofNat 4 i))), view d f) := if_neg hc
      refine ⟨_, s', f', ?_, hd', by rw [heff, view, hset, hpul]; rfl⟩
      rw [heff]
      exact Method.bind_of_eq _ e
  | configureTrigger t =>
    cases hr : t.refusal d.caps with
    | some msg =>
      have heff : ∀ side, (IlaOp.configureTrigger t).effect P side (view d f) =
          (.done false, { view d f with lastError := msg }) := fun side => by
        show (match t.refusal d.caps with | some e => _ | none => _) = _
        rw [hr]
      refine ⟨_, s, f, ?_, hrefused msg, by rw [heff]; rfl⟩
      rw [heff]
      exact Method.bind_of_eq _ (by rw [configureTrigger_eq, hr])
    | none =>
      have hlt := TriggerSetup.lt_depth_of_refusal hr
      obtain ⟨hdata, h1, h32, hdepth⟩ := hd.widths hw
      obtain ⟨b', s', f', ew, hd', hset, hpul⟩ :=
        does_writeTrigger t h hdata h1 h32 (Nat.lt_of_lt_of_le hlt hdepth) s d f hd
      have heff : (IlaOp.configureTrigger t).effect P f'.side (view d f) =
          (.done true, { view d f with regs := t.apply d.caps.version (view d f).regs }) := by
        show (match t.refusal d.caps with | some e => _ | none => _) = _
        rw [hr]
        rfl
      refine ⟨_, s', f', ?_, hd', by rw [heff, view, hset, hpul, List.append_nil]; rfl⟩
      rw [heff]
      exact Method.bind_of_eq _ (by rw [configureTrigger_eq, hr]; exact ew)
  | arm => exact hcontrol (arm B) .arm (does_control h P (by decide))
  | stop => exact hcontrol (stop B) .stop (does_control h P (by decide))
  | resetCapture => exact hcontrol (resetCapture B) .reset (does_control h P (by decide))
  | forceTrigger => exact hcontrol (forceTrigger B) .force (does_control h P (by decide))
  | readStatus =>
    obtain ⟨b', f', e, hd', hset, hpul⟩ := readStatus_effect h hd ⟨false, false, false⟩
    refine ⟨_, _, f', Method.bind_of_eq _ e, hd', ?_⟩
    rw [view, hset, hpul]
    rfl
  | setReadAddr addr =>
    by_cases hge : d.caps.depth ≤ addr.toNat
    · have heff : ∀ side, (IlaOp.setReadAddr addr).effect P side (view d f) =
          (.done false, { view d f with lastError := "addr >= DEPTH" }) := fun _ => if_pos hge
      have e : setReadAddr B addr d = some (false, { d with lastError := "addr >= DEPTH" }) := if_pos hge
      refine ⟨_, s, f, ?_, hrefused _, by rw [heff]; rfl⟩
      rw [heff]
      exact Method.bind_of_eq _ e
    · obtain ⟨b', f', e, hd', hset, hpul⟩ := setReadAddr_effect h hw hd addr (by omega)
      have heff : (IlaOp.setReadAddr addr).effect P f'.side (view d f) =
          (.done true, { view d f with regs := { (view d f).regs with rdAddr := addr.setWidth addrW } }) := if_neg hge
      refine ⟨_, _, f', ?_, hd', by rw [heff, view, hset, hpul]; rfl⟩
      rw [heff]
      exact Method.bind_of_eq _ e
  | readSamples count =>
    obtain rfl : count = some 0 := not_not.mp hop
    obtain ⟨b', e, hR⟩ := readSamples_zero h hd.rel []
    refine ⟨_, s, f.select Opcode.readData, Method.bind_of_eq _ e, ⟨hR, hd.params, hd.caps⟩, ?_⟩
    show view _ _ = { view d f with regs := { f.regs.settings with rdAddr := f.regs.rdAddr + BitVec.ofNat addrW 0 } }
    rw [show f.regs.rdAddr + BitVec.ofNat addrW 0 = f.regs.rdAddr from BitVec.add_zero _]
    rfl

end IlaDriver

end OwlTap.Ila
