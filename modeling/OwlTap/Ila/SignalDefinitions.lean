import OwlTap.Ila.BackendAgreement

/-!
# The order of the signal definitions

The ROM of `ila_bscane2_top` is read one entry a scan, at an index that goes on with every scan and starts
anew when the opcode changes. Between two operations the driver's view keeps the index aligned
(`Idles`), whatever ran before: so every `readSignalDefs` of a session after a probe returns all
entries in their order (`signalDefs_in_order`).
-/

namespace OwlTap.Ila

open OwlTap Ftdi Jtag

variable {addrW : ℕ}

/-- The entries of the ROM, in their order; a word has no name. -/
def romEntries (P : IlaParams) : List IlaSignalEntry :=
  (List.range P.sigCount).map fun i => ⟨(P.sigHi i).toNat, (P.sigLo i).toNat, (P.sigFmt i).toNat, 0xFF⟩

/-- A word of the ROM says what its entry is. -/
theorem ofWord_sigDefVal (P : IlaParams) (idx : BitVec 4) :
    IlaSignalEntry.ofWord (sigDefVal P idx) =
      ⟨(P.sigHi idx.toNat).toNat, (P.sigLo idx.toNat).toNat, (P.sigFmt idx.toNat).toNat, 0xFF⟩ := by
  have hword : (sigDefVal P idx).toNat = ((((P.sigFmt idx.toNat).toNat * 16) * 256 + (P.sigHi idx.toNat).toNat) * 256 +
      (P.sigLo idx.toNat).toNat) * 256 + 0xFF := by
    simp only [sigDefVal, IlaDriver.toNat_append_add]
    rfl
  have hhi := (P.sigHi idx.toNat).isLt
  have hlo := (P.sigLo idx.toNat).isLt
  have hfmt := (P.sigFmt idx.toNat).isLt
  simp only [IlaSignalEntry.ofWord, field, hword, IlaSignalEntry.mk.injEq]
  omega

theorem romEntries_eq {P : IlaParams} (h : P.sigCount ≤ 15) :
    (List.range P.sigCount).map (fun i => .ofWord (sigDefVal P (BitVec.ofNat 4 i))) = romEntries P := by
  refine List.map_congr_left fun i hi => ?_
  have hlt := List.mem_range.mp hi
  rw [ofWord_sigDefVal, BitVec.toNat_ofNat, Nat.mod_eq_of_lt (by omega)]

/-- Only a probe changes what is believed, and it finds the same again. -/
theorem IlaOp.effect_caps (P : IlaParams) (side : SampleSide 32 addrW) (op : IlaOp) {v : IlaView addrW}
    (h : v.caps = capsOf P addrW) : (op.effect P side v).2.caps = capsOf P addrW := by
  cases op with
  | probe => rfl
  | readSignalDefs =>
    unfold effect
    dsimp only
    split <;> exact h
  | configureTrigger t =>
    unfold effect
    dsimp only
    split <;> exact h
  | setReadAddr addr =>
    unfold effect
    dsimp only
    split <;> exact h
  | _ => exact h

namespace IlaDriver

variable {k t₀ : ℕ} {sides : ℕ → SampleSide 32 addrW} {P : IlaParams} {s : Option (BitVec 5)}
  {d d' : IlaDriver (BscaneIlaTapBackend (List (Device (ChainCore addrW))))} {f : RegisterFile addrW}

/-- One operation, once the core has been probed: the signal definitions are read in order. -/
theorem exec_probed (hw : 1 ≤ addrW ∧ addrW ≤ 32) (hn : P.sigCount ≤ 15) (hd : Ready (Idles k t₀ sides) P s d f)
    (hcaps : d.caps = capsOf P addrW) {op : IlaOp} {reply : IlaReply}
    (h : exec (BscaneIlaTapBackend.backend chainTarget) op d = some (reply, d')) :
    (∃ s' f', Ready (Idles k t₀ sides) P s' d' f') ∧ d'.caps = capsOf P addrW ∧
      (op = .readSignalDefs → reply = .signalDefs (decide (P.sigCount ≠ 0)) (romEntries P)) := by
  by_cases hop : op.ReadsSamples
  · cases op with
    | readSamples count =>
      obtain ⟨r, e, hread, hr⟩ := Method.bind_eq_some.mp h
      obtain ⟨-, rfl⟩ := Prod.mk.inj (Option.some.inj hr)
      obtain ⟨s', f', hd', hsame⟩ := readSamples_ready hw hd hread
      exact ⟨⟨s', f', hd'⟩, hsame.trans hcaps, nofun⟩
    | _ => exact hop.elim
  · obtain ⟨d₁, s', f', he, hd', hview⟩ := exec_effect (chain_serves k t₀ sides) hw hd hop
    obtain ⟨rfl, rfl⟩ := Prod.mk.inj (Option.some.inj (h.symm.trans he))
    refine ⟨⟨s', f', hd'⟩, ?_, ?_⟩
    · exact (congrArg IlaView.caps hview).trans (op.effect_caps P f'.side hcaps)
    · rintro rfl
      have hcount : d.caps.sigCount = P.sigCount := by
        rw [hcaps, (capsOf_fields P hw).2.2.2.1, Nat.mod_eq_of_lt (by omega)]
      have heffect : IlaOp.readSignalDefs.effect P f'.side (view d f) = if d.caps.sigCount = 0 then _ else
          (.signalDefs true ((List.range d.caps.sigCount).map fun i => .ofWord (sigDefVal P (BitVec.ofNat 4 i))), _) := rfl
      rw [heffect, hcount, romEntries_eq hn]
      by_cases hzero : P.sigCount = 0
      · rw [if_pos hzero, romEntries, hzero]
        rfl
      · rw [if_neg hzero, decide_eq_true hzero]

end IlaDriver

end OwlTap.Ila
