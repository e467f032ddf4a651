import OwlTap.Base.Bypass
import OwlTap.Jtag.RestingChain

/-!
# One device of a chain, and BYPASS

`selectInstruction` puts an instruction in force in one device, and all the others in BYPASS
(`JtagChain.selectInstruction_alone`). From then on a scan of data goes through that device's
register and a bit for each of the others (`Alone.scan`), whatever kinds of devices they are
and however many bits are scanned.
-/

namespace OwlTap.Jtag

open OwlTap Ftdi

variable {δ : Type} (L : TestLogic δ)

/-- Device `k` is `d`, and the others are in BYPASS. -/
structure Alone (InBypass : δ → Prop) (k : ℕ) (d : δ) (cores : List δ) : Prop where
  /-- Device `k`. -/
  device : cores[k]? = some d
  /-- The others. -/
  bypassed : ∀ i (h : i < cores.length), i ≠ k → InBypass cores[i]

/-- Updates keep the lengths of the instruction registers. -/
theorem irWidths_zipWith (r : Register) {cores : List δ} {ys : List (List Bool)} (hys : ys.length = cores.length) :
    (List.zipWith (L.update r) cores ys).map L.irWidth = cores.map L.irWidth := by
  apply List.ext_getElem
  · simp [hys]
  · intro i h₁ h₂
    simp only [List.getElem_map, List.getElem_zipWith]
    exact L.irWidth_update r _ _

/-! ### Lanes -/

theorem inLine_lanes (n k : ℕ) (b : List Bool) : InLine k b.length (lanes n k b) := by
  rw [InLine, map_length_lanes, length_lanes]

theorem length_flatten_lanes {n k : ℕ} (hk : k < n) (b : List Bool) : (lanes n k b).flatten.length = b.length + (n - 1) := by
  rw [flatten_lanes hk]
  simp
  omega

/-- The stream of a scan, from device `k` on: what its register held, the zeros of the others, and the new bits. -/
theorem drop_flatten_lanes {n k : ℕ} (hk : k < n) (old v : List Bool) :
    ((lanes n k old).flatten ++ (lanes n k v).flatten).drop k =
      old ++ List.replicate (n - 1) false ++ v ++ List.replicate (n - 1 - k) false := by
  rw [flatten_lanes hk, flatten_lanes hk, List.append_assoc, List.append_assoc, List.append_assoc,
    List.drop_left' (by simp), List.append_assoc, ← List.append_assoc (List.replicate _ false) (List.replicate k false),
    ← List.replicate_add, Nat.sub_add_cancel (by omega), List.append_assoc]

/-- Device `k` is left with the last bits that went into its register. -/
theorem getElem_shifts_lanes {n k : ℕ} (hk : k < n) (old v : List Bool)
    (h : k < (Series.shifts (lanes n k old) (lanes n k v).flatten).1.length) :
    (Series.shifts (lanes n k old) (lanes n k v).flatten).1[k] = passed (n - 1) old v := by
  obtain ⟨X, hX⟩ : ∃ X, X = (Series.shifts (lanes n k old) (lanes n k v).flatten).1 := ⟨_, rfl⟩
  have hline : InLine k old.length X := by
    have hl : X.length = n := by rw [hX, Series.length_shifts, length_lanes]
    rw [InLine, hX, Series.map_length_shifts, map_length_lanes, ← hX, hl]
  have hflat : X.flatten = ((lanes n k old).flatten ++ (lanes n k v).flatten).drop (v.length + (n - 1)) := by
    rw [hX, Series.flatten_shifts, length_flatten_lanes hk]
  simp only [← hX] at h ⊢
  obtain ⟨before, after, hsplit, hlen⟩ := hline.flatten_eq h
  have hlast : X[k].length = old.length := by rw [hline.length_getElem h, if_pos rfl]
  have hdrop : X[k] ++ after = passed (n - 1) old v ++ List.replicate (n - 1 - k) false := by
    calc X[k] ++ after = X.flatten.drop k := by rw [hsplit, List.drop_left' hlen]
      _ = (((lanes n k old).flatten ++ (lanes n k v).flatten).drop k).drop (v.length + (n - 1)) := by
          rw [hflat, List.drop_drop, List.drop_drop, Nat.add_comm]
      _ = passed (n - 1) old v ++ List.replicate (n - 1 - k) false := by
          rw [drop_flatten_lanes hk, List.drop_append_of_le_length (by simp; omega), passed, Nat.add_comm v.length]
  exact (List.append_inj hdrop (by rw [hlast, length_passed])).1

/-! ### The chain -/

variable {L} {InBypass : δ → Prop}

namespace Alone

variable {k : ℕ} {d : δ} {cores : List δ}

theorem lt_length (h : Alone InBypass k d cores) : k < cores.length := (List.getElem?_eq_some_iff.mp h.device).1

theorem getElem_eq (h : Alone InBypass k d cores) (_ : k < cores.length) : cores[k] = d :=
  (List.getElem?_eq_some_iff.mp h.device).2

/-- What the devices capture. -/
theorem captures (hB : L.HasBypass InBypass) (h : Alone InBypass k d cores) :
    cores.map (L.capture .dr) = lanes cores.length k (L.capture .dr d) := by
  apply List.ext_getElem
  · simp
  · intro i h₁ h₂
    have hi : i < cores.length := by simpa using h₁
    rw [List.getElem_map, getElem_lanes]
    by_cases hik : i = k
    · subst hik
      rw [if_pos rfl, h.getElem_eq hi]
    · rw [if_neg hik]
      exact hB.capture _ (h.bypassed i hi hik)

/-- An update of all of them with data leaves the others in BYPASS. -/
theorem update (hB : L.HasBypass InBypass) (h : Alone InBypass k d cores) {ys : List (List Bool)}
    (hys : ys.length = cores.length) :
    Alone InBypass k (L.update .dr d (ys.getD k [])) (List.zipWith (L.update .dr) cores ys) := by
  have hk : k < ys.length := hys ▸ h.lt_length
  refine ⟨?_, fun i hi hne => ?_⟩
  · rw [List.getElem?_zipWith, h.device, List.getElem?_eq_getElem hk, List.getD_eq_getElem _ _ hk]
  · have hi' : i < cores.length := by
      rw [List.length_zipWith] at hi
      omega
    rw [List.getElem_zipWith]
    exact hB.updateDr _ _ (h.bypassed i hi' hne)

end Alone

namespace JtagChain

variable {c : JtagChain (List (Device δ))} {k : ℕ} {d : δ}

theorem KnowsWidths.irLength_eq (hw : KnowsWidths L c) {i : ℕ} (hi : i < c.devices.length) (hi' : i < c.tap.cores.length) :
    c.devices[i].irLength = L.irWidth c.tap.cores[i] := by
  have hget := congrArg (·[i]?) hw.widths
  simp only [List.getElem?_map, List.getElem?_eq_getElem hi, List.getElem?_eq_getElem hi', Option.map_some,
    Option.some.injEq] at hget
  exact hget

/-- `selectInstruction` puts one device's instruction in force, and the others in BYPASS. -/
theorem selectInstruction_alone (hB : L.HasBypass InBypass) (hr : c.tap.AtRest) (hw : KnowsWidths L c)
    (hd : c.tap.cores[k]? = some d) (op : BitVec 32) :
    ∃ tap, selectInstruction (Target.chain L) k op c = some (true, { c with tap }) ∧ tap.AtRest ∧
      KnowsWidths L { c with tap } ∧
      Alone InBypass k (L.update .ir d ((List.range (L.irWidth d)).map op.getLsbD)) tap.cores ∧
      tap.cores.length = c.tap.cores.length := by
  have hn := hw.length L
  obtain ⟨hk, hdk⟩ := List.getElem?_eq_some_iff.mp hd
  obtain ⟨tap, e, hrest, hcores⟩ := selectInstruction_rest L hr hw (hn ▸ hk) op
  have hlen : (placed k op c.devices).length = c.tap.cores.length := by rw [placed, List.length_mapIdx, hn]
  have hget : ∀ i (hi : i < c.tap.cores.length), tap.cores[i]? = some (L.update .ir c.tap.cores[i]
      (if i = k then (List.range (L.irWidth c.tap.cores[i])).map op.getLsbD
        else List.replicate (L.irWidth c.tap.cores[i]) true)) := by
    intro i hi
    have hi' : i < c.devices.length := hn ▸ hi
    rw [hcores, List.getElem?_zipWith, List.getElem?_eq_getElem hi, placed, List.getElem?_mapIdx,
      List.getElem?_eq_getElem hi', Option.map_some, hw.irLength_eq hi' hi]
  have hlen' : tap.cores.length = c.tap.cores.length := by rw [hcores, List.length_zipWith, hlen, Nat.min_self]
  refine ⟨tap, e, hrest, ⟨?_, hw.range⟩, ⟨?_, fun i hi hne => ?_⟩, hlen'⟩
  · exact hw.widths.trans ((congrArg (List.map L.irWidth) hcores).trans (irWidths_zipWith L .ir hlen)).symm
  · rw [hget k hk, if_pos rfl, hdk]
  · have hi' : i < c.tap.cores.length := hlen' ▸ hi
    have hcore := hget i hi'
    rw [if_neg hne, List.getElem?_eq_getElem hi, Option.some.injEq] at hcore
    rw [hcore]
    exact hB.updateIr _

/-- A scan of any number of bits for device `k`. -/
theorem scan_alone (hB : L.HasBypass InBypass) (hr : c.tap.AtRest) (ha : Alone InBypass k d c.tap.cores)
    {buf : List Byte} {v : List Bool} (h1 : 1 ≤ v.length + (c.tap.cores.length - 1))
    (hbuf : bytesFor (v.length + (c.tap.cores.length - 1)) ≤ buf.length)
    (hbits : bits buf (v.length + (c.tap.cores.length - 1)) = (lanes c.tap.cores.length k v).flatten) :
    ∃ tap, TapController.shiftDR (Target.chain L) (some buf) [] (v.length + (c.tap.cores.length - 1)) c.tap =
        some ((true, packBits (((lanes c.tap.cores.length k (L.capture .dr d)).flatten ++
          (lanes c.tap.cores.length k v).flatten).take (v.length + (c.tap.cores.length - 1)))), tap) ∧ tap.AtRest ∧
      Alone InBypass k (L.update .dr d (passed (c.tap.cores.length - 1) (L.capture .dr d) v)) tap.cores ∧
      tap.cores.map L.irWidth = c.tap.cores.map L.irWidth := by
  obtain ⟨dev, e, hs, hc, hdel⟩ := TapController.shiftDR_delivered (T := Target.chain L) h1 hbuf hr.synced hr.delivers
  obtain ⟨houts, hrun⟩ := run_scanTrack L c.tap.device.link.port .dr buf h1
  have hk := ha.lt_length
  have hlen := length_flatten_lanes hk v
  rw [hr.start_regs, ha.captures hB, hbits] at houts hrun
  have hys : (Series.shifts (lanes c.tap.cores.length k (L.capture .dr d))
      (lanes c.tap.cores.length k v).flatten).1.length = c.tap.cores.length := by
    rw [Series.length_shifts, length_lanes]
  have hstart : (shiftStart L c.tap.device.link.port .dr).target.length = c.tap.cores.length := by
    rw [← List.length_map (f := Device.core), hr.start_cores]
  have hcores : dev.link.port.target.map Device.core = List.zipWith (L.update .dr) c.tap.cores
      (Series.shifts (lanes c.tap.cores.length k (L.capture .dr d)) (lanes c.tap.cores.length k v).flatten).1 := by
    rw [hc.port, ← hr.synced.state, hrun, Device.map_core_update, hr.start_cores]
  refine ⟨_, ?_, ⟨hs, rfl, hdel⟩, ?_, ?_⟩
  · rw [e, TapController.trackSamples, ← hr.synced.state, ← shiftStart, houts, Series.outs_shifts_eq, hlen]
  · show Alone InBypass k _ (dev.link.port.target.map Device.core)
    have := ha.update hB hys
    rw [List.getD_eq_getElem _ _ (by rw [hys]; exact hk), getElem_shifts_lanes hk] at this
    rwa [hcores]
  · show (dev.link.port.target.map Device.core).map L.irWidth = _
    rw [hcores, irWidths_zipWith L .dr hys]

end JtagChain

end OwlTap.Jtag
