import OwlTap.Base.Ring

/-!
# The capture state machine of the logic analyser

`ila_capture_fsm` stores valid samples in a ring of `2 ^ addrW` words from `arm` on, and
stops a number of samples after the trigger, which its header gives as the depth less
`pre_samples`. A `Capture` is a run from `arm` until FULL. It stores the valid samples one
after the other from address 0 on (`Capture.shape`); how many come after the trigger is
counted in registers as wide as an address, which the depth itself does not fit in.
-/

namespace OwlTap.Ila

variable {addrW : ℕ} {α : Type*}

/-- The states of the machine. -/
inductive CaptureState where
  | idle | armed | triggered | full
  deriving DecidableEq, Repr

/-- The registers of `ila_capture_fsm`. -/
structure CaptureFsm (addrW : ℕ) where
  /-- The state. -/
  state : CaptureState
  /-- Where the next sample goes. -/
  writeAddr : BitVec addrW
  /-- Where the sample at the trigger went. -/
  triggerAddr : BitVec addrW
  /-- How many samples have come since. -/
  postCnt : BitVec addrW
  deriving DecidableEq, Repr

namespace CaptureFsm

/-- The inputs in one cycle of the sample clock, `pre_samples` apart. -/
structure Inputs where
  /-- Begin a capture. -/
  arm : Bool := false
  /-- End it. -/
  stop : Bool := false
  /-- Drop it. -/
  resetCapture : Bool := false
  /-- Trigger without a match. -/
  forceTrig : Bool := false
  /-- There is a sample. -/
  validIn : Bool := false
  /-- The comparator has matched. -/
  trigMatch : Bool := false
  deriving DecidableEq, Repr

/-- The registers after a reset. -/
def reset : CaptureFsm addrW := ⟨.idle, 0, 0, 0⟩

/-- A sample is stored. -/
def writeEn (i : Inputs) (s : CaptureFsm addrW) : Bool :=
  i.validIn && (s.state == .armed || s.state == .triggered)

/-- The post-trigger target: the depth less `pre_samples`, a bit wider than an address. -/
def postTarget (preSamples : BitVec addrW) : BitVec (addrW + 1) :=
  BitVec.ofNat (addrW + 1) (2 ^ addrW) - preSamples.setWidth (addrW + 1)

/-- The next state. -/
def nextState (preSamples : BitVec addrW) (i : Inputs) (s : CaptureFsm addrW) : CaptureState :=
  match s.state with
  | .idle => if i.arm then .armed else .idle
  | .armed =>
    if i.resetCapture || i.stop then .idle
    else if i.validIn && (i.trigMatch || i.forceTrig) then .triggered
    else .armed
  | .triggered =>
    if i.resetCapture then .idle
    else if i.stop then .full
    -- the target is compared without its top bit
    else if i.validIn && decide ((postTarget preSamples).setWidth addrW ≤ s.postCnt + 1) then .full
    else .triggered
  | .full => if i.resetCapture || i.arm then .idle else .full

/-- One cycle of the sample clock. -/
def clock (preSamples : BitVec addrW) (i : Inputs) (s : CaptureFsm addrW) : CaptureFsm addrW :=
  let next := nextState preSamples i s
  let start := s.state == .idle && next == .armed
  { state := next
    writeAddr := if start then 0 else if writeEn i s then s.writeAddr + 1 else s.writeAddr
    triggerAddr := if s.state == .armed && next == .triggered then s.writeAddr else if start then 0 else s.triggerAddr
    postCnt :=
      if next == .idle then 0
      else if s.state == .triggered && writeEn i s then s.postCnt + 1
      else if start then 0
      else s.postCnt }

/-- The registers after a run; with each cycle comes what is on `data_in`. -/
def run (p : BitVec addrW) (s : CaptureFsm addrW) (ins : List (Inputs × α)) : CaptureFsm addrW :=
  ins.foldl (fun s i => clock p i.1 s) s

/-- The state during each cycle of a run. -/
def visits (p : BitVec addrW) : CaptureFsm addrW → List (Inputs × α) → List CaptureState
  | _, [] => []
  | s, i :: ins => s.state :: visits p (clock p i.1 s) ins

/-- A sample that is stored: the state in which it is, the address, and the data. -/
structure Stored (addrW : ℕ) (α : Type*) where
  /-- The state. -/
  during : CaptureState
  /-- The address. -/
  addr : BitVec addrW
  /-- The data. -/
  data : α
  deriving DecidableEq

/-- What a run stores, in order. -/
def stored (p : BitVec addrW) : CaptureFsm addrW → List (Inputs × α) → List (Stored addrW α)
  | _, [] => []
  | s, i :: ins =>
    if writeEn i.1 s then ⟨s.state, s.writeAddr, i.2⟩ :: stored p (clock p i.1 s) ins
    else stored p (clock p i.1 s) ins

/-- A capture: the machine is armed in the first cycle, is then ARMED or TRIGGERED, and is FULL at
the end. -/
structure Capture (p : BitVec addrW) (s : CaptureFsm addrW) (ins : List (Inputs × α)) : Prop where
  /-- The first cycle finds it idle. -/
  begins : (visits p s ins).head? = some .idle
  /-- Then it is neither idle nor full. -/
  during : ∀ q ∈ (visits p s ins).tail, q = .armed ∨ q = .triggered
  /-- At the end it is full. -/
  ends : (run p s ins).state = .full

instance (p : BitVec addrW) (s : CaptureFsm addrW) (ins : List (Inputs × α)) : Decidable (Capture p s ins) :=
  decidable_of_iff ((visits p s ins).head? = some .idle ∧ (∀ q ∈ (visits p s ins).tail, q = .armed ∨ q = .triggered) ∧
    (run p s ins).state = .full) ⟨fun ⟨hb, hd, he⟩ => ⟨hb, hd, he⟩, fun ⟨hb, hd, he⟩ => ⟨hb, hd, he⟩⟩

/-- A capture that is forced with its first sample, with a sample in every cycle. -/
def forced (x : α) (xs : List α) : List (Inputs × α) :=
  ({ arm := true }, x) :: ({ validIn := true, forceTrig := true }, x) :: xs.map fun y => ({ validIn := true }, y)

/-! ### What is stored while armed and triggered -/

/-- Samples at consecutive addresses, all stored in one state. -/
def segment (q : CaptureState) (a : BitVec addrW) (xs : List α) : List (Stored addrW α) :=
  xs.mapIdx fun j x => ⟨q, a + BitVec.ofNat addrW j, x⟩

theorem segment_cons (q : CaptureState) (a : BitVec addrW) (x : α) (xs : List α) :
    segment q a (x :: xs) = ⟨q, a, x⟩ :: segment q (a + 1) xs := by
  rw [segment, List.mapIdx_cons, segment]
  congr 1
  · simp
  · congr 1
    funext j y
    rw [Nat.add_comm j 1, BitVec.ofNat_add, ← BitVec.add_assoc]
    rfl

@[simp] theorem map_data_segment (q : CaptureState) (a : BitVec addrW) (xs : List α) :
    (segment q a xs).map Stored.data = xs := by
  apply List.ext_getElem
  · simp [segment]
  · intro i h₁ h₂
    simp [segment]

theorem map_addr_segment (q : CaptureState) (a : BitVec addrW) (xs : List α) :
    (segment q a xs).map Stored.addr = (List.range xs.length).map fun j => a + BitVec.ofNat addrW j := by
  apply List.ext_getElem
  · simp [segment]
  · intro i h₁ h₂
    simp [segment]

theorem during_segment {q : CaptureState} {a : BitVec addrW} {xs : List α} {w : Stored addrW α}
    (h : w ∈ segment q a xs) : w.during = q := by
  obtain ⟨j, hj, rfl⟩ := List.mem_mapIdx.mp h
  rfl

/-- The valid samples of a run. -/
def valids (ins : List (Inputs × α)) : List α := (ins.filter fun i => i.1.validIn).map Prod.snd

theorem valids_cons (i : Inputs × α) (ins : List (Inputs × α)) :
    valids (i :: ins) = if i.1.validIn then i.2 :: valids ins else valids ins := by
  rw [valids, List.filter_cons]
  split <;> rfl

/-- How many samples are stored after the trigger unless there is a stop: the target without its
top bit, but one at least. -/
def postCount (p : BitVec addrW) : ℕ := max 1 ((postTarget p).setWidth addrW).toNat

theorem toNat_postTarget (p : BitVec addrW) :
    ((postTarget p).setWidth addrW).toNat = if p = 0 then 0 else 2 ^ addrW - p.toNat := by
  have hp : p.toNat < 2 ^ addrW := p.isLt
  have hpow : 2 ^ (addrW + 1) = 2 ^ addrW + 2 ^ addrW := by rw [Nat.pow_succ]; omega
  rw [BitVec.toNat_setWidth, postTarget, BitVec.toNat_sub, BitVec.toNat_ofNat, BitVec.toNat_setWidth,
    Nat.mod_eq_of_lt (show p.toNat < 2 ^ (addrW + 1) by omega),
    Nat.mod_eq_of_lt (show 2 ^ addrW < 2 ^ (addrW + 1) by omega),
    show 2 ^ (addrW + 1) - p.toNat + 2 ^ addrW = 2 ^ addrW - p.toNat + 2 ^ (addrW + 1) by omega,
    Nat.add_mod_right]
  split
  · next h =>
    have h0 : p.toNat = 0 := by rw [h]; rfl
    rw [h0, Nat.sub_zero, Nat.mod_eq_of_lt (show 2 ^ addrW < 2 ^ (addrW + 1) by omega), Nat.mod_self]
  · next h =>
    have : 0 < p.toNat := Nat.pos_of_ne_zero fun h0 => h (BitVec.eq_of_toNat_eq (by simpa using h0))
    rw [Nat.mod_eq_of_lt (show 2 ^ addrW - p.toNat < 2 ^ (addrW + 1) by omega), Nat.mod_eq_of_lt (by omega)]

theorem postCount_eq (p : BitVec addrW) : postCount p = if p = 0 then 1 else 2 ^ addrW - p.toNat := by
  have hp : p.toNat < 2 ^ addrW := p.isLt
  rw [postCount, toNat_postTarget]
  split
  · rfl
  · omega

/-- Until a run that ends in FULL is over, the machine is in one of the two states of the middle. -/
theorem state_of_during {p : BitVec addrW} {s : CaptureFsm addrW} {ins : List (Inputs × α)}
    (hv : ∀ q ∈ visits p s ins, q = .armed ∨ q = .triggered) (he : (run p s ins).state = .full) :
    s.state = .armed ∨ s.state = .triggered ∨ s.state = .full ∧ ins = [] := by
  cases ins with
  | nil => exact .inr (.inr ⟨he, rfl⟩)
  | cons i ins =>
    rcases hv s.state List.mem_cons_self with h | h
    · exact .inl h
    · exact .inr (.inl h)

/-- A cycle in ARMED. -/
theorem clock_armed (p : BitVec addrW) (i : Inputs) {s : CaptureFsm addrW} (hs : s.state = .armed)
    (hn : (clock p i s).state ≠ .idle) :
    (clock p i s).writeAddr = (if i.validIn then s.writeAddr + 1 else s.writeAddr) ∧
      (clock p i s).postCnt = s.postCnt ∧
      ((clock p i s).state = .armed ∨ i.validIn = true ∧ clock p i s = ⟨.triggered, s.writeAddr + 1, s.writeAddr, s.postCnt⟩) := by
  obtain ⟨state, writeAddr, triggerAddr, postCnt⟩ := s
  obtain rfl : state = .armed := hs
  by_cases hdrop : (i.resetCapture || i.stop) = true
  · exact absurd (if_pos hdrop) hn
  · by_cases htrig : (i.validIn && (i.trigMatch || i.forceTrig)) = true
    · have hvalid : i.validIn = true := (Bool.and_eq_true_iff.mp htrig).1
      have hnext : nextState p i ⟨.armed, writeAddr, triggerAddr, postCnt⟩ = .triggered := by
        simp only [nextState, if_neg hdrop, if_pos htrig]
      simp [clock, hnext, writeEn, hvalid]
    · have hnext : nextState p i ⟨.armed, writeAddr, triggerAddr, postCnt⟩ = .armed := by
        simp only [nextState, if_neg hdrop, if_neg htrig]
      simp [clock, hnext, writeEn]

/-- A cycle in TRIGGERED. -/
theorem clock_triggered (p : BitVec addrW) (i : Inputs) {s : CaptureFsm addrW} (hs : s.state = .triggered)
    (hn : (clock p i s).state ≠ .idle) :
    (clock p i s).writeAddr = (if i.validIn then s.writeAddr + 1 else s.writeAddr) ∧
      (clock p i s).postCnt = (if i.validIn then s.postCnt + 1 else s.postCnt) ∧
      (clock p i s).triggerAddr = s.triggerAddr ∧ (clock p i s).state ≠ .armed ∧
      (i.stop = false → ((clock p i s).state = .full ↔
        i.validIn = true ∧ (postTarget p).setWidth addrW ≤ s.postCnt + 1)) := by
  obtain ⟨state, writeAddr, triggerAddr, postCnt⟩ := s
  obtain rfl : state = .triggered := hs
  have hreset : ¬i.resetCapture = true := fun h => hn (if_pos h)
  have hnext : nextState p i ⟨.triggered, writeAddr, triggerAddr, postCnt⟩ = .full ∨
      nextState p i ⟨.triggered, writeAddr, triggerAddr, postCnt⟩ = .triggered := by
    simp only [nextState, if_neg hreset]
    by_cases hstop : i.stop = true
    · exact .inl (if_pos hstop)
    · rw [if_neg hstop]
      by_cases hfull : (i.validIn && decide ((postTarget p).setWidth addrW ≤ postCnt + 1)) = true
      · exact .inl (if_pos hfull)
      · exact .inr (if_neg hfull)
  refine ⟨?_, ?_, ?_, ?_, fun hstop => ?_⟩
  · rcases hnext with h | h <;> simp [clock, h, writeEn]
  · rcases hnext with h | h <;> simp [clock, h, writeEn]
  · rcases hnext with h | h <;> simp [clock, h]
  · rcases hnext with h | h <;> simp [clock, h]
  · show nextState p i ⟨.triggered, writeAddr, triggerAddr, postCnt⟩ = .full ↔ _
    simp [nextState, hreset, hstop]

theorem toNat_add_one_le (b : BitVec addrW) : (b + 1).toNat ≤ b.toNat + 1 := by
  rw [BitVec.toNat_add]
  exact Nat.le_trans (Nat.mod_le _ _) (Nat.add_le_add_left (Nat.mod_le _ _) _)

theorem toNat_add_one {b : BitVec addrW} (h : b.toNat + 1 < 2 ^ addrW) : (b + 1).toNat = b.toNat + 1 := by
  have h1 : (1 : BitVec addrW).toNat = 1 := (BitVec.toNat_ofNat 1 addrW).trans (Nat.mod_eq_of_lt (by omega))
  rw [BitVec.toNat_add, h1, Nat.mod_eq_of_lt h]

/-- In TRIGGERED every valid sample is stored, until the count is reached. -/
theorem stored_triggered (p : BitVec addrW) {s : CaptureFsm addrW} (hs : s.state = .triggered)
    {ins : List (Inputs × α)} (hv : ∀ q ∈ visits p s ins, q = .armed ∨ q = .triggered)
    (he : (run p s ins).state = .full) :
    stored p s ins = segment .triggered s.writeAddr (valids ins) ∧ (run p s ins).triggerAddr = s.triggerAddr ∧
      ((∀ i ∈ ins, i.1.stop = false) → s.postCnt.toNat + 1 ≤ postCount p →
        s.postCnt.toNat + (valids ins).length = postCount p) := by
  induction ins generalizing s with
  | nil => exact absurd (hs.symm.trans he) (by decide)
  | cons i ins ih =>
    have hv' : ∀ q ∈ visits p (clock p i.1 s) ins, q = .armed ∨ q = .triggered := fun q hq =>
      hv q (List.mem_cons_of_mem _ hq)
    have hmid := state_of_during hv' he
    obtain ⟨hwrite, hcount, htrig, hna, hfull⟩ := clock_triggered p i.1 hs (by rcases hmid with h | h | ⟨h, -⟩ <;> simp [h])
    have hen : writeEn i.1 s = i.1.validIn := by simp [writeEn, hs]
    have hmid : (clock p i.1 s).state = .triggered ∨ (clock p i.1 s).state = .full ∧ ins = [] := hmid.resolve_left hna
    have hrest : stored p (clock p i.1 s) ins = segment .triggered (clock p i.1 s).writeAddr (valids ins) ∧
        (run p (clock p i.1 s) ins).triggerAddr = (clock p i.1 s).triggerAddr := by
      rcases hmid with h | ⟨-, rfl⟩
      · exact ⟨(ih h hv' he).1, (ih h hv' he).2.1⟩
      · exact ⟨rfl, rfl⟩
    refine ⟨?_, hrest.2.trans htrig, fun hstop hle => ?_⟩
    · rw [stored, hen, hrest.1, hwrite, valids_cons, hs]
      by_cases hi : i.1.validIn = true
      · rw [if_pos hi, if_pos hi, if_pos hi, segment_cons]
      · rw [if_neg hi, if_neg hi, if_neg hi]
    · have hfull := hfull (hstop i List.mem_cons_self)
      have ih := fun h => (ih h hv' he).2.2 fun j hj => hstop j (List.mem_cons_of_mem _ hj)
      rw [valids_cons]
      by_cases hi : i.1.validIn = true
      · rw [if_pos hi] at hcount ⊢
        rw [List.length_cons]
        have hT : ((postTarget p).setWidth addrW).toNat < 2 ^ addrW := BitVec.isLt _
        have hmax : postCount p = max 1 ((postTarget p).setWidth addrW).toNat := rfl
        by_cases hreach : (postTarget p).setWidth addrW ≤ s.postCnt + 1
        · -- the machine is full, and this was the last cycle
          have hnil : ins = [] := by
            rcases hmid with h | ⟨-, h⟩
            · exact absurd (h.symm.trans (hfull.mpr ⟨hi, hreach⟩)) (by decide)
            · exact h
          have hT' : ((postTarget p).setWidth addrW).toNat ≤ (s.postCnt + 1).toNat := hreach
          have hwrap := toNat_add_one_le s.postCnt
          rw [hnil]
          show s.postCnt.toNat + (0 + 1) = _
          omega
        · have htriggered : (clock p i.1 s).state = .triggered := by
            rcases hmid with h | ⟨h, -⟩
            · exact h
            · exact absurd (hfull.mp h).2 hreach
          have hT' : ¬((postTarget p).setWidth addrW).toNat ≤ (s.postCnt + 1).toNat := hreach
          have hnowrap := toNat_add_one (b := s.postCnt) (by omega)
          have ih := ih htriggered
          rw [hcount, hnowrap] at ih
          have := ih (by omega)
          omega
      · rw [if_neg hi] at hcount ⊢
        have htriggered : (clock p i.1 s).state = .triggered := by
          rcases hmid with h | ⟨h, -⟩
          · exact h
          · exact absurd (hfull.mp h).1 hi
        have ih := ih htriggered
        rw [hcount] at ih
        exact ih hle

/-- In ARMED every valid sample is stored, and the last one is the one at the trigger. -/
theorem stored_armed (p : BitVec addrW) {s : CaptureFsm addrW} (hs : s.state = .armed)
    {ins : List (Inputs × α)} (hv : ∀ q ∈ visits p s ins, q = .armed ∨ q = .triggered)
    (he : (run p s ins).state = .full) :
    ∃ pre x post, valids ins = pre ++ x :: post ∧
      stored p s ins = segment .armed s.writeAddr (pre ++ [x]) ++
        segment .triggered (s.writeAddr + BitVec.ofNat addrW (pre.length + 1)) post ∧
      (run p s ins).triggerAddr = s.writeAddr + BitVec.ofNat addrW pre.length ∧
      ((∀ i ∈ ins, i.1.stop = false) → s.postCnt = 0 → post.length = postCount p) := by
  induction ins generalizing s with
  | nil => exact absurd (hs.symm.trans he) (by decide)
  | cons i ins ih =>
    have hv' : ∀ q ∈ visits p (clock p i.1 s) ins, q = .armed ∨ q = .triggered := fun q hq =>
      hv q (List.mem_cons_of_mem _ hq)
    have hmid := state_of_during hv' he
    obtain ⟨hwrite, hcount, hnext⟩ := clock_armed p i.1 hs (by rcases hmid with h | h | ⟨h, -⟩ <;> simp [h])
    have hen : writeEn i.1 s = i.1.validIn := by simp [writeEn, hs]
    rw [stored, hen, valids_cons, hs]
    rcases hnext with harmed | ⟨hi, htrig⟩
    · obtain ⟨pre, x, post, hval, hsto, haddr, hpost⟩ := ih harmed hv' he
      have hpost : (∀ j ∈ i :: ins, j.1.stop = false) → s.postCnt = 0 → post.length = postCount p := fun h h0 =>
        hpost (fun j hj => h j (List.mem_cons_of_mem _ hj)) (hcount.trans h0)
      by_cases hi : i.1.validIn = true
      · rw [if_pos hi] at hwrite
        refine ⟨i.2 :: pre, x, post, ?_, ?_, ?_, hpost⟩
        · rw [if_pos hi, hval]; rfl
        · rw [if_pos hi, hsto, hwrite, List.cons_append, segment_cons, List.cons_append, List.length_cons,
            Nat.add_comm (pre.length + 1) 1, BitVec.ofNat_add 1, ← BitVec.add_assoc]
          rfl
        · rw [List.length_cons, Nat.add_comm pre.length 1, BitVec.ofNat_add, ← BitVec.add_assoc]
          exact haddr.trans (by rw [hwrite]; rfl)
      · rw [if_neg hi] at hwrite ⊢
        rw [if_neg hi]
        exact ⟨pre, x, post, hval, hwrite ▸ hsto, hwrite ▸ haddr, hpost⟩
    · have he' : (run p (clock p i.1 s) ins).state = .full := he
      rw [htrig] at hv' he'
      obtain ⟨hsto, haddr, hpost⟩ := stored_triggered p rfl hv' he'
      refine ⟨[], i.2, valids ins, ?_, ?_, ?_, fun hstop h0 => ?_⟩
      · rw [if_pos hi]; rfl
      · rw [if_pos hi, htrig, hsto]
        simp [segment]
      · have haddr : (run p s (i :: ins)).triggerAddr = s.writeAddr := by
          rw [run, List.foldl_cons, htrig]
          exact haddr
        rw [haddr]
        simp
      · have := hpost (fun j hj => hstop j (List.mem_cons_of_mem _ hj))
        rw [h0] at this
        have hp : 1 ≤ postCount p := Nat.le_max_left _ _
        simpa using this (by simpa using hp)

/-- What a capture stores: the valid samples since `arm`, one after the other from address 0 on. -/
theorem Capture.shape {p : BitVec addrW} {s : CaptureFsm addrW} {ins : List (Inputs × α)} (h : Capture p s ins) :
    ∃ pre x post, valids ins.tail = pre ++ x :: post ∧
      stored p s ins = segment .armed 0 (pre ++ [x]) ++
        segment .triggered (BitVec.ofNat addrW (pre.length + 1)) post ∧
      (run p s ins).triggerAddr = BitVec.ofNat addrW pre.length ∧
      ((∀ i ∈ ins, i.1.stop = false) → post.length = postCount p) := by
  obtain ⟨hb, hv, he⟩ := h
  cases ins with
  | nil => simp [visits] at hb
  | cons i ins =>
    obtain ⟨state, writeAddr, triggerAddr, postCnt⟩ := s
    obtain rfl : state = .idle := Option.some.inj hb
    have hclock : clock p i.1 ⟨.idle, writeAddr, triggerAddr, postCnt⟩ = ⟨.armed, 0, 0, 0⟩ := by
      by_cases harm : i.1.arm = true
      · simp [clock, nextState, harm]
      · have hidle : (clock p i.1 ⟨.idle, writeAddr, triggerAddr, postCnt⟩).state = .idle := if_neg harm
        rcases state_of_during hv he with h | h | ⟨h, -⟩ <;> exact absurd (hidle.symm.trans h) (by decide)
    have hv' : ∀ q ∈ visits p (clock p i.1 ⟨.idle, writeAddr, triggerAddr, postCnt⟩) ins, q = .armed ∨ q = .triggered := hv
    have he' : (run p (clock p i.1 ⟨.idle, writeAddr, triggerAddr, postCnt⟩) ins).state = .full := he
    rw [hclock] at hv' he'
    obtain ⟨pre, x, post, hval, hsto, haddr, hpost⟩ := stored_armed p rfl hv' he'
    refine ⟨pre, x, post, hval, ?_, ?_, fun hstop => hpost (fun j hj => hstop j (List.mem_cons_of_mem _ hj)) rfl⟩
    · rw [stored, hclock, hsto]
      simp [writeEn]
    · rw [run, List.foldl_cons, hclock]
      exact haddr.trans (by simp)

/-- In FULL nothing is stored. -/
theorem stored_full {p : BitVec addrW} {s : CaptureFsm addrW} {ins : List (Inputs × α)}
    (h : ∀ q ∈ visits p s ins, q = .full) : stored p s ins = [] := by
  induction ins generalizing s with
  | nil => rfl
  | cons i ins ih =>
    have hs : s.state = .full := h _ List.mem_cons_self
    have hen : writeEn i.1 s = false := by simp [writeEn, hs]
    rw [stored, hen, ih fun q hq => h q (List.mem_cons_of_mem _ hq)]
    rfl

/-! ### The samples after the trigger -/

/-- What a run stores in one state. -/
def storedIn (q : CaptureState) (p : BitVec addrW) (s : CaptureFsm addrW) (ins : List (Inputs × α)) :
    List (Stored addrW α) :=
  (stored p s ins).filter fun w => w.during == q

theorem filter_segment (q q' : CaptureState) (a : BitVec addrW) (xs : List α) :
    (segment q a xs).filter (fun w => w.during == q') = if q = q' then segment q a xs else [] := by
  split
  · next h => exact List.filter_eq_self.mpr fun w hw => by simp [during_segment hw, h]
  · next h => exact List.filter_eq_nil_iff.mpr fun w hw => by simp [during_segment hw, h]

/-- The last sample stored in ARMED is the one at `trigger_addr`, and then the depth less
`pre_samples` samples are stored at the next addresses. -/
def PostTrigger (p : BitVec addrW) (s : CaptureFsm addrW) (ins : List (Inputs × α)) : Prop :=
  (storedIn .armed p s ins).getLast?.map Stored.addr = some (run p s ins).triggerAddr ∧
    (storedIn .triggered p s ins).map Stored.addr =
      (List.range (2 ^ addrW - p.toNat)).map fun j => (run p s ins).triggerAddr + 1 + BitVec.ofNat addrW j

instance (p : BitVec addrW) (s : CaptureFsm addrW) (ins : List (Inputs × α)) : Decidable (PostTrigger p s ins) :=
  inferInstanceAs (Decidable (_ ∧ _))

/-- Only the number of samples after the trigger is in question. -/
theorem postTrigger_of_shape {p : BitVec addrW} {s : CaptureFsm addrW} {ins : List (Inputs × α)} {pre post : List α}
    {x : α} (hsto : stored p s ins = segment .armed 0 (pre ++ [x]) ++
      segment .triggered (BitVec.ofNat addrW (pre.length + 1)) post)
    (haddr : (run p s ins).triggerAddr = BitVec.ofNat addrW pre.length) :
    PostTrigger p s ins ↔ post.length = 2 ^ addrW - p.toNat := by
  have harmed : storedIn .armed p s ins = segment .armed 0 (pre ++ [x]) := by
    rw [storedIn, hsto, List.filter_append, filter_segment, filter_segment, if_pos rfl, if_neg (by decide),
      List.append_nil]
  have htriggered : storedIn .triggered p s ins = segment .triggered (BitVec.ofNat addrW (pre.length + 1)) post := by
    rw [storedIn, hsto, List.filter_append, filter_segment, filter_segment, if_pos rfl, if_neg (by decide),
      List.nil_append]
  have hlast : (storedIn .armed p s ins).getLast?.map Stored.addr = some (run p s ins).triggerAddr := by
    rw [harmed, haddr, ← List.getLast?_map, map_addr_segment, List.length_append, List.length_singleton,
      List.range_succ, List.map_append]
    simp
  rw [PostTrigger, htriggered, map_addr_segment, haddr, BitVec.ofNat_add]
  constructor
  · rintro ⟨-, h⟩
    simpa using congrArg List.length h
  · intro h
    exact ⟨by rw [← haddr]; exact hlast, by rw [h]; rfl⟩

/-- **Samples after the trigger.** A capture without a stop stores the depth less `pre_samples`
samples after the one at the trigger, and in FULL none, if and only if `pre_samples` is not 0: the
depth itself needs a bit more than the comparison has. -/
theorem postTrigger_iff {p : BitVec addrW} {s : CaptureFsm addrW} {ins : List (Inputs × α)} (h : Capture p s ins)
    (hstop : ∀ i ∈ ins, i.1.stop = false) :
    (PostTrigger p s ins ∧ ∀ more : List (Inputs × α),
      (∀ q ∈ visits p (run p s ins) more, q = .full) → stored p (run p s ins) more = []) ↔ p ≠ 0 ∨ addrW = 0 := by
  obtain ⟨pre, x, post, -, hsto, haddr, hpost⟩ := h.shape
  rw [postTrigger_of_shape hsto haddr, hpost hstop, postCount_eq]
  have hpow : 2 ^ addrW = 1 ↔ addrW = 0 := by
    rw [Nat.pow_eq_one]
    simp
  by_cases hp : p = 0
  · have h0 : p.toNat = 0 := by rw [hp]; rfl
    rw [if_pos hp, h0, Nat.sub_zero, eq_comm, hpow]
    exact ⟨fun h => .inr h.1, fun h => ⟨h.resolve_left fun hne => hne hp, fun more => stored_full⟩⟩
  · rw [if_neg hp]
    exact ⟨fun _ => .inl hp, fun _ => ⟨rfl, fun more => stored_full⟩⟩

theorem postTrigger_three : PostTrigger (1 : BitVec 2) reset (forced 7 [8, 9, 10]) :=
  ((postTrigger_iff (p := 1) (s := reset) (by decide) (by decide)).mpr (.inl (by decide))).1

/-- With the default of 0 one sample comes after the trigger instead of four. -/
theorem not_postTrigger_zero : Capture (0 : BitVec 2) reset (forced 7 [8]) ∧
    (∀ i ∈ forced 7 [8], i.1.stop = false) ∧ ¬PostTrigger (0 : BitVec 2) reset (forced 7 [8]) := by
  decide

end CaptureFsm

end OwlTap.Ila
