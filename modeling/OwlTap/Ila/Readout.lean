import OwlTap.Ila.CaptureFsm

/-!
# Reading a capture out

`ila_bram` holds the samples that the machine stores. Reading as many words as it has from
an address on gives the last samples in the order in which they came, with `pre_samples`
before the one at the trigger, only if exactly that many others have come after it and the
address is that of the oldest (`CaptureCore.chronological_read`). The README starts
`pre_samples` before the trigger, but then the machine has stored one sample too many.
-/

namespace OwlTap.Ila

open CaptureFsm

variable {addrW : ℕ} {α : Type*}

/-- The capture state machine with its memory. -/
structure CaptureCore (addrW : ℕ) (α : Type*) where
  /-- The machine. -/
  fsm : CaptureFsm addrW
  /-- The words of `ila_bram`. -/
  mem : BitVec addrW → α

namespace CaptureCore

/-- One cycle of the sample clock: `ila_bram` takes the sample while the machine says so. -/
def clock (p : BitVec addrW) (i : Inputs × α) (c : CaptureCore addrW α) : CaptureCore addrW α where
  fsm := c.fsm.clock p i.1
  mem := if c.fsm.writeEn i.1 then Function.update c.mem c.fsm.writeAddr i.2 else c.mem

/-- The core after a run. -/
def run (p : BitVec addrW) (c : CaptureCore addrW α) (ins : List (Inputs × α)) : CaptureCore addrW α :=
  ins.foldl (fun c i => c.clock p i) c

theorem fsm_run (p : BitVec addrW) (c : CaptureCore addrW α) (ins : List (Inputs × α)) :
    (c.run p ins).fsm = c.fsm.run p ins := by
  induction ins generalizing c with
  | nil => rfl
  | cons i ins ih => exact ih (c.clock p i)

/-- What samples that are stored make of the memory. -/
def write (mem : BitVec addrW → α) (ws : List (Stored addrW α)) : BitVec addrW → α :=
  ws.foldl (fun mem w => Function.update mem w.addr w.data) mem

/-- The memory holds what the machine has stored. -/
theorem mem_run (p : BitVec addrW) (c : CaptureCore addrW α) (ins : List (Inputs × α)) :
    (c.run p ins).mem = write c.mem (c.fsm.stored p ins) := by
  induction ins generalizing c with
  | nil => rfl
  | cons i ins ih =>
    have h := ih (c.clock p i)
    rw [stored]
    by_cases hw : c.fsm.writeEn i.1 = true
    · rw [if_pos hw]
      exact h.trans (by rw [clock, if_pos hw]; rfl)
    · rw [if_neg hw]
      exact h.trans (by rw [clock, if_neg hw])

theorem write_segment (mem : BitVec addrW → α) (q : CaptureState) (a : BitVec addrW) (xs : List α) :
    write mem (segment q a xs) = Ring.store mem a xs := by
  induction xs generalizing mem a with
  | nil => rfl
  | cons x xs ih =>
    rw [segment_cons]
    exact ih (Function.update mem a x) (a + 1)

/-- A capture, with the data it has stored before, at and after the trigger. -/
structure Holds (p : BitVec addrW) (c : CaptureCore addrW α) (ins : List (Inputs × α)) (pre : List α) (x : α)
    (post : List α) : Prop where
  /-- What has been stored until the trigger. -/
  armed : (storedIn .armed p c.fsm ins).map Stored.data = pre ++ [x]
  /-- What has been stored after it. -/
  triggered : (storedIn .triggered p c.fsm ins).map Stored.data = post
  /-- The memory has been written from address 0 on. -/
  mem : (c.run p ins).mem = Ring.store c.mem 0 (pre ++ x :: post)
  /-- The address of the sample at the trigger. -/
  addr : (c.run p ins).fsm.triggerAddr = BitVec.ofNat addrW pre.length
  /-- Its samples are the valid ones since `arm`. -/
  valid : valids ins.tail = pre ++ x :: post
  /-- How many came after the trigger. -/
  count : (∀ i ∈ ins, i.1.stop = false) → post.length = postCount p

theorem holds_of_capture {p : BitVec addrW} {c : CaptureCore addrW α} {ins : List (Inputs × α)}
    (h : Capture p c.fsm ins) : ∃ pre x post, Holds p c ins pre x post := by
  obtain ⟨pre, x, post, hval, hsto, haddr, hcount⟩ := h.shape
  refine ⟨pre, x, post, ⟨?_, ?_, ?_, ?_, hval, hcount⟩⟩
  · rw [storedIn, hsto, List.filter_append, filter_segment, filter_segment, if_pos rfl, if_neg (by decide),
      List.append_nil, map_data_segment]
  · rw [storedIn, hsto, List.filter_append, filter_segment, filter_segment, if_pos rfl, if_neg (by decide),
      List.nil_append, map_data_segment]
  · have hsplit : pre ++ x :: post = (pre ++ [x]) ++ post := by simp
    rw [mem_run, hsto, write, List.foldl_append, ← write, ← write, write_segment, write_segment, hsplit,
      Ring.store_append c.mem 0 (pre ++ [x]) post]
    simp
  · rw [fsm_run, haddr]

/-- The words are the last samples stored, oldest first, `pre_samples` of them before the one at
the trigger. -/
def Chronological (p : BitVec addrW) (c : CaptureCore addrW α) (ins : List (Inputs × α)) (words : List α) : Prop :=
  ∃ old pre x post, (storedIn .armed p c.fsm ins).map Stored.data = old ++ pre ++ [x] ∧
    (storedIn .triggered p c.fsm ins).map Stored.data = post ∧ pre.length = p.toNat ∧ words = pre ++ x :: post

namespace Holds

variable {p : BitVec addrW} {c : CaptureCore addrW α} {ins : List (Inputs × α)} {pre : List α} {x : α} {post : List α}

/-- With the memory full of the right number of samples, they are in order from the oldest on. -/
theorem chronological_read (h : Holds p c ins pre x post) (hp : p.toNat ≤ pre.length)
    (hn : p.toNat + 1 + post.length = 2 ^ addrW) :
    Chronological p c ins (Ring.read (c.run p ins).mem ((c.run p ins).fsm.triggerAddr - p) (2 ^ addrW)) := by
  obtain ⟨old, new, rfl, hnew⟩ : ∃ old new, pre = old ++ new ∧ new.length = p.toNat :=
    ⟨pre.take (pre.length - p.toNat), pre.drop (pre.length - p.toNat), (List.take_append_drop _ _).symm,
      by rw [List.length_drop]; omega⟩
  have hlen : (new ++ x :: post).length = 2 ^ addrW := by
    rw [List.length_append, List.length_cons]
    omega
  have haddr : (c.run p ins).fsm.triggerAddr - p = 0 + BitVec.ofNat addrW old.length := by
    rw [h.addr, List.length_append, hnew, BitVec.ofNat_add, BitVec.ofNat_toNat, BitVec.setWidth_eq,
      BitVec.add_sub_cancel]
    simp
  refine ⟨old, new, x, post, h.armed, h.triggered, hnew, ?_⟩
  rw [h.mem, haddr, List.append_assoc, ← hlen]
  exact Ring.read_store c.mem 0 old (Nat.le_of_eq hlen)

/-- Words in order are as many as fit around the trigger. -/
theorem lengths_of_chronological (h : Holds p c ins pre x post) {words : List α}
    (hc : Chronological p c ins words) : p.toNat ≤ pre.length ∧ words.length = p.toNat + 1 + post.length := by
  obtain ⟨old, pre', x', post', harmed, htriggered, hl, rfl⟩ := hc
  have hpre := congrArg List.length (h.armed.symm.trans harmed)
  have hpost := congrArg List.length (h.triggered.symm.trans htriggered)
  simp only [List.length_append, List.length_singleton] at hpre
  rw [List.length_append, List.length_cons]
  omega

end Holds

/-- **Readout.** Reading from `pre_samples` before the trigger, after a capture without a stop that
has stored enough before it, gives the samples in order if and only if the core has two words and
`pre_samples` is 0: otherwise the newest sample is where the oldest should be, or too few came. -/
theorem readout_iff {p : BitVec addrW} {c : CaptureCore addrW α} {ins : List (Inputs × α)} (h : Capture p c.fsm ins)
    (hstop : ∀ i ∈ ins, i.1.stop = false) (hp : p.toNat + 1 ≤ (storedIn .armed p c.fsm ins).length) :
    Chronological p c ins (Ring.read (c.run p ins).mem ((c.run p ins).fsm.triggerAddr - p) (2 ^ addrW)) ↔
      addrW = 1 ∧ p = 0 := by
  obtain ⟨pre, x, post, hh⟩ := holds_of_capture h
  have hlt : p.toNat < 2 ^ addrW := p.isLt
  have hcount := hh.count hstop
  rw [postCount_eq] at hcount
  constructor
  · intro hc
    have hl := (hh.lengths_of_chronological hc).2
    rw [Ring.length_read, hcount] at hl
    by_cases h0 : p = 0
    · rw [if_pos h0, h0] at hl
      have h2 : 2 ^ addrW = 2 ^ 1 := by simpa using hl
      exact ⟨(Nat.pow_right_inj (by decide)).mp h2, h0⟩
    · rw [if_neg h0] at hl
      omega
  · rintro ⟨rfl, rfl⟩
    have harmed := congrArg List.length hh.armed
    rw [List.length_map, List.length_append, List.length_singleton] at harmed
    exact hh.chronological_read (by omega) (by rw [hcount]; rfl)

/-- A core that has been reset, with zeros in its memory. -/
def cleared : CaptureCore addrW (BitVec 32) := ⟨.reset, fun _ => 0⟩

theorem readout_two :
    Chronological (0 : BitVec 1) cleared (forced 7 [8])
      (Ring.read (cleared.run (0 : BitVec 1) (forced 7 [8])).mem
        ((cleared.run (0 : BitVec 1) (forced 7 [8])).fsm.triggerAddr - 0) 2) :=
  (readout_iff (p := 0) (c := cleared) (by decide) (by decide) (by decide)).mpr ⟨rfl, rfl⟩

/-- Sample 5, then sample 6 at the trigger, and three more. -/
def newestFirst : List (Inputs × BitVec 32) :=
  [({ arm := true }, 0), ({ validIn := true }, 5), ({ validIn := true, forceTrig := true }, 6),
    ({ validIn := true }, 7), ({ validIn := true }, 8), ({ validIn := true }, 9)]

/-- The newest sample has been written over the one before the trigger. -/
theorem readout_newest_first :
    Capture (1 : BitVec 2) cleared.fsm newestFirst ∧ (∀ i ∈ newestFirst, i.1.stop = false) ∧
      (1 : BitVec 2).toNat + 1 ≤ (storedIn .armed (1 : BitVec 2) cleared.fsm newestFirst).length ∧
      Ring.read (cleared.run (1 : BitVec 2) newestFirst).mem
        ((cleared.run (1 : BitVec 2) newestFirst).fsm.triggerAddr - 1) 4 = [9, 6, 7, 8] ∧
      ¬Chronological (1 : BitVec 2) cleared newestFirst (Ring.read (cleared.run (1 : BitVec 2) newestFirst).mem
        ((cleared.run (1 : BitVec 2) newestFirst).fsm.triggerAddr - 1) 4) := by
  have hcapture : Capture (1 : BitVec 2) cleared.fsm newestFirst := by decide
  refine ⟨hcapture, by decide, by decide, by decide, fun hc => ?_⟩
  obtain ⟨pre, x, post, hh⟩ := holds_of_capture hcapture
  have hl := (hh.lengths_of_chronological hc).2
  have hpost : post.length = 3 := by
    rw [← hh.triggered]
    decide
  rw [Ring.length_read, hpost] at hl
  exact absurd hl (by decide)

end CaptureCore

end OwlTap.Ila
