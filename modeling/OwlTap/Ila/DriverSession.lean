import Mathlib.Data.List.Induction
import OwlTap.Ila.DriverEffect

/-!
# Sessions of the driver

Two backends that serve the driver give the same replies to any session that reads no
samples (`session_agree`). The register file serves it, and its `readSamples` returns the
words from `rd_addr` on (`RegisterFile.readSamples_spec`).
-/

namespace OwlTap.Ila

open OwlTap

variable {addrW : ℕ}

namespace IlaDriver

variable {β : Type} {B : IlaTapBackend β} {R S : Option (BitVec 5) → β → RegisterFile addrW → Prop}

theorem session_cons {op : IlaOp} {d d' : IlaDriver β} {reply : IlaReply} (h : exec B op d = some (reply, d'))
    (ops : List IlaOp) : session B (op :: ops) d = (session B ops d').map fun r => (reply :: r.1, r.2) := by
  rw [session, Method.bind_of_eq _ h]
  show (session B ops d').bind _ = _
  cases session B ops d' <;> rfl

theorem session_append (ops ops' : List IlaOp) (d : IlaDriver β) :
    session B (ops ++ ops') d =
      (session B ops d).bind fun r => (session B ops' r.2).map fun r' => (r.1 ++ r'.1, r'.2) := by
  induction ops generalizing d with
  | nil =>
    show session B ops' d = (session B ops' d).map fun r' => ([] ++ r'.1, r'.2)
    cases session B ops' d <;> rfl
  | cons op ops ih =>
    cases hop : exec B op d with
    | none =>
      have hnone : ∀ ops, session B (op :: ops) d = none := fun ops => by
        show (exec B op d).bind _ = none
        rw [hop]
        rfl
      rw [List.cons_append, hnone, hnone]
      rfl
    | some r =>
      obtain ⟨reply, d'⟩ := r
      rw [List.cons_append, session_cons hop, session_cons hop, ih]
      cases hs : session B ops d' with
      | none => rfl
      | some r =>
        simp only [Option.map_some, Option.bind_some]
        cases session B ops' r.2 <;> rfl

/-- The reply of an operation in the middle of a session. -/
theorem session_middle {pre post : List IlaOp} {op : IlaOp} {d d₁ e : IlaDriver β} {replies₁ replies : List IlaReply}
    (hpre : session B pre d = some (replies₁, d₁)) (h : session B (pre ++ op :: post) d = some (replies, e)) :
    ∃ reply d₂, exec B op d₁ = some (reply, d₂) ∧ replies[replies₁.length]? = some reply := by
  rw [session_append, hpre, Option.bind_some, Option.map_eq_some_iff] at h
  obtain ⟨⟨rest, e₁⟩, hrest, he⟩ := h
  obtain ⟨reply, d₂, hop, hpost⟩ := Method.bind_eq_some.mp hrest
  refine ⟨reply, d₂, hop, ?_⟩
  rw [session_cons hop, Option.map_eq_some_iff] at hrest
  obtain ⟨r, -, hr⟩ := hrest
  rw [← (Prod.mk.inj he).1, ← (Prod.mk.inj hr).1, List.getElem?_append_right (le_refl _), Nat.sub_self]
  rfl

/-- A session that reads no samples goes through, and the driver is ready then. -/
theorem session_ready (h : Serves B R S) {P : IlaParams} (hw : 1 ≤ addrW ∧ addrW ≤ 32) {s : Option (BitVec 5)}
    {d : IlaDriver β} {f : RegisterFile addrW} (hd : Ready R P s d f) {ops : List IlaOp}
    (hops : ∀ op ∈ ops, ¬op.ReadsSamples) :
    ∃ replies d' s' f', session B ops d = some (replies, d') ∧ Ready R P s' d' f' := by
  induction ops generalizing s d f with
  | nil => exact ⟨[], d, s, f, rfl, hd⟩
  | cons op ops ih =>
    obtain ⟨d₁, s₁, f₁, e₁, hd₁, -⟩ := exec_effect h hw hd (hops op List.mem_cons_self)
    obtain ⟨replies, d₂, s₂, f₂, e₂, hd₂⟩ := ih hd₁ fun op hm => hops op (List.mem_cons_of_mem _ hm)
    refine ⟨(op.effect P f₁.side (view d f)).1 :: replies, d₂, s₂, f₂, ?_, hd₂⟩
    rw [session_cons e₁, e₂]
    rfl

/-- Two backends that serve the driver give the same replies, as long as the sample clock domain shows both
the same and no samples are read. -/
theorem session_agree {β' : Type} {B' : IlaTapBackend β'} {R' S' : Option (BitVec 5) → β' → RegisterFile addrW → Prop}
    (h : Serves B R S) (h' : Serves B' R' S') {side : SampleSide 32 addrW} (hside : ∀ {s b f}, R s b f → f.side = side)
    (hside' : ∀ {s b f}, R' s b f → f.side = side) {P : IlaParams} (hw : 1 ≤ addrW ∧ addrW ≤ 32)
    {s s' : Option (BitVec 5)} {d : IlaDriver β} {d' : IlaDriver β'} {f f' : RegisterFile addrW}
    (hd : Ready R P s d f) (hd' : Ready R' P s' d' f') (hview : view d f = view d' f') {ops : List IlaOp}
    (hops : ∀ op ∈ ops, ¬op.ReadsSamples) :
    ∃ replies e e' t t' g g', session B ops d = some (replies, e) ∧ session B' ops d' = some (replies, e') ∧
      Ready R P t e g ∧ Ready R' P t' e' g' ∧ view e g = view e' g' := by
  induction ops generalizing s s' d d' f f' with
  | nil => exact ⟨[], d, d', s, s', f, f', rfl, rfl, hd, hd', hview⟩
  | cons op ops ih =>
    obtain ⟨d₁, s₁, f₁, e₁, hd₁, hv₁⟩ := exec_effect h hw hd (hops op List.mem_cons_self)
    obtain ⟨d₁', s₁', f₁', e₁', hd₁', hv₁'⟩ := exec_effect h' hw hd' (hops op List.mem_cons_self)
    rw [hside hd₁.rel] at e₁ hv₁
    rw [hside' hd₁'.rel, ← hview] at e₁' hv₁'
    obtain ⟨replies, e, e', t, t', g, g', hs, hs', hg, hg', hv⟩ := ih hd₁ hd₁' (hv₁.trans hv₁'.symm)
      fun op hm => hops op (List.mem_cons_of_mem _ hm)
    refine ⟨(op.effect P side (view d f)).1 :: replies, e, e', t, t', g, g', ?_, ?_, hg, hg', hv⟩
    · rw [session_cons e₁, hs]
      rfl
    · rw [session_cons e₁', hs']
      rfl

/-! ### Samples -/

/-- A word in a buffer of its own. -/
def wordBytes (x : BitVec 32) : List Byte := OwlTap.packBits (toBits x)

@[simp] theorem length_wordBytes (x : BitVec 32) : (wordBytes x).length = 4 := by
  rw [wordBytes, length_packBits, length_toBits]
  rfl

theorem unpackBits_wordBytes (x : BitVec 32) : unpackBits (wordBytes x) 32 = some x := by
  have hbits : bits (wordBytes x) 32 = toBits x := by
    have := bits_packBits (toBits x)
    rwa [length_toBits] at this
  rw [unpackBits_eq (le_refl 32) (by rw [length_wordBytes]; decide), hbits, ofBits_toBits]

theorem length_of_mem_wordBytes {xs : List (BitVec 32)} (w : List Byte) (h : w ∈ xs.map wordBytes) : w.length = 4 := by
  obtain ⟨x, -, rfl⟩ := List.mem_map.mp h
  exact length_wordBytes x

/-- The words of a batch lie one after the other. -/
theorem slice_wordBytes {xs : List (BitVec 32)} {i : ℕ} (hi : i < xs.length) :
    (((xs.map wordBytes).flatten).drop (i * 4)).take 4 = wordBytes xs[i] := by
  rw [slice_flatten length_of_mem_wordBytes (by rwa [List.length_map]), List.getElem_map]

theorem length_flatten_wordBytes (xs : List (BitVec 32)) : ((xs.map wordBytes).flatten).length = xs.length * 4 := by
  rw [length_flatten_of_length length_of_mem_wordBytes, List.length_map]

theorem mapM_range {α : Type} {g : ℕ → Option α} {xs : List α} (h : ∀ i (hi : i < xs.length), g i = some xs[i]) :
    (List.range xs.length).mapM g = some xs := by
  induction xs using List.reverseRecOn with
  | nil => rfl
  | append_singleton xs x ih =>
    have hlast : g xs.length = some x := by
      rw [h xs.length (by simp), List.getElem_concat_length rfl]
    have hinit := ih fun i hi => by
      rw [h i (by rw [List.length_append]; omega), List.getElem_append_left hi]
    rw [List.length_append, List.length_singleton, List.range_succ, List.mapM_append, hinit]
    simp [hlast]

/-- The words of a batch are unpacked. -/
theorem unpackSamples_wordBytes (xs : List (BitVec 32)) :
    unpackSamples (xs.map wordBytes).flatten 32 xs.length = some xs := by
  refine mapM_range fun i hi => ?_
  rw [if_neg (by rw [length_flatten_wordBytes]; omega)]
  show unpackBits (((xs.map wordBytes).flatten.drop (i * 4)).take 4) 32 = _
  rw [slice_wordBytes hi, unpackBits_wordBytes]

/-- `readSamples` returns the words that the batch brings. -/
theorem readSamples_of_batch {d : IlaDriver β} {count : Option (BitVec 32)} {n : BitVec 32} {b₁ b₂ : β}
    {xs : List (BitVec 32)} (hn : count.getD (BitVec.ofNat 32 d.caps.depth) = n) (hdata : d.caps.dataW = 32)
    (hsel : B.selectIr kIrReadData d.backend = some (true, b₁))
    (hbatch : B.shiftDrBatch n.toInt 32 [0, 0, 0, 0] b₁ = some ((true, (xs.map wordBytes).flatten), b₂))
    (hlen : xs.length = n.toNat) (out : List (BitVec 32)) :
    readSamples B count out d = some ((true, xs), { d with backend := b₂ }) := by
  have hcall : onBackend (B.selectIr kIrReadData) d = some (true, { d with backend := b₁ }) := Method.on_of_eq _ hsel
  have hselect : selectIr B kIrReadData d = some (true, { d with backend := b₁ }) := by
    rw [selectIr, Method.bind_of_eq _ hcall]
    rfl
  have hbatch' : onBackend (B.shiftDrBatch n.toInt d.caps.dataW [0, 0, 0, 0]) { d with backend := b₁ } =
      some ((true, (xs.map wordBytes).flatten), { d with backend := b₂ }) := by
    rw [hdata]
    exact Method.on_of_eq _ hbatch
  have hunpack : (Method.ofOption (unpackSamples (xs.map wordBytes).flatten d.caps.dataW n.toNat) :
      Method (IlaDriver β) _) { d with backend := b₂ } = some (xs, { d with backend := b₂ }) := by
    rw [hdata, ← hlen, unpackSamples_wordBytes]
    rfl
  rw [readSamples, hn, Method.bind_of_eq _ hselect]
  simp only [if_true]
  rw [Method.bind_of_eq _ hbatch']
  simp only [if_true]
  rw [Method.bind_of_eq _ hunpack]
  rfl

end IlaDriver

/-! ### The register file -/

namespace RegisterFile

/-- The register file serves the driver as itself. -/
theorem serves (side : SampleSide 32 addrW) :
    Serves backend (fun _ b (f : RegisterFile addrW) => b = f ∧ f.side = side) (fun _ b f => b = f ∧ f.side = side) where
  select opcode h := by
    obtain ⟨rfl, hside⟩ := h
    exact ⟨_, rfl, rfl, hside⟩
  shift := by
    rintro s b f n tdi ⟨rfl, rfl⟩ - - - - hb
    have hlen := le_bytesFor n
    refine ⟨_, _, b.side, if_neg (by omega), ⟨rfl, rfl⟩, ?_, fun _ => ?_⟩
    · rw [length_packBits, List.length_map, List.length_range]
    · have := bits_packBits ((List.range n).map b.read.getLsbD)
      rwa [List.length_map, List.length_range] at this
  idle h _ := h
  empty _ _ _ := rfl

/-- A scan of READ_DATA goes on to the next address. -/
theorem shiftDr_readData {f : RegisterFile addrW} (hsel : f.regs.storedIr = Opcode.readData) :
    shiftDr 32 [0, 0, 0, 0] f =
      some ((true, IlaDriver.wordBytes (f.side.mem f.regs.rdAddr)),
        { f with regs := { f.regs with rdAddr := f.regs.rdAddr + 1 } }) := by
  have hread : f.read = f.side.mem f.regs.rdAddr := by
    rw [read, IlaRegs.captureData, hsel]
    rfl
  have hupdate : ∀ data, f.update data = { f with regs := { f.regs with rdAddr := f.regs.rdAddr + 1 } } := fun data => by
    rw [update, nextSigDef, hsel, if_neg (by decide), ctrlPulses, if_neg (by decide), List.append_nil, IlaRegs.write]
    rfl
  rw [shiftDr, if_neg (by decide), hread, hupdate]
  rfl

/-- A batch of READ_DATA. -/
theorem shiftDrLoop_readData (n : ℕ) {f : RegisterFile addrW} (hsel : f.regs.storedIr = Opcode.readData)
    (flatTdo : List Byte) :
    ∃ f', IlaTapBackend.shiftDrLoop (shiftDr 32 [0, 0, 0, 0]) 4 n flatTdo f =
      some ((true, flatTdo ++ ((Ring.read f.side.mem f.regs.rdAddr n).map IlaDriver.wordBytes).flatten), f') := by
  induction n generalizing f flatTdo with
  | zero => exact ⟨f, by rw [Ring.read]; simp [IlaTapBackend.shiftDrLoop, Method.pure_apply]⟩
  | succ n ih =>
    obtain ⟨f', e⟩ := ih (f := { f with regs := { f.regs with rdAddr := f.regs.rdAddr + 1 } }) hsel
      (flatTdo ++ IlaDriver.wordBytes (f.side.mem f.regs.rdAddr))
    refine ⟨f', ?_⟩
    have hlen := IlaDriver.length_wordBytes (f.side.mem f.regs.rdAddr)
    rw [IlaTapBackend.shiftDrLoop, Method.bind_of_eq _ (shiftDr_readData hsel)]
    simp only [if_true, if_neg (show ¬(IlaDriver.wordBytes (f.side.mem f.regs.rdAddr)).length < 4 by omega)]
    rw [List.take_of_length_le (by omega), e, Ring.read_succ, List.map_cons, List.flatten_cons, List.append_assoc]

/-- `readSamples` returns the words from `rd_addr` on. -/
theorem readSamples_spec {d : IlaDriver (RegisterFile addrW)} {count : Option (BitVec 32)} {n : BitVec 32}
    (hn : count.getD (BitVec.ofNat 32 d.caps.depth) = n) (hdata : d.caps.dataW = 32) (hlt : n.toNat < 2 ^ 31)
    (out : List (BitVec 32)) :
    ∃ f, IlaDriver.readSamples backend count out d =
        some ((true, Ring.read d.backend.side.mem d.backend.regs.rdAddr n.toNat), { d with backend := f }) := by
  have hint : n.toInt = n.toNat := by
    rw [BitVec.toInt_eq_toNat_cond, if_pos (by omega)]
  obtain ⟨f, e⟩ := shiftDrLoop_readData n.toNat (f := d.backend.select Opcode.readData) rfl []
  have hbatch : backend.shiftDrBatch n.toInt 32 [0, 0, 0, 0] (d.backend.select Opcode.readData) = some ((true,
      ((Ring.read d.backend.side.mem d.backend.regs.rdAddr n.toNat).map IlaDriver.wordBytes).flatten), f) := by
    show IlaTapBackend.shiftDrBatchDefault shiftDr n.toInt 32 [0, 0, 0, 0] _ = _
    rw [IlaTapBackend.shiftDrBatchDefault, hint, if_neg (by omega), Int.toNat_natCast]
    exact e
  exact ⟨f, IlaDriver.readSamples_of_batch hn hdata rfl hbatch (Ring.length_read _ _ _) out⟩

end RegisterFile

end OwlTap.Ila
