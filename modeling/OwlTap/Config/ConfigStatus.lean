import OwlTap.Config.PlConfig

/-!
# What the result of a configuration says

`PlConfig::program` looks at the answers of its scans, but not at those of its clock bursts; a STAT
word with DONE ends it well whatever else it says, and when no STAT word could be read at all it
ends well, too. The record says what happened (`program_eq_true_iff`), and so when a success is
sound (`program_sound_iff`).
-/

namespace OwlTap.Config

open OwlTap Ftdi Bsdl Jtag

/-! ### What a record says -/

namespace Record

/-- The last STAT word that was read. -/
def lastRead (r : Record) : Option (BitVec 32) := (r.reads.filterMap id).getLast?

/-- All scans were made, and succeeded. -/
def Scanned (r : Record) : Prop := r.shifts = List.replicate 5 true

/-- All clock bursts were made, and succeeded. -/
def Clocked (r : Record) : Prop := r.bursts = List.replicate 5 true

/-- Every scan and clock burst of the sequence succeeded, some STAT word was read after it, and the last one neither
shows a CRC error nor is non-zero without DONE. -/
def Sound (r : Record) : Prop :=
  r.Scanned ∧ r.Clocked ∧ ∃ w, r.lastRead = some w ∧ (decodeStatus w).crcError = false ∧
    ¬(w ≠ 0 ∧ (decodeStatus w).done = false)

/-- A scan failed, or the last STAT word is non-zero without DONE, or all clock bursts succeeded and the last STAT word,
of some, does not have both DONE and CRC error. -/
def Honest (r : Record) : Prop :=
  ¬r.Scanned ∨ (∃ w, r.lastRead = some w ∧ w ≠ 0 ∧ (decodeStatus w).done = false) ∨
    r.Clocked ∧ ∃ w, r.lastRead = some w ∧ ¬((decodeStatus w).done = true ∧ (decodeStatus w).crcError = true)

end Record

namespace PlConfig

variable {σ : Type} {T : Target σ}

/-! ### What is recorded -/

/-- The method leaves the record as it is. -/
abbrev Unrecorded {α : Type} (m : Method (PlConfig σ) α) : Prop := ∀ r, Method.Keeps (fun p => p.record = r) m

theorem unrecorded_onChain {α : Type} (m : Method (JtagChain σ) α) : Unrecorded (onChain m) := by
  intro r p a p' hp h
  obtain ⟨chain, -, rfl⟩ := Method.on_eq_some.mp h
  exact hp

theorem unrecorded_fail {α : Type} (msg : PlConfig σ → String) (x : α) : Unrecorded (fail msg x) := by
  intro r p a p' hp h
  obtain ⟨-, rfl⟩ := Prod.mk.inj (Option.some.inj h)
  exact hp

theorem unrecorded_loadInstruction (opcode : BitVec 32) : Unrecorded (loadInstruction T opcode) := by
  intro r p a p' hp h
  refine Method.Keeps.bind (unrecorded_onChain _ r) (fun ok => ?_) p a p' hp h
  split
  · exact .pure _
  · exact unrecorded_fail _ _ r

theorem unrecorded_clkIdle (cycles : ℕ) : Unrecorded (clkIdle T cycles) := fun r =>
  (unrecorded_onChain _ r).bind fun _ => .pure _

/-- Looking at the object changes nothing. -/
theorem unrecorded_get {α : Type} (f : PlConfig σ → α) : Unrecorded (fun p => some (f p, p) : Method (PlConfig σ) α) := by
  intro r p a p' hp h
  obtain ⟨-, rfl⟩ := Prod.mk.inj (Option.some.inj h)
  exact hp

theorem unrecorded_readStatus : Unrecorded (readStatus T) := by
  intro r
  refine (unrecorded_loadInstruction _ r).bind fun ok => ?_
  split
  case isFalse => exact .pure _
  refine (unrecorded_clkIdle _ r).bind fun _ => (unrecorded_get _ r).bind fun bypassCount => ?_
  refine (unrecorded_onChain _ r).bind fun ok => ?_
  split
  case isFalse => exact unrecorded_fail _ _ r
  refine (unrecorded_clkIdle _ r).bind fun _ => (unrecorded_loadInstruction _ r).bind fun ok => ?_
  split
  case isFalse => exact .pure _
  refine (unrecorded_clkIdle _ r).bind fun _ => (unrecorded_get _ r).bind fun index => ?_
  refine (unrecorded_onChain _ r).bind fun read => ?_
  split
  split
  · exact .pure _
  · exact unrecorded_fail _ _ r

theorem unrecorded_shiftBitstream (body : List Byte) : Unrecorded (shiftBitstream T body) := by
  intro r p a p' hp h
  rw [shiftBitstream] at h
  split at h
  · cases h
  · refine Method.Keeps.bind (unrecorded_onChain _ r) (fun ok => ?_) p a p' hp h
    split
    · exact .pure _
    · exact unrecorded_fail _ _ r

/-- A scan of the sequence is recorded. -/
theorem scanStep_record {m : Method (PlConfig σ) Bool} (hm : Unrecorded m) {p p' : PlConfig σ} {ok : Bool}
    (h : scanStep m p = some (ok, p')) : p'.record = { p.record with shifts := p.record.shifts ++ [ok] } := by
  obtain ⟨ok', q, hq, h⟩ := Method.bind_eq_some.mp h
  have hrec : q.record = p.record := hm p.record p ok' q rfl hq
  rw [Method.modify_bind] at h
  obtain ⟨rfl, rfl⟩ := Prod.mk.inj (Option.some.inj h)
  simp only [hrec]

/-- A clock burst of the sequence is recorded. -/
theorem burst_record {cycles : ℕ} {p p' : PlConfig σ} {u : Unit} (h : burst T cycles p = some (u, p')) :
    ∃ ok, p'.record = { p.record with bursts := p.record.bursts ++ [ok] } := by
  obtain ⟨ok, q, hq, h⟩ := Method.bind_eq_some.mp h
  have hrec : q.record = p.record := unrecorded_onChain _ p.record p ok q rfl hq
  obtain ⟨-, rfl⟩ := Prod.mk.inj (Option.some.inj h)
  exact ⟨ok, by simp only [hrec]⟩

/-- The method makes so many scans and clock bursts, and succeeds if all scans do. -/
def Passes (scans bursts : ℕ) (m : Method (PlConfig σ) Bool) : Prop :=
  ∀ p ok p', m p = some (ok, p') → p'.record.reads = p.record.reads ∧
    if ok = true then p'.record.shifts = p.record.shifts ++ List.replicate scans true ∧
      ∃ bs : List Bool, bs.length = bursts ∧ p'.record.bursts = p.record.bursts ++ bs
    else false ∈ p'.record.shifts

theorem passes_true : Passes 0 0 (pure true : Method (PlConfig σ) Bool) := by
  intro p ok p' h
  obtain ⟨rfl, rfl⟩ := Prod.mk.inj (Option.some.inj h)
  exact ⟨rfl, by rw [if_pos rfl]; exact ⟨(List.append_nil _).symm, [], rfl, (List.append_nil _).symm⟩⟩

theorem passes_scanStep {m : Method (PlConfig σ) Bool} (hm : Unrecorded m) : Passes 1 0 (scanStep m) := by
  intro p ok p' h
  rw [scanStep_record hm h]
  refine ⟨rfl, ?_⟩
  cases ok with
  | true => exact ⟨rfl, [], rfl, (List.append_nil _).symm⟩
  | false => exact List.mem_append_right _ List.mem_cons_self

/-- One after the other. -/
theorem Passes.and {s b s' b' : ℕ} {m k : Method (PlConfig σ) Bool} (hm : Passes s b m) (hk : Passes s' b' k) :
    Passes (s + s') (b + b') (m >>= fun ok => if ok = true then k else pure false) := by
  intro p ok p' h
  obtain ⟨ok₁, q, hq, h⟩ := Method.bind_eq_some.mp h
  obtain ⟨hreads, hrec⟩ := hm p ok₁ q hq
  cases ok₁ with
  | false =>
    obtain ⟨rfl, rfl⟩ := Prod.mk.inj (Option.some.inj h)
    exact ⟨hreads, hrec⟩
  | true =>
    obtain ⟨hreads', hrec'⟩ := hk q ok p' h
    refine ⟨hreads'.trans hreads, ?_⟩
    cases ok with
    | false => exact hrec'
    | true =>
      obtain ⟨hshifts, bs, hlen, hbursts⟩ := hrec
      obtain ⟨hshifts', bs', hlen', hbursts'⟩ := hrec'
      refine ⟨?_, bs ++ bs', ?_, ?_⟩
      · rw [hshifts', hshifts, List.append_assoc, List.replicate_append_replicate]
      · rw [List.length_append, hlen, hlen']
      · rw [hbursts', hbursts, List.append_assoc]

/-- A clock burst first. -/
theorem Passes.burst {s b : ℕ} {k : Method (PlConfig σ) Bool} (hk : Passes s b k) (cycles : ℕ) :
    Passes s (b + 1) (burst T cycles >>= fun _ => k) := by
  intro p ok p' h
  obtain ⟨u, q, hq, h⟩ := Method.bind_eq_some.mp h
  obtain ⟨ok₁, hrec⟩ := burst_record hq
  obtain ⟨hreads', hrec'⟩ := hk q ok p' h
  rw [hrec] at hreads' hrec'
  refine ⟨hreads', ?_⟩
  cases ok with
  | false => exact hrec'
  | true =>
    obtain ⟨hshifts', bs', hlen', hbursts'⟩ := hrec'
    refine ⟨hshifts', ok₁ :: bs', by rw [List.length_cons, hlen'], ?_⟩
    rw [hbursts', List.append_assoc]
    rfl

theorem passes_load (opcode : BitVec 32) : Passes 1 0 (scanStep (loadInstruction T opcode)) :=
  passes_scanStep (unrecorded_loadInstruction opcode)

theorem passes_selectCfgIn : Passes 2 3 (selectCfgIn T) := by
  have hcfgIn := (passes_load (T := T) PlIr.cfgIn).and (passes_true.burst (T := T) 2)
  have hwait := (passes_true.burst (T := T) 600000).and hcfgIn
  exact (passes_load PlIr.jprogram).and (hwait.burst 16)

theorem passes_startUp : Passes 2 2 (startUp T) := by
  have hbypass := (passes_load (T := T) PlIr.bypass).and (passes_true.burst (T := T) 16)
  exact (passes_load PlIr.jstart).and (hbypass.burst 16384)

/-- The sequence up to the start-up. -/
theorem passes_sequence (body : List Byte) :
    Passes 5 5 (selectCfgIn T >>= fun ok => if ok = true then
      scanStep (shiftBitstream T body) >>= fun ok => if ok = true then startUp T else pure false
      else pure false) :=
  passes_selectCfgIn.and ((passes_scanStep (unrecorded_shiftBitstream body)).and passes_startUp)

/-! ### Polling -/

theorem lastRead_append (xs : List (Option (BitVec 32))) (x : Option (BitVec 32)) :
    ((xs ++ [x]).filterMap id).getLast? = x.or (xs.filterMap id).getLast? := by
  rw [List.filterMap_append]
  cases x with
  | none => simp
  | some w => simp

/-- What a method returns has a property. -/
def Returns {α : Type} (P : α → Prop) (m : Method (PlConfig σ) α) : Prop := ∀ p a p', m p = some (a, p') → P a

theorem Returns.pure {α : Type} {P : α → Prop} {a : α} (h : P a) : Returns P (pure a : Method (PlConfig σ) α) := by
  intro p b p' e
  obtain ⟨rfl, -⟩ := Prod.mk.inj (Option.some.inj e)
  exact h

theorem Returns.fail {α : Type} {P : α → Prop} {a : α} (h : P a) (msg : PlConfig σ → String) : Returns P (fail msg a) := by
  intro p b p' e
  obtain ⟨rfl, -⟩ := Prod.mk.inj (Option.some.inj e)
  exact h

theorem Returns.bind {α β : Type} {P : β → Prop} (m : Method (PlConfig σ) α) {f : α → Method (PlConfig σ) β}
    (h : ∀ a, Returns P (f a)) : Returns P (m >>= f) := by
  intro p b p' e
  obtain ⟨a, q, -, e⟩ := Method.bind_eq_some.mp e
  exact h a q b p' e

/-- A status that was read is the decoded word. -/
theorem readStatus_decoded : Returns (fun s => ∀ s' ∈ s, decodeStatus s'.raw = s') (readStatus T) := by
  refine .bind _ fun ok => ?_
  split
  case isFalse => exact .pure nofun
  refine .bind _ fun _ => .bind _ fun _ => .bind _ fun ok => ?_
  split
  case isFalse => exact .fail nofun _
  refine .bind _ fun _ => .bind _ fun ok => ?_
  split
  case isFalse => exact .pure nofun
  refine .bind _ fun _ => .bind _ fun _ => .bind _ fun read => ?_
  split
  split
  · refine .pure fun s' hs => ?_
    obtain rfl := Option.some.inj hs
    rfl
  · exact .fail nofun _

/-- What a poll ends with, after these reads: the last word has DONE, or it is the status, without DONE. -/
def Ended (record : Record) : Option (Status × Bool) → Prop
  | none => ∃ w, record.lastRead = some w ∧ (decodeStatus w).done = true
  | some (status, anyNonzero) => (anyNonzero = false → status.raw = 0) ∧ record.lastRead.getD 0 = status.raw ∧
      decodeStatus status.raw = status ∧ status.done = false

/-- Polling ends with the last STAT word read. -/
theorem poll_spec {attempts : ℕ} {status : Status} {anyNonzero : Bool} {p p' : PlConfig σ} {r : Option (Status × Bool)}
    (h : poll T attempts status anyNonzero p = some (r, p')) (hstart : Ended p.record (some (status, anyNonzero))) :
    p'.record.shifts = p.record.shifts ∧ p'.record.bursts = p.record.bursts ∧ Ended p'.record r := by
  induction attempts generalizing status anyNonzero p with
  | zero =>
    obtain ⟨rfl, rfl⟩ := Prod.mk.inj (Option.some.inj h)
    exact ⟨rfl, rfl, hstart⟩
  | succ attempts ih =>
    obtain ⟨s, q, hq, h⟩ := Method.bind_eq_some.mp h
    have hrec : q.record = p.record := unrecorded_readStatus p.record p s q rfl hq
    have hdecoded := readStatus_decoded p s q hq
    rw [Method.modify_bind, hrec] at h
    set q' : PlConfig σ := { q with record := { p.record with reads := p.record.reads ++ [s.map Status.raw] } } with hq'
    have hlast : q'.record.lastRead = (s.map Status.raw).or p.record.lastRead := lastRead_append _ _
    cases s with
    | none =>
      obtain ⟨u, q₂, hq₂, h⟩ := Method.bind_eq_some.mp h
      have hrec₂ : q₂.record = q'.record := unrecorded_clkIdle 6000 _ q' u q₂ rfl hq₂
      have := ih h (by rw [hrec₂, Ended, hlast]; exact hstart)
      rwa [hrec₂] at this
    | some s =>
      have hs : decodeStatus s.raw = s := hdecoded s rfl
      simp only at h
      split at h
      case isTrue hdone =>
        obtain ⟨rfl, rfl⟩ := Prod.mk.inj (Option.some.inj h)
        exact ⟨rfl, rfl, s.raw, hlast, by rw [hs]; exact hdone⟩
      case isFalse hdone =>
        have hdone : s.done = false := Bool.eq_false_iff.mpr hdone
        have hany' : (anyNonzero || s.raw != 0) = false → s.raw = 0 := by
          intro hno
          rw [Bool.or_eq_false_iff, bne_eq_false_iff_eq] at hno
          exact hno.2
        split at h
        · obtain ⟨rfl, rfl⟩ := Prod.mk.inj (Option.some.inj h)
          exact ⟨rfl, rfl, by rw [Ended, hlast]; exact ⟨hany', rfl, hs, hdone⟩⟩
        · obtain ⟨u, q₂, hq₂, h⟩ := Method.bind_eq_some.mp h
          have hrec₂ : q₂.record = q'.record := unrecorded_clkIdle 6000 _ q' u q₂ rfl hq₂
          have := ih h (by rw [hrec₂, Ended, hlast]; exact ⟨hany', rfl, hs, hdone⟩)
          rwa [hrec₂] at this

/-- Verification succeeds when no STAT word was read, or the last one has DONE or is zero. -/
theorem verify_spec {p p' : PlConfig σ} {ok : Bool} (h : verify T p = some (ok, p')) (hreads : p.record.reads = []) :
    p'.record.shifts = p.record.shifts ∧ p'.record.bursts = p.record.bursts ∧
      (ok = true ↔ ∀ w, p'.record.lastRead = some w → (decodeStatus w).done = true ∨ w = 0) := by
  have hnone : p.record.lastRead = none := by rw [Record.lastRead, hreads]; rfl
  obtain ⟨r, q, hq, h⟩ := Method.bind_eq_some.mp h
  obtain ⟨hshifts, hbursts, hr⟩ := poll_spec hq (by rw [Ended, hnone]; exact ⟨fun _ => rfl, rfl, rfl, rfl⟩)
  cases r with
  | none =>
    obtain ⟨rfl, rfl⟩ := Prod.mk.inj (Option.some.inj h)
    obtain ⟨w, hw, hdone⟩ := hr
    refine ⟨hshifts, hbursts, iff_of_true rfl fun w' hw' => .inl ?_⟩
    obtain rfl : w = w' := Option.some.inj (hw.symm.trans hw')
    exact hdone
  | some r =>
    obtain ⟨status, anyNonzero⟩ := r
    obtain ⟨hany, hlast, hdecode, hdone⟩ := hr
    have hiff : (∀ w, q.record.lastRead = some w → (decodeStatus w).done = true ∨ w = 0) ↔ status.raw = 0 := by
      cases hw : q.record.lastRead with
      | none =>
        rw [hw] at hlast
        exact iff_of_true nofun hlast.symm
      | some w =>
        obtain rfl : w = status.raw := by rw [hw] at hlast; exact hlast
        rw [← hdecode] at hdone
        simp only [Option.some.injEq, forall_eq', hdone, Bool.false_eq_true, false_or]
    have hcrc : status.crcError = true → status.raw ≠ 0 := by
      intro hc hz
      rw [← hdecode, hz] at hc
      revert hc
      decide
    simp only at h
    split at h
    case isTrue hc =>
      obtain ⟨rfl, rfl⟩ := Prod.mk.inj (Option.some.inj h)
      exact ⟨hshifts, hbursts, iff_of_false nofun (mt hiff.mp (hcrc hc))⟩
    case isFalse =>
      split at h
      case isTrue hz =>
        obtain ⟨rfl, rfl⟩ := Prod.mk.inj (Option.some.inj h)
        exact ⟨hshifts, hbursts, iff_of_true rfl (hiff.mpr (hany (by simpa using hz)))⟩
      case isFalse =>
        split at h
        case isTrue hz =>
          obtain ⟨rfl, rfl⟩ := Prod.mk.inj (Option.some.inj h)
          exact ⟨hshifts, hbursts, iff_of_true rfl (hiff.mpr hz)⟩
        case isFalse hz =>
          obtain ⟨rfl, rfl⟩ := Prod.mk.inj (Option.some.inj h)
          exact ⟨hshifts, hbursts, iff_of_false nofun (mt hiff.mp hz)⟩

/-! ### The result -/

/-- A run of `if (!m) return false;` and then `k`. -/
theorem bind_ite_eq_some {m k : Method (PlConfig σ) Bool} {p p' : PlConfig σ} {ok : Bool}
    (h : (m >>= fun ok => if ok = true then k else pure false) p = some (ok, p')) :
    (∃ q, m p = some (true, q) ∧ k q = some (ok, p')) ∨ ok = false ∧ m p = some (false, p') := by
  obtain ⟨ok₁, q, hq, h⟩ := Method.bind_eq_some.mp h
  cases ok₁ with
  | true => exact .inl ⟨q, hq, h⟩
  | false =>
    obtain ⟨rfl, rfl⟩ := Prod.mk.inj (Option.some.inj h)
    exact .inr ⟨rfl, hq⟩

/-- Steps one after the other: each succeeded, or one failed. -/
theorem Passes.failed {s b : ℕ} {m : Method (PlConfig σ) Bool} (hm : Passes s b m) {p p' : PlConfig σ}
    (h : m p = some (false, p')) : ¬p'.record.Scanned := by
  intro hall
  have hmem : false ∈ p'.record.shifts := (hm p false p' h).2
  rw [hall] at hmem
  exact absurd (List.eq_of_mem_replicate hmem) Bool.false_ne_true

/-- A configuration succeeds when all its scans do, and no STAT word was read after it or the last one has DONE or is
zero. -/
theorem program_eq_true_iff {path : String} {contents : Option (List Byte)} {p p' : PlConfig σ} {ok : Bool}
    (h : program T path contents p = some (ok, p')) :
    ok = true ↔ p'.record.Scanned ∧ ∀ w, p'.record.lastRead = some w → (decodeStatus w).done = true ∨ w = 0 := by
  rw [program, Method.modify_bind] at h
  cases hbody : loadBitstream contents with
  | none =>
    rw [hbody] at h
    obtain ⟨rfl, rfl⟩ := Prod.mk.inj (Option.some.inj h)
    exact iff_of_false nofun fun hall => nomatch hall.1
  | some body =>
    rw [hbody] at h
    simp only at h
    split at h
    · obtain ⟨rfl, rfl⟩ := Prod.mk.inj (Option.some.inj h)
      exact iff_of_false nofun fun hall => nomatch hall.1
    rcases bind_ite_eq_some h with ⟨p₁, h₁, h⟩ | ⟨rfl, hfail⟩
    case inr => exact iff_of_false nofun fun hall => passes_selectCfgIn.failed hfail hall.1
    rcases bind_ite_eq_some h with ⟨p₂, h₂, h⟩ | ⟨rfl, hfail⟩
    case inr => exact iff_of_false nofun fun hall => (passes_scanStep (unrecorded_shiftBitstream _)).failed hfail hall.1
    rcases bind_ite_eq_some h with ⟨p₃, h₃, h⟩ | ⟨rfl, hfail⟩
    case inr => exact iff_of_false nofun fun hall => passes_startUp.failed hfail hall.1
    obtain ⟨hr₁, hs₁, -⟩ := passes_selectCfgIn _ true p₁ h₁
    obtain ⟨hr₂, hs₂, -⟩ := passes_scanStep (unrecorded_shiftBitstream _) p₁ true p₂ h₂
    obtain ⟨hr₃, hs₃, -⟩ := passes_startUp p₂ true p₃ h₃
    obtain ⟨hshifts, -, hok⟩ := verify_spec h (by rw [hr₃, hr₂, hr₁])
    have hscanned : p'.record.Scanned := by rw [Record.Scanned, hshifts, hs₃, hs₂, hs₁]; rfl
    rw [hok, and_iff_right hscanned]

/-- **Soundness of a success.** A configuration that succeeds is sound exactly when it is honest: a scan failed, or the
last STAT word is non-zero without DONE, or all clock bursts succeeded and some STAT word was read, of which the last
does not have both DONE and CRC error. -/
theorem program_sound_iff {path : String} {contents : Option (List Byte)} {p p' : PlConfig σ} {ok : Bool}
    (h : program T path contents p = some (ok, p')) : (ok = true → p'.record.Sound) ↔ p'.record.Honest := by
  rw [program_eq_true_iff h, Record.Sound, Record.Honest]
  by_cases hscanned : p'.record.Scanned
  case neg => exact iff_of_true (fun hall => absurd hall.1 hscanned) (.inl hscanned)
  simp only [hscanned, true_and, not_true_eq_false, false_or]
  cases hw : p'.record.lastRead with
  | none => simp
  | some w =>
    simp only [Option.some.injEq, forall_eq', exists_eq_left']
    have hcrc : w = 0 → (decodeStatus w).crcError = false ∧ (decodeStatus w).done = false := by
      rintro rfl
      decide
    by_cases hz : w = 0
    · obtain ⟨hc, hd⟩ := hcrc hz
      subst hz
      simp only [hc, hd, and_true, or_true, true_implies]
      simp
    · simp only [hz, or_false, not_false_eq_true, true_and, ne_eq]
      cases (decodeStatus w).done <;> cases (decodeStatus w).crcError <;> simp

/-- One device with six instruction bits on a wire, and what the USB will do. -/
def onWire (outcomes : List Outcome) : PlConfig Unit :=
  ⟨⟨⟨.waiting false ⟨.runTestIdle, ()⟩ outcomes, .runTestIdle, ""⟩, [⟨0, 0, 6, [], none⟩], ""⟩, 0, "", {}⟩

/-- A transfer of which nothing is written. -/
def lost : Outcome := .cut 0 0 4

/-- The transfers up to the CFG_IN scan, with the long burst lost. -/
def untilCfgIn : List Outcome := List.replicate 6 .whole ++ lost :: List.replicate 4 .whole

/-- A lost bitstream: the result is false, and honest. -/
theorem lost_bitstream_honest :
    ∃ p', program Target.wire "" (some sync) (onWire (untilCfgIn ++ [.whole, lost])) = some (false, p') ∧
      p'.record.shifts = [true, true, false] ∧ (false = true → p'.record.Sound) := by
  have hrun : ((program Target.wire "" (some sync) (onWire (untilCfgIn ++ [.whole, lost]))).map fun r =>
      (r.1, r.2.record.shifts)) = some (false, [true, true, false]) := by decide +kernel
  obtain ⟨⟨ok, p'⟩, h, he⟩ := Option.map_eq_some_iff.mp hrun
  obtain ⟨rfl, hshifts⟩ := Prod.mk.inj he
  refine ⟨p', h, hshifts, (program_sound_iff h).mpr (.inl fun hscanned => ?_)⟩
  rw [Record.Scanned, hshifts] at hscanned
  revert hscanned
  decide

/-- Two lost clock bursts, and a link that is lost before the first STAT read: the result is true. -/
theorem unread_status_succeeds :
    ∃ p', program Target.wire "" (some sync) (onWire (untilCfgIn ++ List.replicate 6 .whole ++ lost ::
        List.replicate 6 .whole ++ List.replicate 20 lost)) = some (true, p') ∧
      p'.record = ⟨[true, true, true, true, true], [true, false, true, false, true], List.replicate 10 none⟩ ∧
      ¬p'.record.Sound := by
  have hrun : ((program Target.wire "" (some sync) (onWire (untilCfgIn ++ List.replicate 6 .whole ++ lost ::
      List.replicate 6 .whole ++ List.replicate 20 lost))).map fun r => (r.1, r.2.record)) =
      some (true, ⟨[true, true, true, true, true], [true, false, true, false, true], List.replicate 10 none⟩) := by
    decide +kernel
  obtain ⟨⟨ok, p'⟩, h, he⟩ := Option.map_eq_some_iff.mp hrun
  obtain ⟨rfl, hrecord⟩ := Prod.mk.inj he
  refine ⟨p', h, hrecord, fun hsound => ?_⟩
  obtain ⟨w, hw, -⟩ := hsound.2.2
  simp only at hrecord
  rw [hrecord] at hw
  revert hw
  simp [Record.lastRead]

end PlConfig

end OwlTap.Config
