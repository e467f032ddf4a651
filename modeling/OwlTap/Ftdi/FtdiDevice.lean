import OwlTap.Base.Method
import OwlTap.Ftdi.Link

/-!
# The FTDI device

`FtdiDevice` owns the connection to a chip: it writes command buffers and reads the
answers back. What the USB does with a transfer is the environment's choice, given in
advance as a list of outcomes; when the list has run out, transfers go through whole.
-/

namespace OwlTap.Ftdi

open OwlTap

/-- What the USB does with one transfer. -/
inductive Outcome where
  /-- Every byte is written, and every answer arrives in time. -/
  | whole
  /-- The write call for this chunk of 65536 bytes writes only some bytes, or returns an error. -/
  | cut (chunk written status : ℕ)
  /-- Every byte is written; the reads give up after `got` answer bytes, and `late` more
  bytes arrive after that. -/
  | short (got late : ℕ)
  deriving DecidableEq, Repr

/-- The outcome brings `n` answer bytes in time. -/
def Outcome.Answers (o : Outcome) (n : ℕ) : Prop :=
  match o with
  | .whole => True
  | .cut .. => False
  | .short got _ => n ≤ got

instance (o : Outcome) (n : ℕ) : Decidable (o.Answers n) := by
  unfold Outcome.Answers; split <;> infer_instance

variable {σ : Type} (T : Target σ)

/-- Wrapper around an FTDI chip. -/
structure FtdiDevice (σ : Type) where
  /-- Whether the device is open. -/
  isOpen : Bool
  /-- The last error message. -/
  lastError : String
  /-- The chip and what hangs on it. -/
  link : Link σ
  /-- What the USB will do with the transfers to come. -/
  outcomes : List Outcome

namespace FtdiDevice

/-- Write MPSSE command buffer to device and read back response, into a fresh vector. -/
def transfer (cmd : MpsseCommandBuffer) : Method (FtdiDevice σ) (Bool × List Byte) := fun d =>
  if !d.isOpen then some ((false, []), { d with lastError := "Device not open" })
  else if cmd.buffer.isEmpty then some ((true, []), d)
  else
    match d.outcomes.headD .whole with
    | .cut chunk written status =>
      some ((false, []),
        { d with
          lastError := s!"FT_Write failed: wrote {written} of {min 65536 (cmd.buffer.length - 65536 * chunk)} bytes (status {status})"
          link := d.link.receive T (cmd.buffer.take (65536 * chunk + written))
          outcomes := d.outcomes.tail })
    | .whole => readBack (d.link.receive T cmd.buffer) (d.link.receive T cmd.buffer).rx.length 0 d
    | .short got late => readBack (d.link.receive T cmd.buffer) got late d
where
  /-- The read loop: up to `got` bytes of the queue arrive before the retries are used up. -/
  readBack (l : Link σ) (got late : ℕ) (d : FtdiDevice σ) : Option ((Bool × List Byte) × FtdiDevice σ) :=
    let expected := cmd.expectedReadBytes
    let available := min got l.rx.length
    if expected = 0 then some ((true, []), { d with link := l, outcomes := d.outcomes.tail })
    else if expected ≤ available then
      some ((true, l.rx.take expected),
        { d with link := { l with rx := l.rx.drop expected }, outcomes := d.outcomes.tail })
    else
      some ((false, l.rx.take available ++ List.replicate (expected - available) 0),
        { d with
          lastError := s!"Read timeout: got {available} of {expected} bytes"
          link := { l with rx := (l.rx.drop available).take late }
          outcomes := d.outcomes.tail })

/-- Write MPSSE command buffer to device (no read expected). -/
def write (cmd : MpsseCommandBuffer) : Method (FtdiDevice σ) Bool := do
  let r ← transfer T cmd
  pure r.1

/-- An open device whose chip waits for a command, with TMS at `t`, on the given hardware. -/
def waiting (t : Bool) (port : Port σ) (outcomes : List Outcome) : FtdiDevice σ :=
  ⟨true, "", ⟨⟨.ready, t, false⟩, 0, [], port, []⟩, outcomes⟩

/-! ### What a transfer does -/

/-- The chip waits for a command with TMS at `t`, and no answer is left in the queue. -/
structure Waits (d : FtdiDevice σ) (t : Bool) : Prop where
  /-- The device is open. -/
  isOpen : d.isOpen = true
  /-- The engine is between commands. -/
  phase : d.link.chip.phase = .ready
  /-- The level of TMS. -/
  tms : d.link.chip.tms = t
  /-- The queue is empty. -/
  rx : d.link.rx = []

/-- From `d` to `d'` the hardware was clocked with the pins `cs`, and with nothing else. -/
structure Clocked (d d' : FtdiDevice σ) (cs : List Pins) : Prop where
  /-- The hardware has run. -/
  port : d'.link.port = d.link.port.run T cs
  /-- The record says so. -/
  trace : d'.link.trace = d.link.trace ++ d.link.port.cycles T cs

/-- Every byte of the transfers to come reaches the chip. -/
def NoCut (d : FtdiDevice σ) : Prop := ∀ o ∈ d.outcomes, o.Answers 0

/-- Every transfer to come goes through whole. -/
def Delivers (d : FtdiDevice σ) : Prop := ∀ o ∈ d.outcomes, o = .whole

/-- Answers that do not arrive in time never arrive. -/
def Quiet (d : FtdiDevice σ) : Prop := ∀ got late, .short got late ∈ d.outcomes → late = 0

variable {T}

theorem waits_waiting (t : Bool) (port : Port σ) (outcomes : List Outcome) :
    (waiting t port outcomes).Waits t := ⟨rfl, rfl, rfl, rfl⟩

theorem Clocked.refl (d : FtdiDevice σ) : Clocked T d d [] := ⟨rfl, by simp⟩

theorem Clocked.trans {d₁ d₂ d₃ : FtdiDevice σ} {a b : List Pins} (h₁ : Clocked T d₁ d₂ a)
    (h₂ : Clocked T d₂ d₃ b) : Clocked T d₁ d₃ (a ++ b) := by
  refine ⟨?_, ?_⟩
  · rw [h₂.port, h₁.port, Port.run_append]
  · rw [h₂.trace, h₁.trace, h₁.port, Port.cycles_append, List.append_assoc]

/-- The TAP controllers follow TMS. -/
theorem Clocked.state {d d' : FtdiDevice σ} {cs : List Pins} (h : Clocked T d d' cs) :
    d'.link.port.state = d.link.port.state.run (cs.map Pins.tms) := by
  rw [h.port, Port.state_run]

theorem Delivers.noCut {d : FtdiDevice σ} (h : d.Delivers) : d.NoCut := fun o ho => by
  rw [h o ho]; trivial

theorem Delivers.answers_drop {d : FtdiDevice σ} (h : d.Delivers) (m n : ℕ) :
    ((d.outcomes.drop m).headD .whole).Answers n := by
  cases hd : d.outcomes.drop m with
  | nil => trivial
  | cons o os =>
    have : o ∈ d.outcomes := List.mem_of_mem_drop (by rw [hd]; exact List.mem_cons_self)
    rw [List.headD_cons, h o this]
    trivial

theorem Delivers.answers {d : FtdiDevice σ} (h : d.Delivers) (n : ℕ) :
    (d.outcomes.headD .whole).Answers n := h.answers_drop 0 n

theorem NoCut.answers_drop {d : FtdiDevice σ} (h : d.NoCut) (m : ℕ) :
    ((d.outcomes.drop m).headD .whole).Answers 0 := by
  cases hd : d.outcomes.drop m with
  | nil => trivial
  | cons o os => exact h o (List.mem_of_mem_drop (by rw [hd]; exact List.mem_cons_self))

theorem NoCut.answers {d : FtdiDevice σ} (h : d.NoCut) : (d.outcomes.headD .whole).Answers 0 :=
  h.answers_drop 0

theorem NoCut.of_outcomes {d d' : FtdiDevice σ} (h : d.NoCut) (he : d'.outcomes = d.outcomes.tail) :
    d'.NoCut := fun o ho => h o (List.mem_of_mem_tail (he ▸ ho))

theorem Delivers.of_outcomes {d d' : FtdiDevice σ} (h : d.Delivers) (he : d'.outcomes = d.outcomes.tail) :
    d'.Delivers := fun o ho => h o (List.mem_of_mem_tail (he ▸ ho))

theorem Delivers.quiet {d : FtdiDevice σ} (h : d.Delivers) : d.Quiet := fun _ _ ho => by cases h _ ho

theorem Quiet.of_outcomes {d d' : FtdiDevice σ} (h : d.Quiet) (he : d'.outcomes = d.outcomes.tail) :
    d'.Quiet := fun got late ho => h got late (List.mem_of_mem_tail (he ▸ ho))

variable (T)

/-- What the hardware drives on TDO while it is clocked with `cs`. -/
def samples (d : FtdiDevice σ) (cs : List Pins) : List Bool := (d.link.port.cycles T cs).map Cycle.tdo

@[simp] theorem length_samples (d : FtdiDevice σ) (cs : List Pins) : (d.samples T cs).length = cs.length := by
  simp [samples]

variable {T}

/-- A transfer of whole commands whose answers arrive in time: they are returned, all of them
and no others. -/
theorem transfer_answered {d : FtdiDevice σ} {t t' : Bool} {cmd : MpsseCommandBuffer} {ms : List Micro}
    (hw : d.Waits t) (hne : cmd.buffer ≠ []) (hr : Runs t cmd.buffer t' ms)
    (hl : (answers d.link.sr ms (d.samples T (pinsOf ms))).2.length = cmd.expectedReadBytes)
    (ho : (d.outcomes.headD .whole).Answers cmd.expectedReadBytes) :
    ∃ d', transfer T cmd d = some ((true, (answers d.link.sr ms (d.samples T (pinsOf ms))).2), d') ∧
      d'.Waits t' ∧ Clocked T d d' (pinsOf ms) ∧ d'.outcomes = d.outcomes.tail := by
  obtain ⟨hp, ht, hrx, hpt, htr⟩ := Link.receive_of_runs (T := T) hw.phase hw.tms hr
  rw [hw.rx, List.nil_append] at hrx
  have hback : ∀ got late, cmd.expectedReadBytes ≤ min got (d.link.receive T cmd.buffer).rx.length →
      ∃ d', transfer.readBack cmd (d.link.receive T cmd.buffer) got late d =
          some ((true, (answers d.link.sr ms (d.samples T (pinsOf ms))).2), d') ∧
        d'.Waits t' ∧ Clocked T d d' (pinsOf ms) ∧ d'.outcomes = d.outcomes.tail := by
    intro got late hgot
    by_cases h0 : cmd.expectedReadBytes = 0
    · have hnil : (answers d.link.sr ms (d.samples T (pinsOf ms))).2 = [] :=
        List.length_eq_zero_iff.mp (hl.trans h0)
      refine ⟨{ d with link := d.link.receive T cmd.buffer, outcomes := d.outcomes.tail }, ?_,
        ⟨hw.isOpen, hp, ht, hrx.trans hnil⟩, ⟨hpt, htr⟩, rfl⟩
      rw [transfer.readBack, if_pos h0, hnil]
    · refine ⟨{ d with
          link := { d.link.receive T cmd.buffer with
            rx := (d.link.receive T cmd.buffer).rx.drop cmd.expectedReadBytes }
          outcomes := d.outcomes.tail }, ?_, ⟨hw.isOpen, hp, ht, ?_⟩, ⟨hpt, htr⟩, rfl⟩
      · rw [transfer.readBack, if_neg h0, if_pos hgot, hrx, ← hl, samples, List.take_length]
      · simp [hrx, ← hl, samples]
  have hrl : (d.link.receive T cmd.buffer).rx.length = cmd.expectedReadBytes := by rw [hrx]; exact hl
  rw [transfer, if_neg (by simp [hw.isOpen]), if_neg (by simpa using hne)]
  cases h : d.outcomes.headD .whole with
  | whole => exact hback _ _ (by omega)
  | cut => rw [h] at ho; exact ho.elim
  | short got late =>
    rw [h] at ho
    exact hback _ _ (le_min ho hrl.ge)

/-- A transfer of whole commands whose answers do not all arrive in time: it fails, but the
hardware was clocked all the same, and answers that arrive late stay in the queue. -/
theorem transfer_short {d : FtdiDevice σ} {t t' : Bool} {cmd : MpsseCommandBuffer} {ms : List Micro}
    {got late : ℕ} (hw : d.Waits t) (hr : Runs t cmd.buffer t' ms) (hne : cmd.buffer ≠ [])
    (hl : (answers d.link.sr ms (d.samples T (pinsOf ms))).2.length = cmd.expectedReadBytes)
    (ho : d.outcomes.headD .whole = .short got late) (hg : got < cmd.expectedReadBytes) :
    ∃ raw d', transfer T cmd d = some ((false, raw), d') ∧
      d'.isOpen = true ∧ d'.link.chip.phase = .ready ∧ d'.link.chip.tms = t' ∧
      d'.link.rx = ((answers d.link.sr ms (d.samples T (pinsOf ms))).2.drop got).take late ∧
      Clocked T d d' (pinsOf ms) ∧ d'.outcomes = d.outcomes.tail := by
  obtain ⟨hp, ht, hrx, hpt, htr⟩ := Link.receive_of_runs (T := T) hw.phase hw.tms hr
  rw [hw.rx, List.nil_append] at hrx
  have hmin : min got (d.link.receive T cmd.buffer).rx.length = got := by
    rw [hrx]; exact min_eq_left (hl ▸ hg.le)
  rw [transfer, if_neg (by simp [hw.isOpen]), if_neg (by simpa using hne), ho]
  simp only
  rw [transfer.readBack, hmin, if_neg (by omega), if_neg (by omega)]
  exact ⟨_, _, rfl, hw.isOpen, hp, ht, by rw [hrx]; rfl, ⟨hpt, htr⟩, rfl⟩

/-- A transfer of whole commands, when no byte of them is lost and no answer comes late: the
hardware was clocked and the queue is empty; if it succeeds, all answers are returned. -/
theorem transfer_quiet {d : FtdiDevice σ} {t t' : Bool} {cmd : MpsseCommandBuffer} {ms : List Micro}
    (hw : d.Waits t) (hne : cmd.buffer ≠ []) (hr : Runs t cmd.buffer t' ms)
    (hl : (answers d.link.sr ms (d.samples T (pinsOf ms))).2.length = cmd.expectedReadBytes)
    (hc : d.NoCut) (hq : d.Quiet) :
    ∃ ok raw d', transfer T cmd d = some ((ok, raw), d') ∧ d'.Waits t' ∧ Clocked T d d' (pinsOf ms) ∧
      d'.outcomes = d.outcomes.tail ∧
      (ok = true → raw = (answers d.link.sr ms (d.samples T (pinsOf ms))).2) ∧ (d.Delivers → ok = true) := by
  by_cases ha : (d.outcomes.headD .whole).Answers cmd.expectedReadBytes
  · obtain ⟨d', e, hw', hcl, ho⟩ := transfer_answered hw hne hr hl ha
    exact ⟨true, _, d', e, hw', hcl, ho, fun _ => rfl, fun _ => rfl⟩
  · cases h : d.outcomes.headD .whole with
    | whole => rw [h] at ha; exact absurd trivial ha
    | cut => have := hc.answers; rw [h] at this; exact this.elim
    | short got late =>
      rw [h] at ha
      have hmem : Outcome.short got late ∈ d.outcomes := by
        cases hd : d.outcomes with
        | nil => rw [hd] at h; cases h
        | cons o os => rw [hd, List.headD_cons] at h; rw [h]; exact List.mem_cons_self
      obtain ⟨raw, d', e, hopen, hp, ht, hrx, hcl, ho⟩ := transfer_short hw hr hne hl h (not_le.mp ha)
      refine ⟨false, raw, d', e, ⟨hopen, hp, ht, ?_⟩, hcl, ho, nofun, fun hd => nomatch hd _ hmem⟩
      rw [hrx, hq got late hmem, List.take_zero]

end FtdiDevice

end OwlTap.Ftdi
