import OwlTap.Base.BinaryValue
import OwlTap.Protocol.Protocol

/-!
# The SPI decoder

`decodeSpi` samples the data lines on one edge of each clock period, while the chip is selected, and
puts the bits together to words. Transfers may be shown in as many samples as one likes, provided
that each level of the clock is seen (`ShowsBits`); what is decoded of them is their words, and a frame
with an error for each that breaks off within a word (`decodeSpi_transfers`).
-/

namespace OwlTap.Protocol

open OwlTap Bsdl BoundaryScan Capture

/-- SPI decoder configuration. -/
structure SpiConfig where
  clkPin : Text
  /-- May be empty to ignore. -/
  mosiPin : Text
  /-- May be empty to ignore. -/
  misoPin : Text
  /-- Active low; empty is always active. -/
  csPin : Text
  /-- Clock polarity: the level when idle. -/
  cpol : Bool := false
  /-- Clock phase: sample on the second edge. -/
  cpha : Bool := false
  lsbFirst : Bool := false
  /-- Bits per transfer word, 1 to 64. -/
  bitsPerWord : ℕ := 8

/-- The variables of `decodeSpi`. -/
structure SpiDecoder where
  frames : List DecodedFrame := []
  inTransfer : Bool := false
  mosiWord : BitVec 64 := 0
  misoWord : BitVec 64 := 0
  bitCount : ℕ := 0
  frameStartUs : ℚ := 0
  prevClk : Bool

namespace SpiConfig

/-- The label of a word. -/
def wordLabel (cfg : SpiConfig) (mosiWord misoWord : ℕ) : Text :=
  let width := (cfg.bitsPerWord + 3) / 4
  if cfg.mosiPin ≠ [] ∧ cfg.misoPin ≠ [] then
    "MOSI:".toList ++ hexText width mosiWord ++ " MISO:".toList ++ hexText width misoWord
  else if cfg.mosiPin ≠ [] then "0x".toList ++ hexText width mosiWord
  else "0x".toList ++ hexText width misoWord

/-- Whether an edge of the clock is the one that data is sampled on. -/
def sampleEdge (cfg : SpiConfig) (prevClk currClk : Bool) : Bool :=
  let idleClk := cfg.cpol
  let clkRose := !prevClk && currClk
  let clkFell := prevClk && !currClk
  let leadingEdge := !idleClk && clkRose || idleClk && clkFell
  let trailingEdge := !idleClk && clkFell || idleClk && clkRose
  if !cfg.cpha then leadingEdge else trailingEdge

/-- A data bit of a sample; a line that has no pin is low. -/
def dataBit (pin : Text) (frame : SampleFrame) : Bool := if pin = [] then false else samplePinValue frame pin

/-- A word with one more bit; there are fewer than 64 so far. -/
def shiftIn (cfg : SpiConfig) (bitCount : ℕ) (word : BitVec 64) (bit : Bool) : BitVec 64 :=
  if cfg.lsbFirst then if bit then word ||| 1#64 <<< bitCount else word
  else word <<< 1 ||| (BitVec.ofBool bit).setWidth 64

end SpiConfig

namespace SpiDecoder

def emit (cfg : SpiConfig) (endUs : ℚ) (errorFlag : Bool) (d : SpiDecoder) : SpiDecoder :=
  { d with
    frames := d.frames ++ [{
      startUs := d.frameStartUs
      endUs
      kind := .spi
      label := cfg.wordLabel d.mosiWord.toNat d.misoWord.toNat
      errorFlag }] }

/-- CS deasserted: flush any partial frame. -/
def release (cfg : SpiConfig) (tUs : ℚ) (d : SpiDecoder) : SpiDecoder :=
  { if d.inTransfer && decide (0 < d.bitCount) then emit cfg tUs (d.bitCount ≠ cfg.bitsPerWord) d else d with
    inTransfer := false, bitCount := 0, mosiWord := 0, misoWord := 0, prevClk := cfg.cpol }

/-- The start of a transfer, at its first sampling edge. -/
def begin (tUs : ℚ) (d : SpiDecoder) : SpiDecoder :=
  if d.inTransfer then d
  else { d with inTransfer := true, frameStartUs := tUs, mosiWord := 0, misoWord := 0, bitCount := 0 }

/-- Sample data bits. -/
def sampleBits (cfg : SpiConfig) (mosiBit misoBit : Bool) (tUs : ℚ) (d : SpiDecoder) : SpiDecoder :=
  let d := { d with
    mosiWord := cfg.shiftIn d.bitCount d.mosiWord mosiBit
    misoWord := cfg.shiftIn d.bitCount d.misoWord misoBit
    bitCount := d.bitCount + 1 }
  if d.bitCount = cfg.bitsPerWord then
    { emit cfg tUs false d with mosiWord := 0, misoWord := 0, bitCount := 0, frameStartUs := tUs }
  else d

/-- A round of the loop. -/
def next (cfg : SpiConfig) (t0Frame : SampleFrame) (d : SpiDecoder) (frame : SampleFrame) : SpiDecoder :=
  let tUs := sampleTimeUs frame t0Frame
  if cfg.csPin ≠ [] ∧ samplePinValue frame cfg.csPin then release cfg tUs d
  else
    let currClk := samplePinValue frame cfg.clkPin
    let edge := cfg.sampleEdge d.prevClk currClk
    let d := { d with prevClk := currClk }
    if edge then
      sampleBits cfg (SpiConfig.dataBit cfg.mosiPin frame) (SpiConfig.dataBit cfg.misoPin frame) tUs (begin tUs d)
    else d

/-- The loop over the samples. -/
def feed (cfg : SpiConfig) (t0Frame : SampleFrame) (d : SpiDecoder) (samples : List SampleFrame) : SpiDecoder :=
  samples.foldl (next cfg t0Frame) d

end SpiDecoder

/-- Decode SPI frames from a captured sample stream. -/
def decodeSpi (samples : List SampleFrame) (cfg : SpiConfig) : List DecodedFrame :=
  match samples with
  | [] => []
  | t0Frame :: rest =>
    if cfg.clkPin = [] then [] else (SpiDecoder.feed cfg t0Frame { prevClk := cfg.cpol } rest).frames

/-! ### Transfers -/

namespace SpiConfig

/-- The level of the clock before data is sampled. -/
def setupLevel (cfg : SpiConfig) : Bool := cfg.cpol ^^ cfg.cpha

/-- The chip is selected, and the clock stays at a level. -/
def Stays (cfg : SpiConfig) (level : Bool) (seg : List SampleFrame) : Prop :=
  ∀ frame ∈ seg, samplePinValue frame cfg.csPin = false ∧ samplePinValue frame cfg.clkPin = level

/-- The chip is not selected. -/
def Released (cfg : SpiConfig) (seg : List SampleFrame) : Prop :=
  seg ≠ [] ∧ ∀ frame ∈ seg, samplePinValue frame cfg.csPin = true

/-- The bits of both data lines in a sample. -/
def bitPair (cfg : SpiConfig) (frame : SampleFrame) : Bool × Bool := (dataBit cfg.mosiPin frame, dataBit cfg.misoPin frame)

/-- Samples that show a bit on each line, when the clock was at `prev` before: one level, which need not be shown if
the clock was there, and the other, where the first sample shows the bits. -/
def ShowsBit (cfg : SpiConfig) (prev : Bool) (bit : Bool × Bool) (seg : List SampleFrame) : Prop :=
  ∃ setup first more, seg = setup ++ first :: more ∧ cfg.Stays cfg.setupLevel setup ∧
    (setup = [] → prev = cfg.setupLevel) ∧ cfg.Stays (!cfg.setupLevel) (first :: more) ∧ cfg.bitPair first = bit

/-- Samples that show bits. -/
def ShowsBits (cfg : SpiConfig) : (prev : Bool) → List (Bool × Bool) → List SampleFrame → Prop
  | _, [], seg => seg = []
  | prev, bit :: bits, seg => ∃ head tail, seg = head ++ tail ∧ cfg.ShowsBit prev bit head ∧
      cfg.ShowsBits (!cfg.setupLevel) bits tail

/-- Samples that show a transfer of bits, from the selection of the chip to its release; the clock is idle when it begins
and when it ends. -/
def ShowsTransfer (cfg : SpiConfig) (bits : List (Bool × Bool)) (seg : List SampleFrame) : Prop :=
  ∃ lead body tail released, seg = lead ++ body ++ tail ++ released ∧ cfg.Stays cfg.cpol lead ∧
    cfg.ShowsBits cfg.cpol bits body ∧ cfg.Stays cfg.cpol tail ∧ cfg.Released released

/-- The bits of a word in the order in which they are sent. -/
def wireBits (cfg : SpiConfig) (word : BitVec cfg.bitsPerWord) : List Bool :=
  let bits := (List.range cfg.bitsPerWord).map word.getLsbD
  if cfg.lsbFirst then bits else bits.reverse

/-- The value of bits in the order in which they are sent. -/
def wordValue (cfg : SpiConfig) (bits : List Bool) : ℕ := binaryValue (if cfg.lsbFirst then bits else bits.reverse)

end SpiConfig

/-- Words that are sent and received while the chip is selected, and the bits of one that breaks off. -/
structure Transfer (cfg : SpiConfig) where
  words : List (BitVec cfg.bitsPerWord × BitVec cfg.bitsPerWord)
  rest : List (Bool × Bool)
  /-- They are not a word. -/
  short : rest.length < cfg.bitsPerWord

namespace Transfer

variable {cfg : SpiConfig}

/-- The bits of words on the lines. -/
def wordBits (words : List (BitVec cfg.bitsPerWord × BitVec cfg.bitsPerWord)) : List (Bool × Bool) :=
  words.flatMap fun (mosi, miso) => (cfg.wireBits mosi).zip (cfg.wireBits miso)

/-- The bits on the lines. -/
def bits (t : Transfer cfg) : List (Bool × Bool) := wordBits t.words ++ t.rest

/-- What is to be decoded: the labels, and whether they are errors. -/
def events (t : Transfer cfg) : List (Text × Bool) :=
  (t.words.map fun (mosi, miso) => (cfg.wordLabel mosi.toNat miso.toNat, false)) ++
    if t.rest = [] then []
    else [(cfg.wordLabel (cfg.wordValue (t.rest.map Prod.fst)) (cfg.wordValue (t.rest.map Prod.snd)), true)]

end Transfer

/-! ### Words -/

namespace SpiConfig

variable {cfg : SpiConfig}

theorem wordValue_lt (bits : List Bool) : cfg.wordValue bits < 2 ^ bits.length := by
  rw [wordValue]
  split
  · exact binaryValue_lt bits
  · rw [← List.length_reverse]
    exact binaryValue_lt bits.reverse

theorem ofNat_wordValue_nil (cfg : SpiConfig) : BitVec.ofNat 64 (cfg.wordValue []) = 0 := by
  unfold wordValue
  split <;> rfl

/-- A bit that comes in is the last of the word. -/
theorem shiftIn_wordValue {bits : List Bool} (hlength : bits.length < 64) (bit : Bool) :
    cfg.shiftIn bits.length (BitVec.ofNat 64 (cfg.wordValue bits)) bit = BitVec.ofNat 64 (cfg.wordValue (bits ++ [bit])) := by
  unfold shiftIn wordValue
  split
  · cases bit with
    | true => exact ofNat_or_shiftLeft bits hlength
    | false =>
      rw [binaryValue_concat]
      rfl
  · rw [List.reverse_append]
    exact shiftLeft_or_ofBool bits.reverse bit

theorem wordValue_wireBits (word : BitVec cfg.bitsPerWord) : cfg.wordValue (cfg.wireBits word) = word.toNat := by
  unfold wordValue wireBits
  dsimp only
  split
  · exact binaryValue_getLsbD word
  · rw [List.reverse_reverse]
    exact binaryValue_getLsbD word

theorem length_wireBits (word : BitVec cfg.bitsPerWord) : (cfg.wireBits word).length = cfg.bitsPerWord := by
  unfold wireBits
  dsimp only
  split
  · rw [List.length_map, List.length_range]
  · rw [List.length_reverse, List.length_map, List.length_range]

/-- Data is sampled when the clock goes from one level to the other. -/
theorem sampleEdge_eq (cfg : SpiConfig) (prev curr : Bool) :
    cfg.sampleEdge prev curr = (prev == cfg.setupLevel && curr == !cfg.setupLevel) := by
  unfold sampleEdge setupLevel
  generalize cfg.cpol = cpol, cfg.cpha = cpha
  revert cpol cpha prev curr
  decide

end SpiConfig

/-! ### Samples -/

namespace SpiDecoder

variable {cfg : SpiConfig} {t0Frame : SampleFrame}

/-- What has been decoded. -/
def events (d : SpiDecoder) : List (Text × Bool) := d.frames.map DecodedFrame.event

/-- The bits of a word have come in so far, and the clock is at `clk`. -/
structure Gathers (cfg : SpiConfig) (d : SpiDecoder) (clk : Bool) (bits : List (Bool × Bool)) : Prop where
  prevClk : d.prevClk = clk
  bitCount : d.bitCount = bits.length
  mosiWord : d.mosiWord = BitVec.ofNat 64 (cfg.wordValue (bits.map Prod.fst))
  misoWord : d.misoWord = BitVec.ofNat 64 (cfg.wordValue (bits.map Prod.snd))
  started : bits ≠ [] → d.inTransfer = true

theorem feed_append (d : SpiDecoder) (samples samples' : List SampleFrame) :
    feed cfg t0Frame d (samples ++ samples') = feed cfg t0Frame (feed cfg t0Frame d samples) samples' :=
  List.foldl_append

/-- A sample with the chip selected, where the clock does not come to the level on which data is sampled. -/
theorem next_quiet {frame : SampleFrame} {d : SpiDecoder} (hcs : samplePinValue frame cfg.csPin = false)
    (hedge : cfg.sampleEdge d.prevClk (samplePinValue frame cfg.clkPin) = false) :
    next cfg t0Frame d frame = { d with prevClk := samplePinValue frame cfg.clkPin } := by
  have hselected : ¬(cfg.csPin ≠ [] ∧ samplePinValue frame cfg.csPin = true) := fun h =>
    Bool.false_ne_true (hcs.symm.trans h.2)
  rw [next, if_neg hselected]
  dsimp only
  rw [hedge, if_neg Bool.false_ne_true]

/-- While the clock stays where it is, or goes to the level before the sampling edge, nothing happens. -/
theorem feed_stays {level : Bool} {seg : List SampleFrame} (h : cfg.Stays level seg) {d : SpiDecoder} {clk : Bool}
    {bits : List (Bool × Bool)} (hd : Gathers cfg d clk bits) (hlevel : level = cfg.setupLevel ∨ clk = level) :
    (feed cfg t0Frame d seg).events = d.events ∧
      Gathers cfg (feed cfg t0Frame d seg) (if seg = [] then clk else level) bits := by
  induction seg generalizing d clk with
  | nil => exact ⟨rfl, hd⟩
  | cons frame rest ih =>
    obtain ⟨⟨hcs, hclk⟩, hrest⟩ := List.forall_mem_cons.mp h
    have hedge : cfg.sampleEdge d.prevClk (samplePinValue frame cfg.clkPin) = false := by
      rw [SpiConfig.sampleEdge_eq, hd.prevClk, hclk]
      rcases hlevel with rfl | rfl
      · cases cfg.setupLevel <;> simp
      · cases clk <;> cases cfg.setupLevel <;> rfl
    have hnext : next cfg t0Frame d frame = { d with prevClk := level } := by
      rw [next_quiet hcs hedge, hclk]
    have hd' : Gathers cfg { d with prevClk := level } level bits :=
      ⟨rfl, hd.bitCount, hd.mosiWord, hd.misoWord, hd.started⟩
    obtain ⟨hevents, hgathers⟩ := ih hrest hd' (.inr rfl)
    rw [ite_self] at hgathers
    rw [feed, List.foldl_cons, hnext, if_neg (List.cons_ne_nil _ _)]
    exact ⟨hevents, hgathers⟩

/-- The word that has come in, when there is one. -/
def complete (cfg : SpiConfig) (bits : List (Bool × Bool)) : List (Text × Bool) :=
  if bits.length = cfg.bitsPerWord then
    [(cfg.wordLabel (cfg.wordValue (bits.map Prod.fst)) (cfg.wordValue (bits.map Prod.snd)), false)]
  else []

/-- The bits that remain then. -/
def remaining (cfg : SpiConfig) (bits : List (Bool × Bool)) : List (Bool × Bool) :=
  if bits.length = cfg.bitsPerWord then [] else bits

/-- A bit comes in; the last of a word completes it. -/
theorem sampleBits_gathers (hwide : cfg.bitsPerWord ≤ 64) {d : SpiDecoder} {clk : Bool} {bits : List (Bool × Bool)}
    (hd : Gathers cfg d clk bits) (hstarted : d.inTransfer = true) (hlength : bits.length < cfg.bitsPerWord)
    (bit : Bool × Bool) (tUs : ℚ) :
    (sampleBits cfg bit.1 bit.2 tUs d).events = d.events ++ complete cfg (bits ++ [bit]) ∧
      Gathers cfg (sampleBits cfg bit.1 bit.2 tUs d) clk (remaining cfg (bits ++ [bit])) := by
  have hmosi : cfg.shiftIn d.bitCount d.mosiWord bit.1 = BitVec.ofNat 64 (cfg.wordValue ((bits ++ [bit]).map Prod.fst)) := by
    have hlen : (bits.map Prod.fst).length = d.bitCount := (List.length_map _).trans hd.bitCount.symm
    rw [hd.mosiWord, ← hlen, SpiConfig.shiftIn_wordValue (by rw [List.length_map]; omega), List.map_append]
    rfl
  have hmiso : cfg.shiftIn d.bitCount d.misoWord bit.2 = BitVec.ofNat 64 (cfg.wordValue ((bits ++ [bit]).map Prod.snd)) := by
    have hlen : (bits.map Prod.snd).length = d.bitCount := (List.length_map _).trans hd.bitCount.symm
    rw [hd.misoWord, ← hlen, SpiConfig.shiftIn_wordValue (by rw [List.length_map]; omega), List.map_append]
    rfl
  have hcount : d.bitCount + 1 = (bits ++ [bit]).length := by
    rw [hd.bitCount, List.length_append, List.length_singleton]
  have hvalue : ∀ l : List Bool, l.length = (bits ++ [bit]).length →
      (BitVec.ofNat 64 (cfg.wordValue l)).toNat = cfg.wordValue l := by
    intro l hl
    have hlt := @SpiConfig.wordValue_lt cfg l
    have hle : l.length ≤ 64 := by
      rw [hl, ← hcount, hd.bitCount]
      omega
    exact Nat.mod_eq_of_lt (hlt.trans_le (Nat.pow_le_pow_right (by decide) hle))
  unfold sampleBits complete remaining
  dsimp only
  rw [hmosi, hmiso, hcount]
  by_cases hfull : (bits ++ [bit]).length = cfg.bitsPerWord
  · rw [if_pos hfull, if_pos hfull, if_pos hfull]
    refine ⟨?_, hd.prevClk, rfl, cfg.ofNat_wordValue_nil.symm, cfg.ofNat_wordValue_nil.symm, fun h => absurd rfl h⟩
    rw [events, emit, List.map_append, hvalue _ (List.length_map _), hvalue _ (List.length_map _)]
    rfl
  · rw [if_neg hfull, if_neg hfull, if_neg hfull]
    exact ⟨(List.append_nil _).symm, hd.prevClk, rfl, rfl, rfl, fun _ => hstarted⟩

theorem begin_gathers {d : SpiDecoder} {clk : Bool} {bits : List (Bool × Bool)} (hd : Gathers cfg d clk bits) (tUs : ℚ) :
    (begin tUs d).events = d.events ∧ (begin tUs d).inTransfer = true ∧ Gathers cfg (begin tUs d) clk bits := by
  unfold begin
  by_cases hin : d.inTransfer = true
  · rw [if_pos hin]
    exact ⟨rfl, hin, hd⟩
  · have hnone : bits = [] := by
      by_contra hne
      exact hin (hd.started hne)
    subst hnone
    rw [if_neg hin]
    exact ⟨rfl, rfl, hd.prevClk, rfl, cfg.ofNat_wordValue_nil.symm, cfg.ofNat_wordValue_nil.symm, fun h => absurd rfl h⟩

/-- A bit that is shown comes in. -/
theorem feed_bit (hwide : cfg.bitsPerWord ≤ 64) {prev : Bool} {bit : Bool × Bool} {seg : List SampleFrame}
    (h : cfg.ShowsBit prev bit seg) {d : SpiDecoder} {bits : List (Bool × Bool)} (hd : Gathers cfg d prev bits)
    (hlength : bits.length < cfg.bitsPerWord) :
    (feed cfg t0Frame d seg).events = d.events ++ complete cfg (bits ++ [bit]) ∧
      Gathers cfg (feed cfg t0Frame d seg) (!cfg.setupLevel) (remaining cfg (bits ++ [bit])) := by
  obtain ⟨setup, first, more, rfl, hsetup, hprev, hstays, rfl⟩ := h
  obtain ⟨⟨hcs, hclk⟩, hmore⟩ := List.forall_mem_cons.mp hstays
  obtain ⟨hevents, hsetup'⟩ := @feed_stays cfg t0Frame _ _ hsetup d prev bits hd (.inl rfl)
  have hlevel : (if setup = [] then prev else cfg.setupLevel) = cfg.setupLevel := by
    by_cases hnil : setup = []
    · rw [if_pos hnil, hprev hnil]
    · rw [if_neg hnil]
  rw [hlevel] at hsetup'
  generalize hd₁ : feed cfg t0Frame d setup = d₁ at hevents hsetup'
  -- the first sample of the other level is where the bits are sampled
  have hnext : next cfg t0Frame d₁ first = sampleBits cfg (cfg.bitPair first).1 (cfg.bitPair first).2
      (sampleTimeUs first t0Frame) (begin (sampleTimeUs first t0Frame) { d₁ with prevClk := !cfg.setupLevel }) := by
    have hselected : ¬(cfg.csPin ≠ [] ∧ samplePinValue first cfg.csPin = true) := fun h =>
      Bool.false_ne_true (hcs.symm.trans h.2)
    have hedge : cfg.sampleEdge d₁.prevClk (samplePinValue first cfg.clkPin) = true := by
      rw [SpiConfig.sampleEdge_eq, hsetup'.prevClk, hclk, beq_self_eq_true, beq_self_eq_true]
      rfl
    rw [next, if_neg hselected]
    dsimp only
    rw [hedge, if_pos rfl, hclk]
    rfl
  have hmoved : Gathers cfg { d₁ with prevClk := !cfg.setupLevel } (!cfg.setupLevel) bits :=
    ⟨rfl, hsetup'.bitCount, hsetup'.mosiWord, hsetup'.misoWord, hsetup'.started⟩
  obtain ⟨hbegin, hin, hbegun⟩ := begin_gathers hmoved (sampleTimeUs first t0Frame)
  obtain ⟨hsampled, hgathers⟩ := sampleBits_gathers hwide hbegun hin hlength (cfg.bitPair first) (sampleTimeUs first t0Frame)
  rw [← hnext] at hsampled hgathers
  obtain ⟨hrest, hlast⟩ := @feed_stays cfg t0Frame _ _ hmore _ _ _ hgathers (.inr rfl)
  rw [ite_self] at hlast
  rw [feed_append, hd₁, feed, List.foldl_cons]
  refine ⟨hrest.trans (hsampled.trans ?_), hlast⟩
  rw [hbegin, ← hevents]
  rfl

/-- Bits that do not complete a word. -/
theorem feed_short (hwide : cfg.bitsPerWord ≤ 64) {new : List (Bool × Bool)} {prev : Bool} {seg : List SampleFrame}
    (h : cfg.ShowsBits prev new seg) {d : SpiDecoder} {bits : List (Bool × Bool)} (hd : Gathers cfg d prev bits)
    (hlength : bits.length + new.length < cfg.bitsPerWord) :
    (feed cfg t0Frame d seg).events = d.events ∧
      Gathers cfg (feed cfg t0Frame d seg) (if new = [] then prev else !cfg.setupLevel) (bits ++ new) := by
  induction new generalizing prev seg d bits with
  | nil =>
    obtain rfl : seg = [] := h
    rw [List.append_nil]
    exact ⟨rfl, hd⟩
  | cons bit new ih =>
    obtain ⟨head, tail, rfl, hhead, htail⟩ := h
    rw [List.length_cons] at hlength
    obtain ⟨hevents, hgathers⟩ := @feed_bit cfg t0Frame hwide _ _ _ hhead d bits hd (by omega)
    have hnot : ¬(bits ++ [bit]).length = cfg.bitsPerWord := by
      rw [List.length_append, List.length_singleton]
      omega
    rw [complete, if_neg hnot, List.append_nil] at hevents
    rw [remaining, if_neg hnot] at hgathers
    obtain ⟨hevents', hgathers'⟩ := ih htail hgathers (by rw [List.length_append, List.length_singleton]; omega)
    rw [ite_self, List.append_assoc, List.singleton_append] at hgathers'
    rw [feed_append, if_neg (List.cons_ne_nil _ _)]
    exact ⟨hevents'.trans hevents, hgathers'⟩

theorem showsBits_append {prev : Bool} {new new' : List (Bool × Bool)} {seg : List SampleFrame}
    (h : cfg.ShowsBits prev (new ++ new') seg) : ∃ head tail, seg = head ++ tail ∧ cfg.ShowsBits prev new head ∧
      cfg.ShowsBits (if new = [] then prev else !cfg.setupLevel) new' tail := by
  induction new generalizing prev seg with
  | nil => exact ⟨[], seg, rfl, rfl, h⟩
  | cons bit new ih =>
    obtain ⟨head, tail, rfl, hhead, htail⟩ := h
    obtain ⟨head', tail', rfl, hhead', htail'⟩ := ih htail
    rw [ite_self] at htail'
    exact ⟨head ++ head', tail', (List.append_assoc _ _ _).symm, ⟨head, head', rfl, hhead, hhead'⟩, htail'⟩

/-- The bits of a word. -/
theorem feed_word (hwide : cfg.bitsPerWord ≤ 64) (hpos : 0 < cfg.bitsPerWord) {word : List (Bool × Bool)}
    (hword : word.length = cfg.bitsPerWord) {prev : Bool} {seg : List SampleFrame} (h : cfg.ShowsBits prev word seg)
    {d : SpiDecoder} (hd : Gathers cfg d prev []) :
    (feed cfg t0Frame d seg).events = d.events ++
        [(cfg.wordLabel (cfg.wordValue (word.map Prod.fst)) (cfg.wordValue (word.map Prod.snd)), false)] ∧
      Gathers cfg (feed cfg t0Frame d seg) (!cfg.setupLevel) [] := by
  have hne : word ≠ [] := List.ne_nil_of_length_pos (hword ▸ hpos)
  have hsplit := List.dropLast_concat_getLast hne
  rw [← hsplit] at h
  obtain ⟨head, tail, rfl, hhead, last, rest, rfl, hlast, rfl⟩ := showsBits_append h
  have hlength : word.dropLast.length + 1 = cfg.bitsPerWord := by
    rw [List.length_dropLast, hword]
    omega
  obtain ⟨hevents, hgathers⟩ := @feed_short cfg t0Frame hwide _ _ _ hhead d [] hd (by rw [List.length_nil]; omega)
  obtain ⟨hevents', hgathers'⟩ := @feed_bit cfg t0Frame hwide _ _ _ hlast _ _ hgathers (by rw [List.nil_append]; omega)
  rw [List.nil_append, hsplit, complete, if_pos hword, hevents] at hevents'
  rw [List.nil_append, hsplit, remaining, if_pos hword] at hgathers'
  rw [feed_append, List.append_nil]
  exact ⟨hevents', hgathers'⟩

/-- The words of a transfer. -/
theorem feed_words (hwide : cfg.bitsPerWord ≤ 64) (hpos : 0 < cfg.bitsPerWord)
    {words : List (BitVec cfg.bitsPerWord × BitVec cfg.bitsPerWord)} {prev : Bool} {seg : List SampleFrame}
    (h : cfg.ShowsBits prev (Transfer.wordBits words) seg) {d : SpiDecoder} (hd : Gathers cfg d prev []) :
    (feed cfg t0Frame d seg).events =
        d.events ++ (words.map fun (mosi, miso) => (cfg.wordLabel mosi.toNat miso.toNat, false)) ∧
      Gathers cfg (feed cfg t0Frame d seg) (if Transfer.wordBits words = [] then prev else !cfg.setupLevel) [] := by
  induction words generalizing prev seg d with
  | nil =>
    obtain rfl : seg = [] := h
    exact ⟨(List.append_nil _).symm, hd⟩
  | cons word words ih =>
    obtain ⟨mosi, miso⟩ := word
    rw [Transfer.wordBits, List.flatMap_cons] at h
    obtain ⟨head, tail, rfl, hhead, htail⟩ := showsBits_append h
    have hlength : ((cfg.wireBits mosi).zip (cfg.wireBits miso)).length = cfg.bitsPerWord := by
      rw [List.length_zip, SpiConfig.length_wireBits, SpiConfig.length_wireBits, Nat.min_self]
    have hne : (cfg.wireBits mosi).zip (cfg.wireBits miso) ≠ [] := List.ne_nil_of_length_pos (hlength ▸ hpos)
    obtain ⟨hevents, hgathers⟩ := @feed_word cfg t0Frame hwide hpos _ hlength _ _ hhead d hd
    have hsame := (SpiConfig.length_wireBits mosi).trans (SpiConfig.length_wireBits miso).symm
    rw [List.map_fst_zip hsame.le, List.map_snd_zip hsame.ge, SpiConfig.wordValue_wireBits,
      SpiConfig.wordValue_wireBits] at hevents
    rw [if_neg hne] at htail
    obtain ⟨hevents', hgathers'⟩ := ih htail hgathers
    have hbits : Transfer.wordBits ((mosi, miso) :: words) ≠ [] := by
      rw [Transfer.wordBits, List.flatMap_cons]
      exact List.append_ne_nil_of_left_ne_nil hne _
    rw [ite_self] at hgathers'
    rw [feed_append, if_neg hbits, hevents', hevents, List.append_assoc]
    exact ⟨rfl, hgathers'⟩

/-- The release of the chip ends a word that has begun. -/
theorem release_gathers (hwide : cfg.bitsPerWord ≤ 64) {d : SpiDecoder} {clk : Bool} {rest : List (Bool × Bool)}
    (hd : Gathers cfg d clk rest) (hshort : rest.length < cfg.bitsPerWord) (tUs : ℚ) :
    (release cfg tUs d).events = d.events ++ (if rest = [] then [] else
        [(cfg.wordLabel (cfg.wordValue (rest.map Prod.fst)) (cfg.wordValue (rest.map Prod.snd)), true)]) ∧
      Gathers cfg (release cfg tUs d) cfg.cpol [] := by
  refine ⟨?_, rfl, rfl, cfg.ofNat_wordValue_nil.symm, cfg.ofNat_wordValue_nil.symm, fun h => absurd rfl h⟩
  unfold release
  by_cases hnil : rest = []
  · subst hnil
    have hcount : (d.inTransfer && decide (0 < d.bitCount)) = false := by
      rw [hd.bitCount, List.length_nil, decide_eq_false (Nat.lt_irrefl 0), Bool.and_false]
    rw [hcount, if_neg Bool.false_ne_true, if_pos rfl, List.append_nil]
    rfl
  · have hcount : (d.inTransfer && decide (0 < d.bitCount)) = true := by
      rw [hd.started hnil, hd.bitCount, decide_eq_true (List.length_pos_iff.mpr hnil)]
      rfl
    have hvalue : ∀ l : List Bool, l.length = rest.length → (BitVec.ofNat 64 (cfg.wordValue l)).toNat = cfg.wordValue l := by
      intro l hl
      have hle : l.length ≤ 64 := by omega
      exact Nat.mod_eq_of_lt (SpiConfig.wordValue_lt l |>.trans_le (Nat.pow_le_pow_right (by decide) hle))
    have herror : d.bitCount ≠ cfg.bitsPerWord := by
      rw [hd.bitCount]
      omega
    rw [hcount, if_pos rfl, if_neg hnil, decide_eq_true herror, events, emit, hd.mosiWord, hd.misoWord,
      hvalue _ (List.length_map _), hvalue _ (List.length_map _), List.map_append]
    rfl

/-- Once the chip is released nothing happens. -/
theorem feed_released (hcs : cfg.csPin ≠ []) (hwide : cfg.bitsPerWord ≤ 64) {seg : List SampleFrame}
    (h : ∀ frame ∈ seg, samplePinValue frame cfg.csPin = true) (hne : seg ≠ []) {d : SpiDecoder} {clk : Bool}
    {rest : List (Bool × Bool)} (hd : Gathers cfg d clk rest) (hshort : rest.length < cfg.bitsPerWord) :
    (feed cfg t0Frame d seg).events = d.events ++ (if rest = [] then [] else
        [(cfg.wordLabel (cfg.wordValue (rest.map Prod.fst)) (cfg.wordValue (rest.map Prod.snd)), true)]) ∧
      Gathers cfg (feed cfg t0Frame d seg) cfg.cpol [] := by
  induction seg generalizing d clk rest with
  | nil => exact absurd rfl hne
  | cons frame seg ih =>
    obtain ⟨hframe, hseg⟩ := List.forall_mem_cons.mp h
    have hnext : next cfg t0Frame d frame = release cfg (sampleTimeUs frame t0Frame) d := if_pos ⟨hcs, hframe⟩
    obtain ⟨hevents, hgathers⟩ := release_gathers hwide hd hshort (sampleTimeUs frame t0Frame)
    rw [feed, List.foldl_cons, hnext]
    by_cases hnil : seg = []
    · rw [hnil]
      exact ⟨hevents, hgathers⟩
    · obtain ⟨hevents', hgathers'⟩ := ih hseg hnil hgathers (Nat.zero_le _ |>.trans_lt hshort)
      rw [if_pos rfl, List.append_nil] at hevents'
      exact ⟨hevents'.trans hevents, hgathers'⟩

/-- A transfer is decoded as what it is, and nothing of it is left. -/
theorem feed_transfer (hcs : cfg.csPin ≠ []) (hwide : cfg.bitsPerWord ≤ 64) {t : Transfer cfg} {seg : List SampleFrame}
    (h : cfg.ShowsTransfer t.bits seg) {d : SpiDecoder} (hd : Gathers cfg d cfg.cpol []) :
    (feed cfg t0Frame d seg).events = d.events ++ t.events ∧ Gathers cfg (feed cfg t0Frame d seg) cfg.cpol [] := by
  obtain ⟨lead, body, tail, released, rfl, hlead, hbody, htail, hne, hreleased⟩ := h
  have hpos : 0 < cfg.bitsPerWord := (Nat.zero_le _).trans_lt t.short
  obtain ⟨hevents₁, hgathers₁⟩ := @feed_stays cfg t0Frame _ _ hlead d _ _ hd (.inr rfl)
  rw [ite_self] at hgathers₁
  obtain ⟨words, rest, rfl, hwords, hrest⟩ := showsBits_append hbody
  obtain ⟨hevents₂, hgathers₂⟩ := @feed_words cfg t0Frame hwide hpos _ _ _ hwords _ hgathers₁
  obtain ⟨hevents₃, hgathers₃⟩ := @feed_short cfg t0Frame hwide _ _ _ hrest _ _ hgathers₂
    (by rw [List.length_nil, Nat.zero_add]; exact t.short)
  -- the clock may be where it has sampled the last bit, which is not where it is idle if the phase is 0
  have hlevel : ∀ clk, clk = cfg.cpol ∨ clk = !cfg.setupLevel → cfg.cpol = cfg.setupLevel ∨ clk = cfg.cpol := by
    unfold SpiConfig.setupLevel
    generalize cfg.cpol = cpol, cfg.cpha = cpha
    revert cpol cpha
    decide
  have hclk : (if t.rest = [] then if Transfer.wordBits t.words = [] then cfg.cpol else !cfg.setupLevel
      else !cfg.setupLevel) = cfg.cpol ∨ (if t.rest = [] then if Transfer.wordBits t.words = [] then cfg.cpol
        else !cfg.setupLevel else !cfg.setupLevel) = !cfg.setupLevel := by
    split
    · split
      · exact .inl rfl
      · exact .inr rfl
    · exact .inr rfl
  obtain ⟨hevents₄, hgathers₄⟩ := @feed_stays cfg t0Frame _ _ htail _ _ _ hgathers₃ (hlevel _ hclk)
  obtain ⟨hevents₅, hgathers₅⟩ := @feed_released cfg t0Frame hcs hwide _ hreleased hne _ _ _ hgathers₄ t.short
  rw [feed_append, feed_append, feed_append, feed_append]
  refine ⟨?_, hgathers₅⟩
  rw [hevents₅, hevents₄, hevents₃, hevents₂, hevents₁, List.append_assoc]
  rfl

/-- So are transfers. -/
theorem feed_transfers (hcs : cfg.csPin ≠ []) (hwide : cfg.bitsPerWord ≤ 64) {transfers : List (Transfer cfg)}
    {segs : List (List SampleFrame)} (h : List.Forall₂ (fun t seg => cfg.ShowsTransfer t.bits seg) transfers segs)
    {d : SpiDecoder} (hd : Gathers cfg d cfg.cpol []) :
    (feed cfg t0Frame d segs.flatten).events = d.events ++ transfers.flatMap Transfer.events := by
  induction h generalizing d with
  | nil => exact (List.append_nil _).symm
  | cons hhead _ ih =>
    obtain ⟨hevents, hgathers⟩ := @feed_transfer cfg t0Frame hcs hwide _ _ hhead d hd
    rw [List.flatten_cons, feed_append, ih hgathers, hevents, List.append_assoc, List.flatMap_cons]

end SpiDecoder

/-- What is decoded of transfers, in whatever samples they are shown, is their words, and an error for each that breaks off
within a word. -/
theorem decodeSpi_transfers {cfg : SpiConfig} (hclk : cfg.clkPin ≠ []) (hcs : cfg.csPin ≠ [])
    (hbits : 1 ≤ cfg.bitsPerWord ∧ cfg.bitsPerWord ≤ 64) {idle : List SampleFrame} (hidle : cfg.Released idle)
    {transfers : List (Transfer cfg)} {segs : List (List SampleFrame)}
    (h : List.Forall₂ (fun t seg => cfg.ShowsTransfer t.bits seg) transfers segs) :
    (decodeSpi (idle ++ segs.flatten) cfg).map DecodedFrame.event = transfers.flatMap Transfer.events := by
  obtain ⟨hne, hreleased⟩ := hidle
  obtain ⟨t0Frame, rest, rfl⟩ := List.exists_cons_of_ne_nil hne
  have hstart : SpiDecoder.Gathers cfg { prevClk := cfg.cpol } cfg.cpol [] :=
    ⟨rfl, rfl, cfg.ofNat_wordValue_nil.symm, cfg.ofNat_wordValue_nil.symm, fun h => absurd rfl h⟩
  have hrest : (SpiDecoder.feed cfg t0Frame { prevClk := cfg.cpol } rest).events = [] ∧
      SpiDecoder.Gathers cfg (SpiDecoder.feed cfg t0Frame { prevClk := cfg.cpol } rest) cfg.cpol [] := by
    by_cases hnil : rest = []
    · rw [hnil]
      exact ⟨rfl, hstart⟩
    · obtain ⟨hevents, hgathers⟩ := @SpiDecoder.feed_released cfg t0Frame hcs hbits.2 rest
        (List.forall_mem_cons.mp hreleased).2 hnil _ _ _ hstart hbits.1
      exact ⟨hevents, hgathers⟩
  have hevents := @SpiDecoder.feed_transfers cfg t0Frame hcs hbits.2 _ _ h _ hrest.2
  rw [← SpiDecoder.feed_append, hrest.1, List.nil_append] at hevents
  rw [List.cons_append, decodeSpi, if_neg hclk]
  exact hevents

/-! ### A bus -/

/-- The four pins of a bus, in the second of the clock modes. -/
def fourWires : SpiConfig :=
  { clkPin := "CLK".toList, mosiPin := "MOSI".toList, misoPin := "MISO".toList, csPin := "CS_N".toList, cpha := true }

/-- A sample of the bus. -/
def busSample (csN clk mosi miso : Bool) : SampleFrame :=
  { data := { pinStates := (((((∅ : PinStates).insert "CS_N".toList (pinStateOf csN)).insert "CLK".toList
      (pinStateOf clk)).insert "MOSI".toList (pinStateOf mosi)).insert "MISO".toList (pinStateOf miso)) } }

theorem busSample_values : ∀ csN clk mosi miso, samplePinValue (busSample csN clk mosi miso) fourWires.csPin = csN ∧
    samplePinValue (busSample csN clk mosi miso) fourWires.clkPin = clk ∧
    fourWires.bitPair (busSample csN clk mosi miso) = (mosi, miso) := by decide

/-- Bits in as few samples as they take. -/
def busBits (bits : List (Bool × Bool)) : List SampleFrame :=
  bits.flatMap fun bit => [busSample false true bit.1 bit.2, busSample false false bit.1 bit.2]

theorem stays_busSample (clk mosi miso : Bool) : fourWires.Stays clk [busSample false clk mosi miso] := by
  intro frame hframe
  rw [List.mem_singleton.mp hframe]
  exact ⟨(busSample_values _ _ _ _).1, (busSample_values _ _ _ _).2.1⟩

theorem showsBits_busBits (prev : Bool) (bits : List (Bool × Bool)) : fourWires.ShowsBits prev bits (busBits bits) := by
  induction bits generalizing prev with
  | nil => rfl
  | cons bit bits ih =>
    refine ⟨[_, _], _, List.flatMap_cons, ?_, ih _⟩
    exact ⟨[busSample false true bit.1 bit.2], busSample false false bit.1 bit.2, [], rfl, stays_busSample _ _ _,
      fun h => absurd h (List.cons_ne_nil _ _), stays_busSample _ _ _, (busSample_values _ _ _ _).2.2⟩

/-- Whatever a transfer is, there are samples that show it. -/
theorem showsTransfer_busBits (bits : List (Bool × Bool)) :
    fourWires.ShowsTransfer bits (busBits bits ++ [busSample true false false false]) := by
  have hnone : fourWires.Stays fourWires.cpol [] := fun _ h => absurd h List.not_mem_nil
  refine ⟨[], busBits bits, [], [busSample true false false false], ?_, hnone, showsBits_busBits _ _, hnone,
    List.cons_ne_nil _ _, ?_⟩
  · rw [List.nil_append, List.append_nil]
  · intro frame hframe
    rw [List.mem_singleton.mp hframe]
    exact (busSample_values _ _ _ _).1

/-- A byte, three bits of another, and a byte after the chip has been selected again. -/
def twoTransfers : List (Transfer fourWires) :=
  [⟨[((0xA5 : BitVec 8), (0x3C : BitVec 8))], [(true, false), (false, true), (true, true)], by decide⟩,
    ⟨[((0x12 : BitVec 8), (0xFF : BitVec 8))], [], by decide⟩]

/-- What is decoded of them. -/
theorem decodeSpi_twoTransfers : (decodeSpi ([busSample true false false false] ++
      (twoTransfers.map fun t => busBits t.bits ++ [busSample true false false false]).flatten) fourWires).map
        DecodedFrame.event =
    [("MOSI:A5 MISO:3C".toList, false), ("MOSI:05 MISO:03".toList, true), ("MOSI:12 MISO:FF".toList, false)] := by
  have hidle : fourWires.Released [busSample true false false false] := by
    refine ⟨List.cons_ne_nil _ _, fun frame hframe => ?_⟩
    rw [List.mem_singleton.mp hframe]
    exact (busSample_values _ _ _ _).1
  have hshown : List.Forall₂ (fun t seg => fourWires.ShowsTransfer t.bits seg) twoTransfers
      (twoTransfers.map fun t => busBits t.bits ++ [busSample true false false false]) :=
    List.forall₂_map_right_iff.mpr (List.forall₂_same.mpr fun t _ => showsTransfer_busBits t.bits)
  rw [decodeSpi_transfers (List.cons_ne_nil _ _) (List.cons_ne_nil _ _) (by decide) hidle hshown]
  decide

end OwlTap.Protocol
