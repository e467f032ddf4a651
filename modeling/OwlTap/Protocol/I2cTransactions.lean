import OwlTap.Protocol.I2cDecoder

/-!
# I2C transactions

A waveform is a row of symbols: a start, a bit, a repeated start, a stop, each shown in as many
samples as one likes (`Renders`). What a symbol does to the decoder depends on nothing but the symbol
(`feed_symbol`), so what is decoded of a list of transactions is what they are, after whatever was on
the bus before (`decode_messages`). With the starts and stops, which are exact if and only if the
first sample is as good as an idle bus, this is `decodeI2c_exact`.
-/

namespace OwlTap.Protocol

open OwlTap Bsdl BoundaryScan Capture

/-! ### Waveforms -/

/-- What is on a bus. -/
inductive Symbol where
  | start
  | bit (b : Bool)
  | restart
  | stop

/-- Both lines stay at their levels. -/
def Held (cfg : I2cConfig) (level : Bool × Bool) (seg : List SampleFrame) : Prop :=
  seg ≠ [] ∧ ∀ frame ∈ seg, cfg.levels frame = level

/-- The clock is low; the data line may do what it likes. -/
def ClockLow (cfg : I2cConfig) (seg : List SampleFrame) : Prop := seg ≠ [] ∧ ∀ frame ∈ seg, (cfg.levels frame).1 = false

/-- Samples that show a symbol. -/
def Renders (cfg : I2cConfig) : Symbol → List SampleFrame → Prop
  | .start, seg => Held cfg (true, false) seg
  | .bit b, seg => ∃ low high, seg = low ++ high ∧ ClockLow cfg low ∧ Held cfg (true, b) high
  | .restart, seg => ∃ low high held, seg = low ++ high ++ held ∧ ClockLow cfg low ∧ Held cfg (true, true) high ∧
      Held cfg (true, false) held
  | .stop, seg => ∃ low high held, seg = low ++ high ++ held ∧ ClockLow cfg low ∧ Held cfg (true, false) high ∧
      Held cfg (true, true) held

/-- Samples that show a row of symbols. -/
def Waveform (cfg : I2cConfig) (symbols : List Symbol) (samples : List SampleFrame) : Prop :=
  ∃ segs, samples = segs.flatten ∧ List.Forall₂ (Renders cfg) symbols segs

/-! ### Transactions -/

/-- An address with its direction, and bytes; each is acknowledged or not. -/
structure Transaction where
  address : BitVec 7
  read : Bool
  nak : Bool
  bytes : List (Byte × Bool)

/-- Transactions from a start to a stop. -/
structure Message where
  first : Transaction
  /-- Those that follow, each after a repeated start. -/
  rest : List Transaction

/-- An acknowledgement, or none. -/
def ackEvent (nak : Bool) : Text × Bool := (if nak then "NAK".toList else "ACK".toList, nak)

namespace Transaction

/-- The first byte on the bus. -/
def addrByte (t : Transaction) : Byte := t.address ++ BitVec.ofBool t.read

def symbols (t : Transaction) : List Symbol :=
  (msbFirst t.addrByte ++ [t.nak]).map .bit ++ t.bytes.flatMap fun (byte, nak) => (msbFirst byte ++ [nak]).map .bit

def events (t : Transaction) : List (Text × Bool) :=
  [(addrLabel t.address.toNat t.read, false), ackEvent t.nak] ++
    t.bytes.flatMap fun (byte, nak) => [(dataLabel byte.toNat, false), ackEvent nak]

end Transaction

namespace Message

def symbols (m : Message) : List Symbol :=
  .start :: m.first.symbols ++ (m.rest.flatMap fun t => .restart :: t.symbols) ++ [.stop]

def events (m : Message) : List (Text × Bool) :=
  ("START".toList, false) :: m.first.events ++ (m.rest.flatMap fun t => ("START".toList, false) :: t.events) ++
    [("STOP".toList, false)]

end Message

/-- Samples that show messages, one after the other. -/
def Shows (cfg : I2cConfig) (messages : List Message) (samples : List SampleFrame) : Prop :=
  ∃ waves, samples = waves.flatten ∧ List.Forall₂ (fun m wave => Waveform cfg m.symbols wave) messages waves

/-! ### The decoder, symbol by symbol -/

/-- What the decoder remembers besides the lines and the times. -/
structure Phase where
  state : I2cState
  bitCount : ℕ
  shiftReg : BitVec 8
  deriving DecidableEq

namespace Phase

/-- A bit, with what is decoded there. -/
def bit (b : Bool) (p : Phase) : Phase × List (Text × Bool) :=
  match p.state with
  | .idle => (p, [])
  | .addr | .data =>
    let shiftReg := p.shiftReg <<< 1 ||| (BitVec.ofBool b).setWidth 8
    if p.bitCount + 1 = 8 then
      if p.state = .addr then
        (⟨.addrAck, 0, 0⟩, [(addrLabel (shiftReg >>> 1 &&& 0x7F).toNat (shiftReg &&& 1 ≠ 0), false)])
      else (⟨.dataAck, 0, 0⟩, [(dataLabel shiftReg.toNat, false)])
    else (⟨p.state, p.bitCount + 1, shiftReg⟩, [])
  | .addrAck | .dataAck => (⟨.data, 0, 0⟩, [ackEvent b])

/-- A symbol; at a repeated start and at a stop the clock rises as it does for a bit. -/
def symbol (s : Symbol) (p : Phase) : Phase × List (Text × Bool) :=
  match s with
  | .start => (⟨.addr, 0, 0⟩, [("START".toList, false)])
  | .bit b => p.bit b
  | .restart => (⟨.addr, 0, 0⟩, (p.bit true).2 ++ [("START".toList, false)])
  | .stop => ({ (p.bit false).1 with state := .idle }, (p.bit false).2 ++ [("STOP".toList, false)])

/-- A row of symbols. -/
def run : List Symbol → Phase → Phase × List (Text × Bool)
  | [], p => (p, [])
  | s :: ss, p => ((run ss (p.symbol s).1).1, (p.symbol s).2 ++ (run ss (p.symbol s).1).2)

theorem run_append (ss ss' : List Symbol) (p : Phase) :
    run (ss ++ ss') p = ((run ss' (run ss p).1).1, (run ss p).2 ++ (run ss' (run ss p).1).2) := by
  induction ss generalizing p with
  | nil => rfl
  | cons s ss ih => rw [List.cons_append, run, ih, run, List.append_assoc]

/-- A bit is shifted in. -/
def shiftIn (reg : BitVec 8) (b : Bool) : BitVec 8 := reg <<< 1 ||| (BitVec.ofBool b).setWidth 8

/-- Eight bits make a byte, the first being the most significant one. -/
theorem foldl_shiftIn (byte : Byte) : (msbFirst byte).foldl shiftIn 0 = byte := by
  revert byte
  decide

/-- Before the eighth bit they are shifted in, and nothing is decoded. -/
theorem run_bits {state : I2cState} (hstate : state = .addr ∨ state = .data) (bs : List Bool) (count : ℕ) (reg : BitVec 8)
    (hcount : count + bs.length < 8) :
    run (bs.map .bit) ⟨state, count, reg⟩ = (⟨state, count + bs.length, bs.foldl shiftIn reg⟩, []) := by
  induction bs generalizing count reg with
  | nil => rfl
  | cons b bs ih =>
    rw [List.length_cons] at hcount
    have hbit : bit b ⟨state, count, reg⟩ = (⟨state, count + 1, shiftIn reg b⟩, []) := by
      have hcount' : ¬count + 1 = 8 := by omega
      rcases hstate with rfl | rfl
      · exact if_neg hcount'
      · exact if_neg hcount'
    rw [List.map_cons, run, symbol, hbit, ih (count + 1) _ (by omega), List.length_cons, List.foldl_cons,
      Nat.add_right_comm, Nat.add_assoc]
    rfl

/-- The eight bits of a byte, the last of them apart. -/
theorem run_eight {state : I2cState} (hstate : state = .addr ∨ state = .data) (byte : Byte) :
    run ((msbFirst byte).map .bit) ⟨state, 0, 0⟩ =
      run [.bit (byte.getLsbD 0)] ⟨state, 7, ((msbFirst byte).take 7).foldl shiftIn 0⟩ := by
  have hsplit : (msbFirst byte).map Symbol.bit = ((msbFirst byte).take 7).map .bit ++ [.bit (byte.getLsbD 0)] := rfl
  have hseven : 0 + ((msbFirst byte).take 7).length < 8 := by
    rw [List.length_take, length_msbFirst]
    decide
  rw [hsplit, run_append, run_bits hstate _ 0 0 hseven]
  rfl

/-- What the eight bits amount to. -/
theorem shiftIn_seven (byte : Byte) : shiftIn (((msbFirst byte).take 7).foldl shiftIn 0) (byte.getLsbD 0) = byte :=
  foldl_shiftIn byte

theorem run_addr (byte : Byte) : run ((msbFirst byte).map .bit) ⟨.addr, 0, 0⟩ =
    (⟨.addrAck, 0, 0⟩, [(addrLabel (byte >>> 1 &&& 0x7F).toNat (byte &&& 1 ≠ 0), false)]) := by
  have hbit : ∀ b reg, run [.bit b] ⟨.addr, 7, reg⟩ =
      (⟨.addrAck, 0, 0⟩, [(addrLabel (shiftIn reg b >>> 1 &&& 0x7F).toNat (shiftIn reg b &&& 1 ≠ 0), false)]) :=
    fun _ _ => rfl
  rw [run_eight (.inl rfl), hbit, shiftIn_seven]

theorem run_data (byte : Byte) : run ((msbFirst byte).map .bit) ⟨.data, 0, 0⟩ =
    (⟨.dataAck, 0, 0⟩, [(dataLabel byte.toNat, false)]) := by
  have hbit : ∀ b reg, run [.bit b] ⟨.data, 7, reg⟩ = (⟨.dataAck, 0, 0⟩, [(dataLabel (shiftIn reg b).toNat, false)]) :=
    fun _ _ => rfl
  rw [run_eight (.inr rfl), hbit, shiftIn_seven]

/-- A byte and its acknowledgement. -/
theorem run_byte (byte : Byte) (nak : Bool) : run ((msbFirst byte ++ [nak]).map .bit) ⟨.data, 0, 0⟩ =
    (⟨.data, 0, 0⟩, [(dataLabel byte.toNat, false), ackEvent nak]) := by
  rw [List.map_append, run_append, run_data]
  rfl

theorem run_bytes (bytes : List (Byte × Bool)) :
    run (bytes.flatMap fun (byte, nak) => (msbFirst byte ++ [nak]).map .bit) ⟨.data, 0, 0⟩ =
      (⟨.data, 0, 0⟩, bytes.flatMap fun (byte, nak) => [(dataLabel byte.toNat, false), ackEvent nak]) := by
  induction bytes with
  | nil => rfl
  | cons b bytes ih => rw [List.flatMap_cons, run_append, run_byte, ih, List.flatMap_cons]

theorem addrByte_eq (t : Transaction) :
    (t.addrByte >>> 1 &&& 0x7F).toNat = t.address.toNat ∧ decide (t.addrByte &&& 1 ≠ 0) = t.read := by
  have hbyte : ∀ (address : BitVec 7) (read : Bool),
      ((address ++ BitVec.ofBool read : BitVec 8) >>> 1 &&& 0x7F).toNat = address.toNat ∧
        decide ((address ++ BitVec.ofBool read : BitVec 8) &&& 1 ≠ 0) = read := by decide
  exact hbyte t.address t.read

/-- A transaction is decoded as what it is, and leaves the decoder as if a byte were to follow. -/
theorem run_transaction (t : Transaction) : run t.symbols ⟨.addr, 0, 0⟩ = (⟨.data, 0, 0⟩, t.events) := by
  have haddr : run ((msbFirst t.addrByte ++ [t.nak]).map .bit) ⟨.addr, 0, 0⟩ =
      (⟨.data, 0, 0⟩, [(addrLabel t.address.toNat t.read, false), ackEvent t.nak]) := by
    rw [List.map_append, run_append, run_addr, (addrByte_eq t).1, (addrByte_eq t).2]
    rfl
  rw [Transaction.symbols, run_append, haddr, run_bytes]
  rfl

theorem run_rest (rest : List Transaction) : run (rest.flatMap fun t => .restart :: t.symbols) ⟨.data, 0, 0⟩ =
    (⟨.data, 0, 0⟩, rest.flatMap fun t => ("START".toList, false) :: t.events) := by
  induction rest with
  | nil => rfl
  | cons t rest ih =>
    have ht : run (.restart :: t.symbols) ⟨.data, 0, 0⟩ = (⟨.data, 0, 0⟩, ("START".toList, false) :: t.events) := by
      rw [run, symbol, run_transaction]
      rfl
    rw [List.flatMap_cons, run_append, ht, ih, List.flatMap_cons]

/-- A message is decoded as what it is, whatever the decoder was at. -/
theorem run_message (m : Message) (p : Phase) : ((run m.symbols p).1.state, (run m.symbols p).2) = (.idle, m.events) := by
  have hbody : run (m.first.symbols ++ (m.rest.flatMap fun t => .restart :: t.symbols) ++ [.stop]) ⟨.addr, 0, 0⟩ =
      (⟨.idle, 1, 0⟩, m.first.events ++ (m.rest.flatMap fun t => ("START".toList, false) :: t.events) ++
        [("STOP".toList, false)]) := by
    have hstop : run [.stop] ⟨.data, 0, 0⟩ = (⟨.idle, 1, 0⟩, [("STOP".toList, false)]) := by decide
    rw [run_append, run_append, run_transaction, run_rest, hstop]
  rw [Message.symbols, List.cons_append, List.cons_append, run, symbol, hbody]
  rfl

end Phase

/-! ### Samples -/

namespace I2cDecoder

variable {cfg : I2cConfig} {t0Frame : SampleFrame}

/-- What the decoder remembers. -/
def phase (d : I2cDecoder) : Phase := ⟨d.state, d.bitCount, d.shiftReg⟩

/-- What has been decoded. -/
def events (d : I2cDecoder) : List (Text × Bool) := d.frames.map DecodedFrame.event

theorem feed_cons (d : I2cDecoder) {frame : SampleFrame} {scl sda : Bool} (h : cfg.levels frame = (scl, sda))
    (rest : List SampleFrame) :
    feed cfg t0Frame d (frame :: rest) = feed cfg t0Frame (d.next scl sda (sampleTimeUs frame t0Frame)) rest := by
  obtain ⟨hscl, hsda⟩ := Prod.mk.inj h
  rw [feed, List.foldl_cons, hscl, hsda]
  rfl

theorem feed_append (d : I2cDecoder) (samples samples' : List SampleFrame) :
    feed cfg t0Frame d (samples ++ samples') = feed cfg t0Frame (feed cfg t0Frame d samples) samples' :=
  List.foldl_append

/-- While the clock is low nothing happens. -/
theorem feed_low {seg : List SampleFrame} (h : ClockLow cfg seg) (d : I2cDecoder) :
    ∃ v, feed cfg t0Frame d seg = { d with prevScl := false, prevSda := v } := by
  obtain ⟨hne, hlow⟩ := h
  have hround : ∀ sda tUs (d : I2cDecoder), d.next false sda tUs = { d with prevScl := false, prevSda := sda } := by
    intro sda tUs d
    have hstart : startsBetween (d.prevScl, d.prevSda) (false, sda) = false := by
      simp [startsBetween]
    have hstop : stopsBetween (d.prevScl, d.prevSda) (false, sda) = false := by
      simp [stopsBetween]
    rw [next_eq, hstart, hstop, if_neg Bool.false_ne_true, if_neg Bool.false_ne_true, Bool.and_false,
      if_neg Bool.false_ne_true]
  induction seg generalizing d with
  | nil => exact absurd rfl hne
  | cons frame rest ih =>
    obtain ⟨hframe, hrest⟩ := List.forall_mem_cons.mp hlow
    rw [feed_cons d (Prod.ext hframe rfl : cfg.levels frame = (false, (cfg.levels frame).2)), hround]
    by_cases hnil : rest = []
    · rw [hnil]
      exact ⟨_, rfl⟩
    · exact ih _ hnil hrest

/-- While both lines stay nothing happens. -/
theorem feed_held {seg : List SampleFrame} {sda : Bool} (h : ∀ frame ∈ seg, cfg.levels frame = (true, sda))
    (d : I2cDecoder) (hscl : d.prevScl = true) (hsda : d.prevSda = sda) : feed cfg t0Frame d seg = d := by
  induction seg with
  | nil => rfl
  | cons frame rest ih =>
    obtain ⟨hframe, hrest⟩ := List.forall_mem_cons.mp h
    have hnone : ∀ b, startsBetween (true, b) (true, b) = false ∧ stopsBetween (true, b) (true, b) = false := by decide
    have hround : d.next true sda (sampleTimeUs frame t0Frame) = d := by
      rw [next_eq, hscl, hsda, (hnone sda).1, (hnone sda).2, if_neg Bool.false_ne_true, if_neg Bool.false_ne_true,
        Bool.not_true, Bool.false_and, if_neg Bool.false_ne_true, ← hscl, ← hsda]
    rw [feed_cons d hframe, hround, ih hrest]

/-- The clock rises, and a bit is sampled. -/
theorem feed_rise {seg : List SampleFrame} {sda : Bool} (h : Held cfg (true, sda) seg) (d : I2cDecoder)
    (hscl : d.prevScl = false) :
    ∃ tUs, feed cfg t0Frame d seg = { sampleBit sda tUs d with prevScl := true, prevSda := sda } := by
  obtain ⟨hne, hheld⟩ := h
  obtain ⟨frame, rest, rfl⟩ := List.exists_cons_of_ne_nil hne
  obtain ⟨hframe, hrest⟩ := List.forall_mem_cons.mp hheld
  refine ⟨sampleTimeUs frame t0Frame, ?_⟩
  have hround : d.next true sda (sampleTimeUs frame t0Frame) =
      { sampleBit sda (sampleTimeUs frame t0Frame) d with prevScl := true, prevSda := sda } := by
    rw [next_eq, hscl]
    rfl
  rw [feed_cons d hframe, hround, feed_held hrest _ rfl rfl]

/-- The data line falls while the clock is high. -/
theorem feed_start {seg : List SampleFrame} (h : Held cfg (true, false) seg) (d : I2cDecoder)
    (hscl : d.prevScl = true) (hsda : d.prevSda = true) : ∃ tUs, feed cfg t0Frame d seg =
      { emit tUs tUs "START".toList false d with
        state := .addr, bitCount := 0, shiftReg := 0, eventStartUs := tUs, prevScl := true, prevSda := false } := by
  obtain ⟨hne, hheld⟩ := h
  obtain ⟨frame, rest, rfl⟩ := List.exists_cons_of_ne_nil hne
  obtain ⟨hframe, hrest⟩ := List.forall_mem_cons.mp hheld
  refine ⟨sampleTimeUs frame t0Frame, ?_⟩
  rw [feed_cons d hframe, next_eq, hscl, hsda]
  exact feed_held hrest _ rfl rfl

/-- The data line rises while the clock is high. -/
theorem feed_stop {seg : List SampleFrame} (h : Held cfg (true, true) seg) (d : I2cDecoder)
    (hscl : d.prevScl = true) (hsda : d.prevSda = false) : ∃ tUs, feed cfg t0Frame d seg =
      { emit tUs tUs "STOP".toList false d with state := .idle, prevScl := true, prevSda := true } := by
  obtain ⟨hne, hheld⟩ := h
  obtain ⟨frame, rest, rfl⟩ := List.exists_cons_of_ne_nil hne
  obtain ⟨hframe, hrest⟩ := List.forall_mem_cons.mp hheld
  refine ⟨sampleTimeUs frame t0Frame, ?_⟩
  rw [feed_cons d hframe, next_eq, hscl, hsda]
  exact feed_held hrest _ rfl rfl

theorem emit_events (s e : ℚ) (label : Text) (err : Bool) (d : I2cDecoder) :
    (emit s e label err d).events = d.events ++ [(label, err)] := List.map_append

/-- A bit does to the decoder what it does to its phase. -/
theorem sampleBit_phase (b : Bool) (tUs : ℚ) (d : I2cDecoder) :
    (sampleBit b tUs d).phase = (d.phase.bit b).1 ∧ (sampleBit b tUs d).events = d.events ++ (d.phase.bit b).2 := by
  obtain ⟨frames, state, prevScl, prevSda, bitCount, shiftReg, eventStartUs⟩ := d
  cases state with
  | idle => exact ⟨rfl, (List.append_nil _).symm⟩
  | addrAck => exact ⟨rfl, emit_events _ _ _ _ _⟩
  | dataAck => exact ⟨rfl, emit_events _ _ _ _ _⟩
  | addr =>
    by_cases hcount : bitCount + 1 = 8
    · have hsample : sampleBit b tUs ⟨frames, .addr, prevScl, prevSda, bitCount, shiftReg, eventStartUs⟩ =
          ⟨frames ++ [⟨eventStartUs, tUs, .i2c, addrLabel (Phase.shiftIn shiftReg b >>> 1 &&& 0x7F).toNat (Phase.shiftIn shiftReg b &&& 1 ≠ 0), [], false⟩],
            .addrAck, prevScl, prevSda, 0, 0, tUs⟩ := if_pos hcount
      have hphase : Phase.bit b ⟨.addr, bitCount, shiftReg⟩ =
          (⟨.addrAck, 0, 0⟩, [(addrLabel (Phase.shiftIn shiftReg b >>> 1 &&& 0x7F).toNat (Phase.shiftIn shiftReg b &&& 1 ≠ 0), false)]) := if_pos hcount
      rw [hsample]
      exact ⟨(congrArg Prod.fst hphase).symm, (emit_events _ _ _ _ ⟨frames, .addr, true, true, 0, 0, 0⟩).trans
        (congrArg (_ ++ ·) (congrArg Prod.snd hphase).symm)⟩
    · have hsample : sampleBit b tUs ⟨frames, .addr, prevScl, prevSda, bitCount, shiftReg, eventStartUs⟩ =
          ⟨frames, .addr, prevScl, prevSda, bitCount + 1, Phase.shiftIn shiftReg b, eventStartUs⟩ := if_neg hcount
      have hphase : Phase.bit b ⟨.addr, bitCount, shiftReg⟩ = (⟨.addr, bitCount + 1, Phase.shiftIn shiftReg b⟩, []) :=
        if_neg hcount
      rw [hsample]
      exact ⟨(congrArg Prod.fst hphase).symm, (List.append_nil _).symm.trans
        (congrArg (_ ++ ·) (congrArg Prod.snd hphase).symm)⟩
  | data =>
    by_cases hcount : bitCount + 1 = 8
    · have hsample : sampleBit b tUs ⟨frames, .data, prevScl, prevSda, bitCount, shiftReg, eventStartUs⟩ =
          ⟨frames ++ [⟨eventStartUs, tUs, .i2c, dataLabel (Phase.shiftIn shiftReg b).toNat, [], false⟩],
            .dataAck, prevScl, prevSda, 0, 0, tUs⟩ := if_pos hcount
      have hphase : Phase.bit b ⟨.data, bitCount, shiftReg⟩ =
          (⟨.dataAck, 0, 0⟩, [(dataLabel (Phase.shiftIn shiftReg b).toNat, false)]) := if_pos hcount
      rw [hsample]
      exact ⟨(congrArg Prod.fst hphase).symm, (emit_events _ _ _ _ ⟨frames, .data, true, true, 0, 0, 0⟩).trans
        (congrArg (_ ++ ·) (congrArg Prod.snd hphase).symm)⟩
    · have hsample : sampleBit b tUs ⟨frames, .data, prevScl, prevSda, bitCount, shiftReg, eventStartUs⟩ =
          ⟨frames, .data, prevScl, prevSda, bitCount + 1, Phase.shiftIn shiftReg b, eventStartUs⟩ := if_neg hcount
      have hphase : Phase.bit b ⟨.data, bitCount, shiftReg⟩ = (⟨.data, bitCount + 1, Phase.shiftIn shiftReg b⟩, []) :=
        if_neg hcount
      rw [hsample]
      exact ⟨(congrArg Prod.fst hphase).symm, (List.append_nil _).symm.trans
        (congrArg (_ ++ ·) (congrArg Prod.snd hphase).symm)⟩

/-- The levels that a symbol ends with. -/
def lastLevels : Symbol → Bool × Bool
  | .start | .restart => (true, false)
  | .bit b => (true, b)
  | .stop => (true, true)

/-- A symbol, in whatever samples it is shown, does to the decoder what it does to its phase; a start comes on an idle
bus. -/
theorem feed_symbol {s : Symbol} {seg : List SampleFrame} (h : Renders cfg s seg) (d : I2cDecoder)
    (hstart : s = .start → d.prevScl = true ∧ d.prevSda = true) :
    (feed cfg t0Frame d seg).phase = (d.phase.symbol s).1 ∧
      (feed cfg t0Frame d seg).events = d.events ++ (d.phase.symbol s).2 ∧
      ((feed cfg t0Frame d seg).prevScl, (feed cfg t0Frame d seg).prevSda) = lastLevels s := by
  cases s with
  | start =>
    obtain ⟨tUs, hfeed⟩ := feed_start h d (hstart rfl).1 (hstart rfl).2
    rw [hfeed]
    exact ⟨rfl, emit_events _ _ _ _ _, rfl⟩
  | bit b =>
    obtain ⟨low, high, rfl, hlow, hhigh⟩ := h
    obtain ⟨v, hv⟩ := feed_low hlow d
    obtain ⟨tUs, hfeed⟩ := feed_rise hhigh { d with prevScl := false, prevSda := v } rfl
    have hbit := sampleBit_phase b tUs { d with prevScl := false, prevSda := v }
    rw [feed_append, hv, hfeed]
    exact ⟨hbit.1, hbit.2, rfl⟩
  | restart =>
    obtain ⟨low, high, held, rfl, hlow, hhigh, hheld⟩ := h
    obtain ⟨v, hv⟩ := feed_low hlow d
    obtain ⟨tUs, hrise⟩ := feed_rise hhigh { d with prevScl := false, prevSda := v } rfl
    obtain ⟨tUs', hfeed⟩ := feed_start hheld
      { sampleBit true tUs { d with prevScl := false, prevSda := v } with prevScl := true, prevSda := true } rfl rfl
    have hbit := sampleBit_phase true tUs { d with prevScl := false, prevSda := v }
    rw [feed_append, feed_append, hv, hrise, hfeed]
    refine ⟨rfl, ?_, rfl⟩
    refine (emit_events _ _ _ _ _).trans ?_
    exact (congrArg (· ++ [("START".toList, false)]) hbit.2).trans (List.append_assoc _ _ _)
  | stop =>
    obtain ⟨low, high, held, rfl, hlow, hhigh, hheld⟩ := h
    obtain ⟨v, hv⟩ := feed_low hlow d
    obtain ⟨tUs, hrise⟩ := feed_rise hhigh { d with prevScl := false, prevSda := v } rfl
    obtain ⟨tUs', hfeed⟩ := feed_stop hheld
      { sampleBit false tUs { d with prevScl := false, prevSda := v } with prevScl := true, prevSda := false } rfl rfl
    have hbit := sampleBit_phase false tUs { d with prevScl := false, prevSda := v }
    rw [feed_append, feed_append, hv, hrise, hfeed]
    refine ⟨congrArg (fun p : Phase => { p with state := .idle }) hbit.1, ?_, rfl⟩
    refine (emit_events _ _ _ _ _).trans ?_
    exact (congrArg (· ++ [("STOP".toList, false)]) hbit.2).trans (List.append_assoc _ _ _)

/-- A row of symbols without a start. -/
theorem feed_run {symbols : List Symbol} {segs : List (List SampleFrame)} (h : List.Forall₂ (Renders cfg) symbols segs)
    (hstart : .start ∉ symbols) (d : I2cDecoder) :
    (feed cfg t0Frame d segs.flatten).phase = (Phase.run symbols d.phase).1 ∧
      (feed cfg t0Frame d segs.flatten).events = d.events ++ (Phase.run symbols d.phase).2 ∧
      ((feed cfg t0Frame d segs.flatten).prevScl, (feed cfg t0Frame d segs.flatten).prevSda) =
        ((symbols.getLast?).map lastLevels).getD (d.prevScl, d.prevSda) := by
  induction h generalizing d with
  | nil => exact ⟨rfl, (List.append_nil _).symm, rfl⟩
  | @cons s seg symbols segs hhead _ ih =>
    obtain ⟨hs, hrest⟩ := not_or.mp (mt List.mem_cons.mpr hstart)
    obtain ⟨hphase, hevents, hlines⟩ := @feed_symbol cfg t0Frame s seg hhead d fun he => absurd he.symm hs
    obtain ⟨hphase', hevents', hlines'⟩ := ih hrest (feed cfg t0Frame d seg)
    rw [List.flatten_cons, feed_append]
    refine ⟨?_, ?_, ?_⟩
    · rw [hphase', hphase]
      rfl
    · rw [hevents', hevents, hphase, List.append_assoc]
      rfl
    · rw [hlines', hlines, List.getLast?_cons]
      cases symbols.getLast? <;> rfl

theorem start_notMem (m : Message) :
    Symbol.start ∉ m.first.symbols ++ (m.rest.flatMap fun t => .restart :: t.symbols) ++ [.stop] := by
  have hbits : ∀ t : Transaction, Symbol.start ∉ t.symbols := by
    intro t
    simp [Transaction.symbols]
  simp [hbits]

/-- A message, on an idle bus, is decoded as what it is, and leaves the bus idle. -/
theorem feed_message {m : Message} {wave : List SampleFrame} (h : Waveform cfg m.symbols wave) (d : I2cDecoder)
    (hidle : (d.prevScl, d.prevSda) = (true, true)) :
    (feed cfg t0Frame d wave).events = d.events ++ m.events ∧
      ((feed cfg t0Frame d wave).prevScl, (feed cfg t0Frame d wave).prevSda) = (true, true) := by
  obtain ⟨segs, rfl, hsegs⟩ := h
  have hmessage := congrArg Prod.snd (Phase.run_message m d.phase)
  rw [Message.symbols, List.cons_append, List.cons_append] at hsegs
  cases hsegs with
  | @cons _ seg _ segs hhead htail =>
    obtain ⟨hscl, hsda⟩ := Prod.mk.inj hidle
    obtain ⟨hphase, hevents, -⟩ := @feed_symbol cfg t0Frame .start seg hhead d fun _ => ⟨hscl, hsda⟩
    obtain ⟨-, hevents', hlines⟩ := feed_run htail (start_notMem m) (feed cfg t0Frame d seg)
    rw [List.flatten_cons, feed_append]
    refine ⟨?_, ?_⟩
    · rw [hevents', hevents, hphase, List.append_assoc]
      exact congrArg (d.events ++ ·) hmessage
    · rw [hlines, List.getLast?_concat]
      rfl

theorem feed_messages {messages : List Message} {waves : List (List SampleFrame)}
    (h : List.Forall₂ (fun m wave => Waveform cfg m.symbols wave) messages waves) (d : I2cDecoder)
    (hidle : (d.prevScl, d.prevSda) = (true, true)) :
    (feed cfg t0Frame d waves.flatten).events = d.events ++ messages.flatMap Message.events := by
  induction h generalizing d with
  | nil => exact (List.append_nil _).symm
  | @cons m wave messages waves hhead _ ih =>
    obtain ⟨hevents, hlines⟩ := @feed_message cfg t0Frame m wave hhead d hidle
    rw [List.flatten_cons, feed_append, ih _ hlines, hevents, List.append_assoc, List.flatMap_cons]

/-- The decoder has seen the lines of the last sample. -/
theorem feed_last (d : I2cDecoder) (samples : List SampleFrame) (last : SampleFrame) :
    ((feed cfg t0Frame d (samples ++ [last])).prevScl, (feed cfg t0Frame d (samples ++ [last])).prevSda) =
      cfg.levels last := by
  rw [feed_append]
  exact Prod.ext (next_prevScl _ _ _ _) (next_prevSda _ _ _ _)

end I2cDecoder

/-- What is decoded of messages that come on an idle bus is what they are, after what is decoded of the samples before. -/
theorem decode_messages {cfg : I2cConfig} (hscl : cfg.sclPin ≠ []) (hsda : cfg.sdaPin ≠ []) (earlier : List SampleFrame)
    {idle : SampleFrame} (hidle : cfg.levels idle = (true, true)) {messages : List Message} {wave : List SampleFrame}
    (h : Shows cfg messages wave) : (decodeI2c (earlier ++ idle :: wave) cfg).map DecodedFrame.event =
      (decodeI2c (earlier ++ [idle]) cfg).map DecodedFrame.event ++ messages.flatMap Message.events := by
  obtain ⟨waves, rfl, hwaves⟩ := h
  have hpins : ¬(cfg.sclPin = [] ∨ cfg.sdaPin = []) := not_or.mpr ⟨hscl, hsda⟩
  have hsplit : earlier ++ idle :: waves.flatten = earlier ++ [idle] ++ waves.flatten := by
    rw [List.append_assoc, List.singleton_append]
  rw [hsplit]
  cases earlier with
  | nil =>
    rw [List.nil_append, List.singleton_append, decodeI2c, if_neg hpins, decodeI2c, if_neg hpins]
    exact I2cDecoder.feed_messages hwaves _ rfl
  | cons t0Frame rest =>
    rw [List.cons_append, List.cons_append, decodeI2c, if_neg hpins, decodeI2c, if_neg hpins, I2cDecoder.feed_append]
    exact I2cDecoder.feed_messages hwaves _ ((I2cDecoder.feed_last _ _ _).trans hidle)

/-- The starts and stops that are decoded are those of the samples if and only if the first sample is as good as an idle
bus; and transactions are decoded as what they are, after whatever was on the bus before. -/
theorem decodeI2c_exact {cfg : I2cConfig} (hscl : cfg.sclPin ≠ []) (hsda : cfg.sdaPin ≠ []) :
    (∀ samples, EventsExact cfg samples ↔ AsIfIdle cfg samples) ∧
    ∀ earlier idle messages wave, cfg.levels idle = (true, true) → Shows cfg messages wave →
      (decodeI2c (earlier ++ idle :: wave) cfg).map DecodedFrame.event =
        (decodeI2c (earlier ++ [idle]) cfg).map DecodedFrame.event ++ messages.flatMap Message.events :=
  ⟨eventsExact_iff hscl hsda, fun earlier _ _ _ hidle h => decode_messages hscl hsda earlier hidle h⟩

/-! ### A bus -/

/-- The two pins of a bus. -/
def twoWires : I2cConfig := ⟨"SCL".toList, "SDA".toList⟩

/-- A sample of the bus. -/
def wires (scl sda : Bool) : SampleFrame :=
  { data := { pinStates := ((∅ : PinStates).insert "SCL".toList (pinStateOf scl)).insert "SDA".toList (pinStateOf sda) } }

theorem levels_wires : ∀ scl sda, twoWires.levels (wires scl sda) = (scl, sda) := by decide

/-- A symbol in as few samples as it takes. -/
def segment : Symbol → List SampleFrame
  | .start => [wires true false]
  | .bit b => [wires false b, wires true b]
  | .restart => [wires false true, wires true true, wires true false]
  | .stop => [wires false false, wires true false, wires true true]

theorem renders_segment (s : Symbol) : Renders twoWires s (segment s) := by
  have hheld : ∀ scl sda, ∀ frame ∈ [wires scl sda], twoWires.levels frame = (scl, sda) := by
    intro scl sda frame hframe
    rw [List.mem_singleton.mp hframe, levels_wires]
  have hlow : ∀ sda, ClockLow twoWires [wires false sda] := fun sda =>
    ⟨List.cons_ne_nil _ _, fun frame hframe => congrArg Prod.fst (hheld false sda frame hframe)⟩
  cases s with
  | start => exact ⟨List.cons_ne_nil _ _, hheld _ _⟩
  | bit b => exact ⟨[_], [_], rfl, hlow _, List.cons_ne_nil _ _, hheld _ _⟩
  | restart =>
    exact ⟨[_], [_], [_], rfl, hlow _, ⟨List.cons_ne_nil _ _, hheld _ _⟩, List.cons_ne_nil _ _, hheld _ _⟩
  | stop => exact ⟨[_], [_], [_], rfl, hlow _, ⟨List.cons_ne_nil _ _, hheld _ _⟩, List.cons_ne_nil _ _, hheld _ _⟩

/-- Messages in as few samples as they take. -/
def samplesOf (messages : List Message) : List SampleFrame :=
  (messages.map fun m => (m.symbols.map segment).flatten).flatten

/-- Whatever the messages are, there are samples that show them. -/
theorem shows_samplesOf (messages : List Message) : Shows twoWires messages (samplesOf messages) := by
  refine ⟨_, rfl, List.forall₂_map_right_iff.mpr (List.forall₂_same.mpr fun m _ => ⟨_, rfl, ?_⟩)⟩
  exact List.forall₂_map_right_iff.mpr (List.forall₂_same.mpr fun s _ => renders_segment s)

/-- A register's number is written, and the register is read. -/
def readRegister : Message := ⟨⟨0x4A, false, false, [(0x10, false)]⟩, [⟨0x4A, true, false, [(0x55, true)]⟩]⟩

/-- A register is read, on a bus that has been seen idle from the beginning. -/
theorem decodeI2c_exact_register :
    EventsExact twoWires (wires true true :: samplesOf [readRegister]) ∧
    (decodeI2c (wires true true :: samplesOf [readRegister]) twoWires).map DecodedFrame.event =
      [("START".toList, false), ("ADDR 0x4A W".toList, false), ("ACK".toList, false), ("DATA 0x10".toList, false),
        ("ACK".toList, false), ("START".toList, false), ("ADDR 0x4A R".toList, false), ("ACK".toList, false),
        ("DATA 0x55".toList, false), ("NAK".toList, true), ("STOP".toList, false)] := by
  have hexact := @decodeI2c_exact twoWires (List.cons_ne_nil _ _) (List.cons_ne_nil _ _)
  refine ⟨(hexact.1 _).mpr fun _ => levels_wires true true, ?_⟩
  refine (hexact.2 [] _ _ _ (levels_wires true true) (shows_samplesOf _)).trans ?_
  decide

/-- The clock is low in the first sample and rises in the second, where the data line is low: a start is decoded where
there is none. -/
theorem phantom_start : (decodeI2c [wires false false, wires true false] twoWires).map DecodedFrame.label = ["START".toList] ∧
    ¬EventsExact twoWires [wires false false, wires true false] := by
  refine ⟨by decide, fun h => ?_⟩
  have hidle := (eventsExact_iff (List.cons_ne_nil _ _) (List.cons_ne_nil _ _) _).mp h
  have hlevels : twoWires.levels (wires false false) = (true, true) := hidle (congrArg Prod.fst (levels_wires true false))
  rw [levels_wires] at hlevels
  cases hlevels

end OwlTap.Protocol
