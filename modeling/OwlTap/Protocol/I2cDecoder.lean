import OwlTap.Base.BitOrder
import OwlTap.Protocol.Protocol

/-!
# The I2C decoder

`decodeI2c` follows the clock and the data line from sample to sample. It does not look at the
first sample but takes both lines for high there, so that the second sample can seem to be a start
that is none, or a stop can be missed there, and nowhere else (`eventsExact_iff`).
-/

namespace OwlTap.Protocol

open OwlTap Bsdl BoundaryScan Capture

/-- I2C decoder configuration. -/
structure I2cConfig where
  sclPin : Text
  sdaPin : Text

/-- I2C state machine states. -/
inductive I2cState where
  | idle
  /-- Reading 7-bit address and R/W bit. -/
  | addr
  /-- ACK/NAK after address. -/
  | addrAck
  /-- Reading 8 data bits. -/
  | data
  /-- ACK/NAK after data byte. -/
  | dataAck
  deriving DecidableEq

/-- The variables of `decodeI2c`. -/
structure I2cDecoder where
  frames : List DecodedFrame := []
  state : I2cState := .idle
  /-- I2C lines idle high. -/
  prevScl : Bool := true
  prevSda : Bool := true
  bitCount : ℕ := 0
  shiftReg : BitVec 8 := 0
  eventStartUs : ℚ := 0

/-- The label of an address. -/
def addrLabel (address : ℕ) (read : Bool) : Text :=
  "ADDR 0x".toList ++ hexText 2 address ++ (if read then " R".toList else " W".toList)

/-- The label of a data byte. -/
def dataLabel (byte : ℕ) : Text := "DATA 0x".toList ++ hexText 2 byte

namespace I2cDecoder

def emit (s e : ℚ) (label : Text) (err : Bool) (d : I2cDecoder) : I2cDecoder :=
  { d with frames := d.frames ++ [{ startUs := s, endUs := e, kind := .i2c, label, errorFlag := err }] }

/-- Sample data on a rising SCL edge. -/
def sampleBit (sda : Bool) (tUs : ℚ) (d : I2cDecoder) : I2cDecoder :=
  match d.state with
  | .idle => d
  | .addr | .data =>
    let shiftReg := d.shiftReg <<< 1 ||| (BitVec.ofBool sda).setWidth 8
    let bitCount := d.bitCount + 1
    if bitCount = 8 then
      let label :=
        if d.state = .addr then addrLabel (shiftReg >>> 1 &&& 0x7F).toNat (shiftReg &&& 1 ≠ 0)
        else dataLabel shiftReg.toNat
      { emit d.eventStartUs tUs label false d with
        state := if d.state = .addr then .addrAck else .dataAck
        bitCount := 0
        shiftReg := 0
        eventStartUs := tUs }
    else { d with bitCount, shiftReg }
  | .addrAck | .dataAck =>
    { emit d.eventStartUs tUs (if sda then "NAK".toList else "ACK".toList) sda d with
      state := .data
      bitCount := 0
      shiftReg := 0
      eventStartUs := tUs }

/-- A round of the loop. -/
def next (scl sda : Bool) (tUs : ℚ) (d : I2cDecoder) : I2cDecoder :=
  let sdaChangedWhileSclHigh := d.prevScl && scl && sda != d.prevSda
  if sdaChangedWhileSclHigh && !sda && d.prevSda then
    { emit tUs tUs "START".toList false d with
      state := .addr, bitCount := 0, shiftReg := 0, eventStartUs := tUs, prevScl := scl, prevSda := sda }
  else if sdaChangedWhileSclHigh && sda && !d.prevSda then
    { emit tUs tUs "STOP".toList false d with state := .idle, prevScl := scl, prevSda := sda }
  else { if !d.prevScl && scl then sampleBit sda tUs d else d with prevScl := scl, prevSda := sda }

end I2cDecoder

/-- The levels of the clock and the data line in a sample. -/
def I2cConfig.levels (cfg : I2cConfig) (frame : SampleFrame) : Bool × Bool :=
  (samplePinValue frame cfg.sclPin, samplePinValue frame cfg.sdaPin)

/-- The loop over the samples. -/
def I2cDecoder.feed (cfg : I2cConfig) (t0Frame : SampleFrame) (d : I2cDecoder) (samples : List SampleFrame) : I2cDecoder :=
  samples.foldl (fun d frame => d.next (samplePinValue frame cfg.sclPin) (samplePinValue frame cfg.sdaPin)
    (sampleTimeUs frame t0Frame)) d

/-- Decode I2C frames from a captured sample stream. -/
def decodeI2c (samples : List SampleFrame) (cfg : I2cConfig) : List DecodedFrame :=
  match samples with
  | [] => []
  | t0Frame :: rest =>
    if cfg.sclPin = [] ∨ cfg.sdaPin = [] then [] else (I2cDecoder.feed cfg t0Frame {} rest).frames

/-! ### What is meant to be decoded -/

/-- The data line falls while the clock is high. -/
def startsBetween (a b : Bool × Bool) : Bool := a.1 && b.1 && a.2 && !b.2

/-- The data line rises while the clock is high. -/
def stopsBetween (a b : Bool × Bool) : Bool := a.1 && b.1 && !a.2 && b.2

/-- The frame of a start or a stop. -/
def markFrame (label : Text) (tUs : ℚ) : DecodedFrame := { startUs := tUs, endUs := tUs, kind := .i2c, label }

/-- A frame for each sample that comes with an event after the one before it. -/
def marks (cfg : I2cConfig) (label : Text) (event : Bool × Bool → Bool × Bool → Bool) (t0Frame : SampleFrame) :
    SampleFrame → List SampleFrame → List DecodedFrame
  | _, [] => []
  | prev, frame :: rest =>
    (if event (cfg.levels prev) (cfg.levels frame) then [markFrame label (sampleTimeUs frame t0Frame)] else []) ++
      marks cfg label event t0Frame frame rest

/-- The starts and stops that are decoded are those of the samples. -/
def EventsExact (cfg : I2cConfig) : List SampleFrame → Prop
  | [] => decodeI2c [] cfg = []
  | t0Frame :: rest =>
    (decodeI2c (t0Frame :: rest) cfg).filter (·.label = "START".toList) =
        marks cfg "START".toList startsBetween t0Frame t0Frame rest ∧
      (decodeI2c (t0Frame :: rest) cfg).filter (·.label = "STOP".toList) =
        marks cfg "STOP".toList stopsBetween t0Frame t0Frame rest

/-- The first sample is as good as one with both lines high: if the clock is high in the second, then a low data line has
fallen there, and a high one has not risen. -/
def AsIfIdle (cfg : I2cConfig) : List SampleFrame → Prop
  | first :: second :: _ => (cfg.levels second).1 = true →
    if (cfg.levels second).2 then cfg.levels first ≠ (true, false) else cfg.levels first = (true, true)
  | _ => True

/-! ### Starts and stops -/

namespace I2cDecoder

/-- A round: a start, a stop, or neither. -/
theorem next_eq (scl sda : Bool) (tUs : ℚ) (d : I2cDecoder) : next scl sda tUs d =
    if startsBetween (d.prevScl, d.prevSda) (scl, sda) then
      { emit tUs tUs "START".toList false d with
        state := .addr, bitCount := 0, shiftReg := 0, eventStartUs := tUs, prevScl := scl, prevSda := sda }
    else if stopsBetween (d.prevScl, d.prevSda) (scl, sda) then
      { emit tUs tUs "STOP".toList false d with state := .idle, prevScl := scl, prevSda := sda }
    else { if !d.prevScl && scl then sampleBit sda tUs d else d with prevScl := scl, prevSda := sda } := by
  have hstart : ∀ p q r s : Bool, (p && r && s != q && !s && q) = startsBetween (p, q) (r, s) := by decide
  have hstop : ∀ p q r s : Bool, (p && r && s != q && s && !q) = stopsBetween (p, q) (r, s) := by decide
  rw [next, hstart, hstop]

theorem next_prevScl (scl sda : Bool) (tUs : ℚ) (d : I2cDecoder) : (next scl sda tUs d).prevScl = scl := by
  rw [next_eq]
  split
  · rfl
  · split <;> rfl

theorem next_prevSda (scl sda : Bool) (tUs : ℚ) (d : I2cDecoder) : (next scl sda tUs d).prevSda = sda := by
  rw [next_eq]
  split
  · rfl
  · split <;> rfl

theorem filter_emit {label l : Text} (hne : l ≠ label) (s e : ℚ) (err : Bool) (d : I2cDecoder) :
    (emit s e l err d).frames.filter (·.label = label) = d.frames.filter (·.label = label) := by
  have hdrop : [(⟨s, e, .i2c, l, [], err⟩ : DecodedFrame)].filter (·.label = label) = [] :=
    List.filter_cons_of_neg fun h => hne (of_decide_eq_true h)
  rw [emit, List.filter_append, hdrop, List.append_nil]

/-- No other label is that of a start or a stop. -/
theorem filter_sampleBit {label : Text} (hlabel : label.take 1 = ['S']) (sda : Bool) (tUs : ℚ) (d : I2cDecoder) :
    (sampleBit sda tUs d).frames.filter (·.label = label) = d.frames.filter (·.label = label) := by
  have hne : ∀ l : Text, l.take 1 ≠ ['S'] → l ≠ label := fun l hl he => hl (he ▸ hlabel)
  have haddr : ∀ address read, addrLabel address read ≠ label := fun _ _ => hne _ (by decide : ['A'] ≠ ['S'])
  have hdata : ∀ byte, dataLabel byte ≠ label := fun _ => hne _ (by decide : ['D'] ≠ ['S'])
  have hbyte : ∀ address read byte, (if d.state = .addr then addrLabel address read else dataLabel byte) ≠ label := by
    intro address read byte
    split
    · exact haddr _ _
    · exact hdata _
  have hack : (if sda then "NAK".toList else "ACK".toList) ≠ label := by
    cases sda
    · exact hne _ (by decide)
    · exact hne _ (by decide)
  unfold sampleBit
  split
  · rfl
  · dsimp only
    split
    · exact filter_emit (haddr _ _) _ _ _ _
    · rfl
  · dsimp only
    split
    · exact filter_emit (hbyte _ _ _) _ _ _ _
    · rfl
  · exact filter_emit hack _ _ _ _
  · exact filter_emit hack _ _ _ _

/-- A round records a start where the data line falls while the clock is high. -/
theorem filter_starts (scl sda : Bool) (tUs : ℚ) (d : I2cDecoder) :
    (next scl sda tUs d).frames.filter (·.label = "START".toList) = d.frames.filter (·.label = "START".toList) ++
      if startsBetween (d.prevScl, d.prevSda) (scl, sda) then [markFrame "START".toList tUs] else [] := by
  rw [next_eq]
  split
  · exact List.filter_append _ _
  rw [List.append_nil]
  split
  · exact filter_emit (by decide) _ _ _ _
  · dsimp only
    split
    · exact filter_sampleBit rfl _ _ _
    · rfl

/-- A round records a stop where the data line rises while the clock is high. -/
theorem filter_stops (scl sda : Bool) (tUs : ℚ) (d : I2cDecoder) :
    (next scl sda tUs d).frames.filter (·.label = "STOP".toList) = d.frames.filter (·.label = "STOP".toList) ++
      if stopsBetween (d.prevScl, d.prevSda) (scl, sda) then [markFrame "STOP".toList tUs] else [] := by
  have hnot : ∀ p q r s : Bool, startsBetween (p, q) (r, s) = true → stopsBetween (p, q) (r, s) = false := by decide
  rw [next_eq]
  split
  case isTrue hstart =>
    rw [hnot _ _ _ _ hstart, if_neg Bool.false_ne_true, List.append_nil]
    exact filter_emit (by decide) _ _ _ _
  case isFalse =>
    split
    · exact List.filter_append _ _
    rw [List.append_nil]
    dsimp only
    split
    · exact filter_sampleBit rfl _ _ _
    · rfl

/-- What is recorded of one kind in a run, if a round records it where it happens. -/
theorem filter_feed (cfg : I2cConfig) (t0Frame : SampleFrame) {label : Text} {event : Bool × Bool → Bool × Bool → Bool}
    (hnext : ∀ scl sda tUs d, (next scl sda tUs d).frames.filter (·.label = label) =
      d.frames.filter (·.label = label) ++ if event (d.prevScl, d.prevSda) (scl, sda) then [markFrame label tUs] else [])
    (samples : List SampleFrame) (prev : SampleFrame) (d : I2cDecoder) (hprev : (d.prevScl, d.prevSda) = cfg.levels prev) :
    (feed cfg t0Frame d samples).frames.filter (·.label = label) =
      d.frames.filter (·.label = label) ++ marks cfg label event t0Frame prev samples := by
  induction samples generalizing prev d with
  | nil => exact (List.append_nil _).symm
  | cons frame rest ih =>
    have hlevels : ((d.next (samplePinValue frame cfg.sclPin) (samplePinValue frame cfg.sdaPin)
        (sampleTimeUs frame t0Frame)).prevScl, (d.next (samplePinValue frame cfg.sclPin)
        (samplePinValue frame cfg.sdaPin) (sampleTimeUs frame t0Frame)).prevSda) = cfg.levels frame := by
      rw [next_prevScl, next_prevSda]
      rfl
    have hrest := ih frame _ hlevels
    rw [hnext, hprev, List.append_assoc] at hrest
    exact hrest

end I2cDecoder

/-- The starts and stops that are decoded are those of the samples, if and only if the first sample is as good as one with
both lines high. -/
theorem eventsExact_iff {cfg : I2cConfig} (hscl : cfg.sclPin ≠ []) (hsda : cfg.sdaPin ≠ []) (samples : List SampleFrame) :
    EventsExact cfg samples ↔ AsIfIdle cfg samples := by
  match samples with
  | [] => exact iff_of_true rfl trivial
  | [first] =>
    refine iff_of_true ?_ trivial
    rw [EventsExact, decodeI2c, if_neg (not_or.mpr ⟨hscl, hsda⟩)]
    exact ⟨rfl, rfl⟩
  | first :: second :: rest =>
    have hdecode : decodeI2c (first :: second :: rest) cfg =
        (I2cDecoder.feed cfg first ((({} : I2cDecoder).next (samplePinValue second cfg.sclPin)
          (samplePinValue second cfg.sdaPin) (sampleTimeUs second first))) rest).frames :=
      if_neg (not_or.mpr ⟨hscl, hsda⟩)
    have hlevels : ((({} : I2cDecoder).next (samplePinValue second cfg.sclPin) (samplePinValue second cfg.sdaPin)
        (sampleTimeUs second first)).prevScl, (({} : I2cDecoder).next (samplePinValue second cfg.sclPin)
        (samplePinValue second cfg.sdaPin) (sampleTimeUs second first)).prevSda) = cfg.levels second := by
      rw [I2cDecoder.next_prevScl, I2cDecoder.next_prevSda]
      rfl
    have hmark : ∀ (a b : Bool) (x : DecodedFrame) (l : List DecodedFrame),
        [] ++ (if a then [x] else []) ++ l = (if b then [x] else []) ++ l ↔ a = b := by
      intro a b x l
      rw [List.nil_append, List.append_left_inj]
      cases a <;> cases b <;> simp
    have hfirst : ∀ p q r s : Bool,
        (startsBetween (true, true) (r, s) = startsBetween (p, q) (r, s) ∧
          stopsBetween (true, true) (r, s) = stopsBetween (p, q) (r, s)) ↔
        (r = true → if s then (p, q) ≠ (true, false) else (p, q) = (true, true)) := by decide
    rw [EventsExact, hdecode, I2cDecoder.filter_feed cfg first I2cDecoder.filter_starts rest second _ hlevels,
      I2cDecoder.filter_feed cfg first I2cDecoder.filter_stops rest second _ hlevels, I2cDecoder.filter_starts,
      I2cDecoder.filter_stops]
    exact (and_congr (hmark _ _ _ _) (hmark _ _ _ _)).trans (hfirst _ _ _ _)

end OwlTap.Protocol
