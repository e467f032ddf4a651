import OwlTap.Base.Lines
import OwlTap.Capture.CaptureSession
import Mathlib.Data.List.Chain

/-!
# Exports of a capture

`exportVcd` and `exportCsv` write a capture as text, with times in whole microseconds. A reader of
the first replays it: a signal has the value that was written last for it, up to a time. Samples stay
apart and in order, and are replayed as they were, if and only if no two of them that follow each other
fall into the same microsecond (`exports_apart_iff`). The identifiers of the signals are always
distinct and printable (`vcdSymbol_injective`, `vcdSymbol_printable`).
-/

namespace OwlTap.Gui

open OwlTap Bsdl BoundaryScan Capture

namespace VcdExport

/-- A digit of an identifier. -/
def symbolChar (digit : ℕ) : Char := Char.ofNat ('!'.toNat + digit)

/-- The identifier of a signal, as a numeral to the base 94 with the lowest digit first. -/
def vcdSymbol (index : ℕ) : Text :=
  symbolChar (index % 94) :: if 0 < index / 94 then vcdSymbol (index / 94) else []
termination_by index
decreasing_by omega

/-- `duration_cast` to microseconds. -/
def sampleUs (t0Frame frame : SampleFrame) : ℤ := ((frame.timestamp : ℤ) - t0Frame.timestamp).tdiv 1000

def levelChar : PinState → Char
  | .high => '1'
  | .low => '0'
  | .unknown => 'x'

def levelNumber : PinState → Text
  | .high => "1".toList
  | .low => "0".toList
  | .unknown => "-1".toList

/-- The lines of the header, up to its end; a signal's name may be any text. -/
def vcdHeader (signals : List Text) : Text :=
  unlines (["$date".toList, "  Export from JTAG FPGA Viewer".toList, "$end".toList, "$version".toList, "  1.0".toList,
    "$end".toList, "$timescale 1us $end".toList, "$scope module fpga $end".toList] ++
    (signals.zipIdx.map fun (signal, i) => "$var wire 1 ".toList ++ vcdSymbol i ++ " ".toList ++ signal ++ " $end".toList)) ++
    "$upscope $end".toList

/-- The lines of a sample. -/
def vcdSample (signals : List Text) (t0Frame frame : SampleFrame) : List Text :=
  ('#' :: (toString (sampleUs t0Frame frame)).toList) ::
    signals.zipIdx.map fun (signal, i) => levelChar (frame.data.getPin signal) :: vcdSymbol i

def vcdEnd : Text := "$enddefinitions $end".toList

/-- Export captured data to VCD format: the contents of the file, if it can be opened. -/
def exportVcd (isOpen : Bool) (samples : List SampleFrame) (signals : List Text) : Except String Text :=
  match samples with
  | [] => .error "No data to export."
  | t0Frame :: _ =>
    if isOpen then
      .ok (vcdHeader signals ++ '\n' :: unlines (vcdEnd :: samples.flatMap (vcdSample signals t0Frame)))
    else .error "Cannot write to file."

/-- The first line of a table. -/
def csvHeader (signals : List Text) : Text := "timestamp_us".toList ++ signals.flatMap (',' :: ·)

/-- The row of a sample. -/
def csvRow (signals : List Text) (t0Frame frame : SampleFrame) : Text :=
  (toString (sampleUs t0Frame frame)).toList ++ signals.flatMap fun signal => ',' :: levelNumber (frame.data.getPin signal)

/-- Export captured data to CSV format. -/
def exportCsv (isOpen : Bool) (samples : List SampleFrame) (signals : List Text) : Except String Text :=
  match samples with
  | [] => .error "No data to export."
  | t0Frame :: _ =>
    if isOpen then .ok (csvHeader signals ++ '\n' :: unlines (samples.map (csvRow signals t0Frame)))
    else .error "Cannot write to file."

/-! ### Readers -/

/-- The value of a numeral. -/
def numeral (digits : Text) : ℕ := Nat.ofDigitChars 10 digits 0

/-- The lines behind the header. -/
def vcdBody (text : Text) : List Text := afterLast vcdEnd (text.splitOn '\n')

/-- The time of a line that has one. -/
def timeOf (line : Text) : Option ℕ := if line.head? = some '#' then some (numeral line.tail) else none

/-- The times of a file. -/
def vcdTimes (text : Text) : List ℕ := (vcdBody text).filterMap timeOf

/-- The values of a file, each with its time and its identifier. -/
def vcdChanges : List Text → (now : ℕ) → List (ℕ × Text × Char)
  | [], _ => []
  | [] :: lines, now => vcdChanges lines now
  | (c :: line) :: lines, now =>
    if c = '#' then vcdChanges lines (numeral line) else (now, line, c) :: vcdChanges lines now

/-- A value is one of an identifier, up to a time. -/
def upTo (symbol : Text) (time : ℕ) (change : ℕ × Text × Char) : Bool := change.1 ≤ time ∧ change.2.1 = symbol

/-- The value that an identifier has at a time: the one that was written last. -/
def replay (text : Text) (symbol : Text) (time : ℕ) : Option Char :=
  (((vcdChanges (vcdBody text) 0).filter (upTo symbol time)).getLast?).map fun change => change.2.2

/-- The rows of a table, behind its header. -/
def csvRows (signals : List Text) (text : Text) : List Text :=
  ((text.drop ((csvHeader signals).length + 1)).splitOn '\n').dropLast

/-- The time of a row. -/
def rowTime (row : Text) : ℕ := numeral (row.takeWhile (· ≠ ','))

/-- The exports of a capture keep its samples apart and in order. -/
structure KeepApart (t0Frame : SampleFrame) (rest : List SampleFrame) (signals : List Text) (vcd csv : Text) : Prop where
  /-- The time stamps are strictly increasing. -/
  times : (vcdTimes vcd).Pairwise (· < ·)
  /-- The identifiers are distinct. -/
  symbols : ((List.range signals.length).map vcdSymbol).Nodup
  printable : ∀ i < signals.length, ∀ c ∈ vcdSymbol i, '!' ≤ c ∧ c ≤ '~'
  /-- At a sample's time each signal has the level that it has in the sample. -/
  replayed : ∀ frame ∈ t0Frame :: rest, ∀ i, (h : i < signals.length) →
    replay vcd (vcdSymbol i) (sampleUs t0Frame frame).toNat = some (levelChar (frame.data.getPin signals[i]))
  /-- There is a row for each sample. -/
  rows : (csvRows signals csv).length = (t0Frame :: rest).length
  /-- Its time is that of the sample. -/
  rowTimes : (csvRows signals csv).map rowTime = (t0Frame :: rest).map fun frame => (sampleUs t0Frame frame).toNat
  /-- The times are distinct, in the order of the samples. -/
  increasing : ((csvRows signals csv).map rowTime).Pairwise (· < ·)

/-- Samples that follow each other do not fall into the same microsecond. -/
def SeparateUs (t0Frame : SampleFrame) (samples : List SampleFrame) : Prop :=
  samples.IsChain fun a b => (a.timestamp - t0Frame.timestamp) / 1000 ≠ (b.timestamp - t0Frame.timestamp) / 1000

/-! ### Identifiers -/

theorem symbolChar_toNat : ∀ digit < 94, (symbolChar digit).toNat = 33 + digit := by decide

theorem vcdSymbol_printable (index : ℕ) : ∀ c ∈ vcdSymbol index, '!' ≤ c ∧ c ≤ '~' := by
  induction index using Nat.strong_induction_on with
  | _ index ih =>
    have hdigit : '!' ≤ symbolChar (index % 94) ∧ symbolChar (index % 94) ≤ '~' := by
      have hnat := symbolChar_toNat (index % 94) (Nat.mod_lt _ (by decide))
      have hlow : '!'.toNat = 33 := rfl
      have hhigh : '~'.toNat = 126 := rfl
      have hlt : index % 94 < 94 := Nat.mod_lt _ (by decide)
      rw [Char.le_def, Char.le_def, UInt32.le_iff_toNat_le, UInt32.le_iff_toNat_le]
      unfold Char.toNat at hnat hlow hhigh
      omega
    rw [vcdSymbol]
    refine List.forall_mem_cons.mpr ⟨hdigit, ?_⟩
    split
    case isTrue hpos => exact ih (index / 94) (by omega)
    case isFalse => exact fun _ hc => absurd hc List.not_mem_nil

/-- Different signals have different identifiers. -/
theorem vcdSymbol_injective : Function.Injective vcdSymbol := by
  intro a
  induction a using Nat.strong_induction_on with
  | _ a ih =>
    intro b h
    have hunfold : ∀ i, vcdSymbol i = symbolChar (i % 94) :: if 0 < i / 94 then vcdSymbol (i / 94) else [] := by
      intro i
      rw [vcdSymbol]
    rw [hunfold a, hunfold b] at h
    obtain ⟨hhead, htail⟩ := List.cons.inj h
    have hmod : a % 94 = b % 94 := by
      have hnat := congrArg Char.toNat hhead
      rw [symbolChar_toNat _ (Nat.mod_lt _ (by decide)), symbolChar_toNat _ (Nat.mod_lt _ (by decide))] at hnat
      omega
    have hne : ∀ i, vcdSymbol i ≠ [] := by
      intro i
      rw [hunfold]
      exact List.cons_ne_nil _ _
    by_cases ha : 0 < a / 94
    · by_cases hb : 0 < b / 94
      · rw [if_pos ha, if_pos hb] at htail
        have hdiv := ih (a / 94) (by omega) htail
        omega
      · rw [if_pos ha, if_neg hb] at htail
        exact absurd htail (hne _)
    · by_cases hb : 0 < b / 94
      · rw [if_neg ha, if_pos hb] at htail
        exact absurd htail.symm (hne _)
      · omega

/-! ### Lines -/

variable {t0Frame : SampleFrame} {signals : List Text}

/-- The microsecond that a sample falls into. -/
theorem sampleUs_eq {frame : SampleFrame} (h : t0Frame.timestamp ≤ frame.timestamp) :
    sampleUs t0Frame frame = ((frame.timestamp - t0Frame.timestamp) / 1000 : ℕ) := by
  rw [sampleUs, ← Int.ofNat_sub h, Int.tdiv_eq_ediv_of_nonneg (Int.natCast_nonneg _)]
  exact (Int.natCast_ediv _ 1000).symm

/-- A time is written in digits, and read again. -/
theorem toString_sampleUs {frame : SampleFrame} (h : t0Frame.timestamp ≤ frame.timestamp) :
    (toString (sampleUs t0Frame frame)).toList = Nat.toDigits 10 (sampleUs t0Frame frame).toNat := by
  rw [sampleUs_eq h]
  exact Nat.toList_repr

theorem numeral_toDigits (n : ℕ) : numeral (Nat.toDigits 10 n) = n := Nat.ofDigitChars_ten_toDigits

theorem notMem_toDigits {c : Char} (hc : c.isDigit = false) (n : ℕ) : c ∉ Nat.toDigits 10 n := by
  intro hmem
  have hdigit := Nat.isDigit_of_mem_toDigits (by decide) (by decide) hmem
  rw [hc] at hdigit
  cases hdigit

/-- A line of a sample has no line break, and is not that which ends the header. -/
theorem vcdSample_lines {frame : SampleFrame} (h : t0Frame.timestamp ≤ frame.timestamp) :
    ∀ line ∈ vcdSample signals t0Frame frame, '\n' ∉ line ∧ line ≠ vcdEnd := by
  refine List.forall_mem_cons.mpr ⟨⟨?_, fun he => ?_⟩, fun line hline => ?_⟩
  · rw [toString_sampleUs h, List.mem_cons, not_or]
    exact ⟨by decide, notMem_toDigits (by decide) _⟩
  · exact absurd (List.cons.inj he).1 (by decide)
  · obtain ⟨⟨signal, i⟩, -, rfl⟩ := List.mem_map.mp hline
    have hlevel : ∀ state, levelChar state ≠ '\n' ∧ levelChar state ≠ '$' := by
      intro state
      cases state <;> decide
    refine ⟨?_, fun he => (hlevel _).2 (List.cons.inj he).1⟩
    rw [List.mem_cons, not_or]
    refine ⟨(hlevel _).1.symm, fun hmem => ?_⟩
    exact absurd (vcdSymbol_printable i _ hmem).1 (by decide)

/-! ### What is read of an export -/

/-- The samples are not older than the first. -/
def NotBefore (t0Frame : SampleFrame) (samples : List SampleFrame) : Prop :=
  ∀ frame ∈ samples, t0Frame.timestamp ≤ frame.timestamp

theorem vcdBody_export {samples : List SampleFrame} (h : NotBefore t0Frame samples) :
    vcdBody (vcdHeader signals ++ '\n' :: unlines (vcdEnd :: samples.flatMap (vcdSample signals t0Frame))) =
      samples.flatMap (vcdSample signals t0Frame) ++ [[]] := by
  have hlines : ∀ line ∈ samples.flatMap (vcdSample signals t0Frame), '\n' ∉ line ∧ line ≠ vcdEnd := by
    intro line hline
    obtain ⟨frame, hframe, hline⟩ := List.mem_flatMap.mp hline
    exact vcdSample_lines (h frame hframe) line hline
  have hbreaks : ∀ line ∈ vcdEnd :: samples.flatMap (vcdSample signals t0Frame), '\n' ∉ line :=
    List.forall_mem_cons.mpr ⟨by decide, fun line hline => (hlines line hline).1⟩
  have hend : vcdEnd ∉ samples.flatMap (vcdSample signals t0Frame) ++ [[]] := by
    rw [List.mem_append, not_or, List.mem_singleton]
    exact ⟨fun hmem => (hlines _ hmem).2 rfl, by decide⟩
  rw [vcdBody, splitOn_append_unlines _ hbreaks, List.cons_append, afterLast_append _ hend]

/-- The values of a sample. -/
def sampleChanges (signals : List Text) (t0Frame frame : SampleFrame) : List (ℕ × Text × Char) :=
  signals.zipIdx.map fun (signal, i) => ((sampleUs t0Frame frame).toNat, vcdSymbol i, levelChar (frame.data.getPin signal))

theorem vcdChanges_sample {frame : SampleFrame} (h : t0Frame.timestamp ≤ frame.timestamp) (lines : List Text) (now : ℕ) :
    vcdChanges (vcdSample signals t0Frame frame ++ lines) now =
      sampleChanges signals t0Frame frame ++ vcdChanges lines (sampleUs t0Frame frame).toNat := by
  have hlevels : ∀ (pairs : List (Text × ℕ)) (time : ℕ),
      vcdChanges ((pairs.map fun (signal, i) => levelChar (frame.data.getPin signal) :: vcdSymbol i) ++ lines) time =
        (pairs.map fun (signal, i) => (time, vcdSymbol i, levelChar (frame.data.getPin signal))) ++ vcdChanges lines time := by
    intro pairs time
    induction pairs with
    | nil => rfl
    | cons pair pairs ih =>
      have hlevel : levelChar (frame.data.getPin pair.1) ≠ '#' := by
        cases frame.data.getPin pair.1 <;> decide
      rw [List.map_cons, List.cons_append, vcdChanges, if_neg hlevel, ih, List.map_cons, List.cons_append]
  rw [vcdSample, List.cons_append, vcdChanges, if_pos rfl, hlevels, toString_sampleUs h, numeral_toDigits]
  rfl

theorem vcdChanges_samples {samples : List SampleFrame} (h : NotBefore t0Frame samples) (now : ℕ) :
    vcdChanges (samples.flatMap (vcdSample signals t0Frame) ++ [[]]) now =
      samples.flatMap (sampleChanges signals t0Frame) := by
  induction samples generalizing now with
  | nil => rfl
  | cons frame samples ih =>
    obtain ⟨hframe, hsamples⟩ := List.forall_mem_cons.mp h
    rw [List.flatMap_cons, List.append_assoc, vcdChanges_sample hframe, ih hsamples, List.flatMap_cons]

theorem vcdTimes_export {samples : List SampleFrame} (h : NotBefore t0Frame samples) :
    vcdTimes (vcdHeader signals ++ '\n' :: unlines (vcdEnd :: samples.flatMap (vcdSample signals t0Frame))) =
      samples.map fun frame => (sampleUs t0Frame frame).toNat := by
  rw [vcdTimes, vcdBody_export h]
  induction samples with
  | nil => rfl
  | cons frame samples ih =>
    obtain ⟨hframe, hsamples⟩ := List.forall_mem_cons.mp h
    have htime : timeOf ('#' :: (toString (sampleUs t0Frame frame)).toList) = some (sampleUs t0Frame frame).toNat := by
      rw [toString_sampleUs hframe]
      exact congrArg some (numeral_toDigits _)
    have hlevels : (signals.zipIdx.map fun (signal, i) => levelChar (frame.data.getPin signal) :: vcdSymbol i).filterMap
        timeOf = [] := by
      rw [List.filterMap_eq_nil_iff]
      intro line hline
      obtain ⟨⟨signal, i⟩, -, rfl⟩ := List.mem_map.mp hline
      have hlevel : levelChar (frame.data.getPin signal) ≠ '#' := by
        cases frame.data.getPin signal <;> decide
      exact if_neg fun he => hlevel (Option.some.inj he)
    rw [List.flatMap_cons, List.append_assoc, List.filterMap_append, ih hsamples, vcdSample, List.filterMap_cons_some htime,
      hlevels]
    rfl

/-- Of the values of a sample one has the identifier of a signal. -/
theorem filter_sampleChanges (frame : SampleFrame) {i : ℕ} (hi : i < signals.length) (time : ℕ) :
    (sampleChanges signals t0Frame frame).filter (upTo (vcdSymbol i) time) =
      if (sampleUs t0Frame frame).toNat ≤ time then
        [((sampleUs t0Frame frame).toNat, vcdSymbol i, levelChar (frame.data.getPin signals[i]))]
      else [] := by
  have hsplit : signals.zipIdx = (signals.take i).zipIdx ++ (signals[i], i) :: (signals.drop (i + 1)).zipIdx (i + 1) := by
    have hlength : (signals.take i).length = i := List.length_take_of_le hi.le
    calc signals.zipIdx = (signals.take i ++ signals[i] :: signals.drop (i + 1)).zipIdx := by
          rw [← List.drop_eq_getElem_cons hi, List.take_append_drop]
      _ = _ := by rw [List.zipIdx_append, hlength, Nat.zero_add, List.zipIdx_cons]
  have hnone : ∀ pairs : List (Text × ℕ), (∀ pair ∈ pairs, pair.2 ≠ i) →
      (pairs.map fun (signal, i) => ((sampleUs t0Frame frame).toNat, vcdSymbol i, levelChar (frame.data.getPin signal))).filter
        (upTo (vcdSymbol i) time) = [] := by
    intro pairs hpairs
    rw [List.filter_eq_nil_iff]
    intro change hchange hkept
    obtain ⟨pair, hpair, rfl⟩ := List.mem_map.mp hchange
    exact hpairs pair hpair (vcdSymbol_injective (of_decide_eq_true hkept).2)
  have hbefore : ∀ pair ∈ (signals.take i).zipIdx, pair.2 ≠ i := by
    intro pair hpair he
    have hlt := List.snd_lt_of_mem_zipIdx hpair
    rw [List.length_take_of_le hi.le] at hlt
    omega
  have hafter : ∀ pair ∈ (signals.drop (i + 1)).zipIdx (i + 1), pair.2 ≠ i := by
    intro pair hpair he
    have hle := List.le_snd_of_mem_zipIdx hpair
    omega
  rw [sampleChanges, hsplit, List.map_append, List.filter_append, hnone _ hbefore, List.nil_append, List.map_cons]
  by_cases htime : (sampleUs t0Frame frame).toNat ≤ time
  · have hkept : upTo (vcdSymbol i) time ((sampleUs t0Frame frame).toNat, vcdSymbol i, levelChar (frame.data.getPin signals[i]))
        = true := decide_eq_true ⟨htime, rfl⟩
    rw [if_pos htime, List.filter_cons_of_pos hkept, hnone _ hafter]
  · have hdropped : ¬upTo (vcdSymbol i) time
        ((sampleUs t0Frame frame).toNat, vcdSymbol i, levelChar (frame.data.getPin signals[i])) = true := fun h =>
      htime (of_decide_eq_true h).1
    rw [if_neg htime, List.filter_cons_of_neg hdropped, hnone _ hafter]

/-- A signal has, at a time, the level of the last sample up to it. -/
theorem replay_export {samples : List SampleFrame} (h : NotBefore t0Frame samples) {i : ℕ} (hi : i < signals.length)
    (time : ℕ) :
    replay (vcdHeader signals ++ '\n' :: unlines (vcdEnd :: samples.flatMap (vcdSample signals t0Frame))) (vcdSymbol i) time =
      ((samples.filter fun frame => (sampleUs t0Frame frame).toNat ≤ time).getLast?).map fun frame =>
        levelChar (frame.data.getPin signals[i]) := by
  have hfilter : ∀ samples : List SampleFrame, (samples.flatMap (sampleChanges signals t0Frame)).filter
      (upTo (vcdSymbol i) time) =
        (samples.filter fun frame => (sampleUs t0Frame frame).toNat ≤ time).map fun frame =>
          ((sampleUs t0Frame frame).toNat, vcdSymbol i, levelChar (frame.data.getPin signals[i])) := by
    intro samples
    induction samples with
    | nil => rfl
    | cons frame samples ih =>
      rw [List.flatMap_cons, List.filter_append, filter_sampleChanges frame hi, ih, List.filter_cons]
      by_cases htime : (sampleUs t0Frame frame).toNat ≤ time
      · rw [if_pos htime, if_pos (decide_eq_true htime)]
        rfl
      · rw [if_neg htime, if_neg fun h => htime (of_decide_eq_true h)]
        rfl
  rw [replay, vcdBody_export h, vcdChanges_samples h, hfilter, List.getLast?_map, Option.map_map]
  rfl

/-- The rows of a table are those of its samples. -/
theorem csvRows_export {samples : List SampleFrame} (h : NotBefore t0Frame samples) :
    csvRows signals (csvHeader signals ++ '\n' :: unlines (samples.map (csvRow signals t0Frame))) =
      samples.map (csvRow signals t0Frame) := by
  have hlines : ∀ line ∈ samples.map (csvRow signals t0Frame), '\n' ∉ line := by
    intro line hline
    obtain ⟨frame, hframe, rfl⟩ := List.mem_map.mp hline
    have hlevel : ∀ state, '\n' ∉ ',' :: levelNumber state := by
      intro state
      cases state <;> decide
    rw [csvRow, toString_sampleUs (h frame hframe), List.mem_append, not_or]
    refine ⟨notMem_toDigits (by decide) _, fun hmem => ?_⟩
    obtain ⟨signal, -, hmem⟩ := List.mem_flatMap.mp hmem
    exact hlevel _ hmem
  have hdrop : (csvHeader signals ++ '\n' :: unlines (samples.map (csvRow signals t0Frame))).drop
      ((csvHeader signals).length + 1) = unlines (samples.map (csvRow signals t0Frame)) := by
    rw [← List.drop_drop, List.drop_left]
    rfl
  rw [csvRows, hdrop, splitOn_unlines hlines, List.dropLast_concat]

theorem rowTime_csvRow {frame : SampleFrame} (h : t0Frame.timestamp ≤ frame.timestamp) :
    rowTime (csvRow signals t0Frame frame) = (sampleUs t0Frame frame).toNat := by
  have hdigits : ∀ c ∈ Nat.toDigits 10 (sampleUs t0Frame frame).toNat, decide (c ≠ ',') = true := fun c hc =>
    decide_eq_true fun he => notMem_toDigits (by decide) _ (he ▸ hc)
  have hrest : (signals.flatMap fun signal => ',' :: levelNumber (frame.data.getPin signal)).takeWhile (· ≠ ',') = [] := by
    cases signals with
    | nil => rfl
    | cons signal signals =>
      rw [List.flatMap_cons, List.cons_append, List.takeWhile_cons_of_neg (by simp)]
  rw [rowTime, csvRow, toString_sampleUs h, List.takeWhile_append_of_pos hdigits, hrest, List.append_nil, numeral_toDigits]

/-! ### Samples apart -/

/-- The microseconds of a capture increase if and only if samples that follow each other do not fall into the same one. -/
theorem increasing_iff {samples : List SampleFrame} (h : NotBefore t0Frame samples)
    (hsorted : samples.Pairwise fun a b => a.timestamp < b.timestamp) :
    (samples.map fun frame => (sampleUs t0Frame frame).toNat).Pairwise (· < ·) ↔ SeparateUs t0Frame samples := by
  rw [← List.isChain_iff_pairwise, List.isChain_map, SeparateUs, List.isChain_iff_getElem, List.isChain_iff_getElem]
  refine forall₂_congr fun i hi => ?_
  have hlater : samples[i].timestamp < samples[i + 1].timestamp :=
    List.pairwise_iff_getElem.mp hsorted i (i + 1) (by omega) hi (by omega)
  have hmono : (samples[i].timestamp - t0Frame.timestamp) / 1000 ≤ (samples[i + 1].timestamp - t0Frame.timestamp) / 1000 :=
    Nat.div_le_div_right (Nat.sub_le_sub_right hlater.le _)
  rw [sampleUs_eq (h _ (List.getElem_mem _)), sampleUs_eq (h _ (List.getElem_mem _)), Int.toNat_natCast, Int.toNat_natCast]
  exact ⟨fun hlt => hlt.ne, fun hne => lt_of_le_of_ne hmono hne⟩

/-- The last sample up to the microsecond of a sample is that sample. -/
theorem getLast?_upTo {samples : List SampleFrame} {us : SampleFrame → ℕ} (h : (samples.map us).Pairwise (· < ·))
    {frame : SampleFrame} (hframe : frame ∈ samples) :
    (samples.filter fun other => us other ≤ us frame).getLast? = some frame := by
  obtain ⟨before, after, rfl⟩ := List.append_of_mem hframe
  rw [List.map_append, List.map_cons, List.pairwise_append, List.pairwise_cons] at h
  have hafter : (after.filter fun other => us other ≤ us frame) = [] := by
    rw [List.filter_eq_nil_iff]
    intro other hother hle
    have hlt := h.2.1.1 _ (List.mem_map_of_mem hother)
    exact absurd (of_decide_eq_true hle) (by omega)
  have hkept : decide (us frame ≤ us frame) = true := decide_eq_true le_rfl
  rw [List.filter_append, List.filter_cons, if_pos hkept, hafter, List.getLast?_concat]

/-- Samples with increasing time stamps stay apart and in order, and are replayed as they were, if and only if no two
that follow each other fall into the same microsecond. -/
theorem exports_apart_iff (t0Frame : SampleFrame) (rest : List SampleFrame) (signals : List Text)
    (hsorted : (t0Frame :: rest).Pairwise fun a b => a.timestamp < b.timestamp) :
    ∃ vcd csv, exportVcd true (t0Frame :: rest) signals = .ok vcd ∧ exportCsv true (t0Frame :: rest) signals = .ok csv ∧
      (KeepApart t0Frame rest signals vcd csv ↔ SeparateUs t0Frame (t0Frame :: rest)) := by
  have hbefore : NotBefore t0Frame (t0Frame :: rest) := by
    refine List.forall_mem_cons.mpr ⟨le_rfl, fun frame hframe => ?_⟩
    exact ((List.pairwise_cons.mp hsorted).1 frame hframe).le
  have htimes := @vcdTimes_export t0Frame signals _ hbefore
  have hrows := @csvRows_export t0Frame signals _ hbefore
  have hrowTimes : ((t0Frame :: rest).map (csvRow signals t0Frame)).map rowTime =
      (t0Frame :: rest).map fun frame => (sampleUs t0Frame frame).toNat := by
    rw [List.map_map]
    exact List.map_congr_left fun frame hframe => rowTime_csvRow (hbefore frame hframe)
  refine ⟨_, _, rfl, rfl, fun h => ?_, fun h => ?_⟩
  · have hincreasing := h.times
    rw [htimes] at hincreasing
    exact (increasing_iff hbefore hsorted).mp hincreasing
  · have hincreasing := (increasing_iff hbefore hsorted).mpr h
    refine ⟨htimes ▸ hincreasing, ?_, fun i _ => vcdSymbol_printable i, fun frame hframe i hi => ?_, ?_, ?_, ?_⟩
    · exact List.nodup_range.map vcdSymbol_injective
    · rw [replay_export hbefore hi, getLast?_upTo hincreasing hframe]
      rfl
    · rw [hrows, List.length_map]
    · rw [hrows, hrowTimes]
    · rw [hrows, hrowTimes]
      exact hincreasing

/-- Two samples, a number of nanoseconds apart. -/
def twoSamples (spacing : ℕ) : List SampleFrame := [{}, { timestamp := spacing }]

theorem exports_apart_microsecond : ∃ vcd csv,
    exportVcd true (twoSamples 1000) ["d".toList] = .ok vcd ∧ exportCsv true (twoSamples 1000) ["d".toList] = .ok csv ∧
      (KeepApart {} [{ timestamp := 1000 }] ["d".toList] vcd csv ↔ SeparateUs {} (twoSamples 1000)) :=
  exports_apart_iff {} [{ timestamp := 1000 }] ["d".toList]
    (List.pairwise_pair.mpr (by decide))

/-- Samples 8 ns apart have the same time in both files. -/
theorem same_microsecond : ∃ vcd csv,
    exportVcd true (twoSamples 8) ["d".toList] = .ok vcd ∧ exportCsv true (twoSamples 8) ["d".toList] = .ok csv ∧
      (twoSamples 8).Pairwise (fun a b => a.timestamp < b.timestamp) ∧
        ¬KeepApart {} [{ timestamp := 8 }] ["d".toList] vcd csv := by
  refine ⟨_, _, rfl, rfl, List.pairwise_pair.mpr (by decide), fun h => ?_⟩
  have hbefore : NotBefore {} (twoSamples 8) := by
    intro frame _
    exact Nat.zero_le frame.timestamp
  have htimes := h.times
  rw [vcdTimes_export hbefore] at htimes
  exact absurd (List.pairwise_pair.mp htimes) (by decide)

end VcdExport

end OwlTap.Gui
