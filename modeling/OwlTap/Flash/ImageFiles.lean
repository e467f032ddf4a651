import OwlTap.Flash.ImageWritten
import OwlTap.Flash.McsAddressing
import OwlTap.Xdc.XdcParser

/-!
# The file is in the flash

What a programming is given is a file: an MCS file if its name says so, otherwise the bytes
themselves. The whole way from the file's text over the image to the cells of the flash is put
together here (`program_file`): a byte of the flash is what the file stores there last, and `0xFF`
where the file stores nothing. Every image within the capacity has such a file (`mcsFile`).
-/

namespace OwlTap.Flash

open OwlTap Bsdl Stores Jtag

/-! ### Loading a file -/

/-- The characters of a file. -/
def fileText (bytes : List Byte) : Text := bytes.map fun b => Char.ofNat b.toNat

/-- Load the bytes of a file. -/
def loadBinFile (path : Text) (contents : Option (List Byte)) : Except String (List Byte) :=
  match contents with
  | none => .error ("Cannot open .bin file: " ++ String.ofList path)
  | some bytes => if bytes = [] then .error ("Empty .bin file: " ++ String.ofList path) else .ok bytes

/-- The name ends like that of an MCS file. -/
def isMcsPath (path : Text) : Bool :=
  match Xdc.rfind '.' path with
  | none => false
  | some extPos =>
    let ext := Script.toLowerAscii (path.drop extPos)
    ext = ".mcs".toList ∨ ext = ".hex".toList

/-- Dispatch to the appropriate loader based on file extension. -/
def loadImageFile (path : Text) (contents : Option (List Byte)) : Option (Except String (List Byte)) :=
  if isMcsPath path then parseMcsToImage (String.ofList path) (contents.map fileText)
  else some (loadBinFile path contents)

/-- A file with bytes is loaded as they are, if its name is not that of an MCS file. -/
theorem loadImageFile_bin {path : Text} (hpath : isMcsPath path = false) {contents : Option (List Byte)}
    {image : List Byte} (h : loadImageFile path contents = some (.ok image)) : contents = some image := by
  rw [loadImageFile, hpath, if_neg Bool.false_ne_true] at h
  cases contents with
  | none => cases Option.some.inj h
  | some bytes =>
    have h : (if bytes = [] then .error ("Empty .bin file: " ++ String.ofList path) else .ok bytes) = Except.ok image :=
      Option.some.inj h
    split at h
    · exact absurd h (by simp)
    · exact congrArg some (Except.ok.inj h)

/-! ### Files in order -/

/-- The offsets of a file's records have no bit in common with their bases. -/
def Carryless (rs : List McsRecord) : Prop := ∀ p ∈ dataRecords 0 rs, p.2.data ≠ [] → p.1 &&& p.2.recAddr.toNat = 0

/-- The file consists of these records, which are those of an image for this flash. -/
structure Describes (contents : Text) (rs : List McsRecord) : Prop where
  /-- They are the record lines of the file. -/
  holding : Holding contents rs
  /-- They are well formed. -/
  valid : ∀ r ∈ rs, r.Valid
  /-- They do not leave the flash. -/
  withinCapacity : WithinCapacity rs
  /-- Base and offset are added without a carry. -/
  carryless : Carryless rs

/-- The image that is loaded shows what the records store. -/
theorem Describes.shows {contents : Text} {rs : List McsRecord} (h : Describes contents rs) {path : String}
    {image : List Byte} (hload : parseMcsToImage path (some contents) = some (.ok image)) :
    Shows 0xFF image (memory (stores rs)) := by
  obtain ⟨m, hm, hcopied⟩ := McsReader.readLines_taken {} 0 h.holding h.valid h.withinCapacity
  have hsame : McsReader.copies (dataRecords 0 rs) = stores rs := by
    rw [McsReader.copies, stores, flatMap_eq_iff fun p => by rw [length_storesOf, length_storesOf]]
    intro p hp
    rw [storesOf_inj, or_eq_add_iff]
    exact or_iff_not_imp_right.mpr (h.carryless p hp)
  have hcopied : m.copied = stores rs := hcopied.trans hsame
  rw [parseMcsToImage, hm] at hload
  simp only [Option.map_some, Option.some.injEq] at hload
  have hload : (if m.out = [] then Except.error ("No data records found in MCS file: " ++ path) else .ok m.out) =
      .ok image := hload
  split at hload
  · exact absurd hload (by simp)
  · rw [← Except.ok.inj hload, ← hcopied]
    exact (McsReader.readLines_kept McsReader.kept_start hm).shows

/-- A buffer that shows a memory has its filler at every other address, inside and behind the end. -/
theorem getD_of_shows {α : Type} {fill : α} {buf : List α} {m : Memory α} (h : Shows fill buf m) (a : ℕ) :
    buf.getD a fill = (m a).getD fill := by
  rw [List.getD_eq_getElem?_getD]
  cases hm : m a with
  | some b => exact congrArg (fun x => Option.getD x fill) (h.held hm)
  | none =>
    rw [Option.getD_none]
    rcases Nat.lt_or_ge a buf.length with hlt | hge
    · rw [h.filled hlt hm, Option.getD_some]
    · rw [List.getElem?_eq_none hge, Option.getD_none]

/-! ### The file of an image -/

/-- The bytes of an image in a block of 64 KiB. -/
def block (image : List Byte) (k : ℕ) : List Byte := (slice 65536 image k).2

/-- The base of a block. -/
def baseRecord (k : ℕ) : McsRecord :=
  ⟨0, 0x04, [(BitVec.ofNat 16 k).extractLsb' 8 8, (BitVec.ofNat 16 k).extractLsb' 0 8], Nat.lt_of_sub_eq_succ rfl⟩

/-- A line of 16 bytes of a block. -/
def lineRecord (image : List Byte) (k j : ℕ) : McsRecord :=
  ⟨BitVec.ofNat 16 (16 * j), 0x00, (slice 16 (block image k) j).2, by rw [length_slice]; omega⟩

/-- The lines of a block. -/
def lineRecords (image : List Byte) (k : ℕ) : List McsRecord :=
  (List.range (sliceCount 16 (block image k))).map (lineRecord image k)

/-- The end of a file. -/
def endRecord : McsRecord := ⟨0, 0x01, [], Nat.succ_pos 255⟩

/-- The records of an image. -/
def mcsRecords (image : List Byte) : List McsRecord :=
  ((List.range (sliceCount 65536 image)).flatMap fun k => baseRecord k :: lineRecords image k) ++ [endRecord]

/-- The MCS file of an image. -/
def mcsFile (image : List Byte) : List Byte := (fileOf (mcsRecords image)).map fun c => BitVec.ofNat 8 c.toNat

theorem value_baseRecord {k : ℕ} (hk : k < 65536) : (baseRecord k).value = k := by
  have hjoin : (BitVec.ofNat 16 k).extractLsb' 8 8 ++ (BitVec.ofNat 16 k).extractLsb' 0 8 = BitVec.ofNat 16 k :=
    BitVec.extractLsb'_append_extractLsb'
  have hvalue : (baseRecord k).value =
      ((BitVec.ofNat 16 k).extractLsb' 8 8 ++ (BitVec.ofNat 16 k).extractLsb' 0 8 : BitVec 16).toNat := rfl
  rw [hvalue, hjoin, BitVec.toNat_ofNat, Nat.mod_eq_of_lt hk]

/-- The lines of a block are data under its base. -/
theorem dataRecords_lines (base : ℕ) (lines rest : List McsRecord) (hlines : ∀ r ∈ lines, r.recType = 0x00) :
    dataRecords base (lines ++ rest) = lines.map (fun r => (base, r)) ++ dataRecords base rest := by
  induction lines with
  | nil => rfl
  | cons r lines ih =>
    have h0 : r.recType = 0x00 := hlines r List.mem_cons_self
    rw [List.cons_append, dataRecords, h0, if_neg (by decide), if_neg (by decide), if_neg (by decide), if_pos rfl,
      ih fun r hr => hlines r (List.mem_cons_of_mem _ hr)]
    rfl

/-- The data of an image's records. -/
theorem dataRecords_blocks (image : List Byte) (base : ℕ) {ks : List ℕ} (hks : ∀ k ∈ ks, k < 65536) :
    dataRecords base ((ks.flatMap fun k => baseRecord k :: lineRecords image k) ++ [endRecord]) =
      ks.flatMap fun k => (lineRecords image k).map fun r => (65536 * k, r) := by
  induction ks generalizing base with
  | nil => rfl
  | cons k ks ih =>
    have hlines : ∀ r ∈ lineRecords image k, r.recType = 0x00 := fun r hr => by
      obtain ⟨j, -, rfl⟩ := List.mem_map.mp hr
      rfl
    have htype : (baseRecord k).recType = 0x04 := rfl
    rw [List.flatMap_cons, List.flatMap_cons, List.cons_append, List.cons_append, dataRecords, htype,
      if_neg (by decide), if_neg (by decide), if_pos rfl, value_baseRecord (hks k List.mem_cons_self),
      List.append_assoc, dataRecords_lines _ _ _ hlines, ih _ fun k hk => hks k (List.mem_cons_of_mem _ hk)]

theorem storesOf_append {α : Type} (base : ℕ) (data data' : List α) :
    storesOf base (data ++ data') = storesOf base data ++ storesOf (base + data.length) data' := by
  rw [storesOf, List.zipIdx_append, List.map_append]
  rfl

/-- The slices of a list, one behind the other, are stored as the list is. -/
theorem flatMap_storesOf_slices {size : ℕ} (hsize : 0 < size) (base : ℕ) (bytes : List Byte) :
    (List.range (sliceCount size bytes)).flatMap (fun k => storesOf (base + size * k) (slice size bytes k).2) =
      storesOf base bytes := by
  have hrest : ∀ m k, sliceCount size bytes ≤ k + m →
      (List.range' k m).flatMap (fun k => storesOf (base + size * k) (slice size bytes k).2) =
        storesOf (base + size * k) (bytes.drop (size * k)) := by
    intro m
    induction m with
    | zero =>
      intro k hk
      have hend : bytes.length ≤ size * k :=
        Nat.le_of_not_lt fun hlt => absurd ((lt_sliceCount hsize).mpr hlt) (Nat.not_lt.mpr hk)
      rw [List.drop_eq_nil_of_le hend]
      rfl
    | succ m ih =>
      intro k hk
      rw [List.range'_succ, List.flatMap_cons, ih (k + 1) (by omega)]
      have hsplit : bytes.drop (size * k) = (slice size bytes k).2 ++ bytes.drop (size * (k + 1)) := by
        rw [slice, Nat.mul_succ, ← List.drop_drop, List.take_append_drop]
      rw [hsplit, storesOf_append, length_slice]
      rcases Nat.lt_or_ge (size * (k + 1)) bytes.length with hmore | hend
      · rw [Nat.min_eq_left (by rw [Nat.mul_succ] at hmore; omega), Nat.add_assoc, ← Nat.mul_succ]
      · rw [List.drop_eq_nil_of_le hend]
        rfl
  have hall := hrest (sliceCount size bytes) 0 (by omega)
  rw [← List.range_eq_range'] at hall
  exact hall

/-- A block is within the addresses of its base. -/
theorem length_block_le (image : List Byte) (k : ℕ) : (block image k).length ≤ 65536 := by
  rw [block, length_slice]
  exact Nat.min_le_left _ _

/-- The offset of a line. -/
theorem toNat_recAddr_line {image : List Byte} {k j : ℕ} (hj : j < sliceCount 16 (block image k)) :
    (lineRecord image k j).recAddr.toNat = 16 * j := by
  have hlt := (lt_sliceCount (by decide)).mp hj
  have hle := length_block_le image k
  show (BitVec.ofNat 16 (16 * j)).toNat = 16 * j
  rw [BitVec.toNat_ofNat, Nat.mod_eq_of_lt (by omega)]

/-- What an image's records store is the image. -/
theorem stores_mcsRecords {image : List Byte} (hcap : image.length ≤ kCapacityBytes) :
    stores (mcsRecords image) = storesOf 0 image := by
  have hcount : ∀ k ∈ List.range (sliceCount 65536 image), k < 65536 := fun k hk => by
    have := (lt_sliceCount (by decide)).mp (List.mem_range.mp hk)
    have : kCapacityBytes = 16777216 := rfl
    omega
  rw [stores, mcsRecords, dataRecords_blocks image 0 hcount, List.flatMap_assoc,
    ← flatMap_storesOf_slices (by decide : 0 < 65536) 0 image]
  refine List.flatMap_congr fun k _ => ?_
  have hblock := flatMap_storesOf_slices (by decide : 0 < 16) (0 + 65536 * k) (block image k)
  rw [block] at hblock
  rw [← hblock, lineRecords, List.map_map, List.flatMap_map]
  refine List.flatMap_congr fun j hj => ?_
  rw [Function.comp_apply, toNat_recAddr_line (List.mem_range.mp hj), Nat.zero_add]
  rfl

/-- The file of an image describes it. -/
theorem describes_mcsRecords {image : List Byte} (hcap : image.length ≤ kCapacityBytes) :
    Describes (fileOf (mcsRecords image)) (mcsRecords image) := by
  have hcount : ∀ k ∈ List.range (sliceCount 65536 image), k < 65536 := fun k hk => by
    have := (lt_sliceCount (by decide)).mp (List.mem_range.mp hk)
    have : kCapacityBytes = 16777216 := rfl
    omega
  have hdata : ∀ p ∈ dataRecords 0 (mcsRecords image), ∃ k j, k < sliceCount 65536 image ∧
      j < sliceCount 16 (block image k) ∧ p = (65536 * k, lineRecord image k j) := by
    intro p hp
    rw [mcsRecords, dataRecords_blocks image 0 hcount] at hp
    obtain ⟨k, hk, hp⟩ := List.mem_flatMap.mp hp
    obtain ⟨r, hr, rfl⟩ := List.mem_map.mp hp
    obtain ⟨j, hj, rfl⟩ := List.mem_map.mp hr
    exact ⟨k, j, List.mem_range.mp hk, List.mem_range.mp hj, rfl⟩
  refine ⟨fileOf_holding _, fun r hr htype => ?_, fun p hp => ?_, fun p hp _ => ?_⟩
  · rcases List.mem_append.mp hr with hr | hr
    · obtain ⟨k, -, hr⟩ := List.mem_flatMap.mp hr
      rcases List.mem_cons.mp hr with rfl | hr
      · rfl
      · obtain ⟨j, -, rfl⟩ := List.mem_map.mp hr
        have h0 : (lineRecord image k j).recType = 0x00 := rfl
        rw [h0] at htype
        exact absurd htype (by decide)
    · obtain rfl := List.mem_singleton.mp hr
      exact absurd htype (by decide)
  · obtain ⟨k, j, hk, hj, rfl⟩ := hdata p hp
    have hline : (lineRecord image k j).data.length = min 16 ((block image k).length - 16 * j) := length_slice j
    have hblock : (block image k).length = min 65536 (image.length - 65536 * k) := length_slice k
    have hlt := (lt_sliceCount (by decide)).mp hj
    rw [toNat_recAddr_line hj, hline]
    omega
  · obtain ⟨k, j, hk, hj, rfl⟩ := hdata p hp
    have hor := McsReader.linear_or (BitVec.ofNat 16 k) (lineRecord image k j).recAddr
    rw [BitVec.toNat_ofNat, Nat.mod_eq_of_lt (hcount k (List.mem_range.mpr hk)), Nat.mul_comm] at hor
    exact (or_eq_add_iff _ _).mp hor

/-- The characters of a file of records are bytes. -/
theorem fileText_mcsFile (image : List Byte) : fileText (mcsFile image) = fileOf (mcsRecords image) := by
  have hpair : ∀ b : Byte, ∀ c ∈ hexPair b, Char.ofNat (BitVec.ofNat 8 c.toNat).toNat = c := by decide +kernel
  have hchars : ∀ c ∈ fileOf (mcsRecords image), Char.ofNat (BitVec.ofNat 8 c.toNat).toNat = c := by
    intro c hc
    obtain ⟨r, -, hc⟩ := List.mem_flatMap.mp hc
    rcases List.mem_append.mp hc with hc | hc
    · rcases List.mem_cons.mp hc with rfl | hc
      · decide
      · obtain ⟨b, -, hc⟩ := List.mem_flatMap.mp hc
        exact hpair b c hc
    · obtain rfl := List.mem_singleton.mp hc
      decide
  rw [fileText, mcsFile, List.map_map]
  exact (List.map_congr_left hchars).trans (List.map_id' _)

namespace Programming

open Mt25qFlash

/-- Without an image nothing is issued but the request for the identity. -/
theorem writeImage_refused {err : String} {p p' : Programming NorLink} {ok : Bool}
    (h : writeImage NorLink.bridge (.error err) p = some (ok, p')) :
    ok = false ∧ Issued p.flash p'.flash [⟨[kCmdReadId, 0, 0, 0], decide (p.flash.bridge.chip.busy ≠ 0)⟩] := by
  obtain ⟨r, q, hq, h⟩ := Method.bind_eq_some.mp h
  obtain ⟨f, hf, rfl⟩ := Method.on_eq_some.mp hq
  obtain ⟨hissued, -⟩ := readId_spec hf
  cases r with
  | none =>
    obtain ⟨rfl, rfl⟩ := Prod.mk.inj (Option.some.inj h)
    exact ⟨rfl, hissued⟩
  | some jedec =>
    simp only at h
    split at h
    · obtain ⟨rfl, rfl⟩ := Prod.mk.inj (Option.some.inj h)
      exact ⟨rfl, hissued⟩
    · obtain ⟨rfl, rfl⟩ := Prod.mk.inj (Option.some.inj h)
      exact ⟨rfl, hissued⟩

end Programming

namespace FlashProgrammer

open Programming

variable {σ : Type} {T : Target σ} {path : Text} {contents bridgeBit : Option (List Byte)}
  {loaded : Except String (List Byte)} {patience : List ℕ} {nor : NorLink} {fp fp' : FlashProgrammer σ NorLink}

/-- **The file is in the flash.** A file that is refused reaches the flash in no way. A programming that succeeds
leaves every byte of a binary file in the flash, and of an MCS file in order what it stores at each address, and
`0xFF` everywhere else; so every image within the capacity is in the flash once its MCS file has been programmed. -/
theorem program_file {ok : Bool} (hload : loadImageFile path contents = some loaded)
    (h : program T NorLink.bridge (fun _ _ => nor) (fun chain _ => chain) bridgeBit loaded patience fp =
      some (ok, fp')) :
    (∀ err, loaded = .error err → ok = false ∧ ∀ p, fp'.programming = some p →
      p.flash.bridge.log = nor.log ++ [⟨[kCmdReadId, 0, 0, 0], decide (nor.chip.busy ≠ 0)⟩]) ∧
    (ok = true → ∃ bytes p, contents = some bytes ∧ fp'.programming = some p ∧
      (isMcsPath path = false → ∀ a, p.flash.bridge.chip.memory a = bytes.getD a 0xFF) ∧
      (isMcsPath path = true →
        (∀ rs, Describes (fileText bytes) rs →
          ∀ a, p.flash.bridge.chip.memory a = (memory (stores rs) a).getD 0xFF) ∧
        ∀ image : List Byte, image.length ≤ kCapacityBytes → bytes = mcsFile image →
          ∀ a, p.flash.bridge.chip.memory a = image.getD a 0xFF)) := by
  obtain ⟨rfl, hnone⟩ | ⟨chain, lastError, p, hp, hwrite⟩ := program_cases h
  · exact ⟨fun err _ => ⟨rfl, fun p hp => absurd (hnone.symm.trans hp) (by simp)⟩, fun htrue => absurd htrue (by decide)⟩
  constructor
  · rintro err rfl
    obtain ⟨rfl, hissued⟩ := writeImage_refused hwrite
    refine ⟨rfl, fun p' hp' => ?_⟩
    obtain rfl : p = p' := Option.some.inj (hp.symm.trans hp')
    exact hissued
  rintro rfl
  obtain ⟨issues, -, -, -, hok⟩ := writeImage_spec hwrite
  obtain ⟨image, rfl, -, -, hholds⟩ := hok rfl
  cases hmcs : isMcsPath path with
  | false =>
    obtain rfl := loadImageFile_bin hmcs hload
    exact ⟨image, p, rfl, hp, fun _ => hholds, fun htrue => absurd htrue (by decide)⟩
  | true =>
    rw [loadImageFile, hmcs, if_pos rfl] at hload
    cases contents with
    | none => cases Option.some.inj hload
    | some bytes =>
      have hfile : ∀ rs, Describes (fileText bytes) rs →
          ∀ a, p.flash.bridge.chip.memory a = (memory (stores rs) a).getD 0xFF := fun rs hrs a => by
        rw [hholds, getD_of_shows (hrs.shows hload)]
      refine ⟨bytes, p, rfl, hp, fun hf => absurd hf (by decide), fun _ => ⟨hfile, ?_⟩⟩
      rintro image' hcap rfl a
      have hrecords : Describes (fileText (mcsFile image')) (mcsRecords image') := by
        rw [fileText_mcsFile]
        exact describes_mcsRecords hcap
      rw [hfile _ hrecords, stores_mcsRecords hcap, memory, foldl_storesOf]
      rcases Nat.lt_or_ge a image'.length with hlt | hge
      · rw [if_pos (by omega), Nat.sub_zero, List.getD_eq_getElem?_getD]
      · rw [if_neg (by omega), List.getD_eq_default _ _ hge]
        rfl

theorem program_file_bench :
    ∃ fp' p, program Target.wire NorLink.bridge (fun _ _ => oldFlash) (fun chain _ => chain) (some Config.sync)
        (.ok [0x12, 0x34, 0x56]) [5, 5] bench = some (true, fp') ∧ fp'.programming = some p ∧
      ∀ a, p.flash.bridge.chip.memory a = [0x12, 0x34, 0x56].getD a 0xFF := by
  have hload : loadImageFile "board.mcs".toList (some (mcsFile [0x12, 0x34, 0x56])) =
      some (.ok [0x12, 0x34, 0x56]) := by
    decide +kernel
  have hrun : ((program Target.wire NorLink.bridge (fun _ _ => oldFlash) (fun chain _ => chain) (some Config.sync)
      (.ok [0x12, 0x34, 0x56]) [5, 5] bench).map Prod.fst) = some true := by decide +kernel
  obtain ⟨⟨ok, fp'⟩, h, rfl⟩ := Option.map_eq_some_iff.mp hrun
  obtain ⟨bytes, p, hbytes, hp, -, hmcs⟩ := (program_file hload h).2 rfl
  have himage := (hmcs (by decide +kernel)).2 [0x12, 0x34, 0x56] (by decide) (Option.some.inj hbytes).symm
  exact ⟨fp', p, h, hp, himage⟩

end FlashProgrammer

end OwlTap.Flash
