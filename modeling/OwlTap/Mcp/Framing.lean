import Mathlib.Data.List.TakeWhile
import Mathlib.Tactic.IntervalCases
import OwlTap.Mcp.JsonRpc

/-!
# Frames cut into chunks

However the bytes of some frames are cut into chunks, the readers hand on exactly the messages,
unless a chunk ends inside the name of a header: then the reader takes the beginning of the name
for garbage and drops it (`reader_delivers_iff`).

A reader that is in step has handed on the messages of the frames received, and its buffer begins
a frame. One that has lost a header never catches up: each message it hands on costs it the two
newlines of a header that it has not yet passed (`linesAhead`).
-/

namespace OwlTap.Mcp

open OwlTap

variable {J : Type} {lib : JsonLibrary J} {ulongMax : ℕ}

/-! ### Headers -/

/-- The header of a message. -/
def header (lib : JsonLibrary J) (msg : J) : Bytes := kHeader ++ Nat.toDigits 10 (lib.dump msg).length ++ crlf2

theorem frameMessage_eq (msg : J) : frameMessage lib msg = header lib msg ++ lib.dump msg := rfl

/-- The frames of some messages, one after the other. -/
def frames (lib : JsonLibrary J) (msgs : List J) : Bytes := (msgs.map (frameMessage lib)).flatten

@[simp] theorem frames_nil : frames lib [] = [] := rfl

@[simp] theorem frames_cons (msg : J) (msgs : List J) : frames lib (msg :: msgs) = frameMessage lib msg ++ frames lib msgs :=
  rfl

theorem frames_append (a b : List J) : frames lib (a ++ b) = frames lib a ++ frames lib b := by
  rw [frames, List.map_append, List.flatten_append]
  rfl

theorem notMem_toDigits {c : Char} (h : c.isDigit = false) (n : ℕ) : c ∉ Nat.toDigits 10 n := fun hc => by
  rw [Nat.isDigit_of_mem_toDigits (by decide) (by decide) hc] at h
  cases h

/-- The value of some digits is read, unless it is too large. -/
theorem stoul_digits {digits : Bytes} (hne : digits ≠ []) (hdigit : ∀ c ∈ digits, c.isDigit = true) :
    stoul ulongMax digits =
      if ulongMax < Nat.ofDigitChars 10 digits 0 then none else some (Nat.ofDigitChars 10 digits 0) := by
  obtain ⟨c, cs, hcs⟩ : ∃ c cs, digits = c :: cs := List.exists_cons_of_ne_nil hne
  have hc : c.isDigit = true := hdigit c (by rw [hcs]; exact List.mem_cons_self)
  have hspace : isSpace c = false := by
    rw [isSpace, decide_eq_false_iff_not]
    rintro (rfl | rfl | rfl | rfl | rfl | rfl) <;> revert hc <;> decide
  have hminus : c ≠ '-' := by rintro rfl; revert hc; decide
  have hplus : c ≠ '+' := by rintro rfl; revert hc; decide
  have hdrop : digits.dropWhile isSpace = digits := by
    rw [hcs, List.dropWhile_cons_of_neg (by simp [hspace])]
  have htake : digits.takeWhile Char.isDigit = digits := List.takeWhile_eq_self_iff.mpr hdigit
  have hhead : digits.head? = some c := by rw [hcs]; rfl
  unfold stoul
  simp only [hdrop, hhead, Option.some.injEq, hminus, hplus, or_self, if_false, htake]
  simp only [hne, false_or]

/-- A length is read back, unless it is too large. -/
theorem stoul_toDigits (n : ℕ) :
    stoul ulongMax (Nat.toDigits 10 n) = if ulongMax < n then none else some n := by
  have hdigit : ∀ c ∈ Nat.toDigits 10 n, c.isDigit = true := fun c hc =>
    Nat.isDigit_of_mem_toDigits (by decide) (by decide) hc
  rw [stoul_digits Nat.toDigits_ne_nil hdigit, Nat.ofDigitChars_ten_toDigits]

theorem indexOf_crlf2 {a : Bytes} (h : '\r' ∉ a) (b : Bytes) :
    indexOf crlf2 (a ++ b) = (indexOf crlf2 b).map (a.length + ·) := indexOf_append_of_notMem h b

/-- The end of the header is found where it is. -/
theorem find_crlf2 (n : ℕ) (u : Bytes) :
    find (kHeader ++ Nat.toDigits 10 n ++ crlf2 ++ u) crlf2 kHeader.length =
      some (kHeader.length + (Nat.toDigits 10 n).length) := by
  rw [find, List.append_assoc, List.append_assoc, List.drop_left, indexOf_crlf2 (notMem_toDigits (by decide) n),
    indexOf_of_begins (List.prefix_append _ _)]
  rfl

/-- A whole header has been received. -/
theorem tryReadMessage_header (msg : J) (u : Bytes) :
    tryReadMessage lib ulongMax (header lib msg ++ u) 0 =
      match stoul ulongMax (Nat.toDigits 10 (lib.dump msg).length) with
      | none => (some lib.null, (header lib msg).length)
      | some bodyLen =>
        if u.length < bodyLen then (none, 0)
        else (some ((lib.parse (u.take bodyLen)).getD lib.null), (header lib msg).length + bodyLen) := by
  have hfind := find_crlf2 (lib.dump msg).length u
  have hlen : (header lib msg).length = kHeader.length + (Nat.toDigits 10 (lib.dump msg).length).length + 4 := by
    rw [header, List.length_append, List.length_append]
    rfl
  have hpos : ¬(header lib msg ++ u).length ≤ 0 := by
    rw [List.length_append, hlen]
    omega
  have htake : (header lib msg ++ u).take kHeader.length = kHeader := by
    rw [header, List.append_assoc, List.append_assoc, List.take_left]
  have hstr : ((header lib msg ++ u).drop kHeader.length).take
      (kHeader.length + (Nat.toDigits 10 (lib.dump msg).length).length - kHeader.length) =
      Nat.toDigits 10 (lib.dump msg).length := by
    rw [header, List.append_assoc, List.append_assoc, List.drop_left, Nat.add_sub_cancel_left, List.take_left]
  unfold tryReadMessage
  simp only [List.drop_zero, Nat.zero_add]
  rw [if_neg hpos, if_pos htake, show find (header lib msg ++ u) crlf2 kHeader.length = _ from hfind]
  simp only [hstr, ← hlen]
  cases stoul ulongMax (Nat.toDigits 10 (lib.dump msg).length) with
  | none => rfl
  | some bodyLen =>
    simp only [List.length_append, Nat.add_sub_cancel_left, List.drop_left]

/-- A whole frame has been received. -/
theorem tryReadMessage_frame {msg : J} (hp : lib.parse (lib.dump msg) = some msg) (hf : (lib.dump msg).length ≤ ulongMax)
    (t : Bytes) :
    tryReadMessage lib ulongMax (frameMessage lib msg ++ t) 0 = (some msg, (frameMessage lib msg).length) := by
  rw [frameMessage_eq, List.append_assoc, tryReadMessage_header, stoul_toDigits, if_neg (not_lt.mpr hf)]
  simp only [List.take_left, hp, Option.getD_some, List.length_append]
  rw [if_neg (by omega)]

/-- A part of a frame has been received, with the name of the header. -/
theorem tryReadMessage_part {msg : J} {s : Bytes}
    (hf : (lib.dump msg).length ≤ ulongMax ∨ s.length < (header lib msg).length) (hs : s <+: frameMessage lib msg)
    (hlt : s.length < (frameMessage lib msg).length) (h15 : 15 ≤ s.length) :
    tryReadMessage lib ulongMax s 0 = (none, 0) := by
  have hname : kHeader.length = 16 := rfl
  have hhead : kHeader <+: frameMessage lib msg := by
    rw [frameMessage, List.append_assoc, List.append_assoc]
    exact List.prefix_append _ _
  by_cases h16 : s.length = 15
  · -- the blank after the colon is missing
    have : s = kHeader.take 15 := by
      rw [List.prefix_iff_eq_take.mp (List.prefix_of_prefix_length_le hs hhead (by omega)), h16]
    rw [this]
    rfl
  obtain ⟨w, rfl⟩ := List.prefix_of_prefix_length_le hhead hs (by omega)
  rw [List.length_append] at hlt
  rw [frameMessage, List.append_assoc, List.append_assoc, List.prefix_append_right_inj] at hs
  set digits := Nat.toDigits 10 (lib.dump msg).length with hdigits
  by_cases hw : digits.length + 4 ≤ w.length
  · -- the body is not complete
    obtain ⟨u, rfl⟩ : digits ++ crlf2 <+: w := by
      rw [← List.append_assoc] at hs
      refine List.prefix_of_prefix_length_le (List.prefix_append _ _) hs ?_
      rw [List.length_append]
      exact hw
    have hu : u.length < (lib.dump msg).length := by
      rw [frameMessage, ← hdigits] at hlt
      simp only [List.length_append] at hlt
      omega
    rw [← List.append_assoc, ← List.append_assoc, hdigits]
    have hread : (lib.dump msg).length ≤ ulongMax := by
      refine hf.resolve_right ?_
      rw [header, ← hdigits, List.length_append, List.length_append, List.length_append, List.length_append,
        List.length_append]
      omega
    rw [show kHeader ++ Nat.toDigits 10 (lib.dump msg).length ++ crlf2 ++ u = header lib msg ++ u from rfl,
      tryReadMessage_header, stoul_toDigits, if_neg (not_lt.mpr hread)]
    simp only
    rw [if_pos hu]
  · -- the header is not complete
    have hnone : find (kHeader ++ w) crlf2 kHeader.length = none := by
      have hw' : w = digits.take w.length ++ crlf2.take (w.length - digits.length) := by
        have hs' : w <+: digits ++ crlf2 := by
          rw [← List.append_assoc] at hs
          refine List.prefix_of_prefix_length_le hs (List.prefix_append _ _) ?_
          rw [List.length_append, show crlf2.length = 4 from rfl]
          omega
        rw [← List.take_append]
        exact List.prefix_iff_eq_take.mp hs'
      have hshort : ∀ k < 4, indexOf crlf2 (crlf2.take k) = none := by decide
      have hcr : '\r' ∉ digits.take w.length := fun hm => notMem_toDigits (by decide) _ (List.mem_of_mem_take hm)
      rw [find, List.drop_left, hw', indexOf_crlf2 hcr, hshort _ (by omega)]
      rfl
    unfold tryReadMessage
    simp only [List.drop_zero, Nat.zero_add, List.take_left, if_true, hnone]
    split <;> rfl

/-- A part of the name of a header has been received: it is dropped. -/
theorem tryReadMessage_cut {n : ℕ} (h : 0 < n ∧ n < 15) :
    tryReadMessage lib ulongMax (kHeader.take n) 0 = (none, n) := by
  obtain ⟨h₁, h₂⟩ := h
  interval_cases n <;> rfl

/-! ### A reader in step -/

/-- The messages of these frames are to come, and the beginning of the first has been received. -/
def Begun (lib : JsonLibrary J) (rest : List J) (t : Bytes) : Prop :=
  match rest with
  | [] => t = []
  | msg :: _ => t <+: frameMessage lib msg ∧ t.length < (frameMessage lib msg).length

theorem fifteen_lt_length (lib : JsonLibrary J) (msg : J) : 15 < (frameMessage lib msg).length := by
  rw [frameMessage, List.length_append, List.length_append, List.length_append, show kHeader.length = 16 from rfl]
  omega

/-- What has been received is some whole frames and the beginning of the next. -/
theorem frames_split {rest : List J} {s f : Bytes} (h : s ++ f = frames lib rest) :
    ∃ got rest' t, rest = got ++ rest' ∧ s = frames lib got ++ t ∧ t ++ f = frames lib rest' ∧ Begun lib rest' t := by
  induction rest generalizing s with
  | nil =>
    obtain ⟨rfl, rfl⟩ := List.append_eq_nil_iff.mp h
    exact ⟨[], [], [], rfl, rfl, rfl, rfl⟩
  | cons msg rest ih =>
    rw [frames_cons] at h
    by_cases hlt : s.length < (frameMessage lib msg).length
    · have hs : s <+: frameMessage lib msg :=
        List.prefix_of_prefix_length_le ⟨f, h⟩ (List.prefix_append _ _) hlt.le
      exact ⟨[], msg :: rest, s, rfl, rfl, h, hs, hlt⟩
    · obtain ⟨s', rfl⟩ : frameMessage lib msg <+: s :=
        List.prefix_of_prefix_length_le (List.prefix_append _ _) ⟨f, h⟩ (not_lt.mp hlt)
      rw [List.append_assoc] at h
      obtain ⟨got, rest', t, rfl, rfl, hf, hb⟩ := ih (List.append_cancel_left h)
      exact ⟨msg :: got, rest', t, rfl, (List.append_assoc _ _ _).symm, hf, hb⟩

/-- The body of each message is short enough for its length to be read. -/
def Fits (lib : JsonLibrary J) (ulongMax : ℕ) (msgs : List J) : Prop := ∀ msg ∈ msgs, (lib.dump msg).length ≤ ulongMax

/-- Whole frames are read, and the beginning of the next is kept. -/
theorem drain_frames (hp : ∀ msg, lib.parse (lib.dump msg) = some msg) {got rest : List J}
    (hn : ∀ msg ∈ got, lib.isNull msg = false) (hf : Fits lib ulongMax got) {t : Bytes}
    (hr : ∀ msg ∈ rest.head?, (lib.dump msg).length ≤ ulongMax ∨ t.length < (header lib msg).length)
    (hb : Begun lib rest t) (ht : ¬(0 < t.length ∧ t.length < 15)) {fuel : ℕ} (hfuel : (frames lib got ++ t).length ≤ fuel) :
    drain lib ulongMax fuel (frames lib got ++ t) 0 = (got, (frames lib got).length) := by
  induction got generalizing fuel with
  | nil =>
    cases fuel with
    | zero => rfl
    | succ fuel =>
      rw [drain]
      split
      case isTrue => rfl
      case isFalse hpos =>
        have hpos : 0 < t.length := not_le.mp hpos
        cases rest with
        | nil => rw [show t = [] from hb] at hpos; exact absurd hpos (lt_irrefl 0)
        | cons msg rest =>
          rw [frames_nil, List.nil_append,
            tryReadMessage_part (hr msg rfl) hb.1 hb.2 (not_lt.mp fun hlt => ht ⟨hpos, hlt⟩)]
          rfl
  | cons msg got ih =>
    have hlen := fifteen_lt_length lib msg
    rw [frames_cons, List.append_assoc] at hfuel ⊢
    rw [List.length_append] at hfuel
    obtain ⟨fuel, rfl⟩ : ∃ k, fuel = k + 1 := ⟨fuel - 1, by omega⟩
    rw [drain, if_neg (by rw [List.length_append]; omega), tryReadMessage_frame (hp msg) (hf msg List.mem_cons_self)]
    simp only
    rw [drain_drop fuel _ (show (frameMessage lib msg).length ≤ (frameMessage lib msg ++ (frames lib got ++ t)).length by
      rw [List.length_append]; omega), List.drop_left,
      ih (fun m hm => hn m (List.mem_cons_of_mem _ hm)) (fun m hm => hf m (List.mem_cons_of_mem _ hm)) (by omega)]
    simp only [hn msg List.mem_cons_self, Bool.false_eq_true, if_false, List.length_append]

/-- What is received then. -/
theorem receive_frames (hp : ∀ msg, lib.parse (lib.dump msg) = some msg) {got rest : List J}
    (hn : ∀ msg ∈ got, lib.isNull msg = false) (hf : Fits lib ulongMax got) {t buf chunk : Bytes}
    (hr : ∀ msg ∈ rest.head?, (lib.dump msg).length ≤ ulongMax ∨ t.length < (header lib msg).length)
    (hb : Begun lib rest t) (ht : ¬(0 < t.length ∧ t.length < 15)) (hs : buf ++ chunk = frames lib got ++ t) :
    receive lib ulongMax buf chunk = (got, t) := by
  rw [receive, hs]
  simp only
  rw [drain_frames hp hn hf hr hb ht le_rfl, List.drop_left]

/-! ### Where chunks end -/

/-- The position is inside the name of a header: 1 to 14 bytes after the beginning of a frame. -/
def InsideName (lib : JsonLibrary J) (msgs : List J) (p : ℕ) : Prop :=
  ∃ done rest, msgs = done ++ rest ∧ (frames lib done).length < p ∧ p < (frames lib done).length + 15

/-- Some chunk ends inside the name of a header, after what is in the buffer. -/
def CutsHeader (lib : JsonLibrary J) (msgs : List J) (buf : Bytes) (chunks : List Bytes) : Prop :=
  ∃ pre post, chunks = pre ++ post ∧ InsideName lib msgs (buf.length + pre.flatten.length)

theorem insideName_append (got rest : List J) (p : ℕ) :
    InsideName lib (got ++ rest) ((frames lib got).length + p) ↔ InsideName lib rest p := by
  constructor
  · rintro ⟨done, rest', h, h₁, h₂⟩
    rcases List.append_eq_append_iff.mp h with ⟨d, rfl, rfl⟩ | ⟨g, rfl, -⟩
    · rw [frames_append, List.length_append] at h₁ h₂
      exact ⟨d, rest', rfl, by omega, by omega⟩
    · -- the frame would begin among those got, and be too short
      cases g with
      | nil =>
        rw [List.append_nil] at h₁ h₂
        exact ⟨[], rest, rfl, by rw [frames_nil, List.length_nil]; omega, by rw [frames_nil, List.length_nil]; omega⟩
      | cons msg g =>
        have hlen := fifteen_lt_length lib msg
        rw [frames_append, frames_cons, List.length_append, List.length_append] at h₂
        omega
  · rintro ⟨done, rest', rfl, h₁, h₂⟩
    refine ⟨got ++ done, rest', (List.append_assoc _ _ _).symm, ?_, ?_⟩
    · rw [frames_append, List.length_append]
      omega
    · rw [frames_append, List.length_append]
      omega

theorem insideName_begun {rest : List J} {t : Bytes} (h : Begun lib rest t) :
    InsideName lib rest t.length ↔ 0 < t.length ∧ t.length < 15 := by
  constructor
  · rintro ⟨done, rest', rfl, h₁, h₂⟩
    cases done with
    | nil =>
      rw [frames_nil, List.length_nil] at h₁ h₂
      omega
    | cons msg done =>
      have hlt : t.length < (frameMessage lib msg).length := h.2
      rw [frames_cons, List.length_append] at h₁
      omega
  · rintro ⟨h₁, h₂⟩
    exact ⟨[], rest, rfl, h₁, by rw [frames_nil, List.length_nil]; omega⟩

/-- The first chunk, and the others. -/
theorem cutsHeader_cons (msgs : List J) (buf chunk : Bytes) (chunks : List Bytes) :
    CutsHeader lib msgs buf (chunk :: chunks) ↔ InsideName lib msgs buf.length ∨ CutsHeader lib msgs (buf ++ chunk) chunks := by
  constructor
  · rintro ⟨pre, post, h, hin⟩
    cases pre with
    | nil => exact .inl hin
    | cons c pre =>
      obtain ⟨rfl, rfl⟩ := List.cons_eq_cons.mp h
      refine .inr ⟨pre, post, rfl, ?_⟩
      rwa [List.length_append, Nat.add_assoc, ← List.length_append, ← List.flatten_cons]
  · rintro (hin | ⟨pre, post, rfl, hin⟩)
    · exact ⟨[], chunk :: chunks, rfl, hin⟩
    · refine ⟨chunk :: pre, post, rfl, ?_⟩
      rwa [List.length_append, Nat.add_assoc, ← List.length_append, ← List.flatten_cons] at hin

theorem cutsHeader_append (got rest : List J) (t : Bytes) (chunks : List Bytes) :
    CutsHeader lib (got ++ rest) (frames lib got ++ t) chunks ↔ CutsHeader lib rest t chunks := by
  simp only [CutsHeader, List.length_append, Nat.add_assoc, insideName_append]

theorem cutsHeader_nil (msgs : List J) (buf : Bytes) : CutsHeader lib msgs buf [] ↔ InsideName lib msgs buf.length := by
  constructor
  · rintro ⟨pre, post, h, hin⟩
    obtain ⟨rfl, -⟩ := List.append_eq_nil_iff.mp h.symm
    exact hin
  · exact fun hin => ⟨[], [], rfl, hin⟩

/-- A reader in step hands on all messages. -/
theorem readerLoop_frames (hp : ∀ msg, lib.parse (lib.dump msg) = some msg) {chunks : List Bytes} {rest : List J}
    (hn : ∀ msg ∈ rest, lib.isNull msg = false) (hf : Fits lib ulongMax rest) {t : Bytes} (hb : Begun lib rest t)
    (h : t ++ chunks.flatten = frames lib rest) (hc : ¬CutsHeader lib rest t chunks) :
    readerLoop lib ulongMax t chunks = rest := by
  induction chunks generalizing rest t with
  | nil =>
    cases rest with
    | nil => rfl
    | cons msg rest =>
      rw [List.flatten_nil, List.append_nil] at h
      have hlt := hb.2
      rw [h, frames_cons, List.length_append] at hlt
      omega
  | cons chunk chunks ih =>
    rw [List.flatten_cons, ← List.append_assoc] at h
    obtain ⟨got, rest', t', rfl, hs, ht, hb'⟩ := frames_split h
    rw [cutsHeader_cons, not_or, hs, cutsHeader_append] at hc
    have hcut : ¬(0 < t'.length ∧ t'.length < 15) := by
      rw [← insideName_begun hb']
      exact fun hin => hc.2 ⟨[], chunks, rfl, hin⟩
    rw [List.forall_mem_append] at hn
    have hf' : Fits lib ulongMax rest' := fun m hm => hf m (List.mem_append_right _ hm)
    have hread : ∀ msg ∈ rest'.head?, (lib.dump msg).length ≤ ulongMax ∨ t'.length < (header lib msg).length :=
      fun msg hm => .inl (hf' msg (List.mem_of_mem_head? hm))
    rw [readerLoop, receive_frames hp hn.1 (fun m hm => hf m (List.mem_append_left _ hm)) hread hb' hcut hs]
    simp only
    rw [ih hn.2 hf' hb' ht hc.2]

/-! ### A reader that has lost a header -/

/-- How many newlines there are from the next name of a header on. -/
def linesAhead (r : Bytes) : ℕ :=
  match indexOf kHeader r with
  | none => 0
  | some i => (r.drop i).count '\n'

theorem linesAhead_le_count (r : Bytes) : linesAhead r ≤ r.count '\n' := by
  rw [linesAhead]
  split
  · exact Nat.zero_le _
  · exact (List.drop_sublist _ _).count_le _

theorem linesAhead_of_begins {r : Bytes} (h : kHeader <+: r) : linesAhead r = r.count '\n' := by
  rw [linesAhead, indexOf_of_begins h]
  rfl

theorem linesAhead_append_le (x y : Bytes) : linesAhead y ≤ linesAhead (x ++ y) := by
  induction x with
  | nil => exact le_rfl
  | cons c x ih =>
    by_cases h : kHeader <+: c :: (x ++ y)
    · rw [List.cons_append, linesAhead_of_begins h]
      refine (linesAhead_le_count y).trans ?_
      exact ((List.sublist_append_right x y).trans (List.sublist_cons_self c _)).count_le _
    · have : linesAhead (c :: (x ++ y)) = linesAhead (x ++ y) := by
        rw [linesAhead, linesAhead, indexOf_cons_of_not h]
        cases indexOf kHeader (x ++ y) with
        | none => rfl
        | some i => rfl
      rw [List.cons_append, this]
      exact ih

theorem linesAhead_append_of_notMem {a : Bytes} (h : 'C' ∉ a) (b : Bytes) : linesAhead (a ++ b) = linesAhead b := by
  have : indexOf kHeader (a ++ b) = (indexOf kHeader b).map (a.length + ·) := indexOf_append_of_notMem h b
  rw [linesAhead, linesAhead, this]
  cases indexOf kHeader b with
  | none => rfl
  | some i =>
    simp only [Option.map_some]
    rw [← List.drop_drop, List.drop_left]

/-- The texts have no newlines. -/
def OneLine (lib : JsonLibrary J) (msgs : List J) : Prop := ∀ msg ∈ msgs, '\n' ∉ lib.dump msg

/-- No text ends in the first line of a header. -/
def Rejects (lib : JsonLibrary J) : Prop :=
  ∀ (x : Bytes) (n : ℕ), lib.parse (x ++ kHeader ++ Nat.toDigits 10 n ++ ['\r']) = none

theorem count_header (msg : J) : (header lib msg).count '\n' = 2 := by
  rw [header, List.count_append, List.count_append, List.count_eq_zero_of_not_mem (notMem_toDigits (by decide) _)]
  decide

theorem count_frames {msgs : List J} (h : OneLine lib msgs) : (frames lib msgs).count '\n' = 2 * msgs.length := by
  induction msgs with
  | nil => rfl
  | cons msg msgs ih =>
    rw [frames_cons, frameMessage_eq, List.count_append, List.count_append, count_header,
      List.count_eq_zero_of_not_mem (h msg List.mem_cons_self), ih fun m hm => h m (List.mem_cons_of_mem _ hm),
      List.length_cons]
    omega

theorem brace_notMem_header (lib : JsonLibrary J) (msg : J) : '{' ∉ header lib msg := by
  rw [header, List.mem_append, List.mem_append]
  rintro ((h | h) | h)
  · revert h; decide
  · exact notMem_toDigits (by decide) _ h
  · revert h; decide

/-- A line that begins with a brace in the middle of some frames ends with the first line of a header. -/
theorem line_of_frames {msgs : List J} (hone : OneLine lib msgs) (pre : Bytes) {r : Bytes}
    (h : pre ++ r = frames lib msgs) (hbrace : r[0]? = some '{') {nl : ℕ} (hnl : indexOf ['\n'] r = some nl) :
    ∃ x n, r.take nl = x ++ kHeader ++ Nat.toDigits 10 n ++ ['\r'] := by
  obtain ⟨r', rfl⟩ : ∃ r', r = '{' :: r' := by
    cases r with
    | nil => cases hbrace
    | cons c r => exact ⟨r, by rw [Option.some.inj hbrace]⟩
  induction msgs generalizing pre with
  | nil => exact absurd (List.append_eq_nil_iff.mp h).2 (List.cons_ne_nil _ _)
  | cons msg msgs ih =>
    have hone' : OneLine lib msgs := fun m hm => hone m (List.mem_cons_of_mem _ hm)
    rw [frames_cons, frameMessage_eq] at h
    rcases List.append_eq_append_iff.mp h with ⟨a, hpre, hr⟩ | ⟨pre', rfl, h'⟩
    · -- the brace is in this frame, and so in its body
      cases a with
      | nil => exact ih hone' [] (by rw [hr]; rfl)
      | cons c a =>
        obtain ⟨rfl, hr'⟩ := List.cons_eq_cons.mp hr
        replace hr' : r' = a ++ frames lib msgs := hr'
        have hnot : '\n' ∉ ('{' :: a) := by
          intro hm
          refine hone msg List.mem_cons_self ?_
          rcases List.append_eq_append_iff.mp hpre with ⟨b, -, hbody⟩ | ⟨b, hheader, hbody⟩
          · rw [hbody]
            exact List.mem_append_right _ hm
          · cases b with
            | nil =>
              rw [List.nil_append] at hbody
              rwa [← hbody]
            | cons d b =>
              obtain ⟨rfl, -⟩ := List.cons_eq_cons.mp hbody
              refine absurd ?_ (brace_notMem_header lib msg)
              rw [hheader]
              exact List.mem_append_right _ List.mem_cons_self
        rw [hr', ← List.cons_append] at hnl ⊢
        cases msgs with
        | nil =>
          rw [frames_nil, indexOf_append_of_notMem hnot] at hnl
          cases hnl
        | cons msg' msgs =>
          -- the newline is the first of the next header
          refine ⟨'{' :: a, (lib.dump msg').length, ?_⟩
          have hline : '\n' ∉ ('{' :: a) ++ kHeader ++ Nat.toDigits 10 (lib.dump msg').length ++ ['\r'] := by
            simp only [List.mem_append, not_or]
            exact ⟨⟨⟨hnot, by decide⟩, notMem_toDigits (by decide) _⟩, by decide⟩
          have hsplit : ('{' :: a) ++ frames lib (msg' :: msgs) =
              ('{' :: a) ++ kHeader ++ Nat.toDigits 10 (lib.dump msg').length ++ ['\r'] ++
                (['\n'] ++ ('\r' :: '\n' :: (lib.dump msg' ++ frames lib msgs))) := by
            rw [frames_cons, frameMessage, crlf2]
            simp only [List.append_assoc, List.cons_append, List.nil_append]
          rw [hsplit, indexOf_append_of_notMem hline, indexOf_of_begins (List.prefix_append _ _)] at hnl
          obtain rfl := Option.some.inj hnl
          rw [hsplit]
          exact List.take_left
    · exact ih hone' pre' h'.symm

/-- Each message that is handed on costs a header still ahead, whatever the state of the reader. -/
theorem drain_lines {msgs : List J} (hone : OneLine lib msgs) (hrej : Rejects lib) (ulongMax fuel : ℕ) (pre s : Bytes)
    {f : Bytes} (h : pre ++ (s ++ f) = frames lib msgs) :
    2 * (drain lib ulongMax fuel s 0).1.length + linesAhead ((s ++ f).drop (drain lib ulongMax fuel s 0).2) ≤
      linesAhead (s ++ f) ∧ (drain lib ulongMax fuel s 0).2 ≤ s.length := by
  induction fuel generalizing pre s with
  | zero => exact ⟨by rw [drain]; simp, Nat.zero_le _⟩
  | succ fuel ih =>
    have hmono : ∀ n, linesAhead ((s ++ f).drop n) ≤ linesAhead (s ++ f) := fun n => by
      conv => rhs; rw [← List.take_append_drop n (s ++ f)]
      exact linesAhead_append_le _ _
    rw [drain]
    split
    case isTrue => exact ⟨by simp, Nat.zero_le _⟩
    -- a message, or a null value, has been read, and the rest is still to come
    have hrest : ∀ n ≤ s.length, (drain lib ulongMax fuel s n).2 ≤ s.length ∧
        2 * (drain lib ulongMax fuel s n).1.length + linesAhead ((s ++ f).drop (drain lib ulongMax fuel s n).2) ≤
          linesAhead ((s ++ f).drop n) := by
      intro n hn
      have hdrop : (s ++ f).drop n = s.drop n ++ f := List.drop_append_of_le_length hn
      obtain ⟨h₁, h₂⟩ := ih (pre ++ s.take n) (s.drop n) (by
        rw [List.append_assoc, ← List.append_assoc (s.take n), List.take_append_drop, h])
      rw [List.length_drop] at h₂
      rw [drain_drop fuel s hn, ← List.drop_drop, hdrop]
      exact ⟨by simp only; omega, h₁⟩
    rcases tryReadMessage_cases lib ulongMax s with ⟨n, hn, e⟩ | ⟨msg, n, hn, e, -, hheader, hcount⟩ | ⟨nl, hnl, hbrace, hn, e⟩
    · rw [e]
      exact ⟨by simpa using hmono n, hn⟩
    · rw [e]
      obtain ⟨h₁, h₂⟩ := hrest n hn
      have hall : linesAhead (s ++ f) = (s ++ f).count '\n' := linesAhead_of_begins (hheader.trans (List.prefix_append _ _))
      have hcut : 2 + linesAhead ((s ++ f).drop n) ≤ linesAhead (s ++ f) := by
        rw [hall]
        conv => rhs; rw [← List.take_append_drop n (s ++ f), List.count_append, List.take_append_of_le_length hn]
        exact Nat.add_le_add hcount (linesAhead_le_count _)
      refine ⟨?_, h₁⟩
      simp only
      split
      · omega
      · rw [List.length_cons]
        omega
    · -- the line is no message
      have hline : lib.parse (s.take nl) = none := by
        have hlen : nl + 1 ≤ s.length := le_of_indexOf hnl (by decide)
        obtain ⟨x, k, hx⟩ := line_of_frames hone pre h (by rw [List.getElem?_append_left (by omega)]; exact hbrace)
          (indexOf_append_of_eq_some hnl f)
        rw [List.take_append_of_le_length (by omega)] at hx
        rw [hx]
        exact hrej x k
      rw [e, hline]
      obtain ⟨h₁, h₂⟩ := hrest (nl + 1) hn
      simp only [Option.getD_none, lib.isNull_null, if_true]
      exact ⟨h₂.trans (hmono _), h₁⟩

theorem readerLoop_lines {msgs : List J} (hone : OneLine lib msgs) (hrej : Rejects lib) (ulongMax : ℕ) (chunks : List Bytes)
    (pre buf : Bytes) (h : pre ++ (buf ++ chunks.flatten) = frames lib msgs) :
    2 * (readerLoop lib ulongMax buf chunks).length ≤ linesAhead (buf ++ chunks.flatten) := by
  induction chunks generalizing pre buf with
  | nil => exact Nat.zero_le _
  | cons chunk chunks ih =>
    rw [List.flatten_cons, ← List.append_assoc buf] at h ⊢
    obtain ⟨h₁, h₂⟩ := drain_lines hone hrej ulongMax (buf ++ chunk).length pre (buf ++ chunk) h
    rw [readerLoop, receive]
    simp only
    set r := drain lib ulongMax (buf ++ chunk).length (buf ++ chunk) 0
    have h₃ := ih (pre ++ (buf ++ chunk).take r.2) ((buf ++ chunk).drop r.2) (by
      rw [List.append_assoc, ← List.append_assoc ((buf ++ chunk).take r.2), List.take_append_drop, h])
    rw [List.drop_append_of_le_length h₂] at h₁
    rw [List.length_append]
    omega

/-! ### Losing a header -/

/-- The body of a message that is too long is taken for the beginning of what follows. -/
theorem drain_oversize {msg : J} {rest : List J} (hone : OneLine lib (msg :: rest)) (hrej : Rejects lib)
    (hlong : ulongMax < (lib.dump msg).length) {u f : Bytes} (h : u ++ f = lib.dump msg ++ frames lib rest) (fuel : ℕ) :
    2 * (drain lib ulongMax (fuel + 1) (header lib msg ++ u) 0).1.length +
      linesAhead ((header lib msg ++ u ++ f).drop (drain lib ulongMax (fuel + 1) (header lib msg ++ u) 0).2) ≤
        2 * rest.length := by
  have hpos : ¬(header lib msg ++ u).length ≤ 0 := by
    rw [List.length_append, header, List.length_append, List.length_append, show kHeader.length = 16 from rfl]
    omega
  have hall : header lib msg ++ (u ++ f) = frames lib (msg :: rest) := by
    rw [h, frames_cons, frameMessage_eq, List.append_assoc]
  obtain ⟨h₁, -⟩ := drain_lines hone hrej ulongMax fuel (header lib msg) u hall
  have hcount : linesAhead (u ++ f) ≤ 2 * rest.length := by
    refine (linesAhead_le_count _).trans ?_
    rw [h, List.count_append, List.count_eq_zero_of_not_mem (hone msg List.mem_cons_self),
      count_frames fun m hm => hone m (List.mem_cons_of_mem _ hm), Nat.zero_add]
  rw [drain, if_neg hpos, tryReadMessage_header, stoul_toDigits, if_pos hlong]
  simp only [lib.isNull_null, if_true]
  rw [drain_drop fuel _ (show (header lib msg).length ≤ (header lib msg ++ u).length by
    rw [List.length_append]; exact Nat.le_add_right _ _), List.drop_left, ← List.drop_drop, List.append_assoc,
    List.drop_left]
  exact h₁.trans hcount

/-- The header of the first message is lost: a part of its name has been received alone, or its length is too large. -/
def Loses (lib : JsonLibrary J) (ulongMax : ℕ) (rest : List J) (t : Bytes) : Prop :=
  (0 < t.length ∧ t.length < 15) ∨
    ∃ msg ∈ rest.head?, ulongMax < (lib.dump msg).length ∧ (header lib msg).length ≤ t.length

/-- When a header is lost there are more messages than are still handed on. -/
theorem drain_lost (hp : ∀ msg, lib.parse (lib.dump msg) = some msg) (hrej : Rejects lib) {got rest : List J} {t f : Bytes}
    (hone : OneLine lib (got ++ rest)) (hb : Begun lib rest t) (h : t ++ f = frames lib rest)
    (hlost : ¬Fits lib ulongMax got ∨ Loses lib ulongMax rest t) {fuel : ℕ} (hfuel : (frames lib got ++ t).length ≤ fuel) :
    2 * (drain lib ulongMax fuel (frames lib got ++ t) 0).1.length +
      linesAhead ((frames lib got ++ t ++ f).drop (drain lib ulongMax fuel (frames lib got ++ t) 0).2) + 2 ≤
        2 * (got ++ rest).length := by
  induction got generalizing fuel with
  | nil =>
    rw [frames_nil, List.nil_append] at hfuel ⊢
    rw [List.nil_append] at hone ⊢
    have hloses : Loses lib ulongMax rest t := hlost.resolve_left fun hno => hno fun m hm => nomatch hm
    obtain ⟨msg, rest, rfl⟩ : ∃ msg rest', rest = msg :: rest' := by
      cases rest with
      | nil =>
        obtain rfl : t = [] := hb
        rcases hloses with ⟨hlt, -⟩ | ⟨msg, hm, -⟩
        · exact absurd hlt (lt_irrefl 0)
        · cases hm
      | cons msg rest => exact ⟨msg, rest, rfl⟩
    have hframe : header lib msg <+: frameMessage lib msg := List.prefix_append _ _
    rcases hloses with ⟨hpos, hlt⟩ | ⟨msg', hm, hlong, hle⟩
    · -- the part of the name is dropped, and no name is left before the body
      have hname : kHeader <+: frameMessage lib msg := by
        rw [frameMessage, List.append_assoc, List.append_assoc]
        exact List.prefix_append _ _
      obtain ⟨n, hn, rfl⟩ : ∃ n, (0 < n ∧ n < 15) ∧ t = kHeader.take n :=
        ⟨t.length, ⟨hpos, hlt⟩, List.prefix_iff_eq_take.mp
          (List.prefix_of_prefix_length_le hb.1 hname (by rw [show kHeader.length = 16 from rfl]; omega))⟩
      have hf : f = kHeader.drop n ++ Nat.toDigits 10 (lib.dump msg).length ++ crlf2 ++ (lib.dump msg ++ frames lib rest) := by
        rw [frames_cons, frameMessage] at h
        conv at h => rhs; rw [← List.take_append_drop n kHeader]
        simp only [List.append_assoc] at h ⊢
        exact List.append_cancel_left h
      have hnoname : 'C' ∉ kHeader.drop n ++ Nat.toDigits 10 (lib.dump msg).length ++ crlf2 := by
        have hdrop : 'C' ∉ kHeader.drop n := fun hm => by
          have hone : 'C' ∉ kHeader.drop 1 := by decide
          rw [← Nat.add_sub_cancel' hn.1, ← List.drop_drop] at hm
          exact hone (List.mem_of_mem_drop hm)
        simp only [List.mem_append, not_or]
        exact ⟨⟨hdrop, notMem_toDigits (by decide) _⟩, by decide⟩
      have hcount : linesAhead f ≤ 2 * rest.length := by
        rw [hf, linesAhead_append_of_notMem hnoname]
        refine (linesAhead_le_count _).trans ?_
        rw [List.count_append, List.count_eq_zero_of_not_mem (hone msg List.mem_cons_self),
          count_frames fun m hm => hone m (List.mem_cons_of_mem _ hm), Nat.zero_add]
      have hlen : (kHeader.take n).length = n := List.length_take_of_le (by rw [show kHeader.length = 16 from rfl]; omega)
      obtain ⟨fuel, rfl⟩ : ∃ k, fuel = k + 1 := ⟨fuel - 1, by omega⟩
      have hdrain : drain lib ulongMax (fuel + 1) (kHeader.take n) 0 = ([], n) := by
        rw [drain, if_neg (by omega), tryReadMessage_cut hn]
      have hdrop : (kHeader.take n ++ f).drop n = f := by
        conv => lhs; rw [← hlen]
        rw [hlen]
        exact List.drop_left' hlen
      rw [hdrain]
      simp only
      rw [hdrop, List.length_cons, List.length_nil]
      omega
    · obtain rfl : msg = msg' := Option.some.inj hm
      obtain ⟨u, rfl⟩ : header lib msg <+: t := List.prefix_of_prefix_length_le hframe hb.1 hle
      have hu : u ++ f = lib.dump msg ++ frames lib rest := by
        rw [frames_cons, frameMessage_eq, List.append_assoc, List.append_assoc] at h
        exact List.append_cancel_left h
      have hlen : (header lib msg ++ u).length ≠ 0 := by
        rw [List.length_append, header, List.length_append, List.length_append, show kHeader.length = 16 from rfl]
        omega
      obtain ⟨fuel, rfl⟩ : ∃ k, fuel = k + 1 := ⟨fuel - 1, by omega⟩
      have := drain_oversize hone hrej hlong hu fuel
      rw [List.length_cons]
      omega
  | cons msg got ih =>
    have hone' : OneLine lib (got ++ rest) := fun m hm => hone m (List.mem_cons_of_mem _ hm)
    have hlen := fifteen_lt_length lib msg
    rw [frames_cons, List.append_assoc] at hfuel
    rw [List.length_append] at hfuel
    obtain ⟨fuel, rfl⟩ : ∃ k, fuel = k + 1 := ⟨fuel - 1, by omega⟩
    rw [show 2 * (msg :: got ++ rest).length = 2 * (got ++ rest).length + 2 from rfl]
    by_cases hfit : (lib.dump msg).length ≤ ulongMax
    · have hlost' : ¬Fits lib ulongMax got ∨ Loses lib ulongMax rest t := by
        refine hlost.imp_left fun hno hgot => hno ?_
        exact List.forall_mem_cons.mpr ⟨hfit, hgot⟩
      have hkept := ih hone' hlost' (show (frames lib got ++ t).length ≤ fuel by omega)
      rw [frames_cons, List.append_assoc, drain, if_neg (by rw [List.length_append]; omega),
        tryReadMessage_frame (hp msg) hfit]
      simp only
      rw [drain_drop fuel _ (show (frameMessage lib msg).length ≤ (frameMessage lib msg ++ (frames lib got ++ t)).length by
        rw [List.length_append]; omega), List.drop_left, ← List.drop_drop, List.append_assoc, List.drop_left]
      simp only
      split
      · omega
      · rw [List.length_cons]
        omega
    · have hu : lib.dump msg ++ frames lib got ++ t ++ f = lib.dump msg ++ frames lib (got ++ rest) := by
        rw [frames_append, ← h]
        simp only [List.append_assoc]
      have hall : OneLine lib (msg :: (got ++ rest)) := hone
      have := drain_oversize hall hrej (not_le.mp hfit) hu fuel
      have hs : frames lib (msg :: got) ++ t = header lib msg ++ (lib.dump msg ++ frames lib got ++ t) := by
        rw [frames_cons, frameMessage_eq]
        simp only [List.append_assoc]
      rw [hs]
      omega

/-- A reader that loses a header does not hand on as many messages as are sent. -/
theorem readerLoop_lost (hp : ∀ msg, lib.parse (lib.dump msg) = some msg) (hrej : Rejects lib) {chunks : List Bytes}
    {rest : List J} (hn : ∀ msg ∈ rest, lib.isNull msg = false) (hone : OneLine lib rest) {t : Bytes}
    (hb : Begun lib rest t) (ht : ¬(0 < t.length ∧ t.length < 15)) (h : t ++ chunks.flatten = frames lib rest)
    (hlost : ¬Fits lib ulongMax rest ∨ CutsHeader lib rest t chunks) :
    (readerLoop lib ulongMax t chunks).length < rest.length := by
  induction chunks generalizing rest t with
  | nil =>
    rw [cutsHeader_nil, insideName_begun hb] at hlost
    cases rest with
    | nil => exact absurd (fun m hm => nomatch hm) (hlost.resolve_right ht)
    | cons msg rest =>
      rw [List.flatten_nil, List.append_nil] at h
      have hlt := hb.2
      rw [h, frames_cons, List.length_append] at hlt
      omega
  | cons chunk chunks ih =>
    rw [cutsHeader_cons, insideName_begun hb, or_iff_right ht] at hlost
    rw [List.flatten_cons, ← List.append_assoc] at h
    obtain ⟨got, rest', t', rfl, hs, ht', hb'⟩ := frames_split h
    rw [hs, cutsHeader_append] at hlost
    rw [readerLoop]
    by_cases hbad : ¬Fits lib ulongMax got ∨ Loses lib ulongMax rest' t'
    · have h₁ := drain_lost hp hrej hone hb' ht' hbad le_rfl
      obtain ⟨-, hle⟩ := drain_lines hone hrej ulongMax (frames lib got ++ t').length [] (frames lib got ++ t')
        (show [] ++ (frames lib got ++ t' ++ chunks.flatten) = _ by
          rw [List.nil_append, List.append_assoc, ht', frames_append])
      rw [receive, hs]
      simp only
      set r := drain lib ulongMax (frames lib got ++ t').length (frames lib got ++ t') 0
      have h₂ := readerLoop_lines hone hrej ulongMax chunks ((frames lib got ++ t').take r.2)
        ((frames lib got ++ t').drop r.2) (by
          rw [← List.append_assoc, List.take_append_drop, List.append_assoc, ht', frames_append])
      rw [List.drop_append_of_le_length hle] at h₁
      rw [List.length_append]
      omega
    · obtain ⟨hgot, hkeep⟩ := not_or.mp hbad
      obtain ⟨hcut, hread⟩ := not_or.mp hkeep
      rw [List.forall_mem_append] at hn
      have hread' : ∀ msg ∈ rest'.head?, (lib.dump msg).length ≤ ulongMax ∨ t'.length < (header lib msg).length := by
        intro msg hm
        by_contra hno
        rw [not_or, not_le, not_lt] at hno
        exact hread ⟨msg, hm, hno⟩
      rw [receive_frames hp hn.1 (not_not.mp hgot) hread' hb' hcut hs]
      have hlost' : ¬Fits lib ulongMax rest' ∨ CutsHeader lib rest' t' chunks := by
        refine hlost.imp_left fun hno hrest => hno ?_
        exact List.forall_mem_append.mpr ⟨not_not.mp hgot, hrest⟩
      have := ih hn.2 (fun m hm => hone m (List.mem_append_right _ hm)) hb' hcut ht' hlost'
      rw [List.length_append, List.length_append]
      omega

/-- However the bytes of some frames are cut into chunks, a reader hands on exactly their messages, in order, when no
chunk ends inside the name of a header and each body is short enough for its length to be read; and only then, for texts
of one line none of which ends in the first line of a header. -/
theorem reader_delivers_iff (hp : ∀ msg, lib.parse (lib.dump msg) = some msg) {msgs : List J}
    (hn : ∀ msg ∈ msgs, lib.isNull msg = false) {chunks : List Bytes} (h : chunks.flatten = frames lib msgs) :
    (Fits lib ulongMax msgs ∧ ¬CutsHeader lib msgs [] chunks → readerLoop lib ulongMax [] chunks = msgs) ∧
    (OneLine lib msgs → Rejects lib → readerLoop lib ulongMax [] chunks = msgs →
      Fits lib ulongMax msgs ∧ ¬CutsHeader lib msgs [] chunks) := by
  have hb : Begun lib msgs [] := by
    cases msgs with
    | nil => rfl
    | cons msg msgs => exact ⟨ List.nil_prefix, Nat.zero_lt_of_lt (fifteen_lt_length lib msg)⟩
  refine ⟨fun ⟨hf, hc⟩ => readerLoop_frames hp hn hf hb h hc, fun hone hrej hall => ?_⟩
  by_contra hno
  have hlost : ¬Fits lib ulongMax msgs ∨ CutsHeader lib msgs [] chunks := by
    rwa [not_and_or, not_not] at hno
  have hlt := readerLoop_lost hp hrej hn hone hb (fun hpos => absurd hpos.1 (lt_irrefl 0)) h hlost
  rw [hall] at hlt
  exact absurd hlt (lt_irrefl _)

/-! ### An instance -/

/-- Two JSON values. -/
inductive Sample
  | null
  | object
  deriving DecidableEq

/-- Their texts. -/
def sampleLibrary : JsonLibrary Sample where
  dump v := match v with
    | .null => "null".toList
    | .object => ['\x7b', '\x7d']
  parse s := if s = "null".toList then some .null else if s = ['\x7b', '\x7d'] then some .object else none
  null := .null
  isNull v := v = .null
  isNull_null := rfl

theorem sampleLibrary_parse (msg : Sample) : sampleLibrary.parse (sampleLibrary.dump msg) = some msg := by
  cases msg <;> rfl

theorem sampleLibrary_rejects : Rejects sampleLibrary := by
  intro x n
  have hlast : (x ++ kHeader ++ Nat.toDigits 10 n ++ ['\r']).getLast? = some '\r' := List.getLast?_concat
  have hnull : x ++ kHeader ++ Nat.toDigits 10 n ++ ['\r'] ≠ "null".toList := fun h => by
    rw [h] at hlast
    revert hlast
    decide
  have hobject : x ++ kHeader ++ Nat.toDigits 10 n ++ ['\r'] ≠ ['\x7b', '\x7d'] := fun h => by
    rw [h] at hlast
    revert hlast
    decide
  simp only [sampleLibrary, hnull, hobject, if_false]

/-- Two frames, with a header cut after its name and a body cut in the middle. -/
def sampleChunks : List Bytes :=
  ["Content-Length: 2\r\n\r\n\x7b\x7dContent-Length:".toList, " 2\r\n\r\n\x7b".toList, ['\x7d']]

theorem samples_delivered :
    readerLoop sampleLibrary (2 ^ 64 - 1) [] sampleChunks = [.object, .object] ∧
      ¬CutsHeader sampleLibrary [.object, .object] [] sampleChunks := by
  have hiff := @reader_delivers_iff Sample sampleLibrary (2 ^ 64 - 1) sampleLibrary_parse [.object, .object] (by decide)
    sampleChunks (by decide)
  have hread : readerLoop sampleLibrary (2 ^ 64 - 1) [] sampleChunks = [.object, .object] := by decide
  exact ⟨hread, (hiff.2 (fun msg _ => by cases msg <;> decide) sampleLibrary_rejects hread).2⟩

/-- A header cut after its first four letters: the message is never handed on. -/
theorem cut_header_loses :
    ∃ (msgs : List Sample) (chunks : List Bytes), (∀ msg, sampleLibrary.parse (sampleLibrary.dump msg) = some msg) ∧
      (∀ msg ∈ msgs, sampleLibrary.isNull msg = false) ∧ (∀ chunk ∈ chunks, chunk ≠ []) ∧
      chunks.flatten = frames sampleLibrary msgs ∧ readerLoop sampleLibrary (2 ^ 64 - 1) [] chunks ≠ msgs :=
  ⟨[.object], ["Cont".toList, "ent-Length: 2\r\n\r\n\x7b\x7d".toList], sampleLibrary_parse, by decide, by decide, by decide, by decide⟩

end OwlTap.Mcp
