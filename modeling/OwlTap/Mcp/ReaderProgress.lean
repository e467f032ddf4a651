import OwlTap.Mcp.Framing

/-!
# The reader's progress

`tryReadMessage` either moves its position or waits for the rest of a message. It waits for
nothing when the bytes begin with the name of a header but for the blank after it: what is skipped
are the bytes before the next `Content-Length:`, and these are none (`tryReadMessage_nameless`).
Then the reader hands on nothing, whatever it still receives (`readerLoop_nameless`).
-/

namespace OwlTap.Mcp

open OwlTap

variable {J : Type} {lib : JsonLibrary J} {ulongMax : ℕ}

/-! ### Messages -/

/-- The name of a header, without the blank. -/
def kName : Bytes := "Content-Length:".toList

/-- A well-formed message: a header with a decimal length and a body of that length, or a line that starts with a
brace. -/
inductive WellFormed : Bytes → Prop
  /-- A header, the empty line and the body. -/
  | frame {digits body : Bytes} (hne : digits ≠ []) (hdigit : ∀ c ∈ digits, c.isDigit = true)
      (hlen : Nat.ofDigitChars 10 digits 0 = body.length) : WellFormed (kHeader ++ (digits ++ crlf2 ++ body))
  /-- A line. -/
  | line {text : Bytes} (h : '\n' ∉ text) : WellFormed ('{' :: (text ++ ['\n']))

/-- What a call does at a position: it hands on a value and moves on, or it moves on, or further input completes a
well-formed message, of which only a part has been received, and then it moves on. -/
def Reads (lib : JsonLibrary J) (ulongMax : ℕ) (buf : Bytes) (pos : ℕ) : Prop :=
  ((tryReadMessage lib ulongMax buf pos).1.isSome → pos < (tryReadMessage lib ulongMax buf pos).2) ∧
    (pos < (tryReadMessage lib ulongMax buf pos).2 ∨
      ∃ more ≠ [], WellFormed (buf.drop pos ++ more) ∧ pos < (tryReadMessage lib ulongMax (buf ++ more) pos).2)

/-- After the name of a header, a decimal length and the empty line, or a part of them. -/
def LengthBegun (t : Bytes) : Prop :=
  ∃ digits : Bytes, digits ≠ [] ∧ (∀ c ∈ digits, c.isDigit = true) ∧ (t <+: digits ++ crlf2 ∨ digits ++ crlf2 <+: t)

/-- After the name of a header, an empty line, and before it no length or one for which there are enough bytes. -/
def Whole (ulongMax : ℕ) (t : Bytes) : Prop :=
  ∃ crlf, indexOf crlf2 t = some crlf ∧ ∀ n, stoul ulongMax (t.take crlf) = some n → crlf + 4 + n ≤ t.length

/-- What is to be read does not begin with the name of a header, or is this name alone, or a blank follows and then a
decimal length, as far as it has been received, or a header that is read without waiting. -/
def Clear (ulongMax : ℕ) (s : Bytes) : Prop :=
  ¬kName <+: s ∨ s = kName ∨ ∃ t, s = kHeader ++ t ∧ (LengthBegun t ∨ Whole ulongMax t)

/-! ### The three ways to read -/

theorem kHeader_eq : kHeader = kName ++ [' '] := rfl

/-- The name of a header has been received. -/
theorem tryReadMessage_framed (t : Bytes) :
    tryReadMessage lib ulongMax (kHeader ++ t) 0 =
      match indexOf crlf2 t with
      | none => (none, 0)
      | some crlf =>
        match stoul ulongMax (t.take crlf) with
        | none => (some lib.null, kHeader.length + crlf + 4)
        | some n =>
          if t.length - (crlf + 4) < n then (none, 0)
          else (some ((lib.parse ((t.drop (crlf + 4)).take n)).getD lib.null), kHeader.length + crlf + 4 + n) := by
  have hpos : ¬(kHeader ++ t).length ≤ 0 := by
    rw [List.length_append, show kHeader.length = 16 from rfl]
    omega
  have hfind : find (kHeader ++ t) crlf2 kHeader.length = (indexOf crlf2 t).map (kHeader.length + ·) := by
    rw [find, List.drop_left]
  unfold tryReadMessage
  simp only [List.drop_zero, Nat.zero_add]
  rw [if_neg hpos, if_pos (List.take_left), hfind]
  cases indexOf crlf2 t with
  | none => rfl
  | some crlf =>
    have hsub : ∀ k, (kHeader ++ t).drop (kHeader.length + crlf + k) = t.drop (crlf + k) := fun k => by
      rw [Nat.add_assoc, ← List.drop_drop, List.drop_left]
    simp only [Option.map_some, List.drop_left, Nat.add_sub_cancel_left]
    cases stoul ulongMax (t.take crlf) with
    | none => rfl
    | some n =>
      simp only [hsub, List.length_append]
      rw [show kHeader.length + t.length - (kHeader.length + crlf + 4) = t.length - (crlf + 4) by omega]

theorem not_header_of_brace (t : Bytes) : ¬kHeader <+: '{' :: t := fun h => by
  have hp : 'C' :: kHeader.tail <+: '{' :: t := h
  exact absurd (List.cons_prefix_cons.mp hp).1 (by decide)

/-- A line. -/
theorem tryReadMessage_line (t : Bytes) :
    tryReadMessage lib ulongMax ('{' :: t) 0 =
      match indexOf ['\n'] ('{' :: t) with
      | none => (none, 0)
      | some nl => (some ((lib.parse (('{' :: t).take nl)).getD lib.null), nl + 1) := by
  have hhead : ('{' :: t).take kHeader.length ≠ kHeader := fun h => by
    have hp : kHeader <+: '{' :: t := by
      rw [← h]
      exact List.take_prefix _ _
    exact not_header_of_brace t hp
  have hfind : find ('{' :: t) ['\n'] 0 = indexOf ['\n'] ('{' :: t) := by
    rw [find, List.drop_zero]
    cases indexOf ['\n'] ('{' :: t) with
    | none => rfl
    | some nl => rw [Option.map_some, Nat.zero_add]
  unfold tryReadMessage
  simp only [List.drop_zero]
  rw [if_neg (show ¬('{' :: t).length ≤ 0 from Nat.not_succ_le_zero _), if_neg hhead,
    if_pos (show ('{' :: t)[0]? = some '{' from rfl), hfind]
  rfl

/-- Anything else is skipped up to a name or a brace. -/
theorem tryReadMessage_other {c : Char} {t : Bytes} (hhead : ¬kHeader <+: c :: t) (hbrace : c ≠ '{') :
    tryReadMessage lib ulongMax (c :: t) 0 =
      (none, (earlier (indexOf kName (c :: t)) (indexOf ['{'] (c :: t))).getD (c :: t).length) := by
  have htake : (c :: t).take kHeader.length ≠ kHeader := fun h => hhead (h ▸ List.take_prefix _ _)
  have hfind : ∀ pat, find (c :: t) pat 0 = indexOf pat (c :: t) := fun pat => by
    rw [find, List.drop_zero]
    cases indexOf pat (c :: t) with
    | none => rfl
    | some i => rw [Option.map_some, Nat.zero_add]
  have hfirst : (c :: t)[0]? ≠ some '{' := fun h => hbrace (Option.some.inj h)
  unfold tryReadMessage
  simp only [List.drop_zero]
  rw [if_neg (show ¬(c :: t).length ≤ 0 from Nat.not_succ_le_zero _), if_neg htake, if_neg hfirst, hfind, hfind]
  rw [show "Content-Length:".toList = kName from rfl]
  cases earlier (indexOf kName (c :: t)) (indexOf ['{'] (c :: t)) with
  | none => rfl
  | some next => rfl

/-- The name of a header without the blank: the position is never moved. -/
theorem tryReadMessage_nameless {c : Char} (h : c ≠ ' ') (t : Bytes) :
    tryReadMessage lib ulongMax (kName ++ c :: t) 0 = (none, 0) := by
  have hhead : ¬kHeader <+: kName ++ c :: t := fun hp => by
    rw [kHeader_eq, List.prefix_append_right_inj, List.cons_prefix_cons] at hp
    exact h hp.1.symm
  obtain ⟨u, hu⟩ : ∃ u, kName ++ c :: t = 'C' :: u := ⟨_, rfl⟩
  have hfound : indexOf kName ('C' :: u) = some 0 := hu ▸ indexOf_of_begins (List.prefix_append _ _)
  rw [hu] at hhead ⊢
  rw [tryReadMessage_other hhead (by decide), hfound]
  cases indexOf ['{'] ('C' :: u) with
  | none => rfl
  | some i => rw [earlier, Option.getD_some, Nat.zero_min]

/-- The reader is deaf from then on. -/
theorem readerLoop_nameless {c : Char} (h : c ≠ ' ') (t : Bytes) (chunks : List Bytes) :
    readerLoop lib ulongMax (kName ++ c :: t) chunks = [] := by
  induction chunks generalizing t with
  | nil => rfl
  | cons chunk chunks ih =>
    have hdrain : ∀ fuel, drain lib ulongMax fuel (kName ++ c :: (t ++ chunk)) 0 = ([], 0) := by
      intro fuel
      cases fuel with
      | zero => rfl
      | succ fuel =>
        rw [drain, tryReadMessage_nameless h]
        exact ite_self _
    rw [readerLoop, receive, List.append_assoc, List.cons_append, hdrain]
    simp only [List.drop_zero, List.nil_append]
    exact ih (t ++ chunk)

/-! ### Moving on -/

theorem notMem_of_digits {digits : Bytes} (hdigit : ∀ c ∈ digits, c.isDigit = true) : '\r' ∉ digits := fun h => by
  have := hdigit _ h
  revert this
  decide

/-- Where the digits end the empty line stands. -/
theorem indexOf_digits {digits : Bytes} (hdigit : ∀ c ∈ digits, c.isDigit = true) (u : Bytes) :
    indexOf crlf2 (digits ++ crlf2 ++ u) = some digits.length := by
  rw [List.append_assoc, indexOf_crlf2 (notMem_of_digits hdigit), indexOf_of_begins (List.prefix_append _ _)]
  rfl

/-- A whole message is read. -/
theorem WellFormed.moves {s : Bytes} (h : WellFormed s) : 0 < (tryReadMessage lib ulongMax s 0).2 := by
  cases h with
  | @frame digits body hne hdigit hlen =>
    have htake : (digits ++ crlf2 ++ body).take digits.length = digits := by
      rw [List.append_assoc, List.take_left]
    rw [tryReadMessage_framed, indexOf_digits hdigit]
    simp only [htake, stoul_digits hne hdigit]
    by_cases hlarge : ulongMax < Nat.ofDigitChars 10 digits 0
    · rw [if_pos hlarge]
      exact Nat.succ_pos _
    · have hall : (digits ++ crlf2 ++ body).length - (digits.length + 4) = body.length := by
        rw [List.length_append, List.length_append, show crlf2.length = 4 from rfl, Nat.add_sub_cancel_left]
      rw [if_neg hlarge]
      simp only [hall, hlen, lt_irrefl, if_false]
      exact Nat.lt_of_lt_of_le (Nat.succ_pos _) (Nat.le_add_right _ _)
  | @line text hline =>
    have hbrace : indexOf ['\n'] ('{' :: (text ++ ['\n'])) = some (('{' :: text).length + 0) := by
      have hnl : '\n' ∉ '{' :: text := fun hm => (List.mem_cons.mp hm).elim (by decide) hline
      rw [← List.cons_append, indexOf_append_of_notMem hnl, indexOf_of_begins (List.prefix_refl _)]
      rfl
    rw [tryReadMessage_line, hbrace]
    exact Nat.succ_pos _

/-- What is handed on has been passed. -/
theorem moves_of_isSome (s : Bytes) (h : (tryReadMessage lib ulongMax s 0).1.isSome = true) :
    0 < (tryReadMessage lib ulongMax s 0).2 := by
  rcases tryReadMessage_cases lib ulongMax s with ⟨n, -, e⟩ | ⟨msg, n, -, e, hn, -⟩ | ⟨nl, -, -, -, e⟩
  · rw [e] at h
    cases h
  · rw [e]
    exact hn
  · rw [e]
    exact Nat.succ_pos nl

/-- Reading from a position is reading what comes from there on. -/
theorem reads_drop {buf : Bytes} {pos : ℕ} (h : pos ≤ buf.length) :
    Reads lib ulongMax buf pos ↔ Reads lib ulongMax (buf.drop pos) 0 := by
  have hmore : ∀ more, tryReadMessage lib ulongMax (buf ++ more) pos =
      ((tryReadMessage lib ulongMax (buf.drop pos ++ more) 0).1,
        pos + (tryReadMessage lib ulongMax (buf.drop pos ++ more) 0).2) := fun more => by
    rw [tryReadMessage_drop (h.trans (by rw [List.length_append]; exact Nat.le_add_right _ _)),
      List.drop_append_of_le_length h]
  unfold Reads
  rw [tryReadMessage_drop h]
  simp only [hmore, Nat.lt_add_right_iff_pos, List.drop_zero]

/-! ### Waiting -/

/-- A name is not that of a header and the beginning of a line. -/
theorem wellFormed_kHeader {t : Bytes} (h : WellFormed (kHeader ++ t)) :
    ∃ digits body : Bytes, digits ≠ [] ∧ (∀ c ∈ digits, c.isDigit = true) ∧ t = digits ++ crlf2 ++ body := by
  generalize hs : kHeader ++ t = s at h
  cases h with
  | @frame digits body hne hdigit hlen => exact ⟨digits, body, hne, hdigit, List.append_cancel_left hs⟩
  | line => exact absurd (⟨t, hs⟩ : kHeader <+: _) (not_header_of_brace _)

/-- What is received of a well-formed message after the name. -/
theorem lengthBegun_of_wellFormed {t more : Bytes} (h : WellFormed (kHeader ++ t ++ more)) : LengthBegun t := by
  rw [List.append_assoc] at h
  obtain ⟨digits, body, hne, hdigit, e⟩ := wellFormed_kHeader h
  exact ⟨digits, hne, hdigit, List.prefix_or_prefix_of_prefix ⟨more, rfl⟩ (e ▸ List.prefix_append _ _)⟩

/-- What begins a well-formed message is completed, if something is missing. -/
theorem LengthBegun.completes {t : Bytes} (h : LengthBegun t) (hwhole : ¬Whole ulongMax t) :
    ∃ more ≠ [], WellFormed (kHeader ++ t ++ more) := by
  -- a length and the empty line, with a part of the body
  have hbody : ∀ {digits u : Bytes}, digits ≠ [] → (∀ c ∈ digits, c.isDigit = true) →
      ¬Whole ulongMax (digits ++ crlf2 ++ u) → ∃ more ≠ [], WellFormed (kHeader ++ (digits ++ crlf2 ++ u) ++ more) := by
    intro digits u hne hdigit hno
    have htake : (digits ++ crlf2 ++ u).take digits.length = digits := by rw [List.append_assoc, List.take_left]
    have hshort : u.length < Nat.ofDigitChars 10 digits 0 := by
      by_contra hge
      refine hno ⟨digits.length, indexOf_digits hdigit u, fun n hn => ?_⟩
      rw [htake, stoul_digits hne hdigit] at hn
      split at hn
      case isTrue => cases hn
      case isFalse =>
        obtain rfl := Option.some.inj hn
        rw [List.length_append, List.length_append, show crlf2.length = 4 from rfl]
        omega
    refine ⟨List.replicate (Nat.ofDigitChars 10 digits 0 - u.length) ' ', ?_, ?_⟩
    · rw [Ne, List.replicate_eq_nil_iff]
      omega
    · rw [List.append_assoc, List.append_assoc]
      refine .frame hne hdigit ?_
      rw [List.length_append, List.length_replicate]
      omega
  obtain ⟨digits, hne, hdigit, ⟨w, hw⟩ | ⟨u, rfl⟩⟩ := h
  · by_cases hnil : w = []
    · subst hnil
      rw [List.append_nil] at hw
      have hno : ¬Whole ulongMax (digits ++ crlf2 ++ []) := by rwa [List.append_nil, ← hw]
      have := hbody hne hdigit hno
      rwa [List.append_nil, ← hw] at this
    · -- the empty line is not complete
      refine ⟨w ++ List.replicate (Nat.ofDigitChars 10 digits 0) ' ', fun e => hnil (List.append_eq_nil_iff.mp e).1, ?_⟩
      rw [List.append_assoc, ← List.append_assoc t, hw]
      exact .frame hne hdigit (List.length_replicate).symm
  · exact hbody hne hdigit hwhole

/-- A header is passed when nothing is missing. -/
theorem moves_framed (t : Bytes) : 0 < (tryReadMessage lib ulongMax (kHeader ++ t) 0).2 ↔ Whole ulongMax t := by
  rw [tryReadMessage_framed, Whole]
  cases hc : indexOf crlf2 t with
  | none => exact ⟨fun h => absurd h (lt_irrefl 0), fun ⟨_, h, _⟩ => nomatch h⟩
  | some crlf =>
    have hle := le_of_indexOf hc (by decide)
    rw [show crlf2.length = 4 from rfl] at hle
    simp only [Option.some.injEq, exists_eq_left']
    cases stoul ulongMax (t.take crlf) with
    | none => exact ⟨fun _ n h => (nomatch h), fun _ => Nat.succ_pos _⟩
    | some n =>
      simp only [Option.some.injEq, forall_eq']
      split
      case isTrue hlt => exact ⟨fun h => absurd h (lt_irrefl 0), fun h => by omega⟩
      case isFalse hge => exact ⟨fun _ => by omega, fun _ => by omega⟩

/-- A call reads when it moves on, or when a well-formed message has begun. -/
theorem reads_iff_moves (s : Bytes) : Reads lib ulongMax s 0 ↔
    0 < (tryReadMessage lib ulongMax s 0).2 ∨ ∃ more ≠ [], WellFormed (s ++ more) := by
  rw [Reads, List.drop_zero]
  constructor
  · rintro ⟨-, h | ⟨more, hne, hwell, -⟩⟩
    · exact .inl h
    · exact .inr ⟨more, hne, hwell⟩
  · rintro (h | ⟨more, hne, hwell⟩)
    · exact ⟨fun _ => h, .inl h⟩
    · exact ⟨moves_of_isSome s, .inr ⟨more, hne, hwell, hwell.moves⟩⟩

/-- After the name of a header. -/
theorem reads_framed (t : Bytes) : Reads lib ulongMax (kHeader ++ t) 0 ↔ LengthBegun t ∨ Whole ulongMax t := by
  rw [reads_iff_moves, moves_framed]
  constructor
  · rintro (h | ⟨more, -, h⟩)
    · exact .inr h
    · exact .inl (lengthBegun_of_wellFormed h)
  · rintro (h | h)
    · by_cases hwhole : Whole ulongMax t
      · exact .inl hwhole
      · exact .inr (h.completes hwhole)
    · exact .inl h

/-- A line is read, or its end is missing. -/
theorem reads_line (t : Bytes) : Reads lib ulongMax ('{' :: t) 0 := by
  rw [reads_iff_moves, tryReadMessage_line]
  cases hnl : indexOf ['\n'] ('{' :: t) with
  | none =>
    refine .inr ⟨['\n'], List.cons_ne_nil _ _, .line fun hm => ?_⟩
    obtain ⟨a, b, rfl⟩ := List.append_of_mem hm
    exact not_infix_of_indexOf hnl ⟨'{' :: a, b, by rw [List.append_assoc]; rfl⟩
  | some nl => exact .inl (Nat.succ_pos nl)

/-- What is skipped is something, unless the name of a header stands first. -/
theorem moves_other {c : Char} {t : Bytes} (hname : ¬kName <+: c :: t) (hbrace : c ≠ '{') :
    0 < (tryReadMessage lib ulongMax (c :: t) 0).2 := by
  have hhead : ¬kHeader <+: c :: t := fun h => hname ((List.prefix_append kName [' ']).trans h)
  have hbrace' : ¬['{'] <+: c :: t := fun h => hbrace (List.cons_prefix_cons.mp h).1.symm
  rw [tryReadMessage_other hhead hbrace, indexOf_cons_of_not hname, indexOf_cons_of_not hbrace']
  cases indexOf kName t with
  | none =>
    cases indexOf ['{'] t with
    | none => exact Nat.succ_pos _
    | some j => exact Nat.succ_pos j
  | some i =>
    cases indexOf ['{'] t with
    | none => exact Nat.succ_pos i
    | some j => exact Nat.lt_min.mpr ⟨Nat.succ_pos i, Nat.succ_pos j⟩

/-- With anything but a blank after it, the name is not that of a header. -/
theorem not_reads_nameless {c : Char} (h : c ≠ ' ') (t : Bytes) : ¬Reads lib ulongMax (kName ++ c :: t) 0 := by
  rw [reads_iff_moves, tryReadMessage_nameless h]
  rintro (h' | ⟨more, -, hwell⟩)
  · exact absurd h' (lt_irrefl 0)
  · have hmoves : 0 < (tryReadMessage sampleLibrary 0 (kName ++ c :: (t ++ more)) 0).2 := by
      rw [List.append_assoc] at hwell
      exact hwell.moves
    rw [tryReadMessage_nameless h] at hmoves
    exact absurd hmoves (lt_irrefl 0)

theorem reads_name : Reads lib ulongMax kName 0 := by
  have hdigit : ∀ c ∈ ['0'], c.isDigit = true := fun c hc => by rw [List.mem_singleton.mp hc]; rfl
  have hzero : WellFormed (kHeader ++ (['0'] ++ crlf2 ++ [])) := .frame (List.cons_ne_nil _ _) hdigit rfl
  exact (reads_iff_moves kName).mpr (.inr ⟨' ' :: (['0'] ++ crlf2 ++ []), List.cons_ne_nil _ _, hzero⟩)

/-- At any position before the end the reader moves on, or waits for the rest of a well-formed message, just when what it
is to read is not the name of a header without the blank, nor a header that has no decimal length and waits for a body. -/
theorem reads_iff_clear {buf : Bytes} {pos : ℕ} (h : pos < buf.length) :
    Reads lib ulongMax buf pos ↔ Clear ulongMax (buf.drop pos) := by
  rw [reads_drop (Nat.le_of_lt h)]
  have hne : buf.drop pos ≠ [] := fun e => by
    have := congrArg List.length e
    rw [List.length_drop, List.length_nil] at this
    omega
  generalize buf.drop pos = s at hne
  by_cases hname : kName <+: s
  · obtain ⟨t, rfl⟩ := hname
    have hclear : Clear ulongMax (kName ++ t) ↔
        t = [] ∨ ∃ u, t = ' ' :: u ∧ (LengthBegun u ∨ Whole ulongMax u) := by
      rw [Clear, or_iff_right (not_not.mpr (List.prefix_append _ _)), List.append_right_eq_self]
      simp only [kHeader_eq, List.append_assoc, List.append_cancel_left_eq, List.singleton_append]
    rw [hclear]
    cases t with
    | nil => exact iff_of_true (by rw [List.append_nil]; exact reads_name) (.inl rfl)
    | cons c u =>
      by_cases hc : c = ' '
      · subst hc
        have hs : kName ++ ' ' :: u = kHeader ++ u := by rw [kHeader_eq, List.append_assoc]; rfl
        rw [hs, reads_framed]
        constructor
        · exact fun h => .inr ⟨u, rfl, h⟩
        · rintro (h | ⟨v, e, h⟩)
          · cases h
          · rwa [(List.cons.inj e).2]
      · refine iff_of_false (not_reads_nameless hc u) ?_
        rintro (h | ⟨v, e, -⟩)
        · cases h
        · exact hc (List.cons.inj e).1
  · refine iff_of_true ?_ (.inl hname)
    obtain ⟨c, t, rfl⟩ := List.exists_cons_of_ne_nil hne
    by_cases hbrace : c = '{'
    · subst hbrace
      exact reads_line t
    · exact (reads_iff_moves _).mpr (.inl (moves_other hname hbrace))

/-- Text before a header: the position is moved. -/
theorem reads_text : 0 < "x Content-Length: 2".toList.length ∧
    Reads sampleLibrary (2 ^ 64 - 1) "x Content-Length: 2".toList 0 :=
  ⟨by decide, (reads_iff_clear (by decide)).mpr (.inl (by decide))⟩

/-- A header without the blank, and its body: nothing is read, whatever comes after. -/
theorem header_without_blank : ∃ buf : Bytes, 0 < buf.length ∧ ¬Reads sampleLibrary (2 ^ 64 - 1) buf 0 ∧
    ∀ more, tryReadMessage sampleLibrary (2 ^ 64 - 1) (buf ++ more) 0 = (none, 0) := by
  have hdigit : '2' ≠ ' ' := by decide
  refine ⟨"Content-Length:2\r\n\r\n\x7b\x7d".toList, by decide, not_reads_nameless hdigit _, fun more => ?_⟩
  exact tryReadMessage_nameless hdigit ("\r\n\r\n\x7b\x7d".toList ++ more)

end OwlTap.Mcp
