import OwlTap.Base.Find

/-!
# JSON-RPC framing

`frameMessage` puts a length before a message's text, and `tryReadMessage` takes the first
message from a buffer of received bytes. The readers (`tcpReaderLoop`, the reader threads of
`StdioTransport` and `GuiDaemonClient`) append what they receive to a buffer, take the complete
messages from it and drop what has been read. The JSON library is a parameter.
-/

namespace OwlTap.Mcp

open OwlTap

/-- The bytes of a string. -/
abbrev Bytes := List Char

/-- What is used of the JSON library. -/
structure JsonLibrary (J : Type) where
  /-- The text of a value. -/
  dump : J → Bytes
  /-- The value of a text; `none` when an exception is thrown. -/
  parse : Bytes → Option J
  /-- The null value. -/
  null : J
  /-- Whether a value is null. -/
  isNull : J → Bool
  /-- The null value is. -/
  isNull_null : isNull null = true

/-! ### Standard library functions -/

/-- `buf.find(pat, pos)`. -/
def find (buf pat : Bytes) (pos : ℕ) : Option ℕ := (indexOf pat (buf.drop pos)).map (pos + ·)

/-- `std::isspace`. -/
def isSpace (c : Char) : Bool := c = ' ' ∨ c = '\t' ∨ c = '\n' ∨ c = '\x0b' ∨ c = '\x0c' ∨ c = '\r'

/-- `std::stoul`, for an `unsigned long` of at most `ulongMax`; `none` when an exception is thrown. -/
def stoul (ulongMax : ℕ) (s : Bytes) : Option ℕ :=
  let s := s.dropWhile isSpace
  let negative := s.head? = some '-'
  let digits := (if s.head? = some '-' ∨ s.head? = some '+' then s.tail else s).takeWhile Char.isDigit
  let value := Nat.ofDigitChars 10 digits 0
  if digits = [] ∨ ulongMax < value then none
  else if negative then some ((ulongMax + 1 - value) % (ulongMax + 1)) else some value

/-! ### Framing -/

/-- What a frame begins with. -/
def kHeader : Bytes := "Content-Length: ".toList

/-- What ends its header. -/
def crlf2 : Bytes := ['\r', '\n', '\r', '\n']

/-- Frame a JSON message for the Content-Length transport. -/
def frameMessage {J : Type} (lib : JsonLibrary J) (msg : J) : Bytes :=
  kHeader ++ Nat.toDigits 10 (lib.dump msg).length ++ crlf2 ++ lib.dump msg

/-- `std::min` of two positions, of which each may be missing. -/
def earlier : Option ℕ → Option ℕ → Option ℕ
  | none, b => b
  | a, none => a
  | some a, some b => some (min a b)

/-- Try to read one complete JSON-RPC message from `buf`, starting at `pos`: the message, if there is one, and the
new position. A null value if a message was framed but could not be parsed. -/
def tryReadMessage {J : Type} (lib : JsonLibrary J) (ulongMax : ℕ) (buf : Bytes) (pos : ℕ) : Option J × ℕ :=
  if buf.length ≤ pos then (none, pos)
  else if (buf.drop pos).take kHeader.length = kHeader then
    let valStart := pos + kHeader.length
    match find buf crlf2 valStart with
    | none => (none, pos)
    | some crlf =>
      match stoul ulongMax ((buf.drop valStart).take (crlf - valStart)) with
      | none => (some lib.null, crlf + 4)
      | some bodyLen =>
        let bodyStart := crlf + 4
        if buf.length - bodyStart < bodyLen then (none, pos)
        else (some ((lib.parse ((buf.drop bodyStart).take bodyLen)).getD lib.null), bodyStart + bodyLen)
  else if buf[pos]? = some '{' then
    -- newline-delimited fallback
    match find buf ['\n'] pos with
    | none => (none, pos)
    | some nl => (some ((lib.parse ((buf.drop pos).take (nl - pos))).getD lib.null), nl + 1)
  else
    -- skip unrecognised bytes
    match earlier (find buf "Content-Length:".toList pos) (find buf ['{'] pos) with
    | none => (none, buf.length)
    | some next => (none, next)

/-! ### The readers -/

variable {J : Type} (lib : JsonLibrary J) (ulongMax : ℕ)

/-- The loop over the messages in the buffer: those that are handed on, and the position. A pass that goes on
moves the position, so as many passes as there are bytes are enough. -/
def drain : (fuel : ℕ) → (buf : Bytes) → (pos : ℕ) → List J × ℕ
  | 0, _, pos => ([], pos)
  | fuel + 1, buf, pos =>
    if buf.length ≤ pos then ([], pos)
    else
      match tryReadMessage lib ulongMax buf pos with
      | (none, pos) => ([], pos)
      | (some msg, pos) =>
        let (msgs, pos) := drain fuel buf pos
        (if lib.isNull msg then msgs else msg :: msgs, pos)

/-- A chunk is received: the messages handed on, and what is left in the buffer. -/
def receive (buf chunk : Bytes) : List J × Bytes :=
  let buf := buf ++ chunk
  let (msgs, pos) := drain lib ulongMax buf.length buf 0
  (msgs, buf.drop pos)

/-- The messages that a reader hands on, while it receives these chunks. -/
def readerLoop : (buf : Bytes) → (chunks : List Bytes) → List J
  | _, [] => []
  | buf, chunk :: chunks =>
    let (msgs, buf) := receive lib ulongMax buf chunk
    msgs ++ readerLoop buf chunks

/-! ### Reading from a position -/

theorem find_add (buf pat : Bytes) (pos k : ℕ) : find buf pat (pos + k) = (find (buf.drop pos) pat k).map (pos + ·) := by
  rw [find, find, List.drop_drop, Option.map_map]
  congr 1
  funext i
  exact Nat.add_assoc pos k i

theorem earlier_map_add (pos : ℕ) (a b : Option ℕ) :
    earlier (a.map (pos + ·)) (b.map (pos + ·)) = (earlier a b).map (pos + ·) := by
  cases a with
  | none => rfl
  | some a =>
    cases b with
    | none => rfl
    | some b => exact congrArg some (Nat.add_min_add_left pos a b)

variable {lib ulongMax}

/-- Reading from a position is reading what comes from there on. -/
theorem tryReadMessage_drop {buf : Bytes} {pos : ℕ} (h : pos ≤ buf.length) :
    tryReadMessage lib ulongMax buf pos =
      ((tryReadMessage lib ulongMax (buf.drop pos) 0).1, pos + (tryReadMessage lib ulongMax (buf.drop pos) 0).2) := by
  have hfind : ∀ pat k, find buf pat (pos + k) = (find (buf.drop pos) pat k).map (pos + ·) := fun pat k =>
    find_add buf pat pos k
  have hlen : (buf.drop pos).length = buf.length - pos := List.length_drop
  have hhead : buf[pos]? = (buf.drop pos)[0]? := by rw [List.getElem?_drop, Nat.add_zero]
  have hsub : ∀ k, (buf.drop pos).drop k = buf.drop (pos + k) := fun k => List.drop_drop
  unfold tryReadMessage
  simp only [List.drop_zero, Nat.zero_add, hlen]
  by_cases hend : buf.length ≤ pos
  · rw [if_pos hend, if_pos (show buf.length - pos ≤ 0 by omega)]
    simp only [Nat.add_zero]
  rw [if_neg hend, if_neg (show ¬buf.length - pos ≤ 0 by omega)]
  by_cases hcl : (buf.drop pos).take kHeader.length = kHeader
  · rw [if_pos hcl, if_pos hcl, hfind crlf2 kHeader.length]
    cases hc : find (buf.drop pos) crlf2 kHeader.length with
    | none => simp only [Option.map_none, Nat.add_zero]
    | some crlf =>
      have hstr : (buf.drop (pos + kHeader.length)).take (pos + crlf - (pos + kHeader.length)) =
          ((buf.drop pos).drop kHeader.length).take (crlf - kHeader.length) := by
        rw [hsub, Nat.add_sub_add_left]
      simp only [Option.map_some, hstr]
      cases stoul ulongMax (((buf.drop pos).drop kHeader.length).take (crlf - kHeader.length)) with
      | none => simp only [Nat.add_assoc]
      | some bodyLen =>
        simp only [Nat.add_assoc, hsub, Nat.sub_add_eq]
        split
        · simp only [Nat.add_zero]
        · rfl
  · rw [if_neg hcl, if_neg hcl, hhead]
    by_cases hbrace : (buf.drop pos)[0]? = some '{'
    · rw [if_pos hbrace, if_pos hbrace]
      have := hfind ['\n'] 0
      rw [Nat.add_zero] at this
      rw [this]
      cases find (buf.drop pos) ['\n'] 0 with
      | none => simp only [Option.map_none, Nat.add_zero]
      | some nl => simp only [Option.map_some, Nat.add_sub_cancel_left, Nat.sub_zero, Nat.add_assoc]
    · rw [if_neg hbrace, if_neg hbrace]
      have h₁ := hfind "Content-Length:".toList 0
      have h₂ := hfind ['{'] 0
      rw [Nat.add_zero] at h₁ h₂
      rw [h₁, h₂, earlier_map_add]
      cases earlier (find (buf.drop pos) "Content-Length:".toList 0) (find (buf.drop pos) ['{'] 0) with
      | none => simp only [Option.map_none, Nat.add_sub_cancel' h]
      | some next => rfl

/-- Where something is found it lies inside the buffer. -/
theorem le_of_find {buf pat : Bytes} {pos i : ℕ} (h : find buf pat pos = some i) (hne : pat ≠ []) :
    pos ≤ i ∧ pat <+: buf.drop i ∧ i + pat.length ≤ buf.length := by
  obtain ⟨j, hj, rfl⟩ := Option.map_eq_some_iff.mp h
  have hprefix := prefix_of_indexOf hj
  have hlen := le_of_indexOf hj hne
  have hpos := List.length_pos_iff.mpr hne
  rw [List.length_drop] at hlen
  rw [List.drop_drop] at hprefix
  exact ⟨Nat.le_add_right pos j, hprefix, by omega⟩

/-- What a call can do: wait or skip; take a framed message, whose header ends in two newlines; or take a line. -/
theorem tryReadMessage_cases (lib : JsonLibrary J) (ulongMax : ℕ) (s : Bytes) :
    (∃ n ≤ s.length, tryReadMessage lib ulongMax s 0 = (none, n)) ∨
    (∃ msg, ∃ n ≤ s.length, tryReadMessage lib ulongMax s 0 = (some msg, n) ∧ 0 < n ∧ kHeader <+: s ∧
      2 ≤ (s.take n).count '\n') ∨
    (∃ nl, indexOf ['\n'] s = some nl ∧ s[0]? = some '{' ∧ nl + 1 ≤ s.length ∧
      tryReadMessage lib ulongMax s 0 = (some ((lib.parse (s.take nl)).getD lib.null), nl + 1)) := by
  unfold tryReadMessage
  simp only [List.drop_zero, Nat.zero_add, Nat.sub_zero]
  by_cases hend : s.length ≤ 0
  · rw [if_pos hend]
    exact .inl ⟨0, Nat.zero_le _, rfl⟩
  rw [if_neg hend]
  by_cases hcl : s.take kHeader.length = kHeader
  · rw [if_pos hcl]
    cases hc : find s crlf2 kHeader.length with
    | none => exact .inl ⟨0, Nat.zero_le _, rfl⟩
    | some crlf =>
      obtain ⟨-, hprefix, hle⟩ := le_of_find hc (by decide)
      have hheader : kHeader <+: s := hcl ▸ List.take_prefix _ _
      -- the header's end, and so its newlines, come before whatever is taken next
      have hcount : ∀ n, crlf + 4 ≤ n → 2 ≤ (s.take n).count '\n' := by
        intro n hn
        obtain ⟨t, ht⟩ := hprefix
        have htake : s.take n = s.take crlf ++ (crlf2 ++ t.take (n - crlf - 4)) := by
          conv => lhs; rw [← List.take_append_drop crlf s, ← ht]
          have hlen : (s.take crlf).length = crlf := List.length_take_of_le (by omega)
          rw [List.take_append, hlen, List.take_of_length_le (by omega), List.take_append,
            List.take_of_length_le (show crlf2.length ≤ n - crlf by rw [show crlf2.length = 4 from rfl]; omega)]
          rfl
        rw [htake, List.count_append, List.count_append]
        have : crlf2.count '\n' = 2 := by decide
        omega
      have hfour : crlf2.length = 4 := rfl
      simp only
      cases stoul ulongMax ((s.drop kHeader.length).take (crlf - kHeader.length)) with
      | none => exact .inr (.inl ⟨_, crlf + 4, by omega, rfl, by omega, hheader, hcount _ (Nat.le_refl _)⟩)
      | some bodyLen =>
        simp only
        split
        case isTrue => exact .inl ⟨0, Nat.zero_le _, rfl⟩
        case isFalse hfits =>
          exact .inr (.inl ⟨_, _, by omega, rfl, by omega, hheader, hcount _ (Nat.le_add_right _ _)⟩)
  · rw [if_neg hcl]
    by_cases hbrace : s[0]? = some '{'
    · rw [if_pos hbrace]
      cases hn : find s ['\n'] 0 with
      | none => exact .inl ⟨0, Nat.zero_le _, rfl⟩
      | some nl =>
        obtain ⟨-, -, hle⟩ := le_of_find hn (by decide)
        obtain ⟨j, hj, rfl⟩ := Option.map_eq_some_iff.mp hn
        exact .inr (.inr ⟨0 + j, by rw [Nat.zero_add]; exact hj, hbrace, hle, rfl⟩)
    · rw [if_neg hbrace]
      have hle : ∀ next, earlier (find s "Content-Length:".toList 0) (find s ['{'] 0) = some next → next ≤ s.length := by
        intro next hnext
        have h₁ : ∀ i, find s "Content-Length:".toList 0 = some i → i ≤ s.length := fun i hi =>
          Nat.le_trans (Nat.le_add_right _ _) (le_of_find hi (by decide)).2.2
        have h₂ : ∀ i, find s ['{'] 0 = some i → i ≤ s.length := fun i hi =>
          Nat.le_trans (Nat.le_add_right _ _) (le_of_find hi (by decide)).2.2
        cases hcl' : find s "Content-Length:".toList 0 with
        | none =>
          rw [hcl'] at hnext
          exact h₂ next hnext
        | some a =>
          cases hbr : find s ['{'] 0 with
          | none =>
            rw [hcl', hbr] at hnext
            exact Option.some.inj hnext ▸ h₁ a hcl'
          | some b =>
            rw [hcl', hbr] at hnext
            exact Option.some.inj hnext ▸ Nat.le_trans (Nat.min_le_left a b) (h₁ a hcl')
      cases hnext : earlier (find s "Content-Length:".toList 0) (find s ['{'] 0) with
      | none => exact .inl ⟨s.length, Nat.le_refl _, rfl⟩
      | some next => exact .inl ⟨next, hle next hnext, rfl⟩

theorem tryReadMessage_le (lib : JsonLibrary J) (ulongMax : ℕ) (s : Bytes) :
    (tryReadMessage lib ulongMax s 0).2 ≤ s.length := by
  rcases tryReadMessage_cases lib ulongMax s with ⟨n, hn, e⟩ | ⟨msg, n, hn, e, -⟩ | ⟨nl, -, -, hn, e⟩
  · rw [e]; exact hn
  · rw [e]; exact hn
  · rw [e]; exact hn

/-- The loop over the messages from a position is that over those that come from there on. -/
theorem drain_drop (fuel : ℕ) (buf : Bytes) {pos : ℕ} (h : pos ≤ buf.length) :
    drain lib ulongMax fuel buf pos =
      ((drain lib ulongMax fuel (buf.drop pos) 0).1, pos + (drain lib ulongMax fuel (buf.drop pos) 0).2) := by
  induction fuel generalizing buf pos with
  | zero => rfl
  | succ fuel ih =>
    have hlen : (buf.drop pos).length = buf.length - pos := List.length_drop
    rw [drain, drain]
    by_cases hend : buf.length ≤ pos
    · rw [if_pos hend, if_pos (by omega)]
      rfl
    rw [if_neg hend, if_neg (by omega), tryReadMessage_drop h]
    obtain ⟨⟨r, n⟩, hr⟩ : ∃ r, tryReadMessage lib ulongMax (buf.drop pos) 0 = r := ⟨_, rfl⟩
    rw [hr]
    have hn : n ≤ (buf.drop pos).length := by
      have := tryReadMessage_le lib ulongMax (buf.drop pos)
      rwa [hr] at this
    cases r with
    | none => rfl
    | some msg =>
      simp only
      rw [ih buf (show pos + n ≤ buf.length by omega), ih (buf.drop pos) hn, List.drop_drop]
      simp only [Nat.add_assoc]

end OwlTap.Mcp
