import OwlTap.Base.Find
import OwlTap.Bsdl.Parser
import Mathlib.Data.List.Infix
import Mathlib.Data.List.TakeWhile
import Mathlib.Tactic.IntervalCases

/-!
# Settings as text

The settings are written as JSON and read by searches for keys, brackets and quotes in the text. A text is
made of pieces, some of them quoted strings (`Piece`). The search for a quoted key stops behind the first
string that spells it: the key itself, or a text that ends with a quote and the key (`behind_piece`). So a value is read behind
its key, if behind no earlier string that spells the key the delimiter stands before it (`behind_key`).
-/

namespace OwlTap.Gui

open OwlTap Bsdl

/-! ### Searches -/

/-- What is behind the first place of a string. -/
def behind (pat s : Text) : Option Text := (indexOf pat s).map fun i => s.drop (i + pat.length)

theorem behind_append (pat s : Text) : behind pat (pat ++ s) = some s := by
  rw [behind, indexOf_of_begins (List.prefix_append pat s), Option.map_some, Nat.zero_add, List.drop_left]

theorem behind_cons_of_not {pat s : Text} {c : Char} (h : ¬pat <+: c :: s) : behind pat (c :: s) = behind pat s := by
  rw [behind, indexOf_cons_of_not h, Option.map_map, behind]
  refine congrArg (fun f => Option.map f (indexOf pat s)) (funext fun i => ?_)
  rw [Function.comp_apply, Nat.add_right_comm, List.drop_succ_cons]

theorem behind_append_of_notMem {p : Char} {pat a : Text} (h : p ∉ a) (b : Text) :
    behind (p :: pat) (a ++ b) = behind (p :: pat) b := by
  induction a with
  | nil => rfl
  | cons c a ih =>
    rw [List.mem_cons, not_or] at h
    have hno : ¬p :: pat <+: c :: (a ++ b) := fun hp => h.1 (List.cons_prefix_cons.mp hp).1
    rw [List.cons_append, behind_cons_of_not hno, ih h.2]

/-- The search for one character. -/
theorem behind_char {d : Char} {a : Text} (h : d ∉ a) (b : Text) : behind [d] (a ++ d :: b) = some b := by
  rw [behind_append_of_notMem h]
  exact behind_append [d] b

theorem behind_head (d : Char) (b : Text) : behind [d] (d :: b) = some b := behind_append [d] b

/-! ### Strings -/

/-- A character in a string that is written. -/
def escapeChar (c : Char) : Text :=
  if c = '"' then ['\\', '"'] else if c = '\\' then ['\\', '\\']
  else if c = '\n' then ['\\', 'n'] else if c = '\r' then ['\\', 'r'] else [c]

def jsonEscape (s : Text) : Text := s.flatMap escapeChar

/-- The character behind a backslash. -/
def unescape (e : Char) : Char := if e = 'n' then '\n' else if e = 'r' then '\r' else e

/-- A string up to its closing quote, and what is behind it. -/
def readString : Text → Text × Text
  | [] => ([], [])
  | [c] => if c = '"' then ([], []) else ([c], [])
  | c :: e :: rest =>
    if c = '"' then ([], e :: rest)
    else if c = '\\' then (unescape e :: (readString rest).1, (readString rest).2)
    else (c :: (readString (e :: rest)).1, (readString (e :: rest)).2)

/-- A string in quotes. -/
def quoted (s : Text) : Text := '"' :: (s ++ ['"'])

/-! ### Values -/

/-- The value of a digit in a base up to 36. -/
def digitValue (c : Char) : ℕ :=
  if c.isDigit then c.toNat - '0'.toNat
  else if 'a' ≤ c ∧ c ≤ 'z' then c.toNat - 'a'.toNat + 10
  else if 'A' ≤ c ∧ c ≤ 'Z' then c.toNat - 'A'.toNat + 10
  else 36

/-- The base of a number from its first characters, and its digits with what is behind them. -/
def numberBase : Text → ℕ × Text
  | '0' :: x :: c :: rest => if (x = 'x' ∨ x = 'X') ∧ digitValue c < 16 then (16, c :: rest) else (8, '0' :: x :: c :: rest)
  | '0' :: rest => (8, '0' :: rest)
  | s => (10, s)

/-- `std::stoll` with base 0. -/
def stoll (num : Text) : Option ℤ :=
  let s := num.dropWhile BSDLParser.isSpace
  let negative := s.head? = some '-'
  let based := numberBase (if negative ∨ s.head? = some '+' then s.tail else s)
  let ds := based.2.takeWhile fun c => digitValue c < based.1
  let n : ℤ := ds.foldl (fun n c => based.1 * n + digitValue c) 0
  let n := if negative then -n else n
  if ds ≠ [] ∧ -2 ^ 63 ≤ n ∧ n < 2 ^ 63 then some n else none

/-- A character of a number. -/
def isNumberChar (c : Char) : Bool :=
  c.isDigit || c = 'x' || c = 'X' || ('a' ≤ c && c ≤ 'f') || ('A' ≤ c && c ≤ 'F') || c = '-'

/-- The string value of a key, or nothing. -/
def jsonString (json key : Text) : Text :=
  match ((behind (quoted key) json).bind (behind [':'])).bind (behind ['"']) with
  | none => []
  | some rest => (readString rest).1

/-- The number behind a colon. -/
def readInt (dflt : ℤ) (rest : Text) : ℤ :=
  match rest.dropWhile fun c => c = ':' ∨ c = ' ' ∨ c = '\t' with
  | [] => dflt
  | c :: rest =>
    if c = '"' then
      if '"' ∈ rest then (stoll (rest.takeWhile (· ≠ '"'))).getD dflt else dflt
    else
      let num := (c :: rest).takeWhile isNumberChar
      if num = [] then dflt else (stoll num).getD dflt

/-- The number of a key, or a default. -/
def jsonInt (json key : Text) (dflt : ℤ) : ℤ :=
  match (behind (quoted key) json).bind (behind [':']) with
  | none => dflt
  | some rest => readInt dflt rest

/-- The strings up to a closing bracket; outside of them anything else is skipped. -/
def readStrings : (fuel : ℕ) → Text → List Text
  | 0, _ => []
  | _ + 1, [] => []
  | fuel + 1, c :: rest =>
    if c = ']' then []
    else if c = '"' then (readString rest).1 :: readStrings fuel (readString rest).2
    else readStrings fuel rest

/-- The strings of a key. -/
def jsonStringArray (json key : Text) : List Text :=
  match (behind (quoted key) json).bind (behind ['[']) with
  | none => []
  | some rest => readStrings rest.length rest

/-- The objects up to a closing bracket, each up to the next closing brace; outside of them anything else is skipped. -/
def readObjects : (opened : Option Text) → Text → List Text
  | _, [] => []
  | none, c :: rest =>
    if c = ']' then [] else if c = '{' then readObjects (some ['{']) rest else readObjects none rest
  | some obj, c :: rest =>
    if c = '}' then (obj ++ ['}']) :: readObjects none rest else readObjects (some (obj ++ [c])) rest

/-- The objects of a key. -/
def jsonObjects (json key : Text) : List Text :=
  match (behind (quoted key) json).bind (behind ['[']) with
  | none => []
  | some rest => readObjects none rest

/-- A number as it is written. -/
def decimal (n : ℤ) : Text := if n < 0 then '-' :: Nat.toDigits 10 n.natAbs else Nat.toDigits 10 n.natAbs

/-! ### Strings read again -/

theorem readString_quote (rest : Text) : readString ('"' :: rest) = ([], rest) := by
  cases rest <;> rfl

theorem readString_cons {c : Char} (hq : c ≠ '"') (hb : c ≠ '\\') (rest : Text) :
    readString (c :: rest) = (c :: (readString rest).1, (readString rest).2) := by
  cases rest with
  | nil => exact if_neg hq
  | cons e rest => rw [readString, if_neg hq, if_neg hb]

theorem escapeChar_plain {c : Char} (hq : c ≠ '"') (hb : c ≠ '\\') (hn : c ≠ '\n') (hr : c ≠ '\r') : escapeChar c = [c] := by
  rw [escapeChar, if_neg hq, if_neg hb, if_neg hn, if_neg hr]

theorem jsonEscape_cons (c : Char) (s : Text) : jsonEscape (c :: s) = escapeChar c ++ jsonEscape s := List.flatMap_cons

/-- A character is read as it was written. -/
theorem readString_escapeChar (c : Char) (rest : Text) :
    readString (escapeChar c ++ rest) = (c :: (readString rest).1, (readString rest).2) := by
  by_cases hq : c = '"'
  · subst hq
    rfl
  by_cases hb : c = '\\'
  · subst hb
    rfl
  by_cases hn : c = '\n'
  · subst hn
    rfl
  by_cases hr : c = '\r'
  · subst hr
    rfl
  rw [escapeChar_plain hq hb hn hr, List.singleton_append, readString_cons hq hb]

/-- A string is read as it was written. -/
theorem readString_escape (s rest : Text) : readString (jsonEscape s ++ '"' :: rest) = (s, rest) := by
  induction s with
  | nil => exact readString_quote rest
  | cons c s ih => rw [jsonEscape_cons, List.append_assoc, readString_escapeChar, ih]

/-! ### Pieces -/

/-- A piece of a text: what has no quote, or a quoted string with what is behind it. -/
inductive Piece where
  | raw (t : Text)
  | str (s sep : Text)

namespace Piece

def text : Piece → Text
  | raw t => t
  | str s sep => '"' :: (jsonEscape s ++ '"' :: sep)

end Piece

/-- The text of pieces. -/
def render (ps : List Piece) : Text := ps.flatMap Piece.text

theorem render_cons (p : Piece) (ps : List Piece) : render (p :: ps) = p.text ++ render ps := List.flatMap_cons

theorem render_append (ps qs : List Piece) : render (ps ++ qs) = render ps ++ render qs := List.flatMap_append

/-- A character of a key. -/
def isKeyChar (c : Char) : Bool := c.isAlpha || c = '_'

/-- A key. -/
def KeyWord (k : Text) : Prop := k ≠ [] ∧ ∀ c ∈ k, isKeyChar c = true

/-- A string is read as a quoted key: it is the key, or it ends with a quote and the key. -/
def Spells (k s : Text) : Prop := s = k ∨ '"' :: k <:+ s

instance (k s : Text) : Decidable (Spells k s) := inferInstanceAs (Decidable (_ ∨ _))

/-- There is no quote around a piece but those of its string, and no key goes on behind it. -/
def Piece.Plain : Piece → Prop
  | .raw t => '"' ∉ t
  | .str _ sep => '"' ∉ sep ∧ ∃ c, sep.head? = some c ∧ isKeyChar c = false

/-- The string of a piece spells a key. -/
def Piece.Spells (k : Text) : Piece → Prop
  | .raw _ => False
  | .str s _ => Gui.Spells k s

/-- No string before a key spells it, unless its delimiter stands nowhere behind that. -/
def ClearOf (k : Text) (d : Char) : List Piece → Prop
  | [] => True
  | .raw _ :: ps => ClearOf k d ps
  | .str s sep :: ps => (Spells k s → d ∉ sep ++ render ps) ∧ ClearOf k d ps

instance decidableClearOf (k : Text) (d : Char) : (ps : List Piece) → Decidable (ClearOf k d ps)
  | [] => isTrue trivial
  | .raw _ :: ps => decidableClearOf k d ps
  | .str s sep :: ps =>
    have := decidableClearOf k d ps
    inferInstanceAs (Decidable ((Spells k s → d ∉ sep ++ render ps) ∧ ClearOf k d ps))

variable {k : Text}

theorem KeyWord.not_quote (hk : KeyWord k) : '"' ∉ k := fun h => absurd (hk.2 _ h) (by decide)

theorem KeyWord.not_escaped (hk : KeyWord k) : '\\' ∉ k ∧ '\n' ∉ k ∧ '\r' ∉ k :=
  ⟨fun h => absurd (hk.2 _ h) (by decide), fun h => absurd (hk.2 _ h) (by decide), fun h => absurd (hk.2 _ h) (by decide)⟩

/-- From an opening quote on, a key is found in what is left of a string if that is the key. -/
theorem key_begins_iff (hk : KeyWord k) (s rest : Text) :
    k ++ ['"'] <+: jsonEscape s ++ '"' :: rest ↔ s = k := by
  obtain ⟨hb, hn, hr⟩ := hk.not_escaped
  have hq := hk.not_quote
  clear hk
  induction s generalizing k with
  | nil =>
    cases k with
    | nil => exact iff_of_true (List.prefix_append ['"'] rest) rfl
    | cons x k =>
      refine iff_of_false (fun h => ?_) (List.cons_ne_nil x k).symm
      exact hq ((List.cons_prefix_cons.mp h).1 ▸ List.mem_cons_self)
  | cons c s ih =>
    have hspecial : ∀ {e : Char} {t : Text}, '\\' ∉ k → c ∉ k → escapeChar c = '\\' :: e :: t →
        (k ++ ['"'] <+: jsonEscape (c :: s) ++ '"' :: rest ↔ c :: s = k) := by
      intro e t hb hc he
      refine iff_of_false (fun h => ?_) (fun h => hc (h ▸ List.mem_cons_self))
      rw [jsonEscape_cons, he, List.cons_append, List.cons_append] at h
      cases k with
      | nil => exact absurd (List.cons_prefix_cons.mp h).1 (by decide)
      | cons x k => exact hb ((List.cons_prefix_cons.mp h).1 ▸ List.mem_cons_self)
    by_cases hcq : c = '"'
    · subst hcq
      exact hspecial hb hq rfl
    by_cases hcb : c = '\\'
    · subst hcb
      exact hspecial hb hb rfl
    by_cases hcn : c = '\n'
    · subst hcn
      exact hspecial hb hn rfl
    by_cases hcr : c = '\r'
    · subst hcr
      exact hspecial hb hr rfl
    rw [jsonEscape_cons, escapeChar_plain hcq hcb hcn hcr, List.singleton_append, List.cons_append]
    cases k with
    | nil =>
      refine iff_of_false (fun h => ?_) (List.cons_ne_nil c s)
      exact hcq (List.cons_prefix_cons.mp h).1.symm
    | cons x k =>
      rw [List.mem_cons, not_or] at hb hn hr hq
      have htail := ih hb.2 hn.2 hr.2 hq.2
      rw [List.cons_append, List.cons_prefix_cons, List.cons.injEq]
      exact and_congr eq_comm htail

/-- A key is written as it is. -/
theorem jsonEscape_key (hk : KeyWord k) : jsonEscape k = k := by
  obtain ⟨hb, hn, hr⟩ := hk.not_escaped
  have hq := hk.not_quote
  clear hk
  induction k with
  | nil => rfl
  | cons c k ih =>
    rw [List.mem_cons, not_or] at hb hn hr hq
    rw [jsonEscape_cons, escapeChar_plain (Ne.symm hq.1) (Ne.symm hb.1) (Ne.symm hn.1) (Ne.symm hr.1), ih hb.2 hn.2 hr.2 hq.2]
    rfl

theorem not_mem_escapeChar {c : Char} (hq : c ≠ '"') : '"' ∉ escapeChar c := by
  by_cases hb : c = '\\'
  · subst hb
    decide
  by_cases hn : c = '\n'
  · subst hn
    decide
  by_cases hr : c = '\r'
  · subst hr
    decide
  rw [escapeChar_plain hq hb hn hr, List.mem_singleton]
  exact hq.symm

/-- The search goes through a string, from behind one of its quotes on: it ends where the key is what is left. -/
theorem behind_string (hk : KeyWord k) {sep : Text} (hsep : '"' ∉ sep) (hhead : ∃ c, sep.head? = some c ∧ isKeyChar c = false)
    (s rest : Text) : behind (quoted k) (jsonEscape s ++ '"' :: (sep ++ rest)) =
      if '"' :: k <:+ s then some (sep ++ rest) else behind (quoted k) rest := by
  induction s with
  | nil =>
    have hno : ¬quoted k <+: '"' :: (sep ++ rest) := by
      intro h
      obtain ⟨x, k', rfl⟩ := List.exists_cons_of_ne_nil hk.1
      obtain ⟨c, hc, hkey⟩ := hhead
      cases sep with
      | nil => cases hc
      | cons c' sep =>
        obtain rfl := Option.some.inj hc
        have hx := (List.cons_prefix_cons.mp (List.cons_prefix_cons.mp h).2).1
        rw [← hx, hk.2 x List.mem_cons_self] at hkey
        cases hkey
    have hnot : ¬ '"' :: k <:+ ([] : Text) := fun h => List.cons_ne_nil _ _ (List.suffix_nil.mp h)
    rw [if_neg hnot, jsonEscape, List.flatMap_nil, List.nil_append, behind_cons_of_not hno, quoted,
      behind_append_of_notMem hsep]
  | cons c s ih =>
    have hsuffix : '"' :: k <:+ c :: s ↔ (c = '"' ∧ s = k) ∨ '"' :: k <:+ s := by
      rw [List.suffix_cons_iff, List.cons.injEq]
      exact or_congr_left (and_congr eq_comm eq_comm)
    rw [jsonEscape_cons, List.append_assoc]
    by_cases hq : c = '"'
    · subst hq
      -- A quote in the string: what is left may be the key.
      have hesc : escapeChar '"' = ['\\', '"'] := rfl
      have hstart : behind (quoted k) ('\\' :: '"' :: (jsonEscape s ++ '"' :: (sep ++ rest))) =
          behind (quoted k) ('"' :: (jsonEscape s ++ '"' :: (sep ++ rest))) :=
        behind_cons_of_not fun h => absurd (List.cons_prefix_cons.mp h).1 (by decide)
      rw [hesc, List.cons_append, List.cons_append, List.nil_append, hstart]
      by_cases hs : s = k
      · have htext : '"' :: (jsonEscape s ++ '"' :: (sep ++ rest)) = quoted k ++ (sep ++ rest) := by
          rw [hs, jsonEscape_key hk, quoted, List.cons_append, List.append_assoc]
          rfl
        rw [htext, behind_append, if_pos (hsuffix.mpr (Or.inl ⟨rfl, hs⟩))]
      · have hno : ¬quoted k <+: '"' :: (jsonEscape s ++ '"' :: (sep ++ rest)) := fun h =>
          hs ((key_begins_iff hk s _).mp (List.cons_prefix_cons.mp h).2)
        rw [behind_cons_of_not hno, ih]
        exact if_congr ⟨fun h => hsuffix.mpr (Or.inr h), fun h => (hsuffix.mp h).resolve_left fun hand => hs hand.2⟩ rfl rfl
    · rw [quoted, behind_append_of_notMem (not_mem_escapeChar hq), ← quoted, ih]
      exact if_congr ⟨fun h => hsuffix.mpr (Or.inr h), fun h => (hsuffix.mp h).resolve_left fun hand => hq hand.1⟩ rfl rfl

/-- The search ends in a piece whose string spells the key, and goes on behind any other. -/
theorem behind_piece (hk : KeyWord k) {p : Piece} (hp : p.Plain) (rest : Text) :
    behind (quoted k) (p.text ++ rest) =
      match p with
      | .raw _ => behind (quoted k) rest
      | .str s sep => if Spells k s then some (sep ++ rest) else behind (quoted k) rest := by
  cases p with
  | raw t => exact behind_append_of_notMem hp rest
  | str s sep =>
    obtain ⟨hsep, hhead⟩ := hp
    have hshape : (Piece.str s sep).text ++ rest = '"' :: (jsonEscape s ++ '"' :: (sep ++ rest)) := by
      rw [Piece.text, List.cons_append, List.append_assoc, List.cons_append]
    rw [hshape]
    dsimp only
    by_cases hs : s = k
    · have htext : '"' :: (jsonEscape s ++ '"' :: (sep ++ rest)) = quoted k ++ (sep ++ rest) := by
        rw [hs, jsonEscape_key hk, quoted, List.cons_append, List.append_assoc]
        rfl
      have hspells : Spells k s := Or.inl hs
      rw [htext, behind_append, if_pos hspells]
    · have hno : ¬quoted k <+: '"' :: (jsonEscape s ++ '"' :: (sep ++ rest)) := fun h =>
        hs ((key_begins_iff hk s _).mp (List.cons_prefix_cons.mp h).2)
      rw [behind_cons_of_not hno, behind_string hk hsep hhead]
      exact if_congr ⟨Or.inr, fun h => h.resolve_left hs⟩ rfl rfl

/-- A value is looked for behind its key, if the strings before are clear of it. -/
theorem behind_key (hk : KeyWord k) {d : Char} (hd : d ∉ quoted k) {ps : List Piece} (hplain : ∀ p ∈ ps, p.Plain)
    (hclear : ClearOf k d ps) (rest : Text) :
    (behind (quoted k) (render ps ++ (quoted k ++ rest))).bind (behind [d]) = behind [d] rest := by
  induction ps with
  | nil =>
    rw [render, List.flatMap_nil, List.nil_append, behind_append]
    rfl
  | cons p ps ih =>
    obtain ⟨hp, hps⟩ := List.forall_mem_cons.mp hplain
    rw [render_cons, List.append_assoc, behind_piece hk hp]
    cases p with
    | raw t => exact ih hps hclear
    | str s sep =>
      obtain ⟨hstring, hclear⟩ := hclear
      dsimp only
      by_cases hs : Spells k s
      · -- The search ends too early, and then goes on up to the same delimiter.
        have hnone := List.not_mem_append (hstring hs) hd
        rw [if_pos hs, Option.bind_some, ← List.append_assoc, ← List.append_assoc]
        exact behind_append_of_notMem hnone rest
      · rw [if_neg hs]
        exact ih hps hclear

/-! ### Values read again -/

/-- The string behind a key. -/
theorem jsonString_of_behind {json gap s rest : Text} (hgap : '"' ∉ gap)
    (h : (behind (quoted k) json).bind (behind [':']) = some (gap ++ '"' :: (jsonEscape s ++ '"' :: rest))) :
    jsonString json k = s := by
  rw [jsonString, h, Option.bind_some, behind_char hgap]
  exact congrArg Prod.fst (readString_escape s rest)

theorem readString_length (s : Text) : (readString s).2.length ≤ s.length := by
  induction s using readString.induct with
  | case1 => exact le_rfl
  | case2 => exact Nat.zero_le _
  | case3 c hq =>
    have hread : readString [c] = ([c], []) := if_neg hq
    rw [hread]
    exact Nat.zero_le _
  | case4 e rest => exact Nat.le_succ _
  | case5 e rest hq ih =>
    rw [readString, if_neg hq, if_pos rfl, List.length_cons, List.length_cons]
    exact ih.trans (by omega)
  | case6 c e rest hq hb ih =>
    rw [readString, if_neg hq, if_neg hb, List.length_cons]
    exact ih.trans (Nat.le_succ _)

/-- There is always enough fuel in the length of the text. -/
theorem readStrings_fuel {fuel : ℕ} {s : Text} (h : s.length ≤ fuel) : readStrings fuel s = readStrings s.length s := by
  induction fuel using Nat.strong_induction_on generalizing s with
  | _ fuel ih =>
    cases s with
    | nil => cases fuel <;> rfl
    | cons c rest =>
      obtain ⟨fuel, rfl⟩ : ∃ n, fuel = n + 1 := ⟨fuel - 1, by rw [List.length_cons] at h; omega⟩
      rw [List.length_cons] at h ⊢
      rw [readStrings, readStrings]
      have hrest := readString_length rest
      split
      · rfl
      split
      · rw [ih fuel (Nat.lt_succ_self _) (by omega), ih rest.length (by omega) hrest]
      · exact ih fuel (Nat.lt_succ_self _) (by omega)

/-- What is neither a quote nor a closing bracket is skipped. -/
theorem readStrings_skip {gap : Text} (hgap : '"' ∉ gap ∧ ']' ∉ gap) (rest : Text) :
    readStrings (gap ++ rest).length (gap ++ rest) = readStrings rest.length rest := by
  induction gap with
  | nil => rfl
  | cons c gap ih =>
    rw [List.mem_cons, not_or, List.mem_cons, not_or] at hgap
    rw [List.cons_append, List.length_cons, readStrings, if_neg (Ne.symm hgap.2.1), if_neg (Ne.symm hgap.1.1),
      ih ⟨hgap.1.2, hgap.2.2⟩]

theorem readStrings_string (s rest : Text) :
    readStrings ('"' :: (jsonEscape s ++ '"' :: rest)).length ('"' :: (jsonEscape s ++ '"' :: rest)) =
      s :: readStrings rest.length rest := by
  have hbracket : ¬ '"' = ']' := by decide
  have hfuel : rest.length ≤ (jsonEscape s ++ '"' :: rest).length := by
    rw [List.length_append, List.length_cons]
    omega
  rw [List.length_cons, readStrings, if_neg hbracket, if_pos rfl, readString_escape]
  exact congrArg (s :: ·) (readStrings_fuel hfuel)

theorem readStrings_end (rest : Text) : readStrings (']' :: rest).length (']' :: rest) = [] := by
  rw [List.length_cons, readStrings, if_pos rfl]

/-- What is neither a closing bracket nor an opening brace is skipped. -/
theorem readObjects_skip {gap : Text} (hgap : ']' ∉ gap ∧ '{' ∉ gap) (rest : Text) :
    readObjects none (gap ++ rest) = readObjects none rest := by
  induction gap with
  | nil => rfl
  | cons c gap ih =>
    rw [List.mem_cons, not_or, List.mem_cons, not_or] at hgap
    rw [List.cons_append, readObjects, if_neg (Ne.symm hgap.1.1), if_neg (Ne.symm hgap.2.1), ih ⟨hgap.1.2, hgap.2.2⟩]

/-- An object is read up to its brace. -/
theorem readObjects_object {body : Text} (hbody : '}' ∉ body) (rest : Text) :
    readObjects none ('{' :: (body ++ '}' :: rest)) = ('{' :: (body ++ ['}'])) :: readObjects none rest := by
  have hrun : ∀ obj : Text, readObjects (some obj) (body ++ '}' :: rest) = (obj ++ body ++ ['}']) :: readObjects none rest := by
    induction body with
    | nil =>
      intro obj
      rw [List.nil_append, readObjects, if_pos rfl, List.append_nil]
    | cons c body ih =>
      intro obj
      rw [List.mem_cons, not_or] at hbody
      rw [List.cons_append, readObjects, if_neg (Ne.symm hbody.1), ih hbody.2, List.append_assoc obj, List.singleton_append]
  have hopen : ¬ '{' = ']' := by decide
  rw [readObjects, if_neg hopen, if_pos rfl, hrun, List.singleton_append, List.cons_append]

/-! ### Numbers read again -/

theorem toDigits_head (n : ℕ) : ∃ c rest, Nat.toDigits 10 n = c :: rest ∧ (c = '0' → n = 0) := by
  induction n using Nat.strong_induction_on with
  | _ n ih =>
    rw [Nat.toDigits_eq_if (by decide)]
    split
    case isTrue hlt =>
      refine ⟨_, [], rfl, fun hc => ?_⟩
      interval_cases n <;> first | rfl | exact absurd hc (by decide)
    case isFalse hge =>
      obtain ⟨c, rest, hdigits, hzero⟩ := ih (n / 10) (by omega)
      rw [hdigits]
      refine ⟨c, _, rfl, fun hc => ?_⟩
      have := hzero hc
      omega

theorem digitValue_digit {c : Char} (h : c.isDigit = true) : digitValue c = c.toNat - '0'.toNat := if_pos h

theorem digitValue_lt {c : Char} (h : c.isDigit = true) : digitValue c < 10 := by
  obtain ⟨-, hhigh⟩ := Char.isDigit_iff_toNat.mp h
  have hzero : '0'.toNat = 48 := rfl
  have hnine : '9'.toNat = 57 := rfl
  rw [digitValue_digit h]
  omega

/-- The digits of a number are its value. -/
theorem foldl_digits {ds : Text} (h : ∀ c ∈ ds, c.isDigit = true) (start : ℕ) :
    ds.foldl (fun (n : ℤ) c => (10 : ℕ) * n + digitValue c) start = (Nat.ofDigitChars 10 ds start : ℕ) := by
  induction ds generalizing start with
  | nil => rfl
  | cons c ds ih =>
    obtain ⟨hc, hds⟩ := List.forall_mem_cons.mp h
    have hstep : ((10 : ℕ) : ℤ) * start + digitValue c = ((10 * start + (c.toNat - '0'.toNat) : ℕ) : ℤ) := by
      rw [digitValue_digit hc]
      push_cast
      rfl
    rw [List.foldl_cons, hstep, ih hds, Nat.ofDigitChars_cons]

theorem isDigit_toDigits {n : ℕ} : ∀ c ∈ Nat.toDigits 10 n, c.isDigit = true := fun _ hc =>
  Nat.isDigit_of_mem_toDigits (by decide) (by decide) hc

theorem numberBase_of_ne {c : Char} (h : c ≠ '0') (rest : Text) : numberBase (c :: rest) = (10, c :: rest) := by
  unfold numberBase
  split
  case h_1 he => exact absurd (List.cons.inj he).1 h
  case h_2 he => exact absurd (List.cons.inj he).1 h
  case h_3 => rfl

/-- The digits that are written for a number are read as it. -/
theorem digits_read (m : ℕ) :
    ((numberBase (Nat.toDigits 10 m)).2.takeWhile fun c => digitValue c < (numberBase (Nat.toDigits 10 m)).1) =
        Nat.toDigits 10 m ∧
      (Nat.toDigits 10 m).foldl (fun (n : ℤ) c => (numberBase (Nat.toDigits 10 m)).1 * n + digitValue c) 0 = m := by
  by_cases hm : m = 0
  · subst hm
    exact ⟨rfl, rfl⟩
  · obtain ⟨c, rest, hdigits, hzero⟩ := toDigits_head m
    have hbase : numberBase (Nat.toDigits 10 m) = (10, Nat.toDigits 10 m) := by
      rw [hdigits]
      exact numberBase_of_ne (fun hc => hm (hzero hc)) rest
    rw [hbase]
    refine ⟨List.takeWhile_eq_self_iff.mpr fun d hd => decide_eq_true (digitValue_lt (isDigit_toDigits d hd)), ?_⟩
    have hvalue := foldl_digits (@isDigit_toDigits m) 0
    rw [Nat.ofDigitChars_ten_toDigits] at hvalue
    exact hvalue

theorem not_space_digit {c : Char} (h : c.isDigit = true) : BSDLParser.isSpace c = false := by
  obtain ⟨hlow, -⟩ := Char.isDigit_iff_toNat.mp h
  have hzero : '0'.toNat = 48 := rfl
  rw [Bool.eq_false_iff]
  intro hspace
  rcases of_decide_eq_true hspace with rfl | ⟨-, hr⟩
  · exact absurd hlow (by decide)
  · have hle : c.toNat ≤ '\r'.toNat := hr
    have hreturn : '\r'.toNat = 13 := rfl
    omega

/-- A number is read as it was written. -/
theorem stoll_decimal {n : ℤ} (h : -2 ^ 63 ≤ n ∧ n < 2 ^ 63) : stoll (decimal n) = some n := by
  obtain ⟨htake, hvalue⟩ := digits_read n.natAbs
  obtain ⟨c, rest, hdigits, -⟩ := toDigits_head n.natAbs
  have hc : c.isDigit = true := isDigit_toDigits c (hdigits ▸ List.mem_cons_self)
  have hne : ∀ d, ¬d.isDigit = true → c ≠ d := fun d hd he => hd (he ▸ hc)
  have hempty : Nat.toDigits 10 n.natAbs ≠ [] := Nat.toDigits_ne_nil
  rw [stoll, decimal]
  by_cases hn : n < 0
  · have hspace : ('-' :: Nat.toDigits 10 n.natAbs).dropWhile BSDLParser.isSpace = '-' :: Nat.toDigits 10 n.natAbs :=
      List.dropWhile_cons_of_neg (by decide)
    have habs : -(n.natAbs : ℤ) = n := by omega
    rw [if_pos hn, hspace]
    simp only [List.head?_cons, true_or, if_true, List.tail_cons, htake, hvalue, habs]
    exact if_pos ⟨hempty, h⟩
  · have hspace : (Nat.toDigits 10 n.natAbs).dropWhile BSDLParser.isSpace = Nat.toDigits 10 n.natAbs := by
      rw [hdigits, List.dropWhile_cons_of_neg (by rw [not_space_digit hc]; exact Bool.false_ne_true)]
    have hminus : ¬(Nat.toDigits 10 n.natAbs).head? = some '-' := by
      rw [hdigits]
      exact fun he => hne '-' (by decide) (Option.some.inj he)
    have hplus : ¬(Nat.toDigits 10 n.natAbs).head? = some '+' := by
      rw [hdigits]
      exact fun he => hne '+' (by decide) (Option.some.inj he)
    have habs : (n.natAbs : ℤ) = n := by omega
    rw [if_neg hn, hspace]
    simp only [hminus, hplus, or_self, if_false, htake, hvalue, habs]
    exact if_pos ⟨hempty, h⟩

/-- The characters of a number that is written. -/
theorem decimal_chars (n : ℤ) : (∀ c ∈ decimal n, c.isDigit = true ∨ c = '-') ∧ decimal n ≠ [] := by
  rw [decimal]
  split
  · exact ⟨List.forall_mem_cons.mpr ⟨Or.inr rfl, fun c hc => Or.inl (isDigit_toDigits c hc)⟩, List.cons_ne_nil _ _⟩
  · exact ⟨fun c hc => Or.inl (isDigit_toDigits c hc), Nat.toDigits_ne_nil⟩

theorem notMem_decimal {c : Char} (hd : c.isDigit = false) (hm : c ≠ '-') (n : ℤ) : c ∉ decimal n := by
  intro hc
  rcases (decimal_chars n).1 c hc with h | h
  · rw [hd] at h
    cases h
  · exact hm h

/-- The number behind a colon, up to what is no character of a number. -/
theorem readInt_decimal {n : ℤ} (h : -2 ^ 63 ≤ n ∧ n < 2 ^ 63) (dflt : ℤ) {gap : Text} (hgap : ∀ c ∈ gap, c = ' ') {c : Char}
    (hc : isNumberChar c = false) (rest : Text) : readInt dflt (gap ++ (decimal n ++ c :: rest)) = n := by
  obtain ⟨hchars, hne⟩ := decimal_chars n
  obtain ⟨d, ds, hdecimal⟩ := List.exists_cons_of_ne_nil hne
  have hd := hchars d (hdecimal ▸ List.mem_cons_self)
  have hother : ∀ e, e.isDigit = false → e ≠ '-' → d ≠ e := fun e he hm hde =>
    notMem_decimal he hm n (hde ▸ hdecimal ▸ List.mem_cons_self)
  have hskip : (gap ++ (decimal n ++ c :: rest)).dropWhile (fun c => decide (c = ':' ∨ c = ' ' ∨ c = '\t')) =
      d :: (ds ++ c :: rest) := by
    have hspaces : ∀ e ∈ gap, decide (e = ':' ∨ e = ' ' ∨ e = '\t') = true := fun e he =>
      decide_eq_true (Or.inr (Or.inl (hgap e he)))
    have hstop : ¬decide (d = ':' ∨ d = ' ' ∨ d = '\t') = true := by
      intro he
      rcases of_decide_eq_true he with he | he | he
      · exact hother ':' (by decide) (by decide) he
      · exact hother ' ' (by decide) (by decide) he
      · exact hother '\t' (by decide) (by decide) he
    rw [List.dropWhile_append_of_pos hspaces, hdecimal, List.cons_append, List.dropWhile_cons, if_neg hstop]
  have hnumber : (d :: (ds ++ c :: rest)).takeWhile isNumberChar = decimal n := by
    have hall : ∀ e ∈ decimal n, isNumberChar e = true := by
      intro e he
      rcases hchars e he with he | rfl
      · simp only [isNumberChar, he, Bool.true_or]
      · decide
    rw [← List.cons_append, ← hdecimal, List.takeWhile_append_of_pos hall,
      List.takeWhile_cons_of_neg (by rw [hc]; exact Bool.false_ne_true), List.append_nil]
  rw [readInt, hskip]
  dsimp only
  rw [if_neg (hother '"' (by decide) (by decide)), hnumber, if_neg hne, stoll_decimal h]
  rfl

theorem jsonInt_of_behind {n : ℤ} (h : -2 ^ 63 ≤ n ∧ n < 2 ^ 63) {json gap rest : Text} {c : Char}
    (hgap : ∀ c ∈ gap, c = ' ') (hc : isNumberChar c = false) (dflt : ℤ)
    (hbehind : (behind (quoted k) json).bind (behind [':']) = some (gap ++ (decimal n ++ c :: rest))) :
    jsonInt json k dflt = n := by
  rw [jsonInt, hbehind]
  exact readInt_decimal h dflt hgap hc rest

end OwlTap.Gui
