import OwlTap.Base.Find
import OwlTap.Script.ScriptEngine
import Mathlib.Data.List.DropRight

/-!
# Constraint files

`parseXdc` reads the aliases of package pins from the lines of a constraint file. It looks for its
keywords and brackets in the text of a line. The value of a key in a dict is the word behind the first word
that is the key (`dictValue_eq`).
-/

namespace OwlTap.Xdc

open OwlTap Bsdl BoundaryScan

/-- Maps an uppercase package pin name to the user's port name. -/
abbrev PinAliasMap := AList fun _ : Text => Text

/-- Remove surrounding braces or brackets. -/
def stripWrap (s : Text) (opening closing : Char) : Text :=
  if 2 ≤ s.length ∧ s.head? = some opening ∧ s.getLast? = some closing then trimStr s.tail.dropLast else s

/-- The search for a keyword as a whole word, from a place on that has a character before it or is the start: the next
word. -/
def dictValueFrom (keyword : Text) : (before : Option Char) → Text → Text
  | _, [] => []
  | before, c :: text =>
    let after := (c :: text).drop keyword.length
    if keyword <+: c :: text ∧ before.all BSDLParser.isSpace ∧ after.head?.all BSDLParser.isSpace then
      (after.dropWhile BSDLParser.isSpace).takeWhile fun c => !BSDLParser.isSpace c
    else dictValueFrom keyword (some c) text

/-- The word behind a keyword, or nothing. -/
def dictValue (dictBody keyword : Text) : Text := dictValueFrom keyword none dictBody

/-- The first place of a string from a position on. -/
def findFrom (pat s : Text) (pos : ℕ) : Option ℕ := (indexOf pat (s.drop pos)).map (pos + ·)

/-- The last place of a character. -/
def rfind (c : Char) (s : Text) : Option ℕ := if c ∈ s then some (s.length - 1 - s.reverse.idxOf c) else none

/-- The pin of a line in uppercase, and where its dict closes. -/
def linePin (line : Text) : Option (Text × ℕ) := do
  let dictOpen ← findFrom ['{'] line 0
  let dictClose ← findFrom ['}'] line (dictOpen + 1)
  let dictBody := (line.drop (dictOpen + 1)).take (dictClose - dictOpen - 1)
  let pkgPin := dictValue dictBody "PACKAGE_PIN".toList
  if pkgPin = [] then none else some (pkgPin.map Char.toUpper, dictClose)

/-- What is between `get_ports` and the last closing bracket, without a wrap. -/
def linePort (line : Text) (dictClose : ℕ) : Option Text := do
  let gpPos ← findFrom "get_ports".toList line dictClose
  let _bracketOpen ← rfind '[' (line.take (gpPos + 1))
  let bracketClose ← rfind ']' line
  if bracketClose < gpPos then none
  else
    let portStart := gpPos + "get_ports".toList.length
    let portExpr := (line.drop portStart).take (bracketClose - portStart)
    let portExpr := trimStr (stripWrap (trimStr portExpr) '{' '}')
    if portExpr = [] then none else some portExpr

/-- The alias of a line, if it has one. -/
def parseLine (line : Text) : Option (Text × Text) :=
  let line := trimStr line
  if line = [] ∨ line.head? = some '#' then none
  else if ¬"set_property".toList <+: line then none
  else if indexOf "PACKAGE_PIN".toList line = none then none
  else if indexOf "get_ports".toList line = none then none
  else (linePin line).bind fun (pkgPin, dictClose) => (linePort line dictClose).map fun portExpr => (pkgPin, portExpr)

/-- `emplace`: what is there stays. -/
def emplace (result : PinAliasMap) (entry : Text × Text) : PinAliasMap :=
  if entry.1 ∈ result then result else result.insert entry.1 entry.2

/-- A line of the file. -/
def addLine (result : PinAliasMap) (line : Text) : PinAliasMap :=
  match parseLine line with
  | none => result
  | some entry => emplace result entry

/-- Parse a constraints file, given by its contents if it can be opened. -/
def parseXdc (file : Option Text) : PinAliasMap :=
  match file with
  | none => ∅
  | some contents => (Script.getlines contents).foldl addLine ∅

/-! ### Whitespace -/

/-- There is only whitespace. -/
def Spaces (s : Text) : Prop := ∀ c ∈ s, BSDLParser.isSpace c = true

theorem spaces_nil : Spaces [] := fun _ hc => absurd hc List.not_mem_nil

theorem Spaces.notMem {s : Text} (h : Spaces s) {c : Char} (hc : BSDLParser.isSpace c = false) : c ∉ s := by
  intro hmem
  have hspace := h c hmem
  rw [hc] at hspace
  cases hspace

/-- What is between whitespace, if it begins and ends with something else. -/
theorem trimStr_around {before s after : Text} (hbefore : Spaces before) (hafter : Spaces after)
    (hhead : ∀ c ∈ s.head?, BSDLParser.isSpace c = false) (hlast : ∀ c ∈ s.getLast?, BSDLParser.isSpace c = false) :
    trimStr (before ++ s ++ after) = s := by
  have hends : ∀ {t : Text}, (∀ c ∈ t.head?, BSDLParser.isSpace c = false) → t.dropWhile BSDLParser.isSpace = t := by
    intro t ht
    cases t with
    | nil => rfl
    | cons c t => exact List.dropWhile_cons_of_neg (by rw [ht c rfl]; exact Bool.false_ne_true)
  have hdrop : ∀ {t u : Text}, Spaces t → (t ++ u).dropWhile BSDLParser.isSpace = u.dropWhile BSDLParser.isSpace := by
    intro t u ht
    exact List.dropWhile_append_of_pos ht
  by_cases hs : s = []
  · subst hs
    have hspaces : Spaces (before ++ [] ++ after) := by
      rw [List.append_nil]
      exact List.forall_mem_append.mpr ⟨hbefore, hafter⟩
    rw [trimStr, List.dropWhile_eq_nil_iff.mpr hspaces]
    rfl
  · have hhead' : ∀ c ∈ (s ++ after).head?, BSDLParser.isSpace c = false := by
      rw [List.head?_append_of_ne_nil _ hs]
      exact hhead
    have hreverse : ∀ c ∈ s.reverse.head?, BSDLParser.isSpace c = false := by
      rw [List.head?_reverse]
      exact hlast
    rw [trimStr, List.append_assoc, hdrop hbefore, hends hhead', List.reverse_append,
      hdrop fun c hc => hafter c (List.mem_reverse.mp hc), hends hreverse, List.reverse_reverse]

/-- A character that is not whitespace stays. -/
theorem count_trimStr {c : Char} (hc : BSDLParser.isSpace c = false) (s : Text) : (trimStr s).count c = s.count c := by
  have hdrop : ∀ t : Text, (t.dropWhile BSDLParser.isSpace).count c = t.count c := by
    intro t
    have hnone : (t.takeWhile BSDLParser.isSpace).count c = 0 := by
      rw [List.count_eq_zero]
      intro hmem
      have hspace := List.mem_takeWhile_imp hmem
      rw [hc] at hspace
      cases hspace
    calc (t.dropWhile BSDLParser.isSpace).count c
        = (t.takeWhile BSDLParser.isSpace ++ t.dropWhile BSDLParser.isSpace).count c := by
          rw [List.count_append, hnone, Nat.zero_add]
      _ = t.count c := by rw [List.takeWhile_append_dropWhile]
  rw [trimStr, List.count_reverse, hdrop, List.count_reverse, hdrop]

/-- A character that is neither whitespace nor one of the wrap stays. -/
theorem count_stripWrap {c opening closing : Char} (hc : BSDLParser.isSpace c = false) (ho : c ≠ opening) (hl : c ≠ closing)
    (s : Text) : (stripWrap s opening closing).count c = s.count c := by
  rw [stripWrap]
  split
  case isFalse => rfl
  case isTrue h =>
    obtain ⟨hlen, hhead, hlast⟩ := h
    cases s with
    | nil => cases hhead
    | cons x s =>
      obtain rfl := Option.some.inj hhead
      have hne : s ≠ [] := by
        rintro rfl
        exact Nat.not_succ_le_self 1 hlen
      have hend : s = s.dropLast ++ [closing] := by
        rw [List.getLast?_cons_of_ne_nil hne] at hlast
        exact (List.dropLast_append_getLast? closing hlast).symm
      rw [count_trimStr hc, List.tail_cons, List.count_cons_of_ne ho.symm]
      conv_rhs => rw [hend]
      rw [List.count_append, List.count_singleton, if_neg (by simpa using hl.symm), Nat.add_zero]

/-! ### Words -/

theorem words_cons_space {c : Char} (hc : BSDLParser.isSpace c = true) (text : Text) : words (c :: text) = words text := by
  rw [words, ← List.nil_append (c :: text),
    List.splitOnP_append_cons_of_forall_mem (fun x hx => absurd hx List.not_mem_nil) c hc]
  rfl

theorem words_spaces {s : Text} (h : Spaces s) (text : Text) : words (s ++ text) = words text := by
  induction s with
  | nil => rfl
  | cons c s ih =>
    obtain ⟨hc, hs⟩ := List.forall_mem_cons.mp h
    rw [List.cons_append, words_cons_space hc, ih hs]

/-- A word is followed by whitespace or the end. -/
theorem words_word {word rest : Text} (hne : word ≠ []) (hword : ∀ c ∈ word, BSDLParser.isSpace c = false)
    (hrest : rest.head?.all BSDLParser.isSpace) : words (word ++ rest) = word :: words rest := by
  cases rest with
  | nil =>
    rw [List.append_nil, words, List.splitOnP_eq_singleton hword]
    exact List.filter_cons_of_pos (decide_eq_true hne)
  | cons c rest =>
    rw [words_cons_space hrest, words, List.splitOnP_append_cons_of_forall_mem hword c hrest]
    exact List.filter_cons_of_pos (decide_eq_true hne)

/-- What is behind the first word that is a key. -/
def wordAfter (key : Text) (ws : List Text) : Text := (ws.dropWhile (· ≠ key)).tail.headD []

theorem takeWhile_word {word rest : Text} (hword : ∀ c ∈ word, BSDLParser.isSpace c = false)
    (hrest : rest.head?.all BSDLParser.isSpace) : (word ++ rest).takeWhile (fun c => !BSDLParser.isSpace c) = word := by
  have hin : ∀ c ∈ word, (!BSDLParser.isSpace c) = true := fun c hc => by rw [hword c hc]; rfl
  have hnone : rest.takeWhile (fun c => !BSDLParser.isSpace c) = [] := by
    cases rest with
    | nil => rfl
    | cons c rest =>
      have hc : BSDLParser.isSpace c = true := hrest
      rw [List.takeWhile_cons_of_neg (by rw [hc]; exact Bool.false_ne_true)]
  rw [List.takeWhile_append_of_pos hin, hnone, List.append_nil]

/-- What there is up to the next whitespace. -/
theorem exists_word (c : Char) (text : Text) : ∃ word rest, c :: text = c :: word ++ rest ∧
    (∀ x ∈ word, BSDLParser.isSpace x = false) ∧ rest.head?.all BSDLParser.isSpace := by
  refine ⟨text.takeWhile fun x => !BSDLParser.isSpace x, text.dropWhile fun x => !BSDLParser.isSpace x, ?_, ?_, ?_⟩
  · rw [List.cons_append, List.takeWhile_append_dropWhile]
  · intro x hx
    have hin := List.mem_takeWhile_imp hx
    exact (Bool.not_eq_true' _).mp hin
  · cases hrest : text.dropWhile fun x => !BSDLParser.isSpace x with
    | nil => rfl
    | cons x rest =>
      have hx := List.head?_dropWhile_not (fun x => !BSDLParser.isSpace x) text
      rw [hrest] at hx
      exact (Bool.not_eq_false' _).mp hx

/-- The first word of a text. -/
theorem headD_words (text : Text) :
    (words text).headD [] = (text.dropWhile BSDLParser.isSpace).takeWhile fun c => !BSDLParser.isSpace c := by
  induction text with
  | nil => rfl
  | cons c text ih =>
    cases hc : BSDLParser.isSpace c with
    | true => rw [words_cons_space hc, ih, List.dropWhile_cons_of_pos hc]
    | false =>
      obtain ⟨word, rest, hsplit, hword, hrest⟩ := exists_word c text
      have hall : ∀ x ∈ c :: word, BSDLParser.isSpace x = false := List.forall_mem_cons.mpr ⟨hc, hword⟩
      rw [List.dropWhile_cons_of_neg (by rw [hc]; exact Bool.false_ne_true), hsplit, takeWhile_word hall hrest,
        words_word (List.cons_ne_nil _ _) hall hrest]
      rfl

variable {keyword : Text}

/-- The search does not stop inside a word. -/
theorem dictValueFrom_inWord {p : Char} (hp : BSDLParser.isSpace p = false) {word : Text}
    (hword : ∀ c ∈ word, BSDLParser.isSpace c = false) (rest : Text) :
    ∃ q, BSDLParser.isSpace q = false ∧
      dictValueFrom keyword (some p) (word ++ rest) = dictValueFrom keyword (some q) rest := by
  induction word generalizing p with
  | nil => exact ⟨p, hp, rfl⟩
  | cons c word ih =>
    obtain ⟨hc, hword⟩ := List.forall_mem_cons.mp hword
    obtain ⟨q, hq, hskip⟩ := ih hc hword
    refine ⟨q, hq, ?_⟩
    have hno : ¬(some p).all BSDLParser.isSpace = true := by
      rw [Option.all_some, hp]
      exact Bool.false_ne_true
    rw [List.cons_append, dictValueFrom, if_neg fun h => hno h.2.1, hskip]

/-- The search goes on at whitespace. -/
theorem dictValueFrom_space (hne : keyword ≠ []) (hkey : ∀ c ∈ keyword, BSDLParser.isSpace c = false) {c : Char}
    (hc : BSDLParser.isSpace c = true) (before : Option Char) (text : Text) :
    dictValueFrom keyword before (c :: text) = dictValueFrom keyword (some c) text := by
  have hno : ¬keyword <+: c :: text := by
    intro h
    obtain ⟨k, ks, rfl⟩ := List.exists_cons_of_ne_nil hne
    obtain rfl := (List.cons_prefix_cons.mp h).1
    rw [hkey k List.mem_cons_self] at hc
    cases hc
  rw [dictValueFrom, if_neg fun h => hno h.1]

/-- The value of a key is the word behind the first word that is the key. -/
theorem dictValueFrom_eq (hne : keyword ≠ []) (hkey : ∀ c ∈ keyword, BSDLParser.isSpace c = false) {before : Option Char}
    (hbefore : before.all BSDLParser.isSpace) (text : Text) :
    dictValueFrom keyword before text = wordAfter keyword (words text) := by
  induction hlen : text.length using Nat.strong_induction_on generalizing before text with
  | _ n ih =>
    subst hlen
    cases text with
    | nil => rfl
    | cons c text =>
      cases hc : BSDLParser.isSpace c with
      | true =>
        rw [dictValueFrom_space hne hkey hc, words_cons_space hc]
        exact @ih text.length (Nat.lt_succ_self _) (some c) hc text rfl
      | false =>
        obtain ⟨word, rest, hsplit, hword, hrest⟩ := exists_word c text
        have hall : ∀ x ∈ c :: word, BSDLParser.isSpace x = false := List.forall_mem_cons.mpr ⟨hc, hword⟩
        have hwords : words (c :: text) = (c :: word) :: words rest := by
          rw [hsplit, words_word (List.cons_ne_nil _ _) hall hrest]
        rw [hwords, dictValueFrom]
        by_cases hfound : keyword = c :: word
        · have hafter : (c :: text).drop keyword.length = rest := by
            rw [hsplit, hfound, List.drop_left]
          have hdrop : ((c :: word) :: words rest).dropWhile (· ≠ keyword) = (c :: word) :: words rest :=
            List.dropWhile_cons_of_neg (by rw [hfound]; simp)
          rw [hafter, if_pos ⟨hfound ▸ hsplit ▸ List.prefix_append _ _, hbefore, hrest⟩, wordAfter, hdrop, List.tail_cons,
            headD_words]
        · have hno : ¬(keyword <+: c :: text ∧ before.all BSDLParser.isSpace ∧
              ((c :: text).drop keyword.length).head?.all BSDLParser.isSpace) := by
            rintro ⟨⟨after, hkeyword⟩, -, hboundary⟩
            rw [← hkeyword, List.drop_left] at hboundary
            have hword' := takeWhile_word hkey hboundary
            rw [hkeyword, hsplit, takeWhile_word hall hrest] at hword'
            exact hfound hword'.symm
          have hdrop : ((c :: word) :: words rest).dropWhile (· ≠ keyword) = (words rest).dropWhile (· ≠ keyword) :=
            List.dropWhile_cons_of_pos (decide_eq_true (Ne.symm hfound))
          obtain ⟨q, -, hskip⟩ := @dictValueFrom_inWord keyword c hc word hword rest
          have htext : text = word ++ rest := (List.cons.inj hsplit).2
          have hlen : rest.length ≤ text.length := by
            rw [htext, List.length_append]
            exact Nat.le_add_left _ _
          rw [if_neg hno, wordAfter, hdrop, htext, hskip]
          cases rest with
          | nil => rfl
          | cons s rest =>
            have hs : BSDLParser.isSpace s = true := hrest
            rw [dictValueFrom_space hne hkey hs, words_cons_space hs]
            refine @ih rest.length ?_ (some s) hs rest rfl
            rw [List.length_cons] at hlen ⊢
            omega

theorem dictValue_eq (hne : keyword ≠ []) (hkey : ∀ c ∈ keyword, BSDLParser.isSpace c = false) (dictBody : Text) :
    dictValue dictBody keyword = wordAfter keyword (words dictBody) := dictValueFrom_eq hne hkey rfl dictBody

end OwlTap.Xdc
