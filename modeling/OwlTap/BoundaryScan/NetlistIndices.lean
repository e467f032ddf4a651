import Mathlib.Data.List.Forall2
import OwlTap.Base.Find
import OwlTap.BoundaryScan.InterconnectTest
import OwlTap.Bsdl.CellPlaces

/-!
# The device indices of a net list

A device field is meant to be a number written in digits alone, so that the indices of a net list
are never negative and the test never reads before its tables (`Validated`). The parser converts
with `std::stoi`, which also takes a sign in front and anything behind: a net list is validated if
and only if no line that the parser accepts has such a field (`validated_iff`).
-/

namespace OwlTap.BoundaryScan

open OwlTap Ftdi Bsdl Jtag

/-! ### What a net list is meant to be -/

/-- What is before the colon of a word. -/
def idxField (token : Text) : Text := token.takeWhile (· ≠ ':')

/-- What is behind the colon of a word. -/
def pinField (token : Text) : Text := (token.dropWhile (· ≠ ':')).tail

/-- The word of a pin: its device in digits, a colon, its name. -/
structure WellFormed (token : Text) : Prop where
  colon : ':' ∈ token
  named : pinField token ≠ []
  index : idxField token ≠ []
  inFull : ∀ c ∈ idxField token, c.isDigit
  inRange : BSDLParser.digits (idxField token) ≤ 2147483647

/-- The words of a net: a name, a driver, at least one receiver. -/
def WellFormedNet (ws : List Text) : Prop := 3 ≤ ws.length ∧ ∀ token ∈ ws.tail, WellFormed token

/-- The words of the lines that have any, with their numbers. -/
def netLines : (lineNo : ℕ) → List Text → List (ℕ × List Text)
  | _, [] => []
  | lineNo, line :: lines =>
    let line := trimStr (line.takeWhile (· ≠ '#'))
    if line = [] then netLines (lineNo + 1) lines else (lineNo, words line) :: netLines (lineNo + 1) lines

/-- The lines of a text. -/
def linesOf (contents : Text) : List (ℕ × List Text) := netLines 1 (contents.splitOn '\n')

/-- A pin is the one that a word spells, its device as a number in full. -/
def Spells (token : Text) (dp : DevPin) : Prop :=
  (∀ c ∈ idxField token, c.isDigit) ∧ dp = ⟨BSDLParser.digits (idxField token), (pinField token).map Char.toUpper⟩

/-- A net is the one that the words of a line spell. -/
def SpellsNet (ws : List Text) (net : NetDef) : Prop :=
  ∃ driver receivers, ws = net.name :: driver :: receivers ∧ Spells driver net.driver ∧
    List.Forall₂ Spells receivers net.receivers

/-! ### What a run reads of its tables -/

/-- The reads of an entry, with the length of its table: `i < (int) xs.size() && xs[i] != nullptr`. -/
def tableReads {α : Type} (xs : List (Option α)) (i : ℤ) : List (ℤ × ℕ) := if i < xs.length then [(i, xs.length)] else []

namespace Bench

variable {σ : Type} (T : Target σ)

/-- The reads of `sampleReceivers`. -/
def receiverReads : List DevPin → List (Sampling σ) → Bench σ → List (ℤ × ℕ)
  | [], _, _ => []
  | recv :: recvs, samples, b =>
    (if samples.any fun s => s.device = recv.deviceIndex then [] else tableReads b.scanners recv.deviceIndex) ++
      match sampleReceiver T samples recv b with
      | none => []
      | some (samples, b) => receiverReads recvs samples b

/-- The reads of `runStep`. -/
def stepReads (net : NetDef) (drivenVal : ℤ) (b : Bench σ) : List (ℤ × ℕ) :=
  tableReads b.drivers net.driver.deviceIndex ++
    match drive T net.driver drivenVal b with
    | some (true, b) => receiverReads T net.receivers [] b
    | _ => []

/-- The reads of `runNet`. -/
def netReads (net : NetDef) (b : Bench σ) : List (ℤ × ℕ) :=
  stepReads T net 0 b ++
    match runStep T net 0 b with
    | none => []
    | some (_, b) => stepReads T net 1 b

/-- The reads of `runNets`. -/
def runReads : List NetDef → Bench σ → List (ℤ × ℕ)
  | [], _ => []
  | net :: nets, b =>
    netReads T net b ++
      match runNet T net b with
      | none => []
      | some (_, b) => runReads nets b

end Bench

/-- A test of the nets never reads outside its tables, whatever the chain. -/
def ReadsInRange (nets : List NetDef) : Prop :=
  ∀ {σ : Type} (T : Target σ) (b : Bench σ), ∀ r ∈ Bench.runReads T nets b, 0 ≤ r.1 ∧ r.1 < r.2

/-- The indices of a text are validated: those accepted are the numbers that the lines spell, and no read is outside the
tables; else an error names the first line that is not well formed. -/
structure Validated (path contents : Text) : Prop where
  accepted : ∀ nets, parseIctFile path (some contents) = .ok nets →
    List.Forall₂ (fun l net => SpellsNet l.2 net) (linesOf contents) nets ∧ ReadsInRange nets
  rejected : ∀ before l rest, linesOf contents = before ++ l :: rest → (∀ l' ∈ before, WellFormedNet l'.2) →
    ¬WellFormedNet l.2 → ∃ msg, parseIctFile path (some contents) = .error (lineError l.1 msg)

/-! ### What the parser takes -/

/-- A word that the parser refuses. -/
def Refused (token : Text) : Prop :=
  ':' ∉ token ∨ idxField token = [] ∨ pinField token = [] ∨ BSDLParser.stoi (idxField token) = none

/-- A line that the parser refuses. -/
def RefusedNet (ws : List Text) : Prop := ws.length < 3 ∨ ∃ token ∈ ws.tail, Refused token

/-- No line before the first that is refused has a device field with anything but digits. -/
def DigitsOnly (contents : Text) : Prop :=
  ∀ before l rest, linesOf contents = before ++ l :: rest → (∀ l' ∈ before, ¬RefusedNet l'.2) → ¬RefusedNet l.2 →
    ∀ token ∈ l.2.tail, ∀ c ∈ idxField token, c.isDigit

theorem parseDevPin_eq (token : Text) : parseDevPin token =
    if ':' ∉ token then .error ("expected 'dev:pin' but got '" ++ String.ofList token ++ "'")
    else if idxField token = [] ∨ pinField token = [] then
      .error ("malformed 'dev:pin' token '" ++ String.ofList token ++ "'")
    else match BSDLParser.stoi (idxField token) with
      | none => .error ("invalid device index '" ++ String.ofList (idxField token) ++ "'")
      | some deviceIndex => .ok ⟨deviceIndex, (pinField token).map Char.toUpper⟩ := rfl

theorem parseDevPin_refused {token : Text} (h : Refused token) : ∃ msg, parseDevPin token = .error msg := by
  rw [parseDevPin_eq]
  by_cases hcolon : ':' ∉ token
  · exact ⟨_, if_pos hcolon⟩
  rw [if_neg hcolon]
  by_cases hempty : idxField token = [] ∨ pinField token = []
  · exact ⟨_, if_pos hempty⟩
  rw [if_neg hempty]
  obtain hno | hno | hno | hno := h
  · exact absurd hno hcolon
  · exact absurd (Or.inl hno) hempty
  · exact absurd (Or.inr hno) hempty
  · rw [hno]
    exact ⟨_, rfl⟩

/-- A word that is not refused is taken, with its index as `std::stoi` reads it. -/
theorem parseDevPin_taken {token : Text} (h : ¬Refused token) : ∃ i, BSDLParser.stoi (idxField token) = some i ∧
    parseDevPin token = .ok ⟨i, (pinField token).map Char.toUpper⟩ := by
  obtain ⟨hcolon, hidx, hpin, hstoi⟩ : ¬ ':' ∉ token ∧ ¬idxField token = [] ∧ ¬pinField token = [] ∧
      ¬BSDLParser.stoi (idxField token) = none := by
    unfold Refused at h
    push Not at h
    exact ⟨not_not.mpr h.1, h.2⟩
  obtain ⟨i, hi⟩ := Option.ne_none_iff_exists'.mp hstoi
  refine ⟨i, hi, ?_⟩
  rw [parseDevPin_eq, if_neg hcolon, if_neg (not_or.mpr ⟨hidx, hpin⟩), hi]

/-- A well-formed word is one that the parser takes, and whose device is in digits. -/
theorem wellFormed_iff {token : Text} : WellFormed token ↔ ¬Refused token ∧ ∀ c ∈ idxField token, c.isDigit := by
  constructor
  · intro h
    refine ⟨?_, h.inFull⟩
    rintro (hno | hno | hno | hno)
    · exact hno h.colon
    · exact h.index hno
    · exact h.named hno
    · rw [BSDLParser.stoi_digits h.index h.inFull, if_pos h.inRange] at hno
      exact absurd hno (Option.some_ne_none _)
  · rintro ⟨h, hdigits⟩
    unfold Refused at h
    push Not at h
    obtain ⟨hcolon, hidx, hpin, hstoi⟩ := h
    refine ⟨hcolon, hpin, hidx, hdigits, ?_⟩
    by_contra hbig
    rw [BSDLParser.stoi_digits hidx hdigits, if_neg hbig] at hstoi
    exact hstoi rfl

theorem spells_of_taken {token : Text} {dp : DevPin} (h : WellFormed token) (hp : parseDevPin token = .ok dp) :
    Spells token dp := by
  obtain ⟨i, hi, hok⟩ := parseDevPin_taken (wellFormed_iff.mp h).1
  rw [BSDLParser.stoi_digits h.index h.inFull, if_pos h.inRange] at hi
  rw [hok, ← Option.some.inj hi] at hp
  exact ⟨h.inFull, (Except.ok.inj hp).symm⟩

/-! ### Lines -/

theorem mapM_taken {tokens : List Text} (h : ∀ token ∈ tokens, ¬Refused token) :
    ∃ dps, tokens.mapM parseDevPin = .ok dps ∧ List.Forall₂ (fun token dp => parseDevPin token = .ok dp) tokens dps := by
  induction tokens with
  | nil => exact ⟨[], rfl, .nil⟩
  | cons token tokens ih =>
    obtain ⟨_, -, hok⟩ := parseDevPin_taken (h token List.mem_cons_self)
    obtain ⟨dps, hdps, hall⟩ := ih fun token' ht => h token' (List.mem_cons_of_mem _ ht)
    refine ⟨_ :: dps, ?_, .cons hok hall⟩
    rw [List.mapM_cons, hok, hdps]
    rfl

theorem mapM_refused {tokens : List Text} (h : ∃ token ∈ tokens, Refused token) :
    ∃ msg, tokens.mapM parseDevPin = .error msg := by
  induction tokens with
  | nil =>
    obtain ⟨token, ht, -⟩ := h
    cases ht
  | cons token tokens ih =>
    rw [List.mapM_cons]
    by_cases hr : Refused token
    · obtain ⟨msg, hmsg⟩ := parseDevPin_refused hr
      rw [hmsg]
      exact ⟨msg, rfl⟩
    · obtain ⟨token', ht, hr'⟩ := h
      have ht' : token' ∈ tokens := (List.mem_cons.mp ht).resolve_left fun he => hr (he ▸ hr')
      obtain ⟨_, -, hok⟩ := parseDevPin_taken hr
      obtain ⟨msg, hmsg⟩ := ih ⟨token', ht', hr'⟩
      rw [hok, hmsg]
      exact ⟨msg, rfl⟩

theorem parseNet_refused {ws : List Text} (h : RefusedNet ws) : ∃ msg, parseNet ws = .error msg := by
  match ws with
  | [] | [_] | [_, _] => exact ⟨_, rfl⟩
  | name :: driver :: receiver :: receivers =>
    obtain hshort | ⟨token, ht, hr⟩ := h
    · simp only [List.length_cons] at hshort
      omega
    · rw [parseNet]
      by_cases hdriver : Refused driver
      · obtain ⟨msg, hmsg⟩ := parseDevPin_refused hdriver
        rw [hmsg]
        exact ⟨msg, rfl⟩
      · have ht' : token ∈ receiver :: receivers := (List.mem_cons.mp ht).resolve_left fun he => hdriver (he ▸ hr)
        obtain ⟨_, -, hok⟩ := parseDevPin_taken hdriver
        obtain ⟨msg, hmsg⟩ := mapM_refused ⟨token, ht', hr⟩
        rw [hok, hmsg]
        exact ⟨msg, rfl⟩

/-- A line that is not refused is taken; if it is well formed, its net is the one that it spells. -/
theorem parseNet_taken {ws : List Text} (h : ¬RefusedNet ws) :
    ∃ net, parseNet ws = .ok net ∧ (WellFormedNet ws → SpellsNet ws net) := by
  obtain ⟨hlength, htokens⟩ : 3 ≤ ws.length ∧ ∀ token ∈ ws.tail, ¬Refused token := by
    unfold RefusedNet at h
    push Not at h
    exact h
  match ws with
  | [] | [_] | [_, _] => exact absurd hlength (by simp)
  | name :: driver :: receiver :: receivers =>
    obtain ⟨i, -, hdriver⟩ := parseDevPin_taken (htokens driver List.mem_cons_self)
    obtain ⟨dps, hdps, hall⟩ := mapM_taken fun token ht => htokens token (List.mem_cons_of_mem _ ht)
    refine ⟨⟨name, ⟨i, (pinField driver).map Char.toUpper⟩, dps⟩, ?_, fun hw => ?_⟩
    · rw [parseNet, hdriver, hdps]
      rfl
    · have hwell : ∀ token ∈ driver :: receiver :: receivers, WellFormed token := hw.2
      obtain ⟨hd, hreceivers⟩ := List.forall_mem_cons.mp hwell
      refine ⟨driver, receiver :: receivers, rfl, spells_of_taken hd hdriver, ?_⟩
      exact ((List.forall₂_and_left _ _).mpr ⟨hreceivers, hall⟩).imp fun _ _ ht => spells_of_taken ht.1 ht.2

theorem wellFormedNet_iff {ws : List Text} :
    WellFormedNet ws ↔ ¬RefusedNet ws ∧ ∀ token ∈ ws.tail, ∀ c ∈ idxField token, c.isDigit := by
  unfold WellFormedNet RefusedNet
  push Not
  constructor
  · rintro ⟨hlength, h⟩
    exact ⟨⟨hlength, fun token ht => (wellFormed_iff.mp (h token ht)).1⟩,
      fun token ht => (wellFormed_iff.mp (h token ht)).2⟩
  · rintro ⟨⟨hlength, h⟩, hdigits⟩
    exact ⟨hlength, fun token ht => wellFormed_iff.mpr ⟨h token ht, hdigits token ht⟩⟩

/-! ### Texts -/

theorem parseLines_taken {lines : List Text} {lineNo : ℕ} (h : ∀ l ∈ netLines lineNo lines, ¬RefusedNet l.2) :
    ∃ nets, parseLines lineNo lines = .ok nets ∧
      List.Forall₂ (fun l net => parseNet l.2 = .ok net) (netLines lineNo lines) nets := by
  induction lines generalizing lineNo with
  | nil => exact ⟨[], rfl, .nil⟩
  | cons line lines ih =>
    unfold parseLines
    unfold netLines at h ⊢
    dsimp only at h ⊢
    by_cases hblank : trimStr (line.takeWhile (· ≠ '#')) = []
    · rw [if_pos hblank] at h ⊢
      rw [if_pos hblank]
      exact ih h
    · rw [if_neg hblank] at h ⊢
      rw [if_neg hblank]
      obtain ⟨hhead, htail⟩ := List.forall_mem_cons.mp h
      obtain ⟨net, hnet, -⟩ := parseNet_taken hhead
      obtain ⟨nets, hnets, hall⟩ := ih htail
      rw [hnet, hnets]
      exact ⟨net :: nets, rfl, .cons hnet hall⟩

/-- The first line that is refused is the one that the error names. -/
theorem parseLines_refused {lines : List Text} {lineNo : ℕ} {before rest : List (ℕ × List Text)} {l : ℕ × List Text}
    (heq : netLines lineNo lines = before ++ l :: rest) (hbefore : ∀ l' ∈ before, ¬RefusedNet l'.2) (hl : RefusedNet l.2) :
    ∃ msg, parseLines lineNo lines = .error (lineError l.1 msg) := by
  induction lines generalizing lineNo before with
  | nil => exact absurd heq.symm (List.append_ne_nil_of_right_ne_nil _ (List.cons_ne_nil _ _))
  | cons line lines ih =>
    unfold parseLines
    unfold netLines at heq
    dsimp only at heq ⊢
    by_cases hblank : trimStr (line.takeWhile (· ≠ '#')) = []
    · rw [if_pos hblank] at heq ⊢
      exact ih heq hbefore
    · rw [if_neg hblank] at heq ⊢
      cases before with
      | nil =>
        obtain ⟨rfl, -⟩ := List.cons.inj heq
        obtain ⟨msg, hmsg⟩ := parseNet_refused hl
        rw [hmsg]
        exact ⟨msg, rfl⟩
      | cons l' before =>
        rw [List.cons_append] at heq
        obtain ⟨rfl, htail⟩ := List.cons.inj heq
        obtain ⟨hhead, hbefore⟩ := List.forall_mem_cons.mp hbefore
        obtain ⟨net, hnet, -⟩ := parseNet_taken hhead
        obtain ⟨msg, hmsg⟩ := ih htail hbefore
        rw [hnet, hmsg]
        exact ⟨msg, rfl⟩

theorem lt_of_mem_netLines {lines : List Text} {lineNo : ℕ} :
    (netLines lineNo lines).Pairwise (fun l l' => l.1 < l'.1) ∧ ∀ l ∈ netLines lineNo lines, lineNo ≤ l.1 := by
  induction lines generalizing lineNo with
  | nil => exact ⟨.nil, fun _ h => absurd h List.not_mem_nil⟩
  | cons line lines ih =>
    obtain ⟨hpairwise, hle⟩ := @ih (lineNo + 1)
    unfold netLines
    dsimp only
    split
    · exact ⟨hpairwise, fun l hl => (Nat.le_succ _).trans (hle l hl)⟩
    · exact ⟨.cons hle hpairwise, List.forall_mem_cons.mpr ⟨le_refl _, fun l hl => (Nat.le_succ _).trans (hle l hl)⟩⟩

theorem takeWhile_lineError (n : ℕ) (msg : String) :
    ((lineError n msg).toList.drop 5).takeWhile (· ≠ ':') = Nat.toDigits 10 n := by
  have hchars : (lineError n msg).toList = "line ".toList ++ (Nat.toDigits 10 n ++ ':' :: ' ' :: msg.toList) := by
    have hparts : lineError n msg = "line " ++ n.repr ++ ": " ++ msg := rfl
    rw [hparts, String.toList_append, String.toList_append, String.toList_append, Nat.toList_repr, List.append_assoc,
      List.append_assoc]
    rfl
  have hnocolon : ∀ c ∈ Nat.toDigits 10 n, decide (c ≠ ':') = true := by
    intro c hc
    have hdigit := Nat.isDigit_of_mem_toDigits (by decide) (by decide) hc
    refine decide_eq_true fun he => ?_
    rw [he] at hdigit
    exact absurd hdigit (by decide)
  rw [hchars, List.drop_append_of_le_length (by decide), List.drop_of_length_le (by decide), List.nil_append,
    List.takeWhile_append_of_pos hnocolon, List.takeWhile_cons_of_neg (by decide), List.append_nil]

/-- An error names one line. -/
theorem lineError_inj {n n' : ℕ} {msg msg' : String} (h : lineError n msg = lineError n' msg') : n = n' := by
  have hdigits : Nat.toDigits 10 n = Nat.toDigits 10 n' := by
    rw [← takeWhile_lineError n msg, h, takeWhile_lineError]
  rw [← @Nat.ofDigitChars_ten_toDigits n, hdigits, Nat.ofDigitChars_ten_toDigits]

/-! ### Reads -/

theorem mem_tableReads {α : Type} {xs : List (Option α)} {i : ℤ} (hi : 0 ≤ i) {r : ℤ × ℕ} (hr : r ∈ tableReads xs i) :
    0 ≤ r.1 ∧ r.1 < r.2 := by
  unfold tableReads at hr
  split at hr
  case isTrue hlt =>
    obtain rfl := List.mem_singleton.mp hr
    exact ⟨hi, hlt⟩
  case isFalse => cases hr

namespace Bench

variable {σ : Type} {T : Target σ}

theorem mem_receiverReads {recvs : List DevPin} {samples : List (Sampling σ)} {b : Bench σ}
    (h : ∀ recv ∈ recvs, 0 ≤ recv.deviceIndex) {r : ℤ × ℕ} (hr : r ∈ receiverReads T recvs samples b) :
    0 ≤ r.1 ∧ r.1 < r.2 := by
  induction recvs generalizing samples b with
  | nil => cases hr
  | cons recv recvs ih =>
    obtain ⟨hhead, htail⟩ := List.forall_mem_cons.mp h
    unfold receiverReads at hr
    obtain hr | hr := List.mem_append.mp hr
    · split at hr
      · cases hr
      · exact mem_tableReads hhead hr
    · split at hr
      · cases hr
      · exact ih htail hr

theorem mem_stepReads {net : NetDef} (hdriver : 0 ≤ net.driver.deviceIndex)
    (hreceivers : ∀ recv ∈ net.receivers, 0 ≤ recv.deviceIndex) {v : ℤ} {b : Bench σ} {r : ℤ × ℕ}
    (hr : r ∈ stepReads T net v b) : 0 ≤ r.1 ∧ r.1 < r.2 := by
  obtain hr | hr := List.mem_append.mp hr
  · exact mem_tableReads hdriver hr
  · split at hr
    · exact mem_receiverReads hreceivers hr
    · cases hr

theorem mem_runReads {nets : List NetDef}
    (h : ∀ net ∈ nets, 0 ≤ net.driver.deviceIndex ∧ ∀ recv ∈ net.receivers, 0 ≤ recv.deviceIndex) {b : Bench σ}
    {r : ℤ × ℕ} (hr : r ∈ runReads T nets b) : 0 ≤ r.1 ∧ r.1 < r.2 := by
  induction nets generalizing b with
  | nil => cases hr
  | cons net nets ih =>
    obtain ⟨⟨hdriver, hreceivers⟩, htail⟩ := List.forall_mem_cons.mp h
    unfold runReads at hr
    obtain hr | hr := List.mem_append.mp hr
    · obtain hr | hr := List.mem_append.mp hr
      · exact mem_stepReads hdriver hreceivers hr
      · split at hr
        · cases hr
        · exact mem_stepReads hdriver hreceivers hr
    · split at hr
      · cases hr
      · exact ih htail hr

end Bench

theorem Spells.nonneg {token : Text} {dp : DevPin} (h : Spells token dp) : 0 ≤ dp.deviceIndex := by
  rw [h.2]
  exact Int.natCast_nonneg _

theorem forall_of_forall₂ {α β : Type} {R : α → β → Prop} {p : β → Prop} (hp : ∀ a b, R a b → p b) {l : List α}
    {l' : List β} (h : List.Forall₂ R l l') : ∀ b ∈ l', p b := by
  induction h with
  | nil => exact fun _ hb => absurd hb List.not_mem_nil
  | cons hhead _ ih => exact List.forall_mem_cons.mpr ⟨hp _ _ hhead, ih⟩

theorem nonneg_of_spells {ls : List (ℕ × List Text)} {nets : List NetDef}
    (h : List.Forall₂ (fun l net => SpellsNet l.2 net) ls nets) :
    ∀ net ∈ nets, 0 ≤ net.driver.deviceIndex ∧ ∀ recv ∈ net.receivers, 0 ≤ recv.deviceIndex := by
  refine forall_of_forall₂ (fun l net hspells => ?_) h
  obtain ⟨driver, receivers, -, hdriver, hreceivers⟩ := hspells
  exact ⟨hdriver.nonneg, forall_of_forall₂ (fun _ _ hspells => hspells.nonneg) hreceivers⟩

/-! ### Validation -/

theorem eq_or_lt_of_mem {pre post : List (ℕ × List Text)} {x l : ℕ × List Text}
    (hpairwise : (pre ++ x :: post).Pairwise fun l l' => l.1 < l'.1) (hl : l ∈ pre ++ x :: post) (hpre : l ∉ pre) :
    l = x ∨ x.1 < l.1 := by
  obtain hl | hl := List.mem_cons.mp ((List.mem_append.mp hl).resolve_left hpre)
  · exact .inl hl
  · exact .inr (List.rel_of_pairwise_cons (List.pairwise_append.mp hpairwise).2.1 hl)

/-- The indices of a text are validated if and only if no line before the first that is refused has a device field with
anything but digits. -/
theorem validated_iff (path contents : Text) : Validated path contents ↔ DigitsOnly contents := by
  have hparse : parseIctFile path (some contents) = parseLines 1 (contents.splitOn '\n') := rfl
  have hpairwise : (linesOf contents).Pairwise fun l l' => l.1 < l'.1 := lt_of_mem_netLines.1
  constructor
  · intro h before l rest heq hbefore hl
    by_contra hdigits
    have hwell : ¬WellFormedNet l.2 := fun hwell => hdigits (wellFormedNet_iff.mp hwell).2
    have hmem : l ∈ linesOf contents := heq ▸ List.mem_append_right before List.mem_cons_self
    obtain ⟨pre, x, post, hsplit, hx, hpre⟩ := @exists_first _ (fun l => ¬WellFormedNet l.2) _ ⟨l, hmem, hwell⟩
    obtain ⟨msg, hmsg⟩ := h.rejected pre x post hsplit (fun l' hl' => not_not.mp (hpre l' hl')) hx
    -- the error names a line up to this one, and the line that is refused comes after it
    have hle : x.1 ≤ l.1 := by
      rw [hsplit] at hpairwise hmem
      obtain rfl | hlt := eq_or_lt_of_mem hpairwise hmem fun hl' => hpre l hl' hwell
      · exact le_refl _
      · exact hlt.le
    by_cases hall : ∃ l' ∈ linesOf contents, RefusedNet l'.2
    · obtain ⟨pre', x', post', hsplit', hx', hpre'⟩ := exists_first hall
      obtain ⟨msg', hmsg'⟩ := parseLines_refused hsplit' hpre' hx'
      have hnum : x.1 = x'.1 := lineError_inj (Except.error.inj (hmsg.symm.trans (hparse.trans hmsg')))
      have hmem' : x' ∈ linesOf contents := hsplit' ▸ List.mem_append_right pre' List.mem_cons_self
      rw [heq] at hpairwise hmem'
      obtain rfl | hlt := eq_or_lt_of_mem hpairwise hmem' fun hl' => hbefore x' hl' hx'
      · exact hl hx'
      · omega
    · push Not at hall
      obtain ⟨nets, hnets, -⟩ := parseLines_taken hall
      cases hmsg.symm.trans (hparse.trans hnets)
  · intro h
    refine ⟨fun nets hnets => ?_, fun before l rest heq hbefore hl => ?_⟩
    · have htaken : ∀ l ∈ linesOf contents, ¬RefusedNet l.2 := by
        by_contra hrefused
        push Not at hrefused
        obtain ⟨pre, x, post, hsplit, hx, hpre⟩ := exists_first hrefused
        obtain ⟨msg, hmsg⟩ := parseLines_refused hsplit hpre hx
        cases hmsg.symm.trans (hparse.symm.trans hnets)
      have hwell : ∀ l ∈ linesOf contents, WellFormedNet l.2 := by
        intro l hl
        obtain ⟨before, rest, heq⟩ := List.append_of_mem hl
        have hbefore : ∀ l' ∈ before, ¬RefusedNet l'.2 := fun l' hl' => htaken l' (heq ▸ List.mem_append_left _ hl')
        exact wellFormedNet_iff.mpr ⟨htaken l hl, h before l rest heq hbefore (htaken l hl)⟩
      obtain ⟨nets', hnets', hall⟩ := parseLines_taken htaken
      obtain rfl : nets' = nets := Except.ok.inj (hnets'.symm.trans (hparse.symm.trans hnets))
      have hspells : List.Forall₂ (fun l net => SpellsNet l.2 net) (linesOf contents) nets' := by
        refine ((List.forall₂_and_left _ _).mpr ⟨hwell, hall⟩).imp fun l net hnet => ?_
        obtain ⟨net', hok, hspells⟩ := parseNet_taken (wellFormedNet_iff.mp hnet.1).1
        obtain rfl : net' = net := Except.ok.inj (hok.symm.trans hnet.2)
        exact hspells hnet.1
      exact ⟨hspells, fun T b r => Bench.mem_runReads (nonneg_of_spells hspells)⟩
    · have hbefore' : ∀ l' ∈ before, ¬RefusedNet l'.2 := fun l' hl' => (wellFormedNet_iff.mp (hbefore l' hl')).1
      have hrefused : RefusedNet l.2 := by
        by_contra htaken
        exact hl (wellFormedNet_iff.mpr ⟨htaken, h before l rest heq hbefore' htaken⟩)
      exact parseLines_refused heq hbefore' hrefused

/-- A sign is taken for part of a number: the text is accepted, and every test of its net reads before the table of
drivers. -/
theorem signed_index_accepted :
    parseIctFile [] (some "N -1:A 0:B".toList) = .ok [⟨"N".toList, ⟨-1, "A".toList⟩, [⟨0, "B".toList⟩]⟩] ∧
    (∀ (b : Bench Unit) (T : Target Unit), ∃ r ∈ Bench.runReads T [⟨"N".toList, ⟨-1, "A".toList⟩, [⟨0, "B".toList⟩]⟩] b,
      r.1 = -1) ∧
    ¬Validated [] "N -1:A 0:B".toList := by
  have hparse : parseIctFile [] (some "N -1:A 0:B".toList) = .ok [⟨"N".toList, ⟨-1, "A".toList⟩, [⟨0, "B".toList⟩]⟩] := by
    decide
  refine ⟨hparse, fun b T => ?_, fun h => ?_⟩
  · have hread : ((-1 : ℤ), b.drivers.length) ∈ tableReads b.drivers (-1) := by
      rw [tableReads, if_pos (by omega)]
      exact List.mem_singleton_self _
    exact ⟨_, List.mem_append_left _ (List.mem_append_left _ (List.mem_append_left _ hread)), rfl⟩
  · obtain ⟨hspells, -⟩ := h.accepted _ hparse
    exact absurd (nonneg_of_spells hspells _ List.mem_cons_self).1 (by decide)

end OwlTap.BoundaryScan
