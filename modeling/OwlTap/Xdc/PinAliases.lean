import OwlTap.Base.Lines
import OwlTap.Xdc.XdcParser

/-!
# The aliases of a constraint file

A constraint line gives a package pin to a port (`Constraint`). `parseXdc` records the alias of each
line whose pin has none yet if and only if the first word `PACKAGE_PIN` in the text up to the first closing brace has the
pin behind it, `get_ports` is not in the rest of the dict, and there is no closing bracket in what trails
the line (`extracts_iff`): the name of the port ends where the last bracket of the line is.
-/

namespace OwlTap.Xdc

open OwlTap Bsdl BoundaryScan

/-- A line `set_property -dict { ... PACKAGE_PIN p ... } [get_ports { name }]`, or with the name alone. -/
structure Constraint where
  /-- Whitespace, by the place that it has in the line. -/
  gap : ℕ → Text
  /-- The properties before the pin. -/
  before : Text
  pin : Text
  /-- The properties behind the pin. -/
  after : Text
  /-- The name is in braces. -/
  braced : Bool
  name : Text
  /-- A semicolon or not, and a comment or none. -/
  trailing : Text
  gaps : ∀ i, ∀ c ∈ gap i, BSDLParser.isSpace c = true ∧ c ≠ '\n'
  beforePin : before.getLast?.all BSDLParser.isSpace
  betweenPin : gap 3 ≠ []
  afterPin : after.head?.all BSDLParser.isSpace
  pinWord : pin ≠ [] ∧ ∀ c ∈ pin, BSDLParser.isSpace c = false
  nameWord : name ≠ [] ∧ ∀ c ∈ name, BSDLParser.isSpace c = false ∧ c ≠ '{' ∧ c ≠ '}'
  oneLine : '\n' ∉ before ∧ '\n' ∉ after ∧ '\n' ∉ trailing

namespace Constraint

variable (line : Constraint)

/-- What is before the dict. -/
def front : Text := "set_property".toList ++ line.gap 1 ++ "-dict".toList ++ line.gap 2

/-- What is in the dict. -/
def dict : Text := line.before ++ ("PACKAGE_PIN".toList ++ (line.gap 3 ++ (line.pin ++ line.after)))

/-- The dict up to its first closing brace. -/
def seen : Text := line.dict.takeWhile (· ≠ '}')

/-- What is left of the dict from there on. -/
def leftover : Text := line.dict.dropWhile (· ≠ '}')

/-- The name, with its braces if it has them. -/
def port : Text :=
  if line.braced then '{' :: (line.gap 6 ++ line.name ++ line.gap 7) ++ ['}'] else line.name

/-- What is behind `get_ports`, up to the bracket that closes it. -/
def ports : Text := line.gap 8 ++ line.port ++ line.gap 9

/-- What is behind the dict, up to `get_ports`. -/
def between : Text := '}' :: (line.gap 4 ++ '[' :: line.gap 5)

/-- The line without what is before it. -/
def core (trailing : Text) : Text :=
  line.front ++ '{' :: (line.dict ++ (line.between ++ ("get_ports".toList ++ (line.ports ++ ']' :: trailing))))

def text : Text := line.gap 0 ++ line.core line.trailing

/-- The pin in uppercase. -/
def key : Text := line.pin.map Char.toUpper

/-- What the searches need to find the pin and the name. -/
structure Readable : Prop where
  /-- The pin is behind the first word that is its key. -/
  firstPin : (wordAfter "PACKAGE_PIN".toList (words line.seen)).map Char.toUpper = line.key
  /-- The keyword of the port is not in the dict, behind a closing brace. -/
  noPorts : ¬"get_ports".toList <:+: line.leftover
  /-- There is no closing bracket behind that of the port. -/
  noBracket : ']' ∉ line.trailing

end Constraint

/-- A line is extracted behind earlier lines that give its pin no alias, and lines that are commented out record nothing. -/
structure Extracts (earlier : List Text) (line : Constraint) : Prop where
  recorded : ∀ contents later, Script.getlines contents = earlier ++ line.text :: later →
    (parseXdc (some contents)).lookup line.key = some line.name
  commented : ∀ contents contents' indent comment later, Spaces indent →
    Script.getlines contents = earlier ++ (indent ++ '#' :: comment) :: later →
    Script.getlines contents' = earlier ++ later → parseXdc (some contents) = parseXdc (some contents')

/-! ### The searches in a line -/

theorem rfind_append {c : Char} (a : Text) {b : Text} (h : c ∉ b) : rfind c (a ++ c :: b) = some a.length := by
  have hb : c ∉ b.reverse := fun hmem => h (List.mem_reverse.mp hmem)
  have hidx : (a ++ c :: b).reverse.idxOf c = b.length := by
    rw [List.reverse_append, List.reverse_cons, List.append_assoc, List.idxOf_append_of_notMem hb, List.singleton_append,
      List.idxOf_cons_self, Nat.add_zero, List.length_reverse]
  rw [rfind, if_pos (List.mem_append_right a List.mem_cons_self), hidx, List.length_append, List.length_cons]
  congr 1
  omega

theorem rfind_isSome {c : Char} {s : Text} (h : c ∈ s) : ∃ i, rfind c s = some i := ⟨_, if_pos h⟩

theorem rfind_of_notMem {c : Char} {s : Text} (h : c ∉ s) : rfind c s = none := if_neg h

/-- A single character is found at its first place. -/
theorem indexOf_singleton {c : Char} {a : Text} (h : c ∉ a) (b : Text) : indexOf [c] (a ++ c :: b) = some a.length := by
  rw [indexOf_append_of_notMem h, indexOf_of_begins (List.cons_prefix_cons.mpr ⟨rfl, List.nil_prefix⟩)]
  rfl

/-- The pin of a line with a dict. -/
theorem linePin_split {front seen rest : Text} (hfront : '{' ∉ front) (hseen : '}' ∉ seen) :
    linePin (front ++ '{' :: (seen ++ '}' :: rest)) =
      if wordAfter "PACKAGE_PIN".toList (words seen) = [] then none
      else some ((wordAfter "PACKAGE_PIN".toList (words seen)).map Char.toUpper, (front ++ '{' :: seen).length) := by
  have hopen : findFrom ['{'] (front ++ '{' :: (seen ++ '}' :: rest)) 0 = some front.length := by
    rw [findFrom, List.drop_zero, indexOf_singleton hfront, Option.map_some, Nat.zero_add]
  have hdrop : (front ++ '{' :: (seen ++ '}' :: rest)).drop (front.length + 1) = seen ++ '}' :: rest := by
    rw [← List.drop_drop, List.drop_left]
    rfl
  have hclose : findFrom ['}'] (front ++ '{' :: (seen ++ '}' :: rest)) (front.length + 1) =
      some (front.length + 1 + seen.length) := by
    rw [findFrom, hdrop, indexOf_singleton hseen, Option.map_some]
  have hlength : front.length + 1 + seen.length - front.length - 1 = seen.length := by omega
  have hat : front.length + 1 + seen.length = (front ++ '{' :: seen).length := by
    rw [List.length_append, List.length_cons]
    omega
  rw [linePin, hopen, Option.bind_eq_bind, Option.bind_some, hclose, Option.bind_some, hdrop, hlength, List.take_left,
    hat]
  dsimp only
  rw [dictValue_eq (by decide) (by decide)]

/-- The name between `get_ports` and the last bracket. -/
def portOf (inner : Text) : Text := trimStr (stripWrap (trimStr inner) '{' '}')

/-- The port of a line, if there is an opening bracket. -/
theorem linePort_split {front mid inner trail : Text}
    (hfind : indexOf "get_ports".toList (mid ++ ("get_ports".toList ++ (inner ++ ']' :: trail))) = some mid.length)
    (htrail : ']' ∉ trail) :
    linePort (front ++ (mid ++ ("get_ports".toList ++ (inner ++ ']' :: trail)))) front.length =
      if '[' ∈ front ++ mid ∧ portOf inner ≠ [] then some (portOf inner) else none := by
  have hgp : findFrom "get_ports".toList (front ++ (mid ++ ("get_ports".toList ++ (inner ++ ']' :: trail)))) front.length =
      some (front ++ mid).length := by
    rw [findFrom, List.drop_left, hfind, Option.map_some, List.length_append]
  have htake : (front ++ (mid ++ ("get_ports".toList ++ (inner ++ ']' :: trail)))).take ((front ++ mid).length + 1) =
      front ++ mid ++ ['g'] := by
    rw [← List.append_assoc, List.take_append, List.take_of_length_le (Nat.le_succ _), Nat.add_sub_cancel_left]
    rfl
  have hclose : rfind ']' (front ++ (mid ++ ("get_ports".toList ++ (inner ++ ']' :: trail)))) =
      some (front ++ (mid ++ ("get_ports".toList ++ inner))).length := by
    rw [← rfind_append (front ++ (mid ++ ("get_ports".toList ++ inner))) htrail]
    simp only [List.append_assoc]
  have hinner : ((front ++ (mid ++ ("get_ports".toList ++ (inner ++ ']' :: trail)))).drop
      ((front ++ mid).length + "get_ports".toList.length)).take
        ((front ++ (mid ++ ("get_ports".toList ++ inner))).length - ((front ++ mid).length + "get_ports".toList.length)) =
      inner := by
    have hlength : (front ++ (mid ++ ("get_ports".toList ++ inner))).length -
        ((front ++ mid).length + "get_ports".toList.length) = inner.length := by
      simp only [List.length_append]
      omega
    have hdrop : (front ++ (mid ++ ("get_ports".toList ++ (inner ++ ']' :: trail)))).drop
        ((front ++ mid).length + "get_ports".toList.length) = inner ++ ']' :: trail := by
      rw [← List.append_assoc, ← List.drop_drop, List.drop_left, List.drop_left]
    rw [hlength, hdrop, List.take_left]
  have horder : ¬(front ++ (mid ++ ("get_ports".toList ++ inner))).length < (front ++ mid).length := by
    simp only [List.length_append]
    omega
  by_cases hopen : '[' ∈ front ++ mid
  · obtain ⟨i, hi⟩ := rfind_isSome (List.mem_append_left ['g'] hopen)
    rw [linePort, hgp, Option.bind_eq_bind, Option.bind_some, htake, hi, Option.bind_some, hclose, Option.bind_some,
      if_neg horder]
    dsimp only
    rw [hinner]
    by_cases hempty : portOf inner = []
    · refine (if_pos hempty).trans ?_
      rw [if_neg fun h => h.2 hempty]
    · refine (if_neg hempty).trans ?_
      rw [if_pos ⟨hopen, hempty⟩]
      rfl
  · have hno : '[' ∉ front ++ mid ++ ['g'] := by
      rw [List.mem_append, not_or]
      exact ⟨hopen, by decide⟩
    rw [linePort, hgp, Option.bind_eq_bind, Option.bind_some, htake, rfind_of_notMem hno, if_neg fun h => hopen h.1]
    rfl

/-- What is neither whitespace nor a brace is in the name as often as it is between. -/
theorem count_portOf {c : Char} (hc : BSDLParser.isSpace c = false) (ho : c ≠ '{') (hl : c ≠ '}') (inner : Text) :
    (portOf inner).count c = inner.count c := by
  rw [portOf, count_trimStr hc, count_stripWrap hc ho hl, count_trimStr hc]

/-! ### What is read of a constraint -/

namespace Constraint

variable {line : Constraint}

/-- As a rewriting rule. -/
theorem front_eq (line : Constraint) :
    line.front = "set_property".toList ++ line.gap 1 ++ "-dict".toList ++ line.gap 2 := rfl

theorem spaces_gap (line : Constraint) (i : ℕ) : Spaces (line.gap i) := fun c hc => (line.gaps i c hc).1

theorem name_edges (line : Constraint) : (∀ c ∈ line.name.head?, BSDLParser.isSpace c = false) ∧
    ∀ c ∈ line.name.getLast?, BSDLParser.isSpace c = false :=
  ⟨fun c hc => (line.nameWord.2 c (List.mem_of_head? hc)).1, fun c hc => (line.nameWord.2 c (List.mem_of_getLast? hc)).1⟩

/-- Between `get_ports` and its bracket is the name, with or without braces. -/
theorem portOf_ports (line : Constraint) : portOf line.ports = line.name := by
  obtain ⟨hhead, hlast⟩ := line.name_edges
  have hname : trimStr line.name = line.name := by
    have htrim := @trimStr_around [] line.name [] (spaces_nil) (spaces_nil) hhead hlast
    rwa [List.nil_append, List.append_nil] at htrim
  by_cases hbraced : line.braced = true
  · have hport : line.port = '{' :: (line.gap 6 ++ line.name ++ line.gap 7) ++ ['}'] := if_pos hbraced
    have houter : trimStr line.ports = line.port := by
      refine trimStr_around (line.spaces_gap 8) (line.spaces_gap 9) ?_ ?_
      · rw [hport]
        rintro c ⟨⟩
        rfl
      · rw [hport, List.getLast?_concat]
        rintro c ⟨⟩
        rfl
    have hstrip : stripWrap line.port '{' '}' = line.name := by
      have hlen : 2 ≤ line.port.length := by
        rw [hport, List.length_append, List.length_cons, List.length_singleton]
        omega
      have hends : line.port.head? = some '{' ∧ line.port.getLast? = some '}' := by
        rw [hport, List.getLast?_concat]
        exact ⟨rfl, rfl⟩
      rw [stripWrap, if_pos ⟨hlen, hends⟩, hport, List.cons_append, List.tail_cons, List.dropLast_concat]
      exact trimStr_around (line.spaces_gap 6) (line.spaces_gap 7) hhead hlast
    rw [portOf, houter, hstrip, hname]
  · have hport : line.port = line.name := if_neg hbraced
    have houter : trimStr line.ports = line.name := by
      rw [ports, hport]
      exact trimStr_around (line.spaces_gap 8) (line.spaces_gap 9) hhead hlast
    have hstrip : stripWrap line.name '{' '}' = line.name := by
      refine if_neg fun h => ?_
      exact (line.nameWord.2 '{' (List.mem_of_head? h.2.1)).2.1 rfl
    rw [portOf, houter, hstrip, hname]

theorem dict_eq (line : Constraint) : line.dict = line.seen ++ line.leftover := (List.takeWhile_append_dropWhile).symm

/-- What is left of the dict begins with a brace, as what is behind it does. -/
theorem leftover_between (line : Constraint) (rest : Text) :
    ∃ rest', line.leftover ++ (line.between ++ rest) = '}' :: rest' := by
  cases hleft : line.leftover with
  | nil => exact ⟨_, rfl⟩
  | cons c left =>
    have hc := List.head?_dropWhile_not (· ≠ '}') line.dict
    rw [← leftover, hleft] at hc
    have hbrace : c = '}' := by simpa using hc
    exact ⟨_, congrArg (· :: _) hbrace⟩

/-- The line begins with its first word, and ends with its last bracket or what trails it. -/
theorem trimStr_text (line : Constraint) :
    trimStr line.text = line.core (line.trailing.rdropWhile BSDLParser.isSpace) := by
  have hsplit : line.core line.trailing =
      line.core (line.trailing.rdropWhile BSDLParser.isSpace) ++ line.trailing.rtakeWhile BSDLParser.isSpace := by
    conv_lhs => rw [← @List.rdropWhile_append_rtakeWhile _ BSDLParser.isSpace line.trailing]
    simp only [core, List.append_assoc, List.cons_append]
  have hlast : ∀ c ∈ (line.core (line.trailing.rdropWhile BSDLParser.isSpace)).getLast?, BSDLParser.isSpace c = false := by
    intro c hc
    have hend : (']' :: line.trailing.rdropWhile BSDLParser.isSpace).getLast? = some c := by
      rw [← hc]
      simp only [core, ← List.append_assoc, ← List.cons_append]
      rw [List.getLast?_append_of_ne_nil _ (List.cons_ne_nil _ _)]
    by_cases hempty : line.trailing.rdropWhile BSDLParser.isSpace = []
    · rw [hempty] at hend
      obtain rfl := Option.some.inj hend
      rfl
    · rw [List.getLast?_cons_of_ne_nil hempty, List.getLast?_eq_some_getLast hempty] at hend
      rw [← Option.some.inj hend]
      exact Bool.eq_false_iff.mpr (List.rdropWhile_last_not _ _ hempty)
  rw [text, hsplit, ← List.append_assoc]
  refine trimStr_around (line.spaces_gap 0) (fun c hc => ?_) ?_ hlast
  · exact List.mem_rtakeWhile_imp hc
  · rintro c ⟨⟩
    rfl

theorem core_cons (line : Constraint) (rest : Text) : ∃ tail, line.core rest = 's' :: tail := ⟨_, rfl⟩

/-- Nothing that a line needs is missing. -/
theorem parseLine_text (line : Constraint) : parseLine line.text =
    (linePin (line.core (line.trailing.rdropWhile BSDLParser.isSpace))).bind fun (pkgPin, dictClose) =>
      (linePort (line.core (line.trailing.rdropWhile BSDLParser.isSpace)) dictClose).map fun portExpr => (pkgPin, portExpr) := by
  generalize hrest : line.trailing.rdropWhile BSDLParser.isSpace = rest
  have hpin : "PACKAGE_PIN".toList <:+: line.core rest := by
    refine ⟨line.front ++ '{' :: line.before, line.gap 3 ++ (line.pin ++ line.after) ++ (line.between ++
      ("get_ports".toList ++ (line.ports ++ ']' :: rest))), ?_⟩
    simp only [core, dict, List.append_assoc, List.cons_append]
  have hports : "get_ports".toList <:+: line.core rest := by
    refine ⟨line.front ++ '{' :: (line.dict ++ line.between), line.ports ++ ']' :: rest, ?_⟩
    simp only [core, List.append_assoc, List.cons_append]
  have hproperty : "set_property".toList <+: line.core rest := by
    refine ⟨line.gap 1 ++ "-dict".toList ++ line.gap 2 ++ '{' :: (line.dict ++ (line.between ++
      ("get_ports".toList ++ (line.ports ++ ']' :: rest)))), ?_⟩
    simp only [core, front_eq, List.append_assoc]
  have hstart : ¬(line.core rest = [] ∨ (line.core rest).head? = some '#') := by
    obtain ⟨tail, htail⟩ := line.core_cons rest
    rw [htail]
    rintro (h | h)
    · exact absurd h (List.cons_ne_nil _ _)
    · exact absurd (Option.some.inj h) (by decide)
  rw [parseLine, trimStr_text, hrest]
  dsimp only
  rw [if_neg hstart, if_neg (not_not_intro hproperty), if_neg fun h => not_infix_of_indexOf h hpin,
    if_neg fun h => not_infix_of_indexOf h hports]

theorem linePin_core (line : Constraint) (rest : Text) : linePin (line.core rest) =
    if wordAfter "PACKAGE_PIN".toList (words line.seen) = [] then none
    else some ((wordAfter "PACKAGE_PIN".toList (words line.seen)).map Char.toUpper, (line.front ++ '{' :: line.seen).length) := by
  obtain ⟨rest', hrest⟩ := line.leftover_between ("get_ports".toList ++ (line.ports ++ ']' :: rest))
  have hfront : '{' ∉ line.front := by
    have hgap : ∀ i, '{' ∉ line.gap i := fun i => (line.spaces_gap i).notMem (by decide)
    have hproperty : '{' ∉ "set_property".toList := by decide
    have hdict : '{' ∉ "-dict".toList := by decide
    rw [front_eq, List.mem_append, List.mem_append, List.mem_append]
    rintro (((h | h) | h) | h)
    · exact hproperty h
    · exact hgap 1 h
    · exact hdict h
    · exact hgap 2 h
  have hseen : '}' ∉ line.seen := by
    intro hmem
    have hne := List.mem_takeWhile_imp hmem
    exact of_decide_eq_true hne rfl
  rw [core, dict_eq, List.append_assoc, hrest, linePin_split hfront hseen]

theorem between_has_bracket (line : Constraint) : '[' ∈ line.between :=
  List.mem_cons_of_mem _ (List.mem_append_right _ List.mem_cons_self)

/-- A bracket is between `get_ports` and its own bracket as often as in the name. -/
theorem count_ports (line : Constraint) {c : Char} (hc : BSDLParser.isSpace c = false) (ho : c ≠ '{') (hl : c ≠ '}') :
    line.ports.count c = line.name.count c := by
  rw [← count_portOf hc ho hl, line.portOf_ports]

/-- The search for the keyword of the port ends at the port, if nothing before is taken for it. -/
theorem indexOf_ports (line : Constraint) (h : ¬"get_ports".toList <:+: line.leftover) (rest : Text) :
    indexOf "get_ports".toList (line.leftover ++ line.between ++ ("get_ports".toList ++ rest)) =
      some (line.leftover ++ line.between).length := by
  have hword : "get_ports".toList = 'g' :: "et_ports".toList := rfl
  have hg : 'g' ∉ line.gap 4 ++ '[' :: line.gap 5 := by
    rw [List.mem_append, List.mem_cons]
    rintro (h | h | h)
    · exact (line.spaces_gap 4).notMem (by decide) h
    · exact absurd h (by decide)
    · exact (line.spaces_gap 5).notMem (by decide) h
  rw [between, List.append_assoc, List.cons_append, indexOf_append_cons_of_not_infix h (by decide)]
  conv_lhs => rw [hword]
  rw [indexOf_append_of_notMem hg, ← hword, indexOf_of_begins (List.prefix_append _ _)]
  simp only [Option.map_some, List.length_append, List.length_cons, Option.some.injEq]
  omega

/-- The port is read as it stands if and only if neither search ends elsewhere. -/
theorem linePort_core (line : Constraint) (rest : Text) :
    linePort (line.core rest) (line.front ++ '{' :: line.seen).length = some line.name ↔
      ¬"get_ports".toList <:+: line.leftover ∧ ']' ∉ rest := by
  obtain ⟨inner, trail, hlast, htrail⟩ := exists_last (@List.mem_cons_self _ ']' rest)
  have hcore : line.core rest = (line.front ++ '{' :: line.seen) ++ (line.leftover ++ line.between ++
      ("get_ports".toList ++ (line.ports ++ inner ++ ']' :: trail))) := by
    rw [core, dict_eq, hlast]
    simp only [List.append_assoc, List.cons_append]
  by_cases hports : "get_ports".toList <:+: line.leftover
  · -- The keyword is found in the dict: what is read has one opening bracket more than the name.
    refine ⟨fun h => ?_, fun h => absurd hports h.1⟩
    obtain ⟨i, hi⟩ : ∃ i, indexOf "get_ports".toList line.leftover = some i := by
      cases hfind : indexOf "get_ports".toList line.leftover with
      | none => exact absurd hports (not_infix_of_indexOf hfind)
      | some i => exact ⟨i, rfl⟩
    obtain ⟨left, hleft⟩ := prefix_of_indexOf hi
    have hsplit : line.leftover = line.leftover.take i ++ ("get_ports".toList ++ left) := by
      rw [hleft, List.take_append_drop]
    have hlength : (line.leftover.take i).length = i := by
      have hle := le_of_indexOf hi (by decide)
      rw [List.length_take]
      omega
    have hall : line.leftover ++ line.between ++ ("get_ports".toList ++ (line.ports ++ inner ++ ']' :: trail)) =
        line.leftover.take i ++ ("get_ports".toList ++ (left ++ line.between ++ ("get_ports".toList ++
          (line.ports ++ inner)) ++ ']' :: trail)) := by
      conv_lhs => rw [hsplit]
      simp only [List.append_assoc]
    have hfind : indexOf "get_ports".toList (line.leftover.take i ++ ("get_ports".toList ++ (left ++ line.between ++
        ("get_ports".toList ++ (line.ports ++ inner)) ++ ']' :: trail))) = some (line.leftover.take i).length := by
      rw [← hall, List.append_assoc, indexOf_append_of_eq_some hi, hlength]
    rw [hcore, hall, linePort_split hfind htrail] at h
    split at h
    case isFalse => cases h
    case isTrue =>
      have hcount := congrArg (List.count '[') (Option.some.inj h)
      have hbracket := List.count_pos_iff.mpr line.between_has_bracket
      rw [count_portOf (by decide) (by decide) (by decide)] at hcount
      simp only [List.count_append] at hcount
      rw [line.count_ports (by decide) (by decide) (by decide)] at hcount
      omega
  · have hbracket : '[' ∈ (line.front ++ '{' :: line.seen) ++ (line.leftover ++ line.between) :=
      List.mem_append_right _ (List.mem_append_right _ line.between_has_bracket)
    rw [hcore, linePort_split (line.indexOf_ports hports _) htrail]
    cases inner with
    | nil =>
      -- The last bracket of the line is that of the port.
      obtain rfl := (List.cons.inj hlast).2
      rw [List.append_nil, line.portOf_ports, if_pos ⟨hbracket, line.nameWord.1⟩]
      exact ⟨fun _ => ⟨hports, htrail⟩, fun _ => rfl⟩
    | cons c inner =>
      -- The last bracket is behind it: what is read has one closing bracket more than the name.
      obtain ⟨rfl, hrest⟩ := List.cons.inj hlast
      have hmem : ']' ∈ rest := by
        rw [hrest]
        exact List.mem_append_right _ List.mem_cons_self
      refine ⟨fun h => ?_, fun h => absurd hmem h.2⟩
      split at h
      case isFalse => cases h
      case isTrue =>
        have hcount := congrArg (List.count ']') (Option.some.inj h)
        rw [count_portOf (by decide) (by decide) (by decide), List.count_append, List.count_cons_self,
          line.count_ports (by decide) (by decide) (by decide)] at hcount
        omega

/-- The alias of a line is read if and only if the line is readable. -/
theorem parseLine_iff (line : Constraint) : parseLine line.text = some (line.key, line.name) ↔ line.Readable := by
  have hbrackets : ']' ∈ line.trailing.rdropWhile BSDLParser.isSpace ↔ ']' ∈ line.trailing := by
    conv_rhs => rw [← @List.rdropWhile_append_rtakeWhile _ BSDLParser.isSpace line.trailing, List.mem_append]
    refine ⟨Or.inl, fun h => h.resolve_right fun hmem => ?_⟩
    exact absurd (List.mem_rtakeWhile_imp hmem) (by decide)
  have hkey : line.key ≠ [] := fun h => line.pinWord.1 (List.map_eq_nil_iff.mp h)
  have hport := line.linePort_core (line.trailing.rdropWhile BSDLParser.isSpace)
  rw [parseLine_text, linePin_core]
  by_cases hpin : wordAfter "PACKAGE_PIN".toList (words line.seen) = []
  · rw [if_pos hpin]
    refine ⟨fun h => ?_, fun h => ?_⟩
    · cases h
    · have hfirst := h.firstPin
      rw [hpin] at hfirst
      exact absurd hfirst.symm hkey
  · rw [if_neg hpin, Option.bind_some]
    dsimp only
    refine ⟨fun h => ?_, fun h => ?_⟩
    · obtain ⟨name, hname, hentry⟩ := Option.map_eq_some_iff.mp h
      obtain ⟨hfirst, rfl⟩ := Prod.mk.inj hentry
      obtain ⟨hports, hbracket⟩ := hport.mp hname
      exact ⟨hfirst, hports, fun hmem => hbracket (hbrackets.mpr hmem)⟩
    · rw [hport.mpr ⟨h.noPorts, fun hmem => h.noBracket (hbrackets.mp hmem)⟩, h.firstPin]
      rfl

end Constraint

/-! ### The lines of a file -/

/-- An alias that is there stays. -/
theorem lookup_addLine {result : PinAliasMap} {pin name : Text} (h : result.lookup pin = some name) (line : Text) :
    (addLine result line).lookup pin = some name := by
  rw [addLine]
  cases parseLine line with
  | none => exact h
  | some entry =>
    dsimp only
    rw [emplace]
    split
    case isTrue => exact h
    case isFalse hnew =>
      have hne : pin ≠ entry.1 := by
        rintro rfl
        rw [← AList.lookup_eq_none, h] at hnew
        cases hnew
      rw [AList.lookup_insert_ne hne, h]

theorem lookup_addLines {result : PinAliasMap} {pin name : Text} (h : result.lookup pin = some name) (lines : List Text) :
    (lines.foldl addLine result).lookup pin = some name := by
  induction lines generalizing result with
  | nil => exact h
  | cons line lines ih => exact ih (lookup_addLine h line)

/-- The alias of a line is recorded if the pin has none. -/
theorem lookup_addLine_iff {result : PinAliasMap} {pin name line : Text} (hnew : result.lookup pin = none) :
    (addLine result line).lookup pin = some name ↔ parseLine line = some (pin, name) := by
  rw [addLine]
  cases parseLine line with
  | none =>
    dsimp only
    rw [hnew]
    exact iff_of_false (Option.some_ne_none name).symm (Option.some_ne_none (pin, name)).symm
  | some entry =>
    obtain ⟨pin', name'⟩ := entry
    dsimp only
    by_cases hpin : pin = pin'
    · subst hpin
      have hnotMem : pin ∉ result := AList.lookup_eq_none.mp hnew
      rw [emplace, if_neg hnotMem, AList.lookup_insert, Option.some.injEq, Option.some.injEq, Prod.mk.injEq]
      exact ⟨fun h => ⟨rfl, h⟩, fun h => h.2⟩
    · have hother : (emplace result (pin', name')).lookup pin = none := by
        rw [emplace]
        split
        case isTrue => exact hnew
        case isFalse => rw [AList.lookup_insert_ne hpin, hnew]
      rw [hother]
      refine ⟨fun h => ?_, fun h => ?_⟩
      · cases h
      · exact absurd (Prod.mk.inj (Option.some.inj h)).1.symm hpin

/-- A line that is commented out has no alias. -/
theorem parseLine_commented {indent : Text} (h : Spaces indent) (comment : Text) : parseLine (indent ++ '#' :: comment) = none := by
  have hdrop : (indent ++ '#' :: comment).dropWhile BSDLParser.isSpace = '#' :: comment := by
    rw [List.dropWhile_append_of_pos h, List.dropWhile_cons_of_neg (by decide)]
  have hhead : (trimStr (indent ++ '#' :: comment)).head? = some '#' := by
    have hne : ('#' :: comment).rdropWhile BSDLParser.isSpace ≠ [] := by
      rw [Ne, List.rdropWhile_eq_nil_iff]
      exact fun hspaces => absurd (hspaces '#' List.mem_cons_self) (by decide)
    obtain ⟨c, kept, hkept⟩ := List.exists_cons_of_ne_nil hne
    have hprefix := List.rdropWhile_prefix BSDLParser.isSpace ('#' :: comment)
    rw [hkept] at hprefix
    obtain rfl := (List.cons_prefix_cons.mp hprefix).1
    rw [trimStr, hdrop, ← List.rdropWhile, hkept, List.head?_cons]
  exact if_pos (Or.inr hhead)

theorem getlines_unlines {lines : List Text} (h : ∀ line ∈ lines, '\n' ∉ line) : Script.getlines (unlines lines) = lines := by
  rw [Script.getlines, splitOn_unlines h, List.getLast?_concat, if_pos rfl, List.dropLast_concat]

theorem Constraint.text_oneLine (line : Constraint) : '\n' ∉ line.text := by
  have hgap : ∀ i, '\n' ∉ line.gap i := fun i hmem => (line.gaps i _ hmem).2 rfl
  have hpin : '\n' ∉ line.pin := fun hmem => absurd (line.pinWord.2 _ hmem) (by decide)
  have hname : '\n' ∉ line.name := fun hmem => absurd (line.nameWord.2 _ hmem).1 (by decide)
  have hcons : ∀ {c : Char} {s : Text}, '\n' ≠ c → '\n' ∉ s → '\n' ∉ c :: s := fun hc hs =>
    List.not_mem_cons_of_ne_of_not_mem hc hs
  have hfront : '\n' ∉ line.front := by
    rw [front_eq]
    exact List.not_mem_append (List.not_mem_append (List.not_mem_append (by decide) (hgap 1)) (by decide)) (hgap 2)
  have hdict : '\n' ∉ line.dict :=
    List.not_mem_append line.oneLine.1 (List.not_mem_append (by decide)
      (List.not_mem_append (hgap 3) (List.not_mem_append hpin line.oneLine.2.1)))
  have hbetween : '\n' ∉ line.between :=
    hcons (by decide) (List.not_mem_append (hgap 4) (hcons (by decide) (hgap 5)))
  have hport : '\n' ∉ line.port := by
    rw [port]
    split
    · exact List.not_mem_append (hcons (by decide) (List.not_mem_append (List.not_mem_append (hgap 6) hname) (hgap 7)))
        (by decide)
    · exact hname
  have hports : '\n' ∉ line.ports := List.not_mem_append (List.not_mem_append (hgap 8) hport) (hgap 9)
  rw [text, core]
  exact List.not_mem_append (hgap 0) (List.not_mem_append hfront (hcons (by decide) (List.not_mem_append hdict
    (List.not_mem_append hbetween (List.not_mem_append (by decide) (List.not_mem_append hports
      (hcons (by decide) line.oneLine.2.2)))))))

/-- A file is the run of its lines. -/
theorem parseXdc_getlines {contents : Text} {lines : List Text} (h : Script.getlines contents = lines) :
    parseXdc (some contents) = lines.foldl addLine ∅ := by
  subst h
  rfl

variable {earlier : List Text} {line : Constraint}

/-- A line whose alias is recorded is readable. -/
theorem Extracts.readable (h : Extracts earlier line) (hearlier : ∀ l ∈ earlier, '\n' ∉ l)
    (hnew : (parseXdc (some (unlines earlier))).lookup line.key = none) : line.Readable := by
  have hlines : Script.getlines (unlines (earlier ++ [line.text])) = earlier ++ [line.text] :=
    getlines_unlines (List.forall_mem_append.mpr ⟨hearlier, List.forall_mem_singleton.mpr line.text_oneLine⟩)
  have hrecorded := h.recorded _ _ hlines
  rw [parseXdc_getlines (getlines_unlines hearlier)] at hnew
  rw [parseXdc_getlines hlines, List.foldl_append] at hrecorded
  exact line.parseLine_iff.mp ((lookup_addLine_iff hnew).mp hrecorded)

/-- The alias of a line is recorded, behind earlier lines that give its pin none, if and only if the line is readable;
lines that are commented out record nothing. -/
theorem extracts_iff (earlier : List Text) (line : Constraint) (hearlier : ∀ l ∈ earlier, '\n' ∉ l)
    (hnew : (parseXdc (some (unlines earlier))).lookup line.key = none) : Extracts earlier line ↔ line.Readable := by
  refine ⟨fun h => h.readable hearlier hnew, fun h => ⟨fun contents later hlines => ?_,
    fun contents contents' indent comment later hspaces hlines hlines' => ?_⟩⟩
  · rw [parseXdc_getlines (getlines_unlines hearlier)] at hnew
    rw [parseXdc_getlines hlines, List.foldl_append, List.foldl_cons]
    exact lookup_addLines ((lookup_addLine_iff hnew).mpr (line.parseLine_iff.mpr h)) later
  · rw [parseXdc_getlines hlines, parseXdc_getlines hlines', List.foldl_append, List.foldl_append, List.foldl_cons,
      addLine, parseLine_commented hspaces]

/-- A line for pin M14, with or without the port's name in the comment behind it. -/
def ledLine (remark : Bool) : Constraint where
  gap _ := [' ']
  before := [' ']
  pin := "M14".toList
  after := " IOSTANDARD LVCMOS33 ".toList
  braced := true
  name := "led[0]".toList
  trailing := if remark then "; # Sch=led[0]".toList else ";".toList
  gaps _ := List.forall_mem_singleton.mpr (by decide)
  beforePin := rfl
  betweenPin := List.cons_ne_nil _ _
  afterPin := rfl
  pinWord := by decide
  nameWord := by decide
  oneLine := by cases remark <;> decide

theorem extracts_led : Extracts [] (ledLine false) ↔ (ledLine false).Readable :=
  extracts_iff [] (ledLine false) (fun _ hl => absurd hl List.not_mem_nil) rfl

/-- A comment that ends with a subscript is taken into the name of the port. -/
theorem led_remark_not_extracted :
    (parseXdc (some (unlines []))).lookup (ledLine true).key = none ∧ ¬Extracts [] (ledLine true) := by
  refine ⟨rfl, fun h => ?_⟩
  have hreadable := h.readable (fun _ hl => absurd hl List.not_mem_nil) rfl
  exact hreadable.noBracket (by decide)

end OwlTap.Xdc
