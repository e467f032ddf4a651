import OwlTap.Gui.AppConfigItems

/-!
# Settings that load back

A setting is searched for by its key in the whole file, and the parts of a bus or a lane by theirs in the text
up to the next closing brace. So settings load back unchanged where no string before a key imitates it
and no name in a list holds a closing brace (`AppConfig.Readable`, `load_save`). The lower end of a lane with the name
`lo` is read from its upper end (`lane_named_lo`).
-/

namespace OwlTap.Gui

open OwlTap Bsdl

/-! ### Lists -/

theorem readStrings_pins (ps : List Text) (rest : Text) :
    readStrings (itemLines (ps.map .pin) ++ rest).length (itemLines (ps.map .pin) ++ rest) =
      ps ++ readStrings rest.length rest := by
  have hindent : '"' ∉ "    ".toList ∧ ']' ∉ "    ".toList := by decide
  have hnewline : '"' ∉ "\n".toList ∧ ']' ∉ "\n".toList := by decide
  have hcomma : '"' ∉ ",\n".toList ∧ ']' ∉ ",\n".toList := by decide
  induction ps with
  | nil => rfl
  | cons p ps ih =>
    have hstep : ∀ {sep : Text}, '"' ∉ sep ∧ ']' ∉ sep → ∀ tail : Text,
        readStrings ("    ".toList ++ (stringText p ++ (sep ++ tail))).length ("    ".toList ++ (stringText p ++ (sep ++ tail))) =
          p :: readStrings tail.length tail := by
      intro sep hsep tail
      rw [readStrings_skip hindent, stringText, List.cons_append, List.append_assoc, List.singleton_append, readStrings_string,
        readStrings_skip hsep]
    cases ps with
    | nil =>
      rw [List.map_cons, List.map_nil, itemLines, Item.text_pin, List.append_assoc, List.append_assoc, hstep hnewline]
      rfl
    | cons q ps =>
      rw [List.map_cons, List.map_cons, itemLines, Item.text_pin, ← List.map_cons, List.append_assoc, List.append_assoc,
        List.append_assoc, hstep hcomma, ih]
      rfl

/-- An entry that is read up to its own closing brace. -/
def Item.Braced (item : Item) : Prop := ∃ body, item.text = '\x7b' :: (body ++ ['\x7d']) ∧ '\x7d' ∉ body

theorem readObjects_items {items : List Item} (h : ∀ item ∈ items, item.Braced) (rest : Text) :
    readObjects none (itemLines items ++ rest) = items.map Item.text ++ readObjects none rest := by
  have hindent : ']' ∉ "    ".toList ∧ '\x7b' ∉ "    ".toList := by decide
  have hnewline : ']' ∉ "\n".toList ∧ '\x7b' ∉ "\n".toList := by decide
  have hcomma : ']' ∉ ",\n".toList ∧ '\x7b' ∉ ",\n".toList := by decide
  have hstep : ∀ {item : Item}, item.Braced → ∀ {sep : Text}, ']' ∉ sep ∧ '\x7b' ∉ sep → ∀ tail : Text,
      readObjects none ("    ".toList ++ (item.text ++ (sep ++ tail))) = item.text :: readObjects none tail := by
    rintro item ⟨body, htext, hbody⟩ sep hsep tail
    rw [readObjects_skip hindent, htext, List.cons_append, List.append_assoc, List.singleton_append, readObjects_object hbody,
      readObjects_skip hsep]
  induction items using itemLines.induct with
  | case1 => rfl
  | case2 item =>
    rw [List.forall_mem_cons] at h
    rw [itemLines, List.append_assoc, List.append_assoc, hstep h.1 hnewline]
    rfl
  | case3 item item' items ih =>
    rw [List.forall_mem_cons] at h
    rw [itemLines, List.append_assoc, List.append_assoc, List.append_assoc, hstep h.1 hcomma, ih h.2]
    rfl

/-- The text of a value that is a list. -/
theorem list_text (items : List Item) : ∃ inner, (Value.list items).text = '[' :: (inner ++ [']']) ∧
    (inner = itemLines items ∨ inner = "\n".toList ++ itemLines items ++ "  ".toList) := by
  by_cases hitems : items = []
  · refine ⟨[], ?_, Or.inl (hitems ▸ rfl)⟩
    rw [Value.text, if_pos hitems]
    rfl
  · refine ⟨"\n".toList ++ itemLines items ++ "  ".toList, ?_, Or.inr rfl⟩
    rw [Value.text, if_neg hitems]
    rfl

theorem readStrings_list (ps : List Text) (rest : Text) : ∃ text, (Value.list (ps.map .pin)).text ++ rest = '[' :: text ∧
    readStrings text.length text = ps := by
  have hnewline : '"' ∉ "\n".toList ∧ ']' ∉ "\n".toList := by decide
  have hspaces : '"' ∉ "  ".toList ∧ ']' ∉ "  ".toList := by decide
  obtain ⟨inner, htext, hinner⟩ := list_text (ps.map .pin)
  refine ⟨inner ++ (']' :: rest), ?_, ?_⟩
  · rw [htext, List.cons_append, List.append_assoc, List.singleton_append]
  · rcases hinner with rfl | rfl
    · rw [readStrings_pins, readStrings_end, List.append_nil]
    · rw [List.append_assoc, List.append_assoc, readStrings_skip hnewline, readStrings_pins, readStrings_skip hspaces,
        readStrings_end, List.append_nil]

theorem readObjects_list {items : List Item} (h : ∀ item ∈ items, item.Braced) (rest : Text) :
    ∃ text, (Value.list items).text ++ rest = '[' :: text ∧ readObjects none text = items.map Item.text := by
  have hnewline : ']' ∉ "\n".toList ∧ '\x7b' ∉ "\n".toList := by decide
  have hspaces : ']' ∉ "  ".toList ∧ '\x7b' ∉ "  ".toList := by decide
  have hend : readObjects none (']' :: rest) = [] := by rw [readObjects, if_pos rfl]
  obtain ⟨inner, htext, hinner⟩ := list_text items
  refine ⟨inner ++ (']' :: rest), ?_, ?_⟩
  · rw [htext, List.cons_append, List.append_assoc, List.singleton_append]
  · rcases hinner with rfl | rfl
    · rw [readObjects_items h, hend, List.append_nil]
    · rw [List.append_assoc, List.append_assoc, readObjects_skip hnewline, readObjects_items h, readObjects_skip hspaces,
        hend, List.append_nil]

theorem render_close (ps : List Piece) (s sep : Text) :
    render (.raw ['\x7b'] :: (ps ++ [.str s (sep ++ ['\x7d'])])) = '\x7b' :: (render (ps ++ [.str s sep]) ++ ['\x7d']) := by
  rw [render_raw, render_append, render_append, render_str, render_str, render_nil, List.append_nil, List.append_nil,
    List.append_assoc, List.append_assoc]
  rfl

theorem bus_braced {b : BusDefinition} (h : b.Readable) : (Item.bus b).Braced := by
  have htext : (Item.bus b).text = render ((Item.bus b).pieces []) := by
    rw [render_item, List.append_nil]
  have hformat : '\x7d' ∉ b.format.text := by cases b.format <;> decide
  refine ⟨render ([keyPiece "name".toList [], .str b.name [','], keyPiece "signals".toList ['[']] ++ signalPieces b.signals ++
    [keyPiece "format".toList []] ++ [.str b.format.text []]), ?_, ?_⟩
  · rw [htext, ← render_close, Item.pieces]
    simp only [List.append_assoc, List.cons_append, List.nil_append]
  · refine notMem_render (by decide) ?_
    refine List.forall_mem_append.mpr ⟨List.forall_mem_append.mpr ⟨List.forall_mem_append.mpr ⟨?_, ?_⟩, ?_⟩, ?_⟩
    · simp only [List.forall_mem_cons]
      exact ⟨⟨by decide, by decide⟩, ⟨h.noBrace.1, by decide⟩, ⟨by decide, by decide⟩, fun p hp => absurd hp List.not_mem_nil⟩
    · exact signalPieces_without (by decide) h.noBrace.2
    · exact List.forall_mem_singleton.mpr ⟨by decide, by decide⟩
    · exact List.forall_mem_singleton.mpr ⟨hformat, List.not_mem_nil⟩

theorem lane_braced {l : IlaSignalConfig} (h : l.Readable) : (Item.lane l).Braced := by
  have htext : (Item.lane l).text = render ((Item.lane l).pieces []) := by
    rw [render_item, List.append_nil]
  have hformat : '\x7d' ∉ l.fmt.text := by cases l.fmt <;> decide
  have hnumber : ∀ {k : Text}, '\x7d' ∉ k → ∀ n : ℤ, (keyPiece k (decimal n ++ [','])).Without '\x7d' := fun hk n =>
    ⟨hk, List.not_mem_cons_of_ne_of_not_mem (by decide)
      (List.not_mem_append (notMem_decimal (by decide) (by decide) n) (by decide))⟩
  have hsplit : laneBack l [] = (laneBack l []).take 7 ++
      [.str "trig_value_b".toList ((':' :: decimal l.trigValueB.toNat) ++ ['\x7d'])] := rfl
  refine ⟨render ([keyPiece "name".toList [], .str l.name [',']] ++ (laneBack l []).take 7 ++
    [.str "trig_value_b".toList (':' :: decimal l.trigValueB.toNat)]), ?_, ?_⟩
  · rw [htext, ← render_close, Item.pieces, hsplit]
    simp only [List.cons_append, List.nil_append]
    rfl
  · refine notMem_render (by decide) (List.forall_mem_append.mpr ⟨List.forall_mem_append.mpr ⟨?_, ?_⟩, ?_⟩)
    · simp only [List.forall_mem_cons]
      exact ⟨⟨by decide, by decide⟩, ⟨h.noBrace, by decide⟩, fun p hp => absurd hp List.not_mem_nil⟩
    · simp only [List.take_succ_cons, List.take_zero, List.forall_mem_cons]
      exact ⟨hnumber (by decide) _, hnumber (by decide) _, ⟨by decide, by decide⟩, ⟨hformat, by decide⟩, hnumber (by decide) _,
        hnumber (by decide) _, hnumber (by decide) _, fun p hp => absurd hp List.not_mem_nil⟩
    · exact List.forall_mem_singleton.mpr ⟨by decide, List.not_mem_cons_of_ne_of_not_mem (by decide)
        (notMem_decimal (by decide) (by decide) _)⟩

/-- Entries that are read as they were written. -/
theorem filterMap_texts {α : Type*} {item : α → Item} {parse : Text → Option α} {xs : List α}
    (h : ∀ x ∈ xs, parse (item x).text = some x) : ((xs.map item).map Item.text).filterMap parse = xs := by
  have hcongr : ∀ x ∈ xs, ((parse ∘ Item.text) ∘ item) x = some x := h
  rw [List.filterMap_map, List.filterMap_map, List.filterMap_congr hcongr, List.filterMap_some]

/-! ### Lines -/

/-- What the value of a line begins with: a list with its bracket, anything else behind the colon. -/
def Line.delimiter (line : Line) : Char :=
  match line.value with
  | .list _ => '['
  | _ => ':'

/-- No string imitates the key of a later line, unless the delimiter of that line is nowhere between the two. -/
def KeysClear (before : List Piece) : List Line → Prop
  | [] => True
  | line :: lines =>
    ClearOf line.key line.delimiter (before ++ [.raw "  ".toList]) ∧ KeysClear (before ++ line.pieces) lines

instance decidableKeysClear : (before : List Piece) → (lines : List Line) → Decidable (KeysClear before lines)
  | _, [] => isTrue trivial
  | before, line :: lines =>
    have := decidableKeysClear (before ++ line.pieces) lines
    inferInstanceAs (Decidable (ClearOf line.key line.delimiter (before ++ [.raw "  ".toList]) ∧
      KeysClear (before ++ line.pieces) lines))

theorem KeysClear.line {before : List Piece} {lines : List Line} (h : KeysClear before lines) {i : ℕ} {line : Line}
    (hget : lines[i]? = some line) :
    ClearOf line.key line.delimiter (before ++ (lines.take i).flatMap Line.pieces ++ [.raw "  ".toList]) := by
  induction lines generalizing before i with
  | nil => cases hget
  | cons l lines ih =>
    cases i with
    | zero =>
      obtain rfl := Option.some.inj hget
      rw [List.take_zero, List.flatMap_nil, List.append_nil]
      exact h.1
    | succ i =>
      have hrest := ih h.2 hget
      rw [List.append_assoc before] at hrest
      exact hrest

namespace AppConfig

variable {cfg : AppConfig}

/-- The text that is saved. -/
def text (cfg : AppConfig) : Text := "\x7b\n".toList ++ cfg.lines.flatMap Line.text ++ "\x7d\n".toList

theorem save_eq (cfg : AppConfig) : save true cfg = some cfg.text := rfl

theorem keys_lines (cfg : AppConfig) : ∀ line ∈ cfg.lines, KeyWord line.key := by
  have hkeys : cfg.lines.map Line.key = ({} : AppConfig).lines.map Line.key := rfl
  have hall : ∀ k ∈ ({} : AppConfig).lines.map Line.key, KeyWord k := by
    unfold KeyWord
    decide
  exact fun line hline => hall _ (hkeys ▸ List.mem_map_of_mem hline)

theorem ends_lines (cfg : AppConfig) : ∀ line ∈ cfg.lines, Ends line.ending := by
  have hendings : cfg.lines.map Line.ending = ({} : AppConfig).lines.map Line.ending := rfl
  have hall : ∀ e ∈ ({} : AppConfig).lines.map Line.ending, e = ",\n".toList ∨ e = "\n".toList := by decide
  intro line hline
  rcases hall _ (hendings ▸ List.mem_map_of_mem hline) with he | he
  · exact he ▸ ends_comma
  · exact he ▸ ends_line

/-- What must be so for settings to load back. -/
structure Readable (cfg : AppConfig) : Prop where
  keys : KeysClear [.raw "\x7b\n".toList] cfg.lines
  buses : ∀ b ∈ cfg.buses, b.Readable
  ilaSignals : ∀ l ∈ cfg.ilaSignals, l.Readable
  ilaGeneratorLanes : ∀ l ∈ cfg.ilaGeneratorLanes, l.Readable

theorem text_render (cfg : AppConfig) :
    cfg.text = render (.raw "\x7b\n".toList :: (cfg.lines.flatMap Line.pieces ++ [.raw "\x7d\n".toList])) := by
  have hlines : ∀ lines : List Line, (∀ line ∈ lines, KeyWord line.key) →
      render (lines.flatMap Line.pieces) = lines.flatMap Line.text := by
    intro lines hkeys
    induction lines with
    | nil => rfl
    | cons line lines ih =>
      rw [List.forall_mem_cons] at hkeys
      rw [List.flatMap_cons, List.flatMap_cons, render_append, render_line hkeys.1, ih hkeys.2]
  rw [render_raw, render_append, hlines _ (keys_lines cfg), render_raw, render_nil, List.append_nil, ← List.append_assoc]
  rfl

/-- A line in the text that is saved. -/
theorem text_line (h : KeysClear [.raw "\x7b\n".toList] cfg.lines) {i : ℕ} {line : Line} (hget : cfg.lines[i]? = some line) :
    ∃ before after : List Piece,
      cfg.text = render (before ++ keyPiece line.key [' '] :: (line.value.pieces line.ending ++ after)) ∧
        (∀ p ∈ before, p.Plain) ∧ ClearOf line.key line.delimiter before := by
  refine ⟨[.raw "\x7b\n".toList] ++ (cfg.lines.take i).flatMap Line.pieces ++ [.raw "  ".toList],
    (cfg.lines.drop (i + 1)).flatMap Line.pieces ++ [.raw "\x7d\n".toList], ?_, ?_, h.line hget⟩
  · have hpieces : cfg.lines.flatMap Line.pieces = (cfg.lines.take i).flatMap Line.pieces ++
        (.raw "  ".toList :: keyPiece line.key [' '] :: line.value.pieces line.ending) ++
          (cfg.lines.drop (i + 1)).flatMap Line.pieces := by
      conv_lhs => rw [eq_take_append hget]
      rw [List.flatMap_append, List.flatMap_cons, List.append_assoc]
      rfl
    rw [text_render, hpieces]
    simp only [List.append_assoc, List.cons_append, List.nil_append]
  · refine List.forall_mem_append.mpr ⟨List.forall_mem_append.mpr ⟨List.forall_mem_singleton.mpr (raw_plain (by decide)), ?_⟩,
      List.forall_mem_singleton.mpr (raw_plain (by decide))⟩
    intro p hp
    obtain ⟨line, hline, hp⟩ := List.mem_flatMap.mp hp
    exact line_plain (ends_lines cfg line (List.mem_of_mem_take hline)) p hp

/-! ### Settings -/

variable {k : Text} {i : ℕ}

theorem string_saved (h : KeysClear [.raw "\x7b\n".toList] cfg.lines) {s ending : Text}
    (hget : cfg.lines[i]? = some { key := k, value := .string s, ending }) : jsonString cfg.text k = s := by
  obtain ⟨before, after, htext, hplain, hclear⟩ := text_line h hget
  have hk := keys_lines cfg _ (List.mem_of_getElem? hget)
  have hgap : '"' ∉ [' '] := by decide
  have hbehind := behind_in hk hk.colon.1 hplain hclear [' '] ((Value.string s).pieces ending ++ after)
  rw [behind_head, Value.pieces, List.singleton_append, render_str, stringText, @List.cons_append _ '"', List.append_assoc,
    @List.singleton_append _ '"'] at hbehind
  rw [htext]
  exact jsonString_of_behind hgap hbehind

theorem number_saved (h : KeysClear [.raw "\x7b\n".toList] cfg.lines) {n : ℤ} {ending : Text}
    (hget : cfg.lines[i]? = some { key := k, value := .number n, ending }) (hn : -2 ^ 63 ≤ n ∧ n < 2 ^ 63) (dflt : ℤ) :
    jsonInt cfg.text k dflt = n := by
  obtain ⟨before, after, htext, hplain, hclear⟩ := text_line h hget
  have hk := keys_lines cfg _ (List.mem_of_getElem? hget)
  obtain ⟨c, hc, -, hnumber⟩ := (ends_lines cfg _ (List.mem_of_getElem? hget)).head
  obtain ⟨rest, rfl⟩ : ∃ rest, ending = c :: rest := by
    cases ending with
    | nil => cases hc
    | cons c' rest => exact ⟨rest, congrArg (· :: rest) (Option.some.inj hc)⟩
  have hbehind := behind_in hk hk.colon.1 hplain hclear [' '] ((Value.number n).pieces (c :: rest) ++ after)
  rw [behind_head, Value.pieces, List.singleton_append, render_raw, List.append_assoc, @List.cons_append _ c] at hbehind
  rw [htext]
  exact jsonInt_of_behind hn (fun c hc => List.mem_singleton.mp hc) hnumber dflt hbehind

/-- A list is looked for behind its key. -/
theorem list_saved (h : KeysClear [.raw "\x7b\n".toList] cfg.lines) {items : List Item} {ending : Text}
    (hget : cfg.lines[i]? = some { key := k, value := .list items, ending }) :
    ∃ rest, (behind (quoted k) cfg.text).bind (behind ['[']) = behind ['['] ((Value.list items).text ++ rest) := by
  obtain ⟨before, after, htext, hplain, hclear⟩ := text_line h hget
  have hk := keys_lines cfg _ (List.mem_of_getElem? hget)
  have hgap : '[' ∉ [':', ' '] := by decide
  refine ⟨ending ++ render after, ?_⟩
  rw [htext, behind_in hk hk.colon.2 hplain hclear, render_append, render_value, List.append_assoc]
  exact behind_append_of_notMem hgap _

theorem strings_saved (h : KeysClear [.raw "\x7b\n".toList] cfg.lines) {ps : List Text} {ending : Text}
    (hget : cfg.lines[i]? = some { key := k, value := .list (ps.map .pin), ending }) : jsonStringArray cfg.text k = ps := by
  obtain ⟨rest, hbehind⟩ := list_saved h hget
  obtain ⟨text, htext, hread⟩ := readStrings_list ps rest
  rw [htext, behind_head] at hbehind
  rw [jsonStringArray, hbehind]
  exact hread

theorem objects_saved (h : KeysClear [.raw "\x7b\n".toList] cfg.lines) {items : List Item} {ending : Text}
    (hget : cfg.lines[i]? = some { key := k, value := .list items, ending }) (hitems : ∀ item ∈ items, item.Braced) :
    jsonObjects cfg.text k = items.map Item.text := by
  obtain ⟨rest, hbehind⟩ := list_saved h hget
  obtain ⟨text, htext, hread⟩ := readObjects_list hitems rest
  rw [htext, behind_head] at hbehind
  rw [jsonObjects, hbehind]
  exact hread

theorem buses_saved (h : KeysClear [.raw "\x7b\n".toList] cfg.lines) {bs : List BusDefinition} {ending : Text}
    (hget : cfg.lines[i]? = some { key := k, value := .list (bs.map .bus), ending })
    (hbs : ∀ b ∈ bs, b.name ≠ [] ∧ b.Readable) : jsonBusArray cfg.text k = bs := by
  have hbraced : ∀ item ∈ bs.map Item.bus, item.Braced :=
    List.forall_mem_map.mpr fun b hb => bus_braced (hbs b hb).2
  rw [jsonBusArray, objects_saved h hget hbraced]
  exact filterMap_texts fun b hb => parseBus_text (hbs b hb).1 (hbs b hb).2

theorem lanes_saved (h : KeysClear [.raw "\x7b\n".toList] cfg.lines) {ls : List IlaSignalConfig} {ending : Text}
    (hget : cfg.lines[i]? = some { key := k, value := .list (ls.map .lane), ending })
    (hls : ∀ l ∈ ls, l.name ≠ [] ∧ l.Readable) : jsonIlaSignalArray cfg.text k = ls := by
  have hbraced : ∀ item ∈ ls.map Item.lane, item.Braced :=
    List.forall_mem_map.mpr fun l hl => lane_braced (hls l hl).2
  rw [jsonIlaSignalArray, objects_saved h hget hbraced]
  exact filterMap_texts fun l hl => parseIlaSignal_text (hls l hl).1 (hls l hl).2

theorem orDefault_of_ne {s : Text} (h : s ≠ []) (dflt : Text) : orDefault s dflt = s := if_neg h

/-- Settings as they are saved: buses, lanes and the generator have names, and the lanes of the generator no triggers. -/
structure Named (cfg : AppConfig) : Prop where
  buses : ∀ b ∈ cfg.buses, b.name ≠ []
  ilaSignals : ∀ l ∈ cfg.ilaSignals, l.name ≠ []
  generator : ∀ s ∈ [cfg.ilaGeneratorOutputSubdir, cfg.ilaGeneratorProjectName, cfg.ilaGeneratorTopModule,
    cfg.ilaGeneratorFpgaPart, cfg.ilaGeneratorClockPortName, cfg.ilaGeneratorResetPortName, cfg.ilaGeneratorDataPortName,
    cfg.ilaGeneratorValidPortName], s ≠ []
  ilaGeneratorLanes : ∀ l ∈ cfg.ilaGeneratorLanes,
    l.name ≠ [] ∧ l.trigCond = 0 ∧ l.trigValue = 0 ∧ l.trigCondB = 0 ∧ l.trigValueB = 0

/-- Settings load back as they were saved, if nothing in them imitates what is searched for. -/
theorem load_save {cfg : AppConfig} (hnamed : cfg.Named) (h : cfg.Readable) : load (save true cfg) = cfg := by
  have hkeys := h.keys
  have hgenerator := hnamed.generator
  simp only [List.forall_mem_cons] at hgenerator
  obtain ⟨hsubdir, hproject, htop, hpart, hclock, hreset, hdata, hvalid, -⟩ := hgenerator
  have hlanes : (cfg.ilaGeneratorLanes.map fun s => Item.lane { name := s.name, hi := s.hi, lo := s.lo, fmt := s.fmt }) =
      cfg.ilaGeneratorLanes.map .lane := by
    refine List.map_congr_left fun l hl => congrArg Item.lane ?_
    obtain ⟨-, hcond, hvalue, hcondB, hvalueB⟩ := hnamed.ilaGeneratorLanes l hl
    cases l
    cases hcond
    cases hvalue
    cases hcondB
    cases hvalueB
    rfl
  have h16 : ∀ v : BitVec 16, -2 ^ 63 ≤ (v.toNat : ℤ) ∧ (v.toNat : ℤ) < 2 ^ 63 := toNat_range (by decide)
  have h32 : ∀ v : BitVec 32, -2 ^ 63 ≤ (v.toNat : ℤ) ∧ (v.toNat : ℤ) < 2 ^ 63 := toNat_range le_rfl
  have hnat : ∀ {w : ℕ} {v : BitVec w} {n : ℤ}, n = v.toNat → BitVec.ofInt w n = v := fun hn => hn ▸ ofInt_toNat _
  have hint : ∀ {v : BitVec 32} {n : ℤ}, n = v.toInt → BitVec.ofInt 32 n = v := fun hn => hn ▸ BitVec.ofInt_toInt
  have hname : ∀ {s read : Text}, s ≠ [] → read = s → ∀ {dflt : Text}, orDefault read dflt = s := fun hs hread _ =>
    hread ▸ orDefault_of_ne hs _
  have hbool : -2 ^ 63 ≤ (if cfg.ilaOrMode then (1 : ℤ) else 0) ∧ (if cfg.ilaOrMode then (1 : ℤ) else 0) < 2 ^ 63 := by
    cases cfg.ilaOrMode <;> decide
  rw [save_eq]
  apply AppConfig.ext
  case vendorId => exact hnat (@number_saved cfg _ 0 hkeys _ _ rfl (h16 _) _)
  case productId => exact hnat (@number_saved cfg _ 1 hkeys _ _ rfl (h16 _) _)
  case serial => exact @string_saved cfg _ 2 hkeys _ _ rfl
  case interfaceChannel => exact hint (@number_saved cfg _ 3 hkeys _ _ rfl (toInt_range _) _)
  case clockFreqHz => exact hnat (@number_saved cfg _ 4 hkeys _ _ rfl (h32 _) _)
  case bsdlPath => exact @string_saved cfg _ 5 hkeys _ _ rfl
  case bsdlDeviceIndex => exact hint (@number_saved cfg _ 6 hkeys _ _ rfl (toInt_range _) _)
  case selectedPins => exact @strings_saved cfg _ 7 hkeys _ _ rfl
  case buses => exact @buses_saved cfg _ 8 hkeys _ _ rfl fun b hb => ⟨hnamed.buses b hb, h.buses b hb⟩
  case ilaSignals => exact @lanes_saved cfg _ 9 hkeys _ _ rfl fun l hl => ⟨hnamed.ilaSignals l hl, h.ilaSignals l hl⟩
  case ilaOrMode =>
    have hmode : jsonInt cfg.text "ila_or_mode".toList 0 = if cfg.ilaOrMode then (1 : ℤ) else 0 :=
      @number_saved cfg _ 25 hkeys _ _ rfl hbool 0
    have hread : (load (some cfg.text)).ilaOrMode = decide (jsonInt cfg.text "ila_or_mode".toList 0 ≠ 0) := rfl
    rw [hread, hmode]
    cases cfg.ilaOrMode <;> rfl
  case ilaGeneratorOutputSubdir => exact hname hsubdir (@string_saved cfg _ 10 hkeys _ _ rfl)
  case ilaGeneratorProjectName => exact hname hproject (@string_saved cfg _ 11 hkeys _ _ rfl)
  case ilaGeneratorTopModule => exact hname htop (@string_saved cfg _ 12 hkeys _ _ rfl)
  case ilaGeneratorFpgaPart => exact hname hpart (@string_saved cfg _ 13 hkeys _ _ rfl)
  case ilaGeneratorClockPortName => exact hname hclock (@string_saved cfg _ 14 hkeys _ _ rfl)
  case ilaGeneratorResetPortName => exact hname hreset (@string_saved cfg _ 15 hkeys _ _ rfl)
  case ilaGeneratorDataPortName => exact hname hdata (@string_saved cfg _ 16 hkeys _ _ rfl)
  case ilaGeneratorValidPortName => exact hname hvalid (@string_saved cfg _ 17 hkeys _ _ rfl)
  case ilaGeneratorSampleClockHz => exact hnat (@number_saved cfg _ 18 hkeys _ _ rfl (h32 _) _)
  case ilaGeneratorDataWidth => exact hint (@number_saved cfg _ 19 hkeys _ _ rfl (toInt_range _) _)
  case ilaGeneratorDepth => exact hint (@number_saved cfg _ 20 hkeys _ _ rfl (toInt_range _) _)
  case ilaGeneratorIdcode => exact hnat (@number_saved cfg _ 21 hkeys _ _ rfl (h32 _) _)
  case ilaGeneratorLanes =>
    have hget : cfg.lines[22]? = some { key := "ila_generator_lanes".toList, value := .list (cfg.ilaGeneratorLanes.map .lane) } :=
      hlanes ▸ rfl
    exact lanes_saved hkeys hget fun l hl => ⟨(hnamed.ilaGeneratorLanes l hl).1, h.ilaGeneratorLanes l hl⟩
  case ilaConfigJsonPath => exact @string_saved cfg _ 23 hkeys _ _ rfl
  case xdcPath => exact @string_saved cfg _ 24 hkeys _ _ rfl

/-- A board with two buses, a lane with its triggers and a generator lane. -/
theorem load_save_board :
    let cfg : AppConfig := {
      serial := "FT\"1\\2".toList
      bsdlPath := "C:\\bsdl\\xc7z020.bsd".toList
      selectedPins := ["LED0".toList, "buses".toList, "A,]".toList]
      buses := [{ name := "data: [0]".toList, signals := ["A1".toList, "B:2".toList], format := .bin },
        { name := "empty".toList, signals := [], format := .dec }]
      ilaSignals := [{ name := "hi".toList, hi := 7, fmt := .dec, trigCond := 2, trigValue := 0xFFFFFFFF, trigValueB := 3 }]
      ilaOrMode := true
      ilaGeneratorLanes := [{ name := "count".toList, hi := 31, lo := 4 }] }
    load (save true cfg) = cfg := by
  intro cfg
  have hkeys : KeysClear [.raw "\x7b\n".toList] cfg.lines := by decide +kernel
  have hdata : BusDefinition.Readable { name := "data: [0]".toList, signals := ["A1".toList, "B:2".toList], format := .bin } :=
    ⟨by decide, by decide, by decide⟩
  have hempty : BusDefinition.Readable { name := "empty".toList, signals := [], format := .dec } :=
    ⟨by decide, by decide, List.Pairwise.nil⟩
  refine load_save ⟨by decide, by decide, by decide, by decide⟩ ⟨hkeys, ?_, ?_, ?_⟩
  · exact List.forall_mem_cons.mpr ⟨hdata, List.forall_mem_singleton.mpr hempty⟩
  · exact List.forall_mem_singleton.mpr ⟨by decide, by decide⟩
  · exact List.forall_mem_singleton.mpr ⟨by decide, by decide⟩

/-- The lower end of a lane that is named as the key of its lower end is looked for behind the name: the upper end is read. -/
theorem lane_named_lo :
    Named { ilaSignals := [{ name := "lo".toList, hi := 7 }] } ∧
      (load (save true { ilaSignals := [{ name := "lo".toList, hi := 7 }] })).ilaSignals =
        [{ name := "lo".toList, hi := 7, lo := 7 }] ∧
      load (save true { ilaSignals := [{ name := "lo".toList, hi := 7 }] }) ≠
        { ilaSignals := [{ name := "lo".toList, hi := 7 }] } := by
  have hread : (load (save true { ilaSignals := [{ name := "lo".toList, hi := 7 }] })).ilaSignals =
      [{ name := "lo".toList, hi := 7, lo := 7 }] := by decide +kernel
  refine ⟨⟨by decide, by decide, by decide, by decide⟩, hread, fun h => ?_⟩
  have hsame := (congrArg ilaSignals h).symm.trans hread
  exact absurd hsame (by decide)

end AppConfig

end OwlTap.Gui
