import OwlTap.Gui.AppConfig

/-!
# Entries that load back

What is written for a setting is made of strings with text around them (`render_line`), so that a key is found behind the
first string that imitates it. A bus and a lane are read from their texts, if no string of them
imitates one of their keys (`parseBus_text`, `parseIlaSignal_text`).
-/

namespace OwlTap.Gui

open OwlTap Bsdl

/-! ### Pieces of what is written -/

/-- A key that is written, with what is behind it. -/
def keyPiece (key sep : Text) : Piece := .str key (':' :: sep)

/-- The pieces of strings with commas between them and a bracket behind. -/
def signalPieces : List Text → List Piece
  | [] => [.raw [']', ',']]
  | [s] => [.str s [']', ',']]
  | s :: t :: ss => .str s [','] :: signalPieces (t :: ss)

/-- The pieces of a bus up to its format. -/
abbrev busFront (name : Text) (signals : List Text) : List Piece :=
  [.raw ['\x7b'], keyPiece "name".toList [], .str name [','], keyPiece "signals".toList ['[']] ++ signalPieces signals

/-- The pieces of a lane up to its name. -/
abbrev laneFront (name : Text) : List Piece := [.raw ['\x7b'], keyPiece "name".toList [], .str name [',']]

/-- The pieces of a lane behind its name. -/
abbrev laneBack (l : IlaSignalConfig) (ending : Text) : List Piece := [
  keyPiece "hi".toList (decimal l.hi.toInt ++ [',']), keyPiece "lo".toList (decimal l.lo.toInt ++ [',']),
  keyPiece "fmt".toList [], .str l.fmt.text [','], keyPiece "trig_cond".toList (decimal l.trigCond.toInt ++ [',']),
  keyPiece "trig_value".toList (decimal l.trigValue.toNat ++ [',']),
  keyPiece "trig_cond_b".toList (decimal l.trigCondB.toInt ++ [',']),
  keyPiece "trig_value_b".toList (decimal l.trigValueB.toNat ++ '\x7d' :: ending)]

def Item.pieces (ending : Text) : Item → List Piece
  | .pin p => [.str p ending]
  | .bus b => busFront b.name b.signals ++ [keyPiece "format".toList [], .str b.format.text ('\x7d' :: ending)]
  | .lane l => laneFront l.name ++ laneBack l ending

def itemPieces : List Item → List Piece
  | [] => []
  | [item] => .raw "    ".toList :: item.pieces "\n".toList
  | item :: item' :: items => .raw "    ".toList :: (item.pieces ",\n".toList ++ itemPieces (item' :: items))

def Value.pieces (ending : Text) : Value → List Piece
  | .number n => [.raw (decimal n ++ ending)]
  | .string s => [.str s ending]
  | .list items =>
    if items = [] then [.raw ("[".toList ++ ("]".toList ++ ending))]
    else .raw ("[".toList ++ "\n".toList) :: (itemPieces items ++ [.raw ("  ".toList ++ ("]".toList ++ ending))])

def Line.pieces (line : Line) : List Piece :=
  .raw "  ".toList :: .str line.key ": ".toList :: line.value.pieces line.ending

theorem render_str (s sep : Text) (ps : List Piece) : render (.str s sep :: ps) = stringText s ++ (sep ++ render ps) := by
  rw [render_cons, Piece.text, stringText]
  simp only [List.cons_append, List.append_assoc, List.nil_append]

theorem render_raw (t : Text) (ps : List Piece) : render (.raw t :: ps) = t ++ render ps := render_cons _ _

theorem render_nil : render [] = [] := rfl

theorem stringText_key {key : Text} (hk : KeyWord key) : stringText key = quoted key := by
  rw [stringText, jsonEscape_key hk, quoted]

theorem render_key {key : Text} (hk : KeyWord key) (sep : Text) (ps : List Piece) :
    render (keyPiece key sep :: ps) = keyText key ++ (sep ++ render ps) := by
  rw [keyPiece, render_str, stringText_key hk, keyText]
  simp only [List.cons_append, List.append_assoc, List.nil_append]

theorem render_signalPieces (ss : List Text) : render (signalPieces ss) = commaStrings ss ++ [']', ','] := by
  induction ss using signalPieces.induct with
  | case1 => rfl
  | case2 s => rw [signalPieces, commaStrings, render_str, render_nil, List.append_nil]
  | case3 s t ss ih => rw [signalPieces, commaStrings, render_str, ih, List.append_assoc, List.append_assoc]

/-- The keys of an object. -/
theorem keyWords : ∀ k ∈ ["name", "signals", "format", "hi", "lo", "fmt", "trig_cond", "trig_value", "trig_cond_b",
    "trig_value_b"], KeyWord k.toList := by
  unfold KeyWord
  decide

theorem keyWord_format (f : BusFormat) : KeyWord f.text := by
  unfold KeyWord
  cases f <;> decide

theorem render_item (ending : Text) (item : Item) : render (item.pieces ending) = item.text ++ ending := by
  have hkey : ∀ k ∈ ["name", "signals", "format", "hi", "lo", "fmt", "trig_cond", "trig_value", "trig_cond_b",
    "trig_value_b"], KeyWord k.toList := keyWords
  simp only [List.forall_mem_cons] at hkey
  obtain ⟨hname, hsignals, hformat, hhi, hlo, hfmt, hcond, hvalue, hcondB, hvalueB, -⟩ := hkey
  cases item with
  | pin p => rw [Item.pieces, render_str, render_nil, List.append_nil, Item.text_pin]
  | bus b =>
    rw [Item.pieces, render_append, render_append, render_raw, render_key hname, render_str, render_key hsignals, render_nil,
      render_signalPieces, render_key hformat, render_str, render_nil, Item.text_bus, stringText_key (keyWord_format b.format)]
    simp only [List.append_assoc, List.cons_append, List.nil_append, List.append_nil]
  | lane l =>
    rw [Item.pieces, render_append, render_raw, render_key hname, render_str, render_nil, render_key hhi, render_key hlo,
      render_key hfmt, render_str, render_key hcond, render_key hvalue, render_key hcondB, render_key hvalueB, render_nil,
      Item.text_lane, stringText_key (keyWord_format l.fmt)]
    simp only [List.append_assoc, List.cons_append, List.nil_append, List.append_nil]

theorem render_itemPieces (items : List Item) : render (itemPieces items) = itemLines items := by
  induction items using itemPieces.induct with
  | case1 => rfl
  | case2 item => rw [itemPieces, itemLines, render_raw, render_item, List.append_assoc]
  | case3 item item' items ih =>
    rw [itemPieces, itemLines, render_raw, render_append, render_item, ih, List.append_assoc, List.append_assoc,
      List.append_assoc]

theorem render_value (ending : Text) (value : Value) : render (value.pieces ending) = value.text ++ ending := by
  cases value with
  | number n => rw [Value.pieces, render_raw, render_nil, List.append_nil, Value.text]
  | string s => rw [Value.pieces, render_str, render_nil, List.append_nil, Value.text]
  | list items =>
    rw [Value.pieces, Value.text]
    by_cases hitems : items = []
    · rw [if_pos hitems, if_pos hitems, render_raw, render_nil, List.append_nil, List.append_nil, List.append_assoc]
    · rw [if_neg hitems, if_neg hitems, render_raw, render_append, render_itemPieces, render_raw, render_nil, List.append_nil]
      simp only [List.append_assoc]

theorem render_line {line : Line} (hkey : KeyWord line.key) : render line.pieces = line.text := by
  rw [Line.pieces, render_raw, render_str, render_value, stringText_key hkey, Line.text]
  simp only [List.append_assoc]

/-! ### What is around a string -/

theorem raw_plain {t : Text} (h : '"' ∉ t) : (Piece.raw t).Plain := h

theorem keyPiece_plain {key sep : Text} (h : '"' ∉ sep) : (keyPiece key sep).Plain :=
  ⟨List.not_mem_cons_of_ne_of_not_mem (by decide) h, ':', rfl, by decide⟩

theorem str_plain {s : Text} {c : Char} {sep : Text} (hc : isKeyChar c = false) (hq : c ≠ '"') (h : '"' ∉ sep) :
    (Piece.str s (c :: sep)).Plain :=
  ⟨List.not_mem_cons_of_ne_of_not_mem hq.symm h, c, rfl, hc⟩

theorem number_plain (n : ℤ) {sep : Text} (h : '"' ∉ sep) : '"' ∉ decimal n ++ sep :=
  List.not_mem_append (notMem_decimal (by decide) (by decide) n) h

theorem signalPieces_plain (ss : List Text) : ∀ p ∈ signalPieces ss, p.Plain := by
  induction ss using signalPieces.induct with
  | case1 => exact List.forall_mem_singleton.mpr (raw_plain (by decide))
  | case2 s => exact List.forall_mem_singleton.mpr (str_plain (by decide) (by decide) (by decide))
  | case3 s t ss ih => exact List.forall_mem_cons.mpr ⟨str_plain (by decide) (by decide) List.not_mem_nil, ih⟩

theorem busFront_plain (name : Text) (signals : List Text) : ∀ p ∈ busFront name signals, p.Plain := by
  refine List.forall_mem_append.mpr ⟨?_, signalPieces_plain signals⟩
  simp only [List.forall_mem_cons]
  exact ⟨raw_plain (by decide), keyPiece_plain List.not_mem_nil, str_plain (by decide) (by decide) List.not_mem_nil,
    keyPiece_plain (by decide), fun p hp => absurd hp List.not_mem_nil⟩

theorem laneFront_plain (name : Text) : ∀ p ∈ laneFront name, p.Plain := by
  simp only [List.forall_mem_cons]
  exact ⟨raw_plain (by decide), keyPiece_plain List.not_mem_nil, str_plain (by decide) (by decide) List.not_mem_nil,
    fun p hp => absurd hp List.not_mem_nil⟩

theorem laneBack_plain (l : IlaSignalConfig) {ending : Text} (h : '"' ∉ ending) : ∀ p ∈ laneBack l ending, p.Plain := by
  have hcomma : '"' ∉ [','] := by decide
  have hend : '"' ∉ '\x7d' :: ending := List.not_mem_cons_of_ne_of_not_mem (by decide) h
  simp only [List.forall_mem_cons]
  exact ⟨keyPiece_plain (number_plain _ hcomma), keyPiece_plain (number_plain _ hcomma), keyPiece_plain List.not_mem_nil,
    str_plain (by decide) (by decide) List.not_mem_nil, keyPiece_plain (number_plain _ hcomma),
    keyPiece_plain (number_plain _ hcomma), keyPiece_plain (number_plain _ hcomma), keyPiece_plain (number_plain _ hend),
    fun p hp => absurd hp List.not_mem_nil⟩

/-- What is behind a line or an entry: it begins with what is in no key. -/
structure Ends (ending : Text) : Prop where
  notQuote : '"' ∉ ending
  head : ∃ c, ending.head? = some c ∧ isKeyChar c = false ∧ isNumberChar c = false

theorem item_plain {ending : Text} (h : Ends ending) (item : Item) : ∀ p ∈ item.pieces ending, p.Plain := by
  cases item with
  | pin p =>
    obtain ⟨c, hc, hkey, -⟩ := h.head
    exact List.forall_mem_singleton.mpr ⟨h.notQuote, c, hc, hkey⟩
  | bus b =>
    refine List.forall_mem_append.mpr ⟨busFront_plain _ _, ?_⟩
    exact List.forall_mem_cons.mpr ⟨keyPiece_plain List.not_mem_nil,
      List.forall_mem_singleton.mpr (str_plain (by decide) (by decide) h.notQuote)⟩
  | lane l => exact List.forall_mem_append.mpr ⟨laneFront_plain _, laneBack_plain l h.notQuote⟩

theorem ends_comma : Ends ",\n".toList := ⟨by decide, ',', rfl, by decide, by decide⟩

theorem ends_line : Ends "\n".toList := ⟨by decide, '\n', rfl, by decide, by decide⟩

theorem itemPieces_plain (items : List Item) : ∀ p ∈ itemPieces items, p.Plain := by
  induction items using itemPieces.induct with
  | case1 => exact fun p hp => absurd hp List.not_mem_nil
  | case2 item => exact List.forall_mem_cons.mpr ⟨raw_plain (by decide), item_plain ends_line item⟩
  | case3 item item' items ih =>
    exact List.forall_mem_cons.mpr ⟨raw_plain (by decide), List.forall_mem_append.mpr ⟨item_plain ends_comma item, ih⟩⟩

theorem value_plain {ending : Text} (h : Ends ending) (value : Value) : ∀ p ∈ value.pieces ending, p.Plain := by
  cases value with
  | number n => exact List.forall_mem_singleton.mpr (raw_plain (number_plain n h.notQuote))
  | string s =>
    obtain ⟨c, hc, hkey, -⟩ := h.head
    exact List.forall_mem_singleton.mpr ⟨h.notQuote, c, hc, hkey⟩
  | list items =>
    have hclose : '"' ∉ "]".toList ++ ending := List.not_mem_append (by decide) h.notQuote
    rw [Value.pieces]
    split
    · exact List.forall_mem_singleton.mpr (raw_plain (List.not_mem_append (by decide) hclose))
    · refine List.forall_mem_cons.mpr ⟨raw_plain (by decide), List.forall_mem_append.mpr ⟨itemPieces_plain items, ?_⟩⟩
      exact List.forall_mem_singleton.mpr (raw_plain (List.not_mem_append (by decide) hclose))

theorem line_plain {line : Line} (h : Ends line.ending) : ∀ p ∈ line.pieces, p.Plain :=
  List.forall_mem_cons.mpr ⟨raw_plain (by decide), List.forall_mem_cons.mpr ⟨⟨by decide, ':', rfl, by decide⟩,
    value_plain h line.value⟩⟩

/-! ### Objects -/

/-- A value in an object is looked for behind its key. -/
theorem behind_in {k : Text} (hk : KeyWord k) {d : Char} (hd : d ∉ quoted k) {before : List Piece}
    (hplain : ∀ p ∈ before, p.Plain) (hclear : ClearOf k d before) (sep : Text) (after : List Piece) :
    (behind (quoted k) (render (before ++ keyPiece k sep :: after))).bind (behind [d]) =
      behind [d] (':' :: (sep ++ render after)) := by
  have htext : render (before ++ keyPiece k sep :: after) = render before ++ (quoted k ++ ':' :: (sep ++ render after)) := by
    rw [render_append, render_key hk, keyText, List.append_assoc]
    rfl
  rw [htext, behind_key hk hd hplain hclear]

theorem KeyWord.colon {k : Text} (hk : KeyWord k) : ':' ∉ quoted k ∧ '[' ∉ quoted k := by
  have hnot : ∀ c, isKeyChar c = false → c ≠ '"' → c ∉ quoted k := by
    intro c hc hq hmem
    rw [quoted, List.mem_cons, List.mem_append, List.mem_singleton] at hmem
    rcases hmem with h | h | h
    · exact hq h
    · exact Bool.false_ne_true (hc.symm.trans (hk.2 c h))
    · exact hq h
  exact ⟨hnot ':' (by decide) (by decide), hnot '[' (by decide) (by decide)⟩

variable {k : Text} {before : List Piece}

theorem string_in (hk : KeyWord k) (hplain : ∀ p ∈ before, p.Plain) (hclear : ClearOf k ':' before) (s sep : Text)
    (after : List Piece) : jsonString (render (before ++ keyPiece k [] :: .str s sep :: after)) k = s := by
  have hbehind := behind_in hk hk.colon.1 hplain hclear [] (.str s sep :: after)
  rw [behind_head, List.nil_append, render_str, stringText, List.cons_append, List.append_assoc, List.singleton_append] at hbehind
  exact @jsonString_of_behind k _ [] s _ List.not_mem_nil hbehind

theorem number_in (hk : KeyWord k) (hplain : ∀ p ∈ before, p.Plain) (hclear : ClearOf k ':' before) {n : ℤ}
    (hn : -2 ^ 63 ≤ n ∧ n < 2 ^ 63) {c : Char} (hc : isNumberChar c = false) (sep : Text) (after : List Piece) :
    jsonInt (render (before ++ keyPiece k (decimal n ++ c :: sep) :: after)) k 0 = n := by
  have hbehind := behind_in hk hk.colon.1 hplain hclear (decimal n ++ c :: sep) after
  rw [behind_head, List.append_assoc, List.cons_append] at hbehind
  exact @jsonInt_of_behind k n hn _ [] _ c (fun c hc => absurd hc List.not_mem_nil) hc 0 hbehind

/-- Strings with commas between them are read. -/
theorem readStrings_signals (ss : List Text) (rest : Text) :
    readStrings (render (signalPieces ss) ++ rest).length (render (signalPieces ss) ++ rest) = ss := by
  induction ss using signalPieces.induct with
  | case1 => exact readStrings_end _
  | case2 s =>
    rw [signalPieces, render_str, render_nil, List.append_nil, stringText, List.append_assoc, List.cons_append, List.append_assoc,
      List.singleton_append, readStrings_string]
    exact congrArg (s :: ·) (readStrings_end _)
  | case3 s t ss ih =>
    have hcomma : '"' ∉ [','] ∧ ']' ∉ [','] := by decide
    rw [signalPieces, render_str, stringText, List.append_assoc, List.cons_append, List.append_assoc, List.singleton_append,
      readStrings_string, List.append_assoc, readStrings_skip hcomma, ih]

theorem strings_in (hk : KeyWord k) (hplain : ∀ p ∈ before, p.Plain) (hclear : ClearOf k '[' before) (ss : List Text)
    (after : List Piece) : jsonStringArray (render (before ++ keyPiece k ['['] :: (signalPieces ss ++ after))) k = ss := by
  have hcolon : '[' ∉ [':'] := by decide
  have hskip : behind ['['] (':' :: (['['] ++ render (signalPieces ss ++ after))) = some (render (signalPieces ss ++ after)) :=
    behind_char hcolon _
  rw [jsonStringArray, behind_in hk hk.colon.2 hplain hclear ['['] (signalPieces ss ++ after), hskip, render_append]
  exact readStrings_signals ss _

/-- The string of a piece. -/
def Piece.string : Piece → Option Text
  | .raw _ => none
  | .str s _ => some s

/-- Strings none of which spells a key leave it clear. -/
theorem clearOf_of_not_spells {d : Char} {ps : List Piece} (h : ∀ s ∈ ps.filterMap Piece.string, ¬Spells k s) :
    ClearOf k d ps := by
  induction ps with
  | nil => trivial
  | cons p ps ih =>
    cases p with
    | raw t => exact ih h
    | str s sep =>
      obtain ⟨hs, hss⟩ := List.forall_mem_cons.mp h
      exact ⟨fun hspells => absurd hspells hs, ih hss⟩

/-- The strings of pieces that all have one. -/
theorem strings_take {ps : List Piece} {ss : List Text} (h : ps.map Piece.string = ss.map some) (i : ℕ) :
    (ps.take i).filterMap Piece.string = ss.take i := by
  have hmaps : ((ps.take i).map Piece.string).filterMap id = ((ss.take i).map some).filterMap id := by
    rw [List.map_take, h, List.map_take]
  rw [List.filterMap_map, List.filterMap_map, Function.id_comp, Function.id_comp, List.filterMap_some] at hmaps
  exact hmaps

theorem eq_take_append {α : Type*} {xs : List α} {i : ℕ} {x : α} (h : xs[i]? = some x) :
    xs = xs.take i ++ x :: xs.drop (i + 1) := by
  obtain ⟨hi, rfl⟩ := List.getElem?_eq_some_iff.mp h
  rw [List.cons_getElem_drop_succ, List.take_append_drop]

/-! ### Buses -/

/-- What a bus must hold to be read as it was written: no brace, and nothing that imitates the key of its format, but
for signals behind which no colon is. -/
structure BusDefinition.Readable (b : BusDefinition) : Prop where
  noBrace : '\x7d' ∉ b.name ∧ ∀ s ∈ b.signals, '\x7d' ∉ s
  name : ¬Spells "format".toList b.name
  signals : b.signals.Pairwise fun s t => Spells "format".toList s → ':' ∉ t

/-- A character that no escape brings in stands in the string. -/
theorem mem_of_mem_jsonEscape {c : Char} (hc : c ∉ ['\\', '"', 'n', 'r']) {s : Text} (h : c ∈ jsonEscape s) : c ∈ s := by
  obtain ⟨d, hd, hmem⟩ := List.mem_flatMap.mp h
  have hescape : ∀ e ∈ escapeChar d, e = d ∨ e ∈ ['\\', '"', 'n', 'r'] := by
    by_cases hq : d = '"'
    · subst hq
      decide
    by_cases hb : d = '\\'
    · subst hb
      decide
    by_cases hn : d = '\n'
    · subst hn
      decide
    by_cases hr : d = '\r'
    · subst hr
      decide
    rw [escapeChar_plain hq hb hn hr]
    exact fun e he => Or.inl (List.mem_singleton.mp he)
  exact ((hescape c hmem).resolve_right hc) ▸ hd

/-- A character is in no text of a piece. -/
def Piece.Without (c : Char) : Piece → Prop
  | .raw t => c ∉ t
  | .str s sep => c ∉ s ∧ c ∉ sep

theorem notMem_render {c : Char} (hc : c ∉ ['\\', '"', 'n', 'r']) {ps : List Piece} (h : ∀ p ∈ ps, p.Without c) :
    c ∉ render ps := by
  have hquote : c ∉ ['"'] := fun h => hc (List.mem_singleton.mp h ▸ List.mem_cons_of_mem _ List.mem_cons_self)
  induction ps with
  | nil => exact List.not_mem_nil
  | cons p ps ih =>
    obtain ⟨hp, hps⟩ := List.forall_mem_cons.mp h
    cases p with
    | raw t =>
      rw [render_raw]
      exact List.not_mem_append hp (ih hps)
    | str s sep =>
      rw [render_str, stringText, ← List.singleton_append]
      refine List.not_mem_append (List.not_mem_append hquote (List.not_mem_append (fun hs => ?_) hquote))
        (List.not_mem_append hp.2 (ih hps))
      exact hp.1 (mem_of_mem_jsonEscape hc hs)

theorem signalPieces_without {c : Char} (hc : c ∉ [',', ']']) {ss : List Text} (h : ∀ s ∈ ss, c ∉ s) :
    ∀ p ∈ signalPieces ss, p.Without c := by
  have hcomma : c ∉ [','] := fun hmem => hc (List.mem_append_left [']'] hmem)
  have hclose : c ∉ [']', ','] := fun hmem => hc ((List.Perm.swap ',' ']' []).mem_iff.mp hmem)
  induction ss using signalPieces.induct with
  | case1 => exact List.forall_mem_singleton.mpr hclose
  | case2 s => exact List.forall_mem_singleton.mpr ⟨h s List.mem_cons_self, hclose⟩
  | case3 s t ss ih =>
    rw [List.forall_mem_cons] at h
    exact List.forall_mem_cons.mpr ⟨⟨h.1, hcomma⟩, ih h.2⟩

/-- The signals do not hide the key of the format. -/
theorem signals_clear {ss : List Text} (h : ss.Pairwise fun s t => Spells "format".toList s → ':' ∉ t) :
    ClearOf "format".toList ':' (signalPieces ss) := by
  induction ss using signalPieces.induct with
  | case1 => trivial
  | case2 s => exact ⟨fun _ => by decide, trivial⟩
  | case3 s t ss ih =>
    rw [List.pairwise_cons] at h
    refine ⟨fun hs => List.not_mem_append (by decide) ?_, ih h.2⟩
    exact notMem_render (by decide) (signalPieces_without (by decide) fun t' ht => h.1 t' ht hs)

theorem BusFormat.ofText_text (f : BusFormat) : BusFormat.ofText f.text = f := by
  cases f <;> decide

/-- A bus is read from its text. -/
theorem parseBus_text {b : BusDefinition} (hname : b.name ≠ []) (h : b.Readable) : parseBus (Item.bus b).text = some b := by
  have hkey : ∀ k ∈ ["name", "signals", "format"], KeyWord k.toList := fun k hk =>
    keyWords k (List.mem_append_left ["hi", "lo", "fmt", "trig_cond", "trig_value", "trig_cond_b", "trig_value_b"] hk)
  simp only [List.forall_mem_cons] at hkey
  obtain ⟨hkname, hksignals, hkformat, -⟩ := hkey
  have htext : (Item.bus b).text = render ((Item.bus b).pieces []) := by
    rw [render_item, List.append_nil]
  have hstart : ∀ p ∈ [Piece.raw ['\x7b'], keyPiece "name".toList [], .str b.name [',']], p.Plain := fun p hp =>
    busFront_plain b.name b.signals p (List.mem_append_left _ (List.mem_append_left [keyPiece "signals".toList ['[']] hp))
  have hreadName : jsonString (Item.bus b).text "name".toList = b.name := by
    rw [htext]
    exact string_in hkname (List.forall_mem_singleton.mpr (raw_plain (by decide))) trivial _ _ _
  have hreadSignals : jsonStringArray (Item.bus b).text "signals".toList = b.signals := by
    have hclear : ClearOf "signals".toList '[' [.raw ['\x7b'], keyPiece "name".toList [], .str b.name [',']] :=
      ⟨fun hs => absurd hs (by decide), fun _ => by decide, trivial⟩
    have hshape : (Item.bus b).pieces [] = [.raw ['\x7b'], keyPiece "name".toList [], .str b.name [',']] ++
        keyPiece "signals".toList ['['] :: (signalPieces b.signals ++
          [keyPiece "format".toList [], .str b.format.text ['\x7d']]) := by
      rw [Item.pieces]
      simp only [List.cons_append, List.nil_append]
    rw [htext, hshape]
    exact strings_in hksignals hstart hclear _ _
  have hreadFormat : jsonString (Item.bus b).text "format".toList = b.format.text := by
    have hclear : ClearOf "format".toList ':' (busFront b.name b.signals) :=
      ⟨fun hs => absurd hs (by decide), fun hs => absurd hs h.name, fun hs => absurd hs (by decide), signals_clear h.signals⟩
    rw [htext]
    exact string_in hkformat (busFront_plain _ _) hclear _ _ _
  rw [parseBus, hreadName, hreadSignals, hreadFormat, BusFormat.ofText_text]
  exact if_neg hname

/-! ### Lanes -/

/-- What a lane must hold to be read as it was written: a name without a brace that imitates no key behind the upper end. -/
structure IlaSignalConfig.Readable (l : IlaSignalConfig) : Prop where
  noBrace : '\x7d' ∉ l.name
  name : ∀ key ∈ ["lo", "fmt", "trig_cond", "trig_value", "trig_cond_b", "trig_value_b"], ¬Spells key.toList l.name

/-- The strings of a lane behind its name. -/
def laneStrings (f : BusFormat) : List Text := ["hi".toList, "lo".toList, "fmt".toList, f.text, "trig_cond".toList,
  "trig_value".toList, "trig_cond_b".toList, "trig_value_b".toList]

theorem laneBack_strings (l : IlaSignalConfig) (ending : Text) :
    (laneBack l ending).map Piece.string = (laneStrings l.fmt).map some := rfl

/-- No string of a lane imitates a later one. -/
theorem laneStrings_apart (f : BusFormat) : ("name".toList :: laneStrings f).Pairwise fun s t => ¬Spells t s := by
  cases f <;> decide

/-- The keys of a lane are not hidden. -/
theorem lane_clear {l : IlaSignalConfig} {i : ℕ} (hget : (laneStrings l.fmt)[i]? = some k) (hname : ¬Spells k l.name)
    (d : Char) : ClearOf k d (laneFront l.name ++ (laneBack l []).take i) := by
  have hapart := laneStrings_apart l.fmt
  rw [eq_take_append hget, ← List.cons_append, List.pairwise_append] at hapart
  have hbefore : ∀ s ∈ "name".toList :: (laneStrings l.fmt).take i, ¬Spells k s := fun s hs =>
    hapart.2.2 s hs k List.mem_cons_self
  rw [List.forall_mem_cons] at hbefore
  refine clearOf_of_not_spells fun s hs => ?_
  rw [List.filterMap_append, strings_take (laneBack_strings l []), List.mem_append] at hs
  rcases hs with hs | hs
  · rcases List.mem_cons.mp hs with rfl | hs
    · exact hbefore.1
    · exact List.mem_singleton.mp hs ▸ hname
  · exact hbefore.2 s hs

theorem lane_split {l : IlaSignalConfig} {i : ℕ} {p : Piece} (hget : (laneBack l [])[i]? = some p) :
    (Item.lane l).text = render (laneFront l.name ++ (laneBack l []).take i ++ p :: (laneBack l []).drop (i + 1)) ∧
      (laneStrings l.fmt)[i]? = p.string ∧ ∀ p ∈ laneFront l.name ++ (laneBack l []).take i, p.Plain := by
  have htext : (Item.lane l).text = render ((Item.lane l).pieces []) := by
    rw [render_item, List.append_nil]
  have hstring : ((laneBack l []).map Piece.string)[i]? = some p.string := by
    rw [List.getElem?_map, hget]
    rfl
  refine ⟨?_, ?_, List.forall_mem_append.mpr ⟨laneFront_plain _, fun p hp =>
    laneBack_plain l List.not_mem_nil p (List.mem_of_mem_take hp)⟩⟩
  · rw [htext, Item.pieces, List.append_assoc, ← eq_take_append hget]
  · rw [laneBack_strings, List.getElem?_map] at hstring
    obtain ⟨s, hs, hp⟩ := Option.map_eq_some_iff.mp hstring
    rw [hs, hp]

theorem lane_number {l : IlaSignalConfig} {i : ℕ} (hk : KeyWord k) {n : ℤ} {c : Char}
    (hget : (laneBack l [])[i]? = some (keyPiece k (decimal n ++ [c]))) (hname : ¬Spells k l.name)
    (hn : -2 ^ 63 ≤ n ∧ n < 2 ^ 63) (hc : isNumberChar c = false) : jsonInt (Item.lane l).text k 0 = n := by
  obtain ⟨htext, hkey, hplain⟩ := lane_split hget
  rw [htext]
  exact number_in hk hplain (lane_clear hkey hname ':') hn hc [] _

theorem toInt_range (v : BitVec 32) : -2 ^ 63 ≤ v.toInt ∧ v.toInt < 2 ^ 63 := by
  have hlow := v.le_toInt
  have hhigh := @BitVec.toInt_lt 32 v
  omega

theorem toNat_range {w : ℕ} (hw : w ≤ 32) (v : BitVec w) : -2 ^ 63 ≤ (v.toNat : ℤ) ∧ (v.toNat : ℤ) < 2 ^ 63 := by
  have hlt := v.isLt
  have hle : 2 ^ w ≤ 2 ^ 32 := Nat.pow_le_pow_right (by decide) hw
  omega

theorem ofInt_toNat {w : ℕ} (v : BitVec w) : BitVec.ofInt w (v.toNat : ℤ) = v := by
  rw [BitVec.ofInt_natCast, BitVec.ofNat_toNat, BitVec.setWidth_eq]

/-- A lane is read from its text. -/
theorem parseIlaSignal_text {l : IlaSignalConfig} (hname : l.name ≠ []) (h : l.Readable) :
    parseIlaSignal (Item.lane l).text = some l := by
  have hkey : ∀ k ∈ ["name", "hi", "lo", "fmt", "trig_cond", "trig_value", "trig_cond_b", "trig_value_b"],
      KeyWord k.toList := fun k hk => keyWords k (by
    rw [List.mem_cons] at hk ⊢
    exact hk.imp_right fun hk => List.mem_append_right ["signals", "format"] hk)
  simp only [List.forall_mem_cons] at hkey
  obtain ⟨hkname, hkhi, hklo, hkfmt, hkcond, hkvalue, hkcondB, hkvalueB, -⟩ := hkey
  have hspells := h.name
  simp only [List.forall_mem_cons] at hspells
  obtain ⟨hslo, hsfmt, hscond, hsvalue, hscondB, hsvalueB, -⟩ := hspells
  have hreadName : jsonString (Item.lane l).text "name".toList = l.name := by
    have htext : (Item.lane l).text = render ((Item.lane l).pieces []) := by
      rw [render_item, List.append_nil]
    rw [htext]
    exact string_in hkname (List.forall_mem_singleton.mpr (raw_plain (by decide))) trivial _ _ _
  have hreadHi : jsonInt (Item.lane l).text "hi".toList 0 = l.hi.toInt := by
    have hclear : ClearOf "hi".toList ':' (laneFront l.name) := ⟨fun hs => absurd hs (by decide), fun _ => by decide, trivial⟩
    obtain ⟨htext, -, hplain⟩ := @lane_split l 0 _ rfl
    rw [htext]
    exact number_in hkhi hplain hclear (toInt_range _) (by decide) [] _
  have hreadLo : jsonInt (Item.lane l).text "lo".toList 0 = l.lo.toInt :=
    @lane_number _ l 1 hklo _ ',' rfl hslo (toInt_range _) (by decide)
  have hreadFmt : jsonString (Item.lane l).text "fmt".toList = l.fmt.text := by
    obtain ⟨htext, hkey, hplain⟩ := @lane_split l 2 _ rfl
    rw [htext]
    exact string_in hkfmt hplain (lane_clear hkey hsfmt ':') _ _ _
  have hreadCond : jsonInt (Item.lane l).text "trig_cond".toList 0 = l.trigCond.toInt :=
    @lane_number _ l 4 hkcond _ ',' rfl hscond (toInt_range _) (by decide)
  have hreadValue : jsonInt (Item.lane l).text "trig_value".toList 0 = l.trigValue.toNat :=
    @lane_number _ l 5 hkvalue _ ',' rfl hsvalue (toNat_range le_rfl _) (by decide)
  have hreadCondB : jsonInt (Item.lane l).text "trig_cond_b".toList 0 = l.trigCondB.toInt :=
    @lane_number _ l 6 hkcondB _ ',' rfl hscondB (toInt_range _) (by decide)
  have hreadValueB : jsonInt (Item.lane l).text "trig_value_b".toList 0 = l.trigValueB.toNat :=
    @lane_number _ l 7 hkvalueB _ '\x7d' rfl hsvalueB (toNat_range le_rfl _) (by decide)
  rw [parseIlaSignal, hreadName, hreadHi, hreadLo, hreadFmt, hreadCond, hreadValue, hreadCondB, hreadValueB,
    BusFormat.ofText_text, BitVec.ofInt_toInt, BitVec.ofInt_toInt, BitVec.ofInt_toInt, BitVec.ofInt_toInt,
    ofInt_toNat, ofInt_toNat]
  exact if_neg hname

end OwlTap.Gui
