import OwlTap.Gui.FlatJson
import OwlTap.Gui.IlaPanel
import OwlTap.Gui.WaveformView
import OwlTap.Ila.GeneratedCores
import OwlTap.Ila.SignalDefinitions

/-!
# From the generator to the panel

The generator writes the lanes of a core twice: their bits and formats as parameters of the core, whose ROM shows
them to the driver, and their names to a file beside it. The panel puts both together again by their order. For every
configuration that is accepted the lanes that it shows are those that were configured, with 31 characters of a name at
most (`generated_lanes_shown`).
-/

namespace OwlTap.Gui

open OwlTap Bsdl Ila Ftdi Jtag

/-! ### The file with the names -/

/-- The name of a format. -/
def formatName : IlaGeneratorFormat → Text
  | .dec => "DEC".toList
  | .bin => "BIN".toList
  | .hex => "HEX".toList

/-- A lane in the file. -/
def laneText (lane : IlaGeneratorLane) : Text :=
  ['\x7b'] ++ quoted "name".toList ++ [':'] ++ quoted lane.name.toList ++ [','] ++ quoted "hi".toList ++ [':'] ++
    decimal lane.hi.toInt ++ [','] ++ quoted "lo".toList ++ [':'] ++ decimal lane.lo.toInt ++ [','] ++
    quoted "fmt".toList ++ [':'] ++ quoted (formatName lane.format) ++ ['\x7d']

/-- The lines of the lanes. -/
def laneLines : List IlaGeneratorLane → Text
  | [] => []
  | [lane] => "    ".toList ++ laneText lane ++ "\n".toList
  | lane :: lane' :: lanes => "    ".toList ++ laneText lane ++ ",\n".toList ++ laneLines (lane' :: lanes)

/-- The file beside a generated core. -/
def renderIlaConfigJson (cfg : IlaGeneratorConfig) : Text :=
  "\x7b\n  ".toList ++ quoted "lanes".toList ++ ": [\n".toList ++ laneLines cfg.lanes ++ "  ]\n\x7d\n".toList

/-! ### The lanes of the panel -/

/-- A lane as the panel shows it. -/
structure IlaLane extends IlaSignalDef where
  name : Text
  fmt : BusFormat
  deriving DecidableEq

/-- What `snprintf` leaves of a text in the 32 bytes of a name. -/
def shortName (s : Text) : Text := s.take 31

/-- A lane for an entry of the ROM. -/
def laneOfEntry (e : IlaSignalEntry) : IlaLane where
  hi := e.hi
  lo := e.lo
  name :=
    if e.nameIdx = 0xFF then
      shortName ("data[".toList ++ decimal e.hi ++ ":".toList ++ decimal e.lo ++ "]".toList)
    else shortName ("sig".toList ++ decimal e.nameIdx)
  fmt := if e.fmt = 1 then .dec else if e.fmt = 2 then .bin else .hex

/-- The name in an object, if there is one. -/
def objectName (obj : Text) : Option Text :=
  (((behind (quoted "name".toList) obj).bind (behind ['"']))).bind fun rest =>
    if '"' ∈ rest then some (rest.takeWhile (· ≠ '"')) else none

/-- The lane with the name that an object has for it. -/
def nameLane (lane : IlaLane) (obj : Text) : IlaLane :=
  match objectName obj with
  | none => lane
  | some name => if name = [] then lane else { lane with name := shortName name }

/-- Each lane takes the name of the object in its place; without a list of lanes, or behind its end, it keeps its own. -/
def nameLanes : List IlaLane → (objects : List Text) → List IlaLane
  | [], _ => []
  | lanes, [] => lanes
  | lane :: lanes, obj :: objects => nameLane lane obj :: nameLanes lanes objects

/-- `applyIlaConfigJsonNames`, with the contents of the file if it is set and can be opened. -/
def applyIlaConfigJsonNames (file : Option Text) (signals : List IlaLane) : List IlaLane :=
  match file.bind fun json => (behind (quoted "lanes".toList) json).bind (behind ['[']) with
  | none => signals
  | some rest => nameLanes signals (readObjects none rest)

variable {β : Type} (B : IlaTapBackend β)

/-- The lanes that a new driver finds: those of the core, if it has any and they can be read. -/
def loadSignals (file : Option Text) : Method (IlaDriver β) (Option (List IlaLane)) := do
  let (_, caps) ← IlaDriver.probe B {}
  if 0 < caps.sigCount then
    let (ok, entries) ← IlaDriver.readSignalDefs B []
    pure (if ok then some (applyIlaConfigJsonNames file (entries.map laneOfEntry)) else none)
  else pure none

/-- One lane for the whole word. -/
def resetSignalDefs (dataW : ℕ) : List IlaLane :=
  [{ hi := dataW - 1, lo := 0, name := shortName ("data[".toList ++ decimal (dataW - 1) ++ ":0]".toList), fmt := .hex }]

/-- What `setBscaneChain` sets: whether the lanes are those of the core, the lanes, and the driver. -/
def setBscaneChain {σ : Type} (T : Target σ) (chain : JtagChain σ) (plTapIndex userChain : ℤ) (file : Option Text) :
    Option (Bool × List IlaLane × IlaDriver (BscaneIlaTapBackend σ)) :=
  (loadSignals (BscaneIlaTapBackend.backend T) file { backend := .create chain plTapIndex userChain }).map fun (loaded, d) =>
    (loaded.isSome, loaded.getD (resetSignalDefs d.caps.dataW), d)

/-! ### Names read again -/

/-- A configured lane, as it is to be shown. -/
def shownLane (lane : IlaGeneratorLane) : IlaLane where
  hi := lane.hi.toInt
  lo := lane.lo.toInt
  name := shortName lane.name.toList
  fmt := match lane.format with
    | .hex => .hex
    | .dec => .dec
    | .bin => .bin

/-- What an accepted lane is. -/
structure Laned (lane : IlaGeneratorLane) : Prop where
  name : lane.name.toList ≠ [] ∧ ∀ c ∈ lane.name.toList, c.isAlphanum = true ∨ c = '_'
  range : 0 ≤ lane.lo.toInt ∧ lane.lo.toInt ≤ lane.hi.toInt ∧ lane.hi.toInt < 32

theorem chars_of_isIdentifier {text : String} (h : isIdentifier text = true) :
    text.toList ≠ [] ∧ ∀ c ∈ text.toList, c.isAlphanum = true ∨ c = '_' := by
  unfold isIdentifier at h
  cases hlist : text.toList with
  | nil =>
    rw [hlist] at h
    cases h
  | cons first rest =>
    rw [hlist] at h
    obtain ⟨hfirst, hrest⟩ := Bool.and_eq_true_iff.mp h
    refine ⟨List.cons_ne_nil _ _, List.forall_mem_cons.mpr ⟨?_, fun c hc => ?_⟩⟩
    · rcases Bool.or_eq_true_iff.mp hfirst with hf | hf
      · exact Or.inl (Bool.or_eq_true_iff.mpr (Or.inl hf))
      · exact Or.inr (beq_iff_eq.mp hf)
    · rcases Bool.or_eq_true_iff.mp (List.all_eq_true.mp hrest c hc) with hc | hc
      · exact Or.inl hc
      · exact Or.inr (beq_iff_eq.mp hc)

theorem laned_of_laneError {dataWidth : BitVec 32} (hwidth : dataWidth.toInt ≤ 32) {lane : IlaGeneratorLane}
    (h : laneError dataWidth lane = none) : Laned lane := by
  unfold laneError at h
  split_ifs at h with hname hrange
  have hname : isIdentifier lane.name = true := by simpa using hname
  exact ⟨chars_of_isIdentifier hname, by omega⟩

theorem laned_of_validate {config : IlaGeneratorConfig} (h : validateIlaGeneratorConfig config = none)
    (hcount : config.lanes.length < 2 ^ 31) :
    (config.lanes ≠ [] ∧ config.lanes.length ≤ 15) ∧ ∀ lane ∈ config.lanes, Laned lane := by
  unfold validateIlaGeneratorConfig at h
  split_ifs at h with h₁ h₂ h₃ h₄ h₅ h₆ hwidth hdepth hempty hmany
  have hlength : (BitVec.ofNat 32 config.lanes.length).toInt = config.lanes.length := by
    rw [BitVec.toInt_eq_toNat_cond, BitVec.toNat_ofNat, Nat.mod_eq_of_lt (by omega), if_pos (by omega)]
  have hmax : kMaxLaneCount = 15 := rfl
  rw [hlength, hmax] at hmany
  refine ⟨⟨fun hnil => hempty (by rw [hnil]; rfl), by omega⟩, fun lane hlane => ?_⟩
  exact laned_of_laneError (by omega) (List.findSome?_eq_none_iff.mp h lane hlane)

theorem Laned.notMem {lane : IlaGeneratorLane} (h : Laned lane) {c : Char} (hc : c.isAlphanum = false) (hu : c ≠ '_') :
    c ∉ lane.name.toList := by
  intro hmem
  rcases h.name.2 c hmem with h | h
  · rw [hc] at h
    cases h
  · exact hu h

/-- What is between the braces of a lane. -/
theorem laneText_eq (lane : IlaGeneratorLane) : ∃ tail, '\x7d' ∉ tail ∧ laneText lane =
    '\x7b' :: (quoted "name".toList ++ (':' :: '"' :: (lane.name.toList ++ '"' :: tail)) ++ ['\x7d']) := by
  have hformat : '\x7d' ∉ quoted (formatName lane.format) := by
    cases lane.format <;> decide
  refine ⟨[','] ++ quoted "hi".toList ++ [':'] ++ decimal lane.hi.toInt ++ [','] ++ quoted "lo".toList ++ [':'] ++
    decimal lane.lo.toInt ++ [','] ++ quoted "fmt".toList ++ [':'] ++ quoted (formatName lane.format), ?_, ?_⟩
  · have hnumber := @notMem_decimal '\x7d' (by decide) (by decide)
    simp only [List.mem_append, not_or]
    exact ⟨⟨⟨⟨⟨⟨⟨⟨⟨⟨⟨by decide, by decide⟩, by decide⟩, hnumber _⟩, by decide⟩, by decide⟩, by decide⟩, hnumber _⟩,
      by decide⟩, by decide⟩, by decide⟩, hformat⟩
  · have hquoted : quoted lane.name.toList = '"' :: (lane.name.toList ++ ['"']) := rfl
    unfold laneText
    rw [hquoted]
    simp only [List.append_assoc, List.cons_append, List.nil_append]

theorem objectName_laneText {lane : IlaGeneratorLane} (h : Laned lane) :
    objectName (laneText lane) = some lane.name.toList := by
  obtain ⟨tail, -, htext⟩ := laneText_eq lane
  have hquote : '"' ∉ lane.name.toList := h.notMem (by decide) (by decide)
  have hopen : ¬quoted "name".toList <+: '\x7b' :: (quoted "name".toList ++
      (':' :: '"' :: (lane.name.toList ++ '"' :: (tail ++ ['\x7d'])))) := fun hp =>
    absurd (List.cons_prefix_cons.mp hp).1 (by decide)
  have hcolon : '"' ∉ [':'] := by decide
  have hvalue : behind ['"'] (':' :: '"' :: (lane.name.toList ++ '"' :: (tail ++ ['\x7d']))) =
      some (lane.name.toList ++ '"' :: (tail ++ ['\x7d'])) := behind_char hcolon _
  have hplain : ∀ c ∈ lane.name.toList, decide (c ≠ '"') = true := fun c hc => decide_eq_true fun he => hquote (he ▸ hc)
  have hstop : List.takeWhile (fun c => decide (c ≠ '"')) ('"' :: (tail ++ ['\x7d'])) = [] := rfl
  rw [htext, List.append_assoc, List.cons_append, List.cons_append, List.append_assoc, List.cons_append, objectName,
    behind_cons_of_not hopen, behind_append, Option.bind_some, hvalue, Option.bind_some,
    if_pos (List.mem_append_right _ List.mem_cons_self), List.takeWhile_append_of_pos hplain,
    hstop, List.append_nil]

theorem readObjects_laneLines {lanes : List IlaGeneratorLane} (h : ∀ lane ∈ lanes, Laned lane) (rest : Text) :
    readObjects none (laneLines lanes ++ rest) = lanes.map laneText ++ readObjects none rest := by
  have hindent : ']' ∉ "    ".toList ∧ '\x7b' ∉ "    ".toList := by decide
  have hnewline : ']' ∉ "\n".toList ∧ '\x7b' ∉ "\n".toList := by decide
  have hcomma : ']' ∉ ",\n".toList ∧ '\x7b' ∉ ",\n".toList := by decide
  have hstep : ∀ {lane : IlaGeneratorLane}, Laned lane → ∀ {sep : Text}, ']' ∉ sep ∧ '\x7b' ∉ sep → ∀ tail : Text,
      readObjects none ("    ".toList ++ (laneText lane ++ (sep ++ tail))) = laneText lane :: readObjects none tail := by
    intro lane hlane sep hsep tail
    obtain ⟨rest, hrest, htext⟩ := laneText_eq lane
    have hname : '\x7d' ∉ lane.name.toList := hlane.notMem (by decide) (by decide)
    have hbody : '\x7d' ∉ quoted "name".toList ++ (':' :: '"' :: (lane.name.toList ++ '"' :: rest)) := by
      refine List.not_mem_append (by decide) ?_
      refine List.not_mem_cons_of_ne_of_not_mem (by decide) (List.not_mem_cons_of_ne_of_not_mem (by decide) ?_)
      exact List.not_mem_append hname (List.not_mem_cons_of_ne_of_not_mem (by decide) hrest)
    rw [readObjects_skip hindent, htext, List.cons_append, List.append_assoc _ ['\x7d'], List.singleton_append,
      readObjects_object hbody, readObjects_skip hsep]
  induction lanes using laneLines.induct with
  | case1 => rfl
  | case2 lane =>
    rw [List.forall_mem_cons] at h
    rw [laneLines, List.append_assoc, List.append_assoc, hstep h.1 hnewline]
    rfl
  | case3 lane lane' lanes ih =>
    rw [List.forall_mem_cons] at h
    rw [laneLines, List.append_assoc, List.append_assoc, List.append_assoc, hstep h.1 hcomma, ih h.2]
    rfl

/-- The entry of the ROM for a lane. -/
def laneEntry (lane : IlaGeneratorLane) : IlaSignalEntry :=
  ⟨(lane.hi.setWidth 8).toNat, (lane.lo.setWidth 8).toNat, (formatEnumLiteral lane.format).toNat, 0xFF⟩

theorem romEntries_params (config : IlaGeneratorConfig) : romEntries config.params = config.lanes.map laneEntry := by
  refine List.ext_getElem (by rw [romEntries, List.length_map, List.length_range, List.length_map]; rfl) fun i hi hi' => ?_
  rw [List.length_map] at hi'
  have hlane : config.lanes[i]? = some config.lanes[i] := List.getElem?_eq_getElem hi'
  simp only [romEntries, List.getElem_map, List.getElem_range, IlaGeneratorConfig.params, hlane, Option.elim_some, laneEntry]

theorem nameLane_laneText {lane : IlaGeneratorLane} (h : Laned lane) :
    nameLane (laneOfEntry (laneEntry lane)) (laneText lane) = shownLane lane := by
  have hbyte : ∀ {v : BitVec 32}, 0 ≤ v.toInt → v.toInt < 32 → ((v.setWidth 8).toNat : ℤ) = v.toInt := by
    intro v hlow hhigh
    have hlt := v.isLt
    have hint := v.toInt_eq_toNat_cond
    rw [BitVec.toNat_setWidth]
    split_ifs at hint <;> omega
  obtain ⟨hlo, hle, hhi⟩ := h.range
  unfold nameLane
  rw [objectName_laneText h]
  dsimp only
  rw [if_neg h.name.1, laneOfEntry, laneEntry, shownLane, hbyte (by omega) hhi, hbyte hlo (by omega)]
  cases lane.format <;> rfl

/-- The file names the lanes of the core in their order. -/
theorem applyIlaConfigJsonNames_render {config : IlaGeneratorConfig} (h : ∀ lane ∈ config.lanes, Laned lane) :
    applyIlaConfigJsonNames (some (renderIlaConfigJson config)) ((romEntries config.params).map laneOfEntry) =
      config.lanes.map shownLane := by
  have hstart : '"' ∉ "\x7b\n  ".toList := by decide
  have hcolon : '[' ∉ ": ".toList := by decide
  have hnewline : ']' ∉ "\n".toList ∧ '\x7b' ∉ "\n".toList := by decide
  have hspaces : ']' ∉ "  ".toList ∧ '\x7b' ∉ "  ".toList := by decide
  have hlanes : (behind (quoted "lanes".toList) (renderIlaConfigJson config)).bind (behind ['[']) =
      some ("\n".toList ++ (laneLines config.lanes ++ ("  ".toList ++ "]\n\x7d\n".toList))) := by
    have htext : renderIlaConfigJson config = "\x7b\n  ".toList ++ (quoted "lanes".toList ++ (": ".toList ++
        '[' :: ("\n".toList ++ (laneLines config.lanes ++ ("  ".toList ++ "]\n\x7d\n".toList))))) := by
      unfold renderIlaConfigJson
      simp only [List.append_assoc]
      rfl
    rw [htext, quoted, behind_append_of_notMem hstart, ← quoted, behind_append, Option.bind_some, behind_char hcolon]
  have hend : readObjects none "]\n\x7d\n".toList = [] := rfl
  have hnames : ∀ lanes : List IlaGeneratorLane, (∀ lane ∈ lanes, Laned lane) →
      nameLanes ((lanes.map laneEntry).map laneOfEntry) (lanes.map laneText) = lanes.map shownLane := by
    intro lanes hlanes
    induction lanes with
    | nil => rfl
    | cons lane lanes ih =>
      rw [List.forall_mem_cons] at hlanes
      rw [List.map_cons, List.map_cons, List.map_cons, List.map_cons, nameLanes, nameLane_laneText hlanes.1, ih hlanes.2]
  unfold applyIlaConfigJsonNames
  rw [Option.bind_some, hlanes]
  dsimp only
  rw [readObjects_skip hnewline, readObjects_laneLines h, readObjects_skip hspaces, hend, List.append_nil,
    romEntries_params, hnames _ h]

/-- **What is generated is what is shown.** For every configuration with words of 32 bits that is accepted, on every chain
with an FPGA that has its core: the panel that is connected to it with the file beside the core shows the lanes that were
configured, whatever the core holds. -/
theorem generated_lanes_shown {config : IlaGeneratorConfig} (hvalid : validateIlaGeneratorConfig config = none)
    (hcount : config.lanes.length < 2 ^ 31) (hdepth : 2 ≤ config.depth.toInt) {k : ℕ} {userChain : ℤ}
    {d : FpgaTap 32 config.addrW} {chain : JtagChain (List (Device (ChainCore config.addrW)))}
    (h : Linked k d (.create chain k userChain)) (hp : d.core.params = config.params) :
    ∃ driver, setBscaneChain chainTarget chain k userChain (some (renderIlaConfigJson config)) =
      some (true, config.lanes.map shownLane, driver) := by
  obtain ⟨⟨hlanes, hfew⟩, hlaned⟩ := laned_of_validate hvalid hcount
  obtain ⟨-, -, haddr, hpow⟩ := geometry_of_validate hvalid
  have hw : 1 ≤ config.addrW ∧ config.addrW ≤ 32 := by
    have hint := (toNat_of_toInt_pos (by omega : 0 < config.depth.toInt)).1
    refine ⟨Nat.pos_of_ne_zero fun hzero => ?_, by omega⟩
    rw [hzero, Nat.pow_zero] at hpow
    omega
  have hsig : d.core.params.sigCount = config.lanes.length := congrArg IlaParams.sigCount hp
  have hpos : d.core.params.sigCount ≠ 0 := hsig ▸ fun hzero => hlanes (List.length_eq_zero_iff.mp hzero)
  have hstart : IlaDriver.Ready (Idles k d.core.time d.core.side) d.core.params none
      { backend := .create chain k userChain } (d.core.registerFile (d.core.side (d.core.time - 1))) :=
    ⟨h.idles, rfl, .inl rfl⟩
  -- the probe
  obtain ⟨d₁, s₁, f₁, hexec₁, hd₁, hview₁⟩ :=
    IlaDriver.exec_effect (chain_serves k d.core.time d.core.side) hw hstart (show ¬IlaOp.probe.ReadsSamples from nofun)
  have hcaps₁ : d₁.caps = capsOf d.core.params config.addrW := congrArg IlaView.caps hview₁
  obtain ⟨⟨ok, caps⟩, e₁, hprobe, hpure⟩ := Method.bind_eq_some.mp hexec₁
  obtain ⟨hreply, rfl⟩ := Prod.mk.inj (Option.some.inj hpure)
  obtain ⟨-, rfl⟩ := IlaReply.caps.inj hreply
  have hcount₁ : 0 < (capsOf d.core.params config.addrW).sigCount := by
    rw [(IlaDriver.capsOf_fields d.core.params hw).2.2.2.1, Nat.mod_eq_of_lt (by omega)]
    omega
  -- the definitions
  obtain ⟨e₂, s₂, f₂, hexec₂, -⟩ :=
    IlaDriver.exec_effect (chain_serves k d.core.time d.core.side) hw hd₁ (show ¬IlaOp.readSignalDefs.ReadsSamples from nofun)
  have hdefs := (IlaDriver.exec_probed hw (by omega) hd₁ hcaps₁ hexec₂).2.2 rfl
  obtain ⟨⟨ok₂, entries⟩, e₃, hread, hpure₂⟩ := Method.bind_eq_some.mp hexec₂
  obtain ⟨hreply₂, rfl⟩ := Prod.mk.inj (Option.some.inj hpure₂)
  obtain ⟨rfl, rfl⟩ := IlaReply.signalDefs.inj (hreply₂.trans hdefs)
  have hload : loadSignals (BscaneIlaTapBackend.backend chainTarget) (some (renderIlaConfigJson config))
      { backend := .create chain k userChain } = some (some (config.lanes.map shownLane), e₃) := by
    refine Method.bind_of_eq _ hprobe |>.trans ?_
    dsimp only
    rw [if_pos hcount₁]
    refine Method.bind_of_eq _ hread |>.trans ?_
    rw [decide_eq_true hpos, hp, applyIlaConfigJsonNames_render hlaned]
    rfl
  exact ⟨e₃, congrArg (Option.map _) hload⟩

/-- A core with three lanes. -/
def lanedConfig : IlaGeneratorConfig :=
  { depth := 16
    lanes := [⟨"state", 3, 0, .dec⟩, ⟨"a_name_with_more_than_thirty_one_characters", 30, 4, .hex⟩, ⟨"flag", 31, 31, .bin⟩] }

theorem generated_lanes_shown_lanedConfig :
    ∃ driver, setBscaneChain chainTarget (generatedChain lanedConfig) (0 : ℕ) 1 (some (renderIlaConfigJson lanedConfig)) =
      some (true, [⟨⟨3, 0⟩, "state".toList, .dec⟩, ⟨⟨30, 4⟩, "a_name_with_more_than_thirty_on".toList, .hex⟩,
        ⟨⟨31, 31⟩, "flag".toList, .bin⟩], driver) :=
  @generated_lanes_shown lanedConfig (by decide +kernel) (by decide) (by decide) 0 1 (generatedFpga lanedConfig)
    (generatedChain lanedConfig) (generated_generatedChain lanedConfig).toHosts.linked rfl

end OwlTap.Gui
