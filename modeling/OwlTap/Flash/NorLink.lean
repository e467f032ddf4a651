import OwlTap.Base.SpiNor
import OwlTap.Flash.SpiFlash

/-!
# The driver and the chip

A transport to a SPI NOR flash, some of whose transactions fail, records what is issued and whether
the chip was busy then. On a chip that is not busy the driver issues nothing but status reads while
it is, and each of its operations, if it succeeds, leaves the chip not busy, and does what it says.
-/

namespace OwlTap.Flash

open OwlTap

/-- A command that was issued. -/
structure Issue where
  /-- The bytes sent. -/
  tx : List Byte
  /-- Whether a write was in progress. -/
  wip : Bool

/-- A transport to a chip. -/
structure NorLink where
  /-- The chip. -/
  chip : SpiNor
  /-- The transactions to come that fail, and whether they reach the chip. -/
  losses : List (Option Bool) := []
  /-- What has been issued. -/
  log : List Issue := []

namespace NorLink

/-- A transaction. -/
def transfer (tx rx : List Byte) : Method NorLink (Bool × List Byte) := fun l =>
  let log := l.log ++ [⟨tx, decide (l.chip.busy ≠ 0)⟩]
  match l.losses.headD none with
  | none => some ((true, (l.chip.execute tx).2), ⟨(l.chip.execute tx).1, l.losses.tail, log⟩)
  | some reached => some ((false, rx), ⟨if reached then (l.chip.execute tx).1 else l.chip, l.losses.tail, log⟩)

/-- The transport. -/
def bridge : IFlashBridge NorLink := ⟨transfer, fun _ => "lost"⟩

end NorLink

/-- The page programs among the commands issued: address and bytes. -/
def programs (issues : List Issue) : List (ℕ × List Byte) :=
  issues.filterMap fun e =>
    match e.tx with
    | op :: a :: b :: d :: data => if op = SpiNor.opPageProgram then some (SpiNor.address a b d, data) else none
    | _ => none

@[simp] theorem programs_append (a b : List Issue) : programs (a ++ b) = programs a ++ programs b :=
  List.filterMap_append

/-- Nothing but status reads is issued while a write is in progress. -/
def Polite (issues : List Issue) : Prop := ∀ e ∈ issues, e.wip = true → e.tx.head? = some SpiNor.opReadStatus

theorem Polite.append {a b : List Issue} (ha : Polite a) (hb : Polite b) : Polite (a ++ b) := by
  intro e he
  exact (List.mem_append.mp he).elim (ha e) (hb e)

/-- An address survives as three bytes. -/
theorem address_bytes {n : ℕ} (h : n < 2 ^ 24) :
    ∃ a b d, addressBytes (BitVec.ofNat 32 n) = [a, b, d] ∧ SpiNor.address a b d = n := by
  refine ⟨_, _, _, rfl, ?_⟩
  simp only [SpiNor.address, BitVec.extractLsb'_toNat, BitVec.toNat_ofNat, Nat.shiftRight_eq_div_pow]
  omega

namespace Mt25qFlash

variable {f f' f'' : Mt25qFlash NorLink}

/-- The chip is not busy. -/
def Idle (f : Mt25qFlash NorLink) : Prop := f.bridge.chip.busy = 0

/-- From one moment to another these commands were issued. -/
def Issued (f f' : Mt25qFlash NorLink) (issues : List Issue) : Prop := f'.bridge.log = f.bridge.log ++ issues

theorem Issued.trans {a b : List Issue} (h : Issued f f' a) (h' : Issued f' f'' b) : Issued f f'' (a ++ b) := by
  rw [Issued, h', h, List.append_assoc]

/-- One transaction. -/
theorem transfer_spec {tx rx : List Byte} {ok : Bool} (h : transfer NorLink.bridge tx f = some ((ok, rx), f')) :
    Issued f f' [⟨tx, decide (f.bridge.chip.busy ≠ 0)⟩] ∧
      (ok = true → f'.bridge.chip = (f.bridge.chip.execute tx).1 ∧ rx = (f.bridge.chip.execute tx).2) := by
  obtain ⟨l, hl, rfl⟩ := Method.on_eq_some.mp h
  change NorLink.transfer tx [] f.bridge = _ at hl
  rw [NorLink.transfer] at hl
  split at hl
  · obtain ⟨hr, rfl⟩ := Prod.mk.inj (Option.some.inj hl)
    obtain ⟨rfl, rfl⟩ := Prod.mk.inj hr
    exact ⟨rfl, fun _ => ⟨rfl, rfl⟩⟩
  · obtain ⟨hr, rfl⟩ := Prod.mk.inj (Option.some.inj hl)
    obtain ⟨rfl, rfl⟩ := Prod.mk.inj hr
    exact ⟨rfl, nofun⟩

/-- Anything may be issued while the chip is not busy. -/
theorem polite_of_idle (tx : List Byte) (h : Idle f) : Polite [⟨tx, decide (f.bridge.chip.busy ≠ 0)⟩] := by
  intro e he hw
  obtain rfl := List.mem_singleton.mp he
  rw [decide_eq_true_eq] at hw
  exact absurd h hw

/-- A status read that succeeds shows whether the chip is busy, and brings it nearer its end. -/
theorem readStatus_spec {r : Option Byte} (h : readStatus NorLink.bridge f = some (r, f')) :
    Issued f f' [⟨[kCmdReadStatus, 0], decide (f.bridge.chip.busy ≠ 0)⟩] ∧
      ∀ sr ∈ r, f'.bridge.chip = { f.bridge.chip with busy := f.bridge.chip.busy - 1 } ∧ sr = f.bridge.chip.status := by
  obtain ⟨⟨ok, rx⟩, g, hg, h⟩ := Method.bind_eq_some.mp h
  obtain ⟨hissued, hok⟩ := transfer_spec hg
  cases ok with
  | false =>
    obtain ⟨rfl, rfl⟩ := Prod.mk.inj (Option.some.inj h)
    exact ⟨hissued, nofun⟩
  | true =>
    obtain ⟨hchip, rfl⟩ := hok rfl
    obtain ⟨rfl, rfl⟩ := Prod.mk.inj (Option.some.inj h)
    refine ⟨hissued, fun sr hsr => ⟨hchip, ?_⟩⟩
    obtain rfl := Option.some.inj hsr
    rfl

/-- One round of a wait: it ends, successfully only if the chip is not busy, or goes on. -/
theorem poll_spec {busy : Method (Mt25qFlash NorLink) Bool} {ok : Bool}
    (h : poll NorLink.bridge busy f = some (ok, f')) :
    ∃ g issue, Issued f g [issue] ∧ issue.tx = [kCmdReadStatus, 0] ∧
      (f' = g ∧ (ok = true → f'.bridge.chip = { f.bridge.chip with busy := 0 }) ∨
        g.bridge.chip = { f.bridge.chip with busy := f.bridge.chip.busy - 1 } ∧ busy g = some (ok, f')) := by
  obtain ⟨r, g, hg, h⟩ := Method.bind_eq_some.mp h
  obtain ⟨hissued, hr⟩ := readStatus_spec hg
  refine ⟨g, _, hissued, rfl, ?_⟩
  cases r with
  | none =>
    obtain ⟨rfl, rfl⟩ := Prod.mk.inj (Option.some.inj h)
    exact .inl ⟨rfl, nofun⟩
  | some sr =>
    obtain ⟨hchip, hsr⟩ := hr sr rfl
    simp only at h
    split at h
    case isTrue hzero =>
      obtain ⟨rfl, rfl⟩ := Prod.mk.inj (Option.some.inj h)
      rw [hsr] at hzero
      have hbusy : f.bridge.chip.busy = 0 := (SpiNor.status_wip _).mp hzero
      refine .inl ⟨rfl, fun _ => ?_⟩
      rw [hchip, hbusy]
    case isFalse => exact .inr ⟨hchip, h⟩

/-- A wait issues status reads, and succeeds once the chip is not busy. -/
theorem pollWip_spec {left : ℕ} {ok : Bool} (h : pollWip NorLink.bridge left f = some (ok, f')) :
    ∃ issues, Issued f f' issues ∧ (∀ e ∈ issues, e.tx = [kCmdReadStatus, 0]) ∧
      (ok = true → f'.bridge.chip = { f.bridge.chip with busy := 0 }) := by
  induction left generalizing f with
  | zero =>
    obtain ⟨g, issue, hissued, htx, ⟨rfl, hok⟩ | ⟨-, hbusy⟩⟩ := poll_spec h
    · exact ⟨[issue], hissued, by simpa using htx, hok⟩
    · obtain ⟨rfl, rfl⟩ := Prod.mk.inj (Option.some.inj hbusy)
      exact ⟨[issue], hissued, by simpa using htx, nofun⟩
  | succ left ih =>
    obtain ⟨g, issue, hissued, htx, ⟨rfl, hok⟩ | ⟨hchip, hbusy⟩⟩ := poll_spec h
    · exact ⟨[issue], hissued, by simpa using htx, hok⟩
    · obtain ⟨issues, hissues, hall, hok⟩ := ih hbusy
      refine ⟨issue :: issues, hissued.trans hissues, ?_, fun htrue => ?_⟩
      · intro e he
        obtain rfl | he := List.mem_cons.mp he
        · exact htx
        · exact hall e he
      · rw [hok htrue, hchip]

/-- Status reads are polite, and program nothing. -/
theorem polls_harmless {issues : List Issue} (h : ∀ e ∈ issues, e.tx = [kCmdReadStatus, 0]) :
    Polite issues ∧ programs issues = [] := by
  refine ⟨fun e he _ => ?_, List.filterMap_eq_nil_iff.mpr fun e he => ?_⟩
  · rw [h e he]
    rfl
  · rw [h e he]

/-- A write is enabled. -/
theorem writeEnable_spec (hidle : Idle f) {ok : Bool} (h : writeEnable NorLink.bridge f = some (ok, f')) :
    (∃ issues, Issued f f' issues ∧ Polite issues ∧ programs issues = []) ∧
      (ok = true → f'.bridge.chip = { f.bridge.chip with writeEnabled := true }) := by
  obtain ⟨⟨ok', rx⟩, g, hg, h⟩ := Method.bind_eq_some.mp h
  obtain ⟨hissued, hok⟩ := transfer_spec hg
  have hlog : ∃ issues, Issued f g issues ∧ Polite issues ∧ programs issues = [] :=
    ⟨_, hissued, polite_of_idle _ hidle, rfl⟩
  cases ok' with
  | false =>
    obtain ⟨rfl, rfl⟩ := Prod.mk.inj (Option.some.inj h)
    exact ⟨hlog, nofun⟩
  | true =>
    obtain ⟨rfl, rfl⟩ := Prod.mk.inj (Option.some.inj h)
    refine ⟨hlog, fun _ => ?_⟩
    have hbusy : ¬f.bridge.chip.busy ≠ 0 := fun h => h hidle
    rw [(hok rfl).1, SpiNor.execute, if_neg (by decide), if_neg hbusy, if_neg (by decide), if_pos (by decide)]

/-- A command that writes: enable it, send it, and wait. -/
def command (tx : List Byte) (msg : Mt25qFlash NorLink → String) : Method (Mt25qFlash NorLink) Bool := do
  if ← writeEnable NorLink.bridge then
    let (ok, _) ← transfer NorLink.bridge tx
    if ok then waitWipClear NorLink.bridge
    else fail msg false
  else pure false

/-- On a chip that is not busy such a command is issued politely, and if it succeeds it is done. -/
theorem command_spec (hidle : Idle f) (tx : List Byte) (msg : Mt25qFlash NorLink → String) {ok : Bool}
    (h : command tx msg f = some (ok, f')) :
    ∃ issues, Issued f f' issues ∧ Polite issues ∧ (programs issues = [] ∨ programs issues = programs [⟨tx, false⟩]) ∧
      (ok = true → programs issues = programs [⟨tx, false⟩] ∧
        f'.bridge.chip = { (SpiNor.execute { f.bridge.chip with writeEnabled := true } tx).1 with busy := 0 }) := by
  obtain ⟨enabled, g, hg, h⟩ := Method.bind_eq_some.mp h
  obtain ⟨⟨issues, hissued, hpolite, hprograms⟩, henabled⟩ := writeEnable_spec hidle hg
  cases enabled with
  | false =>
    obtain ⟨rfl, rfl⟩ := Prod.mk.inj (Option.some.inj h)
    exact ⟨issues, hissued, hpolite, .inl hprograms, nofun⟩
  | true =>
    have hchip := henabled rfl
    have hidle' : Idle g := by
      rw [Idle, hchip]
      exact hidle
    obtain ⟨⟨sent, rx⟩, g', hg', h⟩ := Method.bind_eq_some.mp h
    obtain ⟨hissued', hsent⟩ := transfer_spec hg'
    have hpolite' := polite_of_idle tx hidle'
    have hprograms' : programs (issues ++ [⟨tx, decide (g.bridge.chip.busy ≠ 0)⟩]) = programs [⟨tx, false⟩] := by
      rw [programs_append, hprograms]
      rfl
    cases sent with
    | false =>
      obtain ⟨rfl, rfl⟩ := Prod.mk.inj (Option.some.inj h)
      exact ⟨_, hissued.trans hissued', hpolite.append hpolite', .inr hprograms', nofun⟩
    | true =>
      obtain ⟨polls, hpolls, hall, hok⟩ := pollWip_spec h
      obtain ⟨hpolite'', hprograms''⟩ := polls_harmless hall
      have hfinal : programs (issues ++ [⟨tx, decide (g.bridge.chip.busy ≠ 0)⟩] ++ polls) = programs [⟨tx, false⟩] := by
        rw [programs_append, hprograms', hprograms'', List.append_nil]
      refine ⟨_, (hissued.trans hissued').trans hpolls, (hpolite.append hpolite').append hpolite'', .inr hfinal,
        fun htrue => ⟨hfinal, ?_⟩⟩
      rw [hok htrue, ← hchip, ← (hsent rfl).1]

/-- The erasure. -/
theorem bulkErase_spec (hidle : Idle f) {ok : Bool} (h : bulkErase NorLink.bridge f = some (ok, f')) :
    (∃ issues, Issued f f' issues ∧ Polite issues ∧ programs issues = []) ∧
      (ok = true → Idle f' ∧ f'.bridge.chip.memory = fun _ => 0xFF) := by
  obtain ⟨issues, hissued, hpolite, hprograms, hok⟩ :=
    command_spec hidle [kCmdBulkErase] (fun f => "bulkErase: " ++ NorLink.bridge.lastError f.bridge) h
  refine ⟨⟨issues, hissued, hpolite, hprograms.elim id id⟩, fun htrue => ?_⟩
  have hchip := (hok htrue).2
  have hbusy : ¬f.bridge.chip.busy ≠ 0 := fun h => h hidle
  rw [SpiNor.execute, if_neg (by decide), if_neg hbusy, if_neg (by decide), if_neg (by decide), if_pos (by decide),
    SpiNor.write, if_pos rfl] at hchip
  rw [Idle, hchip]
  exact ⟨rfl, rfl⟩

/-- A page program. -/
theorem pageProgram_spec (hidle : Idle f) {addr : ℕ} {data : List Byte} (haddr : addr < 2 ^ 24) {ok : Bool}
    (h : pageProgram NorLink.bridge (BitVec.ofNat 32 addr) data f = some (ok, f')) :
    ∃ issues, Issued f f' issues ∧ Polite issues ∧ (programs issues = [] ∨ programs issues = [(addr, data)]) ∧
      (ok = true → programs issues = [(addr, data)] ∧ Idle f' ∧
        f'.bridge.chip.memory =
          SpiNor.programPage (addr - addr % 256) (addr % 256) data f.bridge.chip.memory) := by
  have hnone : ∃ issues, Issued f f issues ∧ Polite issues ∧ (programs issues = [] ∨ programs issues = [(addr, data)]) :=
    ⟨[], (List.append_nil _).symm, fun e he => absurd he List.not_mem_nil, .inl rfl⟩
  rw [pageProgram] at h
  split at h
  · obtain ⟨rfl, rfl⟩ := Prod.mk.inj (Option.some.inj h)
    obtain ⟨issues, h₁, h₂, h₃⟩ := hnone
    exact ⟨issues, h₁, h₂, h₃, nofun⟩
  split at h
  · obtain ⟨rfl, rfl⟩ := Prod.mk.inj (Option.some.inj h)
    obtain ⟨issues, h₁, h₂, h₃⟩ := hnone
    exact ⟨issues, h₁, h₂, h₃, nofun⟩
  obtain ⟨a, b, d, hbytes, haddress⟩ := address_bytes haddr
  have hprogram : programs [⟨kCmdPageProgram :: addressBytes (BitVec.ofNat 32 addr) ++ data, false⟩] = [(addr, data)] := by
    rw [hbytes]
    show [(SpiNor.address a b d, data)] = _
    rw [haddress]
  obtain ⟨issues, hissued, hpolite, hprograms, hok⟩ :=
    command_spec hidle _ (fun f => "pageProgram: " ++ NorLink.bridge.lastError f.bridge) h
  rw [hprogram] at hprograms hok
  refine ⟨issues, hissued, hpolite, hprograms, fun htrue => ?_⟩
  obtain ⟨hps, hchip⟩ := hok htrue
  have hbusy : ¬f.bridge.chip.busy ≠ 0 := fun h => h hidle
  rw [hbytes, List.cons_append, SpiNor.execute, if_neg (by decide), if_neg hbusy, if_neg (by decide),
    if_neg (by decide), if_neg (by decide)] at hchip
  simp only [List.cons_append, List.nil_append, SpiNor.addressed] at hchip
  rw [if_pos (by decide), SpiNor.write, if_pos rfl, haddress] at hchip
  refine ⟨hps, ?_, ?_⟩
  · rw [Idle, hchip]
  · rw [hchip]

theorem byteAt_state {rx : List Byte} {i : ℕ} {b : Byte} (h : byteAt rx i f = some (b, f')) : f' = f := by
  obtain ⟨_, _, he⟩ := Option.map_eq_some_iff.mp h
  exact (Prod.mk.inj he).2.symm

/-- A request for the identity; a busy chip does not answer it. -/
theorem readId_spec {r : Option (BitVec 32)} (h : readId NorLink.bridge f = some (r, f')) :
    Issued f f' [⟨[kCmdReadId, 0, 0, 0], decide (f.bridge.chip.busy ≠ 0)⟩] ∧
      ∀ jedec ∈ r, f'.bridge.chip = f.bridge.chip ∧ (Idle f ∨ jedec = 0xFFFFFF) := by
  obtain ⟨⟨ok, rx⟩, g, hg, h⟩ := Method.bind_eq_some.mp h
  obtain ⟨hissued, hok⟩ := transfer_spec hg
  cases ok with
  | false =>
    obtain ⟨rfl, rfl⟩ := Prod.mk.inj (Option.some.inj h)
    exact ⟨hissued, nofun⟩
  | true =>
    obtain ⟨hchip, rfl⟩ := hok rfl
    by_cases hbusy : f.bridge.chip.busy ≠ 0
    · have hexec : f.bridge.chip.execute [kCmdReadId, 0, 0, 0] = (f.bridge.chip, SpiNor.floating 4) := by
        rw [SpiNor.execute, if_neg (by decide), if_pos hbusy]
        rfl
      rw [hexec] at h hchip
      obtain ⟨rfl, rfl⟩ := Prod.mk.inj (Option.some.inj h)
      refine ⟨hissued, fun jedec hj => ⟨hchip, .inr ?_⟩⟩
      obtain rfl := Option.some.inj hj
      decide
    · have hexec : (f.bridge.chip.execute [kCmdReadId, 0, 0, 0]).1 = f.bridge.chip := by
        rw [SpiNor.execute, if_neg (by decide), if_neg hbusy, if_pos (by decide)]
      obtain ⟨b₁, g₁, hg₁, h₁⟩ := Method.bind_eq_some.mp h
      obtain ⟨b₂, g₂, hg₂, h₂⟩ := Method.bind_eq_some.mp h₁
      obtain ⟨b₃, g₃, hg₃, h₃⟩ := Method.bind_eq_some.mp h₂
      obtain rfl := byteAt_state hg₁
      obtain rfl := byteAt_state hg₂
      obtain rfl := byteAt_state hg₃
      obtain ⟨rfl, rfl⟩ := Prod.mk.inj (Option.some.inj h₃)
      exact ⟨hissued, fun jedec _ => ⟨hchip.trans hexec, .inl (not_not.mp hbusy)⟩⟩

/-- A read from a chip that is not busy leaves it as it is. -/
theorem read_spec (hidle : Idle f) {addr : BitVec 32} {n : ℕ} {r : Option (List Byte)}
    (h : read NorLink.bridge addr n f = some (r, f')) :
    (∃ issues, Issued f f' issues ∧ Polite issues ∧ programs issues = []) ∧
      ∀ data ∈ r, f'.bridge.chip = f.bridge.chip := by
  have hnone : ∃ issues, Issued f f issues ∧ Polite issues ∧ programs issues = [] :=
    ⟨[], (List.append_nil _).symm, fun e he => absurd he List.not_mem_nil, rfl⟩
  rw [read] at h
  split at h
  · obtain ⟨rfl, rfl⟩ := Prod.mk.inj (Option.some.inj h)
    exact ⟨hnone, fun _ _ => rfl⟩
  split at h
  · obtain ⟨rfl, rfl⟩ := Prod.mk.inj (Option.some.inj h)
    exact ⟨hnone, nofun⟩
  obtain ⟨⟨ok, rx⟩, g, hg, h⟩ := Method.bind_eq_some.mp h
  obtain ⟨hissued, hok⟩ := transfer_spec hg
  have hlog : ∃ issues, Issued f g issues ∧ Polite issues ∧ programs issues = [] :=
    ⟨_, hissued, polite_of_idle _ hidle, rfl⟩
  cases ok with
  | false =>
    obtain ⟨rfl, rfl⟩ := Prod.mk.inj (Option.some.inj h)
    exact ⟨hlog, nofun⟩
  | true =>
    have hbusy : ¬f.bridge.chip.busy ≠ 0 := fun h => h hidle
    have hchip := (hok rfl).1
    rw [List.cons_append, SpiNor.execute, if_neg (by decide), if_neg hbusy, if_neg (by decide), if_neg (by decide),
      if_neg (by decide)] at hchip
    simp only [addressBytes, List.cons_append, List.nil_append, SpiNor.addressed] at hchip
    rw [if_neg (by decide), if_pos (by decide)] at hchip
    simp only [if_true] at h
    split at h
    · cases h
    · obtain ⟨rfl, rfl⟩ := Prod.mk.inj (Option.some.inj h)
      exact ⟨hlog, fun _ _ => hchip⟩

end Mt25qFlash

end OwlTap.Flash
