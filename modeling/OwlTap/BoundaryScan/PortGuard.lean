import OwlTap.BoundaryScan.Staging
import OwlTap.Bsdl.PortClause

/-!
# The EXTEST guard reads the port clause

The guard refuses a device by the names of its ports. They reach it when a generic clause
stands before the port clause; when none does, the parser's skip past the entity's header
runs to the first semicolon of the port clause, and the device has no ports at all.
-/

namespace OwlTap.BoundaryScan

open OwlTap Bsdl BSDLParser

/-- For a text with a live port that the parser accepts: every port is there with its mode, and the
guard refuses the device, if and only if the entity has a generic clause. -/
theorem portClause_reaches_guard_iff {source : Text} {e : EntityDecl} (hs : Spells source e.tokens)
    {dev : BSDLDevice} (ha : parseString source = some dev)
    (hlive : ∃ d ∈ e.ports.declared, isLivePin d.1 = true) :
    ((∀ d ∈ e.ports.declared, ∃ pin, dev.pins.lookup d.1 = some pin ∧ pin.direction = d.2) ∧
        (deviceAllowsLiveExtest dev).1 = false) ↔
      ∃ g, e.generic = some g := by
  obtain ⟨d, hd, hl⟩ := hlive
  constructor
  · rintro ⟨hall, -⟩
    cases hg : e.generic with
    | some g => exact ⟨g, rfl⟩
    | none =>
      obtain ⟨pin, hp, -⟩ := hall d hd
      rw [lookup_of_no_generic hs hg ha] at hp
      cases hp
  · rintro ⟨g, hg⟩
    have hall := fun d hd => lookup_of_generic hs hg ha (d := d) hd
    refine ⟨hall, deviceAllowsLiveExtest_eq_false.mpr ⟨d.1, ?_, hl⟩⟩
    obtain ⟨pin, hp, -⟩ := hall d hd
    exact AList.lookup_isSome.mp (Option.isSome_iff_exists.mpr ⟨pin, hp⟩)

/-! ### An entity without a generic clause -/

/-- A file with one live port and no generic clause. -/
def noGeneric : Text := "entity D is port (PS_POR_B : in bit); end D;".toList

/-- The file's port clause. -/
def noGenericPorts : PortClause :=
  ⟨⟨⟨"PS_POR_B".toList, none, by decide⟩, [], .in, .bit⟩, []⟩

/-- What the file says. -/
def noGenericDecl : EntityDecl where
  name := ['D']
  generic := none
  ports := noGenericPorts
  rest := [ident "END".toList, ident ['D'], ⟨.semicolon, [';']⟩]
  nodup := by decide
  one_clause := by decide

theorem noGeneric_spells : Spells noGeneric noGenericDecl.tokens := by
  have hs : Layout [' '] := .space rfl .nil
  have h₁ : Spells ";".toList [_] := .cons (l := []) (w := [';']) .nil .semicolon (by decide) (.nil .nil)
  have h₂ : Spells " D;".toList (_ :: _) := .cons (w := ['D']) hs (.identifier (by decide) (by decide)) (by decide) h₁
  have h₃ : Spells " end D;".toList (_ :: _) :=
    .cons (w := "end".toList) hs (.identifier (by decide) (by decide)) (by decide) h₂
  have h₄ : Spells "; end D;".toList (_ :: _) := .cons (w := [';']) .nil .semicolon (by decide) h₃
  have h₅ : Spells "); end D;".toList (_ :: _) := .cons (w := [')']) .nil .rparen (by decide) h₄
  have h₆ : Spells " bit); end D;".toList (_ :: _) :=
    .cons (w := "bit".toList) hs (.identifier (by decide) (by decide)) (by decide) h₅
  have h₇ : Spells " in bit); end D;".toList (_ :: _) :=
    .cons (w := "in".toList) hs (.identifier (by decide) (by decide)) (by decide) h₆
  have h₈ : Spells " : in bit); end D;".toList (_ :: _) := .cons (w := [':']) hs .colon (by decide) h₇
  have h₉ : Spells "PS_POR_B : in bit); end D;".toList (_ :: _) :=
    .cons (w := "PS_POR_B".toList) .nil (.identifier (by decide) (by decide)) (by decide) h₈
  have h₁₀ : Spells " (PS_POR_B : in bit); end D;".toList (_ :: _) := .cons (w := ['(']) hs .lparen (by decide) h₉
  have h₁₁ : Spells " port (PS_POR_B : in bit); end D;".toList (_ :: _) :=
    .cons (w := "port".toList) hs (.identifier (by decide) (by decide)) (by decide) h₁₀
  have h₁₂ : Spells " is port (PS_POR_B : in bit); end D;".toList (_ :: _) :=
    .cons (w := "is".toList) hs (.identifier (by decide) (by decide)) (by decide) h₁₁
  have h₁₃ : Spells " D is port (PS_POR_B : in bit); end D;".toList (_ :: _) :=
    .cons (w := ['D']) hs (.identifier (by decide) (by decide)) (by decide) h₁₂
  exact .cons (w := "entity".toList) .nil (.identifier (by decide) (by decide)) (by decide) h₁₃

theorem noGeneric_live : ∃ d ∈ noGenericDecl.ports.declared, isLivePin d.1 = true :=
  ⟨("PS_POR_B".toList, .in), by decide, by decide⟩

theorem parseString_noGeneric : ∃ dev, parseString noGeneric = some dev :=
  Option.isSome_iff_exists.mp (by decide +kernel)

theorem portClause_reaches_guard_noGeneric :
    ∃ dev, parseString noGeneric = some dev ∧
      ¬((∀ d ∈ noGenericDecl.ports.declared, ∃ pin, dev.pins.lookup d.1 = some pin ∧ pin.direction = d.2) ∧
        (deviceAllowsLiveExtest dev).1 = false) := by
  obtain ⟨dev, ha⟩ := parseString_noGeneric
  refine ⟨dev, ha, fun h => ?_⟩
  obtain ⟨g, hg⟩ := (portClause_reaches_guard_iff noGeneric_spells ha noGeneric_live).mp h
  cases hg

/-- The guard lets the device through although its file declares a live port. -/
theorem noGeneric_passes_guard :
    Spells noGeneric noGenericDecl.tokens ∧ ("PS_POR_B".toList, .in) ∈ noGenericDecl.ports.declared ∧
      isLivePin "PS_POR_B".toList = true ∧
      ∃ dev, parseString noGeneric = some dev ∧ dev.pins.lookup "PS_POR_B".toList = none ∧
        (deviceAllowsLiveExtest dev).1 = true := by
  obtain ⟨dev, ha⟩ := parseString_noGeneric
  have hnone := fun n => lookup_of_no_generic noGeneric_spells rfl ha n
  refine ⟨noGeneric_spells, by decide, by decide, dev, ha, hnone _, ?_⟩
  rw [← Bool.not_eq_false]
  intro hf
  obtain ⟨n, hn, -⟩ := deviceAllowsLiveExtest_eq_false.mp hf
  have := AList.lookup_isSome.mpr hn
  rw [hnone n] at this
  cases this

end OwlTap.BoundaryScan
