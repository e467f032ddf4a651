import Mathlib.Logic.Function.Basic
import OwlTap.Base.Bits

/-!
# A SPI NOR flash

The commands that a driver of a small serial flash needs: an erasure sets every byte to `0xFF`; a
page program ands its bytes into a page of 256 bytes, and wraps inside it; both need the write
enable latch, which they clear, and keep the chip busy for some time, during which it answers
nothing but a status read. How long that is is measured in status reads, and arbitrary.
-/

namespace OwlTap

/-- A SPI NOR flash with addresses of 24 bits. -/
structure SpiNor where
  /-- Its contents. -/
  memory : ℕ → Byte
  /-- What it says it is. -/
  identity : List Byte
  /-- The write enable latch. -/
  writeEnabled : Bool := false
  /-- How many more status reads find it busy. -/
  busy : ℕ := 0
  /-- How many will after each erasure or program to come. -/
  durations : List ℕ := []

namespace SpiNor

/-- The commands. -/
def opPageProgram : Byte := 0x02
@[inherit_doc opPageProgram]
def opRead : Byte := 0x03
@[inherit_doc opPageProgram]
def opReadStatus : Byte := 0x05
@[inherit_doc opPageProgram]
def opWriteEnable : Byte := 0x06
@[inherit_doc opPageProgram]
def opReadId : Byte := 0x9F
@[inherit_doc opPageProgram]
def opBulkErase : Byte := 0xC7

/-- What is read while the chip drives nothing. -/
def floating (n : ℕ) : List Byte := List.replicate n 0xFF

/-- The status register: a write is in progress, and the latch. -/
def status (c : SpiNor) : Byte :=
  (if c.busy ≠ 0 then 0x01 else 0) ||| (if c.writeEnabled ∨ c.busy ≠ 0 then 0x02 else 0)

/-- An address of three bytes. -/
def address (a b d : Byte) : ℕ := 2 ^ 16 * a.toNat + 2 ^ 8 * b.toNat + d.toNat

/-- Bytes are anded into a page from a column on, which wraps. -/
def programPage (page : ℕ) : (column : ℕ) → List Byte → (ℕ → Byte) → ℕ → Byte
  | _, [], memory => memory
  | column, b :: data, memory =>
    programPage page (column + 1) data
      (Function.update memory (page + column % 256) (memory (page + column % 256) &&& b))

/-- An erasure or a program begins, if the latch is set. -/
def write (c : SpiNor) (memory : ℕ → Byte) : SpiNor :=
  if c.writeEnabled then
    { c with memory, writeEnabled := false, busy := c.durations.headD 0, durations := c.durations.tail }
  else c

/-- A command with an address, when the chip is not busy. -/
def addressed (c : SpiNor) (op : Byte) : List Byte → SpiNor × List Byte
  | a :: b :: d :: data =>
    let addr := address a b d
    if op = opPageProgram then
      (c.write (programPage (addr - addr % 256) (addr % 256) data c.memory), floating (data.length + 4))
    else if op = opRead then
      (c, floating 4 ++ (List.range data.length).map fun i => c.memory ((addr + i) % 2 ^ 24))
    else (c, floating (data.length + 4))
  | args => (c, floating (args.length + 1))

/-- One transaction: the bytes sent while chip select is asserted, and the bytes received. -/
def execute (c : SpiNor) : List Byte → SpiNor × List Byte
  | [] => (c, [])
  | op :: args =>
    if op = opReadStatus then ({ c with busy := c.busy - 1 }, floating 1 ++ List.replicate args.length c.status)
    else if c.busy ≠ 0 then (c, floating (args.length + 1))
    else if op = opReadId then
      (c, floating 1 ++ (List.range args.length).map fun i => c.identity.getD i 0)
    else if op = opWriteEnable then ({ c with writeEnabled := true }, floating (args.length + 1))
    else if op = opBulkErase then (c.write fun _ => 0xFF, floating (args.length + 1))
    else c.addressed op args

/-! ### What the commands do -/

@[simp] theorem length_floating (n : ℕ) : (floating n).length = n := List.length_replicate

theorem length_addressed (c : SpiNor) (op : Byte) (args : List Byte) : (c.addressed op args).2.length = args.length + 1 := by
  match args with
  | a :: b :: d :: data =>
    rw [addressed]
    split
    · rw [length_floating, List.length_cons, List.length_cons, List.length_cons]
    split
    · rw [List.length_append, length_floating, List.length_map, List.length_range, Nat.add_comm]
      rfl
    · rw [length_floating, List.length_cons, List.length_cons, List.length_cons]
  | [] | [_] | [_, _] => rfl

/-- As many bytes are received as are sent. -/
theorem length_execute (c : SpiNor) (tx : List Byte) : (c.execute tx).2.length = tx.length := by
  cases tx with
  | nil => rfl
  | cons op args =>
    rw [execute, List.length_cons]
    split
    · rw [List.length_append, length_floating, List.length_replicate, Nat.add_comm]
    split
    · exact length_floating _
    split
    · rw [List.length_append, length_floating, List.length_map, List.length_range, Nat.add_comm]
    split
    · exact length_floating _
    split
    · exact length_floating _
    · exact length_addressed c op args

/-- While the status register shows a write in progress the chip is busy. -/
theorem status_wip (c : SpiNor) : c.status &&& 0x01 = 0 ↔ c.busy = 0 := by
  rw [status]
  by_cases hb : c.busy = 0
  · simp only [hb, ne_eq, not_true_eq_false, if_false, or_false, iff_true]
    cases c.writeEnabled <;> decide
  · simp only [hb, ne_eq, not_false_eq_true, if_true, or_true, iff_false]
    decide

/-- On an erased part of a page, what is programmed is there, and nothing else has changed. -/
theorem programPage_eq {page column : ℕ} {data : List Byte} (hfit : column + data.length ≤ 256) {memory : ℕ → Byte}
    (herased : ∀ x, page + column ≤ x → x < page + column + data.length → memory x = 0xFF) (x : ℕ) :
    programPage page column data memory x =
      if page + column ≤ x ∧ x < page + column + data.length then data.getD (x - (page + column)) 0 else memory x := by
  induction data generalizing column memory with
  | nil => rw [programPage, if_neg (by simp)]
  | cons b data ih =>
    rw [List.length_cons] at hfit herased ⊢
    have hcol : column % 256 = column := Nat.mod_eq_of_lt (by omega)
    have hb : memory (page + column) &&& b = b := by
      rw [herased _ (Nat.le_refl _) (by omega)]
      exact BitVec.allOnes_and
    have hrest : ∀ y, page + (column + 1) ≤ y → y < page + (column + 1) + data.length →
        Function.update memory (page + column) b y = 0xFF := by
      intro y h₁ h₂
      have hne : y ≠ page + column := by omega
      rw [Function.update_of_ne hne]
      exact herased y (by omega) (by omega)
    rw [programPage, hcol, hb, ih (by omega) hrest]
    obtain rfl | hne := eq_or_ne x (page + column)
    · rw [if_neg (by omega), if_pos (by omega), Function.update_self, Nat.sub_self]
      rfl
    · rw [Function.update_of_ne hne]
      by_cases hin : page + (column + 1) ≤ x ∧ x < page + (column + 1) + data.length
      · rw [if_pos hin, if_pos (by omega), show x - (page + column) = (x - (page + (column + 1))) + 1 by omega]
        rfl
      · rw [if_neg hin, if_neg (by omega)]

end SpiNor

end OwlTap
