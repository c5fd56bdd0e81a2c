import Goatos.Library.ByteMemory
import Goatos.Library.Word

namespace Goatos
namespace Library

/-!
# Two-level page tables without PAE

The translation that a 32-bit processor makes when paging is on.  A directory
of 1024 words names tables of 1024 words, and these name pages of 4 KiB.  In
every word bit 0 means present and bit 1 writable, and the low twelve bits are
not part of the address.
-/

def pageBytes : Nat := 4096

def tableSpan : Nat := 1024 * pageBytes

/-- Where a virtual address leads, and whether it may be written. -/
structure Translation where
  physical : Nat
  writable : Bool
  deriving DecidableEq, Repr

def entryAt (memory : ByteMemory) (table index : Nat) : Nat :=
  memory.load (table + index * 4) 4

/-- The walk of the processor from a directory; `none` is a page fault.  A page is
writable only if both entries say so. -/
def walk (memory : ByteMemory) (root virt : Nat) : Option Translation :=
  let directoryEntry := entryAt memory (andNot 32 root (pageBytes - 1)) (virt / tableSpan)
  if directoryEntry &&& 1 = 0 then none
  else
    let pageEntry := entryAt memory (andNot 32 directoryEntry (pageBytes - 1))
      (virt % tableSpan / pageBytes)
    if pageEntry &&& 1 = 0 then none
    else some {
      physical := andNot 32 pageEntry (pageBytes - 1) + virt % pageBytes
      writable := directoryEntry &&& 2 ≠ 0 ∧ pageEntry &&& 2 ≠ 0 }

theorem entryAt_lt (memory : ByteMemory) (table index : Nat) : entryAt memory table index < 2 ^ 32 :=
  memory.load_lt _ 4

/-- The address bits of a word that is an aligned address with flags. -/
theorem andNot_flags {base flags : Nat} (aligned : pageBytes ∣ base) (small : flags < pageBytes)
    (fits : base + flags < 2 ^ 32) : andNot 32 (base + flags) (pageBytes - 1) = base := by
  have cleared : andNot 32 (base + flags) (pageBytes - 1) = (base + flags) / 2 ^ 12 * 2 ^ 12 :=
    andNot_low 12 fits
  rw [cleared]
  unfold pageBytes at aligned small
  omega

theorem flags_of_present {base : Nat} (aligned : pageBytes ∣ base) :
    (base + 3) &&& 1 ≠ 0 ∧ (base + 3) &&& 2 ≠ 0 := by
  unfold pageBytes at aligned
  have second : (base + 3) &&& 2 = ((base + 3).testBit 1).toNat * 2 := Nat.and_two_pow (base + 3) 1
  constructor
  · rw [Nat.and_one_is_mod]
    omega
  · rw [second, Nat.testBit_eq_decide_div_mod_eq]
    have odd : (base + 3) / 2 ^ 1 % 2 = 1 := by omega
    rw [odd]
    decide

section Walk

variable {memory : ByteMemory} {root virt : Nat}

/-- A blank directory entry stops the walk. -/
theorem walk_of_blank_directory (rootAligned : pageBytes ∣ root) (rootFits : root < 2 ^ 32)
    (blank : entryAt memory root (virt / tableSpan) = 0) : walk memory root virt = none := by
  have cleared := @andNot_flags root 0 rootAligned (by decide) rootFits
  rw [Nat.add_zero] at cleared
  simp only [walk, cleared, blank]
  rfl

/-- A present directory entry leaves the outcome to the entry of the table it
names. -/
theorem walk_of_table {table : Nat} (rootAligned : pageBytes ∣ root) (rootFits : root < 2 ^ 32)
    (tableAligned : pageBytes ∣ table)
    (named : entryAt memory root (virt / tableSpan) = table + 3) :
    walk memory root virt =
      if entryAt memory table (virt % tableSpan / pageBytes) &&& 1 = 0 then none
      else some {
        physical := andNot 32 (entryAt memory table (virt % tableSpan / pageBytes))
          (pageBytes - 1) + virt % pageBytes
        writable := decide (entryAt memory table (virt % tableSpan / pageBytes) &&& 2 ≠ 0) } := by
  have clearedRoot := @andNot_flags root 0 rootAligned (by decide) rootFits
  have small := entryAt_lt memory root (virt / tableSpan)
  rw [named] at small
  have clearedTable := andNot_flags tableAligned (by decide) small
  have flags := flags_of_present tableAligned
  rw [Nat.add_zero] at clearedRoot
  simp only [walk, clearedRoot, named, clearedTable, flags.1, if_false]
  simp only [flags.2, ne_eq, not_false_eq_true, true_and]

/-- Through a present directory entry and a present page entry the walk reaches
the page. -/
theorem walk_of_page {table page : Nat} (rootAligned : pageBytes ∣ root) (rootFits : root < 2 ^ 32)
    (tableAligned : pageBytes ∣ table) (pageAligned : pageBytes ∣ page)
    (named : entryAt memory root (virt / tableSpan) = table + 3)
    (mapped : entryAt memory table (virt % tableSpan / pageBytes) = page + 3) :
    walk memory root virt = some ⟨page + virt % pageBytes, true⟩ := by
  have small := entryAt_lt memory table (virt % tableSpan / pageBytes)
  rw [mapped] at small
  have flags := flags_of_present pageAligned
  rw [walk_of_table rootAligned rootFits tableAligned named, mapped, if_neg flags.1,
    andNot_flags pageAligned (by decide) small]
  simp only [flags.2, ne_eq, not_false_eq_true, decide_true]

theorem walk_of_blank_page {table : Nat} (rootAligned : pageBytes ∣ root) (rootFits : root < 2 ^ 32)
    (tableAligned : pageBytes ∣ table)
    (named : entryAt memory root (virt / tableSpan) = table + 3)
    (blank : entryAt memory table (virt % tableSpan / pageBytes) = 0) :
    walk memory root virt = none := by
  rw [walk_of_table rootAligned rootFits tableAligned named, blank]
  rfl

end Walk

end Library
end Goatos
