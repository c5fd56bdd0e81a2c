import Goatos.Library.ProtectedMode

namespace Goatos
namespace Library
namespace ProtectedMode

/-!
# Accesses in an identity-mapped address space

Where linear addresses are mapped to themselves, the accesses of the processor are
loads and stores of memory.  A store may change the map itself, so the space says
which bytes the map depends on, and everything below keeps away from them.  The
hole is a stretch that is not mapped; a push that meets it faults.
-/

/-- The bytes that a map depends on, the addresses that it maps to themselves and
those that it does not map. -/
structure AddressSpace where
  tables : Set Nat
  window : Set Nat
  hole : Set Nat

/-- The control registers and memory give this space, and go on to do so as long as
the bytes of the tables are kept. -/
def AddressSpace.Holds (space : AddressSpace) (cr0 cr3 : Nat) (memory : ByteMemory) : Prop :=
  forall changed : ByteMemory, Set.EqOn changed memory space.tables ->
    (forall linear, linear ∈ space.window -> translate cr0 cr3 changed linear = some linear) ∧
    forall linear, linear ∈ space.hole -> translate cr0 cr3 changed linear = none

def Processor.In (processor : Processor) (space : AddressSpace) : Prop :=
  space.Holds processor.cr0 processor.cr3 processor.memory

/-- The address space without paging: nothing depends on memory, and all of it is
mapped. -/
def AddressSpace.physical : AddressSpace where
  tables := ∅
  window := Set.Iio (2 ^ 32)
  hole := ∅

theorem Processor.in_physical {processor : Processor}
    (off : processor.cr0 &&& pagingBit = 0) : processor.In AddressSpace.physical := by
  intro changed _
  refine ⟨?_, fun linear member => absurd member (Set.notMem_empty linear)⟩
  intro linear member
  rw [ProtectedMode.translate, if_pos off, Nat.mod_eq_of_lt (Set.mem_Iio.mp member)]

theorem storeAt_consecutive (memory : ByteMemory) (linear width value : Nat) :
    storeAt memory ((List.range width).map (linear + ·)) value =
      memory.store linear width value := by
  induction width generalizing memory linear value with
  | zero =>
      funext target
      rw [ByteMemory.store_outside memory (by omega)]
      rfl
  | succ width inductionHypothesis =>
      have shifted : (List.range (width + 1)).map (linear + ·) =
          linear :: (List.range width).map (linear + 1 + ·) := by
        rw [List.range_succ_eq_map, List.map_cons, List.map_map, Nat.add_zero]
        congr 1
        apply List.map_congr_left
        intro offset _
        simp only [Function.comp_apply]
        omega
      rw [shifted, storeAt, inductionHypothesis]
      funext target
      unfold ByteMemory.store
      by_cases first : target = linear
      · subst first
        rw [if_neg (by omega), if_pos (by omega), if_pos (by omega)]
      · by_cases later : linear + 1 ≤ target ∧ target < linear + 1 + width
        · have position : target - linear = target - (linear + 1) + 1 := by omega
          rw [if_pos later, if_pos (by omega), position, Nat.pow_succ', Nat.div_div_eq_div_mul]
        · rw [if_neg later, if_neg (by omega), if_neg (by omega)]

section Access

variable {space : AddressSpace} {processor : Processor}

/-- Changes outside the tables leave the processor in the space, as long as paging
and its root stay the same. -/
theorem Processor.In.of_eqOn (inSpace : processor.In space) {changed : Processor}
    (cr0 : changed.cr0 = processor.cr0) (cr3 : changed.cr3 = processor.cr3)
    (agree : Set.EqOn changed.memory processor.memory space.tables) : changed.In space := by
  intro further same
  rw [cr0, cr3]
  exact inSpace further (same.trans agree)

theorem Processor.In.translate_window (inSpace : processor.In space) {linear : Nat}
    (member : linear ∈ space.window) : processor.translate linear = some linear :=
  (inSpace processor.memory (Set.eqOn_refl _ _)).1 linear member

theorem Processor.In.translate_hole (inSpace : processor.In space) {linear : Nat}
    (member : linear ∈ space.hole) : processor.translate linear = none :=
  (inSpace processor.memory (Set.eqOn_refl _ _)).2 linear member

variable {linear width : Nat}

theorem Processor.In.reaches (inSpace : processor.In space)
    (inside : ByteMemory.extent linear width ⊆ space.window) :
    processor.reaches linear width = true := by
  rw [Processor.reaches, List.all_eq_true]
  intro offset member
  have bound := List.mem_range.mp member
  rw [inSpace.translate_window (inside (ByteMemory.mem_extent.mpr ⟨by omega, by omega⟩))]
  rfl

theorem Processor.In.view_eqOn (inSpace : processor.In space) :
    Set.EqOn processor.view processor.memory space.window := by
  intro linear member
  rw [Processor.view, inSpace.translate_window member, Option.getD_some]

theorem Processor.In.read_eq (inSpace : processor.In space)
    (inside : ByteMemory.extent linear width ⊆ space.window) :
    processor.read linear width = some (processor.memory.load linear width) := by
  rw [Processor.read, if_pos (inSpace.reaches inside)]
  exact congrArg some (ByteMemory.load_congr (inSpace.view_eqOn.mono inside))

theorem Processor.In.write_eq (inSpace : processor.In space)
    (inside : ByteMemory.extent linear width ⊆ space.window) (value : Nat) :
    processor.write linear width value =
      some (processor.setMemory (processor.memory.store linear width value)) := by
  have targets : (List.range width).map (fun offset =>
      (processor.translate (linear + offset)).getD 0) = (List.range width).map (linear + ·) := by
    apply List.map_congr_left
    intro offset member
    have bound := List.mem_range.mp member
    rw [inSpace.translate_window (inside (ByteMemory.mem_extent.mpr ⟨by omega, by omega⟩)),
      Option.getD_some]
  rw [Processor.write, if_pos (inSpace.reaches inside)]
  simp only [targets, storeAt_consecutive]

/-- A write that meets the hole does nothing but fault. -/
theorem Processor.In.write_eq_none (inSpace : processor.In space) {offset : Nat}
    (within : offset < width) (missing : linear + offset ∈ space.hole) (value : Nat) :
    processor.write linear width value = none := by
  have unreached : processor.reaches linear width = false := by
    rw [Processor.reaches, List.all_eq_false]
    refine ⟨offset, List.mem_range.mpr within, ?_⟩
    rw [inSpace.translate_hole missing]
    decide
  rw [Processor.write, unreached]
  rfl

theorem Processor.In.store (inSpace : processor.In space)
    (apart : Disjoint (ByteMemory.extent linear width) space.tables) (value : Nat) :
    (processor.setMemory (processor.memory.store linear width value)).In space := by
  have kept : Set.EqOn (processor.memory.store linear width value) processor.memory
      space.tables := by
    intro address member
    apply ByteMemory.store_outside
    by_contra inside
    exact Set.disjoint_left.mp apart (ByteMemory.mem_extent.mpr (by omega)) member
  exact inSpace.of_eqOn rfl rfl kept

/-- So do changes of the control registers that leave paging and its root alone. -/
theorem Processor.In.of_control (inSpace : processor.In space) {changed : Processor}
    (paging : changed.cr0 &&& pagingBit = processor.cr0 &&& pagingBit)
    (root : processor.cr0 &&& pagingBit ≠ 0 -> changed.cr3 = processor.cr3)
    (agree : Set.EqOn changed.memory processor.memory space.tables) : changed.In space := by
  have same (memory : ByteMemory) (linear : Nat) :
      ProtectedMode.translate changed.cr0 changed.cr3 memory linear =
        ProtectedMode.translate processor.cr0 processor.cr3 memory linear := by
    unfold ProtectedMode.translate
    rw [paging]
    by_cases off : processor.cr0 &&& pagingBit = 0
    · rw [if_pos off, if_pos off]
    · rw [if_neg off, if_neg off, root off]
  intro further agrees
  have facts := inSpace further (agrees.trans agree)
  simp only [same]
  exact facts

theorem Processor.In.storeFields {base : Nat} {fields : List Field} (inSpace : processor.In space)
    (inside : forall field, field ∈ fields ->
      ByteMemory.extent (base + field.offset) field.width ⊆ space.window \ space.tables) :
    (processor.setMemory (processor.memory.storeFields base fields)).In space := by
  have kept : Set.EqOn (processor.memory.storeFields base fields) processor.memory
      space.tables := by
    intro address member
    apply ByteMemory.storeFields_outside
    intro field inFields
    by_contra within
    exact (inside field inFields (ByteMemory.mem_extent.mpr (by omega))).2 member
  exact inSpace.of_eqOn rfl rfl kept

/-- Fields that lie inside the window and away from the tables are stored one by one. -/
theorem Processor.In.writeFields_eq {base : Nat} {fields : List Field}
    (inSpace : processor.In space)
    (inside : forall field, field ∈ fields ->
      ByteMemory.extent (base + field.offset) field.width ⊆ space.window \ space.tables) :
    processor.writeFields base fields =
      some (processor.setMemory (processor.memory.storeFields base fields)) := by
  induction fields generalizing processor with
  | nil => rfl
  | cons field rest inductionHypothesis =>
      have head := inside field List.mem_cons_self
      have apart : Disjoint (ByteMemory.extent (base + field.offset) field.width) space.tables :=
        Set.disjoint_left.mpr (fun _ member => (head member).2)
      have written := inSpace.write_eq (fun _ member => (head member).1) field.value
      have later := inductionHypothesis (inSpace.store apart field.value)
        (fun other member => inside other (List.mem_cons_of_mem _ member))
      rw [Processor.writeFields, List.foldlM_cons, written, Option.bind_eq_bind, Option.bind_some]
      exact later

end Access

end ProtectedMode
end Library
end Goatos
