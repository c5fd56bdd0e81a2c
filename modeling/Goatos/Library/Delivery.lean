import Goatos.Library.AddressSpace

namespace Goatos
namespace Library
namespace ProtectedMode

/-!
# Frames, tasks and the escalation of faults

What the steps of a delivery come to in an identity-mapped space: loading a segment
from a descriptor that is there, pushing a frame on a flat stack, switching to a
task whose image is complete.  The stack may end at the hole of the space.  A frame
that does not fit above the hole faults, and the words that did fit are all that
has changed.
-/

variable {space : AddressSpace} {processor : Processor}

theorem ok_bind {Failure First Second : Type} (result : First)
    (next : First -> Except Failure Second) : (Except.ok result >>= next) = next result :=
  rfl

theorem require_some {Result : Type} (processor : Processor) (code : Nat) (result : Result) :
    processor.require code (some result) = .ok result :=
  rfl

theorem bind_pure_eq_map {Failure First Second : Type} (attempt : Except Failure First)
    (change : First -> Second) :
    (attempt >>= fun result => pure (change result)) = attempt.map change := by
  cases attempt with
  | error stopped => rfl
  | ok result => rfl

/-! ## Descriptors and segments -/

/-- The global table in memory has the given descriptor for a selector, and all of
its bytes are mapped. -/
structure Processor.HasDescriptor (processor : Processor) (space : AddressSpace) (selector : Nat)
    (descriptor : Descriptor) : Prop where
  isGlobal : selector / 4 % 2 = 0
  inTable : selector / 8 * 8 + 7 ≤ processor.gdtr.limit
  mapped : ByteMemory.extent (processor.descriptorAddress selector) 8 ⊆ space.window
  word : Descriptor.decode (processor.memory.load (processor.descriptorAddress selector) 8) =
    descriptor

/-- The interrupt table in memory has the given gate for a vector, and all of its
bytes are mapped. -/
structure Processor.HasGate (processor : Processor) (space : AddressSpace) (vector : Nat)
    (gate : Gate) : Prop where
  inTable : vector * 8 + 7 ≤ processor.idtr.limit
  mapped : ByteMemory.extent (processor.idtr.base + vector * 8) 8 ⊆ space.window
  word : Gate.decode (processor.memory.load (processor.idtr.base + vector * 8) 8) = gate

variable {selector vector : Nat} {descriptor : Descriptor} {gate : Gate}

theorem Processor.HasDescriptor.of_eqOn (found : processor.HasDescriptor space selector descriptor)
    {changed : Processor} (table : changed.gdtr = processor.gdtr)
    (agree : Set.EqOn changed.memory processor.memory
      (ByteMemory.extent (processor.descriptorAddress selector) 8)) :
    changed.HasDescriptor space selector descriptor := by
  have address : changed.descriptorAddress selector = processor.descriptorAddress selector := by
    rw [Processor.descriptorAddress, table, Processor.descriptorAddress]
  refine ⟨found.isGlobal, by rw [table]; exact found.inTable, by rw [address]; exact found.mapped, ?_⟩
  rw [address, ByteMemory.load_congr agree, found.word]

theorem Processor.HasDescriptor.descriptorAt_eq (inSpace : processor.In space)
    (found : processor.HasDescriptor space selector descriptor) (wrong : Nat -> Fault) :
    processor.descriptorAt wrong selector = .ok descriptor := by
  have inTable := found.inTable
  have isGlobal := found.isGlobal
  rw [Processor.descriptorAt, if_neg (by omega), inSpace.read_eq found.mapped]
  exact congrArg Except.ok found.word

theorem Descriptor.decode_parts {below access above : Nat} (belowFits : below < 2 ^ 40)
    (accessFits : access < 2 ^ 8) (aboveFits : above < 2 ^ 16) :
    Descriptor.decode (below + access * 2 ^ 40 + above * 2 ^ 48) =
      ⟨below / 2 ^ 16 + above / 2 ^ 8 * 2 ^ 24, below % 2 ^ 16 + above % 2 ^ 4 * 2 ^ 16, access,
        above / 2 ^ 4 % 2 ^ 4⟩ := by
  have below48 : below + access * 2 ^ 40 < 2 ^ 48 := add_shifted_lt belowFits accessFits
  have below52 : below + access * 2 ^ 40 + above % 2 ^ 4 * 2 ^ 48 < 2 ^ 52 :=
    add_shifted_lt below48 (Nat.mod_lt above (by decide) : _ < 2 ^ 4)
  have below56 : below + access * 2 ^ 40 + above % 2 ^ 8 * 2 ^ 48 < 2 ^ 56 :=
    add_shifted_lt below48 (Nat.mod_lt above (by decide) : _ < 2 ^ 8)
  have middle : below / 2 ^ 16 < 2 ^ 24 := by omega
  have top : above / 2 ^ 8 < 2 ^ 8 := by omega
  have lowLimit : (below + access * 2 ^ 40 + above * 2 ^ 48) % 2 ^ 16 = below % 2 ^ 16 := by
    rw [show below + access * 2 ^ 40 + above * 2 ^ 48 =
      below + (access * 2 ^ 24 + above * 2 ^ 32) * 2 ^ 16 by omega, Nat.add_mul_mod_self_right]
  have lowBase := digits_eq 16 24 (below % 2 ^ 16) (access + above * 2 ^ 8)
    (show below + access * 2 ^ 40 + above * 2 ^ 48 = _ + below / 2 ^ 16 * 2 ^ 16 + _ by omega)
    (Nat.mod_lt _ (by decide)) middle
  have accessByte := digits_eq 40 8 below above
    (show below + access * 2 ^ 40 + above * 2 ^ 48 = _ + access * 2 ^ 40 + _ by omega)
    belowFits accessFits
  have highLimit := digits_eq 48 4 (below + access * 2 ^ 40) (above / 2 ^ 4)
    (show below + access * 2 ^ 40 + above * 2 ^ 48 = _ + above % 2 ^ 4 * 2 ^ 48 + _ by omega)
    below48 (Nat.mod_lt _ (by decide))
  have flagBits := digits_eq 52 4 (below + access * 2 ^ 40 + above % 2 ^ 4 * 2 ^ 48)
    (above / 2 ^ 8) (show below + access * 2 ^ 40 + above * 2 ^ 48 =
      _ + above / 2 ^ 4 % 2 ^ 4 * 2 ^ 52 + _ by omega) below52 (Nat.mod_lt _ (by decide))
  have highBase := digits_eq 56 8 (below + access * 2 ^ 40 + above % 2 ^ 8 * 2 ^ 48) 0
    (show below + access * 2 ^ 40 + above * 2 ^ 48 = _ + above / 2 ^ 8 * 2 ^ 56 + _ by omega)
    below56 top
  rw [Descriptor.decode, lowBase, highBase, lowLimit, highLimit, accessByte, flagBits]

/-- Writing the access byte changes nothing else of a descriptor. -/
theorem Descriptor.decode_store_access (memory : ByteMemory) (address : Nat) {access : Nat}
    (fits : access < 2 ^ 8) :
    Descriptor.decode ((memory.store (address + 5) 1 access).load address 8) =
      { Descriptor.decode (memory.load address 8) with access := access } := by
  have split (contents : ByteMemory) : contents.load address 8 = contents.load address 5 +
      contents.load (address + 5) 1 * 2 ^ 40 + contents.load (address + 6) 2 * 2 ^ 48 := by
    rw [show 8 = 5 + 3 from rfl, contents.load_add, show 3 = 1 + 2 from rfl, contents.load_add,
      Nat.add_assoc address]
    omega
  have below : memory.load address 5 < 2 ^ 40 := memory.load_lt _ _
  have byte : memory.load (address + 5) 1 < 2 ^ 8 := memory.load_lt _ _
  have above : memory.load (address + 6) 2 < 2 ^ 16 := memory.load_lt _ _
  rw [split, split, memory.load_store_of_disjoint (by omega), memory.load_store_of_lt fits,
    memory.load_store_of_disjoint (by omega), Descriptor.decode_parts below fits above,
    Descriptor.decode_parts below byte above]

/-- A segment whose descriptor is marked already is loaded without a write. -/
theorem Processor.HasDescriptor.loadSegment_eq (inSpace : processor.In space)
    (found : processor.HasDescriptor space selector descriptor) {name : SegmentName}
    (nonnull : selector / 4 ≠ 0) (suits : descriptor.suits name = true)
    (present : descriptor.isPresent = true) (accessed : descriptor.access % 2 = 1)
    (wrong : Nat -> Fault) :
    processor.loadSegment wrong name selector =
      .ok (processor.setSegment name ⟨selector, descriptor.base, descriptor.lastByte⟩) := by
  rw [Processor.loadSegment, if_neg nonnull, found.descriptorAt_eq inSpace]
  simp only [bind, Except.bind, suits, present, accessed, Bool.not_true, Bool.false_eq_true,
    if_false, if_true]
  rfl

theorem Processor.HasDescriptor.setAccess_eq (inSpace : processor.In space)
    (found : processor.HasDescriptor space selector descriptor) (access : Nat) :
    processor.setAccess selector access = .ok (processor.setMemory
      (processor.memory.store (processor.descriptorAddress selector + 5) 1 access)) := by
  have inside : ByteMemory.extent (processor.descriptorAddress selector + 5) 1 ⊆ space.window := by
    intro address member
    have bounds := ByteMemory.mem_extent.mp member
    exact found.mapped (ByteMemory.mem_extent.mpr ⟨by omega, by omega⟩)
  rw [Processor.setAccess, inSpace.write_eq inside, require_some]

/-- A segment whose descriptor is not marked is loaded too, and the mark is the only
change of memory. -/
theorem Processor.HasDescriptor.loadSegment_marks (inSpace : processor.In space)
    (found : processor.HasDescriptor space selector descriptor) {name : SegmentName}
    (nonnull : selector / 4 ≠ 0) (suits : descriptor.suits name = true)
    (present : descriptor.isPresent = true) (fresh : descriptor.access % 2 = 0)
    (wrong : Nat -> Fault) :
    processor.loadSegment wrong name selector =
      .ok ((processor.setMemory (processor.memory.store
        (processor.descriptorAddress selector + 5) 1 (descriptor.access ||| 1))).setSegment name
          ⟨selector, descriptor.base, descriptor.lastByte⟩) := by
  rw [Processor.loadSegment, if_neg nonnull, found.descriptorAt_eq inSpace, ok_bind]
  simp only [suits, present, fresh, Bool.not_true, Bool.false_eq_true, if_false, Nat.zero_ne_one,
    found.setAccess_eq inSpace]
  rfl

theorem Processor.HasDescriptor.availableTss_eq (inSpace : processor.In space)
    (found : processor.HasDescriptor space selector descriptor) (nonnull : selector / 4 ≠ 0)
    (available : descriptor.isAvailableTss = true) (present : descriptor.isPresent = true) :
    processor.availableTss selector = .ok descriptor := by
  rw [Processor.availableTss, if_neg nonnull, found.descriptorAt_eq inSpace, ok_bind]
  simp only [available, present, Bool.not_true, Bool.false_eq_true, if_false]
  rfl

theorem loadSegments_eq {wrong : Nat -> Fault} {selectors : SegmentName -> Nat}
    {registers : SegmentName -> SegmentRegister} (names : List SegmentName)
    (loads : forall name, name ∈ names -> forall current : Processor,
      current.memory = processor.memory -> current.gdtr = processor.gdtr ->
      current.cr0 = processor.cr0 -> current.cr3 = processor.cr3 ->
        current.loadSegment wrong name (selectors name) =
          .ok (current.setSegment name (registers name))) :
    names.foldlM (fun current name => current.loadSegment wrong name (selectors name)) processor =
      .ok { processor with
        segment := fun name => if name ∈ names then registers name else processor.segment name } := by
  induction names generalizing processor with
  | nil => simp only [List.foldlM_nil, List.not_mem_nil, if_false]; rfl
  | cons head rest inductionHypothesis =>
      have first := loads head List.mem_cons_self processor rfl rfl rfl rfl
      have later := @inductionHypothesis (processor.setSegment head (registers head))
        (fun name member => loads name (List.mem_cons_of_mem _ member))
      rw [List.foldlM_cons, first, ok_bind, later]
      have segments : (fun name => if name ∈ rest then registers name
            else if name = head then registers head else processor.segment name) =
          fun name => if name ∈ head :: rest then registers name else processor.segment name := by
        funext name
        by_cases inRest : name ∈ rest
        · rw [if_pos inRest, if_pos (List.mem_cons_of_mem _ inRest)]
        · by_cases isHead : name = head
          · rw [if_neg inRest, if_pos isHead, isHead, if_pos List.mem_cons_self]
          · rw [if_neg inRest, if_neg isHead, if_neg (by simp [isHead, inRest])]
      simp only [Processor.setSegment, segments]

/-! ## The registers that a task switch saves -/

theorem savedFields_apart (processor : Processor) :
    processor.savedFields.Pairwise Field.Apart := by
  simp [Processor.savedFields, GeneralRegister.all, SegmentName.all, GeneralRegister.slot,
    SegmentName.slot, Field.Apart]

theorem GeneralRegister.slot_within (register : GeneralRegister) :
    2 ≤ register.slot ∧ register.slot + 4 ≤ tssBytes := by
  cases register <;> decide

theorem SegmentName.slot_within (name : SegmentName) :
    2 ≤ name.slot ∧ name.slot + 2 ≤ tssBytes := by
  cases name <;> decide

theorem savedFields_within (processor : Processor) {field : Field}
    (member : field ∈ processor.savedFields) : field.offset + field.width ≤ tssBytes := by
  rcases List.mem_append.mp member with inGeneral | inSegments
  · rcases List.mem_map.mp inGeneral with ⟨register, _, rfl⟩
    exact register.slot_within.2
  · rcases List.mem_map.mp inSegments with ⟨name, _, rfl⟩
    exact name.slot_within.2

theorem general_saved (processor : Processor) (register : GeneralRegister) :
    ⟨register.slot, 4, processor.general register⟩ ∈ processor.savedFields := by
  refine List.mem_append_left _ (List.mem_map.mpr ⟨register, ?_, rfl⟩)
  cases register <;> decide

theorem segment_saved (processor : Processor) (name : SegmentName) :
    ⟨name.slot, 2, (processor.segment name).selector⟩ ∈ processor.savedFields := by
  refine List.mem_append_right _ (List.mem_map.mpr ⟨name, ?_, rfl⟩)
  cases name <;> decide

/-! ## Frames on the stack -/

def Processor.FlatStack (processor : Processor) : Prop :=
  (processor.segment .ss).base = 0 ∧ (processor.segment .ss).limit = 2 ^ 32 - 1

theorem push_eq (inSpace : processor.In space) (flat : processor.FlatStack)
    (room : 4 ≤ processor.general .esp) (fits : processor.general .esp < 2 ^ 32)
    (inside : ByteMemory.extent (processor.general .esp - 4) 4 ⊆ space.window) (value : Nat) :
    processor.push value =
      .ok ((processor.setMemory (processor.memory.store (processor.general .esp - 4) 4
        value)).setGeneral .esp (processor.general .esp - 4)) := by
  have lowered : (2 ^ 32 - 4 + processor.general .esp) % 2 ^ 32 = processor.general .esp - 4 := by
    omega
  rw [Processor.push]
  simp only [lowered]
  rw [if_neg (by rw [flat.2]; omega), flat.1, Nat.zero_add, inSpace.write_eq inside]
  rfl

theorem push_faults (inSpace : processor.In space) (flat : processor.FlatStack)
    (room : 4 ≤ processor.general .esp) (fits : processor.general .esp < 2 ^ 32) {offset : Nat}
    (within : offset < 4) (missing : processor.general .esp - 4 + offset ∈ space.hole)
    (value : Nat) : processor.push value = .error (.pageFault 2, processor.memory) := by
  have lowered : (2 ^ 32 - 4 + processor.general .esp) % 2 ^ 32 = processor.general .esp - 4 := by
    omega
  rw [Processor.push]
  simp only [lowered]
  rw [if_neg (by rw [flat.2]; omega), flat.1, Nat.zero_add,
    inSpace.write_eq_none within missing]
  rfl

/-- A stack of mapped bytes above the hole. -/
structure AddressSpace.StackAboveHole (space : AddressSpace) (low floor top : Nat) : Prop where
  positive : 4 ≤ low
  wide : low + 4 ≤ floor
  unmapped : Set.Ico low floor ⊆ space.hole
  stack : Set.Ico floor top ⊆ space.window \ space.tables
  below : top < 2 ^ 32

/-- A frame that reaches below the end of the stack faults.  The words that are above
it are the only change. -/
theorem pushes_fault {low floor top : Nat} (ends : space.StackAboveHole low floor top)
    {values : List Nat} (nonempty : values ≠ []) (inSpace : processor.In space)
    (flat : processor.FlatStack) (above : low < processor.general .esp)
    (inStack : processor.general .esp ≤ top)
    (short : processor.general .esp < floor + 4 * values.length) :
    Exists fun memory => values.foldlM Processor.push processor = .error (.pageFault 2, memory) ∧
      Set.EqOn memory processor.memory (Set.Ico floor (processor.general .esp))ᶜ := by
  induction values generalizing processor with
  | nil => exact absurd rfl nonempty
  | cons value rest inductionHypothesis =>
      have positive := ends.positive
      have wide := ends.wide
      have below := ends.below
      rw [List.length_cons] at short
      rw [List.foldlM_cons]
      by_cases fitting : floor ≤ processor.general .esp - 4
      · have inside : ByteMemory.extent (processor.general .esp - 4) 4 ⊆
            space.window \ space.tables := by
          intro address member
          have bounds := ByteMemory.mem_extent.mp member
          exact ends.stack ⟨by omega, by omega⟩
        have pushed := push_eq inSpace flat (by omega) (by omega)
          (fun _ member => (inside member).1) value
        have apart : Disjoint (ByteMemory.extent (processor.general .esp - 4) 4) space.tables :=
          Set.disjoint_left.mpr (fun _ member => (inside member).2)
        have more : rest ≠ [] := by
          rintro rfl
          rw [List.length_nil] at short
          omega
        rcases inductionHypothesis more
            (show ((processor.setMemory (processor.memory.store (processor.general .esp - 4) 4
              value)).setGeneral .esp (processor.general .esp - 4)).In space from
                inSpace.store apart value) flat
            (show low < processor.general .esp - 4 by omega)
            (show processor.general .esp - 4 ≤ top by omega)
            (show processor.general .esp - 4 < floor + 4 * rest.length by omega)
          with ⟨memory, faults, kept⟩
        refine ⟨memory, by rw [pushed]; exact faults, ?_⟩
        intro address outside
        have apartNow : address ∉ Set.Ico floor (processor.general .esp) := outside
        rw [Set.mem_Ico] at apartNow
        have later : memory address =
            processor.memory.store (processor.general .esp - 4) 4 value address := by
          apply kept
          show address ∉ Set.Ico floor (processor.general .esp - 4)
          rw [Set.mem_Ico]
          omega
        rw [later, ByteMemory.store_outside _ (by omega)]
      · refine ⟨processor.memory, ?_, Set.eqOn_refl _ _⟩
        by_cases inside : processor.general .esp < floor
        · rw [push_faults inSpace flat (by omega) (by omega) (show 3 < 4 by decide)
            (ends.unmapped ⟨by omega, by omega⟩) value]
          rfl
        · rw [push_faults inSpace flat (by omega) (by omega) (show 0 < 4 by decide)
            (ends.unmapped ⟨by omega, by omega⟩) value]
          rfl

/-- Memory after a frame was pushed from the given stack pointer on. -/
def pushed (memory : ByteMemory) (esp : Nat) : List Nat -> ByteMemory
  | [] => memory
  | value :: rest => pushed (memory.store (esp - 4) 4 value) (esp - 4) rest

theorem pushed_outside (memory : ByteMemory) {esp target : Nat} {values : List Nat}
    (room : 4 * values.length ≤ esp)
    (outside : target < esp - 4 * values.length ∨ esp ≤ target) :
    pushed memory esp values target = memory target := by
  induction values generalizing memory esp with
  | nil => rfl
  | cons value rest inductionHypothesis =>
      rw [List.length_cons] at room outside
      rw [pushed, inductionHypothesis _ (by omega) (by omega)]
      exact ByteMemory.store_outside memory (by omega)

theorem load_pushed (memory : ByteMemory) {esp : Nat} {values : List Nat}
    (room : 4 * values.length ≤ esp) {index value : Nat} (found : values[index]? = some value)
    (fits : value < 2 ^ 32) :
    (pushed memory esp values).load (esp - 4 * (index + 1)) 4 = value := by
  induction values generalizing memory esp index with
  | nil => simp at found
  | cons head rest inductionHypothesis =>
      rw [List.length_cons] at room
      cases index with
      | zero =>
          have isHead : head = value := Option.some.inj found
          subst isHead
          have kept : Set.EqOn (pushed (memory.store (esp - 4) 4 head) (esp - 4) rest)
              (memory.store (esp - 4) 4 head) (ByteMemory.extent (esp - 4) 4) := by
            intro address member
            have bounds := ByteMemory.mem_extent.mp member
            exact pushed_outside _ (by omega) (Or.inr (by omega))
          rw [pushed, ByteMemory.load_congr kept]
          exact ByteMemory.load_store_of_lt memory fits
      | succ index =>
          have later := inductionHypothesis (memory.store (esp - 4) 4 head)
            (show 4 * rest.length ≤ esp - 4 by omega) found
          rw [pushed, ← later]
          congr 1
          omega

theorem setGeneral_self (processor : Processor) (register : GeneralRegister) :
    processor.setGeneral register (processor.general register) = processor := by
  have same : (fun other => if other = register then processor.general register
      else processor.general other) = processor.general := by
    funext other
    split
    · rename_i isRegister
      rw [isRegister]
    · rfl
  rw [Processor.setGeneral, same]

/-- A frame that fits is pushed word by word, and the stack pointer is below the
last of them. -/
theorem pushes_eq {values : List Nat} (inSpace : processor.In space) (flat : processor.FlatStack)
    (room : 4 * values.length ≤ processor.general .esp) (fits : processor.general .esp < 2 ^ 32)
    (inside : Set.Ico (processor.general .esp - 4 * values.length) (processor.general .esp) ⊆
      space.window \ space.tables) :
    values.foldlM Processor.push processor =
      .ok ((processor.setMemory (pushed processor.memory (processor.general .esp) values)).setGeneral
        .esp (processor.general .esp - 4 * values.length)) := by
  induction values generalizing processor with
  | nil => exact congrArg Except.ok (setGeneral_self processor .esp).symm
  | cons value rest inductionHypothesis =>
      rw [List.length_cons] at room inside
      have word : ByteMemory.extent (processor.general .esp - 4) 4 ⊆
          space.window \ space.tables := by
        intro address member
        have bounds := ByteMemory.mem_extent.mp member
        exact inside ⟨by omega, by omega⟩
      have apart : Disjoint (ByteMemory.extent (processor.general .esp - 4) 4) space.tables :=
        Set.disjoint_left.mpr (fun _ member => (word member).2)
      have first := push_eq inSpace flat (by omega) fits (fun _ member => (word member).1) value
      have later := inductionHypothesis
        (show ((processor.setMemory (processor.memory.store (processor.general .esp - 4) 4
          value)).setGeneral .esp (processor.general .esp - 4)).In space from
            inSpace.store apart value) flat
        (show 4 * rest.length ≤ processor.general .esp - 4 by omega)
        (show processor.general .esp - 4 < 2 ^ 32 by omega)
        (fun address member => inside ⟨by
          have lower : processor.general .esp - 4 - 4 * rest.length ≤ address := member.1
          omega, by
          have upper : address < processor.general .esp - 4 := member.2
          omega⟩)
      rw [List.foldlM_cons, first]
      refine later.trans (congrArg Except.ok ?_)
      have total : processor.general .esp - 4 - 4 * rest.length =
          processor.general .esp - 4 * (rest.length + 1) := by omega
      have registers : (fun other => if other = GeneralRegister.esp then
            processor.general .esp - 4 - 4 * rest.length
          else if other = GeneralRegister.esp then processor.general .esp - 4
          else processor.general other) = fun other => if other = GeneralRegister.esp then
            processor.general .esp - 4 * (rest.length + 1)
          else processor.general other := by
        funext other
        split
        · exact total
        · rfl
      simp only [Processor.setGeneral, Processor.setMemory, if_true, registers, pushed,
        List.length_cons]

/-! ## Gates -/

/-- A vector leads through an interrupt gate to a code segment that is loaded without
a write. -/
structure Processor.HasHandler (processor : Processor) (space : AddressSpace) (vector : Nat)
    (gate : Gate) (code : Descriptor) : Prop where
  hasGate : processor.HasGate space vector gate
  kind : gate.kind = some .interrupt
  gatePresent : gate.isPresent = true
  hasCode : processor.HasDescriptor space gate.selector code
  nonnull : gate.selector / 4 ≠ 0
  suits : code.suits .cs = true
  codePresent : code.isPresent = true
  accessed : code.access % 2 = 1

/-- The words of the frame for an event, in the order in which they are pushed; the
error code comes last, if there is one. -/
def Processor.frame (processor : Processor) (event : Event) : List Nat :=
  [processor.general .eflags, (processor.segment .cs).selector, processor.general .eip] ++
    event.errorCode.toList

variable {event : Event} {code : Descriptor}

theorem deliver_of_ok {entered : Processor} (reached : processor.vectorTo event = .ok entered) :
    processor.deliver event = .ok entered := by
  rw [Processor.deliver, reached]
  rfl

theorem deliver_of_error {fault : Fault} {memory : ByteMemory}
    (faulted : processor.vectorTo event = .error (fault, memory)) :
    processor.deliver event = .error (fault.during event, memory) := by
  rw [Processor.deliver, faulted]
  rfl

theorem Processor.HasGate.vectorTo_eq (inSpace : processor.In space)
    (found : processor.HasGate space event.vector gate) :
    processor.vectorTo event = processor.enter gate event := by
  have inTable := found.inTable
  rw [Processor.vectorTo, if_neg (by omega), inSpace.read_eq found.mapped]
  exact congrArg (fun gate => processor.enter gate event) found.word

/-- Delivery through an interrupt gate is a matter of pushing the frame. -/
theorem Processor.HasHandler.vectorTo_eq (inSpace : processor.In space)
    (handled : processor.HasHandler space event.vector gate code) :
    processor.vectorTo event =
      ((processor.frame event).foldlM Processor.push
        (processor.setSegment .cs ⟨gate.selector, code.base, code.lastByte⟩)).map fun entered =>
          (entered.setGeneral .eflags (andNot 32 (processor.general .eflags)
            (clearedFlags + interruptEnable))).setGeneral .eip gate.offset := by
  have loaded := handled.hasCode.loadSegment_eq inSpace handled.nonnull handled.suits
    handled.codePresent handled.accessed .generalProtection
  rw [handled.hasGate.vectorTo_eq inSpace, Processor.enter, handled.kind]
  simp only [handled.gatePresent, Bool.not_true, Bool.false_eq_true, if_false]
  rw [Processor.enterHandler, loaded, ok_bind]
  exact bind_pure_eq_map _ _

theorem raise_of_delivered {entered : Processor} (delivered : processor.deliver event = .ok entered) :
    raise processor event = .running entered := by
  rw [raise, delivered]

theorem raise_of_fault {fault : Fault} {memory : ByteMemory} {next : Event}
    (faulted : processor.deliver event = .error (fault, memory))
    (escalated : escalate (severity event) fault = some next) :
    raise processor event = raise (processor.setMemory memory) next := by
  rw [raise, faulted]
  simp only
  split
  · rename_i shut
    rw [escalated] at shut
    cases shut
  · rename_i other found
    rw [escalated] at found
    rw [Option.some.inj found]

/-- The processor at the first instruction of a handler. -/
def Processor.entered (processor : Processor) (event : Event) (gate : Gate) (code : Descriptor) :
    Processor :=
  ((((processor.setSegment .cs ⟨gate.selector, code.base, code.lastByte⟩).setMemory
    (pushed processor.memory (processor.general .esp) (processor.frame event))).setGeneral .esp
      (processor.general .esp - 4 * (processor.frame event).length)).setGeneral .eflags
        (andNot 32 (processor.general .eflags) (clearedFlags + interruptEnable))).setGeneral .eip
          gate.offset

theorem Processor.length_frame (processor : Processor) (event : Event) :
    4 * (processor.frame event).length = 12 + 4 * event.errorCode.toList.length := by
  rw [Processor.frame, List.length_append, List.length_cons, List.length_cons, List.length_cons,
    List.length_nil]
  omega

theorem Processor.HasHandler.deliver_fits (inSpace : processor.In space)
    (handled : processor.HasHandler space event.vector gate code) (flat : processor.FlatStack)
    (room : 4 * (processor.frame event).length ≤ processor.general .esp)
    (fits : processor.general .esp < 2 ^ 32)
    (inside : Set.Ico (processor.general .esp - 4 * (processor.frame event).length)
      (processor.general .esp) ⊆ space.window \ space.tables) :
    processor.deliver event = .ok (processor.entered event gate code) := by
  apply deliver_of_ok
  rw [handled.vectorTo_eq inSpace, pushes_eq
    (show (processor.setSegment .cs ⟨gate.selector, code.base, code.lastByte⟩).In space from
      inSpace) flat room fits inside]
  rfl

/-! ## Returning -/

theorem pop_eq (inSpace : processor.In space) (flat : processor.FlatStack)
    (fits : processor.general .esp + 4 < 2 ^ 32)
    (inside : ByteMemory.extent (processor.general .esp) 4 ⊆ space.window) :
    processor.pop = .ok (processor.memory.load (processor.general .esp) 4,
      processor.setGeneral .esp (4 + processor.general .esp)) := by
  rw [Processor.pop, if_neg (by rw [flat.2]; omega), flat.1, Nat.zero_add,
    inSpace.read_eq inside, require_some, ok_bind, Nat.mod_eq_of_lt (by omega)]
  rfl

/-- What `iret` takes from the stack. -/
structure Processor.Returned (before after : Processor) : Prop where
  eip : after.general .eip = before.memory.load (before.general .esp) 4
  eflags : after.general .eflags = before.memory.load (8 + before.general .esp) 4
  esp : after.general .esp = 12 + before.general .esp
  others : forall register, register ≠ .eip -> register ≠ .esp -> register ≠ .eflags ->
    after.general register = before.general register
  segments : forall name, name ≠ .cs -> after.segment name = before.segment name
  memory : after.memory = before.memory
  system : (after.task, after.gdtr, after.idtr, after.cr0, after.cr3) =
    (before.task, before.gdtr, before.idtr, before.cr0, before.cr3)

theorem interruptReturn_eq (inSpace : processor.In space) (flat : processor.FlatStack)
    (fits : processor.general .esp + 12 < 2 ^ 32)
    (inside : Set.Ico (processor.general .esp) (12 + processor.general .esp) ⊆ space.window)
    {selector : Nat} {code : Descriptor}
    (saved : processor.memory.load (4 + processor.general .esp) 4 % 2 ^ 16 = selector)
    (found : processor.HasDescriptor space selector code) (nonnull : selector / 4 ≠ 0)
    (suits : code.suits .cs = true) (present : code.isPresent = true)
    (accessed : code.access % 2 = 1) (unnested : processor.general .eflags &&& nestedTask = 0) :
    Exists fun returned => processor.interruptReturn = .ok returned ∧
      processor.Returned returned ∧
      returned.segment .cs = ⟨selector, code.base, code.lastByte⟩ := by
  have word (offset : Nat) (within : offset + 4 ≤ 12) :
      ByteMemory.extent (offset + processor.general .esp) 4 ⊆ space.window := by
    intro address member
    have bounds := ByteMemory.mem_extent.mp member
    exact inside ⟨by omega, by omega⟩
  have atStart := word 0 (by omega)
  rw [Nat.zero_add] at atStart
  let first := processor.setGeneral .esp (4 + processor.general .esp)
  let second := first.setGeneral .esp (4 + (4 + processor.general .esp))
  let third := second.setGeneral .esp (4 + (4 + (4 + processor.general .esp)))
  have one := pop_eq inSpace flat (by omega) atStart
  have two : first.pop = .ok (processor.memory.load (4 + processor.general .esp) 4, second) :=
    @pop_eq space first inSpace flat (show 4 + processor.general .esp + 4 < 2 ^ 32 by omega)
      (word 4 (by decide))
  have three : second.pop =
      .ok (processor.memory.load (4 + (4 + processor.general .esp)) 4, third) :=
    @pop_eq space second inSpace flat (show 4 + (4 + processor.general .esp) + 4 < 2 ^ 32 by omega)
      (by rw [show second.general .esp = 8 + processor.general .esp by
            show 4 + (4 + processor.general .esp) = _
            omega]
          exact word 8 (by decide))
  have loads : third.loadSegment .generalProtection .cs selector =
      .ok (third.setSegment .cs ⟨selector, code.base, code.lastByte⟩) :=
    Processor.HasDescriptor.loadSegment_eq (show third.In space from inSpace)
      (show third.HasDescriptor space selector code from
        ⟨found.isGlobal, found.inTable, found.mapped, found.word⟩) nonnull suits present accessed _
  refine ⟨((third.setSegment .cs ⟨selector, code.base, code.lastByte⟩).setGeneral .eip
    (processor.memory.load (processor.general .esp) 4)).setGeneral .eflags
      (processor.memory.load (4 + (4 + processor.general .esp)) 4), ?_, ?_, ?_⟩
  · rw [Processor.interruptReturn, if_neg (not_not_intro unnested), one, ok_bind]
    simp only
    rw [two, ok_bind]
    simp only
    rw [three, ok_bind]
    simp only
    rw [saved, loads, ok_bind]
    rfl
  · refine ⟨rfl, ?_, ?_, ?_, ?_, rfl, rfl⟩
    · show processor.memory.load (4 + (4 + processor.general .esp)) 4 = _
      rw [show 4 + (4 + processor.general .esp) = 8 + processor.general .esp by omega]
    · show 4 + (4 + (4 + processor.general .esp)) = _
      omega
    · intro register notEip notEsp notEflags
      simp only [third, second, first, Processor.setGeneral, Processor.setSegment, if_neg notEip,
        if_neg notEsp, if_neg notEflags]
    · intro name notCode
      simp only [third, second, first, Processor.setGeneral, Processor.setSegment, if_neg notCode]
  · rfl

/-! ## Where events end up -/

theorem severity_ne_doubleFault {event : Event} (different : event.vector ≠ 8) :
    severity event ≠ .doubleFault := by
  unfold severity
  rw [if_neg different]
  split
  · decide
  · split
    · decide
    · split <;> decide

/-- The event whose handler is entered in the end, given which vectors have a gate and
what is left of the stack; `none` is a double fault. -/
def settled (present : Nat -> Bool) (room : Nat) (event : Event) : Option Event :=
  if event.vector = 8 then none
  else if present event.vector then
    if 12 + 4 * event.errorCode.toList.length ≤ room then some event else none
  else if severity event = .benign ∧ present 13 ∧ 16 ≤ room then
    some (Fault.generalProtection (event.gateCode + event.external)).event
  else none

theorem room_of_settled {present : Nat -> Bool} {room : Nat} {event last : Event}
    (entered : settled present room event = some last) :
    12 + 4 * last.errorCode.toList.length ≤ room := by
  unfold settled at entered
  split at entered
  · cases entered
  · split at entered
    · split at entered
      · rename_i fits
        cases entered
        exact fits
      · cases entered
    · split at entered
      · rename_i fits
        cases entered
        exact fits.2.2
      · cases entered

section Settle

variable {low floor top : Nat} {handlers : Nat -> Option Gate}

/-- The stack pointer is on a stack with a hole below it, or in the hole. -/
structure Processor.OnStack (processor : Processor) (space : AddressSpace)
    (low floor top : Nat) : Prop where
  ends : space.StackAboveHole low floor top
  flat : processor.FlatStack
  above : low < processor.general .esp
  inStack : processor.general .esp ≤ top

/-- Every vector but that of double faults has a handler or no gate at all, whatever is
on the stack. -/
structure Processor.Vectored (processor : Processor) (space : AddressSpace) (stack : Set Nat)
    (handlers : Nat -> Option Gate) (code : Descriptor) : Prop where
  handled : forall memory, Set.EqOn memory processor.memory stackᶜ ->
    forall vector gate, vector < 256 -> vector ≠ 8 -> handlers vector = some gate ->
      (processor.setMemory memory).HasHandler space vector gate code
  missing : forall memory, Set.EqOn memory processor.memory stackᶜ ->
    forall vector, vector < 256 -> vector ≠ 8 -> handlers vector = none ->
      Exists fun gate => (processor.setMemory memory).HasGate space vector gate ∧ gate.kind = none

/-- All that delivery depends on. -/
structure Processor.Deliverable (processor : Processor) (space : AddressSpace)
    (low floor top : Nat) (handlers : Nat -> Option Gate) (code : Descriptor) : Prop where
  inSpace : processor.In space
  stack : processor.OnStack space low floor top
  vectored : processor.Vectored space (Set.Ico floor top) handlers code

namespace Processor.Deliverable

/-- Words that are pushed in vain change nothing. -/
theorem of_eqOn (ready : processor.Deliverable space low floor top handlers code)
    {memory : ByteMemory}
    (kept : Set.EqOn memory processor.memory (Set.Ico floor (processor.general .esp))ᶜ) :
    (processor.setMemory memory).Deliverable space low floor top handlers code := by
  have wider : Set.EqOn memory processor.memory (Set.Ico floor top)ᶜ :=
    kept.mono (Set.compl_subset_compl.mpr (Set.Ico_subset_Ico_right ready.stack.inStack))
  have tables : Set.EqOn memory processor.memory space.tables := by
    apply wider.mono
    intro address member inStack
    exact (ready.stack.ends.stack inStack).2 member
  refine ⟨ready.inSpace.of_eqOn rfl rfl tables, ?_, ?_⟩
  · exact ⟨ready.stack.ends, ready.stack.flat, ready.stack.above, ready.stack.inStack⟩
  · exact ⟨fun changed agree => ready.vectored.handled changed (agree.trans wider),
      fun changed agree => ready.vectored.missing changed (agree.trans wider)⟩

variable (ready : processor.Deliverable space low floor top handlers code)

include ready

theorem deliver_handled (event : Event) (small : event.vector < 256) (different : event.vector ≠ 8)
    (installed : handlers event.vector = some gate)
    (room : 12 + 4 * event.errorCode.toList.length ≤ processor.general .esp - floor) :
    processor.deliver event = .ok (processor.entered event gate code) := by
  have length := processor.length_frame event
  have inStack := ready.stack.inStack
  have below := ready.stack.ends.below
  have handled := ready.vectored.handled processor.memory (Set.eqOn_refl _ _) _ _ small different
    installed
  apply Processor.HasHandler.deliver_fits ready.inSpace handled ready.stack.flat (by omega)
    (by omega)
  intro address member
  have lower := member.1
  have upper := member.2
  exact ready.stack.ends.stack ⟨by omega, by omega⟩

theorem deliver_short (event : Event) (small : event.vector < 256) (different : event.vector ≠ 8)
    (installed : handlers event.vector = some gate)
    (short : processor.general .esp - floor < 12 + 4 * event.errorCode.toList.length) :
    Exists fun memory => processor.deliver event = .error (.pageFault 2, memory) ∧
      Set.EqOn memory processor.memory (Set.Ico floor (processor.general .esp))ᶜ := by
  have length := processor.length_frame event
  have nonempty : processor.frame event ≠ [] := List.ne_nil_of_length_pos (by omega)
  have handled := ready.vectored.handled processor.memory (Set.eqOn_refl _ _) _ _ small different
    installed
  rcases pushes_fault ready.stack.ends nonempty
      (show (processor.setSegment .cs ⟨gate.selector, code.base, code.lastByte⟩).In space from
        ready.inSpace) ready.stack.flat ready.stack.above ready.stack.inStack
      (show processor.general .esp < floor + 4 * (processor.frame event).length by omega)
    with ⟨memory, faults, kept⟩
  refine ⟨memory, ?_, kept⟩
  apply @deliver_of_error _ _ (.pageFault 2)
  rw [Processor.HasHandler.vectorTo_eq ready.inSpace handled, faults]
  rfl

theorem deliver_missing (event : Event) (small : event.vector < 256) (different : event.vector ≠ 8)
    (absent : handlers event.vector = none) :
    processor.deliver event =
      .error (.generalProtection (event.gateCode + event.external), processor.memory) := by
  rcases ready.vectored.missing processor.memory (Set.eqOn_refl _ _) _ small different absent
    with ⟨missing, found, noKind⟩
  apply @deliver_of_error _ _ (.generalProtection event.gateCode)
  rw [Processor.HasGate.vectorTo_eq ready.inSpace found, Processor.enter, noKind]
  rfl

/-- A page fault without room for its frame, or without a handler, is a double fault. -/
theorem pageFault_doubles {code : Nat}
    (lost : processor.general .esp - floor < 16 ∨ handlers 14 = none) :
    Exists fun memory => raise processor (Fault.pageFault code).event =
        raise (processor.setMemory memory) doubleFault ∧
      Set.EqOn memory processor.memory (Set.Ico floor (processor.general .esp))ᶜ := by
  cases installed : handlers 14 with
  | none =>
      have faults := ready.deliver_missing (Fault.pageFault code).event (show 14 < 256 by decide)
        (show 14 ≠ 8 by decide) installed
      exact ⟨processor.memory, raise_of_fault faults rfl, Set.eqOn_refl _ _⟩
  | some gate =>
      have short := lost.resolve_right (by rw [installed]; exact Option.some_ne_none gate)
      rcases ready.deliver_short (Fault.pageFault code).event (show 14 < 256 by decide)
          (show 14 ≠ 8 by decide) installed short with ⟨memory, faults, kept⟩
      exact ⟨memory, raise_of_fault faults rfl, kept⟩

/-- An event whose frame does not fit is a double fault. -/
theorem short_doubles (event : Event) (small : event.vector < 256) (different : event.vector ≠ 8)
    (installed : handlers event.vector = some gate)
    (short : processor.general .esp - floor < 12 + 4 * event.errorCode.toList.length) :
    Exists fun memory => raise processor event = raise (processor.setMemory memory) doubleFault ∧
      Set.EqOn memory processor.memory (Set.Ico floor (processor.general .esp))ᶜ := by
  rcases ready.deliver_short event small different installed short with ⟨first, faults, kept⟩
  have notDouble := severity_ne_doubleFault different
  by_cases isPageFault : severity event = .pageFault
  · refine ⟨first, raise_of_fault faults ?_, kept⟩
    rw [isPageFault]
    rfl
  · have serial : escalate (severity event) (.pageFault 2) = some (Fault.pageFault 2).event := by
      cases worse : severity event with
      | benign => rfl
      | contributory => rfl
      | pageFault => exact absurd worse isPageFault
      | doubleFault => exact absurd worse notDouble
    have words : event.errorCode.toList.length ≤ 1 := Option.length_toList_le
    rcases (ready.of_eqOn kept).pageFault_doubles
        (Or.inl (show processor.general .esp - floor < 16 by omega)) with ⟨second, again, keptAgain⟩
    refine ⟨second, ?_, keptAgain.trans kept⟩
    rw [raise_of_fault faults serial]
    exact again

/-- Wherever the stack pointer is on the stack or in the hole, and whichever gates are
missing, an event ends in a handler or as a double fault, with the registers as they
were. -/
theorem raise_settled (event : Event) (small : event.vector < 256) (different : event.vector ≠ 8) :
    match settled (fun vector => (handlers vector).isSome) (processor.general .esp - floor) event with
    | some last => Exists fun gate => handlers last.vector = some gate ∧
        raise processor event = .running (processor.entered last gate code)
    | none => Exists fun memory =>
        raise processor event = raise (processor.setMemory memory) doubleFault ∧
          Set.EqOn memory processor.memory (Set.Ico floor (processor.general .esp))ᶜ := by
  rw [settled, if_neg different]
  cases installed : handlers event.vector with
  | some gate =>
      rw [if_pos (by rfl)]
      by_cases room : 12 + 4 * event.errorCode.toList.length ≤ processor.general .esp - floor
      · rw [if_pos room]
        exact ⟨gate, installed, raise_of_delivered
          (ready.deliver_handled event small different installed room)⟩
      · rw [if_neg room]
        exact ready.short_doubles event small different installed (by omega)
  | none =>
      have faults := ready.deliver_missing event small different installed
      rw [if_neg (by decide)]
      by_cases benign : severity event = .benign
      · generalize isNext : (Fault.generalProtection (event.gateCode + event.external)).event = next
        have vector : next.vector = 13 := by rw [← isNext]; rfl
        have coded : next.errorCode.toList.length = 1 := by rw [← isNext]; rfl
        have contributory : severity next = .contributory := by rw [← isNext]; rfl
        have serial : escalate (severity event)
            (.generalProtection (event.gateCode + event.external)) = some next := by
          rw [benign, ← isNext]
          rfl
        rw [raise_of_fault faults serial]
        cases protection : handlers 13 with
        | none =>
            have again := ready.deliver_missing next (by omega) (by omega) (by rw [vector, protection])
            rw [if_neg (fun all => absurd all.2.1 (by decide))]
            refine ⟨processor.memory, raise_of_fault again ?_, Set.eqOn_refl _ _⟩
            rw [contributory]
            rfl
        | some gate =>
            by_cases room : 16 ≤ processor.general .esp - floor
            · rw [if_pos ⟨benign, rfl, room⟩]
              refine ⟨gate, by rw [vector, protection], raise_of_delivered ?_⟩
              exact ready.deliver_handled next (by omega) (by omega) (by rw [vector, protection])
                (by omega)
            · rw [if_neg (fun all => room all.2.2)]
              exact ready.short_doubles next (by omega) (by omega) (by rw [vector, protection])
                (by omega)
      · have serial : escalate (severity event)
            (.generalProtection (event.gateCode + event.external)) = some doubleFault := by
          have notDouble := severity_ne_doubleFault different
          cases worse : severity event with
          | benign => exact absurd worse benign
          | contributory => rfl
          | pageFault => rfl
          | doubleFault => exact absurd worse notDouble
        rw [if_neg (fun all => benign all.1)]
        exact ⟨processor.memory, raise_of_fault faults serial, Set.eqOn_refl _ _⟩

end Processor.Deliverable

end Settle

end ProtectedMode
end Library
end Goatos
