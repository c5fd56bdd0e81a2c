import Goatos.Memory.PageTables

namespace Goatos
namespace Memory
namespace Paging

open Library

/-!
# The map that `init` installs

A directory that names `n` filled tables translates every address below `n`
times 4 MiB to itself, except in the guard page.  `isPresent` looks the same
entries up a second time, but by loads that go through the map it inspects.  It
therefore agrees with the processor exactly if the directory and all tables are
mapped themselves, which the window does not guarantee.
-/

/-! ## Walking complete tables -/

section Walk

variable {guard : Nat} {directory : Frame} {tables : List Frame} {memory : ByteMemory}

theorem Built.walk_eq (built : Built guard directory tables memory)
    (small : directory.index < 2 ^ 20) {virt : Nat} (fits : virt < 2 ^ 32) :
    Library.walk memory directory.startAddress virt =
      if virt < tables.length * bytesPerDirectoryEntry ∧ virt / frameSize * frameSize ≠ guard then
        some ⟨virt, true⟩
      else none := by
  have rootFits : directory.startAddress < 2 ^ 32 := by
    rw [Frame.startAddress_eq]
    omega
  have inDirectory : virt / tableSpan < 1024 := by
    unfold tableSpan pageBytes
    omega
  have inTable : virt % tableSpan / pageBytes < 1024 := by
    unfold tableSpan pageBytes
    omega
  have page : virt / tableSpan * bytesPerDirectoryEntry +
      virt % tableSpan / pageBytes * frameSize = virt / frameSize * frameSize := by
    unfold tableSpan pageBytes bytesPerDirectoryEntry frameSize entries
    omega
  have window : virt < tables.length * bytesPerDirectoryEntry ↔
      virt / tableSpan < tables.length := by
    unfold tableSpan pageBytes bytesPerDirectoryEntry frameSize entries
    omega
  by_cases below : virt / tableSpan < tables.length
  · have isTable : tables[virt / tableSpan]? = some tables[virt / tableSpan] :=
      List.getElem?_eq_getElem below
    have named := built.named _ _ isTable
    have mapped := built.mapped _ _ isTable _ inTable
    rw [page] at mapped
    by_cases isGuard : virt / frameSize * frameSize = guard
    · rw [if_pos isGuard] at mapped
      rw [if_neg (fun both => both.2 isGuard)]
      exact walk_of_blank_page directory.startAddress_aligned rootFits
        (Frame.startAddress_aligned _) named mapped
    · rw [if_neg isGuard] at mapped
      rw [if_pos ⟨window.mpr below, isGuard⟩, walk_of_page directory.startAddress_aligned rootFits
        (Frame.startAddress_aligned _) (Nat.dvd_mul_left _ _) named mapped]
      have whole : virt / frameSize * pageBytes + virt % pageBytes = virt :=
        Nat.div_add_mod' virt 4096
      rw [whole]
  · rw [if_neg (fun both => below (window.mp both.1))]
    exact walk_of_blank_directory directory.startAddress_aligned rootFits
      (built.blank _ (Nat.le_of_not_lt below) inDirectory)

end Walk

/-! ## Looking entries up through the map -/

/-- Complete tables that are in force. -/
structure Installed (guard : Nat) (directory : Frame) (tables : List Frame) (machine : Machine) :
    Prop where
  built : Built guard directory tables machine.memory
  root : machine.cr3 = directory.startAddress
  enabled : machine.pagingIsEnabled = true
  inMemory : forall frame, frame ∈ directory :: tables ->
    frame.index ≠ 0 ∧ frame.index < 2 ^ 20

/-- A frame that the map with this end and guard page reaches. -/
def Reached (guard mappedEnd : Nat) (frame : Frame) : Prop :=
  frame.startAddress < mappedEnd ∧ frame.startAddress ≠ guard

theorem directoryIndex_lt {virt : Nat} (fits : virt < 2 ^ 32) :
    virt / bytesPerDirectoryEntry < 1024 := by
  unfold bytesPerDirectoryEntry frameSize entries
  omega

namespace Installed

variable {guard : Nat} {directory : Frame} {tables : List Frame} {machine : Machine}

theorem walk_eq (installed : Installed guard directory tables machine) {virt : Nat}
    (fits : virt < 2 ^ 32) :
    machine.walk virt =
      if virt < tables.length * bytesPerDirectoryEntry ∧ virt / frameSize * frameSize ≠ guard then
        some ⟨virt, true⟩
      else none := by
  rw [Machine.walk, installed.root]
  exact installed.built.walk_eq (installed.inMemory directory List.mem_cons_self).2 fits

theorem readEntry_cases (installed : Installed guard directory tables machine) {table : Frame}
    (small : table.index < 2 ^ 20) {index : Nat} (inRange : index < 1024) :
    (Reached guard (tables.length * bytesPerDirectoryEntry) table ->
      machine.readEntry table index = some (entryAt machine.memory table.startAddress index)) ∧
    (¬ Reached guard (tables.length * bytesPerDirectoryEntry) table ->
      machine.readEntry table index = none) := by
  have start := table.startAddress_eq
  have fits : table.startAddress + index * 4 < 2 ^ 32 := by omega
  have same : (table.startAddress + index * 4) / frameSize * frameSize = table.startAddress := by
    unfold frameSize
    omega
  have below : table.startAddress + index * 4 < tables.length * bytesPerDirectoryEntry ↔
      table.startAddress < tables.length * bytesPerDirectoryEntry := by
    unfold bytesPerDirectoryEntry frameSize entries
    omega
  rw [Machine.readEntry, Machine.translate, if_pos installed.enabled, installed.walk_eq fits, same]
  constructor
  · intro reached
    rw [if_pos ⟨below.mpr reached.1, reached.2⟩]
    rfl
  · intro unreached
    rw [if_neg (fun both => unreached ⟨below.mp both.1, both.2⟩)]
    rfl

theorem cr3_ne_zero (installed : Installed guard directory tables machine) : machine.cr3 ≠ 0 := by
  have atDirectory := installed.inMemory directory List.mem_cons_self
  rw [installed.root, Frame.startAddress_eq]
  omega

theorem isPresent_of_unreached_directory (installed : Installed guard directory tables machine)
    (unreached : ¬ Reached guard (tables.length * bytesPerDirectoryEntry) directory) {virt : Nat}
    (fits : virt < 2 ^ 32) : machine.isPresent virt = none := by
  have atDirectory := installed.inMemory directory List.mem_cons_self
  have inRange := directoryIndex_lt fits
  have faults := (installed.readEntry_cases atDirectory.2 inRange).2 unreached
  rw [Machine.isPresent, if_neg installed.cr3_ne_zero, installed.root, Frame.containing_startAddress]
  simp only [faults, Option.bind_none]

/-- With the directory mapped, a lookup reads the entry of the table that
covers the address, if there is one. -/
theorem isPresent_of_reached_directory (installed : Installed guard directory tables machine)
    (reached : Reached guard (tables.length * bytesPerDirectoryEntry) directory) {virt : Nat}
    (fits : virt < 2 ^ 32) :
    machine.isPresent virt =
      match tables[virt / bytesPerDirectoryEntry]? with
      | none => some false
      | some table =>
          (machine.readEntry table (virt % bytesPerDirectoryEntry / frameSize)).map
            (fun entry => decide (entry &&& present ≠ 0)) := by
  have atDirectory := installed.inMemory directory List.mem_cons_self
  have inRange := directoryIndex_lt fits
  have reads := (installed.readEntry_cases atDirectory.2 inRange).1 reached
  rw [Machine.isPresent, if_neg installed.cr3_ne_zero, installed.root, Frame.containing_startAddress]
  simp only [reads, Option.bind_some]
  cases isTable : tables[virt / bytesPerDirectoryEntry]? with
  | none =>
      have blank := installed.built.blank _ (List.getElem?_eq_none_iff.mp isTable) inRange
      rw [blank]
      rfl
  | some table =>
      have named := installed.built.named _ _ isTable
      have small := entryAt_lt machine.memory directory.startAddress (virt / bytesPerDirectoryEntry)
      rw [named] at small
      have isPresent : (table.startAddress + 3) &&& present ≠ 0 :=
        (flags_of_present table.startAddress_aligned).1
      have cleared : andNot 32 (table.startAddress + 3) (frameSize - 1) = table.startAddress :=
        andNot_flags table.startAddress_aligned (by decide) small
      rw [named, if_neg isPresent, cleared, Frame.containing_startAddress]

theorem reached_of_isPresent_isSome (installed : Installed guard directory tables machine)
    (few : tables.length ≤ 1024)
    (answers : forall virt, virt < 2 ^ 32 -> (machine.isPresent virt).isSome = true) (frame : Frame)
    (member : frame ∈ directory :: tables) :
    Reached guard (tables.length * bytesPerDirectoryEntry) frame := by
  have directoryReached : Reached guard (tables.length * bytesPerDirectoryEntry) directory := by
    by_contra unreached
    have answer := answers 0 (by decide)
    rw [installed.isPresent_of_unreached_directory unreached (by decide)] at answer
    cases answer
  rcases List.mem_cons.mp member with rfl | isTable
  · exact directoryReached
  · by_contra unreached
    rcases List.getElem?_of_mem isTable with ⟨index, atIndex⟩
    have bound := (List.getElem?_eq_some_iff.mp atIndex).1
    have fits : index * bytesPerDirectoryEntry < 2 ^ 32 := by
      unfold bytesPerDirectoryEntry frameSize entries
      omega
    have covers : index * bytesPerDirectoryEntry / bytesPerDirectoryEntry = index :=
      Nat.mul_div_cancel _ (by decide)
    have answer := answers _ fits
    have faults := (installed.readEntry_cases (installed.inMemory frame member).2
      (show index * bytesPerDirectoryEntry % bytesPerDirectoryEntry / frameSize < 1024 by
        rw [Nat.mul_mod_left]; decide)).2 unreached
    rw [installed.isPresent_of_reached_directory directoryReached fits, covers, atIndex] at answer
    simp only [faults, Option.map_none] at answer
    cases answer

/-- With the directory and all tables mapped, the lookup agrees with the walk. -/
theorem isPresent_eq_walk (installed : Installed guard directory tables machine)
    (reached : forall frame, frame ∈ directory :: tables ->
      Reached guard (tables.length * bytesPerDirectoryEntry) frame) {virt : Nat}
    (fits : virt < 2 ^ 32) : machine.isPresent virt = some (machine.walk virt).isSome := by
  have inTable : virt % bytesPerDirectoryEntry / frameSize < 1024 := by
    unfold bytesPerDirectoryEntry frameSize entries
    omega
  have page : virt / bytesPerDirectoryEntry * bytesPerDirectoryEntry +
      virt % bytesPerDirectoryEntry / frameSize * frameSize = virt / frameSize * frameSize := by
    unfold bytesPerDirectoryEntry frameSize entries
    omega
  have window : virt < tables.length * bytesPerDirectoryEntry ↔
      virt / bytesPerDirectoryEntry < tables.length := by
    unfold bytesPerDirectoryEntry frameSize entries
    omega
  rw [installed.isPresent_of_reached_directory (reached directory List.mem_cons_self) fits,
    installed.walk_eq fits]
  cases isTable : tables[virt / bytesPerDirectoryEntry]? with
  | none =>
      have beyond := List.getElem?_eq_none_iff.mp isTable
      rw [if_neg (fun both => Nat.not_lt_of_le beyond (window.mp both.1))]
      rfl
  | some table =>
      have below := (List.getElem?_eq_some_iff.mp isTable).1
      have member := List.mem_cons_of_mem directory (List.mem_of_getElem? isTable)
      have reads := (installed.readEntry_cases (installed.inMemory table member).2 inTable).1
        (reached table member)
      have mapped := installed.built.mapped _ _ isTable _ inTable
      rw [page] at mapped
      simp only [reads, Option.map_some]
      by_cases isGuard : virt / frameSize * frameSize = guard
      · rw [mapped, if_pos isGuard, if_neg (fun both => both.2 isGuard)]
        rfl
      · have flags := flags_of_present (Nat.dvd_mul_left pageBytes (virt / frameSize))
        rw [mapped, if_neg isGuard, if_pos ⟨window.mpr below, isGuard⟩]
        exact congrArg some (decide_eq_true flags.1)

/-- The two readers agree on every address exactly if the map reaches the
directory and all tables. -/
theorem isPresent_agrees_iff (installed : Installed guard directory tables machine)
    (few : tables.length ≤ 1024) :
    (forall virt, virt < 2 ^ 32 -> machine.isPresent virt = some (machine.walk virt).isSome) ↔
      forall frame, frame ∈ directory :: tables ->
        Reached guard (tables.length * bytesPerDirectoryEntry) frame := by
  constructor
  · intro agrees
    apply installed.reached_of_isPresent_isSome few
    intro virt fits
    rw [agrees virt fits]
    rfl
  · intro reached virt fits
    exact installed.isPresent_eq_walk reached fits

end Installed

/-! ## The whole setup -/

/-- A machine at the time of the call: the pool as it stands, and any contents
of memory and registers. -/
def Machine.onPool (world : FrameWorld) (cr0 cr3 mainTssCr3 doubleFaultTssCr3 : Nat) : Machine where
  allocator := world.allocator
  memory := world.memory
  cr0 := cr0
  cr3 := cr3
  mainTssCr3 := mainTssCr3
  doubleFaultTssCr3 := doubleFaultTssCr3

theorem pagingIsEnabled_enable (machine : Machine) (root : Nat) :
    (machine.enable root).pagingIsEnabled = true := by
  have bit : (machine.cr0 ||| cr0Pg) &&& cr0Pg = cr0Pg := by
    apply Nat.eq_of_testBit_eq
    intro index
    rw [Nat.testBit_and, Nat.testBit_or]
    cases cr0Pg.testBit index with
    | false => rw [Bool.and_false]
    | true => rw [Bool.or_true, Bool.and_self]
  rw [Machine.pagingIsEnabled, Machine.enable]
  simp only [bit]
  decide

theorem managed_bounds {image : KernelImage} {allocator : FrameAllocator}
    (reservations : allocator.reservations = image.reservations) {index : Nat}
    (managed : allocator.Managed index) : index ≠ 0 ∧ index < 2 ^ 20 := by
  refine ⟨?_, managed.lt⟩
  rintro rfl
  have free := managed.2
  rw [FrameAllocator.isReserved, reservations, List.any_eq_false] at free
  have reserved : (⟨FrameRange.covering 0 biosLowMemoryEnd,
      "IVT, BIOS data area, E820 handoff block"⟩ : Reservation) ∈ image.reservations :=
    List.mem_cons_self
  exact free _ reserved (by decide)

/-- What `init` comes to when every frame was there: complete tables on these
frames, in force, with the rest of memory as it was.  The report is missing if the
lookup of the guard page faults. -/
structure InitDone (map : MemoryMap) (guard : Nat) (frames : List Frame) (before after : Machine)
    (report : Option Report) : Prop where
  installed : Exists fun directory => Exists fun tables => frames = directory :: tables ∧
    tables.length * bytesPerDirectoryEntry = identityMapEnd map ∧ tables.length ≤ 1024 ∧
    Installed guard directory tables after
  distinct : frames.Nodup
  outside : forall address, (forall frame, frame ∈ frames -> address / frameSize ≠ frame.index) ->
    after.memory address = before.memory address
  reported : report.isSome = (after.isPresent guard).isSome

theorem init_outcome {image : KernelImage} {map : MemoryMap} (disjoint : map.FramesDisjoint)
    {memory : ByteMemory} {events : List FrameEvent} {world : FrameWorld}
    (run : Run FrameStep (FrameWorld.init image map memory) events world)
    (cr0 cr3 mainTssCr3 doubleFaultTssCr3 guard : Nat) (nonzero : identityMapEnd map ≠ 0) :
    let machine := Machine.onPool world cr0 cr3 mainTssCr3 doubleFaultTssCr3
    match nextFrames world.memory (identityMapEnd map / bytesPerDirectoryEntry + 1)
      world.allocator with
    | none => (machine.init map guard).2.registers = machine.registers
    | some frames => InitDone map guard frames machine (machine.init map guard).2
        (machine.init map guard).1 := by
  intro machine
  rcases frameRun_sound disjoint run with ⟨⟨nodes, invariant⟩, _, reservations⟩
  have bounds := identityMapEnd_bounds nonzero
  have start : Tracks world machine := ⟨rfl, fun _ _ => rfl⟩
  rw [nextFrames, Machine.init, if_neg nonzero]
  rcases allocateZeroedFrame_cases invariant start with
    ⟨next, answer, zeroed⟩ | ⟨directory, next, answer, granted, zeroed⟩
  · rw [answer, zeroed]
    rfl
  · have building : Building guard directory []
        (world.grant next (grantedFrames 1 (some directory))) { machine with
          allocator := next
          memory := machine.memory.fill directory.startAddress frameSize 0 } := by
      refine ⟨granted.sound, ?_, Built.empty, List.nodup_singleton _, ?_⟩
      · apply start.grant
        intro address unheld
        apply fill_frame_outside
        intro same
        exact unheld (same ▸ granted.holds)
      · intro frame member
        rw [List.mem_singleton.mp member]
        exact granted.holds
    have few : identityMapEnd map / bytesPerDirectoryEntry ≤ 1024 := by
      unfold bytesPerDirectoryEntry frameSize entries at *
      omega
    have loop := buildTables_spec guard directory
      (identityMapEnd map / bytesPerDirectoryEntry) building (by simpa using few)
    simp only [FrameWorld.grant, List.length_nil, ← List.range_eq_range'] at loop
    rw [answer, zeroed]
    simp only
    cases more : nextFrames world.memory (identityMapEnd map / bytesPerDirectoryEntry) next with
    | none =>
        rw [more] at loop
        rcases loop with ⟨after, equal, registers⟩
        simp only [Option.map_none, equal]
        exact registers
    | some tables =>
        rw [more] at loop
        rcases loop with ⟨after, equal, added⟩
        simp only [Option.map_some, equal]
        have length := nextFrames_length more
        constructor
        · refine ⟨directory, tables, rfl, ?_, by omega, ?_⟩
          · rw [length]
            exact Nat.div_mul_cancel bounds.1
          · refine ⟨added.built, rfl, pagingIsEnabled_enable _ _, ?_⟩
            intro frame member
            apply managed_bounds reservations
            rcases List.mem_cons.mp member with rfl | isTable
            · exact granted.managed
            · exact (granted.sameManaged _).mp (added.managed frame isTable)
        · exact added.distinct
        · intro address away
          have kept : after.memory address =
              machine.memory.fill directory.startAddress frameSize 0 address :=
            added.outside address away
          exact kept.trans (fill_frame_outside (away directory List.mem_cons_self))
        · rw [Option.isSome_map]

/-- An identity map with one hole, made of the given frames: the directory first
and then its tables. -/
structure IdentityWithHole (guard mappedEnd : Nat) (frames : List Frame) (before after : Machine) :
    Prop where
  identity : forall virt, virt < mappedEnd -> virt / frameSize * frameSize ≠ guard ->
    after.walk virt = some ⟨virt, true⟩
  hole : forall virt, virt < 2 ^ 32 -> virt / frameSize * frameSize = guard ->
    after.walk virt = none
  above : forall virt, mappedEnd ≤ virt -> virt < 2 ^ 32 -> after.walk virt = none
  lookup : forall virt, virt < 2 ^ 32 -> after.isPresent virt = some (after.walk virt).isSome
  parts : Exists fun directory => Exists fun tables => frames = directory :: tables ∧
    after.cr3 = directory.startAddress ∧
    forall index table, tables[index]? = some table ->
      entryAt after.memory after.cr3 index = table.startAddress + 3
  distinct : frames.Nodup
  outside : forall address, (forall frame, frame ∈ frames -> address / frameSize ≠ frame.index) ->
    after.memory address = before.memory address

/-- What `init` is to achieve.  With no window it does nothing; if a frame is
missing the registers stay as they were; otherwise the identity map is in force. -/
def InitCorrect (map : MemoryMap) (guard : Nat) (machine : Machine) : Prop :=
  if identityMapEnd map = 0 then (machine.init map guard).2 = machine
  else
    match nextFrames machine.memory (identityMapEnd map / bytesPerDirectoryEntry + 1)
      machine.allocator with
    | none => (machine.init map guard).2.registers = machine.registers
    | some frames =>
        IdentityWithHole guard (identityMapEnd map) frames machine (machine.init map guard).2

/-- The directory and the tables take one frame each from the front of the line.
If there are that many, the window reaches all of them. -/
def TablesReached (map : MemoryMap) (guard : Nat) (machine : Machine) : Prop :=
  let frameCount := identityMapEnd map / bytesPerDirectoryEntry + 1
  identityMapEnd map ≠ 0 -> frameCount ≤ (inLine machine.memory machine.allocator).length ->
    forall frame, frame ∈ (inLine machine.memory machine.allocator).take frameCount ->
      Reached guard (identityMapEnd map) frame

/-- `init` installs an identity map with one hole exactly when the frames at the
front of the line are inside the window and outside the hole.  Everything but
the lookup by `isPresent` holds in any case. -/
theorem init_maps_identity_iff (image : KernelImage) (map : MemoryMap)
    (disjoint : map.FramesDisjoint) (memory : ByteMemory) {events : List FrameEvent}
    {world : FrameWorld} (run : Run FrameStep (FrameWorld.init image map memory) events world)
    (cr0 cr3 mainTssCr3 doubleFaultTssCr3 guard : Nat) :
    InitCorrect map guard (Machine.onPool world cr0 cr3 mainTssCr3 doubleFaultTssCr3) ↔
      TablesReached map guard (Machine.onPool world cr0 cr3 mainTssCr3 doubleFaultTssCr3) := by
  unfold InitCorrect TablesReached
  by_cases noWindow : identityMapEnd map = 0
  · rw [if_pos noWindow, Machine.init, if_pos noWindow]
    exact ⟨fun _ window => absurd noWindow window, fun _ => rfl⟩
  · have outcome := init_outcome disjoint run cr0 cr3 mainTssCr3 doubleFaultTssCr3 guard noWindow
    rcases frameRun_sound disjoint run with ⟨⟨nodes, invariant⟩, _, _⟩
    have line := nextFrames_eq invariant (identityMapEnd map / bytesPerDirectoryEntry + 1)
    simp only [Machine.onPool] at outcome ⊢
    rw [if_neg noWindow]
    by_cases enough : identityMapEnd map / bytesPerDirectoryEntry + 1 ≤
        (inLine world.memory world.allocator).length
    · rw [if_pos enough] at line
      rw [line] at outcome ⊢
      rcases outcome.installed with ⟨directory, tables, same, length, few, installed⟩
      have agrees := installed.isPresent_agrees_iff few
      rw [length, ← same] at agrees
      constructor
      · intro identity _ _
        exact agrees.mp identity.lookup
      · intro reached
        constructor
        · intro virt below notGuard
          have bounds := identityMapEnd_bounds noWindow
          rw [installed.walk_eq (by omega), length, if_pos ⟨below, notGuard⟩]
        · intro virt fits inGuard
          rw [installed.walk_eq fits, if_neg (fun both => both.2 inGuard)]
        · intro virt beyond fits
          rw [installed.walk_eq fits, length,
            if_neg (fun both => Nat.not_lt_of_le beyond both.1)]
        · exact agrees.mpr (reached noWindow enough)
        · refine ⟨directory, tables, same, installed.root, ?_⟩
          intro index table isTable
          rw [installed.root]
          exact installed.built.named index table isTable
        · exact outcome.distinct
        · exact outcome.outside
    · rw [if_neg enough] at line
      rw [line] at outcome ⊢
      exact ⟨fun _ _ few => absurd few enough, fun _ => outcome⟩

/-- A machine with one usable region. -/
def oneRegion (base length : UInt64) : MemoryMap where
  regions := [⟨base, length, .usable⟩]
  reported := 1
  available := true
  withinCapacity := show 1 ≤ maxEntries by decide

theorem oneRegion_framesDisjoint (base length : UInt64) : (oneRegion base length).FramesDisjoint :=
  List.pairwise_singleton _ _

theorem init_maps_identity_low :
    let machine := Machine.onPool
      (FrameWorld.init smallImage (oneRegion 0x100000 0x700000) (fun _ => 0)) 0x11 0 0 0
    (inLine machine.memory machine.allocator).take 3 = [⟨0x100⟩, ⟨0x101⟩, ⟨0x102⟩] ∧
      InitCorrect (oneRegion 0x100000 0x700000) 0x1f000 machine := by
  intro machine
  have window : identityMapEnd (oneRegion 0x100000 0x700000) = 0x800000 := by decide +kernel
  have front : (inLine machine.memory machine.allocator).take 3 =
      [⟨0x100⟩, ⟨0x101⟩, ⟨0x102⟩] := by decide +kernel
  have all : forall frame, frame ∈ [(⟨0x100⟩ : Frame), ⟨0x101⟩, ⟨0x102⟩] ->
      frame.startAddress < 0x800000 ∧ frame.startAddress ≠ 0x1f000 := by decide
  refine ⟨front, (init_maps_identity_iff smallImage _ (oneRegion_framesDisjoint _ _) (fun _ => 0)
    Run.nil 0x11 0 0 0 0x1f000).mpr ?_⟩
  intro _ _ frame member
  have three : identityMapEnd (oneRegion 0x100000 0x700000) / bytesPerDirectoryEntry + 1 = 3 := by
    rw [window]
    decide
  rw [three] at member
  rw [window]
  exact all frame (front ▸ member)

/-- If the directory itself is not mapped, the lookup of the guard page at the
end of `init` runs into a page fault. -/
theorem init_faults_of_unreached_directory {image : KernelImage} {map : MemoryMap}
    (disjoint : map.FramesDisjoint) {memory : ByteMemory} {events : List FrameEvent}
    {world : FrameWorld} (run : Run FrameStep (FrameWorld.init image map memory) events world)
    (cr0 cr3 mainTssCr3 doubleFaultTssCr3 : Nat) {guard : Nat} (fits : guard < 2 ^ 32)
    (nonzero : identityMapEnd map ≠ 0) {directory : Frame} {tables : List Frame}
    (found : nextFrames world.memory (identityMapEnd map / bytesPerDirectoryEntry + 1)
      world.allocator = some (directory :: tables))
    (unreached : ¬ Reached guard (identityMapEnd map) directory) :
    let machine := Machine.onPool world cr0 cr3 mainTssCr3 doubleFaultTssCr3
    (machine.init map guard).1 = none ∧ ¬ InitCorrect map guard machine := by
  intro machine
  have outcome := init_outcome disjoint run cr0 cr3 mainTssCr3 doubleFaultTssCr3 guard nonzero
  simp only [found] at outcome
  rcases outcome.installed with ⟨_, _, same, length, _, installed⟩
  cases same
  rw [← length] at unreached
  constructor
  · have reported := outcome.reported
    rw [installed.isPresent_of_unreached_directory unreached fits] at reported
    exact Option.not_isSome_iff_eq_none.mp (Bool.eq_false_iff.mp reported)
  · intro correct
    simp only [InitCorrect, if_neg nonzero] at correct
    rw [show nextFrames machine.memory (identityMapEnd map / bytesPerDirectoryEntry + 1)
      machine.allocator = some (directory :: tables) from found] at correct
    have agrees := correct.lookup guard fits
    rw [installed.isPresent_of_unreached_directory unreached fits] at agrees
    cases agrees

/-- With all usable memory in the last 4 MiB below 4 GiB there are enough frames,
but the directory lies outside the window. -/
theorem init_faults_on_own_directory :
    let machine := Machine.onPool
      (FrameWorld.init smallImage (oneRegion 0xffc00000 0x400000) (fun _ => 0)) 0x11 0 0 0
    (nextFrames machine.memory 1024 machine.allocator).map List.head? = some (some ⟨0xffc00⟩) ∧
      identityMapEnd (oneRegion 0xffc00000 0x400000) = 0xffc00000 ∧
      (machine.init (oneRegion 0xffc00000 0x400000) 0x1f000).1 = none ∧
      ¬ InitCorrect (oneRegion 0xffc00000 0x400000) 0x1f000 machine := by
  intro machine
  have window : identityMapEnd (oneRegion 0xffc00000 0x400000) = 0xffc00000 := by decide +kernel
  have line : 1024 ≤ (inLine machine.memory machine.allocator).length ∧
      (inLine machine.memory machine.allocator).head? = some ⟨0xffc00⟩ := by decide +kernel
  have found : (nextFrames machine.memory 1024 machine.allocator).map List.head? =
      some (some ⟨0xffc00⟩) := by
    have start := FrameWorld.init_invariant smallImage (oneRegion_framesDisjoint 0xffc00000 0x400000)
      (fun _ => 0)
    have next : nextFrames machine.memory 1024 machine.allocator =
        if 1024 ≤ (inLine machine.memory machine.allocator).length then
          some ((inLine machine.memory machine.allocator).take 1024)
        else none := nextFrames_eq start 1024
    rw [next, if_pos line.1, Option.map_some, List.head?_take, if_neg (by decide)]
    exact congrArg some line.2
  have nonzero : identityMapEnd (oneRegion 0xffc00000 0x400000) ≠ 0 := by
    rw [window]
    decide
  have count : identityMapEnd (oneRegion 0xffc00000 0x400000) / bytesPerDirectoryEntry + 1 =
      1024 := by
    rw [window]
    decide
  refine ⟨found, window, ?_⟩
  rcases Option.map_eq_some_iff.mp found with ⟨frames, answer, first⟩
  rcases List.head?_eq_some_iff.mp first with ⟨tables, rfl⟩
  refine init_faults_of_unreached_directory (oneRegion_framesDisjoint _ _) Run.nil 0x11 0 0 0
    (by decide) nonzero (by rw [count]; exact answer) ?_
  rw [window]
  exact fun reached => absurd reached.1 (by decide)

end Paging
end Memory
end Goatos
