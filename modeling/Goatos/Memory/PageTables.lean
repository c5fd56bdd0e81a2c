import Goatos.Memory.FrameOwnership
import Goatos.Memory.IdentityWindow

namespace Goatos
namespace Memory
namespace Paging

open Library

/-!
# The tables that `init` builds

The first part is about the entries that the two loops write: which words the
directory and the tables hold after any number of passes.  The second part is
about the frames they are made of, which come from the pool one by one, are
distinct because each is held from then on, and need not be clean because each
is zeroed first.
-/

theorem or_kernelPage {base : Nat} (aligned : 4096 ∣ base) : base ||| kernelPage = base + 3 :=
  @or_eq_add base 3 12 aligned (by decide)

section Entries

variable {memory memory' : ByteMemory} {table : Frame} {index value : Nat}

theorem entryAt_congr (inRange : index < 1024)
    (agree : forall address, address / frameSize = table.index ->
      memory' address = memory address) :
    entryAt memory' table.startAddress index = entryAt memory table.startAddress index := by
  apply ByteMemory.load_congr
  intro address member
  have bounds := ByteMemory.mem_extent.mp member
  rw [Frame.startAddress_eq] at bounds
  apply agree
  unfold frameSize
  omega

theorem writeEntry_outside (inRange : index < 1024) {address : Nat}
    (outside : address / frameSize ≠ table.index) :
    writeEntry memory table index value address = memory address := by
  apply ByteMemory.store_outside
  rw [Frame.startAddress_eq]
  unfold frameSize at outside
  omega

theorem entryAt_writeEntry_same (fits : value < 2 ^ 32) :
    entryAt (writeEntry memory table index value) table.startAddress index = value :=
  ByteMemory.load_store_of_lt memory fits

theorem entryAt_writeEntry_other {other : Nat} (different : other ≠ index) :
    entryAt (writeEntry memory table index value) table.startAddress other =
      entryAt memory table.startAddress other :=
  ByteMemory.load_store_of_disjoint memory (by omega)

theorem entryAt_fill_zero (inRange : index < 1024) :
    entryAt (memory.fill table.startAddress frameSize 0) table.startAddress index = 0 := by
  apply ByteMemory.load_eq_zero
  intro address member
  have bounds := ByteMemory.mem_extent.mp member
  apply ByteMemory.fill_inside
  unfold frameSize
  omega

theorem fill_frame_outside {address : Nat} (outside : address / frameSize ≠ table.index) :
    memory.fill table.startAddress frameSize 0 address = memory address := by
  apply ByteMemory.fill_outside
  rw [Frame.startAddress_eq]
  unfold frameSize at *
  omega

/-- The inner loop writes only into its table, one entry for every page but the
guard. -/
theorem fillTable_spec {base guard count : Nat} (few : count ≤ 1024) (aligned : 4096 ∣ base)
    (fits : base + 1024 * 4096 ≤ 2 ^ 32) :
    (forall address, address / frameSize ≠ table.index ->
      fillTable memory table base guard count address = memory address) ∧
    forall page, page < 1024 ->
      entryAt (fillTable memory table base guard count) table.startAddress page =
        if page < count ∧ base + page * frameSize ≠ guard then base + page * frameSize + 3
        else entryAt memory table.startAddress page := by
  induction count with
  | zero =>
      refine ⟨fun _ _ => rfl, ?_⟩
      intro page _
      rw [if_neg (fun both => Nat.not_lt_zero _ both.1)]
      rfl
  | succ count inductionHypothesis =>
      rcases inductionHypothesis (Nat.le_of_succ_le few) with ⟨outside, inside⟩
      have unfolded : fillTable memory table base guard (count + 1) =
          if base + count * frameSize = guard then fillTable memory table base guard count
          else writeEntry (fillTable memory table base guard count) table count
            ((base + count * frameSize) ||| kernelPage) := by
        rw [fillTable, List.range_succ, List.foldl_append]
        rfl
      rw [unfolded]
      split
      · rename_i isGuard
        refine ⟨outside, ?_⟩
        intro page inRange
        rw [inside page inRange]
        refine if_congr ?_ rfl rfl
        constructor
        · rintro ⟨early, away⟩
          exact ⟨Nat.lt_succ_of_lt early, away⟩
        · rintro ⟨early, away⟩
          refine ⟨Nat.lt_of_le_of_ne (Nat.le_of_lt_succ early) ?_, away⟩
          rintro rfl
          exact away isGuard
      · rename_i notGuard
        constructor
        · intro address away
          rw [writeEntry_outside few away, outside address away]
        · intro page inRange
          have pageAligned : 4096 ∣ base + count * frameSize :=
            Nat.dvd_add aligned (Nat.dvd_mul_left _ _)
          by_cases last : page = count
          · subst last
            rw [or_kernelPage pageAligned, entryAt_writeEntry_same (by unfold frameSize; omega),
              if_pos ⟨Nat.lt_succ_self _, notGuard⟩]
          · rw [entryAt_writeEntry_other last, inside page inRange]
            refine if_congr ?_ rfl rfl
            exact and_congr_left' (by omega)

end Entries

/-- The directory names the given tables in order and nothing else, and each of
them maps its stretch of addresses onto itself, except for the guard page. -/
structure Built (guard : Nat) (directory : Frame) (tables : List Frame) (memory : ByteMemory) :
    Prop where
  named : forall index table, tables[index]? = some table ->
    entryAt memory directory.startAddress index = table.startAddress + 3
  blank : forall index, tables.length ≤ index -> index < 1024 ->
    entryAt memory directory.startAddress index = 0
  mapped : forall index table, tables[index]? = some table -> forall page, page < 1024 ->
    entryAt memory table.startAddress page =
      if index * bytesPerDirectoryEntry + page * frameSize = guard then 0
      else index * bytesPerDirectoryEntry + page * frameSize + 3

namespace Built

variable {guard : Nat} {directory : Frame} {tables : List Frame} {memory : ByteMemory}

theorem empty : Built guard directory [] (memory.fill directory.startAddress frameSize 0) where
  named := by
    intro index table impossible
    cases impossible
  blank := by
    intro index _ inRange
    exact entryAt_fill_zero inRange
  mapped := by
    intro index table impossible
    cases impossible

/-- The memory after a table was zeroed, filled and named in the directory. -/
def withTable (guard : Nat) (directory table : Frame) (index : Nat) (memory : ByteMemory) :
    ByteMemory :=
  writeEntry (fillTable (memory.fill table.startAddress frameSize 0) table
    (index * bytesPerDirectoryEntry) guard entries) directory index
    (table.startAddress ||| kernelPage)

private theorem stretch_bounds {index : Nat} (few : index < 1024) :
    4096 ∣ index * bytesPerDirectoryEntry ∧
      index * bytesPerDirectoryEntry + 1024 * 4096 ≤ 2 ^ 32 := by
  unfold bytesPerDirectoryEntry frameSize entries
  omega

private theorem filled_spec {table : Frame} {index : Nat} (few : index < 1024) :
    (forall address, address / frameSize ≠ table.index ->
      fillTable (memory.fill table.startAddress frameSize 0) table
        (index * bytesPerDirectoryEntry) guard entries address = memory address) ∧
    forall page, page < 1024 ->
      entryAt (fillTable (memory.fill table.startAddress frameSize 0) table
        (index * bytesPerDirectoryEntry) guard entries) table.startAddress page =
        if index * bytesPerDirectoryEntry + page * frameSize = guard then 0
        else index * bytesPerDirectoryEntry + page * frameSize + 3 := by
  have bounds := stretch_bounds few
  have filled := @fillTable_spec (memory.fill table.startAddress frameSize 0) table
    (index * bytesPerDirectoryEntry) guard entries (Nat.le_refl _) bounds.1 bounds.2
  constructor
  · intro address away
    rw [filled.1 address away, fill_frame_outside away]
  · intro page inRange
    rw [filled.2 page inRange, entryAt_fill_zero inRange]
    by_cases isGuard : index * bytesPerDirectoryEntry + page * frameSize = guard
    · rw [if_neg (fun both => both.2 isGuard), if_pos isGuard]
    · rw [if_pos ⟨inRange, isGuard⟩, if_neg isGuard]

private theorem table_cases {table named : Frame} {index : Nat}
    (isTable : (tables ++ [table])[index]? = some named) :
    (index < tables.length ∧ tables[index]? = some named) ∨
      (index = tables.length ∧ table = named) := by
  have bound := (List.getElem?_eq_some_iff.mp isTable).1
  rw [List.length_append, List.length_singleton] at bound
  by_cases early : index < tables.length
  · rw [List.getElem?_append_left early] at isTable
    exact Or.inl ⟨early, isTable⟩
  · have last : index = tables.length := by omega
    rw [last, List.getElem?_concat_length] at isTable
    exact Or.inr ⟨last, Option.some.inj isTable⟩

theorem withTable_outside {table : Frame} {index : Nat} (few : index < 1024) {address : Nat}
    (notDirectory : address / frameSize ≠ directory.index)
    (notTable : address / frameSize ≠ table.index) :
    withTable guard directory table index memory address = memory address := by
  rw [withTable, writeEntry_outside few notDirectory, (filled_spec few).1 address notTable]

/-- One more pass of the outer loop, on a frame that is not used yet. -/
theorem install (built : Built guard directory tables memory) {table : Frame}
    (few : tables.length < 1024) (small : table.index < 2 ^ 20)
    (fresh : table ∉ directory :: tables) (distinct : (directory :: tables).Nodup) :
    Built guard directory (tables ++ [table])
      (withTable guard directory table tables.length memory) := by
  have filled := @filled_spec guard memory table tables.length few
  have indexNe : forall {left right : Frame}, left ≠ right -> left.index ≠ right.index := by
    intro left right different same
    exact different (congrArg Frame.mk same)
  have notDirectory : directory ≠ table := fun same => fresh (same ▸ List.mem_cons_self)
  have directoryKept : forall index, index < 1024 -> index ≠ tables.length ->
      entryAt (withTable guard directory table tables.length memory) directory.startAddress index =
        entryAt memory directory.startAddress index := by
    intro index inRange different
    rw [withTable, entryAt_writeEntry_other different]
    apply entryAt_congr inRange
    intro address inDirectory
    have away : address / frameSize ≠ table.index := inDirectory ▸ indexNe notDirectory
    rw [filled.1 address away]
  have directoryEntry : entryAt (withTable guard directory table tables.length memory)
      directory.startAddress tables.length = table.startAddress + 3 := by
    rw [withTable, or_kernelPage (Frame.startAddress_aligned table)]
    apply entryAt_writeEntry_same
    rw [Frame.startAddress_eq]
    omega
  constructor
  · intro index named isTable
    rcases table_cases isTable with ⟨early, old⟩ | ⟨last, new⟩
    · rw [directoryKept index (by omega) (by omega)]
      exact built.named index named old
    · subst last new
      exact directoryEntry
  · intro index later inRange
    rw [List.length_append, List.length_singleton] at later
    rw [directoryKept index inRange (by omega)]
    exact built.blank index (by omega) inRange
  · intro index named isTable page inRange
    have notNamedDirectory : named ≠ directory := by
      rintro rfl
      rcases List.mem_append.mp (List.mem_of_getElem? isTable) with old | new
      · exact (List.nodup_cons.mp distinct).1 old
      · exact notDirectory (List.mem_singleton.mp new)
    have throughDirectory : entryAt (withTable guard directory table tables.length memory)
        named.startAddress page = entryAt (fillTable (memory.fill table.startAddress frameSize 0)
          table (tables.length * bytesPerDirectoryEntry) guard entries) named.startAddress page := by
      apply entryAt_congr inRange
      intro address inNamed
      exact writeEntry_outside few (inNamed ▸ indexNe notNamedDirectory)
    rw [throughDirectory]
    rcases table_cases isTable with ⟨early, old⟩ | ⟨last, new⟩
    · have notTable : named ≠ table := by
        rintro rfl
        exact fresh (List.mem_cons_of_mem _ (List.mem_of_getElem? old))
      rw [← built.mapped index named old page inRange]
      apply entryAt_congr inRange
      intro address inNamed
      exact filled.1 address (inNamed ▸ indexNe notTable)
    · subst last new
      exact filled.2 page inRange

end Built

/-! ## Frames from the pool -/

/-- The frames that the next calls of `allocate` answer with, if none fails. -/
def nextFrames (memory : ByteMemory) : Nat -> FrameAllocator -> Option (List Frame)
  | 0, _ => some []
  | count + 1, allocator =>
      match allocator.allocate memory with
      | (none, _) => none
      | (some frame, next) => (nextFrames memory count next).map (frame :: ·)

theorem nextFrames_length {memory : ByteMemory} {count : Nat} {allocator : FrameAllocator}
    {frames : List Frame} (found : nextFrames memory count allocator = some frames) :
    frames.length = count := by
  induction count generalizing allocator frames with
  | zero =>
      cases found
      rfl
  | succ count inductionHypothesis =>
      rw [nextFrames] at found
      split at found
      · cases found
      · rcases Option.map_eq_some_iff.mp found with ⟨rest, later, rfl⟩
        rw [List.length_cons, inductionHypothesis later]

/-- The machine works on the pool of a world, and has written only to frames
that are held there. -/
structure Tracks (world : FrameWorld) (machine : Machine) : Prop where
  pool : machine.allocator = world.allocator
  untouched : forall address, address / frameSize ∉ world.held ->
    machine.memory address = world.memory address

def Machine.registers (machine : Machine) : Nat × Nat × Nat × Nat :=
  (machine.cr0, machine.cr3, machine.mainTssCr3, machine.doubleFaultTssCr3)

/-- What it means that a frame came from the pool: it is managed and nobody held
it, and from then on it is held. -/
structure Granted (world : FrameWorld) (frame : Frame) (next : FrameAllocator) : Prop where
  managed : world.allocator.Managed frame.index
  unheld : frame.index ∉ world.held
  holds : frame.index ∈ (world.grant next (grantedFrames 1 (some frame))).held
  sound : Exists fun nodes =>
    FrameInvariant (world.grant next (grantedFrames 1 (some frame))) nodes
  sameManaged : forall index, next.Managed index ↔ world.allocator.Managed index

section Allocation

variable {world : FrameWorld} {machine : Machine} {nodes : List Nat}

theorem granted_of_allocate (invariant : FrameInvariant world nodes) {frame : Frame}
    {next : FrameAllocator}
    (answer : world.allocator.allocate world.memory = (some frame, next)) :
    Granted world frame next := by
  have taken := FrameStep.allocate answer
  have inGrant : frame.index ∈ grantedFrames 1 (some frame) := mem_grantedFrames_one.mpr rfl
  rcases invariant.granted_fresh taken inGrant with ⟨managed, unheld⟩
  rcases invariant.step taken with ⟨sound, regions, reservations⟩
  refine ⟨managed, unheld, Finset.mem_union_right _ inGrant, sound, ?_⟩
  intro index
  have sameRegions : next.regions = world.allocator.regions := regions
  have sameReservations : next.reservations = world.allocator.reservations := reservations
  rw [FrameAllocator.Managed, FrameAllocator.Managed, FrameAllocator.isReserved,
    FrameAllocator.isReserved, sameRegions, sameReservations]

theorem allocateZeroedFrame_cases (invariant : FrameInvariant world nodes)
    (tracks : Tracks world machine) :
    (Exists fun next => world.allocator.allocate world.memory = (none, next) ∧
      machine.allocateZeroedFrame = (none, { machine with allocator := next })) ∨
    Exists fun frame => Exists fun next =>
      world.allocator.allocate world.memory = (some frame, next) ∧
      Granted world frame next ∧
      machine.allocateZeroedFrame = (some frame, { machine with
        allocator := next
        memory := machine.memory.fill frame.startAddress frameSize 0 }) := by
  have same : machine.allocator.allocate machine.memory =
      world.allocator.allocate world.memory := by
    rw [tracks.pool]
    exact invariant.allocate_congr (fun address _ unheld => tracks.untouched address unheld)
  rw [Machine.allocateZeroedFrame, same]
  rcases answer : world.allocator.allocate world.memory with ⟨result, next⟩
  cases result with
  | none => exact Or.inl ⟨next, rfl, rfl⟩
  | some frame => exact Or.inr ⟨frame, next, rfl, granted_of_allocate invariant answer, rfl⟩

theorem Tracks.grant (tracks : Tracks world machine) {next : FrameAllocator} {taken : Finset Nat}
    {memory : ByteMemory}
    (outside : forall address, address / frameSize ∉ world.held ∪ taken ->
      memory address = machine.memory address) :
    Tracks (world.grant next taken) { machine with allocator := next, memory := memory } where
  pool := rfl
  untouched := by
    intro address unheld
    have notBefore : address / frameSize ∉ world.held :=
      fun held => unheld (Finset.mem_union_left _ held)
    exact (outside address unheld).trans (tracks.untouched address notBefore)

end Allocation

/-! ## The order in which frames come -/

/-- The frames on a chain of links of the given length. -/
def freeNodes (memory : ByteMemory) : (count head : Nat) -> List Nat
  | 0, _ => []
  | count + 1, head => head :: freeNodes memory count (nextFree memory head)

theorem freeNodes_eq {memory : ByteMemory} {head : Nat} {nodes : List Nat}
    (linked : Linked (nextFree memory) noFrame head nodes) :
    freeNodes memory nodes.length head = nodes := by
  induction nodes generalizing head with
  | nil => rfl
  | cons node rest inductionHypothesis =>
      have atHead : head = node := linked.1
      rw [List.length_cons, freeNodes, atHead, inductionHypothesis linked.2.2]

/-- The frames of the pool that are free, in the order in which `allocate` will
hand them out: the free list first, then the unreserved frames from the cursor
on. -/
def inLine (memory : ByteMemory) (allocator : FrameAllocator) : List Frame :=
  (freeNodes memory allocator.freeCount allocator.freeList ++
    allocator.pendingFrames.filter (fun index => !allocator.isReserved index)).map Frame.mk

section Order

variable {world : FrameWorld} {nodes : List Nat}

theorem inLine_eq (invariant : FrameInvariant world nodes) :
    inLine world.memory world.allocator = (nodes ++ world.allocator.pendingFrames.filter
      (fun index => !world.allocator.isReserved index)).map Frame.mk := by
  rw [inLine, invariant.counted, freeNodes_eq invariant.linked]

/-- `allocate` takes the first frame in line. -/
theorem allocate_inLine (invariant : FrameInvariant world nodes) :
    (inLine world.memory world.allocator = [] ∧
      (world.allocator.allocate world.memory).1 = none) ∨
    Exists fun frame => Exists fun next =>
      world.allocator.allocate world.memory = (some frame, next) ∧
      inLine world.memory world.allocator = frame :: inLine world.memory next := by
  cases nodes with
  | nil =>
      have atEnd : world.allocator.freeCount = 0 := invariant.counted
      rw [inLine_eq invariant, invariant.allocate_bump, List.nil_append]
      rcases world.allocator.bumpLoop_unreserved with
        ⟨region, frame, ⟨equal, none, _⟩ | ⟨index, equal, line⟩⟩
      · exact Or.inl ⟨congrArg (List.map Frame.mk) none, by rw [equal]⟩
      · refine Or.inr ⟨⟨index⟩, _, equal, ?_⟩
        simp only [inLine, FrameAllocator.moved, atEnd, freeNodes, List.nil_append]
        exact congrArg (List.map Frame.mk) line
  | cons head rest =>
      have popped := invariant.pop
      refine Or.inr ⟨⟨head⟩, _, invariant.allocate_listed, ?_⟩
      rw [inLine_eq invariant]
      exact congrArg (Frame.mk head :: ·) (inLine_eq popped).symm

/-- The next frames are the first ones in line, if there are enough. -/
theorem nextFrames_eq (invariant : FrameInvariant world nodes) (count : Nat) :
    nextFrames world.memory count world.allocator =
      if count ≤ (inLine world.memory world.allocator).length then
        some ((inLine world.memory world.allocator).take count)
      else none := by
  induction count generalizing world nodes with
  | zero =>
      rw [if_pos (Nat.zero_le _), List.take_zero]
      rfl
  | succ count inductionHypothesis =>
      rw [nextFrames]
      rcases allocate_inLine invariant with ⟨empty, answer⟩ | ⟨frame, next, answer, line⟩
      · rw [empty, if_neg (by simp)]
        split
        · rfl
        · rename_i equal
          rw [equal] at answer
          cases answer
      · rcases (granted_of_allocate invariant answer).sound with ⟨nodesNext, invariantNext⟩
        have rest : nextFrames world.memory count next =
            if count ≤ (inLine world.memory next).length then
              some ((inLine world.memory next).take count)
            else none := inductionHypothesis invariantNext
        rw [answer, line, List.length_cons, List.take_succ_cons]
        simp only [rest, Nat.add_le_add_iff_right]
        by_cases enough : count ≤ (inLine world.memory next).length
        · rw [if_pos enough, if_pos enough, Option.map_some]
        · rw [if_neg enough, if_neg enough, Option.map_none]

end Order

/-! ## The outer loop -/

/-- The invariant of the outer loop: the tables so far are complete, and all
frames in use are distinct and held. -/
structure Building (guard : Nat) (directory : Frame) (tables : List Frame) (world : FrameWorld)
    (machine : Machine) : Prop where
  sound : Exists fun nodes => FrameInvariant world nodes
  tracks : Tracks world machine
  built : Built guard directory tables machine.memory
  distinct : (directory :: tables).Nodup
  owned : forall frame, frame ∈ directory :: tables -> frame.index ∈ world.held

theorem Building.install {guard : Nat} {directory : Frame} {tables : List Frame}
    {world : FrameWorld} {machine : Machine} (building : Building guard directory tables world machine)
    (few : tables.length < 1024) {table : Frame} {next : FrameAllocator}
    (granted : Granted world table next) :
    Building guard directory (tables ++ [table])
      (world.grant next (grantedFrames 1 (some table))) { machine with
        allocator := next
        memory := Built.withTable guard directory table tables.length machine.memory } := by
  have fresh : table ∉ directory :: tables :=
    fun member => granted.unheld (building.owned table member)
  refine ⟨granted.sound, ?_, ?_, ?_, ?_⟩
  · apply building.tracks.grant
    intro address unheld
    apply Built.withTable_outside few
    · intro same
      exact unheld (Finset.mem_union_left _ (same ▸ building.owned directory List.mem_cons_self))
    · intro same
      exact unheld (same ▸ granted.holds)
  · exact building.built.install few granted.managed.lt fresh building.distinct
  · rw [← List.cons_append, List.nodup_append']
    refine ⟨building.distinct, List.nodup_singleton _, ?_⟩
    intro frame old new
    exact fresh (List.mem_singleton.mp new ▸ old)
  · intro frame member
    rw [← List.cons_append] at member
    rcases List.mem_append.mp member with old | new
    · exact Finset.mem_union_left _ (building.owned frame old)
    · rw [List.mem_singleton.mp new]
      exact granted.holds

/-- What a complete pass over the remaining directory entries leaves behind: one
more table for each of them, on distinct frames of the pool, and no change anywhere
else. -/
structure TablesAdded (guard : Nat) (directory : Frame) (tables more : List Frame)
    (world : FrameWorld) (before after : Machine) : Prop where
  registers : after.registers = before.registers
  built : Built guard directory (tables ++ more) after.memory
  distinct : (directory :: (tables ++ more)).Nodup
  managed : forall frame, frame ∈ more -> world.allocator.Managed frame.index
  outside : forall address,
    (forall frame, frame ∈ directory :: (tables ++ more) -> address / frameSize ≠ frame.index) ->
      after.memory address = before.memory address

/-- The outer loop gets its frames from the pool one by one.  If all are there
the directory is complete; otherwise it gives up without having touched the
registers. -/
theorem buildTables_spec (guard : Nat) (directory : Frame) (count : Nat) {world : FrameWorld}
    {machine : Machine} {tables : List Frame}
    (building : Building guard directory tables world machine)
    (few : tables.length + count ≤ 1024) :
    match nextFrames world.memory count world.allocator with
    | none => Exists fun after =>
        machine.buildTables guard directory (List.range' tables.length count) = (false, after) ∧
        after.registers = machine.registers
    | some more => Exists fun after =>
        machine.buildTables guard directory (List.range' tables.length count) = (true, after) ∧
        TablesAdded guard directory tables more world machine after := by
  induction count generalizing world machine tables with
  | zero =>
      refine ⟨machine, rfl, ⟨rfl, ?_, ?_, ?_, fun _ _ => rfl⟩⟩
      · rw [List.append_nil]
        exact building.built
      · rw [List.append_nil]
        exact building.distinct
      · intro frame impossible
        cases impossible
  | succ count inductionHypothesis =>
      rcases building.sound with ⟨nodes, invariant⟩
      rw [nextFrames, List.range'_succ, Machine.buildTables]
      rcases allocateZeroedFrame_cases invariant building.tracks with
        ⟨next, answer, zeroed⟩ | ⟨table, next, answer, granted, zeroed⟩
      · rw [answer, zeroed]
        exact ⟨_, rfl, rfl⟩
      · have early : tables.length < 1024 := by omega
        have lengthNext : (tables ++ [table]).length = tables.length + 1 := by
          rw [List.length_append, List.length_singleton]
        have rest := inductionHypothesis (building.install early granted)
          (by rw [lengthNext]; omega)
        rw [lengthNext] at rest
        simp only [FrameWorld.grant] at rest
        rw [answer, zeroed]
        cases more : nextFrames world.memory count next with
        | none =>
            rw [more] at rest
            simp only [more, Option.map_none]
            exact rest
        | some frames =>
            rw [more] at rest
            simp only [more, Option.map_some]
            rcases rest with ⟨after, equal, added⟩
            have regroup : tables ++ table :: frames = tables ++ [table] ++ frames :=
              List.append_cons _ _ _
            refine ⟨after, equal, ?_⟩
            constructor
            · exact added.registers
            · rw [regroup]
              exact added.built
            · rw [regroup]
              exact added.distinct
            · intro frame member
              rcases List.mem_cons.mp member with rfl | later
              · exact granted.managed
              · exact (granted.sameManaged _).mp (added.managed frame later)
            · intro address away
              rw [regroup] at away
              rw [added.outside address away]
              apply Built.withTable_outside early
              · exact away directory List.mem_cons_self
              · exact away table (List.mem_cons_of_mem _ (List.mem_append_left _
                  (List.mem_append_right _ (List.mem_singleton.mpr rfl))))

end Paging
end Memory
end Goatos
