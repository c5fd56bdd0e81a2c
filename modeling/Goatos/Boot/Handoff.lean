import Goatos.Boot.DetectMemory
import Goatos.Memory.Map

namespace Goatos
namespace Boot

open Library
open Memory

/-!
# From the BIOS to the kernel's memory map

The boot sector writes the block that the kernel's `load` reads.  The two share
only its layout: the addresses, the entry size, and the meaning of the attribute
word, which the writer presets because older firmware leaves it alone.

A firmware serves a list of entries if a walk over it, each call continuing
where the last one said, meets exactly these and then ends.  The last call may
fail by carry or by a wrong signature and may leave anything in the buffer, or
the last entry may come with the continuation value zero.
-/

/-- An entry as a BIOS answers it.  Older firmware answers 20 bytes and has no
attributes; newer firmware answers 24. -/
structure Entry where
  base : UInt64
  length : UInt64
  kind : UInt32
  attributes : Option UInt32
  deriving DecidableEq, Repr

namespace Entry

def bytes (entry : Entry) : List UInt8 :=
  leBytes 8 entry.base.toNat ++ (leBytes 8 entry.length.toNat ++ (leBytes 4 entry.kind.toNat ++
    match entry.attributes with
    | none => []
    | some attributes => leBytes 4 attributes.toNat))

/-- The entry as the kernel is to find it.  A short one reads as valid, since the
writer has set its attribute word. -/
def raw (entry : Entry) : RawEntry where
  base := entry.base
  length := entry.length
  kind := entry.kind
  attributes := entry.attributes.getD 1

/-- Neither empty nor marked as one to ignore. -/
def counts (entry : Entry) : Bool :=
  entry.length ≠ 0 && entry.attributes.all (fun attributes => attributes &&& 1 ≠ 0)

def region (entry : Entry) : Region where
  base := entry.base
  length := entry.length
  kind := RegionKind.fromRaw entry.kind

theorem length_bytes_le (entry : Entry) : entry.bytes.length ≤ memmapEntrySize := by
  unfold bytes memmapEntrySize
  cases entry.attributes with
  | none => simp
  | some attributes => simp

end Entry

namespace Reply

/-- A successful call. -/
def Gives (reply : Reply) (entry : Entry) : Prop :=
  reply.carry = false ∧ reply.eax = smap ∧ reply.stored = entry.bytes

/-- A failed call, by the carry flag or by a wrong signature.  It may still have left
something in the buffer. -/
def Refuses (reply : Reply) : Prop :=
  (reply.carry = true ∨ reply.eax ≠ smap) ∧ reply.stored.length ≤ memmapEntrySize

end Reply

section Serving

variable {Hidden : Type} {int15 : Firmware Hidden}

/-- The entries that a walk from the given continuation value meets, each call
continuing where the last one said.  A walk ends at a call that is refused, or at an
entry that comes with the continuation value zero. -/
inductive Serves (int15 : Firmware Hidden) : Hidden -> UInt32 -> List Entry -> Prop
  | refused {hidden : Hidden} {continuation : UInt32} :
      (int15 hidden (queryMap continuation)).1.Refuses -> Serves int15 hidden continuation []
  | last {hidden : Hidden} {continuation : UInt32} {entry : Entry} :
      (int15 hidden (queryMap continuation)).1.Gives entry ->
      (int15 hidden (queryMap continuation)).1.ebx = 0 ->
      Serves int15 hidden continuation [entry]
  | more {hidden : Hidden} {continuation : UInt32} {entry : Entry} {rest : List Entry} :
      (int15 hidden (queryMap continuation)).1.Gives entry ->
      (int15 hidden (queryMap continuation)).1.ebx ≠ 0 ->
      Serves int15 (int15 hidden (queryMap continuation)).2
        (int15 hidden (queryMap continuation)).1.ebx rest ->
      Serves int15 hidden continuation (entry :: rest)

/-! ## One entry in memory -/

theorem readEntry_congr {left right : ByteMemory} {index : Nat}
    (agree : forall address, entryAddr index ≤ address -> address < entryAddr index + 24 ->
      left address = right address) : readEntry left index = readEntry right index := by
  have field : forall offset width, offset + width ≤ 24 ->
      left.load (entryAddr index + offset) width = right.load (entryAddr index + offset) width := by
    intro offset width inside
    apply ByteMemory.load_congr
    intro address member
    have bounds := ByteMemory.mem_extent.mp member
    exact agree address (by omega) (by omega)
  unfold readEntry
  rw [field 8 8 (by decide), field 16 4 (by decide), field 20 4 (by decide)]
  rw [← Nat.add_zero (entryAddr index), field 0 8 (by decide)]

theorem load_fields (memory : ByteMemory) (address : Nat) (base length : UInt64) (kind : UInt32) :
    let stored := ((memory.store address 8 base.toNat).store (address + 8) 8 length.toNat).store
      (address + 16) 4 kind.toNat
    stored.load address 8 = base.toNat ∧ stored.load (address + 8) 8 = length.toNat ∧
      stored.load (address + 16) 4 = kind.toNat ∧
      stored.load (address + 20) 4 = memory.load (address + 20) 4 := by
  have base_lt : base.toNat < 256 ^ 8 := base.toNat_lt
  have length_lt : length.toNat < 256 ^ 8 := length.toNat_lt
  have kind_lt : kind.toNat < 256 ^ 4 := kind.toNat_lt
  refine ⟨?_, ?_, ?_, ?_⟩
  · rw [ByteMemory.load_store_of_disjoint _ (by omega),
      ByteMemory.load_store_of_disjoint _ (by omega), ByteMemory.load_store_of_lt _ base_lt]
  · rw [ByteMemory.load_store_of_disjoint _ (by omega), ByteMemory.load_store_of_lt _ length_lt]
  · exact ByteMemory.load_store_of_lt _ kind_lt
  · rw [ByteMemory.load_store_of_disjoint _ (by omega),
      ByteMemory.load_store_of_disjoint _ (by omega), ByteMemory.load_store_of_disjoint _ (by omega)]

/-- The buffer after a successful call.  An answer of 24 bytes overwrites the
attribute word that was preset, one of 20 bytes leaves it. -/
theorem readEntry_stored (memory : ByteMemory) (index : Nat) (entry : Entry) :
    readEntry ((memory.store (entryAddr index + 20) 4 1).storeBytes (entryAddr index) entry.bytes)
      index = entry.raw := by
  rcases load_fields (memory.store (entryAddr index + 20) 4 1) (entryAddr index) entry.base
    entry.length entry.kind with ⟨base, length, kind, attributes⟩
  have preset : (memory.store (entryAddr index + 20) 4 1).load (entryAddr index + 20) 4 = 1 :=
    ByteMemory.load_store_of_lt _ (by decide)
  unfold Entry.bytes
  simp only [ByteMemory.storeBytes_append, ByteMemory.storeBytes_leBytes, length_leBytes,
    Nat.add_assoc, Nat.reduceAdd]
  cases given : entry.attributes with
  | none =>
      rw [readEntry, Entry.raw, given, ByteMemory.storeBytes_nil, base, length, kind, attributes,
        preset]
      simp
  | some word =>
      have word_lt : word.toNat < 256 ^ 4 := word.toNat_lt
      simp only [ByteMemory.storeBytes_leBytes]
      rw [readEntry, Entry.raw, given, ByteMemory.load_store_of_lt _ word_lt,
        ByteMemory.load_store_of_disjoint _ (by omega), base,
        ByteMemory.load_store_of_disjoint _ (by omega), length,
        ByteMemory.load_store_of_disjoint _ (by omega), kind]
      simp

/-! ## The loop -/

def Walk.accept (walk : Walk Hidden) (reply : Reply) (hidden : Hidden) : Walk Hidden where
  memory := (walk.memory.store ((walk.di + 20) % 2 ^ 16) 4 1).storeBytes walk.di reply.stored
  di := (walk.di + memmapEntrySize) % 2 ^ 16
  ebx := reply.ebx
  ebp := (walk.ebp + 1) % 2 ^ 32
  hidden := hidden

/-- A successful call stores its entry; the loop goes on if there is more to
come and room for it. -/
theorem nextEntry_gives {walk : Walk Hidden} {entry : Entry}
    (gives : (int15 walk.hidden (queryMap walk.ebx)).1.Gives entry) :
    nextEntry int15 walk =
      if (int15 walk.hidden (queryMap walk.ebx)).1.ebx = 0 then
        .leave (walk.accept (int15 walk.hidden (queryMap walk.ebx)).1
          (int15 walk.hidden (queryMap walk.ebx)).2)
      else if (walk.ebp + 1) % 2 ^ 32 < memmapMaxEntries then
        .again (walk.accept (int15 walk.hidden (queryMap walk.ebx)).1
          (int15 walk.hidden (queryMap walk.ebx)).2)
      else
        .leave (walk.accept (int15 walk.hidden (queryMap walk.ebx)).1
          (int15 walk.hidden (queryMap walk.ebx)).2) := by
  rcases gives with ⟨carry, signed, _⟩
  simp only [nextEntry, carry, signed, ne_eq, not_true_eq_false, if_false, Bool.false_eq_true]
  rfl

theorem nextEntry_refuses {walk : Walk Hidden}
    (refuses : (int15 walk.hidden (queryMap walk.ebx)).1.Refuses) :
    Exists fun final => nextEntry int15 walk = .leave final ∧ final.ebp = walk.ebp ∧
      final.memory = (walk.memory.store ((walk.di + 20) % 2 ^ 16) 4 1).storeBytes walk.di
        (int15 walk.hidden (queryMap walk.ebx)).1.stored := by
  unfold nextEntry
  simp only
  rcases refuses.1 with carry | unsigned
  · rw [if_pos carry]
    exact ⟨_, rfl, rfl, rfl⟩
  · split
    · exact ⟨_, rfl, rfl, rfl⟩
    · exact ⟨_, rfl, rfl, rfl⟩

/-- What the rest of a walk has done: the entries that found room are in their
places and counted, and nothing else was written. -/
structure Recorded (walk : Walk Hidden) (entries : List Entry) (final : Walk Hidden) : Prop where
  count : final.ebp = walk.ebp + (entries.take (memmapMaxEntries - walk.ebp)).length
  stored : forall index entry, (entries.take (memmapMaxEntries - walk.ebp))[index]? = some entry ->
    readEntry final.memory (walk.ebp + index) = entry.raw
  outside : forall address, address < entryAddr walk.ebp ∨ 0x808 ≤ address ->
    final.memory address = walk.memory address

structure Walk.Ready (walk : Walk Hidden) : Prop where
  room : walk.ebp < memmapMaxEntries
  place : walk.di = entryAddr walk.ebp

namespace Walk.Ready

variable {walk : Walk Hidden}

theorem buffer_outside (ready : walk.Ready) {stored : List UInt8}
    (short : stored.length ≤ memmapEntrySize) {address : Nat}
    (outside : address < entryAddr walk.ebp ∨ entryAddr (walk.ebp + 1) ≤ address) :
    (walk.memory.store ((walk.di + 20) % 2 ^ 16) 4 1).storeBytes walk.di stored address =
      walk.memory address := by
  have room := ready.room
  have place := ready.place
  unfold memmapEntrySize at short
  unfold memmapMaxEntries at room
  unfold entryAddr handoffAddr entriesOffset entrySize at *
  rw [ByteMemory.storeBytes_outside _ (by omega), ByteMemory.store_outside _ (by omega)]

theorem accept (ready : walk.Ready) {reply : Reply} {hidden : Hidden}
    (room : (walk.ebp + 1) % 2 ^ 32 < memmapMaxEntries) : (walk.accept reply hidden).Ready := by
  have before := ready.room
  have place := ready.place
  refine ⟨room, ?_⟩
  unfold Walk.accept memmapEntrySize memmapMaxEntries entryAddr handoffAddr entriesOffset entrySize at *
  simp only
  omega

theorem stored_accept (ready : walk.Ready) {entry : Entry} {reply : Reply} (hidden : Hidden)
    (gives : reply.Gives entry) :
    readEntry (walk.accept reply hidden).memory walk.ebp = entry.raw := by
  have room := ready.room
  have place := ready.place
  have flat : (walk.di + 20) % 2 ^ 16 = entryAddr walk.ebp + 20 := by
    unfold memmapMaxEntries at room
    unfold entryAddr handoffAddr entriesOffset entrySize at *
    omega
  rw [Walk.accept, flat, place, gives.2.2]
  exact readEntry_stored walk.memory walk.ebp entry

theorem ebp_accept (ready : walk.Ready) (reply : Reply) (hidden : Hidden) :
    (walk.accept reply hidden).ebp = walk.ebp + 1 := by
  have room := ready.room
  unfold memmapMaxEntries at room
  rw [Walk.accept]
  simp only
  omega

end Walk.Ready

namespace Recorded

variable {walk : Walk Hidden}

theorem refused (ready : walk.Ready) {final : Walk Hidden} {stored : List UInt8}
    (short : stored.length ≤ memmapEntrySize) (count : final.ebp = walk.ebp)
    (memory : final.memory = (walk.memory.store ((walk.di + 20) % 2 ^ 16) 4 1).storeBytes walk.di
      stored) : Recorded walk [] final := by
  have room := ready.room
  constructor
  · simp [count]
  · intro index entry impossible
    simp at impossible
  · intro address outside
    rw [memory]
    apply ready.buffer_outside short
    unfold memmapMaxEntries at room
    unfold entryAddr handoffAddr entriesOffset entrySize at *
    omega

theorem cons (ready : walk.Ready) {entry : Entry} {reply : Reply} {hidden : Hidden}
    (gives : reply.Gives entry) {rest : List Entry} {final : Walk Hidden}
    (recorded : Recorded (walk.accept reply hidden) rest final) :
    Recorded walk (entry :: rest) final := by
  have room := ready.room
  have next := ready.ebp_accept reply hidden
  have short : reply.stored.length ≤ memmapEntrySize := by
    rw [gives.2.2]
    exact entry.length_bytes_le
  have split : (entry :: rest).take (memmapMaxEntries - walk.ebp) =
      entry :: rest.take (memmapMaxEntries - (walk.accept reply hidden).ebp) := by
    have more : memmapMaxEntries - walk.ebp = memmapMaxEntries - (walk.ebp + 1) + 1 := by omega
    rw [next, more, List.take_succ_cons]
  have place : entryAddr walk.ebp + 24 = entryAddr (walk.ebp + 1) := by
    unfold entryAddr entrySize
    omega
  constructor
  · rw [split, List.length_cons, recorded.count, next]
    omega
  · intro index found isAt
    rw [split] at isAt
    cases index with
    | zero =>
        cases isAt
        rw [Nat.add_zero, ← ready.stored_accept hidden gives]
        apply readEntry_congr
        intro address _ inEntry
        apply recorded.outside
        rw [next]
        omega
    | succ index =>
        have earlier := recorded.stored index found isAt
        rwa [next, Nat.add_assoc, Nat.add_comm 1 index] at earlier
  · intro address outside
    have block : entryAddr (walk.ebp + 1) ≤ 0x808 := by
      unfold memmapMaxEntries at room
      unfold entryAddr handoffAddr entriesOffset entrySize
      omega
    rw [recorded.outside address (by rw [next]; omega)]
    exact ready.buffer_outside short (by omega)

/-- A walk that stops after a stored entry, because there was no more or because
the block is full. -/
theorem stopped (ready : walk.Ready) {reply : Reply} (hidden : Hidden) {rest : List Entry}
    (ended : rest = [] ∨ memmapMaxEntries ≤ walk.ebp + 1) :
    Recorded (walk.accept reply hidden) rest (walk.accept reply hidden) := by
  have none : rest.take (memmapMaxEntries - (walk.accept reply hidden).ebp) = [] := by
    rw [ready.ebp_accept]
    rcases ended with rfl | full
    · exact List.take_nil
    · rw [Nat.sub_eq_zero_of_le full, List.take_zero]
  constructor
  · rw [none, List.length_nil, Nat.add_zero]
  · intro index entry impossible
    rw [none] at impossible
    cases impossible
  · intro address _
    rfl

end Recorded

/-- The loop records what the firmware serves.  The loop rule is applied to walks
that stand where the next entry belongs, with whatever the firmware still has to
say. -/
theorem detectLoop_records (start : Walk Hidden) (ready : start.Ready) {entries : List Entry}
    (serves : Serves int15 start.hidden start.ebx entries) :
    Recorded start entries ((detectLoop int15).run start) := by
  refine (detectLoop int15).run_rule (fun walk final => walk.Ready -> forall entries,
    Serves int15 walk.hidden walk.ebx entries -> Recorded walk entries final) ?_ ?_ start ready
    entries serves
  · intro walk final pass ready entries serves
    have leave : nextEntry int15 walk = .leave final := pass
    cases serves with
    | refused refuses =>
        rcases nextEntry_refuses refuses with ⟨last, equal, count, memory⟩
        cases equal.symm.trans leave
        exact Recorded.refused ready refuses.2 count memory
    | last gives done =>
        rw [nextEntry_gives gives, if_pos done] at leave
        cases leave
        exact Recorded.cons ready gives (Recorded.stopped ready _ (Or.inl rfl))
    | more gives again _ =>
        rw [nextEntry_gives gives, if_neg again] at leave
        split at leave
        · cases leave
        · rename_i full
          cases leave
          refine Recorded.cons ready gives (Recorded.stopped ready _ (Or.inr ?_))
          have room := ready.room
          unfold memmapMaxEntries at *
          omega
  · intro walk next final pass inductionHypothesis ready entries serves
    have again : nextEntry int15 walk = .again next := pass
    cases serves with
    | refused refuses =>
        rcases nextEntry_refuses refuses with ⟨last, equal, _⟩
        cases equal.symm.trans again
    | last gives done =>
        rw [nextEntry_gives gives, if_pos done] at again
        cases again
    | more gives goesOn rest =>
        rw [nextEntry_gives gives, if_neg goesOn] at again
        split at again
        · rename_i room
          cases again
          exact Recorded.cons ready gives (inductionHypothesis (ready.accept room) _ rest)
        · cases again

end Serving

/-! ## Reading the block back -/

/-- The regions that the kernel is to see: the entries for which there was room,
without the empty ones and those to ignore. -/
def reportedRegions (entries : List Entry) : List Region :=
  ((entries.take maxEntries).filter Entry.counts).map Entry.region

theorem counts_iff (entry : Entry) :
    entry.counts = true ↔ ¬ (entry.raw.length = 0 ∨ entry.raw.attributes &&& 1 = 0) := by
  unfold Entry.counts Entry.raw
  cases entry.attributes with
  | none => simp
  | some attributes => simp

theorem loadEntry_raw (regions : List Region) (entry : Entry) :
    loadEntry regions entry.raw =
      regions ++ ([entry].filter Entry.counts).map Entry.region := by
  by_cases counts : entry.counts = true
  · rw [loadEntry, if_neg ((counts_iff entry).mp counts), List.filter_cons_of_pos counts]
    rfl
  · rw [loadEntry, if_pos (not_not.mp (mt (counts_iff entry).mpr counts)),
      List.filter_cons_of_neg counts]
    simp

theorem foldl_loadEntry (entries : List Entry) (regions : List Region) :
    (entries.map Entry.raw).foldl loadEntry regions =
      regions ++ (entries.filter Entry.counts).map Entry.region := by
  induction entries generalizing regions with
  | nil => simp
  | cons entry rest inductionHypothesis =>
      rw [List.map_cons, List.foldl_cons, inductionHypothesis, loadEntry_raw, List.append_assoc,
        ← List.map_append, ← List.filter_append, List.singleton_append]

theorem loadEntries_eq {memory : ByteMemory} {entries : List Entry}
    (stored : forall index entry, entries[index]? = some entry ->
      readEntry memory index = entry.raw) :
    loadEntries memory entries.length = (entries.filter Entry.counts).map Entry.region := by
  have entriesRead : (List.range entries.length).map (readEntry memory) =
      entries.map Entry.raw := by
    apply List.ext_getElem
    · simp
    · intro index _ bound
      rw [List.length_map] at bound
      rw [List.getElem_map, List.getElem_map, List.getElem_range]
      exact stored index _ (List.getElem?_eq_getElem bound)
  rw [loadEntries, ← List.foldl_map, entriesRead, foldl_loadEntry, List.nil_append]

theorem load_congr {left right : ByteMemory}
    (agree : forall address, 0x500 ≤ address -> address < 0x808 -> left address = right address) :
    load left = load right := by
  have word : forall offset, offset + 4 ≤ 0x308 ->
      left.load (handoffAddr + offset) 4 = right.load (handoffAddr + offset) 4 := by
    intro offset inside
    apply ByteMemory.load_congr
    intro address member
    have bounds := ByteMemory.mem_extent.mp member
    unfold handoffAddr at bounds
    exact agree address (by omega) (by omega)
  have signature := word 0 (by decide)
  rw [Nat.add_zero] at signature
  have entriesRead : forall count, count ≤ maxEntries ->
      loadEntries left count = loadEntries right count := by
    intro count bound
    induction count with
    | zero => rfl
    | succ count inductionHypothesis =>
        have same : readEntry left count = readEntry right count := by
          apply readEntry_congr
          intro address lower upper
          unfold maxEntries at bound
          unfold entryAddr handoffAddr entriesOffset entrySize at lower upper
          exact agree address (by omega) (by omega)
        rw [loadEntries_succ, loadEntries_succ, same, inductionHypothesis (Nat.le_of_succ_le bound)]
  unfold load
  simp only [signature, word 4 (by decide), entriesRead _ (Nat.min_le_right _ _)]

section RoundTrip

variable {Hidden : Type} {int15 : Firmware Hidden} {hidden : Hidden} {entries : List Entry}

/-- What the boot sector leaves in the block: the signature, the number of entries
that found room, and these entries as the kernel reads them. -/
structure BlockWritten (memory : ByteMemory) (entries : List Entry) : Prop where
  signed : memory.load handoffAddr 4 = signature
  counted : memory.load (handoffAddr + 4) 4 = (entries.take maxEntries).length
  stored : forall index entry, (entries.take maxEntries)[index]? = some entry ->
    readEntry memory index = entry.raw

theorem detectMemory_writes (memory : ByteMemory) (serves : Serves int15 hidden 0 entries) :
    BlockWritten (detectMemory int15 hidden memory) entries ∧
      forall address, address < 0x500 ∨ 0x808 ≤ address ->
        detectMemory int15 hidden memory address = memory address := by
  let start : Walk Hidden := {
    memory := memory.store memmapAddr 4 memmapSignature
    di := memmapAddr + 8
    ebx := 0
    ebp := 0
    hidden := hidden }
  have first : entryAddr start.ebp = 0x508 := rfl
  have ready : start.Ready := ⟨show 0 < memmapMaxEntries by decide, rfl⟩
  have recorded := detectLoop_records start ready serves
  have final : detectMemory int15 hidden memory =
      ((detectLoop int15).run start).memory.store (memmapAddr + 4) 4
        ((detectLoop int15).run start).ebp := rfl
  have count : ((detectLoop int15).run start).ebp = (entries.take maxEntries).length :=
    recorded.count.trans (Nat.zero_add _)
  have few : (entries.take maxEntries).length ≤ 32 := List.length_take_le _ _
  rw [final, count]
  refine ⟨⟨?_, ?_, ?_⟩, ?_⟩
  · rw [ByteMemory.load_store_of_disjoint _ (by decide)]
    have kept : ((detectLoop int15).run start).memory.load handoffAddr 4 =
        (memory.store memmapAddr 4 memmapSignature).load handoffAddr 4 := by
      apply ByteMemory.load_congr
      intro address member
      have bounds := ByteMemory.mem_extent.mp member
      apply recorded.outside
      unfold handoffAddr at bounds
      omega
    rw [kept]
    exact ByteMemory.load_store_of_lt memory (by decide)
  · exact ByteMemory.load_store_of_lt _ (by omega)
  · intro index entry found
    have stored := recorded.stored index entry found
    rw [Nat.zero_add] at stored
    rw [← stored]
    apply readEntry_congr
    intro address lower _
    apply ByteMemory.store_outside
    unfold entryAddr handoffAddr entriesOffset entrySize at lower
    unfold memmapAddr
    omega
  · intro address outside
    rw [ByteMemory.store_outside _ (by unfold memmapAddr; omega),
      recorded.outside address (by omega)]
    exact ByteMemory.store_outside memory (by unfold memmapAddr; omega)

/-- What writer and reader achieve together: the kernel sees the reported regions in
their order, with type 1 alone usable, and no byte outside the block carries
anything over. -/
structure HandsOver (before after : ByteMemory) (entries : List Entry) : Prop where
  regions : (load after).regions = reportedRegions entries
  usable : forall entry : Entry, entry.region.isUsable = true ↔ entry.kind = 1
  writesInside : forall address, address < 0x500 ∨ 0x808 ≤ address -> after address = before address
  readsInside : forall other : ByteMemory,
    (forall address, 0x500 ≤ address -> address < 0x808 -> other address = after address) ->
    load other = load after

theorem isUsable_region (entry : Entry) : entry.region.isUsable = true ↔ entry.kind = 1 := by
  unfold Entry.region Region.isUsable
  simp only [decide_eq_true_eq]
  unfold RegionKind.fromRaw
  split
  · simp [*]
  all_goals simp_all

end RoundTrip

/-- Whatever the BIOS reports reaches the kernel: the regions of the loaded map
are the reported ones, in order, and only the block itself is used to carry them
over. -/
theorem handoff_round_trip {Hidden : Type} (int15 : Firmware Hidden) (hidden : Hidden)
    (entries : List Entry) (serves : Serves int15 hidden 0 entries) (memory : ByteMemory) :
    HandsOver memory (detectMemory int15 hidden memory) entries := by
  rcases detectMemory_writes memory serves with ⟨⟨signed, counted, stored⟩, outside⟩
  have few : (entries.take maxEntries).length ≤ maxEntries := List.length_take_le _ _
  constructor
  · rw [load, if_neg (not_not.mpr signed)]
    simp only [counted, Nat.min_eq_left few]
    exact loadEntries_eq stored
  · exact isUsable_region
  · exact outside
  · intro other agree
    exact load_congr agree

def scripted : Firmware (List Reply)
  | [], _ => (⟨true, 0x8600, 0, []⟩, [])
  | reply :: rest, _ => (reply, rest)

/-- Two entries count, one short and one long; a third is marked as one to
ignore, and the walk then ends with a carry that leaves bytes in the buffer. -/
theorem handoff_round_trip_scripted :
    let entries : List Entry := [⟨0, 0x9fc00, 1, none⟩, ⟨0x100000, 0x7ee0000, 1, some 1⟩,
      ⟨0xfffc0000, 0x40000, 2, some 0⟩]
    let replies : List Reply := [⟨false, smap, 1, (Entry.mk 0 0x9fc00 1 none).bytes⟩,
      ⟨false, smap, 2, (Entry.mk 0x100000 0x7ee0000 1 (some 1)).bytes⟩,
      ⟨false, smap, 3, (Entry.mk 0xfffc0000 0x40000 2 (some 0)).bytes⟩,
      ⟨true, smap, 3, [0xde, 0xad]⟩]
    HandsOver (fun _ => 0xff) (detectMemory scripted replies (fun _ => 0xff)) entries ∧
      reportedRegions entries = [⟨0, 0x9fc00, .usable⟩, ⟨0x100000, 0x7ee0000, .usable⟩] := by
  intro entries replies
  have serves : Serves scripted replies 0 entries :=
    Serves.more ⟨rfl, rfl, rfl⟩ (by decide) (Serves.more ⟨rfl, rfl, rfl⟩ (by decide)
      (Serves.more ⟨rfl, rfl, rfl⟩ (by decide) (Serves.refused ⟨Or.inl rfl, by decide⟩)))
  exact ⟨handoff_round_trip scripted replies entries serves (fun _ => 0xff), by decide +kernel⟩

/-! ## The flags of the map -/

/-- The flags say what the BIOS did: there is a map exactly if it has answered at
all, and the map is cut off exactly if it had more entries than the block has room
for. -/
structure FlagsTrue (entries : List Entry) (map : MemoryMap) : Prop where
  available : map.available = false ↔ entries = []
  truncated : map.truncated = true ↔ 32 < entries.length

/-- The signature is in the block before the first call, and the count in it
never exceeds the room, so both flags are fixed. -/
theorem flags_written {Hidden : Type} {int15 : Firmware Hidden} {hidden : Hidden}
    {entries : List Entry} (serves : Serves int15 hidden 0 entries) (memory : ByteMemory) :
    (load (detectMemory int15 hidden memory)).available = true ∧
      (load (detectMemory int15 hidden memory)).truncated = false := by
  rcases detectMemory_writes memory serves with ⟨⟨signed, counted, _⟩, _⟩
  have few : (entries.take maxEntries).length ≤ maxEntries := List.length_take_le _ _
  rw [load, if_neg (not_not.mpr signed)]
  refine ⟨rfl, ?_⟩
  simp only [MemoryMap.truncated, counted, gt_iff_lt, decide_eq_false_iff_not, not_lt]
  exact few

/-- The flags are true exactly of a BIOS that has at least one entry and no more
than the block has room for. -/
theorem flags_true_iff {Hidden : Type} (int15 : Firmware Hidden) (hidden : Hidden)
    (entries : List Entry) (serves : Serves int15 hidden 0 entries) (memory : ByteMemory) :
    FlagsTrue entries (load (detectMemory int15 hidden memory)) ↔
      entries ≠ [] ∧ entries.length ≤ 32 := by
  rcases flags_written serves memory with ⟨available, truncated⟩
  constructor
  · intro flags
    constructor
    · intro none
      have unavailable := flags.available.mpr none
      rw [available] at unavailable
      cases unavailable
    · apply Nat.le_of_not_lt
      intro many
      have cut := flags.truncated.mpr many
      rw [truncated] at cut
      cases cut
  · rintro ⟨some, few⟩
    constructor
    · rw [available]
      exact iff_of_false Bool.noConfusion some
    · rw [truncated]
      exact iff_of_false Bool.noConfusion (Nat.not_lt_of_le few)

theorem flags_true_single :
    let entry : Entry := ⟨0x100000, 0x7ee0000, 1, none⟩
    FlagsTrue [entry] (load (detectMemory scripted [⟨false, smap, 0, entry.bytes⟩]
      (fun _ => 0xff))) := by
  intro entry
  have serves : Serves scripted [⟨false, smap, 0, entry.bytes⟩] 0 [entry] :=
    Serves.last ⟨rfl, rfl, rfl⟩ rfl
  exact (flags_true_iff scripted _ [entry] serves (fun _ => 0xff)).mpr ⟨by decide, by decide⟩

/-- A BIOS without the service refuses the first call.  The map is then reported
as available, with no regions. -/
theorem flags_false_without_service :
    let map := load (detectMemory scripted [] (fun _ => 0xff))
    Serves scripted [] 0 [] ∧ map.available = true ∧ map.regions = [] ∧ ¬ FlagsTrue [] map := by
  intro map
  have serves : Serves scripted [] 0 [] := Serves.refused ⟨Or.inl rfl, by decide⟩
  have available : map.available = true := (flags_written serves (fun _ => 0xff)).1
  refine ⟨serves, available, ?_, ?_⟩
  · decide +kernel
  · intro flags
    have unavailable := flags.available.mpr rfl
    rw [available] at unavailable
    cases unavailable

end Boot
end Goatos
