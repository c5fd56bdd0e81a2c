import Mathlib.Order.Lattice.Nat
import Goatos.Memory.OverlappingMap
import Goatos.Memory.Paging

namespace Goatos
namespace Memory
namespace Paging

open Library

/-!
# The end of the window

The frame allocator and the paging code both clamp the memory map to what 32
bits can address, each in its own way.  The pool ends at 4 GiB.  The window ends
one directory entry earlier, because its end has to fit into 32 bits.  So the
frames of the last 4 MiB are in the pool and outside the window.

The window also looks at the ends of regions only.  A region that lies above the
4 GiB line altogether ends above it as well, so the clamp takes it for one that
reaches up to the line, and the window becomes as large as it can be.
-/

section FoldMax

variable {Item : Type} (value : Item -> Nat)

private theorem le_foldl_max (items : List Item) (start : Nat) :
    start ≤ items.foldl (fun best item => max best (value item)) start := by
  induction items generalizing start with
  | nil => exact Nat.le_refl _
  | cons item rest inductionHypothesis =>
      exact Nat.le_trans (Nat.le_max_left _ _) (inductionHypothesis _)

private theorem value_le_foldl_max {items : List Item} {item : Item} (member : item ∈ items)
    (start : Nat) : value item ≤ items.foldl (fun best item => max best (value item)) start := by
  induction items generalizing start with
  | nil => cases member
  | cons first rest inductionHypothesis =>
      rcases List.mem_cons.mp member with rfl | later
      · exact Nat.le_trans (Nat.le_max_right _ _) (le_foldl_max value rest _)
      · exact inductionHypothesis later _

private theorem foldl_max_attained (items : List Item) (start : Nat) :
    items.foldl (fun best item => max best (value item)) start = start ∨
      Exists fun item => item ∈ items ∧
        items.foldl (fun best item => max best (value item)) start = value item := by
  induction items generalizing start with
  | nil => exact Or.inl rfl
  | cons first rest inductionHypothesis =>
      rcases inductionHypothesis (max start (value first)) with kept | ⟨item, member, same⟩
      · rcases Nat.le_total start (value first) with below | above
        · rw [List.foldl_cons, kept, Nat.max_eq_right below]
          exact Or.inr ⟨first, List.mem_cons_self, rfl⟩
        · rw [List.foldl_cons, kept, Nat.max_eq_left above]
          exact Or.inl rfl
      · exact Or.inr ⟨item, List.mem_cons_of_mem _ member, same⟩

end FoldMax

/-- The largest clamped end of a usable region, before rounding. -/
def usableEnd (map : MemoryMap) : Nat :=
  map.usableRegions.foldl (fun stop region => max stop (min region.end (1 <<< 32))) 0

theorem identityMapEnd_of_zero {map : MemoryMap} (zero : usableEnd map = 0) :
    identityMapEnd map = 0 :=
  if_pos zero

theorem identityMapEnd_of_pos {map : MemoryMap} (positive : 0 < usableEnd map) :
    identityMapEnd map = min (2 ^ 32 - bytesPerDirectoryEntry)
      ((usableEnd map + (bytesPerDirectoryEntry - 1)) / bytesPerDirectoryEntry *
        bytesPerDirectoryEntry) := by
  rw [Nat.min_comm]
  exact if_neg (Nat.ne_of_gt positive)

theorem le_usableEnd {map : MemoryMap} {region : Region} (member : region ∈ map.regions)
    (usable : region.isUsable = true) : min region.end (2 ^ 32) ≤ usableEnd map :=
  value_le_foldl_max (fun region : Region => min region.end (1 <<< 32))
    (List.mem_filter.mpr ⟨member, usable⟩) 0

theorem usableEnd_pos {map : MemoryMap} (nonzero : identityMapEnd map ≠ 0) : 0 < usableEnd map :=
  Nat.pos_of_ne_zero (fun zero => nonzero (identityMapEnd_of_zero zero))

theorem bytesPerDirectoryEntry_eq : bytesPerDirectoryEntry = 0x400000 := by
  decide

/-- The end of the window is a whole number of directory entries, at least one
and at most all but the last. -/
theorem identityMapEnd_bounds {map : MemoryMap} (nonzero : identityMapEnd map ≠ 0) :
    bytesPerDirectoryEntry ∣ identityMapEnd map ∧
      bytesPerDirectoryEntry ≤ identityMapEnd map ∧
      identityMapEnd map ≤ 2 ^ 32 - bytesPerDirectoryEntry := by
  have positive := usableEnd_pos nonzero
  rw [identityMapEnd_of_pos positive, bytesPerDirectoryEntry_eq]
  refine ⟨?_, ?_, Nat.min_le_left _ _⟩
  · omega
  · omega

theorem le_identityMapEnd {map : MemoryMap} {region : Region} (member : region ∈ map.regions)
    (usable : region.isUsable = true) (nonzero : identityMapEnd map ≠ 0) :
    min (min region.end (2 ^ 32)) (2 ^ 32 - bytesPerDirectoryEntry) ≤ identityMapEnd map := by
  have reached := le_usableEnd member usable
  rw [identityMapEnd_of_pos (usableEnd_pos nonzero), bytesPerDirectoryEntry_eq]
  omega

/-- The window covers every frame that the pool could ever hand out, and the
legacy video memory. -/
def CoversPool (image : KernelImage) (map : MemoryMap) : Prop :=
  (forall index, PoolFrame image map index -> (index + 1) * frameSize ≤ identityMapEnd map) ∧
    legacyRomEnd ≤ identityMapEnd map

/-- The window covers the pool exactly when the pool has no frame in the last
4 MiB below 4 GiB. -/
theorem window_covers_pool_iff (image : KernelImage) (memory : ByteMemory)
    (nonzero : identityMapEnd (load memory) ≠ 0) :
    CoversPool image (load memory) ↔
      forall index, PoolFrame image (load memory) index ->
        index * frameSize < 2 ^ 32 - bytesPerDirectoryEntry := by
  have bounds := identityMapEnd_bounds nonzero
  unfold bytesPerDirectoryEntry frameSize entries at bounds
  constructor
  · rintro ⟨covered, _⟩ index inPool
    have below := covered index inPool
    unfold bytesPerDirectoryEntry frameSize entries at *
    omega
  · intro below
    refine ⟨?_, ?_⟩
    · intro index inPool
      have small := below index inPool
      rcases inPool with ⟨⟨region, member, usable, _, ends⟩, top, _⟩
      have reaches := le_identityMapEnd member usable nonzero
      unfold Region.end saturatingAdd at reaches
      unfold bytesPerDirectoryEntry frameSize entries at *
      omega
    · unfold legacyRomEnd
      omega

def handoffOf (base length : Nat) : ByteMemory :=
  (((((ByteMemory.store (fun _ => 0) handoffAddr 4 signature).store (handoffAddr + 4) 4 1).store
    (entryAddr 0) 8 base).store (entryAddr 0 + 8) 8 length).store (entryAddr 0 + 16) 4 1).store
    (entryAddr 0 + 20) 4 1

/-- On a machine with 7 MiB above the first the window ends at 8 MiB and covers
the pool. -/
theorem window_covers_pool_low :
    identityMapEnd (load (handoffOf 0x100000 0x700000)) = 0x800000 ∧
      CoversPool smallImage (load (handoffOf 0x100000 0x700000)) := by
  have regions : (load (handoffOf 0x100000 0x700000)).regions =
      [⟨0x100000, 0x700000, .usable⟩] := by decide +kernel
  have window : identityMapEnd (load (handoffOf 0x100000 0x700000)) = 0x800000 := by
    decide +kernel
  refine ⟨window, (window_covers_pool_iff smallImage _ (by rw [window]; decide)).mpr ?_⟩
  rintro index ⟨⟨region, member, _, _, ends⟩, _⟩
  rw [regions] at member
  have top : region.base.toNat + region.length.toNat = 0x800000 := by
    rw [List.mem_singleton.mp member]
    decide
  unfold bytesPerDirectoryEntry frameSize entries at *
  omega

/-- With a usable region in the last 4 MiB, the window ends where that region
begins: its frames are in the pool but not mapped. -/
theorem window_misses_last_frames :
    let map := load (handoffOf 0xffc00000 0x400000)
    map.regions = [⟨0xffc00000, 0x400000, .usable⟩] ∧
      identityMapEnd map = 0xffc00000 ∧ PoolFrame smallImage map 0xffc00 ∧
      ¬ CoversPool smallImage map := by
  intro map
  have regions : map.regions = [⟨0xffc00000, 0x400000, .usable⟩] := by decide +kernel
  have window : identityMapEnd map = 0xffc00000 := by decide +kernel
  have inPool : PoolFrame smallImage map 0xffc00 := by
    refine ⟨⟨⟨0xffc00000, 0x400000, .usable⟩, ?_, by decide +kernel⟩, by decide, by decide +kernel⟩
    rw [regions]
    exact List.mem_singleton.mpr rfl
  refine ⟨regions, window, inPool, ?_⟩
  rintro ⟨covered, _⟩
  have below := covered 0xffc00 inPool
  rw [window] at below
  exact absurd below (by decide)

/-! ## The documented ceiling -/

/-- A byte of a usable region, below 4 GiB. -/
def UsableByte (map : MemoryMap) (address : Nat) : Prop :=
  (Exists fun region => region ∈ map.regions ∧ region.isUsable = true ∧
    region.base.toNat ≤ address ∧ address < region.base.toNat + region.length.toNat) ∧
  address < 2 ^ 32

/-- The whole numbers of directory entries that leave no usable byte out. -/
def ceilings (map : MemoryMap) : Set Nat :=
  fun stop => bytesPerDirectoryEntry ∣ stop ∧
    forall address, UsableByte map address -> address < stop

/-- What the end of the window is documented to be: zero without usable memory, and
otherwise the least ceiling of the usable bytes below 4 GiB, but at most the last
full directory entry. -/
structure DocumentedEnd (map : MemoryMap) (stop : Nat) : Prop where
  withoutBytes : (forall address, ¬ UsableByte map address) -> stop = 0
  withBytes : (Exists fun address => UsableByte map address) ->
    Exists fun ceiling => IsLeast (ceilings map) ceiling ∧
      stop = min (2 ^ 32 - bytesPerDirectoryEntry) ceiling

theorem UsableByte.lt_usableEnd {map : MemoryMap} {address : Nat} (byte : UsableByte map address) :
    address < usableEnd map := by
  rcases byte with ⟨⟨region, member, usable, _, upper⟩, below⟩
  refine Nat.lt_of_lt_of_le ?_ (le_usableEnd member usable)
  simp only [Region.end, saturatingAdd, Nat.reducePow] at below ⊢
  omega

theorem usableEnd_le (map : MemoryMap) : usableEnd map ≤ 2 ^ 32 := by
  rcases foldl_max_attained (fun region : Region => min region.end (1 <<< 32))
    map.usableRegions 0 with zero | ⟨region, _, same⟩
  · exact Nat.le_trans (Nat.le_of_eq zero) (Nat.zero_le _)
  · exact Nat.le_trans (Nat.le_of_eq same) (Nat.min_le_right _ _)

theorem usableByte_of_low {memory : ByteMemory}
    (low : forall region, region ∈ (load memory).regions -> region.isUsable = true ->
      region.base.toNat < 2 ^ 32)
    (positive : 0 < usableEnd (load memory)) :
    UsableByte (load memory) (usableEnd (load memory) - 1) := by
  rcases foldl_max_attained (fun region : Region => min region.end (1 <<< 32))
    (load memory).usableRegions 0 with zero | ⟨region, member, same⟩
  · exact absurd (Nat.lt_of_lt_of_eq positive zero) (Nat.lt_irrefl 0)
  · rcases List.mem_filter.mp member with ⟨inMap, usable⟩
    have below := low region inMap usable
    have nonempty : region.length.toNat ≠ 0 := fun zero =>
      load_length_ne_zero memory region inMap (UInt64.toNat_inj.mp zero)
    change usableEnd (load memory) = min region.end (1 <<< 32) at same
    simp only [Region.end, saturatingAdd, Nat.reduceShiftLeft, Nat.reducePow] at same below
    refine ⟨⟨region, inMap, usable, by omega, by omega⟩, ?_⟩
    simp only [Nat.reducePow]
    omega

/-- A usable region above the line drives the end up to it, because its end is
clamped to 4 GiB before the largest one is taken. -/
theorem usableEnd_of_high {map : MemoryMap} {region : Region} (member : region ∈ map.regions)
    (usable : region.isUsable = true) (high : 2 ^ 32 ≤ region.base.toNat) :
    usableEnd map = 2 ^ 32 := by
  refine Nat.le_antisymm (usableEnd_le map) ?_
  have bound := region.base.toNat_lt
  refine Nat.le_trans ?_ (le_usableEnd member usable)
  simp only [Region.end, saturatingAdd, Nat.reducePow] at high bound ⊢
  omega

/-- The window ends where it is documented to end, unless a usable region lies
wholly at or above 4 GiB.  Then it ends there only if usable memory reaches into
the last 8 MiB below the line, where the cap hides the difference. -/
theorem identityMapEnd_documented_iff (memory : ByteMemory) :
    DocumentedEnd (load memory) (identityMapEnd (load memory)) ↔
      (forall region, region ∈ (load memory).regions -> region.isUsable = true ->
        region.base.toNat < 2 ^ 32) ∨
      Exists fun address => UsableByte (load memory) address ∧
        2 ^ 32 - 2 * bytesPerDirectoryEntry ≤ address := by
  have unit := bytesPerDirectoryEntry_eq
  constructor
  · intro documented
    by_contra neither
    rw [not_or] at neither
    rcases neither with ⟨someHigh, noTop⟩
    push Not at someHigh noTop
    rcases someHigh with ⟨region, member, usable, high⟩
    have reached := usableEnd_of_high member usable high
    have value := identityMapEnd_of_pos (show 0 < usableEnd (load memory) by rw [reached]; decide)
    rw [reached, unit] at value
    by_cases bytes : Exists fun address => UsableByte (load memory) address
    · rcases documented.withBytes bytes with ⟨ceiling, least, same⟩
      have smaller : ceiling ≤ 2 ^ 32 - 2 * bytesPerDirectoryEntry :=
        least.2 ⟨by decide, noTop⟩
      rw [unit] at smaller same
      omega
    · have zero := documented.withoutBytes (fun address byte => bytes ⟨address, byte⟩)
      omega
  · rintro (low | ⟨address, byte, top⟩)
    · refine ⟨?_, ?_⟩
      · intro noBytes
        refine identityMapEnd_of_zero (Nat.eq_zero_of_not_pos ?_)
        exact fun positive => noBytes _ (usableByte_of_low low positive)
      · rintro ⟨address, byte⟩
        have positive : 0 < usableEnd (load memory) := Nat.zero_lt_of_lt byte.lt_usableEnd
        have last := usableByte_of_low low positive
        refine ⟨_, ⟨⟨Nat.dvd_mul_left _ _, ?_⟩, ?_⟩, identityMapEnd_of_pos positive⟩
        · intro other otherByte
          have below := otherByte.lt_usableEnd
          rw [unit]
          omega
        · rintro stop ⟨whole, beyond⟩
          have lastBelow := beyond _ last
          rw [unit] at whole ⊢
          omega
    · refine ⟨fun noBytes => absurd byte (noBytes address), fun _ => ?_⟩
      have whole : 2 ^ 32 ∈ ceilings (load memory) := ⟨by decide, fun other byte => byte.2⟩
      have least : IsLeast (ceilings (load memory)) (sInf (ceilings (load memory))) :=
        ⟨Nat.sInf_mem ⟨_, whole⟩, fun _ member => Nat.sInf_le member⟩
      refine ⟨_, least, ?_⟩
      have beyond := least.1.2 address byte
      have multiple := least.1.1
      have below := byte.lt_usableEnd
      have capped := usableEnd_le (load memory)
      rw [identityMapEnd_of_pos (Nat.zero_lt_of_lt below)]
      rw [unit] at multiple top ⊢
      omega

/-- A machine with 128 MiB and a usable region that begins at 4 GiB.  The least
ceiling of its usable bytes below the line is 128 MiB, but the window ends 4 MiB
below the line. -/
theorem identityMapEnd_counts_region_above :
    let map := load (storeEntry (storeEntry (storeHeader 2) 0 0x100000 0x7f00000 1)
      1 0x100000000 0x40000000 1)
    map.regions = [⟨0x100000, 0x7f00000, .usable⟩, ⟨0x100000000, 0x40000000, .usable⟩] ∧
      IsLeast (ceilings map) 0x8000000 ∧ identityMapEnd map = 0xffc00000 ∧
      ¬ DocumentedEnd map (identityMapEnd map) := by
  intro map
  have regions : map.regions =
      [⟨0x100000, 0x7f00000, .usable⟩, ⟨0x100000000, 0x40000000, .usable⟩] := by decide +kernel
  have window : identityMapEnd map = 0xffc00000 := by decide +kernel
  have last : UsableByte map 0x7ffffff := by
    refine ⟨⟨⟨0x100000, 0x7f00000, .usable⟩, ?_, by decide⟩, by decide⟩
    rw [regions]
    exact List.mem_cons_self
  have least : IsLeast (ceilings map) 0x8000000 := by
    refine ⟨⟨by decide, ?_⟩, ?_⟩
    · rintro address ⟨⟨region, member, _, lower, upper⟩, below⟩
      rw [regions, List.mem_cons, List.mem_singleton] at member
      rcases member with rfl | rfl
      · exact upper
      · exact absurd lower (Nat.not_le_of_lt below)
    · rintro stop ⟨whole, beyond⟩
      have lastBelow := beyond _ last
      rw [bytesPerDirectoryEntry_eq] at whole
      omega
  refine ⟨regions, least, window, ?_⟩
  intro documented
  rcases documented.withBytes ⟨_, last⟩ with ⟨ceiling, isLeast, same⟩
  rw [window, isLeast.unique least] at same
  exact absurd same (by decide)

end Paging
end Memory
end Goatos
