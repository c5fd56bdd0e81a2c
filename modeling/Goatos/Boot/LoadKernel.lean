import Goatos.Boot.DetectMemory
import Goatos.Library.Word
import Goatos.Storage.Fs

namespace Goatos
namespace Boot

open Library
open Storage (Disk fsBaseLba)

/-!
# Loading the kernel

`load_kernel` reads the sectors after the boot sector one by one, with the
cylinder, head and sector numbers that the BIOS wants, and moves its target by
one sector at a time.  The target is a 16-bit segment.  The build only checks
that the kernel ends below the file system on the disk.

The BIOS is, as for the memory map, a function of its own hidden state and of the
registers it is called with.  What is expected of it is stated apart: it reports
the geometry of the drive, and it delivers a sector that is on the drive.
-/

/-! ## The disk service of the BIOS -/

/-- The registers of a call with `AX=0201h`, which reads one sector to `ES:BX`. -/
structure DiskCall where
  ch : Nat
  cl : Nat
  dh : Nat
  es : Nat
  bx : Nat
  deriving DecidableEq, Repr

/-- Where a call stores, in real mode. -/
def DiskCall.address (call : DiskCall) : Nat :=
  call.es * 16 + call.bx

/-- The two services of `INT 13h` that the boot sector uses: the parameters of the
drive (`AH=08h`) and reading a sector (`AH=02h`). -/
inductive DiskRequest where
  | parameters
  | read (call : DiskCall)
  deriving DecidableEq, Repr

/-- What comes back: the carry flag, the registers that `get_disk_geometry` looks
at, and the bytes stored at `ES:BX`. -/
structure DiskReply where
  carry : Bool
  cl : UInt8
  dh : UInt8
  stored : List UInt8
  deriving DecidableEq, Repr

abbrev DiskFirmware (Hidden : Type) := Hidden -> DiskRequest -> DiskReply × Hidden

/-! ## The loader -/

def kernelLoadSegment : Nat := 0x1000

def kernelLoadAddr : Nat := 0x10000

/-- What `get_disk_geometry` leaves in memory: two bytes and a word. -/
structure DiskParameters where
  sectorsPerTrack : Nat
  headsPerCylinder : Nat
  sectorsPerCylinder : Nat
  deriving DecidableEq, Repr

/-- What `get_disk_geometry` makes of the registers it gets.  The head count is
stored as a byte, so 256 heads come out as none. -/
def getDiskGeometry (cl dh : Nat) : DiskParameters :=
  let sectorsPerTrack := cl &&& 0x3f
  let headsPerCylinder := (dh + 1) % 2 ^ 8
  { sectorsPerTrack := sectorsPerTrack
    headsPerCylinder := headsPerCylinder
    sectorsPerCylinder := headsPerCylinder * sectorsPerTrack % 2 ^ 16 }

/-- The call for one sector.  Cylinder, head and sector come from two divisions, and
the result `none` is the divide error of one of them. -/
def readOneSectorChs (parameters : DiskParameters) (lba segment : Nat) : Option DiskCall :=
  if parameters.sectorsPerCylinder = 0 then none
  else
    let tmpCylinder := lba / parameters.sectorsPerCylinder % 2 ^ 16
    let rest := lba % parameters.sectorsPerCylinder
    if parameters.sectorsPerTrack = 0 then none
    else
      let tmpHead := rest / parameters.sectorsPerTrack % 2 ^ 8
      let tmpSector := (rest % parameters.sectorsPerTrack + 1) % 2 ^ 8
      some {
        ch := tmpCylinder % 2 ^ 8
        cl := tmpCylinder / 2 ^ 8 * 2 ^ 6 % 2 ^ 8 ||| tmpSector
        dh := tmpHead
        es := segment
        bx := 0 }

section Program

variable {Hidden : Type}

/-- The state of `load_kernel`: its three variables, memory and the firmware.  The
reads so far are kept with it. -/
structure Loader (Hidden : Type) where
  sectorsRemaining : Nat
  currentLba : Nat
  currentSegment : Nat
  memory : ByteMemory
  hidden : Hidden
  reads : List DiskCall

/-- How the boot sector is done with the disk.  After a disk error it prints a
message and hangs. -/
inductive LoadEnd (Hidden : Type) where
  | done (loader : Loader Hidden)
  | diskError
  | divideError

/-- One pass from `.read_loop`. -/
def readLoop (int13 : DiskFirmware Hidden) (parameters : DiskParameters)
    (loader : Loader Hidden) : Pass (Loader Hidden) (LoadEnd Hidden) :=
  if loader.sectorsRemaining = 0 then .leave (.done loader)
  else
    match readOneSectorChs parameters loader.currentLba loader.currentSegment with
    | none => .leave .divideError
    | some call =>
        let (reply, hidden) := int13 loader.hidden (.read call)
        if reply.carry then .leave .diskError
        else
          .again {
            sectorsRemaining := loader.sectorsRemaining - 1
            currentLba := (loader.currentLba + 1) % 2 ^ 32
            currentSegment := (loader.currentSegment + 32) % 2 ^ 16
            memory := loader.memory.storeBytes call.address reply.stored
            hidden := hidden
            reads := loader.reads ++ [call] }

theorem readLoop_again {int13 : DiskFirmware Hidden} {parameters : DiskParameters}
    {loader next : Loader Hidden} (pass : readLoop int13 parameters loader = .again next) :
    next.sectorsRemaining < loader.sectorsRemaining := by
  unfold readLoop at pass
  split at pass
  · cases pass
  · rename_i more
    split at pass
    · cases pass
    · simp only at pass
      split at pass
      · cases pass
      · cases pass
        exact Nat.sub_lt (Nat.pos_of_ne_zero more) Nat.one_pos

def loadLoop (int13 : DiskFirmware Hidden) (parameters : DiskParameters) :
    WhileLoop (Loader Hidden) (LoadEnd Hidden) where
  body := readLoop int13 parameters
  measure := Loader.sectorsRemaining
  decreases := fun _ _ => readLoop_again

/-- `get_disk_geometry` and then `load_kernel`, assembled for a kernel of so many
sectors. -/
def loadKernel (int13 : DiskFirmware Hidden) (hidden : Hidden) (kernelSectors : Nat)
    (memory : ByteMemory) : LoadEnd Hidden :=
  let (reply, hidden) := int13 hidden .parameters
  if reply.carry then .diskError
  else
    (loadLoop int13 (getDiskGeometry reply.cl.toNat reply.dh.toNat)).run {
      sectorsRemaining := kernelSectors % 2 ^ 16
      currentLba := 1
      currentSegment := kernelLoadSegment
      memory := memory
      hidden := hidden
      reads := [] }

end Program

/-! ## The address of a sector -/

def DiskCall.cylinder (call : DiskCall) : Nat :=
  call.ch + 2 ^ 8 * (call.cl / 2 ^ 6)

def DiskCall.sector (call : DiskCall) : Nat :=
  call.cl % 2 ^ 6

/-- A call stands for a sector number, on a drive with so many heads and so many
sectors on a track. -/
structure DiskCall.Addresses (call : DiskCall) (heads sectors lba : Nat) : Prop where
  lba : (call.cylinder * heads + call.dh) * sectors + (call.sector - 1) = lba
  head : call.dh < heads
  sector_pos : 1 ≤ call.sector
  sector_le : call.sector ≤ sectors

section Address

variable {maxHead sectors cylinderBits lba : Nat}

theorem getDiskGeometry_eq (fewHeads : maxHead ≤ 254) (fewSectors : sectors ≤ 63) :
    getDiskGeometry (sectors + 2 ^ 6 * cylinderBits) maxHead =
      ⟨sectors, maxHead + 1, (maxHead + 1) * sectors⟩ := by
  have track : sectors + 2 ^ 6 * cylinderBits &&& 0x3f = sectors := by
    rw [show 0x3f = 2 ^ 6 - 1 from rfl, Nat.and_two_pow_sub_one_eq_mod]
    omega
  have count : (maxHead + 1) % 2 ^ 8 = maxHead + 1 := by omega
  have product : (maxHead + 1) * sectors < 2 ^ 16 :=
    Nat.lt_of_le_of_lt (Nat.mul_le_mul (Nat.succ_le_succ fewHeads) fewSectors) (by decide)
  simp only [getDiskGeometry, track, count, Nat.mod_eq_of_lt product]

theorem getDiskGeometry_overflow (cl : Nat) :
    (getDiskGeometry cl 255).sectorsPerCylinder = 0 := by
  simp only [getDiskGeometry, Nat.reduceAdd, Nat.reducePow, Nat.mod_self, Nat.zero_mul, Nat.zero_mod]

theorem chs_registers {cylinder sector : Nat} (low : cylinder < 1024) (few : sector ≤ 63) :
    cylinder % 2 ^ 8 + 2 ^ 8 * ((cylinder / 2 ^ 8 * 2 ^ 6 % 2 ^ 8 ||| sector) / 2 ^ 6) = cylinder ∧
      (cylinder / 2 ^ 8 * 2 ^ 6 % 2 ^ 8 ||| sector) % 2 ^ 6 = sector := by
  have packed : cylinder / 2 ^ 8 * 2 ^ 6 % 2 ^ 8 ||| sector =
      cylinder / 2 ^ 8 * 2 ^ 6 + sector := by
    rw [Nat.mod_eq_of_lt (by omega)]
    exact or_eq_add (Nat.dvd_mul_left _ _) (by omega)
  rw [packed]
  omega

theorem chs_lba (heads sectors lba : Nat) :
    (lba / (heads * sectors) * heads + lba % (heads * sectors) / sectors) * sectors +
      lba % (heads * sectors) % sectors = lba := by
  rw [Nat.add_mul, Nat.add_assoc, Nat.div_add_mod', Nat.mul_assoc, Nat.div_add_mod']

/-- The call that is computed stands for the sector that was meant, as long as the
cylinder has ten bits and the head count is not 256. -/
theorem readOneSectorChs_addresses (fewHeads : maxHead ≤ 254) (someSectors : 1 ≤ sectors)
    (fewSectors : sectors ≤ 63) (low : lba / ((maxHead + 1) * sectors) < 1024) (segment : Nat) :
    Exists fun call =>
      readOneSectorChs (getDiskGeometry (sectors + 2 ^ 6 * cylinderBits) maxHead) lba segment =
          some call ∧
        call.Addresses (maxHead + 1) sectors lba ∧
        call.cylinder = lba / ((maxHead + 1) * sectors) ∧ call.address = segment * 16 := by
  have perCylinder : 0 < (maxHead + 1) * sectors := Nat.mul_pos (Nat.succ_pos _) someSectors
  have onCylinder : lba % ((maxHead + 1) * sectors) / sectors < maxHead + 1 :=
    Nat.div_lt_of_lt_mul (by
      rw [Nat.mul_comm sectors]
      exact Nat.mod_lt _ perCylinder)
  have onTrack := Nat.mod_lt (lba % ((maxHead + 1) * sectors)) someSectors
  have whole := chs_lba (maxHead + 1) sectors lba
  rw [getDiskGeometry_eq fewHeads fewSectors, readOneSectorChs, if_neg (Nat.ne_of_gt perCylinder)]
  simp only
  rw [if_neg (Nat.ne_of_gt someSectors)]
  refine ⟨_, rfl, ?_, ?_⟩
  all_goals
    generalize lba / ((maxHead + 1) * sectors) = cylinder at *
    generalize lba % ((maxHead + 1) * sectors) / sectors = head at *
    generalize lba % ((maxHead + 1) * sectors) % sectors = sector at *
    rcases @chs_registers cylinder (sector + 1) low (by omega) with ⟨decoded, decodedSector⟩
    rw [Nat.mod_eq_of_lt (show cylinder < 2 ^ 16 by omega),
      Nat.mod_eq_of_lt (show head < 2 ^ 8 by omega),
      Nat.mod_eq_of_lt (show sector + 1 < 2 ^ 8 by omega)]
  · refine ⟨?_, onCylinder, ?_, ?_⟩
    all_goals simp only [DiskCall.cylinder, DiskCall.sector, decoded, decodedSector]
    · rw [Nat.add_sub_cancel, whole]
    · exact Nat.succ_pos _
    · exact onTrack
  · exact ⟨decoded, rfl⟩

/-- The conversion of sector numbers is exact on every geometry that the BIOS can
report, except with 256 heads, where it stops at a division by zero. -/
theorem chs_exact_iff (byte : maxHead ≤ 255) (someSectors : 1 ≤ sectors) (fewSectors : sectors ≤ 63)
    (low : lba / ((maxHead + 1) * sectors) < 1024) (segment : Nat) :
    (Exists fun call =>
      readOneSectorChs (getDiskGeometry (sectors + 2 ^ 6 * cylinderBits) maxHead) lba segment =
          some call ∧
        call.Addresses (maxHead + 1) sectors lba) ↔ maxHead ≤ 254 := by
  constructor
  · rintro ⟨call, computed, _⟩
    by_contra many
    have most : maxHead = 255 := by omega
    rw [most, readOneSectorChs, if_pos (getDiskGeometry_overflow _)] at computed
    cases computed
  · intro fewHeads
    rcases readOneSectorChs_addresses fewHeads someSectors fewSectors low segment with
      ⟨call, computed, addresses, _⟩
    exact ⟨call, computed, addresses⟩

/-- The last sector that the registers can express on a drive with 255 heads. -/
theorem chs_exact_last :
    Exists fun call => readOneSectorChs (getDiskGeometry (63 + 2 ^ 6 * 3) 254) 16450559 0x1000 =
        some call ∧ call.Addresses (254 + 1) 63 16450559 :=
  (chs_exact_iff (by decide) (by decide) (by decide) (by decide) 0x1000).mpr (by decide)

/-- With 256 heads not even the first sector of the kernel is found. -/
theorem chs_divides_by_zero :
    1 / ((255 + 1) * 63) < 1024 ∧
      readOneSectorChs (getDiskGeometry (63 + 2 ^ 6 * 3) 255) 1 0x1000 = none := by
  decide

end Address

/-! ## What is expected of the BIOS -/

def sectorBytes : Nat := 512

/-- The geometry of the boot drive, which reaches at least up to the file system:
the build pads the disk image far beyond that. -/
structure Geometry where
  cylinders : Nat
  heads : Nat
  sectors : Nat
  cylinders_le : cylinders ≤ 1024
  heads_pos : 0 < heads
  heads_le : heads ≤ 256
  sectors_pos : 0 < sectors
  sectors_le : sectors ≤ 63
  covers : fsBaseLba ≤ cylinders * (heads * sectors)

namespace Geometry

/-- `CL` as `INT 13h` with `AH=08h` returns it: the sectors of a track, and two bits
of the last cylinder. -/
def replyCl (geometry : Geometry) : Nat :=
  geometry.sectors + 2 ^ 6 * ((geometry.cylinders - 1) / 2 ^ 8)

def replyDh (geometry : Geometry) : Nat :=
  geometry.heads - 1

/-- The sector that a call addresses, if it is on the drive.  Of a call for any other
sector nothing is known. -/
def lbaOf (geometry : Geometry) (call : DiskCall) : Option Nat :=
  if call.cylinder < geometry.cylinders ∧ call.dh < geometry.heads ∧ 0 < call.sector ∧
      call.sector ≤ geometry.sectors then
    some ((call.cylinder * geometry.heads + call.dh) * geometry.sectors + (call.sector - 1))
  else none

theorem replyCl_lt (geometry : Geometry) : geometry.replyCl < 2 ^ 8 := by
  have cylinders := geometry.cylinders_le
  have sectors := geometry.sectors_le
  unfold replyCl
  omega

theorem replyDh_lt (geometry : Geometry) : geometry.replyDh < 2 ^ 8 := by
  have heads := geometry.heads_le
  unfold replyDh
  omega

end Geometry

/-- The firmware answers for a drive: it reports the geometry, and whenever a sector
is on the drive it delivers what the disk holds there.  A call may change the hidden
state, as long as the firmware stays ready; of a call for any other sector nothing
is asked. -/
structure ServesDisk {Hidden : Type} (int13 : DiskFirmware Hidden) (ready : Hidden -> Prop)
    (geometry : Geometry) (disk : Disk) : Prop where
  reports : forall hidden, ready hidden ->
    (int13 hidden .parameters).1.carry = false ∧
      (int13 hidden .parameters).1.cl.toNat = geometry.replyCl ∧
      (int13 hidden .parameters).1.dh.toNat = geometry.replyDh ∧
      ready (int13 hidden .parameters).2
  delivers : forall hidden call lba, ready hidden -> geometry.lbaOf call = some lba ->
    (int13 hidden (.read call)).1.carry = false ∧
      (int13 hidden (.read call)).1.stored = disk.bytes (lba * sectorBytes) sectorBytes ∧
      ready (int13 hidden (.read call)).2

section Sectors

variable {geometry : Geometry} {lba : Nat}

theorem DiskCall.Addresses.lbaOf {call : DiskCall}
    (addresses : call.Addresses geometry.heads geometry.sectors lba)
    (onDisk : call.cylinder < geometry.cylinders) : geometry.lbaOf call = some lba := by
  have found : geometry.lbaOf call =
      some ((call.cylinder * geometry.heads + call.dh) * geometry.sectors + (call.sector - 1)) :=
    if_pos ⟨onDisk, addresses.head, addresses.sector_pos, addresses.sector_le⟩
  rw [found, addresses.lba]

theorem lbaOf_readOneSectorChs (heads : geometry.heads ≤ 255) (low : lba < fsBaseLba)
    (segment : Nat) :
    Exists fun call =>
      readOneSectorChs (getDiskGeometry geometry.replyCl geometry.replyDh) lba segment =
          some call ∧
        geometry.lbaOf call = some lba ∧ call.address = segment * 16 := by
  have fewCylinders := geometry.cylinders_le
  have count : geometry.replyDh + 1 = geometry.heads := Nat.sub_add_cancel geometry.heads_pos
  have onDisk : lba / (geometry.heads * geometry.sectors) < geometry.cylinders :=
    Nat.div_lt_of_lt_mul (by
      rw [Nat.mul_comm]
      exact Nat.lt_of_lt_of_le low geometry.covers)
  rcases @readOneSectorChs_addresses geometry.replyDh geometry.sectors
    ((geometry.cylinders - 1) / 2 ^ 8) lba (by omega) geometry.sectors_pos geometry.sectors_le
    (by rw [count]; omega) segment with ⟨call, computed, addresses, cylinder, address⟩
  rw [count] at addresses cylinder
  exact ⟨call, computed, addresses.lbaOf (by rw [cylinder]; exact onDisk), address⟩

end Sectors

/-! ## The run -/

/-- What a call transfers: which sector of the drive, and where to. -/
def Geometry.transfer (geometry : Geometry) (call : DiskCall) : Option Nat × Nat :=
  (geometry.lbaOf call, call.address)

/-- The transfers that are meant: the sectors after the boot sector, once each and in
order, each behind the one before it. -/
def placements (count : Nat) : List (Option Nat × Nat) :=
  (List.range count).map fun index => (some (1 + index), kernelLoadAddr + sectorBytes * index)

/-- Memory with the first sectors of the kernel in place. -/
def withKernel (disk : Disk) (count : Nat) (memory : ByteMemory) : ByteMemory :=
  memory.storeBytes kernelLoadAddr (disk.bytes sectorBytes (sectorBytes * count))

theorem placements_succ (count : Nat) :
    placements (count + 1) =
      placements count ++ [(some (1 + count), kernelLoadAddr + sectorBytes * count)] := by
  rw [placements, List.range_succ, List.map_append]
  rfl

theorem withKernel_succ (disk : Disk) (count : Nat) (memory : ByteMemory) :
    withKernel disk (count + 1) memory =
      (withKernel disk count memory).storeBytes (kernelLoadAddr + sectorBytes * count)
        (disk.bytes ((1 + count) * sectorBytes) sectorBytes) := by
  have source : (1 + count) * sectorBytes = sectorBytes + sectorBytes * count := by
    rw [Nat.add_mul, Nat.one_mul, Nat.mul_comm]
  rw [withKernel, withKernel, Nat.mul_succ, Disk.bytes_append, ByteMemory.storeBytes_append,
    Disk.length_bytes, source]

section Run

variable {Hidden : Type} {int13 : DiskFirmware Hidden} {ready : Hidden -> Prop}
  {geometry : Geometry} {disk : Disk} {memory : ByteMemory} {loader : Loader Hidden}
  {hidden : Hidden} {count : Nat}

/-- The state after some passes: the variables have moved on by as many sectors,
memory holds these sectors, and the transfers so far are the ones that were
meant. -/
structure Loaded (ready : Hidden -> Prop) (geometry : Geometry) (disk : Disk)
    (memory : ByteMemory) (count : Nat) (loader : Loader Hidden) : Prop where
  lba : loader.currentLba = 1 + count
  segment : loader.currentSegment = (kernelLoadSegment + 32 * count) % 2 ^ 16
  memory : loader.memory = withKernel disk count memory
  ready : ready loader.hidden
  reads : loader.reads.map geometry.transfer = placements count

/-- One pass, as long as the segment does not wrap.  From 1920 sectors on it would be
zero, and the next sector would go to the interrupt vectors. -/
theorem readLoop_loaded (serves : ServesDisk int13 ready geometry disk)
    (heads : geometry.heads ≤ 255) (inSegments : count < 1920)
    (loaded : Loaded ready geometry disk memory count loader)
    (more : loader.sectorsRemaining ≠ 0) :
    Exists fun next =>
      readLoop int13 (getDiskGeometry geometry.replyCl geometry.replyDh) loader = .again next ∧
        Loaded ready geometry disk memory (count + 1) next ∧
        next.sectorsRemaining = loader.sectorsRemaining - 1 := by
  have low : loader.currentLba < fsBaseLba := by
    rw [loaded.lba]
    unfold fsBaseLba
    omega
  rcases lbaOf_readOneSectorChs heads low loader.currentSegment with
    ⟨call, computed, addressed, placed⟩
  rcases serves.delivers loader.hidden call _ loaded.ready addressed with
    ⟨carry, stored, stillReady⟩
  have target : call.address = kernelLoadAddr + sectorBytes * count := by
    rw [placed, loaded.segment]
    unfold kernelLoadSegment kernelLoadAddr sectorBytes
    omega
  rw [readLoop, if_neg more, computed]
  simp only [carry, Bool.false_eq_true, if_false]
  refine ⟨_, rfl, ⟨?_, ?_, ?_, stillReady, ?_⟩, rfl⟩
  · show (loader.currentLba + 1) % 2 ^ 32 = 1 + (count + 1)
    rw [loaded.lba]
    omega
  · show (loader.currentSegment + 32) % 2 ^ 16 = (kernelLoadSegment + 32 * (count + 1)) % 2 ^ 16
    rw [loaded.segment]
    omega
  · rw [stored, target, loaded.memory, loaded.lba, withKernel_succ]
  · rw [List.map_append, loaded.reads, List.map_singleton, Geometry.transfer, addressed, target,
      loaded.lba, placements_succ]

/-- The loop places the rest of the kernel. -/
theorem loadLoop_loaded (serves : ServesDisk int13 ready geometry disk)
    (heads : count = 0 ∨ geometry.heads ≤ 255) (inSegments : count ≤ 1920)
    (loader : Loader Hidden) (done : Nat) (loaded : Loaded ready geometry disk memory done loader)
    (rest : done + loader.sectorsRemaining = count) :
    Exists fun final =>
      (loadLoop int13 (getDiskGeometry geometry.replyCl geometry.replyDh)).run loader =
          .done final ∧
        Loaded ready geometry disk memory count final := by
  refine (loadLoop int13 (getDiskGeometry geometry.replyCl geometry.replyDh)).run_rule
    (fun loader outcome => forall done, Loaded ready geometry disk memory done loader ->
      done + loader.sectorsRemaining = count ->
        Exists fun final =>
          outcome = .done final ∧ Loaded ready geometry disk memory count final)
    ?_ ?_ loader done loaded rest
  · intro loader outcome left done loaded rest
    by_cases more : loader.sectorsRemaining = 0
    · have ended : readLoop int13 (getDiskGeometry geometry.replyCl geometry.replyDh) loader =
          .leave outcome := left
      rw [readLoop, if_pos more] at ended
      cases ended
      rw [more, Nat.add_zero] at rest
      exact ⟨loader, rfl, rest ▸ loaded⟩
    · rcases readLoop_loaded serves (heads.resolve_left (by omega)) (by omega) loaded more with
        ⟨next, pass, _⟩
      exact absurd (left.symm.trans pass) (fun same => nomatch same)
  · intro loader next outcome pass holds done loaded rest
    have more : loader.sectorsRemaining ≠ 0 := Nat.ne_of_gt
      (Nat.lt_of_le_of_lt (Nat.zero_le _) (readLoop_again pass))
    rcases readLoop_loaded serves (heads.resolve_left (by omega)) (by omega) loaded more with
      ⟨next', pass', loaded', fewer⟩
    cases pass.symm.trans pass'
    exact holds (done + 1) loaded' (by omega)

theorem loadKernel_eq (serves : ServesDisk int13 ready geometry disk) (isReady : ready hidden)
    (count : Nat) (memory : ByteMemory) :
    loadKernel int13 hidden count memory =
      (loadLoop int13 (getDiskGeometry geometry.replyCl geometry.replyDh)).run {
        sectorsRemaining := count % 2 ^ 16
        currentLba := 1
        currentSegment := kernelLoadSegment
        memory := memory
        hidden := (int13 hidden .parameters).2
        reads := [] } := by
  rcases serves.reports hidden isReady with ⟨carry, cl, dh, _⟩
  simp only [loadKernel, carry, cl, dh, Bool.false_eq_true, if_false]

theorem loadKernel_loaded (serves : ServesDisk int13 ready geometry disk) (isReady : ready hidden)
    (heads : count = 0 ∨ geometry.heads ≤ 255) (inSegments : count ≤ 1920)
    (memory : ByteMemory) :
    Exists fun final => loadKernel int13 hidden count memory = .done final ∧
      Loaded ready geometry disk memory count final := by
  rw [loadKernel_eq serves isReady]
  apply loadLoop_loaded serves heads inSegments _ 0
  · exact ⟨rfl, rfl, (ByteMemory.storeBytes_nil memory kernelLoadAddr).symm,
      (serves.reports hidden isReady).2.2.2, rfl⟩
  · show 0 + count % 2 ^ 16 = count
    omega

theorem loadKernel_divideError (serves : ServesDisk int13 ready geometry disk)
    (isReady : ready hidden) (heads : geometry.heads = 256) (some : count ≠ 0)
    (small : count < fsBaseLba) (memory : ByteMemory) :
    loadKernel int13 hidden count memory = .divideError := by
  have none : (getDiskGeometry geometry.replyCl geometry.replyDh).sectorsPerCylinder = 0 := by
    rw [Geometry.replyDh, heads]
    exact getDiskGeometry_overflow _
  unfold fsBaseLba at small
  have pass : forall loader : Loader Hidden, loader.sectorsRemaining ≠ 0 ->
      readLoop int13 (getDiskGeometry geometry.replyCl geometry.replyDh) loader =
        .leave .divideError := by
    intro loader more
    rw [readLoop, if_neg more, readOneSectorChs, if_pos none]
  rw [loadKernel_eq serves isReady]
  refine (loadLoop int13 (getDiskGeometry geometry.replyCl geometry.replyDh)).run_rule
    (fun loader outcome => loader.sectorsRemaining ≠ 0 -> outcome = .divideError) ?_ ?_ _ ?_
  · intro loader outcome left more
    exact Pass.leave.inj (left.symm.trans (pass loader more))
  · intro loader next outcome again _ more
    exact absurd (again.symm.trans (pass loader more)) (fun same => nomatch same)
  · show count % 2 ^ 16 ≠ 0
    omega

/-! ## Where the kernel may go -/

/-- What the loader must not touch, each area with its end: the interrupt vectors, the
memory map, the boot sector itself, and the window of the video card and the ROMs. -/
def keptAreas : List (Nat × Nat) :=
  [(0, 0x400), (memmapAddr, memmapAddr + 8 + memmapMaxEntries * memmapEntrySize),
    (0x7c00, 0x7e00), (0xa0000, 0x100000)]

/-- A sector in memory and an area have no byte in common. -/
def Clear (address : Nat) (area : Nat × Nat) : Prop :=
  address + sectorBytes ≤ area.1 ∨ area.2 ≤ address

/-- The loader has read the sectors after the boot sector once each and in order, each
to its own place; memory holds them there and is otherwise as it was; and no place
touches an area to be kept. -/
structure Placed (geometry : Geometry) (disk : Disk) (count : Nat) (memory : ByteMemory)
    (loader : Loader Hidden) : Prop where
  reads : loader.reads.map geometry.transfer = placements count
  memory : loader.memory = withKernel disk count memory
  clear : forall call, call ∈ loader.reads ->
    forall area, area ∈ keptAreas -> Clear call.address area

/-- Between the load address and the video memory there is room for 1152 sectors;
the other areas lie below. -/
theorem placements_clear_iff (count : Nat) :
    (forall transfer, transfer ∈ placements count ->
      forall area, area ∈ keptAreas -> Clear transfer.2 area) ↔ count ≤ 1152 := by
  constructor
  · intro clear
    by_contra many
    have member : (some (1 + 1152), kernelLoadAddr + sectorBytes * 1152) ∈ placements count :=
      List.mem_map.mpr ⟨1152, List.mem_range.mpr (by omega), rfl⟩
    have window : ((0xa0000, 0x100000) : Nat × Nat) ∈ keptAreas := by decide
    have apart := clear _ member _ window
    unfold Clear kernelLoadAddr sectorBytes at apart
    omega
  · intro few transfer member area kept
    rcases List.mem_map.mp member with ⟨index, inRange, placed⟩
    have below := List.mem_range.mp inRange
    cases placed
    unfold keptAreas at kept
    unfold Clear kernelLoadAddr sectorBytes
    simp only [List.mem_cons, List.not_mem_nil, or_false] at kept
    rcases kept with rfl | rfl | rfl | rfl
    · right
      omega
    · right
      unfold memmapAddr memmapMaxEntries memmapEntrySize
      omega
    · right
      omega
    · left
      omega

theorem reads_clear_iff (reads : loader.reads.map geometry.transfer = placements count) :
    (forall call, call ∈ loader.reads -> forall area, area ∈ keptAreas ->
      Clear call.address area) ↔ count ≤ 1152 := by
  rw [← placements_clear_iff, ← reads, List.forall_mem_map]
  rfl

/-- Of the kernels that the build accepts, the boot loader places those of up to 1152
sectors, on every drive whose BIOS reports at most 255 heads.  This is so for every
firmware that serves the drive. -/
theorem kernel_placed_iff (serves : ServesDisk int13 ready geometry disk)
    (isReady : ready hidden) (accepted : count < fsBaseLba) (memory : ByteMemory) :
    (Exists fun loader => loadKernel int13 hidden count memory = .done loader ∧
        Placed geometry disk count memory loader) ↔
      count ≤ 1152 ∧ (count = 0 ∨ geometry.heads ≤ 255) := by
  constructor
  · rintro ⟨loader, ran, placed⟩
    refine ⟨(reads_clear_iff placed.reads).mp placed.clear, ?_⟩
    by_contra neither
    have fewHeads := geometry.heads_le
    have failed := loadKernel_divideError serves isReady (by omega) (by omega) accepted memory
    rw [failed] at ran
    cases ran
  · rintro ⟨few, heads⟩
    rcases loadKernel_loaded serves isReady heads (by omega) memory with ⟨final, ran, loaded⟩
    exact ⟨final, ran, loaded.reads, loaded.memory, (reads_clear_iff loaded.reads).mpr few⟩

end Run

/-- A firmware without any state of its own, which refuses exactly the sectors that
are not on the drive. -/
def Geometry.bios (geometry : Geometry) (disk : Disk) : DiskFirmware Unit
  | hidden, .parameters =>
      (⟨false, UInt8.ofNat geometry.replyCl, UInt8.ofNat geometry.replyDh, []⟩, hidden)
  | hidden, .read call =>
      match geometry.lbaOf call with
      | none => (⟨true, 0, 0, []⟩, hidden)
      | some lba => (⟨false, 0, 0, disk.bytes (lba * sectorBytes) sectorBytes⟩, hidden)

theorem servesDisk_bios (geometry : Geometry) (disk : Disk) :
    ServesDisk (geometry.bios disk) (fun _ => True) geometry disk where
  reports := fun _ _ => ⟨rfl, UInt8.toNat_ofNat_of_lt geometry.replyCl_lt,
    UInt8.toNat_ofNat_of_lt geometry.replyDh_lt, trivial⟩
  delivers := by
    intro hidden call lba _ addressed
    simp only [Geometry.bios, addressed, and_self]

def smallDisk : Geometry where
  cylinders := 20
  heads := 16
  sectors := 63
  cylinders_le := by decide
  heads_pos := by decide
  heads_le := by decide
  sectors_pos := by decide
  sectors_le := by decide
  covers := by decide

/-- The largest kernel that fits. -/
theorem kernel_placed_full :
    (1152 < fsBaseLba) ∧
      Exists fun loader =>
        loadKernel (smallDisk.bios fun _ => 0x90) () 1152 (fun _ => 0) = .done loader ∧
          Placed smallDisk (fun _ => 0x90) 1152 (fun _ => 0) loader :=
  ⟨by decide, (kernel_placed_iff (servesDisk_bios smallDisk _) trivial (by decide) _).mpr
    ⟨by decide, .inr (by decide)⟩⟩

/-- The build accepts one sector more, and the loader puts it into video memory. -/
theorem kernel_reaches_window :
    (1153 < fsBaseLba) ∧
      Exists fun loader =>
        loadKernel (smallDisk.bios fun _ => 0x90) () 1153 (fun _ => 0) = .done loader ∧
          (some 1153, 0xa0000) ∈ loader.reads.map smallDisk.transfer ∧
          ¬ Placed smallDisk (fun _ => 0x90) 1153 (fun _ => 0) loader := by
  rcases loadKernel_loaded (servesDisk_bios smallDisk fun _ => 0x90) trivial (.inr (by decide))
    (show 1153 ≤ 1920 by decide) (fun _ => 0) with ⟨loader, ran, loaded⟩
  refine ⟨by decide, loader, ran, ?_, ?_⟩
  · rw [loaded.reads]
    exact List.mem_map.mpr ⟨1152, List.mem_range.mpr (by decide), rfl⟩
  · intro placed
    exact absurd ((reads_clear_iff placed.reads).mp placed.clear) (by decide)

end Boot
end Goatos
