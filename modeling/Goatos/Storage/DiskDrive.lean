import Goatos.Storage.Pio

namespace Goatos
namespace Storage

open Library

/-!
# Drives that hold a disk

Elsewhere a reader that returns the disk is assumed.  Here it is shown of the
driver, for every drive that keeps to the protocol of READ SECTORS.  Such a drive
may take its time: how many polls it lets pass before a sector, and what it
answers to them, is its own affair, as long as it is ready within the limit.

The drive is bound to the protocol only towards a host that keeps to it too.  A
host that pulls a word of a sector that it has not seen to be ready, or that
writes to a register in the middle of a transfer, is promised nothing until the
next command.
-/

/-! ## The protocol -/

/-- What a history says of the transfer in progress: the command, the number of
words pulled since, and whether the sector they belong to was seen to be ready. -/
structure Service where
  registers : TaskFile
  request : Option Request
  pulled : Nat
  ready : Bool

def Service.access (service : Service) : PortAccess -> Service
  | .wrote port value =>
      if port = statusCmdPort then
        ⟨service.registers, some (service.registers.request value), 0, false⟩
      else ⟨service.registers.write port value, none, 0, false⟩
  | .readByte port value =>
      if port = statusCmdPort then { service with ready := service.ready || sectorReady value }
      else service
  | .readWord port _ =>
      if port = dataPort then
        if service.ready = true then
          { service with pulled := service.pulled + 1, ready := (service.pulled + 1) % 256 ≠ 0 }
        else ⟨service.registers, none, 0, false⟩
      else service

def serviceAfter (history : PortHistory) : Service :=
  history.foldl Service.access ⟨⟨0, 0, 0, 0, 0⟩, none, 0, false⟩

/-- Two bytes of the disk as the data port gives them, the first one low. -/
def Disk.word (disk : Disk) (address : Nat) : UInt16 :=
  UInt16.ofNat ((disk address).toNat + 2 ^ 8 * (disk (address + 1)).toNat)

/-- The drive was told to read some sectors, and so many words were pulled since. -/
structure Transferring (history : PortHistory) (lba count pulled : Nat) : Prop where
  command : (serviceAfter history).request = some (readRequest lba count)
  progress : (serviceAfter history).pulled = pulled

/-- The drive has a part of these sectors still to deliver, and has all of them on
its disk.  This is when it is bound to the protocol. -/
structure Serving (sectors : Nat) (history : PortHistory) (lba count pulled : Nat) : Prop
    extends Transferring history lba count pulled where
  onDisk : lba + count ≤ sectors
  left : pulled < 256 * count

/-- The drive is there, holds so many sectors of the disk, and delivers them on
command.  It is ready for a sector within the limit, stays so until the sector is
pulled, gives its words in order, and shows no error when it is not busy. -/
structure Conforming (drive : PortDevice) (disk : Disk) (sectors : Nat) : Prop where
  present : forall history, drive.byte history statusCmdPort ≠ 0xff
  raises : forall {history lba count pulled}, Serving sectors history lba count pulled ->
    Exists fun polls => polls < spinLimit ∧
      sectorReady (drive.byte (polled drive polls history) statusCmdPort) = true
  sound : forall {history lba count pulled}, Serving sectors history lba count pulled ->
    busy (drive.byte history statusCmdPort) = false ->
      failed (drive.byte history statusCmdPort) = false
  stays : forall {history lba count pulled}, Serving sectors history lba count pulled ->
    (serviceAfter history).ready = true -> sectorReady (drive.byte history statusCmdPort) = true
  supplies : forall {history lba count pulled}, Serving sectors history lba count pulled ->
    (serviceAfter history).ready = true ->
      drive.word history dataPort = disk.word (lba * sectorSize + 2 * pulled)

/-- The drive is ready for a command within the limit.  What it does before that is
left open. -/
def ClearsBusy (drive : PortDevice) (history : PortHistory) : Prop :=
  Exists fun polls => polls < spinLimit ∧
    busy (drive.byte (polled drive polls history) statusCmdPort) = false

/-! ## What the accesses of the driver do to the transfer -/

theorem serviceAfter_append (history accesses : PortHistory) :
    serviceAfter (history ++ accesses) = accesses.foldl Service.access (serviceAfter history) :=
  List.foldl_append

theorem serviceAfter_status (history : PortHistory) (status : UInt8) :
    serviceAfter (history ++ [.readByte statusCmdPort status]) =
      { serviceAfter history with
        ready := (serviceAfter history).ready || sectorReady status } := by
  rw [serviceAfter_append]
  rfl

/-- The six writes put the drive into the transfer that was meant, whatever it was
doing before. -/
theorem transferring_issueRead {lba count : Nat} (small : lba < 2 ^ 28)
    (positive : 0 < count) (few : count ≤ 256) (history : PortHistory) :
    Transferring (history ++ issueRead lba count []) lba count 0 := by
  have started : serviceAfter (history ++ issueRead lba count []) =
      ⟨writtenRegisters lba count, some ((writtenRegisters lba count).request cmdReadSectors), 0,
        false⟩ := by
    rw [serviceAfter_append]
    rfl
  constructor
  · rw [started, writtenRegisters_request small positive few]
  · rw [started]

theorem Transferring.status {history : PortHistory} {lba count pulled : Nat}
    (transferring : Transferring history lba count pulled) (status : UInt8) :
    Transferring (history ++ [.readByte statusCmdPort status]) lba count pulled := by
  constructor
  · rw [serviceAfter_status]
    exact transferring.command
  · rw [serviceAfter_status]
    exact transferring.progress

theorem Transferring.polled {history : PortHistory} {lba count pulled : Nat}
    (transferring : Transferring history lba count pulled) (drive : PortDevice) (polls : Nat) :
    Transferring (polled drive polls history) lba count pulled := by
  induction polls with
  | zero => rwa [polled_zero]
  | succ polls inductionHypothesis =>
      rw [polled_succ_last]
      exact inductionHypothesis.status _

/-- Pulling a word of a sector that was seen to be ready moves the transfer on by
one. -/
theorem Transferring.word {history : PortHistory} {lba count pulled : Nat}
    (transferring : Transferring history lba count pulled)
    (ready : (serviceAfter history).ready = true) (value : UInt16) :
    Transferring (history ++ [.readWord dataPort value]) lba count (pulled + 1) ∧
      (serviceAfter (history ++ [.readWord dataPort value])).ready =
        decide ((pulled + 1) % 256 ≠ 0) := by
  have next : serviceAfter (history ++ [.readWord dataPort value]) =
      { serviceAfter history with
        pulled := (serviceAfter history).pulled + 1,
        ready := ((serviceAfter history).pulled + 1) % 256 ≠ 0 } := by
    rw [serviceAfter_append]
    exact if_pos ready
  refine ⟨⟨?_, ?_⟩, ?_⟩
  · rw [next]
    exact transferring.command
  · rw [next, transferring.progress]
  · rw [next, transferring.progress]

theorem wordBytes_word (disk : Disk) (address : Nat) :
    wordBytes (disk.word address) = disk.bytes address 2 := by
  have first := (disk address).toNat_lt
  have second := (disk (address + 1)).toNat_lt
  have value : (disk.word address).toNat =
      (disk address).toNat + 2 ^ 8 * (disk (address + 1)).toNat := by
    apply UInt16.toNat_ofNat_of_lt'
    unfold UInt16.size
    omega
  have low : (disk.word address).toUInt8 = disk address := by
    rw [← UInt8.toNat_inj, UInt16.toNat_toUInt8, value]
    omega
  have high : (disk.word address >>> 8).toUInt8 = disk (address + 1) := by
    have shift : (8 : UInt16).toNat % 16 = 8 := by decide
    rw [← UInt8.toNat_inj, UInt16.toNat_toUInt8, UInt16.toNat_shiftRight, value, shift,
      Nat.shiftRight_eq_div_pow]
    omega
  rw [wordBytes, low, high]
  rfl

/-! ## The driver on such a drive -/

section Driver

variable (mode : Overflow) {drive : PortDevice} {disk : Disk} {sectors : Nat}
  (conforming : Conforming drive disk sectors)

include conforming

theorem waitWhile_conforming {history : PortHistory} (idle : ClearsBusy drive history) :
    Exists fun reached => waitWhile drive statusBsy statusBsy history = (.ok (), reached) := by
  have accepts : forall polls result,
      busyVerdict (drive.byte (polled drive polls history) statusCmdPort) = some result ->
        result = .ok () := by
    intro polls result decided
    cases result with
    | ok _ => rfl
    | error error => exact absurd (busyVerdict_error decided) (conforming.present _)
  have decides : Exists fun polls => polls < spinLimit ∧
      busyVerdict (drive.byte (polled drive polls history) statusCmdPort) ≠ none := by
    rcases idle with ⟨polls, inside, calm⟩
    refine ⟨polls, inside, ?_⟩
    intro undecided
    rw [busyVerdict_none undecided] at calm
    cases calm
  rcases poll_accepts drive accepts decides with ⟨polls, _, ended⟩
  exact ⟨_, ended⟩

/-- The wait for a sector succeeds within its limit, and leaves the transfer where
it was with the sector seen to be ready. -/
theorem waitForDrq_conforming {history : PortHistory} {lba count pulled : Nat}
    (serving : Serving sectors history lba count pulled) :
    Exists fun reached => waitForDrq drive history = (.ok (), reached) ∧
      Transferring reached lba count pulled ∧ (serviceAfter reached).ready = true := by
  have accepts : forall polls result,
      drqVerdict (drive.byte (polled drive polls history) statusCmdPort) = some result ->
        result = .ok () := by
    intro polls result decided
    have still : Serving sectors (polled drive polls history) lba count pulled :=
      ⟨serving.polled drive polls, serving.onDisk, serving.left⟩
    cases result with
    | ok _ => rfl
    | error error =>
        rcases drqVerdict_error decided with floating | ⟨idle, found⟩
        · exact absurd floating (conforming.present _)
        · rw [conforming.sound still idle] at found
          cases found
  have decides : Exists fun polls => polls < spinLimit ∧
      drqVerdict (drive.byte (polled drive polls history) statusCmdPort) ≠ none := by
    rcases conforming.raises serving with ⟨polls, inside, raised⟩
    refine ⟨polls, inside, ?_⟩
    intro undecided
    rw [drqVerdict_none undecided] at raised
    cases raised
  rcases poll_accepts drive accepts decides with ⟨polls, accepted, ended⟩
  refine ⟨_, ended, serving.polled drive _, ?_⟩
  rw [polled_succ_last, serviceAfter_status, drqVerdict_ok accepted, Bool.or_true]

theorem readWords_conforming {lba count sector : Nat} (onDisk : lba + count ≤ sectors)
    (inside : sector < count) {remaining pulled : Nat} {history : PortHistory}
    (position : pulled + remaining = 256 * (sector + 1)) (part : remaining ≤ 256)
    (transferring : Transferring history lba count pulled)
    (ready : 0 < remaining -> (serviceAfter history).ready = true) :
    Exists fun reached => readWords drive remaining history =
        (disk.bytes (lba * sectorSize + 2 * pulled) (2 * remaining), reached) ∧
      Transferring reached lba count (256 * (sector + 1)) := by
  induction remaining generalizing pulled history with
  | zero =>
      rw [Nat.add_zero] at position
      exact ⟨history, rfl, position ▸ transferring⟩
  | succ remaining inductionHypothesis =>
      have set := ready (Nat.succ_pos _)
      have given : drive.word history dataPort = disk.word (lba * sectorSize + 2 * pulled) :=
        conforming.supplies ⟨transferring, onDisk, by omega⟩ set
      rcases transferring.word set (drive.word history dataPort) with ⟨advanced, more⟩
      have stillSet : 0 < remaining -> (serviceAfter
          (history ++ [.readWord dataPort (drive.word history dataPort)])).ready = true := by
        intro left
        rw [more, decide_eq_true_eq]
        omega
      rcases inductionHypothesis (by omega) (by omega) advanced stillSet with
        ⟨reached, rest, finished⟩
      refine ⟨reached, ?_, finished⟩
      have bytes : disk.bytes (lba * sectorSize + 2 * pulled) (2 * (remaining + 1)) =
          disk.bytes (lba * sectorSize + 2 * pulled) 2 ++
            disk.bytes (lba * sectorSize + 2 * (pulled + 1)) (2 * remaining) := by
        rw [Nat.mul_succ, Nat.add_comm _ 2, Disk.bytes_append, Nat.add_assoc, ← Nat.mul_succ]
      simp only [readWords, PortDevice.inw]
      rw [rest, given, wordBytes_word, bytes]

theorem readSector_conforming {lba count sector : Nat} (onDisk : lba + count ≤ sectors)
    (inside : sector < count) (few : count ≤ 256) {buf : List UInt8} {history : PortHistory}
    (room : (sector + 1) * sectorSize ≤ buf.length)
    (transferring : Transferring history lba count (256 * sector)) :
    Exists fun reached => readSector mode drive sector buf history =
        some (.ok (), overwrite buf (sector * sectorSize)
          (disk.bytes ((lba + sector) * sectorSize) sectorSize), reached) ∧
      Transferring reached lba count (256 * (sector + 1)) := by
  have left : 256 * sector < 256 * count := by omega
  rcases waitForDrq_conforming conforming ⟨transferring, onDisk, left⟩ with
    ⟨seen, waited, still, ready⟩
  have serving : Serving sectors seen lba count (256 * sector) := ⟨still, onDisk, left⟩
  have raised := conforming.stays serving ready
  have idle : busy (drive.byte seen statusCmdPort) = false := by
    rw [sectorReady, Bool.and_eq_true, Bool.not_eq_true'] at raised
    exact raised.1
  have calm : drive.byte seen statusCmdPort &&& (statusErr ||| statusDf) = 0 := by
    have sound := conforming.sound serving idle
    rwa [failed, decide_eq_false_iff_not, ne_eq, not_not] at sound
  have set : (serviceAfter (seen ++
      [.readByte statusCmdPort (drive.byte seen statusCmdPort)])).ready = true := by
    rw [serviceAfter_status, ready, Bool.true_or]
  rcases readWords_conforming conforming onDisk inside (show 256 * sector + 256 = _ by omega)
    (Nat.le_refl _) (still.status (drive.byte seen statusCmdPort)) (fun _ => set) with
    ⟨reached, pulled, finished⟩
  refine ⟨reached, ?_, finished⟩
  have start : lba * sectorSize + 2 * (256 * sector) = (lba + sector) * sectorSize := by
    unfold sectorSize
    omega
  rw [readSector_pulls mode drive waited calm room (Nat.lt_of_lt_of_le inside few)]
  simp only [pulled, start]
  rfl

/-- The loop over the sectors, by induction on those that remain.  Each pass pulls
one sector, which the drive gives in order. -/
theorem readSectors_conforming {lba count remaining sector : Nat} (onDisk : lba + count ≤ sectors)
    (few : count ≤ 256) (all : sector + remaining = count) {buf : List UInt8}
    {history : PortHistory} (room : count * sectorSize ≤ buf.length)
    (transferring : Transferring history lba count (256 * sector)) :
    Exists fun reached => readSectors mode drive remaining sector buf history =
      some (.ok (), overwrite buf (sector * sectorSize)
        (disk.bytes ((lba + sector) * sectorSize) (remaining * sectorSize)), reached) := by
  induction remaining generalizing sector buf history with
  | zero =>
      refine ⟨history, ?_⟩
      rw [readSectors, Nat.zero_mul, overwrite]
      simp [Disk.bytes]
  | succ remaining inductionHypothesis =>
      have fits : (sector + 1) * sectorSize ≤ buf.length :=
        Nat.le_trans (Nat.mul_le_mul_right _ (by omega)) room
      have start : sector * sectorSize + sectorSize = (sector + 1) * sectorSize := by
        rw [Nat.add_mul, Nat.one_mul]
      have stored : sector * sectorSize +
          (disk.bytes ((lba + sector) * sectorSize) sectorSize).length ≤ buf.length := by
        rw [Disk.length_bytes, start]
        exact fits
      rcases readSector_conforming mode conforming onDisk (show sector < count by omega) few fits
        transferring with ⟨middle, passed, further⟩
      rcases inductionHypothesis (by omega) (by rw [length_overwrite stored]; exact room) further
        with ⟨reached, rest⟩
      have joined := overwrite_overwrite
        (disk.bytes ((lba + sector) * sectorSize) sectorSize)
        (disk.bytes ((lba + (sector + 1)) * sectorSize) (remaining * sectorSize))
        (show sector * sectorSize ≤ buf.length by omega)
      have next : (lba + (sector + 1)) * sectorSize = (lba + sector) * sectorSize + sectorSize := by
        rw [← Nat.add_assoc, Nat.add_mul _ 1, Nat.one_mul]
      refine ⟨reached, ?_⟩
      rw [readSectors, passed]
      simp only [Option.bind_eq_bind, Option.bind_some]
      rw [Disk.length_bytes, start] at joined
      rw [rest, joined, next, ← Disk.bytes_append, Nat.add_mul remaining, Nat.one_mul,
        Nat.add_comm (remaining * sectorSize)]

/-- The whole transfer: after the wait, the six writes and the loop, the buffer
holds the sectors of the disk. -/
theorem readPio_conforming {history : PortHistory} (idle : ClearsBusy drive history) {lba : Nat}
    {buf : List UInt8} (valid : validRead lba buf.length = true)
    (onDisk : lba + buf.length / sectorSize ≤ sectors) :
    Exists fun reached => readPio mode drive history lba (buf.length / sectorSize) buf =
      some (.ok (), disk.bytes (lba * sectorSize) buf.length, reached) := by
  rcases validRead_sectors valid with ⟨whole, positive, few, small⟩
  rcases waitWhile_conforming conforming idle with ⟨waited, ready⟩
  rcases readSectors_conforming mode conforming onDisk few (Nat.zero_add _) (Nat.le_of_eq whole)
    (transferring_issueRead small positive few waited) with ⟨reached, ran⟩
  refine ⟨reached, ?_⟩
  rw [readPio, ready]
  simp only
  rw [issueRead_eq, ran, Nat.zero_mul, Nat.add_zero, whole,
    overwrite_all (Disk.length_bytes disk _ _)]

end Driver

/-! ## A drive that is always ready -/

/-- The registers of the drive, and the byte of the disk that its data port gives
next. -/
structure DriveState where
  registers : TaskFile
  next : Nat

def DriveState.access (state : DriveState) : PortAccess -> DriveState
  | .wrote port value =>
      if port = statusCmdPort then { state with next := state.registers.lba * sectorSize }
      else { state with registers := state.registers.write port value }
  | .readByte _ _ => state
  | .readWord port _ => if port = dataPort then { state with next := state.next + 2 } else state

def driveState (history : PortHistory) : DriveState :=
  history.foldl DriveState.access ⟨⟨0, 0, 0, 0, 0⟩, 0⟩

def statusReady : UInt8 := 0x40 ||| statusDrq

/-- A drive that keeps to the protocol and is never busy, so that the hypotheses on
drives can be met. -/
def Disk.drive (disk : Disk) : PortDevice where
  byte := fun _ _ => statusReady
  word := fun history _ => disk.word (driveState history).next

/-- The state of the drive agrees with the transfer in progress. -/
structure DriveState.Follows (state : DriveState) (service : Service) : Prop where
  registers : state.registers = service.registers
  next : forall request, service.request = some request ->
    state.next = request.lba * sectorSize + 2 * service.pulled

theorem DriveState.Follows.access {state : DriveState} {service : Service}
    (follows : state.Follows service) (access : PortAccess) :
    (state.access access).Follows (service.access access) := by
  cases access with
  | wrote port value =>
      by_cases command : port = statusCmdPort
      · simp only [DriveState.access, Service.access, if_pos command]
        refine ⟨follows.registers, ?_⟩
        intro request started
        cases started
        rw [follows.registers, Nat.mul_zero, Nat.add_zero]
        rfl
      · simp only [DriveState.access, Service.access, if_neg command]
        refine ⟨by rw [follows.registers], ?_⟩
        intro request started
        cases started
  | readByte port value =>
      simp only [DriveState.access, Service.access]
      split
      · exact ⟨follows.registers, follows.next⟩
      · exact follows
  | readWord port value =>
      by_cases data : port = dataPort
      · simp only [DriveState.access, Service.access, if_pos data]
        split
        · refine ⟨follows.registers, ?_⟩
          intro request started
          simp only
          rw [follows.next request started, Nat.mul_succ, Nat.add_assoc]
        · refine ⟨follows.registers, ?_⟩
          intro request started
          cases started
      · simp only [DriveState.access, Service.access, if_neg data]
        exact follows

theorem driveState_follows (history : PortHistory) :
    (driveState history).Follows (serviceAfter history) := by
  refine List.foldl_rel ⟨rfl, fun _ started => nomatch started⟩ ?_
  intro access _ state service follows
  exact follows.access access

theorem Disk.drive_conforming (disk : Disk) (sectors : Nat) :
    Conforming disk.drive disk sectors where
  present := fun _ => show statusReady ≠ 0xff by decide
  raises := fun _ => ⟨0, by decide, show sectorReady statusReady = true by decide⟩
  sound := fun _ _ => show failed statusReady = false by decide
  stays := fun _ _ => show sectorReady statusReady = true by decide
  supplies := by
    intro history lba count pulled serving _
    have next := (driveState_follows history).next _ serving.command
    rw [serving.progress] at next
    exact congrArg disk.word next

theorem Disk.drive_clearsBusy (disk : Disk) (history : PortHistory) :
    ClearsBusy disk.drive history :=
  ⟨0, by decide, show busy statusReady = false by decide⟩

/-- The driver delivers what is on the disk. -/
theorem pio_returns (mode : Overflow) (disk : Disk) : (pio mode disk.drive).Returns disk := by
  intro history lba buf valid
  rcases readPio_conforming mode (disk.drive_conforming _) (disk.drive_clearsBusy history) valid
    (Nat.le_refl _) with ⟨reached, ran⟩
  rw [pio_read valid ran]
  exact ⟨rfl, rfl⟩

/-! ## `read_lba` -/

/-- Sectors that one command can ask for: 1 to 256 of them, at a 28-bit address. -/
def WholeSectors (lba length : Nat) : Prop :=
  lba < 2 ^ 28 ∧ Exists fun count => 1 ≤ count ∧ count ≤ 256 ∧ length = count * 512

theorem validRead_iff (lba length : Nat) :
    validRead lba length = true ↔ WholeSectors lba length := by
  constructor
  · intro valid
    rcases validRead_sectors valid with ⟨whole, positive, few, small⟩
    exact ⟨small, length / sectorSize, positive, few, whole.symm⟩
  · rintro ⟨small, count, positive, few, rfl⟩
    unfold validRead sectorSize
    simp only [Bool.and_eq_true, decide_eq_true_eq, ne_eq]
    omega

/-- On a drive that keeps to the protocol and becomes ready for a command, `read_lba`
fills the buffer with the sectors of the disk.  Other arguments are refused before
any port is touched. -/
theorem read_lba_drains_drive (mode : Overflow) {drive : PortDevice} {disk : Disk} {sectors : Nat}
    (conforming : Conforming drive disk sectors) {history : PortHistory}
    (idle : ClearsBusy drive history) {lba : Nat} (word : lba < 2 ^ 32) (buf : List UInt8) :
    (WholeSectors lba buf.length -> lba + buf.length / sectorSize ≤ sectors ->
      Exists fun reached => (readLba true (pio mode drive)).read history lba buf =
        (.ok (), disk.bytes (lba * sectorSize) buf.length, reached)) ∧
    (¬ WholeSectors lba buf.length -> (readLba true (pio mode drive)).read history lba buf =
      (.error .badArgument, buf, history)) := by
  rw [readLba_eq true _ history word, ← validRead_iff]
  constructor
  · intro valid onDisk
    rcases readPio_conforming mode conforming idle valid onDisk with ⟨reached, ran⟩
    refine ⟨reached, ?_⟩
    rw [if_pos valid, if_pos rfl]
    exact pio_read valid ran
  · intro invalid
    exact if_neg invalid

/-- Two sectors of a disk that is filled with a pattern, and a buffer that no command
fits. -/
theorem read_lba_drains_two_sectors :
    let disk : Disk := fun address => UInt8.ofNat (address / 3)
    (Exists fun reached => (readLba true (pio .panics disk.drive)).read [] 5
        (List.replicate 1024 0) = (.ok (), disk.bytes (5 * sectorSize) 1024, reached)) ∧
      (readLba true (pio .panics disk.drive)).read [] 5 [0, 0] =
        (.error .badArgument, [0, 0], []) := by
  intro disk
  have whole : WholeSectors 5 (List.replicate 1024 (0 : UInt8)).length := by
    rw [List.length_replicate]
    exact ⟨by decide, 2, by decide, by decide, rfl⟩
  have broken : ¬ WholeSectors 5 ([0, 0] : List UInt8).length := by
    rintro ⟨_, count, _, _, length⟩
    rw [List.length_cons, List.length_cons, List.length_nil] at length
    omega
  have conforming := disk.drive_conforming 7
  have idle := disk.drive_clearsBusy []
  constructor
  · have drained := (read_lba_drains_drive .panics conforming idle (show 5 < 2 ^ 32 by decide)
      (List.replicate 1024 0)).1 whole
    rw [List.length_replicate] at drained
    exact drained (by decide)
  · exact (read_lba_drains_drive .panics conforming idle (show 5 < 2 ^ 32 by decide)
      [0, 0]).2 broken

end Storage
end Goatos
