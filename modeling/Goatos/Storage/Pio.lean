import Goatos.Library.PortHistory
import Goatos.Library.Slice
import Goatos.Storage.Ata

namespace Goatos
namespace Storage

open Library

/-!
# Transfers through the controller's ports

`read_pio` writes the address of the first sector into the registers of the
drive, issues the command, and for every sector polls the status register and
pulls 256 words from the data port.  The drive is any device behind these ports.
It may answer anything at any time, so every poll may fail, with the sectors
before it already in the caller's buffer.

The results about a transfer say which accesses it made: the command that the
drive has seen, and the data that the drive has delivered.
-/

/-! ## The ports and the registers -/

def dataPort : UInt16 := 0x1f0

def sectorCountPort : UInt16 := 0x1f2

def lbaLoPort : UInt16 := 0x1f3

def lbaMidPort : UInt16 := 0x1f4

def lbaHiPort : UInt16 := 0x1f5

def driveHeadPort : UInt16 := 0x1f6

def statusCmdPort : UInt16 := 0x1f7

def statusErr : UInt8 := (1 : UInt8) <<< 0

def statusDrq : UInt8 := (1 : UInt8) <<< 3

def statusDf : UInt8 := (1 : UInt8) <<< 5

def statusBsy : UInt8 := (1 : UInt8) <<< 7

def cmdReadSectors : UInt8 := 0x20

/-- Bound on the polls of one wait (`SPIN_LIMIT`). -/
def spinLimit : Nat := 2000000

/-- The first drive, addressed by sector numbers (`DRIVE_MASTER_LBA`). -/
def driveMasterLba : UInt8 := 0xe0

/-! ## The driver -/

/-- The loop of both waits.  It reads the status until there is a verdict on it, or
the spins are used up. -/
def poll (drive : PortDevice) (verdict : UInt8 -> Option (Except AtaError Unit)) :
    Nat -> PortHistory -> Except AtaError Unit × PortHistory
  | 0, history => (.error .timeout, history)
  | spins + 1, history =>
      let (status, history) := drive.inb statusCmdPort history
      match verdict status with
      | some result => (result, history)
      | none => poll drive verdict spins history

/-- Wait until `status & mask` differs from `value`.  The status of a floating bus
ends the wait at once. -/
def waitWhile (drive : PortDevice) (mask value : UInt8) :
    PortHistory -> Except AtaError Unit × PortHistory :=
  poll drive (fun status =>
    if status = 0xff then some (.error .notPresent)
    else if status &&& mask ≠ value then some (.ok ())
    else none) spinLimit

/-- Wait until the drive is not busy and has a sector ready.  An error of the drive
ends the wait at once. -/
def waitForDrq (drive : PortDevice) : PortHistory -> Except AtaError Unit × PortHistory :=
  poll drive (fun status =>
    if status = 0xff then some (.error .notPresent)
    else if status &&& statusBsy ≠ 0 then none
    else if status &&& (statusErr ||| statusDf) ≠ 0 then some (.error .driveError)
    else if status &&& statusDrq ≠ 0 then some (.ok ())
    else none) spinLimit

def wordBytes (value : UInt16) : List UInt8 :=
  [value.toUInt8, (value >>> 8).toUInt8]

/-- Pull words from the data port, and store each with its low byte first. -/
def readWords (drive : PortDevice) : Nat -> PortHistory -> List UInt8 × PortHistory
  | 0, history => ([], history)
  | count + 1, history =>
      let (value, history) := drive.inw dataPort history
      let (rest, history) := readWords drive count history
      (wordBytes value ++ rest, history)

/-- One pass of the loop over the sectors of a transfer; `none` is a panic. -/
def readSector (mode : Overflow) (drive : PortDevice) (sector : Nat) (buf : List UInt8)
    (history : PortHistory) : Option (Except AtaError Unit × List UInt8 × PortHistory) :=
  match waitForDrq drive history with
  | (.error _, history) => some (.error .timeout, buf, history)
  | (.ok _, history) =>
      let (status, history) := drive.inb statusCmdPort history
      if status &&& (statusErr ||| statusDf) ≠ 0 then some (.error .driveError, buf, history)
      else do
        let start ← mulWord mode 32 sector sectorSize
        let stop ← addWord mode 32 start sectorSize
        let chunk ← slice buf start stop
        let (filled, history) := readWords drive (chunk.length / 2) history
        pure (.ok (), overwrite buf start filled, history)

/-- The loop over the sectors.  It ends at the first error, with the sectors
before it already in the buffer. -/
def readSectors (mode : Overflow) (drive : PortDevice) :
    (remaining sector : Nat) -> List UInt8 -> PortHistory ->
      Option (Except AtaError Unit × List UInt8 × PortHistory)
  | 0, _, buf, history => some (.ok (), buf, history)
  | remaining + 1, sector, buf, history => do
      match ← readSector mode drive sector buf history with
      | (.error error, buf, history) => pure (.error error, buf, history)
      | (.ok _, buf, history) => readSectors mode drive remaining (sector + 1) buf history

/-- The six writes that start a transfer.  The count register has eight bits, and
zero stands for 256 sectors. -/
def issueRead (lba sectorCount : Nat) (history : PortHistory) : PortHistory :=
  let countByte : UInt8 := if sectorCount = 256 then 0 else UInt8.ofNat sectorCount
  let history :=
    outb driveHeadPort (driveMasterLba ||| (UInt8.ofNat (lba >>> 24) &&& 0x0f)) history
  let history := outb sectorCountPort countByte history
  let history := outb lbaLoPort (UInt8.ofNat lba) history
  let history := outb lbaMidPort (UInt8.ofNat (lba >>> 8)) history
  let history := outb lbaHiPort (UInt8.ofNat (lba >>> 16)) history
  outb statusCmdPort cmdReadSectors history

/-- Wait for the drive, start the transfer and pull its sectors.  Whatever error a
wait ends with, a timeout is reported. -/
def readPio (mode : Overflow) (drive : PortDevice) (history : PortHistory)
    (lba sectorCount : Nat) (buf : List UInt8) :
    Option (Except AtaError Unit × List UInt8 × PortHistory) :=
  match waitWhile drive statusBsy statusBsy history with
  | (.error _, history) => some (.error .timeout, buf, history)
  | (.ok _, history) =>
      readSectors mode drive sectorCount 0 buf (issueRead lba sectorCount history)

/-! ## The status -/

def busy (status : UInt8) : Bool :=
  status &&& statusBsy ≠ 0

def failed (status : UInt8) : Bool :=
  status &&& (statusErr ||| statusDf) ≠ 0

/-- The drive is not busy and requests that a sector be pulled. -/
def sectorReady (status : UInt8) : Bool :=
  !busy status && status &&& statusDrq ≠ 0

def busyVerdict (status : UInt8) : Option (Except AtaError Unit) :=
  if status = 0xff then some (.error .notPresent)
  else if status &&& statusBsy ≠ statusBsy then some (.ok ())
  else none

/-- What the wait for a sector makes of a status.  While the drive is busy the other
bits do not count. -/
def drqVerdict (status : UInt8) : Option (Except AtaError Unit) :=
  if status = 0xff then some (.error .notPresent)
  else if status &&& statusBsy ≠ 0 then none
  else if status &&& (statusErr ||| statusDf) ≠ 0 then some (.error .driveError)
  else if status &&& statusDrq ≠ 0 then some (.ok ())
  else none

theorem waitWhile_eq (drive : PortDevice) :
    waitWhile drive statusBsy statusBsy = poll drive busyVerdict spinLimit :=
  rfl

theorem waitForDrq_eq (drive : PortDevice) :
    waitForDrq drive = poll drive drqVerdict spinLimit :=
  rfl

theorem busyVerdict_cases (status : UInt8) :
    (status = 0xff ∧ busyVerdict status = some (.error .notPresent)) ∨
      (status ≠ 0xff ∧ busy status = false ∧ busyVerdict status = some (.ok ())) ∨
      (status ≠ 0xff ∧ busy status = true ∧ busyVerdict status = none) := by
  have oneBit : status &&& statusBsy ≠ statusBsy ↔ busy status = false := by
    revert status
    refine forall_byte ?_
    decide +kernel
  unfold busyVerdict
  by_cases floating : status = 0xff
  · rw [if_pos floating]
    exact Or.inl ⟨floating, rfl⟩
  · rw [if_neg floating]
    by_cases idle : status &&& statusBsy ≠ statusBsy
    · rw [if_pos idle]
      exact Or.inr (Or.inl ⟨floating, oneBit.mp idle, rfl⟩)
    · rw [if_neg idle]
      rw [oneBit, Bool.not_eq_false] at idle
      exact Or.inr (Or.inr ⟨floating, idle, rfl⟩)

theorem busyVerdict_none {status : UInt8} (undecided : busyVerdict status = none) :
    busy status = true := by
  rcases busyVerdict_cases status with ⟨_, verdict⟩ | ⟨_, _, verdict⟩ | ⟨_, busy, _⟩
  · rw [verdict] at undecided
    cases undecided
  · rw [verdict] at undecided
    cases undecided
  · exact busy

theorem busyVerdict_error {status : UInt8} {error : AtaError}
    (refused : busyVerdict status = some (.error error)) : status = 0xff := by
  rcases busyVerdict_cases status with ⟨floating, _⟩ | ⟨_, _, verdict⟩ | ⟨_, _, verdict⟩
  · exact floating
  · rw [verdict] at refused
    cases refused
  · rw [verdict] at refused
    cases refused

theorem drqVerdict_cases (status : UInt8) :
    (status = 0xff ∧ drqVerdict status = some (.error .notPresent)) ∨
      (status ≠ 0xff ∧ busy status = false ∧ failed status = true ∧
        drqVerdict status = some (.error .driveError)) ∨
      (status ≠ 0xff ∧ failed status = false ∧ sectorReady status = true ∧
        drqVerdict status = some (.ok ())) ∨
      (status ≠ 0xff ∧ (busy status = true ∨ failed status = false) ∧
        sectorReady status = false ∧ drqVerdict status = none) := by
  revert status
  refine forall_byte ?_
  decide +kernel

theorem drqVerdict_none {status : UInt8} (undecided : drqVerdict status = none) :
    sectorReady status = false := by
  rcases drqVerdict_cases status with
    ⟨_, verdict⟩ | ⟨_, _, _, verdict⟩ | ⟨_, _, _, verdict⟩ | ⟨_, _, unready, _⟩
  · rw [verdict] at undecided
    cases undecided
  · rw [verdict] at undecided
    cases undecided
  · rw [verdict] at undecided
    cases undecided
  · exact unready

theorem drqVerdict_ok {status : UInt8} (accepted : drqVerdict status = some (.ok ())) :
    sectorReady status = true := by
  rcases drqVerdict_cases status with
    ⟨_, verdict⟩ | ⟨_, _, _, verdict⟩ | ⟨_, _, ready, _⟩ | ⟨_, _, _, verdict⟩
  · rw [verdict] at accepted
    cases accepted
  · rw [verdict] at accepted
    cases accepted
  · exact ready
  · rw [verdict] at accepted
    cases accepted

theorem drqVerdict_error {status : UInt8} {error : AtaError}
    (refused : drqVerdict status = some (.error error)) :
    status = 0xff ∨ (busy status = false ∧ failed status = true) := by
  rcases drqVerdict_cases status with
    ⟨floating, _⟩ | ⟨_, idle, found, _⟩ | ⟨_, _, _, verdict⟩ | ⟨_, _, _, verdict⟩
  · exact Or.inl floating
  · exact Or.inr ⟨idle, found⟩
  · rw [verdict] at refused
    cases refused
  · rw [verdict] at refused
    cases refused

/-! ## What the drive has seen and delivered -/

/-- The registers of the drive that a command refers to. -/
structure TaskFile where
  sectorCount : UInt8
  lbaLo : UInt8
  lbaMid : UInt8
  lbaHi : UInt8
  driveHead : UInt8
  deriving DecidableEq, Repr

def TaskFile.write (registers : TaskFile) (port : UInt16) (value : UInt8) : TaskFile :=
  if port = sectorCountPort then { registers with sectorCount := value }
  else if port = lbaLoPort then { registers with lbaLo := value }
  else if port = lbaMidPort then { registers with lbaMid := value }
  else if port = lbaHiPort then { registers with lbaHi := value }
  else if port = driveHeadPort then { registers with driveHead := value }
  else registers

/-- The 28-bit sector number in the registers, of which four bits are in that of the
drive. -/
def TaskFile.lba (registers : TaskFile) : Nat :=
  registers.lbaLo.toNat + 2 ^ 8 * registers.lbaMid.toNat + 2 ^ 16 * registers.lbaHi.toNat +
    2 ^ 24 * (registers.driveHead &&& 0x0f).toNat

/-- The number of sectors in the registers, where zero stands for 256. -/
def TaskFile.count (registers : TaskFile) : Nat :=
  if registers.sectorCount = 0 then 256 else registers.sectorCount.toNat

/-- A command as the drive sees it: the command byte, the selected drive with its
addressing mode, the first sector, and the number of sectors. -/
structure Request where
  command : UInt8
  select : UInt8
  lba : Nat
  count : Nat
  deriving DecidableEq, Repr

def readRequest (lba count : Nat) : Request :=
  ⟨cmdReadSectors, driveMasterLba, lba, count⟩

/-- The command that a byte written to the command register makes of the registers. -/
def TaskFile.request (registers : TaskFile) (command : UInt8) : Request :=
  ⟨command, registers.driveHead &&& 0xf0, registers.lba, registers.count⟩

/-- The commands that the drive has seen in a stretch of the history, each with the
registers as they were at that moment. -/
def requestsFrom : TaskFile -> PortHistory -> List Request
  | _, [] => []
  | registers, .wrote port value :: rest =>
      if port = statusCmdPort then
        ⟨value, registers.driveHead &&& 0xf0, registers.lba, registers.count⟩ ::
          requestsFrom registers rest
      else requestsFrom (registers.write port value) rest
  | registers, _ :: rest => requestsFrom registers rest

/-- The bytes that the drive has delivered in a stretch of the history, in the order
of the words pulled. -/
def delivered (accesses : PortHistory) : List UInt8 :=
  accesses.flatMap fun access =>
    match access with
    | .readWord port value => if port = dataPort then wordBytes value else []
    | _ => []

/-- A stretch without commands in which the drive delivers some bytes. -/
structure Reads (drive : PortDevice) (history accesses : PortHistory) (bytes : List UInt8) :
    Prop where
  answers : drive.Answers history accesses
  quiet : forall access, access ∈ accesses -> access.isRead = true
  bytes : delivered accesses = bytes

namespace Reads

variable {drive : PortDevice} {history first second : PortHistory}
  {firstBytes secondBytes : List UInt8}

theorem nil (drive : PortDevice) (history : PortHistory) : Reads drive history [] [] :=
  ⟨trivial, fun _ member => (List.not_mem_nil member).elim, rfl⟩

theorem append (before : Reads drive history first firstBytes)
    (after : Reads drive (history ++ first) second secondBytes) :
    Reads drive history (first ++ second) (firstBytes ++ secondBytes) where
  answers := before.answers.append after.answers
  quiet := by
    intro access member
    rcases List.mem_append.mp member with inFirst | inSecond
    · exact before.quiet access inFirst
    · exact after.quiet access inSecond
  bytes := by
    rw [← before.bytes, ← after.bytes]
    exact List.flatMap_append

theorem inb (drive : PortDevice) (port : UInt16) (history : PortHistory) :
    Reads drive history [.readByte port (drive.byte history port)] [] where
  answers := ⟨rfl, trivial⟩
  quiet := by
    intro access member
    rw [List.mem_singleton.mp member]
    rfl
  bytes := rfl

theorem inw (drive : PortDevice) (history : PortHistory) :
    Reads drive history [.readWord dataPort (drive.word history dataPort)]
      (wordBytes (drive.word history dataPort)) where
  answers := ⟨rfl, trivial⟩
  quiet := by
    intro access member
    rw [List.mem_singleton.mp member]
    rfl
  bytes := rfl

end Reads

/-! ## What the driver does -/

section Driver

variable (mode : Overflow) (drive : PortDevice)

def statuses (drive : PortDevice) : Nat -> PortHistory -> List UInt8
  | 0, _ => []
  | count + 1, history =>
      drive.byte history statusCmdPort :: statuses drive count (drive.inb statusCmdPort history).2

def statusReads (answers : List UInt8) : PortHistory :=
  answers.map (PortAccess.readByte statusCmdPort)

/-- The history after some reads of the status in a row. -/
def polled (drive : PortDevice) (count : Nat) (history : PortHistory) : PortHistory :=
  history ++ statusReads (statuses drive count history)

theorem polled_zero (history : PortHistory) : polled drive 0 history = history :=
  List.append_nil _

theorem polled_succ (count : Nat) (history : PortHistory) :
    polled drive (count + 1) history = polled drive count
      (history ++ [.readByte statusCmdPort (drive.byte history statusCmdPort)]) := by
  simp only [polled, statuses, PortDevice.inb, statusReads, List.map_cons, List.append_assoc,
    List.singleton_append]

theorem length_statuses (count : Nat) (history : PortHistory) :
    (statuses drive count history).length = count := by
  induction count generalizing history with
  | zero => rfl
  | succ count inductionHypothesis => rw [statuses, List.length_cons, inductionHypothesis]

theorem statuses_succ (count : Nat) (history : PortHistory) :
    statuses drive (count + 1) history =
      statuses drive count history ++ [drive.byte (polled drive count history) statusCmdPort] := by
  induction count generalizing history with
  | zero =>
      rw [polled_zero]
      rfl
  | succ count inductionHypothesis =>
      rw [statuses, inductionHypothesis, polled_succ]
      rfl

theorem polled_succ_last (count : Nat) (history : PortHistory) :
    polled drive (count + 1) history = polled drive count history ++
      [.readByte statusCmdPort (drive.byte (polled drive count history) statusCmdPort)] := by
  rw [polled, statuses_succ, statusReads, List.map_append, ← List.append_assoc]
  rfl

theorem mem_statuses {count index : Nat} (inside : index < count) (history : PortHistory) :
    drive.byte (polled drive index history) statusCmdPort ∈ statuses drive count history := by
  induction count with
  | zero => exact absurd inside (Nat.not_lt_zero _)
  | succ count inductionHypothesis =>
      rw [statuses_succ, List.mem_append, List.mem_singleton]
      rcases Nat.lt_or_eq_of_le (Nat.le_of_lt_succ inside) with earlier | rfl
      · exact Or.inl (inductionHypothesis earlier)
      · exact Or.inr rfl

/-- A wait ends with the first status that has a verdict, or when its polls are used
up. -/
theorem poll_cases (verdict : UInt8 -> Option (Except AtaError Unit)) (spins : Nat)
    (history : PortHistory) :
    (Exists fun count => Exists fun result => count < spins ∧
      (forall status, status ∈ statuses drive count history -> verdict status = none) ∧
      verdict (drive.byte (polled drive count history) statusCmdPort) = some result ∧
      poll drive verdict spins history = (result, polled drive (count + 1) history)) ∨
    ((forall status, status ∈ statuses drive spins history -> verdict status = none) ∧
      poll drive verdict spins history = (.error .timeout, polled drive spins history)) := by
  induction spins generalizing history with
  | zero =>
      refine Or.inr ⟨fun _ member => (List.not_mem_nil member).elim, ?_⟩
      rw [polled_zero]
      rfl
  | succ spins inductionHypothesis =>
      cases judged : verdict (drive.byte history statusCmdPort) with
      | some result =>
          refine Or.inl ⟨0, result, Nat.succ_pos _,
            fun _ member => (List.not_mem_nil member).elim, ?_, ?_⟩
          · rw [polled_zero]
            exact judged
          · rw [polled_succ, polled_zero]
            simp only [poll, PortDevice.inb, judged]
      | none =>
          have more : poll drive verdict (spins + 1) history = poll drive verdict spins
              (history ++ [.readByte statusCmdPort (drive.byte history statusCmdPort)]) := by
            simp only [poll, PortDevice.inb, judged]
          have first : forall count, (forall status, status ∈ statuses drive count
                (history ++ [.readByte statusCmdPort (drive.byte history statusCmdPort)]) ->
                  verdict status = none) ->
              forall status, status ∈ statuses drive (count + 1) history ->
                verdict status = none := by
            intro count rest status member
            rcases List.mem_cons.mp member with rfl | later
            · exact judged
            · exact rest status later
          rcases inductionHypothesis
            (history ++ [.readByte statusCmdPort (drive.byte history statusCmdPort)]) with
            ⟨count, result, inside, undecided, decided, ended⟩ | ⟨undecided, ended⟩
          · refine Or.inl ⟨count + 1, result, Nat.succ_lt_succ inside, first count undecided, ?_, ?_⟩
            · rw [polled_succ]
              exact decided
            · rw [more, ended, polled_succ _ (count + 1)]
          · refine Or.inr ⟨first spins undecided, ?_⟩
            rw [more, ended, polled_succ]

/-- A wait succeeds if no status is refused and one is decided in time. -/
theorem poll_accepts {verdict : UInt8 -> Option (Except AtaError Unit)} {spins : Nat}
    {history : PortHistory}
    (accepts : forall count result,
      verdict (drive.byte (polled drive count history) statusCmdPort) = some result ->
        result = .ok ())
    (decides : Exists fun count => count < spins ∧
      verdict (drive.byte (polled drive count history) statusCmdPort) ≠ none) :
    Exists fun count =>
      verdict (drive.byte (polled drive count history) statusCmdPort) = some (.ok ()) ∧
        poll drive verdict spins history = (.ok (), polled drive (count + 1) history) := by
  rcases poll_cases drive verdict spins history with
    ⟨count, result, _, _, decided, ended⟩ | ⟨undecided, _⟩
  · have accepted := accepts count result decided
    subst accepted
    exact ⟨count, decided, ended⟩
  · rcases decides with ⟨count, inside, decided⟩
    exact absurd (undecided _ (mem_statuses drive inside history)) decided

theorem polled_reads (count : Nat) (history : PortHistory) :
    Reads drive history (statusReads (statuses drive count history)) [] := by
  induction count generalizing history with
  | zero => exact Reads.nil drive history
  | succ count inductionHypothesis =>
      exact (Reads.inb drive statusCmdPort history).append (inductionHypothesis _)

/-- A wait reads the status and nothing else: it issues no command and pulls no
data. -/
theorem poll_reads (verdict : UInt8 -> Option (Except AtaError Unit)) (spins : Nat)
    (history : PortHistory) :
    Exists fun result => Exists fun accesses =>
      poll drive verdict spins history = (result, history ++ accesses) ∧
        Reads drive history accesses [] := by
  rcases poll_cases drive verdict spins history with
    ⟨count, result, _, _, _, ended⟩ | ⟨_, ended⟩
  · exact ⟨result, _, ended, polled_reads drive _ history⟩
  · exact ⟨_, _, ended, polled_reads drive _ history⟩

theorem waitWhile_reads (mask value : UInt8) (history : PortHistory) :
    Exists fun result => Exists fun accesses =>
      waitWhile drive mask value history = (result, history ++ accesses) ∧
        Reads drive history accesses [] :=
  poll_reads drive _ spinLimit history

theorem waitForDrq_reads (history : PortHistory) :
    Exists fun result => Exists fun accesses =>
      waitForDrq drive history = (result, history ++ accesses) ∧
        Reads drive history accesses [] :=
  poll_reads drive _ spinLimit history

/-- Pulling words stores what the drive delivers, and issues no command. -/
theorem readWords_reads (count : Nat) (history : PortHistory) :
    Exists fun bytes => Exists fun accesses =>
      readWords drive count history = (bytes, history ++ accesses) ∧
        Reads drive history accesses bytes ∧ bytes.length = 2 * count := by
  induction count generalizing history with
  | zero => exact ⟨[], [], by rw [List.append_nil]; rfl, Reads.nil drive history, rfl⟩
  | succ count inductionHypothesis =>
      rcases inductionHypothesis
        (history ++ [.readWord dataPort (drive.word history dataPort)]) with
        ⟨bytes, accesses, reached, reads, length⟩
      refine ⟨_, _, ?_, (Reads.inw drive history).append reads, ?_⟩
      · simp only [readWords, PortDevice.inw]
        rw [reached, List.append_assoc]
      · rw [List.length_append, length, Nat.mul_succ, Nat.add_comm]
        rfl

/-- What a stretch of the loop over the sectors leaves behind.  If it succeeds, the
buffer holds the bytes that the drive delivered for these sectors. -/
structure SectorsRead (drive : PortDevice) (count sector : Nat) (buf : List UInt8)
    (history : PortHistory) (result : Except AtaError Unit) (after : List UInt8)
    (accesses : PortHistory) (bytes : List UInt8) : Prop where
  reads : Reads drive history accesses bytes
  length : after.length = buf.length
  filled : result = .ok () ->
    after = overwrite buf (sector * sectorSize) bytes ∧ bytes.length = count * sectorSize

namespace SectorsRead

variable {drive} {count sector : Nat} {buf middle after : List UInt8} {history : PortHistory}
  {result : Except AtaError Unit} {first second : PortHistory} {firstBytes secondBytes : List UInt8}

theorem failed (reads : Reads drive history first firstBytes) (error : AtaError) :
    SectorsRead drive count sector buf history (.error error) buf first firstBytes :=
  ⟨reads, rfl, fun succeeded => nomatch succeeded⟩

/-- Nothing left to read. -/
theorem nil (drive : PortDevice) (sector : Nat) (buf : List UInt8) (history : PortHistory) :
    SectorsRead drive 0 sector buf history (.ok ()) buf [] [] where
  reads := Reads.nil drive history
  length := rfl
  filled := by
    intro _
    refine ⟨?_, (Nat.zero_mul _).symm⟩
    rw [overwrite, List.length_nil, Nat.add_zero, List.nil_append, List.take_append_drop]

theorem cons (inside : sector * sectorSize ≤ buf.length)
    (one : SectorsRead drive 1 sector buf history (.ok ()) middle first firstBytes)
    (rest : SectorsRead drive count (sector + 1) middle (history ++ first) result after second
      secondBytes) :
    SectorsRead drive (count + 1) sector buf history result after (first ++ second)
      (firstBytes ++ secondBytes) where
  reads := one.reads.append rest.reads
  length := rest.length.trans one.length
  filled := by
    intro succeeded
    rcases one.filled rfl with ⟨stored, firstLength⟩
    rcases rest.filled succeeded with ⟨storedRest, secondLength⟩
    have next : (sector + 1) * sectorSize = sector * sectorSize + firstBytes.length := by
      rw [firstLength, Nat.add_mul]
    constructor
    · rw [storedRest, stored, next, overwrite_overwrite _ _ inside]
    · rw [List.length_append, firstLength, secondLength, ← Nat.add_mul, Nat.add_comm]

end SectorsRead

/-- A sector that the drive has ready, and that has room in the buffer, is pulled. -/
theorem readSector_pulls {sector : Nat} {buf : List UInt8} {history reached : PortHistory}
    {done : Unit} (waited : waitForDrq drive history = (.ok done, reached))
    (calm : drive.byte reached statusCmdPort &&& (statusErr ||| statusDf) = 0)
    (inside : (sector + 1) * sectorSize ≤ buf.length) (few : sector < 256) :
    let pulled := readWords drive 256
      (reached ++ [.readByte statusCmdPort (drive.byte reached statusCmdPort)])
    readSector mode drive sector buf history =
      some (.ok (), overwrite buf (sector * sectorSize) pulled.1, pulled.2) := by
  have room : sector * sectorSize + sectorSize ≤ buf.length := by
    rwa [Nat.add_mul, Nat.one_mul] at inside
  have start : mulWord mode 32 sector sectorSize = some (sector * sectorSize) :=
    mulWord_of_lt mode (by unfold sectorSize; omega)
  have stop : addWord mode 32 (sector * sectorSize) sectorSize =
      some (sector * sectorSize + sectorSize) :=
    addWord_of_lt mode (by unfold sectorSize; omega)
  have chunk := slice_eq_some (Nat.le_add_right _ sectorSize) room
  have words : ((buf.drop (sector * sectorSize)).take
      (sector * sectorSize + sectorSize - sector * sectorSize)).length / 2 = 256 := by
    rw [List.length_take, List.length_drop]
    unfold sectorSize at room ⊢
    omega
  have accepted : ¬ ((drive.inb statusCmdPort reached).1 &&& (statusErr ||| statusDf) ≠ 0) :=
    fun refused => refused calm
  rw [readSector, waited]
  simp only
  rw [if_neg accepted]
  simp only [start, stop, chunk, words, Option.bind_eq_bind, Option.bind_some]
  rfl

theorem readSector_refused {sector : Nat} {buf : List UInt8} {history reached : PortHistory}
    {done : Unit} (waited : waitForDrq drive history = (.ok done, reached))
    (refused : drive.byte reached statusCmdPort &&& (statusErr ||| statusDf) ≠ 0) :
    readSector mode drive sector buf history = some (.error .driveError, buf,
      reached ++ [.readByte statusCmdPort (drive.byte reached statusCmdPort)]) := by
  have found : (drive.inb statusCmdPort reached).1 &&& (statusErr ||| statusDf) ≠ 0 := refused
  rw [readSector, waited]
  simp only
  rw [if_pos found]
  rfl

/-- One sector of a transfer that has room in the buffer, however the drive
answers. -/
theorem readSector_reads {sector : Nat} {buf : List UInt8} (history : PortHistory)
    (inside : (sector + 1) * sectorSize ≤ buf.length) (few : sector < 256) :
    Exists fun result => Exists fun after => Exists fun accesses => Exists fun bytes =>
      readSector mode drive sector buf history = some (result, after, history ++ accesses) ∧
        SectorsRead drive 1 sector buf history result after accesses bytes := by
  rcases waitForDrq_reads drive history with ⟨waited, polled, reached, polls⟩
  cases waited with
  | error error =>
      rw [readSector, reached]
      exact ⟨_, buf, polled, [], rfl, SectorsRead.failed polls _⟩
  | ok _ =>
      have checked := polls.append (Reads.inb drive statusCmdPort (history ++ polled))
      by_cases calm : drive.byte (history ++ polled) statusCmdPort &&&
          (statusErr ||| statusDf) = 0
      · have room : sector * sectorSize + sectorSize ≤ buf.length := by
          rwa [Nat.add_mul, Nat.one_mul] at inside
        rw [readSector_pulls mode drive reached calm inside few]
        rcases readWords_reads drive 256
          (history ++ polled ++ [.readByte statusCmdPort
            (drive.byte (history ++ polled) statusCmdPort)]) with
          ⟨filled, pulled, pulling, pulls, length⟩
        have whole : filled.length = sectorSize := length
        simp only [pulling]
        rw [List.append_assoc history] at pulls
        refine ⟨.ok (), overwrite buf (sector * sectorSize) filled, _, filled,
          by simp only [List.append_assoc], checked.append pulls, ?_, ?_⟩
        · exact length_overwrite (by rw [whole]; exact room)
        · intro _
          exact ⟨rfl, by rw [whole, Nat.one_mul]⟩
      · rw [readSector_refused mode drive reached calm, List.append_assoc]
        exact ⟨_, buf, _, _, rfl, SectorsRead.failed checked _⟩

theorem readSectors_reads {remaining sector : Nat} {buf : List UInt8} (history : PortHistory)
    (fits : (sector + remaining) * sectorSize ≤ buf.length) (few : sector + remaining ≤ 256) :
    Exists fun result => Exists fun after => Exists fun accesses => Exists fun bytes =>
      readSectors mode drive remaining sector buf history =
          some (result, after, history ++ accesses) ∧
        SectorsRead drive remaining sector buf history result after accesses bytes := by
  induction remaining generalizing sector buf history with
  | zero =>
      exact ⟨.ok (), buf, [], [], by rw [List.append_nil]; rfl,
        SectorsRead.nil drive sector buf history⟩
  | succ remaining inductionHypothesis =>
      have room : (sector + 1) * sectorSize ≤ buf.length :=
        Nat.le_trans (Nat.mul_le_mul_right _ (by omega)) fits
      have shifted : sector + 1 + remaining = sector + (remaining + 1) := by omega
      rcases @readSector_reads mode drive sector buf history room (by omega)
        with ⟨result, middle, first, firstBytes, passed, one⟩
      rw [readSectors, passed]
      cases result with
      | error error =>
          exact ⟨.error error, middle, first, firstBytes, rfl, one.reads, one.length,
            fun succeeded => nomatch succeeded⟩
      | ok _ =>
          rcases @inductionHypothesis (sector + 1) middle (history ++ first)
            (by rw [one.length, shifted]; exact fits) (by omega) with
            ⟨result, after, second, secondBytes, rest, read⟩
          refine ⟨result, after, first ++ second, firstBytes ++ secondBytes, ?_,
            SectorsRead.cons (Nat.le_trans (Nat.mul_le_mul_right _ (Nat.le_succ _)) room) one read⟩
          simp only [Option.bind_eq_bind, Option.bind_some]
          rw [rest, List.append_assoc]

/-! ## The command -/

theorem requestsFrom_append_quiet {accesses : PortHistory}
    (quiet : forall access, access ∈ accesses -> access.isRead = true) (registers : TaskFile)
    (after : PortHistory) :
    requestsFrom registers (accesses ++ after) = requestsFrom registers after := by
  induction accesses with
  | nil => rfl
  | cons access rest inductionHypothesis =>
      have remaining := inductionHypothesis
        (fun other member => quiet other (List.mem_cons_of_mem _ member))
      cases access with
      | wrote port value => exact absurd (quiet _ List.mem_cons_self) Bool.false_ne_true
      | readByte port value => exact remaining
      | readWord port value => exact remaining

theorem requestsFrom_quiet {accesses : PortHistory}
    (quiet : forall access, access ∈ accesses -> access.isRead = true) (registers : TaskFile) :
    requestsFrom registers accesses = [] := by
  rw [← List.append_nil accesses, requestsFrom_append_quiet quiet]
  rfl

theorem issueRead_eq (lba sectorCount : Nat) (history : PortHistory) :
    issueRead lba sectorCount history = history ++ issueRead lba sectorCount [] := by
  simp [issueRead, outb]

/-- The low nibble of the drive register carries the address, the high one selects. -/
theorem driveHead_parts (bits : UInt8) :
    (driveMasterLba ||| (bits &&& 0x0f)) &&& 0xf0 = driveMasterLba ∧
      (driveMasterLba ||| (bits &&& 0x0f)) &&& 0x0f = bits &&& 0x0f := by
  have split : forall mask : UInt8, (driveMasterLba ||| (bits &&& 0x0f)) &&& mask =
      (driveMasterLba &&& mask) ||| (bits &&& (0x0f &&& mask)) := by
    intro mask
    rw [← UInt8.and_assoc, ← UInt8.toNat_inj]
    simp only [UInt8.toNat_and, UInt8.toNat_or]
    exact Nat.and_or_distrib_right _ _ _
  constructor
  · rw [split, show (0x0f : UInt8) &&& 0xf0 = 0 by decide, UInt8.and_zero, UInt8.or_zero]
    rfl
  · rw [split, show driveMasterLba &&& 0x0f = 0 by decide, UInt8.and_self, UInt8.zero_or]

/-- The bytes that go into the registers make up the sector number again, if it has
28 bits. -/
theorem lba_bytes {lba : Nat} (small : lba < 2 ^ 28) :
    (UInt8.ofNat lba).toNat + 2 ^ 8 * (UInt8.ofNat (lba >>> 8)).toNat +
      2 ^ 16 * (UInt8.ofNat (lba >>> 16)).toNat +
        2 ^ 24 * (UInt8.ofNat (lba >>> 24) &&& 0x0f).toNat = lba := by
  have nibble : (UInt8.ofNat (lba >>> 24) &&& 0x0f).toNat = lba / 2 ^ 24 % 2 ^ 8 % 2 ^ 4 := by
    rw [UInt8.toNat_and, UInt8.toNat_ofNat', Nat.shiftRight_eq_div_pow]
    exact Nat.and_two_pow_sub_one_eq_mod _ 4
  rw [nibble, UInt8.toNat_ofNat', UInt8.toNat_ofNat', UInt8.toNat_ofNat',
    Nat.shiftRight_eq_div_pow, Nat.shiftRight_eq_div_pow]
  omega

/-- The byte that goes into the count register stands for the number of sectors, 256
included. -/
theorem count_byte {sectorCount : Nat} (some : 0 < sectorCount) (few : sectorCount ≤ 256) :
    (if (if sectorCount = 256 then (0 : UInt8) else UInt8.ofNat sectorCount) = 0 then 256
      else (if sectorCount = 256 then (0 : UInt8) else UInt8.ofNat sectorCount).toNat) =
        sectorCount := by
  by_cases full : sectorCount = 256
  · rw [if_pos full, if_pos rfl, full]
  · have value : (UInt8.ofNat sectorCount).toNat = sectorCount :=
      UInt8.toNat_ofNat_of_lt' (show sectorCount < 256 by omega)
    have nonzero : UInt8.ofNat sectorCount ≠ 0 := by
      intro zero
      rw [zero] at value
      exact absurd value.symm (Nat.ne_of_gt some)
    rw [if_neg full, if_neg nonzero, value]

/-- The registers after the six writes, which set all of them. -/
def writtenRegisters (lba sectorCount : Nat) : TaskFile where
  sectorCount := if sectorCount = 256 then 0 else UInt8.ofNat sectorCount
  lbaLo := UInt8.ofNat lba
  lbaMid := UInt8.ofNat (lba >>> 8)
  lbaHi := UInt8.ofNat (lba >>> 16)
  driveHead := driveMasterLba ||| (UInt8.ofNat (lba >>> 24) &&& 0x0f)

theorem writtenRegisters_lba {lba : Nat} (small : lba < 2 ^ 28) (sectorCount : Nat) :
    (writtenRegisters lba sectorCount).lba = lba := by
  rw [TaskFile.lba, writtenRegisters, (driveHead_parts _).2]
  exact lba_bytes small

theorem writtenRegisters_request {lba sectorCount : Nat} (small : lba < 2 ^ 28)
    (some : 0 < sectorCount) (few : sectorCount ≤ 256) :
    (writtenRegisters lba sectorCount).request cmdReadSectors = readRequest lba sectorCount := by
  have select : (writtenRegisters lba sectorCount).driveHead &&& 0xf0 = driveMasterLba :=
    (driveHead_parts _).1
  have count : (writtenRegisters lba sectorCount).count = sectorCount := count_byte some few
  rw [TaskFile.request, select, writtenRegisters_lba small, count]
  rfl

/-- The six writes are one command, whatever was in the registers before. -/
theorem requestsFrom_issueRead {lba sectorCount : Nat} (small : lba < 2 ^ 28)
    (some : 0 < sectorCount) (few : sectorCount ≤ 256) {accesses : PortHistory}
    (quiet : forall access, access ∈ accesses -> access.isRead = true) (registers : TaskFile) :
    requestsFrom registers (issueRead lba sectorCount [] ++ accesses) =
      [readRequest lba sectorCount] := by
  have seen : requestsFrom registers (issueRead lba sectorCount [] ++ accesses) =
      (writtenRegisters lba sectorCount).request cmdReadSectors ::
        requestsFrom (writtenRegisters lba sectorCount) accesses := rfl
  rw [seen, writtenRegisters_request small some few, requestsFrom_quiet quiet]

end Driver

/-! ## The transfer -/

section Transfer

variable (mode : Overflow) (drive : PortDevice)

/-- What a transfer leaves behind.  The drive sees the command for it, or nothing;
if the transfer succeeds, it has seen the command and has filled the buffer. -/
structure Transferred (drive : PortDevice) (history : PortHistory) (lba : Nat) (buf : List UInt8)
    (result : Except AtaError Unit) (after : List UInt8) (accesses : PortHistory) : Prop where
  answers : drive.Answers history accesses
  length : after.length = buf.length
  requests : (forall registers, requestsFrom registers accesses = []) ∨
    lba < 2 ^ 28 ∧ forall registers,
      requestsFrom registers accesses = [readRequest lba (buf.length / sectorSize)]
  filled : result = .ok () -> after = delivered accesses ∧
    forall registers, requestsFrom registers accesses = [readRequest lba (buf.length / sectorSize)]

/-- An error before the command, with the buffer left alone, is one way for a
transfer to end. -/
theorem Transferred.refused {history : PortHistory} {lba : Nat} {buf : List UInt8}
    {accesses : PortHistory} {bytes : List UInt8} (reads : Reads drive history accesses bytes)
    (error : AtaError) : Transferred drive history lba buf (.error error) buf accesses :=
  ⟨reads.answers, rfl, .inl (requestsFrom_quiet reads.quiet), fun succeeded => nomatch succeeded⟩

theorem answers_issueRead (lba sectorCount : Nat) (history : PortHistory) :
    drive.Answers history (issueRead lba sectorCount []) :=
  ⟨trivial, trivial, trivial, trivial, trivial, trivial, trivial⟩

theorem delivered_append (first second : PortHistory) :
    delivered (first ++ second) = delivered first ++ delivered second :=
  List.flatMap_append

/-- The transfer of a valid number of sectors. -/
theorem readPio_transferred {lba : Nat} {buf : List UInt8} (history : PortHistory)
    (valid : validRead lba buf.length = true) :
    Exists fun result => Exists fun after => Exists fun accesses =>
      readPio mode drive history lba (buf.length / sectorSize) buf =
          some (result, after, history ++ accesses) ∧
        Transferred drive history lba buf result after accesses := by
  rcases validRead_sectors valid with ⟨whole, some, few, small⟩
  rcases waitWhile_reads drive statusBsy statusBsy history with ⟨waited, polled, reached, polls⟩
  rw [readPio, reached]
  cases waited with
  | error error => exact ⟨_, buf, polled, rfl, Transferred.refused drive polls _⟩
  | ok _ =>
      rcases readSectors_reads mode drive
        (history ++ (polled ++ issueRead lba (buf.length / sectorSize) []))
        (show (0 + buf.length / sectorSize) * sectorSize ≤ buf.length by
          rw [Nat.zero_add, whole])
        (by rw [Nat.zero_add]; exact few) with ⟨result, after, accesses, bytes, rest, read⟩
      have requests : forall registers, requestsFrom registers
          (polled ++ issueRead lba (buf.length / sectorSize) [] ++ accesses) =
            [readRequest lba (buf.length / sectorSize)] := by
        intro registers
        rw [List.append_assoc, requestsFrom_append_quiet polls.quiet,
          requestsFrom_issueRead small some few read.reads.quiet]
      refine ⟨result, after, polled ++ issueRead lba (buf.length / sectorSize) [] ++ accesses, ?_,
        ?_, read.length, .inr ⟨small, requests⟩, ?_⟩
      · simp only
        rw [issueRead_eq, List.append_assoc, rest, List.append_assoc]
      · exact (polls.answers.append (answers_issueRead drive _ _ _)).append read.reads.answers
      · intro succeeded
        rcases read.filled succeeded with ⟨stored, length⟩
        refine ⟨?_, requests⟩
        rw [stored, Nat.zero_mul, overwrite_all (by rw [length, whole]), delivered_append,
          delivered_append, polls.bytes, read.reads.bytes]
        rfl

theorem readPio_isSome {lba : Nat} {buf : List UInt8} (history : PortHistory)
    (valid : validRead lba buf.length = true) :
    (readPio mode drive history lba (buf.length / sectorSize) buf).isSome = true := by
  rcases readPio_transferred mode drive history valid with ⟨_, _, _, ran, _⟩
  rw [ran]
  rfl

end Transfer

/-- The controller as a reader.  It is asked for valid arguments only, and with
them no slice is out of range and no sum overflows. -/
def pio (mode : Overflow) (drive : PortDevice) : Reader PortHistory where
  read := fun history lba buf =>
    if valid : validRead lba buf.length = true then
      (readPio mode drive history lba (buf.length / sectorSize) buf).get
        (readPio_isSome mode drive history valid)
    else (.error .badArgument, buf, history)
  keepsLength := by
    intro history lba buf
    by_cases valid : validRead lba buf.length = true
    · rcases readPio_transferred mode drive history valid with
        ⟨result, after, accesses, ran, transferred⟩
      simp only [dif_pos valid, ran, Option.get_some]
      exact transferred.length
    · simp only [dif_neg valid]

theorem pio_read {mode : Overflow} {drive : PortDevice} {history : PortHistory} {lba : Nat}
    {buf : List UInt8} {outcome : Except AtaError Unit × List UInt8 × PortHistory}
    (valid : validRead lba buf.length = true)
    (ran : readPio mode drive history lba (buf.length / sectorSize) buf = some outcome) :
    (pio mode drive).read history lba buf = outcome := by
  simp only [pio, dif_pos valid, ran, Option.get_some]

/-- Every call of `read_lba`, on any drive.  The drive has seen the command for the
sectors or none at all, and with a success the buffer holds what it delivered. -/
theorem readLba_transferred (mode : Overflow) (drive : PortDevice) (present : Bool)
    (history : PortHistory) {lba : Nat} (word : lba < 2 ^ 32) (buf : List UInt8) :
    Exists fun result => Exists fun after => Exists fun accesses =>
      (readLba present (pio mode drive)).read history lba buf =
          (result, after, history ++ accesses) ∧
        Transferred drive history lba buf result after accesses := by
  have refused : forall error, Transferred drive history lba buf (.error error) buf [] :=
    Transferred.refused drive (Reads.nil drive history)
  rw [readLba_eq present _ history word]
  by_cases valid : validRead lba buf.length = true
  · cases present with
    | false =>
        rw [if_pos valid, if_neg Bool.false_ne_true]
        exact ⟨_, buf, [], by rw [List.append_nil], refused _⟩
    | true =>
        rcases readPio_transferred mode drive history valid with
          ⟨result, after, accesses, ran, transferred⟩
        rw [if_pos valid, if_pos rfl]
        exact ⟨result, after, accesses, pio_read valid ran, transferred⟩
  · rw [if_neg valid]
    exact ⟨_, buf, [], by rw [List.append_nil], refused _⟩

end Storage
end Goatos
