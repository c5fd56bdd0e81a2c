import Goatos.Storage.FsRoundTrip
import Goatos.Storage.ReadFile

namespace Goatos
namespace Storage

open Library
open Pack (File entryOf superblockOf)

/-!
# Malformed disks

Whatever is on the disk and whatever the drive does, mounting returns and stays
inside the file system, and so does every `read_file` that follows, with one
exception.  `mount` bounds the first sector of a file from below only, and
`read_file` adds it to the first sector of the file system in a `u32`.  A
directory entry that is far enough out makes this addition overflow: a checked
build panics, and another one reads from below the file system.
-/

/-! ## What mounting admits -/

/-- An entry that `mount` admits.  Nothing bounds its first sector from above. -/
structure Admitted (entry : DirEntry) : Prop where
  field : entry.name.length = nameLen
  named : 0 < entry.nameLen
  short : entry.nameLen ≤ nameLen
  printable : (entry.name.take entry.nameLen).all isNameByte = true
  small : entry.size ≤ maxFileSize
  behind : 2 ≤ entry.lbaOff

theorem readU32_inside {bytes : List UInt8} {offset : Nat} (inside : offset + 4 ≤ bytes.length) :
    Exists fun value => readU32 bytes offset = some value := by
  rw [readU32, slice_eq_some (Nat.le_add_right _ _) inside]
  exact ⟨_, rfl⟩

theorem findIdx_le (bytes : List UInt8) (width : Nat) (whole : bytes.length = width) :
    (bytes.findIdx? (· == 0)).getD width ≤ width := by
  cases found : bytes.findIdx? (· == 0) with
  | none => exact Nat.le_refl _
  | some index =>
      have inside := (List.findIdx?_eq_some_iff_getElem.mp found).1
      rw [whole] at inside
      exact Nat.le_of_lt inside

/-- Every entry of 64 bytes, whatever they are, is admitted or refused, so the
checks do not panic. -/
theorem parseRaw_admitted {raw : List UInt8} (whole : raw.length = dirEntrySize) :
    Exists fun result => parseRaw raw = some result ∧
      forall entry, result = .ok entry -> Admitted entry := by
  unfold dirEntrySize at whole
  have nameField : slice raw 0 nameLen = some (raw.take nameLen) :=
    slice_zero (by unfold nameLen; omega)
  have width : (raw.take nameLen).length = nameLen :=
    List.length_take_of_le (by unfold nameLen; omega)
  rcases @readU32_inside raw 32 (by omega) with ⟨size, sized⟩
  rcases @readU32_inside raw 36 (by omega) with ⟨lbaOff, placed⟩
  have short := findIdx_le (raw.take nameLen) nameLen width
  rw [parseRaw, nameField]
  simp only [Option.bind_eq_bind, Option.bind_some, sized, placed]
  generalize ((raw.take nameLen).findIdx? (· == 0)).getD nameLen = len at short
  have text : slice (raw.take nameLen) 0 len = some ((raw.take nameLen).take len) :=
    slice_zero (by rw [width]; exact short)
  have length : ((raw.take nameLen).take len).length = len :=
    List.length_take_of_le (by rw [width]; exact short)
  have refused : Exists fun result =>
      (pure (.error .badDirectory) : Option (Except FsError DirEntry)) = some result ∧
        forall entry, result = .ok entry -> Admitted entry := by
    refine ⟨_, rfl, ?_⟩
    intro entry accepted
    cases accepted
  by_cases unnamed : len = 0
  · rw [if_pos unnamed]
    exact refused
  · rw [if_neg unnamed, text, Option.bind_some]
    cases printable : ((raw.take nameLen).take len).all isNameByte with
    | false => exact refused
    | true =>
        by_cases bad : size > maxFileSize ∨ lbaOff < 2
        · rw [if_pos bad]
          exact refused
        · rw [if_neg bad]
          refine ⟨_, rfl, ?_⟩
          intro entry accepted
          cases accepted
          exact {
            field := by
              rw [List.length_append, length, List.length_replicate]
              omega
            named := by
              show 0 < len
              omega
            short := short
            printable := by
              rw [List.take_left' length]
              exact printable
            small := by
              show size ≤ maxFileSize
              omega
            behind := by
              show 2 ≤ lbaOff
              omega }

theorem parseEntry_admitted (mode : Overflow) {sector : List UInt8}
    (whole : sector.length = sectorSize) {index : Nat} (inside : index < maxFiles) :
    Exists fun result => parseEntry mode sector index = some result ∧
      forall entry, result = .ok entry -> Admitted entry := by
  have fits : index * dirEntrySize + dirEntrySize ≤ sector.length := by
    rw [whole]
    unfold maxFiles at inside
    unfold dirEntrySize sectorSize
    omega
  rw [parseEntry_eq mode sector inside, slice_eq_some (Nat.le_add_right _ dirEntrySize) fits]
  apply parseRaw_admitted
  rw [List.length_take, List.length_drop]
  omega

/-- The loop over a directory sector ends, and admits what it has stored. -/
theorem mountEntries_admitted (mode : Overflow) {sector : List UInt8}
    (whole : sector.length = sectorSize)
    {indices : List Nat} (inside : forall index, index ∈ indices -> index < maxFiles)
    {files : List DirEntry} (room : files.length + indices.length ≤ maxFiles)
    (admitted : forall entry, entry ∈ files -> Admitted entry) :
    Exists fun result => Exists fun loaded =>
      mountEntries mode sector indices files = some (result, loaded) ∧
        forall entry, entry ∈ loaded -> Admitted entry := by
  induction indices generalizing files with
  | nil => exact ⟨.ok (), files, rfl, admitted⟩
  | cons index rest inductionHypothesis =>
      rw [List.forall_mem_cons] at inside
      rw [List.length_cons] at room
      rcases parseEntry_admitted mode whole inside.1 with ⟨result, parsed, accepted⟩
      cases result with
      | error error => exact ⟨.error error, files, mountEntries_error parsed rest files, admitted⟩
      | ok entry =>
          rw [mountEntries_ok parsed rest (by omega)]
          apply inductionHypothesis inside.2
          · rw [List.length_append, List.length_singleton]
            omega
          · intro other member
            rcases List.mem_append.mp member with earlier | last
            · exact admitted other earlier
            · rw [List.mem_singleton.mp last]
              exact accepted entry rfl

/-! ## What the drive is asked for -/

/-- The sectors of a request, in order. -/
def Request.sectors (request : Request) : List Nat :=
  List.range' request.lba request.count

/-- All commands are reads, of sectors from `bound` on, whatever was in the
registers before. -/
def AsksFrom (bound : Nat) (accesses : PortHistory) : Prop :=
  forall registers request, request ∈ requestsFrom registers accesses ->
    request.command = cmdReadSectors ∧ forall sector, sector ∈ request.sectors -> bound ≤ sector

/-- The commands of a longer history are those of its first part and then those of
the rest, with the registers as the first part left them. -/
theorem requestsFrom_append (registers : TaskFile) (accesses : PortHistory) :
    Exists fun later => forall rest, requestsFrom registers (accesses ++ rest) =
      requestsFrom registers accesses ++ requestsFrom later rest := by
  induction accesses generalizing registers with
  | nil => exact ⟨registers, fun _ => rfl⟩
  | cons access accesses inductionHypothesis =>
      cases access with
      | readByte port value => exact inductionHypothesis registers
      | readWord port value => exact inductionHypothesis registers
      | wrote port value =>
          by_cases command : port = statusCmdPort
          · rcases inductionHypothesis registers with ⟨later, split⟩
            refine ⟨later, fun rest => ?_⟩
            rw [List.cons_append, requestsFrom, requestsFrom, if_pos command, if_pos command,
              split, List.cons_append]
          · rcases inductionHypothesis (registers.write port value) with ⟨later, split⟩
            refine ⟨later, fun rest => ?_⟩
            rw [List.cons_append, requestsFrom, requestsFrom, if_neg command, if_neg command, split]

namespace AsksFrom

variable {bound : Nat} {first second : PortHistory}

theorem nil (bound : Nat) : AsksFrom bound [] :=
  fun _ _ member => (List.not_mem_nil member).elim

theorem append (before : AsksFrom bound first) (after : AsksFrom bound second) :
    AsksFrom bound (first ++ second) := by
  intro registers request member
  rcases requestsFrom_append registers first with ⟨later, split⟩
  rw [split, List.mem_append] at member
  rcases member with inFirst | inSecond
  · exact before registers request inFirst
  · exact after later request inSecond

theorem of_requests {lba count : Nat} (high : bound ≤ lba)
    (requests : (forall registers, requestsFrom registers first = []) ∨
      forall registers, requestsFrom registers first = [readRequest lba count]) :
    AsksFrom bound first := by
  intro registers request member
  rcases requests with none | one
  · rw [none] at member
    cases member
  · rw [one, List.mem_singleton] at member
    subst member
    refine ⟨rfl, fun sector inside => ?_⟩
    exact Nat.le_trans high (List.mem_range'_1.mp inside).1

end AsksFrom

theorem Transferred.asksFrom {drive : PortDevice} {history accesses : PortHistory}
    {lba bound : Nat} {buf after : List UInt8} {result : Except AtaError Unit}
    (transferred : Transferred drive history lba buf result after accesses) (high : bound ≤ lba) :
    AsksFrom bound accesses :=
  AsksFrom.of_requests high (transferred.requests.imp_right And.right)

/-! ## Mounting -/

section Mounting

variable (mode : Overflow) (drive : PortDevice) (present : Bool)

/-- What mounting comes to: it returns, has asked for sectors of the file system
only, and if it succeeds, it has admitted every entry. -/
def MountConfined (fs : FileSystem) (history : PortHistory)
    (outcome : Option (Except FsError Nat × FileSystem × PortHistory)) : Prop :=
  Exists fun result => Exists fun mountedFs => Exists fun accesses =>
    outcome = some (result, mountedFs, history ++ accesses) ∧ AsksFrom fsBaseLba accesses ∧
      mountedFs.mounted = fs.mounted ∧
      forall count, result = .ok count -> forall entry, entry ∈ mountedFs.files -> Admitted entry

theorem MountConfined.failed (fs : FileSystem) (history : PortHistory) {accesses : PortHistory}
    (asked : AsksFrom fsBaseLba accesses) (error : FsError) :
    MountConfined fs history (some (.error error, fs, history ++ accesses)) :=
  ⟨.error error, fs, accesses, rfl, asked, rfl, fun _ succeeded => nomatch succeeded⟩

theorem mount_confined (fs : FileSystem) (history : PortHistory) :
    MountConfined fs history (mount mode (readLba present (pio mode drive)) fs history) := by
  rcases readLba_transferred mode drive present history
    (show fsBaseLba + superblockSector < 2 ^ 32 by decide) (List.replicate sectorSize 0) with
    ⟨reading, sector, first, ran, transferred⟩
  have asked := transferred.asksFrom (Nat.le_add_right fsBaseLba superblockSector)
  have whole := transferred.length
  rw [List.length_replicate] at whole
  have failed := MountConfined.failed fs history asked
  rw [mount, superblock_address]
  simp only [Option.bind_eq_bind, Option.bind_some, ran]
  cases reading with
  | error error => exact failed _
  | ok _ =>
      have found := slice_zero (show 8 ≤ sector.length by rw [whole]; decide)
      rcases @readU32_inside sector 8 (by rw [whole]; decide) with ⟨foundVersion, versioned⟩
      rcases @readU32_inside sector 12 (by rw [whole]; decide) with ⟨fileCount, counted⟩
      simp only [found, versioned, counted, directory_address, Option.bind_some]
      by_cases unmarked : sector.take 8 ≠ magic
      · rw [if_pos unmarked]
        exact failed _
      · by_cases bad : foundVersion ≠ version ∨ fileCount > maxFiles
        · rw [if_neg unmarked, if_pos bad]
          exact failed _
        · rw [if_neg unmarked, if_neg bad]
          rcases readLba_transferred mode drive present (history ++ first)
            (show fsBaseLba + directorySector < 2 ^ 32 by decide) sector with
            ⟨reading, directory, second, again, transferredAgain⟩
          have askedAgain := asked.append
            (transferredAgain.asksFrom (Nat.le_add_right fsBaseLba directorySector))
          rw [again, List.append_assoc]
          cases reading with
          | error error => exact MountConfined.failed fs history askedAgain _
          | ok _ =>
              rcases @mountEntries_admitted mode directory (transferredAgain.length.trans whole)
                (List.range fileCount) (fun index member => by
                  have below := List.mem_range.mp member
                  omega) [] (by
                  rw [List.length_nil, List.length_range]
                  omega) (fun _ member => (List.not_mem_nil member).elim) with
                ⟨result, loaded, ended, admitted⟩
              simp only [ended, Option.bind_some]
              exact ⟨_, _, first ++ second, rfl, askedAgain, rfl, fun _ _ => admitted⟩

theorem init_confined (fs : FileSystem) (history : PortHistory) :
    Exists fun banner => Exists fun mountedFs => Exists fun accesses =>
      init mode (readLba present (pio mode drive)) fs history =
          some (banner, mountedFs, history ++ accesses) ∧
        AsksFrom fsBaseLba accesses ∧
        (mountedFs.mounted = true -> forall entry, entry ∈ mountedFs.files -> Admitted entry) := by
  rcases mount_confined mode drive present { fs with mounted := false } history with
    ⟨result, mountedFs, accesses, ran, asked, flag, admitted⟩
  have unmounted : mountedFs.mounted = true -> forall entry, entry ∈ mountedFs.files ->
      Admitted entry :=
    fun mounted => absurd (flag.symm.trans mounted) Bool.false_ne_true
  rw [init, ran]
  simp only [Option.bind_eq_bind, Option.bind_some]
  cases result with
  | ok count =>
      exact ⟨_, { mountedFs with mounted := true }, accesses, rfl, asked,
        fun _ => admitted count rfl⟩
  | error error =>
      split
      · exact ⟨_, { mountedFs with mounted := true }, accesses, rfl, asked,
          fun _ => admitted _ (by assumption)⟩
      · exact ⟨_, mountedFs, accesses, rfl, asked, unmounted⟩
      · exact ⟨_, mountedFs, accesses, rfl, asked, unmounted⟩
      · exact ⟨_, mountedFs, accesses, rfl, asked, unmounted⟩
      · exact ⟨_, mountedFs, accesses, rfl, asked, unmounted⟩

end Mounting

/-! ## The driver in both kinds of build -/

theorem readSector_mode (mode other : Overflow) (drive : PortDevice) {sector : Nat}
    (few : sector < 256) (buf : List UInt8) (history : PortHistory) :
    readSector mode drive sector buf history = readSector other drive sector buf history := by
  have start : forall mode, mulWord mode 32 sector sectorSize = some (sector * sectorSize) :=
    fun mode => mulWord_of_lt mode (by unfold sectorSize; omega)
  have stop : forall mode, addWord mode 32 (sector * sectorSize) sectorSize =
      some (sector * sectorSize + sectorSize) :=
    fun mode => addWord_of_lt mode (by unfold sectorSize; omega)
  unfold readSector
  simp only [start, stop, Option.bind_eq_bind, Option.bind_some]

theorem readSectors_mode (mode other : Overflow) (drive : PortDevice) {remaining sector : Nat}
    (few : sector + remaining ≤ 256) (buf : List UInt8) (history : PortHistory) :
    readSectors mode drive remaining sector buf history =
      readSectors other drive remaining sector buf history := by
  induction remaining generalizing sector buf history with
  | zero => rfl
  | succ remaining inductionHypothesis =>
      have next := fun buf history =>
        @inductionHypothesis (sector + 1) (by omega) buf history
      rw [readSectors, readSectors, readSector_mode mode other drive (by omega)]
      simp only [next]

/-- The sums and products of the driver never overflow, so the build does not
matter. -/
theorem pio_mode (mode other : Overflow) (drive : PortDevice) :
    pio mode drive = pio other drive := by
  unfold pio
  congr 1
  funext history lba buf
  by_cases valid : validRead lba buf.length = true
  · have same : readPio mode drive history lba (buf.length / sectorSize) buf =
        readPio other drive history lba (buf.length / sectorSize) buf := by
      have few := (validRead_sectors valid).2.2.1
      unfold readPio
      simp only [readSectors_mode mode other drive (show 0 + buf.length / sectorSize ≤ 256 by omega)]
    simp only [dif_pos valid, same]
  · simp only [dif_neg valid]

/-! ## Runs -/

/-- No entry that can be read makes the sum with `FS_BASE_LBA` overflow.  An empty
file is never read from the disk, so its sector does not matter. -/
def FileSystem.InReach (fs : FileSystem) : Prop :=
  fs.mounted = true -> forall name entry, fs.find name = some entry -> entry.size ≠ 0 ->
    fsBaseLba + entry.lbaOff < 2 ^ 32

/-- Calls of `read_file`, one after the other, each with a name and a buffer. -/
def readFiles {Device : Type} (mode : Overflow) (reader : Reader Device) (fs : FileSystem) :
    Device -> List (List UInt8 × List UInt8) ->
      Option (List (Except FsError Nat × List UInt8) × Device)
  | device, [] => some ([], device)
  | device, (name, buf) :: rest => do
      let (result, after, device) ← readFile mode reader fs device name buf
      let (results, device) ← readFiles mode reader fs device rest
      pure ((result, after) :: results, device)

section Runs

variable (mode : Overflow) (drive : PortDevice) (present : Bool)

theorem readFile_confined {fs : FileSystem}
    (admitted : fs.mounted = true -> forall entry, entry ∈ fs.files -> Admitted entry)
    (inReach : fs.InReach) (history : PortHistory) (name buf : List UInt8) :
    Exists fun result => Exists fun after => Exists fun accesses =>
      readFile mode (readLba present (pio mode drive)) fs history name buf =
          some (result, after, history ++ accesses) ∧
        AsksFrom (fsBaseLba + 2) accesses := by
  rcases readFile_cases mode (readLba present (pio mode drive)) fs history name buf with
    ⟨error, refused⟩ | ⟨entry, mounted, found, roomy, _, reads⟩
  · exact ⟨.error error, buf, [], by rw [refused, List.append_nil], AsksFrom.nil _⟩
  · have behind := (admitted mounted entry (List.mem_of_find?_eq_some found)).behind
    rcases readEntry_allOrNothing mode drive present history found roomy
      (inReach mounted name entry found) with ⟨result, after, accesses, ran, allOrNothing⟩
    have asked : (forall registers, requestsFrom registers accesses = []) ∨
        forall registers, requestsFrom registers accesses =
          [readRequest (fsBaseLba + entry.lbaOff) (sectorsFor entry.size)] := by
      rcases allOrNothing.asked with none | ⟨other, same, one⟩
      · exact .inl none
      · rw [found] at same
        cases same
        exact .inr one
    exact ⟨result, after, accesses, reads.trans ran,
      AsksFrom.of_requests (Nat.add_le_add_left behind fsBaseLba) asked⟩

theorem readFiles_confined {fs : FileSystem}
    (admitted : fs.mounted = true -> forall entry, entry ∈ fs.files -> Admitted entry)
    (inReach : fs.InReach) (calls : List (List UInt8 × List UInt8)) (history : PortHistory) :
    Exists fun results => Exists fun accesses =>
      readFiles mode (readLba present (pio mode drive)) fs history calls =
          some (results, history ++ accesses) ∧
        AsksFrom (fsBaseLba + 2) accesses := by
  induction calls generalizing history with
  | nil => exact ⟨[], [], by rw [List.append_nil]; rfl, AsksFrom.nil _⟩
  | cons call rest inductionHypothesis =>
      rcases call with ⟨name, buf⟩
      rcases readFile_confined mode drive present admitted inReach history name buf with
        ⟨result, after, first, ran, asked⟩
      rcases inductionHypothesis (history ++ first) with ⟨results, second, others, askedOthers⟩
      refine ⟨(result, after) :: results, first ++ second, ?_, asked.append askedOthers⟩
      rw [readFiles, ran]
      simp only [Option.bind_eq_bind, Option.bind_some, others, List.append_assoc]
      rfl

end Runs

/-- A run from the start of the file system returns from every call, with a
result or an error, and the drive has been asked for sectors of the file system
only, by `read_file` for sectors behind the directory. -/
def Confined (mode : Overflow) (drive : PortDevice) (present : Bool) (fs : FileSystem)
    (history : PortHistory) (calls : List (List UInt8 × List UInt8)) : Prop :=
  Exists fun banner => Exists fun mountedFs => Exists fun mounting =>
    init mode (readLba present (pio mode drive)) fs history =
        some (banner, mountedFs, history ++ mounting) ∧
      AsksFrom fsBaseLba mounting ∧
      Exists fun results => Exists fun reading =>
        readFiles mode (readLba present (pio mode drive)) mountedFs (history ++ mounting)
            calls = some (results, history ++ mounting ++ reading) ∧
          AsksFrom (fsBaseLba + 2) reading

/-- A readable entry out of reach stops a checked build. -/
theorem readFile_out_of_reach {Device : Type} {reader : Reader Device} {fs : FileSystem}
    (mounted : fs.mounted = true)
    (admitted : forall entry, entry ∈ fs.files -> Admitted entry) {name : List UInt8}
    {entry : DirEntry} (found : fs.find name = some entry) (nonempty : entry.size ≠ 0)
    (beyond : 2 ^ 32 ≤ fsBaseLba + entry.lbaOff) (device : Device) :
    readFile .panics reader fs device name (List.replicate entry.size 0) = none := by
  have isAdmitted := admitted entry (List.mem_of_find?_eq_some found)
  have named := isAdmitted.named
  have short := isAdmitted.short
  have small := isAdmitted.small
  have length : entry.nameLen = name.length := by
    have accepted := List.find?_some found
    rw [Bool.and_eq_true, beq_iff_eq] at accepted
    exact accepted.1
  have searched : ¬ (name.isEmpty || decide (name.length > nameLen)) = true := by
    rw [Bool.or_eq_true, decide_eq_true_eq, List.isEmpty_iff_length_eq_zero]
    omega
  rw [readFile_found mounted searched found (by rw [List.length_replicate]; omega), readEntry,
    if_neg nonempty, addWord, if_neg (Nat.not_lt_of_le beyond)]
  rfl

/-- Whatever the drive does: a run from the start stays inside the file system in
both kinds of build if and only if the entries of the mounted directory are in
reach. -/
theorem malformed_disk_confined_iff (drive : PortDevice) (present : Bool) (fs : FileSystem)
    (history : PortHistory) :
    (forall mode calls, Confined mode drive present fs history calls) ↔
      forall banner mountedFs reached,
        init .panics (readLba present (pio .panics drive)) fs history =
          some (banner, mountedFs, reached) -> mountedFs.InReach := by
  rcases init_confined .panics drive present fs history with
    ⟨banner, mountedFs, mounting, started, asked, admitted⟩
  constructor
  · intro confined banner' mountedFs' reached' same
    rw [started] at same
    cases same
    intro mounted name entry found nonempty
    by_contra beyond
    rcases confined .panics [(name, List.replicate entry.size 0)] with
      ⟨_, _, _, again, _, _, _, called, _⟩
    rw [started, Option.some.injEq, Prod.mk.injEq, Prod.mk.injEq] at again
    rcases again with ⟨rfl, rfl, _⟩
    rw [readFiles, readFile_out_of_reach mounted (admitted mounted) found
      nonempty (Nat.le_of_not_lt beyond)] at called
    cases called
  · intro reach mode calls
    have inReach := reach banner mountedFs _ started
    rcases readFiles_confined mode drive present admitted inReach calls (history ++ mounting) with
      ⟨results, reading, called, askedFiles⟩
    refine ⟨banner, mountedFs, mounting, ?_, asked, results, reading, called, askedFiles⟩
    rw [init_mode mode .panics, pio_mode mode .panics]
    exact started

/-! ## A disk with an entry out of reach -/

/-- One file of one byte, whose first sector is 2048 short of `u32::MAX + 1`. -/
def farPlaced : File × Nat := (⟨"a", [0]⟩, 2 ^ 32 - 2048)

def farDisk : Disk :=
  Disk.holding (superblockOf 1 ++ (([farPlaced].flatMap entryOf ++ List.replicate 448 0) ++ []))

def farFs : FileSystem := ⟨true, [entrySeen farPlaced]⟩

/-- The entry passes every check of `mount`, as its first sector is not too low. -/
theorem far_mounted (mode : Overflow) :
    Exists fun reached => init mode (readLba true (pio mode farDisk.drive)) ⟨false, []⟩ [] =
      some (⟨true, 1, "mounted"⟩, farFs, reached) := by
  have packable : farPlaced.1.Packable := ⟨by decide, by decide, by decide, by decide⟩
  have sector : ([farPlaced].flatMap entryOf ++ List.replicate 448 (0 : UInt8)).length =
      sectorSize := by
    rw [List.length_append, List.flatMap_singleton, Pack.length_entryOf packable,
      List.length_replicate]
    rfl
  have entries := @mountEntries_packed mode [] [farPlaced] (List.replicate 448 0)
    (List.forall_mem_singleton.mpr packable)
    (List.forall_mem_singleton.mpr (by decide)) (by decide) [] rfl
  rw [if_pos (by decide), List.takeWhile_eq_self_iff.mpr (by decide)] at entries
  rcases mount_installed mode (readLba_returns (pio_returns mode farDisk)) (installed_holding _)
    (by decide) sector ⟨false, []⟩ [] with ⟨reached, mounted⟩
  refine ⟨reached, ?_⟩
  rw [init, mounted, List.range_eq_range']
  simp only [List.nil_append, List.length_nil, List.length_singleton] at entries
  rw [entries]
  rfl

/-- Both the name and the size are fine, so `read_file` gets as far as the sum. -/
theorem far_found (mode : Overflow) {Device : Type} (reader : Reader Device) (device : Device) :
    readFile mode reader farFs device [0x61] [0] =
      readEntry mode reader device (entrySeen farPlaced) [0] :=
  readFile_found rfl (by decide) (by decide) (by decide)

theorem far_panics {Device : Type} (reader : Reader Device) (device : Device) :
    readFile .panics reader farFs device [0x61] [0] = none := by
  have sum : addWord .panics 32 fsBaseLba (entrySeen farPlaced).lbaOff = none := by decide
  rw [far_found, readEntry, if_neg (by decide), sum]
  rfl

/-- Without overflow checks the sum is zero, and the caller gets a byte of the boot
sector. -/
theorem far_wraps (history : PortHistory) :
    Exists fun accesses =>
      readFile .wraps (readLba true (pio .wraps farDisk.drive)) farFs history [0x61] [0] =
          some (.ok 1, [farDisk 0], history ++ accesses) ∧
        forall registers, requestsFrom registers accesses = [readRequest 0 1] := by
  have sum : addWord .wraps 32 fsBaseLba (entrySeen farPlaced).lbaOff = some 0 := by decide
  have sectors : sectorsFor (entrySeen farPlaced).size * sectorSize = 512 := by decide
  have valid : validRead 0 (List.replicate 512 (0 : UInt8)).length = true := by
    rw [List.length_replicate]
    decide
  rcases readLba_transferred .wraps farDisk.drive true history (show 0 < 2 ^ 32 by decide)
    (List.replicate 512 0) with ⟨result, window, accesses, ran, transferred⟩
  rcases readLba_returns (pio_returns .wraps farDisk) history 0 _ valid with ⟨succeeded, content⟩
  rw [ran] at succeeded content
  rw [List.length_replicate] at content
  rw [show result = .ok () from succeeded] at ran transferred
  have issued := (transferred.filled rfl).2
  rw [List.length_replicate] at issued
  have first : window.take (entrySeen farPlaced).size = [farDisk 0] := by
    rw [show window = _ from content, show 512 = 1 + 511 from rfl, Disk.bytes_append]
    rfl
  refine ⟨accesses, ?_, issued⟩
  rw [far_found, readEntry, if_neg (by decide), sum, sectors, Option.bind_some, ran]
  simp only [first]
  rfl

/-- The disk is mounted, and then reading its only file panics in a checked build,
and leaves the file system in another one. -/
theorem far_entry_leaves_file_system :
    ¬ Confined .panics farDisk.drive true ⟨false, []⟩ [] [([0x61], [0])] ∧
      ¬ Confined .wraps farDisk.drive true ⟨false, []⟩ [] [([0x61], [0])] := by
  constructor
  · rintro ⟨banner, mountedFs, mounting, started, _, results, reading, called, _⟩
    rcases far_mounted .panics with ⟨reached, mounted⟩
    rw [mounted] at started
    cases started
    rw [readFiles, far_panics] at called
    cases called
  · rintro ⟨banner, mountedFs, mounting, started, _, results, reading, called, asked⟩
    rcases far_mounted .wraps with ⟨reached, mounted⟩
    rw [mounted] at started
    cases started
    rcases far_wraps ([] ++ mounting) with ⟨accesses, ran, issued⟩
    rw [readFiles, ran] at called
    simp only [Option.bind_eq_bind, Option.bind_some, readFiles, Option.pure_def,
      Option.some.injEq, Prod.mk.injEq, List.append_cancel_left_eq] at called
    rw [← called.2] at asked
    have low := (asked ⟨0, 0, 0, 0, 0⟩ (readRequest 0 1) (by
      rw [issued]
      exact List.mem_singleton_self _)).2 0 (by decide)
    exact absurd low (by decide)

end Storage
end Goatos
