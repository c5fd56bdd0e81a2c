import Goatos.Library.LittleEndian
import Goatos.Library.Slice
import Goatos.Storage.Ata

namespace Goatos
namespace Storage

open Library

/-!
# The file system

A superblock, one sector of directory entries, and file data behind them, from
a fixed sector of the disk on.  `mount` reads the first two sectors and keeps
the directory in memory; `readFile` looks a name up there and reads the data.

All functions are partial: `none` is a panic, from a slice out of range or from
a sum or product that overflows in a build that checks it, so they take the kind
of the build.  Errors are ordinary results.  Whatever a call does to the device,
to the mounted directory and to the caller's buffer comes back with its result.
-/

/-- `FS_BASE_LBA`: the absolute sector of the superblock.  Other sector numbers of
the file system are relative to it. -/
def fsBaseLba : Nat := 2048

/-- On-disk magic, `GOATFS01`. -/
def magic : List UInt8 := [0x47, 0x4f, 0x41, 0x54, 0x46, 0x53, 0x30, 0x31]

def version : Nat := 1

/-- `MAX_FILES`: as many entries as fit the directory sector. -/
def maxFiles : Nat := 8

/-- `MAX_FILE_SIZE`: the size of the scratch area that a file is read into. -/
def maxFileSize : Nat := 4096

def nameLen : Nat := 32

def dirEntrySize : Nat := 64

def superblockSector : Nat := 0

def directorySector : Nat := 1

/-- A directory entry in memory: the name padded with zeros, its length, the
file's size, and its first sector counted from the superblock. -/
structure DirEntry where
  name : List UInt8
  nameLen : Nat
  size : Nat
  lbaOff : Nat
  deriving DecidableEq, Repr

/-- The mounted directory and whether it may be used (`FS` and `MOUNTED`).  The
entry array and its fill count are one list. -/
structure FileSystem where
  mounted : Bool
  files : List DirEntry
  deriving DecidableEq, Repr

/-- Why a mount or a read failed.  Errors of the drive are passed on. -/
inductive FsError where
  | ata (error : AtaError)
  | badSuperblock
  | badDirectory
  | notMounted
  | notFound
  | tooLarge
  deriving DecidableEq, Repr

structure Banner where
  mounted : Bool
  fileCount : Nat
  detail : String
  deriving DecidableEq, Repr

def readU32 (bytes : List UInt8) (offset : Nat) : Option Nat :=
  (slice bytes offset (offset + 4)).map ofLeBytes

/-- `!` to `~`: what is printable and no blank. -/
def isNameByte (byte : UInt8) : Bool :=
  0x21 ≤ byte && byte ≤ 0x7e

/-- The checks of one directory entry, on its bytes.  A name ends at the first zero
or with its field, and has to have something before that. -/
def parseRaw (raw : List UInt8) : Option (Except FsError DirEntry) := do
  let nameBytes ← slice raw 0 nameLen
  let len := (nameBytes.findIdx? (· == 0)).getD nameLen
  if len = 0 then pure (.error .badDirectory)
  else do
    let text ← slice nameBytes 0 len
    if !text.all isNameByte then pure (.error .badDirectory)
    else do
      let size ← readU32 raw 32
      let lbaOff ← readU32 raw 36
      if size > maxFileSize ∨ lbaOff < 2 then pure (.error .badDirectory)
      else pure (.ok ⟨text ++ List.replicate (nameLen - len) 0, len, size, lbaOff⟩)

/-- One pass of the loop over the directory sector, up to the point where the
entry is stored. -/
def parseEntry (mode : Overflow) (sector : List UInt8) (index : Nat) :
    Option (Except FsError DirEntry) := do
  let off ← mulWord mode 32 index dirEntrySize
  let stop ← addWord mode 32 off dirEntrySize
  let raw ← slice sector off stop
  parseRaw raw

/-- The loop over the directory sector.  A bad entry ends it, with the entries
before it already stored. -/
def mountEntries (mode : Overflow) (sector : List UInt8) :
    List Nat -> List DirEntry -> Option (Except FsError Unit × List DirEntry)
  | [], files => some (.ok (), files)
  | index :: rest, files => do
      match ← parseEntry mode sector index with
      | .error error => pure (.error error, files)
      | .ok entry =>
          if files.length < maxFiles then do
            let _ ← addWord mode 32 files.length 1
            mountEntries mode sector rest (files ++ [entry])
          else none

section Calls

variable {Device : Type}

/-- Read the superblock and the directory.  The mounted directory is replaced even if
an entry is bad, by the entries before it. -/
def mount (mode : Overflow) (reader : Reader Device) (fs : FileSystem) (device : Device) :
    Option (Except FsError Nat × FileSystem × Device) := do
  let superblock ← addWord mode 32 fsBaseLba superblockSector
  match reader.read device superblock (List.replicate sectorSize 0) with
  | (.error error, _, device) => pure (.error (.ata error), fs, device)
  | (.ok _, sector, device) => do
      let found ← slice sector 0 8
      if found ≠ magic then pure (.error .badSuperblock, fs, device)
      else do
        let foundVersion ← readU32 sector 8
        let fileCount ← readU32 sector 12
        if foundVersion ≠ version ∨ fileCount > maxFiles then
          pure (.error .badSuperblock, fs, device)
        else do
          let directory ← addWord mode 32 fsBaseLba directorySector
          match reader.read device directory sector with
          | (.error error, _, device) => pure (.error (.ata error), fs, device)
          | (.ok _, sector, device) => do
              let (result, files) ← mountEntries mode sector (List.range fileCount) []
              pure (result.map (fun _ => files.length), { fs with files := files }, device)

/-- Mount, and record whether it worked.  The earlier directory counts as not mounted
while this is going on. -/
def init (mode : Overflow) (reader : Reader Device) (fs : FileSystem) (device : Device) :
    Option (Banner × FileSystem × Device) := do
  let (result, fs, device) ← mount mode reader { fs with mounted := false } device
  match result with
  | .ok count => pure (⟨true, count, "mounted"⟩, { fs with mounted := true }, device)
  | .error (.ata .notPresent) => pure (⟨false, 0, "no ata drive"⟩, fs, device)
  | .error (.ata .timeout) => pure (⟨false, 0, "ata timeout"⟩, fs, device)
  | .error .badSuperblock => pure (⟨false, 0, "bad superblock"⟩, fs, device)
  | .error _ => pure (⟨false, 0, "mount failed"⟩, fs, device)

/-- The first entry with the given name, compared without the padding. -/
def FileSystem.find (fs : FileSystem) (name : List UInt8) : Option DirEntry :=
  fs.files.find? (fun entry => entry.nameLen == name.length && entry.name.take entry.nameLen == name)

/-- Read the named file into a buffer.  Whole sectors go to a scratch area first, and
the file is copied from there. -/
def readFile (mode : Overflow) (reader : Reader Device) (fs : FileSystem) (device : Device)
    (name buf : List UInt8) : Option (Except FsError Nat × List UInt8 × Device) :=
  if !fs.mounted then some (.error .notMounted, buf, device)
  else if name.isEmpty || name.length > nameLen then some (.error .notFound, buf, device)
  else
    match fs.find name with
    | none => some (.error .notFound, buf, device)
    | some entry =>
        if entry.size > buf.length ∨ entry.size > maxFileSize then
          some (.error .tooLarge, buf, device)
        else if entry.size = 0 then some (.ok 0, buf, device)
        else do
          let sectors := (entry.size + (sectorSize - 1)) / sectorSize
          let scratch := List.replicate maxFileSize 0
          let transfer ← mulWord mode 32 sectors sectorSize
          let lba ← addWord mode 32 fsBaseLba entry.lbaOff
          let window ← slice scratch 0 transfer
          match reader.read device lba window with
          | (.error error, _, device) => pure (.error (.ata error), buf, device)
          | (.ok _, window, device) => do
              let data ← slice (overwrite scratch 0 window) 0 entry.size
              let _ ← slice buf 0 entry.size
              pure (.ok entry.size, overwrite buf 0 data, device)

/-! ## Mounting in both kinds of build

All sums and products of `mount` have small operands, so the kind of the build
does not matter. -/

theorem parseEntry_eq (mode : Overflow) (sector : List UInt8) {index : Nat}
    (small : index < maxFiles) :
    parseEntry mode sector index =
      (slice sector (index * dirEntrySize) (index * dirEntrySize + dirEntrySize)).bind
        parseRaw := by
  unfold maxFiles at small
  have off : mulWord mode 32 index dirEntrySize = some (index * dirEntrySize) :=
    mulWord_of_lt mode (by unfold dirEntrySize; omega)
  have stop : addWord mode 32 (index * dirEntrySize) dirEntrySize =
      some (index * dirEntrySize + dirEntrySize) :=
    addWord_of_lt mode (by unfold dirEntrySize; omega)
  rw [parseEntry, off]
  simp only [Option.bind_eq_bind, Option.bind_some, stop]

theorem mountEntries_ok {mode : Overflow} {sector : List UInt8} {index : Nat} {entry : DirEntry}
    (parsed : parseEntry mode sector index = some (.ok entry)) (rest : List Nat)
    {files : List DirEntry} (room : files.length < maxFiles) :
    mountEntries mode sector (index :: rest) files =
      mountEntries mode sector rest (files ++ [entry]) := by
  have fits : files.length + 1 < 2 ^ 32 := by
    unfold maxFiles at room
    omega
  rw [mountEntries, parsed]
  simp only [Option.bind_eq_bind, Option.bind_some, if_pos room, addWord_of_lt mode fits]

theorem mountEntries_error {mode : Overflow} {sector : List UInt8} {index : Nat} {error : FsError}
    (parsed : parseEntry mode sector index = some (.error error)) (rest : List Nat)
    (files : List DirEntry) :
    mountEntries mode sector (index :: rest) files = some (.error error, files) := by
  rw [mountEntries, parsed]
  rfl

theorem mountEntries_mode (mode other : Overflow) (sector : List UInt8) {indices : List Nat}
    (small : forall index, index ∈ indices -> index < maxFiles) (files : List DirEntry) :
    mountEntries mode sector indices files = mountEntries other sector indices files := by
  induction indices generalizing files with
  | nil => rfl
  | cons index rest inductionHypothesis =>
      rw [List.forall_mem_cons] at small
      have same : parseEntry mode sector index = parseEntry other sector index :=
        (parseEntry_eq mode sector small.1).trans (parseEntry_eq other sector small.1).symm
      have sum : files.length < maxFiles -> forall mode, addWord mode 32 files.length 1 =
          some (files.length + 1) := by
        intro room mode
        unfold maxFiles at room
        exact addWord_of_lt mode (by omega)
      rw [mountEntries, mountEntries, same]
      refine Option.bind_congr fun parsed _ => ?_
      cases parsed with
      | error error => rfl
      | ok entry =>
          by_cases room : files.length < maxFiles
          · simp only [if_pos room, sum room, Option.bind_eq_bind, Option.bind_some,
              inductionHypothesis small.2]
          · simp only [if_neg room]

theorem superblock_address (mode : Overflow) :
    addWord mode 32 fsBaseLba superblockSector = some (fsBaseLba + superblockSector) :=
  addWord_of_lt mode (by decide)

theorem directory_address (mode : Overflow) :
    addWord mode 32 fsBaseLba directorySector = some (fsBaseLba + directorySector) :=
  addWord_of_lt mode (by decide)

theorem mount_mode (mode other : Overflow) (reader : Reader Device) (fs : FileSystem)
    (device : Device) : mount mode reader fs device = mount other reader fs device := by
  rw [mount, mount]
  simp only [superblock_address, directory_address, Option.bind_eq_bind, Option.bind_some]
  rcases reader.read device (fsBaseLba + superblockSector) (List.replicate sectorSize 0) with
    ⟨result, sector, between⟩
  cases result with
  | error error => rfl
  | ok _ =>
      refine Option.bind_congr fun found _ => ?_
      refine if_congr Iff.rfl rfl ?_
      refine Option.bind_congr fun foundVersion _ => ?_
      refine Option.bind_congr fun fileCount _ => ?_
      by_cases bad : foundVersion ≠ version ∨ fileCount > maxFiles
      · rw [if_pos bad, if_pos bad]
      · rw [if_neg bad, if_neg bad]
        rcases reader.read between (fsBaseLba + directorySector) sector with
          ⟨result, contents, last⟩
        cases result with
        | error error => rfl
        | ok _ =>
            have small : forall index, index ∈ List.range fileCount -> index < maxFiles := by
              intro index member
              have below := List.mem_range.mp member
              omega
            exact congrArg (fun loaded => Option.bind loaded _)
              (mountEntries_mode mode other contents small [])

theorem init_mode (mode other : Overflow) (reader : Reader Device) (fs : FileSystem)
    (device : Device) : init mode reader fs device = init other reader fs device :=
  congrArg (fun mounted => Option.bind mounted _)
    (mount_mode mode other reader { fs with mounted := false } device)

/-! ## What a read comes to -/

/-- Whole sectors that a file of the given size takes. -/
def sectorsFor (size : Nat) : Nat :=
  (size + (sectorSize - 1)) / sectorSize

theorem sectorsFor_bounds (size : Nat) :
    size ≤ sectorsFor size * sectorSize ∧ sectorsFor size * sectorSize < size + sectorSize := by
  unfold sectorsFor sectorSize
  omega

/-- What is left to do once an entry is found that fits the buffer. -/
def readEntry (mode : Overflow) (reader : Reader Device) (device : Device) (entry : DirEntry)
    (buf : List UInt8) : Option (Except FsError Nat × List UInt8 × Device) :=
  if entry.size = 0 then some (.ok 0, buf, device)
  else
    (addWord mode 32 fsBaseLba entry.lbaOff).bind fun lba =>
      match reader.read device lba (List.replicate (sectorsFor entry.size * sectorSize) 0) with
      | (.error error, _, device) => some (.error (.ata error), buf, device)
      | (.ok _, window, device) =>
          some (.ok entry.size, overwrite buf 0 (window.take entry.size), device)

/-- The scratch area has room for the sectors of every file that is read. -/
theorem scratch_window {size : Nat} (small : size ≤ maxFileSize) :
    slice (List.replicate maxFileSize (0 : UInt8)) 0 (sectorsFor size * sectorSize) =
      some (List.replicate (sectorsFor size * sectorSize) 0) := by
  have transfer : sectorsFor size * sectorSize ≤ maxFileSize := by
    unfold maxFileSize at small ⊢
    unfold sectorsFor sectorSize
    omega
  rw [slice_zero (by rw [List.length_replicate]; exact transfer), List.take_replicate,
    Nat.min_eq_left transfer]

theorem scratch_data {window : List UInt8} {size : Nat} (inside : size ≤ window.length)
    (scratch : List UInt8) :
    slice (overwrite scratch 0 window) 0 size = some (window.take size) := by
  rw [overwrite, List.take_zero, List.nil_append,
    slice_zero (by rw [List.length_append]; omega), List.take_append_of_le_length inside]

/-- For an entry that fits the buffer no slice is out of range, and what is left is
the sum of sector numbers and the read. -/
theorem readFile_found {mode : Overflow} {reader : Reader Device} {fs : FileSystem}
    {device : Device} {name buf : List UInt8} {entry : DirEntry} (mounted : fs.mounted = true)
    (named : ¬ (name.isEmpty || decide (name.length > nameLen)) = true)
    (found : fs.find name = some entry)
    (fits : ¬ (entry.size > buf.length ∨ entry.size > maxFileSize)) :
    readFile mode reader fs device name buf = readEntry mode reader device entry buf := by
  have roomy : entry.size ≤ buf.length := by omega
  have small : entry.size ≤ maxFileSize := by omega
  have bounds := sectorsFor_bounds entry.size
  have window := scratch_window small
  have transfer : mulWord mode 32 (sectorsFor entry.size) sectorSize =
      some (sectorsFor entry.size * sectorSize) := by
    apply mulWord_of_lt
    unfold maxFileSize at small
    unfold sectorSize at bounds ⊢
    omega
  rw [readFile, mounted, if_neg (by decide), if_neg named, found]
  simp only [if_neg fits]
  rw [readEntry]
  by_cases empty : entry.size = 0
  · rw [if_pos empty, if_pos empty]
  · rw [if_neg empty, if_neg empty, ← sectorsFor, transfer]
    simp only [Option.bind_eq_bind, Option.bind_some]
    cases addWord mode 32 fsBaseLba entry.lbaOff with
    | none => rfl
    | some lba =>
        have kept := reader.keepsLength device lba
          (List.replicate (sectorsFor entry.size * sectorSize) 0)
        rw [List.length_replicate] at kept
        simp only [Option.bind_some, window]
        rcases transferred : reader.read device lba
          (List.replicate (sectorsFor entry.size * sectorSize) 0) with ⟨result, filled, next⟩
        rw [transferred] at kept
        cases result with
        | error error => rfl
        | ok _ =>
            simp only at kept
            simp only [scratch_data (show entry.size ≤ filled.length by omega), slice_zero roomy,
              Option.bind_some]
            rfl

/-- A call refuses, and then does nothing, or it comes down to the entry of the
name. -/
theorem readFile_cases (mode : Overflow) (reader : Reader Device) (fs : FileSystem)
    (device : Device) (name buf : List UInt8) :
    (Exists fun error =>
      readFile mode reader fs device name buf = some (.error error, buf, device)) ∨
    Exists fun entry => fs.mounted = true ∧ fs.find name = some entry ∧
      entry.size ≤ buf.length ∧ entry.size ≤ maxFileSize ∧
        readFile mode reader fs device name buf = readEntry mode reader device entry buf := by
  cases mounted : fs.mounted with
  | false =>
      refine .inl ⟨.notMounted, ?_⟩
      rw [readFile, mounted]
      rfl
  | true =>
      by_cases unnamed : (name.isEmpty || decide (name.length > nameLen)) = true
      · refine .inl ⟨.notFound, ?_⟩
        rw [readFile, mounted, if_neg (by decide), if_pos unnamed]
      · cases found : fs.find name with
        | none =>
            refine .inl ⟨.notFound, ?_⟩
            rw [readFile, mounted, if_neg (by decide), if_neg unnamed, found]
        | some entry =>
            by_cases large : entry.size > buf.length ∨ entry.size > maxFileSize
            · refine .inl ⟨.tooLarge, ?_⟩
              rw [readFile, mounted, if_neg (by decide), if_neg unnamed, found]
              simp only [if_pos large]
            · exact .inr ⟨entry, rfl, rfl, by omega, by omega,
                readFile_found mounted unnamed found large⟩

end Calls

end Storage
end Goatos
