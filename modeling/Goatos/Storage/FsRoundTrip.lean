import Mathlib.Data.List.Nodup
import Mathlib.Data.List.TakeWhile
import Goatos.Storage.Fs
import Goatos.Storage.Pack

namespace Goatos
namespace Storage

open Library
open Pack (File entryOf layout superblockOf directoryOf)

/-!
# What was packed can be read

The image is a concatenation of parts whose places follow from the lengths of
the parts before them.  Each lemma takes one step of the reader, shows which
part of the image it sees, and decodes that part.
-/

/-- The image lies at its fixed place on the disk.  What the disk holds elsewhere is
left open. -/
def Installed (disk : Disk) (image : List UInt8) : Prop :=
  disk.bytes (fsBaseLba * sectorSize) image.length = image

theorem Installed.bytes_part {disk : Disk} {before part after : List UInt8} {start count : Nat}
    (installed : Installed disk (before ++ (part ++ after)))
    (atStart : start = fsBaseLba * sectorSize + before.length) (whole : count = part.length) :
    disk.bytes start count = part := by
  subst atStart whole
  unfold Installed at installed
  rw [List.length_append, List.length_append, Disk.bytes_append, Disk.bytes_append] at installed
  have tail := (List.append_inj installed (by simp)).2
  exact (List.append_inj tail (by simp)).1

theorem Reader.Returns.read_part {Device : Type} {reader : Reader Device} {disk : Disk}
    (returns : reader.Returns disk) {before part after : List UInt8}
    (installed : Installed disk (before ++ (part ++ after))) (device : Device) {lba : Nat}
    {buf : List UInt8} (valid : validRead lba buf.length = true)
    (atStart : lba * sectorSize = fsBaseLba * sectorSize + before.length)
    (whole : buf.length = part.length) :
    Exists fun next => reader.read device lba buf = (.ok (), part, next) := by
  rcases returns device lba buf valid with ⟨succeeded, delivered⟩
  rw [installed.bytes_part atStart whole] at delivered
  exact ⟨(reader.read device lba buf).2.2, Prod.ext succeeded (Prod.ext delivered rfl)⟩

/-- The name that the kernel sees: it ends at the first zero. -/
def textOf (file : File) : List UInt8 :=
  file.nameBytes.takeWhile (· != 0)

/-- The kernel accepts the name as it sees it: something is left of it, and all of
that is printable. -/
def Readable (file : File) : Prop :=
  textOf file ≠ [] ∧ (textOf file).all isNameByte = true

instance (file : File) : Decidable (Readable file) :=
  inferInstanceAs (Decidable (_ ∧ _))

theorem findIdx_padded {text : List UInt8} {width : Nat} (short : text.length < width) :
    ((text ++ List.replicate (width - text.length) 0).findIdx? (· == 0)).getD width =
      (text.takeWhile (· != 0)).length := by
  induction text generalizing width with
  | nil =>
      rcases Nat.exists_eq_add_of_lt short with ⟨more, rfl⟩
      rfl
  | cons byte rest inductionHypothesis =>
      rw [List.length_cons] at short ⊢
      have padding : width - (rest.length + 1) = width - 1 - rest.length := by omega
      have whole : width - 1 + 1 = width := by omega
      have remaining := @inductionHypothesis (width - 1) (by omega)
      rw [List.cons_append, List.findIdx?_cons, padding]
      by_cases zero : byte = 0
      · simp [zero]
      · rw [if_neg (by simpa using zero), List.takeWhile_cons_of_pos (by simpa using zero),
          List.length_cons, ← remaining]
        cases (rest ++ List.replicate (width - 1 - rest.length) 0).findIdx? (· == 0) with
        | some index => rfl
        | none => exact whole.symm

/-- A file that can be packed and found again: a printable name of 1 to 31
characters, and contents of at most 4096 bytes. -/
structure GoodFile (file : File) : Prop where
  printable : forall char, char ∈ file.name.toList ->
    '!'.toNat ≤ char.toNat ∧ char.toNat ≤ '~'.toNat
  named : 1 ≤ file.name.length
  short : file.name.length ≤ 31
  small : file.contents.length ≤ 4096

namespace GoodFile

variable {file : File}

theorem length_nameBytes (file : File) : file.nameBytes.length = file.name.length := by
  rw [File.nameBytes, List.length_map, String.length_toList]

theorem packable (good : GoodFile file) : file.Packable where
  ascii := by
    rw [List.all_eq_true]
    intro char member
    have bounds := (good.printable char member).2
    exact decide_eq_true (Nat.lt_of_le_of_lt bounds (by decide))
  named := by
    rw [length_nameBytes]
    exact good.named
  short := by
    rw [length_nameBytes]
    exact Nat.lt_of_le_of_lt good.short (by decide)
  small := good.small

theorem nameBytes_all (good : GoodFile file) : file.nameBytes.all isNameByte = true := by
  rw [List.all_eq_true]
  intro byte member
  rcases List.mem_map.mp member with ⟨char, inName, rfl⟩
  have bounds := good.printable char inName
  have lower : 0x21 ≤ char.toNat := bounds.1
  have upper : char.toNat ≤ 0x7e := bounds.2
  have value : (UInt8.ofNat char.toNat).toNat = char.toNat :=
    UInt8.toNat_ofNat_of_lt' (Nat.lt_of_le_of_lt upper (by decide))
  unfold isNameByte
  simp only [Bool.and_eq_true, decide_eq_true_eq, UInt8.le_iff_toNat_le, value]
  exact ⟨lower, upper⟩

theorem textOf_eq (good : GoodFile file) : textOf file = file.nameBytes := by
  rw [textOf, List.takeWhile_eq_self_iff]
  intro byte member
  have allowed := List.all_eq_true.mp good.nameBytes_all byte member
  rw [bne_iff_ne]
  intro zero
  rw [zero] at allowed
  exact absurd allowed (by decide)

theorem readable (good : GoodFile file) : Readable file := by
  rw [Readable, good.textOf_eq]
  exact ⟨List.ne_nil_of_length_pos good.packable.named, good.nameBytes_all⟩

end GoodFile

theorem readU32_append {offset value : Nat} (before after : List UInt8) (fits : value < 2 ^ 32)
    (atOffset : offset = before.length) :
    readU32 (before ++ (leBytes 4 value ++ after)) offset = some value := by
  rw [readU32, slice_append before (leBytes 4 value) after atOffset (by simp), Option.map_some,
    ofLeBytes_leBytes fits]

/-- The directory entry in memory of a packed file at a place, if its name is
accepted. -/
def entrySeen (placed : File × Nat) : DirEntry where
  name := textOf placed.1 ++ List.replicate (nameLen - (textOf placed.1).length) 0
  nameLen := (textOf placed.1).length
  size := placed.1.contents.length
  lbaOff := placed.2

/-- The reader's decoding of the builder's encoding of an entry: the entry as it is
kept in memory, or the error for a name that is not accepted. -/
theorem parseEntry_packed (mode : Overflow) {placed : File × Nat} (packable : placed.1.Packable)
    (afterDirectory : 2 ≤ placed.2) (fits : placed.2 < 2 ^ 32) {before after : List UInt8}
    {index : Nat} (inside : index < maxFiles) (atIndex : before.length = index * dirEntrySize) :
    parseEntry mode (before ++ (entryOf placed ++ after)) index =
      some (if Readable placed.1 then .ok (entrySeen placed) else .error .badDirectory) := by
  have short := packable.short
  have small := packable.small
  unfold Pack.nameLen at short
  let field := placed.1.nameBytes ++ List.replicate (32 - placed.1.nameBytes.length) 0
  have fieldLength : field.length = 32 := by
    simp [field]
    omega
  have parts : entryOf placed = field ++ (leBytes 4 placed.1.contents.length ++
      (leBytes 4 placed.2 ++ List.replicate 24 0)) := by
    simp [entryOf, field]
  have raw : slice (before ++ (entryOf placed ++ after)) (index * dirEntrySize)
      (index * dirEntrySize + dirEntrySize) = some (entryOf placed) :=
    slice_append _ _ _ atIndex.symm
      (congrArg (index * dirEntrySize + ·) (Pack.length_entryOf packable placed.2).symm)
  have nameField : slice (entryOf placed) 0 nameLen = some field := by
    rw [parts]
    exact slice_append [] field _ rfl (by rw [fieldLength]; rfl)
  have inField : textOf placed.1 <+: field :=
    (List.takeWhile_prefix _).trans (List.prefix_append _ _)
  have text : slice field 0 (textOf placed.1).length = some (textOf placed.1) := by
    rw [slice_zero inField.length_le, ← List.prefix_iff_eq_take.mp inField]
  have size : readU32 (entryOf placed) 32 = some placed.1.contents.length := by
    rw [parts]
    exact readU32_append _ _ (by omega) fieldLength.symm
  have place : readU32 (entryOf placed) 36 = some placed.2 := by
    rw [parts, ← List.append_assoc]
    exact readU32_append _ _ fits (by simp [fieldLength])
  have len : (field.findIdx? (· == 0)).getD nameLen = (textOf placed.1).length :=
    findIdx_padded short
  have accepted : ¬ (placed.1.contents.length > maxFileSize ∨ placed.2 < 2) := by
    unfold maxFileSize
    omega
  rw [parseEntry_eq mode _ inside, raw]
  simp only [parseRaw, nameField, len, text, size, place, Option.bind_eq_bind,
    Option.bind_some, List.length_eq_zero_iff, accepted, if_false]
  by_cases unnamed : textOf placed.1 = []
  · rw [if_pos unnamed, if_neg (fun readable => readable.1 unnamed)]
    rfl
  · rw [if_neg unnamed]
    cases printable : (textOf placed.1).all isNameByte with
    | true =>
        have readable : Readable placed.1 := ⟨unnamed, printable⟩
        rw [if_pos readable]
        rfl
    | false =>
        have unreadable : ¬ Readable placed.1 :=
          fun readable => Bool.false_ne_true (printable.symm.trans readable.2)
        rw [if_neg unreadable]
        rfl

theorem length_flatMap_entryOf {placed : List (File × Nat)}
    (packable : forall item, item ∈ placed -> item.1.Packable) :
    (placed.flatMap entryOf).length = placed.length * dirEntrySize := by
  induction placed with
  | nil => rfl
  | cons item rest inductionHypothesis =>
      have atItem := Pack.length_entryOf (packable item List.mem_cons_self) item.2
      have atRest := inductionHypothesis
        (fun other member => packable other (List.mem_cons_of_mem _ member))
      unfold Pack.dirEntry at atItem
      unfold dirEntrySize at atRest ⊢
      rw [List.flatMap_cons, List.length_append, atItem, atRest, List.length_cons]
      omega

/-- The loop over the directory, after some entries and before the rest.  It ends
at the first name that the kernel does not accept. -/
theorem mountEntries_packed (mode : Overflow) {done rest : List (File × Nat)} {padding : List UInt8}
    (packable : forall item, item ∈ done ++ rest -> item.1.Packable)
    (places : forall item, item ∈ done ++ rest -> 2 ≤ item.2 ∧ item.2 < 2 ^ 32)
    (few : (done ++ rest).length ≤ maxFiles) {files : List DirEntry}
    (filled : files.length = done.length) :
    mountEntries mode ((done ++ rest).flatMap entryOf ++ padding)
        (List.range' done.length rest.length) files =
      some (if forall item, item ∈ rest -> Readable item.1 then .ok () else .error .badDirectory,
        files ++ (rest.takeWhile (fun item => Readable item.1)).map entrySeen) := by
  induction rest generalizing done files with
  | nil => simp [mountEntries]
  | cons item rest inductionHypothesis =>
      have member : item ∈ done ++ item :: rest := by simp
      have regroup : done ++ item :: rest = done ++ [item] ++ rest := List.append_cons _ _ _
      have split : (done ++ item :: rest).flatMap entryOf ++ padding =
          done.flatMap entryOf ++ (entryOf item ++ (rest.flatMap entryOf ++ padding)) := by
        simp
      have atIndex := length_flatMap_entryOf
        (fun other inDone => packable other (List.mem_append_left (item :: rest) inDone))
      have room : files.length < maxFiles := by
        rw [List.length_append, List.length_cons] at few
        omega
      have parsed := @parseEntry_packed mode item (packable item member) (places item member).1
        (places item member).2 _ (rest.flatMap entryOf ++ padding) _ (filled ▸ room) atIndex
      rw [← split] at parsed
      rw [List.length_cons, List.range'_succ]
      by_cases readable : Readable item.1
      · have next := @inductionHypothesis (done ++ [item]) (regroup ▸ packable) (regroup ▸ places)
          (regroup ▸ few) (files ++ [entrySeen item]) (by simp [filled])
        rw [List.length_append, List.length_singleton, ← regroup] at next
        rw [if_pos readable] at parsed
        rw [mountEntries_ok parsed _ room, next, List.takeWhile_cons_of_pos
          (p := fun item : File × Nat => decide (Readable item.1)) (decide_eq_true readable)]
        simp only [List.forall_mem_cons, readable, true_and, List.map_cons, List.append_assoc,
          List.singleton_append]
      · have unreadable : ¬ forall other, other ∈ item :: rest -> Readable other.1 :=
          fun all => readable (all item List.mem_cons_self)
        rw [if_neg readable] at parsed
        rw [mountEntries_error parsed, if_neg unreadable,
          List.takeWhile_cons_of_neg (by simpa using readable), List.map_nil, List.append_nil]

/-! ## Where the data lies -/

theorem map_fst_layout (start : Nat) (files : List File) :
    (layout start files).map Prod.fst = files := by
  induction files generalizing start with
  | nil => rfl
  | cons file rest inductionHypothesis => simp [layout, inductionHypothesis]

theorem length_layout (start : Nat) (files : List File) :
    (layout start files).length = files.length := by
  rw [← List.length_map Prod.fst, map_fst_layout]

theorem mem_of_mem_layout {start : Nat} {files : List File} {item : File × Nat}
    (member : item ∈ layout start files) : item.1 ∈ files := by
  rw [← map_fst_layout start files]
  exact List.mem_map_of_mem member

theorem exists_mem_layout (start : Nat) {files : List File} {file : File} (member : file ∈ files) :
    Exists fun lba => (file, lba) ∈ layout start files := by
  rw [← map_fst_layout start files] at member
  rcases List.mem_map.mp member with ⟨item, inLayout, rfl⟩
  exact ⟨item.2, inLayout⟩

theorem sectors_bounds (file : File) :
    file.contents.length ≤ file.sectors * 512 ∧ file.sectors * 512 < file.contents.length + 512 := by
  unfold File.sectors Pack.sector
  omega

theorem length_blob (file : File) : file.blob.length = file.sectors * sectorSize := by
  have bounds := sectors_bounds file
  rw [File.blob, List.length_append, List.length_replicate]
  unfold Pack.sector sectorSize
  omega

/-- Packed files take at most eight sectors each, one after the other, so their
sector numbers stay small. -/
theorem place_bounds {files : List File}
    (packable : forall file, file ∈ files -> file.Packable)
    {start : Nat} {item : File × Nat} (member : item ∈ layout start files) :
    start ≤ item.2 ∧ item.2 ≤ start + 8 * files.length := by
  induction files generalizing start with
  | nil => cases member
  | cons file rest inductionHypothesis =>
      have bounds := sectors_bounds file
      have small := (packable file List.mem_cons_self).small
      rw [List.length_cons]
      rcases List.mem_cons.mp member with rfl | later
      · exact ⟨Nat.le_refl _, Nat.le_add_right _ _⟩
      · have atLater := inductionHypothesis
          (fun other inRest => packable other (List.mem_cons_of_mem _ inRest)) later
        omega

/-- The padded contents of a file stand in the data where its entry says. -/
theorem blob_placed {files : List File} {start : Nat} {item : File × Nat}
    (member : item ∈ layout start files) :
    Exists fun before => Exists fun after =>
      (files.map File.blob).flatten = before ++ (item.1.blob ++ after) ∧
        start * sectorSize + before.length = item.2 * sectorSize := by
  induction files generalizing start with
  | nil => cases member
  | cons file rest inductionHypothesis =>
      rcases List.mem_cons.mp member with rfl | later
      · exact ⟨[], (rest.map File.blob).flatten, by simp, by simp⟩
      · rcases inductionHypothesis later with ⟨before, after, equal, place⟩
        refine ⟨file.blob ++ before, after, by simp [equal], ?_⟩
        rw [List.length_append, length_blob, ← place, Nat.add_mul, Nat.add_assoc]

/-! ## Mounting -/

/-- The mounted directory of packed files: their entries, up to the first name that
is not accepted. -/
def directorySeen (files : List File) : List DirEntry :=
  ((layout 2 files).takeWhile (fun item => Readable item.1)).map entrySeen

/-- With all names accepted, no entry is lost. -/
theorem directorySeen_eq {files : List File}
    (readable : forall file, file ∈ files -> Readable file) :
    directorySeen files = (layout 2 files).map entrySeen := by
  have whole : (layout 2 files).takeWhile (fun item => Readable item.1) = layout 2 files := by
    rw [List.takeWhile_eq_self_iff]
    intro item member
    exact decide_eq_true (readable item.1 (mem_of_mem_layout member))
  rw [directorySeen, whole]

theorem length_superblockOf (count : Nat) : (superblockOf count).length = sectorSize := by
  unfold superblockOf
  rw [List.length_append, List.length_append, List.length_append, length_leBytes, length_leBytes,
    List.length_replicate]
  rfl

/-- The three fields of the builder's superblock that the reader checks, each at its
offset. -/
theorem superblockOf_fields {count : Nat} (fits : count < 2 ^ 32) :
    slice (superblockOf count) 0 8 = some magic ∧
      readU32 (superblockOf count) 8 = some version ∧
      readU32 (superblockOf count) 12 = some count := by
  rw [superblockOf]
  refine ⟨slice_append [] magic _ rfl rfl, readU32_append magic _ (by decide) rfl, ?_⟩
  rw [← List.append_assoc]
  exact readU32_append _ _ fits (by simp; rfl)

theorem length_directoryOf {files : List File}
    (packable : forall file, file ∈ files -> file.Packable)
    (few : files.length ≤ maxFiles) : (directoryOf files).length = sectorSize := by
  have entries := length_flatMap_entryOf
    (fun item (member : item ∈ layout 2 files) => packable item.1 (mem_of_mem_layout member))
  rw [length_layout] at entries
  rw [directoryOf, List.length_append, entries, List.length_replicate]
  unfold maxFiles at few
  unfold dirEntrySize Pack.maxFiles Pack.dirEntry sectorSize
  omega

/-- The image of packed files, as a concatenation of superblock, directory and
data. -/
def imageOf (files : List File) : List UInt8 :=
  superblockOf files.length ++ (directoryOf files ++ (files.map File.blob).flatten)

section Mounted

variable {Device : Type} {reader : Reader Device} {disk : Disk} {files : List File}

/-- Mounting a disk with a superblock is the loop over its directory sector. -/
theorem mount_installed (mode : Overflow) (returns : reader.Returns disk) {count : Nat}
    {directory data : List UInt8}
    (installed : Installed disk (superblockOf count ++ (directory ++ data)))
    (few : count ≤ maxFiles) (sector : directory.length = sectorSize) (fs : FileSystem)
    (device : Device) :
    Exists fun next => mount mode reader fs device =
      (mountEntries mode directory (List.range count) []).map (fun loaded =>
        (loaded.1.map (fun _ => loaded.2.length), { fs with files := loaded.2 }, next)) := by
  have superblock := length_superblockOf count
  have small : count < 2 ^ 32 := by
    unfold maxFiles at few
    omega
  have first : Installed disk ([] ++ (superblockOf count ++ (directory ++ data))) := installed
  rcases returns.read_part first device (show validRead (fsBaseLba + superblockSector)
    (List.replicate sectorSize (0 : UInt8)).length = true by
      rw [List.length_replicate]; decide) rfl
    (by rw [superblock, List.length_replicate]) with ⟨middle, readFirst⟩
  rcases returns.read_part installed middle (show validRead (fsBaseLba + directorySector)
    (superblockOf count).length = true by rw [superblock]; decide)
    (by rw [superblock]; rfl) (by rw [superblock, sector]) with ⟨last, readSecond⟩
  rcases superblockOf_fields small with ⟨marked, versioned, counted⟩
  refine ⟨last, ?_⟩
  simp only [mount, superblock_address, directory_address, readFirst, marked, versioned, counted, readSecond, Option.bind_eq_bind,
    Option.bind_some, ne_eq, not_true_eq_false, if_false, false_or]
  rw [if_neg (Nat.not_lt_of_le few)]
  cases mountEntries mode directory (List.range count) [] with
  | none => rfl
  | some loaded => rfl

/-- Mounting the image of packed files stops at the first name that the kernel
does not accept. -/
theorem mount_packed (mode : Overflow) (returns : reader.Returns disk)
    (installed : Installed disk (imageOf files))
    (packable : forall file, file ∈ files -> file.Packable) (few : files.length ≤ maxFiles)
    (fs : FileSystem) (device : Device) :
    Exists fun next => mount mode reader fs device =
      some (if forall file, file ∈ files -> Readable file then .ok (directorySeen files).length
        else .error .badDirectory, { fs with files := directorySeen files }, next) := by
  have loop := @mountEntries_packed mode [] (layout 2 files)
    (List.replicate ((Pack.maxFiles - files.length) * Pack.dirEntry) 0)
    (fun item member => packable item.1 (mem_of_mem_layout member))
    (fun item member => by
      have bounds := place_bounds packable member
      unfold maxFiles at few
      omega)
    (by rw [List.nil_append, length_layout]; exact few) [] rfl
  have all : (forall item, item ∈ layout 2 files -> Readable item.1) ↔
      forall file, file ∈ files -> Readable file := by
    conv_rhs => rw [← map_fst_layout 2 files]
    rw [List.forall_mem_map]
  rw [List.nil_append, length_layout, List.length_nil, List.nil_append, ← List.range_eq_range',
    ← directoryOf] at loop
  rcases mount_installed mode returns installed few (length_directoryOf packable few) fs device with
    ⟨next, mounted⟩
  refine ⟨next, ?_⟩
  rw [mounted, loop, Option.map_some]
  simp only [all]
  split
  · rfl
  · rfl

theorem mount_image (mode : Overflow) (returns : reader.Returns disk)
    (installed : Installed disk (imageOf files))
    (good : forall file, file ∈ files -> GoodFile file) (few : files.length ≤ maxFiles)
    (fs : FileSystem) (device : Device) :
    Exists fun next => mount mode reader fs device =
      some (.ok files.length, { fs with files := directorySeen files }, next) := by
  have readable := fun file member => (good file member).readable
  rcases mount_packed mode returns installed (fun file member => (good file member).packable) few
    fs device with ⟨next, mounted⟩
  refine ⟨next, ?_⟩
  rw [mounted, if_pos readable, directorySeen_eq readable, List.length_map, length_layout]

theorem init_image (mode : Overflow) (returns : reader.Returns disk)
    (installed : Installed disk (imageOf files))
    (good : forall file, file ∈ files -> GoodFile file) (few : files.length ≤ maxFiles)
    (fs : FileSystem) (device : Device) :
    Exists fun next => init mode reader fs device =
      some (⟨true, files.length, "mounted"⟩, ⟨true, directorySeen files⟩, next) := by
  rcases mount_image mode returns installed good few { fs with mounted := false } device with
    ⟨next, mounted⟩
  refine ⟨next, ?_⟩
  simp only [init, mounted, Option.bind_eq_bind, Option.bind_some]
  rfl

/-! ## Finding a name -/

/-- An entry is found under its own name only. -/
theorem matches_entrySeen (item : File × Nat) (name : List UInt8) :
    ((entrySeen item).nameLen == name.length &&
      (entrySeen item).name.take (entrySeen item).nameLen == name) =
        decide (textOf item.1 = name) := by
  have text : (entrySeen item).name.take (entrySeen item).nameLen = textOf item.1 :=
    List.take_left' rfl
  rw [text, Bool.eq_iff_iff]
  simp only [Bool.and_eq_true, beq_iff_eq, decide_eq_true_eq, entrySeen]
  constructor
  · exact fun both => both.2
  · intro same
    exact ⟨congrArg List.length same, same⟩

theorem find_directorySeen (readable : forall file, file ∈ files -> Readable file)
    (mounted : Bool) (name : List UInt8) :
    (FileSystem.mk mounted (directorySeen files)).find name =
      ((layout 2 files).find? (fun item => textOf item.1 = name)).map entrySeen := by
  rw [FileSystem.find, directorySeen_eq readable, List.find?_map]
  congr 2
  funext item
  exact matches_entrySeen item name

/-- Printable names are recovered from their bytes, so distinct names stay distinct
on the disk. -/
theorem nameBytes_inj {left right : File} (goodLeft : GoodFile left) (goodRight : GoodFile right)
    (same : left.nameBytes = right.nameBytes) : left.name = right.name := by
  have recovered : forall {file : File}, GoodFile file ->
      file.nameBytes.map (fun byte => Char.ofNat byte.toNat) = file.name.toList := by
    intro file good
    have each : forall char, char ∈ file.name.toList ->
        Char.ofNat (UInt8.ofNat char.toNat).toNat = char := by
      intro char member
      have upper : char.toNat ≤ 0x7e := (good.printable char member).2
      rw [UInt8.toNat_ofNat_of_lt' (Nat.lt_of_le_of_lt upper (by decide)), Char.ofNat_toNat]
    rw [File.nameBytes, List.map_map]
    exact (List.map_congr_left each).trans (List.map_id _)
  apply String.toList_inj.mp
  rw [← recovered goodLeft, ← recovered goodRight, same]

theorem nodup_nameBytes (good : forall file, file ∈ files -> GoodFile file)
    (distinct : (files.map File.name).Nodup) : (files.map File.nameBytes).Nodup := by
  apply List.Nodup.map_on _ (List.Nodup.of_map _ distinct)
  intro left inLeft right inRight same
  exact List.inj_on_of_nodup_map distinct inLeft inRight
    (nameBytes_inj (good left inLeft) (good right inRight) same)

/-- With distinct keys, the search for a member's key finds that member. -/
private theorem find?_of_nodup_map {Item Key : Type} [DecidableEq Key] (key : Item -> Key)
    {items : List Item} (distinct : (items.map key).Nodup) {item : Item} (member : item ∈ items) :
    items.find? (fun other => decide (key other = key item)) = some item := by
  induction items with
  | nil => cases member
  | cons first rest inductionHypothesis =>
      rw [List.map_cons, List.nodup_cons] at distinct
      rcases List.mem_cons.mp member with rfl | later
      · simp
      · have different : ¬ key first = key item :=
          fun same => distinct.1 (same ▸ List.mem_map_of_mem later)
        rw [List.find?_cons_of_neg (by simpa using different)]
        exact inductionHypothesis distinct.2 later

theorem find_packed (good : forall file, file ∈ files -> GoodFile file)
    (distinct : (files.map File.name).Nodup) {item : File × Nat} (member : item ∈ layout 2 files) :
    (FileSystem.mk true (directorySeen files)).find item.1.nameBytes = some (entrySeen item) := by
  have keys : (layout 2 files).map (fun item => textOf item.1) = files.map File.nameBytes := by
    conv_rhs => rw [← map_fst_layout 2 files]
    rw [List.map_map]
    exact List.map_congr_left (fun item member => (good item.1 (mem_of_mem_layout member)).textOf_eq)
  have distinctKeys := nodup_nameBytes good distinct
  rw [← keys] at distinctKeys
  rw [find_directorySeen (fun file member => (good file member).readable),
    ← (good item.1 (mem_of_mem_layout member)).textOf_eq,
    find?_of_nodup_map (fun item : File × Nat => textOf item.1) distinctKeys member,
    Option.map_some]

theorem find_other (good : forall file, file ∈ files -> GoodFile file) {name : List UInt8}
    (other : forall file, file ∈ files -> file.nameBytes ≠ name) (mounted : Bool) :
    (FileSystem.mk mounted (directorySeen files)).find name = none := by
  rw [find_directorySeen (fun file member => (good file member).readable), Option.map_eq_none_iff,
    List.find?_eq_none]
  intro item member
  have inFiles := mem_of_mem_layout member
  rw [(good item.1 inFiles).textOf_eq]
  simpa using other item.1 inFiles

/-! ## Reading a file -/

/-- The data of a packed file, read from the disk: all of its sectors, the last one
padded. -/
theorem read_blob (returns : reader.Returns disk) (installed : Installed disk (imageOf files))
    (good : forall file, file ∈ files -> GoodFile file) (few : files.length ≤ maxFiles)
    {item : File × Nat} (member : item ∈ layout 2 files) (nonempty : item.1.contents.length ≠ 0)
    (device : Device) {buf : List UInt8} (whole : buf.length = item.1.sectors * sectorSize) :
    Exists fun next =>
      reader.read device (fsBaseLba + item.2) buf = (.ok (), item.1.blob, next) := by
  rcases blob_placed member with ⟨before, after, equal, place⟩
  have inside : Installed disk ((superblockOf files.length ++ (directoryOf files ++ before)) ++
      (item.1.blob ++ after)) := by
    have image : imageOf files = (superblockOf files.length ++ (directoryOf files ++ before)) ++
        (item.1.blob ++ after) := by
      simp [imageOf, equal]
    rwa [image] at installed
  have packable := fun file member => (good file member).packable
  have bounds := place_bounds packable member
  have sectors := sectors_bounds item.1
  have small := (good item.1 (mem_of_mem_layout member)).small
  have superblock := length_superblockOf files.length
  have directory := length_directoryOf packable few
  apply returns.read_part inside device
  · unfold validRead
    unfold maxFiles at few
    unfold sectorSize at *
    unfold fsBaseLba
    simp only [Bool.and_eq_true, decide_eq_true_eq, ne_eq]
    omega
  · rw [List.length_append, List.length_append, superblock, directory, Nat.add_mul, ← place,
      ← Nat.add_assoc sectorSize, ← Nat.two_mul]
  · rw [whole, length_blob]

theorem readFile_packed (returns : reader.Returns disk) (installed : Installed disk (imageOf files))
    (good : forall file, file ∈ files -> GoodFile file) (few : files.length ≤ maxFiles)
    (distinct : (files.map File.name).Nodup) {file : File} (member : file ∈ files)
    (mode : Overflow) (device : Device) {buf : List UInt8}
    (room : file.contents.length ≤ buf.length) :
    Exists fun next => readFile mode reader ⟨true, directorySeen files⟩ device file.nameBytes buf =
      some (.ok file.contents.length, file.contents ++ buf.drop file.contents.length, next) := by
  rcases exists_mem_layout 2 member with ⟨lba, placed⟩
  have found := find_packed good distinct placed
  have named := (good file member).packable.named
  have short := (good file member).packable.short
  have small := (good file member).small
  have sectors := sectors_bounds file
  have searched : ¬ (file.nameBytes.isEmpty || decide (file.nameBytes.length > nameLen)) = true := by
    unfold Pack.nameLen at short
    unfold nameLen
    rw [Bool.or_eq_true, decide_eq_true_eq, List.isEmpty_iff_length_eq_zero]
    omega
  have fits : ¬ (file.contents.length > buf.length ∨ file.contents.length > maxFileSize) := by
    unfold maxFileSize
    omega
  rw [readFile_found rfl searched found fits, readEntry]
  by_cases empty : file.contents.length = 0
  · refine ⟨device, ?_⟩
    rw [List.length_eq_zero_iff.mp empty]
    exact if_pos empty
  · have bounds := place_bounds (fun file member => (good file member).packable) placed
    have address : addWord mode 32 fsBaseLba lba = some (fsBaseLba + lba) := by
      apply addWord_of_lt
      unfold maxFiles at few
      unfold fsBaseLba
      simp only at bounds
      omega
    rcases @read_blob _ _ _ _ returns installed good few _ placed empty device
      (List.replicate (file.sectors * sectorSize) 0) (List.length_replicate) with ⟨next, delivered⟩
    have count : sectorsFor file.contents.length = file.sectors := rfl
    have data : file.blob.take file.contents.length = file.contents := List.take_left
    refine ⟨next, ?_⟩
    simp only [entrySeen, if_neg empty, address, Option.bind_some, count, delivered, data]
    rw [overwrite, List.take_zero, List.nil_append, Nat.zero_add]

theorem readFile_other (good : forall file, file ∈ files -> GoodFile file) {name : List UInt8}
    (other : forall file, file ∈ files -> file.nameBytes ≠ name) (mode : Overflow)
    (device : Device) (buf : List UInt8) :
    readFile mode reader ⟨true, directorySeen files⟩ device name buf =
      some (.error .notFound, buf, device) := by
  rw [readFile, find_other good other]
  simp only [Bool.not_true, Bool.false_eq_true, if_false]
  split
  · rfl
  · rfl

end Mounted

/-! ## The round trip -/

section RoundTrip

variable {Device : Type}

/-- A mounted file system that has the given files and no others.  Every other name
is not found, whatever the buffer. -/
structure Serves (files : List File) (reader : Reader Device) (fs : FileSystem) : Prop where
  listed : forall file, file ∈ files -> forall (mode : Overflow) (device : Device) buf,
    file.contents.length ≤ buf.length ->
      Exists fun next => readFile mode reader fs device file.nameBytes buf =
        some (.ok file.contents.length, file.contents ++ buf.drop file.contents.length, next)
  others : forall name, (forall file, file ∈ files -> file.nameBytes ≠ name) ->
    forall (mode : Overflow) (device : Device) buf,
      readFile mode reader fs device name buf = some (.error .notFound, buf, device)

/-- In either kind of build and from any earlier state, mounting succeeds with all
files and then serves them. -/
structure ReadsBack (files : List File) (reader : Reader Device) : Prop where
  mounts : forall (mode : Overflow) (fs : FileSystem) (device : Device),
    Exists fun mountedFs => Exists fun next =>
      mount mode reader fs device = some (.ok files.length, mountedFs, next)
  starts : forall (mode : Overflow) (fs : FileSystem) (device : Device),
    Exists fun mountedFs => Exists fun next =>
      init mode reader fs device = some (⟨true, files.length, "mounted"⟩, mountedFs, next) ∧
        Serves files reader mountedFs

/-- A drive that always delivers its disk. -/
def Reader.ofDisk (disk : Disk) : Reader Unit where
  read := fun _ lba buf => (.ok (), disk.bytes (lba * sectorSize) buf.length, ())
  keepsLength := by
    intro _ lba buf
    exact disk.length_bytes _ _

end RoundTrip

/-- Whatever good files are packed, the kernel mounts the image, reads every file
back unchanged, and finds no other name. -/
theorem packed_files_read_back (files : List File) (few : files.length ≤ 8)
    (distinct : (files.map File.name).Nodup) (good : forall file, file ∈ files -> GoodFile file) :
    Exists fun image => Pack.pack files = .ok image ∧
      forall disk, Installed disk image ->
        forall (Device : Type) (reader : Reader Device), reader.Returns disk ->
          ReadsBack files reader := by
  refine ⟨imageOf files, Pack.pack_eq (fun file member => (good file member).packable) few, ?_⟩
  intro disk installed Device reader returns
  constructor
  · intro mode fs device
    rcases mount_image mode returns installed good few fs device with ⟨next, mounted⟩
    exact ⟨_, next, mounted⟩
  · intro mode fs device
    rcases init_image mode returns installed good few fs device with ⟨next, started⟩
    refine ⟨_, next, started, ?_⟩
    constructor
    · intro file member mode later buf room
      exact readFile_packed returns installed good few distinct member mode later room
    · intro name other mode later buf
      exact readFile_other good other mode later buf

/-- A disk that holds nothing but an image: zeros before it and behind it. -/
def Disk.holding (image : List UInt8) : Disk :=
  fun address =>
    if address < fsBaseLba * sectorSize then 0
    else image[address - fsBaseLba * sectorSize]?.getD 0

theorem installed_holding (image : List UInt8) : Installed (Disk.holding image) image := by
  apply List.ext_getElem
  · simp
  · intro index _ bound
    simp [Disk.bytes, Disk.holding, bound]

def asciiBytes (text : String) : List UInt8 :=
  text.toList.map (fun char => UInt8.ofNat char.toNat)

/-- The file that the repository packs, and an empty one, on a drive that holds
nothing but the image. -/
theorem packed_files_read_back_hello :
    let files : List File :=
      [⟨"hello.txt", asciiBytes "GOATos says hello from disk!\n"⟩, ⟨"empty", []⟩]
    Exists fun image => Pack.pack files = .ok image ∧
      ReadsBack files (readLba true (Reader.ofDisk (Disk.holding image))) := by
  intro files
  have printable : forall {text : List Char},
      text.all (fun char => '!'.toNat ≤ char.toNat && char.toNat ≤ '~'.toNat) = true ->
      forall char, char ∈ text -> '!'.toNat ≤ char.toNat ∧ char.toNat ≤ '~'.toNat := by
    intro text all char member
    have both := List.all_eq_true.mp all char member
    rwa [Bool.and_eq_true, decide_eq_true_eq, decide_eq_true_eq] at both
  have good : forall file, file ∈ files -> GoodFile file := by
    intro file member
    rcases List.mem_cons.mp member with rfl | later
    · exact ⟨printable (by decide), by decide, by decide, by decide⟩
    · rw [List.mem_singleton.mp later]
      exact ⟨printable (by decide), by decide, by decide, by decide⟩
  rcases packed_files_read_back files (by decide) (by decide) good with ⟨image, packed, reads⟩
  exact ⟨image, packed, reads _ (installed_holding image) Unit _
    (readLba_returns (fun _ _ _ _ => ⟨rfl, rfl⟩))⟩

end Storage
end Goatos
