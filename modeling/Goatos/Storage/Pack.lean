import Goatos.Library.LittleEndian
import Goatos.Library.Slice

namespace Goatos
namespace Storage
namespace Pack

open Library

/-!
# The image builder

`pack` writes the image that the kernel mounts.  It runs on the developer's
machine and keeps its own copy of the layout.  It fills one directory entry per
file and appends the contents, padded to whole sectors, so the first sector of
a file is the sum of those before it.
-/

def magic : List UInt8 := [0x47, 0x4f, 0x41, 0x54, 0x46, 0x53, 0x30, 0x31]

def version : Nat := 1

def sector : Nat := 512

def nameLen : Nat := 32

def dirEntry : Nat := 64

def maxFiles : Nat := 8

/-- A file to pack, with its name as a string of any characters. -/
structure File where
  name : String
  contents : List UInt8
  deriving DecidableEq, Repr

/-- Why an image was not written, with the name of the file at fault if it is one
file. -/
inductive PackError where
  | tooManyFiles
  | notAscii (name : String)
  | badFileName (name : String)
  | fileTooLarge (name : String)
  deriving DecidableEq, Repr

def File.nameBytes (file : File) : List UInt8 :=
  file.name.toList.map (fun char => UInt8.ofNat char.toNat)

/-- `name.encode("ascii")`, which fails outside ASCII. -/
def File.encodeName (file : File) : Option (List UInt8) :=
  if file.name.toList.all (fun char => char.toNat < 128) then some file.nameBytes else none

def File.sectors (file : File) : Nat :=
  (file.contents.length + sector - 1) / sector

/-- The contents, padded with zeros to whole sectors. -/
def File.blob (file : File) : List UInt8 :=
  file.contents ++ List.replicate (file.sectors * sector - file.contents.length) 0

/-- A directory entry for a name, a size and a first sector. -/
def entryBytes (name : List UInt8) (size dataLba : Nat) : List UInt8 :=
  let entry := List.replicate dirEntry 0
  let entry := overwrite entry 0 name
  overwrite entry 32 (leBytes 4 size ++ leBytes 4 dataLba)

/-- The loop over the files, with its index, the next free sector, the directory
so far and the data so far. -/
def packFiles : (index dataLba : Nat) -> (dirBytes : List UInt8) -> (blobs : List (List UInt8)) ->
    List File -> Except PackError (List UInt8 × List (List UInt8))
  | _, _, dirBytes, blobs, [] => .ok (dirBytes, blobs)
  | index, dataLba, dirBytes, blobs, file :: rest =>
      match file.encodeName with
      | none => .error (.notAscii file.name)
      | some name =>
          if name.length = 0 ∨ name.length ≥ nameLen then .error (.badFileName file.name)
          else if file.contents.length > 4096 then .error (.fileTooLarge file.name)
          else packFiles (index + 1) (dataLba + file.sectors)
            (overwrite dirBytes (index * dirEntry) (entryBytes name file.contents.length dataLba))
            (blobs ++ [file.blob]) rest

/-- The bytes of the image: the superblock, the directory sector and the data of all
files. -/
def pack (files : List File) : Except PackError (List UInt8) :=
  if files.length > maxFiles then .error .tooManyFiles
  else
    match packFiles 0 2 (List.replicate sector 0) [] files with
    | .error error => .error error
    | .ok (dirBytes, blobs) =>
        let superblock := overwrite (List.replicate sector 0) 0 magic
        let superblock := overwrite superblock 8 (leBytes 4 version ++ leBytes 4 files.length)
        .ok (superblock ++ (dirBytes ++ blobs.flatten))

/-! ## The image as a concatenation -/

/-- A file that the loop lets through.  Nothing is asked of the characters of its
name but that they are ASCII. -/
structure File.Packable (file : File) : Prop where
  ascii : file.name.toList.all (fun char => char.toNat < 128) = true
  named : 0 < file.nameBytes.length
  short : file.nameBytes.length < nameLen
  small : file.contents.length ≤ 4096

/-- The files with their first sectors, each behind the one before it. -/
def layout : Nat -> List File -> List (File × Nat)
  | _, [] => []
  | dataLba, file :: rest => (file, dataLba) :: layout (dataLba + file.sectors) rest

/-- The entry of a file in its five parts. -/
def entryOf (placed : File × Nat) : List UInt8 :=
  placed.1.nameBytes ++ (List.replicate (32 - placed.1.nameBytes.length) 0 ++
    (leBytes 4 placed.1.contents.length ++ (leBytes 4 placed.2 ++ List.replicate 24 0)))

theorem length_entryOf {file : File} (packable : file.Packable) (dataLba : Nat) :
    (entryOf (file, dataLba)).length = dirEntry := by
  have short := packable.short
  unfold nameLen at short
  simp [entryOf, dirEntry]
  omega

/-- Both writes into a blank entry, in terms of its parts. -/
theorem entryBytes_eq {file : File} (packable : file.Packable) (dataLba : Nat) :
    entryBytes file.nameBytes file.contents.length dataLba = entryOf (file, dataLba) := by
  have short := packable.short
  unfold nameLen at short
  have blank : List.replicate dirEntry (0 : UInt8) =
      [] ++ (List.replicate file.nameBytes.length 0 ++
        (List.replicate (32 - file.nameBytes.length) 0 ++
          (List.replicate 8 0 ++ List.replicate 24 0))) := by
    simp only [List.replicate_append_replicate, List.nil_append]
    congr 1
    unfold dirEntry
    omega
  have named : overwrite (List.replicate dirEntry 0) 0 file.nameBytes =
      (file.nameBytes ++ List.replicate (32 - file.nameBytes.length) 0) ++
        (List.replicate 8 0 ++ List.replicate 24 0) := by
    rw [blank, overwrite_append _ _ _ _ (by rfl) (by simp), List.nil_append, List.append_assoc]
  simp only [entryBytes, named]
  rw [overwrite_append _ _ _ _ (by simp; omega) (by simp)]
  simp [entryOf]

theorem packFiles_eq {files : List File} (packable : forall file, file ∈ files -> file.Packable)
    (index dataLba : Nat) (written : List UInt8) (blobs : List (List UInt8))
    (atIndex : written.length = index * dirEntry) (few : index + files.length ≤ maxFiles) :
    packFiles index dataLba (written ++ List.replicate ((maxFiles - index) * dirEntry) 0) blobs
        files =
      .ok (written ++ ((layout dataLba files).flatMap entryOf ++
          List.replicate ((maxFiles - index - files.length) * dirEntry) 0),
        blobs ++ files.map File.blob) := by
  induction files generalizing index dataLba written blobs with
  | nil => simp [packFiles, layout]
  | cons file rest inductionHypothesis =>
      have isPackable := packable file List.mem_cons_self
      rw [List.length_cons] at few
      have encoded : file.encodeName = some file.nameBytes := if_pos isPackable.ascii
      have named := isPackable.named
      have short := isPackable.short
      have small := isPackable.small
      have room : List.replicate ((maxFiles - index) * dirEntry) (0 : UInt8) =
          List.replicate dirEntry 0 ++
            List.replicate ((maxFiles - (index + 1)) * dirEntry) 0 := by
        rw [List.replicate_append_replicate]
        congr 1
        have more : maxFiles - index = maxFiles - (index + 1) + 1 := by omega
        rw [more, Nat.add_mul, Nat.one_mul, Nat.add_comm]
      have next := inductionHypothesis
        (fun other member => packable other (List.mem_cons_of_mem _ member)) (index + 1)
        (dataLba + file.sectors) (written ++ entryOf (file, dataLba)) (blobs ++ [file.blob])
        (by rw [List.length_append, atIndex, length_entryOf isPackable, Nat.add_mul, Nat.one_mul])
        (by omega)
      rw [packFiles, encoded]
      simp only
      rw [if_neg (by omega), if_neg (by omega), entryBytes_eq isPackable, room,
        overwrite_append _ _ _ _ atIndex.symm (by simp [length_entryOf isPackable]),
        ← List.append_assoc, next]
      have left : maxFiles - (index + 1) - rest.length = maxFiles - index - (rest.length + 1) := by
        omega
      simp [layout, left]

/-- The superblock in its four parts: the magic, the version, the number of files
and padding. -/
def superblockOf (count : Nat) : List UInt8 :=
  magic ++ (leBytes 4 version ++ (leBytes 4 count ++ List.replicate 496 0))

/-- The directory sector: the entries of all files, and blank ones up to eight. -/
def directoryOf (files : List File) : List UInt8 :=
  (layout 2 files).flatMap entryOf ++ List.replicate ((maxFiles - files.length) * dirEntry) 0

/-- Up to eight packable files make an image, which is the concatenation of its
parts. -/
theorem pack_eq {files : List File} (packable : forall file, file ∈ files -> file.Packable)
    (few : files.length ≤ maxFiles) :
    pack files = .ok (superblockOf files.length ++
      (directoryOf files ++ (files.map File.blob).flatten)) := by
  have loop := packFiles_eq packable 0 2 [] [] rfl (by omega)
  have blank : List.replicate sector (0 : UInt8) = [] ++ (List.replicate 8 0 ++
      (List.replicate 8 0 ++ List.replicate 496 0)) := by
    simp only [List.replicate_append_replicate, List.nil_append]
    rfl
  have marked : overwrite (List.replicate sector 0) 0 magic =
      magic ++ (List.replicate 8 0 ++ List.replicate 496 0) := by
    rw [blank, overwrite_append _ _ _ _ (by rfl) (by rfl), List.nil_append]
  have signed : overwrite (overwrite (List.replicate sector 0) 0 magic) 8
      (leBytes 4 version ++ leBytes 4 files.length) = superblockOf files.length := by
    rw [marked, overwrite_append _ _ _ _ (by rfl) (by simp)]
    rw [superblockOf, List.append_assoc]
  have start : List.replicate sector (0 : UInt8) =
      [] ++ List.replicate ((maxFiles - 0) * dirEntry) 0 := rfl
  rw [pack, if_neg (by omega)]
  simp only [signed]
  rw [start, loop]
  simp [directoryOf]

/-- The loop ends at a file that is not packable, so what it lets through is
packable. -/
theorem packable_of_packFiles {files : List File} {index dataLba : Nat} {dirBytes : List UInt8}
    {blobs : List (List UInt8)} {outcome : List UInt8 × List (List UInt8)}
    (packed : packFiles index dataLba dirBytes blobs files = .ok outcome) :
    forall file, file ∈ files -> file.Packable := by
  induction files generalizing index dataLba dirBytes blobs with
  | nil =>
      intro file member
      cases member
  | cons file rest inductionHypothesis =>
      rw [packFiles] at packed
      by_cases ascii : file.name.toList.all (fun char => char.toNat < 128) = true
      · rw [File.encodeName, if_pos ascii] at packed
        simp only at packed
        by_cases badName : file.nameBytes.length = 0 ∨ file.nameBytes.length ≥ nameLen
        · rw [if_pos badName] at packed
          cases packed
        · by_cases large : file.contents.length > 4096
          · rw [if_neg badName, if_pos large] at packed
            cases packed
          · rw [if_neg badName, if_neg large] at packed
            have first : file.Packable := ⟨ascii, by omega, by omega, by omega⟩
            exact List.forall_mem_cons.mpr ⟨first, inductionHypothesis packed⟩
      · rw [File.encodeName, if_neg ascii] at packed
        cases packed

/-- An image is made of up to eight packable files only. -/
theorem packable_of_pack {files : List File} {image : List UInt8} (packed : pack files = .ok image) :
    (forall file, file ∈ files -> file.Packable) ∧ files.length ≤ maxFiles := by
  rw [pack] at packed
  by_cases many : files.length > maxFiles
  · rw [if_pos many] at packed
    cases packed
  · rw [if_neg many] at packed
    cases loop : packFiles 0 2 (List.replicate sector 0) [] files with
    | error error =>
        rw [loop] at packed
        cases packed
    | ok outcome => exact ⟨packable_of_packFiles loop, Nat.le_of_not_lt many⟩

attribute [irreducible] superblockOf directoryOf

end Pack
end Storage
end Goatos
