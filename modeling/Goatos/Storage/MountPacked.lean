import Goatos.Storage.DiskDrive
import Goatos.Storage.FsRoundTrip

namespace Goatos
namespace Storage

open Library
open Pack (File layout)

/-!
# What is packed need not mount

The image builder and the kernel check a name independently.  The builder takes
any ASCII text of 1 to 31 characters; the kernel reads up to the first zero and
wants at least one byte there, all of them between `!` and `~`.  One entry that
it does not accept makes the whole file system unmountable.  Nothing else that
the builder lets through is refused.
-/

section Mounted

variable {Device : Type}

/-- The kernel, built in the given way, mounts the image and sees all files, in
their order. -/
def MountsAll (mode : Overflow) (files : List File) (reader : Reader Device) (fs : FileSystem)
    (device : Device) : Prop :=
  Exists fun mountedFs => Exists fun next =>
    mount mode reader fs device = some (.ok files.length, mountedFs, next) ∧
      mountedFs.files = (layout 2 files).map entrySeen

/-- Mounting any image of the builder succeeds with all files exactly if every name
is accepted. -/
theorem mountsAll_iff (mode : Overflow) {reader : Reader Device} {disk : Disk} {files : List File}
    (returns : reader.Returns disk) (installed : Installed disk (imageOf files))
    (packable : forall file, file ∈ files -> file.Packable) (few : files.length ≤ maxFiles)
    (fs : FileSystem) (device : Device) :
    MountsAll mode files reader fs device ↔ forall file, file ∈ files -> Readable file := by
  rcases mount_packed mode returns installed packable few fs device with ⟨next, mounted⟩
  constructor
  · rintro ⟨mountedFs, last, succeeded, _⟩
    by_contra unreadable
    rw [mounted, if_neg unreadable] at succeeded
    cases succeeded
  · intro readable
    refine ⟨{ fs with files := directorySeen files }, next, ?_, directorySeen_eq readable⟩
    rw [mounted, if_pos readable, directorySeen_eq readable, List.length_map, length_layout]

end Mounted

/-- An image that the builder writes mounts with all its files if and only if the
kernel accepts all their names. -/
theorem packed_image_mounts_iff (mode : Overflow) (files : List File) (image : List UInt8)
    (packed : Pack.pack files = .ok image) (disk : Disk) (installed : Installed disk image)
    (Device : Type) (reader : Reader Device) (returns : reader.Returns disk) (fs : FileSystem)
    (device : Device) :
    MountsAll mode files reader fs device ↔ forall file, file ∈ files -> Readable file := by
  rcases Pack.packable_of_pack packed with ⟨packable, few⟩
  have written : image = imageOf files := by
    rw [Pack.pack_eq packable few] at packed
    exact (Except.ok.inj packed).symm
  rw [written] at installed
  exact mountsAll_iff mode returns installed packable few fs device

def imageReader (image : List UInt8) : Reader PortHistory :=
  readLba true (pio .panics (Disk.holding image).drive)

theorem imageReader_returns (image : List UInt8) :
    (imageReader image).Returns (Disk.holding image) :=
  readLba_returns (pio_returns .panics (Disk.holding image))

/-- A name with a zero in it is cut there by the kernel, and mounts. -/
theorem packed_image_mounts_cut :
    let files : List File := [⟨"hello.txt", asciiBytes "GOATos"⟩, ⟨"a\x00 b", []⟩]
    Exists fun image => Pack.pack files = .ok image ∧
      (forall file, file ∈ files -> Readable file) ∧
      MountsAll .panics files (imageReader image) ⟨false, []⟩ [] := by
  intro files
  have packable : forall file, file ∈ files -> file.Packable :=
    List.forall_mem_cons.mpr ⟨⟨by decide, by decide, by decide, by decide⟩,
      List.forall_mem_singleton.mpr ⟨by decide, by decide, by decide, by decide⟩⟩
  have packed := Pack.pack_eq packable (by decide)
  have readable : forall file, file ∈ files -> Readable file := by decide
  exact ⟨_, packed, readable, (packed_image_mounts_iff .panics files _ packed _
    (installed_holding _) _ _ (imageReader_returns _) _ _).mpr readable⟩

/-- A name with a blank in it is packed, and then nothing mounts, in either kind of
build. -/
theorem packed_image_with_blank_does_not_mount :
    let files : List File := [⟨"hello.txt", asciiBytes "GOATos"⟩, ⟨"a b", []⟩]
    Exists fun image => Pack.pack files = .ok image ∧ forall mode,
      ¬ MountsAll mode files (imageReader image) ⟨false, []⟩ [] ∧
      Exists fun mountedFs => Exists fun next =>
        mount mode (imageReader image) ⟨false, []⟩ [] =
          some (.error .badDirectory, mountedFs, next) := by
  intro files
  have packable : forall file, file ∈ files -> file.Packable :=
    List.forall_mem_cons.mpr ⟨⟨by decide, by decide, by decide, by decide⟩,
      List.forall_mem_singleton.mpr ⟨by decide, by decide, by decide, by decide⟩⟩
  have few : files.length ≤ maxFiles := by decide
  have unreadable : ¬ forall file, file ∈ files -> Readable file := by decide
  have returns := imageReader_returns (imageOf files)
  have installed := installed_holding (imageOf files)
  refine ⟨imageOf files, Pack.pack_eq packable few, fun mode => ?_⟩
  rcases mount_packed mode returns installed packable few ⟨false, []⟩ [] with ⟨next, mounted⟩
  rw [if_neg unreadable] at mounted
  refine ⟨?_, _, next, mounted⟩
  rw [mountsAll_iff mode returns installed packable few]
  exact unreadable

end Storage
end Goatos
