import Goatos.Storage.DiskDrive
import Goatos.Storage.Fs

namespace Goatos
namespace Storage

open Library

/-!
# Reading a file is all or nothing

`read_file` rounds the transfer up to whole sectors, so it reads into an area of
its own and copies the file out at the end.  A transfer that fails half way
leaves its data there.
-/

/-- What a call leaves behind.  The drive is asked for exactly the sectors of the
entry of the name, or for nothing.  An error leaves the buffer alone.  A success
is that of the entry: the buffer starts with the first bytes that the drive has
delivered, and the rest of it is left alone. -/
structure AllOrNothing (drive : PortDevice) (fs : FileSystem) (history : PortHistory)
    (name buf : List UInt8) (result : Except FsError Nat) (after : List UInt8)
    (accesses : PortHistory) : Prop where
  answers : drive.Answers history accesses
  asked : (forall registers, requestsFrom registers accesses = []) ∨
    Exists fun entry => fs.find name = some entry ∧ forall registers,
      requestsFrom registers accesses =
        [readRequest (fsBaseLba + entry.lbaOff) (sectorsFor entry.size)]
  nothing : forall error, result = .error error -> after = buf
  all : forall count, result = .ok count -> Exists fun entry =>
    fs.find name = some entry ∧ count = entry.size ∧ count ≤ buf.length ∧
      (forall registers, requestsFrom registers accesses =
        if count = 0 then []
        else [readRequest (fsBaseLba + entry.lbaOff) (sectorsFor count)]) ∧
      (delivered accesses).length = sectorsFor count * sectorSize ∧
      after.take count = (delivered accesses).take count ∧ after.drop count = buf.drop count

/-- A call that does not touch the drive and leaves the buffer alone. -/
theorem AllOrNothing.refused (drive : PortDevice) (fs : FileSystem) (history : PortHistory)
    (name buf : List UInt8) (error : FsError) :
    AllOrNothing drive fs history name buf (.error error) buf [] :=
  ⟨trivial, .inl fun _ => rfl, fun _ _ => rfl, fun _ succeeded => nomatch succeeded⟩

theorem overwrite_front {buf data : List UInt8} :
    (overwrite buf 0 data).take data.length = data ∧
      (overwrite buf 0 data).drop data.length = buf.drop data.length := by
  rw [overwrite, List.take_zero, List.nil_append, Nat.zero_add]
  exact ⟨List.take_left, List.drop_left⟩

/-- Reading is all or nothing for an entry whose sectors can be addressed. -/
theorem readEntry_allOrNothing (mode : Overflow) (drive : PortDevice) (present : Bool)
    {fs : FileSystem} (history : PortHistory) {name buf : List UInt8} {entry : DirEntry}
    (found : fs.find name = some entry) (roomy : entry.size ≤ buf.length)
    (address : entry.size ≠ 0 -> fsBaseLba + entry.lbaOff < 2 ^ 32) :
    Exists fun result => Exists fun after => Exists fun accesses =>
      readEntry mode (readLba present (pio mode drive)) history entry buf =
          some (result, after, history ++ accesses) ∧
        AllOrNothing drive fs history name buf result after accesses := by
  rw [readEntry]
  by_cases empty : entry.size = 0
  · refine ⟨.ok 0, buf, [], by rw [if_pos empty, List.append_nil], trivial, .inl fun _ => rfl,
      fun _ _ => rfl, ?_⟩
    intro count succeeded
    cases succeeded
    exact ⟨entry, found, empty.symm, Nat.zero_le _, fun _ => rfl, rfl, rfl, rfl⟩
  · have bounds := sectorsFor_bounds entry.size
    rcases readLba_transferred mode drive present history (address empty)
      (List.replicate (sectorsFor entry.size * sectorSize) 0) with
      ⟨result, window, accesses, ran, transferred⟩
    rcases transferred with ⟨answers, length, asked, filled⟩
    rw [List.length_replicate] at length
    rw [List.length_replicate, Nat.mul_div_cancel _ (by decide)] at asked filled
    have requests : (forall registers, requestsFrom registers accesses = []) ∨
        Exists fun entry => fs.find name = some entry ∧ forall registers,
          requestsFrom registers accesses =
            [readRequest (fsBaseLba + entry.lbaOff) (sectorsFor entry.size)] :=
      asked.imp_right (fun issued => ⟨entry, found, issued.2⟩)
    rw [if_neg empty, addWord_of_lt mode (address empty), Option.bind_some, ran]
    cases result with
    | error error =>
        refine ⟨_, buf, accesses, rfl, answers, requests, fun _ _ => rfl, ?_⟩
        intro count succeeded
        cases succeeded
    | ok _ =>
        refine ⟨_, _, accesses, rfl, answers, requests, ?_, ?_⟩
        · intro error failed
          cases failed
        intro count succeeded
        cases succeeded
        rcases filled rfl with ⟨stored, issued⟩
        have taken : (window.take entry.size).length = entry.size :=
          List.length_take_of_le (by omega)
        have copied := @overwrite_front buf (window.take entry.size)
        rw [taken] at copied
        refine ⟨entry, found, rfl, roomy, ?_, ?_, ?_, copied.2⟩
        · intro registers
          rw [if_neg empty, issued]
        · rw [← stored, length]
        · rw [copied.1, stored]

/-- Whatever the drive does, `read_file` returns.  If it fails, the buffer is as
it was; if it succeeds, the buffer holds the file as the drive delivered it, and
is otherwise as it was. -/
theorem read_file_all_or_nothing (mode : Overflow) (drive : PortDevice) (present : Bool)
    (fs : FileSystem) (addressable : forall entry, entry ∈ fs.files ->
      fsBaseLba + entry.lbaOff < 2 ^ 32)
    (history : PortHistory) (name buf : List UInt8) :
    Exists fun result => Exists fun after => Exists fun accesses =>
      readFile mode (readLba present (pio mode drive)) fs history name buf =
          some (result, after, history ++ accesses) ∧
        AllOrNothing drive fs history name buf result after accesses := by
  rcases readFile_cases mode (readLba present (pio mode drive)) fs history name buf with
    ⟨error, refused⟩ | ⟨entry, _, found, roomy, _, reads⟩
  · refine ⟨.error error, buf, [], ?_, AllOrNothing.refused drive fs history name buf error⟩
    rw [refused, List.append_nil]
  · have address := addressable entry (List.mem_of_find?_eq_some found)
    rw [reads]
    exact readEntry_allOrNothing mode drive present history found roomy (fun _ => address)

/-- One file of five bytes, on a drive that counts. -/
theorem read_file_all_or_nothing_counting :
    let fs : FileSystem := ⟨true, [⟨[0x61] ++ List.replicate 31 0, 1, 5, 2⟩]⟩
    let drive := Disk.drive (fun address => UInt8.ofNat address)
    Exists fun result => Exists fun after => Exists fun accesses =>
      readFile .panics (readLba true (pio .panics drive)) fs [] [0x61] (List.replicate 8 0xff) =
          some (result, after, accesses) ∧
        AllOrNothing drive fs [] [0x61] (List.replicate 8 0xff) result after accesses := by
  intro fs drive
  exact read_file_all_or_nothing .panics drive true fs
    (fun entry member => by rw [List.mem_singleton.mp member]; decide) [] [0x61]
    (List.replicate 8 0xff)

end Storage
end Goatos
