import Goatos.Storage.Pio

namespace Goatos
namespace Storage

open Library

/-!
# What a failed read reports

The status shows why a read cannot go on: the drive has failed, there is no drive,
or nothing happens at all.  `AtaError` has a case for each.  What the call should
report is stated here over the polls of the status that it made, and compared with
what it does report.

The two waits find out the right error, but `read_pio` reports every failure of a
wait as a timeout.  The status is read once more after a wait; only what this
reading finds is reported as an error of the drive, and it does not look at the
busy bit.
-/

/-! ## The polls of a call -/

/-- A reading of the status: whether the command was issued before it, whether it
belongs to a wait, and the answer. -/
structure Poll where
  issued : Bool
  waiting : Bool
  status : UInt8
  deriving DecidableEq, Repr

namespace Poll

variable (poll : Poll)

/-- What a wait is for: that the drive is not busy, or that it has a sector ready. -/
def succeeds : Bool :=
  if poll.issued = true then sectorReady poll.status && !failed poll.status
  else !busy poll.status

def pending : Bool :=
  poll.waiting && !poll.succeeds

/-- The drive shows an error after the command.  While it is busy, the error bits
mean nothing. -/
def erred : Bool :=
  poll.issued && !busy poll.status && failed poll.status

/-- There is no drive: the lines float, and every bit reads as one.  Only a wait
looks for this. -/
def absent : Bool :=
  poll.waiting && poll.status = 0xff

/-- The finding of the poll is not reported as what it is.  A wait that finds no
drive or an error ends in a timeout, and the reading after a wait takes the error
bits for an error even if the drive is busy. -/
def masked : Bool :=
  poll.absent || (poll.waiting && poll.erred) ||
    (!poll.waiting && busy poll.status && failed poll.status)

/-- The call goes on after the poll. -/
def harmless : Bool :=
  !poll.absent && !poll.erred && (poll.waiting || !failed poll.status)

end Poll

/-- The polls so far, and of what kind the next one is: before or after the command,
part of a wait or not. -/
structure PollLog where
  issued : Bool
  waiting : Bool
  polls : List Poll

/-- A wait ends with the poll that brings what it is for; the poll after that is no
wait. -/
def PollLog.access (log : PollLog) : PortAccess -> PollLog
  | .wrote port _ => { log with issued := log.issued || port = statusCmdPort, waiting := true }
  | .readByte port status =>
      if port = statusCmdPort then
        let poll : Poll := ⟨log.issued, log.waiting, status⟩
        ⟨log.issued, !(poll.waiting && poll.succeeds), log.polls ++ [poll]⟩
      else log
  | .readWord _ _ => log

/-- The polls among the accesses of one call.  A call begins with the wait for the
drive, so the first poll belongs to one. -/
def pollLog (accesses : PortHistory) : PollLog :=
  accesses.foldl PollLog.access ⟨false, true, []⟩

/-- The last wait has used all its polls without success. -/
def exhausted (polls : List Poll) : Bool :=
  spinLimit ≤ (polls.reverse.takeWhile Poll.pending).length

/-- What a call with these polls should return: the error that the drive has shown,
no drive, a timeout, or success, in this order. -/
def dueResult (polls : List Poll) : Except AtaError Unit :=
  if polls.any Poll.erred = true then .error .driveError
  else if polls.any Poll.absent = true then .error .notPresent
  else if exhausted polls = true then .error .timeout
  else .ok ()

/-! ## How a call can end -/

def AllHarmless (polls : List Poll) : Prop :=
  forall poll, poll ∈ polls -> poll.harmless = true

/-- How a call can end: with every poll harmless, at a poll of a wait that is
refused, with a wait that is used up, or at the reading after a wait. -/
inductive Outcome : List Poll -> Except AtaError Unit -> Prop
  | completed {polls} (harmless : AllHarmless polls) (settled : exhausted polls = false) :
      Outcome polls (.ok ())
  | refused {earlier poll} (harmless : AllHarmless earlier) (waiting : poll.waiting = true)
      (found : poll.absent = true ∨ poll.erred = true) :
      Outcome (earlier ++ [poll]) (.error .timeout)
  | spun {polls} (harmless : AllHarmless polls) (used : exhausted polls = true) :
      Outcome polls (.error .timeout)
  | checked {earlier poll} (harmless : AllHarmless earlier) (issued : poll.issued = true)
      (check : poll.waiting = false) (found : failed poll.status = true) :
      Outcome (earlier ++ [poll]) (.error .driveError)

theorem AllHarmless.append {first second : List Poll} (before : AllHarmless first)
    (after : AllHarmless second) : AllHarmless (first ++ second) := by
  intro poll member
  rcases List.mem_append.mp member with inFirst | inSecond
  · exact before poll inFirst
  · exact after poll inSecond

theorem AllHarmless.concat {polls : List Poll} (before : AllHarmless polls) {poll : Poll}
    (last : poll.harmless = true) : AllHarmless (polls ++ [poll]) := by
  refine before.append ?_
  intro other member
  rw [List.mem_singleton.mp member]
  exact last

/-- A poll that brings what the wait is for begins the count anew, so a wait that is
over has not used up its polls. -/
theorem exhausted_concat (polls : List Poll) {poll : Poll} (ending : poll.pending = false) :
    exhausted (polls ++ [poll]) = false := by
  rw [exhausted, List.reverse_append, List.reverse_singleton, List.singleton_append,
    List.takeWhile_cons_of_neg (by rw [ending]; exact Bool.false_ne_true)]
  rfl

theorem exhausted_append (polls : List Poll) {waited : List Poll}
    (pending : forall poll, poll ∈ waited -> poll.pending = true)
    (all : waited.length = spinLimit) : exhausted (polls ++ waited) = true := by
  have kept : forall poll, poll ∈ waited.reverse -> poll.pending = true :=
    fun poll member => pending poll (List.mem_reverse.mp member)
  rw [exhausted, List.reverse_append, List.takeWhile_append_of_pos kept, decide_eq_true_eq,
    List.length_append, List.length_reverse, all]
  exact Nat.le_add_right _ _

namespace Poll

variable {poll : Poll}

theorem harmless_iff : poll.harmless = true ↔ poll.absent = false ∧ poll.erred = false ∧
    (poll.waiting = true ∨ failed poll.status = false) := by
  simp only [harmless, Bool.and_eq_true, Bool.or_eq_true, Bool.not_eq_true', and_assoc]

theorem masked_of_harmless (harmless : poll.harmless = true) : poll.masked = false := by
  rcases harmless_iff.mp harmless with ⟨present, sound, checked⟩
  rw [masked, present, sound]
  rcases checked with waiting | calm
  · rw [waiting]
    rfl
  · rw [calm, Bool.and_false, Bool.and_false]
    rfl

end Poll

/-- Harmless polls show neither an error nor a missing drive, so at most a timeout
is due. -/
theorem AllHarmless.none_found {polls : List Poll} (harmless : AllHarmless polls) :
    polls.any Poll.erred = false ∧ polls.any Poll.absent = false := by
  constructor
  · rw [List.any_eq_false]
    intro poll member
    rw [(Poll.harmless_iff.mp (harmless poll member)).2.1]
    exact Bool.false_ne_true
  · rw [List.any_eq_false]
    intro poll member
    rw [(Poll.harmless_iff.mp (harmless poll member)).1]
    exact Bool.false_ne_true

theorem AllHarmless.dueResult {polls : List Poll} (harmless : AllHarmless polls) :
    dueResult polls = if exhausted polls = true then .error .timeout else .ok () := by
  rcases harmless.none_found with ⟨sound, present⟩
  rw [Storage.dueResult, sound, present, if_neg Bool.false_ne_true, if_neg Bool.false_ne_true]

theorem AllHarmless.dueResult_concat {polls : List Poll} (harmless : AllHarmless polls)
    (last : Poll) : Storage.dueResult (polls ++ [last]) =
      if last.erred = true then .error .driveError
      else if last.absent = true then .error .notPresent
      else if exhausted (polls ++ [last]) = true then .error .timeout
      else .ok () := by
  rcases harmless.none_found with ⟨sound, present⟩
  simp only [Storage.dueResult, List.any_append, sound, present, List.any_cons, List.any_nil,
    Bool.false_or, Bool.or_false]

/-- Only the last poll can have a finding that is not reported as what it is. -/
theorem AllHarmless.masked_concat {polls : List Poll} (harmless : AllHarmless polls)
    (last : Poll) : (forall poll, poll ∈ polls ++ [last] -> poll.masked = false) ↔
      last.masked = false := by
  constructor
  · intro plain
    exact plain last (List.mem_append.mpr (Or.inr List.mem_cons_self))
  · intro plain poll member
    rcases List.mem_append.mp member with earlier | final
    · exact Poll.masked_of_harmless (harmless poll earlier)
    · rw [List.mem_singleton.mp final]
      exact plain

/-- A call returns what is due, unless a finding is not reported as what it is. -/
theorem Outcome.due_iff {polls : List Poll} {result : Except AtaError Unit}
    (outcome : Outcome polls result) :
    result = dueResult polls ↔ forall poll, poll ∈ polls -> poll.masked = false := by
  cases outcome with
  | completed harmless settled =>
      rw [harmless.dueResult, settled]
      exact iff_of_true rfl (fun poll member => Poll.masked_of_harmless (harmless poll member))
  | spun harmless used =>
      rw [harmless.dueResult, used]
      exact iff_of_true rfl (fun poll member => Poll.masked_of_harmless (harmless poll member))
  | @refused earlier poll harmless waiting found =>
      have hidden : poll.masked = true := by
        rcases found with absent | erred
        · rw [Poll.masked, absent, Bool.true_or, Bool.true_or]
        · rw [Poll.masked, waiting, erred, Bool.and_true, Bool.or_true, Bool.true_or]
      have wrong : Except.error AtaError.timeout ≠ dueResult (earlier ++ [poll]) := by
        rw [harmless.dueResult_concat]
        rcases found with absent | erred
        · rw [if_pos absent]
          split
          · simp
          · simp
        · rw [if_pos erred]
          simp
      rw [harmless.masked_concat, hidden]
      exact iff_of_false wrong (by decide)
  | @checked earlier poll harmless issued check found =>
      have hidden : poll.masked = busy poll.status := by
        rw [Poll.masked, Poll.absent, check, found, Bool.false_and, Bool.false_and, Bool.false_or,
          Bool.not_false, Bool.true_and, Bool.and_true, Bool.false_or]
      have found : poll.erred = !busy poll.status := by
        rw [Poll.erred, issued, found, Bool.true_and, Bool.and_true]
      have present : poll.absent = false := by
        rw [Poll.absent, check, Bool.false_and]
      have ending : poll.pending = false := by
        rw [Poll.pending, check, Bool.false_and]
      rw [harmless.masked_concat, harmless.dueResult_concat, hidden, found, present,
        exhausted_concat _ ending]
      cases busy poll.status with
      | false => simp
      | true => simp

/-! ## The polls of a run -/

theorem pollLog_append (accesses more : PortHistory) :
    pollLog (accesses ++ more) = more.foldl PollLog.access (pollLog accesses) :=
  List.foldl_append

theorem PollLog.access_pending (issued : Bool) (polls : List Poll) {answers : List UInt8}
    (pending : forall status, status ∈ answers -> Poll.pending ⟨issued, true, status⟩ = true) :
    (statusReads answers).foldl PollLog.access ⟨issued, true, polls⟩ =
      ⟨issued, true, polls ++ answers.map (Poll.mk issued true)⟩ := by
  induction answers generalizing polls with
  | nil => rw [List.map_nil, List.append_nil]; rfl
  | cons status answers inductionHypothesis =>
      have first : Poll.pending ⟨issued, true, status⟩ = true := pending status List.mem_cons_self
      have one : PollLog.access ⟨issued, true, polls⟩ (.readByte statusCmdPort status) =
          ⟨issued, true, polls ++ [⟨issued, true, status⟩]⟩ := by
        rw [PollLog.access, if_pos rfl]
        exact congrArg (fun waiting => PollLog.mk issued waiting _) first
      have rest := inductionHypothesis (polls ++ [⟨issued, true, status⟩])
        (fun other member => pending other (List.mem_cons_of_mem _ member))
      rw [statusReads, List.map_cons, List.foldl_cons, one]
      exact rest.trans (by rw [List.append_assoc]; rfl)

/-- The call goes on after these accesses, which were such polls. -/
structure Logged (accesses : PortHistory) (issued waiting : Bool) (polls : List Poll) : Prop where
  log : pollLog accesses = ⟨issued, waiting, polls⟩
  harmless : AllHarmless polls
  settled : exhausted polls = false

/-- A poll that does not end the call is logged, and ends the wait if it belongs to
one and brings what the wait is for. -/
theorem Logged.of_status {accesses : PortHistory} {issued waiting : Bool} {polls : List Poll}
    (log : pollLog accesses = ⟨issued, waiting, polls⟩) (before : AllHarmless polls)
    {status : UInt8} (harmless : Poll.harmless ⟨issued, waiting, status⟩ = true)
    (ending : Poll.pending ⟨issued, waiting, status⟩ = false) :
    Logged (accesses ++ [.readByte statusCmdPort status]) issued (!waiting)
      (polls ++ [⟨issued, waiting, status⟩]) where
  log := by
    rw [pollLog_append, log, List.foldl_cons, List.foldl_nil, PollLog.access, if_pos rfl]
    cases waiting with
    | false => rfl
    | true =>
        rw [Poll.pending, Bool.true_and] at ending
        exact congrArg (fun waiting => PollLog.mk issued waiting _) ending
  harmless := before.concat harmless
  settled := exhausted_concat polls ending

theorem Logged.checked {accesses : PortHistory} {polls : List Poll}
    (logged : Logged accesses true false polls) {status : UInt8} (calm : failed status = false) :
    Logged (accesses ++ [.readByte statusCmdPort status]) true true
      (polls ++ [⟨true, false, status⟩]) := by
  refine Logged.of_status logged.log logged.harmless ?_ rfl
  rw [Poll.harmless_iff, Poll.erred, calm, Bool.and_false]
  exact ⟨rfl, rfl, Or.inr rfl⟩

theorem Logged.refused {accesses : PortHistory} {polls : List Poll}
    (logged : Logged accesses true false polls) {status : UInt8} (found : failed status = true) :
    Outcome (pollLog (accesses ++ [.readByte statusCmdPort status])).polls
      (.error .driveError) := by
  rw [pollLog_append, logged.log]
  exact Outcome.checked logged.harmless rfl rfl found

/-- What the verdicts of a wait mean. -/
structure Judges (issued : Bool) (verdict : UInt8 -> Option (Except AtaError Unit)) : Prop where
  undecided : forall status, verdict status = none ->
    Poll.harmless ⟨issued, true, status⟩ = true ∧ Poll.pending ⟨issued, true, status⟩ = true
  accepted : forall status, verdict status = some (.ok ()) ->
    Poll.harmless ⟨issued, true, status⟩ = true ∧ Poll.pending ⟨issued, true, status⟩ = false
  refused : forall status error, verdict status = some (.error error) ->
    Poll.absent ⟨issued, true, status⟩ = true ∨ Poll.erred ⟨issued, true, status⟩ = true

theorem judges_busyVerdict : Judges false busyVerdict where
  undecided := forall_byte (by decide +kernel)
  accepted := forall_byte (by decide +kernel)
  refused := by
    intro status error refused
    rw [busyVerdict_error refused]
    exact Or.inl rfl

theorem judges_drqVerdict : Judges true drqVerdict where
  undecided := forall_byte (by decide +kernel)
  accepted := forall_byte (by decide +kernel)
  refused := by
    intro status error refused
    rcases drqVerdict_error refused with rfl | ⟨idle, found⟩
    · exact Or.inl rfl
    · rw [Poll.erred, idle, found]
      exact Or.inr rfl

section Run

variable (mode : Overflow) (drive : PortDevice) (history : PortHistory)

/-- The polls of a wait that has no verdict yet. -/
theorem statuses_logged {accesses : PortHistory} {issued : Bool} {polls : List Poll}
    (logged : Logged accesses issued true polls)
    {verdict : UInt8 -> Option (Except AtaError Unit)} (judges : Judges issued verdict)
    {answers : List UInt8}
    (undecided : forall status, status ∈ answers -> verdict status = none) :
    pollLog (accesses ++ statusReads answers) =
        ⟨issued, true, polls ++ answers.map (Poll.mk issued true)⟩ ∧
      AllHarmless (polls ++ answers.map (Poll.mk issued true)) ∧
      forall poll, poll ∈ answers.map (Poll.mk issued true) -> poll.pending = true := by
  have pending : forall status, status ∈ answers -> Poll.pending ⟨issued, true, status⟩ = true :=
    fun status member => (judges.undecided status (undecided status member)).2
  refine ⟨?_, logged.harmless.append ?_, ?_⟩
  · rw [pollLog_append, logged.log, PollLog.access_pending issued polls pending]
  · intro poll member
    rcases List.mem_map.mp member with ⟨status, answered, rfl⟩
    exact (judges.undecided status (undecided status answered)).1
  · intro poll member
    rcases List.mem_map.mp member with ⟨status, answered, rfl⟩
    exact pending status answered

/-- A wait brings what it is for, or the call ends. -/
theorem poll_logged {accesses : PortHistory} {issued : Bool} {polls : List Poll}
    (logged : Logged accesses issued true polls)
    {verdict : UInt8 -> Option (Except AtaError Unit)} (judges : Judges issued verdict) :
    Exists fun result => Exists fun later =>
      poll drive verdict spinLimit (history ++ accesses) = (result, history ++ later) ∧
        ((result = .ok () ∧ Exists fun polls => Logged later issued false polls) ∨
          ((Exists fun error => result = .error error) ∧
            Outcome (pollLog later).polls (.error .timeout))) := by
  rcases poll_cases drive verdict spinLimit (history ++ accesses) with
    ⟨count, result, _, undecided, decided, ended⟩ | ⟨undecided, ended⟩
  · rcases statuses_logged logged judges undecided with ⟨log, harmless, _⟩
    rw [polled_succ_last, polled, List.append_assoc, List.append_assoc, ← List.append_assoc accesses]
      at ended
    refine ⟨result, _, ended, ?_⟩
    cases result with
    | ok _ =>
        rcases judges.accepted _ decided with ⟨calm, ending⟩
        exact Or.inl ⟨rfl, _, Logged.of_status log harmless calm ending⟩
    | error error =>
        refine Or.inr ⟨⟨error, rfl⟩, ?_⟩
        rw [pollLog_append, log]
        exact Outcome.refused harmless rfl (judges.refused _ error decided)
  · rcases statuses_logged logged judges undecided with ⟨log, harmless, pending⟩
    rw [polled, List.append_assoc] at ended
    refine ⟨_, _, ended, Or.inr ⟨⟨.timeout, rfl⟩, ?_⟩⟩
    rw [log]
    refine Outcome.spun harmless (exhausted_append polls pending ?_)
    rw [List.length_map, length_statuses]

theorem readWords_log (count : Nat) (before : PortHistory) (log : PollLog) :
    Exists fun pulls => (readWords drive count before).2 = before ++ pulls ∧
      pulls.foldl PollLog.access log = log := by
  induction count generalizing before with
  | zero => exact ⟨[], (List.append_nil _).symm, rfl⟩
  | succ count inductionHypothesis =>
      rcases inductionHypothesis
        (before ++ [.readWord dataPort (drive.word before dataPort)]) with ⟨pulls, reached, same⟩
      refine ⟨.readWord dataPort (drive.word before dataPort) :: pulls, ?_, same⟩
      simp only [readWords, PortDevice.inw]
      rw [reached, List.append_assoc]
      rfl

theorem Logged.readWords {accesses : PortHistory} {issued waiting : Bool} {polls : List Poll}
    (logged : Logged accesses issued waiting polls) (count : Nat) :
    Exists fun later => (readWords drive count (history ++ accesses)).2 = history ++ later ∧
      Logged later issued waiting polls := by
  rcases readWords_log drive count (history ++ accesses) (pollLog accesses) with
    ⟨pulls, pulled, same⟩
  refine ⟨accesses ++ pulls, ?_, ?_, logged.harmless, logged.settled⟩
  · rw [pulled, List.append_assoc]
  · rw [pollLog_append, same, logged.log]

/-- One sector: it is read, or the call ends. -/
theorem readSector_logged {accesses : PortHistory} {polls : List Poll}
    (logged : Logged accesses true true polls) {sector : Nat} {buf : List UInt8}
    (room : (sector + 1) * sectorSize ≤ buf.length) (few : sector < 256) :
    Exists fun result => Exists fun after => Exists fun later =>
      readSector mode drive sector buf (history ++ accesses) =
          some (result, after, history ++ later) ∧
        ((result = .ok () ∧ Exists fun polls => Logged later true true polls) ∨
          ((Exists fun error => result = .error error) ∧ Outcome (pollLog later).polls result)) := by
  rcases poll_logged drive history logged judges_drqVerdict with ⟨result, polling, reached, ended⟩
  rw [← waitForDrq_eq] at reached
  rcases ended with ⟨rfl, polls, waited⟩ | ⟨⟨error, rfl⟩, outcome⟩
  · by_cases calm : drive.byte (history ++ polling) statusCmdPort &&& (statusErr ||| statusDf) = 0
    · have checked := waited.checked (show failed _ = false from decide_eq_false (not_not.mpr calm))
      rcases checked.readWords drive history 256 with ⟨later, pulled, further⟩
      rw [readSector_pulls mode drive reached calm room few]
      simp only [List.append_assoc, pulled]
      exact ⟨_, _, later, rfl, Or.inl ⟨rfl, _, further⟩⟩
    · have refused := waited.refused (show failed _ = true from decide_eq_true calm)
      rw [readSector_refused mode drive reached calm, List.append_assoc]
      exact ⟨_, buf, _, rfl, Or.inr ⟨⟨_, rfl⟩, refused⟩⟩
  · rw [readSector, reached]
    exact ⟨_, buf, polling, rfl, Or.inr ⟨⟨.timeout, rfl⟩, outcome⟩⟩

/-- The loop over the sectors, from a point that was reached by harmless polls only.
It ends in one of the ways in which a call can end. -/
theorem readSectors_outcome {accesses : PortHistory} {polls : List Poll}
    (logged : Logged accesses true true polls) {remaining sector : Nat} {buf : List UInt8}
    (fits : (sector + remaining) * sectorSize ≤ buf.length) (few : sector + remaining ≤ 256) :
    Exists fun result => Exists fun after => Exists fun later =>
      readSectors mode drive remaining sector buf (history ++ accesses) =
          some (result, after, history ++ later) ∧ Outcome (pollLog later).polls result := by
  induction remaining generalizing accesses polls sector buf with
  | zero =>
      refine ⟨.ok (), buf, accesses, rfl, ?_⟩
      rw [logged.log]
      exact Outcome.completed logged.harmless logged.settled
  | succ remaining inductionHypothesis =>
      have room : (sector + 1) * sectorSize ≤ buf.length :=
        Nat.le_trans (Nat.mul_le_mul_right _ (by omega)) fits
      have inside : sector < 256 := by omega
      have shifted : sector + 1 + remaining = sector + (remaining + 1) := by omega
      rcases readSector_logged mode drive history logged room inside with
        ⟨result, middle, later, passed, ended⟩
      rw [readSectors, passed]
      rcases ended with ⟨rfl, polls, further⟩ | ⟨⟨error, rfl⟩, outcome⟩
      · have kept : middle.length = buf.length := by
          rcases readSector_reads mode drive (history ++ accesses) room inside with
            ⟨_, _, _, _, ran, one⟩
          rw [passed, Option.some.injEq, Prod.mk.injEq, Prod.mk.injEq] at ran
          rw [ran.2.1]
          exact one.length
        have left : (sector + 1 + remaining) * sectorSize ≤ middle.length := by
          rw [kept, shifted]
          exact fits
        exact inductionHypothesis further left (by omega)
      · exact ⟨.error error, middle, later, rfl, outcome⟩

theorem issueRead_log (lba sectorCount : Nat) (waiting : Bool) (polls : List Poll) :
    (issueRead lba sectorCount []).foldl PollLog.access ⟨false, waiting, polls⟩ =
      ⟨true, true, polls⟩ :=
  rfl

theorem readPio_outcome {lba : Nat} {buf : List UInt8} (valid : validRead lba buf.length = true) :
    Exists fun result => Exists fun after => Exists fun accesses =>
      readPio mode drive history lba (buf.length / sectorSize) buf =
          some (result, after, history ++ accesses) ∧ Outcome (pollLog accesses).polls result := by
  rcases validRead_sectors valid with ⟨whole, _, few, _⟩
  have start : Logged [] false true [] :=
    ⟨rfl, fun _ member => (List.not_mem_nil member).elim, rfl⟩
  rcases poll_logged drive history start judges_busyVerdict with ⟨result, polling, reached, ended⟩
  rw [← waitWhile_eq, List.append_nil] at reached
  rw [readPio, reached]
  rcases ended with ⟨rfl, polls, waited⟩ | ⟨⟨error, rfl⟩, outcome⟩
  · have issued : Logged (polling ++ issueRead lba (buf.length / sectorSize) []) true true polls := by
      refine ⟨?_, waited.harmless, waited.settled⟩
      rw [pollLog_append, waited.log, issueRead_log]
    simp only
    rw [issueRead_eq, List.append_assoc]
    refine readSectors_outcome mode drive history issued ?_ ?_
    · rw [Nat.zero_add, whole]
    · rw [Nat.zero_add]
      exact few
  · exact ⟨_, buf, polling, rfl, outcome⟩

end Run

/-! ## What is reported -/

/-- Whatever the drive answers, a call with valid arguments returns what is due, unless
one of its polls has a finding that is not reported as what it is. -/
theorem ata_errors_told_iff (mode : Overflow) (drive : PortDevice) (history : PortHistory)
    {lba : Nat} {buf : List UInt8} (valid : validRead lba buf.length = true) :
    Exists fun result => Exists fun after => Exists fun accesses =>
      (readLba true (pio mode drive)).read history lba buf =
          (result, after, history ++ accesses) ∧
        (result = dueResult (pollLog accesses).polls ↔
          forall poll, poll ∈ (pollLog accesses).polls -> poll.masked = false) := by
  have small := (validRead_sectors valid).2.2.2
  rcases readPio_outcome mode drive history valid with ⟨result, after, accesses, ran, outcome⟩
  refine ⟨result, after, accesses, ?_, outcome.due_iff⟩
  rw [readLba_eq true _ history (by omega), if_pos valid, if_pos rfl]
  exact pio_read valid ran

def stuckDrive (status : UInt8) : PortDevice where
  byte := fun _ _ => status
  word := fun _ _ => 0

/-- All polls of a drive that answers alike read the same status, also when there
are none. -/
theorem stuckDrive_polls {status : UInt8} {history accesses : PortHistory} {log : PollLog}
    (answers : (stuckDrive status).Answers history accesses)
    (before : forall poll, poll ∈ log.polls -> poll.status = status) :
    forall poll, poll ∈ (accesses.foldl PollLog.access log).polls -> poll.status = status := by
  induction accesses generalizing history log with
  | nil => exact before
  | cons access rest inductionHypothesis =>
      refine inductionHypothesis answers.2 ?_
      cases access with
      | wrote port value => exact before
      | readWord port value => exact before
      | readByte port value =>
          have same : value = status := answers.1
          rw [PollLog.access]
          split
          · intro poll member
            rcases List.mem_append.mp member with earlier | last
            · exact before poll earlier
            · rw [List.mem_singleton.mp last]
              exact same
          · exact before

/-- A drive that is never busy and always has a sector ready (0x48) is read as what
it is. -/
theorem ata_errors_told_idle : validRead 0 (List.replicate 512 (0 : UInt8)).length = true ∧
    Exists fun result => Exists fun after => Exists fun accesses =>
      (readLba true (pio .panics (stuckDrive 0x48))).read [] 0 (List.replicate 512 0) =
          (result, after, [] ++ accesses) ∧
        result = dueResult (pollLog accesses).polls := by
  have valid : validRead 0 (List.replicate 512 (0 : UInt8)).length = true := by
    rw [List.length_replicate]
    decide
  have calm : forall poll : Poll, poll.status = 0x48 -> poll.masked = false := by
    rintro ⟨issued, waiting, status⟩ rfl
    revert issued waiting
    decide
  rcases ata_errors_told_iff .panics (stuckDrive 0x48) [] valid with
    ⟨result, after, accesses, ran, told⟩
  rcases readLba_transferred .panics (stuckDrive 0x48) true [] (show 0 < 2 ^ 32 by decide)
    (List.replicate 512 0) with ⟨_, _, _, again, transferred⟩
  cases ran.symm.trans again
  refine ⟨valid, result, after, accesses, ran, told.mpr fun poll member => ?_⟩
  exact calm poll (stuckDrive_polls transferred.answers
    (fun _ none => (List.not_mem_nil none).elim) poll member)

theorem poll_decided {drive : PortDevice} {verdict : UInt8 -> Option (Except AtaError Unit)}
    {history : PortHistory} {result : Except AtaError Unit}
    (decided : verdict (drive.byte history statusCmdPort) = some result) :
    poll drive verdict spinLimit history =
      (result, history ++ [.readByte statusCmdPort (drive.byte history statusCmdPort)]) := by
  have more : spinLimit = 1999999 + 1 := rfl
  rw [more, poll]
  simp only [PortDevice.inb, decided]

/-- A drive that shows an error (0x51) after the command, and a port without a drive (0xff),
are both reported as a timeout, after one poll of the wait that finds them. -/
theorem ata_errors_told_as_timeout :
    (Exists fun after => Exists fun accesses =>
      (forall mode, (readLba true (pio mode (stuckDrive 0x51))).read [] 0 (List.replicate 512 0) =
          (.error .timeout, after, accesses)) ∧
        dueResult (pollLog accesses).polls = .error .driveError) ∧
    (Exists fun after => Exists fun accesses =>
      (forall mode, (readLba true (pio mode (stuckDrive 0xff))).read [] 0 (List.replicate 512 0) =
          (.error .timeout, after, accesses)) ∧
        dueResult (pollLog accesses).polls = .error .notPresent) := by
  have valid : validRead 0 (List.replicate 512 (0 : UInt8)).length = true := by
    rw [List.length_replicate]
    decide
  have count : (List.replicate 512 (0 : UInt8)).length / sectorSize = 1 := by
    rw [List.length_replicate]
    rfl
  have call : forall {mode : Overflow} {drive : PortDevice} {after : List UInt8}
      {accesses : PortHistory},
      readPio mode drive [] 0 1 (List.replicate 512 0) = some (.error .timeout, after, accesses) ->
      (readLba true (pio mode drive)).read [] 0 (List.replicate 512 0) =
        (.error .timeout, after, accesses) := by
    intro mode drive after accesses ran
    rw [readLba_eq true _ [] (by decide), if_pos valid, if_pos rfl]
    exact pio_read valid (by rw [count]; exact ran)
  constructor
  · have idle : waitWhile (stuckDrive 0x51) statusBsy statusBsy [] =
        (.ok (), [.readByte statusCmdPort 0x51]) := poll_decided (by decide)
    have failing : forall history, waitForDrq (stuckDrive 0x51) history =
        (.error .driveError, history ++ [.readByte statusCmdPort 0x51]) :=
      fun history => poll_decided (show drqVerdict 0x51 = some (.error .driveError) by decide)
    refine ⟨List.replicate 512 0, issueRead 0 1 [.readByte statusCmdPort 0x51] ++
      [.readByte statusCmdPort 0x51], fun mode => call ?_, by decide⟩
    rw [readPio, idle]
    simp only
    rw [readSectors, readSector, failing]
    rfl
  · have floating : waitWhile (stuckDrive 0xff) statusBsy statusBsy [] =
        (.error .notPresent, [.readByte statusCmdPort 0xff]) := poll_decided (by decide)
    refine ⟨List.replicate 512 0, [.readByte statusCmdPort 0xff], fun mode => call ?_, by decide⟩
    rw [readPio, floating]

end Storage
end Goatos
