import Mathlib.Data.List.FinRange
import Goatos.Library.PortProgram

namespace Goatos
namespace Interrupt

open Library
open PortProgram

/-!
# The two interrupt controllers

Each 8259 has a request register, a mask and an in-service register.  They work in
fully nested mode with line 0 first: asked by the processor, a controller puts its
first unmasked request into service, unless an equal or earlier line is in service
already.  If nothing is left to grant, the request that made it interrupt was
withdrawn; it then answers with line 7 and puts nothing into service.  The slave is
asked when the master grants its line 2.

The request lines, the one between the controllers included, and the masks change at
any time.  The rest of a controller is its `Service`, which only commands and
grants change.

`end_of_interrupt` does not know what the controllers know, only the number of the
interrupt.
-/

def irqVectorBase : UInt8 := 32

def irqCount : UInt8 := 16

def irqVectorLast : UInt8 := irqVectorBase + irqCount - 1

def masterCommand : UInt16 := 0x20

def masterData : UInt16 := 0x21

def slaveCommand : UInt16 := 0xa0

def slaveData : UInt16 := 0xa1

def ocw2EndOfInterrupt : UInt8 := 0x20

def ocw3ReadInService : UInt8 := 0x0b

def spuriousLine : UInt8 := 7

/-! ## The device -/

def lineBit (line : Fin 8) : UInt8 :=
  1 <<< UInt8.ofNat line.val

/-- The line of highest priority in a register, which is the lowest bit that is
set. -/
def highest (register : UInt8) : Option (Fin 8) :=
  (List.finRange 8).find? fun line => register &&& lineBit line ≠ 0

/-- The in-service register, and whether a read of the command port returns it or the
requests. -/
structure Service where
  inService : UInt8
  readsInService : Bool
  deriving DecidableEq, Repr

/-- Commands to a controller; others than these are not modelled. -/
def Service.command (service : Service) (byte : UInt8) : Option Service :=
  if byte = ocw2EndOfInterrupt then
    match highest service.inService with
    | some line => some { service with inService := service.inService &&& ~~~lineBit line }
    | none => some service
  else if byte = ocw3ReadInService then some { service with readsInService := true }
  else none

/-- A controller with its request lines and its mask. -/
structure Controller extends Service where
  requests : UInt8
  mask : UInt8
  deriving DecidableEq, Repr

namespace Controller

/-- A controller after its initialization, with all lines masked. -/
def initialized : Controller where
  inService := 0
  readsInService := false
  requests := 0
  mask := 0xff

/-- The request that would be granted. -/
def grant (controller : Controller) : Option (Fin 8) :=
  match highest (controller.requests &&& ~~~controller.mask) with
  | none => none
  | some line =>
      match highest controller.inService with
      | some busy => if busy ≤ line then none else some line
      | none => some line

/-- The answer to the processor, which puts a line into service.  Without a request
to grant there is none, and the controller stays as it is. -/
def acknowledge (controller : Controller) : Option (Fin 8) × Controller :=
  match controller.grant with
  | some line =>
      (some line,
        { controller with
          inService := controller.inService ||| lineBit line
          requests := controller.requests &&& ~~~lineBit line })
  | none => (none, controller)

def command (controller : Controller) (byte : UInt8) : Option Controller :=
  (controller.toService.command byte).map fun service => { controller with toService := service }

def status (controller : Controller) : UInt8 :=
  if controller.readsInService then controller.inService else controller.requests

end Controller

/-- Both controllers.  The slave is on line 2 of the master. -/
structure Pics where
  master : Controller
  slave : Controller
  deriving DecidableEq, Repr

/-- Where an interrupt comes from: a line of the master, a line of the slave, or a
request that was withdrawn at one of them. -/
inductive Irq where
  | master (line : Fin 8)
  | slave (line : Fin 8)
  | spuriousMaster
  | spuriousSlave
  deriving DecidableEq, Repr

namespace Irq

def number : Irq -> UInt8
  | .master line => UInt8.ofNat line.val
  | .slave line => 8 + UInt8.ofNat line.val
  | .spuriousMaster => 7
  | .spuriousSlave => 15

/-- The vector that the processor is given. -/
def vector (irq : Irq) : UInt8 :=
  irqVectorBase + irq.number

def spurious : Irq -> Bool
  | .master _ | .slave _ => false
  | .spuriousMaster | .spuriousSlave => true

/-- The bits of the master that belong to an interrupt.  Whatever comes from the slave
has the line between the controllers in service there. -/
def masterBits : Irq -> UInt8
  | .master line => lineBit line
  | .slave _ | .spuriousSlave => lineBit 2
  | .spuriousMaster => 0

def slaveBits : Irq -> UInt8
  | .slave line => lineBit line
  | .master _ | .spuriousMaster | .spuriousSlave => 0

/-- The controllers that have to be told the end of an interrupt, by their command
ports. -/
def commandPorts : Irq -> List UInt16
  | .master _ | .spuriousSlave => [masterCommand]
  | .slave _ => [slaveCommand, masterCommand]
  | .spuriousMaster => []

/-- A property of all interrupts is checked line by line. -/
instance (property : Irq -> Prop) [DecidablePred property] :
    Decidable (forall irq, property irq) :=
  decidable_of_iff
    ((forall line, property (.master line)) ∧ (forall line, property (.slave line)) ∧
      property .spuriousMaster ∧ property .spuriousSlave)
    ⟨fun cases irq =>
      match irq with
      | .master line => cases.1 line
      | .slave line => cases.2.1 line
      | .spuriousMaster => cases.2.2.1
      | .spuriousSlave => cases.2.2.2,
     fun all => ⟨fun _ => all _, fun _ => all _, all _, all _⟩⟩

end Irq

namespace Pics

def initialized : Pics where
  master := .initialized
  slave := .initialized

/-- The processor accepts an interrupt.  On the line between the controllers the
slave is asked which of its lines it is. -/
def acknowledge (pics : Pics) : Irq × Pics :=
  match pics.master.acknowledge with
  | (none, _) => (.spuriousMaster, pics)
  | (some line, master) =>
      if line = 2 then
        match pics.slave.acknowledge with
        | (none, _) => (.spuriousSlave, { pics with master := master })
        | (some line, slave) => (.slave line, ⟨master, slave⟩)
      else (.master line, { pics with master := master })

/-- Requests come and go, and masks change.  What is in service stays. -/
def disturb (pics : Pics) (masterRequests masterMask slaveRequests slaveMask : UInt8) : Pics where
  master := { pics.master with requests := masterRequests, mask := masterMask }
  slave := { pics.slave with requests := slaveRequests, mask := slaveMask }

/-- The ports of both controllers.  Other devices answer anything, and a write to
them changes nothing here. -/
def bus : Bus Pics where
  write := fun pics port byte =>
    if port = masterCommand then
      (pics.master.command byte).map fun master => { pics with master := master }
    else if port = slaveCommand then
      (pics.slave.command byte).map fun slave => { pics with slave := slave }
    else if port = masterData then
      some { pics with master := { pics.master with mask := byte } }
    else if port = slaveData then
      some { pics with slave := { pics.slave with mask := byte } }
    else some pics
  Reads := fun pics port byte =>
    if port = masterCommand then byte = pics.master.status
    else if port = slaveCommand then byte = pics.slave.status
    else if port = masterData then byte = pics.master.mask
    else if port = slaveData then byte = pics.slave.mask
    else True

end Pics

/-! ## The driver -/

/-- The interrupt line that raises a vector. -/
def irqOfVector (vector : UInt8) : Option UInt8 :=
  if irqVectorBase ≤ vector ∧ vector ≤ irqVectorLast then some (vector - irqVectorBase) else none

/-- What `end_of_interrupt` found out about the interrupt. -/
inductive Acknowledged where
  | serviced
  | spurious
  deriving DecidableEq, Repr

section Driver

variable {Memory : Type}

def outb (port : UInt16) (byte : UInt8) : PortProgram Memory Unit :=
  .outb port byte (.done ())

def inb (port : UInt16) : PortProgram Memory UInt8 :=
  .inb port .done

/-- Tell the controllers, the slave first. -/
def sendEnd (fromSlave : Bool) : PortProgram Memory Acknowledged := do
  if fromSlave then outb slaveCommand ocw2EndOfInterrupt
  outb masterCommand ocw2EndOfInterrupt
  return .serviced

/-- `end_of_interrupt`.  On the last line of a controller its in-service register
tells whether the interrupt is spurious.  If so, only the master is told, and only if
it came from the slave. -/
def endOfInterrupt (irq : UInt8) : PortProgram Memory Acknowledged :=
  let fromSlave : Bool := irq ≥ 8
  let line := irq % 8
  if line = spuriousLine then do
    let command := if fromSlave then slaveCommand else masterCommand
    outb command ocw3ReadInService
    let register ← inb command
    if register &&& (1 <<< line) ≠ 0 then sendEnd fromSlave
    else do
      if fromSlave then outb masterCommand ocw2EndOfInterrupt
      return .spurious
  else sendEnd fromSlave

end Driver

/-! ## What the driver relies on -/

/-- The ports, as far as lines and masks do not matter: what is in service is exact,
and other reads may answer anything. -/
def serviceBus : Bus (Service × Service) where
  write := fun service port byte =>
    if port = masterCommand then
      (service.1.command byte).map fun master => (master, service.2)
    else if port = slaveCommand then
      (service.2.command byte).map fun slave => (service.1, slave)
    else some service
  Reads := fun service port byte =>
    (port = masterCommand -> service.1.readsInService = true -> byte = service.1.inService) ∧
    (port = slaveCommand -> service.2.readsInService = true -> byte = service.2.inService)

def Pics.service (pics : Pics) : Service × Service :=
  (pics.master.toService, pics.slave.toService)

theorem Controller.command_of_service {controller : Controller} {byte : UInt8} {service : Service}
    (commanded : controller.toService.command byte = some service) :
    controller.command byte = some { controller with toService := service } :=
  Option.map_eq_some_iff.mpr ⟨service, commanded, rfl⟩

theorem bus_abstracts : Pics.bus.Abstracts serviceBus Pics.service where
  write := by
    intro pics port byte after written
    simp only [serviceBus, Pics.bus] at written ⊢
    by_cases toMaster : port = masterCommand
    · rw [if_pos toMaster] at written ⊢
      rcases Option.map_eq_some_iff.mp written with ⟨service, commanded, rfl⟩
      rw [Controller.command_of_service commanded]
      exact ⟨{ pics with master := { pics.master with toService := service } }, rfl, rfl⟩
    · rw [if_neg toMaster] at written ⊢
      by_cases toSlave : port = slaveCommand
      · rw [if_pos toSlave] at written ⊢
        rcases Option.map_eq_some_iff.mp written with ⟨service, commanded, rfl⟩
        rw [Controller.command_of_service commanded]
        exact ⟨{ pics with slave := { pics.slave with toService := service } }, rfl, rfl⟩
      · rw [if_neg toSlave] at written ⊢
        cases written
        split
        · exact ⟨_, rfl, rfl⟩
        · split
          · exact ⟨_, rfl, rfl⟩
          · exact ⟨_, rfl, rfl⟩
  reads := by
    intro pics port byte answer
    simp only [serviceBus, Pics.bus] at answer ⊢
    constructor
    · rintro rfl selected
      rw [if_pos rfl] at answer
      rw [answer, Controller.status]
      exact if_pos selected
    · rintro rfl selected
      rw [if_neg (by decide), if_pos rfl] at answer
      rw [answer, Controller.status]
      exact if_pos selected
  answers := by
    intro pics port
    simp only [Pics.bus]
    split
    · exact ⟨_, rfl⟩
    · split
      · exact ⟨_, rfl⟩
      · split
        · exact ⟨_, rfl⟩
        · split
          · exact ⟨_, rfl⟩
          · exact ⟨0, trivial⟩

theorem Controller.acknowledge_cases (controller : Controller) :
    (Exists fun line => Exists fun next => controller.acknowledge = (some line, next) ∧
      next.inService = controller.inService ||| lineBit line) ∨
    controller.acknowledge = (none, controller) := by
  rw [Controller.acknowledge]
  split
  next line _ => exact Or.inl ⟨line, _, rfl, rfl⟩
  next => exact Or.inr rfl

/-- While nothing is in service, accepting an interrupt puts its own bits into
service. -/
theorem acknowledge_inService {pics : Pics} (master : pics.master.inService = 0)
    (slave : pics.slave.inService = 0) :
    pics.acknowledge.2.master.inService = pics.acknowledge.1.masterBits ∧
      pics.acknowledge.2.slave.inService = pics.acknowledge.1.slaveBits := by
  rw [Pics.acknowledge]
  rcases pics.master.acknowledge_cases with ⟨line, next, granted, inService⟩ | refused
  · rw [master, UInt8.zero_or] at inService
    simp only [granted]
    split
    next cascade =>
      rw [cascade] at inService
      rcases pics.slave.acknowledge_cases with ⟨line', next', granted', inService'⟩ | refused'
      · rw [slave, UInt8.zero_or] at inService'
        rw [granted']
        exact ⟨inService, inService'⟩
      · rw [refused']
        exact ⟨inService, slave⟩
    next => exact ⟨inService, slave⟩
  · rw [refused]
    exact ⟨master, slave⟩

/-- The end-of-interrupt commands among what was written, by their ports. -/
def endsWritten (written : Written) : List UInt16 :=
  written.filterMap fun (port, byte) =>
    if (port = masterCommand ∨ port = slaveCommand) ∧ byte = ocw2EndOfInterrupt then some port
    else none

/-- What is left after an interrupt was handled: nothing is in service, and the
controllers concerned were told so once, the slave first. -/
structure Ended (irq : Irq) (answer : Acknowledged) (written : Written)
    (service : Service × Service) : Prop where
  master : service.1.inService = 0
  slave : service.2.inService = 0
  ends : endsWritten written = irq.commandPorts
  answer : answer = .spurious ↔ irq.spurious = true

/-! ## The end of an interrupt -/

/-- With one line in service, the command ends that one. -/
theorem command_end {service : Service} {line : Fin 8} (inService : service.inService = lineBit line) :
    service.command ocw2EndOfInterrupt = some { service with inService := 0 } := by
  have first : forall line : Fin 8, highest (lineBit line) = some line := by decide
  have cleared : forall line : Fin 8, lineBit line &&& ~~~lineBit line = 0 := by decide
  simp only [Service.command, if_true, inService, first, cleared]

section Driver

variable {Memory : Type} {service : Service × Service} {irq : Irq} {written : Written}

theorem write_master {after : Service} {byte : UInt8} (commanded : service.1.command byte = some after) :
    serviceBus.write service masterCommand byte = some (after, service.2) := by
  simp only [serviceBus, if_true, commanded, Option.map_some]

theorem write_slave {after : Service} {byte : UInt8} (commanded : service.2.command byte = some after) :
    serviceBus.write service slaveCommand byte = some (service.1, after) := by
  have other : slaveCommand ≠ masterCommand := by decide
  simp only [serviceBus, if_neg other, if_true, commanded, Option.map_some]

theorem endsWritten_append (first second : Written) :
    endsWritten (first ++ second) = endsWritten first ++ endsWritten second :=
  List.filterMap_append

theorem number_ge_iff : forall irq : Irq,
    irq.number ≥ 8 ↔ (Exists fun line => irq = .slave line) ∨ irq = .spuriousSlave := by
  decide

/-- The bit that `end_of_interrupt` looks at tells spurious interrupts from others. -/
theorem in_service_iff : forall irq : Irq, irq.number % 8 = spuriousLine ->
    ((if irq.number ≥ 8 then irq.slaveBits else irq.masterBits) &&& (1 <<< (irq.number % 8)) ≠ 0 ↔
      irq.spurious = false) := by
  decide

theorem real_of_ordinary : forall irq : Irq, irq.number % 8 ≠ spuriousLine ->
    irq.spurious = false := by
  decide

/-- An interrupt that is in service is ended, and the controllers concerned are told
once. -/
theorem sendEnd_ensures (real : irq.spurious = false) (master : service.1.inService = irq.masterBits)
    (slave : service.2.inService = irq.slaveBits) (unwritten : endsWritten written = []) :
    (sendEnd (irq.number ≥ 8) : PortProgram Memory Acknowledged).Ensures serviceBus (Ended irq)
      written service := by
  cases irq with
  | master line =>
      rw [decide_eq_false (by rw [number_ge_iff]; simp)]
      refine ⟨_, write_master (command_end master), rfl, slave, ?_,
        iff_of_false nofun Bool.false_ne_true⟩
      rw [endsWritten_append, unwritten]
      rfl
  | slave line =>
      rw [decide_eq_true ((number_ge_iff _).mpr (Or.inl ⟨line, rfl⟩))]
      refine ⟨_, write_slave (command_end slave), _, write_master (command_end master), rfl, rfl,
        ?_, iff_of_false nofun Bool.false_ne_true⟩
      rw [endsWritten_append, endsWritten_append, unwritten]
      rfl
  | spuriousMaster => cases real
  | spuriousSlave => cases real

theorem endOfInterrupt_of_slave {number : UInt8} (last : number % 8 = spuriousLine)
    (fromSlave : number ≥ 8) : (endOfInterrupt number : PortProgram Memory Acknowledged) =
      .outb slaveCommand ocw3ReadInService (.inb slaveCommand fun register =>
        if register &&& (1 <<< (number % 8)) ≠ 0 then sendEnd (number ≥ 8)
        else .outb masterCommand ocw2EndOfInterrupt (.done .spurious)) := by
  rw [endOfInterrupt, if_pos last, decide_eq_true fromSlave]
  rfl

theorem endOfInterrupt_of_master {number : UInt8} (last : number % 8 = spuriousLine)
    (fromMaster : ¬ number ≥ 8) : (endOfInterrupt number : PortProgram Memory Acknowledged) =
      .outb masterCommand ocw3ReadInService (.inb masterCommand fun register =>
        if register &&& (1 <<< (number % 8)) ≠ 0 then sendEnd (number ≥ 8)
        else .done .spurious) := by
  rw [endOfInterrupt, if_pos last, decide_eq_false fromMaster]
  rfl

/-- Whatever interrupt was accepted, `end_of_interrupt` ends it and no other. -/
theorem endOfInterrupt_ensures (master : service.1.inService = irq.masterBits)
    (slave : service.2.inService = irq.slaveBits) :
    (endOfInterrupt irq.number : PortProgram Memory Acknowledged).Ensures serviceBus (Ended irq)
      [] service := by
  by_cases last : irq.number % 8 = spuriousLine
  · have known := in_service_iff irq last
    by_cases fromSlave : irq.number ≥ 8
    · rw [if_pos fromSlave, ← slave] at known
      rw [endOfInterrupt_of_slave last fromSlave]
      refine ⟨_, write_slave rfl, ?_⟩
      intro register answer
      have same : register = service.2.inService := answer.2 rfl rfl
      rw [same]
      beta_reduce
      by_cases inService : service.2.inService &&& (1 <<< (irq.number % 8)) ≠ 0
      · rw [if_pos inService]
        exact sendEnd_ensures (known.mp inService) master slave rfl
      · rw [if_neg inService]
        rcases (number_ge_iff irq).mp fromSlave with ⟨line, rfl⟩ | rfl
        · exact absurd (known.mpr rfl) inService
        · exact ⟨_, write_master (command_end master), rfl, slave, rfl, iff_of_true rfl rfl⟩
    · rw [if_neg fromSlave, ← master] at known
      rw [endOfInterrupt_of_master last fromSlave]
      refine ⟨_, write_master rfl, ?_⟩
      intro register answer
      have same : register = service.1.inService := answer.1 rfl rfl
      rw [same]
      beta_reduce
      by_cases inService : service.1.inService &&& (1 <<< (irq.number % 8)) ≠ 0
      · rw [if_pos inService]
        exact sendEnd_ensures (known.mp inService) master slave rfl
      · rw [if_neg inService]
        cases irq with
        | master line => exact absurd (known.mpr rfl) inService
        | slave line => exact absurd ((number_ge_iff _).mpr (Or.inl ⟨line, rfl⟩)) fromSlave
        | spuriousMaster => exact ⟨master, slave, rfl, iff_of_true rfl rfl⟩
        | spuriousSlave => exact absurd ((number_ge_iff _).mpr (Or.inr rfl)) fromSlave
  · rw [endOfInterrupt, if_neg last]
    exact sendEnd_ensures (real_of_ordinary irq last) master slave rfl

end Driver

end Interrupt
end Goatos
