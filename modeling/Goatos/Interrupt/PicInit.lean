import Goatos.Interrupt.Acknowledge
import Goatos.Library.Word

namespace Goatos
namespace Interrupt

open Library
open PortProgram

/-!
# Setting up the controllers

An 8259 is programmed by a sequence of words.  The first one, told by bit 4, goes to the
command port and resets the controller; it says which of the others follow on the data
port.  Until the last of them a write to the data port is not a mask.  `init` may find the
controllers anywhere in such a sequence, and the request lines change all the time.

`unmask` reads a mask, clears a bit and writes it back.
-/

/-! ## The device -/

inductive Side where
  | master
  | slave
  deriving DecidableEq, Repr

/-- The word that a controller expects on its data port.  In a sequence it is one of
the initialization words; `ready` is the mask. -/
inductive Stage where
  | ready
  | wantsVector (cascaded wantsMode : Bool)
  | wantsCascade (wantsMode : Bool)
  | wantsMode
  deriving DecidableEq, Repr

/-- All of a controller but its request lines. -/
structure Settings extends Service where
  mask : UInt8
  stage : Stage
  vectorBase : UInt8
  cascade : UInt8
  mode : UInt8
  deriving DecidableEq, Repr

namespace Settings

/-- A write to the command port.  The word that starts a sequence is documented to clear
the mask and to select the request register for reads.  That it also clears the in-service
register is assumed here, as emulators of the controller do it. -/
def command (settings : Settings) (byte : UInt8) : Option Settings :=
  if byte &&& 0x10 ≠ 0 then
    some { settings with
      inService := 0
      readsInService := false
      mask := 0
      stage := .wantsVector (byte &&& 2 = 0) (byte &&& 1 ≠ 0)
      mode := 0 }
  else
    (settings.toService.command byte).map fun service => { settings with toService := service }

def modeOrReady (wantsMode : Bool) : Stage :=
  if wantsMode then .wantsMode else .ready

/-- A write to the data port: the next word of a sequence, or the mask if there is
none. -/
def data (settings : Settings) (byte : UInt8) : Settings :=
  match settings.stage with
  | .ready => { settings with mask := byte }
  | .wantsVector cascaded wantsMode =>
      { settings with
        vectorBase := byte &&& 0xf8
        stage := if cascaded then .wantsCascade wantsMode else modeOrReady wantsMode }
  | .wantsCascade wantsMode =>
      { settings with cascade := byte, stage := modeOrReady wantsMode }
  | .wantsMode => { settings with mode := byte, stage := .ready }

end Settings

structure Chip extends Settings where
  requests : UInt8
  deriving DecidableEq, Repr

/-- What `Pic` knows of it once it is set up. -/
def Chip.controller (chip : Chip) : Controller where
  toService := chip.toService
  requests := chip.requests
  mask := chip.mask

abbrev Chips := Side -> Chip

namespace Chips

def settings (chips : Chips) (side : Side) : Settings :=
  (chips side).toSettings

def pics (chips : Chips) : Pics :=
  ⟨(chips .master).controller, (chips .slave).controller⟩

/-- The vector that the processor is given for an interrupt: five bits of the controller
and three for the line. -/
def vectorOf (chips : Chips) : Irq -> UInt8
  | .master line => (chips .master).vectorBase ||| UInt8.ofNat line.val
  | .slave line => (chips .slave).vectorBase ||| UInt8.ofNat line.val
  | .spuriousMaster => (chips .master).vectorBase ||| 7
  | .spuriousSlave => (chips .slave).vectorBase ||| 7

end Chips

/-- Whose port this is, and whether it is the data port. -/
def decodePort (port : UInt16) : Option (Side × Bool) :=
  if port = masterCommand then some (.master, false)
  else if port = slaveCommand then some (.slave, false)
  else if port = masterData then some (.master, true)
  else if port = slaveData then some (.slave, true)
  else none

def Settings.write (settings : Settings) (isData : Bool) (byte : UInt8) : Option Settings :=
  if isData then some (settings.data byte) else settings.command byte

/-- The ports of both controllers. -/
def Chips.bus : Bus Chips where
  write := fun chips port byte =>
    match decodePort port with
    | some (side, isData) => ((chips side).toSettings.write isData byte).map fun settings =>
        Function.update chips side { chips side with toSettings := settings }
    | none => some chips
  Reads := fun chips port byte =>
    match decodePort port with
    | some (side, true) => byte = (chips side).mask
    | some (side, false) => byte = (chips side).controller.status
    | none => True

/-- The same as far as the request lines do not matter, which change on their
own. -/
def settingsBus : Bus (Side -> Settings) where
  write := fun all port byte =>
    match decodePort port with
    | some (side, isData) => ((all side).write isData byte).map (Function.update all side)
    | none => some all
  Reads := fun all port byte =>
    match decodePort port with
    | some (side, true) => byte = (all side).mask
    | _ => True

theorem settings_update (chips : Chips) (side : Side) (settings : Settings) :
    Chips.settings (Function.update chips side { chips side with toSettings := settings }) =
      Function.update chips.settings side settings := by
  funext other
  by_cases same : other = side
  · rw [same, Function.update_self, Chips.settings, Function.update_self]
  · rw [Function.update_of_ne same, Chips.settings, Function.update_of_ne same]
    rfl

theorem chips_abstract : Chips.bus.Abstracts settingsBus Chips.settings where
  write := by
    intro chips port byte after written
    simp only [settingsBus, Chips.bus] at written ⊢
    generalize decodePort port = decoded at written ⊢
    rcases decoded with _ | ⟨side, isData⟩
    · cases written
      exact ⟨chips, rfl, rfl⟩
    · rcases Option.map_eq_some_iff.mp written with ⟨settings, wrote, rfl⟩
      refine ⟨_, Option.map_eq_some_iff.mpr ⟨settings, wrote, rfl⟩, ?_⟩
      exact settings_update chips side settings
  reads := by
    intro chips port byte answer
    simp only [settingsBus, Chips.bus] at answer ⊢
    generalize decodePort port = decoded at answer ⊢
    rcases decoded with _ | ⟨side, _ | _⟩
    · trivial
    · trivial
    · exact answer
  answers := by
    intro chips port
    simp only [Chips.bus]
    generalize decodePort port = decoded
    rcases decoded with _ | ⟨side, _ | _⟩
    · exact ⟨0, trivial⟩
    · exact ⟨_, rfl⟩
    · exact ⟨_, rfl⟩

/-! ## The driver -/

/-- `Pic`: the ports of a controller and its first vector. -/
structure Pic where
  command : UInt16
  data : UInt16
  vectorOffset : UInt8
  deriving DecidableEq, Repr

def chainedPics : Side -> Pic
  | .master => ⟨masterCommand, masterData, irqVectorBase⟩
  | .slave => ⟨slaveCommand, slaveData, irqVectorBase + 8⟩

def icw1Init : UInt8 := 0x11

def icw3MasterCascade : UInt8 := (1 : UInt8) <<< 2

def icw3SlaveIdentity : UInt8 := 2

def icw4Mode8086 : UInt8 := 0x01

def maskAll : UInt8 := 0xff

def ioDelayPort : UInt16 := 0x80

structure PicState where
  vectorBase : UInt8
  vectorLast : UInt8
  masterMask : UInt8
  slaveMask : UInt8
  deriving DecidableEq, Repr

def PicState.allMasked (state : PicState) : Bool :=
  state.masterMask = maskAll ∧ state.slaveMask = maskAll

section Driver

variable {Memory : Type}

def ioDelay : PortProgram Memory Unit :=
  outb ioDelayPort 0

def initializePic (pic : Pic) (cascadeWord : UInt8) : PortProgram Memory Unit := do
  outb pic.command icw1Init
  ioDelay
  outb pic.data pic.vectorOffset
  ioDelay
  outb pic.data cascadeWord
  ioDelay
  outb pic.data icw4Mode8086
  ioDelay

def setMask (pic : Pic) (mask : UInt8) : PortProgram Memory Unit :=
  outb pic.data mask

def readMask (pic : Pic) : PortProgram Memory UInt8 :=
  inb pic.data

/-- `init`: both controllers go through their sequences, and then all lines are
masked. -/
def picInit : PortProgram Memory Unit := do
  initializePic (chainedPics .master) icw3MasterCascade
  initializePic (chainedPics .slave) icw3SlaveIdentity
  setMask (chainedPics .master) maskAll
  setMask (chainedPics .slave) maskAll

def picState : PortProgram Memory PicState := do
  let masterMask ← readMask (chainedPics .master)
  let slaveMask ← readMask (chainedPics .slave)
  return {
    vectorBase := (chainedPics .master).vectorOffset
    vectorLast := (chainedPics .slave).vectorOffset + 7
    masterMask := masterMask
    slaveMask := slaveMask }

/-- Clear a bit of a mask, the way `unmask` does it: read the mask, and write it
back without the bit. -/
def clearMaskBit (side : Side) (line : UInt8) : PortProgram Memory Unit := do
  let mask ← readMask (chainedPics side)
  setMask (chainedPics side) (mask &&& ~~~(1 <<< line))

/-- `unmask`.  For a line of the slave the line between the controllers is opened,
too; numbers from 16 on are ignored. -/
def unmask (irq : UInt8) : PortProgram Memory Unit :=
  if irq ≥ irqCount then return ()
  else if irq < 8 then clearMaskBit .master irq
  else do
    clearMaskBit .slave (irq - 8)
    clearMaskBit .master 2

def unmaskAll : List UInt8 -> PortProgram Memory Unit
  | [] => return ()
  | irq :: rest => do
      unmask irq
      unmaskAll rest

/-- `init`, any calls of `unmask` after it, and `state`. -/
def picSetup (irqs : List UInt8) : PortProgram Memory PicState := do
  picInit
  unmaskAll irqs
  picState

end Driver

/-! ## What the driver leaves behind -/

def configured (masks : Side -> UInt8) (side : Side) : Settings where
  inService := 0
  readsInService := false
  mask := masks side
  stage := .ready
  vectorBase := (chainedPics side).vectorOffset
  cascade := match side with
    | .master => icw3MasterCascade
    | .slave => icw3SlaveIdentity
  mode := icw4Mode8086

def clearBit (masks : Side -> UInt8) (side : Side) (line : UInt8) : Side -> UInt8 :=
  Function.update masks side (masks side &&& ~~~(1 <<< line))

def openLine (masks : Side -> UInt8) (irq : UInt8) : Side -> UInt8 :=
  if irq ≥ irqCount then masks
  else if irq < 8 then clearBit masks .master irq
  else clearBit (clearBit masks .slave (irq - 8)) .master 2

/-- The lines that an interrupt needs open: its own, and for one of the slave also the
line between the controllers. -/
def Opens (irq : UInt8) : Side -> Fin 8 -> Prop
  | .master, line => irq = UInt8.ofNat line.val ∨ (line.val = 2 ∧ 8 ≤ irq ∧ irq < irqCount)
  | .slave, line => irq = 8 + UInt8.ofNat line.val

instance (irq : UInt8) (side : Side) (line : Fin 8) : Decidable (Opens irq side line) := by
  cases side
  · exact inferInstanceAs (Decidable (_ ∨ _))
  · exact inferInstanceAs (Decidable (_ = _))

theorem clearBit_and (masks : Side -> UInt8) (side : Side) (cleared line : Fin 8) :
    clearBit masks side (UInt8.ofNat cleared.val) side &&& lineBit line = 0 ↔
      masks side &&& lineBit line = 0 ∨ cleared = line := by
  have apart : forall cleared line : Fin 8, ~~~lineBit cleared &&& lineBit line =
      if cleared = line then 0 else lineBit line := by decide
  rw [clearBit, Function.update_self, UInt8.and_assoc]
  change masks side &&& (~~~lineBit cleared &&& lineBit line) = 0 ↔ _
  rw [apart]
  split
  · rename_i same
    simp only [UInt8.and_zero, same, or_true]
  · rename_i different
    simp only [different, or_false]

theorem clearBit_other (masks : Side -> UInt8) {side other : Side} (different : other ≠ side)
    (line : UInt8) : clearBit masks side line other = masks other :=
  Function.update_of_ne different _ _

/-- An interrupt is of the master, of the slave, or there is none of that number. -/
theorem irq_cases (irq : UInt8) :
    (Exists fun line : Fin 8 => irq = UInt8.ofNat line.val) ∨
      (Exists fun line : Fin 8 => irq = 8 + UInt8.ofNat line.val) ∨ irq ≥ irqCount := by
  revert irq
  exact forall_byte (by decide +kernel)

/-- What one call of `unmask` opens. -/
theorem openLine_opens (masks : Side -> UInt8) (irq : UInt8) (side : Side) (line : Fin 8) :
    openLine masks irq side &&& lineBit line = 0 ↔
      masks side &&& lineBit line = 0 ∨ Opens irq side line := by
  have ofMaster : forall own : Fin 8,
      ¬ UInt8.ofNat own.val ≥ irqCount ∧ UInt8.ofNat own.val < 8 := by decide
  have ofSlave : forall own : Fin 8, ¬ 8 + UInt8.ofNat own.val ≥ irqCount ∧
      ¬ 8 + UInt8.ofNat own.val < 8 ∧ 8 + UInt8.ofNat own.val - 8 = UInt8.ofNat own.val := by
    decide
  rcases irq_cases irq with ⟨own, rfl⟩ | ⟨own, rfl⟩ | none
  · rw [openLine, if_neg (ofMaster own).1, if_pos (ofMaster own).2]
    cases side with
    | master =>
        have same : forall own line : Fin 8,
            Opens (UInt8.ofNat own.val) .master line ↔ own = line := by decide
        rw [same, clearBit_and]
    | slave =>
        have never : forall own line : Fin 8, ¬ Opens (UInt8.ofNat own.val) .slave line := by decide
        rw [clearBit_other _ (by decide), or_iff_left (never own line)]
  · rw [openLine, if_neg (ofSlave own).1, if_neg (ofSlave own).2.1, (ofSlave own).2.2]
    cases side with
    | master =>
        have cascade : forall own line : Fin 8,
            Opens (8 + UInt8.ofNat own.val) .master line ↔ 2 = line := by decide
        rw [cascade]
        refine (clearBit_and _ .master 2 line).trans ?_
        rw [clearBit_other _ (by decide)]
    | slave =>
        have same : forall own line : Fin 8,
            Opens (8 + UInt8.ofNat own.val) .slave line ↔ own = line := by decide
        rw [same, clearBit_other _ (by decide), clearBit_and]
  · have never : ¬ Opens irq side line := by
      intro opens
      have small : forall line : Fin 8, ¬ UInt8.ofNat line.val ≥ irqCount ∧
          ¬ 8 + UInt8.ofNat line.val ≥ irqCount := by decide
      cases side with
      | master =>
          rcases opens with rfl | ⟨_, _, below⟩
          · exact (small line).1 none
          · exact absurd below (UInt8.not_lt.mpr none)
      | slave =>
          cases opens
          exact (small line).2 none
    rw [openLine, if_pos none, or_iff_left never]

/-- What a list of calls opens, besides what was open already. -/
theorem openLines_open (irqs : List UInt8) (masks : Side -> UInt8) (side : Side) (line : Fin 8) :
    irqs.foldl openLine masks side &&& lineBit line = 0 ↔
      masks side &&& lineBit line = 0 ∨ Exists fun irq => irq ∈ irqs ∧ Opens irq side line := by
  induction irqs generalizing masks with
  | nil => simp
  | cons irq rest inductionHypothesis =>
      rw [List.foldl_cons, inductionHypothesis, openLine_opens, or_assoc]
      simp only [List.mem_cons, exists_eq_or_imp]

/-! ## The programs -/

@[simp]
theorem decodePort_command (side : Side) :
    decodePort (chainedPics side).command = some (side, false) := by
  cases side <;> decide

@[simp]
theorem decodePort_data (side : Side) :
    decodePort (chainedPics side).data = some (side, true) := by
  cases side <;> decide

section Ensures

variable {Memory Value : Type} {post : Value -> Written -> (Side -> Settings) -> Prop}
  {next : Unit -> PortProgram Memory Value} {written : Written} {all : Side -> Settings}

theorem ensures_data (side : Side) (byte : UInt8)
    (rest : forall written, (next ()).Ensures settingsBus post written
      (Function.update all side ((all side).data byte))) :
    (outb (chainedPics side).data byte >>= next).Ensures settingsBus post written all := by
  refine ⟨_, ?_, rest _⟩
  simp only [settingsBus, decodePort_data, Settings.write, if_true, Option.map_some]

theorem ensures_command (side : Side) {byte : UInt8} {settings : Settings}
    (commanded : (all side).command byte = some settings)
    (rest : forall written, (next ()).Ensures settingsBus post written
      (Function.update all side settings)) :
    (outb (chainedPics side).command byte >>= next).Ensures settingsBus post written all := by
  refine ⟨_, ?_, rest _⟩
  simp only [settingsBus, decodePort_command, Settings.write, Bool.false_eq_true, if_false,
    commanded, Option.map_some]

theorem ensures_delay
    (rest : forall written, (next ()).Ensures settingsBus post written all) :
    (ioDelay >>= next).Ensures settingsBus post written all :=
  ⟨all, rfl, rest _⟩

theorem ensures_mask (side : Side) {next : UInt8 -> PortProgram Memory Value}
    (rest : (next (all side).mask).Ensures settingsBus post written all) :
    (readMask (chainedPics side) >>= next).Ensures settingsBus post written all := by
  intro byte answer
  simp only [settingsBus, decodePort_data] at answer
  rw [answer]
  exact rest

end Ensures

section Programs

variable {Memory : Type} {written : Written} {all : Side -> Settings} {masks : Side -> UInt8}

/-- Wherever a controller was in a sequence, it starts anew and is ready afterwards, with
no line masked. -/
theorem initializePic_ensures (side : Side) (cascadeWord : UInt8) :
    (initializePic (chainedPics side) cascadeWord : PortProgram Memory Unit).Ensures settingsBus
      (fun _ _ after => after = Function.update all side
        { configured (fun _ => 0) side with cascade := cascadeWord }) written all := by
  refine ensures_command side (if_pos (by decide)) fun _ => ensures_delay fun _ =>
    ensures_data side _ fun _ => ensures_delay fun _ => ensures_data side _ fun _ =>
    ensures_delay fun _ => ensures_data side _ fun _ => ⟨_, rfl, ?_⟩
  simp only [Function.update_self, Function.update_idem]
  cases side <;> rfl

theorem configured_data (masks : Side -> UInt8) (side : Side) (mask : UInt8) :
    Function.update (configured masks) side ((configured masks side).data mask) =
      configured (Function.update masks side mask) := by
  funext other
  by_cases same : other = side
  · rw [same, Function.update_self]
    simp only [configured, Settings.data, Function.update_self]
  · rw [Function.update_of_ne same]
    simp only [configured, Function.update_of_ne same]

theorem setMask_ensures (side : Side) (mask : UInt8) :
    (setMask (chainedPics side) mask : PortProgram Memory Unit).Ensures settingsBus
      (fun _ _ after => after = configured (Function.update masks side mask)) written
      (configured masks) := by
  refine ⟨_, ?_, configured_data masks side mask⟩
  simp only [settingsBus, decodePort_data, Settings.write, if_true, Option.map_some]

theorem picInit_ensures :
    (picInit : PortProgram Memory Unit).Ensures settingsBus
      (fun _ _ after => after = configured fun _ => maskAll) written all := by
  refine (initializePic_ensures .master icw3MasterCascade).andThen ?_
  rintro _ _ _ rfl
  refine (initializePic_ensures .slave icw3SlaveIdentity).andThen ?_
  rintro _ _ _ rfl
  have ready : Function.update (Function.update all .master
      { configured (fun _ => 0) .master with cascade := icw3MasterCascade }) .slave
      { configured (fun _ => 0) .slave with cascade := icw3SlaveIdentity } =
        configured fun _ => 0 := by
    funext side
    cases side <;> rfl
  rw [ready]
  refine (setMask_ensures .master maskAll).andThen ?_
  rintro _ _ _ rfl
  refine (setMask_ensures .slave maskAll).mono ?_
  rintro _ _ _ rfl
  congr 1
  funext side
  cases side <;> rfl

theorem clearMaskBit_ensures (side : Side) (line : UInt8) :
    (clearMaskBit side line : PortProgram Memory Unit).Ensures settingsBus
      (fun _ _ after => after = configured (clearBit masks side line)) written
      (configured masks) :=
  ensures_mask side (setMask_ensures side _)

theorem unmask_ensures (irq : UInt8) :
    (unmask irq : PortProgram Memory Unit).Ensures settingsBus
      (fun _ _ after => after = configured (openLine masks irq)) written (configured masks) := by
  rw [unmask, openLine]
  split
  · exact rfl
  · split
    · exact clearMaskBit_ensures .master irq
    · refine (clearMaskBit_ensures .slave (irq - 8)).andThen ?_
      rintro _ _ _ rfl
      exact clearMaskBit_ensures .master 2

theorem unmaskAll_ensures (irqs : List UInt8) :
    (unmaskAll irqs : PortProgram Memory Unit).Ensures settingsBus
      (fun _ _ after => after = configured (irqs.foldl openLine masks)) written
      (configured masks) := by
  induction irqs generalizing masks written with
  | nil => exact rfl
  | cons irq rest inductionHypothesis =>
      refine (unmask_ensures irq).andThen ?_
      rintro _ _ _ rfl
      exact inductionHypothesis

def reported (masks : Side -> UInt8) : PicState where
  vectorBase := irqVectorBase
  vectorLast := irqVectorLast
  masterMask := masks .master
  slaveMask := masks .slave

theorem picSetup_ensures (irqs : List UInt8) :
    (picSetup irqs : PortProgram Memory PicState).Ensures settingsBus
      (fun answer _ after => answer = reported (irqs.foldl openLine fun _ => maskAll) ∧
        after = configured (irqs.foldl openLine fun _ => maskAll)) written all := by
  refine picInit_ensures.andThen ?_
  rintro _ _ _ rfl
  refine (unmaskAll_ensures irqs).andThen ?_
  rintro _ _ _ rfl
  exact ensures_mask .master (ensures_mask .slave ⟨rfl, rfl⟩)

end Programs

/-! ## Runs -/

/-- The driver at work, and the controllers. -/
structure Setup where
  program : PortProgram Unit PicState
  chips : Chips

/-- An access of the driver, or a change of the request lines, which may come
between any two accesses. -/
inductive SetupStep : Setup -> Option PortEvent -> Setup -> Prop
  | access {setup : Setup} {event : PortEvent} {program : PortProgram Unit PicState}
      {chips : Chips}
      (step : PortProgram.Step Chips.bus setup.program () setup.chips event program () chips) :
      SetupStep setup (some event) ⟨program, chips⟩
  | lines {setup : Setup} (requests : Side -> UInt8) :
      SetupStep setup none
        { setup with chips := fun side => { setup.chips side with requests := requests side } }

/-- Both controllers work as the rest of the kernel expects. -/
structure Remapped (irqs : List UInt8) (answer : PicState) (chips : Chips) : Prop where
  ready : forall side, (chips side).stage = .ready ∧ (chips side).mode = icw4Mode8086
  /-- But for lines and masks, they are as interrupts find them first. -/
  start : chips.pics = Pics.initialized.disturb (chips .master).requests (chips .master).mask
    (chips .slave).requests (chips .slave).mask
  cascade : (chips .master).cascade = icw3MasterCascade ∧
    (chips .slave).cascade = icw3SlaveIdentity
  /-- Interrupts have the vectors that `irq_of_vector` undoes. -/
  vectors : forall irq : Irq, chips.vectorOf irq = irq.vector
  /-- The lines that were asked for are open, and no others. -/
  opened : forall side line, (chips side).mask &&& lineBit line = 0 ↔
    Exists fun irq => irq ∈ irqs ∧ Opens irq side line
  told : answer = reported fun side => (chips side).mask
  allMasked : answer.allMasked = true ↔ forall irq, irq ∈ irqs -> irq ≥ irqCount

theorem eq_maskAll_iff (mask : UInt8) :
    mask = maskAll ↔ forall line : Fin 8, mask &&& lineBit line ≠ 0 := by
  revert mask
  exact forall_byte (by decide +kernel)

/-- An interrupt of the controllers opens a line of one of them. -/
theorem opens_iff (irq : UInt8) :
    (Exists fun line => Opens irq .master line) ∨ (Exists fun line => Opens irq .slave line) ↔
      ¬ irq ≥ irqCount := by
  revert irq
  exact forall_byte (by decide +kernel)

theorem allMasked_iff {masks : Side -> UInt8} {irqs : List UInt8}
    (opened : forall side line, masks side &&& lineBit line = 0 ↔
      Exists fun irq => irq ∈ irqs ∧ Opens irq side line) :
    (reported masks).allMasked = true ↔ forall irq, irq ∈ irqs -> irq ≥ irqCount := by
  simp only [PicState.allMasked, reported, decide_eq_true_eq, eq_maskAll_iff, ne_eq, opened]
  constructor
  · rintro ⟨master, slave⟩ irq member
    by_contra real
    rcases (opens_iff irq).mpr real with ⟨line, opens⟩ | ⟨line, opens⟩
    · exact master line ⟨irq, member, opens⟩
    · exact slave line ⟨irq, member, opens⟩
  · intro none
    constructor
    · rintro line ⟨irq, member, opens⟩
      exact (opens_iff irq).mp (Or.inl ⟨line, opens⟩) (none irq member)
    · rintro line ⟨irq, member, opens⟩
      exact (opens_iff irq).mp (Or.inr ⟨line, opens⟩) (none irq member)

theorem remapped_of_configured {irqs : List UInt8} {chips : Chips}
    (settings : chips.settings = configured (irqs.foldl openLine fun _ => maskAll)) :
    Remapped irqs (reported (irqs.foldl openLine fun _ => maskAll)) chips := by
  have each : forall side, (chips side).toSettings =
      configured (irqs.foldl openLine fun _ => maskAll) side := congrFun settings
  have masks : (fun side => (chips side).mask) = irqs.foldl openLine fun _ => maskAll :=
    funext fun side => congrArg Settings.mask (each side)
  have opened : forall side line, (chips side).mask &&& lineBit line = 0 ↔
      Exists fun irq => irq ∈ irqs ∧ Opens irq side line := by
    intro side line
    have closed : forall line : Fin 8, ¬ maskAll &&& lineBit line = 0 := by decide
    rw [congrFun masks side, openLines_open, or_iff_right (closed line)]
  refine ⟨?_, ?_, ?_, ?_, opened, by rw [masks], ?_⟩
  · intro side
    rw [each side]
    exact ⟨rfl, rfl⟩
  · simp only [Chips.pics, Chip.controller, each]
    rfl
  · rw [each .master, each .slave]
    exact ⟨rfl, rfl⟩
  · have numbered : forall line : Fin 8,
        irqVectorBase ||| UInt8.ofNat line.val = irqVectorBase + UInt8.ofNat line.val ∧
        (irqVectorBase + 8) ||| UInt8.ofNat line.val =
          irqVectorBase + (8 + UInt8.ofNat line.val) := by decide
    rintro (line | line | _ | _)
    · rw [Chips.vectorOf, each .master]
      exact (numbered line).1
    · rw [Chips.vectorOf, each .slave]
      exact (numbered line).2
    · rw [Chips.vectorOf, each .master]
      exact (numbered 7).1
    · rw [Chips.vectorOf, each .slave]
      exact (numbered 7).2
  · rw [← masks]
    exact allMasked_iff opened

/-- The driver, with what is left of it to do. -/
def Working (irqs : List UInt8) (setup : Setup) : Prop :=
  Exists fun written => setup.program.Ensures settingsBus
    (fun answer _ after => answer = reported (irqs.foldl openLine fun _ => maskAll) ∧
      after = configured (irqs.foldl openLine fun _ => maskAll)) written setup.chips.settings

theorem Working.step {irqs : List UInt8} {setup next : Setup} {event : Option PortEvent}
    (working : Working irqs setup) (step : SetupStep setup event next) : Working irqs next := by
  rcases working with ⟨written, ensures⟩
  cases step with
  | access step => exact ⟨_, ensures.step chips_abstract step⟩
  | lines requests => exact ⟨written, ensures⟩

theorem Working.remapped {irqs : List UInt8} {setup : Setup} {answer : PicState}
    (working : Working irqs setup) (done : setup.program = .done answer) :
    Remapped irqs answer setup.chips := by
  rcases working with ⟨written, ensures⟩
  rw [done] at ensures
  rcases ensures with ⟨rfl, settings⟩
  exact remapped_of_configured settings

/-- The driver never waits: its own accesses bring it to its end. -/
theorem Working.completes {irqs : List UInt8} {program : PortProgram Unit PicState} {chips : Chips}
    (working : Working irqs ⟨program, chips⟩) :
    Exists fun events => Exists fun finish => Exists fun answer =>
      Run SetupStep ⟨program, chips⟩ events finish ∧ finish.program = .done answer := by
  induction program generalizing chips with
  | done answer => exact ⟨[], _, answer, Run.nil, rfl⟩
  | outb port byte rest inductionHypothesis =>
      have ⟨_, _, coarse, _⟩ := working
      rcases chips_abstract.write _ _ _ _ coarse with ⟨chips', wrote, _⟩
      have step : SetupStep ⟨.outb port byte rest, chips⟩ _ ⟨rest, chips'⟩ := .access (.outb wrote)
      rcases inductionHypothesis (working.step step) with ⟨events, finish, answer, run, done⟩
      exact ⟨_, finish, answer, (Run.single step).append run, done⟩
  | inb port rest inductionHypothesis =>
      rcases chips_abstract.answers chips port with ⟨byte, reads⟩
      have step : SetupStep ⟨.inb port rest, chips⟩ _ ⟨rest byte, chips⟩ := .access (.inb reads)
      rcases inductionHypothesis byte (working.step step) with ⟨events, finish, answer, run, done⟩
      exact ⟨_, finish, answer, (Run.single step).append run, done⟩
  | atomic change rest inductionHypothesis =>
      have step : SetupStep ⟨.atomic change rest, chips⟩ _ ⟨rest (), chips⟩ := .access .atomic
      rcases inductionHypothesis () (working.step step) with ⟨events, finish, answer, run, done⟩
      exact ⟨_, finish, answer, (Run.single step).append run, done⟩

/-- Whatever state the controllers were in, and however the request lines change
meanwhile, `init` with any calls of `unmask` after it comes to its end, and then the
controllers are remapped and exactly the lines asked for are open. -/
theorem pic_setup_remaps {irqs : List UInt8} {chips : Chips} {events : List (Option PortEvent)}
    {setup : Setup} (run : Run SetupStep ⟨picSetup irqs, chips⟩ events setup) :
    (forall answer, setup.program = .done answer -> Remapped irqs answer setup.chips) ∧
    Exists fun rest => Exists fun finish => Exists fun answer =>
      Run SetupStep setup rest finish ∧ finish.program = .done answer ∧
        Remapped irqs answer finish.chips := by
  have working : Working irqs setup :=
    run.invariant (Working irqs) ⟨[], picSetup_ensures irqs⟩ fun _ _ _ => Working.step
  refine ⟨fun _ => working.remapped, ?_⟩
  rcases working.completes with ⟨rest, finish, answer, more, done⟩
  have finished : Working irqs finish :=
    more.invariant (Working irqs) working fun _ _ _ => Working.step
  exact ⟨rest, finish, answer, more, done, finished.remapped done⟩

/-- The keyboard and a line of the slave, on controllers left in the middle of a sequence. -/
theorem pic_setup_remaps_keyboard :
    Exists fun chips : Chips => (forall side, (chips side).stage = .wantsMode) ∧
      Exists fun events => Exists fun finish : Setup =>
        Run SetupStep ⟨picSetup [1, 12], chips⟩ events finish ∧
        (finish.chips .master).mask &&& lineBit 1 = 0 ∧
        (finish.chips .master).mask &&& lineBit 2 = 0 ∧
        ¬ (finish.chips .master).mask &&& lineBit 0 = 0 ∧
        finish.chips.vectorOf (.slave 4) = 44 := by
  refine ⟨fun _ => ⟨⟨⟨0xff, true⟩, 0, .wantsMode, 8, 0, 0⟩, 0xff⟩, fun _ => rfl, ?_⟩
  rcases (pic_setup_remaps Run.nil).2 with ⟨events, finish, answer, run, _, remapped⟩
  refine ⟨events, finish, run, (remapped.opened .master 1).mpr ⟨1, by decide, by decide⟩,
    (remapped.opened .master 2).mpr ⟨12, by decide, by decide⟩, ?_,
    (remapped.vectors (.slave 4)).trans (by decide)⟩
  rw [remapped.opened .master 0]
  decide

end Interrupt
end Goatos
