import Goatos.Tables.Events

namespace Goatos
namespace Tables

open Library
open ProtectedMode

/-!
# Returning from an interrupt

A handler may do anything that the kernel does, further interrupts included.  If it
leaves the frame alone, drops the error code and puts the registers back, as the
`x86-interrupt` calling convention has it, then `iret` succeeds and the interrupted code
goes on with the registers that it had.

The return is a step of the interrupted code, so it may itself be part of the handler of
another interrupt.
-/

variable {image : Memory.KernelImage} {statics : Statics image}

/-- A handler is about to return: the words of the frame are where they were and mapped,
the error code is dropped, and the registers that the frame does not hold are restored.
With the nested-task flag set, `iret` would look for another task instead of a frame. -/
structure AboutToReturn (before entered later : World) : Prop where
  esp : later.processor.general .esp = before.processor.general .esp - 12
  others : forall register, register ≠ .eip -> register ≠ .esp -> register ≠ .eflags ->
    later.processor.general register = entered.processor.general register
  frame : Set.EqOn later.processor.memory entered.processor.memory
    (Set.Ico (before.processor.general .esp - 12) (before.processor.general .esp))
  mapped : Set.Ico (before.processor.general .esp - 12) (before.processor.general .esp) ⊆
    later.space.window
  unnested : later.processor.general .eflags &&& nestedTask = 0

/-- What `iret` gives back to the interrupted code: its registers, and memory as the
handler left it.  The return is itself a step of the runs. -/
structure Resumes (statics : Statics image) (entryPoint : Idt.EntryPoints) (before later : World)
    (returned : Processor) : Prop where
  general : returned.general = before.processor.general
  segment : returned.segment = before.processor.segment
  memory : returned.memory = later.processor.memory
  step : Step statics entryPoint later .compute { later with processor := returned }

section Return

variable {entryPoint : Idt.EntryPoints} {doubleFaultEntry : UInt32} {before entered later : World}
  {event : Event} {handler : UInt32}

theorem AboutToReturn.load_frame (about : AboutToReturn before entered later)
    (enters : Entered handler event before.processor entered.processor)
    (room : 12 ≤ before.processor.general .esp) {index value : Nat} (early : index < 3)
    (found : (before.processor.frame event)[index]? = some value) (fits : value < 2 ^ 32) :
    later.processor.memory.load (before.processor.general .esp - 4 * (index + 1)) 4 = value := by
  rw [← enters.frame index value found fits]
  apply ByteMemory.load_congr
  intro address member
  have bounds := ByteMemory.mem_extent.mp member
  exact about.frame ⟨by omega, by omega⟩

/-- The frame and the descriptor of the code segment are all that `iret` needs. -/
theorem AboutToReturn.returned (about : AboutToReturn before entered later)
    (enters : Entered handler event before.processor entered.processor)
    (sound : Sound statics entryPoint doubleFaultEntry later)
    (ready : Sound statics entryPoint doubleFaultEntry before)
    (room : 12 ≤ before.processor.general .esp) :
    Exists fun returned => later.processor.interruptReturn = .ok returned ∧
      later.processor.Returned returned ∧
      returned.segment .cs = ⟨1 * 8, (Gdt.flatSegment (accessKernelCode ||| 1)).base,
        (Gdt.flatSegment (accessKernelCode ||| 1)).lastByte⟩ := by
  have code := ready.ready.gdt.segments .cs
  have stack := sound.ready.gdt.segments .ss
  have below := ready.ready.words .esp
  have esp := about.esp
  have savedCode := about.load_frame enters room (show 1 < 3 by decide) rfl
    (show (before.processor.segment .cs).selector < 2 ^ 32 by rw [code]; decide)
  have inside : Set.Ico (later.processor.general .esp) (12 + later.processor.general .esp) ⊆
      later.space.window := by
    intro address member
    have lower := member.1
    have upper := member.2
    exact about.mapped ⟨by omega, by omega⟩
  have descriptor : later.processor.HasDescriptor later.space (1 * 8)
      (Gdt.flatSegment (accessKernelCode ||| 1)) :=
    Gdt.hasEntry sound.ready.gdt.table (fun _ member => (sound.reachable.gdt member).1) (by decide)
      sound.ready.gdt.code
  have saved : later.processor.memory.load (4 + later.processor.general .esp) 4 % 2 ^ 16 = 1 * 8 := by
    rw [show 4 + later.processor.general .esp = before.processor.general .esp - 4 * (1 + 1) by omega,
      savedCode, code]
    decide
  exact interruptReturn_eq sound.inSpace
    ⟨congrArg SegmentRegister.base stack, congrArg SegmentRegister.limit stack⟩ (by omega) inside
    saved descriptor (by decide) (Gdt.code_suits (by decide)) (by decide) (by decide) about.unnested

theorem AboutToReturn.resumes (about : AboutToReturn before entered later)
    (enters : Entered handler event before.processor entered.processor)
    (sound : Sound statics entryPoint doubleFaultEntry later)
    (ready : Sound statics entryPoint doubleFaultEntry before)
    (room : 12 ≤ before.processor.general .esp) :
    Exists fun returned => later.processor.interruptReturn = .ok returned ∧
      Resumes statics entryPoint before later returned := by
  have words := ready.ready.words
  have esp := about.esp
  have savedEip := about.load_frame enters room (show 2 < 3 by decide) rfl (words .eip)
  have savedEflags := about.load_frame enters room (show 0 < 3 by decide) rfl (words .eflags)
  rcases about.returned enters sound ready room with ⟨returned, returns, fields, codeAfter⟩
  have general : returned.general = before.processor.general := by
    funext register
    by_cases isEip : register = .eip
    · rw [isEip, fields.eip, show later.processor.general .esp =
        before.processor.general .esp - 4 * (2 + 1) by omega]
      exact savedEip
    by_cases isEsp : register = .esp
    · rw [isEsp, fields.esp]
      omega
    by_cases isEflags : register = .eflags
    · rw [isEflags, fields.eflags, show 8 + later.processor.general .esp =
        before.processor.general .esp - 4 * (0 + 1) by omega]
      exact savedEflags
    rw [fields.others register isEip isEsp isEflags, about.others register isEip isEsp isEflags]
    exact enters.others register isEip isEsp isEflags
  have segments : returned.segment = later.processor.segment := by
    funext name
    by_cases isCode : name = .cs
    · rw [isCode, codeAfter, sound.ready.gdt.segments .cs, Gdt.lastByte_flatSegment]
      rfl
    · exact fields.segments name isCode
  have same : later.processor.segment = before.processor.segment := by
    funext name
    rw [sound.ready.gdt.segments name, ready.ready.gdt.segments name]
  obtain ⟨task, gdtr, idtr, cr0, cr3⟩ : returned.task = later.processor.task ∧
      returned.gdtr = later.processor.gdtr ∧ returned.idtr = later.processor.idtr ∧
      returned.cr0 = later.processor.cr0 ∧ returned.cr3 = later.processor.cr3 := by
    simpa only [Prod.mk.injEq] using fields.system
  refine ⟨returned, returns, general, segments.trans same, fields.memory, Step.compute ?_⟩
  refine ⟨?_, gdtr, idtr, task, segments, cr0, cr3, ?_⟩
  · rw [fields.memory]
    exact Set.eqOn_refl _ _
  · rw [general]
    exact words

/-- An interrupt that is taken enters the handler of its vector. -/
theorem Sound.taken (sound : Sound statics entryPoint doubleFaultEntry before)
    (step : Step statics entryPoint before (.interrupt event) entered) :
    12 ≤ before.processor.general .esp ∧ Exists fun handler =>
      Entered handler event before.processor entered.processor := by
  cases step with
  | interrupt small different room stack delivers =>
      have length := before.processor.length_frame event
      rcases (sound.enters small different room fun _ member => (stack member).1).mp delivers with
        ⟨handler, _, rfl⟩
      exact ⟨by omega, _, entered_of_gate sound.ready.gdt _ event (by omega)⟩

/-- Interrupts are transparent.  After any run of the steps of the kernel, an interrupt is
taken, and its handler is any run of the same steps.  Once it is about to return, the
interrupted code goes on with all of its registers; memory is as the handler left it. -/
theorem interrupts_are_transparent {processor booted : Processor}
    (off : processor.cr0 &&& pagingBit = 0)
    (words : forall register, processor.general register < 2 ^ 32)
    (boots : bootTables statics entryPoint doubleFaultEntry processor = .ok booted)
    {actions : List Action} (run : Run (Step statics entryPoint) (bootWorld booted) actions before)
    (taken : Step statics entryPoint before (.interrupt event) entered) {body : List Action}
    (handles : Run (Step statics entryPoint) entered body later)
    (about : AboutToReturn before entered later) :
    Exists fun returned => later.processor.interruptReturn = .ok returned ∧
      Resumes statics entryPoint before later returned := by
  have sound := run_sound off words boots run
  rcases sound.taken taken with ⟨room, handler, enters⟩
  exact about.resumes enters (run_sound off words boots ((run.snoc taken).append handles)) sound room

/-- Every gate clears the nested-task flag. -/
theorem Entered.unnested (enters : Entered handler event before.processor entered.processor) :
    entered.processor.general .eflags &&& nestedTask = 0 := by
  rw [enters.eflags, andNot, Nat.and_assoc,
    show ((2 ^ 32 - 1) ^^^ (clearedFlags + interruptEnable)) &&& nestedTask = 0 by decide,
    Nat.and_zero]

/-- A handler without an error code that returns at once. -/
theorem AboutToReturn.at_once (enters : Entered handler event before.processor entered.processor)
    (codeless : event.errorCode = none)
    (mapped : Set.Ico (before.processor.general .esp - 12) (before.processor.general .esp) ⊆
      entered.space.window) : AboutToReturn before entered entered where
  esp := by
    rw [enters.esp, codeless]
    rfl
  others := fun _ _ _ _ => rfl
  frame := Set.eqOn_refl _ _
  mapped := mapped
  unnested := enters.unnested

/-- An interrupt whose handler returns at once.  The interrupted code keeps its
registers, and memory has changed in the frame only. -/
theorem Sound.interrupted_at_once (sound : Sound statics entryPoint doubleFaultEntry before)
    {after : Processor} (codeless : event.errorCode = none)
    (taken : Step statics entryPoint before (.interrupt event) { before with processor := after }) :
    Exists fun back => Run (Step statics entryPoint) before [.interrupt event, .compute]
        { before with processor := back } ∧
      back.general = before.processor.general ∧
      Set.EqOn back.memory before.processor.memory
        (Set.Ico (before.processor.general .esp - 12) (before.processor.general .esp))ᶜ := by
  rcases sound.taken taken with ⟨room, handler, enters⟩
  have kept := enters.kept
  have mapped : Set.Ico (before.processor.general .esp - 12) (before.processor.general .esp) ⊆
      before.space.window := by
    have length := before.processor.length_frame event
    rw [codeless] at length
    cases taken with
    | interrupt _ _ _ stack _ =>
        rw [length] at stack
        exact fun _ member => (stack member).1.1
  rw [codeless] at kept
  have returns := @AboutToReturn.at_once before { before with processor := after } event handler
    enters codeless mapped
  rcases returns.resumes enters (taken.sound sound) sound room with ⟨back, _, resumes⟩
  refine ⟨back, (Run.single taken).snoc resumes.step, resumes.general, ?_⟩
  rw [resumes.memory]
  exact kept

/-- Dropping a word from the stack is a step of any code. -/
theorem Sound.drops_word (sound : Sound statics entryPoint doubleFaultEntry before)
    (fits : 4 + before.processor.general .esp < 2 ^ 32) :
    Step statics entryPoint before .compute { before with
      processor := before.processor.setGeneral .esp (4 + before.processor.general .esp) } := by
  refine Step.compute ⟨Set.eqOn_refl _ _, rfl, rfl, rfl, rfl, rfl, rfl, ?_⟩
  intro register
  simp only [Processor.setGeneral]
  split
  · exact fits
  · exact sound.ready.words register

/-- A handler with an error code that has kept its registers and the frame is about to
return once it has dropped the error code. -/
theorem AboutToReturn.of_dropped (enters : Entered handler event before.processor entered.processor)
    (coded : event.errorCode.toList.length = 1) (room : 16 ≤ before.processor.general .esp)
    (general : later.processor.general = entered.processor.general)
    (frame : Set.EqOn later.processor.memory entered.processor.memory
      (Set.Ico (before.processor.general .esp - 12) (before.processor.general .esp)))
    (mapped : Set.Ico (before.processor.general .esp - 12) (before.processor.general .esp) ⊆
      later.space.window) :
    AboutToReturn before entered { later with
      processor := later.processor.setGeneral .esp (4 + later.processor.general .esp) } where
  esp := by
    have pushed := enters.esp
    show 4 + later.processor.general .esp = _
    rw [general]
    omega
  others := by
    intro register _ notEsp _
    simp only [Processor.setGeneral, if_neg notEsp, general]
  frame := frame
  mapped := mapped
  unnested := by
    show later.processor.general .eflags &&& nestedTask = 0
    rw [general]
    exact enters.unnested

end Return

section Sample

variable {world : World}

/-- With room on the stack of the sample, an interrupt is taken. -/
theorem sample_taken (sound : Sound sampleStatics (fun _ _ => 0x10000) 0x20000 world) {event : Event}
    (small : event.vector < 256) (different : event.vector ≠ 8)
    (found : Exists fun entry => world.table (UInt8.ofNat event.vector) = some entry)
    (room : sampleStatics.stackBottom + (12 + 4 * event.errorCode.toList.length) ≤
      world.processor.general .esp)
    (inStack : world.processor.general .esp ≤ sampleStatics.stackTop)
    (stack : Set.Ico sampleStatics.stackBottom sampleStatics.stackTop ⊆
      (world.space.window \ world.space.tables) \ systemBytes sampleStatics) :
    Exists fun after => Step sampleStatics (fun _ _ => 0x10000) world (.interrupt event)
      { world with processor := after } ∧ Entered 0x10000 event world.processor after := by
  have length := world.processor.length_frame event
  have frame : Set.Ico (world.processor.general .esp - 4 * (world.processor.frame event).length)
      (world.processor.general .esp) ⊆
        (world.space.window \ world.space.tables) \ systemBytes sampleStatics := by
    intro address member
    have lower := member.1
    have upper := member.2
    exact stack ⟨by omega, by omega⟩
  rcases found with ⟨entry, found⟩
  exact ⟨_, Step.interrupt small different (by omega) frame
    ((sound.enters small different (by omega) fun _ member => (frame member).1).mpr
      ⟨entry, found, rfl⟩), entered_of_gate sound.ready.gdt 0x10000 event (by omega)⟩

end Sample

/-- A general protection fault with paging on.  Its handler registers the timer, takes an
interrupt of the timer and drops the error code. -/
theorem interrupts_are_transparent_nested :
    Exists fun before : World => Exists fun entered => Exists fun later => Exists fun returned =>
      before.processor.cr0 &&& pagingBit ≠ 0 ∧
      Step sampleStatics (fun _ _ => 0x10000) before (.interrupt ⟨13, some 0, .exception⟩) entered ∧
      Run (Step sampleStatics fun _ _ => 0x10000) entered
        [.register .timer, .interrupt ⟨32, none, .hardware⟩, .compute, .compute] later ∧
      later.processor.interruptReturn = .ok returned ∧
      returned.general = before.processor.general := by
  rcases @sample_run 0x18000 (by decide) with ⟨booted, world, boots, run, esp, table, paging, stack⟩
  have bottom : sampleStatics.stackBottom = 0x13000 := by decide
  have top : sampleStatics.stackTop = 0x23000 := by decide
  have sound := run_sound (by decide) (sample_words (by decide)) boots run
  obtain ⟨fault, isFault⟩ : Exists fun event : Event => event = ⟨13, some 0, .exception⟩ := ⟨_, rfl⟩
  obtain ⟨timer, isTimer⟩ : Exists fun event : Event => event = ⟨32, none, .hardware⟩ := ⟨_, rfl⟩
  have faultVector : fault.vector = 13 := by rw [isFault]
  have timerVector : timer.vector = 32 := by rw [isTimer]
  have coded : fault.errorCode.toList.length = 1 := by
    rw [isFault]
    rfl
  have codeless : timer.errorCode = none := by rw [isTimer]
  have uncoded : timer.errorCode.toList.length = 0 := by
    rw [codeless]
    rfl
  -- The fault is taken, and its handler registers the timer.
  rcases sample_taken sound (show fault.vector < 256 by omega) (by omega)
      ⟨_, by rw [table, faultVector]; rfl⟩ (by omega) (by omega) stack with ⟨first, taken, enters⟩
  have firstEsp := enters.esp
  have register := @Step.register _ sampleStatics (fun _ _ => 0x10000)
    { world with processor := first } .timer
  generalize isRegistered : (World.mk (first.setMemory (Idt.Driver.register sampleStatics
    (fun _ _ => 0x10000) first.memory .timer)) _ world.space) = registered at register
  have general : registered.processor.general = first.general := by
    rw [← isRegistered]
    rfl
  have space : registered.space = world.space := by rw [← isRegistered]
  have installed : registered.table (UInt8.ofNat timer.vector) = some .timer := by
    rw [← isRegistered, timerVector]
    exact Function.update_self (32 : UInt8) (some Interrupt.Entry.timer) world.table
  have unwritten {address : Nat} (above : 0x13000 ≤ address) :
      registered.processor.memory address = first.memory address := by
    rw [← isRegistered]
    exact Idt.setEntry_outside (Or.inr (Nat.le_trans (by decide) above))
  have nestedSound := register.sound (taken.sound sound)
  -- The timer interrupts the handler, and returns at once.
  rcases sample_taken nestedSound (show timer.vector < 256 by omega) (by omega)
      ⟨_, installed⟩ (by rw [general]; omega) (by rw [general]; omega) (by rw [space]; exact stack) with
    ⟨second, nested, _⟩
  rcases nestedSound.interrupted_at_once codeless nested with ⟨back, twoSteps, backGeneral, kept⟩
  rw [general] at backGeneral kept
  -- The handler drops the error code.
  have backSound := twoSteps.invariant _ nestedSound fun _ _ _ sound step => step.sound sound
  have drops := backSound.drops_word (by rw [backGeneral]; omega)
  have about := @AboutToReturn.of_dropped world { world with processor := first }
    { registered with processor := back } fault 0x10000 enters coded (by omega) backGeneral
    (by
      intro address member
      have lower := member.1
      have upper := member.2
      rw [← unwritten (show 0x13000 ≤ address by omega)]
      apply kept
      rintro ⟨_, below⟩
      omega)
    (by
      intro address member
      have lower := member.1
      have upper := member.2
      show address ∈ registered.space.window
      rw [space]
      exact (stack ⟨by omega, by omega⟩).1.1)
  have body := ((Run.single register).append twoSteps).snoc drops
  rcases interrupts_are_transparent (by decide) (sample_words (by decide)) boots run taken body about
    with ⟨returned, returns, resumed⟩
  rw [isFault] at taken
  rw [isTimer] at body
  exact ⟨world, _, _, returned, paging, taken, body, returns, resumed.general⟩

end Tables
end Goatos
