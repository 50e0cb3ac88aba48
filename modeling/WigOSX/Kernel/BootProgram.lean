import WigOSX.Drivers.Pic
import WigOSX.Drivers.PitProgram
import WigOSX.Kernel.Machine
import WigOSX.Machine.DescriptorTables
import WigOSX.Machine.Paging

/-! `kernel_main` up to the point where it enables interrupts. The setup of a
service is a request here, and so is everything that the running kernel asks
for. Besides the kernel's static state the requests reach memory, the system
registers, the interrupt controllers and the timer. -/
namespace WigOSX

open Interaction (perform)

section Program

/-- The setup of the services. -/
inductive SetupRequest : Type → Type where
  | consoleInitialize : SetupRequest Unit
  /-- `klog_serial_available = ...`. -/
  | klogSetSerialAvailable (value : Bool) : SetupRequest Unit
  | memoryInitialize (multibootInfoAddress : BitVec 32) : SetupRequest KernelStatus
  | pmmInitialize (multibootInfoAddress : BitVec 32) : SetupRequest KernelStatus
  | gdtInitialize : SetupRequest Unit
  | vmmInitialize : SetupRequest KernelStatus
  | heapInitialize : SetupRequest KernelStatus
  | interruptsInitialize : SetupRequest Unit
  | inputInitialize : SetupRequest Unit
  | idtInitialize : SetupRequest Unit
  | interruptsRegisterIrq (irq : BitVec 8) (handler : Option IrqHandler) : SetupRequest Bool
  | pitInitialize (frequencyHz : BitVec 32) : SetupRequest Bool

abbrev BootRequest (ρ : Type) : Type := KernelRequest ρ ⊕ SetupRequest ρ

abbrev BootProgram (α : Type) := Interaction BootRequest α

/-- Code of the running kernel, called during the boot. -/
def bootCode {α : Type} (p : KernelProgram α) : BootProgram α :=
  p.interpret fun _ request => perform (.inl request)

def bootSetup {ρ : Type} (request : SetupRequest ρ) : BootProgram ρ :=
  perform (.inr request)

def klogInitialize : BootProgram KernelStatus := do
  let available ← bootCode serialInitialize
  bootSetup (.klogSetSerialAvailable available)
  return if !available then .unavailable else .ok

/-- A check of `kernel_main`: a panic does not return. -/
def bootCheck (passed : Bool) (panicMessage : String) : BootProgram Unit :=
  if passed then return () else bootCode (kernelPanic panicMessage)

def kernelRequire (status : KernelStatus) (panicMessage : String) : BootProgram Unit :=
  bootCheck status.isOk panicMessage

/-- The warning after `klog_initialize`. -/
def kernelWarn (logStatus : KernelStatus) : BootProgram Unit :=
  if logStatus = .unavailable then
    bootCode (consoleWritestring (asciiText "[WARNING] Serial logging unavailable; using VGA only.\n"))
  else return ()

def klogText (text : String) : BootProgram Unit :=
  bootCode (klogWritestring (asciiText text))

def multibootBootloaderMagic : BitVec 32 := 0x2BADB002#32

/-- `kernel_main` up to `cpu_enable_interrupts`, with the state that it leaves
the shell in. -/
def kernelMainBoot (multibootMagic multibootInfoAddress : BitVec 32) : BootProgram ShellState := do
  bootCode cpuDisableInterrupts
  bootSetup .consoleInitialize
  bootCheck (multibootMagic = multibootBootloaderMagic) "Invalid Multiboot bootloader magic"
  bootCheck (multibootInfoAddress ≠ 0#32) "Multiboot information address is zero"
  let logStatus ← klogInitialize
  kernelWarn logStatus
  klogText "wigOSX "
  klogText wigosxVersionString
  bootCode (klogPutchar asciiLineFeed)
  klogText "Initializing normalized memory map...\n"
  let memoryStatus ← bootSetup (.memoryInitialize multibootInfoAddress)
  kernelRequire memoryStatus "Memory-map initialization failed"
  bootCode memoryPrintSummary
  klogText "Initializing physical memory manager...\n"
  let pmmStatus ← bootSetup (.pmmInitialize multibootInfoAddress)
  kernelRequire pmmStatus "Physical memory manager initialization failed"
  bootCode pmmPrintSummary
  klogText "Initializing GDT...\n"
  bootSetup .gdtInitialize
  klogText "Initializing virtual memory manager...\n"
  let vmmStatus ← bootSetup .vmmInitialize
  kernelRequire vmmStatus "Virtual memory manager initialization failed"
  bootCode vmmPrintSummary
  klogText "Initializing kernel heap backing region...\n"
  let heapStatus ← bootSetup .heapInitialize
  kernelRequire heapStatus "Kernel heap backing-region initialization failed"
  klogText "Initializing interrupt services...\n"
  bootSetup .interruptsInitialize
  bootSetup .inputInitialize
  bootSetup .idtInitialize
  bootCode picRemap
  bootCode picMaskAll
  let pitRegistered ← bootSetup (.interruptsRegisterIrq 0#8 (some .pitHandleInterrupt))
  bootCheck pitRegistered "Failed to register PIT IRQ handler"
  let keyboardRegistered ← bootSetup (.interruptsRegisterIrq 1#8 (some .inputHandleKeyboardInterrupt))
  bootCheck keyboardRegistered "Failed to register keyboard IRQ handler"
  let pitProgrammed ← bootSetup (.pitInitialize 100#32)
  bootCheck pitProgrammed "PIT initialization failed"
  let shell ← bootCode shellInitialize
  let pitUnmasked ← bootCode (picUnmaskIrq 0#8)
  bootCheck pitUnmasked "Failed to unmask PIT IRQ0"
  let keyboardUnmasked ← bootCode (picUnmaskIrq 1#8)
  bootCheck keyboardUnmasked "Failed to unmask keyboard IRQ1"
  return shell

end Program

section State

/-- What the linker has fixed: the symbols of `kernel.ld` and the addresses of
the tables and the stubs. The page tables share no byte with the others. -/
structure BootImage where
  kernel : KernelImage
  paging : PagingImage
  descriptors : DescriptorImage
  stubs : InterruptStubs

/-- The static state of the kernel, and the machine around it. -/
structure BootState where
  kernel : KernelState
  memory : PhysicalMemory
  gdtr : DescriptorRegister
  idtr : DescriptorRegister
  cr0 : BitVec 32
  cr3 : BitVec 32
  pics : PicPair
  pit : Pit8254

/-- What the devices contribute: the value of a port, and lines raised at the
two interrupt controllers. -/
structure BootInput where
  device : BitVec 8
  masterLines : BitVec 8
  slaveLines : BitVec 8

def heapInitialize (image : KernelImage) (s : HeapState) : KernelStatus × HeapState :=
  if s.initialized then (.alreadyInitialized, s)
  else if image.kernelHeapStart = 0#32 ∨ image.kernelHeapEnd = 0#32 ∨
      image.kernelHeapEnd ≤ image.kernelHeapStart then (.invalidArgument, s)
  else if image.kernelHeapStart % 4096#32 ≠ 0#32 ∨ image.kernelHeapEnd % 4096#32 ≠ 0#32 then
    (.invalidArgument, s)
  else
    (.ok,
      { initialized := true
        startAddress := image.kernelHeapStart
        endAddress := image.kernelHeapEnd
        capacity := image.kernelHeapEnd - image.kernelHeapStart })

namespace BootState

/-- `i386_paging_initialize_identity` and the rest of `vmm_initialize`. -/
def vmmInitialize (image : PagingImage) (s : BootState) : KernelStatus × BootState :=
  let paging := i386PagingInitializeIdentity image
    { memory := s.memory, cr0 := s.cr0, cr3 := s.cr3, pagingInitialized := s.kernel.pagingInitialized }
  let enabled := i386PagingIsEnabled paging
  (if !enabled then .hardwareFailure else .ok,
    { s with
      kernel := { s.kernel with
        vmmInitialized := enabled
        pagingInitialized := paging.pagingInitialized
        pagingEnabled := enabled }
      memory := paging.memory
      cr0 := paging.cr0
      cr3 := paging.cr3 })

/-- A write to a port reaches the device behind it. -/
def outb (port : BitVec 16) (value : BitVec 8) (s : BootState) : BootState :=
  { s with
    pics := s.pics.outb port value
    pit := s.pit.outb port value }

def writes (commands : List (BitVec 16 × BitVec 8)) (s : BootState) : BootState :=
  commands.foldl (fun s command => s.outb command.1 command.2) s

/-- The value that a port delivers. -/
def inb (device : BitVec 8) (port : BitVec 16) (s : BootState) : BitVec 8 :=
  if port = picMasterData then s.pics.master.readData
  else if port = picSlaveData then s.pics.slave.readData
  else device

/-- What a request of the running kernel does to the devices. -/
def afterRequest (s : BootState) : ∀ ⦃ρ : Type⦄, KernelRequest ρ → BootState
  | _, .outb port value => s.outb port value
  | _, _ => s

/-- What the devices answer to it. -/
def deviceFor (device : BitVec 8) (s : BootState) : ∀ ⦃ρ : Type⦄, KernelRequest ρ → BitVec 8
  | _, .inb port => s.inb device port
  | _, _ => device

def serve (image : BootImage) (device : BitVec 8) (s : BootState) :
    ∀ ⦃ρ : Type⦄, BootRequest ρ → Option (ρ × BootState)
  | _, .inl request =>
      (s.kernel.execute (s.deviceFor device request) request).map fun answer =>
        (answer.1, { s.afterRequest request with kernel := answer.2 })
  | _, .inr .consoleInitialize =>
      some ((), { s with kernel := { s.kernel with console := consoleInitialize s.kernel.console } })
  | _, .inr (.klogSetSerialAvailable value) =>
      some ((), { s with kernel := { s.kernel with klogSerialAvailable := value } })
  | _, .inr (.memoryInitialize multibootInfoAddress) =>
      let result := memoryInitialize s.memory multibootInfoAddress s.kernel.memory
      some (result.1, { s with kernel := { s.kernel with memory := result.2 } })
  | _, .inr (.pmmInitialize multibootInfoAddress) =>
      let result := pmmInitialize image.kernel s.kernel.memory s.memory multibootInfoAddress s.kernel.pmm
      some (result.1, { s with kernel := { s.kernel with pmm := result.2 } })
  | _, .inr .gdtInitialize =>
      let result := gdtInitialize image.descriptors s.memory
      some ((), { s with memory := result.1, gdtr := result.2 })
  | _, .inr .vmmInitialize => some (s.vmmInitialize image.paging)
  | _, .inr .heapInitialize =>
      let result := heapInitialize image.kernel s.kernel.heap
      some (result.1, { s with kernel := { s.kernel with heap := result.2 } })
  | _, .inr .interruptsInitialize =>
      some ((), { s with kernel := { s.kernel with interrupts := interruptsInitialize } })
  | _, .inr .inputInitialize =>
      some ((), { s with kernel := { s.kernel with input := inputInitialize s.kernel.input } })
  | _, .inr .idtInitialize =>
      let result := idtInitialize image.descriptors image.stubs s.memory
      some ((), { s with memory := result.1, idtr := result.2 })
  | _, .inr (.interruptsRegisterIrq irq handler) =>
      let result := interruptsRegisterIrq irq handler s.kernel.interrupts
      some (result.1, { s with kernel := { s.kernel with interrupts := result.2 } })
  | _, .inr (.pitInitialize frequencyHz) =>
      let result := WigOSX.pitInitialize frequencyHz ⟨s.kernel.pitTicks⟩
      let written := s.writes result.2.1
      some (result.1, { written with kernel := { written.kernel with pitTicks := result.2.2.pitTicks } })

/-- Lines are raised at any time; they stay requested in the controllers. -/
def raised (input : BootInput) (s : BootState) : BootState :=
  { s with
    pics :=
      { master := { s.pics.master with irr := s.pics.master.irr ||| input.masterLines }
        slave := { s.pics.slave with irr := s.pics.slave.irr ||| input.slaveLines } } }

def execute (image : BootImage) ⦃ρ : Type⦄ (input : BootInput) (s : BootState) (request : BootRequest ρ) :
    Option (ρ × BootState) :=
  (s.raised input).serve image input.device request

end BootState

/-- The machine when the loader jumps to the kernel: static data as linked,
everything else as it happens to be. -/
structure BootMachine where
  memory : PhysicalMemory
  gdtr : DescriptorRegister
  idtr : DescriptorRegister
  cr0 : BitVec 32
  cr3 : BitVec 32
  pics : PicPair
  pit : Pit8254

def BootMachine.start (machine : BootMachine) : BootState where
  kernel := .boot
  memory := machine.memory
  gdtr := machine.gdtr
  idtr := machine.idtr
  cr0 := machine.cr0
  cr3 := machine.cr3
  pics := machine.pics
  pit := machine.pit

end State
end WigOSX
