import Mathlib

/-! Status codes shared by the kernel subsystems, in the order of `status.h`. -/
namespace WigOSX

inductive KernelStatus where
  | ok
  | invalidArgument
  | notReady
  | unavailable
  | malformedData
  | outOfMemory
  | hardwareFailure
  | alreadyInitialized
deriving DecidableEq, Repr

/-- `kernel_status_is_ok`. -/
def KernelStatus.isOk (status : KernelStatus) : Bool :=
  status == .ok

end WigOSX
