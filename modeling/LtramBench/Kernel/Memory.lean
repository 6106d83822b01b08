import Mathlib.Data.BitVec

/-!
# Folios, zones and fault codes

The kernel vocabulary that the two modules under `ltram_module/` share: physical
folios with the node and zone they live in, the allocation flags the modules
pass, and the error and fault codes they return.
-/

namespace LtramBench.Kernel

/-- A memory zone.  Only `ZONE_LTRAM` is ever told apart from the others. -/
inductive Zone where
  | ltram
  | other (index : Nat)
  deriving DecidableEq, Repr

/-- A physical folio: its frame, node, zone and order, all fixed for good. -/
structure Folio where
  pfn : Nat
  nid : Int
  zonenum : Zone
  order : Nat := 0
  deriving DecidableEq, Repr

/-- The base allocation masks that are passed to `folio_alloc`. -/
inductive GfpBase where
  | ltram
  | kernel
  | highuser
  deriving DecidableEq, Repr

/-- An allocation mask: a base, possibly with `__GFP_THISNODE`. -/
structure Gfp where
  base : GfpBase
  thisnode : Bool := false
  deriving DecidableEq, Repr

/-- `GFP_KERNEL`. -/
def gfpKernel : Gfp := ⟨.kernel, false⟩

/-- `GFP_HIGHUSER`. -/
def gfpHighuser : Gfp := ⟨.highuser, false⟩

/-! ## Error numbers -/

def EBUSY : Int := 16

def EINVAL : Int := 22

/-! ## Fault codes -/

/-- `vm_fault_t`, a set of bits. -/
abbrev VmFault := BitVec 32

def vmFaultNopage : VmFault := 0x000100#32

def vmFaultRetry : VmFault := 0x000400#32

/-- `VM_FAULT_ERROR`: the `OOM`, `SIGBUS`, `HWPOISON`, `HWPOISON_LARGE`,
`SIGSEGV` and `FALLBACK` bits. -/
def vmFaultError : VmFault := 0x000873#32

end LtramBench.Kernel
