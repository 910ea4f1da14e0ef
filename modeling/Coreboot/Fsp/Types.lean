import Coreboot.Fsp.Basic

/-!
# What the FSP 1.1 driver reads

The driver reaches the FSP binary through its `FSP_INFO_HEADER`: the VPD
region sits at `ImageBase + CfgRegionOffset`, the UPD region at
`ImageBase + PcdUpdRegionOffset`, and the entry points at `ImageBase` plus
their offsets.  The binary itself is opaque: `FspBinary` gives the regions as
read at any address and the entry points as functions of what they are
passed.  The HOB list FSP produces is seen only through the locators
`get_resource_hob` and `get_guid_hob` (not under `src/`), which are likewise
functions (`HobLocators`): every theorem holds for every answer they give.

Pointers are addresses (`Nat`, `0` for `NULL`) wherever the code compares or
offsets them, and `Option` where it only tests them for `NULL`.
-/

namespace Fsp

/-- `EFI_STATUS` as FSP 1.1 (32-bit) returns it. -/
abbrev EfiStatus := UInt32

/-- `EFI_SUCCESS`. -/
def efiSuccess : EfiStatus := 0

/-- `ACPI_S3`. -/
def acpiS3 : Nat := 3

/-- The fields of `FSP_INFO_HEADER` the driver reads.  `graphicsSupport` is
`ImageAttribute & GRAPHICS_SUPPORT_BIT`. -/
structure FspInfoHeader where
  imageBase : UInt32
  graphicsSupport : Bool
  cfgRegionOffset : UInt32
  fspSiliconInitEntryOffset : UInt32
deriving DecidableEq, Repr

/-- `VPD_DATA_REGION`, the field the driver reads. -/
structure VpdDataRegion where
  pcdUpdRegionOffset : UInt32
deriving DecidableEq, Repr

/-- `UPD_DATA_REGION`, the fields the driver reads. -/
structure UpdDataRegion where
  memoryInitUpdOffset : UInt32
  siliconInitUpdOffset : UInt32
deriving DecidableEq, Repr

/-- The boot modes of `FSP_INIT_RT_COMMON_BUFFER`. -/
inductive BootMode
  /-- `BOOT_WITH_FULL_CONFIGURATION`. -/
  | bootWithFullConfiguration
  /-- `BOOT_ASSUMING_NO_CONFIGURATION_CHANGES`. -/
  | bootAssumingNoConfigurationChanges
  /-- `BOOT_ON_S3_RESUME`. -/
  | bootOnS3Resume
deriving DecidableEq, Repr

/-- What `FspMemoryInit` is handed: `NvsBufferPtr`, the runtime buffer's
`BootMode` and `BootLoaderTolumSize`, and the address of the
`MEMORY_INIT_UPD` defaults its working copy was taken from. -/
structure FspMemoryInitParams where
  nvsBufferPtr : Nat
  bootMode : BootMode
  bootLoaderTolumSize : UInt32
  updDefaults : Nat
deriving DecidableEq, Repr

/-- The FSP binary as the driver sees it: the regions at any address, and
what the entry points return.  `fspMemoryInit` returns the status and the
HOB list pointer it stores through `HobListPtr`. -/
structure FspBinary where
  vpdAt : Nat → VpdDataRegion
  updAt : Nat → UpdDataRegion
  fspMemoryInit : FspMemoryInitParams → EfiStatus × Nat
  fspSiliconInit : EfiStatus

/-- The fields of an `EFI_HOB_RESOURCE_DESCRIPTOR` the driver reads. -/
structure ResourceDescriptor where
  physicalStart : UInt64
  resourceLength : UInt64
deriving DecidableEq, Repr

/-- A GUID extension HOB found in the list: its address and its
`HobLength`, the length of the whole record. -/
structure GuidHob where
  addr : Nat
  hobLength : UInt16
deriving DecidableEq, Repr

/-- `sizeof (EFI_HOB_GUID_TYPE)`: the generic header (`HobType`,
`HobLength`, `Reserved`: 8 bytes) and the 16-byte GUID name. -/
def efiHobGuidTypeSize : Nat := 8 + 16

/-- `GET_GUID_HOB_DATA(hob)`: the payload starts after the GUID HOB header. -/
def getGuidHobData (h : GuidHob) : Nat := h.addr + efiHobGuidTypeSize

/-- `GET_HOB_LENGTH(hob)`: the record's declared length. -/
def getHobLength (h : GuidHob) : Nat := h.hobLength.toNat

/-- `get_resource_hob` and `get_guid_hob`: the first HOB with a GUID in the
list at an address, if any. -/
structure HobLocators where
  getResourceHob : HobGuid → Nat → Option ResourceDescriptor
  getGuidHob : HobGuid → Nat → Option GuidHob

/-- The `struct romstage_params` fields `raminit` uses.  `powerState` is
`NULL` or the `prev_sleep_state` it points to. -/
structure RomstageParams where
  powerState : Option Nat
  chipsetContext : Option FspInfoHeader
  savedData : Nat
  dataToSave : Nat
  dataToSaveSize : Nat
deriving DecidableEq, Repr

/-- The build options the modelled code tests. -/
structure Config where
  haveSmiHandler : Bool
  runFspGop : Bool
  displayHobs : Bool
deriving DecidableEq, Repr

/-- Modelled from the spec: `ALIGN_UP(x, a)` (from `commonlib/helpers.h`, not
under `src/`) rounds `x` up to a multiple of `a`. -/
def alignUp (x a : Nat) : Nat := (x + a - 1) / a * a

end Fsp
