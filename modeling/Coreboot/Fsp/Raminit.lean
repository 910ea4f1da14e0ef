import Coreboot.Fsp.Types

/-!
# `raminit`: FspMemoryInit and the checks on its HOB list

`raminit` (romstage) derives the VPD and UPD regions from the FSP header,
picks the boot mode, calls `FspMemoryInit`, and then checks the HOB list it
returned.  Most checks only set `fsp_verification_failure` and print a line;
the platform halts once, after all of them.  Three conditions halt on the
spot: a failed CBMEM recovery on S3 resume (`full_reset`), a `NULL` HOB
list, and, with an SMI handler, a reserved-area mismatch while the TOLUM HOB
is present.  Finally the non-volatile-storage HOB is handed back as the data
to save for the next boot.

The function is cut where the source's own comments cut it:
`callFspMemoryInit`, `verifyHobs` (with its two cross-checks
`placementCheck` and `reservedAreaCheck`) and `captureMrc`.  The
environment `RaminitEnv` answers every call `raminit` makes outside this
file.
-/

namespace Fsp

open Boot

/-- What the calls `raminit` makes outside itself answer: the FSP binary,
the HOB locators, `cbmem_overhead_size()`, `cbmem_initialize_id_size` for a
size and `cbmem_find(CBMEM_ID_FSP_RESERVED_MEMORY)`. -/
structure RaminitEnv where
  fsp : FspBinary
  hobs : HobLocators
  cbmemOverheadSize : UInt32
  cbmemInitializeIdSize : UInt32 → Int
  cbmemFind : Nat

/-- `s3wake`: `power_state` is set and the previous sleep state was S3. -/
def RomstageParams.s3wake (p : RomstageParams) : Bool := p.powerState == some acpiS3

/-- The boot mode `raminit` asks for: S3 resume wins over saved data. -/
def bootMode (s3wake : Bool) (savedData : Nat) : BootMode :=
  if s3wake then .bootOnS3Resume
  else if savedData ≠ 0 then .bootAssumingNoConfigurationChanges
  else .bootWithFullConfiguration

/-- `fsp_memory_init_params` as `raminit` fills it in. -/
def memoryInitParams (env : RaminitEnv) (params : RomstageParams) (fsp_header : FspInfoHeader) :
    FspMemoryInitParams :=
  let upd_ptr := fsp_header.imageBase.toNat +
    (env.fsp.vpdAt (fsp_header.imageBase.toNat + fsp_header.cfgRegionOffset.toNat)).pcdUpdRegionOffset.toNat
  { nvsBufferPtr := params.savedData
    bootMode := bootMode params.s3wake params.savedData
    bootLoaderTolumSize := env.cbmemOverheadSize
    updDefaults := upd_ptr + (env.fsp.updAt upd_ptr).memoryInitUpdOffset.toNat }

/-- What `FspMemoryInit` returns to `raminit`: status and HOB list. -/
def memoryInitResult (env : RaminitEnv) (params : RomstageParams) (fsp_header : FspInfoHeader) :
    EfiStatus × Nat :=
  env.fsp.fspMemoryInit (memoryInitParams env params fsp_header)

/-- `raminit` up to the status check: validate the offsets, call
`FspMemoryInit`, halt on failure; the HOB list pointer. -/
def callFspMemoryInit (env : RaminitEnv) (params : RomstageParams) (fsp_header : FspInfoHeader) :
    Boot Nat := do
  dieIf (fsp_header.cfgRegionOffset = 0) .invalidVendorBinary "raminit: CfgRegionOffset is zero!\n"
  let vpd_ptr := env.fsp.vpdAt (fsp_header.imageBase.toNat + fsp_header.cfgRegionOffset.toNat)
  dieIf (vpd_ptr.pcdUpdRegionOffset = 0) .invalidVendorBinary "raminit: PcdUpdRegionOffset is zero!\n"
  let r ← emit (.callFsp .fspMemoryInit) (memoryInitResult env params fsp_header)
  dieIf (r.1 ≠ efiSuccess) .ramFailure "ERROR - FspMemoryInit failed!\n"
  pure r.2

/-- `get_resource_hob(&guid, hob_list_ptr)`. -/
def getResourceHob (env : RaminitEnv) (guid : HobGuid) (hob_list_ptr : Nat) :
    Boot (Option ResourceDescriptor) :=
  emit (.getHob guid) (env.hobs.getResourceHob guid hob_list_ptr)

/-- `get_guid_hob(&guid, hob_list_ptr)`. -/
def getGuidHob (env : RaminitEnv) (guid : HobGuid) (hob_list_ptr : Nat) : Boot (Option GuidHob) :=
  emit (.getHob guid) (env.hobs.getGuidHob guid hob_list_ptr)

/-- One deferred check: when it fails, print its lines; report whether it
failed (`fsp_verification_failure = 1`). -/
def check (failed : Bool) (msgs : List String) : Boot Bool :=
  ⟨if failed then msgs.map .printk else [], .ret failed⟩

/-- The FSP reserved memory must lie below the CBMEM root (TOLUM). -/
def placementCheck : Option ResourceDescriptor → Option ResourceDescriptor → Boot Bool
  | some fsp_memory, some cbmem_root =>
    check (cbmem_root.physicalStart ≤ fsp_memory.physicalStart) ["FSP reserved memory above CBMEM root!\n"]
  | _, _ => pure false

/-- CBMEM's `CBMEM_ID_FSP_RESERVED_MEMORY` entry must be the reserved HOB's
start; with an SMI handler and the TOLUM HOB present a mismatch halts at
once. -/
def reservedAreaCheck (cfg : Config) :
    Option ResourceDescriptor → Option ResourceDescriptor → Nat → Boot Bool
  | some fsp_memory, cbmem_root, fsp_reserved_memory_area =>
    if fsp_reserved_memory_area = 0 ∨ fsp_memory.physicalStart.toNat ≠ fsp_reserved_memory_area then do
      printk "Mismatch in FSP reserved memory area!\n"
      printkIf (cfg.haveSmiHandler && cbmem_root.isSome) "Chipset reserved bytes: 0x%08x\n"
      dieIf (cfg.haveSmiHandler && cbmem_root.isSome) .invalidVendorBinary
        "Invalid chipset reserved region size!\n"
      pure true
    else pure false
  | none, _, _ => pure false

/-- `fsp_reserved_bytes`: the reserved HOB's `ResourceLength` as a `u32`. -/
def reservedBytes (fsp_memory : Option ResourceDescriptor) : UInt32 :=
  (fsp_memory.map (·.resourceLength.toUInt32)).getD 0

/-- The CBMEM set-up after `FspMemoryInit`: on S3 resume, a CBMEM that
cannot be recovered resets the platform. -/
def recoverCbmem (env : RaminitEnv) (params : RomstageParams) (fsp_memory : Option ResourceDescriptor) :
    Boot Unit :=
  haltIf (params.s3wake ∧ env.cbmemInitializeIdSize (reservedBytes fsp_memory) ≠ 0) .fullReset

/-- `raminit` from the HOB lookups to the verdict. -/
def verifyHobs (cfg : Config) (env : RaminitEnv) (params : RomstageParams) (hob_list_ptr : Nat) :
    Boot Unit := do
  let fsp_memory ← getResourceHob env .fspReservedMemoryResource hob_list_ptr
  let f1 ← check fsp_memory.isNone ["FSP reserved memory HOB missing!\n"]
  recoverCbmem env params fsp_memory
  let cbmem_root ← getResourceHob env .fspBootloaderTolum hob_list_ptr
  let f2 ← check cbmem_root.isNone ["Bootloader Tolum HOB missing!\n", "BootLoaderTolumSize = 0x%08x\n"]
  let memory_info_hob ← getGuidHob env .fspSmbiosMemoryInfo hob_list_ptr
  let f3 ← check memory_info_hob.isNone ["SMBIOS memory info HOB missing!\n"]
  dieIf (hob_list_ptr = 0) .ramFailure "ERROR - HOB list pointer is NULL!\n"
  let hob_ptr ← getGuidHob env .fspNonVolatileStorage hob_list_ptr
  let f4 ← check (hob_ptr.isNone && params.savedData == 0) ["Non-volatile storage HOB missing!\n"]
  let fsp_verification_failure := f1 || f2 || f3 || f4
  printkIf fsp_verification_failure "Missing required FSP HOB(s)!\n"
  let f5 ← placementCheck fsp_memory cbmem_root
  let f6 ← reservedAreaCheck cfg fsp_memory cbmem_root env.cbmemFind
  dieIf (fsp_verification_failure || f5 || f6) .invalidVendorBinary
    "ERROR - coreboot requirements not met by FSP binary!\n"

/-- "Capture MRC data for next boot". -/
def captureMrc (env : RaminitEnv) (params : RomstageParams) (hob_list_ptr : Nat) :
    Boot RomstageParams := do
  match ← getGuidHob env .fspNonVolatileStorage hob_list_ptr with
  | some mrc_hob =>
    pure { params with
      dataToSave := getGuidHobData mrc_hob
      dataToSaveSize := alignUp (getHobLength mrc_hob) 16 }
  | none => pure { params with dataToSave := 0, dataToSaveSize := 0 }

/-- `raminit(params)`: the parameters as it leaves them. -/
def raminit (cfg : Config) (env : RaminitEnv) : Option RomstageParams → Boot RomstageParams
  | none => dieWithPostCode .ramFailure "raminit: params pointer is NULL!\n"
  | some params => do
    let some fsp_header := params.chipsetContext
      | dieWithPostCode .ramFailure "raminit: FSP header is NULL!\n"
    let hob_list_ptr ← callFspMemoryInit env params fsp_header
    verifyHobs cfg env params hob_list_ptr
    captureMrc env params hob_list_ptr

end Fsp
