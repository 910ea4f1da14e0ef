import Coreboot.Fsp.Validation

/-!
# `FspSiliconInit`: a status nobody reads

`src/drivers/intel/fsp1_1/ramstage.c` runs `FspSiliconInit`.  Unlike
`raminit`, `fsp_run_silicon_init` never stops the platform: a missing header,
a zero `ImageBase`, `CfgRegionOffset`, `PcdUpdRegionOffset` or
`SiliconInitUpdOffset`, or a `NULL` entry point is printed and the function
returns; the status `FspSiliconInit` returns is only printed (at debug
level), and the graphics HOB lookup, the framebuffer registration and
`display_hob_info` follow whatever it was.

* `fspRunSiliconInit_returns` — silicon init always returns to its caller;
* `fspRunSiliconInit_status_irrelevant` — what it does does not depend on the
  status, where `raminit` halts with `POSTCODE_RAM_FAILURE` on a failed one;
* `silicon_init_continues_after_failed_status` — a failed status followed by
  the framebuffer registration and `display_hob_info`.
-/

namespace Fsp

open Boot

/-- The fields of `EFI_PEI_GRAPHICS_INFO_HOB` the driver reads. -/
structure PeiGraphicsInfo where
  frameBufferBase : UInt64
  horizontalResolution : UInt32
  verticalResolution : UInt32
  pixelsPerScanLine : UInt32
deriving DecidableEq, Repr

/-- What ramstage's silicon init sees outside itself: the FSP binary, the HOB
locators, `get_hob_list()`, and the graphics info HOB payload at an address. -/
structure SiliconEnv where
  fsp : FspBinary
  hobs : HobLocators
  hobList : Nat
  graphicsInfoAt : Nat → PeiGraphicsInfo

/-- `get_guid_hob(&guid, get_hob_list())`. -/
def siliconGuidHob (env : SiliconEnv) (guid : HobGuid) : Boot (Option GuidHob) :=
  emit (.getHob guid) (env.hobs.getGuidHob guid env.hobList)

/-- `display_hob_info(fsp_info_header)`. -/
def displayHobInfo (cfg : Config) (env : SiliconEnv) : Option FspInfoHeader → Boot Unit
  | none => printk "display_hob_info: FSP_INFO_HEADER is NULL\n"
  | some fsp_info_header =>
    if env.hobList = 0 then printk "display_hob_info: HOB pointer is NULL\n"
    else if fsp_info_header.graphicsSupport then do
      let hob ← siliconGuidHob env .efiPeiGraphicsInfo
      printkIf (hob.isNone && cfg.displayHobs) "7.5: EFI_PEI_GRAPHICS_INFO_HOB missing!\n"
      printkIf (hob.isNone && cfg.displayHobs) "Missing one or more required FSP HOBs!\n"
    else pure ()

/-- The `RUN_FSP_GOP` block after `FspSiliconInit`: register the framebuffer
FSP describes in its graphics info HOB. -/
def registerFramebuffer (cfg : Config) (env : SiliconEnv) : Boot Unit :=
  if cfg.runFspGop then do
    match ← siliconGuidHob env .efiPeiGraphicsInfo with
    | none => printk "FSP_ERR: Graphics Data HOB is not present\n"
    | some vbt_hob =>
      let gop := env.graphicsInfoAt (getGuidHobData vbt_hob)
      emit (.fbAddFramebufferInfo gop.frameBufferBase.toNat gop.horizontalResolution.toNat
        gop.verticalResolution.toNat (gop.pixelsPerScanLine * 4).toNat 32) ()
  else pure ()

/-- `fsp_run_silicon_init(fsp_info_header)`.  Pointers into the 32-bit FSP
image are `uintptr_t` sums of 32-bit fields, so the entry point wraps. -/
def fspRunSiliconInit (cfg : Config) (env : SiliconEnv) : Option FspInfoHeader → Boot Unit
  | none => printk "FSP_INFO_HEADER not set!\n"
  | some fsp_info_header =>
    let base := fsp_info_header.imageBase
    if base = 0 ∨ fsp_info_header.cfgRegionOffset = 0 then
      printk "Invalid ImageBase or CfgRegionOffset!\n"
    else
      let vpd_ptr := env.fsp.vpdAt (base.toNat + fsp_info_header.cfgRegionOffset.toNat)
      if vpd_ptr.pcdUpdRegionOffset = 0 then printk "PcdUpdRegionOffset is zero!\n"
      else
        let upd_ptr := env.fsp.updAt (base.toNat + vpd_ptr.pcdUpdRegionOffset.toNat)
        if upd_ptr.siliconInitUpdOffset = 0 then printk "SiliconInitUpdOffset is zero!\n"
        else if base + fsp_info_header.fspSiliconInitEntryOffset = 0 then
          printk "Invalid FspSiliconInit function pointer!\n"
        else do
          let _status ← emit (.callFsp .fspSiliconInit) env.fsp.fspSiliconInit
          registerFramebuffer cfg env
          displayHobInfo cfg env (some fsp_info_header)

/-- `intel_silicon_init()`, with `fsp_get_fih()` answering `fih`. -/
def intelSiliconInit (cfg : Config) (env : SiliconEnv) (fih : Option FspInfoHeader) : Boot Unit :=
  match fih with
  | none => printk "intel_silicon_init: Failed to retrieve FSP header\n"
  | some fsp_header => fspRunSiliconInit cfg env (some fsp_header)

/-! ## Silicon init never stops the platform -/

theorem displayHobInfo_outcome (cfg : Config) (env : SiliconEnv) (h : Option FspInfoHeader) :
    (displayHobInfo cfg env h).outcome = .ret () := by
  cases h with
  | none => rfl
  | some hdr => unfold displayHobInfo siliconGuidHob; split_ifs <;> simp

theorem registerFramebuffer_outcome (cfg : Config) (env : SiliconEnv) :
    (registerFramebuffer cfg env).outcome = .ret () := by
  unfold registerFramebuffer siliconGuidHob
  split_ifs
  · cases env.hobs.getGuidHob .efiPeiGraphicsInfo env.hobList <;> simp
  · rfl

/-- **Silicon init returns.**  Whatever the header, image and status, the
platform is never stopped here. -/
theorem fspRunSiliconInit_returns (cfg : Config) (env : SiliconEnv) (h : Option FspInfoHeader) :
    (fspRunSiliconInit cfg env h).outcome = .ret () := by
  cases h with
  | none => rfl
  | some hdr =>
    simp only [fspRunSiliconInit]
    split_ifs <;> simp [outcome_bind, registerFramebuffer_outcome, displayHobInfo_outcome]

/-- The status `FspSiliconInit` returns changes nothing that follows: for
every header, image, HOB list and build option, silicon init does the same
whatever the status. -/
theorem fspRunSiliconInit_status_irrelevant (cfg : Config) (env : SiliconEnv) (h : Option FspInfoHeader)
    (s : EfiStatus) :
    fspRunSiliconInit cfg { env with fsp := { env.fsp with fspSiliconInit := s } } h =
      fspRunSiliconInit cfg env h := by
  cases h <;> rfl

/-- `FspSiliconInit` fails with `EFI_DEVICE_ERROR`, yet the graphics HOB is
looked up, the framebuffer registered and `display_hob_info` run before
silicon init returns. -/
theorem silicon_init_continues_after_failed_status :
    let hdr : FspInfoHeader := ⟨0xFFF00000, true, 0x100, 0x300⟩
    let env : SiliconEnv :=
      { fsp := ⟨fun _ => ⟨0x200⟩, fun _ => ⟨0x40, 0x80⟩, fun _ => (0, 0x1000), 0x80000007⟩
        hobs := ⟨fun _ _ => none, fun _ _ => some ⟨0x2000, 48⟩⟩
        hobList := 0x1000
        graphicsInfoAt := fun _ => ⟨0xC0000000, 1920, 1080, 1920⟩ }
    intelSiliconInit ⟨false, true, false⟩ env (some hdr) =
      ⟨[.callFsp .fspSiliconInit, .getHob .efiPeiGraphicsInfo,
        .fbAddFramebufferInfo 0xC0000000 1920 1080 7680 32, .getHob .efiPeiGraphicsInfo], .ret ()⟩ := by
  decide

end Fsp
