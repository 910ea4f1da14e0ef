import Coreboot.Fsp.Raminit
import Mathlib.Tactic.SplitIfs
import Mathlib.Data.Option.Basic

/-!
# The verdict on FSP's HOB list

The spec's validator, stated once: the six deferred checks of `raminit`
(`Check`), what each looks at (`HobAnswers`), when it fails and the line it
prints.  `verifyHobs_outcome` says how `verifyHobs` ends in terms of these,
and `verifyHobs_reports` that every failed check has printed its line by the
time the platform halts on them.  From them:

* `raminit_returns_iff` — `raminit` returns exactly when the FSP image and
  status are good, an S3 resume recovers CBMEM, the HOB list is not `NULL`
  and no check fails; and once the list is there, a failed check halts with
  `POSTCODE_INVALID_VENDOR_BINARY` after every failed check has reported.
-/

namespace Fsp

open Boot

/-- The deferred checks of `raminit`, in the order it runs them. -/
inductive Check
  | reservedHobMissing
  | tolumHobMissing
  | memoryInfoHobMissing
  | nvsHobMissing
  | reservedAboveTolum
  | reservedAreaMismatch
deriving DecidableEq, Repr

/-- What the checks look at: the four HOB lookups, the caller's saved data
and `cbmem_find(CBMEM_ID_FSP_RESERVED_MEMORY)`. -/
structure HobAnswers where
  fspMemory : Option ResourceDescriptor
  cbmemRoot : Option ResourceDescriptor
  memoryInfo : Option GuidHob
  nvs : Option GuidHob
  savedData : Nat
  reservedArea : Nat

/-- The answers `raminit` gets on the HOB list at `hob_list_ptr`. -/
def HobAnswers.of (env : RaminitEnv) (params : RomstageParams) (hob_list_ptr : Nat) : HobAnswers where
  fspMemory := env.hobs.getResourceHob .fspReservedMemoryResource hob_list_ptr
  cbmemRoot := env.hobs.getResourceHob .fspBootloaderTolum hob_list_ptr
  memoryInfo := env.hobs.getGuidHob .fspSmbiosMemoryInfo hob_list_ptr
  nvs := env.hobs.getGuidHob .fspNonVolatileStorage hob_list_ptr
  savedData := params.savedData
  reservedArea := env.cbmemFind

/-- The reserved memory does not lie below the TOLUM HOB's start. -/
def placementFails : Option ResourceDescriptor → Option ResourceDescriptor → Bool
  | some fsp_memory, some cbmem_root => decide (cbmem_root.physicalStart ≤ fsp_memory.physicalStart)
  | _, _ => false

/-- CBMEM has no reserved area, or not at the reserved HOB's start. -/
def areaMismatch : Option ResourceDescriptor → Nat → Bool
  | some fsp_memory, area => decide (area = 0 ∨ fsp_memory.physicalStart.toNat ≠ area)
  | none, _ => false

/-- When a check fails. -/
def Check.fails (a : HobAnswers) : Check → Bool
  | .reservedHobMissing => a.fspMemory.isNone
  | .tolumHobMissing => a.cbmemRoot.isNone
  | .memoryInfoHobMissing => a.memoryInfo.isNone
  | .nvsHobMissing => a.nvs.isNone && a.savedData == 0
  | .reservedAboveTolum => placementFails a.fspMemory a.cbmemRoot
  | .reservedAreaMismatch => areaMismatch a.fspMemory a.reservedArea

/-- The line a failed check prints. -/
def Check.diagnostic : Check → String
  | .reservedHobMissing => "FSP reserved memory HOB missing!\n"
  | .tolumHobMissing => "Bootloader Tolum HOB missing!\n"
  | .memoryInfoHobMissing => "SMBIOS memory info HOB missing!\n"
  | .nvsHobMissing => "Non-volatile storage HOB missing!\n"
  | .reservedAboveTolum => "FSP reserved memory above CBMEM root!\n"
  | .reservedAreaMismatch => "Mismatch in FSP reserved memory area!\n"

/-- Every check, in order. -/
def Check.all : List Check :=
  [.reservedHobMissing, .tolumHobMissing, .memoryInfoHobMissing, .nvsHobMissing,
    .reservedAboveTolum, .reservedAreaMismatch]

theorem Check.mem_all (c : Check) : c ∈ Check.all := by cases c <;> simp [Check.all]

/-- The verdict: the checks that failed. -/
def failedChecks (a : HobAnswers) : List Check := Check.all.filter (·.fails a)

/-- The one deferred check that halts on the spot. -/
def immediateHalt (cfg : Config) (a : HobAnswers) : Bool :=
  cfg.haveSmiHandler && a.cbmemRoot.isSome && areaMismatch a.fspMemory a.reservedArea

theorem failedChecks_eq_nil (a : HobAnswers) : failedChecks a = [] ↔ ∀ c : Check, c.fails a = false := by
  simp [failedChecks, List.filter_eq_nil_iff, Check.mem_all]

/-- The verdict as the flags `raminit` accumulates. -/
theorem failedChecks_eq_nil_iff_flags (a : HobAnswers) :
    failedChecks a = [] ↔
      (a.fspMemory.isNone || a.cbmemRoot.isNone || a.memoryInfo.isNone ||
        (a.nvs.isNone && a.savedData == 0) || placementFails a.fspMemory a.cbmemRoot ||
        areaMismatch a.fspMemory a.reservedArea) = false := by
  simp only [failedChecks_eq_nil, Bool.or_eq_false_iff]
  constructor
  · intro h
    exact ⟨⟨⟨⟨⟨h .reservedHobMissing, h .tolumHobMissing⟩, h .memoryInfoHobMissing⟩,
      h .nvsHobMissing⟩, h .reservedAboveTolum⟩, h .reservedAreaMismatch⟩
  · rintro ⟨⟨⟨⟨⟨h1, h2⟩, h3⟩, h4⟩, h5⟩, h6⟩ c
    cases c <;> assumption

/-- **The verdict passes** exactly when the reserved, TOLUM and memory-info
HOBs are there, the NVS HOB or saved data is, the reserved memory starts below
TOLUM, and CBMEM's reserved area is the reserved HOB's start. -/
theorem failedChecks_eq_nil_iff (a : HobAnswers) :
    failedChecks a = [] ↔
      a.fspMemory.isSome ∧ a.cbmemRoot.isSome ∧ a.memoryInfo.isSome ∧ (a.nvs.isSome ∨ a.savedData ≠ 0) ∧
      (∀ m t, a.fspMemory = some m → a.cbmemRoot = some t → m.physicalStart < t.physicalStart) ∧
      (∀ m, a.fspMemory = some m → a.reservedArea ≠ 0 ∧ m.physicalStart.toNat = a.reservedArea) := by
  rw [failedChecks_eq_nil_iff_flags]
  rcases a with ⟨_ | m, _ | t, mi, nvs, sd, area⟩ <;>
    simp [placementFails, areaMismatch, Option.isNone_eq_false_iff, Option.isSome_iff_ne_none,
      or_iff_not_imp_left, and_assoc]

/-! ## How the pieces of `raminit` end -/

@[simp] theorem check_bind {β : Type} (b : Bool) (msgs : List String) (f : Bool → Boot β) :
    check b msgs >>= f = ⟨(if b then msgs.map .printk else []) ++ (f b).trace, (f b).outcome⟩ :=
  bind_of_ret rfl f

@[simp] theorem placementCheck_bind {β : Type} (m r : Option ResourceDescriptor) (f : Bool → Boot β) :
    placementCheck m r >>= f =
      ⟨(placementCheck m r).trace ++ (f (placementFails m r)).trace, (f (placementFails m r)).outcome⟩ :=
  bind_of_ret (by cases m <;> cases r <;> rfl) f

/-- The reserved-area check returns whether it failed, unless it halts on
the spot. -/
theorem reservedAreaCheck_outcome (cfg : Config) (m r : Option ResourceDescriptor) (area : Nat) :
    (reservedAreaCheck cfg m r area).outcome =
      if (cfg.haveSmiHandler && r.isSome && areaMismatch m area) = true then
        .halt (.die .invalidVendorBinary "Invalid chipset reserved region size!\n")
      else .ret (areaMismatch m area) := by
  cases m with
  | none => simp [reservedAreaCheck, areaMismatch]
  | some fm =>
    by_cases h : area = 0 ∨ fm.physicalStart.toNat ≠ area
    · cases hs : (cfg.haveSmiHandler && r.isSome) <;> simp [reservedAreaCheck, areaMismatch, h, hs]
    · simp [reservedAreaCheck, areaMismatch, h]

theorem reservedAreaCheck_bind {β : Type} (cfg : Config) (m r : Option ResourceDescriptor) (area : Nat)
    (f : Bool → Boot β) :
    (reservedAreaCheck cfg m r area >>= f).outcome =
      if (cfg.haveSmiHandler && r.isSome && areaMismatch m area) = true then
        .halt (.die .invalidVendorBinary "Invalid chipset reserved region size!\n")
      else (f (areaMismatch m area)).outcome := by
  have h := reservedAreaCheck_outcome cfg m r area
  split at h
  · rw [bind_of_halt h]; simp [*]
  · rw [bind_of_ret h]; simp [*]

/-- How `callFspMemoryInit` ends: the two offsets, then the status. -/
theorem callFspMemoryInit_outcome (env : RaminitEnv) (params : RomstageParams) (hdr : FspInfoHeader) :
    (callFspMemoryInit env params hdr).outcome =
      if hdr.cfgRegionOffset = 0 then .halt (.die .invalidVendorBinary "raminit: CfgRegionOffset is zero!\n")
      else if (env.fsp.vpdAt (hdr.imageBase.toNat + hdr.cfgRegionOffset.toNat)).pcdUpdRegionOffset = 0 then
        .halt (.die .invalidVendorBinary "raminit: PcdUpdRegionOffset is zero!\n")
      else if (memoryInitResult env params hdr).1 ≠ efiSuccess then
        .halt (.die .ramFailure "ERROR - FspMemoryInit failed!\n")
      else .ret (memoryInitResult env params hdr).2 := by
  simp only [callFspMemoryInit, dieIf_eq, haltIf_bind, emit_bind, ite_outcome, pure_outcome]

/-- **How `verifyHobs` ends.**  The S3 recovery and the `NULL` list halt on
the spot, then the SMI-handler mismatch; otherwise it returns exactly when no
check failed. -/
theorem verifyHobs_outcome (cfg : Config) (env : RaminitEnv) (params : RomstageParams) (ptr : Nat) :
    (verifyHobs cfg env params ptr).outcome =
      let a := HobAnswers.of env params ptr
      if params.s3wake ∧ env.cbmemInitializeIdSize (reservedBytes a.fspMemory) ≠ 0 then .halt .fullReset
      else if ptr = 0 then .halt (.die .ramFailure "ERROR - HOB list pointer is NULL!\n")
      else if immediateHalt cfg a then
        .halt (.die .invalidVendorBinary "Invalid chipset reserved region size!\n")
      else if failedChecks a ≠ [] then
        .halt (.die .invalidVendorBinary "ERROR - coreboot requirements not met by FSP binary!\n")
      else .ret () := by
  simp only [verifyHobs, getResourceHob, getGuidHob, emit_bind, check_bind, recoverCbmem, haltIf_bind,
    dieIf_eq, printkIf_bind, placementCheck_bind, ite_outcome, reservedAreaCheck_bind, haltIf_outcome]
  simp only [immediateHalt, HobAnswers.of, ne_eq, failedChecks_eq_nil_iff_flags, Bool.not_eq_false]

theorem placementCheck_reports {m r : Option ResourceDescriptor} (h : placementFails m r = true) :
    Event.printk Check.reservedAboveTolum.diagnostic ∈ (placementCheck m r).trace := by
  cases m <;> cases r <;> simp_all [placementFails, placementCheck, check, Check.diagnostic]

theorem reservedAreaCheck_reports (cfg : Config) {m r : Option ResourceDescriptor} {n : Nat}
    (h : areaMismatch m n = true) :
    Event.printk Check.reservedAreaMismatch.diagnostic ∈ (reservedAreaCheck cfg m r n).trace := by
  cases m <;> simp_all [areaMismatch, reservedAreaCheck, Check.diagnostic]

/-- Each failed check has printed its line by the end of `verifyHobs`, once
CBMEM is recovered and the HOB list is there. -/
theorem verifyHobs_reports (cfg : Config) (env : RaminitEnv) (params : RomstageParams) {ptr : Nat}
    (hs : ¬(params.s3wake ∧ env.cbmemInitializeIdSize
      (reservedBytes (env.hobs.getResourceHob .fspReservedMemoryResource ptr)) ≠ 0))
    (hp : ptr ≠ 0) :
    ∀ c ∈ failedChecks (HobAnswers.of env params ptr),
      Event.printk c.diagnostic ∈ (verifyHobs cfg env params ptr).trace := by
  intro c hc
  have hf : c.fails (HobAnswers.of env params ptr) = true := (List.mem_filter.1 hc).2
  simp only [verifyHobs, getResourceHob, getGuidHob, emit_bind, check_bind, recoverCbmem, haltIf_bind,
    dieIf_eq, printkIf_bind, placementCheck_bind, if_neg hs, if_neg hp]
  cases c with
  | reservedAboveTolum =>
    simp [placementCheck_reports (m := env.hobs.getResourceHob .fspReservedMemoryResource ptr)
      (r := env.hobs.getResourceHob .fspBootloaderTolum ptr) hf]
  | reservedAreaMismatch =>
    have h := fun f : Bool → Boot Unit =>
      mem_trace_bind_left (f := f) (reservedAreaCheck_reports cfg
        (m := env.hobs.getResourceHob .fspReservedMemoryResource ptr)
        (r := env.hobs.getResourceHob .fspBootloaderTolum ptr) (n := env.cbmemFind) hf)
    simp [h]
  | _ =>
    simp only [Check.fails, HobAnswers.of] at hf
    simp [hf, Check.diagnostic]

theorem callFspMemoryInit_ret_iff {env : RaminitEnv} {params : RomstageParams} {hdr : FspInfoHeader}
    {ptr : Nat} :
    (callFspMemoryInit env params hdr).outcome = .ret ptr ↔
      hdr.cfgRegionOffset ≠ 0 ∧
      (env.fsp.vpdAt (hdr.imageBase.toNat + hdr.cfgRegionOffset.toNat)).pcdUpdRegionOffset ≠ 0 ∧
      (memoryInitResult env params hdr).1 = efiSuccess ∧ (memoryInitResult env params hdr).2 = ptr := by
  rw [callFspMemoryInit_outcome]
  split_ifs <;> simp_all

/-- The immediate halt is on a failed check. -/
theorem failedChecks_ne_nil_of_immediateHalt {cfg : Config} {a : HobAnswers}
    (h : immediateHalt cfg a = true) : failedChecks a ≠ [] := by
  intro hnil
  have hm : areaMismatch a.fspMemory a.reservedArea = false := (failedChecks_eq_nil a).1 hnil .reservedAreaMismatch
  simp [immediateHalt, hm] at h

theorem verifyHobs_ret_iff {cfg : Config} {env : RaminitEnv} {params : RomstageParams} {ptr : Nat} :
    (verifyHobs cfg env params ptr).outcome = .ret () ↔
      (params.s3wake = true →
        env.cbmemInitializeIdSize (reservedBytes (HobAnswers.of env params ptr).fspMemory) = 0) ∧
      ptr ≠ 0 ∧ failedChecks (HobAnswers.of env params ptr) = [] := by
  rw [verifyHobs_outcome]
  dsimp only
  have := @failedChecks_ne_nil_of_immediateHalt cfg (HobAnswers.of env params ptr)
  split_ifs <;> simp_all

theorem captureMrc_returns (env : RaminitEnv) (params : RomstageParams) (ptr : Nat) :
    ∃ p, (captureMrc env params ptr).outcome = .ret p := by
  unfold captureMrc getGuidHob
  cases env.hobs.getGuidHob .fspNonVolatileStorage ptr <;> simp

/-- `raminit` is its three phases in sequence. -/
theorem raminit_eq {params : RomstageParams} {hdr : FspInfoHeader} (cfg : Config) (env : RaminitEnv)
    (hh : params.chipsetContext = some hdr) :
    raminit cfg env (some params) =
      callFspMemoryInit env params hdr >>= fun ptr =>
        verifyHobs cfg env params ptr >>= fun _ => captureMrc env params ptr := by
  simp [raminit, hh]

/-- **When `raminit` returns.**  For any FSP binary, status, HOB list and
CBMEM answers, `raminit` returns exactly when both offsets are non-zero,
`FspMemoryInit` succeeds, an S3 resume recovers CBMEM, the HOB list is not
`NULL`, the reserved, TOLUM and memory-info HOBs are found, the NVS HOB is
found or saved data was passed in, the reserved memory starts below TOLUM,
and CBMEM's reserved area is non-`NULL` and at the reserved HOB's start.  And
once the list is there, failed checks halt with
`POSTCODE_INVALID_VENDOR_BINARY` only after each has printed its line. -/
theorem raminit_returns_iff (cfg : Config) (env : RaminitEnv) (params : RomstageParams) (hdr : FspInfoHeader)
    (hh : params.chipsetContext = some hdr) :
    let r := memoryInitResult env params hdr
    let a := HobAnswers.of env params r.2
    let imageOk := hdr.cfgRegionOffset ≠ 0 ∧
      (env.fsp.vpdAt (hdr.imageBase.toNat + hdr.cfgRegionOffset.toNat)).pcdUpdRegionOffset ≠ 0
    let cbmemOk := params.s3wake = true → env.cbmemInitializeIdSize (reservedBytes a.fspMemory) = 0
    ((∃ p, (raminit cfg env (some params)).outcome = .ret p) ↔
      imageOk ∧ r.1 = efiSuccess ∧ cbmemOk ∧ r.2 ≠ 0 ∧
      a.fspMemory.isSome ∧ a.cbmemRoot.isSome ∧ a.memoryInfo.isSome ∧
      (a.nvs.isSome ∨ params.savedData ≠ 0) ∧
      (∀ m t, a.fspMemory = some m → a.cbmemRoot = some t → m.physicalStart < t.physicalStart) ∧
      (∀ m, a.fspMemory = some m → env.cbmemFind ≠ 0 ∧ m.physicalStart.toNat = env.cbmemFind)) ∧
    (imageOk → r.1 = efiSuccess → cbmemOk → r.2 ≠ 0 → failedChecks a ≠ [] →
      (∃ msg, (raminit cfg env (some params)).outcome = .halt (.die .invalidVendorBinary msg)) ∧
      ∀ c ∈ failedChecks a, Event.printk c.diagnostic ∈ (raminit cfg env (some params)).trace) := by
  dsimp only
  rw [raminit_eq cfg env hh]
  have hcall := fun ptr => @callFspMemoryInit_ret_iff env params hdr ptr
  refine ⟨?_, fun ⟨hi, hv⟩ hs hc hp hf => ?_⟩
  · simp only [bind_ret_iff]
    constructor
    · rintro ⟨p, _, hr, ⟨⟩, hv, -⟩
      obtain ⟨hi, hv', hs, rfl⟩ := (hcall _).1 hr
      obtain ⟨hc, hp, hf⟩ := verifyHobs_ret_iff.1 hv
      exact ⟨⟨hi, hv'⟩, hs, hc, hp, (failedChecks_eq_nil_iff _).1 hf⟩
    · rintro ⟨⟨hi, hv⟩, hs, hc, hp, hf⟩
      obtain ⟨p, hq⟩ := captureMrc_returns env params (memoryInitResult env params hdr).2
      exact ⟨p, _, (hcall _).2 ⟨hi, hv, hs, rfl⟩, (), verifyHobs_ret_iff.2 ⟨hc, hp, (failedChecks_eq_nil_iff _).2 hf⟩, hq⟩
  · have hret := (hcall _).2 ⟨hi, hv, hs, rfl⟩
    have hvo := verifyHobs_outcome cfg env params (memoryInitResult env params hdr).2
    simp only [hp, hf, if_false, not_false_eq_true, if_true] at hvo
    refine ⟨?_, fun c hc' => mem_trace_bind_right hret
      (mem_trace_bind_left (verifyHobs_reports cfg env params (by simpa using hc) hp c hc'))⟩
    rw [outcome_bind, hret]
    dsimp only
    rw [outcome_bind]
    split_ifs at hvo with h1 h2 <;> simp_all

/-- A sample FSP header: the image at `0xFFF00000`, its VPD at `ImageBase + 0x100`. -/
def sampleHeader : FspInfoHeader := ⟨0xFFF00000, false, 0x100, 0x300⟩

/-- A sample image whose `FspMemoryInit` succeeds with a HOB list at `0x1000`
holding reserved memory at `0x7F000000` below TOLUM at `0x7F800000` (CBMEM
agreeing), the memory info HOB at `0x1200`, and `nvs` as the
non-volatile-storage HOB. -/
def sampleEnv (nvs : Option GuidHob) : RaminitEnv where
  fsp := ⟨fun _ => ⟨0x200⟩, fun _ => ⟨0x40, 0x80⟩, fun _ => (0, 0x1000), 0⟩
  hobs := ⟨fun g _ => if g = .fspReservedMemoryResource then some ⟨0x7F000000, 0x400000⟩
             else some ⟨0x7F800000, 0x800000⟩,
           fun g _ => if g = .fspNonVolatileStorage then nvs else some ⟨0x1200, 32⟩⟩
  cbmemOverheadSize := 0x10000
  cbmemInitializeIdSize := fun _ => 0
  cbmemFind := 0x7F000000

/-- A good image and HOB list: `raminit` returns. -/
theorem raminit_returns_on_good_hob_list :
    let params : RomstageParams := ⟨none, some sampleHeader, 0, 0, 0⟩
    params.chipsetContext = some sampleHeader ∧
      ∃ p, (raminit ⟨true, false, false⟩ (sampleEnv (some ⟨0x1300, 32⟩)) (some params)).outcome = .ret p := by
  intro params
  refine ⟨rfl, (raminit_returns_iff _ _ params sampleHeader rfl).1.2
    ⟨⟨by decide, by decide⟩, by decide, fun _ => rfl, by decide, rfl, rfl, rfl, .inl rfl, ?_, ?_⟩⟩ <;>
    simp [HobAnswers.of, sampleEnv]

/-- What `raminit` saves for the next boot: when it returns, the data to save
is the NVS HOB's payload address and the HOB's whole `HobLength` rounded up to
16, or `NULL` and `0` without the HOB. -/
theorem raminit_saves_nvs_hob {cfg : Config} {env : RaminitEnv} {params p : RomstageParams}
    {hdr : FspInfoHeader} (hh : params.chipsetContext = some hdr)
    (hret : (raminit cfg env (some params)).outcome = .ret p) :
    match env.hobs.getGuidHob .fspNonVolatileStorage (memoryInitResult env params hdr).2 with
    | some mrc_hob => p.dataToSave = getGuidHobData mrc_hob ∧ p.dataToSaveSize = alignUp (getHobLength mrc_hob) 16
    | none => p.dataToSave = 0 ∧ p.dataToSaveSize = 0 := by
  rw [raminit_eq cfg env hh] at hret
  obtain ⟨ptr, hc, hv⟩ := bind_ret_iff.1 hret
  obtain ⟨u, -, hm⟩ := bind_ret_iff.1 hv
  obtain ⟨-, -, -, rfl⟩ := callFspMemoryInit_ret_iff.1 hc
  unfold captureMrc getGuidHob at hm
  cases h : env.hobs.getGuidHob .fspNonVolatileStorage (memoryInitResult env params hdr).2 <;>
    simp_all <;> subst hm <;> simp

/-- FSP hands back an NVS HOB of 32 bytes, 24 of them header and 8 payload:
`raminit` saves 32 bytes from the payload's address. -/
theorem raminit_saves_32_bytes_of_8_byte_payload :
    let params : RomstageParams := ⟨none, some sampleHeader, 0, 0, 0⟩
    (raminit ⟨true, false, false⟩ (sampleEnv (some ⟨0x1300, 32⟩)) (some params)).outcome =
      .ret { params with dataToSave := 0x1300 + 24, dataToSaveSize := 32 } := by
  decide

end Fsp
