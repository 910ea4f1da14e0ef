import Coreboot.Fsp.Validation
import Mathlib.Data.List.Basic

/-!
# The reboot cycle: training data from one boot to the next

`raminit` runs once per boot.  What it leaves in `data_to_save` is written to
durable storage by its caller and handed back on a later boot as
`saved_data`, which picks the boot mode FSP is asked for and is passed to
`FspMemoryInit` as `NvsBufferPtr`.  The caller and the storage are not under
`src/`; they are the spec's save and load primitives (its Boot Context and
Configuration Persistence): after a boot whose `raminit` returns, the
`data_to_save_size` bytes at `data_to_save` are saved, none when the size is
`0`, so that a later boot falls back to full configuration as the spec says;
a boot that halts saves nothing; and a boot starts by loading the saved bytes,
if there are any, at an address of the platform's choosing, which it passes
as `saved_data`.

The saved data is attributed to the boot that wrote it: the run lemma
`saved_after_boots` says it is the data the run started with while every boot
halted, and otherwise the NVS window of the last boot whose `raminit`
returned.  The NVS window is the HOB's payload address with its whole
`HobLength` rounded up to 16, as `captureMrc` takes it.

* `reboot_cycle` — on the boot after any run, FSP is asked to resume from S3
  on an S3 wake, for no configuration change exactly when saved data is
  there, and for full configuration otherwise; and that data is the NVS
  window of the last boot of the run whose `raminit` returned, whose HOB list
  passed every check, every later boot of the run having halted.
-/

namespace Fsp

/-- One boot, as `raminit`'s caller sets it up: the FSP header, what the calls
`raminit` makes answer, the previous sleep state, the memory FSP leaves its
HOB list in, and the address the load primitive maps saved data at. -/
structure BootEnv where
  header : FspInfoHeader
  env : RaminitEnv
  powerState : Option Nat
  mem : Nat → UInt8
  loadAddr : Nat
  loadAddr_ne_zero : loadAddr ≠ 0

/-- The save primitive: the `size` bytes at `addr`. -/
def saveBytes (mem : Nat → UInt8) (addr size : Nat) : List UInt8 := (List.range size).map fun i => mem (addr + i)

namespace BootEnv

variable (cfg : Config) (b : BootEnv)

/-- The parameters the caller hands `raminit` when `saved` was saved: the
saved data, if any, mapped at `loadAddr`. -/
def params (saved : List UInt8) : RomstageParams :=
  ⟨b.powerState, some b.header, if saved = [] then 0 else b.loadAddr, 0, 0⟩

/-- One boot: what `raminit` does, and the saved data the next boot finds. -/
def boot (saved : List UInt8) : Boot RomstageParams × List UInt8 :=
  let r := raminit cfg b.env (some (b.params saved))
  (r, match r.outcome with
    | .ret p => saveBytes b.mem p.dataToSave p.dataToSaveSize
    | .halt _ => saved)

/-- `raminit` returns on this boot: every check passed. -/
def Returns (saved : List UInt8) : Prop :=
  ∃ p, (raminit cfg b.env (some (b.params saved))).outcome = .ret p

/-- The NVS window of this boot: the `HobLength` rounded up to 16 bytes from
the payload of the non-volatile-storage HOB FSP hands back, if it does. -/
def nvsWindow (saved : List UInt8) : List UInt8 :=
  match b.env.hobs.getGuidHob .fspNonVolatileStorage (memoryInitResult b.env (b.params saved) b.header).2 with
  | some mrc_hob => saveBytes b.mem (getGuidHobData mrc_hob) (alignUp (getHobLength mrc_hob) 16)
  | none => []

/-- A boot whose `raminit` returns saves its NVS window. -/
theorem boot_of_returns {saved : List UInt8} {p : RomstageParams}
    (h : (raminit cfg b.env (some (b.params saved))).outcome = .ret p) :
    (b.boot cfg saved).2 = b.nvsWindow saved := by
  have hp := raminit_saves_nvs_hob rfl h
  simp only [boot, h, nvsWindow]
  split at hp <;> rename_i heq <;> simp [heq, hp.1, hp.2, saveBytes]

/-- A boot that halts leaves the saved data as it was. -/
theorem boot_of_halts {saved : List UInt8} (h : ¬b.Returns cfg saved) : (b.boot cfg saved).2 = saved := by
  cases hr : (raminit cfg b.env (some (b.params saved))).outcome with
  | ret p => exact absurd ⟨p, hr⟩ h
  | halt _ => simp only [boot, hr]

/-- A boot whose `raminit` returns had a HOB list that passed every check. -/
theorem checks_pass_of_returns {saved : List UInt8} (h : b.Returns cfg saved) :
    failedChecks (HobAnswers.of b.env (b.params saved) (memoryInitResult b.env (b.params saved) b.header).2) = [] := by
  obtain ⟨p, hp⟩ := h
  rw [raminit_eq cfg b.env rfl] at hp
  obtain ⟨ptr, hc, hv⟩ := Boot.bind_ret_iff.1 hp
  obtain ⟨u, hv, -⟩ := Boot.bind_ret_iff.1 hv
  obtain ⟨-, -, -, rfl⟩ := callFspMemoryInit_ret_iff.1 hc
  exact (verifyHobs_ret_iff.1 hv).2.2

/-- The boot mode and NVS buffer FSP is handed on a boot where `saved` was
saved. -/
theorem memoryInitParams_params (saved : List UInt8) :
    let call := memoryInitParams b.env (b.params saved) b.header
    call.bootMode = (if b.powerState = some acpiS3 then .bootOnS3Resume
        else if saved = [] then .bootWithFullConfiguration else .bootAssumingNoConfigurationChanges) ∧
    call.nvsBufferPtr = if saved = [] then 0 else b.loadAddr := by
  by_cases hs : saved = [] <;>
    simp [memoryInitParams, params, bootMode, RomstageParams.s3wake, hs, b.loadAddr_ne_zero]

end BootEnv

/-- The saved data after a run of boots that started with `saved`. -/
def savedAfter (cfg : Config) (saved : List UInt8) (bs : List BootEnv) : List UInt8 :=
  bs.foldl (fun s b => (b.boot cfg s).2) saved

@[simp] theorem savedAfter_nil (cfg : Config) (saved : List UInt8) : savedAfter cfg saved [] = saved := rfl

theorem savedAfter_append_singleton (cfg : Config) (saved : List UInt8) (bs : List BootEnv) (b : BootEnv) :
    savedAfter cfg saved (bs ++ [b]) = (b.boot cfg (savedAfter cfg saved bs)).2 :=
  List.foldl_append _ _ _ _

/-- **Run lemma.**  After any run of boots the saved data is what the run
started with, every boot having halted; or it is the NVS window of the last
boot whose `raminit` returned, every boot after it having halted. -/
theorem saved_after_boots (cfg : Config) (s0 : List UInt8) (bs : List BootEnv) :
    (savedAfter cfg s0 bs = s0 ∧ ∀ b ∈ bs, ¬b.Returns cfg s0) ∨
    ∃ pre b post, bs = pre ++ b :: post ∧ b.Returns cfg (savedAfter cfg s0 pre) ∧
      savedAfter cfg s0 bs = b.nvsWindow (savedAfter cfg s0 pre) ∧
      ∀ b' ∈ post, ¬b'.Returns cfg (savedAfter cfg s0 bs) := by
  induction bs using List.reverseRecOn with
  | nil => exact .inl ⟨rfl, by simp⟩
  | append_singleton bs b ih =>
    rw [savedAfter_append_singleton]
    by_cases hr : b.Returns cfg (savedAfter cfg s0 bs)
    · obtain ⟨p, hp⟩ := hr
      exact .inr ⟨bs, b, [], rfl, ⟨p, hp⟩, b.boot_of_returns cfg hp, by simp⟩
    rw [b.boot_of_halts cfg hr]
    rcases ih with ⟨hs, hall⟩ | ⟨pre, b', post, rfl, hret, hs, hpost⟩
    · refine .inl ⟨hs, fun b' hb' => ?_⟩
      rcases List.mem_append.1 hb' with hb' | hb'
      exacts [hall b' hb', List.mem_singleton.1 hb' ▸ hs ▸ hr]
    · refine .inr ⟨pre, b', post ++ [b], by simp, hret, hs, fun b'' hb'' => ?_⟩
      rcases List.mem_append.1 hb'' with hb'' | hb''
      exacts [hpost b'' hb'', List.mem_singleton.1 hb'' ▸ hr]

/-- **The reboot cycle.**  On the boot `b` after any run of boots, FSP is
asked to resume from S3 on an S3 wake, for no configuration change (with
`NvsBufferPtr` the mapped saved data) exactly when saved data is there, and
for full configuration (with `NvsBufferPtr` `NULL`) otherwise.  The saved data
is the run's initial data if every boot of the run halted; otherwise it is the
NVS window of the last boot whose `raminit` returned, a boot whose HOB list
passed every check, and every boot after that one halted.  So training data
reaches FSP only from a boot whose HOB list passed every check, and a
returning boot without an NVS HOB sends the next boot back to full
configuration. -/
theorem reboot_cycle (cfg : Config) (s0 : List UInt8) (bs : List BootEnv) (b : BootEnv) :
    let saved := savedAfter cfg s0 bs
    let call := memoryInitParams b.env (b.params saved) b.header
    (call.bootMode = (if b.powerState = some acpiS3 then .bootOnS3Resume
        else if saved = [] then .bootWithFullConfiguration else .bootAssumingNoConfigurationChanges) ∧
      call.nvsBufferPtr = if saved = [] then 0 else b.loadAddr) ∧
    ((saved = s0 ∧ ∀ b' ∈ bs, ¬b'.Returns cfg s0) ∨
      ∃ pre b' post, bs = pre ++ b' :: post ∧ b'.Returns cfg (savedAfter cfg s0 pre) ∧
        failedChecks (HobAnswers.of b'.env (b'.params (savedAfter cfg s0 pre))
          (memoryInitResult b'.env (b'.params (savedAfter cfg s0 pre)) b'.header).2) = [] ∧
        saved = b'.nvsWindow (savedAfter cfg s0 pre) ∧ ∀ b'' ∈ post, ¬b''.Returns cfg saved) := by
  refine ⟨b.memoryInitParams_params _, (saved_after_boots cfg s0 bs).imp_right ?_⟩
  rintro ⟨pre, b', post, hbs, hret, hs, hpost⟩
  exact ⟨pre, b', post, hbs, hret, b'.checks_pass_of_returns cfg hret, hs, hpost⟩

end Fsp
