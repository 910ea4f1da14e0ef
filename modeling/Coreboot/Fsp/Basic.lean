import Mathlib.Logic.Basic

/-!
# Boot steps that may stop the platform

Romstage and ramstage code either returns to its caller or stops the
platform: `die_with_post_code` halts with a POST code and a message, and
`full_reset` resets.  A `Boot α` is such a step: what it did that can be seen
from outside, in order (its `BIOS_ERR` console lines and its calls into the
FSP binary and the HOB list), and how it ended.  The trace survives a halt, so
one can ask which diagnostics and calls came before it.

Debug and spew output, timestamps and POST codes written on the way are not
modelled.
-/

namespace Fsp

/-- The POST codes the FSP 1.1 driver stops with. -/
inductive PostCode
  /-- `POSTCODE_RAM_FAILURE`. -/
  | ramFailure
  /-- `POSTCODE_INVALID_VENDOR_BINARY`. -/
  | invalidVendorBinary
deriving DecidableEq, Repr

/-- How the platform stops. -/
inductive Halt
  /-- `die_with_post_code(code, msg)`. -/
  | die (code : PostCode) (msg : String)
  /-- `full_reset()`. -/
  | fullReset
deriving DecidableEq, Repr

/-- The HOB GUIDs the driver looks for. -/
inductive HobGuid
  /-- `FSP_BOOTLOADER_TOLUM_HOB_GUID`. -/
  | fspBootloaderTolum
  /-- `FSP_RESERVED_MEMORY_RESOURCE_HOB_GUID`. -/
  | fspReservedMemoryResource
  /-- `FSP_SMBIOS_MEMORY_INFO_GUID`. -/
  | fspSmbiosMemoryInfo
  /-- `FSP_NON_VOLATILE_STORAGE_HOB_GUID`. -/
  | fspNonVolatileStorage
  /-- `EFI_PEI_GRAPHICS_INFO_HOB_GUID`. -/
  | efiPeiGraphicsInfo
deriving DecidableEq, Repr

/-- The two FSP 1.1 entry points. -/
inductive FspApi
  | fspMemoryInit
  | fspSiliconInit
deriving DecidableEq, Repr

/-- What a step does that can be seen from outside. -/
inductive Event
  /-- A `BIOS_ERR` console line. -/
  | printk (msg : String)
  /-- A call of an FSP entry point. -/
  | callFsp (api : FspApi)
  /-- A lookup of a HOB by GUID in the HOB list. -/
  | getHob (guid : HobGuid)
  /-- `fb_add_framebuffer_info(base, x, y, stride, bpp)`. -/
  | fbAddFramebufferInfo (base x y stride bpp : Nat)
deriving DecidableEq, Repr

/-- How a step ends: it returns `a` to its caller, or the platform stops. -/
inductive Outcome (α : Type)
  | ret (a : α)
  | halt (h : Halt)
deriving DecidableEq, Repr

/-- A boot step: what it did and how it ended. -/
structure Boot (α : Type) where
  trace : List Event
  outcome : Outcome α
deriving DecidableEq, Repr

namespace Boot

variable {α β : Type}

instance : Monad Boot where
  pure a := ⟨[], .ret a⟩
  bind x f := match x.outcome with
    | .ret a => ⟨x.trace ++ (f a).trace, (f a).outcome⟩
    | .halt h => ⟨x.trace, .halt h⟩

/-- `printk(BIOS_ERR, msg)`. -/
def printk (msg : String) : Boot Unit := ⟨[.printk msg], .ret ()⟩

/-- A step that does `e` and returns `a`. -/
def emit (e : Event) (a : α) : Boot α := ⟨[e], .ret a⟩

/-- `die_with_post_code(code, msg)`. -/
def dieWithPostCode (code : PostCode) (msg : String) : Boot α := ⟨[], .halt (.die code msg)⟩

/-- `full_reset()`. -/
def fullReset : Boot α := ⟨[], .halt .fullReset⟩

/-- Stop with `h` when `cond` holds. -/
def haltIf (cond : Prop) [Decidable cond] (h : Halt) : Boot Unit :=
  if cond then ⟨[], .halt h⟩ else pure ()

/-- `if (cond) die_with_post_code(code, msg);` -/
def dieIf (cond : Prop) [Decidable cond] (code : PostCode) (msg : String) : Boot Unit :=
  haltIf cond (.die code msg)

/-- `if (cond) printk(BIOS_ERR, msg);` -/
def printkIf (cond : Bool) (msg : String) : Boot Unit := if cond then printk msg else pure ()

@[simp] theorem pure_trace (a : α) : (pure a : Boot α).trace = [] := rfl
@[simp] theorem pure_outcome (a : α) : (pure a : Boot α).outcome = .ret a := rfl
@[simp] theorem printk_trace (msg : String) : (printk msg).trace = [.printk msg] := rfl
@[simp] theorem printk_outcome (msg : String) : (printk msg).outcome = .ret () := rfl
@[simp] theorem emit_trace (e : Event) (a : α) : (emit e a).trace = [e] := rfl
@[simp] theorem emit_outcome (e : Event) (a : α) : (emit e a).outcome = .ret a := rfl
@[simp] theorem die_trace (c : PostCode) (m : String) : (dieWithPostCode c m : Boot α).trace = [] := rfl
@[simp] theorem die_outcome (c : PostCode) (m : String) :
    (dieWithPostCode c m : Boot α).outcome = .halt (.die c m) := rfl
@[simp] theorem fullReset_trace : (fullReset : Boot α).trace = [] := rfl
@[simp] theorem fullReset_outcome : (fullReset : Boot α).outcome = .halt .fullReset := rfl

/-- A step that returned hands on to the next. -/
@[simp] theorem bind_of_ret {x : Boot α} {a : α} (h : x.outcome = .ret a) (f : α → Boot β) :
    x >>= f = ⟨x.trace ++ (f a).trace, (f a).outcome⟩ := by
  show (match x.outcome with | .ret a => _ | .halt h => _) = _
  rw [h]

/-- A step that stopped the platform is the last. -/
@[simp] theorem bind_of_halt {x : Boot α} {h : Halt} (hx : x.outcome = .halt h) (f : α → Boot β) :
    x >>= f = ⟨x.trace, .halt h⟩ := by
  show (match x.outcome with | .ret a => _ | .halt h => _) = _
  rw [hx]

/-- A guarded halt either stops here or hands on. -/
@[simp] theorem haltIf_bind (cond : Prop) [Decidable cond] (h : Halt) (f : Unit → Boot β) :
    haltIf cond h >>= f = if cond then ⟨[], .halt h⟩ else f () := by
  by_cases hc : cond
  · simp [haltIf, hc]
  · simp only [haltIf, hc, if_false]
    exact (bind_of_ret rfl f).trans (by cases f (); rfl)

@[simp] theorem haltIf_outcome (cond : Prop) [Decidable cond] (h : Halt) :
    (haltIf cond h).outcome = if cond then .halt h else .ret () := by
  by_cases hc : cond <;> simp [haltIf, hc]

@[simp] theorem ite_outcome (c : Prop) [Decidable c] (x y : Boot α) :
    (if c then x else y).outcome = if c then x.outcome else y.outcome := apply_ite _ _ _ _

@[simp] theorem ite_trace (c : Prop) [Decidable c] (x y : Boot α) :
    (if c then x else y).trace = if c then x.trace else y.trace := apply_ite _ _ _ _

@[simp] theorem dieIf_eq (cond : Prop) [Decidable cond] (code : PostCode) (msg : String) :
    dieIf cond code msg = haltIf cond (.die code msg) := rfl

@[simp] theorem printkIf_bind (cond : Bool) (msg : String) (f : Unit → Boot β) :
    printkIf cond msg >>= f =
      ⟨(if cond then [.printk msg] else []) ++ (f ()).trace, (f ()).outcome⟩ := by
  cases cond <;> simp [printkIf, bind_of_ret]

@[simp] theorem printkIf_outcome (cond : Bool) (msg : String) : (printkIf cond msg).outcome = .ret () := by
  cases cond <;> rfl

@[simp] theorem printkIf_trace (cond : Bool) (msg : String) :
    (printkIf cond msg).trace = if cond then [.printk msg] else [] := by
  cases cond <;> rfl

@[simp] theorem emit_bind (e : Event) (a : α) (f : α → Boot β) :
    emit e a >>= f = ⟨e :: (f a).trace, (f a).outcome⟩ := bind_of_ret rfl f

theorem outcome_bind (x : Boot α) (f : α → Boot β) :
    (x >>= f).outcome = match x.outcome with | .ret a => (f a).outcome | .halt h => .halt h := by
  cases hx : x.outcome with
  | ret a => simp [bind_of_ret hx]
  | halt h => simp [bind_of_halt hx]

/-- Whatever the first step did is in the trace of the sequence. -/
theorem mem_trace_bind_left {x : Boot α} {f : α → Boot β} {e : Event} (h : e ∈ x.trace) :
    e ∈ (x >>= f).trace := by
  cases hx : x.outcome with
  | ret a => simp [bind_of_ret hx, h]
  | halt h' => simp [bind_of_halt hx, h]

/-- What the second step did is in the trace once the first returned. -/
theorem mem_trace_bind_right {x : Boot α} {f : α → Boot β} {a : α} {e : Event} (hx : x.outcome = .ret a)
    (h : e ∈ (f a).trace) : e ∈ (x >>= f).trace := by
  simp [bind_of_ret hx, h]

/-- A sequence returns exactly when both of its steps do. -/
theorem bind_ret_iff {x : Boot α} {f : α → Boot β} {b : β} :
    (x >>= f).outcome = .ret b ↔ ∃ a, x.outcome = .ret a ∧ (f a).outcome = .ret b := by
  cases hx : x.outcome with
  | ret a => simp [bind_of_ret hx]
  | halt h => simp [bind_of_halt hx]

end Boot

end Fsp
