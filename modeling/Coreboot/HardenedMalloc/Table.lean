import Mathlib.Data.BitVec
import Mathlib.Data.List.Perm.Basic

/-!
# `hardened_malloc`: the tracking table

`src/lib/hardened_malloc.c` wraps the platform allocator.  `hardened_malloc`
asks it for `CANARY_SIZE` bytes more than the caller wants, writes the canary
right after the caller's bytes and records the block in the first slot of the
fixed table `alloc_table` whose `user_ptr` is `NULL`.  `hardened_free` looks a
pointer up in the table, checks the canary at `ptr + size`, hands the block
back and clears the slot; a pointer it does not find is reported and kept.

The platform allocator and the memory are not part of the program: what the
two functions do to them is returned as a list of `Effect`s, and the answer of
the platform `malloc` and the canary word read back are arguments.  `size_t`
and pointers are `w`-bit words, so `size + CANARY_SIZE` wraps as in C.

The loops over the table are `track` and `untrack`; each has one lemma that
says where it acts (`track_eq_of_free_slot`, `untrack_eq_some`), and the rest
of the development uses only those.
-/

namespace HardenedMalloc

variable {w : Nat}

/-- The null pointer. -/
def NULL : BitVec w := 0#w

/-- `MAX_HARDENED_ALLOCATIONS`. -/
def maxHardenedAllocations : Nat := 128

/-- `CANARY_SIZE`, that is `sizeof(uint32_t)`. -/
def canarySize (w : Nat) : BitVec w := BitVec.ofNat w 4

/-- `CANARY_VALUE`. -/
def canaryValue : BitVec 32 := 0xBADC0DE#32

/-- `alloc_entry_t`: a block handed out and the size its caller asked for.
A slot whose `userPtr` is `NULL` is free. -/
structure AllocEntry (w : Nat) where
  userPtr : BitVec w
  size : BitVec w
deriving DecidableEq, Repr

/-- The cleared slot `{NULL, 0}`. -/
def AllocEntry.empty : AllocEntry w := ⟨NULL, 0⟩

/-- A slot that holds a block. -/
def AllocEntry.used (e : AllocEntry w) : Bool := e.userPtr != NULL

/-- The static `alloc_table`, all slots free. -/
def initTable : List (AllocEntry w) := List.replicate maxHardenedAllocations .empty

/-- What a call does outside the table, in program order. -/
inductive Effect (w : Nat)
  /-- The platform `malloc(size)` was called and answered `ret`. -/
  | malloc (size ret : BitVec w)
  /-- `write_canary` stored `CANARY_VALUE` at `addr`. -/
  | writeCanary (addr : BitVec w)
  /-- `check_canary` read the word at `addr`. -/
  | checkCanary (addr : BitVec w)
  /-- The platform `free(ptr)` was called. -/
  | free (ptr : BitVec w)
  /-- A `BIOS_ERR` console line. -/
  | printk (msg : String)
deriving DecidableEq, Repr

/-- The tracking loop of `hardened_malloc`: the first free slot takes the
block; a full table is left as it is. -/
def track (p s : BitVec w) : List (AllocEntry w) → List (AllocEntry w)
  | [] => []
  | e :: t => if e.userPtr = NULL then ⟨p, s⟩ :: t else e :: track p s t

/-- The lookup loop of `hardened_free`: the size stored in the first slot
holding `ptr`, and the table with that slot cleared. -/
def untrack (ptr : BitVec w) : List (AllocEntry w) → Option (BitVec w × List (AllocEntry w))
  | [] => none
  | e :: t =>
    if e.userPtr = ptr then some (e.size, .empty :: t)
    else (untrack ptr t).map fun r => (r.1, e :: r.2)

/-- `hardened_malloc(size)` when the platform `malloc` answers `ret`: the
pointer returned, the effects, and the new table. -/
def hardenedMalloc (table : List (AllocEntry w)) (size ret : BitVec w) :
    BitVec w × List (Effect w) × List (AllocEntry w) :=
  let total_size := size + canarySize w
  if ret = NULL then (NULL, [.malloc total_size ret], table)
  else (ret, [.malloc total_size ret, .writeCanary (ret + size)], track ret size table)

/-- Where a call's effects write the canary, if they do. -/
def canaryWritten : List (Effect w) → Option (BitVec w)
  | [] => none
  | .writeCanary a :: _ => some a
  | _ :: es => canaryWritten es

/-- What `hardened_malloc` asks of the platform and where it puts the canary. -/
theorem hardenedMalloc_effects (table : List (AllocEntry w)) (size : BitVec w) {ret : BitVec w}
    (hr : ret ≠ NULL) :
    (hardenedMalloc table size ret).2.1 = [.malloc (size + canarySize w) ret, .writeCanary (ret + size)] := by
  simp [hardenedMalloc, hr]

/-- A successful `hardened_malloc` writes the canary right after the caller's
`size` bytes. -/
theorem canaryWritten_hardenedMalloc (table : List (AllocEntry w)) (size : BitVec w) {ret : BitVec w}
    (hr : ret ≠ NULL) : canaryWritten (hardenedMalloc table size ret).2.1 = some (ret + size) := by
  rw [hardenedMalloc_effects table size hr]; rfl

/-- The platform block is asked for at least `size + CANARY_SIZE` bytes exactly
when that sum stays below `2^w`; past it the request wraps around. -/
theorem total_size_covers_iff (size : BitVec w) :
    size.toNat + 4 ≤ (size + canarySize w).toNat ↔ size.toNat + 4 < 2 ^ w := by
  rw [BitVec.toNat_add, canarySize, BitVec.toNat_ofNat]
  constructor
  · exact fun h => lt_of_le_of_lt h (Nat.mod_lt _ (Nat.two_pow_pos w))
  · intro h
    rw [Nat.mod_eq_of_lt (show 4 < 2 ^ w by omega), Nat.mod_eq_of_lt h]

/-- `hardened_malloc(SIZE_MAX)` on a 64-bit target: the platform is asked for
3 bytes and the canary is written one byte before the block it returned. -/
theorem hardenedMalloc_size_max_wraps :
    (hardenedMalloc (initTable : List (AllocEntry 64)) (BitVec.ofNat 64 (2 ^ 64 - 1)) 0x1000#64).2.1 =
      [.malloc 3#64 0x1000#64, .writeCanary 0xFFF#64] := by
  decide

/-- `check_canary(ptr)` when the word stored at `ptr` is `mem ptr`. -/
def checkCanary (mem : BitVec w → BitVec 32) (ptr : BitVec w) : List (Effect w) :=
  .checkCanary ptr ::
    if mem ptr ≠ canaryValue then [.printk "hardened_malloc: buffer overflow detected!\n"]
    else []

/-- `hardened_free(ptr)` against the memory `mem`: the effects and the new
table. -/
def hardenedFree (mem : BitVec w → BitVec 32) (table : List (AllocEntry w)) (ptr : BitVec w) :
    List (Effect w) × List (AllocEntry w) :=
  if ptr = NULL then ([], table)
  else match untrack ptr table with
    | some (size, table') => (checkCanary mem (ptr + size) ++ [.free ptr], table')
    | none => ([.printk "hardened_free: unknown pointer!\n"], table)

/-! ## The two loops -/

/-- A table has a free slot. -/
def hasFreeSlot (table : List (AllocEntry w)) : Bool := table.any fun e => e.userPtr = NULL

theorem track_length (p s : BitVec w) (t : List (AllocEntry w)) :
    (track p s t).length = t.length := by
  induction t with
  | nil => rfl
  | cons e t ih => by_cases h : e.userPtr = NULL <;> simp [track, h, ih]

/-- A full table is left alone. -/
theorem track_eq_self (p s : BitVec w) (t : List (AllocEntry w)) (h : hasFreeSlot t = false) :
    track p s t = t := by
  induction t with
  | nil => rfl
  | cons e t ih =>
    simp only [hasFreeSlot, List.any_cons, Bool.or_eq_false_iff, decide_eq_false_iff_not] at h
    simp [track, h.1, ih h.2]

/-- The block lands in the first free slot. -/
theorem track_eq_of_free_slot (p s : BitVec w) (t : List (AllocEntry w)) (h : hasFreeSlot t = true) :
    ∃ l r e, t = l ++ e :: r ∧ e.userPtr = NULL ∧ (∀ x ∈ l, x.userPtr ≠ NULL) ∧
      track p s t = l ++ ⟨p, s⟩ :: r := by
  induction t with
  | nil => simp [hasFreeSlot] at h
  | cons e t ih =>
    by_cases he : e.userPtr = NULL
    · exact ⟨[], t, e, rfl, he, by simp, by simp [track, he]⟩
    · have ht : hasFreeSlot t = true := by simpa [hasFreeSlot, he] using h
      obtain ⟨l, r, x, rfl, hx, hl, htr⟩ := ih ht
      refine ⟨e :: l, r, x, rfl, hx, ?_, by simp [track, he, htr]⟩
      simpa [he] using hl

/-- `untrack` clears the first slot holding the pointer and returns its size. -/
theorem untrack_eq_some {ptr s : BitVec w} {t t' : List (AllocEntry w)}
    (h : untrack ptr t = some (s, t')) :
    ∃ l r, t = l ++ ⟨ptr, s⟩ :: r ∧ (∀ x ∈ l, x.userPtr ≠ ptr) ∧ t' = l ++ .empty :: r := by
  induction t generalizing t' with
  | nil => simp [untrack] at h
  | cons e t ih =>
    by_cases he : e.userPtr = ptr
    · simp only [untrack, he, if_true, Option.some.injEq, Prod.mk.injEq] at h
      obtain ⟨rfl, rfl⟩ := h
      exact ⟨[], t, by cases e; simp_all, by simp, rfl⟩
    · simp only [untrack, he, if_false, Option.map_eq_some'] at h
      obtain ⟨⟨s', t''⟩, hr, heq⟩ := h
      simp only [Prod.mk.injEq] at heq
      obtain ⟨rfl, rfl⟩ := heq
      obtain ⟨l, r, rfl, hl, rfl⟩ := ih hr
      exact ⟨e :: l, r, rfl, by simpa [he] using hl, rfl⟩

end HardenedMalloc
