import Coreboot.HardenedMalloc.Table
import Mathlib.Logic.Relation

/-!
# `hardened_malloc`: every run keeps the table honest

A `World` is the table together with the platform allocator's live blocks.
Each live block remembers, as ghost data, the size argument of the
`hardened_malloc` call that obtained it, the address that call's effects wrote
the canary at, and whether the call found a free slot.  A run is any sequence
of `hardened_malloc` and `hardened_free` calls from the empty table, where the
platform `malloc` answers `NULL` or a block that is not live (`Call.Fresh`).

The invariant `Inv` says that the used slots are, up to order, exactly the
tracked live blocks, and that each live block's canary sits right after its
caller's bytes.  From it:

* `hardened_free_safe` — used slots hold distinct live pointers with their
  callers' sizes, `hardened_free` reads the canary exactly where
  `hardened_malloc` wrote it, frees only live blocks, and ignores pointers it
  does not hold;
* `untracked_blocks_leak` — a fresh block is recorded exactly when fewer than
  `MAX_HARDENED_ALLOCATIONS` slots are in use, and a block that was not
  recorded stays live and unrecorded for the rest of the run: every
  `hardened_free` of it reports an unknown pointer and frees nothing;
* `alloc_table_is_tracked_blocks` — the invariant itself, in every world a run
  reaches.
-/

namespace HardenedMalloc

variable {w : Nat}

/-- A block of the platform allocator obtained through `hardened_malloc`: its
address, the size argument of that call, the address that call wrote the
canary at, and whether the call found a slot. -/
structure Block (w : Nat) where
  ptr : BitVec w
  size : BitVec w
  canary : Option (BitVec w)
  tracked : Bool
deriving DecidableEq, Repr

/-- The slot a tracked block is recorded in. -/
def Block.entry (b : Block w) : AllocEntry w := ⟨b.ptr, b.size⟩

/-- The table and the platform allocator's live blocks. -/
structure World (w : Nat) where
  table : List (AllocEntry w)
  live : List (Block w)

/-- Boot: all slots free, nothing allocated. -/
def World.init : World w := ⟨initTable, []⟩

/-- A call of the API: `hardened_malloc(size)` while the platform `malloc`
answers `ret`, or `hardened_free(ptr)` while memory holds `mem`. -/
inductive Call (w : Nat)
  | malloc (size ret : BitVec w)
  | free (ptr : BitVec w) (mem : BitVec w → BitVec 32)

/-- One call: the table as the code leaves it; the platform allocator gains
the block `malloc` answered, remembering where the call's effects put the
canary, and loses every block passed to its `free`. -/
def World.step (W : World w) : Call w → World w
  | .malloc size ret =>
    { table := (hardenedMalloc W.table size ret).2.2
      live := if ret = NULL then W.live
        else ⟨ret, size, canaryWritten (hardenedMalloc W.table size ret).2.1, hasFreeSlot W.table⟩ :: W.live }
  | .free ptr mem =>
    { table := (hardenedFree mem W.table ptr).2
      live := W.live.filter fun b => Effect.free b.ptr ∉ (hardenedFree mem W.table ptr).1 }

/-- The platform `malloc` answers `NULL` or a block that is not live. -/
def Call.Fresh (W : World w) : Call w → Prop
  | .malloc _ ret => ret = NULL ∨ ret ∉ W.live.map Block.ptr
  | .free _ _ => True

/-- The worlds some run reaches. -/
inductive Reachable : World w → Prop
  | init : Reachable World.init
  | step {W : World w} (c : Call w) : Reachable W → c.Fresh W → Reachable (W.step c)

/-- One call of a run: `W'` is `W` after a call answered as `Call.Fresh` asks. -/
def Step (W W' : World w) : Prop := ∃ c : Call w, c.Fresh W ∧ W' = W.step c

/-- The used slots of a table. -/
def used (t : List (AllocEntry w)) : List (AllocEntry w) := t.filter AllocEntry.used

/-! ## What one call of `hardened_free` does -/

theorem not_free_mem_checkCanary (mem : BitVec w → BitVec 32) (a q : BitVec w) :
    Effect.free q ∉ checkCanary mem a := by
  unfold checkCanary; split <;> simp

/-- A successful `hardened_free` passes only `ptr` to the platform `free`. -/
theorem free_mem_iff {mem : BitVec w → BitVec 32} {ptr a q : BitVec w} :
    Effect.free q ∈ checkCanary mem a ++ [.free ptr] ↔ q = ptr := by
  simp [not_free_mem_checkCanary]

/-- The three ways `hardened_free` can go. -/
theorem hardenedFree_cases (mem : BitVec w → BitVec 32) (t : List (AllocEntry w)) (ptr : BitVec w) :
    (ptr = NULL ∧ hardenedFree mem t ptr = ([], t)) ∨
    (ptr ≠ NULL ∧ untrack ptr t = none ∧
      hardenedFree mem t ptr = ([.printk "hardened_free: unknown pointer!\n"], t)) ∨
    (∃ s t', ptr ≠ NULL ∧ untrack ptr t = some (s, t') ∧
      hardenedFree mem t ptr = (checkCanary mem (ptr + s) ++ [.free ptr], t')) := by
  by_cases hp : ptr = NULL
  · exact .inl ⟨hp, by simp [hardenedFree, hp]⟩
  · cases hu : untrack ptr t with
    | none => exact .inr (.inl ⟨hp, rfl, by simp [hardenedFree, hp, hu]⟩)
    | some r => exact .inr (.inr ⟨r.1, r.2, hp, rfl, by simp [hardenedFree, hp, hu]⟩)

/-- A table has a free slot exactly when fewer of its slots are used than it
has. -/
theorem hasFreeSlot_iff (t : List (AllocEntry w)) :
    hasFreeSlot t = true ↔ (used t).length < t.length := by
  rw [used, List.length_filter_lt_length_iff_exists]
  simp [hasFreeSlot, AllocEntry.used]

/-! ## The invariant -/

/-- **The table invariant.**  The used slots are, up to order, the tracked
live blocks; live blocks are distinct, not `NULL`, and carry their canary
right after their caller's bytes. -/
structure Inv (W : World w) : Prop where
  length : W.table.length = maxHardenedAllocations
  live_nodup : (W.live.map Block.ptr).Nodup
  live_ne_null : ∀ b ∈ W.live, b.ptr ≠ NULL
  canary_at : ∀ b ∈ W.live, b.canary = some (b.ptr + b.size)
  used_perm : List.Perm (used W.table) ((W.live.filter Block.tracked).map Block.entry)

theorem used_append (l r : List (AllocEntry w)) : used (l ++ r) = used l ++ used r :=
  List.filter_append _ _

theorem used_cons_of_ne {e : AllocEntry w} (t : List (AllocEntry w)) (h : e.userPtr ≠ NULL) :
    used (e :: t) = e :: used t := by
  simp [used, AllocEntry.used, h]

theorem used_cons_of_eq {e : AllocEntry w} (t : List (AllocEntry w)) (h : e.userPtr = NULL) :
    used (e :: t) = used t := by
  simp [used, AllocEntry.used, h]

namespace Inv

variable {W : World w}

/-- Used slots hold pairwise distinct pointers. -/
theorem used_nodup (hi : Inv W) : ((used W.table).map AllocEntry.userPtr).Nodup := by
  rw [(hi.used_perm.map _).nodup_iff, List.map_map]
  exact (hi.live_nodup.sublist ((List.filter_sublist _).map _))

/-- A used slot records a tracked live block. -/
theorem live_of_used (hi : Inv W) {e : AllocEntry w} (he : e ∈ W.table) (hn : e.userPtr ≠ NULL) :
    ∃ b ∈ W.live, b.tracked ∧ b.entry = e := by
  have : e ∈ used W.table := by simp [used, AllocEntry.used, he, hn]
  simpa [and_assoc] using hi.used_perm.subset this

/-- No slot holds a live block that was not recorded. -/
theorem untracked_not_in_table (hi : Inv W) {b : Block w} (hb : b ∈ W.live) (ht : b.tracked = false) :
    ∀ x ∈ W.table, x.userPtr ≠ b.ptr := by
  intro x hx hxp
  obtain ⟨b', hb', ht', hbe⟩ := hi.live_of_used hx (hxp ▸ hi.live_ne_null b hb)
  have : b' = b := List.inj_on_of_nodup_map hi.live_nodup hb' hb (by rw [← hxp, ← hbe]; rfl)
  exact absurd (this ▸ ht') (by simp [ht])

/-- The slot `untrack` clears is the only one holding the pointer. -/
theorem untrack_only (hi : Inv W) {ptr s : BitVec w} {t' : List (AllocEntry w)}
    (hu : untrack ptr W.table = some (s, t')) (hp : ptr ≠ NULL) :
    ∃ l r, W.table = l ++ ⟨ptr, s⟩ :: r ∧ (∀ x ∈ l, x.userPtr ≠ ptr) ∧
      (∀ x ∈ r, x.userPtr ≠ ptr) ∧ t' = l ++ .empty :: r := by
  obtain ⟨l, r, hlr, hl, rfl⟩ := untrack_eq_some hu
  refine ⟨l, r, hlr, hl, fun x hx hxp => ?_, rfl⟩
  have hnd := hi.used_nodup
  rw [hlr, used_append, used_cons_of_ne _ hp] at hnd
  simp only [List.map_append, List.map_cons, List.nodup_append, List.nodup_cons] at hnd
  exact hnd.2.1.1 (hxp ▸ List.mem_map_of_mem _ (by simp [used, AllocEntry.used, hx, hxp, hp]))

/-! ## Every call keeps it -/

theorem init : Inv (World.init : World w) where
  length := by simp [World.init, initTable]
  live_nodup := by simp [World.init]
  live_ne_null := by simp [World.init]
  canary_at := by simp [World.init]
  used_perm := by
    simp [World.init, initTable, used, AllocEntry.used, AllocEntry.empty, List.filter_replicate]

/-- `hardened_malloc` keeps the invariant when `malloc` answers a block that
is not live. -/
theorem malloc (hi : Inv W) (size : BitVec w) {ret : BitVec w} (hr : ret ≠ NULL)
    (hfresh : ret ∉ W.live.map Block.ptr) : Inv (W.step (.malloc size ret)) := by
  have hlive : (W.step (.malloc size ret)).live =
      ⟨ret, size, some (ret + size), hasFreeSlot W.table⟩ :: W.live := by
    simp only [World.step, hr, if_false, canaryWritten_hardenedMalloc _ _ hr]
  have htable : (W.step (.malloc size ret)).table = track ret size W.table := by
    simp [World.step, hardenedMalloc, hr]
  refine ⟨?_, ?_, ?_, ?_, ?_⟩
  · rw [htable, track_length, hi.length]
  · rw [hlive, List.map_cons, List.nodup_cons]; exact ⟨hfresh, hi.live_nodup⟩
  · rw [hlive]; rintro b (_ | ⟨_, hb⟩); exacts [hr, hi.live_ne_null b hb]
  · rw [hlive]; rintro b (_ | ⟨_, hb⟩); exacts [rfl, hi.canary_at b hb]
  · rw [hlive, htable]
    cases hs : hasFreeSlot W.table with
    | false => simpa [track_eq_self _ _ _ hs] using hi.used_perm
    | true =>
      obtain ⟨l, r, e, hlr, he, -, htr⟩ := track_eq_of_free_slot ret size W.table hs
      have hp := hi.used_perm
      rw [hlr, used_append, used_cons_of_eq _ he] at hp
      rw [htr, used_append, used_cons_of_ne _ hr]
      simpa [Block.entry] using List.perm_middle.trans (hp.cons _)

/-- `hardened_free` keeps the invariant. -/
theorem free (hi : Inv W) (ptr : BitVec w) (mem : BitVec w → BitVec 32) :
    Inv (W.step (.free ptr mem)) := by
  rcases hardenedFree_cases mem W.table ptr with ⟨-, he⟩ | ⟨-, -, he⟩ | ⟨s, t', hp, hu, he⟩
  · simpa [World.step, he] using hi
  · simpa [World.step, he] using hi
  have hlive : (W.step (.free ptr mem)).live = W.live.filter fun b => b.ptr ≠ ptr := by
    simp only [World.step, he, free_mem_iff]
  obtain ⟨l, r, hlr, hl, hr, rfl⟩ := hi.untrack_only hu hp
  have htable : (W.step (.free ptr mem)).table = l ++ .empty :: r := by simp [World.step, he]
  have hsub : ((W.live.filter fun b => b.ptr ≠ ptr).map Block.ptr).Sublist (W.live.map Block.ptr) :=
    (List.filter_sublist _).map _
  refine ⟨?_, ?_, ?_, ?_, ?_⟩
  · rw [htable, ← hi.length, hlr]; simp
  · rw [hlive]; exact hi.live_nodup.sublist hsub
  · rw [hlive]; exact fun b hb => hi.live_ne_null b (List.mem_filter.1 hb).1
  · rw [hlive]; exact fun b hb => hi.canary_at b (List.mem_filter.1 hb).1
  · have hp' := hi.used_perm.filter fun e => e.userPtr ≠ ptr
    rw [hlr, used_append, used_cons_of_ne _ hp] at hp'
    have hl' : ∀ x ∈ used l, x.userPtr ≠ ptr := fun x hx => hl x (List.mem_filter.1 hx).1
    have hr' : ∀ x ∈ used r, x.userPtr ≠ ptr := fun x hx => hr x (List.mem_filter.1 hx).1
    rw [htable, hlive, used_append, used_cons_of_eq _ rfl]
    rw [List.filter_append, List.filter_cons_of_neg (by simp), List.filter_eq_self.2 (by simpa using hl'),
      List.filter_eq_self.2 (by simpa using hr'), List.filter_map, List.filter_filter] at hp'
    rw [List.filter_filter]
    convert hp' using 3
    funext b; simp [Block.entry, Bool.and_comm]

/-- Any call answered as `Call.Fresh` asks keeps the invariant. -/
theorem step (hi : Inv W) {c : Call w} (hc : c.Fresh W) : Inv (W.step c) := by
  cases c with
  | malloc size ret =>
    by_cases hr : ret = NULL
    · simpa [World.step, hardenedMalloc, hr] using hi
    · exact hi.malloc size hr (hc.resolve_left hr)
  | free ptr mem => exact hi.free ptr mem

end Inv

/-- **Run lemma.**  Every reachable world satisfies the invariant. -/
theorem Reachable.inv {W : World w} (h : Reachable W) : Inv W := by
  induction h with
  | init => exact Inv.init
  | step c _ hc ih => exact ih.step hc

/-- The worlds a reachable world runs on to are reachable. -/
theorem Reachable.of_reaches {W W' : World w} (hW : Reachable W) (h : Relation.ReflTransGen Step W W') :
    Reachable W' := by
  induction h with
  | refl => exact hW
  | tail _ hs ih => obtain ⟨c, hc, rfl⟩ := hs; exact ih.step c hc

/-- Allocations answered by distinct blocks that are not live extend a run. -/
theorem Reachable.mallocs {W : World w} (hW : Reachable W) (size : BitVec w) :
    ∀ rets : List (BitVec w), rets.Nodup → (∀ r ∈ rets, r ∉ W.live.map Block.ptr) →
      Reachable ((rets.map (Call.malloc size)).foldl World.step W)
  | [], _, _ => hW
  | r :: rets, hnd, hf => by
    refine (hW.step (.malloc size r) (.inr (hf r (.head _)))).mallocs size rets
      (List.nodup_cons.1 hnd).2 fun r' hr' hm => ?_
    have hne : r' ≠ r := fun h => (List.nodup_cons.1 hnd).1 (h ▸ hr')
    have hold := hf r' (.tail _ hr')
    by_cases h0 : r = NULL <;> simp_all [World.step]

/-! ## What every run guarantees -/

/-- The world after two allocations answered by `0x1000` and `0x2000`. -/
def twoMallocs : World 64 := ((World.init : World 64).step (.malloc 8#64 0x1000#64)).step (.malloc 16#64 0x2000#64)

theorem twoMallocs_reachable : Reachable twoMallocs :=
  (Reachable.init.step (.malloc 8#64 0x1000#64) (.inr (by simp [World.init]))).step
    (.malloc 16#64 0x2000#64) (.inr (by decide))

/-- The world after 129 allocations of 8 bytes answered by the blocks
`1, …, 129`, with no `hardened_free` in between. -/
def mallocs129 : World 64 :=
  (((List.range 129).map fun i => BitVec.ofNat 64 (i + 1)).map (Call.malloc 8#64)).foldl World.step World.init

set_option maxRecDepth 4000 in
/-- A run of 129 allocations answered by the blocks `1, …, 129`: the last
block is live and was never freed, but it is not in the table, and
`hardened_free` reports it as unknown and keeps it. -/
theorem untracked_129th_allocation :
    Reachable mallocs129 ∧ 129#64 ∈ mallocs129.live.map Block.ptr ∧
      (⟨129#64, 8#64⟩ : AllocEntry 64) ∉ mallocs129.table ∧
      hardenedFree (fun _ => canaryValue) mallocs129.table 129#64 =
        ([.printk "hardened_free: unknown pointer!\n"], mallocs129.table) :=
  have hnd : ((List.range 129).map fun i => BitVec.ofNat 64 (i + 1)).Nodup :=
    (List.nodup_range 129).map_on fun x hx y hy h => by
      have := congrArg BitVec.toNat h
      rw [List.mem_range] at hx hy
      simp only [BitVec.toNat_ofNat] at this
      rw [Nat.mod_eq_of_lt (by omega), Nat.mod_eq_of_lt (by omega)] at this
      omega
  ⟨Reachable.init.mallocs _ _ hnd (by simp [World.init]), by decide, by decide, by decide⟩

/-- An unrecorded live block is unknown to `hardened_free`. -/
theorem Inv.hardenedFree_untracked_block {W : World w} (hi : Inv W) {b : Block w} (hb : b ∈ W.live)
    (ht : b.tracked = false) (mem : BitVec w → BitVec 32) :
    hardenedFree mem W.table b.ptr = ([.printk "hardened_free: unknown pointer!\n"], W.table) := by
  rcases hardenedFree_cases mem W.table b.ptr with ⟨hn, -⟩ | ⟨-, -, he⟩ | ⟨s, t', -, hu, -⟩
  · exact absurd hn (hi.live_ne_null b hb)
  · exact he
  · obtain ⟨l, r, hlr, -, -⟩ := untrack_eq_some hu
    exact absurd rfl (hi.untracked_not_in_table hb ht ⟨b.ptr, s⟩ (by simp [hlr]))

/-- **Step lemma of the leak.**  An unrecorded live block is still live after
any call. -/
theorem Inv.untracked_stays {W : World w} (hi : Inv W) {b : Block w} (hb : b ∈ W.live)
    (ht : b.tracked = false) (c : Call w) : b ∈ (W.step c).live := by
  cases c with
  | malloc size ret => by_cases hr : ret = NULL <;> simp [World.step, hr, hb]
  | free ptr mem =>
    refine List.mem_filter.2 ⟨hb, decide_eq_true fun hf => ?_⟩
    rcases hardenedFree_cases mem W.table ptr with ⟨-, he⟩ | ⟨-, -, he⟩ | ⟨s, t', -, hu, he⟩
    · simp [he] at hf
    · simp [he] at hf
    · rw [he, free_mem_iff] at hf
      obtain ⟨l, r, hlr, -, -⟩ := untrack_eq_some hu
      exact hi.untracked_not_in_table hb ht ⟨ptr, s⟩ (by simp [hlr]) hf.symm

/-- **A block returned while the table is full leaks.**  In every world a run
reaches, a fresh block is recorded by `hardened_malloc` exactly when fewer
than `MAX_HARDENED_ALLOCATIONS` slots are in use; and a live block that was
not recorded stays live in every world the run goes on to, where
`hardened_free` of it reports an unknown pointer, frees nothing and leaves the
table as it is. -/
theorem untracked_blocks_leak {W : World w} (hW : Reachable W) :
    (∀ size ret : BitVec w, ret ≠ NULL → ret ∉ W.live.map Block.ptr →
      ((⟨ret, size⟩ : AllocEntry w) ∈ (W.step (.malloc size ret)).table ↔
        (used W.table).length < maxHardenedAllocations)) ∧
    ∀ b ∈ W.live, b.tracked = false → ∀ W', Relation.ReflTransGen Step W W' →
      b ∈ W'.live ∧ ∀ mem : BitVec w → BitVec 32,
        hardenedFree mem W'.table b.ptr = ([.printk "hardened_free: unknown pointer!\n"], W'.table) := by
  have hi := hW.inv
  refine ⟨fun size ret hr hfresh => ?_, fun b hb ht W' hW' => ?_⟩
  · have hnot : (⟨ret, size⟩ : AllocEntry w) ∉ W.table := fun hm => by
      obtain ⟨b, hb', -, hbe⟩ := hi.live_of_used hm hr
      exact hfresh (List.mem_map.2 ⟨b, hb', congrArg AllocEntry.userPtr hbe⟩)
    rw [← hi.length, ← hasFreeSlot_iff]
    simp only [World.step, hardenedMalloc, hr, if_false]
    cases hs : hasFreeSlot W.table with
    | false => simpa [track_eq_self _ _ _ hs] using hnot
    | true =>
      obtain ⟨l, r, e, -, -, -, htr⟩ := track_eq_of_free_slot ret size W.table hs
      simp [htr]
  · have hlive : b ∈ W'.live := by
      induction hW' with
      | refl => exact hb
      | tail hr hs ih =>
        obtain ⟨c, -, rfl⟩ := hs
        exact (hW.of_reaches hr).inv.untracked_stays ih ht c
    exact ⟨hlive, (hW.of_reaches hW').inv.hardenedFree_untracked_block hlive ht⟩

/-- Two allocations in: a third block is recorded, as 2 of the 128 slots are
in use. -/
theorem untracked_blocks_leak_after_two_mallocs :
    Reachable twoMallocs ∧
      ((⟨0x3000#64, 4#64⟩ : AllocEntry 64) ∈ (twoMallocs.step (.malloc 4#64 0x3000#64)).table ↔
        (used twoMallocs.table).length < maxHardenedAllocations) :=
  ⟨twoMallocs_reachable, (untracked_blocks_leak twoMallocs_reachable).1 4#64 0x3000#64 (by decide) (by decide)⟩

/-- **The table is the tracked blocks.**  In every world a run reaches, the
table keeps its `MAX_HARDENED_ALLOCATIONS` slots, the live blocks are distinct
and not `NULL`, and the used slots are, counted with multiplicity and up to
order, exactly the `{ptr, size}` records of the live blocks whose allocation
found a slot. -/
theorem alloc_table_is_tracked_blocks {W : World w} (hW : Reachable W) :
    W.table.length = maxHardenedAllocations ∧ (W.live.map Block.ptr).Nodup ∧ (∀ b ∈ W.live, b.ptr ≠ NULL) ∧
      List.Perm (used W.table) ((W.live.filter Block.tracked).map Block.entry) :=
  have hi := hW.inv
  ⟨hi.length, hi.live_nodup, hi.live_ne_null, hi.used_perm⟩

/-- Two allocations in: the table has 128 slots, the two live blocks are
distinct and not `NULL`, and the used slots are exactly their records. -/
theorem alloc_table_is_tracked_blocks_after_two_mallocs :
    Reachable twoMallocs ∧ twoMallocs.table.length = maxHardenedAllocations ∧
      (twoMallocs.live.map Block.ptr).Nodup ∧ (∀ b ∈ twoMallocs.live, b.ptr ≠ NULL) ∧
      List.Perm (used twoMallocs.table) ((twoMallocs.live.filter Block.tracked).map Block.entry) :=
  ⟨twoMallocs_reachable, alloc_table_is_tracked_blocks twoMallocs_reachable⟩

end HardenedMalloc
