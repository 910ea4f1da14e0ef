import Coreboot.TpmLog.Table

/-!
# `tpm_cb_log_copy_entries` copies the longest good prefix

The copy loop has three exits: the source runs out, the destination fills up,
or a source entry's digest is too long.  Each pass (`copyEntry`) either
commits the next source entry or stops; an oversized digest is noticed only
after the name and PCR went to the free slot, which stays uncommitted.  By
induction over the loop:

* `copyLoop_spec` — the loop commits, at the old `num_entries` and on, the
  source entries before the first oversized digest, as many as fit; every
  entry it changes lies between the old `num_entries` and `max_entries` and is
  terminated;
* `copy_entries_exact` — `tpm_cb_log_copy_entries` adds exactly those
  entries, each the source's PCR, digest length and digest bytes with its
  strings cut to the arrays, every other byte zero.
-/

namespace TpmLog

variable (c : LogConsts)

/-- The copy of source entry `e`: its PCR, digest length and first
`digest_length` digest bytes; its strings cut at their first `NUL` or the end
of the arrays and terminated; every other byte zero. -/
def copiedEntry (e : LogEntry) : LogEntry where
  pcr := e.pcr
  digestType := cutString e.digestType (c.pcrHashLen - 1)
  digest := fun j => if j < e.digestLength then e.digest j else 0
  digestLength := e.digestLength
  name := cutString e.name (c.pcrHashName - 1)

/-- How many of the `n` source entries from `i` on a copy with `room` free
slots commits: the longest prefix with no digest too long that fits. -/
def copyCount (from_log : LogTable) : Nat → Nat → Nat → Nat
  | _, 0, _ => 0
  | _, _ + 1, 0 => 0
  | i, n + 1, room + 1 =>
    if c.digestMaxLength < (from_log.entries i).digestLength then 0
    else copyCount from_log (i + 1) n room + 1

/-- A copy commits no more entries than it has room for. -/
theorem copyCount_le (from_log : LogTable) (i n room : Nat) : copyCount c from_log i n room ≤ room := by
  induction n generalizing i room with
  | zero => simp [copyCount]
  | succ n ih =>
    cases room with
    | zero => simp [copyCount]
    | succ room =>
      simp only [copyCount]
      split_ifs
      · omega
      · exact Nat.succ_le_succ (ih (i + 1) room)

theorem cutString_terminated (src : Bytes) {size : Nat} (h : 0 < size) :
    safeStrncpy Bytes.zero (some src) size (size - 1) = 0 := by
  rw [safeStrncpy_zero _ h]
  exact cutString_eq_zero (strnlen_le _ _)

theorem copyHead_terminated (e : LogEntry) : (copyHead c e).Terminated c :=
  ⟨cutString_terminated _ c.pcrHashName_pos, rfl⟩

theorem copyBody_terminated (e : LogEntry) : (copyBody c e).Terminated c :=
  ⟨cutString_terminated _ c.pcrHashName_pos, cutString_terminated _ c.pcrHashLen_pos⟩

/-- A committed copy is the copy the claim describes. -/
theorem copyBody_eq {e : LogEntry} (h : e.digestLength ≤ c.digestMaxLength) :
    copyBody c e = copiedEntry c e := by
  have hdl : (if e.digestLength < c.digestMaxLength then e.digestLength else c.digestMaxLength) % 256 =
      e.digestLength := by
    rw [show (if e.digestLength < c.digestMaxLength then e.digestLength else c.digestMaxLength) =
      e.digestLength by split_ifs <;> omega, Nat.mod_eq_of_lt (by have := c.digestMaxLength_lt; omega)]
  simp only [copyBody, copyHead, copiedEntry, hdl, safeStrncpy_zero _ c.pcrHashName_pos,
    safeStrncpy_zero _ c.pcrHashLen_pos]
  congr 1
  funext j
  by_cases hj : j < e.digestLength
  · simp [memcpy, hj, show 0 < e.digestLength by omega]
  · split_ifs <;> simp [memcpy, hj]

/-- **The copy loop.**  From source index `i` with `n` entries left, it
commits the copies of the source entries before the first oversized digest,
as many as the destination has room for, and changes nothing else but the
free slots, each left terminated. -/
theorem copyLoop_spec (from_log : LogTable) (i n : Nat) (t : LogTable) :
    let t' := (copyLoop c from_log i n t).1
    let k := copyCount c from_log i n (t.maxEntries - t.numEntries)
    t'.maxEntries = t.maxEntries ∧ t'.numEntries = t.numEntries + k ∧
    (∀ j < k, t'.entries (t.numEntries + j) = copiedEntry c (from_log.entries (i + j))) ∧
    ∀ j, t'.entries j = t.entries j ∨
      (t.numEntries ≤ j ∧ j < t.maxEntries ∧ (t'.entries j).Terminated c) := by
  induction n generalizing i t with
  | zero => exact ⟨rfl, by simp [copyCount, copyLoop], fun j hj => by simp [copyCount] at hj,
      fun j => .inl rfl⟩
  | succ n ih =>
    simp only [copyLoop, copyEntry]
    by_cases hfull : t.maxEntries ≤ t.numEntries
    · simp [hfull, Nat.sub_eq_zero_of_le hfull, copyCount]
    obtain ⟨room, hroom⟩ : ∃ room, t.maxEntries - t.numEntries = room + 1 := ⟨_, (Nat.succ_pred_eq_of_pos (by omega)).symm⟩
    simp only [hroom, copyCount]
    by_cases hlong : c.digestMaxLength < (from_log.entries i).digestLength
    · simp only [ge_iff_le, hfull, if_false, gt_iff_lt, hlong, if_true, Nat.add_zero]
      refine ⟨rfl, rfl, fun j hj => absurd hj (Nat.not_lt_zero j), fun j => ?_⟩
      by_cases hj : j = t.numEntries
      · subst hj
        exact .inr ⟨Nat.le_refl _, by omega, by simpa using copyHead_terminated c _⟩
      · exact .inl (by simp [hj])
    · simp only [ge_iff_le, hfull, if_false, gt_iff_lt, hlong]
      obtain ⟨hmax, hnum, hcopy, hframe⟩ := ih (i + 1) (t.commit (copyBody c (from_log.entries i)))
      simp only [LogTable.commit_maxEntries, LogTable.commit_numEntries,
        show t.maxEntries - (t.numEntries + 1) = room by omega] at hmax hnum hcopy hframe
      have hbody : copyBody c (from_log.entries i) = copiedEntry c (from_log.entries i) :=
        copyBody_eq c (Nat.not_lt.1 hlong)
      refine ⟨hmax, by rw [hnum]; omega, fun j hj => ?_, fun j => ?_⟩
      · cases j with
        | zero =>
          rcases hframe t.numEntries with h | h
          · simpa [hbody] using h
          · omega
        | succ j =>
          rw [show t.numEntries + (j + 1) = t.numEntries + 1 + j by omega, hcopy j (by omega)]
          congr 2
          omega
      · rcases hframe j with h | ⟨hj, hjm, hterm⟩
        · by_cases hjn : j = t.numEntries
          · subst hjn
            refine .inr ⟨Nat.le_refl _, by omega, ?_⟩
            rw [h]
            simpa using copyBody_terminated c _
          · exact .inl (by simpa [hjn] using h)
        · exact .inr ⟨by omega, hjm, hterm⟩

/-- **`tpm_cb_log_copy_entries` is exact.**  From a source with a valid header
into a destination with room for at least one entry in its header, the copy
adds exactly `k` entries, `k` the longest prefix of the source's committed
entries with no oversized digest that fits the destination's free slots, and
entry `num_entries + j` becomes the copy of source entry `j`. -/
theorem copy_entries_exact (from_log to_log : LogTable) (hf : from_log.Valid)
    (ht : 0 < to_log.maxEntries) :
    let k := copyCount c from_log 0 from_log.numEntries (to_log.maxEntries - to_log.numEntries)
    ∃ t', (tpmCbLogCopyEntries c (some from_log) (some to_log)).1 = some t' ∧
      t'.numEntries = to_log.numEntries + k ∧
      ∀ j < k, t'.entries (to_log.numEntries + j) = copiedEntry c (from_log.entries j) := by
  obtain ⟨-, hnum, hcopy, -⟩ := copyLoop_spec c from_log 0 from_log.numEntries to_log
  refine ⟨_, ?_, hnum, fun j hj => by simpa using hcopy j hj⟩
  simp [tpmCbLogCopyEntries, Nat.pos_iff_ne_zero.1 hf.1, Nat.pos_iff_ne_zero.1 ht, Nat.not_lt.2 hf.2]

/-- Three source entries, the last with a digest too long, into a log with
room for three: two are copied. -/
theorem copy_entries_stop_at_long_digest :
    (⟨3, 3, fun i => { LogEntry.zero with digestLength := if i = 2 then 40 else 32 }⟩ : LogTable).Valid ∧
    0 < (⟨4, 1, fun _ => LogEntry.zero⟩ : LogTable).maxEntries ∧
    ∃ t', (tpmCbLogCopyEntries sampleConsts
        (some ⟨3, 3, fun i => { LogEntry.zero with digestLength := if i = 2 then 40 else 32 }⟩)
        (some ⟨4, 1, fun _ => LogEntry.zero⟩)).1 = some t' ∧ t'.numEntries = 3 := by
  obtain ⟨t', h1, h2, -⟩ := copy_entries_exact sampleConsts
    ⟨3, 3, fun i => { LogEntry.zero with digestLength := if i = 2 then 40 else 32 }⟩
    ⟨4, 1, fun _ => LogEntry.zero⟩ (by decide) (by decide)
  exact ⟨by decide, by decide, t', h1, h2.trans (by decide)⟩

end TpmLog
