import Coreboot.TpmLog.Refinement

/-!
# What `tpm_cb_log_dump` prints

`tpmCbLogDump` keeps what the dump does to the table; here are the lines it
prints.  A header, then for each committed entry its PCR, its digest bytes in
hex, at most `TPM_CB_LOG_DIGEST_MAX_LENGTH` of them whatever `digest_length`
says, and its digest type and name, printed with `%s` after the loop has put a
`NUL` in the last byte of each array; then an empty line.

* `dump_reads_inside_entries` — the dump reads an entry's digest only below
  the clamp and its strings only inside their arrays: the `NUL` the loop
  writes stops `%s` before the end of the array.
-/

namespace TpmLog

/-- The `printk` levels the dump prints at. -/
inductive LogLevel
  /-- `BIOS_WARNING`. -/
  | biosWarning
  /-- `BIOS_INFO`. -/
  | biosInfo
deriving DecidableEq, Repr

/-- An argument of a `printk` line: a number, or the bytes a `%s` prints. -/
inductive PrintArg
  | num (n : Nat)
  | str (s : List UInt8)
deriving DecidableEq, Repr

/-- A `printk` line: its level, its format and its arguments. -/
structure DumpLine where
  level : LogLevel
  fmt : String
  args : List PrintArg
deriving DecidableEq, Repr

variable (c : LogConsts)

/-- The bytes `%s` prints from an array of `size` bytes: those before its
first `NUL`.  Past the array `printf` would read on; `cStringBytes_congr`
shows the dump never gets there. -/
def cStringBytes (s : Bytes) (size : Nat) : List UInt8 := (List.range (strnlen s size)).map s

/-- The lines one pass of the dump loop prints for entry `tce`. -/
def entryLines (tce : LogEntry) : List DumpLine :=
  let dlen := if tce.digestLength > c.digestMaxLength then c.digestMaxLength else tce.digestLength
  let tce' := tce.terminate c
  ⟨.biosInfo, " PCR-%u ", [.num tce.pcr.toNat]⟩ ::
    (List.range dlen).map (fun j => ⟨.biosInfo, "%02x", [.num (tce.digest j).toNat]⟩) ++
    [⟨.biosInfo, " %s [%s]\n",
      [.str (cStringBytes tce'.digestType c.pcrHashLen), .str (cStringBytes tce'.name c.pcrHashName)]⟩]

/-- The lines `tpm_cb_log_dump()` prints on the table `tpm_log_init()`
answers . -/
def tpmCbLogDumpLines : Option LogTable → List DumpLine
  | none => []
  | some tclt =>
    if tclt.maxEntries = 0 ∨ tclt.numEntries > tclt.maxEntries then
      [⟨.biosWarning, "TPM LOG: invalid log table metadata\n", []⟩]
    else
      ⟨.biosInfo, "coreboot TPM log measurements:\n\n", []⟩ ::
        (List.range tclt.numEntries).flatMap (fun i => entryLines c (tclt.entries i)) ++ [⟨.biosInfo, "\n", []⟩]

/-- `%s` on an array whose last byte is `NUL` reads only the bytes before it. -/
theorem cStringBytes_congr {s s' : Bytes} {size : Nat} (hpos : 0 < size) (hs : s (size - 1) = 0)
    (hs' : s' (size - 1) = 0) (h : ∀ j < size - 1, s j = s' j) : cStringBytes s size = cStringBytes s' size := by
  have hlen : ∀ {b : Bytes}, b (size - 1) = 0 → strnlen b size = strnlen b (size - 1) := fun hb => by
    simpa [Nat.sub_add_cancel hpos] using strnlen_succ_of_nul hb
  have hcut : strnlen s (size - 1) = strnlen s' (size - 1) := stopIndex_congr s fun j _ hj => h j (by omega)
  simp only [cStringBytes, hlen hs, hlen hs', hcut]
  exact List.map_congr_left fun j hj =>
    h j (by have := strnlen_le s' (size - 1); rw [List.mem_range] at hj; omega)

theorem terminate_name_last (e : LogEntry) : (e.terminate c).name (c.pcrHashName - 1) = 0 := by
  simp [LogEntry.terminate]

theorem terminate_digestType_last (e : LogEntry) : (e.terminate c).digestType (c.pcrHashLen - 1) = 0 := by
  simp [LogEntry.terminate]

/-- Two entries agree on every byte the dump may read: the PCR, the digest
length, the digest below `TPM_CB_LOG_DIGEST_MAX_LENGTH` and each string before
the last byte of its array. -/
def LogEntry.SameForDump (e e' : LogEntry) : Prop :=
  e.pcr = e'.pcr ∧ e.digestLength = e'.digestLength ∧ (∀ j < c.digestMaxLength, e.digest j = e'.digest j) ∧
    (∀ j < c.pcrHashName - 1, e.name j = e'.name j) ∧ (∀ j < c.pcrHashLen - 1, e.digestType j = e'.digestType j)

/-- An entry's lines read only the bytes `SameForDump` names. -/
theorem entryLines_congr {e e' : LogEntry} (hsame : e.SameForDump c e') : entryLines c e = entryLines c e' := by
  obtain ⟨hpcr, hdl, hd, hn, ht⟩ := hsame
  have hname := cStringBytes_congr c.pcrHashName_pos (terminate_name_last c e) (terminate_name_last c e')
    fun j hj => by simpa [LogEntry.terminate, Nat.ne_of_lt hj] using hn j hj
  have htype := cStringBytes_congr c.pcrHashLen_pos (terminate_digestType_last c e)
    (terminate_digestType_last c e') fun j hj => by simpa [LogEntry.terminate, Nat.ne_of_lt hj] using ht j hj
  simp only [entryLines, hname, htype, hpcr, hdl]
  congr 2
  refine List.map_congr_left fun j hj => ?_
  rw [hd j (by rw [List.mem_range] at hj; split_ifs at hj <;> omega)]

/-- **The dump reads inside the entries.**  Two tables with the same header
whose committed entries agree on the PCR, the digest length, the digest below
`TPM_CB_LOG_DIGEST_MAX_LENGTH` and each string before the last byte of its
array print the same lines: whatever `digest_length` says, the dump reads no
digest byte from `TPM_CB_LOG_DIGEST_MAX_LENGTH` on, and `%s` stops inside the
arrays. -/
theorem dump_reads_inside_entries {t t' : LogTable} (hmax : t'.maxEntries = t.maxEntries)
    (hnum : t'.numEntries = t.numEntries) (hsame : ∀ i < t.numEntries, (t.entries i).SameForDump c (t'.entries i)) :
    tpmCbLogDumpLines c (some t) = tpmCbLogDumpLines c (some t') := by
  simp only [tpmCbLogDumpLines, hmax, hnum]
  split_ifs
  · rfl
  · rw [List.flatMap_def, List.flatMap_def,
      List.map_congr_left fun i hi => entryLines_congr c (hsame i (List.mem_range.1 hi))]

/-- A digest byte past `TPM_CB_LOG_DIGEST_MAX_LENGTH` of a corrupt entry that
claims 255 digest bytes is not printed. -/
theorem dump_ignores_digest_past_max :
    (⟨2, 1, fun _ => { LogEntry.zero with digestLength := 255 }⟩ : LogTable).maxEntries =
      (⟨2, 1, fun _ => { LogEntry.zero with digestLength := 255, digest := fun j => if j < 32 then 0 else 0xFF }⟩ :
        LogTable).maxEntries ∧
    tpmCbLogDumpLines sampleConsts (some ⟨2, 1, fun _ => { LogEntry.zero with digestLength := 255 }⟩) =
      tpmCbLogDumpLines sampleConsts
        (some ⟨2, 1, fun _ => { LogEntry.zero with digestLength := 255, digest := fun j => if j < 32 then 0 else 0xFF }⟩) :=
  ⟨rfl, dump_reads_inside_entries sampleConsts rfl rfl fun _ _ =>
    ⟨rfl, rfl, fun j hj => by simp [show j < 32 from hj, LogEntry.zero], fun _ _ => rfl, fun _ _ => rfl⟩⟩

end TpmLog
