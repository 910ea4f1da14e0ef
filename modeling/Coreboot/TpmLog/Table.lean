import Coreboot.TpmLog.Strings

/-!
# The TPM CB log table and its operations

coreboot's TPM log is a table in memory: `max_entries`, `num_entries`, then
the entries, each a PCR, a digest-type name, a digest and its length, and an
event name.  Every operation first asks `tpm_log_init()` for the table (not
under `src/`: here the table it answers, or `NULL`), checks the header and
then reads or writes the entries.  The sizes of the arrays come from headers
not under `src/` and are parameters (`LogConsts`); so are `vb2_hash_names` and
`vb2_get_hash_algorithm_name` from vboot (`HashAlgorithms`).

The operations return the table as they leave it and the warnings they print.
`tpm_cb_log_copy_entries` is its loop (`copyLoop`) over its body
(`copyEntry`), which commits one source entry or stops.
-/

namespace TpmLog

/-- The sizes the log code uses.  Its char arrays are not empty, and a digest
length fits the `uint8_t` it is cast to. -/
structure LogConsts where
  /-- `TPM_CB_LOG_PCR_HASH_NAME`, the size of an entry's `name`. -/
  pcrHashName : Nat
  /-- `TPM_CB_LOG_PCR_HASH_LEN`, the size of an entry's `digest_type`. -/
  pcrHashLen : Nat
  /-- `TPM_CB_LOG_DIGEST_MAX_LENGTH`, the size of an entry's `digest`. -/
  digestMaxLength : Nat
  /-- `MAX_TPM_LOG_ENTRIES`, the entries of the CBMEM log. -/
  maxTpmLogEntries : Nat
  /-- `MAX_PRERAM_TPM_LOG_ENTRIES`, the entries of the pre-RAM log. -/
  maxPreramTpmLogEntries : Nat
  pcrHashName_pos : 0 < pcrHashName
  pcrHashLen_pos : 0 < pcrHashLen
  digestMaxLength_lt : digestMaxLength < 256

/-- vboot's hash algorithm names. -/
structure HashAlgorithms where
  /-- `vb2_hash_names`, indexed by `enum vb2_hash_algorithm` from
  `VB2_HASH_INVALID` up to `VB2_HASH_ALG_COUNT`. -/
  vb2HashNames : List (Option Bytes)
  /-- `vb2_get_hash_algorithm_name`. -/
  vb2GetHashAlgorithmName : Nat → Option Bytes

/-- `VB2_HASH_INVALID`, the first algorithm. -/
def vb2HashInvalid : Nat := 0

/-- `INT_MAX` of a 32-bit `int`, `2^31 - 1`. -/
def intMax : Nat := 2147483647

/-- `(int)x` for a `uint32_t` on a two's-complement target. -/
def toCInt (x : UInt32) : Int := if x.toNat ≤ intMax then x.toNat else (x.toNat : Int) - 4294967296

/-- `struct tpm_cb_log_entry`. -/
structure LogEntry where
  pcr : UInt32
  digestType : Bytes
  digest : Bytes
  digestLength : Nat
  name : Bytes

/-- A zeroed entry: `secure_zero(tce, sizeof(*tce))`. -/
def LogEntry.zero : LogEntry := ⟨0, Bytes.zero, Bytes.zero, 0, Bytes.zero⟩

/-- `struct tpm_cb_log_table`: the header and the entry at each index. -/
structure LogTable where
  maxEntries : Nat
  numEntries : Nat
  entries : Nat → LogEntry

/-- The header check every operation makes (the negation of
`max_entries == 0 || num_entries > max_entries`). -/
def LogTable.Valid (t : LogTable) : Prop := 0 < t.maxEntries ∧ t.numEntries ≤ t.maxEntries

instance (t : LogTable) : Decidable t.Valid := inferInstanceAs (Decidable (_ ∧ _))

/-- The table with entry `i` replaced. -/
def LogTable.setEntry (t : LogTable) (i : Nat) (e : LogEntry) : LogTable :=
  { t with entries := fun j => if j = i then e else t.entries j }

/-- Write `e` to the first free entry and count it: `num_entries++`. -/
def LogTable.commit (t : LogTable) (e : LogEntry) : LogTable :=
  { t.setEntry t.numEntries e with numEntries := t.numEntries + 1 }

@[simp] theorem LogTable.setEntry_maxEntries (t : LogTable) (i : Nat) (e : LogEntry) :
    (t.setEntry i e).maxEntries = t.maxEntries := rfl

@[simp] theorem LogTable.setEntry_numEntries (t : LogTable) (i : Nat) (e : LogEntry) :
    (t.setEntry i e).numEntries = t.numEntries := rfl

@[simp] theorem LogTable.setEntry_entries (t : LogTable) (i : Nat) (e : LogEntry) (j : Nat) :
    (t.setEntry i e).entries j = if j = i then e else t.entries j := rfl

@[simp] theorem LogTable.commit_maxEntries (t : LogTable) (e : LogEntry) :
    (t.commit e).maxEntries = t.maxEntries := rfl

@[simp] theorem LogTable.commit_numEntries (t : LogTable) (e : LogEntry) :
    (t.commit e).numEntries = t.numEntries + 1 := rfl

@[simp] theorem LogTable.commit_entries (t : LogTable) (e : LogEntry) (j : Nat) :
    (t.commit e).entries j = if j = t.numEntries then e else t.entries j := rfl

/-- The entries with the first `n` zeroed, as `secure_zero` over them leaves
them. -/
def zeroEntries (es : Nat → LogEntry) (n : Nat) : Nat → LogEntry :=
  fun i => if i < n then LogEntry.zero else es i

variable (c : LogConsts)

/-! ## Finding and clearing the log -/

/-- The final sanity check of `tpm_cb_log_cbmem_init`. -/
def sanityCheck : Option LogTable → Option LogTable
  | some tclt => if tclt.maxEntries = 0 ∨ tclt.numEntries > tclt.maxEntries then none else some tclt
  | none => none

/-- `tpm_cb_log_cbmem_init()` past its cache: `cbmem_find`, or else a new
record from `cbmem_add` (whatever memory it answers) with a fresh header and
zeroed entries; then the sanity check. -/
def cbmemLookup (env_has_cbmem : Bool) (cbmem_find cbmem_add : Option LogTable) : Option LogTable :=
  if !env_has_cbmem then none
  else
    match cbmem_find with
    | some tclt => sanityCheck (some tclt)
    | none => sanityCheck (cbmem_add.map fun tclt =>
        { maxEntries := c.maxTpmLogEntries, numEntries := 0,
          entries := zeroEntries tclt.entries c.maxTpmLogEntries })

/-- `tpm_cb_log_cbmem_init()`, with `cached` the table its static pointer
points to (or `NULL`), `ENV_HAS_CBMEM`, and the tables `cbmem_find` and
`cbmem_add` answer.  The static pointer keeps what it returns. -/
def tpmCbLogCbmemInit (cached : Option LogTable) (env_has_cbmem : Bool)
    (cbmem_find cbmem_add : Option LogTable) : Option LogTable :=
  match cached with
  | some tclt =>
    if 0 < tclt.maxEntries ∧ tclt.numEntries ≤ tclt.maxEntries ∧ tclt.numEntries < intMax / 2 then some tclt
    else cbmemLookup c env_has_cbmem cbmem_find cbmem_add
  | none => cbmemLookup c env_has_cbmem cbmem_find cbmem_add

/-- `tpm_cb_preram_log_clear()` on `_tpm_log`. -/
def tpmCbPreramLogClear : Option LogTable → Option LogTable × List String
  | none => (none, ["TPM LOG: _tpm_log is NULL\n"])
  | some tclt =>
    -- the loop runs while `i < num_entries && i < max_entries`, here `i < num_entries`
    let entries := if 0 < tclt.numEntries ∧ tclt.numEntries ≤ tclt.maxEntries then
      zeroEntries tclt.entries tclt.numEntries else tclt.entries
    (some { maxEntries := c.maxPreramTpmLogEntries, numEntries := 0, entries }, [])

/-- `tpm_cb_log_get_size(log_table)`. -/
def tpmCbLogGetSize : Option LogTable → UInt16
  | none => 0
  | some tclt =>
    if tclt.numEntries > tclt.maxEntries then 0
    else if tclt.numEntries > 65535 then 65535 else tclt.numEntries.toUInt16

/-! ## Reading the log -/

/-- What the printers do to an entry: terminate `name` and `digest_type` at
their last byte. -/
def LogEntry.terminate (e : LogEntry) : LogEntry :=
  { e with name := e.name.set (c.pcrHashName - 1) 0, digestType := e.digestType.set (c.pcrHashLen - 1) 0 }

/-- An entry whose strings end by their arrays' last byte: what the printers
leave, and what every entry the log writes already is. -/
def LogEntry.Terminated (e : LogEntry) : Prop :=
  e.name (c.pcrHashName - 1) = 0 ∧ e.digestType (c.pcrHashLen - 1) = 0

/-- `tpm_cb_log_dump()` on the table `tpm_log_init()` answers.  The lines it
prints at `BIOS_INFO` are left out; it terminates the strings of every
committed entry. -/
def tpmCbLogDump : Option LogTable → Option LogTable × List String
  | none => (none, [])
  | some tclt =>
    if tclt.maxEntries = 0 ∨ tclt.numEntries > tclt.maxEntries then
      (some tclt, ["TPM LOG: invalid log table metadata\n"])
    else
      (some { tclt with
        entries := fun i => if i < tclt.numEntries then (tclt.entries i).terminate c else tclt.entries i }, [])

/-- The loop of `tpm_cb_log_get` from algorithm `algo` on: each pass over a
non-`NULL` name terminates `digest_type`, then compares.  The algorithm found
(`VB2_HASH_INVALID` if none) and `digest_type` as the loop leaves it. -/
def findAlgo : List (Option Bytes) → Nat → Bytes → Nat × Bytes
  | [], _, dt => (vb2HashInvalid, dt)
  | none :: names, algo, dt => findAlgo names (algo + 1) dt
  | some name :: names, algo, dt =>
    let dt := dt.set (c.pcrHashLen - 1) 0
    if strcmp dt name 0 c.pcrHashLen then (algo, dt) else findAlgo names (algo + 1) dt

/-- What `tpm_cb_log_get` stores through its output pointers. -/
structure GetOutputs where
  pcr : Int
  digestData : Bytes
  digestAlgo : Nat
  eventName : Bytes

/-- `tpm_cb_log_get(entry_idx, ...)`: the return value, the outputs it
stores, and the table as it leaves it.  `outputs` says the four output
pointers are non-`NULL`. -/
def tpmCbLogGet (h : HashAlgorithms) (outputs : Bool) (tclt : Option LogTable) (entry_idx : Int) :
    Int × Option GetOutputs × Option LogTable :=
  if !outputs then (1, none, tclt)
  else match tclt with
  | none => (1, none, none)
  | some tclt =>
    if tclt.maxEntries = 0 ∨ tclt.numEntries > tclt.maxEntries then (1, none, some tclt)
    else if entry_idx < 0 ∨ entry_idx.toNat ≥ tclt.numEntries then (1, none, some tclt)
    else
      let tce := tclt.entries entry_idx.toNat
      let r := findAlgo c h.vb2HashNames vb2HashInvalid tce.digestType
      (0, some ⟨toCInt tce.pcr, tce.digest, r.1, tce.name⟩,
        some (tclt.setEntry entry_idx.toNat { tce with digestType := r.2 }))

/-! ## Writing the log -/

/-- The entry `tpm_cb_log_add_table_entry` writes. -/
def addedEntry (h : HashAlgorithms) (name : Bytes) (pcr : UInt32) (digest_algo : Nat)
    (digest : Option Bytes) (digest_len : Nat) : LogEntry :=
  let hash_name := (h.vb2GetHashAlgorithmName digest_algo).getD (cString "UNKNOWN")
  { pcr
    name := safeStrncpy Bytes.zero (some name) c.pcrHashName
    digestType := safeStrncpy Bytes.zero (some hash_name) c.pcrHashLen
    digest := match digest with
      | some d => if digest_len > 0 then memcpy Bytes.zero d digest_len else Bytes.zero
      | none => Bytes.zero
    digestLength := digest_len % 256 }

/-- `tpm_cb_log_add_table_entry(name, pcr, digest_algo, digest, digest_len)`
on the table `tpm_log_init()` answers; `name` and `digest` are `NULL` or the
bytes they point to. -/
def tpmCbLogAddTableEntry (h : HashAlgorithms) (tclt : Option LogTable) (name : Option Bytes)
    (pcr : UInt32) (digest_algo : Nat) (digest : Option Bytes) (digest_len : Nat) :
    Option LogTable × List String :=
  match tclt with
  | none => (none, ["TPM LOG: Log non-existent!\n"])
  | some tclt =>
    if tclt.maxEntries = 0 ∨ tclt.numEntries > tclt.maxEntries then
      (some tclt, ["TPM LOG: invalid table metadata\n"])
    else if tclt.numEntries ≥ tclt.maxEntries then (some tclt, ["TPM LOG: log table is full\n"])
    else match name with
    | none => (some tclt, ["TPM LOG: entry name not set\n"])
    | some name =>
      if digest.isNone ∧ digest_len ≠ 0 then (some tclt, ["TPM LOG: NULL digest pointer\n"])
      else if digest_len > c.digestMaxLength then
        (some tclt, ["TPM LOG: PCR digest too long for log entry\n"])
      else (some (tclt.commit (addedEntry c h name pcr digest_algo digest digest_len)), [])

/-- What the copy loop has written to the free entry when it checks the
source's digest length: the name and the PCR. -/
def copyHead (e : LogEntry) : LogEntry :=
  { LogEntry.zero with name := safeStrncpy Bytes.zero (some e.name) c.pcrHashName, pcr := e.pcr }

/-- The entry the copy loop commits for source entry `e`; its digest length is
`(uint8_t)MIN(from_dlen, TPM_CB_LOG_DIGEST_MAX_LENGTH)`. -/
def copyBody (e : LogEntry) : LogEntry :=
  let dl := (if e.digestLength < c.digestMaxLength then e.digestLength else c.digestMaxLength) % 256
  { copyHead c e with
    digestType := safeStrncpy Bytes.zero (some e.digestType) c.pcrHashLen
    digestLength := dl
    digest := if dl > 0 then memcpy Bytes.zero e.digest dl else Bytes.zero }

/-- One pass of `tpm_cb_log_copy_entries`'s loop for source entry `e`: the
table, and the warning it stops with, if it stops. -/
def copyEntry (e : LogEntry) (to_log : LogTable) : LogTable × Option String :=
  if to_log.numEntries ≥ to_log.maxEntries then (to_log, some "TPM LOG: log table is full\n")
  else if e.digestLength > c.digestMaxLength then
    (to_log.setEntry to_log.numEntries (copyHead c e), some "TPM LOG: PCR digest too long for log entry\n")
  else (to_log.commit (copyBody c e), none)

/-- The loop of `tpm_cb_log_copy_entries` from source index `i`, `n` source
entries left. -/
def copyLoop (from_log : LogTable) : Nat → Nat → LogTable → LogTable × List String
  | _, 0, to_log => (to_log, [])
  | i, n + 1, to_log =>
    match copyEntry c (from_log.entries i) to_log with
    | (to_log, some msg) => (to_log, [msg])
    | (to_log, none) => copyLoop from_log (i + 1) n to_log

/-- `tpm_cb_log_copy_entries(from, to)` on two distinct tables (or `NULL`):
`to` as it leaves it, and the warnings. -/
def tpmCbLogCopyEntries (from_log to_log : Option LogTable) : Option LogTable × List String :=
  match from_log, to_log with
  | some from_log, some to_log =>
    if from_log.maxEntries = 0 ∨ to_log.maxEntries = 0 then (some to_log, [])
    else if from_log.numEntries > from_log.maxEntries then (some to_log, [])
    else
      let r := copyLoop c from_log 0 from_log.numEntries to_log
      (some r.1, r.2)
  | _, to_log => (to_log, [])

/-- A small configuration for examples: names and digest types of 8 bytes,
digests of 32, a CBMEM log of 4 entries and a pre-RAM log of 2. -/
def sampleConsts : LogConsts := ⟨8, 8, 32, 4, 2, by decide, by decide, by decide⟩

/-- vboot's names for the examples: `SHA1` and `SHA256` after the invalid
algorithm. -/
def sampleHashAlgorithms : HashAlgorithms :=
  ⟨[none, some (cString "SHA1"), some (cString "SHA256")],
    fun a => ([none, some (cString "SHA1"), some (cString "SHA256")].get? a).join⟩

end TpmLog
