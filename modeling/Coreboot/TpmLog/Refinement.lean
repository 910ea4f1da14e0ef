import Coreboot.TpmLog.AppendOnly

/-!
# The TPM log refines a bounded list that only grows

What the log's users see of a table is its capacity and its committed
entries, each with its strings terminated at the arrays' last byte, as the
printers and `tpm_cb_log_get` read them (`LogTable.view`).  That is an
abstract log (`Log`): a list no longer than its capacity.  A call does one of
three things to it (`Op`): commit one entry if there is room, commit copies of
another log's entries (those before the first digest too long, as many as
fit), or nothing.

* `LogCall.op` — the operation of each call: an add whose arguments pass its
  checks commits the entry `tpm_cb_log_add_table_entry` writes, a copy from a
  table with a valid header commits copies of what that table reads as, and
  reads, dumps and rejected calls do nothing;
* `view_run` — one call on a table with a valid header is its operation on
  the abstract log, and `run_of_not_valid` — a table with a bad header is left
  as it is;
* `runCalls_refines` — every run is the sequence of its calls' operations,
  by induction over the run;
* `log_view_grows` — what a table reads as only grows by appending;
* `copy_reproduces_log` — a table filled by the log's own calls from an empty
  one is copied without loss into a table with room for it;
* `preram_log_reads_as_adds` — after `tpm_cb_preram_log_clear`, adds fill the
  pre-RAM log with their entries in order until it is full.
-/

namespace TpmLog

/-- The TPM log as its users see it: room for `cap` entries, and the entries
committed, in order. -/
@[ext] structure Log where
  cap : Nat
  entries : List LogEntry
  cap_pos : 0 < cap
  length_le : entries.length ≤ cap

/-- What a call does to the abstract log. -/
inductive Op
  /-- Commit `e` if there is room. -/
  | append (e : LogEntry)
  /-- Commit copies of the entries `src`. -/
  | appendCopies (src : List LogEntry)
  /-- Change nothing. -/
  | keep

variable (c : LogConsts) (h : HashAlgorithms)

/-- The copies a copy commits from `src` into `room` free entries: the copies
of the entries before the first digest too long, as many as fit. -/
def copies (room : Nat) (src : List LogEntry) : List LogEntry :=
  ((src.takeWhile fun e => decide (e.digestLength ≤ c.digestMaxLength)).take room).map (copiedEntry c)

theorem length_copies_le (room : Nat) (src : List LogEntry) : (copies c room src).length ≤ room := by
  simp only [copies, List.length_map, List.length_take]
  exact Nat.min_le_left _ _

/-- An operation on the abstract log. -/
def Log.apply (L : Log) : Op → Log
  | .append e =>
    if hroom : L.entries.length < L.cap then ⟨L.cap, L.entries ++ [e], L.cap_pos, by simpa using hroom⟩
    else L
  | .appendCopies src =>
    ⟨L.cap, L.entries ++ copies c (L.cap - L.entries.length) src, L.cap_pos, by
      have := length_copies_le c (L.cap - L.entries.length) src
      have := L.length_le
      simp only [List.length_append]
      omega⟩
  | .keep => L

/-- A sequence of operations. -/
def Log.applyAll (L : Log) (ops : List Op) : Log := ops.foldl (Log.apply c) L

@[simp] theorem Log.applyAll_nil (L : Log) : L.applyAll c [] = L := rfl

@[simp] theorem Log.applyAll_cons (L : Log) (op : Op) (ops : List Op) :
    L.applyAll c (op :: ops) = (L.apply c op).applyAll c ops := rfl

/-! ## The abstract log -/

/-- An operation keeps the capacity and appends to the entries. -/
theorem Log.apply_grows (L : Log) (op : Op) :
    (L.apply c op).cap = L.cap ∧ L.entries <+: (L.apply c op).entries := by
  cases op with
  | append e =>
    simp only [Log.apply]
    split_ifs
    · exact ⟨rfl, List.prefix_append _ _⟩
    · exact ⟨rfl, List.prefix_refl _⟩
  | appendCopies src => exact ⟨rfl, List.prefix_append _ _⟩
  | keep => exact ⟨rfl, List.prefix_refl _⟩

/-- The entry an operation commits when there is room. -/
def Op.appended : Op → Option LogEntry
  | .append e => some e
  | _ => none

/-- Without copies, operations fill the log with their entries in order until
it is full. -/
theorem Log.applyAll_appends (L : Log) (ops : List Op) (hops : ∀ op ∈ ops, ∀ src, op ≠ .appendCopies src) :
    (L.applyAll c ops).entries = (L.entries ++ ops.filterMap Op.appended).take L.cap := by
  induction ops generalizing L with
  | nil => simpa using (List.take_of_length_le L.length_le).symm
  | cons op ops ih =>
    have hrest : ∀ L' : Log, (L'.applyAll c ops).entries = (L'.entries ++ ops.filterMap Op.appended).take L'.cap :=
      fun L' => ih L' fun op' hop' => hops op' (.tail _ hop')
    cases op with
    | append e =>
      rw [Log.applyAll_cons, hrest, List.filterMap_cons]
      simp only [Log.apply, Op.appended]
      split_ifs with hroom
      · simp
      · have hlen : L.cap ≤ L.entries.length := Nat.not_lt.1 hroom
        rw [List.take_append_of_le_length hlen, List.take_append_of_le_length hlen]
    | appendCopies src => exact absurd rfl (hops _ (.head _) src)
    | keep => rw [Log.applyAll_cons, hrest]; rfl

/-! ## What a table reads as -/

/-- What the committed entries of a table read as. -/
def LogTable.view (t : LogTable) : List LogEntry :=
  (List.range t.numEntries).map fun i => (t.entries i).terminate c

@[simp] theorem LogTable.length_view (t : LogTable) : (t.view c).length = t.numEntries := by
  simp [LogTable.view]

/-- The abstract log of a table with a valid header. -/
def LogTable.toLog (t : LogTable) (ht : t.Valid) : Log :=
  ⟨t.maxEntries, t.view c, ht.1, by simpa using ht.2⟩

/-- The abstract log of a table, `none` when its header is bad. -/
def LogTable.toLog? (t : LogTable) : Option Log := if ht : t.Valid then some (t.toLog c ht) else none

theorem LogTable.toLog?_of_valid {t : LogTable} (ht : t.Valid) : t.toLog? c = some (t.toLog c ht) :=
  dif_pos ht

theorem LogTable.toLog?_of_not_valid {t : LogTable} (ht : ¬t.Valid) : t.toLog? c = none :=
  dif_neg ht

/-- The operation a call is on the abstract log. -/
def LogCall.op : LogCall → Op
  | .addTableEntry (some name) pcr digest_algo digest digest_len =>
    if digest.isNone ∧ digest_len ≠ 0 then .keep
    else if digest_len > c.digestMaxLength then .keep
    else .append (addedEntry c h name pcr digest_algo digest digest_len)
  | .copyEntries (some from_log) => if from_log.Valid then .appendCopies (from_log.view c) else .keep
  | _ => .keep

@[simp] theorem LogEntry.terminate_digestLength (e : LogEntry) :
    (e.terminate c).digestLength = e.digestLength := rfl

theorem terminate_terminate (e : LogEntry) : (e.terminate c).terminate c = e.terminate c := by
  simp only [LogEntry.terminate, Bytes.set_set]

/-- Two tables read the same when they have as many committed entries and
these agree up to their terminators. -/
theorem view_congr {s s' : LogTable} (hnum : s'.numEntries = s.numEntries)
    (he : ∀ i < s.numEntries, (s'.entries i).terminate c = (s.entries i).terminate c) :
    s'.view c = s.view c := by
  simp only [LogTable.view, hnum]
  exact List.map_congr_left fun i hi => he i (List.mem_range.1 hi)

theorem view_commit (s : LogTable) {e : LogEntry} (he : e.Terminated c) :
    (s.commit e).view c = s.view c ++ [e] := by
  simp only [LogTable.view, LogTable.commit_numEntries, List.range_succ, List.map_append, List.map_cons,
    List.map_nil, LogTable.commit_entries, if_true, terminate_of_terminated c he]
  congr 1
  exact List.map_congr_left fun i hi => by simp [Nat.ne_of_lt (List.mem_range.1 hi)]

/-! ## Reads and dumps -/

/-- The search of `tpm_cb_log_get` changes `digest_type` at most at its last
byte. -/
theorem findAlgo_snd_set (names : List (Option Bytes)) (algo : Nat) (dt : Bytes) :
    (findAlgo c names algo dt).2.set (c.pcrHashLen - 1) 0 = dt.set (c.pcrHashLen - 1) 0 := by
  induction names generalizing algo dt with
  | nil => rfl
  | cons name names ih =>
    cases name with
    | none => exact ih _ _
    | some name =>
      simp only [findAlgo]
      split_ifs
      · exact Bytes.set_set ..
      · rw [ih, Bytes.set_set]

/-- A read changes what the table reads as nowhere. -/
theorem view_get {s : LogTable} (outputs : Bool) (entry_idx : Int) :
    ((LogCall.get outputs entry_idx).run c h s).view c = s.view c := by
  simp only [LogCall.run, tpmCbLogGet]
  split_ifs
  iterate 3 rfl
  refine view_congr c rfl fun i _ => ?_
  simp only [Option.getD_some, LogTable.setEntry_entries]
  split_ifs with hi
  · subst hi
    simp only [LogEntry.terminate, findAlgo_snd_set]
  · rfl

/-- Neither does a dump. -/
theorem view_dump {s : LogTable} : (LogCall.dump.run c h s).view c = s.view c := by
  simp only [LogCall.run, tpmCbLogDump]
  split_ifs
  · rfl
  · exact view_congr c rfl fun i hi => by simp only [Option.getD_some, if_pos hi, terminate_terminate]

/-! ## Copies -/

theorem copiedEntry_terminate (e : LogEntry) : copiedEntry c (e.terminate c) = copiedEntry c e := by
  simp only [copiedEntry, LogEntry.terminate]
  congr 1 <;> exact cutString_congr fun j hj => by simp [Nat.ne_of_lt hj]

theorem copies_cons (room : Nat) (e : LogEntry) (src : List LogEntry) :
    copies c (room + 1) (e :: src) =
      if e.digestLength ≤ c.digestMaxLength then copiedEntry c e :: copies c room src else [] := by
  by_cases he : e.digestLength ≤ c.digestMaxLength <;> simp [copies, List.takeWhile_cons, he]

/-- `copyCount` counts the copies the abstract copy commits. -/
theorem copies_range' (f : LogTable) (i n room : Nat) :
    copies c room ((List.range' i n).map fun j => (f.entries j).terminate c) =
      (List.range (copyCount c f i n room)).map fun j => copiedEntry c (f.entries (i + j)) := by
  induction n generalizing i room with
  | zero => simp [copies, copyCount]
  | succ n ih =>
    cases room with
    | zero => simp [copies, copyCount]
    | succ room =>
      rw [List.range'_succ, List.map_cons, copies_cons, LogEntry.terminate_digestLength]
      simp only [copyCount]
      by_cases hlong : c.digestMaxLength < (f.entries i).digestLength
      · simp [hlong]
      · rw [if_pos (Nat.not_lt.1 hlong), if_neg hlong, ih, List.range_succ_eq_map, List.map_cons, List.map_map,
          copiedEntry_terminate, Nat.add_zero]
        exact congrArg _ (List.map_congr_left fun j _ =>
          congrArg (fun k => copiedEntry c (f.entries k)) (show i + 1 + j = i + Nat.succ j by omega))

/-- **The copy loop on the abstract log.**  It appends the copies of what the
source reads as, before its first digest too long, as many as fit. -/
theorem view_copyLoop (f s : LogTable) :
    (copyLoop c f 0 f.numEntries s).1.view c = s.view c ++ copies c (s.maxEntries - s.numEntries) (f.view c) := by
  obtain ⟨-, hnum, hcopy, hframe⟩ := copyLoop_spec c f 0 f.numEntries s
  rw [LogTable.view, LogTable.view, LogTable.view, hnum, List.range_add, List.map_append, List.map_map,
    List.range_eq_range' f.numEntries, copies_range']
  congr 1
  · exact List.map_congr_left fun i hi =>
      by rw [(hframe i).resolve_right fun h' => absurd (List.mem_range.1 hi) (by omega)]
  · refine List.map_congr_left fun j hj => ?_
    simp only [Function.comp, hcopy j (List.mem_range.1 hj), Nat.zero_add]
    exact terminate_of_terminated c (copiedEntry_terminated c _)

/-! ## Refinement -/

/-- A call never changes a table whose header is bad: every operation checks
it, and a copy into it stops at the full-table check. -/
theorem run_of_not_valid {t : LogTable} (ht : ¬t.Valid) (call : LogCall) : call.run c h t = t := by
  have hbad : t.maxEntries = 0 ∨ t.numEntries > t.maxEntries := by
    simp only [LogTable.Valid] at ht; omega
  cases call with
  | addTableEntry => simp [LogCall.run, tpmCbLogAddTableEntry, hbad]
  | copyEntries from_log =>
    rcases from_log with _ | f
    · rfl
    · simp only [LogCall.run, tpmCbLogCopyEntries]
      split_ifs
      iterate 2 rfl
      cases f.numEntries with
      | zero => rfl
      | succ n => simp [copyLoop, copyEntry, show t.maxEntries ≤ t.numEntries by omega]
  | get => simp [LogCall.run, tpmCbLogGet, hbad]
  | dump => simp [LogCall.run, tpmCbLogDump, hbad]

/-- **One call.**  On a table with a valid header a call is its operation on
the abstract log. -/
theorem view_run {s : LogTable} (hs : s.Valid) (call : LogCall) :
    (call.run c h s).view c = ((s.toLog c hs).apply c (call.op c h)).entries := by
  have hmax : s.maxEntries ≠ 0 := Nat.pos_iff_ne_zero.1 hs.1
  cases call with
  | addTableEntry name pcr digest_algo digest digest_len =>
    cases name with
    | none =>
      simp only [LogCall.run, tpmCbLogAddTableEntry, LogCall.op]
      split_ifs <;> rfl
    | some name =>
      simp only [LogCall.run, tpmCbLogAddTableEntry, LogCall.op, hmax, Nat.not_lt.2 hs.2, or_self,
        if_false, ge_iff_le]
      by_cases hfull : s.maxEntries ≤ s.numEntries
      · simp only [if_pos hfull]
        split_ifs <;> simp [Log.apply, LogTable.toLog, Nat.not_lt.2 hfull]
      · simp only [if_neg hfull]
        split_ifs
        · rfl
        · rfl
        · simp only [Log.apply, LogTable.toLog, LogTable.length_view, dif_pos (Nat.not_le.1 hfull),
            Option.getD_some]
          exact view_commit c s (addedEntry_terminated c h name pcr digest_algo digest digest_len)
  | copyEntries from_log =>
    rcases from_log with _ | f
    · rfl
    · simp only [LogCall.op]
      split_ifs with hf
      · simp [LogCall.run, tpmCbLogCopyEntries, hmax, Nat.pos_iff_ne_zero.1 hf.1, Nat.not_lt.2 hf.2,
          view_copyLoop, Log.apply, LogTable.toLog]
      · simp only [LogTable.Valid] at hf
        simp only [LogCall.run, tpmCbLogCopyEntries]
        split_ifs <;> first | rfl | omega
  | get outputs entry_idx => exact view_get c h outputs entry_idx
  | dump => exact view_dump c h

theorem toLog_run {t : LogTable} (ht : t.Valid) (call : LogCall) :
    (call.run c h t).toLog c (run_step c h ht call).1 = (t.toLog c ht).apply c (call.op c h) :=
  Log.ext ((run_step c h ht call).2.1.trans (Log.apply_grows c (t.toLog c ht) (call.op c h)).1.symm)
    (view_run c h ht call)

/-- **Runs.**  On a table with a valid header a run is its operations, in
order, on the abstract log. -/
theorem toLog_runCalls {t : LogTable} (ht : t.Valid) (calls : List LogCall) :
    (runCalls c h t calls).toLog c (runCalls_step c h ht calls).1 =
      (t.toLog c ht).applyAll c (calls.map (LogCall.op c h)) := by
  induction calls generalizing t with
  | nil => rfl
  | cons call calls ih =>
    rw [List.map_cons, Log.applyAll_cons, ← toLog_run c h ht call, ← ih (run_step c h ht call).1]
    rfl

/-- **The TPM log refines the abstract log.**  After any run of adds, copies,
reads and dumps, a table stands for the abstract log its first table stands
for, with the run's operations applied in order; a table whose header is bad
stands for none and is never written. -/
theorem runCalls_refines (t : LogTable) (calls : List LogCall) :
    (runCalls c h t calls).toLog? c = (t.toLog? c).map (·.applyAll c (calls.map (LogCall.op c h))) ∧
    (¬t.Valid → runCalls c h t calls = t) := by
  by_cases ht : t.Valid
  · refine ⟨?_, absurd ht⟩
    rw [LogTable.toLog?_of_valid c (runCalls_step c h ht calls).1, LogTable.toLog?_of_valid c ht,
      toLog_runCalls c h ht]
    rfl
  · have hrun : runCalls c h t calls = t := by
      induction calls with
      | nil => rfl
      | cons call calls ih => rwa [runCalls_cons, run_of_not_valid c h ht]
    exact ⟨by rw [hrun, LogTable.toLog?_of_not_valid c ht]; rfl, fun _ => hrun⟩

/-- An entry a copy reproduces: its digest passes the copy's check and its
copy is itself. -/
def CopyStable (e : LogEntry) : Prop := e.digestLength ≤ c.digestMaxLength ∧ copiedEntry c e = e

/-- What an operation commits is reproduced by a copy. -/
def Op.CopyStable : Op → Prop
  | .append e => TpmLog.CopyStable c e
  | .appendCopies _ | .keep => True

theorem copiedEntry_copyStable {e : LogEntry} (he : e.digestLength ≤ c.digestMaxLength) :
    CopyStable c (copiedEntry c e) := by
  refine ⟨he, ?_⟩
  simp only [copiedEntry, cutString_cutString, LogEntry.mk.injEq, true_and, and_true]
  funext j
  split_ifs <;> rfl

theorem addedEntry_copyStable (name : Bytes) (pcr : UInt32) (digest_algo : Nat) (digest : Option Bytes)
    {digest_len : Nat} (hlen : digest_len ≤ c.digestMaxLength) :
    CopyStable c (addedEntry c h name pcr digest_algo digest digest_len) := by
  have hmod : digest_len % 256 = digest_len := Nat.mod_eq_of_lt (by have := c.digestMaxLength_lt; omega)
  refine ⟨by simpa [addedEntry, hmod] using hlen, ?_⟩
  simp only [copiedEntry, addedEntry, hmod, safeStrncpy_zero _ c.pcrHashName_pos,
    safeStrncpy_zero _ c.pcrHashLen_pos, cutString_cutString, LogEntry.mk.injEq, true_and, and_true]
  funext j
  rcases digest with _ | d
  · split_ifs <;> rfl
  · by_cases hj : j < digest_len
    · simp [hj, memcpy, show 0 < digest_len by omega]
    · split_ifs <;> simp [hj, memcpy]

/-- Every operation of a call commits entries a copy reproduces. -/
theorem LogCall.op_copyStable (call : LogCall) : (call.op c h).CopyStable c := by
  unfold LogCall.op
  split
  · split_ifs with _ hlong
    · trivial
    · trivial
    · exact addedEntry_copyStable c h _ _ _ _ (Nat.not_lt.1 hlong)
  · split_ifs <;> trivial
  · trivial

theorem mem_copies {room : Nat} {src : List LogEntry} {e : LogEntry} (he : e ∈ copies c room src) :
    ∃ e' ∈ src, e'.digestLength ≤ c.digestMaxLength ∧ e = copiedEntry c e' := by
  obtain ⟨e', hmem, rfl⟩ := List.mem_map.1 he
  have hw := List.mem_of_mem_take hmem
  exact ⟨e', List.takeWhile_subset _ hw, by simpa using List.all_eq_true.1 List.all_takeWhile e' hw, rfl⟩

/-- Copies of entries a copy reproduces, with room for all, are the entries. -/
theorem copies_of_copyStable {room : Nat} {src : List LogEntry} (hsrc : ∀ e ∈ src, CopyStable c e)
    (hroom : src.length ≤ room) : copies c room src = src := by
  have hall : src.takeWhile (fun e => decide (e.digestLength ≤ c.digestMaxLength)) = src := by
    have := @List.takeWhile_append_of_pos _ (fun e => decide (e.digestLength ≤ c.digestMaxLength)) src []
      fun e he => decide_eq_true (hsrc e he).1
    rwa [List.append_nil, List.takeWhile_nil, List.append_nil] at this
  rw [copies, hall, List.take_of_length_le hroom]
  exact (List.map_congr_left fun e he => (hsrc e he).2).trans (List.map_id _)

/-- One operation keeps every entry one a copy reproduces. -/
theorem Log.apply_copyStable {L : Log} (hL : ∀ e ∈ L.entries, CopyStable c e) {op : Op} (hop : op.CopyStable c) :
    ∀ e ∈ (L.apply c op).entries, CopyStable c e := by
  intro e he
  cases op with
  | append e' =>
    simp only [Log.apply] at he
    split_ifs at he
    · rcases List.mem_append.1 he with he | he
      · exact hL e he
      · rwa [List.mem_singleton.1 he]
    · exact hL e he
  | appendCopies src =>
    rcases List.mem_append.1 he with he | he
    · exact hL e he
    · obtain ⟨e', -, hlen, rfl⟩ := mem_copies c he
      exact copiedEntry_copyStable c hlen
  | keep => exact hL e he

theorem Log.applyAll_copyStable {L : Log} (hL : ∀ e ∈ L.entries, CopyStable c e) {ops : List Op}
    (hops : ∀ op ∈ ops, op.CopyStable c) : ∀ e ∈ (L.applyAll c ops).entries, CopyStable c e := by
  induction ops generalizing L with
  | nil => exact hL
  | cons op ops ih =>
    exact ih (L.apply_copyStable c hL (hops op (.head _))) fun op' hop' => hops op' (.tail _ hop')

/-- **A log copies without loss.**  Take a table with a valid header and no
entry committed, and run any adds, copies, reads and dumps on it.  Then
`tpm_cb_log_copy_entries` from it into any table with a valid header and room
for all its entries appends them one for one: the destination then reads as
it did, followed by what the source reads as. -/
theorem copy_reproduces_log {f0 : LogTable} (hf0 : f0.Valid) (hempty : f0.numEntries = 0)
    (calls : List LogCall) {s : LogTable} (hs : s.Valid)
    (hroom : (runCalls c h f0 calls).numEntries ≤ s.maxEntries - s.numEntries) :
    ((LogCall.copyEntries (some (runCalls c h f0 calls))).run c h s).view c =
      s.view c ++ (runCalls c h f0 calls).view c := by
  have hf := (runCalls_step c h hf0 calls).1
  have hstable : ∀ e ∈ (runCalls c h f0 calls).view c, CopyStable c e := by
    have hL := congrArg Log.entries (toLog_runCalls c h hf0 calls)
    simp only [LogTable.toLog] at hL
    rw [hL]
    refine Log.applyAll_copyStable c (fun e he => ?_) fun op hop => ?_
    · simp [LogTable.toLog, LogTable.view, hempty] at he
    · obtain ⟨call, -, rfl⟩ := List.mem_map.1 hop
      exact LogCall.op_copyStable c h call
  rw [view_run c h hs, LogCall.op, if_pos hf]
  simp only [Log.apply, LogTable.toLog, LogTable.length_view]
  rw [copies_of_copyStable c hstable (by simpa using hroom)]

/-- A log of two entries with one add, copied into an empty log of four:
the copy reads as the source. -/
theorem copy_reproduces_log_after_add :
    (⟨2, 0, fun _ => LogEntry.zero⟩ : LogTable).Valid ∧ (⟨4, 0, fun _ => LogEntry.zero⟩ : LogTable).Valid ∧
    ((LogCall.copyEntries (some (runCalls sampleConsts sampleHashAlgorithms ⟨2, 0, fun _ => LogEntry.zero⟩
        [.addTableEntry (some (cString "x")) 0 0 none 0]))).run sampleConsts sampleHashAlgorithms
        ⟨4, 0, fun _ => LogEntry.zero⟩).view sampleConsts =
      (⟨4, 0, fun _ => LogEntry.zero⟩ : LogTable).view sampleConsts ++
        (runCalls sampleConsts sampleHashAlgorithms ⟨2, 0, fun _ => LogEntry.zero⟩
          [.addTableEntry (some (cString "x")) 0 0 none 0]).view sampleConsts :=
  ⟨by decide, by decide, copy_reproduces_log sampleConsts sampleHashAlgorithms (by decide) rfl _ (by decide)
    (by decide)⟩

/-! ## A log filled by adds -/

theorem LogCall.op_ne_appendCopies {call : LogCall} (hcall : ∀ from_log, call ≠ .copyEntries from_log)
    (src : List LogEntry) : call.op c h ≠ .appendCopies src := by
  cases call with
  | addTableEntry name =>
    cases name with
    | none => simp [LogCall.op]
    | some name => simp only [LogCall.op]; split_ifs <;> simp
  | copyEntries from_log => exact absurd rfl (hcall from_log)
  | get | dump => simp [LogCall.op]

/-- A table with a valid header and no entry committed, after adds, reads and
dumps, reads as the entries of the adds that pass their checks, as many as
fit. -/
theorem empty_log_reads_as_adds {t : LogTable} (ht : t.Valid) (hempty : t.numEntries = 0) (calls : List LogCall)
    (hcalls : ∀ call ∈ calls, ∀ from_log, call ≠ .copyEntries from_log) :
    (runCalls c h t calls).view c = (calls.filterMap fun call => (call.op c h).appended).take t.maxEntries := by
  rw [show (runCalls c h t calls).view c = _ from congrArg Log.entries (toLog_runCalls c h ht calls),
    Log.applyAll_appends c _ _ fun op hop src => ?_, List.filterMap_map]
  · simp only [LogTable.toLog, LogTable.view, hempty, List.range_zero, List.map_nil, List.nil_append]
    rfl
  · obtain ⟨call, hcall, rfl⟩ := List.mem_map.1 hop
    exact LogCall.op_ne_appendCopies c h (hcalls call hcall) src

/-- **The pre-RAM log reads as its adds.**  After `tpm_cb_preram_log_clear`,
with `MAX_PRERAM_TPM_LOG_ENTRIES` positive, any run of adds, reads and dumps
leaves the pre-RAM log reading as the entries of the adds whose arguments pass
the checks, in the order of the calls, the first
`MAX_PRERAM_TPM_LOG_ENTRIES` of them. -/
theorem preram_log_reads_as_adds (t0 : LogTable) (hmax : 0 < c.maxPreramTpmLogEntries) (calls : List LogCall)
    (hcalls : ∀ call ∈ calls, ∀ from_log, call ≠ .copyEntries from_log) :
    ∃ t, (tpmCbPreramLogClear c (some t0)).1 = some t ∧
      (runCalls c h t calls).view c =
        (calls.filterMap fun call => (call.op c h).appended).take c.maxPreramTpmLogEntries := by
  exact ⟨_, rfl, empty_log_reads_as_adds c h ⟨hmax, Nat.zero_le _⟩ rfl calls hcalls⟩

/-- The pre-RAM log of two entries, cleared, then three adds: it reads as the
first two. -/
theorem preram_log_reads_as_first_two_adds :
    0 < sampleConsts.maxPreramTpmLogEntries ∧
    ∃ t, (tpmCbPreramLogClear sampleConsts (some ⟨2, 0, fun _ => LogEntry.zero⟩)).1 = some t ∧
      (runCalls sampleConsts sampleHashAlgorithms t
        [.addTableEntry (some (cString "a")) 0 0 none 0, .addTableEntry (some (cString "b")) 1 0 none 0,
          .addTableEntry (some (cString "c")) 2 0 none 0]).view sampleConsts =
        [addedEntry sampleConsts sampleHashAlgorithms (cString "a") 0 0 none 0,
          addedEntry sampleConsts sampleHashAlgorithms (cString "b") 1 0 none 0] := by
  refine ⟨by decide, ?_⟩
  obtain ⟨t, ht, hview⟩ := preram_log_reads_as_adds sampleConsts sampleHashAlgorithms ⟨2, 0, fun _ => LogEntry.zero⟩
    (by decide) [.addTableEntry (some (cString "a")) 0 0 none 0, .addTableEntry (some (cString "b")) 1 0 none 0,
      .addTableEntry (some (cString "c")) 2 0 none 0] (by simp)
  exact ⟨t, ht, hview.trans (by simp [LogCall.op, Op.appended, sampleConsts])⟩

end TpmLog
