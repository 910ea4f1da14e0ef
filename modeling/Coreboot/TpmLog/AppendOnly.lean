import Coreboot.TpmLog.Copy

/-!
# The TPM log only grows

A run is any sequence of calls on one table (`LogCall`): adds, copies from
any other table, reads and dumps.  From a table whose header is valid:

* every call keeps the header valid and `max_entries`, and never lowers
  `num_entries` (`run_step`, `runCalls_step`);
* an add or a copy appends (`Appends`, `writes_spec`): it changes only
  entries between `num_entries` and `max_entries`, and every entry it changes
  or commits is terminated;
* a read or a dump changes only committed entries that are not terminated
  (`reads_spec`), so an entry committed by an add or a copy stays as it was
  through any later run (`runCalls_keeps`);
* `log_append_only` puts these together over every run.

A header `tpm_cb_log_cbmem_init` finds in CBMEM is checked for sanity but not
against `MAX_TPM_LOG_ENTRIES` (`cbmem_init_returns_oversized_table`).
-/

namespace TpmLog

variable (c : LogConsts) (h : HashAlgorithms)

/-- A call on the log table, with its arguments. -/
inductive LogCall
  | addTableEntry (name : Option Bytes) (pcr : UInt32) (digest_algo : Nat) (digest : Option Bytes)
      (digest_len : Nat)
  | copyEntries (from_log : Option LogTable)
  | get (outputs : Bool) (entry_idx : Int)
  | dump

/-- The table a call leaves when `tpm_log_init()` answers `t`; a copy goes
from another table into `t`. -/
def LogCall.run (t : LogTable) : LogCall → LogTable
  | .addTableEntry name pcr digest_algo digest digest_len =>
    ((tpmCbLogAddTableEntry c h (some t) name pcr digest_algo digest digest_len).1).getD t
  | .copyEntries from_log => ((tpmCbLogCopyEntries c from_log (some t)).1).getD t
  | .get outputs entry_idx => ((tpmCbLogGet c h outputs (some t) entry_idx).2.2).getD t
  | .dump => ((tpmCbLogDump c (some t)).1).getD t

/-- The calls that write entries. -/
def LogCall.Writes : LogCall → Prop
  | .addTableEntry .. | .copyEntries _ => True
  | .get .. | .dump => False

/-- The calls that reject their input on `t`: an add to a full table, without
a name, with a `NULL` digest of non-zero length or with a digest too long; a
copy whose first source entry finds the table full or has a digest too long. -/
def LogCall.Rejects (t : LogTable) : LogCall → Prop
  | .addTableEntry name _ _ digest digest_len =>
    t.maxEntries ≤ t.numEntries ∨ name = none ∨ (digest = none ∧ digest_len ≠ 0) ∨
      c.digestMaxLength < digest_len
  | .copyEntries (some f) =>
    0 < f.numEntries ∧ (t.maxEntries ≤ t.numEntries ∨ c.digestMaxLength < (f.entries 0).digestLength)
  | .copyEntries none | .get .. | .dump => False

/-- The table after a run of calls. -/
def runCalls (t : LogTable) (calls : List LogCall) : LogTable := calls.foldl (fun s call => call.run c h s) t

@[simp] theorem runCalls_nil (t : LogTable) : runCalls c h t [] = t := rfl

@[simp] theorem runCalls_cons (t : LogTable) (call : LogCall) (calls : List LogCall) :
    runCalls c h t (call :: calls) = runCalls c h (call.run c h t) calls := rfl

/-! ## What each call does -/

theorem copiedEntry_terminated (e : LogEntry) : (copiedEntry c e).Terminated c :=
  ⟨cutString_eq_zero (strnlen_le _ _), cutString_eq_zero (strnlen_le _ _)⟩

theorem addedEntry_terminated (name : Bytes) (pcr : UInt32) (digest_algo : Nat) (digest : Option Bytes)
    (digest_len : Nat) : (addedEntry c h name pcr digest_algo digest digest_len).Terminated c :=
  ⟨cutString_terminated _ c.pcrHashName_pos, cutString_terminated _ c.pcrHashLen_pos⟩

/-- An add leaves the table, or commits one terminated entry to a free slot. -/
theorem addTableEntry_cases {s : LogTable} (hs : s.Valid) (name : Option Bytes) (pcr : UInt32)
    (digest_algo : Nat) (digest : Option Bytes) (digest_len : Nat) :
    (LogCall.addTableEntry name pcr digest_algo digest digest_len).run c h s = s ∨
      (s.numEntries < s.maxEntries ∧ ∃ e, e.Terminated c ∧
        (LogCall.addTableEntry name pcr digest_algo digest digest_len).run c h s = s.commit e) := by
  cases name with
  | none => exact .inl (by simp only [LogCall.run, tpmCbLogAddTableEntry]; split_ifs <;> rfl)
  | some name =>
    simp only [LogCall.run, tpmCbLogAddTableEntry, Nat.pos_iff_ne_zero.1 hs.1, Nat.not_lt.2 hs.2,
      or_self, if_false, ge_iff_le]
    split_ifs with hfull
    · exact .inl rfl
    · exact .inl rfl
    · exact .inl rfl
    · exact .inr ⟨by omega, _, addedEntry_terminated c h name pcr digest_algo digest digest_len, rfl⟩

/-- A copy either leaves the table or is the copy loop over a source with a
valid header. -/
theorem copyEntries_cases {s : LogTable} (hs : s.Valid) (from_log : Option LogTable) :
    (LogCall.copyEntries from_log).run c h s = s ∨
      ∃ f, from_log = some f ∧ 0 < f.maxEntries ∧ f.numEntries ≤ f.maxEntries ∧
        (LogCall.copyEntries from_log).run c h s = (copyLoop c f 0 f.numEntries s).1 := by
  cases from_log with
  | none => exact .inl rfl
  | some f =>
    by_cases hf : 0 < f.maxEntries ∧ f.numEntries ≤ f.maxEntries
    · refine .inr ⟨f, rfl, hf.1, hf.2, ?_⟩
      simp [LogCall.run, tpmCbLogCopyEntries, Nat.pos_iff_ne_zero.1 hs.1, Nat.pos_iff_ne_zero.1 hf.1,
        Nat.not_lt.2 hf.2]
    · refine .inl ?_
      simp only [LogCall.run, tpmCbLogCopyEntries]
      split_ifs <;> first | rfl | omega

/-- What an add or a copy may do: keep `max_entries`, move `num_entries` up to
at most `max_entries`, change only entries between the two, each left
terminated, and leave every entry it commits terminated. -/
structure Appends (s s' : LogTable) : Prop where
  max_eq : s'.maxEntries = s.maxEntries
  num_le : s.numEntries ≤ s'.numEntries
  le_max : s'.numEntries ≤ s.maxEntries
  frame : ∀ i, s'.entries i = s.entries i ∨
    (s.numEntries ≤ i ∧ i < s.maxEntries ∧ (s'.entries i).Terminated c)
  committed : ∀ i, s.numEntries ≤ i → i < s'.numEntries → (s'.entries i).Terminated c

theorem Appends.refl {s : LogTable} (hs : s.Valid) : Appends c s s :=
  ⟨rfl, Nat.le_refl _, hs.2, fun _ => .inl rfl, fun _ h1 h2 => absurd h2 (by omega)⟩

theorem Appends.commit {s : LogTable} {e : LogEntry} (hlt : s.numEntries < s.maxEntries)
    (he : e.Terminated c) : Appends c s (s.commit e) where
  max_eq := rfl
  num_le := by simp
  le_max := by simpa using hlt
  frame i := by
    by_cases hi : i = s.numEntries
    · exact .inr ⟨by omega, by omega, by simpa [hi] using he⟩
    · exact .inl (by simp [hi])
  committed i h1 h2 := by
    simp only [LogTable.commit_numEntries] at h2
    simpa [show i = s.numEntries by omega] using he

/-- The copy loop appends. -/
theorem copyLoop_appends (f : LogTable) {s : LogTable} (hs : s.Valid) :
    Appends c s (copyLoop c f 0 f.numEntries s).1 := by
  obtain ⟨hmax, hnum, hcopy, hframe⟩ := copyLoop_spec c f 0 f.numEntries s
  have := hs.2
  have := copyCount_le c f 0 f.numEntries (s.maxEntries - s.numEntries)
  refine ⟨hmax, by omega, by omega, hframe, fun i h1 h2 => ?_⟩
  obtain ⟨j, rfl⟩ := Nat.exists_eq_add_of_le h1
  rw [hcopy j (by omega)]
  exact copiedEntry_terminated c _

/-- **Adds and copies append.** -/
theorem writes_spec {s : LogTable} (hs : s.Valid) {call : LogCall} (hw : call.Writes) :
    Appends c s (call.run c h s) := by
  cases call with
  | addTableEntry name pcr digest_algo digest digest_len =>
    rcases addTableEntry_cases c h hs name pcr digest_algo digest digest_len with heq | ⟨hlt, e, he, heq⟩
    · rw [heq]; exact Appends.refl c hs
    · rw [heq]; exact Appends.commit c hlt he
  | copyEntries from_log =>
    rcases copyEntries_cases c h hs from_log with heq | ⟨f, -, -, -, heq⟩
    · rw [heq]; exact Appends.refl c hs
    · rw [heq]; exact copyLoop_appends c f hs
  | get | dump => exact absurd hw id

/-- Terminating strings that are already terminated changes nothing. -/
theorem terminate_of_terminated {e : LogEntry} (he : e.Terminated c) : e.terminate c = e := by
  simp only [LogEntry.terminate, Bytes.set_self he.1, Bytes.set_self he.2]

/-- The search of `tpm_cb_log_get` leaves a terminated `digest_type` as it is. -/
theorem findAlgo_snd {dt : Bytes} (hdt : dt (c.pcrHashLen - 1) = 0) (names : List (Option Bytes)) (algo : Nat) :
    (findAlgo c names algo dt).2 = dt := by
  induction names generalizing algo with
  | nil => rfl
  | cons name names ih =>
    cases name with
    | none => exact ih _
    | some name =>
      simp only [findAlgo, Bytes.set_self hdt]
      split_ifs
      · rfl
      · exact ih _

/-- **Reads and dumps.**  They keep the header and change only committed
entries that are not terminated. -/
theorem reads_spec {s : LogTable} (hs : s.Valid) {call : LogCall} (hr : ¬call.Writes) :
    let s' := call.run c h s
    s'.maxEntries = s.maxEntries ∧ s'.numEntries = s.numEntries ∧
    ∀ i, (s.numEntries ≤ i ∨ (s.entries i).Terminated c) → s'.entries i = s.entries i := by
  cases call with
  | addTableEntry | copyEntries => exact absurd trivial hr
  | get outputs entry_idx =>
    simp only [LogCall.run, tpmCbLogGet]
    split_ifs with h1 h2 h3
    · simp
    · simp
    · simp
    · refine ⟨rfl, rfl, fun i hi => ?_⟩
      simp only [Option.getD_some, LogTable.setEntry_entries]
      split_ifs with hi'
      · subst hi'
        have hT : (s.entries entry_idx.toNat).Terminated c := hi.resolve_left (by omega)
        rw [findAlgo_snd c hT.2]
      · rfl
  | dump =>
    have hrun : LogCall.dump.run c h s = { s with entries := fun i =>
        if i < s.numEntries then (s.entries i).terminate c else s.entries i } := by
      simp [LogCall.run, tpmCbLogDump, Nat.pos_iff_ne_zero.1 hs.1, Nat.not_lt.2 hs.2]
    rw [hrun]
    refine ⟨rfl, rfl, fun i hi => ?_⟩
    dsimp only
    split_ifs with hi'
    · exact terminate_of_terminated c (hi.resolve_left (by omega))
    · rfl

/-! ## Runs -/

/-- One call keeps the header valid and `max_entries`, and never lowers
`num_entries`. -/
theorem run_step {s : LogTable} (hs : s.Valid) (call : LogCall) :
    (call.run c h s).Valid ∧ (call.run c h s).maxEntries = s.maxEntries ∧
      s.numEntries ≤ (call.run c h s).numEntries := by
  by_cases hw : call.Writes
  · have ha := writes_spec c h hs hw
    exact ⟨⟨ha.max_eq ▸ hs.1, ha.max_eq ▸ ha.le_max⟩, ha.max_eq, ha.num_le⟩
  · obtain ⟨hmax, hnum, -⟩ := reads_spec c h hs hw
    exact ⟨⟨hmax ▸ hs.1, hmax ▸ hnum ▸ hs.2⟩, hmax, Nat.le_of_eq hnum.symm⟩

theorem runCalls_step {s : LogTable} (hs : s.Valid) (calls : List LogCall) :
    (runCalls c h s calls).Valid ∧ (runCalls c h s calls).maxEntries = s.maxEntries ∧
      s.numEntries ≤ (runCalls c h s calls).numEntries := by
  induction calls generalizing s with
  | nil => exact ⟨hs, rfl, Nat.le_refl _⟩
  | cons call calls ih =>
    obtain ⟨hv, hmax, hnum⟩ := run_step c h hs call
    obtain ⟨hv', hmax', hnum'⟩ := ih hv
    exact ⟨hv', hmax'.trans hmax, Nat.le_trans hnum hnum'⟩

/-- One call leaves a committed, terminated entry as it is. -/
theorem run_keeps {s : LogTable} (hs : s.Valid) (call : LogCall) {i : Nat} (hi : i < s.numEntries)
    (hT : (s.entries i).Terminated c) : (call.run c h s).entries i = s.entries i := by
  by_cases hw : call.Writes
  · exact ((writes_spec c h hs hw).frame i).resolve_right (by omega)
  · exact (reads_spec c h hs hw).2.2 i (.inr hT)

/-- **Committed entries persist.**  A committed, terminated entry is the same
after any run of calls. -/
theorem runCalls_keeps {s : LogTable} (hs : s.Valid) (calls : List LogCall) {i : Nat}
    (hi : i < s.numEntries) (hT : (s.entries i).Terminated c) :
    (runCalls c h s calls).entries i = s.entries i := by
  induction calls generalizing s with
  | nil => rfl
  | cons call calls ih =>
    obtain ⟨hv, -, hnum⟩ := run_step c h hs call
    have hkeep := run_keeps c h hs call hi hT
    rw [runCalls_cons, ih hv (by omega) (hkeep ▸ hT), hkeep]

/-- A rejected call leaves `num_entries` and the committed entries. -/
theorem rejects_spec {s : LogTable} (hs : s.Valid) {call : LogCall} (hrej : call.Rejects c s) :
    (call.run c h s).numEntries = s.numEntries ∧
      ∀ i < s.numEntries, (call.run c h s).entries i = s.entries i := by
  suffices hnum : (call.run c h s).numEntries = s.numEntries by
    have hw : call.Writes := by cases call <;> trivial
    exact ⟨hnum, fun i hi => ((writes_spec c h hs hw).frame i).resolve_right (by omega)⟩
  cases call with
  | addTableEntry name pcr digest_algo digest digest_len =>
    cases name with
    | none => simp only [LogCall.run, tpmCbLogAddTableEntry]; split_ifs <;> rfl
    | some name =>
      simp only [LogCall.run, tpmCbLogAddTableEntry, Nat.pos_iff_ne_zero.1 hs.1, Nat.not_lt.2 hs.2,
        or_self, if_false, ge_iff_le]
      split_ifs with h1 h2 h3
      any_goals rfl
      rcases hrej with h | h | ⟨hd, hl⟩ | h
      · exact absurd h h1
      · cases h
      · exact absurd ⟨by simp [hd], hl⟩ h2
      · exact absurd h h3
  | copyEntries from_log =>
    cases from_log with
    | none => exact absurd hrej id
    | some f =>
      obtain ⟨hpos, hstop⟩ := hrej
      rcases copyEntries_cases c h hs (some f) with heq | ⟨_, hfe, hf1, hf2, heq⟩
      · rw [heq]
      · cases hfe
        obtain ⟨-, hnum, -⟩ := copyLoop_spec c f 0 f.numEntries s
        rw [heq, hnum]
        obtain ⟨n, hn⟩ := Nat.exists_eq_add_of_lt hpos
        rw [show f.numEntries = n + 1 by omega]
        cases hr : s.maxEntries - s.numEntries with
        | zero => simp [copyCount]
        | succ room =>
          rcases hstop with hfull | hlong
          · omega
          · simp [copyCount, hlong]
  | get | dump => exact absurd hrej id

/-- **The log is append-only.**  Over any run of adds, copies, reads and
dumps from a table with a valid header, and for each call in it: the header
stays valid with the same `max_entries` and `num_entries` never drops; an add
or a copy changes no entry below `num_entries` or from `max_entries` on, and
the entries it commits stay as they are through the rest of the run, reads
and dumps included; a call that rejects its input leaves `num_entries` and the
committed entries.  `tpm_cb_preram_log_clear` empties any table and sets
`max_entries` to `MAX_PRERAM_TPM_LOG_ENTRIES`. -/
theorem log_append_only {t : LogTable} (ht : t.Valid) (pre : List LogCall) (call : LogCall)
    (post : List LogCall) :
    let s := runCalls c h t pre
    let s' := call.run c h s
    s'.Valid ∧ s'.maxEntries = t.maxEntries ∧ s.numEntries ≤ s'.numEntries ∧
    (call.Writes → ∀ i, s'.entries i = s.entries i ∨ (s.numEntries ≤ i ∧ i < s.maxEntries)) ∧
    (call.Writes → ∀ i, s.numEntries ≤ i → i < s'.numEntries →
      (runCalls c h s' post).entries i = s'.entries i) ∧
    (call.Rejects c s → s'.numEntries = s.numEntries ∧ ∀ i < s.numEntries, s'.entries i = s.entries i) ∧
    ∀ t0 : LogTable, ∃ t1, tpmCbPreramLogClear c (some t0) = (some t1, []) ∧
      t1.numEntries = 0 ∧ t1.maxEntries = c.maxPreramTpmLogEntries := by
  intro s s'
  obtain ⟨hs, hmax, -⟩ := runCalls_step c h ht pre
  obtain ⟨hv, hmax', hnum⟩ := run_step c h hs call
  refine ⟨hv, hmax'.trans hmax, hnum, fun hw i => ?_, fun hw i h1 h2 => ?_, rejects_spec c h hs,
    fun t0 => ⟨_, rfl, rfl, rfl⟩⟩
  · exact ((writes_spec c h hs hw).frame i).imp_right fun h => ⟨h.1, h.2.1⟩
  · exact runCalls_keeps c h hv post h2 ((writes_spec c h hs hw).committed i h1 h2)

/-- A log of three entries with one committed: after an add of `"x"`, an
add of `"y"` commits entry 2, and a dump after it leaves that entry as it is. -/
theorem log_append_only_after_add :
    (⟨3, 1, fun _ => LogEntry.zero⟩ : LogTable).Valid ∧
    let s := runCalls sampleConsts sampleHashAlgorithms ⟨3, 1, fun _ => LogEntry.zero⟩
      [.addTableEntry (some (cString "x")) 0 0 none 0]
    let s' := (LogCall.addTableEntry (some (cString "y")) 1 0 none 0).run sampleConsts sampleHashAlgorithms s
    s.numEntries ≤ 2 ∧ 2 < s'.numEntries ∧
      (runCalls sampleConsts sampleHashAlgorithms s' [.dump]).entries 2 = s'.entries 2 :=
  have h := log_append_only sampleConsts sampleHashAlgorithms (t := ⟨3, 1, fun _ => LogEntry.zero⟩) (by decide)
    [.addTableEntry (some (cString "x")) 0 0 none 0] (.addTableEntry (some (cString "y")) 1 0 none 0) [.dump]
  ⟨by decide, by decide, by decide, h.2.2.2.2.1 trivial 2 (by decide) (by decide)⟩

/-! ## The table `tpm_cb_log_cbmem_init` hands out -/

/-- A header found in CBMEM claims one entry more than `MAX_TPM_LOG_ENTRIES`
and all but one committed: `tpm_cb_log_cbmem_init` returns it, and an add
into it commits entry `MAX_TPM_LOG_ENTRIES`, past the record's capacity. -/
theorem cbmem_init_returns_oversized_table :
    (tpmCbLogCbmemInit sampleConsts none true
        (some ⟨sampleConsts.maxTpmLogEntries + 1, sampleConsts.maxTpmLogEntries, fun _ => LogEntry.zero⟩)
        none).map LogTable.maxEntries = some (sampleConsts.maxTpmLogEntries + 1) ∧
    (tpmCbLogCbmemInit sampleConsts none true
        (some ⟨sampleConsts.maxTpmLogEntries + 1, sampleConsts.maxTpmLogEntries, fun _ => LogEntry.zero⟩)
        none).map (fun t => ((LogCall.addTableEntry (some Bytes.zero) 0 0 none 0).run sampleConsts
          sampleHashAlgorithms t).numEntries) = some (sampleConsts.maxTpmLogEntries + 1) := by
  decide

end TpmLog
