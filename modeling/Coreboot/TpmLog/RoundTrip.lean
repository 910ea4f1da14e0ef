import Coreboot.TpmLog.AppendOnly
import Mathlib.Tactic.Set

/-!
# An added entry reads back

`tpm_cb_log_add_table_entry` stores the digest algorithm as its name, cut to
the `digest_type` array; `tpm_cb_log_get` maps the stored name back to the
first algorithm of `vb2_hash_names` whose name `strcmp` finds equal.  The
algorithm comes back when its name fits the array and no other algorithm has
the same name:

* `findAlgo_fst` — the search returns the first algorithm whose name matches;
* `strcmp_cutString_iff` — a stored name matches exactly the names that agree
  with it up to its terminator;
* `add_get_round_trip` — `get(n)` right after an add to a table with `n`
  committed entries returns the PCR, the digest bytes, the cut event name and,
  under that condition, the algorithm.
-/

namespace TpmLog

variable (c : LogConsts) (h : HashAlgorithms)

/-- `s` is a C string of length `k`: `k` bytes that are not `NUL`, then `NUL`. -/
def IsCString (s : Bytes) (k : Nat) : Prop := s k = 0 ∧ ∀ j < k, s j ≠ 0

/-- **The search.**  With `digest_type` terminated, the algorithm found is the
one at position `m` when its name matches and no name before it does. -/
theorem findAlgo_fst {dt : Bytes} (hdt : dt (c.pcrHashLen - 1) = 0) (names : List (Option Bytes))
    (algo m : Nat) {name : Bytes} (hm : names.get? m = some (some name))
    (hmatch : strcmp dt name 0 c.pcrHashLen = true)
    (hbefore : ∀ j < m, ∀ n', names.get? j = some (some n') → strcmp dt n' 0 c.pcrHashLen = false) :
    (findAlgo c names algo dt).1 = algo + m := by
  induction names generalizing algo m with
  | nil => simp at hm
  | cons x names ih =>
    cases m with
    | zero =>
      cases hm
      simp [findAlgo, Bytes.set_self hdt, hmatch]
    | succ m =>
      have ih' := ih (algo + 1) m (by simpa using hm)
        (fun j hj n' hn' => hbefore (j + 1) (by omega) n' (by simpa using hn'))
      cases x with
      | none => rw [findAlgo, ih']; omega
      | some n' =>
        have hne := hbefore 0 (by omega) n' rfl
        simp only [findAlgo, Bytes.set_self hdt, hne, Bool.false_eq_true, if_false]
        rw [ih']; omega

/-- A name stored by `safe_strncpy` into the `digest_type` array, when it is a
C string that fits, matches exactly the names that agree with it up to its
terminator. -/
theorem strcmp_cutString_iff {s : Bytes} {k : Nat} (hs : IsCString s k) (hk : k < c.pcrHashLen)
    (n : Bytes) :
    strcmp (cutString s (c.pcrHashLen - 1)) n 0 c.pcrHashLen = true ↔ ∀ j ≤ k, s j = n j := by
  have hlen : strnlen s (c.pcrHashLen - 1) = k := strnlen_eq (by omega) hs.2 hs.1
  have hstop : stopIndex (cutString s (c.pcrHashLen - 1)) 0 c.pcrHashLen = k :=
    stopIndex_eq _ (Nat.zero_le k) (by omega)
      (fun j _ hj => by simpa [cutString, hlen, hj] using hs.2 j hj)
      (fun _ => cutString_eq_zero (by omega))
  rw [strcmp_iff _ _ (by omega), hstop]
  have hcut : ∀ j ≤ k, cutString s (c.pcrHashLen - 1) j = s j := by
    intro j hj
    rcases Nat.lt_or_eq_of_le hj with hj' | rfl
    · simp [cutString, hlen, hj']
    · rw [hs.1, cutString_eq_zero (by omega)]
  exact ⟨fun hall j hj => (hcut j hj).symm.trans (hall j (Nat.zero_le j) hj),
    fun hall j _ hj => (hcut j hj).trans (hall j hj)⟩

/-- **Add, then get.**  After `tpm_cb_log_add_table_entry` on a table with `n`
committed entries and room for one more, a digest no longer than
`TPM_CB_LOG_DIGEST_MAX_LENGTH` and a PCR up to `INT_MAX`, `tpm_cb_log_get(n)`
returns 0 with the PCR, the digest's bytes and the event name cut at
`TPM_CB_LOG_PCR_HASH_NAME - 1` characters; and the algorithm, when
`vb2_get_hash_algorithm_name` gives its entry of `vb2_hash_names`, a C string
shorter than `TPM_CB_LOG_PCR_HASH_LEN` that no other entry equals. -/
theorem add_get_round_trip (t : LogTable) (hn : t.numEntries < t.maxEntries) (name : Bytes)
    (pcr : UInt32) (hpcr : pcr.toNat ≤ intMax) (digest_algo : Nat) (digest : Bytes) (digest_len : Nat)
    (hlen : digest_len ≤ c.digestMaxLength) :
    let added := tpmCbLogAddTableEntry c h (some t) (some name) pcr digest_algo (some digest) digest_len
    ∃ out t', tpmCbLogGet c h true added.1 t.numEntries = (0, some out, some t') ∧
      out.pcr = pcr.toNat ∧ (∀ j < digest_len, out.digestData j = digest j) ∧
      out.eventName = cutString name (c.pcrHashName - 1) ∧
      ∀ hash_name k, h.vb2GetHashAlgorithmName digest_algo = some hash_name →
        h.vb2HashNames.get? digest_algo = some (some hash_name) → IsCString hash_name k →
        k < c.pcrHashLen →
        (∀ j n', j ≠ digest_algo → h.vb2HashNames.get? j = some (some n') → ∃ i ≤ k, n' i ≠ hash_name i) →
        out.digestAlgo = digest_algo := by
  intro added
  set e := addedEntry c h name pcr digest_algo (some digest) digest_len
  have hadd : added.1 = some (t.commit e) := by
    simp [added, tpmCbLogAddTableEntry, Nat.not_le.2 hn, Nat.not_lt.2 hlen, show t.maxEntries ≠ 0 by omega,
      Nat.not_lt.2 (Nat.le_of_lt hn), e]
  have hget : tpmCbLogGet c h true added.1 t.numEntries =
      (0, some ⟨toCInt e.pcr, e.digest, (findAlgo c h.vb2HashNames vb2HashInvalid e.digestType).1, e.name⟩,
        some ((t.commit e).setEntry t.numEntries
          { e with digestType := (findAlgo c h.vb2HashNames vb2HashInvalid e.digestType).2 })) := by
    simp [hadd, tpmCbLogGet, Int.toNat_ofNat, show t.maxEntries ≠ 0 by omega, Nat.not_lt.2 (Nat.succ_le_of_lt hn),
      show ¬((t.numEntries : Int) < 0) by omega]
  refine ⟨_, _, hget, ?_, fun j hj => ?_, ?_, ?_⟩
  · simp [toCInt, e, addedEntry, hpcr]
  · simp [e, addedEntry, memcpy, hj, Nat.zero_lt_of_lt hj]
  · exact safeStrncpy_zero _ c.pcrHashName_pos
  · intro hash_name k hget hnames hs hk hother
    have hdt : e.digestType = cutString hash_name (c.pcrHashLen - 1) := by
      simp only [e, addedEntry, hget, Option.getD_some]
      exact safeStrncpy_zero _ c.pcrHashLen_pos
    show (findAlgo c h.vb2HashNames 0 e.digestType).1 = digest_algo
    rw [hdt, findAlgo_fst c (cutString_eq_zero (by rw [strnlen_eq (by omega) hs.2 hs.1]; omega))
      h.vb2HashNames 0 digest_algo hnames ((strcmp_cutString_iff c hs hk _).2 fun _ _ => rfl), Nat.zero_add]
    intro j hj n' hn'
    obtain ⟨i, hi, hne⟩ := hother j n' (by omega) hn'
    exact Bool.eq_false_iff.2 fun hm => hne ((strcmp_cutString_iff c hs hk n').1 hm i hi).symm

/-- A `ramstage` entry for PCR 2 with a SHA256 digest of 32 bytes, added to a
log with one entry: `get(1)` returns PCR 2 and SHA256. -/
theorem add_get_round_trip_sha256 :
    (⟨4, 1, fun _ => LogEntry.zero⟩ : LogTable).numEntries < (⟨4, 1, fun _ => LogEntry.zero⟩ : LogTable).maxEntries ∧
    (2 : UInt32).toNat ≤ intMax ∧ 32 ≤ sampleConsts.digestMaxLength ∧
    ∃ out t', tpmCbLogGet sampleConsts sampleHashAlgorithms true
        (tpmCbLogAddTableEntry sampleConsts sampleHashAlgorithms (some ⟨4, 1, fun _ => LogEntry.zero⟩)
          (some (cString "ramstage")) 2 2 (some fun i => i.toUInt8) 32).1 1 = (0, some out, some t') ∧
      out.pcr = 2 ∧ out.digestAlgo = 2 := by
  obtain ⟨out, t', hget, hpcr, -, -, halgo⟩ := add_get_round_trip sampleConsts sampleHashAlgorithms
    ⟨4, 1, fun _ => LogEntry.zero⟩ (by decide) (cString "ramstage") 2 (by decide) 2 (fun i => i.toUInt8) 32
    (by decide)
  refine ⟨by decide, by decide, by decide, out, t', hget, by rw [hpcr]; rfl,
    halgo (cString "SHA256") 6 rfl rfl ⟨by decide, by decide⟩ (by decide) fun j n' hj hn' => ?_⟩
  rcases j with _ | _ | _ | j
  · simp [sampleHashAlgorithms] at hn'
  · simp only [sampleHashAlgorithms, List.get?_cons_succ, List.get?_cons_zero, Option.some.injEq] at hn'
    subst hn'
    exact ⟨3, by decide, by decide⟩
  · exact absurd rfl hj
  · simp [sampleHashAlgorithms] at hn'

end TpmLog
