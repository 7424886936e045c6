import StudyC.Lib.RunningAverage
import StudyC.Metrics.Collector

/-!
# The average of the latencies

`latency_record` keeps the average as an average. The product of average and count is taken in 64
bits, the new count in 32, and each division drops its remainder.
-/

open Runs RunningAverage

namespace StudyC.Metrics

variable {stats t : LatencyStats} {x : UInt64}

/-- The next sample is counted and added without a wrap. -/
def Fits (stats : LatencyStats) (x : UInt64) : Prop :=
  stats.sampleCount.toNat + 1 < 2 ^ 32 ∧
    stats.avgUs.toNat * stats.sampleCount.toNat + x.toNat < 2 ^ 64

instance (stats : LatencyStats) (x : UInt64) : Decidable (Fits stats x) :=
  inferInstanceAs (Decidable (_ ∧ _))

/-- The call returns, and the average is between the smallest and the largest sample. -/
def Ordered (stats : LatencyStats) (x : UInt64) : Prop :=
  ∃ t, latencyRecord stats x = some t ∧ t.minUs ≤ t.avgUs ∧ t.avgUs ≤ t.maxUs

/-! ## One call -/

theorem count_wraps_iff (c : UInt32) : c + 1 = 0 ↔ c.toNat + 1 = 2 ^ 32 := by
  have hlt := c.toNat_lt
  rw [← UInt32.toNat_inj, UInt32.toNat_add]
  simp only [UInt32.reduceToNat]
  omega

theorem record_extremes (h : latencyRecord stats x = some t) :
    (t.minUs ≤ x ∧ x ≤ t.maxUs) ∧
      (stats.sampleCount ≠ 0 → t.minUs ≤ stats.minUs ∧ stats.maxUs ≤ t.maxUs) := by
  rw [latencyRecord_eq h]
  simp only [UInt64.le_iff_toNat_le, UInt64.lt_iff_toNat_lt, gt_iff_lt]
  by_cases hzero : stats.sampleCount = 0
  · simp [hzero]
  · simp only [hzero, if_false, ne_eq, not_false_eq_true, forall_const]
    constructor <;> constructor <;> split <;> omega

theorem record_min_ge {m : UInt64} (h : latencyRecord stats x = some t) (hx : m ≤ x)
    (hmin : stats.sampleCount ≠ 0 → m ≤ stats.minUs) : m ≤ t.minUs := by
  rw [latencyRecord_eq h]
  dsimp only
  split
  · exact hx
  · rename_i hcount
    split
    · exact hx
    · exact hmin hcount

theorem record_returns (hcount : stats.sampleCount.toNat + 1 < 2 ^ 32) (x : UInt64) :
    ∃ t, latencyRecord stats x = some t := by
  apply latencyRecord_total
  rw [Ne, count_wraps_iff]
  omega

theorem record_count (hcount : stats.sampleCount.toNat + 1 < 2 ^ 32)
    (h : latencyRecord stats x = some t) : t.sampleCount.toNat = stats.sampleCount.toNat + 1 := by
  rw [latencyRecord_sampleCount h, UInt32.toNat_add, show (1 : UInt32).toNat = 1 from rfl,
    Nat.mod_eq_of_lt hcount]

theorem record_average_mod (hcount : stats.sampleCount.toNat + 1 < 2 ^ 32)
    (h : latencyRecord stats x = some t) :
    t.avgUs.toNat = (stats.avgUs.toNat * stats.sampleCount.toNat + x.toNat) % 2 ^ 64 /
      (stats.sampleCount.toNat + 1) := by
  have hnext := record_count hcount h
  rw [latencyRecord_sampleCount h] at hnext
  rw [latencyRecord_eq h]
  dsimp only
  rw [UInt64.toNat_div, UInt64.toNat_add, UInt64.toNat_mul, UInt32.toNat_toUInt64,
    UInt32.toNat_toUInt64, hnext, Nat.mod_add_mod]

theorem record_average (hfits : Fits stats x) (h : latencyRecord stats x = some t) :
    t.avgUs.toNat = next stats.avgUs.toNat stats.sampleCount.toNat x.toNat := by
  rw [record_average_mod hfits.1 h, Nat.mod_eq_of_lt hfits.2]
  rfl

/-! ## The division by zero -/

theorem count_of_record (h : latencyRecord stats x = some t) :
    stats.sampleCount.toNat + 1 < 2 ^ 32 := by
  have hlt := stats.sampleCount.toNat_lt
  have hne : ¬ stats.sampleCount + 1 = 0 := by
    intro hzero
    simp [latencyRecord, hzero] at h
  rw [count_wraps_iff] at hne
  omega

theorem run_count {xs : List UInt64} (hrun : exec latencyRecord stats xs = some t) :
    t.sampleCount.toNat = stats.sampleCount.toNat + xs.length := by
  induction xs generalizing stats with
  | nil =>
    obtain rfl := Option.some.inj hrun
    rfl
  | cons x xs ih =>
    obtain ⟨s, hs, hrest⟩ := exec_cons.mp hrun
    rw [ih hrest, record_count (count_of_record hs) hs, List.length_cons]
    omega

theorem exec_isSome_iff (stats : LatencyStats) (xs : List UInt64) :
    (exec latencyRecord stats xs).isSome ↔ stats.sampleCount.toNat + xs.length < 2 ^ 32 := by
  induction xs generalizing stats with
  | nil => simpa [exec] using stats.sampleCount.toNat_lt
  | cons x xs ih =>
    rw [exec, List.length_cons]
    rcases Nat.lt_or_ge (stats.sampleCount.toNat + 1) (2 ^ 32) with hlt | hge
    · obtain ⟨t, ht⟩ := record_returns hlt x
      rw [ht, Option.bind_some, ih, record_count hlt ht]
      omega
    · have hwraps : stats.sampleCount + 1 = 0 := by
        have := stats.sampleCount.toNat_lt
        rw [count_wraps_iff]
        omega
      rw [latencyRecord, if_pos hwraps]
      simp only [Option.bind_none, Option.isSome_none, Bool.false_eq_true, false_iff]
      omega

/-! ## The range of the average -/

/-- Before the first sample there is nothing to compare. -/
def InRange (stats : LatencyStats) : Prop :=
  stats.sampleCount ≠ 0 → stats.minUs ≤ stats.avgUs ∧ stats.avgUs ≤ stats.maxUs

theorem record_ordered (hrange : InRange stats) (hfits : Fits stats x)
    (h : latencyRecord stats x = some t) : t.minUs ≤ t.avgUs ∧ t.avgUs ≤ t.maxUs := by
  obtain ⟨⟨hmin, hmax⟩, hold⟩ := record_extremes h
  simp only [UInt64.le_iff_toNat_le] at hmin hmax hold ⊢
  have hcount : stats.sampleCount.toNat ≠ 0 → stats.sampleCount ≠ 0 := by
    intro hne heq
    simp [heq] at hne
  rw [record_average hfits h]
  constructor
  · apply le_next _ hmin
    intro hne
    exact Nat.le_trans (hold (hcount hne)).1 (UInt64.le_iff_toNat_le.mp (hrange (hcount hne)).1)
  · apply next_le _ hmax
    intro hne
    exact Nat.le_trans (UInt64.le_iff_toNat_le.mp (hrange (hcount hne)).2) (hold (hcount hne)).2

theorem InRange.ordered {xs : List UInt64} (hrange : InRange stats)
    (h : Along latencyRecord Fits stats xs) : Along latencyRecord Ordered stats xs := by
  refine Along.mono (I := InRange) ?_ ?_ hrange h
  · intro stats x t hrange hfits hs _
    exact record_ordered hrange hfits hs
  · intro stats x hrange hfits
    obtain ⟨t, ht⟩ := record_returns hfits.1 x
    exact ⟨t, ht, record_ordered hrange hfits ht⟩

theorem zero_inRange : InRange .zero := absurd rfl

theorem ordered_while_fits {xs : List UInt64} (h : Along latencyRecord Fits .zero xs) :
    Along latencyRecord Ordered .zero xs :=
  zero_inRange.ordered h

theorem ordered_three_samples : Along latencyRecord Ordered .zero [5, 3, 9] :=
  ordered_while_fits (by decide)

/-- Two samples whose sum is `2 ^ 64` have the average 0, and no sequence of `2 ^ 32` samples comes
to its end. -/
theorem average_below_minimum :
    ¬ Along latencyRecord Ordered .zero [9223372036854775808, 9223372036854775808] ∧
      ∀ xs : List UInt64, 2 ^ 32 ≤ xs.length → exec latencyRecord .zero xs = none := by
  constructor
  · rintro ⟨-, hrest⟩
    obtain ⟨⟨t, ht, hle, -⟩, -⟩ := hrest _ rfl
    obtain rfl := Option.some.inj ht
    revert hle
    decide
  · intro xs hlen
    rw [← Option.not_isSome_iff_eq_none, exec_isSome_iff]
    omega

/-! ## The value of the average -/

structure Records (xs : List UInt64) (stats : LatencyStats) : Prop where
  count : stats.sampleCount.toNat = xs.length
  average : stats.avgUs.toNat = average (xs.map UInt64.toNat)

theorem Records.fits {xs : List UInt64} (h : Records xs stats) (hlen : xs.length + 1 < 2 ^ 32)
    (hsum : (xs.map UInt64.toNat).sum + x.toNat < 2 ^ 64) : Fits stats x := by
  have hle := average_mul_le_sum (xs.map UInt64.toNat)
  rw [List.length_map] at hle
  refine ⟨by rw [h.count]; exact hlen, ?_⟩
  rw [h.count, h.average]
  omega

theorem run_records {xs : List UInt64} (hlen : xs.length < 2 ^ 32)
    (hsum : (xs.map UInt64.toNat).sum < 2 ^ 64) :
    ∃ t, exec latencyRecord .zero xs = some t ∧ Records xs t := by
  induction xs using List.reverseRecOn with
  | nil => exact ⟨.zero, rfl, rfl, rfl⟩
  | append_singleton xs x ih =>
    rw [List.length_append, List.length_singleton] at hlen
    rw [List.map_append, List.sum_append, List.map_singleton, List.sum_singleton] at hsum
    obtain ⟨stats, hrun, hrecords⟩ := ih (by omega) (by omega)
    have hfits := hrecords.fits hlen hsum
    obtain ⟨t, ht⟩ := record_returns hfits.1 x
    refine ⟨t, ?_, ?_, ?_⟩
    · rw [exec_append, hrun, Option.bind_some, exec, ht]
      rfl
    · rw [record_count hfits.1 ht, hrecords.count, List.length_append, List.length_singleton]
    · rw [record_average hfits ht, hrecords.count, hrecords.average, List.map_append,
        List.map_singleton, average_concat, List.length_map]

theorem run_fits {xs : List UInt64} (hlen : xs.length < 2 ^ 32)
    (hsum : (xs.map UInt64.toNat).sum < 2 ^ 64) : Along latencyRecord Fits .zero xs := by
  induction xs using List.reverseRecOn with
  | nil => trivial
  | append_singleton xs x ih =>
    rw [List.length_append, List.length_singleton] at hlen
    rw [List.map_append, List.sum_append, List.map_singleton, List.sum_singleton] at hsum
    apply (ih (by omega) (by omega)).concat
    intro stats hrun
    obtain ⟨t, hrun', hrecords⟩ : ∃ t, exec latencyRecord .zero xs = some t ∧ Records xs t :=
      run_records (by omega) (by omega)
    obtain rfl := Option.some.inj (hrun.symm.trans hrun')
    exact hrecords.fits hlen hsum

/-! ## Extremes -/

structure Extremes (xs : List UInt64) (stats : LatencyStats) : Prop where
  min_mem : stats.minUs ∈ xs
  min_le : ∀ x ∈ xs, stats.minUs ≤ x
  max_mem : stats.maxUs ∈ xs
  le_max : ∀ x ∈ xs, x ≤ stats.maxUs

theorem record_extremes_cases (h : latencyRecord stats x = some t) :
    (t.minUs = x ∨ (stats.sampleCount ≠ 0 ∧ t.minUs = stats.minUs)) ∧
      (t.maxUs = x ∨ (stats.sampleCount ≠ 0 ∧ t.maxUs = stats.maxUs)) := by
  rw [latencyRecord_eq h]
  dsimp only
  constructor <;> split
  · exact Or.inl rfl
  · split <;> simp_all
  · exact Or.inl rfl
  · split <;> simp_all

theorem Extremes.record {xs : List UInt64} (hold : stats.sampleCount ≠ 0 → Extremes xs stats)
    (hempty : stats.sampleCount = 0 → xs = []) (h : latencyRecord stats x = some t) :
    Extremes (xs ++ [x]) t := by
  obtain ⟨⟨hmin, hmax⟩, hrest⟩ := record_extremes h
  obtain ⟨hminCases, hmaxCases⟩ := record_extremes_cases h
  have hmem : ∀ y ∈ xs ++ [x], y = x ∨ (stats.sampleCount ≠ 0 ∧ y ∈ xs) := by
    intro y hy
    rcases List.mem_append.mp hy with hy | hy
    · refine Or.inr ⟨fun hzero => ?_, hy⟩
      rw [hempty hzero] at hy
      simp at hy
    · exact Or.inl (List.mem_singleton.mp hy)
  refine ⟨?_, ?_, ?_, ?_⟩
  · rcases hminCases with he | ⟨hne, he⟩
    · simp [he]
    · rw [he]
      exact List.mem_append_left _ (hold hne).min_mem
  · intro y hy
    rcases hmem y hy with rfl | ⟨hne, hy⟩
    · exact hmin
    · exact UInt64.le_trans (hrest hne).1 ((hold hne).min_le y hy)
  · rcases hmaxCases with he | ⟨hne, he⟩
    · simp [he]
    · rw [he]
      exact List.mem_append_left _ (hold hne).max_mem
  · intro y hy
    rcases hmem y hy with rfl | ⟨hne, hy⟩
    · exact hmax
    · exact UInt64.le_trans ((hold hne).le_max y hy) (hrest hne).2

theorem run_extremes {xs : List UInt64} (hne : xs ≠ [])
    (hrun : exec latencyRecord .zero xs = some t) : Extremes xs t := by
  induction xs using List.reverseRecOn generalizing t with
  | nil => contradiction
  | append_singleton xs x ih =>
    rw [exec_append, Option.bind_eq_some_iff] at hrun
    obtain ⟨stats, hstats, hlast⟩ := hrun
    obtain ⟨t', ht', hdone⟩ := exec_cons.mp hlast
    obtain rfl := Option.some.inj hdone
    have hcount := run_count hstats
    refine .record (fun hcounted => ih ?_ hstats) (fun hzero => ?_) ht'
    · rintro rfl
      obtain rfl := Option.some.inj hstats
      exact hcounted rfl
    · have hlength : xs.length = 0 := by simpa [hzero, LatencyStats.zero] using hcount.symm
      exact List.eq_nil_of_length_eq_zero hlength

/-- No step of the computation wraps, the extremes are exact, and what the divisions drop is bounded
by the number of samples alone. -/
theorem samples_recorded {xs : List UInt64} (hne : xs ≠ []) (hlen : xs.length < 2 ^ 32 - 1)
    (hsum : (xs.map UInt64.toNat).sum < 2 ^ 64) :
    Along latencyRecord Fits .zero xs ∧
      ∃ t, exec latencyRecord .zero xs = some t ∧ t.sampleCount.toNat = xs.length ∧
        (t.minUs ∈ xs ∧ ∀ x ∈ xs, t.minUs ≤ x) ∧ (t.maxUs ∈ xs ∧ ∀ x ∈ xs, x ≤ t.maxUs) ∧
        xs.length * t.avgUs.toNat ≤ (xs.map UInt64.toNat).sum ∧
        (xs.map UInt64.toNat).sum - xs.length * t.avgUs.toNat ≤
          xs.length * (xs.length - 1) / 2 := by
  have hfits := run_fits (by omega) hsum
  obtain ⟨t, hrun, hrecords⟩ := run_records (by omega) hsum
  have hextremes := run_extremes hne hrun
  have hwhole := average_mul_add_drift (xs.map UInt64.toNat)
  have hdrift := drift_le (xs.map UInt64.toNat)
  rw [List.length_map] at hwhole hdrift
  rw [← hrecords.average, Nat.mul_comm] at hwhole
  refine ⟨hfits, t, hrun, hrecords.count, ⟨hextremes.min_mem, hextremes.min_le⟩,
    ⟨hextremes.max_mem, hextremes.le_max⟩, ?_, ?_⟩
  · omega
  · omega

theorem samples_recorded_two :
    ∃ t, exec latencyRecord .zero [1, 4] = some t ∧ t.sampleCount.toNat = 2 := by
  have hne : ([1, 4] : List UInt64) ≠ [] := by simp
  obtain ⟨-, t, hrun, hcount, -⟩ := samples_recorded hne (by decide) (by decide)
  exact ⟨t, hrun, hcount⟩

/-! ## Exact averages -/

def Exact (xs : List UInt64) : Prop :=
  ∃ t, exec latencyRecord .zero xs = some t ∧ t.avgUs.toNat = (xs.map UInt64.toNat).sum / xs.length

theorem exact_iff_drift {xs : List UInt64} (hne : xs ≠ []) (hlen : xs.length < 2 ^ 32 - 1)
    (hsum : (xs.map UInt64.toNat).sum < 2 ^ 64) :
    Exact xs ↔ drift (xs.map UInt64.toNat) < xs.length := by
  obtain ⟨t, hrun, hrecords⟩ := run_records (by omega) hsum
  have hne' : xs.map UInt64.toNat ≠ [] := by simpa using hne
  have hiff := average_eq_iff hne'
  rw [List.length_map] at hiff
  rw [← hiff, ← hrecords.average]
  constructor
  · rintro ⟨t', hrun', hexact⟩
    obtain rfl := Option.some.inj (hrun.symm.trans hrun')
    exact hexact
  · intro hexact
    exact ⟨t, hrun, hexact⟩

/-- It is enough that the first `k` samples add up to a multiple of `k`, for all `k` but the last.
-/
theorem exact_of_dvd {xs : List UInt64} (hne : xs ≠ []) (hlen : xs.length < 2 ^ 32 - 1)
    (hsum : (xs.map UInt64.toNat).sum < 2 ^ 64)
    (hdvd : ∀ k < xs.length, k ∣ ((xs.take k).map UInt64.toNat).sum) : Exact xs := by
  rw [exact_iff_drift hne hlen hsum, ← List.length_map (f := UInt64.toNat)]
  refine drift_lt_of_dvd (by simpa using hne) fun k hk => ?_
  rw [← List.map_take]
  exact hdvd k (by simpa using hk)

theorem exact_of_length_le_two {xs : List UInt64} (hne : xs ≠ []) (hlen : xs.length ≤ 2)
    (hsum : (xs.map UInt64.toNat).sum < 2 ^ 64) : Exact xs := by
  refine exact_of_dvd hne (by omega) hsum fun k hk => ?_
  obtain rfl | rfl : k = 0 ∨ k = 1 := by omega
  · simp
  · exact Nat.one_dvd _

/-- The stored average is the exact one for the sequences, and the sets of samples in any order,
whose divisions drop less than one unit a sample. -/
theorem average_exact_iff {xs : List UInt64} (hne : xs ≠ []) (hlen : xs.length < 2 ^ 32 - 1)
    (hsum : (xs.map UInt64.toNat).sum < 2 ^ 64) :
    (Exact xs ↔ drift (xs.map UInt64.toNat) < xs.length) ∧
      ((∀ ys : List UInt64, ys.Perm xs → Exact ys) ↔
        ∀ ys : List UInt64, ys.Perm xs → drift (ys.map UInt64.toNat) < ys.length) := by
  refine ⟨exact_iff_drift hne hlen hsum, forall_congr' fun ys => forall_congr' fun hperm => ?_⟩
  apply exact_iff_drift
  · intro hnil
    subst hnil
    exact hne hperm.nil_eq.symm
  · rw [hperm.length_eq]
    exact hlen
  · rw [(hperm.map UInt64.toNat).sum_nat]
    exact hsum

theorem average_exact_two_samples : Exact [1, 4] := by
  have hne : ([1, 4] : List UInt64) ≠ [] := by simp
  exact (average_exact_iff hne (by decide) (by decide)).1.mpr (by decide)

theorem average_depends_on_order : Exact [1, 3, 2] ∧ ¬ Exact [1, 2, 3] := by
  refine ⟨⟨_, rfl, by decide⟩, ?_⟩
  rintro ⟨t, ht, hexact⟩
  obtain rfl := Option.some.inj ht
  revert hexact
  decide

/-! ## How much is safe -/

theorem fits_of_bounded {n : Nat} {m : UInt64} (hn : n < 2 ^ 32) (hm : n * m.toNat < 2 ^ 64)
    {xs : List UInt64} (hlen : stats.sampleCount.toNat + xs.length ≤ n) (havg : stats.avgUs ≤ m)
    (hxs : ∀ x ∈ xs, x ≤ m) : Along latencyRecord Fits stats xs := by
  induction xs generalizing stats with
  | nil => trivial
  | cons x xs ih =>
    rw [List.length_cons] at hlen
    have hx := hxs x (.head xs)
    rw [UInt64.le_iff_toNat_le] at havg hx
    have hfits : Fits stats x := by
      refine ⟨by omega, Nat.lt_of_le_of_lt ?_ hm⟩
      calc stats.avgUs.toNat * stats.sampleCount.toNat + x.toNat
        _ ≤ m.toNat * stats.sampleCount.toNat + m.toNat :=
          Nat.add_le_add (Nat.mul_le_mul_right _ havg) hx
        _ = (stats.sampleCount.toNat + 1) * m.toNat := by rw [Nat.succ_mul, Nat.mul_comm]
        _ ≤ n * m.toNat := Nat.mul_le_mul_right _ (by omega)
    refine ⟨hfits, fun t ht => ih ?_ ?_ fun y hy => hxs y (.tail x hy)⟩
    · rw [record_count hfits.1 ht]
      omega
    · rw [UInt64.le_iff_toNat_le, record_average hfits ht]
      exact next_le (fun _ => havg) hx

theorem ordered_returns {xs : List UInt64} (h : Along latencyRecord Ordered stats xs) :
    (exec latencyRecord stats xs).isSome := by
  induction xs generalizing stats with
  | nil => rfl
  | cons x xs ih =>
    obtain ⟨⟨t, ht, -⟩, hrest⟩ := h
    rw [exec, ht]
    exact ih (hrest t ht)

theorem min_of_lower_bound {m : UInt64} {xs : List UInt64} (hxs : ∀ x ∈ xs, m ≤ x)
    (hrun : exec latencyRecord .zero xs = some t) : t.sampleCount ≠ 0 → m ≤ t.minUs := by
  refine invariant (P := fun _ x => m ≤ x) (I := fun s => s.sampleCount ≠ 0 → m ≤ s.minUs) ?_
    (absurd rfl)
    (along_of_forall_mem (fun x hx _ => hxs x hx) _) hrun
  intro stats x t hmin hx ht _
  exact record_min_ge ht hx hmin

theorem repeated_not_ordered {k : Nat} {m : UInt64} (hk : k ≠ 0) (hcount : k + 1 < 2 ^ 32)
    (hfits : k * m.toNat < 2 ^ 64) (hwraps : 2 ^ 64 ≤ (k + 1) * m.toNat) :
    ¬ Along latencyRecord Ordered .zero (List.replicate (k + 1) m) := by
  intro hordered
  have hlength : (List.replicate k m).length < 2 ^ 32 := by
    rw [List.length_replicate]
    omega
  obtain ⟨stats, hrun, hrecords⟩ := run_records hlength (by simpa using hfits)
  have hstats : stats.sampleCount.toNat = k := by simpa using hrecords.count
  have havg : stats.avgUs.toNat = m.toNat := by
    rw [hrecords.average, List.map_replicate, average_replicate hk]
  rw [List.replicate_succ'] at hordered
  obtain ⟨t, ht, hle, -⟩ := hordered.last hrun
  have hmin : m ≤ t.minUs := by
    refine record_min_ge ht (UInt64.le_refl m) (min_of_lower_bound ?_ hrun)
    intro x hx
    rw [List.eq_of_mem_replicate hx]
    exact UInt64.le_refl m
  have hmod := record_average_mod (by rw [hstats]; exact hcount) ht
  rw [hstats, havg, Nat.mul_comm, ← Nat.add_one_mul] at hmod
  have hdiv := Nat.div_le_self ((k + 1) * m.toNat % 2 ^ 64) (k + 1)
  have hsucc := Nat.add_one_mul k m.toNat
  have hlt := m.toNat_lt
  rw [UInt64.le_iff_toNat_le] at hle hmin
  omega

theorem ordered_for_all_iff (n : Nat) (m : UInt64) :
    (∀ xs : List UInt64, xs.length ≤ n → (∀ x ∈ xs, x ≤ m) → Along latencyRecord Ordered .zero xs) ↔
      n < 2 ^ 32 ∧ n * m.toNat < 2 ^ 64 := by
  constructor
  · intro h
    have hn : n < 2 ^ 32 := by
      have hreturns := ordered_returns (h (List.replicate n 0) (by simp) (by simp))
      rw [exec_isSome_iff, List.length_replicate] at hreturns
      omega
    refine ⟨hn, ?_⟩
    by_contra hwraps
    -- the most repetitions of `m` whose sum does not wrap
    have hpos : 0 < m.toNat := by
      rcases Nat.eq_zero_or_pos m.toNat with hzero | hpos
      · simp [hzero] at hwraps
      · exact hpos
    have hdivmod := Nat.div_add_mod' (2 ^ 64 - 1) m.toNat
    have hrest := Nat.mod_lt (2 ^ 64 - 1) hpos
    generalize hk : (2 ^ 64 - 1) / m.toNat = k at hdivmod
    have hsucc := Nat.add_one_mul k m.toNat
    have hlt := m.toNat_lt
    have hne : k ≠ 0 := by
      rintro rfl
      omega
    have hkn : k < n := Nat.lt_of_mul_lt_mul_right (a := m.toNat) (by omega)
    refine repeated_not_ordered (m := m) hne (by omega) (by omega) (by omega) (h _ ?_ ?_)
    · rw [List.length_replicate]
      exact hkn
    · intro x hx
      rw [List.eq_of_mem_replicate hx]
      exact UInt64.le_refl m
  · rintro ⟨hn, hm⟩ xs hlen hxs
    have hzero : LatencyStats.zero.sampleCount.toNat = 0 := rfl
    exact zero_inRange.ordered (fits_of_bounded hn hm (by omega) (Nat.zero_le _) hxs)

end StudyC.Metrics
