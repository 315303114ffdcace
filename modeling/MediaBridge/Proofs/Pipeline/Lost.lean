import MediaBridge.Pipeline.Worker

/-! # Which frames are lost

A pipeline that loses one in so many frames counts them from one.  Here their places are counted from
zero.  `Settled` says that the last of the frames so far were lost, and that the one before them came
back.

* `drops_succ_iff`       which frame is lost;
* `lost_add`, `kept_add` a stretch of which everything is lost;
* `countP_of_settled`    how many were lost before the last one that came back, and how many after it.
-/

namespace MediaBridge.Faults

/-- Of the first `n` frames, the places of those that are not lost. -/
def kept (k n : Nat) : List Nat := (List.range n).filter fun i => ¬k ∣ i + 1

/-- Of the first `n` frames, the places of those that are lost. -/
def lost (k n : Nat) : List Nat := (List.range n).filter fun i => k ∣ i + 1

/-- A frame that is lost is not kept. -/
theorem kept_succ_of_dvd {k n : Nat} (h : k ∣ n + 1) : kept k (n + 1) = kept k n := by
  simp [kept, List.range_succ, List.filter_append, h]

/-- A frame that is not lost is kept behind all others. -/
theorem kept_succ_of_not_dvd {k n : Nat} (h : ¬k ∣ n + 1) : kept k (n + 1) = kept k n ++ [n] := by
  simp [kept, List.range_succ, List.filter_append, h]

/-- A frame that comes back is not lost. -/
theorem lost_succ_of_not_dvd {k n : Nat} (h : ¬k ∣ n + 1) : lost k (n + 1) = lost k n := by
  simp [lost, List.range_succ, List.filter_append, h]

/-- Every so many frames one is lost; with a zero none is. -/
theorem drops_succ_iff {f : Faults} {n : Nat} : f.drops (n + 1) ↔ f.dropEvery ∣ n + 1 := by
  simp only [Faults.drops, Bool.and_eq_true, decide_eq_true_eq, Nat.dvd_iff_mod_eq_zero]
  refine and_iff_right_of_imp fun hzero hnone => ?_
  rw [hnone, Nat.mod_zero] at hzero
  exact Nat.succ_ne_zero n hzero

/-- No more frames are kept than there were. -/
theorem length_kept_le (k n : Nat) : (kept k n).length ≤ n := by
  have hle := List.length_filter_le (fun i => decide ¬k ∣ i + 1) (List.range n)
  rwa [List.length_range] at hle

/-- The places of the frames so far are below their number. -/
theorem lt_of_mem_kept {k n i : Nat} (h : i ∈ kept k n) : i < n :=
  List.mem_range.1 (List.mem_filter.1 h).1

/-- Where everything behind a place is lost, nothing more is kept, -/
theorem kept_add {k m d : Nat} (h : ∀ i, m ≤ i → i < m + d → k ∣ i + 1) :
    kept k (m + d) = kept k m := by
  rw [kept, kept, List.range_add, List.filter_append, List.append_right_eq_self,
    List.filter_eq_nil_iff]
  intro i hi
  obtain ⟨j, hj, rfl⟩ := List.mem_map.1 hi
  simp [h (m + j) (Nat.le_add_right ..) (Nat.add_lt_add_left (List.mem_range.1 hj) m)]

/-- and all of it is lost. -/
theorem lost_add {k m d : Nat} (h : ∀ i, m ≤ i → i < m + d → k ∣ i + 1) :
    lost k (m + d) = lost k m ++ (List.range d).map (m + ·) := by
  rw [lost, lost, List.range_add, List.filter_append, List.append_cancel_left_eq,
    List.filter_eq_self]
  intro i hi
  obtain ⟨j, hj, rfl⟩ := List.mem_map.1 hi
  simp [h (m + j) (Nat.le_add_right ..) (Nat.add_lt_add_left (List.mem_range.1 hj) m)]

/-- Of the frames that the worker is done with, the last ones were lost, and the one before them came
    back. -/
structure Settled (k settled past : Nat) : Prop where
  le : settled ≤ past
  passed : ∀ i, settled ≤ i → i < past → k ∣ i + 1
  last : settled = 0 ∨ ¬k ∣ settled

variable {k : Nat}

/-- If another frame is lost, it is one of the last. -/
theorem Settled.snoc {settled past : Nat} (h : Settled k settled past) (hlost : k ∣ past + 1) :
    Settled k settled (past + 1) where
  le := Nat.le_succ_of_le h.le
  passed := by
    intro i hle hlt
    rcases Nat.lt_succ_iff_lt_or_eq.1 hlt with hlt | rfl
    · exact h.passed i hle hlt
    · exact hlost
  last := h.last

/-- The frames that were lost before the last one that came back are those up to which everything is
    settled, and for the others something is pending. -/
theorem countP_of_settled {k settled n : Nat} (h : Settled k settled n) :
    ((lost k n).countP fun i => (kept k n).any (i < ·)) = (lost k settled).length ∧
      ((lost k n).countP fun i => (kept k n).all (· < i)) = n - settled := by
  obtain ⟨d, rfl⟩ := Nat.exists_eq_add_of_le h.le
  -- the frame at `settled - 1` came back, and it is behind all that were lost up to there
  have hlast : ∀ i ∈ lost k settled, ∃ j ∈ kept k settled, i < j := by
    intro i hi
    obtain ⟨hlt, hlost⟩ := List.mem_filter.1 hi
    have hi' := List.mem_range.1 hlt
    have hdvd := of_decide_eq_true hlost
    rcases h.last with rfl | hkept
    · exact absurd hi' (Nat.not_lt_zero i)
    · have hsucc : settled - 1 + 1 = settled := by omega
      refine ⟨settled - 1, List.mem_filter.2 ⟨List.mem_range.2 (by omega), ?_⟩, ?_⟩
      · rw [hsucc]
        exact decide_eq_true hkept
      · have hne : i + 1 ≠ settled := by
          rintro rfl
          exact hkept hdvd
        omega
  rw [kept_add h.passed, lost_add h.passed, List.countP_append, List.countP_append,
    Nat.add_sub_cancel_left]
  constructor
  · have hold : (lost k settled).countP (fun i => (kept k settled).any (i < ·)) =
        (lost k settled).length := List.countP_eq_length.2 fun i hi => by
      obtain ⟨j, hj, hlt⟩ := hlast i hi
      exact List.any_eq_true.2 ⟨j, hj, decide_eq_true hlt⟩
    have hnew : ((List.range d).map (settled + ·)).countP
        (fun i => (kept k settled).any (i < ·)) = 0 := List.countP_eq_zero.2 fun i hi => by
      obtain ⟨e, -, rfl⟩ := List.mem_map.1 hi
      intro hany
      obtain ⟨j, hj, hlt⟩ := List.any_eq_true.1 hany
      have hlt' := of_decide_eq_true hlt
      have hj' := lt_of_mem_kept hj
      omega
    rw [hold, hnew, Nat.add_zero]
  · have hold : (lost k settled).countP (fun i => (kept k settled).all (· < i)) = 0 :=
      List.countP_eq_zero.2 fun i hi hall => by
        obtain ⟨j, hj, hlt⟩ := hlast i hi
        have hlt' := of_decide_eq_true (List.all_eq_true.1 hall j hj)
        omega
    have hnew : ((List.range d).map (settled + ·)).countP
        (fun i => (kept k settled).all (· < i)) = ((List.range d).map (settled + ·)).length :=
      List.countP_eq_length.2 fun i hi => by
        obtain ⟨e, -, rfl⟩ := List.mem_map.1 hi
        refine List.all_eq_true.2 fun j hj => decide_eq_true ?_
        have hj' := lt_of_mem_kept hj
        omega
    rw [hold, hnew, List.length_map, List.length_range, Nat.zero_add]

end MediaBridge.Faults
