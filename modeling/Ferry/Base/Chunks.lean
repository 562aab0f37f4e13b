import Mathlib.Data.List.Range
import Mathlib.Tactic.Ring

/-!
# Numbered chunks of a list

A list is cut into chunks of a fixed size, of which the last may be shorter.  Any run of consecutive
chunks concatenates to the corresponding segment of the list.
-/

namespace Ferry

namespace Chunks

variable {α : Type} (size : ℕ) (l : List α)

/-- The chunk with a given number, empty from the end of the list on. -/
def chunkAt (i : ℕ) : List α := (l.drop (i * size)).take size

/-- The number of chunks of a list. -/
def total : ℕ := (l.length + size - 1) / size

/-- At most `k` chunks from number `i` on, with their numbers. -/
def segment (i k : ℕ) : List (ℕ × List α) :=
  (List.range' i (min k (total size l - i))).map fun j ↦ (j, chunkAt size l j)

variable {size l}

theorem chunkAt_eq_nil_iff (hsize : 0 < size) {i : ℕ} :
    chunkAt size l i = [] ↔ l.length ≤ i * size := by
  rw [chunkAt, List.take_eq_nil_iff, List.drop_eq_nil_iff]
  simp [hsize.ne']

theorem total_le_iff (hsize : 0 < size) {i : ℕ} : total size l ≤ i ↔ l.length ≤ i * size := by
  rw [total, ← Nat.lt_succ_iff, Nat.div_lt_iff_lt_mul hsize, Nat.succ_mul]
  omega

@[simp] theorem segment_zero (i : ℕ) : segment size l i 0 = [] := by simp [segment]

theorem segment_of_total_le {i : ℕ} (h : total size l ≤ i) (k : ℕ) : segment size l i k = [] := by
  simp [segment, Nat.sub_eq_zero_of_le h]

theorem segment_succ {i : ℕ} (h : i < total size l) (k : ℕ) :
    segment size l i (k + 1) = (i, chunkAt size l i) :: segment size l (i + 1) k := by
  have hlength : min (k + 1) (total size l - i) = min k (total size l - (i + 1)) + 1 := by omega
  rw [segment, hlength, List.range'_succ, List.map_cons, segment]

/-- Consecutive runs of chunks. -/
theorem segment_append (i j k : ℕ) :
    segment size l i j ++ segment size l (i + j) k = segment size l i (j + k) := by
  induction j generalizing i with
  | zero => simp
  | succ j ih =>
    by_cases h : i < total size l
    · rw [segment_succ h, List.cons_append, Nat.add_right_comm j 1 k, segment_succ h, ← ih (i + 1)]
      rw [Nat.add_assoc, Nat.add_comm 1]
    · have hend := not_lt.mp h
      rw [segment_of_total_le hend, segment_of_total_le (hend.trans (Nat.le_add_right _ _)),
        segment_of_total_le hend]
      rfl

/-- The first chunks are the start of any longer run. -/
theorem segment_isPrefix (i : ℕ) {j k : ℕ} (h : j ≤ k) : segment size l i j <+: segment size l i k := by
  obtain ⟨rest, rfl⟩ := Nat.exists_eq_add_of_le h
  exact ⟨_, segment_append i j rest⟩

theorem segment_of_le {i k k' : ℕ} (h : total size l ≤ i + k) (hle : k ≤ k') :
    segment size l i k' = segment size l i k := by
  obtain ⟨rest, rfl⟩ := Nat.exists_eq_add_of_le hle
  rw [← segment_append, segment_of_total_le h, List.append_nil]

@[simp] theorem length_segment (i k : ℕ) : (segment size l i k).length = min k (total size l - i) := by
  simp [segment]

/-- Consecutive chunks concatenate to a segment of the list. -/
theorem flatMap_segment (hsize : 0 < size) (i k : ℕ) :
    (segment size l i k).flatMap Prod.snd = (l.drop (i * size)).take (k * size) := by
  induction k generalizing i with
  | zero => simp
  | succ k ih =>
    by_cases h : i < total size l
    · calc
        _ = chunkAt size l i ++ (l.drop ((i + 1) * size)).take (k * size) := by
          rw [segment_succ h, List.flatMap_cons, ih]
        _ = (l.drop (i * size)).take (size + k * size) := by
          rw [chunkAt, List.take_add, List.drop_drop, Nat.succ_mul]
        _ = _ := by
          rw [Nat.succ_mul, Nat.add_comm]
    · have hend : l.length ≤ i * size := (total_le_iff hsize).mp (not_lt.mp h)
      rw [segment_of_total_le (not_lt.mp h), List.drop_of_length_le hend]
      simp

/-- All chunks from number `i` on concatenate to the rest of the list. -/
theorem flatMap_segment_rest (hsize : 0 < size) {i k : ℕ} (h : total size l ≤ i + k) :
    (segment size l i k).flatMap Prod.snd = l.drop (i * size) := by
  have hlength : l.length ≤ (i + k) * size := (total_le_iff hsize).mp h
  rw [flatMap_segment hsize, List.take_of_length_le]
  rw [List.length_drop, Nat.sub_le_iff_le_add, ← Nat.add_mul, Nat.add_comm k]
  exact hlength

theorem length_chunkAt_le (i : ℕ) : (chunkAt size l i).length ≤ size := by
  rw [chunkAt, List.length_take]
  exact min_le_left _ _

end Chunks

end Ferry
