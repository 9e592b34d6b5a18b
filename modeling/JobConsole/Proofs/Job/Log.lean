import JobConsole.Job.Log
import Mathlib.Data.List.DropRight

/-! # Logs along a history

After any number of pushes a log holds the newest entries, as many as fit, in the order in which they were
pushed. That it is truncated tells of its whole history: it is so once it has evicted an entry, for good.
-/

namespace JobConsole.Log

variable {l : Log} {e : LogEntry}

/-! ## One push -/

theorem entries_push (h : l.entries.length ≤ l.capacity) (e : LogEntry) :
    (l.push e).entries = (if l.isFull then l.entries.tail else l.entries) ++ [e] := by
  by_cases hf : l.capacity ≤ l.entries.length
  · have hone : l.entries.length + 1 - l.capacity = 1 := by omega
    simp [push, isFull, hf, hone]
  · have hzero : l.entries.length + 1 - l.capacity = 0 := by omega
    simp [push, isFull, hf, hzero]

theorem truncated_push (h : l.truncated = true) : (l.push e).truncated = true := by
  simp [push, h]

/-! ## All pushes -/

theorem truncated_foldl_push (h : l.truncated = true) (es : List LogEntry) :
    (es.foldl push l).truncated = true := by
  induction es generalizing l with
  | nil => exact h
  | cons e es ih => exact ih (truncated_push h)

theorem foldl_push (es : List LogEntry) (capacity : Nat) :
    es.foldl push (new capacity) =
      ⟨es.rtake (max capacity 1), decide (max capacity 1 < es.length), max capacity 1⟩ := by
  induction es using List.reverseRecOn with
  | nil => simp [new]
  | append_singleton es e ih =>
    have hpos : 0 < max capacity 1 := by omega
    generalize max capacity 1 = n at ih hpos ⊢
    have hentries : (es.drop (es.length - n)).drop (es.length - (es.length - n) + 1 - n) =
        es.drop (es.length + 1 - n) := by
      rw [List.drop_drop]
      congr 1
      omega
    have htruncated : (n < es.length ∨ n ≤ es.length - (es.length - n)) ↔ n < es.length + 1 := by omega
    rw [List.foldl_concat, ih]
    simp only [push, isFull, List.rtake, List.length_drop, hentries, List.length_append,
      List.length_singleton, ← Bool.decide_or, htruncated]
    rw [List.drop_append_of_le_length (by omega)]

/-- After some pushes onto a new log it holds the last entries in order, as many as there are up to the
capacity, and is truncated exactly if there have been more. It stays truncated whatever is pushed later. The
next push says that it evicts an entry exactly if it is one more than the capacity, and then evicts the oldest. -/
theorem newest_kept (capacity : Nat) (es : List LogEntry) :
    let bound := max capacity 1
    let log := es.foldl push (new capacity)
    (log.entries <:+ es ∧ log.entries.length = min es.length bound) ∧
      (log.truncated = true ↔ bound < es.length) ∧
      (∀ later : List LogEntry, log.truncated = true → (later.foldl push log).truncated = true) ∧
      ∀ e, (log.isFull = true ↔ bound < es.length + 1) ∧
        (log.push e).entries = (if log.isFull then log.entries.tail else log.entries) ++ [e] := by
  intro bound log
  have hlog : log = ⟨es.rtake bound, decide (bound < es.length), bound⟩ := foldl_push es capacity
  have hlength : (es.rtake bound).length = min es.length bound := by
    simp only [List.rtake, List.length_drop]
    omega
  refine ⟨?_, ?_, fun later h => truncated_foldl_push h later, fun e => ⟨?_, ?_⟩⟩
  · rw [hlog]
    exact ⟨List.drop_suffix .., hlength⟩
  · rw [hlog, decide_eq_true_iff]
  · simp only [hlog, isFull, decide_eq_true_iff, hlength]
    omega
  · refine entries_push ?_ e
    rw [hlog, hlength]
    exact Nat.min_le_right ..

end JobConsole.Log
