/-
Numbers that are given out in order, and what becomes of them.

A queue holds the numbers whose holders are done, and after them those in flight, oldest
first; the numbers that have been dropped from its end are listed apart.

* `Accounts` — every number that has been given out is in one of the two lists, once;
* `Accounts.issue`, `Accounts.drop` — the two operations;
* `Accounts.older`, `Accounts.younger` — the numbers before and after one in the queue.
-/
import Mathlib.Data.List.Range

namespace Ledger

/-- The numbers below `count` are in the queue, in order, or have been dropped. -/
structure Accounts (queue dropped : List ℕ) (count : ℕ) : Prop where
  sorted : queue.Pairwise (· < ·)
  perm : (queue ++ dropped).Perm (List.range count)

variable {queue before after dropped : List ℕ} {count k n : ℕ}

theorem accounts_nil : Accounts [] [] 0 := ⟨List.Pairwise.nil, List.Perm.nil⟩

namespace Accounts

theorem mem_iff (h : Accounts queue dropped count) : k < count ↔ k ∈ queue ∨ k ∈ dropped := by
  rw [← List.mem_append, h.perm.mem_iff, List.mem_range]

/-- Nothing is in both lists. -/
theorem not_dropped (h : Accounts queue dropped count) (hk : k ∈ queue) : k ∉ dropped := by
  have hnodup : (queue ++ dropped).Nodup := h.perm.nodup_iff.mpr List.nodup_range
  exact fun hd => (List.nodup_append.mp hnodup).2.2 k hk k hd rfl

/-- The next number is given out. -/
theorem issue (h : Accounts queue dropped count) :
    Accounts (queue ++ [count]) dropped (count + 1) where
  sorted := by
    refine List.pairwise_append.mpr ⟨h.sorted, List.pairwise_singleton _ _, ?_⟩
    intro k hk n hn
    rw [List.mem_singleton.mp hn]
    exact h.mem_iff.mpr (.inl hk)
  perm := by
    rw [List.range_succ, List.append_assoc]
    exact (List.perm_append_comm.append_left queue).trans
      ((List.append_assoc queue dropped [count]) ▸ h.perm.append_right [count])

/-- The end of the queue is dropped. -/
theorem drop (h : Accounts (queue ++ after) dropped count) :
    Accounts queue (dropped ++ after) count where
  sorted := (List.pairwise_append.mp h.sorted).1
  perm := by
    refine List.Perm.trans ?_ h.perm
    rw [List.append_assoc]
    exact List.perm_append_comm.append_left queue

/-- What is older than a number in the queue stands before it, or has been dropped. -/
theorem older (h : Accounts (before ++ n :: after) dropped count) (hk : k < n) :
    k ∈ before ∨ k ∈ dropped := by
  have hn : n < count := h.mem_iff.mpr (.inl (by simp))
  rcases h.mem_iff.mp (hk.trans hn) with hq | hd
  · rcases List.mem_append.mp hq with hb | ha
    · exact .inl hb
    · have hsorted := (List.pairwise_append.mp h.sorted).2.1
      rcases List.mem_cons.mp ha with rfl | ha
      · exact absurd hk (lt_irrefl _)
      · exact absurd ((List.pairwise_cons.mp hsorted).1 k ha) (lt_asymm hk)
  · exact .inr hd

/-- What is younger than a number in the queue stands behind it, or has been dropped. -/
theorem younger (h : Accounts (before ++ n :: after) dropped count) (hk : n ≤ k)
    (hlt : k < count) : k ∈ n :: after ∨ k ∈ dropped := by
  rcases h.mem_iff.mp hlt with hq | hd
  · rcases List.mem_append.mp hq with hb | ha
    · have hlt' := (List.pairwise_append.mp h.sorted).2.2 k hb n (by simp)
      exact absurd hlt' (not_lt.mpr hk)
    · exact .inl ha
  · exact .inr hd

end Accounts

end Ledger
