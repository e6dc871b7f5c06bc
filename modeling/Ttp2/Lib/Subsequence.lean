import Mathlib.Data.List.Perm.Basic

/-! # Entries with increasing numbers

Entries that carry the number of an element of a list, and its value. If the
numbers increase, the values are a subsequence of the list. -/
namespace Ttp2.Lib.Subsequence

variable {α β : Type} {xs : List α} {es : List β} {index : β → Nat} {value : β → α}

theorem map_sublist_drop (hinc : es.Pairwise (index · < index ·))
    (hval : ∀ e ∈ es, xs[index e]? = some (value e)) (n : Nat) (hn : ∀ e ∈ es, n ≤ index e) :
    (es.map value).Sublist (xs.drop n) := by
  induction es generalizing n with
  | nil => exact List.nil_sublist _
  | cons e es ih =>
    obtain ⟨hhead, htail⟩ := List.pairwise_cons.mp hinc
    obtain ⟨hlt, hget⟩ := List.getElem?_eq_some_iff.mp (hval e List.mem_cons_self)
    have hrest : (es.map value).Sublist (xs.drop (index e + 1)) :=
      ih htail (fun f hf => hval f (List.mem_cons_of_mem _ hf)) _ hhead
    have hdrop : xs.drop (index e) = value e :: xs.drop (index e + 1) := by
      rw [← hget]
      exact List.drop_eq_getElem_cons hlt
    rw [List.map_cons]
    calc (value e :: es.map value).Sublist (xs.drop (index e)) := by
          rw [hdrop]
          exact hrest.cons_cons _
      _ |>.Sublist (xs.drop n) := List.drop_sublist_drop_left _ (hn e List.mem_cons_self)

/-- **Increasing numbers make a subsequence.** -/
theorem map_sublist_of_increasing (hinc : es.Pairwise (index · < index ·))
    (hval : ∀ e ∈ es, xs[index e]? = some (value e)) : (es.map value).Sublist xs :=
  map_sublist_drop hinc hval 0 fun _ _ => Nat.zero_le _

/-- If no number below `n` is missing, and there are no others, they are the first `n`. -/
theorem map_eq_take_of_increasing (hinc : es.Pairwise (index · < index ·))
    (hval : ∀ e ∈ es, xs[index e]? = some (value e)) {n : Nat} (hlt : ∀ e ∈ es, index e < n)
    (hall : ∀ i < n, ∃ e ∈ es, index e = i) : es.map value = xs.take n := by
  have hsub : (es.map value).Sublist (xs.take n) := map_sublist_of_increasing hinc fun e he => by
    rw [List.getElem?_take_of_lt (hlt e he), hval e he]
  have hindices : List.range n ⊆ es.map index := by
    intro i hi
    obtain ⟨e, he, hindex⟩ := hall i (List.mem_range.mp hi)
    exact List.mem_map.mpr ⟨e, he, hindex⟩
  have hlength := List.Nodup.length_le_of_subset List.nodup_range hindices
  rw [List.length_range, List.length_map] at hlength
  refine hsub.eq_of_length_le ?_
  rw [List.length_map]
  exact Nat.le_trans (List.length_take_le n xs) hlength

/-- Numbers below `n` are no more than `n`. -/
theorem length_le_of_increasing (hinc : es.Pairwise (index · < index ·)) {n : Nat}
    (hlt : ∀ e ∈ es, index e < n) : es.length ≤ n := by
  have hsub : (es.map index).Sublist (List.range n) := map_sublist_of_increasing hinc fun e he => by
    rw [List.getElem?_range (hlt e he)]
  have hlength := hsub.length_le
  rwa [List.length_map, List.length_range] at hlength

/-- Each number occurs at most once. -/
theorem countP_le_one_of_increasing (hinc : es.Pairwise (index · < index ·)) (n : Nat) :
    es.countP (index · = n) ≤ 1 := by
  induction es with
  | nil => exact Nat.zero_le _
  | cons e es ih =>
    obtain ⟨hhead, htail⟩ := List.pairwise_cons.mp hinc
    rw [List.countP_cons]
    by_cases he : index e = n
    · have hnone : es.countP (index · = n) = 0 := by
        refine List.countP_eq_zero.mpr fun f hf => ?_
        have := hhead f hf
        rw [decide_eq_true_eq]
        omega
      rw [hnone]
      split <;> omega
    · rw [if_neg (by simpa using he)]
      exact ih htail

end Ttp2.Lib.Subsequence
