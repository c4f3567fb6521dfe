import Mathlib.Data.List.Defs
import Mathlib.Data.List.Basic

/-!
A list cut into consecutive pieces of one size, the last one possibly shorter.
-/

namespace Chunk

variable {α : Type}

private theorem go_acc (n : Nat) (xs : List α) (acc : Array α) (out : Array (List α)) :
    List.toChunks.go n xs acc out = out.toList ++ List.toChunks.go n xs acc #[] := by
  induction xs generalizing acc out with
  | nil => simp [List.toChunks.go]
  | cons x xs ih =>
      simp only [List.toChunks.go]
      split_ifs
      · rw [ih _ (out.push acc.toList), ih _ (#[].push acc.toList)]
        simp
      · exact ih _ _

private theorem go_short (n : Nat) (xs : List α) (acc : Array α) (h : acc.size + xs.length ≤ n) :
    List.toChunks.go n xs acc #[] = [acc.toList ++ xs] := by
  induction xs generalizing acc with
  | nil => simp [List.toChunks.go]
  | cons x xs ih =>
      rw [List.length_cons] at h
      have hfull : ¬ (acc.size == n) = true := by
        simp only [beq_iff_eq]
        omega
      rw [List.toChunks.go, if_neg hfull, ih _ (by rw [Array.size_push]; omega)]
      simp

private theorem toChunks_cons (n : Nat) (hn : 0 < n) (x : α) (xs : List α) :
    (x :: xs).toChunks n = List.toChunks.go n xs #[x] #[] := by
  cases n with
  | zero => omega
  | succ n => rfl

private theorem go_append (n : Nat) (hn : 0 < n) (xs ys : List α) (acc : Array α)
    (hfull : acc.size + xs.length = n) (hys : ys ≠ []) :
    List.toChunks.go n (xs ++ ys) acc #[] = (acc.toList ++ xs) :: ys.toChunks n := by
  induction xs generalizing acc with
  | nil =>
      obtain ⟨y, ys, rfl⟩ := List.exists_cons_of_ne_nil hys
      have hsize : (acc.size == n) = true := by simpa using hfull
      rw [List.nil_append, List.toChunks.go, if_pos hsize, go_acc, toChunks_cons n hn]
      simp
  | cons x xs ih =>
      rw [List.length_cons] at hfull
      have hsize : ¬ (acc.size == n) = true := by
        simp only [beq_iff_eq]
        omega
      rw [List.cons_append, List.toChunks.go, if_neg hsize,
        ih _ (by rw [Array.size_push]; omega)]
      simp

theorem toChunks_short {n : Nat} {xs : List α} (hpos : xs ≠ []) (h : xs.length ≤ n) :
    xs.toChunks n = [xs] := by
  obtain ⟨x, xs, rfl⟩ := List.exists_cons_of_ne_nil hpos
  rw [List.length_cons] at h
  rw [toChunks_cons n (by omega), go_short n xs #[x] (by simp; omega)]
  rfl

/-- The first piece comes off when something follows it. -/
theorem toChunks_append {n : Nat} (hn : 0 < n) {xs ys : List α} (hxs : xs.length = n)
    (hys : ys ≠ []) : (xs ++ ys).toChunks n = xs :: ys.toChunks n := by
  cases xs with
  | nil => exact absurd hxs (by simp; omega)
  | cons x xs =>
      rw [List.length_cons] at hxs
      rw [List.cons_append, toChunks_cons n hn, go_append n hn xs ys #[x] (by simp; omega) hys]
      rfl

/-- Full pieces and a shorter rest are the pieces of their concatenation. -/
theorem toChunks_flatten_append {n : Nat} (hn : 0 < n) (pieces : List (List α))
    (hfull : ∀ piece ∈ pieces, piece.length = n) {last : List α} (hlast : last ≠ [])
    (hlen : last.length ≤ n) : (pieces.flatten ++ last).toChunks n = pieces ++ [last] := by
  induction pieces with
  | nil => exact toChunks_short hlast hlen
  | cons piece rest ih =>
      rw [List.flatten_cons, List.append_assoc, toChunks_append hn
        (hfull piece List.mem_cons_self) (List.append_ne_nil_of_right_ne_nil _ hlast),
        ih fun piece member => hfull piece (List.mem_cons_of_mem _ member), List.cons_append]

theorem toChunks_flatten {n : Nat} (hn : 0 < n) (pieces : List (List α))
    (hfull : ∀ piece ∈ pieces, piece.length = n) : pieces.flatten.toChunks n = pieces := by
  rcases List.eq_nil_or_concat pieces with rfl | ⟨front, last, rfl⟩
  · rfl
  · have hlast := hfull last (by simp)
    rw [List.concat_eq_append, List.flatten_append, List.flatten_singleton]
    refine toChunks_flatten_append hn front (fun piece member => hfull piece (by simp [member]))
      ?_ (Nat.le_of_eq hlast)
    rintro rfl
    exact absurd hlast (by simp; omega)

/-- The pieces put together again. -/
theorem flatten_toChunks {n : Nat} (hn : 0 < n) (xs : List α) : (xs.toChunks n).flatten = xs := by
  induction h : xs.length using Nat.strongRecOn generalizing xs with
  | ind length ih =>
      by_cases hnone : xs = []
      · rw [hnone]
        rfl
      by_cases hshort : xs.length ≤ n
      · rw [toChunks_short hnone hshort, List.flatten_singleton]
      have hrest : xs.drop n ≠ [] := by
        rw [ne_eq, List.drop_eq_nil_iff]
        exact hshort
      have hpiece : (xs.take n).length = n := by
        rw [List.length_take]
        omega
      have hcut := toChunks_append hn hpiece hrest
      rw [List.take_append_drop] at hcut
      rw [hcut, List.flatten_cons, ih _ (by rw [List.length_drop]; omega) _ rfl,
        List.take_append_drop]

end Chunk
