import Mathlib.Algebra.BigOperators.Group.List.Basic
import Mathlib.Algebra.GroupWithZero.Nat
import Mathlib.Data.List.AList

/-!
# Counts by key

A map from keys to numbers, and the sum of all its numbers.

**Theorem** (`total_insert`): storing a number for one key changes the sum by the difference to the
old number. By induction on the entries, the sum is the number of the key and the sum without it
(`sum_kerase`); an insertion is an erasure and a new entry in front. `totalOf` is the sum over the
keys with a property, with the same law (`totalOf_insert`); over one key it is the count of the key
(`totalOf_eq_count`).
-/

set_option autoImplicit false

namespace Tally

/-- A map from keys to counts. -/
abbrev Counts (κ : Type) := AList fun _ : κ => ℕ

section

variable {κ : Type}

/-- The sum of all counts. -/
def total (s : Counts κ) : ℕ := (s.entries.map Sigma.snd).sum

/-- Nothing is counted at first. -/
@[simp] theorem total_empty : total (∅ : Counts κ) = 0 := rfl

variable [DecidableEq κ]

/-- The count of a key, zero where there is none. -/
def count (s : Counts κ) (k : κ) : ℕ := (s.lookup k).getD 0

/-- The count of a key and the sum of the other counts are the sum of all. -/
theorem sum_kerase (k : κ) (l : List (Sigma fun _ : κ => ℕ)) :
    ((List.kerase k l).map Sigma.snd).sum + (List.dlookup k l).getD 0 = (l.map Sigma.snd).sum := by
  induction l with
  | nil => rfl
  | cons s l ih =>
      obtain ⟨k', v⟩ := s
      by_cases h : k = k'
      · subst h
        have herase : List.kerase k (⟨k, v⟩ :: l) = l := List.kerase_cons_eq rfl
        rw [herase, List.dlookup_cons_eq, Option.getD_some, List.map_cons, List.sum_cons,
          Nat.add_comm]
      · have herase : List.kerase k (⟨k', v⟩ :: l) = ⟨k', v⟩ :: List.kerase k l :=
          List.kerase_cons_ne h
        rw [herase, List.dlookup_cons_ne l ⟨k', v⟩ h, List.map_cons, List.map_cons,
          List.sum_cons, List.sum_cons, Nat.add_assoc, ih]

/-- Storing a count for a key puts it in the place of the count of the key in the sum. -/
theorem total_insert (s : Counts κ) (k : κ) (v : ℕ) :
    total (s.insert k v) + count s k = total s + v := by
  have h := sum_kerase k s.entries
  unfold total count
  rw [AList.entries_insert, List.map_cons, List.sum_cons]
  change v + _ + (List.dlookup k s.entries).getD 0 = _
  omega

/-- No count is larger than the sum. -/
theorem count_le_total (s : Counts κ) (k : κ) : count s k ≤ total s := by
  have h := sum_kerase k s.entries
  change (List.dlookup k s.entries).getD 0 ≤ (s.entries.map Sigma.snd).sum
  omega

/-! ## The sum over some of the keys -/

/-- The sum of the counts of the keys with a property. -/
def totalOf (P : κ → Bool) (s : Counts κ) : ℕ :=
  ((s.entries.filter fun entry => P entry.1).map Sigma.snd).sum

/-- The count of a key and the sum of the other counts, over the keys with a property. -/
theorem sum_filter_kerase (P : κ → Bool) (k : κ) (l : List (Sigma fun _ : κ => ℕ)) :
    (((List.kerase k l).filter fun entry => P entry.1).map Sigma.snd).sum +
        (if P k then (List.dlookup k l).getD 0 else 0) =
      ((l.filter fun entry => P entry.1).map Sigma.snd).sum := by
  induction l with
  | nil => simp
  | cons s l ih =>
      obtain ⟨k', v⟩ := s
      by_cases h : k = k'
      · subst h
        have herase : List.kerase k (⟨k, v⟩ :: l) = l := List.kerase_cons_eq rfl
        rw [herase, List.dlookup_cons_eq, Option.getD_some, List.filter_cons]
        dsimp only
        split_ifs
        · rw [List.map_cons, List.sum_cons, Nat.add_comm]
        · rfl
      · have herase : List.kerase k (⟨k', v⟩ :: l) = ⟨k', v⟩ :: List.kerase k l :=
          List.kerase_cons_ne h
        rw [herase, List.dlookup_cons_ne l ⟨k', v⟩ h, List.filter_cons, List.filter_cons]
        dsimp only
        by_cases hP : P k' = true
        · rw [if_pos hP, if_pos hP, List.map_cons, List.map_cons, List.sum_cons, List.sum_cons,
            Nat.add_assoc, ih]
        · rw [if_neg hP, if_neg hP, ih]

/-- Storing a count for a key, in the sum over some of the keys. -/
theorem totalOf_insert (P : κ → Bool) (s : Counts κ) (k : κ) (v : ℕ) :
    totalOf P (s.insert k v) + (if P k then count s k else 0) =
      totalOf P s + (if P k then v else 0) := by
  have h := sum_filter_kerase P k s.entries
  unfold totalOf count
  rw [AList.entries_insert, List.filter_cons]
  change _ + (if P k then (List.dlookup k s.entries).getD 0 else 0) = _
  by_cases hP : P k = true
  · simp only [if_pos hP, List.map_cons, List.sum_cons] at h ⊢
    omega
  · simp only [if_neg hP] at h ⊢
    omega

/-- The sum over one key is its count. -/
theorem totalOf_eq_count (s : Counts κ) (k : κ) : totalOf (fun k' => k' = k) s = count s k := by
  have h := sum_filter_kerase (fun k' => decide (k' = k)) k s.entries
  have hrest : (List.kerase k s.entries).filter (fun entry => decide (entry.1 = k)) = [] := by
    rw [List.filter_eq_nil_iff]
    intro entry hentry heq
    have hkey : entry.1 ∈ (List.kerase k s.entries).keys := List.mem_keys_of_mem hentry
    rw [of_decide_eq_true heq] at hkey
    exact List.notMem_keys_kerase k s.nodupKeys hkey
  rw [hrest] at h
  simpa [totalOf, count, AList.lookup] using h.symm

end

end Tally
