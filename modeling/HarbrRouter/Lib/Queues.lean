import Mathlib.Data.List.AList
import Mathlib.Data.List.Count

/-!
# Queues by key

A map from keys to queues, and what is in all of them together.

**Theorem** (`perm_insert`): storing a queue for one key puts it in the place of the old queue, up
to the order. By induction on the entries, the queue of the key and the queues without it are all of
them (`perm_kerase`). The rest is counted with it:

* `countP_insert_tail` is a pop, `countP_insert_concat` a push.
* `added` is what came into the queues between two states of the map; a pop adds nothing
  (`added_insert_tail`), a push what it pushes (`added_insert_concat`).
* `nodup_of_nodup_map`, `ne_of_nodup_map`: what is in the queues once is in one queue, and once in
  it.
-/

set_option autoImplicit false

namespace Queues

variable {κ β : Type}

/-- What is in the queues, one queue after the other. -/
def all (s : AList fun _ : κ => List β) : List β := s.entries.flatMap Sigma.snd

/-- Without queues there is nothing in the queues. -/
@[simp] theorem all_empty : all (∅ : AList fun _ : κ => List β) = [] := rfl

section added

variable [DecidableEq β]

/-- What is in the queues of the second map and was not in those of the first. -/
def added (s s' : AList fun _ : κ => List β) : List β := (all s').diff (all s)

/-- An element was added as often as it is there more often than before. -/
theorem count_added (s s' : AList fun _ : κ => List β) (b : β) :
    (added s s').count b = (all s').count b - (all s).count b :=
  List.count_diff b (all s') (all s)

/-- What is in the queues afterwards was there before or was added. -/
theorem mem_all_or_mem_added {s s' : AList fun _ : κ => List β} {b : β} (h : b ∈ all s') :
    b ∈ all s ∨ b ∈ added s s' := by
  by_cases hb : b ∈ all s
  · exact Or.inl hb
  · exact Or.inr (List.mem_diff_of_mem h hb)

/-- Nothing is added where everything is as often as before, or less often. -/
theorem added_eq_nil {s s' : AList fun _ : κ => List β}
    (h : ∀ b, (all s').count b ≤ (all s).count b) : added s s' = [] := by
  refine List.eq_nil_iff_forall_not_mem.mpr fun b hb => ?_
  have hpos := List.count_pos_iff.mpr hb
  have hle := h b
  rw [count_added] at hpos
  omega

/-- Nothing is added to queues that stay as they are. -/
@[simp] theorem added_self (s : AList fun _ : κ => List β) : added s s = [] :=
  added_eq_nil fun _ => le_rfl

end added

variable [DecidableEq κ]

/-- The queue of a key, empty where there is none. -/
def queue (s : AList fun _ : κ => List β) (k : κ) : List β := (s.lookup k).getD []

/-- The queue that was stored is the queue of its key. -/
@[simp] theorem queue_insert (s : AList fun _ : κ => List β) (k : κ) (q : List β) :
    queue (s.insert k q) k = q := by
  rw [queue, AList.lookup_insert, Option.getD_some]

/-- The queues of the other keys stay. -/
theorem queue_insert_ne (s : AList fun _ : κ => List β) {k k' : κ} (h : k' ≠ k) (q : List β) :
    queue (s.insert k q) k' = queue s k' := by
  rw [queue, AList.lookup_insert_ne h, queue]

/-- The queue of a key is what the map has for it. -/
theorem queue_of_lookup {s : AList fun _ : κ => List β} {k : κ} {q : List β}
    (h : s.lookup k = some q) : queue s k = q := by
  rw [queue, h, Option.getD_some]

/-- The queue of a key and the other queues are all of them. -/
theorem perm_kerase (k : κ) (l : List (Sigma fun _ : κ => List β)) :
    ((List.dlookup k l).getD [] ++ (List.kerase k l).flatMap Sigma.snd).Perm
      (l.flatMap Sigma.snd) := by
  induction l with
  | nil => exact List.Perm.nil
  | cons s l ih =>
      obtain ⟨k', q⟩ := s
      by_cases h : k = k'
      · subst h
        have herase : List.kerase k (⟨k, q⟩ :: l) = l := List.kerase_cons_eq rfl
        rw [herase, List.dlookup_cons_eq]
        rfl
      · have herase : List.kerase k (⟨k', q⟩ :: l) = ⟨k', q⟩ :: List.kerase k l :=
          List.kerase_cons_ne h
        rw [herase, List.dlookup_cons_ne l ⟨k', q⟩ h, List.flatMap_cons, List.flatMap_cons]
        exact (List.perm_append_comm_assoc _ _ _).trans (ih.append_left q)

/-- Storing a queue for a key puts it in the place of the queue of the key. -/
theorem perm_insert (s : AList fun _ : κ => List β) (k : κ) (q : List β) :
    (queue s k ++ all (s.insert k q)).Perm (q ++ all s) := by
  have hall : all (s.insert k q) = q ++ (List.kerase k s.entries).flatMap Sigma.snd := by
    unfold all
    rw [AList.entries_insert, List.flatMap_cons]
  rw [hall]
  exact (List.perm_append_comm_assoc _ _ _).trans ((perm_kerase k s.entries).append_left q)

/-- How many in the queues meet `P` after one was stored. -/
theorem countP_insert (s : AList fun _ : κ => List β) (k : κ) (q : List β) (P : β → Bool) :
    (queue s k).countP P + (all (s.insert k q)).countP P = q.countP P + (all s).countP P := by
  rw [← List.countP_append, ← List.countP_append]
  exact (perm_insert s k q).countP_eq P

/-- Storing a queue again changes nothing. -/
theorem countP_insert_queue (s : AList fun _ : κ => List β) (k : κ) (P : β → Bool) :
    (all (s.insert k (queue s k))).countP P = (all s).countP P := by
  have h := countP_insert s k (queue s k) P
  omega

/-- Taking the head of a queue takes one from what is in the queues. -/
theorem countP_insert_tail {s : AList fun _ : κ => List β} {k : κ} {b : β} {q : List β}
    (h : queue s k = b :: q) (P : β → Bool) :
    (all (s.insert k q)).countP P + (if P b then 1 else 0) = (all s).countP P := by
  have hcount := countP_insert s k q P
  rw [h, List.countP_cons] at hcount
  omega

/-- Adding to a queue adds one to what is in the queues. -/
theorem countP_insert_concat (s : AList fun _ : κ => List β) (k : κ) (b : β) (P : β → Bool) :
    (all (s.insert k (queue s k ++ [b]))).countP P =
      (all s).countP P + (if P b then 1 else 0) := by
  have hcount := countP_insert s k (queue s k ++ [b]) P
  rw [List.countP_append, List.countP_singleton] at hcount
  omega

/-- What is in a queue is in the queues. -/
theorem mem_all {s : AList fun _ : κ => List β} {k : κ} {q : List β} (h : s.lookup k = some q)
    {b : β} (hb : b ∈ q) : b ∈ all s :=
  List.mem_flatMap.mpr ⟨⟨k, q⟩, AList.mem_lookup_iff.mp h, hb⟩

/-- The head of a queue is in the queues. -/
theorem mem_all_of_queue {s : AList fun _ : κ => List β} {k : κ} {b : β} {q : List β}
    (h : queue s k = b :: q) : b ∈ all s := by
  unfold queue at h
  cases hlookup : s.lookup k with
  | none => exact absurd h (by simp [hlookup])
  | some q' =>
      obtain rfl : q' = b :: q := by rwa [hlookup] at h
      exact mem_all hlookup List.mem_cons_self

section added

variable [DecidableEq β]

/-- Storing a queue again adds nothing. -/
theorem added_insert_queue (s : AList fun _ : κ => List β) (k : κ) :
    added s (s.insert k (queue s k)) = [] :=
  added_eq_nil fun b => Nat.le_of_eq (countP_insert_queue s k (· == b))

/-- Taking the head of a queue adds nothing. -/
theorem added_insert_tail {s : AList fun _ : κ => List β} {k : κ} {b : β} {q : List β}
    (h : queue s k = b :: q) : added s (s.insert k q) = [] := by
  refine added_eq_nil fun b' => ?_
  have hcount := countP_insert_tail h (· == b')
  unfold List.count
  omega

/-- Adding to a queue adds what was added. -/
theorem added_insert_concat (s : AList fun _ : κ => List β) (k : κ) (b : β) :
    added s (s.insert k (queue s k ++ [b])) = [b] := by
  refine List.perm_singleton.mp (List.perm_iff_count.mpr fun b' => ?_)
  have hcount : (all (s.insert k (queue s k ++ [b]))).count b' =
      (all s).count b' + (if (b == b') = true then 1 else 0) :=
    countP_insert_concat s k b (· == b')
  rw [count_added, hcount, List.count_singleton, Nat.add_sub_cancel_left]

end added

variable {γ : Type} {f : β → γ}

/-- What is in the queues once is in its queue once. -/
theorem nodup_of_nodup_map {s : AList fun _ : κ => List β} (hnodup : ((all s).map f).Nodup) {k : κ}
    {q : List β} (hq : s.lookup k = some q) : (q.map f).Nodup := by
  have hperm := (perm_kerase k s.entries).map f
  change ((queue s k ++ _).map f).Perm ((all s).map f) at hperm
  rw [queue_of_lookup hq, List.map_append] at hperm
  exact (hperm.nodup_iff.mpr hnodup).of_append_left

/-- What is in the queues once is in no second queue. -/
theorem ne_of_nodup_map {s : AList fun _ : κ => List β} (hnodup : ((all s).map f).Nodup) {k k' : κ}
    (hne : k' ≠ k) {q q' : List β} (hq : s.lookup k = some q) (hq' : s.lookup k' = some q')
    {b b' : β} (hb : b ∈ q) (hb' : b' ∈ q') : f b ≠ f b' := by
  have hperm := (perm_kerase k s.entries).map f
  change ((queue s k ++ _).map f).Perm ((all s).map f) at hperm
  rw [queue_of_lookup hq, List.map_append] at hperm
  have hrest : b' ∈ (List.kerase k s.entries).flatMap Sigma.snd := by
    have hmem : b' ∈ all (s.erase k) := mem_all (by rwa [AList.lookup_erase_ne hne]) hb'
    exact hmem
  have hdisjoint := List.disjoint_of_nodup_append (hperm.nodup_iff.mpr hnodup)
  intro heq
  exact hdisjoint (List.mem_map_of_mem hb) (heq ▸ List.mem_map_of_mem hrest)

end Queues
