import Mathlib.Order.Bounds.Basic
import Mathlib.Data.Prod.Lex
import Mathlib.Data.Set.Finite.Lemmas
import Mathlib.Data.List.Pairwise
import Mathlib.Data.List.Induction
import Mathlib.Tactic.Common

/-!
# Rings of owned points

A ring of owned points is a set `R : Set (α × β)` of pairs of a point of a linear order and an
owner. A key `k` is assigned by walking upward from `k` to the first point of the ring, wrapping
around past the largest one; where several owners share that point the greatest owner has it.
`fromKey k` turns the walk into a linear order (points below `k` come after the others), so that the
first point is a least element (`IsNext`), and `Assigned R k b` says that the owner `b` gets the key
`k`. It is functional (`Assigned.unique`) and total on finite non-empty rings (`exists_assigned`).

**Theorem** (`Assigned.of_remove`): taking points of some owners away moves no key of another owner.
The first point is still there, for its greatest owner has not lost it, and the first point of a set
is the first point of each subset that still has it (`IsNext.mono`). (`Assigned.of_add`): giving
points to some owners moves keys only to them; it is the first theorem, read from the larger ring to
the smaller. (`Claims.exchange`): between two rings without shared points a key cannot move from `n`
to `m` when both rings hold all the points of both, for the first point of each is a point of the
other (`IsNext.antisymm`).

* `scan` reads the assignment off a list of the ring's points, in any order and with repetitions
  (`scan_eq_some_iff`, through `isNext_iff`: the first point without the walk).
* `BinarySearch` is a search in a sorted list that may return any matching position;
  `BinarySearch.exists_isNext_wrap` says that it finds the first point of the walk.
* `lastWrite` is the map that a sequence of overwriting insertions builds.
-/

set_option autoImplicit false

namespace PointRing

variable {α β : Type} [LinearOrder α]

/-! ## The walk from a key -/

/-- The rank of `x` on the upward walk from `k`: first the points from `k` on, in order, then
those below `k`, in order. -/
def fromKey (k x : α) : Bool ×ₗ α := toLex (decide (x < k), x)

/-- Different points have different ranks. -/
theorem fromKey_injective (k : α) : Function.Injective (fromKey k) := by
  intro x y h
  simpa [fromKey] using congrArg (fun z => (ofLex z).2) h

/-- `p` is the first point of `S` on the walk from `k`. -/
def IsNext (S : Set α) (k p : α) : Prop := p ∈ S ∧ ∀ q ∈ S, fromKey k p ≤ fromKey k q

namespace IsNext

variable {S T : Set α} {k p q : α}

/-- Two first points, each in the other's set, are one. -/
theorem antisymm (hp : IsNext S k p) (hq : IsNext T k q) (hpT : p ∈ T) (hqS : q ∈ S) : p = q :=
  fromKey_injective k (le_antisymm (hp.2 q hqS) (hq.2 p hpT))

/-- The first point is unique. -/
theorem unique (hp : IsNext S k p) (hq : IsNext S k q) : p = q := hp.antisymm hq hp.1 hq.1

/-- The first point of a set is the first point of each subset that still has it. -/
theorem mono (hp : IsNext S k p) (hTS : T ⊆ S) (hpT : p ∈ T) : IsNext T k p :=
  ⟨hpT, fun q hq => hp.2 q (hTS hq)⟩

end IsNext

/-- A finite non-empty set has a first point on every walk. -/
theorem exists_isNext {S : Set α} (hfin : S.Finite) (hne : S.Nonempty) (k : α) :
    ∃ p, IsNext S k p := by
  obtain ⟨p, hp, hmin⟩ := Set.exists_min_image S (fromKey k) hfin hne
  exact ⟨p, hp, hmin⟩

/-- The order of the walk, spelled out. -/
theorem fromKey_le_iff {k x y : α} :
    fromKey k x ≤ fromKey k y ↔ (k ≤ x ∧ y < k) ∨ ((k ≤ x ↔ k ≤ y) ∧ x ≤ y) := by
  rw [fromKey, fromKey, Prod.Lex.toLex_le_toLex]
  by_cases hx : x < k <;> by_cases hy : y < k
  · simp [hx, hy, not_le.mpr hx, not_le.mpr hy]
  · simp [hx, hy, not_le.mpr hx, not_lt.mp hy]
  · simp [hx, hy, not_lt.mp hx, not_le.mpr hy]
  · simp [hx, hy, not_lt.mp hx, not_lt.mp hy]

/-- The first point without the walk: the least point from `k` on, or the least point of all when
every point is below `k`. -/
theorem isNext_iff {S : Set α} {k p : α} :
    IsNext S k p ↔ p ∈ S ∧ ((k ≤ p ∧ ∀ q ∈ S, k ≤ q → p ≤ q) ∨
      ((∀ q ∈ S, q < k) ∧ ∀ q ∈ S, p ≤ q)) := by
  constructor
  · rintro ⟨hp, hmin⟩
    refine ⟨hp, ?_⟩
    by_cases hkp : k ≤ p
    · left
      refine ⟨hkp, fun q hq hkq => ?_⟩
      rcases fromKey_le_iff.mp (hmin q hq) with ⟨-, h⟩ | ⟨-, h⟩
      · exact absurd hkq (not_le.mpr h)
      · exact h
    · right
      have hlow : ∀ q ∈ S, q < k ∧ p ≤ q := fun q hq => by
        rcases fromKey_le_iff.mp (hmin q hq) with ⟨h, -⟩ | ⟨hiff, h⟩
        · exact absurd h hkp
        · exact ⟨not_le.mp fun h' => hkp (hiff.mpr h'), h⟩
      exact ⟨fun q hq => (hlow q hq).1, fun q hq => (hlow q hq).2⟩
  · rintro ⟨hp, ⟨hkp, hmin⟩ | ⟨hlow, hmin⟩⟩
    · refine ⟨hp, fun q hq => fromKey_le_iff.mpr ?_⟩
      by_cases hkq : k ≤ q
      · exact Or.inr ⟨iff_of_true hkp hkq, hmin q hq hkq⟩
      · exact Or.inl ⟨hkp, not_le.mp hkq⟩
    · refine ⟨hp, fun q hq => fromKey_le_iff.mpr (Or.inr ⟨?_, hmin q hq⟩)⟩
      exact iff_of_false (not_le.mpr (hlow p hp)) (not_le.mpr (hlow q hq))

/-! ## Assigning keys to owners -/

/-- The points of a ring. -/
def points (R : Set (α × β)) : Set α := {p | ∃ b, (p, b) ∈ R}

/-- The first point from `k` on the ring `R` is one of `b`'s. -/
def Claims (R : Set (α × β)) (k : α) (b : β) : Prop := ∃ p, IsNext (points R) k p ∧ (p, b) ∈ R

/-- **Minimal disruption, between two rings.** If no point has two owners in `R'`, the points
of `n` in `R` are on `R'` and the points of `m` in `R'` are on `R`, then a key that is `n`'s on
`R` is not another owner `m`'s on `R'`. -/
theorem Claims.exchange {R R' : Set (α × β)} {k : α} {n m : β} (hn : Claims R k n)
    (hm : Claims R' k m) (hnR : ∀ p, (p, n) ∈ R → (p, n) ∈ R')
    (hmR : ∀ p, (p, m) ∈ R' → (p, m) ∈ R)
    (hfun : ∀ p b b', (p, b) ∈ R' → (p, b') ∈ R' → b = b') : n = m := by
  obtain ⟨p, hp, hpn⟩ := hn
  obtain ⟨q, hq, hqm⟩ := hm
  have hpq : p = q := hp.antisymm hq ⟨n, hnR p hpn⟩ ⟨m, hmR q hqm⟩
  subst hpq
  exact hfun p n m (hnR p hpn) hqm

variable [LinearOrder β]

/-- The key `k` is assigned to `b`: `b` is the greatest owner of the first point from `k`. -/
def Assigned (R : Set (α × β)) (k : α) (b : β) : Prop :=
  ∃ p, IsNext (points R) k p ∧ IsGreatest {b | (p, b) ∈ R} b

/-- The owner of a key owns its first point. -/
theorem Assigned.claims {R : Set (α × β)} {k : α} {b : β} (h : Assigned R k b) :
    Claims R k b := by
  obtain ⟨p, hp, hb⟩ := h
  exact ⟨p, hp, hb.1⟩

/-- A key has at most one owner. -/
theorem Assigned.unique {R : Set (α × β)} {k : α} {b b' : β} (h : Assigned R k b)
    (h' : Assigned R k b') : b = b' := by
  obtain ⟨p, hp, hb⟩ := h
  obtain ⟨p', hp', hb'⟩ := h'
  obtain rfl := hp.unique hp'
  exact hb.unique hb'

/-- When the owners are renamed and keep their order, a key goes to the new name of its owner. -/
theorem Assigned.map_owner {γ : Type} [LinearOrder γ] {R : Set (α × β)} {R' : Set (α × γ)}
    {g : β → γ} (hg : Monotone g) (hR : ∀ p c, (p, c) ∈ R' ↔ ∃ b, (p, b) ∈ R ∧ g b = c) {k : α}
    {b : β} (h : Assigned R k b) : Assigned R' k (g b) := by
  obtain ⟨p, hp, hb⟩ := h
  have hpoints : points R' = points R := by
    ext x
    constructor
    · rintro ⟨c, hc⟩
      obtain ⟨b', hb', -⟩ := (hR x c).mp hc
      exact ⟨b', hb'⟩
    · rintro ⟨b', hb'⟩
      exact ⟨g b', (hR x _).mpr ⟨b', hb', rfl⟩⟩
  have howners : {c | (p, c) ∈ R'} = g '' {b | (p, b) ∈ R} := Set.ext (hR p)
  exact ⟨p, hpoints ▸ hp, howners ▸ hg.map_isGreatest hb⟩

/-- On a finite non-empty ring every key has an owner. -/
theorem exists_assigned {R : Set (α × β)} (hfin : R.Finite) (hne : R.Nonempty) (k : α) :
    ∃ b, Assigned R k b := by
  have hpts : points R = Prod.fst '' R := by
    ext p
    simp [points]
  obtain ⟨p, hp⟩ := exists_isNext (S := points R) (hpts ▸ hfin.image _) (hpts ▸ hne.image _) k
  have howners : {b | (p, b) ∈ R}.Finite :=
    (hfin.image Prod.snd).subset fun b hb => ⟨(p, b), hb, rfl⟩
  obtain ⟨b, hb, hmax⟩ := Set.exists_max_image _ id howners hp.1
  exact ⟨b, p, hp, hb, fun c hc => hmax c hc⟩

/-- **Minimal disruption, points taken away.** If `R'` is `R` less some points of owners in `X`, a
key of another owner stays with it. -/
theorem Assigned.of_remove {R R' : Set (α × β)} {k : α} {X : Set β} {y : β} (hsub : R' ⊆ R)
    (hX : ∀ q ∈ R, q ∉ R' → q.2 ∈ X) (h : Assigned R k y) (hy : y ∉ X) : Assigned R' k y := by
  obtain ⟨p, hp, hyR, hmax⟩ := h
  have hyR' : (p, y) ∈ R' := by
    by_contra hnot
    exact hy (hX (p, y) hyR hnot)
  refine ⟨p, hp.mono ?_ ⟨y, hyR'⟩, hyR', fun b hb => hmax (hsub hb)⟩
  rintro q ⟨b, hb⟩
  exact ⟨b, hsub hb⟩

/-- **Minimal disruption, points added.** If `R'` is `R` and some points of owners in `X`, a key
moves only to an owner in `X`. -/
theorem Assigned.of_add {R R' : Set (α × β)} {k : α} {X : Set β} {y z : β} (hsub : R ⊆ R')
    (hX : ∀ q ∈ R', q ∉ R → q.2 ∈ X) (h : Assigned R k y) (h' : Assigned R' k z) :
    z = y ∨ z ∈ X := by
  by_cases hz : z ∈ X
  · exact Or.inr hz
  · exact Or.inl ((h'.of_remove hsub hX hz).unique h)

/-! ## Reading the assignment off a list of points -/

/-- The first point that a list has on the walk from `k`: its least element from `k` on, or its
least element of all when there is none. -/
def scanNext (ps : List α) (k : α) : Option α := (ps.filter (k ≤ ·)).min?.or ps.min?

/-- The scan finds the first point. -/
theorem scanNext_eq_some_iff {ps : List α} {k p : α} :
    scanNext ps k = some p ↔ IsNext {x | x ∈ ps} k p := by
  rw [isNext_iff, scanNext, Option.or_eq_some_iff]
  simp only [List.min?_eq_none_iff, List.min?_eq_some_iff, List.mem_filter, decide_eq_true_eq,
    List.filter_eq_nil_iff, not_le, and_imp, Set.mem_ofPred_eq]
  constructor
  · rintro (⟨⟨hp, hkp⟩, hmin⟩ | ⟨hlow, hp, hmin⟩)
    · exact ⟨hp, Or.inl ⟨hkp, hmin⟩⟩
    · exact ⟨hp, Or.inr ⟨hlow, hmin⟩⟩
  · rintro ⟨hp, ⟨hkp, hmin⟩ | ⟨hlow, hmin⟩⟩
    · exact Or.inl ⟨⟨hp, hkp⟩, hmin⟩
    · exact Or.inr ⟨hlow, hp, hmin⟩

/-- The greatest owner of the first point from `k`. -/
def scan (ps : List (α × β)) (k : α) : Option β :=
  (scanNext (ps.map Prod.fst) k).bind fun p => ((ps.filter (·.1 = p)).map Prod.snd).max?

/-- **A scan of the points is the assignment.** -/
theorem scan_eq_some_iff {ps : List (α × β)} {k : α} {b : β} :
    scan ps k = some b ↔ Assigned {q | q ∈ ps} k b := by
  have hpts : points {q | q ∈ ps} = {x | x ∈ ps.map Prod.fst} := by
    ext p
    simp [points]
  have howner : ∀ p, ((ps.filter (·.1 = p)).map Prod.snd).max? = some b ↔
      IsGreatest {b | (p, b) ∈ ps} b := by
    intro p
    simp [List.max?_eq_some_iff, IsGreatest, upperBounds]
  simp only [scan, Option.bind_eq_some_iff, scanNext_eq_some_iff, howner, Assigned, hpts,
    Set.mem_ofPred_eq]

/-! ## Searching a sorted list -/

/-- A search in a sorted list, as the standard library documents it: a hit is any position that
holds the value, a miss is the position where the value would be inserted. -/
structure BinarySearch (α : Type) [LinearOrder α] where
  /-- A hit, or the position of insertion. -/
  search : List α → α → Except ℕ ℕ
  /-- A hit holds the value. -/
  search_ok : ∀ {l : List α} {x : α} {i : ℕ}, l.Pairwise (· ≤ ·) → search l x = .ok i →
    l[i]? = some x
  /-- After a miss the value is nowhere, and exactly the smaller elements lie before it. -/
  search_error : ∀ {l : List α} {x : α} {i : ℕ}, l.Pairwise (· ≤ ·) → search l x = .error i →
    x ∉ l ∧ i ≤ l.length ∧ ∀ j y, l[j]? = some y → (j < i ↔ y < x)

namespace BinarySearch

/-- The position of the first element from `k` on, wrapped around to the first of all. -/
def wrap (bs : BinarySearch α) (l : List α) (k : α) : ℕ :=
  match bs.search l k with
  | .ok i => i
  | .error i => if i = l.length then 0 else i

/-- In a non-empty sorted list the wrapped search finds the first point of the walk. -/
theorem exists_isNext_wrap (bs : BinarySearch α) {l : List α} (hsorted : l.Pairwise (· ≤ ·))
    (hne : l ≠ []) (k : α) :
    ∃ p, l[bs.wrap l k]? = some p ∧ IsNext {x | x ∈ l} k p := by
  unfold wrap
  rcases hsearch : bs.search l k with i | i
  · obtain ⟨-, hle, hsplit⟩ := bs.search_error hsorted hsearch
    simp only
    split_ifs with hi
    · -- every element is below the key: the walk wraps around to the least one
      have hlow : ∀ q ∈ l, q < k := fun q hq => by
        obtain ⟨j, hj, rfl⟩ := List.getElem_of_mem hq
        exact (hsplit j _ (List.getElem?_eq_getElem hj)).mp (hi ▸ hj)
      obtain ⟨p, l', rfl⟩ := List.exists_cons_of_ne_nil hne
      refine ⟨p, rfl, isNext_iff.mpr ⟨List.mem_cons_self, Or.inr ⟨hlow, fun q hq => ?_⟩⟩⟩
      rcases List.mem_cons.mp hq with rfl | hq
      · exact le_rfl
      · exact List.rel_of_pairwise_cons hsorted hq
    · have hlt : i < l.length := lt_of_le_of_ne hle hi
      refine ⟨l[i], List.getElem?_eq_getElem hlt, isNext_iff.mpr ⟨List.getElem_mem hlt, Or.inl ?_⟩⟩
      refine ⟨not_lt.mp fun h => ?_, fun q hq hkq => ?_⟩
      · exact lt_irrefl i ((hsplit i _ (List.getElem?_eq_getElem hlt)).mpr h)
      · obtain ⟨j, hj, rfl⟩ := List.getElem_of_mem hq
        have hij : i ≤ j := by
          by_contra hji
          exact absurd hkq (not_le.mpr
            ((hsplit j _ (List.getElem?_eq_getElem hj)).mp (not_le.mp hji)))
        exact hsorted.rel_get_of_le (a := ⟨i, hlt⟩) (b := ⟨j, hj⟩) hij
  · have hi := bs.search_ok hsorted hsearch
    refine ⟨k, hi, isNext_iff.mpr ⟨List.mem_of_getElem? hi, Or.inl ⟨le_rfl, fun q _ hq => hq⟩⟩⟩

/-- The search that counts the smaller elements. -/
def linear (α : Type) [LinearOrder α] : BinarySearch α where
  search l x :=
    let i := (l.takeWhile (· < x)).length
    if l[i]? = some x then .ok i else .error i
  search_ok := by
    intro l x i _ h
    simp only at h
    split_ifs at h with hx
    cases h
    exact hx
  search_error := by
    intro l x i hsorted h
    simp only at h
    split_ifs at h with hx
    cases h
    have hsplit : ∀ j y, l[j]? = some y → (j < (l.takeWhile (· < x)).length ↔ y < x) := by
      induction l with
      | nil => simp
      | cons a l ih =>
          intro j y hj
          by_cases ha : a < x
          · cases j with
            | zero =>
                obtain rfl : a = y := by simpa using hj
                simp [ha]
            | succ j =>
                simp only [List.takeWhile_cons, ha, decide_true, ↓reduceIte, List.length_cons,
                  Nat.add_lt_add_iff_right, List.getElem?_cons_succ] at hx hj ⊢
                exact ih hsorted.of_cons hx j y hj
          · have hy : ¬ y < x := by
              rcases List.mem_cons.mp (List.mem_of_getElem? hj) with rfl | hmem
              · exact ha
              · exact fun h => ha (lt_of_le_of_lt (List.rel_of_pairwise_cons hsorted hmem) h)
            simp [ha, hy]
    refine ⟨fun hmem => ?_, (List.takeWhile_prefix _).length_le, hsplit⟩
    -- the first element that is not smaller would be the value itself
    obtain ⟨j, hj, hjx⟩ := List.getElem_of_mem hmem
    have hle : (l.takeWhile (· < x)).length ≤ j := by
      by_contra hlt
      have := (hsplit j l[j] (List.getElem?_eq_getElem hj)).mp (not_le.mp hlt)
      exact lt_irrefl x (hjx ▸ this)
    have hlt : (l.takeWhile (· < x)).length < l.length := lt_of_le_of_lt hle hj
    have hge : ¬ l[(l.takeWhile (· < x)).length] < x := fun h =>
      lt_irrefl _ ((hsplit _ _ (List.getElem?_eq_getElem hlt)).mpr h)
    have hle' : l[(l.takeWhile (· < x)).length] ≤ l[j] :=
      hsorted.rel_get_of_le (a := ⟨_, hlt⟩) (b := ⟨j, hj⟩) hle
    apply hx
    rw [List.getElem?_eq_getElem hlt]
    exact congrArg some (le_antisymm (hjx ▸ hle') (not_lt.mp hge))

end BinarySearch

/-! ## Overwriting insertions -/

section lastWrite

variable {γ δ : Type} [DecidableEq γ]

/-- The map that a sequence of insertions builds, later ones overwriting. -/
def lastWrite (ps : List (γ × δ)) : γ → Option δ :=
  ps.foldl (fun m p => Function.update m p.1 (some p.2)) fun _ => none

/-- An insertion after others overwrites its own key. -/
theorem lastWrite_concat (ps : List (γ × δ)) (p : γ × δ) :
    lastWrite (ps ++ [p]) = Function.update (lastWrite ps) p.1 (some p.2) := by
  simp [lastWrite]

/-- What a key holds was inserted under it. -/
theorem mem_of_lastWrite {ps : List (γ × δ)} {g : γ} {d : δ} (h : lastWrite ps g = some d) :
    (g, d) ∈ ps := by
  induction ps using List.reverseRecOn with
  | nil => simp [lastWrite] at h
  | append_singleton ps p ih =>
      rw [lastWrite_concat] at h
      by_cases hg : g = p.1
      · subst hg
        rw [Function.update_self, Option.some.injEq] at h
        exact List.mem_append_right _ (by simp [← h])
      · rw [Function.update_of_ne hg] at h
        exact List.mem_append_left _ (ih h)

/-- A key holds nothing exactly when nothing was inserted under it. -/
theorem lastWrite_eq_none_iff {ps : List (γ × δ)} {g : γ} :
    lastWrite ps g = none ↔ ∀ d, (g, d) ∉ ps := by
  induction ps using List.reverseRecOn with
  | nil => simp [lastWrite]
  | append_singleton ps p ih =>
      obtain ⟨g', d'⟩ := p
      rw [lastWrite_concat]
      by_cases hg : g = g'
      · subst hg
        exact iff_of_false (by simp) fun h => h d' (by simp)
      · simp [ih, hg]

/-- Where the values are inserted in ascending order, a key holds its greatest value. -/
theorem lastWrite_eq_some_iff [LinearOrder δ] {ps : List (γ × δ)}
    (hsorted : (ps.map Prod.snd).Pairwise (· ≤ ·)) {g : γ} {d : δ} :
    lastWrite ps g = some d ↔ IsGreatest {d | (g, d) ∈ ps} d := by
  induction ps using List.reverseRecOn generalizing d with
  | nil => simp [lastWrite, IsGreatest]
  | append_singleton ps p ih =>
      rw [List.map_append, List.pairwise_append] at hsorted
      obtain ⟨hps, -, hlast⟩ := hsorted
      have hle : ∀ c, (g, c) ∈ ps → c ≤ p.2 := fun c hc =>
        hlast c (List.mem_map.mpr ⟨(g, c), hc, rfl⟩) p.2 (by simp)
      obtain ⟨g', d'⟩ := p
      rw [lastWrite_concat]
      by_cases hg : g = g'
      · subst hg
        simp only [Function.update_self, Option.some.injEq]
        constructor
        · rintro rfl
          refine ⟨by simp, fun c hc => ?_⟩
          rcases List.mem_append.mp hc with hc | hc
          · exact hle c hc
          · simp_all
        · rintro ⟨hd, hmax⟩
          apply le_antisymm (hmax (by simp))
          rcases List.mem_append.mp hd with hd | hd
          · exact hle d hd
          · simp_all
      · have hset : {d | (g, d) ∈ ps ++ [(g', d')]} = {d | (g, d) ∈ ps} := by
          ext c
          simp [hg]
        rw [Function.update_of_ne hg, hset]
        exact ih hps

end lastWrite

end PointRing
