import HarbrRouter.Lib.CounterInterval
import HarbrRouter.Routing.ScoreShare
import Mathlib.Data.Rat.Floor

/-!
# How often each candidate is chosen

`routing.rs`, `Router::select_health_aware`, in exact arithmetic and over all values of the rotation
counter: the walk stops at the first candidate that brings the sum of the scores up to the value, so
each candidate is chosen for as many values of the counter as its score is worth, up to the
rounding.

**Theorem** (`healthAware_counts`): the loop always stops, its place grows with the counter, and the
candidates are chosen in proportion to their scores.

`walkPosition` is where the walk stops, and the loop returns the candidate there (`walkScores_eq`).
It is the first place at which the sum of the scores reaches the value (`walkPosition_eq_some_iff`),
so the values that stop at a candidate are an interval (`walkPosition_value_iff`), as long as its
part of the total; and an interval has as many values of the counter as it is long, up to one
(`abs_count_sub_lt`).
-/

set_option autoImplicit false

namespace HarbrRouter.Routing.Router

/-! ## The place at which the walk stops -/

/-- The place of the candidate at which the walk stops. -/
def walkPosition (x : ℚ) : List (UpstreamRef × ℚ) → Option ℕ
  | [] => none
  | c :: cs => if x ≤ c.2 then some 0 else (walkPosition (x - c.2) cs).map (· + 1)

/-- The loop returns the candidate at the place where the walk stops. -/
theorem walkScores_eq (x : ℚ) (cs : List (UpstreamRef × ℚ)) :
    walkScores x cs = (walkPosition x cs).bind fun i => cs[i]?.map Prod.fst := by
  induction cs generalizing x with
  | nil => rfl
  | cons c cs ih =>
      rw [walkScores_cons, walkPosition]
      split_ifs
      · rfl
      · rw [ih, Option.bind_map]
        rfl

/-- The sum of the scores up to a place, its own included. -/
def scoreUpTo (cs : List (UpstreamRef × ℚ)) (i : ℕ) : ℚ := scoreSum (cs.take (i + 1))

/-- **Where the walk stops**: at the first place at which the sum of the scores reaches the value.
The induction is over the candidates, as the loop goes through them. -/
theorem walkPosition_eq_some_iff {x : ℚ} {cs : List (UpstreamRef × ℚ)} {i : ℕ} :
    walkPosition x cs = some i ↔
      i < cs.length ∧ x ≤ scoreUpTo cs i ∧ ∀ j < i, scoreUpTo cs j < x := by
  induction cs generalizing x i with
  | nil => simp [walkPosition]
  | cons c cs ih =>
      have hzero : scoreUpTo (c :: cs) 0 = c.2 := by simp [scoreUpTo]
      have hsucc : ∀ j, scoreUpTo (c :: cs) (j + 1) = c.2 + scoreUpTo cs j := fun j => by
        simp [scoreUpTo]
      rw [walkPosition]
      split_ifs with hx
      · constructor
        · intro h
          obtain rfl := Option.some.inj h
          exact ⟨Nat.succ_pos _, hzero ▸ hx, fun j hj => absurd hj (Nat.not_lt_zero j)⟩
        · rintro ⟨-, -, hbefore⟩
          cases i with
          | zero => rfl
          | succ i =>
              have := hbefore 0 (Nat.succ_pos i)
              linarith
      · rw [Option.map_eq_some_iff]
        constructor
        · rintro ⟨j, hj, rfl⟩
          obtain ⟨hlt, hreach, hbefore⟩ := ih.mp hj
          refine ⟨Nat.succ_lt_succ hlt, ?_, fun k hk => ?_⟩
          · rw [hsucc]
            linarith
          · cases k with
            | zero => rwa [hzero, ← not_le]
            | succ k =>
                have := hbefore k (Nat.lt_of_succ_lt_succ hk)
                rw [hsucc]
                linarith
        · rintro ⟨hlt, hreach, hbefore⟩
          cases i with
          | zero => exact absurd (hzero ▸ hreach) hx
          | succ i =>
              refine ⟨i, ih.mpr ⟨Nat.lt_of_succ_lt_succ hlt, ?_, fun k hk => ?_⟩, rfl⟩
              · rw [hsucc] at hreach
                linarith
              · have := hbefore (k + 1) (Nat.succ_lt_succ hk)
                rw [hsucc] at this
                linarith

/-- The walk from a larger value does not stop earlier. -/
theorem walkPosition_mono {x y : ℚ} {cs : List (UpstreamRef × ℚ)} {i j : ℕ} (hxy : x ≤ y)
    (hi : walkPosition x cs = some i) (hj : walkPosition y cs = some j) : i ≤ j := by
  by_contra! hlt
  have hbefore := (walkPosition_eq_some_iff.mp hi).2.2 j hlt
  have hreach := (walkPosition_eq_some_iff.mp hj).2.1
  linarith

/-- The scores up to a place and those before it. -/
theorem scoreUpTo_eq {cs : List (UpstreamRef × ℚ)} {i : ℕ} {r : UpstreamRef} {s : ℚ}
    (h : cs[i]? = some (r, s)) : scoreUpTo cs i = scoreSum (cs.take i) + s := by
  rw [scoreUpTo, List.take_add_one, h]
  simp [scoreSum]

/-- The scores up to a place are some of all. -/
theorem scoreSum_take_le {cs : List (UpstreamRef × ℚ)} (hpos : ∀ c ∈ cs, 0 < c.2) (i : ℕ) :
    scoreSum (cs.take i) ≤ scoreSum cs := by
  have hsplit : scoreSum cs = scoreSum (cs.take i) + scoreSum (cs.drop i) := by
    conv_lhs => rw [← List.take_append_drop i cs]
    simp [scoreSum]
  have hrest : 0 ≤ scoreSum (cs.drop i) :=
    scoreSum_nonneg fun c hc => hpos c (List.mem_of_mem_drop hc)
  linarith

/-- The sums grow with the place. -/
theorem scoreUpTo_mono {cs : List (UpstreamRef × ℚ)} (hpos : ∀ c ∈ cs, 0 < c.2) {i j : ℕ}
    (hji : j ≤ i) : scoreUpTo cs j ≤ scoreUpTo cs i := by
  have hpos' : ∀ c ∈ cs.take (i + 1), 0 < c.2 := fun c hc => hpos c (List.mem_of_mem_take hc)
  have hle := scoreSum_take_le hpos' (j + 1)
  rwa [List.take_take, Nat.min_eq_left (Nat.succ_le_succ hji)] at hle

/-- The walk has come past all places before one when it has come past the last of them. -/
theorem forall_scoreUpTo_lt_iff {x : ℚ} {cs : List (UpstreamRef × ℚ)}
    (hpos : ∀ c ∈ cs, 0 < c.2) (i : ℕ) :
    (∀ j < i, scoreUpTo cs j < x) ↔ i = 0 ∨ scoreSum (cs.take i) < x := by
  cases i with
  | zero => simp
  | succ i =>
      constructor
      · intro h
        exact Or.inr (h i (Nat.lt_succ_self i))
      · rintro (h | h) j hj
        · exact absurd h (Nat.succ_ne_zero i)
        · exact (scoreUpTo_mono hpos (Nat.le_of_lt_succ hj)).trans_lt h

/-! ## The values at which it stops there -/

section counting

variable {cs : List (UpstreamRef × ℚ)} {i : ℕ} {r : UpstreamRef} {s M : ℚ}

/-- Some candidates have a positive total. -/
theorem scoreSum_pos (hne : cs ≠ []) (hpos : ∀ c ∈ cs, 0 < c.2) : 0 < scoreSum cs := by
  cases cs with
  | nil => exact absurd rfl hne
  | cons c cs =>
      have hc := hpos c List.mem_cons_self
      have hcs := scoreSum_nonneg fun d hd => hpos d (List.mem_cons_of_mem c hd)
      rw [scoreSum_cons]
      linarith

/-- The walk for a value of the counter stops at a candidate when the value is above the scores
before the candidate and not above those up to it, both in parts of the largest value `M`. -/
theorem walkPosition_value_iff (hM : 0 < M) (hne : cs ≠ []) (hpos : ∀ c ∈ cs, 0 < c.2)
    (hi : cs[i]? = some (r, s)) (v : ℕ) :
    walkPosition (v / M * scoreSum cs) cs = some i ↔
      (i = 0 ∨ scoreSum (cs.take i) * M / scoreSum cs < v) ∧
        (v : ℚ) ≤ (scoreSum (cs.take i) + s) * M / scoreSum cs := by
  have hT := scoreSum_pos hne hpos
  obtain ⟨hlt, -⟩ := List.getElem?_eq_some_iff.mp hi
  rw [walkPosition_eq_some_iff, forall_scoreUpTo_lt_iff hpos, scoreUpTo_eq hi, div_mul_eq_mul_div,
    div_le_iff₀ hM, lt_div_iff₀ hM, div_lt_iff₀ hT, le_div_iff₀ hT, and_iff_right hlt, and_comm]

/-- **How often a candidate is chosen**, over the values of a counter up to `M`: as often as its
part of the total is of the number of values, and less than two away from it. The first candidate
has one end of its interval at the start of the counter, the others have both ends inside. -/
theorem abs_count_sub_lt {n : ℕ} (hn : (n : ℚ) = M + 1) (hM : 0 < M) (hpos : ∀ c ∈ cs, 0 < c.2)
    (hi : cs[i]? = some (r, s)) :
    |(((Finset.range n).filter fun v : ℕ =>
        walkPosition (v / M * scoreSum cs) cs = some i).card : ℚ) - n * s / scoreSum cs| < 2 := by
  have hmem := List.mem_of_getElem? hi
  have hne : cs ≠ [] := List.ne_nil_of_mem hmem
  have hT := scoreSum_pos hne hpos
  have hs : 0 < s := hpos (r, s) hmem
  have hbefore : 0 ≤ scoreSum (cs.take i) :=
    scoreSum_nonneg fun c hc => hpos c (List.mem_of_mem_take hc)
  have hupto : scoreSum (cs.take i) + s ≤ scoreSum cs := by
    rw [← scoreUpTo_eq hi]
    exact scoreSum_take_le hpos (i + 1)
  have hb : (scoreSum (cs.take i) + s) * M / scoreSum cs < n := by
    rw [hn, div_lt_iff₀ hT]
    nlinarith
  have hpart : s / scoreSum cs ≤ 1 := by
    rw [div_le_one hT]
    linarith
  have hpart₀ : 0 < s / scoreSum cs := div_pos hs hT
  have hlength : n * s / scoreSum cs = (scoreSum (cs.take i) + s) * M / scoreSum cs -
      scoreSum (cs.take i) * M / scoreSum cs + s / scoreSum cs := by
    rw [hn]
    ring
  simp only [walkPosition_value_iff hM hne hpos hi]
  rcases Nat.eq_zero_or_pos i with rfl | hi₀
  · have hb₀ : 0 ≤ (scoreSum (cs.take 0) + s) * M / scoreSum cs := by positivity
    obtain ⟨hlo, hhi⟩ := CounterInterval.card_Iic_bounds hb₀ hb
    have hzero : scoreSum (cs.take 0) * M / scoreSum cs = 0 := by simp
    simp only [true_or, true_and]
    rw [hlength, hzero, abs_lt]
    constructor
    · linarith
    · linarith
  · have ha : 0 ≤ scoreSum (cs.take i) * M / scoreSum cs := by positivity
    have hab : scoreSum (cs.take i) * M / scoreSum cs ≤
        (scoreSum (cs.take i) + s) * M / scoreSum cs := by
      gcongr
      linarith
    have hcount := CounterInterval.abs_card_Ioc_sub_lt ha hab hb
    simp only [hi₀.ne', false_or]
    rw [abs_lt] at hcount ⊢
    rw [hlength]
    constructor
    · linarith [hcount.1]
    · linarith [hcount.2]

end counting

/-! ## The values of the rotation counter -/

/-- The value of the walk for a value of the counter: `v / u64::MAX * total_score`. -/
def walkValue (v : ℕ) (cs : List (UpstreamRef × ℚ)) : ℚ := v / (2 ^ 64 - 1) * scoreSum cs

/-- The value of the walk grows with the counter. -/
theorem walkValue_mono {cs : List (UpstreamRef × ℚ)} (hpos : ∀ c ∈ cs, 0 < c.2) {v w : ℕ}
    (hvw : v ≤ w) : walkValue v cs ≤ walkValue w cs := by
  have hmax : (0 : ℚ) ≤ 2 ^ 64 - 1 := by norm_num
  have hcast : (v : ℚ) ≤ w := by exact_mod_cast hvw
  apply mul_le_mul_of_nonneg_right _ (scoreSum_nonneg hpos)
  exact div_le_div_of_nonneg_right hcast hmax

/-- The value of the walk never exceeds the total. -/
theorem walkValue_le {cs : List (UpstreamRef × ℚ)} (hpos : ∀ c ∈ cs, 0 < c.2) {v : ℕ}
    (hv : v < 2 ^ 64) : walkValue v cs ≤ scoreSum cs := by
  have hmax : (0 : ℚ) < 2 ^ 64 - 1 := by norm_num
  have hcast : (v : ℚ) ≤ 2 ^ 64 - 1 := by
    have : ((v + 1 : ℕ) : ℚ) ≤ ((2 ^ 64 : ℕ) : ℚ) := by exact_mod_cast hv
    push_cast at this
    linarith
  apply mul_le_of_le_one_left (scoreSum_nonneg hpos)
  rwa [div_le_one hmax]

/-- **How the walk shares out the counter.** For candidates with positive scores, each value of the
counter leads the loop to the first candidate with which the scores sum to at least the value of the
walk, and never to the candidate that stands after the loop; larger values lead to later ones; and
over all values each candidate is chosen as often as its part of the total score says, less than
two away. -/
theorem healthAware_counts (cs : List (UpstreamRef × ℚ)) (hne : cs ≠ [])
    (hpos : ∀ c ∈ cs, 0 < c.2) :
    (∀ v < 2 ^ 64, ∃ i r s, cs[i]? = some (r, s) ∧ walkPosition (walkValue v cs) cs = some i ∧
      walkScores (walkValue v cs) cs = some r ∧ walkValue v cs ≤ scoreUpTo cs i ∧
      ∀ j < i, scoreUpTo cs j < walkValue v cs) ∧
    (∀ (self : Router) (heap : Heap) (upstreams : List UpstreamRef),
      ranked heap upstreams = cs → self.rrCounter < 2 ^ 64 →
      self.selectHealthAware ℚ heap upstreams =
        (self.bumpCounter, walkScores (walkValue self.rrCounter cs) cs)) ∧
    (∀ v w i j, v ≤ w → walkPosition (walkValue v cs) cs = some i →
      walkPosition (walkValue w cs) cs = some j → i ≤ j) ∧
    ∀ i r s, cs[i]? = some (r, s) →
      |(((Finset.range (2 ^ 64)).filter fun v =>
        walkPosition (walkValue v cs) cs = some i).card : ℚ) - 2 ^ 64 * s / scoreSum cs| < 2 := by
  have hfound : ∀ v < 2 ^ 64, (walkScores (walkValue v cs) cs).isSome = true := fun v hv =>
    walkScores_isSome hne (walkValue_le hpos hv)
  refine ⟨fun v hv => ?_, fun self heap upstreams hcs hcounter => ?_, fun v w i j hvw hi hj => ?_,
    fun i r s hi => ?_⟩
  · obtain ⟨r, hr⟩ := Option.isSome_iff_exists.mp (hfound v hv)
    have hplace := walkScores_eq (walkValue v cs) cs
    rw [hr] at hplace
    obtain ⟨i, hi, hc⟩ := Option.bind_eq_some_iff.mp hplace.symm
    obtain ⟨⟨r', s⟩, hget, rfl⟩ := Option.map_eq_some_iff.mp hc
    obtain ⟨-, hreach, hbefore⟩ := walkPosition_eq_some_iff.mp hi
    exact ⟨i, r', s, hget, hi, hr, hreach, hbefore⟩
  · subst hcs
    have hcand : candidates ℚ heap upstreams ≠ [] := by
      intro h
      apply hne
      rw [ranked, h]
      rfl
    obtain ⟨r, hr⟩ := Option.isSome_iff_exists.mp (hfound _ hcounter)
    rw [selectHealthAware_eq self hcand, ← scoreSum_ranked, ← walkValue, hr]
    rfl
  · exact walkPosition_mono (walkValue_mono hpos hvw) hi hj
  · have hM : (0 : ℚ) < 2 ^ 64 - 1 := by norm_num
    have hn : ((2 ^ 64 : ℕ) : ℚ) = 2 ^ 64 - 1 + 1 := by norm_num
    have hcount := abs_count_sub_lt hn hM hpos hi
    rwa [Nat.cast_pow, Nat.cast_ofNat] at hcount

/-- Of two equal candidates, each is chosen for about half of the values: a router whose counter is
in the second half selects the second one. -/
theorem healthAware_counts_halves :
    ({ equalPair.router with rrCounter := 3 * 2 ^ 62 }.selectHealthAware ℚ equalPair.heap
        equalPair.router.upstreams).2 = some 1 ∧
      |(((Finset.range (2 ^ 64)).filter fun v =>
        walkPosition (walkValue v [(0, 1 / 2), (1, 1 / 2)]) [(0, 1 / 2), (1, 1 / 2)] =
          some 0).card : ℚ) - 2 ^ 64 * (1 / 2) / scoreSum [(0, 1 / 2), (1, 1 / 2)]| < 2 := by
  have hranked : ranked equalPair.heap equalPair.router.upstreams = [(0, 1 / 2), (1, 1 / 2)] := by
    decide +kernel
  obtain ⟨-, hselect, -, hhalf⟩ :=
    healthAware_counts [(0, 1 / 2), (1, 1 / 2)] (List.cons_ne_nil _ _) (by norm_num)
  refine ⟨?_, hhalf 0 0 (1 / 2) rfl⟩
  rw [hselect _ _ _ hranked (by decide)]
  decide +kernel

end HarbrRouter.Routing.Router
