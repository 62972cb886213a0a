import HarbrRouter.Routing.Selection
import Mathlib.Algebra.Order.BigOperators.Group.List
import Mathlib.Tactic.FieldSimp
import Mathlib.Tactic.Linarith
import Mathlib.Tactic.NormNum
import Mathlib.Tactic.Positivity

/-!
# Who is selected by the health-aware walk

In exact arithmetic. The walk subtracts the scores from `rr_counter / u64::MAX * total` until
nothing is left, so that each candidate owns an interval of counter values, as long as its part of
the total score is of `2 ^ 64`. Consecutive calls take consecutive values.

**Theorem** (`healthAware_shares_iff`): a window of calls that the scores entitle to a selection has
one exactly when one of its counter values is in the interval of the candidate. Which values of the
walk end at a candidate is an induction over the ranked candidates (`walkScores_eq_some_iff`), and
one call selects the candidate in whose interval the counter is (`selectHealthAware_eq_some_iff`). A
call counts one and changes nothing else, so consecutive calls select a candidate exactly when one
of their values is there (`mem_selectEach_healthAware_iff`).

**Theorem** (`healthAware_only_top`): up to the first candidate's part of `2 ^ 64`, nobody else is
selected.
-/

set_option autoImplicit false

namespace HarbrRouter.Routing

open PointRing

namespace Router

/-! ## Consecutive calls -/

/-- What consecutive calls answer, one after the other on unchanged upstreams. -/
def selectEach (F : Type) [ScoreArith F] (hashKey : String → U64) (search : BinarySearch U64)
    (self : Router) (heap : Heap) : List (Option String) → List (Option UpstreamRef)
  | [] => []
  | sessionKey :: sessionKeys =>
      (self.selectUpstream F hashKey search heap sessionKey).2 ::
        selectEach F hashKey search (self.selectUpstream F hashKey search heap sessionKey).1 heap
          sessionKeys

/-! ## The walk through the scores -/

/-- The sum of the scores of some candidates. -/
def scoreSum (cs : List (UpstreamRef × ℚ)) : ℚ := (cs.map Prod.snd).sum

@[simp] theorem scoreSum_nil : scoreSum [] = 0 := rfl

@[simp] theorem scoreSum_cons (c : UpstreamRef × ℚ) (cs : List (UpstreamRef × ℚ)) :
    scoreSum (c :: cs) = c.2 + scoreSum cs := by
  simp [scoreSum]

/-- Positive scores have a sum that is not negative. -/
theorem scoreSum_nonneg {cs : List (UpstreamRef × ℚ)} (hpos : ∀ c ∈ cs, 0 < c.2) :
    0 ≤ scoreSum cs := by
  apply List.sum_nonneg
  intro s hs
  obtain ⟨c, hc, rfl⟩ := List.mem_map.mp hs
  exact (hpos c hc).le

/-- The walk stops at its first candidate, or goes on behind it with the value that is left. -/
theorem walkScores_cons (x : ℚ) (c : UpstreamRef × ℚ) (cs : List (UpstreamRef × ℚ)) :
    walkScores x (c :: cs) = if x ≤ c.2 then some c.1 else walkScores (x - c.2) cs := by
  have hzero : (x - c.2 ≤ (0.0 : ℚ)) ↔ x ≤ c.2 := by
    rw [show (0.0 : ℚ) = 0 by norm_num, sub_nonpos]
  rw [walkScores]
  exact if_congr hzero rfl rfl

/-- **Where the walk ends.** The walk from `x` ends at the candidate before which the scores sum to
less than `x`, and with which they sum to at least `x`; at the first one there is nothing before.
The induction is over the candidates, each one met taking its score off the value. -/
theorem walkScores_eq_some_iff {x : ℚ} {cs : List (UpstreamRef × ℚ)} (hpos : ∀ c ∈ cs, 0 < c.2)
    {r : UpstreamRef} :
    walkScores x cs = some r ↔ ∃ before score after, cs = before ++ (r, score) :: after ∧
      (before = [] ∨ scoreSum before < x) ∧ x ≤ scoreSum before + score := by
  induction cs generalizing x with
  | nil => simp [walkScores]
  | cons c cs ih =>
      have hc : 0 < c.2 := hpos c List.mem_cons_self
      have hcs : ∀ d ∈ cs, 0 < d.2 := fun d hd => hpos d (List.mem_cons_of_mem c hd)
      rw [walkScores_cons]
      split_ifs with hx
      · constructor
        · intro h
          obtain rfl := Option.some.inj h
          exact ⟨[], c.2, cs, rfl, Or.inl rfl, by simpa using hx⟩
        · rintro ⟨before, score, after, hsplit, hbefore, -⟩
          cases before with
          | nil =>
              obtain ⟨rfl, -⟩ := List.cons.inj hsplit
              rfl
          | cons d before =>
              obtain ⟨rfl, rfl⟩ := List.cons.inj hsplit
              have hrest := scoreSum_nonneg fun d hd => hcs d (List.mem_append_left _ hd)
              have hlt : scoreSum (c :: before) < x := hbefore.resolve_left (by simp)
              rw [scoreSum_cons] at hlt
              linarith
      · rw [ih hcs]
        have hx := not_le.mp hx
        constructor
        · rintro ⟨before, score, after, rfl, hbefore, hle⟩
          refine ⟨c :: before, score, after, rfl, Or.inr ?_, ?_⟩
          · rcases hbefore with rfl | hlt
            · simpa using hx
            · rw [scoreSum_cons]
              linarith
          · rw [scoreSum_cons]
            linarith
        · rintro ⟨before, score, after, hsplit, hbefore, hle⟩
          cases before with
          | nil =>
              obtain ⟨rfl, -⟩ := List.cons.inj hsplit
              simp only [scoreSum_nil, zero_add] at hle
              linarith
          | cons d before =>
              obtain ⟨rfl, rfl⟩ := List.cons.inj hsplit
              have hlt : scoreSum (c :: before) < x := hbefore.resolve_left (by simp)
              rw [scoreSum_cons] at hlt hle
              exact ⟨before, score, after, rfl, Or.inr (by linarith), by linarith⟩

/-- From a value within the total, the walk ends at a candidate. -/
theorem walkScores_isSome {x : ℚ} {cs : List (UpstreamRef × ℚ)} (hne : cs ≠ [])
    (hx : x ≤ scoreSum cs) : (walkScores x cs).isSome = true := by
  induction cs generalizing x with
  | nil => exact absurd rfl hne
  | cons c cs ih =>
      rw [walkScores_cons]
      split_ifs with h
      · rfl
      · rw [scoreSum_cons] at hx
        refine ih ?_ (by linarith)
        rintro rfl
        rw [scoreSum_nil] at hx
        linarith [not_le.mp h]

/-! ## The shares of the counter -/

/-- The candidates in the order of the walk. -/
def ranked (heap : Heap) (upstreams : List UpstreamRef) : List (UpstreamRef × ℚ) :=
  (candidates ℚ heap upstreams).insertionSort fun a b => b.2 ≤ a.2

/-- The total of the scores. -/
def totalScore (heap : Heap) (upstreams : List UpstreamRef) : ℚ :=
  scoreSum (candidates ℚ heap upstreams)

/-- The counter value `v` is in the share of `r`: among the ranked candidates, `v` of `2 ^ 64 - 1`
parts of the total are more than the scores before `r` and no more than the scores up to `r`. -/
def InShare (heap : Heap) (upstreams : List UpstreamRef) (v : ℕ) (r : UpstreamRef) : Prop :=
  ∃ before score after, ranked heap upstreams = before ++ (r, score) :: after ∧
    (before = [] ∨ scoreSum before * (2 ^ 64 - 1) < v * totalScore heap upstreams) ∧
    v * totalScore heap upstreams ≤ (scoreSum before + score) * (2 ^ 64 - 1)

section shares

variable {heap : Heap} {upstreams : List UpstreamRef}

/-- A ranked candidate has a positive score. -/
theorem pos_of_mem_ranked {c : UpstreamRef × ℚ} (h : c ∈ ranked heap upstreams) : 0 < c.2 := by
  have hmem := (List.perm_insertionSort _ _).mem_iff.mp h
  have hpos := ((mem_candidates ℚ).mp hmem).2.2.2
  rwa [show (0.0 : ℚ) = 0 by norm_num] at hpos

/-- Ranking does not change the total. -/
theorem scoreSum_ranked (heap : Heap) (upstreams : List UpstreamRef) :
    scoreSum (ranked heap upstreams) = totalScore heap upstreams :=
  ((List.perm_insertionSort _ _).map Prod.snd).sum_eq

/-- The total is not negative. -/
theorem totalScore_nonneg (heap : Heap) (upstreams : List UpstreamRef) :
    0 ≤ totalScore heap upstreams := by
  rw [← scoreSum_ranked]
  exact scoreSum_nonneg fun c hc => pos_of_mem_ranked hc

/-- The sum of the code is the total. -/
theorem foldl_ranked :
    ((ranked heap upstreams).map Prod.snd).foldl (· + ·) (0.0 : ℚ) = totalScore heap upstreams := by
  rw [← scoreSum_ranked, scoreSum, List.sum_eq_foldl, show (0.0 : ℚ) = 0 by norm_num]

/-- A call of the strategy, with the ranked candidates and the total under their names. -/
theorem selectHealthAware_eq (self : Router) (hne : candidates ℚ heap upstreams ≠ []) :
    self.selectHealthAware ℚ heap upstreams =
      (self.bumpCounter,
        (walkScores (self.rrCounter / (2 ^ 64 - 1) * totalScore heap upstreams)
          (ranked heap upstreams)).or ((ranked heap upstreams).head?.map Prod.fst)) := by
  have hempty : ¬ (candidates ℚ heap upstreams).isEmpty = true := by simpa using hne
  have hmax : ((2 ^ 64 - 1 : ℕ) : ℚ) = 2 ^ 64 - 1 := by norm_num
  rw [selectHealthAware, if_neg hempty, ← foldl_ranked, ← hmax]
  rfl

/-- There is a ranked candidate when there is a candidate. -/
theorem ranked_ne_nil (hne : candidates ℚ heap upstreams ≠ []) : ranked heap upstreams ≠ [] := by
  intro h
  have hperm := List.perm_insertionSort (fun a b : UpstreamRef × ℚ => b.2 ≤ a.2)
    (candidates ℚ heap upstreams)
  rw [show (candidates ℚ heap upstreams).insertionSort _ = [] from h] at hperm
  exact hne hperm.nil_eq.symm

/-- Without candidates nobody has a share. -/
theorem not_inShare_of_nil (h : candidates ℚ heap upstreams = []) (v : ℕ) (r : UpstreamRef) :
    ¬ InShare heap upstreams v r := by
  rintro ⟨before, score, after, hsplit, -⟩
  rw [ranked, h] at hsplit
  simp at hsplit

/-- **What one call selects**: the candidate in whose share the counter is. -/
theorem selectHealthAware_eq_some_iff {self : Router} (hcounter : self.rrCounter < 2 ^ 64)
    {r : UpstreamRef} :
    (self.selectHealthAware ℚ heap upstreams).2 = some r ↔
      InShare heap upstreams self.rrCounter r := by
  by_cases hne : candidates ℚ heap upstreams = []
  · have hnone := (selectHealthAware_eq_none_iff ℚ self heap upstreams).mpr hne
    exact iff_of_false (by simp [hnone]) (not_inShare_of_nil hne _ r)
  · have hmax : (0 : ℚ) < 2 ^ 64 - 1 := by norm_num
    have htotal := totalScore_nonneg heap upstreams
    have hvalue : (self.rrCounter : ℚ) ≤ 2 ^ 64 - 1 := by
      have : self.rrCounter + 1 ≤ 2 ^ 64 := hcounter
      have : (self.rrCounter : ℚ) + 1 ≤ 2 ^ 64 := by exact_mod_cast this
      linarith
    have hwithin : (self.rrCounter : ℚ) / (2 ^ 64 - 1) * totalScore heap upstreams ≤
        scoreSum (ranked heap upstreams) := by
      rw [scoreSum_ranked]
      exact mul_le_of_le_one_left htotal ((div_le_one hmax).mpr hvalue)
    obtain ⟨r', hr'⟩ := Option.isSome_iff_exists.mp (walkScores_isSome (ranked_ne_nil hne) hwithin)
    rw [selectHealthAware_eq self hne]
    simp only [hr', Option.some_or]
    rw [← hr', walkScores_eq_some_iff fun c hc => pos_of_mem_ranked hc]
    -- the bounds of the share, multiplied by `u64::MAX`
    refine exists_congr fun before => exists_congr fun score => exists_congr fun after =>
      and_congr_right fun _ => and_congr (or_congr_right ?_) ?_
    · rw [div_mul_eq_mul_div, lt_div_iff₀ hmax]
    · rw [div_mul_eq_mul_div, div_le_iff₀ hmax]

end shares

/-! ## Windows of calls -/

section windows

variable {hashKey : String → U64} {search : BinarySearch U64} {self : Router} {heap : Heap}

/-- With the health-aware strategy a call is a call of its selection function. -/
theorem selectUpstream_healthAware {F : Type} [ScoreArith F] (hs : self.strategy = .healthAware)
    (sessionKey : Option String) :
    self.selectUpstream F hashKey search heap sessionKey =
      self.selectHealthAware F heap self.upstreams := by
  unfold selectUpstream
  split_ifs with hempty
  · have hnil : self.upstreams = [] := by simpa using hempty
    simp [hnil, selectHealthAware, candidates]
  · rw [hs]

/-- **What consecutive calls select**: the candidates in whose shares their counter values are. -/
theorem mem_selectEach_healthAware_iff (hs : self.strategy = .healthAware)
    (hcounter : self.rrCounter < 2 ^ 64) (sessionKeys : List (Option String)) {r : UpstreamRef} :
    some r ∈ self.selectEach ℚ hashKey search heap sessionKeys ↔
      ∃ k < sessionKeys.length,
        InShare heap self.upstreams ((self.rrCounter + k) % 2 ^ 64) r := by
  induction sessionKeys generalizing self with
  | nil => simp [selectEach]
  | cons sessionKey sessionKeys ih =>
      by_cases hne : candidates ℚ heap self.upstreams = []
      · -- nobody is selected, and the counter stands still
        have hcall : self.selectHealthAware ℚ heap self.upstreams = (self, none) := by
          simp [selectHealthAware, hne]
        rw [selectEach, selectUpstream_healthAware hs, hcall, List.mem_cons, ih hs hcounter]
        simp [not_inShare_of_nil hne]
      · have hnext : (self.selectUpstream ℚ hashKey search heap sessionKey).1 =
            self.bumpCounter := by
          rw [selectUpstream_healthAware hs, selectHealthAware_eq self hne]
        have hbump : self.bumpCounter.rrCounter = (self.rrCounter + 1) % 2 ^ 64 := rfl
        have hlt : self.bumpCounter.rrCounter < 2 ^ 64 := Nat.mod_lt _ (by norm_num)
        have hs' : self.bumpCounter.strategy = .healthAware := hs
        rw [selectEach, List.mem_cons, hnext, ih hs' hlt, selectUpstream_healthAware hs, eq_comm,
          selectHealthAware_eq_some_iff hcounter, hbump]
        constructor
        · rintro (h | ⟨k, hk, h⟩)
          · exact ⟨0, Nat.succ_pos _, by rwa [Nat.add_zero, Nat.mod_eq_of_lt hcounter]⟩
          · refine ⟨k + 1, Nat.succ_lt_succ hk, ?_⟩
            rwa [Nat.mod_add_mod, Nat.add_right_comm, Nat.add_assoc] at h
        · rintro ⟨k, hk, h⟩
          cases k with
          | zero => exact Or.inl (by rwa [Nat.add_zero, Nat.mod_eq_of_lt hcounter] at h)
          | succ k =>
              refine Or.inr ⟨k, Nat.lt_of_succ_lt_succ hk, ?_⟩
              rwa [Nat.mod_add_mod, Nat.add_right_comm, Nat.add_assoc]

/-- **Sharing by score, exactly.** That a window of calls selects a candidate if it is long enough
for two selections by the candidate's part of the total score: this holds if and only if the
window is not that long or one of its counter values is in the candidate's share. -/
theorem healthAware_shares_iff (hashKey : String → U64) (search : BinarySearch U64) {self : Router}
    {heap : Heap} (hs : self.strategy = .healthAware) (hcounter : self.rrCounter < 2 ^ 64)
    (r : UpstreamRef) (sessionKeys : List (Option String)) :
    (2 * totalScore heap self.upstreams ≤ sessionKeys.length * combinedScore ℚ heap r →
        some r ∈ self.selectEach ℚ hashKey search heap sessionKeys) ↔
      sessionKeys.length * combinedScore ℚ heap r < 2 * totalScore heap self.upstreams ∨
        ∃ k < sessionKeys.length,
          InShare heap self.upstreams ((self.rrCounter + k) % 2 ^ 64) r := by
  rw [mem_selectEach_healthAware_iff hs hcounter, ← not_le]
  exact imp_iff_not_or

/-- As long as the counter is within the first candidate's part of `u64::MAX`, a call selects the
first candidate. -/
theorem inShare_iff_of_le_top {heap : Heap} {upstreams : List UpstreamRef} {top : UpstreamRef × ℚ}
    {rest : List (UpstreamRef × ℚ)} (hranked : ranked heap upstreams = top :: rest) {v : ℕ}
    (hv : v * totalScore heap upstreams ≤ top.2 * (2 ^ 64 - 1)) {r : UpstreamRef} :
    InShare heap upstreams v r ↔ r = top.1 := by
  constructor
  · rintro ⟨before, score, after, hsplit, hbefore, -⟩
    rw [hranked] at hsplit
    cases before with
    | nil => exact (congrArg Prod.fst (List.cons.inj hsplit).1).symm
    | cons c before =>
        obtain ⟨rfl, rfl⟩ := List.cons.inj hsplit
        have hrest : 0 ≤ scoreSum before := scoreSum_nonneg fun d hd =>
          pos_of_mem_ranked (hranked ▸ List.mem_cons_of_mem _ (List.mem_append_left _ hd))
        have hlt := hbefore.resolve_left (by simp)
        rw [scoreSum_cons] at hlt
        have hle : top.2 * (2 ^ 64 - 1) ≤ (top.2 + scoreSum before) * (2 ^ 64 - 1) := by
          gcongr
          exact le_add_of_nonneg_right hrest
        linarith
  · rintro rfl
    exact ⟨[], top.2, rest, hranked, Or.inl rfl, by simpa using hv⟩

/-- **Only the first candidate.** A window of calls whose counter values stay within the first
candidate's part of `u64::MAX` selects nobody else, however long it is. -/
theorem healthAware_only_top (hashKey : String → U64) (search : BinarySearch U64) {self : Router}
    {heap : Heap} (hs : self.strategy = .healthAware) {top : UpstreamRef × ℚ}
    {rest : List (UpstreamRef × ℚ)} (hranked : ranked heap self.upstreams = top :: rest)
    {sessionKeys : List (Option String)} (hmax : self.rrCounter + sessionKeys.length < 2 ^ 64)
    (htop : ((self.rrCounter + sessionKeys.length : ℕ) : ℚ) * totalScore heap self.upstreams ≤
      top.2 * (2 ^ 64 - 1)) {r : UpstreamRef}
    (hr : some r ∈ self.selectEach ℚ hashKey search heap sessionKeys) : r = top.1 := by
  obtain ⟨k, hk, hshare⟩ := (mem_selectEach_healthAware_iff hs (by omega) sessionKeys).mp hr
  rw [Nat.mod_eq_of_lt (by omega)] at hshare
  refine (inShare_iff_of_le_top hranked (le_trans ?_ htop)).mp hshare
  have htotal := totalScore_nonneg heap self.upstreams
  gcongr

/-- Two upstreams with the same score, and a counter at zero. -/
def equalPair : World where
  router := { Router.new .healthAware with upstreams := [0, 1] }
  heap := ⟨[.new ⟨"a", "a:80", 1, 0, 5000⟩ 0, .new ⟨"b", "b:80", 1, 0, 5000⟩ 0]⟩

/-- Four calls are worth two selections of each, and none of them selects the second. -/
theorem healthAware_starves_second :
    (1, combinedScore ℚ equalPair.heap 1) ∈
        candidates ℚ equalPair.heap equalPair.router.upstreams ∧
      ¬ (2 * totalScore equalPair.heap equalPair.router.upstreams ≤
          (List.replicate 4 (none : Option String)).length *
            combinedScore ℚ equalPair.heap 1 →
        some 1 ∈ equalPair.router.selectEach ℚ (fun _ => 0) (BinarySearch.linear U64)
          equalPair.heap (List.replicate 4 none)) := by
  decide +kernel

/-- The condition at work: the counter value zero is in the share of the first. -/
theorem healthAware_shares_iff_first :
    some 0 ∈ equalPair.router.selectEach ℚ (fun _ => 0) (BinarySearch.linear U64)
      equalPair.heap (List.replicate 4 none) := by
  refine (healthAware_shares_iff (fun _ => 0) (BinarySearch.linear U64) rfl (by decide) 0
    (List.replicate 4 none)).mpr (Or.inr ⟨0, by decide, ?_⟩) (by decide +kernel)
  exact ⟨[], 1 / 2, [(1, 1 / 2)], by decide +kernel, Or.inl rfl, by decide +kernel⟩

end windows

end Router

end HarbrRouter.Routing
