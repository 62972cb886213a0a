import HarbrRouter.Routing.Fairness
import HarbrRouter.Routing.HealthAware

/-!
# Whose turn may come

The calls that leave the list and the health states of a router alone: selections, and what the
proxies record about upstreams. With them every available upstream can be made the one that is
selected next, by every strategy.

**Theorem** (`exists_selected`): from every world whose list has positive weights, steady calls lead
to one in which a given available upstream is selected.

Counters are words, so repeated calls bring each of them to any value
(`exists_iterate_wrappingAdd`). For a rotation that is the counter of the router, which selections
bring to the upstream's place in the turn (`exists_rotated`). For the other two strategies it is
the statistics of the upstreams (`exists_recorded`): the upstream gets no connection and all others
get one (`exists_leastConnections`), or it gets the success rate of one that was never tried and all
others that of one that has always failed, so that it is the only candidate (`exists_healthAware`).
-/

set_option autoImplicit false

namespace HarbrRouter.Routing

open PointRing Router

/-! ## Signs of scores -/

/-- What the selection needs to know of the signs of scores: that of an upstream that was never
tried is positive, and that of one that was never answered is not. So it is for `f64`, and in exact
arithmetic. -/
class ScoreSigns (F : Type) [ScoreArith F] : Prop where
  pos : ∀ (state : HealthState) (ms : F) (weight : ℕ), 1 ≤ weight →
    (0.0 : F) < baseScore F state * 1.0 * latencyFactor F ms * (weight : F)
  not_pos : ∀ (state : HealthState) (ms : F) (weight sent : ℕ), 1 ≤ sent →
    ¬ (0.0 : F) < baseScore F state * (((0 : ℕ) : F) / (sent : F)) * latencyFactor F ms *
      (weight : F)

instance : ScoreSigns ℚ where
  pos state ms weight hweight := by
    have hbase := baseScore_pos state
    have hlatency := latencyFactor_pos ms
    have hcast : (0 : ℚ) < (weight : ℚ) := by exact_mod_cast hweight
    rw [show (0.0 : ℚ) = 0 by norm_num, show (1.0 : ℚ) = 1 by norm_num]
    exact mul_pos (mul_pos (mul_pos hbase one_pos) hlatency) hcast
  not_pos state ms weight sent _ := by
    have hrate : ((0 : ℕ) : ℚ) / (sent : ℚ) = 0 := by simp
    have hzero : baseScore ℚ state * (((0 : ℕ) : ℚ) / (sent : ℚ)) * latencyFactor ℚ ms *
        (weight : ℚ) = 0 := by rw [hrate, mul_zero, zero_mul, zero_mul]
    intro h
    exact absurd (h.trans_eq hzero) (by norm_num)

/-! ## Calls that leave the list and the health alone -/

/-- The call replaces no list and reports no health. -/
def Op.Steady : Op → Prop
  | .updateUpstreams .. | .updateUpstreamHealth .. => False
  | _ => True

/-- Repeated increments lead to every value of a counter. -/
theorem exists_iterate_wrappingAdd (a : ℕ) {k : ℕ} (hk : k < 2 ^ 64) :
    ∃ n, (fun x => wrappingAdd x 1)^[n] a = k := by
  have hiterate : ∀ n, (fun x => wrappingAdd x 1)^[n + 1] a = (a + (n + 1)) % 2 ^ 64 := by
    intro n
    induction n with
    | zero => rfl
    | succ n ih =>
        rw [Function.iterate_succ_apply', ih, wrappingAdd]
        omega
  refine ⟨2 ^ 64 - a % 2 ^ 64 + k - 1 + 1, ?_⟩
  rw [hiterate]
  omega

namespace World

section steady

variable (F : Type) [ScoreArith F] (hashKey : String → U64) (search : BinarySearch U64)

/-- Steady calls lead from one world to another. -/
def SteadyRun (w w' : World) : Prop :=
  ∃ ops : List Op, (∀ op ∈ ops, op.Steady) ∧ ops.foldl (apply F hashKey search) w = w'

variable {F hashKey search} {w w' w'' : World}

/-- A world leads to itself without a call. -/
theorem SteadyRun.refl (w : World) : SteadyRun F hashKey search w w := ⟨[], by simp, rfl⟩

/-- Steady calls can be followed by others. -/
theorem SteadyRun.trans (h : SteadyRun F hashKey search w w')
    (h' : SteadyRun F hashKey search w' w'') : SteadyRun F hashKey search w w'' := by
  obtain ⟨ops, hops, rfl⟩ := h
  obtain ⟨ops', hops', rfl⟩ := h'
  exact ⟨ops ++ ops', List.forall_mem_append.mpr ⟨hops, hops'⟩, List.foldl_append⟩

/-- One steady call is a steady run. -/
theorem SteadyRun.single {op : Op} (hop : op.Steady) (w : World) :
    SteadyRun F hashKey search w (apply F hashKey search w op) :=
  ⟨[op], by simpa using hop, rfl⟩

variable (F hashKey search)

/-- A steady call counts a selection, or changes the statistics of one upstream. -/
theorem apply_steady (w : World) {op : Op} (hop : op.Steady) :
    apply F hashKey search w op = w ∨
      apply F hashKey search w op = { w with router := w.router.bumpCounter } ∨
      ∃ r f, apply F hashKey search w op = w.modifyStats r f := by
  cases op with
  | updateUpstreams configs now => exact hop.elim
  | updateUpstreamHealth name state now => exact hop.elim
  | selectUpstream sessionKey =>
      simp only [apply]
      rcases w.router.selectUpstream_fst F hashKey search w.heap sessionKey with h | h
      · exact Or.inl (by rw [h])
      · exact Or.inr (Or.inl (by rw [h]))
  | recordSuccess r responseTime now =>
      exact Or.inr (Or.inr ⟨r, fun s => s.recordSuccess responseTime now, rfl⟩)
  | recordFailure r now => exact Or.inr (Or.inr ⟨r, fun s => s.recordFailure now, rfl⟩)
  | incrementConnections r =>
      exact Or.inr (Or.inr ⟨r, UpstreamStats.incrementConnections, rfl⟩)
  | decrementConnections r =>
      exact Or.inr (Or.inr ⟨r, UpstreamStats.decrementConnections, rfl⟩)

end steady

/-- The list, the strategy, the configurations and the health states are the same. -/
structure SameList (w w' : World) : Prop where
  upstreams : w'.router.upstreams = w.router.upstreams
  strategy : w'.router.strategy = w.router.strategy
  config : ∀ r, (w'.heap.get r).config = (w.heap.get r).config
  health : ∀ r, (w'.heap.get r).healthState = (w.heap.get r).healthState

namespace SameList

variable {w w' w'' : World}

/-- A world has the list that it has. -/
theorem refl (w : World) : SameList w w := ⟨rfl, rfl, fun _ => rfl, fun _ => rfl⟩

/-- Two worlds with the list of a third have the same one. -/
theorem trans (h : SameList w w') (h' : SameList w' w'') : SameList w w'' :=
  ⟨h'.upstreams.trans h.upstreams, h'.strategy.trans h.strategy,
    fun r => (h'.config r).trans (h.config r), fun r => (h'.health r).trans (h.health r)⟩

/-- The same upstreams are available in worlds with the same list. -/
theorem isAvailable (h : SameList w w') (r : UpstreamRef) :
    w'.heap.isAvailable r = w.heap.isAvailable r := by
  unfold Heap.isAvailable UpstreamInfo.isAvailable
  rw [h.health r]

/-- Statistics are not on the list. -/
theorem modifyStats (w : World) (r : UpstreamRef) (f : UpstreamStats → UpstreamStats) :
    SameList w (w.modifyStats r f) := by
  refine ⟨rfl, rfl, fun r' => ?_, fun r' => ?_⟩
  · exact Heap.get_modify_proj UpstreamInfo.config (by exact fun _ => rfl) w.heap r r'
  · exact Heap.get_modify_proj UpstreamInfo.healthState (by exact fun _ => rfl) w.heap r r'

end SameList

/-- Steady calls keep the list. -/
theorem SteadyRun.sameList {F : Type} [ScoreArith F] {hashKey : String → U64}
    {search : BinarySearch U64} {w w' : World} (h : SteadyRun F hashKey search w w') :
    SameList w w' := by
  obtain ⟨ops, hops, rfl⟩ := h
  induction ops generalizing w with
  | nil => exact .refl w
  | cons op ops ih =>
      rw [List.forall_mem_cons] at hops
      refine SameList.trans ?_ (ih hops.2)
      rcases w.apply_steady F hashKey search hops.1 with heq | heq | ⟨r, f, heq⟩
      · rw [heq]
        exact .refl w
      · rw [heq]
        exact ⟨rfl, rfl, fun _ => rfl, fun _ => rfl⟩
      · rw [heq]
        exact .modifyStats w r f

/-! ## What steady calls can do -/

/-- The upstreams of the list are distinct, and exist. -/
structure Allocated (w : World) : Prop where
  nodup : w.router.upstreams.Nodup
  lt : ∀ r ∈ w.router.upstreams, r < w.heap.cells.length

/-- The list of a router is allocated after every history. -/
theorem allocated_history (F : Type) [ScoreArith F] (hashKey : String → U64)
    (search : BinarySearch U64) (strategy : LoadBalancingStrategy) (ops : List Op) :
    (history F hashKey search strategy ops).Allocated := by
  refine history_induction F hashKey search (I := Allocated)
    ⟨List.nodup_nil, by simp [Router.new]⟩ fun w op _ hw => ?_
  have hmodify : ∀ r f, (w.heap.modify r f).cells.length = w.heap.cells.length := fun r f =>
    List.length_modify _ _ _
  rcases w.apply_cases F hashKey search op with ⟨configs, now, -, heq⟩ | ⟨r, state, now, heq⟩ |
    (heq | heq) | ⟨r, f, heq⟩
  · rw [heq]
    refine ⟨?_, fun r hr => ?_⟩
    · simpa [Heap.alloc] using List.nodup_range'
    · exact Heap.lt_of_mem_alloc (by simpa using hr)
  · rw [heq]
    refine ⟨by simpa using hw.nodup, fun r' hr' => ?_⟩
    rw [hmodify]
    exact hw.lt r' (by simpa using hr')
  · rwa [heq]
  · rw [heq]
    exact ⟨hw.nodup, hw.lt⟩
  · rw [heq]
    refine ⟨hw.nodup, fun r' hr' => ?_⟩
    rw [modifyStats, hmodify]
    exact hw.lt r' hr'

/-- **Repeated records**: a call that changes the statistics of one upstream can be repeated for
each upstream of a list as often as one likes. -/
theorem exists_recorded (F : Type) [ScoreArith F] (hashKey : String → U64)
    (search : BinarySearch U64) (op : UpstreamRef → Op) (f : UpstreamStats → UpstreamStats)
    (hsteady : ∀ r, (op r).Steady)
    (hop : ∀ (w : World) r, w.apply F hashKey search (op r) = w.modifyStats r f)
    (n : UpstreamRef → ℕ) {w : World} {rs : List UpstreamRef} (hnodup : rs.Nodup)
    (hlt : ∀ r ∈ rs, r < w.heap.cells.length) :
    ∃ w', SteadyRun F hashKey search w w' ∧ w'.router = w.router ∧
      w'.heap.cells.length = w.heap.cells.length ∧
      (∀ r ∈ rs, (w'.heap.get r).stats = f^[n r] (w.heap.get r).stats) ∧
      ∀ r, r ∉ rs → (w'.heap.get r).stats = (w.heap.get r).stats := by
  -- one upstream
  have hone : ∀ (w : World) r k, r < w.heap.cells.length →
      ∃ w', SteadyRun F hashKey search w w' ∧ w'.router = w.router ∧
        w'.heap.cells.length = w.heap.cells.length ∧
        (w'.heap.get r).stats = f^[k] (w.heap.get r).stats ∧
        ∀ r', r ≠ r' → (w'.heap.get r').stats = (w.heap.get r').stats := by
    intro w r k hr
    induction k with
    | zero => exact ⟨w, .refl w, rfl, rfl, rfl, fun _ _ => rfl⟩
    | succ k ih =>
        obtain ⟨w', hrun, hrouter, hlength, hself, hother⟩ := ih
        refine ⟨w'.modifyStats r f, hop w' r ▸ hrun.trans (.single (hsteady r) w'), hrouter,
          (List.length_modify _ _ _).trans hlength, ?_, fun r' hne => ?_⟩
        · rw [modifyStats, Heap.get_modify_self (hlength.symm ▸ hr), Function.iterate_succ_apply',
            ← hself]
        · rw [modifyStats, Heap.get_modify_of_ne hne, hother r' hne]
  induction rs with
  | nil => exact ⟨w, .refl w, rfl, rfl, by simp, fun _ _ => rfl⟩
  | cons r rs ih =>
      rw [List.nodup_cons] at hnodup
      rw [List.forall_mem_cons] at hlt
      obtain ⟨w₁, hrun₁, hrouter₁, hlength₁, hin₁, hout₁⟩ := ih hnodup.2 hlt.2
      obtain ⟨w₂, hrun₂, hrouter₂, hlength₂, hself₂, hother₂⟩ :=
        hone w₁ r (n r) (hlength₁.symm ▸ hlt.1)
      refine ⟨w₂, hrun₁.trans hrun₂, hrouter₂.trans hrouter₁, hlength₂.trans hlength₁, ?_, ?_⟩
      · rw [List.forall_mem_cons]
        refine ⟨by rw [hself₂, hout₁ r hnodup.1], fun r' hr' => ?_⟩
        have hne : r ≠ r' := fun h => hnodup.1 (h ▸ hr')
        rw [hother₂ r' hne, hin₁ r' hr']
      · intro r' hr'
        rw [List.mem_cons, not_or] at hr'
        rw [hother₂ r' (Ne.symm hr'.1), hout₁ r' hr'.2]

end World

/-- A rotation answers the place of the counter. -/
theorem Router.rotate_snd (self : Router) (list : List UpstreamRef) :
    (self.rotate list).2 = list[self.rrCounter % list.length]? := by
  unfold rotate
  split_ifs with hnil
  · rw [List.isEmpty_iff.mp hnil]
    rfl
  · rfl

namespace World

/-- The available upstreams of the list. -/
def available (w : World) : List UpstreamRef := w.router.upstreams.filter w.heap.isAvailable

/-- The turn of a rotation goes through the available upstreams. -/
theorem mem_turn_iff {w : World} {u : UpstreamRef} :
    u ∈ Fairness.turn w.heap w.router ↔ u ∈ w.available := by
  have hweighted : (u ∈ w.available.flatMap fun v =>
      List.replicate (max (w.heap.get v).config.weight 1) v) ↔ u ∈ w.available := by
    rw [List.mem_flatMap]
    constructor
    · rintro ⟨v, hv, hu⟩
      rwa [List.eq_of_mem_replicate hu]
    · intro hu
      exact ⟨u, hu, List.mem_replicate.mpr ⟨by omega, rfl⟩⟩
  unfold Fairness.turn
  cases w.router.strategy with
  | weightedRoundRobin => exact hweighted
  | _ => rfl

/-! ## One strategy after the other -/

section selected

variable (F : Type) [ScoreArith F] (hashKey : String → U64) (search : BinarySearch U64)

/-- Steady calls lead to a world in which the upstream is selected, without a session key. -/
def MaySelect (w : World) (u : UpstreamRef) : Prop :=
  ∃ w', SteadyRun F hashKey search w w' ∧
    (w'.router.selectUpstream F hashKey search w'.heap none).2 = some u

variable {w : World} {u : UpstreamRef}

/-- **Rotations**: selections bring the counter to the upstream's place in the turn. -/
theorem exists_rotated (hrot : Fairness.rotates w.router.strategy none = true)
    (hvec : (Fairness.turn w.heap w.router).length ≤ 2 ^ 64) (hu : u ∈ w.available) :
    w.MaySelect F hashKey search u := by
  have hturn := mem_turn_iff.mpr hu
  have hne : w.router.upstreams ≠ [] := List.ne_nil_of_mem (List.mem_of_mem_filter hu)
  have hrotate : ∀ c, { w.router with rrCounter := c }.selectUpstream F hashKey search w.heap none =
      { w.router with rrCounter := c }.rotate (Fairness.turn w.heap w.router) := fun c =>
    Fairness.selectUpstream_eq_rotate F hashKey search
      (w := ⟨{ w.router with rrCounter := c }, w.heap⟩) hne hrot
  have hcount : ∀ n, SteadyRun F hashKey search w
      ⟨{ w.router with rrCounter := (fun x => wrappingAdd x 1)^[n] w.router.rrCounter },
        w.heap⟩ := by
    intro n
    induction n with
    | zero => exact .refl w
    | succ n ih =>
        have hsteady : (Op.selectUpstream none).Steady := trivial
        have hnext := ih.trans (.single hsteady _)
        rw [apply, hrotate, rotate, if_neg (by simpa using List.ne_nil_of_mem hturn)] at hnext
        rw [Function.iterate_succ_apply']
        exact hnext
  obtain ⟨i, hi⟩ := List.getElem?_of_mem hturn
  obtain ⟨hlt, -⟩ := List.getElem?_eq_some_iff.mp hi
  obtain ⟨n, hn⟩ := exists_iterate_wrappingAdd w.router.rrCounter (hlt.trans_le hvec)
  refine ⟨_, hcount n, ?_⟩
  rw [hrotate, rotate_snd, hn, Nat.mod_eq_of_lt hlt, hi]

/-- **Least connections**: all other upstreams get a connection, and this one has none. -/
theorem exists_leastConnections (hw : w.Allocated)
    (hstrategy : w.router.strategy = .leastConnections) (hu : u ∈ w.available) :
    w.MaySelect F hashKey search u := by
  choose n hn using fun r => exists_iterate_wrappingAdd (w.heap.get r).stats.activeConnections
    (k := if r = u then 0 else 1) (by split_ifs <;> norm_num)
  obtain ⟨w', hrun, hrouter, -, hstats, -⟩ := exists_recorded F hashKey search
    .incrementConnections UpstreamStats.incrementConnections (fun _ => trivial) (fun _ _ => rfl) n
    hw.nodup hw.lt
  have hconnections : ∀ r ∈ w.router.upstreams,
      (w'.heap.get r).stats.activeConnections = if r = u then 0 else 1 := by
    intro r hr
    have hsemiconj : Function.Semiconj UpstreamStats.activeConnections
        UpstreamStats.incrementConnections fun x => wrappingAdd x 1 := fun _ => rfl
    rw [hstats r hr, (hsemiconj.iterate_right (n r)).eq, hn]
  refine ⟨w', hrun, ?_⟩
  have hmem := List.mem_of_mem_filter hu
  have havailable : w.available = w.router.upstreams.filter w'.heap.isAvailable :=
    List.filter_congr fun r _ => (hrun.sameList.isAvailable r).symm
  unfold selectUpstream
  rw [hrouter, if_neg (by simpa using List.ne_nil_of_mem hmem), hstrategy]
  dsimp only
  rw [selectLeastConnections, List.argmin_eq_some_iff, ← havailable]
  refine ⟨hu, fun r hr => ?_, fun r hr hle => ?_⟩
  · rw [hconnections u hmem, if_pos rfl]
    exact Nat.zero_le _
  · obtain rfl : r = u := by
      by_contra hne
      rw [hconnections u hmem, if_pos rfl, hconnections r (List.mem_of_mem_filter hr),
        if_neg hne] at hle
      omega
    exact le_rfl

/-- **Health-aware**: all other upstreams have failed every time, and this one was never tried. -/
theorem exists_healthAware [ScoreSigns F] (hw : w.Allocated)
    (hweight : ∀ r ∈ w.router.upstreams, 1 ≤ (w.heap.get r).config.weight)
    (hstrategy : w.router.strategy = .healthAware) (hu : u ∈ w.available) :
    w.MaySelect F hashKey search u := by
  obtain ⟨hmem, hav⟩ := List.mem_filter.mp hu
  -- successes bring the count of the answers to zero
  choose n₁ hn₁ using fun r => exists_iterate_wrappingAdd (w.heap.get r).stats.responsesReceived
    (k := 0) (by norm_num)
  obtain ⟨w₁, hrun₁, hrouter₁, hlength₁, hstats₁, -⟩ := exists_recorded F hashKey search
    (fun r => .recordSuccess r 0 0) (fun s => s.recordSuccess 0 0) (fun _ => trivial)
    (fun _ _ => rfl) n₁ hw.nodup hw.lt
  -- failures bring the count of the requests to zero or one
  choose n₂ hn₂ using fun r => exists_iterate_wrappingAdd (w₁.heap.get r).stats.requestsSent
    (k := if r = u then 0 else 1) (by split_ifs <;> norm_num)
  obtain ⟨w₂, hrun₂, hrouter₂, -, hstats₂, -⟩ := exists_recorded F hashKey search (w := w₁)
    (fun r => .recordFailure r 0) (fun s => s.recordFailure 0) (fun _ => trivial)
    (fun _ _ => rfl) n₂ (hrouter₁ ▸ hw.nodup) fun r hr => hlength₁.symm ▸ hw.lt r (hrouter₁ ▸ hr)
  have hreceived : ∀ r ∈ w.router.upstreams,
      (w₂.heap.get r).stats.responsesReceived = 0 := by
    intro r hr
    have hsuccess : Function.Semiconj UpstreamStats.responsesReceived
        (fun s => s.recordSuccess 0 0) fun x => wrappingAdd x 1 := fun _ => rfl
    have hfailure : Function.Semiconj UpstreamStats.responsesReceived
        (fun s => s.recordFailure 0) id := fun _ => rfl
    rw [hstats₂ r (hrouter₁ ▸ hr), (hfailure.iterate_right (n₂ r)).eq, Function.iterate_id,
      hstats₁ r hr, id, (hsuccess.iterate_right (n₁ r)).eq, hn₁]
  have hsent : ∀ r ∈ w.router.upstreams,
      (w₂.heap.get r).stats.requestsSent = if r = u then 0 else 1 := by
    intro r hr
    have hfailure : Function.Semiconj UpstreamStats.requestsSent
        (fun s => s.recordFailure 0) fun x => wrappingAdd x 1 := fun _ => rfl
    rw [hstats₂ r (hrouter₁ ▸ hr), (hfailure.iterate_right (n₂ r)).eq, hn₂]
  have hrun := hrun₁.trans hrun₂
  have hrouter : w₂.router = w.router := hrouter₂.trans hrouter₁
  have hscore : (0.0 : F) < combinedScore F w₂.heap u := by
    have hpos := ScoreSigns.pos (F := F) (w₂.heap.get u).healthState
      ((w₂.heap.get u).stats.avgResponseTimeMs F) (w₂.heap.get u).config.weight
      ((hrun.sameList.config u).symm ▸ hweight u hmem)
    rwa [combinedScore, UpstreamInfo.healthScore, UpstreamStats.successRate, hsent u hmem,
      if_pos (if_pos rfl)]
  have honly : ∀ r ∈ w.router.upstreams, (0.0 : F) < combinedScore F w₂.heap r → r = u := by
    intro r hr hpos
    by_contra hne
    rw [combinedScore, UpstreamInfo.healthScore, UpstreamStats.successRate, hsent r hr,
      if_neg hne, if_neg one_ne_zero, hreceived r hr] at hpos
    exact ScoreSigns.not_pos _ _ _ 1 le_rfl hpos
  refine ⟨w₂, hrun, ?_⟩
  unfold selectUpstream
  rw [hrouter, if_neg (by simpa using List.ne_nil_of_mem hmem), hstrategy]
  dsimp only
  rcases hanswer : (w.router.selectHealthAware F w₂.heap w.router.upstreams).2 with _ | r
  · have hnil := (w.router.selectHealthAware_eq_none_iff F w₂.heap w.router.upstreams).mp hanswer
    have hcandidate : (u, combinedScore F w₂.heap u) ∈
        candidates F w₂.heap w.router.upstreams := (mem_candidates F).mpr
      ⟨hmem, (hrun.sameList.isAvailable u).trans hav, rfl, hscore⟩
    exact absurd hnil (List.ne_nil_of_mem hcandidate)
  · obtain ⟨score, hcandidate⟩ :=
      w.router.mem_candidates_of_selectHealthAware F w₂.heap w.router.upstreams hanswer
    obtain ⟨hr, -, hcombined, hpos⟩ := (mem_candidates F).mp hcandidate
    rw [honly r hr (hcombined ▸ hpos)]

/-- **Every turn may come**: whatever the strategy is, an available upstream may be selected. -/
theorem exists_selected [ScoreSigns F] (hw : w.Allocated)
    (hweight : ∀ r ∈ w.router.upstreams, 1 ≤ (w.heap.get r).config.weight)
    (hvec : (Fairness.turn w.heap w.router).length ≤ 2 ^ 64) (hu : u ∈ w.available) :
    w.MaySelect F hashKey search u := by
  cases hstrategy : w.router.strategy with
  | leastConnections => exact exists_leastConnections F hashKey search hw hstrategy hu
  | healthAware => exact exists_healthAware F hashKey search hw hweight hstrategy hu
  | roundRobin | weightedRoundRobin | consistentHashing =>
      exact exists_rotated F hashKey search (by rw [hstrategy]; rfl) hvec hu

end selected

end World

end HarbrRouter.Routing
