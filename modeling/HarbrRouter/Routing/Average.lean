import HarbrRouter.Routing.ConcurrentStats
import Mathlib.Data.List.Induction
import Mathlib.Order.Monotone.Basic

/-!
# The average response time under concurrent calls

`UpstreamStats::record_success` loads the average, computes the next one and stores it; what others
store in between is lost. Whatever is lost, the average is made of samples that were stored, so it
stays between the smallest and the largest of them.

**Theorem** (`average_kept`): in every run of calls with samples of at most an eighth of a word, the
average lies between the stored samples, the arithmetic does not overflow, and under one repeated
sample the average goes towards it, to within seven of it.

Below an eighth of a word the next average is seven eighths of the last one and an eighth of the
sample (`newAvg_eq`), and so lies between the samples as well (`Between.newAvg`). The invariant says
that of the stored average and of all that calls have loaded of it (`AvgInv`). For the approach,
each further sample brings the average nearer as long as it is not within seven (`newAvg_nearer`),
and calls one after the other compute these averages (`run_recordSequentially`).
-/

set_option autoImplicit false

namespace HarbrRouter.Routing.ConcurrentStats

open Transition TaskPool

/-! ## One average and one sample -/

/-- The largest response time for which the arithmetic has room. -/
def maxSample : ℕ := (2 ^ 64 - 1) / 8

/-- Without overflow the next average is an eighth of the sample and seven eighths of the last
average, or the sample if there was none. -/
theorem newAvg_eq {avg r : ℕ} (havg : avg ≤ maxSample) (hr : r ≤ maxSample) :
    avg * 7 + r < 2 ^ 64 ∧
      UpstreamStats.newAvg avg r = if avg = 0 then r else (avg * 7 + r) / 8 := by
  unfold maxSample at havg hr
  have hroom : avg * 7 + r < 2 ^ 64 := by omega
  refine ⟨hroom, ?_⟩
  unfold UpstreamStats.newAvg
  rw [Nat.mod_eq_of_lt (by omega), wrappingAdd_eq hroom]

/-- The number lies between two samples. -/
def Between (samples : List ℕ) (x : ℕ) : Prop := ∃ lo ∈ samples, ∃ hi ∈ samples, lo ≤ x ∧ x ≤ hi

/-- More samples leave a number between them. -/
theorem Between.mono {samples samples' : List ℕ} {x : ℕ} (h : Between samples x)
    (hsub : samples ⊆ samples') : Between samples' x := by
  obtain ⟨lo, hlo, hi, hhi, hle⟩ := h
  exact ⟨lo, hsub hlo, hi, hsub hhi, hle⟩

/-- Bounded samples bound what is between them. -/
theorem Between.le {samples : List ℕ} {x bound : ℕ} (h : Between samples x)
    (hbound : ∀ r ∈ samples, r ≤ bound) : x ≤ bound := by
  obtain ⟨lo, hlo, hi, hhi, hle⟩ := h
  exact hle.2.trans (hbound hi hhi)

/-- The next average lies between the samples and the new one. -/
theorem Between.newAvg {samples : List ℕ} {avg r : ℕ} (havg : avg ≤ maxSample) (hr : r ≤ maxSample)
    (h : avg = 0 ∨ Between samples avg) :
    Between (samples ++ [r]) (UpstreamStats.newAvg avg r) := by
  rw [(newAvg_eq havg hr).2]
  have hlast : r ∈ samples ++ [r] := by simp
  split_ifs with hzero
  · exact ⟨r, hlast, r, hlast, le_rfl, le_rfl⟩
  · obtain ⟨lo, hlo, hi, hhi, hle⟩ := h.resolve_left hzero
    have hlo' : lo ∈ samples ++ [r] := List.mem_append_left _ hlo
    have hhi' : hi ∈ samples ++ [r] := List.mem_append_left _ hhi
    obtain ⟨a, ha, hlea⟩ : ∃ a ∈ samples ++ [r], a ≤ (avg * 7 + r) / 8 := by
      rcases le_total lo r with hlr | hlr
      · exact ⟨lo, hlo', by omega⟩
      · exact ⟨r, hlast, by omega⟩
    obtain ⟨b, hb, hleb⟩ : ∃ b ∈ samples ++ [r], (avg * 7 + r) / 8 ≤ b := by
      rcases le_total r hi with hrh | hrh
      · exact ⟨hi, hhi', by omega⟩
      · exact ⟨r, hlast, by omega⟩
    exact ⟨a, ha, b, hb, hlea, hleb⟩

/-! ## One sample again and again -/

/-- A sequence of averages goes towards a sample, and ends within seven of it, not above. -/
structure Approaches (avg : ℕ → ℕ) (r : ℕ) : Prop where
  below : avg 0 ≤ r → Monotone avg ∧ ∀ k, avg k ≤ r
  above : r ≤ avg 0 → Antitone avg ∧ ∀ k, r ≤ avg k
  eventually : ∃ n, ∀ k ≥ n, r ≤ avg k + 7 ∧ avg k ≤ r

section approach

variable {avg r : ℕ}

/-- An average below the sample goes up to it at most. -/
theorem newAvg_below (havg : avg ≤ maxSample) (hr : r ≤ maxSample) (h : avg ≤ r) :
    avg ≤ UpstreamStats.newAvg avg r ∧ UpstreamStats.newAvg avg r ≤ r := by
  rw [(newAvg_eq havg hr).2]
  split_ifs <;> omega

/-- An average above the sample goes down to it at most. -/
theorem newAvg_above (havg : avg ≤ maxSample) (hr : r ≤ maxSample) (h : r ≤ avg) :
    r ≤ UpstreamStats.newAvg avg r ∧ UpstreamStats.newAvg avg r ≤ avg := by
  rw [(newAvg_eq havg hr).2]
  split_ifs <;> omega

/-- An average that is not within seven of the sample comes nearer. -/
theorem newAvg_nearer (havg : avg ≤ maxSample) (hr : r ≤ maxSample)
    (h : ¬ (r ≤ avg + 7 ∧ avg ≤ r)) :
    (UpstreamStats.newAvg avg r - r) + (r - UpstreamStats.newAvg avg r) <
      (avg - r) + (r - avg) := by
  rw [(newAvg_eq havg hr).2]
  split_ifs <;> omega

/-- The averages stay below an eighth of a word. -/
theorem newAvg_le (havg : avg ≤ maxSample) (hr : r ≤ maxSample) :
    UpstreamStats.newAvg avg r ≤ maxSample := by
  rcases le_total avg r with h | h
  · exact (newAvg_below havg hr h).2.trans hr
  · exact (newAvg_above havg hr h).2.trans havg

/-- The average after so many samples of one response time. -/
def averages (avg r k : ℕ) : ℕ := (fun x => UpstreamStats.newAvg x r)^[k] avg

/-- The average after one more sample is the next average. -/
theorem averages_succ (avg r k : ℕ) :
    averages avg r (k + 1) = UpstreamStats.newAvg (averages avg r k) r :=
  Function.iterate_succ_apply' _ _ _

/-- All averages stay below an eighth of a word. -/
theorem averages_le (havg : avg ≤ maxSample) (hr : r ≤ maxSample) (k : ℕ) :
    averages avg r k ≤ maxSample := by
  induction k with
  | zero => exact havg
  | succ k ih =>
      rw [averages_succ]
      exact newAvg_le ih hr

/-- An average comes within seven of a sample that is repeated. -/
theorem exists_near (havg : avg ≤ maxSample) (hr : r ≤ maxSample) :
    ∃ n, r ≤ averages avg r n + 7 ∧ averages avg r n ≤ r := by
  induction hd : (avg - r) + (r - avg) using Nat.strong_induction_on generalizing avg with
  | _ d ih =>
    by_cases hnear : r ≤ avg + 7 ∧ avg ≤ r
    · exact ⟨0, hnear⟩
    · obtain ⟨n, hn⟩ := ih _ (hd ▸ newAvg_nearer havg hr hnear) (newAvg_le havg hr) rfl
      exact ⟨n + 1, hn⟩

/-- From any average, a sample that is repeated is approached. -/
theorem approaches_averages (havg : avg ≤ maxSample) (hr : r ≤ maxSample) :
    Approaches (averages avg r) r := by
  have hle := averages_le havg hr
  constructor
  · intro h
    have hbelow : ∀ k, averages avg r k ≤ r := by
      intro k
      induction k with
      | zero => exact h
      | succ k ih =>
          rw [averages_succ]
          exact (newAvg_below (hle k) hr ih).2
    refine ⟨monotone_nat_of_le_succ fun k => ?_, hbelow⟩
    rw [averages_succ]
    exact (newAvg_below (hle k) hr (hbelow k)).1
  · intro h
    have habove : ∀ k, r ≤ averages avg r k := by
      intro k
      induction k with
      | zero => exact h
      | succ k ih =>
          rw [averages_succ]
          exact (newAvg_above (hle k) hr ih).1
    refine ⟨antitone_nat_of_succ_le fun k => ?_, habove⟩
    rw [averages_succ]
    exact (newAvg_above (hle k) hr (habove k)).2
  · obtain ⟨n, hn⟩ := exists_near havg hr
    refine ⟨n, fun k hk => ?_⟩
    induction k, hk using Nat.le_induction with
    | base => exact hn
    | succ k _ ih =>
        have hnext := newAvg_below (hle k) hr ih.2
        rw [averages_succ]
        omega

end approach

/-! ## Calls one after the other -/

section sequential

variable {F : Type} [ScoreArith F]

/-- A call of `record_success` from its beginning to its end, while no other call moves. -/
def recordAlone (i r now : ℕ) : List (Sched Event) :=
  .env (.call (.recordSuccess r)) :: List.replicate 5 (.task i (.step now))

/-- Calls of `record_success` one after the other, the first at a position. -/
def recordSequentially (i r now : ℕ) : ℕ → List (Sched Event)
  | 0 => []
  | k + 1 => recordSequentially i r now k ++ recordAlone (i + k) r now

/-- A step of the last call is a step of the machine. -/
theorem step_last (u : UpstreamInfo) (ts : List (Task F)) (t : Task F) (now : ℕ) :
    (machine F).step ⟨u, ts ++ [t]⟩ (.task ts.length (.step now)) =
      (t.step F u now).map fun r => ⟨r.1, ts ++ [r.2]⟩ := by
  have ht : (ts ++ [t])[ts.length]? = some t := by simp
  rcases hact : t.step F u now with _ | ⟨u', t'⟩
  · simp [machine, System.machine, System.next, system, hact]
  · have hstep : (system F).act (ts ++ [t]) u t (.step now) = some (u', t', []) := by
      simp [system, hact]
    have hnext : (machine F).step ⟨u, ts ++ [t]⟩ (.task ts.length (.step now)) =
        some ⟨u', (ts ++ [t]).set ts.length t' ++ []⟩ :=
      (system F).step_task (p := ⟨u, ts ++ [t]⟩) ht hstep
    rw [hnext]
    simp

/-- A call alone does what `record_success` does to the statistics. -/
theorem run_recordAlone (p : Pool UpstreamInfo (Task F)) (r now : ℕ) :
    (machine F).run p (recordAlone p.tasks.length r now) =
      some ⟨{ p.shared with stats := p.shared.stats.recordSuccess r now },
        p.tasks ++ [.recorded]⟩ := by
  have hcall : (machine F).step p (.env (.call (.recordSuccess r))) =
      some ⟨p.shared, p.tasks ++ [.countRequest r]⟩ := rfl
  simp only [recordAlone, List.replicate, Machine.run_cons, hcall, Option.bind_some, step_last,
    Task.step, Option.map_some, Machine.run_nil, UpstreamStats.recordSuccess]

/-- Calls one after the other lead to the average after so many samples. -/
theorem run_recordSequentially (p : Pool UpstreamInfo (Task F)) {r : ℕ} (hr : r ≤ maxSample)
    (now k : ℕ) : ∃ q, (machine F).run p (recordSequentially p.tasks.length r now k) = some q ∧
      q.tasks.length = p.tasks.length + k ∧
      q.shared.stats.avgResponseTimeNs = averages p.shared.stats.avgResponseTimeNs r k := by
  induction k with
  | zero => exact ⟨p, rfl, rfl, rfl⟩
  | succ k ih =>
      obtain ⟨q, hrun, hlength, havg⟩ := ih
      have halone := run_recordAlone q r now
      rw [hlength] at halone
      have hword : r % 2 ^ 64 = r := Nat.mod_eq_of_lt (by unfold maxSample at hr; omega)
      refine ⟨_, (machine F).run_append_eq_some.mpr ⟨q, hrun, halone⟩, ?_, ?_⟩
      · simp [hlength, Nat.add_assoc]
      · rw [averages_succ, ← havg]
        simp only [UpstreamStats.recordSuccess, hword]

end sequential

/-! ## Every run -/

section runs

variable {F : Type} [ScoreArith F] {config : UpstreamConfig} {now₀ : ℕ}

/-- A call of `record_success` that begins has room for its response time. -/
def SamplesBounded (_ : Pool UpstreamInfo (Task F)) (a : Sched Event) : Prop :=
  ∀ r, a = .env (.call (.recordSuccess r)) → r ≤ maxSample

/-- The response time of a call that is being recorded. -/
def Task.sample : Task F → Option ℕ
  | .countRequest r | .countResponse r | .loadAvg r | .storeAvg r _ => some r
  | _ => none

/-- The response time that a step makes part of the average. -/
def storedBy (p : Pool UpstreamInfo (Task F)) : Sched Event → List ℕ
  | .task i (.step _) =>
      match p.tasks[i]? with
      | some (.storeAvg r _) => [r]
      | _ => []
  | _ => []

/-- The response times that have been stored in a run, in order. -/
def stored (F : Type) [ScoreArith F] (config : UpstreamConfig) (now₀ : ℕ)
    (es : List (Sched Event)) : List ℕ :=
  (machine F).log (fun p a _ => storedBy p a) (initial F config now₀) es

/-- The invariant: the average, and what the calls have loaded of it, lies between the samples that
were stored, or nothing was stored. -/
structure AvgInv (samples : List ℕ) (p : Pool UpstreamInfo (Task F)) : Prop where
  avg : (samples = [] ∧ p.shared.stats.avgResponseTimeNs = 0) ∨
    Between samples p.shared.stats.avgResponseTimeNs
  loaded : ∀ r avg, .storeAvg r avg ∈ p.tasks → avg = 0 ∨ Between samples avg
  bounded : ∀ t ∈ p.tasks, ∀ r, t.sample = some r → r ≤ maxSample
  stored : ∀ r ∈ samples, r ≤ maxSample

/-- What a step does to the average: it stores one, or it leaves it alone and may load it. -/
theorem avg_step {u u' : UpstreamInfo} {now : ℕ} {t t' : Task F}
    (h : t.step F u now = some (u', t')) :
    (∃ r avg, t = .storeAvg r avg ∧ t' = .touch ∧
        u'.stats.avgResponseTimeNs = UpstreamStats.newAvg avg (r % 2 ^ 64)) ∨
      ((∀ r avg, t ≠ .storeAvg r avg) ∧
        u'.stats.avgResponseTimeNs = u.stats.avgResponseTimeNs ∧
        (∀ r, t'.sample = some r → t.sample = some r) ∧
        ∀ r avg, t' = .storeAvg r avg → avg = u.stats.avgResponseTimeNs) := by
  cases t with
  | storeAvg r avg =>
      obtain ⟨rfl, rfl⟩ : _ ∧ _ := by simpa [Task.step] using h
      exact Or.inl ⟨r, avg, rfl, rfl, rfl⟩
  | loadRequests caller =>
      simp only [Task.step] at h
      split_ifs at h
      · obtain ⟨rfl, rfl⟩ : _ ∧ _ := by simpa using h
        exact Or.inr ⟨by simp, rfl, by cases caller <;> simp [rateReturned, Task.sample],
          by cases caller <;> simp [rateReturned]⟩
      · obtain ⟨rfl, rfl⟩ : _ ∧ _ := by simpa using h
        exact Or.inr ⟨by simp, rfl, by simp [Task.sample], by simp⟩
  | loadResponses caller requests =>
      obtain ⟨rfl, rfl⟩ : _ ∧ _ := by simpa [Task.step] using h
      exact Or.inr ⟨by simp, rfl, by cases caller <;> simp [rateReturned, Task.sample],
        by cases caller <;> simp [rateReturned]⟩
  | recorded | failed | rated | scored => exact absurd h (by simp [Task.step])
  | _ =>
      obtain ⟨rfl, rfl⟩ : _ ∧ _ := by simpa [Task.step] using h
      exact Or.inr ⟨by simp, rfl, by simp [Task.sample], by simp⟩

namespace AvgInv

variable {samples : List ℕ} {p p' : Pool UpstreamInfo (Task F)}

omit [ScoreArith F] in
/-- What a call has loaded has room for the arithmetic. -/
theorem loaded_le (h : AvgInv samples p) {r avg : ℕ} (hmem : .storeAvg r avg ∈ p.tasks) :
    avg ≤ maxSample := by
  rcases h.loaded r avg hmem with rfl | hbetween
  · exact Nat.zero_le _
  · exact hbetween.le h.stored

/-- A step of a call keeps the invariant. -/
theorem task (h : AvgInv samples p) {i now : ℕ} {u : UpstreamInfo} {t t' : Task F}
    (ht : p.tasks[i]? = some t) (hact : t.step F p.shared now = some (u, t')) :
    AvgInv (samples ++ storedBy p (.task i (.step now))) ⟨u, p.tasks.set i t'⟩ := by
  have hmem := List.mem_of_getElem? ht
  rcases avg_step hact with ⟨r, avg, rfl, rfl, havg⟩ | ⟨hne, havg, hsample, hload⟩
  · have hstored : storedBy p (.task i (.step now)) = [r] := by simp [storedBy, ht]
    have hr : r ≤ maxSample := h.bounded _ hmem r rfl
    have hword : r % 2 ^ 64 = r := Nat.mod_eq_of_lt (by unfold maxSample at hr; omega)
    rw [hword] at havg
    rw [hstored]
    refine ⟨Or.inr ?_, fun r' avg' hmem' => ?_, fun v hv r' hr' => ?_, fun r' hr' => ?_⟩
    · rw [havg]
      exact Between.newAvg (h.loaded_le hmem) hr (h.loaded r avg hmem)
    · rcases List.mem_or_eq_of_mem_set hmem' with hmem' | heq
      · exact (h.loaded r' avg' hmem').imp_right fun hb => hb.mono (List.subset_append_left _ _)
      · exact absurd heq (by simp)
    · rcases List.mem_or_eq_of_mem_set hv with hv | rfl
      · exact h.bounded v hv r' hr'
      · exact absurd hr' (by simp [Task.sample])
    · rcases List.mem_append.mp hr' with hr' | hr'
      · exact h.stored r' hr'
      · obtain rfl := List.mem_singleton.mp hr'
        exact hr
  · have hstored : storedBy p (.task i (.step now)) = [] := by
      simp only [storedBy, ht]
      cases t <;> first | rfl | exact absurd rfl (hne _ _)
    rw [hstored, List.append_nil]
    refine ⟨by rw [havg]; exact h.avg, fun r' avg' hmem' => ?_, fun v hv r' hr' => ?_, h.stored⟩
    · rcases List.mem_or_eq_of_mem_set hmem' with hmem' | heq
      · exact h.loaded r' avg' hmem'
      · rw [hload r' avg' heq.symm]
        exact h.avg.imp And.right id
    · rcases List.mem_or_eq_of_mem_set hv with hv | rfl
      · exact h.bounded v hv r' hr'
      · exact h.bounded t hmem r' (hsample r' hr')

/-- A step keeps the invariant. -/
theorem step (h : AvgInv samples p) {a : Sched Event} (hbounded : SamplesBounded p a)
    (hstep : (machine F).step p a = some p') : AvgInv (samples ++ storedBy p a) p' := by
  rcases machine_step hstep with ⟨i, now, t, u, t', rfl, ht, hact, rfl⟩ | ⟨c, rfl, rfl⟩ |
    ⟨state, now, rfl, rfl⟩
  · exact h.task ht hact
  · have hstored : storedBy p (.env (.call c)) = [] := rfl
    rw [hstored, List.append_nil]
    refine ⟨h.avg, fun r avg hmem => ?_, fun t ht r hr => ?_, h.stored⟩
    · rcases List.mem_append.mp hmem with hmem | hmem
      · exact h.loaded r avg hmem
      · cases c <;> simp [Call.start] at hmem
    · rcases List.mem_append.mp ht with ht | ht
      · exact h.bounded t ht r hr
      · obtain rfl := List.mem_singleton.mp ht
        cases c with
        | recordSuccess r' =>
            obtain rfl : r' = r := Option.some.inj hr
            exact hbounded r' rfl
        | _ => exact absurd hr (by simp [Call.start, Task.sample])
  · have hstored : storedBy p (.env (.setHealth state now)) = [] := rfl
    rw [hstored, List.append_nil]
    exact ⟨by simpa using h.avg, h.loaded, h.bounded, h.stored⟩

/-- The invariant holds in every state. -/
theorem of_run {es : List (Sched Event)}
    (hbounded : (machine F).Along SamplesBounded (initial F config now₀) es)
    (hrun : (machine F).run (initial F config now₀) es = some p) :
    AvgInv (ConcurrentStats.stored F config now₀ es) p := by
  revert hbounded
  refine (machine F).run_induction (Q := fun es p =>
    (machine F).Along SamplesBounded (initial F config now₀) es →
      AvgInv (ConcurrentStats.stored F config now₀ es) p) ?_ ?_ hrun
  · intro _
    exact ⟨Or.inl ⟨rfl, rfl⟩, by simp [initial], by simp [initial],
      by simp [ConcurrentStats.stored, Machine.log]⟩
  · intro es a q q' hq ih hstep hbounded
    rw [(machine F).along_concat hq] at hbounded
    unfold ConcurrentStats.stored
    rw [(machine F).log_concat _ hq hstep]
    exact (ih hbounded.1).step hbounded.2 hstep

end AvgInv

/-- What is asked of the average in a state. -/
structure AverageKept (samples : List ℕ) (p : Pool UpstreamInfo (Task F)) : Prop where
  /-- After the first store it lies between the smallest and the largest sample. -/
  between : samples ≠ [] → Between samples p.shared.stats.avgResponseTimeNs
  /-- The arithmetic of the calls does not overflow. -/
  noOverflow : ∀ r avg, .storeAvg r avg ∈ p.tasks → avg * 7 + r < 2 ^ 64
  /-- Under calls one after the other with one response time it goes towards it. -/
  approach : ∀ r ≤ maxSample, ∀ now, ∃ avg : ℕ → ℕ, Approaches avg r ∧
    ∀ k, ∃ q, (machine F).run p (recordSequentially p.tasks.length r now k) = some q ∧
      q.shared.stats.avgResponseTimeNs = avg k

/-- **The average.** In every run of calls whose response times are at most an eighth of a word, the
average lies between the smallest and the largest response time that was stored, no arithmetic
overflows, and calls one after the other with one response time bring the average towards it, and in
the end to within seven of it. -/
theorem average_kept {es : List (Sched Event)} {p : Pool UpstreamInfo (Task F)}
    (hbounded : (machine F).Along SamplesBounded (initial F config now₀) es)
    (hrun : (machine F).run (initial F config now₀) es = some p) :
    AverageKept (stored F config now₀ es) p := by
  have hinv := AvgInv.of_run hbounded hrun
  refine ⟨fun hne => hinv.avg.resolve_left fun h => hne h.1, fun r avg hmem => ?_,
    fun r hr now => ?_⟩
  · exact (newAvg_eq (hinv.loaded_le hmem) (hinv.bounded _ hmem r rfl)).1
  · have havg : p.shared.stats.avgResponseTimeNs ≤ maxSample := by
      rcases hinv.avg with ⟨-, hzero⟩ | hbetween
      · rw [hzero]
        exact Nat.zero_le _
      · exact hbetween.le hinv.stored
    refine ⟨_, approaches_averages havg hr, fun k => ?_⟩
    obtain ⟨q, hq, -, hlast⟩ := run_recordSequentially p hr now k
    exact ⟨q, hq, hlast⟩

end runs

/-- Two calls that both load the average before either of them stores one. -/
def lostUpdate : List (Sched Event) :=
  [.env (.call (.recordSuccess 800)), .env (.call (.recordSuccess 80)), .task 0 (.step 0),
    .task 0 (.step 0), .task 1 (.step 0), .task 1 (.step 0), .task 0 (.step 0), .task 1 (.step 0),
    .task 0 (.step 0), .task 1 (.step 0)]

/-- The first of the two samples is lost, and the average is the second. -/
theorem average_kept_lostUpdate :
    ∃ p, (machine ℚ).run (initial ℚ ratedUpstream 0) lostUpdate = some p ∧
      AverageKept (stored ℚ ratedUpstream 0 lostUpdate) p := by
  refine ⟨_, rfl, average_kept ?_ rfl⟩
  rw [Machine.along_iff]
  intro es₁ a es₂ hes _ _ r ha
  have hmem : a ∈ lostUpdate := by simp [hes]
  subst ha
  simp only [lostUpdate, List.mem_cons, List.not_mem_nil, or_false, reduceCtorEq,
    Sched.env.injEq, Event.call.injEq, Call.recordSuccess.injEq] at hmem
  rcases hmem with rfl | rfl <;> decide

end HarbrRouter.Routing.ConcurrentStats
