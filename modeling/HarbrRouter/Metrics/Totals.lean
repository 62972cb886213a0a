import HarbrRouter.Lib.Transition
import HarbrRouter.Metrics

/-!
# The total of the tracked upstreams

The registry keeps a counter beside its map. `remove_upstream` looks at whether the map has changed
before it counts; `add_upstream` does not, and the name that it is given may be tracked already: the
names of upstreams differ within one instance only.

**Theorem** (`totalsCorrect_iff`): the counter is the number of the entries after each call, and
never counts below zero, if and only if each name that is added is new. One call on a registry whose
counter is right keeps it right exactly if it adds nothing twice (`Sound.call_iff`), and both
directions follow call by call, with `Sound` for the invariant.
-/

set_option autoImplicit false

namespace HarbrRouter.MetricsRegistry

open Transition Routing

/-- A call that changes which upstreams are tracked. -/
inductive Call where
  | addUpstream (upstream : UpstreamRef)
  | removeUpstream (name : String)
deriving DecidableEq, Repr

section calls

variable (heap : Heap)

/-- One call, run to its end. -/
def call (self : MetricsRegistry) : Call → MetricsRegistry
  | .addUpstream upstream => self.addUpstream heap upstream
  | .removeUpstream name => self.removeUpstream name

/-- The registry under any sequence of calls. -/
def machine : Machine MetricsRegistry Call := ⟨fun self c => some (self.call heap c)⟩

/-- The number of the tracked upstreams. -/
def size (self : MetricsRegistry) : ℕ := self.upstreamMetrics.keys.length

/-- The counter is the number of the entries. -/
def Counted (self : MetricsRegistry) : Prop := self.upstreamsTotal = self.size

/-- The call does not count below zero. -/
def NoUnderflow (self : MetricsRegistry) (c : Call) : Prop :=
  ∀ name, c = .removeUpstream name → name ∈ self.upstreamMetrics → 0 < self.upstreamsTotal

/-- After each call of the sequence the counter is the number of the entries, and no call counts
below zero. -/
def TotalsCorrect (calls : List Call) : Prop :=
  (machine heap).Along (fun self c => self.NoUnderflow c ∧ (self.call heap c).Counted) .new calls

/-- An upstream is added under a name that is not tracked, and the counter has room. -/
def AddsNew (self : MetricsRegistry) (c : Call) : Prop :=
  ∀ upstream, c = .addUpstream upstream →
    (heap.get upstream).config.name ∉ self.upstreamMetrics ∧ self.size + 1 < 2 ^ 64

/-! ## One call -/

/-- An upstream with a new name is one more entry. -/
theorem size_addUpstream_new {self : MetricsRegistry} {upstream : UpstreamRef}
    (h : (heap.get upstream).config.name ∉ self.upstreamMetrics) :
    (self.addUpstream heap upstream).size = self.size + 1 := by
  unfold size addUpstream
  rw [AList.keys_insert, List.length_cons, List.erase_of_not_mem h]

/-- An upstream with a tracked name takes the place of the other one. -/
theorem size_addUpstream_tracked {self : MetricsRegistry} {upstream : UpstreamRef}
    (h : (heap.get upstream).config.name ∈ self.upstreamMetrics) :
    (self.addUpstream heap upstream).size = self.size := by
  have hmem : (heap.get upstream).config.name ∈ self.upstreamMetrics.keys := h
  have hpos := List.length_pos_of_mem hmem
  unfold size addUpstream
  rw [AList.keys_insert, List.length_cons, List.length_erase_of_mem hmem]
  omega

/-- A removal of a tracked name takes one entry away. -/
theorem size_removeUpstream {self : MetricsRegistry} {name : String}
    (h : name ∈ self.upstreamMetrics) : (self.removeUpstream name).size = self.size - 1 := by
  unfold size removeUpstream
  rw [if_pos h, AList.keys_erase, List.length_erase_of_mem h]

/-- A tracked name is an entry. -/
theorem size_pos {self : MetricsRegistry} {name : String} (h : name ∈ self.upstreamMetrics) :
    0 < self.size := List.length_pos_of_mem h

/-- The counter is right, and it is the value of a `usize`. -/
structure Sound (registry : MetricsRegistry) : Prop where
  counted : registry.Counted
  bounded : registry.size < 2 ^ 64

/-- A removal keeps the counter right. -/
theorem Sound.removeUpstream {self : MetricsRegistry} (h : self.Sound) (name : String) :
    (self.removeUpstream name).Sound ∧ self.NoUnderflow (.removeUpstream name) := by
  have hcounted : self.upstreamsTotal = self.size := h.counted
  have hbounded := h.bounded
  refine ⟨?_, fun name' heq hmem => hcounted ▸ size_pos hmem⟩
  by_cases hmem : name ∈ self.upstreamMetrics
  · have hpos := size_pos hmem
    have htotal : (self.removeUpstream name).upstreamsTotal = self.size - 1 := by
      simp only [MetricsRegistry.removeUpstream, if_pos hmem]
      rw [hcounted, wrappingSub_eq hbounded hpos]
    exact ⟨htotal.trans (size_removeUpstream hmem).symm, by rw [size_removeUpstream hmem]; omega⟩
  · simpa only [MetricsRegistry.removeUpstream, if_neg hmem] using h

/-- An addition keeps the counter right exactly if the name is new and the counter has room. -/
theorem Sound.addUpstream_iff {self : MetricsRegistry} (h : self.Sound) (upstream : UpstreamRef) :
    (self.addUpstream heap upstream).Counted ↔
      (heap.get upstream).config.name ∉ self.upstreamMetrics ∧ self.size + 1 < 2 ^ 64 := by
  have hbounded := h.bounded
  have htotal : (self.addUpstream heap upstream).upstreamsTotal = (self.size + 1) % 2 ^ 64 := by
    simp only [MetricsRegistry.addUpstream, wrappingAdd]
    rw [show self.upstreamsTotal = self.size from h.counted]
  unfold Counted
  rw [htotal]
  by_cases hmem : (heap.get upstream).config.name ∈ self.upstreamMetrics
  · rw [size_addUpstream_tracked heap hmem]
    simp only [hmem, not_true_eq_false, false_and, iff_false]
    omega
  · rw [size_addUpstream_new heap hmem]
    simp only [hmem, not_false_eq_true, true_and]
    omega

/-- A call keeps the counter right, without an underflow, exactly if it adds nothing twice. -/
theorem Sound.call_iff {self : MetricsRegistry} (h : self.Sound) (c : Call) :
    self.NoUnderflow c ∧ (self.call heap c).Counted ↔ self.AddsNew heap c := by
  cases c with
  | addUpstream upstream => simpa [NoUnderflow, AddsNew, call] using h.addUpstream_iff heap upstream
  | removeUpstream name =>
      obtain ⟨hsound, hunder⟩ := h.removeUpstream name
      simpa [AddsNew] using ⟨hunder, hsound.counted⟩

/-- A call that adds nothing twice keeps the invariant. -/
theorem Sound.call {self : MetricsRegistry} (h : self.Sound) {c : Call}
    (hnew : self.AddsNew heap c) : (self.call heap c).Sound := by
  refine ⟨((h.call_iff heap c).mpr hnew).2, ?_⟩
  cases c with
  | addUpstream upstream =>
      obtain ⟨hmem, hroom⟩ := hnew upstream rfl
      exact (size_addUpstream_new heap hmem).trans_lt hroom
  | removeUpstream name => exact (h.removeUpstream name).1.bounded

/-! ## Every sequence of calls -/

/-- The new registry tracks nothing. -/
theorem Sound.new : Sound .new := ⟨rfl, by decide⟩

/-- Every sequence of calls runs to its end. -/
theorem exists_run (calls : List Call) (self : MetricsRegistry) :
    ∃ self', (machine heap).run self calls = some self' := by
  induction calls generalizing self with
  | nil => exact ⟨self, rfl⟩
  | cons c calls ih =>
      obtain ⟨self', hrun⟩ := ih (self.call heap c)
      exact ⟨self', ((machine heap).run_cons_eq_some).mpr ⟨_, rfl, hrun⟩⟩

/-- **When the total is right.** After each call of a sequence the counter is the number of the
tracked upstreams, and it never counts below zero, if and only if every upstream is added under a
name that is not tracked then, and before the counter is full. -/
theorem totalsCorrect_iff (calls : List Call) :
    TotalsCorrect heap calls ↔
      (machine heap).Along (fun self c => self.AddsNew heap c) .new calls := by
  obtain ⟨self, hrun⟩ := exists_run heap calls .new
  constructor
  · intro h
    refine (machine heap).along_of_invariant ?_ Sound.new h hrun
    intro s c s' hs hcorrect hstep
    obtain rfl := Option.some.inj hstep
    have hadds := (hs.call_iff heap c).mp hcorrect
    exact ⟨hs.call heap hadds, hadds⟩
  · intro h
    refine (machine heap).along_of_invariant ?_ Sound.new h hrun
    intro s c s' hs hadds hstep
    obtain rfl := Option.some.inj hstep
    exact ⟨hs.call heap hadds, (hs.call_iff heap c).mpr hadds⟩

end calls

/-- The upstreams of two instances, with one name. -/
def sameNames : Heap :=
  ⟨[.new ⟨"backend", "10.0.0.1:80", 1, 0, 1000⟩ 0, .new ⟨"backend", "10.0.0.2:80", 1, 0, 1000⟩ 0]⟩

/-- Two instances have an upstream of one name: one entry, counted twice. -/
theorem same_name_counted_twice :
    ¬ TotalsCorrect sameNames [.addUpstream 0, .addUpstream 1] := by
  intro h
  have hcounted : (2 : ℕ) = 1 := (h.2 _ rfl).1.2
  exact absurd hcounted (by decide)

end HarbrRouter.MetricsRegistry
