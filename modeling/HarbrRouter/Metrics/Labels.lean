import HarbrRouter.Metrics.Prometheus
import Mathlib.Data.Finset.Lattice.Fold

/-!
# Names in the export

The name of a proxy or of an upstream is written between the quotes of a label as it is, and the
format reads an escape, the end of the value or the end of the line in it. Nothing that is read in
the lines of a name with such a character is as long as the name.

`ExportedSummary.readings` is what a reader should find of a summary: for every proxy and every
upstream its samples, with the name as the value of the label and the counter of the summary as the
number. It says nothing of how the export comes to its text.

**Theorem** (`export_readsBack_iff`): what is read of the export is that, in any order, if and only
if no name of a proxy or an upstream has a quote, a backslash or a line break in it.

The lines of the text are read metric by metric (`readSamples_join`), and each metric stands for one
expected sample (`reading_metrics`). A name with nothing to escape is read back
(`Metric.readSamples_sampleLine`). In the other direction a sample may not be searched for in the
lines of its metric alone, since the lines of another one may be read as it. But all that is read in
the lines of a bad name is shorter than the name (`Metric.labels_lt`), so the sample could come only
from a longer bad name (`exists_longer`), and the names of a registry are not of any length
(`readings_join_iff`).
-/

set_option autoImplicit false

namespace HarbrRouter

open Routing Exposition

/-! ## What is expected of a reader -/

/-- What is read of a sample. -/
structure Reading where
  family : List Char
  labels : List (List Char × List Char)
  number : Number
deriving DecidableEq, Repr

namespace Reading

/-- A sample with its number. -/
def ofSample (s : Sample) : Reading := ⟨s.family, s.labels, readNumber s.number⟩

/-- The sample of a family with a number and without labels. -/
def plain (family : String) (number : Number) : Reading := ⟨family.toList, [], number⟩

/-- The sample of a family with a number and one label. -/
def labelled (family label name : String) (number : Number) : Reading :=
  ⟨family.toList, [(label.toList, name.toList)], number⟩

end Reading

section expected

variable {F : Type} [DisplayFloat F]

/-- The samples of a proxy, one for each of its counters. -/
def ProxyMetrics.readings (name : String) (metrics : ProxyMetrics) : List Reading :=
  [.labelled "harbr_proxy_requests_total" "instance" name (.integer metrics.totalRequests),
    .labelled "harbr_proxy_connections_active" "instance" name (.integer metrics.activeConnections),
    .labelled "harbr_proxy_bytes_sent_total" "instance" name (.integer metrics.bytesSent),
    .labelled "harbr_proxy_bytes_received_total" "instance" name (.integer metrics.bytesReceived)]

/-- The number that is read where an `f64` was written. -/
def floatNumber (x : F) : Number := readNumber (DisplayFloat.display x).toList

variable [ScoreArith F]

/-- The samples of an upstream: one for its counter, and one for each of its other values. -/
def upstreamReadings (name : String) (metrics : UpstreamMetricsSnapshot F) : List Reading :=
  [.labelled "harbr_upstream_health" "upstream" name
      (floatNumber (healthValue F metrics.healthState)),
    .labelled "harbr_upstream_requests_total" "upstream" name (.integer metrics.requestsSent),
    .labelled "harbr_upstream_response_time_ms" "upstream" name
      (floatNumber metrics.avgResponseTimeMs),
    .labelled "harbr_upstream_success_rate" "upstream" name (floatNumber metrics.successRate)]

/-- What a reader should find of a summary: a sample for each value of the system, of each proxy and
of each upstream. -/
def ExportedSummary.readings (summary : ExportedSummary F) : List Reading :=
  [.plain "harbr_proxy_instances_total" (.integer summary.proxyInstancesTotal),
    .plain "harbr_upstreams_total" (.integer summary.upstreamsTotal),
    .plain "harbr_uptime_seconds" (.integer summary.uptimeSeconds),
    .plain "harbr_memory_rss_bytes" (.integer summary.rssBytes)] ++
  (summary.proxies.flatMap fun entry => entry.2.readings entry.1) ++
  summary.upstreams.flatMap fun entry => upstreamReadings entry.1 entry.2

end expected

namespace Metric

/-- What a metric says: its family, the value of its label, and its number. -/
def reading (m : Metric) : Reading where
  family := m.family.toList
  labels := (m.label.map fun l => (l.1.toList, l.2.toList)).toList
  number :=
    match m.value with
    | .inl text => readNumber text.toList
    | .inr n => .integer n

/-- The number that is written is read back. -/
theorem readNumber_number (m : Metric) : readNumber m.number.toList = m.reading.number := by
  unfold number reading
  cases m.value with
  | inl text => rfl
  | inr n => exact readNumber_repr n

end Metric

/-- A name has a character that would have to be escaped. -/
def NeedsEscape (name : String) : Prop :=
  ∃ c ∈ name.toList, c = '"' ∨ c = '\\' ∨ c = '\n'

/-! ## What is read -/

namespace Metric

/-- What is read of the lines of a metric is read of its sample. -/
theorem readSamples_textLines (m : Metric) :
    m.textLines.filterMap readSample = readSamples m.sampleLine.toList := by
  have hcomment : ∀ keyword text, readSample (commentLine keyword m.family text) = none :=
    fun keyword text => rfl
  have hempty : readSample [] = none := rfl
  simp only [textLines, List.filterMap_cons, hcomment, List.filterMap_append, hempty,
    List.filterMap_nil, List.append_nil]
  rfl

/-- A metric whose name has nothing to escape is read back. -/
theorem readSamples_sampleLine {m : Metric} (hm : m.Wellformed)
    (hplain : ∀ label name, m.label = some (label, name) → ¬ NeedsEscape name) :
    (readSamples m.sampleLine.toList).map Reading.ofSample = [m.reading] := by
  rcases hlabel : m.label with _ | ⟨label, name⟩
  · rw [sampleLine_none hlabel, readSamples, lines_eq_singleton, List.filterMap_cons,
      readSample_plain hm.family hm.number]
    · simp [Reading.ofSample, readNumber_number, reading, hlabel]
    · simpa [hm.family.not_break_mem] using
        hm.number.not_mem (show isNumberChar '\n' = false by decide)
  · have hname := hplain label name hlabel
    have hquote : ∀ c ∈ name.toList, c ≠ '"' ∧ c ≠ '\\' := fun c hc =>
      ⟨fun h => hname ⟨c, hc, Or.inl h⟩, fun h => hname ⟨c, hc, Or.inr (Or.inl h)⟩⟩
    have hbreak : '\n' ∉ name.toList := fun hc => hname ⟨_, hc, Or.inr (Or.inr rfl)⟩
    have hl := hm.label label name hlabel
    rw [sampleLine_some hlabel, readSamples, lines_eq_singleton, List.filterMap_cons,
      readSample_labelled hm.family hl hquote hm.number]
    · simp [Reading.ofSample, readNumber_number, reading, hlabel]
    · simp [not_break_mem_opening hm.family hl, hbreak, not_break_mem_closing hm.number]

/-- What is read of a metric whose name has something to escape has shorter labels. -/
theorem labels_lt {m : Metric} (hm : m.Wellformed) {label name : String}
    (hlabel : m.label = some (label, name)) (hescape : NeedsEscape name) {s : Sample}
    (hs : s ∈ readSamples m.sampleLine.toList) :
    ∀ l ∈ s.labels, l.2.length < name.toList.length := by
  rw [sampleLine_some hlabel] at hs
  obtain ⟨line, hline, hread⟩ := List.mem_filterMap.mp hs
  exact labels_lt_of_escape hm.family (hm.label label name hlabel) hm.number hescape hline hread

end Metric

/-- What is read of a text of metrics is what is read of their sample lines. -/
theorem readSamples_join {ms : List Metric} (hms : ∀ m ∈ ms, m.Wellformed) :
    readSamples (String.join (ms.map Metric.text)).toList =
      ms.flatMap fun m => readSamples m.sampleLine.toList := by
  have hempty : [[]].filterMap readSample = [] := rfl
  rw [readSamples, lines_join hms, List.filterMap_append, List.filterMap_flatMap, hempty,
    List.append_nil]
  exact List.flatMap_congr fun m _ => m.readSamples_textLines

/-- Metrics whose names have nothing to escape are read back, in order. -/
theorem readings_join {ms : List Metric} (hms : ∀ m ∈ ms, m.Wellformed)
    (hplain : ∀ m ∈ ms, ∀ label name, m.label = some (label, name) → ¬ NeedsEscape name) :
    (readSamples (String.join (ms.map Metric.text)).toList).map Reading.ofSample =
      ms.map Metric.reading := by
  rw [readSamples_join hms, List.map_flatMap, List.map_eq_flatMap]
  exact List.flatMap_congr fun m hm => Metric.readSamples_sampleLine (hms m hm) (hplain m hm)

/-- If all metrics are read back, in any order, a name with something to escape comes with a longer
one. -/
theorem exists_longer {ms : List Metric} (hms : ∀ m ∈ ms, m.Wellformed)
    (hread : ((readSamples (String.join (ms.map Metric.text)).toList).map Reading.ofSample).Perm
      (ms.map Metric.reading)) {m : Metric} (hm : m ∈ ms) {label name : String}
    (hlabel : m.label = some (label, name)) (hescape : NeedsEscape name) :
    ∃ m' ∈ ms, ∃ label' name', m'.label = some (label', name') ∧ NeedsEscape name' ∧
      name.toList.length < name'.toList.length := by
  have hmem : m.reading ∈ ms.map Metric.reading := List.mem_map_of_mem hm
  obtain ⟨s, hs, hreading⟩ := List.mem_map.mp (hread.symm.subset hmem)
  rw [readSamples_join hms] at hs
  obtain ⟨m', hm', hs⟩ := List.mem_flatMap.mp hs
  have hlabels : s.labels = [(label.toList, name.toList)] := by
    have hsame : (Reading.ofSample s).labels = m.reading.labels := by rw [hreading]
    simpa [Reading.ofSample, Metric.reading, hlabel] using hsame
  by_cases hbad : ∃ label' name', m'.label = some (label', name') ∧ NeedsEscape name'
  · obtain ⟨label', name', hlabel', hescape'⟩ := hbad
    have hlt := Metric.labels_lt (hms m' hm') hlabel' hescape' hs
    exact ⟨m', hm', label', name', hlabel', hescape', hlt (label.toList, name.toList)
      (by simp [hlabels])⟩
  · -- the sample of another metric has no label, or another value
    have hplain : ∀ label' name', m'.label = some (label', name') → ¬ NeedsEscape name' :=
      fun label' name' hlabel' hescape' => hbad ⟨label', name', hlabel', hescape'⟩
    have hsample := List.mem_map_of_mem (f := Reading.ofSample) hs
    rw [Metric.readSamples_sampleLine (hms m' hm') hplain, List.mem_singleton] at hsample
    have hsame : m'.reading.labels = m.reading.labels := by rw [← hsample, hreading]
    rcases hlabel' : m'.label with _ | ⟨label', name'⟩
    · simp [Metric.reading, hlabel, hlabel'] at hsame
    · obtain ⟨-, hname⟩ : label'.toList = label.toList ∧ name'.toList = name.toList := by
        simpa [Metric.reading, hlabel, hlabel'] using hsame
      obtain rfl := String.toList_injective hname
      exact absurd hescape (hplain label' name' hlabel')

/-- The length of the name that a metric is labelled with. -/
def Metric.nameLength (m : Metric) : ℕ :=
  match m.label with
  | none => 0
  | some (_, name) => name.toList.length

/-- Metrics are read back, in any order, if and only if their names have nothing to escape. -/
theorem readings_join_iff {ms : List Metric} (hms : ∀ m ∈ ms, m.Wellformed) :
    ((readSamples (String.join (ms.map Metric.text)).toList).map Reading.ofSample).Perm
        (ms.map Metric.reading) ↔
      ∀ m ∈ ms, ∀ label name, m.label = some (label, name) → ¬ NeedsEscape name := by
  constructor
  · intro hread m hm label name hlabel hescape
    -- there would be names with something to escape of any length
    have hlong : ∀ n : ℕ, ∃ m ∈ ms, ∃ label name, m.label = some (label, name) ∧
        NeedsEscape name ∧ n ≤ name.toList.length := by
      intro n
      induction n with
      | zero => exact ⟨m, hm, label, name, hlabel, hescape, Nat.zero_le _⟩
      | succ n ih =>
          obtain ⟨m₁, hm₁, label₁, name₁, hlabel₁, hescape₁, hle⟩ := ih
          obtain ⟨m₂, hm₂, label₂, name₂, hlabel₂, hescape₂, hlt⟩ :=
            exists_longer hms hread hm₁ hlabel₁ hescape₁
          exact ⟨m₂, hm₂, label₂, name₂, hlabel₂, hescape₂, by omega⟩
    obtain ⟨m₁, hm₁, label₁, name₁, hlabel₁, -, hle⟩ :=
      hlong (ms.toFinset.sup Metric.nameLength + 1)
    have hbound : m₁.nameLength ≤ ms.toFinset.sup Metric.nameLength :=
      Finset.le_sup (List.mem_toFinset.mpr hm₁)
    simp only [Metric.nameLength, hlabel₁] at hbound
    omega
  · intro hplain
    rw [readings_join hms hplain]

section readsBack

variable {F : Type} [ScoreArith F] [DisplayFloat F]

/-- The metrics of a summary are written for the samples that a reader should find of it, in that
order. -/
theorem reading_metrics (summary : ExportedSummary F) :
    (summary.metrics F).map Metric.reading = summary.readings := by
  have hsystem : (systemMetrics F summary).map Metric.reading =
      [.plain "harbr_proxy_instances_total" (.integer summary.proxyInstancesTotal),
        .plain "harbr_upstreams_total" (.integer summary.upstreamsTotal),
        .plain "harbr_uptime_seconds" (.integer summary.uptimeSeconds),
        .plain "harbr_memory_rss_bytes" (.integer summary.rssBytes)] := rfl
  have hproxy : ∀ entry : String × ProxyMetrics,
      (proxyMetrics entry.1 entry.2).map Metric.reading = entry.2.readings entry.1 :=
    fun _ => rfl
  have hupstream : ∀ entry : String × UpstreamMetricsSnapshot F,
      (upstreamMetrics F entry.1 entry.2).map Metric.reading = upstreamReadings entry.1 entry.2 :=
    fun _ => rfl
  rw [ExportedSummary.metrics, List.map_append, List.map_append, List.map_flatMap,
    List.map_flatMap, hsystem, List.flatMap_congr fun entry _ => hproxy entry,
    List.flatMap_congr fun entry _ => hupstream entry]
  rfl

/-- The names that the metrics of a summary are labelled with are those of its entries. -/
theorem forall_label_iff {summary : ExportedSummary F} {P : String → Prop} :
    (∀ m ∈ summary.metrics F, ∀ label name, m.label = some (label, name) → P name) ↔
      (∀ e ∈ summary.proxies, P e.1) ∧ ∀ e ∈ summary.upstreams, P e.1 := by
  constructor
  · intro h
    constructor
    · intro e he
      obtain ⟨m, hm⟩ : ∃ m, m ∈ proxyMetrics e.1 e.2 := ⟨_, List.mem_cons_self⟩
      refine h m ?_ "instance" e.1 (label_proxyMetrics _ _ m hm)
      exact List.mem_append_left _ (List.mem_append_right _ (List.mem_flatMap.mpr ⟨e, he, hm⟩))
    · intro e he
      obtain ⟨m, hm⟩ : ∃ m, m ∈ upstreamMetrics F e.1 e.2 := ⟨_, List.mem_cons_self⟩
      refine h m ?_ "upstream" e.1 (label_upstreamMetrics _ _ m hm)
      exact List.mem_append_right _ (List.mem_flatMap.mpr ⟨e, he, hm⟩)
  · rintro ⟨hproxies, hupstreams⟩ m hm label name hlabel
    rcases metrics_cases hm with hm | ⟨e, he, hm⟩ | ⟨e, he, hm⟩
    · rw [label_systemMetrics _ m hm] at hlabel
      exact absurd hlabel (by simp)
    · rw [label_proxyMetrics _ _ m hm] at hlabel
      obtain ⟨-, rfl⟩ : _ ∧ e.1 = name := by simpa using hlabel
      exact hproxies e he
    · rw [label_upstreamMetrics _ _ m hm] at hlabel
      obtain ⟨-, rfl⟩ : _ ∧ e.1 = name := by simpa using hlabel
      exact hupstreams e he

/-- What is read of the export is what a reader should find of the summary, each sample once and in
any order. -/
def ReadsBack (F : Type) [ScoreArith F] [DisplayFloat F] (registry : ExportedRegistry) (heap : Heap)
    (now : ℕ) : Prop :=
  ((readSamples (registry.exportPrometheus F heap now).toList).map Reading.ofSample).Perm
    (registry.getMetricsSummary F heap now).readings

/-- **When the export is read back.** The samples that are read in the text are those of the summary
if and only if no name of a proxy or an upstream has a quote, a backslash or a line break in it. -/
theorem export_readsBack_iff (registry : ExportedRegistry) (heap : Heap) (now : ℕ) :
    ReadsBack F registry heap now ↔ ∀ name ∈ registry.names, ¬ NeedsEscape name := by
  unfold ReadsBack ExportedRegistry.exportPrometheus
  rw [← reading_metrics, readings_join_iff (wellformed_metrics _), forall_label_iff]
  simp only [ExportedRegistry.names, List.forall_mem_append, AList.keys, List.keys,
    ExportedRegistry.getMetricsSummary, ExportedRegistry.updateUptime,
    MetricsRegistry.getMetricsSummary, List.forall_mem_map]

end readsBack

/-- A registry with a proxy whose name has quotes in it. -/
def quotedProxy : ExportedRegistry where
  toMetricsRegistry := .new
  proxyMetrics := AList.insert "web \"blue\"" ⟨5, 0, 0, 0⟩ ∅
  startTime := 0
  uptimeSeconds := 0
  rssBytes := 0

/-- A name with quotes is not read back: the first of them ends the label value. -/
theorem export_quoted_name : ¬ ReadsBack ℚ quotedProxy .empty 0 := by
  unfold ReadsBack ExportedRegistry.exportPrometheus
  rw [← reading_metrics, readings_join_iff (wellformed_metrics _), forall_label_iff]
  rintro ⟨hproxies, -⟩
  exact hproxies ("web \"blue\"", ⟨5, 0, 0, 0⟩) (by decide) ⟨'"', by decide, Or.inl rfl⟩

end HarbrRouter
