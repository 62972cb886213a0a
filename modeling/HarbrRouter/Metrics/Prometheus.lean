import HarbrRouter.Metrics
import HarbrRouter.Lib.SampleReader
import Mathlib.Data.List.DropRight

/-!
# The export of the metrics

`MetricsRegistry::export_prometheus` writes a summary of the registry as text: the system metrics,
then the metrics of each proxy, then those of each upstream. Each metric is written with its help,
its type and one sample. The names of proxies and upstreams are written as they are.

All that is written but the names is what the format wants (`wellformed_metrics`), for each of the
format strings; the lines of the text are then those of its metrics (`lines_join`), where a metric
is three lines unless its name has a line break in it. What the lines say, and what a reader finds
in them, is said from there on without the format strings.
-/

set_option autoImplicit false

namespace HarbrRouter

open Routing Exposition

/-! ## What is exported -/

/-- Source: `proxy.rs`, `ProxyMetrics` -/
structure ProxyMetrics where
  totalRequests : ℕ
  activeConnections : ℕ
  bytesSent : ℕ
  bytesReceived : ℕ
deriving DecidableEq, Repr

/-- The registry with the fields that only the export reads.
Source: `metrics.rs`, `MetricsRegistry` -/
structure ExportedRegistry extends MetricsRegistry where
  proxyMetrics : AList fun _ : String => ProxyMetrics
  /-- An instant, in nanoseconds. -/
  startTime : ℕ
  uptimeSeconds : ℕ
  rssBytes : ℕ

/-- What is written of an `f64`: digits with a sign and a point, or the word for an infinity or for
no number. -/
class DisplayFloat (F : Type) where
  display : F → String
  isNumber : ∀ x, IsNumber (display x).toList

/-- Digits without the zeros at their end. -/
def trimZeros (digits : List Char) : List Char := digits.rdropWhile (· = '0')

/-- An integer part and the digits behind the point, if there are any. -/
def decimalText (negative : Bool) (whole : ℕ) (digits : List Char) : String :=
  String.ofList ((if negative then ['-'] else []) ++ (Nat.repr whole).toList ++
    match digits with
    | [] => []
    | digits => '.' :: digits)

/-- A decimal text is a number of the format. -/
theorem isNumber_decimalText (negative : Bool) (whole : ℕ) {digits : List Char}
    (hdigits : ∀ c ∈ digits, c.isDigit) : IsNumber (decimalText negative whole digits).toList := by
  obtain ⟨-, hwhole⟩ := isNumber_repr whole
  unfold decimalText
  rw [String.toList_ofList]
  refine ⟨by simp, fun c hc => ?_⟩
  rcases List.mem_append.mp hc with hc | hc
  · rcases List.mem_append.mp hc with hc | hc
    · obtain rfl : c = '-' := by
        cases negative <;> simp at hc
        exact hc
      decide
    · exact hwhole c hc
  · cases digits with
    | nil => simp at hc
    | cons d digits =>
        rcases List.mem_cons.mp hc with rfl | hc
        · decide
        · exact isNumberChar_of_isDigit (hdigits c hc)

/-- The digits of a number behind the point, of a fixed length, are digits. -/
theorem isDigit_of_mem_trimZeros {n length : ℕ} {c : Char}
    (h : c ∈ trimZeros (List.replicate length '0' ++ Nat.toDigits 10 n)) : c.isDigit = true := by
  have hmem := (List.rdropWhile_prefix (p := fun c => decide (c = '0'))
    (List.replicate length '0' ++ Nat.toDigits 10 n)).subset h
  rcases List.mem_append.mp hmem with hc | hc
  · rw [List.eq_of_mem_replicate hc]
    rfl
  · exact Nat.isDigit_of_mem_toDigits (by omega) (by omega) hc

/-- A rational number is written with 17 digits behind the point at most. -/
instance : DisplayFloat ℚ where
  display q :=
    let fraction := Nat.toDigits 10 (q.num.natAbs % q.den * 10 ^ 17 / q.den)
    decimalText (q < 0) (q.num.natAbs / q.den)
      (trimZeros (List.replicate (17 - fraction.length) '0' ++ fraction))
  isNumber _ := isNumber_decimalText _ _ fun _ hc => isDigit_of_mem_trimZeros hc

/-- What one `push_str` writes: the help, the type and one sample of a metric. -/
structure Metric where
  family : String
  help : String
  kind : String
  /-- The name of the label and its value. -/
  label : Option (String × String)
  value : String ⊕ ℕ
deriving DecidableEq, Repr

namespace Metric

/-- The number that is written. -/
def number (m : Metric) : String :=
  match m.value with
  | .inl text => text
  | .inr n => Nat.repr n

/-- The line of the sample. -/
def sampleLine (m : Metric) : String :=
  match m.label with
  | none => m.family ++ " " ++ m.number
  | some (label, name) => m.family ++ "\x7b" ++ label ++ "=\"" ++ name ++ "\"\x7d " ++ m.number

/-- The text of a metric. -/
def text (m : Metric) : String :=
  "# HELP " ++ m.family ++ " " ++ m.help ++ "\n# TYPE " ++ m.family ++ " " ++ m.kind ++ "\n" ++
    m.sampleLine ++ "\n\n"

end Metric

section exporter

variable (F : Type)

/-- The summary with what only the export reads.
Source: `metrics.rs`, `MetricsSummary` and `SystemMetricsSnapshot` -/
structure ExportedSummary extends MetricsSummary F where
  uptimeSeconds : ℕ
  rssBytes : ℕ
  proxies : List (String × ProxyMetrics)

/-- The system metrics. Source: `metrics.rs`, `MetricsRegistry::export_prometheus` -/
def systemMetrics (summary : ExportedSummary F) : List Metric :=
  [⟨"harbr_proxy_instances_total", "Total number of proxy instances", "gauge", none,
      .inr summary.proxyInstancesTotal⟩,
    ⟨"harbr_upstreams_total", "Total number of upstream servers", "gauge", none,
      .inr summary.upstreamsTotal⟩,
    ⟨"harbr_uptime_seconds", "System uptime in seconds", "gauge", none,
      .inr summary.uptimeSeconds⟩,
    ⟨"harbr_memory_rss_bytes", "RSS memory usage in bytes", "gauge", none,
      .inr summary.rssBytes⟩]

/-- The metrics of a proxy. Source: `metrics.rs`, `MetricsRegistry::export_prometheus` -/
def proxyMetrics (instanceName : String) (metrics : ProxyMetrics) : List Metric :=
  [⟨"harbr_proxy_requests_total", "Total requests handled by proxy", "counter",
      some ("instance", instanceName), .inr metrics.totalRequests⟩,
    ⟨"harbr_proxy_connections_active", "Active connections for proxy", "gauge",
      some ("instance", instanceName), .inr metrics.activeConnections⟩,
    ⟨"harbr_proxy_bytes_sent_total", "Total bytes sent by proxy", "counter",
      some ("instance", instanceName), .inr metrics.bytesSent⟩,
    ⟨"harbr_proxy_bytes_received_total", "Total bytes received by proxy", "counter",
      some ("instance", instanceName), .inr metrics.bytesReceived⟩]

variable [ScoreArith F] [DisplayFloat F]

/-- Source: `metrics.rs`, `MetricsRegistry::export_prometheus` -/
def healthValue : HealthState → F
  | .healthy => 1.0
  | .unknown => 0.5
  | .unhealthy => 0.0

/-- The metrics of an upstream. Source: `metrics.rs`, `MetricsRegistry::export_prometheus` -/
def upstreamMetrics (upstreamName : String) (metrics : UpstreamMetricsSnapshot F) : List Metric :=
  [⟨"harbr_upstream_health",
      "Upstream health status (1=healthy, 0.5=unknown, 0=unhealthy)", "gauge",
      some ("upstream", upstreamName),
      .inl (DisplayFloat.display (healthValue F metrics.healthState))⟩,
    ⟨"harbr_upstream_requests_total", "Total requests sent to upstream", "counter",
      some ("upstream", upstreamName), .inr metrics.requestsSent⟩,
    ⟨"harbr_upstream_response_time_ms", "Average response time in milliseconds", "gauge",
      some ("upstream", upstreamName), .inl (DisplayFloat.display metrics.avgResponseTimeMs)⟩,
    ⟨"harbr_upstream_success_rate", "Success rate (0.0 to 1.0)", "gauge",
      some ("upstream", upstreamName), .inl (DisplayFloat.display metrics.successRate)⟩]

namespace ExportedSummary

/-- The metrics of a summary, in the order in which they are written.
Source: `metrics.rs`, `MetricsRegistry::export_prometheus` -/
def metrics (summary : ExportedSummary F) : List Metric :=
  systemMetrics F summary ++
    (summary.proxies.flatMap fun entry => proxyMetrics entry.1 entry.2) ++
    summary.upstreams.flatMap fun entry => upstreamMetrics F entry.1 entry.2

end ExportedSummary

namespace ExportedRegistry

/-- Source: `metrics.rs`, `MetricsRegistry::update_uptime` -/
def updateUptime (self : ExportedRegistry) (now : ℕ) : ExportedRegistry :=
  { self with uptimeSeconds := (now - self.startTime) / 1000000000 }

/-- Source: `metrics.rs`, `MetricsRegistry::get_metrics_summary` -/
def getMetricsSummary (self : ExportedRegistry) (heap : Heap) (now : ℕ) : ExportedSummary F :=
  let self := self.updateUptime now
  { self.toMetricsRegistry.getMetricsSummary F heap with
    uptimeSeconds := self.uptimeSeconds
    rssBytes := self.rssBytes
    proxies := self.proxyMetrics.entries.map fun entry => (entry.1, entry.2) }

/-- Source: `metrics.rs`, `MetricsRegistry::export_prometheus` -/
def exportPrometheus (self : ExportedRegistry) (heap : Heap) (now : ℕ) : String :=
  String.join (((self.getMetricsSummary F heap now).metrics F).map Metric.text)

/-- The names that the export writes. -/
def names (self : ExportedRegistry) : List String :=
  self.proxyMetrics.keys ++ self.upstreamMetrics.keys

end ExportedRegistry

end exporter

/-! ## What is written but the names -/

/-- All of a metric but the value of its label is what the format wants. -/
structure Metric.Wellformed (m : Metric) : Prop where
  family : IsName m.family.toList
  help : '\n' ∉ m.help.toList
  kind : '\n' ∉ m.kind.toList
  label : ∀ label name, m.label = some (label, name) → IsLabel label.toList
  number : IsNumber m.number.toList

namespace Metric

/-- A metric with a label is well formed if its parts are. -/
theorem wellformed_labelled {family help kind label name : String} {value : String ⊕ ℕ}
    (hfamily : IsName family.toList) (hhelp : '\n' ∉ help.toList) (hkind : '\n' ∉ kind.toList)
    (hlabel : IsLabel label.toList)
    (hnumber : IsNumber (Metric.mk family help kind (some (label, name)) value).number.toList) :
    (Metric.mk family help kind (some (label, name)) value).Wellformed := by
  refine ⟨hfamily, hhelp, hkind, fun label' name' h => ?_, hnumber⟩
  obtain ⟨rfl, -⟩ : _ ∧ _ := by simpa using h
  exact hlabel

/-- A metric without a label is well formed if its parts are. -/
theorem wellformed_plain {family help kind : String} {value : String ⊕ ℕ}
    (hfamily : IsName family.toList) (hhelp : '\n' ∉ help.toList) (hkind : '\n' ∉ kind.toList)
    (hnumber : IsNumber (Metric.mk family help kind none value).number.toList) :
    (Metric.mk family help kind none value).Wellformed :=
  ⟨hfamily, hhelp, hkind, by simp, hnumber⟩

end Metric

section wellformed

variable {F : Type}

/-- There is no line break in the type of a gauge. -/
theorem not_break_mem_gauge : '\n' ∉ "gauge".toList := by decide

/-- There is no line break in the type of a counter. -/
theorem not_break_mem_counter : '\n' ∉ "counter".toList := by decide

/-- The system metrics have no label. -/
theorem label_systemMetrics (summary : ExportedSummary F) :
    ∀ m ∈ systemMetrics F summary, m.label = none := by
  simp [systemMetrics]

/-- The metrics of a proxy are labelled with its name. -/
theorem label_proxyMetrics (name : String) (metrics : ProxyMetrics) :
    ∀ m ∈ proxyMetrics name metrics, m.label = some ("instance", name) := by
  simp [proxyMetrics]

/-- The families, the texts and the numbers of the system metrics are what the format wants. -/
theorem wellformed_systemMetrics (summary : ExportedSummary F) :
    ∀ m ∈ systemMetrics F summary, m.Wellformed := by
  simp only [systemMetrics, List.forall_mem_cons]
  refine ⟨?_, ?_, ?_, ?_, by simp⟩
  all_goals
    exact Metric.wellformed_plain (by decide) (by decide) not_break_mem_gauge (isNumber_repr _)

/-- All but the name in the metrics of a proxy is what the format wants. -/
theorem wellformed_proxyMetrics (name : String) (metrics : ProxyMetrics) :
    ∀ m ∈ proxyMetrics name metrics, m.Wellformed := by
  have hlabel : IsLabel "instance".toList := by decide
  simp only [proxyMetrics, List.forall_mem_cons]
  refine ⟨?_, ?_, ?_, ?_, by simp⟩
  · exact Metric.wellformed_labelled (by decide) (by decide) not_break_mem_counter hlabel
      (isNumber_repr _)
  · exact Metric.wellformed_labelled (by decide) (by decide) not_break_mem_gauge hlabel
      (isNumber_repr _)
  · exact Metric.wellformed_labelled (by decide) (by decide) not_break_mem_counter hlabel
      (isNumber_repr _)
  · exact Metric.wellformed_labelled (by decide) (by decide) not_break_mem_counter hlabel
      (isNumber_repr _)

variable [ScoreArith F] [DisplayFloat F]

/-- The metrics of an upstream are labelled with its name. -/
theorem label_upstreamMetrics (name : String) (metrics : UpstreamMetricsSnapshot F) :
    ∀ m ∈ upstreamMetrics F name metrics, m.label = some ("upstream", name) := by
  simp [upstreamMetrics]

/-- All but the name in the metrics of an upstream is what the format wants. -/
theorem wellformed_upstreamMetrics (name : String) (metrics : UpstreamMetricsSnapshot F) :
    ∀ m ∈ upstreamMetrics F name metrics, m.Wellformed := by
  have hlabel : IsLabel "upstream".toList := by decide
  simp only [upstreamMetrics, List.forall_mem_cons]
  refine ⟨?_, ?_, ?_, ?_, by simp⟩
  · apply Metric.wellformed_labelled (by decide) (by decide) not_break_mem_gauge hlabel
    exact DisplayFloat.isNumber _
  · apply Metric.wellformed_labelled (by decide) (by decide) not_break_mem_counter hlabel
    exact isNumber_repr _
  · apply Metric.wellformed_labelled (by decide) (by decide) not_break_mem_gauge hlabel
    exact DisplayFloat.isNumber _
  · apply Metric.wellformed_labelled (by decide) (by decide) not_break_mem_gauge hlabel
    exact DisplayFloat.isNumber _

/-- A metric of a summary is one of the system, of a proxy or of an upstream. -/
theorem metrics_cases {summary : ExportedSummary F} {m : Metric} (hm : m ∈ summary.metrics F) :
    m ∈ systemMetrics F summary ∨
      (∃ e ∈ summary.proxies, m ∈ proxyMetrics e.1 e.2) ∨
        ∃ e ∈ summary.upstreams, m ∈ upstreamMetrics F e.1 e.2 := by
  simpa only [ExportedSummary.metrics, List.mem_append, List.mem_flatMap, or_assoc] using hm

/-- All but the names in the metrics of a summary is what the format wants. -/
theorem wellformed_metrics (summary : ExportedSummary F) :
    ∀ m ∈ summary.metrics F, m.Wellformed := by
  intro m hm
  rcases metrics_cases hm with hm | ⟨e, -, hm⟩ | ⟨e, -, hm⟩
  · exact wellformed_systemMetrics summary m hm
  · exact wellformed_proxyMetrics _ _ m hm
  · exact wellformed_upstreamMetrics _ _ m hm

end wellformed

/-! ## The lines of the text -/

namespace Metric

/-- The line of the help or of the type. -/
def commentLine (keyword family text : String) : List Char :=
  '#' :: ' ' :: (keyword.toList ++ ' ' :: (family.toList ++ ' ' :: text.toList))

/-- The lines of a metric; the sample is one line unless there is a line break in the name. -/
def textLines (m : Metric) : List (List Char) :=
  commentLine "HELP" m.family m.help :: commentLine "TYPE" m.family m.kind ::
    (lines m.sampleLine.toList ++ [[]])

/-- There is no line break in a comment. -/
theorem not_break_mem_commentLine {keyword family text : String} (hkeyword : IsName keyword.toList)
    (hfamily : IsName family.toList) (htext : '\n' ∉ text.toList) :
    '\n' ∉ commentLine keyword family text := by
  simp [commentLine, hkeyword.not_break_mem, hfamily.not_break_mem, htext]

/-- The text of a metric is made of its lines. -/
theorem lines_text (m : Metric) (hm : m.Wellformed) (rest : List Char) :
    lines (m.text.toList ++ rest) = m.textLines ++ lines rest := by
  have htext : m.text.toList ++ rest = commentLine "HELP" m.family m.help ++ '\n' ::
      (commentLine "TYPE" m.family m.kind ++ '\n' ::
        (m.sampleLine.toList ++ '\n' :: ([] ++ '\n' :: rest))) := by
    have hhelp : "# HELP ".toList = '#' :: ' ' :: ("HELP".toList ++ [' ']) := rfl
    have htype : "\n# TYPE ".toList = '\n' :: '#' :: ' ' :: ("TYPE".toList ++ [' ']) := rfl
    have hblank : " ".toList = [' '] := rfl
    have hbreak : "\n".toList = ['\n'] := rfl
    have hend : "\n\n".toList = ['\n', '\n'] := rfl
    unfold text
    simp only [commentLine, String.toList_append, hhelp, htype, hblank, hbreak, hend,
      List.append_assoc, List.cons_append, List.nil_append]
  rw [htext, lines_cons (not_break_mem_commentLine (by decide) hm.family hm.help),
    lines_cons (not_break_mem_commentLine (by decide) hm.family hm.kind), lines_append_cons,
    lines_cons (by simp)]
  simp [textLines]

/-- The line of a sample without a label is its name and its number. -/
theorem sampleLine_none {m : Metric} (h : m.label = none) :
    m.sampleLine.toList = m.family.toList ++ ' ' :: m.number.toList := by
  simp [sampleLine, h]

/-- The line of a sample with a label is the value of the label between an opening and a closing. -/
theorem sampleLine_some {m : Metric} {label name : String} (h : m.label = some (label, name)) :
    m.sampleLine.toList = opening m.family.toList label.toList ++
      (name.toList ++ closing m.number.toList) := by
  simp [sampleLine, h, opening, closing]

end Metric

/-- The lines of the text are those of its metrics. -/
theorem lines_join {ms : List Metric} (hms : ∀ m ∈ ms, m.Wellformed) :
    lines (String.join (ms.map Metric.text)).toList = ms.flatMap Metric.textLines ++ [[]] := by
  induction ms with
  | nil => rfl
  | cons m ms ih =>
      rw [List.forall_mem_cons] at hms
      have hjoin : (String.join ((m :: ms).map Metric.text)).toList =
          m.text.toList ++ (String.join (ms.map Metric.text)).toList := by simp
      rw [hjoin, m.lines_text hms.1, ih hms.2, List.flatMap_cons, List.append_assoc]

end HarbrRouter
