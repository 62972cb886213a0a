import HarbrRouter.Metrics.Prometheus

/-!
# Metric families in the export

The help and the type of the metrics of proxies and upstreams are written inside the loops, once for
each proxy and each upstream, and the samples of a family stand apart from each other when there are
several. A line break in a name begins a line, four times.

**Theorem** (`export_grouped_iff`): the families are grouped if and only if there are one proxy and
one upstream at most, and no name adds a line that says anything of a family. The lines of the text
are read metric by metric: each says what its family is and what its name adds (`items_join`). (⇒) A
loop over two entries writes the help of its first family twice, and what a name adds stands on both
sides of the help of the second family (`grouped_loop`). (⇐) The families of the system, of one
proxy and of one upstream differ (`nodup_families`).
-/

set_option autoImplicit false

namespace HarbrRouter

open Routing Exposition

/-! ## What the lines say -/

/-- What the lines behind the first line break of a name say, where the label ends after it. -/
def forgedItems (name : String) : List Item :=
  (lines (name.toList ++ ['"', '\x7d'])).tail.filterMap itemOf

namespace Metric

/-- What the label of a metric adds. -/
def forged (m : Metric) : List Item :=
  match m.label with
  | none => []
  | some (_, name) => forgedItems name

/-- A sample with a label says what its family is, and what its name adds. -/
theorem items_labelled {family label number : List Char} (hfamily : IsName family)
    (hlabel : IsLabel label) (hnumber : IsNumber number) (name : String) :
    items (opening family label ++ (name.toList ++ closing number)) =
      .sample family :: forgedItems name := by
  have hopening := not_break_mem_opening hfamily hlabel
  have hfirst : ∀ rest, itemOf (opening family label ++ rest) = some (.sample family) := by
    intro rest
    unfold opening
    rw [List.append_assoc, List.cons_append]
    exact itemOf_sample hfamily (by decide) _
  unfold items forgedItems
  by_cases hbreak : '\n' ∈ name.toList
  · obtain ⟨first, rest, hname, hbefore⟩ := List.eq_append_cons_of_mem hbreak
    have hitems := items_append rest (hnumber.not_mem (show isNumberChar '\n' = false by decide))
    have hlines : opening family label ++ (name.toList ++ closing number) =
        (opening family label ++ first) ++ '\n' :: (rest ++ closing number) := by simp [hname]
    have htail : name.toList ++ ['"', '\x7d'] = first ++ '\n' :: (rest ++ ['"', '\x7d']) := by
      simp [hname]
    rw [hlines, htail, lines_cons (by simp [hopening, hbefore]), lines_cons hbefore,
      List.filterMap_cons, hfirst, List.tail_cons]
    exact congrArg _ hitems
  · rw [lines_eq_singleton (by simp [hopening, hbreak, not_break_mem_closing hnumber]),
      lines_eq_singleton (by simp [hbreak]), List.filterMap_cons, hfirst]
    rfl

/-- The items of a metric are those of its family, and what its name adds. -/
theorem items_textLines {m : Metric} (hm : m.Wellformed) :
    m.textLines.filterMap itemOf = familyItems m.family.toList ++ m.forged := by
  have hhelp : itemOf (commentLine "HELP" m.family m.help) = some (.help m.family.toList) :=
    itemOf_comment (by decide) hm.family _
  have htype : itemOf (commentLine "TYPE" m.family m.kind) = some (.type m.family.toList) :=
    itemOf_comment (by decide) hm.family _
  have hsample : (lines m.sampleLine.toList).filterMap itemOf =
      .sample m.family.toList :: m.forged := by
    rcases hlabel : m.label with _ | ⟨label, name⟩
    · rw [sampleLine_none hlabel, lines_eq_singleton, List.filterMap_cons,
        itemOf_sample hm.family (by decide)]
      · simp [forged, hlabel]
      · simpa [hm.family.not_break_mem] using
          hm.number.not_mem (show isNumberChar '\n' = false by decide)
    · rw [sampleLine_some hlabel]
      have hitems := items_labelled hm.family (hm.label label name hlabel) hm.number name
      simpa [forged, hlabel, items] using hitems
  simp only [textLines, List.filterMap_cons, hhelp, htype, List.filterMap_append, hsample]
  simp [familyItems, itemOf, sampleItem]

end Metric

/-- The items of a text of metrics are those of its metrics, in their order. -/
theorem items_join {ms : List Metric} (hms : ∀ m ∈ ms, m.Wellformed) :
    items (String.join (ms.map Metric.text)).toList =
      ms.flatMap fun m => familyItems m.family.toList ++ m.forged := by
  unfold items
  rw [lines_join hms, List.filterMap_append, List.filterMap_flatMap]
  have hempty : [[]].filterMap itemOf = [] := rfl
  rw [hempty, List.append_nil]
  exact List.flatMap_congr fun m hm => Metric.items_textLines (hms m hm)

/-! ## Loops -/

/-- A loop that writes several families for each of its entries is grouped for one entry at most,
and only if the entry adds nothing. -/
theorem grouped_loop {α : Type} {before behind : List Item} {entries : List α}
    {block forged rest : α → List Item} {f g : List Char}
    (hblock : ∀ e, block e = familyItems f ++ forged e ++ (familyItems g ++ forged e ++ rest e))
    (h : Grouped (before ++ entries.flatMap block ++ behind)) :
    entries.length ≤ 1 ∧ ∀ e ∈ entries, forged e = [] := by
  constructor
  · by_contra hlen
    obtain ⟨e, e', es, rfl⟩ : ∃ e e' es, entries = e :: e' :: es := by
      match entries with
      | [] | [_] => simp at hlen
      | e :: e' :: es => exact ⟨e, e', es, rfl⟩
    -- the help of the first family is written for both
    refine h.help_once f before (.type f :: .sample f :: forged e ++ (familyItems g ++ forged e ++
      rest e)) (.type f :: .sample f :: forged e' ++ (familyItems g ++ forged e' ++ rest e') ++
        es.flatMap block ++ behind) ?_
    simp [hblock, familyItems]
  · intro e he
    by_contra hne
    obtain ⟨item, forgedRest, hforged⟩ := List.exists_cons_of_ne_nil hne
    obtain ⟨es, es', rfl⟩ := List.append_of_mem he
    -- what the entry adds is written on both sides of the help for the second family
    refine h.not_around_help item g (before ++ es.flatMap block ++ familyItems f)
      (forgedRest ++ familyItems g) (forgedRest ++ rest e ++ es'.flatMap block ++ behind)
      (by simp [familyItems]) ?_
    simp [hblock, hforged]

section grouped

variable {F : Type} [ScoreArith F] [DisplayFloat F]

/-- The items of the metrics of a proxy are those of four families, each with what the name adds. -/
theorem items_proxyMetrics (name : String) (metrics : ProxyMetrics) :
    ((proxyMetrics name metrics).flatMap fun m => familyItems m.family.toList ++ m.forged) =
      familyItems "harbr_proxy_requests_total".toList ++ forgedItems name ++
        (familyItems "harbr_proxy_connections_active".toList ++ forgedItems name ++
          (familyItems "harbr_proxy_bytes_sent_total".toList ++ forgedItems name ++
            (familyItems "harbr_proxy_bytes_received_total".toList ++ forgedItems name))) := by
  simp only [proxyMetrics, List.flatMap_cons, List.flatMap_nil, Metric.forged, List.append_nil]

/-- The items of the metrics of an upstream are those of four families, each with what the name
adds. -/
theorem items_upstreamMetrics (name : String) (metrics : UpstreamMetricsSnapshot F) :
    ((upstreamMetrics F name metrics).flatMap fun m => familyItems m.family.toList ++ m.forged) =
      familyItems "harbr_upstream_health".toList ++ forgedItems name ++
        (familyItems "harbr_upstream_requests_total".toList ++ forgedItems name ++
          (familyItems "harbr_upstream_response_time_ms".toList ++ forgedItems name ++
            (familyItems "harbr_upstream_success_rate".toList ++ forgedItems name))) := by
  simp only [upstreamMetrics, List.flatMap_cons, List.flatMap_nil, Metric.forged, List.append_nil]

/-- Where no name adds anything, no metric does. -/
theorem forged_of_mem {summary : ExportedSummary F}
    (hproxies : ∀ e ∈ summary.proxies, forgedItems e.1 = [])
    (hupstreams : ∀ e ∈ summary.upstreams, forgedItems e.1 = []) {m : Metric}
    (hm : m ∈ summary.metrics F) : m.forged = [] := by
  unfold Metric.forged
  rcases metrics_cases hm with hm | ⟨e, he, hm⟩ | ⟨e, he, hm⟩
  · rw [label_systemMetrics summary m hm]
  · rw [label_proxyMetrics _ _ m hm]
    exact hproxies e he
  · rw [label_upstreamMetrics _ _ m hm]
    exact hupstreams e he

/-- The families of one proxy and one upstream at most differ. -/
theorem nodup_families {summary : ExportedSummary F} (hproxies : summary.proxies.length ≤ 1)
    (hupstreams : summary.upstreams.length ≤ 1) :
    ((summary.metrics F).map fun m => m.family.toList).Nodup := by
  unfold ExportedSummary.metrics
  match summary.proxies, hproxies, summary.upstreams, hupstreams with
  | [], _, [], _ =>
      simp only [systemMetrics, List.flatMap_nil, List.append_nil, List.map_cons, List.map_nil]
      decide
  | [e], _, [], _ =>
      simp only [systemMetrics, proxyMetrics, List.flatMap_cons, List.flatMap_nil, List.append_nil,
        List.cons_append, List.nil_append, List.map_cons, List.map_nil]
      decide
  | [], _, [e], _ =>
      simp only [systemMetrics, upstreamMetrics, List.flatMap_cons, List.flatMap_nil,
        List.append_nil, List.cons_append, List.nil_append, List.map_cons, List.map_nil]
      decide
  | [e], _, [e'], _ =>
      simp only [systemMetrics, proxyMetrics, upstreamMetrics, List.flatMap_cons, List.flatMap_nil,
        List.append_nil, List.cons_append, List.nil_append, List.map_cons, List.map_nil]
      decide

/-- The metrics of a summary are grouped if it has one proxy and one upstream at most, and their
names add nothing. -/
theorem metrics_grouped_iff (summary : ExportedSummary F) :
    Grouped ((summary.metrics F).flatMap fun m => familyItems m.family.toList ++ m.forged) ↔
      (summary.proxies.length ≤ 1 ∧ ∀ e ∈ summary.proxies, forgedItems e.1 = []) ∧
        summary.upstreams.length ≤ 1 ∧ ∀ e ∈ summary.upstreams, forgedItems e.1 = [] := by
  constructor
  · intro h
    unfold ExportedSummary.metrics at h
    rw [List.flatMap_append, List.flatMap_append, List.flatMap_assoc, List.flatMap_assoc] at h
    refine ⟨grouped_loop (fun e => items_proxyMetrics e.1 e.2) h, ?_⟩
    rw [← List.append_nil (List.flatMap _ summary.upstreams)] at h
    rw [← List.append_assoc] at h
    exact grouped_loop (fun e => items_upstreamMetrics e.1 e.2) h
  · rintro ⟨⟨hproxies, hp⟩, hupstreams, hu⟩
    have hitems : ((summary.metrics F).flatMap fun m => familyItems m.family.toList ++ m.forged) =
        ((summary.metrics F).map fun m => m.family.toList).flatMap familyItems := by
      rw [List.flatMap_map]
      exact List.flatMap_congr fun m hm => by rw [forged_of_mem hp hu hm, List.append_nil]
    rw [hitems]
    exact grouped_familyItems (nodup_families hproxies hupstreams)

/-- The items of the export are those of the metrics of its summary. -/
theorem items_export (registry : ExportedRegistry) (heap : Heap) (now : ℕ) :
    items (registry.exportPrometheus F heap now).toList =
      ((registry.getMetricsSummary F heap now).metrics F).flatMap fun m =>
        familyItems m.family.toList ++ m.forged :=
  items_join (wellformed_metrics _)

/-- **When the families are grouped.** In the text of the export each family has its help and its
type once, before its samples, and its samples stand together, if and only if there is one proxy and
one upstream at most, and no line that a line break in their names begins is a sample or is about a
family. -/
theorem export_grouped_iff (registry : ExportedRegistry) (heap : Heap) (now : ℕ) :
    Grouped (items (registry.exportPrometheus F heap now).toList) ↔
      registry.proxyMetrics.keys.length ≤ 1 ∧ registry.upstreamMetrics.keys.length ≤ 1 ∧
        ∀ name ∈ registry.names, forgedItems name = [] := by
  rw [items_export, metrics_grouped_iff]
  simp only [ExportedRegistry.names, List.forall_mem_append, AList.keys, List.keys,
    ExportedRegistry.getMetricsSummary, ExportedRegistry.updateUptime,
    MetricsRegistry.getMetricsSummary, List.length_map, List.forall_mem_map]
  tauto

end grouped

/-- A registry with two proxies. -/
def twoProxies : ExportedRegistry where
  toMetricsRegistry := .new
  proxyMetrics := (AList.insert "api" ⟨7, 0, 0, 0⟩ ∅).insert "web" ⟨5, 0, 0, 0⟩
  startTime := 0
  uptimeSeconds := 0
  rssBytes := 0

/-- Two proxies have the help of their families written twice. -/
theorem export_two_proxies :
    ¬ Grouped (items (twoProxies.exportPrometheus ℚ .empty 0).toList) := by
  rw [items_export, metrics_grouped_iff]
  rintro ⟨⟨hproxies, -⟩, -⟩
  exact absurd hproxies (by decide)

end HarbrRouter
