import HarbrRouter.Lib.PointRing
import HarbrRouter.Proxy.Validation

/-!
# The order of the headers to add

`HttpProxyConfig::add_headers` is a hash map. Its keys are compared as texts, while
`transform_request` inserts them, in the order of the map, under names that are compared without
their case. Two keys that differ in case only are one header, and the later one in the order of the
map wins.

**Theorem** (`transformRequest_configured_iff`): every order of the map gives the headers that are
configured if and only if no name has two configured values.

The two loops leave of each name the last configured value, or what the request had, and nothing of
the names to remove (`getAll_of_transformRequest`). (⇐) Without ambiguity the last value is the only
one, so every order keeps what the configuration promises (`Unambiguous.configured`), and that
determines the headers (`Configured.getAll_eq`). (⇒) Of two values of one name each can be the last
one in some order, and wins there (`getAll_of_last`); if the order does not matter they are equal
(`orderFree_iff`).
-/

set_option autoImplicit false

namespace HarbrRouter.Proxy.Http

open PointRing

variable {H : HttpCrate}

/-! ## What the two loops leave of each name -/

/-- An entry of `add_headers`, as the headers of a request see it. -/
def parseHeader (H : HttpCrate) (header : String × String) : Option (String × HeaderValue) :=
  match H.fromBytes header.1, H.fromStr header.2 with
  | .ok name, .ok value => some (name, value)
  | _, _ => none

/-- An entry is parsed when both of its parts are. -/
theorem parseHeader_eq_some_iff {header : String × String} {name : String} {value : HeaderValue} :
    parseHeader H header = some (name, value) ↔
      H.fromBytes header.1 = .ok name ∧ H.fromStr header.2 = .ok value := by
  unfold parseHeader
  cases H.fromBytes header.1 <;> cases H.fromStr header.2 <;> simp

/-- The first loop inserts the parsed entries in turn. -/
theorem addHeaders_eq_foldl {headers headers' : HeaderMap} {added : List (String × String)}
    (h : addHeaders H headers added = .ok headers') :
    headers' = (added.filterMap (parseHeader H)).foldl (fun m p => m.insert p.1 p.2) headers := by
  induction added generalizing headers with
  | nil => simpa [addHeaders] using h.symm
  | cons header added ih =>
      rw [addHeaders] at h
      split at h
      · simp at h
      · next name hname =>
          split at h
          · simp at h
          · next value hvalue =>
              rw [List.filterMap_cons_some (parseHeader_eq_some_iff.mpr ⟨hname, hvalue⟩),
                List.foldl_cons]
              exact ih h

/-- A sequence of insertions leaves of each name the last value inserted, if there is one. -/
theorem getAll_foldl_insert (headers : HeaderMap) (ps : List (String × HeaderValue))
    (name : String) : (ps.foldl (fun m p => m.insert p.1 p.2) headers).getAll name =
      ((lastWrite ps name).map fun value => [value]).getD (headers.getAll name) := by
  induction ps using List.reverseRecOn with
  | nil => rfl
  | append_singleton ps p ih =>
      rw [List.foldl_concat, HeaderMap.getAll_insert, lastWrite_concat]
      split_ifs with h
      · simp [h]
      · rw [Function.update_of_ne h, ih]

/-- **What the first loop leaves**: the last configured value of a name, or what the request
had. -/
theorem getAll_of_addHeaders {headers headers' : HeaderMap} {added : List (String × String)}
    (h : addHeaders H headers added = .ok headers') (name : String) : headers'.getAll name =
      ((lastWrite (added.filterMap (parseHeader H)) name).map fun value => [value]).getD
        (headers.getAll name) := by
  rw [addHeaders_eq_foldl h, getAll_foldl_insert]

/-- A header name that one of the texts is for. -/
def IsNamed (H : HttpCrate) (texts : List String) (name : String) : Prop :=
  ∃ text ∈ texts, H.fromBytes text = .ok name

/-- **What the second loop leaves**: nothing of the names that it removes, and the others as they
were. -/
theorem getAll_of_removeHeaders {headers headers' : HeaderMap} {removed : List String}
    (h : removeHeaders H headers removed = .ok headers') (name : String) :
    (IsNamed H removed name → headers'.getAll name = []) ∧
      (¬ IsNamed H removed name → headers'.getAll name = headers.getAll name) := by
  induction removed generalizing headers with
  | nil =>
      obtain rfl : headers = headers' := by simpa [removeHeaders] using h
      simp [IsNamed]
  | cons text removed ih =>
      rw [removeHeaders] at h
      split at h
      · simp at h
      · next headerName hname =>
          obtain ⟨hin, hout⟩ := ih h
          have hcons : IsNamed H (text :: removed) name ↔
              name = headerName ∨ IsNamed H removed name := by
            simp [IsNamed, hname, eq_comm]
          rw [hcons]
          by_cases hrest : IsNamed H removed name
          · simp [hrest, hin hrest]
          · simp only [hrest, or_false, hout hrest, HeaderMap.getAll_remove]
            refine ⟨fun heq => if_pos heq, fun hne => if_neg hne⟩

/-! ## Any order of the map -/

/-- **What a transformation leaves of each name.** -/
theorem getAll_of_transformRequest {req req' : Request} {config : HttpProxyConfig}
    (h : transformRequest H req config = .ok req') (name : String) :
    (IsNamed H config.removeHeaders name → req'.headers.getAll name = []) ∧
      (¬ IsNamed H config.removeHeaders name → req'.headers.getAll name =
        ((lastWrite (config.addHeaders.filterMap (parseHeader H)) name).map
          fun value => [value]).getD (req.headers.getAll name)) := by
  unfold transformRequest at h
  split at h
  · simp at h
  · next headers hadded =>
      split at h
      · simp at h
      · next headers' hremoved =>
          obtain rfl : { req with headers := headers' } = req' := by simpa using h
          rw [← getAll_of_addHeaders hadded]
          exact getAll_of_removeHeaders hremoved name

/-- The map in another iteration order. -/
def withOrder (config : HttpProxyConfig) (order : List (String × String)) : HttpProxyConfig :=
  { config with addHeaders := order }

/-- A request that is transformed in one order of the map is transformed in every order. -/
theorem transformRequest_withOrder_ok {req : Request} {config : HttpProxyConfig}
    (hok : ∃ req', transformRequest H req config = .ok req') {order : List (String × String)}
    (horder : order.Perm config.addHeaders) :
    ∃ req', transformRequest H req (withOrder config order) = .ok req' := by
  obtain ⟨hadded, hremoved⟩ := transformRequest_succeeds_iff.mp hok
  exact transformRequest_succeeds_iff.mpr
    ⟨fun header hheader => hadded header (horder.subset hheader), hremoved⟩

/-- What the configuration promises of the headers `after` a transformation of `before`. -/
structure Configured (H : HttpCrate) (config : HttpProxyConfig) (before after : HeaderMap) :
    Prop where
  /-- A header to add that is not to be removed has exactly one value, the configured one. -/
  added : ∀ header ∈ config.addHeaders, ∀ name, H.fromBytes header.1 = .ok name →
    ¬ IsNamed H config.removeHeaders name →
      ∃ value, H.fromStr header.2 = .ok value ∧ after.getAll name = [value]
  removed : ∀ name, IsNamed H config.removeHeaders name → after.getAll name = []
  others : ∀ name, ¬ IsNamed H (config.addHeaders.map Prod.fst) name →
    ¬ IsNamed H config.removeHeaders name → after.getAll name = before.getAll name

/-- The promise determines the headers. -/
theorem Configured.getAll_eq {config : HttpProxyConfig} {before after after' : HeaderMap}
    (h : Configured H config before after) (h' : Configured H config before after')
    (name : String) : after.getAll name = after'.getAll name := by
  by_cases hremoved : IsNamed H config.removeHeaders name
  · rw [h.removed name hremoved, h'.removed name hremoved]
  by_cases hadded : IsNamed H (config.addHeaders.map Prod.fst) name
  · obtain ⟨text, htext, hname⟩ := hadded
    obtain ⟨header, hheader, rfl⟩ := List.mem_map.mp htext
    obtain ⟨value, hvalue, heq⟩ := h.added header hheader name hname hremoved
    obtain ⟨value', hvalue', heq'⟩ := h'.added header hheader name hname hremoved
    obtain rfl : value = value' := by simpa [hvalue] using hvalue'
    rw [heq, heq']
  · rw [h.others name hadded hremoved, h'.others name hadded hremoved]

/-- The headers of a transformed request do not depend on the order of the map: they are equal as
`HeaderMap`s are, name by name. -/
def OrderFree (H : HttpCrate) (config : HttpProxyConfig) (req : Request) : Prop :=
  ∀ order order', order.Perm config.addHeaders → order'.Perm config.addHeaders →
    ∀ req₁ req₂, transformRequest H req (withOrder config order) = .ok req₁ →
      transformRequest H req (withOrder config order') = .ok req₂ →
        ∀ name, req₁.headers.getAll name = req₂.headers.getAll name

/-- Two keys for one header name have one value, unless the name is removed. -/
def Unambiguous (H : HttpCrate) (config : HttpProxyConfig) : Prop :=
  ∀ header ∈ config.addHeaders, ∀ header' ∈ config.addHeaders, ∀ name,
    H.fromBytes header.1 = .ok name → H.fromBytes header'.1 = .ok name →
      ¬ IsNamed H config.removeHeaders name → H.fromStr header.2 = H.fromStr header'.2

section orders

variable {config : HttpProxyConfig} {req : Request}

/-- Without ambiguity every order keeps the promise. -/
theorem Unambiguous.configured (hun : Unambiguous H config) {order : List (String × String)}
    (horder : order.Perm config.addHeaders) {req' : Request}
    (h : transformRequest H req (withOrder config order) = .ok req') :
    Configured H config req.headers req'.headers := by
  have hleft := getAll_of_transformRequest h
  constructor
  · intro header hheader name hname hremoved
    obtain ⟨-, value, hvalue⟩ := (transformRequest_succeeds_iff.mp ⟨req', h⟩).1 header
      (horder.symm.subset hheader)
    refine ⟨value, hvalue, ?_⟩
    rw [(hleft name).2 hremoved]
    cases hlast : lastWrite (order.filterMap (parseHeader H)) name with
    | none =>
        refine absurd ?_ (lastWrite_eq_none_iff.mp hlast value)
        exact List.mem_filterMap.mpr
          ⟨header, horder.symm.subset hheader, parseHeader_eq_some_iff.mpr ⟨hname, hvalue⟩⟩
    | some value' =>
        obtain ⟨header', hheader', hparse⟩ := List.mem_filterMap.mp (mem_of_lastWrite hlast)
        obtain ⟨hname', hvalue'⟩ := parseHeader_eq_some_iff.mp hparse
        have hsame := hun header hheader header' (horder.subset hheader') name hname hname' hremoved
        obtain rfl : value = value' := by simpa [hvalue, hvalue'] using hsame
        simp [withOrder, hlast]
  · exact fun name hremoved => (hleft name).1 hremoved
  · intro name hadded hremoved
    rw [(hleft name).2 hremoved]
    have hnone : lastWrite (order.filterMap (parseHeader H)) name = none := by
      refine lastWrite_eq_none_iff.mpr fun value hmem => hadded ?_
      obtain ⟨header, hheader, hparse⟩ := List.mem_filterMap.mp hmem
      exact ⟨header.1, List.mem_map_of_mem (horder.subset hheader),
        (parseHeader_eq_some_iff.mp hparse).1⟩
    simp [withOrder, hnone]

/-- The header that comes last in the order gets its value. -/
theorem getAll_of_last {header : String × String} {req' : Request} {name : String}
    {value : HeaderValue}
    (h : transformRequest H req (withOrder config (config.addHeaders.erase header ++ [header])) =
      .ok req')
    (hname : H.fromBytes header.1 = .ok name) (hvalue : H.fromStr header.2 = .ok value)
    (hremoved : ¬ IsNamed H config.removeHeaders name) : req'.headers.getAll name = [value] := by
  rw [(getAll_of_transformRequest h name).2 hremoved]
  have hparse := parseHeader_eq_some_iff.mpr ⟨hname, hvalue⟩
  simp [withOrder, List.filterMap_append, hparse, lastWrite_concat]

/-- **When the order does not matter.** -/
theorem orderFree_iff (hok : ∃ req', transformRequest H req config = .ok req') :
    OrderFree H config req ↔ Unambiguous H config := by
  constructor
  · intro hfree header hheader header' hheader' name hname hname' hremoved
    have hvalues := (transformRequest_succeeds_iff.mp hok).1
    obtain ⟨-, value, hvalue⟩ := hvalues header hheader
    obtain ⟨-, value', hvalue'⟩ := hvalues header' hheader'
    have hlast : ∀ header ∈ config.addHeaders,
        (config.addHeaders.erase header ++ [header]).Perm config.addHeaders := fun header hmem =>
      List.perm_append_comm.trans (List.perm_cons_erase hmem).symm
    obtain ⟨req₁, h₁⟩ := transformRequest_withOrder_ok hok (hlast header hheader)
    obtain ⟨req₂, h₂⟩ := transformRequest_withOrder_ok hok (hlast header' hheader')
    have heq := hfree _ _ (hlast header hheader) (hlast header' hheader') req₁ req₂ h₁ h₂ name
    rw [getAll_of_last h₁ hname hvalue hremoved,
      getAll_of_last h₂ hname' hvalue' hremoved] at heq
    rw [hvalue, hvalue', List.singleton_inj.mp heq]
  · intro hun order order' horder horder' req₁ req₂ h₁ h₂
    exact (hun.configured horder h₁).getAll_eq (hun.configured horder' h₂)

end orders

/-- **When the headers are what is configured.** Of a request that is transformed, the headers do
not depend on the order of `add_headers` and keep the promise of the configuration in every order
if and only if two keys for one header name, not to be removed, have one value. -/
theorem transformRequest_configured_iff (H : HttpCrate) (config : HttpProxyConfig) (req : Request)
    (hok : ∃ req', transformRequest H req config = .ok req') :
    (OrderFree H config req ∧ ∀ order, order.Perm config.addHeaders →
      ∃ req', transformRequest H req (withOrder config order) = .ok req' ∧
        Configured H config req.headers req'.headers) ↔ Unambiguous H config := by
  constructor
  · rintro ⟨hfree, -⟩
    exact (orderFree_iff hok).mp hfree
  · intro hun
    refine ⟨(orderFree_iff hok).mpr hun, fun order horder => ?_⟩
    obtain ⟨req', h⟩ := transformRequest_withOrder_ok hok horder
    exact ⟨req', h, hun.configured horder h⟩

/-! ### Two spellings of one name -/

/-- An HTTP instance that adds and removes headers. -/
def addingAll (addHeaders : List (String × String)) (removeHeaders : List String) :
    ProxyInstanceConfig where
  name := "web"
  proxyType := .http
  listenAddr := .v4 ⟨0, 0, 0, 0⟩ 80
  upstreams := [⟨"a", "10.0.0.1:80", 1, 0, 1000⟩]
  config := { ProxySpecificConfig.default with
    http := { HttpProxyConfig.default with addHeaders, removeHeaders } }

/-- A request that has one of the headers already. -/
def teamRequest : Request := ⟨⟨none, none, some "/"⟩, ⟨[("x-team", bytes "c")]⟩, []⟩

/-- Two headers to add, one of them in two spellings and to be removed. -/
def zonedInstance : ProxyInstanceConfig :=
  addingAll [("X-Team", "a"), ("X-Zone", "b"), ("x-zone", "c")] ["X-ZONE"]

/-- Every order gives the header that is not removed its value. -/
theorem transformRequest_configured_iff_zoned :
    OrderFree visibleCrate zonedInstance.config.http teamRequest ∧
      ∀ order, order.Perm zonedInstance.config.http.addHeaders →
        ∃ req', transformRequest visibleCrate teamRequest
            (withOrder zonedInstance.config.http order) = .ok req' ∧
          Configured visibleCrate zonedInstance.config.http teamRequest.headers
            req'.headers := by
  apply (transformRequest_configured_iff visibleCrate zonedInstance.config.http teamRequest
    ⟨_, rfl⟩).mpr
  have hteam : ∀ header ∈ zonedInstance.config.http.addHeaders, ∀ name,
      visibleCrate.fromBytes header.1 = .ok name →
        ¬ IsNamed visibleCrate zonedInstance.config.http.removeHeaders name →
          header = ("X-Team", "a") := by
    intro header hheader name hname hremoved
    have hcases : header = ("X-Team", "a") ∨ header = ("X-Zone", "b") ∨
        header = ("x-zone", "c") := by
      simpa [zonedInstance, addingAll] using hheader
    have hzone : visibleCrate.fromBytes "X-ZONE" = visibleCrate.fromBytes "X-Zone" ∧
        visibleCrate.fromBytes "X-ZONE" = visibleCrate.fromBytes "x-zone" := by decide +kernel
    rcases hcases with rfl | rfl | rfl
    · rfl
    · exact absurd ⟨"X-ZONE", List.mem_singleton.mpr rfl, hzone.1.trans hname⟩ hremoved
    · exact absurd ⟨"X-ZONE", List.mem_singleton.mpr rfl, hzone.2.trans hname⟩ hremoved
  intro header hheader header' hheader' name hname hname' hremoved
  rw [hteam header hheader name hname hremoved, hteam header' hheader' name hname' hremoved]

/-- One header to add, under two keys of the map. -/
def twoSpellings : ProxyInstanceConfig := addingAll [("X-Team", "a"), ("x-team", "b")] []

/-- The instance is accepted, and the order of the map decides on the value. -/
theorem spellings_order_dependent :
    HttpProxy.validateConfig visibleCrate.fromBytes twoSpellings = .ok () ∧
      (∃ req', transformRequest visibleCrate teamRequest twoSpellings.config.http = .ok req') ∧
      ¬ OrderFree visibleCrate twoSpellings.config.http teamRequest := by
  refine ⟨by decide +kernel, ⟨_, rfl⟩, fun hfree => ?_⟩
  have h := hfree [("X-Team", "a"), ("x-team", "b")] [("x-team", "b"), ("X-Team", "a")] (.refl _)
    (.swap _ _ _) _ _ rfl rfl "x-team"
  revert h
  decide +kernel

end HarbrRouter.Proxy.Http
