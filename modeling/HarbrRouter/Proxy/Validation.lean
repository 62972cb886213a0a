import HarbrRouter.Proxy.HttpMessage
import HarbrRouter.Proxy.Manager

/-!
# What the validation of an instance leaves out

Two more gaps between what is validated and what runs. `HttpProxy::validate_config` checks the names
of the headers to add and remove, but not the values of those to add, and `transform_request` fails
on a bad one. And `ProxyManager::validate_config` looks at the section of the type only, so that it
accepts instances that `ProxyInstanceConfig::validate` refuses.

**Theorem** (`transformRequest_ok_iff`): on an accepted instance a request is transformed exactly
when the values of the headers to add are header values. The two loops end well exactly when each
name and each value is one (`addHeaders_ok_iff`, `removeHeaders_ok_iff`), and of the names the check
has made sure.

**Theorem** (`manager_refuses_iff`): what `ProxyInstanceConfig::validate` refuses is refused by the
manager exactly when the instance is sound or its section is bad: the manager accepts the good
sections, whatever else the instance has.
-/

set_option autoImplicit false

namespace HarbrRouter.Proxy

/-! ## Header values -/

namespace Http

section

variable {H : HttpCrate}

/-- A text that is a header value. -/
def IsHeaderValue (H : HttpCrate) (value : String) : Prop := ∃ bytes, H.fromStr value = .ok bytes

/-- The first loop ends well exactly when each name and each value is one. -/
theorem addHeaders_ok_iff {headers : HeaderMap} {added : List (String × String)} :
    (∃ headers', addHeaders H headers added = .ok headers') ↔
      ∀ header ∈ added, IsHeaderName H.fromBytes header.1 ∧ IsHeaderValue H header.2 := by
  induction added generalizing headers with
  | nil => simp [addHeaders]
  | cons header added ih =>
      obtain ⟨name, value⟩ := header
      rw [List.forall_mem_cons, addHeaders, IsHeaderName, IsHeaderValue]
      cases hname : H.fromBytes name with
      | error e => simp
      | ok headerName =>
          cases hvalue : H.fromStr value with
          | error e => simp
          | ok headerValue => simpa using ih

/-- The second loop ends well exactly when each name is one. -/
theorem removeHeaders_ok_iff {headers : HeaderMap} {removed : List String} :
    (∃ headers', removeHeaders H headers removed = .ok headers') ↔
      ∀ name ∈ removed, IsHeaderName H.fromBytes name := by
  induction removed generalizing headers with
  | nil => simp [removeHeaders]
  | cons name removed ih =>
      rw [List.forall_mem_cons, removeHeaders, IsHeaderName]
      cases hname : H.fromBytes name with
      | error e => simp
      | ok headerName => simpa using ih

/-- A request is transformed exactly when its names and its values are ones. -/
theorem transformRequest_succeeds_iff {req : Request} {config : HttpProxyConfig} :
    (∃ req', transformRequest H req config = .ok req') ↔
      (∀ header ∈ config.addHeaders, IsHeaderName H.fromBytes header.1 ∧ IsHeaderValue H header.2) ∧
        ∀ name ∈ config.removeHeaders, IsHeaderName H.fromBytes name := by
  rw [← @addHeaders_ok_iff H req.headers, transformRequest]
  cases hadded : addHeaders H req.headers config.addHeaders with
  | error e => simp
  | ok headers =>
      rw [← @removeHeaders_ok_iff H headers]
      cases hremoved : removeHeaders H headers config.removeHeaders <;> simp [hremoved]

/-- **When a request is transformed.** On an instance that the HTTP proxy accepts, every request is
transformed if and only if each value of the headers to add is a header value. -/
theorem transformRequest_ok_iff (H : HttpCrate) (config : ProxyInstanceConfig)
    (h : HttpProxy.validateConfig H.fromBytes config = .ok ()) (req : Request) :
    (∃ req', transformRequest H req config.config.http = .ok req') ↔
      ∀ header ∈ config.config.http.addHeaders, IsHeaderValue H header.2 := by
  obtain ⟨-, hvalid⟩ := HttpProxy.validateConfig_ok_iff.mp h
  rw [transformRequest_succeeds_iff, and_iff_left hvalid.removed]
  exact forall₂_congr fun header hheader => and_iff_right (hvalid.added header hheader)

end

/-! ### A value that is none -/

/-- A character of a header name. -/
def isTokenChar (c : Char) : Bool := c.isAlphanum || "!#$%&'*+-.^_`|~".toList.contains c

/-- A character of a header value. -/
def isVisibleChar (c : Char) : Bool := (32 ≤ c.toNat && c.toNat < 127) || c = '\t'

/-- Header names are tokens, in lower case, and header values are visible characters. -/
def visibleCrate : HttpCrate where
  fromBytes := fun name =>
    if name ≠ "" ∧ name.toList.all isTokenChar then
      .ok (String.ofList (name.toList.map Char.toLower))
    else .error "invalid HTTP header name"
  fromStr := fun value =>
    if value.toList.all isVisibleChar then .ok (bytes value)
    else .error "failed to parse header value"
  toStr := fun _ => none
  parseUri := fun text => .ok ⟨some "http", some text, none⟩

/-- An HTTP instance that adds a header. -/
def addingInstance (value : String) : ProxyInstanceConfig where
  name := "web"
  proxyType := .http
  listenAddr := .v4 ⟨0, 0, 0, 0⟩ 80
  upstreams := [⟨"a", "10.0.0.1:80", 1, 0, 1000⟩]
  config := { ProxySpecificConfig.default with
    http := { HttpProxyConfig.default with addHeaders := [("X-Proxy", value)] } }

/-- The HTTP proxy accepts an instance that adds a header, whatever the value of the header is. -/
theorem addingInstance_accepted (value : String) :
    HttpProxy.validateConfig visibleCrate.fromBytes (addingInstance value) = .ok () := by
  have hname : IsHeaderName visibleCrate.fromBytes "X-Proxy" := ⟨"x-proxy", by decide +kernel⟩
  refine HttpProxy.validateConfig_ok_iff.mpr ⟨rfl, ?_, ?_, ?_, ?_, ?_⟩
  · simp [addingInstance, HttpProxyConfig.default]
  · simp [addingInstance, HttpProxyConfig.default]
  · simp [addingInstance, HttpProxyConfig.default]
  · exact List.forall_mem_singleton.mpr hname
  · exact fun name hmem => absurd hmem List.not_mem_nil

/-- A header value of visible characters is accepted, and the request transformed. -/
theorem transformRequest_ok_iff_visible : ∃ req',
    transformRequest visibleCrate ⟨⟨none, none, some "/"⟩, ⟨[]⟩, []⟩
      (addingInstance "Harbr-Router").config.http = .ok req' :=
  (transformRequest_ok_iff visibleCrate (addingInstance "Harbr-Router")
    (addingInstance_accepted _) _).mpr
      (List.forall_mem_singleton.mpr ⟨bytes "Harbr-Router", by decide +kernel⟩)

/-- A value with a line break passes validation, and no request is transformed. -/
theorem lineBreak_refused :
    HttpProxy.validateConfig visibleCrate.fromBytes (addingInstance "a\nb") = .ok () ∧
      ∀ req, transformRequest visibleCrate req (addingInstance "a\nb").config.http =
        .error (.config "Invalid header value 'a\nb': failed to parse header value") :=
  ⟨addingInstance_accepted _, fun _ => rfl⟩

end Http

/-! ## The manager and the instance -/

/-- **When the manager refuses an invalid instance.** What the manager accepts is accepted by the
validation of the instance if and only if the section of its type is bad or the instance itself is
valid: it has a name and upstreams with distinct names, each with a name, an address with a colon, a
weight and a timeout. The manager looks at none of these. -/
theorem manager_refuses_iff (fromBytes : String → Except String String)
    (config : ProxyInstanceConfig) :
    (ProxyManager.validateConfig fromBytes config = .ok () → config.validate.2 = .ok ()) ↔
      ¬ SectionValid fromBytes config.proxyType config.config ∨ config.Valid := by
  rw [ProxyManager.validateConfig_ok_iff, ProxyInstanceConfig.validate_ok_iff, imp_iff_not_or]

/-- The configuration of the manager's test, with its upstreams cleared. -/
def clearedInstance : ProxyInstanceConfig where
  name := "test-http"
  proxyType := .http
  listenAddr := .v4 ⟨127, 0, 0, 1⟩ 8080
  upstreams := []
  config := .default

/-- The manager accepts it, and the validation of the instance refuses it. -/
theorem clearedInstance_accepted :
    (∀ fromBytes, ProxyManager.validateConfig fromBytes clearedInstance = .ok ()) ∧
      clearedInstance.validate.2 =
        .error (.config "Proxy instance 'test-http' must have at least one upstream") :=
  ⟨fun fromBytes => ProxyManager.validateConfig_default fromBytes rfl, by decide⟩

end HarbrRouter.Proxy
