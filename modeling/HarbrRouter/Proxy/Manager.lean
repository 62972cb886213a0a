import HarbrRouter.Metrics.Prometheus

/-!
# The proxy manager and the validation of an instance

`proxy.rs`, `ProxyManager`: one proxy for each type, and the `validate_config` of the three proxies,
which `start_proxy` runs before it starts an instance. `HeaderName::from_bytes` is code of another
crate and stands as a parameter: the name in its normal form, or the text of the error.

What the check looks at are the type of an instance and the section of that type, and nothing else
(`ProxyManager.validateConfig_ok_iff`): there is a proxy for every type (`validateConfig_eq`), and
each of the three accepts exactly the sections whose fields are what it compares them with. The
defaults of each section pass (`validateConfig_default`).
-/

set_option autoImplicit false

namespace HarbrRouter.Proxy

/-! ## The checks of the proxies -/

section

variable (fromBytes : String → Except String String)

/-- The names of a list are header names, in order up to the first that is not.
Source: `proxy/http.rs`, the two loops of `HttpProxy::validate_config` -/
def checkHeaderNames : List String → Result Unit
  | [] => .ok ()
  | name :: names =>
      match fromBytes name with
      | .error e => .error (.config ("Invalid header name '" ++ name ++ "': " ++ e))
      | .ok _ => checkHeaderNames names

/-- Source: `proxy/http.rs`, `HttpProxy::validate_config` -/
def HttpProxy.validateConfig (config : ProxyInstanceConfig) : Result Unit :=
  let httpConfig := config.config.http
  if config.proxyType ≠ .http then .error (.config "Invalid proxy type for HTTP proxy")
  else if httpConfig.maxRequestSize = 0 then
    .error (.config "HTTP max_request_size must be greater than 0")
  else if httpConfig.maxRequestSize > 1024 * 1024 * 1024 then
    .error (.config "HTTP max_request_size cannot exceed 1GB")
  else if httpConfig.requestTimeoutSecs = 0 then
    .error (.config "HTTP request_timeout_secs must be greater than 0")
  else
    match checkHeaderNames fromBytes (httpConfig.addHeaders.map Prod.fst) with
    | .error e => .error e
    | .ok () => checkHeaderNames fromBytes httpConfig.removeHeaders

end

/-- Source: `proxy/tcp.rs`, `TcpProxy::validate_config` -/
def TcpProxy.validateConfig (config : ProxyInstanceConfig) : Result Unit :=
  let tcpConfig := config.config.tcp
  if config.proxyType ≠ .tcp then .error (.config "Invalid proxy type for TCP proxy")
  else if tcpConfig.bufferSize = 0 then
    .error (.config "TCP buffer_size must be greater than 0")
  else if tcpConfig.bufferSize > 1024 * 1024 then
    .error (.config "TCP buffer_size cannot exceed 1MB")
  else
    match tcpConfig.keepAlive with
    | none => .ok ()
    | some keepAlive =>
        if ¬ keepAlive.enabled then .ok ()
        else if keepAlive.idleSecs = 0 then
          .error (.config "TCP keep-alive idle_secs must be greater than 0")
        else if keepAlive.intervalSecs = 0 then
          .error (.config "TCP keep-alive interval_secs must be greater than 0")
        else if keepAlive.retries = 0 then
          .error (.config "TCP keep-alive retries must be greater than 0")
        else .ok ()

/-- Source: `proxy/udp.rs`, `UdpProxy::validate_config` -/
def UdpProxy.validateConfig (config : ProxyInstanceConfig) : Result Unit :=
  let udpConfig := config.config.udp
  if config.proxyType ≠ .udp then .error (.config "Invalid proxy type for UDP proxy")
  else if udpConfig.bufferSize = 0 then
    .error (.config "UDP buffer_size must be greater than 0")
  else if udpConfig.bufferSize > 65536 then
    .error (.config "UDP buffer_size cannot exceed 64KB")
  else if udpConfig.sessionTimeoutSecs = 0 then
    .error (.config "UDP session_timeout_secs must be greater than 0")
  else if udpConfig.sessionTimeoutSecs > 3600 then
    .error (.config "UDP session_timeout_secs cannot exceed 1 hour")
  else .ok ()

/-! ## The manager -/

namespace ProxyManager

variable (fromBytes : String → Except String String)

/-- The proxies of the manager, by type, each as its `validate_config`.
Source: `proxy.rs`, `ProxyManager::new` -/
def proxies : List (ProxyType × (ProxyInstanceConfig → Result Unit)) :=
  [(.http, HttpProxy.validateConfig fromBytes), (.tcp, TcpProxy.validateConfig),
    (.udp, UdpProxy.validateConfig)]

/-- The check that `start_proxy` makes first. Source: `proxy.rs`, `ProxyManager::validate_config`
and `ProxyManager::start_proxy` -/
def validateConfig (config : ProxyInstanceConfig) : Result Unit :=
  match (proxies fromBytes).lookup config.proxyType with
  | none => .error (.config ("Unsupported proxy type: " ++ config.proxyType.debug))
  | some validate => validate config

/-- Every type has its proxy. -/
theorem validateConfig_eq (config : ProxyInstanceConfig) :
    validateConfig fromBytes config =
      match config.proxyType with
      | .http => HttpProxy.validateConfig fromBytes config
      | .tcp => TcpProxy.validateConfig config
      | .udp => UdpProxy.validateConfig config := by
  unfold validateConfig proxies
  cases config.proxyType <;> rfl

/-- The defaults pass the check, whatever the type of the instance. -/
theorem validateConfig_default {config : ProxyInstanceConfig} (h : config.config = .default) :
    validateConfig fromBytes config = .ok () := by
  rw [validateConfig_eq]
  cases htype : config.proxyType with
  | http =>
      simp [HttpProxy.validateConfig, htype, h, ProxySpecificConfig.default,
        HttpProxyConfig.default, checkHeaderNames]
  | tcp =>
      simp [TcpProxy.validateConfig, htype, h, ProxySpecificConfig.default,
        TcpProxyConfig.default]
  | udp =>
      simp [UdpProxy.validateConfig, htype, h, ProxySpecificConfig.default,
        UdpProxyConfig.default]

end ProxyManager

/-! ## What a proxy reports of itself -/

/-- The values that the export reads, with the rates and the average that it does not.
Source: `proxy.rs`, `ProxyMetrics` -/
structure ProxyMetrics (F : Type) extends HarbrRouter.ProxyMetrics where
  requestRate : F
  errorRate : F
  avgResponseTimeMs : F

/-! ## What the checks accept -/

section

variable {fromBytes : String → Except String String}

/-- A text that is a header name. -/
def IsHeaderName (fromBytes : String → Except String String) (name : String) : Prop :=
  ∃ header, fromBytes name = .ok header

/-- The check accepts a list exactly when all of it are header names. -/
theorem checkHeaderNames_ok_iff {names : List String} :
    checkHeaderNames fromBytes names = .ok () ↔ ∀ name ∈ names, IsHeaderName fromBytes name := by
  induction names with
  | nil => simp [checkHeaderNames]
  | cons name names ih =>
      rw [List.forall_mem_cons, ← ih, checkHeaderNames, IsHeaderName]
      cases fromBytes name <;> simp

end

/-- An HTTP section that its proxy accepts. -/
structure HttpSectionValid (fromBytes : String → Except String String) (http : HttpProxyConfig) :
    Prop where
  size : http.maxRequestSize ≠ 0
  size_le : http.maxRequestSize ≤ 1024 * 1024 * 1024
  timeout : http.requestTimeoutSecs ≠ 0
  added : ∀ header ∈ http.addHeaders, IsHeaderName fromBytes header.1
  removed : ∀ name ∈ http.removeHeaders, IsHeaderName fromBytes name

/-- A TCP section that its proxy accepts. -/
structure TcpSectionValid (tcp : TcpProxyConfig) : Prop where
  buffer : tcp.bufferSize ≠ 0
  buffer_le : tcp.bufferSize ≤ 1024 * 1024
  keepAlive : ∀ keepAlive ∈ tcp.keepAlive, keepAlive.enabled = true →
    keepAlive.idleSecs ≠ 0 ∧ keepAlive.intervalSecs ≠ 0 ∧ keepAlive.retries ≠ 0

/-- A UDP section that its proxy accepts. -/
structure UdpSectionValid (udp : UdpProxyConfig) : Prop where
  buffer : udp.bufferSize ≠ 0
  buffer_le : udp.bufferSize ≤ 65536
  timeout : udp.sessionTimeoutSecs ≠ 0
  timeout_le : udp.sessionTimeoutSecs ≤ 3600

/-- The section of the type is accepted. -/
def SectionValid (fromBytes : String → Except String String) (proxyType : ProxyType)
    (config : ProxySpecificConfig) : Prop :=
  match proxyType with
  | .http => HttpSectionValid fromBytes config.http
  | .tcp => TcpSectionValid config.tcp
  | .udp => UdpSectionValid config.udp

/-- The HTTP proxy accepts exactly the HTTP instances with a valid HTTP section. -/
theorem HttpProxy.validateConfig_ok_iff {fromBytes : String → Except String String}
    {config : ProxyInstanceConfig} :
    HttpProxy.validateConfig fromBytes config = .ok () ↔
      config.proxyType = .http ∧ HttpSectionValid fromBytes config.config.http := by
  unfold HttpProxy.validateConfig
  constructor
  · intro h
    dsimp only at h
    split_ifs at h with htype hsize hle htimeout
    split at h
    · simp at h
    · next hadded =>
        refine ⟨not_not.mp htype, hsize, not_lt.mp hle, htimeout, fun header hheader => ?_,
          checkHeaderNames_ok_iff.mp h⟩
        exact checkHeaderNames_ok_iff.mp hadded header.1 (List.mem_map_of_mem hheader)
  · rintro ⟨htype, hsize, hle, htimeout, hadded, hremoved⟩
    have hnames : checkHeaderNames fromBytes (config.config.http.addHeaders.map Prod.fst) =
        .ok () :=
      checkHeaderNames_ok_iff.mpr (List.forall_mem_map.mpr hadded)
    simp [htype, hsize, not_lt.mpr hle, htimeout, hnames, checkHeaderNames_ok_iff.mpr hremoved]

/-- The TCP proxy accepts exactly the TCP instances with a valid TCP section. -/
theorem TcpProxy.validateConfig_ok_iff {config : ProxyInstanceConfig} :
    TcpProxy.validateConfig config = .ok () ↔
      config.proxyType = .tcp ∧ TcpSectionValid config.config.tcp := by
  unfold TcpProxy.validateConfig
  constructor
  · intro h
    dsimp only at h
    split_ifs at h with htype hsize hle
    refine ⟨not_not.mp htype, hsize, not_lt.mp hle, fun keepAlive hkeepAlive henabled => ?_⟩
    rw [Option.mem_def.mp hkeepAlive] at h
    dsimp only at h
    split_ifs at h with hidle hinterval hretries
    exact ⟨hidle, hinterval, hretries⟩
  · rintro ⟨htype, hsize, hle, hkeepAlive⟩
    simp only [htype, ne_eq, not_true_eq_false, hsize, if_false, gt_iff_lt, not_lt.mpr hle]
    cases hoption : config.config.tcp.keepAlive with
    | none => rfl
    | some keepAlive =>
        by_cases henabled : keepAlive.enabled = true
        · obtain ⟨hidle, hinterval, hretries⟩ := hkeepAlive keepAlive hoption henabled
          simp [henabled, hidle, hinterval, hretries]
        · simp [henabled]

/-- The UDP proxy accepts exactly the UDP instances with a valid UDP section. -/
theorem UdpProxy.validateConfig_ok_iff {config : ProxyInstanceConfig} :
    UdpProxy.validateConfig config = .ok () ↔
      config.proxyType = .udp ∧ UdpSectionValid config.config.udp := by
  unfold UdpProxy.validateConfig
  constructor
  · intro h
    dsimp only at h
    split_ifs at h with htype hsize hle htimeout htimeoutLe
    exact ⟨not_not.mp htype, hsize, not_lt.mp hle, htimeout, not_lt.mp htimeoutLe⟩
  · rintro ⟨htype, hsize, hle, htimeout, htimeoutLe⟩
    simp [htype, hsize, not_lt.mpr hle, htimeout, not_lt.mpr htimeoutLe]

/-- The check looks at nothing but the type and the section of that type. -/
theorem ProxyManager.validateConfig_ok_iff {fromBytes : String → Except String String}
    {config : ProxyInstanceConfig} :
    ProxyManager.validateConfig fromBytes config = .ok () ↔
      SectionValid fromBytes config.proxyType config.config := by
  rw [ProxyManager.validateConfig_eq]
  cases htype : config.proxyType with
  | http => simp [SectionValid, HttpProxy.validateConfig_ok_iff, htype]
  | tcp => simp [SectionValid, TcpProxy.validateConfig_ok_iff, htype]
  | udp => simp [SectionValid, UdpProxy.validateConfig_ok_iff, htype]

end HarbrRouter.Proxy
