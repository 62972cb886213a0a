import HarbrRouter.Basic

/-!
# The configuration and its validation

`config.rs`: the configuration records (the fields that some modelled function reads) and the four
`validate` functions, with the texts of their errors and in the order of their checks. `validate`
takes `&mut self` in the source, so each model returns the configuration after the call next to its
result. `from_file` reads a configuration through the file system and a parser of its format, which
are parameters, and validates it.

**Theorem** (`Config.validate_correct`): a configuration is accepted exactly when it is valid
(`Config.Valid`), and is left as it is in either case. Each of the four accepts what its own `Valid`
says: the scan for duplicates succeeds exactly on new and distinct keys (`checkUnique_ok_iff`), and
the loop over the parts exactly when each of them is valid (`validateEach_ok_iff`). What a file
gives is then what its parser reads, if that is valid (`Config.fromFile_eq_ok_iff`).
-/

set_option autoImplicit false

namespace HarbrRouter

/-! ## Records -/

/-- Source: `config.rs`, `ProxyType` -/
inductive ProxyType where
  | http
  | tcp
  | udp
deriving DecidableEq, Repr

/-- The `Debug` text of a proxy type. -/
def ProxyType.debug : ProxyType → String
  | .http => "Http"
  | .tcp => "Tcp"
  | .udp => "Udp"

/-- Configuration for an upstream server. Source: `config.rs`, `UpstreamConfig` -/
structure UpstreamConfig where
  name : String
  address : String
  /-- A `u32`. -/
  weight : ℕ
  /-- An `i32`; documented as "higher = preferred". -/
  priority : ℤ
  /-- A `u64`. -/
  timeoutMs : ℕ
deriving DecidableEq, Repr

/-- HTTP proxy configuration. The `HashMap` of headers is its list of entries in iteration
order. Source: `config.rs`, `HttpProxyConfig` -/
structure HttpProxyConfig where
  maxRequestSize : ℕ
  requestTimeoutSecs : ℕ
  addHeaders : List (String × String)
  removeHeaders : List String
  stickySessions : Bool
deriving DecidableEq, Repr

/-- Source: `config.rs`, `TcpKeepAliveConfig` -/
structure TcpKeepAliveConfig where
  enabled : Bool
  idleSecs : ℕ
  intervalSecs : ℕ
  retries : ℕ
deriving DecidableEq, Repr

/-- Source: `config.rs`, `TcpProxyConfig` -/
structure TcpProxyConfig where
  connectionPooling : Bool
  bufferSize : ℕ
  keepAlive : Option TcpKeepAliveConfig
  nodelay : Bool
deriving DecidableEq, Repr

/-- Source: `config.rs`, `UdpProxyConfig` -/
structure UdpProxyConfig where
  bufferSize : ℕ
  sessionTimeoutSecs : ℕ
deriving DecidableEq, Repr

/-- Source: `config.rs`, `ProxySpecificConfig` -/
structure ProxySpecificConfig where
  http : HttpProxyConfig
  tcp : TcpProxyConfig
  udp : UdpProxyConfig
deriving DecidableEq, Repr

/-- Configuration for a single proxy instance. Source: `config.rs`, `ProxyInstanceConfig` -/
structure ProxyInstanceConfig where
  name : String
  proxyType : ProxyType
  listenAddr : SocketAddr
  upstreams : List UpstreamConfig
  config : ProxySpecificConfig
deriving DecidableEq, Repr

/-- Source: `config.rs`, `MetricsConfig` -/
structure MetricsConfig where
  enabled : Bool
  listenAddr : SocketAddr
  path : String
  intervalSecs : ℕ
deriving DecidableEq, Repr

/-- Source: `config.rs`, `HealthCheckConfig` -/
structure HealthCheckConfig where
  enabled : Bool
  listenAddr : SocketAddr
  path : String
deriving DecidableEq, Repr

/-- Source: `config.rs`, `BufferPoolConfig` -/
structure BufferPoolConfig where
  initialSize : ℕ
  maxSize : ℕ
deriving DecidableEq, Repr

/-- Source: `config.rs`, `PerformanceConfig` -/
structure PerformanceConfig where
  bufferPool : BufferPoolConfig
deriving DecidableEq, Repr

/-- Source: `config.rs`, `LoggingConfig` -/
structure LoggingConfig where
  level : String
  format : String
deriving DecidableEq, Repr

/-- Source: `config.rs`, `GlobalConfig` -/
structure GlobalConfig where
  metrics : MetricsConfig
  healthCheck : HealthCheckConfig
  performance : PerformanceConfig
  logging : LoggingConfig
deriving DecidableEq, Repr

/-- The configuration of the router. Source: `config.rs`, `Config` -/
structure Config where
  global : GlobalConfig
  proxyInstances : List ProxyInstanceConfig
deriving DecidableEq, Repr

/-! ## Defaults -/

/-- Source: `config.rs`, `impl Default for HttpProxyConfig` -/
def HttpProxyConfig.default : HttpProxyConfig where
  maxRequestSize := 64 * 1024 * 1024
  requestTimeoutSecs := 60
  addHeaders := []
  removeHeaders := []
  stickySessions := false

/-- Source: `config.rs`, `impl Default for TcpProxyConfig` -/
def TcpProxyConfig.default : TcpProxyConfig where
  connectionPooling := true
  bufferSize := 8192
  keepAlive := none
  nodelay := false

/-- Source: `config.rs`, `impl Default for UdpProxyConfig` -/
def UdpProxyConfig.default : UdpProxyConfig where
  bufferSize := 1500
  sessionTimeoutSecs := 30

/-- Source: `config.rs`, `#[derive(Default)]` on `ProxySpecificConfig` -/
def ProxySpecificConfig.default : ProxySpecificConfig where
  http := .default
  tcp := .default
  udp := .default

/-- Source: `config.rs`, `impl Default for GlobalConfig` and the defaults of its sections -/
def GlobalConfig.default : GlobalConfig where
  metrics := ⟨true, .v4 ⟨0, 0, 0, 0⟩ 9090, "/metrics", 60⟩
  healthCheck := ⟨true, .v4 ⟨0, 0, 0, 0⟩ 8080, "/health"⟩
  performance := ⟨⟨1024, 4096⟩⟩
  logging := ⟨"info", "pretty"⟩

/-! ## Validation -/

/-- The duplicate scans of `validate`: insert the key of each element into a `HashSet` and fail at
the first one that is already there. -/
def checkUnique {α κ : Type} [DecidableEq κ] (key : α → κ) (err : α → Error) :
    List κ → List α → Result Unit
  | _, [] => .ok ()
  | seen, a :: as =>
      if key a ∈ seen then .error (err a) else checkUnique key err (key a :: seen) as

/-- `for x in &mut xs { x.validate()?; }`: each element is validated in place up to the first that
fails. -/
def validateEach {α : Type} (validate : α → α × Result Unit) : List α → List α × Result Unit
  | [] => ([], .ok ())
  | a :: as =>
      match validate a with
      | (a', .error e) => (a' :: as, .error e)
      | (a', .ok ()) => let (as', r) := validateEach validate as; (a' :: as', r)

/-- Source: `config.rs`, `UpstreamConfig::validate` -/
def UpstreamConfig.validate (self : UpstreamConfig) : UpstreamConfig × Result Unit :=
  if self.name.isEmpty then
    (self, .error (.config "Upstream name cannot be empty"))
  else if self.address.isEmpty then
    (self, .error (.config ("Upstream '" ++ self.name ++ "' address cannot be empty")))
  else if ¬ self.address.toList.contains ':' then
    (self, .error (.config
      ("Upstream '" ++ self.name ++ "' address must include port (e.g., 'host:port')")))
  else if self.weight = 0 then
    (self, .error (.config ("Upstream '" ++ self.name ++ "' weight must be greater than 0")))
  else if self.timeoutMs = 0 then
    (self, .error (.config ("Upstream '" ++ self.name ++ "' timeout must be greater than 0")))
  else (self, .ok ())

/-- Source: `config.rs`, `ProxyInstanceConfig::validate` -/
def ProxyInstanceConfig.validate (self : ProxyInstanceConfig) :
    ProxyInstanceConfig × Result Unit :=
  if self.name.isEmpty then
    (self, .error (.config "Proxy instance name cannot be empty"))
  else if self.upstreams.isEmpty then
    (self, .error (.config
      ("Proxy instance '" ++ self.name ++ "' must have at least one upstream")))
  else
    match checkUnique UpstreamConfig.name
        (fun u => .config ("Duplicate upstream name '" ++ u.name ++ "' in instance '" ++
          self.name ++ "'")) [] self.upstreams with
    | .error e => (self, .error e)
    | .ok () =>
        let (upstreams, r) := validateEach UpstreamConfig.validate self.upstreams
        ({ self with upstreams }, r)

/-- Source: `config.rs`, `GlobalConfig::validate` -/
def GlobalConfig.validate (self : GlobalConfig) : Result Unit :=
  if self.metrics.enabled ∧ self.metrics.intervalSecs = 0 then
    .error (.config "Metrics interval must be greater than 0")
  else if self.performance.bufferPool.initialSize > self.performance.bufferPool.maxSize then
    .error (.config "Buffer pool initial size cannot be greater than max size")
  else if self.logging.level ∉ ["error", "warn", "info", "debug", "trace"] then
    .error (.config "Invalid log level. Must be one of: error, warn, info, debug, trace")
  else if self.logging.format ∉ ["json", "pretty", "compact"] then
    .error (.config "Invalid log format. Must be one of: json, pretty, compact")
  else .ok ()

/-- Source: `config.rs`, `Config::validate` -/
def Config.validate (self : Config) : Config × Result Unit :=
  match checkUnique ProxyInstanceConfig.name
      (fun i => .config ("Duplicate proxy instance name: '" ++ i.name ++ "'")) []
      self.proxyInstances with
  | .error e => (self, .error e)
  | .ok () =>
      match checkUnique ProxyInstanceConfig.listenAddr
          (fun i => .config ("Duplicate listen address: " ++ i.listenAddr.display ++
            " (instance: " ++ i.name ++ ")")) [] self.proxyInstances with
      | .error e => (self, .error e)
      | .ok () =>
          match validateEach ProxyInstanceConfig.validate self.proxyInstances with
          | (proxyInstances, .error e) => ({ self with proxyInstances }, .error e)
          | (proxyInstances, .ok ()) => ({ self with proxyInstances }, self.global.validate)

/-- Source: `config.rs`, `Config::get_instance` -/
def Config.getInstance (self : Config) (name : String) : Option ProxyInstanceConfig :=
  self.proxyInstances.find? fun i => i.name = name

/-! ## Loading -/

/-- What `from_file` sees of a path: its text, and its extension where it has one in UTF-8. -/
structure Path where
  display : String
  extension : Option String
deriving DecidableEq, Repr

/-- What `from_file` calls: the file system and the parsers of the three formats. Each answers with
the text of its error where it fails. -/
structure Loader where
  readToString : Path → Except String String
  yaml : String → Except String Config
  json : String → Except String Config
  toml : String → Except String Config

/-- The `?` on a parser's answer. Source: `error.rs`, `From<serde_yaml::Error>`,
`From<serde_json::Error>` and `From<toml::de::Error>` -/
def parsed (message : String) : Except String Config → Result Config
  | .error e => .error (.configWithSource message e)
  | .ok config => .ok config

/-- The parser is chosen by the extension. Source: `config.rs`, `Config::from_file` -/
def Loader.parse (loader : Loader) (path : Path) (content : String) : Result Config :=
  match path.extension with
  | some "yml" | some "yaml" => parsed "YAML parsing failed" (loader.yaml content)
  | some "json" => parsed "JSON parsing failed" (loader.json content)
  | some "toml" => parsed "TOML parsing failed" (loader.toml content)
  | _ => .error (.config "Unsupported config file format. Use .yml, .json, or .toml")

/-- Source: `config.rs`, `Config::from_file` -/
def Config.fromFile (loader : Loader) (path : Path) : Result Config :=
  match loader.readToString path with
  | .error e =>
      .error (.config ("Failed to read config file '" ++ path.display ++ "': " ++ e))
  | .ok content =>
      match loader.parse path content with
      | .error e => .error e
      | .ok config =>
          match config.validate with
          | (_, .error e) => .error e
          | (config, .ok ()) => .ok config

/-! ## What validation guarantees -/

/-- The scan for duplicates succeeds exactly when the keys are new and distinct. -/
theorem checkUnique_ok_iff {α κ : Type} [DecidableEq κ] {key : α → κ} {err : α → Error}
    {seen : List κ} {as : List α} :
    checkUnique key err seen as = .ok () ↔ (as.map key).Nodup ∧ ∀ a ∈ as, key a ∉ seen := by
  induction as generalizing seen with
  | nil => simp [checkUnique]
  | cons a as ih =>
      by_cases ha : key a ∈ seen
      · simp [checkUnique, ha]
      · simp only [checkUnique, ha, if_false, ih, List.map_cons, List.nodup_cons, List.mem_map,
          List.mem_cons, forall_eq_or_imp, not_or, not_exists, not_and, not_false_eq_true, true_and]
        constructor
        · rintro ⟨hnodup, hnew⟩
          exact ⟨⟨fun b hb => (hnew b hb).1, hnodup⟩, fun b hb => (hnew b hb).2⟩
        · rintro ⟨⟨hne, hnodup⟩, hnew⟩
          exact ⟨hnodup, fun b hb => ⟨hne b hb, hnew b hb⟩⟩

/-- Validating each element succeeds exactly when each is valid. -/
theorem validateEach_ok_iff {α : Type} {validate : α → α × Result Unit} {as : List α} :
    (validateEach validate as).2 = .ok () ↔ ∀ a ∈ as, (validate a).2 = .ok () := by
  induction as with
  | nil => simp [validateEach]
  | cons a as ih =>
      rw [List.forall_mem_cons, ← ih, validateEach]
      rcases hvalidate : validate a with ⟨a', _ | ⟨⟨⟩⟩⟩ <;> simp

/-- An upstream that validation accepts. -/
structure UpstreamConfig.Valid (u : UpstreamConfig) : Prop where
  name : u.name ≠ ""
  address : u.address ≠ ""
  colon : ':' ∈ u.address.toList
  weight : u.weight ≠ 0
  timeout : u.timeoutMs ≠ 0

/-- Validation accepts exactly the valid upstreams. -/
theorem UpstreamConfig.validate_ok_iff {self : UpstreamConfig} :
    self.validate.2 = .ok () ↔ self.Valid := by
  unfold UpstreamConfig.validate
  constructor
  · intro h
    split_ifs at h with hname haddress hcolon hweight htimeout
    exact ⟨by simpa using hname, by simpa using haddress, by simpa using hcolon, hweight, htimeout⟩
  · rintro ⟨hname, haddress, hcolon, hweight, htimeout⟩
    simp [hname, haddress, hcolon, hweight, htimeout]

/-- An instance that validation accepts. -/
structure ProxyInstanceConfig.Valid (inst : ProxyInstanceConfig) : Prop where
  name : inst.name ≠ ""
  nonempty : inst.upstreams ≠ []
  nodup : (inst.upstreams.map UpstreamConfig.name).Nodup
  upstreams : ∀ u ∈ inst.upstreams, u.Valid

/-- Validation accepts exactly the valid instances. -/
theorem ProxyInstanceConfig.validate_ok_iff {self : ProxyInstanceConfig} :
    self.validate.2 = .ok () ↔ self.Valid := by
  unfold ProxyInstanceConfig.validate
  constructor
  · intro h
    split_ifs at h with hname hnonempty
    split at h
    · simp at h
    · next hunique =>
        have hvalid := validateEach_ok_iff.mp h
        exact ⟨by simpa using hname, by simpa using hnonempty, (checkUnique_ok_iff.mp hunique).1,
          fun u hu => UpstreamConfig.validate_ok_iff.mp (hvalid u hu)⟩
  · rintro ⟨hname, hnonempty, hnodup, hvalid⟩
    rw [if_neg (by simpa using hname), if_neg (by simpa using hnonempty),
      checkUnique_ok_iff.mpr ⟨hnodup, by simp⟩]
    exact validateEach_ok_iff.mpr fun u hu => UpstreamConfig.validate_ok_iff.mpr (hvalid u hu)

/-- A global section that validation accepts. -/
structure GlobalConfig.Valid (global : GlobalConfig) : Prop where
  interval : global.metrics.enabled = true → global.metrics.intervalSecs ≠ 0
  pool : global.performance.bufferPool.initialSize ≤ global.performance.bufferPool.maxSize
  level : global.logging.level ∈ ["error", "warn", "info", "debug", "trace"]
  format : global.logging.format ∈ ["json", "pretty", "compact"]

/-- Validation accepts exactly the valid global sections. -/
theorem GlobalConfig.validate_ok_iff {self : GlobalConfig} :
    self.validate = .ok () ↔ self.Valid := by
  unfold GlobalConfig.validate
  constructor
  · intro h
    split_ifs at h with hinterval hpool hlevel hformat
    exact ⟨fun henabled hzero => hinterval ⟨henabled, hzero⟩, not_lt.mp hpool,
      hlevel, hformat⟩
  · rintro ⟨hinterval, hpool, hlevel, hformat⟩
    rw [if_neg fun h => hinterval h.1 h.2, if_neg (not_lt.mpr hpool), if_neg (not_not.mpr hlevel),
      if_neg (not_not.mpr hformat)]

/-- A configuration that validation accepts. -/
structure Config.Valid (config : Config) : Prop where
  names : (config.proxyInstances.map ProxyInstanceConfig.name).Nodup
  listenAddrs : (config.proxyInstances.map ProxyInstanceConfig.listenAddr).Nodup
  instances : ∀ inst ∈ config.proxyInstances, inst.Valid
  global : config.global.validate = .ok ()

/-- Validation accepts exactly the valid configurations. -/
theorem Config.validate_ok_iff {self : Config} : self.validate.2 = .ok () ↔ self.Valid := by
  unfold Config.validate
  constructor
  · intro h
    split at h
    · simp at h
    · next hnames =>
        split at h
        · simp at h
        · next haddrs =>
            split at h
            · simp at h
            · next hinstances =>
                have hvalid := validateEach_ok_iff.mp (congrArg Prod.snd hinstances)
                exact ⟨(checkUnique_ok_iff.mp hnames).1, (checkUnique_ok_iff.mp haddrs).1,
                  fun inst hinst => ProxyInstanceConfig.validate_ok_iff.mp (hvalid inst hinst), h⟩
  · rintro ⟨hnames, haddrs, hvalid, hglobal⟩
    have heach := validateEach_ok_iff.mpr fun inst hinst =>
      ProxyInstanceConfig.validate_ok_iff.mpr (hvalid inst hinst)
    rw [checkUnique_ok_iff.mpr ⟨hnames, by simp⟩]
    dsimp only
    rw [checkUnique_ok_iff.mpr ⟨haddrs, by simp⟩]
    rcases hinstances : validateEach ProxyInstanceConfig.validate self.proxyInstances with
      ⟨proxyInstances, _ | ⟨⟨⟩⟩⟩
    · rw [hinstances] at heach
      simp at heach
    · exact hglobal

/-! ## What validation leaves alone -/

/-- Validating each element leaves the list as it is when no element is changed. -/
theorem validateEach_fst {α : Type} {validate : α → α × Result Unit}
    (hsame : ∀ a, (validate a).1 = a) (as : List α) : (validateEach validate as).1 = as := by
  induction as with
  | nil => rfl
  | cons a as ih =>
      unfold validateEach
      rcases hvalidate : validate a with ⟨a', _ | ⟨⟨⟩⟩⟩
      all_goals
        obtain rfl : a' = a := by simpa [hvalidate] using hsame a
        simp only [ih]

/-- An upstream is left as it is. -/
theorem UpstreamConfig.validate_fst (self : UpstreamConfig) : self.validate.1 = self := by
  unfold UpstreamConfig.validate
  split_ifs <;> rfl

/-- Validation leaves an instance and all its upstreams as they are. -/
theorem ProxyInstanceConfig.validate_fst (self : ProxyInstanceConfig) :
    self.validate.1 = self := by
  unfold ProxyInstanceConfig.validate
  split_ifs
  · rfl
  · rfl
  · split
    · rfl
    · have hupstreams := validateEach_fst UpstreamConfig.validate_fst self.upstreams
      dsimp only
      rw [hupstreams]

/-- Validation leaves a configuration as it is, whether it accepts it or not. -/
theorem Config.validate_fst (self : Config) : self.validate.1 = self := by
  have hinstances := validateEach_fst ProxyInstanceConfig.validate_fst self.proxyInstances
  unfold Config.validate
  split
  · rfl
  · split
    · rfl
    · split
      all_goals
        next heach =>
          rw [heach] at hinstances
          dsimp only at hinstances ⊢
          rw [hinstances]

/-- **What a file gives**: the configuration that its parser reads, when validation accepts it. -/
theorem Config.fromFile_eq_ok_iff {loader : Loader} {path : Path} {config : Config} :
    Config.fromFile loader path = .ok config ↔ ∃ content,
      loader.readToString path = .ok content ∧ loader.parse path content = .ok config ∧
        config.Valid := by
  unfold Config.fromFile
  cases loader.readToString path with
  | error e => simp
  | ok content =>
      simp only [Except.ok.injEq, exists_eq_left']
      cases loader.parse path content with
      | error e => simp
      | ok parsed =>
          have hsame := parsed.validate_fst
          have hvalid := @Config.validate_ok_iff parsed
          dsimp only
          generalize parsed.validate = checked at hsame hvalid ⊢
          rcases checked with ⟨validated, _ | ⟨⟨⟩⟩⟩
          · have hinvalid : ¬ parsed.Valid := fun h => nomatch hvalid.mpr h
            simp only [reduceCtorEq, false_iff, Except.ok.injEq]
            rintro ⟨rfl, h⟩
            exact hinvalid h
          · obtain rfl : validated = parsed := hsame
            simp only [Except.ok.injEq]
            refine ⟨?_, And.left⟩
            rintro rfl
            exact ⟨rfl, hvalid.mp rfl⟩

/-- **Validation is right.** A configuration is accepted exactly when all the conditions on its
instances, their upstreams and the global section hold, and it is left as it is in both cases. -/
theorem Config.validate_correct (config : Config) :
    (config.validate.2 = .ok () ↔
      (config.proxyInstances.map ProxyInstanceConfig.name).Nodup ∧
      (config.proxyInstances.map ProxyInstanceConfig.listenAddr).Nodup ∧
      (∀ inst ∈ config.proxyInstances,
        inst.name ≠ "" ∧ inst.upstreams ≠ [] ∧
        (inst.upstreams.map UpstreamConfig.name).Nodup ∧
        ∀ u ∈ inst.upstreams,
          u.name ≠ "" ∧ u.address ≠ "" ∧ ':' ∈ u.address.toList ∧ 0 < u.weight ∧
            0 < u.timeoutMs) ∧
      (config.global.metrics.enabled = true → 0 < config.global.metrics.intervalSecs) ∧
      config.global.performance.bufferPool.initialSize ≤
        config.global.performance.bufferPool.maxSize ∧
      config.global.logging.level ∈ ["error", "warn", "info", "debug", "trace"] ∧
      config.global.logging.format ∈ ["json", "pretty", "compact"]) ∧
    config.validate.1 = config := by
  refine ⟨?_, config.validate_fst⟩
  rw [Config.validate_ok_iff]
  constructor
  · rintro ⟨hnames, haddrs, hinstances, hglobal⟩
    obtain ⟨hinterval, hpool, hlevel, hformat⟩ := GlobalConfig.validate_ok_iff.mp hglobal
    refine ⟨hnames, haddrs, fun inst hinst => ?_, fun h => Nat.pos_of_ne_zero (hinterval h), hpool,
      hlevel, hformat⟩
    obtain ⟨hname, hnonempty, hnodup, hupstreams⟩ := hinstances inst hinst
    refine ⟨hname, hnonempty, hnodup, fun u hu => ?_⟩
    obtain ⟨hname, haddress, hcolon, hweight, htimeout⟩ := hupstreams u hu
    exact ⟨hname, haddress, hcolon, Nat.pos_of_ne_zero hweight, Nat.pos_of_ne_zero htimeout⟩
  · rintro ⟨hnames, haddrs, hinstances, hinterval, hpool, hlevel, hformat⟩
    refine ⟨hnames, haddrs, fun inst hinst => ?_, GlobalConfig.validate_ok_iff.mpr
      ⟨fun h => Nat.ne_of_gt (hinterval h), hpool, hlevel, hformat⟩⟩
    obtain ⟨hname, hnonempty, hnodup, hupstreams⟩ := hinstances inst hinst
    refine ⟨hname, hnonempty, hnodup, fun u hu => ?_⟩
    obtain ⟨hname, haddress, hcolon, hweight, htimeout⟩ := hupstreams u hu
    exact ⟨hname, haddress, hcolon, Nat.ne_of_gt hweight, Nat.ne_of_gt htimeout⟩

/-- The instances of an accepted configuration have distinct names. -/
theorem Config.nodup_names {config : Config} (h : config.validate.2 = .ok ()) :
    (config.proxyInstances.map ProxyInstanceConfig.name).Nodup :=
  (Config.validate_ok_iff.mp h).names

end HarbrRouter
