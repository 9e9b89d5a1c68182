import Heimdallr.Lib.Check
import Heimdallr.Zone.Record

/-!
# The configuration and its check (`config/mod.rs`)

The sections of the configuration that `Config::validate` or a modelled start-up step reads, with
their defaults, and `Config::validate` itself. It is the whole of `--check-config`: the first value
it finds fault with is reported, and a configuration without one is said to be OK.

* A field has the default that serde fills in, as the default value of the structure's field, so
  `({} : Config)` is what an empty file is read as.
* `validate` is a sequence of checks in `Except ConfigError Unit`, in the order of the source; the
  constructor of the error names the field and keeps the value the message quotes.
* The fields keep their widths, but for the sizes and lengths (`usize`), which are `Nat`. The only
  one that is computed with is the number of days of the persistent cache; the product is taken in
  `Net.Startup`.

Results:
* `validate_eq_ok`: the configurations that are accepted, value by value.
* `validate_eq_zoneKind`: the configurations that are rejected for the kind of a zone.

Out of scope: reading TOML (`Config::from_file`), and the sections that only stubs read (`[auth]`,
`[dhcp]`, `[cluster]`).
-/

namespace Heimdallr

open Lib Net

namespace Config

/-- `[resolver]`. -/
structure ResolverConfig where
  forwarders : List String := ["1.1.1.1:53", "8.8.8.8:53"]
  forwardProtocol : String := "udp"
  concurrency : UInt8 := 2
  timeoutMs : UInt64 := 2000
  deriving DecidableEq, Repr

/-- `[cache]`. -/
structure CacheConfig where
  size : Nat := 50000
  persistent : Option String := none
  persistentMaxAgeDays : UInt64 := 7
  deriving DecidableEq, Repr

/-- `[dnssec]`. -/
structure DnssecConfig where
  validation : Bool := true
  provider : String := "ring"
  deriving DecidableEq, Repr

/-- `[proxy]`. -/
structure ProxyConfig where
  protocol : String := "v2"
  deriving DecidableEq, Repr

/-- `[api]`. -/
structure ApiConfig where
  listen : String := "127.0.0.1:5380"
  deriving DecidableEq, Repr

/-- `[log]`. -/
structure LogConfig where
  level : String := "info"
  format : String := "text"
  deriving DecidableEq, Repr

/-- `[dnssec_keys]`. -/
structure DnssecKeyConfig where
  keysDir : String := "/var/lib/heimdallr/keys"
  deriving DecidableEq, Repr

/-- `[[zones]]`. -/
structure ZoneConfig extends Zone.ZoneConfig where
  kind : String
  primaries : List String := []
  dnssecSigning : Bool := false
  dnssecAlgorithm : String := "ecdsa-p256"
  dnssecKey : Option String := none
  deriving DecidableEq, Repr

end Config

/-- `Config`. -/
structure Config where
  host : String := "localhost"
  hostadmin : Option String := none
  listen : List String := ["0.0.0.0:53", "[::]:53"]
  listenTls : List String := []
  listenQuic : List String := []
  listenHttps : List String := []
  dnssecKeys : Config.DnssecKeyConfig := {}
  resolver : Config.ResolverConfig := {}
  cache : Config.CacheConfig := {}
  dnssec : Config.DnssecConfig := {}
  proxy : Config.ProxyConfig := {}
  api : Config.ApiConfig := {}
  log : Config.LogConfig := {}
  zones : List Config.ZoneConfig := []
  zonesDir : String := "/etc/heimdallr/zones"
  deriving DecidableEq, Repr

namespace Config

/-- The errors of `Config::validate`. -/
inductive ConfigError
  /-- `dnssec.provider must be ring|botan, got {}` -/
  | Provider (got : String)
  /-- `resolver.forward_protocol must be udp|tcp|dot|doh|doq, got {other}` -/
  | ForwardProtocol (other : String)
  /-- `resolver.concurrency must be >= 1` -/
  | Concurrency
  /-- `resolver.timeout_ms must be > 0` -/
  | TimeoutMs
  /-- `cache.size must be > 0` -/
  | CacheSize
  /-- `bad listen address '{addr}'` -/
  | BadListen (addr : String)
  /-- `bad api.listen address '{}'` -/
  | BadApiListen (addr : String)
  /-- `proxy.protocol must be v1|v2, got {other}` -/
  | ProxyProtocol (other : String)
  /-- `log.level must be trace|debug|info|warn|error, got {other}` -/
  | LogLevel (other : String)
  /-- `log.format must be json|text, got {other}` -/
  | LogFormat (other : String)
  /-- `zone {}: kind must be primary|secondary|stub|conditional|forwarder, got {other}` -/
  | ZoneKind (zone other : String)
  /-- `zone {}: primary requires 'file'` -/
  | PrimaryRequiresFile (zone : String)
  /-- `zone {}: secondary requires 'primaries'` -/
  | SecondaryRequiresPrimaries (zone : String)
  /-- `zone {}: dnssec_algorithm must be ecdsa-p256|ecdsa-p384|ed25519|rsa-sha256, got {other}` -/
  | DnssecAlgorithm (zone other : String)
  /-- `zones_dir must be an absolute path, got '{}'` -/
  | ZonesDir (got : String)
  deriving DecidableEq, Repr

/-- The text parses as a `SocketAddr`. -/
def IsSocketAddr (s : String) : Prop := (parseSocketAddr s.toList).isSome = true

instance (s : String) : Decidable (IsSocketAddr s) :=
  inferInstanceAs (Decidable (_ = true))

/-- The kinds `validate` knows. -/
def zoneKinds : List String := ["primary", "secondary", "stub", "conditional", "forwarder"]

/-- The signing algorithms `validate` knows. -/
def dnssecAlgorithms : List String := ["ecdsa-p256", "ecdsa-p384", "ed25519", "rsa-sha256"]

/-- The addresses the DNS listeners are to have, in the order they are checked. -/
def listeners (c : Config) : List String := c.listen ++ c.listenTls ++ c.listenQuic ++ c.listenHttps

/-- `validate`, up to the zones. -/
def validateSettings (c : Config) : Except ConfigError Unit := do
  ensure (c.dnssec.provider ∈ ["ring", "botan"]) (.Provider c.dnssec.provider)
  ensure (c.resolver.forwardProtocol ∈ ["udp", "tcp", "dot", "doh", "doq"])
    (.ForwardProtocol c.resolver.forwardProtocol)
  ensure (c.resolver.concurrency ≠ 0) .Concurrency
  ensure (c.resolver.timeoutMs ≠ 0) .TimeoutMs
  ensure (c.cache.size ≠ 0) .CacheSize
  c.listeners.forM fun addr => ensure (IsSocketAddr addr) (.BadListen addr)
  ensure (IsSocketAddr c.api.listen) (.BadApiListen c.api.listen)
  ensure (c.proxy.protocol ∈ ["v1", "v2"]) (.ProxyProtocol c.proxy.protocol)
  ensure (c.log.level ∈ ["trace", "debug", "info", "warn", "error"]) (.LogLevel c.log.level)
  ensure (c.log.format ∈ ["json", "text"]) (.LogFormat c.log.format)

/-- `validate`, for one zone. -/
def ZoneConfig.validate (zone : ZoneConfig) : Except ConfigError Unit := do
  ensure (zone.kind ∈ zoneKinds) (.ZoneKind zone.name zone.kind)
  ensure (¬ (zone.kind = "primary" ∧ zone.file = none)) (.PrimaryRequiresFile zone.name)
  ensure (¬ (zone.kind = "secondary" ∧ zone.primaries = []))
    (.SecondaryRequiresPrimaries zone.name)
  ensure (zone.dnssecSigning = true → zone.dnssecAlgorithm ∈ dnssecAlgorithms)
    (.DnssecAlgorithm zone.name zone.dnssecAlgorithm)

/-- `Config::validate`. -/
def validate (c : Config) : Except ConfigError Unit := do
  c.validateSettings
  c.zones.forM ZoneConfig.validate
  ensure (c.zonesDir.toList.head? = some '/') (.ZonesDir c.zonesDir)

/-! ## What is accepted -/

/-- The values `validate` looks at before the zones are as it wants them. -/
structure SettingsPass (c : Config) : Prop where
  provider : c.dnssec.provider ∈ ["ring", "botan"]
  forwardProtocol : c.resolver.forwardProtocol ∈ ["udp", "tcp", "dot", "doh", "doq"]
  concurrency : c.resolver.concurrency ≠ 0
  timeoutMs : c.resolver.timeoutMs ≠ 0
  cacheSize : c.cache.size ≠ 0
  listeners : ∀ addr ∈ c.listeners, IsSocketAddr addr
  apiListen : IsSocketAddr c.api.listen
  proxyProtocol : c.proxy.protocol ∈ ["v1", "v2"]
  logLevel : c.log.level ∈ ["trace", "debug", "info", "warn", "error"]
  logFormat : c.log.format ∈ ["json", "text"]

/-- The values `validate` looks at in a zone are as it wants them. -/
structure ZoneConfig.Passes (zone : ZoneConfig) : Prop where
  kind : zone.kind ∈ zoneKinds
  file : zone.kind = "primary" → zone.file ≠ none
  primaries : zone.kind = "secondary" → zone.primaries ≠ []
  algorithm : zone.dnssecSigning = true → zone.dnssecAlgorithm ∈ dnssecAlgorithms

theorem validateSettings_eq_ok {c : Config} : c.validateSettings = .ok () ↔ c.SettingsPass := by
  unfold validateSettings
  simp only [seq_eq_ok, ensure_eq_ok, forM_eq_ok]
  constructor
  · rintro ⟨h₁, h₂, h₃, h₄, h₅, h₆, h₇, h₈, h₉, h₁₀⟩
    exact ⟨h₁, h₂, h₃, h₄, h₅, h₆, h₇, h₈, h₉, h₁₀⟩
  · rintro ⟨h₁, h₂, h₃, h₄, h₅, h₆, h₇, h₈, h₉, h₁₀⟩
    exact ⟨h₁, h₂, h₃, h₄, h₅, h₆, h₇, h₈, h₉, h₁₀⟩

theorem ZoneConfig.validate_eq_ok {zone : ZoneConfig} : zone.validate = .ok () ↔ zone.Passes := by
  unfold ZoneConfig.validate
  simp only [seq_eq_ok, ensure_eq_ok, not_and]
  constructor
  · rintro ⟨hkind, hfile, hprimaries, halgorithm⟩
    exact ⟨hkind, hfile, hprimaries, halgorithm⟩
  · rintro ⟨hkind, hfile, hprimaries, halgorithm⟩
    exact ⟨hkind, hfile, hprimaries, halgorithm⟩

/-- **The configurations that are accepted.** -/
theorem validate_eq_ok {c : Config} : c.validate = .ok () ↔
    c.SettingsPass ∧ (∀ zone ∈ c.zones, zone.Passes) ∧ c.zonesDir.toList.head? = some '/' := by
  unfold validate
  simp only [seq_eq_ok, ensure_eq_ok, forM_eq_ok, validateSettings_eq_ok,
    ZoneConfig.validate_eq_ok]

/-! ## What is rejected for a kind -/

theorem validateSettings_ne_zoneKind (c : Config) (zone kind : String) :
    c.validateSettings ≠ .error (.ZoneKind zone kind) := by
  unfold validateSettings
  simp only [ne_eq, seq_eq_error, ensure_eq_error, forM_eq_error, reduceCtorEq, and_false,
    exists_false, or_self, not_false_eq_true]

theorem ZoneConfig.validate_eq_zoneKind {zone : ZoneConfig} {name kind : String} :
    zone.validate = .error (.ZoneKind name kind) ↔
      zone.kind ∉ zoneKinds ∧ zone.name = name ∧ zone.kind = kind := by
  unfold ZoneConfig.validate
  simp

/-- **The configurations that are rejected for the kind of a zone**: all that comes before that zone
passes. -/
theorem validate_eq_zoneKind {c : Config} {name kind : String} :
    c.validate = .error (.ZoneKind name kind) ↔
      c.SettingsPass ∧ ∃ pre zone post, c.zones = pre ++ zone :: post ∧
        (∀ z ∈ pre, z.Passes) ∧ zone.kind ∉ zoneKinds ∧ zone.name = name ∧ zone.kind = kind := by
  unfold validate
  simp only [seq_eq_error, ensure_eq_error, validateSettings_eq_ok, forM_eq_error,
    ZoneConfig.validate_eq_ok, ZoneConfig.validate_eq_zoneKind, validateSettings_ne_zoneKind,
    false_or, reduceCtorEq, and_false, or_false]

/-- The defaults pass their own check. -/
theorem validate_default : ({} : Config).validate = .ok () := by
  decide

end Config

end Heimdallr
