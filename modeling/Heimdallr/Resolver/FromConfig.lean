import Heimdallr.Config
import Heimdallr.Core.Blocklist

/-!
# The upstream resolver of a configuration (`core/resolver/mod.rs`)

`ResolverWrap::from_config` makes a name server of every forwarder, in the configured protocol, and
adds the system's own resolver as the last one where it finds systemd-resolved. The first forwarder
that is no socket address ends it.

* Of a forwarder's address the IP is handed to hickory's constructor, which fills in the default
  port of the protocol; that constructor is `NameServerConfig.ofProtocol`.
* `ResolverEnv` is what the machine has: systemd-resolved, the address of its stub, and whether
  hickory builds a resolver of the servers and options. The last is a predicate that nothing is
  assumed of.
* `resolverOpts` are the options the source sets: time-out, attempts, concurrency, validation.

`fromConfig_ne_badForwarder` is what it needs of the forwarders; `fromConfig_ok` that nothing else
of the configuration can end it.

Out of scope: `trust_negative_responses`, which is one value for every server.
-/

namespace Heimdallr.Resolver

open Heimdallr.Lib Heimdallr.Net

/-- The protocols of hickory's `NameServerConfig`, with what the source gives them. -/
inductive ProtocolConfig
  | Udp
  | Tcp
  | Tls (serverName : Text)
  | Https (serverName : Text) (path : Option Text)
  | Quic (serverName : Text)
  deriving DecidableEq, Repr

/-- The port hickory fills in. -/
def ProtocolConfig.defaultPort : ProtocolConfig → UInt16
  | .Udp | .Tcp => 53
  | .Tls _ | .Quic _ => 853
  | .Https _ _ => 443

/-- `NameServerConfig`. -/
structure NameServerConfig where
  ip : IpAddr
  port : UInt16
  protocol : ProtocolConfig
  deriving DecidableEq, Repr

/-- `NameServerConfig::udp`, `tcp`, `tls`, `https` and `quic`: the port is the protocol's own. -/
def NameServerConfig.ofProtocol (protocol : ProtocolConfig) (ip : IpAddr) : NameServerConfig :=
  ⟨ip, protocol.defaultPort, protocol⟩

/-- `ResolverOpts`, and whether the root trust anchors are attached. -/
structure ResolverOpts where
  timeout : Duration
  attempts : Nat
  recursionDesired : Bool
  validate : Bool
  trustAnchors : Bool
  deriving DecidableEq, Repr

/-- `ResolverWrap`. -/
structure ResolverWrap where
  nameServers : List NameServerConfig
  opts : ResolverOpts
  dnssecEnabled : Bool
  deriving DecidableEq, Repr

/-- The errors of `from_config`. -/
inductive FromConfigError
  /-- `bad forwarder {f}` -/
  | BadForwarder (f : String)
  /-- `build resolver` -/
  | BuildResolver
  deriving DecidableEq, Repr

/-- What `from_config` finds outside: whether `stub-resolv.conf` exists, the text of
`/etc/resolv.conf`, and whether hickory builds a resolver. -/
structure ResolverEnv where
  stubExists : Bool
  resolvConf : Option Text
  builds : List NameServerConfig → ResolverOpts → Bool

/-- `SYSTEMD_RESOLVED_STUB`. -/
def systemdResolvedStub : Text := "127.0.0.53:53".toList

/-- A line of `resolv.conf` that names the stub of systemd-resolved. -/
def namesStub (line : Text) : Bool :=
  (stripStart "nameserver".toList (trim line)).any fun ns => trim ns = "127.0.0.53".toList

/-- `detect_system_resolver`. -/
def detectSystemResolver (env : ResolverEnv) : Option Text :=
  if env.stubExists then some systemdResolvedStub
  else if env.resolvConf.any fun content => (lines content).any namesStub then
    some systemdResolvedStub
  else none

/-- `extract_tls_host`: the first forwarder up to its first colon. -/
def extractTlsHost (cfg : Config.ResolverConfig) : Text :=
  match cfg.forwarders with
  | f :: _ => f.toList.takeWhile (· ≠ ':')
  | [] => "1.1.1.1".toList

/-- The protocol of the name servers: UDP for a word that is not known. -/
def forwardProtocol (cfg : Config.ResolverConfig) : ProtocolConfig :=
  match cfg.forwardProtocol with
  | "udp" => .Udp
  | "tcp" => .Tcp
  | "dot" => .Tls (extractTlsHost cfg)
  | "doh" => .Https (extractTlsHost cfg) none
  | "doq" => .Quic (extractTlsHost cfg)
  | _ => .Udp

/-- The name server of a forwarder: of the address only the IP is used. -/
def nameServer (cfg : Config.ResolverConfig) (f : String) :
    Except FromConfigError NameServerConfig :=
  match parseSocketAddr f.toList with
  | some addr => .ok (.ofProtocol (forwardProtocol cfg) addr.ip)
  | none => .error (.BadForwarder f)

/-- The fallback to the system's resolver. -/
def systemServers (env : ResolverEnv) : List NameServerConfig :=
  ((detectSystemResolver env).bind parseSocketAddr).toList.map fun addr =>
    .ofProtocol .Udp addr.ip

/-- The options the resolver is built with. -/
def resolverOpts (cfg : Config.ResolverConfig) (dnssecEnabled : Bool) : ResolverOpts where
  timeout := cfg.timeoutMs.toNat * 1000000
  attempts := cfg.concurrency.toNat
  recursionDesired := true
  validate := dnssecEnabled
  trustAnchors := dnssecEnabled

/-- `ResolverWrap::from_config`. -/
def fromConfig (env : ResolverEnv) (cfg : Config.ResolverConfig) (dnssecEnabled : Bool) :
    Except FromConfigError ResolverWrap := do
  let forwarders ← cfg.forwarders.mapM (nameServer cfg)
  let nameServers := forwarders ++ systemServers env
  let opts := resolverOpts cfg dnssecEnabled
  ensure (env.builds nameServers opts = true) .BuildResolver
  return ⟨nameServers, opts, dnssecEnabled⟩

theorem nameServer_isOk {cfg : Config.ResolverConfig} {f : String} :
    (∃ ns, nameServer cfg f = .ok ns) ↔ Config.IsSocketAddr f := by
  unfold nameServer Config.IsSocketAddr
  cases parseSocketAddr f.toList with
  | none => simp
  | some addr => simp

theorem nameServer_error {cfg : Config.ResolverConfig} {f : String} {e : FromConfigError}
    (h : nameServer cfg f = .error e) : e = .BadForwarder f := by
  unfold nameServer at h
  split at h
  · cases h
  · exact (Except.error.inj h).symm

/-- **No forwarder is reported** exactly when all of them parse. -/
theorem fromConfig_ne_badForwarder {env : ResolverEnv} {cfg : Config.ResolverConfig}
    {dnssecEnabled : Bool} :
    (∀ f, fromConfig env cfg dnssecEnabled ≠ .error (.BadForwarder f)) ↔
      ∀ f ∈ cfg.forwarders, Config.IsSocketAddr f := by
  have hall : (∃ ns, cfg.forwarders.mapM (nameServer cfg) = .ok ns) ↔
      ∀ f ∈ cfg.forwarders, Config.IsSocketAddr f := by
    simp only [mapM_isOk, nameServer_isOk]
  rw [← hall]
  unfold fromConfig
  constructor
  · intro h
    cases hmap : cfg.forwarders.mapM (nameServer cfg) with
    | ok ns => exact ⟨ns, rfl⟩
    | error e =>
      obtain ⟨f, -, hf⟩ := mapM_eq_error hmap
      obtain rfl := nameServer_error hf
      rw [hmap] at h
      exact absurd rfl (h f)
  · rintro ⟨ns, hns⟩ f herr
    rw [hns] at herr
    rcases seq_eq_error.mp herr with hbuild | ⟨-, hpure⟩
    · exact absurd (ensure_eq_error.mp hbuild).2 (by simp)
    · cases hpure

theorem fromConfig_ok {env : ResolverEnv} {cfg : Config.ResolverConfig} {dnssecEnabled : Bool}
    (hforwarders : ∀ f ∈ cfg.forwarders, Config.IsSocketAddr f)
    (hbuilds : ∀ nameServers opts, env.builds nameServers opts = true) :
    ∃ wrap, fromConfig env cfg dnssecEnabled = .ok wrap := by
  cases h : fromConfig env cfg dnssecEnabled with
  | ok wrap => exact ⟨wrap, rfl⟩
  | error e =>
    cases e with
    | BadForwarder f => exact absurd h (fromConfig_ne_badForwarder.mpr hforwarders f)
    | BuildResolver =>
      obtain ⟨ns, hns⟩ := mapM_isOk.mpr fun f hf => nameServer_isOk.mpr (hforwarders f hf)
      unfold fromConfig at h
      rw [hns] at h
      rcases seq_eq_error.mp h with hbuild | ⟨-, hpure⟩
      · exact absurd (hbuilds _ _) (ensure_eq_error.mp hbuild).1
      · cases hpure

end Heimdallr.Resolver
