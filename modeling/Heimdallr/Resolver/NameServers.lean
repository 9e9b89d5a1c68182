import Heimdallr.Resolver.FromConfig
import Heimdallr.Net.AddrSpec
import Mathlib.Data.List.Forall2

/-!
# The name server of each forwarder (`core/resolver/mod.rs`)

`from_config` takes the address of a name server from its own forwarder, its port from the protocol
and its TLS name from the first forwarder, as the comment on `extract_tls_host` says.

`Registered` is what a name server has of its forwarder by this design. It says nothing of the port
of a forwarder that has another one than the protocol's, and nothing of the TLS name where the first
forwarder is a bracketed IPv6 address: `extract_tls_host` cuts at the first colon, which is one
within the brackets.

* `fromConfig_eq`: the resolver is built from the forwarders' name servers and, after them, the
  system's own.
* **`fromConfig_registers`**: what each of them has of its forwarder.
* `one_name_for_all`: the TLS name is right for the first forwarder only.
-/

namespace Heimdallr

/-- `SocketAddr::port`. -/
def SocketAddr.port : SocketAddr → UInt16
  | .V4 _ port => port
  | .V6 _ port _ _ => port

namespace Resolver

open Heimdallr.Lib Heimdallr.Net

/-- The name the server is to prove in TLS. -/
def ProtocolConfig.serverName : ProtocolConfig → Option Text
  | .Udp | .Tcp => none
  | .Tls name | .Https name _ | .Quic name => some name

/-- The host of a forwarder: between the brackets, or before the colon. -/
def forwarderHost (f : String) : Text :=
  match f.toList with
  | '[' :: rest => rest.takeWhile (· ≠ ']')
  | t => t.takeWhile (· ≠ ':')

/-- The protocols with TLS. -/
def encryptedProtocols : List String := ["dot", "doh", "doq"]

/-- The forwarder's own address, port and host. -/
def AsConfigured (f : String) (ns : NameServerConfig) : Prop :=
  ∃ addr, parseSocketAddr f.toList = some addr ∧ ns.ip = addr.ip ∧ ns.port = addr.port ∧
    ∀ name, ns.protocol.serverName = some name → name = forwarderHost f

/-- The forwarder's own address, its port where that is the protocol's, and the host of the first
forwarder where that is an IPv4 address. -/
structure Registered (cfg : Config.ResolverConfig) (f : String) (ns : NameServerConfig) : Prop where
  address : ∃ addr, parseSocketAddr f.toList = some addr ∧ ns.ip = addr.ip ∧
    (addr.port = ns.protocol.defaultPort → ns.port = addr.port)
  tlsName : cfg.forwardProtocol ∈ encryptedProtocols → ∀ first ∈ cfg.forwarders.head?,
    (∃ ip port, parseSocketAddr first.toList = some (.V4 ip port)) →
      ns.protocol.serverName = some (forwarderHost first)

/-! ## The texts of forwarders -/

/-- A text that begins with a bracket is no IPv4 address. -/
theorem parseSocketAddr_bracket {rest : Text} {ip : Ipv4Addr} {port : UInt16} :
    parseSocketAddr ('[' :: rest) ≠ some (.V4 ip port) := by
  intro h
  have hv4 : Reader.socketAddrV4 ('[' :: rest) = none := by
    have hbracket : toDigit 16 '[' = none := by decide
    rw [Reader.socketAddrV4, Reader.ipv4_eq_none hbracket]
    rfl
  rw [parseSocketAddr, Reader.parseWith_eq_some, hv4, Option.none_or] at h
  unfold Reader.socketAddrV6 at h
  obtain ⟨⟨⟨⟩, t₁⟩, -, h⟩ := Option.bind_eq_some_iff.mp h
  obtain ⟨⟨ip₁, t₂⟩, -, h⟩ := Option.bind_eq_some_iff.mp h
  obtain ⟨⟨⟨⟩, t₃⟩, -, h⟩ := Option.bind_eq_some_iff.mp h
  obtain ⟨⟨port₁, t₄⟩, -, h⟩ := Option.bind_eq_some_iff.mp h
  cases h

/-- The host of an IPv4 forwarder is what `extract_tls_host` takes of it. -/
theorem extractTlsHost_eq {cfg : Config.ResolverConfig} {first : String}
    (hfirst : first ∈ cfg.forwarders.head?) {ip : Ipv4Addr} {port : UInt16}
    (hv4 : parseSocketAddr first.toList = some (.V4 ip port)) :
    extractTlsHost cfg = forwarderHost first := by
  obtain ⟨more, hcfg⟩ := List.head?_eq_some_iff.mp hfirst
  unfold extractTlsHost forwarderHost
  rw [hcfg]
  dsimp only
  split
  · rename_i rest hbracket
    rw [hbracket] at hv4
    exact absurd hv4 parseSocketAddr_bracket
  · rfl

theorem forwardProtocol_serverName {cfg : Config.ResolverConfig}
    (h : cfg.forwardProtocol ∈ encryptedProtocols) :
    (forwardProtocol cfg).serverName = some (extractTlsHost cfg) := by
  unfold forwardProtocol
  simp only [encryptedProtocols, List.mem_cons, List.not_mem_nil, or_false] at h
  rcases h with h | h | h <;> rw [h] <;> rfl

/-! ## The name servers -/

theorem registered_of_nameServer {cfg : Config.ResolverConfig} {f : String} {ns : NameServerConfig}
    (h : nameServer cfg f = .ok ns) : Registered cfg f ns := by
  unfold nameServer at h
  split at h
  · rename_i addr haddr
    obtain rfl := Except.ok.inj h
    refine ⟨⟨addr, haddr, rfl, Eq.symm⟩, ?_⟩
    rintro hprotocol first hfirst ⟨ip, port, hv4⟩
    rw [NameServerConfig.ofProtocol, forwardProtocol_serverName hprotocol,
      extractTlsHost_eq hfirst hv4]
  · cases h

theorem fromConfig_eq {env : ResolverEnv} {cfg : Config.ResolverConfig} {dnssecEnabled : Bool}
    {own : List NameServerConfig} (h : cfg.forwarders.mapM (nameServer cfg) = .ok own) :
    fromConfig env cfg dnssecEnabled =
      if env.builds (own ++ systemServers env) (resolverOpts cfg dnssecEnabled) then
        .ok ⟨own ++ systemServers env, resolverOpts cfg dnssecEnabled, dnssecEnabled⟩
      else .error .BuildResolver := by
  unfold fromConfig ensure
  rw [h]
  show (if _ then Except.ok () else _) >>= _ = _
  split <;> rfl

/-- **What every name server has of its forwarder**, in the order of the forwarders. -/
theorem fromConfig_registers (env : ResolverEnv) (cfg : Config.ResolverConfig)
    (dnssecEnabled : Bool) (hforwarders : ∀ f ∈ cfg.forwarders, Config.IsSocketAddr f) :
    ∃ own, List.Forall₂ (Registered cfg) cfg.forwarders own ∧
      fromConfig env cfg dnssecEnabled =
        if env.builds (own ++ systemServers env) (resolverOpts cfg dnssecEnabled) then
          .ok ⟨own ++ systemServers env, resolverOpts cfg dnssecEnabled, dnssecEnabled⟩
        else .error .BuildResolver := by
  obtain ⟨own, hown⟩ := mapM_isOk.mpr fun f hf => nameServer_isOk.mpr (hforwarders f hf)
  exact ⟨own, (mapM_eq_ok.mp hown).imp fun _ _ => registered_of_nameServer, fromConfig_eq hown⟩

/-- A machine without systemd-resolved. -/
def plainEnv : ResolverEnv := ⟨false, none, fun _ _ => true⟩

theorem fromConfig_registers_dot :
    ∃ own, List.Forall₂ (Registered { forwarders := ["1.1.1.1:853"], forwardProtocol := "dot" })
        ["1.1.1.1:853"] own ∧
      fromConfig plainEnv { forwarders := ["1.1.1.1:853"], forwardProtocol := "dot" } true =
        .ok ⟨own ++ systemServers plainEnv,
          resolverOpts { forwarders := ["1.1.1.1:853"], forwardProtocol := "dot" } true, true⟩ :=
  fromConfig_registers plainEnv { forwarders := ["1.1.1.1:853"], forwardProtocol := "dot" } true
    (by decide)

/-- Two forwarders over TLS, each at the port of the protocol: the second has to prove the name of the
first. -/
theorem one_name_for_all :
    let cfg : Config.ResolverConfig :=
      { forwarders := ["1.1.1.1:853", "8.8.8.8:853"], forwardProtocol := "dot" }
    ∃ wrap, fromConfig plainEnv cfg true = .ok wrap ∧
      ¬ List.Forall₂ AsConfigured cfg.forwarders (wrap.nameServers.take cfg.forwarders.length) := by
  intro cfg
  refine ⟨⟨[⟨.V4 ⟨1, 1, 1, 1⟩, 853, .Tls "1.1.1.1".toList⟩,
    ⟨.V4 ⟨8, 8, 8, 8⟩, 853, .Tls "1.1.1.1".toList⟩], resolverOpts cfg true, true⟩,
    by decide, ?_⟩
  intro h
  obtain ⟨addr, -, -, -, hname⟩ := (List.forall₂_cons.mp (List.forall₂_cons.mp h).2).1
  have hown : forwarderHost "8.8.8.8:853" = "8.8.8.8".toList := by decide
  have hsame := hname _ rfl
  rw [hown] at hsame
  exact absurd hsame (by decide)

end Resolver

end Heimdallr
