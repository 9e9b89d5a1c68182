import Heimdallr.Net.Proxy

/-!
# Accepting a TCP connection (`net/tcp.rs`)

With the PROXY protocol enabled, `resolve_src_addr` looks at the first bytes of a connection
before anything else is read. A header found there is to be taken off the stream, and the client
it announces becomes the source of the connection's queries. The look is a single `peek` of
`PEEK_SIZE` = 16 bytes.

* The stream, the number of bytes that have arrived and the peer are arguments. The outcome is a
  source and what is left of the stream, an error, or the wait of a `peek` for a first byte that
  never comes.
* A peek of fewer than six bytes is taken for a connection without a header, and nothing is taken
  off it.
* `proxy_allow` is a list of texts. The source compares them with the printed address that was
  announced, not with that of the peer; an empty list allows everybody.
* The header is parsed from the peek, and `headerLen` of the peek is what is read off afterwards.

Results:
* `resolveSrcAddr_long`: a header of more than 16 bytes never fits, and the connection is refused.
* `resolveSrcAddr_short`: a header that fits is parsed from the peek.
* `resolveSrcAddr_ok`: what a connection comes to that is not refused.
* **`proxy_intake_iff`**: a complete header is stripped, and the right source reported, only when it
  is the bare version 2 header of the unspecified family and the peer is `0.0.0.0:0` itself.
* **`onlyTrusted_iff`**: when headers are believed from the peers of the allow list only, for any
  stream.
* **`segmentation_iff`**: when the outcome does not depend on how the bytes arrive.
-/

namespace Heimdallr.Net

/-- How many bytes `peek` looks at: the signature of version 2 and its fixed fields. -/
def peekSize : Nat := 16

/-- The errors of `resolve_src_addr`. -/
inductive ResolveError
  /-- `peek` or `read_exact` failed. -/
  | Stream (kind : ErrorKind)
  /-- `tcp: proxy source {source} not in allow list` -/
  | NotAllowed (source : SocketAddr)
  /-- `tcp: bad PROXY header from {peer}: {e}` -/
  | BadHeader (peer : SocketAddr) (e : ProxyError)
  deriving DecidableEq, Repr

/-- `header_len`: the number of bytes to take off the stream, from the bytes that were peeked. -/
def headerLen (peeked : Bytes) : ProxyVersion → Nat
  | .V1 => (crlfPos peeked).elim 0 (· + 2)
  | .V2 =>
    if 16 ≤ peeked.length then 16 + fromBeBytes [peeked.getD 14 0, peeked.getD 15 0] else 0

/-- `proxy_allow.is_empty()`, or the announced address is in the list. -/
def allowed (proxyAllow : List String) (source : SocketAddr) : Bool :=
  proxyAllow.isEmpty || proxyAllow.any fun a => a.toList == displayIp source.ip

/-- `resolve_src_addr`, when `visible` bytes have arrived at the moment of the peek: the source of
the connection and the stream after it. -/
def resolveSrcAddr (stream : Inbound) (visible : Nat) (peer : SocketAddr) (proxyEnabled : Bool)
    (proxyAllow : List String) : Outcome ResolveError (SocketAddr × Inbound) :=
  if !proxyEnabled then .ok (peer, stream)
  else do
    let peeked ← (stream.peek visible peekSize).mapErr .Stream
    if peeked.length < 6 then .ok (peer, stream)
    else
      match parseProxyHeader peeked with
      | .ok (some info) =>
        if !allowed proxyAllow info.source then .err (.NotAllowed info.source)
        else if 0 < headerLen peeked info.version then do
          let (_, stream) ← (stream.readExact (headerLen peeked info.version)).mapErr .Stream
          .ok (info.source, stream)
        else .ok (info.source, stream)
      | .ok none => .ok (peer, stream)
      | .error e => .err (.BadHeader peer e)

/-! ## One complete header -/

/-- A complete header and what the parser makes of it. -/
structure Recognised (h : Bytes) (r : Option ProxyInfo) : Prop where
  complete : Complete h
  parsed : parseProxyHeader h = .ok r

/-- The source a header announces: its address if the command is PROXY and the family one of IP
(everything in version 1, and not the unspecified family in version 2), else the peer. -/
def announced (h : Bytes) (peer : SocketAddr) : Option ProxyInfo → SocketAddr
  | some info =>
    if info.command = .Proxy ∧ (info.version = .V1 ∨ h[13]? ≠ some 0) then info.source else peer
  | none => peer

section Intake

variable {h p : Bytes} {r : Option ProxyInfo} {e : Ending} {visible : Nat}

theorem six_le_of_complete (hc : Complete h) : 6 ≤ h.length := by
  cases hc with
  | v1 hcrlf => simp [v1Prefix, ascii]
  | v2 hdata => simp [v2Fixed, v2Signature]

/-- With everything visible, the peek is the first 16 bytes. -/
theorem peek_all (hc : Complete h) (hvis : (h ++ p).length ≤ visible) :
    (Inbound.mk (h ++ p) e).peek visible peekSize = .ok ((h ++ p).take 16) := by
  have h6 := six_le_of_complete hc
  have hne : h ++ p ≠ [] := by
    intro hnil
    obtain ⟨rfl, -⟩ := List.append_eq_nil_iff.mp hnil
    simp at h6
  obtain ⟨b, rest, hcons⟩ := List.exists_cons_of_ne_nil hne
  simp only [Inbound.peek, List.take_of_length_le hvis]
  rw [hcons]
  rfl

/-- A header that does not fit into the peek is refused. -/
theorem resolveSrcAddr_long (hr : Recognised h r) (hvis : (h ++ p).length ≤ visible)
    (hlong : 16 < h.length) (peer : SocketAddr) (proxyAllow : List String) :
    ∃ err, resolveSrcAddr ⟨h ++ p, e⟩ visible peer true proxyAllow =
      .err (.BadHeader peer err) := by
  obtain ⟨err, herr⟩ := parseProxyHeader_take hr.complete hr.parsed (n := 16) (by omega) hlong
  have htake : (h ++ p).take 16 = h.take 16 := List.take_append_of_le_length (by omega)
  have hlen : ¬ (h.take 16).length < 6 := by rw [List.length_take]; omega
  refine ⟨err, ?_⟩
  simp only [resolveSrcAddr, Bool.not_true, Bool.false_eq_true, if_false,
    peek_all hr.complete hvis, Outcome.mapErr, Outcome.ok_bind, htake, if_neg hlen, herr]

/-- A header that fits is parsed; only what it announces is taken off the stream. -/
theorem resolveSrcAddr_short (hr : Recognised h r) (hvis : (h ++ p).length ≤ visible)
    (hshort : h.length ≤ 16) (peer : SocketAddr) :
    resolveSrcAddr ⟨h ++ p, e⟩ visible peer true [] =
      match r with
      | some info => .ok (info.source, ⟨p, e⟩)
      | none => .ok (peer, ⟨h ++ p, e⟩) := by
  have h6 := six_le_of_complete hr.complete
  have htake : (h ++ p).take 16 = h ++ p.take (16 - h.length) := by
    rw [List.take_append, List.take_of_length_le hshort]
  have hparse : parseProxyHeader ((h ++ p).take 16) = .ok r := by
    rw [htake, parseProxyHeader_append hr.complete, hr.parsed]
  have hlen : ¬ ((h ++ p).take 16).length < 6 := by
    rw [htake, List.length_append]
    omega
  simp only [resolveSrcAddr, Bool.not_true, Bool.false_eq_true, if_false,
    peek_all hr.complete hvis, Outcome.mapErr, Outcome.ok_bind, if_neg hlen, hparse]
  cases r with
  | none => rfl
  | some info =>
    obtain ⟨verCmd, rfl, hversion, -⟩ := short_header hr.complete hshort hr.parsed
    have hlen16 : headerLen ((v2Fixed verCmd 0 0 0 ++ p).take 16) .V2 = 16 := by
      rw [List.take_left' (v2Fixed_length verCmd 0 0 0)]
      simp [headerLen, v2Fixed, v2Signature, fromBeBytes]
    have hread := Inbound.readExact_append (v2Fixed verCmd 0 0 0) p e
    simp only [hversion, hlen16]
    rw [← v2Fixed_length verCmd 0 0 0, hread]
    rfl

/-- **When a header is stripped and its client reported**: for one header, from one peer. -/
theorem proxy_intake_iff (hr : Recognised h r) (hvis : (h ++ p).length ≤ visible)
    (peer : SocketAddr) :
    resolveSrcAddr ⟨h ++ p, e⟩ visible peer true [] = .ok (announced h peer r, ⟨p, e⟩) ↔
      (∃ verCmd, h = v2Fixed verCmd 0 0 0) ∧ peer = .V4 .unspecified 0 := by
  have h6 := six_le_of_complete hr.complete
  by_cases hlong : 16 < h.length
  · obtain ⟨err, herr⟩ := resolveSrcAddr_long (e := e) hr hvis hlong peer []
    rw [herr]
    constructor
    · intro hbad
      cases hbad
    · rintro ⟨⟨verCmd, rfl⟩, -⟩
      have hfixed := v2Fixed_length verCmd 0 0 0
      omega
  · have hshort : h.length ≤ 16 := by omega
    rw [resolveSrcAddr_short hr hvis hshort]
    cases r with
    | none =>
      constructor
      · -- nothing was taken off the stream
        intro hkept
        have hbytes := congrArg Inbound.bytes (Prod.mk.inj (Outcome.ok.inj hkept)).2
        have hnil : h = [] := by simpa using hbytes
        rw [hnil] at h6
        simp at h6
      · rintro ⟨⟨verCmd, rfl⟩, -⟩
        have hnone := hr.parsed
        rw [parse_unspec] at hnone
        cases hcmd : parseV2Command verCmd <;> rw [hcmd] at hnone <;> cases hnone
    | some info =>
      obtain ⟨verCmd, rfl, hversion, hsource⟩ := short_header hr.complete hshort hr.parsed
      have hpeer : announced (v2Fixed verCmd 0 0 0) peer (some info) = peer := by
        have hfamily : (v2Fixed verCmd 0 0 0)[13]? = some 0 := rfl
        simp [announced, hversion, hfamily]
      rw [hpeer]
      simp only [Outcome.ok.injEq, Prod.mk.injEq, and_true, hsource]
      constructor
      · intro hp
        exact ⟨⟨verCmd, rfl⟩, hp.symm⟩
      · rintro ⟨-, rfl⟩
        rfl

end Intake

/-- A DNS message (no question) as a client sends it. -/
def emptyQuery : Bytes := frame [0, 1, 1, 0, 0, 0, 0, 0, 0, 0, 0, 0]

/-- A header without an address, from a peer without one. -/
theorem proxy_intake_unspec :
    resolveSrcAddr ⟨v2Fixed 0x21 0 0 0 ++ emptyQuery, .silent⟩ 30 (.V4 .unspecified 0) true [] =
      .ok (.V4 .unspecified 0, ⟨emptyQuery, .silent⟩) := by
  have hc : Complete (v2Fixed 0x21 0 0 0 ++ []) := .v2 rfl
  rw [List.append_nil] at hc
  have hr : Recognised (v2Fixed 0x21 0 0 0) (some ⟨.V2, .Local, .V4 .unspecified 0⟩) :=
    ⟨hc, by decide⟩
  exact (proxy_intake_iff hr (by decide) (.V4 .unspecified 0)).mpr ⟨⟨0x21, rfl⟩, rfl⟩

/-- The line of a load balancer that relays for `192.168.1.100:12345`. -/
def relayedLine : Bytes :=
  v1Prefix ++ ascii "TCP4 192.168.1.100 10.0.0.1 12345 53" ++ [13, 10]

/-- A connection with that line is refused: its CRLF is beyond the 16 bytes looked at. -/
theorem proxied_connection_refused :
    let peer := SocketAddr.V4 ⟨10, 0, 0, 9⟩ 40000
    let client := SocketAddr.V4 ⟨192, 168, 1, 100⟩ 12345
    let r := some (ProxyInfo.mk .V1 .Proxy client)
    let stream := Inbound.mk (relayedLine ++ emptyQuery) .silent
    Recognised relayedLine r ∧ announced relayedLine peer r = client ∧
      resolveSrcAddr stream stream.bytes.length peer true [] =
        .err (.BadHeader peer .V1MissingCrlf) := by
  refine ⟨⟨Complete.v1 (by decide), by decide⟩, rfl, by decide⟩

/-! ## Any stream, any delivery -/

section Delivery

variable {stream : Inbound} {visible : Nat} {peer : SocketAddr} {proxyAllow : List String}

/-- The bytes a peek gives, when there are any. -/
def peeked (stream : Inbound) (visible : Nat) : Bytes := (stream.bytes.take visible).take peekSize

theorem peek_of_ne_nil (hne : stream.bytes ≠ []) :
    stream.peek visible peekSize = .ok (peeked stream visible) := by
  obtain ⟨b, rest, hcons⟩ := List.exists_cons_of_ne_nil hne
  unfold Inbound.peek peeked
  rw [hcons]

theorem peeked_length_le : (peeked stream visible).length ≤ 16 := List.length_take_le _ _

/-- A stream without a byte gives no source but the peer. -/
theorem resolveSrcAddr_nil (hnil : stream.bytes = []) :
    resolveSrcAddr stream visible peer true proxyAllow =
      match stream.ending with
      | .closed => .ok (peer, stream)
      | .broken => .err (.Stream .Other)
      | .silent => .pending := by
  obtain ⟨bytes, ending⟩ := stream
  obtain rfl : bytes = [] := hnil
  cases ending <;> rfl

theorem resolveSrcAddr_few (hne : stream.bytes ≠ []) (hfew : (peeked stream visible).length < 6) :
    resolveSrcAddr stream visible peer true proxyAllow = .ok (peer, stream) := by
  simp only [resolveSrcAddr, peek_of_ne_nil hne, Bool.not_true, Bool.false_eq_true, if_false,
    Outcome.mapErr, Outcome.ok_bind, if_pos hfew]

/-- Bytes that are no header leave the connection as it is. -/
theorem resolveSrcAddr_none (hne : stream.bytes ≠ [])
    (hparse : parseProxyHeader (peeked stream visible) = .ok none) :
    resolveSrcAddr stream visible peer true proxyAllow = .ok (peer, stream) := by
  by_cases hfew : (peeked stream visible).length < 6
  · exact resolveSrcAddr_few hne hfew
  · simp only [resolveSrcAddr, peek_of_ne_nil hne, Bool.not_true, Bool.false_eq_true, if_false,
      Outcome.mapErr, Outcome.ok_bind, if_neg hfew, hparse]

/-- A prefix of a stream begins with no signature that the stream does not begin with. -/
theorem parse_peeked_none (hv1 : ¬ v1Prefix <+: stream.bytes) (hv2 : ¬ v2Signature <+: stream.bytes) :
    parseProxyHeader (peeked stream visible) = .ok none := by
  have hpre : peeked stream visible <+: stream.bytes :=
    (List.take_prefix _ _).trans (List.take_prefix _ _)
  unfold parseProxyHeader
  rw [if_neg (fun h => hv2 ((List.isPrefixOf_iff_prefix.mp h).trans hpre)),
    if_neg (fun h => hv1 ((List.isPrefixOf_iff_prefix.mp h).trans hpre))]

/-- A header that cannot be read is refused. -/
theorem resolveSrcAddr_error (hne : stream.bytes ≠ [])
    (hmany : 6 ≤ (peeked stream visible).length) {e : ProxyError}
    (hparse : parseProxyHeader (peeked stream visible) = .error e) :
    resolveSrcAddr stream visible peer true proxyAllow = .err (.BadHeader peer e) := by
  simp only [resolveSrcAddr, peek_of_ne_nil hne, Bool.not_true, Bool.false_eq_true, if_false,
    Outcome.mapErr, Outcome.ok_bind, if_neg (Nat.not_lt.mpr hmany), hparse]

end Delivery

/-! ## Whom to believe -/

/-- The address is in the list, in the text form the check compares. -/
def listed (proxyAllow : List String) (ip : IpAddr) : Bool :=
  proxyAllow.any fun a => a.toList == displayIp ip

/-- The header of the unspecified family is there to be seen: version 2, either command, no
address data. -/
def BareHeader (stream : Inbound) (visible : Nat) : Prop :=
  16 ≤ visible ∧ ∃ verCmd, (verCmd = 0x20 ∨ verCmd = 0x21) ∧ v2Fixed verCmd 0 0 0 <+: stream.bytes

/-- A header is believed from a peer in the list, and from nobody else. -/
structure OnlyTrusted (stream : Inbound) (visible : Nat) (peer : SocketAddr) (proxyEnabled : Bool)
    (proxyAllow : List String) : Prop where
  outsider : listed proxyAllow peer.ip = false → ∀ a rest,
    resolveSrcAddr stream visible peer proxyEnabled proxyAllow = .ok (a, rest) → a = peer
  insider : listed proxyAllow peer.ip = true → ∀ source,
    resolveSrcAddr stream visible peer proxyEnabled proxyAllow ≠ .err (.NotAllowed source)

section Trust

variable {stream : Inbound} {visible : Nat} {peer : SocketAddr} {proxyAllow : List String}

/-- The bare header and a source of its own: `0.0.0.0:0`, which must be allowed. -/
theorem resolveSrcAddr_bare (hbare : BareHeader stream visible) (peer : SocketAddr)
    (proxyAllow : List String) :
    resolveSrcAddr stream visible peer true proxyAllow =
      if allowed proxyAllow (.V4 .unspecified 0) then
        .ok (.V4 .unspecified 0, { stream with bytes := stream.bytes.drop 16 })
      else .err (.NotAllowed (.V4 .unspecified 0)) := by
  obtain ⟨hvis, verCmd, hcmd, rest, hrest⟩ := hbare
  obtain ⟨bytes, ending⟩ := stream
  obtain rfl : v2Fixed verCmd 0 0 0 ++ rest = bytes := hrest
  have hfixed := v2Fixed_length verCmd 0 0 0
  have hpeek : peeked ⟨v2Fixed verCmd 0 0 0 ++ rest, ending⟩ visible = v2Fixed verCmd 0 0 0 := by
    unfold peeked
    rw [List.take_take, show min peekSize visible = 16 from by unfold peekSize; omega]
    exact List.take_left' hfixed
  obtain ⟨command, hparse⟩ : ∃ command, parseProxyHeader (v2Fixed verCmd 0 0 0) =
      .ok (some ⟨.V2, command, .V4 .unspecified 0⟩) := by
    rcases hcmd with rfl | rfl
    · exact ⟨.Proxy, by decide⟩
    · exact ⟨.Local, by decide⟩
  have hne : (Inbound.mk (v2Fixed verCmd 0 0 0 ++ rest) ending).bytes ≠ [] := by simp [v2Fixed]
  have hlen : headerLen (v2Fixed verCmd 0 0 0) .V2 = 16 := by
    simp [headerLen, v2Fixed, v2Signature, fromBeBytes]
  have hread := Inbound.readExact_append (v2Fixed verCmd 0 0 0) rest ending
  rw [hfixed] at hread
  have hdrop : (v2Fixed verCmd 0 0 0 ++ rest).drop 16 = rest := List.drop_left' hfixed
  simp only [resolveSrcAddr, peek_of_ne_nil hne, Bool.not_true,
    Bool.false_eq_true, if_false, Outcome.mapErr, Outcome.ok_bind, hpeek, hfixed, hparse, hlen,
    hread, hdrop]
  cases allowed proxyAllow (.V4 .unspecified 0) <;> rfl

/-- An address is only ever announced by a bare header. -/
theorem bareHeader_of_parsed {info : ProxyInfo}
    (hparse : parseProxyHeader (peeked stream visible) = .ok (some info)) :
    BareHeader stream visible := by
  obtain ⟨verCmd, heq, -⟩ := short_buffer peeked_length_le hparse
  have hlen := v2Fixed_length verCmd 0 0 0
  rw [← heq] at hlen
  unfold peeked at hlen heq
  rw [List.length_take, List.length_take] at hlen
  refine ⟨by omega, verCmd, ?_, ?_⟩
  · unfold peeked at hparse
    rw [heq, parse_unspec] at hparse
    cases hcmd : parseV2Command verCmd with
    | error e =>
      rw [hcmd] at hparse
      cases hparse
    | ok command => exact parseV2Command_ok hcmd
  · rw [← heq, List.take_take]
    exact List.take_prefix _ _

/-- Without a bare header the source is the peer and the stream is untouched, or the connection
fails and the list has no part in it. -/
theorem resolveSrcAddr_other (hbare : ¬ BareHeader stream visible) (peer : SocketAddr)
    (proxyAllow : List String) :
    resolveSrcAddr stream visible peer true proxyAllow = .ok (peer, stream) ∨
      (∃ e, resolveSrcAddr stream visible peer true proxyAllow = .err e ∧
        ∀ source, e ≠ .NotAllowed source) ∨
      resolveSrcAddr stream visible peer true proxyAllow = .pending := by
  by_cases hnil : stream.bytes = []
  · rw [resolveSrcAddr_nil hnil]
    cases stream.ending with
    | closed => exact Or.inl rfl
    | broken => exact Or.inr (Or.inl ⟨_, rfl, by simp⟩)
    | silent => exact Or.inr (Or.inr rfl)
  · by_cases hfew : (peeked stream visible).length < 6
    · exact Or.inl (resolveSrcAddr_few hnil hfew)
    rcases hparse : parseProxyHeader (peeked stream visible) with e | _ | info
    · exact Or.inr (Or.inl ⟨_, resolveSrcAddr_error hnil (by omega) hparse, by simp⟩)
    · exact Or.inl (resolveSrcAddr_none hnil hparse)
    · exact absurd (bareHeader_of_parsed hparse) hbare

/-- **What a connection comes to that is not refused**: the peer and the whole stream, or `0.0.0.0:0`
and what comes behind a bare header. -/
theorem resolveSrcAddr_ok {src : SocketAddr} {rest : Inbound}
    (h : resolveSrcAddr stream visible peer true proxyAllow = .ok (src, rest)) :
    src = peer ∧ rest = stream ∨
      BareHeader stream visible ∧ allowed proxyAllow src = true ∧ src = .V4 .unspecified 0 ∧
        rest = { stream with bytes := stream.bytes.drop 16 } := by
  by_cases hbare : BareHeader stream visible
  · rw [resolveSrcAddr_bare hbare] at h
    by_cases hallowed : allowed proxyAllow (.V4 .unspecified 0) = true
    · rw [if_pos hallowed] at h
      obtain ⟨rfl, rfl⟩ := Prod.mk.inj (Outcome.ok.inj h)
      exact .inr ⟨hbare, hallowed, rfl, rfl⟩
    · rw [if_neg hallowed] at h
      cases h
  · rcases resolveSrcAddr_other hbare peer proxyAllow with hok | ⟨e, herr, -⟩ | hpending
    · rw [hok] at h
      obtain ⟨rfl, rfl⟩ := Prod.mk.inj (Outcome.ok.inj h)
      exact .inl ⟨rfl, rfl⟩
    · rw [herr] at h
      cases h
    · rw [hpending] at h
      cases h

/-- A list that is not empty allows what is listed. -/
theorem allowed_eq_listed (hallow : proxyAllow ≠ []) (source : SocketAddr) :
    allowed proxyAllow source = listed proxyAllow source.ip := by
  unfold allowed listed
  rw [List.isEmpty_eq_false_iff.mpr hallow, Bool.false_or]

/-- With the bare header in sight, the two addresses have to be both in the list or both out of it. -/
theorem onlyTrusted_bare_iff (hbare : BareHeader stream visible) (hallow : proxyAllow ≠ [])
    (peer : SocketAddr) :
    OnlyTrusted stream visible peer true proxyAllow ↔
      listed proxyAllow peer.ip = listed proxyAllow (.V4 .unspecified) := by
  have hres := resolveSrcAddr_bare hbare peer proxyAllow
  rw [allowed_eq_listed hallow, show (SocketAddr.V4 .unspecified 0).ip = .V4 .unspecified from rfl]
    at hres
  constructor
  · rintro ⟨houtsider, hinsider⟩
    cases hpeer : listed proxyAllow peer.ip with
    | false =>
      cases hzero : listed proxyAllow (.V4 .unspecified) with
      | false => rfl
      | true =>
        rw [hres, hzero] at houtsider
        have heq : SocketAddr.V4 .unspecified 0 = peer := houtsider hpeer _ _ rfl
        rw [← heq] at hpeer
        exact absurd (hpeer.symm.trans hzero) (by simp)
    | true =>
      cases hzero : listed proxyAllow (.V4 .unspecified) with
      | true => rfl
      | false =>
        rw [hres, hzero] at hinsider
        exact absurd rfl (hinsider hpeer _)
  · intro heq
    refine ⟨?_, ?_⟩
    · intro hpeer a rest h
      rw [hres, ← heq, hpeer] at h
      cases h
    · intro hpeer source h
      rw [hres, ← heq, hpeer] at h
      cases h

/-- Without it, the peer stays itself and is not refused by the list. -/
theorem onlyTrusted_of_not_bare (hbare : ¬ BareHeader stream visible) (peer : SocketAddr)
    (proxyAllow : List String) : OnlyTrusted stream visible peer true proxyAllow := by
  rcases resolveSrcAddr_other hbare peer proxyAllow with
    hok | ⟨e, herr, hne⟩ | hpending
  · refine ⟨?_, ?_⟩
    · rintro - a rest h
      rw [hok] at h
      exact (Prod.mk.inj (Outcome.ok.inj h)).1.symm
    · rintro - source h
      rw [hok] at h
      cases h
  · refine ⟨?_, ?_⟩
    · rintro - a rest h
      rw [herr] at h
      cases h
    · rintro - source h
      rw [herr] at h
      exact hne source (Outcome.err.inj h)
  · refine ⟨?_, ?_⟩
    · rintro - a rest h
      rw [hpending] at h
      cases h
    · rintro - source h
      rw [hpending] at h
      cases h

/-- **When headers are believed from the peers in the list and from nobody else.** The check
compares the announced client, and the only client a peek of 16 bytes can announce is
`0.0.0.0:0`. -/
theorem onlyTrusted_iff (stream : Inbound) (visible : Nat) (peer : SocketAddr)
    (proxyEnabled : Bool) (hallow : proxyAllow ≠ []) :
    OnlyTrusted stream visible peer proxyEnabled proxyAllow ↔
      (proxyEnabled = true → BareHeader stream visible →
        listed proxyAllow peer.ip = listed proxyAllow (.V4 .unspecified)) := by
  cases proxyEnabled with
  | false =>
    refine iff_of_true ⟨?_, ?_⟩ (by simp)
    · rintro - a rest h
      cases h
      rfl
    · rintro - source h
      cases h
  | true =>
    by_cases hbare : BareHeader stream visible
    · rw [onlyTrusted_bare_iff hbare hallow]
      simp only [hbare, true_implies]
    · exact iff_of_true (onlyTrusted_of_not_bare hbare peer proxyAllow)
        (fun _ h => absurd h hbare)

end Trust

/-- A peer outside the list that sends a plain query stays itself. -/
theorem onlyTrusted_plain_query :
    OnlyTrusted ⟨emptyQuery, .silent⟩ 14 (.V4 ⟨203, 0, 113, 7⟩ 40000) true ["10.0.0.9"] := by
  refine (onlyTrusted_iff _ _ _ _ (by simp)).mpr ?_
  rintro - ⟨hvis, -⟩
  omega

/-- The load balancer in the list is refused for the address its header carries, and with
`0.0.0.0` in the list a stranger gets that address. -/
theorem trusted_peer_refused :
    let header := Inbound.mk (v2Fixed 0x20 0 0 0 ++ emptyQuery) .silent
    let balancer := SocketAddr.V4 ⟨10, 0, 0, 9⟩ 40000
    let stranger := SocketAddr.V4 ⟨203, 0, 113, 7⟩ 40000
    ¬ OnlyTrusted header 30 balancer true ["10.0.0.9"] ∧
      ¬ OnlyTrusted header 30 stranger true ["0.0.0.0"] := by
  constructor
  · intro h
    exact h.insider (by decide) (.V4 .unspecified 0) (by decide)
  · intro h
    have heq := h.outsider (by decide) (.V4 .unspecified 0) ⟨emptyQuery, .silent⟩
      (by decide)
    exact absurd heq (by decide)

/-! ## Segmentation -/

/-- The same address and the same bytes left, an error in both, or no end in both. -/
def SameResult : Outcome ResolveError (SocketAddr × Inbound) →
    Outcome ResolveError (SocketAddr × Inbound) → Prop
  | .ok a, .ok b => a = b
  | .err _, .err _ => True
  | .pending, .pending => True
  | _, _ => False

section Segmentation

variable {stream : Inbound} {visible : Nat} {peer : SocketAddr} {proxyAllow : List String}

theorem SameResult.refl (r : Outcome ResolveError (SocketAddr × Inbound)) : SameResult r r := by
  cases r <;> simp [SameResult]

/-- A peek that ends right after a signature is an error, one of a single byte is not. -/
theorem not_same_of_signature {sig : Bytes} (hsig : 6 ≤ sig.length ∧ sig.length ≤ 16)
    {e : ProxyError} (hparse : parseProxyHeader sig = .error e) (hpre : sig <+: stream.bytes) :
    ¬ SameResult (resolveSrcAddr stream 1 peer true proxyAllow)
      (resolveSrcAddr stream sig.length peer true proxyAllow) := by
  obtain ⟨rest, hrest⟩ := hpre
  have hne : stream.bytes ≠ [] := by
    rw [← hrest]
    intro hnil
    obtain ⟨rfl, -⟩ := List.append_eq_nil_iff.mp hnil
    simp at hsig
  have hone : (peeked stream 1).length < 6 := by
    unfold peeked
    rw [List.length_take, List.length_take]
    omega
  have hall : peeked stream sig.length = sig := by
    unfold peeked
    rw [← hrest, List.take_left]
    exact List.take_of_length_le hsig.2
  rw [resolveSrcAddr_few hne hone,
    resolveSrcAddr_error hne (by rw [hall]; exact hsig.1) (by rw [hall]; exact hparse)]
  exact id

/-- **When segmentation does not matter**: for a stream that does not begin with a signature. -/
theorem segmentation_iff (stream : Inbound) (peer : SocketAddr) (proxyAllow : List String) :
    (∀ v w, 0 < v → 0 < w →
        SameResult (resolveSrcAddr stream v peer true proxyAllow)
          (resolveSrcAddr stream w peer true proxyAllow)) ↔
      ¬ v1Prefix <+: stream.bytes ∧ ¬ v2Signature <+: stream.bytes := by
  constructor
  · intro h
    constructor
    · intro hv1
      exact not_same_of_signature (by decide) (by decide : parseProxyHeader v1Prefix =
        .error .V1MissingCrlf) hv1 (h 1 _ (by omega) (by decide))
    · intro hv2
      exact not_same_of_signature (by decide) (by decide : parseProxyHeader v2Signature =
        .error (.V2TooShort 12)) hv2 (h 1 _ (by omega) (by decide))
  · rintro ⟨hv1, hv2⟩ v w - -
    by_cases hnil : stream.bytes = []
    · rw [resolveSrcAddr_nil hnil, resolveSrcAddr_nil hnil]
      exact SameResult.refl _
    · have hnone : ∀ visible, parseProxyHeader (peeked stream visible) = .ok none := fun _ =>
        parse_peeked_none hv1 hv2
      rw [resolveSrcAddr_none hnil (hnone v), resolveSrcAddr_none hnil (hnone w)]
      exact SameResult.refl _

end Segmentation

/-- The same line of a load balancer, delivered in two ways: five bytes at first, or all of it. -/
theorem segmentation_matters :
    let peer := SocketAddr.V4 ⟨10, 0, 0, 9⟩ 40000
    let stream := Inbound.mk (relayedLine ++ emptyQuery) .silent
    ¬ SameResult (resolveSrcAddr stream 5 peer true [])
      (resolveSrcAddr stream stream.bytes.length peer true []) := by
  have hfew : resolveSrcAddr ⟨relayedLine ++ emptyQuery, .silent⟩ 5 (.V4 ⟨10, 0, 0, 9⟩ 40000) true
      [] = .ok (.V4 ⟨10, 0, 0, 9⟩ 40000, ⟨relayedLine ++ emptyQuery, .silent⟩) := by
    decide
  have hall : resolveSrcAddr ⟨relayedLine ++ emptyQuery, .silent⟩
      (relayedLine ++ emptyQuery).length (.V4 ⟨10, 0, 0, 9⟩ 40000) true [] =
      .err (.BadHeader (.V4 ⟨10, 0, 0, 9⟩ 40000) .V1MissingCrlf) := by
    decide
  dsimp only
  rw [hfew, hall]
  exact id

end Heimdallr.Net
