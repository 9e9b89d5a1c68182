import Heimdallr.Net.Tcp

/-!
# Which headers are accepted, and where they end (`net/proxy.rs`, `net/tcp.rs`)

The length of a header is computed apart from its parsing (`headerLen`), by a search for the CRLF or
from the length field. The two have to agree: the bytes that are taken off the stream must be those
the parser has looked at, or the first message begins in the wrong place.

* The grammar of a line is the format in the module's documentation: six fields with single blanks
  between them. Of these the parser looks at the second, the third and the fifth, and at the rest
  not at all.
* A prefix of a buffer is a buffer too, so what is said of every buffer is said of every cut of one.

Results:
* `parseV1Fields_eq_some_iff`: the lines that give an address.
* **`header_end`**: no buffer makes the parser panic, and the bytes `headerLen` tells to take off
  the stream are those the parser has looked at.
* **`v1_grammar_iff`**: when a line is read as the format says.
-/

namespace Heimdallr.Net

/-! ## No access out of range -/

theorem index_of_lt {α : Type} {xs : List α} {i : Nat} (h : i < xs.length) :
    index xs i = .ok xs[i] := by
  unfold index
  rw [List.getElem?_eq_getElem h]

theorem orErr_ne_panic {α : Type} {e : ProxyError} (h : e ≠ .Panic) (o : Option α) :
    orErr e o ≠ .error .Panic := by
  cases o with
  | none => simpa [orErr] using h
  | some a => simp [orErr]

/-- A computation panics in its first step or after it. -/
theorem bind_ne_panic {α β : Type} {x : Except ProxyError α} {f : α → Except ProxyError β}
    (hx : x ≠ .error .Panic) (hf : ∀ a, x = .ok a → f a ≠ .error .Panic) :
    (x >>= f) ≠ .error .Panic := by
  cases x with
  | error e => exact fun h => hx (congrArg _ (Except.error.inj h))
  | ok a => exact hf a rfl

theorem parseV1Source_ne_panic {α : Type} (family : ProxyFamily) (parseIp : Text → Option α)
    (newAddr : α → UInt16 → SocketAddr) (parts : List Text) :
    parseV1Source family parseIp newAddr parts ≠ .error .Panic := by
  unfold parseV1Source
  split
  · simp
  · rename_i hlen
    rw [index_of_lt (show 2 < parts.length by omega), index_of_lt (show 4 < parts.length by omega)]
    refine bind_ne_panic (by simp) fun f₂ _ => ?_
    refine bind_ne_panic (orErr_ne_panic (by simp) _) fun ip _ => ?_
    refine bind_ne_panic (by simp) fun f₄ _ => ?_
    refine bind_ne_panic (orErr_ne_panic (by simp) _) fun port _ => ?_
    simp

theorem parseV1Fields_ne_panic (parts : List Text) : parseV1Fields parts ≠ .error .Panic := by
  unfold parseV1Fields
  dsimp only
  split
  · simp
  · split
    · exact parseV1Source_ne_panic _ _ _ _
    · split
      · exact parseV1Source_ne_panic _ _ _ _
      · simp

theorem parseV1_ne_panic (buf : Bytes) : parseV1 buf ≠ .error .Panic := by
  cases hcrlf : crlfPos buf with
  | none =>
    unfold parseV1
    rw [hcrlf]
    exact bind_ne_panic (orErr_ne_panic (by simp) _) (by simp [orErr])
  | some k =>
    rw [parseV1_eq hcrlf]
    split
    · simp
    · split
      · simp
      · exact parseV1Fields_ne_panic _

theorem parseV2Address_ne_panic {f : V2Fields} {addrData : Bytes}
    (h : addrData.length = f.addrLen) : parseV2Address f addrData ≠ .error .Panic := by
  unfold parseV2Address
  split
  · split
    · simp
    · rw [index_of_lt (show 0 < addrData.length by omega),
        index_of_lt (show 1 < addrData.length by omega),
        index_of_lt (show 2 < addrData.length by omega),
        index_of_lt (show 3 < addrData.length by omega),
        index_of_lt (show 8 < addrData.length by omega),
        index_of_lt (show 9 < addrData.length by omega)]
      simp [bind, Except.bind]
  · split
    · split
      · simp
      · have hindex : (fun i : Fin 16 => index addrData i) =
            fun i => (pure addrData[i.val] : Except ProxyError UInt8) := by
          funext i
          exact index_of_lt (by omega)
        rw [hindex, Vector.ofFnM_pure, index_of_lt (show 32 < addrData.length by omega),
          index_of_lt (show 33 < addrData.length by omega)]
        simp [bind, Except.bind, pure, Except.pure]
    · split
      · simp
      · split <;> simp

theorem parseV2Command_ne_panic (verCmd : UInt8) : parseV2Command verCmd ≠ .error .Panic := by
  unfold parseV2Command
  dsimp only
  split
  · simp
  · split
    · simp
    · split <;> simp

/-- A buffer with the signature and 16 bytes. -/
theorem v2Fixed_of_length {q : Bytes} (h : 16 ≤ (v2Signature ++ q).length) :
    ∃ verCmd family hi lo rest,
      v2Signature ++ q = v2Fixed verCmd family hi lo ++ rest := by
  have h12 : v2Signature.length = 12 := rfl
  rw [List.length_append, h12] at h
  rcases q with _ | ⟨verCmd, _ | ⟨family, _ | ⟨hi, _ | ⟨lo, rest⟩⟩⟩⟩
  iterate 4 · simp at h
  exact ⟨verCmd, family, hi, lo, rest, rfl⟩

theorem parseV2_ne_panic (q : Bytes) : parseV2 (v2Signature ++ q) ≠ .error .Panic := by
  by_cases hlen : (v2Signature ++ q).length < 16
  · unfold parseV2
    rw [if_pos hlen]
    simp
  · obtain ⟨verCmd, family, hi, lo, rest, heq⟩ := v2Fixed_of_length (Nat.not_lt.mp hlen)
    rw [heq, parseV2_fixed]
    have hcommand := parseV2Command_ne_panic verCmd
    split
    · rename_i e he
      rw [he] at hcommand
      intro h
      exact hcommand (congrArg _ (Except.error.inj h))
    · split
      · simp
      · rename_i hmore
        exact parseV2Address_ne_panic (List.length_take_of_le (Nat.not_lt.mp hmore))

/-- **No buffer makes the parser panic.** -/
theorem parseProxyHeader_ne_panic (buf : Bytes) : parseProxyHeader buf ≠ .error .Panic := by
  unfold parseProxyHeader
  split
  · rename_i hsig
    obtain ⟨q, rfl⟩ := List.isPrefixOf_iff_prefix.mp hsig
    exact parseV2_ne_panic q
  · split
    · exact parseV1_ne_panic buf
    · simp

/-! ## The fields that are read -/

namespace ProxyFamily

/-- The word for the family in a header. -/
def word : ProxyFamily → Text
  | .TCP4 => "TCP4".toList
  | .TCP6 => "TCP6".toList

/-- A text as an address of the family, with a port. -/
def endpoint : ProxyFamily → Text → UInt16 → Option SocketAddr
  | .TCP4, t, port => (parseIpv4 t).map (.V4 · port)
  | .TCP6, t, port => (parseIpv6 t).map (.V6 · port 0 0)

/-- The text is an address of the family. -/
def isAddress : ProxyFamily → Text → Bool
  | .TCP4, t => (parseIpv4 t).isSome
  | .TCP6, t => (parseIpv6 t).isSome

theorem word_inj {f g : ProxyFamily} (h : f.word = g.word) : f = g := by
  cases f <;> cases g <;> first | rfl | exact absurd h (by decide)

theorem word_ne_unknown (f : ProxyFamily) : f.word ≠ "UNKNOWN".toList := by
  cases f <;> decide

theorem isAddress_of_endpoint {f : ProxyFamily} {t : Text} {port : UInt16} {a : SocketAddr}
    (h : f.endpoint t port = some a) : f.isAddress t := by
  cases f <;>
  · obtain ⟨ip, hip, -⟩ := Option.map_eq_some_iff.mp h
    simp [isAddress, hip]

theorem exists_endpoint {f : ProxyFamily} {t : Text} (h : f.isAddress t) (port : UInt16) :
    ∃ a, f.endpoint t port = some a := by
  cases f <;>
  · obtain ⟨ip, hip⟩ := Option.isSome_iff_exists.mp h
    exact ⟨_, by rw [endpoint, hip, Option.map_some]⟩

end ProxyFamily

/-- What `parse_v1` looks at in a line with an address: the fields 1, 2 and 4. -/
def SourceLine (fields : List Text) (info : ProxyInfo) : Prop :=
  ∃ (family : ProxyFamily) (src srcPort : Text) (port : UInt16) (source : SocketAddr),
    fields[1]? = some family.word ∧ fields[2]? = some src ∧ fields[4]? = some srcPort ∧
      parseU16 srcPort = some port ∧ family.endpoint src port = some source ∧
      info = ⟨.V1, .Proxy, source⟩

/-- The source of a line, from its third and its fifth field. -/
theorem parseV1Source_eq_some_iff {α : Type} {family : ProxyFamily} {parseIp : Text → Option α}
    {newAddr : α → UInt16 → SocketAddr}
    (hend : ∀ t port, family.endpoint t port = (parseIp t).map (newAddr · port))
    {parts : List Text} {info : ProxyInfo} :
    parseV1Source family parseIp newAddr parts = .ok (some info) ↔
      ∃ src srcPort port source, parts[2]? = some src ∧ parts[4]? = some srcPort ∧
        parseU16 srcPort = some port ∧ family.endpoint src port = some source ∧
        info = ⟨.V1, .Proxy, source⟩ := by
  constructor
  · intro h
    obtain ⟨ip, port, hip, hport, heq⟩ := parseV1Source_eq_ok h
    obtain ⟨src, hsrc, hip⟩ := Option.bind_eq_some_iff.mp hip
    obtain ⟨srcPort, hsrcPort, hport⟩ := Option.bind_eq_some_iff.mp hport
    refine ⟨src, srcPort, port, newAddr ip port, hsrc, hsrcPort, hport, ?_, Option.some.inj heq⟩
    rw [hend, hip, Option.map_some]
  · rintro ⟨src, srcPort, port, source, hsrc, hsrcPort, hport, hsource, rfl⟩
    rw [hend] at hsource
    obtain ⟨ip, hip, rfl⟩ := Option.map_eq_some_iff.mp hsource
    obtain ⟨hlen, -⟩ := List.getElem?_eq_some_iff.mp hsrcPort
    unfold parseV1Source index
    rw [if_neg (by omega), hsrc, hsrcPort]
    show (orErr _ (parseIp src) >>= fun a => orErr _ (parseU16 srcPort) >>= fun b => _) = _
    rw [hip, hport]
    rfl

/-- The two branches with an address, one for each family. -/
theorem parseV1Fields_family {fields : List Text} {family : ProxyFamily}
    (h : fields[1]? = some family.word) {info : ProxyInfo} :
    parseV1Fields fields = .ok (some info) ↔
      ∃ src srcPort port source, fields[2]? = some src ∧ fields[4]? = some srcPort ∧
        parseU16 srcPort = some port ∧ family.endpoint src port = some source ∧
        info = ⟨.V1, .Proxy, source⟩ := by
  have hproto : fields.getD 1 "UNKNOWN".toList = family.word := by
    rw [List.getD_eq_getElem?_getD, h, Option.getD_some]
  unfold parseV1Fields
  simp only [hproto, if_neg family.word_ne_unknown]
  cases family with
  | TCP4 =>
    rw [if_pos (show ProxyFamily.TCP4.word = "TCP4".toList from rfl)]
    exact parseV1Source_eq_some_iff fun _ _ => rfl
  | TCP6 =>
    rw [if_neg (by decide), if_pos (show ProxyFamily.TCP6.word = "TCP6".toList from rfl)]
    exact parseV1Source_eq_some_iff fun _ _ => rfl

/-- Without the word of a family in its second field a line gives no address. -/
theorem parseV1Fields_other {fields : List Text}
    (h : ∀ family : ProxyFamily, fields.getD 1 "UNKNOWN".toList ≠ family.word) :
    parseV1Fields fields =
      if fields.getD 1 "UNKNOWN".toList = "UNKNOWN".toList then .ok none
      else .error (.V1UnsupportedProtocol (fields.getD 1 "UNKNOWN".toList)) := by
  unfold parseV1Fields
  dsimp only
  rw [if_neg (show fields.getD 1 "UNKNOWN".toList ≠ "TCP4".toList from h .TCP4),
    if_neg (show fields.getD 1 "UNKNOWN".toList ≠ "TCP6".toList from h .TCP6)]

theorem parseV1Fields_eq_some_iff {fields : List Text} {info : ProxyInfo} :
    parseV1Fields fields = .ok (some info) ↔ SourceLine fields info := by
  constructor
  · intro h
    by_cases hfamily : ∃ family : ProxyFamily, fields.getD 1 "UNKNOWN".toList = family.word
    · obtain ⟨family, hproto⟩ := hfamily
      have hword : fields[1]? = some family.word := by
        rw [List.getD_eq_getElem?_getD] at hproto
        cases hfield : fields[1]? with
        | none =>
          rw [hfield, Option.getD_none] at hproto
          exact absurd hproto.symm family.word_ne_unknown
        | some w => rw [hfield, Option.getD_some] at hproto; rw [hproto]
      obtain ⟨src, srcPort, port, source, hsource⟩ := (parseV1Fields_family hword).mp h
      exact ⟨family, src, srcPort, port, source, hword, hsource⟩
    · rw [parseV1Fields_other (not_exists.mp hfamily)] at h
      split at h <;> cases h
  · rintro ⟨family, src, srcPort, port, source, hword, hsource⟩
    exact (parseV1Fields_family hword).mpr ⟨src, srcPort, port, source, hsource⟩

theorem parseV1Fields_eq_none_iff {fields : List Text} :
    parseV1Fields fields = .ok none ↔ fields.getD 1 "UNKNOWN".toList = "UNKNOWN".toList := by
  constructor
  · intro h
    unfold parseV1Fields at h
    dsimp only at h
    split at h
    · assumption
    · split at h
      · obtain ⟨ip, port, -, -, hnone⟩ := parseV1Source_eq_ok h
        cases hnone
      · split at h
        · obtain ⟨ip, port, -, -, hnone⟩ := parseV1Source_eq_ok h
          cases hnone
        · cases h
  · intro h
    unfold parseV1Fields
    exact if_pos h

/-! ## Where a header ends -/

/-- The two tests of `parse_proxy_header` exclude each other, and one of them has found something. -/
theorem signature_of_ok {buf : Bytes} {info : ProxyInfo}
    (h : parseProxyHeader buf = .ok (some info)) :
    (∃ q, buf = v2Signature ++ q ∧ parseV2 buf = .ok (some info)) ∨
      ∃ q, buf = v1Prefix ++ q ∧ parseV1 buf = .ok (some info) := by
  unfold parseProxyHeader at h
  split at h
  · rename_i hsig
    obtain ⟨q, rfl⟩ := List.isPrefixOf_iff_prefix.mp hsig
    exact .inl ⟨q, rfl, h⟩
  · split at h
    · rename_i hpre
      obtain ⟨q, rfl⟩ := List.isPrefixOf_iff_prefix.mp hpre
      exact .inr ⟨q, rfl, h⟩
    · cases h

theorem parseV1_version {buf : Bytes} {info : ProxyInfo} (h : parseV1 buf = .ok (some info)) :
    info.version = .V1 := by
  obtain ⟨k, hk, -⟩ := bind_eq_ok h
  rw [parseV1_eq (orErr_eq_ok hk)] at h
  split at h
  · cases h
  · split at h
    · cases h
    · obtain ⟨family, src, srcPort, port, source, -, -, -, -, -, rfl⟩ :=
        parseV1Fields_eq_some_iff.mp h
      rfl

theorem parseV2Address_version {f : V2Fields} {addrData : Bytes} {info : ProxyInfo}
    (h : parseV2Address f addrData = .ok (some info)) : info.version = .V2 := by
  unfold parseV2Address at h
  split at h
  · split at h
    · cases h
    · obtain ⟨a, -, h⟩ := bind_eq_ok h
      obtain ⟨b, -, h⟩ := bind_eq_ok h
      obtain ⟨c, -, h⟩ := bind_eq_ok h
      obtain ⟨d, -, h⟩ := bind_eq_ok h
      obtain ⟨hi, -, h⟩ := bind_eq_ok h
      obtain ⟨lo, -, h⟩ := bind_eq_ok h
      rw [← Option.some.inj (Except.ok.inj h)]
  · split at h
    · split at h
      · cases h
      · obtain ⟨octets, -, h⟩ := bind_eq_ok h
        obtain ⟨hi, -, h⟩ := bind_eq_ok h
        obtain ⟨lo, -, h⟩ := bind_eq_ok h
        rw [← Option.some.inj (Except.ok.inj h)]
    · split at h
      · rw [← Option.some.inj (Except.ok.inj h)]
      · split at h <;> cases h

/-- A header that gives an address stands at the front of the buffer, and `headerLen` finds its
end. -/
theorem exists_header {buf : Bytes} {info : ProxyInfo}
    (h : parseProxyHeader buf = .ok (some info)) :
    ∃ hd rest, buf = hd ++ rest ∧ Complete hd ∧ headerLen buf info.version = hd.length := by
  rcases signature_of_ok h with ⟨q, hq, hok⟩ | ⟨q, hq, hok⟩
  · by_cases hlen : buf.length < 16
    · unfold parseV2 at hok
      rw [if_pos hlen] at hok
      cases hok
    · obtain ⟨verCmd, family, hi, lo, rest, heq⟩ := v2Fixed_of_length (q := q) (by rw [← hq]; omega)
      rw [← hq] at heq
      rw [heq, parseV2_fixed] at hok
      split at hok
      · cases hok
      · split at hok
        · cases hok
        · rename_i hmore
          have hdata : (rest.take (fromBeBytes [hi, lo])).length = fromBeBytes [hi, lo] :=
            List.length_take_of_le (Nat.not_lt.mp hmore)
          refine ⟨v2Fixed verCmd family hi lo ++ rest.take (fromBeBytes [hi, lo]),
            rest.drop (fromBeBytes [hi, lo]), ?_, .v2 hdata, ?_⟩
          · rw [List.append_assoc, List.take_append_drop, heq]
          · have h14 : buf.getD 14 0 = hi := by rw [heq]; rfl
            have h15 : buf.getD 15 0 = lo := by rw [heq]; rfl
            rw [parseV2Address_version hok, headerLen, if_pos (Nat.not_lt.mp hlen), h14, h15,
              List.length_append, v2Fixed_length, hdata]
  · obtain ⟨k, hk, -⟩ := bind_eq_ok hok
    have hpos := orErr_eq_ok hk
    obtain ⟨htake, hcrlf⟩ := take_crlfPos hpos
    have hlt := crlfPos_lt hpos
    have h6 : 6 ≤ k := by
      rw [hq] at hpos
      exact crlfPos_v1Prefix hpos
    have hline : buf.take k = v1Prefix ++ q.take (k - 6) := by
      rw [hq, List.take_append, List.take_of_length_le h6]
      rfl
    have hlen : (v1Prefix ++ q.take (k - 6)).length = k := by
      rw [← hline, List.length_take_of_le (by omega)]
    rw [htake, hline] at hcrlf
    refine ⟨buf.take (k + 2), buf.drop (k + 2), (List.take_append_drop _ _).symm, ?_, ?_⟩
    · rw [htake, hline]
      exact .v1 (by rw [hcrlf, hlen])
    · rw [parseV1_version hok, headerLen, hpos, List.length_take_of_le hlt]
      rfl

/-- A header that gives an address gives none when it is cut short. -/
theorem parseProxyHeader_cut {hd : Bytes} (hc : Complete hd) {r : Option ProxyInfo}
    (hok : parseProxyHeader hd = .ok r) {n : Nat} (hn : n < hd.length) (info : ProxyInfo) :
    parseProxyHeader (hd.take n) ≠ .ok (some info) := by
  intro hcut
  by_cases h16 : 16 ≤ n
  · obtain ⟨e, he⟩ := parseProxyHeader_take hc hok h16 hn
    rw [he] at hcut
    cases hcut
  · have hlen : (hd.take n).length = n := List.length_take_of_le (by omega)
    obtain ⟨verCmd, heq, -⟩ := short_buffer (by omega) hcut
    rw [heq, v2Fixed_length] at hlen
    omega

/-- **The parser and the stripper agree on where a header ends.** -/
theorem header_end (buf : Bytes) :
    parseProxyHeader buf ≠ .error .Panic ∧
      ∀ info, parseProxyHeader buf = .ok (some info) →
        0 < headerLen buf info.version ∧ headerLen buf info.version ≤ buf.length ∧
          (∀ q, parseProxyHeader (buf.take (headerLen buf info.version) ++ q) = .ok (some info)) ∧
          ∀ n < headerLen buf info.version, ∀ info',
            parseProxyHeader (buf.take n) ≠ .ok (some info') := by
  refine ⟨parseProxyHeader_ne_panic buf, ?_⟩
  intro info h
  obtain ⟨hd, rest, rfl, hc, hlen⟩ := exists_header h
  have h6 := six_le_of_complete hc
  have hok : parseProxyHeader hd = .ok (some info) := by rw [← parseProxyHeader_append hc rest, h]
  rw [hlen]
  refine ⟨by omega, by simp, ?_, ?_⟩
  · intro q
    rw [List.take_left, parseProxyHeader_append hc, hok]
  · intro n hn info'
    rw [List.take_append_of_le_length (by omega)]
    exact parseProxyHeader_cut hc hok hn info'

/-! ## The grammar of version 1 -/

/-- The fields of a line: what stands between single spaces before the first CRLF. -/
def lineFields (buf : Bytes) : Option (List Text) :=
  (crlfPos buf).bind fun k => (fromUtf8 (buf.take k)).map (·.splitOn ' ')

/-- A port in 0..65535, in decimal digits. -/
def portNumber (t : Text) : Option UInt16 := if t.head? = some '+' then none else parseU16 t

theorem parseU16_of_portNumber {t : Text} {n : UInt16} (h : portNumber t = some n) :
    parseU16 t = some n := by
  unfold portNumber at h
  split at h
  · cases h
  · exact h

/-- `PROXY TCP4 <src-ip> <dst-ip> <src-port> <dst-port>`, and what it says of the source. -/
inductive V1Line : List Text → ProxyInfo → Prop
  | mk (family : ProxyFamily) {src dst srcPort dstPort : Text} {port : UInt16}
      {source : SocketAddr} (hdst : family.isAddress dst) (hsrcPort : portNumber srcPort = some port)
      (hdstPort : (portNumber dstPort).isSome) (hsource : family.endpoint src port = some source) :
      V1Line ["PROXY".toList, family.word, src, dst, srcPort, dstPort] ⟨.V1, .Proxy, source⟩

/-- The parser and the grammar agree on a buffer. -/
structure FollowsGrammar (buf : Bytes) : Prop where
  accepts : ∀ info, parseProxyHeader buf = .ok (some info) ↔
    ∃ fields, lineFields buf = some fields ∧ V1Line fields info
  unknown : parseProxyHeader buf = .ok none ↔
    ∃ fields, lineFields buf = some fields ∧ fields[1]? = some "UNKNOWN".toList
  other : (∀ fields, lineFields buf = some fields →
      fields[1]? ≠ some "UNKNOWN".toList ∧ ∀ info, ¬ V1Line fields info) →
    ∃ e, parseProxyHeader buf = .error e

/-- Fields with a source in the third and the fifth place are six, and right in the rest. -/
def SourceDecides (fields : List Text) : Prop :=
  ∀ family : ProxyFamily, fields[1]? = some family.word →
    fields[2]?.any family.isAddress → fields[4]?.any (fun t => (parseU16 t).isSome) →
      fields.length = 6 ∧ fields[3]?.any family.isAddress ∧
        fields[4]?.any (·.head? ≠ some '+') ∧ fields[5]?.any fun t => (portNumber t).isSome

/-- The line of a buffer that begins with `PROXY `: its first field is that word, and there is a
second. -/
theorem lineFields_v1Prefix {q : Bytes} {fields : List Text}
    (h : lineFields (v1Prefix ++ q) = some fields) :
    (∃ t : Text, fields = "PROXY".toList :: t.splitOn ' ') ∧
      parseProxyHeader (v1Prefix ++ q) = parseV1Fields fields := by
  obtain ⟨k, hpos, h⟩ := Option.bind_eq_some_iff.mp h
  obtain ⟨header, hheader, rfl⟩ := Option.map_eq_some_iff.mp h
  have h6 := crlfPos_v1Prefix hpos
  have hline : (v1Prefix ++ q).take k = v1Prefix ++ q.take (k - 6) := by
    rw [List.take_append, List.take_of_length_le h6]
    rfl
  have hspace : ' ' ∉ "PROXY".toList := by decide
  have htext := hheader
  rw [hline, fromUtf8_v1Prefix] at htext
  obtain ⟨t, -, rfl⟩ := Option.map_eq_some_iff.mp htext
  have hsplit : ("PROXY ".toList ++ t).splitOn ' ' = "PROXY".toList :: t.splitOn ' ' :=
    List.splitOn_append_cons_self_of_not_mem hspace t
  have hmore : 0 < (t.splitOn ' ').length := List.length_pos_iff.mpr (List.splitOn_ne_nil _ _)
  refine ⟨⟨t, hsplit⟩, ?_⟩
  rw [parseProxyHeader_v1, parseV1_eq hpos, hheader]
  dsimp only
  rw [hsplit]
  exact if_neg (by rw [List.length_cons]; omega)

/-- A buffer without a line of text is refused. -/
theorem parseProxyHeader_no_line {q : Bytes} (h : lineFields (v1Prefix ++ q) = none) :
    ∃ e, parseProxyHeader (v1Prefix ++ q) = .error e := by
  rw [parseProxyHeader_v1]
  cases hpos : crlfPos (v1Prefix ++ q) with
  | none =>
    refine ⟨.V1MissingCrlf, ?_⟩
    rw [parseV1, hpos]
    rfl
  | some k =>
    refine ⟨.V1NotUtf8, ?_⟩
    rw [lineFields, hpos, Option.bind_some, Option.map_eq_none_iff] at h
    rw [parseV1_eq hpos, h]

/-- A line of the grammar is one the parser accepts. -/
theorem sourceLine_of_v1Line {fields : List Text} {info : ProxyInfo} (h : V1Line fields info) :
    SourceLine fields info := by
  obtain ⟨family, hdst, hsrcPort, hdstPort, hsource⟩ := h
  exact ⟨family, _, _, _, _, rfl, rfl, rfl, parseU16_of_portNumber hsrcPort, hsource, rfl⟩

/-- A line whose fields 1, 2 and 4 give a source is accepted, with that source. -/
theorem exists_sourceLine {fields : List Text} {family : ProxyFamily}
    (hword : fields[1]? = some family.word) (hsrc : fields[2]?.any family.isAddress)
    (hport : fields[4]?.any fun t => (parseU16 t).isSome) : ∃ info, SourceLine fields info := by
  obtain ⟨src, hsrc, haddress⟩ := (Option.any_eq_true _ _).mp hsrc
  obtain ⟨srcPort, hsrcPort, hsome⟩ := (Option.any_eq_true _ _).mp hport
  obtain ⟨port, hport⟩ := Option.isSome_iff_exists.mp hsome
  obtain ⟨source, hsource⟩ := ProxyFamily.exists_endpoint haddress port
  exact ⟨_, family, src, srcPort, port, source, hword, hsrc, hsrcPort, hport, hsource, rfl⟩

/-- A line of the grammar decides the rest as the format says. -/
theorem rest_of_v1Line {fields : List Text} {info : ProxyInfo} (h : V1Line fields info)
    {family : ProxyFamily} (hword : fields[1]? = some family.word) :
    fields.length = 6 ∧ fields[3]?.any family.isAddress ∧
      fields[4]?.any (·.head? ≠ some '+') ∧ fields[5]?.any fun t => (portNumber t).isSome := by
  obtain ⟨family', hdst, hsrcPort, hdstPort, hsource⟩ := h
  obtain rfl := ProxyFamily.word_inj (Option.some.inj hword)
  refine ⟨rfl, by simpa using hdst, ?_, by simpa using hdstPort⟩
  unfold portNumber at hsrcPort
  split at hsrcPort
  · cases hsrcPort
  · rename_i hplus
    simpa using hplus

/-- A line with a source that is right in the rest is one of the grammar. -/
theorem v1Line_of_sourceLine {more : List Text} {info : ProxyInfo}
    (hdecides : SourceDecides ("PROXY".toList :: more))
    (hline : SourceLine ("PROXY".toList :: more) info) :
    V1Line ("PROXY".toList :: more) info := by
  obtain ⟨family, src, srcPort, port, source, hword, hsrc, hsrcPort, hport, hsource, rfl⟩ := hline
  have haddress := ProxyFamily.isAddress_of_endpoint hsource
  obtain ⟨hlen, hdst, hplus, hdstPort⟩ := hdecides family hword
    (by rw [hsrc]; exact haddress) (by rw [hsrcPort, Option.any_some, hport]; rfl)
  match more, hlen with
  | [w, f₂, f₃, f₄, f₅], _ =>
    obtain rfl : w = family.word := Option.some.inj hword
    obtain rfl : f₂ = src := Option.some.inj hsrc
    obtain rfl : f₄ = srcPort := Option.some.inj hsrcPort
    have hnumber : portNumber f₄ = some port := by
      rw [portNumber, if_neg (by simpa using hplus), hport]
    exact .mk family (by simpa using hdst) hnumber (by simpa using hdstPort) hsource

theorem followsGrammar_of_decides {buf : Bytes} {t : Text}
    (hfields : lineFields buf = some ("PROXY".toList :: t.splitOn ' '))
    (hparse : parseProxyHeader buf = parseV1Fields ("PROXY".toList :: t.splitOn ' '))
    (hdecides : SourceDecides ("PROXY".toList :: t.splitOn ' ')) : FollowsGrammar buf := by
  have haccepts : ∀ info, parseProxyHeader buf = .ok (some info) ↔
      ∃ fields, lineFields buf = some fields ∧ V1Line fields info := by
    intro info
    rw [hparse, parseV1Fields_eq_some_iff]
    constructor
    · intro hline
      exact ⟨_, hfields, v1Line_of_sourceLine hdecides hline⟩
    · rintro ⟨fields, hsome, hv1⟩
      obtain rfl := Option.some.inj (hfields.symm.trans hsome)
      exact sourceLine_of_v1Line hv1
  have hunknown : parseProxyHeader buf = .ok none ↔
      ∃ fields, lineFields buf = some fields ∧ fields[1]? = some "UNKNOWN".toList := by
    obtain ⟨w, more, hsplit⟩ := List.exists_cons_of_ne_nil (List.splitOn_ne_nil ' ' t)
    rw [hparse, parseV1Fields_eq_none_iff, hsplit]
    rw [hsplit] at hfields
    constructor
    · intro hw
      exact ⟨_, hfields, congrArg some hw⟩
    · rintro ⟨fields, hsome, hw⟩
      obtain rfl := Option.some.inj (hfields.symm.trans hsome)
      exact Option.some.inj hw
  refine ⟨haccepts, hunknown, ?_⟩
  intro hother
  cases hresult : parseProxyHeader buf with
  | error e => exact ⟨e, rfl⟩
  | ok r =>
    cases r with
    | none =>
      obtain ⟨fields, hsome, hw⟩ := hunknown.mp hresult
      exact absurd hw (hother fields hsome).1
    | some info =>
      obtain ⟨fields, hsome, hv1⟩ := (haccepts info).mp hresult
      exact absurd hv1 ((hother fields hsome).2 info)

/-- **When a line is read as its format says**: if the fields that are read leave no choice for the
others. -/
theorem v1_grammar_iff (buf : Bytes) (h : v1Prefix.isPrefixOf buf = true) :
    FollowsGrammar buf ↔ ∀ fields, lineFields buf = some fields → SourceDecides fields := by
  obtain ⟨q, rfl⟩ := List.isPrefixOf_iff_prefix.mp h
  cases hfields : lineFields (v1Prefix ++ q) with
  | none =>
    obtain ⟨e, he⟩ := parseProxyHeader_no_line hfields
    refine iff_of_true ⟨?_, ?_, fun _ => ⟨e, he⟩⟩ (by simp)
    · simp [he, hfields]
    · simp [he, hfields]
  | some fields =>
    obtain ⟨⟨t, rfl⟩, hparse⟩ := lineFields_v1Prefix hfields
    constructor
    · rintro hfollows _ hsome family hword hsrc hport
      obtain rfl := Option.some.inj hsome
      obtain ⟨info, hline⟩ := exists_sourceLine hword hsrc hport
      have hok := parseV1Fields_eq_some_iff.mpr hline
      rw [← hparse] at hok
      obtain ⟨_, hsome, hv1⟩ := (hfollows.accepts info).mp hok
      obtain rfl := Option.some.inj (hfields.symm.trans hsome)
      exact rest_of_v1Line hv1 hword
    · intro hdecides
      exact followsGrammar_of_decides hfields hparse (hdecides _ rfl)

/-- The line of `v1_tcp4_basic`, with the rest of the format in order. -/
theorem v1_grammar_basic :
    FollowsGrammar (v1Prefix ++ ascii "TCP4 192.168.1.100 10.0.0.1 12345 53" ++ [13, 10]) := by
  refine (v1_grammar_iff _ (by decide)).mpr ?_
  have hfields : lineFields (v1Prefix ++ ascii "TCP4 192.168.1.100 10.0.0.1 12345 53" ++ [13, 10]) =
      some ["PROXY".toList, "TCP4".toList, "192.168.1.100".toList, "10.0.0.1".toList,
        "12345".toList, "53".toList] := by decide
  rintro fields hsome
  obtain rfl := Option.some.inj (hfields.symm.trans hsome)
  rintro family hword - -
  obtain rfl : ProxyFamily.TCP4 = family := ProxyFamily.word_inj (Option.some.inj hword)
  decide

/-- Five fields, with a word for the destination and nothing for its port. -/
theorem v1_malformed_accepted :
    let buf := v1Prefix ++ ascii "TCP4 192.0.2.1 nonsense 80" ++ [13, 10]
    parseProxyHeader buf = .ok (some ⟨.V1, .Proxy, .V4 ⟨192, 0, 2, 1⟩ 80⟩) ∧
      ¬ FollowsGrammar buf := by
  have hok : parseProxyHeader (v1Prefix ++ ascii "TCP4 192.0.2.1 nonsense 80" ++ [13, 10]) =
      .ok (some ⟨.V1, .Proxy, .V4 ⟨192, 0, 2, 1⟩ 80⟩) := by decide
  have hfields : lineFields (v1Prefix ++ ascii "TCP4 192.0.2.1 nonsense 80" ++ [13, 10]) =
      some ["PROXY".toList, "TCP4".toList, "192.0.2.1".toList, "nonsense".toList,
        "80".toList] := by decide
  refine ⟨hok, fun hfollows => ?_⟩
  obtain ⟨fields, hsome, hline⟩ := (hfollows.accepts _).mp hok
  obtain rfl := Option.some.inj (hfields.symm.trans hsome)
  have hlen := (@rest_of_v1Line _ _ hline .TCP4 rfl).1
  exact absurd hlen (by decide)

end Heimdallr.Net
