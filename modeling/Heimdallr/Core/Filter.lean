import Heimdallr.Resolver.Effects

/-!
# Filtering (`core/filter/mod.rs`, `core/filter/blocklist.rs`)

Blocklist and allowlist matching, per-client rules, and the two checks on answers: the length of a
CNAME chain and addresses that point inside the network.

* A blocklist is its entries; `listMatches` looks up the name and what follows each of its dots,
  which is what the loop of `is_blocked` and `is_allowed` does (`Core.Suffixes`).
* `Ipv4Cidr::contains` masks both addresses, and treats a prefix of zero and one of 32 apart, since
  a shift by the full width panics in Rust. The prefix is a `Nat`; `from_str` admits up to 32.
* `cname_chain_truncated` counts the CNAME records of an answer, wherever they stand and whatever
  they point to. It only answers yes or no: its callers refuse the answer or do not ask.
* `rebinding_detected` looks at the A and AAAA records. Nothing is taken out of an answer by it.
* The two checks also bump a global counter, so they are `Net` programs; `eval_cnameChainTruncated`
  gives the result of the first.

How a `Filter` is made of a configuration is `Core.PerClient`, how its lists are loaded
`Core.Blocklist`.
-/

namespace Heimdallr

open Lib Resolver

/-! ## Names on a list (`filter/blocklist.rs`) -/

/-- `trim_end_matches('.')`. -/
def trimEndDots (s : List Char) : List Char := (s.reverse.dropWhile (· == '.')).reverse

/-- `normalize`: trailing dots dropped, ASCII letters in lower case. -/
def normalize (name : String) : String :=
  String.ofList ((trimEndDots name.toList).map Char.toLower)

/-- What follows each dot of a string, from the left. -/
def afterDots : List Char → List (List Char)
  | [] => []
  | c :: cs => if c = '.' then cs :: afterDots cs else afterDots cs

/-- The loop of `is_blocked` and `is_allowed`: the normalized name is looked up, then, as long as
there is a dot, what follows the first one. -/
def listMatches (entries : List String) (qname : String) : Bool :=
  if entries.isEmpty then false
  else
    let cur := (normalize qname).toList
    (cur :: afterDots cur).any fun s => entries.contains (String.ofList s)

/-- `Blocklist`. The source keeps a `HashSet`, of which only membership is read. -/
structure Blocklist where
  entries : List String

/-- `Allowlist`, kept and read in the same way. -/
structure Allowlist where
  entries : List String

/-- `Blocklist::is_blocked`. -/
def Blocklist.isBlocked (bl : Blocklist) (qname : String) : Bool := listMatches bl.entries qname

/-- `Allowlist::is_allowed`. -/
def Allowlist.isAllowed (al : Allowlist) (qname : String) : Bool := listMatches al.entries qname

/-- `blocked`: on the blocklist and not on the allowlist. -/
def blocked (blocklist : Blocklist) (allowlist : Allowlist) (qname : String) : Bool :=
  if allowlist.isAllowed qname then false else blocklist.isBlocked qname

/-! ## Subnets -/

/-- `Ipv4Cidr`. -/
structure Ipv4Cidr where
  addr : Ipv4Addr
  prefixLen : Nat
  deriving DecidableEq, Repr

/-- `Ipv4Cidr::contains`. -/
def Ipv4Cidr.contains (net : Ipv4Cidr) (ip : Ipv4Addr) : Bool :=
  if net.prefixLen = 0 then true
  else if 32 ≤ net.prefixLen then net.addr == ip
  else
    let mask := BitVec.allOnes 32 <<< (32 - net.prefixLen)
    net.addr.toBits &&& mask == ip.toBits &&& mask

/-! ## The filter -/

/-- `Filter`. A compiled regular expression is the predicate it matches. -/
structure Filter where
  cnameChainLimit : UInt8
  cnameCloaking : Bool
  rebinding : Bool
  blocklist : Blocklist
  allowlist : Allowlist
  perClient : List (Ipv4Cidr × Bool)
  sinkholeV4 : Ipv4Addr
  sinkholeV6 : Ipv6Addr
  regexBlocklist : List (String → Bool)

namespace Filter

/-- `Filter::new` of the default configuration. -/
def default : Filter where
  cnameChainLimit := 8
  cnameCloaking := true
  rebinding := true
  blocklist := ⟨[]⟩
  allowlist := ⟨[]⟩
  perClient := []
  sinkholeV4 := Ipv4Addr.unspecified
  sinkholeV6 := Ipv6Addr.unspecified
  regexBlocklist := []

/-- The per-client scan of `is_blocked`: the first subnet that contains an IPv4 client decides. -/
def perClientRule (f : Filter) (client : IpAddr) : Option Bool :=
  match client with
  | .V4 v4 => (f.perClient.find? fun rule => rule.1.contains v4).map Prod.snd
  | .V6 _ => none

/-- `Filter::is_blocked`, with the global counters after the call. A regex match counts in a
registry of its own that is dropped at once. -/
def isBlocked (f : Filter) (qname : String) (client : IpAddr) (m : Metrics) : Bool × Metrics :=
  match f.perClientRule client with
  | some block => (block, m)
  | none =>
    if f.regexBlocklist.any (· qname) then (true, m)
    else
      let isBlocked := blocked f.blocklist f.allowlist qname
      (isBlocked, if isBlocked then m.increment .BlockedTotal 1 else m)

/-- `is_private_or_loopback`. -/
def isPrivateOrLoopback (addr : Ipv4Addr) : Bool :=
  addr.isLoopback || addr.isPrivate || addr.isLinkLocal

/-- `is_private_or_loopback_aaaa`. -/
def isPrivateOrLoopbackAaaa (addr : Ipv6Addr) : Bool :=
  addr.isLoopback || addr.isUniqueLocal || addr.isUnspecified

/-- `cname_chain_count`. -/
def cnameChainCount (records : List Record) : Nat :=
  (records.filter fun r => r.recordType == .CNAME).length

/-- The condition of `cname_chain_truncated`. -/
def chainTooLong (f : Filter) (records : List Record) : Bool :=
  f.cnameCloaking && decide (f.cnameChainLimit.toNat < cnameChainCount records)

/-- `cname_chain_truncated`. -/
def cnameChainTruncated (f : Filter) (records : List Record) : Net Bool := do
  let truncated := f.chainTooLong records
  if truncated then
    incrementGlobal .CnameChainTruncatedTotal 1
  return truncated

/-- The address of a record that `rebinding_detected` flags. -/
def flagged (r : Record) : Bool :=
  match r.data with
  | .A a => isPrivateOrLoopback a
  | .AAAA aaaa => isPrivateOrLoopbackAaaa aaaa
  | _ => false

/-- `rebinding_detected`. -/
def rebindingDetected (f : Filter) (records : List Record) : Net Bool := do
  let detected := if !f.rebinding then false else records.any flagged
  if detected then
    incrementGlobal .RebindingDetectedTotal 1
  return detected

theorem eval_cnameChainTruncated (f : Filter) (records : List Record) (l : Local) :
    (f.cnameChainTruncated records).eval netAnswer l = (f.chainTooLong records, l) := by
  unfold cnameChainTruncated
  cases f.chainTooLong records <;> rfl

@[simp] theorem cnameChainCount_append (xs ys : List Record) :
    cnameChainCount (xs ++ ys) = cnameChainCount xs + cnameChainCount ys := by
  simp [cnameChainCount]

@[simp] theorem flagged_qualified (r : Record) : flagged r.qualified = flagged r := by
  unfold flagged Record.qualified
  cases r.data <;> rfl

/-- The count does not depend on how names are written. -/
@[simp] theorem cnameChainCount_qualified (records : List Record) :
    cnameChainCount (records.map Record.qualified) = cnameChainCount records := by
  unfold cnameChainCount
  rw [List.filter_map, List.length_map]
  congr 1
  apply List.filter_congr
  intro r _
  rw [Function.comp_apply, Record.recordType_qualified]

end Filter

end Heimdallr
