import Heimdallr.Core.Blocklist

/-!
# Per-client rules (`core/filter/mod.rs`, `config/mod.rs`)

`[filter.per_client]` maps subnets to `{ block }`. The table is a hash map; `Filter::new` collects
it into a list in whatever order the map is iterated, and `is_blocked` takes the first rule whose
subnet contains the client.

* The order of the iteration is an argument of `Filter.new`, so the results can speak of every
  order. A row of the table is a pair of its key and value (`ClientRule`).
* A row whose key does not parse as an IPv4 subnet is skipped, with a warning in the source.
* `Filter::new` is modelled as a whole: lists, table, sinkhole addresses (with their defaults where
  they do not parse) and patterns.

`order_irrelevant_iff`: the decision is the same for every order exactly when no rule that blocks
and no rule that does not both cover the client. The two rules can have different prefixes; the
longer one does not take precedence.
-/

namespace Heimdallr

open Lib Net Zone Resolver

/-! ## Subnets as text -/

/-- The errors of `Ipv4Cidr::from_str`. -/
inductive CidrError
  /-- `missing '/' in CIDR: {s}` -/
  | MissingSlash (s : Text)
  /-- `bad CIDR address '{addr_str}': {e}` -/
  | BadAddress (addrStr : Text)
  /-- `bad CIDR prefix '{prefix_str}': {e}` -/
  | BadPrefixLen (prefixStr : Text)
  /-- `CIDR prefix out of range: {prefix}` -/
  | OutOfRange (prefixLen : Nat)
  deriving DecidableEq, Repr

/-- `str::split_once`. -/
def splitOnce (c : Char) (t : Text) : Option (Text × Text) :=
  if t.contains c then some (t.takeWhile (· ≠ c), (t.dropWhile (· ≠ c)).drop 1) else none

/-- `Ipv4Cidr::from_str`. -/
def Ipv4Cidr.fromStr (s : Text) : Except CidrError Ipv4Cidr := do
  let some (addrStr, prefixStr) := splitOnce '/' s | throw (.MissingSlash s)
  let some addr := parseIpv4 addrStr | throw (.BadAddress addrStr)
  let some len := parseU8 prefixStr | throw (.BadPrefixLen prefixStr)
  if 32 < len.toNat then throw (.OutOfRange len.toNat)
  return ⟨addr, len.toNat⟩

/-! ## The filter of a configuration -/

/-- `PerClientFilter`. -/
structure PerClientFilter where
  block : Bool
  deriving DecidableEq, Repr

/-- `FilterConfig`. -/
structure FilterConfig where
  blocklists : List String
  allowlists : List String
  regexBlocklist : List String
  perClient : AList (fun _ : String => PerClientFilter)
  cnameCloaking : Bool
  rebinding : Bool
  cnameChainLimit : Option UInt8
  sinkholeV4 : String
  sinkholeV6 : String

/-- A row of the per-client table. -/
abbrev ClientRule := Sigma fun _ : String => PerClientFilter

/-- What `Filter::new` makes of a row: nothing when the subnet does not parse. -/
def ClientRule.parsed (rule : ClientRule) : Option (Ipv4Cidr × Bool) :=
  match Ipv4Cidr.fromStr rule.1.toList with
  | .ok net => some (net, rule.2.block)
  | .error _ => none

/-- `Filter::new`, for a table that is iterated in the given order. `regexNew` compiles a regular
expression, as the predicate it matches. -/
def Filter.new (env : Fetch) (regexNew : String → Option (String → Bool)) (cfg : FilterConfig)
    (order : List ClientRule) : Filter where
  cnameChainLimit := cfg.cnameChainLimit.getD 8
  cnameCloaking := cfg.cnameCloaking
  rebinding := cfg.rebinding
  blocklist := Blocklist.loadSources env cfg.blocklists
  allowlist := Allowlist.loadSources env cfg.allowlists
  perClient := order.filterMap ClientRule.parsed
  sinkholeV4 := (parseIpv4 cfg.sinkholeV4.toList).getD Ipv4Addr.unspecified
  sinkholeV6 := (parseIpv6 cfg.sinkholeV6.toList).getD Ipv6Addr.unspecified
  regexBlocklist := cfg.regexBlocklist.filterMap regexNew

/-! ## Rules that cover a client -/

/-- The row covers the client: its subnet parses and contains the address. -/
def ClientRule.Covers (rule : ClientRule) (v4 : Ipv4Addr) : Prop :=
  ∃ net, Ipv4Cidr.fromStr rule.1.toList = .ok net ∧ net.contains v4 = true

theorem ClientRule.covers_iff {rule : ClientRule} {v4 : Ipv4Addr} :
    rule.Covers v4 ↔
      ∃ r, rule.parsed = some r ∧ r.1.contains v4 = true ∧ r.2 = rule.2.block := by
  unfold Covers parsed
  cases Ipv4Cidr.fromStr rule.1.toList with
  | error e => simp
  | ok net => simp

/-- A scan that finds a rule: it is one that covers the client. -/
theorem perClientRule_some {env : Fetch} {regexNew : String → Option (String → Bool)}
    {cfg : FilterConfig} {order : List ClientRule} {v4 : Ipv4Addr} {block : Bool}
    (h : (Filter.new env regexNew cfg order).perClientRule (.V4 v4) = some block) :
    ∃ rule ∈ order, rule.Covers v4 ∧ rule.2.block = block := by
  obtain ⟨r, hfind, rfl⟩ := Option.map_eq_some_iff.mp h
  obtain ⟨rule, hrule, hparsed⟩ := List.mem_filterMap.mp (List.mem_of_find?_eq_some hfind)
  have hcontains := List.find?_some hfind
  have hblock : r.2 = rule.2.block := by
    unfold ClientRule.parsed at hparsed
    split at hparsed
    · rw [← Option.some.inj hparsed]
    · exact absurd hparsed (by simp)
  exact ⟨rule, hrule, ClientRule.covers_iff.mpr ⟨r, hparsed, hcontains, hblock⟩, hblock.symm⟩

/-- A scan that finds none: no rule covers the client. -/
theorem perClientRule_none {env : Fetch} {regexNew : String → Option (String → Bool)}
    {cfg : FilterConfig} {order : List ClientRule} {v4 : Ipv4Addr}
    (h : (Filter.new env regexNew cfg order).perClientRule (.V4 v4) = none) :
    ∀ rule ∈ order, ¬ rule.Covers v4 := by
  intro rule hrule hcov
  obtain ⟨r, hparsed, hcontains, -⟩ := ClientRule.covers_iff.mp hcov
  have hnone := List.find?_eq_none.mp (Option.map_eq_none_iff.mp h) r
    (List.mem_filterMap.mpr ⟨rule, hrule, hparsed⟩)
  exact hnone hcontains

/-- The first rule of the order decides for a client it covers. -/
theorem perClientRule_first (env : Fetch) (regexNew : String → Option (String → Bool))
    (cfg : FilterConfig) {rule : ClientRule} {v4 : Ipv4Addr} (h : rule.Covers v4)
    (order : List ClientRule) :
    (Filter.new env regexNew cfg (rule :: order)).perClientRule (.V4 v4) = some rule.2.block := by
  obtain ⟨r, hparsed, hcontains, hblock⟩ := ClientRule.covers_iff.mp h
  show (((rule :: order).filterMap ClientRule.parsed).find? fun r => r.1.contains v4).map
    Prod.snd = _
  have hfind : ((r :: order.filterMap ClientRule.parsed).find? fun r => r.1.contains v4) = some r :=
    List.find?_cons_of_pos hcontains
  rw [List.filterMap_cons_some hparsed, hfind, Option.map_some, hblock]

/-! ## Order -/

/-- The decision for the name and the client is the same for every two orders of the table. -/
def OrderIrrelevant (env : Fetch) (regexNew : String → Option (String → Bool)) (cfg : FilterConfig)
    (qname : String) (client : IpAddr) : Prop :=
  ∀ order order' m, order.Perm cfg.perClient.entries → order'.Perm cfg.perClient.entries →
    ((Filter.new env regexNew cfg order).isBlocked qname client m).1 =
      ((Filter.new env regexNew cfg order').isBlocked qname client m).1

/-- A scan that finds a rule decides. -/
theorem isBlocked_of_rule {f : Filter} {client : IpAddr} {block : Bool}
    (h : f.perClientRule client = some block) (qname : String) (m : Metrics) :
    (f.isBlocked qname client m).1 = block := by
  unfold Filter.isBlocked
  rw [h]

/-- Filters that find the same rule decide alike: they differ in nothing else. -/
theorem isBlocked_congr {env : Fetch} {regexNew : String → Option (String → Bool)}
    {cfg : FilterConfig} {order order' : List ClientRule} {client : IpAddr}
    (h : (Filter.new env regexNew cfg order).perClientRule client =
      (Filter.new env regexNew cfg order').perClientRule client) (qname : String) (m : Metrics) :
    ((Filter.new env regexNew cfg order).isBlocked qname client m).1 =
      ((Filter.new env regexNew cfg order').isBlocked qname client m).1 := by
  unfold Filter.isBlocked
  rw [h]
  rfl

/-- Where the rules that cover a client agree, every order finds the same. -/
theorem perClientRule_congr (env : Fetch) (regexNew : String → Option (String → Bool))
    (cfg : FilterConfig) {order order' : List ClientRule} {v4 : Ipv4Addr}
    (hperm : order.Perm order')
    (h : ∀ rule ∈ order, ∀ rule' ∈ order, ClientRule.Covers rule v4 → ClientRule.Covers rule' v4 →
      rule.2.block = rule'.2.block) :
    (Filter.new env regexNew cfg order).perClientRule (.V4 v4) =
      (Filter.new env regexNew cfg order').perClientRule (.V4 v4) := by
  cases hone : (Filter.new env regexNew cfg order).perClientRule (.V4 v4) with
  | none =>
    cases htwo : (Filter.new env regexNew cfg order').perClientRule (.V4 v4) with
    | none => rfl
    | some block =>
      obtain ⟨rule, hrule, hcov, -⟩ := perClientRule_some htwo
      exact absurd hcov (perClientRule_none hone rule (hperm.mem_iff.mpr hrule))
  | some block =>
    obtain ⟨rule, hrule, hcov, rfl⟩ := perClientRule_some hone
    cases htwo : (Filter.new env regexNew cfg order').perClientRule (.V4 v4) with
    | none => exact absurd hcov (perClientRule_none htwo rule (hperm.mem_iff.mp hrule))
    | some block' =>
      obtain ⟨rule', hrule', hcov', rfl⟩ := perClientRule_some htwo
      rw [h rule hrule rule' (hperm.mem_iff.mpr hrule') hcov hcov']

/-- **When the order of the table does not matter**: for every configuration, name and client, every
two orders decide alike exactly when the client is not an IPv4 address that both a blocking and a
non-blocking row cover. -/
theorem order_irrelevant_iff (env : Fetch) (regexNew : String → Option (String → Bool))
    (cfg : FilterConfig) (qname : String) (client : IpAddr) :
    OrderIrrelevant env regexNew cfg qname client ↔
      ∀ v4, client = .V4 v4 → ∀ rule ∈ cfg.perClient.entries, ∀ rule' ∈ cfg.perClient.entries,
        ClientRule.Covers rule v4 → ClientRule.Covers rule' v4 →
          rule.2.block = rule'.2.block := by
  constructor
  · rintro h v4 rfl rule hrule rule' hrule' hcov hcov'
    -- an order that has the one first, and an order that has the other first
    have hsame := h (rule :: cfg.perClient.entries.erase rule)
      (rule' :: cfg.perClient.entries.erase rule') (fun _ => 0)
      (List.perm_cons_erase hrule).symm (List.perm_cons_erase hrule').symm
    rw [isBlocked_of_rule (perClientRule_first env regexNew cfg hcov _),
      isBlocked_of_rule (perClientRule_first env regexNew cfg hcov' _)] at hsame
    exact hsame
  · intro h order order' m hperm hperm'
    refine isBlocked_congr ?_ qname m
    cases client with
    | V6 v6 => rfl
    | V4 v4 =>
      refine perClientRule_congr env regexNew cfg (hperm.trans hperm'.symm) ?_
      intro rule hrule rule' hrule'
      exact h v4 rfl rule (hperm.mem_iff.mp hrule) rule' (hperm.mem_iff.mp hrule')

/-- Block the subnet of the office, but not one of its hosts. -/
def officeConfig : FilterConfig where
  blocklists := []
  allowlists := []
  regexBlocklist := []
  perClient := AList.insert "10.0.0.0/8" ⟨true⟩ (AList.insert "10.0.0.5/32" ⟨false⟩ ∅)
  cnameCloaking := true
  rebinding := true
  cnameChainLimit := some 8
  sinkholeV4 := "0.0.0.0"
  sinkholeV6 := "::"

/-- Whether the host is blocked depends on the order. -/
theorem overlapping_rules_depend_on_order :
    ¬ OrderIrrelevant ⟨fun _ => none, fun _ => none⟩ (fun _ => none) officeConfig "example.com"
      (.V4 ⟨10, 0, 0, 5⟩) := by
  intro h
  have hsame := h [⟨"10.0.0.0/8", ⟨true⟩⟩, ⟨"10.0.0.5/32", ⟨false⟩⟩]
    [⟨"10.0.0.5/32", ⟨false⟩⟩, ⟨"10.0.0.0/8", ⟨true⟩⟩] (fun _ => 0) (List.Perm.refl _)
    (List.Perm.swap _ _ _)
  exact absurd hsame (by decide)

end Heimdallr
