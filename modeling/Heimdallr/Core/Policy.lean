import Heimdallr.Core.Decision
import Heimdallr.Core.PerClient
import Heimdallr.Core.Suffixes

/-!
# What a filter configuration says (`core/filter`)

`Filter::new` loads the lists, parses the rows of the per-client table and compiles the patterns;
`is_blocked` asks them in a fixed order. The two together give a configuration its meaning, for
which nothing but the configuration, the contents of the sources and the order of the table has to
be known.

* `Fetch.Names` says that a name, or one above it, is an entry of a list that the sources come to,
  by the open places of `Core.Blocklist`.
* `Stricter` compares two configurations source by source. More sources may follow those of the old
  blocklists. They must not come before: a source that is loaded first takes its references' places
  in the shared visited set. For the same reason the new allowlist sources are the first of the old
  ones.

Results:
* **`configured_blocks_iff`**: which names are blocked for which clients.
* **`stricter_blocks`**: a configuration with more behind its blocklists, less behind its allowlists
  and more patterns lets no name through that was blocked, when the table is iterated in one order.
-/

namespace Heimdallr

open Lib Net

variable {env : Fetch} {regexNew : String → Option (String → Bool)}

/-! ## The parts -/

/-- The first row that covers the client. -/
def FirstCovers (order : List ClientRule) (v4 : Ipv4Addr) (rule : ClientRule) : Prop :=
  ∃ before after, order = before ++ rule :: after ∧ rule.Covers v4 ∧ ∀ r ∈ before, ¬ r.Covers v4

/-- No row covers the client. -/
def Uncovered (order : List ClientRule) : IpAddr → Prop
  | .V4 v4 => ∀ rule ∈ order, ¬ rule.Covers v4
  | .V6 _ => True

/-- A row that does not cover the client is passed over. -/
theorem perClientRule_skip (env : Fetch) (regexNew : String → Option (String → Bool))
    (cfg : FilterConfig) {rule : ClientRule} {v4 : Ipv4Addr} (h : ¬ rule.Covers v4)
    (order : List ClientRule) :
    (Filter.new env regexNew cfg (rule :: order)).perClientRule (.V4 v4) =
      (Filter.new env regexNew cfg order).perClientRule (.V4 v4) := by
  show (((rule :: order).filterMap ClientRule.parsed).find? fun r => r.1.contains v4).map
    Prod.snd = _
  cases hparsed : rule.parsed with
  | none =>
    rw [List.filterMap_cons_none hparsed]
    rfl
  | some r =>
    have hnot : ¬ r.1.contains v4 = true := by
      intro hcontains
      refine h (ClientRule.covers_iff.mpr ⟨r, hparsed, hcontains, ?_⟩)
      unfold ClientRule.parsed at hparsed
      split at hparsed
      · obtain rfl := Option.some.inj hparsed
        rfl
      · cases hparsed
    have hfind : ((r :: order.filterMap ClientRule.parsed).find? fun r => r.1.contains v4) =
        (order.filterMap ClientRule.parsed).find? fun r => r.1.contains v4 :=
      List.find?_cons_of_neg hnot
    rw [List.filterMap_cons_some hparsed, hfind]
    rfl

theorem perClientRule_eq_some_iff (env : Fetch) (regexNew : String → Option (String → Bool))
    (cfg : FilterConfig) (order : List ClientRule) (v4 : Ipv4Addr) (block : Bool) :
    (Filter.new env regexNew cfg order).perClientRule (.V4 v4) = some block ↔
      ∃ rule, FirstCovers order v4 rule ∧ rule.2.block = block := by
  induction order with
  | nil =>
    constructor
    · intro h
      cases h
    · rintro ⟨rule, ⟨before, after, horder, -⟩, -⟩
      simp at horder
  | cons first order ih =>
    by_cases hcovers : first.Covers v4
    · rw [perClientRule_first env regexNew cfg hcovers order]
      constructor
      · intro h
        exact ⟨first, ⟨[], order, rfl, hcovers, by simp⟩, Option.some.inj h⟩
      · rintro ⟨rule, ⟨before, after, horder, -, hbefore⟩, rfl⟩
        cases before with
        | nil =>
          obtain ⟨rfl, -⟩ := List.cons.inj horder
          rfl
        | cons r before =>
          obtain ⟨rfl, -⟩ := List.cons.inj horder
          exact absurd hcovers (hbefore first List.mem_cons_self)
    · rw [perClientRule_skip env regexNew cfg hcovers, ih]
      constructor
      · rintro ⟨rule, ⟨before, after, rfl, hrule, hbefore⟩, hblock⟩
        exact ⟨rule, ⟨first :: before, after, rfl, hrule,
          List.forall_mem_cons.mpr ⟨hcovers, hbefore⟩⟩, hblock⟩
      · rintro ⟨rule, ⟨before, after, horder, hrule, hbefore⟩, hblock⟩
        cases before with
        | nil =>
          obtain ⟨rfl, -⟩ := List.cons.inj horder
          exact absurd hrule hcovers
        | cons r before =>
          obtain ⟨rfl, rfl⟩ := List.cons.inj horder
          exact ⟨rule, ⟨before, after, rfl, hrule, (List.forall_mem_cons.mp hbefore).2⟩, hblock⟩

theorem perClientRule_eq_none_iff (env : Fetch) (regexNew : String → Option (String → Bool))
    (cfg : FilterConfig) (order : List ClientRule) (client : IpAddr) :
    (Filter.new env regexNew cfg order).perClientRule client = none ↔ Uncovered order client := by
  cases client with
  | V6 v6 => exact ⟨fun _ => trivial, fun _ => rfl⟩
  | V4 v4 =>
    refine ⟨perClientRule_none, ?_⟩
    intro h
    rw [Option.eq_none_iff_forall_ne_some]
    intro block hblock
    obtain ⟨rule, hrule, hcovers, -⟩ := perClientRule_some hblock
    exact h rule hrule hcovers

/-- A list in reach of the sources names the name, or a name above it. -/
def Fetch.Names (env : Fetch) (sources : List String) (qname : String) : Prop :=
  ∃ x, env.AtOpenPlace sources x ∧ labels x.toList <:+ queryLabels qname

theorem blocklist_iff {sources : List String} {qname : String} :
    (Blocklist.loadSources env sources).isBlocked qname = true ↔ env.Names sources qname := by
  unfold Blocklist.isBlocked
  rw [listMatches_iff]
  simp only [mem_loadSources_iff_open]
  rfl

theorem allowlist_iff {sources : List String} {qname : String} :
    (Allowlist.loadSources env sources).isAllowed qname = true ↔ env.Names sources qname :=
  blocklist_iff

/-- A pattern of the configuration compiles and matches. -/
def PatternOf (regexNew : String → Option (String → Bool)) (cfg : FilterConfig) (qname : String) :
    Prop :=
  ∃ pat ∈ cfg.regexBlocklist, ∃ re, regexNew pat = some re ∧ re qname = true

theorem patternMatches_iff (env : Fetch) (cfg : FilterConfig) (order : List ClientRule)
    (qname : String) :
    (Filter.new env regexNew cfg order).PatternMatches qname ↔ PatternOf regexNew cfg qname := by
  constructor
  · rintro ⟨re, hre, hmatches⟩
    obtain ⟨pat, hpat, hcompiles⟩ := List.mem_filterMap.mp hre
    exact ⟨pat, hpat, re, hcompiles, hmatches⟩
  · rintro ⟨pat, hpat, re, hcompiles, hmatches⟩
    exact ⟨re, List.mem_filterMap.mpr ⟨pat, hpat, hcompiles⟩, hmatches⟩

/-! ## The whole -/

/-- What the lists and the patterns say, where no row covers the client. -/
def ListsBlock (env : Fetch) (regexNew : String → Option (String → Bool)) (cfg : FilterConfig)
    (qname : String) : Prop :=
  PatternOf regexNew cfg qname ∨ env.Names cfg.blocklists qname ∧ ¬ env.Names cfg.allowlists qname

theorem blocks_of_uncovered (cfg : FilterConfig) {order : List ClientRule} {client : IpAddr}
    (h : Uncovered order client) (qname : String) (m : Metrics) :
    ((Filter.new env regexNew cfg order).isBlocked qname client m).1 = true ↔
      ListsBlock env regexNew cfg qname := by
  have hnone := (perClientRule_eq_none_iff env regexNew cfg order client).mpr h
  unfold ListsBlock
  rw [Filter.isBlocked_eq, Filter.verdict_of_none hnone]
  by_cases hpattern : (Filter.new env regexNew cfg order).PatternMatches qname
  · rw [if_pos hpattern]
    exact iff_of_true rfl (.inl ((patternMatches_iff env cfg order qname).mp hpattern))
  · rw [if_neg hpattern, ← patternMatches_iff env cfg order qname, or_iff_right hpattern,
      ← blocklist_iff, ← allowlist_iff]
    show blocked _ _ qname = true ↔ _
    unfold blocked
    show (if (Allowlist.loadSources env cfg.allowlists).isAllowed qname = true then false
      else (Blocklist.loadSources env cfg.blocklists).isBlocked qname) = true ↔ _
    by_cases hallowed : (Allowlist.loadSources env cfg.allowlists).isAllowed qname = true
    · simp [hallowed]
    · simp [hallowed]

/-- **Which names are blocked for which clients.** The first row of the table that covers a client
decides for it; for the others a pattern does, and else the lists. -/
theorem configured_blocks_iff (env : Fetch) (regexNew : String → Option (String → Bool))
    (cfg : FilterConfig) (order : List ClientRule) (qname : String) (client : IpAddr) (m : Metrics) :
    ((Filter.new env regexNew cfg order).isBlocked qname client m).1 = true ↔
      (∃ v4 rule, client = .V4 v4 ∧ FirstCovers order v4 rule ∧ rule.2.block = true) ∨
        Uncovered order client ∧ ListsBlock env regexNew cfg qname := by
  by_cases huncovered : Uncovered order client
  · rw [blocks_of_uncovered cfg huncovered, and_iff_right huncovered]
    refine (or_iff_right ?_).symm
    rintro ⟨v4, rule, rfl, ⟨before, after, rfl, hcovers, -⟩, -⟩
    exact huncovered rule (by simp) hcovers
  · rw [or_iff_left (fun h => huncovered h.1)]
    cases client with
    | V6 v6 => exact absurd trivial huncovered
    | V4 v4 =>
      have hsome := mt (perClientRule_eq_none_iff env regexNew cfg order (.V4 v4)).mp huncovered
      obtain ⟨block, hblock⟩ := Option.ne_none_iff_exists'.mp hsome
      rw [isBlocked_of_rule hblock]
      constructor
      · rintro rfl
        obtain ⟨rule, hfirst, hrule⟩ :=
          (perClientRule_eq_some_iff env regexNew cfg order v4 true).mp hblock
        exact ⟨v4, rule, rfl, hfirst, hrule⟩
      · rintro ⟨v4', rule, hclient, hfirst, hrule⟩
        obtain rfl := IpAddr.V4.inj hclient
        have htrue := (perClientRule_eq_some_iff env regexNew cfg order v4 true).mpr
          ⟨rule, hfirst, hrule⟩
        rw [hblock] at htrue
        exact Option.some.inj htrue

/-! ## Stricter configurations -/

/-- Loading a source takes no entry away. -/
theorem entries_loadSource {left : Nat} {src : String} {st : Load} :
    st.bl.entries ⊆ (loadSource env left src st).bl.entries := by
  induction left generalizing src st with
  | zero =>
    unfold loadSource
    dsimp only
    split <;> exact List.Subset.refl _
  | succ left ih =>
    by_cases hvisited : normalize src ∈ st.visited
    · rw [loadSource, if_pos hvisited]
      exact List.Subset.refl _
    · rw [loadSource_succ hvisited]
      dsimp only
      cases env.fetchText src with
      | none => exact List.Subset.refl _
      | some text =>
        dsimp only
        by_cases hmeta : looksLikeMetaList text = true
        · rw [if_pos hmeta]
          exact List.foldlRecOn (motive := fun st' : Load => st.bl.entries ⊆ st'.bl.entries)
            (references text) _ (List.Subset.refl _) fun st' hst' ref _ =>
              List.Subset.trans hst' ih
        · rw [if_neg hmeta]
          exact fun x hx => mem_parseHosts.mpr (.inl hx)

/-- Sources behind the others take no entry away. -/
theorem entries_loadAll_append (sources more : List String) :
    (loadAll env sources).bl.entries ⊆ (loadAll env (sources ++ more)).bl.entries := by
  unfold loadAll
  rw [List.foldl_append]
  exact List.foldlRecOn
    (motive := fun st : Load => (loadAll env sources).bl.entries ⊆ st.bl.entries) more _
    (List.Subset.refl _) fun st hst src _ =>
      List.Subset.trans hst entries_loadSource

theorem Fetch.Names.append {sources : List String} {qname : String} (h : env.Names sources qname)
    {sources' : List String} (hsources : sources <+: sources') : env.Names sources' qname := by
  obtain ⟨x, hx, hsuffix⟩ := h
  obtain ⟨more, rfl⟩ := hsources
  exact ⟨x, mem_loadSources_iff_open.mp
    (entries_loadAll_append sources more (mem_loadSources_iff_open.mpr hx)), hsuffix⟩

/-- More behind the blocklists, less behind the allowlists, more patterns. -/
structure Stricter (cfg cfg' : FilterConfig) : Prop where
  blocklists : cfg.blocklists <+: cfg'.blocklists
  allowlists : cfg'.allowlists <+: cfg.allowlists
  regexBlocklist : cfg.regexBlocklist ⊆ cfg'.regexBlocklist

/-- **A stricter configuration** blocks what was blocked, for every client. -/
theorem stricter_blocks (env : Fetch) (regexNew : String → Option (String → Bool))
    {cfg cfg' : FilterConfig} (h : Stricter cfg cfg') (order : List ClientRule) (qname : String)
    (client : IpAddr) (m m' : Metrics)
    (hblocked : ((Filter.new env regexNew cfg order).isBlocked qname client m).1 = true) :
    ((Filter.new env regexNew cfg' order).isBlocked qname client m').1 = true := by
  rw [configured_blocks_iff] at hblocked ⊢
  refine hblocked.imp id ?_
  rintro ⟨huncovered, ⟨pat, hpat, re, hmatches⟩ | ⟨hnamed, hallowed⟩⟩
  · exact ⟨huncovered, .inl ⟨pat, h.regexBlocklist hpat, re, hmatches⟩⟩
  · exact ⟨huncovered, .inr ⟨hnamed.append h.blocklists,
      fun hnamed' => hallowed (hnamed'.append h.allowlists)⟩⟩

/-- One list. -/
def oneList : Fetch where
  fetchUrl _ := none
  readFile src := if src = "/ads" then some "0.0.0.0 ads.example".toList else none

/-- A second source that cannot be read, and no allowlist. -/
theorem stricter_blocks_example :
    ((Filter.new oneList (fun _ => none) { officeConfig with blocklists := ["/ads", "/more"] }
      []).isBlocked "x.ads.example." homeClient (fun _ => 0)).1 = true := by
  have hblocked : ((Filter.new oneList (fun _ => none) { officeConfig with blocklists := ["/ads"] }
      []).isBlocked "x.ads.example." homeClient (fun _ => 0)).1 = true := by
    decide +kernel
  have hstricter : Stricter { officeConfig with blocklists := ["/ads"] }
      { officeConfig with blocklists := ["/ads", "/more"] } :=
    ⟨⟨["/more"], rfl⟩, List.prefix_rfl, List.Subset.refl _⟩
  exact stricter_blocks oneList (fun _ => none) hstricter [] "x.ads.example." homeClient _ _ hblocked

end Heimdallr
