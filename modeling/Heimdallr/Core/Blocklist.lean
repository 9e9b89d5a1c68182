import Heimdallr.Core.Filter
import Heimdallr.Lib.Walk
import Heimdallr.Zone.Record

/-!
# Loading blocklists (`core/filter/blocklist.rs`)

A source is a file or a URL. Its text is a list of hosts, or a meta-list: mostly references to other
sources, which are loaded in turn, up to `META_MAX_DEPTH` references away. `load_source` marks a
source as visited, by its normalized name, before it looks at the depth; the marks are shared by all
sources of a configuration.

* A text is the list of its characters, and `lines`, `trim` and `split_whitespace` are those of
  `str`, with the white space of `char::is_whitespace`.
* What a source contains is the parameter `Fetch`: a body for a URL, a content for a path, or
  nothing. It answers every question about a source alike, so a list does not change while it is
  being loaded.
* The blocklist is the list of the names in the order they were inserted. The source keeps them in a
  hash set; only membership is ever asked for.
* `loadSource` recurses on the levels that are left. `Load.fetched` is not data of the program: it
  records the calls of `fetch_text`, for the statements about what is fetched.

`loadSource_eq` says that loading is the walk of `Lib.walk` over the graph of references, and that
the entries are those of the lists it marks with a level left. From the rules of the walk:

* **`expansion_bounded_sound`**: no source is fetched twice, none that is more than four references
  away, and every entry comes from a line of a fetched text.
* **`expansion_complete_iff`**: the names on the lists in reach are all loaded exactly when each of
  them is on a list at an open place: neither that place nor one above it has the key of an open
  place that comes before it in the order of the sources and of their lines.

Out of scope: the HTTP client with its timeout, and the warnings about sources that cannot be read.
-/

namespace Heimdallr

open Lib Net Zone

/-! ## Lines -/

/-- `str::lines`: a line ends with `\n` or `\r\n`, the last one may end without. -/
def lines (t : Text) : List Text :=
  let pieces := t.splitOnP (· == '\n')
  let whole := pieces.dropLast.map fun line => (stripSuffix ['\r'] line).getD line
  match pieces.getLast? with
  | none => whole
  | some [] => whole
  | some last => whole ++ [last]

/-- `str::trim`. -/
def trim (t : Text) : Text := trimMatches isWhitespace t

/-- `str::starts_with`. -/
def startsWith (start t : Text) : Bool := start.isPrefixOf t

/-- `str::strip_prefix`. -/
def stripStart (start t : Text) : Option Text :=
  if startsWith start t then some (t.drop start.length) else none

/-- `str::trim_end_matches`. -/
def trimEndMatches (c : Char) (t : Text) : Text := (t.reverse.dropWhile (· == c)).reverse

/-- `is_url`. -/
def isUrl (s : Text) : Bool := startsWith "http://".toList s || startsWith "https://".toList s

/-- The test on a name, the same for both styles of lines. -/
def acceptName (name : Text) : Option String :=
  if name.isEmpty || name == "localhost".toList || name == "localhost.localdomain".toList ||
      name.contains '/' then none
  else some (normalize (String.ofList name))

/-- `parse_hosts_line`. -/
def parseHostsLine (line : Text) : Option String :=
  let trimmed := trim line
  if trimmed.isEmpty || startsWith ['#'] trimmed then none
  else
    match (stripStart "||".toList trimmed).or (stripStart "@@||".toList trimmed) with
    | some stripped => do acceptName (← (splitWhitespace (trimEndMatches '^' stripped)).head?)
    | none =>
      match splitWhitespace trimmed with
      | [] => none
      | first :: parts =>
        if isUrl first then none
        else if (parseIpAddr first).isNone then none
        else do acceptName (← parts.head?)

/-- What the lines of a hosts file name. -/
def hostNames (text : Text) : List String := (lines text).filterMap parseHostsLine

/-- `Blocklist::parse_hosts`. -/
def Blocklist.parseHosts (bl : Blocklist) (text : Text) : Blocklist :=
  ⟨(lines text).foldl (fun entries line =>
    match parseHostsLine line with
    | some name => entries.insert name
    | none => entries) bl.entries⟩

/-! ## Meta-lists -/

/-- `is_url(trimmed) || trimmed.starts_with('/')`. -/
def isReference (trimmed : Text) : Bool := isUrl trimmed || startsWith ['/'] trimmed

/-- What one line adds to the counts of sources and of hosts. -/
def countLine (counts : Nat × Nat) (line : Text) : Nat × Nat :=
  let trimmed := trim line
  if trimmed.isEmpty || startsWith ['#'] trimmed then counts
  else if isReference trimmed then (counts.1 + 1, counts.2)
  else if startsWith "||".toList trimmed || startsWith "@@||".toList trimmed ||
      (splitWhitespace trimmed).head?.any (fun t => (parseIpv4 t).isSome) then
    (counts.1, counts.2 + 1)
  else counts

/-- `looks_like_meta_list`. -/
def looksLikeMetaList (text : Text) : Bool :=
  let (sources, hosts) := (lines text).foldl countLine (0, 0)
  decide (2 ≤ sources) && decide (hosts < sources)

/-- The references of a meta-list, in order. -/
def references (text : Text) : List String :=
  (((lines text).map trim).filter isReference).map String.ofList

/-! ## Loading -/

/-- `META_MAX_DEPTH`. -/
def metaMaxDepth : Nat := 4

/-- Where texts come from: the body of a URL, the content of a file. -/
structure Fetch where
  fetchUrl : String → Option Text
  readFile : String → Option Text

/-- `fetch_text`. -/
def Fetch.fetchText (env : Fetch) (src : String) : Option Text :=
  if isUrl src.toList then env.fetchUrl src else env.readFile src

/-- The blocklist and the visited set; `fetched` is not data of the program, it records the calls of
`fetch_text`. -/
structure Load where
  bl : Blocklist := ⟨[]⟩
  visited : List String := []
  fetched : List String := []

/-- `load_source`, with `left` = `META_MAX_DEPTH + 1 - depth` levels left, so that none is left at a
depth beyond `META_MAX_DEPTH`. -/
def loadSource (env : Fetch) : Nat → String → Load → Load
  | left, src, st =>
    let key := normalize src
    if key ∈ st.visited then st
    else
      let st := { st with visited := st.visited ++ [key] }
      match left with
      | 0 => st
      | left + 1 =>
        let st := { st with fetched := st.fetched ++ [src] }
        match env.fetchText src with
        | none => st
        | some text =>
          if looksLikeMetaList text then
            (references text).foldl (fun st ref => loadSource env left ref st) st
          else { st with bl := st.bl.parseHosts text }

/-- The loop over the configured sources, which start at depth 0. -/
def loadAll (env : Fetch) (sources : List String) : Load :=
  sources.foldl (fun st src => loadSource env (metaMaxDepth + 1) src st) {}

/-- `Blocklist::load_sources`. -/
def Blocklist.loadSources (env : Fetch) (sources : List String) : Blocklist :=
  (loadAll env sources).bl

/-- `Allowlist::load_sources`. -/
def Allowlist.loadSources (env : Fetch) (sources : List String) : Allowlist :=
  ⟨(loadAll env sources).bl.entries⟩

/-! ## Loading is a walk -/

/-- The references of a source: those of its text, if that is a meta-list. -/
def Fetch.refs (env : Fetch) (src : String) : List String :=
  match env.fetchText src with
  | none => []
  | some text => if looksLikeMetaList text then references text else []

/-- What a marked source adds to the entries. -/
def Fetch.absorb (env : Fetch) (bl : Blocklist) (mark : String × Nat) : Blocklist :=
  match mark.2, env.fetchText mark.1 with
  | _ + 1, some text => if looksLikeMetaList text then bl else bl.parseHosts text
  | _, _ => bl

/-- The state of the loader after a walk. -/
def Load.ofMarks (env : Fetch) (marks : List (String × Nat)) : Load :=
  { bl := marks.foldl env.absorb ⟨[]⟩
    visited := marks.map fun m => normalize m.1
    fetched := (marks.filter fun m => m.2 ≠ 0).map Prod.fst }

/-- A further mark. -/
theorem Load.ofMarks_concat (env : Fetch) (marks : List (String × Nat)) (src : String)
    (left : Nat) :
    Load.ofMarks env (marks ++ [(src, left)]) =
      { bl := env.absorb (Load.ofMarks env marks).bl (src, left)
        visited := (Load.ofMarks env marks).visited ++ [normalize src]
        fetched := (Load.ofMarks env marks).fetched ++ if left = 0 then [] else [src] } := by
  unfold Load.ofMarks
  rw [List.foldl_append, List.map_append, List.filter_append, List.map_append]
  cases left <;> rfl

/-- A source that is not visited yet, with a level left: it is fetched. -/
theorem loadSource_succ {env : Fetch} {left : Nat} {src : String} {st : Load}
    (h : normalize src ∉ st.visited) :
    loadSource env (left + 1) src st =
      let st' : Load := ⟨st.bl, st.visited ++ [normalize src], st.fetched ++ [src]⟩
      match env.fetchText src with
      | none => st'
      | some text =>
        if looksLikeMetaList text then
          (references text).foldl (fun st ref => loadSource env left ref st) st'
        else { st' with bl := st'.bl.parseHosts text } := if_neg h

/-- Loading from several sources is walking from them, when loading from one is. -/
theorem foldl_loadSource {env : Fetch} {left : Nat}
    (hone : ∀ src marks, loadSource env left src (Load.ofMarks env marks) =
      Load.ofMarks env (walk normalize env.refs left src marks)) (srcs : List String)
    (marks : List (String × Nat)) :
    srcs.foldl (fun st src => loadSource env left src st) (Load.ofMarks env marks) =
      Load.ofMarks env (walkEach normalize env.refs left srcs marks) := by
  induction srcs generalizing marks with
  | nil => rfl
  | cons src srcs ih =>
    rw [List.foldl_cons, hone]
    exact ih _

/-- **Loading a source is a walk from it.** -/
theorem loadSource_eq (env : Fetch) (left : Nat) (src : String) (marks : List (String × Nat)) :
    loadSource env left src (Load.ofMarks env marks) =
      Load.ofMarks env (walk normalize env.refs left src marks) := by
  induction left generalizing src marks with
  | zero =>
    by_cases hk : normalize src ∈ marks.map fun m => normalize m.1
    · rw [walk_marked hk]
      exact if_pos hk
    · rw [walk_zero hk, Load.ofMarks_concat, if_pos rfl, List.append_nil]
      exact if_neg hk
  | succ left ih =>
    by_cases hk : normalize src ∈ marks.map fun m => normalize m.1
    · rw [walk_marked hk]
      exact if_pos hk
    · rw [walk_succ hk, loadSource_succ hk]
      dsimp only
      cases hfetch : env.fetchText src with
      | none =>
        have hrefs : env.refs src = [] := by
          unfold Fetch.refs
          rw [hfetch]
        rw [hrefs]
        show _ = Load.ofMarks env (marks ++ _)
        rw [Load.ofMarks_concat]
        simp [Fetch.absorb, hfetch]
      | some text =>
        cases hmeta : looksLikeMetaList text with
        | true =>
          have hrefs : env.refs src = references text := by
            unfold Fetch.refs
            rw [hfetch]
            exact if_pos hmeta
          rw [hrefs, ← foldl_loadSource ih, Load.ofMarks_concat]
          simp [Fetch.absorb, hfetch, hmeta]
        | false =>
          have hrefs : env.refs src = [] := by
            unfold Fetch.refs
            rw [hfetch]
            exact if_neg (by simp [hmeta])
          rw [hrefs]
          show _ = Load.ofMarks env (marks ++ _)
          rw [Load.ofMarks_concat]
          simp [Fetch.absorb, hfetch, hmeta]

/-- The walk of a configuration: every source that was met, when it was first met, with the levels
that were left then. -/
def Fetch.marks (env : Fetch) (sources : List String) : List (String × Nat) :=
  walkAll normalize env.refs (metaMaxDepth + 1) sources

theorem loadAll_eq (env : Fetch) (sources : List String) :
    loadAll env sources = Load.ofMarks env (env.marks sources) :=
  foldl_loadSource (loadSource_eq env (metaMaxDepth + 1)) sources []

/-! ## Bounded and sound -/

theorem mem_parseHosts {bl : Blocklist} {text : Text} {x : String} :
    x ∈ (bl.parseHosts text).entries ↔ x ∈ bl.entries ∨ x ∈ hostNames text := by
  unfold Blocklist.parseHosts hostNames
  dsimp only
  generalize lines text = ls
  obtain ⟨entries⟩ := bl
  dsimp only
  induction ls generalizing entries with
  | nil => simp
  | cons line ls ih =>
    rw [List.foldl_cons, ih, List.filterMap_cons]
    cases parseHostsLine line with
    | none => rfl
    | some name =>
      rw [List.mem_insert_iff, List.mem_cons]
      constructor
      · rintro ((h | h) | h)
        · exact Or.inr (Or.inl h)
        · exact Or.inl h
        · exact Or.inr (Or.inr h)
      · rintro (h | h | h)
        · exact Or.inl (Or.inr h)
        · exact Or.inl (Or.inl h)
        · exact Or.inr h

/-- The source is a list, not a meta-list, and names `x`. -/
def Fetch.Lists (env : Fetch) (src x : String) : Prop :=
  ∃ text, env.fetchText src = some text ∧ looksLikeMetaList text = false ∧ x ∈ hostNames text

/-- The entries are the names on the lists that were marked with a level left. -/
theorem mem_foldl_absorb {env : Fetch} {marks : List (String × Nat)} {bl : Blocklist} {x : String} :
    x ∈ (marks.foldl env.absorb bl).entries ↔ x ∈ bl.entries ∨
      ∃ src left, (src, left + 1) ∈ marks ∧ env.Lists src x := by
  induction marks generalizing bl with
  | nil => simp
  | cons mark marks ih =>
    obtain ⟨src, left⟩ := mark
    have hone : x ∈ (env.absorb bl (src, left)).entries ↔
        x ∈ bl.entries ∨ left ≠ 0 ∧ env.Lists src x := by
      unfold Fetch.absorb Fetch.Lists
      cases left with
      | zero => simp
      | succ left =>
        dsimp only
        cases env.fetchText src with
        | none => simp
        | some text =>
          cases hmeta : looksLikeMetaList text with
          | true => simp [hmeta]
          | false => simp [hmeta, mem_parseHosts]
    rw [List.foldl_cons, ih, hone, or_assoc]
    refine or_congr_right ?_
    constructor
    · rintro (⟨hleft, hlists⟩ | ⟨src', left', hmem, hlists⟩)
      · obtain ⟨left', rfl⟩ := Nat.exists_eq_succ_of_ne_zero hleft
        exact ⟨src, left', List.mem_cons_self, hlists⟩
      · exact ⟨src', left', List.mem_cons_of_mem _ hmem, hlists⟩
    · rintro ⟨src', left', hmem, hlists⟩
      rcases List.mem_cons.mp hmem with heq | hmem
      · obtain ⟨rfl, rfl⟩ := Prod.mk.inj heq
        exact Or.inl ⟨Nat.succ_ne_zero left', hlists⟩
      · exact Or.inr ⟨src', left', hmem, hlists⟩

theorem mem_loadSources {env : Fetch} {sources : List String} {x : String} :
    x ∈ (Blocklist.loadSources env sources).entries ↔
      ∃ src left, (src, left + 1) ∈ env.marks sources ∧ env.Lists src x := by
  unfold Blocklist.loadSources
  rw [loadAll_eq]
  show x ∈ ((env.marks sources).foldl env.absorb ⟨[]⟩).entries ↔ _
  rw [mem_foldl_absorb]
  exact or_iff_right List.not_mem_nil

theorem mem_fetched {env : Fetch} {sources : List String} {src : String} :
    src ∈ (loadAll env sources).fetched ↔ ∃ left, (src, left + 1) ∈ env.marks sources := by
  rw [loadAll_eq]
  show src ∈ ((env.marks sources).filter fun m => m.2 ≠ 0).map Prod.fst ↔ _
  simp only [List.mem_map, List.mem_filter, decide_eq_true_eq]
  constructor
  · rintro ⟨⟨src', left⟩, ⟨hmem, hne⟩, rfl⟩
    obtain ⟨left', rfl⟩ := Nat.exists_eq_succ_of_ne_zero hne
    exact ⟨left', hmem⟩
  · rintro ⟨left, hmem⟩
    exact ⟨(src, left + 1), ⟨hmem, Nat.succ_ne_zero left⟩, rfl⟩

/-- A source that was met with a level left is at most four references from a configured one. -/
theorem marks_reach {env : Fetch} {sources : List String} {src : String} {left : Nat}
    (h : (src, left + 1) ∈ env.marks sources) :
    ∃ root ∈ sources, ∃ r ≤ metaMaxDepth, Chain env.refs r root src := by
  obtain ⟨root, hroot, r, hchain, hsum⟩ := walkAll_reaches h
  exact ⟨root, hroot, r, by omega, hchain⟩

/-- **The expansion is bounded and sound.** Whatever the references, no source is fetched twice,
every fetched source is at most `META_MAX_DEPTH` references from a configured one, and every entry
is what `parse_hosts_line` makes of a line of a fetched text. The allowlist has the same entries as
the blocklist. -/
theorem expansion_bounded_sound (env : Fetch) (sources : List String) :
    (loadAll env sources).fetched.Nodup ∧
      (∀ src ∈ (loadAll env sources).fetched,
        ∃ root ∈ sources, ∃ r ≤ metaMaxDepth, Chain env.refs r root src) ∧
      (∀ x ∈ (Blocklist.loadSources env sources).entries,
        ∃ src ∈ (loadAll env sources).fetched, ∃ text, env.fetchText src = some text ∧
          ∃ line ∈ lines text, parseHostsLine line = some x) ∧
      (Allowlist.loadSources env sources).entries = (Blocklist.loadSources env sources).entries := by
  refine ⟨?_, ?_, ?_, rfl⟩
  · have hkeys : ((env.marks sources).map fun m => normalize m.1).Nodup :=
      walkAll_nodup (metaMaxDepth + 1) sources
    rw [loadAll_eq]
    show (((env.marks sources).filter fun m => m.2 ≠ 0).map Prod.fst).Nodup
    refine List.Nodup.of_map normalize ?_
    rw [List.map_map]
    exact hkeys.sublist (List.filter_sublist.map _)
  · intro src hsrc
    obtain ⟨left, hmark⟩ := mem_fetched.mp hsrc
    exact marks_reach hmark
  · intro x hx
    obtain ⟨src, left, hmark, text, hfetch, -, hname⟩ := mem_loadSources.mp hx
    obtain ⟨line, hline, hparse⟩ := List.mem_filterMap.mp hname
    exact ⟨src, mem_fetched.mpr ⟨left, hmark⟩, text, hfetch, line, hline, hparse⟩

/-! ## Complete -/

/-- A list at most `META_MAX_DEPTH` references from a configured source names `x`. -/
def Fetch.InReach (env : Fetch) (sources : List String) (x : String) : Prop :=
  ∃ root ∈ sources, ∃ r ≤ metaMaxDepth, ∃ src, Chain env.refs r root src ∧ env.Lists src x

/-- A list at an open place, at most `META_MAX_DEPTH` references deep, names `x`. -/
def Fetch.AtOpenPlace (env : Fetch) (sources : List String) (x : String) : Prop :=
  ∃ p src left, PlaceIs normalize env.refs (metaMaxDepth + 1) sources true p ∧
    At env.refs (metaMaxDepth + 1) sources p src (left + 1) ∧ env.Lists src x

theorem mem_loadSources_iff_open {env : Fetch} {sources : List String} {x : String} :
    x ∈ (Blocklist.loadSources env sources).entries ↔ env.AtOpenPlace sources x := by
  rw [mem_loadSources]
  constructor
  · rintro ⟨src, left, hmark, hlists⟩
    obtain ⟨p, hopen, hat⟩ := walkAll_marks_iff.mp hmark
    exact ⟨p, src, left, hopen, hat, hlists⟩
  · rintro ⟨p, src, left, hopen, hat, hlists⟩
    exact ⟨src, left, walkAll_marks_iff.mpr ⟨p, hopen, hat⟩, hlists⟩

/-- The entries are the names on the lists in reach. -/
def Fetch.Complete (env : Fetch) (sources : List String) : Prop :=
  ∀ x, x ∈ (Blocklist.loadSources env sources).entries ↔ env.InReach sources x

theorem complete_of_open {env : Fetch} {sources : List String}
    (h : ∀ x, env.InReach sources x → env.AtOpenPlace sources x) : env.Complete sources := by
  intro x
  refine ⟨?_, fun hx => mem_loadSources_iff_open.mpr (h x hx)⟩
  intro hx
  obtain ⟨src, left, hmark, hlists⟩ := mem_loadSources.mp hx
  obtain ⟨root, hroot, r, hr, hchain⟩ := marks_reach hmark
  exact ⟨root, hroot, r, hr, src, hchain, hlists⟩

/-- What is in reach does not depend on the order of the sources. -/
theorem Fetch.InReach.perm {env : Fetch} {sources sources' : List String} {x : String}
    (h : env.InReach sources x) (hperm : sources.Perm sources') : env.InReach sources' x := by
  obtain ⟨root, hroot, hrest⟩ := h
  exact ⟨root, hperm.subset hroot, hrest⟩

/-- **When the expansion is complete**: the entries are the names on the lists in reach exactly when
each of these names is on a list at an open place. Between orders of the sources for which that is so,
the entries do not differ. -/
theorem expansion_complete_iff (env : Fetch) (sources : List String) :
    (env.Complete sources ↔ ∀ x, env.InReach sources x → env.AtOpenPlace sources x) ∧
      ∀ sources', sources.Perm sources' →
        (∀ x, env.InReach sources x → env.AtOpenPlace sources x) →
        (∀ x, env.InReach sources' x → env.AtOpenPlace sources' x) →
        ∀ x, x ∈ (Blocklist.loadSources env sources).entries ↔
          x ∈ (Blocklist.loadSources env sources').entries := by
  refine ⟨⟨?_, complete_of_open⟩, ?_⟩
  · intro h x hx
    exact mem_loadSources_iff_open.mp ((h x).mpr hx)
  · intro sources' hperm hopen hopen' x
    rw [complete_of_open hopen x, complete_of_open hopen' x]
    exact ⟨fun hx => hx.perm hperm, fun hx => hx.perm hperm.symm⟩

/-- No source is met in two spellings or at two depths. -/
def Fetch.OneWay (env : Fetch) (sources : List String) : Prop :=
  ∀ p q src src' left left', At env.refs (metaMaxDepth + 1) sources p src left →
    At env.refs (metaMaxDepth + 1) sources q src' left' → normalize src = normalize src' →
    src = src' ∧ left = left'

/-- Then the expansion is complete. -/
theorem complete_of_oneWay {env : Fetch} {sources : List String} (h : env.OneWay sources) :
    env.Complete sources := by
  refine complete_of_open ?_
  rintro x ⟨root, hroot, r, hr, src, hchain, hlists⟩
  obtain ⟨i, hi⟩ := List.mem_iff_getElem?.mp hroot
  have hat : At env.refs (metaMaxDepth + 1) sources [i] root (metaMaxDepth - r + 1 + r) := by
    rw [show metaMaxDepth - r + 1 + r = metaMaxDepth + 1 by omega]
    exact .root hi
  obtain ⟨p, hp⟩ := hat.of_chain hchain
  obtain ⟨q, hopen, hq⟩ := exists_open_of_one_way h hp
  exact ⟨q, src, metaMaxDepth - r, hopen, hq, hlists⟩

/-- Five meta-lists in a row before a list. Each line is there twice: a meta-list has at least two
references. -/
def nestedLists : Fetch where
  fetchUrl _ := none
  readFile src :=
    match src with
    | "/m0" => some "/m1\n/m1\n".toList
    | "/m1" => some "/m2\n/m2\n".toList
    | "/m2" => some "/m3\n/m3\n".toList
    | "/m3" => some "/m4\n/m4\n".toList
    | "/m4" => some "/ads\n/ads\n".toList
    | "/ads" => some "0.0.0.0 ads.example\n".toList
    | _ => none

/-- A configured list is lost when a meta-list before it leads to it in five steps: it is marked
there, too deep to be loaded. In the other order it is loaded. -/
theorem configured_list_lost :
    nestedLists.InReach ["/m0", "/ads"] "ads.example" ∧
      (Blocklist.loadSources nestedLists ["/m0", "/ads"]).entries = [] ∧
      (Blocklist.loadSources nestedLists ["/ads", "/m0"]).entries = ["ads.example"] ∧
      ¬ nestedLists.Complete ["/m0", "/ads"] := by
  have hreach : nestedLists.InReach ["/m0", "/ads"] "ads.example" :=
    ⟨"/ads", by simp, 0, Nat.zero_le _, "/ads", rfl, _, rfl, by decide +kernel, by decide +kernel⟩
  have hlost : (Blocklist.loadSources nestedLists ["/m0", "/ads"]).entries = [] := by
    decide +kernel
  refine ⟨hreach, hlost, by decide +kernel, ?_⟩
  intro h
  have hmem := (h "ads.example").mpr hreach
  rw [hlost] at hmem
  exact absurd hmem List.not_mem_nil

end Heimdallr
