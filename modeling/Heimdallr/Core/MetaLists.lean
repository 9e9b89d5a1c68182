import Heimdallr.Core.HostsLines

/-!
# Lists and meta-lists (`core/filter/blocklist.rs`)

Two functions tell what a line is: `looks_like_meta_list` counts references and hosts, and
`parse_hosts_line` takes an entry from the line. They disagree in two ways: an IPv6 address makes an
entry and no host, and a line with an AdGuard mark or an IPv4 address counts as a host whether or
not there is an entry in it.

A list that is taken for a meta-list loses all its entries: its lines are gone through for
references only. So the count of hosts is compared with the number of entries, line by line
(`lines_balance`), and the comparison of the source with the one that is meant.

Results:
* `looksLikeMetaList_eq`: the two counts, as sums over the lines.
* `lines_balance`: how the count of hosts and the number of entries differ.
* **`meta_detection_iff`**: when a list with no fewer entries than references is taken for a list,
  and what `load_source` makes of it otherwise.
-/

namespace Heimdallr

open Lib Net Zone

/-! ## Kinds of lines -/

/-- An http(s) URL, or a line that begins with `/`. -/
def sourceLine (line : Text) : Bool := isReference (trim line)

/-- The line yields an entry. -/
def entryLine (line : Text) : Bool := (parseHostsLine line).isSome

/-- An AdGuard mark, or an IPv4 address in front. -/
def hostLine (line : Text) : Bool :=
  startsWith "||".toList (trim line) || startsWith "@@||".toList (trim line) ||
    (splitWhitespace line).head?.any fun t => (parseIpv4 t).isSome

/-- An IPv6 address in front. -/
def ipv6Line (line : Text) : Bool :=
  (splitWhitespace line).head?.any fun t =>
    match parseIpAddr t with
    | some (.V6 _) => true
    | _ => false

/-- An IPv4 address, as the reader of both kinds sees it. -/
theorem parseIpv4_isSome {t : Text} :
    (parseIpv4 t).isSome = true ↔ ∃ a, parseIpAddr t = some (.V4 a) := by
  rw [Option.isSome_iff_exists]
  exact exists_congr fun _ => parseIpv4_eq_some

theorem startsWith_iff {start t : Text} : startsWith start t = true ↔ ∃ rest, t = start ++ rest := by
  unfold startsWith
  rw [List.isPrefixOf_iff_prefix]
  exact exists_congr fun _ => eq_comm

theorem hostLine_iff {line : Text} :
    hostLine line = true ↔ (∃ rest, AdGuard line rest) ∨
      ∃ ip more a, splitWhitespace line = ip :: more ∧ parseIpAddr ip = some (.V4 a) := by
  unfold hostLine AdGuard
  rw [Bool.or_eq_true, Bool.or_eq_true, startsWith_iff, startsWith_iff, exists_or]
  refine or_congr_right ?_
  cases splitWhitespace line with
  | nil => simp
  | cons ip more =>
    rw [List.head?_cons, Option.any_some, parseIpv4_isSome]
    simp

theorem ipv6Line_iff {line : Text} :
    ipv6Line line = true ↔
      ∃ ip more a, splitWhitespace line = ip :: more ∧ parseIpAddr ip = some (.V6 a) := by
  unfold ipv6Line
  cases splitWhitespace line with
  | nil => simp
  | cons ip more =>
    rw [List.head?_cons, Option.any_some]
    cases hip : parseIpAddr ip with
    | none => simp [hip]
    | some a => cases a <;> simp [hip]

/-- A line that counts as a host is no comment and no reference. -/
theorem first_of_hostLine {line : Text} (h : hostLine line = true) :
    ∃ c rest, trim line = c :: rest ∧ c ≠ '#' ∧ c ≠ 'h' ∧ c ≠ '/' := by
  rcases hostLine_iff.mp h with ⟨rest, hmark | hmark⟩ | ⟨ip, more, a, hfields, hip⟩
  · exact ⟨'|', _, hmark, by decide, by decide, by decide⟩
  · exact ⟨'@', _, hmark, by decide, by decide, by decide⟩
  · have hparses : (parseIpAddr ip).isSome = true := by rw [hip]; rfl
    obtain ⟨c, rest, htrim, hhash, -, -, hurl, hslash⟩ := trim_of_address hfields hparses
    exact ⟨c, rest, htrim, hhash, hurl, hslash⟩

theorem first_of_sourceLine {line : Text} (h : sourceLine line = true) :
    ∃ c rest, trim line = c :: rest ∧ (c = 'h' ∨ c = '/') := by
  unfold sourceLine isReference isUrl at h
  rw [Bool.or_eq_true, Bool.or_eq_true, startsWith_iff, startsWith_iff, startsWith_iff] at h
  rcases h with (⟨rest, h⟩ | ⟨rest, h⟩) | ⟨rest, h⟩
  · exact ⟨'h', _, h, Or.inl rfl⟩
  · exact ⟨'h', _, h, Or.inl rfl⟩
  · exact ⟨'/', _, h, Or.inr rfl⟩

/-- A line is not both. -/
theorem hostLine_of_sourceLine {line : Text} (h : sourceLine line = true) :
    hostLine line = false := by
  by_contra hhost
  obtain ⟨c, rest, htrim, -, hurl, hslash⟩ := first_of_hostLine (by simpa using hhost)
  obtain ⟨c', rest', htrim', hc'⟩ := first_of_sourceLine h
  obtain ⟨rfl, -⟩ := List.cons.inj (htrim.symm.trans htrim')
  rcases hc' with rfl | rfl
  · exact hurl rfl
  · exact hslash rfl

/-- What begins like this is neither blank nor a comment. -/
theorem not_blank_of_first {line rest : Text} {c : Char} (h : trim line = c :: rest)
    (hc : c ≠ '#') : ((trim line).isEmpty || startsWith ['#'] (trim line)) = false := by
  rw [h, startsWith_cons_of_ne hc]
  rfl

/-! ## Counting lines -/

/-- One line of `looks_like_meta_list`. -/
theorem countLine_eq (counts : Nat × Nat) (line : Text) :
    countLine counts line =
      (counts.1 + (if sourceLine line then 1 else 0), counts.2 + if hostLine line then 1 else 0) := by
  unfold countLine
  dsimp only
  rw [splitWhitespace_trim]
  cases hblank : (trim line).isEmpty || startsWith ['#'] (trim line) with
  | true =>
    have hsource : sourceLine line = false := by
      by_contra hsource
      obtain ⟨c, rest, htrim, hc⟩ := first_of_sourceLine (by simpa using hsource)
      have hhash : c ≠ '#' := by rcases hc with rfl | rfl <;> decide
      rw [not_blank_of_first htrim hhash] at hblank
      cases hblank
    have hhost : hostLine line = false := by
      by_contra hhost
      obtain ⟨c, rest, htrim, hhash, -⟩ := first_of_hostLine (by simpa using hhost)
      rw [not_blank_of_first htrim hhash] at hblank
      cases hblank
    rw [hsource, hhost]
    rfl
  | false =>
    rw [if_neg Bool.false_ne_true]
    cases hsource : sourceLine line with
    | true =>
      rw [hostLine_of_sourceLine hsource]
      exact if_pos hsource
    | false =>
      have hnot : ¬ isReference (trim line) = true := Bool.eq_false_iff.mp hsource
      rw [if_neg hnot]
      show (if hostLine line = true then _ else _) = _
      cases hostLine line <;> rfl

theorem foldl_countLine (ls : List Text) (counts : Nat × Nat) :
    ls.foldl countLine counts =
      (counts.1 + ls.countP sourceLine, counts.2 + ls.countP hostLine) := by
  induction ls generalizing counts with
  | nil => rfl
  | cons line ls ih =>
    rw [List.foldl_cons, ih, countLine_eq, List.countP_cons, List.countP_cons]
    dsimp only
    rw [Nat.add_assoc, Nat.add_assoc, Nat.add_comm (ls.countP sourceLine),
      Nat.add_comm (ls.countP hostLine)]

/-- At least two references, and more of them than hosts. -/
theorem looksLikeMetaList_eq (text : Text) :
    looksLikeMetaList text =
      (decide (2 ≤ (lines text).countP sourceLine) &&
        decide ((lines text).countP hostLine < (lines text).countP sourceLine)) := by
  unfold looksLikeMetaList
  rw [foldl_countLine]
  simp

/-! ## Hosts and entries -/

/-- An entry comes from a line that counts as a host or begins with an IPv6 address. -/
theorem entryLine_kind {line : Text} (h : entryLine line = true) :
    hostLine line = true ∨ ipv6Line line = true := by
  obtain ⟨x, hx⟩ := Option.isSome_iff_exists.mp h
  obtain ⟨name, hfirst, -⟩ := parseHostsLine_eq_some_iff.mp hx
  cases hfirst with
  | adGuard hmark hname => exact Or.inl (hostLine_iff.mpr (Or.inl ⟨_, hmark⟩))
  | @hosts ip _ more hfields hip =>
    obtain ⟨a, ha⟩ := Option.isSome_iff_exists.mp hip
    cases a with
    | V4 v4 => exact Or.inl (hostLine_iff.mpr (Or.inr ⟨ip, _, v4, hfields, ha⟩))
    | V6 v6 => exact Or.inr (ipv6Line_iff.mpr ⟨ip, _, v6, hfields, ha⟩)

/-- A line with an IPv6 address in front does not count as a host. -/
theorem hostLine_of_ipv6Line {line : Text} (h : ipv6Line line = true) : hostLine line = false := by
  obtain ⟨ip, more, a, hfields, hip⟩ := ipv6Line_iff.mp h
  by_contra hhost
  rcases hostLine_iff.mp (by simpa using hhost) with ⟨rest, hmark⟩ | ⟨ip', more', a', hfields', hip'⟩
  · have hparses : (parseIpAddr ip).isSome = true := by rw [hip]; rfl
    obtain ⟨c, rest', htrim, -, hbar, hat, -⟩ := trim_of_address hfields hparses
    -- the mark is not what the address begins with
    rcases hmark with hmark | hmark
    · exact hbar (List.cons.inj (htrim.symm.trans hmark)).1
    · exact hat (List.cons.inj (htrim.symm.trans hmark)).1
  · obtain ⟨rfl, -⟩ := List.cons.inj (hfields.symm.trans hfields')
    rw [hip] at hip'
    cases hip'

/-- **How the two functions differ**: by the IPv6 lines with an entry, and by the lines that count as
hosts and have none. -/
theorem lines_balance (ls : List Text) :
    ls.countP hostLine + ls.countP (fun line => entryLine line && ipv6Line line) =
      ls.countP entryLine + ls.countP fun line => hostLine line && !entryLine line := by
  induction ls with
  | nil => rfl
  | cons line ls ih =>
    simp only [List.countP_cons]
    cases hentry : entryLine line with
    | false => cases hostLine line <;> simp <;> omega
    | true =>
      cases hipv6 : ipv6Line line with
      | true => simp [hostLine_of_ipv6Line hipv6]; omega
      | false =>
        have hhost : hostLine line = true := by
          rcases entryLine_kind hentry with hhost | htrue
          · exact hhost
          · rw [hipv6] at htrue
            cases htrue
        simp [hhost]
        omega

/-! ## Taken for a list -/

/-- The loader takes the entries of a text, wherever it meets it. -/
def KeepsEntries (text : Text) : Prop :=
  ∀ (env : Fetch) (left : Nat) (src : String) (st : Load), normalize src ∉ st.visited →
    env.fetchText src = some text → (loadSource env (left + 1) src st).bl = st.bl.parseHosts text

theorem keepsEntries_of_list {text : Text} (h : looksLikeMetaList text = false) :
    KeepsEntries text := by
  intro env left src st hnew hfetch
  rw [loadSource_succ hnew]
  simp only [hfetch, h, Bool.false_eq_true, if_false]

/-- A text is taken for a list when it has one reference at most, or its references with the IPv6
entries do not outnumber all entries with the hosts that are none. -/
theorem looksLikeMetaList_eq_false {text : Text} :
    looksLikeMetaList text = false ↔
      (lines text).countP sourceLine ≤ 1 ∨
        (lines text).countP sourceLine +
            (lines text).countP (fun line => entryLine line && ipv6Line line) ≤
          (lines text).countP entryLine +
            (lines text).countP fun line => hostLine line && !entryLine line := by
  have hbalance := lines_balance (lines text)
  rw [looksLikeMetaList_eq, Bool.and_eq_false_iff, decide_eq_false_iff_not,
    decide_eq_false_iff_not]
  omega

/-- **When no fewer entries than references make a list.** -/
theorem meta_detection_iff (text : Text) :
    ((lines text).countP sourceLine ≤ (lines text).countP entryLine →
        looksLikeMetaList text = false ∧ KeepsEntries text) ↔
      (lines text).countP sourceLine ≤ 1 ∨
        (lines text).countP entryLine < (lines text).countP sourceLine ∨
        (lines text).countP sourceLine +
            (lines text).countP (fun line => entryLine line && ipv6Line line) ≤
          (lines text).countP entryLine +
            (lines text).countP fun line => hostLine line && !entryLine line := by
  constructor
  · intro h
    by_cases hmost : (lines text).countP sourceLine ≤ (lines text).countP entryLine
    · have hlist := looksLikeMetaList_eq_false.mp (h hmost).1
      omega
    · omega
  · intro hcount hmost
    have hlist : looksLikeMetaList text = false := looksLikeMetaList_eq_false.mpr (by omega)
    exact ⟨hlist, keepsEntries_of_list hlist⟩

/-- Two references among three hosts, all with IPv6 addresses. -/
def ipv6List : Text :=
  "https://lists.example/a\nhttps://lists.example/b\n:: ads.example\n:: trk.example\n:: x.example".toList

/-- **A list that is dropped.** -/
theorem ipv6_list_dropped :
    (lines ipv6List).countP sourceLine = 2 ∧ (lines ipv6List).countP entryLine = 3 ∧
      looksLikeMetaList ipv6List = true := by
  decide +kernel

end Heimdallr
