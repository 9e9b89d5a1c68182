import Heimdallr.Core.Suffixes
import Heimdallr.Lib.Words
import Heimdallr.Net.AddrSpec

/-!
# The lines of a list (`core/filter/blocklist.rs`)

`parse_hosts_line` takes an entry from a line. Comments, the marks of AdGuard lists (`||name^`), an
address in front, and the names that stand for the local host are all dealt with in one function,
which returns at the first name it has found.

`FirstName` is its grammar, stated without the order of the tests: a line is about what follows an
AdGuard mark, or about the field behind an address. `parseHostsLine_eq_some_iff` connects the two,
and everything else goes by the grammar.

Results:
* **`every_name_iff`**: when all names of a hosts line are blocked. The line itself blocks the
  first; the comment of the function has several names on a line.
* **`entry_invariant_iff`**: when the entries of downloaded lists are neither empty nor the local
  host. The tests on a name come before it is normalized, and none is for the root.

Whether a list is read line by line at all, or as a meta-list, is `Core.MetaLists`.
-/

namespace Heimdallr

open Lib Net Zone

/-! ## The grammar of a line -/

/-- The rest of a line behind an AdGuard mark. -/
def AdGuard (line rest : Text) : Prop :=
  trim line = "||".toList ++ rest ∨ trim line = "@@||".toList ++ rest

/-- The name a line is about: the first word behind an AdGuard mark, or the field behind an address. -/
inductive FirstName (line : Text) : Text → Prop
  | adGuard {rest name : Text} (hmark : AdGuard line rest)
      (hname : (splitWhitespace (trimEndMatches '^' rest)).head? = some name) : FirstName line name
  | hosts {ip name : Text} {more : List Text} (hfields : splitWhitespace line = ip :: name :: more)
      (hip : (parseIpAddr ip).isSome = true) : FirstName line name

/-- Not the local host, and not a path. -/
structure Acceptable (name : Text) : Prop where
  not_localhost : name ≠ "localhost".toList
  not_localdomain : name ≠ "localhost.localdomain".toList
  no_slash : '/' ∉ name

instance (name : Text) : Decidable (Acceptable name) :=
  decidable_of_iff (name ≠ "localhost".toList ∧ name ≠ "localhost.localdomain".toList ∧ '/' ∉ name)
    ⟨fun ⟨h₁, h₂, h₃⟩ => ⟨h₁, h₂, h₃⟩, fun ⟨h₁, h₂, h₃⟩ => ⟨h₁, h₂, h₃⟩⟩

theorem acceptName_eq_some {name : Text} {x : String} :
    acceptName name = some x ↔
      name ≠ [] ∧ Acceptable name ∧ x = normalize (String.ofList name) := by
  unfold acceptName
  constructor
  · intro h
    split at h
    · cases h
    · rename_i hok
      simp only [Bool.or_eq_true, List.isEmpty_iff, beq_iff_eq, List.contains_iff_mem,
        not_or] at hok
      obtain ⟨⟨⟨hne, hlocal⟩, hdomain⟩, hslash⟩ := hok
      exact ⟨hne, ⟨hlocal, hdomain, hslash⟩, (Option.some.inj h).symm⟩
  · rintro ⟨hne, ⟨hlocal, hdomain, hslash⟩, rfl⟩
    rw [if_neg]
    simp only [Bool.or_eq_true, List.isEmpty_iff, beq_iff_eq, List.contains_iff_mem, not_or]
    exact ⟨⟨⟨hne, hlocal⟩, hdomain⟩, hslash⟩

theorem splitWhitespace_eq (t : Text) : splitWhitespace t = words isWhitespace t := rfl

theorem splitWhitespace_trim (line : Text) : splitWhitespace (trim line) = splitWhitespace line := by
  rw [splitWhitespace_eq, splitWhitespace_eq]
  show words isWhitespace ((line.dropWhile isWhitespace).rdropWhile isWhitespace) = _
  rw [words_rdropWhile, words_dropWhile]

/-- A trimmed line does not begin with a blank. -/
theorem trim_head {line rest : Text} {c : Char} (h : trim line = c :: rest) :
    isWhitespace c = false := by
  have hprefix : trim line <+: line.dropWhile isWhitespace := List.rdropWhile_prefix isWhitespace _
  rw [h] at hprefix
  obtain ⟨more, hmore⟩ := hprefix
  have hhead := List.head_dropWhile_not isWhitespace (l := line) (by simp [← hmore])
  simpa [← hmore] using hhead

/-- A trimmed line begins as its first field does. -/
theorem trim_of_fields {line first : Text} {more : List Text}
    (h : splitWhitespace line = first :: more) :
    ∃ c rest rest', first = c :: rest ∧ trim line = c :: rest' := by
  rw [← splitWhitespace_trim, splitWhitespace_eq] at h
  cases htrim : trim line with
  | nil =>
    rw [htrim] at h
    simp [words] at h
  | cons c rest' =>
    rw [htrim, words_of_head (trim_head htrim)] at h
    obtain ⟨hfirst, -⟩ := List.cons.inj h
    exact ⟨c, _, rest', hfirst.symm, rfl⟩

/-- No address begins with what marks the other lines. -/
theorem address_first {c : Char} {rest : Text} (h : (parseIpAddr (c :: rest)).isSome = true) :
    c ≠ '#' ∧ c ≠ '|' ∧ c ≠ '@' ∧ c ≠ 'h' ∧ c ≠ '/' := by
  have hnone : ∀ d : Char, toDigit 16 d = none → d ≠ ':' → c ≠ d := by
    rintro d hdigit hcolon rfl
    rw [parseIpAddr_eq_none hdigit hcolon] at h
    cases h
  exact ⟨hnone _ (by decide) (by decide), hnone _ (by decide) (by decide),
    hnone _ (by decide) (by decide), hnone _ (by decide) (by decide), hnone _ (by decide) (by decide)⟩

/-- A line with an address in front begins with none of these marks. -/
theorem trim_of_address {line ip : Text} {more : List Text}
    (hfields : splitWhitespace line = ip :: more) (hip : (parseIpAddr ip).isSome = true) :
    ∃ c rest, trim line = c :: rest ∧ c ≠ '#' ∧ c ≠ '|' ∧ c ≠ '@' ∧ c ≠ 'h' ∧ c ≠ '/' := by
  obtain ⟨c, rest, rest', rfl, htrim⟩ := trim_of_fields hfields
  exact ⟨c, rest', htrim, address_first hip⟩

theorem startsWith_cons_of_ne {c d : Char} (h : c ≠ d) (start t : Text) :
    startsWith (d :: start) (c :: t) = false := by
  unfold startsWith List.isPrefixOf
  rw [beq_eq_false_iff_ne.mpr (Ne.symm h), Bool.false_and]

theorem stripStart_eq_some {start t rest : Text} :
    stripStart start t = some rest ↔ t = start ++ rest := by
  unfold stripStart startsWith
  constructor
  · intro h
    split at h
    · rename_i hstart
      obtain ⟨rest', rfl⟩ := List.isPrefixOf_iff_prefix.mp hstart
      rw [List.drop_left] at h
      rw [Option.some.inj h]
    · cases h
  · rintro rfl
    rw [if_pos (List.isPrefixOf_iff_prefix.mpr (List.prefix_append _ _)), List.drop_left]

theorem stripStart_cons_of_ne {c d : Char} (h : c ≠ d) (start t : Text) :
    stripStart (d :: start) (c :: t) = none := by
  unfold stripStart
  rw [startsWith_cons_of_ne h]
  rfl

theorem isUrl_cons_of_ne {c : Char} (h : c ≠ 'h') (t : Text) : isUrl (c :: t) = false := by
  have hplain : startsWith "http://".toList (c :: t) = false := startsWith_cons_of_ne h _ _
  have hsecure : startsWith "https://".toList (c :: t) = false := startsWith_cons_of_ne h _ _
  unfold isUrl
  rw [hplain, hsecure, Bool.or_false]

/-- What the line parser strips off a mark, if there is one. -/
def markRest (line : Text) : Option Text :=
  (stripStart "||".toList (trim line)).or (stripStart "@@||".toList (trim line))

theorem markRest_eq_some {line rest : Text} : markRest line = some rest ↔ AdGuard line rest := by
  unfold markRest AdGuard
  rw [Option.or_eq_some_iff, stripStart_eq_some, stripStart_eq_some]
  refine or_congr_right ⟨fun h => h.2, fun h => ⟨?_, h⟩⟩
  rw [h]
  exact stripStart_cons_of_ne (by decide) _ _

/-- `parse_hosts_line`, on the fields of the line itself. -/
theorem parseHostsLine_eq (line : Text) :
    parseHostsLine line =
      if (trim line).isEmpty || startsWith ['#'] (trim line) then none
      else
        match markRest line with
        | some rest => (splitWhitespace (trimEndMatches '^' rest)).head?.bind acceptName
        | none =>
          match splitWhitespace line with
          | [] => none
          | first :: parts =>
            if isUrl first then none
            else if (parseIpAddr first).isNone then none
            else parts.head?.bind acceptName := by
  rw [← splitWhitespace_trim line]
  rfl

/-- A line with an AdGuard mark. -/
theorem parseHostsLine_adGuard {line rest : Text} (h : AdGuard line rest) :
    parseHostsLine line =
      (splitWhitespace (trimEndMatches '^' rest)).head?.bind acceptName := by
  have hgoes : ((trim line).isEmpty || startsWith ['#'] (trim line)) = false := by
    rcases h with h | h <;> rw [h] <;> rfl
  rw [parseHostsLine_eq, hgoes, markRest_eq_some.mpr h]
  rfl

/-- A line that begins with an address. -/
theorem parseHostsLine_hosts {line ip : Text} {more : List Text}
    (hfields : splitWhitespace line = ip :: more) (hip : (parseIpAddr ip).isSome = true) :
    parseHostsLine line = more.head?.bind acceptName := by
  obtain ⟨c, rest, rest', rfl, htrim⟩ := trim_of_fields hfields
  obtain ⟨hhash, hbar, hat, hurl, -⟩ := address_first hip
  have hmark : markRest line = none := by
    unfold markRest
    rw [htrim]
    have hbars : stripStart "||".toList (c :: rest') = none := stripStart_cons_of_ne hbar _ _
    have hats : stripStart "@@||".toList (c :: rest') = none := stripStart_cons_of_ne hat _ _
    rw [hbars, hats]
    rfl
  have hparses : (parseIpAddr (c :: rest)).isNone = false := by
    rw [Option.isNone_eq_false_iff, hip]
  rw [parseHostsLine_eq, hmark, hfields, htrim, startsWith_cons_of_ne hhash]
  dsimp only
  rw [isUrl_cons_of_ne hurl, hparses]
  rfl

/-- **The line parser reads the grammar.** -/
theorem parseHostsLine_eq_some_iff {line : Text} {x : String} :
    parseHostsLine line = some x ↔
      ∃ name, FirstName line name ∧ Acceptable name ∧ x = normalize (String.ofList name) := by
  constructor
  · intro h
    -- which of the two styles the line is in
    cases hmark : markRest line with
    | some rest =>
      have hline := markRest_eq_some.mp hmark
      rw [parseHostsLine_adGuard hline] at h
      obtain ⟨name, hname, haccept⟩ := Option.bind_eq_some_iff.mp h
      obtain ⟨-, hok, hx⟩ := acceptName_eq_some.mp haccept
      exact ⟨name, .adGuard hline hname, hok, hx⟩
    | none =>
      cases hfields : splitWhitespace line with
      | nil =>
        rw [parseHostsLine_eq, hmark, hfields] at h
        simp at h
      | cons first more =>
        cases hip : (parseIpAddr first).isSome with
        | false =>
          rw [parseHostsLine_eq, hmark, hfields] at h
          simp [Option.not_isSome_iff_eq_none.mp (Bool.eq_false_iff.mp hip)] at h
        | true =>
          rw [parseHostsLine_hosts hfields hip] at h
          obtain ⟨name, hname, haccept⟩ := Option.bind_eq_some_iff.mp h
          obtain ⟨-, hok, hx⟩ := acceptName_eq_some.mp haccept
          obtain ⟨rest, rfl⟩ := List.head?_eq_some_iff.mp hname
          exact ⟨name, .hosts hfields hip, hok, hx⟩
  · rintro ⟨name, hfirst, hok, rfl⟩
    cases hfirst with
    | adGuard hmark hname =>
      rw [parseHostsLine_adGuard hmark, hname]
      have hne : name ≠ [] := ne_nil_of_mem_words (List.mem_of_head? hname)
      exact acceptName_eq_some.mpr ⟨hne, hok, rfl⟩
    | hosts hfields hip =>
      rw [parseHostsLine_hosts hfields hip]
      have hmem : name ∈ splitWhitespace line := by
        rw [hfields]
        simp
      exact acceptName_eq_some.mpr ⟨ne_nil_of_mem_words hmem, hok, rfl⟩

/-! ## What a list blocks -/

/-- An acceptable name that a line of the text is about. -/
def FirstOn (text name : Text) : Prop := ∃ line ∈ lines text, FirstName line name ∧ Acceptable name

theorem mem_hostNames {text : Text} {x : String} :
    x ∈ hostNames text ↔ ∃ name, FirstOn text name ∧ x = normalize (String.ofList name) := by
  unfold hostNames FirstOn
  rw [List.mem_filterMap]
  constructor
  · rintro ⟨line, hline, hx⟩
    obtain ⟨name, hfirst, hok, rfl⟩ := parseHostsLine_eq_some_iff.mp hx
    exact ⟨name, ⟨line, hline, hfirst, hok⟩, rfl⟩
  · rintro ⟨name, ⟨line, hline, hfirst, hok⟩, rfl⟩
    exact ⟨line, hline, parseHostsLine_eq_some_iff.mpr ⟨name, hfirst, hok, rfl⟩⟩

/-- The same name or one below it, in any case and with any dots at the end. -/
def AtOrBelow (qname name : String) : Prop := queryLabels name <:+ queryLabels qname

/-- A text adds the names its lines are about, with what is below them. -/
theorem isBlocked_parseHosts {bl : Blocklist} {text : Text} {qname : String} :
    (bl.parseHosts text).isBlocked qname = true ↔
      bl.isBlocked qname = true ∨
        ∃ name, FirstOn text name ∧ AtOrBelow qname (String.ofList name) := by
  unfold Blocklist.isBlocked AtOrBelow
  rw [listMatches_iff, listMatches_iff]
  constructor
  · rintro ⟨e, he, hsuffix⟩
    rcases mem_parseHosts.mp he with hold | hnew
    · exact Or.inl ⟨e, hold, hsuffix⟩
    · obtain ⟨name, hfirst, rfl⟩ := mem_hostNames.mp hnew
      rw [← queryLabels_eq] at hsuffix
      exact Or.inr ⟨name, hfirst, hsuffix⟩
  · rintro (⟨e, hold, hsuffix⟩ | ⟨name, hfirst, hsuffix⟩)
    · exact ⟨e, mem_parseHosts.mpr (Or.inl hold), hsuffix⟩
    · rw [queryLabels_eq] at hsuffix
      exact ⟨_, mem_parseHosts.mpr (Or.inr (mem_hostNames.mpr ⟨name, hfirst, rfl⟩)), hsuffix⟩

/-- `<ip> <name> [<name> ...]`, the names all acceptable and none of them a comment. -/
structure HostsLine (line ip : Text) (names : List Text) : Prop where
  fields : splitWhitespace line = ip :: names
  address : (parseIpAddr ip).isSome = true
  named : names ≠ []
  no_comment : ∀ n ∈ names, n.head? ≠ some '#'
  acceptable : ∀ n ∈ names, Acceptable n

/-- **When every name on a hosts line is blocked.** The line is about its first name; each further one
has to be at or below a name some line is about, or blocked already. -/
theorem every_name_iff (bl : Blocklist) (text line ip : Text) (names : List Text)
    (hline : line ∈ lines text) (h : HostsLine line ip names) :
    (∀ n ∈ names, (bl.parseHosts text).isBlocked (String.ofList n) = true) ↔
      ∀ n ∈ names.tail, bl.isBlocked (String.ofList n) = true ∨
        ∃ name, FirstOn text name ∧ AtOrBelow (String.ofList n) (String.ofList name) := by
  obtain ⟨first, more, rfl⟩ := List.exists_cons_of_ne_nil h.named
  have hfirst : FirstOn text first :=
    ⟨line, hline, .hosts h.fields h.address, h.acceptable first List.mem_cons_self⟩
  rw [List.tail_cons]
  constructor
  · intro hall n hn
    exact isBlocked_parseHosts.mp (hall n (List.mem_cons_of_mem _ hn))
  · intro hmore n hn
    refine isBlocked_parseHosts.mpr ?_
    rcases List.mem_cons.mp hn with rfl | hn
    · exact Or.inr ⟨n, hfirst, List.suffix_refl _⟩
    · exact hmore n hn

/-- A line with two names behind the address. -/
def exampleLine : Text := "0.0.0.0 example.com ads.example.com".toList

/-- The second name is below the first. -/
theorem every_name_below :
    (exampleLine ∈ lines exampleLine ∧
        HostsLine exampleLine "0.0.0.0".toList ["example.com".toList, "ads.example.com".toList]) ∧
      ∀ n ∈ ["example.com".toList, "ads.example.com".toList],
        ((⟨[]⟩ : Blocklist).parseHosts exampleLine).isBlocked (String.ofList n) = true := by
  have hmem : exampleLine ∈ lines exampleLine := by decide +kernel
  have hline : HostsLine exampleLine "0.0.0.0".toList
      ["example.com".toList, "ads.example.com".toList] :=
    ⟨by decide +kernel, by decide +kernel, by simp, by decide +kernel, by decide +kernel⟩
  refine ⟨⟨hmem, hline⟩, (every_name_iff ⟨[]⟩ _ _ _ _ hmem hline).mpr ?_⟩
  intro n hn
  rw [List.tail_cons, List.mem_singleton] at hn
  subst hn
  have hfirst : FirstName exampleLine "example.com".toList :=
    .hosts hline.fields hline.address
  exact Or.inr ⟨_, ⟨_, hmem, hfirst, by decide +kernel⟩, by unfold AtOrBelow; decide +kernel⟩

/-- Two names behind the address, neither below the other. -/
def twoNames : Text := "0.0.0.0 ads.example trk.example".toList

/-- **A name that is not blocked.** -/
theorem second_name_passes :
    (twoNames ∈ lines twoNames ∧
        HostsLine twoNames "0.0.0.0".toList ["ads.example".toList, "trk.example".toList]) ∧
      ((⟨[]⟩ : Blocklist).parseHosts twoNames).isBlocked "trk.example" = false :=
  ⟨⟨by decide +kernel, by decide +kernel, by decide +kernel, by simp, by decide +kernel,
    by decide +kernel⟩, by decide +kernel⟩

/-! ## What is stored -/

theorem toLower_toLower (c : Char) : c.toLower.toLower = c.toLower := by
  unfold Char.toLower
  grind

theorem trimEndDots_trimEndDots (s : List Char) : trimEndDots (trimEndDots s) = trimEndDots s :=
  List.rdropWhile_idempotent _ _

theorem normalize_normalize (name : String) : normalize (normalize name) = normalize name := by
  unfold normalize
  rw [String.toList_ofList, trimEndDots_map_toLower, trimEndDots_trimEndDots, List.map_map]
  congr 1
  exact List.map_congr_left fun c _ => toLower_toLower c

/-- The normal forms that no list may hold: the root and the local host. -/
def reservedNames : List String := ["", "localhost", "localhost.localdomain"]

/-- What is meant to hold of the entries of a list, and what follows for the root and the local
host. -/
structure EntryInvariant (bl : Blocklist) : Prop where
  normal : ∀ e ∈ bl.entries, normalize e = e
  not_reserved : ∀ e ∈ bl.entries, e ∉ reservedNames
  root_passes : ∀ qname, normalize qname = "" → bl.isBlocked qname = false
  localhost_passes : ∀ qname, normalize qname = "localhost" → bl.isBlocked qname = false

theorem mem_foldl_parseHosts {texts : List Text} {bl : Blocklist} {x : String} :
    x ∈ (texts.foldl Blocklist.parseHosts bl).entries ↔
      x ∈ bl.entries ∨ ∃ text ∈ texts, x ∈ hostNames text := by
  induction texts generalizing bl with
  | nil => simp
  | cons text texts ih =>
    rw [List.foldl_cons, ih, mem_parseHosts, or_assoc]
    simp

/-- A name of one label is blocked by an entry for it, not by others. -/
theorem isBlocked_single {bl : Blocklist} {qname : String} (hdot : '.' ∉ (normalize qname).toList)
    (h : bl.isBlocked qname = true) : normalize qname ∈ bl.entries := by
  obtain ⟨e, he, hsuffix⟩ := (listMatches_iff _ _).mp h
  have hone : labels (normalize qname).toList = [(normalize qname).toList] :=
    List.splitOn_eq_singleton hdot
  have hlabels : labels e.toList = labels (normalize qname).toList := by
    rw [queryLabels_eq, hone, List.suffix_cons_iff, List.suffix_nil] at hsuffix
    rcases hsuffix with heq | hnil
    · rw [heq, hone]
    · exact absurd hnil (List.splitOn_ne_nil _ _)
  have hsame : e = normalize qname := String.toList_inj.mp (splitOn_injective.mp hlabels)
  rwa [← hsame]

/-- **When the entries are as they are meant to be.** Every name a line is about has to be, in its
normal form, neither the root nor the local host. -/
theorem entry_invariant_iff (texts : List Text) :
    EntryInvariant (texts.foldl Blocklist.parseHosts ⟨[]⟩) ↔
      ∀ text ∈ texts, ∀ name, FirstOn text name →
        normalize (String.ofList name) ∉ reservedNames := by
  have hmem : ∀ x, x ∈ (texts.foldl Blocklist.parseHosts ⟨[]⟩).entries ↔
      ∃ text ∈ texts, ∃ name, FirstOn text name ∧ x = normalize (String.ofList name) := by
    intro x
    rw [mem_foldl_parseHosts]
    simp only [mem_hostNames, List.not_mem_nil, false_or]
  constructor
  · intro h text htext name hfirst
    exact h.not_reserved _ ((hmem _).mpr ⟨text, htext, name, hfirst, rfl⟩)
  · intro h
    have hreserved : ∀ e ∈ (texts.foldl Blocklist.parseHosts ⟨[]⟩).entries, e ∉ reservedNames := by
      intro e he
      obtain ⟨text, htext, name, hfirst, rfl⟩ := (hmem e).mp he
      exact h text htext name hfirst
    have hpasses : ∀ qname, '.' ∉ (normalize qname).toList → normalize qname ∈ reservedNames →
        (texts.foldl Blocklist.parseHosts ⟨[]⟩).isBlocked qname = false := by
      intro qname hdot hq
      by_contra hblocked
      exact hreserved _ (isBlocked_single hdot (by simpa using hblocked)) hq
    refine ⟨?_, hreserved, ?_, ?_⟩
    · intro e he
      obtain ⟨text, htext, name, hfirst, rfl⟩ := (hmem e).mp he
      exact normalize_normalize _
    · intro qname hq
      exact hpasses qname (by rw [hq]; decide +kernel) (by rw [hq]; decide)
    · intro qname hq
      exact hpasses qname (by rw [hq]; decide +kernel) (by rw [hq]; decide)

/-- **Entries for the root and the local host.** -/
theorem reserved_entries :
    let bl := ["0.0.0.0 .".toList, "127.0.0.1 LOCALHOST\n||localhost.^".toList].foldl
      Blocklist.parseHosts ⟨[]⟩
    bl.entries = ["localhost", ""] ∧ bl.isBlocked "." = true ∧ bl.isBlocked "localhost." = true ∧
      ¬ EntryInvariant bl := by
  refine ⟨by decide +kernel, by decide +kernel, by decide +kernel, fun h => ?_⟩
  exact h.not_reserved "" (by decide +kernel) (by decide)

end Heimdallr
