import Heimdallr.Lib.Words
import Heimdallr.Zone.RecordSpec

/-!
# The administrator's address in the SOA record (`config/mod.rs`, `core/zone/file.rs`)

`Config::soa_rname` writes the address `user@domain` as the text of a name, with a dot for the `@`,
and `patch_soa_rname` has hickory read it. A dot in `user` separates labels like any other, unless
it is escaped.

* `ReadsPlain` is how hickory reads a text without escapes: labels between dots, absolute with a dot
  at its end. Which labels it takes is a parameter. Of texts with escapes only this is assumed, that
  no label which is read has a backslash in it.
* An address without an `@` is a user at the configured host, and a missing one is `hostadmin` there
  (`Configured`). Domain and host are names that hickory reads.
* That the RNAME stands for the address is stated as RFC 1035 has it: the user is the first label.

Results:
* `rname_labels_iff`: the labels read of a text that consists of a user's and a domain's.
* **`rname_iff`**: when the RNAME stands for the configured address.
-/

namespace Heimdallr.Zone

open Heimdallr.Net

/-! ## Names without escapes -/

/-- The octets of a text. -/
def octets (t : Text) : Label := t.flatMap String.utf8EncodeChar

/-- The length of a name on the wire. -/
def wireLength (labels : List Label) : Nat := (labels.map fun l => l.length + 1).sum + 1

/-- The text of a name without the dot at its end. -/
def nameBody (t : Text) : Text := if t.getLast? = some '.' then t.dropLast else t

/-- What stands between the dots. -/
def pieces (t : Text) : List Text := if nameBody t = [] then [] else (nameBody t).splitOn '.'

/-- The name of a text without escapes. -/
def plainName (okLabel : Text → Bool) (t : Text) : Option Name :=
  if (pieces t).all okLabel ∧ wireLength ((pieces t).map octets) ≤ 255 then
    some ⟨(pieces t).map octets, t.getLast? = some '.'⟩
  else none

/-- How hickory reads names: without escapes the labels are what stands between the dots, each of
them `okLabel`, and no label it reads has a backslash in it. -/
structure ReadsPlain (hk : Hickory) (okLabel : Text → Bool) : Prop where
  plain : ∀ t, '\\' ∉ t → hk.fromAscii (String.ofList t) = plainName okLabel t
  label : ∀ l, okLabel l → l ≠ [] ∧ '@' ∉ l ∧ '\\' ∉ l
  noBackslash : ∀ s n, hk.fromAscii s = some n → ∀ l ∈ n.labels, 92 ∉ l

theorem octets_ne_nil {t : Text} (h : t ≠ []) : octets t ≠ [] := by
  obtain ⟨c, rest, rfl⟩ := List.exists_cons_of_ne_nil h
  intro hnil
  obtain ⟨hc, -⟩ := List.append_eq_nil_iff.mp hnil
  have hpos := c.utf8Size_pos
  rw [← String.length_utf8EncodeChar, hc] at hpos
  exact absurd hpos (by decide)

theorem backslash_mem_octets {t : Text} (h : '\\' ∈ t) : 92 ∈ octets t :=
  List.mem_flatMap.mpr ⟨'\\', h, by decide⟩

/-- A text has one piece exactly when it has no dot. -/
theorem splitOn_dot_length {t : Text} : (t.splitOn '.').length = 1 ↔ '.' ∉ t := by
  constructor
  · intro h hdot
    obtain ⟨s, u, rfl⟩ := List.append_of_mem hdot
    rw [List.splitOn_append_cons_self, List.length_append] at h
    have hs := List.length_pos_iff.mpr (List.splitOn_ne_nil '.' s)
    have hu := List.length_pos_iff.mpr (List.splitOn_ne_nil '.' u)
    omega
  · intro h
    rw [List.splitOn_eq_singleton h]
    rfl

theorem pieces_append_dot {u d : Text} (hd : nameBody d ≠ []) :
    pieces (u ++ '.' :: d) = u.splitOn '.' ++ pieces d := by
  have hne : d ≠ [] := by
    rintro rfl
    exact hd rfl
  have hbody : nameBody (u ++ '.' :: d) = u ++ '.' :: nameBody d := by
    unfold nameBody
    rw [List.getLast?_append_of_ne_nil _ (List.cons_ne_nil _ _), List.getLast?_cons_of_ne_nil hne]
    split
    · rw [List.dropLast_append_of_ne_nil (List.cons_ne_nil _ _), List.dropLast_cons_of_ne_nil hne]
    · rfl
  unfold pieces
  rw [hbody, if_neg (by simp), if_neg hd, List.splitOn_append_cons_self]

theorem plainName_eq_some {okLabel : Text → Bool} {t : Text} {n : Name}
    (h : plainName okLabel t = some n) :
    (∀ l ∈ pieces t, okLabel l) ∧ wireLength n.labels ≤ 255 ∧ n.labels = (pieces t).map octets := by
  unfold plainName at h
  split at h
  · rename_i hok
    rw [← Option.some.inj h]
    exact ⟨List.all_eq_true.mp hok.1, hok.2, rfl⟩
  · cases h

/-! ## The text of the RNAME -/

/-- `replace('@', ".")`, for one character. -/
def atToDot (c : Char) : Char := if c = '@' then '.' else c

theorem map_atToDot {t : Text} (h : '@' ∉ t) : t.map atToDot = t := by
  have hid : ∀ c ∈ t, atToDot c = id c := by
    intro c hc
    exact if_neg (by rintro rfl; exact h hc)
  rw [List.map_congr_left hid, List.map_id]

/-- Without a dot afterwards there was no `@`. -/
theorem not_mem_of_map_atToDot {t : Text} (h : '.' ∉ t.map atToDot) : '@' ∉ t :=
  fun hat => h (List.mem_map.mpr ⟨'@', hat, rfl⟩)

section Rname

variable {hk : Hickory} {okLabel : Text → Bool} (hr : ReadsPlain hk okLabel)

include hr

/-- The labels read of a text whose pieces are those of a user's name and of a domain's. -/
theorem rname_labels_iff {t user d : Text} {n : Name} (hd : plainName okLabel d = some n)
    (hback : '\\' ∉ user → '\\' ∉ t)
    (hpieces : user ≠ [] → pieces t = (user.map atToDot).splitOn '.' ++ pieces d) :
    (∃ m, hk.fromAscii (String.ofList t) = some m ∧ m.labels = octets user :: n.labels) ↔
      '.' ∉ user ∧ okLabel user ∧ wireLength (octets user :: n.labels) ≤ 255 := by
  obtain ⟨hlabels, -, hn⟩ := plainName_eq_some hd
  constructor
  · rintro ⟨m, hm, hml⟩
    have hmem : octets user ∈ m.labels := by rw [hml]; exact List.mem_cons_self
    have hslash : '\\' ∉ user := fun h =>
      hr.noBackslash _ m hm _ hmem (backslash_mem_octets h)
    rw [hr.plain t (hback hslash)] at hm
    obtain ⟨hok, hlen, hmt⟩ := plainName_eq_some hm
    have huser : user ≠ [] := by
      rintro rfl
      rw [hmt] at hmem
      obtain ⟨l, hl, hnil⟩ := List.mem_map.mp hmem
      exact octets_ne_nil (hr.label l (hok l hl)).1 hnil
    have hp := hpieces huser
    -- one label for the user is one piece
    have hone : ((user.map atToDot).splitOn '.').length = 1 := by
      have hcount := congrArg List.length (hmt.symm.trans hml)
      rw [hp, hn] at hcount
      simp only [List.length_map, List.length_append, List.length_cons] at hcount
      omega
    have hdot := splitOn_dot_length.mp hone
    have hid := map_atToDot (not_mem_of_map_atToDot hdot)
    rw [hid] at hdot
    rw [hid, List.splitOn_eq_singleton hdot] at hp
    refine ⟨hdot, hok user (by rw [hp]; simp), ?_⟩
    rw [← hml]
    exact hlen
  · rintro ⟨hdot, hok, hlen⟩
    obtain ⟨huser, hat, hslash⟩ := hr.label user hok
    have hp := hpieces huser
    rw [map_atToDot hat, List.splitOn_eq_singleton hdot] at hp
    have hmap : (pieces t).map octets = octets user :: n.labels := by
      rw [hp, hn]
      rfl
    have hall : (pieces t).all okLabel = true := by
      rw [hp]
      simpa using ⟨hok, hlabels⟩
    refine ⟨⟨(pieces t).map octets, t.getLast? = some '.'⟩, ?_, hmap⟩
    rw [hr.plain t (hback hslash), plainName, if_pos ⟨hall, by rw [hmap]; exact hlen⟩]

/-- The host without the dots at its end, where it is a name. -/
theorem trimDots_eq {host : Text} {n : Name} (h : plainName okLabel host = some n) :
    (host.reverse.dropWhile (· = '.')).reverse = nameBody host ∧
      nameBody (nameBody host) = nameBody host := by
  obtain ⟨hok, -, -⟩ := plainName_eq_some h
  -- a body with a dot at its end has an empty piece
  have hlast : (nameBody host).getLast? ≠ some '.' := by
    intro hdot
    obtain ⟨u, hu⟩ := List.getLast?_eq_some_iff.mp hdot
    have hpieces : pieces host = u.splitOn '.' ++ [[]] := by
      unfold pieces
      rw [hu, if_neg (by simp), List.splitOn_append_cons_self]
      rfl
    have hnil := hok [] (by rw [hpieces]; simp)
    exact (hr.label [] hnil).1 rfl
  have hbody : (nameBody host).rdropWhile (· = '.') = nameBody host :=
    Lib.rdropWhile_eq_self_iff.mpr hlast
  refine ⟨?_, if_neg hlast⟩
  by_cases hdot : host.getLast? = some '.'
  · obtain ⟨b, rfl⟩ := List.getLast?_eq_some_iff.mp hdot
    have hb : nameBody (b ++ ['.']) = b := by
      unfold nameBody
      rw [if_pos hdot, List.dropLast_concat]
    rw [hb] at hbody ⊢
    have hconcat : (b ++ ['.']).rdropWhile (· = '.') = b.rdropWhile (· = '.') :=
      List.rdropWhile_concat_pos _ _ _ (by decide)
    exact hconcat.trans hbody
  · have hb : nameBody host = host := if_neg hdot
    rw [hb] at hbody ⊢
    exact hbody

/-- The pieces of a user's name at the host. -/
theorem pieces_at_host {user host : Text} {n : Name} (h : plainName okLabel host = some n)
    (huser : user ≠ []) :
    pieces (user ++ '.' :: (host.reverse.dropWhile (· = '.')).reverse) =
      user.splitOn '.' ++ pieces host := by
  obtain ⟨htrim, hidem⟩ := trimDots_eq hr h
  rw [htrim]
  by_cases hroot : nameBody host = []
  · have hbody : nameBody (user ++ ['.']) = user := by
      unfold nameBody
      rw [if_pos (by simp), List.dropLast_concat]
    unfold pieces
    rw [hroot, hbody, if_neg huser, if_pos rfl, List.append_nil]
  · have hpieces : pieces (nameBody host) = pieces host := by
      unfold pieces
      rw [hidem]
    rw [pieces_append_dot (by rw [hidem]; exact hroot), hpieces]

end Rname

/-! ## The configured address -/

/-- The text of a host name, and the name. -/
structure HostName (hk : Hickory) (t : Text) (n : Name) : Prop where
  noAt : '@' ∉ t
  noBackslash : '\\' ∉ t
  read : hk.fromAscii (String.ofList t) = some n

/-- What `hostadmin` says with a given `host`: the user, and the name of the domain. -/
inductive Configured (hk : Hickory) (host : Text) : Option Text → Text → Name → Prop
  | address {user domain : Text} {n : Name} (hdomain : HostName hk domain n)
      (hlabels : n.labels ≠ []) : Configured hk host (some (user ++ '@' :: domain)) user n
  | user {user : Text} {n : Name} (hat : '@' ∉ user) (hhost : HostName hk host n) :
      Configured hk host (some user) user n
  | default {n : Name} (hhost : HostName hk host n) :
      Configured hk host none "hostadmin".toList n

/-- The name `patch_soa_rname` parses and puts into the SOA record has these labels. -/
def RnameIs (lib : ZoneLib) (rname : Text) (labels : List Label) : Prop :=
  ∃ n, n.labels = labels ∧ lib.nameOf rname = some n ∧
    ∀ records origin soa, oldSoa records origin = some soa →
      patchSoaRname lib records origin rname =
        .ok (lib.upsert (records.erase (soaKey origin)) (patchedSoa origin n soa))

theorem rnameIs_iff {lib : ZoneLib} {rname : Text} {labels : List Label} :
    RnameIs lib rname labels ↔
      ∃ n, lib.fromAscii (String.ofList rname) = some n ∧ n.labels = labels := by
  constructor
  · rintro ⟨n, hlabels, hname, -⟩
    exact ⟨n, hname, hlabels⟩
  · rintro ⟨n, hname, hlabels⟩
    refine ⟨n, hlabels, hname, ?_⟩
    intro records origin soa hsoa
    unfold patchSoaRname
    rw [show lib.nameOf rname = some n from hname, hsoa]
    rfl

theorem soaRname_address {user domain host : Text} (h : '@' ∉ domain) :
    soaRname host (some (user ++ '@' :: domain)) = user.map atToDot ++ '.' :: domain := by
  unfold soaRname
  rw [Option.getD_some, if_pos (by simp)]
  show (user ++ '@' :: domain).map atToDot = _
  rw [List.map_append, List.map_cons, map_atToDot h]
  rfl

theorem soaRname_user {user host : Text} (h : '@' ∉ user) :
    soaRname host (some user) =
      user.map atToDot ++ '.' :: (host.reverse.dropWhile (· = '.')).reverse := by
  unfold soaRname
  rw [Option.getD_some, if_neg (by simpa using h), map_atToDot h]

/-- No backslash comes in between the user's name and the domain's. -/
theorem noBackslash_rname {user d : Text} (hd : '\\' ∉ d) (hu : '\\' ∉ user) :
    '\\' ∉ user.map atToDot ++ '.' :: d := by
  intro h
  rcases List.mem_append.mp h with h | h
  · obtain ⟨c, hc, hslash⟩ := List.mem_map.mp h
    unfold atToDot at hslash
    split at hslash
    · exact absurd hslash (by decide)
    · exact hu (hslash ▸ hc)
  · rcases List.mem_cons.mp h with h | h
    · exact absurd h (by decide)
    · exact hd h

section

variable {lib : ZoneLib} {okLabel : Text → Bool} (hr : ReadsPlain lib.toHickory okLabel)
  {host user : Text} {n : Name}

include hr

theorem rname_user_iff (hat : '@' ∉ user) (hhost : HostName lib.toHickory host n) :
    RnameIs lib (soaRname host (some user)) (octets user :: n.labels) ↔
      '.' ∉ user ∧ okLabel user ∧ wireLength (octets user :: n.labels) ≤ 255 := by
  have hread := hhost.read
  rw [hr.plain host hhost.noBackslash] at hread
  have htrim : '\\' ∉ (host.reverse.dropWhile (· = '.')).reverse := fun h =>
    hhost.noBackslash ((List.rdropWhile_prefix _ _).subset h)
  rw [rnameIs_iff, soaRname_user hat]
  refine rname_labels_iff hr hread (noBackslash_rname htrim) fun huser => ?_
  rw [map_atToDot hat]
  exact pieces_at_host hr hread huser

theorem rname_address_iff {domain : Text} (hdomain : HostName lib.toHickory domain n)
    (hlabels : n.labels ≠ []) :
    RnameIs lib (soaRname host (some (user ++ '@' :: domain))) (octets user :: n.labels) ↔
      '.' ∉ user ∧ okLabel user ∧ wireLength (octets user :: n.labels) ≤ 255 := by
  have hread := hdomain.read
  rw [hr.plain domain hdomain.noBackslash] at hread
  have hbody : nameBody domain ≠ [] := by
    intro hnil
    have hpieces : pieces domain = [] := if_pos hnil
    rw [(plainName_eq_some hread).2.2, hpieces] at hlabels
    exact hlabels rfl
  rw [rnameIs_iff, soaRname_address hdomain.noAt]
  exact rname_labels_iff hr hread (noBackslash_rname hdomain.noBackslash) fun _ =>
    pieces_append_dot hbody

/-- **When the RNAME is the configured address**: the user is its first label, and the labels of the
domain, or of the host, come after it. -/
theorem rname_iff {hostadmin : Option Text}
    (hc : Configured lib.toHickory host hostadmin user n) :
    RnameIs lib (soaRname host hostadmin) (octets user :: n.labels) ↔
      '.' ∉ user ∧ okLabel user ∧ wireLength (octets user :: n.labels) ≤ 255 := by
  cases hc with
  | address hdomain hlabels => exact rname_address_iff hr hdomain hlabels
  | user hat hhost => exact rname_user_iff hr hat hhost
  | default hhost =>
    have hat : '@' ∉ "hostadmin".toList := by decide
    exact rname_user_iff hr hat hhost

end

/-- Labels of letters, digits and hyphens, the hyphen not first, and underscores. -/
def hostLabel (l : Text) : Bool :=
  l ≠ [] && l.head? ≠ some '-' && l.all fun c => c.isAlphanum || c = '-' || c = '_'

/-- hickory, for names without escapes. -/
def plainLib : ZoneLib :=
  { ZoneLib.knowing [] with
    fromAscii := fun s => if '\\' ∈ s.toList then none else plainName hostLabel s.toList }

theorem hostLabel_chars {l : Text} (h : hostLabel l = true) {c : Char} (hc : c ∈ l) :
    c.isAlphanum = true ∨ c = '-' ∨ c = '_' := by
  unfold hostLabel at h
  obtain ⟨-, hall⟩ := Bool.and_eq_true_iff.mp h
  simpa [or_assoc] using List.all_eq_true.mp hall c hc

/-- A character of a host name is not encoded as a backslash. -/
theorem backslash_of_encoded {c : Char} (hc : c.isAlphanum = true ∨ c = '-' ∨ c = '_') :
    92 ∉ String.utf8EncodeChar c := by
  intro h92
  have hlt : c.toNat < 123 := by
    rcases hc with hc | rfl | rfl
    · unfold Char.isAlphanum Char.isAlpha Char.isUpper Char.isLower Char.isDigit at hc
      simp only [Bool.or_eq_true, Bool.and_eq_true, decide_eq_true_eq, UInt32.le_iff_toNat_le,
        ge_iff_le] at hc
      simp at hc
      omega
    · decide
    · decide
  have hall : ∀ n < 123, 92 ∈ String.utf8EncodeChar (Char.ofNat n) → n = 92 := by decide
  have hn := hall c.toNat hlt (by rw [Char.ofNat_toNat]; exact h92)
  obtain rfl : c = '\\' := by rw [← Char.ofNat_toNat c, hn]
  exact absurd hc (by decide)

theorem plainLib_readsPlain : ReadsPlain plainLib.toHickory hostLabel := by
  refine ⟨?_, ?_, ?_⟩
  · intro t ht
    show (if '\\' ∈ (String.ofList t).toList then none else _) = _
    rw [String.toList_ofList, if_neg ht]
  · intro l hl
    refine ⟨?_, ?_, ?_⟩
    · rintro rfl
      cases hl
    · intro hat
      exact absurd (hostLabel_chars hl hat) (by decide)
    · intro hslash
      exact absurd (hostLabel_chars hl hslash) (by decide)
  · intro s n h
    change (if '\\' ∈ s.toList then none else _) = some n at h
    split at h
    · cases h
    · obtain ⟨hok, -, hlabels⟩ := plainName_eq_some h
      rw [hlabels]
      intro l hl h92
      obtain ⟨p, hp, rfl⟩ := List.mem_map.mp hl
      obtain ⟨c, hc, hbyte⟩ := List.mem_flatMap.mp h92
      exact backslash_of_encoded (hostLabel_chars (hok p hp) hc) hbyte

theorem example_hostName :
    HostName plainLib.toHickory "example.com".toList
      ⟨[octets "example".toList, octets "com".toList], false⟩ :=
  ⟨by decide, by decide, by decide⟩

/-- `hostadmin@example.com`. -/
theorem rname_hostadmin :
    RnameIs plainLib
      (soaRname "localhost".toList (some ("hostadmin".toList ++ '@' :: "example.com".toList)))
      [octets "hostadmin".toList, octets "example".toList, octets "com".toList] :=
  (rname_iff plainLib_readsPlain (.address example_hostName (by decide))).mpr
    ⟨by decide, by decide, by decide⟩

/-- The user `first.last` at `example.com` becomes two labels. -/
theorem dotted_user_split :
    Configured plainLib.toHickory "localhost".toList
        (some ("first.last".toList ++ '@' :: "example.com".toList)) "first.last".toList
        ⟨[octets "example".toList, octets "com".toList], false⟩ ∧
      ¬ RnameIs plainLib
        (soaRname "localhost".toList (some ("first.last".toList ++ '@' :: "example.com".toList)))
        [octets "first.last".toList, octets "example".toList, octets "com".toList] := by
  refine ⟨.address example_hostName (by decide), ?_⟩
  rw [rnameIs_iff]
  rintro ⟨n, hn, hlabels⟩
  have hread : plainLib.fromAscii (String.ofList (soaRname "localhost".toList
      (some ("first.last".toList ++ '@' :: "example.com".toList)))) =
      some ⟨[octets "first".toList, octets "last".toList, octets "example".toList,
        octets "com".toList], false⟩ := by decide
  rw [← Option.some.inj (hread.symm.trans hn)] at hlabels
  exact absurd hlabels (by decide)

end Heimdallr.Zone
