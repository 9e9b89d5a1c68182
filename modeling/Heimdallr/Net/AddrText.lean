import Heimdallr.Lib.Numerals
import Heimdallr.Net.AddrSpec

/-!
# The text of an address is read back

What `Display` writes of a number, of an IPv4 address and of an IPv6 address with its `::`,
`FromStr` reads back (`parseIpAddr_displayIp`). Both directions are the definitions of `Net.Addr`;
nothing is assumed of `std`.

The proof goes up from digits (`Lib.Numerals`): a number that is followed by no digit, four octets
between dots, groups between colons. An IPv6 address is the hard case, since its text says nothing
of how many groups the `::` stands for: the reader takes the groups before it and those after it,
and fills up with zeros. That the printer leaves out nothing but zeros is what makes this the
address again.
-/

namespace Heimdallr.Net

open Lib

/-! ## Numbers -/

section Numbers

variable {radix : Nat}

theorem toDigit_digitChar (hradix : radix ≤ 16) :
    ∀ d < radix, toDigit radix d.digitChar = some d := by
  intro d hd
  have h16 : ∀ d < 16, toDigit 16 (Nat.digitChar d) = some d := by decide
  have hdigit := h16 d (by omega)
  unfold toDigit at hdigit ⊢
  rw [(Option.filter_eq_some_iff.mp hdigit).1, Option.filter_some, if_pos (by simpa using hd)]

/-- The digits of a number, in the words of the readers. -/
theorem digits_toDigits (h1 : 1 < radix) (h16 : radix ≤ 16) (n : Nat) :
    ∃ ds, (Nat.toDigits radix n).map (toDigit radix) = ds.map some ∧ ofDigits radix ds = n :=
  exists_digits h1 (toDigit_digitChar h16) n

theorem isSome_toDigits (h1 : 1 < radix) (h16 : radix ≤ 16) (n : Nat) :
    ∀ c ∈ Nat.toDigits radix n, (toDigit radix c).isSome = true := by
  obtain ⟨ds, hds, -⟩ := digits_toDigits h1 h16 n
  exact isSome_of_map hds

/-- A number is read up to the first character that is no digit. -/
theorem Reader.number_toDigits (h1 : 1 < radix) (h16 : radix ≤ 16) {n limit : Nat}
    (hlimit : n < limit) {maxDigits : Option Nat}
    (hmax : ∀ k ∈ maxDigits, (Nat.toDigits radix n).length ≤ k)
    (allowZeroPrefix : Bool) {rest : Text} (hstop : ∀ c ∈ rest.head?, toDigit radix c = none) :
    Reader.number radix maxDigits allowZeroPrefix limit (Nat.toDigits radix n ++ rest) =
      some (n, rest) := by
  obtain ⟨ds, hds, hvalue⟩ := digits_toDigits h1 h16 n
  have hstop' : ∀ c ∈ rest.head?, (toDigit radix c).isSome = false := by
    intro c hc
    rw [hstop c hc, Option.isSome_none]
  have hlength : maxDigits.any (· < (Nat.toDigits radix n).length) = false := by
    cases maxDigits with
    | none => rfl
    | some k => simpa using hmax k rfl
  have hzero : (!allowZeroPrefix && (Nat.toDigits radix n ++ rest).head? == some '0' &&
      decide (1 < (Nat.toDigits radix n).length)) = false := by
    by_cases hn : 0 < n
    · obtain ⟨c, cs, hcs⟩ := List.exists_cons_of_ne_nil (Nat.toDigits_ne_nil (n := n) (b := radix))
      have hhead := toDigits_head? h1 (toDigit_digitChar h16) hn
      have hc : c ≠ '0' := by
        rintro rfl
        exact hhead (by rw [hcs, List.head?_cons])
      simp [hcs, hc]
    · obtain rfl : n = 0 := by omega
      simp [Nat.toDigits_zero]
  unfold Reader.number
  dsimp only
  rw [takeWhile_stop (isSome_toDigits h1 h16 n) hstop',
    dropWhile_stop (isSome_toDigits h1 h16 n) hstop', filterMap_of_map hds, hvalue, hlength, hzero,
    if_neg (by simp), if_neg (by simp), if_neg (by simp), if_neg (by omega)]

/-- No sign stands in front of a number. -/
theorem toDigits_no_sign {c : Char} (hc : toDigit 10 c = none) (n : Nat) :
    (Nat.toDigits 10 n).head? ≠ some c := by
  intro hhead
  have hsome := isSome_toDigits (by decide) (by decide) n c (List.mem_of_mem_head? hhead)
  rw [hc] at hsome
  cases hsome

theorem parseU16_toDigits (n : UInt16) : parseU16 (Nat.toDigits 10 n.toNat) = some n := by
  obtain ⟨ds, hds, hvalue⟩ := @digits_toDigits 10 (by decide) (by decide) n.toNat
  have hlt : n.toNat < 65536 := n.toNat_lt
  have hsign := toDigits_no_sign (c := '+') (by decide) n.toNat
  unfold parseU16
  dsimp only
  split
  · rename_i heq
    exact absurd (by rw [heq, List.head?_cons]) hsign
  · rw [if_neg Nat.toDigits_ne_nil, mapM_of_map hds]
    show (if ofDigits 10 ds < 65536 then some (UInt16.ofNat (ofDigits 10 ds)) else none) = some n
    rw [hvalue, if_pos hlt, UInt16.ofNat_toNat]

end Numbers

/-! ## IPv4 -/

namespace Reader

theorem octet_toDigits (o : UInt8) {rest : Text} (hstop : ∀ c ∈ rest.head?, toDigit 10 c = none) :
    octet (Nat.toDigits 10 o.toNat ++ rest) = some (o.toNat, rest) := by
  have ho : o.toNat < 256 := o.toNat_lt
  refine number_toDigits (by decide) (by decide) ho ?_ false hstop
  rintro k hk
  obtain rfl := Option.some.inj hk
  rw [Nat.length_toDigits_le_iff (by decide) (by decide)]
  omega

theorem separated_octet_toDigits (i : Nat) (o : UInt8) {rest : Text}
    (hstop : ∀ c ∈ rest.head?, toDigit 10 c = none) :
    separated '.' (i + 1) octet ('.' :: (Nat.toDigits 10 o.toNat ++ rest)) =
      some (o.toNat, rest) := by
  simp [separated, givenChar, octet_toDigits o hstop]

end Reader

/-- The three dots of an IPv4 address. -/
theorem displayIpv4_eq (ip : Ipv4Addr) :
    displayIpv4 ip = Nat.toDigits 10 ip.a.toNat ++ '.' :: (Nat.toDigits 10 ip.b.toNat ++
      '.' :: (Nat.toDigits 10 ip.c.toNat ++ '.' :: Nat.toDigits 10 ip.d.toNat)) := by
  simp [displayIpv4, List.intercalate_cons_cons]

theorem Reader.ipv4_displayIpv4 (ip : Ipv4Addr) (rest : Text)
    (hstop : ∀ c ∈ rest.head?, toDigit 10 c = none) :
    Reader.ipv4 (displayIpv4 ip ++ rest) = some (ip, rest) := by
  have hdot : ∀ more : Text, ∀ c ∈ ('.' :: more).head?, toDigit 10 c = none := by
    rintro more c hc
    obtain rfl := Option.some.inj hc
    decide
  rw [displayIpv4_eq]
  simp only [List.append_assoc, List.cons_append]
  have ha := octet_toDigits ip.a (hdot (Nat.toDigits 10 ip.b.toNat ++
    '.' :: (Nat.toDigits 10 ip.c.toNat ++ '.' :: (Nat.toDigits 10 ip.d.toNat ++ rest))))
  have hb := separated_octet_toDigits 0 ip.b (hdot (Nat.toDigits 10 ip.c.toNat ++
    '.' :: (Nat.toDigits 10 ip.d.toNat ++ rest)))
  have hc := separated_octet_toDigits 1 ip.c (hdot (Nat.toDigits 10 ip.d.toNat ++ rest))
  have hd := separated_octet_toDigits 2 ip.d hstop
  unfold Reader.ipv4
  rw [separated, if_neg (by decide), ha]
  simp [hb, hc, hd]

/-! ## The groups of an IPv6 address -/

theorem not_mem_toDigits16 {c : Char} (hc : toDigit 16 c = none) (n : Nat) :
    c ∉ Nat.toDigits 16 n := by
  intro hmem
  have hsome := isSome_toDigits (by decide) (by decide) n c hmem
  rw [hc] at hsome
  cases hsome

namespace Reader

theorem number_suffix {radix n limit : Nat} {maxDigits : Option Nat} {allowZeroPrefix : Bool}
    {t rest : Text} (h : number radix maxDigits allowZeroPrefix limit t = some (n, rest)) :
    rest <:+ t := by
  unfold number at h
  dsimp only at h
  repeat' split at h
  all_goals cases h
  exact List.dropWhile_suffix _

/-- Without a dot there is no IPv4 address. -/
theorem ipv4_eq_none_of_not_mem {t : Text} (h : '.' ∉ t) : ipv4 t = none := by
  unfold ipv4
  rw [separated, if_neg (by decide)]
  cases hoctet : octet t with
  | none => rfl
  | some r =>
    obtain ⟨n, rest⟩ := r
    have hsuffix : rest <:+ t := number_suffix hoctet
    have hdot : givenChar '.' rest = none := by
      cases rest with
      | nil => rfl
      | cons c rest =>
        refine if_neg ?_
        rintro rfl
        exact h (hsuffix.subset List.mem_cons_self)
    show (separated '.' 1 octet rest >>= fun _ => _) = none
    rw [separated, if_pos (by decide), hdot]
    rfl

theorem separated_ipv4_eq_none {index : Nat} {t : Text} (h : '.' ∉ t) :
    separated ':' index ipv4 t = none := by
  unfold separated
  split
  · cases t with
    | nil => rfl
    | cons c t =>
      have ht : '.' ∉ t := fun hmem => h (List.mem_cons_of_mem c hmem)
      by_cases hc : c = ':'
      · simp [givenChar, hc, ipv4_eq_none_of_not_mem ht]
      · simp [givenChar, hc]
  · exact ipv4_eq_none_of_not_mem h

/-- A group, where no IPv4 address is in sight. -/
theorem groups_step {index g : Nat} (room : Nat) {t rest : Text} (h : '.' ∉ t)
    (hgroup : separated ':' index (number 16 (some 4) true 65536) t = some (g, rest)) :
    groups index (room + 1) t =
      (g :: (groups (index + 1) room rest).1, (groups (index + 1) room rest).2) := by
  rw [groups]
  have hnone : (if 0 < room then separated ':' index ipv4 t else none) = none := by
    rw [separated_ipv4_eq_none h, ite_self]
  rw [hnone]
  dsimp only
  rw [hgroup]

/-- Where the groups end: with the text, or at a `::`. -/
def Ends (t : Text) : Prop := t = [] ∨ ∃ more, t = ':' :: ':' :: more

theorem groups_of_ends {t : Text} (h : Ends t) (index room : Nat) :
    groups index room t = ([], false, t) := by
  have hcolon : toDigit 16 ':' = none := by decide
  cases room with
  | zero => rfl
  | succ room =>
    rcases h with rfl | ⟨more, rfl⟩
    · by_cases hindex : 0 < index
      · simp [groups, separated, hindex, givenChar]
      · simp [groups, separated, hindex, ipv4_eq_none_of_not_mem, number]
    · by_cases hindex : 0 < index
      · simp [groups, separated, hindex, givenChar, ipv4_eq_none hcolon, number_eq_none hcolon]
      · simp [groups, separated, hindex, ipv4_eq_none hcolon, number_eq_none hcolon]

end Reader

/-- Segments with a colon in front of each. -/
def colonText (gs : List Nat) : Text := gs.flatMap fun g => ':' :: Nat.toDigits 16 g

theorem displaySegments_cons (g : Nat) (gs : List Nat) :
    displaySegments (g :: gs) = Nat.toDigits 16 g ++ colonText gs := by
  induction gs generalizing g with
  | nil => simp [displaySegments, colonText]
  | cons g' gs ih =>
    have hcons : displaySegments (g :: g' :: gs) =
        Nat.toDigits 16 g ++ [':'] ++ displaySegments (g' :: gs) := by
      simp [displaySegments, List.intercalate_cons_cons]
    rw [hcons, ih]
    simp [colonText]

theorem dot_not_mem_colonText (gs : List Nat) : '.' ∉ colonText gs := by
  intro h
  obtain ⟨g, -, hg⟩ := List.mem_flatMap.mp h
  rcases List.mem_cons.mp hg with hdot | hdigits
  · cases hdot
  · exact not_mem_toDigits16 (by decide) g hdigits

theorem dot_not_mem_displaySegments (gs : List Nat) : '.' ∉ displaySegments gs := by
  cases gs with
  | nil => simp [displaySegments]
  | cons g gs =>
    rw [displaySegments_cons, List.mem_append, not_or]
    exact ⟨not_mem_toDigits16 (by decide) g, dot_not_mem_colonText gs⟩

/-- What follows a group begins with a colon. -/
theorem colon_follows {gs : List Nat} {rest : Text} (hends : Reader.Ends rest) :
    ∀ c ∈ (colonText gs ++ rest).head?, toDigit 16 c = none := by
  have hcolon : toDigit 16 ':' = none := by decide
  cases gs with
  | cons g gs => simp [colonText, hcolon]
  | nil =>
    rcases hends with rfl | ⟨more, rfl⟩
    · simp [colonText]
    · simp [colonText, hcolon]

namespace Reader

theorem segment_toDigits {g : Nat} (hg : g < 65536) {rest : Text}
    (hstop : ∀ c ∈ rest.head?, toDigit 16 c = none) :
    number 16 (some 4) true 65536 (Nat.toDigits 16 g ++ rest) = some (g, rest) := by
  refine number_toDigits (by decide) (by decide) hg ?_ true hstop
  rintro k hk
  obtain rfl := Option.some.inj hk
  rw [Nat.length_toDigits_le_iff (by decide) (by decide)]
  omega

theorem groups_colonText {gs : List Nat} (hgs : ∀ g ∈ gs, g < 65536) {room : Nat}
    (hroom : gs.length ≤ room) {rest : Text} (hno : '.' ∉ rest) (hends : Ends rest) {index : Nat}
    (hindex : 0 < index) : groups index room (colonText gs ++ rest) = (gs, false, rest) := by
  induction gs generalizing index room with
  | nil => exact groups_of_ends hends index room
  | cons g gs ih =>
    obtain ⟨hg, hgs'⟩ := List.forall_mem_cons.mp hgs
    obtain ⟨room, rfl⟩ : ∃ r, room = r + 1 := ⟨room - 1, by simp at hroom; omega⟩
    have htext : colonText (g :: gs) ++ rest =
        ':' :: (Nat.toDigits 16 g ++ (colonText gs ++ rest)) := by
      simp [colonText]
    have hdot : '.' ∉ colonText (g :: gs) ++ rest := by
      rw [List.mem_append, not_or]
      exact ⟨dot_not_mem_colonText _, hno⟩
    have hgroup : separated ':' index (number 16 (some 4) true 65536)
        (colonText (g :: gs) ++ rest) = some (g, colonText gs ++ rest) := by
      simp [htext, separated, hindex, givenChar, segment_toDigits hg (colon_follows hends)]
    rw [groups_step room hdot hgroup,
      ih hgs' (by simpa using hroom) (Nat.succ_pos index)]

/-- Segments between colons are the groups that were written. -/
theorem groups_displaySegments {gs : List Nat} (hgs : ∀ g ∈ gs, g < 65536) {room : Nat}
    (hroom : gs.length ≤ room) (rest : Text) (hno : '.' ∉ rest) (hends : Ends rest) :
    groups 0 room (displaySegments gs ++ rest) = (gs, false, rest) := by
  cases gs with
  | nil => exact groups_of_ends hends 0 room
  | cons g gs =>
    obtain ⟨hg, hgs'⟩ := List.forall_mem_cons.mp hgs
    obtain ⟨room, rfl⟩ : ∃ r, room = r + 1 := ⟨room - 1, by simp at hroom; omega⟩
    have hdot : '.' ∉ displaySegments (g :: gs) ++ rest := by
      rw [List.mem_append, not_or]
      exact ⟨dot_not_mem_displaySegments _, hno⟩
    have hgroup : separated ':' 0 (number 16 (some 4) true 65536)
        (displaySegments (g :: gs) ++ rest) = some (g, colonText gs ++ rest) := by
      rw [separated, if_neg (by decide), displaySegments_cons, List.append_assoc,
        segment_toDigits hg (colon_follows hends)]
    rw [groups_step room hdot hgroup,
      groups_colonText hgs' (by simpa using hroom) hno hends (by decide)]

end Reader

/-! ## The longest run of zeros -/

/-- The span covers zeros. -/
def Span.Covers (s : Span) (gs : List Nat) : Prop :=
  s.start + s.len ≤ gs.length ∧ ∀ i, s.start ≤ i → i < s.start + s.len → gs[i]? = some 0

theorem Span.Covers.append {s : Span} {gs : List Nat} (h : s.Covers gs) (more : List Nat) :
    s.Covers (gs ++ more) := by
  refine ⟨by simpa using Nat.le_add_right_of_le h.1, ?_⟩
  intro i hstart hend
  rw [List.getElem?_append_left (by have := h.1; omega)]
  exact h.2 i hstart hend

/-- `before` has been gone through, and `current` is the run of zeros at its end. -/
theorem longestZeroes_covers {before gs : List Nat} {longest current : Span}
    (hlongest : longest.Covers before) (hcurrent : current.Covers before)
    (hend : current.len = 0 ∨ current.start + current.len = before.length) :
    (longestZeroes before.length longest current gs).Covers (before ++ gs) := by
  induction gs generalizing before longest current with
  | nil => simpa [longestZeroes] using hlongest
  | cons g gs ih =>
    have hsplit : before ++ g :: gs = (before ++ [g]) ++ gs := by simp
    have hlength : before.length + 1 = (before ++ [g]).length := by simp
    rw [longestZeroes, hsplit, hlength]
    by_cases hg : g = 0
    · rw [if_pos hg]
      dsimp only
      subst hg
      have hrun : Span.Covers
          ⟨if current.len = 0 then before.length else current.start, current.len + 1⟩
          (before ++ [0]) := by
        refine ⟨?_, ?_⟩
        · rw [← hlength]
          dsimp only
          split <;> omega
        · intro i hstart hi
          dsimp only at hstart hi
          by_cases hlast : i = before.length
          · simp [hlast]
          · have hlen : current.len ≠ 0 := by
              intro h0
              rw [if_pos h0] at hstart hi
              omega
            rw [if_neg hlen] at hstart hi
            rw [List.getElem?_append_left (by omega)]
            exact hcurrent.2 i hstart (by omega)
      refine ih ?_ hrun (.inr ?_)
      · split
        · exact hrun
        · exact hlongest.append [0]
      · rw [← hlength]
        dsimp only
        split <;> omega
    · rw [if_neg hg]
      exact ih (hlongest.append [g]) ⟨by simp, by simp⟩ (.inl rfl)

/-- What the span covers is left out between two parts. -/
theorem Span.Covers.split {s : Span} {gs : List Nat} (h : s.Covers gs) :
    gs = gs.take s.start ++ List.replicate s.len 0 ++ gs.drop (s.start + s.len) := by
  obtain ⟨hle, hzero⟩ := h
  have hmiddle : (gs.drop s.start).take s.len = List.replicate s.len 0 := by
    refine List.eq_replicate_iff.mpr ⟨by simp; omega, ?_⟩
    intro g hg
    obtain ⟨i, hi, rfl⟩ := List.getElem_of_mem hg
    simp only [List.length_take, List.length_drop] at hi
    have h0 := hzero (s.start + i) (by omega) (by omega)
    rw [List.getElem_take, List.getElem_drop]
    exact Option.some.inj ((List.getElem?_eq_getElem _).symm.trans h0)
  rw [← hmiddle, List.append_assoc, ← List.drop_drop, List.take_append_drop,
    List.take_append_drop]

/-! ## IPv6 -/

theorem high_byte (a b : UInt8) : UInt8.ofNat ((a.toNat * 256 + b.toNat) / 256) = a := by
  have hb : b.toNat < 256 := b.toNat_lt
  rw [show (a.toNat * 256 + b.toNat) / 256 = a.toNat by omega, UInt8.ofNat_toNat]

theorem low_byte (a b : UInt8) : UInt8.ofNat ((a.toNat * 256 + b.toNat) % 256) = b := by
  have hb : b.toNat < 256 := b.toNat_lt
  rw [show (a.toNat * 256 + b.toNat) % 256 = b.toNat by omega, UInt8.ofNat_toNat]

theorem length_segments (ip : Ipv6Addr) : (segments ip).length = 8 := by
  simp [segments]

theorem segment_lt (ip : Ipv6Addr) : ∀ g ∈ segments ip, g < 65536 := by
  intro g hg
  obtain ⟨i, rfl⟩ := List.mem_ofFn.mp hg
  have ha := (ip.octets[2 * i.val]).toNat_lt
  have hb := (ip.octets[2 * i.val + 1]).toNat_lt
  omega

theorem ofGroups_segments (ip : Ipv6Addr) : Reader.ofGroups (segments ip) = ip := by
  obtain ⟨octets⟩ := ip
  unfold Reader.ofGroups
  congr 1
  refine Vector.ext fun i hi => ?_
  have hhalf : i / 2 < 8 := by omega
  have hsegment : (segments ⟨octets⟩).getD (i / 2) 0 =
      octets[2 * (i / 2)].toNat * 256 + octets[2 * (i / 2) + 1].toNat := by
    rw [segments, List.getD_eq_getElem?_getD, List.getElem?_ofFn, dif_pos hhalf, Option.getD_some]
  rw [Vector.getElem_ofFn, hsegment]
  dsimp only
  by_cases heven : i % 2 = 0
  · rw [if_pos heven, high_byte]
    congr 1
    omega
  · rw [if_neg heven, low_byte]
    congr 1
    omega

namespace Reader

theorem ipv6_segments {gs : List Nat} (hgs : ∀ g ∈ gs, g < 65536) (hlength : gs.length = 8) :
    ipv6 (displaySegments gs) = some (ofGroups gs, []) := by
  have hgroups := groups_displaySegments hgs (Nat.le_of_eq hlength) [] (by simp) (.inl rfl)
  rw [List.append_nil] at hgroups
  simp [ipv6, hgroups, hlength]

/-- The groups that `::` leaves out are zeros. -/
theorem ipv6_compressed {head tail : List Nat} (hhead : ∀ g ∈ head, g < 65536)
    (htail : ∀ g ∈ tail, g < 65536) (hlength : head.length + tail.length < 8) :
    ipv6 (displaySegments head ++ [':', ':'] ++ displaySegments tail) =
      some (ofGroups (head ++ List.replicate (8 - head.length - tail.length) 0 ++ tail), []) := by
  have hdot : '.' ∉ ':' :: ':' :: displaySegments tail := by
    simp [dot_not_mem_displaySegments]
  have hroom : tail.length ≤ 7 - head.length := by omega
  have hfront := groups_displaySegments hhead (show head.length ≤ 8 by omega) _ hdot (.inr ⟨_, rfl⟩)
  have hback := groups_displaySegments htail hroom [] (by simp) (.inl rfl)
  rw [List.append_nil] at hback
  have hnot : head.length ≠ 8 := by omega
  simp [ipv6, hfront, hback, hnot, givenChar]

theorem ipv6_mapped (v4 : Ipv4Addr) :
    ipv6 ("::ffff:".toList ++ displayIpv4 v4) =
      some (ofGroups [0, 0, 0, 0, 0, 65535, v4.a.toNat * 256 + v4.b.toNat,
        v4.c.toNat * 256 + v4.d.toNat], []) := by
  have hfront := groups_of_ends (t := "::ffff:".toList ++ displayIpv4 v4) (.inr ⟨_, rfl⟩) 0 8
  have hnone : ∀ rest, ipv4 ('f' :: rest) = none := by
    intro rest
    have hoctet : octet ('f' :: rest) = none := number_eq_none (by decide) ..
    simp [ipv4, separated, hoctet]
  have hffff : number 16 (some 4) true 65536 ("ffff".toList ++ ':' :: displayIpv4 v4) =
      some (65535, ':' :: displayIpv4 v4) :=
    segment_toDigits (g := 65535) (by decide) (by simp; decide)
  have hv4 : ipv4 (displayIpv4 v4) = some (v4, []) := by
    simpa using ipv4_displayIpv4 v4 [] (by simp)
  have hback : groups 0 7 ("ffff:".toList ++ displayIpv4 v4) =
      ([65535, v4.a.toNat * 256 + v4.b.toNat, v4.c.toNat * 256 + v4.d.toNat], true, []) := by
    have htext : "ffff:".toList ++ displayIpv4 v4 = "ffff".toList ++ ':' :: displayIpv4 v4 := by
      simp
    rw [htext, groups, if_pos (by decide), separated, if_neg (by decide)]
    rw [show ipv4 ("ffff".toList ++ ':' :: displayIpv4 v4) = none from hnone _]
    dsimp only
    rw [separated, if_neg (by decide), hffff]
    dsimp only
    rw [groups, if_pos (by decide)]
    simp [separated, givenChar, hv4]
  unfold ipv6
  rw [hfront]
  dsimp only
  rw [if_neg (by decide), if_neg (by decide)]
  show (some ((), ':' :: ("ffff:".toList ++ displayIpv4 v4)) >>= fun r => _) = _
  simp only [Option.bind_eq_bind, Option.bind_some]
  show (some ((), "ffff:".toList ++ displayIpv4 v4) >>= fun r => _) = _
  simp only [Option.bind_eq_bind, Option.bind_some]
  rw [show 8 - ((List.length ([] : List Nat)) + 1) = 7 from rfl, hback]
  rfl

/-- **Every IPv6 address is read back from its text.** -/
theorem ipv6_displayIpv6 (ip : Ipv6Addr) : ipv6 (displayIpv6 ip) = some (ip, []) := by
  have hlength := length_segments ip
  have hgs := segment_lt ip
  have hof := ofGroups_segments ip
  unfold displayIpv6
  dsimp only
  split_ifs with hmapped hrun
  · rw [ipv6_mapped]
    have hdrop : (segments ip).drop 6 =
        [ip.octets[12].toNat * 256 + ip.octets[13].toNat,
          ip.octets[14].toNat * 256 + ip.octets[15].toNat] := rfl
    have hsplit := List.take_append_drop 6 (segments ip)
    rw [hmapped, hdrop] at hsplit
    rw [← hsplit] at hof
    exact congrArg (fun a => some (a, [])) hof
  · have hcovers : (longestZeroes 0 {} {} (segments ip)).Covers (segments ip) :=
      @longestZeroes_covers [] _ _ _ ⟨by simp, by simp⟩ ⟨by simp, by simp⟩ (.inl rfl)
    generalize longestZeroes 0 {} {} (segments ip) = zeroes at hcovers hrun
    have hle := hcovers.1
    rw [ipv6_compressed (fun g hg => hgs g (List.mem_of_mem_take hg))
      (fun g hg => hgs g (List.mem_of_mem_drop hg)) (by simp; omega)]
    have hleft : 8 - ((segments ip).take zeroes.start).length -
        ((segments ip).drop (zeroes.start + zeroes.len)).length = zeroes.len := by
      simp
      omega
    rw [hleft, ← hcovers.split, hof]
  · rw [ipv6_segments hgs hlength, hof]

end Reader

/-! ## Reading what was written -/

theorem ipv4_displayIpv6 (ip : Ipv6Addr) : Reader.ipv4 (displayIpv6 ip) = none := by
  unfold displayIpv6
  dsimp only
  split_ifs
  · exact Reader.ipv4_eq_none (by decide) _
  · refine Reader.ipv4_eq_none_of_not_mem ?_
    simp [dot_not_mem_displaySegments]
  · exact Reader.ipv4_eq_none_of_not_mem (dot_not_mem_displaySegments _)

theorem parseIpAddr_displayIp (ip : IpAddr) : parseIpAddr (displayIp ip) = some ip := by
  unfold parseIpAddr
  rw [Reader.parseWith_eq_some]
  cases ip with
  | V4 v4 =>
    have hv4 := Reader.ipv4_displayIpv4 v4 [] (by simp)
    rw [List.append_nil] at hv4
    simp [displayIp, hv4]
  | V6 v6 => simp [displayIp, ipv4_displayIpv6, Reader.ipv6_displayIpv6]

theorem parseIpv4_displayIpv4 (ip : Ipv4Addr) : parseIpv4 (displayIpv4 ip) = some ip :=
  parseIpv4_eq_some.mpr (parseIpAddr_displayIp (.V4 ip))

theorem parseIpv6_displayIpv6 (ip : Ipv6Addr) : parseIpv6 (displayIpv6 ip) = some ip :=
  Reader.parseWith_eq_some.mpr (Reader.ipv6_displayIpv6 ip)

/-- No two addresses have the same text. -/
theorem displayIp_injective : Function.Injective displayIp := by
  intro ip ip' h
  have hip := parseIpAddr_displayIp ip
  rw [h, parseIpAddr_displayIp] at hip
  exact (Option.some.inj hip).symm

/-! ## The characters -/

/-- `char::is_ascii_graphic`, of every character. -/
def Graphic (t : Text) : Prop := ∀ c ∈ t, 32 < c.toNat ∧ c.toNat < 127

instance : DecidablePred Graphic := fun t => List.decidableBAll _ t

theorem graphic_append {t s : Text} : Graphic (t ++ s) ↔ Graphic t ∧ Graphic s :=
  List.forall_mem_append

theorem graphic_cons {c : Char} {t : Text} :
    Graphic (c :: t) ↔ (32 < c.toNat ∧ c.toNat < 127) ∧ Graphic t :=
  List.forall_mem_cons

theorem Graphic.not_mem {t : Text} (h : Graphic t) {c : Char} (hc : c.toNat ≤ 32) : c ∉ t := by
  intro hmem
  have hlt := (h c hmem).1
  omega

theorem graphic_toDigits {radix : Nat} (h1 : 1 < radix) (h16 : radix ≤ 16) (n : Nat) :
    Graphic (Nat.toDigits radix n) := by
  intro c hc
  have hsome := isSome_toDigits h1 h16 n c hc
  unfold toDigit at hsome
  have hle : ('0' ≤ c ∧ c ≤ '9') ∨ ('a' ≤ c ∧ c ≤ 'f') ∨ ('A' ≤ c ∧ c ≤ 'F') := by
    grind
  simp only [Char.le_def, UInt32.le_iff_toNat_le] at hle
  have hchar : ∀ d : Char, d.val.toNat = d.toNat := fun _ => rfl
  simp only [hchar] at hle
  simp at hle
  omega

theorem graphic_colonText (gs : List Nat) : Graphic (colonText gs) := by
  intro c hc
  obtain ⟨g, -, hg⟩ := List.mem_flatMap.mp hc
  exact graphic_cons.mpr ⟨by decide, graphic_toDigits (by decide) (by decide) g⟩ c hg

theorem graphic_displaySegments (gs : List Nat) : Graphic (displaySegments gs) := by
  cases gs with
  | nil => simp [displaySegments, Graphic]
  | cons g gs =>
    rw [displaySegments_cons]
    exact graphic_append.mpr ⟨graphic_toDigits (by decide) (by decide) g, graphic_colonText gs⟩

theorem graphic_displayIpv4 (ip : Ipv4Addr) : Graphic (displayIpv4 ip) := by
  rw [displayIpv4_eq]
  simp [graphic_append, graphic_cons, graphic_toDigits]

theorem graphic_displayIp (ip : IpAddr) : Graphic (displayIp ip) := by
  cases ip with
  | V4 v4 => exact graphic_displayIpv4 v4
  | V6 v6 =>
    show Graphic (displayIpv6 v6)
    unfold displayIpv6
    dsimp only
    split_ifs
    · exact graphic_append.mpr ⟨by decide, graphic_displayIpv4 _⟩
    · exact graphic_append.mpr ⟨graphic_append.mpr ⟨graphic_displaySegments _, by decide⟩,
        graphic_displaySegments _⟩
    · exact graphic_displaySegments _

end Heimdallr.Net
