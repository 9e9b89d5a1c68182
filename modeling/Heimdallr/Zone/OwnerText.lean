import Heimdallr.Zone.NameText

/-!
# Owner names in a zone file (`core/zone/record.rs`)

`persist_zone` shortens the owner of a record by the text of the origin, and whoever reads the file
puts the labels of the origin after those of a relative owner. The dot before the text of the origin
need not be one between two labels.

* `readOwnerText` is the rule of master files for owners, on texts: `@` is the origin, a text with a
  dot at its end is absolute, any other one is completed.
* An owner is shortened when its text ends in a dot and the text of the origin. The dot may be
  escaped, and then belongs to the last label that is left; cut off there, this label ends in a
  backslash.

Results:
* `readOwnerText_nameText`, `readOwnerText_below`: what is read of an owner written in full, and of
  a shortened one.
* **`owner_survives_iff`**: when what is read is the owner.
-/

namespace Heimdallr.Zone

open Heimdallr.Lib Heimdallr.Net

/-- The labels a text denotes as an owner under an origin: `@` is the origin, a name with a dot at
its end is absolute, and any other is completed with the origin. -/
def readOwnerText (readLabel : Text → Option Label) (origin : Name) (t : Text) :
    Option (List Label) :=
  if t = ['@'] then some origin.labels
  else if t = ['.'] then some []
  else if t = [] then none
  else do
    let pieces ← cutDots t
    if pieces.getLast? = some [] then pieces.dropLast.mapM readLabel
    else do
      let labels ← pieces.mapM readLabel
      some (labels ++ origin.labels)

/-- A label is read from its text, case aside, and none is printed as `@`. -/
structure ReadsLabels (lab : Label → Text) (readLabel : Text → Option Label) : Prop where
  reads : ∀ l ≠ [], ∃ l', readLabel (lab l) = some l' ∧ l'.map lowerByte = l.map lowerByte
  notAt : ∀ l ≠ [], lab l ≠ ['@']

/-- What is written for the owner is read as the owner, case aside. -/
def Survives (lib : ZoneLib) (readLabel : Text → Option Label) (origin owner : Name) : Prop :=
  ∃ labels, readOwnerText readLabel origin (shortName lib origin owner) = some labels ∧
    lowered labels = lowered owner.labels

section

variable {lib : ZoneLib} {lab : Label → Text} {readLabel : Text → Option Label} {origin owner : Name}

/-- Labels are read from their texts. -/
theorem readLabels_map (hread : ReadsLabels lab readLabel) {ls : List Label}
    (hls : ∀ l ∈ ls, l ≠ []) :
    ∃ ls', (ls.map lab).mapM readLabel = some ls' ∧ lowered ls' = lowered ls := by
  induction ls with
  | nil => exact ⟨[], rfl, rfl⟩
  | cons l ls ih =>
    obtain ⟨hl, hls⟩ := List.forall_mem_cons.mp hls
    obtain ⟨l', hl', hlower⟩ := hread.reads l hl
    obtain ⟨ls', hls', hlowers⟩ := ih hls
    refine ⟨l' :: ls', ?_, ?_⟩
    · rw [List.map_cons, List.mapM_cons, hl', hls']
      rfl
    · exact congrArg₂ List.cons hlower hlowers

/-- Labels with the same texts are the same, case aside. -/
theorem lowered_eq_of_labs (hread : ReadsLabels lab readLabel) {ls ms : List Label}
    (hls : ∀ l ∈ ls, l ≠ []) (hms : ∀ l ∈ ms, l ≠ []) (h : ls.map lab = ms.map lab) :
    lowered ls = lowered ms := by
  obtain ⟨ls', hls', hlower⟩ := readLabels_map hread hls
  obtain ⟨ms', hms', hlower'⟩ := readLabels_map hread hms
  rw [h, hms'] at hls'
  rw [← hlower, ← hlower', Option.some.inj hls']

/-- A text with a dot at its end is read as an absolute name. -/
theorem readOwnerText_absolute {t : Text} {ps : List Text} (hcut : cutDots t = some (ps ++ [[]]))
    (hps : ps ≠ []) (hnil : [] ∉ ps) : readOwnerText readLabel origin t = ps.mapM readLabel := by
  have hlen := List.length_pos_iff.mpr hps
  have hne : ∀ qs : List Text, qs.length ≤ 1 → cutDots t ≠ some qs := by
    intro qs hqs h
    have heq := congrArg List.length (Option.some.inj (hcut.symm.trans h))
    rw [List.length_append, List.length_singleton] at heq
    omega
  have hat : t ≠ ['@'] := fun h => hne [['@']] (by simp) (by rw [h]; rfl)
  have hempty : t ≠ [] := fun h => hne [[]] (by simp) (by rw [h]; rfl)
  have hdot : t ≠ ['.'] := by
    intro h
    have hroot : cutDots ['.'] = some ([[]] ++ [[]]) := rfl
    rw [h, hroot] at hcut
    obtain rfl := List.append_cancel_right (Option.some.inj hcut)
    exact hnil List.mem_cons_self
  unfold readOwnerText
  rw [if_neg hat, if_neg hdot, if_neg hempty, hcut]
  show (if _ then _ else _) = _
  rw [if_pos (by simp), List.dropLast_concat]

/-- A text without one is completed with the origin. -/
theorem readOwnerText_relative {t : Text} {ps : List Text} (hcut : cutDots t = some ps)
    (hnil : [] ∉ ps) (hat : ps ≠ [['@']]) :
    readOwnerText readLabel origin t = (ps.mapM readLabel).map (· ++ origin.labels) := by
  have hne : ∀ u qs, cutDots u = some qs → ([] ∈ qs ∨ qs = [['@']]) → t ≠ u := by
    rintro u qs hu hqs rfl
    rw [hcut] at hu
    obtain rfl := Option.some.inj hu
    rcases hqs with h | h
    · exact hnil h
    · exact hat h
  have hlast : ps.getLast? ≠ some [] := fun h => hnil (List.mem_of_getLast? h)
  unfold readOwnerText
  rw [if_neg (hne ['@'] [['@']] rfl (.inr rfl)), if_neg (hne ['.'] [[], []] rfl (.inl (by simp))),
    if_neg (hne [] [[]] rfl (.inl (by simp))), hcut]
  show (if _ then _ else _) = _
  rw [if_neg hlast]
  cases ps.mapM readLabel <;> rfl

/-- An owner in full is read as itself. -/
theorem readOwnerText_nameText (hp : PrintsNames lib.toHickory lab)
    (hread : ReadsLabels lab readLabel) (howner : Proper owner) (hfqdn : owner.isFqdn = true) :
    ∃ labels, readOwnerText readLabel origin (lib.nameText owner) = some labels ∧
      lowered labels = lowered owner.labels := by
  by_cases hroot : owner.labels = []
  · have hisRoot : owner.isRoot = true := by simp [Name.isRoot, hroot, hfqdn]
    have htext : lib.nameText owner = ['.'] := by
      show (lib.toUtf8 owner).toList = ['.']
      rw [hp.prints, printed, if_pos hisRoot]
    refine ⟨[], ?_, by rw [hroot]⟩
    rw [htext]
    rfl
  · have hcut := cutDots_nameText hp howner hfqdn
    rw [namePieces, if_neg hroot] at hcut
    obtain ⟨labels, hlabels, hlower⟩ := readLabels_map hread howner
    refine ⟨labels, ?_, hlower⟩
    rw [← hlabels]
    exact readOwnerText_absolute hcut (by simpa using hroot) (nil_not_mem_labs hp howner)

/-- A shortened owner is read as the owner, if it was cut at a dot between two labels. -/
theorem readOwnerText_below (hp : PrintsNames lib.toHickory lab) (hread : ReadsLabels lab readLabel)
    (horigin : Proper origin) (howner : Proper owner) (hofqdn : origin.isFqdn = true)
    (hfqdn : owner.isFqdn = true) {w : Text}
    (htext : lib.nameText owner = w ++ '.' :: lib.nameText origin)
    (hw : escaped '\\' false w = false) :
    ∃ labels, readOwnerText readLabel origin w = some labels ∧
      lowered labels = lowered owner.labels := by
  obtain ⟨ps, hps, hcut⟩ := exists_pieces hw
  have hpieces : namePieces lab owner = ps ++ namePieces lab origin := by
    have hwhole : cutDots (lib.nameText owner) = some (namePieces lab owner) :=
      cutDots_nameText hp howner hfqdn
    have hbelow : cutDots (lib.nameText owner) = some (ps ++ namePieces lab origin) := by
      rw [htext]
      exact cutDots_below hp horigin hofqdn hcut
    exact Option.some.inj (hwhole.symm.trans hbelow)
  obtain ⟨front, rest, hlabels, hfront, hrest, -⟩ := labels_of_below hp howner hps hpieces
  have hfrontProper : ∀ l ∈ front, l ≠ [] := fun l hl => howner l (by rw [hlabels]; simp [hl])
  have hrestProper : ∀ l ∈ rest, l ≠ [] := fun l hl => howner l (by rw [hlabels]; simp [hl])
  have hnil : [] ∉ ps := by
    rw [← hfront]
    exact nil_not_mem_labs hp (n := ⟨front, true⟩) hfrontProper
  have hat : ps ≠ [['@']] := by
    intro h
    rw [← hfront] at h
    obtain ⟨l, rfl, hl⟩ := List.map_eq_singleton_iff.mp h
    exact hread.notAt l (hfrontProper l List.mem_cons_self) hl
  obtain ⟨labels, hmap, hlower⟩ := readLabels_map hread hfrontProper
  rw [hfront] at hmap
  refine ⟨labels ++ origin.labels, ?_, ?_⟩
  · rw [readOwnerText_relative hcut hnil hat, hmap, Option.map_some]
  · have hbase := lowered_eq_of_labs hread hrestProper horigin hrest
    unfold lowered at hlower hbase ⊢
    rw [List.map_append, hlower, hlabels, List.map_append, hbase]

/-- What ends in an escape is no name. -/
theorem readOwnerText_of_escaped {w : Text} (hw : escaped '\\' false w = true) :
    readOwnerText readLabel origin w = none := by
  have hcut : cutDots w = none := (splitEsc_eq_none_iff (by decide)).mpr hw
  have hne : ∀ u, escaped '\\' false u = false → w ≠ u := by
    rintro u hu rfl
    rw [hw] at hu
    cases hu
  unfold readOwnerText
  rw [if_neg (hne ['@'] rfl), if_neg (hne ['.'] rfl), if_neg (hne [] rfl), hcut]
  rfl

/-- Names with the same text have labels with the same texts. -/
theorem labs_of_nameText (hp : PrintsNames lib.toHickory lab) (howner : Proper owner)
    (horigin : Proper origin) (hfqdn : owner.isFqdn = true) (hofqdn : origin.isFqdn = true)
    (h : lib.nameText owner = lib.nameText origin) :
    owner.labels.map lab = origin.labels.map lab := by
  have hpieces : namePieces lab owner = namePieces lab origin := by
    have hwhole : cutDots (lib.nameText owner) = some (namePieces lab owner) :=
      cutDots_nameText hp howner hfqdn
    have hbase : cutDots (lib.nameText owner) = some (namePieces lab origin) := by
      rw [h]
      exact cutDots_nameText hp horigin hofqdn
    exact Option.some.inj (hwhole.symm.trans hbase)
  have hroot : ∀ n : Name, Proper n → n.labels.map lab ≠ [[]] := by
    intro n hn heq
    exact nil_not_mem_labs hp hn (by rw [heq]; exact List.mem_cons_self)
  unfold namePieces at hpieces
  by_cases h₁ : owner.labels = []
  · by_cases h₂ : origin.labels = []
    · rw [h₁, h₂]
    · rw [if_pos h₁, if_neg h₂] at hpieces
      exact absurd (List.append_cancel_right (hpieces.symm : _ = [[]] ++ [[]])) (hroot origin horigin)
  · by_cases h₂ : origin.labels = []
    · rw [if_neg h₁, if_pos h₂] at hpieces
      exact absurd (List.append_cancel_right (hpieces : _ = [[]] ++ [[]])) (hroot owner howner)
    · rw [if_neg h₁, if_neg h₂] at hpieces
      exact List.append_cancel_right hpieces

/-- **When the owner survives**: if the dot before the text of the origin is not escaped. -/
theorem owner_survives_iff (hp : PrintsNames lib.toHickory lab) (hread : ReadsLabels lab readLabel)
    (horigin : Proper origin) (howner : Proper owner) (hofqdn : origin.isFqdn = true)
    (hfqdn : owner.isFqdn = true) :
    Survives lib readLabel origin owner ↔
      ∀ w, lib.nameText owner = w ++ '.' :: lib.nameText origin → escaped '\\' false w = false := by
  unfold Survives shortName
  dsimp only
  split
  · -- the apex
    rename_i htext
    have hlabs := labs_of_nameText hp howner horigin hfqdn hofqdn htext
    have hlower := lowered_eq_of_labs hread howner horigin hlabs
    refine iff_of_true ⟨origin.labels, rfl, hlower.symm⟩ ?_
    intro w hw
    have hlen := congrArg List.length (htext.symm.trans hw)
    rw [List.length_append, List.length_cons] at hlen
    omega
  · split
    · rename_i hne stripped hstripped
      have htext := eq_append_of_stripSuffix hstripped
      constructor
      · rintro ⟨labels, hlabels, -⟩ w hw
        obtain rfl : w = stripped := by
          rw [htext] at hw
          exact (List.append_cancel_right hw).symm
        by_contra hesc
        rw [readOwnerText_of_escaped (eq_true_of_ne_false hesc)] at hlabels
        cases hlabels
      · intro hall
        exact readOwnerText_below hp hread horigin howner hofqdn hfqdn htext (hall _ htext)
    · rename_i hne hstripped
      refine iff_of_true (readOwnerText_nameText hp hread howner hfqdn) ?_
      intro w hw
      rw [hw, stripSuffix_append] at hstripped
      cases hstripped

end

/-! ## Labels with escapes -/

/-- A label without its escapes. -/
def unescapedLabel : Text → Option Label
  | [] => some []
  | [c] => if c = '\\' then none else some [UInt8.ofNat c.toNat]
  | c :: d :: rest =>
    if c = '\\' then (unescapedLabel rest).map (UInt8.ofNat d.toNat :: ·)
    else (unescapedLabel (d :: rest)).map (UInt8.ofNat c.toNat :: ·)

/-- A library that escapes dots when it prints names. -/
def escapingLib : ZoneLib := { ZoneLib.knowing [] with toHickory := escapingHickory }

theorem unescapedLabel_cons {c : Char} (h : c ≠ '\\') (rest : Text) :
    unescapedLabel (c :: rest) = (unescapedLabel rest).map (UInt8.ofNat c.toNat :: ·) := by
  cases rest with
  | nil => exact if_neg h
  | cons d rest => exact if_neg h

theorem unescapedLabel_escapedLabel (l : Label) : unescapedLabel (escapedLabel l) = some l := by
  induction l with
  | nil => rfl
  | cons b l ih =>
    have hall : ∀ n : Fin 256, UInt8.ofNat (Char.ofNat n.val).toNat = UInt8.ofFin n := by
      decide +kernel
    have hb : UInt8.ofNat (Char.ofNat b.toNat).toNat = b := hall b.toFin
    rw [escapedLabel_cons]
    split
    · show (unescapedLabel (escapedLabel l)).map _ = _
      rw [ih, Option.map_some, hb]
    · rename_i hplain
      obtain ⟨-, hslash⟩ := plain_octet hplain
      rw [List.singleton_append, unescapedLabel_cons hslash, ih, Option.map_some, hb]

theorem escaping_readsLabels : ReadsLabels escapedLabel unescapedLabel := by
  refine ⟨fun l _ => ⟨l, unescapedLabel_escapedLabel l, rfl⟩, ?_⟩
  intro l _ h
  have hread := unescapedLabel_escapedLabel l
  rw [h] at hread
  obtain rfl : [64] = l := Option.some.inj hread
  exact absurd h (by decide)

/-- A name two labels below the origin, one of them with a dot in it. -/
theorem owner_survives_below :
    Survives escapingLib unescapedLabel (.ofLabels ["example", "com"] true)
      (.ofLabels ["a.b", "www", "example", "com"] true) := by
  refine (owner_survives_iff escapingHickory_prints escaping_readsLabels (by decide)
    (by decide) rfl rfl).mpr ?_
  intro w hw
  have htext : escapingLib.nameText (.ofLabels ["a.b", "www", "example", "com"] true) =
      "a\\.b.www".toList ++ '.' :: escapingLib.nameText (.ofLabels ["example", "com"] true) := by
    decide
  rw [← List.append_cancel_right (htext.symm.trans hw)]
  decide

/-- The label `a.example` below `com.` is cut in two. -/
theorem escaped_dot_cut :
    let origin := Name.ofLabels ["example", "com"] true
    let owner := Name.ofLabels ["a.example", "com"] true
    shortName escapingLib origin owner = "a\\".toList ∧
      ¬ Survives escapingLib unescapedLabel origin owner := by
  have hshort : shortName escapingLib (.ofLabels ["example", "com"] true)
      (.ofLabels ["a.example", "com"] true) = "a\\".toList := by decide
  refine ⟨hshort, ?_⟩
  rintro ⟨labels, hlabels, -⟩
  rw [hshort, readOwnerText_of_escaped (by decide)] at hlabels
  cases hlabels

end Heimdallr.Zone
