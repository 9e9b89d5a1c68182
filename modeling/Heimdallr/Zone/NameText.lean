import Heimdallr.Lib.Escapes
import Heimdallr.Zone.RecordSpec

/-!
# The texts of names

hickory prints a name as its labels with dots between them, and one more at the end of an absolute
name. What would be read otherwise inside a label is escaped by a backslash, so the labels can be
found again at the dots that are not escaped.

* How a label is printed is a parameter (`lab`). `PrintsNames` is what is known of it: what is
  printed is not empty, has no dot that is not escaped and does not end within an escape, and
  letters stand for themselves.
* `Proper` names have no empty label. The type admits them, hickory does not.
* Pieces are cut at dots by `Lib.Escapes`, and most arguments go from the end of the text, since
  what stands at the end is the name of a zone.

Results:
* `cutDots_nameText`: the pieces of an absolute name's text are its labels and an empty one.
* `cutDots_below`: what stands before the text of a name has pieces of its own, if the dot between
  them is not escaped.
-/

namespace Heimdallr.Zone

open Heimdallr.Lib Heimdallr.Net

/-- The pieces of a text between the dots that are not escaped. -/
def cutDots (t : Text) : Option (List Text) := splitEsc '\\' '.' false t

/-- The text of a name whose labels have the texts `lab`. -/
def printed (lab : Label → Text) (n : Name) : Text :=
  if n.isRoot then ['.']
  else ['.'].intercalate (n.labels.map lab ++ if n.isFqdn then [[]] else [])

/-- Labels in lower case. -/
def lowered (labels : List Label) : List Label := labels.map (·.map lowerByte)

/-- A letter in ASCII. -/
def isLetter (b : UInt8) : Bool := 65 ≤ b ∧ b ≤ 90 ∨ 97 ≤ b ∧ b ≤ 122

/-- How hickory prints names: a label has a text without a dot that is not escaped and without an
escape at its end, and letters stand for themselves. -/
structure PrintsNames (hk : Hickory) (lab : Label → Text) : Prop where
  prints : ∀ n, (hk.toUtf8 n).toList = printed lab n
  piece : ∀ l ≠ [], cutDots (lab l) = some [lab l]
  nonempty : ∀ l ≠ [], lab l ≠ []
  letters : ∀ l, (∀ b ∈ l, isLetter b) → lab l = l.map fun b => Char.ofNat b.toNat

/-- A name has no empty label but the root's. -/
def Proper (n : Name) : Prop := ∀ l ∈ n.labels, l ≠ []

instance (n : Name) : Decidable (Proper n) :=
  inferInstanceAs (Decidable (∀ l ∈ n.labels, l ≠ []))

/-- The pieces of an absolute name's text. -/
def namePieces (lab : Label → Text) (n : Name) : List Text :=
  if n.labels = [] then [[], []] else n.labels.map lab ++ [[]]

/-- A text that is not left in an escape has pieces. -/
theorem exists_pieces {t : Text} (h : escaped '\\' false t = false) :
    ∃ ps, ps ≠ [] ∧ cutDots t = some ps := by
  have hsome : cutDots t ≠ none := by
    rw [cutDots, Ne, splitEsc_eq_none_iff (by decide), h]
    decide
  obtain ⟨ps, hps⟩ := Option.ne_none_iff_exists'.mp hsome
  exact ⟨ps, splitEsc_ne_nil hps, hps⟩

section

variable {hk : Hickory} {lab : Label → Text} (hp : PrintsNames hk lab) {n : Name}

include hp

theorem nil_not_mem_labs (hn : Proper n) : [] ∉ n.labels.map lab := by
  intro h
  obtain ⟨l, hl, hnil⟩ := List.mem_map.mp h
  exact hp.nonempty l (hn l hl) hnil

theorem cutDots_intercalate (hn : Proper n) {more : List Text} (hmore : ∀ p ∈ more, p = [])
    (hne : n.labels.map lab ++ more ≠ []) :
    cutDots (['.'].intercalate (n.labels.map lab ++ more)) = some (n.labels.map lab ++ more) := by
  refine splitEsc_intercalate (by decide) hne ?_
  intro p hmem
  rcases List.mem_append.mp hmem with hlab | hmem
  · obtain ⟨l, hl, rfl⟩ := List.mem_map.mp hlab
    exact hp.piece l (hn l hl)
  · rw [hmore p hmem]
    rfl

theorem cutDots_nameText (hn : Proper n) (hfqdn : n.isFqdn = true) :
    cutDots (hk.toUtf8 n).toList = some (namePieces lab n) := by
  rw [hp.prints, printed, namePieces]
  by_cases hroot : n.labels = []
  · have hisRoot : n.isRoot = true := by simp [Name.isRoot, hroot, hfqdn]
    rw [if_pos hisRoot, if_pos hroot]
    rfl
  · have hisRoot : ¬ n.isRoot = true := by simp [Name.isRoot, hroot]
    rw [if_neg hisRoot, if_neg hroot, if_pos hfqdn]
    exact cutDots_intercalate hp hn (by simp) (by simp)

/-- The pieces of a text that ends in the text of a name, behind a dot that is not escaped. -/
theorem cutDots_below (hn : Proper n) (hfqdn : n.isFqdn = true) {t : Text} {ps : List Text}
    (ht : cutDots t = some ps) :
    cutDots (t ++ '.' :: (hk.toUtf8 n).toList) = some (ps ++ namePieces lab n) := by
  have hbase := cutDots_nameText hp hn hfqdn
  unfold cutDots at ht hbase ⊢
  rw [splitEsc_append_sep (by decide) ht, hbase, Option.map_some]

/-- A relative name's text has no empty piece at its end, but for that of the empty name. -/
theorem cutDots_relative (hn : Proper n) (hfqdn : n.isFqdn = false) :
    cutDots (hk.toUtf8 n).toList = some (if n.labels = [] then [[]] else n.labels.map lab) := by
  have hisRoot : ¬ n.isRoot = true := by simp [Name.isRoot, hfqdn]
  rw [hp.prints, printed, if_neg hisRoot, hfqdn, if_neg (by decide), List.append_nil]
  by_cases hempty : n.labels = []
  · rw [if_pos hempty, hempty]
    rfl
  · rw [if_neg hempty]
    have hcut := @cutDots_intercalate _ _ hp _ hn [] (by simp) (by simpa using hempty)
    rwa [List.append_nil] at hcut

/-- The labels of an owner cut at the dot before its origin. -/
theorem labels_of_below {owner origin : Name} (howner : Proper owner) {ps : List Text}
    (hps : ps ≠ []) (h : namePieces lab owner = ps ++ namePieces lab origin) :
    ∃ front rest, owner.labels = front ++ rest ∧ front.map lab = ps ∧
      rest.map lab = origin.labels.map lab ∧ origin.labels ≠ [] := by
  have hlen := List.length_pos_iff.mpr hps
  unfold namePieces at h
  by_cases hroot : owner.labels = []
  · -- the root's text has no more than two pieces
    have hcount := congrArg List.length h
    rw [if_pos hroot] at hcount
    by_cases horigin : origin.labels = []
    · rw [if_pos horigin, List.length_append] at hcount
      simp only [List.length_cons, List.length_nil] at hcount
      omega
    · have hlabels := List.length_pos_iff.mpr horigin
      rw [if_neg horigin] at hcount
      simp only [List.length_append, List.length_cons, List.length_nil, List.length_map] at hcount
      omega
  · rw [if_neg hroot] at h
    by_cases horigin : origin.labels = []
    · rw [if_pos horigin] at h
      have hlabs : owner.labels.map lab = ps ++ [[]] := by
        rw [show ps ++ [[], []] = ps ++ [[]] ++ [[]] by simp] at h
        exact List.append_cancel_right h
      have hnil : [] ∈ owner.labels.map lab := by rw [hlabs]; simp
      exact absurd hnil (nil_not_mem_labs hp howner)
    · rw [if_neg horigin, ← List.append_assoc] at h
      obtain ⟨front, rest, howner, hfront, hrest⟩ :=
        List.map_eq_append_iff.mp (List.append_cancel_right h)
      exact ⟨front, rest, howner, hfront, hrest, horigin⟩

end

/-! ## Labels with escapes -/

/-- The text of a label, with a backslash before dots, backslashes and `@`. -/
def escapedLabel (l : Label) : Text :=
  l.flatMap fun b =>
    if b = 46 ∨ b = 92 ∨ b = 64 then ['\\', Char.ofNat b.toNat] else [Char.ofNat b.toNat]

/-- hickory, for names of printable characters. -/
def escapingHickory : Hickory :=
  { Hickory.knowing [] with toUtf8 := fun n => String.ofList (printed escapedLabel n) }

theorem escapedLabel_cons (b : UInt8) (l : Label) :
    escapedLabel (b :: l) =
      (if b = 46 ∨ b = 92 ∨ b = 64 then ['\\', Char.ofNat b.toNat] else [Char.ofNat b.toNat]) ++
        escapedLabel l := List.flatMap_cons

/-- An octet that is printed as it stands is neither a dot nor a backslash. -/
theorem plain_octet {b : UInt8} (h : ¬ (b = 46 ∨ b = 92 ∨ b = 64)) :
    Char.ofNat b.toNat ≠ '.' ∧ Char.ofNat b.toNat ≠ '\\' := by
  have hall : ∀ n : Fin 256, ¬ (UInt8.ofFin n = 46 ∨ UInt8.ofFin n = 92 ∨ UInt8.ofFin n = 64) →
      Char.ofNat n.val ≠ '.' ∧ Char.ofNat n.val ≠ '\\' := by decide +kernel
  exact hall b.toFin h

theorem cutDots_escapedLabel (l : Label) : cutDots (escapedLabel l) = some [escapedLabel l] := by
  unfold cutDots
  induction l with
  | nil => rfl
  | cons b l ih =>
    rw [escapedLabel_cons]
    split
    · show splitEsc '\\' '.' false ('\\' :: Char.ofNat b.toNat :: escapedLabel l) = _
      rw [splitEsc_cons (by decide), splitEsc_cons fun h => absurd h.1 (by decide)]
      show ((splitEsc '\\' '.' false (escapedLabel l)).map _).map _ = _
      rw [ih]
      rfl
    · rename_i hb
      obtain ⟨hdot, hslash⟩ := plain_octet hb
      show splitEsc '\\' '.' false (Char.ofNat b.toNat :: escapedLabel l) = _
      have hstate : (!false && decide (Char.ofNat b.toNat = '\\')) = false := by simp [hslash]
      rw [splitEsc_cons (fun h => hdot h.2), hstate, ih]
      rfl

theorem escapingHickory_prints : PrintsNames escapingHickory escapedLabel := by
  refine ⟨fun n => String.toList_ofList, fun l _ => cutDots_escapedLabel l, ?_, ?_⟩
  · intro l hl
    obtain ⟨b, l, rfl⟩ := List.exists_cons_of_ne_nil hl
    rw [escapedLabel_cons]
    split <;> simp
  · intro l hletters
    induction l with
    | nil => rfl
    | cons b l ih =>
      obtain ⟨hb, hl⟩ := List.forall_mem_cons.mp hletters
      have hall : ∀ n : Fin 256, isLetter (UInt8.ofFin n) = true →
          ¬ (UInt8.ofFin n = 46 ∨ UInt8.ofFin n = 92 ∨ UInt8.ofFin n = 64) := by decide +kernel
      have hnot : ¬ (b = 46 ∨ b = 92 ∨ b = 64) := hall b.toFin hb
      rw [escapedLabel_cons, if_neg hnot, ih hl]
      rfl

end Heimdallr.Zone
