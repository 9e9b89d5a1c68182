import Heimdallr.Zone.Load
import Mathlib.Data.List.DropRight

/-!
# The key files of different zones (`core/dnssec/keygen.rs`)

The file of a zone's key is named after the zone, with underscores for the dots and without those at
the end. An underscore is an ordinary character of a zone's name.

* `Confusable` is about the two names alone: up to dots and underscores at their ends they have the
  same length, and differ only where one has a dot and the other an underscore.
* Paths are compared as texts, so the case of letters counts.

Results:
* `safeName_eq_iff`: the names of zones that end up as one file name.
* `resolveKeyPath_spec`: the path, and the files that stay as they are.
* **`keysApart_iff`**: when two zones have each a key of their own.
-/

namespace Heimdallr.Zone

open Heimdallr.Lib Heimdallr.Net

/-! ## File names -/

/-- `replace('.', "_")`, for one character. -/
def underscored (c : Char) : Char := if c = '.' then '_' else c

/-- `safe_name`. -/
def safeName (zoneName : Text) : Text := (zoneName.map underscored).rdropWhile (· = '_')

theorem keyPathForZone_eq (zoneName : String) (keysDir : Text) (algorithm : String) :
    keyPathForZone zoneName keysDir algorithm =
      resolveZonePath (safeName zoneName.toList ++ '.' :: (algorithm.toList ++ ".key".toList))
        keysDir := by
  show resolveZonePath (safeName zoneName.toList ++ '.' :: algorithm.toList ++ _) keysDir = _
  rw [List.append_assoc]
  rfl

/-- The characters that stand as an underscore in a file name. -/
def separators : List Char := ['.', '_']

/-- The same characters, whichever of the two the separators are. -/
def SameShape (s t : Text) : Prop :=
  List.Forall₂ (fun c d => c = d ∨ c ∈ separators ∧ d ∈ separators) s t

/-- The same shape, up to separators at the end. -/
def Confusable (s t : Text) : Prop :=
  ∃ u x v y, s = u ++ x ∧ t = v ++ y ∧ (∀ c ∈ x, c ∈ separators) ∧ (∀ c ∈ y, c ∈ separators) ∧
    SameShape u v

theorem underscored_eq_underscore {c : Char} : underscored c = '_' ↔ c ∈ separators := by
  unfold underscored separators
  by_cases hc : c = '.'
  · simp [hc]
  · simp [hc]

theorem underscored_eq_iff {c d : Char} :
    underscored c = underscored d ↔ c = d ∨ c ∈ separators ∧ d ∈ separators := by
  constructor
  · intro h
    by_cases hc : c ∈ separators
    · rw [underscored_eq_underscore.mpr hc] at h
      exact .inr ⟨hc, underscored_eq_underscore.mp h.symm⟩
    · have hd : d ∉ separators := by
        intro hd
        rw [underscored_eq_underscore.mpr hd] at h
        exact hc (underscored_eq_underscore.mp h)
      have hdot : ∀ e ∉ separators, underscored e = e := by
        intro e he
        exact if_neg (by rintro rfl; exact he (by decide))
      rw [hdot c hc, hdot d hd] at h
      exact .inl h
  · rintro (rfl | ⟨hc, hd⟩)
    · rfl
    · rw [underscored_eq_underscore.mpr hc, underscored_eq_underscore.mpr hd]

theorem sameShape_iff {s t : Text} : SameShape s t ↔ s.map underscored = t.map underscored := by
  rw [← List.forall₂_eq_eq_eq, List.forall₂_map_left_iff, List.forall₂_map_right_iff]
  unfold SameShape
  simp only [underscored_eq_iff]

/-- A name is its file name and separators, if a separator is an underscore. -/
theorem safeName_spec (s : Text) :
    ∃ u x, s = u ++ x ∧ u.map underscored = safeName s ∧ ∀ c ∈ x, c ∈ separators := by
  have happend : s.map underscored =
      safeName s ++ (s.map underscored).rtakeWhile (· = '_') :=
    List.rdropWhile_append_rtakeWhile.symm
  obtain ⟨u, x, rfl, hu, hx⟩ := List.map_eq_append_iff.mp happend
  refine ⟨u, x, rfl, hu, ?_⟩
  intro c hc
  have hmem : underscored c ∈ ((u ++ x).map underscored).rtakeWhile (· = '_') := by
    rw [← hx]
    exact List.mem_map_of_mem hc
  have hunderscore := List.mem_rtakeWhile_imp hmem
  exact underscored_eq_underscore.mp (of_decide_eq_true hunderscore)

theorem safeName_append {u x : Text} (hx : ∀ c ∈ x, c ∈ separators) :
    safeName (u ++ x) = safeName u := by
  unfold safeName
  rw [List.map_append, List.rdropWhile, List.reverse_append, List.dropWhile_append_of_pos]
  · rfl
  · intro c hc
    obtain ⟨d, hd, rfl⟩ := List.mem_map.mp (List.mem_reverse.mp hc)
    exact decide_eq_true (underscored_eq_underscore.mpr (hx d hd))

theorem safeName_eq_iff {s t : Text} : safeName s = safeName t ↔ Confusable s t := by
  constructor
  · intro h
    obtain ⟨u, x, hs, hu, hx⟩ := safeName_spec s
    obtain ⟨v, y, ht, hv, hy⟩ := safeName_spec t
    exact ⟨u, x, v, y, hs, ht, hx, hy, sameShape_iff.mpr (by rw [hu, hv, h])⟩
  · rintro ⟨u, x, v, y, rfl, rfl, hx, hy, huv⟩
    rw [safeName_append hx, safeName_append hy, safeName, safeName, sameShape_iff.mp huv]

/-! ## Paths -/

theorem resolveZonePath_inj {f g dir : Text} (hf : f.head? ≠ some '/') (hg : g.head? ≠ some '/') :
    resolveZonePath f dir = resolveZonePath g dir ↔ f = g := by
  unfold resolveZonePath
  rw [if_neg hf, if_neg hg]
  split
  · exact List.append_cancel_left_eq dir f g ▸ Iff.rfl
  · simp

/-- A file name begins with a slash only if the zone's name has one. -/
theorem head_safeName {s rest : Text} (h : '/' ∉ s) :
    (safeName s ++ '.' :: rest).head? ≠ some '/' := by
  intro hhead
  have hmem : '/' ∈ safeName s ++ '.' :: rest := List.mem_of_head? hhead
  cases hs : safeName s with
  | nil =>
    rw [hs] at hhead
    exact absurd (Option.some.inj hhead) (by decide)
  | cons c cs =>
    rw [hs] at hhead
    obtain rfl : c = '/' := Option.some.inj hhead
    have hsafe : '/' ∈ safeName s := by rw [hs]; exact List.mem_cons_self
    obtain ⟨d, hd, hslash⟩ := List.mem_map.mp ((List.rdropWhile_prefix _ _).subset hsafe)
    rcases underscored_eq_iff.mp (hslash.trans (show '/' = underscored '/' from rfl)) with
      rfl | ⟨-, hsep⟩
    · exact h hd
    · exact absurd hsep (by decide)

theorem keyPathForZone_eq_iff {a b : String} (ha : '/' ∉ a.toList) (hb : '/' ∉ b.toList)
    (keysDir : Text) (algorithm : String) :
    keyPathForZone a keysDir algorithm = keyPathForZone b keysDir algorithm ↔
      Confusable a.toList b.toList := by
  rw [keyPathForZone_eq, keyPathForZone_eq, resolveZonePath_inj (head_safeName ha) (head_safeName hb),
    List.append_cancel_right_eq, safeName_eq_iff]

/-! ## Two zones -/

/-- Without a configured key the path is that of the zone, and no other file changes. -/
theorem resolveKeyPath_spec {lib : SigningLib} {zoneName algorithm : String} {keysDir p : Text}
    {files files' : KeyFiles}
    (h : resolveKeyPath lib zoneName none algorithm keysDir files = .ok (p, files')) :
    p = keyPathForZone zoneName keysDir algorithm ∧ ∀ q ≠ p, files' q = files q := by
  unfold resolveKeyPath generateAndSaveKey at h
  obtain ⟨alg, -, h⟩ := bind_eq_ok h
  dsimp only at h
  split at h
  · obtain ⟨rfl, rfl⟩ := Prod.mk.inj (Except.ok.inj h)
    exact ⟨rfl, fun _ _ => rfl⟩
  · obtain ⟨-, -, h⟩ := bind_eq_ok h
    split at h
    · cases h
    · split at h
      · obtain ⟨-, -, h⟩ := bind_eq_ok h
        obtain ⟨rfl, rfl⟩ := Prod.mk.inj (Except.ok.inj h)
        exact ⟨rfl, fun q hq => Function.update_of_ne hq _ _⟩
      · cases h

/-- The names of two zones denote different domain names. -/
def DifferentDomains (hk : Hickory) (a b : String) : Prop :=
  ∃ na nb, hk.fromAscii a = some na ∧ hk.fromAscii b = some nb ∧
    na.toLowercase.labels ≠ nb.toLowercase.labels

/-- The path and the key files, from a zone to the next: the second zone has a path of its own, and
finds there what was there before the first. -/
structure KeysApart (files : KeyFiles) (first second : Text × KeyFiles) : Prop where
  paths : first.1 ≠ second.1
  untouched : first.2 second.1 = files second.1

/-- **When two zones have each a key of their own.** A slash is in no name hickory reads. -/
theorem keysApart_iff {hk : Hickory} (hslash : ∀ s n, hk.fromAscii s = some n → '/' ∉ s.toList)
    {lib : SigningLib} {a b algorithm : String} {keysDir : Text} {files : KeyFiles}
    {first second : Text × KeyFiles} (hdiff : DifferentDomains hk a b)
    (hfirst : resolveKeyPath lib a none algorithm keysDir files = .ok first)
    (hsecond : resolveKeyPath lib b none algorithm keysDir first.2 = .ok second) :
    KeysApart files first second ↔ ¬ Confusable a.toList b.toList := by
  obtain ⟨na, nb, ha, hb, -⟩ := hdiff
  obtain ⟨hp₁, hother⟩ := resolveKeyPath_spec hfirst
  obtain ⟨hp₂, -⟩ := resolveKeyPath_spec hsecond
  rw [← keyPathForZone_eq_iff (hslash a na ha) (hslash b nb hb) keysDir algorithm, ← hp₁, ← hp₂]
  constructor
  · exact KeysApart.paths
  · intro hne
    exact ⟨hne, hother second.1 (Ne.symm hne)⟩

/-- Names without a slash, and a file for every key. -/
def plainNames : Hickory :=
  { Hickory.knowing [] with
    fromAscii := fun s => if '/' ∈ s.toList then none else Name.ofText s }

/-- Keys are generated and written; the key of a path is the length of it. -/
def plainSigning : SigningLib where
  createDirAll _ := true
  write _ := true
  generatePkcs8 _ path := some [UInt8.ofNat path.length]
  fromPkcs8 _ _ := true
  addZoneSigningKey records _ := some records
  secureZone records := some records

theorem plainNames_slash (s : String) (n : Name) (h : plainNames.fromAscii s = some n) :
    '/' ∉ s.toList := by
  intro hslash
  rw [show plainNames.fromAscii s = none from if_pos hslash] at h
  cases h

/-- Its key is there when a zone has been loaded. -/
theorem plainSigning_ok (zoneName : String) (files : KeyFiles) :
    ∃ r, resolveKeyPath plainSigning zoneName none "ed25519" "keys".toList files = .ok r ∧
      (r.2 r.1).isSome = true := by
  have halg : algorithmFromStr "ed25519" = .ok .ED25519 := by simp [algorithmFromStr]
  unfold resolveKeyPath generateAndSaveKey
  rw [halg]
  generalize keyPathForZone zoneName "keys".toList "ed25519" = path
  cases hthere : (files path).isSome with
  | true => exact ⟨(path, files), if_pos hthere, hthere⟩
  | false =>
    have hnot : ¬ (files path).isSome = true := by rw [hthere]; decide
    have hself : ∀ key, (Function.update files path (some key) path).isSome = true := by
      intro key
      rw [Function.update_self]
      rfl
    exact ⟨(path, Function.update files path (some (some [UInt8.ofNat path.length]))), if_neg hnot,
      hself _⟩

theorem keysApart_two_zones :
    ∃ first second,
      resolveKeyPath plainSigning "a.test." none "ed25519" "keys".toList (fun _ => none) = .ok first ∧
      resolveKeyPath plainSigning "b.test." none "ed25519" "keys".toList first.2 = .ok second ∧
      KeysApart (fun _ => none) first second := by
  obtain ⟨first, hfirst, -⟩ := plainSigning_ok "a.test." fun _ => none
  obtain ⟨second, hsecond, -⟩ := plainSigning_ok "b.test." first.2
  have hdiff : DifferentDomains plainNames "a.test." "b.test." :=
    ⟨⟨[ascii "a", ascii "test"], true⟩, ⟨[ascii "b", ascii "test"], true⟩, by decide,
      by decide, by decide⟩
  have hshape : ¬ Confusable "a.test.".toList "b.test.".toList := by
    rw [← safeName_eq_iff]
    decide
  exact ⟨first, second, hfirst, hsecond,
    (keysApart_iff plainNames_slash hdiff hfirst hsecond).mpr hshape⟩

/-- The key of `a_b.test.` is taken for that of `a.b.test.`. -/
theorem key_reused :
    DifferentDomains plainNames "a_b.test." "a.b.test." ∧ ∃ first second,
      resolveKeyPath plainSigning "a_b.test." none "ed25519" "keys".toList (fun _ => none) =
        .ok first ∧
      resolveKeyPath plainSigning "a.b.test." none "ed25519" "keys".toList first.2 = .ok second ∧
      second.1 = first.1 ∧ (first.2 second.1).isSome = true ∧
      ¬ KeysApart (fun _ => none) first second := by
  refine ⟨⟨⟨[ascii "a_b", ascii "test"], true⟩, ⟨[ascii "a", ascii "b", ascii "test"], true⟩,
    by decide, by decide, by decide⟩, ?_⟩
  obtain ⟨first, hfirst, hkey⟩ := plainSigning_ok "a_b.test." fun _ => none
  obtain ⟨second, hsecond, -⟩ := plainSigning_ok "a.b.test." first.2
  have hpath : keyPathForZone "a.b.test." "keys".toList "ed25519" =
      keyPathForZone "a_b.test." "keys".toList "ed25519" := by decide
  have heq : second.1 = first.1 := by
    rw [(resolveKeyPath_spec hfirst).1, (resolveKeyPath_spec hsecond).1, hpath]
  exact ⟨first, second, hfirst, hsecond, heq, by rw [heq, hkey], fun h => h.paths heq.symm⟩

end Heimdallr.Zone
