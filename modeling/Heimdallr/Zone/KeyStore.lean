import Heimdallr.Lib.Check
import Heimdallr.Lib.Growth
import Heimdallr.Zone.KeyPaths
import Heimdallr.Zone.RecordEdits

/-!
# Signing keys over the starts of the server (`core/zone/mod.rs`, `core/dnssec/keygen.rs`)

`load_all` runs once in every start. A key is generated only where no file is, so the key files only
grow (`Lib.Growth`), whichever configurations the starts have and whether they fail or not. A
`std::fs::write` that fails may leave a file as well, with some of the bytes of the key or none.

* A `Start` is what the machine does in it, together with its configuration: which keys are
  generated, which writes fail, and what a failed write leaves at its path (`leftover`).
* The key files are what one start leaves for the next. `loadAll` keeps no manager when it fails, so
  `tryZone` is its round once more, with the key files for its error.
* `ComesTo` is that a start has gone through the zones before a given one. Nothing is said of a zone
  that a start does not come to.
* Zones that are spelled differently may share a file; the results hold for these too.

Results:
* `Start.after_grows`: what a start does to the key files.
* **`signer_settled`**: a zone keeps the signer of the start that signed it first.
* **`torn_key_stays`**: what is left of a key that could not be written ends every later start.
-/

namespace Heimdallr.Zone

open Heimdallr.Lib Heimdallr.Net

/-! ## Starts -/

/-- A start of the server: what the machine does in it, and its configuration. -/
structure Start where
  lib : ZoneLib
  signing : SigningLib
  disk : Disk
  cfg : Config
  /-- What a `std::fs::write` that fails leaves at a path. -/
  leftover : Text → Option (Option Bytes)

/-- `resolve_key_path`, as `load_primary` calls it. -/
def Start.resolve (start : Start) (zone : Config.ZoneConfig) (files : KeyFiles) :
    Except KeyError (Text × KeyFiles) :=
  resolveKeyPath start.signing zone.name zone.dnssecKey zone.dnssecAlgorithm
    start.cfg.dnssecKeys.keysDir.toList files

/-- The key files after it, also when it fails. -/
def Start.resolved (start : Start) (zone : Config.ZoneConfig) (files : KeyFiles) : KeyFiles :=
  match start.resolve zone files with
  | .ok r => r.2
  | .error (.WriteKey path) => Function.update files path (start.leftover path)
  | .error _ => files

/-- The signer of a zone. -/
def Start.signer (start : Start) (zone : Config.ZoneConfig) (files : KeyFiles) :
    Except LoadError Signer := do
  let r ← (start.resolve zone files).mapError (.ResolveKey zone.name)
  (loadSigner start.signing start.lib.toHickory r.1 zone.name zone.dnssecAlgorithm r.2).mapError
    (.LoadSigner zone.name)

/-- The key files a round of `load_all` leaves when it fails. -/
def Start.leaves (start : Start) (self : ZoneManager) (zone : Config.ZoneConfig) :
    LoadError → KeyFiles
  | .ResolveKey _ _ | .LoadSigner _ _ | .AddSigningKey _ | .SecureZone _ =>
    start.resolved zone self.keys
  | .RequiresFile _ | .LoadFailed _ _ | .InvalidZoneName => self.keys

/-- A round of `load_all`. -/
def Start.tryZone (start : Start) (self : ZoneManager) (zone : Config.ZoneConfig) :
    Except KeyFiles ZoneManager :=
  (self.loadZone start.lib start.signing start.disk start.cfg zone).mapError
    (start.leaves self zone)

theorem newManager_keys (files : KeyFiles) : (ZoneManager.new files).keys = files := rfl

/-- The key files after a start. -/
def Start.after (start : Start) (files : KeyFiles) : KeyFiles :=
  reached ZoneManager.keys id (start.cfg.zones.foldlM start.tryZone (.new files))

/-- The key files after some starts. -/
def afterStarts (starts : List Start) (files : KeyFiles) : KeyFiles :=
  starts.foldl (fun files start => start.after files) files

/-! ## Key files only grow -/

/-- What the resolution of a key comes to. -/
inductive Resolution (files : KeyFiles) (path : Text) : Except KeyError (Text × KeyFiles) → Prop
  | kept (hthere : (files path).isSome = true) : Resolution files path (.ok (path, files))
  | written (hnone : files path = none) (key : Bytes) :
    Resolution files path (.ok (path, Function.update files path (some (some key))))
  | torn (hnone : files path = none) : Resolution files path (.error (.WriteKey path))
  | failed (e : KeyError) (he : ∀ p, e ≠ .WriteKey p) : Resolution files path (.error e)

theorem generateAndSaveKey_cases (lib : SigningLib) (zoneName algorithm : String) (keysDir : Text)
    (files : KeyFiles) :
    Resolution files (keyPathForZone zoneName keysDir algorithm)
      (generateAndSaveKey lib zoneName algorithm keysDir files) := by
  unfold generateAndSaveKey
  cases halg : algorithmFromStr algorithm with
  | error e =>
    refine .failed e ?_
    unfold algorithmFromStr at halg
    split at halg <;> cases halg
    intro p hp
    cases hp
  | ok alg =>
    simp only [bind, Except.bind]
    by_cases hthere : (files (keyPathForZone zoneName keysDir algorithm)).isSome = true
    · rw [if_pos hthere]
      exact .kept hthere
    · have hnone := Option.not_isSome_iff_eq_none.mp hthere
      rw [if_neg hthere]
      by_cases hdir : lib.createDirAll keysDir = true
      · rw [ensure_eq_ok.mpr hdir]
        by_cases hrsa : alg = .RSASHA256
        · rw [if_pos hrsa]
          exact .failed _ (by simp)
        · rw [if_neg hrsa]
          cases hkey : lib.generatePkcs8 alg (keyPathForZone zoneName keysDir algorithm) with
          | none => exact .failed _ (by simp)
          | some key =>
            by_cases hwrite : lib.write (keyPathForZone zoneName keysDir algorithm) = true
            · rw [ensure_eq_ok.mpr hwrite]
              exact .written hnone key
            · rw [ensure_eq_error.mpr ⟨hwrite, rfl⟩]
              exact .torn hnone
      · rw [ensure_eq_error.mpr ⟨hdir, rfl⟩]
        exact .failed _ (by simp)

theorem Start.resolve_cases (start : Start) (zone : Config.ZoneConfig) (files : KeyFiles) :
    Resolution files (keyPath start.cfg zone) (start.resolve zone files) := by
  unfold Start.resolve resolveKeyPath keyPath
  cases zone.dnssecKey with
  | none => exact generateAndSaveKey_cases ..
  | some path =>
    show Resolution files path.toList
      (if (files path.toList).isSome = true then .ok (path.toList, files) else .error (.NotFound _))
    by_cases hthere : (files path.toList).isSome = true
    · rw [if_pos hthere]
      exact .kept hthere
    · rw [if_neg hthere]
      exact .failed _ (by simp)

section Grow

variable {start : Start} {zone : Config.ZoneConfig} {files : KeyFiles}

theorem Start.resolved_of_ok {r : Text × KeyFiles} (h : start.resolve zone files = .ok r) :
    start.resolved zone files = r.2 := by
  unfold Start.resolved
  rw [h]

theorem Start.resolved_of_torn {path : Text}
    (h : start.resolve zone files = .error (.WriteKey path)) :
    start.resolved zone files = Function.update files path (start.leftover path) := by
  unfold Start.resolved
  rw [h]

theorem Start.resolved_grows (start : Start) (zone : Config.ZoneConfig) (files : KeyFiles) :
    Grows files (start.resolved zone files) := by
  have hcases := start.resolve_cases zone files
  unfold Start.resolved
  cases hres : start.resolve zone files with
  | ok r =>
    rw [hres] at hcases
    cases hcases with
    | kept hthere => exact .refl files
    | written hnone key => exact grows_update hnone _
  | error e =>
    rw [hres] at hcases
    cases hcases with
    | torn hnone => exact grows_update hnone _
    | failed e he =>
      cases e with
      | WriteKey path => exact absurd rfl (he path)
      | UnsupportedAlgorithm | CreateDir | Generate | RsaGeneration | NotFound | ReadKey | LoadKey
      | InvalidZoneName => exact .refl files

/-- A zone that is signed has a signer. -/
theorem signZone_eq_ok {authority : Records} {r : Records × KeyFiles}
    (h : signZone start.lib start.signing start.cfg zone authority files = .ok r) :
    (∃ signer, start.signer zone files = .ok signer) ∧ r.2 = start.resolved zone files := by
  unfold signZone at h
  obtain ⟨⟨path, files'⟩, hres, h⟩ := bind_eq_ok h
  obtain ⟨signer, hsigner, h⟩ := bind_eq_ok h
  refine ⟨⟨signer, ?_⟩, ?_⟩
  · unfold Start.signer
    rw [show start.resolve zone files = .ok (path, files') from mapError_eq_ok.mp hres]
    exact hsigner
  · rw [start.resolved_of_ok (mapError_eq_ok.mp hres)]
    split at h
    · split at h
      · obtain rfl := Except.ok.inj h
        rfl
      · cases h
    · cases h

/-- A primary that is loaded and asks for it is signed. -/
theorem loadPrimary_eq_ok {self self' : ZoneManager}
    (h : self.loadPrimary start.lib start.signing start.disk start.cfg zone = .ok self') :
    (zone.dnssecSigning = true → (∃ signer, start.signer zone self.keys = .ok signer) ∧
        self'.keys = start.resolved zone self.keys) ∧
      (zone.dnssecSigning = false → self'.keys = self.keys) := by
  unfold ZoneManager.loadPrimary at h
  split at h
  · obtain ⟨authority, -, h⟩ := bind_eq_ok h
    split at h
    · dsimp only at h
      cases hsigning : zone.dnssecSigning with
      | true =>
        rw [hsigning, if_pos rfl] at h
        obtain ⟨⟨authority', files'⟩, hsigned, h⟩ := bind_eq_ok h
        obtain rfl := Except.ok.inj h
        exact ⟨fun _ => signZone_eq_ok hsigned, by simp⟩
      | false =>
        rw [hsigning, if_neg (by decide)] at h
        obtain rfl := Except.ok.inj h
        exact ⟨by simp, fun _ => rfl⟩
    · cases h
  · cases h

/-- A key that could not be resolved ends the signing. -/
theorem signZone_eq_error {authority : Records} {e : KeyError}
    (h : signZone start.lib start.signing start.cfg zone authority files =
      .error (.ResolveKey zone.name e)) : start.resolve zone files = .error e := by
  unfold signZone at h
  rcases bind_eq_error h with hres | ⟨⟨path, files'⟩, -, h⟩
  · obtain ⟨e', hkey, he⟩ := mapError_eq_error.mp hres
    obtain ⟨-, rfl⟩ := LoadError.ResolveKey.inj he
    exact hkey
  · rcases bind_eq_error h with hsigner | ⟨signer, -, h⟩
    · obtain ⟨e', -, he⟩ := mapError_eq_error.mp hsigner
      cases he
    · split at h
      · split at h
        · cases h
        · cases h
      · cases h

theorem loadPrimary_eq_error {self : ZoneManager} {e : KeyError}
    (h : self.loadPrimary start.lib start.signing start.disk start.cfg zone =
      .error (.ResolveKey zone.name e)) : start.resolve zone self.keys = .error e := by
  unfold ZoneManager.loadPrimary at h
  split at h
  · rcases bind_eq_error h with hfile | ⟨authority, -, h⟩
    · obtain ⟨e', -, he⟩ := mapError_eq_error.mp hfile
      cases he
    · split at h
      · dsimp only at h
        cases hsigning : zone.dnssecSigning with
        | true =>
          rw [hsigning, if_pos rfl] at h
          rcases bind_eq_error h with hsign | ⟨r, -, h⟩
          · exact signZone_eq_error hsign
          · cases h
        | false =>
          rw [hsigning, if_neg (by decide)] at h
          cases h
      · cases h
  · cases h

/-- **One round** of `load_all` lets the key files grow, also when it fails. -/
theorem Start.tryZone_grows (start : Start) (self : ZoneManager) (zone : Config.ZoneConfig) :
    Grows self.keys (reached ZoneManager.keys id (start.tryZone self zone)) := by
  unfold Start.tryZone
  cases hload : self.loadZone start.lib start.signing start.disk start.cfg zone with
  | error e =>
    show Grows self.keys (start.leaves self zone e)
    cases e with
    | ResolveKey | LoadSigner | AddSigningKey | SecureZone =>
      exact start.resolved_grows zone self.keys
    | RequiresFile | LoadFailed | InvalidZoneName => exact .refl self.keys
  | ok self' =>
    show Grows self.keys self'.keys
    unfold ZoneManager.loadZone at hload
    split at hload
    · obtain ⟨hsigned, hplain⟩ := loadPrimary_eq_ok hload
      cases hsigning : zone.dnssecSigning with
      | true =>
        rw [(hsigned hsigning).2]
        exact start.resolved_grows zone self.keys
      | false =>
        rw [hplain hsigning]
        exact .refl self.keys
    all_goals
      obtain rfl := Except.ok.inj hload
      exact .refl self.keys

/-- **One start.** -/
theorem Start.after_grows (start : Start) (files : KeyFiles) : Grows files (start.after files) :=
  foldlM_grows start.tryZone_grows start.cfg.zones (.new files)

theorem afterStarts_grows (starts : List Start) (files : KeyFiles) :
    Grows files (afterStarts starts files) :=
  foldl_grows (fun files start => start.after_grows files) starts files

end Grow

/-! ## A zone and its key -/

/-- Two starts look for the keys in one place, and read a zone and its key the same way. -/
structure Start.SameKeys (start start' : Start) (zone : Config.ZoneConfig) : Prop where
  keysDir : start'.cfg.dnssecKeys.keysDir = start.cfg.dnssecKeys.keysDir
  fromPkcs8 : start'.signing.fromPkcs8 = start.signing.fromPkcs8
  fromAscii : start'.lib.fromAscii zone.name = start.lib.fromAscii zone.name

section Settled

variable {start start' : Start} {zone : Config.ZoneConfig} {files files' : KeyFiles}

theorem Start.SameKeys.keyPath_eq (h : start.SameKeys start' zone) :
    keyPath start'.cfg zone = keyPath start.cfg zone := by
  unfold keyPath
  rw [h.keysDir]

/-- A key that is there is resolved to its path, as it is. -/
theorem Start.resolve_there (hthere : (files (keyPath start.cfg zone)).isSome = true)
    (halg : zone.dnssecAlgorithm ∈ Config.dnssecAlgorithms) :
    start.resolve zone files = .ok (keyPath start.cfg zone, files) :=
  resolveKeyPath_ok hthere halg

/-- `load_signer` reads one file. -/
theorem loadSigner_file {lib : SigningLib} {hk : Hickory} {path : Text} {zoneName algorithm : String}
    {content : Option Bytes} (hfile : files path = some content) :
    loadSigner lib hk path zoneName algorithm files =
      loadSigner lib hk path zoneName algorithm fun _ => some content := by
  unfold loadSigner
  rw [hfile]

/-- A signer is made of a key that was read, and that is one. -/
theorem loadSigner_eq_ok {lib : SigningLib} {hk : Hickory} {path : Text}
    {zoneName algorithm : String} {signer : Signer}
    (h : loadSigner lib hk path zoneName algorithm files = .ok signer) :
    ∃ alg key, algorithmFromStr algorithm = .ok alg ∧ (files path).join = some key ∧
      lib.fromPkcs8 alg key = true := by
  unfold loadSigner at h
  obtain ⟨alg, halg, h⟩ := bind_eq_ok h
  split at h
  · rename_i key hkey
    obtain ⟨u, hloads, -⟩ := bind_eq_ok h
    exact ⟨alg, key, halg, hkey, ensure_eq_ok.mp hloads⟩
  · cases h

/-- Once the key is there, the signer depends on the content of its file. -/
theorem Start.signer_there (halg : zone.dnssecAlgorithm ∈ Config.dnssecAlgorithms)
    {content : Option Bytes} (hfile : files (keyPath start.cfg zone) = some content) :
    start.signer zone files =
      (loadSigner start.signing start.lib.toHickory (keyPath start.cfg zone) zone.name
        zone.dnssecAlgorithm fun _ => some content).mapError (.LoadSigner zone.name) := by
  have hthere : (files (keyPath start.cfg zone)).isSome = true := by
    rw [hfile]
    rfl
  unfold Start.signer
  rw [Start.resolve_there hthere halg, ← loadSigner_file hfile]
  rfl

/-- Two starts find the same signer in the same file. -/
theorem Start.signer_same (hsame : start.SameKeys start' zone)
    (halg : zone.dnssecAlgorithm ∈ Config.dnssecAlgorithms) {content : Option Bytes}
    (hfile : files (keyPath start.cfg zone) = some content)
    (hfile' : files' (keyPath start.cfg zone) = some content) :
    start'.signer zone files' = start.signer zone files := by
  rw [Start.signer_there halg hfile, Start.signer_there halg (by rw [hsame.keyPath_eq, hfile']),
    hsame.keyPath_eq]
  unfold loadSigner
  rw [hsame.fromPkcs8, hsame.fromAscii]

theorem Resolution.there {path : Text} {r : Text × KeyFiles} (h : Resolution files path (.ok r)) :
    r.1 = path ∧ ∃ content, r.2 path = some content := by
  cases h with
  | kept hthere => exact ⟨rfl, Option.isSome_iff_exists.mp hthere⟩
  | written hnone key => exact ⟨rfl, some key, Function.update_self path _ files⟩

theorem Resolution.of_torn {path path' : Text}
    (h : Resolution files path (.error (.WriteKey path'))) : path' = path ∧ files path = none := by
  cases h with
  | torn hnone => exact ⟨rfl, hnone⟩
  | failed e he => exact absurd rfl (he path')

/-- A signer comes from the file that the resolution leaves. -/
theorem Start.signer_eq_ok {signer : Signer} (h : start.signer zone files = .ok signer) :
    zone.dnssecAlgorithm ∈ Config.dnssecAlgorithms ∧
      ∃ content, start.resolved zone files (keyPath start.cfg zone) = some content ∧
        start.signer zone (start.resolved zone files) = .ok signer := by
  unfold Start.signer at h
  obtain ⟨⟨path, files'⟩, hres, hload⟩ := bind_eq_ok h
  have hres := mapError_eq_ok.mp hres
  obtain ⟨alg, key, halg, -, -⟩ := loadSigner_eq_ok (mapError_eq_ok.mp hload)
  have halg := algorithmFromStr_isOk.mp ⟨alg, halg⟩
  have hcases := start.resolve_cases zone files
  rw [hres] at hcases
  obtain ⟨rfl, content, hfile⟩ := hcases.there
  rw [start.resolved_of_ok hres]
  refine ⟨halg, content, hfile, ?_⟩
  rw [Start.signer_there halg hfile, ← loadSigner_file hfile]
  exact hload

/-! ## Coming to a zone -/

/-- The rounds before that of a zone have gone through, and came to `self`. -/
def Start.ComesTo (start : Start) (files : KeyFiles) (zone : Config.ZoneConfig)
    (self : ZoneManager) : Prop :=
  ∃ earlier rest, start.cfg.zones = earlier ++ zone :: rest ∧
    earlier.foldlM start.tryZone (.new files) = .ok self

variable {self : ZoneManager}

theorem Start.ComesTo.grows (h : start.ComesTo files zone self) : Grows files self.keys := by
  obtain ⟨earlier, -, -, hearlier⟩ := h
  have hgrows := foldlM_grows start.tryZone_grows earlier (.new files)
  rw [hearlier] at hgrows
  exact hgrows

/-- What a round leaves is there when the start is over. -/
theorem Start.ComesTo.after (h : start.ComesTo files zone self) :
    Grows (reached ZoneManager.keys id (start.tryZone self zone)) (start.after files) := by
  obtain ⟨earlier, rest, hzones, hearlier⟩ := h
  unfold Start.after
  rw [hzones, List.foldlM_append, hearlier]
  show Grows _ (reached ZoneManager.keys id ((zone :: rest).foldlM start.tryZone self))
  rw [List.foldlM_cons]
  cases start.tryZone self zone with
  | error e => exact .refl _
  | ok self' => exact foldlM_grows start.tryZone_grows rest self'

/-- A start that goes through has come to each of its zones, and loaded it. -/
theorem Start.comesTo_of_loadAll {manager : ZoneManager}
    (h : loadAll start.lib start.signing start.disk start.cfg files = .ok manager)
    (hzone : zone ∈ start.cfg.zones) :
    ∃ self self', start.ComesTo files zone self ∧
      self.loadZone start.lib start.signing start.disk start.cfg zone = .ok self' := by
  obtain ⟨earlier, rest, hzones⟩ := List.append_of_mem hzone
  unfold loadAll at h
  rw [hzones, List.foldlM_append] at h
  obtain ⟨self, hearlier, h⟩ := bind_eq_ok h
  rw [List.foldlM_cons] at h
  obtain ⟨self', hround, -⟩ := bind_eq_ok h
  exact ⟨self, self', ⟨earlier, rest, hzones, foldlM_mapError start.leaves hearlier⟩, hround⟩

theorem loadZone_primary (hkind : zone.kind = "primary") :
    self.loadZone start.lib start.signing start.disk start.cfg zone =
      self.loadPrimary start.lib start.signing start.disk start.cfg zone := by
  unfold ZoneManager.loadZone
  rw [hkind]
  rfl

/-- What is in the key files after a round is there when a later start comes to a zone. -/
theorem grows_to_later {starts : List Start} {later : Start} {zone' : Config.ZoneConfig}
    {self' : ZoneManager} (hfirst : start.ComesTo files zone self)
    (hlater : later.ComesTo (afterStarts (start :: starts) files) zone' self') :
    Grows (reached ZoneManager.keys id (start.tryZone self zone)) self'.keys :=
  (hfirst.after.trans (afterStarts_grows starts (start.after files))).trans hlater.grows

/-- **A zone keeps its signer.** A start has signed a zone. Whatever starts come after it, one that
looks for the key in the same place finds the same signer when it comes to the zone. -/
theorem signer_settled {self' : ZoneManager} (hkind : zone.kind = "primary")
    (hsigning : zone.dnssecSigning = true) (hfirst : start.ComesTo files zone self)
    (hloaded : self.loadZone start.lib start.signing start.disk start.cfg zone = .ok self') :
    ∃ signer, start.signer zone self.keys = .ok signer ∧
      ∀ (starts : List Start) (later : Start) (manager : ZoneManager),
        start.SameKeys later zone →
        later.ComesTo (afterStarts (start :: starts) files) zone manager →
        later.signer zone manager.keys = .ok signer := by
  have hround : start.tryZone self zone = .ok self' := mapError_eq_ok.mpr hloaded
  rw [loadZone_primary hkind] at hloaded
  obtain ⟨⟨signer, hsigner⟩, hkeys⟩ := (loadPrimary_eq_ok hloaded).1 hsigning
  obtain ⟨halg, content, hfile, hagain⟩ := Start.signer_eq_ok hsigner
  refine ⟨signer, hsigner, ?_⟩
  intro starts later manager hsame hlater
  have hgrows := grows_to_later hfirst hlater
  rw [hround] at hgrows
  replace hgrows : Grows self'.keys manager.keys := hgrows
  rw [hkeys] at hgrows
  have hthere : manager.keys (keyPath start.cfg zone) = some content := hgrows _ content hfile
  rw [Start.signer_same hsame halg hfile hthere, hagain]

/-- The zone of the examples, signed. -/
def signedZone : Config.ZoneConfig :=
  { sampleConfig with kind := "primary", dnssecSigning := true, dnssecAlgorithm := "ed25519" }

/-- A start with that zone. -/
def signedStart : Start where
  lib := sampleLib
  signing := plainSigning
  disk := sampleDisk sampleZone
  cfg := { zones := [signedZone] }
  leftover _ := none

/-- A start that cannot write the key, and leaves an empty file. -/
def tornStart : Start :=
  { signedStart with
    signing := { plainSigning with write := fun _ => false, fromPkcs8 := fun _ key => !key.isEmpty }
    leftover := fun _ => some (some []) }

theorem signedStart_comesTo (files : KeyFiles) :
    signedStart.ComesTo files signedZone (.new files) := ⟨[], [], rfl, rfl⟩

theorem signer_settled_example :
    ∃ signer, signedStart.signer signedZone (fun _ => none) = .ok signer ∧
      ∀ starts : List Start, signedStart.signer signedZone
        (afterStarts (signedStart :: starts) fun _ => none) = .ok signer := by
  have hloads : ((ZoneManager.new fun _ => none).loadZone signedStart.lib signedStart.signing
      signedStart.disk signedStart.cfg signedZone).toOption.isSome = true := by
    decide
  cases hround : (ZoneManager.new fun _ => none).loadZone signedStart.lib signedStart.signing
      signedStart.disk signedStart.cfg signedZone with
  | error e =>
    rw [hround] at hloads
    cases hloads
  | ok self' =>
    obtain ⟨signer, hsigner, hlater⟩ :=
      signer_settled rfl rfl (signedStart_comesTo fun _ => none) hround
    refine ⟨signer, hsigner, ?_⟩
    intro starts
    have hsame : signedStart.SameKeys signedStart signedZone := ⟨rfl, rfl, rfl⟩
    have hsigner' := hlater starts signedStart _ hsame (signedStart_comesTo _)
    rwa [newManager_keys] at hsigner'

/-- **A torn key stays.** A start could not write the key of a zone, and something that is no key was
left at its path. Then no later start that looks for the key there goes through with the zone. -/
theorem torn_key_stays {path : Text} {content : Option Bytes} (hkind : zone.kind = "primary")
    (hsigning : zone.dnssecSigning = true) (hfirst : start.ComesTo files zone self)
    (htorn : self.loadZone start.lib start.signing start.disk start.cfg zone =
      .error (.ResolveKey zone.name (.WriteKey path)))
    (hleft : start.leftover path = some content)
    (hbad : ∀ alg key, content = some key → start.signing.fromPkcs8 alg key = false)
    (starts : List Start) {later : Start} (hsame : start.SameKeys later zone)
    (hzone : zone ∈ later.cfg.zones) (manager : ZoneManager) :
    loadAll later.lib later.signing later.disk later.cfg (afterStarts (start :: starts) files) ≠
      .ok manager := by
  intro hloaded
  obtain ⟨self₁, self₂, hlater, hround⟩ := Start.comesTo_of_loadAll hloaded hzone
  rw [loadZone_primary hkind] at hround
  obtain ⟨⟨signer, hsigner⟩, -⟩ := (loadPrimary_eq_ok hround).1 hsigning
  obtain ⟨halg, -⟩ := Start.signer_eq_ok hsigner
  have hkey := htorn
  rw [loadZone_primary hkind] at hkey
  have hresolve := loadPrimary_eq_error hkey
  obtain ⟨rfl, -⟩ := Resolution.of_torn (hresolve ▸ start.resolve_cases zone self.keys)
  -- what was left is found by the later start, and read as the key
  have hgrows := grows_to_later hfirst hlater
  have hround : start.tryZone self zone = .error (start.resolved zone self.keys) := by
    unfold Start.tryZone
    rw [htorn]
    rfl
  rw [hround] at hgrows
  replace hgrows : Grows (start.resolved zone self.keys) self₁.keys := hgrows
  rw [start.resolved_of_torn hresolve] at hgrows
  have hthere : self₁.keys (keyPath start.cfg zone) = some content :=
    hgrows _ content (by rw [Function.update_self, hleft])
  rw [← hsame.keyPath_eq] at hthere
  rw [Start.signer_there halg hthere] at hsigner
  obtain ⟨alg, key, -, hcontent, hloads⟩ := loadSigner_eq_ok (mapError_eq_ok.mp hsigner)
  rw [hsame.fromPkcs8, hbad alg key hcontent] at hloads
  cases hloads

theorem torn_key_stays_example :
    ¬ ∃ (starts : List Start) (manager : ZoneManager),
      loadAll tornStart.lib tornStart.signing tornStart.disk tornStart.cfg
        (afterStarts (tornStart :: starts) fun _ => none) = .ok manager := by
  rintro ⟨starts, manager, hloaded⟩
  have hfails : ((ZoneManager.new fun _ => none).loadZone tornStart.lib tornStart.signing
      tornStart.disk tornStart.cfg signedZone).map (fun _ => ()) =
        .error (.ResolveKey "example.com." (.WriteKey (keyPath tornStart.cfg signedZone))) := by
    decide
  cases hround : (ZoneManager.new fun _ => none).loadZone tornStart.lib tornStart.signing
      tornStart.disk tornStart.cfg signedZone with
  | error e =>
    rw [hround] at hfails
    obtain rfl := Except.error.inj hfails
    have hleft : tornStart.leftover (keyPath tornStart.cfg signedZone) = some (some []) := rfl
    have hbad : ∀ alg key, some [] = some key → tornStart.signing.fromPkcs8 alg key = false := by
      rintro alg key hkey
      obtain rfl := Option.some.inj hkey
      rfl
    exact torn_key_stays rfl rfl ⟨[], [], rfl, rfl⟩ hround hleft hbad starts ⟨rfl, rfl, rfl⟩
      List.mem_cons_self manager hloaded
  | ok self' =>
    rw [hround] at hfails
    cases hfails

end Settled

end Heimdallr.Zone
