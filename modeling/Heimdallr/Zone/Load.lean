import Heimdallr.Config
import Heimdallr.Zone.Secondary

/-!
# Loading the zones of a configuration (`core/zone/mod.rs`, `core/dnssec/keygen.rs`)

`ZoneManager::load_all` goes through the zones in the order of the configuration. The kind of a zone
chooses the branch: a primary is read from its file and signed if it asks for it, a secondary and a
catalog zone are handed to a task in the background, three kinds are only noted, and a zone of any
other kind is skipped. The first primary that cannot be loaded ends the start of the server.

* hickory's handlers and ring's keys stay parameters (`ZoneLib`, `SigningLib`).
* `loadAll` is a fold in `Except` over the zones. Its state is the manager, with the key files as
  one of its fields: a key that was generated for one zone is there for the next.
* Zone files and key files are kept apart (`Disk`, `KeyFiles`). The first are only read here.
* A task that is spawned is noted with its zone and primaries (`SyncTask`). What it does is in
  `Zone.CatalogSync`.

Results:
* `loadZone_ok`: what a zone needs to be loaded.
* `loadAll_ok`: when every zone has it, the zones are loaded and none is skipped.
-/

namespace Heimdallr.Zone

open Heimdallr.Lib Heimdallr.Net

/-! ## Signing keys -/

/-- `hickory_proto::dnssec::Algorithm`, as far as `algorithm_from_str` yields it. -/
inductive Algorithm
  | ECDSAP256SHA256
  | ECDSAP384SHA384
  | ED25519
  | RSASHA256
  deriving DecidableEq, Repr

/-- The errors of `core/dnssec/keygen.rs`. -/
inductive KeyError
  /-- `unsupported DNSSEC algorithm: {other}` -/
  | UnsupportedAlgorithm (other : String)
  /-- `create keys dir {keys_dir}` -/
  | CreateDir (keysDir : Text)
  /-- `generate ECDSA key`, `generate Ed25519 key` -/
  | Generate (alg : Algorithm)
  /-- `RSA key generation not supported by ring — import a PKCS#8 key via dnssec_key config` -/
  | RsaGeneration
  /-- `write key to {}` -/
  | WriteKey (path : Text)
  /-- `dnssec_key not found: {}` -/
  | NotFound (path : Text)
  /-- `read key file {}` -/
  | ReadKey (path : Text)
  /-- `load ECDSA key`, `load Ed25519 key`, `load RSA key`, `extract public key` -/
  | LoadKey (alg : Algorithm)
  /-- `invalid zone name '{zone_name}'` -/
  | InvalidZoneName (zoneName : String)
  deriving DecidableEq, Repr

/-- The key files by path. A file that cannot be read has no content. -/
abbrev KeyFiles := Text → Option (Option Bytes)

/-- `DnssecSigner`. -/
structure Signer where
  key : Bytes
  algorithm : Algorithm
  origin : Name
  deriving DecidableEq, Repr

/-- What the file system, ring and hickory do for the signing of a zone. -/
structure SigningLib where
  /-- `std::fs::create_dir_all` -/
  createDirAll : Text → Bool
  /-- `std::fs::write` -/
  write : Text → Bool
  /-- `generate_pkcs8`: the key that goes into the file at a path -/
  generatePkcs8 : Algorithm → Text → Option Bytes
  /-- `from_pkcs8` and `to_public_key` -/
  fromPkcs8 : Algorithm → Bytes → Bool
  /-- `add_zone_signing_key` -/
  addZoneSigningKey : Records → Signer → Option Records
  /-- `secure_zone` -/
  secureZone : Records → Option Records

/-- `algorithm_from_str`. -/
def algorithmFromStr (s : String) : Except KeyError Algorithm :=
  match s with
  | "ecdsa-p256" => .ok .ECDSAP256SHA256
  | "ecdsa-p384" => .ok .ECDSAP384SHA384
  | "ed25519" => .ok .ED25519
  | "rsa-sha256" => .ok .RSASHA256
  | other => .error (.UnsupportedAlgorithm other)

/-- `key_path_for_zone`. -/
def keyPathForZone (zoneName : String) (keysDir : Text) (algorithm : String) : Text :=
  let underscored := zoneName.toList.map fun c => if c = '.' then '_' else c
  let safeName := (underscored.reverse.dropWhile (· = '_')).reverse
  resolveZonePath (safeName ++ '.' :: algorithm.toList ++ ".key".toList) keysDir

section Keys

variable (lib : SigningLib)

/-- `generate_and_save_key`: a key that is there is kept. -/
def generateAndSaveKey (zoneName algorithm : String) (keysDir : Text) (files : KeyFiles) :
    Except KeyError (Text × KeyFiles) := do
  let alg ← algorithmFromStr algorithm
  let keyPath := keyPathForZone zoneName keysDir algorithm
  if (files keyPath).isSome then return (keyPath, files)
  ensure (lib.createDirAll keysDir = true) (.CreateDir keysDir)
  if alg = .RSASHA256 then throw .RsaGeneration
  let some pkcs8 := lib.generatePkcs8 alg keyPath | throw (.Generate alg)
  ensure (lib.write keyPath = true) (.WriteKey keyPath)
  return (keyPath, Function.update files keyPath (some (some pkcs8)))

/-- `resolve_key_path`. -/
def resolveKeyPath (zoneName : String) (explicitKey : Option String) (algorithm : String)
    (keysDir : Text) (files : KeyFiles) : Except KeyError (Text × KeyFiles) :=
  match explicitKey with
  | some path =>
    if (files path.toList).isSome then .ok (path.toList, files) else .error (.NotFound path.toList)
  | none => generateAndSaveKey lib zoneName algorithm keysDir files

/-- `load_signer`. -/
def loadSigner (hk : Hickory) (keyPath : Text) (zoneName algorithm : String) (files : KeyFiles) :
    Except KeyError Signer := do
  let alg ← algorithmFromStr algorithm
  let some key := (files keyPath).join | throw (.ReadKey keyPath)
  ensure (lib.fromPkcs8 alg key = true) (.LoadKey alg)
  let some origin := hk.fromAscii zoneName | throw (.InvalidZoneName zoneName)
  return ⟨key, alg, origin⟩

end Keys

/-! ## The zones -/

/-- The errors that end `load_all`. -/
inductive LoadError
  /-- `zone {zone_name}: primary requires 'file'` -/
  | RequiresFile (zoneName : String)
  /-- `zone {zone_name}: load failed` -/
  | LoadFailed (zoneName : String) (e : RecordError)
  /-- `invalid zone name` -/
  | InvalidZoneName
  /-- `zone {zone_name}: resolve DNSSEC key` -/
  | ResolveKey (zoneName : String) (e : KeyError)
  /-- `zone {zone_name}: load DNSSEC signer` -/
  | LoadSigner (zoneName : String) (e : KeyError)
  /-- `zone {zone_name}: add signing key` -/
  | AddSigningKey (zoneName : String)
  /-- `zone {zone_name}: secure zone` -/
  | SecureZone (zoneName : String)
  deriving DecidableEq, Repr

/-- `SecondaryZoneInfo`. -/
structure SecondaryZoneInfo where
  name : String
  primaries : List String
  deriving DecidableEq, Repr

/-- A task `load_all` spawns. -/
inductive SyncTask
  | secondary (zoneName : String) (primaries : List String)
  | catalog (zoneName : String) (primaries : List String)
  deriving DecidableEq, Repr

/-- `ZoneManager`, with the tasks it has spawned, the zones it has skipped and the key files it
sees. -/
structure ZoneManager where
  catalog : AList (fun _ : LowerName => Records)
  secondaries : List SecondaryZoneInfo
  tasks : List SyncTask
  skipped : List Config.ZoneConfig
  keys : KeyFiles

/-- `ZoneManager::new`. -/
def ZoneManager.new (keys : KeyFiles) : ZoneManager := ⟨∅, [], [], [], keys⟩

/-- The branches of `load_all`. -/
inductive LoadBranch
  | Primary
  | Secondary
  | Catalog
  | Stub
  | Unknown
  deriving DecidableEq, Repr

/-- The branch for a kind. -/
def loadBranch (kind : String) : LoadBranch :=
  match kind with
  | "primary" => .Primary
  | "secondary" => .Secondary
  | "catalog" => .Catalog
  | "stub" | "conditional" | "forwarder" => .Stub
  | _ => .Unknown

/-- The branches that load something. -/
def LoadBranch.Loading (b : LoadBranch) : Prop := b = .Primary ∨ b = .Secondary ∨ b = .Catalog

section LoadAll

variable (lib : ZoneLib) (signing : SigningLib) (disk : Disk) (cfg : Config)

/-- `Config::soa_rname`. -/
def configRname : Text := soaRname cfg.host.toList (cfg.hostadmin.map String.toList)

/-- The signing of a primary. -/
def signZone (zone : Config.ZoneConfig) (authority : Records) (keys : KeyFiles) :
    Except LoadError (Records × KeyFiles) := do
  let (keyPath, keys) ← (resolveKeyPath signing zone.name zone.dnssecKey zone.dnssecAlgorithm
    cfg.dnssecKeys.keysDir.toList keys).mapError (.ResolveKey zone.name)
  let signer ← (loadSigner signing lib.toHickory keyPath zone.name zone.dnssecAlgorithm
    keys).mapError (.LoadSigner zone.name)
  let some authority := signing.addZoneSigningKey authority signer
    | throw (.AddSigningKey zone.name)
  let some authority := signing.secureZone authority | throw (.SecureZone zone.name)
  return (authority, keys)

/-- `load_primary`. -/
def ZoneManager.loadPrimary (self : ZoneManager) (zone : Config.ZoneConfig) :
    Except LoadError ZoneManager := do
  let some filePath := zone.file | throw (.RequiresFile zone.name)
  let authority ← (loadZoneFile lib disk filePath.toList zone.name cfg.zonesDir.toList
    (some (configRname cfg))).mapError (.LoadFailed zone.name)
  let some origin := lib.fromAscii zone.name | throw .InvalidZoneName
  let (authority, keys) ←
    if zone.dnssecSigning then signZone lib signing cfg zone authority self.keys
    else pure (authority, self.keys)
  return { self with catalog := self.catalog.insert (.ofName origin) authority, keys }

/-- `load_secondary`. -/
def ZoneManager.loadSecondary (self : ZoneManager) (zone : Config.ZoneConfig) : ZoneManager :=
  { self with
    secondaries := self.secondaries ++ [⟨zone.name, zone.primaries⟩]
    tasks := self.tasks ++ [.secondary zone.name zone.primaries] }

/-- `load_catalog_zone`. -/
def ZoneManager.loadCatalogZone (self : ZoneManager) (zone : Config.ZoneConfig) : ZoneManager :=
  { self with tasks := self.tasks ++ [.catalog zone.name zone.primaries] }

/-- One round of `load_all`. -/
def ZoneManager.loadZone (self : ZoneManager) (zone : Config.ZoneConfig) :
    Except LoadError ZoneManager :=
  match loadBranch zone.kind with
  | .Primary => self.loadPrimary lib signing disk cfg zone
  | .Secondary => .ok (self.loadSecondary zone)
  | .Catalog => .ok (self.loadCatalogZone zone)
  | .Stub => .ok self
  | .Unknown => .ok { self with skipped := self.skipped ++ [zone] }

/-- `load_all`. -/
def loadAll (keys : KeyFiles) : Except LoadError ZoneManager :=
  cfg.zones.foldlM (ZoneManager.loadZone lib signing disk cfg) (.new keys)

end LoadAll

/-! ## What a zone needs -/

theorem loadBranch_eq_unknown {kind : String} :
    loadBranch kind = .Unknown ↔ kind ∉ Config.zoneKinds ∧ kind ≠ "catalog" := by
  unfold loadBranch Config.zoneKinds
  split <;> simp_all

theorem loadBranch_loading {kind : String} :
    (loadBranch kind).Loading ↔ kind = "primary" ∨ kind = "secondary" ∨ kind = "catalog" := by
  unfold loadBranch LoadBranch.Loading
  split <;> simp_all

/-- The algorithms `validate` knows are those the key functions know. -/
theorem algorithmFromStr_isOk {s : String} :
    (∃ alg, algorithmFromStr s = .ok alg) ↔ s ∈ Config.dnssecAlgorithms := by
  unfold algorithmFromStr Config.dnssecAlgorithms
  split <;> simp_all

/-- The file a zone's signing key is looked for in. -/
def keyPath (cfg : Config) (zone : Config.ZoneConfig) : Text :=
  match zone.dnssecKey with
  | some path => path.toList
  | none => keyPathForZone zone.name cfg.dnssecKeys.keysDir.toList zone.dnssecAlgorithm

/-- The files of a zone are there, and what is in them is as it should be. -/
structure Available (lib : ZoneLib) (signing : SigningLib) (disk : Disk) (keys : KeyFiles)
    (cfg : Config) (zone : Config.ZoneConfig) : Prop where
  file : ∀ filePath, zone.file = some filePath →
    ∃ text, disk (resolveZonePath filePath.toList cfg.zonesDir.toList) = some text ∧
      ∀ origin, lib.fromAscii zone.name = some origin →
        ∃ records, tryFromConfig lib origin text = some records
  key : ∃ bytes, keys (keyPath cfg zone) = some (some bytes) ∧
    ∀ alg, signing.fromPkcs8 alg bytes = true
  signs : ∀ records signer, ∃ signed secured,
    signing.addZoneSigningKey records signer = some signed ∧
      signing.secureZone signed = some secured

section LoadZone

variable {lib : ZoneLib} {signing : SigningLib} {disk : Disk} {keys : KeyFiles} {cfg : Config}
  {zone : Config.ZoneConfig}

theorem patchSoaRname_ok {rname : Text} {n : Name} (h : lib.nameOf rname = some n)
    (records : Records) (origin : Name) :
    ∃ patched, patchSoaRname lib records origin rname = .ok patched := by
  unfold patchSoaRname
  rw [h]
  cases oldSoa records origin with
  | some soa => exact ⟨_, rfl⟩
  | none => exact ⟨_, rfl⟩

/-- A key that is there is used, and no file is written. -/
theorem resolveKeyPath_ok (hkey : (keys (keyPath cfg zone)).isSome = true)
    (halg : zone.dnssecAlgorithm ∈ Config.dnssecAlgorithms) :
    resolveKeyPath signing zone.name zone.dnssecKey zone.dnssecAlgorithm
      cfg.dnssecKeys.keysDir.toList keys = .ok (keyPath cfg zone, keys) := by
  obtain ⟨alg, halg⟩ := algorithmFromStr_isOk.mpr halg
  unfold keyPath at hkey ⊢
  unfold resolveKeyPath
  cases hexplicit : zone.dnssecKey with
  | some path =>
    rw [hexplicit] at hkey
    exact if_pos hkey
  | none =>
    rw [hexplicit] at hkey
    have hthere : (keys (keyPathForZone zone.name cfg.dnssecKeys.keysDir.toList
        zone.dnssecAlgorithm)).isSome = true := hkey
    simp only [generateAndSaveKey, halg, hthere, if_true]
    rfl

theorem signZone_ok {origin : Name} (h : Available lib signing disk keys cfg zone)
    (hname : lib.fromAscii zone.name = some origin)
    (halg : zone.dnssecAlgorithm ∈ Config.dnssecAlgorithms) (authority : Records) :
    ∃ signed, signZone lib signing cfg zone authority keys = .ok (signed, keys) := by
  obtain ⟨bytes, hbytes, hpkcs8⟩ := h.key
  obtain ⟨alg, hfromStr⟩ := algorithmFromStr_isOk.mpr halg
  have hthere : (keys (keyPath cfg zone)).isSome = true := by
    rw [hbytes]
    rfl
  have hpath : resolveKeyPath signing zone.name zone.dnssecKey zone.dnssecAlgorithm
      cfg.dnssecKeys.keysDir.toList keys = .ok (keyPath cfg zone, keys) :=
    resolveKeyPath_ok hthere halg
  have hsigner : loadSigner signing lib.toHickory (keyPath cfg zone) zone.name zone.dnssecAlgorithm
      keys = .ok ⟨bytes, alg, origin⟩ := by
    simp only [loadSigner, hfromStr, hbytes, Option.join_some, ensure, hpkcs8, hname]
    rfl
  obtain ⟨signed, secured, hadd, hsecure⟩ := h.signs authority ⟨bytes, alg, origin⟩
  refine ⟨secured, ?_⟩
  unfold signZone
  rw [hpath]
  simp only [Except.mapError, bind, Except.bind]
  rw [hsigner]
  simp only [hadd, hsecure]
  rfl

theorem loadZoneFile_ok {filePath : String} {origin rname : Name}
    (h : Available lib signing disk keys cfg zone) (hfile : zone.file = some filePath)
    (hname : lib.fromAscii zone.name = some origin)
    (hrname : lib.nameOf (configRname cfg) = some rname) :
    ∃ authority, loadZoneFile lib disk filePath.toList zone.name cfg.zonesDir.toList
      (some (configRname cfg)) = .ok authority := by
  obtain ⟨text, htext, hparse⟩ := h.file filePath hfile
  obtain ⟨records, hrecords⟩ := hparse origin hname
  obtain ⟨authority, hpatch⟩ := patchSoaRname_ok hrname records origin
  refine ⟨authority, ?_⟩
  unfold loadZoneFile
  simp only [htext, hname, orErr, bind, Except.bind]
  rw [hrecords]
  exact hpatch

theorem loadPrimary_ok {filePath : String} {origin rname : Name}
    (h : Available lib signing disk keys cfg zone) (hfile : zone.file = some filePath)
    (hname : lib.fromAscii zone.name = some origin)
    (hrname : lib.nameOf (configRname cfg) = some rname)
    (halg : zone.dnssecSigning = true → zone.dnssecAlgorithm ∈ Config.dnssecAlgorithms)
    {self : ZoneManager} (hkeys : self.keys = keys) :
    ∃ self', self.loadPrimary lib signing disk cfg zone = .ok self' ∧ self'.keys = keys ∧
      self'.skipped = self.skipped := by
  obtain ⟨authority, hload⟩ := loadZoneFile_ok h hfile hname hrname
  unfold ZoneManager.loadPrimary
  rw [hfile]
  simp only [hload, Except.mapError, bind, Except.bind, hname]
  cases hsigning : zone.dnssecSigning with
  | false => exact ⟨_, rfl, hkeys, rfl⟩
  | true =>
    obtain ⟨signed, hsigned⟩ := signZone_ok h hname (halg hsigning) authority
    rw [hkeys, if_pos rfl, hsigned]
    exact ⟨_, rfl, rfl, rfl⟩

/-- **One zone**: when its values pass, its name and the RNAME parse and its files are there, the zone
is taken up, and not skipped. -/
theorem loadZone_ok {origin rname : Name} (hpasses : zone.Passes)
    (h : Available lib signing disk keys cfg zone) (hname : lib.fromAscii zone.name = some origin)
    (hrname : lib.nameOf (configRname cfg) = some rname) {self : ZoneManager}
    (hkeys : self.keys = keys) :
    ∃ self', self.loadZone lib signing disk cfg zone = .ok self' ∧ self'.keys = keys ∧
      self'.skipped = self.skipped := by
  unfold ZoneManager.loadZone
  cases hbranch : loadBranch zone.kind with
  | Primary =>
    have hkind : zone.kind = "primary" := by
      unfold loadBranch at hbranch
      split at hbranch <;> simp_all
    obtain ⟨filePath, hfile⟩ := Option.ne_none_iff_exists'.mp (hpasses.file hkind)
    exact loadPrimary_ok h hfile hname hrname hpasses.algorithm hkeys
  | Secondary => exact ⟨_, rfl, hkeys, rfl⟩
  | Catalog => exact ⟨_, rfl, hkeys, rfl⟩
  | Stub => exact ⟨_, rfl, hkeys, rfl⟩
  | Unknown => exact absurd hpasses.kind (loadBranch_eq_unknown.mp hbranch).1

/-- **All zones.** -/
theorem loadAll_ok {rname : Name}
    (hzones : ∀ zone ∈ cfg.zones, zone.Passes ∧ Available lib signing disk keys cfg zone ∧
      ∃ origin, lib.fromAscii zone.name = some origin)
    (hrname : lib.nameOf (configRname cfg) = some rname) :
    ∃ manager, loadAll lib signing disk cfg keys = .ok manager ∧ manager.skipped = [] := by
  -- the key files stay as they are, as every key is there
  have hstep : ∀ self : ZoneManager, self.keys = keys ∧ self.skipped = [] → ∀ zone ∈ cfg.zones,
      ∃ self', self.loadZone lib signing disk cfg zone = .ok self' ∧
        self'.keys = keys ∧ self'.skipped = [] := by
    rintro self ⟨hkeys, hskipped⟩ zone hzone
    obtain ⟨hpasses, havailable, origin, hname⟩ := hzones zone hzone
    obtain ⟨self', hload, hkeys', hskipped'⟩ :=
      loadZone_ok hpasses havailable hname hrname hkeys
    exact ⟨self', hload, hkeys', hskipped'.trans hskipped⟩
  obtain ⟨manager, hload, -, hskipped⟩ :=
    foldlM_ok hstep (show (ZoneManager.new keys).keys = keys ∧ (ZoneManager.new keys).skipped = []
      from ⟨rfl, rfl⟩)
  exact ⟨manager, hload, hskipped⟩

end LoadZone

end Heimdallr.Zone
