import Heimdallr.Core.Filter
import Heimdallr.Config
import Heimdallr.Zone.Record
import Mathlib.Data.List.DropRight

/-!
# The TLS certificate over the starts of the server (`net/cert.rs`, `Net::run`)

A start with a DoT, DoH or DoQ listener looks for one certificate: the configured pair of files,
else the Let's Encrypt pair of the host, else, if the configuration allows it, a self-signed pair in
the directory of the keys, which is generated when one of its two files is missing. The certificate
is written before its key.

* A `Disk` is a content for every path: none, or a file, whose text may not be readable. `exists`
  asks whether there is a file. Directories are not modelled, but that creating one may fail.
* rcgen, rustls and the errors of the file system are parameters: `TlsLib` is what rustls makes of
  two texts, `CertMachine` what one start comes to when it generates and writes a pair. A
  `std::fs::write` may fail before it has opened its file, or after having written a part.
* `Path::join` is the one of `Zone.Load`; a file name of its own after a directory tells the two
  files of a pair, and the pairs of different hosts, apart (`join_eq_iff`). The host loses its final
  dots before it becomes a part of a path.
* A start is a function of the files, and a run a list of starts, with any configurations, and of
  changes from outside.

Results:
* **`same_certificate`**: what one start presents is presented by every later one.
* **`self_signed_one_generation`**: a self-signed pair is never made of two generations.

Out of scope: when a certificate expires, which nothing in the source looks at, and two servers that
start at the same time.
-/

namespace Heimdallr.Net

open Heimdallr.Lib Heimdallr.Zone

/-! ## Paths -/

/-- `Path::join`. -/
def join (dir file : Text) : Text := resolveZonePath file dir

/-- A directory with the separator that comes before a file name. -/
def slashed (dir : Text) : Text :=
  if dir = [] ∨ dir.getLast? = some '/' then dir else dir ++ ['/']

theorem join_eq {dir file : Text} (h : '/' ∉ file) : join dir file = slashed dir ++ file := by
  have hhead : file.head? ≠ some '/' := fun hhead => h (List.mem_of_head? hhead)
  unfold join resolveZonePath slashed
  rw [if_neg hhead]
  split
  · rfl
  · rw [List.append_assoc]
    rfl

theorem slashed_last (dir : Text) : slashed dir = [] ∨ (slashed dir).getLast? = some '/' := by
  unfold slashed
  by_cases h : dir = [] ∨ dir.getLast? = some '/'
  · rw [if_pos h]
    exact h
  · rw [if_neg h]
    exact .inr List.getLast?_concat

/-- The file name is what comes after the last separator. -/
theorem fileName_join {dir file : Text} (h : '/' ∉ file) :
    (join dir file).rtakeWhile (· ≠ '/') = file := by
  have hdir : (slashed dir).reverse.takeWhile (· ≠ '/') = [] := by
    rcases slashed_last dir with hnil | hlast
    · rw [hnil]
      rfl
    · obtain ⟨front, hfront⟩ := List.getLast?_eq_some_iff.mp hlast
      rw [hfront, List.reverse_append]
      rfl
  have hfile : ∀ c ∈ file.reverse, (decide (c ≠ '/')) = true := by
    intro c hc
    rw [decide_eq_true_iff]
    rintro rfl
    exact h (List.mem_reverse.mp hc)
  rw [join_eq h, List.rtakeWhile, List.reverse_append, List.takeWhile_append_of_pos hfile, hdir,
    List.append_nil, List.reverse_reverse]

/-- **Two paths are one** when their file names are, and their directories. -/
theorem join_eq_iff {dir dir' file file' : Text} (h : '/' ∉ file) (h' : '/' ∉ file') :
    join dir file = join dir' file' ↔ file = file' ∧ slashed dir = slashed dir' := by
  constructor
  · intro heq
    have hfile : file = file' := by rw [← fileName_join h, heq, fileName_join h']
    subst hfile
    rw [join_eq h, join_eq h, List.append_cancel_right_eq] at heq
    exact ⟨rfl, heq⟩
  · rintro ⟨rfl, hdir⟩
    rw [join_eq h, join_eq h, hdir]

/-! ## `net/cert.rs` -/

/-- `TlsConfig`. -/
structure TlsConfig where
  cert : Option String := none
  key : Option String := none
  letsencryptDir : String := "/etc/letsencrypt/live"
  selfSigned : Bool := false
  deriving DecidableEq, Repr

/-- `self_signed_enabled`. -/
def TlsConfig.selfSignedEnabled (self : TlsConfig) : Bool := self.selfSigned

/-- The part of the configuration about TLS, beside the rest. -/
structure TlsSettings extends Config where
  tls : TlsConfig := {}

/-- The steps of rcgen: `generate ECDSA key`, `create cert params`, `create self-signed cert`. -/
inductive GenerateStep
  | Key
  | Params
  | Cert
  deriving DecidableEq, Repr

/-- The errors of `net/cert.rs`. -/
inductive CertError
  /-- `open cert file {cert_path}` -/
  | OpenCert (certPath : Text)
  /-- `parse cert chain from {cert_path}` -/
  | ParseCert (certPath : Text)
  /-- `certificate chain is empty: {cert_path}` -/
  | EmptyChain (certPath : Text)
  /-- `parse private key from {key_path}` -/
  | ParseKey (keyPath : Text)
  /-- `invalid private key or cert mismatch: {e}` -/
  | Mismatch
  /-- `no TLS certificates found for {host}. …` -/
  | NotFound (host : Text) (dir : Text)
  /-- `create {}` -/
  | CreateDir (outDir : Text)
  | Generate (step : GenerateStep)
  /-- `write {}` -/
  | Write (path : Text)
  deriving DecidableEq, Repr

/-- `CertifiedKey`: the chain and the key. -/
structure CertifiedKey where
  chain : List Bytes
  key : Bytes
  deriving DecidableEq, Repr

/-- What rustls does. -/
structure TlsLib where
  /-- the certificates of a PEM text -/
  certChain : Text → Option (List Bytes)
  /-- the private key of a PEM text -/
  privateKey : Text → Option Bytes
  /-- `CertifiedKey::from_der`: the key is one, and that of the first certificate -/
  fromDer : List Bytes → Bytes → Bool

/-- The texts of a certificate and of its key. -/
structure PemPair where
  cert : Text
  key : Text
  deriving DecidableEq, Repr

/-- What becomes of a `std::fs::write`. -/
inductive FsWrite
  | done
  /-- the file is not opened -/
  | refused
  /-- the file was truncated, and the writing stopped after `len` characters -/
  | cut (len : Nat)
  deriving DecidableEq, Repr

/-- The files afterwards. -/
def FsWrite.files (w : FsWrite) (path content : Text) (disk : Disk) : Disk :=
  match w with
  | .done => Function.update disk path (some (some content))
  | .refused => disk
  | .cut len => Function.update disk path (some (some (content.take len)))

/-- What the file system and rcgen do in one start. -/
structure CertMachine where
  /-- `std::fs::create_dir_all` -/
  createDirAll : Text → Bool
  /-- a key pair and its certificate for a host -/
  generate : Text → Except GenerateStep PemPair
  certWrite : FsWrite
  keyWrite : FsWrite

/-- `load_tls_cert`. -/
def loadTlsCert (lib : TlsLib) (certPath keyPath : Text) (disk : Disk) :
    Except CertError CertifiedKey := do
  let some certText := (disk certPath).join | throw (.OpenCert certPath)
  let some certChain := lib.certChain certText | throw (.ParseCert certPath)
  ensure (certChain ≠ []) (.EmptyChain certPath)
  let some key := (disk keyPath).join.bind lib.privateKey | throw (.ParseKey keyPath)
  ensure (lib.fromDer certChain key = true) .Mismatch
  return ⟨certChain, key⟩

/-- The two files of Let's Encrypt for a host. -/
def letsEncryptPaths (host letsencryptDir : Text) : Text × Text :=
  let leDir := join letsencryptDir (trimEndDots host)
  (join leDir "fullchain.pem".toList, join leDir "privkey.pem".toList)

/-- `cert.exists() && key.exists()`. -/
def bothExist (paths : Text × Text) (disk : Disk) : Bool :=
  (disk paths.1).isSome && (disk paths.2).isSome

theorem bothExist_congr {paths : Text × Text} {disk disk' : Disk}
    (h₁ : disk' paths.1 = disk paths.1) (h₂ : disk' paths.2 = disk paths.2) :
    bothExist paths disk' = bothExist paths disk := by
  unfold bothExist
  rw [h₁, h₂]

/-- `auto_detect_cert_paths`. -/
def autoDetectCertPaths (host letsencryptDir : Text) (disk : Disk) : Option (Text × Text) :=
  let paths := letsEncryptPaths host letsencryptDir
  if bothExist paths disk then some paths else none

/-- `resolve_cert_paths`. -/
def resolveCertPaths (cert key : Option String) (host letsencryptDir : Text) (disk : Disk) :
    Except CertError (Text × Text) :=
  match cert, key with
  | some c, some k => .ok (c.toList, k.toList)
  | _, _ =>
    match autoDetectCertPaths host letsencryptDir disk with
    | some paths => .ok paths
    | none => .error (.NotFound host (join letsencryptDir host))

/-- The directory of a self-signed pair. -/
def selfSignedDir (host keysDir : Text) : Text :=
  join (join keysDir "self_signed".toList) (trimEndDots host)

/-- Where a self-signed certificate is written. -/
def certFile (outDir : Text) : Text := join outDir "cert.pem".toList

/-- Where its key is written. -/
def keyFile (outDir : Text) : Text := join outDir "key.pem".toList

/-- `generate_self_signed`, with the files it leaves. -/
def generateSelfSigned (m : CertMachine) (host keysDir : Text) (disk : Disk) :
    Except CertError (Text × Text) × Disk :=
  let outDir := selfSignedDir host keysDir
  let paths := (certFile outDir, keyFile outDir)
  if m.createDirAll outDir = false then (.error (.CreateDir outDir), disk)
  else if bothExist paths disk then (.ok paths, disk)
  else
    match m.generate (trimEndDots host) with
    | .error step => (.error (.Generate step), disk)
    | .ok pair =>
      let disk := m.certWrite.files paths.1 pair.cert disk
      if m.certWrite ≠ .done then (.error (.Write paths.1), disk)
      else
        let disk := m.keyWrite.files paths.2 pair.key disk
        if m.keyWrite ≠ .done then (.error (.Write paths.2), disk) else (.ok paths, disk)

/-- The pair `Net::run` settles on, with the files afterwards. -/
def certPaths (m : CertMachine) (cfg : TlsSettings) (disk : Disk) :
    Except CertError (Text × Text) × Disk :=
  match resolveCertPaths cfg.tls.cert cfg.tls.key cfg.host.toList cfg.tls.letsencryptDir.toList
    disk with
  | .ok paths => (.ok paths, disk)
  | .error e =>
    if cfg.tls.selfSignedEnabled then
      generateSelfSigned m cfg.host.toList cfg.dnssecKeys.keysDir.toList disk
    else (.error e, disk)

/-- `has_tls_listeners`. -/
def TlsSettings.hasTlsListeners (cfg : TlsSettings) : Bool :=
  !cfg.listenTls.isEmpty || !cfg.listenHttps.isEmpty || !cfg.listenQuic.isEmpty

/-- `cert_resolver` of `Net::run`, with the files afterwards. -/
def certResolver (lib : TlsLib) (m : CertMachine) (cfg : TlsSettings) (disk : Disk) :
    Except CertError (Option CertifiedKey) × Disk :=
  if cfg.hasTlsListeners then
    let found := certPaths m cfg disk
    (found.1.bind fun paths => (loadTlsCert lib paths.1 paths.2 found.2).map some, found.2)
  else (.ok none, disk)

/-! ## The files of a pair -/

/-- The self-signed pair of a configuration. -/
def TlsSettings.selfSigned (cfg : TlsSettings) : Text × Text :=
  let outDir := selfSignedDir cfg.host.toList cfg.dnssecKeys.keysDir.toList
  (certFile outDir, keyFile outDir)

/-- Its Let's Encrypt pair. -/
def TlsSettings.letsEncrypt (cfg : TlsSettings) : Text × Text :=
  letsEncryptPaths cfg.host.toList cfg.tls.letsencryptDir.toList

theorem certFile_ne_keyFile (dir dir' : Text) : certFile dir ≠ keyFile dir' := by
  unfold certFile keyFile
  rw [Ne, join_eq_iff (by decide) (by decide)]
  rintro ⟨hfile, -⟩
  exact absurd hfile (by decide)

/-- The two files of a pair are found in the same directories. -/
theorem certFile_eq_iff {dir dir' : Text} :
    certFile dir = certFile dir' ↔ keyFile dir = keyFile dir' := by
  unfold certFile keyFile
  rw [join_eq_iff (by decide) (by decide), join_eq_iff (by decide) (by decide)]
  simp

/-- No file of a self-signed pair is one of Let's Encrypt. -/
theorem letsEncrypt_ne {host letsencryptDir path : Text} (dir : Text)
    (h : path = (letsEncryptPaths host letsencryptDir).1 ∨
      path = (letsEncryptPaths host letsencryptDir).2) :
    path ≠ certFile dir ∧ path ≠ keyFile dir := by
  unfold certFile keyFile letsEncryptPaths at *
  rcases h with rfl | rfl
  all_goals
    constructor
    all_goals
      rw [Ne, join_eq_iff (by decide) (by decide)]
      rintro ⟨hfile, -⟩
      exact absurd hfile (by decide)

/-! ## One start -/

/-- What `generate_self_signed` comes to. -/
inductive Generation (m : CertMachine) (host outDir : Text) (disk : Disk) :
    Except CertError (Text × Text) × Disk → Prop
  | noDir : Generation m host outDir disk (.error (.CreateDir outDir), disk)
  | kept (hboth : bothExist (certFile outDir, keyFile outDir) disk = true) :
    Generation m host outDir disk (.ok (certFile outDir, keyFile outDir), disk)
  | failed (step : GenerateStep) : Generation m host outDir disk (.error (.Generate step), disk)
  | certLost (pair : PemPair) (hpair : m.generate (trimEndDots host) = .ok pair)
      (hboth : bothExist (certFile outDir, keyFile outDir) disk = false) :
    Generation m host outDir disk (.error (.Write (certFile outDir)),
      m.certWrite.files (certFile outDir) pair.cert disk)
  | keyLost (pair : PemPair) (hpair : m.generate (trimEndDots host) = .ok pair)
      (hboth : bothExist (certFile outDir, keyFile outDir) disk = false) (hkey : m.keyWrite ≠ .done) :
    Generation m host outDir disk (.error (.Write (keyFile outDir)),
      m.keyWrite.files (keyFile outDir) pair.key
        (Function.update disk (certFile outDir) (some (some pair.cert))))
  | written (pair : PemPair) (hpair : m.generate (trimEndDots host) = .ok pair)
      (hboth : bothExist (certFile outDir, keyFile outDir) disk = false) :
    Generation m host outDir disk (.ok (certFile outDir, keyFile outDir),
      Function.update (Function.update disk (certFile outDir) (some (some pair.cert)))
        (keyFile outDir) (some (some pair.key)))

theorem generateSelfSigned_cases (m : CertMachine) (host keysDir : Text) (disk : Disk) :
    Generation m host (selfSignedDir host keysDir) disk (generateSelfSigned m host keysDir disk) := by
  unfold generateSelfSigned
  by_cases hdir : m.createDirAll (selfSignedDir host keysDir) = false
  · rw [if_pos hdir]
    exact .noDir
  · rw [if_neg hdir]
    by_cases hboth : bothExist (certFile (selfSignedDir host keysDir),
        keyFile (selfSignedDir host keysDir)) disk = true
    · rw [if_pos hboth]
      exact .kept hboth
    · rw [if_neg hboth]
      have hboth := Bool.eq_false_iff.mpr hboth
      cases hpair : m.generate (trimEndDots host) with
      | error step => exact .failed step
      | ok pair =>
        by_cases hcert : m.certWrite = .done
        · by_cases hkey : m.keyWrite = .done
          · simp only [hcert, hkey, ne_eq, not_true_eq_false, if_false]
            exact .written pair hpair hboth
          · simp only [hcert, hkey, ne_eq, not_true_eq_false, not_false_eq_true, if_false, if_true]
            exact .keyLost pair hpair hboth hkey
        · simp only [hcert, ne_eq, not_false_eq_true, if_true]
          exact .certLost pair hpair hboth

theorem FsWrite.files_others (w : FsWrite) {path p : Text} (content : Text) (disk : Disk)
    (hp : p ≠ path) : w.files path content disk p = disk p := by
  cases w with
  | done => exact Function.update_of_ne hp _ _
  | refused => rfl
  | cut len => exact Function.update_of_ne hp _ _

section Generation

variable {m : CertMachine} {host outDir : Text} {disk : Disk}
  {r : Except CertError (Text × Text) × Disk}

/-- No other files change. -/
theorem Generation.others (h : Generation m host outDir disk r) {p : Text}
    (hcert : p ≠ certFile outDir) (hkey : p ≠ keyFile outDir) : r.2 p = disk p := by
  cases h with
  | noDir => rfl
  | kept hboth => rfl
  | failed step => rfl
  | certLost pair hpair hboth => exact FsWrite.files_others _ _ _ hcert
  | keyLost pair hpair hboth hlost =>
    show m.keyWrite.files _ _ _ p = disk p
    rw [FsWrite.files_others _ _ _ hkey, Function.update_of_ne hcert]
  | written pair hpair hboth =>
    exact (Function.update_of_ne hkey _ _).trans (Function.update_of_ne hcert _ _)

/-- The files of Let's Encrypt do not change. -/
theorem Generation.letsEncrypt (h : Generation m host outDir disk r) {cfg : TlsSettings} {p : Text}
    (hp : p = cfg.letsEncrypt.1 ∨ p = cfg.letsEncrypt.2) : r.2 p = disk p :=
  h.others (letsEncrypt_ne outDir hp).1 (letsEncrypt_ne outDir hp).2

/-- A pair that is there is left alone. -/
theorem Generation.there (h : Generation m host outDir disk r)
    (hboth : bothExist (certFile outDir, keyFile outDir) disk = true) : r.2 = disk := by
  cases h with
  | noDir | kept | failed => rfl
  | certLost pair hpair hnot | keyLost pair hpair hnot | written pair hpair hnot =>
    rw [hboth] at hnot
    cases hnot

/-- So is a complete pair of any directory. -/
theorem Generation.complete (h : Generation m host outDir disk r) {dir p : Text}
    (hboth : bothExist (certFile dir, keyFile dir) disk = true)
    (hp : p = certFile dir ∨ p = keyFile dir) : r.2 p = disk p := by
  by_cases hsame : certFile dir = certFile outDir
  · rw [hsame, certFile_eq_iff.mp hsame] at hboth
    rw [h.there hboth]
  · rcases hp with rfl | rfl
    · exact h.others hsame (certFile_ne_keyFile dir outDir)
    · exact h.others (certFile_ne_keyFile outDir dir).symm fun hkey =>
        hsame (certFile_eq_iff.mpr hkey)

/-- Success leaves a pair. -/
theorem Generation.ok {paths : Text × Text} (h : Generation m host outDir disk r)
    (hok : r.1 = .ok paths) :
    paths = (certFile outDir, keyFile outDir) ∧ bothExist paths r.2 = true := by
  cases h with
  | noDir | failed | certLost | keyLost => cases hok
  | kept hboth =>
    obtain rfl := Except.ok.inj hok
    exact ⟨rfl, hboth⟩
  | written pair hpair hboth =>
    obtain rfl := Except.ok.inj hok
    refine ⟨rfl, ?_⟩
    simp [bothExist, certFile_ne_keyFile]

end Generation

/-! ## The pair in use -/

/-- No pair of files is configured. -/
def TlsSettings.Auto (cfg : TlsSettings) : Prop := cfg.tls.cert = none ∨ cfg.tls.key = none

/-- The pair a start finds. -/
def pairInUse (cfg : TlsSettings) (disk : Disk) : Option (Text × Text) :=
  if bothExist cfg.letsEncrypt disk then some cfg.letsEncrypt
  else if cfg.tls.selfSignedEnabled && bothExist cfg.selfSigned disk then some cfg.selfSigned
  else none

section InUse

variable {m : CertMachine} {cfg : TlsSettings} {disk : Disk} {paths : Text × Text}

theorem resolveCertPaths_auto (hauto : cfg.Auto) (host letsencryptDir : Text) :
    resolveCertPaths cfg.tls.cert cfg.tls.key host letsencryptDir disk =
      if bothExist (letsEncryptPaths host letsencryptDir) disk then
        .ok (letsEncryptPaths host letsencryptDir)
      else .error (.NotFound host (join letsencryptDir host)) := by
  have hnot : ∀ c k, ¬ (cfg.tls.cert = some c ∧ cfg.tls.key = some k) := by
    rintro c k ⟨hc, hk⟩
    rcases hauto with h | h
    · rw [h] at hc
      cases hc
    · rw [h] at hk
      cases hk
  unfold resolveCertPaths autoDetectCertPaths
  split
  · rename_i c k hc hk
    exact absurd ⟨hc, hk⟩ (hnot c k)
  · by_cases hboth : bothExist (letsEncryptPaths host letsencryptDir) disk = true
    · simp only [hboth, if_true]
    · simp only [hboth]
      rfl

theorem certPaths_auto (hauto : cfg.Auto) :
    certPaths m cfg disk =
      if bothExist cfg.letsEncrypt disk then (.ok cfg.letsEncrypt, disk)
      else if cfg.tls.selfSignedEnabled then
        generateSelfSigned m cfg.host.toList cfg.dnssecKeys.keysDir.toList disk
      else (.error (.NotFound cfg.host.toList
        (join cfg.tls.letsencryptDir.toList cfg.host.toList)), disk) := by
  unfold certPaths
  rw [resolveCertPaths_auto hauto]
  by_cases hboth : bothExist cfg.letsEncrypt disk = true
  · rw [if_pos hboth, show bothExist (letsEncryptPaths _ _) disk = true from hboth, if_pos rfl]
    rfl
  · rw [if_neg hboth, if_neg (show ¬ bothExist (letsEncryptPaths _ _) disk = true from hboth)]

/-- A start finds the pair in use, and leaves the files as they are. -/
theorem certPaths_of_inUse (hauto : cfg.Auto) (hpair : pairInUse cfg disk = some paths)
    (hdir : bothExist cfg.letsEncrypt disk = false →
      m.createDirAll (selfSignedDir cfg.host.toList cfg.dnssecKeys.keysDir.toList) = true) :
    certPaths m cfg disk = (.ok paths, disk) := by
  rw [certPaths_auto hauto]
  unfold pairInUse at hpair
  by_cases hle : bothExist cfg.letsEncrypt disk = true
  · rw [if_pos hle] at hpair ⊢
    obtain rfl := Option.some.inj hpair
    rfl
  · rw [if_neg hle] at hpair ⊢
    by_cases hself : (cfg.tls.selfSignedEnabled && bothExist cfg.selfSigned disk) = true
    · rw [if_pos hself] at hpair
      obtain rfl := Option.some.inj hpair
      obtain ⟨henabled, hboth⟩ := Bool.and_eq_true_iff.mp hself
      rw [if_pos henabled]
      unfold generateSelfSigned
      rw [if_neg (by rw [hdir (Bool.eq_false_iff.mpr hle)]; decide)]
      exact if_pos hboth
    · rw [if_neg hself] at hpair
      cases hpair

/-- The pair a start finds is in use afterwards. -/
theorem pairInUse_of_ok {disk' : Disk} (hauto : cfg.Auto)
    (h : certPaths m cfg disk = (.ok paths, disk')) : pairInUse cfg disk' = some paths := by
  rw [certPaths_auto hauto] at h
  unfold pairInUse
  by_cases hle : bothExist cfg.letsEncrypt disk = true
  · rw [if_pos hle] at h
    obtain ⟨hpaths, rfl⟩ := Prod.mk.inj h
    obtain rfl := Except.ok.inj hpaths
    rw [if_pos hle]
  · rw [if_neg hle] at h
    by_cases henabled : cfg.tls.selfSignedEnabled = true
    · rw [if_pos henabled] at h
      have hcases := generateSelfSigned_cases m cfg.host.toList cfg.dnssecKeys.keysDir.toList disk
      rw [h] at hcases
      obtain ⟨rfl, hboth⟩ := hcases.ok rfl
      have hsame : bothExist cfg.letsEncrypt disk' = bothExist cfg.letsEncrypt disk :=
        bothExist_congr (hcases.letsEncrypt (.inl rfl)) (hcases.letsEncrypt (.inr rfl))
      rw [if_neg (by rw [hsame]; exact hle), if_pos]
      · rfl
      · exact Bool.and_eq_true_iff.mpr ⟨henabled, hboth⟩
    · rw [if_neg henabled] at h
      cases h

end InUse

/-! ## Runs -/

/-- What happens to the files: a start of the server, or something else changes a file. -/
inductive TlsAct
  | start (m : CertMachine) (cfg : TlsSettings)
  | outside (path : Text) (content : Option (Option Text))

/-- The files after an act. -/
def TlsAct.files (lib : TlsLib) (disk : Disk) : TlsAct → Disk
  | .start m cfg => (certResolver lib m cfg disk).2
  | .outside path content => Function.update disk path content

/-- The four files in which a configuration looks for its pair. -/
def TlsSettings.files (cfg : TlsSettings) : List Text :=
  [cfg.letsEncrypt.1, cfg.letsEncrypt.2, cfg.selfSigned.1, cfg.selfSigned.2]

/-- Only starts of the server change these files. -/
def TlsAct.Spares (cfg : TlsSettings) : TlsAct → Prop
  | .start _ _ => True
  | .outside path _ => path ∉ cfg.files

/-- The files after a start are those `generate_self_signed` leaves, if it comes to it. -/
theorem certResolver_files (lib : TlsLib) (m : CertMachine) (cfg : TlsSettings) (disk : Disk) :
    (certResolver lib m cfg disk).2 = disk ∨
      (certResolver lib m cfg disk).2 =
        (generateSelfSigned m cfg.host.toList cfg.dnssecKeys.keysDir.toList disk).2 := by
  unfold certResolver
  by_cases hlisten : cfg.hasTlsListeners = true
  · rw [if_pos hlisten]
    show (certPaths m cfg disk).2 = disk ∨ (certPaths m cfg disk).2 = _
    unfold certPaths
    split
    · exact .inl rfl
    · by_cases henabled : cfg.tls.selfSignedEnabled = true
      · rw [if_pos henabled]
        exact .inr rfl
      · rw [if_neg henabled]
        exact .inl rfl
  · rw [if_neg hlisten]
    exact .inl rfl

/-- A pair is in use, with the content it had. -/
structure Settled (cfg : TlsSettings) (paths : Text × Text) (disk disk' : Disk) : Prop where
  inUse : pairInUse cfg disk' = some paths
  cert : disk' paths.1 = disk paths.1
  key : disk' paths.2 = disk paths.2

/-- What a step does to a file of Let's Encrypt, or of a complete pair. -/
theorem files_step (lib : TlsLib) {cfg : TlsSettings} {disk : Disk} {act : TlsAct}
    (hact : act.Spares cfg) {p : Text}
    (hp : (p = cfg.letsEncrypt.1 ∨ p = cfg.letsEncrypt.2) ∨
      bothExist cfg.selfSigned disk = true ∧ (p = cfg.selfSigned.1 ∨ p = cfg.selfSigned.2)) :
    act.files lib disk p = disk p := by
  cases act with
  | start m cfg' =>
    rcases certResolver_files lib m cfg' disk with hdisk | hdisk
    · exact congrFun hdisk p
    · have hcases := generateSelfSigned_cases m cfg'.host.toList cfg'.dnssecKeys.keysDir.toList disk
      show (certResolver lib m cfg' disk).2 p = disk p
      rw [hdisk]
      rcases hp with hle | ⟨hboth, hself⟩
      · exact hcases.letsEncrypt hle
      · exact hcases.complete hboth hself
  | outside path content =>
    refine Function.update_of_ne ?_ _ _
    rintro rfl
    refine hact ?_
    unfold TlsSettings.files
    rcases hp with (rfl | rfl) | ⟨-, rfl | rfl⟩
    all_goals simp

/-- **One step.** -/
theorem settled_step {lib : TlsLib} {cfg : TlsSettings} {paths : Text × Text} {disk disk' : Disk}
    (h : Settled cfg paths disk disk') {act : TlsAct} (hact : act.Spares cfg) :
    Settled cfg paths disk (act.files lib disk') := by
  have hle : bothExist cfg.letsEncrypt (act.files lib disk') = bothExist cfg.letsEncrypt disk' :=
    bothExist_congr (files_step lib hact (.inl (.inl rfl))) (files_step lib hact (.inl (.inr rfl)))
  have hinUse := h.inUse
  unfold pairInUse at hinUse
  by_cases hthere : bothExist cfg.letsEncrypt disk' = true
  · rw [if_pos hthere] at hinUse
    obtain rfl := Option.some.inj hinUse
    refine ⟨if_pos (hle.trans hthere), ?_, ?_⟩
    · rw [files_step lib hact (.inl (.inl rfl)), h.cert]
    · rw [files_step lib hact (.inl (.inr rfl)), h.key]
  · rw [if_neg hthere] at hinUse
    by_cases hself : (cfg.tls.selfSignedEnabled && bothExist cfg.selfSigned disk') = true
    · rw [if_pos hself] at hinUse
      obtain rfl := Option.some.inj hinUse
      obtain ⟨henabled, hboth⟩ := Bool.and_eq_true_iff.mp hself
      have hcert := files_step lib hact (.inr ⟨hboth, .inl rfl⟩)
      have hkey := files_step lib hact (.inr ⟨hboth, .inr rfl⟩)
      refine ⟨?_, hcert.trans h.cert, hkey.trans h.key⟩
      unfold pairInUse
      rw [if_neg (hle ▸ hthere), bothExist_congr hcert hkey, if_pos hself]
    · rw [if_neg hself] at hinUse
      cases hinUse

/-- The files after a run. -/
def tlsRun (lib : TlsLib) (acts : List TlsAct) (disk : Disk) : Disk :=
  acts.foldl (TlsAct.files lib) disk

/-- **A run.** -/
theorem settled_run {lib : TlsLib} {cfg : TlsSettings} {paths : Text × Text} {disk disk' : Disk}
    (h : Settled cfg paths disk disk') {acts : List TlsAct} (hacts : ∀ act ∈ acts, act.Spares cfg) :
    Settled cfg paths disk (tlsRun lib acts disk') :=
  List.foldlRecOn acts (TlsAct.files lib) h fun _ hdisk act hact =>
    settled_step hdisk (hacts act hact)

/-! ## The certificate -/

/-- `load_tls_cert` reads two files. -/
theorem loadTlsCert_congr {lib : TlsLib} {paths : Text × Text} {disk disk' : Disk}
    (hcert : disk' paths.1 = disk paths.1) (hkey : disk' paths.2 = disk paths.2) :
    loadTlsCert lib paths.1 paths.2 disk' = loadTlsCert lib paths.1 paths.2 disk := by
  unfold loadTlsCert
  rw [hcert, hkey]

/-- What is presented was loaded from the pair in use. -/
theorem certResolver_some {lib : TlsLib} {m : CertMachine} {cfg : TlsSettings} {disk disk' : Disk}
    {ck : CertifiedKey} (h : certResolver lib m cfg disk = (.ok (some ck), disk')) :
    ∃ paths, certPaths m cfg disk = (.ok paths, disk') ∧
      loadTlsCert lib paths.1 paths.2 disk' = .ok ck := by
  unfold certResolver at h
  by_cases hlisten : cfg.hasTlsListeners = true
  · rw [if_pos hlisten] at h
    obtain ⟨hck, hdisk⟩ := Prod.mk.inj h
    obtain ⟨paths, hpaths, hload⟩ := bind_eq_ok hck
    refine ⟨paths, Prod.ext hpaths hdisk, ?_⟩
    rw [hdisk] at hload
    cases hfound : loadTlsCert lib paths.1 paths.2 disk' with
    | error e =>
      rw [hfound] at hload
      cases hload
    | ok found =>
      rw [hfound] at hload
      obtain rfl := Option.some.inj (Except.ok.inj hload)
      rfl
  · rw [if_neg hlisten] at h
    obtain ⟨hck, -⟩ := Prod.mk.inj h
    cases hck

/-- Two configurations look for the certificate in the same places. -/
structure TlsSettings.SameTls (cfg cfg' : TlsSettings) : Prop where
  host : cfg'.host = cfg.host
  tls : cfg'.tls = cfg.tls
  keysDir : cfg'.dnssecKeys.keysDir = cfg.dnssecKeys.keysDir

/-- A Let's Encrypt pair is there after a run when it was before. -/
theorem letsEncrypt_run {lib : TlsLib} {cfg : TlsSettings} {acts : List TlsAct}
    (hacts : ∀ act ∈ acts, act.Spares cfg) (disk : Disk) :
    bothExist cfg.letsEncrypt (tlsRun lib acts disk) = bothExist cfg.letsEncrypt disk :=
  List.foldlRecOn acts (TlsAct.files lib)
    (motive := fun disk' => bothExist cfg.letsEncrypt disk' = bothExist cfg.letsEncrypt disk) rfl
    fun _ hdisk act hact => (bothExist_congr (files_step lib (hacts act hact) (.inl (.inl rfl)))
      (files_step lib (hacts act hact) (.inl (.inr rfl)))).trans hdisk

/-- **The certificate stays.** A start has presented a certificate that was not configured. As long as
only starts of the server, with whatever configurations, change the four files it could be in, every
later start presents it again. For a self-signed pair its directory is created first, which succeeds
where it is there. -/
theorem same_certificate {lib : TlsLib} {m m' : CertMachine} {cfg cfg' : TlsSettings}
    {disk disk₁ : Disk} {ck : CertifiedKey} {acts : List TlsAct} (hauto : cfg.Auto)
    (hfirst : certResolver lib m cfg disk = (.ok (some ck), disk₁))
    (hacts : ∀ act ∈ acts, act.Spares cfg) (hsame : cfg.SameTls cfg')
    (hlisten : cfg'.hasTlsListeners = true)
    (hdir : bothExist cfg.letsEncrypt disk₁ = false →
      m'.createDirAll (selfSignedDir cfg.host.toList cfg.dnssecKeys.keysDir.toList) = true) :
    certResolver lib m' cfg' (tlsRun lib acts disk₁) = (.ok (some ck), tlsRun lib acts disk₁) := by
  obtain ⟨paths, hpaths, hload⟩ := certResolver_some hfirst
  have hsettled : Settled cfg paths disk₁ (tlsRun lib acts disk₁) :=
    settled_run ⟨pairInUse_of_ok hauto hpaths, rfl, rfl⟩ hacts
  have hpair : pairInUse cfg' (tlsRun lib acts disk₁) = some paths := by
    rw [← hsettled.inUse]
    unfold pairInUse TlsSettings.letsEncrypt TlsSettings.selfSigned
    rw [hsame.host, hsame.tls, hsame.keysDir]
  have hauto' : cfg'.Auto := by
    unfold TlsSettings.Auto
    rw [hsame.tls]
    exact hauto
  have hplaces : cfg'.letsEncrypt = cfg.letsEncrypt := by
    unfold TlsSettings.letsEncrypt
    rw [hsame.host, hsame.tls]
  have hagain : certPaths m' cfg' (tlsRun lib acts disk₁) = (.ok paths, tlsRun lib acts disk₁) := by
    refine certPaths_of_inUse hauto' hpair fun hnone => ?_
    rw [hplaces, letsEncrypt_run hacts] at hnone
    rw [hsame.host, hsame.keysDir, hdir hnone]
  unfold certResolver
  rw [if_pos hlisten, hagain]
  show ((loadTlsCert lib paths.1 paths.2 (tlsRun lib acts disk₁)).map some, _) = _
  rw [loadTlsCert_congr hsettled.cert hsettled.key, hload]
  rfl

/-- Every text is a certificate and a key, and all go together. -/
def sampleTls : TlsLib where
  certChain text := some [[UInt8.ofNat text.length]]
  privateKey text := some [UInt8.ofNat text.length]
  fromDer _ _ := true

/-- Everything is written. -/
def sampleMachine : CertMachine where
  createDirAll _ := true
  generate host := .ok ⟨host, host⟩
  certWrite := .done
  keyWrite := .done

/-- A DoT listener with a self-signed certificate. -/
def selfSignedSettings (host : String) : TlsSettings :=
  { host := host, listenTls := ["0.0.0.0:853"], tls := { selfSigned := true }
    dnssecKeys := { keysDir := "keys" } }

/-- A server for another host has come and gone between the two starts. -/
theorem same_certificate_example :
    ∃ disk₁ ck,
      certResolver sampleTls sampleMachine (selfSignedSettings "localhost") (fun _ => none) =
        (.ok (some ck), disk₁) ∧
      certResolver sampleTls sampleMachine (selfSignedSettings "localhost")
          (tlsRun sampleTls [.start sampleMachine (selfSignedSettings "example.org")] disk₁) =
        (.ok (some ck),
          tlsRun sampleTls [.start sampleMachine (selfSignedSettings "example.org")] disk₁) := by
  let disk₁ := (certResolver sampleTls sampleMachine (selfSignedSettings "localhost")
    fun _ => none).2
  have hok : (certResolver sampleTls sampleMachine (selfSignedSettings "localhost")
      fun _ => none).1 = .ok (some ⟨[[9]], [9]⟩) := by
    decide +kernel
  have hfirst : certResolver sampleTls sampleMachine (selfSignedSettings "localhost")
      (fun _ => none) = (.ok (some ⟨[[9]], [9]⟩), disk₁) := Prod.ext hok rfl
  have hspares : ∀ act ∈ [TlsAct.start sampleMachine (selfSignedSettings "example.org")],
      act.Spares (selfSignedSettings "localhost") := by
    intro act hact
    obtain rfl := List.mem_singleton.mp hact
    trivial
  exact ⟨disk₁, _, hfirst, same_certificate (.inl rfl) hfirst hspares ⟨rfl, rfl, rfl⟩ rfl
    fun _ => rfl⟩

/-! ## The generations -/

/-- Where a key is, its certificate is: the two of one generation. -/
def OneGeneration (made : PemPair → Prop) (disk : Disk) : Prop :=
  ∀ dir, disk (keyFile dir) ≠ none → ∃ pair, made pair ∧
    disk (certFile dir) = some (some pair.cert) ∧ disk (keyFile dir) = some (some pair.key)

/-- The act may make this pair. -/
def TlsAct.Makes (pair : PemPair) : TlsAct → Prop
  | .start m cfg => m.generate (trimEndDots cfg.host.toList) = .ok pair
  | .outside _ _ => False

/-- No key is cut short, and nothing else touches a self-signed pair. -/
def TlsAct.Careful : TlsAct → Prop
  | .start m _ => ∀ len, m.keyWrite ≠ .cut len
  | .outside path _ => ∀ dir, path ≠ certFile dir ∧ path ≠ keyFile dir

/-- A key that is new was written, after its certificate. -/
theorem Generation.new_key {m : CertMachine} {host outDir dir : Text} {disk : Disk}
    {r : Except CertError (Text × Text) × Disk} (h : Generation m host outDir disk r)
    (hwhole : ∀ len, m.keyWrite ≠ .cut len) (hbefore : disk (keyFile dir) = none)
    (hafter : r.2 (keyFile dir) ≠ none) :
    ∃ pair, m.generate (trimEndDots host) = .ok pair ∧
      r.2 (certFile dir) = some (some pair.cert) ∧ r.2 (keyFile dir) = some (some pair.key) := by
  have hsame : keyFile dir = keyFile outDir := by
    by_contra hne
    rw [h.others (certFile_ne_keyFile outDir dir).symm hne] at hafter
    exact hafter hbefore
  have hcert : certFile dir = certFile outDir := certFile_eq_iff.mpr hsame
  rw [hsame] at hbefore hafter ⊢
  rw [hcert]
  cases h with
  | noDir | kept | failed => exact absurd hbefore hafter
  | certLost pair hpair hboth =>
    refine absurd ?_ hafter
    exact (FsWrite.files_others _ _ _ (certFile_ne_keyFile outDir outDir).symm).trans hbefore
  | keyLost pair hpair hboth hlost =>
    refine absurd ?_ hafter
    cases hwrite : m.keyWrite with
    | done => exact absurd hwrite hlost
    | cut len => exact absurd hwrite (hwhole len)
    | refused =>
      exact (Function.update_of_ne (certFile_ne_keyFile outDir outDir).symm _ _).trans hbefore
  | written pair hpair hboth =>
    refine ⟨pair, hpair, ?_, Function.update_self ..⟩
    exact (Function.update_of_ne (certFile_ne_keyFile outDir outDir) _ _).trans
      (Function.update_self ..)

/-- **One step** keeps the generations apart. -/
theorem oneGeneration_step {lib : TlsLib} {made : PemPair → Prop} {disk : Disk}
    (h : OneGeneration made disk) {act : TlsAct} (hact : act.Careful)
    (hmade : ∀ pair, act.Makes pair → made pair) : OneGeneration made (act.files lib disk) := by
  intro dir hkey
  cases act with
  | start m cfg =>
    replace hkey : (certResolver lib m cfg disk).2 (keyFile dir) ≠ none := hkey
    show ∃ pair, made pair ∧ (certResolver lib m cfg disk).2 (certFile dir) = _ ∧
      (certResolver lib m cfg disk).2 (keyFile dir) = _
    rcases certResolver_files lib m cfg disk with hdisk | hdisk
    · rw [hdisk] at hkey ⊢
      exact h dir hkey
    · rw [hdisk] at hkey ⊢
      have hcases := generateSelfSigned_cases m cfg.host.toList cfg.dnssecKeys.keysDir.toList disk
      by_cases hbefore : disk (keyFile dir) = none
      · obtain ⟨pair, hpair, hfiles⟩ := hcases.new_key hact hbefore hkey
        exact ⟨pair, hmade pair hpair, hfiles⟩
      · obtain ⟨pair, hpair, hcert, hkey⟩ := h dir hbefore
        have hboth : bothExist (certFile dir, keyFile dir) disk = true := by
          unfold bothExist
          rw [hcert, hkey]
          rfl
        rw [hcases.complete hboth (.inl rfl), hcases.complete hboth (.inr rfl)]
        exact ⟨pair, hpair, hcert, hkey⟩
  | outside path content =>
    obtain ⟨hcert, hkeyFile⟩ := hact dir
    have hcert' : TlsAct.files lib disk (.outside path content) (certFile dir) =
        disk (certFile dir) :=
      Function.update_of_ne hcert.symm _ _
    have hkey' : TlsAct.files lib disk (.outside path content) (keyFile dir) = disk (keyFile dir) :=
      Function.update_of_ne hkeyFile.symm _ _
    rw [hkey'] at hkey ⊢
    rw [hcert']
    exact h dir hkey

/-- **A self-signed pair is never made of two generations.** No key was there at first. However starts
with whatever configurations, also failing ones, and other changes of files follow each other, as
long as no key is cut short, a pair that is there is one that rcgen made. -/
theorem self_signed_one_generation {lib : TlsLib} {acts : List TlsAct} {disk : Disk}
    (hnone : ∀ dir, disk (keyFile dir) = none) (hacts : ∀ act ∈ acts, act.Careful) (dir : Text)
    (hkey : tlsRun lib acts disk (keyFile dir) ≠ none) :
    ∃ pair, (∃ act ∈ acts, act.Makes pair) ∧
      tlsRun lib acts disk (certFile dir) = some (some pair.cert) ∧
      tlsRun lib acts disk (keyFile dir) = some (some pair.key) := by
  have hrun : OneGeneration (fun pair => ∃ act ∈ acts, act.Makes pair) (tlsRun lib acts disk) :=
    List.foldlRecOn acts (TlsAct.files lib) (fun dir hthere => absurd (hnone dir) hthere)
      fun disk' hdisk act hact =>
        oneGeneration_step hdisk (hacts act hact) fun pair hpair => ⟨act, hact, hpair⟩
  exact hrun dir hkey

theorem self_signed_one_generation_example :
    ∃ pair : PemPair,
      tlsRun sampleTls [.start sampleMachine (selfSignedSettings "localhost")] (fun _ => none)
        (certFile "keys/self_signed/localhost".toList) = some (some pair.cert) := by
  have hkey : tlsRun sampleTls [.start sampleMachine (selfSignedSettings "localhost")] (fun _ => none)
      (keyFile "keys/self_signed/localhost".toList) ≠ none := by
    decide +kernel
  have hcareful : ∀ act ∈ [TlsAct.start sampleMachine (selfSignedSettings "localhost")],
      act.Careful := by
    intro act hact
    obtain rfl := List.mem_singleton.mp hact
    intro len h
    cases h
  obtain ⟨pair, -, hcert, -⟩ := self_signed_one_generation (fun _ => rfl) hcareful _ hkey
  exact ⟨pair, hcert⟩

end Heimdallr.Net
