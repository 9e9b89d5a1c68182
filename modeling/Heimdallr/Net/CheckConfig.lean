import Heimdallr.Net.Startup
import Heimdallr.Resolver.FromConfig
import Heimdallr.Zone.Load

/-!
# What `--check-config` promises (`Config::validate` and its consumers)

A configuration that passes `Config::validate` is said to be OK. Its values are read once more when
the server starts: `ResolverWrap::from_config` parses the forwarders, `ZoneManager::load_all`
chooses a branch for the kind of each zone and parses its name, a secondary's task parses the
addresses of its primaries, and `load_persistent_cache` multiplies the days. `validate` looks at
none of these but the kinds, and of the kinds it does not know `catalog`.

* `StartsCleanly` names the consumers one by one, by the modelled functions: it is about the values
  of the configuration, whatever files, keys and sockets there are.
* `CheckComplete`: the check and the start-up agree on a configuration. It has two halves: what is
  accepted starts cleanly, and nothing is rejected for the kind of a zone that `load_all` would
  load.

Results:
* **`check_complete_iff`**: when they do.
* `startup_goes_through`: with files, keys and sockets there, what the condition leaves is enough.

Out of scope: the sections of stubs, and whether the ports of the listeners can be bound.
-/

namespace Heimdallr.Net

open Heimdallr.Lib Heimdallr.Zone Heimdallr.Resolver Heimdallr.Config

/-- The values of `c` that the start-up steps read again are as they need them. -/
structure StartsCleanly (hk : Hickory) (env : ResolverEnv) (c : Config) : Prop where
  forwarders : ∀ f, fromConfig env c.resolver c.dnssec.validation ≠ .error (.BadForwarder f)
  kinds : ∀ zone ∈ c.zones, loadBranch zone.kind ≠ .Unknown
  names : ∀ zone ∈ c.zones, hk.fromAscii zone.name ≠ none
  primaries : ∀ zone ∈ c.zones, zone.kind = "secondary" →
    ∀ primary ∈ zone.primaries, parseSocketAddr primary.toList ≠ none
  maxAge : c.cache.persistentMaxAgeDays.toNat * 86400 < 2 ^ 64

/-- What is accepted starts cleanly, and no zone is rejected for a kind `load_all` would load. -/
structure CheckComplete (hk : Hickory) (env : ResolverEnv) (c : Config) : Prop where
  accepted : c.validate = .ok () → StartsCleanly hk env c
  rejected : ∀ name kind, c.validate = .error (.ZoneKind name kind) → ¬ (loadBranch kind).Loading

/-- The values `validate` does not look at. -/
structure UncheckedFine (hk : Hickory) (c : Config) : Prop where
  forwarders : ∀ f ∈ c.resolver.forwarders, IsSocketAddr f
  names : ∀ zone ∈ c.zones, ∃ origin, hk.fromAscii zone.name = some origin
  primaries : ∀ zone ∈ c.zones, zone.kind = "secondary" →
    ∀ primary ∈ zone.primaries, IsSocketAddr primary
  maxAge : c.cache.persistentMaxAgeDays ≤ 213503982334601

theorem isSocketAddr_iff {s : String} : IsSocketAddr s ↔ parseSocketAddr s.toList ≠ none := by
  unfold IsSocketAddr
  rw [Option.isSome_iff_ne_none]

/-- Where the product `load_persistent_cache` computes in 64 bits fits, a file is too old when it is
older than the configured days. -/
theorem tooOld_eq {cfg : CacheSettings} (hfits : cfg.persistentMaxAgeDays.toNat * 86400 < 2 ^ 64)
    {file : DiskFile} {age : Duration} (hage : file.age = some age) :
    tooOld cfg file = decide (Duration.fromSecs (cfg.persistentMaxAgeDays.toNat * 86400) < age) := by
  have hproduct : (cfg.persistentMaxAgeDays * 86400).toNat =
      cfg.persistentMaxAgeDays.toNat * 86400 := by
    rw [UInt64.toNat_mul]
    exact Nat.mod_eq_of_lt hfits
  unfold tooOld
  rw [hage, ← hproduct]

/-- Once the zones pass, a clean start is a matter of the values that are not looked at. -/
theorem startsCleanly_iff {hk : Hickory} {env : ResolverEnv} {c : Config}
    (hzones : ∀ zone ∈ c.zones, zone.Passes) : StartsCleanly hk env c ↔ UncheckedFine hk c := by
  have hdays : c.cache.persistentMaxAgeDays.toNat * 86400 < 2 ^ 64 ↔
      c.cache.persistentMaxAgeDays ≤ 213503982334601 := by
    rw [UInt64.le_iff_toNat_le]
    simp only [UInt64.reduceToNat]
    omega
  constructor
  · rintro ⟨hforwarders, -, hnames, hprimaries, hmaxAge⟩
    refine ⟨fromConfig_ne_badForwarder.mp hforwarders, ?_, ?_, hdays.mp hmaxAge⟩
    · intro zone hzone
      exact Option.ne_none_iff_exists'.mp (hnames zone hzone)
    · intro zone hzone hkind primary hprimary
      exact isSocketAddr_iff.mpr (hprimaries zone hzone hkind primary hprimary)
  · rintro ⟨hforwarders, hnames, hprimaries, hmaxAge⟩
    refine ⟨fromConfig_ne_badForwarder.mpr hforwarders, ?_, ?_, ?_, hdays.mpr hmaxAge⟩
    · intro zone hzone hunknown
      exact (loadBranch_eq_unknown.mp hunknown).1 (hzones zone hzone).kind
    · intro zone hzone
      exact Option.ne_none_iff_exists'.mpr (hnames zone hzone)
    · intro zone hzone hkind primary hprimary
      exact isSocketAddr_iff.mp (hprimaries zone hzone hkind primary hprimary)

/-- Of the kinds `validate` does not know, `load_all` loads `catalog` only. -/
theorem loading_of_notMem {kind : String} (h : kind ∉ zoneKinds) :
    (loadBranch kind).Loading ↔ kind = "catalog" := by
  rw [loadBranch_loading]
  constructor
  · rintro (rfl | rfl | rfl)
    · exact absurd h (by decide)
    · exact absurd h (by decide)
    · rfl
  · rintro rfl
    exact .inr (.inr rfl)

/-- No zone is rejected for a kind that would be loaded: no catalog zone comes after values that
all pass. -/
theorem rejected_iff {c : Config} :
    (∀ name kind, c.validate = .error (.ZoneKind name kind) → ¬ (loadBranch kind).Loading) ↔
      (c.SettingsPass → ∀ pre zone post, c.zones = pre ++ zone :: post → (∀ z ∈ pre, z.Passes) →
        zone.kind ≠ "catalog") := by
  constructor
  · intro h hsettings pre zone post hzones hpre hkind
    have hnot : zone.kind ∉ zoneKinds := by
      rw [hkind]
      decide
    have hreject : c.validate = .error (.ZoneKind zone.name zone.kind) :=
      validate_eq_zoneKind.mpr ⟨hsettings, pre, zone, post, hzones, hpre, hnot, rfl, rfl⟩
    exact h zone.name zone.kind hreject ((loading_of_notMem hnot).mpr hkind)
  · intro h name kind hreject hloading
    obtain ⟨hsettings, pre, zone, post, hzones, hpre, hnot, -, rfl⟩ :=
      validate_eq_zoneKind.mp hreject
    exact h hsettings pre zone post hzones hpre ((loading_of_notMem hnot).mp hloading)

/-- **When the check is complete for a configuration**: a value that is looked at before the zones is
rejected, or no catalog zone comes after zones that all pass, and the values that are not looked at
are fine unless a value that is looked at is rejected. -/
theorem check_complete_iff (hk : Hickory) (env : ResolverEnv) (c : Config) :
    CheckComplete hk env c ↔
      (c.SettingsPass →
        (∀ pre zone post, c.zones = pre ++ zone :: post → (∀ z ∈ pre, z.Passes) →
          zone.kind ≠ "catalog") ∧
        ((∀ zone ∈ c.zones, zone.Passes) → c.zonesDir.toList.head? = some '/' →
          UncheckedFine hk c)) := by
  constructor
  · rintro ⟨haccepted, hrejected⟩ hsettings
    refine ⟨rejected_iff.mp hrejected hsettings, ?_⟩
    intro hzones hdir
    exact (startsCleanly_iff hzones).mp (haccepted (validate_eq_ok.mpr ⟨hsettings, hzones, hdir⟩))
  · intro h
    refine ⟨?_, rejected_iff.mpr fun hsettings => (h hsettings).1⟩
    intro hok
    obtain ⟨hsettings, hzones, hdir⟩ := validate_eq_ok.mp hok
    exact (startsCleanly_iff hzones).mpr ((h hsettings).2 hzones hdir)

/-- **The condition is enough for the start**: with files, keys and sockets there, the resolver is
made, every zone is loaded and none is skipped. The RNAME of the SOA records is one more value that
is read at the start only. -/
theorem startup_goes_through {lib : ZoneLib} {signing : SigningLib} {disk : Disk} {keys : KeyFiles}
    {env : ResolverEnv} {c : Config} {rname : Name} (hok : c.validate = .ok ())
    (hfine : UncheckedFine lib.toHickory c) (hrname : lib.nameOf (configRname c) = some rname)
    (havailable : ∀ zone ∈ c.zones, Available lib signing disk keys c zone)
    (hbuilds : ∀ nameServers opts, env.builds nameServers opts = true) :
    (∃ wrap, fromConfig env c.resolver c.dnssec.validation = .ok wrap) ∧
      ∃ manager, Zone.loadAll lib signing disk c keys = .ok manager ∧ manager.skipped = [] := by
  obtain ⟨-, hzones, -⟩ := validate_eq_ok.mp hok
  refine ⟨fromConfig_ok hfine.forwarders hbuilds, loadAll_ok ?_ hrname⟩
  intro zone hzone
  exact ⟨hzones zone hzone, havailable zone hzone, hfine.names zone hzone⟩

/-- A forwarder without its port. -/
def portlessConfig : Config := { resolver := { forwarders := ["1.1.1.1"] } }

/-- A catalog zone. -/
def catalogConfig : Config :=
  { zones := [{ name := "catalog.example.", file := none, kind := "catalog",
                primaries := ["192.0.2.1:53"] }] }

/-- A server without systemd-resolved. -/
def plainEnv : ResolverEnv := ⟨false, none, fun _ _ => true⟩

/-- The forwarder is accepted and ends the start; the catalog zone is rejected. -/
theorem check_config_misses :
    ¬ CheckComplete (.knowing []) plainEnv portlessConfig ∧
      ¬ CheckComplete (.knowing []) plainEnv catalogConfig := by
  constructor
  · intro h
    have hok : portlessConfig.validate = .ok () := by decide
    have hbad : fromConfig plainEnv portlessConfig.resolver portlessConfig.dnssec.validation =
        .error (.BadForwarder "1.1.1.1") := by decide
    exact (h.accepted hok).forwarders "1.1.1.1" hbad
  · intro h
    have hreject : catalogConfig.validate = .error (.ZoneKind "catalog.example." "catalog") := by
      decide
    exact h.rejected _ _ hreject (loadBranch_loading.mpr (.inr (.inr rfl)))

end Heimdallr.Net
