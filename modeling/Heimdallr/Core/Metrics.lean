import Heimdallr.Core.Accounting
import Heimdallr.Net.Addr

/-!
# The metrics registry and its export (`core/metrics/mod.rs`)

The registry is a map of 64-bit counters, and `GET /metrics` is its text form: three lines for each
counter, two of them comments. `Metrics` has the counters as numbers, as the rest of this
development reads them; a registry shows such a table when it agrees with it modulo 2^64.

* `AtomicU64::fetch_add` wraps, and so does `UInt64` here. An operation on a counter is one step;
  the orderings of the atomics do not matter for counters that are read one by one.
* The registry is a partial map, as in the source: `increment` adds a counter that is not there,
  `read` gives zero for it, and `new` puts all of them in.
* Only the counters that a modelled function increments are named (`MetricName`); the others would
  be zero in every run of the model.

`scrape` is what a scraper makes of a text: it skips comments and takes the name and the number of
every other line. It is not code of the repository, and it does not look at how the text was made.

Results:
* `scrape_serialize`: it reads every counter, with its value.
* `Shows.increment`: the registry follows the table.
* **`scrape_run`**: what a scrape shows after any sequence of increments and resets.
-/

namespace Heimdallr

open Lib Heimdallr.Net

/-! ## Names -/

namespace MetricName

/-- The names `new` and `serialize` go through, in this order. -/
def all : List MetricName :=
  [CacheHitsTotal, CacheMissesTotal, QueriesTotal, BlockedTotal, Dns64SynthesizedTotal,
    QminStepsTotal, CnameChainTruncatedTotal, RebindingDetectedTotal]

/-- `label`. -/
def label : MetricName → String
  | CacheHitsTotal => "cache_hits_total"
  | CacheMissesTotal => "cache_misses_total"
  | QueriesTotal => "queries_total"
  | BlockedTotal => "blocked_total"
  | Dns64SynthesizedTotal => "dns64_synthesized_total"
  | QminStepsTotal => "qmin_steps_total"
  | CnameChainTruncatedTotal => "cname_chain_truncated_total"
  | RebindingDetectedTotal => "rebinding_detected_total"

/-- `metric_type`. -/
def metricType : MetricName → String := fun _ => "counter"

/-- `description`. -/
def description : MetricName → String
  | CacheHitsTotal => "Total cache hits"
  | CacheMissesTotal => "Total cache misses"
  | QueriesTotal => "Total queries (optional qtype label)"
  | BlockedTotal => "Total blocked queries"
  | Dns64SynthesizedTotal => "Total synthesized AAAA from A"
  | QminStepsTotal => "Total QNAME minimization steps"
  | CnameChainTruncatedTotal => "Total truncated CNAME chains"
  | RebindingDetectedTotal => "Total rebinding detections"

end MetricName

/-! ## The registry -/

/-- `MetricsRegistry`. -/
structure MetricsRegistry where
  counters : MetricName → Option UInt64

namespace MetricsRegistry

/-- The derived `Default`: a map without a counter. -/
def default : MetricsRegistry := ⟨fun _ => none⟩

/-- `HashMap::insert`. -/
def insert (r : MetricsRegistry) (name : MetricName) (value : UInt64) : MetricsRegistry :=
  ⟨fun n => if n = name then some value else r.counters n⟩

/-- `MetricsRegistry::new`. -/
def new : MetricsRegistry := MetricName.all.foldl (fun r name => r.insert name 0) default

/-- `increment`: nothing is counted for a name that is not there. -/
def increment (r : MetricsRegistry) (name : MetricName) (delta : UInt64) : MetricsRegistry :=
  match r.counters name with
  | some counter => r.insert name (counter + delta)
  | none => r

/-- `read`. -/
def read (r : MetricsRegistry) (name : MetricName) : UInt64 := (r.counters name).getD 0

/-- `reset`. -/
def reset (r : MetricsRegistry) : MetricsRegistry := ⟨fun n => (r.counters n).map fun _ => 0⟩

/-- `# TYPE {label} {type}` -/
def typeLine (name : MetricName) : Text :=
  "# TYPE ".toList ++ name.label.toList ++ ' ' :: name.metricType.toList

/-- `# HELP {label} {description}` -/
def helpLine (name : MetricName) : Text :=
  "# HELP ".toList ++ name.label.toList ++ ' ' :: name.description.toList

/-- `{label} {value}` -/
def valueLine (r : MetricsRegistry) (name : MetricName) : Text :=
  name.label.toList ++ ' ' :: Nat.toDigits 10 (r.read name).toNat

/-- What `serialize` appends for a counter. -/
def lines (r : MetricsRegistry) (name : MetricName) : Text :=
  typeLine name ++ ['\n'] ++ (helpLine name ++ ['\n']) ++ (r.valueLine name ++ ['\n'])

/-- `serialize`. -/
def serialize (r : MetricsRegistry) : Text :=
  MetricName.all.foldl (fun out name => out ++ r.lines name) []

/-- `new` has every counter. -/
theorem counters_new (name : MetricName) : new.counters name = some 0 := by
  cases name <;> rfl

theorem counters_increment {r : MetricsRegistry} {name : MetricName} {counter : UInt64}
    (h : r.counters name = some counter) (delta : UInt64) (n : MetricName) :
    (r.increment name delta).counters n =
      if n = name then some (counter + delta) else r.counters n := by
  unfold increment
  rw [h]
  rfl

end MetricsRegistry

/-! ## A scraper -/

/-- A line of the text: nothing of a comment, else a name and a number with a space between. -/
def sample (line : Text) : Option (Text × Nat) :=
  if line.head? = some '#' then none
  else
    match line.splitOn ' ' with
    | [name, digits] =>
      if digits ≠ [] ∧ digits.all Char.isDigit then some (name, Nat.ofDigitChars 10 digits 0)
      else none
    | _ => none

/-- The samples of a text. -/
def scrape (text : Text) : List (Text × Nat) := (text.splitOn '\n').filterMap sample

/-- The first sample of a counter. -/
def scraped (text : Text) (name : MetricName) : Option Nat :=
  (scrape text).lookup name.label.toList

theorem scrape_line {line : Text} (h : '\n' ∉ line) (rest : Text) :
    scrape (line ++ '\n' :: rest) = (sample line).toList ++ scrape rest := by
  unfold scrape
  rw [List.splitOn_append_cons_self, List.splitOn_eq_singleton h, List.filterMap_append,
    List.filterMap_cons, List.filterMap_nil]
  cases sample line <;> rfl

theorem not_mem_toDigits {c : Char} (h : c.isDigit = false) (n : Nat) : c ∉ Nat.toDigits 10 n := by
  intro hmem
  rw [Nat.isDigit_of_mem_toDigits (by decide) (by decide) hmem] at h
  cases h

/-- A number after a name is read as that number. -/
theorem sample_value {name : Text} (hhead : name.head? ≠ some '#') (hname : name ≠ [])
    (hspace : ' ' ∉ name) (n : Nat) : sample (name ++ ' ' :: Nat.toDigits 10 n) = some (name, n) := by
  have hpieces : (name ++ ' ' :: Nat.toDigits 10 n).splitOn ' ' = [name, Nat.toDigits 10 n] := by
    rw [List.splitOn_append_cons_self, List.splitOn_eq_singleton hspace,
      List.splitOn_eq_singleton (not_mem_toDigits (by decide) n)]
    rfl
  have hdigits : Nat.toDigits 10 n ≠ [] ∧ (Nat.toDigits 10 n).all Char.isDigit := by
    refine ⟨Nat.toDigits_ne_nil, List.all_eq_true.mpr fun c hc => ?_⟩
    exact Nat.isDigit_of_mem_toDigits (by decide) (by decide) hc
  have hnocomment : (name ++ ' ' :: Nat.toDigits 10 n).head? ≠ some '#' := by
    rw [List.head?_append_of_ne_nil _ hname]
    exact hhead
  unfold sample
  rw [if_neg hnocomment, hpieces]
  dsimp only
  rw [if_pos hdigits, Nat.ofDigitChars_ten_toDigits]

/-- What is read of the lines of one counter. -/
theorem scrape_lines (r : MetricsRegistry) (name : MetricName) (rest : Text) :
    scrape (r.lines name ++ rest) = (name.label.toList, (r.read name).toNat) :: scrape rest := by
  have htype : '\n' ∉ MetricsRegistry.typeLine name ∧
      sample (MetricsRegistry.typeLine name) = none := by
    cases name <;> decide
  have hhelp : '\n' ∉ MetricsRegistry.helpLine name ∧
      sample (MetricsRegistry.helpLine name) = none := by
    cases name <;> decide
  have hlabel : name.label.toList.head? ≠ some '#' ∧ name.label.toList ≠ [] ∧
      ' ' ∉ name.label.toList ∧ '\n' ∉ name.label.toList := by
    cases name <;> decide
  have hvalue : '\n' ∉ r.valueLine name := by
    unfold MetricsRegistry.valueLine
    simp [hlabel.2.2.2, not_mem_toDigits]
  have hsample : sample (r.valueLine name) = some (name.label.toList, (r.read name).toNat) :=
    sample_value hlabel.1 hlabel.2.1 hlabel.2.2.1 _
  have hlines : r.lines name ++ rest = MetricsRegistry.typeLine name ++ '\n' ::
      (MetricsRegistry.helpLine name ++ '\n' :: (r.valueLine name ++ '\n' :: rest)) := by
    simp [MetricsRegistry.lines]
  rw [hlines, scrape_line htype.1, scrape_line hhelp.1, scrape_line hvalue, htype.2, hhelp.2, hsample]
  rfl

/-- **The export is read back**: every counter, in order, with its value. -/
theorem scrape_serialize (r : MetricsRegistry) :
    scrape r.serialize = MetricName.all.map fun name => (name.label.toList, (r.read name).toNat) := by
  have hlines : ∀ names : List MetricName, scrape (names.flatMap r.lines) =
      names.map fun name => (name.label.toList, (r.read name).toNat) := by
    intro names
    induction names with
    | nil => rfl
    | cons name names ih => rw [List.flatMap_cons, scrape_lines, ih, List.map_cons]
  rw [← hlines, List.flatMap_eq_foldl]
  rfl

/-! ## The registry and the table -/

namespace MetricsRegistry

/-- The registry has the counters of the table, modulo 2^64. -/
def Shows (r : MetricsRegistry) (m : Metrics) : Prop :=
  ∀ name, r.counters name = some (UInt64.ofNat (m name))

theorem shows_new : new.Shows fun _ => 0 := counters_new

namespace Shows

variable {r : MetricsRegistry} {m : Metrics}

theorem increment (h : r.Shows m) (name : MetricName) (delta : UInt64) :
    (r.increment name delta).Shows (m.increment name delta.toNat) := by
  intro n
  rw [counters_increment (h name) delta n]
  unfold Metrics.increment
  by_cases hn : n = name
  · rw [if_pos hn, if_pos hn, hn, UInt64.ofNat_add, UInt64.ofNat_toNat]
  · rw [if_neg hn, if_neg hn]
    exact h n

theorem reset (h : r.Shows m) : r.reset.Shows fun _ => 0 := by
  intro n
  show (r.counters n).map _ = _
  rw [h n]
  rfl

/-- What a scrape shows of the table. -/
theorem scrape_eq (h : r.Shows m) :
    scrape r.serialize = MetricName.all.map fun name => (name.label.toList, m name % 2 ^ 64) := by
  rw [scrape_serialize]
  refine List.map_congr_left fun name _ => ?_
  unfold read
  rw [h name, Option.getD_some, UInt64.toNat_ofNat']

/-- A counter is found under its label. -/
theorem scraped_eq (h : r.Shows m) (name : MetricName) :
    scraped r.serialize name = some (m name % 2 ^ 64) := by
  unfold scraped
  rw [h.scrape_eq]
  cases name <;> rfl

end Shows

end MetricsRegistry

/-! ## Runs -/

/-- A call that changes the registry. -/
inductive RegistryCall
  | increment (name : MetricName) (delta : UInt64)
  | reset
  deriving DecidableEq

namespace RegistryCall

/-- The registry after a call. -/
def apply (r : MetricsRegistry) : RegistryCall → MetricsRegistry
  | increment name delta => r.increment name delta
  | reset => r.reset

/-- What a call adds to a counter. -/
def adds (name : MetricName) : RegistryCall → Nat
  | increment n delta => if n = name then delta.toNat else 0
  | reset => 0

end RegistryCall

/-- The calls after the last reset, the latest first. -/
def sinceReset (calls : List RegistryCall) : List RegistryCall :=
  calls.reverse.takeWhile (· ≠ .reset)

/-- What was added to a counter since the last reset. -/
def addedSince (calls : List RegistryCall) : Metrics :=
  fun name => ((sinceReset calls).map (RegistryCall.adds name)).sum

theorem addedSince_concat (calls : List RegistryCall) (call : RegistryCall) (name : MetricName) :
    addedSince (calls ++ [call]) name =
      if call = .reset then 0 else call.adds name + addedSince calls name := by
  unfold addedSince sinceReset
  rw [List.reverse_concat, List.takeWhile_cons]
  by_cases hcall : call = .reset
  · simp [hcall]
  · simp [hcall]

/-- **What a scrape shows**: for every counter what was added to it since the last reset, modulo
2^64. -/
theorem scrape_run (calls : List RegistryCall) :
    scrape (calls.foldl RegistryCall.apply .new).serialize =
      MetricName.all.map fun name => (name.label.toList, addedSince calls name % 2 ^ 64) := by
  refine MetricsRegistry.Shows.scrape_eq ?_
  induction calls using List.reverseRecOn with
  | nil => exact MetricsRegistry.shows_new
  | append_singleton calls call ih =>
    rw [List.foldl_concat]
    cases call with
    | reset =>
      have hnone : addedSince (calls ++ [.reset]) = fun _ => 0 :=
        funext fun name => (addedSince_concat calls _ name).trans (if_pos rfl)
      rw [hnone]
      exact ih.reset
    | increment n delta =>
      have hmore : addedSince (calls ++ [.increment n delta]) =
          (addedSince calls).increment n delta.toNat := by
        funext name
        rw [addedSince_concat, if_neg (by simp)]
        show (if n = name then delta.toNat else 0) + addedSince calls name = _
        unfold Metrics.increment
        by_cases hname : name = n
        · rw [if_pos hname, if_pos hname.symm, Nat.add_comm]
        · rw [if_neg hname, if_neg (Ne.symm hname), Nat.zero_add]
      rw [hmore]
      exact ih.increment n delta

end Heimdallr
