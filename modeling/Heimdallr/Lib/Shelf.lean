import Mathlib.Data.List.AList

/-!
# Shelves

A shelf keeps values under distinct keys in the order they were put there, the newest first, and has
room for `capacity` of them. Putting one more on a full shelf takes the oldest off, also when it
takes the place of a value that is on the shelf already. That the keys are distinct and there is
room for all of them is part of the type, so an overfull shelf cannot be built.

* `push`, `touch`, `keep`: put a value on, change a value where it stands, take some off.
* `find_push`, `find_touch`, `find_keep` and `keys_push`, `keys_touch`, `keys_keep`: what is found,
  and in which order, afterwards. These two determine a shelf, and its users need nothing else.
-/

namespace Heimdallr.Lib

/-- Values under distinct keys, the newest first, never more than there is room for. -/
structure Shelf (κ ν : Type) where
  capacity : Nat
  items : AList fun _ : κ => ν
  pos : 1 ≤ capacity
  bound : items.keys.length ≤ capacity

namespace Shelf

variable {κ ν : Type}

/-! ## Lists of items -/

theorem nodupKeys_filter (m : AList fun _ : κ => ν) (p : κ → ν → Bool) :
    (m.entries.filter fun x => p x.1 x.2).NodupKeys :=
  m.nodupKeys.sublist List.filter_sublist

/-- The items for which `p` holds. -/
def filterItems (p : κ → ν → Bool) (m : AList fun _ : κ => ν) : AList fun _ : κ => ν :=
  ⟨m.entries.filter fun x => p x.1 x.2, nodupKeys_filter m p⟩

theorem keys_map (f : κ → ν → ν) (m : AList fun _ : κ => ν) :
    (m.entries.map fun x => (⟨x.1, f x.1 x.2⟩ : Σ _ : κ, ν)).keys = m.keys := by
  unfold List.keys AList.keys List.keys
  rw [List.map_map]
  rfl

theorem nodupKeys_map (f : κ → ν → ν) (m : AList fun _ : κ => ν) :
    (m.entries.map fun x => (⟨x.1, f x.1 x.2⟩ : Σ _ : κ, ν)).NodupKeys := by
  unfold List.NodupKeys
  rw [keys_map]
  exact m.keys_nodup

/-- Every value changed where it stands. -/
def mapItems (f : κ → ν → ν) (m : AList fun _ : κ => ν) : AList fun _ : κ => ν :=
  ⟨m.entries.map fun x => ⟨x.1, f x.1 x.2⟩, nodupKeys_map f m⟩

theorem keys_mapItems (f : κ → ν → ν) (m : AList fun _ : κ => ν) :
    (mapItems f m).keys = m.keys := keys_map f m

theorem mapItems_bound (s : Shelf κ ν) (f : κ → ν → ν) :
    (mapItems f s.items).keys.length ≤ s.capacity := by
  rw [keys_mapItems]
  exact s.bound

theorem filterItems_bound (s : Shelf κ ν) (p : κ → ν → Bool) :
    (filterItems p s.items).keys.length ≤ s.capacity :=
  Nat.le_trans (List.filter_sublist.map Sigma.fst).length_le s.bound

variable [DecidableEq κ]

theorem lookup_filterItems (p : κ → ν → Bool) (m : AList fun _ : κ => ν) (k : κ) :
    (filterItems p m).lookup k = (m.lookup k).filter (p k) := by
  refine Option.ext fun v => ?_
  rw [Option.filter_eq_some_iff, ← Option.mem_def, AList.mem_lookup_iff, ← Option.mem_def,
    AList.mem_lookup_iff]
  exact List.mem_filter

theorem lookup_mapItems (f : κ → ν → ν) (m : AList fun _ : κ => ν) (k : κ) :
    (mapItems f m).lookup k = (m.lookup k).map (f k) := List.dlookup_map₂ k

/-- The items without the oldest. -/
def dropOldest (m : AList fun _ : κ => ν) : AList fun _ : κ => ν :=
  match m.keys.getLast? with
  | some k => m.erase k
  | none => m

/-! ## Operations -/

/-- An empty shelf. -/
def empty (capacity : Nat) (h : 1 ≤ capacity) : Shelf κ ν := ⟨capacity, ∅, h, Nat.zero_le _⟩

/-- The value under a key. -/
def find (s : Shelf κ ν) (k : κ) : Option ν := s.items.lookup k

/-- The keys, the newest first. -/
def keys (s : Shelf κ ν) : List κ := s.items.keys

/-- There is no place for one more item. -/
def isFull (s : Shelf κ ν) : Bool := decide (s.capacity ≤ s.keys.length)

/-- The items that stay when one more is put on. -/
def room (s : Shelf κ ν) : AList fun _ : κ => ν :=
  if s.isFull then dropOldest s.items else s.items

theorem keys_dropOldest (m : AList fun _ : κ => ν) : (dropOldest m).keys = m.keys.dropLast := by
  unfold dropOldest
  cases h : m.keys.getLast? with
  | none =>
    rw [List.getLast?_eq_none_iff.mp h]
    rfl
  | some k =>
    obtain ⟨ks, hks⟩ := List.getLast?_eq_some_iff.mp h
    have hnd := m.keys_nodup
    rw [hks] at hnd
    dsimp only
    rw [AList.keys_erase, hks, List.dropLast_concat, List.erase_append_right]
    · simp
    · exact fun hk => (List.nodup_append.mp hnd).2.2 k hk k (by simp) rfl

/-- The keys that stay. -/
theorem keys_room (s : Shelf κ ν) :
    s.room.keys = if s.isFull then s.keys.dropLast else s.keys := by
  unfold room
  split
  · exact keys_dropOldest s.items
  · rfl

theorem length_room_lt (s : Shelf κ ν) : s.room.keys.length < s.capacity := by
  have hpos := s.pos
  have hbound := s.bound
  rw [keys_room]
  unfold isFull keys
  split
  · rw [List.length_dropLast]
    omega
  · rename_i hroom
    rw [decide_eq_true_eq] at hroom
    omega

theorem push_bound (s : Shelf κ ν) (k : κ) (v : ν) :
    (s.room.insert k v).keys.length ≤ s.capacity := by
  have hlt := s.length_room_lt
  have hle := List.length_erase_le (a := k) (l := s.room.keys)
  rw [AList.keys_insert, List.length_cons]
  omega

/-- Put a value on. -/
def push (s : Shelf κ ν) (k : κ) (v : ν) : Shelf κ ν :=
  ⟨s.capacity, s.room.insert k v, s.pos, s.push_bound k v⟩

/-- Change the value under a key where it stands. -/
def touch (s : Shelf κ ν) (k : κ) (f : ν → ν) : Shelf κ ν :=
  ⟨s.capacity, mapItems (fun k' v => if k' = k then f v else v) s.items, s.pos, s.mapItems_bound _⟩

/-- Keep the values for which `p` holds. -/
def keep (s : Shelf κ ν) (p : κ → ν → Bool) : Shelf κ ν :=
  ⟨s.capacity, filterItems p s.items, s.pos, s.filterItems_bound p⟩

/-! ## What is found afterwards -/

theorem find_room (s : Shelf κ ν) (k : κ) :
    s.room.lookup k = if s.isFull ∧ s.keys.getLast? = some k then none else s.find k := by
  unfold room
  cases s.isFull with
  | false => simp [find]
  | true =>
    simp only [if_true, true_and]
    unfold dropOldest find keys
    cases h : s.items.keys.getLast? with
    | none => simp
    | some oldest =>
      dsimp only
      by_cases hk : k = oldest
      · subst hk
        rw [AList.lookup_erase, if_pos rfl]
      · rw [AList.lookup_erase_ne hk, if_neg (by simpa using Ne.symm hk)]

theorem find_push (s : Shelf κ ν) (k : κ) (v : ν) (k' : κ) :
    (s.push k v).find k' = if k' = k then some v else s.room.lookup k' := by
  by_cases hk : k' = k
  · subst hk
    rw [if_pos rfl]
    exact AList.lookup_insert _
  · rw [if_neg hk]
    exact AList.lookup_insert_ne hk

theorem keys_push (s : Shelf κ ν) (k : κ) (v : ν) :
    (s.push k v).keys = k :: s.room.keys.erase k := AList.keys_insert _

theorem find_touch (s : Shelf κ ν) (k : κ) (f : ν → ν) (k' : κ) :
    (s.touch k f).find k' = (s.find k').map fun v => if k' = k then f v else v :=
  lookup_mapItems _ s.items k'

theorem keys_touch (s : Shelf κ ν) (k : κ) (f : ν → ν) : (s.touch k f).keys = s.keys :=
  keys_mapItems _ s.items

theorem find_keep (s : Shelf κ ν) (p : κ → ν → Bool) (k : κ) :
    (s.keep p).find k = (s.find k).filter (p k) := lookup_filterItems p s.items k

/-- What is kept stays in its order. -/
theorem keys_keep (s : Shelf κ ν) (p : κ → ν → Bool) :
    (s.keep p).keys = s.keys.filter fun k => ((s.find k).filter (p k)).isSome := by
  show (s.items.entries.filter _).map Sigma.fst = (s.items.entries.map Sigma.fst).filter _
  rw [List.filter_map]
  congr 1
  refine List.filter_congr fun x hx => ?_
  have hfind : s.find x.1 = some x.2 := AList.mem_lookup_iff.mpr hx
  simp only [Function.comp_apply, hfind]
  cases hp : p x.1 x.2 with
  | true => simp [hp]
  | false => simp [hp]

end Shelf

end Heimdallr.Lib
