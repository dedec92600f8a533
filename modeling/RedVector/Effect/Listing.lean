import Mathlib.Data.Finmap
import Mathlib.Data.List.Sort

/-!
# Listings

A hash map lists its entries in an order of its own.
-/

namespace RedVector.Effect

section

variable {α : Type} [DecidableEq α]

theorem keys_insert {β : Type} (map : Finmap fun _ : α => β) (key : α)
    (value : β) : (map.insert key value).keys = insert key map.keys := by
  ext other
  rw [Finset.mem_insert, Finmap.mem_keys, Finmap.mem_keys, Finmap.mem_insert]

/-! ## Several insertions -/

section Insertions

variable {β : Type} {map other : Finmap fun _ : α => β}
  {entries : List (α × β)} {key : α}

def insertAll (map : Finmap fun _ : α => β) (entries : List (α × β)) :
    Finmap fun _ : α => β :=
  entries.foldl (fun map entry => map.insert entry.1 entry.2) map

theorem lookup_insert (map : Finmap fun _ : α => β) (key other : α)
    (value : β) : (map.insert key value).lookup other =
      if other = key then some value else map.lookup other := by
  split
  · rename_i same
    rw [same, Finmap.lookup_insert]
  · rename_i different
    exact Finmap.lookup_insert_of_ne _ different

/-- What a key has after the insertions depends on what it had before. -/
theorem lookup_insertAll_congr (same : map.lookup key = other.lookup key) :
    (insertAll map entries).lookup key =
      (insertAll other entries).lookup key := by
  induction entries generalizing map other with
  | nil => exact same
  | cons entry entries ih =>
      apply ih
      rw [lookup_insert, lookup_insert, same]

theorem lookup_insertAll_other (absent : key ∉ entries.map Prod.fst) :
    (insertAll map entries).lookup key = map.lookup key := by
  induction entries generalizing map with
  | nil => rfl
  | cons entry entries ih =>
      rw [List.map_cons, List.mem_cons, not_or] at absent
      have skipped : (insertAll (map.insert entry.1 entry.2) entries).lookup
          key = (map.insert entry.1 entry.2).lookup key := ih absent.2
      exact skipped.trans (Finmap.lookup_insert_of_ne map absent.1)

/-- A value that a key has after the insertions was inserted, or it was there
before. -/
theorem mem_of_lookup_insertAll {value : β}
    (found : (insertAll map entries).lookup key = some value) :
    (key, value) ∈ entries ∨ map.lookup key = some value := by
  induction entries generalizing map with
  | nil => exact .inr found
  | cons entry entries ih =>
      rcases ih found with later | earlier
      · exact .inl (List.mem_cons_of_mem entry later)
      · rw [lookup_insert] at earlier
        split at earlier
        · rename_i same
          cases earlier
          rw [same]
          exact .inl List.mem_cons_self
        · exact .inr earlier

/-- A key has the value that is inserted for it, when there is only one. -/
theorem lookup_insertAll_unique {value : β}
    (inserted : (key, value) ∈ entries)
    (only : ∀ found, (key, found) ∈ entries → found = value) :
    (insertAll map entries).lookup key = some value := by
  induction entries generalizing map with
  | nil => cases inserted
  | cons entry rest ih =>
      by_cases later : (key, value) ∈ rest
      · apply ih later
        intro found member
        exact only found (List.mem_cons_of_mem entry member)
      · have first : (key, value) = entry :=
          (List.mem_cons.mp inserted).resolve_right later
        subst first
        have absent : key ∉ rest.map Prod.fst := by
          intro member
          obtain ⟨⟨other, found⟩, among, same⟩ := List.mem_map.mp member
          cases same
          have again := only found (List.mem_cons_of_mem _ among)
          rw [again] at among
          exact later among
        have kept : (insertAll (map.insert key value) rest).lookup key =
            (map.insert key value).lookup key := lookup_insertAll_other absent
        exact kept.trans (Finmap.lookup_insert map)

theorem lookup_insertAll_some {value : β}
    (found : (insertAll map entries).lookup key = some value) :
    (∃ before after, entries = before ++ (key, value) :: after ∧
        key ∉ after.map Prod.fst) ∨
      key ∉ entries.map Prod.fst ∧ map.lookup key = some value := by
  induction entries generalizing map with
  | nil => exact .inr ⟨List.not_mem_nil, found⟩
  | cons entry rest ih =>
      rcases ih found with ⟨before, after, rfl, last⟩ | ⟨absent, held⟩
      · exact .inl ⟨entry :: before, after, rfl, last⟩
      · rw [lookup_insert] at held
        split at held
        · rename_i same
          cases held
          subst same
          exact .inl ⟨[], rest, rfl, absent⟩
        · rename_i different
          refine .inr ⟨?_, held⟩
          rw [List.map_cons, List.mem_cons, not_or]
          exact ⟨different, absent⟩

/-- A key has the value that is inserted for it last. -/
theorem lookup_insertAll_last {value : β} :
    (insertAll (∅ : Finmap fun _ : α => β) entries).lookup key =
        some value ↔
      ∃ before after, entries = before ++ (key, value) :: after ∧
        key ∉ after.map Prod.fst := by
  constructor
  · intro found
    rcases lookup_insertAll_some found with last | ⟨-, held⟩
    · exact last
    · cases held
  · rintro ⟨before, after, rfl, last⟩
    have kept : (insertAll (∅ : Finmap fun _ : α => β)
        (before ++ (key, value) :: after)).lookup key =
          ((insertAll ∅ before).insert key value).lookup key := by
      unfold insertAll
      rw [List.foldl_append, List.foldl_cons]
      exact lookup_insertAll_other last
    rw [kept, Finmap.lookup_insert]

theorem keys_insertAll (map : Finmap fun _ : α => β)
    (entries : List (α × β)) :
    (insertAll map entries).keys =
      map.keys ∪ (entries.map Prod.fst).toFinset := by
  induction entries generalizing map with
  | nil => exact (Finset.union_empty _).symm
  | cons entry rest ih =>
      refine (ih (map.insert entry.1 entry.2)).trans ?_
      rw [keys_insert, List.map_cons, List.toFinset_cons, Finset.insert_union,
        Finset.union_insert]

/-- Fresh entries are found besides the old ones. -/
theorem lookup_insertAll_fresh (distinct : (entries.map Prod.fst).Nodup)
    (fresh : ∀ entry ∈ entries, entry.1 ∉ map) {value : β} :
    (insertAll map entries).lookup key = some value ↔
      map.lookup key = some value ∨ (key, value) ∈ entries := by
  constructor
  · exact fun found => (mem_of_lookup_insertAll found).symm
  · rintro (stored | inserted)
    · refine (lookup_insertAll_other ?_).trans stored
      intro member
      obtain ⟨entry, among, same⟩ := List.mem_map.mp member
      apply fresh entry among
      rw [same]
      exact Finmap.mem_of_lookup_eq_some stored
    · apply lookup_insertAll_unique inserted
      intro found member
      have same := List.inj_on_of_nodup_map distinct member inserted rfl
      exact congrArg Prod.snd same

end Insertions

/-! ## Several erasures -/

section Erasures

variable {β : Type} {map : Finmap fun _ : α => β} {keys : List α}

def eraseAll (map : Finmap fun _ : α => β) (keys : List α) :
    Finmap fun _ : α => β :=
  keys.foldl (fun map key => map.erase key) map

theorem keys_eraseAll (map : Finmap fun _ : α => β) (keys : List α) :
    (eraseAll map keys).keys = map.keys \ keys.toFinset := by
  induction keys generalizing map with
  | nil => exact (Finset.sdiff_empty).symm
  | cons key rest ih =>
      refine (ih (map.erase key)).trans ?_
      rw [Finmap.keys_erase, List.toFinset_cons]
      ext other
      simp only [Finset.mem_sdiff, Finset.mem_erase, Finset.mem_insert]
      tauto

/-- Keys that are missing need not be erased. -/
theorem eraseAll_of_notMem (missing : ∀ key ∈ keys, key ∉ map) :
    eraseAll map keys = map := by
  induction keys with
  | nil => rfl
  | cons key rest ih =>
      have same : map.erase key = map := by
        apply Finmap.ext_lookup
        intro other
        by_cases isKey : other = key
        · rw [isKey, Finmap.lookup_erase]
          exact (Finmap.lookup_eq_none.mpr
            (missing key List.mem_cons_self)).symm
        · exact Finmap.lookup_erase_ne isKey
      have rest' := ih fun other member =>
        missing other (List.mem_cons_of_mem _ member)
      unfold eraseAll at rest' ⊢
      rw [List.foldl_cons, same, rest']

/-- A set grows by the length of a list only if the list is new to it. -/
theorem fresh_of_card {set : Finset α}
    (grows : (set ∪ keys.toFinset).card = set.card + keys.length) :
    keys.Nodup ∧ ∀ key ∈ keys, key ∉ set := by
  have union := Finset.card_union_add_card_inter set keys.toFinset
  have most : keys.toFinset.card ≤ keys.length := List.toFinset_card_le keys
  have all : keys.toFinset.card = keys.length := by omega
  have nothing : (set ∩ keys.toFinset).card = 0 := by omega
  constructor
  · exact Multiset.toFinset_card_eq_card_iff_nodup.mp all
  · intro key member inside
    have both : key ∈ set ∩ keys.toFinset :=
      Finset.mem_inter.mpr ⟨inside, List.mem_toFinset.mpr member⟩
    rw [Finset.card_eq_zero.mp nothing] at both
    exact absurd both (Finset.notMem_empty key)

end Erasures

/-! ## Orders -/

/-- The elements of a set in the order of a list that has them all. -/
noncomputable def listed {α : Type} [DecidableEq α] (order : List α)
    (elements : Finset α) : List α :=
  if elements ⊆ order.toFinset then order.filter (· ∈ elements)
  else elements.toList

theorem listed_nodup
    {α : Type} [DecidableEq α] {order : List α} (once : order.Nodup)
    (elements : Finset α) : (listed order elements).Nodup := by
  unfold listed
  split
  · exact once.filter _
  · exact Finset.nodup_toList elements

theorem mem_listed
    {α : Type} [DecidableEq α] (order : List α) (elements : Finset α)
    (element : α) : element ∈ listed order elements ↔ element ∈ elements := by
  unfold listed
  split
  · rename_i within
    simp only [List.mem_filter, decide_eq_true_eq, and_iff_right_iff_imp]
    exact fun member => List.mem_toFinset.mp (within member)
  · exact Finset.mem_toList

/-- The order in which a hash map lists its keys. -/
structure Listing (α : Type) [DecidableEq α] where
  order : Finset α → List α
  order_nodup : ∀ keys, (order keys).Nodup
  mem_order : ∀ keys key, key ∈ order keys ↔ key ∈ keys

namespace Listing

/-- Some order. -/
noncomputable def any (α : Type) [DecidableEq α] : Listing α where
  order := Finset.toList
  order_nodup := Finset.nodup_toList
  mem_order := fun _ _ => Finset.mem_toList

/-- An order in which a key comes first. -/
noncomputable def withFirst (first : α) : Listing α where
  order := fun keys =>
    if first ∈ keys then first :: (keys.erase first).toList else keys.toList
  order_nodup := by
    intro keys
    split
    · simp [Finset.nodup_toList]
    · exact Finset.nodup_toList keys
  mem_order := by
    intro keys key
    split
    · rename_i among
      rw [List.mem_cons, Finset.mem_toList, Finset.mem_erase]
      by_cases same : key = first
      · simp [same, among]
      · simp [same]
    · exact Finset.mem_toList

/-- An order in which a key comes last. -/
noncomputable def withLast (last : α) : Listing α where
  order := fun keys =>
    if last ∈ keys then (keys.erase last).toList ++ [last] else keys.toList
  order_nodup := by
    intro keys
    split
    · refine List.nodup_append.mpr ⟨Finset.nodup_toList _,
        List.nodup_singleton last, ?_⟩
      intro key member other same
      rw [Finset.mem_toList, Finset.mem_erase] at member
      rw [List.mem_singleton.mp same]
      exact member.1
    · exact Finset.nodup_toList keys
  mem_order := by
    intro keys key
    split
    · rename_i among
      rw [List.mem_append, Finset.mem_toList, Finset.mem_erase,
        List.mem_singleton]
      by_cases same : key = last
      · simp [same, among]
      · simp [same]
    · exact Finset.mem_toList

variable {β : Type}

/-- The entries of a map in the order of its keys. -/
def entries (listing : Listing α) (map : Finmap fun _ : α => β) :
    List (α × β) :=
  (listing.order map.keys).filterMap fun key =>
    (map.lookup key).map fun value => (key, value)

theorem mem_entries (listing : Listing α) (map : Finmap fun _ : α => β)
    (key : α) (value : β) :
    (key, value) ∈ listing.entries map ↔ map.lookup key = some value := by
  unfold entries
  rw [List.mem_filterMap]
  constructor
  · intro listed
    obtain ⟨other, -, found⟩ := listed
    obtain ⟨value, found, same⟩ := Option.map_eq_some_iff.mp found
    cases same
    exact found
  · intro found
    refine ⟨key, ?_, ?_⟩
    · rw [listing.mem_order, Finmap.mem_keys]
      exact Finmap.mem_of_lookup_eq_some found
    · rw [found]
      rfl

theorem keys_entries (listing : Listing α) (map : Finmap fun _ : α => β) :
    (listing.entries map).map Prod.fst = listing.order map.keys := by
  unfold entries
  rw [List.map_filterMap]
  have all : ∀ key ∈ listing.order map.keys,
      ((map.lookup key).map fun value => (key, value)).map Prod.fst =
        some key := by
    intro key member
    rw [listing.mem_order, Finmap.mem_keys] at member
    obtain ⟨value, found⟩ := Finmap.mem_iff.mp member
    rw [found]
    rfl
  rw [List.filterMap_congr all]
  exact List.filterMap_some

theorem nodup_entries (listing : Listing α) (map : Finmap fun _ : α => β) :
    ((listing.entries map).map Prod.fst).Nodup := by
  rw [keys_entries]
  exact listing.order_nodup map.keys

theorem length_entries (listing : Listing α) (map : Finmap fun _ : α => β) :
    (listing.entries map).length = map.keys.card := by
  have same : (listing.order map.keys).toFinset = map.keys := by
    ext key
    rw [List.mem_toFinset]
    exact listing.mem_order map.keys key
  rw [← List.length_map Prod.fst, keys_entries,
    ← List.toFinset_card_of_nodup (listing.order_nodup map.keys), same]

/-- The entries of a map make it up. -/
theorem insertAll_entries (listing : Listing α)
    (map : Finmap fun _ : α => β) : insertAll ∅ (listing.entries map) = map := by
  apply Finmap.ext_lookup
  intro key
  cases found : map.lookup key with
  | some value =>
      apply lookup_insertAll_unique
        ((mem_entries listing map key value).mpr found)
      intro other member
      have held := (mem_entries listing map key other).mp member
      cases found.symm.trans held
      rfl
  | none =>
      apply lookup_insertAll_other
      rw [keys_entries, listing.mem_order, Finmap.mem_keys]
      exact Finmap.lookup_eq_none.mp found

@[simp] theorem entries_empty (listing : Listing α) :
    listing.entries (∅ : Finmap fun _ : α => β) = [] := by
  apply List.eq_nil_of_length_eq_zero
  rw [length_entries, Finmap.keys_empty, Finset.card_empty]

end Listing

end

/-!
## Inverse maps

Two finite maps that are read in both directions.
-/

section

variable {α β : Type} [DecidableEq α] [DecidableEq β]

/-- Each of the maps leads back from where the other one leads. -/
def Inverses (forward : Finmap fun _ : α => β)
    (backward : Finmap fun _ : β => α) : Prop :=
  ∀ key value, forward.lookup key = some value ↔
    backward.lookup value = some key

namespace Inverses

variable {forward : Finmap fun _ : α => β} {backward : Finmap fun _ : β => α}
  {key : α} {value : β}

theorem empty : Inverses (∅ : Finmap fun _ : α => β) ∅ := by
  intro key value
  simp

/-- Both maps get a new pair. -/
theorem insert (inverses : Inverses forward backward)
    (newKey : forward.lookup key = none)
    (newValue : backward.lookup value = none) :
    Inverses (forward.insert key value) (backward.insert value key) := by
  intro other found
  rw [lookup_insert, lookup_insert]
  by_cases sameKey : other = key
  · by_cases sameValue : found = value
    · simp [sameKey, sameValue]
    · rw [if_pos sameKey, if_neg sameValue, ← inverses other found, sameKey,
        newKey]
      simp [Ne.symm sameValue]
  · by_cases sameValue : found = value
    · rw [if_neg sameKey, if_pos sameValue, inverses other found, sameValue,
        newValue]
      simp [Ne.symm sameKey]
    · rw [if_neg sameKey, if_neg sameValue]
      exact inverses other found

/-- Both maps lose a pair. -/
theorem erase (inverses : Inverses forward backward)
    (paired : forward.lookup key = some value) :
    Inverses (forward.erase key) (backward.erase value) := by
  have back := (inverses key value).mp paired
  intro other found
  by_cases sameKey : other = key
  · by_cases sameValue : found = value
    · rw [sameKey, sameValue, Finmap.lookup_erase, Finmap.lookup_erase]
      simp
    · rw [sameKey, Finmap.lookup_erase, Finmap.lookup_erase_ne sameValue,
        ← inverses key found, paired]
      simp [Ne.symm sameValue]
  · by_cases sameValue : found = value
    · rw [sameValue, Finmap.lookup_erase, Finmap.lookup_erase_ne sameKey,
        inverses other value, back]
      simp [Ne.symm sameKey]
    · rw [Finmap.lookup_erase_ne sameKey, Finmap.lookup_erase_ne sameValue]
      exact inverses other found

/-- A key gets a new value in place of its old one. -/
theorem replace (inverses : Inverses forward backward) {old : β}
    (paired : forward.lookup key = some old)
    (newValue : backward.lookup value = none) :
    Inverses (forward.insert key value)
      ((backward.erase old).insert value key) := by
  have erased := inverses.erase paired
  have missing : (backward.erase old).lookup value = none := by
    by_cases same : value = old
    · rw [same, Finmap.lookup_erase]
    · rw [Finmap.lookup_erase_ne same, newValue]
  have renewed := erased.insert (Finmap.lookup_erase key forward) missing
  intro other found
  rw [← renewed other found, lookup_insert, lookup_insert]
  by_cases same : other = key
  · simp [same]
  · rw [if_neg same, if_neg same, Finmap.lookup_erase_ne same]

/-- Both maps have as many keys. -/
theorem card (inverses : Inverses forward backward) :
    forward.keys.card = backward.keys.card := by
  have found : ∀ key ∈ forward.keys, (forward.lookup key).isSome := by
    intro key member
    rw [Finmap.mem_keys, Finmap.mem_iff] at member
    exact Option.isSome_iff_exists.mpr member
  refine Finset.card_bij
    (fun key member => (forward.lookup key).get (found key member)) ?_ ?_ ?_
  · intro key member
    rw [Finmap.mem_keys, Finmap.mem_iff]
    exact ⟨key, (inverses _ _).mp (Option.some_get _).symm⟩
  · intro key member other also same
    have here := (inverses _ _).mp (Option.some_get (found key member)).symm
    have there := (inverses _ _).mp (Option.some_get (found other also)).symm
    rw [same, there] at here
    exact (Option.some.inj here).symm
  · intro value member
    rw [Finmap.mem_keys, Finmap.mem_iff] at member
    obtain ⟨key, back⟩ := member
    have forth := (inverses _ _).mpr back
    have among : key ∈ forward.keys := by
      rw [Finmap.mem_keys, Finmap.mem_iff]
      exact ⟨value, forth⟩
    exact ⟨key, among, Option.get_of_eq_some _ forth⟩

end Inverses

end

end RedVector.Effect
