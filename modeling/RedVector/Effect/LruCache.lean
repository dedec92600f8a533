import RedVector.Effect.Listing

/-!
# Caches of the last used entries

A cache lists its entries from the last used one on and drops from the end what
does not fit.
-/

namespace RedVector.Effect

section

variable {α β : Type} [DecidableEq α]

structure LruCache (α β : Type) where
  capacity : Nat
  entries : List (α × β)
  positive : 0 < capacity

namespace LruCache

def new (capacity : Nat) (positive : 0 < capacity) : LruCache α β :=
  { capacity := capacity, entries := [], positive := positive }

/-- The value of a key, which stays where it is. -/
def peek (cache : LruCache α β) (key : α) : Option β :=
  (cache.entries.find? fun entry => entry.1 = key).map Prod.snd

def put (cache : LruCache α β) (key : α) (value : β) : LruCache α β :=
  { cache with
    entries := ((key, value) ::
      cache.entries.filter fun entry => entry.1 ≠ key).take cache.capacity }

/-- The value of a key, which becomes the last used one. -/
def get (cache : LruCache α β) (key : α) : Option β × LruCache α β :=
  match cache.peek key with
  | none => (none, cache)
  | some value => (some value, { cache with
      entries := (key, value) ::
        cache.entries.filter fun entry => entry.1 ≠ key })

def clear (cache : LruCache α β) : LruCache α β :=
  { cache with entries := [] }

def putAll (cache : LruCache α β) (entries : List (α × β)) :
    LruCache α β :=
  entries.foldl (fun cache entry => cache.put entry.1 entry.2) cache

@[simp] theorem peek_new (capacity : Nat) (positive : 0 < capacity)
    (key : α) : (new capacity positive : LruCache α β).peek key = none :=
  rfl

@[simp] theorem peek_clear (cache : LruCache α β) (key : α) :
    cache.clear.peek key = none :=
  rfl

@[simp] theorem peek_put_same (cache : LruCache α β) (key : α) (value : β) :
    (cache.put key value).peek key = some value := by
  obtain ⟨capacity, entries, positive⟩ := cache
  cases capacity with
  | zero => cases positive
  | succ capacity => simp [peek, put]

/-- What is found by searching a list without the entries of another key. -/
theorem find_filter {entries : List (α × β)} {key other : α}
    (different : other ≠ key) :
    ((entries.filter fun entry => entry.1 ≠ key).find? fun entry =>
      entry.1 = other) = entries.find? fun entry => entry.1 = other := by
  induction entries with
  | nil => rfl
  | cons entry entries ih =>
      by_cases same : entry.1 = key
      · have skipped : ¬entry.1 = other :=
          fun isOther => different (isOther.symm.trans same)
        simp [same, Ne.symm different] at ih ⊢
        exact ih
      · simp only [List.filter_cons, same, ne_eq, not_false_eq_true,
          decide_true, if_true, List.find?_cons]
        split
        · rfl
        · exact ih

/-- Another key keeps its value or is dropped. -/
theorem peek_put_other {cache : LruCache α β} {key other : α} {value : β}
    {found : β} (different : other ≠ key)
    (present : (cache.put key value).peek other = some found) :
    cache.peek other = some found := by
  obtain ⟨⟨name, found⟩, isFound, rfl⟩ := Option.map_eq_some_iff.mp present
  have front := List.take_prefix cache.capacity
    ((key, value) :: cache.entries.filter fun entry => entry.1 ≠ key)
  have kept := front.find?_eq_some isFound
  have skipped : ¬key = other := Ne.symm different
  rw [List.find?_cons_of_neg (by simpa using skipped),
    find_filter different] at kept
  exact Option.map_eq_some_iff.mpr ⟨_, kept, rfl⟩

@[simp] theorem get_fst (cache : LruCache α β) (key : α) :
    (cache.get key).1 = cache.peek key := by
  unfold get
  split
  · rename_i absent
    exact absent.symm
  · rename_i value present
    exact present.symm

@[simp] theorem peek_get (cache : LruCache α β) (key other : α) :
    (cache.get key).2.peek other = cache.peek other := by
  unfold get
  split
  · rfl
  · rename_i value present
    by_cases same : other = key
    · rw [same, present]
      simp [peek]
    · have skipped : ¬key = other := Ne.symm same
      unfold peek
      rw [List.find?_cons_of_neg (by simpa using skipped), find_filter same]

/-! ## Several entries -/

theorem peek_putAll_other {cache : LruCache α β} {entries : List (α × β)}
    {key : α} {found : β} (absent : key ∉ entries.map Prod.fst)
    (present : (cache.putAll entries).peek key = some found) :
    cache.peek key = some found := by
  induction entries generalizing cache with
  | nil => exact present
  | cons entry entries ih =>
      rw [List.map_cons, List.mem_cons, not_or] at absent
      exact peek_put_other absent.1 (ih absent.2 present)

/-- A key that is cached as it is stored stays so. -/
theorem peek_putAll {cache : LruCache α β} {entries : List (α × β)}
    {map : Finmap fun _ : α => β} {key : α}
    (agree : ∀ found, cache.peek key = some found →
      map.lookup key = some found) {found : β}
    (present : (cache.putAll entries).peek key = some found) :
    (insertAll map entries).lookup key = some found := by
  induction entries generalizing cache map with
  | nil => exact agree found present
  | cons entry entries ih =>
      have later : ((cache.put entry.1 entry.2).putAll entries).peek key =
          some found := present
      change (insertAll (map.insert entry.1 entry.2) entries).lookup key =
        some found
      refine ih ?_ later
      intro found present
      by_cases same : key = entry.1
      · rw [same, peek_put_same] at present
        rw [same, Finmap.lookup_insert]
        exact present
      · rw [Finmap.lookup_insert_of_ne _ same]
        exact agree found (peek_put_other same present)

end LruCache

end

/-!
## Last uses

What was used, in the order of the last uses: `dedup` keeps the last of equal
elements.
-/

section

variable {α : Type} [DecidableEq α]

/-- The elements are in the order in which they were used last. -/
def ByLastUse (history order : List α) : Prop :=
  order.Sublist history.dedup

/-- What is used comes last. -/
theorem dedup_concat (history : List α) (used : α) :
    (history ++ [used]).dedup =
      (history.dedup.filter fun other => other ≠ used) ++ [used] := by
  induction history with
  | nil => rfl
  | cons first rest ih =>
      rw [List.cons_append]
      by_cases again : first ∈ rest
      · rw [List.dedup_cons_of_mem (List.mem_append_left _ again),
          List.dedup_cons_of_mem again, ih]
      · rw [List.dedup_cons_of_notMem again]
        by_cases same : first = used
        · subst same
          rw [List.dedup_cons_of_mem (List.mem_append_right _
            (List.mem_singleton_self first)), ih]
          simp
        · have unused : first ∉ rest ++ [used] := by
            simp [again, same]
          rw [List.dedup_cons_of_notMem unused, ih]
          simp [same]

namespace ByLastUse

variable {history order kept evicted : List α} {used : α}

theorem nil (history : List α) : ByLastUse history [] :=
  List.nil_sublist _

/-- A use moves an element to the end. -/
theorem use (recent : ByLastUse history order) (used : α) :
    ByLastUse (history ++ [used])
      ((order.filter fun other => other ≠ used) ++ [used]) := by
  unfold ByLastUse
  rw [dedup_concat]
  exact (recent.filter _).append_right [used]

theorem add (recent : ByLastUse history order) (unlisted : used ∉ order) :
    ByLastUse (history ++ [used]) (order ++ [used]) := by
  have all : (order.filter fun other => other ≠ used) = order := by
    rw [List.filter_eq_self]
    intro other member
    refine decide_eq_true fun same => ?_
    rw [same] at member
    exact unlisted member
  have moved := recent.use used
  rwa [all] at moved

theorem drop (recent : ByLastUse history (evicted ++ kept)) :
    ByLastUse history kept :=
  (List.sublist_append_right evicted kept).trans recent

end ByLastUse

end

end RedVector.Effect
