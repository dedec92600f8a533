import Mathlib.Data.Finmap
import Mathlib.Data.Set.Card

/-!
# Registries

A registry gives out tickets under names.  It records the holder of each
ticket, and every holder records its own ticket under each name.  The two
records agree as long as no holder takes a second ticket under one name.
-/

namespace RedVector.Effect

variable {α ι : Type} [DecidableEq α]

/-- The holders of the tickets under each name. -/
abbrev Registry (α ι : Type) := Finmap fun _ : α => Finmap fun _ : Nat => ι

namespace Registry

/-- The tickets under a name, with their holders. -/
def held (registry : Registry α ι) (name : α) : Finmap fun _ : Nat => ι :=
  (registry.lookup name).getD ∅

/-- Gives a ticket out. -/
def enter (registry : Registry α ι) (name : α) (ticket : Nat) (holder : ι) :
    Registry α ι :=
  registry.insert name ((registry.held name).insert ticket holder)

/-- Takes a ticket back. -/
def leave (registry : Registry α ι) (name : α) (ticket : Nat) :
    Registry α ι :=
  match registry.lookup name with
  | none => registry
  | some tickets => registry.insert name (tickets.erase ticket)

@[simp] theorem held_empty (name : α) :
    (∅ : Registry α ι).held name = ∅ := by
  simp [held]

theorem held_enter (registry : Registry α ι) (name other : α)
    (ticket : Nat) (holder : ι) :
    (registry.enter name ticket holder).held other =
      if other = name then (registry.held name).insert ticket holder
      else registry.held other := by
  unfold enter
  split
  · rename_i same
    subst same
    simp [held]
  · rename_i different
    simp [held, Finmap.lookup_insert_of_ne _ different]

theorem held_leave (registry : Registry α ι) (name other : α)
    (ticket : Nat) :
    (registry.leave name ticket).held other =
      if other = name then (registry.held name).erase ticket
      else registry.held other := by
  unfold leave
  split
  · rename_i absent
    split
    · rename_i same
      subst same
      have empty : registry.held other = ∅ := by simp [held, absent]
      rw [empty]
      rfl
    · rfl
  · rename_i tickets present
    split
    · rename_i same
      subst same
      simp [held, present]
    · rename_i different
      simp [held, Finmap.lookup_insert_of_ne _ different]

theorem mem_enter {registry : Registry α ι} {name other : α} {ticket : Nat}
    {holder : ι} :
    other ∈ registry.enter name ticket holder ↔
      other = name ∨ other ∈ registry :=
  Finmap.mem_insert

/-- A name stays when its last ticket is taken back. -/
theorem mem_leave {registry : Registry α ι} {name other : α} {ticket : Nat} :
    other ∈ registry.leave name ticket ↔ other ∈ registry := by
  unfold leave
  split
  · rfl
  · rename_i tickets present
    rw [Finmap.mem_insert]
    constructor
    · rintro (rfl | known)
      · exact Finmap.mem_iff.mpr ⟨tickets, present⟩
      · exact known
    · exact .inr

/-- Both records are the same, and no ticket is given out from `next` on. -/
structure Agrees (registry : Registry α ι) (next : Nat)
    (own : ι → Finmap fun _ : α => Nat) : Prop where
  agree : ∀ name holder ticket,
    (own holder).lookup name = some ticket ↔
      (registry.held name).lookup ticket = some holder
  fresh : ∀ name ticket, ticket ∈ registry.held name → ticket < next

variable {registry : Registry α ι} {next : Nat}
  {own : ι → Finmap fun _ : α => Nat}

theorem agrees_empty (next : Nat) :
    Agrees (∅ : Registry α ι) next fun _ => ∅ := by
  constructor
  · intro name holder ticket
    simp
  · intro name ticket member
    rw [held_empty] at member
    exact absurd member Finmap.notMem_empty

namespace Agrees

theorem mono (agrees : Agrees registry next own) {later : Nat}
    (grows : next ≤ later) : Agrees registry later own :=
  ⟨agrees.agree, fun name ticket member =>
    (agrees.fresh name ticket member).trans_le grows⟩

/-- A name under which somebody holds a ticket is recorded. -/
theorem recorded (agrees : Agrees registry next own) {name : α} {holder : ι}
    (member : name ∈ own holder) : name ∈ registry := by
  obtain ⟨ticket, found⟩ := Finmap.mem_iff.mp member
  have held := (agrees.agree name holder ticket).mp found
  by_contra absent
  rw [Registry.held, Finmap.lookup_eq_none.mpr absent] at held
  simp at held

variable [DecidableEq ι]

/-- A holder without a ticket under a name takes the next one. -/
theorem enter (agrees : Agrees registry next own) {name : α} {holder : ι}
    (absent : name ∉ own holder) :
    Agrees (registry.enter name next holder) (next + 1)
      (Function.update own holder ((own holder).insert name next)) := by
  have unused : ∀ other, (registry.held other).lookup next = none := by
    intro other
    rw [Finmap.lookup_eq_none]
    intro member
    exact absurd (agrees.fresh other next member) (lt_irrefl next)
  constructor
  · intro other id ticket
    rw [held_enter]
    by_cases sameName : other = name
    · subst sameName
      rw [if_pos rfl]
      by_cases sameTicket : ticket = next
      · subst sameTicket
        rw [Finmap.lookup_insert]
        by_cases sameHolder : id = holder
        · subst sameHolder
          simp
        · have before := agrees.agree other id ticket
          rw [unused] at before
          rw [Function.update_of_ne sameHolder, before]
          simp [Ne.symm sameHolder]
      · rw [Finmap.lookup_insert_of_ne _ sameTicket, ← agrees.agree]
        by_cases sameHolder : id = holder
        · subst sameHolder
          have none' : (own id).lookup other = none :=
            Finmap.lookup_eq_none.mpr absent
          simp [none', Ne.symm sameTicket]
        · rw [Function.update_of_ne sameHolder]
    · rw [if_neg sameName, ← agrees.agree]
      by_cases sameHolder : id = holder
      · subst sameHolder
        simp [Finmap.lookup_insert_of_ne _ sameName]
      · rw [Function.update_of_ne sameHolder]
  · intro other ticket member
    rw [held_enter] at member
    split at member
    · rename_i same
      subst same
      obtain rfl | old := Finmap.mem_insert.mp member
      · exact Nat.lt_succ_self _
      · exact (agrees.fresh other ticket old).trans (Nat.lt_succ_self next)
    · exact (agrees.fresh other ticket member).trans (Nat.lt_succ_self next)

/-- A holder gives its ticket under a name back. -/
theorem leave (agrees : Agrees registry next own) {name : α} {holder : ι}
    {ticket : Nat} (own' : (own holder).lookup name = some ticket) :
    Agrees (registry.leave name ticket) next
      (Function.update own holder ((own holder).erase name)) := by
  constructor
  · intro other id number
    rw [held_leave]
    by_cases sameName : other = name
    · subst sameName
      rw [if_pos rfl]
      by_cases sameTicket : number = ticket
      · subst sameTicket
        rw [Finmap.lookup_erase]
        by_cases sameHolder : id = holder
        · subst sameHolder
          simp
        · rw [Function.update_of_ne sameHolder, agrees.agree]
          have theirs := (agrees.agree other holder number).mp own'
          simp [theirs, Ne.symm sameHolder]
      · rw [Finmap.lookup_erase_ne sameTicket, ← agrees.agree]
        by_cases sameHolder : id = holder
        · subst sameHolder
          simp [own', Ne.symm sameTicket]
        · rw [Function.update_of_ne sameHolder]
    · rw [if_neg sameName, ← agrees.agree]
      by_cases sameHolder : id = holder
      · subst sameHolder
        simp [Finmap.lookup_erase_ne sameName]
      · rw [Function.update_of_ne sameHolder]
  · intro other number member
    apply agrees.fresh other number
    rw [held_leave] at member
    split at member
    · rename_i same
      subst same
      exact (Finmap.mem_erase.mp member).2
    · exact member

end Agrees

/-! ## The names -/

/-- After some moves of a holder the names are those before and its own. -/
def Renames (before after : Registry α ι)
    (own : Finmap fun _ : α => Nat) : Prop :=
  ∀ name, name ∈ after ↔ name ∈ before ∨ name ∈ own

namespace Renames

variable {before between after : Registry α ι}
  {own other : Finmap fun _ : α => Nat}

omit [DecidableEq α] in
theorem of_eq (same : after = before)
    (recorded : ∀ name ∈ own, name ∈ before) : Renames before after own := by
  subst same
  intro name
  constructor
  · exact .inl
  · rintro (known | holds)
    · exact known
    · exact recorded name holds

theorem enter {name : α} {ticket : Nat} {holder : ι}
    (recorded : ∀ name ∈ own, name ∈ before) :
    Renames before (before.enter name ticket holder)
      (own.insert name ticket) := by
  intro candidate
  rw [mem_enter, Finmap.mem_insert]
  constructor
  · rintro (same | known)
    · exact .inr (.inl same)
    · exact .inl known
  · rintro (known | same | holds)
    · exact .inr known
    · exact .inl same
    · exact .inr (recorded candidate holds)

theorem leave {name : α} {ticket : Nat}
    (recorded : ∀ name ∈ own, name ∈ before) :
    Renames before (before.leave name ticket) (own.erase name) := by
  intro candidate
  rw [mem_leave]
  constructor
  · exact .inl
  · rintro (known | holds)
    · exact known
    · exact recorded candidate (Finmap.mem_erase.mp holds).2

omit [DecidableEq α] in
/-- Names that the holder gives up in between are known before. -/
theorem trans (first : Renames before between other)
    (second : Renames between after own)
    (covered : ∀ name ∈ other, name ∈ before ∨ name ∈ own) :
    Renames before after own := by
  intro name
  rw [second name, first name]
  constructor
  · rintro ((known | held) | holds)
    · exact .inl known
    · exact covered name held
    · exact .inr holds
  · rintro (known | holds)
    · exact .inl (.inl known)
    · exact .inr holds

end Renames

/-! ## Listing the holders -/

/-- The holders under a name in an order of their tickets. -/
def holders (registry : Registry α ι) (order : Finset Nat → List Nat)
    (name : α) : List ι :=
  (order (registry.held name).keys).filterMap (registry.held name).lookup

theorem mem_holders (agrees : Agrees registry next own)
    {order : Finset Nat → List Nat}
    (complete : ∀ ids id, id ∈ order ids ↔ id ∈ ids) (name : α)
    (holder : ι) :
    holder ∈ registry.holders order name ↔ name ∈ own holder := by
  unfold holders
  rw [List.mem_filterMap, Finmap.mem_iff]
  constructor
  · rintro ⟨ticket, -, found⟩
    exact ⟨ticket, (agrees.agree name holder ticket).mpr found⟩
  · rintro ⟨ticket, found⟩
    have given := (agrees.agree name holder ticket).mp found
    refine ⟨ticket, ?_, given⟩
    rw [complete, Finmap.mem_keys]
    exact Finmap.mem_iff.mpr ⟨holder, given⟩

/-- Every holder is listed once. -/
theorem nodup_holders (agrees : Agrees registry next own)
    {order : Finset Nat → List Nat}
    (once : ∀ ids, (order ids).Nodup) (name : α) :
    (registry.holders order name).Nodup := by
  refine List.Nodup.filterMap ?_ (once _)
  intro first second holder isFirst isSecond
  have one := (agrees.agree name holder first).mpr isFirst
  have two := (agrees.agree name holder second).mpr isSecond
  exact Option.some.inj (one.symm.trans two)

/-- As many tickets are held under a name as there are holders. -/
theorem encard_holders (agrees : Agrees registry next own) (name : α) :
    {holder | name ∈ own holder}.encard = (registry.held name).keys.card := by
  let ticketOf := fun holder => ((own holder).lookup name).getD 0
  have given : ∀ holder, name ∈ own holder →
      (registry.held name).lookup (ticketOf holder) = some holder := by
    intro holder member
    obtain ⟨ticket, found⟩ := Finmap.mem_iff.mp member
    show (registry.held name).lookup (((own holder).lookup name).getD 0) = _
    rw [found]
    exact (agrees.agree name holder ticket).mp found
  have tickets : ticketOf '' {holder | name ∈ own holder} =
      (registry.held name).keys := by
    ext ticket
    simp only [Set.mem_image, Set.mem_ofPred_eq, Finset.mem_coe,
      Finmap.mem_keys]
    constructor
    · rintro ⟨holder, member, rfl⟩
      exact Finmap.mem_iff.mpr ⟨holder, given holder member⟩
    · intro member
      obtain ⟨holder, found⟩ := Finmap.mem_iff.mp member
      have held := (agrees.agree name holder ticket).mpr found
      exact ⟨holder, Finmap.mem_iff.mpr ⟨ticket, held⟩,
        by simp [ticketOf, held]⟩
  have apart : Set.InjOn ticketOf {holder | name ∈ own holder} := by
    intro first isFirst second isSecond same
    have one := given first isFirst
    rw [same, given second isSecond] at one
    exact (Option.some.inj one).symm
  rw [← apart.encard_image, tickets, Set.encard_coe_eq_coe_finsetCard]

end Registry

end RedVector.Effect
