import RedVector.Command.Forward
import RedVector.Command.SetCommands
import RedVector.Database.Intact
import RedVector.Value.Empty

/-!
# Elements that move

RPOPLPUSH and SMOVE take an element out of one key and put it into another one,
which may be the same.  What they should do is said of the contents of the two
keys; what they do differs where the destination has expired and is still
stored, and where a signed number is taken for a number.
-/

namespace RedVector

open Util Effect Database

/-- A kind of container: the contents of a value, and how an element leaves
and enters. -/
structure Container [Platform] (C : Type) where
  view : Value → Option C
  empty : C
  take : C → Option (Bytes × C)
  give : Bytes → C → C

namespace Container

variable [Platform] {C : Type}

/-- The element that moves, what it leaves behind and what it comes to. -/
def moved (kind : Container C) (contents : Slot → Option C)
    (source destination : Slot) : Option (Bytes × C × C) := do
  let from' ← contents source
  let into ← contents destination
  let (element, left) ← kind.take from'
  pure (element, left,
    kind.give element (if source = destination then left else into))

theorem moved_eq {kind : Container C} {contents : Slot → Option C}
    {source destination : Slot} {from' into : C}
    (has : contents source = some from')
    (gets : contents destination = some into) :
    kind.moved contents source destination =
      (kind.take from').map fun taken =>
        (taken.1, taken.2, kind.give taken.1
          (if source = destination then taken.2 else into)) := by
  unfold moved
  rw [has, gets]
  cases taken : kind.take from' <;> simp [taken]

theorem moved_refused {kind : Container C} {contents : Slot → Option C}
    {source destination : Slot}
    (refused : contents source = none ∨ contents destination = none) :
    kind.moved contents source destination = none := by
  unfold moved
  rcases refused with none | none
  · rw [none]
    rfl
  · rw [none]
    cases contents source <;> rfl

/-- What a key holds for a client; a key that does not exist is empty. -/
def contents (kind : Container C) (env : Env) (db : Database) (slot : Slot) :
    Option C :=
  match db.visible env slot with
  | none => some kind.empty
  | some value => kind.view value

theorem contents_cases {kind : Container C} {env : Env} {db : Database}
    {slot : Slot} {held : C} (gets : kind.contents env db slot = some held) :
    held = kind.empty ∧
        (db.lapsed env slot = true ∨ db.value slot = none) ∨
      ∃ value, db.lapsed env slot = false ∧ db.value slot = some value ∧
        kind.view value = some held := by
  unfold contents at gets
  cases seen : db.visible env slot with
  | none =>
      rw [seen] at gets
      exact .inl ⟨(Option.some.inj gets).symm, visible_eq_none.mp seen⟩
  | some value =>
      rw [seen] at gets
      obtain ⟨alive, stored⟩ := visible_eq_some.mp seen
      exact .inr ⟨value, alive, stored, gets⟩

/-- An element has moved: `left` is without it, `held` is with it, and nothing
else is different. -/
structure Moved (kind : Container C) (env : Env) (before after : Database)
    (source destination : Slot) (left held : C) : Prop where
  enters : kind.contents env after destination = some held
  leaves : source ≠ destination → left ≠ kind.empty →
    kind.contents env after source = some left
  gone : source ≠ destination → left = kind.empty →
    after.visible env source = none
  others : ∀ other, other ≠ source → other ≠ destination →
    after.live env other = before.live env other
  expiration : ∀ slot value, after.visible env slot = some value →
    after.expiration slot = before.keptExpiration env slot

/-- The reply is Nil, zero or an error. -/
inductive Refusal : Except Response Response → Prop where
  | nil : Refusal (.ok .nil)
  | zero : Refusal (.ok (.integer 0))
  | replied (message : Bytes) : Refusal (.ok (.error message))
  | failed (message : Bytes) : Refusal (.error (.error message))

/-- The program moves the element that should move, and without one it changes
nothing and says so. -/
def Conserves (kind : Container C) (env : Env) (db : Database)
    (program : Writer Response) (source destination : Slot)
    (reply : Bytes → Response) : Prop :=
  ∃ outcome after, program.run (machine env) db = some (outcome, after) ∧
    match kind.moved (kind.contents env db) source destination with
    | some (element, left, held) =>
        outcome = .ok (reply element) ∧
          kind.Moved env db after source destination left held
    | none => Refusal outcome ∧ SameLive env db after

/-- What an expired destination still holds does not show when the element is
put to it. -/
def Fresh (kind : Container C) (env : Env) (db : Database) (slot : Slot)
    (element : Bytes) : Prop :=
  db.lapsed env slot = true → ∀ value, db.value slot = some value →
    value = .nil ∨ ∃ old, kind.view value = some old ∧
      kind.give element old = kind.give element kind.empty

/-- The elements of a list; the last one leaves, and enters in front. -/
def lists : Container (List Bytes) where
  view
    | .nil => some []
    | .list elements => some elements
    | _ => none
  empty := []
  take elements :=
    elements.getLast?.map fun element => (element, elements.dropLast)
  give := List.cons

/-- The members of a set, of which one leaves. -/
def sets (member : Bytes) : Container (Finset Bytes) where
  view
    | .set members => some members.members
    | _ => none
  empty := ∅
  take members :=
    if member ∈ members then some (member, members.erase member) else none
  give := insert

end Container

/-- If a key has expired, its removal can be announced. -/
def Database.Announced [Platform] (env : Env) (db : Database) (index : Nat)
    (key : Bytes) : Prop :=
  db.lapsed env (index, key) = true →
    (db.notifyKeyspaceEvent env index (text "expired") key 120).isSome = true

namespace Command

section

variable [Platform] {env : Env} {db between created : Database}
  {index : Nat} {source destination : Bytes} {left held : Value}

/-- What the two keys hold behind a move, whatever the kind of container. -/
structure Places (env : Env) (before after : Database)
    (source destination : Slot) (left held : Value) : Prop where
  frame : Frame before after
  value : ∀ slot, after.value slot =
    if slot = destination then some held
    else if slot = source then left.stored else before.value slot
  expiration : ∀ slot, after.expiration slot =
    if slot = destination then before.keptExpiration env destination
    else if slot = source then
      if left.isEmpty then none else before.expiration source
    else before.expiration slot

/-- The updates of both keys behind the two writes. -/
theorem run_updates (inside : db.inBounds index = true)
    (alive : db.lapsed env (index, source) = false)
    (takes : Sets db between (index, source) (some left)
      (db.expiration (index, source)))
    (gives : Sets between created (index, destination) (some held)
      (between.keptExpiration env (index, destination)))
    (full : held.isEmpty = false) (reply : Response) :
    ∃ after,
      (do
        Db.keyUpdated index source
        Db.keyUpdated index destination
        pure reply : Writer Response).run (machine env) created =
          some (.ok reply, after) ∧
        Places env db after (index, source) (index, destination) left
          held := by
  have sameExpiration : ∀ slot,
      between.expiration slot = db.expiration slot := by
    intro slot
    rw [takes.expiration]
    split
    · rename_i same
      rw [same]
    · rfl
  have sameLapsed : ∀ slot, between.lapsed env slot = db.lapsed env slot :=
    fun slot => lapsed_congr takes.frame.loading (sameExpiration slot)
  have sameKept : between.keptExpiration env (index, destination) =
      db.keptExpiration env (index, destination) := by
    unfold keptExpiration
    rw [sameLapsed, sameExpiration]
  have sourceAlive : created.lapsed env (index, source) = false := by
    by_cases same : (index, source) = (index, destination)
    · rw [same]
      exact kept_alive gives.frame.loading gives.expiration_self
    · have kept : created.expiration (index, source) =
          between.expiration (index, source) := by
        rw [gives.expiration, if_neg same]
      rw [lapsed_congr gives.frame.loading kept, sameLapsed, alive]
  have within : created.inBounds index = true := by
    unfold inBounds
    rw [gives.frame.config, takes.frame.config]
    exact inside
  obtain ⟨updated, ran, first⟩ := run_keyUpdated within sourceAlive
    fun _ => do
      Db.keyUpdated index destination
      pure reply
  have stillWithin : updated.inBounds index = true := by
    unfold inBounds
    rw [first.frame.config]
    exact within
  -- equal keys: the key is full again when it is updated as the source
  have destinationKept : updated.value (index, destination) = some held ∧
      updated.expiration (index, destination) =
        db.keptExpiration env (index, destination) := by
    rw [first.value, first.expiration]
    split
    · rename_i same
      have full : created.vanishing (index, source) = false := by
        unfold vanishing
        rw [← same, gives.value_self]
        exact full
      unfold surviving
      rw [full, ← same, gives.value_self, gives.expiration_self, sameKept]
      exact ⟨rfl, rfl⟩
    · rw [gives.value_self, gives.expiration_self, sameKept]
      exact ⟨rfl, rfl⟩
  have destinationAlive : updated.lapsed env (index, destination) = false := by
    have kept : updated.expiration (index, destination) =
        created.expiration (index, destination) := by
      rw [destinationKept.2, gives.expiration_self, sameKept]
    rw [lapsed_congr first.frame.loading kept]
    exact kept_alive gives.frame.loading gives.expiration_self
  obtain ⟨after, ended, second⟩ := run_keyUpdated stillWithin
    destinationAlive fun _ => pure reply
  refine ⟨after, ran.trans (ended.trans rfl), ?_⟩
  have notVanishing : updated.vanishing (index, destination) = false := by
    unfold vanishing
    rw [destinationKept.1]
    exact full
  constructor
  · exact ((takes.frame.trans gives.frame).trans first.frame).trans
      second.frame
  · intro slot
    rw [second.value]
    by_cases last : slot = (index, destination)
    · rw [if_pos last, if_pos last]
      unfold surviving
      rw [notVanishing, destinationKept.1]
      rfl
    · rw [if_neg last, if_neg last, first.value]
      by_cases first' : slot = (index, source)
      · subst first'
        rw [if_pos rfl, if_pos rfl]
        unfold surviving vanishing
        rw [gives.value, if_neg last, takes.value_self]
        rfl
      · rw [if_neg first', if_neg first', gives.value, if_neg last,
          takes.value, if_neg first']
  · intro slot
    rw [second.expiration]
    by_cases last : slot = (index, destination)
    · rw [if_pos last, if_pos last]
      unfold surviving
      rw [notVanishing, destinationKept.2]
      rfl
    · rw [if_neg last, if_neg last, first.expiration]
      by_cases first' : slot = (index, source)
      · subst first'
        rw [if_pos rfl, if_pos rfl]
        unfold surviving vanishing
        rw [gives.value, gives.expiration, if_neg last, if_neg last,
          takes.value_self, takes.expiration_self]
        rfl
      · rw [if_neg first', if_neg first', gives.expiration, if_neg last,
          takes.expiration, if_neg first']

/-- What the keys hold is a move of the contents. -/
theorem Places.moved {C : Type} {kind : Container C} {after : Database}
    {source destination : Slot} {remainder result : C}
    (leaves : Places env db after source destination left held)
    (alive : db.lapsed env source = false)
    (viewLeft : kind.view left = some remainder)
    (emptied : left.isEmpty = true ↔ remainder = kind.empty)
    (viewHeld : kind.view held = some result) :
    kind.Moved env db after source destination remainder result := by
  have destinationAlive : after.lapsed env destination = false := by
    apply kept_alive leaves.frame.loading
    rw [leaves.expiration, if_pos rfl]
  have sourceValue : source ≠ destination →
      after.value source = left.stored := by
    intro different
    rw [leaves.value, if_neg different, if_pos rfl]
  have sourceKept : db.keptExpiration env source = db.expiration source := by
    unfold keptExpiration
    rw [alive, if_neg Bool.false_ne_true]
  constructor
  · have seen : after.visible env destination = some held := by
      rw [visible_eq_some, leaves.value, if_pos rfl]
      exact ⟨destinationAlive, rfl⟩
    unfold Container.contents
    rw [seen]
    exact viewHeld
  · intro different more
    have full : ¬left.isEmpty = true := mt emptied.mp more
    have expires : after.expiration source = db.expiration source := by
      rw [leaves.expiration, if_neg different, if_pos rfl, if_neg full]
    have seen : after.visible env source = some left := by
      rw [visible_eq_some, sourceValue different, Value.stored, if_neg full,
        lapsed_congr leaves.frame.loading expires]
      exact ⟨alive, rfl⟩
    unfold Container.contents
    rw [seen]
    exact viewLeft
  · intro different nothing
    rw [visible_eq_none, sourceValue different, Value.stored,
      if_pos (emptied.mpr nothing)]
    exact .inr rfl
  · intro other notSource notDestination
    refine live_congr leaves.frame.loading ?_ ?_
    · rw [leaves.value, if_neg notDestination, if_neg notSource]
    · rw [leaves.expiration, if_neg notDestination, if_neg notSource]
  · intro slot value seen
    obtain ⟨slotAlive, stored⟩ := visible_eq_some.mp seen
    by_cases last : slot = destination
    · rw [leaves.expiration, if_pos last, last]
    · by_cases first : slot = source
      · rw [leaves.value, if_neg last, if_pos first, Value.stored] at stored
        have full : ¬left.isEmpty = true := by
          intro none
          rw [if_pos none] at stored
          cases stored
        rw [leaves.expiration, if_neg last, if_pos first, if_neg full, first,
          sourceKept]
      · have same : after.expiration slot = db.expiration slot := by
          rw [leaves.expiration, if_neg last, if_neg first]
        have wasAlive : after.lapsed env slot = db.lapsed env slot :=
          lapsed_congr leaves.frame.loading same
        unfold keptExpiration
        rw [same, ← wasAlive, slotAlive, if_neg Bool.false_ne_true]

/-- Behind the source the move ends as it should when the method of the
destination makes the contents that it should make. -/
theorem place_iff {α C : Type} (kind : Container C) (remainder result : C)
    (element : Bytes) (reply : Bytes → Response)
    (inside : db.inBounds index = true)
    (unlimited : db.config.maxmemory = none)
    (alive : db.lapsed env (index, source) = false)
    (takes : Sets db between (index, source) (some left)
      (db.expiration (index, source)))
    (viewLeft : kind.view left = some remainder)
    (emptied : left.isEmpty = true ↔ remainder = kind.empty)
    (method : Value → Value.Change α)
    (full : ∀ value answer changed,
      method value = (.ok answer, changed) → changed.isEmpty = false)
    (tail : Operation α → Writer Response)
    (succeeds : ∀ answer, tail (.ok answer) = (do
      Db.keyUpdated index source
      Db.keyUpdated index destination
      pure (reply element)))
    (fails : ∀ error state outcome after,
      (tail (.error error)).run (machine env) state = some (outcome, after) →
      outcome ≠ .ok (reply element)) :
    (∃ outcome after,
      (createThen index destination (fun value => some (method value)) >>=
        tail).run (machine env) between = some (outcome, after) ∧
      outcome = .ok (reply element) ∧
      kind.Moved env db after (index, source) (index, destination) remainder
        result) ↔
      ∃ answer changed,
        method ((between.value (index, destination)).getD .nil) =
          (.ok answer, changed) ∧ kind.view changed = some result := by
  have within : between.inBounds index = true := by
    unfold inBounds
    rw [takes.frame.config]
    exact inside
  have stillUnlimited : between.config.maxmemory = none := by
    rw [takes.frame.config, unlimited]
  cases called : method ((between.value (index, destination)).getD .nil) with
  | mk answer changed =>
      obtain ⟨created, ran, gives⟩ := run_createThen env within
        stillUnlimited (fun value => some (method value))
        (congrArg some called) tail
      rw [ran]
      cases answer with
      | error error =>
          constructor
          · rintro ⟨outcome, after, ended, replied, -⟩
            exact absurd replied (fails error _ _ _ ended)
          · rintro ⟨answer, other, same, -⟩
            cases same
      | ok answer =>
          rw [succeeds]
          obtain ⟨after, ended, leaves⟩ := run_updates inside alive takes
            gives (full _ _ _ called) (reply element)
          rw [ended]
          constructor
          · rintro ⟨outcome, other, same, -, moved⟩
            cases same
            refine ⟨answer, changed, rfl, ?_⟩
            have seen : after.visible env (index, destination) =
                some changed := by
              rw [visible_eq_some, leaves.value, if_pos rfl]
              refine ⟨kept_alive leaves.frame.loading ?_, rfl⟩
              rw [leaves.expiration, if_pos rfl]
            have enters := moved.enters
            unfold Container.contents at enters
            rw [seen] at enters
            exact enters
          · rintro ⟨_, _, same, viewHeld⟩
            cases same
            exact ⟨_, after, rfl, rfl,
              leaves.moved alive viewLeft emptied viewHeld⟩

/-- Behind a test of the destination the rest of the program decides. -/
theorem tested_iff {C : Type} {kind : Container C} {condition : Prop}
    {reply : Bytes → Response} {message : String} (test : Value → Bool)
    (tests : ∀ value, test value = (kind.view value).isSome)
    (program body : Writer Response)
    (starts : program.run (machine env) db =
      (match db.visible env (index, destination) with
        | some value =>
            if test value then body else throw (.fail message)
        | none => body : Writer Response).run (machine env) db)
    (decides : ∀ into,
      kind.contents env db (index, destination) = some into →
      (kind.Conserves env db body (index, source) (index, destination)
        reply ↔ condition)) :
    kind.Conserves env db program (index, source) (index, destination)
        reply ↔
      kind.contents env db (index, destination) = none ∨ condition := by
  have same : program.run (machine env) db = body.run (machine env) db →
      (kind.Conserves env db program (index, source) (index, destination)
        reply ↔
      kind.Conserves env db body (index, source) (index, destination)
        reply) := by
    intro alike
    unfold Container.Conserves
    rw [alike]
  cases seen : db.visible env (index, destination) with
  | none =>
      rw [seen] at starts
      have gets : kind.contents env db (index, destination) =
          some kind.empty := by
        unfold Container.contents
        rw [seen]
      refine Iff.trans ?_ (or_iff_right (by simp [gets])).symm
      exact (same starts).trans (decides _ gets)
  | some value =>
      have gets : kind.contents env db (index, destination) =
          kind.view value := by
        unfold Container.contents
        rw [seen]
      rw [seen] at starts
      dsimp only at starts
      rw [tests] at starts
      cases viewed : kind.view value with
      | none =>
          rw [viewed] at gets starts
          refine iff_of_true ?_ (.inl gets)
          unfold Container.Conserves
          rw [starts, Container.moved_refused (.inr gets)]
          exact ⟨_, db, rfl, .failed _, .refl env db⟩
      | some into =>
          rw [viewed] at gets starts
          refine Iff.trans ?_ (or_iff_right (by simp [gets])).symm
          exact (same starts).trans (decides _ gets)

/-! ## RPOPLPUSH -/

section Lists

open Container

theorem llen_isOk (value : Value) :
    value.llen.isOk = (lists.view value).isSome := by
  cases value <;> rfl

/-- What entering a list does. -/
theorem push_front {value : Value} (element : Bytes) (old : List Bytes)
    (view : lists.view value = some old) :
    ∃ count,
      value.push element false = (.ok count, .list (element :: old)) := by
  cases value with
  | nil =>
      cases view
      exact ⟨1, rfl⟩
  | list elements =>
      cases view
      exact ⟨_, rfl⟩
  | _ => cases view

theorem push_refused {value : Value} (element : Bytes)
    (view : lists.view value = none) :
    value.push element false = value.wrongType := by
  cases value with
  | nil => cases view
  | list elements => cases view
  | _ => rfl

/-- An element enters in front of what a list value holds, and in front of
nothing else. -/
theorem push_holds {value : Value} (element : Bytes) (held : List Bytes) :
    (∃ count changed, value.push element false = (.ok count, changed) ∧
      lists.view changed = some (element :: held)) ↔
      lists.view value = some held := by
  cases viewed : lists.view value with
  | none =>
      refine iff_of_false ?_ (by simp)
      rintro ⟨count, changed, pushed, -⟩
      rw [push_refused element viewed] at pushed
      cases pushed
  | some old =>
      obtain ⟨count, pushed⟩ := push_front element old viewed
      rw [pushed]
      constructor
      · rintro ⟨_, _, same, view⟩
        cases same
        cases view
        rfl
      · intro same
        cases same
        exact ⟨count, _, rfl, rfl⟩

/-- A list value that is stored is the one that is seen, unless an expired one
shows. -/
theorem lists_fresh_iff {slot : Slot} {into : List Bytes} (element : Bytes)
    (gets : lists.contents env db slot = some into) :
    lists.view ((db.value slot).getD .nil) = some into ↔
      lists.Fresh env db slot element := by
  rcases contents_cases gets with
    ⟨rfl, hidden⟩ | ⟨value, alive, stored, view⟩
  · cases stored : db.value slot with
    | none =>
        refine iff_of_true rfl ?_
        intro _ _ same
        rw [stored] at same
        cases same
    | some value =>
        have lapsed : db.lapsed env slot = true :=
          hidden.resolve_right (by simp [stored])
        constructor
        · intro view _ other same
          cases stored.symm.trans same
          exact .inr ⟨[], view, rfl⟩
        · intro fresh
          rcases fresh lapsed value stored with rfl | ⟨old, view, same⟩
          · rfl
          · rw [show old = [] from List.tail_eq_of_cons_eq same] at view
            exact view
  · rw [stored]
    refine iff_of_true view ?_
    intro lapsed
    rw [alive] at lapsed
    cases lapsed

/-- What leaving a list does. -/
theorem pop_back {value : Value} {elements : List Bytes}
    (view : lists.view value = some elements) :
    ∃ changed, value.pop true = (.ok elements.getLast?, changed) ∧
      lists.view changed = some elements.dropLast ∧
      (changed.isEmpty = true ↔ elements.dropLast = []) ∧
      (elements = [] → changed = value) := by
  cases value with
  | nil =>
      cases view
      exact ⟨.nil, rfl, rfl, by simp [Value.isEmpty], fun _ => rfl⟩
  | list elements =>
      cases view
      refine ⟨.list elements.dropLast, rfl, rfl, ?_, ?_⟩
      · rw [← List.length_eq_zero_iff, List.length_dropLast]
        simp [Value.isEmpty, ValueList.llen]
      · rintro rfl
        rfl
  | _ => cases view

/-- The program behind the test of the destination. -/
theorem moveElement_iff {into : List Bytes}
    (inside : db.inBounds index = true)
    (unlimited : db.config.maxmemory = none)
    (gets : lists.contents env db (index, destination) = some into) :
    lists.Conserves env db (moveElement index source destination)
        (index, source) (index, destination) .data ↔
      Announced env db index source ∧ ∀ move,
        lists.moved (lists.contents env db) (index, source)
          (index, destination) = some move →
        lists.Fresh env db (index, destination) move.1 := by
  unfold Conserves moveElement
  cases lapsed : db.lapsed env (index, source) with
  | true =>
      have has : lists.contents env db (index, source) = some [] := by
        unfold contents
        rw [visible_eq_none.mpr (.inl lapsed)]
        rfl
      have still : lists.moved (lists.contents env db) (index, source)
          (index, destination) = none :=
        moved_eq has gets
      rw [still]
      rcases run_getMut_lapsed inside lapsed _ with
        ⟨panics, silent⟩ | ⟨announced, after, live, ran⟩
      · rw [panics]
        refine iff_of_false ?_ ?_
        · rintro ⟨outcome, after, ended, -⟩
          cases ended
        · rintro ⟨announced, -⟩
          have said := announced lapsed
          rw [silent] at said
          cases said
      · rw [ran]
        exact iff_of_true ⟨_, after, rfl, .nil, live⟩
          ⟨fun _ => announced, fun _ same => by cases same⟩
  | false =>
      have announced : Announced env db index source := by
        intro expired
        rw [lapsed] at expired
        cases expired
      have seen : db.visible env (index, source) =
          db.value (index, source) := by
        unfold Database.visible
        rw [lapsed]
        rfl
      have kept := updateLru_kept env db index source
      rw [run_getMut inside lapsed]
      cases stored : db.value (index, source) with
      | none =>
          have has : lists.contents env db (index, source) = some [] := by
            unfold contents
            rw [seen, stored]
            rfl
          rw [moved_eq has gets]
          exact iff_of_true ⟨_, _, rfl, .nil, kept.live⟩
            ⟨announced, fun _ same => by cases same⟩
      | some value =>
          have has : lists.contents env db (index, source) =
              lists.view value := by
            unfold contents
            rw [seen, stored]
          cases viewed : lists.view value with
          | none =>
              rw [viewed] at has
              rw [moved_refused (.inl has)]
              have wrong : value.llen.isOk = false := by
                rw [llen_isOk, viewed]
                rfl
              simp only [wrong, Bool.false_eq_true, if_false]
              exact iff_of_true ⟨_, _, rfl, .replied _, kept.live⟩
                ⟨announced, fun _ same => by cases same⟩
          | some elements =>
              rw [viewed] at has
              obtain ⟨changed, popped, viewLeft, emptied, unchanged⟩ :=
                pop_back viewed
              have right : value.llen.isOk = true := by
                rw [llen_isOk, viewed]
                rfl
              have within : (db.updateLru env index source).inBounds index =
                  true := by
                unfold inBounds
                rw [kept.frame.config]
                exact inside
              simp only [right, if_true, popped]
              rw [run_put within, moved_eq has gets]
              have puts := put_sets (db.updateLru env index source) index
                source changed
              rw [kept.expiration] at puts
              have takes := sets_after puts kept
              cases last : elements.getLast? with
              | none =>
                  have empty : elements = [] :=
                    List.getLast?_eq_none_iff.mp last
                  have same := unchanged empty
                  subst same
                  rw [← stored] at takes
                  have nothing : lists.take elements = none := by
                    simp [lists, last]
                  rw [nothing]
                  exact iff_of_true ⟨_, _, rfl, .nil, takes.same_live⟩
                    ⟨announced, fun _ same => by cases same⟩
              | some element =>
                  have taken : lists.take elements =
                      some (element, elements.dropLast) := by
                    simp [lists, last]
                  rw [taken]
                  dsimp only [Option.map_some]
                  refine Iff.trans (place_iff lists elements.dropLast _
                    element .data inside unlimited lapsed takes viewLeft
                    emptied (fun value => value.push element false)
                    (fun _ _ _ pushed => Value.push_stays pushed) _
                    (fun _ => rfl) ?_) ?_
                  · rintro error state outcome after ⟨⟩ same
                    cases same
                  · refine (push_holds element _).trans ?_
                    refine Iff.trans ?_ (and_iff_right announced).symm
                    refine Iff.trans ?_ (by simp :
                      lists.Fresh env db (index, destination) element ↔ _)
                    rw [takes.value]
                    by_cases same : (index, destination) = (index, source)
                    · rw [if_pos same, if_pos same.symm]
                      refine iff_of_true viewLeft ?_
                      intro expired
                      rw [same, lapsed] at expired
                      cases expired
                    · rw [if_neg same, if_neg (Ne.symm same)]
                      exact lists_fresh_iff element gets

/-- The command conserves the elements unless the source cannot be announced
or the destination is not fresh. -/
theorem genericRpoplpush_iff
    (inside : db.inBounds index = true)
    (unlimited : db.config.maxmemory = none) :
    lists.Conserves env db (genericRpoplpush index source destination)
        (index, source) (index, destination) .data ↔
      lists.contents env db (index, destination) = none ∨
        Announced env db index source ∧ ∀ move,
          lists.moved (lists.contents env db) (index, source)
            (index, destination) = some move →
          lists.Fresh env db (index, destination) move.1 := by
  have starts : (genericRpoplpush index source destination).run
      (machine env) db =
      (match db.visible env (index, destination) with
        | some value =>
            if value.llen.isOk then moveElement index source destination
            else throw (.fail "WRONGTYPE Destination is not a list")
        | none => moveElement index source destination :
          Writer Response).run (machine env) db :=
    run_visible inside _
  exact tested_iff _ llen_isOk _ _ starts fun into gets =>
    moveElement_iff inside unlimited gets

end Lists

/-! ## SMOVE -/

section Sets

open Container

variable {member : Bytes} {limit : Nat}

omit [Platform] in
/-- A set that loses nothing is the same. -/
theorem srem_unchanged {set : ValueSet}
    (kept : (set.srem member).1 = false) : (set.srem member).2 = set := by
  cases set with
  | data elements =>
      have absent : member ∉ elements := of_decide_eq_false kept
      exact congrArg ValueSet.data (Finset.erase_eq_of_notMem absent)
  | integer numbers =>
      unfold ValueSet.srem at kept ⊢
      dsimp only at kept ⊢
      split at kept
      · rename_i number read
        have absent : number ∉ numbers := of_decide_eq_false kept
        exact congrArg ValueSet.integer (Finset.erase_eq_of_notMem absent)
      · rfl

omit [Platform] in
/-- Members that are numbers have no sign. -/
theorem signed_not_mem {numbers : Finset Nat}
    (sign : signed member = true) :
    member ∉ (ValueSet.integer numbers).members := by
  intro inside
  obtain ⟨number, -, written⟩ := ValueSet.mem_members_integer.mp inside
  exact signed_ne_natToString sign number written

omit [Platform] in
theorem confuses_not_mem {set : ValueSet}
    (confused : set.confuses member = true) : member ∉ set.members := by
  cases set with
  | data elements => cases confused
  | integer numbers =>
      apply signed_not_mem
      unfold ValueSet.confuses at confused
      dsimp only at confused
      split at confused
      · exact (Bool.and_eq_true_iff.mp confused).1
      · cases confused

omit [Platform] in
theorem confuses_removes {set : ValueSet}
    (confused : set.confuses member = true) :
    (set.srem member).1 = true := by
  cases set with
  | data elements => cases confused
  | integer numbers =>
      unfold ValueSet.confuses at confused
      unfold ValueSet.srem
      dsimp only at confused ⊢
      cases read : vecToUsize member with
      | ok number =>
          rw [read] at confused
          exact (Bool.and_eq_true_iff.mp confused).2
      | error error =>
          rw [read] at confused
          cases confused

omit [Platform] in
/-- A member enters a set as itself unless it is stored as another number. -/
theorem sadd_holds {set : ValueSet} {base : Finset Bytes}
    (bounded : set.Bounded) :
    (set.sadd member limit).2.members = insert member base ↔
      insert member set.members = insert member base ∧
        set.converts limit member = false := by
  cases converted : set.converts limit member with
  | false =>
      rw [(ValueSet.sadd_members bounded converted).2.1]
      exact (and_iff_left rfl).symm
  | true =>
      refine iff_of_false ?_ (by simp)
      intro same
      have inside : member ∈ (set.sadd member limit).2.members := by
        rw [same]
        exact Finset.mem_insert_self _ _
      cases set with
      | data elements => cases converted
      | integer numbers =>
          unfold ValueSet.converts at converted
          rw [Bool.and_eq_true, decide_eq_true_eq] at converted
          obtain ⟨room, sign⟩ := converted
          obtain ⟨number, read⟩ :
              ∃ number, vecToUsize member = .ok number := by
            have readable := (Bool.and_eq_true_iff.mp sign).2
            cases read : vecToUsize member with
            | ok number => exact ⟨number, rfl⟩
            | error error =>
                rw [read] at readable
                cases readable
          unfold ValueSet.sadd at inside
          dsimp only at inside
          rw [if_pos room, read] at inside
          exact signed_not_mem sign inside

/-- On a set it is a question of the members. -/
theorem sadd_set_iff {set : ValueSet} {base : Finset Bytes} (answer : Bool)
    (bounded : set.Bounded) :
    (∃ added changed,
      ((.ok answer, .set (set.sadd member limit).2) :
        Operation Bool × Value) = (.ok added, changed) ∧
      (sets member).view changed = some (insert member base)) ↔
      insert member set.members = insert member base ∧
        set.converts limit member = false := by
  rw [← sadd_holds bounded]
  constructor
  · rintro ⟨_, _, same, view⟩
    cases same
    exact Option.some.inj view
  · intro same
    exact ⟨_, _, rfl, congrArg some same⟩

/-- What the destination should hold is what it is given, unless an expired
set shows or the member is stored as another number. -/
theorem sets_fresh_iff {slot : Slot} {into : Finset Bytes}
    (bounded : (db.setAt slot).Bounded)
    (gets : (sets member).contents env db slot = some into) :
    (∃ added changed,
      ((db.value slot).getD .nil).sadd member limit = (.ok added, changed) ∧
        (sets member).view changed = some (insert member into)) ↔
      (sets member).Fresh env db slot member ∧
        (db.setAt slot).converts limit member = false := by
  unfold setAt at bounded ⊢
  rcases contents_cases gets with
    ⟨rfl, hidden⟩ | ⟨value, alive, stored, view⟩
  · cases stored : db.value slot with
    | none =>
        rw [stored] at bounded
        refine (sadd_set_iff true bounded).trans (and_congr_left fun _ => ?_)
        refine iff_of_true rfl ?_
        intro _ _ same
        rw [stored] at same
        cases same
    | some value =>
        have lapsed : db.lapsed env slot = true :=
          hidden.resolve_right (by simp [stored])
        rw [stored] at bounded
        cases value with
        | nil =>
            refine (sadd_set_iff true bounded).trans
              (and_congr_left fun _ => ?_)
            refine iff_of_true rfl ?_
            intro _ other same
            cases stored.symm.trans same
            exact .inl rfl
        | set set =>
            refine (sadd_set_iff _ bounded).trans (and_congr_left fun _ => ?_)
            constructor
            · intro alike _ other same
              cases stored.symm.trans same
              exact .inr ⟨_, rfl, alike⟩
            · intro fresh
              rcases fresh lapsed _ stored with none | ⟨_, view, alike⟩
              · cases none
              · cases view
                exact alike
        | _ =>
            refine iff_of_false ?_ ?_
            · rintro ⟨_, _, called, -⟩
              cases called
            · rintro ⟨fresh, -⟩
              rcases fresh lapsed _ stored with none | ⟨_, view, -⟩
              · cases none
              · cases view
  · rw [stored] at bounded ⊢
    cases value with
    | set set =>
        cases view
        refine (sadd_set_iff _ bounded).trans (and_congr_left fun _ => ?_)
        refine iff_of_true rfl ?_
        intro lapsed
        rw [alive] at lapsed
        cases lapsed
    | _ => cases view

/-- A signed member is taken for a number of the source. -/
def Confused (env : Env) (db : Database) (slot : Slot) (member : Bytes) :
    Prop :=
  ∃ set, db.visible env slot = some (.set set) ∧ set.confuses member = true

/-- A signed member enters another set as a number. -/
def Converted (db : Database) (source destination : Slot) (member : Bytes) :
    Prop :=
  source ≠ destination ∧
    (db.setAt destination).converts db.config.setMaxIntsetEntries member = true

omit [Platform] in
/-- A member that was removed is added again as itself. -/
theorem converts_removed {set : ValueSet} (inside : member ∈ set.members) :
    (set.srem member).2.converts limit member = false := by
  cases set with
  | data elements => rfl
  | integer numbers =>
      have unsigned : signed member = false :=
        Bool.eq_false_iff.mpr fun sign => signed_not_mem sign inside
      unfold ValueSet.srem
      dsimp only
      split
      · dsimp only [ValueSet.converts]
        rw [unsigned, Bool.and_false]
      · dsimp only [ValueSet.converts]
        rw [unsigned, Bool.and_false]

theorem set_isEmpty (set : ValueSet) :
    (Value.set set).isEmpty = true ↔ set.members = ∅ := by
  rw [← Finset.card_eq_zero, ValueSet.card_members]
  simp [Value.isEmpty]

theorem isSet_view (value : Value) :
    value.isSet = ((sets member).view value).isSome := by
  cases value <;> rfl

/-- A source that is no set is left as it is. -/
theorem moveMember_refuses {value : Value}
    (inside : db.inBounds index = true)
    (alive : db.lapsed env (index, source) = false)
    (stored : db.value (index, source) = some value)
    (view : (sets member).view value = none) :
    ∃ outcome after,
      (moveMember index source destination member).run (machine env) db =
          some (outcome, after) ∧
        Refusal outcome ∧ SameLive env db after := by
  have same : ∀ {after : Database},
      Sets db after (index, source) (some value)
        (db.expiration (index, source)) → SameLive env db after := by
    intro after takes
    rw [← stored] at takes
    exact takes.same_live
  unfold moveMember
  cases value with
  | set set => cases view
  | nil =>
      obtain ⟨after, ran, takes⟩ := run_mutThen inside alive stored
        (fun value => some (value.srem member)) rfl _
      exact ⟨_, after, ran, .zero, same takes⟩
  | _ =>
      obtain ⟨after, ran, takes⟩ := run_mutThen inside alive stored
        (fun value => some (value.srem member)) rfl _
      exact ⟨_, after, ran, .replied _, same takes⟩

omit [Platform] in
/-- The reply that says a member has moved is no refusal. -/
theorem not_refusal_one : ¬Refusal (.ok (.integer 1)) := by
  intro refusal
  generalize same : (Except.ok (.integer 1) : Except Response Response) =
    outcome at refusal
  cases refusal with
  | zero => simp at same
  | _ => cases same

/-- What follows when a member has left its source. -/
def arriveMember (index : Nat) (source destination member : Bytes) :
    Writer Response := do
  let config ← Db.config
  match ← createThen index destination fun value =>
      some (value.sadd member config.setMaxIntsetEntries) with
  | .error _ => orPanic none
  | .ok _ => do
      Db.keyUpdated index source
      Db.keyUpdated index destination
      pure (.integer 1)

theorem arriveMember_runs (db : Database) :
    (arriveMember index source destination member).run (machine env) db =
      (createThen index destination (fun value =>
        some (value.sadd member db.config.setMaxIntsetEntries)) >>= fun r =>
          match r with
          | .error _ => orPanic none
          | .ok _ => do
              Db.keyUpdated index source
              Db.keyUpdated index destination
              pure (.integer 1)).run (machine env) db :=
  run_op rfl _

/-- If the program ends, it says that the member has moved. -/
theorem arriveMember_claims {set : ValueSet}
    (inside : db.inBounds index = true)
    (unlimited : db.config.maxmemory = none)
    (alive : db.lapsed env (index, source) = false)
    (takes : Sets db between (index, source) (some (.set set))
      (db.expiration (index, source)))
    {outcome : Except Response Response} {after : Database}
    (ran : (arriveMember index source destination member).run (machine env)
      between = some (outcome, after)) :
    outcome = .ok (.integer 1) := by
  have within : between.inBounds index = true := by
    unfold inBounds
    rw [takes.frame.config]
    exact inside
  have stillUnlimited : between.config.maxmemory = none := by
    rw [takes.frame.config, unlimited]
  rw [arriveMember_runs] at ran
  cases called : ((between.value (index, destination)).getD .nil).sadd member
      between.config.setMaxIntsetEntries with
  | mk answer changed =>
      obtain ⟨created, runs, gives⟩ := run_createThen env within
        stillUnlimited (fun value =>
          some (value.sadd member between.config.setMaxIntsetEntries))
        (congrArg some called) _
      rw [runs] at ran
      cases answer with
      | error error => cases ran
      | ok added =>
          obtain ⟨_, ended, -⟩ := run_updates inside alive takes gives
            (Value.sadd_stays called) (.integer 1)
          cases ended.symm.trans ran
          rfl

/-- A source that is a set. -/
theorem moveMember_set_iff {into : Finset Bytes} {set : ValueSet}
    (inside : db.inBounds index = true)
    (unlimited : db.config.maxmemory = none)
    (bounded : ∀ slot, (db.setAt slot).Bounded)
    (alive : db.lapsed env (index, source) = false)
    (stored : db.value (index, source) = some (.set set))
    (gets : (sets member).contents env db (index, destination) = some into) :
    (sets member).Conserves env db
        (moveMember index source destination member)
        (index, source) (index, destination) (fun _ => .integer 1) ↔
      set.confuses member = false ∧
        (member ∈ set.members →
          (sets member).Fresh env db (index, destination) member ∧
          ¬Converted db (index, source) (index, destination) member) := by
  have has : (sets member).contents env db (index, source) =
      some set.members := by
    unfold contents Database.visible
    rw [alive, if_neg Bool.false_ne_true, stored]
    rfl
  have fits : set.Bounded := by
    have known := bounded (index, source)
    unfold setAt at known
    rw [stored] at known
    exact known
  have called : some ((Value.set set).srem member) =
      some (.ok (set.srem member).1, .set (set.srem member).2) := rfl
  obtain ⟨between, ran, takes⟩ := run_mutThen inside alive stored
    (fun value => some (value.srem member)) called _
  unfold Conserves moveMember
  rw [moved_eq has gets, ran]
  cases removed : (set.srem member).1 with
  | false =>
      have clear : set.confuses member = false := by
        apply Bool.eq_false_iff.mpr
        intro confused
        rw [confuses_removes confused] at removed
        cases removed
      have absent : member ∉ set.members := by
        rw [(ValueSet.srem_members fits clear).1] at removed
        exact of_decide_eq_false removed
      have nothing : (sets member).take set.members = none :=
        if_neg absent
      rw [srem_unchanged removed, ← stored] at takes
      rw [nothing]
      exact iff_of_true ⟨_, between, rfl, .zero, takes.same_live⟩
        ⟨clear, fun inside => absurd inside absent⟩
  | true =>
      show (∃ outcome after,
        (arriveMember index source destination member).run (machine env)
          between = some (outcome, after) ∧ _) ↔ _
      cases clear : set.confuses member with
      | true =>
          have absent := confuses_not_mem clear
          have nothing : (sets member).take set.members = none :=
            if_neg absent
          rw [nothing]
          refine iff_of_false ?_ fun both => by cases both.1
          rintro ⟨outcome, after, ended, refusal, -⟩
          rw [arriveMember_claims inside unlimited alive takes ended]
            at refusal
          exact not_refusal_one refusal
      | false =>
          obtain ⟨isMember, left, leftBounded⟩ :=
            ValueSet.srem_members fits clear
          rw [removed] at isMember
          have among : member ∈ set.members :=
            of_decide_eq_true isMember.symm
          have taken : (sets member).take set.members =
              some (member, set.members.erase member) :=
            if_pos among
          have config : between.config = db.config := takes.frame.config
          rw [taken]
          dsimp only [Option.map_some]
          simp only [arriveMember_runs]
          refine Iff.trans (place_iff (sets member)
            (set.members.erase member) _ member (fun _ => .integer 1) inside
            unlimited alive takes (congrArg some left) ?_
            (fun value => value.sadd member
              between.config.setMaxIntsetEntries)
            (fun _ _ _ done => Value.sadd_stays done) _
            (fun _ => rfl) ?_) ?_
          · rw [set_isEmpty, left]
            rfl
          · rintro _ _ _ _ ⟨⟩
          · refine Iff.trans ?_ (and_iff_right trivial).symm
            refine Iff.trans ?_ (forall_prop_of_true among).symm
            rw [config, takes.value]
            by_cases same : (index, destination) = (index, source)
            · rw [if_pos same, if_pos same.symm]
              refine iff_of_true ?_ ⟨?_, fun both => both.1 same.symm⟩
              · refine (sadd_set_iff _ leftBounded).mpr ?_
                rw [left]
                exact ⟨rfl, converts_removed among⟩
              · intro expired
                rw [same, alive] at expired
                cases expired
            · rw [if_neg same, if_neg (Ne.symm same)]
              refine (sets_fresh_iff (bounded _) gets).trans
                (and_congr_right fun _ => ?_)
              rw [← Bool.not_eq_true, Converted]
              exact not_congr (and_iff_right (Ne.symm same)).symm

/-- The program behind the test of the destination. -/
theorem moveMember_iff {into : Finset Bytes}
    (inside : db.inBounds index = true)
    (unlimited : db.config.maxmemory = none)
    (bounded : ∀ slot, (db.setAt slot).Bounded)
    (gets : (sets member).contents env db (index, destination) = some into) :
    (sets member).Conserves env db
        (moveMember index source destination member)
        (index, source) (index, destination) (fun _ => .integer 1) ↔
      Announced env db index source ∧
        ¬Confused env db (index, source) member ∧ ∀ move,
          (sets member).moved ((sets member).contents env db) (index, source)
            (index, destination) = some move →
          (sets member).Fresh env db (index, destination) move.1 ∧
            ¬Converted db (index, source) (index, destination) move.1 := by
  unfold Conserves moveMember
  cases lapsed : db.lapsed env (index, source) with
  | true =>
      have hidden : db.visible env (index, source) = none :=
        visible_eq_none.mpr (.inl lapsed)
      have has : (sets member).contents env db (index, source) = some ∅ := by
        unfold contents
        rw [hidden]
        rfl
      rw [moved_eq has gets]
      rcases run_mutThen_lapsed inside lapsed _ _ with
        ⟨panics, silent⟩ | ⟨announced, after, live, ran⟩
      · rw [panics]
        refine iff_of_false ?_ ?_
        · rintro ⟨outcome, after, ended, -⟩
          cases ended
        · rintro ⟨announced, -⟩
          have said := announced lapsed
          rw [silent] at said
          cases said
      · rw [ran]
        refine iff_of_true ⟨_, after, rfl, .zero, live⟩
          ⟨fun _ => announced, ?_, fun _ same => by cases same⟩
        rintro ⟨set, seen, -⟩
        rw [hidden] at seen
        cases seen
  | false =>
      have announced : Announced env db index source := by
        intro expired
        rw [lapsed] at expired
        cases expired
      have seen : db.visible env (index, source) =
          db.value (index, source) := by
        unfold Database.visible
        rw [lapsed]
        rfl
      cases stored : db.value (index, source) with
      | none =>
          have has : (sets member).contents env db (index, source) =
              some ∅ := by
            unfold contents
            rw [seen, stored]
            rfl
          rw [moved_eq has gets, run_mutThen_absent inside lapsed stored]
          refine iff_of_true
            ⟨_, _, rfl, .zero, (updateLru_kept env db index source).live⟩
            ⟨announced, ?_, fun _ same => by cases same⟩
          rintro ⟨set, present, -⟩
          rw [seen, stored] at present
          cases present
      | some value =>
          have has : (sets member).contents env db (index, source) =
              (sets member).view value := by
            unfold contents
            rw [seen, stored]
          cases value with
          | set set =>
              refine Iff.trans (moveMember_set_iff inside unlimited bounded
                lapsed stored gets) ?_
              refine Iff.trans ?_ (and_iff_right announced).symm
              have confused : ¬Confused env db (index, source) member ↔
                  set.confuses member = false := by
                unfold Confused
                rw [seen, stored]
                simp
              refine and_congr confused.symm ?_
              rw [moved_eq has gets]
              by_cases among : member ∈ set.members
              · have taken : (sets member).take set.members =
                    some (member, set.members.erase member) :=
                  if_pos among
                rw [taken]
                simp [among]
              · have nothing : (sets member).take set.members = none :=
                  if_neg among
                rw [nothing]
                simp [among]
          | _ =>
              rw [moved_refused (.inl has)]
              refine iff_of_true
                (moveMember_refuses inside lapsed stored rfl)
                ⟨announced, ?_, fun _ same => by cases same⟩
              rintro ⟨set, present, -⟩
              rw [seen, stored] at present
              cases present

/-- The command conserves the elements unless the source cannot be announced,
the destination is not fresh, or a signed member is taken for a number. -/
theorem smove_iff (name : Bytes) (inside : db.inBounds index = true)
    (unlimited : db.config.maxmemory = none)
    (bounded : ∀ slot, (db.setAt slot).Bounded) :
    (sets member).Conserves env db
        (smove [name, source, destination, member] index)
        (index, source) (index, destination) (fun _ => .integer 1) ↔
      (sets member).contents env db (index, destination) = none ∨
        Announced env db index source ∧
          ¬Confused env db (index, source) member ∧ ∀ move,
            (sets member).moved ((sets member).contents env db)
              (index, source) (index, destination) = some move →
            (sets member).Fresh env db (index, destination) move.1 ∧
              ¬Converted db (index, source) (index, destination) move.1 := by
  have starts : (smove [name, source, destination, member] index).run
      (machine env) db =
      (match db.visible env (index, destination) with
        | some value =>
            if value.isSet then moveMember index source destination member
            else throw (.fail ("WRONGTYPE Operation against a key holding " ++
              "the wrong kind of value"))
        | none => moveMember index source destination member :
          Writer Response).run (machine env) db := by
    refine (run_visible inside _).trans ?_
    cases db.visible env (index, destination) with
    | none => rfl
    | some value =>
        dsimp only
        split <;> rfl
  exact tested_iff _ isSet_view _ _ starts fun into gets =>
    moveMember_iff inside unlimited bounded gets

end Sets

/-- Both commands conserve the elements exactly when an expired source can be
announced, an expired destination is fresh and no signed member is taken for a
number. -/
theorem element_moves_iff (env : Env)
    (name name' source destination member : Bytes)
    (inside : db.inBounds index = true)
    (unlimited : db.config.maxmemory = none)
    (bounded : ∀ slot, (db.setAt slot).Bounded) :
    (Container.lists.Conserves env db
        (rpoplpush [name, source, destination] index)
        (index, source) (index, destination) .data ↔
      Container.lists.contents env db (index, destination) = none ∨
        Announced env db index source ∧ ∀ move,
          Container.lists.moved (Container.lists.contents env db)
            (index, source) (index, destination) = some move →
          Container.lists.Fresh env db (index, destination) move.1) ∧
    ((Container.sets member).Conserves env db
        (smove [name', source, destination, member] index)
        (index, source) (index, destination) (fun _ => .integer 1) ↔
      (Container.sets member).contents env db (index, destination) = none ∨
        Announced env db index source ∧
          ¬Confused env db (index, source) member ∧ ∀ move,
            (Container.sets member).moved
              ((Container.sets member).contents env db)
              (index, source) (index, destination) = some move →
            (Container.sets member).Fresh env db (index, destination) move.1 ∧
              ¬Converted db (index, source) (index, destination) move.1) :=
  ⟨genericRpoplpush_iff inside unlimited,
    smove_iff name' inside unlimited bounded⟩

end

section

attribute [local instance] Platform.integral

/-- A database with one list under a key. -/
def oneList (elements : List Bytes) : Database :=
  (Database.new {} none).put 0 (text "source") (.list elements)

theorem oneList_bounded (elements : List Bytes) (slot : Slot) :
    ((oneList elements).setAt slot).Bounded := by
  unfold setAt oneList
  rw [(put_sets (Database.new {} none) 0 (text "source")
    (.list elements)).value]
  by_cases same : slot = (0, text "source")
  · rw [if_pos same]
    exact ValueSet.bounded_new
  · rw [if_neg same]
    exact ValueSet.bounded_new

/-- The last of two elements is moved to a key that does not exist, and no
member is moved out of a list. -/
theorem element_moves_two :
    Container.lists.Conserves (.still 0) (oneList [[1], [2]])
        (rpoplpush [text "RPOPLPUSH", text "source", text "other"] 0)
        (0, text "source") (0, text "other") .data ∧
      (Container.sets [1]).Conserves (.still 0) (oneList [[1], [2]])
        (smove [text "SMOVE", text "source", text "other", [1]] 0)
        (0, text "source") (0, text "other") (fun _ => .integer 1) := by
  have inside : (oneList [[1], [2]]).inBounds 0 = true := rfl
  have moves := element_moves_iff (.still 0) (text "RPOPLPUSH")
    (text "SMOVE") (text "source") (text "other") [1] inside rfl
    (oneList_bounded [[1], [2]])
  refine ⟨moves.1.mpr (.inr ⟨nofun, ?_⟩), moves.2.mpr (.inr ⟨nofun, ?_, ?_⟩)⟩
  · intro _ _ lapsed
    cases lapsed
  · rintro ⟨_, seen, -⟩
    cases seen
  · intro _ moved
    cases moved

/-- A list that expires when the clock is at zero is still stored. -/
def expiredList : Database :=
  ((oneList [[1]]).put 0 (text "other") (.list [[2]])).setExpirations 0
    (Finmap.singleton (text "other") 0)

theorem element_moves_revive :
    ¬∀ (env : Env) (db : Database) (index : Nat)
      (name source destination : Bytes),
      db.inBounds index = true → db.config.maxmemory = none →
      Container.lists.Conserves env db
        (rpoplpush [name, source, destination] index)
        (index, source) (index, destination) .data := by
  intro conserves
  have shows : ((rpoplpush
      [text "RPOPLPUSH", text "source", text "other"] 0).run
        (machine (.still 0)) expiredList).map (fun ended =>
          Container.lists.contents (.still 0) ended.2 (0, text "other")) =
      some (some [[1], [2]]) :=
    rfl
  have moves : Container.lists.moved
      (Container.lists.contents (.still 0) expiredList)
      (0, text "source") (0, text "other") = some ([1], [], [[1]]) :=
    rfl
  obtain ⟨outcome, after, ran, moved⟩ := conserves (.still 0) expiredList 0
    (text "RPOPLPUSH") (text "source") (text "other") rfl rfl
  rw [ran] at shows
  rw [moves] at moved
  have enters := moved.2.enters
  cases enters.symm.trans (Option.some.inj shows)

end

end Command

end RedVector
