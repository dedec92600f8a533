import RedVector.Command.Sets
import RedVector.Command.Specs

/-!
# Drawing members

What the methods behind SPOP and SRANDMEMBER draw from a set, whatever the
samples are and however the set lists its members.
-/

namespace RedVector.Command

open Effect Util Database

variable [Platform]

/-- An operation that reads, as a part of a handler that writes. -/
theorem lift_read_run (env : Env) (db : Database) (op : ReadOp) :
    ((Program.call op .pure : Reader op.Ret).lift readInclusion).run
        (machine env) db =
      (db.read env op).map fun answer => (.ok answer, db) := by
  rw [Program.lift, Program.run_call]
  show ((db.read env op).map fun answer => (answer, db)).bind _ = _
  cases db.read env op with
  | none => rfl
  | some answer => rfl

/-- What SPOP draws from a set are different members of it, as many as it is
asked for or all of them, and they are gone from the set. -/
theorem run_drawMembers
    (env : Env) (db : Database) (set : ValueSet) (count : Nat) :
    ∃ popped, ((drawMembers set count).lift readInclusion).run (machine env)
        db = some (.ok (popped, set.removeAll popped), db) ∧
      popped.Nodup ∧ (∀ element ∈ popped, element ∈ set.members) ∧
      popped.length = min count set.scard := by
  have order := lift_read_run env db .order
  unfold drawMembers
  by_cases whole : set.scard ≤ count
  · refine ⟨env.order set.members, ?_, env.order_nodup _, ?_, ?_⟩
    · rw [Program.lift_bind, Program.run_bind]
      refine (congrArg (Option.bind · _) order).trans ?_
      change ((if set.scard ≤ count then _ else _ : Reader _).lift
        readInclusion).run (machine env) db = _
      rw [if_pos whole]
      rfl
    · exact fun element => (env.mem_order set.members element).mp
    · rw [ValueSet.length_order env.order_nodup env.mem_order,
        ValueSet.card_members]
      omega
  · have drawn := lift_read_run env db
      (.randomPositions set.scard count false)
    rw [Database.read, if_neg (by omega)] at drawn
    obtain ⟨popped, ran, apart, among, length⟩ :=
      ValueSet.spopAt_spec env.order_nodup env.mem_order
        (env.positions_descend set.scard count) (by
          rw [ValueSet.card_members]
          exact env.positions_lt (by omega) count false)
    refine ⟨popped, ?_, apart, among, ?_⟩
    · rw [Program.lift_bind, Program.run_bind]
      refine (congrArg (Option.bind · _) order).trans ?_
      change ((if set.scard ≤ count then _ else _ : Reader _).lift
        readInclusion).run (machine env) db = _
      rw [if_neg whole, Program.lift_bind, Program.run_bind]
      refine (congrArg (Option.bind · _) drawn).trans ?_
      change ((orPanic (ValueSet.spopAt env.order
        (env.positions set.scard count false) set) : Reader _).lift
          readInclusion).run (machine env) db = _
      rw [ran]
      rfl
    · rw [length, env.positions_length, if_neg Bool.false_ne_true,
        Nat.min_comm]

/-- What SRANDMEMBER draws from a set that is not empty are members of it, as
many as it is asked for, or all of them when they have to be different. -/
theorem run_srandmemberOf
    (env : Env) (db : Database) {set : ValueSet} (given : set.scard ≠ 0)
    (count : Nat) (allowDuplicates : Bool) :
    ∃ drawn, ((srandmemberOf (.set set) count allowDuplicates).lift
        readInclusion).run (machine env) db = some (.ok (.ok drawn), db) ∧
      (∀ element ∈ drawn, element ∈ set.members) ∧
      drawn.length = (if allowDuplicates then count
        else min set.scard count) ∧
      (allowDuplicates = false → drawn.Nodup) := by
  have order := lift_read_run env db .order
  have positions := lift_read_run env db
    (.randomPositions set.scard count allowDuplicates)
  rw [Database.read, if_neg given] at positions
  have inside : ∀ position ∈ env.positions set.scard count allowDuplicates,
      position < (env.order set.members).length := by
    rw [ValueSet.length_order env.order_nodup env.mem_order,
      ValueSet.card_members]
    exact env.positions_lt (Nat.pos_of_ne_zero given) count allowDuplicates
  refine ⟨ValueSet.pick (env.order set.members)
    (env.positions set.scard count allowDuplicates), ?_, ?_, ?_, ?_⟩
  · unfold srandmemberOf
    rw [Program.lift_bind, Program.run_bind]
    refine (congrArg (Option.bind · _) positions).trans ?_
    change ((do
      let order ← Db.order
      let drawn ← orPanic (set.srandmember order
        (env.positions set.scard count allowDuplicates))
      pure (.ok drawn) : Reader (Operation (List Bytes))).lift
        readInclusion).run (machine env) db = _
    rw [Program.lift_bind, Program.run_bind]
    refine (congrArg (Option.bind · _) order).trans ?_
    change ((do
      let drawn ← orPanic (set.srandmember env.order
        (env.positions set.scard count allowDuplicates))
      pure (.ok drawn) : Reader (Operation (List Bytes))).lift
        readInclusion).run (machine env) db = _
    rw [ValueSet.srandmember_eq inside]
    rfl
  · intro element among
    exact (env.mem_order _ _).mp (ValueSet.mem_of_mem_pick among)
  · rw [ValueSet.length_pick inside, env.positions_length]
  · rintro rfl
    exact ValueSet.nodup_pick (env.order_nodup _)
      ((env.positions_descend set.scard count).imp Nat.ne_of_gt)

/-- There is no range to draw from an empty set. -/
theorem run_srandmemberOf_empty
    (env : Env) (db : Database) {set : ValueSet} (empty : set.scard = 0)
    (count : Nat) (allowDuplicates : Bool) :
    ((srandmemberOf (.set set) count allowDuplicates).lift
      readInclusion).run (machine env) db = none := by
  have positions := lift_read_run env db
    (.randomPositions set.scard count allowDuplicates)
  rw [Database.read, if_pos empty] at positions
  unfold srandmemberOf
  rw [Program.lift_bind, Program.run_bind]
  exact congrArg (Option.bind · _) positions

end RedVector.Command
