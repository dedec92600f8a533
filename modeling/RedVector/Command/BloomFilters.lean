import RedVector.Command.Failure
import RedVector.Command.Present
import RedVector.Util.Marking

/-!
# Bloom filters that are reserved and added to

A filter counts its insertions, and one that counts none is empty to the
update of its key.
-/

namespace RedVector

open Util Effect Database

section Filters

variable [Platform]

/-- What the crate documents: its filters mark and test positions of items, and
a new one has no marks. -/
structure BloomLaws {Position : Type}
    (marked : Platform.BloomFilter → Set Position)
    (positions : Platform.BloomFilter → Bytes → Set Position) : Prop where
  marking : Marking Platform.bloomInsert Platform.bloomContains marked
    positions
  fresh : ∀ errorRate capacity,
    marked (Platform.bloomNew errorRate capacity) = ∅

/-! ## Values -/

/-- Only an item that was not there is counted. -/
theorem ValueBloom.add_insertions (bloom : ValueBloom) (item : Bytes) :
    (bloom.add item).2.insertions =
      if (Platform.bloomInsert bloom.filter item).1 then bloom.insertions
      else bloom.insertions + 1 :=
  rfl

/-- A filter counts an insertion and contains the items; any other value holds
none of them. -/
def Value.Covers (items : List Bytes) : Value → Prop
  | .bloom filter =>
      filter.insertions ≠ 0 ∧ ∀ item ∈ items, filter.exists' item = true
  | _ => items = []

namespace Value

theorem Covers.start
    {value : Value} (full : value.isEmpty = false) : value.Covers [] := by
  cases value with
  | bloom filter => exact ⟨by simpa [isEmpty] using full, nofun⟩
  | _ => rfl

theorem Covers.subset
    {value : Value} {items fewer : List Bytes} (covers : value.Covers items)
    (among : fewer ⊆ items) : value.Covers fewer := by
  cases value with
  | bloom filter =>
      exact ⟨covers.1, fun item member => covers.2 item (among member)⟩
  | _ =>
      have nothing : items = [] := covers
      exact List.subset_nil.mp (nothing ▸ among)

/-- A value that holds items is not empty. -/
theorem Covers.stays
    {value : Value} {item : Bytes} {items : List Bytes}
    (covers : value.Covers (item :: items)) : value.stored = some value := by
  cases value with
  | bloom filter => exact if_neg (by simpa [isEmpty] using covers.1)
  | _ => cases covers

section Laws

variable {Position : Type} {marked : Platform.BloomFilter → Set Position}
  {positions : Platform.BloomFilter → Bytes → Set Position}

/-- An item that is added is held beside the others. -/
theorem Covers.bfAdd
    (laws : BloomLaws marked positions) {value after : Value}
    {items : List Bytes} {item : Bytes} {added : Bool}
    (covers : value.Covers items)
    (called : value.bfAdd item = (.ok added, after)) :
    after.Covers (item :: items) := by
  cases value with
  | nil =>
      have nothing : items = [] := covers
      cases called
      have absent : (Platform.bloomInsert ValueBloom.defaultFilter.filter
          item).1 = false := by
        rw [laws.marking.insert_answer]
        exact laws.marking.contains_unmarked (laws.fresh _ _) item
      refine ⟨?_, ?_⟩
      · show (ValueBloom.defaultFilter.add item).2.insertions ≠ 0
        rw [ValueBloom.add_insertions, absent]
        exact Nat.succ_ne_zero _
      · rw [nothing]
        intro other member
        cases List.mem_singleton.mp member
        exact laws.marking.contains_inserted _ _
  | bloom filter =>
      obtain ⟨counted, contained⟩ := covers
      cases called
      refine ⟨?_, ?_⟩
      · show (filter.add item).2.insertions ≠ 0
        rw [ValueBloom.add_insertions]
        split
        · exact counted
        · exact Nat.succ_ne_zero _
      · intro other member
        rcases List.mem_cons.mp member with rfl | member
        · exact laws.marking.contains_inserted _ _
        · exact laws.marking.contains_kept (contained other member) item
  | _ => cases called

end Laws

end Value

namespace Command

/-- The items are added one after the other. -/
theorem bfAddAll_covers
    {Position : Type} {marked : Platform.BloomFilter → Set Position}
    {positions : Platform.BloomFilter → Bytes → Set Position}
    (laws : BloomLaws marked positions) {more : List Bytes} :
    ∀ {value after : Value} {items : List Bytes} {replies : List Response},
      value.Covers items → bfAddAll more value = (.ok replies, after) →
      after.Covers (more ++ items) := by
  induction more with
  | nil =>
      intro value after items replies covers called
      cases called
      exact covers
  | cons item more ih =>
      intro value after items replies covers called
      unfold bfAddAll at called
      split at called
      · cases called
      · rename_i added between first
        split at called
        · cases called
        · rename_i later last rest
          cases called
          apply (ih (covers.bfAdd laws first) rest).subset
          intro other member
          simp only [List.cons_append, List.mem_cons, List.mem_append]
            at member ⊢
          tauto

/-! ### Methods with an update -/

section Calls

variable {α : Type} {env : Env} {db : Database} {index : Nat} {key : Bytes}

/-- What a method on the value of a slot leaves, with the update of the slot if
the method succeeds. -/
structure Calls (method : Value → Value.Change α) (ok : α → Response)
    (slot : Slot) (before : Database) (result : Except Response Response)
    (after : Database) : Prop where
  inside : before.inBounds slot.1 = true
  frame : Frame before after
  called : ∃ answer changed,
    method ((before.value slot).getD .nil) = (answer, changed) ∧
      result = .ok (respond answer ok) ∧
      after.value slot =
        match answer with
        | .ok _ => changed.stored
        | .error _ => some changed

/-- An operation on a database that there is. -/
theorem createThen_inside
    {β : Type} {method : Value → Option (Value.Change α)}
    {rest : Operation α → Writer β} :
    Ensures env (createThen index key method >>= rest)
      (fun _ _ => db.inBounds index = true) db := by
  unfold createThen
  rw [bind_assoc]
  refine ensures_op (.getOrCreate index key) ?_
  intro answer after performed _ _ _
  exact (checked_eq_some.mp performed).1

theorem created_calls
    (method : Value → Value.Change α) (ok : α → Response) :
    Ensures env
      (do
        let r ← createThen index key fun value => some (method value)
        updateOnSuccess index key r ok)
      (Calls method ok (index, key) db) db := by
  suffices leaves : Ensures env _
      (fun result after => db.inBounds index = true →
        Calls method ok (index, key) db result after) db by
    intro result last ran
    exact leaves result last ran (createThen_inside result last ran)
  refine ensures_createThen ?_
  intro answer changed after called creates _
  have called := Option.some.inj called
  cases answer with
  | ok value =>
      refine ensures_keyUpdated ?_
      intro last updated
      obtain ⟨sets, -⟩ := keyUpdated_spec updated
      refine Program.ensures_pure fun inside =>
        ⟨inside, creates.frame.trans sets.frame, _, _, called, rfl, ?_⟩
      rw [sets.value_self]
      unfold surviving vanishing
      rw [creates.value]
      rfl
  | error error =>
      exact Program.ensures_pure fun inside =>
        ⟨inside, creates.frame, _, _, called, rfl, creates.value⟩

end Calls

/-! ## Reservations -/

/-- The arguments of a reservation with a rate between zero and one and a
capacity. -/
structure Reservation (argv : Arguments) (key : Bytes) (errorRate : F64)
    (capacity : Int) : Prop where
  four : argv.length = 4
  named : argv.getVec 1 = .ok key
  isRate : argv.getF64 2 = .ok errorRate
  isCapacity : argv.getI64 3 = .ok capacity
  above : Platform.f64Lt Platform.f64Zero errorRate = true
  below : Platform.f64Lt errorRate Platform.f64One = true
  positive : 0 < capacity

/-- A reservation that is accepted has made a filter of its arguments, which
the update of the key has removed. -/
theorem bfReserve_removes
    {env : Env} {db : Database} {index : Nat} {argv : Arguments}
    {key : Bytes} (named : argv.getVec 1 = .ok key) :
    Ensures env (bfReserve argv index)
      (fun result after => result = .ok .ok →
        after.value (index, key) = none ∧
          ∃ errorRate capacity filter, argv.getF64 2 = .ok errorRate ∧
            argv.getI64 3 = .ok capacity ∧
            ValueBloom.new errorRate capacity.toNat = .ok filter) db := by
  unfold bfReserve
  refine ensures_exact (fun _ _ => nofun) ?_
  intro four
  refine ensures_valid (fun _ _ _ => nofun) ?_
  intro same isKey
  cases named.symm.trans isKey
  refine ensures_valid (fun _ _ _ => nofun) ?_
  intro errorRate isRate
  refine ensures_valid (fun _ _ _ => nofun) ?_
  intro capacity isCapacity
  split
  · exact Program.ensures_pure nofun
  · refine (created_calls _ _).mono ?_
    rintro result after ⟨-, -, answer, changed, called, rfl, left⟩ accepted
    cases answer with
    | error error => cases accepted
    | ok value =>
        unfold Value.bfReserve at called
        split at called
        · split at called
          · rename_i filter made
            cases called
            refine ⟨?_, errorRate, capacity, filter, isRate, isCapacity,
              made⟩
            -- The filter has no insertions.
            rw [left]
            unfold ValueBloom.new at made
            split at made
            · cases made
            · cases made
              rfl
          · cases called
        · cases called

/-- A key without a value is reserved again and again. -/
theorem bfReserve_accepts
    {env : Env} {db : Database} {index : Nat} {argv : Arguments}
    {key : Bytes} {errorRate : F64} {capacity : Int}
    (reservation : Reservation argv key errorRate capacity)
    (absent : db.value (index, key) = none) :
    Ensures env (bfReserve argv index)
      (fun result _ => result = .ok .ok) db := by
  unfold bfReserve
  refine ensures_exact
    (fun _ different => absurd reservation.four different) ?_
  intro _
  refine ensures_valid
    (fun _ _ failed => by cases failed.symm.trans reservation.named) ?_
  intro same isKey
  cases reservation.named.symm.trans isKey
  refine ensures_valid
    (fun _ _ failed => by cases failed.symm.trans reservation.isRate) ?_
  intro rate isRate
  cases reservation.isRate.symm.trans isRate
  refine ensures_valid
    (fun _ _ failed => by cases failed.symm.trans reservation.isCapacity) ?_
  intro size isSize
  cases reservation.isCapacity.symm.trans isSize
  rw [if_neg (by have := reservation.positive; omega)]
  refine (created_calls _ _).mono ?_
  rintro result after ⟨-, -, answer, changed, called, rfl, -⟩
  have some : capacity.toNat ≠ 0 := by
    have := reservation.positive
    omega
  have made : ∃ filter,
      ValueBloom.new errorRate capacity.toNat = .ok filter := by
    unfold ValueBloom.new
    rw [reservation.above, reservation.below]
    simp [some]
  obtain ⟨filter, made⟩ := made
  rw [absent] at called
  have method : Value.bfReserve errorRate capacity.toNat .nil =
      (.ok (), .bloom filter) := by
    unfold Value.bfReserve
    rw [made]
  cases method.symm.trans called
  rfl

/-! ## Additions -/

/-- The items of a command that was answered with what became of them. -/
def added (argv : Arguments) : Except Response Response → List Bytes
  | .ok (.integer _) => argv.drop 2
  | .ok (.array _) => argv.drop 2
  | _ => []

/-- What is done to a slot from one state to another: items are added to it,
and in between whatever leaves its value. -/
inductive Adding (slot : Slot) : List Bytes → Database → Database → Prop
  | none (db : Database) : Adding slot [] db db
  | bfAdd {items : List Bytes} {start before after : Database} {env : Env}
      {argv : Arguments} {result : Except Response Response}
      (earlier : Adding slot items start before)
      (named : argv.getVec 1 = .ok slot.2)
      (ran : (bfAdd argv slot.1).run (machine env) before =
        some (result, after)) :
      Adding slot (added argv result ++ items) start after
  | bfMadd {items : List Bytes} {start before after : Database} {env : Env}
      {argv : Arguments} {result : Except Response Response}
      (earlier : Adding slot items start before)
      (named : argv.getVec 1 = .ok slot.2)
      (ran : (bfMadd argv slot.1).run (machine env) before =
        some (result, after)) :
      Adding slot (added argv result ++ items) start after
  | aside {items : List Bytes} {start before after : Database}
      (earlier : Adding slot items start before)
      (frame : Frame before after)
      (left : after.value slot = before.value slot) :
      Adding slot items start after

/-- The value of a slot holds the items. -/
structure Holds (slot : Slot) (items : List Bytes) (db : Database) :
    Prop where
  inside : items ≠ [] → db.inBounds slot.1 = true
  covers : ((db.value slot).getD .nil).Covers items

/-- What one command keeps of the items that are held. -/
abbrev Grows (slot : Slot) (argv : Arguments) (before : Database)
    (result : Except Response Response) (after : Database) : Prop :=
  ∀ items, Holds slot items before →
    Holds slot (added argv result ++ items) after

theorem Holds.frame
    {slot : Slot} {items : List Bytes} {before after : Database}
    (holds : Holds slot items before) (frame : Frame before after)
    (left : after.value slot = before.value slot) :
    Holds slot items after := by
  constructor
  · intro some
    unfold inBounds
    rw [frame.config]
    exact holds.inside some
  · rw [left]
    exact holds.covers

section Laws

variable {Position : Type} {marked : Platform.BloomFilter → Set Position}
  {positions : Platform.BloomFilter → Bytes → Set Position}

/-- A method that adds the items or leaves the value. -/
theorem Calls.grows
    {α : Type} {method : Value → Value.Change α} {ok : α → Response}
    {slot : Slot} {argv : Arguments} {before after : Database}
    {result : Except Response Response} {item : Bytes} {more : List Bytes}
    (calls : Calls method ok slot before result after)
    (given : argv.drop 2 = item :: more)
    (answered : ∀ value, added argv (.ok (ok value)) = argv.drop 2)
    (atomic : Value.Atomic fun value => some (method value))
    (adds : ∀ value changed items answer, value.Covers items →
      method value = (.ok answer, changed) →
      changed.Covers (argv.drop 2 ++ items)) :
    Grows slot argv before result after := by
  intro items holds
  obtain ⟨inside, frame, answer, changed, called, rfl, left⟩ := calls
  have within : after.inBounds slot.1 = true := by
    unfold inBounds
    rw [frame.config]
    exact inside
  refine ⟨fun _ => within, ?_⟩
  cases answer with
  | ok value =>
      have covers := adds _ changed items value holds.covers called
      rw [given] at covers
      have stays : changed.stored = some changed := covers.stays
      rw [left]
      dsimp only [respond]
      rw [stays, answered, given]
      exact covers
  | error error =>
      have same := atomic _ error changed (congrArg some called)
      rw [left, same]
      exact holds.covers

theorem bfAdd_grows
    (laws : BloomLaws marked positions) {env : Env} {db : Database}
    {index : Nat} {key : Bytes} {argv : Arguments}
    (named : argv.getVec 1 = .ok key) :
    Ensures env (bfAdd argv index) (Grows (index, key) argv db) db := by
  unfold bfAdd
  refine ensures_exact (fun _ _ _ holds => holds) ?_
  intro three
  refine ensures_valid (fun _ _ _ _ holds => holds) ?_
  intro same isKey
  cases named.symm.trans isKey
  refine ensures_valid (fun _ _ _ _ holds => holds) ?_
  intro item isItem
  have given : argv.drop 2 = [item] := by
    have second : argv[2]? = some item := getVec_eq_ok isItem
    obtain ⟨inside, rfl⟩ := List.getElem?_eq_some_iff.mp second
    rw [List.drop_eq_getElem_cons inside, List.drop_of_length_le]
    omega
  refine (created_calls _ _).mono ?_
  intro result after calls
  refine calls.grows given (fun _ => rfl) (Value.bfAdd_atomic item) ?_
  intro value changed items answer covers called
  rw [given]
  exact covers.bfAdd laws called

theorem bfMadd_grows
    (laws : BloomLaws marked positions) {env : Env} {db : Database}
    {index : Nat} {key : Bytes} {argv : Arguments}
    (named : argv.getVec 1 = .ok key) :
    Ensures env (bfMadd argv index) (Grows (index, key) argv db) db := by
  unfold bfMadd
  refine ensures_gte (fun _ _ _ holds => holds) ?_
  intro enough
  refine ensures_valid (fun _ _ _ _ holds => holds) ?_
  intro same isKey
  cases named.symm.trans isKey
  have given : argv.drop 2 = argv[2] :: argv.drop 3 :=
    List.drop_eq_getElem_cons (by omega)
  refine (created_calls _ _).mono ?_
  intro result after calls
  refine calls.grows given (fun _ => rfl) (bfAddAll_atomic (argv.drop 2)) ?_
  intro value changed items answer covers called
  exact bfAddAll_covers laws covers called

/-- Items that were added are held from then on. -/
theorem Adding.holds
    (laws : BloomLaws marked positions) {slot : Slot} {items : List Bytes}
    {start after : Database} (adding : Adding slot items start after)
    (full : start.vanishing slot = false) : Holds slot items after := by
  induction adding with
  | none db =>
      refine ⟨nofun, ?_⟩
      unfold vanishing at full
      cases held : db.value slot with
      | none => rfl
      | some value =>
          rw [held] at full
          exact Value.Covers.start full
  | bfAdd earlier named ran ih =>
      exact bfAdd_grows laws named _ _ ran _ (ih full)
  | bfMadd earlier named ran ih =>
      exact bfMadd_grows laws named _ _ ran _ (ih full)
  | aside earlier frame left ih => exact (ih full).frame frame left

end Laws

/-- An item that is held is found. -/
theorem bfExists_held
    {env : Env} {db : Database} {slot : Slot} {items : List Bytes}
    {item : Bytes} {argv : Arguments} (holds : Holds slot items db)
    (member : item ∈ items) (three : argv.length = 3)
    (named : argv.getVec 1 = .ok slot.2) (asked : argv.getVec 2 = .ok item)
    (alive : db.lapsed env slot = false) :
    ((bfExists argv slot.1).lift readInclusion).run (machine env) db =
      some (.ok (.integer 1), db) := by
  have inside := holds.inside (List.ne_nil_of_mem member)
  have covers := holds.covers
  cases held : db.value slot with
  | none =>
      rw [held] at covers
      exact absurd covers (List.ne_nil_of_mem member)
  | some value =>
      rw [held] at covers
      cases value with
      | bloom filter =>
          have found : filter.exists' item = true := covers.2 item member
          unfold bfExists validateArgumentsExact
          rw [if_pos three, named, asked]
          refine (run_get ⟨inside, alive, held⟩ _).trans ?_
          show some (Except.ok (bit (filter.exists' item)), db) = _
          rw [found]
          rfl
      | _ => exact absurd covers (List.ne_nil_of_mem member)

/-- What a reservation is for: its key holds the empty filter that was asked
for, and to reserve the key again is refused. -/
structure Persists (argv : Arguments) (slot : Slot) (after : Database) :
    Prop where
  held : ∀ errorRate capacity filter, argv.getF64 2 = .ok errorRate →
    argv.getI64 3 = .ok capacity →
    ValueBloom.new errorRate capacity.toNat = .ok filter →
    after.value slot = some (.bloom filter)
  refused : ∀ env second result last, second.getVec 1 = .ok slot.2 →
    (bfReserve second slot.1).run (machine env) after = some (result, last) →
    result ≠ .ok .ok ∧ last.value slot = after.value slot

/-- No reservation persists: the key is gone with the reply, and the next
reservation is accepted as well.  The filters that items are added to miss none
of them. -/
theorem reservation_vanishes
    {Position : Type} {marked : Platform.BloomFilter → Set Position}
    {positions : Platform.BloomFilter → Bytes → Set Position}
    (laws : BloomLaws marked positions) :
    (∀ (env : Env) (db after : Database) (slot : Slot) (argv : Arguments),
      argv.getVec 1 = .ok slot.2 →
      (bfReserve argv slot.1).run (machine env) db = some (.ok .ok, after) →
      ¬ Persists argv slot after ∧ after.value slot = none ∧
        ∀ env second errorRate capacity result last,
          Reservation second slot.2 errorRate capacity →
          (bfReserve second slot.1).run (machine env) after =
            some (result, last) →
          result = .ok .ok ∧ last.value slot = none) ∧
      ∀ (slot : Slot) (items : List Bytes) (start after : Database),
        Adding slot items start after → start.vanishing slot = false →
        ∀ item ∈ items, ∀ (env : Env) (argv : Arguments),
          argv.length = 3 → argv.getVec 1 = .ok slot.2 →
          argv.getVec 2 = .ok item → after.lapsed env slot = false →
          ((bfExists argv slot.1).lift readInclusion).run (machine env)
            after = some (.ok (.integer 1), after) := by
  constructor
  · intro env db after slot argv named ran
    obtain ⟨gone, errorRate, capacity, filter, isRate, isCapacity, made⟩ :=
      bfReserve_removes named _ _ ran rfl
    refine ⟨?_, gone, ?_⟩
    · intro persists
      cases gone.symm.trans
        (persists.held errorRate capacity filter isRate isCapacity made)
    · intro env second errorRate capacity result last reservation again
      have accepted := bfReserve_accepts reservation gone _ _ again
      exact ⟨accepted,
        (bfReserve_removes reservation.named _ _ again accepted).1⟩
  · intro slot items start after adding full item member env argv three
      named asked alive
    exact bfExists_held (adding.holds laws full) member three named asked
      alive

end Command

end Filters

/-! ## Concrete commands -/

/-- A platform whose numbers are thousandths. -/
@[reducible] def Platform.thousandths : Platform :=
  { Platform.integral with
    f64Parse := fun input =>
      if input = text "inf" then some (2 ^ 1024 : Int)
      else if text "e-3" <:+ input then
        Util.parseInteger (input.take (input.length - 3))
      else (Util.parseInteger input).map fun number => 1000 * number
    f64ToString := fun number => Util.intToString number ++ text "e-3"
    f64OfI64 := fun number : Int => 1000 * number
    f64Mul := fun a b : Int => a * b / 1000
    f64IsDuration := fun a : Int => decide (0 ≤ a ∧ a < 1000 * 2 ^ 64)
    f64One := (1000 : Int)
    bloomDefaultRate := (10 : Int)
    f64_parse_toString := by
      intro a _
      have apart : Util.intToString a ++ text "e-3" ≠ text "inf" := by
        intro same
        have last := congrArg List.getLast? same
        rw [List.getLast?_append] at last
        cases last
      rw [if_neg apart, if_pos (List.suffix_append _ _)]
      have size : (text "e-3").length = 3 := rfl
      rw [List.length_append, size, Nat.add_sub_cancel, List.take_left']
      · exact Util.parseInteger_intToString a
      · rfl
    f64_toString_line := by
      intro a byte member
      rcases List.mem_append.mp member with digit | letter
      · exact Util.intToString_line digit
      · have letters : ∀ byte ∈ text "e-3", byte ≠ 13 ∧ byte ≠ 10 := by
          simp [text]
        exact letters byte letter }

namespace Command

section

attribute [local instance] Platform.thousandths

/-- `BF.RESERVE k 10e-3 100`. -/
def reservation : Arguments :=
  [text "BF.RESERVE", text "k", text "10e-3", text "100"]

/-- A filter that is its items marks them. -/
theorem thousandths_laws :
    BloomLaws (fun filter : List Bytes => {item | item ∈ filter})
      (fun _ item => {item}) := by
  constructor
  · exact Marking.list
  · intro errorRate capacity
    exact Set.eq_empty_of_forall_notMem nofun

/-- The key is not there after a reservation, which is accepted again. -/
theorem reservation_lost :
    ∃ after, (bfReserve reservation 0).run (machine (Env.still 0))
        (Database.new {} none) = some (.ok .ok, after) ∧
      ¬ Persists reservation (0, text "k") after ∧
      ∃ last, (bfReserve reservation 0).run (machine (Env.still 0)) after =
        some (.ok .ok, last) := by
  refine ⟨_, rfl, ?_, _, rfl⟩
  intro persists
  have named : reservation.getVec 1 = .ok (text "k") := rfl
  exact (persists.refused (Env.still 0) reservation _ _ named rfl).1 rfl

theorem reservation_vanishes_once :
    (∃ after, (bfReserve reservation 0).run (machine (Env.still 0))
        (Database.new {} none) = some (.ok .ok, after) ∧
      ¬ Persists reservation (0, text "k") after ∧
      ∃ last, (bfReserve reservation 0).run (machine (Env.still 0)) after =
          some (.ok .ok, last) ∧
        last.value (0, text "k") = none) ∧
      ∃ after, Adding (0, text "k") [text "x"] (Database.new {} none) after ∧
        ((bfExists [text "BF.EXISTS", text "k", text "x"] 0).lift
          readInclusion).run (machine (Env.still 0)) after =
            some (.ok (.integer 1), after) := by
  obtain ⟨vanishes, covers⟩ := reservation_vanishes thousandths_laws
  constructor
  · obtain ⟨lost, -, again⟩ := vanishes (Env.still 0) (Database.new {} none)
      _ (0, text "k") reservation rfl rfl
    have valid : Reservation reservation (text "k") (10 : Int) 100 :=
      ⟨rfl, rfl, rfl, rfl, rfl, rfl, by decide⟩
    exact ⟨_, rfl, lost, _, rfl,
      (again (Env.still 0) reservation _ _ _ _ valid rfl).2⟩
  · have ran : (bfAdd [text "BF.ADD", text "k", text "x"] 0).run
        (machine (Env.still 0)) (Database.new {} none) =
          some (.ok (.integer 1), _) := rfl
    have adding : Adding (0, text "k")
        (added [text "BF.ADD", text "k", text "x"] (.ok (.integer 1)) ++ [])
        (Database.new {} none) _ := .bfAdd (.none _) rfl ran
    exact ⟨_, adding, covers _ _ _ _ adding rfl _ (List.mem_singleton_self _)
      (Env.still 0) [text "BF.EXISTS", text "k", text "x"] rfl rfl rfl rfl⟩

end

end Command

end RedVector
