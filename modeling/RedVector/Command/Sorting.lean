import RedVector.Command.Draws
import RedVector.Command.Forward
import RedVector.Command.Keys
import RedVector.Database.Intact
import RedVector.ExactFloat
import RedVector.Value.SortedOrder

/-!
# What SORT lists

SORT reads the keys it sorts by before it sorts, and STORE keeps the data of
its result.  The sort is that of the standard library, which says what it does
only where the comparison is a total preorder.
-/

namespace RedVector

open Util Effect Database

namespace Command

/-! ## A stable sort -/

section Stable

variable {α β : Type} {less : α → α → Bool} {element : α}
  {elements sorted whole : List α}

theorem insertSorted_perm (less : α → α → Bool) (element : α)
    (elements : List α) :
    (insertSorted less element elements).Perm (element :: elements) := by
  induction elements with
  | nil => exact .refl _
  | cons head tail ih =>
      rw [insertSorted]
      split
      · exact .refl _
      · exact (ih.cons head).trans (.swap element head tail)

theorem foldl_perm (less : α → α → Bool) (elements sorted : List α) :
    (elements.foldl (fun sorted element => insertSorted less element sorted)
      sorted).Perm (elements ++ sorted) := by
  induction elements generalizing sorted with
  | nil => exact .refl _
  | cons head tail ih =>
      refine (ih _).trans ?_
      refine ((insertSorted_perm less head sorted).append_left tail).trans ?_
      exact List.perm_middle

theorem sortBy_perm (less : α → α → Bool) (elements : List α) :
    (sortBy less elements).Perm elements := by
  have moved := foldl_perm less elements []
  rwa [List.append_nil] at moved

theorem insertSorted_map (less : α → α → Bool) (view : β → α)
    (element : β) (elements : List β) :
    insertSorted less (view element) (elements.map view) =
      (insertSorted (fun left right => less (view left) (view right))
        element elements).map view := by
  induction elements with
  | nil => rfl
  | cons head tail ih =>
      rw [List.map_cons, insertSorted, insertSorted]
      split
      · rfl
      · rw [ih, List.map_cons]

/-- What is sorted by a view of its elements is sorted by what they are viewed
as. -/
theorem sortBy_map (less : α → α → Bool) (view : β → α)
    (elements : List β) :
    sortBy less (elements.map view) =
      (sortBy (fun left right => less (view left) (view right))
        elements).map view := by
  have step (sorted : List β) :
      (elements.map view).foldl
          (fun sorted element => insertSorted less element sorted)
          (sorted.map view) =
        (elements.foldl (fun sorted element => insertSorted
          (fun left right => less (view left) (view right)) element sorted)
          sorted).map view := by
    induction elements generalizing sorted with
    | nil => rfl
    | cons head tail ih =>
        rw [List.map_cons, List.foldl_cons, List.foldl_cons,
          insertSorted_map, ih]
  exact step []

/-- The elements are in a total preorder: one comes at most level with another
when the other is not less. -/
structure Preordered (less : α → α → Bool) (elements : List α) : Prop where
  total : ∀ left ∈ elements, ∀ right ∈ elements,
    less left right = true → less right left = false
  trans : ∀ first ∈ elements, ∀ second ∈ elements, ∀ third ∈ elements,
    less second first = false → less third second = false →
      less third first = false

/-- None of the elements is less than one in front of it. -/
def Ascends (less : α → α → Bool) (elements : List α) : Prop :=
  elements.Pairwise fun left right => less right left = false

theorem insertSorted_ascends (ordered : Preordered less whole)
    (member : element ∈ whole) (inside : ∀ other ∈ sorted, other ∈ whole)
    (ascends : Ascends less sorted) :
    Ascends less (insertSorted less element sorted) := by
  induction sorted with
  | nil => exact List.pairwise_singleton _ _
  | cons head tail ih =>
      obtain ⟨least, rest⟩ := List.pairwise_cons.mp ascends
      have headIn := inside head List.mem_cons_self
      have tailIn : ∀ other ∈ tail, other ∈ whole :=
        fun other among => inside other (List.mem_cons_of_mem _ among)
      rw [insertSorted]
      split
      · rename_i smaller
        refine List.pairwise_cons.mpr ⟨?_, ascends⟩
        have below := ordered.total element member head headIn smaller
        intro other among
        rcases List.mem_cons.mp among with rfl | among
        · exact below
        · exact ordered.trans element member head headIn other
            (tailIn other among) below (least other among)
      · rename_i larger
        refine List.pairwise_cons.mpr ⟨?_, ih tailIn rest⟩
        intro other among
        rcases List.mem_cons.mp ((insertSorted_perm less element
          tail).mem_iff.mp among) with rfl | among
        · exact Bool.eq_false_iff.mpr larger
        · exact least other among

theorem sortBy_ascends (ordered : Preordered less elements) :
    Ascends less (sortBy less elements) := by
  have step (rest sorted : List α) (restIn : ∀ other ∈ rest, other ∈ elements)
      (sortedIn : ∀ other ∈ sorted, other ∈ elements)
      (ascends : Ascends less sorted) :
      Ascends less (rest.foldl
        (fun sorted element => insertSorted less element sorted) sorted) := by
    induction rest generalizing sorted with
    | nil => exact ascends
    | cons head tail ih =>
        have headIn := restIn head List.mem_cons_self
        refine ih _ (fun other among => restIn other
          (List.mem_cons_of_mem _ among)) ?_
          (insertSorted_ascends ordered headIn sortedIn ascends)
        intro other among
        rcases List.mem_cons.mp ((insertSorted_perm less head
          sorted).mem_iff.mp among) with rfl | among
        · exact headIn
        · exact sortedIn other among
  exact step elements [] (fun _ among => among) nofun .nil

end Stable

/-! ## Programs that only read -/

section Yields

variable [Platform] {α β : Type} {env : Env} {db : Database} {dbindex : Nat}

/-- The program reads the database and ends in a value. -/
def Yields (env : Env) (db : Database) (program : Reader α) (value : α) :
    Prop :=
  (program.lift readInclusion).run (machine env) db = some (.ok value, db)

theorem Yields.run_bind {program : Reader α} {value : α}
    (first : Yields env db program value) (rest : α → Reader β) :
    ((program >>= rest).lift readInclusion).run (machine env) db =
      ((rest value).lift readInclusion).run (machine env) db := by
  rw [Program.lift_bind, Program.run_bind, first]
  rfl

theorem Yields.bind {program : Reader α} {value : α} {rest : α → Reader β}
    {result : β} (first : Yields env db program value)
    (second : Yields env db (rest value) result) :
    Yields env db (program >>= rest) result :=
  (first.run_bind rest).trans second

theorem yields_pure (value : α) :
    Yields env db (pure value) value :=
  rfl

theorem yields_mapM {program : α → Reader β} {value : α → β}
    (each : ∀ element, Yields env db (program element) (value element))
    (elements : List α) :
    Yields env db (elements.mapM program) (elements.map value) := by
  induction elements with
  | nil => exact yields_pure []
  | cons head tail ih =>
      rw [List.mapM_cons]
      exact (each head).bind (ih.bind (yields_pure _))

theorem yields_get (inside : db.inBounds dbindex = true) (key : Bytes) :
    Yields env db (Db.get dbindex key) (db.visible env (dbindex, key)) := by
  exact run_visible inside fun found => (pure found : Writer (Option Value))

end Yields

section Handler

variable [Platform] {env : Env} {db : Database} {argv : Arguments}
  {dbindex : Nat} {options : SortOptions} {elements : List Bytes}
  {key element : Bytes} {value : Value}

/-! ## Keys to sort by -/

/-- The string under a key. -/
def stringAt (env : Env) (db : Database) (dbindex : Nat) (key : Bytes) :
    Option Bytes :=
  (db.visible env (dbindex, key)).bind fun value => value.get.toOption

/-- The number that an element is sorted by. -/
def rank (env : Env) (db : Database) (dbindex : Nat) (options : SortOptions)
    (element : Bytes) : F64 :=
  match options.byPattern with
  | some pattern =>
      sortNumber (stringAt env db dbindex (substitute pattern element))
  | none => sortNumber (some element)

/-- Whether the elements are sorted by numbers. -/
def SortOptions.byNumber (options : SortOptions) : Bool :=
  options.byPattern.isSome || !options.alpha

/-- The order that elements are sorted in. -/
def before (env : Env) (db : Database) (dbindex : Nat)
    (options : SortOptions) (left right : Bytes) : Bool :=
  if options.byNumber then
    lessByNumber options.desc (rank env db dbindex options left, left)
      (rank env db dbindex options right, right)
  else lessByText options.desc left right

omit [Platform] in
theorem compareBytes_between {first third : Bytes} (second : Bytes)
    (less : compareBytes first third = .lt) :
    compareBytes first second = .lt ∨ compareBytes second third = .lt := by
  cases order : compareBytes first second with
  | lt => exact .inl rfl
  | eq =>
      rw [(compareBytes_eq first second).mp order] at less
      exact .inr less
  | gt =>
      have back : compareBytes second first = .lt := by
        rw [compareBytes_swap, order]
        rfl
      exact .inr (compareBytes_trans back less)

omit [Platform] in
theorem lessByText_preordered (desc : Bool) (elements : List Bytes) :
    Preordered (lessByText desc) elements := by
  constructor
  · intro left _ right _ less
    cases desc <;>
      simp only [lessByText, Bool.false_eq_true, if_false, if_true,
        beq_iff_eq, beq_eq_false_iff_ne] at less ⊢ <;>
      rw [compareBytes_swap, less] <;>
      nofun
  · intro first _ second _ third _ notFirst notSecond
    refine Bool.eq_false_iff.mpr fun less => ?_
    cases desc with
    | false =>
        simp only [lessByText, Bool.false_eq_true, if_false, beq_iff_eq,
          beq_eq_false_iff_ne] at less notFirst notSecond
        rcases compareBytes_between (if isUtf8 second then second else [])
          less with earlier | later
        · exact notSecond earlier
        · exact notFirst later
    | true =>
        simp only [lessByText, if_true, beq_iff_eq, beq_eq_false_iff_ne]
          at less notFirst notSecond
        rcases compareBytes_between (if isUtf8 second then second else [])
          less with earlier | later
        · exact notFirst earlier
        · exact notSecond later

/-- Some weight is NaN while others differ. -/
def Unordered (weight : Bytes → F64) (elements : List Bytes) : Prop :=
  (∃ element ∈ elements, Platform.f64IsNan (weight element) = true) ∧
    ∃ left ∈ elements, ∃ right ∈ elements,
      Platform.f64Lt (weight left) (weight right) = true

theorem lt_asymm {left right : F64}
    (less : Platform.f64Lt left right = true) :
    Platform.f64Lt right left = false := by
  refine Bool.eq_false_iff.mpr fun back => ?_
  have circle := Platform.f64_lt_trans left right left less back
  rw [Platform.f64_lt_irrefl] at circle
  cases circle

theorem lt_nan (arithmetic : Platform.Arithmetic) {nan : F64}
    (isNan : Platform.f64IsNan nan = true) (number : F64) :
    Platform.f64Lt nan number = false ∧
      Platform.f64Lt number nan = false := by
  constructor
  · refine Bool.eq_false_iff.mpr fun less => ?_
    rw [(arithmetic.lt_number nan number less).1] at isNan
    cases isNan
  · refine Bool.eq_false_iff.mpr fun less => ?_
    rw [(arithmetic.lt_number number nan less).2] at isNan
    cases isNan

/-- Weights are in a total preorder unless one is NaN and others differ. -/
theorem lessByNumber_preordered (arithmetic : Platform.Arithmetic)
    (desc : Bool) (weight : Bytes → F64) :
    Preordered (fun left right =>
        lessByNumber desc (weight left, left) (weight right, right))
        elements ↔ ¬Unordered weight elements := by
  constructor
  · rintro ordered ⟨⟨nan, nanIn, isNan⟩, left, leftIn, right, rightIn, less⟩
    have apart := lt_nan arithmetic isNan
    cases desc with
    | false =>
        have level := ordered.trans right rightIn nan nanIn left leftIn
          (apart (weight right)).1 (apart (weight left)).2
        rw [show lessByNumber false (weight left, left)
          (weight right, right) = true from less] at level
        cases level
    | true =>
        have level := ordered.trans left leftIn nan nanIn right rightIn
          (apart (weight left)).2 (apart (weight right)).1
        rw [show lessByNumber true (weight right, right)
          (weight left, left) = true from less] at level
        cases level
  · intro apart
    -- a weight that lies between two that differ is no NaN
    have between {first second third : Bytes} (firstIn : first ∈ elements)
        (secondIn : second ∈ elements) (thirdIn : third ∈ elements)
        (less : Platform.f64Lt (weight first) (weight third) = true) :
        Platform.f64Lt (weight first) (weight second) = true ∨
          Platform.f64Lt (weight second) (weight third) = true := by
      have numbers (element : Bytes) (member : element ∈ elements) :
          Platform.f64IsNan (weight element) = false :=
        Bool.eq_false_iff.mpr fun isNan =>
          apart ⟨⟨element, member, isNan⟩, first, firstIn, third, thirdIn, less⟩
      exact Platform.f64_lt_of_not_lt _ _ _ (numbers first firstIn)
        (numbers second secondIn) (numbers third thirdIn) less
    constructor
    · intro left _ right _ less
      cases desc <;> exact lt_asymm less
    · intro first firstIn second secondIn third thirdIn notFirst notSecond
      refine Bool.eq_false_iff.mpr fun less => ?_
      cases desc with
      | false =>
          rcases between thirdIn secondIn firstIn less with early | late
          · exact Bool.eq_false_iff.mp notSecond early
          · exact Bool.eq_false_iff.mp notFirst late
      | true =>
          rcases between firstIn secondIn thirdIn less with early | late
          · exact Bool.eq_false_iff.mp notFirst early
          · exact Bool.eq_false_iff.mp notSecond late

theorem preordered_iff (arithmetic : Platform.Arithmetic) :
    Preordered (before env db dbindex options) elements ↔
      ¬(options.byNumber = true ∧
        Unordered (rank env db dbindex options) elements) := by
  by_cases number : options.byNumber = true
  · have same : before env db dbindex options = fun left right =>
        lessByNumber options.desc (rank env db dbindex options left, left)
          (rank env db dbindex options right, right) := by
      funext left right
      exact if_pos number
    rw [same, lessByNumber_preordered arithmetic, and_iff_right number]
  · have same : before env db dbindex options =
        lessByText options.desc := by
      funext left right
      exact if_neg number
    rw [same]
    exact iff_of_true (lessByText_preordered options.desc elements)
      fun unordered => number unordered.1

/-! ## The result -/

/-- The part of a list that LIMIT selects. -/
def SortOptions.slice {α : Type} (options : SortOptions) (elements : List α) :
    List α :=
  match options.limitOffset, options.limitCount with
  | some offset, some count => (elements.drop offset).take count
  | _, _ => elements

/-- What a GET pattern stands for. -/
def gotten (env : Env) (db : Database) (dbindex : Nat)
    (element pattern : Bytes) : Response :=
  if pattern = text "#" then .data element
  else
    match stringAt env db dbindex (substitute pattern element) with
    | some bytes => .data bytes
    | none => .nil

/-- What is listed for an element. -/
def listing (env : Env) (db : Database) (dbindex : Nat)
    (options : SortOptions) (element : Bytes) : List Response :=
  if options.getPatterns.isEmpty then [.data element]
  else options.getPatterns.map (gotten env db dbindex element)

/-- The end of the slice does not fit into a machine word. -/
def SortOptions.Overflows (options : SortOptions) (length : Nat) : Prop :=
  ∃ offset count, options.limitOffset = some offset ∧
    options.limitCount = some count ∧ usizeMax < min offset length + count

/-- LIMIT panics when its end overflows: what wraps around ends before it
starts. -/
theorem limited_eq_none
    (bounded : ∀ count, options.limitCount = some count → count ≤ usizeMax)
    (overflows : options.Overflows elements.length) :
    limited options elements = none := by
  obtain ⟨offset, count, offsetIs, countIs, exceeds⟩ := overflows
  have small := bounded count countIs
  unfold limited
  rw [offsetIs, countIs]
  dsimp only
  cases ends : usize (↑(min offset elements.length) + ↑count) with
  | none => rfl
  | some stop =>
      have wrapped : stop < min offset elements.length := by
        unfold usize at ends
        rw [if_neg] at ends
        · split at ends
          · cases ends
          · cases ends
            unfold usizeMax at small exceeds
            omega
        · simp only [Bool.and_eq_true, decide_eq_true_eq, not_and]
          intro _
          omega
      show (if min stop elements.length < min offset elements.length then _
        else _) = _
      rw [if_pos (by omega)]

theorem limited_eq_some (fits : ¬options.Overflows elements.length) :
    limited options elements = some (options.slice elements) := by
  unfold limited SortOptions.slice
  cases offsetIs : options.limitOffset with
  | none => rfl
  | some offset =>
      cases countIs : options.limitCount with
      | none => rfl
      | some count =>
          have inside : min offset elements.length + count ≤ usizeMax := by
            by_contra exceeds
            exact fits
              ⟨offset, count, offsetIs, countIs, Nat.lt_of_not_le exceeds⟩
          dsimp only
          rw [usize_of (Int.natCast_add _ _).symm inside]
          show (if min (min offset elements.length + count) elements.length <
            min offset elements.length then _ else _) = _
          rw [if_neg (by omega)]
          have slice : (elements.take (min (min offset elements.length + count)
              elements.length)).drop (min offset elements.length) =
              (elements.drop offset).take count := by
            apply List.ext_getElem?
            intro index
            simp only [List.getElem?_drop, List.getElem?_take]
            by_cases within : offset + index < elements.length
            · rw [Nat.min_eq_left (by omega)]
              congr 1
              exact propext (by omega)
            · rw [List.getElem?_eq_none (by omega),
                List.getElem?_eq_none (by omega), ite_self, ite_self]
          exact congrArg some slice

theorem yields_stringOf (inside : db.inBounds dbindex = true) (key : Bytes) :
    Yields env db (stringOf dbindex key) (stringAt env db dbindex key) := by
  unfold stringOf stringAt
  refine (yields_get inside key).bind ?_
  cases db.visible env (dbindex, key) with
  | none => exact yields_pure _
  | some value => exact yields_pure _

theorem yields_weighted (inside : db.inBounds dbindex = true)
    (pattern : Bytes) (elements : List Bytes) :
    Yields env db (weighted dbindex pattern elements)
      (elements.map fun element =>
        (sortNumber (stringAt env db dbindex (substitute pattern element)),
          element)) := by
  induction elements with
  | nil => exact yields_pure []
  | cons head tail ih =>
      rw [weighted]
      exact (yields_stringOf inside _).bind (ih.bind (yields_pure _))

/-- What is sorted with its weights is sorted by them. -/
theorem sortBy_weights (desc : Bool) (weight : Bytes → F64)
    (elements : List Bytes) :
    (sortBy (lessByNumber desc)
        (elements.map fun element => (weight element, element))).map
      Prod.snd =
      sortBy (fun left right =>
        lessByNumber desc (weight left, left) (weight right, right))
        elements := by
  rw [sortBy_map, List.map_map]
  exact List.map_id _

theorem yields_sortElements (inside : db.inBounds dbindex = true) :
    Yields env db (sortElements dbindex options elements)
      (sortBy (before env db dbindex options) elements) := by
  unfold sortElements
  cases by' : options.byPattern with
  | some pattern =>
      refine (yields_weighted inside pattern elements).bind ?_
      rw [sortBy_weights]
      have same : before env db dbindex options = fun left right =>
          lessByNumber options.desc
            (sortNumber (stringAt env db dbindex (substitute pattern left)),
              left)
            (sortNumber (stringAt env db dbindex (substitute pattern right)),
              right) := by
        funext left right
        simp [before, SortOptions.byNumber, rank, by']
      rw [same]
      exact yields_pure _
  | none =>
      dsimp only
      cases alpha : options.alpha with
      | true =>
          have same : before env db dbindex options =
              lessByText options.desc := by
            funext left right
            simp [before, SortOptions.byNumber, by', alpha]
          rw [same]
          exact yields_pure _
      | false =>
          rw [if_neg Bool.false_ne_true, sortBy_weights]
          have same : before env db dbindex options = fun left right =>
              lessByNumber options.desc (sortNumber (some left), left)
                (sortNumber (some right), right) := by
            funext left right
            simp [before, SortOptions.byNumber, rank, by', alpha]
          rw [same]
          exact yields_pure _

theorem yields_getPattern (inside : db.inBounds dbindex = true)
    (element pattern : Bytes) :
    Yields env db (getPattern dbindex element pattern)
      (gotten env db dbindex element pattern) := by
  unfold getPattern gotten
  split
  · exact yields_pure _
  · refine (yields_stringOf inside _).bind ?_
    cases stringAt env db dbindex (substitute pattern element) with
    | none => exact yields_pure _
    | some bytes => exact yields_pure _

theorem yields_sortResult (inside : db.inBounds dbindex = true) :
    Yields env db (sortResult dbindex options elements)
      (elements.flatMap (listing env db dbindex options)) := by
  unfold sortResult listing
  cases none : options.getPatterns.isEmpty with
  | true =>
      have same : elements.flatMap (fun element =>
          if true = true then [Response.data element]
          else options.getPatterns.map (gotten env db dbindex element)) =
          elements.map .data := by
        rw [List.map_eq_flatMap]
        rfl
      rw [same]
      exact yields_pure _
  | false =>
      have rows : Yields env db
          (elements.mapM fun element =>
            options.getPatterns.mapM (getPattern dbindex element))
          (elements.map fun element =>
            options.getPatterns.map (gotten env db dbindex element)) :=
        yields_mapM (fun element =>
          yields_mapM (yields_getPattern inside element) _) _
      exact rows.bind (yields_pure _)

/-! ## The command -/

/-- The elements that are sorted. -/
def sortable (env : Env) : Value → Option (List Bytes)
  | .list list => some list
  | .set set => some (env.order set.members)
  | .sortedSet zset => some (zset.skiplist.map SortedSetMember.s)
  | _ => none

theorem yields_sortSource (source : sortable env value = some elements) :
    Yields env db (sortSource value) elements := by
  unfold sortSource
  cases value <;> cases source
  · exact yields_pure _
  · have ordered : Yields env db Db.order env.order :=
      lift_read_run env db .order
    exact ordered.bind (yields_pure _)
  · exact yields_pure _

/-- SORT with a name that it can read. -/
theorem sorted_named (named : argv.getVec 1 = .ok key) :
    sorted argv dbindex = (do
      match ← Db.get dbindex key with
      | none => throw (.array [])
      | some value => do
          let elements ← sortSource value
          let options ← sortOptions (argv.drop 2) {}
          let elements ← sortElements dbindex options elements
          let elements ← Program.orPanic (limited options elements)
          pure (← sortResult dbindex options elements, options.storeKey)) := by
  have arity : ¬argv.length < 2 := by
    have found := getVec_eq_ok named
    have inside := (List.getElem?_eq_some_iff.mp found).1
    omega
  unfold sorted
  simp only [validateArgumentsGte, if_neg arity, named]
  rfl

theorem sorted_run (named : argv.getVec 1 = .ok key)
    (present : Present env db dbindex key value)
    (source : sortable env value = some elements)
    (parsed : sortOptions (argv.drop 2) {} = .ok options) :
    ((sorted argv dbindex).lift readInclusion).run (machine env) db =
      (limited options
          (sortBy (before env db dbindex options) elements)).map
        fun selected =>
          (.ok (selected.flatMap (listing env db dbindex options),
            options.storeKey), db) := by
  have got : Yields env db (Db.get dbindex key)
    (db.visible env (dbindex, key)) := yields_get present.inside key
  rw [present.visible] at got
  rw [sorted_named named, got.run_bind]
  dsimp only
  rw [(yields_sortSource source).run_bind, parsed]
  refine ((yields_sortElements present.inside).run_bind _).trans ?_
  cases limited options (sortBy (before env db dbindex options) elements) with
  | none => rfl
  | some selected =>
      exact (yields_sortResult present.inside).run_bind _

/-- The list that STORE keeps of a result: a value for each reply, the data
where the reply has some, and no list where there is none. -/
def HoldsListing (stored : Option Value) (listed : List Response) : Prop :=
  (listed = [] → stored = none) ∧
    (listed ≠ [] → ∃ contents, stored = some (.list contents) ∧
      List.Forall₂ (fun bytes response =>
        response = .data bytes ∨ response = .nil) contents listed)

/-- SORT lists the elements in a total preorder, or keeps what it lists. -/
def Sorts (env : Env) (db : Database) (argv : Arguments) (dbindex : Nat)
    (options : SortOptions) (elements : List Bytes) : Prop :=
  Preordered (before env db dbindex options) elements ∧
    ∃ ordered reply after,
      ordered.Perm elements ∧
      Ascends (before env db dbindex options) ordered ∧
      (sort argv dbindex).run (machine env) db = some (.ok reply, after) ∧
      let listed :=
        (options.slice ordered).flatMap (listing env db dbindex options)
      match options.storeKey with
      | none => reply = .array listed
      | some store => reply = .integer listed.length ∧
          HoldsListing (after.visible env (dbindex, store)) listed

/-- What a stable sort lists. -/
def stableListing (env : Env) (db : Database) (dbindex : Nat)
    (options : SortOptions) (elements : List Bytes) : List Response :=
  (options.slice (sortBy (before env db dbindex options) elements)).flatMap
    (listing env db dbindex options)

/-- The destination can be removed, or created for a result in which every
GET pattern has found a string. -/
def Storable (env : Env) (db : Database) (dbindex : Nat) (store : Bytes)
    (listed : List Response) : Prop :=
  if listed.isEmpty then (db.remove env dbindex store).isSome = true
  else (db.getOrCreate env dbindex store).isSome = true ∧ .nil ∉ listed

/-- The end of SORT with STORE. -/
def storing (dbindex : Nat) (store : Bytes) (listed : List Response) :
    Writer Response :=
  if listed.isEmpty then do
    let _ ← Db.remove dbindex store
    pure (.integer 0)
  else do
    let _ ← Db.getOrCreate dbindex store
    Db.put dbindex store (.list (dataOf listed))
    Db.keyUpdated dbindex store
    pure (.integer listed.length)

theorem sort_run (named : argv.getVec 1 = .ok key)
    (present : Present env db dbindex key value)
    (source : sortable env value = some elements)
    (parsed : sortOptions (argv.drop 2) {} = .ok options)
    (fits : ¬options.Overflows elements.length) :
    let listed := stableListing env db dbindex options elements
    (sort argv dbindex).run (machine env) db =
      (match options.storeKey with
        | some store => storing dbindex store listed
        | none => pure (.array listed)).run (machine env) db := by
  have length : (sortBy (before env db dbindex options) elements).length =
      elements.length := (sortBy_perm _ _).length_eq
  have ran := sorted_run named present source parsed
  rw [limited_eq_some (by rwa [length])] at ran
  show Program.run (machine env) (Program.lift readInclusion
    (sorted argv dbindex) >>= _) db = _
  rw [Program.run_bind, ran]
  rfl

theorem sort_panics (named : argv.getVec 1 = .ok key)
    (present : Present env db dbindex key value)
    (source : sortable env value = some elements)
    (parsed : sortOptions (argv.drop 2) {} = .ok options)
    (overflows : options.Overflows elements.length) :
    (sort argv dbindex).run (machine env) db = none := by
  have length : (sortBy (before env db dbindex options) elements).length =
      elements.length := (sortBy_perm _ _).length_eq
  have ran := sorted_run named present source parsed
  rw [limited_eq_none (sortOptions_counts parsed nofun)
    (by rwa [length])] at ran
  show Program.run (machine env) (Program.lift readInclusion
    (sorted argv dbindex) >>= _) db = _
  rw [Program.run_bind, ran]
  rfl

/-! ## What STORE keeps -/

theorem length_listing (element : Bytes) :
    (listing env db dbindex options element).length =
      max 1 options.getPatterns.length := by
  unfold listing
  cases patterns : options.getPatterns with
  | nil => rfl
  | cons head tail =>
      rw [List.isEmpty_cons, if_neg Bool.false_ne_true, List.length_map,
        List.length_cons]
      omega

/-- Lists of one length are listed with as many replies. -/
theorem length_listed {first second : List Bytes}
    (same : first.length = second.length) :
    ((options.slice first).flatMap
        (listing env db dbindex options)).length =
      ((options.slice second).flatMap
        (listing env db dbindex options)).length := by
  have slices : (options.slice first).length =
      (options.slice second).length := by
    unfold SortOptions.slice
    split
    · rw [List.length_take, List.length_take, List.length_drop,
        List.length_drop, same]
    · exact same
  rw [List.length_flatMap, List.length_flatMap]
  simp only [length_listing, List.map_const', List.sum_replicate, slices]

theorem mem_listing {response : Response}
    (member : response ∈ listing env db dbindex options element) :
    response = .nil ∨ ∃ bytes, response = .data bytes := by
  unfold listing at member
  split at member
  · exact .inr ⟨element, List.mem_singleton.mp member⟩
  · obtain ⟨pattern, -, rfl⟩ := List.mem_map.mp member
    unfold gotten
    split
    · exact .inr ⟨element, rfl⟩
    · split
      · exact .inr ⟨_, rfl⟩
      · exact .inl rfl

omit [Platform] in
theorem length_dataOf_le (listed : List Response) :
    (dataOf listed).length ≤ listed.length :=
  List.length_filterMap_le _ _

omit [Platform] in
/-- Nothing is dropped exactly when every reply has data. -/
theorem length_dataOf {listed : List Response}
    (known : ∀ response ∈ listed,
      response = .nil ∨ ∃ bytes, response = .data bytes) :
    (dataOf listed).length = listed.length ↔ .nil ∉ listed := by
  induction listed with
  | nil => exact iff_of_true rfl nofun
  | cons head tail ih =>
      have rest := ih fun response member =>
        known response (List.mem_cons_of_mem _ member)
      rcases known head List.mem_cons_self with rfl | ⟨bytes, rfl⟩
      · have short := length_dataOf_le tail
        refine iff_of_false ?_ fun full => full List.mem_cons_self
        show (dataOf tail).length ≠ tail.length + 1
        omega
      · have head : dataOf (.data bytes :: tail) = bytes :: dataOf tail := rfl
        rw [head, List.length_cons, List.length_cons, Nat.add_right_cancel_iff,
          rest]
        simp

omit [Platform] in
theorem dataOf_keeps {listed : List Response}
    (known : ∀ response ∈ listed,
      response = .nil ∨ ∃ bytes, response = .data bytes)
    (full : .nil ∉ listed) :
    List.Forall₂ (fun bytes response =>
      response = Response.data bytes ∨ response = .nil) (dataOf listed)
        listed := by
  induction listed with
  | nil => exact .nil
  | cons head tail ih =>
      have rest := ih
        (fun response member => known response (List.mem_cons_of_mem _ member))
        (fun member => full (List.mem_cons_of_mem _ member))
      rcases known head List.mem_cons_self with rfl | ⟨bytes, rfl⟩
      · exact absurd List.mem_cons_self full
      · exact .cons (.inl rfl) rest

/-- The list without the missing data is what STORE keeps, or misses some. -/
theorem keeps_iff {listed other : List Response} (some : listed ≠ [])
    (length : other.length = listed.length)
    (known : ∀ response ∈ listed,
      response = .nil ∨ ∃ bytes, response = .data bytes) :
    (HoldsListing (Value.list (dataOf listed)).stored other → .nil ∉ listed) ∧
      (.nil ∉ listed →
        HoldsListing (Value.list (dataOf listed)).stored listed) := by
  constructor
  · rintro ⟨-, kept⟩
    have others : other ≠ [] := by
      rw [← List.length_pos_iff, length, List.length_pos_iff]
      exact some
    obtain ⟨contents, stored, alike⟩ := kept others
    rw [Value.stored] at stored
    split at stored
    · cases stored
    · cases stored
      rw [← length_dataOf known, alike.length_eq, length]
  · intro full
    refine ⟨fun empty => absurd empty some, fun _ => ?_⟩
    refine ⟨dataOf listed, ?_, dataOf_keeps known full⟩
    have length := (length_dataOf known).mpr full
    have filled : (Value.list (dataOf listed)).isEmpty = false := by
      rw [Value.isEmpty, ValueList.llen, length]
      simpa using some
    rw [Value.stored, filled]
    rfl

/-- A list that is stored under a key that is created for it. -/
theorem store_run (reply : Response) (contents : List Bytes)
    {created : Value × Database} {store : Bytes}
    (inside : db.inBounds dbindex = true)
    (creates : db.getOrCreate env dbindex store = some created) :
    ∃ after,
      (do
        let _ ← Db.getOrCreate dbindex store
        Db.put dbindex store (.list contents)
        Db.keyUpdated dbindex store
        pure reply : Writer Response).run (machine env) db =
          some (.ok reply, after) ∧
        after.visible env (dbindex, store) =
          (Value.list contents).stored := by
  obtain ⟨value, between⟩ := created
  obtain ⟨-, creation⟩ := getOrCreate_creates creates
  have performed : db.perform env (.getOrCreate dbindex store) =
      some (value, between) := by
    show db.checked dbindex (db.getOrCreate env dbindex store) = _
    rw [performs inside, creates]
  have within : between.inBounds dbindex = true := by
    unfold inBounds
    rw [creation.frame.config]
    exact inside
  have present : Present env between dbindex store value :=
    ⟨within, kept_alive creation.frame.loading creation.expiration,
      creation.value⟩
  have written := present.put (.list contents)
  obtain ⟨after, ran, sets⟩ := run_keyUpdated written.inside written.alive
    (fun _ => (pure reply : Writer Response))
  refine ⟨after, ?_, ?_⟩
  · refine (run_op performed _).trans ?_
    exact (run_op (present.performPut _) _).trans ran
  · have left := sets.value_self
    have expires := sets.expiration_self
    unfold surviving vanishing at left expires
    rw [written.held, Option.any_some] at left expires
    rw [Value.stored]
    split
    · rename_i empty
      rw [empty, if_pos rfl] at left
      exact visible_eq_none.mpr (.inr left)
    · rename_i filled
      rw [if_neg filled] at left expires
      refine visible_eq_some.mpr ⟨?_, left⟩
      rw [lapsed_congr sets.frame.loading expires]
      exact written.alive

theorem remove_run (reply : Response) {store : Bytes}
    {removed : Option Value × Database}
    (inside : db.inBounds dbindex = true)
    (removes : db.remove env dbindex store = some removed) :
    ∃ after,
      (do
        let _ ← Db.remove dbindex store
        pure reply : Writer Response).run (machine env) db =
          some (.ok reply, after) ∧
        after.visible env (dbindex, store) = none := by
  obtain ⟨value, after⟩ := removed
  have performed : db.perform env (.remove dbindex store) =
      some (value, after) := by
    show db.checked dbindex (db.remove env dbindex store) = _
    rw [performs inside, removes]
  obtain ⟨-, sets, -⟩ := remove_spec removes
  exact ⟨after, run_op performed _, visible_eq_none.mpr (.inr sets.value_self)⟩

/-- What STORE keeps where the destination can be written. -/
theorem storing_keeps {store : Bytes} {listed : List Response}
    (inside : db.inBounds dbindex = true)
    (known : ∀ response ∈ listed,
      response = .nil ∨ ∃ bytes, response = .data bytes)
    (storable : Storable env db dbindex store listed) :
    ∃ after,
      (storing dbindex store listed).run (machine env) db =
          some (.ok (.integer listed.length), after) ∧
        HoldsListing (after.visible env (dbindex, store)) listed := by
  unfold Storable at storable
  unfold storing
  cases listed with
  | nil =>
      obtain ⟨removed, removes⟩ := Option.isSome_iff_exists.mp storable
      obtain ⟨after, ran, gone⟩ := remove_run (.integer 0) inside removes
      exact ⟨after, ran, fun _ => gone, fun some => absurd rfl some⟩
  | cons head tail =>
      obtain ⟨created, full⟩ := storable
      obtain ⟨created, creates⟩ := Option.isSome_iff_exists.mp created
      obtain ⟨after, ran, held⟩ := store_run
        (.integer (head :: tail).length) (dataOf (head :: tail)) inside creates
      refine ⟨after, ran, ?_⟩
      rw [held]
      exact (keeps_iff (by simp) rfl known).2 full

/-- Where the destination holds what is listed it could be written. -/
theorem storable_of_keeps {store : Bytes} {listed other : List Response}
    {reply : Response} {after : Database}
    (inside : db.inBounds dbindex = true)
    (known : ∀ response ∈ listed,
      response = .nil ∨ ∃ bytes, response = .data bytes)
    (ran : (storing dbindex store listed).run (machine env) db =
      some (.ok reply, after))
    (length : other.length = listed.length)
    (keeps : HoldsListing (after.visible env (dbindex, store)) other) :
    Storable env db dbindex store listed := by
  unfold Storable
  unfold storing at ran
  cases listed with
  | nil =>
      show (db.remove env dbindex store).isSome = true
      cases removes : db.remove env dbindex store with
      | some removed => rfl
      | none =>
          have performed : db.perform env (.remove dbindex store) = none := by
            show db.checked dbindex (db.remove env dbindex store) = _
            rw [performs inside, removes]
            rfl
          have panics := run_op_panics performed
            (fun _ => (pure (.integer 0) : Writer Response))
          cases panics.symm.trans ran
  | cons head tail =>
      show (db.getOrCreate env dbindex store).isSome = true ∧
        .nil ∉ head :: tail
      cases creates : db.getOrCreate env dbindex store with
      | none =>
          have performed :
              db.perform env (.getOrCreate dbindex store) = none := by
            show db.checked dbindex (db.getOrCreate env dbindex store) = _
            rw [performs inside, creates]
            rfl
          have panics := run_op_panics performed (fun _ => do
            Db.put dbindex store (.list (dataOf (head :: tail)))
            Db.keyUpdated dbindex store
            (pure (.integer (head :: tail).length) : Writer Response))
          cases panics.symm.trans ran
      | some created =>
          obtain ⟨final, stored, held⟩ := store_run
            (.integer (head :: tail).length) (dataOf (head :: tail)) inside
            creates
          cases stored.symm.trans ran
          rw [held] at keeps
          exact ⟨rfl, (keeps_iff (by simp) length known).1 keeps⟩

/-- SORT lists its elements in order, or keeps what it lists, exactly when no
key to sort by is NaN beside others that differ, the end of the slice can be
represented, and the destination can be written and every GET pattern finds a
string for it. -/
theorem sort_sorts (arithmetic : Platform.Arithmetic)
    (named : argv.getVec 1 = .ok key)
    (present : Present env db dbindex key value)
    (source : sortable env value = some elements)
    (parsed : sortOptions (argv.drop 2) {} = .ok options) :
    Sorts env db argv dbindex options elements ↔
      ¬(options.byNumber = true ∧
          Unordered (rank env db dbindex options) elements) ∧
        ¬options.Overflows elements.length ∧
        ∀ store, options.storeKey = some store →
          Storable env db dbindex store
            (stableListing env db dbindex options elements) := by
  rw [Sorts, preordered_iff arithmetic]
  refine and_congr_right fun unordered => ?_
  by_cases fits : options.Overflows elements.length
  · refine iff_of_false ?_ fun holds => holds.1 fits
    rintro ⟨_, reply, after, -, -, ran, -⟩
    rw [sort_panics named present source parsed fits] at ran
    cases ran
  rw [and_iff_right fits]
  have ran := sort_run named present source parsed fits
  have preordered : Preordered (before env db dbindex options) elements :=
    (preordered_iff arithmetic).mpr unordered
  have ordered := sortBy_ascends preordered
  have moved := sortBy_perm (before env db dbindex options) elements
  have known : ∀ response ∈ stableListing env db dbindex options elements,
      response = .nil ∨ ∃ bytes, response = .data bytes := by
    intro response member
    obtain ⟨element, -, member⟩ := List.mem_flatMap.mp member
    exact mem_listing member
  dsimp only at ran
  cases stores : options.storeKey with
  | none =>
      rw [stores] at ran
      refine iff_of_true ?_ nofun
      exact ⟨_, _, db, moved, ordered, ran, rfl⟩
  | some store =>
      rw [stores] at ran
      dsimp only at ran
      have same {ordered : List Bytes} (moved : ordered.Perm elements) :
          ((options.slice ordered).flatMap
            (listing env db dbindex options)).length =
            (stableListing env db dbindex options elements).length :=
        length_listed (moved.trans (sortBy_perm _ _).symm).length_eq
      constructor
      · rintro ⟨_, reply, after, moved, -, ended, -, keeps⟩ _ ⟨⟩
        exact storable_of_keeps present.inside known (ran.symm.trans ended)
          (same moved) keeps
      · intro storable
        obtain ⟨after, ended, keeps⟩ := storing_keeps present.inside known
          (storable store rfl)
        exact ⟨_, _, after, moved, ordered, ran.trans ended, rfl, keeps⟩

end Handler

section

attribute [local instance] Platform.exact

/-- A database with a list of two numbers under a key. -/
def twoNumbers : Database :=
  (Database.new {} none).put 0 (text "k") (.list [text "3", text "1"])

theorem twoNumbers_present :
    Present (.still 0) twoNumbers 0 (text "k")
      (.list [text "3", text "1"]) :=
  ⟨rfl, rfl, (put_sets (Database.new {} none) 0 (text "k")
    (.list [text "3", text "1"])).value_self⟩

theorem sort_sorts_numbers :
    Sorts (.still 0) twoNumbers [text "SORT", text "k"] 0 {}
      [text "3", text "1"] := by
  refine (sort_sorts Platform.exact_arithmetic rfl twoNumbers_present rfl
    rfl).mpr ⟨?_, nofun, nofun⟩
  rintro ⟨-, ⟨element, member, isNan⟩, -⟩
  simp only [List.mem_cons, List.not_mem_nil, or_false] at member
  rcases member with rfl | rfl <;> cases isNan

/-- A LIMIT from the second element on to the end. -/
theorem sort_limit_panics :
    ¬∀ (env : Env) (db : Database) (argv : Arguments) (dbindex : Nat)
      (key : Bytes) (value : Value) (options : SortOptions)
      (elements : List Bytes), argv.getVec 1 = .ok key →
      Present env db dbindex key value →
      sortable env value = some elements →
      sortOptions (argv.drop 2) {} = .ok options →
      Sorts env db argv dbindex options elements := by
  intro sorts
  let options : SortOptions :=
    { limitOffset := some 1, limitCount := some usizeMax }
  have exceeds : options.Overflows 2 := ⟨1, usizeMax, rfl, rfl, by decide⟩
  have parsed : sortOptions [text "LIMIT", text "1", text "-1"] {} =
      .ok options := rfl
  let argv := [text "SORT", text "k", text "LIMIT", text "1", text "-1"]
  have panics : (sort argv 0).run (machine (.still 0)) twoNumbers = none :=
    sort_panics rfl twoNumbers_present rfl parsed exceeds
  obtain ⟨-, _, reply, after, -, -, ran, -⟩ := sorts (.still 0) twoNumbers
    argv 0 (text "k") _ options _ rfl twoNumbers_present rfl parsed
  cases panics.symm.trans ran

end

end Command

end RedVector
