import RedVector.Value.Hash

/-!
# Sorted set values

A sorted set keeps its members twice: ordered by score and name in a skip
list, here the list of its members in order, and by name in a hash map.
-/

namespace RedVector

open Util

inductive Aggregate where
  | sum
  | min
  | max

/-- Compares byte strings lexicographically. -/
def compareBytes : Bytes → Bytes → Ordering
  | [], [] => .eq
  | [], _ :: _ => .lt
  | _ :: _, [] => .gt
  | left :: lefts, right :: rights =>
      if left < right then .lt
      else if right < left then .gt
      else compareBytes lefts rights

structure SortedSetMember [Platform] where
  f : F64
  s : Bytes
  /-- A boundary that is above every member with its score. -/
  upperBoundary : Bool

namespace SortedSetMember

variable [Platform]

def new (f : F64) (s : Bytes) : SortedSetMember :=
  { f := f, s := s, upperBoundary := false }

def compare (left right : SortedSetMember) : Ordering :=
  if Platform.f64Lt left.f right.f then .lt
  else if Platform.f64Lt right.f left.f then .gt
  else if right.upperBoundary then .lt
  else if left.upperBoundary then .gt
  else compareBytes left.s right.s

end SortedSetMember

/-! ## The skip list -/

abbrev OrderedSkipList [Platform] := List SortedSetMember

namespace OrderedSkipList

variable [Platform]

def insert (element : SortedSetMember) : OrderedSkipList → OrderedSkipList
  | [] => [element]
  | head :: tail =>
      if element.compare head = .lt then element :: head :: tail
      else head :: insert element tail

/-- Removes an element that compares equal. -/
def remove (element : SortedSetMember) : OrderedSkipList → OrderedSkipList
  | [] => []
  | head :: tail =>
      if element.compare head = .eq then tail
      else head :: remove element tail

/-- Removes the element at an index; a panic when there is none. -/
def removeIndex (index : Nat) (list : OrderedSkipList) :
    Option (SortedSetMember × OrderedSkipList) := do
  let element ← list[index]?
  pure (element, list.eraseIdx index)

def aboveMin (bound : Bound SortedSetMember) (element : SortedSetMember) :
    Bool :=
  match bound with
  | .included limit => element.compare limit != .lt
  | .excluded limit => element.compare limit == .gt
  | .unbounded => true

def belowMax (bound : Bound SortedSetMember) (element : SortedSetMember) :
    Bool :=
  match bound with
  | .included limit => element.compare limit != .gt
  | .excluded limit => element.compare limit == .lt
  | .unbounded => true

def range (list : OrderedSkipList) (min max : Bound SortedSetMember) :
    OrderedSkipList :=
  list.filter fun element => aboveMin min element && belowMax max element

end OrderedSkipList

structure ValueSortedSet [Platform] where
  skiplist : OrderedSkipList
  hmap : HashMap Bytes F64

namespace ValueSortedSet

variable [Platform]

def new : ValueSortedSet :=
  { skiplist := [], hmap := ∅ }

/-- Puts a score in both representations. -/
def insertMember (set : ValueSortedSet) (score : F64) (element : Bytes) :
    ValueSortedSet :=
  { skiplist := set.skiplist.insert (.new score element)
    hmap := set.hmap.insert element score }

def zadd (set : ValueSortedSet) (s : F64) (element : Bytes)
    (nx xx ch incr zeroOnNan : Bool) : Operation (Bool × ValueSortedSet) :=
  match set.hmap.lookup element with
  | some val =>
      if nx then .ok (false, set)
      else if ch && !incr && Platform.f64SameBits val s then .ok (false, set)
      else
        let score := if incr then Platform.f64Add s val else s
        if Platform.f64IsNan score && !zeroOnNan then .error .notANumberError
        else
          let score :=
            if Platform.f64IsNan score then Platform.f64Zero else score
          let removed :=
            { set with skiplist := set.skiplist.remove (.new val element) }
          .ok (ch, removed.insertMember score element)
  | none =>
      if xx then .ok (false, set)
      else if Platform.f64IsNan s && !zeroOnNan then .error .notANumberError
      else
        let score := if Platform.f64IsNan s then Platform.f64Zero else s
        .ok (true, set.insertMember score element)

def zcard (set : ValueSortedSet) : Nat :=
  set.hmap.keys.card

def zscore (set : ValueSortedSet) (element : Bytes) : Option F64 :=
  set.hmap.lookup element

/-- The old entry of the skip list is gone even when the new score is NaN. -/
def zincrby (set : ValueSortedSet) (increment : F64) (member : Bytes) :
    Operation F64 × ValueSortedSet :=
  let (old, removed) :=
    match set.hmap.lookup member with
    | some val =>
        (val, { set with skiplist := set.skiplist.remove (.new val member) })
    | none => (Platform.f64Zero, set)
  let val := Platform.f64Add old increment
  if Platform.f64IsNan val then (.error .notANumberError, removed)
  else (.ok val, removed.insertMember val member)

/-! ## Ranges -/

def scoreMin : Bound F64 → Bound SortedSetMember
  | .included f => .included (.new f [])
  | .excluded f => .excluded { f := f, s := [], upperBoundary := true }
  | .unbounded => .unbounded

def scoreMax : Bound F64 → Bound SortedSetMember
  | .included f => .included { f := f, s := [], upperBoundary := true }
  | .excluded f => .excluded (.new f [])
  | .unbounded => .unbounded

def lexBound (f : F64) : Bound Bytes → Bound SortedSetMember
  | .included s => .included (.new f s)
  | .excluded s => .excluded (.new f s)
  | .unbounded => .unbounded

def rangebyscore (set : ValueSortedSet) (min max : Bound F64) :
    OrderedSkipList :=
  OrderedSkipList.range set.skiplist (scoreMin min) (scoreMax max)

def zcount (set : ValueSortedSet) (min max : Bound F64) : Nat :=
  (set.rangebyscore min max).length

/-- Every bound takes the score of the first member. -/
def rangebylex (set : ValueSortedSet) (min max : Bound Bytes) :
    OrderedSkipList :=
  match set.skiplist with
  | [] => []
  | first :: _ =>
      OrderedSkipList.range set.skiplist (lexBound first.f min)
        (lexBound first.f max)

def zlexcount (set : ValueSortedSet) (min max : Bound Bytes) : Nat :=
  (set.rangebylex min max).length

def zrem (set : ValueSortedSet) (member : Bytes) : Bool × ValueSortedSet :=
  match set.hmap.lookup member with
  | none => (false, set)
  | some score =>
      (true,
        { skiplist := set.skiplist.remove (.new score member)
          hmap := set.hmap.erase member })

/-- Removes `count` members from a position of the skip list on. -/
def removeFrom (position : Nat) : Nat → ValueSortedSet → Option ValueSortedSet
  | 0, set => some set
  | count + 1, set => do
      let (element, skiplist) ← set.skiplist.removeIndex position
      removeFrom position count
        { skiplist := skiplist, hmap := set.hmap.erase element.s }

def zremrangebyscore (set : ValueSortedSet) (min max : Bound F64) :
    Option (Nat × ValueSortedSet) := do
  let position :=
    match min with
    | .included s => set.zcount .unbounded (.excluded s)
    | .excluded s => set.zcount .unbounded (.included s)
    | .unbounded => 0
  let count := set.zcount min max
  pure (count, ← removeFrom position count set)

def zremrangebylex (set : ValueSortedSet) (min max : Bound Bytes) :
    Option (Nat × ValueSortedSet) := do
  let position :=
    match min with
    | .included s => set.zlexcount .unbounded (.excluded s)
    | .excluded s => set.zlexcount .unbounded (.included s)
    | .unbounded => 0
  let count := set.zlexcount min max
  pure (count, ← removeFrom position count set)

/-- The positions that a range of ranks starts and stops at; a range that is
out of bounds is (1, 0). -/
def normalizeRange (set : ValueSortedSet) (start stop : Int) (rev : Bool) :
    Option (Nat × Nat) := do
  let length := set.skiplist.length
  let low ← if rev then i64 ((← i64 (-stop)) - 1) else pure start
  match normalizePosition low length with
  | .error true => pure (1, 0)
  | first =>
      let high ← if rev then i64 ((← i64 (-start)) - 1) else pure stop
      match normalizePosition high length with
      | .error false => pure (1, 0)
      | .error true =>
          pure (first.toOption.getD 0, ← usize (length - 1))
      | .ok last => pure (first.toOption.getD 0, last)

def zremrangebyrank (set : ValueSortedSet) (start stop : Int) :
    Option (Nat × ValueSortedSet) := do
  let (first, last) ← set.normalizeRange start stop false
  if last < first then pure (0, set)
  else
    let count ← usize (last - first + 1)
    pure (count, ← removeFrom first count set)

/-- A member in a reply, with its score after it. -/
def showMember (withscores : Bool) (member : SortedSetMember) : List Bytes :=
  if withscores then [member.s, Platform.f64ToString member.f]
  else [member.s]

def zrange (set : ValueSortedSet) (start stop : Int)
    (withscores rev : Bool) : Option (List Bytes) := do
  let (first, last) ← set.normalizeRange start stop rev
  if last < first then pure []
  else
    let element ← set.skiplist[first]?
    let count ← usize (last - first + 1)
    let members :=
      (OrderedSkipList.range set.skiplist (.included element)
        .unbounded).take count
    if rev then pure (members.reverse.flatMap (showMember withscores))
    else pure (members.flatMap (showMember withscores))

def range (set : ValueSortedSet) (min max : Bound SortedSetMember)
    (withscores : Bool) (offset count : Nat) (rev : Bool) :
    Option (List Bytes) := do
  let selected := OrderedSkipList.range set.skiplist min max
  if rev then
    let length := set.skiplist.length
    let taken :=
      if (← usize (count + offset)) > length then length - offset else count
    pure (((selected.reverse.drop offset).take taken).flatMap
      (showMember withscores))
  else
    pure (((selected.drop offset).take count).flatMap
      (showMember withscores))

def zrangebyscore (set : ValueSortedSet) (min max : Bound F64)
    (withscores : Bool) (offset count : Nat) (rev : Bool) :
    Option (List Bytes) :=
  let (min, max) := if rev then (max, min) else (min, max)
  set.range (scoreMin min) (scoreMax max) withscores offset count rev

def zrangebylex (set : ValueSortedSet) (min max : Bound Bytes)
    (offset count : Nat) (rev : Bool) : Option (List Bytes) := do
  let first ← set.skiplist.head?
  let (min, max) := if rev then (max, min) else (min, max)
  set.range (lexBound first.f min) (lexBound first.f max) false offset count
    rev

def zrank (set : ValueSortedSet) (element : Bytes) : Option (Option Nat) :=
  match set.hmap.lookup element with
  | none => some none
  | some score => do
      let below := OrderedSkipList.range set.skiplist .unbounded
        (.included (.new score element))
      pure (some (← usize (below.length - 1)))

/-! ## Unions and intersections -/

/-- The weight of the set at an index; a panic when weights run out. -/
def weightAt (weights : Option (List F64)) (index : Nat) : Option F64 :=
  match weights with
  | some weights => weights[index]?
  | none => some Platform.f64One

/-- What `zadd` leaves, its reply ignored. -/
def added (set : ValueSortedSet) (score : F64) (element : Bytes)
    (incr : Bool) : ValueSortedSet :=
  match set.zadd score element false false false incr true with
  | .ok (_, after) => after
  | .error _ => set

/-- Merges one member of an input set into the union. -/
def zunionMember (aggregate : Aggregate) (weight : F64)
    (set : ValueSortedSet) (element : Bytes) (v : F64) : ValueSortedSet :=
  match aggregate with
  | .sum => set.added (Platform.f64Mul weight v) element true
  | .max =>
      let s := (set.zscore element).getD Platform.f64NegInfinity
      if Platform.f64Lt s (Platform.f64Mul v weight) then
        set.added (Platform.f64Mul v weight) element false
      else set
  | .min =>
      let s := (set.zscore element).getD Platform.f64Infinity
      if Platform.f64Lt (Platform.f64Mul v weight) s then
        set.added (Platform.f64Mul v weight) element false
      else set

/-- Merges an input set, going over its members as they are `ordered`. -/
def zunionInput (aggregate : Aggregate) (ordered : Finset Bytes → List Bytes)
    (set input : ValueSortedSet) (weight : F64) : ValueSortedSet :=
  (ordered input.hmap.keys).foldl
    (fun set element =>
      match input.hmap.lookup element with
      | some v => zunionMember aggregate weight set element v
      | none => set)
    set

def zunion (ordered : Finset Bytes → List Bytes)
    (zsets : List ValueSortedSet) (weights : Option (List F64))
    (aggregate : Aggregate) : Option ValueSortedSet :=
  zsets.zipIdx.foldlM
    (fun set (input, index) => do
      pure (zunionInput aggregate ordered set input
        (← weightAt weights index)))
    new

def combine (aggregate : Aggregate) (score other : F64) : F64 :=
  match aggregate with
  | .sum => Platform.f64Add score other
  | .min => if Platform.f64Lt other score then other else score
  | .max => if Platform.f64Lt score other then other else score

/-- The weighted score of a member in the set at an index. -/
def weightedScore (zsets : List ValueSortedSet) (weights : Option (List F64))
    (element : Bytes) (index : Nat) : Option F64 := do
  let zset ← zsets[index]?
  let score ← zset.hmap.lookup element
  pure (Platform.f64Mul score (← weightAt weights index))

def zinter (ordered : Finset Bytes → List Bytes)
    (zsets : List ValueSortedSet) (weights : Option (List F64))
    (aggregate : Aggregate) : Option ValueSortedSet :=
  match zsets with
  | [] => some new
  | first :: rest =>
      let shared := rest.foldl (fun keys zset => keys ∩ zset.hmap.keys)
        first.hmap.keys
      (ordered shared).foldlM
        (fun set element => do
          let start ← weightedScore (first :: rest) weights element 0
          let score ← (List.range' 1 rest.length).foldlM
            (fun score index => do
              pure (combine aggregate score
                (← weightedScore (first :: rest) weights element index)))
            start
          pure (set.added score element false))
        new

end ValueSortedSet

end RedVector
