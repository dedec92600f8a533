import RedVector.Value.Bloom
import RedVector.Value.List
import RedVector.Value.Set
import RedVector.Value.SortedSet
import RedVector.Value.String

/-!
# Values of the keyspace

A method that changes the value in place returns the value it leaves next to
its result, also when the result is an error.  An outer `Option` is there
where the method can panic.
-/

namespace RedVector

inductive Value [Platform] where
  /-- Nil should not be stored: it is what a created key holds at first. -/
  | nil
  | string (value : ValueString)
  | list (value : ValueList)
  | set (value : ValueSet)
  | sortedSet (value : ValueSortedSet)
  | hash (value : ValueHash)
  | bloom (value : ValueBloom)

namespace Value

variable [Platform]

/-- The result of a method together with the value that it leaves. -/
abbrev Change (α : Type) := Operation α × Value

def failed {α : Type} (value : Value) (error : OperationError) : Change α :=
  (.error error, value)

def wrongType {α : Type} (value : Value) : Change α :=
  value.failed .wrongTypeError

def isNil : Value → Bool
  | nil => true
  | _ => false

def isString : Value → Bool
  | string _ => true
  | _ => false

def isList : Value → Bool
  | list _ => true
  | _ => false

def isSet : Value → Bool
  | set _ => true
  | _ => false

def isHash : Value → Bool
  | hash _ => true
  | _ => false

def isEmpty : Value → Bool
  | nil => true
  | string _ => false
  | list value => value.llen == 0
  | set value => value.scard == 0
  | sortedSet value => value.zcard == 0
  | hash value => value.isEmpty
  | bloom value => value.insertions == 0

/-! ## Strings -/

/-- `Value::set`, which never fails. -/
def setString (newvalue : Bytes) : Value :=
  string (.new newvalue)

def get : Value → Operation Bytes
  | nil => .ok []
  | string value => .ok value.toVec
  | _ => .error .wrongTypeError

def strlen : Value → Operation Nat
  | nil => .ok 0
  | string value => .ok value.strlen
  | _ => .error .wrongTypeError

def append (newvalue : Bytes) : Value → Change Nat
  | nil => (.ok newvalue.length, string (.new newvalue))
  | string value =>
      let value := value.append newvalue
      (.ok value.strlen, string value)
  | value => value.wrongType

def incr (increment : Int) : Value → Change Int
  | nil => (.ok increment, string (.integer increment))
  | string value =>
      match value.incr increment with
      | .ok (number, after) => (.ok number, string after)
      | .error error => (string value).failed error
  | value => value.wrongType

def incrbyfloat (increment : F64) : Value → Change F64
  | nil =>
      (.ok increment, string (.data (Platform.f64ToString increment)))
  | string value =>
      match value.incrbyfloat increment with
      | .ok (number, after) => (.ok number, string after)
      | .error error => (string value).failed error
  | value => value.wrongType

def getrange (start stop : Int) : Value → Option (Operation Bytes)
  | nil => some (.ok [])
  | string value => (value.getrange start stop).map .ok
  | _ => some (.error .wrongTypeError)

def setrange (index : Nat) (data : Bytes) : Value → Change Nat
  | nil =>
      let (length, after) := (ValueString.data []).setrange index data
      (.ok length, string after)
  | string value =>
      let (length, after) := value.setrange index data
      (.ok length, string after)
  | value => value.wrongType

def setbit (bitoffset : Nat) (on : Bool) : Value → Change Bool
  | nil =>
      let (old, after) := (ValueString.data []).setbit bitoffset on
      (.ok old, string after)
  | string value =>
      let (old, after) := value.setbit bitoffset on
      (.ok old, string after)
  | value => value.wrongType

def getbit (bitoffset : Nat) : Value → Operation Bool
  | nil => .ok false
  | string value => .ok (value.getbit bitoffset)
  | _ => .error .wrongTypeError

def pfadd (data : List Bytes) : Value → Option (Change Bool)
  | nil => do
      let (changed, after) ← (ValueString.data []).pfadd data
      pure (.ok changed, string after)
  | string value => do
      let (changed, after) ← value.pfadd data
      pure (.ok changed, string after)
  | value => pure value.wrongType

def pfcount : Value → Option (Operation Nat)
  | nil => some (.ok 0)
  | string value => value.pfcount.map .ok
  | _ => some (.error .wrongTypeError)

/-- The strings among the sources of a merge. -/
def stringsOf : List Value → Operation (List ValueString)
  | [] => .ok []
  | nil :: rest => stringsOf rest
  | string value :: rest => do pure (value :: (← stringsOf rest))
  | _ :: _ => .error .wrongTypeError

def pfmerge (values : List Value) (value : Value) : Option (Change Unit) :=
  match stringsOf values with
  | .error error => some (value.failed error)
  | .ok [] => some (.ok (), value)
  | .ok (first :: rest) =>
      match value with
      | nil => do
          let after ← (ValueString.data []).pfmerge (first :: rest)
          pure (.ok (), string after)
      | string target => do
          let after ← target.pfmerge (first :: rest)
          pure (.ok (), string after)
      | value => some value.wrongType

/-! ## Bloom filters -/

def bfReserve (errorRate : F64) (capacity : Nat) : Value → Change Unit
  | nil =>
      match ValueBloom.new errorRate capacity with
      | .ok filter => (.ok (), bloom filter)
      | .error error => nil.failed error
  | value => value.failed (.valueError ⟨text "ERR item exists", by decide⟩)

def bfAdd (item : Bytes) : Value → Change Bool
  | nil =>
      let (added, after) := ValueBloom.defaultFilter.add item
      (.ok added, bloom after)
  | bloom value =>
      let (added, after) := value.add item
      (.ok added, bloom after)
  | value => value.wrongType

def bfExists (item : Bytes) : Value → Operation Bool
  | nil => .ok false
  | bloom value => .ok (value.exists' item)
  | _ => .error .wrongTypeError

/-! ## Lists -/

def push (element : Bytes) (right : Bool) : Value → Change Nat
  | nil => (.ok 1, list (ValueList.push [] element right))
  | list value =>
      let after := value.push element right
      (.ok after.llen, list after)
  | value => value.wrongType

def pop (right : Bool) : Value → Change (Option Bytes)
  | nil => (.ok none, nil)
  | list value =>
      let (element, after) := value.pop right
      (.ok element, list after)
  | value => value.wrongType

def lindex (index : Int) : Value → Operation (Option Bytes)
  | list value => .ok (value.lindex index)
  | _ => .error .wrongTypeError

def linsert (before : Bool) (pivot newvalue : Bytes) :
    Value → Change (Option Nat)
  | nil => (.ok none, nil)
  | list value =>
      match value.linsert before pivot newvalue with
      | some (length, after) => (.ok (some length), list after)
      | none => (.ok none, list value)
  | value => value.wrongType

def llen : Value → Operation Nat
  | nil => .ok 0
  | list value => .ok value.llen
  | _ => .error .wrongTypeError

def lrange (start stop : Int) : Value → Option (Operation (List Bytes))
  | nil => some (.ok [])
  | list value => (value.lrange start stop).map .ok
  | _ => some (.error .wrongTypeError)

def lrem (left : Bool) (limit : Nat) (element : Bytes) : Value → Change Nat
  | nil => (.ok 0, nil)
  | list value =>
      let (count, after) := value.lrem left limit element
      (.ok count, list after)
  | value => value.wrongType

def lset (index : Int) (newvalue : Bytes) : Value → Change Unit
  | nil => nil.failed .unknownKeyError
  | list value =>
      match value.lset index newvalue with
      | .ok after => (.ok (), list after)
      | .error error => (list value).failed error
  | value => value.wrongType

def ltrim (start stop : Int) : Value → Option (Change Unit)
  | list value => do
      let after ← value.ltrim start stop
      pure (.ok (), list after)
  | value => some value.wrongType

/-! ## Sets -/

def sadd (element : Bytes) (setMaxIntsetEntries : Nat) : Value → Change Bool
  | nil =>
      (.ok true, set (ValueSet.new.sadd element setMaxIntsetEntries).2)
  | set value =>
      let (added, after) := value.sadd element setMaxIntsetEntries
      (.ok added, set after)
  | value => value.wrongType

def srem (element : Bytes) : Value → Change Bool
  | nil => (.ok false, nil)
  | set value =>
      let (removed, after) := value.srem element
      (.ok removed, set after)
  | value => value.wrongType

def sismember (element : Bytes) : Value → Operation Bool
  | nil => .ok false
  | set value => .ok (value.sismember element)
  | _ => .error .wrongTypeError

def scard : Value → Operation Nat
  | nil => .ok 0
  | set value => .ok value.scard
  | _ => .error .wrongTypeError

/-- The set behind a value, to be listed in the order of the hash set. -/
def smembers : Value → Operation (Finset Bytes)
  | nil => .ok ∅
  | set value => .ok value.members
  | _ => .error .wrongTypeError

/-- All ValueSet references from a list of values; Nil is the empty set. -/
def getSetList : List Value → Operation (List ValueSet)
  | [] => .ok []
  | nil :: rest => do pure (ValueSet.new :: (← getSetList rest))
  | set value :: rest => do pure (value :: (← getSetList rest))
  | _ :: _ => .error .wrongTypeError

def sdiff (values : List Value) : Value → Operation (Finset Bytes)
  | nil => .ok ∅
  | set value => do pure (value.sdiff (← getSetList values))
  | _ => .error .wrongTypeError

def sinter (values : List Value) : Value → Operation (Finset Bytes)
  | nil => .ok ∅
  | set value => do pure (value.sinter (← getSetList values))
  | _ => .error .wrongTypeError

def sunion (values : List Value) (value : Value) :
    Operation (Finset Bytes) := do
  let sets ← getSetList values
  match value with
  | nil => pure (ValueSet.new.sunion sets)
  | set value => pure (value.sunion sets)
  | _ => throw .wrongTypeError

def createSet (elements : Finset Bytes) : Value :=
  set (.createWithHashset elements)

/-! ## Hashes -/

def hset (field newvalue : Bytes) : Value → Change Bool
  | nil =>
      let (created, after) := ValueHash.new.hset field newvalue
      (.ok created, hash after)
  | hash value =>
      let (created, after) := value.hset field newvalue
      (.ok created, hash after)
  | value => value.wrongType

def hget (field : Bytes) : Value → Operation (Option Bytes)
  | nil => .ok none
  | hash value => .ok (value.hget field)
  | _ => .error .wrongTypeError

def hdel (fields : List Bytes) : Value → Change Nat
  | nil => (.ok 0, nil)
  | hash value =>
      let (count, after) := value.hdel fields
      (.ok count, hash after)
  | value => value.wrongType

def hexists (field : Bytes) : Value → Operation Bool
  | nil => .ok false
  | hash value => .ok (value.hexists field)
  | _ => .error .wrongTypeError

def hlen : Value → Operation Nat
  | nil => .ok 0
  | hash value => .ok value.hlen
  | _ => .error .wrongTypeError

/-- The map behind a value, to be listed in the order of the hash map. -/
def hgetall : Value → Operation (HashMap Bytes Bytes)
  | nil => .ok ∅
  | hash value => .ok value.fields
  | _ => .error .wrongTypeError

def hstrlen (field : Bytes) : Value → Operation Nat
  | nil => .ok 0
  | hash value => .ok (value.hstrlen field)
  | _ => .error .wrongTypeError

def hincrby (field : Bytes) (increment : Int) : Value → Change Int
  | nil =>
      match ValueHash.new.hincrby field increment with
      | .ok (number, after) => (.ok number, hash after)
      | .error error => nil.failed error
  | hash value =>
      match value.hincrby field increment with
      | .ok (number, after) => (.ok number, hash after)
      | .error error => (hash value).failed error
  | value => value.wrongType

def hincrbyfloat (field : Bytes) (increment : F64) : Value → Change F64
  | nil =>
      match ValueHash.new.hincrbyfloat field increment with
      | .ok (number, after) => (.ok number, hash after)
      | .error error => nil.failed error
  | hash value =>
      match value.hincrbyfloat field increment with
      | .ok (number, after) => (.ok number, hash after)
      | .error error => (hash value).failed error
  | value => value.wrongType

/-! ## Sorted sets -/

def zrem (member : Bytes) : Value → Change Bool
  | nil => (.ok false, nil)
  | sortedSet value =>
      let (removed, after) := value.zrem member
      (.ok removed, sortedSet after)
  | value => value.wrongType

def zadd (s : F64) (element : Bytes) (nx xx ch incr : Bool) :
    Value → Change Bool
  | nil =>
      if xx then (.ok false, nil)
      else
        match ValueSortedSet.new.zadd s element nx xx ch incr false with
        | .ok (changed, after) => (.ok changed, sortedSet after)
        | .error error => nil.failed error
  | sortedSet value =>
      match value.zadd s element nx xx ch incr false with
      | .ok (changed, after) => (.ok changed, sortedSet after)
      | .error error => (sortedSet value).failed error
  | value => value.wrongType

def zcard : Value → Operation Nat
  | nil => .ok 0
  | sortedSet value => .ok value.zcard
  | _ => .error .wrongTypeError

def zscore (element : Bytes) : Value → Operation (Option F64)
  | nil => .ok none
  | sortedSet value => .ok (value.zscore element)
  | _ => .error .wrongTypeError

def zincrby (increment : F64) (member : Bytes) : Value → Change F64
  | nil =>
      match nil.zadd increment member false false false false with
      | (.ok _, after) => (.ok increment, after)
      | (.error error, after) => (.error error, after)
  | sortedSet value =>
      let (result, after) := value.zincrby increment member
      (result, sortedSet after)
  | value => value.wrongType

def zcount (min max : Bound F64) : Value → Operation Nat
  | nil => .ok 0
  | sortedSet value => .ok (value.zcount min max)
  | _ => .error .wrongTypeError

def zlexcount (min max : Bound Bytes) : Value → Operation Nat
  | nil => .ok 0
  | sortedSet value => .ok (value.zlexcount min max)
  | _ => .error .wrongTypeError

def zrange (start stop : Int) (withscores rev : Bool) :
    Value → Option (Operation (List Bytes))
  | nil => some (.ok [])
  | sortedSet value => (value.zrange start stop withscores rev).map .ok
  | _ => some (.error .wrongTypeError)

def zrangebyscore (min max : Bound F64) (withscores : Bool)
    (offset count : Nat) (rev : Bool) :
    Value → Option (Operation (List Bytes))
  | nil => some (.ok [])
  | sortedSet value =>
      (value.zrangebyscore min max withscores offset count rev).map .ok
  | _ => some (.error .wrongTypeError)

def zrangebylex (min max : Bound Bytes) (offset count : Nat) (rev : Bool) :
    Value → Option (Operation (List Bytes))
  | nil => some (.ok [])
  | sortedSet value =>
      (value.zrangebylex min max offset count rev).map .ok
  | _ => some (.error .wrongTypeError)

def zrank (element : Bytes) : Value → Option (Operation (Option Nat))
  | nil => some (.ok none)
  | sortedSet value => (value.zrank element).map .ok
  | _ => some (.error .wrongTypeError)

/-- The result of removing a range of a sorted set. -/
def removedRange (value : Value)
    (remove : ValueSortedSet → Option (Nat × ValueSortedSet)) :
    Option (Change Nat) :=
  match value with
  | nil => some (.ok 0, nil)
  | sortedSet zset => do
      let (count, after) ← remove zset
      pure (.ok count, sortedSet after)
  | value => some value.wrongType

def zremrangebyscore (min max : Bound F64) (value : Value) :
    Option (Change Nat) :=
  value.removedRange fun zset => zset.zremrangebyscore min max

def zremrangebylex (min max : Bound Bytes) (value : Value) :
    Option (Change Nat) :=
  value.removedRange fun zset => zset.zremrangebylex min max

def zremrangebyrank (start stop : Int) (value : Value) :
    Option (Change Nat) :=
  value.removedRange fun zset => zset.zremrangebyrank start stop

/-- All ValueSortedSet references from a list of values; Nil is empty. -/
def getZsetList : List Value → Operation (List ValueSortedSet)
  | [] => .ok []
  | nil :: rest => do pure (ValueSortedSet.new :: (← getZsetList rest))
  | sortedSet value :: rest => do pure (value :: (← getZsetList rest))
  | _ :: _ => .error .wrongTypeError

def zunion (ordered : Finset Bytes → List Bytes) (values : List Value)
    (weights : Option (List F64)) (aggregate : Aggregate) :
    Option (Operation Value) :=
  match getZsetList values with
  | .error error => some (.error error)
  | .ok zsets => do
      let result ← ValueSortedSet.zunion ordered zsets weights aggregate
      pure (.ok (sortedSet result))

def zinter (ordered : Finset Bytes → List Bytes) (values : List Value)
    (weights : Option (List F64)) (aggregate : Aggregate) :
    Option (Operation Value) :=
  match getZsetList values with
  | .error error => some (.error error)
  | .ok zsets => do
      let result ← ValueSortedSet.zinter ordered zsets weights aggregate
      pure (.ok (sortedSet result))

end Value

end RedVector
