import RedVector.Command.Strings

/-!
# Key commands
-/

namespace RedVector.Command

open Util

variable [Platform]

def exists' (argv : Arguments) (dbindex : Nat) : Reader Response := do
  validateArgumentsExact argv 2
  let key ← tryValidate (argv.getVec 1) "Invalid key"
  pure (bit (← Db.get dbindex key).isSome)

/-- Removes the keys and counts those that were there. -/
def delAll (dbindex : Nat) : List Bytes → Writer Nat
  | [] => pure 0
  | key :: rest => do
      if (← Db.remove dbindex key).isSome then do
        Db.keyUpdated dbindex key
        Db.notifyKeyspaceEvent dbindex (text "del") key 103
        pure ((← delAll dbindex rest) + 1)
      else delAll dbindex rest

def del (argv : Arguments) (dbindex : Nat) : Writer Response := do
  validate (2 ≤ argv.length) "Wrong number of parameters"
  pure (.integer (← delAll dbindex argv.tail))

def debug (argv : Arguments) (dbindex : Nat) : Reader Response := do
  validateArgumentsGte argv 2
  let subcommand ← tryValidate (argv.getStr 1) "Syntax error"
  let subcommand := lowercase subcommand
  if subcommand = text "object" then do
    validateArgumentsExact argv 3
    let key ← tryValidate (argv.getVec 2) "Invalid key"
    match ← Db.get dbindex key with
    | some value => pure (.status (← Db.debugObject value))
    | none => pure (.fail "no such key")
  else if subcommand = text "reload" then do
    validateArgumentsExact argv 2
    pure (.fail "ERR DEBUG RELOAD is not implemented")
  else if subcommand = text "restart" then do
    validateArgumentsExact argv 2
    pure (.fail "ERR DEBUG RESTART is not implemented")
  else if subcommand = text "sleep" then do
    validateArgumentsExact argv 3
    let secondsStr ← tryValidate (argv.getStr 2) "Invalid seconds"
    match Platform.f64Parse secondsStr with
    | none => pure (.fail "ERR invalid seconds")
    | some seconds =>
        if Platform.f64Lt seconds Platform.f64Zero then
          pure (.fail "ERR seconds must be >= 0")
        else if Platform.f64IsDuration seconds then pure .ok
        else orPanic none
  else if subcommand = text "segfault" then do
    validateArgumentsExact argv 2
    orPanic none
  else pure (.fail "ERR Invalid debug command")

def dbsize (argv : Arguments) (dbindex : Nat) : Reader Response := do
  validateArgumentsExact argv 1
  pure (.integer (← Db.dbsize dbindex))

def dump (argv : Arguments) (dbindex : Nat) : Reader Response := do
  validateArgumentsExact argv 2
  let key ← tryValidate (argv.getVec 1) "Invalid key"
  match ← Db.get dbindex key with
  | some value => pure (respond (← Db.dump value) .data)
  | none => pure .nil

def restore (argv : Arguments) (dbindex : Nat) : Reader Response := do
  validateArgumentsGte argv 4
  let key ← tryValidate (argv.getVec 1) "Invalid key"
  let _ ← tryValidate (argv.getI64 2) "Invalid TTL"
  let _ ← tryValidate (argv.getVec 3) "Invalid serialized value"
  let replace ←
    if 4 < argv.length then do
      let option ← tryValidate (argv.getStr 4) "Invalid option"
      if lowercase option = text "replace" then pure true
      else throw (.fail "ERR syntax error")
    else pure false
  if !replace && (← Db.get dbindex key).isSome then
    pure (.fail "ERR Target key name is busy.")
  else pure (.fail "ERR RESTORE is not fully implemented yet")

/-! ## SORT -/

structure SortOptions where
  byPattern : Option Bytes := none
  getPatterns : List Bytes := []
  limitOffset : Option Nat := none
  limitCount : Option Nat := none
  desc : Bool := false
  alpha : Bool := false
  storeKey : Option Bytes := none

/-- A number in the place of an argument. -/
def numberOf (argument : Bytes) (message : String) : Except Response Int :=
  tryValidate (Arguments.getI64 [argument] 0) message

def sortOptions : List Bytes → SortOptions → Except Response SortOptions
  | [], options => .ok options
  | option :: rest, options =>
      if isUtf8 option then
        let option := lowercase option
        if option = text "by" then
          match rest with
          | pattern :: rest =>
              sortOptions rest { options with byPattern := some pattern }
          | [] => .error (.fail "ERR syntax error")
        else if option = text "get" then
          match rest with
          | pattern :: rest =>
              sortOptions rest
                { options with
                  getPatterns := options.getPatterns ++ [pattern] }
          | [] => .error (.fail "ERR syntax error")
        else if option = text "limit" then
          match rest with
          | offset :: count :: rest => do
              let offset ← numberOf offset "Invalid offset"
              let count ← numberOf count "Invalid count"
              sortOptions rest
                { options with
                  limitOffset := some (asUsize offset)
                  limitCount := some (asUsize count) }
          | _ => .error (.fail "ERR syntax error")
        else if option = text "desc" then
          sortOptions rest { options with desc := true }
        else if option = text "asc" then
          sortOptions rest { options with desc := false }
        else if option = text "alpha" then
          sortOptions rest { options with alpha := true }
        else if option = text "store" then
          match rest with
          | store :: rest =>
              sortOptions rest { options with storeKey := some store }
          | [] => .error (.fail "ERR syntax error")
        else .error (.fail "ERR syntax error")
      else .error (.fail "Invalid option")

omit [Platform] in
/-- LIMIT gives a count in the range of its type. -/
theorem sortOptions_counts {arguments : List Bytes}
    {first options : SortOptions}
    (parsed : sortOptions arguments first = .ok options)
    (bounded : ∀ count, first.limitCount = some count → count ≤ usizeMax) :
    ∀ count, options.limitCount = some count → count ≤ usizeMax := by
  fun_induction sortOptions arguments first with
  | case1 =>
      cases parsed
      exact bounded
  | case6 option options _ _ _ _ _ offset count rest ih =>
      cases offsetIs : numberOf offset "Invalid offset" with
      | error reply =>
          rw [offsetIs] at parsed
          cases parsed
      | ok offset =>
          cases countIs : numberOf count "Invalid count" with
          | error reply =>
              rw [offsetIs, countIs] at parsed
              cases parsed
          | ok count =>
              rw [offsetIs, countIs] at parsed
              refine ih offset count parsed ?_
              rintro _ ⟨⟩
              unfold asUsize usizeMax
              omega
  | _ =>
      -- an error, or an option that leaves the count
      first
      | cases parsed
      | rename_i ih
        exact ih parsed bounded

/-- A pattern with each star replaced by an element. -/
def substitute (pattern element : Bytes) : Bytes :=
  pattern.flatMap fun c => if c = 42 then element else [c]

/-- The number that a text denotes, 0 when it denotes none. -/
def sortNumber (bytes : Option Bytes) : F64 :=
  match bytes with
  | some bytes =>
      if isUtf8 bytes then (Platform.f64Parse bytes).getD Platform.f64Zero
      else Platform.f64Zero
  | none => Platform.f64Zero

/-- Inserts before the first element that is greater. -/
def insertSorted {α : Type} (less : α → α → Bool) (element : α) :
    List α → List α
  | [] => [element]
  | head :: tail =>
      if less element head then element :: head :: tail
      else head :: insertSorted less element tail

/-- A stable sort. -/
def sortBy {α : Type} (less : α → α → Bool) (elements : List α) : List α :=
  elements.foldl (fun sorted element => insertSorted less element sorted) []

/-- The string value of a key. -/
def stringOf (dbindex : Nat) (key : Bytes) : Reader (Option Bytes) := do
  match ← Db.get dbindex key with
  | some value => pure value.get.toOption
  | none => pure none

/-- The elements with the numbers they are sorted by. -/
def weighted (dbindex : Nat) (pattern : Bytes) :
    List Bytes → Reader (List (F64 × Bytes))
  | [] => pure []
  | element :: rest => do
      let value ← stringOf dbindex (substitute pattern element)
      pure ((sortNumber value, element) :: (← weighted dbindex pattern rest))

/-- The order of the numbers that elements are sorted by. -/
def lessByNumber (desc : Bool) (left right : F64 × Bytes) : Bool :=
  if desc then Platform.f64Lt right.1 left.1
  else Platform.f64Lt left.1 right.1

/-- The order of the texts; what is not a text counts as empty. -/
def lessByText (desc : Bool) (left right : Bytes) : Bool :=
  let left := if isUtf8 left then left else []
  let right := if isUtf8 right then right else []
  if desc then compareBytes right left == .lt
  else compareBytes left right == .lt

def sortElements (dbindex : Nat) (options : SortOptions)
    (elements : List Bytes) : Reader (List Bytes) := do
  match options.byPattern with
  | some pattern => do
      let weights ← weighted dbindex pattern elements
      pure ((sortBy (lessByNumber options.desc) weights).map Prod.snd)
  | none =>
      if options.alpha then
        pure (sortBy (lessByText options.desc) elements)
      else
        let weights := elements.map fun element =>
          (sortNumber (some element), element)
        pure ((sortBy (lessByNumber options.desc) weights).map Prod.snd)

/-- The part of the elements that LIMIT selects. -/
def limited (options : SortOptions) (elements : List Bytes) :
    Option (List Bytes) :=
  match options.limitOffset, options.limitCount with
  | some offset, some count => do
      let start := min offset elements.length
      let stop := min (← usize (start + count)) elements.length
      -- a slice that ends before it starts
      if stop < start then none
      else pure ((elements.take stop).drop start)
  | _, _ => some elements

/-- What a GET pattern gives for an element. -/
def getPattern (dbindex : Nat) (element pattern : Bytes) :
    Reader Response := do
  if pattern = text "#" then pure (.data element)
  else
    match ← stringOf dbindex (substitute pattern element) with
    | some bytes => pure (.data bytes)
    | none => pure .nil

def sortResult (dbindex : Nat) (options : SortOptions)
    (elements : List Bytes) : Reader (List Response) := do
  if options.getPatterns.isEmpty then pure (elements.map .data)
  else
    let rows ← elements.mapM fun element =>
      options.getPatterns.mapM (getPattern dbindex element)
    pure rows.flatten

/-- The data among the responses, which STORE keeps. -/
def dataOf (responses : List Response) : List Bytes :=
  responses.filterMap fun
    | .data bytes => some bytes
    | _ => none

/-- The elements of a list, a set or a sorted set. -/
def sortSource (value : Value) : Reader (List Bytes) := do
  match value with
  | .list list => pure list
  | .set set => pure ((← Db.order) set.members)
  | .sortedSet zset => pure (zset.skiplist.map SortedSetMember.s)
  | _ =>
      throw (.fail
        ("WRONGTYPE Operation against a key holding the wrong kind of "
          ++ "value"))

/-- The sorted result and where to store it, if the key exists. -/
def sorted (argv : Arguments) (dbindex : Nat) :
    Reader (List Response × Option Bytes) := do
  validateArgumentsGte argv 2
  let key ← tryValidate (argv.getVec 1) "Invalid key"
  match ← Db.get dbindex key with
  | none => throw (.array [])
  | some value => do
      let elements ← sortSource value
      let options ← sortOptions (argv.drop 2) {}
      let elements ← sortElements dbindex options elements
      let elements ← orPanic (limited options elements)
      pure (← sortResult dbindex options elements, options.storeKey)

def sort (argv : Arguments) (dbindex : Nat) : Writer Response := do
  let (finalResult, storeKey) ← sorted argv dbindex
  match storeKey with
  | some store =>
      if finalResult.isEmpty then do
        let _ ← Db.remove dbindex store
        pure (.integer 0)
      else do
        let _ ← Db.getOrCreate dbindex store
        Db.put dbindex store (.list (dataOf finalResult))
        Db.keyUpdated dbindex store
        pure (.integer finalResult.length)
  | none => pure (.array finalResult)

/-! ## Expiration -/

def genericExpire (dbindex : Nat) (key : Bytes) (msexpiration : Int) :
    Writer Response := do
  match ← Db.get dbindex key with
  | some _ => do
      Db.setMsexpiration dbindex key msexpiration
      Db.keyUpdated dbindex key
      Db.notifyKeyspaceEvent dbindex (text "expire") key 103
      pure (.integer 1)
  | none => pure (.integer 0)

/-- A command that sets the expiration of a key to what `absolute` makes of
the current time and the argument. -/
def expireWith (absolute : Int → Int → Option Int) (argv : Arguments)
    (dbindex : Nat) : Writer Response := do
  validateArgumentsExact argv 3
  let key ← tryValidate (argv.getVec 1) "Invalid key"
  let expiration ← tryValidate (argv.getI64 2) "Invalid expiration"
  let now ← Db.mstime
  genericExpire dbindex key (← orPanic (absolute now expiration))

/-- The same for a time that does not depend on the current one. -/
def expireAtWith (absolute : Int → Option Int) (argv : Arguments)
    (dbindex : Nat) : Writer Response := do
  validateArgumentsExact argv 3
  let key ← tryValidate (argv.getVec 1) "Invalid key"
  let expiration ← tryValidate (argv.getI64 2) "Invalid expiration"
  genericExpire dbindex key (← orPanic (absolute expiration))

def expire (argv : Arguments) (dbindex : Nat) : Writer Response :=
  expireWith (fun now expiration => do i64 (now + (← i64 (expiration * 1000))))
    argv dbindex

def expireat (argv : Arguments) (dbindex : Nat) : Writer Response :=
  expireAtWith (fun expiration => i64 (expiration * 1000)) argv dbindex

def pexpire (argv : Arguments) (dbindex : Nat) : Writer Response :=
  expireWith (fun now expiration => i64 (now + expiration)) argv dbindex

def pexpireat (argv : Arguments) (dbindex : Nat) : Writer Response :=
  expireAtWith some argv dbindex

def genericTtl (dbindex : Nat) (key : Bytes) (divisor : Int) :
    Reader Response := do
  match ← Db.get dbindex key with
  | some _ =>
      match ← Db.getMsexpiration dbindex key with
      | some exp => do
          let left ← orPanic (i64 (exp - (← Db.mstime)))
          pure (.integer (left.tdiv divisor))
      | none => pure (.integer (-1))
  | none => pure (.integer (-2))

def ttl (argv : Arguments) (dbindex : Nat) : Reader Response := do
  validateArgumentsExact argv 2
  let key ← tryValidate (argv.getVec 1) "Invalid key"
  genericTtl dbindex key 1000

def pttl (argv : Arguments) (dbindex : Nat) : Reader Response := do
  validateArgumentsExact argv 2
  let key ← tryValidate (argv.getVec 1) "Invalid key"
  genericTtl dbindex key 1

def persist (argv : Arguments) (dbindex : Nat) : Writer Response := do
  validateArgumentsExact argv 2
  let key ← tryValidate (argv.getVec 1) "Invalid key"
  let r := bit (← Db.removeMsexpiration dbindex key).isSome
  Db.keyUpdated dbindex key
  pure r

/-! ## The keyspace -/

def flushdb (argv : Arguments) (dbindex : Nat) : Writer Response := do
  validateArgumentsExact argv 1
  Db.clear dbindex
  pure .ok

def flushall (argv : Arguments) (_ : Nat) : Writer Response := do
  validateArgumentsExact argv 1
  Db.clearall
  pure .ok

def typeName : Option Value → Bytes
  | some .nil => text "none"
  | some (.string _) => text "string"
  | some (.list _) => text "list"
  | some (.set _) => text "set"
  | some (.sortedSet _) => text "zset"
  | some (.hash _) => text "hash"
  | some (.bloom _) => text "MBbloom--"
  | none => text "none"

def dbtype (argv : Arguments) (dbindex : Nat) : Reader Response := do
  validateArgumentsExact argv 2
  let key ← tryValidate (argv.getVec 1) "Invalid key"
  pure (.data (typeName (← Db.get dbindex key)))

/-- The keys of a list that match a pattern. -/
def matching (pattern : Bytes) : List Bytes → Option (List Bytes)
  | [] => some []
  | key :: rest => do
      if ← globMatch pattern key false then
        pure (key :: (← matching pattern rest))
      else matching pattern rest

def keys (argv : Arguments) (dbindex : Nat) : Reader Response := do
  validateArgumentsExact argv 2
  let pattern ← tryValidate (argv.getVec 1) "Invalid pattern"
  let found ← orPanic (matching pattern (← Db.iterDb dbindex))
  pure (.array (found.map .data))

def randomkey (argv : Arguments) (dbindex : Nat) : Reader Response := do
  validateArgumentsExact argv 1
  let found ← orPanic (matching [] (← Db.iterDb dbindex))
  if found.isEmpty then pure .nil
  else
    let index := (← Db.random 0) % found.length
    pure (.data (← orPanic found[index]?))

def moveKey (argv : Arguments) (dbindex : Nat) : Writer Response := do
  validateArgumentsExact argv 3
  let key ← tryValidate (argv.getVec 1) "Invalid key"
  let targetDb ← tryValidate (argv.getI64 2)
    "ERR value is not an integer or out of range"
  let config ← Db.config
  validate (0 ≤ targetDb ∧ targetDb < config.databases)
    "ERR target database index is out of range"
  let targetDb := targetDb.toNat
  if targetDb = dbindex then pure (.integer 0)
  else
    match ← Db.remove dbindex key with
    | none => pure (.integer 0)
    | some value => do
        let expiration ← Db.removeMsexpiration dbindex key
        let _ ← Db.getOrCreate targetDb key
        Db.put targetDb key value
        match expiration with
        | some exp => Db.setMsexpiration targetDb key exp
        | none => pure ()
        Db.keyUpdated targetDb key
        pure (.integer 1)

/-- Moves the value of a key that was removed to a new key. -/
def renameTo (dbindex : Nat) (key newkey : Bytes) (value : Value) :
    Writer Unit := do
  let expiration ← Db.removeMsexpiration dbindex key
  let _ ← Db.getOrCreate dbindex newkey
  Db.put dbindex newkey value
  match expiration with
  | some exp => Db.setMsexpiration dbindex newkey exp
  | none => pure ()
  Db.keyUpdated dbindex newkey

def rename (argv : Arguments) (dbindex : Nat) : Writer Response := do
  validateArgumentsExact argv 3
  let key ← tryValidate (argv.getVec 1) "Invalid key"
  let newkey ← tryValidate (argv.getVec 2) "Invalid key"
  if key = newkey then
    pure (.fail "ERR source and destination objects are the same")
  else
    match ← Db.remove dbindex key with
    | none => pure (.fail "ERR no such key")
    | some value => do
        renameTo dbindex key newkey value
        Db.notifyKeyspaceEvent dbindex (text "rename_from") key 103
        Db.notifyKeyspaceEvent dbindex (text "rename_to") newkey 103
        pure .ok

def renamenx (argv : Arguments) (dbindex : Nat) : Writer Response := do
  validateArgumentsExact argv 3
  let key ← tryValidate (argv.getVec 1) "Invalid key"
  let newkey ← tryValidate (argv.getVec 2) "Invalid key"
  if key = newkey then pure (.integer 0)
  else if (← Db.get dbindex newkey).isSome then pure (.integer 0)
  else
    match ← Db.remove dbindex key with
    | none => pure (.fail "ERR no such key")
    | some value => do
        renameTo dbindex key newkey value
        pure (.integer 1)

/-- The reply of OBJECT about a key that exists. -/
def aboutKey (dbindex : Nat) (key : Bytes) (found : Response) :
    Reader Response := do
  match ← Db.get dbindex key with
  | some _ => pure found
  | none => pure .nil

def encodingName : Value → Option Bytes
  | .string _ => some (text "raw")
  | .list _ => some (text "linkedlist")
  | .set _ => some (text "hashtable")
  | .sortedSet _ => some (text "skiplist")
  | .hash (.zipList _) => some (text "ziplist")
  | .hash (.hashMap _) => some (text "hashtable")
  | .bloom _ => some (text "bloom")
  | .nil => none

def object (argv : Arguments) (dbindex : Nat) : Reader Response := do
  validateArgumentsGte argv 3
  let subcommand ← tryValidate (argv.getStr 1) "Invalid subcommand"
  let key ← tryValidate (argv.getVec 2) "Invalid key"
  let subcommand := lowercase subcommand
  if subcommand = text "encoding" then
    match ← Db.get dbindex key with
    | some value =>
        match encodingName value with
        | some encoding => pure (.data encoding)
        | none => pure .nil
    | none => pure .nil
  else if subcommand = text "idletime" then
    aboutKey dbindex key (.integer 0)
  else if subcommand = text "refcount" then
    aboutKey dbindex key (.integer 1)
  else if subcommand = text "freq" then aboutKey dbindex key (.integer 0)
  else
    pure (.fail
      "ERR Unknown subcommand or wrong number of arguments for OBJECT")

/-! ## Scanning -/

structure ScanOptions where
  pattern : Option Bytes := none
  count : Nat := 10

def scanOptions : List Bytes → ScanOptions → Except Response ScanOptions
  | [], options => .ok options
  | option :: rest, options =>
      if isUtf8 option then
        let option := lowercase option
        if option = text "match" then
          match rest with
          | pattern :: rest =>
              scanOptions rest { options with pattern := some pattern }
          | [] => .error (.fail "syntax error")
        else if option = text "count" then
          match rest with
          | count :: rest => do
              let c ← numberOf count "syntax error"
              validate (0 ≤ c) "syntax error"
              scanOptions rest
                { options with count := if c = 0 then 10 else c.toNat }
          | [] => .error (.fail "syntax error")
        else .error (.fail "syntax error")
      else .error (.fail "syntax error")

/-- The entries between two cursors whose name matches the pattern, and the
next cursor. -/
def scanEntries {α : Type} (name : α → Bytes) (options : ScanOptions)
    (cursor : Nat) (entries : List α) : Option (Nat × List α) := do
  let total := entries.length
  if total ≤ cursor then pure (0, [])
  else
    let stop := min (← usize (cursor + options.count)) total
    let window := (entries.take stop).drop cursor
    let found ←
      match options.pattern with
      | none => pure window
      | some pattern =>
          let keep ← window.mapM fun entry =>
            globMatch pattern (name entry) false
          pure (((window.zip keep).filter Prod.snd).map Prod.fst)
    pure (if total ≤ stop then 0 else stop, found)

def scanReply (cursor : Nat) (entries : List Bytes) : Response :=
  .array [.data (natToString cursor), .array (entries.map .data)]

def scan (argv : Arguments) (dbindex : Nat) : Reader Response := do
  validateArgumentsGte argv 2
  let cursor ← tryValidate (argv.getI64 1) "ERR invalid cursor"
  validate (0 ≤ cursor) "ERR invalid cursor"
  let options ← scanOptions (argv.drop 2) {}
  let (next, found) ← orPanic
    (scanEntries id options cursor.toNat (← Db.iterDb dbindex))
  pure (scanReply next found)

/-- A command that scans the collection of a key.  `entries` lists it in the
order of the hash map and `entry` shows an entry. -/
def scanKey {α : Type} (entries : (Finset Bytes → List Bytes) → Value →
      Operation (List α))
    (name : α → Bytes) (entry : α → List Bytes) (argv : Arguments)
    (dbindex : Nat) : Reader Response := do
  validateArgumentsGte argv 3
  let key ← tryValidate (argv.getVec 1) "Invalid key"
  let cursor ← tryValidate (argv.getI64 2) "ERR invalid cursor"
  validate (0 ≤ cursor) "ERR invalid cursor"
  let options ← scanOptions (argv.drop 3) {}
  match ← Db.get dbindex key with
  | none => pure (scanReply 0 [])
  | some value =>
      match entries (← Db.order) value with
      | .error error => pure (.error error.message)
      | .ok all => do
          let (next, found) ← orPanic
            (scanEntries name options cursor.toNat all)
          pure (scanReply next (found.flatMap entry))

def sscan (argv : Arguments) (dbindex : Nat) : Reader Response :=
  scanKey (fun order value => order <$> value.smembers) id (fun m => [m])
    argv dbindex

def zscan (argv : Arguments) (dbindex : Nat) : Reader Response :=
  scanKey
    (fun _ value =>
      match value with
      | .nil => .ok []
      | .sortedSet zset => .ok zset.skiplist
      | _ => .error .wrongTypeError)
    SortedSetMember.s (ValueSortedSet.showMember true) argv dbindex

/-- The fields of a hash with their values. -/
def hashEntries (order : Finset Bytes → List Bytes)
    (fields : HashMap Bytes Bytes) : List (Bytes × Bytes) :=
  entriesOf order fields

def hscan (argv : Arguments) (dbindex : Nat) : Reader Response :=
  scanKey (fun order value => hashEntries order <$> value.hgetall) Prod.fst
    (fun entry => [entry.1, entry.2]) argv dbindex

/-! ## Bits -/

/-- A number that stands for itself, or the default past the end. -/
def byteIndex (argv : Arguments) (pos : Nat) (default : Nat)
    (message : String) : Except Response Nat :=
  if pos < argv.length then do
    pure (asUsize (← tryValidate (argv.getI64 pos) message))
  else .ok default

/-- The range of bytes from `start` to `stop` and where it starts. -/
def byteRange (data : Bytes) (start stop : Nat) :
    Option (Nat × Bytes) := do
  let startByte := min start data.length
  let endByte := min (← usize (stop + 1)) data.length
  pure (startByte, (data.take endByte).drop startByte)

def countOnes (byte : UInt8) : Nat :=
  ((List.range 8).filter fun index =>
    byte &&& ((1 : UInt8) <<< index.toUInt8) != 0).length

def bitcount (argv : Arguments) (dbindex : Nat) : Reader Response := do
  validateArgumentsGte argv 2
  let key ← tryValidate (argv.getVec 1) "Invalid key"
  let start ← byteIndex argv 2 0 "Invalid start"
  let stop ← byteIndex argv 3 usizeMax "Invalid end"
  match ← stringOf dbindex key with
  | some data => do
      let (_, slice) ← orPanic (byteRange data start stop)
      pure (.integer (slice.map countOnes).sum)
  | none => pure (.integer 0)

/-- The first of the bits that equals the target. -/
def firstBit (target : Bool) (slice : Bytes) : Option Nat :=
  (slice.flatMap fun byte =>
    (List.range 8).map fun index => ValueString.getbit (.data [byte]) index)
    |>.idxOf? target

def bitpos (argv : Arguments) (dbindex : Nat) : Reader Response := do
  validateArgumentsGte argv 3
  let key ← tryValidate (argv.getVec 1) "Invalid key"
  let bit ← tryValidate (argv.getI64 2) "Invalid bit"
  validate (bit = 0 ∨ bit = 1) "ERR The bit argument must be 1 or 0"
  let start ← byteIndex argv 3 0 "Invalid start"
  let stop ← byteIndex argv 4 usizeMax "Invalid end"
  let missing : Response := .integer (if bit = 0 then 0 else -1)
  match ← stringOf dbindex key with
  | some data => do
      let (startByte, slice) ← orPanic (byteRange data start stop)
      match firstBit (bit == 1) slice with
      | some offset => pure (.integer (startByte * 8 + offset : Nat))
      | none => pure missing
  | none => pure missing

/-- Combines the bytes at one position of all sources. -/
def bitopByte (op : Bytes) (sources : List (Option Bytes)) (position : Nat) :
    UInt8 :=
  let bytes := sources.map fun source => (source.getD []).getD position 0
  if op = text "and" then bytes.foldl (· &&& ·) 255
  else if op = text "or" then bytes.foldl (· ||| ·) 0
  else bytes.foldl (· ^^^ ·) 0

def stringsOf (dbindex : Nat) (keys : List Bytes) :
    Reader (List (Option Bytes)) :=
  keys.mapM (stringOf dbindex)

/-- The bytes that BITOP stores. -/
def bitopResult (op : Bytes) (dbindex : Nat) (sourceKeys : List Bytes) :
    Reader Bytes := do
  if op = text "and" ∨ op = text "or" ∨ op = text "xor" then do
    if sourceKeys.isEmpty then
      throw (.fail "ERR wrong number of arguments for 'bitop' command")
    else
      let sources ← stringsOf dbindex sourceKeys
      let lengths := sources.map fun source => (source.getD []).length
      pure ((List.range (lengths.foldl max 0)).map (bitopByte op sources))
  else if op = text "not" then
    match sourceKeys with
    | [source] => do
        let data ← stringOf dbindex source
        pure ((data.getD []).map fun byte => ~~~byte)
    | _ => throw (.fail "ERR BITOP NOT must be called with a single source key")
  else throw (.fail "ERR syntax error")

def bitop (argv : Arguments) (dbindex : Nat) : Writer Response := do
  validateArgumentsGte argv 4
  let op ← tryValidate (argv.getStr 1) "Invalid operation"
  let destKey ← tryValidate (argv.getVec 2) "Invalid destination key"
  let result ← bitopResult (lowercase op) dbindex (argv.drop 3)
  overwrite dbindex destKey result
  pure (.integer result.length)

end RedVector.Command
