import RedVector.Command.Macros
import RedVector.Command.Name

/-!
# Commands about the server

None of these commands touches a key.  They are functions of the state of the
database; `none` is a panic.
-/

namespace RedVector

open Util

variable [Platform]

namespace Command

/-- The reply of a command that fails with a reply of its own. -/
def replyOf (result : Except Response Response) : Response :=
  match result with
  | .ok reply => reply
  | .error reply => reply

def echo (argv : Arguments) : Response :=
  replyOf do
    validateArgumentsExact argv 2
    pure (.data (← tryValidate (argv.getStr 1) "Syntax error"))

def time (env : Env) : Response :=
  .array [.data (intToString (env.ustime.tdiv 1000000)),
    .data (intToString (env.ustime.tmod 1000000))]

def role : Response :=
  .array [.data (text "master"), .integer 0, .array []]

def slaveof (argv : Arguments) : Response :=
  replyOf do
    validateArgumentsExact argv 3
    let _ ← tryValidate (argv.getStr 1) "Invalid host"
    let _ ← tryValidate (argv.getStr 2) "Invalid port"
    pure .ok

def waitCmd (argv : Arguments) : Response :=
  replyOf do
    validateArgumentsExact argv 3
    let numreplicas ← tryValidate (argv.getI64 1) "Invalid numreplicas"
    let _ ← tryValidate (argv.getI64 2) "Invalid timeout"
    if numreplicas < 0 then pure (.fail "ERR numreplicas must be >= 0")
    else pure (.data (text "0"))

def publish (env : Env) (argv : Arguments) (db : Database) :
    Option (Response × Database) :=
  match validateArgumentsExact argv 3 with
  | .error reply => some (reply, db)
  | .ok () => do
      let (count, db) ← db.publish env (argv.getD 1 []) (argv.getD 2 [])
      pure (.integer count, db)

def pubsub (env : Env) (argv : Arguments) (db : Database) :
    Option Response :=
  match (do
      validateArgumentsGte argv 2
      tryValidate (argv.getStr 1) "Invalid subcommand" :
        Except Response Bytes) with
  | .error reply => some reply
  | .ok subcommand =>
      let subcommand := lowercase subcommand
      if subcommand = text "channels" then do
        let channels ← db.pubsubChannelList env argv[2]?
        pure (.array (channels.map .data))
      else if subcommand = text "numsub" then
        some (.array ((argv.drop 2).flatMap fun channel =>
          [.data channel, .integer (db.pubsubNumsub channel)]))
      else if subcommand = text "numpat" then
        some (replyOf do
          validateArgumentsExact argv 2
          pure (.integer db.pubsubPatterns))
      else
        some (.fail
          "ERR Unknown PUBSUB subcommand or wrong number of arguments")

/-- The monitor receives its lines through the client. -/
def monitor (argv : Arguments) (client : Nat) (db : Database) :
    Response × Database :=
  match validateArgumentsExact argv 1 with
  | .error reply => (reply, db)
  | .ok () =>
      (.ok, { db with monitorSenders := db.monitorSenders ++ [client] })

def info (env : Env) (argv : Arguments) : Response :=
  replyOf do
    validateArgumentsLte argv 2
    if argv.length = 1 then pure (.data (env.info (text "default")))
    else
      let section' ← tryValidate (argv.getStr 1) "Invalid section"
      pure (.data (env.info (lowercase section')))

def save (env : Env) (argv : Arguments) (db : Database) :
    Response × Database :=
  match validateArgumentsExact argv 1 with
  | .error reply => (reply, db)
  | .ok () => (.ok, { db with lastSaveTime := env.now.tdiv 1000 })

/-- A command that only checks the number of its arguments. -/
def acknowledge (valid : Except Response Unit) (status : Response) :
    Response :=
  replyOf do
    valid
    pure status

def bgsave (argv : Arguments) : Response :=
  acknowledge (validateArgumentsExact argv 1)
    (.status (text "Background saving started by pid 0"))

def bgrewriteaof (argv : Arguments) : Response :=
  acknowledge (validateArgumentsExact argv 1)
    (.status
      (text "Background append only file rewriting started by pid 0"))

def shutdown (argv : Arguments) : Response :=
  acknowledge (validateArgumentsLte argv 2) .ok

def lastsave (argv : Arguments) (db : Database) : Response :=
  acknowledge (validateArgumentsExact argv 1) (.integer db.lastSaveTime)

/-- An entry of the slow log; addresses and names of clients are not
tracked by the source. -/
def slowlogEntry (entry : SlowLogEntry) : Response :=
  .array [.integer entry.id, .integer entry.timestamp,
    .integer entry.duration, .array (entry.command.map .data),
    .data (text "127.0.0.1:0"), .data []]

def slowlog (argv : Arguments) (db : Database) : Response × Database :=
  match (do
      validate (2 ≤ argv.length) "Wrong number of parameters"
      tryValidate (argv.getStr 1) "Invalid subcommand" :
        Except Response Bytes) with
  | .error reply => (reply, db)
  | .ok subcommand =>
      let name := lowercase subcommand
      if name = text "get" then
        match (if 2 < argv.length then
            some <$> tryValidate (argv.getI64 2) "Invalid count"
          else pure none : Except Response (Option Int)) with
        | .error reply => (reply, db)
        | .ok count =>
            (.array ((db.slowlogGet (count.map asUsize)).map slowlogEntry),
              db)
      else if name = text "len" then (.integer db.slowlog.length, db)
      else if name = text "reset" then (.ok, db.slowlogReset)
      else
        (.error (text "ERR Unknown SLOWLOG subcommand '" ++ subcommand ++
          text "'"), db)

/-! ## CONFIG -/

def yesNo (on : Bool) : Bytes :=
  if on then text "yes" else text "no"

/-- The value of a parameter. -/
def configParameter (config : Config) (param : Bytes) : Option Bytes :=
  ([("dir", config.dir),
    ("appendonly", yesNo config.appendonly),
    ("appendfilename", config.appendfilename),
    ("requirepass", config.requirepass.getD []),
    ("port", natToString config.port),
    ("databases", natToString config.databases),
    ("hz", natToString config.hz),
    ("activerehashing", yesNo config.activeRehashing),
    ("set-max-intset-entries", natToString config.setMaxIntsetEntries),
    ("dbfilename", config.dbfilename),
    ("maxmemory", natToString (config.maxmemory.getD 0)),
    ("maxmemory-policy", config.maxmemoryPolicy),
    ("appendfsync", config.appendfsync),
    ("stop-writes-on-bgsave-error", yesNo config.stopWritesOnBgsaveError),
    ("rdbcompression", yesNo config.rdbcompression),
    ("rdbchecksum", yesNo config.rdbchecksum),
    ("maxclients", natToString config.maxclients),
    ("maxmemory-samples", natToString config.maxmemorySamples),
    ("no-appendfsync-on-rewrite", yesNo config.noAppendfsyncOnRewrite),
    ("auto-aof-rewrite-percentage",
      intToString config.autoAofRewritePercentage),
    ("auto-aof-rewrite-min-size", natToString config.autoAofRewriteMinSize),
    ("slowlog-log-slower-than", intToString config.slowlogLogSlowerThan),
    ("slowlog-max-len", natToString config.slowlogMaxLen),
    ("latency-monitor-threshold",
      intToString config.latencyMonitorThreshold),
    ("hash-max-ziplist-entries", natToString config.hashMaxZiplistEntries),
    ("hash-max-ziplist-value", natToString config.hashMaxZiplistValue),
    ("list-max-ziplist-entries", natToString config.listMaxZiplistEntries),
    ("list-max-ziplist-value", natToString config.listMaxZiplistValue),
    ("zset-max-ziplist-entries", natToString config.zsetMaxZiplistEntries),
    ("zset-max-ziplist-value", natToString config.zsetMaxZiplistValue),
    ("notify-keyspace-events", config.notifyKeyspaceEvents)].find?
      fun entry => text entry.1 = param).map Prod.snd

def configGet (config : Config) (argv : Arguments) :
    Except Response Response := do
  validateArgumentsExact argv 3
  let param ← tryValidate (argv.getStr 2) "Invalid parameter"
  match configParameter config (lowercase param) with
  | none => pure (.array [])
  | some value => pure (.array [.data (lowercase param), .data value])

/-- The reply to a value that a parameter does not accept. -/
def invalidSetting (param : String) : Response :=
  .error (text "ERR Invalid argument for CONFIG SET '" ++ text param ++
    text "'")

/-- A yes or no as the value of a parameter. -/
def booleanSetting (param : String) (value : Bytes) :
    Except Response Bool :=
  if lowercase value = text "yes" then .ok true
  else if lowercase value = text "no" then .ok false
  else .error (invalidSetting param)

/-- A value that is one of a list of words in any case. -/
def wordSetting (words : List String) (param : String) (value : Bytes) :
    Except Response Bytes :=
  if words.any fun word => text word = lowercase value then .ok value
  else .error (invalidSetting param)

/-- A positive number up to a limit. -/
def positiveSetting (limit : Nat) (param : String) (value : Bytes) :
    Except Response Nat :=
  match (parseUsize value).filter fun v => 0 < v && v ≤ limit with
  | some v => .ok v
  | none => .error (invalidSetting param)

/-- The value is put in upper case before its flags are looked up. -/
def eventSetting (param : String) (value : Bytes) :
    Except Response Bytes :=
  let validFlags := text "Kg$lshzxeEA"
  let upper := value.map fun byte =>
    if 97 ≤ byte && byte ≤ 122 then byte - 32 else byte
  if upper.all validFlags.contains then .ok value
  else .error (invalidSetting param)

/-- A parameter and the configuration after its value is set. -/
abbrev Setting := String × (Config → Bytes → Except Response Config)

/-- A setting with a value that `read` accepts. -/
def setting {α : Type} (param : String)
    (read : String → Bytes → Except Response α)
    (update : Config → α → Config) : Setting :=
  (param, fun config value => update config <$> read param value)

/-- Any value is accepted. -/
def anySetting (_ : String) (value : Bytes) : Except Response Bytes :=
  .ok value

/-- Zero is no limit. -/
def memorySetting (param : String) (value : Bytes) :
    Except Response (Option Nat) :=
  match parseUsize value with
  | some 0 => .ok none
  | some m => .ok (some m)
  | none => .error (invalidSetting param)

def settings : List Setting :=
  [setting "appendonly" booleanSetting
      fun config value => { config with appendonly := value },
    setting "appendfilename" anySetting
      fun config value => { config with appendfilename := value },
    setting "dbfilename" anySetting
      fun config value => { config with dbfilename := value },
    setting "maxmemory" memorySetting
      fun config value => { config with maxmemory := value },
    setting "maxmemory-policy"
      (wordSetting ["volatile-lru", "allkeys-lru", "volatile-random",
        "allkeys-random", "volatile-ttl", "noeviction"])
      fun config value => { config with maxmemoryPolicy := value },
    setting "appendfsync" (wordSetting ["always", "everysec", "no"])
      fun config value => { config with appendfsync := value },
    setting "hz" (positiveSetting 500)
      fun config value => { config with hz := value },
    setting "activerehashing" booleanSetting
      fun config value => { config with activeRehashing := value },
    setting "hash-max-ziplist-entries" (positiveSetting usizeMax)
      fun config value => { config with hashMaxZiplistEntries := value },
    setting "hash-max-ziplist-value" (positiveSetting usizeMax)
      fun config value => { config with hashMaxZiplistValue := value },
    setting "list-max-ziplist-entries" (positiveSetting usizeMax)
      fun config value => { config with listMaxZiplistEntries := value },
    setting "list-max-ziplist-value" (positiveSetting usizeMax)
      fun config value => { config with listMaxZiplistValue := value },
    setting "zset-max-ziplist-entries" (positiveSetting usizeMax)
      fun config value => { config with zsetMaxZiplistEntries := value },
    setting "zset-max-ziplist-value" (positiveSetting usizeMax)
      fun config value => { config with zsetMaxZiplistValue := value },
    setting "notify-keyspace-events" eventSetting
      fun config value => { config with notifyKeyspaceEvents := value }]

/-- The configuration after CONFIG SET. -/
def applySetting (config : Config) (param value : Bytes) :
    Except Response Config :=
  match settings.find? fun entry => text entry.1 = lowercase param with
  | some entry => entry.2 config value
  | none =>
      .error (.error
        (text "ERR CONFIG SET failed (possibly unknown parameter '" ++
          param ++ text "')"))

def configSet (config : Config) (argv : Arguments) :
    Except Response Config := do
  validateArgumentsExact argv 4
  let param ← tryValidate (argv.getStr 2) "Invalid parameter"
  let value ← tryValidate (argv.getStr 3) "Invalid value"
  applySetting config param value

def config (argv : Arguments) (db : Database) : Response × Database :=
  match (do
      validateArgumentsGte argv 2
      tryValidate (argv.getStr 1) "Invalid subcommand" :
        Except Response Bytes) with
  | .error reply => (reply, db)
  | .ok subcommand =>
      let subcommand := lowercase subcommand
      if subcommand = text "get" then
        (replyOf (configGet db.config argv), db)
      else if subcommand = text "set" then
        match configSet db.config argv with
        | .ok config => (.ok, { db with config := config })
        | .error reply => (reply, db)
      else
        (.fail ("ERR CONFIG subcommand must be one of GET, SET, RESETSTAT, "
          ++ "REWRITE, GETSET"), db)

/-! ## COMMAND -/

/-- The flags in the order in which COMMAND lists them. -/
def flagTexts : List (CommandFlag × String) :=
  [(.write, "write"), (.readonly, "readonly"), (.denyoom, "denyoom"),
    (.admin, "admin"), (.pubsub, "pubsub"), (.noscript, "noscript"),
    (.random, "random"), (.sortForScript, "sort_for_script"),
    (.loading, "loading"), (.stale, "stale"),
    (.skipMonitor, "skip_monitor"), (.asking, "asking"), (.fast, "fast")]

/-- What COMMAND says about a command. -/
def commandInfo (name : Bytes) (properties : CommandProperties) : Response :=
  let flags := flagTexts.filter fun flag => flag.1 ∈ properties.flags
  .array [.data name, .data (intToString properties.arity),
    .array (flags.map fun flag => .data (text flag.2)),
    .data (intToString properties.firstKeyIndex),
    .data (intToString properties.lastKeyIndex),
    .data (intToString properties.keyStep)]

/-- The commands that COMMAND lists. -/
def listedCommands : List CommandName :=
  [.get, .set, .setnx, .setex, .psetex, .append, .strlen, .del, .exists',
    .setbit, .getbit, .setrange, .getrange, .substr, .incr, .decr, .mget,
    .rpush, .lpush, .rpushx, .lpushx, .linsert, .rpop, .lpop, .rpoplpush,
    .brpop, .blpop, .brpoplpush, .llen, .lindex, .lset, .lrange, .ltrim,
    .lrem, .sadd, .srem, .smove, .sismember, .scard, .spop, .srandmember,
    .sinter, .sinterstore, .sunion, .sunionstore, .sdiff, .sdiffstore,
    .smembers, .sscan, .zadd, .zincrby, .zrem, .zremrangebyscore,
    .zremrangebyrank, .zremrangebylex, .zunionstore, .zinterstore, .zrange,
    .zrevrange, .zrangebyscore, .zrevrangebyscore, .zrangebylex,
    .zrevrangebylex, .zcount, .zlexcount, .zcard, .zscore, .zrank, .zrevrank,
    .zscan, .hset, .hsetnx, .hget, .hmset, .hmget, .hincrby, .hincrbyfloat,
    .hdel, .hlen, .hstrlen, .hkeys, .hvals, .hgetall, .hexists, .hscan,
    .incrby, .decrby, .incrbyfloat, .getset, .mset, .msetnx, .randomkey,
    .select, .move, .rename, .renamenx, .expire, .expireat, .pexpire,
    .pexpireat, .keys, .scan, .dbsize, .auth, .ping, .echo, .save, .bgsave,
    .bgrewriteaof, .shutdown, .lastsave, .type, .multi, .exec, .discard,
    .sync, .psync, .replconf, .flushdb, .flushall, .sort, .info, .monitor,
    .ttl, .pttl, .persist, .slaveof, .role, .debug, .config, .subscribe,
    .unsubscribe, .psubscribe, .punsubscribe, .publish, .pubsub, .watch,
    .unwatch, .cluster, .restore, .restoreAsking, .migrate, .asking,
    .readonly, .readwrite, .dump, .object, .client, .eval, .evalsha, .slowlog,
    .script, .time, .bitop, .bitcount, .bitpos, .wait, .command, .geoadd,
    .georadius, .georadiusbymember, .geohash, .geopos, .geodist, .pfselftest,
    .pfadd, .pfcount, .pfmerge, .bfReserve, .bfAdd, .bfMadd, .bfExists,
    .bfMexists, .pfdebug, .latency]

/-- The arguments from `first` to `last` in steps. -/
def stepped (argv : Arguments) (first last step : Nat) : List Bytes :=
  ((List.range argv.length).filter fun i =>
    first ≤ i && i ≤ last && (i - first) % step == 0).filterMap
      fun i => argv[i]?

/-- An index that counts from the end when it is negative. -/
def keyIndex (argv : Arguments) (index : Int) : Nat :=
  if index < 0 then asUsize (argv.length + index) else index.toNat

def commandKeys (argv : Arguments) : Except Response Response := do
  validateArgumentsGte argv 3
  let name ← tryValidate (argv.getStr 2) "Invalid command"
  let properties := commandProperties (lowercase name)
  if properties.firstKeyIndex = 0 && properties.lastKeyIndex = 0 then
    pure (.array [])
  else
    pure (.array ((stepped argv (keyIndex argv properties.firstKeyIndex)
      (keyIndex argv properties.lastKeyIndex)
      properties.keyStep.toNat).map .data))

/-- The information about each of the names. -/
def commandInfos : List Bytes → Except Response (List Response)
  | [] => .ok []
  | name :: rest =>
      if isUtf8 name then do
        let infos ← commandInfos rest
        pure (commandInfo name (commandProperties (lowercase name)) :: infos)
      else .error (.fail "Invalid command")

def commandCmd (argv : Arguments) : Response :=
  if argv.length = 1 then
    .array (listedCommands.map fun name =>
      commandInfo (text name.spelling) (.ofName name))
  else
    replyOf do
      let subcommand ← tryValidate (argv.getStr 1) "Invalid subcommand"
      let subcommand := lowercase subcommand
      if subcommand = text "count" then pure (.data (text "150"))
      else if subcommand = text "getkeys" then commandKeys argv
      else if subcommand = text "info" then do
        validateArgumentsGte argv 3
        pure (.array (← commandInfos (argv.drop 2)))
      else pure (.fail "ERR unknown subcommand")

end Command

end RedVector
