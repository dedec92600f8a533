import RedVector.Response

/-!
# Command names and their properties

The table of the source that says what each command may do.  Names that start
with `ft.` belong to a feature that is off by default.
-/

namespace RedVector

/-- The command names that the source knows. -/
inductive CommandName where
  | get | set | setnx | setex | psetex | append | strlen | del | exists'
  | setbit | getbit | setrange | getrange | substr | incr | decr | mget
  | rpush | lpush | rpushx | lpushx | linsert | rpop | lpop | rpoplpush
  | brpop | blpop | brpoplpush | llen | lindex | lset | lrange | ltrim | lrem
  | sadd | srem | smove | sismember | scard | spop | srandmember | sinter
  | sinterstore | sunion | sunionstore | sdiff | sdiffstore | smembers | sscan
  | zadd | zincrby | zrem | zremrangebyscore | zremrangebyrank
  | zremrangebylex | zunionstore | zinterstore | zrange | zrevrange
  | zrangebyscore | zrevrangebyscore | zrangebylex | zrevrangebylex | zcount
  | zlexcount | zcard | zscore | zrank | zrevrank | zscan | hset | hsetnx
  | hget | hmset | hmget | hincrby | hincrbyfloat | hdel | hlen | hstrlen
  | hkeys | hvals | hgetall | hexists | hscan | incrby | decrby | incrbyfloat
  | getset | mset | msetnx | randomkey | select | move | rename | renamenx
  | expire | expireat | pexpire | pexpireat | keys | scan | dbsize | auth
  | ping | echo | save | bgsave | bgrewriteaof | shutdown | lastsave | type
  | multi | exec | discard | sync | psync | replconf | flushdb | flushall
  | sort | info | monitor | ttl | pttl | persist | slaveof | role | debug
  | config | subscribe | unsubscribe | psubscribe | punsubscribe | publish
  | pubsub | watch | unwatch | cluster | restore | restoreAsking | migrate
  | asking | readonly | readwrite | dump | object | client | eval | evalsha
  | slowlog | script | time | bitop | bitcount | bitpos | wait | command
  | geoadd | georadius | georadiusbymember | geohash | geopos | geodist
  | pfselftest | pfadd | pfcount | pfmerge | bfReserve | bfAdd | bfMadd
  | bfExists | bfMexists | pfdebug | latency
deriving DecidableEq

namespace CommandName

def spelling : CommandName → String
  | .get => "get"
  | .set => "set"
  | .setnx => "setnx"
  | .setex => "setex"
  | .psetex => "psetex"
  | .append => "append"
  | .strlen => "strlen"
  | .del => "del"
  | .exists' => "exists"
  | .setbit => "setbit"
  | .getbit => "getbit"
  | .setrange => "setrange"
  | .getrange => "getrange"
  | .substr => "substr"
  | .incr => "incr"
  | .decr => "decr"
  | .mget => "mget"
  | .rpush => "rpush"
  | .lpush => "lpush"
  | .rpushx => "rpushx"
  | .lpushx => "lpushx"
  | .linsert => "linsert"
  | .rpop => "rpop"
  | .lpop => "lpop"
  | .rpoplpush => "rpoplpush"
  | .brpop => "brpop"
  | .blpop => "blpop"
  | .brpoplpush => "brpoplpush"
  | .llen => "llen"
  | .lindex => "lindex"
  | .lset => "lset"
  | .lrange => "lrange"
  | .ltrim => "ltrim"
  | .lrem => "lrem"
  | .sadd => "sadd"
  | .srem => "srem"
  | .smove => "smove"
  | .sismember => "sismember"
  | .scard => "scard"
  | .spop => "spop"
  | .srandmember => "srandmember"
  | .sinter => "sinter"
  | .sinterstore => "sinterstore"
  | .sunion => "sunion"
  | .sunionstore => "sunionstore"
  | .sdiff => "sdiff"
  | .sdiffstore => "sdiffstore"
  | .smembers => "smembers"
  | .sscan => "sscan"
  | .zadd => "zadd"
  | .zincrby => "zincrby"
  | .zrem => "zrem"
  | .zremrangebyscore => "zremrangebyscore"
  | .zremrangebyrank => "zremrangebyrank"
  | .zremrangebylex => "zremrangebylex"
  | .zunionstore => "zunionstore"
  | .zinterstore => "zinterstore"
  | .zrange => "zrange"
  | .zrevrange => "zrevrange"
  | .zrangebyscore => "zrangebyscore"
  | .zrevrangebyscore => "zrevrangebyscore"
  | .zrangebylex => "zrangebylex"
  | .zrevrangebylex => "zrevrangebylex"
  | .zcount => "zcount"
  | .zlexcount => "zlexcount"
  | .zcard => "zcard"
  | .zscore => "zscore"
  | .zrank => "zrank"
  | .zrevrank => "zrevrank"
  | .zscan => "zscan"
  | .hset => "hset"
  | .hsetnx => "hsetnx"
  | .hget => "hget"
  | .hmset => "hmset"
  | .hmget => "hmget"
  | .hincrby => "hincrby"
  | .hincrbyfloat => "hincrbyfloat"
  | .hdel => "hdel"
  | .hlen => "hlen"
  | .hstrlen => "hstrlen"
  | .hkeys => "hkeys"
  | .hvals => "hvals"
  | .hgetall => "hgetall"
  | .hexists => "hexists"
  | .hscan => "hscan"
  | .incrby => "incrby"
  | .decrby => "decrby"
  | .incrbyfloat => "incrbyfloat"
  | .getset => "getset"
  | .mset => "mset"
  | .msetnx => "msetnx"
  | .randomkey => "randomkey"
  | .select => "select"
  | .move => "move"
  | .rename => "rename"
  | .renamenx => "renamenx"
  | .expire => "expire"
  | .expireat => "expireat"
  | .pexpire => "pexpire"
  | .pexpireat => "pexpireat"
  | .keys => "keys"
  | .scan => "scan"
  | .dbsize => "dbsize"
  | .auth => "auth"
  | .ping => "ping"
  | .echo => "echo"
  | .save => "save"
  | .bgsave => "bgsave"
  | .bgrewriteaof => "bgrewriteaof"
  | .shutdown => "shutdown"
  | .lastsave => "lastsave"
  | .type => "type"
  | .multi => "multi"
  | .exec => "exec"
  | .discard => "discard"
  | .sync => "sync"
  | .psync => "psync"
  | .replconf => "replconf"
  | .flushdb => "flushdb"
  | .flushall => "flushall"
  | .sort => "sort"
  | .info => "info"
  | .monitor => "monitor"
  | .ttl => "ttl"
  | .pttl => "pttl"
  | .persist => "persist"
  | .slaveof => "slaveof"
  | .role => "role"
  | .debug => "debug"
  | .config => "config"
  | .subscribe => "subscribe"
  | .unsubscribe => "unsubscribe"
  | .psubscribe => "psubscribe"
  | .punsubscribe => "punsubscribe"
  | .publish => "publish"
  | .pubsub => "pubsub"
  | .watch => "watch"
  | .unwatch => "unwatch"
  | .cluster => "cluster"
  | .restore => "restore"
  | .restoreAsking => "restore-asking"
  | .migrate => "migrate"
  | .asking => "asking"
  | .readonly => "readonly"
  | .readwrite => "readwrite"
  | .dump => "dump"
  | .object => "object"
  | .client => "client"
  | .eval => "eval"
  | .evalsha => "evalsha"
  | .slowlog => "slowlog"
  | .script => "script"
  | .time => "time"
  | .bitop => "bitop"
  | .bitcount => "bitcount"
  | .bitpos => "bitpos"
  | .wait => "wait"
  | .command => "command"
  | .geoadd => "geoadd"
  | .georadius => "georadius"
  | .georadiusbymember => "georadiusbymember"
  | .geohash => "geohash"
  | .geopos => "geopos"
  | .geodist => "geodist"
  | .pfselftest => "pfselftest"
  | .pfadd => "pfadd"
  | .pfcount => "pfcount"
  | .pfmerge => "pfmerge"
  | .bfReserve => "bf.reserve"
  | .bfAdd => "bf.add"
  | .bfMadd => "bf.madd"
  | .bfExists => "bf.exists"
  | .bfMexists => "bf.mexists"
  | .pfdebug => "pfdebug"
  | .latency => "latency"

def all : List CommandName :=
  [.get, .set, .setnx, .setex, .psetex, .append, .strlen, .del, .exists',
    .setbit, .getbit, .setrange, .getrange, .substr, .incr, .decr, .mget,
    .rpush, .lpush, .rpushx, .lpushx, .linsert, .rpop, .lpop, .rpoplpush,
    .brpop, .blpop, .brpoplpush, .llen, .lindex, .lset, .lrange, .ltrim,
    .lrem, .sadd, .srem, .smove, .sismember, .scard, .spop, .srandmember,
    .sinter, .sinterstore, .sunion, .sunionstore, .sdiff, .sdiffstore,
    .smembers, .sscan, .zadd, .zincrby, .zrem, .zremrangebyscore,
    .zremrangebyrank, .zremrangebylex, .zunionstore, .zinterstore, .zrange,
    .zrevrange, .zrangebyscore, .zrevrangebyscore, .zrangebylex,
    .zrevrangebylex, .zcount, .zlexcount, .zcard, .zscore, .zrank, .zrevrank,
    .zscan, .hset, .hsetnx, .hget, .hmset, .hmget, .hincrby, .hincrbyfloat,
    .hdel, .hlen, .hstrlen, .hkeys, .hvals, .hgetall, .hexists, .hscan,
    .incrby, .decrby, .incrbyfloat, .getset, .mset, .msetnx, .randomkey,
    .select, .move, .rename, .renamenx, .expire, .expireat, .pexpire,
    .pexpireat, .keys, .scan, .dbsize, .auth, .ping, .echo, .save, .bgsave,
    .bgrewriteaof, .shutdown, .lastsave, .type, .multi, .exec, .discard,
    .sync, .psync, .replconf, .flushdb, .flushall, .sort, .info, .monitor,
    .ttl, .pttl, .persist, .slaveof, .role, .debug, .config, .subscribe,
    .unsubscribe, .psubscribe, .punsubscribe, .publish, .pubsub, .watch,
    .unwatch, .cluster, .restore, .restoreAsking, .migrate, .asking,
    .readonly, .readwrite, .dump, .object, .client, .eval, .evalsha, .slowlog,
    .script, .time, .bitop, .bitcount, .bitpos, .wait, .command, .geoadd,
    .georadius, .georadiusbymember, .geohash, .geopos, .geodist, .pfselftest,
    .pfadd, .pfcount, .pfmerge, .bfReserve, .bfAdd, .bfMadd, .bfExists,
    .bfMexists, .pfdebug, .latency]

/-- The command that a name spells, if there is one. -/
def ofBytes (name : Bytes) : Option CommandName :=
  all.find? fun known => text known.spelling = name

end CommandName

inductive CommandFlag where
  /-- Write command (may modify the key space). -/
  | write
  /-- Read command (will never modify the key space). -/
  | readonly
  /-- May increase memory usage once called. -/
  | denyoom
  | admin
  | pubsub
  | noscript
  | random
  | sortForScript
  | loading
  | stale
  | skipMonitor
  | asking
  | fast
deriving DecidableEq

structure CommandProperties where
  arity : Int
  flags : List CommandFlag
  firstKeyIndex : Int
  lastKeyIndex : Int
  keyStep : Int

namespace CommandProperties

/-- The properties of a name that the source does not know. -/
def unknown : CommandProperties :=
  ⟨0, [], 0, 0, 0⟩

def isReadonly (properties : CommandProperties) : Bool :=
  decide (CommandFlag.readonly ∈ properties.flags)

section Flags

open CommandFlag

private abbrev wm := [write, denyoom]
private abbrev wf := [write, fast]
private abbrev wmf := [write, denyoom, fast]
private abbrev fr := [readonly, fast]
private abbrev ls := [loading, stale]
private abbrev ars := [readonly, admin, noscript]
private abbrev sr := [readonly, sortForScript]

def ofName : CommandName → CommandProperties
  | .get => ⟨2, fr, 1, 1, 1⟩
  | .set => ⟨3, wm, 1, 1, 1⟩
  | .setnx => ⟨3, wmf, 1, 1, 1⟩
  | .setex => ⟨4, wm, 1, 1, 1⟩
  | .psetex => ⟨4, wm, 1, 1, 1⟩
  | .append => ⟨3, wm, 1, 1, 1⟩
  | .strlen => ⟨2, fr, 1, 1, 1⟩
  | .del => ⟨-2, [write], 1, -1, 1⟩
  | .exists' => ⟨-2, fr, 1, -1, 1⟩
  | .setbit => ⟨4, wm, 1, 1, 1⟩
  | .getbit => ⟨3, fr, 1, 1, 1⟩
  | .setrange => ⟨4, wm, 1, 1, 1⟩
  | .getrange => ⟨4, [readonly], 1, 1, 1⟩
  | .substr => ⟨4, [readonly], 1, 1, 1⟩
  | .incr => ⟨2, wmf, 1, 1, 1⟩
  | .decr => ⟨2, wmf, 1, 1, 1⟩
  | .mget => ⟨-2, [readonly], 1, -1, 1⟩
  | .rpush => ⟨-3, wmf, 1, 1, 1⟩
  | .lpush => ⟨-3, wmf, 1, 1, 1⟩
  | .rpushx => ⟨-3, wmf, 1, 1, 1⟩
  | .lpushx => ⟨-3, wmf, 1, 1, 1⟩
  | .linsert => ⟨5, wm, 1, 1, 1⟩
  | .rpop => ⟨2, wf, 1, 1, 1⟩
  | .lpop => ⟨2, wf, 1, 1, 1⟩
  | .rpoplpush => ⟨3, wm, 1, 2, 1⟩
  | .brpop => ⟨-3, [write, noscript], 1, -2, 1⟩
  | .blpop => ⟨-3, [write, noscript], 1, -2, 1⟩
  | .brpoplpush => ⟨4, wm ++ [noscript], 1, 2, 1⟩
  | .llen => ⟨2, fr, 1, 1, 1⟩
  | .lindex => ⟨3, [readonly], 1, 1, 1⟩
  | .lset => ⟨4, wm, 1, 1, 1⟩
  | .lrange => ⟨4, [readonly], 1, 1, 1⟩
  | .ltrim => ⟨4, [readonly], 1, 1, 1⟩
  | .lrem => ⟨4, [readonly], 1, 1, 1⟩
  | .sadd => ⟨-3, wmf, 1, 1, 1⟩
  | .srem => ⟨-3, wf, 1, 1, 1⟩
  | .smove => ⟨4, wf, 1, 2, 1⟩
  | .sismember => ⟨3, fr, 1, 1, 1⟩
  | .scard => ⟨2, fr, 1, 1, 1⟩
  | .spop => ⟨-2, fr ++ [random, noscript], 1, 1, 1⟩
  | .srandmember => ⟨-2, [readonly, random], 1, 1, 1⟩
  | .sinter => ⟨-2, sr, 1, -1, 1⟩
  | .sinterstore => ⟨-3, wm, 1, -1, 1⟩
  | .sunion => ⟨-2, sr, 1, -1, 1⟩
  | .sunionstore => ⟨-3, wm, 1, -1, 1⟩
  | .sdiff => ⟨-2, sr, 1, -1, 1⟩
  | .sdiffstore => ⟨-3, wm, 1, -1, 1⟩
  | .smembers => ⟨2, sr, 1, 1, 1⟩
  | .sscan => ⟨-3, [readonly, random], 1, 1, 1⟩
  | .zadd => ⟨-4, wmf, 1, 1, 1⟩
  | .zincrby => ⟨4, wmf, 1, 1, 1⟩
  | .zrem => ⟨-3, wf, 1, 1, 1⟩
  | .zremrangebyscore => ⟨4, [write], 1, 1, 1⟩
  | .zremrangebyrank => ⟨4, [write], 1, 1, 1⟩
  | .zremrangebylex => ⟨4, [write], 1, 1, 1⟩
  | .zunionstore => ⟨-4, wm, 0, 0, 0⟩
  | .zinterstore => ⟨-4, wm, 0, 0, 0⟩
  | .zrange => ⟨-4, [readonly], 1, 1, 1⟩
  | .zrevrange => ⟨-4, [readonly], 1, 1, 1⟩
  | .zrangebyscore => ⟨-4, [readonly], 1, 1, 1⟩
  | .zrevrangebyscore => ⟨-4, [readonly], 1, 1, 1⟩
  | .zrangebylex => ⟨-4, [readonly], 1, 1, 1⟩
  | .zrevrangebylex => ⟨-4, [readonly], 1, 1, 1⟩
  | .zcount => ⟨4, fr, 1, 1, 1⟩
  | .zlexcount => ⟨4, fr, 1, 1, 1⟩
  | .zcard => ⟨2, fr, 1, 1, 1⟩
  | .zscore => ⟨3, fr, 1, 1, 1⟩
  | .zrank => ⟨3, fr, 1, 1, 1⟩
  | .zrevrank => ⟨3, fr, 1, 1, 1⟩
  | .zscan => ⟨-3, [readonly, random], 1, 1, 1⟩
  | .hset => ⟨4, wmf, 1, 1, 1⟩
  | .hsetnx => ⟨4, wmf, 1, 1, 1⟩
  | .hget => ⟨3, fr, 1, 1, 1⟩
  | .hmset => ⟨-4, wm, 1, 1, 1⟩
  | .hmget => ⟨-3, [readonly], 1, 1, 1⟩
  | .hincrby => ⟨4, wmf, 1, 1, 1⟩
  | .hincrbyfloat => ⟨4, wmf, 1, 1, 1⟩
  | .hdel => ⟨-3, wf, 1, 1, 1⟩
  | .hlen => ⟨2, fr, 1, 1, 1⟩
  | .hstrlen => ⟨3, fr, 1, 1, 1⟩
  | .hkeys => ⟨2, sr, 1, 1, 1⟩
  | .hvals => ⟨2, sr, 1, 1, 1⟩
  | .hgetall => ⟨2, [readonly], 1, 1, 1⟩
  | .hexists => ⟨3, fr, 1, 1, 1⟩
  | .hscan => ⟨-3, [readonly, random], 1, 1, 1⟩
  | .incrby => ⟨3, wmf, 1, 1, 1⟩
  | .decrby => ⟨3, wmf, 1, 1, 1⟩
  | .incrbyfloat => ⟨3, wmf, 1, 1, 1⟩
  | .getset => ⟨3, wm, 1, 1, 1⟩
  | .mset => ⟨-3, wm, 1, -1, 2⟩
  | .msetnx => ⟨-3, wm, 1, -1, 2⟩
  | .randomkey => ⟨1, [readonly, random], 0, 0, 0⟩
  | .select => ⟨2, fr ++ [loading], 0, 0, 0⟩
  | .move => ⟨3, wf, 1, 1, 1⟩
  | .rename => ⟨3, [write], 1, 2, 1⟩
  | .renamenx => ⟨3, wf, 1, 2, 1⟩
  | .expire => ⟨3, wf, 1, 1, 1⟩
  | .expireat => ⟨3, wf, 1, 1, 1⟩
  | .pexpire => ⟨3, wf, 1, 1, 1⟩
  | .pexpireat => ⟨3, wf, 1, 1, 1⟩
  | .keys => ⟨2, sr, 0, 0, 0⟩
  | .scan => ⟨-2, [readonly, random], 0, 0, 0⟩
  | .dbsize => ⟨1, fr, 0, 0, 0⟩
  | .auth => ⟨2, fr ++ [noscript] ++ ls, 0, 0, 0⟩
  | .ping => ⟨-1, fr ++ [stale], 0, 0, 0⟩
  | .echo => ⟨2, fr, 0, 0, 0⟩
  | .save => ⟨1, ars, 0, 0, 0⟩
  | .bgsave => ⟨1, [readonly, admin], 0, 0, 0⟩
  | .bgrewriteaof => ⟨1, [readonly, admin], 0, 0, 0⟩
  | .shutdown => ⟨-1, [readonly, admin] ++ ls, 0, 0, 0⟩
  | .lastsave => ⟨1, fr ++ [random], 0, 0, 0⟩
  | .type => ⟨2, fr, 1, 1, 1⟩
  | .multi => ⟨1, fr ++ [noscript], 0, 0, 0⟩
  | .exec => ⟨1, [noscript, skipMonitor], 0, 0, 0⟩
  | .discard => ⟨1, fr ++ [noscript], 0, 0, 0⟩
  | .sync => ⟨1, ars, 0, 0, 0⟩
  | .psync => ⟨3, ars, 0, 0, 0⟩
  | .replconf => ⟨-1, ars ++ ls, 0, 0, 0⟩
  | .flushdb => ⟨1, [write], 0, 0, 0⟩
  | .flushall => ⟨1, [write], 0, 0, 0⟩
  | .sort => ⟨-2, wm, 1, 1, 1⟩
  | .info => ⟨-1, [readonly] ++ ls, 0, 0, 0⟩
  | .monitor => ⟨1, ars, 0, 0, 0⟩
  | .ttl => ⟨2, fr, 1, 1, 1⟩
  | .pttl => ⟨2, fr, 1, 1, 1⟩
  | .persist => ⟨2, wf, 1, 1, 1⟩
  | .slaveof => ⟨3, [admin, noscript, stale], 0, 0, 0⟩
  | .role => ⟨1, [stale, loading, noscript], 0, 0, 0⟩
  | .debug => ⟨-2, [admin, noscript], 0, 0, 0⟩
  | .config => ⟨-2, [admin, readonly, stale], 0, 0, 0⟩
  | .subscribe => ⟨-2, [readonly, pubsub, noscript, loading, stale], 0, 0, 0⟩
  | .unsubscribe =>
      ⟨-1, [readonly, pubsub, noscript, loading, stale], 0, 0, 0⟩
  | .psubscribe => ⟨-2, [readonly, pubsub, noscript, loading, stale], 0, 0, 0⟩
  | .punsubscribe =>
      ⟨-1, [readonly, pubsub, noscript, loading, stale], 0, 0, 0⟩
  | .publish => ⟨-1, [readonly, pubsub, loading, stale, fast], 0, 0, 0⟩
  | .pubsub => ⟨-1, [readonly, pubsub, loading, stale, random], 0, 0, 0⟩
  | .watch => ⟨-2, fr ++ [noscript], 1, -1, 1⟩
  | .unwatch => ⟨1, fr ++ [noscript], 0, 0, 0⟩
  | .cluster => ⟨-2, [admin, readonly], 0, 0, 0⟩
  | .restore => ⟨-4, wm, 1, 1, 1⟩
  | .restoreAsking => ⟨-4, wm ++ [asking], 1, 1, 1⟩
  | .migrate => ⟨-6, [write], 0, 0, 0⟩
  | .asking => ⟨1, [readonly], 0, 0, 0⟩
  | .readonly => ⟨1, fr, 0, 0, 0⟩
  | .readwrite => ⟨1, fr, 0, 0, 0⟩
  | .dump => ⟨2, [readonly], 1, 1, 1⟩
  | .object => ⟨3, [readonly], 2, 2, 2⟩
  | .client => ⟨-2, [readonly, noscript], 0, 0, 0⟩
  | .eval => ⟨-3, [noscript], 0, 0, 0⟩
  | .evalsha => ⟨-3, [noscript], 0, 0, 0⟩
  | .slowlog => ⟨-2, [readonly], 0, 0, 0⟩
  | .script => ⟨-2, [readonly, noscript], 0, 0, 0⟩
  | .time => ⟨1, [readonly, random, fast], 0, 0, 0⟩
  | .bitop => ⟨-4, wm, 2, -1, 1⟩
  | .bitcount => ⟨-2, [readonly], 1, 1, 1⟩
  | .bitpos => ⟨-3, [readonly], 1, 1, 1⟩
  | .wait => ⟨3, [readonly, noscript], 0, 0, 0⟩
  | .command => ⟨0, [readonly, loading, stale], 0, 0, 0⟩
  | .geoadd => ⟨-5, wm, 1, 1, 1⟩
  | .georadius => ⟨-6, [readonly], 1, 1, 1⟩
  | .georadiusbymember => ⟨-5, [readonly], 1, 1, 1⟩
  | .geohash => ⟨-2, [readonly], 1, 1, 1⟩
  | .geopos => ⟨-2, [readonly], 1, 1, 1⟩
  | .geodist => ⟨-4, [readonly], 1, 1, 1⟩
  | .pfselftest => ⟨1, [readonly], 1, 1, 1⟩
  | .pfadd => ⟨-2, wmf, 1, 1, 1⟩
  | .pfcount => ⟨-2, [readonly], 1, -1, 1⟩
  | .pfmerge => ⟨-2, wm, 1, -1, 1⟩
  | .bfReserve => ⟨4, wmf, 1, 1, 1⟩
  | .bfAdd => ⟨3, wmf, 1, 1, 1⟩
  | .bfMadd => ⟨-3, wmf, 1, 1, 1⟩
  | .bfExists => ⟨3, fr, 1, 1, 1⟩
  | .bfMexists => ⟨-3, fr, 1, 1, 1⟩
  | .pfdebug => ⟨-3, [write], 0, 0, 0⟩
  | .latency => ⟨-2, ars ++ ls, 0, 0, 0⟩

end Flags

end CommandProperties

/-- `command_properties`, by the text of the name. -/
def commandProperties (name : Bytes) : CommandProperties :=
  match CommandName.ofBytes name with
  | some known => .ofName known
  | none => .unknown

end RedVector
