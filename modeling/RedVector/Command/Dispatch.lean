import RedVector.Command.Client
import RedVector.Command.Hashes
import RedVector.Command.SortedSets

/-!
# Handlers

What executes each command, with the part of the state that it works on.
-/

namespace RedVector

variable [Platform]

inductive Handler where
  /-- Only reads the database. -/
  | reader (handle : Arguments → Nat → Reader Response)
  | writer (handle : Arguments → Nat → Writer Response)
  /-- May have to wait for a key. -/
  | blocking (handle : Arguments → Nat → Writer Answer)
  /-- Does not touch the keys; the number is the client's. -/
  | server
      (handle : Env → Arguments → Nat → Database →
        Option (Response × Database))
  /-- Works on the client. -/
  | session
      (handle : Env → Arguments → Database → Client →
        Option Command.Session)

open Command in
/-- The handler of a command.  The commands that are executed earlier and
those that the source does not implement have none. -/
def Handler.ofName : CommandName → Option Handler
  | .pexpireat => some (.writer pexpireat)
  | .pexpire => some (.writer pexpire)
  | .expireat => some (.writer expireat)
  | .expire => some (.writer expire)
  | .echo => some <| .server fun _ argv _ db => some (echo argv, db)
  | .ttl => some (.reader ttl)
  | .pttl => some (.reader pttl)
  | .time => some <| .server fun env _ _ db => some (time env, db)
  | .persist => some (.writer persist)
  | .type => some (.reader dbtype)
  | .role => some <| .server fun _ _ _ db => some (role, db)
  | .slaveof => some <| .server fun _ argv _ db => some (slaveof argv, db)
  | .object => some (.reader object)
  | .bitop => some (.writer bitop)
  | .bitcount => some (.reader bitcount)
  | .bitpos => some (.reader bitpos)
  | .set => some (.writer set)
  | .setnx => some (.writer setnx)
  | .setex => some (.writer setex)
  | .psetex => some (.writer psetex)
  | .debug => some (.reader debug)
  | .del => some (.writer del)
  | .dbsize => some (.reader dbsize)
  | .append => some (.writer append)
  | .get => some (.reader get)
  | .getrange => some (.reader getrange)
  | .mget => some (.reader mget)
  | .substr => some (.reader getrange)
  | .setrange => some (.writer setrange)
  | .setbit => some (.writer setbit)
  | .getbit => some (.reader getbit)
  | .strlen => some (.reader strlen)
  | .incr => some (.writer incr)
  | .decr => some (.writer decr)
  | .incrby => some (.writer incrby)
  | .decrby => some (.writer decrby)
  | .incrbyfloat => some (.writer incrbyfloat)
  | .pfadd => some (.writer pfadd)
  | .pfcount => some (.reader pfcount)
  | .pfmerge => some (.writer pfmerge)
  | .bfReserve => some (.writer bfReserve)
  | .bfAdd => some (.writer bfAdd)
  | .bfMadd => some (.writer bfMadd)
  | .bfExists => some (.reader bfExists)
  | .bfMexists => some (.reader bfMexists)
  | .pfselftest => some (.reader pfselftest)
  | .pfdebug => some (.reader pfdebug)
  | .exists' => some (.reader exists')
  | .ping => some <| .session fun _ argv db client =>
      some (.ok (ping argv client), db, client)
  | .client => some <| .session fun _ argv db client =>
      some (.ok (clientCmd argv client), db, client)
  | .flushdb => some (.writer flushdb)
  | .flushall => some (.writer flushall)
  | .sort => some (.writer sort)
  | .lpush => some (.writer lpush)
  | .rpush => some (.writer rpush)
  | .lpushx => some (.writer lpushx)
  | .rpushx => some (.writer rpushx)
  | .lpop => some (.writer lpop)
  | .rpop => some (.writer rpop)
  | .lindex => some (.reader lindex)
  | .linsert => some (.writer linsert)
  | .llen => some (.reader llen)
  | .lrange => some (.reader lrange)
  | .lrem => some (.writer lrem)
  | .lset => some (.writer lset)
  | .ltrim => some (.writer ltrim)
  | .rpoplpush => some (.writer rpoplpush)
  | .brpoplpush => some (.blocking brpoplpush)
  | .brpop => some (.blocking brpop)
  | .blpop => some (.blocking blpop)
  | .sadd => some (.writer sadd)
  | .srem => some (.writer srem)
  | .sismember => some (.reader sismember)
  | .smembers => some (.reader smembers)
  | .srandmember => some (.reader srandmember)
  | .spop => some (.writer spop)
  | .smove => some (.writer smove)
  | .scard => some (.reader scard)
  | .sdiff => some (.reader sdiff)
  | .sdiffstore => some (.writer sdiffstore)
  | .sinter => some (.reader sinter)
  | .sinterstore => some (.writer sinterstore)
  | .sunion => some (.reader sunion)
  | .sunionstore => some (.writer sunionstore)
  | .zadd => some (.writer zadd)
  | .zcard => some (.reader zcard)
  | .zscore => some (.reader zscore)
  | .zincrby => some (.writer zincrby)
  | .zrem => some (.writer zrem)
  | .zremrangebylex => some (.writer zremrangebylex)
  | .zremrangebyscore => some (.writer zremrangebyscore)
  | .zremrangebyrank => some (.writer zremrangebyrank)
  | .zcount => some (.reader zcount)
  | .zlexcount => some (.reader zlexcount)
  | .zrange => some (.reader zrange)
  | .zrevrange => some (.reader zrevrange)
  | .zrangebyscore => some (.reader zrangebyscore)
  | .zrevrangebyscore => some (.reader zrevrangebyscore)
  | .zrangebylex => some (.reader zrangebylex)
  | .zrevrangebylex => some (.reader zrevrangebylex)
  | .zrank => some (.reader zrank)
  | .zrevrank => some (.reader zrevrank)
  | .zunionstore => some (.writer zunionstore)
  | .zinterstore => some (.writer zinterstore)
  | .hset => some (.writer hset)
  | .hsetnx => some (.writer hsetnx)
  | .hget => some (.reader hget)
  | .hmset => some (.writer hmset)
  | .hmget => some (.reader hmget)
  | .hdel => some (.writer hdel)
  | .hlen => some (.reader hlen)
  | .hstrlen => some (.reader hstrlen)
  | .hkeys => some (.reader hkeys)
  | .hvals => some (.reader hvals)
  | .hgetall => some (.reader hgetall)
  | .hexists => some (.reader hexists)
  | .hincrby => some (.writer hincrby)
  | .hincrbyfloat => some (.writer hincrbyfloat)
  | .hscan => some (.reader hscan)
  | .getset => some (.writer getset)
  | .mset => some (.writer mset)
  | .msetnx => some (.writer msetnx)
  | .randomkey => some (.reader randomkey)
  | .move => some (.writer moveKey)
  | .rename => some (.writer rename)
  | .renamenx => some (.writer renamenx)
  | .dump => some (.reader dump)
  | .restore => some (.reader restore)
  | .keys => some (.reader keys)
  | .scan => some (.reader scan)
  | .sscan => some (.reader sscan)
  | .zscan => some (.reader zscan)
  | .watch => some <| .session fun _ argv db client => watch argv db client
  | .unwatch => some <| .session fun _ argv db client =>
      some (unwatch argv db client)
  | .subscribe => some <| .session fun env argv db client =>
      some (subscribe env argv db client)
  | .unsubscribe => some <| .session fun env argv db client =>
      some (unsubscribe env argv db client)
  | .psubscribe => some <| .session fun env argv db client =>
      some (psubscribe env argv db client)
  | .punsubscribe => some <| .session fun env argv db client =>
      some (punsubscribe env argv db client)
  | .publish => some <| .server fun env argv _ db => publish env argv db
  | .pubsub => some <| .server fun env argv _ db =>
      (pubsub env argv db).map fun reply => (reply, db)
  | .monitor => some <| .server fun _ argv client db =>
      some (monitor argv client db)
  | .info => some <| .server fun env argv _ db => some (info env argv, db)
  | .save => some <| .server fun env argv _ db => some (save env argv db)
  | .bgsave => some <| .server fun _ argv _ db => some (bgsave argv, db)
  | .bgrewriteaof => some <| .server fun _ argv _ db =>
      some (bgrewriteaof argv, db)
  | .shutdown => some <| .server fun _ argv _ db => some (shutdown argv, db)
  | .lastsave => some <| .server fun _ argv _ db =>
      some (lastsave argv db, db)
  | .config => some <| .server fun _ argv _ db => some (config argv db)
  | .command => some <| .server fun _ argv _ db => some (commandCmd argv, db)
  | .wait => some <| .server fun _ argv _ db => some (waitCmd argv, db)
  | .slowlog => some <| .server fun _ argv _ db => some (slowlog argv db)
  | _ => none

end RedVector
