import RedVector.Command.Server

/-!
# Clients

The state of a client that lasts longer than a command, and the commands that
work on it.
-/

namespace RedVector

open Util

/-- Client state that exceeds the lifetime of a command.  What the client
receives is sent under its number. -/
structure Client where
  dbindex : Nat
  auth : Bool
  subscriptions : HashMap Bytes Nat
  patternSubscriptions : HashMap Bytes Nat
  multi : Bool
  multiCommands : List ParsedCommand
  watchedKeys : Finset (Nat × Bytes)
  id : Nat

namespace Client

def new (id : Nat) : Client :=
  { dbindex := 0
    auth := false
    subscriptions := ∅
    patternSubscriptions := ∅
    multi := false
    multiCommands := []
    watchedKeys := ∅
    id := id }

end Client

variable [Platform]

namespace Database

/-- Sends a response to a client, which succeeds if it still receives. -/
def send (env : Env) (db : Database) (client : Nat) (response : Response) :
    Bool × Database :=
  if env.receives client then
    (true, { db with sent := db.sent ++ [.response client response] })
  else (false, db)

end Database

namespace Command

def ping (argv : Arguments) (client : Client) : Response :=
  if 2 < argv.length then wrongNumberOfArguments argv
  else if client.subscriptions.keys.card ≠ 0 then
    .array [.data (text "pong"), .data (argv.getD 1 [])]
  else
    match argv[1]? with
    | some r => .data r
    | none => .status (text "PONG")

/-- The line of CLIENT LIST about a client. -/
def clientInfo (client : Client) : Bytes :=
  text "id=" ++ natToString client.id ++
    text " addr=127.0.0.1:* fd=-1 age=0 idle=0 flags=N db=" ++
    natToString client.dbindex ++ text " sub=" ++
    natToString client.subscriptions.keys.card ++ text " psub=" ++
    natToString client.patternSubscriptions.keys.card ++ text " multi=" ++
    (if client.multi then text "1" else text "-1") ++
    text " qbuf=0 qbuf-free=0 obl=0 oll=0 omem=0 events=r cmd=client"

def clientCmd (argv : Arguments) (client : Client) : Response :=
  replyOf do
    validateArgumentsGte argv 2
    let subcommand ← tryValidate (argv.getStr 1) "Invalid subcommand"
    let subcommand := lowercase subcommand
    if subcommand = text "list" then pure (.data (clientInfo client))
    else if subcommand = text "getname" then pure .nil
    else if subcommand = text "setname" then do
      validateArgumentsExact argv 3
      let _ ← tryValidate (argv.getStr 2) "Invalid name"
      pure .ok
    else if subcommand = text "kill" then
      pure (.fail "ERR CLIENT KILL is not implemented")
    else if subcommand = text "pause" then
      pure (.fail "ERR CLIENT PAUSE is not implemented")
    else if subcommand = text "reply" then
      pure (.fail "ERR CLIENT REPLY is not implemented")
    else
      pure (.fail
        ("ERR Unknown subcommand or wrong number of arguments for "
          ++ "'client' command"))

/-! ## Subscriptions -/

/-- A subscription event: its name, the channel and how many subscriptions
the client has. -/
def subscriptionEvent (name : String) (channel : Bytes) (count : Nat) :
    Response :=
  .array [.data (text name), .data channel, .integer count]

/-- A database and the client that works on it. -/
abbrev Place := Database × Client

/-- Subscribes to a channel, unless the client already does. -/
def subscribeTo (env : Env) (place : Place) (channel : Bytes) : Place :=
  let (db, client) := place
  let registered :=
    if channel ∈ client.subscriptions then (db, client.subscriptions)
    else
      let fresh := db.subscribe channel client.id
      (fresh.2, client.subscriptions.insert channel fresh.1)
  let sent := registered.1.send env client.id
    (subscriptionEvent "subscribe" channel
      (client.patternSubscriptions.keys.card + registered.2.keys.card))
  (sent.2,
    { client with
      subscriptions :=
        if sent.1 then registered.2 else registered.2.erase channel })

def psubscribeTo (env : Env) (place : Place) (pattern : Bytes) : Place :=
  let (db, client) := place
  let fresh := db.psubscribe pattern client.id
  let subscriptions := client.patternSubscriptions.insert pattern fresh.1
  let sent := fresh.2.send env client.id
    (subscriptionEvent "psubscribe" pattern
      (client.subscriptions.keys.card + subscriptions.keys.card))
  (sent.2,
    { client with
      patternSubscriptions :=
        if sent.1 then subscriptions else subscriptions.erase pattern })

/-- Unsubscribes from a channel.  `count` is the number that the event shows,
given the subscriptions that are left. -/
def unsubscribeFrom (env : Env) (count : HashMap Bytes Nat → Nat)
    (place : Place) (channel : Bytes) : Place :=
  let (db, client) := place
  let db :=
    match client.subscriptions.lookup channel with
    | some subscriberId => (db.unsubscribe channel subscriberId).2
    | none => db
  let subscriptions := client.subscriptions.erase channel
  let event := subscriptionEvent "unsubscribe" channel (count subscriptions)
  ((db.send env client.id event).2,
    { client with subscriptions := subscriptions })

def punsubscribeFrom (env : Env) (count : HashMap Bytes Nat → Nat)
    (place : Place) (pattern : Bytes) : Place :=
  let (db, client) := place
  let db :=
    match client.patternSubscriptions.lookup pattern with
    | some subscriberId => (db.punsubscribe pattern subscriberId).2
    | none => db
  let subscriptions := client.patternSubscriptions.erase pattern
  let event := subscriptionEvent "punsubscribe" pattern (count subscriptions)
  ((db.send env client.id event).2,
    { client with patternSubscriptions := subscriptions })

/-- What a session command answers, and the states after it. -/
abbrev Session := Answer × Place

/-- A command whose replies are the events that it sent. -/
def noReply (after : Place) : Session :=
  (.error .noReply, after)

def subscribe (env : Env) (argv : Arguments) (db : Database)
    (client : Client) : Session :=
  if 2 ≤ argv.length then noReply (argv.tail.foldl (subscribeTo env) (db, client))
  else (.ok (.fail "Wrong number of parameters"), db, client)

def psubscribe (env : Env) (argv : Arguments) (db : Database)
    (client : Client) : Session :=
  if 2 ≤ argv.length then noReply (argv.tail.foldl (psubscribeTo env) (db, client))
  else (.ok (.fail "Wrong number of parameters"), db, client)

def unsubscribe (env : Env) (argv : Arguments) (db : Database)
    (client : Client) : Session :=
  let patterns := client.patternSubscriptions.keys.card
  if argv.length = 1 then
    if client.subscriptions.keys.card = 0 then
      noReply ((db.send env client.id
        (subscriptionEvent "unsubscribe" [] patterns)).2, client)
    else
      noReply ((env.order client.subscriptions.keys).foldl
        (unsubscribeFrom env fun _ => patterns) (db, client))
  else
    noReply (argv.tail.foldl
      (unsubscribeFrom env fun left => patterns + left.keys.card)
      (db, client))

def punsubscribe (env : Env) (argv : Arguments) (db : Database)
    (client : Client) : Session :=
  let channels := client.subscriptions.keys.card
  if argv.length = 1 then
    if client.patternSubscriptions.keys.card = 0 then
      noReply ((db.send env client.id
        (subscriptionEvent "punsubscribe" [] channels)).2, client)
    else
      noReply ((env.order client.patternSubscriptions.keys).foldl
        (punsubscribeFrom env fun _ => channels) (db, client))
  else
    noReply (argv.tail.foldl
      (punsubscribeFrom env fun left => channels + left.keys.card)
      (db, client))

/-! ## Transactions -/

/-- Watches a key of the database of the client. -/
def watchKey (place : Place) (key : Bytes) : Place :=
  let (db, client) := place
  (db.keyWatch client.dbindex key client.id,
    { client with
      watchedKeys := insert (client.dbindex, key) client.watchedKeys })

def watch (argv : Arguments) (db : Database) (client : Client) :
    Option Session :=
  if 2 ≤ argv.length then
    db.checked client.dbindex
      (some (.ok .ok, argv.tail.foldl watchKey (db, client)))
  else some (.ok (.fail "Wrong number of parameters"), db, client)

/-- Whether every key that the client watches is as it was, and the client
without watched keys. -/
def genericUnwatch (db : Database) (client : Client) : Bool × Client :=
  (decide (∀ entry ∈ client.watchedKeys,
      db.keyWatchVerify entry.1 entry.2 client.id = true),
    { client with watchedKeys := ∅ })

def unwatch (argv : Arguments) (db : Database) (client : Client) : Session :=
  if argv.length = 1 then (.ok .ok, db, (genericUnwatch db client).2)
  else (.ok (.fail "Wrong number of parameters"), db, client)

def multi (client : Client) : Response × Client :=
  if client.multi then
    (.fail "ERR MULTI calls can not be nested", client)
  else (.ok, { client with multi := true })

def discard (db : Database) (client : Client) : Response × Client :=
  if client.multi then
    let cleared := { client with multi := false, multiCommands := [] }
    (.ok, (genericUnwatch db cleared).2)
  else (.fail "ERR DISCARD without MULTI", client)

end Command

end RedVector
