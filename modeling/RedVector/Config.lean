import RedVector.Value.Hash

/-!
# Configuration

The settings that commands read or write.
-/

namespace RedVector

structure Config where
  databases : Nat := 16
  dir : Bytes := text "./"
  port : Nat := 6379
  activeRehashing : Bool := true
  setMaxIntsetEntries : Nat := 512
  /-- A renamed command, or `none` for a disabled one. -/
  renameCommands : HashMap Bytes (Option Bytes) := ∅
  requirepass : Option Bytes := none
  hz : Nat := 10
  appendonly : Bool := false
  appendfilename : Bytes := text "appendonly.aof"
  aofLoadTruncated : Bool := false
  dbfilename : Bytes := text "dump.rdb"
  maxmemory : Option Nat := none
  maxmemoryPolicy : Bytes := text "noeviction"
  appendfsync : Bytes := text "everysec"
  stopWritesOnBgsaveError : Bool := true
  rdbcompression : Bool := true
  rdbchecksum : Bool := true
  maxclients : Nat := 10000
  maxmemorySamples : Nat := 5
  noAppendfsyncOnRewrite : Bool := false
  autoAofRewritePercentage : Int := 100
  autoAofRewriteMinSize : Nat := 67108864
  slowlogLogSlowerThan : Int := 10000
  slowlogMaxLen : Nat := 128
  latencyMonitorThreshold : Int := 0
  hashMaxZiplistEntries : Nat := 512
  hashMaxZiplistValue : Nat := 64
  listMaxZiplistEntries : Nat := 512
  listMaxZiplistValue : Nat := 64
  zsetMaxZiplistEntries : Nat := 128
  zsetMaxZiplistValue : Nat := 64
  notifyKeyspaceEvents : Bytes := []

end RedVector
