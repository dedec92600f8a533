import RedVector.Parser.Request

/-!
# The append only file
-/

namespace RedVector

open Util

/-- An open file with its cursor, and the database that its last SELECT
selects. -/
structure Aof where
  contents : Bytes
  offset : Nat
  dbindex : Nat
  /-- The commands written so far; no code reads them. -/
  written : List (Nat × ParsedCommand)

namespace Aof

/-- `Aof::new` on a file with the given contents. -/
def new (contents : Bytes) : Aof :=
  { contents := contents, offset := 0, dbindex := usizeMax, written := [] }

/-- Writes at the cursor and moves it behind what was written. -/
def writeAll (aof : Aof) (bytes : Bytes) : Aof :=
  let before := aof.contents.take aof.offset ++
    List.replicate (aof.offset - aof.contents.length) 0
  { aof with
    contents :=
      before ++ bytes ++ aof.contents.drop (aof.offset + bytes.length)
    offset := aof.offset + bytes.length }

/-- The SELECT command for a database. -/
def selectCommand (dbindex : Nat) : Bytes :=
  let n := natToString dbindex
  text "*2\r\n$6\r\nSELECT\r\n$" ++ natToString n.length ++ text "\r\n" ++
    n ++ text "\r\n"

def select (aof : Aof) (dbindex : Nat) : Aof :=
  if aof.dbindex ≠ dbindex then
    { aof.writeAll (selectCommand dbindex) with dbindex := dbindex }
  else aof

/-- Cuts the file to a length and moves the cursor there. -/
def truncate (aof : Aof) (pos : Nat) : Aof :=
  { aof with
    contents := aof.contents.take pos ++
      List.replicate (pos - aof.contents.length) 0
    offset := pos }

def write (aof : Aof) (dbindex : Nat) (command : ParsedCommand) : Aof :=
  { (aof.select dbindex).writeAll command.data with
    written := aof.written ++ [(dbindex, command)] }

end Aof

end RedVector
