import Hala.LevelDb.Api

/-! The leveldb wrapper (`crates/leveldb/src/lib.rs`).

A call takes the errors that its calls of the C API report, in their order. A database is passed on from call to call;
an `Item` shares its iterator, which is passed to it where it is read. -/

namespace Hala.LevelDb
open Io

structure IoError where
  kind : ErrorKind
  message : String
  deriving DecidableEq, Repr

abbrev IoResult := Except IoError

class KeyValue (K : Type) where
  toBytes : K → IoResult Bytes

class KeyValueReturn (V : Type) where
  fromBytes : Bytes → IoResult V

/-- `Vec<u8>` and `&[u8]`. -/
instance : KeyValue Bytes := ⟨.ok⟩

instance : KeyValueReturn Bytes := ⟨.ok⟩

def toIoError (error : String) : IoError := ⟨.other, "leveldb: " ++ error⟩

structure Snapshot (api : Api) where
  cSnapshot : api.Snapshot

structure ReadOps (api : Api) where
  cOps : ReadOptions api.Snapshot
  snapshot : Option (Snapshot api)

namespace ReadOps
variable {api : Api}

def new : ReadOps api := { cOps := {}, snapshot := none }

/-- The snapshot is kept beside the options of the C API, which are the default ones. -/
def newWith (snapshot : Snapshot api) : ReadOps api := { cOps := {}, snapshot := some snapshot }

end ReadOps

structure WriteOps where
  cOps : WriteOptions
  deriving DecidableEq, Repr

namespace WriteOps

def new : WriteOps := ⟨{}⟩

def sync (ops : WriteOps) (flag : Bool) : WriteOps := ⟨{ ops.cOps with sync := flag }⟩

end WriteOps

structure Database (api : Api) where
  cDb : api.Db

/-- The entries of a batch, in the order in which they were added. -/
structure WriteBatch where
  entries : List BatchEntry := []
  deriving DecidableEq, Repr

structure KeyValueIterator (api : Api) where
  raw : api.Iter
  seek : Bool

/-- A second owner of the iterator that yields it. -/
structure Item
  deriving DecidableEq, Repr

section Wrapper
variable {api : Api} {K V : Type}

/-- The result behind a call of the C API, by its `errptr`. -/
def checked {α : Type} (fault : Option String) (result : IoResult α) : IoResult α :=
  match fault with
  | some error => .error (toIoError error)
  | none => result

namespace WriteBatch

def put [KeyValue K] [KeyValue V] (batch : WriteBatch) (key : K) (value : V) : IoResult Unit × WriteBatch :=
  match KeyValue.toBytes key with
  | .error e => (.error e, batch)
  | .ok key =>
    match KeyValue.toBytes value with
    | .error e => (.error e, batch)
    | .ok value => (.ok (), ⟨batch.entries ++ [.put key value]⟩)

def delete [KeyValue K] (batch : WriteBatch) (key : K) : IoResult Unit × WriteBatch :=
  match KeyValue.toBytes key with
  | .error e => (.error e, batch)
  | .ok key => (.ok (), ⟨batch.entries ++ [.delete key]⟩)

def commit (batch : WriteBatch) (db : Database api) (ops : Option WriteOps) (fault : Option String) :
    IoResult Unit × Database api :=
  let ops := ops.getD .new
  (checked fault (.ok ()), ⟨api.write fault db.cDb ops.cOps batch.entries⟩)

end WriteBatch

namespace Database

def snapshot (db : Database api) : Snapshot api := ⟨api.createSnapshot db.cDb⟩

def put [KeyValue K] [KeyValue V] (db : Database api) (key : K) (value : V) (ops : Option WriteOps) (fault : Option String) :
    IoResult Unit × Database api :=
  let ops := ops.getD .new
  match KeyValue.toBytes key with
  | .error e => (.error e, db)
  | .ok key =>
    match KeyValue.toBytes value with
    | .error e => (.error e, db)
    | .ok value => (checked fault (.ok ()), ⟨api.put fault db.cDb ops.cOps key value⟩)

/-- The null pointer of a key that is not there comes with a length of 0. -/
def get [KeyValue K] [KeyValueReturn V] (db : Database api) (key : K) (ops : Option (ReadOps api)) (fault : Option String) :
    IoResult V := do
  let ops := ops.getD .new
  let key ← KeyValue.toBytes key
  checked fault (KeyValueReturn.fromBytes ((api.get db.cDb ops.cOps key).getD []))

/-- Only a value of at least one byte is deleted. -/
def delete [KeyValue K] (db : Database api) (key : K) (ops : Option WriteOps) (readFault fault : Option String) :
    IoResult Bool × Database api :=
  let ops := ops.getD .new
  match KeyValue.toBytes key with
  | .error e => (.error e, db)
  | .ok key =>
    match readFault with
    | some error => (.error (toIoError error), db)
    | none =>
      let readOps : ReadOps api := .new
      if 0 < ((api.get db.cDb readOps.cOps key).getD []).length then
        (checked fault (.ok true), ⟨api.delete fault db.cDb ops.cOps key⟩)
      else (.ok false, db)

def iter (db : Database api) (ops : Option (ReadOps api)) : KeyValueIterator api :=
  let ops := ops.getD .new
  ⟨api.createIterator db.cDb ops.cOps, false⟩

end Database

namespace KeyValueIterator

def seekKey [KeyValue K] (it : KeyValueIterator api) (key : K) : IoResult (KeyValueIterator api) := do
  let key ← KeyValue.toBytes key
  return ⟨api.iterSeek it.raw key, true⟩

/-- What `next` does before it looks whether there is an entry. -/
def advance (it : KeyValueIterator api) : KeyValueIterator api :=
  if api.iterValid it.raw = false then { it with raw := api.iterSeekToFirst it.raw }
  else if it.seek then { it with seek := false }
  else { it with raw := api.iterNext it.raw }

def next (it : KeyValueIterator api) : Option Item × KeyValueIterator api :=
  let it := it.advance
  if api.iterValid it.raw = false then (none, it) else (some {}, it)

end KeyValueIterator

namespace Item

def key [KeyValueReturn K] (_ : Item) (it : KeyValueIterator api) : IoResult K := KeyValueReturn.fromBytes (api.iterKey it.raw)

def value [KeyValueReturn V] (_ : Item) (it : KeyValueIterator api) : IoResult V := KeyValueReturn.fromBytes (api.iterValue it.raw)

end Item

end Wrapper

/-! ## Runs -/

/-- A write with the bytes of its keys and values, and the errors its calls report. -/
inductive Write where
  | put (key value : Bytes) (ops : Option WriteOps) (fault : Option String)
  | delete (key : Bytes) (ops : Option WriteOps) (readFault fault : Option String)
  | commit (batch : WriteBatch) (ops : Option WriteOps) (fault : Option String)
  deriving DecidableEq, Repr

/-- A call made of an iterator. -/
inductive IterCall (Q : Type) where
  | seek (key : Q)
  | next
  deriving DecidableEq, Repr

section Runs
variable {api : Api}

def Database.perform (db : Database api) : Write → Database api
  | .put key value ops fault => (db.put key value ops fault).2
  | .delete key ops readFault fault => (db.delete key ops readFault fault).2
  | .commit batch ops fault => (batch.commit db ops fault).2

def Database.performAll (db : Database api) (writes : List Write) : Database api := writes.foldl perform db

/-- What an iteration reads: the key and the value of each item that `next` yields, right behind the call. A key that has
    no bytes ends it. -/
def KeyValueIterator.walk {Q K V : Type} [KeyValue Q] [KeyValueReturn K] [KeyValueReturn V] :
    KeyValueIterator api → List (IterCall Q) → List (Option (IoResult K × IoResult V))
  | _, [] => []
  | it, .seek key :: calls =>
    match it.seekKey key with
    | .error _ => []
    | .ok it => walk it calls
  | it, .next :: calls => (it.next.1.map fun item => (item.key it.next.2, item.value it.next.2)) :: walk it.next.2 calls

/-- The entries of an iteration to its first `None`, read as they are yielded, if at most `calls` calls reach it. -/
def KeyValueIterator.drain : Nat → KeyValueIterator api → Option (List (IoResult Bytes × IoResult Bytes))
  | 0, _ => none
  | calls + 1, it =>
    match it.next with
    | (none, _) => some []
    | (some item, it) => (drain calls it).map ((item.key it, item.value it) :: ·)

/-- The iterator after `m` calls of `next`. -/
def KeyValueIterator.nexts : Nat → KeyValueIterator api → KeyValueIterator api
  | 0, it => it
  | m + 1, it => nexts m it.next.2

/-- The iterator after some calls, if every key that was sought has bytes. -/
def KeyValueIterator.after {Q : Type} [KeyValue Q] : KeyValueIterator api → List (IterCall Q) → IoResult (KeyValueIterator api)
  | it, [] => .ok it
  | it, .seek key :: calls => do
    let it ← it.seekKey key
    after it calls
  | it, .next :: calls => after it.next.2 calls

end Runs

end Hala.LevelDb
