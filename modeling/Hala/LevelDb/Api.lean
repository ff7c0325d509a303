import Mathlib.Tactic.Common
import Hala.Io.ReadBuf

/-! The leveldb C API as `crates/leveldb` uses it.

What the functions return is a parameter; what leveldb documents of them is said over the content of a database. A read
sees the snapshot of its read options, and without one the latest content. An error that a call reports through its
`errptr` comes from the storage: it is an argument of the writes, which promise nothing when there is one. -/

namespace Hala.LevelDb

/-- The keys of a database, in bytewise order, and their values. -/
abbrev Content := Std.ExtTreeMap Bytes Bytes

/-- `leveldb_readoptions_t`; `leveldb_readoptions_create` sets no snapshot. -/
structure ReadOptions (Snapshot : Type) where
  snapshot : Option Snapshot := none

/-- `leveldb_writeoptions_t`. -/
structure WriteOptions where
  sync : Bool := false
  deriving DecidableEq, Repr

/-- An entry of a `leveldb_writebatch_t`. -/
inductive BatchEntry where
  | put (key value : Bytes)
  | delete (key : Bytes)
  deriving DecidableEq, Repr

def BatchEntry.apply (content : Content) : BatchEntry → Content
  | .put key value => content.insert key value
  | .delete key => content.erase key

/-- The functions of the C API. -/
structure CFunctions where
  Db : Type
  Snapshot : Type
  Iter : Type
  createSnapshot : Db → Snapshot
  /-- No bytes for the null pointer. -/
  get : Db → ReadOptions Snapshot → Bytes → Option Bytes
  put : Option String → Db → WriteOptions → Bytes → Bytes → Db
  delete : Option String → Db → WriteOptions → Bytes → Db
  write : Option String → Db → WriteOptions → List BatchEntry → Db
  createIterator : Db → ReadOptions Snapshot → Iter
  iterValid : Iter → Bool
  iterSeekToFirst : Iter → Iter
  iterSeek : Iter → Bytes → Iter
  iterNext : Iter → Iter
  iterKey : Iter → Bytes
  iterValue : Iter → Bytes

/-- The functions of the C API, and what they do to the content of a database. -/
structure Api extends CFunctions where
  content : Db → Content
  saved : Snapshot → Content
  /-- The content that an iterator runs over, and what it still has before it, its entry included. -/
  seen : Iter → Content
  rest : Iter → List (Bytes × Bytes)
  saved_createSnapshot : ∀ db, saved (createSnapshot db) = content db
  get_snapshot : ∀ db ops s k, ops.snapshot = some s → get db ops k = (saved s)[k]?
  get_latest : ∀ db ops k, ops.snapshot = none → get db ops k = (content db)[k]?
  content_put : ∀ db ops k v, content (put none db ops k v) = (content db).insert k v
  content_delete : ∀ db ops k, content (delete none db ops k) = (content db).erase k
  content_write : ∀ db ops entries, content (write none db ops entries) = entries.foldl BatchEntry.apply (content db)
  seen_snapshot : ∀ db ops s, ops.snapshot = some s → seen (createIterator db ops) = saved s
  seen_latest : ∀ db ops, ops.snapshot = none → seen (createIterator db ops) = content db
  rest_createIterator : ∀ db ops, rest (createIterator db ops) = []
  iterValid_eq : ∀ it, iterValid it = !(rest it).isEmpty
  seen_seekToFirst : ∀ it, seen (iterSeekToFirst it) = seen it
  rest_seekToFirst : ∀ it, rest (iterSeekToFirst it) = (seen it).toList
  seen_seek : ∀ it k, seen (iterSeek it k) = seen it
  rest_seek : ∀ it k, rest (iterSeek it k) = (seen it).toList.dropWhile fun entry => compare entry.1 k == .lt
  seen_next : ∀ it, rest it ≠ [] → seen (iterNext it) = seen it
  rest_next : ∀ it, rest it ≠ [] → rest (iterNext it) = (rest it).tail
  iterKey_eq : ∀ it entry entries, rest it = entry :: entries → iterKey it = entry.1
  iterValue_eq : ∀ it entry entries, rest it = entry :: entries → iterValue it = entry.2

/-- A database that is its content, whose failed writes do nothing. -/
def memoryApi : Api where
  Db := Content
  Snapshot := Content
  Iter := Content × List (Bytes × Bytes)
  createSnapshot db := db
  get db ops k := (ops.snapshot.getD db)[k]?
  put fault db _ k v := if fault = none then db.insert k v else db
  delete fault db _ k := if fault = none then db.erase k else db
  write fault db _ entries := if fault = none then entries.foldl BatchEntry.apply db else db
  createIterator db ops := (ops.snapshot.getD db, [])
  iterValid it := !it.2.isEmpty
  iterSeekToFirst it := (it.1, it.1.toList)
  iterSeek it k := (it.1, it.1.toList.dropWhile fun entry => compare entry.1 k == .lt)
  iterNext it := (it.1, it.2.tail)
  iterKey it := (it.2.head?.map Prod.fst).getD []
  iterValue it := (it.2.head?.map Prod.snd).getD []
  content db := db
  saved s := s
  seen it := it.1
  rest it := it.2
  saved_createSnapshot _ := rfl
  get_snapshot db ops s k h := by rw [h]; rfl
  get_latest db ops k h := by rw [h]; rfl
  content_put _ _ _ _ := rfl
  content_delete _ _ _ := rfl
  content_write _ _ _ := rfl
  seen_snapshot db ops s h := by rw [h]; rfl
  seen_latest db ops h := by rw [h]; rfl
  rest_createIterator _ _ := rfl
  iterValid_eq _ := rfl
  seen_seekToFirst _ := rfl
  rest_seekToFirst _ := rfl
  seen_seek _ _ := rfl
  rest_seek _ _ := rfl
  seen_next _ _ := rfl
  rest_next _ _ := rfl
  iterKey_eq it entry entries h := by rw [h]; rfl
  iterValue_eq it entry entries h := by rw [h]; rfl

end Hala.LevelDb
