import Hala.Lib.Radix
import Hala.LevelDb.Database
import Mathlib.Data.List.Basic

/-! The keys and values of `crates/leveldb/src/lib.rs`: strings, byte vectors and the integers of `num_def`.

`&str` and `&[u8]` are written like the `String` and the `Vec<u8>` with the same bytes. What the crate is compiled for
decides the size of `isize` and `usize` and the order of the bytes of an integer. -/

namespace Hala.LevelDb
open Io

/-! ## Strings -/

/-- The ranges of the bytes behind the first one of a character; none for a byte that starts no character. -/
def utf8Tail (first : UInt8) : Option (List (UInt8 × UInt8)) :=
  if first < 0x80 then some []
  else if first < 0xC2 then none
  else if first < 0xE0 then some [(0x80, 0xBF)]
  else if first = 0xE0 then some [(0xA0, 0xBF), (0x80, 0xBF)]
  else if first = 0xED then some [(0x80, 0x9F), (0x80, 0xBF)]
  else if first < 0xF0 then some [(0x80, 0xBF), (0x80, 0xBF)]
  else if first = 0xF0 then some [(0x90, 0xBF), (0x80, 0xBF), (0x80, 0xBF)]
  else if first < 0xF4 then some [(0x80, 0xBF), (0x80, 0xBF), (0x80, 0xBF)]
  else if first = 0xF4 then some [(0x80, 0x8F), (0x80, 0xBF), (0x80, 0xBF)]
  else none

/-- `Utf8Error::error_len` of bytes that do not start with a character: none where one is cut off. -/
def utf8ErrorLen : Bytes → Option Nat
  | [] => none
  | first :: rest =>
    match utf8Tail first with
    | none => some 1
    | some ranges => go ranges rest 1
where
  go : List (UInt8 × UInt8) → Bytes → Nat → Option Nat
    | _, [], _ => none
    | [], _, _ => none
    | (low, high) :: ranges, b :: bs, n => if low ≤ b ∧ b ≤ high then go ranges bs (n + 1) else some n

/-- `Utf8Error::valid_up_to`. -/
def utf8ValidUpTo (buf : Bytes) : Nat :=
  ((List.range (buf.length + 1)).reverse.find? fun n => ByteArray.validateUTF8 ⟨(buf.take n).toArray⟩).getD 0

/-- The text of a `Utf8Error`. -/
def utf8Error (buf : Bytes) : String :=
  let index := utf8ValidUpTo buf
  match utf8ErrorLen (buf.drop index) with
  | some n => "invalid utf-8 sequence of " ++ toString n ++ " bytes from index " ++ toString index
  | none => "incomplete utf-8 byte sequence from index " ++ toString index

instance : KeyValue String := ⟨fun s => .ok s.toUTF8.data.toList⟩

instance : KeyValueReturn String where
  fromBytes buf :=
    match String.fromUTF8? ⟨buf.toArray⟩ with
    | some s => .ok s
    | none => .error ⟨.invalidData, utf8Error buf⟩

/-! ## Integers -/

/-- What the crate is compiled for. -/
structure Target where
  pointerSize : Nat
  pointerSize_pos : 0 < pointerSize
  bigEndian : Bool

/-- The types that `num_def` is used for. -/
inductive NumType where
  | i8
  | i16
  | i32
  | i64
  | i128
  | isize
  | u8
  | u16
  | u32
  | u64
  | u128
  | usize
  deriving DecidableEq, Repr

/-- `size_of`. -/
def NumType.size (target : Target) : NumType → Nat
  | .i8 | .u8 => 1
  | .i16 | .u16 => 2
  | .i32 | .u32 => 4
  | .i64 | .u64 => 8
  | .i128 | .u128 => 16
  | .isize | .usize => target.pointerSize

/-- A number of an integer type, by its bits: a signed one in two's complement. -/
structure Num (target : Target) (t : NumType) where
  bits : BitVec (8 * t.size target)
  deriving DecidableEq, Repr

namespace Num
variable {target : Target} {t : NumType}

/-- The bytes of the target's order, from those of the little-endian one, or back. -/
def ordered (target : Target) (bytes : Bytes) : Bytes := if target.bigEndian then bytes.reverse else bytes

def toNeBytes (n : Num target t) : Bytes := ordered target (Radix.bytes (t.size target) n.bits.toNat)

def fromNeBytes (buf : Bytes) : Num target t := ⟨BitVec.ofNat _ (Radix.value (ordered target buf))⟩

instance : KeyValue (Num target t) := ⟨fun n => .ok n.toNeBytes⟩

instance : KeyValueReturn (Num target t) where
  fromBytes buf :=
    if buf.length ≠ t.size target then
      .error ⟨.invalidInput, "num data len mismatch. " ++ toString (t.size target)⟩
    else .ok (fromNeBytes buf)

end Num

/-! ## The supported types -/

/-- The types that are both written and read. -/
inductive DataType where
  | string
  | bytes
  | num (t : NumType)
  deriving DecidableEq, Repr

section Types
variable {target : Target}

abbrev DataType.Value (target : Target) : DataType → Type
  | .string => String
  | .bytes => Bytes
  | .num t => Num target t

instance : (t : DataType) → KeyValue (t.Value target)
  | .string => inferInstanceAs (KeyValue String)
  | .bytes => inferInstanceAs (KeyValue Bytes)
  | .num t => inferInstanceAs (KeyValue (Num target t))

instance : (t : DataType) → KeyValueReturn (t.Value target)
  | .string => inferInstanceAs (KeyValueReturn String)
  | .bytes => inferInstanceAs (KeyValueReturn Bytes)
  | .num t => inferInstanceAs (KeyValueReturn (Num target t))

/-- A key or a value of a supported type. -/
structure Datum (target : Target) where
  type : DataType
  value : type.Value target

def Datum.bytes (d : Datum target) : Bytes :=
  match d with
  | ⟨.string, s⟩ => s.toUTF8.data.toList
  | ⟨.bytes, b⟩ => b
  | ⟨.num _, n⟩ => n.toNeBytes

end Types

/-! ## Histories -/

/-- A call of a `WriteBatch`. -/
inductive BatchCall (target : Target) where
  | put (key value : Datum target)
  | delete (key : Datum target)

/-- A write whose calls of the C API report no error. -/
inductive TypedWrite (target : Target) where
  | put (key value : Datum target) (ops : Option WriteOps)
  | delete (key : Datum target) (ops : Option WriteOps)
  | commit (calls : List (BatchCall target)) (ops : Option WriteOps)

section Histories
variable {target : Target} {api : Api}

def WriteBatch.call (batch : WriteBatch) : BatchCall target → WriteBatch
  | .put key value => (batch.put key.value value.value).2
  | .delete key => (batch.delete key.value).2

def Database.write (db : Database api) : TypedWrite target → Database api
  | .put key value ops => (db.put key.value value.value ops none).2
  | .delete key ops => (db.delete key.value ops none none).2
  | .commit calls ops => ((calls.foldl WriteBatch.call {}).commit db ops none).2

def Database.writeAll (db : Database api) (writes : List (TypedWrite target)) : Database api := writes.foldl write db

end Histories

end Hala.LevelDb
