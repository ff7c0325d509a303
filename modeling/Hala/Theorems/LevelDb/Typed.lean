import Hala.LevelDb.KeyValue
import Hala.Theorems.LevelDb.Delete

/-! What a typed get reads behind a history of writes.

A history is a list of batch entries, and the content behind it has, under the bytes of a key, what the last entry for
these bytes left there (`content_writeAll`). The get decodes the bytes that are stored, and no bytes where nothing is:
a missing key reads as the string or the vector without bytes. -/

namespace Hala.LevelDb
open Io

/-! ## The encodings -/

section Encodings
variable {target : Target}

theorem ordered_ordered (bytes : Bytes) : Num.ordered target (Num.ordered target bytes) = bytes := by
  unfold Num.ordered
  split
  · exact List.reverse_reverse bytes
  · rfl

theorem length_ordered (bytes : Bytes) : (Num.ordered target bytes).length = bytes.length := by
  unfold Num.ordered
  split
  · exact List.length_reverse
  · rfl

theorem NumType.size_pos (t : NumType) : 0 < t.size target := by
  cases t
  case isize => exact target.pointerSize_pos
  case usize => exact target.pointerSize_pos
  all_goals exact Nat.succ_pos _

theorem Num.bits_lt {t : NumType} (n : Num target t) : n.bits.toNat < 256 ^ t.size target := by
  have h := n.bits.isLt
  rwa [Nat.pow_mul] at h

/-- The bytes of a number are the bytes of its size that read as it. -/
theorem Num.toNeBytes_eq_iff {t : NumType} {n : Num target t} {buf : Bytes} :
    n.toNeBytes = buf ↔ buf.length = t.size target ∧ Num.fromNeBytes buf = n := by
  have hswap : n.toNeBytes = buf ↔ Num.ordered target buf = Radix.bytes (t.size target) n.bits.toNat := by
    unfold Num.toNeBytes
    constructor
    · rintro rfl
      exact ordered_ordered _
    · intro h
      rw [← h]
      exact ordered_ordered _
  rw [hswap, Radix.eq_bytes_iff n.bits_lt, length_ordered]
  refine and_congr_right fun hlen => ?_
  have hlt : Radix.value (Num.ordered target buf) < 2 ^ (8 * t.size target) := by
    have h := Radix.value_lt (Num.ordered target buf)
    rwa [length_ordered, hlen, show 256 = 2 ^ 8 from rfl, ← Nat.pow_mul] at h
  unfold Num.fromNeBytes
  constructor
  · intro h
    rw [h, BitVec.ofNat_toNat, BitVec.setWidth_eq]
  · intro h
    rw [← h, BitVec.toNat_ofNat, Nat.mod_eq_of_lt hlt]

theorem toByteArray_eq_iff {s : String} {buf : Bytes} : s.toUTF8.data.toList = buf ↔ s.toByteArray = ⟨buf.toArray⟩ := by
  rw [String.toUTF8_eq_toByteArray, ByteArray.ext_iff]
  constructor
  · rintro rfl
    rfl
  · intro h
    rw [h]

theorem fromUTF8_eq_some_iff {s : String} {array : ByteArray} : String.fromUTF8? array = some s ↔ s.toByteArray = array := by
  unfold String.fromUTF8?
  constructor
  · intro h
    obtain ⟨hvalid, hs⟩ := Option.dite_none_right_eq_some.mp h
    rw [← Option.some.inj hs]
    rfl
  · rintro rfl
    rw [dif_pos s.isValidUTF8]
    rfl

theorem fromBytes_string_iff {s : String} {buf : Bytes} :
    KeyValueReturn.fromBytes buf = Except.ok s ↔ s.toUTF8.data.toList = buf := by
  rw [toByteArray_eq_iff, ← fromUTF8_eq_some_iff]
  simp only [KeyValueReturn.fromBytes]
  cases String.fromUTF8? ⟨buf.toArray⟩ with
  | none => simp
  | some s => simp

theorem fromBytes_num_iff {t : NumType} {n : Num target t} {buf : Bytes} :
    KeyValueReturn.fromBytes buf = Except.ok n ↔ n.toNeBytes = buf := by
  rw [Num.toNeBytes_eq_iff]
  simp only [KeyValueReturn.fromBytes]
  by_cases hlen : buf.length = t.size target
  · rw [if_neg (not_not.mpr hlen), Except.ok.injEq]
    exact (and_iff_right hlen).symm
  · rw [if_pos hlen]
    simp [hlen]

/-- Each of the supported types reads what it wrote, and nothing else as it. -/
theorem fromBytes_eq_ok_iff (d : Datum target) (buf : Bytes) :
    (KeyValueReturn.fromBytes buf : IoResult (d.type.Value target)) = .ok d.value ↔ d.bytes = buf := by
  obtain ⟨type, value⟩ := d
  cases type with
  | string => exact fromBytes_string_iff
  | bytes =>
    constructor
    · intro h
      exact (Except.ok.inj h).symm
    · intro h
      exact congrArg Except.ok h.symm
  | num t => exact fromBytes_num_iff

theorem toBytes_eq (d : Datum target) : KeyValue.toBytes d.value = .ok d.bytes := by
  obtain ⟨type, value⟩ := d
  cases type <;> rfl

/-- No bytes read as a value of a type exactly when it is not one of integers. -/
theorem fromBytes_nil_iff {t : DataType} :
    (∃ value : t.Value target, KeyValueReturn.fromBytes [] = Except.ok value) ↔ ∀ n, t ≠ .num n := by
  constructor
  · rintro ⟨value, h⟩ n rfl
    have hnil := (fromBytes_eq_ok_iff ⟨.num n, value⟩ []).mp h
    have hlen := (Num.toNeBytes_eq_iff.mp hnil).1
    exact absurd hlen (Nat.ne_of_lt n.size_pos)
  · intro h
    cases t with
    | string => exact ⟨"", (fromBytes_eq_ok_iff ⟨.string, ""⟩ []).mpr rfl⟩
    | bytes => exact ⟨[], rfl⟩
    | num n => exact absurd rfl (h n)

end Encodings

/-! ## The last write -/

/-- What an entry leaves under a key, if it is for it. -/
def BatchEntry.stores (key : Bytes) : BatchEntry → Option (Option Bytes)
  | .put k value => if k = key then some (some value) else none
  | .delete k => if k = key then some none else none

/-- What the last entry for a key left under it. -/
def lastWrite (entries : List BatchEntry) (key : Bytes) : Option (Option Bytes) :=
  entries.reverse.findSome? (BatchEntry.stores key)

theorem lastWrite_append (before after : List BatchEntry) (key : Bytes) :
    lastWrite (before ++ after) key = (lastWrite after key).or (lastWrite before key) := by
  unfold lastWrite
  rw [List.reverse_append, List.findSome?_append]

theorem getElem?_apply (content : Content) (entry : BatchEntry) (key : Bytes) :
    (entry.apply content)[key]? = (entry.stores key).getD content[key]? := by
  cases entry with
  | put k value =>
    unfold BatchEntry.apply BatchEntry.stores
    rw [Std.ExtTreeMap.getElem?_insert]
    simp only [Std.LawfulEqCmp.compare_eq_iff_eq]
    split <;> rfl
  | delete k =>
    unfold BatchEntry.apply BatchEntry.stores
    rw [Std.ExtTreeMap.getElem?_erase]
    simp only [Std.LawfulEqCmp.compare_eq_iff_eq]
    split <;> rfl

/-- The content behind some entries. -/
theorem getElem?_foldl_apply (entries : List BatchEntry) (content : Content) (key : Bytes) :
    (entries.foldl BatchEntry.apply content)[key]? = (lastWrite entries key).getD content[key]? := by
  induction entries generalizing content with
  | nil => rfl
  | cons entry entries ih =>
    rw [List.foldl_cons, ih, getElem?_apply, ← List.singleton_append, lastWrite_append]
    have hone : lastWrite [entry] key = entry.stores key := by simp [lastWrite]
    rw [hone]
    cases lastWrite entries key <;> rfl

section Histories
variable {target : Target} {api : Api} {db : Database api}

def BatchCall.entry : BatchCall target → BatchEntry
  | .put key value => .put key.bytes value.bytes
  | .delete key => .delete key.bytes

/-- The entries of the log that a write stands for. -/
def TypedWrite.entries : TypedWrite target → List BatchEntry
  | .put key value _ => [.put key.bytes value.bytes]
  | .delete key _ => [.delete key.bytes]
  | .commit calls _ => calls.map BatchCall.entry

/-- What is stored under a key behind a history: what the last write to it left, or what had been there before. -/
def lastStored (before : Content) (writes : List (TypedWrite target)) (key : Bytes) : Option Bytes :=
  (lastWrite (writes.flatMap TypedWrite.entries) key).getD before[key]?

/-- Each delete of the history removes its key. -/
def DeletesRemove (db : Database api) : List (TypedWrite target) → Prop
  | [] => True
  | write :: writes =>
    (∀ key ops, write = .delete key ops → (api.content (db.write write).cDb)[key.bytes]? = none) ∧
      DeletesRemove (db.write write) writes

theorem foldl_call (calls : List (BatchCall target)) (batch : WriteBatch) :
    (calls.foldl WriteBatch.call batch).entries = batch.entries ++ calls.map BatchCall.entry := by
  induction calls generalizing batch with
  | nil => exact (List.append_nil _).symm
  | cons call calls ih =>
    rw [List.foldl_cons, ih, List.map_cons, ← List.singleton_append, ← List.append_assoc]
    congr 1
    cases call with
    | put key value =>
      change (batch.put key.value value.value).2.entries = _
      rw [WriteBatch.put, toBytes_eq, toBytes_eq]
      rfl
    | delete key =>
      change (batch.delete key.value).2.entries = _
      rw [WriteBatch.delete, toBytes_eq]
      rfl

/-- A write does what its entries do. -/
theorem content_write (db : Database api) (write : TypedWrite target)
    (hdelete : ∀ key ops, write = .delete key ops → (api.content (db.write write).cDb)[key.bytes]? = none) :
    api.content (db.write write).cDb = write.entries.foldl BatchEntry.apply (api.content db.cDb) := by
  cases write with
  | put key value ops =>
    unfold Database.write Database.put
    simp only [toBytes_eq]
    exact api.content_put ..
  | delete key ops =>
    have hmissing := hdelete key ops rfl
    rw [Database.write, delete_eq db (toBytes_eq key)] at hmissing ⊢
    by_cases hvalue : 0 < ((api.content db.cDb)[key.bytes]?.getD []).length
    · rw [if_pos hvalue]
      exact api.content_delete ..
    · rw [if_neg hvalue] at hmissing ⊢
      exact (erase_eq_self hmissing).symm
  | commit calls ops =>
    unfold Database.write WriteBatch.commit
    rw [api.content_write, foldl_call]
    rfl

/-- The content behind a history is what its last writes left. -/
theorem content_writeAll (writes : List (TypedWrite target)) (h : DeletesRemove db writes) (key : Bytes) :
    (api.content (db.writeAll writes).cDb)[key]? = lastStored (api.content db.cDb) writes key := by
  have hfold : api.content (db.writeAll writes).cDb =
      (writes.flatMap TypedWrite.entries).foldl BatchEntry.apply (api.content db.cDb) := by
    induction writes generalizing db with
    | nil => rfl
    | cons write writes ih =>
      rw [List.flatMap_cons, List.foldl_append, ← content_write db write h.1]
      exact ih h.2
  rw [hfold, getElem?_foldl_apply]
  rfl

theorem get_eq (db : Database api) (key : Datum target) (t : DataType) :
    (db.get key.value none none : IoResult (t.Value target)) =
      KeyValueReturn.fromBytes ((api.content db.cDb)[key.bytes]?.getD []) := by
  unfold Database.get
  rw [toBytes_eq]
  have hlatest : api.get db.cDb (ReadOps.new : ReadOps api).cOps key.bytes = (api.content db.cDb)[key.bytes]? :=
    api.get_latest _ _ _ rfl
  rw [← hlatest]
  rfl

end Histories

/-- A get reads exactly the last value that was stored under the key, unless there is none and the value asked for may
    be without bytes. -/
theorem get_reflects_iff (target : Target) (api : Api) (db : Database api) (writes : List (TypedWrite target))
    (h : DeletesRemove db writes) (key : Datum target) (t : DataType) :
    (∀ value : t.Value target, (db.writeAll writes).get key.value none none = .ok value ↔
        lastStored (api.content db.cDb) writes key.bytes = some (Datum.bytes ⟨t, value⟩)) ↔
      (lastStored (api.content db.cDb) writes key.bytes ≠ none ∨ ∃ n, t = .num n) := by
  simp only [get_eq, content_writeAll writes h]
  cases lastStored (api.content db.cDb) writes key.bytes with
  | some stored =>
    refine iff_of_true (fun value => ?_) (Or.inl (Option.some_ne_none _))
    rw [Option.getD_some, fromBytes_eq_ok_iff ⟨t, value⟩, Option.some.injEq]
    exact eq_comm
  | none =>
    simp only [Option.getD_none, reduceCtorEq, iff_false, ne_eq, not_true_eq_false, false_or]
    rw [← not_iff_not, not_forall, not_exists]
    simp only [not_not]
    exact fromBytes_nil_iff

/-- A 64-bit target of the little-endian order. -/
def target64 : Target := { pointerSize := 8, pointerSize_pos := by decide, bigEndian := false }

/-- A number is put and deleted, and a string is put by a batch. -/
def putDeletePut : List (TypedWrite target64) :=
  let key : Datum target64 := ⟨.bytes, [1]⟩
  [.put key ⟨.num .u16, ⟨258⟩⟩ none, .delete key none, .commit [.put key ⟨.string, "b"⟩] none]

theorem get_reflects_putDeletePut :
    let db : Database memoryApi := ⟨(∅ : Content)⟩
    let key : Datum target64 := ⟨.bytes, [1]⟩
    lastStored (∅ : Content) putDeletePut key.bytes = some [98] ∧
      ∀ value : String, (db.writeAll putDeletePut).get key.value none none = .ok value ↔
        lastStored (∅ : Content) putDeletePut key.bytes = some (⟨.string, value⟩ : Datum target64).bytes := by
  have hstored : lastStored (∅ : Content) putDeletePut [1] = some [98] := by decide
  refine ⟨hstored, (get_reflects_iff target64 memoryApi _ putDeletePut ?_ ⟨.bytes, [1]⟩ .string).mpr (Or.inl ?_)⟩
  · refine ⟨?_, ?_, ?_, trivial⟩
    · intro key ops h
      cases h
    · intro key ops h
      cases h
      decide
    · intro key ops h
      cases h
  · exact hstored.trans_ne (Option.some_ne_none _)

/-- A key that was deleted reads as a vector without bytes. -/
theorem get_deleted_key :
    let db : Database memoryApi := ⟨(∅ : Content)⟩
    let key : Datum target64 := ⟨.bytes, [1]⟩
    let writes : List (TypedWrite target64) := [.put key ⟨.num .u8, ⟨5⟩⟩ none, .delete key none]
    ((db.writeAll writes).get key.value none none : IoResult Bytes) = .ok [] ∧
      lastStored (∅ : Content) writes key.bytes = none := by
  decide

end Hala.LevelDb
