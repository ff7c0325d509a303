import Hala.Lib.Varint
import Hala.Pprof.Gperf

/-! The protobuf wire format as a runtime, on which the messages can be run.

Unknown fields are kept as they were read; groups are not read. A message is merged into one that its field has. -/

namespace Hala.Pprof.Gperf.Runtime
open Wire

inductive WireError where
  | incorrectVarint
  | unexpectedEof
  | utf8Error
  | unexpectedWireType (tag : Nat)
  deriving DecidableEq, Repr

variable {V : Type}

def orError (error : WireError) : Option V → Except (Option WireError) V
  | some v => .ok v
  | none => .error (some error)

def writeTag (number wireType : Nat) : Bytes := Varint.write 4 (8 * number + wireType)

def readTag (input : Bytes) : Except (Option WireError) (Option (Nat × Bytes)) :=
  if input = [] then .ok none else (orError .incorrectVarint (Varint.read 4 input)).map some

/-- A value as a varint of 64 bits. -/
def varint (put : V → Nat) (get : Nat → V) : Value UInt8 WireError V where
  write number v := writeTag number 0 ++ Varint.write 9 (put v)
  size number v := (writeTag number 0 ++ Varint.write 9 (put v)).length
  read input := (orError .incorrectVarint (Varint.read 9 input)).map fun (n, input) => (get n, input)

def uint64Of (n : Nat) : UInt64 := .ofNat n

def int64Of (n : Nat) : Int64 := (UInt64.ofNat n).toInt64

def boolOf (n : Nat) : Bool := n != 0

def readMessageBytes : Reader UInt8 WireError Bytes := fun input => orError .unexpectedEof (Varint.readBytes 9 input)

def utf8 (s : String) : Bytes := s.toByteArray.data.toList

def stringValue : Value UInt8 WireError String where
  write number s := writeTag number 2 ++ Varint.write 9 (utf8 s).length ++ utf8 s
  size number s := (writeTag number 2 ++ Varint.write 9 (utf8 s).length ++ utf8 s).length
  read input :=
    match readMessageBytes input with
    | .error e => .error e
    | .ok (bytes, input) => (orError .utf8Error (String.fromUTF8? ⟨bytes.toArray⟩)).map fun s => (s, input)

/-- A message is read into the one that is there, or a new one. -/
def readSingular {M : Type} (message : Message UInt8 WireError M) (set : Option M) : Reader UInt8 WireError (Option M) :=
  fun input => (mergeMessage readTag readMessageBytes message (set.getD message.new) input).map fun (m, input) => (some m, input)

def readPacked (get : Nat → V) (vs : List V) : Reader UInt8 WireError (List V) := fun input =>
  match readMessageBytes input with
  | .error e => .error e
  | .ok (bytes, input) =>
    (orError .incorrectVarint (Varint.readAll 9 bytes.length bytes)).map fun ns => (vs ++ ns.map get, input)

/-- What is taken of the input behind an unknown tag. -/
def unknownLength (tag : Nat) (input : Bytes) : Except (Option WireError) Nat :=
  match tag % 8 with
  | 0 => (orError .incorrectVarint (Varint.read 9 input)).map fun (_, rest) => input.length - rest.length
  | 1 => .ok 8
  | 2 => (readMessageBytes input).map fun (_, rest) => input.length - rest.length
  | 5 => .ok 4
  | _ => .error (some (.unexpectedWireType tag))

def readUnknown (tag : Nat) (fields : List (Nat × Bytes)) : Reader UInt8 WireError (List (Nat × Bytes)) := fun input =>
  match unknownLength tag input with
  | .error e => .error e
  | .ok n =>
    if n ≤ input.length then .ok (fields ++ [(tag, input.take n)], input.drop n) else .error (some .unexpectedEof)

def writeUnknown (fields : List (Nat × Bytes)) : Bytes := fields.flatMap fun (tag, bytes) => Varint.write 4 tag ++ bytes

def wireFormat : Runtime WireError (List (Nat × Bytes)) where
  readRawTagOrEof := readTag
  int64 := varint (·.toUInt64.toNat) int64Of
  uint64 := varint (·.toNat) uint64Of
  bool := varint Bool.toNat boolOf
  string := stringValue
  readRepeatedPackedInt64Into := readPacked int64Of
  readRepeatedPackedUint64Into := readPacked uint64Of
  writeMessageFieldWithCachedSize number size body := writeTag number 2 ++ Varint.write 9 size.toNat ++ body
  readMessage := readMessageBytes
  readSingularMessageIntoField := readSingular
  again := .append
  computeRawVarint64Size n := (Varint.write 9 n).length
  noUnknownFields := []
  writeUnknownFields := writeUnknown
  unknownFieldsSize fields := (writeUnknown fields).length
  readUnknownOrSkipGroup := readUnknown

end Hala.Pprof.Gperf.Runtime
