import Mathlib.Algebra.GroupWithZero.Nat
import Mathlib.Algebra.Order.BigOperators.Group.List
import Mathlib.Algebra.Order.Group.Nat
import Mathlib.Data.List.Basic
import Mathlib.Data.List.Nodup

/-! Messages on the wire: sequences of fields, each a tag and a value.

A message is written as its fields in order, and read by a loop that takes one tag after another and lets the arm of the tag
read the value into the message. What is read into a message of what was written of another is their sum, `add`; the fields
are known by what they add. An error `none` is the end of the fuel of the loop.

Messages that are values are written behind their sizes, which are not computed then, but are those that the latest
`computeSize` has cached in them. What is read has no sizes. -/

namespace Wire
variable {B E M V : Type}

abbrev Reader (B E V : Type) := List B → Except (Option E) (V × List B)

/-- A value with its tag, in a field of any number; `read` begins after the tag. -/
structure Value (B E V : Type) where
  write : Nat → V → List B
  size : Nat → V → Nat
  read : Reader B E V

/-- What the loop does at a tag. -/
structure Arm (B E M : Type) where
  tag : Nat
  read : M → Reader B E M

structure Field (B E M : Type) where
  arms : List (Arm B E M)
  write : M → List B
  size : M → Nat
  /-- The message, when the messages in the field have cached what the function makes of their sizes. -/
  cached : (Nat → UInt32) → M → M
  /-- The first message, after the field of the second has been read into it. -/
  add : M → M → M

/-- `other` reads what has a tag that no arm has, and `rest` is written after the fields. -/
structure Message (B E M : Type) where
  fields : List (Field B E M)
  new : M
  other : Nat → M → Reader B E M
  rest : M → List B
  restSize : M → Nat
  cachedSize : M → UInt32
  setCachedSize : UInt32 → M → M

section Loop
variable (readTag : List B → Except (Option E) (Option (Nat × List B)))

def readField (arms : List (Arm B E M)) (other : Nat → M → Reader B E M) (tag : Nat) (m : M) : Reader B E M :=
  match arms.find? (·.tag == tag) with
  | some arm => arm.read m
  | none => other tag m

def merge (arms : List (Arm B E M)) (other : Nat → M → Reader B E M) : Nat → M → List B → Except (Option E) M
  | 0, _, _ => .error none
  | fuel + 1, m, input =>
    match readTag input with
    | .error e => .error e
    | .ok none => .ok m
    | .ok (some (tag, input)) =>
      match readField arms other tag m input with
      | .error e => .error e
      | .ok (m, input) => merge arms other fuel m input

/-- The bytes are fields that the arms take: what follows each of them does not matter. -/
inductive Reads (arms : List (Arm B E M)) : M → List B → M → Prop
  | nil (m : M) : Reads arms m [] m
  | field {m m' m'' : M} {arm : Arm B E M} {bytes more : List B} (harm : arm ∈ arms)
      (hread : ∀ rest, ∃ input, readTag (bytes ++ rest) = .ok (some (arm.tag, input)) ∧ arm.read m input = .ok (m', rest))
      (hmore : Reads arms m' more m'') : Reads arms m (bytes ++ more) m''

variable {readTag} {arms arms' : List (Arm B E M)} {m m' m'' : M} {bytes bytes' : List B}

theorem Reads.mono (h : Reads readTag arms m bytes m') (harms : arms ⊆ arms') : Reads readTag arms' m bytes m' := by
  induction h with
  | nil m => exact .nil m
  | field harm hread _ ih => exact .field (harms harm) hread ih

theorem Reads.append (h : Reads readTag arms m bytes m') (h' : Reads readTag arms m' bytes' m'') :
    Reads readTag arms m (bytes ++ bytes') m'' := by
  induction h with
  | nil m => exact h'
  | field harm hread _ ih =>
    rw [List.append_assoc]
    exact .field harm hread (ih h')

theorem find?_of_mem {arm : Arm B E M} (hnodup : (arms.map (·.tag)).Nodup) (harm : arm ∈ arms) :
    arms.find? (·.tag == arm.tag) = some arm := by
  induction arms with
  | nil => cases harm
  | cons first arms ih =>
    obtain ⟨hfirst, hnodup⟩ := List.nodup_cons.mp hnodup
    rcases List.mem_cons.mp harm with rfl | harm
    · simp
    · have hne : first.tag ≠ arm.tag := by
        intro heq
        exact hfirst (List.mem_map.mpr ⟨arm, harm, heq.symm⟩)
      rw [List.find?_cons_of_neg (by simpa using hne), ih hnodup harm]

/-- The loop reads fields one after another to the end. -/
theorem Reads.merge (h : Reads readTag arms m bytes m') (hend : readTag [] = .ok none) (hnodup : (arms.map (·.tag)).Nodup)
    (other : Nat → M → Reader B E M) {fuel : Nat} (hfuel : bytes.length < fuel) :
    Wire.merge readTag arms other fuel m bytes = .ok m' := by
  induction h generalizing fuel with
  | nil m =>
    obtain ⟨fuel, rfl⟩ := Nat.exists_eq_add_one_of_ne_zero (Nat.ne_zero_of_lt hfuel)
    simp only [Wire.merge, hend]
  | @field m m₁ m₂ arm bytes more harm hread _ ih =>
    obtain ⟨fuel, rfl⟩ := Nat.exists_eq_add_one_of_ne_zero (Nat.ne_zero_of_lt hfuel)
    -- A field is not empty, as there is a tag in it.
    have hbytes : bytes ≠ [] := by
      rintro rfl
      obtain ⟨input, htag, -⟩ := hread []
      rw [List.append_nil, hend] at htag
      cases htag
    obtain ⟨input, htag, hvalue⟩ := hread more
    have hlen := List.length_pos_of_ne_nil hbytes
    rw [List.length_append] at hfuel
    simp only [Wire.merge, htag, readField, find?_of_mem hnodup harm, hvalue]
    exact ih (by omega)

/-! ### Input in parts -/

/-- What is read is at the front of the input, whatever follows it; and a read has no error but its own. -/
structure Reader.Consumes (read : Reader B E V) : Prop where
  front : ∀ input v rest, read input = .ok (v, rest) →
    ∃ front, input = front ++ rest ∧ ∀ more, read (front ++ more) = .ok (v, more)
  error : ∀ input, read input ≠ .error none

theorem Reader.Consumes.length_le {read : Reader B E V} (h : read.Consumes) {input rest : List B} {v : V}
    (hread : read input = .ok (v, rest)) : rest.length ≤ input.length := by
  obtain ⟨front, rfl, -⟩ := h.front input v rest hread
  rw [List.length_append]
  exact Nat.le_add_left ..

/-- A tag is at least one item, and there is one unless the input is at its end. -/
structure Tags (readTag : List B → Except (Option E) (Option (Nat × List B))) : Prop where
  front : ∀ input tag rest, readTag input = .ok (some (tag, rest)) →
    ∃ front, front ≠ [] ∧ input = front ++ rest ∧ ∀ more, readTag (front ++ more) = .ok (some (tag, more))
  eof : ∀ input, readTag input = .ok none → input = []
  error : ∀ input, readTag input ≠ .error none

theorem Tags.length_lt (h : Tags readTag) {input rest : List B} {tag : Nat}
    (htag : readTag input = .ok (some (tag, rest))) : rest.length < input.length := by
  obtain ⟨front, hne, rfl, -⟩ := h.front input tag rest htag
  rw [List.length_append]
  exact Nat.lt_add_of_pos_left (List.length_pos_of_ne_nil hne)

theorem readField_consumes {other : Nat → M → Reader B E M} (harms : ∀ arm ∈ arms, ∀ m, Reader.Consumes (arm.read m))
    (hother : ∀ tag m, Reader.Consumes (other tag m)) (tag : Nat) (m : M) :
    Reader.Consumes (readField arms other tag m) := by
  unfold readField
  cases hfind : arms.find? (·.tag == tag) with
  | none => exact hother tag m
  | some arm => exact harms arm (List.mem_of_find?_eq_some hfind) m

section Ends
variable {other : Nat → M → Reader B E M} {fuel fuel' : Nat} {input : List B} (htags : Tags readTag)
  (hfields : ∀ tag m, Reader.Consumes (readField arms other tag m))
include htags hfields

/-- The loop ends on every input: it has a result, or an error that was read. -/
theorem merge_ends (hfuel : input.length < fuel) (m : M) : merge readTag arms other fuel m input ≠ .error none := by
  induction fuel generalizing m input with
  | zero => exact absurd hfuel (Nat.not_lt_zero _)
  | succ fuel ih =>
    rw [merge]
    cases htag : readTag input with
    | error e =>
      rintro ⟨⟩
      exact htags.error input htag
    | ok tagged =>
      cases tagged with
      | none => nofun
      | some tagged =>
        obtain ⟨tag, rest⟩ := tagged
        have hrest := htags.length_lt htag
        dsimp only
        cases hread : readField arms other tag m rest with
        | error e =>
          rintro ⟨⟩
          exact (hfields tag m).error rest hread
        | ok read =>
          obtain ⟨m', rest'⟩ := read
          have hless := (hfields tag m).length_le hread
          exact ih (by omega) m'

theorem merge_fuel (hfuel : input.length < fuel) (hfuel' : input.length < fuel') (m : M) :
    merge readTag arms other fuel m input = merge readTag arms other fuel' m input := by
  induction fuel generalizing m input fuel' with
  | zero => exact absurd hfuel (Nat.not_lt_zero _)
  | succ fuel ih =>
    obtain ⟨fuel', rfl⟩ := Nat.exists_eq_add_one_of_ne_zero (Nat.ne_zero_of_lt hfuel')
    rw [merge, merge]
    cases htag : readTag input with
    | error e => rfl
    | ok tagged =>
      cases tagged with
      | none => rfl
      | some tagged =>
        obtain ⟨tag, rest⟩ := tagged
        have hrest := htags.length_lt htag
        dsimp only
        cases hread : readField arms other tag m rest with
        | error e => rfl
        | ok read =>
          obtain ⟨m', rest'⟩ := read
          have hless := (hfields tag m).length_le hread
          exact ih (by omega) (by omega) m'

/-- Behind input that is read to its end, the loop goes on with what it has read. -/
theorem merge_append (more : List B) (hmerge : merge readTag arms other fuel m input = .ok m')
    (hfuel : (input ++ more).length < fuel') :
    merge readTag arms other fuel' m (input ++ more) = merge readTag arms other (more.length + 1) m' more := by
  induction fuel generalizing m input fuel' with
  | zero => cases hmerge
  | succ fuel ih =>
    rw [merge] at hmerge
    cases htag : readTag input with
    | error e =>
      rw [htag] at hmerge
      cases hmerge
    | ok tagged =>
      rw [htag] at hmerge
      cases tagged with
      | none =>
        cases hmerge
        obtain rfl := htags.eof input htag
        exact merge_fuel htags hfields hfuel (Nat.lt_succ_self _) _
      | some tagged =>
        obtain ⟨tag, rest⟩ := tagged
        have hrest := htags.length_lt htag
        dsimp only at hmerge
        cases hread : readField arms other tag m rest with
        | error e =>
          rw [hread] at hmerge
          cases hmerge
        | ok read =>
          obtain ⟨m₁, rest'⟩ := read
          rw [hread] at hmerge
          have hless := (hfields tag m).length_le hread
          obtain ⟨fuel', rfl⟩ := Nat.exists_eq_add_one_of_ne_zero (Nat.ne_zero_of_lt hfuel)
          -- The tag and the value are those of the part.
          obtain ⟨front, -, rfl, htag'⟩ := htags.front input tag rest htag
          obtain ⟨front', rfl, hread'⟩ := (hfields tag m).front rest m₁ rest' hread
          simp only [List.length_append] at hfuel hrest
          rw [List.append_assoc, List.append_assoc, merge, htag']
          dsimp only
          rw [hread']
          refine ih hmerge ?_
          rw [List.length_append]
          omega

end Ends

end Loop

/-! ### Values and fields -/

section Fields
variable (readTag : List B → Except (Option E) (Option (Nat × List B)))

/-- Nothing is cached. -/
abbrev noSize : Nat → UInt32 := fun _ => 0

/-- A value in which there are no messages. -/
abbrev flat : (Nat → UInt32) → V → V := fun _ v => v

/-- In the field of this number and tag, what is written of a value whose sizes are cached is read back. -/
structure Value.Lawful (value : Value B E V) (number tag : Nat) (cached : (Nat → UInt32) → V → V) (Fits : V → Prop) :
    Prop where
  read : ∀ v rest, Fits v →
    ∃ input, readTag (value.write number (cached .ofNat v) ++ rest) = .ok (some (tag, input)) ∧
      value.read input = .ok (cached noSize v, rest)
  size : ∀ v, Fits v → value.size number v = (value.write number (cached .ofNat v)).length

structure Field.Lawful (field : Field B E M) (Fits : M → Prop) : Prop where
  reads : ∀ a b, Fits b → Reads readTag field.arms a (field.write (field.cached .ofNat b)) (field.add a (field.cached noSize b))
  size : ∀ m, Fits m → field.size m = (field.write (field.cached .ofNat m)).length

/-- Reads a value, and puts it into the message. -/
def Value.arm (value : Value B E V) (tag : Nat) (put : M → V → M) : Arm B E M where
  tag
  read m input := (value.read input).map fun (v, input) => (put m v, input)

namespace Field
variable (value : Value B E V) (number tag : Nat)

/-- A field that is not written when it is `default`. -/
def scalar [DecidableEq V] (default : V) (get : M → V) (set : M → V → M) : Field B E M where
  arms := [value.arm tag set]
  write m := if get m ≠ default then value.write number (get m) else []
  size m := if get m ≠ default then value.size number (get m) else 0
  cached := flat
  add a b := if get b ≠ default then set a (get b) else a

/-- A field with any number of values, each with a tag; `packed` are further arms. -/
def repeated (packed : List (Arm B E M)) (cached : (Nat → UInt32) → V → V) (get : M → List V) (set : M → List V → M) :
    Field B E M where
  arms := packed ++ [value.arm tag fun m v => set m (get m ++ [v])]
  write m := (get m).flatMap (value.write number)
  size m := ((get m).map (value.size number)).sum
  cached of m := set m ((get m).map (cached of))
  add a b := set a (get a ++ get b)

/-- A field with one value or none. `readInto` reads a value into it, and makes `again` of one that is there and another. -/
def optional (readInto : Option V → Reader B E (Option V)) (again : V → V → V) (cached : (Nat → UInt32) → V → V)
    (get : M → Option V) (set : M → Option V → M) : Field B E M where
  arms := [{ tag, read := fun m input => (readInto (get m) input).map fun (v, input) => (set m v, input) }]
  write m := ((get m).map (value.write number)).getD []
  size m := ((get m).map (value.size number)).getD 0
  cached of m := set m ((get m).map (cached of))
  add a b := set a ((get a).merge again (get b))

end Field

variable {readTag} {value : Value B E V} {number tag : Nat} {cached : (Nat → UInt32) → V → V} {Fits : V → Prop}
  {arms : List (Arm B E M)} {m m' : M}

theorem Value.Lawful.reads {v : V} {p : M → V → M} (h : value.Lawful readTag number tag cached Fits) (hv : Fits v)
    (harm : value.arm tag p ∈ arms) :
    Reads readTag arms m (value.write number (cached .ofNat v)) (p m (cached noSize v)) := by
  rw [← List.append_nil (value.write number (cached .ofNat v))]
  refine .field harm (fun rest => ?_) (.nil _)
  obtain ⟨input, hinput, hvalue⟩ := h.read v rest hv
  refine ⟨input, hinput, ?_⟩
  change (value.read input).map _ = _
  rw [hvalue]
  rfl

/-- What is made of the value changes nothing of the rest. -/
theorem Reader.Consumes.map {N : Type} {read : Reader B E V} (h : read.Consumes) (f : V → N) :
    Reader.Consumes fun input => (read input).map fun (v, input) => (f v, input) where
  front input v rest hread := by
    cases hvalue : read input with
    | error e =>
      rw [hvalue] at hread
      cases hread
    | ok value =>
      rw [hvalue] at hread
      cases hread
      obtain ⟨front, hinput, hfront⟩ := h.front input value.1 value.2 hvalue
      refine ⟨front, hinput, fun more => ?_⟩
      rw [hfront more]
      rfl
  error input hread := by
    cases hvalue : read input with
    | error e =>
      rw [hvalue] at hread
      cases hread
      exact h.error input hvalue
    | ok value =>
      rw [hvalue] at hread
      cases hread

structure Field.Consumes (field : Field B E M) : Prop where
  arms : ∀ arm ∈ field.arms, ∀ m, Reader.Consumes (arm.read m)

theorem Field.scalar_consumes [DecidableEq V] {default : V} {get : M → V} {set : M → V → M} (h : value.read.Consumes) :
    (Field.scalar value number tag default get set).Consumes :=
  ⟨List.forall_mem_singleton.mpr fun m => h.map (set m)⟩

theorem Field.repeated_consumes {packed : List (Arm B E M)} {get : M → List V} {set : M → List V → M}
    (h : value.read.Consumes) (hpacked : ∀ arm ∈ packed, ∀ m, Reader.Consumes (arm.read m)) :
    (Field.repeated value number tag packed cached get set).Consumes :=
  ⟨List.forall_mem_append.mpr ⟨hpacked, List.forall_mem_singleton.mpr fun m => h.map fun v => set m (get m ++ [v])⟩⟩

theorem Field.optional_consumes {readInto : Option V → Reader B E (Option V)} {again : V → V → V} {get : M → Option V}
    {set : M → Option V → M} (h : ∀ v, (readInto v).Consumes) :
    (Field.optional value number tag readInto again cached get set).Consumes :=
  ⟨List.forall_mem_singleton.mpr fun m => (h (get m)).map (set m)⟩

theorem Field.scalar_lawful [DecidableEq V] (h : value.Lawful readTag number tag flat Fits) (default : V) (get : M → V)
    (set : M → V → M) : (Field.scalar value number tag default get set).Lawful readTag fun m => Fits (get m) where
  reads a b hb := by
    simp only [scalar]
    split
    · exact h.reads hb List.mem_cons_self
    · exact .nil a
  size m hm := by
    simp only [scalar]
    split
    · exact h.size _ hm
    · rfl

theorem Field.repeated_lawful (h : value.Lawful readTag number tag cached Fits) (packed : List (Arm B E M)) (get : M → List V)
    (set : M → List V → M) (hget : ∀ m vs, get (set m vs) = vs) (hset : ∀ m vs vs', set (set m vs) vs' = set m vs')
    (hself : ∀ m, set m (get m) = m) :
    (Field.repeated value number tag packed cached get set).Lawful readTag fun m => ∀ v ∈ get m, Fits v where
  reads a b hb := by
    simp only [repeated, hget]
    generalize get b = vs at hb
    induction vs generalizing a with
    | nil =>
      rw [List.map_nil, List.map_nil, List.append_nil, hself]
      exact .nil a
    | cons v vs ih =>
      rw [List.map_cons, List.map_cons, List.flatMap_cons]
      have harm : value.arm tag (fun m v => set m (get m ++ [v])) ∈ packed ++ [value.arm tag fun m v => set m (get m ++ [v])] :=
        List.mem_append_right _ List.mem_cons_self
      have hfirst := h.reads (m := a) (hb v List.mem_cons_self) harm
      have hmore := ih (set a (get a ++ [cached noSize v])) fun v hv => hb v (List.mem_cons_of_mem _ hv)
      rw [hget, hset, List.append_assoc, List.singleton_append] at hmore
      exact hfirst.append hmore
  size m hm := by
    simp only [repeated, hget, List.length_flatMap, List.map_map]
    congr 1
    exact List.map_congr_left fun v hv => h.size v (hm v hv)

/-- What is written of a value whose sizes are cached is read into a field that has a value or none. -/
theorem Field.optional_lawful {readInto : Option V → Reader B E (Option V)} {again : V → V → V}
    (h : value.Lawful readTag number tag cached Fits)
    (hinto : ∀ set v rest, Fits v →
      ∃ input, readTag (value.write number (cached .ofNat v) ++ rest) = .ok (some (tag, input)) ∧
        readInto set input = .ok (set.merge again (some (cached noSize v)), rest))
    (get : M → Option V) (set : M → Option V → M) (hget : ∀ m v, get (set m v) = v) (hself : ∀ m, set m (get m) = m) :
    (Field.optional value number tag readInto again cached get set).Lawful readTag fun m => ∀ v, get m = some v → Fits v where
  reads a b hb := by
    simp only [optional, hget]
    cases hvalue : get b with
    | none =>
      rw [Option.map_none, Option.map_none, Option.map_none, Option.merge_none_right, hself]
      exact .nil a
    | some v =>
      rw [Option.map_some, Option.map_some, Option.map_some, Option.getD_some,
        ← List.append_nil (value.write number (cached .ofNat v))]
      refine .field List.mem_cons_self (fun rest => ?_) (.nil _)
      obtain ⟨input, htag, hread⟩ := hinto (get a) v rest (hb v hvalue)
      refine ⟨input, htag, ?_⟩
      dsimp only
      rw [hread]
      rfl
  size m hm := by
    simp only [optional, hget]
    cases hvalue : get m with
    | none => rfl
    | some v => exact h.size v (hm v hvalue)

end Fields

/-! ### Messages -/

namespace Message
variable (message : Message B E M)

def arms : List (Arm B E M) := message.fields.flatMap (·.arms)

def write (m : M) : List B := message.fields.flatMap (·.write m) ++ message.rest m

def size (m : M) : Nat := (message.fields.map (·.size m)).sum + message.restSize m

def mergeFrom (readTag : List B → Except (Option E) (Option (Nat × List B))) (m : M) (input : List B) :
    Except (Option E) M :=
  merge readTag message.arms message.other (input.length + 1) m input

def add (a b : M) : M := message.fields.foldl (fun a field => field.add a b) a

/-- The message, when it and the messages in it have cached what the function makes of their sizes. -/
def cached (of : Nat → UInt32) (m : M) : M :=
  message.setCachedSize (of (message.size m)) (message.fields.foldl (fun m field => field.cached of m) m)

/-- The size, and the message in which it and those of the messages in it are cached. -/
def computeSize (m : M) : Nat × M := (message.size m, message.cached .ofNat m)

/-- The message as if no size of it had been computed. -/
def uncached (m : M) : M := message.cached noSize m

variable {message} {readTag : List B → Except (Option E) (Option (Nat × List B))} {Fits : M → Prop} {m : M}

/-- What is cached for the message and its other fields is nothing to a field, nor to what follows the fields. -/
structure Separate (message : Message B E M) : Prop where
  write : ∀ of m, (message.fields.map fun field => field.write (message.cached of m)) =
    message.fields.map fun field => field.write (field.cached of m)
  add : ∀ of m, (message.fields.map fun field a => field.add a (message.cached of m)) =
    message.fields.map fun field a => field.add a (field.cached of m)
  rest : ∀ of m, message.rest (message.cached of m) = message.rest m
  cachedSize : ∀ of m, message.cachedSize (message.cached of m) = of (message.size m)

theorem size_field_le {field : Field B E M} (hfield : field ∈ message.fields) (m : M) : field.size m ≤ message.size m := by
  have hmem : field.size m ∈ message.fields.map (·.size m) := List.mem_map.mpr ⟨field, hfield, rfl⟩
  exact (List.single_le_sum (fun _ _ => Nat.zero_le _) _ hmem).trans (Nat.le_add_right _ _)

theorem reads_fields {fields : List (Field B E M)} {b : M} (hfields : ∀ field ∈ fields, field.Lawful readTag Fits)
    (hb : Fits b) (a : M) :
    Reads readTag (fields.flatMap (·.arms)) a (fields.flatMap fun field => field.write (field.cached .ofNat b))
      (fields.foldl (fun a field => field.add a (field.cached noSize b)) a) := by
  induction fields generalizing a with
  | nil => exact .nil a
  | cons field fields ih =>
    rw [List.flatMap_cons, List.flatMap_cons, List.foldl_cons]
    have hfirst := (hfields field List.mem_cons_self).reads a b hb
    have hrest := ih (fun field hfield => hfields field (List.mem_cons_of_mem _ hfield)) (field.add a (field.cached noSize b))
    exact (hfirst.mono (List.subset_append_left ..)).append (hrest.mono (List.subset_append_right ..))

theorem Separate.write_computeSize (hseparate : message.Separate) (m : M) :
    message.write (message.computeSize m).2 =
      (message.fields.flatMap fun field => field.write (field.cached .ofNat m)) ++ message.rest m := by
  rw [Message.write, computeSize, hseparate.rest, List.flatMap_def, hseparate.write, ← List.flatMap_def]

theorem Separate.add_uncached (hseparate : message.Separate) (a m : M) :
    message.add a (message.uncached m) = message.fields.foldl (fun a field => field.add a (field.cached noSize m)) a := by
  have hadd := congrArg (List.foldl (fun a add => add a) a) (hseparate.add noSize m)
  rwa [List.foldl_map, List.foldl_map] at hadd

theorem reads_writes (hseparate : message.Separate) (hfields : ∀ field ∈ message.fields, field.Lawful readTag Fits)
    {ms : List M} (hms : ∀ m ∈ ms, Fits m ∧ message.rest m = []) (a : M) :
    Reads readTag message.arms a (ms.flatMap fun m => message.write (message.computeSize m).2)
      ((ms.map message.uncached).foldl message.add a) := by
  induction ms generalizing a with
  | nil => exact .nil a
  | cons m ms ih =>
    obtain ⟨hm, hrest⟩ := hms m List.mem_cons_self
    rw [List.flatMap_cons, List.map_cons, List.foldl_cons, hseparate.write_computeSize, hrest, List.append_nil,
      hseparate.add_uncached]
    exact (reads_fields hfields hm a).append (ih (fun m hm => hms m (List.mem_cons_of_mem _ hm)) _)

/-- What is written of messages behind `computeSize`, one after another, is added to the one that it is read into. -/
theorem mergeFrom_writes (hend : readTag [] = .ok none) (hnodup : (message.arms.map (·.tag)).Nodup)
    (hseparate : message.Separate) (hfields : ∀ field ∈ message.fields, field.Lawful readTag Fits) {ms : List M}
    (hms : ∀ m ∈ ms, Fits m ∧ message.rest m = []) (a : M) :
    message.mergeFrom readTag a (ms.flatMap fun m => message.write (message.computeSize m).2) =
      .ok ((ms.map message.uncached).foldl message.add a) :=
  (reads_writes hseparate hfields hms a).merge hend hnodup message.other (Nat.lt_succ_self _)

theorem size_eq_length (hseparate : message.Separate) (hfields : ∀ field ∈ message.fields, field.Lawful readTag Fits)
    (hm : Fits m) (hrest : message.restSize m = (message.rest m).length) :
    message.size m = (message.write (message.computeSize m).2).length := by
  rw [hseparate.write_computeSize, size, List.length_append, hrest, List.length_flatMap]
  congr 2
  exact List.map_congr_left fun field hfield => (hfields field hfield).size m hm

/-! ### Messages in parts -/

structure Consumes (message : Message B E M) : Prop where
  fields : ∀ field ∈ message.fields, field.Consumes
  other : ∀ tag m, Reader.Consumes (message.other tag m)

theorem Consumes.readField (h : message.Consumes) (tag : Nat) (m : M) :
    Reader.Consumes (Wire.readField message.arms message.other tag m) := by
  refine readField_consumes (fun arm harm => ?_) h.other tag m
  obtain ⟨field, hfield, harm⟩ := List.mem_flatMap.mp harm
  exact (h.fields field hfield).arms arm harm

/-- A message is read from any input, to its end or to an error that was read. -/
theorem Consumes.mergeFrom_ends (h : message.Consumes) (htags : Tags readTag) (m : M) (input : List B) :
    message.mergeFrom readTag m input ≠ .error none :=
  merge_ends htags h.readField (Nat.lt_succ_self _) m

/-- Input that is read in two parts is read as the whole. -/
theorem Consumes.mergeFrom_append {m' : M} {input : List B} (h : message.Consumes) (htags : Tags readTag) (more : List B)
    (hread : message.mergeFrom readTag m input = .ok m') :
    message.mergeFrom readTag m (input ++ more) = message.mergeFrom readTag m' more :=
  merge_append htags h.readField more hread (Nat.lt_succ_self _)

end Message

end Wire
