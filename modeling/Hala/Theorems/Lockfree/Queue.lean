import Mathlib.Order.Basic
import Mathlib.Data.Nat.Basic
import Hala.Lib.Machine
import Hala.Lib.Tasks
import Hala.Lockfree.Queue

/-! The lock-free `Queue` is a FIFO queue.

A value has its place in the order from the moment its push takes a ticket, and leaves the queue when a pop claims
that ticket, whether or not it is in its slot by then. `Inv` keeps the list of all values in the order of their
tickets; what is queued are those from the head on. -/

namespace Hala.Lockfree.Queue
open Machine Tasks
variable {T : Type}

/-- The ticket that the push has taken, with its value. -/
def Push.took : Push T → Option (Nat × T)
  | .insertSlot value offset | .done value offset => some (offset, value)
  | _ => none

/-- The ticket that the pop has claimed. -/
def Pop.claimed : Pop T → Option Nat
  | .removeSlot index | .done (some (index, _)) => some index
  | _ => none

/-! ## What a step can do -/

section Cases
variable {s s' : Calls T} {c : Nat}

inductive PushCases (s : Calls T) (c : Nat) : Calls T → Prop
  | tookTicket {value : T} : s.pushes c = .takeTicket value →
      PushCases s c ({ s with queue := { s.queue with tail := s.queue.tail + 1 } }.setPush c (.insertSlot value s.queue.tail))
  | inserted {value : T} {offset : Nat} : s.pushes c = .insertSlot value offset →
      PushCases s c
        ({ s with queue := { s.queue with slots := Function.update s.queue.slots offset (some value) } }.setPush c
          (.done value offset))

theorem push_cases (h : s.pushStep c = some s') : PushCases s c s' := by
  cases hc : s.pushes c with
  | idle | done _ _ =>
    simp only [Calls.pushStep, hc] at h
    cases h
  | takeTicket value =>
    simp only [Calls.pushStep, hc] at h
    cases h
    exact .tookTicket hc
  | insertSlot value offset =>
    simp only [Calls.pushStep, hc] at h
    cases h
    exact .inserted hc

inductive PopCases (s : Calls T) (c : Nat) : Calls T → Prop
  | loadedHead : s.pops c = .loadHead → PopCases s c (s.setPop c (.loadTail s.queue.head))
  | foundEmpty {header : Nat} : s.pops c = .loadTail header → header = s.queue.tail → PopCases s c (s.setPop c (.done none))
  | foundTicket {header : Nat} : s.pops c = .loadTail header → header ≠ s.queue.tail →
      PopCases s c (s.setPop c (.claim header))
  | lost {header : Nat} : s.pops c = .claim header → s.queue.head ≠ header → PopCases s c (s.setPop c .loadHead)
  | claimed {header : Nat} : s.pops c = .claim header → s.queue.head = header →
      PopCases s c ({ s with queue := { s.queue with head := header + 1 } }.setPop c (.removeSlot header))
  | spins {index : Nat} : s.pops c = .removeSlot index → s.queue.slots index = none → PopCases s c s
  | removed {index : Nat} {value : T} : s.pops c = .removeSlot index → s.queue.slots index = some value →
      PopCases s c
        ({ s with queue := { s.queue with slots := Function.update s.queue.slots index none } }.setPop c
          (.done (some (index, value))))

theorem pop_cases (h : s.popStep c = some s') : PopCases s c s' := by
  cases hc : s.pops c with
  | idle | done _ =>
    simp only [Calls.popStep, hc] at h
    cases h
  | loadHead =>
    simp only [Calls.popStep, hc] at h
    cases h
    exact .loadedHead hc
  | loadTail header =>
    simp only [Calls.popStep, hc] at h
    split at h <;> cases h
    · next hempty => exact .foundEmpty hc hempty
    · next hticket => exact .foundTicket hc hticket
  | claim header =>
    simp only [Calls.popStep, hc, claim] at h
    by_cases hhead : s.queue.head = header
    · simp only [hhead, if_true] at h
      cases h
      exact .claimed hc hhead
    · simp only [hhead, if_false] at h
      cases h
      exact .lost hc hhead
  | removeSlot index =>
    simp only [Calls.popStep, hc, removeSlot] at h
    rcases hslot : s.queue.slots index with _ | value
    · simp only [hslot, Option.map_none] at h
      cases h
      exact .spins hc hslot
    · simp only [hslot, Option.map_some] at h
      cases h
      exact .removed hc hslot

end Cases

/-! ## The invariant -/

/-- `values` are the values of all pushes that have taken a ticket, in the order of the tickets. -/
structure Inv (s : Calls T) (values : List T) : Prop where
  head_le : s.queue.head ≤ s.queue.tail
  length : values.length = s.queue.tail
  took_value : ∀ c i v, (s.pushes c).took = some (i, v) → values[i]? = some v
  took_unique : ∀ c d i v w, (s.pushes c).took = some (i, v) → (s.pushes d).took = some (i, w) → c = d
  took_exists : ∀ i < s.queue.tail, ∃ c v, (s.pushes c).took = some (i, v)
  claimed_lt : ∀ c i, (s.pops c).claimed = some i → i < s.queue.head
  claimed_unique : ∀ c d i, (s.pops c).claimed = some i → (s.pops d).claimed = some i → c = d
  claimed_exists : ∀ i < s.queue.head, ∃ c, (s.pops c).claimed = some i
  loaded_le : ∀ c header, s.pops c = .loadTail header → header ≤ s.queue.head
  claim_lt : ∀ c header, s.pops c = .claim header → header < s.queue.tail
  slot_pushed : ∀ i v, s.queue.slots i = some v → ∃ c, s.pushes c = .done v i
  slot_unreturned : ∀ c i v, s.pops c = .done (some (i, v)) → s.queue.slots i = none
  stored : ∀ c i v, s.pushes c = .done v i → s.queue.slots i = some v ∨ ∃ d, s.pops d = .done (some (i, v))
  returned : ∀ c i v, s.pops c = .done (some (i, v)) → ∃ d, s.pushes d = .done v i

theorem inv_init : Inv ({} : Calls T) [] := by
  constructor <;> simp [Push.took, Pop.claimed]

section Steps
variable {s s' : Calls T} {c : Nat} {values : List T}

/-- Two pushes with one ticket are the same. -/
theorem Inv.pushed_of_took (hi : Inv s values) {d i : Nat} {v w : T} (hc : (s.pushes c).took = some (i, v))
    (hd : s.pushes d = .done w i) : d = c := by
  have htook : (s.pushes d).took = some (i, w) := by
    rw [hd]
    rfl
  exact hi.took_unique d c i w v htook hc

/-- A pop that has claimed nothing goes to another place without a ticket. -/
theorem Inv.setPop (hi : Inv s values) {pop : Pop T} (hc : (s.pops c).claimed = none) (hpop : pop.claimed = none)
    (hloaded : ∀ header, pop = .loadTail header → header ≤ s.queue.head)
    (hclaim : ∀ header, pop = .claim header → header < s.queue.tail) : Inv (s.setPop c pop) values := by
  have hclaimed : ∀ d, (Function.update s.pops c pop d).claimed = (s.pops d).claimed := view_update _ rfl (hpop.trans hc.symm)
  have hdone : ∀ d i v, Function.update s.pops c pop d = .done (some (i, v)) → s.pops d = .done (some (i, v)) := by
    intro d i v h
    by_cases hd : d = c
    · subst hd
      rw [Function.update_self] at h
      rw [h] at hpop
      cases hpop
    · rwa [Function.update_of_ne hd] at h
  have hold : ∀ i v, s.pops c ≠ .done (some (i, v)) := by
    intro i v h
    rw [h] at hc
    cases hc
  exact { hi with
    claimed_lt := by simpa only [Calls.setPop, hclaimed] using hi.claimed_lt
    claimed_unique := by simpa only [Calls.setPop, hclaimed] using hi.claimed_unique
    claimed_exists := by simpa only [Calls.setPop, hclaimed] using hi.claimed_exists
    loaded_le := by
      intro d header h
      by_cases hd : d = c
      · subst hd
        simp only [Calls.setPop, Function.update_self] at h
        exact hloaded header h
      · simp only [Calls.setPop, Function.update_of_ne hd] at h
        exact hi.loaded_le d header h
    claim_lt := by
      intro d header h
      by_cases hd : d = c
      · subst hd
        simp only [Calls.setPop, Function.update_self] at h
        exact hclaim header h
      · simp only [Calls.setPop, Function.update_of_ne hd] at h
        exact hi.claim_lt d header h
    slot_unreturned := fun d i v h => hi.slot_unreturned d i v (hdone d i v h)
    stored := by
      intro d i v h
      exact (hi.stored d i v h).imp_right (exists_update id rfl (hold i v))
    returned := fun d i v h => hi.returned d i v (hdone d i v h) }

theorem Inv.callPush (hi : Inv s values) (hc : s.pushes c = .idle) (value : T) :
    Inv (s.setPush c (.takeTicket value)) values := by
  have htook : ∀ d, (Function.update s.pushes c (.takeTicket value) d).took = (s.pushes d).took := view_update _ hc rfl
  exact { hi with
    took_value := by simpa only [Calls.setPush, htook] using hi.took_value
    took_unique := by simpa only [Calls.setPush, htook] using hi.took_unique
    took_exists := by simpa only [Calls.setPush, htook] using hi.took_exists
    slot_pushed := fun i v h => exists_update id hc (by simp) (hi.slot_pushed i v h)
    stored := by
      intro d i v h
      have hd : d ≠ c := by
        rintro rfl
        simp [Calls.setPush] at h
      simp only [Calls.setPush, Function.update_of_ne hd] at h
      exact hi.stored d i v h
    returned := fun d i v h => exists_update id hc (by simp) (hi.returned d i v h) }

/-- A push takes the next ticket: its value goes to the end of the list. -/
theorem Inv.takeTicket (hi : Inv s values) {value : T} (hc : s.pushes c = .takeTicket value) :
    Inv ({ s with queue := { s.queue with tail := s.queue.tail + 1 } }.setPush c (.insertSlot value s.queue.tail))
      (values ++ [value]) := by
  have hlt : ∀ d i v, (s.pushes d).took = some (i, v) → i < s.queue.tail := by
    intro d i v hd
    rw [← hi.length]
    exact (List.getElem?_eq_some_iff.mp (hi.took_value d i v hd)).1
  have htook : ∀ d i v, (Function.update s.pushes c (.insertSlot value s.queue.tail) d).took = some (i, v) →
      d = c ∧ i = s.queue.tail ∧ v = value ∨ (s.pushes d).took = some (i, v) := by
    intro d i v h
    by_cases hd : d = c
    · rw [hd, Function.update_self] at h
      cases h
      exact .inl ⟨hd, rfl, rfl⟩
    · rw [Function.update_of_ne hd] at h
      exact .inr h
  constructor
  case head_le => exact Nat.le_succ_of_le hi.head_le
  case length => simp [Calls.setPush, hi.length]
  case took_value =>
    intro d i v h
    obtain ⟨-, rfl, rfl⟩ | h := htook d i v h
    · rw [← hi.length]
      exact List.getElem?_concat_length
    · rw [List.getElem?_append_left (hi.length ▸ hlt d i v h)]
      exact hi.took_value d i v h
  case took_unique =>
    -- Nobody has taken the ticket at the tail before.
    intro d e i v w h h'
    obtain ⟨rfl, rfl, -⟩ | h := htook d i v h
    · obtain ⟨rfl, -⟩ | h' := htook e _ w h'
      · rfl
      · exact absurd (hlt e _ w h') (Nat.lt_irrefl _)
    · obtain ⟨-, rfl, -⟩ | h' := htook e i w h'
      · exact absurd (hlt d _ v h) (Nat.lt_irrefl _)
      · exact hi.took_unique d e i v w h h'
  case took_exists =>
    intro i hlt'
    obtain hi' | rfl := Nat.lt_succ_iff_lt_or_eq.mp hlt'
    · obtain ⟨d, v, hd⟩ := hi.took_exists i hi'
      obtain ⟨e, he⟩ := exists_update Push.took hc (by simp [Push.took]) ⟨d, hd⟩
      exact ⟨e, v, he⟩
    · obtain ⟨e, he⟩ : ∃ e, (Function.update s.pushes c (.insertSlot value s.queue.tail) e).took =
          some (s.queue.tail, value) := exists_update_self Push.took rfl
      exact ⟨e, value, he⟩
  case claimed_lt => exact hi.claimed_lt
  case claimed_unique => exact hi.claimed_unique
  case claimed_exists => exact hi.claimed_exists
  case loaded_le => exact hi.loaded_le
  case claim_lt => exact fun d header h => Nat.lt_succ_of_lt (hi.claim_lt d header h)
  case slot_pushed => exact fun i v h => exists_update id hc (by simp) (hi.slot_pushed i v h)
  case slot_unreturned => exact hi.slot_unreturned
  case stored =>
    intro d i v h
    have hd : d ≠ c := by
      rintro rfl
      simp [Calls.setPush] at h
    simp only [Calls.setPush, Function.update_of_ne hd] at h
    exact hi.stored d i v h
  case returned => exact fun d i v h => exists_update id hc (by simp) (hi.returned d i v h)

/-- The value of the push is in its slot. -/
theorem Inv.insertSlot (hi : Inv s values) {value : T} {offset : Nat} (hc : s.pushes c = .insertSlot value offset) :
    Inv ({ s with queue := { s.queue with slots := Function.update s.queue.slots offset (some value) } }.setPush c
      (.done value offset)) values := by
  have htook : ∀ d, (Function.update s.pushes c (.done value offset) d).took = (s.pushes d).took := view_update _ hc rfl
  -- No push with this ticket has been done before.
  have hfresh : ∀ d v, s.pushes d ≠ .done v offset := by
    intro d v hd
    obtain rfl := hi.pushed_of_took (v := value) (by rw [hc]; rfl) hd
    rw [hc] at hd
    cases hd
  exact { hi with
    took_value := by simpa only [Calls.setPush, htook] using hi.took_value
    took_unique := by simpa only [Calls.setPush, htook] using hi.took_unique
    took_exists := by simpa only [Calls.setPush, htook] using hi.took_exists
    slot_pushed := by
      intro i v h
      by_cases hoffset : i = offset
      · subst hoffset
        simp only [Calls.setPush, Function.update_self, Option.some.injEq] at h
        subst h
        exact exists_update_self id rfl
      · simp only [Calls.setPush, Function.update_of_ne hoffset] at h
        exact exists_update id hc (by simp) (hi.slot_pushed i v h)
    slot_unreturned := by
      intro d i v h
      have hoffset : i ≠ offset := by
        rintro rfl
        obtain ⟨e, he⟩ := hi.returned d i v h
        exact hfresh e v he
      simp only [Calls.setPush, Function.update_of_ne hoffset]
      exact hi.slot_unreturned d i v h
    stored := by
      intro d i v h
      by_cases hd : d = c
      · subst hd
        simp only [Calls.setPush, Function.update_self] at h
        cases h
        exact .inl (by simp [Calls.setPush])
      · simp only [Calls.setPush, Function.update_of_ne hd] at h
        have hoffset : i ≠ offset := by
          rintro rfl
          exact hfresh d v h
        simp only [Calls.setPush, Function.update_of_ne hoffset]
        exact hi.stored d i v h
    returned := fun d i v h => exists_update id hc (by simp) (hi.returned d i v h) }

/-- A pop claims the ticket at the head. -/
theorem Inv.claim (hi : Inv s values) (hc : s.pops c = .claim s.queue.head) :
    Inv ({ s with queue := { s.queue with head := s.queue.head + 1 } }.setPop c (.removeSlot s.queue.head)) values := by
  have hclaimed : ∀ d i, (Function.update s.pops c (.removeSlot s.queue.head) d).claimed = some i →
      d = c ∧ i = s.queue.head ∨ (s.pops d).claimed = some i := by
    intro d i h
    by_cases hd : d = c
    · rw [hd, Function.update_self] at h
      cases h
      exact .inl ⟨hd, rfl⟩
    · rw [Function.update_of_ne hd] at h
      exact .inr h
  have hother : ∀ d (pop : Pop T), Function.update s.pops c (.removeSlot s.queue.head) d = pop → pop.claimed = none ∨
      (∃ r, pop = .done r) → s.pops d = pop := by
    rintro d pop rfl hpop
    have hd : d ≠ c := by
      rintro rfl
      simp [Pop.claimed] at hpop
    rw [Function.update_of_ne hd]
  constructor
  case head_le => exact hi.claim_lt c _ hc
  case length => exact hi.length
  case took_value => exact hi.took_value
  case took_unique => exact hi.took_unique
  case took_exists => exact hi.took_exists
  case claimed_lt =>
    intro d i h
    obtain ⟨-, rfl⟩ | h := hclaimed d i h
    · exact Nat.lt_succ_self _
    · exact Nat.lt_succ_of_lt (hi.claimed_lt d i h)
  case claimed_unique =>
    -- Nobody has claimed the ticket at the head before.
    intro d e i h h'
    obtain ⟨rfl, rfl⟩ | h := hclaimed d i h
    · obtain ⟨rfl, -⟩ | h' := hclaimed e _ h'
      · rfl
      · exact absurd (hi.claimed_lt e _ h') (Nat.lt_irrefl _)
    · obtain ⟨-, rfl⟩ | h' := hclaimed e i h'
      · exact absurd (hi.claimed_lt d _ h) (Nat.lt_irrefl _)
      · exact hi.claimed_unique d e i h h'
  case claimed_exists =>
    intro i hlt
    obtain hi' | rfl := Nat.lt_succ_iff_lt_or_eq.mp hlt
    · exact exists_update Pop.claimed hc (by simp [Pop.claimed]) (hi.claimed_exists i hi')
    · exact exists_update_self Pop.claimed rfl
  case loaded_le => exact fun d header h => Nat.le_succ_of_le (hi.loaded_le d header (hother d _ h (.inl rfl)))
  case claim_lt => exact fun d header h => hi.claim_lt d header (hother d _ h (.inl rfl))
  case slot_pushed => exact hi.slot_pushed
  case slot_unreturned => exact fun d i v h => hi.slot_unreturned d i v (hother d _ h (.inr ⟨_, rfl⟩))
  case stored =>
    intro d i v h
    exact (hi.stored d i v h).imp_right (exists_update id hc (by simp))
  case returned => exact fun d i v h => hi.returned d i v (hother d _ h (.inr ⟨_, rfl⟩))

/-- The pop takes the value of its ticket out of the slot. -/
theorem Inv.removeSlot (hi : Inv s values) {index : Nat} {value : T} (hc : s.pops c = .removeSlot index)
    (hslot : s.queue.slots index = some value) :
    Inv ({ s with queue := { s.queue with slots := Function.update s.queue.slots index none } }.setPop c
      (.done (some (index, value)))) values := by
  have hclaimed : ∀ d, (Function.update s.pops c (.done (some (index, value))) d).claimed = (s.pops d).claimed :=
    view_update _ hc rfl
  have hother : ∀ d (pop : Pop T), Function.update s.pops c (.done (some (index, value))) d = pop →
      pop = .done (some (index, value)) ∨ s.pops d = pop := by
    rintro d pop rfl
    by_cases hd : d = c
    · exact .inl (by rw [hd, Function.update_self])
    · exact .inr (by rw [Function.update_of_ne hd])
  have huniq : ∀ v d, s.pushes d = .done v index → v = value := by
    intro v d hd
    obtain hv | ⟨e, he⟩ := hi.stored d index v hd
    · exact Option.some.inj (hv.symm.trans hslot)
    · rw [hi.slot_unreturned e index v he] at hslot
      cases hslot
  exact { hi with
    claimed_lt := by simpa only [Calls.setPop, hclaimed] using hi.claimed_lt
    claimed_unique := by simpa only [Calls.setPop, hclaimed] using hi.claimed_unique
    claimed_exists := by simpa only [Calls.setPop, hclaimed] using hi.claimed_exists
    loaded_le := fun d header h => hi.loaded_le d header ((hother d _ h).resolve_left (by simp))
    claim_lt := fun d header h => hi.claim_lt d header ((hother d _ h).resolve_left (by simp))
    slot_pushed := by
      intro i v h
      have hindex : i ≠ index := by
        rintro rfl
        simp [Calls.setPop] at h
      simp only [Calls.setPop, Function.update_of_ne hindex] at h
      exact hi.slot_pushed i v h
    slot_unreturned := by
      intro d i v h
      by_cases hindex : i = index
      · subst hindex
        simp [Calls.setPop]
      · simp only [Calls.setPop, Function.update_of_ne hindex]
        obtain hdone | h := hother d _ h
        · cases hdone
          exact absurd rfl hindex
        · exact hi.slot_unreturned d i v h
    stored := by
      intro d i v h
      by_cases hindex : i = index
      · subst hindex
        obtain rfl := huniq v d h
        exact .inr (exists_update_self id rfl)
      · simp only [Calls.setPop, Function.update_of_ne hindex]
        exact (hi.stored d i v h).imp_right (exists_update id hc (by simp))
    returned := by
      intro d i v h
      obtain hdone | h := hother d _ h
      · cases hdone
        exact hi.slot_pushed _ _ hslot
      · exact hi.returned d i v h }

end Steps

/-! ## The FIFO queue that it refines -/

/-- What happens to a FIFO queue. -/
inductive FifoOp (T : Type) where
  | enqueue (value : T)
  | dequeue (result : Option T)
  | internal
  deriving DecidableEq, Repr

inductive FifoStep : List T → FifoOp T → List T → Prop
  | enqueue (q : List T) (value : T) : FifoStep q (.enqueue value) (q ++ [value])
  | dequeue (value : T) (q : List T) : FifoStep (value :: q) (.dequeue (some value)) q
  | empty : FifoStep [] (.dequeue none) []
  | internal (q : List T) : FifoStep q .internal q

/-- The values of the pushes in the order of their tickets. -/
structure Issued (s : Calls T) (values : List T) : Prop where
  length : values.length = s.queue.tail
  took : ∀ c i v, (s.pushes c).took = some (i, v) → values[i]? = some v

/-- The operation that takes effect in a step: a push when it takes its ticket, a pop when it claims one, for the
    value of that ticket, or when it loads a tail that is its head. -/
def opOf (s : Calls T) (values : List T) : Action T → FifoOp T
  | .push c =>
    match s.pushes c with
    | .takeTicket value => .enqueue value
    | _ => .internal
  | .pop c =>
    match s.pops c with
    | .loadTail header => if header = s.queue.tail then .dequeue none else .internal
    | .claim header => if s.queue.head = header then .dequeue values[header]? else .internal
    | _ => .internal
  | _ => .internal

section Refines
variable {s s' : Calls T} {c : Nat} {values values' : List T} {a : Action T}

theorem Inv.issued (hi : Inv s values) : Issued s values := ⟨hi.length, hi.took_value⟩

theorem Inv.issued_unique (hi : Inv s values) (hissued : Issued s values') : values' = values := by
  refine List.ext_getElem? fun i => ?_
  by_cases hlt : i < s.queue.tail
  · obtain ⟨c, v, hc⟩ := hi.took_exists i hlt
    rw [hissued.took c i v hc, hi.took_value c i v hc]
  · rw [List.getElem?_eq_none (by rw [hissued.length]; omega), List.getElem?_eq_none (by rw [hi.length]; omega)]

/-- A pop that loads a tail equal to the head it loaded before does so while every ticket is claimed: the head has
    not come past the tail since. -/
theorem Inv.head_eq_tail (hi : Inv s values) (hc : s.pops c = .loadTail s.queue.tail) : s.queue.head = s.queue.tail :=
  Nat.le_antisymm hi.head_le (hi.loaded_le c _ hc)

theorem Inv.pushStep (hi : Inv s values) (hs : PushCases s c s') :
    ∃ values', Inv s' values' ∧ FifoStep (values.drop s.queue.head) (opOf s values (.push c)) (values'.drop s'.queue.head) := by
  cases hs with
  | @tookTicket value hc =>
    have hle : s.queue.head ≤ values.length := by rw [hi.length]; exact hi.head_le
    refine ⟨_, hi.takeTicket hc, ?_⟩
    simp only [opOf, hc, Calls.setPush, List.drop_append_of_le_length hle]
    exact .enqueue _ value
  | inserted hc =>
    refine ⟨values, hi.insertSlot hc, ?_⟩
    simp only [opOf, hc]
    exact .internal _

theorem Inv.popStep (hi : Inv s values) (hs : PopCases s c s') :
    ∃ values', Inv s' values' ∧ FifoStep (values.drop s.queue.head) (opOf s values (.pop c)) (values'.drop s'.queue.head) := by
  cases hs with
  | loadedHead hc =>
    refine ⟨values, hi.setPop (by rw [hc]; rfl) rfl (fun header h => ?_) (by simp), ?_⟩
    · cases h
      exact le_rfl
    · simp only [opOf, hc]
      exact .internal _
  | foundEmpty hc hempty =>
    subst hempty
    refine ⟨values, hi.setPop (by rw [hc]; rfl) rfl (by simp) (by simp), ?_⟩
    have hnil : values.drop s.queue.head = [] := by
      rw [List.drop_eq_nil_iff, hi.length, hi.head_eq_tail hc]
    simp only [opOf, hc, if_true, Calls.setPop, hnil]
    exact .empty
  | @foundTicket header hc hne =>
    have hle := hi.loaded_le c header hc
    have hlt : header < s.queue.tail := Nat.lt_of_le_of_ne (hle.trans hi.head_le) hne
    refine ⟨values, hi.setPop (by rw [hc]; rfl) rfl (by simp) (fun header' h => ?_), ?_⟩
    · cases h
      exact hlt
    · simp only [opOf, hc, hne, if_false]
      exact .internal _
  | lost hc hne =>
    refine ⟨values, hi.setPop (by rw [hc]; rfl) rfl (by simp) (by simp), ?_⟩
    simp only [opOf, hc, hne, if_false]
    exact .internal _
  | claimed hc hhead =>
    subst hhead
    have hlt : s.queue.head < values.length := by rw [hi.length]; exact hi.claim_lt c _ hc
    refine ⟨values, hi.claim hc, ?_⟩
    simp only [opOf, hc, if_true, Calls.setPop, List.getElem?_eq_getElem hlt, List.drop_eq_getElem_cons hlt]
    exact .dequeue _ _
  | spins hc =>
    refine ⟨values, hi, ?_⟩
    simp only [opOf, hc]
    exact .internal _
  | removed hc hslot =>
    refine ⟨values, hi.removeSlot hc hslot, ?_⟩
    simp only [opOf, hc]
    exact .internal _

/-- Every step does to the queued values what its operation does to a FIFO queue. -/
theorem Inv.step (hi : Inv s values) (hs : s.step a = some s') :
    ∃ values', Inv s' values' ∧ FifoStep (values.drop s.queue.head) (opOf s values a) (values'.drop s'.queue.head) := by
  cases a with
  | callPush c value =>
    simp only [Calls.step] at hs
    split at hs <;> cases hs
    next hc => exact ⟨values, hi.callPush hc value, .internal _⟩
  | push c => exact hi.pushStep (push_cases hs)
  | callPop c =>
    simp only [Calls.step] at hs
    split at hs <;> cases hs
    next hc => exact ⟨values, hi.setPop (by rw [hc]; rfl) rfl (by simp) (by simp), .internal _⟩
  | pop c => exact hi.popStep (pop_cases hs)

theorem inv_of_reachable (h : Reachable Calls.step {} s) : ∃ values, Inv s values := by
  induction h with
  | refl => exact ⟨[], inv_init⟩
  | step _ _ hs ih =>
    obtain ⟨values, hi⟩ := ih
    obtain ⟨values', hi', -⟩ := hi.step hs
    exact ⟨values', hi'⟩

end Refines

/-- In every state that any number of pushes and pops reach: the head is not past the tail; every ticket below the
    tail was taken by one push, and every ticket below the head was claimed by one pop, which returns the value of
    that push; a value that is in the queue and was not returned is in its slot; a pop returns `None` only when it
    loads the tail while every ticket has been claimed; and the steps refine those of a FIFO queue. -/
theorem queue_fifo (s : Calls T) (h : Reachable Calls.step {} s) :
    s.queue.head ≤ s.queue.tail ∧
    (∀ i < s.queue.tail, ∃! c, ∃ v, (s.pushes c).took = some (i, v)) ∧
    (∀ i < s.queue.head, ∃! c, (s.pops c).claimed = some i) ∧
    (∀ c i v, s.pops c = .done (some (i, v)) → ∃ d, s.pushes d = .done v i) ∧
    (∀ d i v, s.pushes d = .done v i → s.queue.slots i = some v ∨ ∃ c, s.pops c = .done (some (i, v))) ∧
    (∀ c s', s.step (.pop c) = some s' → s'.pops c = .done none → s.queue.head = s.queue.tail) ∧
    (∃ values, Issued s values) ∧
    ∀ values a s', Issued s values → s.step a = some s' →
      ∃ values', Issued s' values' ∧
        FifoStep (values.drop s.queue.head) (opOf s values a) (values'.drop s'.queue.head) := by
  obtain ⟨values, hi⟩ := inv_of_reachable h
  refine ⟨hi.head_le, ?_, ?_, hi.returned, hi.stored, ?_, ⟨values, hi.issued⟩, ?_⟩
  · intro i hlt
    obtain ⟨c, v, hc⟩ := hi.took_exists i hlt
    refine ⟨c, ⟨v, hc⟩, ?_⟩
    rintro d ⟨w, hd⟩
    exact hi.took_unique d c i w v hd hc
  · intro i hlt
    obtain ⟨c, hc⟩ := hi.claimed_exists i hlt
    exact ⟨c, hc, fun d hd => hi.claimed_unique d c i hd hc⟩
  · intro c s' hs hnone
    cases pop_cases hs with
    | foundEmpty hc hempty => exact hi.head_eq_tail (hempty ▸ hc)
    | spins hc =>
      rw [hc] at hnone
      cases hnone
    | loadedHead | foundTicket | lost | claimed | removed => simp [Calls.setPop] at hnone
  · intro values' a s' hissued hs
    obtain rfl := hi.issued_unique hissued
    obtain ⟨values'', hi'', hfifo⟩ := hi.step hs
    exact ⟨values'', hi''.issued, hfifo⟩

/-- Two pushes take tickets 0 and 1; a pop claims ticket 0 before its value is in the slot, and gets it. -/
def overtaken : List (Action Nat) :=
  [.callPush 0 7, .callPush 1 8, .push 0, .push 1, .push 1, .callPop 0, .pop 0, .pop 0, .pop 0, .pop 0, .push 0, .pop 0]

theorem queue_fifo_overtaken :
    ∃ s, run Calls.step {} overtaken = some s ∧ s.pops 0 = .done (some (0, 7)) ∧ ∃ d, s.pushes d = .done 7 0 :=
  ⟨_, rfl, rfl, (queue_fifo _ (Reachable.of_run overtaken rfl)).2.2.2.1 0 0 7 rfl⟩

end Hala.Lockfree.Queue
