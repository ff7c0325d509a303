import Hala.Lib.Tasks
import Hala.Quic.ListenerCalls
import Hala.Theorems.Future.Batching

/-! What the first `close` of a listener does for those that are suspended in `accept` and in `read`.

It takes the queue away under its lock, and takes the entry of `accept` out of the event map before it unlocks. Nobody
can register behind it, since `accept` looks at the queue under the same lock. For `read` it does nothing. -/

namespace Hala.Quic
open Machine Tasks

/-! ### Where a call stands -/

namespace AcceptCall

def holdsLock : AcceptCall → Bool
  | check | insert _ | unlock _ => true
  | _ => false

/-- The queue has been found empty, and the lock is still held. -/
def hasFoundEmpty : AcceptCall → Bool
  | insert _ | unlock _ => true
  | _ => false

/-- The cell of its `Wait`. -/
def cell? : AcceptCall → Option Cell
  | insert cell | unlock cell | load cell | pending cell => some cell
  | _ => none

/-- The cell of its `Wait`, once that is registered. -/
def registered? : AcceptCall → Option Cell
  | unlock cell | load cell | pending cell => some cell
  | _ => none

theorem cell?_of_registered? {accept : AcceptCall} {cell : Cell} (h : accept.registered? = some cell) :
    accept.cell? = some cell := by
  cases accept <;> first | exact h | cases h

theorem holdsLock_of_hasFoundEmpty {accept : AcceptCall} (h : accept.hasFoundEmpty = true) :
    accept.holdsLock = true := by
  cases accept <;> first | rfl | cases h

end AcceptCall

namespace CloseCall

def holdsLock : CloseCall → Bool
  | dropIncoming | remove | store _ | wake _ | unlock => true
  | _ => false

/-- It has set the flag. -/
def first : CloseCall → Bool
  | lock | dropIncoming | remove | store _ | wake _ | unlock | returned => true
  | _ => false

/-- It has taken the queue away. -/
def hasDropped : CloseCall → Bool
  | remove | store _ | wake _ | unlock | returned => true
  | _ => false

/-- It has removed the entry, and not stored the reason. -/
def storing? : CloseCall → Option Cell
  | store cell => some cell
  | _ => none

/-- It has stored the reason, and not woken the task. -/
def waking? : CloseCall → Option Cell
  | wake cell => some cell
  | _ => none

theorem holdsLock_of_storing? {close : CloseCall} {cell : Cell} (h : close.storing? = some cell) :
    close.holdsLock = true := by
  cases close <;> first | rfl | cases h

end CloseCall

/-! ### The invariant -/

namespace ListenerCalls
variable {s t : ListenerCalls} {i k : Nat}

/-- The call stands where it has the lock. -/
def holds (s : ListenerCalls) : ListenerHolder → Bool
  | .accept i => (s.accepts i).holdsLock
  | .close k => (s.closes k).holdsLock

/-- Every `Wait` of an `accept` has its own cell, and one that is registered without a reason can be found. -/
structure EntryInv (s : ListenerCalls) : Prop where
  lt : ∀ i cell, (s.accepts i).cell? = some cell → cell < s.cells
  unique : ∀ i i' cell, (s.accepts i).cell? = some cell → (s.accepts i').cell? = some cell → i = i'
  unset : ∀ i cell, (s.accepts i).cell? = some cell → (s.accepts i).registered? = none → s.mediator.reasons cell = .none
  entry : ∀ entry, s.mediator.wakers .incoming = some entry → entry.waker = entry.reason ∧
    s.mediator.reasons entry.reason = .none ∧ ∃ i, (s.accepts i).registered? = some entry.reason
  found : ∀ i cell, (s.accepts i).registered? = some cell → s.mediator.reasons cell = .none →
    s.mediator.wakers .incoming = some { waker := cell, reason := cell } ∨ ∃ k, (s.closes k).storing? = some cell
  storing : ∀ k cell, (s.closes k).storing? = some cell → s.mediator.wakers .incoming = none ∧
    s.mediator.reasons cell = .none ∧ ∃ i, (s.accepts i).registered? = some cell

/-- The queue of a registered `Wait` is there, unless a `close` is about to remove the entry. -/
structure QueueInv (s : ListenerCalls) : Prop where
  holding : ∀ i, (s.accepts i).hasFoundEmpty = true → s.incoming = some []
  entry : s.mediator.wakers .incoming ≠ none → s.incoming ≠ none ∨ ∃ k, s.closes k = .remove

/-- One `close` has set the flag, and it takes the queue away. -/
structure CloseInv (s : ListenerCalls) : Prop where
  closed : ∀ k, (s.closes k).first = true → s.closed = true
  unique : ∀ k k', (s.closes k).first = true → (s.closes k').first = true → k = k'
  dropped : ∀ k, (s.closes k).hasDropped = true → s.incoming = none

/-- Only `On` is left as a reason, and the task is woken after that. -/
structure ReasonInv (s : ListenerCalls) : Prop where
  lt : ∀ cell, s.mediator.reasons cell ≠ .none → cell < s.cells
  on : ∀ cell, s.mediator.reasons cell ≠ .none → s.mediator.reasons cell = .on
  woken : ∀ cell, s.mediator.reasons cell ≠ .none →
    cell ∈ s.mediator.woken ∨ ∃ k, (s.closes k).waking? = some cell

structure Inv (s : ListenerCalls) : Prop where
  lock : Held s.lock s.holds
  entries : EntryInv s
  queue : QueueInv s
  closes : CloseInv s
  reasons : ReasonInv s
  read : s.closed = true → s.reader.inBatch = false

theorem inv_init : Inv {} := by
  refine ⟨?_, ⟨?_, ?_, ?_, ?_, ?_, ?_⟩, ⟨?_, ?_⟩, ⟨?_, ?_, ?_⟩, ⟨?_, ?_, ?_⟩, ?_⟩
  · rintro (i | k) h <;> cases h
  all_goals
    simp [AcceptCall.cell?, AcceptCall.registered?, AcceptCall.hasFoundEmpty, CloseCall.storing?, CloseCall.first,
      CloseCall.hasDropped]

/-! ### What a step leaves alone -/

theorem EntryInv.congr (hinv : EntryInv s) (hcells : t.cells = s.cells) (hwakers : t.mediator.wakers = s.mediator.wakers)
    (hreasons : t.mediator.reasons = s.mediator.reasons) (hcell : ∀ i, (t.accepts i).cell? = (s.accepts i).cell?)
    (hregistered : ∀ i, (t.accepts i).registered? = (s.accepts i).registered?)
    (hstoring : ∀ k, (t.closes k).storing? = (s.closes k).storing?) : EntryInv t := by
  constructor
  all_goals
    simp only [hcells, hwakers, hreasons, hcell, hregistered, hstoring]
  exacts [hinv.lt, hinv.unique, hinv.unset, hinv.entry, hinv.found, hinv.storing]

theorem QueueInv.congr (hinv : QueueInv s) (hincoming : t.incoming = s.incoming)
    (hwakers : t.mediator.wakers = s.mediator.wakers)
    (hempty : ∀ i, (t.accepts i).hasFoundEmpty = true → (s.accepts i).hasFoundEmpty = true)
    (hremove : ∀ k, s.closes k = .remove → t.closes k = .remove) : QueueInv t := by
  constructor
  · intro i h
    rw [hincoming]
    exact hinv.holding i (hempty i h)
  · rw [hincoming, hwakers]
    intro h
    exact (hinv.entry h).imp_right fun ⟨k, hk⟩ => ⟨k, hremove k hk⟩

theorem CloseInv.congr (hinv : CloseInv s) (hclosed : t.closed = s.closed) (hincoming : t.incoming = s.incoming)
    (hfirst : ∀ k, (t.closes k).first = (s.closes k).first)
    (hdropped : ∀ k, (t.closes k).hasDropped = (s.closes k).hasDropped) : CloseInv t := by
  constructor
  all_goals
    simp only [hclosed, hincoming, hfirst, hdropped]
  exacts [hinv.closed, hinv.unique, hinv.dropped]

theorem ReasonInv.congr (hinv : ReasonInv s) (hcells : s.cells ≤ t.cells)
    (hreasons : t.mediator.reasons = s.mediator.reasons) (hwoken : t.mediator.woken = s.mediator.woken)
    (hwaking : ∀ k, (t.closes k).waking? = (s.closes k).waking?) : ReasonInv t := by
  constructor
  all_goals
    simp only [hreasons, hwoken, hwaking]
  exacts [fun cell h => Nat.lt_of_lt_of_le (hinv.lt cell h) hcells, hinv.on, hinv.woken]

/-! ### `accept` -/

section Accept
variable {old accept : AcceptCall} {cell : Cell}

theorem holds_accept (haccept : s.accepts i = old) (hold : old.holdsLock = true) : s.holds (.accept i) = true := by
  rwa [holds, haccept]

theorem holds_setAccept_of_ne {holder : ListenerHolder} (hholder : holder ≠ .accept i)
    (h : (s.setAccept i accept).holds holder = true) : s.holds holder = true := by
  obtain i' | k := holder
  · have hi : i' ≠ i := fun hi => hholder (hi ▸ rfl)
    simpa only [holds, setAccept, Function.update_of_ne hi] using h
  · exact h

theorem Inv.keepAccept (hinv : Inv s) (haccept : s.accepts i = old) (hlock : t.lock = s.lock)
    (haccepts : t.accepts = Function.update s.accepts i accept) (hcloses : t.closes = s.closes)
    (hholds : accept.holdsLock = true → old.holdsLock = true) : Held t.lock t.holds := by
  rw [hlock]
  refine hinv.lock.keep ?_
  rintro (i' | k) h
  · rw [holds, haccepts] at h
    exact view_of_update AcceptCall.holdsLock haccept hholds i' h
  · simpa only [holds, hcloses] using h

/-- A call that moves within its `Wait`, or outside of it. -/
theorem Inv.moveAccept (hinv : Inv s) (haccept : s.accepts i = old) {lock : Option ListenerHolder}
    (hlock : Held lock ({ s with lock }.setAccept i accept).holds) (hcell : accept.cell? = old.cell?)
    (hregistered : accept.registered? = old.registered?)
    (hempty : accept.hasFoundEmpty = true → old.hasFoundEmpty = true) : Inv ({ s with lock }.setAccept i accept) where
  lock := hlock
  entries := hinv.entries.congr rfl rfl rfl (view_update _ haccept hcell) (view_update _ haccept hregistered) fun _ => rfl
  queue := hinv.queue.congr rfl rfl (view_of_update _ haccept hempty) fun _ h => h
  closes := hinv.closes.congr rfl rfl (fun _ => rfl) fun _ => rfl
  reasons := hinv.reasons.congr Nat.le.refl rfl rfl fun _ => rfl
  read := hinv.read

/-- A call that takes a connection. -/
theorem Inv.takeConn (hinv : Inv s) {conn : Nat} {incoming : List Nat} (haccept : s.accepts i = .check)
    (hincoming : s.incoming = some (conn :: incoming)) :
    Inv ({ s with lock := none, incoming := some incoming }.setAccept i (.returned (some conn))) := by
  have hheld : s.holds (.accept i) = true := holds_accept haccept rfl
  constructor
  case lock =>
    refine hinv.lock.release hheld ?_ fun other hother h => holds_setAccept_of_ne hother h
    simp [holds, setAccept, AcceptCall.holdsLock]
  case entries =>
    exact hinv.entries.congr rfl rfl rfl (view_update _ haccept rfl) (view_update _ haccept rfl) fun _ => rfl
  case queue =>
    constructor
    · -- Nobody else is where the lock is held.
      intro i' h
      have hi : i' ≠ i := by
        rintro rfl
        simp only [setAccept, Function.update_self] at h
        cases h
      simp only [setAccept, Function.update_of_ne hi] at h
      have hother : s.holds (.accept i') = true := AcceptCall.holdsLock_of_hasFoundEmpty h
      cases hinv.lock.exclusive hother hheld
      exact absurd rfl hi
    · exact fun _ => .inl (by simp [setAccept])
  case closes =>
    refine ⟨hinv.closes.closed, hinv.closes.unique, ?_⟩
    intro k hk
    have := hinv.closes.dropped k hk
    rw [hincoming] at this
    cases this
  case reasons => exact hinv.reasons.congr Nat.le.refl rfl rfl fun _ => rfl
  case read => exact hinv.read

/-- A call that makes a `Wait`, having found the queue empty. -/
theorem Inv.makeWait (hinv : Inv s) (haccept : s.accepts i = .check) (hincoming : s.incoming = some []) :
    Inv ({ s with cells := s.cells + 1 }.setAccept i (.insert s.cells)) where
  lock := hinv.keepAccept haccept rfl rfl rfl fun _ => rfl
  entries := by
    have hcell : ∀ i' c, (Function.update s.accepts i (.insert s.cells) i').cell? = some c →
        i' = i ∧ c = s.cells ∨ i' ≠ i ∧ (s.accepts i').cell? = some c := by
      intro i' c h
      by_cases hi : i' = i
      · rw [hi, Function.update_self] at h
        exact .inl ⟨hi, (Option.some.inj h).symm⟩
      · rw [Function.update_of_ne hi] at h
        exact .inr ⟨hi, h⟩
    have hregistered : ∀ i', (Function.update s.accepts i (.insert s.cells) i').registered? = (s.accepts i').registered? :=
      view_update _ haccept rfl
    obtain ⟨hlt, hunique, hunset, hentry, hfound, hstoring⟩ := hinv.entries
    constructor
    case lt =>
      intro i' c h
      obtain ⟨-, rfl⟩ | ⟨-, h⟩ := hcell i' c h
      · exact Nat.lt_succ_self _
      · exact Nat.lt_succ_of_lt (hlt i' c h)
    case unique =>
      -- The new cell is larger than those of all other `Wait`s.
      intro i₁ i₂ c h₁ h₂
      obtain ⟨rfl, rfl⟩ | ⟨-, h₁⟩ := hcell i₁ c h₁
      · obtain ⟨rfl, -⟩ | ⟨-, h₂⟩ := hcell i₂ _ h₂
        · rfl
        · exact absurd (hlt i₂ _ h₂) (Nat.lt_irrefl _)
      · obtain ⟨-, rfl⟩ | ⟨-, h₂⟩ := hcell i₂ c h₂
        · exact absurd (hlt i₁ _ h₁) (Nat.lt_irrefl _)
        · exact hunique i₁ i₂ c h₁ h₂
    case unset =>
      intro i' c h hnone
      obtain ⟨-, rfl⟩ | ⟨-, h⟩ := hcell i' c h
      · by_contra hset
        exact absurd (hinv.reasons.lt _ hset) (Nat.lt_irrefl _)
      · rw [setAccept, hregistered] at hnone
        exact hunset i' c h hnone
    all_goals
      simp only [setAccept, hregistered]
    exacts [hentry, hfound, hstoring]
  queue := by
    obtain ⟨hholding, hentry⟩ := hinv.queue
    refine ⟨?_, hentry⟩
    intro i' h
    by_cases hi : i' = i
    · exact hincoming
    · simp only [setAccept, Function.update_of_ne hi] at h
      exact hholding i' h
  closes := hinv.closes.congr rfl rfl (fun _ => rfl) fun _ => rfl
  reasons := hinv.reasons.congr (Nat.le_succ _) rfl rfl fun _ => rfl
  read := hinv.read

/-- A call that registers its `Wait`, and hides none. -/
theorem Inv.register (hinv : Inv s) (haccept : s.accepts i = .insert cell) (hnone : s.mediator.wakers .incoming = none) :
    Inv ({ s with mediator := s.mediator.insert .incoming { waker := cell, reason := cell } }.setAccept i (.unlock cell)) where
  lock := hinv.keepAccept haccept rfl rfl rfl fun _ => rfl
  entries := by
    have hheld : s.holds (.accept i) = true := holds_accept haccept rfl
    have hstoring : ∀ k cell', (s.closes k).storing? ≠ some cell' := by
      intro k cell' h
      have hother : s.holds (.close k) = true := CloseCall.holdsLock_of_storing? h
      cases hinv.lock.exclusive hother hheld
    have hcell : ∀ i', (Function.update s.accepts i (.unlock cell) i').cell? = (s.accepts i').cell? :=
      view_update _ haccept rfl
    have hself : (s.accepts i).registered? = none := by
      rw [haccept]
      rfl
    obtain ⟨hlt, hunique, hunset, -, hfound, -⟩ := hinv.entries
    constructor
    case lt => simpa only [setAccept, hcell] using hlt
    case unique => simpa only [setAccept, hcell] using hunique
    case unset =>
      intro i' c hc hwaiting
      simp only [setAccept, hcell] at hc
      by_cases hi : i' = i
      · subst hi
        exact hunset i' c hc hself
      · simp only [setAccept, Function.update_of_ne hi] at hwaiting
        exact hunset i' c hc hwaiting
    case entry =>
      intro entry h
      simp only [setAccept, WakerMap.insert, Function.update_self, Option.some.injEq] at h
      subst h
      exact ⟨rfl, hunset i cell (by rw [haccept]; rfl) hself, exists_update_self AcceptCall.registered? rfl⟩
    case found =>
      intro i' c hregistered hreasons
      by_cases hi : i' = i
      · subst hi
        simp only [setAccept, Function.update_self] at hregistered
        cases hregistered
        exact .inl (by simp [setAccept, WakerMap.insert])
      · -- No other `Wait` was there without a reason.
        simp only [setAccept, Function.update_of_ne hi] at hregistered
        obtain hentry | ⟨k, hk⟩ := hfound i' c hregistered hreasons
        · cases hnone.symm.trans hentry
        · exact absurd hk (hstoring k c)
    case storing => exact fun k c hk => absurd hk (hstoring k c)
  queue := by
    have hincoming := hinv.queue.holding i (by rw [haccept]; rfl)
    have hqueue : s.incoming ≠ none := by
      rw [hincoming]
      simp
    exact ⟨fun _ _ => hincoming, fun _ => .inl hqueue⟩
  closes := hinv.closes.congr rfl rfl (fun _ => rfl) fun _ => rfl
  reasons := hinv.reasons.congr Nat.le.refl rfl rfl fun _ => rfl
  read := hinv.read

/-- A `Wait` that returns. -/
theorem Inv.leaveWait (hinv : Inv s) (haccept : s.accepts i = .load cell) (hset : s.mediator.reasons cell ≠ .none)
    (hnext : accept = .lock ∨ accept = .panicked) : Inv (s.setAccept i accept) where
  lock := by
    refine hinv.keepAccept haccept rfl rfl rfl ?_
    obtain rfl | rfl := hnext <;> intro h <;> cases h
  entries := by
    have hnext : accept.cell? = none ∧ accept.registered? = none := by
      obtain rfl | rfl := hnext <;> exact ⟨rfl, rfl⟩
    -- The call has no `Wait` any more, and the entry of the one it had is gone.
    have hgone : ∀ i' c, (s.accepts i').registered? = some c → s.mediator.reasons c = .none → i' ≠ i := by
      rintro i' c h hunset rfl
      rw [haccept] at h
      cases h
      exact hset hunset
    have hcell : ∀ i' c, (Function.update s.accepts i accept i').cell? = some c →
        i' ≠ i ∧ (s.accepts i').cell? = some c := by
      intro i' c h
      have hi : i' ≠ i := by
        rintro rfl
        rw [Function.update_self, hnext.1] at h
        cases h
      rw [Function.update_of_ne hi] at h
      exact ⟨hi, h⟩
    have hstays : ∀ c, s.mediator.reasons c = .none → (∃ i', (s.accepts i').registered? = some c) →
        ∃ i', (Function.update s.accepts i accept i').registered? = some c := by
      rintro c hunset ⟨i', hi'⟩
      exact ⟨i', by rwa [Function.update_of_ne (hgone i' c hi' hunset)]⟩
    obtain ⟨hlt, hunique, hunset, hentry, hfound, hstoring⟩ := hinv.entries
    constructor
    case lt => exact fun i' c h => hlt i' c (hcell i' c h).2
    case unique => exact fun i₁ i₂ c h₁ h₂ => hunique i₁ i₂ c (hcell i₁ c h₁).2 (hcell i₂ c h₂).2
    case unset =>
      intro i' c h hnone
      obtain ⟨hi, h⟩ := hcell i' c h
      simp only [setAccept, Function.update_of_ne hi] at hnone
      exact hunset i' c h hnone
    case entry =>
      intro entry h
      obtain ⟨hwaker, hreasons, hwaiting⟩ := hentry entry h
      exact ⟨hwaker, hreasons, hstays _ hreasons hwaiting⟩
    case found =>
      intro i' c h
      have hi : i' ≠ i := by
        rintro rfl
        simp only [setAccept, Function.update_self, hnext.2] at h
        cases h
      simp only [setAccept, Function.update_of_ne hi] at h
      exact hfound i' c h
    case storing =>
      intro k c h
      obtain ⟨hnone, hreasons, hwaiting⟩ := hstoring k c h
      exact ⟨hnone, hreasons, hstays _ hreasons hwaiting⟩
  queue := by
    refine hinv.queue.congr rfl rfl (view_of_update _ haccept ?_) fun _ h => h
    obtain rfl | rfl := hnext <;> intro h <;> cases h
  closes := hinv.closes.congr rfl rfl (fun _ => rfl) fun _ => rfl
  reasons := hinv.reasons.congr Nat.le.refl rfl rfl fun _ => rfl
  read := hinv.read

end Accept

/-! ### `close` -/

section Close
variable {old close : CloseCall} {cell : Cell}

theorem holds_close (hclose : s.closes k = old) (hold : old.holdsLock = true) : s.holds (.close k) = true := by
  rwa [holds, hclose]

theorem holds_setClose_of_ne {holder : ListenerHolder} (hholder : holder ≠ .close k)
    (h : (s.setClose k close).holds holder = true) : s.holds holder = true := by
  obtain i | k' := holder
  · exact h
  · have hk : k' ≠ k := fun hk => hholder (hk ▸ rfl)
    simpa only [holds, setClose, Function.update_of_ne hk] using h

theorem Inv.keepClose (hinv : Inv s) (hclose : s.closes k = old) (hlock : t.lock = s.lock)
    (haccepts : t.accepts = s.accepts) (hcloses : t.closes = Function.update s.closes k close)
    (hholds : close.holdsLock = true → old.holdsLock = true) : Held t.lock t.holds := by
  rw [hlock]
  refine hinv.lock.keep ?_
  rintro (i | k') h
  · simpa only [holds, haccepts] using h
  · rw [holds, hcloses] at h
    exact view_of_update CloseCall.holdsLock hclose hholds k' h

/-- The place of a call in `remove` is not lost by a step of another one, or of this one from elsewhere. -/
theorem remove_setClose (hclose : s.closes k = old) (hold : old ≠ .remove) (k' : Nat) (hk' : s.closes k' = .remove) :
    Function.update s.closes k close k' = .remove := by
  have hk : k' ≠ k := by
    rintro rfl
    exact hold (hclose.symm.trans hk')
  rwa [Function.update_of_ne hk]

/-- A call that neither touches the queue nor the map. -/
theorem Inv.moveClose (hinv : Inv s) (hclose : s.closes k = old) {lock : Option ListenerHolder}
    (hlock : Held lock ({ s with lock }.setClose k close).holds) (hfirst : close.first = old.first)
    (hdropped : close.hasDropped = old.hasDropped) (hremove : old ≠ .remove) (hstoring : close.storing? = old.storing?)
    (hwaking : close.waking? = old.waking?) : Inv ({ s with lock }.setClose k close) where
  lock := hlock
  entries := hinv.entries.congr rfl rfl rfl (fun _ => rfl) (fun _ => rfl) (view_update _ hclose hstoring)
  queue := hinv.queue.congr rfl rfl (fun _ h => h) (remove_setClose hclose hremove)
  closes := hinv.closes.congr rfl rfl (view_update _ hclose hfirst) (view_update _ hclose hdropped)
  reasons := hinv.reasons.congr Nat.le.refl rfl rfl (view_update _ hclose hwaking)
  read := hinv.read

/-- A step of a call that is not the first one. -/
theorem Inv.moveLater (hinv : Inv s) {old close : CloseCall} (hclose : s.closes k = old) (hold : old.first = false)
    (hnew : close.first = false) : Inv (s.setClose k close) := by
  have hview : ∀ {p : CloseCall}, p.first = false →
      p.holdsLock = false ∧ p.hasDropped = false ∧ p ≠ .remove ∧ p.storing? = none ∧ p.waking? = none := by
    intro p hp
    cases p <;> first | exact ⟨rfl, rfl, by simp, rfl, rfl⟩ | cases hp
  obtain ⟨hlock, hdropped, -, hstoring, hwaking⟩ := hview hnew
  obtain ⟨-, hdropped', hremove, hstoring', hwaking'⟩ := hview hold
  refine hinv.moveClose hclose ?_ (hnew.trans hold.symm) (hdropped.trans hdropped'.symm) hremove
    (hstoring.trans hstoring'.symm) (hwaking.trans hwaking'.symm)
  refine hinv.keepClose hclose rfl rfl rfl fun h => ?_
  rw [hlock] at h
  cases h

/-- The call that sets the flag. -/
theorem Inv.setFlag (hinv : Inv s) (hclose : s.closes k = .exchange) (hopen : s.closed = false)
    (hread : s.reader.inBatch = false) : Inv ({ s with closed := true }.setClose k .lock) where
  lock := hinv.keepClose hclose rfl rfl rfl fun h => by cases h
  entries := hinv.entries.congr rfl rfl rfl (fun _ => rfl) (fun _ => rfl) (view_update _ hclose rfl)
  queue := hinv.queue.congr rfl rfl (fun _ h => h) (remove_setClose hclose (by simp))
  closes := by
    have hnone : ∀ k', (s.closes k').first ≠ true := by
      intro k' h
      have := hinv.closes.closed k' h
      rw [hopen] at this
      cases this
    have hself : ∀ k', (Function.update s.closes k .lock k').first = true → k' = k := by
      intro k' h
      by_contra hk
      rw [Function.update_of_ne hk] at h
      exact hnone k' h
    refine ⟨fun _ _ => rfl, fun k₁ k₂ h₁ h₂ => (hself k₁ h₁).trans (hself k₂ h₂).symm, ?_⟩
    exact fun k' h => hinv.closes.dropped k' (view_of_update _ hclose (fun h => by cases h) k' h)
  reasons := hinv.reasons.congr Nat.le.refl rfl rfl (view_update _ hclose rfl)
  read := fun _ => hread

/-- The call that takes the queue away. -/
theorem Inv.dropIncoming (hinv : Inv s) (hclose : s.closes k = .dropIncoming) :
    Inv ({ s with incoming := none }.setClose k .remove) where
  lock := hinv.keepClose hclose rfl rfl rfl fun _ => rfl
  entries := hinv.entries.congr rfl rfl rfl (fun _ => rfl) (fun _ => rfl) (view_update _ hclose rfl)
  queue := by
    have hheld : s.holds (.close k) = true := holds_close hclose rfl
    constructor
    · intro i h
      have hother : s.holds (.accept i) = true := AcceptCall.holdsLock_of_hasFoundEmpty h
      cases hinv.lock.exclusive hother hheld
    · exact fun _ => .inr ⟨k, Function.update_self ..⟩
  closes := by
    have hfirst : ∀ k', (Function.update s.closes k .remove k').first = (s.closes k').first :=
      view_update _ hclose rfl
    refine ⟨?_, ?_, fun _ _ => rfl⟩
    all_goals
      simp only [setClose, hfirst]
    exacts [hinv.closes.closed, hinv.closes.unique]
  reasons := hinv.reasons.congr Nat.le.refl rfl rfl (view_update _ hclose rfl)
  read := hinv.read

/-- The call that finds no entry. -/
theorem Inv.findNone (hinv : Inv s) (hclose : s.closes k = .remove) (hnone : s.mediator.wakers .incoming = none) :
    Inv (s.setClose k .unlock) where
  lock := hinv.keepClose hclose rfl rfl rfl fun _ => rfl
  entries := hinv.entries.congr rfl rfl rfl (fun _ => rfl) (fun _ => rfl) (view_update _ hclose rfl)
  queue := ⟨hinv.queue.holding, fun h => absurd hnone h⟩
  closes := hinv.closes.congr rfl rfl (view_update _ hclose rfl) (view_update _ hclose rfl)
  reasons := hinv.reasons.congr Nat.le.refl rfl rfl (view_update _ hclose rfl)
  read := hinv.read

/-- The call that takes the entry. -/
theorem Inv.takeEntry (hinv : Inv s) {entry : WakerWithReason} (hclose : s.closes k = .remove)
    (hentry : s.mediator.wakers .incoming = some entry) :
    Inv ({ s with mediator := s.mediator.remove .incoming }.setClose k (.store entry.reason)) where
  lock := hinv.keepClose hclose rfl rfl rfl fun _ => rfl
  entries := by
    obtain ⟨hlt, hunique, hunset, hentries, hfound, hstoring⟩ := hinv.entries
    obtain ⟨-, hreasons, hwaiting⟩ := hentries entry hentry
    refine ⟨hlt, hunique, hunset, ?_, ?_, ?_⟩
    · intro entry' h
      simp [setClose, WakerMap.remove] at h
    · intro i c hregistered hunset
      obtain hsome | hstoring := hfound i c hregistered hunset
      · -- The entry is in the hand of the call now.
        cases hentry.symm.trans hsome
        exact .inr (exists_update_self CloseCall.storing? rfl)
      · exact .inr (exists_update _ hclose (by simp [CloseCall.storing?]) hstoring)
    · intro k' c h
      by_cases hk : k' = k
      · subst hk
        simp only [setClose, Function.update_self] at h
        cases h
        exact ⟨by simp [setClose, WakerMap.remove], hreasons, hwaiting⟩
      · simp only [setClose, Function.update_of_ne hk] at h
        cases hentry.symm.trans (hstoring k' c h).1
  queue := by
    refine ⟨hinv.queue.holding, ?_⟩
    simp [setClose, WakerMap.remove]
  closes := hinv.closes.congr rfl rfl (view_update _ hclose rfl) (view_update _ hclose rfl)
  reasons := hinv.reasons.congr Nat.le.refl rfl rfl (view_update _ hclose rfl)
  read := hinv.read

/-- The call that leaves the reason. -/
theorem Inv.storeReason (hinv : Inv s) (hclose : s.closes k = .store cell) :
    Inv ({ s with mediator := s.mediator.store cell .on }.setClose k (.wake cell)) where
  lock := hinv.keepClose hclose rfl rfl rfl fun _ => rfl
  entries := by
    have hheld : s.holds (.close k) = true := holds_close hclose rfl
    have halone : ∀ k' cell', (s.closes k').storing? = some cell' → k' = k := by
      intro k' cell' h
      have hother : s.holds (.close k') = true := CloseCall.holdsLock_of_storing? h
      cases hinv.lock.exclusive hother hheld
      rfl
    obtain ⟨hlt, hunique, hunset, hentries, hfound, hstoring⟩ := hinv.entries
    obtain ⟨hnone, -, i, hi⟩ := hstoring k cell (by rw [hclose]; rfl)
    refine ⟨hlt, hunique, ?_, ?_, ?_, ?_⟩
    · intro i' c hc hwaiting
      have hne : c ≠ cell := by
        rintro rfl
        obtain rfl := hunique i' i c hc (AcceptCall.cell?_of_registered? hi)
        cases hi.symm.trans hwaiting
      exact (Function.update_of_ne hne ..).trans (hunset i' c hc hwaiting)
    · intro entry h
      cases hnone.symm.trans h
    · intro i' c hregistered hreasons
      have hne : c ≠ cell := by
        rintro rfl
        cases (Function.update_self ..).symm.trans hreasons
      obtain hsome | ⟨k', hk'⟩ := hfound i' c hregistered ((Function.update_of_ne hne ..).symm.trans hreasons)
      · exact .inl hsome
      · -- The call that holds the lock is this one, and it stores in the other cell.
        obtain rfl := halone k' c hk'
        rw [hclose] at hk'
        cases hk'
        exact absurd rfl hne
    · intro k' c h
      have hk : k' ≠ k := by
        rintro rfl
        simp only [setClose, Function.update_self] at h
        cases h
      simp only [setClose, Function.update_of_ne hk] at h
      exact absurd (halone k' c h) hk
  queue := hinv.queue.congr rfl rfl (fun _ h => h) (remove_setClose hclose (by simp))
  closes := hinv.closes.congr rfl rfl (view_update _ hclose rfl) (view_update _ hclose rfl)
  reasons := by
    obtain ⟨-, -, i, hi⟩ := hinv.entries.storing k cell (by rw [hclose]; rfl)
    have hcell := hinv.entries.lt i cell (AcceptCall.cell?_of_registered? hi)
    constructor
    case lt =>
      intro c hc
      by_cases hne : c = cell
      · exact hne ▸ hcell
      · exact hinv.reasons.lt c fun h => hc ((Function.update_of_ne hne ..).trans h)
    case on =>
      intro c hc
      by_cases hne : c = cell
      · exact hne ▸ Function.update_self ..
      · have hold := hinv.reasons.on c fun h => hc ((Function.update_of_ne hne ..).trans h)
        exact (Function.update_of_ne hne ..).trans hold
    case woken =>
      intro c hc
      by_cases hne : c = cell
      · subst hne
        exact .inr (exists_update_self CloseCall.waking? rfl)
      · obtain hw | hwaking := hinv.reasons.woken c fun h => hc ((Function.update_of_ne hne ..).trans h)
        · exact .inl hw
        · exact .inr (exists_update _ hclose (by simp [CloseCall.waking?]) hwaking)
  read := hinv.read

/-- The call that wakes the task. -/
theorem Inv.wakeTask (hinv : Inv s) (hclose : s.closes k = .wake cell) :
    Inv ({ s with mediator := s.mediator.wake cell }.setClose k .unlock) where
  lock := hinv.keepClose hclose rfl rfl rfl fun _ => rfl
  entries := hinv.entries.congr rfl rfl rfl (fun _ => rfl) (fun _ => rfl) (view_update _ hclose rfl)
  queue := hinv.queue.congr rfl rfl (fun _ h => h) (remove_setClose hclose (by simp))
  closes := hinv.closes.congr rfl rfl (view_update _ hclose rfl) (view_update _ hclose rfl)
  reasons := by
    refine ⟨hinv.reasons.lt, hinv.reasons.on, ?_⟩
    intro c hc
    obtain hw | hwaking := hinv.reasons.woken c hc
    · exact .inl (List.mem_cons_of_mem _ hw)
    · by_cases hne : c = cell
      · exact .inl (hne ▸ List.mem_cons_self)
      · refine .inr (exists_update _ hclose ?_ hwaking)
        intro h
        exact hne (Option.some.inj h).symm
  read := hinv.read

end Close

/-! ### `read`, and what arrives -/

theorem Inv.setReads (hinv : Inv s) {connsRead : Batching.State} {reader : ReadCall}
    (hread : s.closed = true → reader.inBatch = false) : Inv { s with connsRead, reader } where
  lock := hinv.lock.keep fun other h => by cases other <;> exact h
  entries := hinv.entries.congr rfl rfl rfl (fun _ => rfl) (fun _ => rfl) fun _ => rfl
  queue := hinv.queue.congr rfl rfl (fun _ h => h) fun _ h => h
  closes := hinv.closes.congr rfl rfl (fun _ => rfl) fun _ => rfl
  reasons := hinv.reasons.congr Nat.le.refl rfl rfl fun _ => rfl
  read := hread

theorem inv_readStep {choice : ReadChoice} (hinv : Inv s) (h : s.readStep choice = some t) : Inv t := by
  -- Behind the flag the task is not in the batch, and before it nothing is to be said.
  have hopen : s.reader.inBatch = true → s.closed = true → False := fun hbatch hclosed => by
    rw [hinv.read hclosed] at hbatch
    cases hbatch
  unfold readStep at h
  cases hreader : s.reader with
  | idle => simp [hreader] at h
  | returned fut => simp [hreader] at h
  | handleStatus =>
    simp only [hreader, Option.some.injEq] at h
    subst h
    exact hinv.setReads fun hclosed => by simp [hclosed, ReadCall.inBatch]
  | wait =>
    simp only [hreader, Option.map_eq_some_iff] at h
    obtain ⟨connsRead, -, rfl⟩ := h
    exact hinv.setReads fun hclosed => (hopen (by rw [hreader]; rfl) hclosed).elim
  | polling =>
    have hopen : s.closed = true → False := hopen (by rw [hreader]; rfl)
    simp only [hreader] at h
    split at h
    · split at h
      · cases h
      all_goals
        cases h
        exact hinv.setReads fun hclosed => (hopen hclosed).elim
    · obtain ⟨connsRead, -, rfl⟩ := Option.map_eq_some_iff.mp h
      exact hinv.setReads fun hclosed => (hopen hclosed).elim
  | suspended =>
    simp only [hreader, Option.some.injEq] at h
    subst h
    exact hinv.setReads fun hclosed => (hopen (by rw [hreader]; rfl) hclosed).elim
  | handleStatusAgain fut =>
    simp only [hreader] at h
    split at h
    · cases h
      exact hinv.setReads fun _ => rfl
    · next hclosed =>
      split at h
      all_goals
        cases h
        exact hinv.setReads fun hclosed' => absurd hclosed' hclosed

/-- A connection comes while nobody has the lock. -/
theorem Inv.arrive (hinv : Inv s) {conn writes : Nat} {incoming : List Nat} (hfree : s.lock = none)
    (hincoming : s.incoming = some incoming) : Inv { s with incoming := some (incoming ++ [conn]), writes } where
  lock := hinv.lock.keep fun other h => by cases other <;> exact h
  entries := hinv.entries.congr rfl rfl rfl (fun _ => rfl) (fun _ => rfl) fun _ => rfl
  queue := by
    constructor
    · intro i h
      have hheld : s.holds (.accept i) = true := AcceptCall.holdsLock_of_hasFoundEmpty h
      exact absurd hheld (hinv.lock.not_holds hfree)
    · exact fun _ => .inl (by simp)
  closes := by
    refine ⟨hinv.closes.closed, hinv.closes.unique, ?_⟩
    intro k hk
    have := hinv.closes.dropped k hk
    rw [hincoming] at this
    cases this
  reasons := hinv.reasons.congr Nat.le.refl rfl rfl fun _ => rfl
  read := hinv.read

/-- A `write` notifies whoever is registered. -/
theorem Inv.notifyIncoming (hinv : Inv s) {writes : Nat} :
    Inv { s with mediator := (s.mediator.notifyOne .incoming .on).1, writes } := by
  cases hentry : s.mediator.wakers .incoming with
  | none =>
    have hnone : (s.mediator.notifyOne .incoming .on).1 = s.mediator := by
      simp only [WakerMap.notifyOne, hentry]
    rw [hnone]
    constructor
    case lock => exact hinv.lock.keep fun other h => by cases other <;> exact h
    case entries => exact hinv.entries.congr rfl rfl rfl (fun _ => rfl) (fun _ => rfl) fun _ => rfl
    case queue => exact hinv.queue.congr rfl rfl (fun _ h => h) fun _ h => h
    case closes => exact hinv.closes.congr rfl rfl (fun _ => rfl) fun _ => rfl
    case reasons => exact hinv.reasons.congr Nat.le.refl rfl rfl fun _ => rfl
    case read => exact hinv.read
  | some entry =>
    have hnotified : (s.mediator.notifyOne .incoming .on).1 =
        ((s.mediator.remove .incoming).store entry.reason .on).wake entry.waker := by
      simp only [WakerMap.notifyOne, hentry]
    rw [hnotified]
    obtain ⟨hwaker, hunset, i, hi⟩ := hinv.entries.entry entry hentry
    constructor
    case lock => exact hinv.lock.keep fun other h => by cases other <;> exact h
    case entries =>
      obtain ⟨hlt, hunique, hunset, hentries, hfound, hstoring⟩ := hinv.entries
      refine ⟨hlt, hunique, ?_, ?_, ?_, ?_⟩
      · intro i' c hc hwaiting
        have hne : c ≠ entry.reason := by
          rintro rfl
          obtain rfl := hunique i' i _ hc (AcceptCall.cell?_of_registered? hi)
          cases hi.symm.trans hwaiting
        exact (Function.update_of_ne hne ..).trans (hunset i' c hc hwaiting)
      · intro entry' h
        simp [WakerMap.remove, WakerMap.store, WakerMap.wake] at h
      · intro i' c hregistered hreasons
        have hne : c ≠ entry.reason := by
          rintro rfl
          cases (Function.update_self ..).symm.trans hreasons
        obtain hsome | hstoring := hfound i' c hregistered ((Function.update_of_ne hne ..).symm.trans hreasons)
        · cases hentry.symm.trans hsome
          exact absurd rfl hne
        · exact .inr hstoring
      · intro k c h
        cases hentry.symm.trans (hstoring k c h).1
    case queue =>
      refine ⟨hinv.queue.holding, ?_⟩
      simp [WakerMap.remove, WakerMap.store, WakerMap.wake]
    case closes => exact hinv.closes.congr rfl rfl (fun _ => rfl) fun _ => rfl
    case reasons =>
      have hcell := hinv.entries.lt i entry.reason (AcceptCall.cell?_of_registered? hi)
      constructor
      case lt =>
        intro c hc
        by_cases hne : c = entry.reason
        · exact hne ▸ hcell
        · exact hinv.reasons.lt c fun h => hc ((Function.update_of_ne hne ..).trans h)
      case on =>
        intro c hc
        by_cases hne : c = entry.reason
        · exact hne ▸ Function.update_self ..
        · have hold := hinv.reasons.on c fun h => hc ((Function.update_of_ne hne ..).trans h)
          exact (Function.update_of_ne hne ..).trans hold
      case woken =>
        intro c hc
        by_cases hne : c = entry.reason
        · rw [hne, ← hwaker]
          exact .inl List.mem_cons_self
        · obtain hw | hwaking := hinv.reasons.woken c fun h => hc ((Function.update_of_ne hne ..).trans h)
          · exact .inl (List.mem_cons_of_mem _ hw)
          · exact .inr hwaking
    case read => exact hinv.read

/-! ### Runs -/

theorem inv_acceptStep (hinv : Inv s) (hok : s.nobodyHidden (.accept i) = true) (h : s.acceptStep i = some t) : Inv t := by
  unfold acceptStep at h
  cases haccept : s.accepts i with
  | idle => simp [haccept] at h
  | returned conn => simp [haccept] at h
  | panicked => simp [haccept] at h
  | lock =>
    simp only [haccept, Option.ite_none_right_eq_some, Option.some.injEq] at h
    obtain ⟨hfree, rfl⟩ := h
    refine hinv.moveAccept haccept ?_ rfl rfl fun h => by cases h
    exact hinv.lock.acquire hfree fun other hother h => holds_setAccept_of_ne hother h
  | check =>
    simp only [haccept] at h
    split at h
    · cases h
      refine hinv.moveAccept haccept ?_ rfl rfl fun h => by cases h
      have hheld : s.holds (.accept i) = true := holds_accept haccept rfl
      refine hinv.lock.release hheld ?_ fun other hother h => holds_setAccept_of_ne hother h
      simp [holds, setAccept, AcceptCall.holdsLock]
    · next hincoming =>
      cases h
      exact hinv.takeConn haccept hincoming
    · next hincoming =>
      cases h
      exact hinv.makeWait haccept hincoming
  | insert cell =>
    simp only [haccept, Option.some.injEq] at h
    subst h
    simp only [nobodyHidden, haccept, Option.isNone_iff_eq_none] at hok
    exact hinv.register haccept hok
  | unlock cell =>
    simp only [haccept, Option.some.injEq] at h
    subst h
    refine hinv.moveAccept haccept ?_ rfl rfl fun h => by cases h
    have hheld : s.holds (.accept i) = true := holds_accept haccept rfl
    refine hinv.lock.release hheld ?_ fun other hother h => holds_setAccept_of_ne hother h
    simp [holds, setAccept, AcceptCall.holdsLock]
  | load cell =>
    have hset : ∀ result, s.mediator.load cell = some result → s.mediator.reasons cell ≠ .none := by
      intro result hload hunset
      simp only [WakerMap.load, hunset] at hload
      cases hload
    simp only [haccept] at h
    split at h
    · cases h
      refine hinv.moveAccept haccept ?_ rfl rfl fun h => by cases h
      exact hinv.keepAccept haccept rfl rfl rfl fun h => by cases h
    · next hload =>
      cases h
      exact hinv.leaveWait haccept (hset _ hload) (.inl rfl)
    · next hload =>
      cases h
      exact hinv.leaveWait haccept (hset _ hload) (.inr rfl)
  | pending cell =>
    simp only [haccept, Option.some.injEq] at h
    subst h
    refine hinv.moveAccept haccept ?_ rfl rfl fun h => by cases h
    exact hinv.keepAccept haccept rfl rfl rfl fun h => by cases h

theorem inv_closeStep {c : Nat} (hinv : Inv s) (hok : s.nobodyHidden (.close k c) = true) (h : s.closeStep k c = some t) :
    Inv t := by
  unfold closeStep at h
  cases hclose : s.closes k with
  | idle => simp [hclose] at h
  | returned => simp [hclose] at h
  | returnedLater => simp [hclose] at h
  | exchange =>
    simp only [hclose] at h
    split at h
    · cases h
      exact hinv.moveLater hclose rfl rfl
    · next hopen =>
      cases h
      have hopen : s.closed = false := Bool.not_eq_true _ ▸ hopen
      refine hinv.setFlag hclose hopen ?_
      simpa [nobodyHidden, hclose, hopen] using hok
  | lock =>
    simp only [hclose, Option.ite_none_right_eq_some, Option.some.injEq] at h
    obtain ⟨hfree, rfl⟩ := h
    refine hinv.moveClose hclose ?_ rfl rfl (by simp) rfl rfl
    exact hinv.lock.acquire hfree fun other hother h => holds_setClose_of_ne hother h
  | dropIncoming =>
    simp only [hclose, Option.some.injEq] at h
    subst h
    exact hinv.dropIncoming hclose
  | remove =>
    simp only [hclose] at h
    split at h
    · next hnone =>
      cases h
      exact hinv.findNone hclose hnone
    · next entry hentry =>
      cases h
      exact hinv.takeEntry hclose hentry
  | store cell =>
    simp only [hclose, Option.some.injEq] at h
    subst h
    exact hinv.storeReason hclose
  | wake cell =>
    simp only [hclose, Option.some.injEq] at h
    subst h
    exact hinv.wakeTask hclose
  | unlock =>
    simp only [hclose, Option.some.injEq] at h
    subst h
    refine hinv.moveClose hclose ?_ rfl rfl (by simp) rfl rfl
    have hheld : s.holds (.close k) = true := holds_close hclose rfl
    refine hinv.lock.release hheld ?_ fun other hother h => holds_setClose_of_ne hother h
    simp [holds, setClose, CloseCall.holdsLock]
  | closeReads =>
    simp only [hclose, Option.map_eq_some_iff] at h
    obtain ⟨connsRead, -, rfl⟩ := h
    exact (hinv.setReads hinv.read).moveLater hclose rfl rfl
  | inCloseReads c' =>
    simp only [hclose, Option.ite_none_right_eq_some, Option.some.injEq] at h
    obtain ⟨-, rfl⟩ := h
    exact hinv.moveLater hclose rfl rfl

theorem inv_step {a : ListenerAction} (hinv : Inv s) (hok : s.nobodyHidden a = true) (h : step s a = some t) : Inv t := by
  cases a with
  | callAccept i =>
    simp only [step, Option.ite_none_right_eq_some, Option.some.injEq] at h
    obtain ⟨haccept, rfl⟩ := h
    refine hinv.moveAccept haccept ?_ rfl rfl fun h => by cases h
    exact hinv.keepAccept haccept rfl rfl rfl fun h => by cases h
  | accept i => exact inv_acceptStep hinv hok h
  | callClose k =>
    simp only [step, Option.ite_none_right_eq_some, Option.some.injEq] at h
    obtain ⟨hclose, rfl⟩ := h
    refine hinv.moveClose hclose ?_ rfl rfl (by simp) rfl rfl
    exact hinv.keepClose hclose rfl rfl rfl fun h => by cases h
  | close k c => exact inv_closeStep hinv hok h
  | callRead =>
    simp only [step] at h
    split at h
    · cases h
      exact hinv.setReads fun _ => rfl
    · cases h
      exact hinv.setReads fun _ => rfl
    · cases h
  | read choice => exact inv_readStep hinv h
  | arrive conn =>
    simp only [step] at h
    split at h
    · next hfree hincoming =>
      cases h
      exact hinv.arrive hfree hincoming
    · cases h
  | notifyIncoming =>
    simp only [step, Option.ite_none_left_eq_some, Option.some.injEq] at h
    obtain ⟨-, rfl⟩ := h
    exact hinv.notifyIncoming
  | push c | wake c id | batch c choice =>
    simp only [step, Option.map_eq_some_iff] at h
    obtain ⟨connsRead, -, rfl⟩ := h
    exact hinv.setReads hinv.read

/-! ### Nobody is left suspended -/

/-- Behind the first `close`, whoever is registered has been notified. -/
theorem Inv.notified {cell : Cell} (hinv : Inv s) (hclose : s.closes k = .returned)
    (hregistered : (s.accepts i).registered? = some cell) :
    s.mediator.reasons cell = .on ∧ cell ∈ s.mediator.woken := by
  have hfirst : (s.closes k).first = true := by
    rw [hclose]
    rfl
  -- No other call is in the branch of the first one.
  have hothers : ∀ k', s.closes k' ≠ .returned → (s.closes k').first ≠ true := by
    intro k' hk' h
    cases hinv.closes.unique k' k h hfirst
    exact hk' hclose
  have hnone : s.mediator.wakers .incoming = none := by
    by_contra hsome
    obtain hincoming | ⟨k', hk'⟩ := hinv.queue.entry hsome
    · exact hincoming (hinv.closes.dropped k (by rw [hclose]; rfl))
    · exact hothers k' (by simp [hk']) (by rw [hk']; rfl)
  have hset : s.mediator.reasons cell ≠ .none := by
    intro hunset
    obtain hentry | ⟨k', hk'⟩ := hinv.entries.found i cell hregistered hunset
    · rw [hnone] at hentry
      cases hentry
    · cases hp : s.closes k' with
      | store _ => exact hothers k' (by simp [hp]) (by rw [hp]; rfl)
      | _ => simp [hp, CloseCall.storing?] at hk'
  refine ⟨hinv.reasons.on cell hset, ?_⟩
  obtain hwoken | ⟨k', hk'⟩ := hinv.reasons.woken cell hset
  · exact hwoken
  · cases hp : s.closes k' with
    | wake _ => exact absurd (by rw [hp]; rfl) (hothers k' (by simp [hp]))
    | _ => simp [hp, CloseCall.waking?] at hk'

/-- When the first `close` has returned: every `accept` that is suspended has been notified, and the next one to look at
    the queue returns `None`; nobody waits for the batch in `read`, and the next step of a task in `read` is to return the
    error. -/
theorem close_releases (s : ListenerCalls) (h : Reaches step (fun s a => s.nobodyHidden a = true) {} s) (k : Nat)
    (hclose : s.closes k = .returned) :
    (∀ i cell, s.accepts i = .load cell ∨ s.accepts i = .pending cell →
      s.mediator.reasons cell = .on ∧ cell ∈ s.mediator.woken) ∧
    (∀ i t, s.accepts i = .check → step s (.accept i) = some t → t.accepts i = .returned none) ∧
    s.reader.inBatch = false ∧
    ∀ choice t, step s (.read choice) = some t → t.reader = .returned none := by
  have hinv : Inv s := h.invariant inv_init fun hinv hok hstep => inv_step hinv hok hstep
  have hclosed : s.closed = true := hinv.closes.closed k (by rw [hclose]; rfl)
  have hincoming : s.incoming = none := hinv.closes.dropped k (by rw [hclose]; rfl)
  have hbatch := hinv.read hclosed
  refine ⟨?_, ?_, hbatch, ?_⟩
  · intro i cell haccept
    have hregistered : (s.accepts i).registered? = some cell := by
      obtain haccept | haccept := haccept <;> rw [haccept] <;> rfl
    exact hinv.notified hclose hregistered
  · intro i t haccept hstep
    simp only [step, acceptStep, haccept, hincoming, Option.some.injEq] at hstep
    subst hstep
    exact Function.update_self ..
  · intro choice t hstep
    cases hreader : s.reader with
    | wait | polling | suspended =>
      rw [hreader] at hbatch
      cases hbatch
    | idle | returned fut => simp [step, readStep, hreader] at hstep
    | handleStatus | handleStatusAgain fut =>
      simp only [step, readStep, hreader, hclosed, if_true, Option.some.injEq] at hstep
      subst hstep
      rfl

/-- The call that sets the flag does nothing for the task in `read`. -/
theorem first_close_passes_read {c : Nat} (hclose : (s.closes k).first = true ∨ s.closes k = .exchange ∧ s.closed = false)
    (h : s.closeStep k c = some t) : t.connsRead = s.connsRead ∧ t.reader = s.reader := by
  unfold closeStep at h
  cases hp : s.closes k with
  | idle | returned | returnedLater => simp [hp] at h
  | closeReads | inCloseReads c' => simp [hp, CloseCall.first] at hclose
  | exchange =>
    have hopen : s.closed = false := by simpa [hp, CloseCall.first] using hclose
    simp only [hp, hopen, Bool.false_eq_true, if_false, Option.some.injEq] at h
    subst h
    exact ⟨rfl, rfl⟩
  | lock =>
    simp only [hp, Option.ite_none_right_eq_some, Option.some.injEq] at h
    obtain ⟨-, rfl⟩ := h
    exact ⟨rfl, rfl⟩
  | remove =>
    simp only [hp] at h
    split at h
    all_goals
      cases h
      exact ⟨rfl, rfl⟩
  | dropIncoming | store cell | wake cell | unlock =>
    simp only [hp, Option.some.injEq] at h
    subst h
    exact ⟨rfl, rfl⟩

/-- A call of `accept` up to its suspension. -/
def suspendAccept (i : Nat) : List ListenerAction := [.callAccept i] ++ List.replicate 5 (.accept i)

/-- A call of `read` up to its suspension. -/
def suspendRead : List ListenerAction := [.callRead] ++ List.replicate 9 (.read {})

/-- One task is suspended in `accept`, and another has an answer of the batch in `read` and has not checked the status
    again, when the listener is closed. -/
def closeBoth : List ListenerAction :=
  suspendAccept 0 ++ [.push 0] ++ List.replicate 4 (.batch 0 {}) ++ [.callRead] ++
    List.replicate 15 (.read { batch := { ready := true } }) ++ [.callClose 0] ++ List.replicate 7 (.close 0 0)

theorem close_releases_both :
    ∃ s, runIf step nobodyHidden {} closeBoth = some s ∧ s.closes 0 = .returned ∧ s.accepts 0 = .pending 0 ∧
      s.mediator.reasons 0 = .on ∧ s.reader = .handleStatusAgain (some 0) ∧
      ∀ choice t, step s (.read choice) = some t → t.reader = .returned none := by
  obtain ⟨s, hrun, hclose, haccept, hreader⟩ : ∃ s, runIf step nobodyHidden {} closeBoth = some s ∧
      s.closes 0 = .returned ∧ s.accepts 0 = .pending 0 ∧ s.reader = .handleStatusAgain (some 0) := ⟨_, rfl, rfl, rfl, rfl⟩
  have hreleases := close_releases s (.of_runIf closeBoth (fun _ _ h => h) hrun) 0 hclose
  exact ⟨s, hrun, hclose, haccept, (hreleases.1 0 0 (.inr haccept)).1, hreader, hreleases.2.2.2⟩

/-- The first `close` passes by a task that is suspended in `read`, and by an `accept` whose entry another one has
    taken. -/
theorem close_leaves :
    (∃ s, Reachable step {} s ∧ s.closes 0 = .returned ∧ s.reader = .suspended ∧ s.connsRead.woken = false) ∧
    ∃ s, Reachable step {} s ∧ s.closes 0 = .returned ∧ s.accepts 0 = .pending 0 ∧ s.mediator.reasons 0 = .none := by
  constructor
  · exact ⟨_, Reachable.of_run (suspendRead ++ [.callClose 0] ++ List.replicate 5 (.close 0 0)) rfl, rfl, rfl, rfl⟩
  · exact ⟨_, Reachable.of_run (suspendAccept 0 ++ suspendAccept 1 ++ [.callClose 0] ++ List.replicate 7 (.close 0 0)) rfl,
      rfl, rfl, rfl⟩

end ListenerCalls

end Hala.Quic
