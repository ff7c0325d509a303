import Hala.Net.Sockets
import Hala.Theorems.Io.Mio

/-! Who holds the boxes of the driver, in every run of a program of sockets and sleeps. -/

namespace Hala.Net
open Io Machine Mio
variable {O A ε α : Type} {os : Os O A ε} {info : ErrorInfo A ε} {d d' : Mio O} {poller fd : Handle} {desc : Description}

/-! ### Calls that open a socket -/

/-- What a call that opens a socket leaves: nothing new, the socket in a new box, or a box that it could not close. -/
inductive Opening (d : Mio O) (desc : Description) : Mio O → Option Handle → Prop
  | failed {d' : Mio O} (hboxes : d'.heap.boxes = d.heap.boxes) (hfaults : d'.faults = d.faults) (hkept : d'.kept = d.kept) :
      Opening d desc d' none
  | opened {d' : Mio O} (hboxes : d'.heap.boxes = Function.update d.heap.boxes d.heap.next (some (.socket desc true)))
      (hfaults : d'.faults = d.faults) (hkept : d'.kept = d.kept) :
      Opening d desc d' (some { token := d.heap.next, desc })
  | kept {d' : Mio O} (hboxes : d'.heap.boxes = Function.update d.heap.boxes d.heap.next (some (.socket desc true)))
      (hfaults : d'.faults = d.faults) (hkept : d'.kept = d.heap.next :: d.kept) : Opening d desc d' none

theorem alloc_boxes (h : Boxes.Heap Boxed) (b : Boxed) : (h.alloc b).boxes = Function.update h.boxes h.next (some b) := rfl

theorem alloc_set_boxes (h : Boxes.Heap Boxed) (b b' : Boxed) :
    ((h.alloc b).set h.next b').boxes = Function.update h.boxes h.next (some b') := by
  rw [Boxes.Heap.set_boxes (h.alloc_self b), alloc_boxes, Function.update_idem]

/-- The box of a socket that has been opened and registered. -/
def registeredIn (h : Boxes.Heap Boxed) (desc : Description) : Boxes.Heap Boxed :=
  (h.alloc (.socket desc false)).set h.next (.socket desc true)

theorem registeredIn_boxes (h : Boxes.Heap Boxed) (desc : Description) :
    (registeredIn h desc).boxes = Function.update h.boxes h.next (some (.socket desc true)) := alloc_set_boxes ..

theorem free_registeredIn (h : Boxes.Heap Boxed) (desc : Description) :
    ((registeredIn h desc).free h.next).boxes = h.boxes := by
  change Function.update (registeredIn h desc).boxes h.next none = h.boxes
  rw [registeredIn_boxes, Function.update_idem, ← h.fresh _ (Nat.le_refl _), Function.update_eq_self]

/-- What becomes of a socket that has been opened, by what the system answers from `o` on. -/
inductive Registering (os : Os O A ε) (o : O) (d : Mio O) (desc : Description) (interests : Interest) :
    Mio O × Except (IoError ε) Handle → Prop
  | registered {o' : O} (hregister : os.call o (.register d.heap.next interests) = (o', .ok ())) :
      Registering os o d desc interests
        ({ d with os := o', heap := registeredIn d.heap desc }, .ok { token := d.heap.next, desc })
  | closed {o' o'' : O} {err : ε} (hregister : os.call o (.register d.heap.next interests) = (o', .error err))
      (hderegister : os.call o' (.deregister d.heap.next) = (o'', .ok ())) :
      Registering os o d desc interests
        ({ d with os := o'', heap := (registeredIn d.heap desc).free d.heap.next }, .error (.inner (.inner (.os err))))
  | kept {o' o'' : O} {err err' : ε} (hregister : os.call o (.register d.heap.next interests) = (o', .error err))
      (hderegister : os.call o' (.deregister d.heap.next) = (o'', .error err')) :
      Registering os o d desc interests
        ({ d with os := o'', heap := registeredIn d.heap desc, kept := d.heap.next :: d.kept },
          .error (.inner (.inner (.os err))))

theorem registerOrClose_registering (os : Os O A ε) (o : O) (hpoller : IsPoller d poller) (hsocket : IsSocket desc)
    (interests : Interest) :
    Registering os o d desc interests (registerOrClose os { d with os := o, heap := d.heap.alloc (.socket desc false) }
      { token := d.heap.next, desc } poller interests) := by
  set d₁ : Mio O := { d with os := o, heap := d.heap.alloc (.socket desc false) } with hd₁
  set fd : Handle := { token := d.heap.next, desc } with hfd
  have hbox : d₁.heap.boxes fd.token = some (.socket fd.desc false) := d.heap.alloc_self _
  have hpoller₁ : IsPoller d₁ poller := hpoller.of_update hpoller.next_ne (alloc_boxes ..)
  obtain ⟨o', r, hregister⟩ : ∃ o' r, os.call o (.register d.heap.next interests) = (o', r) := ⟨_, _, rfl⟩
  set d₂ : Mio O := { d₁ with os := o', heap := registeredIn d.heap desc } with hd₂
  have hpoller₂ : IsPoller d₂ poller := hpoller.of_update hpoller.next_ne (registeredIn_boxes ..)
  have hcntl : d₁.fdCntl os poller (.register fd interests) = _ :=
    fdCntl_register hpoller₁ (register_socket hsocket hbox hregister) hpoller₂ (mapError_ne_fault r)
  rw [registerOrClose, hcntl]
  cases r with
  | ok value => exact .registered hregister
  | error err =>
    have hbound : Bound d₂ fd := ⟨.socket desc true, by rw [registeredIn_boxes, Function.update_self], rfl, rfl⟩
    obtain ⟨o'', r', hderegister⟩ : ∃ o'' r', os.call o' (.deregister d.heap.next) = (o'', r') := ⟨_, _, rfl⟩
    have hclose : d₂.fdClose os fd = _ := fdClose_socket hbound hsocket hderegister
    change Registering os o d desc interests ((d₂.fdClose os fd).1, _)
    rw [hclose]
    cases r' with
    | ok value => exact .closed hregister hderegister
    | error err' => exact .kept hregister hderegister

theorem Registering.opening {o : O} {interests : Interest} {call : Mio O × Except (IoError ε) Handle}
    (h : Registering os o d desc interests call) : Opening d desc call.1 call.2.toOption := by
  cases h with
  | registered => exact .opened (registeredIn_boxes ..) rfl rfl
  | closed => exact .failed (free_registeredIn ..) rfl rfl
  | kept => exact .kept (registeredIn_boxes ..) rfl rfl

theorem openRegistered_opening {flags : OpenFlags A} (hpoller : IsPoller d poller) (hopens : Opens desc flags)
    (os : Os O A ε) (info : ErrorInfo A ε) (interests : Interest) :
    Opening d desc (openRegistered os info d poller desc flags interests).1
      (openRegistered os info d poller desc flags interests).2.toOption := by
  rw [openRegistered]
  rcases fdOpen_cases hopens os info.flags d with ⟨o, err, heq⟩ | ⟨o, heq⟩
  · rw [heq]
    exact .failed rfl rfl rfl
  · rw [heq]
    exact (registerOrClose_registering os o hpoller hopens.isSocket interests).opening

theorem accept_opening {listener : TcpListener} (hpoller : IsPoller d poller) (hbound : Bound d listener.fd)
    (hdesc : listener.fd.desc = .tcpListener) (os : Os O A ε) (info : ErrorInfo A ε) (waker : Waker) :
    let call := listener.accept os info d poller waker
    Opening d .tcpStream call.1 ((call.2.bind Except.toOption).map fun made => made.1.fd) := by
  rw [TcpListener.accept]
  rcases fdCntl_accept hbound hdesc os waker with ⟨o, err, heq⟩ | ⟨o, raddr, heq⟩
  · rw [heq]
    simp only [pollWouldBlock]
    split <;> exact .failed rfl rfl rfl
  · rw [heq]
    have hopening := (registerOrClose_registering os o hpoller (.inr (.inl rfl)) .all).opening
    simp only [CmdResp.tryIntoIncoming, TcpStream.newWith]
    revert hopening
    generalize registerOrClose os _ _ poller _ = call
    obtain ⟨mio, result⟩ := call
    cases result <;> exact id

/-! ### The invariant -/

namespace Process

/-- The panic of `timeout_open`. -/
def zeroDuration : Fault := .panicked "create timeout with zero duration"

structure Inv (s : Process O) : Prop where
  poller : IsPoller s.mio s.poller
  exact : Boxes.Exact s.mio.heap.boxes s.Holds
  bound : ∀ {i object fd}, s.objects i = some object → object.fd? = some fd → fd.desc = object.desc ∧ Bound s.mio fd
  faults : ∀ f ∈ s.mio.faults, f = zeroDuration ∨ f = unwrapFailed

variable {s s' : Process O} {i : Nat} {object : Object} {b : Boxed}

theorem Inv.same (h : Inv s) (hboxes : d'.heap.boxes = s.mio.heap.boxes) (hkept : d'.kept = s.mio.kept)
    (hfaults : ∀ f ∈ d'.faults, f = zeroDuration ∨ f = unwrapFailed) : Inv { s with mio := d' } where
  poller := ⟨h.poller.desc, by rw [hboxes, h.poller.box]⟩
  exact := by
    have hholds : { s with mio := d' }.Holds = s.Holds := by
      funext k t
      cases k <;> simp only [Holds, hkept]
    rw [hholds, hboxes]
    exact h.exact
  bound hi hfd := by
    obtain ⟨hdesc, b, hbox, hb⟩ := h.bound hi hfd
    exact ⟨hdesc, b, by rw [hboxes, hbox], hb⟩
  faults := hfaults

/-- A call that changes nothing but what the system knows. -/
theorem Inv.asks (h : Inv s) {d' : Mio O} (hd : ∃ o, d' = { s.mio with os := o }) : Inv { s with mio := d' } := by
  obtain ⟨o, rfl⟩ := hd
  exact h.same rfl rfl h.faults

/-- Object `i` changes, and holds nothing before and after. -/
theorem Inv.empty (h : Inv s) {o : Option Object} (hi : ∀ object, s.objects i = some object → object.fd? = none)
    (ho : ∀ object, o = some object → object.fd? = none) : Inv { s with objects := Function.update s.objects i o } where
  poller := h.poller
  exact := by
    have hholds : { s with objects := Function.update s.objects i o }.Holds = s.Holds := by
      funext k t
      cases k with
      | poller | kept => rfl
      | object j =>
        rcases eq_or_ne j i with rfl | hne
        · simp only [Holds, Function.update_self, eq_iff_iff]
          constructor
          · rintro ⟨object, fd, hobject, hfd, -⟩
            rw [ho object hobject] at hfd
            cases hfd
          · rintro ⟨object, fd, hobject, hfd, -⟩
            rw [hi object hobject] at hfd
            cases hfd
        · simp only [Holds, Function.update_of_ne hne]
    rw [hholds]
    exact h.exact
  bound {j object fd} hj hfd := by
    replace hj : Function.update s.objects i o j = some object := hj
    rcases eq_or_ne j i with rfl | hne
    · rw [Function.update_self] at hj
      rw [ho object hj] at hfd
      cases hfd
    · rw [Function.update_of_ne hne] at hj
      exact h.bound hj hfd
  faults := h.faults

theorem Inv.not_holds_next (h : Inv s) (k : Holder) : ¬s.Holds k s.mio.heap.next :=
  fun hk => h.exact.box hk (s.mio.heap.fresh _ (Nat.le_refl _))

/-- Object `i` gets a new box. -/
theorem Inv.insert (h : Inv s) (hi : ∀ object, s.objects i = some object → object.fd? = none)
    (hfd : object.fd? = some { token := s.mio.heap.next, desc := object.desc })
    (hboxes : d'.heap.boxes = Function.update s.mio.heap.boxes s.mio.heap.next (some b)) (hb : b.desc = object.desc)
    (hreg : b.registered = true) (hkept : d'.kept = s.mio.kept) (hfaults : d'.faults = s.mio.faults) :
    Inv { s with mio := d', objects := Function.update s.objects i (some object) } where
  poller := h.poller.of_update h.poller.next_ne hboxes
  exact := by
    change Boxes.Exact d'.heap.boxes _
    rw [hboxes]
    refine h.exact.insert (k := .object i) (s.mio.heap.fresh _ (Nat.le_refl _)) ?_ b
    rintro (_ | j | _) t
    · simp [Holds]
    · rcases eq_or_ne j i with rfl | hne
      · have hnone : ¬s.Holds (.object j) t := by
          rintro ⟨object, fd, hobject, hfd, -⟩
          rw [hi object hobject] at hfd
          cases hfd
        simp only [Holds, Function.update_self, Option.some.injEq, true_and]
        constructor
        · rintro ⟨_, fd, rfl, hfd', rfl⟩
          rw [hfd] at hfd'
          cases hfd'
          exact .inr rfl
        · rintro (hold | rfl)
          · exact absurd hold hnone
          · exact ⟨object, _, rfl, hfd, rfl⟩
      · simp [Holds, hne]
    · simp [Holds, hkept]
  bound {j object' fd'} hj hfd' := by
    replace hj : Function.update s.objects i (some object) j = some object' := hj
    rcases eq_or_ne j i with rfl | hne
    · rw [Function.update_self] at hj
      cases hj
      rw [hfd] at hfd'
      cases hfd'
      exact ⟨rfl, b, by rw [hboxes, Function.update_self], hb, hreg⟩
    · rw [Function.update_of_ne hne] at hj
      obtain ⟨hdesc, hbound⟩ := h.bound hj hfd'
      refine ⟨hdesc, hbound.of_update (fun heq => ?_) hboxes⟩
      exact h.not_holds_next (.object j) ⟨object', fd', hj, hfd', heq⟩
  faults := by
    change ∀ f ∈ d'.faults, _
    rw [hfaults]
    exact h.faults

/-- A new box stays without an object. -/
theorem Inv.leak (h : Inv s) (hboxes : d'.heap.boxes = Function.update s.mio.heap.boxes s.mio.heap.next (some b))
    (hkept : d'.kept = s.mio.heap.next :: s.mio.kept) (hfaults : d'.faults = s.mio.faults) : Inv { s with mio := d' } where
  poller := h.poller.of_update h.poller.next_ne hboxes
  exact := by
    change Boxes.Exact d'.heap.boxes _
    rw [hboxes]
    refine h.exact.insert (k := .kept) (s.mio.heap.fresh _ (Nat.le_refl _)) ?_ b
    rintro (_ | j | _) t
    · simp [Holds]
    · simp [Holds]
    · simp [Holds, hkept, or_comm]
  bound {j object' fd'} hj hfd' := by
    obtain ⟨hdesc, hbound⟩ := h.bound hj hfd'
    refine ⟨hdesc, hbound.of_update (fun heq => ?_) hboxes⟩
    exact h.not_holds_next (.object j) ⟨object', fd', hj, hfd', heq⟩
  faults := by
    change ∀ f ∈ d'.faults, _
    rw [hfaults]
    exact h.faults

theorem holds_object (hi : s.objects i = some object) (hfd : object.fd? = some fd) : s.Holds (.object i) fd.token :=
  ⟨object, fd, hi, hfd, rfl⟩

/-- What another holds is not the box of object `i`. -/
theorem Inv.token_ne (h : Inv s) (hi : s.objects i = some object) (hfd : object.fd? = some fd) {k : Holder} {t : Token}
    (hk : k ≠ .object i) (hold : s.Holds k t) : t ≠ fd.token := by
  rintro rfl
  exact hk (h.exact.unique hold (holds_object hi hfd))

/-- Without object `i`, the others are what they were, with other boxes. -/
theorem Inv.others (h : Inv s) (hi : s.objects i = some object) (hfd : object.fd? = some fd) {j : Nat} {object' : Object}
    {fd' : Handle} (hj : Function.update s.objects i none j = some object') (hfd' : object'.fd? = some fd') :
    s.objects j = some object' ∧ fd'.token ≠ fd.token := by
  rcases eq_or_ne j i with rfl | hne
  · rw [Function.update_self] at hj
    cases hj
  · rw [Function.update_of_ne hne] at hj
    exact ⟨hj, h.token_ne hi hfd (by simpa using hne) (holds_object hj hfd')⟩

theorem Inv.holds_erase (h : Inv s) (hi : s.objects i = some object) (hfd : object.fd? = some fd) (d' : Mio O) (j : Nat)
    (t : Token) :
    { s with mio := d', objects := Function.update s.objects i none }.Holds (.object j) t ↔
      s.Holds (.object j) t ∧ t ≠ fd.token := by
  constructor
  · rintro ⟨object', fd', hj, hfd', rfl⟩
    obtain ⟨hj, hne⟩ := h.others hi hfd hj hfd'
    exact ⟨⟨object', fd', hj, hfd', rfl⟩, hne⟩
  · rintro ⟨⟨object', fd', hj, hfd', rfl⟩, hne⟩
    refine ⟨object', fd', ?_, hfd', rfl⟩
    refine (Function.update_of_ne ?_ ..).trans hj
    rintro rfl
    rw [hi] at hj
    cases hj
    rw [hfd] at hfd'
    cases hfd'
    exact hne rfl

/-- Object `i` goes with its box. -/
theorem Inv.release (h : Inv s) (hi : s.objects i = some object) (hfd : object.fd? = some fd)
    (hboxes : d'.heap.boxes = Function.update s.mio.heap.boxes fd.token none) (hkept : d'.kept = s.mio.kept)
    (hfaults : d'.faults = s.mio.faults) : Inv { s with mio := d', objects := Function.update s.objects i none } where
  poller := h.poller.of_update (h.token_ne hi hfd (k := .poller) nofun rfl).symm hboxes
  exact := by
    change Boxes.Exact d'.heap.boxes _
    rw [hboxes]
    refine h.exact.remove ?_
    rintro (_ | j | _) t
    · exact (and_iff_left_of_imp (h.token_ne hi hfd (k := .poller) nofun)).symm
    · exact h.holds_erase hi hfd d' j t
    · change t ∈ d'.kept ↔ t ∈ s.mio.kept ∧ t ≠ fd.token
      rw [hkept]
      exact (and_iff_left_of_imp (h.token_ne hi hfd (k := .kept) nofun)).symm
  bound {j object' fd'} hj hfd' := by
    obtain ⟨hj, hne⟩ := h.others hi hfd hj hfd'
    obtain ⟨hdesc, hbound⟩ := h.bound hj hfd'
    exact ⟨hdesc, hbound.of_update hne hboxes⟩
  faults := by
    change ∀ f ∈ d'.faults, _
    rw [hfaults]
    exact h.faults

/-- Object `i` goes, and its box stays. -/
theorem Inv.abandon (h : Inv s) (hi : s.objects i = some object) (hfd : object.fd? = some fd)
    (hheap : d'.heap = s.mio.heap) (hkept : d'.kept = fd.token :: s.mio.kept)
    (hfaults : ∀ f ∈ d'.faults, f = zeroDuration ∨ f = unwrapFailed) :
    Inv { s with mio := d', objects := Function.update s.objects i none } where
  poller := ⟨h.poller.desc, by rw [hheap, h.poller.box]⟩
  exact := by
    change Boxes.Exact d'.heap.boxes _
    rw [hheap]
    refine h.exact.move (holds_object hi hfd) .kept ?_
    rintro (_ | j | _) t
    · have hne := h.token_ne hi hfd (k := .poller) (t := t) nofun
      simpa [Holds] using hne
    · exact (h.holds_erase hi hfd d' j t).trans (by simp)
    · have hne := h.token_ne hi hfd (k := .kept) (t := t) nofun
      change t ∈ d'.kept ↔ _
      rw [hkept, List.mem_cons]
      constructor
      · rintro (rfl | hold)
        · exact .inr ⟨rfl, rfl⟩
        · exact .inl ⟨hold, hne hold⟩
      · rintro (⟨hold, -⟩ | ⟨-, rfl⟩)
        · exact .inr hold
        · exact .inl rfl
  bound {j object' fd'} hj hfd' := by
    obtain ⟨hj, -⟩ := h.others hi hfd hj hfd'
    obtain ⟨hdesc, b, hbox, hb⟩ := h.bound hj hfd'
    exact ⟨hdesc, b, by rw [hheap, hbox], hb⟩
  faults := hfaults

theorem Inv.close (h : Inv s) (hi : s.objects i = some object) (hfd : object.fd? = some fd) :
    Inv { s with mio := closeUnwrap os s.mio fd, objects := Function.update s.objects i none } := by
  obtain ⟨hdesc, hbound⟩ := h.bound hi hfd
  have hclose : IsSocket fd.desc ∨ fd.desc = .timeout := by
    rw [hdesc]
    cases object <;> simp [Object.desc, IsSocket]
  rw [closeUnwrap]
  rcases fdClose_cases os hbound hclose with ⟨o, err, herr, heq⟩ | ⟨o, heq⟩
  · rw [heq]
    split
    · next hok => cases hok
    · next hfault => exact absurd (by simpa using congrArg Prod.snd hfault) herr
    · next d₁ _ _ _ hmio =>
      cases hmio
      refine h.abandon hi hfd rfl rfl ?_
      rintro f (_ | ⟨_, hf⟩)
      · exact .inr rfl
      · exact h.faults f hf
  · rw [heq]
    exact h.release hi hfd rfl rfl rfl

/-! ### The steps -/

theorem Inv.made (h : Inv s) (hi : s.objects i = none) {call : Mio O × Except (IoError ε) α} {toObject : α → Object}
    {toFd : α → Handle} (hobject : ∀ a, (toObject a).fd? = some (toFd a) ∧ (toObject a).desc = desc)
    (hopening : Opening s.mio desc call.1 (call.2.toOption.map toFd)) : Inv (s.made i call toObject) := by
  obtain ⟨mio, result⟩ := call
  cases result with
  | error err =>
    cases hopening with
    | failed hboxes hfaults hkept => exact h.same hboxes hkept (hfaults ▸ h.faults)
    | kept hboxes hfaults hkept => exact h.leak hboxes hkept hfaults
  | ok a =>
    obtain ⟨hfd, rfl⟩ := hobject a
    have hopening' : Opening s.mio (toObject a).desc mio (some (toFd a)) := hopening
    generalize htoFd : toFd a = fd at hopening' hfd
    cases hopening' with
    | opened hboxes hfaults hkept =>
      refine h.insert (fun object hobject => ?_) hfd hboxes rfl rfl hkept hfaults
      rw [hi] at hobject
      cases hobject

theorem Inv.madeReady (h : Inv s) (hi : s.objects i = none) {call : Mio O × Option (Except (IoError ε) α)}
    {toObject : α → Object} {toFd : α → Handle} (hobject : ∀ a, (toObject a).fd? = some (toFd a) ∧ (toObject a).desc = desc)
    (hopening : Opening s.mio desc call.1 ((call.2.bind Except.toOption).map toFd)) : Inv (s.madeReady i call toObject) := by
  obtain ⟨mio, result⟩ := call
  cases result with
  | none =>
    cases hopening with
    | failed hboxes hfaults hkept => exact h.same hboxes hkept (hfaults ▸ h.faults)
    | kept hboxes hfaults hkept => exact h.leak hboxes hkept hfaults
  | some result => exact h.made hi hobject hopening

theorem openRegistered_map {flags : OpenFlags A} (h : Inv s) (hopens : Opens desc flags) (os : Os O A ε)
    (info : ErrorInfo A ε) (interests : Interest) {make : Handle → α} {toFd : α → Handle} (hfd : ∀ fd, toFd (make fd) = fd) :
    let call := openRegistered os info s.mio s.poller desc flags interests
    Opening s.mio desc call.1 ((call.2.map make).toOption.map toFd) := by
  have hopening := openRegistered_opening h.poller hopens os info interests
  revert hopening
  generalize openRegistered os info s.mio s.poller desc flags interests = call
  obtain ⟨mio, result⟩ := call
  cases result with
  | error err => exact id
  | ok fd =>
    simp only [Except.toOption, Except.map, Option.map_some, hfd]
    exact id

/-- A method is one command for the handle of the object. -/
theorem call_cntl {method : Method A} {mio : Mio O} (hcall : object.call os info d method = some mio) :
    ∃ fd cmd, object.fd? = some fd ∧ Plain cmd ∧ object.call os info d method = some (d.fdCntl os fd cmd).1 := by
  cases object with
  | sleep => cases method <;> cases hcall
  | tcpListener listener =>
    cases method <;> cases hcall
    exact ⟨_, .localAddr, rfl, trivial, rfl⟩
  | tcpStream stream =>
    cases method with
    | pollWrite waker buf => exact ⟨_, .write waker buf, rfl, trivial, rfl⟩
    | pollRead waker buf => exact ⟨_, .read waker buf, rfl, trivial, rfl⟩
    | pollClose => exact ⟨_, .shutdown .both, rfl, trivial, rfl⟩
    | shutdown how => exact ⟨_, .shutdown how, rfl, trivial, rfl⟩
    | localAddr => exact ⟨_, .localAddr, rfl, trivial, rfl⟩
    | remoteAddr => exact ⟨_, .remoteAddr, rfl, trivial, rfl⟩
    | pollSendTo | recvFrom | broadcast | setBroadcast => cases hcall
  | udpSocket socket =>
    cases method with
    | pollSendTo waker buf raddr => exact ⟨_, .sendTo waker buf raddr, rfl, trivial, rfl⟩
    | recvFrom waker buf => exact ⟨_, .recvFrom waker buf, rfl, trivial, rfl⟩
    | broadcast => exact ⟨_, .broadCast, rfl, trivial, rfl⟩
    | setBroadcast on => exact ⟨_, .setBroadCast on, rfl, trivial, rfl⟩
    | localAddr => exact ⟨_, .localAddr, rfl, trivial, rfl⟩
    | pollWrite | pollRead | pollClose | shutdown | remoteAddr => cases hcall

theorem call_plain (h : Inv s) (hi : s.objects i = some object) {method : Method A} {mio : Mio O}
    (hcall : object.call os info s.mio method = some mio) : ∃ o, mio = { s.mio with os := o } := by
  obtain ⟨fd, cmd, hfd, hplain, heq⟩ := call_cntl hcall
  obtain rfl := Option.some.inj (heq.symm.trans hcall)
  obtain ⟨hdesc, hbound⟩ := h.bound hi hfd
  refine fdCntl_plain os hbound ?_ cmd hplain
  rw [hdesc]
  cases object <;> simp [Object.desc]

theorem checkTimeout_plain (hbound : Bound d fd) (hdesc : fd.desc = .timeout) (os : Os O A ε) (info : ErrorInfo A ε)
    (waker : Waker) : ∃ o, (Sleep.checkTimeout os info d fd waker).1 = { d with os := o } := by
  obtain ⟨o, heq⟩ := fdCntl_plain os hbound (by simp [hdesc]) (.timeout waker) trivial
  refine ⟨o, ?_⟩
  rw [← heq, Sleep.checkTimeout]
  split <;> next hcntl => exact (congrArg Prod.fst hcntl).symm

/-- The first poll of a sleep, when `timeout_open` has made the box of its timer. -/
theorem register_sleep {expired : Nat} (hpoller : IsPoller d poller) (waker : Waker) (hexpired : expired ≠ 0)
    (hreturns : (os.newTimer d.os d.heap.next expired).2 = true) (info : ErrorInfo A ε) :
    ∃ result, ∃ d' : Mio O, Sleep.poll os info { expired } d poller waker =
        (d', { fd := some { token := d.heap.next, desc := .timeout }, expired }, result) ∧
      d'.heap.boxes = Function.update d.heap.boxes d.heap.next (some (.timer expired true true)) ∧ d'.kept = d.kept ∧
      d'.faults = d.faults := by
  set d₁ : Mio O := { d with heap := d.heap.alloc (.timer expired false false) } with hd₁
  set fd : Handle := { token := d.heap.next, desc := .timeout } with hfd
  have hopen : d.fdOpen os info.flags .timeout (.duration expired) = (d₁, .ok fd) := by
    simp [fdOpen, andThen, OpenFlags.tryIntoDuration, timeoutOpen, hexpired, open_, hd₁, hfd]
  have hbox : d₁.heap.boxes fd.token = some (.timer expired false false) := d.heap.alloc_self _
  have hpoller₁ : IsPoller d₁ poller := hpoller.of_update hpoller.next_ne (alloc_boxes ..)
  obtain ⟨o, hregister⟩ := register_timer os (by rfl : fd.desc = .timeout) hbox .onlyReadable hreturns
  set d₂ : Mio O := { d₁ with os := o, heap := d₁.heap.set fd.token (.timer expired true true) } with hd₂
  have hboxes : d₂.heap.boxes = Function.update d.heap.boxes d.heap.next (some (.timer expired true true)) :=
    alloc_set_boxes ..
  have hcntl := fdCntl_register hpoller₁ hregister (hpoller.of_update hpoller.next_ne hboxes) (by simp)
  have hbound : Bound d₂ fd := ⟨.timer expired true true, by rw [hboxes, Function.update_self], rfl, rfl⟩
  obtain ⟨o', hcheck⟩ := checkTimeout_plain hbound rfl os info waker
  refine ⟨(Sleep.checkTimeout os info d₂ fd waker).2, (Sleep.checkTimeout os info d₂ fd waker).1, ?_, ?_⟩
  · simp only [Sleep.poll, hopen, hcntl, Except.mapError, Except.map]
  · rw [hcheck]
    exact ⟨hboxes, rfl, rfl⟩

theorem inv_pollSleep {sleep : Sleep} (h : Inv s) (hi : s.objects i = some (.sleep sleep)) (waker : Waker)
    (hstarts : starts os s (.pollSleep (A := A) i waker) = true) (info : ErrorInfo A ε) :
    let poll := sleep.poll os info s.mio s.poller waker
    Inv { s with mio := poll.1, objects := Function.update s.objects i (some (.sleep poll.2.1)) } := by
  obtain ⟨fd?, expired⟩ := sleep
  have hself : Function.update s.objects i (some (.sleep ⟨fd?, expired⟩)) = s.objects := by
    rw [← hi, Function.update_eq_self]
  cases fd? with
  | some fd =>
    obtain ⟨hdesc, hbound⟩ := h.bound hi rfl
    obtain ⟨o, hcheck⟩ := checkTimeout_plain hbound hdesc os info waker
    simp only [Sleep.poll, hself]
    exact h.asks ⟨o, hcheck⟩
  | none =>
    by_cases hexpired : expired = 0
    · have hpoll : Sleep.poll os info ⟨none, expired⟩ s.mio s.poller waker =
          ({ s.mio with faults := zeroDuration :: s.mio.faults }, ⟨none, expired⟩, some (.error (.inner (.inner .fault)))) := by
        simp [Sleep.poll, fdOpen, andThen, OpenFlags.tryIntoDuration, timeoutOpen, hexpired, fault, zeroDuration]
      simp only [hpoll, hself]
      refine h.same rfl rfl ?_
      rintro f (_ | ⟨_, hf⟩)
      · exact .inl rfl
      · exact h.faults f hf
    · have hreturns : (os.newTimer s.mio.os s.mio.heap.next expired).2 = true := by
        simpa [starts, hi, hexpired] using hstarts
      obtain ⟨result, d', hpoll, hboxes, hkept, hfaults⟩ := register_sleep h.poller waker hexpired hreturns info
      simp only [hpoll]
      refine h.insert (fun object hobject => ?_) rfl hboxes rfl rfl hkept hfaults
      rw [hi] at hobject
      cases hobject
      rfl

theorem inv_step {action : ProcessAction A} (h : Inv s) (hstarts : starts os s action = true)
    (hs : step os info s action = some s') : Inv s' := by
  cases action with
  | bindTcp i laddrs =>
    obtain ⟨hi, hs⟩ := Option.ite_none_right_eq_some.mp hs
    cases hs
    exact h.made hi (fun _ => ⟨rfl, rfl⟩) (openRegistered_map h (.tcpListener laddrs) os info .onlyReadable fun _ => rfl)
  | connect i raddrs =>
    obtain ⟨hi, hs⟩ := Option.ite_none_right_eq_some.mp hs
    cases hs
    exact h.made hi (fun _ => ⟨rfl, rfl⟩) (openRegistered_map h (.tcpStream raddrs) os info .all fun _ => rfl)
  | bindUdp i laddrs =>
    obtain ⟨hi, hs⟩ := Option.ite_none_right_eq_some.mp hs
    cases hs
    exact h.made hi (fun _ => ⟨rfl, rfl⟩) (openRegistered_map h (.udpSocket laddrs) os info .all fun _ => rfl)
  | accept i j waker =>
    simp only [step] at hs
    split at hs
    · next listener hi hj =>
      cases hs
      obtain ⟨hdesc, hbound⟩ := h.bound hi rfl
      exact h.madeReady hj (fun _ => ⟨rfl, rfl⟩) (accept_opening h.poller hbound hdesc os info waker)
    · cases hs
  | newSleep i expired =>
    obtain ⟨hi, hs⟩ := Option.ite_none_right_eq_some.mp hs
    cases hs
    refine h.empty (fun object hobject => ?_) fun object hobject => ?_
    · rw [hi] at hobject
      cases hobject
    · cases hobject
      rfl
  | pollSleep i waker =>
    simp only [step] at hs
    split at hs
    · next sleep hi =>
      cases hs
      exact inv_pollSleep h hi waker hstarts info
    · cases hs
  | call i method =>
    obtain ⟨object, hi, hs⟩ := Option.bind_eq_some_iff.mp hs
    obtain ⟨mio, hcall, rfl⟩ := Option.map_eq_some_iff.mp hs
    exact h.asks (call_plain h hi hcall)
  | drop i =>
    obtain ⟨object, hi, rfl⟩ := Option.map_eq_some_iff.mp hs
    cases hfd : object.fd? with
    | none =>
      obtain ⟨sleep, rfl⟩ : ∃ sleep, object = .sleep sleep := by
        cases object <;> first | exact ⟨_, rfl⟩ | cases hfd
      have hdrop : Object.drop os s.mio (.sleep sleep) = s.mio := by
        rw [Object.drop, Sleep.drop, show sleep.fd = none from hfd]
      rw [hdrop]
      refine h.empty (fun object hobject => ?_) nofun
      rw [hi] at hobject
      cases hobject
      exact hfd
    | some fd =>
      have hdrop : object.drop os s.mio = closeUnwrap os s.mio fd := by
        cases object with
        | sleep sleep => rw [Object.drop, Sleep.drop, show sleep.fd = some fd from hfd]
        | tcpListener | tcpStream | udpSocket =>
          cases hfd
          rfl
      rw [hdrop]
      exact h.close hi hfd
  | pollOnce =>
    obtain ⟨hpolling, hs⟩ := Option.ite_none_right_eq_some.mp hs
    obtain ⟨o, r, heq, hr⟩ := fdCntl_pollOnce os h.poller none
    rw [heq] at hs
    cases r with
    | ok resp =>
      cases hs
      exact h.same rfl rfl h.faults
    | error err =>
      have hunwrap : s' = { s with
          mio := { s.mio with os := o, faults := unwrapFailed :: s.mio.faults }, polling := false } := by
        split at hs
        · next hok => cases hok
        · next hfault => exact absurd (congrArg Prod.snd hfault) hr
        · next hmio =>
          cases hmio
          exact (Option.some.inj hs).symm
      have hsame : Inv { s with mio := { s.mio with os := o, faults := unwrapFailed :: s.mio.faults } } := by
        refine h.same rfl rfl ?_
        rintro f (_ | ⟨_, hf⟩)
        · exact .inr rfl
        · exact h.faults f hf
      rw [hunwrap]
      exact ⟨hsame.poller, hsame.exact, hsame.bound, hsame.faults⟩

theorem inv_new {o : O} (h : new os info o = some s) : Inv s := by
  rw [new, fdOpen, pollerOpen] at h
  obtain ⟨o', r, heq, -⟩ := sys_asks os { os := o } .newPoller
  rw [heq] at h
  cases r with
  | error err => cases h
  | ok value =>
    cases h
    refine ⟨⟨rfl, rfl⟩, ?_, nofun, nofun⟩
    have hempty : Boxes.Exact (fun _ => (none : Option Boxed)) fun (_ : Holder) _ => False := fun _ => .inl ⟨rfl, fun _ => id⟩
    refine hempty.insert (k := .poller) rfl ?_ .poller
    rintro (_ | j | _) t <;> simp [Holds, Boxes.Heap.empty]

theorem inv_of_reaches {o : O} {s₀ : Process O} (hnew : new os info o = some s₀)
    (h : Reaches (step os info) (fun s action => starts os s action = true) s₀ s) : Inv s :=
  h.invariant (inv_new hnew) fun hs hstarts hstep => inv_step hs hstarts hstep

end Process

/-- A system where everything succeeds but the deregistration of box 1, and a timer overflows from 100 on. -/
def sampleOs : Os Unit Unit Unit where
  call
    | (), .accept _ | (), .localAddr _ | (), .peerAddr _ => ((), .ok ())
    | (), .read .. | (), .write .. | (), .sendTo .. => ((), .ok 0)
    | (), .recvFrom .. => ((), .ok (0, ()))
    | (), .broadcast _ => ((), .ok true)
    | (), .deregister token => ((), if token = 1 then .error () else .ok ())
    | (), .tcpListenerBind _ | (), .tcpStreamConnect _ | (), .udpSocketBind _ | (), .newPoller | (), .register ..
    | (), .poll _ | (), .shutdown .. | (), .setBroadcast .. => ((), .ok ())
  newTimer _ _ duration := ((), duration < 100)
  isExpired _ _ := ((), false)

def sampleInfo : ErrorInfo Unit Unit where
  flags _ := ""
  resp _ := ""
  wouldBlock _ := false

/-- A listener that accepts a stream, and a sleep; the listener and the stream are dropped. -/
def sampleActions : List (ProcessAction Unit) :=
  [.bindTcp 0 [()], .accept 0 1 7, .newSleep 2 5, .pollSleep 2 8, .pollOnce, .drop 0, .drop 1]

def sampleRun (actions : List (ProcessAction Unit)) : Option (Process Unit) :=
  (Process.new sampleOs sampleInfo ()).bind fun s =>
    runIf (Process.step sampleOs sampleInfo) (Process.starts sampleOs) s actions

theorem reaches_sampleRun {actions : List (ProcessAction Unit)} {s : Process Unit} (h : sampleRun actions = some s) :
    ∃ s₀, Process.new sampleOs sampleInfo () = some s₀ ∧
      Reaches (Process.step sampleOs sampleInfo) (fun s action => Process.starts sampleOs s action = true) s₀ s := by
  obtain ⟨s₀, hnew, hrun⟩ := Option.bind_eq_some_iff.mp h
  exact ⟨s₀, hnew, Reaches.of_runIf actions (fun _ _ h => h) hrun⟩

namespace Process

/-- While `new_timer` does not panic, no box is used after it is gone, or as something else, or given back twice; the only
    panics are those of a zero duration and of the `unwrap`s. Every box that is there is held by the context, by one object,
    or by nothing but an `fd_close` that has failed, and there is none else. -/
theorem boxes_held {o : O} {s₀ : Process O} (hnew : new os info o = some s₀)
    (h : Reaches (step os info) (fun s action => starts os s action = true) s₀ s) :
    (∀ f ∈ s.mio.faults, f = zeroDuration ∨ f = unwrapFailed) ∧ Boxes.Exact s.mio.heap.boxes s.Holds :=
  ⟨(inv_of_reaches hnew h).faults, (inv_of_reaches hnew h).exact⟩

/-- Box 1 of the listener stays, box 2 of the stream has gone, and box 3 is that of the sleep. -/
theorem sample_boxes_held : ∃ s : Process Unit, sampleRun sampleActions = some s ∧ s.mio.kept = [1] ∧
    s.mio.heap.boxes 1 ≠ none ∧ s.mio.heap.boxes 2 = none ∧ s.Holds (.object 2) 3 ∧
    (∀ f ∈ s.mio.faults, f = zeroDuration ∨ f = unwrapFailed) ∧ Boxes.Exact s.mio.heap.boxes s.Holds := by
  obtain ⟨s₀, hnew, hreaches⟩ := reaches_sampleRun (show sampleRun sampleActions = some _ from rfl)
  refine ⟨_, rfl, rfl, ?_, rfl, ?_, boxes_held hnew hreaches⟩
  · nofun
  · exact ⟨.sleep _, _, rfl, rfl, rfl⟩

/-- When `new_timer` panics, the box of the poller goes with that of the timer. -/
theorem poller_freed {action : ProcessAction A} (h : Inv s) (hstarts : starts os s action = false)
    (hs : step os info s action = some s') : s'.mio.heap.boxes s.poller.token = none := by
  cases action with
  | pollSleep i waker =>
    simp only [step] at hs
    split at hs
    · next sleep hi =>
      cases hs
      obtain ⟨fd?, expired⟩ := sleep
      cases fd? with
      | some fd => simp [starts, hi] at hstarts
      | none =>
        obtain ⟨hexpired, hpanics⟩ : expired ≠ 0 ∧ (os.newTimer s.mio.os s.mio.heap.next expired).2 = false := by
          simpa [starts, hi] using hstarts
        set d₁ : Mio O := { s.mio with heap := s.mio.heap.alloc (.timer expired false false) } with hd₁
        set fd : Handle := { token := s.mio.heap.next, desc := .timeout } with hfd
        have hopen : s.mio.fdOpen os info.flags .timeout (.duration expired) = (d₁, .ok fd) := by
          simp [fdOpen, andThen, OpenFlags.tryIntoDuration, timeoutOpen, hexpired, open_, hd₁, hfd]
        have hpoller₁ : IsPoller d₁ s.poller := h.poller.of_update h.poller.next_ne (alloc_boxes ..)
        have hbox : d₁.heap.boxes fd.token = some (.timer expired false false) := s.mio.heap.alloc_self _
        obtain ⟨d₂, hregister⟩ := register_timer_panics os (by rfl : fd.desc = .timeout) hbox .onlyReadable hpanics
        have hcntl := fdCntl_register_fault hpoller₁ hregister
        simp only [Sleep.poll, hopen, hcntl]
        exact Boxes.Heap.free_self ..
    · cases hs
  | bindTcp | connect | bindUdp | accept | newSleep | call | drop | pollOnce => cases hstarts

@[simp] theorem made_poller (s : Process O) (i : Nat) (call : Mio O × Except (IoError ε) α) (object : α → Object) :
    (s.made i call object).poller = s.poller := by
  unfold made
  split <;> rfl

@[simp] theorem madeReady_poller (s : Process O) (i : Nat) (call : Mio O × Option (Except (IoError ε) α))
    (object : α → Object) : (s.madeReady i call object).poller = s.poller := by
  unfold madeReady
  split
  · rfl
  · exact made_poller ..

theorem step_poller {action : ProcessAction A} (hs : step os info s action = some s') : s'.poller = s.poller := by
  cases action with
  | bindTcp | connect | bindUdp | newSleep =>
    obtain ⟨-, hs⟩ := Option.ite_none_right_eq_some.mp hs
    cases hs
    simp
  | accept | pollSleep =>
    simp only [step] at hs
    split at hs <;> cases hs
    simp
  | call =>
    obtain ⟨object, -, hs⟩ := Option.bind_eq_some_iff.mp hs
    obtain ⟨mio, -, rfl⟩ := Option.map_eq_some_iff.mp hs
    rfl
  | drop =>
    obtain ⟨object, -, rfl⟩ := Option.map_eq_some_iff.mp hs
    rfl
  | pollOnce =>
    obtain ⟨-, hs⟩ := Option.ite_none_right_eq_some.mp hs
    split at hs <;> cases hs <;> rfl

/-- `poll_once` with a poller that is gone. -/
theorem pollOnce_freed (os : Os O A ε) (info : ErrorInfo A ε) (hdesc : s.poller.desc = .poller) (hfreed : s.mio.heap.boxes s.poller.token = none)
    (hpolling : s.polling = true) :
    ∃ s', step os info s (.pollOnce (A := A)) = some s' ∧ .freed s.poller.token ∈ s'.mio.faults := by
  have hcntl : s.mio.fdCntl os s.poller (.pollOnce none) =
      ({ s.mio with faults := .freed s.poller.token :: s.mio.faults }, .error (.inner (.inner .fault))) := by
    simp only [fdCntl, RawDriverExt.fdCntl, RawDriverExt.expectAnswer, Handle.expect_self _ hdesc, RawDriverExt.answer,
      Mio.inner, pollerPollOnce, onSocket, withBox, hfreed, fault]
    rfl
  refine ⟨{ s with mio := { s.mio with faults := .freed s.poller.token :: s.mio.faults }, polling := false }, ?_, ?_⟩
  · simp only [step, hpolling, if_true, hcntl]
  · exact List.mem_cons_self

/-- After a step, the next `poll_once` of the thread uses a poller that has been dropped if and only if the step was the first
    poll of a sleep in which `new_timer` panicked. -/
theorem poller_used_after_free_iff {o : O} {s₀ : Process O} (hnew : new os info o = some s₀)
    (h : Reaches (step os info) (fun s a => starts os s a = true) s₀ s) {a : ProcessAction A}
    (hs : step os info s a = some s') (hpolling : s'.polling = true) :
    ∃ s'', step os info s' (.pollOnce (A := A)) = some s'' ∧
      (.freed s.poller.token ∈ s''.mio.faults ↔ starts os s a = false) := by
  have hinv := inv_of_reaches hnew h
  have hpoller := step_poller hs
  cases hstarts : starts os s a with
  | false =>
    have hdesc : s'.poller.desc = .poller := by rw [hpoller, hinv.poller.desc]
    have hfreed : s'.mio.heap.boxes s'.poller.token = none := by rw [hpoller, poller_freed hinv hstarts hs]
    obtain ⟨s'', hstep, hmem⟩ := pollOnce_freed os info hdesc hfreed hpolling
    exact ⟨s'', hstep, by simpa [hpoller] using hmem⟩
  | true =>
    have hinv' := inv_step hinv hstarts hs
    obtain ⟨s'', hstep⟩ : ∃ s'', step os info s' (.pollOnce (A := A)) = some s'' := by
      simp only [step, hpolling, if_true]
      split <;> exact ⟨_, rfl⟩
    refine ⟨s'', hstep, ?_⟩
    have hfaults := (inv_step hinv' rfl hstep).faults
    simp only [reduceCtorEq, iff_false]
    intro hmem
    rcases hfaults _ hmem with hf | hf <;> cases hf

/-- A sleep of 100 ns comes to an overflow. -/
theorem sample_poller_used_after_free : ∃ s s' s'' : Process Unit, sampleRun (sampleActions ++ [.newSleep 3 100]) = some s ∧
    step sampleOs sampleInfo s (.pollSleep 3 9) = some s' ∧ step sampleOs sampleInfo s' .pollOnce = some s'' ∧
    .freed s.poller.token ∈ s''.mio.faults := by
  have hrun : sampleRun (sampleActions ++ [.newSleep 3 100]) = some _ := rfl
  obtain ⟨s₀, hnew, hreaches⟩ := reaches_sampleRun hrun
  obtain ⟨s'', hpoll, hiff⟩ := poller_used_after_free_iff (a := .pollSleep 3 9) hnew hreaches rfl rfl
  exact ⟨_, _, s'', hrun, rfl, hpoll, hiff.mpr rfl⟩

end Process

end Hala.Net
