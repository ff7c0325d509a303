import Hala.Io.Mio
import Hala.Theorems.Io.DriverExt

/-! What the calls of the mio driver do to the boxes, for handles whose box is there and holds what they say. -/

namespace Hala.Io.Mio
variable {O A ε α β : Type} {os : Os O A ε} {debug : OpenFlags A → String} {d : Mio O} {handle fd poller : Handle}
  {b : Boxed} {desc : Description}

/-- The call changes nothing but what the system knows, and does not end in a fault. -/
def Asks (d : Mio O) (result : Mio O × Except (MioError ε) α) : Prop :=
  ∃ o r, result = ({ d with os := o }, r) ∧ r ≠ .error (.inner .fault)

/-- The same in a box. -/
def AsksIn (d : Mio O) (b : Boxed) (result : Mio O × Boxed × Except (MioError ε) α) : Prop :=
  ∃ o r, result = ({ d with os := o }, b, r) ∧ r ≠ .error (.inner .fault)

/-- A socket or a timer that has been registered. -/
def Bound (d : Mio O) (handle : Handle) : Prop :=
  ∃ b, d.heap.boxes handle.token = some b ∧ b.desc = handle.desc ∧ b.registered = true

/-- A box that is not its own is changed. -/
theorem Bound.of_update {d' : Mio O} {t : Token} {box : Option Boxed} (h : Bound d handle) (hne : handle.token ≠ t)
    (hboxes : d'.heap.boxes = Function.update d.heap.boxes t box) : Bound d' handle := by
  obtain ⟨b, hbox, hb⟩ := h
  exact ⟨b, by rw [hboxes, Function.update_of_ne hne, hbox], hb⟩

/-- An error of the system is no fault. -/
theorem mapError_ne_fault (r : Except ε α) :
    (r.mapError fun err => .inner (.os err) : Except (MioError ε) α) ≠ .error (.inner .fault) := by
  cases r <;> simp [Except.mapError]

theorem sys_asks (os : Os O A ε) (d : Mio O) (call : SysCall A α) : Asks d (d.sys os call) :=
  ⟨_, _, rfl, mapError_ne_fault _⟩

theorem withPoller_asks (hreg : b.registered = true) {f : Mio O → Mio O × Except (MioError ε) α} (hf : Asks d (f d)) :
    AsksIn d b (d.withPoller b f) := by
  obtain ⟨o, r, heq, hr⟩ := hf
  exact ⟨o, r, by rw [withPoller, if_pos hreg, heq], hr⟩

theorem withBox_asks {f : Mio O → Boxed → Mio O × Boxed × Except (MioError ε) α}
    (hbox : d.heap.boxes handle.token = some b) (hdesc : b.desc = desc) (hf : AsksIn d b (f d b)) :
    Asks d (d.withBox handle desc f) := by
  obtain ⟨o, r, heq, hr⟩ := hf
  refine ⟨o, r, ?_, hr⟩
  rw [withBox, hbox]
  dsimp only
  rw [if_neg (not_not_intro hdesc), heq]
  split
  · next h =>
    simp only [Prod.mk.injEq] at h
    exact absurd h.2.2 hr
  · next h =>
    simp only [Prod.mk.injEq] at h
    obtain ⟨rfl, rfl, rfl⟩ := h
    dsimp only
    rw [Boxes.Heap.set_same hbox]

theorem onSocket_asks (os : Os O A ε) (h : Bound d handle) (desc : Description) (polled : Bool) (call : SysCall A α) :
    Asks d (d.onSocket os handle desc polled call) := by
  obtain ⟨b, hbox, hb, hreg⟩ := h
  rw [onSocket]
  by_cases hdesc : handle.desc = desc
  · rw [Handle.expect_self _ hdesc]
    refine withBox_asks hbox (hb.trans hdesc) ?_
    cases polled with
    | true => exact withPoller_asks (f := (·.sys os call)) hreg (sys_asks os d call)
    | false =>
      obtain ⟨o, r, heq, hr⟩ := sys_asks os d call
      exact ⟨o, r, by simp [heq], hr⟩
  · obtain ⟨message, hexpect⟩ := Handle.expect_ne (Failure ε) hdesc
    rw [hexpect]
    exact ⟨d.os, _, rfl, by simp⟩

theorem timeout_asks (h : Bound d handle) : Asks d (d.timeout os handle) := by
  obtain ⟨b, hbox, hb, hreg⟩ := h
  rw [timeout]
  by_cases hdesc : handle.desc = .timeout
  · rw [Handle.expect_self _ hdesc]
    refine withBox_asks hbox (hb.trans hdesc) ?_
    obtain ⟨o, expired, heq⟩ : ∃ o expired, d.isExpired os handle.token b = ({ d with os := o }, expired) := by
      unfold isExpired
      split
      · exact ⟨_, _, rfl⟩
      · exact ⟨d.os, _, rfl⟩
    rw [heq]
    cases expired with
    | true => exact ⟨o, _, rfl, by simp⟩
    | false =>
      dsimp only
      rw [withPoller, if_pos hreg]
      exact ⟨o, _, rfl, by simp⟩
  · obtain ⟨message, hexpect⟩ := Handle.expect_ne (Failure ε) hdesc
    rw [hexpect]
    exact ⟨d.os, _, rfl, by simp⟩

/-- Commands that sockets and timers have for themselves. -/
def Plain : Cmd A → Prop
  | .register .. | .reRegister .. | .accept _ | .pollOnce _ | .tryClone => False
  | _ => True

theorem answer_asks {call : ExtCall A α} {map : α → CmdResp A} (h : Asks d ((inner os).call d call)) :
    ∃ o, ((inner os).answer d call map).1 = { d with os := o } := by
  obtain ⟨o, r, heq, -⟩ := h
  exact ⟨o, by rw [RawDriverExt.answer, heq]⟩

theorem expectAnswer_asks {call : ExtCall A α} {map : α → CmdResp A} (h : Asks d ((inner os).call d call)) :
    ∃ o, ((inner os).expectAnswer d handle desc call map).1 = { d with os := o } := by
  rw [RawDriverExt.expectAnswer]
  split
  · exact ⟨d.os, rfl⟩
  · exact answer_asks h

theorem fdCntl_plain (os : Os O A ε) (h : Bound d handle) (hfile : handle.desc ≠ .file) (cmd : Cmd A) (hcmd : Plain cmd) :
    ∃ o, (d.fdCntl os handle cmd).1 = { d with os := o } := by
  cases cmd with
  | read | write | localAddr | remoteAddr | shutdown | broadCast | setBroadCast =>
    simp only [fdCntl, RawDriverExt.fdCntl]
    split
    all_goals first
      | exact absurd (by assumption) hfile
      | exact answer_asks (onSocket_asks os h ..)
      | exact ⟨d.os, rfl⟩
  | sendTo | recvFrom => exact expectAnswer_asks (onSocket_asks os h ..)
  | timeout => exact expectAnswer_asks (timeout_asks h)
  | register | reRegister | accept | pollOnce | tryClone => exact hcmd.elim

/-! ### The poller -/

/-- The handle is that of a poller. -/
structure IsPoller (d : Mio O) (poller : Handle) : Prop where
  desc : poller.desc = .poller
  box : d.heap.boxes poller.token = some .poller

theorem IsPoller.next_ne (h : IsPoller d poller) : d.heap.next ≠ poller.token :=
  (Nat.ne_of_lt (d.heap.lt_next h.box)).symm

theorem IsPoller.of_update {d' : Mio O} {t : Token} {box : Option Boxed} (h : IsPoller d poller) (ht : t ≠ poller.token)
    (hboxes : d'.heap.boxes = Function.update d.heap.boxes t box) : IsPoller d' poller :=
  ⟨h.desc, by rw [hboxes, Function.update_of_ne ht.symm, h.box]⟩

theorem fdCntl_pollOnce (os : Os O A ε) (h : IsPoller d poller) (duration : Option Nat) :
    ∃ o r, d.fdCntl os poller (.pollOnce duration) = ({ d with os := o }, r) ∧ r ≠ .error (.inner (.inner .fault)) := by
  have hasks : Asks d (d.pollerPollOnce os poller duration) := by
    rw [pollerPollOnce, onSocket, Handle.expect_self _ h.1]
    obtain ⟨o, r, heq, hr⟩ := sys_asks os d (.poll duration)
    exact withBox_asks h.2 rfl ⟨o, r, by simp [heq], hr⟩
  obtain ⟨o, r, heq, hr⟩ := hasks
  have hcall : (inner os).call d (.pollerPollOnce poller duration) = ({ d with os := o }, r) := heq
  refine ⟨o, (r.mapError .inner).map fun _ => .none, ?_, ?_⟩
  · simp only [fdCntl, RawDriverExt.fdCntl, RawDriverExt.expectAnswer, Handle.expect_self _ h.1, RawDriverExt.answer, hcall]
  · cases r <;> simp_all [Except.mapError, Except.map]

/-! ### Registering, opening and closing -/

def IsSocket (desc : Description) : Prop := desc = .tcpListener ∨ desc = .tcpStream ∨ desc = .udpSocket

theorem withBox_set {d' : Mio O} {f : Mio O → Boxed → Mio O × Boxed × Except (MioError ε) α} {b' : Boxed}
    {r : Except (MioError ε) α} (hbox : d.heap.boxes handle.token = some b) (hdesc : b.desc = desc)
    (hf : f d b = (d', b', r)) (hr : r ≠ .error (.inner .fault)) :
    d.withBox handle desc f = ({ d' with heap := d'.heap.set handle.token b' }, r) := by
  rw [withBox, hbox]
  dsimp only
  rw [if_neg (not_not_intro hdesc), hf]
  split
  · next h =>
    simp only [Prod.mk.injEq] at h
    exact absurd h.2.2 hr
  · next h =>
    simp only [Prod.mk.injEq] at h
    obtain ⟨rfl, rfl, rfl⟩ := h
    rfl

/-- A panic drops the box. -/
theorem withBox_fault {d' : Mio O} {f : Mio O → Boxed → Mio O × Boxed × Except (MioError ε) α} {b' : Boxed}
    (hbox : d.heap.boxes handle.token = some b) (hdesc : b.desc = desc) (hf : f d b = (d', b', .error (.inner .fault))) :
    d.withBox handle desc f = ({ d' with heap := d'.heap.free handle.token }, .error (.inner .fault)) := by
  rw [withBox, hbox]
  dsimp only
  rw [if_neg (not_not_intro hdesc), hf]

theorem register_socket {o : O} {r : Except ε Unit} (hsocket : IsSocket fd.desc)
    (hbox : d.heap.boxes fd.token = some (.socket fd.desc false)) {interests : Interest}
    (hcall : os.call d.os (.register fd.token interests) = (o, r)) :
    d.register os fd interests = ({ d with os := o, heap := d.heap.set fd.token (.socket fd.desc true) },
      r.mapError fun err => .inner (.os err)) := by
  have hin : d.registerBox os fd interests (.socket fd.desc false) =
      ({ d with os := o }, .socket fd.desc true, r.mapError fun err => .inner (.os err)) := by
    simp only [registerBox, sys, hcall]
  have hdesc : (Boxed.socket fd.desc false).desc = fd.desc := rfl
  have hwith := withBox_set (f := fun d b => d.registerBox os fd interests b) hbox hdesc hin (mapError_ne_fault r)
  rw [← hwith]
  rcases hsocket with hdesc | hdesc | hdesc <;> simp only [register, hdesc]

theorem register_timer (os : Os O A ε) {duration : Nat} (hdesc : fd.desc = .timeout)
    (hbox : d.heap.boxes fd.token = some (.timer duration false false)) (interests : Interest)
    (hreturns : (os.newTimer d.os fd.token duration).2 = true) :
    ∃ o, d.register os fd interests =
      ({ d with os := o, heap := d.heap.set fd.token (.timer duration true true) }, .ok ()) := by
  have hin : d.registerBox os fd interests (.timer duration false false) =
      ({ d with os := (os.newTimer d.os fd.token duration).1 }, .timer duration true true, .ok ()) := by
    simp [registerBox, hreturns]
  refine ⟨(os.newTimer d.os fd.token duration).1, ?_⟩
  simp only [register, hdesc]
  exact withBox_set (f := fun d b => d.registerBox os fd interests b) hbox rfl hin (by simp)

theorem register_timer_panics (os : Os O A ε) {duration : Nat} (hdesc : fd.desc = .timeout)
    (hbox : d.heap.boxes fd.token = some (.timer duration false false)) (interests : Interest)
    (hpanics : (os.newTimer d.os fd.token duration).2 = false) :
    ∃ d', d.register os fd interests = (d', .error (.inner .fault)) := by
  have hin : ∃ d', d.registerBox os fd interests (.timer duration false false) =
      (d', .timer duration false false, .error (.inner .fault)) := by
    simp [registerBox, hpanics, panicIn, fault]
  obtain ⟨d', hin⟩ := hin
  simp only [register, hdesc]
  exact ⟨_, withBox_fault (f := fun d b => d.registerBox os fd interests b) hbox rfl hin⟩

theorem fdCntl_register {d' : Mio O} {r : Except (MioError ε) Unit} (hpoller : IsPoller d poller) {interests : Interest}
    (hregister : d.register os fd interests = (d', r)) (hpoller' : IsPoller d' poller) (hr : r ≠ .error (.inner .fault)) :
    d.fdCntl os poller (.register fd interests) = (d', (r.mapError .inner).map fun _ => .none) := by
  have hwith : d.pollerRegister os poller fd interests = (d', r) := by
    rw [pollerRegister, Handle.expect_self _ hpoller.1]
    let f (d : Mio O) (b : Boxed) : Mio O × Boxed × Except (MioError ε) Unit :=
      ((d.register os fd interests).1, b, (d.register os fd interests).2)
    have hin : f d .poller = (d', .poller, r) := by simp [f, hregister]
    have hset := withBox_set (f := f) hpoller.box (by rfl : Boxed.desc .poller = .poller) hin hr
    rw [Boxes.Heap.set_same hpoller'.box] at hset
    exact hset
  have hcall : (inner os).call d (.pollerRegister poller fd interests) = (d', r) := hwith
  simp only [fdCntl, RawDriverExt.fdCntl, RawDriverExt.expectAnswer, Handle.expect_self _ hpoller.1, RawDriverExt.answer,
    hcall]

/-- A panic of the registration drops the poller. -/
theorem fdCntl_register_fault {d' : Mio O} (hpoller : IsPoller d poller) {interests : Interest}
    (hregister : d.register os fd interests = (d', .error (.inner .fault))) :
    d.fdCntl os poller (.register fd interests) =
      ({ d' with heap := d'.heap.free poller.token }, .error (.inner (.inner .fault))) := by
  have hwith : d.pollerRegister os poller fd interests =
      ({ d' with heap := d'.heap.free poller.token }, .error (.inner .fault)) := by
    rw [pollerRegister, Handle.expect_self _ hpoller.1]
    let f (d : Mio O) (b : Boxed) : Mio O × Boxed × Except (MioError ε) Unit :=
      ((d.register os fd interests).1, b, (d.register os fd interests).2)
    have hin : f d .poller = (d', .poller, .error (.inner .fault)) := by simp [f, hregister]
    exact withBox_fault (f := f) hpoller.box (by rfl : Boxed.desc .poller = .poller) hin
  have hcall : (inner os).call d (.pollerRegister poller fd interests) =
      ({ d' with heap := d'.heap.free poller.token }, .error (.inner .fault)) := hwith
  simp only [fdCntl, RawDriverExt.fdCntl, RawDriverExt.expectAnswer, Handle.expect_self _ hpoller.1, RawDriverExt.answer,
    hcall, Except.mapError, Except.map]

/-- The box stays when the deregistration fails, and is dropped when it does not. -/
theorem fdClose_eq {o : O} {r : Except (MioError ε) Unit} (h : Bound d handle)
    (hdesc : IsSocket handle.desc ∨ handle.desc = .timeout) (hderegister : d.deregister os handle = ({ d with os := o }, r))
    (hr : r ≠ .error (.inner .fault)) :
    d.fdClose os handle = match r with
      | .error err => ({ d with os := o, kept := handle.token :: d.kept }, .error err)
      | .ok () => ({ d with os := o, heap := d.heap.free handle.token }, .ok ()) := by
  have hclose : d.fdClose os handle = d.closeRegistered os handle handle.desc := by
    rcases hdesc with (hdesc | hdesc | hdesc) | hdesc <;> simp only [fdClose, hdesc]
  obtain ⟨b, hbox, hb, hreg⟩ := h
  have hin : d.withPoller b (·.deregister os handle) = ({ d with os := o }, b, r) := by
    rw [withPoller, if_pos hreg, hderegister]
  have hwith := withBox_set (f := fun d b => d.withPoller b (·.deregister os handle)) hbox hb hin hr
  rw [hclose, closeRegistered, Handle.expect_self _ rfl]
  dsimp only
  rw [hwith, Boxes.Heap.set_same hbox]
  cases r with
  | error err => rfl
  | ok value => simp only [dropBox, hbox, hb, ne_eq, not_true_eq_false, if_false]

/-- The outcomes of `fd_close`: the box stays, as the deregistration has failed, or it is gone. -/
theorem fdClose_cases (os : Os O A ε) (h : Bound d handle) (hdesc : IsSocket handle.desc ∨ handle.desc = .timeout) :
    (∃ o err, err ≠ .inner .fault ∧
      d.fdClose os handle = ({ d with os := o, kept := handle.token :: d.kept }, .error err)) ∨
    ∃ o, d.fdClose os handle = ({ d with os := o, heap := d.heap.free handle.token }, .ok ()) := by
  have hasks : Asks d (d.deregister os handle) := by
    unfold deregister
    split
    · exact ⟨d.os, _, rfl, by simp⟩
    · exact sys_asks ..
  obtain ⟨o, r, heq, hr⟩ := hasks
  rw [fdClose_eq h hdesc heq hr]
  cases r with
  | error err => exact .inl ⟨o, err, fun herr => hr (by rw [herr]), rfl⟩
  | ok value => exact .inr ⟨o, rfl⟩

/-- `fd_close` of a socket. -/
theorem fdClose_socket {o : O} {r : Except ε Unit} (h : Bound d handle) (hsocket : IsSocket handle.desc)
    (hcall : os.call d.os (.deregister handle.token) = (o, r)) :
    d.fdClose os handle = match r with
      | .error err => ({ d with os := o, kept := handle.token :: d.kept }, .error (.inner (.os err)))
      | .ok () => ({ d with os := o, heap := d.heap.free handle.token }, .ok ()) := by
  have hderegister : d.deregister os handle = ({ d with os := o }, r.mapError fun err => .inner (.os err)) := by
    rcases hsocket with hdesc | hdesc | hdesc <;> simp only [deregister, hdesc, sys, hcall]
  rw [fdClose_eq h (.inl hsocket) hderegister (mapError_ne_fault r)]
  cases r <;> rfl

/-- Flags that a kind of socket is opened with. -/
inductive Opens : Description → OpenFlags A → Prop
  | tcpListener (laddrs : List A) : Opens .tcpListener (.bind laddrs)
  | tcpStream (raddrs : List A) : Opens .tcpStream (.connect raddrs)
  | udpSocket (laddrs : List A) : Opens .udpSocket (.bind laddrs)

theorem Opens.isSocket {flags : OpenFlags A} (h : Opens desc flags) : IsSocket desc := by
  cases h <;> simp [IsSocket]

theorem fdOpen_cases {flags : OpenFlags A} (h : Opens desc flags) (os : Os O A ε) (debug : OpenFlags A → String)
    (d : Mio O) :
    (∃ o err, d.fdOpen os debug desc flags = ({ d with os := o }, .error err)) ∨
    ∃ o, d.fdOpen os debug desc flags =
      ({ d with os := o, heap := d.heap.alloc (.socket desc false) }, .ok { token := d.heap.next, desc }) := by
  obtain ⟨call, hopen⟩ : ∃ call, d.fdOpen os debug desc flags = d.openSocket os desc call := by
    cases h <;> exact ⟨_, rfl⟩
  rw [hopen, openSocket]
  obtain ⟨o, r, heq, -⟩ := sys_asks os d call
  rw [heq]
  cases r with
  | error err => exact .inl ⟨o, err, rfl⟩
  | ok value => exact .inr ⟨o, rfl⟩

theorem fdCntl_accept (h : Bound d handle) (hdesc : handle.desc = .tcpListener) (os : Os O A ε) (waker : Waker) :
    (∃ o err, d.fdCntl os handle (.accept waker) = ({ d with os := o }, .error err)) ∨
    ∃ o raddr, d.fdCntl os handle (.accept waker) =
      ({ d with os := o, heap := d.heap.alloc (.socket .tcpStream false) },
        .ok (.incoming { token := d.heap.next, desc := .tcpStream } raddr)) := by
  obtain ⟨o, r, heq, -⟩ := onSocket_asks os h .tcpListener true (.accept handle.token)
  simp only [fdCntl, RawDriverExt.fdCntl, RawDriverExt.expectAnswer, Handle.expect_self _ hdesc, RawDriverExt.answer, inner,
    tcpListenerAccept, heq]
  cases r with
  | error err => exact .inl ⟨o, _, rfl⟩
  | ok raddr => exact .inr ⟨o, raddr, rfl⟩

end Hala.Io.Mio
