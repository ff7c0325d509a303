import Hala.Udp.Group
import Hala.Theorems.Net.Sockets

/-! `bind` closes a handle when its registration fails, as far as the driver lets it, and nothing else that it has opened.

What it has opened for earlier addresses is in a map of plain handles, which no early return closes. A group that it does
return maps each of its handles to its own address. -/

namespace Hala.Udp
open Io (Handle Mio Os)
open Io.Mio (IsPoller Bound)
open Net (ErrorInfo IoError)
variable {O ε : Type} {os : Os O SocketAddr ε} {info : ErrorInfo SocketAddr ε} {mio mio' : Mio O} {poller fd : Handle}
  {group group' : UdpGroup} {addr : SocketAddr} {addrs : List SocketAddr} {err : IoError ε}

/-! ### One address -/

/-- `udp_socket_bind` for the address. -/
theorem fdOpen_udp {o : O} {r : Except ε Unit} (hcall : os.call mio.os (.udpSocketBind [addr]) = (o, r)) :
    mio.fdOpen os info.flags .udpSocket (.bind [addr]) = match r with
      | .error err => ({ mio with os := o }, .error (.inner (.os err)))
      | .ok () => ({ mio with os := o, heap := mio.heap.alloc (.socket .udpSocket false) },
          .ok { token := mio.heap.next, desc := .udpSocket }) := by
  simp only [Mio.fdOpen, Mio.andThen, Io.OpenFlags.tryIntoBind, Mio.openSocket, Mio.sys, hcall]
  cases r <;> rfl

/-- The address is refused and no handle is left, or a registered one is. -/
theorem openRegistered_udp (hpoller : IsPoller mio poller) (os : Os O SocketAddr ε) (info : ErrorInfo SocketAddr ε)
    (addr : SocketAddr) :
    let call := Net.openRegistered os info mio poller .udpSocket (.bind [addr]) .all
    (refuses os mio addr = true ∧ call.1.heap.boxes = mio.heap.boxes ∧ call.2.toOption = none) ∨
      (refuses os mio addr = false ∧ call.1.heap = Net.registeredIn mio.heap .udpSocket ∧
        ∀ fd, call.2 = .ok fd → fd = { token := mio.heap.next, desc := .udpSocket }) := by
  obtain ⟨o, r, hcall⟩ : ∃ o r, os.call mio.os (.udpSocketBind [addr]) = (o, r) := ⟨_, _, rfl⟩
  rw [Net.openRegistered, fdOpen_udp hcall]
  cases r with
  | error e => exact .inl ⟨by rw [refuses, hcall], rfl, rfl⟩
  | ok value =>
    have hregistering := Net.registerOrClose_registering os o hpoller (.inr (.inr rfl) : Mio.IsSocket .udpSocket) .all
    dsimp only
    revert hregistering
    generalize Net.registerOrClose os _ _ poller .all = call
    intro hregistering
    cases hregistering with
    | registered hregister =>
      refine .inr ⟨by rw [refuses, hcall]; dsimp only; rw [hregister], rfl, fun fd hfd => ?_⟩
      cases hfd
      rfl
    | closed hregister hderegister =>
      refine .inl ⟨?_, Net.free_registeredIn .., rfl⟩
      rw [refuses, hcall]
      dsimp only
      rw [hregister]
      dsimp only
      rw [hderegister]
      rfl
    | kept hregister hderegister =>
      refine .inr ⟨?_, rfl, fun fd hfd => ?_⟩
      · rw [refuses, hcall]
        dsimp only
        rw [hregister]
        dsimp only
        rw [hderegister]
        rfl
      · cases hfd

/-- The question for the local address of a registered socket changes no handle. -/
theorem localAddr_heap (hbound : Bound mio fd) (hdesc : fd.desc = .udpSocket) (os : Os O SocketAddr ε)
    (info : ErrorInfo SocketAddr ε) :
    (Net.cntlAs os mio fd .localAddr (·.tryIntoSockaddr info.resp)).1.heap = mio.heap := by
  obtain ⟨o, heq⟩ := Mio.fdCntl_plain os hbound (by simp [hdesc]) .localAddr trivial
  change (mio.fdCntl os fd .localAddr).1.heap = mio.heap
  rw [heq]

theorem registeredIn_next (heap : mio'.heap = Net.registeredIn mio.heap .udpSocket) :
    mio'.heap.boxes mio.heap.next = some (.socket .udpSocket true) := by
  rw [heap, Net.registeredIn_boxes, Function.update_self]

theorem bound_registeredIn (heap : mio'.heap = Net.registeredIn mio.heap .udpSocket) :
    Bound mio' { token := mio.heap.next, desc := .udpSocket } :=
  ⟨_, registeredIn_next heap, rfl, rfl⟩

/-! ### The loop -/

/-- What a turn of the loop makes of the address, and so what the loop returns. -/
inductive Turn (os : Os O SocketAddr ε) (info : ErrorInfo SocketAddr ε) (poller : Handle) (mio : Mio O) (group : UdpGroup)
    (addr : SocketAddr) (addrs : List SocketAddr) : Mio O × Except (IoError ε) UdpGroup → Prop
  | refused {mio₁ : Mio O} {err : IoError ε} (hrefuses : refuses os mio addr = true)
      (hboxes : mio₁.heap.boxes = mio.heap.boxes) : Turn os info poller mio group addr addrs (mio₁, .error err)
  | left {mio₁ : Mio O} {err : IoError ε} (hrefuses : refuses os mio addr = false)
      (heap : mio₁.heap = Net.registeredIn mio.heap .udpSocket) :
      Turn os info poller mio group addr addrs (mio₁, .error err)
  | inserted {mio₁ : Mio O} {laddr : SocketAddr} (hrefuses : refuses os mio addr = false)
      (heap : mio₁.heap = Net.registeredIn mio.heap .udpSocket) :
      Turn os info poller mio group addr addrs
        (bindAll os info poller mio₁ (group.insert laddr { token := mio.heap.next, desc := .udpSocket }) addrs)

theorem bindAll_cons (hpoller : IsPoller mio poller) :
    Turn os info poller mio group addr addrs (bindAll os info poller mio group (addr :: addrs)) := by
  have hopen := openRegistered_udp hpoller os info addr
  rw [bindAll]
  revert hopen
  generalize Net.openRegistered os info mio poller _ _ _ = call
  obtain ⟨mio₁, result⟩ := call
  rintro (⟨hrefuses, hboxes, hnone⟩ | ⟨hrefuses, heap, hfd⟩)
  · cases result with
    | error e => exact .refused hrefuses hboxes
    | ok fd => cases hnone
  · cases result with
    | error e => exact .left hrefuses heap
    | ok fd =>
      obtain rfl := hfd fd rfl
      have hlocal := localAddr_heap (bound_registeredIn heap) rfl os info
      dsimp only
      revert hlocal
      generalize Net.cntlAs os mio₁ _ _ _ = answer
      obtain ⟨mio₂, laddr⟩ := answer
      intro hlocal
      have heap₂ : mio₂.heap = Net.registeredIn mio.heap .udpSocket := hlocal.trans heap
      cases laddr with
      | error e => exact .left hrefuses heap₂
      | ok laddr => exact .inserted hrefuses heap₂

/-- A box that is there stays. -/
theorem registeredIn_keeps {t : Io.Token} {b : Io.Boxed} (h : mio.heap.boxes t = some b)
    (heap : mio'.heap = Net.registeredIn mio.heap .udpSocket) : mio'.heap.boxes t = some b := by
  rw [heap, Net.registeredIn_boxes, Function.update_of_ne (Nat.ne_of_lt (mio.heap.lt_next h)), h]

theorem isPoller_registeredIn (h : IsPoller mio poller) (heap : mio'.heap = Net.registeredIn mio.heap .udpSocket) :
    IsPoller mio' poller :=
  ⟨h.desc, registeredIn_keeps h.box heap⟩

theorem bindAll_keeps {t : Io.Token} {b : Io.Boxed} (hpoller : IsPoller mio poller) (h : mio.heap.boxes t = some b) :
    (bindAll os info poller mio group addrs).1.heap.boxes t = some b := by
  induction addrs generalizing mio group with
  | nil => exact h
  | cons addr addrs ih =>
    have hturn : Turn os info poller mio group addr addrs _ := bindAll_cons hpoller
    revert hturn
    generalize bindAll os info poller mio group (addr :: addrs) = result
    intro hturn
    cases hturn with
    | refused _ hboxes => exact hboxes ▸ h
    | left _ heap => exact registeredIn_keeps h heap
    | inserted _ heap => exact ih (isPoller_registeredIn hpoller heap) (registeredIn_keeps h heap)

/-- A handle that stays open is one that the driver did not have. -/
theorem opened_ne {b : Io.Boxed} (h : mio'.heap.boxes mio.heap.next = some b) : Opened mio' ≠ Opened mio := by
  intro heq
  have hopened : Opened mio' { token := mio.heap.next, desc := b.desc } := ⟨b, h, rfl⟩
  rw [heq] at hopened
  obtain ⟨b', hbox, -⟩ := hopened
  rw [mio.heap.fresh _ (Nat.le_refl _)] at hbox
  cases hbox

theorem opened_eq (h : mio'.heap.boxes = mio.heap.boxes) : Opened mio' = Opened mio := by
  funext fd
  rw [Opened, Opened, h]

/-- `bind` that fails leaves the driver with the handles that it had, exactly if it fails before it has registered its first
    socket, and can close it. -/
theorem bind_undone_iff {O ε : Type} (os : Os O SocketAddr ε) (info : ErrorInfo SocketAddr ε) (mio mio' : Mio O)
    (poller : Handle) (hpoller : IsPoller mio poller) (laddrs : Except ε (List SocketAddr)) (err : IoError ε)
    (h : bind os info mio poller laddrs = (mio', .error err)) :
    Opened mio' = Opened mio ↔ failsEarly os mio laddrs = true := by
  cases laddrs with
  | error e =>
    cases h
    exact iff_of_true rfl rfl
  | ok addrs =>
    cases addrs with
    | nil => cases h
    | cons addr addrs =>
      have hturn : Turn os info poller mio {} addr addrs (mio', .error err) := h ▸ bindAll_cons hpoller
      rw [failsEarly]
      generalize hresult : (mio', (.error err : Except (IoError ε) UdpGroup)) = result at hturn
      cases hturn with
      | refused hrefuses hboxes =>
        cases hresult
        exact iff_of_true (opened_eq hboxes) hrefuses
      | left hrefuses heap =>
        cases hresult
        exact iff_of_false (opened_ne (registeredIn_next heap)) (by simp [hrefuses])
      | @inserted mio₁ laddr hrefuses heap =>
        have hkept : mio'.heap.boxes mio.heap.next = some _ :=
          congrArg Prod.fst hresult ▸ bindAll_keeps (isPoller_registeredIn hpoller heap) (registeredIn_next heap)
        exact iff_of_false (opened_ne hkept) (by simp [hrefuses])

/-- A system that binds every address but those in use, and asks for no more than `bind` does. -/
def system (inUse : List SocketAddr) (registers deregisters : Bool) : Os Unit SocketAddr String where
  call := fun
    | (), .udpSocketBind laddrs => ((), if laddrs.all (· ∈ inUse) then .error "EADDRINUSE" else .ok ())
    | (), .register .. => ((), if registers then .ok () else .error "ENOSPC")
    | (), .deregister _ => ((), if deregisters then .ok () else .error "ENOENT")
    | (), .localAddr token => ((), .ok (40000 + token))
    | (), _ => ((), .error "ENOTSUP")
  newTimer o _ _ := (o, true)
  isExpired o _ := (o, false)

def errorInfo : ErrorInfo SocketAddr String where
  flags _ := "Bind"
  resp _ := "SockAddr"
  wouldBlock err := err = "EAGAIN"

/-- The driver of `io_context()`, which has opened its poller, and the handle of that. -/
def started : Mio Unit where
  os := ()
  heap := Boxes.Heap.empty.alloc .poller

def startedPoller : Handle := { token := 0, desc := .poller }

/-- The first address is in use; and the first socket cannot be registered, and is closed. -/
theorem bind_undone_iff_first :
    Opened (bind (system [7] true true) errorInfo started startedPoller (.ok [7, 8])).1 = Opened started ∧
      Opened (bind (system [] false true) errorInfo started startedPoller (.ok [7, 8])).1 = Opened started :=
  ⟨(bind_undone_iff (system [7] true true) errorInfo started _ startedPoller ⟨rfl, rfl⟩ (.ok [7, 8])
      (.inner (.inner (.os "EADDRINUSE"))) rfl).mpr rfl,
    (bind_undone_iff (system [] false true) errorInfo started _ startedPoller ⟨rfl, rfl⟩ (.ok [7, 8])
      (.inner (.inner (.os "ENOSPC"))) rfl).mpr rfl⟩

/-- The second address is in use, and the socket of the first one stays; so does one that can be neither registered nor
    deregistered. -/
theorem first_socket_stays :
    let fd : Handle := { token := 1, desc := .udpSocket }
    let second := bind (system [8] true true) errorInfo started startedPoller (.ok [7, 8])
    let first := bind (system [] false false) errorInfo started startedPoller (.ok [7])
    ¬Opened started fd ∧ second.2.isOk = false ∧ Opened second.1 fd ∧ first.2.isOk = false ∧ Opened first.1 fd := by
  refine ⟨?_, rfl, ⟨_, rfl, rfl⟩, rfl, ⟨_, rfl, rfl⟩⟩
  rintro ⟨b, hbox, -⟩
  cases hbox

/-! ### The group -/

/-- Each handle of the group has its own address, and the driver is past them. -/
structure UdpGroup.Mapped (group : UdpGroup) (next : Io.Token) : Prop where
  laddr : ∀ laddr fd, (laddr, fd) ∈ group.fds → group.handleToLaddr fd = some laddr
  lt : ∀ laddr fd, (laddr, fd) ∈ group.fds → fd.token < next
  nodup : (group.fds.map Prod.snd).Nodup

theorem UdpGroup.Mapped.insert {next : Io.Token} (h : group.Mapped next) (laddr : SocketAddr) (desc : Io.Description) :
    (group.insert laddr { token := next, desc }).Mapped (next + 1) where
  laddr laddr' fd hmem := by
    rw [UdpGroup.insert, List.mem_append, List.mem_singleton] at hmem
    rcases hmem with hold | hnew
    · have hold := List.mem_of_mem_filter hold
      have hne : fd ≠ { token := next, desc } := by
        rintro rfl
        exact Nat.lt_irrefl _ (h.lt _ _ hold)
      exact (Function.update_of_ne hne ..).trans (h.laddr _ _ hold)
    · cases hnew
      exact Function.update_self ..
  lt laddr' fd hmem := by
    rw [UdpGroup.insert, List.mem_append, List.mem_singleton] at hmem
    rcases hmem with hold | hnew
    · exact Nat.lt_succ_of_lt (h.lt _ _ (List.mem_of_mem_filter hold))
    · cases hnew
      exact Nat.lt_succ_self _
  nodup := by
    rw [UdpGroup.insert, List.map_append]
    refine List.nodup_append.mpr
      ⟨h.nodup.sublist (List.filter_sublist.map _), List.nodup_cons.mpr ⟨List.not_mem_nil, .nil⟩, ?_⟩
    intro fd hold fd' hnew heq
    obtain ⟨⟨laddr', fd''⟩, hmem, rfl⟩ := List.mem_map.mp hold
    have hlt := h.lt laddr' fd'' (List.mem_of_mem_filter hmem)
    rw [List.map_singleton, List.mem_singleton] at hnew
    subst heq hnew
    exact Nat.lt_irrefl _ hlt

theorem bindAll_mapped (hpoller : IsPoller mio poller) (h : group.Mapped mio.heap.next)
    (hbind : bindAll os info poller mio group addrs = (mio', .ok group')) : group'.Mapped mio'.heap.next := by
  induction addrs generalizing mio group with
  | nil =>
    cases hbind
    exact h
  | cons addr addrs ih =>
    have hturn : Turn os info poller mio group addr addrs (mio', .ok group') := hbind ▸ bindAll_cons hpoller
    generalize hresult : (mio', (.ok group' : Except (IoError ε) UdpGroup)) = result at hturn
    cases hturn with
    | refused | left => cases hresult
    | inserted _ heap =>
      refine ih (isPoller_registeredIn hpoller heap) ?_ hresult.symm
      rw [heap]
      exact h.insert _ _

/-- The group that `bind` returns. -/
theorem bind_mapped {laddrs : Except ε (List SocketAddr)} (hpoller : IsPoller mio poller)
    (h : bind os info mio poller laddrs = (mio', .ok group)) : group.Mapped mio'.heap.next := by
  cases laddrs with
  | error e => cases h
  | ok addrs =>
    have hempty : UdpGroup.Mapped {} mio.heap.next := ⟨nofun, nofun, .nil⟩
    exact bindAll_mapped hpoller hempty h

end Hala.Udp
