import Hala.Io.DriverExt

/-! What `fd_cntl` of `RawDriverExtProxy` gives back of the results of the inner driver.

Only the value of `SO_BROADCAST` is lost: `BroadCast` is answered with `CmdResp::None`, as `SetBroadCast` is, and
`UdpSocket::broadcast` takes that for an error. -/

namespace Hala.Io
variable {A ε : Type} {D : Type*} {inner : RawDriverExt A ε D} {debug : CmdResp A → String} {d : D} {handle : Handle}
  {cmd : Cmd A}

theorem Handle.expect_self (ε : Type) {desc : Description} (h : handle.desc = desc) :
    (handle.expect desc : Except (DriverError ε) Unit) = .ok () := by
  simp [Handle.expect, h]

theorem Handle.expect_ne (ε : Type) {desc : Description} (h : handle.desc ≠ desc) :
    ∃ message, (handle.expect desc : Except (DriverError ε) Unit) = .error (.new .invalidInput message) := by
  simp [Handle.expect, h]

namespace RawDriverExt

/-- What has come of a command: nothing was called, as no operation for it takes this kind of handle, or one operation was,
    and its result is what the callers of the command get. -/
inductive Adapts (inner : RawDriverExt A ε D) (debug : CmdResp A → String) (d : D) (handle : Handle) (cmd : Cmd A)
    (result : (D × List (Σ α : Type, ExtCall A α)) × Except (DriverError ε) (CmdResp A)) : Prop
  | rejected (message : String) (hcalls : ∀ op ∈ cmd.calls handle, ¬op.Takes handle.desc)
      (hresult : result = ((d, []), .error (.new .invalidInput message)))
  | failed (op : ExtCall A cmd.Output) (hop : op ∈ cmd.calls handle) (htakes : op.Takes handle.desc) (err : ε)
      (hinner : (inner.call d op).2 = .error err)
      (hresult : result = (((inner.call d op).1, [⟨_, op⟩]), .error (.inner err)))
  | answered (op : ExtCall A cmd.Output) (hop : op ∈ cmd.calls handle) (htakes : op.Takes handle.desc) (out : cmd.Output)
      (hinner : (inner.call d op).2 = .ok out) (resp : CmdResp A)
      (hresult : result = (((inner.call d op).1, [⟨_, op⟩]), .ok resp))
      (htry : cmd.tryInto (ε := ε) debug resp = some (.ok out))

theorem logged_answer_error {α : Type} {op : ExtCall A α} {err : ε} (h : (inner.call d op).2 = .error err)
    (map : α → CmdResp A) :
    inner.logged.answer (d, []) op map = (((inner.call d op).1, [⟨α, op⟩]), .error (.inner err)) := by
  simp [answer, logged, h, Except.mapError, Except.map]

theorem logged_answer_ok {α : Type} {op : ExtCall A α} {out : α} (h : (inner.call d op).2 = .ok out) (map : α → CmdResp A) :
    inner.logged.answer (d, []) op map = (((inner.call d op).1, [⟨α, op⟩]), .ok (map out)) := by
  simp [answer, logged, h, Except.mapError, Except.map]

/-- A call whose value is in the response. -/
theorem answer_adapts {op : ExtCall A cmd.Output} {map : cmd.Output → CmdResp A} (hop : op ∈ cmd.calls handle)
    (htakes : op.Takes handle.desc) (hmap : ∀ out, cmd.tryInto (ε := ε) debug (map out) = some (.ok out)) :
    Adapts inner debug d handle cmd (inner.logged.answer (d, []) op map) := by
  cases hinner : (inner.call d op).2 with
  | error err => exact .failed op hop htakes err hinner (logged_answer_error hinner map)
  | ok out => exact .answered op hop htakes out hinner (map out) (logged_answer_ok hinner map) (hmap out)

/-- A command that has one operation, for one kind of handle. -/
theorem expectAnswer_adapts {op : ExtCall A cmd.Output} {map : cmd.Output → CmdResp A} {desc : Description}
    (hcalls : cmd.calls handle = [op]) (htakes : op.Takes handle.desc ↔ handle.desc = desc)
    (hmap : ∀ out, cmd.tryInto (ε := ε) debug (map out) = some (.ok out)) :
    Adapts inner debug d handle cmd (inner.logged.expectAnswer (d, []) handle desc op map) := by
  by_cases hdesc : handle.desc = desc
  · rw [expectAnswer, Handle.expect_self ε hdesc]
    exact answer_adapts (by simp [hcalls]) (htakes.mpr hdesc) hmap
  · obtain ⟨message, hexpect⟩ := Handle.expect_ne ε hdesc
    rw [expectAnswer, hexpect]
    exact .rejected message (by simpa [hcalls, htakes] using hdesc) rfl

theorem reject_adapts (expected : String) (desc : Description) (hcalls : ∀ op ∈ cmd.calls handle, ¬op.Takes handle.desc) :
    Adapts inner debug d handle cmd (reject (d, []) expected desc) :=
  .rejected _ hcalls rfl

/-- Every other command keeps what the inner driver gives. -/
theorem fdCntl_adapts (hcmd : cmd ≠ .broadCast) :
    Adapts inner debug d handle cmd (inner.logged.fdCntl (d, []) handle cmd) := by
  cases cmd with
  | read | write =>
    simp only [fdCntl]
    split
    · next hdesc => exact answer_adapts (by simp [Cmd.calls]) hdesc fun _ => rfl
    · next hdesc => exact answer_adapts (by simp [Cmd.calls]) hdesc fun _ => rfl
    · next hfile htcp => exact reject_adapts _ _ (by simpa [Cmd.calls, ExtCall.Takes] using ⟨hfile, htcp⟩)
  | localAddr =>
    simp only [fdCntl]
    split
    · next hdesc => exact answer_adapts (by simp [Cmd.calls]) hdesc fun _ => rfl
    · next hdesc => exact answer_adapts (by simp [Cmd.calls]) hdesc fun _ => rfl
    · next hdesc => exact answer_adapts (by simp [Cmd.calls]) hdesc fun _ => rfl
    · next hlistener htcp hudp => exact reject_adapts _ _ (by simpa [Cmd.calls, ExtCall.Takes] using ⟨hlistener, htcp, hudp⟩)
  | tryClone =>
    simp only [fdCntl]
    split
    · next hdesc => exact answer_adapts (by simp [Cmd.calls]) hdesc fun _ => rfl
    · exact answer_adapts (by simp [Cmd.calls]) trivial fun _ => rfl
  | remoteAddr | shutdown | setBroadCast =>
    simp only [fdCntl]
    split
    · next hdesc => exact answer_adapts (by simp [Cmd.calls]) hdesc fun _ => rfl
    · next hdesc => exact reject_adapts _ _ (by simpa [Cmd.calls, ExtCall.Takes] using hdesc)
  | sendTo | recvFrom | register | reRegister | accept | pollOnce | timeout =>
    exact expectAnswer_adapts rfl Iff.rfl fun _ => rfl
  | broadCast => exact absurd rfl hcmd

theorem fdCntl_broadCast_ne (hdesc : handle.desc ≠ .udpSocket) :
    Adapts inner debug d handle .broadCast (inner.logged.fdCntl (d, []) handle .broadCast) := by
  simp only [fdCntl]
  exact reject_adapts _ _ (by simpa [Cmd.calls, ExtCall.Takes] using hdesc)

theorem fdCntl_broadCast_udp (inner : RawDriverExt A ε D) (d : D) (hdesc : handle.desc = .udpSocket) :
    inner.fdCntl d handle .broadCast = inner.answer d (.udpSocketGetBroadcast handle) fun _ => .none := by
  simp only [fdCntl, hdesc]

/-- The callers of `BroadCast` get nothing from `None`. -/
theorem not_adapts_broadCast_none {state : D × List (Σ α : Type, ExtCall A α)} :
    ¬Adapts inner debug d handle .broadCast (state, .ok .none) := by
  intro hadapts
  cases hadapts with
  | rejected message hcalls hresult => cases congrArg Prod.snd hresult
  | failed op hop htakes err hinner hresult => cases congrArg Prod.snd hresult
  | answered op hop htakes out hinner resp hresult htry =>
    cases congrArg Prod.snd hresult
    cases htry

end RawDriverExt

open RawDriverExt in
/-- `fd_cntl` rejects the kind of the handle, or makes one call whose result the callers of the command get back, except for
    `BroadCast` on a UDP socket whose value of `SO_BROADCAST` could be read. -/
theorem fdCntl_adapts_iff (inner : RawDriverExt A ε D) (debug : CmdResp A → String) (d : D) (handle : Handle) (cmd : Cmd A) :
    Adapts inner debug d handle cmd (inner.logged.fdCntl (d, []) handle cmd) ↔
      ¬(cmd = .broadCast ∧ handle.desc = .udpSocket ∧ ∃ on, (inner.call d (.udpSocketGetBroadcast handle)).2 = .ok on) := by
  constructor
  · rintro hadapts ⟨rfl, hdesc, on, hon⟩
    rw [fdCntl_broadCast_udp _ _ hdesc, logged_answer_ok hon] at hadapts
    exact not_adapts_broadCast_none hadapts
  · intro h
    by_cases hcmd : cmd = .broadCast
    · subst hcmd
      by_cases hdesc : handle.desc = .udpSocket
      · rw [fdCntl_broadCast_udp _ _ hdesc]
        cases hinner : (inner.call d (.udpSocketGetBroadcast handle)).2 with
        | error err =>
          have hop : .udpSocketGetBroadcast handle ∈ Cmd.calls (A := A) handle .broadCast := by simp [Cmd.calls]
          exact .failed _ hop hdesc err hinner (logged_answer_error hinner _)
        | ok on => exact absurd ⟨rfl, hdesc, on, hinner⟩ h
      · exact fdCntl_broadCast_ne hdesc
    · exact fdCntl_adapts hcmd

/-- A driver of UDP sockets that has nothing but their `SO_BROADCAST`. -/
def broadcastDriver : RawDriverExt Unit Unit Bool where
  call
    | on, .udpSocketGetBroadcast _ => (on, .ok on)
    | _, .udpSocketSetBroadcast _ on => (on, .ok ())
    | on, _ => (on, .error ())

/-- After `set_broadcast(true)` the driver has `true`, and `broadcast` fails: `fd_cntl` has replaced it with `None`. -/
theorem broadcast_lost : ∃ (handle : Handle) (on : Bool),
    broadcastDriver.fdCntl false handle (.setBroadCast true) = (on, .ok .none) ∧
    (broadcastDriver.call on (.udpSocketGetBroadcast handle)).2 = .ok true ∧
    broadcastDriver.fdCntl on handle .broadCast = (on, .ok .none) ∧
    Cmd.broadCast.tryInto (ε := Unit) (fun _ => "None") (CmdResp.none (A := Unit)) =
      some (.error (.new .invalidInput "Expect Broadcast, but got None")) ∧
    ¬RawDriverExt.Adapts broadcastDriver (fun _ => "None") on handle .broadCast
      (broadcastDriver.logged.fdCntl (on, []) handle .broadCast) := by
  refine ⟨⟨4, .udpSocket⟩, true, rfl, rfl, rfl, rfl, ?_⟩
  exact RawDriverExt.not_adapts_broadCast_none

end Hala.Io
