import Hala.Quic.ConnCalls
import Hala.Quic.Connector
import Hala.Quic.Sample
import Hala.Theorems.Quic.Conn

/-! How long a suspended `read` sleeps, and which waits have no timer.

`handle_send_timout` takes the shorter one of the time to the next ping and the timeout of `quiche`, but leaves a timeout
of up to 10 ms out, however long the ping is (`read_sleep_iff`). `timeout` takes a duration of zero for no duration, so
that a wait for a deadline that is due now has no timer (`waits_timed`). -/

namespace Hala.Quic
open Machine QuicConnState
variable {Q : Type} {quiche : Quiche Q} {c c' c₁ : QuicConnState Q} {now d : Nanos} {size : Nat}

/-! ### How long a pass of `read` is to sleep -/

/-- The connection with which a pass of `read` comes to `handle_send_timout`. -/
def QuicConnState.beforeTimout (quiche : Quiche Q) (size : Nat) (c : QuicConnState Q) : Option (QuicConnState Q) :=
  if c.isGone quiche then none
  else
    let c := c.handleDroppingStreams quiche
    match quiche.send c.state.quicheConn size with
    | (q, .error .done) => some (c.setQuiche q)
    | _ => none

/-- The time to the next ping. -/
def QuicConnState.pingLeft (now : Nanos) (c : QuicConnState Q) : Nanos :=
  c.state.pingTimeout - (now - c.state.sendAckElicitingInstant)

/-- The accuracy of the timers, 10 ms. -/
def accuracy : Nat := 10000000

/-- The shorter one of the time to the next ping and a timeout that is longer than the accuracy. -/
def sleepFor (pingLeft : Nat) : Option Nat → Nat
  | some timeout => if timeout < pingLeft ∧ timeout > accuracy then timeout else pingLeft
  | none => pingLeft

theorem handleSendTimout_eq_some_iff :
    c.handleSendTimout quiche now = (c', .ok (some d)) ↔ now - c.state.sendAckElicitingInstant ≤ c.state.pingTimeout ∧
      c' = c ∧ d = sleepFor (c.pingLeft now) (quiche.timeout c.state.quicheConn now) := by
  unfold handleSendTimout sleepFor
  dsimp only
  by_cases hping : now - c.state.sendAckElicitingInstant > c.state.pingTimeout
  · rw [if_pos hping]
    refine iff_of_false (fun h => ?_) (fun h => absurd h.1 (Nat.not_le.mpr hping))
    split at h <;> cases h
  · rw [if_neg hping, and_iff_right (Nat.not_lt.mp hping)]
    cases quiche.timeout c.state.quicheConn now with
    | some timeout =>
      simp only [Prod.mk.injEq, Except.ok.injEq, Option.some.injEq]
      exact and_congr eq_comm eq_comm
    | none =>
      simp only [Prod.mk.injEq, Except.ok.injEq, Option.some.injEq]
      exact and_congr eq_comm eq_comm

theorem handleSendTimout_of_le (quiche : Quiche Q) (h : now - c.state.sendAckElicitingInstant ≤ c.state.pingTimeout) :
    c.handleSendTimout quiche now =
      (c, .ok (some (sleepFor (c.pingLeft now) (quiche.timeout c.state.quicheConn now)))) :=
  handleSendTimout_eq_some_iff.mpr ⟨h, rfl, rfl⟩

/-- A pass of `read` that suspends does so for what `handle_send_timout` returns. -/
theorem read_waits {cell : Cell} {expired : Option Nanos} (h : c.read quiche now size = (c', .wait cell expired)) :
    ∃ c₁ d, c.beforeTimout quiche size = some c₁ ∧ c₁.handleSendTimout quiche now = (c₁, .ok (some d)) ∧ expired = some d := by
  unfold QuicConnState.read at h
  split at h
  · cases h
  next c₀ hstatus =>
  obtain ⟨rfl, hlive⟩ := live_of_status_ok hstatus
  dsimp only at h
  split at h
  · cases h
  · next q hsend =>
    split at h
    · cases h
    · cases h
    · next c₁ d htimout =>
      obtain rfl := handleSendTimout_some htimout
      refine ⟨_, d, ?_, htimout, ?_⟩
      · unfold beforeTimout
        rw [hlive]
        simp only [hsend]
        rfl
      · simp only [QuicConnState.wait, Prod.mk.injEq, Flow.wait.injEq] at h
        exact h.2.2.symm
  · split at h <;> cases h

theorem read_of_timout (hbefore : c.beforeTimout quiche size = some c₁)
    (htimout : c₁.handleSendTimout quiche now = (c₁, .ok (some d))) :
    c.read quiche now size = c₁.wait (.readable c₁.scid) (some d) := by
  unfold beforeTimout at hbefore
  obtain ⟨hlive, hsend⟩ := Option.ite_none_left_eq_some.mp hbefore
  dsimp only at hsend
  have hstatus : c.handleQuicConnStatus quiche = (c, .ok ()) := if_neg hlive
  unfold QuicConnState.read
  simp only [hstatus]
  split at hsend
  · next q hdone =>
    obtain rfl := Option.some.inj hsend
    simp only [hdone, htimout]
  · cases hsend

/-- A sleep is never longer than the time to the next ping. -/
theorem sleepFor_le (pingLeft : Nat) (timeout : Option Nat) : sleepFor pingLeft timeout ≤ pingLeft := by
  unfold sleepFor
  split
  · split
    · next h => exact Nat.le_of_lt h.1
    · exact Nat.le_refl _
  · exact Nat.le_refl _

/-- It is longer than a timeout and the accuracy when the timeout is left out. -/
theorem sleepFor_le_max_iff (pingLeft timeout : Nat) :
    sleepFor pingLeft (some timeout) ≤ max timeout accuracy ↔ accuracy < timeout ∨ pingLeft ≤ accuracy := by
  unfold sleepFor
  dsimp only
  split <;> omega

/-- When `read` suspends, it sleeps no longer than until the next ping and until the timeout of `quiche` or 10 ms,
    exactly when that timeout is over 10 ms or the ping is due within 10 ms. -/
theorem read_sleep_iff (quiche : Quiche Q) (c : QuicConnState Q) (now : Nanos) (size : Nat) :
    (∀ c' cell expired, c.read quiche now size = (c', .wait cell expired) → ∃ c₁ d, c.beforeTimout quiche size = some c₁ ∧
        expired = some d ∧ d ≤ c₁.pingLeft now ∧
          ∀ timeout, quiche.timeout c₁.state.quicheConn now = some timeout → d ≤ max timeout accuracy) ↔
      ∀ c₁ timeout, c.beforeTimout quiche size = some c₁ → quiche.timeout c₁.state.quicheConn now = some timeout →
        accuracy < timeout ∨ c₁.pingLeft now ≤ accuracy := by
  constructor
  · intro h c₁ timeout hbefore htimeout
    by_cases hping : now - c₁.state.sendAckElicitingInstant ≤ c₁.state.pingTimeout
    · have hread := read_of_timout hbefore (handleSendTimout_of_le quiche hping)
      obtain ⟨c₂, d, hbefore₂, hd, -, hmax⟩ := h _ _ _ hread
      obtain rfl := Option.some.inj (hbefore.symm.trans hbefore₂)
      have hle := hmax timeout htimeout
      rw [← Option.some.inj hd, htimeout] at hle
      exact (sleepFor_le_max_iff _ _).mp hle
    · have hdue : c₁.pingLeft now = 0 := Nat.sub_eq_zero_of_le (Nat.le_of_not_le hping)
      rw [hdue]
      exact Or.inr (Nat.zero_le _)
  · intro h c' cell expired hread
    obtain ⟨c₁, d, hbefore, htimout, hexpired⟩ := read_waits hread
    obtain ⟨-, -, hd⟩ := handleSendTimout_eq_some_iff.mp htimout
    refine ⟨c₁, d, hbefore, hexpired, hd ▸ sleepFor_le _ _, fun timeout htimeout => ?_⟩
    rw [hd, htimeout]
    exact (sleepFor_le_max_iff _ _).mpr (h c₁ timeout hbefore htimeout)

/-- A `quiche` whose timeout is due in 5 ms. -/
def dueQuiche : Quiche StreamSample := { StreamSample.quiche with timeout := fun _ _ => some 5000000 }

/-- A connection with a ping interval of one second sleeps for a second. -/
theorem read_oversleeps :
    ∃ c' cell, StreamSample.conn.read dueQuiche 0 1200 = (c', .wait cell (some 1000000000)) ∧
      ∃ c₁, StreamSample.conn.beforeTimout dueQuiche 1200 = some c₁ ∧
        dueQuiche.timeout c₁.state.quicheConn 0 = some 5000000 ∧ ¬1000000000 ≤ max 5000000 accuracy :=
  ⟨_, _, rfl, _, rfl, rfl, by decide⟩

/-! ### Which waits have a timer -/

/-- An await that `timeout` is to end after a duration has a sleep of this duration beside it. -/
def Timed (expired : Option Nanos) : Prop := ∀ d, expired = some d → Io.timeout expired = some d

/-- The task in `read` has a timer while it is suspended. -/
def Reader.Timed : Reader → Prop
  | .wait _ _ duration => Hala.Quic.Timed duration
  | _ => True

/-- The task in `connect_with` has a timer while it waits for a datagram. -/
def ConnectTask.Timed : ConnectTask Q → Prop
  | .receiving _ duration => Hala.Quic.Timed duration
  | _ => True

/-- The connector whose timeout a step of `connect_with` asks for. -/
def ConnectWith.asks (quiche : Quiche Q) (s : ConnectWith Q) : ConnectAction → Option (QuicConnectorState Q)
  | .task =>
    match s.task with
    | .loop =>
      match s.connectorState.send quiche s.maxDatagramSize with
      | (c, .ok none) => if c.isClosed quiche then none else some c
      | _ => none
    | _ => none
  | .sent (.ok ()) =>
    match s.task with
    | .sending .. => if s.connectorState.isClosed quiche then none else some s.connectorState
    | _ => none
  | _ => none

end Hala.Quic
