import Hala.Theorems.Quic.Server
import Hala.Quic.Sample

/-! What `write` leaves in the buffer, and what `run_recv_event_loop` sends of it.

The loop only looks at an `Internal`. A packet that comes with an `Incoming` is lost with the next datagram, as nothing else
of the listener has it. -/

namespace Hala.Quic
open Machine
variable {Q : Type}

/-- What the receiving loop does with its buffer. -/
inductive LoopEvent where
  /-- `recv_from` returns. -/
  | received (buf : Bytes) (info : PathInfo)
  | wrote (result : QuicListenerWriteResult)
  /-- `send_to_on_path` returns. -/
  | sent (packet : Bytes) (info : PathInfo)
  deriving DecidableEq, Repr

def loopEvents (s : Server Q) : ServerAction Q → List LoopEvent
  | .datagram buf info => [.received buf info]
  | .recv _ _ =>
    match s.recv with
    | .written (.ok result) => [.wrote result]
    | .sendTo packet info => [.sent packet info]
    | _ => []
  | _ => []

/-- The first `read_size` bytes of the buffer and `send_info`, if `read_size` is not zero. -/
def QuicListenerWriteResult.response : QuicListenerWriteResult → Option (Bytes × PathInfo)
  | .writeSize _ => none
  | .internal _ packet sendInfo | .incoming _ _ packet sendInfo => if packet = [] then none else some (packet, sendInfo)

/-- When a datagram is received, the packet that `write` has left behind the one before has been sent, and nothing else. -/
def Forwarded (past : List LoopEvent) : LoopEvent → Prop
  | .received _ _ => ∀ between result before packet sendInfo, past = between ++ .wrote result :: before →
    (∀ buf info, .received buf info ∉ between) → result.response = some (packet, sendInfo) → between = [.sent packet sendInfo]
  | _ => True

/-- The loop does not look at an `Incoming` that comes with a packet. -/
def noneDropped (s : Server Q) : ServerAction Q → Bool
  | .recv _ _ =>
    match s.recv with
    | .written (.ok (.incoming _ _ packet _)) => packet == []
    | _ => true
  | _ => true

variable {quiche : Quiche Q} {s s' : Server Q} {past : List LoopEvent} {a : ServerAction Q}

/-- What has happened, by the place of the loop. -/
def Place (past : List LoopEvent) : Recv Q → Prop
  | .recvFrom => past = [] ∨ (∃ result buf info before, past = .wrote result :: .received buf info :: before ∧
      result.response = none) ∨ ∃ result packet sendInfo buf info before,
        past = .sent packet sendInfo :: .wrote result :: .received buf info :: before ∧
          result.response = some (packet, sendInfo)
  | .sendTo packet sendInfo => ∃ result buf info before, past = .wrote result :: .received buf info :: before ∧
      result.response = some (packet, sendInfo)
  | .stopped _ => True
  | _ => ∃ buf info before, past = .received buf info :: before

structure Forwarding (s : Server Q) (past : List LoopEvent) : Prop where
  forwarded : Throughout Forwarded past
  place : Place past s.recv

/-- A step that is none of these events. -/
theorem Forwarding.advance (h : Forwarding s past) (hevents : loopEvents s a = []) (hplace : Place past s'.recv) :
    Forwarding s' ((loopEvents s a).reverse ++ past) := by
  rw [hevents]
  exact ⟨h.forwarded, hplace⟩

theorem Forwarding.beside (h : Forwarding s past) (hevents : loopEvents s a = []) (hrecv : s'.recv = s.recv) :
    Forwarding s' ((loopEvents s a).reverse ++ past) :=
  h.advance hevents (hrecv ▸ h.place)

/-- Between the last `write` and this datagram there is the `send_to_on_path` of its packet, if it had one. -/
theorem Forwarding.received (h : Forwarding s past) (hrecv : s.recv = .recvFrom) (buf : Bytes) (info : PathInfo) :
    Forwarded past (.received buf info) := by
  intro between result before packet sendInfo hpast hbetween hresponse
  have hplace := h.place
  rw [hrecv] at hplace
  rcases hplace with hnil | ⟨result', buf', info', before', hwrote, hnone⟩ |
      ⟨result', packet', sendInfo', buf', info', before', hsent, hsome⟩
  · rw [hnil] at hpast
    cases between <;> cases hpast
  · rw [hwrote] at hpast
    rcases between with _ | ⟨e, between⟩
    · cases hpast
      rw [hnone] at hresponse
      cases hresponse
    · rcases between with _ | ⟨e', between⟩ <;> cases hpast
      exact absurd (List.mem_cons_of_mem _ List.mem_cons_self) (hbetween buf' info')
  · rw [hsent] at hpast
    rcases between with _ | ⟨e, between⟩
    · cases hpast
    · rcases between with _ | ⟨e', between⟩
      · cases hpast
        rw [hsome] at hresponse
        cases hresponse
        rfl
      · rcases between with _ | ⟨e'', between⟩ <;> cases hpast
        exact absurd (List.mem_cons_of_mem _ (List.mem_cons_of_mem _ List.mem_cons_self)) (hbetween buf' info')

theorem Forwarding.recvStep {fuel : Nat} {order : List StreamId} (h : Forwarding s past)
    (hok : noneDropped s (.recv fuel order) = true) (hs : RecvCases quiche fuel order s s') :
    Forwarding s' ((loopEvents s (.recv fuel order)).reverse ++ past) := by
  have hplace := h.place
  cases hs with
  | turnedAway hrecv | entered hrecv | unrouted hrecv | routed hrecv | wrote hrecv | writeFailed hrecv | removed hrecv
  | inserted hrecv | queueGone hrecv | pushed hrecv | notified hrecv | batched hrecv =>
    rw [hrecv] at hplace
    exact h.advance (by simp only [loopEvents, hrecv]) hplace
  | @answered buf info acceptor answer hrecv hanswer =>
    rw [hrecv] at hplace
    refine h.advance (by simp only [loopEvents, hrecv]) ?_
    rcases answer with fault | answer
    · exact hplace
    · cases answer <;> exact hplace
  | failed hrecv => exact h.advance (by simp only [loopEvents, hrecv]) trivial
  | @toSend writeSize packet sendInfo hrecv hpacket =>
    rw [hrecv] at hplace
    obtain ⟨buf, info, before, rfl⟩ := hplace
    simp only [loopEvents, hrecv]
    exact ⟨⟨trivial, h.forwarded⟩, _, buf, info, before, rfl, if_neg hpacket⟩
  | @nothingToSend result hrecv hinternal =>
    rw [hrecv] at hplace
    obtain ⟨buf, info, before, rfl⟩ := hplace
    have hnone : result.response = none := by
      cases result with
      | writeSize => rfl
      | internal writeSize packet sendInfo => exact if_pos (hinternal _ _ _ rfl)
      | incoming number writeSize packet sendInfo =>
        simp only [noneDropped, hrecv, beq_iff_eq] at hok
        exact if_pos hok
    simp only [loopEvents, hrecv]
    exact ⟨⟨trivial, h.forwarded⟩, .inr (.inl ⟨result, buf, info, before, rfl, hnone⟩)⟩
  | @sent packet sendInfo hrecv =>
    rw [hrecv] at hplace
    obtain ⟨result, buf, info, before, rfl, hsome⟩ := hplace
    simp only [loopEvents, hrecv]
    exact ⟨⟨trivial, h.forwarded⟩, .inr (.inr ⟨result, packet, sendInfo, buf, info, before, rfl, hsome⟩)⟩

theorem Forwarding.step (h : Forwarding s past) (hok : noneDropped s a = true) (hs : s.step quiche a = some s') :
    Forwarding s' ((loopEvents s a).reverse ++ past) := by
  cases step_cases hs with
  | recv hs => exact h.recvStep hok hs
  | datagram buf info hrecv => exact ⟨⟨h.received hrecv buf info, h.forwarded⟩, buf, info, past, rfl⟩
  | socketError => exact h.advance rfl trivial
  | close hs => exact h.beside rfl hs.beside.2.2
  | accept hs => exact h.beside rfl hs.beside.2.2
  | readReady hs =>
    cases hs with
    | _ => exact h.beside rfl rfl
  | elapse | callClose | callAccept | use | readNoneStopped | readNone => exact h.beside rfl rfl

/-- A step that drops a packet: with the next datagram it has not been sent. -/
theorem step_drops (hok : noneDropped s a = false) (hs : s.step quiche a = some s') (buf : Bytes) (info : PathInfo) :
    (∃ s'', s'.step quiche (.datagram buf info) = some s'') ∧
      ¬Forwarded ((loopEvents s a).reverse ++ past) (.received buf info) := by
  unfold noneDropped at hok
  split at hok
  · split at hok
    · next number writeSize packet sendInfo hrecv =>
      simp only [Server.step, Server.recvStep, hrecv, Option.some.injEq] at hs
      subst hs
      refine ⟨⟨_, rfl⟩, fun hforwarded => ?_⟩
      have hpacket : packet ≠ [] := by simpa using hok
      simp only [loopEvents, hrecv] at hforwarded
      have hsent := hforwarded [] _ past packet sendInfo rfl (by simp) (if_neg hpacket)
      cases hsent
    · cases hok
  · cases hok

/-- In every run in which no `Incoming` comes with a packet, every packet that a `write` returns is sent on its path before the
    next datagram is received; after the first `Incoming` that does, the next datagram finds its packet unsent. -/
theorem handshake_forwarded (quiche : Quiche Q) (sendPingInterval : Nanos) (sign : Bytes → Bytes) (maxDatagramSize : Nat)
    (s : Server Q) (past : List LoopEvent)
    (h : Reaches (traced (Server.step quiche) loopEvents) (fun t a => noneDropped t.1 a = true)
      (Server.start sendPingInterval sign maxDatagramSize, []) (s, past)) :
    Throughout Forwarded past ∧
    ∀ a s', s.step quiche a = some s' → noneDropped s a = false → ∀ buf info,
      (∃ s'', s'.step quiche (.datagram buf info) = some s'') ∧
        ¬Forwarded ((loopEvents s a).reverse ++ past) (.received buf info) := by
  have hinv : Forwarding s past := h.traced_invariant ⟨trivial, .inl rfl⟩ fun hinv hok hs => hinv.step hok hs
  exact ⟨hinv.forwarded, fun a s' hs hok => step_drops hok hs⟩

/-- A connection is made, and the packet that it has is sent before the next datagram. -/
def forwardedRun : List (ServerAction Sample) :=
  Sample.receive Sample.initialPacket 4 ++ Sample.receive (Sample.shortPacket 0) 2

theorem handshake_forwarded_initial :
    ∃ s past, runIf (traced (Server.step Sample.quiche) loopEvents) (fun t a => noneDropped t.1 a)
        (Server.start 1000 id 1200, []) forwardedRun = some (s, past) ∧
      .sent Sample.connId (Sample.loopback 5000).back ∈ past ∧ Throughout Forwarded past :=
  ⟨_, _, rfl, by decide,
    (handshake_forwarded Sample.quiche 1000 id 1200 _ _ (.of_runIf forwardedRun (fun _ _ h => h) rfl)).1⟩

/-- The packet that establishes the connection is answered, and the answer is not sent. -/
def droppedRun : List (ServerAction Sample) :=
  Sample.receive Sample.initialPacket 4 ++ Sample.receive (Sample.shortPacket 0) 7 ++ Sample.receive (Sample.shortPacket 1) 0

theorem established_unanswered :
    ∃ s past, run (traced (Server.step Sample.quiche) loopEvents) (Server.start 1000 id 1200, []) droppedRun = some (s, past) ∧
      ¬Throughout Forwarded past := by
  refine ⟨_, _, rfl, fun hforwarded => ?_⟩
  have hsent := hforwarded.1 [] _ _ Sample.connId _ rfl (by simp) rfl
  cases hsent

end Hala.Quic
