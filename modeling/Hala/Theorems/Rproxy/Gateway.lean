import Hala.Rproxy.Gateway
import Hala.Lib.Tasks
import Hala.Theorems.Rproxy.Rproxy

/-! The gateway on QUIC streams in every run: each stream that a connection has accepted is handed to one call of
`handshake`, in the order of its connection. -/

namespace Hala.Proxy
open Machine
variable {C S ε : Type} {chan : Channel C (Nat × S)} {content : C → List (Nat × S)} {g g' : Gateway C S ε}
  {past : List (Nat × S)} {k : Nat} {conn : Forward S}

namespace Gateway

structure Inv (content : C → List (Nat × S)) (g : Gateway C S ε) (past : List (Nat × S)) : Prop where
  rproxy : Reachable Rproxy.step {} g.rproxy
  spawned : g.rproxy.spawned = g.inbound.length
  idle : ∀ k, g.established ≤ k → g.conns k = .idle
  order : g.receiver = true → ∀ k,
    (Merge.part k past).reverse = Merge.part k g.inbound ++ Merge.part k (content g.channel) ++ (g.conns k).hand
  taken : ∀ k, Merge.part k g.inbound <+: (Merge.part k past).reverse

theorem inv_init (hchan : chan.Fifo content) : Inv content (start chan : Gateway C S ε) [] where
  rproxy := .refl
  spawned := rfl
  idle _ _ := rfl
  order _ k := by simp [start, hchan.new, Forward.hand]
  taken _ := List.prefix_rfl

theorem Inv.lt_established (h : Inv content g past) (hconn : g.conns k = conn) (hidle : conn ≠ .idle) : k < g.established := by
  by_contra hge
  exact hidle (hconn ▸ h.idle k (Nat.le_of_not_lt hge))

/-- The task of connection `k` has moved on, with a stream that was accepted, or one that is now in the channel. -/
theorem Inv.forwarded (h : Inv content g past) (streams sent : List (Nat × S)) (channel : C) (conn' : Forward S)
    (hconn : g.conns k = conn) (hidle : conn ≠ .idle) (hchannel : content channel = content g.channel ++ sent)
    (hothers : ∀ k', k' ≠ k → Merge.part k' streams = [] ∧ Merge.part k' sent = [])
    (hself : g.receiver = true → conn.hand ++ (Merge.part k streams).reverse = Merge.part k sent ++ conn'.hand) :
    Inv content ({ g with channel }.setConn k conn') (streams ++ past) where
  rproxy := h.rproxy
  spawned := h.spawned
  idle j hj := by
    simp only [setConn]
    rw [Function.update_of_ne, h.idle j hj]
    exact (Nat.lt_of_lt_of_le (h.lt_established hconn hidle) hj).ne'
  order hreceiver j := by
    have hold := h.order hreceiver j
    simp only [setConn, hchannel, Merge.part_append, List.reverse_append, hold]
    rcases eq_or_ne j k with rfl | hne
    · rw [Function.update_self, hconn, List.append_assoc _ _ (Merge.part j streams).reverse, hself hreceiver]
      simp only [List.append_assoc]
    · rw [Function.update_of_ne hne, (hothers j hne).1, (hothers j hne).2]
      simp
  taken j := by
    rw [Merge.part_append, List.reverse_append]
    exact (h.taken j).trans (List.prefix_append _ _)

theorem Inv.dropListener (h : Inv content g past) (g' : Gateway C S ε) (hstep : g.rproxy.step .stop = some g'.rproxy)
    (hinbound : g'.inbound = g.inbound) (hconns : g'.conns = g.conns) (hestablished : g'.established = g.established) :
    Inv content (g'.dropListener chan) past where
  rproxy := h.rproxy.step trivial hstep
  spawned := by
    obtain ⟨-, hstep⟩ := Option.ite_none_right_eq_some.mp hstep
    have hspawned := congrArg Rproxy.spawned (Option.some.inj hstep)
    exact hspawned.symm.trans (h.spawned.trans (congrArg List.length hinbound.symm))
  idle := by
    rw [Gateway.dropListener, hconns, hestablished]
    exact h.idle
  order := nofun
  taken := by
    rw [Gateway.dropListener, hinbound]
    exact h.taken

/-- Only the accept loop spawns calls, and only its end is the end of accepting. -/
theorem step_frame {s s' : Rproxy ε} {action : RproxyAction ε} (haccept : action ≠ .accept) (hstop : action ≠ .stop)
    (hs : s.step action = some s') : s'.spawned = s.spawned ∧ s'.accepting = s.accepting := by
  cases action with
  | accept => exact absurd rfl haccept
  | stop => exact absurd rfl hstop
  | handshaken i result =>
    simp only [Rproxy.step] at hs
    split at hs <;> cases hs <;> exact ⟨rfl, rfl⟩
  | task i =>
    simp only [Rproxy.step, Rproxy.taskStep] at hs
    split at hs
    case h_2 => split at hs <;> cases hs <;> exact ⟨rfl, rfl⟩
    all_goals cases hs <;> exact ⟨rfl, rfl⟩
  | drop i =>
    simp only [Rproxy.step, Rproxy.dropTask] at hs
    split at hs <;> cases hs <;> exact ⟨rfl, rfl⟩
  | closedWith session r =>
    cases hs
    cases (s.sessions session).waker <;> exact ⟨rfl, rfl⟩
  | stats j =>
    simp only [Rproxy.step, Rproxy.statsStep] at hs
    split at hs <;> cases hs <;> exact ⟨rfl, rfl⟩

theorem Inv.establish (h : Inv content g past) :
    Inv content ({ g with established := g.established + 1 }.setConn g.established .acceptStream) past where
  rproxy := h.rproxy
  spawned := h.spawned
  idle j hj := by
    have hj' : g.established + 1 ≤ j := hj
    simp only [setConn]
    rw [Function.update_of_ne (by omega), h.idle j (by omega)]
  order hreceiver j := by
    have hold := h.order hreceiver j
    rcases eq_or_ne j g.established with rfl | hne
    · rw [h.idle _ (Nat.le_refl _)] at hold
      simpa [setConn, Forward.hand] using hold
    · simpa [setConn, Function.update_of_ne hne] using hold
  taken := h.taken

/-- The task of connection `k` has moved on, and its stream has not. -/
theorem Inv.goOn {conn' : Forward S} (h : Inv content g past) (hconn : g.conns k = conn) (hidle : conn ≠ .idle)
    (hhand : g.receiver = true → conn.hand = conn'.hand) : Inv content (g.setConn k conn') past :=
  h.forwarded [] [] g.channel conn' hconn hidle (List.append_nil _).symm (fun _ _ => ⟨rfl, rfl⟩) (by simpa using hhand)

/-- The accept loop takes the first stream of the channel. -/
theorem Inv.accept {stream : S} {channel : C} {rproxy : Rproxy ε} (h : Inv content g past) (hreceiver : g.receiver = true)
    (hchannel : content g.channel = (k, stream) :: content channel) (hs : g.rproxy.step .accept = some rproxy) :
    Inv content { g with channel, rproxy, inbound := g.inbound ++ [(k, stream)] } past := by
  obtain ⟨-, hspawn⟩ := Option.ite_none_right_eq_some.mp hs
  have hparts : ∀ j, Merge.part j (g.inbound ++ [(k, stream)]) ++ Merge.part j (content channel) =
      Merge.part j g.inbound ++ Merge.part j (content g.channel) := by
    intro j
    rw [hchannel, Merge.part_append, Merge.part_cons j k stream (content channel), Merge.part_cons, Merge.part_nil,
      List.append_nil, List.append_assoc]
  have horder : ∀ j, (Merge.part j past).reverse =
      Merge.part j (g.inbound ++ [(k, stream)]) ++ Merge.part j (content channel) ++ (g.conns j).hand := by
    intro j
    rw [hparts, ← h.order hreceiver j]
  refine ⟨h.rproxy.step trivial hs, ?_, h.idle, fun _ => horder, fun j => ?_⟩
  · rw [← Option.some.inj hspawn, List.length_append, ← h.spawned]
    rfl
  · rw [horder j, List.append_assoc]
    exact List.prefix_append _ _

theorem inv_step {action : GatewayAction S ε} (hchan : chan.Fifo content) (h : Inv content g past)
    (hs : step chan g action = some g') : Inv content g' ((accepted g action).reverse ++ past) := by
  cases action with
  | listener conn =>
    obtain ⟨-, hs⟩ := Option.ite_none_right_eq_some.mp hs
    cases conn with
    | false =>
      cases hs
      exact { h with }
    | true =>
      cases hs
      exact h.establish
  | acceptStream k stream =>
    cases hconn : g.conns k with
    | acceptStream =>
      cases stream with
      | none =>
        simp only [step, hconn] at hs
        cases hs
        exact h.goOn hconn nofun fun _ => rfl
      | some stream =>
        simp only [step, hconn] at hs
        cases hs
        have := h.forwarded [(k, stream)] [] g.channel (.send stream) hconn nofun (List.append_nil _).symm
          (fun j hj => ⟨Merge.part_cons_of_ne hj.symm .., rfl⟩) (fun _ => by simp [Forward.hand])
        simpa [accepted, hconn] using this
    | _ => simp [step, hconn] at hs
  | send k =>
    cases hconn : g.conns k with
    | send stream =>
      simp only [step, hconn] at hs
      split at hs
      · next channel hsend =>
        cases hs
        exact h.forwarded [] [(k, stream)] channel _ hconn nofun (hchan.of_send hsend).2
          (fun j hj => ⟨rfl, Merge.part_cons_of_ne hj.symm ..⟩) (fun _ => by simp [Forward.hand])
      · next hsend =>
        cases hs
        exact h.goOn hconn nofun fun hreceiver => absurd (hreceiver.symm.trans (hchan.receiver_gone hsend)) nofun
    | _ => simp [step, hconn] at hs
  | sent k =>
    cases hconn : g.conns k with
    | flush =>
      simp only [step, hconn] at hs
      cases hs
      exact h.goOn hconn nofun fun _ => rfl
    | _ => simp [step, hconn] at hs
  | accept =>
    obtain ⟨hopen, hs⟩ := Option.ite_none_right_eq_some.mp hs
    split at hs
    · cases hs
    · next channel k stream hnext =>
      obtain ⟨rproxy, hrproxy, rfl⟩ := Option.map_eq_some_iff.mp hs
      exact h.accept (Bool.and_eq_true_iff.mp hopen).1 (hchan.of_next hnext) hrproxy
    · obtain ⟨rproxy, hrproxy, rfl⟩ := Option.map_eq_some_iff.mp hs
      exact h.dropListener { g with rproxy } hrproxy rfl rfl rfl
  | drop =>
    obtain ⟨-, hs⟩ := Option.ite_none_right_eq_some.mp hs
    obtain ⟨rproxy, hrproxy, rfl⟩ := Option.map_eq_some_iff.mp hs
    exact h.dropListener { g with rproxy } hrproxy rfl rfl rfl
  | rproxy action =>
    cases action with
    | accept | stop => cases hs
    | _ =>
      simp only [step, Option.map_eq_some_iff] at hs
      obtain ⟨rproxy, hrproxy, rfl⟩ := hs
      exact { h with
        rproxy := h.rproxy.step trivial hrproxy
        spawned := (step_frame (by simp) (by simp) hrproxy).1.trans h.spawned }

/-! ### When nobody drops the accept loop -/

theorem hand_of_not_hasSender (h : conn.hasSender = false) : conn.hand = [] := by
  cases conn with
  | send stream => cases h
  | _ => rfl

/-- Once the accept loop has ended, nobody can send any more, and every stream has its call. -/
def Finished (g : Gateway C S ε) (past : List (Nat × S)) : Prop :=
  g.rproxy.accepting = false → g.listening = false ∧ (∀ k, (g.conns k).hasSender = false) ∧
    ∀ k, (Merge.part k past).reverse = Merge.part k g.inbound

theorem Inv.not_hasSender (h : Inv content g past) (hsender : g.hasSender = false) :
    g.listening = false ∧ ∀ k, (g.conns k).hasSender = false := by
  obtain ⟨hlistening, hconns⟩ := Bool.or_eq_false_iff.mp hsender
  refine ⟨hlistening, fun k => ?_⟩
  rcases Nat.lt_or_ge k g.established with hlt | hge
  · exact (Bool.not_eq_true _).mp (List.any_eq_false.mp hconns k (List.mem_range.mpr hlt))
  · rw [h.idle k hge]
    rfl

theorem Finished.step {action : GatewayAction S ε} (hchan : chan.Fifo content) (hfinished : Finished g past)
    (h : Inv content g past) (hkept : Kept (g, past) action) (hs : step chan g action = some g') :
    Finished g' ((accepted g action).reverse ++ past) := by
  -- A task that can still send has not seen the end of the accept loop.
  have hsender : ∀ k, (g.conns k).hasSender = true → g.rproxy.accepting = true := by
    intro k hk
    by_contra hended
    rw [(hfinished ((Bool.not_eq_true _).mp hended)).2.1 k] at hk
    cases hk
  have haccepting : ∀ {g' : Gateway C S ε} {past}, g.rproxy.accepting = true → g'.rproxy = g.rproxy → Finished g' past := by
    intro g' past haccepting hrproxy hended
    rw [hrproxy, haccepting] at hended
    cases hended
  cases action with
  | listener conn =>
    obtain ⟨hlistening, hs⟩ := Option.ite_none_right_eq_some.mp hs
    have hopen : g.rproxy.accepting = true := by
      by_contra hended
      rw [(hfinished ((Bool.not_eq_true _).mp hended)).1] at hlistening
      cases hlistening
    cases conn <;> cases hs <;> exact haccepting hopen rfl
  | acceptStream k stream =>
    cases hconn : g.conns k with
    | acceptStream =>
      have hopen := hsender k (by rw [hconn]; rfl)
      cases stream <;> simp only [Gateway.step, hconn] at hs <;> cases hs <;> exact haccepting hopen rfl
    | _ => simp [Gateway.step, hconn] at hs
  | send k =>
    cases hconn : g.conns k with
    | send stream =>
      have hopen := hsender k (by rw [hconn]; rfl)
      simp only [Gateway.step, hconn] at hs
      split at hs <;> cases hs <;> exact haccepting hopen rfl
    | _ => simp [Gateway.step, hconn] at hs
  | sent k =>
    cases hconn : g.conns k with
    | flush =>
      have hopen := hsender k (by rw [hconn]; rfl)
      simp only [Gateway.step, hconn] at hs
      cases hs
      exact haccepting hopen rfl
    | _ => simp [Gateway.step, hconn] at hs
  | accept =>
    obtain ⟨hopen, hs⟩ := Option.ite_none_right_eq_some.mp hs
    obtain ⟨hreceiver, hopen⟩ := Bool.and_eq_true_iff.mp hopen
    split at hs
    · cases hs
    · obtain ⟨rproxy, hrproxy, rfl⟩ := Option.map_eq_some_iff.mp hs
      obtain ⟨-, hspawn⟩ := Option.ite_none_right_eq_some.mp hrproxy
      cases hspawn
      intro hended
      exact absurd (hopen.symm.trans hended) nofun
    · next hnext =>
      obtain ⟨rproxy, hrproxy, rfl⟩ := Option.map_eq_some_iff.mp hs
      obtain ⟨hchannel, hsender⟩ := hchan.of_end hnext
      obtain ⟨hlistening, hconns⟩ := h.not_hasSender hsender
      refine fun _ => ⟨hlistening, hconns, fun k => ?_⟩
      have horder := h.order hreceiver k
      rw [hchannel, hand_of_not_hasSender (hconns k), Merge.part_nil, List.append_nil, List.append_nil] at horder
      exact horder
  | drop => cases hkept
  | rproxy action =>
    cases action with
    | accept | stop => cases hs
    | _ =>
      simp only [Gateway.step, Option.map_eq_some_iff] at hs
      obtain ⟨rproxy, hrproxy, rfl⟩ := hs
      have hframe := (step_frame (by simp) (by simp) hrproxy).2
      exact fun hended => hfinished (hframe.symm.trans hended)

/-- In every run of the gateway, with any number of connections: the reverse proxy takes steps of its own, each of its calls
    has one inbound stream, and the streams of a connection have calls in the order in which it accepted them. As long as the
    listener is there, every stream that was accepted has a call, is in the channel, or is in the hand of its task. -/
theorem streams_in_order (hchan : chan.Fifo content) {t : Gateway C S ε × List (Nat × S)}
    (h : Reachable (traced (step chan) accepted) (start chan, []) t) :
    Reachable Rproxy.step {} t.1.rproxy ∧ t.1.rproxy.spawned = t.1.inbound.length ∧
    ∀ k, Merge.part k t.1.inbound <+: (Merge.part k t.2).reverse ∧
      (t.1.receiver = true → (Merge.part k t.2).reverse =
        Merge.part k t.1.inbound ++ Merge.part k (content t.1.channel) ++ (t.1.conns k).hand) := by
  have hinv : Inv content t.1 t.2 := h.traced_invariant (inv_init hchan) fun h _ hs => inv_step hchan h hs
  exact ⟨hinv.rproxy, hinv.spawned, fun k => ⟨hinv.taken k, fun hreceiver => hinv.order hreceiver k⟩⟩

/-- When nobody drops the accept loop, its end loses nothing: in every run in which it has ended, each stream that a
    connection ever accepted has its call of `handshake`. -/
theorem ended_all_handled (hchan : chan.Fifo content) {t : Gateway C S ε × List (Nat × S)}
    (h : Reaches (traced (step chan) accepted) Kept (start chan, []) t) (hended : t.1.rproxy.accepting = false) (k : Nat) :
    Merge.part k t.1.inbound = (Merge.part k t.2).reverse := by
  let Both (g : Gateway C S ε) (past : List (Nat × S)) := Inv content g past ∧ Finished g past
  have hinit : Both (start chan) [] := ⟨inv_init hchan, nofun⟩
  have hboth : Both t.1 t.2 := h.traced_invariant hinit fun h hkept hs =>
    ⟨inv_step hchan h.1 hs, h.2.step hchan h.1 hkept hs⟩
  exact ((hboth.2 hended).2.2 k).symm

/-- The channel of the worked runs. -/
def queued : Channel (List (Nat × String)) (Nat × String) := .queue (Nat × String)

/-- A connection has two streams, and the listener is closed. -/
def handled : List (GatewayAction String Unit) :=
  [.listener true, .acceptStream 0 (some "a"), .send 0, .sent 0, .accept, .acceptStream 0 (some "b"), .send 0, .sent 0,
    .listener false, .acceptStream 0 none, .accept, .accept]

theorem handled_in_order : ∃ t : Gateway (List (Nat × String)) String Unit × List (Nat × String),
    run (traced (step queued) accepted) (start queued, []) handled = some t ∧ t.1.inbound = [(0, "a"), (0, "b")] ∧
    t.1.rproxy.spawned = t.1.inbound.length := by
  refine ⟨_, rfl, rfl, ?_⟩
  exact (streams_in_order (Channel.fifo_queue _) (Reachable.of_run handled rfl)).2.1

theorem handled_ended : ∃ t : Gateway (List (Nat × String)) String Unit × List (Nat × String),
    run (traced (step queued) accepted) (start queued, []) handled = some t ∧ t.1.rproxy.accepting = false ∧
    Merge.part 0 t.1.inbound = (Merge.part 0 t.2).reverse := by
  have hok : ∀ (t : Gateway (List (Nat × String)) String Unit × List (Nat × String)) (action : GatewayAction String Unit),
      (fun _ action => !action.isDrop) t action = true → Kept t action :=
    fun _ _ h => (Bool.not_eq_eq_eq_not ..).mp h
  exact ⟨_, rfl, rfl, ended_all_handled (Channel.fifo_queue _) (.of_runIf handled hok rfl) rfl 0⟩

end Gateway

end Hala.Proxy
