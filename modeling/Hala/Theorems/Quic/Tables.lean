import Hala.Quic.Streams
import Hala.Theorems.Quic.Waiters

/-! What the operations do to the tables of a connection. -/

namespace Hala.Quic
variable {Q : Type} {quiche : Quiche Q} {c c' : QuicConnState Q}

theorem tables_of_state (h : c'.state = c.state) : c'.state.tables = c.state.tables := by rw [h]

theorem tables_of_status {result : Except IoError Unit} (h : c.handleQuicConnStatus quiche = (c', result)) :
    c'.state.tables = c.state.tables :=
  tables_of_state (state_of_status h)

theorem tables_of_readable {result : Except IoError Unit} (h : c.notifyReadable quiche = (c', result)) :
    c'.state.tables = c.state.tables :=
  tables_of_state (state_of_readable h)

theorem gone_of_status_error {err : IoError} (h : c.handleQuicConnStatus quiche = (c', .error err)) :
    c.isGone quiche = true := by
  obtain ⟨-, ⟨hok, -⟩ | ⟨-, -, hgone⟩⟩ := status_cases h
  · cases hok
  · exact hgone

theorem halfClosed_of_error {id : StreamId} {err : IoError} (h : c.handleStreamStatus id = .error err) :
    id ∈ c.state.halfClosedStreams := by
  unfold QuicConnState.handleStreamStatus at h
  split at h
  · assumption
  · cases h

theorem tables_setQuiche (q : Q) : (c.setQuiche q).state.tables = c.state.tables := rfl

theorem wait_state {α : Type} (event : ConnEvent) (expired : Option Nanos) :
    (c.wait event expired : QuicConnState Q × Flow α).1.state = c.state := rfl

theorem arrive_none (t : RawQuicConnState Unit) : t.arrive none = t := by
  simp only [RawQuicConnState.arrive, RawQuicConnState.arrivals, List.foldr_nil, List.append_nil]

theorem tables_handleQuicIncomingStream (c : QuicConnState Q) (id : StreamId) :
    (c.handleQuicIncomingStream id).state.tables = c.state.tables.arrive (some id) := by
  unfold QuicConnState.handleQuicIncomingStream
  split
  · next hnew =>
    have harrivals : c.state.tables.arrivals (some id) = [id] := if_pos hnew
    rw [RawQuicConnState.arrive, harrivals]
    rfl
  · next hold =>
    have harrivals : c.state.tables.arrivals (some id) = [] := if_neg hold
    rw [RawQuicConnState.arrive, harrivals, List.append_nil]
    rfl

/-- One stream that `quiche` reports as readable, if there is one, arrives. -/
theorem tables_handleStreamEvents (c : QuicConnState Q) :
    (c.handleStreamEvents quiche).state.tables = c.state.tables.arrive (quiche.streamReadableNext c.state.quicheConn).2 := by
  unfold QuicConnState.handleStreamEvents
  split
  · next q id hnext =>
    rw [hnext]
    exact tables_handleQuicIncomingStream (c.setQuiche q) id
  · next q hnext =>
    rw [hnext, arrive_none]
    split <;> rfl

theorem tables_drainHalfClosed {size fuel : Nat} {ids : List StreamId} (h : c.drainHalfClosed quiche size fuel ids = some c') :
    ∃ left, (∀ id ∈ left, id ∈ c.state.halfClosedStreams ∨ id ∈ ids) ∧
      c'.state.tables = { c.state.tables with halfClosedStreams := left } := by
  induction ids generalizing c with
  | nil =>
    obtain rfl := Option.some.inj h
    exact ⟨c.state.halfClosedStreams, fun id hid => Or.inl hid, rfl⟩
  | cons id ids ih =>
    rw [QuicConnState.drainHalfClosed] at h
    split at h
    · cases h
    · obtain ⟨left, hleft, htables⟩ := ih h
      exact ⟨left, fun x hx => (hleft x hx).imp_right (List.mem_cons_of_mem _), htables⟩
    · obtain ⟨left, hleft, htables⟩ := ih h
      refine ⟨left, fun x hx => ?_, htables⟩
      rcases hleft x hx with hx | hx
      · rcases Finset.mem_insert.mp hx with rfl | hx
        · exact Or.inr List.mem_cons_self
        · exact Or.inl hx
      · exact Or.inr (List.mem_cons_of_mem _ hx)

/-- Half-closed streams only leave. -/
theorem tables_handleHalfClosedStreams {fuel : Nat} {order : List StreamId}
    (h : c.handleHalfClosedStreams quiche fuel order = some c') :
    ∃ left, left ⊆ c.state.tables.halfClosedStreams ∧ c'.state.tables = { c.state.tables with halfClosedStreams := left } := by
  unfold QuicConnState.handleHalfClosedStreams at h
  split at h
  · next horder =>
    obtain ⟨left, hleft, htables⟩ := tables_drainHalfClosed h
    refine ⟨left, fun id hid => ?_, htables⟩
    rcases hleft id hid with hnone | hid
    · cases hnone
    · have hid' : id ∈ order.toFinset := List.mem_toFinset.mpr hid
      rwa [horder.2] at hid'
  · cases h

/-! ### The operations -/

/-- What a pass of `op` that reports a stream as readable, puts a stream in the dropping queue and leaves the call in `call`
    does to the tables `t`. -/
inductive PassTables (t : RawQuicConnState Unit) :
    (reported enqueued : Option StreamId) → Op → Call → RawQuicConnState Unit → Prop
  | events {reported : Option StreamId} {op : Op} {call : Call} : op.handedOut call = [] →
      PassTables t reported none op call (t.arrive reported)
  | sent {reported : Option StreamId} {id : StreamId} {buf : Bytes} {fin : Bool} {call : Call} :
      PassTables t reported none (.loop (.streamSend id buf fin)) call
        ({ t with registerOutgoingStreamIds :=
            if t.lastestOutgoingStreamId % 2 = id % 2 then t.registerOutgoingStreamIds.erase id
            else t.registerOutgoingStreamIds }.arrive reported)
  | received {reported : Option StreamId} {buf : Bytes} {info : PathInfo} {call : Call} {left : Finset StreamId} :
      left ⊆ t.halfClosedStreams →
      PassTables t reported none (.write buf info) call { t.arrive reported with halfClosedStreams := left }
  | accepted {id : StreamId} {incoming : List StreamId} : t.incoming = id :: incoming →
      PassTables t none none (.loop .accept) (.returned (.accepted (some id))) { t with incoming }
  | opened :
      PassTables t none none .openStream (.returned (.opened (.ok t.lastestOutgoingStreamId)))
        { t with
          lastestOutgoingStreamId := t.lastestOutgoingStreamId + 4
          registerOutgoingStreamIds := insert t.lastestOutgoingStreamId t.registerOutgoingStreamIds }
  | unregistered {id : StreamId} {call : Call} :
      PassTables t none none (.closeStream id) call
        { t with registerOutgoingStreamIds := t.registerOutgoingStreamIds.erase id }
  | closed {id : StreamId} {call : Call} :
      PassTables t none (some id) (.closeStream id) call { t with droppingStreamQueue := t.droppingStreamQueue ++ [id] }

/-- A pass that changes nothing. -/
theorem PassTables.same {t : RawQuicConnState Unit} {op : Op} {call : Call} (h : op.handedOut call = []) :
    PassTables t none none op call t := by
  have hevents : PassTables t none none op call (t.arrive none) := .events h
  rwa [arrive_none] at hevents

theorem streamSend_tables (id : StreamId) (buf : Bytes) (fin : Bool) (call : Call) :
    PassTables c.state.tables ((Op.loop (.streamSend id buf fin)).reported quiche c) none (.loop (.streamSend id buf fin)) call
      (c.streamSend quiche id buf fin).1.state.tables := by
  unfold QuicConnState.streamSend
  split
  · next hstatus =>
    rw [Op.reported, if_pos (Or.inl (gone_of_status_error hstatus)), tables_of_status hstatus]
    exact .same rfl
  next hstatus =>
  obtain ⟨rfl, hlive⟩ := live_of_status_ok hstatus
  split
  · next hstream =>
    rw [Op.reported, if_pos (Or.inr (halfClosed_of_error hstream))]
    exact .same rfl
  next hstream =>
  have hopen := not_halfClosed_of_ok hstream
  rw [Op.reported, if_neg (not_or.mpr ⟨by simpa using hlive, hopen⟩)]
  rcases hsend : quiche.streamSend _ id buf fin with ⟨q, err | writeSize⟩
  · cases err with
    | done =>
      simp only
      split
      · next hreadable =>
        rw [tables_of_readable hreadable, tables_handleStreamEvents]
        exact .events rfl
      · next hreadable =>
        rw [wait_state, tables_of_readable hreadable, tables_handleStreamEvents]
        exact .events rfl
    | invalidStreamState | streamStopped | streamLimit | other =>
      simp only
      split
      · next hstatus' =>
        rw [tables_of_status hstatus']
        exact .same rfl
      · next hstatus' =>
        rw [tables_of_status hstatus']
        exact .same rfl
  · simp only
    split
    · next hreadable =>
      rw [tables_of_readable hreadable, tables_handleStreamEvents]
      exact .sent
    · next hreadable =>
      rw [tables_of_readable hreadable, tables_handleStreamEvents]
      exact .sent

theorem streamRecvWait_tables {α : Type} (id : StreamId) :
    (c.streamRecvWait quiche id : QuicConnState Q × Flow (Except IoError α)).1.state.tables = c.state.tables := by
  unfold QuicConnState.streamRecvWait
  split
  · next hreadable => exact tables_of_readable hreadable
  · next hreadable => exact (congrArg _ (wait_state _ _)).trans (tables_of_readable hreadable)

theorem streamRecv_tables (id : StreamId) (size : Nat) (call : Call) :
    PassTables c.state.tables ((Op.loop (.streamRecv id size)).reported quiche c) none (.loop (.streamRecv id size)) call
      (c.streamRecv quiche id size).1.state.tables := by
  unfold QuicConnState.streamRecv
  split
  · next hstatus =>
    rw [Op.reported, if_pos (Or.inl (gone_of_status_error hstatus)), tables_of_status hstatus]
    exact .same rfl
  next hstatus =>
  obtain ⟨rfl, hlive⟩ := live_of_status_ok hstatus
  split
  · next hstream =>
    rw [Op.reported, if_pos (Or.inr (halfClosed_of_error hstream))]
    exact .same rfl
  next hstream =>
  have hopen := not_halfClosed_of_ok hstream
  rw [Op.reported, if_neg (not_or.mpr ⟨by simpa using hlive, hopen⟩)]
  rcases hrecv : quiche.streamRecv _ id size with ⟨q, err | data⟩
  · cases err with
    | done =>
      simp only
      rw [streamRecvWait_tables, tables_handleStreamEvents]
      exact .events rfl
    | invalidStreamState id' =>
      simp only
      split
      · rw [streamRecvWait_tables]
        exact .same rfl
      · exact .same rfl
    | streamStopped | streamLimit | other =>
      simp only
      rw [tables_handleStreamEvents]
      exact .events rfl
  · simp only
    split
    · next hreadable =>
      rw [tables_of_readable hreadable, tables_handleStreamEvents]
      exact .events rfl
    · next hreadable =>
      rw [tables_of_readable hreadable, tables_handleStreamEvents]
      exact .events rfl

theorem write_tables {fuel : Nat} {order : List StreamId} {buf : Bytes} {info : PathInfo} {result : Except IoError Nat}
    (h : c.write quiche fuel order buf info = some (c', result)) (call : Call) :
    PassTables c.state.tables ((Op.write buf info).reported quiche c) none (.write buf info) call c'.state.tables := by
  unfold QuicConnState.write at h
  split at h
  · next hstatus =>
    cases h
    rw [Op.reported, if_pos (gone_of_status_error hstatus), tables_of_status hstatus]
    exact .same rfl
  next hstatus =>
  obtain ⟨rfl, hlive⟩ := live_of_status_ok hstatus
  rw [Op.reported, if_neg (by simpa using hlive)]
  rcases hrecv : quiche.recv _ buf info with ⟨q, err | writeSize⟩
  · simp only [hrecv] at h ⊢
    split at h
    · next hstatus' =>
      cases h
      rw [tables_of_status hstatus']
      exact .same rfl
    · next hstatus' =>
      cases h
      rw [tables_of_status hstatus']
      exact .same rfl
  · simp only [hrecv] at h ⊢
    obtain ⟨c₁, hdrain, hc₁⟩ := Option.map_eq_some_iff.mp h
    cases hc₁
    obtain ⟨left, hleft, htables⟩ := tables_handleHalfClosedStreams hdrain
    rw [tables_handleStreamEvents] at hleft htables
    rw [htables]
    exact .received hleft

theorem accept_tables :
    PassTables c.state.tables none none (.loop .accept) ((c.accept quiche).2.toCall .accept .accepted)
      (c.accept quiche).1.state.tables := by
  unfold QuicConnState.accept
  split
  · next hstatus =>
    rw [tables_of_status hstatus]
    exact .same rfl
  next hstatus =>
  obtain ⟨rfl, hlive⟩ := live_of_status_ok hstatus
  split
  · next hincoming => exact .accepted hincoming
  · exact .same rfl

theorem openStream_tables :
    PassTables c.state.tables none none .openStream (.returned (.opened (c.openStream quiche).2))
      (c.openStream quiche).1.state.tables := by
  unfold QuicConnState.openStream
  split
  · next hstatus =>
    rw [tables_of_status hstatus]
    exact .same rfl
  next hstatus =>
  obtain ⟨rfl, hlive⟩ := live_of_status_ok hstatus
  exact .opened

theorem closeStream_tables (id : StreamId) (call : Call) :
    PassTables c.state.tables none ((Op.closeStream id).enqueues quiche c) (.closeStream id) call
      (c.closeStream quiche id).1.state.tables := by
  unfold QuicConnState.closeStream
  split
  · next hstatus =>
    rw [Op.enqueues, if_pos (Or.inl (gone_of_status_error hstatus)), tables_of_status hstatus]
    exact .same rfl
  next hstatus =>
  obtain ⟨rfl, hlive⟩ := live_of_status_ok hstatus
  split
  · next hregistered =>
    rw [Op.enqueues, if_pos (Or.inr hregistered)]
    exact .unregistered
  · next hregistered =>
    rw [Op.enqueues, if_neg (not_or.mpr ⟨by simpa using hlive, hregistered⟩), tables_of_readable (Prod.eta _).symm]
    exact .closed

theorem close_tables (app : Bool) (err : Nat) (reason : Bytes) (call : Call) :
    PassTables c.state.tables none none (.close app err reason) call (c.close quiche app err reason).1.state.tables := by
  have hsame : (c.close quiche app err reason).1.state.tables = c.state.tables := by
    unfold QuicConnState.close
    split <;> rfl
  rw [hsame]
  exact .same rfl

/-- What a pass does to the tables. -/
theorem Op.pass_tables {fuel : Nat} {order : List StreamId} {op : Op} {call : Call}
    (h : op.pass quiche fuel order c = some (c', call)) :
    PassTables c.state.tables (op.reported quiche c) (op.enqueues quiche c) op call c'.state.tables := by
  cases op with
  | loop op =>
    cases op with
    | streamSend id buf fin =>
      cases h
      exact streamSend_tables id buf fin _
    | streamRecv id size =>
      cases h
      exact streamRecv_tables id size _
    | accept =>
      cases h
      exact accept_tables
  | write buf info =>
    obtain ⟨⟨c₁, result⟩, hwrite, hc₁⟩ := Option.map_eq_some_iff.mp h
    cases hc₁
    exact write_tables hwrite _
  | openStream =>
    cases h
    exact openStream_tables
  | closeStream id =>
    cases h
    exact closeStream_tables id _
  | streamShutdown id err =>
    cases h
    exact .same rfl
  | close app err reason =>
    cases h
    exact close_tables app err reason _

/-! ### The reader -/

/-- The streams of the dropping queue that `read` has ended are half closed; the others stay in the queue. -/
structure DroppedTables (t t' : RawQuicConnState Unit) : Prop where
  tables : t' = { t with droppingStreamQueue := t'.droppingStreamQueue, halfClosedStreams := t'.halfClosedStreams }
  queue : t'.droppingStreamQueue.Sublist t.droppingStreamQueue
  half : ∀ id ∈ t'.halfClosedStreams, id ∈ t.halfClosedStreams ∨ id ∈ t.droppingStreamQueue
  once : t.droppingStreamQueue.Nodup → ∀ id ∈ t'.halfClosedStreams, id ∈ t'.droppingStreamQueue → id ∈ t.halfClosedStreams

theorem DroppedTables.refl (t : RawQuicConnState Unit) : DroppedTables t t :=
  ⟨rfl, .refl _, fun _ hid => Or.inl hid, fun _ _ hid _ => hid⟩

theorem dropStreams_tables (ids : List StreamId) :
    ∃ half, (c.dropStreams quiche ids).1.state.tables = { c.state.tables with halfClosedStreams := half } ∧
      (c.dropStreams quiche ids).2.Sublist ids ∧ (∀ id ∈ half, id ∈ c.state.halfClosedStreams ∨ id ∈ ids) ∧
      (ids.Nodup → ∀ id ∈ half, id ∈ (c.dropStreams quiche ids).2 → id ∈ c.state.halfClosedStreams) := by
  induction ids generalizing c with
  | nil => exact ⟨c.state.halfClosedStreams, rfl, .refl _, fun _ hid => Or.inl hid, fun _ _ hid _ => hid⟩
  | cons id ids ih =>
    rw [QuicConnState.dropStreams]
    split
    · next q hsend =>
      obtain ⟨half, htables, hsub, hhalf, hleft⟩ := @ih (c.setQuiche q)
      refine ⟨half, htables, hsub.cons_cons id, fun x hx => (hhalf x hx).imp_right (List.mem_cons_of_mem _), ?_⟩
      intro hnodup x hx hpending
      obtain ⟨hnot, hnodup⟩ := List.nodup_cons.mp hnodup
      rcases List.mem_cons.mp hpending with rfl | hpending
      · exact (hhalf x hx).resolve_right hnot
      · exact hleft hnodup x hx hpending
    · next q hdone hsend =>
      obtain ⟨half, htables, hsub, hhalf, hleft⟩ := @ih _
      refine ⟨half, htables, hsub.cons id, fun x hx => ?_, fun hnodup x hx hpending => ?_⟩
      · rcases hhalf x hx with hx | hx
        · rcases Finset.mem_insert.mp hx with rfl | hx
          · exact Or.inr List.mem_cons_self
          · exact Or.inl hx
        · exact Or.inr (List.mem_cons_of_mem _ hx)
      · obtain ⟨hnot, hnodup⟩ := List.nodup_cons.mp hnodup
        rcases Finset.mem_insert.mp (hleft hnodup x hx hpending) with rfl | hmem
        · exact absurd (hsub.subset hpending) hnot
        · exact hmem

theorem handleDroppingStreams_tables (quiche : Quiche Q) (c : QuicConnState Q) :
    DroppedTables c.state.tables (c.handleDroppingStreams quiche).state.tables := by
  have hdrop := @dropStreams_tables Q quiche { c with state := { c.state with droppingStreamQueue := [] } } c.state.droppingStreamQueue
  unfold QuicConnState.handleDroppingStreams
  generalize hresult : QuicConnState.dropStreams quiche _ c.state.droppingStreamQueue = result at hdrop
  obtain ⟨c', pending⟩ := result
  obtain ⟨half, htables, hsub, hhalf, honce⟩ := hdrop
  have hqueue : ({ c'.state with droppingStreamQueue := pending } : RawQuicConnState Q).tables =
      { c.state.tables with droppingStreamQueue := pending, halfClosedStreams := half } :=
    congrArg (fun t : RawQuicConnState Unit => { t with droppingStreamQueue := pending }) htables
  dsimp only
  rw [hqueue]
  exact ⟨rfl, hsub, hhalf, honce⟩

theorem handleSendTimout_tables (quiche : Quiche Q) (c : QuicConnState Q) (now : Nanos) :
    (c.handleSendTimout quiche now).1.state.tables = c.state.tables := by
  unfold QuicConnState.handleSendTimout
  dsimp only
  split
  · split <;> rfl
  · split <;> rfl

/-- What a pass of `read` does to the tables. -/
theorem read_tables (quiche : Quiche Q) (c : QuicConnState Q) (now : Nanos) (size : Nat) :
    DroppedTables c.state.tables (c.read quiche now size).1.state.tables := by
  unfold QuicConnState.read
  split
  · next hstatus =>
    rw [tables_of_status hstatus]
    exact .refl _
  next c₁ hstatus =>
  obtain ⟨rfl, hlive⟩ := live_of_status_ok hstatus
  have hdropped := handleDroppingStreams_tables quiche c₁
  dsimp only
  split
  · exact hdropped
  · next q _ =>
    have hsame := handleSendTimout_tables quiche ((c₁.handleDroppingStreams quiche).setQuiche q) now
    rw [tables_setQuiche] at hsame
    split
    · next htimeout =>
      rw [htimeout] at hsame
      exact hsame ▸ hdropped
    · next htimeout =>
      rw [htimeout] at hsame
      exact hsame ▸ hdropped
    · next htimeout =>
      rw [htimeout] at hsame
      rw [wait_state]
      exact hsame ▸ hdropped
  · next q _ _ _ =>
    split
    · next hstatus' =>
      rw [tables_of_status hstatus', tables_setQuiche]
      exact hdropped
    · next hstatus' =>
      rw [tables_of_status hstatus', tables_setQuiche]
      exact hdropped

theorem readExpired_tables (quiche : Quiche Q) (c : QuicConnState Q) (now : Nanos) :
    (c.readExpired quiche now).1.state.tables = c.state.tables := by
  unfold QuicConnState.readExpired
  split
  · split <;> rfl
  · split
    · split <;> rfl
    · rfl

/-! ### The steps of the tasks -/

/-- A step is a pass of an operation, or changes no more than `read` does. -/
theorem ConnCalls.step_tables {s s' : ConnCalls Q} {a : Nat × ConnAction} (h : s.step quiche a = some s') :
    (∃ op call, s.passed quiche a = some (op, call) ∧
      PassTables s.conn.state.tables (op.reported quiche s.conn) (op.enqueues quiche s.conn) op call s'.conn.state.tables) ∨
    (s.passed quiche a = none ∧ DroppedTables s.conn.state.tables s'.conn.state.tables) := by
  cases step_cases h with
  | passed hi hpass =>
    refine Or.inl ⟨_, _, ?_, Op.pass_tables hpass⟩
    simp only [passed, hi, hpass, Option.map_some]
  | readPassed => exact Or.inr ⟨rfl, read_tables quiche s.conn _ _⟩
  | readExpired =>
    refine Or.inr ⟨rfl, ?_⟩
    have hsame := readExpired_tables quiche s.conn s.clock
    change DroppedTables _ (s.conn.readExpired quiche s.clock).1.state.tables
    rw [hsame]
    exact .refl _
  | elapsed | calledRead | readResolved | timedOut | called => exact Or.inr ⟨rfl, .refl _⟩
  | retried hi | cancelled hi | shutdown hi => exact Or.inr ⟨by simp only [passed, hi], .refl _⟩

end Hala.Quic
