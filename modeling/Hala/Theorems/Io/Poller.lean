import Hala.Io.Poller

/-! What `poll_once` does to the wheel, and what `deregister` does to the wakers of a handle.

`deregister` removes the waker of the reader, and the one of the writer stays: it asks `remove_waker` for both interests at
once, which looks in `write_wakers` only if the readable one is missing. -/

namespace Hala.Io.MioPoller
variable {ε : Type} {m m' : MioPoller} {token : Token} {handle : Handle} {registry : Except ε Unit}

/-- A step of `poll_once` is one of its `next_tick`, or leaves the wheel; it panics if its `next_tick` did. -/
theorem pollOnceStep_wheel {tickDuration j : Nat} {poll poll' : PollOnce}
    (h : m.pollOnceStep tickDuration j poll = some (m', poll')) :
    poll' ≠ .idle ∧ (m'.wheel = m.wheel ∨ TimeWheel.popStep (tickDuration / 1000) m.wheel j = some m'.wheel) ∧
      (poll' = .panicked → m.wheel.pops j = .panicked) := by
  unfold pollOnceStep at h
  cases poll with
  | idle | done | panicked => cases h
  | tick events =>
    simp only at h
    split at h
    · cases h
      exact ⟨by simp, .inl rfl, by simp⟩
    · cases h
      exact ⟨by simp, .inl rfl, by simp⟩
    · next hpop =>
      cases h
      exact ⟨by simp, .inl rfl, fun _ => hpop⟩
    · obtain ⟨wheel, hwheel, heq⟩ := Option.map_eq_some_iff.mp h
      cases heq
      exact ⟨by simp, .inr hwheel, by simp⟩
  | wakeRead | wakeWrite =>
    cases h
    exact ⟨by simp, .inl rfl, by simp⟩
  | read events =>
    cases events with
    | nil =>
      cases h
      exact ⟨by simp, .inl rfl, by simp⟩
    | cons event events =>
      simp only at h
      repeat' split at h
      all_goals
        cases h
        exact ⟨by simp, .inl rfl, by simp⟩
  | write event events =>
    simp only at h
    repeat' split at h
    all_goals
      cases h
      exact ⟨by simp, .inl rfl, by simp⟩

/-- Nobody waits for the token any more, whoever did has been woken, and the others are as before. -/
structure Forgotten (token : Token) (m m' : MioPoller) : Prop where
  read : m'.readWakers token = none
  write : m'.writeWakers token = none
  woken : ∀ waker, m.readWakers token = some waker ∨ m.writeWakers token = some waker →
    m.woken.count (token, waker) < m'.woken.count (token, waker)
  others : ∀ other, other ≠ token → m'.readWakers other = m.readWakers other ∧ m'.writeWakers other = m.writeWakers other

theorem wakeRemoved_read : (m.wakeRemoved token).readWakers = Function.update m.readWakers token none := by
  unfold wakeRemoved
  cases h : m.readWakers token <;> simp [removeWaker, Interest.all, h]

theorem wakeRemoved_write : (m.wakeRemoved token).writeWakers = m.writeWakers := by
  unfold wakeRemoved
  cases h : m.readWakers token <;> simp [removeWaker, Interest.all, h]

theorem wakeRemoved_woken : (m.wakeRemoved token).woken = ((m.readWakers token).map (token, ·)).toList ++ m.woken := by
  unfold wakeRemoved
  cases h : m.readWakers token <;> simp [removeWaker, Interest.all, h]

theorem wakeRemoved_forgotten_iff : Forgotten token m (m.wakeRemoved token) ↔ m.writeWakers token = none := by
  constructor
  · intro h
    have hwrite := h.write
    rwa [wakeRemoved_write] at hwrite
  · intro hnone
    refine ⟨?_, ?_, fun waker hstored => ?_, fun other hother => ⟨?_, ?_⟩⟩
    · rw [wakeRemoved_read, Function.update_self]
    · rwa [wakeRemoved_write]
    · rcases hstored with hread | hwrite
      · rw [wakeRemoved_woken, hread]
        simp
      · rw [hnone] at hwrite
        cases hwrite
    · rw [wakeRemoved_read, Function.update_of_ne hother]
    · rw [wakeRemoved_write]

theorem deregister_ok (h : m.deregister handle registry = (.ok, m')) : m' = m.wakeRemoved handle.token := by
  unfold deregister at h
  cases hdesc : handle.desc with
  | file | poller | external => simp [hdesc] at h
  | timeout =>
    simp only [hdesc, Prod.mk.injEq, true_and] at h
    exact h.symm
  | tcpListener | tcpStream | udpSocket =>
    cases registry with
    | error e => simp [hdesc] at h
    | ok =>
      simp only [hdesc, Prod.mk.injEq, true_and] at h
      exact h.symm

/-- A `deregister` that fails leaves the poller as it was. -/
theorem deregister_fails (h : (m.deregister handle registry).1 ≠ .ok) : (m.deregister handle registry).2 = m := by
  unfold deregister at h ⊢
  cases hdesc : handle.desc with
  | file | poller | external => rfl
  | timeout => simp [hdesc] at h
  | tcpListener | tcpStream | udpSocket =>
    cases registry with
    | error e => rfl
    | ok => simp [hdesc] at h

/-- A `deregister` that returns `Ok` leaves no waker of the handle behind, exactly if nobody waited to write. -/
theorem deregister_forgets_iff {ε : Type} (m m' : MioPoller) (handle : Handle) (registry : Except ε Unit)
    (h : m.deregister handle registry = (.ok, m')) : Forgotten handle.token m m' ↔ m.writeWakers handle.token = none := by
  rw [deregister_ok h]
  exact wakeRemoved_forgotten_iff

/-- A stream with a reader, and one with a writer. -/
theorem deregister_forgets_iff_stream :
    ∃ m m' : MioPoller, m.deregister { token := 1, desc := .tcpStream } (.ok () : Except Unit Unit) = (.ok, m') ∧
      Forgotten 1 m m' ∧ m'.woken = [(1, 5)] := by
  obtain ⟨m, m', h, hwrite, hwoken⟩ : ∃ m m' : MioPoller,
      m.deregister { token := 1, desc := .tcpStream } (.ok () : Except Unit Unit) = (.ok, m') ∧ m.writeWakers 1 = none ∧
        m'.woken = [(1, 5)] :=
    ⟨(({} : MioPoller).addWaker 1 .onlyReadable 5).addWaker 2 .onlyWritable 6, _, rfl, rfl, rfl⟩
  exact ⟨m, m', h, (deregister_forgets_iff m m' _ _ h).mpr hwrite, hwoken⟩

/-- The waker of the writer is still there, and has not been woken. -/
theorem writer_left_behind :
    ∃ m', ((({} : MioPoller).addWaker 1 .onlyReadable 5).addWaker 1 .onlyWritable 6).deregister
        { token := 1, desc := .tcpStream } (.ok () : Except Unit Unit) = (.ok, m') ∧
      m'.writeWakers 1 = some 6 ∧ m'.woken = [(1, 5)] :=
  ⟨_, rfl, rfl, rfl⟩

end Hala.Io.MioPoller
