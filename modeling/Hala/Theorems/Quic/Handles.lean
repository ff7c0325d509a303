import Hala.Quic.Handles

/-! When the handles of a connection and of its streams close them.

A count is the number of those who own what is counted, whatever the order in which they clone and drop it. -/

namespace Hala.Quic.Handles
open Machine Shared
variable {s s' : Handles} {i j k n : Nat}

/-! ### Who owns what after a change -/

theorem owns_setConn (s : Handles) (conn : Arc) : (s.setConn conn).owns = s.owns := by
  funext o
  cases o <;> rfl

theorem owns_setUser (s : Handles) (i : Nat) (owned : Bool) :
    (s.setUser i owned).owns = Function.update s.owns (.user i) owned := by
  funext o
  cases o with
  | user j =>
    rcases eq_or_ne j i with rfl | hne
    · simp [owns, setUser]
    · simp [owns, setUser, hne]
  | loop | handle | value | clone => rfl

theorem owns_setHandle (s : Handles) (k : Nat) (handle : StreamHandle) :
    (s.setHandle k handle).owns = Function.update s.owns (.handle k) handle.hasConn := by
  funext o
  cases o with
  | handle l =>
    rcases eq_or_ne l k with rfl | hne
    · simp [owns, setHandle]
    · simp [owns, setHandle, hne]
  | user | loop | value | clone => rfl

theorem owns_setStream (s : Handles) (n : Nat) (stream : StreamCounter) :
    (s.setStream n stream).owns =
      Function.update (Function.update s.owns (.value n) (stream.value != .dropped)) (.clone n) (stream.value == .spawned) := by
  funext o
  cases o with
  | value m =>
    rcases eq_or_ne m n with rfl | hne
    · simp [owns, setStream]
    · simp [owns, setStream, hne]
  | clone m =>
    rcases eq_or_ne m n with rfl | hne
    · simp [owns, setStream]
    · simp [owns, setStream, hne]
  | user | loop | handle => rfl

theorem owns_stopLoop (s : Handles) (loop : EventLoop) :
    (s.stopLoop loop).owns = Function.update s.owns (.loop loop) false := by
  funext o
  cases o with
  | loop l =>
    rcases eq_or_ne l loop with rfl | hne
    · simp [owns, stopLoop]
    · simp [owns, stopLoop, hne]
  | user | handle | value | clone => rfl

theorem holds_setHandle (s : Handles) (n k : Nat) (handle : StreamHandle) :
    (s.setHandle k handle).holds n = Function.update (s.holds n) k (handle.counter == some n) := by
  funext l
  rcases eq_or_ne l k with rfl | hne
  · simp [holds, setHandle]
  · simp [holds, setHandle, hne]

/-! ### The invariant -/

/-- The counter is that of its holders; the value is dropped, and the task spawned, when there are none. -/
structure StreamCounterOk (stream : StreamCounter) (holds : Nat → Bool) : Prop where
  counter : stream.counter.OwnedBy holds
  live : stream.value = .live ↔ stream.counter.drops = 0
  task : stream.task = .idle ↔ stream.value = .live ∨ stream.value = .drop

def StreamOk (holds : Nat → Bool) : Option StreamCounter → Prop
  | some stream => StreamCounterOk stream holds
  | none => ∀ k, holds k = false

structure Inv (s : Handles) : Prop where
  conn : s.conn.OwnedBy s.owns
  streams : ∀ n, StreamOk (s.holds n) (s.streams n)

section StreamSteps
variable {stream : StreamCounter} {holds : Nat → Bool}

theorem StreamCounterOk.new (k : Nat) : StreamCounterOk {} (Function.update (fun _ => false) k true) where
  counter := .new k
  live := by simp
  task := by simp

theorem StreamCounterOk.clone (h : StreamCounterOk stream holds) (hk : holds k = true) (hj : holds j = false) :
    StreamCounterOk { stream with counter := stream.counter.clone } (Function.update holds j true) where
  counter := h.counter.clone hk hj
  live := h.live
  task := h.task

/-- The last holder begins the drop of the value. -/
theorem StreamCounterOk.drop (h : StreamCounterOk stream holds) (hk : holds k = true) :
    StreamCounterOk
      { stream with counter := stream.counter.drop, value := if stream.counter.strong = 1 then .drop else stream.value }
      (Function.update holds k false) := by
  have hlive : stream.value = .live := h.live.mpr (h.counter.not_dropped hk)
  refine ⟨h.counter.drop hk, ?_, ?_⟩
  · simp only [Arc.drop]
    split
    · simp
    · exact h.live
  · rw [h.task]
    split <;> simp [hlive]

end StreamSteps

section Changes
variable {conn : Arc} {handle : StreamHandle} {stream : StreamCounter} {owned : Bool}

theorem Inv.ofStream (h : Inv s) (hn : s.streams n = some stream) : StreamCounterOk stream (s.holds n) := by
  have hok := h.streams n
  rwa [hn] at hok

theorem Inv.setUser (h : Inv s) (hconn : conn.OwnedBy (Function.update s.owns (.user i) owned)) :
    Inv ((s.setConn conn).setUser i owned) where
  conn := by
    rw [owns_setUser, owns_setConn]
    exact hconn
  streams := h.streams

theorem Inv.stopLoop {loop : EventLoop} (h : Inv s) (hconn : conn.OwnedBy (Function.update s.owns (.loop loop) false)) :
    Inv ((s.setConn conn).stopLoop loop) where
  conn := by
    rw [owns_stopLoop, owns_setConn]
    exact hconn
  streams := h.streams

/-- A handle that keeps its counter. -/
theorem Inv.setHandle (h : Inv s) (hconn : conn.OwnedBy (Function.update s.owns (.handle k) handle.hasConn))
    (hsame : handle.counter = (s.handles k).counter) : Inv ((s.setConn conn).setHandle k handle) where
  conn := by
    rw [owns_setHandle, owns_setConn]
    exact hconn
  streams m := by
    have hself : (handle.counter == some m) = s.holds m k := by rw [hsame, holds]
    have hholds : ((s.setConn conn).setHandle k handle).holds m = s.holds m := by
      rw [holds_setHandle, hself]
      exact Function.update_eq_self ..
    rw [hholds]
    exact h.streams m

theorem streamOk_setStream (h : ∀ m, m ≠ n → StreamOk (s.holds m) (s.streams m)) (hn : StreamCounterOk stream (s.holds n))
    (m : Nat) : StreamOk ((s.setStream n stream).holds m) ((s.setStream n stream).streams m) := by
  change StreamOk (s.holds m) (Function.update s.streams n (some stream) m)
  rcases eq_or_ne m n with rfl | hne
  · rw [Function.update_self]
    exact hn
  · rw [Function.update_of_ne hne]
    exact h m hne

theorem Inv.setStream (h : Inv s)
    (hconn : conn.OwnedBy (Function.update (Function.update s.owns (.value n) (stream.value != .dropped)) (.clone n)
      (stream.value == .spawned)))
    (hn : StreamCounterOk stream (s.holds n)) : Inv ((s.setConn conn).setStream n stream) where
  conn := by
    rw [owns_setStream, owns_setConn]
    exact hconn
  streams := streamOk_setStream (fun m _ => h.streams m) hn

/-- A handle gets the counter of the stream or leaves it. -/
theorem Inv.setHolder (h : Inv s)
    (hconn : conn.OwnedBy (Function.update (Function.update (Function.update s.owns (.handle k) handle.hasConn) (.value n)
      (stream.value != .dropped)) (.clone n) (stream.value == .spawned)))
    (hothers : ∀ m, m ≠ n → (handle.counter == some m) = s.holds m k)
    (hn : StreamCounterOk stream (Function.update (s.holds n) k (handle.counter == some n))) :
    Inv (((s.setConn conn).setHandle k handle).setStream n stream) where
  conn := by
    rw [owns_setStream, owns_setHandle, owns_setConn]
    exact hconn
  streams := by
    refine streamOk_setStream (fun m hm => ?_) ?_
    · rw [holds_setHandle, hothers m hm]
      exact (Function.update_eq_self k (s.holds m)).symm ▸ h.streams m
    · rw [holds_setHandle]
      exact hn

end Changes

/-! ### Steps -/

theorem owns_user (hi : s.users i = true) : s.owns (.user i) = true := hi

theorem owns_handle (hk : s.handles k = .live n) : s.owns (.handle k) = true := by
  simp [owns, hk, StreamHandle.hasConn]

theorem holds_of_counter (hk : (s.handles k).counter = some n) (m : Nat) : s.holds m k = (n == m) := by
  simp [holds, hk]

theorem holds_of_none (hk : (s.handles k).counter = none) (m : Nat) : s.holds m k = false := by
  simp [holds, hk]

theorem step_stream (h : Inv s) (hi : s.users i = true) (hk : s.handles k = .unmade) (hn : s.streams n = none) :
    Inv (((s.setConn s.conn.clone.clone).setHandle k (.live n)).setStream n {}) := by
  have hhandle : s.owns (.handle k) = false := by simp [owns, hk, StreamHandle.hasConn]
  have hvalue : s.owns (.value n) = false := by simp [owns, hn]
  have htask : s.owns (.clone n) = false := by simp [owns, hn]
  have hfree : ∀ m, s.holds m k = false := holds_of_none (by rw [hk]; rfl)
  refine h.setHolder ?_ (fun m hm => ?_) ?_
  · have hfirst := h.conn.clone (owns_user hi) hhandle
    have hsecond := hfirst.clone (o := .handle k) (p := .value n) (by simp) (by simpa using hvalue)
    exact hsecond.keep (b := false) (by simpa using htask)
  · rw [hfree]
    simpa [StreamHandle.counter] using hm.symm
  · have hnone := h.streams n
    rw [hn] at hnone
    have hempty : s.holds n = fun _ => false := funext hnone
    simpa [StreamHandle.counter, hempty] using StreamCounterOk.new k

theorem step_cloneStream {l : Nat} {stream : StreamCounter} (h : Inv s) (hk : s.handles k = .live n)
    (hl : s.handles l = .unmade) (hn : s.streams n = some stream) :
    Inv (((s.setConn s.conn.clone).setHandle l (.live n)).setStream n { stream with counter := stream.counter.clone }) := by
  have hfree : ∀ m, s.holds m l = false := holds_of_none (by rw [hl]; rfl)
  refine h.setHolder ?_ (fun m hm => ?_) ?_
  · have hhandle := h.conn.clone (p := .handle l) (owns_handle hk) (by simp [owns, hl, StreamHandle.hasConn])
    have hvalue := hhandle.keep (o := .value n) (b := stream.value != .dropped) (by simp [owns, hn])
    exact hvalue.keep (by simp [owns, hn])
  · rw [hfree]
    simpa [StreamHandle.counter] using hm.symm
  · have hholds : s.holds n k = true := by simp [holds_of_counter (n := n) (by rw [hk]; rfl)]
    simpa [StreamHandle.counter] using (h.ofStream hn).clone hholds (hfree n)

theorem step_dropCounter {stream : StreamCounter} (h : Inv s) (hk : s.handles k = .dropping n)
    (hn : s.streams n = some stream) :
    Inv ((s.setHandle k .dropped).setStream n
      { stream with counter := stream.counter.drop,
                    value := if stream.counter.strong = 1 then .drop else stream.value }) := by
  have hok := h.ofStream hn
  have hcounter : ∀ m, s.holds m k = (n == m) := holds_of_counter (by rw [hk]; rfl)
  have hholds : s.holds n k = true := by simp [hcounter]
  have hlive : stream.value = .live := hok.live.mpr (hok.counter.not_dropped hholds)
  change Inv (((s.setConn s.conn).setHandle k .dropped).setStream n _)
  refine h.setHolder ?_ (fun m hm => ?_) (hok.drop hholds)
  · have hhandle := h.conn.keep (o := .handle k) (b := StreamHandle.dropped.hasConn)
      (by simp [owns, hk, StreamHandle.hasConn])
    have hundropped : (if stream.counter.strong = 1 then StreamDrop.drop else stream.value) ≠ .dropped := by
      split <;> simp [hlive]
    have hunspawned : (if stream.counter.strong = 1 then StreamDrop.drop else stream.value) ≠ .spawned := by
      split <;> simp [hlive]
    have hvalue := hhandle.keep (o := .value n) (b := true) (by simp [owns, hn, hlive])
    rw [bne_iff_ne.mpr hundropped, beq_eq_false_iff_ne.mpr hunspawned]
    exact hvalue.keep (by simp [owns, hn, hlive])
  · rw [hcounter]
    simpa [StreamHandle.counter] using hm.symm

theorem step_spawn {stream : StreamCounter} (h : Inv s) (hn : s.streams n = some stream) (hdrop : stream.value = .drop) :
    Inv ((s.setConn s.conn.clone).setStream n { stream with value := .spawned, task := .running }) := by
  have hok := h.ofStream hn
  refine h.setStream ?_ ⟨hok.counter, ?_, by simp⟩
  · have hvalue := h.conn.keep (o := .value n) (b := true) (by simp [owns, hn, hdrop])
    exact hvalue.clone (o := .value n) (by simp) (by simp [owns, hn, hdrop])
  · simpa [hdrop] using hok.live

theorem step_leave {stream : StreamCounter} (h : Inv s) (hn : s.streams n = some stream) (hspawned : stream.value = .spawned) :
    Inv ((s.setConn s.conn.drop).setStream n { stream with value := .left }) := by
  have hok := h.ofStream hn
  refine h.setStream ?_ ⟨hok.counter, ?_, ?_⟩
  · have hvalue := h.conn.keep (o := .value n) (b := true) (by simp [owns, hn, hspawned])
    exact hvalue.drop (o := .clone n) (by simp [owns, hn, hspawned])
  · simpa [hspawned] using hok.live
  · simpa [hspawned] using hok.task

theorem step_dropValue {stream : StreamCounter} (h : Inv s) (hn : s.streams n = some stream) (hleft : stream.value = .left) :
    Inv ((s.setConn s.conn.drop).setStream n { stream with value := .dropped }) := by
  have hok := h.ofStream hn
  refine h.setStream ?_ ⟨hok.counter, ?_, ?_⟩
  · have hvalue := h.conn.drop (o := .value n) (by simp [owns, hn, hleft])
    exact hvalue.keep (by simp [owns, hn, hleft])
  · simpa [hleft] using hok.live
  · simpa [hleft] using hok.task

/-- The task owns nothing that is counted. -/
theorem step_returned {stream : StreamCounter} (h : Inv s) (hn : s.streams n = some stream)
    (hrunning : stream.task = .running) : Inv (s.setStream n { stream with task := .returned }) := by
  have hok := h.ofStream hn
  change Inv ((s.setConn s.conn).setStream n _)
  refine h.setStream ?_ ⟨hok.counter, hok.live, ?_⟩
  · have hvalue := h.conn.keep (o := .value n) (b := stream.value != .dropped) (by simp [owns, hn])
    exact hvalue.keep (o := .clone n) (b := stream.value == .spawned) (by simp [owns, hn])
  · simpa [hrunning] using hok.task

theorem inv_step (h : Inv s) {a : HandleAction} (hs : s.step a = some s') : Inv s' := by
  cases a with
  | clone i j =>
    simp only [step, Option.ite_none_right_eq_some, Bool.and_eq_true, Bool.not_eq_true', Option.some.injEq] at hs
    obtain ⟨⟨hi, hj⟩, rfl⟩ := hs
    exact h.setUser (h.conn.clone (owns_user hi) hj)
  | drop i =>
    simp only [step, Option.ite_none_right_eq_some, Option.some.injEq] at hs
    obtain ⟨hi, rfl⟩ := hs
    exact h.setUser (h.conn.drop (owns_user hi))
  | stream i k n =>
    simp only [step] at hs
    split at hs
    · next hk hn =>
      rw [Option.ite_none_right_eq_some, Option.some.injEq] at hs
      obtain ⟨hi, rfl⟩ := hs
      exact step_stream h hi hk hn
    · cases hs
  | cloneConn k j =>
    simp only [step] at hs
    split at hs
    · next n hk =>
      rw [Option.ite_none_left_eq_some, Bool.not_eq_true, Option.some.injEq] at hs
      obtain ⟨hj, rfl⟩ := hs
      exact h.setUser (h.conn.clone (owns_handle hk) hj)
    · cases hs
  | takeConn k j =>
    simp only [step] at hs
    split at hs
    · next n hk =>
      rw [Option.ite_none_left_eq_some, Bool.not_eq_true, Option.some.injEq] at hs
      obtain ⟨hj, rfl⟩ := hs
      refine ⟨?_, fun m => ?_⟩
      · rw [owns_setUser, owns_setHandle]
        exact h.conn.move (owns_handle hk) hj
      · have hself : ((StreamHandle.dropping n).counter == some m) = s.holds m k := by simp [holds, hk, StreamHandle.counter]
        change StreamOk ((s.setHandle k (.dropping n)).holds m) (s.streams m)
        rw [holds_setHandle, hself, Function.update_eq_self]
        exact h.streams m
    · cases hs
  | cloneStream k l =>
    simp only [step] at hs
    split at hs
    · next n hk hl =>
      obtain ⟨stream, hn, rfl⟩ := Option.map_eq_some_iff.mp hs
      exact step_cloneStream h hk hl hn
    · cases hs
  | dropStream k =>
    simp only [step] at hs
    split at hs
    · next n hk =>
      cases hs
      exact h.setHandle (h.conn.drop (owns_handle hk)) (by rw [hk]; rfl)
    · cases hs
  | dropCounter k =>
    simp only [step] at hs
    split at hs
    · next n hk =>
      obtain ⟨stream, hn, rfl⟩ := Option.map_eq_some_iff.mp hs
      exact step_dropCounter h hk hn
    · cases hs
  | spawn n =>
    simp only [step] at hs
    split at hs
    · next stream hn =>
      rw [Option.ite_none_right_eq_some, Option.some.injEq] at hs
      obtain ⟨hdrop, rfl⟩ := hs
      exact step_spawn h hn hdrop
    · cases hs
  | leave n =>
    simp only [step] at hs
    split at hs
    · next stream hn =>
      rw [Option.ite_none_right_eq_some, Option.some.injEq] at hs
      obtain ⟨hspawned, rfl⟩ := hs
      exact step_leave h hn hspawned
    · cases hs
  | dropValue n =>
    simp only [step] at hs
    split at hs
    · next stream hn =>
      rw [Option.ite_none_right_eq_some, Option.some.injEq] at hs
      obtain ⟨hleft, rfl⟩ := hs
      exact step_dropValue h hn hleft
    · cases hs
  | returned n =>
    simp only [step] at hs
    split at hs
    · next stream hn =>
      rw [Option.ite_none_right_eq_some, Option.some.injEq] at hs
      obtain ⟨hrunning, rfl⟩ := hs
      exact step_returned h hn hrunning
    · cases hs
  | stop loop =>
    simp only [step, Option.ite_none_right_eq_some, Option.some.injEq] at hs
    obtain ⟨hloop, rfl⟩ := hs
    have howns : s.owns (.loop loop) = true := hloop
    exact h.stopLoop (h.conn.drop howns)

/-! ### Runs -/

theorem inv_accepted : Inv accepted where
  conn := by
    have howns : accepted.owns = Function.update (fun _ => false) (.user 0) true := by
      funext o
      cases o with
      | user i => cases i <;> rfl
      | loop | handle | value | clone => rfl
    exact howns ▸ .new _
  streams _ _ := rfl

theorem inv_connected : Inv connected where
  conn := by
    have hsend := (inv_accepted.conn.clone (o := .user 0) (p := .loop .recv) rfl rfl).clone
      (o := .user 0) (p := .loop .send) rfl rfl
    have howns : connected.owns =
        Function.update (Function.update accepted.owns (.loop .recv) true) (.loop .send) true := by
      funext o
      cases o with
      | loop loop => cases loop <;> rfl
      | user | handle | value | clone => rfl
    exact howns ▸ hsend
  streams _ _ := rfl

/-- How a connection begins: accepted by a listener, or connected. -/
def Begins (s : Handles) : Prop := s = accepted ∨ s = connected

theorem inv_of_reachable {init : Handles} (hinit : Begins init) (h : Reachable step init s) : Inv s := by
  refine h.invariant ?_ fun hinv _ hs => inv_step hinv hs
  rcases hinit with rfl | rfl
  · exact inv_accepted
  · exact inv_connected

/-- In every run: `QuicConnDrop` closes the connection at most once, and it has done so exactly when no `QuicConn` is left:
    none of the user, in a `QuicStream`, in a `QuicStreamDrop` or its `drop`, or in an event loop. A connection that was made
    by `connect` is not closed before its event loops have stopped, whatever has been dropped. -/
theorem conn_closed_once {init : Handles} (hinit : Begins init) (h : Reachable step init s) :
    s.conn.drops ≤ 1 ∧ (s.conn.drops = 1 ↔ ∀ owner, s.owns owner = false) ∧
      ∀ loop, s.loops loop = true → s.conn.drops = 0 := by
  have hconn := (inv_of_reachable hinit h).conn
  refine ⟨hconn.dropped_le, hconn.dropped_iff, fun loop hloop => ?_⟩
  have howns : s.owns (.loop loop) = true := hloop
  exact hconn.not_dropped howns

/-- Two streams of a connection that was made by `connect`: one is cloned and both clones are dropped, the other gives its
    connection away. All that is left are the event loops. -/
def dropAll : List HandleAction :=
  [.stream 0 0 0, .stream 0 1 1, .cloneStream 0 2, .drop 0, .dropStream 0, .takeConn 1 0, .dropStream 2, .dropCounter 2,
    .dropCounter 0, .spawn 0, .dropCounter 1, .leave 0, .dropValue 0, .spawn 1, .returned 0, .drop 0, .leave 1, .dropValue 1,
    .returned 1]

theorem conn_closed_once_dropAll : Begins connected ∧ ∃ s, Reachable step connected s ∧
    s.users 0 = false ∧ s.handles 0 = .dropped ∧ s.handles 1 = .dropped ∧ s.handles 2 = .dropped ∧ s.conn.strong = 2 ∧
    s.conn.drops ≤ 1 ∧ (s.conn.drops = 1 ↔ ∀ owner, s.owns owner = false) ∧
    ∀ loop, s.loops loop = true → s.conn.drops = 0 := by
  have hrun : run step connected dropAll = some _ := rfl
  have hreach := Reachable.of_run dropAll hrun
  exact ⟨.inr rfl, _, hreach, rfl, rfl, rfl, rfl, rfl, conn_closed_once (.inr rfl) hreach⟩

end Hala.Quic.Handles
