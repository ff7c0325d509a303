import Hala.Lib.Machine
import Hala.Tls.Stream

/-! The wakers of a TLS connection: the bridge has one whenever boring calls it, and none between the polls; and a poll that
returns `Pending` has parked the waker of its own context. -/

namespace Hala.Tls
open Io (ErrorKind Waker)
open Machine Program
variable {E S ε α : Type} {boring : Boring E ε} {stream : AsyncStream S ε} {raw : RawSslStream E S} {ctx : Waker}

/-! ### The operations of boring -/

/-- What every poll of the stream with the waker keeps. -/
structure Kept (stream : AsyncStream S ε) (ctx : Waker) (P : S → Prop) : Prop where
  read : ∀ s len, P s → P (stream.pollRead s ctx len).1
  write : ∀ s buf, P s → P (stream.pollWrite s ctx buf).1
  flush : ∀ s, P s → P (stream.pollFlush s ctx).1
  close : ∀ s, P s → P (stream.pollClose s ctx).1

theorem withContext_eq {β : Type} {b : AsyncStreamBridge S} (f : S → Waker → S × β) (h : b.waker = some ctx) :
    b.withContext f = some ({ b with stream := (f b.stream ctx).1 }, (f b.stream ctx).2) := by
  rw [AsyncStreamBridge.withContext, h]

/-- The bridge answers every call as long as it has a waker, and keeps it. -/
theorem handle_total {P : S → Prop} (hP : Kept stream ctx P) (taskWaker : Option Waker) (op : SslOp)
    (b : AsyncStreamBridge S) (h : b.waker = some ctx ∧ P b.stream) :
    ∃ b' r, AsyncStreamBridge.handle stream taskWaker op b = some (b', r) ∧ b'.waker = some ctx ∧ P b'.stream := by
  obtain ⟨hwaker, hstream⟩ := h
  cases op with
  | read len =>
    rw [AsyncStreamBridge.handle, withContext_eq _ hwaker]
    exact ⟨_, _, rfl, hwaker, hP.read _ _ hstream⟩
  | write buf =>
    rw [AsyncStreamBridge.handle, withContext_eq _ hwaker]
    exact ⟨_, _, rfl, hwaker, hP.write _ _ hstream⟩
  | flush =>
    rw [AsyncStreamBridge.handle, withContext_eq _ hwaker]
    exact ⟨_, _, rfl, hwaker, hP.flush _ hstream⟩
  | taskWaker => exact ⟨b, taskWaker, rfl, hwaker, hstream⟩

/-- With a waker in the bridge, an operation of boring never meets its panic. -/
theorem perform_total {P : S → Prop} (hP : Kept stream ctx P) (raw : RawSslStream E S) (hwaker : raw.bridge.waker = some ctx)
    (h : P raw.bridge.stream) (f : E → SslCall ε (E × α)) :
    ∃ raw' a, raw.perform stream f = some (raw', a) ∧ raw'.bridge.waker = some ctx ∧ raw'.taskWaker = raw.taskWaker ∧
      P raw'.bridge.stream := by
  obtain ⟨bridge, ⟨ssl, a⟩, hrun, hwaker', h'⟩ := Prog.run_total _ (handle_total hP raw.taskWaker) (f raw.ssl) ⟨hwaker, h⟩
  refine ⟨{ raw with ssl, bridge }, a, ?_, hwaker', rfl, h'⟩
  rw [RawSslStream.perform, hrun]
  rfl

theorem runInContext_total {P : S → Prop} {s : SslStream E S} (hP : Kept stream ctx P) (h : P s.raw.bridge.stream)
    (f : E → SslCall ε (E × α)) :
    ∃ s' a, s.runInContext stream ctx f = some (s', a) ∧ s'.raw.bridge.waker = none ∧ s'.raw.taskWaker = s.raw.taskWaker ∧
      P s'.raw.bridge.stream := by
  obtain ⟨raw', a, hperform, -, htask, h'⟩ := perform_total hP (s.raw.setWaker (some ctx)) rfl h f
  refine ⟨{ raw := raw'.setWaker none }, a, ?_, rfl, htask, h'⟩
  rw [SslStream.runInContext, hperform]
  rfl

theorem pollClose_total (boring : Boring E ε) {P : S → Prop} {s : SslStream E S} (hP : Kept stream ctx P)
    (h : P s.raw.bridge.stream) :
    ∃ s' r, s.pollClose boring stream ctx = some (s', r) ∧ s'.raw.bridge.waker = none ∧
      s'.raw.taskWaker = s.raw.taskWaker ∧ P s'.raw.bridge.stream := by
  obtain ⟨s₁, a, hrun, hwaker, htask, h₁⟩ := runInContext_total hP h boring.shutdown
  rw [SslStream.pollClose, hrun, Option.map_some]
  -- The stream below is closed in its own way, and the other exits leave it.
  have hclose : ∃ s' r, some (s₁.closeStream stream ctx) = some (s', r) ∧ s'.raw.bridge.waker = none ∧
      s'.raw.taskWaker = s.raw.taskWaker ∧ P s'.raw.bridge.stream :=
    ⟨_, _, rfl, hwaker, htask, hP.close _ h₁⟩
  match a with
  | .ok .sent | .ok .received => exact hclose
  | .error e =>
    dsimp only
    split
    · exact hclose
    · split
      · exact ⟨_, _, rfl, hwaker, htask, h₁⟩
      · split <;> exact ⟨_, _, rfl, hwaker, htask, h₁⟩

/-! ### The wakers between the polls -/

namespace Connection
variable {c c' : Connection E S ε} {op : ConnectionOp} {answer : Answer ε}

/-- No waker is left in the bridge, and none in an `Ssl` whose handshake has not failed. -/
def Clear : Connection E S ε → Prop
  | .handshake mid => mid.bridge.waker = none ∧ mid.taskWaker = none
  | .established s => s.raw.bridge.waker = none ∧ s.raw.taskWaker = none
  | .failed (.failure mid _) => mid.bridge.waker = none ∧ mid.taskWaker ≠ none
  | .failed (.setupFailure _) => True
  | .panicked => False

/-- What holds of the stream below, as long as the connection has it. -/
def Below (P : S → Prop) (c : Connection E S ε) : Prop := ∀ raw, c.raw? = some raw → P raw.bridge.stream

theorem ofStream_clear {P : S → Prop} {result : Option (SslStream E S × Poll α)} {map : α → Answer ε} {s : SslStream E S}
    {r : Poll α} (hresult : result = some (s, r)) (hwaker : s.raw.bridge.waker = none) (htask : s.raw.taskWaker = none)
    (h : P s.raw.bridge.stream) (hs : ofStream result map = (c', answer)) : c'.Clear ∧ c'.Below P := by
  rw [hresult] at hs
  cases hs
  refine ⟨⟨hwaker, htask⟩, ?_⟩
  intro raw hraw
  cases hraw
  exact h

/-- A poll clears the wakers again, and keeps what the polls of the stream with its waker keep. -/
theorem poll_clear {P : S → Prop} (hP : Kept stream ctx P) (hclear : c.Clear) (hbelow : c.Below P)
    (hs : c.poll boring stream ctx op = some (c', answer)) : c'.Clear ∧ c'.Below P := by
  cases c with
  | handshake mid =>
    cases op with
    | handshake =>
      obtain ⟨raw', a, hperform, -, htask, h'⟩ :=
        perform_total hP ((mid.setWaker (some ctx)).setTaskWaker (some ctx)) rfl (hbelow mid rfl) boring.handshake
      have hstream : ∀ {raw : RawSslStream E S}, some (raw'.setWaker none) = some raw → P raw.bridge.stream := by
        intro raw hraw
        cases hraw
        exact h'
      have hstream' : ∀ {raw : RawSslStream E S}, some ((raw'.setWaker none).setTaskWaker none) = some raw →
          P raw.bridge.stream := by
        intro raw hraw
        cases hraw
        exact h'
      simp only [poll, pollHandshake, hperform, Option.map_some] at hs
      cases a <;> cases hs
      · exact ⟨⟨rfl, rfl⟩, fun _ => hstream'⟩
      · exact ⟨⟨rfl, rfl⟩, fun _ => hstream'⟩
      · refine ⟨⟨rfl, ?_⟩, fun _ => hstream⟩
        change raw'.taskWaker ≠ none
        rw [htask]
        nofun
      · exact ⟨trivial, nofun⟩
    | _ => cases hs
  | established s =>
    have hbelow := hbelow s.raw rfl
    obtain ⟨-, htask⟩ := hclear
    cases op with
    | handshake => cases hs
    | read len =>
      obtain ⟨s', a, hrun, hwaker', htask', h'⟩ := runInContext_total hP hbelow fun ssl => boring.read ssl len
      have hpoll : s.pollRead boring stream ctx len = some (s', cvt a) := by
        rw [SslStream.pollRead, hrun]
        rfl
      exact ofStream_clear hpoll hwaker' (htask'.trans htask) h' (Option.some.inj hs)
    | write buf =>
      obtain ⟨s', a, hrun, hwaker', htask', h'⟩ := runInContext_total hP hbelow fun ssl => boring.write ssl buf
      have hpoll : s.pollWrite boring stream ctx buf = some (s', cvt a) := by
        rw [SslStream.pollWrite, hrun]
        rfl
      exact ofStream_clear hpoll hwaker' (htask'.trans htask) h' (Option.some.inj hs)
    | flush =>
      obtain ⟨s', a, hrun, hwaker', htask', h'⟩ := runInContext_total hP hbelow boring.flush
      have hpoll : s.pollFlush boring stream ctx = some (s', cvt a) := by
        rw [SslStream.pollFlush, hrun]
        rfl
      exact ofStream_clear hpoll hwaker' (htask'.trans htask) h' (Option.some.inj hs)
    | close =>
      obtain ⟨s', r, hpoll, hwaker', htask', h'⟩ := pollClose_total boring hP hbelow
      exact ofStream_clear hpoll hwaker' (htask'.trans htask) h' (Option.some.inj hs)
  | failed error => cases hs
  | panicked => cases hs

theorem kept_true (stream : AsyncStream S ε) : Kept stream ctx fun _ => True where
  read _ _ _ := trivial
  write _ _ _ := trivial
  flush _ _ := trivial
  close _ _ := trivial

theorem clear_step {a : Waker × ConnectionOp} (h : c.Clear) (hs : c.step boring stream a = some c') : c'.Clear := by
  obtain ⟨⟨c', answer⟩, hpoll, rfl⟩ := Option.map_eq_some_iff.mp hs
  exact (poll_clear (kept_true _) h (fun _ _ => trivial) hpoll).1

/-- Wherever its polls have brought a connection. -/
theorem clear_of_reachable {ssl : E} {inner : S} (h : Reachable (Connection.step boring stream) (.new ssl inner) c) : c.Clear :=
  h.invariant (show Clear (.new ssl inner) from ⟨rfl, rfl⟩) fun h _ hs => clear_step h hs

/-- In every run of a connection, with any stream and any boring: no poll meets the panic of a bridge without a waker; between
    the polls no waker is left behind, except the task waker in an `Ssl` whose handshake has failed; and whatever boring does in
    a poll, it polls the stream below with the waker of that poll alone. -/
theorem own_waker {ssl : E} {inner : S} {c c' : Connection E (S × List Waker) ε}
    (h : Reachable (step boring stream.logged) (.new ssl (inner, [])) c)
    (hs : c.poll boring stream.logged ctx op = some (c', answer)) :
    c'.Clear ∧ ∀ raw raw', c.raw? = some raw → c'.raw? = some raw' →
      ∃ n, raw'.bridge.stream.2 = List.replicate n ctx ++ raw.bridge.stream.2 := by
  have hclear := clear_of_reachable h
  refine ⟨(poll_clear (kept_true _) hclear (fun _ _ => trivial) hs).1, ?_⟩
  intro raw raw' hraw hraw'
  let Logged (s : S × List Waker) := ∃ n, s.2 = List.replicate n ctx ++ raw.bridge.stream.2
  have hmore : ∀ {s : S × List Waker} {s' : S}, Logged s → Logged (s', ctx :: s.2) := by
    rintro s s' ⟨n, hn⟩
    exact ⟨n + 1, by rw [hn]; rfl⟩
  have hkept : Kept stream.logged ctx Logged :=
    { read := fun _ _ h => hmore h, write := fun _ _ h => hmore h, flush := fun _ h => hmore h, close := fun _ h => hmore h }
  have hbelow : c.Below Logged := by
    intro raw₁ hraw₁
    rw [hraw] at hraw₁
    cases hraw₁
    exact ⟨0, rfl⟩
  exact (poll_clear hkept hclear hbelow hs).2 raw' hraw'

end Connection

/-! ### The waker of a poll that is pending -/

section Pending
variable {parked : S → Side → Waker → Prop} {waiting : E → Waker → Prop} {met : Met}

/-- Where boring has met a side that would block, the waker is parked. -/
structure Agrees (parked : S → Side → Waker → Prop) (ctx : Waker) (taskWaker : Option Waker) (met : Met)
    (b : AsyncStreamBridge S) : Prop where
  waker : b.waker = some ctx
  read : met.read = true → parked b.stream .read ctx
  write : met.write = true → parked b.stream .write ctx
  taskWaker : met.taskWaker = none ∨ met.taskWaker = taskWaker

theorem blocks_ofPoll {poll : Poll (Except (IoError ε) α)} (hnone : ∀ e, poll = .ready (.error e) → e.kind ≠ .wouldBlock)
    (h : blocks (AsyncStreamBridge.ofPoll poll) = true) : poll = .pending := by
  cases poll with
  | pending => rfl
  | ready r =>
    cases r with
    | ok a => cases h
    | error e => exact absurd (of_decide_eq_true h) (hnone e rfl)

theorem Agrees.handle {taskWaker : Option Waker} (hparks : Parks stream parked) {op : SslOp} {b b' : AsyncStreamBridge S}
    {r : op.Ret ε} (h : Agrees parked ctx taskWaker met b)
    (hs : AsyncStreamBridge.handle stream taskWaker op b = some (b', r)) :
    Agrees parked ctx taskWaker (met.track op r) b' := by
  cases op with
  | read len =>
    rw [AsyncStreamBridge.handle, withContext_eq _ h.waker] at hs
    cases hs
    refine ⟨h.waker, fun hblocks => ?_, fun hwrite => hparks.readKeeps _ _ _ (h.write hwrite), h.taskWaker⟩
    exact hparks.read _ _ _ (blocks_ofPoll (hparks.readError _ _ _) hblocks)
  | write buf =>
    rw [AsyncStreamBridge.handle, withContext_eq _ h.waker] at hs
    cases hs
    refine ⟨h.waker, fun hread => hparks.writeKeeps _ _ _ (h.read hread), fun hblocks => ?_, h.taskWaker⟩
    exact hparks.write _ _ _ (blocks_ofPoll (hparks.writeError _ _ _) hblocks)
  | flush =>
    rw [AsyncStreamBridge.handle, withContext_eq _ h.waker] at hs
    cases hs
    refine ⟨h.waker, fun hread => hparks.flushKeeps _ _ (h.read hread), fun hblocks => ?_, h.taskWaker⟩
    exact hparks.flush _ _ (blocks_ofPoll (hparks.flushError _ _) hblocks)
  | taskWaker =>
    cases hs
    exact ⟨h.waker, h.read, h.write, .inr rfl⟩

/-- An operation of boring ends with a result that it may have after what it has met, and the waker is parked accordingly. -/
theorem perform_agrees (raw : RawSslStream E S) {ok : Met → E × α → Prop} {f : E → SslCall ε (E × α)}
    {raw' : RawSslStream E S} {a : α} (hparks : Parks stream parked) (hends : (f raw.ssl).Ends Met.track ok {})
    (hwaker : raw.bridge.waker = some ctx) (hs : raw.perform stream f = some (raw', a)) :
    ∃ met, Agrees parked ctx raw.taskWaker met raw'.bridge ∧ ok met (raw'.ssl, a) := by
  obtain ⟨⟨bridge, ssl, a'⟩, hrun, heq⟩ := Option.map_eq_some_iff.mp hs
  cases heq
  have hinit : Agrees parked ctx raw.taskWaker {} raw.bridge := ⟨hwaker, by simp, by simp, .inl rfl⟩
  have hcall : ∀ {met : Met} {op : SslOp} {b b' : AsyncStreamBridge S} {r : op.Ret ε},
      Agrees parked ctx raw.taskWaker met b → AsyncStreamBridge.handle stream raw.taskWaker op b = some (b', r) →
      Agrees parked ctx raw.taskWaker (met.track op r) b' := fun h hhandle => h.handle hparks hhandle
  exact Prog.run_ends (AsyncStreamBridge.handle stream raw.taskWaker) hcall hends hinit hrun

/-- The waker will be woken: it is parked at the stream below, or with a callback of the `Ssl`. -/
def WillWake (parked : S → Side → Waker → Prop) (waiting : E → Waker → Prop) (ctx : Waker) (c : Connection E S ε) : Prop :=
  ∃ raw, c.raw? = some raw ∧ ((∃ side, parked raw.bridge.stream side ctx) ∨ waiting raw.ssl ctx)

theorem Agrees.willWake {taskWaker : Option Waker} {b : AsyncStreamBridge S} {ssl : E} (h : Agrees parked ctx taskWaker met b)
    (hwaits : met.Waits waiting ssl) (htask : ∀ waker, taskWaker = some waker → waker = ctx) :
    (∃ side, parked b.stream side ctx) ∨ waiting ssl ctx := by
  rcases hwaits with hread | hwrite | ⟨waker, hmet, hwaiting⟩
  · exact .inl ⟨.read, h.read hread⟩
  · exact .inl ⟨.write, h.write hwrite⟩
  · right
    rcases h.taskWaker with hnone | hgiven
    · rw [hmet] at hnone
      cases hnone
    · rw [hmet] at hgiven
      rwa [htask waker hgiven.symm] at hwaiting

theorem blocks_of_cvt {r : Except (IoError ε) α} (h : cvt r = .pending) : blocks r = true := by
  cases r with
  | ok a => cases h
  | error e =>
    rw [cvt] at h
    split at h
    · exact decide_eq_true ‹_›
    · cases h

theorem answer_pending {map : α → Answer ε} (hmap : ∀ a, map a ≠ .pending) {poll : Poll α}
    (h : poll.answer map = .pending) : poll = .pending := by
  cases poll with
  | pending => rfl
  | ready a => exact absurd h (hmap a)

namespace Connection
variable {c c' : Connection E S ε} {op : ConnectionOp} {s s' : SslStream E S}

/-- `poll_read`, `poll_write` and `poll_flush`, by what they ask of boring. -/
theorem willWake_of_cvt {f : E → SslCall ε (E × Except (IoError ε) α)} {map : Except (IoError ε) α → Answer ε}
    (hparks : Parks stream parked)
    (hends : (f s.raw.ssl).Ends Met.track (fun met r => blocks r.2 = true → met.Waits waiting r.1) {})
    (htask : s.raw.taskWaker = none) (hmap : ∀ a, map a ≠ .pending)
    (hs : ofStream ((s.runInContext stream ctx f).map (Prod.map id cvt)) map = (c', .pending)) :
    WillWake parked waiting ctx c' := by
  obtain ⟨raw', a, hperform, -⟩ := perform_total (kept_true stream) (s.raw.setWaker (some ctx)) rfl trivial f
  rw [SslStream.runInContext, hperform] at hs
  obtain ⟨rfl, hanswer⟩ := Prod.mk.inj hs
  obtain ⟨met, hagrees, hwaits⟩ := perform_agrees (s.raw.setWaker (some ctx)) hparks hends rfl hperform
  refine ⟨_, rfl, hagrees.willWake (hwaits (blocks_of_cvt (answer_pending hmap hanswer))) ?_⟩
  intro waker hwaker
  cases htask.symm.trans hwaker

theorem willWake_of_close (hparks : Parks stream parked) (hhonest : Honest boring waiting) (htask : s.raw.taskWaker = none)
    (hs : ofStream (s.pollClose boring stream ctx) .unit = (c', .pending)) : WillWake parked waiting ctx c' := by
  obtain ⟨raw', a, hperform, -⟩ :=
    perform_total (kept_true stream) (s.raw.setWaker (some ctx)) rfl trivial boring.shutdown
  obtain ⟨met, hagrees, hwaits⟩ :=
    perform_agrees (s.raw.setWaker (some ctx)) hparks (hhonest.shutdown _) rfl hperform
  have hclose : ∀ {c' : Connection E S ε}, ofStream (some (SslStream.closeStream stream { raw := raw'.setWaker none } ctx)) .unit =
      (c', .pending) → WillWake parked waiting ctx c' := by
    intro c' hs
    obtain ⟨rfl, hanswer⟩ := Prod.mk.inj hs
    exact ⟨_, rfl, .inl ⟨.close, hparks.close _ _ (answer_pending (by nofun) hanswer)⟩⟩
  rw [SslStream.pollClose, SslStream.runInContext, hperform] at hs
  simp only [Option.map_some] at hs
  match a with
  | .ok .sent | .ok .received => exact hclose hs
  | .error e =>
    dsimp only at hs
    split at hs
    · exact hclose hs
    · split at hs
      · rename_i hwant
        cases hs
        refine ⟨_, rfl, hagrees.willWake (hwaits e rfl hwant) ?_⟩
        intro waker hwaker
        cases htask.symm.trans hwaker
      · split at hs <;> cases hs

/-- In every run of a connection whose stream parks the wakers of its pending polls, and whose boring asks to be called again
    only where it has met a reason to wait: a poll that returns `Pending`, in the handshake or after it, has parked the waker
    of its own context at the stream below, or boring has an asynchronous callback under way that wakes it. -/
theorem pending_willWake {ssl : E} {inner : S} (hparks : Parks stream parked) (hhonest : Honest boring waiting)
    (h : Reachable (step boring stream) (.new ssl inner) c) (hs : c.poll boring stream ctx op = some (c', .pending)) :
    WillWake parked waiting ctx c' := by
  have hclear := clear_of_reachable h
  cases c with
  | handshake mid =>
    cases op with
    | handshake =>
      obtain ⟨raw', a, hperform, -⟩ :=
        perform_total (kept_true stream) ((mid.setWaker (some ctx)).setTaskWaker (some ctx)) rfl trivial
          boring.handshake
      obtain ⟨met, hagrees, hwaits⟩ :=
        perform_agrees ((mid.setWaker (some ctx)).setTaskWaker (some ctx)) hparks (hhonest.handshake _) rfl hperform
      simp only [poll, pollHandshake, hperform, Option.map_some] at hs
      cases a <;> cases hs
      exact ⟨_, rfl, hagrees.willWake (hwaits rfl) fun waker hwaker => (Option.some.inj hwaker).symm⟩
    | _ => cases hs
  | established s =>
    obtain ⟨-, htask⟩ := hclear
    cases op with
    | handshake => cases hs
    | read len => exact willWake_of_cvt hparks (hhonest.read _ len) htask (by nofun) (Option.some.inj hs)
    | write buf => exact willWake_of_cvt hparks (hhonest.write _ buf) htask (by nofun) (Option.some.inj hs)
    | flush => exact willWake_of_cvt hparks (hhonest.flush _) htask (by nofun) (Option.some.inj hs)
    | close => exact willWake_of_close hparks hhonest htask (Option.some.inj hs)
  | failed error => cases hs
  | panicked => cases hs

end Connection

end Pending

/-! ### A handshake that waits for its peer -/

/-- A socket of a silent peer: it takes what is written, and parks the wakers of the reads. -/
def silent : AsyncStream (List Waker) Unit where
  pollRead := fun s ctx _ => (ctx :: s, .pending)
  pollWrite := fun s _ buf => (s, .ready (.ok buf.length))
  pollFlush := fun s _ => (s, .ready (.ok ()))
  pollClose := fun s _ => (s, .ready (.ok ()))

theorem silent_parks : Parks silent fun s side ctx => side = .read ∧ ctx ∈ s where
  read _ _ _ _ := ⟨rfl, List.mem_cons_self⟩
  write _ _ _ h := by cases h
  flush _ _ h := by cases h
  close _ _ h := by cases h
  readKeeps _ _ _ h := by cases h.1
  writeKeeps _ _ _ h := h
  flushKeeps _ _ h := h
  readError _ _ _ _ h := by cases h
  writeError _ _ _ _ h := by cases h
  flushError _ _ _ h := by cases h

/-- The result of an operation that ends with a read. -/
def SslCall.reading (done : Except (IoError Unit) Bytes → α) (len : Nat) : SslCall Unit (Unit × α) :=
  .call (.read len) fun r => .done ((), done r)

/-- A client that says hello and reads the answer. -/
def hello : Boring Unit Unit where
  handshake := fun _ => .call (.write [22, 3, 1]) fun _ => SslCall.reading
    (fun | .ok _ => .ok | .error e => if e.kind = .wouldBlock then .wouldBlock else .failure ⟨.other 5, some e, ()⟩) 5
  read := fun _ len => SslCall.reading id len
  write := fun _ buf => .call (.write buf) fun r => .done ((), r)
  flush := fun _ => .call .flush fun r => .done ((), r)
  shutdown := fun _ => .call (.write [21, 3, 1]) fun _ => .done ((), .ok .sent)

theorem hello_honest : Honest hello fun _ _ => False where
  handshake _ _ r h := by
    cases r with
    | ok data => cases h
    | error e =>
      left
      have h : (if e.kind = .wouldBlock then HandshakeResult.wouldBlock else .failure ⟨.other 5, some e, ()⟩) =
        .wouldBlock := h
      split at h
      · exact decide_eq_true ‹_›
      · cases h
  read _ _ _ h := .inl h
  write _ _ _ h := .inr (.inl h)
  flush _ _ h := .inr (.inl h)
  shutdown _ _ e h := by cases h

theorem hello_own_waker : ∃ c', (Connection.new () (([] : List Waker), ([] : List Waker))).poll hello silent.logged 7 .handshake =
    some (c', .pending) ∧ c'.Clear := by
  have hpoll : (Connection.new () (([] : List Waker), ([] : List Waker))).poll hello silent.logged 7 .handshake =
    some (_, .pending) := rfl
  exact ⟨_, hpoll, (Connection.own_waker .refl hpoll).1⟩

theorem hello_pending_willWake : ∃ c', (Connection.new () ([] : List Waker)).poll hello silent 7 .handshake = some (c', .pending) ∧
    WillWake (fun s side ctx => side = .read ∧ ctx ∈ s) (fun _ _ => False) 7 c' := by
  have hpoll : (Connection.new () ([] : List Waker)).poll hello silent 7 .handshake = some (_, .pending) := rfl
  exact ⟨_, hpoll, Connection.pending_willWake silent_parks hello_honest .refl hpoll⟩

end Hala.Tls
