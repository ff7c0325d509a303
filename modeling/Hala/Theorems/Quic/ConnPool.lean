import Hala.Quic.ConnPool
import Hala.Quic.Sample
import Mathlib.Data.List.Nodup

/-! The bounds of a connection pool.

The loop over the connections either ends at one with credit and changes nothing, or has found every connection closed
or without credit (`scan_eq_closed_iff`). Then the closed ones are removed, and the number of those that are left decides
whether a new connection is made (`findAvalidConn_spec`). -/

namespace Hala.Quic
open Machine RawConnPool
variable {Q : Type} {quiche : Quiche Q} {credit : StreamCredit Q} {call : PoolCall Q} {pool pool' : RawConnPool}

/-! ### The loop -/

/-- The call finds the connection closed or without credit. -/
def PoolCall.Refuses (quiche : Quiche Q) (credit : StreamCredit Q) (call : PoolCall Q) (conn : QuicConn) : Prop :=
  call.isClosed quiche conn = true ∨ call.leftBidi credit conn = some 0

/-- The loop ends without a connection when it has found all of them closed or without credit. -/
theorem scan_eq_closed_iff {conns : List (Σ _ : ConnId, QuicConn)} {before ids : List ConnId} :
    scan quiche credit call conns before = .closed ids ↔ (∀ e ∈ conns, call.Refuses quiche credit e.2) ∧
      ids = before ++ (conns.filter fun e => call.isClosed quiche e.2).map Sigma.fst := by
  induction conns generalizing before with
  | nil =>
    unfold scan
    simp [eq_comm]
  | cons e conns ih =>
    obtain ⟨id, conn⟩ := e
    unfold scan
    simp only [List.forall_mem_cons, List.filter_cons]
    by_cases hclosed : call.isClosed quiche conn = true
    · have hrefuses : call.Refuses quiche credit conn := Or.inl hclosed
      rw [if_pos hclosed, if_pos hclosed, ih, and_iff_right hrefuses]
      simp
    · have hrefuses : call.Refuses quiche credit conn ↔ call.leftBidi credit conn = some 0 := or_iff_right hclosed
      rw [if_neg hclosed, if_neg hclosed, hrefuses]
      cases call.leftBidi credit conn with
      | none => simp
      | some leftBidi =>
        dsimp only
        by_cases hleft : leftBidi > 0
        · rw [if_pos hleft]
          simp [Nat.ne_of_gt hleft]
        · obtain rfl : leftBidi = 0 := Nat.eq_zero_of_not_pos hleft
          rw [if_neg hleft, ih, and_iff_right rfl]

/-- A connection with credit ends the loop, and one without the transport parameters of its peer does. -/
theorem scan_cases {conns : List (Σ _ : ConnId, QuicConn)} {before : List ConnId} :
    (∀ conn, scan quiche credit call conns before = .found conn →
      ∃ e ∈ conns, e.2 = conn ∧ call.isClosed quiche e.2 = false ∧ ∃ left > 0, call.leftBidi credit e.2 = some left) ∧
    (scan quiche credit call conns before = .panicked →
      ∃ e ∈ conns, call.isClosed quiche e.2 = false ∧ call.leftBidi credit e.2 = none) := by
  induction conns generalizing before with
  | nil => exact ⟨nofun, nofun⟩
  | cons e conns ih =>
    obtain ⟨id, other⟩ := e
    have htail {before : List ConnId} : (∀ conn, scan quiche credit call conns before = .found conn →
          ∃ e ∈ ⟨id, other⟩ :: conns, e.2 = conn ∧ call.isClosed quiche e.2 = false ∧
            ∃ left > 0, call.leftBidi credit e.2 = some left) ∧
        (scan quiche credit call conns before = .panicked →
          ∃ e ∈ ⟨id, other⟩ :: conns, call.isClosed quiche e.2 = false ∧ call.leftBidi credit e.2 = none) :=
      ih.imp (fun h conn hs => (h conn hs).imp fun e he => he.imp_left (.tail _))
        fun h hs => (h hs).imp fun e he => he.imp_left (.tail _)
    unfold scan
    by_cases hclosed : call.isClosed quiche other = true
    · rw [if_pos hclosed]
      exact htail
    · rw [if_neg hclosed]
      rw [Bool.not_eq_true] at hclosed
      cases hleft : call.leftBidi credit other with
      | none => exact ⟨fun _ => nofun, fun _ => ⟨⟨id, other⟩, .head _, hclosed, hleft⟩⟩
      | some left =>
        dsimp only
        split
        · next hpos =>
          refine ⟨fun conn hs => ?_, nofun⟩
          cases hs
          exact ⟨_, .head _, rfl, hclosed, left, hpos, hleft⟩
        · exact htail

/-! ### What is left -/

/-- The connections that the call does not find closed. -/
def RawConnPool.remaining (quiche : Quiche Q) (call : PoolCall Q) (pool : RawConnPool) : List (Σ _ : ConnId, QuicConn) :=
  pool.conns.entries.filter fun e => !call.isClosed quiche e.2

theorem keys_foldl_erase (ids : List ConnId) (conns : AList fun _ : ConnId => QuicConn) :
    (ids.foldl (fun conns id => conns.erase id) conns).keys = conns.keys.filter (· ∉ ids) := by
  induction ids generalizing conns with
  | nil => simp
  | cons id ids ih =>
    have herase := @List.Nodup.erase_eq_filter _ instBEqOfDecidableEq _ _ conns.keys_nodup id
    rw [List.foldl_cons, ih, AList.keys_erase, herase, List.filter_filter]
    apply List.filter_congr
    intro k _
    rw [Bool.eq_iff_iff]
    simp [and_comm]

theorem lookup_foldl_erase {ids : List ConnId} {id : ConnId} (h : id ∉ ids) (conns : AList fun _ : ConnId => QuicConn) :
    (ids.foldl (fun conns id => conns.erase id) conns).lookup id = conns.lookup id := by
  induction ids generalizing conns with
  | nil => rfl
  | cons id' ids ih =>
    rw [List.mem_cons, not_or] at h
    rw [List.foldl_cons, ih h.2, AList.lookup_erase_ne h.1]

theorem length_entries (conns : AList fun _ : ConnId => QuicConn) : conns.entries.length = conns.keys.length :=
  List.length_map _ |>.symm

/-- The ids that a pass finds closed. -/
def closedIds (quiche : Quiche Q) (call : PoolCall Q) : List ConnId :=
  (call.order.filter fun e => call.isClosed quiche e.2).map Sigma.fst

/-- The map without the closed connections. -/
def RawConnPool.left (quiche : Quiche Q) (call : PoolCall Q) (pool : RawConnPool) : AList fun _ : ConnId => QuicConn :=
  (closedIds quiche call).foldl (fun conns id => conns.erase id) pool.conns

section Order
variable (horder : call.order.Perm pool.conns.entries)
include horder

theorem mem_closedIds_iff {e : Σ _ : ConnId, QuicConn} (he : e ∈ pool.conns.entries) :
    e.1 ∈ closedIds quiche call ↔ call.isClosed quiche e.2 = true := by
  unfold closedIds
  rw [List.mem_map]
  constructor
  · rintro ⟨e', he', hid⟩
    obtain ⟨hmem, hclosed⟩ := List.mem_filter.mp he'
    obtain rfl : e' = e := pool.conns.nodupKeys.eq_of_fst_eq (horder.mem_iff.mp hmem) he hid
    exact hclosed
  · intro hclosed
    exact ⟨e, List.mem_filter.mpr ⟨horder.mem_iff.mpr he, hclosed⟩, rfl⟩

/-- The closed connections are removed. -/
theorem keys_left : (pool.left quiche call).keys = (pool.remaining quiche call).map Sigma.fst := by
  unfold left remaining
  rw [keys_foldl_erase]
  change (pool.conns.entries.map Sigma.fst).filter _ = _
  rw [List.filter_map]
  congr 1
  apply List.filter_congr
  intro e he
  simp [mem_closedIds_iff horder he]

theorem length_left : (pool.left quiche call).entries.length = (pool.remaining quiche call).length := by
  rw [length_entries, keys_left horder, List.length_map]

/-- The call finds no connection that it can use. -/
def RawConnPool.Stuck (quiche : Quiche Q) (credit : StreamCredit Q) (call : PoolCall Q) (pool : RawConnPool) : Prop :=
  ∀ e ∈ pool.conns.entries, call.Refuses quiche credit e.2

/-- A call that finds a connection with credit returns it, and changes nothing. -/
theorem findAvalidConn_of_not_stuck (h : ¬pool.Stuck quiche credit call) :
    (∃ e ∈ pool.conns.entries, pool.findAvalidConn quiche credit call = (pool, .found e.2) ∧
        call.isClosed quiche e.2 = false ∧ ∃ left > 0, call.leftBidi credit e.2 = some left) ∨
      ∃ e ∈ pool.conns.entries, pool.findAvalidConn quiche credit call = (pool, .panicked) ∧
        call.isClosed quiche e.2 = false ∧ call.leftBidi credit e.2 = none := by
  unfold findAvalidConn
  cases hscan : scan quiche credit call call.order [] with
  | found conn =>
    obtain ⟨e, he, rfl, hopen, hcredit⟩ := scan_cases.1 _ hscan
    exact .inl ⟨e, horder.mem_iff.mp he, rfl, hopen, hcredit⟩
  | panicked =>
    obtain ⟨e, he, hopen, hcredit⟩ := scan_cases.2 hscan
    exact .inr ⟨e, horder.mem_iff.mp he, rfl, hopen, hcredit⟩
  | closed ids =>
    refine absurd (fun e he => ?_) h
    exact (scan_eq_closed_iff.mp hscan).1 e (horder.mem_iff.mpr he)

/-- A call that finds none removes the closed ones, and makes a connection when those that are left are below the limit. -/
theorem findAvalidConn_of_stuck (h : pool.Stuck quiche credit call) :
    pool.findAvalidConn quiche credit call =
      if (pool.remaining quiche call).length ≥ pool.maxConns then ({ pool with conns := pool.left quiche call }, .limit)
      else
        match call.connect with
        | .error err => ({ pool with conns := pool.left quiche call }, .failed err)
        | .ok conn => ({ pool with conns := (pool.left quiche call).insert (call.whenOpen conn).scid conn }, .made conn) := by
  have hscan : scan quiche credit call call.order [] = .closed (closedIds quiche call) :=
    scan_eq_closed_iff.mpr ⟨fun e he => h e (horder.mem_iff.mp he), rfl⟩
  unfold findAvalidConn
  rw [hscan, ← length_left horder]
  rfl

end Order

/-! ### Calls -/

/-- The connections that are left are without credit when the call finds none that it can use. -/
theorem stuck_iff : pool.Stuck quiche credit call ↔ ∀ e ∈ pool.remaining quiche call, call.leftBidi credit e.2 = some 0 := by
  unfold RawConnPool.Stuck RawConnPool.remaining PoolCall.Refuses
  simp only [List.mem_filter, Bool.not_eq_true', and_imp]
  refine forall₂_congr fun e _ => ?_
  cases call.isClosed quiche e.2 <;> simp

/-- What a call may end with: the pool that it leaves, and what it returns if it does not panic. -/
inductive RawConnPool.Ends (quiche : Quiche Q) (credit : StreamCredit Q) (pool : RawConnPool) (call : PoolCall Q) :
    RawConnPool × Option (Except IoError (QuicConn × StreamId)) → Prop
  /-- A stream of a connection that has credit. -/
  | reused {e : Σ _ : ConnId, QuicConn} {left : Nat} (he : e ∈ pool.conns.entries)
      (hopen : call.isClosed quiche e.2 = false) (hcredit : call.leftBidi credit e.2 = some left) (hleft : 0 < left) :
      Ends quiche credit pool call (pool, some (((call.whenOpen e.2).openStream quiche).2.map fun id => (e.2, id)))
  | panicked {e : Σ _ : ConnId, QuicConn} (he : e ∈ pool.conns.entries) (hopen : call.isClosed quiche e.2 = false)
      (hcredit : call.leftBidi credit e.2 = none) : Ends quiche credit pool call (pool, none)
  | limit (hstuck : pool.Stuck quiche credit call) (hfull : (pool.remaining quiche call).length = pool.maxConns) :
      Ends quiche credit pool call ({ pool with conns := pool.left quiche call }, some (.error poolLimit))
  | failed {err : IoError} (hstuck : pool.Stuck quiche credit call)
      (hroom : (pool.remaining quiche call).length < pool.maxConns) (hconnect : call.connect = .error err) :
      Ends quiche credit pool call ({ pool with conns := pool.left quiche call }, some (.error err))
  /-- A stream of a new connection, which is in the pool then. -/
  | made {conn : QuicConn} (hstuck : pool.Stuck quiche credit call)
      (hroom : (pool.remaining quiche call).length < pool.maxConns) (hconnect : call.connect = .ok conn) :
      Ends quiche credit pool call
        ({ pool with conns := (pool.left quiche call).insert (call.whenOpen conn).scid conn },
          some (((call.whenOpen conn).openStream quiche).2.map fun id => (conn, id)))

theorem openStream_ends (quiche : Quiche Q) (credit : StreamCredit Q) (horder : call.order.Perm pool.conns.entries)
    (hbound : pool.conns.entries.length ≤ pool.maxConns) :
    pool.Ends quiche credit call (pool.openStream quiche credit call) := by
  unfold openStream
  by_cases h : pool.Stuck quiche credit call
  · rw [findAvalidConn_of_stuck horder h]
    by_cases hfull : (pool.remaining quiche call).length ≥ pool.maxConns
    · have hle : (pool.remaining quiche call).length ≤ pool.maxConns :=
        Nat.le_trans (List.length_filter_le _ _) hbound
      rw [if_pos hfull]
      exact .limit h (Nat.le_antisymm hle hfull)
    · have hroom := Nat.lt_of_not_le hfull
      rw [if_neg hfull]
      cases hconnect : call.connect with
      | error err => exact .failed h hroom hconnect
      | ok conn => exact .made h hroom hconnect
  · obtain ⟨e, he, heq, hopen, left, hleft, hcredit⟩ | ⟨e, he, heq, hopen, hcredit⟩ := findAvalidConn_of_not_stuck horder h
    · rw [heq]
      exact .reused he hopen hcredit hleft
    · rw [heq]
      exact .panicked he hopen hcredit

/-- A connection that refuses a stream does so as it is closed. -/
theorem openStream_ne_poolLimit (quiche : Quiche Q) (c : QuicConnState Q) (conn : QuicConn) :
    ((c.openStream quiche).2.map fun id => (conn, id)) ≠ .error poolLimit := by
  unfold QuicConnState.openStream QuicConnState.handleQuicConnStatus
  split
  · next h =>
    split at h
    · cases h
      simp [Except.map, poolLimit]
    · cases h
  · simp [Except.map]

/-- A connection that the call has not found closed is still in its place behind it, unless the call has made one with the
    same id. -/
theorem RawConnPool.Ends.lookup {result : RawConnPool × Option (Except IoError (QuicConn × StreamId))}
    (h : pool.Ends quiche credit call result) (horder : call.order.Perm pool.conns.entries) {e : Σ _ : ConnId, QuicConn}
    (he : e ∈ pool.conns.entries) (hopen : call.isClosed quiche e.2 = false) :
    result.1.conns.lookup e.1 = some e.2 ∨
      ∃ conn, call.connect = .ok conn ∧ (call.whenOpen conn).scid = e.1 ∧ result.1.conns.lookup e.1 = some conn := by
  have hlookup : pool.conns.lookup e.1 = some e.2 := AList.mem_lookup_iff.mpr he
  have hid : e.1 ∉ closedIds quiche call := by simp [mem_closedIds_iff horder he, hopen]
  have hleft : (pool.left quiche call).lookup e.1 = some e.2 := (lookup_foldl_erase hid _).trans hlookup
  cases h with
  | reused | panicked => exact .inl hlookup
  | limit | failed => exact .inl hleft
  | @made conn _ _ hconnect =>
    by_cases hscid : (call.whenOpen conn).scid = e.1
    · exact .inr ⟨conn, hconnect, hscid, hscid ▸ AList.lookup_insert _⟩
    · exact .inl ((AList.lookup_insert_ne (Ne.symm hscid)).trans hleft)

/-- What a call of `open_stream` keeps to. -/
structure RawConnPool.KeepsTo (quiche : Quiche Q) (credit : StreamCredit Q) (pool : RawConnPool) (call : PoolCall Q) :
    Prop where
  ends : pool.Ends quiche credit call (pool.openStream quiche credit call)
  /-- It connects only when it has found every connection closed or without credit: when it has not, it does the same
      whatever connecting would return. -/
  connects : ¬pool.Stuck quiche credit call → ∀ connect,
    pool.openStream quiche credit { call with connect } = pool.openStream quiche credit call
  /-- It returns the error at the limit exactly when the limit is reached without the closed connections and none of the
      others has credit; or when connecting has returned this error, and so not the pool. -/
  limit : (pool.openStream quiche credit call).2 = some (.error poolLimit) ↔
    ((pool.remaining quiche call).length = pool.maxConns ∧
      ∀ e ∈ pool.remaining quiche call, call.leftBidi credit e.2 = some 0) ∨
    (pool.Stuck quiche credit call ∧ (pool.remaining quiche call).length < pool.maxConns ∧ call.connect = .error poolLimit)
  /-- When it returns an error, it has removed only closed connections. -/
  removes : ∀ err, (pool.openStream quiche credit call).2 = some (.error err) → ∀ e ∈ pool.conns.entries,
    e.1 ∈ (pool.openStream quiche credit call).1.conns ∨ call.isClosed quiche e.2 = true
  /-- Any other one is in its place, unless the id is also that of a connection which the call has made. -/
  keeps : ∀ e ∈ pool.conns.entries, call.isClosed quiche e.2 = false →
    (pool.openStream quiche credit call).1.conns.lookup e.1 = some e.2 ∨
      ∃ conn, call.connect = .ok conn ∧ (call.whenOpen conn).scid = e.1 ∧
        (pool.openStream quiche credit call).1.conns.lookup e.1 = some conn

/-- The loop does not connect, so what it finds is the same whatever connecting would return. -/
theorem openStream_connect (h : ¬pool.Stuck quiche credit call) (horder : call.order.Perm pool.conns.entries)
    (connect : Except IoError QuicConn) :
    pool.openStream quiche credit { call with connect } = pool.openStream quiche credit call := by
  have hscan : ∀ conns before,
      scan quiche credit { call with connect } conns before = scan quiche credit call conns before := by
    intro conns
    induction conns with
    | nil => exact fun _ => rfl
    | cons e conns ih =>
      intro before
      simp only [scan, ih]
      rfl
  have hfind : pool.findAvalidConn quiche credit { call with connect } = pool.findAvalidConn quiche credit call := by
    unfold findAvalidConn
    rw [hscan]
    cases hcall : scan quiche credit call call.order [] with
    | found | panicked => rfl
    | closed ids =>
      refine absurd (fun e he => ?_) h
      exact (scan_eq_closed_iff.mp hcall).1 e (horder.mem_iff.mpr he)
  unfold openStream
  rw [hfind]

theorem keepsTo (horder : call.order.Perm pool.conns.entries) (hbound : pool.conns.entries.length ≤ pool.maxConns) :
    pool.KeepsTo quiche credit call := by
  have hends := openStream_ends quiche credit horder hbound
  refine ⟨hends, fun h => openStream_connect h horder, ?_, fun _ _ e he => ?_, fun e he hopen => hends.lookup horder he hopen⟩
  · rw [← stuck_iff]
    generalize pool.openStream quiche credit call = result at hends
    cases hends with
    | @reused e left he hopen hcredit hleft =>
      have hnot : ¬pool.Stuck quiche credit call := by
        intro h
        rcases h e he with hclosed | hzero
        · simp [hopen] at hclosed
        · rw [hcredit] at hzero
          cases hzero
          exact Nat.lt_irrefl 0 hleft
      simp [hnot, openStream_ne_poolLimit]
    | @panicked e he hopen hcredit =>
      have hnot : ¬pool.Stuck quiche credit call := by
        intro h
        rcases h e he with hclosed | hzero
        · simp [hopen] at hclosed
        · rw [hcredit] at hzero
          cases hzero
      simp [hnot]
    | limit hstuck hfull => simp [hstuck, hfull]
    | failed hstuck hroom hconnect => simp [hstuck, hroom, hroom.ne, hconnect]
    | made hstuck hroom hconnect => simp [hroom.ne, hconnect, openStream_ne_poolLimit]
  · cases hclosed : call.isClosed quiche e.2 with
    | true => exact .inr rfl
    | false =>
      refine .inl (AList.lookup_isSome.mp ?_)
      obtain hlookup | ⟨conn, -, -, hlookup⟩ := hends.lookup horder he hclosed
      · rw [hlookup]
        rfl
      · rw [hlookup]
        rfl

theorem length_insert_le (conns : AList fun _ : ConnId => QuicConn) (id : ConnId) (conn : QuicConn) :
    (conns.insert id conn).entries.length ≤ conns.entries.length + 1 := by
  rw [length_entries, length_entries, AList.keys_insert, List.length_cons]
  exact Nat.succ_le_succ (@List.length_erase_le _ instBEqOfDecidableEq id conns.keys)

/-- The limit holds behind a call. -/
theorem RawConnPool.Ends.bounded {result : RawConnPool × Option (Except IoError (QuicConn × StreamId))}
    (h : pool.Ends quiche credit call result) (horder : call.order.Perm pool.conns.entries)
    (hbound : pool.conns.entries.length ≤ pool.maxConns) :
    result.1.maxConns = pool.maxConns ∧ result.1.conns.entries.length ≤ pool.maxConns := by
  have hle : (pool.left quiche call).entries.length ≤ pool.maxConns :=
    (length_left horder).trans_le (Nat.le_trans (List.length_filter_le _ _) hbound)
  cases h with
  | reused | panicked => exact ⟨rfl, hbound⟩
  | limit | failed => exact ⟨rfl, hle⟩
  | made _ hroom =>
    refine ⟨rfl, Nat.le_trans (length_insert_le _ _ _) ?_⟩
    rw [length_left horder]
    exact hroom

theorem step_bounded (hbound : pool.conns.entries.length ≤ pool.maxConns) (hs : pool.step quiche credit call = some pool') :
    pool'.maxConns = pool.maxConns ∧ pool'.conns.entries.length ≤ pool'.maxConns := by
  unfold RawConnPool.step at hs
  obtain ⟨horder, hpool⟩ := Option.ite_none_right_eq_some.mp hs
  obtain rfl := Option.some.inj hpool
  obtain ⟨hsame, hle⟩ := (openStream_ends quiche credit horder hbound).bounded horder hbound
  exact ⟨hsame, hsame ▸ hle⟩

/-- In every run of a pool it holds at most as many connections as it may, and every call keeps to what it is for. -/
theorem pool_bounds (quiche : Quiche Q) (credit : StreamCredit Q) (maxConns : Nat) (pool : RawConnPool)
    (h : Reachable (RawConnPool.step quiche credit) (.new maxConns) pool) :
    pool.maxConns = maxConns ∧ pool.conns.entries.length ≤ maxConns ∧
      ∀ call, call.order.Perm pool.conns.entries → pool.KeepsTo quiche credit call := by
  have hinv : pool.maxConns = maxConns ∧ pool.conns.entries.length ≤ pool.maxConns := by
    apply h.invariant ⟨rfl, Nat.zero_le _⟩
    intro pool call pool' hinv _ hs
    obtain ⟨hsame, hbound⟩ := step_bounded hinv.2 hs
    exact ⟨hsame.trans hinv.1, hbound⟩
  exact ⟨hinv.1, hinv.1 ▸ hinv.2, fun call horder => keepsTo horder hinv.2⟩

/-- A call on connections of the stand-in: connection `i` has the id `[i]`, and is closed or without credit if it is in one of
    the lists. -/
def sampleCall (order : List (Σ _ : ConnId, QuicConn)) (closed full : List QuicConn) (connect : Except IoError QuicConn) :
    PoolCall StreamSample where
  order
  whenClosed conn := .new StreamSample.quiche 0 { draining := conn ∈ closed } 1000000000 5
  whenCredit conn := .new StreamSample.quiche 0 { limit := 4, used := if conn ∈ full then 4 else 0 } 1000000000 5
  whenOpen conn := { StreamSample.conn with scid := [UInt8.ofNat conn] }
  connect

/-- Two connections are made, as the first one is without credit, and then a stream of the first one is opened. -/
def poolCalls : List (PoolCall StreamSample) :=
  [sampleCall [] [] [] (.ok 0), sampleCall [⟨[0], 0⟩] [] [0] (.ok 1), sampleCall [⟨[0], 0⟩, ⟨[1], 1⟩] [] [1] (.ok 2)]

/-- Behind these calls the pool is at its limit while both are without credit; when one of them is closed, a third one takes
    its place. -/
theorem pool_bounds_connected :
    ∃ pool, run (RawConnPool.step StreamSample.quiche StreamSample.streamCredit) (.new 2) poolCalls = some pool ∧
      pool.conns.entries.length ≤ 2 ∧
      (∀ call, call.order.Perm pool.conns.entries → pool.KeepsTo StreamSample.quiche StreamSample.streamCredit call) ∧
      (pool.openStream StreamSample.quiche StreamSample.streamCredit
        (sampleCall pool.conns.entries [] [0, 1] (.ok 2))).2 = some (.error poolLimit) ∧
      (pool.openStream StreamSample.quiche StreamSample.streamCredit
        (sampleCall pool.conns.entries [0] [1] (.ok 2))).1.conns.keys = [[2], [1]] := by
  obtain ⟨pool, hrun, hentries, hreplaced⟩ : ∃ pool,
      run (RawConnPool.step StreamSample.quiche StreamSample.streamCredit) (.new 2) poolCalls = some pool ∧
      pool.conns.entries = [⟨[1], 1⟩, ⟨[0], 0⟩] ∧
      (pool.openStream StreamSample.quiche StreamSample.streamCredit
        (sampleCall pool.conns.entries [0] [1] (.ok 2))).1.conns.keys = [[2], [1]] := ⟨_, rfl, rfl, rfl⟩
  have hbounds := pool_bounds StreamSample.quiche StreamSample.streamCredit 2 pool (.of_run poolCalls hrun)
  refine ⟨pool, hrun, hbounds.2.1, hbounds.2.2, (hbounds.2.2 _ (.refl _)).limit.mpr (.inl ⟨?_, ?_⟩), hreplaced⟩
  · rw [RawConnPool.remaining, hentries, hbounds.1]
    rfl
  · rw [RawConnPool.remaining, hentries]
    decide

end Hala.Quic
