import Hala.LevelDb.Database

/-! A snapshot isolates the reads made through it only as long as the content stays what it was.

`ReadOps::new_with` keeps the snapshot beside the read options of the C API and never sets it in them, so that every get
and every iteration made with it sees the latest content (`snapshot_isolated_iff`). -/

namespace Hala.LevelDb

section Reads
variable {api : Api} {db db' : Database api} {K V Q : Type}

/-- A get through a snapshot answers from the latest content. -/
theorem get_newWith [KeyValue K] [KeyValueReturn V] (s : Snapshot api) (key : K) (fault : Option String) :
    (db.get key (some (.newWith s)) fault : IoResult V) =
      KeyValue.toBytes key >>= fun bytes =>
        checked fault (KeyValueReturn.fromBytes ((api.content db.cDb)[bytes]?.getD [])) := by
  unfold Database.get
  simp only [Option.getD_some, ReadOps.newWith, api.get_latest db.cDb _ _ rfl]

namespace KeyValueIterator
variable {it it' : KeyValueIterator api}

/-- Two iterators that nothing made of them tells apart. -/
structure Alike (it it' : KeyValueIterator api) : Prop where
  seen : api.seen it.raw = api.seen it'.raw
  rest : api.rest it.raw = api.rest it'.raw
  seek : it.seek = it'.seek

theorem Alike.valid (h : Alike it it') : api.iterValid it.raw = api.iterValid it'.raw := by
  rw [api.iterValid_eq, api.iterValid_eq, h.rest]

theorem rest_ne_nil (h : ¬api.iterValid it.raw = false) : api.rest it.raw ≠ [] := by
  intro hnil
  rw [api.iterValid_eq, hnil] at h
  exact h rfl

theorem Alike.seekRaw (h : Alike it it') (key : Bytes) :
    Alike ⟨api.iterSeek it.raw key, true⟩ ⟨api.iterSeek it'.raw key, true⟩ where
  seen := by rw [api.seen_seek, api.seen_seek, h.seen]
  rest := by rw [api.rest_seek, api.rest_seek, h.seen]
  seek := rfl

theorem Alike.advance (h : Alike it it') : Alike it.advance it'.advance := by
  unfold KeyValueIterator.advance
  rw [← h.valid, ← h.seek]
  split
  · exact {
      seen := by rw [api.seen_seekToFirst, api.seen_seekToFirst, h.seen]
      rest := by rw [api.rest_seekToFirst, api.rest_seekToFirst, h.seen]
      seek := rfl }
  · next hvalid =>
    have hrest := rest_ne_nil hvalid
    have hrest' := h.rest ▸ hrest
    split
    · exact ⟨h.seen, h.rest, rfl⟩
    · exact {
        seen := by rw [api.seen_next _ hrest, api.seen_next _ hrest', h.seen]
        rest := by rw [api.rest_next _ hrest, api.rest_next _ hrest', h.rest]
        seek := rfl }

/-- What `next` yields is the first entry of what the iterator then has. -/
theorem next_eq [KeyValueReturn K] [KeyValueReturn V] (it : KeyValueIterator api) :
    (it.next.1.map fun item => ((item.key it.next.2 : IoResult K), (item.value it.next.2 : IoResult V))) =
      (api.rest it.advance.raw).head?.map fun entry =>
        (KeyValueReturn.fromBytes entry.1, KeyValueReturn.fromBytes entry.2) := by
  unfold KeyValueIterator.next
  dsimp only
  cases hrest : api.rest it.advance.raw with
  | nil =>
    rw [if_pos (by rw [api.iterValid_eq, hrest]; rfl)]
    rfl
  | cons entry entries =>
    rw [if_neg (by rw [api.iterValid_eq, hrest]; simp)]
    simp only [Option.map_some, Item.key, Item.value, api.iterKey_eq _ _ _ hrest, api.iterValue_eq _ _ _ hrest, List.head?_cons]

theorem next_snd (it : KeyValueIterator api) : it.next.2 = it.advance := by
  unfold KeyValueIterator.next
  dsimp only
  split <;> rfl

/-- Iterators that are alike read the same. -/
theorem Alike.walk [KeyValue Q] [KeyValueReturn K] [KeyValueReturn V] (h : Alike it it') (calls : List (IterCall Q)) :
    (it.walk calls : List (Option (IoResult K × IoResult V))) = it'.walk calls := by
  induction calls generalizing it it' with
  | nil => rfl
  | cons call calls ih =>
    cases call with
    | seek key =>
      unfold KeyValueIterator.walk KeyValueIterator.seekKey
      cases KeyValue.toBytes key with
      | error e => rfl
      | ok bytes => exact ih (h.seekRaw bytes)
    | next =>
      unfold KeyValueIterator.walk
      rw [next_eq, next_eq, next_snd, next_snd, h.advance.rest, ih h.advance]

end KeyValueIterator

/-- An iteration through a snapshot runs over the latest content. -/
theorem alike_of_content (h : api.content db'.cDb = api.content db.cDb) (s : Snapshot api) :
    KeyValueIterator.Alike (db'.iter (some (.newWith s))) (db.iter (some (.newWith s))) where
  seen := by
    simp only [Database.iter, Option.getD_some, ReadOps.newWith]
    rw [api.seen_latest _ _ rfl, api.seen_latest _ _ rfl, h]
  rest := by
    simp only [Database.iter]
    rw [api.rest_createIterator, api.rest_createIterator]
  seek := rfl

/-- The entries from a key on start with the key, if it is there. -/
theorem dropWhile_of_mem {entries : List (Bytes × Bytes)} (hsorted : entries.Pairwise fun a b => compare a.1 b.1 = .lt)
    {key value : Bytes} (h : (key, value) ∈ entries) :
    ∃ more, entries.dropWhile (fun entry => compare entry.1 key == .lt) = (key, value) :: more := by
  induction entries with
  | nil => cases h
  | cons entry entries ih =>
    obtain ⟨hlt, hsorted⟩ := List.pairwise_cons.mp hsorted
    rcases List.mem_cons.mp h with rfl | h
    · refine ⟨entries, List.dropWhile_cons_of_neg ?_⟩
      simp only [Std.ReflOrd.compare_self]
      decide
    · rw [List.dropWhile_cons_of_pos (by rw [hlt _ h]; rfl)]
      exact ih hsorted h

theorem first_of_seek {s : Snapshot api} {key : Bytes} :
    ((db.iter (some (.newWith s))).walk [.seek key, .next] : List (Option (IoResult Bytes × IoResult Bytes))) =
      [((((api.content db.cDb).toList.dropWhile fun entry => compare entry.1 key == .lt) ++ (api.content db.cDb).toList).head?.map
        fun entry => (.ok entry.1, .ok entry.2))] := by
  have hseen : api.seen (db.iter (some (.newWith s))).raw = api.content db.cDb := api.seen_latest _ _ rfl
  generalize hit : db.iter (some (.newWith s)) = it at hseen
  have hrest := api.rest_seek it.raw key
  rw [hseen] at hrest
  simp only [KeyValueIterator.walk, KeyValueIterator.seekKey, KeyValue.toBytes, bind, Except.bind, pure, Except.pure]
  rw [KeyValueIterator.next_eq]
  unfold KeyValueIterator.advance
  dsimp only
  cases hdrop : (api.content db.cDb).toList.dropWhile fun entry => compare entry.1 key == .lt with
  | nil =>
    -- There is no key from there on, and the iterator starts over.
    rw [if_pos (by rw [api.iterValid_eq, hrest, hdrop]; rfl)]
    simp only [api.rest_seekToFirst, api.seen_seek, hseen, List.nil_append]
    rfl
  | cons entry entries =>
    rw [if_neg (by rw [api.iterValid_eq, hrest, hdrop]; simp), if_pos rfl]
    simp only [hrest, hdrop, List.cons_append]
    rfl

/-- An entry is there when a search for its key finds it. -/
theorem entry_iff_walk {s : Snapshot api} {key value : Bytes} :
    (api.content db.cDb)[key]? = some value ↔
      (db.iter (some (.newWith s))).walk [.seek key, .next] = [some (Except.ok key, Except.ok value)] := by
  rw [← Std.ExtTreeMap.mem_toList_iff_getElem?_eq_some, first_of_seek]
  constructor
  · intro hmem
    obtain ⟨more, hdrop⟩ := dropWhile_of_mem Std.ExtTreeMap.ordered_keys_toList hmem
    rw [hdrop]
    rfl
  · intro hfirst
    obtain ⟨entry, hhead, hentry⟩ := Option.map_eq_some_iff.mp (List.singleton_inj.mp hfirst)
    cases hentry
    rcases List.mem_append.mp (List.mem_of_mem_head? hhead) with hmem | hmem
    · exact (List.dropWhile_suffix _).subset hmem
    · exact hmem

/-- What the reads through a snapshot see is the content, so that they tell two contents apart. -/
theorem content_eq_of_walk {s : Snapshot api}
    (h : ∀ calls, ((db'.iter (some (.newWith s))).walk calls : List (Option (IoResult Bytes × IoResult Bytes))) =
      (db.iter (some (.newWith s))).walk (calls : List (IterCall Bytes))) :
    api.content db'.cDb = api.content db.cDb := by
  apply Std.ExtTreeMap.ext_getElem?
  intro key
  apply Option.ext
  intro value
  rw [entry_iff_walk (s := s), entry_iff_walk (s := s), h]

end Reads

/-- The reads made with `ReadOps::new_with(snapshot)` at `db'` return what they returned at `db`. -/
structure Isolated {api : Api} (s : Snapshot api) (db db' : Database api) : Prop where
  get : ∀ {K V : Type} [KeyValue K] [KeyValueReturn V] (key : K) (fault : Option String),
    (db'.get key (some (.newWith s)) fault : IoResult V) = db.get key (some (.newWith s)) fault
  iteration : ∀ {Q K V : Type} [KeyValue Q] [KeyValueReturn K] [KeyValueReturn V] (calls : List (IterCall Q)),
    ((db'.iter (some (.newWith s))).walk calls : List (Option (IoResult K × IoResult V))) =
      (db.iter (some (.newWith s))).walk calls

/-- A snapshot isolates its reads from the writes behind it exactly when these leave the content as it was. -/
theorem snapshot_isolated_iff (api : Api) (db : Database api) (writes : List Write) :
    Isolated db.snapshot db (db.performAll writes) ↔ api.content (db.performAll writes).cDb = api.content db.cDb := by
  constructor
  · intro h
    exact content_eq_of_walk fun calls => h.iteration calls
  · intro hcontent
    constructor
    · intro K V _ _ key fault
      rw [get_newWith, get_newWith, hcontent]
    · intro Q K V _ _ _ calls
      exact (alike_of_content hcontent db.snapshot).walk calls

/-- Behind a put, a get through the older snapshot returns the new value. -/
theorem snapshot_sees_put :
    let db : Database memoryApi := ⟨(∅ : Content)⟩
    (db.get ([1] : Bytes) (some (.newWith db.snapshot)) none : IoResult Bytes) = .ok [] ∧
      ((db.performAll [.put [1] [2] none none]).get ([1] : Bytes) (some (.newWith db.snapshot)) none : IoResult Bytes) =
        .ok [2] := by
  decide

end Hala.LevelDb
