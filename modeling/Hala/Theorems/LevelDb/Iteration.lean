import Hala.Theorems.LevelDb.Snapshot
import Mathlib.Data.Nat.ModEq

/-! Where an iterator is after some calls, and what it yields.

An iterator stands at one of the entries of the content in their order, or behind the last one; `next` takes it one place
on and from behind the last entry back to the first (`nexts_standsAt`). An iteration to the first `None` yields all
entries (`iter_iterates`). From a key on it yields the entries from the key on, unless there are none: the iterator is
then behind the last entry, and its first call goes back to the first entry (`iteration_iff`). An item reads where its
iterator stands now (`item_keeps_iff`). -/

namespace Hala.LevelDb

section Cursors
variable {api : Api} {it : KeyValueIterator api} {entries : List (Bytes × Bytes)}

/-- An entry as it is read. -/
def readOf (entry : Bytes × Bytes) : IoResult Bytes × IoResult Bytes := (.ok entry.1, .ok entry.2)

namespace KeyValueIterator

/-- The entries that an iteration to the first `None` yields. -/
def Iterates (it : KeyValueIterator api) (entries : List (Bytes × Bytes)) : Prop :=
  ∃ calls, it.drain calls = some (entries.map readOf)

theorem drain_unique {m n : Nat} {xs ys : List (IoResult Bytes × IoResult Bytes)} (hx : it.drain m = some xs)
    (hy : it.drain n = some ys) : xs = ys := by
  induction m generalizing it n xs ys with
  | zero => cases hx
  | succ m ih =>
    cases n with
    | zero => cases hy
    | succ n =>
      unfold drain at hx hy
      cases hnext : it.next with
      | mk yielded it' =>
        rw [hnext] at hx hy
        cases yielded with
        | none =>
          cases hx
          cases hy
          rfl
        | some item =>
          obtain ⟨xs', hx', rfl⟩ := Option.map_eq_some_iff.mp hx
          obtain ⟨ys', hy', rfl⟩ := Option.map_eq_some_iff.mp hy
          rw [ih hx' hy']

theorem readOf_injective : Function.Injective readOf := by
  intro a b h
  simp only [readOf, Prod.mk.injEq, Except.ok.injEq] at h
  exact Prod.ext h.1 h.2

/-- An iteration yields one list of entries. -/
theorem Iterates.unique {entries' : List (Bytes × Bytes)} (h : it.Iterates entries) (h' : it.Iterates entries') :
    entries = entries' := by
  obtain ⟨m, hm⟩ := h
  obtain ⟨n, hn⟩ := h'
  exact List.map_injective_iff.mpr readOf_injective (drain_unique hm hn)

/-- An iterator that is behind its last entry once it has advanced yields nothing. -/
theorem iterates_nil (h : api.rest it.advance.raw = []) : it.Iterates [] := by
  refine ⟨1, ?_⟩
  unfold drain next
  simp only [api.iterValid_eq, h]
  rfl

theorem iterates_cons {entry : Bytes × Bytes} {more : List (Bytes × Bytes)} (h : api.rest it.advance.raw = entry :: more)
    (hmore : it.advance.Iterates entries) : it.Iterates (entry :: entries) := by
  obtain ⟨calls, hcalls⟩ := hmore
  refine ⟨calls + 1, ?_⟩
  unfold drain next
  simp only [api.iterValid_eq, h, List.isEmpty_cons, Bool.not_false, if_neg (Bool.true_eq_false.mp ·), hcalls]
  simp [readOf, Item.key, Item.value, api.iterKey_eq _ _ _ h, api.iterValue_eq _ _ _ h, KeyValueReturn.fromBytes]

/-! ### What `advance` does -/

theorem advance_of_behind (h : api.rest it.raw = []) : it.advance = { it with raw := api.iterSeekToFirst it.raw } := by
  unfold advance
  rw [if_pos (by rw [api.iterValid_eq, h]; rfl)]

theorem advance_of_sought {seek : api.Iter} (h : api.rest seek ≠ []) :
    (⟨seek, true⟩ : KeyValueIterator api).advance = ⟨seek, false⟩ := by
  unfold advance
  rw [if_neg (by simpa [api.iterValid_eq] using h), if_pos rfl]

theorem advance_of_entry {raw : api.Iter} (h : api.rest raw ≠ []) :
    (⟨raw, false⟩ : KeyValueIterator api).advance = ⟨api.iterNext raw, false⟩ := by
  unfold advance
  rw [if_neg (by simpa [api.iterValid_eq] using h)]
  rfl

/-- Behind an entry, an iteration yields the entries after it. -/
theorem iterates_tail {entry : Bytes × Bytes} {more : List (Bytes × Bytes)} {raw : api.Iter}
    (h : api.rest raw = entry :: more) : (⟨raw, false⟩ : KeyValueIterator api).Iterates more := by
  induction more generalizing raw entry with
  | nil =>
    apply iterates_nil
    rw [advance_of_entry (by simp [h]), api.rest_next _ (by simp [h]), h]
    rfl
  | cons e more ih =>
    have hnext : api.rest (api.iterNext raw) = e :: more := by
      rw [api.rest_next _ (by simp [h]), h]
      rfl
    have hadvance : (⟨raw, false⟩ : KeyValueIterator api).advance = _ := advance_of_entry (by simp [h])
    apply iterates_cons
    · rw [hadvance, hnext]
    · rw [hadvance]
      exact ih hnext

/-- At the place a search found, it yields the entries from there on. -/
theorem iterates_sought {seek : api.Iter} (h : api.rest seek ≠ []) :
    (⟨seek, true⟩ : KeyValueIterator api).Iterates (api.rest seek) := by
  have hadvance := advance_of_sought h
  cases hrest : api.rest seek with
  | nil => exact absurd hrest h
  | cons entry more =>
    apply iterates_cons
    · rw [hadvance, hrest]
    · rw [hadvance]
      exact iterates_tail hrest

/-- Behind the last entry, an iteration goes over all entries; a search that ended there makes it yield the first entry
    twice. -/
theorem iterates_behind (h : api.rest it.raw = []) :
    it.Iterates ((if it.seek then (api.seen it.raw).toList.take 1 else []) ++ (api.seen it.raw).toList) := by
  have hadvance := advance_of_behind h
  have hfirst := api.rest_seekToFirst it.raw
  cases hall : (api.seen it.raw).toList with
  | nil =>
    have hnil : it.Iterates [] := iterates_nil (by rw [hadvance, hfirst, hall])
    split <;> exact hnil
  | cons entry more =>
    rw [hall] at hfirst
    cases hseek : it.seek with
    | false =>
      refine iterates_cons (by rw [hadvance, hfirst]) ?_
      rw [hadvance, hseek]
      exact iterates_tail hfirst
    | true =>
      refine iterates_cons (by rw [hadvance, hfirst]) ?_
      rw [hadvance, hseek]
      have hsome : api.rest (api.iterSeekToFirst it.raw) ≠ [] := by simp [hfirst]
      have hsought := iterates_sought hsome
      rwa [hfirst] at hsought

end KeyValueIterator

end Cursors

/-! ## Ranges -/

/-- The entries from a key on, in the order of the keys. -/
def entriesFrom (content : Content) (key : Bytes) : List (Bytes × Bytes) :=
  content.toList.filter fun entry => compare entry.1 key != .lt

/-- In a list that is in order, the entries from a key on are behind the ones below it. -/
theorem dropWhile_eq_filter {entries : List (Bytes × Bytes)} (hsorted : entries.Pairwise fun a b => compare a.1 b.1 = .lt)
    (key : Bytes) :
    entries.dropWhile (fun entry => compare entry.1 key == .lt) = entries.filter fun entry => compare entry.1 key != .lt := by
  induction entries with
  | nil => rfl
  | cons entry entries ih =>
    obtain ⟨hbelow, hsorted⟩ := List.pairwise_cons.mp hsorted
    by_cases hlt : compare entry.1 key = .lt
    · rw [List.dropWhile_cons_of_pos (by rw [hlt]; rfl), List.filter_cons_of_neg (by simp [hlt]), ih hsorted]
    · rw [List.dropWhile_cons_of_neg (by simp [hlt]), List.filter_cons_of_pos (by simp [hlt])]
      congr 1
      refine (List.filter_eq_self.mpr fun later hlater => ?_).symm
      have hnot : compare later.1 key ≠ .lt := fun h => hlt (Std.TransCmp.lt_trans (hbelow later hlater) h)
      simp [hnot]

theorem entriesFrom_ne_nil_iff {content : Content} {key : Bytes} :
    entriesFrom content key ≠ [] ↔ ∃ k ∈ content, compare k key ≠ .lt := by
  unfold entriesFrom
  rw [ne_eq, List.filter_eq_nil_iff, not_forall]
  constructor
  · rintro ⟨⟨k, value⟩, h⟩
    obtain ⟨hmem, hnot⟩ := Classical.not_imp.mp h
    refine ⟨k, Std.ExtTreeMap.mem_iff_isSome_getElem?.mpr ?_, by simpa using hnot⟩
    rw [Std.ExtTreeMap.mem_toList_iff_getElem?_eq_some.mp hmem]
    rfl
  · rintro ⟨k, hk, hnot⟩
    obtain ⟨value, hvalue⟩ := Option.isSome_iff_exists.mp (Std.ExtTreeMap.mem_iff_isSome_getElem?.mp hk)
    refine ⟨(k, value), ?_⟩
    simpa [hnot] using Std.ExtTreeMap.mem_toList_iff_getElem?_eq_some.mpr hvalue

section Ranges
variable {api : Api} {db : Database api}

/-- An iteration from the start yields all entries. -/
theorem iter_iterates (db : Database api) : (db.iter none).Iterates (api.content db.cDb).toList := by
  have hseen : api.seen (db.iter none).raw = api.content db.cDb := api.seen_latest _ _ rfl
  have hnil : api.rest (db.iter none).raw = [] := api.rest_createIterator ..
  have hbehind := KeyValueIterator.iterates_behind hnil
  rwa [hseen] at hbehind

theorem seek_iterates (db : Database api) (key : Bytes) :
    KeyValueIterator.Iterates (⟨api.iterSeek (db.iter none).raw key, true⟩ : KeyValueIterator api)
      (if entriesFrom (api.content db.cDb) key = [] then
        (api.content db.cDb).toList.take 1 ++ (api.content db.cDb).toList
      else entriesFrom (api.content db.cDb) key) := by
  have hseen : api.seen (db.iter none).raw = api.content db.cDb := api.seen_latest _ _ rfl
  have hrest : api.rest (api.iterSeek (db.iter none).raw key) = entriesFrom (api.content db.cDb) key := by
    rw [api.rest_seek, hseen, dropWhile_eq_filter Std.ExtTreeMap.ordered_keys_toList]
    rfl
  split
  · next hnil =>
    have hbehind : KeyValueIterator.Iterates (⟨api.iterSeek (db.iter none).raw key, true⟩ : KeyValueIterator api) _ :=
      KeyValueIterator.iterates_behind (hrest.trans hnil)
    rwa [api.seen_seek, hseen] at hbehind
  · next hsome =>
    rw [← hrest] at hsome ⊢
    exact KeyValueIterator.iterates_sought hsome

end Ranges

/-- An iteration yields the entries, and one from a key on the entries from the key on, exactly when there are some or
    the database has none at all. -/
theorem iteration_iff (api : Api) (db : Database api) (Q : Type) [KeyValue Q] (key : Q) :
    ((db.iter none).Iterates (api.content db.cDb).toList ∧
        ∀ bytes it, KeyValue.toBytes key = .ok bytes → (db.iter none).seekKey key = .ok it →
          it.Iterates (entriesFrom (api.content db.cDb) bytes)) ↔
      ∀ bytes, KeyValue.toBytes key = .ok bytes →
        api.content db.cDb = ∅ ∨ ∃ k ∈ api.content db.cDb, compare k bytes ≠ .lt := by
  rw [and_iff_right (iter_iterates db)]
  have hsought : ∀ bytes, KeyValue.toBytes key = .ok bytes →
      (db.iter none).seekKey key = .ok ⟨api.iterSeek (db.iter none).raw bytes, true⟩ := by
    intro bytes hkey
    unfold KeyValueIterator.seekKey
    rw [hkey]
    rfl
  constructor
  · intro h bytes hkey
    by_cases hfrom : entriesFrom (api.content db.cDb) bytes = []
    · have hyields := seek_iterates db bytes
      rw [if_pos hfrom] at hyields
      have hnil := hyields.unique (h bytes _ hkey (hsought bytes hkey))
      rw [hfrom] at hnil
      exact Or.inl (Std.ExtTreeMap.toList_eq_nil_iff.mp (List.append_eq_nil_iff.mp hnil).2)
    · exact Or.inr (entriesFrom_ne_nil_iff.mp hfrom)
  · intro h bytes it hkey hit
    rw [hsought bytes hkey] at hit
    cases hit
    have hyields := seek_iterates db bytes
    split at hyields
    · next hnil =>
      rcases h bytes hkey with hempty | hfrom
      · rw [hnil]
        rwa [Std.ExtTreeMap.toList_eq_nil_iff.mpr hempty] at hyields
      · exact absurd hnil (entriesFrom_ne_nil_iff.mpr hfrom)
    · exact hyields

/-- A search for a key behind the only entry yields that entry, twice. -/
theorem seek_beyond_starts_over :
    let db : Database memoryApi := ⟨(∅ : Content).insert [1] [2]⟩
    let it : KeyValueIterator memoryApi := ⟨memoryApi.iterSeek (db.iter none).raw [3], true⟩
    (db.iter none).seekKey ([3] : Bytes) = .ok it ∧ it.drain 3 = some [readOf ([1], [2]), readOf ([1], [2])] ∧
      ¬it.Iterates (entriesFrom (memoryApi.content db.cDb) [3]) := by
  refine ⟨rfl, by decide, fun h => ?_⟩
  have htwice : KeyValueIterator.Iterates
      (⟨memoryApi.iterSeek ((⟨(∅ : Content).insert [1] [2]⟩ : Database memoryApi).iter none).raw [3], true⟩ :
        KeyValueIterator memoryApi)
      [([1], [2]), ([1], [2])] := ⟨3, by decide⟩
  exact absurd (h.unique htwice) (by decide)

/-! ## Items -/

section Items
variable {api : Api} {it it' : KeyValueIterator api} {item : Item} {entry : Bytes × Bytes} {i : Nat}

/-- An item reads an entry: its iterator is at one, and the key and the value are those of the entry. -/
structure Item.Reads (item : Item) (it : KeyValueIterator api) (entry : Bytes × Bytes) : Prop where
  valid : api.iterValid it.raw = true
  key : item.key it = Except.ok entry.1
  value : item.value it = Except.ok entry.2

theorem Item.reads_iff : item.Reads it entry ↔ (api.rest it.raw).head? = some entry := by
  cases hrest : api.rest it.raw with
  | nil =>
    refine iff_of_false (fun h => ?_) (by simp)
    have hvalid := h.valid
    rw [api.iterValid_eq, hrest] at hvalid
    cases hvalid
  | cons e more =>
    rw [List.head?_cons, Option.some.injEq]
    constructor
    · intro h
      have hkey := h.key
      have hvalue := h.value
      unfold Item.key at hkey
      unfold Item.value at hvalue
      rw [api.iterKey_eq _ _ _ hrest] at hkey
      rw [api.iterValue_eq _ _ _ hrest] at hvalue
      exact Prod.ext (Except.ok.inj hkey) (Except.ok.inj hvalue)
    · rintro rfl
      exact {
        valid := by rw [api.iterValid_eq, hrest]; rfl
        key := congrArg Except.ok (api.iterKey_eq _ _ _ hrest)
        value := congrArg Except.ok (api.iterValue_eq _ _ _ hrest) }

namespace KeyValueIterator

/-- The iterator runs over `content` and has its entries from the place `i` on before it. -/
structure StandsAt (it : KeyValueIterator api) (content : Content) (i : Nat) : Prop where
  seen : api.seen it.raw = content
  le : i ≤ content.size
  rest : api.rest it.raw = content.toList.drop i

variable {content : Content}

theorem StandsAt.rest_eq_nil_iff (h : it.StandsAt content i) : api.rest it.raw = [] ↔ i = content.size := by
  rw [h.rest, List.drop_eq_nil_iff, Std.ExtTreeMap.length_toList]
  exact ⟨fun hge => Nat.le_antisymm h.le hge, fun heq => heq.ge⟩

/-- A search leaves an iterator at one of the places. -/
theorem StandsAt.sought (h : it.StandsAt content i) (key : Bytes) :
    ∃ j, (⟨api.iterSeek it.raw key, true⟩ : KeyValueIterator api).StandsAt content j := by
  have hrest := api.rest_seek it.raw key
  have hsuffix : api.rest (api.iterSeek it.raw key) <:+ content.toList := by
    rw [hrest, h.seen]
    exact List.dropWhile_suffix _
  refine ⟨_, (api.seen_seek _ _).trans h.seen, ?_, List.suffix_iff_eq_drop.mp hsuffix⟩
  rw [Std.ExtTreeMap.length_toList]
  exact Nat.sub_le _ _

/-- From behind the last entry back to the first one. -/
theorem StandsAt.advance_of_last (h : it.StandsAt content content.size) :
    it.advance.StandsAt content 0 ∧ it.advance.seek = it.seek := by
  rw [advance_of_behind (h.rest_eq_nil_iff.mpr rfl)]
  refine ⟨⟨(api.seen_seekToFirst _).trans h.seen, Nat.zero_le _, ?_⟩, rfl⟩
  rw [api.rest_seekToFirst, h.seen]
  rfl

/-- Behind a search, to the entry that it found. -/
theorem StandsAt.advance_of_seek (h : it.StandsAt content i) (hlt : i < content.size) (hseek : it.seek = true) :
    it.advance.StandsAt content i ∧ it.advance.seek = false := by
  obtain ⟨raw, seek⟩ := it
  cases hseek
  rw [advance_of_sought fun hnil => hlt.ne (h.rest_eq_nil_iff.mp hnil)]
  exact ⟨⟨h.seen, h.le, h.rest⟩, rfl⟩

/-- From an entry to the next place. -/
theorem StandsAt.advance_of_lt (h : it.StandsAt content i) (hlt : i < content.size) (hseek : it.seek = false) :
    it.advance.StandsAt content (i + 1) ∧ it.advance.seek = false := by
  obtain ⟨raw, seek⟩ := it
  cases hseek
  have hsome : api.rest raw ≠ [] := fun hnil => hlt.ne (h.rest_eq_nil_iff.mp hnil)
  rw [advance_of_entry hsome]
  refine ⟨⟨(api.seen_next _ hsome).trans h.seen, hlt, ?_⟩, rfl⟩
  change api.rest (api.iterNext raw) = _
  rw [api.rest_next _ hsome, h.rest, List.tail_drop]

theorem StandsAt.exists_advance (h : it.StandsAt content i) : ∃ j, it.advance.StandsAt content j := by
  rcases h.le.lt_or_eq with hlt | rfl
  · cases hseek : it.seek with
    | true => exact ⟨_, (h.advance_of_seek hlt hseek).1⟩
    | false => exact ⟨_, (h.advance_of_lt hlt hseek).1⟩
  · exact ⟨_, h.advance_of_last.1⟩

/-- An iterator stands at one of the places after any calls. -/
theorem StandsAt.after {Q : Type} [KeyValue Q] (h : it.StandsAt content i) (calls : List (IterCall Q))
    (hcalls : it.after calls = .ok it') : ∃ j, it'.StandsAt content j := by
  induction calls generalizing it i with
  | nil =>
    cases hcalls
    exact ⟨i, h⟩
  | cons call calls ih =>
    cases call with
    | seek key =>
      unfold KeyValueIterator.after seekKey at hcalls
      cases hkey : KeyValue.toBytes key with
      | error e =>
        rw [hkey] at hcalls
        cases hcalls
      | ok bytes =>
        rw [hkey] at hcalls
        obtain ⟨j, hj⟩ := h.sought bytes
        exact ih hj hcalls
    | next =>
      unfold KeyValueIterator.after at hcalls
      rw [next_snd] at hcalls
      obtain ⟨j, hj⟩ := h.exists_advance
      exact ih hj hcalls

theorem standsAt_iter (db : Database api) (ops : Option (ReadOps api)) :
    (db.iter ops).StandsAt (api.seen (db.iter ops).raw) (api.seen (db.iter ops).raw).size where
  seen := rfl
  le := Nat.le_refl _
  rest := by
    rw [← Std.ExtTreeMap.length_toList, List.drop_length]
    exact api.rest_createIterator ..

/-- The places are gone round one by one. -/
theorem StandsAt.nexts (h : it.StandsAt content i) (hseek : it.seek = false) (m : Nat) :
    (it.nexts m).StandsAt content ((i + m) % (content.size + 1)) := by
  induction m generalizing it i with
  | zero =>
    rw [Nat.add_zero, Nat.mod_eq_of_lt (Nat.lt_succ_of_le h.le)]
    exact h
  | succ m ih =>
    rw [KeyValueIterator.nexts, next_snd]
    rcases h.le.lt_or_eq with hlt | rfl
    · obtain ⟨hnext, hfalse⟩ := h.advance_of_lt hlt hseek
      rw [show i + (m + 1) = i + 1 + m by omega]
      exact ih hnext hfalse
    · obtain ⟨hnext, hsame⟩ := h.advance_of_last
      have hround := ih hnext (hsame.trans hseek)
      rwa [← Nat.add_mod_right, show 0 + m + (content.size + 1) = content.size + (m + 1) by omega] at hround

/-- The calls of `next` that leave a yielding iterator at its place: one, where a search has not been used up. -/
def pending (it : KeyValueIterator api) : Nat := if it.seek then 1 else 0

theorem StandsAt.nexts_pending (h : it.StandsAt content i) (hlt : i < content.size) (m : Nat) :
    (it.nexts m).StandsAt content ((i + (m - it.pending)) % (content.size + 1)) := by
  unfold pending
  cases hseek : it.seek with
  | false => exact h.nexts hseek m
  | true =>
    cases m with
    | zero =>
      rw [if_pos rfl, Nat.mod_eq_of_lt (by omega)]
      exact h
    | succ m =>
      obtain ⟨hsame, hfalse⟩ := h.advance_of_seek hlt hseek
      rw [if_pos rfl, Nat.add_sub_cancel, KeyValueIterator.nexts, next_snd]
      exact hsame.nexts hfalse m

end KeyValueIterator

theorem add_mod_eq_self_iff {i n d : Nat} (h : i < n) : (i + d) % n = i ↔ d % n = 0 := by
  constructor
  · intro heq
    have hcongr : i + d ≡ i + 0 [MOD n] := heq.trans (Nat.mod_eq_of_lt h).symm
    exact Nat.mod_eq_zero_of_dvd (Nat.modEq_zero_iff_dvd.mp (Nat.ModEq.add_left_cancel' i hcongr))
  · intro heq
    rw [Nat.add_mod, heq, Nat.add_zero, Nat.mod_mod, Nat.mod_eq_of_lt h]

/-- The entries of a content differ. -/
theorem head?_drop_inj {content : Content} {i j : Nat} {entry : Bytes × Bytes}
    (hi : (content.toList.drop i).head? = some entry) (hj : (content.toList.drop j).head? = some entry) : i = j := by
  rw [List.head?_drop] at hi hj
  have hnodup : content.toList.Nodup := Std.ExtTreeMap.ordered_keys_toList.imp fun hlt heq => by
    rw [heq, Std.ReflOrd.compare_self] at hlt
    cases hlt
  have hlt := (List.getElem?_eq_some_iff.mp hi).1
  exact (List.getElem?_inj hlt hnodup).mp (hi.trans hj.symm)

end Items

/-- An item reads the entry at which it was yielded exactly as long as its iterator has gone on by whole rounds: the
    entries and the place behind them. -/
theorem item_keeps_iff (api : Api) (db : Database api) (ops : Option (ReadOps api)) (Q : Type) [KeyValue Q]
    (calls : List (IterCall Q)) (it it' : KeyValueIterator api) (item : Item) (hcalls : (db.iter ops).after calls = .ok it)
    (hyield : it.next = (some item, it')) (m : Nat) :
    (∀ entry, item.Reads it' entry → item.Reads (it'.nexts m) entry) ↔
      (m - it'.pending) % ((api.seen (db.iter ops).raw).size + 1) = 0 := by
  obtain ⟨j, hj⟩ := (KeyValueIterator.standsAt_iter db ops).after calls hcalls
  obtain ⟨i, hi⟩ := hj.exists_advance
  rw [← KeyValueIterator.next_snd, hyield] at hi
  have hvalid : api.rest it'.raw ≠ [] := by
    intro hnil
    unfold KeyValueIterator.next at hyield
    dsimp only at hyield
    split at hyield
    · cases hyield
    · next hvalid =>
      obtain ⟨-, rfl⟩ := Prod.mk.inj hyield
      exact KeyValueIterator.rest_ne_nil hvalid hnil
  have hlt : i < (api.seen (db.iter ops).raw).size :=
    lt_of_le_of_ne hi.le fun heq => hvalid (hi.rest_eq_nil_iff.mpr heq)
  have hnexts := hi.nexts_pending hlt m
  obtain ⟨entry, hentry⟩ := Option.ne_none_iff_exists'.mp (List.head?_eq_none_iff.not.mpr hvalid)
  rw [← add_mod_eq_self_iff (Nat.lt_succ_of_lt hlt)]
  simp only [Item.reads_iff]
  constructor
  · intro h
    have hsame := h entry hentry
    rw [hnexts.rest] at hsame
    rw [hi.rest] at hentry
    exact head?_drop_inj hsame hentry
  · intro h entry' hentry'
    rw [hnexts.rest, h, ← hi.rest]
    exact hentry'

/-- A search beyond the last key leaves its flag behind with the first item, which reads its entry again after four calls:
    one that uses the flag up, and a round over the two entries and the place behind them. -/
theorem item_keeps_round :
    let db : Database memoryApi := ⟨((∅ : Content).insert [1] [2]).insert [3] [4]⟩
    ∃ it, (db.iter none).after [IterCall.seek ([5] : Bytes)] = .ok it ∧ it.next.1 = some {} ∧ it.next.2.seek = true ∧
      Item.Reads {} it.next.2 ([1], [2]) ∧ Item.Reads {} (it.next.2.nexts 4) ([1], [2]) := by
  refine ⟨_, rfl, rfl, rfl, Item.reads_iff.mpr (by decide), ?_⟩
  exact (item_keeps_iff memoryApi ⟨((∅ : Content).insert [1] [2]).insert [3] [4]⟩ none Bytes [.seek [5]] _ _ {} rfl rfl
    4).mpr (by decide) _ (Item.reads_iff.mpr (by decide))

/-- The item of the first entry reads the second one after the next call. -/
theorem item_moves_on :
    let db : Database memoryApi := ⟨((∅ : Content).insert [1] [2]).insert [3] [4]⟩
    let it := (db.iter none).next.2
    (db.iter none).next.1 = some {} ∧ Item.Reads {} it ([1], [2]) ∧ Item.Reads {} (it.nexts 1) ([3], [4]) ∧
      ¬Item.Reads {} (it.nexts 1) ([1], [2]) := by
  refine ⟨by decide, Item.reads_iff.mpr (by decide), Item.reads_iff.mpr (by decide), fun h => ?_⟩
  exact absurd (Item.reads_iff.mp h) (by decide)

end Hala.LevelDb
