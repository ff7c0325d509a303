import Hala.Lib.Tally
import Hala.Pprof.Heap

/-! The statistics of the heap profiler.

`counter` and `memory_size` are sums over all allocations of what each has added so far, and the table has the blocks that
have been inserted and not removed. When no call is in progress these are the blocks that were recorded and are still
allocated, and those that `alloc` has recorded though the system allocator returned null. -/

namespace Hala.Pprof
open Machine

/-- The table has it, or will not forget it. -/
def Place.listed : Place → Bool
  | .addCounter | .addMemory | .leave | .owned | .failed | .unregister | .remove => true
  | _ => false

/-- `counter` counts it. -/
def Place.counted : Place → Bool
  | .addMemory | .leave | .owned | .failed | .unregister | .remove | .subCounter => true
  | _ => false

/-- `memory_size` counts its bytes. -/
def Place.summed : Place → Bool
  | .leave | .owned | .failed | .unregister | .remove | .subCounter | .subMemory => true
  | _ => false

namespace Allocation

/-- The entry of the table for it. -/
def listed (a : Allocation) : Option Block := if a.place.listed then a.block else none

def counted (a : Allocation) : BitVec 64 := if a.place.counted && a.frames.isSome then 1 else 0

def summed (a : Allocation) : BitVec 64 := if a.place.summed && a.frames.isSome then (a.layout.size : BitVec 64) else 0

/-- What an allocation is like at a place. -/
def At (a : Allocation) (started : Bool) : Place → Prop
  | .idle | .leave | .freed => True
  | .alloc | .register => a.frames = none
  | .enter => a.frames = none ∧ started = true
  | .insert => a.frames = none ∧ started = true ∧ a.outside = true
  | .addCounter | .addMemory => a.frames.isSome
  | .failed => a.ptr = 0
  | .owned | .unregister | .remove | .free => a.ptr ≠ 0
  | .subCounter | .subMemory => a.ptr ≠ 0 ∧ a.frames.isSome

structure Ok (a : Allocation) (started : Bool) : Prop where
  here : a.At started a.place
  outside : a.place ≠ .insert → a.outside = a.frames.isSome
  recorded : a.frames.isSome → started = true
  sized : a.place ≠ .idle → 0 < a.layout.size
  fits : a.live → a.ptr + a.layout.size ≤ 2 ^ 64

variable {a a' : Allocation} {started : Bool} {place : Place}

theorem ok_idle : Ok {} started where
  here := trivial
  outside _ := rfl
  recorded h := by cases h
  sized h := absurd rfl h
  fits h := by cases h

theorem live_iff : a.live = true ↔ a.ptr ≠ 0 ∧ a.place.inUse = true := by simp [live]

theorem ne_idle (h : a.place.inUse) : a.place ≠ .idle := by
  intro hidle
  rw [hidle] at h
  cases h

/-- Nothing has changed but the place, and whether it is outside of the profiler. -/
theorem Ok.move (h : a.Ok started) (hinUse : a.place.inUse) {outside : Bool}
    (hat : At { a with place := place, outside := outside } started place)
    (houtside : place ≠ .insert → outside = a.frames.isSome) : Ok { a with place := place, outside := outside } started where
  here := hat
  outside := houtside
  recorded := h.recorded
  sized _ := h.sized (ne_idle hinUse)
  fits hlive := h.fits (live_iff.mpr ⟨(live_iff.mp hlive).1, hinUse⟩)

/-- The start of the profiler. -/
theorem Ok.start (h : a.Ok false) : a.Ok true where
  here := by
    have hat := h.here
    cases hplace : a.place with
    | enter =>
      rw [hplace] at hat
      cases hat.2
    | insert =>
      rw [hplace] at hat
      cases hat.2.1
    | _ =>
      rw [hplace] at hat
      exact hat
  outside := h.outside
  recorded _ := rfl
  sized := h.sized
  fits := h.fits

theorem Apart.symm {a b : Allocation} (h : a.Apart b) : b.Apart a := Or.symm h

theorem live_of_listed {block : Block} (h : a.listed = some block) (hptr : a.ptr ≠ 0) : a.live := by
  have hlisted : a.place.listed = true := by
    by_contra hnot
    simp [listed, hnot] at h
  have hinUse : a.place.inUse = true := by
    cases hplace : a.place <;> simp [hplace, Place.listed, Place.inUse] at hlisted ⊢
  simp [live, hptr, hinUse]

theorem unlisted_of_place (h : a.place.listed = false) : a.listed = none := by simp [listed, h]

end Allocation

open Allocation

/-- The table has the blocks that are listed. At null it has one of them, if there is any. -/
structure Table (blocks : Nat → Option Block) (allocations : Nat → Allocation) : Prop where
  sound : ∀ ptr block, blocks ptr = some block → ∃ i, (allocations i).ptr = ptr ∧ (allocations i).listed = some block
  complete : ∀ i block, (allocations i).listed = some block → (allocations i).ptr ≠ 0 →
    blocks (allocations i).ptr = some block
  null : ∀ i, (allocations i).listed.isSome → (allocations i).ptr = 0 → (blocks 0).isSome

namespace Table
variable {blocks : Nat → Option Block} {allocations : Nat → Allocation} {i : Nat} {a : Allocation} {block : Block}

theorem keep (h : Table blocks allocations) (hlisted : a.listed = (allocations i).listed)
    (hptr : a.listed.isSome → a.ptr = (allocations i).ptr) : Table blocks (Function.update allocations i a) where
  sound ptr block hblock := by
    obtain ⟨j, hj, hjlisted⟩ := h.sound ptr block hblock
    refine ⟨j, ?_⟩
    by_cases hji : j = i
    · subst hji
      rw [Function.update_self, hlisted, hptr (by rw [hlisted, hjlisted]; rfl)]
      exact ⟨hj, hjlisted⟩
    · rw [Function.update_of_ne hji]
      exact ⟨hj, hjlisted⟩
  complete j block hj hne := by
    by_cases hji : j = i
    · subst hji
      rw [Function.update_self] at hj hne ⊢
      rw [hptr (by rw [hj]; rfl)] at hne ⊢
      exact h.complete j block (hlisted ▸ hj) hne
    · rw [Function.update_of_ne hji] at hj hne ⊢
      exact h.complete j block hj hne
  null j hj hnull := by
    by_cases hji : j = i
    · subst hji
      rw [Function.update_self] at hj hnull
      exact h.null j (hlisted ▸ hj) (hptr hj ▸ hnull)
    · rw [Function.update_of_ne hji] at hj hnull
      exact h.null j hj hnull

/-- A block is put in the table. -/
theorem insert (h : Table blocks allocations) (hunlisted : (allocations i).listed = none) (hlisted : a.listed = some block)
    (halone : a.ptr ≠ 0 → ∀ j, j ≠ i → (allocations j).ptr = a.ptr → (allocations j).listed = none) :
    Table (Function.update blocks a.ptr (some block)) (Function.update allocations i a) where
  sound ptr block' hblock := by
    by_cases hptr : ptr = a.ptr
    · subst hptr
      rw [Function.update_self] at hblock
      exact ⟨i, by rw [Function.update_self], by rw [Function.update_self, hlisted, hblock]⟩
    · rw [Function.update_of_ne hptr] at hblock
      obtain ⟨j, hj, hjlisted⟩ := h.sound ptr block' hblock
      have hji : j ≠ i := by
        rintro rfl
        rw [hunlisted] at hjlisted
        cases hjlisted
      exact ⟨j, by rw [Function.update_of_ne hji, hj], by rw [Function.update_of_ne hji, hjlisted]⟩
  complete j block' hj hne := by
    by_cases hji : j = i
    · subst hji
      rw [Function.update_self] at hj ⊢
      rw [Function.update_self, ← hj, hlisted]
    · rw [Function.update_of_ne hji] at hj hne ⊢
      have hptr : (allocations j).ptr ≠ a.ptr := by
        intro hptr
        rw [halone (hptr ▸ hne) j hji hptr] at hj
        cases hj
      rw [Function.update_of_ne hptr]
      exact h.complete j block' hj hne
  null j hj hnull := by
    by_cases hptr : 0 = a.ptr
    · rw [hptr, Function.update_self]
      rfl
    · rw [Function.update_of_ne hptr]
      have hji : j ≠ i := by
        rintro rfl
        rw [Function.update_self] at hnull
        exact hptr hnull.symm
      rw [Function.update_of_ne hji] at hj hnull
      exact h.null j hj hnull

/-- A block is taken out of the table. -/
theorem remove (h : Table blocks allocations) (hunlisted : a.listed = none) (hptr : a.ptr = (allocations i).ptr)
    (hnonnull : a.ptr ≠ 0) (halone : ∀ j, j ≠ i → (allocations j).ptr = a.ptr → (allocations j).listed = none) :
    Table (Function.update blocks a.ptr none) (Function.update allocations i a) where
  sound ptr block hblock := by
    have hne : ptr ≠ a.ptr := by
      rintro rfl
      rw [Function.update_self] at hblock
      cases hblock
    rw [Function.update_of_ne hne] at hblock
    obtain ⟨j, hj, hjlisted⟩ := h.sound ptr block hblock
    have hji : j ≠ i := by
      rintro rfl
      exact hne (hj.symm.trans hptr.symm)
    exact ⟨j, by rw [Function.update_of_ne hji, hj], by rw [Function.update_of_ne hji, hjlisted]⟩
  complete j block hj hne := by
    have hji : j ≠ i := by
      rintro rfl
      rw [Function.update_self, hunlisted] at hj
      cases hj
    rw [Function.update_of_ne hji] at hj hne ⊢
    have hne' : (allocations j).ptr ≠ a.ptr := by
      intro hsame
      rw [halone j hji hsame] at hj
      cases hj
    rw [Function.update_of_ne hne']
    exact h.complete j block hj hne
  null j hj hnull := by
    have hji : j ≠ i := by
      rintro rfl
      rw [Function.update_self, hunlisted] at hj
      cases hj
    rw [Function.update_of_ne hji] at hj hnull
    rw [Function.update_of_ne hnonnull.symm]
    exact h.null j hj hnull

end Table

namespace Heap
variable {s s' : Heap} {i : Nat} {a a' : Allocation} {profiler : HeapProfiler}

structure Inv (s : Heap) : Prop where
  idle : ∀ i, s.allocs ≤ i → (s.allocations i).place = .idle
  ok : ∀ i, (s.allocations i).Ok s.started
  apart : ∀ i j, i ≠ j → (s.allocations i).live → (s.allocations j).live → (s.allocations i).Apart (s.allocations j)
  table : Table s.profiler.blocks s.allocations
  counter : s.profiler.counter = ∑ i ∈ Finset.range s.allocs, (s.allocations i).counted
  memory : s.profiler.memorySize = ∑ i ∈ Finset.range s.allocs, (s.allocations i).summed

theorem inv_init : Inv {} where
  idle _ _ := rfl
  ok _ := ok_idle
  apart _ _ _ h := by cases h
  table := { sound := by simp, complete := by simp [Allocation.listed, Place.listed],
             null := by simp [Allocation.listed, Place.listed] }
  counter := rfl
  memory := rfl

theorem Inv.lt_allocs (h : Inv s) (ha : s.allocations i = a) (hidle : a.place ≠ .idle) : i < s.allocs := by
  by_contra hge
  exact hidle (ha ▸ h.idle i (Nat.le_of_not_lt hge))

/-- Allocation `i` has moved on, and the profiler with it. -/
theorem Inv.moved (h : Inv s) (ha : s.allocations i = a) (hidle : a.place ≠ .idle) (hok : a'.Ok s.started)
    (hapart : a'.live → ∀ j, j ≠ i → (s.allocations j).live → a'.Apart (s.allocations j))
    (htable : Table profiler.blocks (Function.update s.allocations i a'))
    (hcounter : profiler.counter = s.profiler.counter - a.counted + a'.counted)
    (hmemory : profiler.memorySize = s.profiler.memorySize - a.summed + a'.summed) :
    Inv ({ s with profiler := profiler }.setAllocation i a') where
  idle j hj := by
    have hne : j ≠ i := Nat.ne_of_gt (Nat.lt_of_lt_of_le (h.lt_allocs ha hidle) hj)
    simpa [setAllocation, Function.update_of_ne hne] using h.idle j hj
  ok j := by
    by_cases hj : j = i
    · subst hj
      simpa [setAllocation] using hok
    · simpa [setAllocation, Function.update_of_ne hj] using h.ok j
  apart j k hjk hj hk := by
    simp only [setAllocation] at hj hk ⊢
    by_cases hji : j = i
    · subst hji
      rw [Function.update_self] at hj ⊢
      rw [Function.update_of_ne hjk.symm] at hk ⊢
      exact hapart hj k hjk.symm hk
    · rw [Function.update_of_ne hji] at hj ⊢
      by_cases hki : k = i
      · subst hki
        rw [Function.update_self] at hk ⊢
        exact (hapart hk j hji hj).symm
      · rw [Function.update_of_ne hki] at hk ⊢
        exact h.apart j k hjk hj hk
  table := htable
  counter := by
    simp only [setAllocation]
    rw [Tally.sum_update _ (Finset.mem_range.mpr (h.lt_allocs ha hidle)), ha, ← h.counter, hcounter]
  memory := by
    simp only [setAllocation]
    rw [Tally.sum_update _ (Finset.mem_range.mpr (h.lt_allocs ha hidle)), ha, ← h.memory, hmemory]

theorem Inv.apart_of (h : Inv s) (ha : s.allocations i = a) (hlive : a.live) (hptr : a'.ptr = a.ptr)
    (hlayout : a'.layout = a.layout) : ∀ j, j ≠ i → (s.allocations j).live → a'.Apart (s.allocations j) := by
  intro j hji hj
  have := h.apart i j hji.symm (ha ▸ hlive) hj
  rwa [ha, Apart, ← hptr, ← hlayout] at this

/-- No other block of the table is where one is that is in use. -/
theorem Inv.alone (h : Inv s) (ha : s.allocations i = a) (hlive : a.live) :
    ∀ j, j ≠ i → (s.allocations j).ptr = a.ptr → (s.allocations j).listed = none := by
  intro j hji hptr
  have hi : (s.allocations i).live := ha ▸ hlive
  have hnonnull : a.ptr ≠ 0 := (live_iff.mp hlive).1
  by_contra hlisted
  obtain ⟨block, hblock⟩ := Option.ne_none_iff_exists'.mp hlisted
  have hj : (s.allocations j).live := live_of_listed hblock (hptr ▸ hnonnull)
  have hsize : ∀ k, (s.allocations k).live → 0 < (s.allocations k).layout.size := by
    intro k hk
    refine (h.ok k).sized ?_
    intro hidle
    simp [live, hidle, Place.inUse] at hk
  have hapart := h.apart j i hji hj hi
  have := hsize i hi
  have := hsize j hj
  rw [ha] at *
  unfold Apart at hapart
  omega

/-- A step to a place where the profiler has done the same. -/
theorem Inv.entered (h : Inv s) (ha : s.allocations i = a) {place : Place} {outside : Bool} (hinUse : a.place.inUse)
    (hat : At { a with place := place, outside := outside } s.started place)
    (houtside : place ≠ .insert → outside = a.frames.isSome)
    (hviews : a.frames.isSome →
      place.listed = a.place.listed ∧ place.counted = a.place.counted ∧ place.summed = a.place.summed) :
    Inv (s.setAllocation i { a with place := place, outside := outside }) := by
  have hlisted : ({ a with place := place, outside := outside } : Allocation).listed = a.listed := by
    cases hframes : a.frames with
    | none => simp [listed, block, hframes]
    | some frames => simp [listed, block, hframes, (hviews (by rw [hframes]; rfl)).1]
  have hok : a.Ok s.started := ha ▸ h.ok i
  refine h.moved ha (ne_idle hinUse) (hok.move hinUse hat houtside) ?_
    (h.table.keep (by rw [ha, hlisted]) fun _ => by rw [ha]) ?_ ?_
  · intro hlive
    exact h.apart_of ha (live_iff.mpr ⟨(live_iff.mp hlive).1, hinUse⟩) rfl rfl
  · cases hframes : a.frames with
    | none => simp [counted, hframes]
    | some frames => simp [counted, hframes, (hviews (by rw [hframes]; rfl)).2.1]
  · cases hframes : a.frames with
    | none => simp [summed, hframes]
    | some frames => simp [summed, hframes, (hviews (by rw [hframes]; rfl)).2.2]

theorem Inv.quiet (h : Inv s) (ha : s.allocations i = a) {place : Place} (hinUse : a.place.inUse)
    (hinsert : a.place ≠ .insert) (hat : At { a with place := place } s.started place)
    (hviews : a.frames.isSome →
      place.listed = a.place.listed ∧ place.counted = a.place.counted ∧ place.summed = a.place.summed) :
    Inv (s.setAllocation i { a with place := place }) := by
  have hok : a.Ok s.started := ha ▸ h.ok i
  exact h.entered ha hinUse hat (fun _ => hok.outside hinsert) hviews

/-- The guards and the reports do not matter. -/
theorem Inv.guards (h : Inv s) (reentrancy : Nat → Int) (reports : Nat → Nat) :
    Inv { s with reentrancy := reentrancy, reports := reports } :=
  { h with }

/-! ### Steps -/

theorem inv_alloc (h : Inv s) (ha : s.allocations i = a) (hplace : a.place = .alloc) {ptr : Nat}
    (hcan : s.CanReturn { a with ptr := ptr, place := .register }) :
    Inv (s.setAllocation i { a with ptr := ptr, place := .register }) := by
  have hok : a.Ok s.started := ha ▸ h.ok i
  have hframes : a.frames = none := by simpa [hplace, At] using hok.here
  have hidle : a.place ≠ .idle := by simp [hplace]
  have hlisted : a.listed = none := by simp [listed, block, hframes]
  refine h.moved ha hidle ?_ ?_ (h.table.keep ?_ ?_) ?_ ?_
  · exact {
      here := hframes
      outside := fun _ => hok.outside (by simp [hplace])
      recorded := fun h => by simp [hframes] at h
      sized := fun _ => hok.sized hidle
      fits := fun hlive => by
        rcases hcan with hnull | ⟨hfits, -⟩
        · exact absurd hnull (live_iff.mp hlive).1
        · exact hfits }
  · intro hlive j hji hj
    rcases hcan with hnull | ⟨-, hapart⟩
    · exact absurd hnull (live_iff.mp hlive).1
    · refine hapart j (h.lt_allocs rfl ?_) hj
      intro hjidle
      simp [live, hjidle, Place.inUse] at hj
  · rw [ha, hlisted]
    simp [listed, block, hframes]
  · intro hsome
    simp [listed, block, hframes] at hsome
  · simp [counted, hframes]
  · simp [summed, hframes]

theorem inv_insert (h : Inv s) (ha : s.allocations i = a) (hplace : a.place = .insert) (frames : List Nat) :
    Inv ({ s with profiler := s.profiler.insert a.ptr ⟨a.layout.size, frames⟩ }.setAllocation i
      { a with frames := some frames, place := .addCounter }) := by
  have hok : a.Ok s.started := ha ▸ h.ok i
  obtain ⟨-, hstarted, houtside⟩ : a.frames = none ∧ s.started = true ∧ a.outside = true := by
    simpa [hplace, At] using hok.here
  have hidle : a.place ≠ .idle := by simp [hplace]
  have hlive : a.ptr ≠ 0 → a.live := fun hne => live_iff.mpr ⟨hne, by rw [hplace]; rfl⟩
  refine h.moved ha hidle ?_ ?_ ?_ ?_ ?_
  · exact {
      here := rfl
      outside := fun _ => houtside
      recorded := fun _ => hstarted
      sized := fun _ => hok.sized hidle
      fits := fun hb => hok.fits (hlive (live_iff.mp hb).1) }
  · intro hb
    exact h.apart_of ha (hlive (live_iff.mp hb).1) rfl rfl
  · refine Table.insert (a := { a with frames := some frames, place := .addCounter }) h.table
      (unlisted_of_place (by rw [ha, hplace]; rfl)) rfl ?_
    intro hne
    exact h.alone ha (a := a) (hlive hne)
  · simp [HeapProfiler.insert, counted, hplace, Place.counted]
  · simp [HeapProfiler.insert, summed, hplace, Place.summed]

/-- A step that changes one of the counters. -/
theorem inv_count (h : Inv s) (ha : s.allocations i = a) {place : Place} {counter memorySize : BitVec 64}
    (hinUse : a.place.inUse) (hinsert : a.place ≠ .insert) (hat : At { a with place := place } s.started place)
    (hlisted : place.listed = a.place.listed)
    (hcounter : counter = s.profiler.counter - a.counted + ({ a with place := place } : Allocation).counted)
    (hmemory : memorySize = s.profiler.memorySize - a.summed + ({ a with place := place } : Allocation).summed) :
    Inv ({ s with profiler := { s.profiler with counter := counter, memorySize := memorySize } }.setAllocation i
      { a with place := place }) := by
  have hok : a.Ok s.started := ha ▸ h.ok i
  refine h.moved ha (ne_idle hinUse) (hok.move hinUse hat fun _ => hok.outside hinsert) ?_
    (h.table.keep (by rw [ha, listed, listed, hlisted, block, block]) fun _ => by rw [ha]) hcounter hmemory
  intro hlive
  exact h.apart_of ha (live_iff.mpr ⟨(live_iff.mp hlive).1, hinUse⟩) rfl rfl

theorem inv_remove (h : Inv s) (ha : s.allocations i = a) (hplace : a.place = .remove) :
    (∃ block, s.profiler.blocks a.ptr = some block ∧
      Inv ({ s with profiler := s.profiler.remove a.ptr }.setAllocation i { a with place := .subCounter })) ∨
    s.profiler.blocks a.ptr = none ∧ Inv (s.setAllocation i { a with place := .free }) := by
  have hok : a.Ok s.started := ha ▸ h.ok i
  have hnonnull : a.ptr ≠ 0 := by simpa [hplace, At] using hok.here
  have hinUse : a.place.inUse := by rw [hplace]; rfl
  have hinsert : a.place ≠ .insert := by simp [hplace]
  have hlive : a.live := live_iff.mpr ⟨hnonnull, hinUse⟩
  have halone := h.alone ha hlive
  cases hblock : s.profiler.blocks a.ptr with
  | none =>
    refine .inr ⟨rfl, h.quiet ha hinUse hinsert hnonnull ?_⟩
    intro hframes
    obtain ⟨frames, hframes⟩ := Option.isSome_iff_exists.mp hframes
    -- one that is recorded is still in the table
    have hlisted : a.listed = some ⟨a.layout.size, frames⟩ := by simp [listed, block, hplace, Place.listed, hframes]
    have := h.table.complete i _ (ha ▸ hlisted) (ha ▸ hnonnull)
    rw [ha, hblock] at this
    cases this
  | some block =>
    have hframes : a.frames.isSome := by
      obtain ⟨j, hj, hlisted⟩ := h.table.sound _ _ hblock
      have hji : j = i := by
        by_contra hji
        rw [halone j hji hj] at hlisted
        cases hlisted
      subst hji
      rw [ha, listed, hplace] at hlisted
      obtain ⟨frames, hframes, -⟩ := Option.map_eq_some_iff.mp hlisted
      rw [hframes]
      rfl
    refine .inl ⟨block, rfl, ?_⟩
    refine h.moved ha (ne_idle hinUse) (hok.move hinUse ⟨hnonnull, hframes⟩ fun _ => hok.outside hinsert)
      (fun _ => h.apart_of ha hlive rfl rfl) ?_ ?_ ?_
    · exact Table.remove (a := { a with place := .subCounter }) h.table rfl (by rw [ha]) hnonnull halone
    · simp [HeapProfiler.remove, counted, hplace, Place.counted]
    · simp [HeapProfiler.remove, summed, hplace, Place.summed]

theorem inv_returned (h : Inv s) (ha : s.allocations i = a) (hinUse : a.place.inUse) (hinsert : a.place ≠ .insert)
    (hviews : a.frames.isSome → a.place.listed ∧ a.place.counted ∧ a.place.summed) :
    Inv (s.setAllocation i a.returned) := by
  refine h.quiet ha hinUse hinsert ?_ ?_
  · split
    · next hnull => exact hnull
    · next hnonnull => exact hnonnull
  · intro hframes
    obtain ⟨hlisted, hcounted, hsummed⟩ := hviews hframes
    rw [hlisted, hcounted, hsummed]
    split <;> exact ⟨rfl, rfl, rfl⟩

theorem inv_next {ptr : Nat} {frames : List Nat} (h : Inv s) (hs : s.next i ptr frames = some s') : Inv s' := by
  obtain ⟨a, ha⟩ : ∃ a, s.allocations i = a := ⟨_, rfl⟩
  have hok : a.Ok s.started := ha ▸ h.ok i
  have hat := hok.here
  simp only [next, ha] at hs
  cases hplace : a.place with
  | idle | owned | failed | freed => simp [hplace] at hs
  | alloc =>
    simp only [hplace, Option.ite_none_right_eq_some, Option.some.injEq] at hs
    obtain ⟨hcan, rfl⟩ := hs
    exact inv_alloc h ha hplace hcan
  | register =>
    rw [hplace] at hat
    have hframes : ¬a.frames.isSome := by rw [hat]; simp
    have hinUse : a.place.inUse := by rw [hplace]; rfl
    simp only [hplace, Option.some.injEq] at hs
    subst hs
    split
    · next hstarted => exact h.quiet ha hinUse (by simp [hplace]) ⟨hat, hstarted⟩ fun hsome => absurd hsome hframes
    · exact inv_returned h ha hinUse (by simp [hplace]) fun hsome => absurd hsome hframes
  | enter =>
    rw [hplace] at hat
    have hframes : ¬a.frames.isSome := by rw [hat.1]; simp
    have hinUse : a.place.inUse := by rw [hplace]; rfl
    simp only [hplace, Option.some.injEq] at hs
    subst hs
    have hinv := h.guards (Function.update s.reentrancy a.thread (s.reentrancy a.thread + 1)) s.reports
    refine hinv.entered ha hinUse ?_ ?_ fun hsome => absurd hsome hframes
    · split
      · next hfirst => exact ⟨hat.1, hat.2, decide_eq_true hfirst⟩
      · trivial
    · split
      · intro hinsert
        exact absurd rfl hinsert
      · next hfirst =>
        intro _
        rw [hat.1]
        exact decide_eq_false hfirst
  | insert =>
    simp only [hplace, Option.some.injEq] at hs
    subst hs
    exact inv_insert h ha hplace frames
  | addCounter =>
    rw [hplace] at hat
    have hframes : a.frames.isSome := hat
    simp only [hplace, Option.some.injEq] at hs
    subst hs
    refine inv_count h ha (by rw [hplace]; rfl) (by simp [hplace]) hat (by rw [hplace]; rfl) ?_ ?_
    · simp [counted, hplace, Place.counted, hframes]
    · simp [summed, hplace, Place.summed]
  | addMemory =>
    rw [hplace] at hat
    have hframes : a.frames.isSome := hat
    simp only [hplace, Option.some.injEq] at hs
    subst hs
    refine inv_count h ha (by rw [hplace]; rfl) (by simp [hplace]) trivial (by rw [hplace]; rfl) ?_ ?_
    · simp [counted, hplace, Place.counted]
    · simp [summed, hplace, Place.summed, hframes]
  | leave =>
    simp only [hplace, Option.some.injEq] at hs
    subst hs
    have hinv := h.guards (Function.update s.reentrancy a.thread (s.reentrancy a.thread - 1)) s.reports
    refine inv_returned hinv ha (by rw [hplace]; rfl) (by simp [hplace]) fun _ => ?_
    rw [hplace]
    exact ⟨rfl, rfl, rfl⟩
  | unregister =>
    rw [hplace] at hat
    simp only [hplace, Option.some.injEq] at hs
    subst hs
    refine h.quiet ha (by rw [hplace]; rfl) (by simp [hplace]) ?_ ?_
    · split <;> exact hat
    · intro hsome
      rw [if_pos (hok.recorded hsome), hplace]
      exact ⟨rfl, rfl, rfl⟩
  | remove =>
    rcases inv_remove h ha hplace with ⟨block, hblock, hinv⟩ | ⟨hblock, hinv⟩
    · simp only [hplace, hblock, Option.some.injEq] at hs
      exact hs ▸ hinv
    · simp only [hplace, hblock, Option.some.injEq] at hs
      exact hs ▸ hinv
  | subCounter =>
    rw [hplace] at hat
    have hframes : a.frames.isSome := hat.2
    simp only [hplace, Option.some.injEq] at hs
    subst hs
    refine inv_count h ha (by rw [hplace]; rfl) (by simp [hplace]) hat (by rw [hplace]; rfl) ?_ ?_
    · simp [counted, hplace, Place.counted, hframes]
    · simp [summed, hplace, Place.summed]
  | subMemory =>
    rw [hplace] at hat
    have hframes : a.frames.isSome := hat.2
    simp only [hplace, Option.some.injEq] at hs
    subst hs
    refine inv_count h ha (by rw [hplace]; rfl) (by simp [hplace]) hat.1 (by rw [hplace]; rfl) ?_ ?_
    · simp [counted, hplace, Place.counted]
    · simp [summed, hplace, Place.summed, hframes]
  | free =>
    simp only [hplace, Option.some.injEq] at hs
    subst hs
    refine h.quiet ha (by rw [hplace]; rfl) (by simp [hplace]) trivial fun _ => ?_
    rw [hplace]
    exact ⟨rfl, rfl, rfl⟩

/-- A new call of `alloc`. -/
theorem inv_asked (h : Inv s) (hplace : a.place = .alloc) (houtside : a.outside = false) (hframes : a.frames = none)
    (hsize : 0 < a.layout.size) :
    Inv ({ s with allocs := s.allocs + 1 }.setAllocation s.allocs a) where
  idle j hj := by
    have hne : j ≠ s.allocs := Nat.ne_of_gt hj
    simpa [setAllocation, Function.update_of_ne hne] using h.idle j (Nat.le_of_succ_le hj)
  ok j := by
    by_cases hj : j = s.allocs
    · subst hj
      simp only [setAllocation, Function.update_self]
      exact {
        here := by rw [hplace]; exact hframes
        outside := fun _ => by rw [houtside, hframes]; rfl
        recorded := fun hsome => by simp [hframes] at hsome
        sized := fun _ => hsize
        fits := fun hlive => by simp [live, hplace, Place.inUse] at hlive }
    · simpa [setAllocation, Function.update_of_ne hj] using h.ok j
  apart j k hjk hj hk := by
    have hne : ∀ l, (Function.update s.allocations s.allocs a l).live → l ≠ s.allocs := by
      rintro _ hl rfl
      simp [live, hplace, Place.inUse] at hl
    simp only [setAllocation] at hj hk ⊢
    have hj' := hne j hj
    have hk' := hne k hk
    rw [Function.update_of_ne hj'] at hj ⊢
    rw [Function.update_of_ne hk'] at hk ⊢
    exact h.apart j k hjk hj hk
  table := by
    refine h.table.keep ?_ ?_
    · rw [unlisted_of_place (by rw [hplace]; rfl), unlisted_of_place (by rw [h.idle _ (Nat.le_refl _)]; rfl)]
    · rw [unlisted_of_place (by rw [hplace]; rfl)]
      intro hsome
      cases hsome
  counter := by
    simp only [setAllocation]
    rw [Finset.sum_range_succ, Tally.sum_update_of_notMem _ Finset.notMem_range_self, Function.update_self, ← h.counter]
    simp [counted, hframes]
  memory := by
    simp only [setAllocation]
    rw [Finset.sum_range_succ, Tally.sum_update_of_notMem _ Finset.notMem_range_self, Function.update_self, ← h.memory]
    simp [summed, hframes]

theorem inv_step {action : HeapAction} (h : Inv s) (hs : step s action = some s') : Inv s' := by
  cases action with
  | start =>
    obtain ⟨hnot, hs⟩ := Option.ite_none_left_eq_some.mp hs
    cases hs
    exact { h with ok := fun i => Ok.start (by simpa [hnot] using h.ok i) }
  | alloc thread layout =>
    obtain ⟨hsize, hs⟩ := Option.ite_none_right_eq_some.mp hs
    cases hs
    exact inv_asked h rfl rfl rfl hsize
  | dealloc i =>
    obtain ⟨hplace, hs⟩ := Option.ite_none_right_eq_some.mp hs
    cases hs
    have hat := (h.ok i).here
    rw [hplace] at hat
    refine h.quiet rfl (by rw [hplace]; rfl) (by simp [hplace]) hat fun _ => ?_
    rw [hplace]
    exact ⟨rfl, rfl, rfl⟩
  | next i ptr frames => exact inv_next h hs
  | report thread =>
    cases hs
    exact h.guards _ _
  | reported thread =>
    obtain ⟨-, hs⟩ := Option.ite_none_left_eq_some.mp hs
    cases hs
    exact h.guards _ _

theorem inv_reachable (h : Reachable step {} s) : Inv s := Reaches.invariant h inv_init fun h _ hs => inv_step h hs

/-! ### When no call is in progress -/

/-- What `heap_profiler_stats` gives and what the table has are the recorded blocks that are still allocated. -/
structure StatsMatch (s : Heap) : Prop where
  blocks : s.profiler.generateStats.blocks.toNat = s.recorded.card
  memory_size : s.profiler.generateStats.memorySize.toNat = ∑ i ∈ s.recorded, (s.allocations i).layout.size
  table : ∀ ptr block, s.profiler.blocks ptr = some block ↔
    ∃ i ∈ s.recorded, (s.allocations i).ptr = ptr ∧ (s.allocations i).block = some block

theorem mem_recorded : i ∈ s.recorded ↔
    i < s.allocs ∧ (s.allocations i).place = .owned ∧ (s.allocations i).outside := by
  rw [recorded, Finset.mem_filter, Finset.mem_range]

/-- All recorded blocks fit into the memory together. -/
theorem Inv.sum_size_lt (h : Inv s) : ∑ i ∈ s.recorded, (s.allocations i).layout.size < 2 ^ 64 := by
  have hlive : ∀ i ∈ s.recorded, (s.allocations i).live := by
    intro i hi
    obtain ⟨-, hplace, -⟩ := mem_recorded.mp hi
    have hat := (h.ok i).here
    rw [hplace] at hat
    exact live_iff.mpr ⟨hat, by rw [hplace]; rfl⟩
  have hle : ∑ i ∈ s.recorded, (s.allocations i).layout.size ≤ 2 ^ 64 - 1 := by
    refine Tally.sum_size_le (fun i => (s.allocations i).ptr) _ ?_ ?_ ?_
    · intro i hi
      exact Nat.pos_of_ne_zero (live_iff.mp (hlive i hi)).1
    · intro i hi
      exact (h.ok i).fits (hlive i hi)
    · intro i hi j hj hij
      exact h.apart i j hij (hlive i hi) (hlive j hj)
  omega

theorem Inv.card_lt (h : Inv s) : s.recorded.card < 2 ^ 64 := by
  refine Nat.lt_of_le_of_lt ?_ h.sum_size_lt
  rw [Finset.card_eq_sum_ones]
  refine Finset.sum_le_sum ?_
  intro i hi
  refine (h.ok i).sized ?_
  rw [(mem_recorded.mp hi).2.1]
  simp

/-- What the profiler has of an allocation of which nothing is in progress. -/
theorem Inv.at_rest (h : Inv s) (hrest : (s.allocations i).place.atRest)
    (hfailed : (s.allocations i).place = .failed → (s.allocations i).outside = false) :
    ((s.allocations i).listed = if i ∈ s.recorded then (s.allocations i).block else none) ∧
    ((s.allocations i).counted = if i ∈ s.recorded then 1 else 0) ∧
    ((s.allocations i).summed = if i ∈ s.recorded then ((s.allocations i).layout.size : BitVec 64) else 0) := by
  have howned := mem_recorded (s := s) (i := i)
  have houtside : (s.allocations i).outside = (s.allocations i).frames.isSome := (h.ok i).outside (by
    intro hplace
    simp [hplace, Place.atRest] at hrest)
  cases hplace : (s.allocations i).place with
  | idle | freed =>
    have hi : i ∉ s.recorded := by simp [howned, hplace]
    simp [listed, counted, summed, hplace, Place.listed, Place.counted, Place.summed, hi]
  | failed =>
    have hframes : (s.allocations i).frames = none := by simpa [houtside] using hfailed hplace
    have hi : i ∉ s.recorded := by simp [howned, hplace]
    simp [listed, block, counted, summed, hframes, hi]
  | owned =>
    have hlt : i < s.allocs := h.lt_allocs rfl (by simp [hplace])
    cases hframes : (s.allocations i).frames with
    | none =>
      have hi : i ∉ s.recorded := by simp [howned, houtside, hframes]
      simp [listed, block, counted, summed, hframes, hi]
    | some frames =>
      have hi : i ∈ s.recorded := by simp [howned, hlt, hplace, houtside, hframes]
      simp [listed, counted, summed, hplace, Place.listed, Place.counted, Place.summed, hframes, hi]
  | _ => simp [hplace, Place.atRest] at hrest

theorem toNat_natCast {n : Nat} (h : n < 2 ^ 64) : (n : BitVec 64).toNat = n := by
  rw [BitVec.natCast_eq_ofNat, BitVec.toNat_ofNat, Nat.mod_eq_of_lt h]

theorem recorded_subset : s.recorded ⊆ Finset.range s.allocs := Finset.filter_subset _ _

theorem Inv.stats_match (h : Inv s) (hquiet : s.Quiet)
    (hfailed : ∀ i, (s.allocations i).place = .failed → (s.allocations i).outside = false) : StatsMatch s where
  blocks := by
    have hcounter : s.profiler.counter = (s.recorded.card : BitVec 64) := by
      calc s.profiler.counter = ∑ i ∈ Finset.range s.allocs, if i ∈ s.recorded then 1 else 0 := by
            rw [h.counter]
            exact Finset.sum_congr rfl fun i _ => (h.at_rest (hquiet i) (hfailed i)).2.1
        _ = ∑ i ∈ s.recorded, 1 := by rw [Finset.sum_ite_mem, Finset.inter_eq_right.mpr recorded_subset]
        _ = (s.recorded.card : BitVec 64) := by simp
    rw [HeapProfiler.generateStats, hcounter]
    exact toNat_natCast h.card_lt
  memory_size := by
    have hmemory : s.profiler.memorySize = ((∑ i ∈ s.recorded, (s.allocations i).layout.size : Nat) : BitVec 64) := by
      calc s.profiler.memorySize
          = ∑ i ∈ Finset.range s.allocs, if i ∈ s.recorded then ((s.allocations i).layout.size : BitVec 64) else 0 := by
            rw [h.memory]
            exact Finset.sum_congr rfl fun i _ => (h.at_rest (hquiet i) (hfailed i)).2.2
        _ = ∑ i ∈ s.recorded, ((s.allocations i).layout.size : BitVec 64) := by
            rw [Finset.sum_ite_mem, Finset.inter_eq_right.mpr recorded_subset]
        _ = ((∑ i ∈ s.recorded, (s.allocations i).layout.size : Nat) : BitVec 64) := by rw [Nat.cast_sum]
    rw [HeapProfiler.generateStats, hmemory]
    exact toNat_natCast h.sum_size_lt
  table ptr block := by
    constructor
    · intro hblock
      obtain ⟨i, hptr, hlisted⟩ := h.table.sound ptr block hblock
      rw [(h.at_rest (hquiet i) (hfailed i)).1, Option.ite_none_right_eq_some] at hlisted
      exact ⟨i, hlisted.1, hptr, hlisted.2⟩
    · rintro ⟨i, hi, rfl, hblock⟩
      have hat := (h.ok i).here
      rw [(mem_recorded.mp hi).2.1] at hat
      refine h.table.complete i block ?_ hat
      rw [(h.at_rest (hquiet i) (hfailed i)).1, if_pos hi, hblock]

end Heap

open Heap in
/-- When no call is in progress, the statistics and the table are those of the recorded blocks that are still allocated, if
    and only if the system allocator has refused no call outside of the profiler. -/
theorem heap_stats_match_iff {s : Heap} (h : Reachable step {} s) (hquiet : s.Quiet) :
    StatsMatch s ↔ ∀ i, (s.allocations i).place = .failed → (s.allocations i).outside = false := by
  have hinv := inv_reachable h
  refine ⟨fun hmatch i hplace => ?_, hinv.stats_match hquiet⟩
  rw [(hinv.ok i).outside (by simp [hplace]), Option.isSome_eq_false_iff, Option.isNone_iff_eq_none]
  by_contra hframes
  obtain ⟨frames, hframes⟩ := Option.ne_none_iff_exists'.mp hframes
  have hnull : (s.allocations i).ptr = 0 := by
    have hat := (hinv.ok i).here
    rwa [hplace] at hat
  -- the block at null has no owner
  obtain ⟨block, hblock⟩ := Option.isSome_iff_exists.mp
    (hinv.table.null i (by simp [listed, block, hplace, Place.listed, hframes]) hnull)
  obtain ⟨j, hj, hptr, -⟩ := (hmatch.table 0 block).mp hblock
  have hat := (hinv.ok j).here
  rw [(mem_recorded.mp hj).2.1] at hat
  exact hat hptr

namespace Heap

theorem quiet_of_reachable {s : Heap} (h : Reachable step {} s) (hrest : ∀ i < s.allocs, (s.allocations i).place.atRest) :
    s.Quiet := by
  intro i
  by_cases hi : i < s.allocs
  · exact hrest i hi
  · rw [(inv_reachable h).idle i (Nat.le_of_not_lt hi)]
    rfl

/-- Thread 0 allocates 32 bytes, and 16 for the backtrace, which is not recorded. Thread 1 frees 8 bytes and gets their
    address again for 16. Thread 0 is refused what it asks for in a report. -/
def reusedRun : List HeapAction :=
  [.start, .alloc 0 ⟨32, 8⟩, .next 0 0x1000 [], .next 0 0 [], .next 0 0 [], .alloc 0 ⟨16, 8⟩, .next 1 0x2000 [],
    .next 1 0 [], .next 1 0 [], .next 1 0 [], .next 0 0 [7], .next 0 0 [], .next 0 0 [], .next 0 0 [],
    .alloc 1 ⟨8, 8⟩, .next 2 0x3000 [], .next 2 0 [], .next 2 0 [], .next 2 0 [8], .next 2 0 [], .next 2 0 [], .next 2 0 [],
    .dealloc 2, .next 2 0 [], .next 2 0 [], .next 2 0 [], .next 2 0 [], .next 2 0 [],
    .alloc 1 ⟨16, 8⟩, .next 3 0x3000 [], .next 3 0 [], .next 3 0 [], .next 3 0 [9], .next 3 0 [], .next 3 0 [], .next 3 0 [],
    .report 0, .alloc 0 ⟨4096, 1⟩, .next 4 0 [], .next 4 0 [], .next 4 0 [], .next 4 0 [], .reported 0]

end Heap

theorem heap_stats_match_reused : ∃ s, run Heap.step {} Heap.reusedRun = some s ∧ s.profiler.generateStats = ⟨2, 48⟩ ∧
    s.profiler.blocks 0x3000 = some ⟨16, [9]⟩ ∧ Heap.StatsMatch s := by
  obtain ⟨s, hrun⟩ : ∃ s, run Heap.step {} Heap.reusedRun = some s := ⟨_, rfl⟩
  have h := Reachable.of_run Heap.reusedRun hrun
  refine ⟨s, hrun, ?_, ?_, (heap_stats_match_iff h (Heap.quiet_of_reachable h ?_)).mpr ?_⟩
  · cases hrun
    rfl
  · cases hrun
    rfl
  · cases hrun
    decide
  · have hfailed : ∀ i < s.allocs, (s.allocations i).place = .failed → (s.allocations i).outside = false := by
      cases hrun
      decide
    intro i hi
    exact hfailed i ((Heap.inv_reachable h).lt_allocs rfl (hi ▸ by decide)) hi

/-- The system allocator refuses `0x4000000000000000` bytes. They are counted, and the table has them at null. -/
def refusedRun : List HeapAction :=
  [.start, .alloc 0 ⟨0x4000000000000000, 1⟩, .next 0 0 [], .next 0 0 [], .next 0 0 [], .next 0 0 [7], .next 0 0 [],
    .next 0 0 [], .next 0 0 []]

theorem refused_alloc_counted : ∃ s, run Heap.step {} refusedRun = some s ∧ Reachable Heap.step {} s ∧ s.Quiet ∧
    s.recorded = ∅ ∧ s.profiler.generateStats = ⟨1, 0x4000000000000000⟩ ∧
    s.profiler.blocks 0 = some ⟨0x4000000000000000, [7]⟩ ∧ ¬Heap.StatsMatch s := by
  obtain ⟨s, hrun⟩ : ∃ s, run Heap.step {} refusedRun = some s := ⟨_, rfl⟩
  have h := Reachable.of_run refusedRun hrun
  have hempty : s.recorded = ∅ := by
    cases hrun
    decide
  have hstats : s.profiler.generateStats = ⟨1, 0x4000000000000000⟩ := by
    cases hrun
    rfl
  refine ⟨s, hrun, h, Heap.quiet_of_reachable h ?_, hempty, hstats, ?_, fun hmatch => ?_⟩
  · cases hrun
    decide
  · cases hrun
    rfl
  · have hblocks := hmatch.blocks
    rw [hstats, hempty] at hblocks
    cases hblocks

end Hala.Pprof
