import Mathlib.Data.List.Basic

/-! Channels, with any number of senders and one receiver.

A channel is given by what its ends do with it; each of them is told whether the other end is still there. -/

structure Channel (C α : Type*) where
  new : C
  /-- A sender puts an item into the channel, or fails. -/
  send : C → (receiver : Bool) → α → Option C
  /-- The receiver has to wait, or finds the next item or the end of the channel. -/
  next : C → (sender : Bool) → Option (C × Option α)

namespace Channel
variable {C α : Type*} {chan : Channel C α} {content : C → List α} {c c' : C} {a : α} {sender receiver : Bool}

/-- The channel is first in, first out: it takes every item while there is a receiver, and ends behind the last one when all
    senders are gone. -/
structure Fifo (chan : Channel C α) (content : C → List α) : Prop where
  new : content chan.new = []
  sent : ∀ c a, ∃ c', chan.send c true a = some c' ∧ content c' = content c ++ [a]
  refused : ∀ c a, chan.send c false a = none
  item : ∀ c sender a as, content c = a :: as → ∃ c', chan.next c sender = some (c', some a) ∧ content c' = as
  waits : ∀ c, content c = [] → chan.next c true = none
  ends : ∀ c, content c = [] → ∃ c', chan.next c false = some (c', none)

theorem Fifo.of_send (h : chan.Fifo content) (hsend : chan.send c receiver a = some c') :
    receiver = true ∧ content c' = content c ++ [a] := by
  cases receiver with
  | false =>
    rw [h.refused] at hsend
    cases hsend
  | true =>
    obtain ⟨c₁, hc₁, hcontent⟩ := h.sent c a
    rw [hc₁] at hsend
    cases hsend
    exact ⟨rfl, hcontent⟩

theorem Fifo.receiver_gone (h : chan.Fifo content) (hsend : chan.send c receiver a = none) : receiver = false := by
  cases receiver with
  | false => rfl
  | true =>
    obtain ⟨c₁, hc₁, -⟩ := h.sent c a
    rw [hc₁] at hsend
    cases hsend

/-- What the receiver finds was the first item. -/
theorem Fifo.of_next (h : chan.Fifo content) (hnext : chan.next c sender = some (c', some a)) :
    content c = a :: content c' := by
  cases hcontent : content c with
  | nil =>
    cases sender with
    | true =>
      rw [h.waits c hcontent] at hnext
      cases hnext
    | false =>
      obtain ⟨c₁, hc₁⟩ := h.ends c hcontent
      rw [hc₁] at hnext
      cases hnext
  | cons a' as =>
    obtain ⟨c₁, hc₁, rest⟩ := h.item c sender a' as hcontent
    rw [hc₁] at hnext
    cases hnext
    rw [rest]

/-- At the end nothing is left, and there is no sender. -/
theorem Fifo.of_end (h : chan.Fifo content) (hnext : chan.next c sender = some (c', none)) :
    content c = [] ∧ sender = false := by
  cases hcontent : content c with
  | nil =>
    cases sender with
    | true =>
      rw [h.waits c hcontent] at hnext
      cases hnext
    | false => exact ⟨rfl, rfl⟩
  | cons a' as =>
    obtain ⟨c₁, hc₁, -⟩ := h.item c sender a' as hcontent
    rw [hc₁] at hnext
    cases hnext

/-- The channel that is a list of its items. -/
def queue (α : Type*) : Channel (List α) α where
  new := []
  send items receiver a := if receiver then some (items ++ [a]) else none
  next items sender :=
    match items with
    | a :: items => some (items, some a)
    | [] => if sender then none else some ([], none)

theorem fifo_queue (α : Type*) : (queue α).Fifo id where
  new := rfl
  sent items a := ⟨items ++ [a], rfl, rfl⟩
  refused _ _ := rfl
  item items _ a as hitems := by
    obtain rfl : items = a :: as := hitems
    exact ⟨as, rfl, rfl⟩
  waits items hitems := by
    obtain rfl : items = [] := hitems
    rfl
  ends items hitems := by
    obtain rfl : items = [] := hitems
    exact ⟨[], rfl⟩

end Channel
