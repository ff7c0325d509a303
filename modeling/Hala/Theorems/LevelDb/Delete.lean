import Hala.LevelDb.Database

/-! Which deletes remove their key.

The delete reads the value first and takes a length of zero for a missing key, so that it leaves a key whose value is
without bytes where it is (`delete_iff`). -/

namespace Hala.LevelDb

/-- A delete removes its key and nothing else, and reports whether the key had been there. -/
structure Deletes (before after : Content) (key : Bytes) (reported : Bool) : Prop where
  removed : after[key]? = none
  others : ∀ k, k ≠ key → after[k]? = before[k]?
  reports : reported = true ↔ before[key]? ≠ none

theorem erase_eq_self {content : Content} {key : Bytes} (h : content[key]? = none) : content.erase key = content := by
  apply Std.ExtTreeMap.ext_getElem?
  intro k
  rw [Std.ExtTreeMap.getElem?_erase]
  split
  · next hk => rw [← Std.LawfulEqCmp.eq_of_compare hk, h]
  · rfl

/-- Only erasing the key is a delete of it. -/
theorem deletes_iff {before after : Content} {key : Bytes} {reported : Bool} :
    Deletes before after key reported ↔ after = before.erase key ∧ (reported = true ↔ before[key]? ≠ none) := by
  constructor
  · rintro ⟨hremoved, hothers, hreports⟩
    refine ⟨?_, hreports⟩
    apply Std.ExtTreeMap.ext_getElem?
    intro k
    rw [Std.ExtTreeMap.getElem?_erase]
    split
    · next hk => rw [← Std.LawfulEqCmp.eq_of_compare hk, hremoved]
    · next hk => exact hothers k fun heq => hk (heq ▸ Std.ReflOrd.compare_self)
  · rintro ⟨rfl, hreports⟩
    refine ⟨Std.ExtTreeMap.getElem?_erase_self, fun k hk => ?_, hreports⟩
    rw [Std.ExtTreeMap.getElem?_erase, if_neg fun heq => hk (Std.LawfulEqCmp.eq_of_compare heq).symm]

section Calls
variable {api : Api} {K : Type} [KeyValue K]

/-- A delete whose read reports no error, by the value that it reads. -/
theorem delete_eq (db : Database api) {key : K} {bytes : Bytes} (hkey : KeyValue.toBytes key = .ok bytes)
    (ops : Option WriteOps) (fault : Option String) :
    db.delete key ops none fault =
      if 0 < ((api.content db.cDb)[bytes]?.getD []).length then
        (checked fault (.ok true), ⟨api.delete fault db.cDb (ops.getD .new).cOps bytes⟩)
      else (.ok false, db) := by
  unfold Database.delete
  have hread : api.get db.cDb (ReadOps.new : ReadOps api).cOps bytes = (api.content db.cDb)[bytes]? :=
    api.get_latest _ _ _ rfl
  simp only [hkey, hread]

/-- A delete of a key without a value of some bytes does nothing, and reports that. -/
theorem delete_of_empty (db : Database api) {key : K} {bytes : Bytes} (hkey : KeyValue.toBytes key = .ok bytes)
    (ops : Option WriteOps) (fault : Option String) (h : (api.content db.cDb)[bytes]?.getD [] = []) :
    db.delete key ops none fault = (.ok false, db) := by
  rw [delete_eq db hkey, h]
  rfl

theorem delete_of_value (db : Database api) {key : K} {bytes value : Bytes} (hkey : KeyValue.toBytes key = .ok bytes)
    (ops : Option WriteOps) (fault : Option String) (h : (api.content db.cDb)[bytes]? = some value) (hvalue : value ≠ []) :
    db.delete key ops none fault =
      (checked fault (.ok true), ⟨api.delete fault db.cDb (ops.getD .new).cOps bytes⟩) := by
  rw [delete_eq db hkey, h, Option.getD_some, if_pos (List.length_pos_iff.mpr hvalue)]

end Calls

/-- The deletes that return without an error do what a delete is for exactly when the key has no value without bytes. -/
theorem delete_iff (api : Api) (db : Database api) (K : Type) [KeyValue K] (key : K) (ops : Option WriteOps)
    (readFault fault : Option String) :
    (∀ bytes reported, KeyValue.toBytes key = .ok bytes → (db.delete key ops readFault fault).1 = .ok reported →
        Deletes (api.content db.cDb) (api.content (db.delete key ops readFault fault).2.cDb) bytes reported) ↔
      ∀ bytes, KeyValue.toBytes key = .ok bytes → readFault = none → (api.content db.cDb)[bytes]? ≠ some [] := by
  constructor
  · intro h bytes hkey hread hempty
    have hdelete := delete_of_empty db hkey ops fault (by rw [hempty]; rfl)
    have hkept := h bytes false hkey
    rw [hread, hdelete] at hkept
    have hremoved := (hkept rfl).removed
    rw [hempty] at hremoved
    cases hremoved
  · intro h bytes reported hkey hok
    cases readFault with
    | some error =>
      simp only [Database.delete, hkey] at hok
      cases hok
    | none =>
      cases hvalue : (api.content db.cDb)[bytes]? with
      | none =>
        rw [delete_of_empty db hkey ops fault (by rw [hvalue]; rfl)] at hok ⊢
        cases hok
        refine deletes_iff.mpr ⟨(erase_eq_self hvalue).symm, ?_⟩
        simp [hvalue]
      | some value =>
        have hsome : value ≠ [] := fun hnil => h bytes hkey rfl (hvalue.trans (congrArg some hnil))
        rw [delete_of_value db hkey ops fault hvalue hsome] at hok ⊢
        cases fault with
        | some error => cases hok
        | none =>
          cases hok
          refine deletes_iff.mpr ⟨api.content_delete .., ?_⟩
          simp [hvalue]

/-- A key with an empty value is still there behind its delete, which reports that it had not been there. -/
theorem delete_leaves_empty_value :
    let db : Database memoryApi := ⟨(∅ : Content).insert [1] []⟩
    let deleted := db.delete ([1] : Bytes) none none none
    deleted.1 = .ok false ∧ ¬Deletes (memoryApi.content db.cDb) (memoryApi.content deleted.2.cDb) [1] false := by
  refine ⟨by decide, fun h => ?_⟩
  have hkept : ((∅ : Content).insert [1] [])[([1] : Bytes)]? ≠ none := by decide
  exact hkept h.removed

end Hala.LevelDb
