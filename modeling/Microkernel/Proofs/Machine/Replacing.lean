import Microkernel.Proofs.Machine.Tables

/-!
# Records written anew

Writing a record that a table has already replaces it where it stands. The table keeps its shape, so writing the old record back
gives the table there was, and of two writings only the last can be told.
-/

namespace Microkernel

open Std.DTreeMap.Internal

variable {α : Type}

/-! ## Inside a table -/

section Impl

variable {key : RecordId} {value : α} {left right : Impl RecordId fun _ => α} {size : Nat}

/-- A node that is balanced needs no rotation after a change on its left. -/
theorem balanceL!_of_balanced (h : (Impl.inner size key value left right).Balanced) :
    Impl.balanceL! key value left right = .inner size key value left right := by
  have hpre : Impl.BalanceLErasePrecond left.size right.size := .inr (.inr h.at_root)
  have hbalance : Impl.balance key value left right h.left h.right (.inl hpre) = .inner size key value left right :=
    Impl.balance_eq_inner h
  rw [Impl.balanceL!_eq_balance! h.left h.right hpre, ← hbalance, Impl.balance_eq_balance!]

/-- A node that is balanced needs no rotation after a change on its right. -/
theorem balanceR!_of_balanced (h : (Impl.inner size key value left right).Balanced) :
    Impl.balanceR! key value left right = .inner size key value left right := by
  have hpre : Impl.BalanceLErasePrecond right.size left.size := by
    refine .inr (.inr ?_)
    have := h.at_root
    unfold Impl.BalancedAtRoot at this ⊢
    omega
  have hbalance : Impl.balance key value left right h.left h.right (.inr hpre) = .inner size key value left right :=
    Impl.balance_eq_inner h
  rw [Impl.balanceR!_eq_balance! h.left h.right hpre, ← hbalance, Impl.balance_eq_balance!]

/-- Writing a record over another moves nothing. -/
theorem insert!_of_get? {records : Impl RecordId fun _ => α} (hb : records.Balanced) {id : RecordId} {a b : α}
    (h : Impl.Const.get? records id = some a) : Impl.insert! id b records = Impl.Const.modify id (fun _ => b) records := by
  induction records with
  | leaf => contradiction
  | inner size key c left right ihl ihr =>
    have hmodified : (Impl.Const.modify id (fun _ => b) (.inner size key c left right)).Balanced := Impl.Const.balanced_modify hb
    rw [Impl.Const.get?] at h
    rw [Impl.insert!]
    rw [Impl.Const.modify] at hmodified ⊢
    split at h
    · next hc =>
      simp only [hc] at hmodified ⊢
      rw [ihl hb.left h]
      exact balanceL!_of_balanced hmodified
    · next hc =>
      simp only [hc] at hmodified ⊢
      rw [ihr hb.right h]
      exact balanceR!_of_balanced hmodified
    · next hc => simp only [hc]

/-- Two changes of one record are one. -/
theorem modify_modify (records : Impl RecordId fun _ => α) (id : RecordId) (f g : α → α) :
    Impl.Const.modify id g (Impl.Const.modify id f records) = Impl.Const.modify id (g ∘ f) records := by
  induction records with
  | leaf => rfl
  | inner size key c left right ihl ihr =>
    simp only [Impl.Const.modify]
    cases hc : compare id key with
    | lt => simp only [Impl.Const.modify, hc, ihl]
    | gt => simp only [Impl.Const.modify, hc, ihr]
    | eq => simp only [Impl.Const.modify, Std.ReflCmp.compare_self, Function.comp]

/-- Writing back what is there changes nothing. -/
theorem modify_of_get? {records : Impl RecordId fun _ => α} {id : RecordId} {a : α}
    (h : Impl.Const.get? records id = some a) : Impl.Const.modify id (fun _ => a) records = records := by
  induction records with
  | leaf => rfl
  | inner size key c left right ihl ihr =>
    rw [Impl.Const.get?] at h
    rw [Impl.Const.modify]
    split at h
    · next hc => simp only [hc, ihl h]
    · next hc => simp only [hc, ihr h]
    · next hc =>
      rw [Std.LawfulEqCmp.eq_of_compare hc, Option.some.inj h]
      simp

end Impl

/-! ## Tables -/

namespace Records

variable {records : Records α} {id : RecordId} {a b c : α}

/-- Tables are told by what is in them. -/
theorem eq_of_inner {records records' : Records α} (h : records.inner.inner = records'.inner.inner) : records = records' := by
  obtain ⟨⟨inner, wf⟩⟩ := records
  obtain ⟨⟨inner', wf'⟩⟩ := records'
  cases h
  rfl

/-- Writing over a record that is there changes it where it stands. -/
theorem insert_eq_modify (h : records[id]? = some a) (b : α) : records.insert id b = records.modify id fun _ => b := by
  refine eq_of_inner ?_
  change (Impl.insert id b records.inner.inner _).impl = Impl.Const.modify id (fun _ => b) records.inner.inner
  rw [Impl.insert_eq_insert!]
  exact insert!_of_get? records.inner.wf.balanced h

/-- Writing back the record that a table has gives the table. -/
theorem insert_self (h : records[id]? = some a) : records.insert id a = records := by
  rw [insert_eq_modify h]
  exact eq_of_inner (modify_of_get? h)

/-- Of two writings over a record the last one counts. -/
theorem insert_insert (h : records[id]? = some a) (b c : α) : (records.insert id b).insert id c = records.insert id c := by
  have hb : (records.insert id b)[id]? = some b := Std.TreeMap.getElem?_insert_self
  rw [insert_eq_modify hb, insert_eq_modify h, insert_eq_modify h]
  exact eq_of_inner (modify_modify _ _ _ _)

end Records

end Microkernel
