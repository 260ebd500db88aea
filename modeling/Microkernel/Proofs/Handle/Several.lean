import Microkernel.Proofs.Handle.Soundness

/-!
# Several handles at once

Binding several objects one after the other (`HandleTable.Binds`) adds their bindings (`Adds`), under handles that were not in use;
releasing several handles (`releaseAll`) takes theirs away. What is left depends on which of the two sides is released.
-/

namespace Microkernel.HandleTable

variable {α : Type} {t t' t'' : HandleTable α}

/-- How many more objects the table takes. -/
def room (t : HandleTable α) : Nat := t.capacity - t.count

/-- A table is full, or it takes one object more. -/
theorem generate_cases (t : HandleTable α) (o : α) :
    (t.room = 0 ∧ t.generate o = .error (.outOfHandles t.capacity)) ∨ ∃ h t', t.generate o = .ok (h, t') ∧ t'.room + 1 = t.room := by
  by_cases hc : t.capacity ≤ t.count
  · exact .inl ⟨Nat.sub_eq_zero_of_le hc, generate_of_full hc o⟩
  · refine .inr ?_
    obtain ⟨slots, free, capacity, nextLinearId, count⟩ := t
    have hroom : capacity - (count + 1) + 1 = capacity - count := by
      dsimp only at hc
      omega
    unfold generate
    simp only [if_neg hc]
    cases free with
    | nil => exact ⟨_, _, rfl, hroom⟩
    | cons index free => exact ⟨_, _, rfl, hroom⟩

/-- An object that was bound is bound as the table says. -/
theorem Sound.bound_of_generate (hs : t.Sound) {o : α} {h : Handle} (hg : t.generate o = .ok (h, t')) : t.Bound o h t' := by
  by_cases hc : t.count < t.capacity
  · obtain ⟨h₁, t₁, he, hb⟩ := hs.generate hc o
    obtain ⟨rfl, rfl⟩ := Prod.mk.inj (Except.ok.inj (hg.symm.trans he))
    exact hb
  · cases hg.symm.trans (generate_of_full (Nat.le_of_not_lt hc) o)

/-- A handle that was closed named the object that came back. -/
theorem Sound.unbound_of_close (hs : t.Sound) {o : α} {h : Handle} (hc : t.close h = .ok (o, t')) : t.Unbound h o t' := by
  cases hr : t.resolve h with
  | none => cases hc.symm.trans (close_of_none hr)
  | some o₁ =>
    obtain ⟨t₁, he, hu⟩ := hs.close hr
    obtain ⟨rfl, rfl⟩ := Prod.mk.inj (Except.ok.inj (hc.symm.trans he))
    exact hu

/-! ## What is added -/

/-- The bindings of the first table and those of the handles to the objects are the bindings of the second. -/
structure Adds (t : HandleTable α) (handles : List Handle) (objects : List α) (t' : HandleTable α) : Prop where
  sound : t'.Sound
  length_eq : handles.length = objects.length
  bindings : t'.bindings.Perm (handles.zip objects ++ t.bindings)

/-- Handles that are bound to objects resolve to them, in order. -/
theorem Sound.map_resolve (hs : t.Sound) {handles : List Handle} {objects : List α} {rest : List (Handle × α)}
    (hl : handles.length = objects.length) (hp : t.bindings.Perm (handles.zip objects ++ rest)) :
    handles.map t.resolve = objects.map some := by
  have hhandles : (handles.zip objects).map (·.1) = handles := List.map_fst_zip (Nat.le_of_eq hl)
  have hobjects : (handles.zip objects).map (·.2) = objects := List.map_snd_zip (Nat.le_of_eq hl.symm)
  calc handles.map t.resolve
      = ((handles.zip objects).map (·.1)).map t.resolve := by rw [hhandles]
    _ = (handles.zip objects).map fun b => t.resolve b.1 := List.map_map
    _ = (handles.zip objects).map fun b => some b.2 := by
      refine List.map_congr_left fun b hb => (hs.resolve_eq_some_iff b.1 b.2).2 ?_
      exact hp.mem_iff.2 (List.mem_append_left _ hb)
    _ = ((handles.zip objects).map (·.2)).map some := List.map_map.symm
    _ = objects.map some := by rw [hobjects]

namespace Adds

variable {handles : List Handle} {objects : List α}

/-- No handle adds nothing. -/
theorem refl (hs : t.Sound) : t.Adds [] [] t := ⟨hs, rfl, List.Perm.refl _⟩

/-- The handles are those of the bindings that were added. -/
theorem map_handles (ha : t.Adds handles objects t') : (handles.zip objects).map (·.1) = handles :=
  List.map_fst_zip (Nat.le_of_eq ha.length_eq)

/-- The added handles differ from each other and from those before. -/
theorem nodup_append (ha : t.Adds handles objects t') : (handles ++ t.bindings.map (·.1)).Nodup := by
  have hnd := (ha.bindings.map (·.1)).nodup_iff.1 ha.sound.nodup_handles
  rw [List.map_append, ha.map_handles] at hnd
  exact hnd

/-- No handle is added twice. -/
theorem nodup (ha : t.Adds handles objects t') : handles.Nodup := (List.nodup_append.1 ha.nodup_append).1

/-- The added handles named nothing before. -/
theorem fresh (ha : t.Adds handles objects t') (hs : t.Sound) : ∀ h ∈ handles, t.resolve h = none := by
  intro h hh
  cases hr : t.resolve h with
  | none => rfl
  | some o =>
    have hm := List.mem_map_of_mem (f := (·.1)) ((hs.resolve_eq_some_iff h o).1 hr)
    exact absurd rfl ((List.nodup_append.1 ha.nodup_append).2.2 h hh h hm)

/-- An added handle is none of the two that name the caller. -/
theorem not_isPseudo (ha : t.Adds handles objects t') : ∀ h ∈ handles, h.isPseudo = false := by
  intro h hh
  rw [← ha.map_handles] at hh
  obtain ⟨b, hb, rfl⟩ := List.mem_map.1 hh
  have hr := (ha.sound.resolve_eq_some_iff b.1 b.2).2 (ha.bindings.mem_iff.2 (List.mem_append_left _ hb))
  unfold resolve at hr
  split at hr
  · next hi =>
    simp only [Handle.isIssuable, Bool.and_eq_true, Bool.not_eq_true'] at hi
    exact hi.1.1
  · cases hr

end Adds

/-! ## Binding -/

/-- Objects are bound one after the other, each to its handle. -/
inductive Binds : HandleTable α → List Handle → List α → HandleTable α → Prop
  | nil (t : HandleTable α) : Binds t [] [] t
  | cons {t t' t'' : HandleTable α} {h : Handle} {o : α} {handles : List Handle} {objects : List α}
      (first : t.generate o = .ok (h, t')) (rest : Binds t' handles objects t'') : Binds t (h :: handles) (o :: objects) t''

namespace Binds

variable {handles handles' : List Handle} {objects objects' : List α}

/-- There are as many handles as objects. -/
theorem length_eq (hb : Binds t handles objects t') : handles.length = objects.length := by
  induction hb with
  | nil => rfl
  | cons first rest ih => rw [List.length_cons, List.length_cons, ih]

/-- Every object takes a place. -/
theorem room_add (hb : Binds t handles objects t') : t'.room + handles.length = t.room := by
  induction hb with
  | nil => rfl
  | cons first rest ih =>
    next t _ _ _ o _ _ =>
    rcases t.generate_cases o with ⟨-, he⟩ | ⟨h', t₁', he, hroom⟩
    · rw [he] at first
      cases first
    · obtain ⟨rfl, rfl⟩ := Prod.mk.inj (Except.ok.inj (he.symm.trans first))
      rw [List.length_cons, ← hroom, ← ih]
      omega

/-- Objects bound in two rounds are bound in a row. -/
theorem append (hb : Binds t handles objects t') (hb' : Binds t' handles' objects' t'') :
    Binds t (handles ++ handles') (objects ++ objects') t'' := by
  induction hb with
  | nil => exact hb'
  | cons first rest ih => exact .cons first (ih hb')

/-- In a sound table the bindings of the objects are added. -/
theorem adds (hb : Binds t handles objects t') (hs : t.Sound) : t.Adds handles objects t' := by
  induction hb with
  | nil => exact ⟨hs, rfl, List.Perm.refl _⟩
  | cons first rest ih =>
    next t t₁ _ h o _ _ =>
    by_cases hc : t.capacity ≤ t.count
    · rw [generate_of_full hc] at first
      cases first
    · obtain ⟨h', t₁', he, hbound⟩ := hs.generate (Nat.not_le.1 hc) o
      obtain ⟨rfl, rfl⟩ := Prod.mk.inj (Except.ok.inj (he.symm.trans first))
      have hrest := ih hbound.sound
      constructor
      case sound => exact hrest.sound
      case length_eq => rw [List.length_cons, List.length_cons, hrest.length_eq]
      case bindings => exact hrest.bindings.trans ((hbound.bindings.append_left _).trans List.perm_middle)

end Binds

/-! ## Releasing -/

/-- The table without a handle, if it is one of its own. -/
def release (t : HandleTable α) (h : Handle) : HandleTable α :=
  match t.close h with
  | .ok (_, t) => t
  | .error _ => t

/-- The table without several handles. -/
def releaseAll (t : HandleTable α) (handles : List Handle) : HandleTable α := handles.foldl release t

/-- A filter that lets every handle in use pass lets every binding pass. -/
theorem Sound.filter_bindings (hs : t.Sound) {p : Handle × α → Bool} (hp : ∀ h o, t.resolve h = some o → p (h, o) = true) :
    t.bindings.filter p = t.bindings := by
  rw [List.filter_eq_self]
  rintro ⟨h, o⟩ hb
  exact hp h o ((hs.resolve_eq_some_iff h o).2 hb)

/-- Closing a handle filters its binding out. -/
theorem Unbound.filter_perm {h : Handle} {o : α} (hu : t.Unbound h o t') (hs : t.Sound) :
    t'.bindings.Perm (t.bindings.filter fun b => b.1 ≠ h) := by
  have hnone := hu.sound.resolve_eq_none_of_perm hs hu.bindings
  have hkeep : t'.bindings.filter (fun b => b.1 ≠ h) = t'.bindings := by
    refine hu.sound.filter_bindings fun h' o' hr => ?_
    refine decide_eq_true fun he => ?_
    rw [show h' = h from he, hnone] at hr
    cases hr
  have hp := (hu.bindings.filter fun b => b.1 ≠ h).symm
  rw [List.filter_cons_of_neg (by simp), hkeep] at hp
  exact hp

namespace Sound

/-- Releasing a handle takes its binding away. -/
theorem release (hs : t.Sound) (h : Handle) : (t.release h).Sound ∧
    (t.release h).bindings.Perm (t.bindings.filter fun b => b.1 ≠ h) ∧ (t.release h).capacity = t.capacity := by
  unfold HandleTable.release
  cases hr : t.resolve h with
  | none =>
    rw [close_of_none hr]
    have hkeep : t.bindings.filter (fun b => b.1 ≠ h) = t.bindings := by
      refine hs.filter_bindings fun h' o' hr' => ?_
      refine decide_eq_true fun he => ?_
      rw [show h' = h from he, hr] at hr'
      cases hr'
    exact ⟨hs, List.Perm.of_eq hkeep.symm, rfl⟩
  | some o =>
    obtain ⟨t', he, hu⟩ := hs.close hr
    rw [he]
    exact ⟨hu.sound, hu.filter_perm hs, hu.capacity⟩

/-- Releasing handles takes their bindings away and leaves the others. -/
theorem releaseAll (hs : t.Sound) (handles : List Handle) : (t.releaseAll handles).Sound ∧
    (t.releaseAll handles).bindings.Perm (t.bindings.filter fun b => b.1 ∉ handles) ∧
    (t.releaseAll handles).capacity = t.capacity := by
  induction handles generalizing t with
  | nil =>
    exact ⟨hs, List.Perm.of_eq (hs.filter_bindings fun h o _ => by simp).symm, rfl⟩
  | cons h rest ih =>
    obtain ⟨hs', hp, hc⟩ := hs.release h
    obtain ⟨hs'', hp', hc'⟩ := ih hs'
    refine ⟨hs'', hp'.trans ?_, hc'.trans hc⟩
    have hq := hp.filter fun b => b.1 ∉ rest
    rw [List.filter_filter] at hq
    refine hq.trans (List.Perm.of_eq (List.filter_congr fun b _ => ?_))
    by_cases h1 : b.1 = h <;> simp [h1]

end Sound

/-- Handles released in two rounds are released in a row. -/
theorem releaseAll_append (t : HandleTable α) (handles handles' : List Handle) :
    t.releaseAll (handles ++ handles') = (t.releaseAll handles).releaseAll handles' := List.foldl_append

namespace Adds

variable {handles released : List Handle} {objects : List α}

/-- Releasing handles takes their bindings away, from those that were added and from those before. -/
theorem releaseAll_perm (ha : t.Adds handles objects t') (released : List Handle) : (t'.releaseAll released).bindings.Perm
    ((handles.zip objects).filter (fun b => b.1 ∉ released) ++ t.bindings.filter fun b => b.1 ∉ released) := by
  have hp := (ha.sound.releaseAll released).2.1.trans (ha.bindings.filter _)
  rw [List.filter_append] at hp
  exact hp

/-- Releasing some of the added handles leaves those before alone. -/
theorem releaseAll_added (ha : t.Adds handles objects t') (hs : t.Sound) (hr : ∀ h ∈ released, h ∈ handles) :
    (t'.releaseAll released).bindings.Perm ((handles.zip objects).filter (fun b => b.1 ∉ released) ++ t.bindings) := by
  have hold : t.bindings.filter (fun b => b.1 ∉ released) = t.bindings := by
    refine hs.filter_bindings fun h o hres => decide_eq_true fun hh => ?_
    rw [ha.fresh hs h (hr h hh)] at hres
    cases hres
  have hp := ha.releaseAll_perm released
  rw [hold] at hp
  exact hp

/-- Releasing handles that were there before, or name nothing, leaves the added ones alone. -/
theorem releaseAll_before (ha : t.Adds handles objects t') (hr : ∀ h ∈ handles, h ∉ released) :
    (t'.releaseAll released).bindings.Perm (handles.zip objects ++ t.bindings.filter fun b => b.1 ∉ released) := by
  have hnew : (handles.zip objects).filter (fun b => b.1 ∉ released) = handles.zip objects := by
    rw [List.filter_eq_self]
    rintro ⟨h, o⟩ hm
    exact decide_eq_true (hr h (List.of_mem_zip hm).1)
  have hp := ha.releaseAll_perm released
  rw [hnew] at hp
  exact hp

/-- Releasing all that was added, in whatever order, gives the bindings back that were there before. -/
theorem releaseAll_all (ha : t.Adds handles objects t') (hs : t.Sound) (hr : released.Perm handles) :
    t.Adds [] [] (t'.releaseAll released) := by
  have hnew : (handles.zip objects).filter (fun b => b.1 ∉ released) = [] := by
    rw [List.filter_eq_nil_iff]
    rintro ⟨h, o⟩ hm
    simp [hr.mem_iff, (List.of_mem_zip hm).1]
  have hp := ha.releaseAll_added hs fun h hh => hr.mem_iff.1 hh
  rw [hnew] at hp
  exact ⟨(ha.sound.releaseAll released).1, rfl, hp⟩

end Adds

end Microkernel.HandleTable
