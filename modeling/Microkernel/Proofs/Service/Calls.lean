import Microkernel.Proofs.Machine.Handles
import Microkernel.Service.Call

/-!
# The beginning and the end of calls

Importing, binding, unbinding and releasing change handle tables and nothing else that owns something (`SameButHandles`). Binding
succeeds exactly if the client has room for all that is sent (`Call.HasRoom`).
-/

namespace Microkernel

open Machine

/-! ## What only moves handles -/

namespace Call

/-- Importing a handle changes nothing but handle tables. -/
theorem importHandle_keeps (c : Call) (handle : Handle) : Keeps SameButHandles (c.importHandle handle).run := by
  have hbind (object : KernelObject) : Keeps SameButHandles (do
      return { handle := ← generateHandle c.server object } : Action InHandle).run :=
    .run_bind (generateHandle_keeps _ _) fun _ => .run_pure _
  unfold importHandle
  split
  · exact hbind _
  · exact .run_bind (resolveHandle_keeps _ _).sameButHandles fun object => hbind object

/-- Importing handles one after the other changes nothing but handle tables. -/
theorem importEach_keeps (attach : Call → Handle → InHandle → Call) (sources : List Handle) (c : Call) :
    Keeps SameButHandles (importEach attach sources c) := by
  induction sources generalizing c with
  | nil => exact .pure _
  | cons source rest ih =>
    refine (importHandle_keeps c _).bind fun result => ?_
    split
    · exact ih _
    · exact .pure _

/-- Importing does not change whose call it is. -/
theorem importEach_client (attach : Call → Handle → InHandle → Call)
    (hattach : ∀ c source h, (attach c source h).client = c.client) (sources : List Handle) (c : Call) (s : Machine) :
    (importEach attach sources c s).1.2.client = c.client := by
  induction sources generalizing c s with
  | nil => rfl
  | cons source rest ih =>
    rw [importEach, Update.run_bind]
    cases ((c.importHandle source).run s).1 with
    | ok h => exact (ih _ _).trans (hattach c source h)
    | error e => rfl

/-- Importing all handles leaves the client of the call. -/
theorem importAll_client (c : Call) (s : Machine) : (c.importAll s).1.2.client = c.client := by
  have hcopies := importEach_client attachCopy (fun _ _ _ => rfl) c.copySources c s
  rw [importAll, Update.run_bind]
  rcases hrun : importEach attachCopy c.copySources c s with ⟨⟨e | u, c'⟩, s'⟩
  · rw [hrun] at hcopies
    exact hcopies
  · rw [hrun] at hcopies
    exact (importEach_client attachMove (fun _ _ _ => rfl) c'.moveSources c' s').trans hcopies

/-- Importing all handles changes nothing but handle tables. -/
theorem importAll_keeps (c : Call) : Keeps SameButHandles c.importAll := by
  refine (importEach_keeps _ _ _).bind fun result => ?_
  split
  · exact importEach_keeps _ _ _
  · exact .pure _

/-- Dropping what was to be sent leaves what owns something. -/
theorem discard_keeps (objects : List KernelObject) (newSessions : List SessionEntry) :
    Keeps SameOwners (discard objects newSessions) := by
  refine .bind (.forIn fun object _ => ?_) fun _ => .bind (.forIn fun entry _ => ?_) fun _ => .pure _
  · split
    · exact (closeClientSession_keeps _).bind fun _ => .pure _
    · exact .pure _
  · exact (closeServerSession_keeps _).bind fun _ => .pure _

/-- Releasing a call changes nothing but handle tables. -/
theorem release_keeps (c : Call) : Keeps SameButHandles c.release := by
  refine .bind (.forIn fun h _ => ?_) fun _ => .bind (.forIn fun handle _ => ?_) fun _ => .pure _
  · split
    · exact (releaseHandle_keeps _ _).bind fun _ => .pure _
    · exact .pure _
  · exact (releaseHandle_keeps _ _).bind fun _ => .pure _

end Call

/-! ## Binding and unbinding -/

namespace Call

variable {s : Machine}

/-- Unbinding handles releases the first and unbinds the others then. -/
theorem unbind_cons (s : Machine) (client : RecordId) (h : Handle) (rest : List Handle) :
    (unbind client (h :: rest) s).2 = (unbind client rest (releaseHandle client h s).2).2 := by
  unfold unbind
  rw [List.forIn_cons]
  rfl

/-- Unbinding gives the client the table without the handles. -/
theorem unbind_rebinds (s : Machine) (client : RecordId) (handles : List Handle) :
    Rebinds s client ((s.table client).releaseAll handles) (unbind client handles s).2 := by
  induction handles generalizing s with
  | nil => exact Rebinds.refl s client
  | cons h rest ih =>
    have hfirst := releaseHandle_rebinds s client h
    have hrest := ih (releaseHandle client h s).2
    rw [hfirst.table_self] at hrest
    rw [unbind_cons]
    exact hfirst.trans hrest

/-- With room for all objects, all are bound, in order. -/
theorem bindFrom_of_room (client : RecordId) (objects : List KernelObject) (bound : List Handle)
    (h : objects.length ≤ (s.table client).room) :
    ∃ handles t s', bindFrom client bound objects s = (.ok (bound ++ handles), s') ∧ (s.table client).Binds handles objects t ∧
      Rebinds s client t s' := by
  induction objects generalizing bound s with
  | nil => exact ⟨[], _, s, by rw [List.append_nil]; rfl, .nil _, .refl s client⟩
  | cons object rest ih =>
    rw [List.length_cons] at h
    rcases (s.table client).generate_cases object with ⟨hfull, -⟩ | ⟨handle, t, hg, hroom⟩
    · omega
    · obtain ⟨s₁, hrun, hr⟩ := generateHandle_of_ok hg
      have ht := hr.table_self
      obtain ⟨handles, t', s', hrest, hb, hr'⟩ := ih (s := s₁) (bound ++ [handle]) (by rw [ht]; omega)
      rw [ht] at hb
      refine ⟨handle :: handles, t', s', ?_, .cons hg hb, hr.trans hr'⟩
      rw [bindFrom, Update.run_bind, hrun]
      rw [List.append_assoc] at hrest
      exact hrest

/-- Without room for all, those that were bound are unbound again. -/
theorem bindFrom_of_full (client : RecordId) (objects : List KernelObject) (bound : List Handle)
    (h : (s.table client).room < objects.length) :
    ∃ handles some t s', bindFrom client bound objects s = (.error .outOfHandles, s') ∧ (s.table client).Binds handles some t ∧
      Rebinds s client (t.releaseAll (bound ++ handles)) s' := by
  induction objects generalizing bound s with
  | nil => exact absurd h (Nat.not_lt_zero _)
  | cons object rest ih =>
    rw [List.length_cons] at h
    rcases (s.table client).generate_cases object with ⟨-, hg⟩ | ⟨handle, t, hg, hroom⟩
    · obtain ⟨s₁, hrun, hs⟩ := generateHandle_of_error hg
      have hr := Rebinds.ofOwners hs client
      have hu := unbind_rebinds s₁ client bound
      rw [hr.table_self] at hu
      refine ⟨[], [], _, (unbind client bound s₁).2, ?_, .nil _, ?_⟩
      · rw [bindFrom, Update.run_bind, hrun]
        rfl
      · rw [List.append_nil]
        exact hr.trans hu
    · obtain ⟨s₁, hrun, hr⟩ := generateHandle_of_ok hg
      have ht := hr.table_self
      obtain ⟨handles, some, t', s', hrest, hb, hr'⟩ := ih (s := s₁) (bound ++ [handle]) (by rw [ht]; omega)
      rw [ht] at hb
      refine ⟨handle :: handles, object :: some, t', s', ?_, .cons hg hb, ?_⟩
      · rw [bindFrom, Update.run_bind, hrun]
        exact hrest
      · rw [List.append_assoc] at hr'
        exact hr.trans hr'

/-- The client has room for all that the call sends. -/
def HasRoom (c : Call) (s : Machine) : Prop := c.copyOut.length + c.moveOut.length ≤ (s.table c.client).room

instance (c : Call) (s : Machine) : Decidable (c.HasRoom s) := inferInstanceAs (Decidable (_ ≤ _))

/-- With room for all that is sent, the writes decide: if all succeed the handles stay, and otherwise they are unbound. -/
theorem commit_of_room {c : Call} (h : c.HasRoom s) : ∃ copies moves t s₁,
    (s.table c.client).Binds (copies ++ moves) (c.copyOut ++ c.moveOut) t ∧ copies.length = c.copyOut.length ∧
    Rebinds s c.client t s₁ ∧
    c.commit s =
      match (applyWrites c.client c.writes).run s₁ with
      | (.ok (), s) => (.ok (copies, moves), s)
      | (.error e, s) => (.error e, (unbind c.client moves (unbind c.client copies s).2).2) := by
  unfold HasRoom at h
  obtain ⟨copies, t, s₁, hcopies, hb, hr⟩ := bindFrom_of_room (s := s) c.client c.copyOut [] (by omega)
  have hroom := hb.room_add
  rw [hb.length_eq] at hroom
  obtain ⟨moves, t', s₂, hmoves, hb', hr'⟩ := bindFrom_of_room (s := s₁) c.client c.moveOut []
    (by rw [hr.table_self]; omega)
  rw [hr.table_self] at hb'
  refine ⟨copies, moves, t', s₂, hb.append hb', hb.length_eq, hr.trans hr', ?_⟩
  rw [List.nil_append] at hcopies hmoves
  rw [commit, Update.run_bind, hcopies]
  dsimp only
  rw [Update.run_bind, hmoves]
  dsimp only
  rw [Update.run_bind]
  rcases (applyWrites c.client c.writes).run s₂ with ⟨_ | _, s₃⟩ <;> rfl

/-- Without room for all that is sent nothing is written, and what was bound is unbound again. -/
theorem commit_of_full {c : Call} (h : ¬c.HasRoom s) : ∃ handles some released t s',
    (s.table c.client).Binds handles some t ∧ released.Perm handles ∧ Rebinds s c.client (t.releaseAll released) s' ∧
    c.commit s = (.error .outOfHandles, s') := by
  unfold HasRoom at h
  by_cases hc : c.copyOut.length ≤ (s.table c.client).room
  · obtain ⟨copies, t, s₁, hcopies, hb, hr⟩ := bindFrom_of_room (s := s) c.client c.copyOut [] hc
    have hroom := hb.room_add
    rw [hb.length_eq] at hroom
    obtain ⟨moves, some, t', s₂, hmoves, hb', hr'⟩ := bindFrom_of_full (s := s₁) c.client c.moveOut []
      (by rw [hr.table_self]; omega)
    have hu := unbind_rebinds s₂ c.client copies
    rw [hr.table_self] at hb'
    rw [hr'.table_self, ← HandleTable.releaseAll_append] at hu
    refine ⟨copies ++ moves, c.copyOut ++ some, moves ++ copies, t', (unbind c.client copies s₂).2, hb.append hb',
      List.perm_append_comm, (hr.trans hr').trans hu, ?_⟩
    rw [List.nil_append] at hcopies
    rw [commit, Update.run_bind, hcopies]
    dsimp only
    rw [Update.run_bind, hmoves]
    rfl
  · obtain ⟨copies, some, t, s₁, hcopies, hb, hr⟩ := bindFrom_of_full (s := s) c.client c.copyOut [] (Nat.not_le.1 hc)
    refine ⟨copies, some, copies, t, s₁, hb, List.Perm.refl _, hr, ?_⟩
    rw [commit, Update.run_bind, hcopies]
    rfl

/-! ## Releasing -/

/-- The handles of what is attached and not kept. -/
def unkept (handles : List InHandle) : List Handle := (handles.filter fun h => !h.kept).map InHandle.handle

/-- The first loop of `release` unbinds what is not kept. -/
theorem forIn_unkept (server : RecordId) (handles : List InHandle) (s : Machine) :
    ((forIn handles PUnit.unit fun h _ => do
      if !h.kept then releaseHandle server h.handle
      return .yield PUnit.unit : Update PUnit) s).2 = (unbind server (unkept handles) s).2 := by
  induction handles generalizing s with
  | nil => rfl
  | cons h rest ih =>
    rw [List.forIn_cons]
    cases hk : h.kept with
    | true =>
      have hskip : unkept (h :: rest) = unkept rest := by simp [unkept, hk]
      rw [hskip]
      exact ih s
    | false =>
      have htake : unkept (h :: rest) = h.handle :: unkept rest := by simp [unkept, hk]
      rw [htake, unbind_cons]
      exact ih _

/-- At the end of a call the server loses what is not kept, and then the client what it moved. -/
theorem release_rebinds (c : Call) (s : Machine) : ∃ s₁,
    Rebinds s c.server ((s.table c.server).releaseAll (unkept (c.copyIn ++ c.moveIn))) s₁ ∧
    Rebinds s₁ c.client ((s₁.table c.client).releaseAll c.movedSources) (c.release s).2 := by
  have hrun : (c.release s).2 = (unbind c.client c.movedSources (unbind c.server (unkept (c.copyIn ++ c.moveIn)) s).2).2 := by
    rw [← forIn_unkept]
    rfl
  rw [hrun]
  exact ⟨_, unbind_rebinds _ _ _, unbind_rebinds _ _ _⟩

end Call

end Microkernel
