import Microkernel.Proofs.Service.Conservation

/-!
# What a call holds

Every handle that a call may release at its end, in the server or in the client, names something from the moment it is attached
(`Holds`). So no handle that is bound later, for what the call sends, is among them.
-/

namespace Microkernel

open Machine

variable {α : Type}

/-! ## What stays of a table -/

namespace HandleTable

variable {t t' : HandleTable α} {handles : List Handle} {objects : List α}

/-- Releasing other handles leaves a binding as it is. -/
theorem Sound.resolve_releaseAll (hs : t.Sound) {h : Handle} {o : α} (hr : t.resolve h = some o) (hh : h ∉ handles) :
    (t.releaseAll handles).resolve h = some o := by
  obtain ⟨hsound, hbindings, -⟩ := hs.releaseAll handles
  refine (hsound.resolve_eq_some_iff h o).2 (hbindings.mem_iff.2 ?_)
  exact List.mem_filter.2 ⟨(hs.resolve_eq_some_iff h o).1 hr, decide_eq_true hh⟩

/-- Adding bindings leaves those that are there. -/
theorem Adds.resolve_of_some (ha : t.Adds handles objects t') (hs : t.Sound) {h : Handle} {o : α} (hr : t.resolve h = some o) :
    t'.resolve h = some o :=
  (ha.sound.resolve_eq_some_iff h o).2 (ha.bindings.mem_iff.2 (List.mem_append_right _ ((hs.resolve_eq_some_iff h o).1 hr)))

/-- Every table that operations lead to is sound. -/
theorem sound_of_run (h : ∃ capacity operations, t = (run capacity operations).1) : t.Sound := by
  obtain ⟨capacity, operations, rfl⟩ := h
  exact (represents_run capacity operations).1.sound

end HandleTable

/-- Sound tables stay sound, and every handle in use goes on naming what it names. -/
def Extends (s t : Machine) : Prop := ∀ process, (s.table process).Sound → (t.table process).Sound ∧
  ∀ handle object, (s.table process).resolve handle = some object → (t.table process).resolve handle = some object

/-- Where owners stay as they are, tables are extended by nothing. -/
theorem SameOwners.extends {s t : Machine} (h : SameOwners s t) : Extends s t := by
  intro process hs
  rw [h.table]
  exact ⟨hs, fun _ _ hr => hr⟩

/-- Binding objects extends the tables. -/
theorem Rebinds.extends {s s' : Machine} {process : RecordId} {t : HandleTable KernelObject} {handles : List Handle}
    {objects : List KernelObject} (hr : Rebinds s process t s') (hb : (s.table process).Binds handles objects t) :
    Extends s s' := by
  intro other hs
  rw [hr.table]
  split
  · next ho =>
    subst ho
    exact ⟨(hb.adds hs).sound, fun _ _ => (hb.adds hs).resolve_of_some hs⟩
  · exact ⟨hs, fun _ _ hr => hr⟩

/-! ## What a call attaches -/

namespace Call

/-- Importing changes nothing of a call but what is attached. -/
theorem importEach_call (attach : Call → Handle → InHandle → Call)
    (hattach : ∀ c source h, ∃ copyIn moveIn movedSources, attach c source h = { c with copyIn, moveIn, movedSources })
    (sources : List Handle) (c : Call) (s : Machine) :
    ∃ copyIn moveIn movedSources, (importEach attach sources c s).1.2 = { c with copyIn, moveIn, movedSources } := by
  induction sources generalizing c s with
  | nil => exact ⟨_, _, _, rfl⟩
  | cons source rest ih =>
    rw [importEach, Update.run_bind]
    cases ((c.importHandle source).run s).1 with
    | ok h =>
      obtain ⟨copyIn, moveIn, movedSources, hfirst⟩ := hattach c source h
      obtain ⟨copyIn', moveIn', movedSources', hrest⟩ := ih (attach c source h) ((c.importHandle source).run s).2
      exact ⟨copyIn', moveIn', movedSources', by rw [hrest, hfirst]⟩
    | error e => exact ⟨_, _, _, rfl⟩

/-- Importing notes what was attached and what was moved, and changes nothing else of the call. -/
theorem importAll_call (c : Call) (s : Machine) :
    ∃ copyIn moveIn movedSources, (c.importAll s).1.2 = { c with copyIn, moveIn, movedSources } := by
  obtain ⟨copyIn, moveIn, movedSources, hcopies⟩ :=
    importEach_call attachCopy (fun _ _ _ => ⟨_, _, _, rfl⟩) c.copySources c s
  rw [importAll, Update.run_bind]
  rcases hrun : importEach attachCopy c.copySources c s with ⟨⟨e | u, c'⟩, s'⟩ <;> rw [hrun] at hcopies
  · exact ⟨_, _, _, hcopies⟩
  · obtain ⟨copyIn', moveIn', movedSources', hmoves⟩ :=
      importEach_call attachMove (fun _ _ _ => ⟨_, _, _, rfl⟩) c'.moveSources c' s'
    have hcall : c' = { c with copyIn, moveIn, movedSources } := hcopies
    exact ⟨copyIn', moveIn', movedSources', by rw [hmoves, hcall]⟩

/-- A handle of the server that a call may release at its end names something. -/
def Attached (c : Call) (s : Machine) (h : InHandle) : Prop := ∃ object, (s.table c.server).resolve h.handle = some object

/-- A handle of the client that a call may release at its end names something, or the client itself. -/
def Movable (c : Call) (s : Machine) (handle : Handle) : Prop :=
  handle.isPseudo = true ∨ ∃ object, (s.table c.client).resolve handle = some object

/-- The tables of both sides are sound, and all that the call will release names something. -/
structure Holds (c : Call) (s : Machine) : Prop where
  server : (s.table c.server).Sound
  client : (s.table c.client).Sound
  attached : ∀ h ∈ c.copyIn ++ c.moveIn, c.Attached s h
  moved : ∀ handle ∈ c.movedSources, c.Movable s handle

section

variable {c : Call} {s t : Machine} {source : Handle}

/-- An attached handle goes on naming something as tables are extended. -/
theorem Attached.extends {h : InHandle} (ha : c.Attached s h) (hs : (s.table c.server).Sound) (ht : Extends s t) :
    c.Attached t h :=
  ha.imp fun _ => (ht _ hs).2 _ _

/-- A moved handle goes on naming something as tables are extended. -/
theorem Movable.extends (hm : c.Movable s source) (hs : (s.table c.client).Sound) (ht : Extends s t) : c.Movable t source :=
  hm.imp_right fun h => h.imp fun _ => (ht _ hs).2 _ _

/-- A call that holds goes on holding as tables are extended. -/
theorem Holds.extends (hc : c.Holds s) (ht : Extends s t) : c.Holds t where
  server := (ht _ hc.server).1
  client := (ht _ hc.client).1
  attached h hh := (hc.attached h hh).extends hc.server ht
  moved handle hh := (hc.moved handle hh).extends hc.client ht

/-- A handle is duplicated only if it names something, and its duplicate does then. -/
theorem Holds.importHandle {result : Except KernelError InHandle} (hc : c.Holds s)
    (h : (c.importHandle source).run s = (result, t)) :
    c.Holds t ∧ ∀ i, result = .ok i → c.Attached t i ∧ c.Movable t source := by
  cases ho : c.sourceObject s source with
  | none =>
    rw [importHandle_of_none ho] at h
    obtain ⟨rfl, rfl⟩ := Prod.mk.inj h
    exact ⟨hc, fun i hi => nomatch hi⟩
  | some object =>
    rw [importHandle_of_some ho] at h
    rcases (s.table c.server).generate_cases object with ⟨-, hg⟩ | ⟨handle, table, hg, -⟩
    · obtain ⟨s', hrun, hs⟩ := generateHandle_of_error hg
      rw [hrun] at h
      obtain ⟨rfl, rfl⟩ := Prod.mk.inj h
      exact ⟨hc.extends hs.extends, fun i hi => nomatch hi⟩
    · obtain ⟨s', hrun, hr⟩ := generateHandle_of_ok hg
      have hbinds : (s.table c.server).Binds [handle] [object] table := .cons hg (.nil _)
      have hadds := hbinds.adds hc.server
      rw [hrun] at h
      obtain ⟨rfl, rfl⟩ := Prod.mk.inj h
      refine ⟨hc.extends (hr.extends hbinds), fun i hi => ?_⟩
      obtain rfl := Except.ok.inj hi
      constructor
      · refine ⟨object, ?_⟩
        rw [hr.table_self]
        exact (hadds.sound.resolve_eq_some_iff handle object).2 (hadds.bindings.mem_iff.2 List.mem_cons_self)
      · have hsource : c.Movable s source := by
          unfold sourceObject at ho
          split at ho
          · next hp =>
            rw [hp]
            exact .inl rfl
          · exact .inr ⟨object, ho⟩
        exact hsource.extends hc.client (hr.extends hbinds)

end

/-- Handles are attached one after the other, and none of them loses its name. -/
theorem Holds.importEach_holds (attach : Call → Handle → InHandle → Call)
    (hattach : ∀ {c s source h}, Holds c s → c.Attached s h → c.Movable s source → (attach c source h).Holds s)
    (sources : List Handle) {c : Call} {s : Machine} (hc : c.Holds s) :
    (importEach attach sources c s).1.2.Holds (importEach attach sources c s).2 := by
  induction sources generalizing c s with
  | nil => exact hc
  | cons source rest ih =>
    rw [importEach, Update.run_bind]
    rcases hrun : (c.importHandle source).run s with ⟨e | h, t⟩
    · exact (hc.importHandle hrun).1
    · obtain ⟨hsame, hnew⟩ := hc.importHandle hrun
      exact ih (hattach hsame (hnew h rfl).1 (hnew h rfl).2)

/-- A call that holds may note a copied handle that names something. -/
theorem Holds.attachCopy {c : Call} {s : Machine} {source : Handle} {h : InHandle} (hc : c.Holds s) (ha : c.Attached s h) :
    (attachCopy c source h).Holds s where
  server := hc.server
  client := hc.client
  attached i hi := by
    rcases List.mem_append.1 hi with hcopy | hmove
    · rcases List.mem_append.1 hcopy with hold | hnew
      · exact hc.attached i (List.mem_append_left _ hold)
      · rw [List.mem_singleton.1 hnew]
        exact ha
    · exact hc.attached i (List.mem_append_right _ hmove)
  moved := hc.moved

/-- A call that holds may note a moved handle, if it names something on both sides. -/
theorem Holds.attachMove {c : Call} {s : Machine} {source : Handle} {h : InHandle} (hc : c.Holds s) (ha : c.Attached s h)
    (hm : c.Movable s source) : (attachMove c source h).Holds s where
  server := hc.server
  client := hc.client
  attached i hi := by
    rw [Call.attachMove, ← List.append_assoc] at hi
    rcases List.mem_append.1 hi with hold | hnew
    · exact hc.attached i hold
    · rw [List.mem_singleton.1 hnew]
      exact ha
  moved handle hh := by
    rcases List.mem_append.1 hh with hold | hnew
    · exact hc.moved handle hold
    · rw [List.mem_singleton.1 hnew]
      exact hm

/-- Whatever can be imported, the call holds it. -/
theorem Holds.importAll_holds {c : Call} {s : Machine} (hc : c.Holds s) : (c.importAll s).1.2.Holds (c.importAll s).2 := by
  have hcopies := hc.importEach_holds Call.attachCopy (fun hc ha _ => hc.attachCopy ha) c.copySources
  rw [importAll, Update.run_bind]
  rcases hrun : importEach Call.attachCopy c.copySources c s with ⟨⟨e | u, c'⟩, s'⟩ <;> rw [hrun] at hcopies
  · exact hcopies
  · exact hcopies.importEach_holds Call.attachMove (fun hc ha hm => hc.attachMove ha hm) c'.moveSources

/-- A handler that leaves the tables alone leaves the call with all that it holds. -/
theorem Holds.handler {c c' : Call} {s s' : Machine} (hc : c.Holds s) (h : TableFrame (c, s) (c', s')) : c'.Holds s' := by
  have hhandles : (c'.copyIn ++ c'.moveIn).map InHandle.handle = (c.copyIn ++ c.moveIn).map InHandle.handle := by
    rw [List.map_append, List.map_append, h.copyIn, h.moveIn]
  constructor
  case server =>
    rw [h.server, h.table]
    exact hc.server
  case client =>
    rw [h.client, h.table]
    exact hc.client
  case attached =>
    intro i hi
    have hmem : i.handle ∈ (c.copyIn ++ c.moveIn).map InHandle.handle := hhandles ▸ List.mem_map_of_mem hi
    obtain ⟨j, hj, hij⟩ := List.mem_map.1 hmem
    unfold Attached
    rw [h.server, h.table, ← hij]
    exact hc.attached j hj
  case moved =>
    intro handle hh
    rw [h.movedSources] at hh
    unfold Movable
    rw [h.client, h.table]
    exact hc.moved handle hh

/-- What was bound in the client for a response is not released with what the call holds. -/
theorem Holds.resolve_release {c : Call} {handled : Option (Except HandlerFailure Unit × Call)} {response : Wire.Response}
    {s t : Machine} (hc : c.Holds s) (hd : c.Delivers handled s response t) {handle : Handle} {object : KernelObject}
    (hh : handle ∈ response.handles) (hr : (t.table c.client).resolve handle = some object) :
    ((c.release t).2.table c.client).resolve handle = some object := by
  have hnone := hd.client.fresh hc.client handle hh
  have hmoved : handle ∉ c.movedSources := by
    intro hm
    rcases hc.moved handle hm with hp | ⟨old, hold⟩
    · rw [hd.client.not_isPseudo handle hh] at hp
      cases hp
    · rw [hnone] at hold
      cases hold
  obtain ⟨u, hserver, hclient⟩ := c.release_rebinds t
  have hbetween : (u.table c.client).Sound ∧ (u.table c.client).resolve handle = some object := by
    rw [hserver.table]
    split
    · next hsame =>
      rw [← hsame]
      refine ⟨(hd.client.sound.releaseAll _).1, hd.client.sound.resolve_releaseAll hr fun hu => ?_⟩
      obtain ⟨i, hi, rfl⟩ := List.mem_map.1 hu
      obtain ⟨old, hold⟩ := hc.attached i (List.mem_filter.1 hi).1
      rw [← hsame, hnone] at hold
      cases hold
    · exact ⟨hd.client.sound, hr⟩
  rw [hclient.table_self]
  exact hbetween.1.resolve_releaseAll hbetween.2 hmoved

end Call

end Microkernel
