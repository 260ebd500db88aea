import Microkernel.Proofs.Service.Calls

/-!
# Importing

The handles that a request attaches are duplicated into the server one after the other, copied ones first. `importAll_run` says how far
that goes: up to the first handle that names nothing in the client, and as far as the server has room (`Call.importable`).
-/

namespace Microkernel.Call

open Machine

/-- The object that an attached handle names: the client itself, or what the client's table says. -/
def sourceObject (c : Call) (s : Machine) (source : Handle) : Option KernelObject :=
  if source = .currentProcess then some (.process c.client) else (s.table c.client).resolve source

/-- The sources that can be duplicated: those before the first that names nothing, as far as the server has room. -/
def importable (c : Call) (s : Machine) (sources : List Handle) : List Handle :=
  (sources.takeWhile fun source => (c.sourceObject s source).isSome).take (s.table c.server).room

/-- The call with handles noted one after the other. -/
def attachAll (attach : Call → Handle → InHandle → Call) (c : Call) (sources handles : List Handle) : Call :=
  (sources.zip handles).foldl (fun c p => attach c p.1 { handle := p.2 }) c

variable {c : Call} {s : Machine} {source : Handle}

/-- A handle that names nothing cannot be duplicated. -/
theorem importHandle_of_none (h : c.sourceObject s source = none) :
    (c.importHandle source).run s = (.error (.invalidHandle source.raw.toNat), s) := by
  unfold sourceObject at h
  unfold importHandle
  split at h
  · cases h
  · next hp =>
    rw [if_neg hp, Action.run_bind, resolveHandle_run, h]

/-- The object of a handle is bound in the server. -/
theorem importHandle_of_some {object : KernelObject} (h : c.sourceObject s source = some object) :
    (c.importHandle source).run s =
      match (generateHandle c.server object).run s with
      | (.ok handle, s) => (.ok { handle }, s)
      | (.error e, s) => (.error e, s) := by
  have hbind : (do return { handle := ← generateHandle c.server object } : Action InHandle).run s =
      match (generateHandle c.server object).run s with
      | (.ok handle, s) => (.ok { handle }, s)
      | (.error e, s) => (.error e, s) := by
    rw [Action.run_bind]
    rcases (generateHandle c.server object).run s with ⟨e | handle, s'⟩ <;> rfl
  unfold sourceObject at h
  unfold importHandle
  split at h
  · next hp =>
    cases h
    rw [if_pos hp]
    exact hbind
  · next hp =>
    rw [if_neg hp, Action.run_bind, resolveHandle_run, h]
    exact hbind

/-- What the client's handles name does not depend on the table of the server. -/
theorem sourceObject_of_rebinds (source : Handle) {c' : Call} {t : HandleTable KernelObject} {s' : Machine} (hr : Rebinds s c.server t s')
    (hne : c.client ≠ c.server) (hc : c'.client = c.client) :
    c'.sourceObject s' source = c.sourceObject s source := by
  unfold sourceObject
  rw [hc, hr.table_of_ne hne]

/-- Handles of a list are duplicated as far as they are importable. -/
theorem importEach_run (attach : Call → Handle → InHandle → Call)
    (hattach : ∀ c source h, (attach c source h).client = c.client ∧ (attach c source h).server = c.server)
    (sources : List Handle) (c : Call) (s : Machine) (hne : c.client ≠ c.server) : ∃ handles objects t s' result,
    importEach attach sources c s = ((result, attachAll attach c sources handles), s') ∧
    (s.table c.server).Binds handles objects t ∧ Rebinds s c.server t s' ∧
    (c.importable s sources).map (c.sourceObject s) = objects.map some ∧
    (result = .ok () ↔ c.importable s sources = sources) := by
  induction sources generalizing c s with
  | nil =>
    refine ⟨[], [], _, s, .ok (), rfl, .nil _, .refl s c.server, ?_, ?_⟩
    · simp [importable]
    · simp [importable]
  | cons source rest ih =>
    cases ho : c.sourceObject s source with
    | none =>
      have hi : c.importable s (source :: rest) = [] := by simp [importable, ho]
      refine ⟨[], [], _, s, .error (.invalidHandle source.raw.toNat), ?_, .nil _, .refl s c.server, ?_, ?_⟩
      · rw [importEach, Update.run_bind, importHandle_of_none ho]
        rfl
      · rw [hi]
        rfl
      · simp [hi]
    | some object =>
      rcases (s.table c.server).generate_cases object with ⟨hroom, hg⟩ | ⟨handle, t, hg, hroom⟩
      · obtain ⟨s₁, hrun, hs⟩ := generateHandle_of_error hg
        have hi : c.importable s (source :: rest) = [] := by simp [importable, hroom]
        refine ⟨[], [], _, s₁, .error .outOfHandles, ?_, .nil _, .ofOwners hs c.server, ?_, ?_⟩
        · rw [importEach, Update.run_bind, importHandle_of_some ho, hrun]
          rfl
        · rw [hi]
          rfl
        · simp [hi]
      · obtain ⟨s₁, hrun, hr⟩ := generateHandle_of_ok hg
        obtain ⟨hclient, hserver⟩ := hattach c source { handle }
        obtain ⟨handles, objects, t', s', result, himport, hb, hr', hobjects, hresult⟩ :=
          ih (attach c source { handle }) s₁ (by rw [hclient, hserver]; exact hne)
        rw [hserver] at hb hr'
        rw [hr.table_self] at hb
        have hsource (source : Handle) := sourceObject_of_rebinds source hr hne hclient
        have hi : c.importable s (source :: rest) = source :: (attach c source { handle }).importable s₁ rest := by
          simp only [importable, hsource, hserver, hr.table_self, List.takeWhile_cons, ho, Option.isSome_some, if_true, ← hroom,
            List.take_succ_cons]
        refine ⟨handle :: handles, object :: objects, t', s', result, ?_, .cons hg hb, hr.trans hr', ?_, ?_⟩
        · rw [importEach, Update.run_bind, importHandle_of_some ho, hrun]
          exact himport
        · rw [hi, List.map_cons, ho, List.map_cons, ← hobjects]
          congr 1
          exact (List.map_congr_left fun source _ => hsource source).symm
        · rw [hresult, hi, List.cons_inj_right]

/-! ## One list behind the other -/

/-- A list that is importable as a whole lets the next one follow, as far as there is room left. -/
theorem importable_append_of_eq {sources : List Handle} (h : c.importable s sources = sources) (more : List Handle) :
    c.importable s (sources ++ more) = sources ++
      (more.takeWhile fun source => (c.sourceObject s source).isSome).take ((s.table c.server).room - sources.length) := by
  have hlen := congrArg List.length h
  unfold importable at h ⊢
  rw [importable, List.length_take] at hlen
  have hwhile : (sources.takeWhile fun source => (c.sourceObject s source).isSome).length = sources.length := by
    have := (List.takeWhile_prefix (l := sources) fun source => (c.sourceObject s source).isSome).length_le
    omega
  rw [List.takeWhile_append, if_pos hwhile, List.take_append, List.take_of_length_le (by omega)]

/-- A list that is not importable as a whole ends the importing. -/
theorem importable_append_of_ne {sources : List Handle} (h : c.importable s sources ≠ sources) (more : List Handle) :
    c.importable s (sources ++ more) = c.importable s sources := by
  have hprefix := List.takeWhile_prefix (l := sources) fun source => (c.sourceObject s source).isSome
  unfold importable at h ⊢
  rw [List.takeWhile_append]
  split
  · next hwhile =>
    have hall := hprefix.eq_of_length hwhile
    rw [hall] at h ⊢
    rw [List.take_append_of_le_length]
    by_cases hr : (s.table c.server).room ≤ sources.length
    · exact hr
    · exact absurd (List.take_of_length_le (by omega)) h
  · rfl

/-! ## Noting what was duplicated -/

/-- An attached handle that nobody has kept yet. -/
def attached (handle : Handle) : InHandle := { handle }

/-- Noting copied handles one after the other notes them all as copied ones. -/
theorem attachAll_copy (c : Call) (sources handles : List Handle) (h : handles.length ≤ sources.length) :
    attachAll attachCopy c sources handles = { c with copyIn := c.copyIn ++ handles.map attached } := by
  induction handles generalizing sources c with
  | nil => simp [attachAll]
  | cons handle rest ih =>
    cases sources with
    | nil => simp at h
    | cons source sources =>
      have hrest := ih (attachCopy c source { handle }) sources (by simpa using h)
      have hstep : attachAll attachCopy c (source :: sources) (handle :: rest) =
          attachAll attachCopy (attachCopy c source { handle }) sources rest := rfl
      rw [hstep, hrest]
      simp [attachCopy, attached]

/-- Noting moved handles one after the other notes them all as moved ones, with what they were moved from. -/
theorem attachAll_move (c : Call) (sources handles : List Handle) (h : handles.length ≤ sources.length) :
    attachAll attachMove c sources handles =
      { c with moveIn := c.moveIn ++ handles.map attached, movedSources := c.movedSources ++ sources.take handles.length } := by
  induction handles generalizing sources c with
  | nil => simp [attachAll]
  | cons handle rest ih =>
    cases sources with
    | nil => simp at h
    | cons source sources =>
      have hrest := ih (attachMove c source { handle }) sources (by simpa using h)
      have hstep : attachAll attachMove c (source :: sources) (handle :: rest) =
          attachAll attachMove (attachMove c source { handle }) sources rest := rfl
      rw [hstep, hrest]
      simp [attachMove, attached]

/-- No more handles are duplicated than there are. -/
theorem length_importable_le (c : Call) (s : Machine) (sources : List Handle) : (c.importable s sources).length ≤ sources.length := by
  have := (List.takeWhile_prefix (l := sources) fun source => (c.sourceObject s source).isSome).length_le
  rw [importable, List.length_take]
  omega

/-- What is importable is the beginning of the list. -/
theorem take_length_importable (c : Call) (s : Machine) (sources : List Handle) :
    sources.take (c.importable s sources).length = c.importable s sources := by
  have hp : c.importable s sources <+: sources :=
    (List.take_prefix _ _).trans (List.takeWhile_prefix fun source => (c.sourceObject s source).isSome)
  exact (List.prefix_iff_eq_take.1 hp).symm

/-- The attached handles of a call: the copied ones and then the moved ones. -/
def sources (c : Call) : List Handle := c.copySources ++ c.moveSources

/-- If the copied handles are not importable as a whole, all attached ones together are not. -/
theorem importable_sources_ne (h : c.importable s c.copySources ≠ c.copySources) : c.importable s c.sources ≠ c.sources := by
  intro hall
  have hle := length_importable_le c s c.copySources
  rw [sources, importable_append_of_ne h] at hall
  rw [hall, List.length_append] at hle
  -- there is no moved handle, so the copied ones are all there are
  have hmoves : c.moveSources = [] := List.eq_nil_of_length_eq_zero (by omega)
  rw [hmoves, List.append_nil] at hall
  exact h hall

/-- Handles that were bound for the objects of sources are as many as the sources. -/
theorem length_eq_of_binds {t t' : HandleTable KernelObject} {handles sources : List Handle} {objects : List KernelObject}
    (hb : t.Binds handles objects t') (ho : sources.map (c.sourceObject s) = objects.map some) : handles.length = sources.length := by
  have hlen := congrArg List.length ho
  rw [List.length_map, List.length_map] at hlen
  rw [hb.length_eq, hlen]

/-- The handles of a call are duplicated as far as they are importable; the moved ones among them are noted. -/
theorem importAll_run (c : Call) (s : Machine) (hne : c.client ≠ c.server) (hc : c.copyIn = []) (hm : c.moveIn = [])
    (hs : c.movedSources = []) : ∃ copies moves objects t s' result,
    c.importAll s = ((result, { c with
      copyIn := copies.map attached, moveIn := moves.map attached
      movedSources := (c.importable s c.sources).drop c.copySources.length }), s') ∧
    (s.table c.server).Binds (copies ++ moves) objects t ∧ Rebinds s c.server t s' ∧
    (c.importable s c.sources).map (c.sourceObject s) = objects.map some ∧
    (result = .ok () ↔ c.importable s c.sources = c.sources) := by
  obtain ⟨copies, objects, t, s₁, result, hrun, hb, hr, hobjects, hresult⟩ :=
    importEach_run attachCopy (fun _ _ _ => ⟨rfl, rfl⟩) c.copySources c s hne
  have hlen := length_eq_of_binds hb hobjects
  rw [attachAll_copy c _ _ (by rw [hlen]; exact length_importable_le c s _), hc, List.nil_append] at hrun
  cases result with
  | error e =>
    have hstop : c.importable s c.copySources ≠ c.copySources := fun h => by simpa using hresult.2 h
    have hi : c.importable s c.sources = c.importable s c.copySources := importable_append_of_ne hstop _
    refine ⟨copies, [], objects, t, s₁, .error e, ?_, ?_, hr, ?_, ?_⟩
    · rw [importAll, Update.run_bind, hrun, hi, List.drop_of_length_le (length_importable_le c s _), List.map_nil, ← hm, ← hs]
      rfl
    · rw [List.append_nil]
      exact hb
    · rw [hi]
      exact hobjects
    · exact iff_of_false (by simp) (importable_sources_ne hstop)
  | ok u =>
    have hall : c.importable s c.copySources = c.copySources := hresult.1 rfl
    rw [hall] at hlen hobjects
    obtain ⟨c₁, hc₁⟩ : ∃ c₁ : Call, c₁ = { c with copyIn := copies.map attached } := ⟨_, rfl⟩
    have hclient : c₁.client = c.client := by rw [hc₁]
    have hserver : c₁.server = c.server := by rw [hc₁]
    have hm₁ : c₁.moveIn = [] := by rw [hc₁, ← hm]
    have hs₁ : c₁.movedSources = [] := by rw [hc₁, ← hs]
    obtain ⟨moves, objects', t', s₂, result', hrun', hb', hr', hobjects', hresult'⟩ :=
      importEach_run attachMove (fun _ _ _ => ⟨rfl, rfl⟩) c.moveSources c₁ s₁ (by rw [hclient, hserver]; exact hne)
    rw [hserver] at hr' hb'
    rw [hr.table_self] at hb'
    have hsource : c₁.sourceObject s₁ = c.sourceObject s := funext fun source => sourceObject_of_rebinds source hr hne hclient
    have hi : c.importable s c.sources = c.copySources ++ c₁.importable s₁ c.moveSources := by
      have hroom : t.room = (s.table c.server).room - c.copySources.length := by
        have := hb.room_add
        omega
      rw [sources, importable_append_of_eq hall, ← hroom, importable, hsource, hserver, hr.table_self]
    have hlen' := length_eq_of_binds hb' hobjects'
    rw [attachAll_move _ _ _ (by rw [hlen']; exact length_importable_le _ _ _), hlen', take_length_importable, hm₁, hs₁,
      List.nil_append, List.nil_append] at hrun'
    refine ⟨copies, moves, objects ++ objects', t', s₂, result', ?_, hb.append hb', hr.trans hr', ?_, ?_⟩
    · rw [importAll, Update.run_bind, hrun, hi, List.drop_left]
      dsimp only
      rw [hc₁] at hrun' ⊢
      exact hrun'
    · rw [hi, List.map_append, List.map_append, hobjects, ← hobjects', hsource]
    · rw [hresult', hi, sources, List.append_cancel_left_eq]

end Microkernel.Call
