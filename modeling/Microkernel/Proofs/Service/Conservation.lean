import Microkernel.Proofs.Handle.Refinement
import Microkernel.Proofs.Service.Importing
import Microkernel.Proofs.Service.Memory

/-!
# Conservation of handles

Over a command the handle tables of the server and of the client change by what the handler kept, by what was moved and by what the
response lists, however the command ends (`Call.Balances`). Everything that was bound in between is unbound again.
-/

namespace Microkernel

open Machine
open Wire (Bytes Request RequestDescription Response)

/-! ## What handlers leave alone -/

/-- What a handler may have done as far as handle tables go: nothing to the tables, and nothing to what the call attached and moved.
Some attached handles are marked as kept. -/
structure TableFrame (before after : Call × Machine) : Prop where
  table : ∀ id, after.2.table id = before.2.table id
  server : after.1.server = before.1.server
  client : after.1.client = before.1.client
  movedSources : after.1.movedSources = before.1.movedSources
  copyIn : after.1.copyIn.map InHandle.handle = before.1.copyIn.map InHandle.handle
  moveIn : after.1.moveIn.map InHandle.handle = before.1.moveIn.map InHandle.handle

/-- What a handler may do at all, it may do as far as handle tables go. -/
theorem HandlerFrame.tableFrame {before after : Call × Machine} (h : HandlerFrame before after) : TableFrame before after where
  table id := by
    rw [Machine.table, Machine.process, h.guests.processes]
    rfl
  server := h.server
  client := h.client
  movedSources := h.movedSources
  copyIn := h.copyIn
  moveIn := h.moveIn

/-- The commands of all services leave the tables alone. -/
theorem Service.invoke_keeps_tables (self : RecordId) (id : UInt32) : Handler.Keeps TableFrame (invoke self id) :=
  fun c s => (invoke_keeps self id c s).tableFrame

/-! ## The books -/

/-- The handles that a response lists: the copied ones and then the moved ones. -/
def Wire.Response.handles (r : Response) : List Handle := (r.copyHandles ++ r.moveHandles).map Handle.mk

/-- A response without handles lists none. -/
theorem Wire.Response.handles_of_nil {r : Response} (hcopies : r.copyHandles = []) (hmoves : r.moveHandles = []) :
    r.handles = [] := by
  rw [handles, hcopies, hmoves]
  rfl

namespace Call

/-- The objects that the handles of the request name, as far as they name any. -/
def attachedObjects (c : Call) (s : Machine) : List KernelObject := c.sources.filterMap (c.sourceObject s)

/-- The moved handles that are duplicated into the server before one cannot be. -/
def movedHandles (c : Call) (s : Machine) : List Handle := (c.importable s c.sources).drop c.copySources.length

/-- The bindings of the attached handles that were kept, where the attached handles name these objects. -/
def kept (c : Call) (objects : List KernelObject) : List (Handle × KernelObject) :=
  (((c.copyIn ++ c.moveIn).zip objects).filter fun p => p.1.kept).map fun p => (p.1.handle, p.2)

/-- What stays with the server when a handler, if one ran, has ended. -/
def keptBy : Option (Except HandlerFailure Unit × Call) → List KernelObject → List (Handle × KernelObject)
  | some (_, c), objects => c.kept objects
  | none, _ => []

/-- The copied and the moved objects that go to the client with a result: what the handler sends if it succeeds and the result is a
success, and otherwise none. -/
def sentBy : Option (Except HandlerFailure Unit × Call) → ResultCode → List KernelObject × List KernelObject
  | some (.ok (), c), result => if result = .success then (c.copyOut, c.moveOut) else ([], [])
  | _, _ => ([], [])

/-- The books of a call balance: `handled` is how its handler ended, if one ran, and `moved` are the handles that the client gave. -/
structure Balances (c : Call) (handled : Option (Except HandlerFailure Unit × Call)) (moved : List Handle) (s : Machine)
    (response : Response) (s' : Machine) : Prop where
  /-- The server gains the attached handles that the handler kept. -/
  server : (s'.table c.server).bindings.Perm (keptBy handled (c.attachedObjects s) ++ (s.table c.server).bindings)
  /-- The client loses what it moved, and gains the handles that the response lists. -/
  client : (s'.table c.client).bindings.Perm
    (response.handles.zip ((sentBy handled response.result).1 ++ (sentBy handled response.result).2) ++
      (s.table c.client).bindings.filter fun b => b.1 ∉ moved)
  copies : response.copyHandles.map (fun raw => (s'.table c.client).resolve ⟨raw⟩) = (sentBy handled response.result).1.map some
  moves : response.moveHandles.map (fun raw => (s'.table c.client).resolve ⟨raw⟩) = (sentBy handled response.result).2.map some
  failure : response.result ≠ .success → response.handles = []
  others : ∀ id, id ≠ c.client → id ≠ c.server → s'.table id = s.table id

/-! ## Delivering -/

/-- What a concluded call has done to the handle tables: the client has got the handles that the response lists. -/
structure Delivers (c : Call) (handled : Option (Except HandlerFailure Unit × Call)) (s : Machine) (response : Response)
    (s' : Machine) : Prop where
  copies : response.copyHandles.length = (sentBy handled response.result).1.length
  client : (s.table c.client).Adds response.handles ((sentBy handled response.result).1 ++ (sentBy handled response.result).2)
    (s'.table c.client)
  failure : response.result ≠ .success → response.handles = []
  others : ∀ id, id ≠ c.client → s'.table id = s.table id

/-- Writing memory changes no handle table. -/
theorem applyWrites_table (client : RecordId) (writes : List (Nat × Bytes)) (s : Machine) (id : RecordId) :
    ((applyWrites client writes).run s).2.table id = s.table id := by
  induction writes generalizing s with
  | nil => rfl
  | cons write rest ih =>
    have hfirst : ((Machine.writeMemory client write.1 write.2).run s).2.table id = s.table id := by
      rw [writeMemory_run]
      split <;> rfl
    rw [applyWrites, Action.run_bind]
    rcases hw : (Machine.writeMemory client write.1 write.2).run s with ⟨_ | _, s'⟩
    · rw [hw] at hfirst
      exact hfirst
    · rw [hw] at hfirst
      exact (ih s').trans hfirst

/-- A response that carries only a result lists nothing, and nothing may have been bound. -/
theorem delivers_bare (c : Call) (handled : Option (Except HandlerFailure Unit × Call)) {s s' : Machine} {code : ResultCode}
    (hsent : sentBy handled code = ([], [])) (hclient : (s.table c.client).Adds [] [] (s'.table c.client))
    (hothers : ∀ id, id ≠ c.client → s'.table id = s.table id) :
    ∃ response, Response.parse (Response.bare code) = .ok response ∧ c.Delivers handled s response s' := by
  obtain ⟨r, hr, hresult, hcopies, hmoves⟩ := Response.parse_bare code
  have hlisted := Response.handles_of_nil hcopies hmoves
  refine ⟨r, hr, ?_⟩
  constructor
  case copies =>
    rw [hcopies, hresult, hsent]
    rfl
  case client =>
    rw [hlisted, hresult, hsent]
    exact hclient
  case failure => exact fun _ => hlisted
  case others => exact hothers

/-- With a failure nothing is sent. -/
theorem sentBy_of_failure {handled : Option (Except HandlerFailure Unit × Call)} {code : ResultCode} (h : code ≠ .success) :
    sentBy handled code = ([], []) := by
  unfold sentBy
  split
  · exact if_neg h
  · rfl

/-- The response to a call that succeeded lists what was bound for it. -/
theorem handles_onWire (c : Call) (copies moves : List Handle) : (c.response copies moves).onWire.handles = copies ++ moves := by
  have hraw (handles : List Handle) : (handles.map Handle.raw).map Handle.mk = handles := by
    rw [List.map_map]
    exact List.map_id _
  change ((copies.map Handle.raw ++ moves.map Handle.raw).map Handle.mk) = _
  rw [List.map_append, hraw, hraw]

/-- Whether or not what a handler has sent can be delivered, the client gets the handles that the response lists and no others. -/
theorem complete_delivers (d : Dispatcher) (c : Call) (s : Machine) (hs : (s.table c.client).Sound) :
    ∃ response, Response.parse (d.complete c s).1.response = .ok response ∧
      c.Delivers (some (.ok (), c)) s response (d.complete c s).2 := by
  by_cases hroom : c.HasRoom s
  · obtain ⟨copies, moves, t, s₁, hb, hl, hr, hcases⟩ := Dispatcher.complete_of_room d hroom
    have hadds := hb.adds hs
    have hwritten (id : RecordId) := applyWrites_table c.client c.writes s₁ id
    rcases hcases with ⟨-, -, image, hencode, hrun⟩ | ⟨released, code, s', -, hp, hcode, hrun, hr'⟩
    · have hsent : sentBy (some (.ok (), c)) (c.response copies moves).onWire.result = (c.copyOut, c.moveOut) := rfl
      rw [hrun]
      refine ⟨_, Response.parse_encode hencode, ?_⟩
      constructor
      case copies =>
        rw [hsent]
        exact (List.length_map _).trans hl
      case client =>
        rw [handles_onWire, hsent, hwritten, hr.table_self]
        exact hadds
      case failure => exact fun hne => absurd rfl hne
      case others => exact fun id hid => by rw [hwritten, hr.table_of_ne hid]
    · rw [hrun]
      refine delivers_bare c _ (sentBy_of_failure hcode) ?_ fun id hid => by rw [hr'.table_of_ne hid, hwritten, hr.table_of_ne hid]
      rw [hr'.table_self, hwritten, hr.table_self]
      exact hadds.releaseAll_all hs hp
  · obtain ⟨handles, some, released, t, code, s', hb, hp, hr, hcode, hrun⟩ := Dispatcher.complete_of_full d hroom
    rw [hrun]
    refine delivers_bare c _ (sentBy_of_failure hcode) ?_ fun id hid => hr.table_of_ne hid
    rw [hr.table_self]
    exact (hb.adds hs).releaseAll_all hs hp

/-- A concluded call has delivered what it sends, however its handler ended. -/
theorem conclude_delivers (d : Dispatcher) (c : Call) (label : String) (outcome : Except HandlerFailure Unit) (s : Machine)
    (hs : (s.table c.client).Sound) : ∃ response, Response.parse (d.conclude c label outcome s).1.response = .ok response ∧
      c.Delivers (some (outcome, c)) s response (d.conclude c label outcome s).2 := by
  cases outcome with
  | ok u => exact complete_delivers d c s hs
  | error failure =>
    obtain ⟨code, close, s', hrun, hsame⟩ := Dispatcher.conclude_of_error (s := s) d c label failure
    rw [hrun]
    refine delivers_bare c _ rfl ?_ fun id _ => hsame.table id
    rw [hsame.table]
    exact .refl hs

/-! ## Ending a call -/

/-- What a handler kept is what is left once the rest is released. -/
theorem filter_unkept {attached : List InHandle} {objects : List KernelObject} (hnd : (attached.map InHandle.handle).Nodup) :
    ((attached.map InHandle.handle).zip objects).filter (fun b => b.1 ∉ unkept attached) =
      ((attached.zip objects).filter fun p => p.1.kept).map fun p => (p.1.handle, p.2) := by
  rw [List.zip_map_left, List.filter_map]
  refine congrArg (List.map _) (List.filter_congr fun p hp => ?_)
  have hmem := (List.of_mem_zip hp).1
  cases hk : p.1.kept with
  | false =>
    refine decide_eq_false fun hout => hout ?_
    exact List.mem_map_of_mem (List.mem_filter.2 ⟨hmem, by rw [hk]; rfl⟩)
  | true =>
    refine decide_eq_true fun hin => ?_
    obtain ⟨h, hh, he⟩ := List.mem_map.1 hin
    obtain ⟨hh, hnot⟩ := List.mem_filter.1 hh
    rw [List.inj_on_of_nodup_map hnd hh hmem he, hk] at hnot
    cases hnot

variable {c : Call} {s s₁ : Machine} {objects sent : List KernelObject} {listed : List Handle}

/-- Once a call has ended the server has what was kept, and the client does not have what it moved. -/
theorem release_tables (hne : c.client ≠ c.server) (hs : (s.table c.server).Sound) (hc : (s.table c.client).Sound)
    (hserver : (s.table c.server).Adds ((c.copyIn ++ c.moveIn).map InHandle.handle) objects (s₁.table c.server))
    (hclient : (s.table c.client).Adds listed sent (s₁.table c.client))
    (hmoved : ∀ h ∈ c.movedSources, h.isPseudo = true ∨ (s.table c.client).resolve h ≠ none) :
    ((c.release s₁).2.table c.server).bindings.Perm (c.kept objects ++ (s.table c.server).bindings) ∧
    ((c.release s₁).2.table c.client).Sound ∧
    ((c.release s₁).2.table c.client).bindings.Perm
      (listed.zip sent ++ (s.table c.client).bindings.filter fun b => b.1 ∉ c.movedSources) ∧
    ∀ id, id ≠ c.client → id ≠ c.server → (c.release s₁).2.table id = s₁.table id := by
  obtain ⟨s₂, hr, hr'⟩ := c.release_rebinds s₁
  rw [hr.table_of_ne hne] at hr'
  refine ⟨?_, ?_, ?_, fun id hid hid' => by rw [hr'.table_of_ne hid, hr.table_of_ne hid']⟩
  · rw [hr'.table_of_ne hne.symm, hr.table_self, kept, ← filter_unkept hserver.nodup]
    refine hserver.releaseAll_added hs fun h hh => ?_
    obtain ⟨a, ha, rfl⟩ := List.mem_map.1 hh
    exact List.mem_map_of_mem (List.mem_filter.1 ha).1
  · rw [hr'.table_self]
    exact (hclient.sound.releaseAll _).1
  · rw [hr'.table_self]
    refine hclient.releaseAll_before fun h hh hm => ?_
    rcases hmoved h hm with hp | hp
    · rw [hclient.not_isPseudo h hh] at hp
      cases hp
    · exact hp (hclient.fresh hc h hh)

/-! ## From the beginning to the end -/

/-- What a call has done to the handle tables while its handler runs: the server has the attached handles. -/
structure Attaches (call : Call) (s : Machine) (objects : List KernelObject) (c : Call) (s₁ : Machine) : Prop where
  client : c.client = call.client
  server : c.server = call.server
  movedSources : c.movedSources = call.movedHandles s
  table : (s.table call.server).Adds ((c.copyIn ++ c.moveIn).map InHandle.handle) objects (s₁.table call.server)
  others : ∀ id, id ≠ call.server → s₁.table id = s.table id

/-- A call that begins has attached what it could, and kept nothing yet. If all could be attached, all objects are there. -/
theorem importAll_attaches (call : Call) (s : Machine) (hne : call.client ≠ call.server) (hs : (s.table call.server).Sound)
    (hcopy : call.copyIn = []) (hmove : call.moveIn = []) (hmoved : call.movedSources = []) : ∃ result c s₁ objects,
    call.importAll s = ((result, c), s₁) ∧ Attaches call s objects c s₁ ∧ c.kept objects = [] ∧
    (result = .ok () → objects = call.attachedObjects s) := by
  obtain ⟨copies, moves, objects, t, s₁, result, hrun, hb, hr, hobjects, hresult⟩ := importAll_run call s hne hcopy hmove hmoved
  have hhandles (handles : List Handle) : (handles.map attached).map InHandle.handle = handles := by
    rw [List.map_map]
    exact List.map_id _
  refine ⟨_, _, _, objects, hrun, ?_, ?_, fun hok => ?_⟩
  · constructor
    case client => rfl
    case server => rfl
    case movedSources => rfl
    case table =>
      rw [List.map_append, hhandles, hhandles, hr.table_self]
      exact hb.adds hs
    case others => exact fun id hid => hr.table_of_ne hid
  · have hnone : ((copies.map attached ++ moves.map attached).zip objects).filter (fun p => p.1.kept) = [] := by
      rw [List.filter_eq_nil_iff, ← List.map_append]
      intro p hp
      obtain ⟨handle, -, hh⟩ := List.mem_map.1 (List.of_mem_zip hp).1
      rw [← hh]
      exact Bool.false_ne_true
    rw [kept, hnone]
    rfl
  · have hall := hresult.1 hok
    rw [hall] at hobjects
    have hid : (call.sources.map (call.sourceObject s)).filterMap id = call.attachedObjects s := List.filterMap_map
    rw [← hid, hobjects, List.filterMap_map]
    exact List.filterMap_some.symm

/-- A handler changes nothing of it. -/
theorem Attaches.handler {call c c' : Call} {s s₁ s₂ : Machine} {objects : List KernelObject} (ha : Attaches call s objects c s₁)
    (hf : TableFrame (c, s₁) (c', s₂)) : Attaches call s objects c' s₂ := by
  constructor
  case client => exact hf.client.trans ha.client
  case server => exact hf.server.trans ha.server
  case movedSources => exact hf.movedSources.trans ha.movedSources
  case table =>
    rw [List.map_append, hf.copyIn, hf.moveIn, ← List.map_append, hf.table]
    exact ha.table
  case others => exact fun id hid => (hf.table id).trans (ha.others id hid)

/-- Only handles that name something are moved. -/
theorem mem_movedHandles {handle : Handle} (h : handle ∈ c.movedHandles s) :
    handle.isPseudo = true ∨ (s.table c.client).resolve handle ≠ none := by
  have hsome := List.all_eq_true.1 List.all_takeWhile handle (List.mem_of_mem_take (List.mem_of_mem_drop h))
  unfold sourceObject at hsome
  split at hsome
  · next hp =>
    rw [hp]
    exact .inl (by decide)
  · exact .inr (Option.isSome_iff_ne_none.1 hsome)

/-- Once a call is concluded and released its books balance. -/
theorem Delivers.balances {call c : Call} {s s₁ s₂ : Machine} {response : Response} {objects : List KernelObject}
    {handled : Option (Except HandlerFailure Unit × Call)} (hd : c.Delivers handled s₁ response s₂)
    (ha : Attaches call s objects c s₁) (hkept : keptBy handled (call.attachedObjects s) = c.kept objects)
    (hne : call.client ≠ call.server) (hc : (s.table call.client).Sound) (hs : (s.table call.server).Sound) :
    call.Balances handled (call.movedHandles s) s response (c.release s₂).2 := by
  have hclient := ha.others call.client hne
  have hlisted := hd.client
  have hattached := ha.table
  rw [← hd.others call.server (by rw [ha.client]; exact hne.symm)] at hattached
  rw [ha.client, hclient] at hlisted
  rw [← ha.server] at hs hattached
  rw [← ha.client] at hc hlisted
  have hmoved : ∀ h ∈ c.movedSources, h.isPseudo = true ∨ (s.table c.client).resolve h ≠ none := by
    rw [ha.movedSources, ha.client]
    exact fun h hh => mem_movedHandles hh
  obtain ⟨hserver, hsound, hperm, hothers⟩ :=
    release_tables (by rw [ha.client, ha.server]; exact hne) hs hc hattached hlisted hmoved
  have hresolve := hsound.map_resolve hlisted.length_eq hperm
  rw [ha.client] at hperm hresolve hothers
  rw [ha.server] at hserver hothers
  rw [ha.movedSources] at hperm
  rw [Response.handles, List.map_map, List.map_append, List.map_append] at hresolve
  obtain ⟨hcopies, hmoves⟩ := List.append_inj hresolve (by rw [List.length_map, List.length_map, hd.copies])
  constructor
  case server =>
    rw [hkept]
    exact hserver
  case client => exact hperm
  case copies => exact hcopies
  case moves => exact hmoves
  case failure => exact hd.failure
  case others =>
    intro id hid hid'
    rw [hothers id hid hid', hd.others id (by rw [ha.client]; exact hid), ha.others id hid']

/-- A call that is refused at once has nothing on its books. -/
theorem balances_bare (c : Call) (code : ResultCode) (s : Machine) :
    ∃ response, Response.parse (Response.bare code) = .ok response ∧ c.Balances none [] s response s := by
  obtain ⟨response, hparse, -, hcopies, hmoves⟩ := Response.parse_bare code
  have hlisted := Response.handles_of_nil hcopies hmoves
  have hall : (s.table c.client).bindings.filter (fun b => b.1 ∉ ([] : List Handle)) = (s.table c.client).bindings := by simp
  refine ⟨response, hparse, ?_⟩
  constructor
  case server => exact List.Perm.refl _
  case client =>
    rw [hlisted, hall]
    exact List.Perm.refl _
  case copies =>
    rw [hcopies]
    rfl
  case moves =>
    rw [hmoves]
    rfl
  case failure => exact fun _ => hlisted
  case others => exact fun _ _ _ => rfl

/-- Balanced books stay balanced if the tables do not change. -/
theorem Balances.of_owners {handled : Option (Except HandlerFailure Unit × Call)} {moved : List Handle} {s' s'' : Machine}
    {response : Response} (hb : c.Balances handled moved s response s') (h : SameOwners s' s'') :
    c.Balances handled moved s response s'' := by
  constructor
  case server =>
    rw [h.table]
    exact hb.server
  case client =>
    rw [h.table]
    exact hb.client
  case copies =>
    rw [h.table]
    exact hb.copies
  case moves =>
    rw [h.table]
    exact hb.moves
  case failure => exact hb.failure
  case others => exact fun id hid hid' => (h.table id).trans (hb.others id hid hid')

end Call

namespace Dispatcher

/-- The books of a command balance, whatever its handler does within its frame. -/
theorem carryOut_balances (d : Dispatcher) (handler : Handler Unit) (label : String) (call : Call) (s : Machine)
    (hh : handler.Keeps TableFrame) (hne : call.client ≠ call.server) (hc : (s.table call.client).Sound)
    (hs : (s.table call.server).Sound) (hcopy : call.copyIn = []) (hmove : call.moveIn = []) (hmoved : call.movedSources = []) :
    ∃ response, Response.parse (d.carryOut handler label call s).1.response = .ok response ∧
      call.Balances ((call.handled? handler s).map (·.1)) (call.movedHandles s) s response (d.carryOut handler label call s).2 := by
  obtain ⟨result, c, s₁, objects, himport, ha, hkept, hobjects⟩ := call.importAll_attaches s hne hs hcopy hmove hmoved
  cases result with
  | error e =>
    obtain ⟨s', hrun, hsame⟩ := carryOut_of_error d handler label himport
    have hclient : (s₁.table c.client).Sound := by
      rw [ha.client, ha.others _ hne]
      exact hc
    have hnothing : Call.sentBy none e.code = ([], []) := rfl
    obtain ⟨response, hparse, hd⟩ := Call.delivers_bare c none hnothing (.refl hclient) fun _ _ => rfl
    rw [hrun, Call.handled?_of_error himport]
    exact ⟨response, hparse, (hd.balances ha hkept.symm hne hc hs).of_owners hsame⟩
  | ok u =>
    rcases hinvoke : handler.run.run c s₁ with ⟨⟨outcome, c'⟩, s₂⟩
    have hframe := hh c s₁
    rw [hinvoke] at hframe
    have ha' := ha.handler hframe
    have hclient : (s₂.table c'.client).Sound := by
      rw [ha'.client, ha'.others _ hne]
      exact hc
    obtain ⟨response, hparse, hd⟩ := Call.conclude_delivers d c' label outcome s₂ hclient
    rw [carryOut_of_ok d label himport hinvoke, Call.handled?_of_ok himport hinvoke]
    rw [hobjects rfl] at ha'
    exact ⟨response, hparse, hd.balances ha' rfl hne hc hs⟩

/-- The handles that a client gives away with a command: none if the service does not accept it. -/
def movedHandles (d : Dispatcher) (entry : SessionEntry) (client : RecordId) (request : Request) (s : Machine) : List Handle :=
  if accepts s entry.service request then (d.call client request).movedHandles s else []

/-- Handles are conserved over every command whose handler leaves the tables alone: however it ends, the books of its call balance. -/
theorem dispatchWith_balances (d : Dispatcher) (handlers : Handlers) (entry : SessionEntry) (client : RecordId) (image : Bytes)
    (s : Machine) {request : Request} (hcommand : Request.commandRequest? image = some request)
    (hh : (handlers entry.service request.commandId).Keeps TableFrame) (hne : client ≠ d.server)
    (hc : ∃ capacity operations, s.table client = (HandleTable.run capacity operations).1)
    (hs : ∃ capacity operations, s.table d.server = (HandleTable.run capacity operations).1) :
    ∃ response, Response.parse (d.dispatchWith handlers entry client image s).1.response = .ok response ∧
      (d.call client request).Balances ((d.handled? handlers entry client request s).map (·.1))
        (d.movedHandles entry client request s) s response (d.dispatchWith handlers entry client image s).2 := by
  have hclient : (s.table client).Sound := by
    obtain ⟨capacity, operations, h⟩ := hc
    rw [h]
    exact (HandleTable.represents_run capacity operations).1.sound
  have hserver : (s.table d.server).Sound := by
    obtain ⟨capacity, operations, h⟩ := hs
    rw [h]
    exact (HandleTable.represents_run capacity operations).1.sound
  rw [dispatchWith_of_command hcommand]
  unfold movedHandles
  cases haccepts : accepts s entry.service request with
  | true =>
    obtain ⟨label, hrun⟩ := dispatchRequest_of_accepts d handlers client haccepts
    have hhandled : d.handled? handlers entry client request s =
        (d.call client request).handled? (handlers entry.service request.commandId) s := if_pos haccepts
    rw [hrun, hhandled]
    exact carryOut_balances d _ label _ s hh hne hclient hserver rfl rfl rfl
  | false =>
    obtain ⟨code, s', hrun, hcode, hsame⟩ := dispatchRequest_of_not_accepts d handlers client haccepts
    obtain ⟨response, hparse, hb⟩ := Call.balances_bare (d.call client request) code s
    rw [hrun, handled?_of_not_accepts haccepts]
    exact ⟨response, hparse, hb.of_owners hsame⟩

/-- A client with two events, and a service whose only command keeps the event that is moved to it and sends another one. -/
def exchangeMachine : Machine where
  processes := .ofList [
    ((1 : RecordId), { (default : Process) with handles := (HandleTable.run 2 []).1 }),
    (2, { (default : Process) with handles := (HandleTable.run 3 [.generate (.event 5), .generate (.event 6)]).1 })]
  services := .ofList [((3 : RecordId), Service.scripted
    [.mk { id := 0, name := "exchange" } [.keepHandle .move 0, .outObject .copy (.existing (.event 7))]] 0 none)]

def exchangeServer : Dispatcher := { kernel := 0, server := 1 }

def exchangeSession : SessionEntry := { session := 4, service := 3 }

/-- The request for that command: the first event is copied and the second one moved. -/
def exchangeImage : Bytes := (RequestDescription.encode { copyHandles := [0x8000], moveHandles := [0x10001] }).toOption.getD []

def exchangeRequest : Request := (Request.commandRequest? exchangeImage).getD default

/-- The dispatch of that request. -/
def exchange : Dispatched × Machine := exchangeServer.dispatch exchangeSession 2 exchangeImage exchangeMachine

/-- The books of the exchange: one event has gone to the server, and another one has come to the client. -/
theorem exchange_balances :
    (exchange.2.table 1).bindings = [(⟨0x10001⟩, .event 6)] ∧
    (exchange.2.table 2).bindings = [(⟨0x8000⟩, .event 5), (⟨0x18002⟩, .event 7)] ∧
    ∃ response, Response.parse exchange.1.response = .ok response ∧
      (exchangeServer.call 2 exchangeRequest).Balances
        ((exchangeServer.handled? Service.invoke exchangeSession 2 exchangeRequest exchangeMachine).map (·.1))
        (exchangeServer.movedHandles exchangeSession 2 exchangeRequest exchangeMachine) exchangeMachine response exchange.2 := by
  refine ⟨by decide +kernel, by decide +kernel, ?_⟩
  have hclient : exchangeMachine.table 2 = (HandleTable.run 3 [.generate (.event 5), .generate (.event 6)]).1 := rfl
  have hserver : exchangeMachine.table exchangeServer.server = (HandleTable.run 2 []).1 := rfl
  have hsome : (Request.commandRequest? exchangeImage).isSome = true := by decide +kernel
  obtain ⟨request, hr⟩ := Option.isSome_iff_exists.1 hsome
  have hcommand : Request.commandRequest? exchangeImage = some exchangeRequest := by
    rw [exchangeRequest, hr]
    rfl
  unfold exchange dispatch
  exact dispatchWith_balances exchangeServer Service.invoke exchangeSession 2 exchangeImage exchangeMachine hcommand
    (Service.invoke_keeps_tables _ _) (by decide) ⟨_, _, hclient⟩ ⟨_, _, hserver⟩

end Dispatcher

end Microkernel
