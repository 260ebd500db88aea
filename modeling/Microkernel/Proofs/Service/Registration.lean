import Microkernel.Proofs.Machine.Directory
import Microkernel.Proofs.Service.Classification
import Microkernel.Proofs.Service.Holding

/-!
# Registering services

A client of the service manager binds a name before its answer is delivered, and nothing takes the binding back if the client has
no room for the port. That is the only way in which a request that fails changes the names (`registration_atomic_iff`).
-/

namespace Microkernel

open Machine
open Wire (Bytes Request RequestDescription Response)

variable {α β : Type}

/-! ## Reading arguments -/

namespace Handler

/-- A handler that begins with a look at the call. -/
theorem run_look (f : Call → Handler β) (c : Call) (s : Machine) :
    (get >>= f : Handler β).run.run c s = (f c).run.run c s := rfl

/-- A handler that begins with a program over the machine. -/
theorem run_update_bind (p : Update α) (f : α → Handler β) (c : Call) (s : Machine) :
    (Call.update p >>= f).run.run c s = (f (p s).1).run.run c (p s).2 := rfl

/-- However the handler ends, it has only read arguments. -/
def Reads (h : Handler α) : Prop := ∀ c s, ∃ result cursor, h.run.run c s = ((result, { c with cursor }), s)

namespace Reads

theorem pure (a : α) : Reads (Pure.pure a : Handler α) := fun c _ => ⟨.ok a, c.cursor, rfl⟩

theorem throw (e : HandlerFailure) : Reads (MonadExcept.throw e : Handler α) := fun c _ => ⟨.error e, c.cursor, rfl⟩

/-- What comes behind a handler that reads is run once the arguments are read, or not at all. -/
theorem run_bind {h : Handler α} (hh : h.Reads) (f : α → Handler β) (c : Call) (s : Machine) : ∃ cursor,
    (∃ e, (h >>= f).run.run c s = ((.error e, { c with cursor }), s)) ∨
      ∃ a, (h >>= f).run.run c s = (f a).run.run { c with cursor } s := by
  obtain ⟨result, cursor, hrun⟩ := hh c s
  refine ⟨cursor, ?_⟩
  rw [Handler.run_bind, hrun]
  cases result with
  | error e => exact .inl ⟨e, rfl⟩
  | ok a => exact .inr ⟨a, rfl⟩

/-- Two handlers that only read do so one after the other. -/
theorem bind {h : Handler α} {f : α → Handler β} (hh : h.Reads) (hf : ∀ a, (f a).Reads) : (h >>= f).Reads := by
  intro c s
  obtain ⟨cursor, ⟨e, hrun⟩ | ⟨a, hrun⟩⟩ := hh.run_bind f c s
  · exact ⟨_, cursor, hrun⟩
  · obtain ⟨result, cursor', hrest⟩ := hf a { c with cursor } s
    exact ⟨result, cursor', hrun.trans hrest⟩

end Reads

/-- Reading aligned bytes only reads arguments. -/
theorem reads_readAligned (n : Nat) : (Call.readAligned n).Reads := by
  intro c s
  rw [Call.readAligned, run_look]
  dsimp only
  split
  · exact ⟨_, _, rfl⟩
  · exact Reads.throw _ c s

/-- Reading a number only reads arguments. -/
theorem reads_readNumber (n : Nat) : (Call.readNumber n).Reads := (reads_readAligned n).bind fun _ => .pure _

/-- Reading a name only reads arguments. -/
theorem reads_readName : Service.readName.Reads := by
  refine (reads_readNumber 8).bind fun word => ?_
  split
  · exact .pure _
  · exact .throw _

end Handler

/-! ## Commands of the service manager -/

/-- The registries are the same. -/
def KeepsNames (before after : Call × Machine) : Prop := after.2.registries = before.2.registries

instance : IsPreorder (Call × Machine) KeepsNames where
  refl _ := rfl
  trans _ _ _ h h' := Eq.trans h' h

namespace Service

/-- What a command of the service manager makes of the names: it gives a free name to a new port, whose server end the call sends,
or it frees a name, or it keeps all names. -/
inductive Manages (registry : RecordId) (id : Nat) (c : Call) (s : Machine) : Except HandlerFailure Unit → Call → Machine → Prop
  | kept {outcome : Except HandlerFailure Unit} {c' : Call} {t : Machine} (registries : t.registries = s.registries)
      (refused : id = 2 → ∃ e, outcome = .error e) : Manages registry id c s outcome c' t
  | registered {cursor : Nat} {name : String} {server port : RecordId} {t : Machine} (id_eq : id = 2)
      (free : s.lookup registry name = none)
      (lookup : ∀ other, t.lookup registry other = if other = name then some port else s.lookup registry other)
      (ends : t.serverPort server = t.clientPort port) :
      Manages registry id c s (.ok ()) { c with cursor, moveOut := c.moveOut ++ [.serverPort server] } t
  | unregistered {cursor : Nat} {name : String} {t : Machine} (id_eq : id = 3)
      (lookup : ∀ other, t.lookup registry other = if other = name then none else s.lookup registry other) :
      Manages registry id c s (.ok ()) { c with cursor } t

/-- Every run of the handler does what a command of the service manager may do. -/
def Managing (registry : RecordId) (id : Nat) (h : Handler Unit) : Prop :=
  ∀ c s, Manages registry id c s (h.run.run c s).1.1 (h.run.run c s).1.2 (h.run.run c s).2

namespace Managing

variable {registry : RecordId} {id : Nat}

/-- A handler that fails manages: it keeps all names. -/
theorem throw (e : HandlerFailure) : Managing registry id (MonadExcept.throw e) := fun _ _ => .kept rfl fun _ => ⟨e, rfl⟩

/-- A handler that keeps the names manages any command but the one that registers a service. -/
theorem of_keeps {h : Handler Unit} (hh : Handler.Keeps KeepsNames h) (hid : id ≠ 2) : Managing registry id h :=
  fun c s => .kept (hh c s) fun h => absurd h hid

/-- Reading arguments first makes no difference. -/
theorem read {h : Handler α} {f : α → Handler Unit} (hh : h.Reads) (hf : ∀ a, Managing registry id (f a)) :
    Managing registry id (h >>= f) := by
  intro c s
  obtain ⟨cursor, ⟨e, hrun⟩ | ⟨a, hrun⟩⟩ := hh.run_bind f c s <;> rw [hrun]
  · exact .kept rfl fun _ => ⟨e, rfl⟩
  · have hrest := hf a { c with cursor } s
    generalize (f a).run.run { c with cursor } s = x at hrest
    obtain ⟨⟨outcome, c'⟩, t⟩ := x
    cases hrest with
    | kept registries refused => exact .kept registries refused
    | registered id_eq free lookup ends => exact .registered id_eq free lookup ends
    | unregistered id_eq lookup => exact .unregistered id_eq lookup

end Managing

/-- A name is looked up, and a stand-in may be sent for one that is missing. -/
theorem connect_keepsNames (registry : RecordId) (ignoreMissing : Bool) (name : ServiceName) : Handler.Keeps KeepsNames (do
    match ← Call.update (connectService registry name) with
    | .ok session => Call.sendObject .move (.clientSession session)
    | .error e =>
      match e, ignoreMissing with
      | .registry (.notRegistered _), true =>
        Call.update (log .warn s!"Missing service {name.text} ignored")
        sendFresh (.absent name)
      | e, _ => Call.fail e) := by
  have hsend (mode : HandleMode) (object : KernelObject) : Handler.Keeps KeepsNames (Call.sendObject mode object) :=
    .modify fun _ _ => rfl
  refine .bind (.update fun _ s => (connectService_keeps registry name s).registries) fun result => ?_
  split
  · exact hsend _ _
  · split
    · have hsession : Handler.Keeps KeepsNames (Call.update (newSession none)) :=
        .update fun _ s => (newSession_keeps none s).registries
      refine .bind (.update fun _ _ => rfl) fun _ => .bind (.update fun _ _ => rfl) fun service => ?_
      exact .bind hsession fun _ => .bind (.modify fun _ _ => rfl) fun _ => hsend _ _
    · exact .throw _

/-- Whatever the service manager is asked to do, and however that ends. -/
theorem invokeManager_managing (self registry : RecordId) (ignoreMissing initialized : Bool) (id : Nat) :
    Managing registry id (invokeManager self registry ignoreMissing initialized id) := by
  unfold invokeManager
  split
  · next hid => exact .of_keeps (.update fun _ _ => rfl) (by omega)
  · next hpos =>
    split
    · exact .throw _
    · next hlast =>
      split
      · exact .throw _
      · refine .read Handler.reads_readName fun name => ?_
        split
        · exact .of_keeps (connect_keepsNames registry ignoreMissing name) (by decide)
        · refine .read (Handler.reads_readNumber 1) fun _ => .read (Handler.reads_readNumber 4) fun maxSessions c s => ?_
          rw [Handler.run_update_bind]
          rcases registerService_cases registry name maxSessions s with
            ⟨e, t, hrun, hsame⟩ | ⟨server, port, t, hrun, hfree, hbound, hends⟩ <;> rw [hrun]
          · exact .kept hsame fun _ => ⟨_, rfl⟩
          · exact .registered rfl hfree hbound hends
        · next hone htwo =>
          have hid : id = 3 := by
            have hne : id ≠ 1 ∧ id ≠ 2 := ⟨hone, htwo⟩
            omega
          intro c s
          rw [Handler.run_update_bind]
          rcases unregisterService_cases registry name s with ⟨e, hrun, -⟩ | ⟨t, hrun, hfreed⟩ <;> rw [hrun]
          · exact .kept rfl fun _ => ⟨_, rfl⟩
          · exact .unregistered hid hfreed

/-- Every command of the service manager manages the names. -/
theorem invoke_manages {self registry : RecordId} {ignoreMissing initialized : Bool} {s : Machine}
    (h : s.service self = .serviceManager registry ignoreMissing initialized) (id : UInt32) (c : Call) :
    Manages registry id.toNat c s ((invoke self id).run.run c s).1.1 ((invoke self id).run.run c s).1.2
      ((invoke self id).run.run c s).2 := by
  have hrun : (invoke self id).run.run c s =
      (invokeManager self registry ignoreMissing initialized id.toNat).run.run c s := by
    have hlook : ((get : Update Machine) s).1.service self = .serviceManager registry ignoreMissing initialized := h
    rw [invoke, Handler.run_update_bind]
    simp only [hlook]
    rfl
  rw [hrun]
  exact invokeManager_managing self registry ignoreMissing initialized id.toNat c s

end Service

/-! ## The end of a call -/

namespace Call

/-- Unbinding handles keeps the directory. -/
theorem unbind_directory (client : RecordId) (handles : List Handle) : Keeps SameDirectory (unbind client handles) :=
  .bind (.forIn fun _ _ => (releaseHandle_directory _ _).bind fun _ => .pure _) fun _ => .pure _

/-- Binding objects keeps the directory. -/
theorem bindFrom_directory (client : RecordId) (bound : List Handle) (objects : List KernelObject) :
    Keeps SameDirectory (bindFrom client bound objects) := by
  induction objects generalizing bound with
  | nil => exact .pure _
  | cons object rest ih =>
    refine (generateHandle_directory _ _).bind fun result => ?_
    split
    · exact ih _
    · exact (unbind_directory _ _).bind fun _ => .pure _

/-- Writing to client memory keeps the directory. -/
theorem applyWrites_directory (client : RecordId) (writes : List (Nat × Bytes)) :
    Keeps SameDirectory (applyWrites client writes).run := by
  induction writes with
  | nil => exact .run_pure _
  | cons write rest ih =>
    refine .run_bind (fun s => ?_) fun _ => ih
    rw [writeMemory_run]
    split <;> constructor <;> rfl

/-- Committing a call keeps the directory. -/
theorem commit_directory (c : Call) : Keeps SameDirectory c.commit := by
  refine (bindFrom_directory _ _ _).bind fun copies => ?_
  split
  · exact .pure _
  · refine (bindFrom_directory _ _ _).bind fun moves => ?_
    split
    · exact (unbind_directory _ _).bind fun _ => .pure _
    · refine (applyWrites_directory _ _).bind fun result => ?_
      split
      · exact (unbind_directory _ _).bind fun _ => (unbind_directory _ _).bind fun _ => .pure _
      · exact .pure _

/-- Dropping what was to be sent keeps the directory. -/
theorem discard_directory (objects : List KernelObject) (newSessions : List SessionEntry) :
    Keeps SameDirectory (discard objects newSessions) := by
  refine .bind (.forIn fun object _ => ?_) fun _ => .bind (.forIn fun entry _ => ?_) fun _ => .pure _
  · split
    · exact (closeClientSession_directory _).bind fun _ => .pure _
    · exact .pure _
  · exact (closeServerSession_directory _).bind fun _ => .pure _

/-- Releasing a call keeps the directory. -/
theorem release_directory (c : Call) : Keeps SameDirectory c.release := by
  refine .bind (.forIn fun h _ => ?_) fun _ => .bind (.forIn fun handle _ => ?_) fun _ => .pure _
  · split
    · exact (releaseHandle_directory _ _).bind fun _ => .pure _
    · exact .pure _
  · exact (releaseHandle_directory _ _).bind fun _ => .pure _

end Call

namespace Dispatcher

variable {d : Dispatcher} {handlers : Handlers} {entry : SessionEntry} {client : RecordId} {request : Request} {image : Bytes}
  {s t : Machine} {c : Call} {outcome : Except HandlerFailure Unit}

/-- Completing a call keeps the directory. -/
theorem complete_directory (d : Dispatcher) (c : Call) : Keeps SameDirectory (d.complete c) := by
  refine Keeps.get.bind fun s => c.commit_directory.bind fun result => ?_
  split
  · exact (log_directory _ _).bind fun _ => (Call.discard_directory _ _).bind fun _ => .pure _
  · split
    · exact .pure _
    · refine (log_directory _ _).bind fun _ => (Call.unbind_directory _ _).bind fun _ => ?_
      exact (Call.discard_directory _ _).bind fun _ => .pure _

/-- However a call is concluded, no name and no port is touched. -/
theorem conclude_directory (d : Dispatcher) (c : Call) (label : String) (outcome : Except HandlerFailure Unit) :
    Keeps SameDirectory (d.conclude c label outcome) := by
  have hdiscard := Call.discard_directory (c.copyOut ++ c.moveOut) c.newSessions
  unfold conclude
  dsimp only
  split
  · exact complete_directory d c
  · exact (log_directory _ _).bind fun _ => hdiscard.bind fun _ => .pure _
  · exact hdiscard.bind fun _ => .pure _
  · exact (log_directory _ _).bind fun _ => hdiscard.bind fun _ => .pure _

/-- A command whose handler does not run keeps the registries. -/
theorem dispatchRequest_of_unhandled (h : d.handled? handlers entry client request s = none) :
    (d.dispatchRequest handlers entry client request s).2.registries = s.registries := by
  cases haccepts : accepts s entry.service request with
  | false =>
    obtain ⟨code, s', hrun, -, hs⟩ := dispatchRequest_of_not_accepts d handlers client haccepts
    rw [hrun]
    exact hs.registries
  | true =>
    obtain ⟨label, hrun⟩ := dispatchRequest_of_accepts d handlers client haccepts
    rw [hrun]
    have himported := Call.importAll_keeps (d.call client request) s
    rcases himport : (d.call client request).importAll s with ⟨⟨e | u, c⟩, s₁⟩ <;> rw [himport] at himported
    · obtain ⟨s', hcarry, hs⟩ := carryOut_of_error d (handlers entry.service request.commandId) label himport
      rw [hcarry]
      exact hs.registries.trans ((Call.release_keeps c s₁).registries.trans himported.registries)
    · rw [handled?_of_ok haccepts himport rfl] at h
      cases h

/-- A command whose handler runs has its handles imported first; then its call is concluded and released. -/
theorem dispatchRequest_of_handled (h : d.handled? handlers entry client request s = some ((outcome, c), t)) :
    ∃ c₁ s₁ label, (d.call client request).importAll s = ((.ok (), c₁), s₁) ∧
    (handlers entry.service request.commandId).run.run c₁ s₁ = ((outcome, c), t) ∧
    d.dispatchRequest handlers entry client request s =
      ((d.conclude c label outcome t).1, (c.release (d.conclude c label outcome t).2).2) := by
  cases haccepts : accepts s entry.service request with
  | false =>
    rw [handled?_of_not_accepts haccepts] at h
    cases h
  | true =>
    obtain ⟨label, hrun⟩ := dispatchRequest_of_accepts d handlers client haccepts
    rcases himport : (d.call client request).importAll s with ⟨⟨e | u, c₁⟩, s₁⟩
    · rw [handled?_of_error haccepts himport] at h
      cases h
    · rw [handled?_of_ok haccepts himport rfl] at h
      have hinvoke := Option.some.inj h
      exact ⟨c₁, s₁, label, rfl, hinvoke, hrun.trans (carryOut_of_ok d label himport hinvoke)⟩

/-! ## Requests to the service manager -/

/-- What a request to the service manager, whose handler ran and ended as given, has done up to that end, and what follows. -/
structure Managed (d : Dispatcher) (client : RecordId) (request : Request) (registry : RecordId) (s : Machine)
    (outcome : Except HandlerFailure Unit) (c : Call) (t : Machine) (answer : Dispatched × Machine) : Prop where
  /-- The handler did what a command of the service manager may do, with a call that had staged nothing. -/
  manages : ∃ c₁ s₁, c₁.output = [] ∧ c₁.copyOut = [] ∧ c₁.moveOut = [] ∧ c₁.writes = [] ∧ c₁.statics = [] ∧
    s₁.registries = s.registries ∧ Service.Manages registry request.commandId.toNat c₁ s₁ outcome c t
  caller : c.client = client
  directory : SameDirectory t answer.2
  concluded : ∃ label, answer.1 = (d.conclude c label outcome t).1 ∧ answer.2 = (c.release (d.conclude c label outcome t).2).2
  /-- If the tables of both sides were sound, the call holds what it releases. -/
  holds : (s.table client).Sound → (s.table d.server).Sound → c.Holds t

/-- A request whose handler ran has managed the names up to there. -/
theorem managed_of_handled {registry : RecordId} {ignoreMissing initialized : Bool}
    (hservice : s.service entry.service = .serviceManager registry ignoreMissing initialized)
    (hcommand : Request.commandRequest? image = some request)
    (h : d.handled? Service.invoke entry client request s = some ((outcome, c), t)) :
    Managed d client request registry s outcome c t (d.dispatch entry client image s) := by
  obtain ⟨c₁, s₁, label, himport, hinvoke, hrun⟩ := dispatchRequest_of_handled h
  have hkeeps := Call.importAll_keeps (d.call client request) s
  obtain ⟨copyIn, moveIn, movedSources, hcall⟩ := Call.importAll_call (d.call client request) s
  have hframe := Service.invoke_keeps_tables entry.service request.commandId c₁ s₁
  rw [himport] at hkeeps hcall
  rw [hinvoke] at hframe
  have hc₁ : c₁ = { d.call client request with copyIn, moveIn, movedSources } := hcall
  rw [dispatch, dispatchWith_of_command hcommand, hrun]
  constructor
  case manages =>
    have hservice₁ : s₁.service entry.service = .serviceManager registry ignoreMissing initialized := by
      rw [Machine.service, hkeeps.services, ← Machine.service, hservice]
    have hmanages := Service.invoke_manages hservice₁ request.commandId c₁
    rw [hinvoke] at hmanages
    subst hc₁
    exact ⟨_, s₁, rfl, rfl, rfl, rfl, rfl, hkeeps.registries, hmanages⟩
  case caller =>
    rw [hframe.client, hc₁]
    rfl
  case directory => exact (conclude_directory d c label outcome t).trans (Call.release_directory c _)
  case concluded => exact ⟨label, rfl, rfl⟩
  case holds =>
    intro hclient hserver
    have hbegin : (d.call client request).Holds s :=
      ⟨hserver, hclient, fun _ => List.not_mem_nil.elim, fun _ => List.not_mem_nil.elim⟩
    have himported := hbegin.importAll_holds
    rw [himport] at himported
    exact himported.handler hframe

/-- A call that writes nothing and whose response is short fails exactly if the client has no room for what it sends. -/
theorem tellsFailure_conclude_iff (label : String) (hwrites : c.writes = []) (houtput : c.output = []) (hcopies : c.copyOut = [])
    (hmoves : c.moveOut.length ≤ 1) (hstatics : c.statics = []) :
    tellsFailure (d.conclude c label (.ok ()) t).1.response ↔ ¬c.HasRoom t := by
  change tellsFailure (d.complete c t).1.response ↔ _
  by_cases hroom : c.HasRoom t
  · have hfits : c.Fits := by
      unfold Call.Fits Call.response
      rw [houtput, hcopies, hstatics]
      exact fits_short [] _ (Nat.zero_le 4) (by simpa using hmoves)
    rw [tellsFailure_complete_iff hroom, hwrites]
    exact iff_of_false (fun hnot => hnot ⟨rfl, hfits⟩) fun hfull => hfull hroom
  · obtain ⟨handles, some, released, table, code, s', -, -, -, hcode, hrun⟩ := complete_of_full d hroom
    rw [hrun]
    exact iff_of_true (tellsFailure_bare hcode) hroom

/-- The image tells a success that moves one handle, under which the client has the server end of the port behind a client end. -/
def Receives (image : Bytes) (s : Machine) (client port : RecordId) : Prop :=
  ∃ response raw server, Response.parse image = .ok response ∧ response.result = .success ∧ response.moveHandles = [raw] ∧
    (s.table client).resolve ⟨raw⟩ = some (.serverPort server) ∧ s.serverPort server = s.clientPort port

/-- A port that a call sends, and nothing else, is received unless the client is told a failure. -/
theorem receives_of_conclude {label : String} {server port : RecordId} (hc : c.Holds t) (hcopies : c.copyOut = [])
    (hmoves : c.moveOut = [.serverPort server]) (hends : t.serverPort server = t.clientPort port)
    (hsuccess : ¬tellsFailure (d.conclude c label (.ok ()) t).1.response) :
    Receives (d.conclude c label (.ok ()) t).1.response (c.release (d.conclude c label (.ok ()) t).2).2 c.client port := by
  have hdirectory := (conclude_directory d c label (.ok ()) t).trans (Call.release_directory c _)
  obtain ⟨response, hparse, hd⟩ := Call.conclude_delivers d c label (.ok ()) t hc.client
  have hresult : response.result = .success := by
    by_contra hne
    exact hsuccess ⟨response, hparse, hne⟩
  have hsent : Call.sentBy (some (.ok (), c)) response.result = ([], [.serverPort server]) := by
    rw [Call.sentBy, if_pos hresult, hcopies, hmoves]
  have hnocopies := hd.copies
  have hadds := hd.client
  rw [hsent] at hnocopies hadds
  have hhandles : response.handles = response.moveHandles.map Handle.mk := by
    rw [Response.handles, List.eq_nil_of_length_eq_zero hnocopies, List.nil_append]
  obtain ⟨raw, hraw⟩ : ∃ raw, response.moveHandles = [raw] := by
    have hlength := hadds.length_eq
    rw [hhandles, List.length_map] at hlength
    exact List.length_eq_one_iff.1 hlength
  have hresolves := hadds.sound.map_resolve hadds.length_eq hadds.bindings
  rw [hhandles, hraw] at hresolves
  have hbound : (((d.conclude c label (.ok ()) t).2).table c.client).resolve ⟨raw⟩ = some (.serverPort server) :=
    List.head_eq_of_cons_eq hresolves
  refine ⟨response, raw, server, hparse, hresult, hraw, hc.resolve_release hd ?_ hbound, ?_⟩
  · rw [hhandles, hraw]
    exact List.mem_singleton_self _
  · rw [hdirectory.serverPort, hdirectory.clientPort]
    exact hends

/-- The image asks the service manager for a new service (2), and the handler, which succeeded, has left this call and machine. -/
def Registered (d : Dispatcher) (entry : SessionEntry) (client : RecordId) (image : Bytes)
    (s : Machine) (c : Call) (t : Machine) : Prop :=
  ∃ request, Request.commandRequest? image = some request ∧ request.commandId = 2 ∧
    d.handled? Service.invoke entry client request s = some ((.ok (), c), t)

/-- What a request has made of the names: it gave a free name to a port, which the client receives unless it is told that there is
no room for it; or it freed a name and was told a success; or it kept all names. -/
inductive Names (d : Dispatcher) (entry : SessionEntry) (client : RecordId) (image : Bytes) (registry : RecordId) (s : Machine)
    (answer : Dispatched × Machine) : Prop
  | kept (names : SameNames registry s answer.2) (other : ∀ c t, ¬d.Registered entry client image s c t)
  | bound {c : Call} {t : Machine} {name : String} {port : RecordId} (registered : d.Registered entry client image s c t)
      (free : s.lookup registry name = none)
      (lookup : ∀ other, answer.2.lookup registry other = if other = name then some port else s.lookup registry other)
      (failure : tellsFailure answer.1.response ↔ ¬c.HasRoom t)
      (received : (s.table client).Sound → (s.table d.server).Sound → ¬tellsFailure answer.1.response →
        Receives answer.1.response answer.2 client port)
  | freed {name : String}
      (lookup : ∀ other, answer.2.lookup registry other = if other = name then none else s.lookup registry other)
      (success : ¬tellsFailure answer.1.response) (other : ∀ c t, ¬d.Registered entry client image s c t)

/-- A service is registered by a request just if its command is 2 and its handler succeeds. -/
theorem registered_iff (hcommand : Request.commandRequest? image = some request) {c' : Call} {u : Machine} :
    d.Registered entry client image s c' u ↔
      request.commandId = 2 ∧ d.handled? Service.invoke entry client request s = some ((.ok (), c'), u) := by
  unfold Registered
  rw [hcommand]
  simp

/-- What a command has made of the names once its handler is over. -/
theorem Managed.names {registry : RecordId} {answer : Dispatched × Machine}
    (hcommand : Request.commandRequest? image = some request)
    (hhandled : d.handled? Service.invoke entry client request s = some ((outcome, c), t))
    (h : Managed d client request registry s outcome c t answer) : Names d entry client image registry s answer := by
  have hid : request.commandId.toNat = 2 ↔ request.commandId = 2 := by
    rw [← UInt32.toNat_inj]
    rfl
  have hafter (name : String) := lookup_of_registries h.directory.registries registry name
  obtain ⟨c₁, s₁, houtput, hcopies, hmoves, hwrites, hstatics, hregistries, hmanages⟩ := h.manages
  have hbefore (name : String) := lookup_of_registries hregistries registry name
  obtain ⟨label, hresponse, hmachine⟩ := h.concluded
  have hcaller := h.caller
  have hholds := h.holds
  cases hmanages with
  | kept registries refused =>
    refine .kept (fun name => ?_) fun c' u hregistered => ?_
    · rw [hafter, lookup_of_registries registries, hbefore]
    · obtain ⟨hcommandId, hok⟩ := (registered_iff hcommand).1 hregistered
      obtain ⟨e, rfl⟩ := refused (hid.2 hcommandId)
      rw [hhandled] at hok
      cases hok
  | @registered cursor name server port t id_eq free lookup ends =>
    have hone : c₁.moveOut ++ [KernelObject.serverPort server] = [.serverPort server] := by rw [hmoves, List.nil_append]
    rw [hone] at hresponse hmachine hcaller hholds hhandled
    have hnow (other : String) :
        answer.2.lookup registry other = if other = name then some port else s.lookup registry other := by
      rw [hafter, lookup, hbefore]
    refine .bound ((registered_iff hcommand).2 ⟨hid.1 id_eq, hhandled⟩) ((hbefore name).symm.trans free) hnow ?_ ?_
    · rw [hresponse]
      exact tellsFailure_conclude_iff label hwrites houtput hcopies (Nat.le_refl 1) hstatics
    · intro hclient hserver hsuccess
      rw [hresponse] at hsuccess ⊢
      rw [hmachine, ← hcaller]
      exact receives_of_conclude (hholds hclient hserver) hcopies rfl ends hsuccess
  | @unregistered cursor name t id_eq lookup =>
    have hnow (other : String) : answer.2.lookup registry other = if other = name then none else s.lookup registry other := by
      rw [hafter, lookup, hbefore]
    refine .freed hnow ?_ fun c' u hregistered => ?_
    · rw [hresponse]
      have hnone : c₁.moveOut.length ≤ 1 := by
        rw [hmoves]
        exact Nat.zero_le 1
      have hiff : tellsFailure (d.conclude { c₁ with cursor } label (.ok ()) t).1.response ↔
          ¬Call.HasRoom { c₁ with cursor } t :=
        tellsFailure_conclude_iff label hwrites houtput hcopies hnone hstatics
      have hroom : Call.HasRoom { c₁ with cursor } t := by
        unfold Call.HasRoom
        rw [hcopies, hmoves]
        exact Nat.zero_le _
      exact fun hfails => hiff.1 hfails hroom
    · have htwo := hid.2 ((registered_iff hcommand).1 hregistered).1
      omega

/-- A request registers in one way. -/
theorem Registered.unique {c' : Call} {u : Machine} (h : d.Registered entry client image s c t)
    (h' : d.Registered entry client image s c' u) : c = c' ∧ t = u := by
  obtain ⟨request, hcommand, -, hhandled⟩ := h
  have hhandled' := ((registered_iff hcommand).1 h').2
  rw [hhandled] at hhandled'
  obtain ⟨hcall, rfl⟩ := Prod.mk.inj (Option.some.inj hhandled')
  exact ⟨(Prod.mk.inj hcall).2, rfl⟩

/-- A request to the service manager makes of the names what it may. -/
theorem dispatch_names {registry : RecordId} {ignoreMissing initialized : Bool}
    (hservice : s.service entry.service = .serviceManager registry ignoreMissing initialized) :
    Names d entry client image registry s (d.dispatch entry client image s) := by
  cases hcommand : Request.commandRequest? image with
  | none =>
    have hsame : SameButHandles s (d.dispatch entry client image s).2 := dispatchWith_of_no_command hcommand
    refine .kept (lookup_of_registries hsame.registries registry) fun c t hregistered => ?_
    obtain ⟨request, hsome, -⟩ := hregistered
    rw [hcommand] at hsome
    cases hsome
  | some request =>
    cases hhandled : d.handled? Service.invoke entry client request s with
    | none =>
      refine .kept (fun name => ?_) fun c t hregistered => ?_
      · rw [dispatch, dispatchWith_of_command hcommand]
        exact lookup_of_registries (dispatchRequest_of_unhandled hhandled) registry name
      · have hsome := ((registered_iff hcommand).1 hregistered).2
        rw [hhandled] at hsome
        cases hsome
    | some result => exact (managed_of_handled hservice hcommand hhandled).names hcommand hhandled

/-- Requests to the service manager, and starts of services, that fail keep every name with the port it had, but for one case: a
service is registered and the client has no room for its port. A name that is bound by a request that succeeds has a port that the
client received. -/
theorem registration_atomic_iff (d : Dispatcher) (entry : SessionEntry) (client : RecordId) (image : Bytes) (s : Machine)
    {registry : RecordId} {ignoreMissing initialized : Bool}
    (hservice : s.service entry.service = .serviceManager registry ignoreMissing initialized) :
    ((tellsFailure (d.dispatch entry client image s).1.response → SameNames registry s (d.dispatch entry client image s).2) ↔
      ∀ c t, d.Registered entry client image s c t → c.HasRoom t) ∧
    (¬tellsFailure (d.dispatch entry client image s).1.response →
      (∃ capacity operations, s.table client = (HandleTable.run capacity operations).1) →
      (∃ capacity operations, s.table d.server = (HandleTable.run capacity operations).1) →
      ∀ name port, (d.dispatch entry client image s).2.lookup registry name = some port → s.lookup registry name ≠ some port →
        Receives (d.dispatch entry client image s).1.response (d.dispatch entry client image s).2 client port) ∧
    ∀ kernel service e t, startEntry kernel registry service s = (.error e, t) → SameNames registry s t := by
  have hnames : Names d entry client image registry s (d.dispatch entry client image s) := dispatch_names hservice
  refine ⟨⟨fun hatomic c t hregistered => ?_, fun hroom hfails => ?_⟩, fun hsuccess hclient hserver name port hafter hbefore => ?_,
    fun kernel service e t => startEntry_of_error⟩
  · cases hnames with
    | kept names other => exact absurd hregistered (other c t)
    | freed lookup success other => exact absurd hregistered (other c t)
    | @bound c' t' name port registered free lookup failure received =>
      obtain ⟨rfl, rfl⟩ := hregistered.unique registered
      by_contra hfull
      have hsame := hatomic (failure.2 hfull) name
      rw [lookup, if_pos rfl, free] at hsame
      cases hsame
  · cases hnames with
    | kept names other => exact names
    | freed lookup success other => exact absurd hfails success
    | bound registered free lookup failure received => exact absurd (hroom _ _ registered) (failure.1 hfails)
  · cases hnames with
    | kept names other => exact absurd ((names name).symm.trans hafter) hbefore
    | freed lookup success other =>
      rw [lookup] at hafter
      split at hafter
      · cases hafter
      · exact absurd hafter hbefore
    | @bound c t bound port' registered free lookup failure received =>
      rw [lookup] at hafter
      split at hafter
      · obtain rfl := Option.some.inj hafter
        exact received (HandleTable.sound_of_run hclient) (HandleTable.sound_of_run hserver) hsuccess
      · exact absurd hafter hbefore

/-- An image tells a failure just if the result that is read of it is none of success. -/
theorem tellsFailure_iff_of_result {code : ResultCode}
    (h : (Response.parse image).toOption.map (·.result) = some code) : tellsFailure image ↔ code ≠ .success := by
  obtain ⟨response, hparse, rfl⟩ := Option.map_eq_some_iff.1 h
  have hok : Response.parse image = .ok response := by
    cases hr : Response.parse image with
    | error e =>
      rw [hr] at hparse
      cases hparse
    | ok r =>
      rw [hr] at hparse
      exact congrArg _ (Option.some.inj hparse)
  constructor
  · rintro ⟨r, hr, hne⟩
    obtain rfl := Except.ok.inj (hok.symm.trans hr)
    exact hne
  · exact fun hne => ⟨response, hok, hne⟩

/-- A service manager and a client with one handle, in a table that has room for as many as it is told. -/
def registrar (capacity : Nat) : Machine where
  nextId := 7
  processes := .ofList [
    ((1 : RecordId), { (default : Process) with handles := (HandleTable.run 1 []).1 }),
    (2, { (default : Process) with handles := (HandleTable.run capacity [.generate (.event 6)]).1 })]
  services := .ofList [((3 : RecordId), Service.serviceManager 5 false true)]

theorem service_registrar (capacity : Nat) : (registrar capacity).service 3 = .serviceManager 5 false true := rfl

/-- The server of the service manager. -/
def registrarServer : Dispatcher := { kernel := 0, server := 1 }

def registrarSession : SessionEntry := { session := 4, service := 3 }

/-- The request to register `a`. -/
def registration : Bytes :=
  (RequestDescription.encode { commandId := 2, arguments := [.longWord 0x61, .word 0, .word 1] }).toOption.getD []

/-- The dispatch of that request. -/
def registering (capacity : Nat) : Dispatched × Machine :=
  registrarServer.dispatch registrarSession 2 registration (registrar capacity)

/-- With room for a second handle, the client receives the port that the name is bound to. -/
theorem registration_atomic_received :
    (registering 2).2.lookup 5 "a" = some 9 ∧ Receives (registering 2).1.response (registering 2).2 2 9 := by
  have hresult : (Response.parse (registering 2).1.response).toOption.map (·.result) = some .success := by decide +kernel
  have hbefore : (registrar 2).lookup 5 "a" = none := by decide +kernel
  have hafter : (registering 2).2.lookup 5 "a" = some 9 := by decide +kernel
  have hclient : (registrar 2).table 2 = (HandleTable.run 2 [.generate (.event 6)]).1 := rfl
  have hserver : (registrar 2).table 1 = (HandleTable.run 1 []).1 := rfl
  have hsuccess : ¬tellsFailure (registering 2).1.response := fun hfails => (tellsFailure_iff_of_result hresult).1 hfails rfl
  refine ⟨hafter, ?_⟩
  unfold registering at hafter hsuccess ⊢
  exact (registration_atomic_iff registrarServer registrarSession 2 registration (registrar 2) (service_registrar 2)).2.1 hsuccess
    ⟨_, _, hclient⟩ ⟨_, _, hserver⟩ "a" 9 hafter (by rw [hbefore]; exact nofun)

/-- Without room for it, the name is bound although the client is told that the request failed. -/
theorem registration_atomic_false :
    ¬∀ (d : Dispatcher) (entry : SessionEntry) (client : RecordId) (image : Bytes) (s : Machine) (registry : RecordId)
      (ignoreMissing initialized : Bool), s.service entry.service = .serviceManager registry ignoreMissing initialized →
      tellsFailure (d.dispatch entry client image s).1.response → SameNames registry s (d.dispatch entry client image s).2 := by
  intro h
  have hresult : (Response.parse (registering 1).1.response).toOption.map (·.result) = some .outOfHandles := by decide +kernel
  have hbefore : (registrar 1).lookup 5 "a" = none := by decide +kernel
  have hafter : (registering 1).2.lookup 5 "a" = some 9 := by decide +kernel
  have hfails : tellsFailure (registering 1).1.response := (tellsFailure_iff_of_result hresult).2 (by decide)
  unfold registering at hafter hfails
  have hsame := h registrarServer registrarSession 2 registration (registrar 1) 5 false true (service_registrar 1) hfails "a"
  rw [hafter, hbefore] at hsame
  cases hsame

end Dispatcher

end Microkernel
