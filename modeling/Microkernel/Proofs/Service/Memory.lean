import Microkernel.Proofs.Machine.Accesses
import Microkernel.Proofs.Service.Cases

/-!
# What a dispatch writes

A dispatch changes the memory of guests in one place, where the writes that the handler staged are carried out one after the other.
Nothing takes back the writes before one that fails, or those of a response that does not fit.
-/

namespace Microkernel

open Machine
open Wire (Bytes Message Request RequestDescription Response CommandType)

variable {α : Type}

/-- The byte that a process sees at an address. -/
def Machine.guestByte (s : Machine) (process : RecordId) (address : Nat) : Option UInt8 :=
  ((s.process process).space.physicalAt address).map (s.kernel (s.process process).kernel).host.memory.byteAt

/-- The address spaces of both machines and the memories behind them are the same. -/
structure SameMemory (s t : Machine) : Prop where
  space : ∀ id, (t.process id).space = (s.process id).space
  kernel : ∀ id, (t.process id).kernel = (s.process id).kernel
  memory : ∀ id, (t.kernel id).host.memory = (s.kernel id).host.memory

instance : IsPreorder Machine SameMemory where
  refl _ := ⟨fun _ => rfl, fun _ => rfl, fun _ => rfl⟩
  trans _ _ _ h h' := ⟨fun id => (h'.space id).trans (h.space id), fun id => (h'.kernel id).trans (h.kernel id),
    fun id => (h'.memory id).trans (h.memory id)⟩

namespace SameMemory

variable {s t u : Machine}

theorem trans (h : SameMemory s t) (h' : SameMemory t u) : SameMemory s u := IsTrans.trans _ _ _ h h'

/-- Every process sees the same bytes. -/
theorem guestByte_eq (h : SameMemory s t) (process : RecordId) (address : Nat) :
    t.guestByte process address = s.guestByte process address := by
  unfold Machine.guestByte
  rw [h.space, h.kernel, h.memory]

end SameMemory

/-- Where guests stay as they are, their memory does. -/
theorem SameGuests.sameMemory {s t : Machine} (h : SameGuests s t) : SameMemory s t where
  space id := by rw [Machine.process, h.processes, Machine.process]
  kernel id := by rw [Machine.process, h.processes, Machine.process]
  memory id := by
    obtain ⟨audit, ha⟩ := h.kernels id
    rw [ha]

/-- Where only handle tables change, memory does not. -/
theorem SameButHandles.sameMemory {s t : Machine} (h : SameButHandles s t) : SameMemory s t where
  space id := by
    obtain ⟨handles, hp⟩ := h.process id
    rw [hp]
  kernel id := by
    obtain ⟨handles, hp⟩ := h.process id
    rw [hp]
  memory id := by rw [Machine.kernel, h.kernels, Machine.kernel]

/-! ## Writing -/

/-- Memory that is set is that of its own kernel. -/
theorem Machine.memory_setMemory (s : Machine) (kernel id : RecordId) (memory : HostMemory) :
    ((setMemory kernel memory s).2.kernel id).host.memory = if id = kernel then memory else (s.kernel id).host.memory := by
  change ((s.kernels.insert kernel _).getD id default).host.memory = _
  rw [Std.TreeMap.getD_insert]
  by_cases h : id = kernel
  · rw [if_pos h, if_pos (by rw [h]; exact Std.ReflCmp.compare_self)]
  · rw [if_neg h, if_neg fun hc => h (Std.LawfulEqCmp.eq_of_compare hc).symm]
    rfl

namespace SameMemory

variable {s t : Machine}

/-- Machines with the same memory are written to in the same way. -/
theorem writeMemory (h : SameMemory s t) (process : RecordId) (address : Nat) (bytes : Bytes) :
    ((Machine.writeMemory process address bytes).run t).1 = ((Machine.writeMemory process address bytes).run s).1 ∧
    SameMemory ((Machine.writeMemory process address bytes).run s).2 ((Machine.writeMemory process address bytes).run t).2 := by
  rw [writeMemory_run, writeMemory_run, h.space, h.kernel, h.memory]
  split
  · refine ⟨rfl, ?_⟩
    constructor
    case space => exact h.space
    case kernel => exact h.kernel
    case memory =>
      intro id
      rw [memory_setMemory, memory_setMemory, h.memory]
  · exact ⟨rfl, h⟩

/-- The same writes to the same memory have one outcome and leave the same memory. -/
theorem applyWrites (h : SameMemory s t) (client : RecordId) (writes : List (Nat × Bytes)) :
    ((Call.applyWrites client writes).run t).1 = ((Call.applyWrites client writes).run s).1 ∧
    SameMemory ((Call.applyWrites client writes).run s).2 ((Call.applyWrites client writes).run t).2 := by
  induction writes generalizing s t with
  | nil => exact ⟨rfl, h⟩
  | cons write rest ih =>
    obtain ⟨hresult, hafter⟩ := h.writeMemory client write.1 write.2
    rw [Call.applyWrites, Action.run_bind, Action.run_bind]
    rcases hs : (Machine.writeMemory client write.1 write.2).run s with ⟨e | u, s'⟩
    · rcases ht : (Machine.writeMemory client write.1 write.2).run t with ⟨e' | u', t'⟩
      · rw [hs, ht] at hresult hafter
        exact ⟨hresult, hafter⟩
      · rw [hs, ht] at hresult
        cases hresult
    · rcases ht : (Machine.writeMemory client write.1 write.2).run t with ⟨e' | u', t'⟩
      · rw [hs, ht] at hresult
        cases hresult
      · rw [hs, ht] at hafter
        exact ih hafter

end SameMemory

/-! ## What is written in the end -/

namespace Dispatcher

variable {d : Dispatcher} {entry : SessionEntry} {client : RecordId} {request : Request} {image : Bytes} {s s₁ : Machine} {c : Call}

/-- The call whose writes a command carries out: its handler succeeded, and the client has room for all that it sends. -/
def delivered? (d : Dispatcher) (entry : SessionEntry) (client : RecordId) (request : Request) (s : Machine) : Option Call :=
  match d.handled? Service.invoke entry client request s with
  | some ((.ok (), c), s) => if c.HasRoom s then some c else none
  | _ => none

/-- The machine with what a call writes, up to the first write that fails. -/
def written (s : Machine) (client : RecordId) : Option Call → Machine
  | some c => ((Call.applyWrites client c.writes).run s).2
  | none => s

/-- Up to the end of the handler no memory is written. -/
theorem importAll_sameMemory {call : Call} {result : Except KernelError Unit} (h : call.importAll s = ((result, c), s₁)) :
    SameMemory s s₁ ∧ c.client = call.client := by
  have hk := Call.importAll_keeps call s
  have hc := Call.importAll_client call s
  rw [h] at hk hc
  exact ⟨hk.sameMemory, hc⟩

/-- A command changes no memory, and leaves the client of its call. -/
theorem invoke_sameMemory {service : RecordId} {id : UInt32} {outcome : Except HandlerFailure Unit} {c' : Call} {s₂ : Machine}
    (h : (Service.invoke service id).run.run c s₁ = ((outcome, c'), s₂)) : SameMemory s₁ s₂ ∧ c'.client = c.client := by
  have hk := Service.invoke_keeps service id c s₁
  rw [h] at hk
  exact ⟨hk.guests.sameMemory, hk.client⟩

/-- A call that is delivered writes what its handler staged, and nothing else. -/
theorem complete_memory_of_room (h : c.HasRoom s) :
    SameMemory ((Call.applyWrites c.client c.writes).run s).2 (d.complete c s).2 := by
  obtain ⟨copies, moves, t, s₁, -, -, hr, hcases⟩ := complete_of_room d h
  have hwrites := (hr.frame.sameMemory.applyWrites c.client c.writes).2
  rcases hcases with ⟨-, -, response, -, hrun⟩ | ⟨released, code, s', -, -, -, hrun, hu⟩
  · rw [hrun]
    exact hwrites
  · rw [hrun]
    exact hwrites.trans hu.frame.sameMemory

/-- Completing a call changes no memory if the client has no room for what it sends. -/
theorem complete_memory_of_full (h : ¬c.HasRoom s) : SameMemory s (d.complete c s).2 := by
  obtain ⟨handles, some, released, t, code, s', -, -, hr, -, hrun⟩ := complete_of_full d h
  rw [hrun]
  exact hr.frame.sameMemory

/-- A command writes exactly the writes of the call that is delivered, up to the first that fails. -/
theorem dispatchRequest_memory (d : Dispatcher) (entry : SessionEntry) (client : RecordId) (request : Request) (s : Machine) :
    SameMemory (written s client (d.delivered? entry client request s)) (d.dispatchRequest Service.invoke entry client request s).2 := by
  unfold delivered?
  cases haccepts : accepts s entry.service request with
  | false =>
    obtain ⟨code, s', hrun, -, hs⟩ := dispatchRequest_of_not_accepts d Service.invoke client haccepts
    rw [hrun, handled?_of_not_accepts haccepts]
    exact hs.sameButHandles.sameMemory
  | true =>
    obtain ⟨label, hrun⟩ := dispatchRequest_of_accepts d Service.invoke client haccepts
    rw [hrun]
    rcases himport : (d.call client request).importAll s with ⟨⟨e | u, c⟩, s₁⟩
    · obtain ⟨hm, -⟩ := importAll_sameMemory himport
      obtain ⟨s', hcarry, hs⟩ := carryOut_of_error d (Service.invoke entry.service request.commandId) label himport
      rw [hcarry, handled?_of_error haccepts himport]
      exact (hm.trans (Call.release_keeps c s₁).sameMemory).trans hs.sameButHandles.sameMemory
    · obtain ⟨hm, hclient⟩ := importAll_sameMemory himport
      rcases hinvoke : (Service.invoke entry.service request.commandId).run.run c s₁ with ⟨⟨outcome, c'⟩, s₂⟩
      obtain ⟨hm', hclient'⟩ := invoke_sameMemory hinvoke
      rw [carryOut_of_ok d label himport hinvoke, handled?_of_ok haccepts himport hinvoke]
      have hbefore := hm.trans hm'
      have hrelease := (Call.release_keeps c' (d.conclude c' label outcome s₂).2).sameMemory
      cases outcome with
      | error failure =>
        obtain ⟨code, close, s', hconclude, hs⟩ := conclude_of_error (s := s₂) d c' label failure
        rw [hconclude] at hrelease ⊢
        exact (hbefore.trans hs.sameButHandles.sameMemory).trans hrelease
      | ok u =>
        have hcomplete : d.conclude c' label (.ok u) s₂ = d.complete c' s₂ := rfl
        rw [hcomplete] at hrelease ⊢
        dsimp only
        by_cases hroom : c'.HasRoom s₂
        · rw [if_pos hroom]
          have hwrites := (hbefore.applyWrites client c'.writes).2
          have hdelivered := complete_memory_of_room (d := d) hroom
          rw [hclient', hclient] at hdelivered
          exact (hwrites.trans hdelivered).trans hrelease
        · rw [if_neg hroom]
          exact (hbefore.trans (complete_memory_of_full hroom)).trans hrelease

/-- Only a command writes anything. -/
theorem dispatch_memory (d : Dispatcher) (entry : SessionEntry) (client : RecordId) (image : Bytes) (s : Machine) :
    SameMemory (written s client ((Request.commandRequest? image).bind (d.delivered? entry client · s)))
      (d.dispatch entry client image s).2 := by
  cases hcommand : Request.commandRequest? image with
  | none => exact (dispatchWith_of_no_command hcommand).sameMemory
  | some request =>
    rw [dispatch, dispatchWith_of_command hcommand]
    exact dispatchRequest_memory d entry client request s

/-! ## When a failed dispatch writes nothing -/

/-- The image is that of a response with another result than success. -/
def tellsFailure (image : Bytes) : Prop := ∃ r, Response.parse image = .ok r ∧ r.result ≠ .success

/-- A bare response with a failure tells it. -/
theorem tellsFailure_bare {code : ResultCode} (h : code ≠ .success) : tellsFailure (Response.bare code) := by
  obtain ⟨r, hr, hresult, -, -⟩ := Response.parse_bare code
  exact ⟨r, hr, by rw [hresult]; exact h⟩

/-- The image of a response to a call that succeeded tells no failure. -/
theorem not_tellsFailure_response {copies moves : List Handle} (h : (c.response copies moves).encode = .ok image) :
    ¬tellsFailure image := by
  rintro ⟨r, hr, hne⟩
  have hp := Response.parse_encode h
  rw [hr] at hp
  obtain rfl := Except.ok.inj hp
  exact hne rfl

/-- Whether the delivery of a call fails: a write does, or the response does not fit. -/
theorem tellsFailure_complete_iff (h : c.HasRoom s) : tellsFailure (d.complete c s).1.response ↔
    ¬(((Call.applyWrites c.client c.writes).run s).1 = .ok () ∧ c.Fits) := by
  obtain ⟨copies, moves, t, s₁, -, -, hr, hcases⟩ := complete_of_room d h
  rw [(hr.frame.sameMemory.applyWrites c.client c.writes).1] at hcases
  rcases hcases with ⟨hok, hfits, response, hencode, hrun⟩ | ⟨released, code, s', hnot, -, hcode, hrun, -⟩
  · rw [hrun]
    exact iff_of_false (not_tellsFailure_response hencode) fun hnot => hnot ⟨hok, hfits⟩
  · rw [hrun]
    exact iff_of_true (tellsFailure_bare hcode) hnot

/-- Whether a command whose call is delivered fails. -/
theorem tellsFailure_dispatchRequest_iff (h : d.delivered? entry client request s = some c) :
    tellsFailure (d.dispatchRequest Service.invoke entry client request s).1.response ↔
    ¬(((Call.applyWrites client c.writes).run s).1 = .ok () ∧ c.Fits) := by
  unfold delivered? at h
  cases haccepts : accepts s entry.service request with
  | false => simp [handled?_of_not_accepts haccepts] at h
  | true =>
    obtain ⟨label, hrun⟩ := dispatchRequest_of_accepts d Service.invoke client haccepts
    rcases himport : (d.call client request).importAll s with ⟨⟨e | u, c₁⟩, s₁⟩
    · simp [handled?_of_error haccepts himport] at h
    · obtain ⟨hm, hclient⟩ := importAll_sameMemory himport
      rcases hinvoke : (Service.invoke entry.service request.commandId).run.run c₁ s₁ with ⟨⟨outcome, c'⟩, s₂⟩
      obtain ⟨hm', hclient'⟩ := invoke_sameMemory hinvoke
      rw [handled?_of_ok haccepts himport hinvoke] at h
      cases outcome with
      | error failure => simp at h
      | ok u =>
        dsimp only at h
        split at h
        · next hroom =>
          obtain rfl : c' = c := Option.some.inj h
          have hiff := tellsFailure_complete_iff (d := d) hroom
          rw [hclient', hclient] at hiff
          rw [hrun, carryOut_of_ok d label himport hinvoke]
          rw [((hm.trans hm').applyWrites (d.call client request).client c'.writes).1] at hiff
          exact hiff
        · cases h

/-- A failed dispatch leaves the client's memory as it is exactly if no write was carried out that changed a byte: writes are carried out
if the handler succeeds and its objects find room, and they stay if one of them fails or the response does not fit. -/
theorem failed_dispatch_keeps_memory_iff (d : Dispatcher) (entry : SessionEntry) (client : RecordId) (image : Bytes) (s : Machine) :
    (tellsFailure (d.dispatch entry client image s).1.response →
      ∀ address, (d.dispatch entry client image s).2.guestByte client address = s.guestByte client address) ↔
    ∀ request c, Request.commandRequest? image = some request → d.delivered? entry client request s = some c →
      ¬(((Call.applyWrites client c.writes).run s).1 = .ok () ∧ c.Fits) →
      ∀ address, ((Call.applyWrites client c.writes).run s).2.guestByte client address = s.guestByte client address := by
  have hmemory := dispatch_memory d entry client image s
  constructor
  · intro hclaim request c hcommand hdelivered hnot address
    rw [hcommand, Option.bind_some, hdelivered] at hmemory
    have hfails := (tellsFailure_dispatchRequest_iff hdelivered).2 hnot
    rw [← dispatchWith_of_command hcommand] at hfails
    rw [← hclaim hfails address]
    exact (hmemory.guestByte_eq client address).symm
  · intro hwrites hfails address
    rw [hmemory.guestByte_eq client address]
    cases hcommand : Request.commandRequest? image with
    | none => rfl
    | some request =>
      rw [Option.bind_some]
      cases hdelivered : d.delivered? entry client request s with
      | none => rfl
      | some c =>
        rw [dispatch, dispatchWith_of_command hcommand] at hfails
        exact hwrites request c hcommand hdelivered ((tellsFailure_dispatchRequest_iff hdelivered).1 hfails) address

/-- A client with one page, and a service whose only command writes into that page and then behind it. -/
def strayMachine : Machine where
  kernels := .ofList [((0 : RecordId), { (default : Kernel) with host := { (default : Host) with memory := .new pageSize } })]
  processes := .ofList [
    ((1 : RecordId), { (default : Process) with handles := .new 1 }),
    (2, { (default : Process) with
      handles := .new 1
      space := ⟨[.ofPages pageSize ⟨[⟨0, 1⟩]⟩ .readWrite .normal]⟩ })]
  services := .ofList [((3 : RecordId),
    Service.scripted [.mk { id := 0, name := "stray" } [.writeMemory pageSize [1], .writeMemory (2 * pageSize) [1]]] 0 none)]

/-- The dispatch of that command. -/
def strayDispatch : Dispatched × Machine :=
  dispatch { kernel := 0, server := 1 } { session := 4, service := 3 } 2 ((RequestDescription.encode {}).toOption.getD []) strayMachine

/-- The first of two writes stays although the second fails, and with it the dispatch. -/
theorem failed_dispatch_keeps_memory_false :
    ¬∀ (d : Dispatcher) (entry : SessionEntry) (client : RecordId) (image : Bytes) (s : Machine),
      tellsFailure (d.dispatch entry client image s).1.response →
        ∀ address, (d.dispatch entry client image s).2.guestByte client address = s.guestByte client address := by
  intro h
  have hresult : (Response.parse strayDispatch.1.response).toOption.map (·.result) = some .invalidAddress := by decide +kernel
  have hbefore : strayMachine.guestByte 2 pageSize = some 0 := by decide +kernel
  have hafter : strayDispatch.2.guestByte 2 pageSize = some 1 := by decide +kernel
  have hfails : tellsFailure strayDispatch.1.response := by
    cases hr : Response.parse strayDispatch.1.response with
    | error e =>
      rw [hr] at hresult
      cases hresult
    | ok r =>
      rw [hr] at hresult
      have hcode : r.result = .invalidAddress := Option.some.inj hresult
      exact ⟨r, hr, by rw [hcode]; decide⟩
  have hsame := h _ _ _ _ _ hfails pageSize
  change strayDispatch.2.guestByte 2 pageSize = _ at hsame
  rw [hafter, hbefore] at hsame
  cases hsame

end Dispatcher

end Microkernel
