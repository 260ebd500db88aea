import Microkernel.Proofs.Service.Calls
import Microkernel.Proofs.Service.Handlers
import Microkernel.Proofs.Wire.Framing
import Microkernel.Service.Dispatch

/-!
# The cases of a dispatch

A message image carries a command or not (`commandRequest?`), the service accepts the command or not (`accepts`), and the handler
runs or not (`handled?`). A dispatch is put together from the parts that come to run.
-/

namespace Microkernel

open Machine
open Wire (Bytes Message Request Response CommandType)

/-- The request for a command that a message image carries. -/
def Wire.Request.commandRequest? (image : Bytes) : Option Request :=
  match Message.decode image with
  | .error _ => none
  | .ok message =>
    let command := (CommandType.ofCode? message.messageType).getD .invalid
    if command.isRequest then (Request.ofMessage command message).toOption else none

/-! ## Codes of failures -/

/-- No capability error is answered as a success. -/
theorem CapabilityError.code_ne_success (e : CapabilityError) : e.code ≠ .success := by
  cases e <;> dsimp only [code] <;> decide

/-- A kernel operation that fails is not told as a success. -/
theorem KernelError.code_ne_success (e : KernelError) : e.code ≠ .success := by
  cases e with
  | capability e => exact e.code_ne_success
  | _ =>
    dsimp only [code]
    decide

/-! ## Responses -/

/-- The response to a call fits a message buffer, whatever handles the client gives to what is sent. -/
def Call.Fits (c : Call) : Prop :=
  (c.response (List.replicate c.copyOut.length .invalid) (List.replicate c.moveOut.length .invalid)).message.Fits

/-- Whether a response fits does not depend on what its handles are. -/
theorem Call.fits_iff {c : Call} {copies moves : List Handle} (hc : copies.length = c.copyOut.length)
    (hm : moves.length = c.moveOut.length) : c.Fits ↔ (c.response copies moves).message.Fits :=
  Response.fits_congr (c.response copies moves) _ _ (by simp [Call.response, hc]) (by simp [Call.response, hm])

/-! ## Whether a handler runs -/

/-- How a handler ends, with the call as it leaves it and the machine; nothing if a handle cannot be attached and it does not run. -/
def Call.handled? (c : Call) (handler : Handler Unit) (s : Machine) : Option ((Except HandlerFailure Unit × Call) × Machine) :=
  match c.importAll s with
  | ((.ok (), c), s) => some (handler.run.run c s)
  | _ => none

section Handled

variable {c c' c'' : Call} {handler : Handler Unit} {s s₁ s₂ : Machine} {e : KernelError} {outcome : Except HandlerFailure Unit}

/-- No handler runs if importing fails. -/
theorem Call.handled?_of_error (h : c.importAll s = ((.error e, c'), s₁)) : c.handled? handler s = none := by
  unfold handled?
  rw [h]

/-- If importing succeeds the handler runs, and ends as it does. -/
theorem Call.handled?_of_ok (h : c.importAll s = ((.ok (), c'), s₁)) (hh : handler.run.run c' s₁ = ((outcome, c''), s₂)) :
    c.handled? handler s = some ((outcome, c''), s₂) := by
  unfold handled?
  rw [h]
  exact congrArg some hh

end Handled

namespace Dispatcher

/-- Whether a service has the command that is asked for, and the request brings the buffers it needs. -/
def accepts (s : Machine) (service : RecordId) (request : Request) : Bool :=
  match (s.service service).findCommand request.commandId with
  | some command => (validateBuffers command.buffers request.message).isOk
  | none => false

/-- How the handler of a command ended, with the call as it left it and the machine; nothing if no handler ran. -/
def handled? (d : Dispatcher) (handlers : Handlers) (entry : SessionEntry) (client : RecordId) (request : Request) (s : Machine) :
    Option ((Except HandlerFailure Unit × Call) × Machine) :=
  if accepts s entry.service request then (d.call client request).handled? (handlers entry.service request.commandId) s else none

variable {d : Dispatcher} {handlers : Handlers} {entry : SessionEntry} {client : RecordId} {request : Request} {s : Machine}

/-- A command is dispatched as its request. -/
theorem dispatchWith_of_command {image : Bytes} (h : Request.commandRequest? image = some request) :
    d.dispatchWith handlers entry client image s = d.dispatchRequest handlers entry client request s := by
  unfold Request.commandRequest? at h
  unfold dispatchWith
  rw [Update.run_look]
  cases hd : Message.decode image with
  | error e => simp [hd] at h
  | ok message =>
    simp only [hd] at h
    split at h
    · next hc =>
      have hclose : (CommandType.ofCode? message.messageType).getD .invalid ≠ .close := by
        intro he
        rw [he] at hc
        cases hc
      cases hr : Request.ofMessage ((CommandType.ofCode? message.messageType).getD .invalid) message with
      | error e => simp [hr, Except.toOption] at h
      | ok request' =>
        obtain rfl : request' = request := by simpa [hr, Except.toOption] using h
        simp only [if_neg hclose, if_pos hc, hr]
    · cases h

/-- Cloning a session changes nothing but handle tables. -/
theorem cloneSession_keeps (entry : SessionEntry) (client : RecordId) : Keeps SameButHandles (cloneSession entry client) := by
  refine (newSession_keeps none).sameButHandles.bind fun ends => (generateHandle_keeps _ _).bind fun result => ?_
  split
  · exact (closeClientSession_keeps _).sameButHandles.bind fun _ => .pure _
  · exact .pure _

/-- A control request changes nothing but handle tables. -/
theorem dispatchControl_keeps (d : Dispatcher) (entry : SessionEntry) (client : RecordId) (request : Request) :
    Keeps SameButHandles (d.dispatchControl entry client request) := by
  unfold dispatchControl
  dsimp only
  split
  · exact .pure _
  · split
    · exact cloneSession_keeps _ _
    · exact Keeps.get.bind fun _ => (log_keeps _ _).sameButHandles.bind fun _ => .pure _

/-- What is not a command changes no more than handle tables. -/
theorem dispatchWith_of_no_command {image : Bytes} (h : Request.commandRequest? image = none) :
    SameButHandles s (d.dispatchWith handlers entry client image s).2 := by
  have hlog (level : Level) (text : String) (answer : Dispatched) : Keeps SameButHandles (do
      log level text
      return answer) := (log_keeps level text).sameButHandles.bind fun _ => .pure answer
  unfold Request.commandRequest? at h
  rw [dispatchWith, Update.run_look]
  cases hd : Message.decode image with
  | error e => exact hlog _ _ _ s
  | ok message =>
    simp only [hd] at h
    dsimp only
    split
    · exact refl s
    · split
      · next hc =>
        rw [if_pos hc] at h
        cases hr : Request.ofMessage ((CommandType.ofCode? message.messageType).getD .invalid) message with
        | ok request => simp [hr, Except.toOption] at h
        | error e => exact hlog _ _ _ s
      · split
        · cases Request.ofMessage ((CommandType.ofCode? message.messageType).getD .invalid) message with
          | ok request => exact dispatchControl_keeps _ _ _ _ s
          | error e => exact hlog _ _ _ s
        · exact hlog _ _ _ s

/-- A command that is not accepted is refused. -/
theorem dispatchRequest_of_not_accepts (d : Dispatcher) (handlers : Handlers) (client : RecordId)
    (h : accepts s entry.service request = false) :
    ∃ code s', d.dispatchRequest handlers entry client request s = (.failure code, s') ∧ code ≠ .success ∧ SameOwners s s' := by
  unfold accepts at h
  rw [dispatchRequest, Update.run_look]
  cases hf : (s.service entry.service).findCommand request.commandId with
  | none => exact ⟨.unknownCommandId, _, rfl, by decide, log_keeps _ _ s⟩
  | some command =>
    cases hv : validateBuffers command.buffers request.message with
    | ok u => simp [hf, hv, Except.isOk, Except.toBool] at h
    | error e =>
      obtain rfl : e = .result .invalidBufferSize := by
        unfold validateBuffers at hv
        split at hv
        · cases hv
        · exact (Except.error.inj hv).symm
      exact ⟨.invalidBufferSize, _, by simp only [hv]; rfl, by decide, log_keeps _ _ s⟩

/-- A command that is accepted is carried out. -/
theorem dispatchRequest_of_accepts (d : Dispatcher) (handlers : Handlers) (client : RecordId)
    (h : accepts s entry.service request = true) :
    ∃ label, d.dispatchRequest handlers entry client request s =
      d.carryOut (handlers entry.service request.commandId) label (d.call client request) s := by
  unfold accepts at h
  rw [dispatchRequest, Update.run_look]
  cases hf : (s.service entry.service).findCommand request.commandId with
  | none => simp [hf] at h
  | some command =>
    cases hv : validateBuffers command.buffers request.message with
    | error e => simp [hf, hv, Except.isOk, Except.toBool] at h
    | ok u => exact ⟨_, by simp only [hv]; rfl⟩

/-! ## Delivering -/

variable {c : Call} {label : String} {handler : Handler Unit}

/-- Without room for what the handler sends the reply is not delivered. -/
theorem complete_of_full (d : Dispatcher) (h : ¬c.HasRoom s) : ∃ handles some released t code s',
    (s.table c.client).Binds handles some t ∧ released.Perm handles ∧ Rebinds s c.client (t.releaseAll released) s' ∧
    code ≠ .success ∧ d.complete c s = (.failure code, s') := by
  obtain ⟨handles, some, released, t, s₁, hb, hp, hr, hc⟩ := Call.commit_of_full h
  have hlost : Keeps SameOwners (do
      log .warn s!"{(s.process d.server).name}: reply not delivered: {(ServiceError.kernel .outOfHandles).message}"
      Call.discard (c.copyOut ++ c.moveOut) c.newSessions) := (log_keeps _ _).bind fun _ => Call.discard_keeps _ _
  refine ⟨handles, some, released, t, _, _, hb, hp, hr.trans_owners (hlost s₁), KernelError.code_ne_success .outOfHandles, ?_⟩
  rw [complete, Update.run_look, Update.run_bind, hc]
  rfl

/-- With room for what the handler sends, the reply is delivered exactly if all writes succeed and the response fits. -/
theorem complete_of_room (d : Dispatcher) (h : c.HasRoom s) : ∃ copies moves t s₁,
    (s.table c.client).Binds (copies ++ moves) (c.copyOut ++ c.moveOut) t ∧ copies.length = c.copyOut.length ∧
    Rebinds s c.client t s₁ ∧
    ((((Call.applyWrites c.client c.writes).run s₁).1 = .ok () ∧ c.Fits ∧ ∃ image, (c.response copies moves).encode = .ok image ∧
        d.complete c s = ({ response := image, newSessions := c.newSessions }, ((Call.applyWrites c.client c.writes).run s₁).2)) ∨
      ∃ released code s', ¬(((Call.applyWrites c.client c.writes).run s₁).1 = .ok () ∧ c.Fits) ∧
        released.Perm (copies ++ moves) ∧ code ≠ .success ∧ d.complete c s = (.failure code, s') ∧
        Rebinds ((Call.applyWrites c.client c.writes).run s₁).2 c.client
          ((((Call.applyWrites c.client c.writes).run s₁).2.table c.client).releaseAll released) s') := by
  obtain ⟨copies, moves, t, s₁, hb, hl, hr, hc⟩ := Call.commit_of_room h
  refine ⟨copies, moves, t, s₁, hb, hl, hr, ?_⟩
  rcases hw : (Call.applyWrites c.client c.writes).run s₁ with ⟨e | u, s₂⟩
  · -- a write fails: the handles are unbound, copies first
    rw [hw] at hc
    have hu := Call.unbind_rebinds s₂ c.client copies
    have hu' := Call.unbind_rebinds (Call.unbind c.client copies s₂).2 c.client moves
    rw [hu.table_self, ← HandleTable.releaseAll_append] at hu'
    have hlost : Keeps SameOwners (do
        log .warn s!"{(s.process d.server).name}: reply not delivered: {(ServiceError.kernel e).message}"
        Call.discard (c.copyOut ++ c.moveOut) c.newSessions) := (log_keeps _ _).bind fun _ => Call.discard_keeps _ _
    refine .inr ⟨copies ++ moves, e.code, _, by simp, List.Perm.refl _, e.code_ne_success, ?_,
      (hu.trans hu').trans_owners (hlost _)⟩
    rw [complete, Update.run_look, Update.run_bind, hc]
    rfl
  · rw [hw] at hc
    have hfits : c.Fits ↔ (c.response copies moves).message.Fits := by
      have := hb.length_eq
      rw [List.length_append, List.length_append] at this
      exact Call.fits_iff hl (by omega)
    cases he : (c.response copies moves).encode with
    | ok image =>
      refine .inl ⟨rfl, hfits.2 ((Message.encode_eq_ok_iff _ _).1 he).1, image, rfl, ?_⟩
      rw [complete, Update.run_look, Update.run_bind, hc]
      simp only [he]
      rfl
    | error e =>
      have hu := Call.unbind_rebinds (log .error s!"{(s.process d.server).name}: response does not fit: {e.message}" s₂).2 c.client
        (copies ++ moves)
      have hlog := log_keeps .error s!"{(s.process d.server).name}: response does not fit: {e.message}" s₂
      rw [hlog.table] at hu
      have hlong : ¬c.Fits := fun hf => by
        have himage : (c.response copies moves).encode = .ok _ := (Message.encode_eq_ok_iff _ _).2 ⟨hfits.1 hf, rfl⟩
        rw [he] at himage
        cases himage
      refine .inr ⟨copies ++ moves, .handlerFailed, _, fun hok => hlong hok.2, List.Perm.refl _, by decide, ?_,
        (Rebinds.ofOwners hlog c.client).trans (hu.trans_owners (Call.discard_keeps [] c.newSessions _))⟩
      rw [complete, Update.run_look, Update.run_bind, hc]
      simp only [he]
      rfl

/-- What a handler that fails has staged is dropped. -/
theorem conclude_of_error (d : Dispatcher) (c : Call) (label : String) (failure : HandlerFailure) :
    ∃ code close s', d.conclude c label (.error failure) s = ({ response := Response.bare code, close }, s') ∧ SameOwners s s' := by
  have hdiscard := Call.discard_keeps (c.copyOut ++ c.moveOut) c.newSessions
  cases failure with
  | panicked => exact ⟨.handlerFailed, false, _, rfl, ((log_keeps _ _).bind fun _ => hdiscard) s⟩
  | error e =>
    cases e with
    | corrupted reason => exact ⟨.handlerFailed, true, _, rfl, ((log_keeps _ _).bind fun _ => hdiscard) s⟩
    | result code => exact ⟨code, false, _, rfl, hdiscard s⟩
    | kernel e => exact ⟨_, false, _, rfl, hdiscard s⟩
    | registry e => exact ⟨_, false, _, rfl, hdiscard s⟩
    | protocol e => exact ⟨_, false, _, rfl, hdiscard s⟩

/-! ## Carrying out -/

/-- No handler runs for a command that is not accepted. -/
theorem handled?_of_not_accepts (h : accepts s entry.service request = false) : d.handled? handlers entry client request s = none := by
  unfold handled?
  rw [h]
  rfl

section Accepted

variable {c' : Call} {e : KernelError} {outcome : Except HandlerFailure Unit} {s₁ s₂ : Machine}
  (ha : accepts s entry.service request = true)
include ha

/-- No handler runs for a command whose handles cannot be imported. -/
theorem handled?_of_error (h : (d.call client request).importAll s = ((.error e, c), s₁)) :
    d.handled? handlers entry client request s = none := by
  unfold handled?
  rw [if_pos ha, Call.handled?_of_error h]

/-- The handler of an accepted command runs, and ends as it does. -/
theorem handled?_of_ok (h : (d.call client request).importAll s = ((.ok (), c), s₁))
    (hh : (handlers entry.service request.commandId).run.run c s₁ = ((outcome, c'), s₂)) :
    d.handled? handlers entry client request s = some ((outcome, c'), s₂) := by
  unfold handled?
  rw [if_pos ha, Call.handled?_of_ok h hh]

end Accepted

/-- A handle that cannot be attached ends the call before its handler runs. -/
theorem carryOut_of_error (d : Dispatcher) (handler : Handler Unit) (label : String) {e : KernelError} {call : Call} {s₁ : Machine}
    (h : call.importAll s = ((.error e, c), s₁)) :
    ∃ s', d.carryOut handler label call s = (.failure e.code, s') ∧ SameOwners (c.release s₁).2 s' := by
  refine ⟨(log .warn s!"{label} bad handle: {e.message}" (c.release s₁).2).2, ?_, log_keeps _ _ _⟩
  rw [carryOut, Update.run_bind, h]
  rfl

/-- Once everything is attached the handler runs, its call is concluded, and what was attached is released. -/
theorem carryOut_of_ok (d : Dispatcher) (label : String) {call c' : Call} {outcome : Except HandlerFailure Unit} {s₁ s₂ : Machine}
    (h : call.importAll s = ((.ok (), c), s₁))
    (hh : handler.run.run c s₁ = ((outcome, c'), s₂)) :
    d.carryOut handler label call s =
      ((d.conclude c' label outcome s₂).1, (c'.release (d.conclude c' label outcome s₂).2).2) := by
  rw [carryOut, Update.run_bind, h]
  dsimp only
  rw [Update.run_bind]
  rw [hh]
  rfl

end Dispatcher

end Microkernel
