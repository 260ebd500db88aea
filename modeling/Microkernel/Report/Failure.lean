import Microkernel.Bench.Basic
import Microkernel.Json.Basic

/-!
# Reports on failures

Every error as the operator sees it: its name, its wording and, where it has one, its result code. Arithmetic that left its range has no
wording: the operation was broken off.
-/

namespace Microkernel

open Json (nat record)

/-- A failure as it is reported. -/
structure Failure where
  kind : String
  message : Option String := some ""
  details : List (String × Json) := []

/-- A step over a state whose failure is reported. -/
abbrev Step (σ : Type) := ExceptT Failure (StateM σ)

namespace Failure

def report (f : Failure) : Json :=
  record (("error", .string f.kind) :: (f.message.toList.map fun m => ("message", Json.string m)) ++ f.details)

/-- An operation that was broken off. -/
def panic : Failure := { kind := "Panic" }

/-- A command that is not known. -/
def badInput : Failure := { kind := "BadInput" }

/-- Nothing has this name. -/
def noObject (name : String) : Failure := { kind := "NoObject", message := some name }

/-- JSON that does not have the form asked for. -/
def badJson : Failure := { kind := "Json", message := none }

/-- A failure with a result code. -/
def coded (kind message : String) (code : ResultCode) : Failure :=
  { kind, message := some message, details := [("code", nat code.raw.toNat)] }

def ofCapability : CapabilityError → Failure
  | .overflow _ => panic
  | e => coded e.name e.message e.code

def ofKernel (e : KernelError) : Failure := if e.isOverflow then panic else coded e.name e.message e.code

def ofProtocol (e : Wire.ProtocolError) : Failure := { kind := e.name, message := some e.message }

def ofRegistry (e : RegistryError) : Failure := coded e.name e.message e.code

def ofHost (e : HostError) : Failure := { kind := e.name, message := some e.message }

def ofHandle (e : HandleError) : Failure := { kind := (KernelError.ofHandleError e).name, message := some e.message }

def ofService (e : ServiceError) : Failure :=
  match e with
  | .kernel .overflow => panic
  | e => coded e.name e.message e.code

def ofSupervisor (e : SupervisorError) : Failure :=
  let message := if e = .config then none else some e.message
  { kind := e.name, message, details := [("fatal", .bool e.isFatal)] }

def ofBench : BenchError → Failure
  | .noObject name => noObject name
  | .noThread => { kind := "NoThread" }
  | .busy => { kind := "Busy" }
  | .idle => { kind := "Idle" }
  | .stuck => { kind := "Hang" }
  | .kernel e => ofKernel e
  | .service e => ofService e
  | .registry e => ofRegistry e
  | .protocol e => ofProtocol e
  | .unknown => badInput
  | .supervisor e => ofSupervisor e

/-! ## Steps that can fail in any of these ways -/

/-- The outcome of an operation among reported ones. -/
def lifted {α ε : Type} {m : Type → Type} [Monad m] (f : ε → Failure) (x : Except ε α) : ExceptT Failure m α :=
  ExceptT.mk (pure (x.mapError f))

instance {m : Type → Type} [Monad m] : MonadLift (Except KernelError) (ExceptT Failure m) := ⟨lifted ofKernel⟩
instance {m : Type → Type} [Monad m] : MonadLift (Except CapabilityError) (ExceptT Failure m) := ⟨lifted ofCapability⟩
instance {m : Type → Type} [Monad m] : MonadLift (Except Wire.ProtocolError) (ExceptT Failure m) := ⟨lifted ofProtocol⟩
instance {m : Type → Type} [Monad m] : MonadLift (Except RegistryError) (ExceptT Failure m) := ⟨lifted ofRegistry⟩
instance {m : Type → Type} [Monad m] : MonadLift (Except HostError) (ExceptT Failure m) := ⟨lifted ofHost⟩
instance {m : Type → Type} [Monad m] : MonadLift (Except HandleError) (ExceptT Failure m) := ⟨lifted ofHandle⟩


instance : MonadLift Operation (Step Bench) := ⟨fun op => ExceptT.mk do return (← op.run).mapError ofBench⟩

/-- An outcome as an answer. -/
def answer : Except Failure Json → Json
  | .ok j => record [("ok", j)]
  | .error f => f.report

/-- Takes steps one after the other, also past one that fails; answers with the answer to each. -/
def answers {σ : Type} (state : σ) (steps : List (Step σ Json)) : Json :=
  .array ((steps.mapM fun step => return answer (← step.run) : StateM σ (List Json)).run state).1

end Failure

end Microkernel
