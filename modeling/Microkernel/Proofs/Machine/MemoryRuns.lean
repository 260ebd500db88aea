import Microkernel.Machine.GuestThreads
import Microkernel.Proofs.Machine.GrantCalls
import Microkernel.Proofs.Machine.ProcessIds

/-!
# Runs of memory calls

Guests ask for what hosts ask for, through handles (`run_hostCall?`). However hosts and guests make, map, unmap, lend and protect
memory objects while processes start and end, no mapping exceeds what its object grants, and the list of every transfer memory names
its mappings (`grants_hold`).
-/

namespace Microkernel

namespace Machine

/-! ## Guests -/

/-- What a handle names for a thread, itself and its process apart. -/
def named (s : Machine) (thread : RecordId) (handle : Handle) : Option KernelObject :=
  if handle.isPseudo then none else (s.process (s.thread thread).process).handles.resolve handle

/-- The call of a host that does what a guest asks for with a memory call. -/
def hostCall? (s : Machine) (thread : RecordId) : GuestCall → Option HostCall
  | .createTransfer address size permission => some (.lendHeap (s.thread thread).process address size permission)
  | .mapShared h address size asked =>
    ((s.named thread h).bind KernelObject.sharedMemory?).map (.mapShared · (s.thread thread).process address size asked)
  | .unmapShared h address size =>
    ((s.named thread h).bind KernelObject.sharedMemory?).map (.unmapShared · (s.thread thread).process address size)
  | .mapTransfer h address size asked =>
    ((s.named thread h).bind KernelObject.transferMemory?).map (.mapTransfer · (s.thread thread).process address size asked)
  | .unmapTransfer h address size =>
    ((s.named thread h).bind KernelObject.transferMemory?).map (.unmapTransfer · (s.thread thread).process address size)
  | .protectTransfer h permission =>
    ((s.named thread h).bind KernelObject.transferMemory?).map (.protectTransfer · permission)
  | _ => none

variable {s : Machine} {thread : RecordId}

/-- A handle that names something of a kind is resolved to it. -/
theorem resolveAs_of_named {α : Type} {handle : Handle} {cast : KernelObject → Option α} {a : α}
    (h : (s.named thread handle).bind cast = some a) : (resolveAs thread handle cast).run s = (.ok a, s) := by
  obtain ⟨o, hnamed, hcast⟩ := Option.bind_eq_some_iff.1 h
  unfold named at hnamed
  split at hnamed
  · cases hnamed
  · next hpseudo =>
    simp only [Handle.isPseudo, Bool.or_eq_true, decide_eq_true_eq, not_or] at hpseudo
    have hresolve : (resolveFor thread handle).run s = (.ok o, s) := by
      rw [resolveFor, Action.run_look, if_neg hpseudo.1, if_neg hpseudo.2, resolveHandle, Action.run_look, hnamed]
      rfl
    rw [resolveAs, Action.run_bind, hresolve]
    dsimp only
    rw [hcast]
    rfl

/-- What a program answers does not matter to the machine that it leaves. -/
theorem machine_bind_pure {α β : Type} (p : Action α) (f : α → β) (s : Machine) :
    ((p >>= fun a => pure (f a)).run s).2 = (p.run s).2 := by
  rw [Action.run_bind]
  rcases p.run s with ⟨_ | a, t⟩ <;> rfl

/-- A memory call of a guest does what the call of a host does; what a guest lends, it also gets a handle of. -/
theorem run_hostCall? {call : GuestCall} {host : HostCall} (h : s.hostCall? thread call = some host) (kernel : RecordId) :
    ((runCall thread call).run s).2 = (host.run kernel s).2 ∨
    ∃ address size permission i t, call = .createTransfer address size permission ∧
      host = .lendHeap (s.thread thread).process address size permission ∧
      (lendHeap (s.thread thread).process address size permission).run s = (.ok i, t) ∧
      ((runCall thread call).run s).2 = ((generateHandle (s.thread thread).process (.transferMemory i)).run t).2 := by
  have hcast {α : Type} {handle : Handle} {cast : KernelObject → Option α} {f : α → HostCall}
      (h : ((s.named thread handle).bind cast).map f = some host) :
      ∃ a, (resolveAs thread handle cast).run s = (.ok a, s) ∧ host = f a := by
    obtain ⟨a, hnamed, rfl⟩ := Option.map_eq_some_iff.1 h
    exact ⟨a, resolveAs_of_named hnamed, rfl⟩
  rw [runCall, Action.run_look]
  cases call with
  | createTransfer address size permission =>
    obtain rfl := Option.some.inj h
    dsimp only
    rw [bind_assoc, bind_assoc, Action.run_bind]
    rcases hrun : (lendHeap (s.thread thread).process address size permission).run s with ⟨e | i, t⟩
    · exact .inl (congrArg Prod.snd hrun).symm
    · refine .inr ⟨address, size, permission, i, t, rfl, rfl, hrun, ?_⟩
      dsimp only
      simp only [pure_bind]
      exact machine_bind_pure _ _ t
  | mapShared | unmapShared | mapTransfer | unmapTransfer | protectTransfer =>
    obtain ⟨i, hresolve, rfl⟩ := hcast h
    dsimp only
    rw [bind_assoc, Action.run_bind, hresolve]
    exact .inl (machine_bind_pure _ _ s)
  | _ => cases h

/-! ## Runs -/

/-- What happens in a run: hosts and guests make calls, and the machine comes to rest while the host holds on to some objects. -/
inductive Move
  | host (call : HostCall)
  | guest (thread : RecordId) (call : GuestCall)
  | rest (holds : List KernelObject)

namespace Move

/-- The machine after a move. A call is made if everything that it names exists; guests make memory calls. -/
def after (kernel : RecordId) (move : Move) (s : Machine) : Machine :=
  match move with
  | host call => (call.perform kernel s).2
  | guest thread call =>
    match s.hostCall? thread call with
    | some named => if named.objects.all s.has then ((runCall thread call).run s).2 else s
    | none => s
  | rest holds => (quiesce { s with held := (holds.filter s.has).map KernelObject.id }).2

end Move

/-- The machine after a run. -/
def afterMoves (x : Setup) (moves : List Move) : Machine := moves.foldl (fun s move => move.after x.kernel s) x.machine

variable {x : Setup}

/-- Mappings and objects agree in a new machine, which has neither. -/
theorem machine_granted (x : Setup) : Granted x.machine := by
  have hmachine := x.newKernel_run.2
  generalize x.machine.journal = journal at hmachine
  generalize x.machine = s at hmachine ⊢
  subst hmachine
  constructor
  case ordered => exact fun _ => AddressSpace.ordered_empty
  case ended => exact fun _ _ => rfl
  all_goals exact fun _ _ h => nomatch h

/-- A memory call of a guest does what a host would do; a guest that lends memory gets a handle of it besides. -/
theorem runCall_cases {call : GuestCall} {host : HostCall} (hcall : s.hostCall? thread call = some host)
    (hobjects : host.objects.all s.has = true) {t : Machine} (ht : (host.perform x.kernel s).2 = t) :
    ((runCall thread call).run s).2 = t ∨ ∃ id i, t.has (.process id) = true ∧ t.has (.transferMemory i) = true ∧
      ((runCall thread call).run s).2 = ((generateHandle id (.transferMemory i)).run t).2 := by
  have hperform : (host.run x.kernel s).2 = t := by
    rw [← ht, HostCall.perform, Update.run_look, if_pos hobjects]
  rcases run_hostCall? hcall x.kernel with hrun | ⟨address, size, permission, i, u, rfl, rfl, hlend, hrun⟩
  · exact .inl (hrun.trans hperform)
  · obtain rfl : u = t := by
      rw [← hperform]
      exact (congrArg Prod.snd hlend).symm
    have hprocess : s.has (.process (s.thread thread).process) = true := List.all_eq_true.1 hobjects _ List.mem_cons_self
    rcases lendHeap_cases (s.thread thread).process address size permission s with ⟨e, hfail⟩ | ⟨pages, backing, -, hok⟩
    · cases hlend.symm.trans hfail
    · obtain ⟨hi, rfl⟩ := Prod.mk.inj (hlend.symm.trans hok)
      obtain rfl := Except.ok.inj hi
      exact .inr ⟨_, s.nextId, hprocess, (Records.contains_insert _ _ _ _).2 (.inl rfl), hrun⟩

/-- A guest's call keeps a machine orderly, and mappings and objects in agreement. -/
theorem runCall_granted (h : Orderly x s) (hg : Granted s) {call : GuestCall} {host : HostCall}
    (hcall : s.hostCall? thread call = some host) (hobjects : host.objects.all s.has = true) :
    Orderly x ((runCall thread call).run s).2 ∧ Granted ((runCall thread call).run s).2 := by
  have ho := HostCall.perform_orderly h host
  have hgranted := HostCall.perform_granted h hg host
  rcases runCall_cases hcall hobjects rfl with hrun | ⟨id, i, hid, hi, hrun⟩ <;> rw [hrun]
  · exact ⟨ho, hgranted⟩
  · refine ⟨generateHandle_orderly ho hid hi, hgranted.steady ?_⟩
    exact (generateHandle_steady rfl _ _).of_known fun _ heq => heq ▸ hid

/-- Every move keeps a machine orderly, and mappings in agreement with their objects. -/
theorem Move.after_granted (h : Orderly x s) (hg : Granted s) (move : Move) :
    Orderly x (move.after x.kernel s) ∧ Granted (move.after x.kernel s) := by
  cases move with
  | host call => exact ⟨HostCall.perform_orderly h call, HostCall.perform_granted h hg call⟩
  | guest thread call =>
    unfold after
    dsimp only
    split
    · next hcall =>
      split
      · next hobjects => exact runCall_granted h hg hcall hobjects
      · exact ⟨h, hg⟩
    · exact ⟨h, hg⟩
  | rest holds =>
    have hheld := h.hold holds
    exact ⟨(quiesce_orderly hheld).1, quiesce_granted hheld (hg.steady (.of_eq (Nat.le_refl _) rfl rfl rfl))⟩

/-- After every run the machine is orderly, and mappings agree with their objects. -/
theorem afterMoves_granted (x : Setup) (moves : List Move) : Orderly x (afterMoves x moves) ∧ Granted (afterMoves x moves) := by
  suffices hrun : ∀ {s : Machine}, Orderly x s → Granted s →
      Orderly x (moves.foldl (fun s move => move.after x.kernel s) s) ∧
        Granted (moves.foldl (fun s move => move.after x.kernel s) s) from hrun (machine_orderly x) (machine_granted x)
  intro s h hg
  induction moves generalizing s with
  | nil => exact ⟨h, hg⟩
  | cons move rest ih =>
    obtain ⟨h, hg⟩ := move.after_granted h hg
    exact ih h hg

/-- In every run: no mapping of a memory object has more permission than the object grants now; the list of transfer memory names
exactly its mappings in the processes that still have theirs, each once; and when its permission is changed, all of its mappings get
the new one and no other mapping of an object changes. -/
theorem grants_hold (x : Setup) (moves : List Move) :
    (∀ id, ∀ m ∈ ((afterMoves x moves).process id).space.mappings, ∀ (i : RecordId) b, m.object = some i →
      (afterMoves x moves).sharedMemories[i]? = some b → m.permission.isSubsetOf b.userPermission = true) ∧
    (∀ id, ∀ m ∈ ((afterMoves x moves).process id).space.mappings, ∀ (i : RecordId) b, m.object = some i →
      (afterMoves x moves).transferMemories[i]? = some b → m.permission.isSubsetOf b.permission = true) ∧
    (∀ (i : RecordId) b, (afterMoves x moves).transferMemories[i]? = some b → b.mappings.Nodup ∧ ∀ id address,
      (id, address) ∈ b.mappings ∧ (afterMoves x moves).Retains id ↔ (afterMoves x moves).IsMapped i id address) ∧
    ∀ (i : RecordId) permission t, (afterMoves x moves).has (.transferMemory i) = true →
      (protectTransfer i permission).run (afterMoves x moves) = (.ok (), t) → Protects i permission (afterMoves x moves) t := by
  obtain ⟨-, hg⟩ := afterMoves_granted x moves
  generalize afterMoves x moves = s at hg ⊢
  refine ⟨fun id m hm i b ho hb => (hg.shared id m hm i b ho hb).2, fun id m hm i b ho hb => (hg.transfer id m hm i b ho hb).2,
    fun i b hb => ⟨hg.once i b hb, fun id address => ?_⟩, fun i permission t hi hrun => ?_⟩
  · constructor
    · exact fun ⟨he, hid⟩ => (hg.listed i b hb id address hid).1 he
    · exact fun hm => ⟨(hg.listed i b hb id address (hg.retains hm)).2 hm, hg.retains hm⟩
  · rcases protectTransfer_cases i permission s with ⟨-, hrun'⟩ | ⟨t', -, hrun', ht⟩
    · cases hrun.symm.trans hrun'
    · obtain ⟨-, rfl⟩ := Prod.mk.inj (hrun.symm.trans hrun')
      exact (hg.protect (Records.getElem?_of_contains hi default) ht).1

/-- An application lends memory of its heap, which is mapped into it and, only to be read, into a service; then the application ends. -/
def lent : List Move := [.host (.start (plainCall .application)), .host (.start (plainCall .service)),
  .host (.allocateHeap 1 0x2000 .readWrite), .guest 3 (.createTransfer 0x2000000000 0x2000 .readWrite),
  .host (.mapTransfer 8 1 0 0x2000 .dontCare), .host (.mapTransfer 8 4 0 0x2000 .read), .host (.terminate 1),
  .rest [.transferMemory 8]]

/-- The service, whose mapping has less permission than the memory, gets all of it when the memory is protected anew. -/
theorem grants_hold_lent : (afterMoves plainSetup lent).IsMapped 8 4 0x1000000000 ∧
    ¬ (afterMoves plainSetup lent).Retains 1 ∧ ((afterMoves plainSetup lent).transferMemory 8).mappings =
      [(1, 0x1000000000), (4, 0x1000000000)] ∧
    Protects 8 .readWrite (afterMoves plainSetup lent) ((protectTransfer 8 .readWrite).run (afterMoves plainSetup lent)).2 := by
  have hmapped : ((4, 0x1000000000) : RecordId × Nat) ∈ ((afterMoves plainSetup lent).transferMemory 8).mappings ∧
      ((afterMoves plainSetup lent).process 4).state ≠ .terminated := by decide +kernel
  obtain ⟨-, -, hlisted, hprotects⟩ := grants_hold plainSetup lent
  have hhas : (afterMoves plainSetup lent).has (.transferMemory 8) = true := by decide +kernel
  have hok : ((protectTransfer 8 .readWrite).run (afterMoves plainSetup lent)).1.toBool = true := by decide +kernel
  refine ⟨?_, fun h => h.2 (by decide +kernel), by decide +kernel, hprotects 8 .readWrite _ hhas ?_⟩
  · exact ((hlisted 8 _ (Records.getElem?_of_contains hhas default)).2 4 0x1000000000).1
      ⟨hmapped.1, by decide +kernel, hmapped.2⟩
  · generalize (protectTransfer 8 .readWrite).run (afterMoves plainSetup lent) = ran at hok ⊢
    rcases ran with ⟨e | ⟨⟩, t⟩
    · cases hok
    · rfl

end Machine

end Microkernel
