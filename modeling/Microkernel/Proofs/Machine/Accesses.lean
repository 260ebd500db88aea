import Microkernel.Machine.GuestThreads
import Microkernel.Proofs.Machine.Keeps
import Microkernel.Proofs.Memory.Translation

/-!
# Accesses of guests

Guests read and write what their addresses are translated to. In every address space that mappings lead to, translating works byte by
byte, and an access that cannot be translated leaves the whole machine as it is (`accesses_bytewise`).
-/

namespace Microkernel

namespace Machine

open Wire (Bytes)

variable {s : Machine} {thread id : RecordId} {address length : Nat} {bytes : Bytes} {e : KernelError}

/-! ## Runs -/

/-- A read translates its range and reads the pieces from the host, one after the other. -/
theorem readMemory_run (id : RecordId) (address length : Nat) (s : Machine) : (readMemory id address length).run s =
    match (s.process id).space.translate address length .read with
    | .ok pieces => ((s.kernel (s.process id).kernel).host.memory.readChunks pieces, s)
    | .error e => (.error e, s) := by
  rw [readMemory, Action.run_look, Action.run_except_bind]
  cases (s.process id).space.translate address length .read with
  | error e => rfl
  | ok pieces =>
    dsimp only
    rw [Action.run_look, Action.run_except]

/-- A write translates its range and writes the pieces to the host. -/
theorem writeMemory_run (id : RecordId) (address : Nat) (bytes : Bytes) (s : Machine) : (writeMemory id address bytes).run s =
    match (s.process id).space.translate address bytes.length .write with
    | .ok pieces =>
      (((s.kernel (s.process id).kernel).host.memory.writeChunks pieces bytes).2,
        (setMemory (s.process id).kernel ((s.kernel (s.process id).kernel).host.memory.writeChunks pieces bytes).1 s).2)
    | .error e => (.error e, s) := by
  rw [writeMemory, Action.run_look, Action.run_except_bind]
  cases (s.process id).space.translate address bytes.length .write with
  | error e => rfl
  | ok pieces =>
    dsimp only
    rw [Action.run_look, Action.run_lift_bind, Action.run_except]

/-- The call of a guest that reads memory reads that of its own process. -/
theorem runCall_readMemory (thread : RecordId) (address length : Nat) (s : Machine) :
    (runCall thread (.readMemory address length)).run s =
    match (readMemory (s.thread thread).process address length).run s with
    | (.ok bytes, t) => (.ok (.answer (.bytes bytes)), t)
    | (.error e, t) => (.error e, t) := by
  rw [runCall, Action.run_look]
  dsimp only
  rw [Action.run_bind]
  rcases (readMemory (s.thread thread).process address length).run s with ⟨e | bytes, t⟩ <;> rfl

/-- The call of a guest that writes memory writes that of its own process. -/
theorem runCall_writeMemory (thread : RecordId) (address : Nat) (bytes : Bytes) (s : Machine) :
    (runCall thread (.writeMemory address bytes)).run s =
    match (writeMemory (s.thread thread).process address bytes).run s with
    | (.ok (), t) => (.ok (.answer .unit), t)
    | (.error e, t) => (.error e, t) := by
  rw [runCall, Action.run_look]
  dsimp only
  rw [Action.run_bind]
  rcases (writeMemory (s.thread thread).process address bytes).run s with ⟨e | ⟨⟩, t⟩ <;> rfl

/-! ## Faults -/

/-- A guest that reads what cannot be translated changes nothing. -/
theorem readMemory_fault (h : (s.process (s.thread thread).process).space.translate address length .read = .error e) :
    (runCall thread (.readMemory address length)).run s = (.error e, s) := by
  rw [runCall_readMemory, readMemory_run, h]

/-- A guest that writes what cannot be translated changes nothing. -/
theorem writeMemory_fault (h : (s.process (s.thread thread).process).space.translate address bytes.length .write = .error e) :
    (runCall thread (.writeMemory address bytes)).run s = (.error e, s) := by
  rw [runCall_writeMemory, writeMemory_run, h]

/-- However mappings are made, removed and changed: translating a range works byte by byte, and a guest that reads or writes what
cannot be translated touches no memory. -/
theorem accesses_bytewise (requests : List AddressSpace.Request) {address : Nat} (haddress : address < wordLimit) (length : Nat) :
    (∀ access, (AddressSpace.after requests).Translates address length access) ∧
    ∀ (s : Machine) thread, (s.process (s.thread thread).process).space = AddressSpace.after requests →
      (∀ e, (AddressSpace.after requests).translate address length .read = .error e →
        (runCall thread (.readMemory address length)).run s = (.error e, s)) ∧
      ∀ (bytes : Bytes) e, bytes.length = length → (AddressSpace.after requests).translate address length .write = .error e →
        (runCall thread (.writeMemory address bytes)).run s = (.error e, s) := by
  refine ⟨fun access => (AddressSpace.after_tidy requests).translates haddress length access, fun s thread hspace => ⟨?_, ?_⟩⟩
  · exact fun e he => readMemory_fault (hspace ▸ he)
  · rintro bytes e rfl he
    exact writeMemory_fault (hspace ▸ he)

/-- A machine with one process, which sees an address space. -/
def seeing (space : AddressSpace) : Machine := { processes := Std.TreeMap.insert {} 0 { (default : Process) with space } }

/-- The machine that sees an address space has it in its only process. -/
theorem process_seeing (space : AddressSpace) : (seeing space).process 0 = { (default : Process) with space } :=
  (process_insert {} 0 0 _).trans (if_pos rfl)

/-- Two pages that lie apart, open to writing, and behind them a page that is only read. -/
def patched : List AddressSpace.Request := [
  .map (.ofPages 0x1000 ⟨[⟨0x8000, 1⟩, ⟨0x4000, 1⟩]⟩ .readWrite .shared) rfl,
  .map (.ofPages 0x3000 ⟨[⟨0x6000, 1⟩]⟩ .read .shared) rfl]

/-- A range over all three pages is read in three pieces; writing it fails at the third page, and reading on at the first address
behind it. -/
theorem accesses_bytewise_patched : (∃ pieces, (AddressSpace.after patched).translate 0x1ff0 0x1020 .read = .ok pieces) ∧
    (AddressSpace.after patched).translate 0x1ff0 0x1020 .write = .error .invalidPermission ∧
    (AddressSpace.after patched).translate 0x1ff0 0x2011 .read = .error (.invalidAddress 0x4000) ∧
    (runCall 0 (.readMemory 0x1ff0 0x2011)).run (seeing (AddressSpace.after patched)) =
      (.error (.invalidAddress 0x4000), seeing (AddressSpace.after patched)) := by
  have hmappings : (AddressSpace.after patched).mappings = [.ofPages 0x1000 ⟨[⟨0x8000, 1⟩, ⟨0x4000, 1⟩]⟩ .readWrite .shared,
    .ofPages 0x3000 ⟨[⟨0x6000, 1⟩]⟩ .read .shared] := rfl
  have hopen {a : Nat} (hle : 0x1000 ≤ a) (hlt : a < 0x3000) (access : Access) : (AddressSpace.after patched).Allows access a :=
    ⟨.ofPages 0x1000 ⟨[⟨0x8000, 1⟩, ⟨0x4000, 1⟩]⟩ .readWrite .shared, by rw [hmappings]; exact List.mem_cons_self,
      Mapping.covers_iff.2 ⟨hle, hlt⟩, by cases access <;> decide⟩
  have hread {a : Nat} (hle : 0x3000 ≤ a) (hlt : a < 0x4000) : (AddressSpace.after patched).Allows .read a :=
    ⟨.ofPages 0x3000 ⟨[⟨0x6000, 1⟩]⟩ .read .shared, by rw [hmappings]; exact List.mem_cons_of_mem _ List.mem_cons_self,
      Mapping.covers_iff.2 ⟨hle, hlt⟩, by decide⟩
  have hmember {a : Nat} (ha : (AddressSpace.after patched).Mapped a) : a < 0x4000 := by
    obtain ⟨m, hm, hc⟩ := ha
    rw [hmappings, List.mem_cons, List.mem_singleton] at hm
    obtain ⟨-, hlt⟩ := Mapping.covers_iff.1 hc
    rcases hm with rfl | rfl
    · exact Nat.lt_trans hlt (by decide)
    · exact hlt
  obtain ⟨hshort, -⟩ := accesses_bytewise patched (by decide : 0x1ff0 < wordLimit) 0x1020
  obtain ⟨hlong, hfaults⟩ := accesses_bytewise patched (by decide : 0x1ff0 < wordLimit) 0x2011
  have hunmapped : (AddressSpace.after patched).translate 0x1ff0 0x2011 .read = .error (.invalidAddress 0x4000) := by
    refine ((hlong .read).fault (by decide) 0x4000 (by decide) (by decide) (fun a hle hlt => ?_) fun ha => ?_).1 fun ha => ?_
    · by_cases h : a < 0x3000
      · exact hopen (by omega) h .read
      · exact hread (by omega) hlt
    · exact absurd (hmember ha.mapped) (by decide)
    · exact absurd (hmember ha) (by decide)
  refine ⟨(hshort .read).ok_iff.2 fun a hle hlt => ?_, ?_, hunmapped, ?_⟩
  · by_cases h : a < 0x3000
    · exact hopen (by omega) h .read
    · exact hread (by omega) (by omega)
  · refine ((hshort .write).fault (by decide) 0x3000 (by decide) (by decide) (fun a hle hlt => hopen (by omega) hlt .write) ?_).2 ?_
    · rintro ⟨m, hm, hc, hallows⟩
      rw [hmappings, List.mem_cons, List.mem_singleton] at hm
      rcases hm with rfl | rfl
      · exact absurd hc (by decide)
      · exact absurd hallows (by decide)
    · exact (hread (by decide) (by decide)).mapped
  · exact (hfaults (seeing (AddressSpace.after patched)) 0 (congrArg Process.space (process_seeing _))).1 _ hunmapped

end Machine

end Microkernel
