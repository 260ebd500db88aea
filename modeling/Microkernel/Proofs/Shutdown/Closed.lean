import Mathlib.Data.List.Nodup
import Microkernel.Proofs.Shutdown.Books

/-!
# What gets past a shutdown

Three things get past a shutdown: a process that joins the set after it was cleared, a thread that is started after its process was
terminated, and a process that has lost its place in the set. Where none of them happens, nothing does (`Closing.closed_iff`).
-/

namespace Microkernel.Machine.Closing

variable {c : Closing} {p : Pair}

/-- The processes that were made have different pids. -/
def PidsDistinct (c : Closing) : Prop := (c.made.map fun p => (c.machine.process p.process).pid).Nodup

/-- What was made are the pairs of the start calls. -/
theorem mem_made : p ∈ c.made ↔ ∃ i : Nat, c.pair? (some i) = some p := by
  rw [made, List.mem_filterMap]
  constructor
  · rintro ⟨x, hx, hp⟩
    obtain ⟨i, hi⟩ := List.getElem?_of_mem hx
    exact ⟨i, Option.bind_eq_some_iff.2 ⟨x, hi, hp⟩⟩
  · rintro ⟨i, hi⟩
    obtain ⟨x, hx, hp⟩ := Option.bind_eq_some_iff.1 hi
    exact ⟨x, List.mem_of_getElem? hx, hp⟩

/-- An enlisted process was made. -/
theorem Enlisted.made {id : RecordId} (h : c.Enlisted id) : ∃ p ∈ c.made, p.process = id := by
  obtain ⟨i, p, hp, hid⟩ := h.seat
  exact ⟨p, mem_made.2 ⟨i, hp⟩, hid⟩

/-- Once its call has returned, a process that was made has joined the set. -/
theorem Settled.enlisted (hs : c.Settled) (hp : p ∈ c.made) : c.Enlisted p.process := by
  obtain ⟨i, hi⟩ := mem_made.1 hp
  obtain ⟨x, hx, hpair⟩ := Option.bind_eq_some_iff.1 hi
  have hreturned := hs.starts x (List.mem_of_getElem? hx)
  refine ⟨i, p, Option.bind_eq_some_iff.2 ⟨x, hx, ?_⟩, rfl⟩
  cases hstage : x.stage with
  | returned r => exact (congrArg StartStage.pair? hstage).symm.trans hpair
  | _ =>
    rw [hstage] at hreturned
    cases hreturned

/-- The set is empty once exactly the processes are swept that have joined it. -/
theorem Inv.set_isEmpty_iff (h : c.Inv) (hs : c.Settled) : c.set.isEmpty = true ↔ c.unswept = [] := by
  constructor
  · intro hempty
    rcases h.books.unswept with hu | ⟨pid, id, hm⟩ | ⟨i, x, p, hx, hp⟩
    · exact hu
    · have hnone : c.set[pid]? = none := Std.TreeMap.getElem?_of_isEmpty hempty
      cases hnone.symm.trans hm
    · have hreturned := hs.starts x (List.mem_of_getElem? hx)
      rw [hp] at hreturned
      cases hreturned
  · intro hu
    rw [Std.TreeMap.isEmpty_iff_forall_not_mem]
    intro pid hmem
    obtain ⟨id, hm⟩ := Option.isSome_iff_exists.1 (Std.TreeMap.mem_iff_isSome_getElem?.1 hmem)
    have hswept := (h.books.member pid id hm).2.1
    rw [hu] at hswept
    cases hswept

/-- A thread has entered its entry late exactly if it was started late, unless it is on its way. -/
theorem Inv.enteredLate_eq (h : c.Inv) (hs : c.Settled) {x : Start} (hx : x ∈ c.starts) : x.enteredLate = x.startedLate := by
  obtain ⟨i, hi⟩ := List.getElem?_of_mem hx
  have hstands := h.stands i x hi
  cases hpair : x.stage.pair? with
  | none =>
    obtain ⟨hstarted, hentered⟩ := hstands.absent hpair
    rw [hstarted, hentered]
  | some p =>
    obtain ⟨φ, hφ, -, hstarted, hentered⟩ := hstands.phase p hpair
    have hway : φ.standing.thread ≠ .started := by
      rw [← hφ]
      exact hs.threads p (mem_made.2 ⟨i, Option.bind_eq_some_iff.2 ⟨x, hi, hpair⟩⟩)
    rw [hstarted, hentered]
    cases φ with
    | starting late => exact absurd rfl hway
    | waiting | inside | left => rfl

/-- Pids that are not given twice displace nobody. -/
theorem Inv.displaced_eq_nil (h : c.Inv) (hp : c.PidsDistinct) : c.displaced = [] := by
  rw [List.eq_nil_iff_forall_not_mem]
  intro id hd
  obtain ⟨he, other, ho, hne, hpid⟩ := h.books.displaced id hd
  obtain ⟨p, hpm, rfl⟩ := he.made
  obtain ⟨q, hqm, rfl⟩ := ho.made
  exact hne (congrArg Pair.process (List.inj_on_of_nodup_map hp hqm hpm hpid))

/-- Once all calls have returned, nothing has got past the shutdown exactly if no process has joined the set since it was cleared, no
thread was started after its process was terminated, and the processes that have lost their place in the set have ended by themselves.
None loses its place as long as no pid is given twice. -/
theorem closed_iff (x : Setup) (steps : List Step) (hs : (after x steps).Settled) :
    ((after x steps).Closed ↔ (after x steps).unswept = [] ∧ (∀ start ∈ (after x steps).starts, start.startedLate = false) ∧
      ∀ id ∈ (after x steps).displaced, ((after x steps).machine.process id).state = .terminated) ∧
    ((after x steps).PidsDistinct → (after x steps).displaced = []) := by
  have h := inv_after x steps
  generalize after x steps = c at h hs
  refine ⟨⟨fun hc => ?_, fun ⟨hu, hlate, hd⟩ => ?_⟩, h.displaced_eq_nil⟩
  · refine ⟨(h.set_isEmpty_iff hs).1 hc.set, fun start hx => ?_, fun id hd => ?_⟩
    · rw [← h.enteredLate_eq hs hx]
      exact hc.threads start hx
    · obtain ⟨p, hp, rfl⟩ := (h.books.displaced id hd).1.made
      exact hc.processes p hp
  · constructor
    case set => exact (h.set_isEmpty_iff hs).2 hu
    case processes =>
      intro p hp
      rcases h.books.kept _ (hs.enlisted hp) with hstate | hm | hmem
      · exact hstate
      · have hswept := (h.books.member _ _ hm).2.1
        rw [hu] at hswept
        cases hswept
      · exact hd _ hmem
    case threads =>
      intro start hx
      rw [h.enteredLate_eq hs hx]
      exact hlate start hx

/-- A process is started and runs, and then the kernel is shut down. -/
def oneByOne : List Step :=
  [.call (plainCall .application), .advance 0, .advance 0, .advance 0, .advance 0, .turn 0] ++ List.replicate 7 .close

/-- Nothing gets past a shutdown that comes after the calls have returned. -/
theorem closed_iff_oneByOne : (after plainSetup oneByOne).Settled ∧ (after plainSetup oneByOne).Closed := by
  have hs : (after plainSetup oneByOne).Settled := ⟨by decide +kernel, by decide +kernel, by decide +kernel⟩
  refine ⟨hs, (closed_iff plainSetup oneByOne hs).1.2 ⟨?_, ?_, ?_⟩⟩
  · decide +kernel
  · decide +kernel
  · decide +kernel

/-- Two processes are made before the kernel is shut down. The thread of the first, and the second as a whole, come too late. -/
def overtaken : List Step := List.flatten [
  [.call (plainCall .application), .call (plainCall .application), .advance 0, .advance 0, .advance 0, .advance 1],
  List.replicate 7 .close, [.advance 0, .turn 0, .advance 1, .advance 1, .advance 1, .turn 1]]

/-- Both processes get past the shutdown that came between: the thread of the first has entered its entry late, and the second runs
in a set that was cleared. -/
theorem settled_overtaken : (after plainSetup overtaken).Settled ∧ (after plainSetup overtaken).set.isEmpty = false ∧
    (after plainSetup overtaken).made.map (fun p => ((after plainSetup overtaken).machine.process p.process).state) =
      [.terminated, .running] ∧
    (after plainSetup overtaken).starts.map Start.enteredLate = [true, false] := by
  refine ⟨⟨?_, ?_, ?_⟩, ?_, ?_, ?_⟩ <;> decide +kernel

/-- Start calls get past a shutdown. -/
theorem closed_false : ¬∀ (x : Setup) (steps : List Step), (after x steps).Settled → (after x steps).Closed := by
  intro h
  obtain ⟨hs, hset, -⟩ := settled_overtaken
  rw [(h plainSetup overtaken hs).set] at hset
  cases hset

end Microkernel.Machine.Closing
