import Microkernel.Proofs.Counting.Disciplines
import Microkernel.Proofs.Machine.Starting

/-!
# Handle counts are exact

Whatever binds and closes handles and terminates processes, every object counts as many bindings as there are over all handle tables,
and what a close or a termination tears down is what a look through all tables would have it tear down (`counts_exact`). Between the
moment at which bindings leave a table together and the moment at which the last of them is closed, the counts include those that are
still to be closed (`Counted`).
-/

namespace Microkernel

variable {α β : Type}

namespace Machine

variable {s t : Machine} {process : RecordId} {handles : HandleTable KernelObject}

/-! ## Counting bindings -/

/-- What is not a process has no bindings. -/
theorem objects_of_not_mem (hp : process ∉ s.processes.keys.toFinset) : (s.table process).objects = [] := by
  rw [List.mem_toFinset, Std.TreeMap.mem_keys] at hp
  unfold table Machine.process
  rw [Std.TreeMap.getD_eq_fallback hp]
  rfl

/-- The sum may be taken over more numbers than those of processes. -/
theorem bindingsTo_eq_sum (id : RecordId) {processes : Finset RecordId} (h : s.processes.keys.toFinset ⊆ processes) :
    s.bindingsTo id = ∑ process ∈ processes, (s.table process).objects.countP (·.id = id) :=
  Finset.sum_subset h fun process _ hp => by rw [objects_of_not_mem hp, List.countP_nil]

/-- Where all tables bind the same objects, there are as many bindings to each. -/
theorem bindingsTo_congr (h : ∀ process, (t.table process).objects = (s.table process).objects) (id : RecordId) :
    t.bindingsTo id = s.bindingsTo id := by
  let processes := t.processes.keys.toFinset ∪ s.processes.keys.toFinset
  have ht : t.processes.keys.toFinset ⊆ processes := Finset.subset_union_left
  have hs : s.processes.keys.toFinset ⊆ processes := Finset.subset_union_right
  rw [bindingsTo_eq_sum id ht, bindingsTo_eq_sum id hs]
  exact Finset.sum_congr rfl fun process _ => by rw [h]

/-- Another table for one process changes the number of bindings by what the two tables differ in. -/
theorem bindingsTo_of_tables (h : ∀ id, t.table id = if id = process then handles else s.table id) (id : RecordId) :
    t.bindingsTo id + (s.table process).objects.countP (·.id = id) = s.bindingsTo id + handles.objects.countP (·.id = id) := by
  let processes := insert process (t.processes.keys.toFinset ∪ s.processes.keys.toFinset)
  have hmem : process ∈ processes := Finset.mem_insert_self _ _
  have ht : t.processes.keys.toFinset ⊆ processes := Finset.subset_union_left.trans (Finset.subset_insert _ _)
  have hs : s.processes.keys.toFinset ⊆ processes := Finset.subset_union_right.trans (Finset.subset_insert _ _)
  rw [bindingsTo_eq_sum id ht, bindingsTo_eq_sum id hs, ← Finset.add_sum_erase _ _ hmem, ← Finset.add_sum_erase _ _ hmem]
  have hothers : ∑ other ∈ processes.erase process, (t.table other).objects.countP (·.id = id) =
      ∑ other ∈ processes.erase process, (s.table other).objects.countP (·.id = id) :=
    Finset.sum_congr rfl fun other hother => by rw [h, if_neg (Finset.ne_of_mem_erase hother)]
  rw [hothers, h, if_pos rfl]
  omega

/-! ## Exact counts -/

/-- Nothing is bound under a number that was not given yet. -/
def Fresh (s : Machine) : Prop := ∀ process, s.nextId ≤ process → (s.table process).bindings = []

/-- The counts are exact: they include the bindings that have left their table and are still to be closed. All tables are sound. -/
structure Counted (s : Machine) (rest : List KernelObject) : Prop where
  exact : ∀ id, s.handleCount id = s.bindingsTo id + rest.countP (·.id = id)
  sound : ∀ process, (s.table process).Sound
  fresh : s.Fresh

/-- The tables have the same bindings, and are still sound. -/
structure SameBindings (s t : Machine) : Prop where
  nextId : s.nextId ≤ t.nextId
  bindings : ∀ process, (t.table process).bindings = (s.table process).bindings
  sound : ∀ process, (s.table process).Sound → (t.table process).Sound

/-- Machines whose processes have the same tables have the same bindings. -/
theorem Frame.sameBindings (h : Frame SameHandles s t) : SameBindings s t where
  nextId := h.nextId
  bindings process := congrArg HandleTable.bindings (h.process process)
  sound process hsound := (congrArg HandleTable.Sound (h.process process)).mpr hsound

/-- In a new machine nothing is bound and nothing was counted. -/
theorem counted_new : ({} : Machine).Counted [] where
  exact _ := rfl
  sound _ := HandleTable.sound_new 1
  fresh _ _ := rfl

namespace Counted

variable {rest : List KernelObject}

/-- What leaves the counts and the bindings as they are keeps the counts exact. -/
theorem of_bindings (h : s.Counted rest) (hcounts : t.handleCounts = s.handleCounts) (hsame : SameBindings s t) : t.Counted rest where
  exact id := by
    have hobjects (process : RecordId) : (t.table process).objects = (s.table process).objects :=
      congrArg (List.map Prod.snd) (hsame.bindings process)
    rw [handleCount, hcounts, bindingsTo_congr hobjects]
    exact h.exact id
  sound process := hsame.sound process (h.sound process)
  fresh process hprocess := (hsame.bindings process).trans (h.fresh process (Nat.le_trans hsame.nextId hprocess))

/-- Blind programs that leave the tables alone keep the counts exact. -/
theorem quiet (h : s.Counted rest) {p : Update α} (hblind : Blind p) (hkeeps : Keeps (Frame SameHandles) p) : (p s).2.Counted rest :=
  h.of_bindings (hblind.counts s) (Frame.sameBindings (hkeeps s))

end Counted

/-! ## Closing a binding -/

/-- Setting one count leaves the others as they are. -/
theorem handleCount_insert (s : Machine) (id other : RecordId) (n : Nat) :
    (s.withCounts (s.handleCounts.insert id n)).handleCount other = if other = id then n else s.handleCount other :=
  Records.getD_insert s.handleCounts id other n 0

/-- With exact counts a close tears down what a look through all tables would have it tear down. -/
theorem closed_counting {object : KernelObject} {rest : List KernelObject} (h : s.Counted (object :: rest))
    (hsame : t = s.withCounts t.handleCounts) :
    (looking.closed object rest t).2 = (handleClosed object s).2.withCounts t.handleCounts ∧
      (handleClosed object s).2.Counted rest := by
  let counted := s.withCounts (s.handleCounts.insert object.id (s.handleCount object.id - 1))
  have hrun : handleClosed object s = (if s.handleCount object.id = 1 then tearDown object else return) counted := by
    cases object <;> rfl
  have hlook : looking.closed object rest t = (if s.handleCount object.id = 1 then tearDown object else return) t := by
    have hbindings : t.bindingsTo object.id = s.bindingsTo object.id := by rw [hsame]; rfl
    have hcount := h.exact object.id
    rw [List.countP_cons, if_pos (decide_eq_true rfl)] at hcount
    change (if t.bindingsTo object.id + rest.countP (·.id = object.id) = 0 then tearDown object else return : Update Unit) t = _
    rw [hbindings]
    by_cases hlast : s.handleCount object.id = 1
    · rw [if_pos hlast, if_pos (by omega)]
    · rw [if_neg hlast, if_neg (by omega)]
  have hcounted : counted.Counted rest := by
    refine ⟨fun id => ?_, h.sound, h.fresh⟩
    have hcount := h.exact id
    rw [List.countP_cons] at hcount
    rw [handleCount_insert]
    change _ = s.bindingsTo id + _
    by_cases hid : id = object.id
    · subst hid
      rw [if_pos (decide_eq_true rfl)] at hcount
      rw [if_pos rfl, hcount, ← Nat.add_assoc, Nat.add_sub_cancel]
    · rw [if_neg (by simpa using Ne.symm hid)] at hcount
      rw [if_neg hid, hcount, Nat.add_zero]
  have hblind : Blind (if s.handleCount object.id = 1 then tearDown object else return : Update Unit) := by
    split
    · exact tearDown_blind object
    · exact .pure _
  have hkeeps : Keeps (Frame SameHandles) (if s.handleCount object.id = 1 then tearDown object else return : Update Unit) := by
    split
    · exact tearDown_frame object
    · exact .pure _
  rw [hrun, hlook]
  refine ⟨?_, hcounted.quiet hblind hkeeps⟩
  rw [hsame, hblind s, hblind s]
  rfl

/-- The bindings that left a table together are closed one after the other. -/
theorem closeAll_counted {objects : List KernelObject} (h : s.Counted objects) (hsame : t = s.withCounts t.handleCounts) :
    (looking.closeAll objects t).2 = (counting.closeAll objects s).2.withCounts t.handleCounts ∧
      (counting.closeAll objects s).2.Counted [] := by
  induction objects generalizing s t with
  | nil => exact ⟨hsame, h⟩
  | cons object rest ih =>
    obtain ⟨hclosed, hcounted⟩ := closed_counting h hsame
    have hcounts : (looking.closed object rest t).2.handleCounts = t.handleCounts := by rw [hclosed]; rfl
    have hrest := ih (t := (looking.closed object rest t).2) hcounted (by rw [hcounts]; exact hclosed)
    rw [hcounts] at hrest
    exact hrest

/-! ## Counting and looking side by side -/

/-- A machine with exact counts, beside one that differs from it in nothing but the counts. -/
structure Beside (s t : Machine) : Prop where
  same : t = s.withCounts t.handleCounts
  counted : s.Counted []

/-- Beside each other the programs answer the same and come out beside each other. -/
def Along (p q : Update α) : Prop := ∀ s t, Beside s t → (p s).1 = (q t).1 ∧ Beside (p s).2 (q t).2

namespace Along

/-- A blind program that keeps the bindings of fresh machines runs beside itself. -/
theorem quiet {p : Update α} (hblind : Blind p) (hsame : ∀ s, s.Fresh → SameBindings s (p s).2) : Along p p := by
  intro s t h
  rw [h.same, hblind s]
  exact ⟨rfl, rfl, h.counted.of_bindings (hblind.counts s) (hsame s h.counted.fresh)⟩

/-- A blind program that keeps the tables runs beside itself. -/
theorem of_frame {p : Update α} (hblind : Blind p) (hkeeps : Keeps (Frame SameHandles) p) : Along p p :=
  quiet hblind fun s _ => Frame.sameBindings (hkeeps s)

/-- Answers stand beside each other. -/
theorem pure (a : α) : Along (pure a) (pure a) := fun _ _ h => ⟨rfl, h⟩

/-- Programs beside each other one behind the other are beside each other. -/
theorem bind {p q : Update α} {f g : α → Update β} (hp : Along p q) (hf : ∀ a, Along (f a) (g a)) : Along (p >>= f) (q >>= g) := by
  intro s t h
  obtain ⟨hanswer, hbeside⟩ := hp s t h
  rw [Update.run_bind, Update.run_bind, ← hanswer]
  exact hf _ _ _ hbeside

/-- Programs that begin with a look are beside each other if the look does not depend on counts. -/
theorem look {f g : Machine → Update β} (hsame : ∀ s counts, g (s.withCounts counts) = g s) (h : ∀ s, Along (f s) (g s)) :
    Along (get >>= f) (get >>= g) := by
  intro s t hbeside
  have ht : g t = g s := hbeside.same ▸ hsame s t.handleCounts
  rw [Update.run_look, Update.run_look, ht]
  exact h s s t hbeside

/-- Loops are beside each other if their bodies are. -/
theorem forIn {l : List α} {f g : α → PUnit → Update (ForInStep PUnit)} (h : ∀ a u, Along (f a u) (g a u)) :
    Along (forIn l PUnit.unit f) (forIn l PUnit.unit g) := by
  induction l with
  | nil => exact pure _
  | cons a rest ih =>
    rw [List.forIn_cons, List.forIn_cons]
    refine (h a _).bind fun step => ?_
    cases step with
    | done u => exact pure u
    | yield u => exact ih

end Along

/-! ## Binding and closing -/

/-- A process that was given another table has it in both machines. -/
theorem Beside.withHandles (h : Beside s t) (process : RecordId) (handles : HandleTable KernelObject) :
    t.withHandles process handles = (s.withHandles process handles).withCounts t.handleCounts := by
  rw [h.same]
  rfl

/-- Everybody's table is sound if the new one is. -/
theorem Counted.sound_withHandles {rest : List KernelObject} (h : s.Counted rest) (hsound : handles.Sound) (id : RecordId) :
    ((s.withHandles process handles).table id).Sound := by
  rw [(Rebinds.withHandles s process handles).table]
  split
  · exact hsound
  · exact h.sound id

/-- Counting one more binding to an object makes up for a table that has one more. -/
theorem Counted.opened (h : s.Counted []) {object : KernelObject} {handle : Handle} (hprocess : process < s.nextId)
    (hbound : (s.table process).Bound object handle handles) : (handleOpened object (s.withHandles process handles)).2.Counted [] := by
  refine ⟨fun id => ?_, h.sound_withHandles hbound.sound, fun id hid => ?_⟩
  case refine_2 =>
    change ((s.withHandles process handles).table id).bindings = []
    rw [(Rebinds.withHandles s process handles).table_of_ne (Nat.ne_of_gt (Nat.lt_of_lt_of_le hprocess hid))]
    exact h.fresh id hid
  have hsum := bindingsTo_of_tables (Rebinds.withHandles s process handles).table id
  have hobjects : handles.objects.countP (·.id = id) = (object :: (s.table process).objects).countP (·.id = id) :=
    (hbound.bindings.map Prod.snd).countP_eq _
  have hcount := h.exact id
  rw [List.countP_cons] at hobjects
  rw [List.countP_nil, Nat.add_zero] at hcount ⊢
  refine (handleCount_insert (s.withHandles process handles) object.id id (s.handleCount object.id + 1)).trans ?_
  change _ = (s.withHandles process handles).bindingsTo id
  by_cases hid : id = object.id
  · subst hid
    rw [if_pos (decide_eq_true rfl)] at hobjects
    rw [if_pos rfl]
    omega
  · rw [if_neg (by simpa using Ne.symm hid)] at hobjects
    rw [if_neg hid]
    change s.handleCount id = _
    omega

/-- A table that has one binding less leaves that one to be closed. -/
theorem Counted.unbound (h : s.Counted []) {object : KernelObject} {handle : Handle}
    (hunbound : (s.table process).Unbound handle object handles) : (s.withHandles process handles).Counted [object] := by
  refine ⟨fun id => ?_, h.sound_withHandles hunbound.sound, fun id hid => ?_⟩
  case refine_2 =>
    have hempty := h.fresh id hid
    rw [(Rebinds.withHandles s process handles).table]
    split
    · next heq =>
      subst heq
      cases (hempty ▸ hunbound.bindings).nil_eq
    · exact hempty
  have hsum := bindingsTo_of_tables (Rebinds.withHandles s process handles).table id
  have hobjects : (s.table process).objects.countP (·.id = id) = (object :: handles.objects).countP (·.id = id) :=
    (hunbound.bindings.map Prod.snd).countP_eq _
  have hcount := h.exact id
  rw [List.countP_nil, Nat.add_zero] at hcount
  rw [List.countP_cons] at hobjects
  rw [List.countP_cons, List.countP_nil]
  change s.handleCount id = _
  omega

/-- Beside each other, both ways to bind an object give the same handle. -/
theorem Beside.generateHandle (h : Beside s t) (hprocess : process < s.nextId) (object : KernelObject) :
    ((counting.generateHandle process object).run s).1 = ((looking.generateHandle process object).run t).1 ∧
      Beside ((counting.generateHandle process object).run s).2 ((looking.generateHandle process object).run t).2 := by
  have htable : t.table process = s.table process := by rw [h.same]; rfl
  cases hgenerate : (s.table process).generate object with
  | ok result =>
    obtain ⟨handle, handles⟩ := result
    rw [Discipline.generateHandle_of_ok hgenerate, Discipline.generateHandle_of_ok (htable ▸ hgenerate)]
    exact ⟨rfl, h.withHandles process handles, h.counted.opened hprocess ((h.counted.sound process).bound_of_generate hgenerate)⟩
  | error e =>
    have hprocess : t.process process = s.process process := by rw [h.same]; rfl
    unfold table at hgenerate
    rw [Discipline.generateHandle, Discipline.generateHandle, Action.run_look, Action.run_look, hprocess]
    simp only [hgenerate]
    cases e with
    | outOfHandles capacity => exact Along.of_frame ((log_blind _ _).bind fun _ => .pure _) ((log_frame _ _).bind fun _ => .pure _) s t h
    | invalidHandle handle => exact ⟨rfl, h⟩

/-- Both ways to close a handle are beside each other. -/
theorem closeHandle_along (process : RecordId) (handle : Handle) :
    Along (counting.closeHandle process handle).run (looking.closeHandle process handle).run := by
  intro s t h
  have htable : t.table process = s.table process := by rw [h.same]; rfl
  cases hclose : (s.table process).close handle with
  | ok result =>
    obtain ⟨object, handles⟩ := result
    have hcounted := h.counted.unbound ((h.counted.sound process).unbound_of_close hclose)
    have hsame : t.withHandles process handles =
        (s.withHandles process handles).withCounts (t.withHandles process handles).handleCounts :=
      h.withHandles process handles
    obtain ⟨hclosed, hcounted⟩ := closed_counting hcounted hsame
    rw [Discipline.closeHandle_of_ok hclose, Discipline.closeHandle_of_ok (htable ▸ hclose)]
    exact ⟨rfl, hclosed ▸ rfl, hcounted⟩
  | error e =>
    rw [Discipline.closeHandle_of_error hclose, Discipline.closeHandle_of_error (htable ▸ hclose)]
    exact ⟨rfl, h⟩

/-! ## Terminating -/

/-- A process that gives up its table leaves all its bindings to be closed. -/
theorem Counted.drained (h : s.Counted []) {p : Process} (id : RecordId) (hp : p.handles = (s.table id).drain.2) :
    (setProcess id p s).2.Counted ((s.table id).drain.1.map (·.2)) := by
  have htable (other : RecordId) : (setProcess id p s).2.table other = if other = id then (s.table id).drain.2 else s.table other := by
    change (Machine.process { s with processes := s.processes.insert id p } other).handles = _
    rw [process_insert, ← hp]
    split <;> rfl
  refine ⟨fun object => ?_, fun other => ?_, ?_⟩
  · have hsum := bindingsTo_of_tables htable object
    have hcount := h.exact object
    rw [List.countP_nil, Nat.add_zero] at hcount
    rw [show (s.table id).drain.2.objects = [] from rfl, List.countP_nil, Nat.add_zero] at hsum
    exact hcount.trans hsum.symm
  · rw [htable]
    split
    · exact (h.sound id).drain
    · exact h.sound other
  · intro other hother
    rw [htable]
    split
    · rfl
    · exact h.fresh other hother

/-- Whatever a termination does when all bindings are closed, it does in both machines. -/
theorem complete_along (id : RecordId) (state : ProcessState) (text : String) (kernel : RecordId) (event : KernelEvent) :
    let complete : Update Unit := do
      (do setProcess id { (← get).process id with state })
      wake ((← get).process id).waiters
      log .info text
      let _ ← audit kernel event
    Along complete complete := by
  refine .bind (.of_frame (.look (fun _ _ => rfl) fun _ => setProcess_blind _ _) (.look fun _ => .setProcess rfl)) fun _ => ?_
  refine .of_frame (.look (fun _ _ => rfl) fun _ => ?_) (Keeps.get.bind fun _ => ?_)
  · exact (wake_blind _).bind fun _ => (log_blind _ _).bind fun _ => (audit_blind _ _).bind fun _ => .pure _
  · exact (wake_frame _).bind fun _ => (log_frame _ _).bind fun _ => (audit_frame _ _).bind fun _ => .pure _

/-- Both ways to finish a termination are beside each other. -/
theorem finishTermination_along (id : RecordId) : Along (counting.finishTermination id) (looking.finishTermination id) := by
  intro s t h
  have hprocess : t.process id = s.process id := by rw [h.same]; rfl
  rw [Discipline.finishTermination, Discipline.finishTermination, Update.run_look, Update.run_look, hprocess]
  dsimp only
  cases (s.process id).state.next? .finishTermination with
  | none => exact ⟨rfl, h⟩
  | some state =>
    let released := { s.process id with handles := (s.process id).handles.drain.2, space := {} }
    let objects := (s.process id).handles.drain.1.map (·.2)
    have hsame : (setProcess id released t).2 = (setProcess id released s).2.withCounts t.handleCounts := by rw [h.same]; rfl
    obtain ⟨hclosed, hcounted⟩ := closeAll_counted (h.counted.drained (p := released) id rfl) hsame
    exact complete_along id state _ (s.process id).kernel _ _ (looking.closeAll objects (setProcess id released t).2).2
      ⟨hclosed ▸ rfl, hcounted⟩

/-- Both ways to look whether a thread was the last one are beside each other. -/
theorem threadExited_along (process : RecordId) : Along (counting.threadExited process) (looking.threadExited process) := by
  refine .look (fun _ _ => rfl) fun s => ?_
  have hfinish := finishTermination_along process
  split
  · split
    · exact (Along.of_frame (moveProcess_blind _ _) (moveProcess_frame _ (by decide))).bind fun _ => hfinish
    · exact hfinish
  · exact .pure _

/-- Both ways to end a thread whose body is over are beside each other. -/
theorem exitThread_along (id : RecordId) (ending : ThreadEnd) : Along (counting.exitThread id ending) (looking.exitThread id ending) := by
  have hexit (process : RecordId) : Along (do
      setActivity id .none
      moveThread id .exit
      moveThread id .finish
      counting.threadExited process) (do
      setActivity id .none
      moveThread id .exit
      moveThread id .finish
      looking.threadExited process) :=
    (Along.of_frame (setActivity_blind _ _) (setActivity_frame _ _)).bind fun _ =>
      (Along.of_frame (moveThread_blind _ _) (moveThread_frame _ _)).bind fun _ =>
        (Along.of_frame (moveThread_blind _ _) (moveThread_frame _ _)).bind fun _ => threadExited_along process
  have hlog (level : Level) (text : String) := Along.of_frame (log_blind level text) (log_frame level text)
  refine .look (fun _ _ => rfl) fun s => .look (fun _ _ => rfl) fun s' => ?_
  split
  · exact hexit _
  · exact hexit _
  · exact (hlog _ _).bind fun _ => hexit _
  · exact (hlog _ _).bind fun _ => hexit _

/-- A thread that is stopped closes the sessions of its server first. -/
theorem closeAndExit_along (id : RecordId) (t : Thread) : Along (do
    if let .server server := t.body then closeSessions server
    counting.exitThread id .returned) (do
    if let .server server := t.body then closeSessions server
    looking.exitThread id .returned) := by
  split
  · exact (Along.of_frame (closeSessions_blind _) (closeSessions_frame _)).bind fun _ => exitThread_along id _
  · exact exitThread_along id _

/-- Both ways to end a thread that was asked to are beside each other. -/
theorem stopThread_along (id : RecordId) : Along (counting.stopThread id) (looking.stopThread id) := by
  have hexit := closeAndExit_along id
  have hanswer (answer : Except KernelError CallValue) := Along.of_frame (answerCall_blind id answer) (answerCall_frame id answer)
  refine .look (fun _ _ => rfl) fun s => ?_
  dsimp only
  split
  · exact .pure _
  · exact (Along.of_frame (moveThread_blind _ _) (moveThread_frame _ _)).bind fun _ => hexit _
  · exact hexit _
  · exact (hanswer _).bind fun _ => hexit _
  · exact hexit _
  · refine (Along.of_frame (leaveWait_blind _ _) (leaveWait_frame _ _)).bind fun _ => ?_
    split
    · exact hexit _
    · exact (Along.of_frame (completeRequest_blind _ _) (completeRequest_frame _ _)).bind fun _ => (hanswer _).bind fun _ => hexit _
    · exact (hanswer _).bind fun _ => hexit _

/-- Both ways to terminate a process are beside each other. -/
theorem terminateProcess_along (id : RecordId) (caller : Option RecordId) :
    Along (counting.terminateProcess id caller) (looking.terminateProcess id caller) := by
  refine (Along.of_frame (moveProcess_blind id _) (moveProcess_frame id (by decide))).bind fun moved => ?_
  split
  · refine .look (fun _ _ => rfl) fun s => (Along.of_frame (log_blind _ _) (log_frame _ _)).bind fun _ => ?_
    refine .bind (.forIn fun _ _ => (Along.of_frame (requestTermination_blind _) (requestTermination_frame _)).bind fun _ => .pure _)
      fun _ => ?_
    refine (Along.of_frame (setPaused_blind id false) (setPaused_frame id false)).bind fun _ => ?_
    refine .bind (.forIn fun thread _ => ?_) fun _ => .look (fun _ _ => rfl) fun s' => ?_
    · split
      · exact (stopThread_along thread).bind fun _ => .pure _
      · exact .pure _
    · dsimp only
      split
      · exact finishTermination_along id
      · exact .pure _
  · exact .pure _

/-! ## Runs -/

/-- Something else that is done in the machine: it neither reads nor changes a handle count, and no binding begins or ends by it. -/
structure Aside where
  run : Update Unit
  blind : Blind run
  bindings : ∀ s, s.Fresh → SameBindings s (run s).2

/-- A process is created. -/
def Aside.newProcess (kernel : RecordId) (name : String) (programId : Nat) (flags : ProcessFlags) (capabilities : Capabilities) :
    Aside where
  run := do let _ ← createProcess kernel name programId flags capabilities
  blind := Blind.bind (.look (fun _ _ => rfl) fun _ => (setKernel_blind _ _).bind fun _ =>
    Blind.bind (fun _ _ => rfl) fun _ => (setProcess_blind _ _).bind fun _ => .pure _) fun _ => .pure _
  bindings s hfresh := by
    have hprocess (p : Process) (k : Kernel) (id : RecordId) :
        ({ s with nextId := s.nextId + 1, kernels := s.kernels.insert kernel k, processes := s.processes.insert s.nextId p } :
          Machine).process id = if id = s.nextId then p else s.process id := process_insert _ _ _ _
    have hempty : ((createProcess kernel name programId flags capabilities s).2.table s.nextId).bindings = [] :=
      congrArg (·.handles.bindings) ((hprocess _ _ s.nextId).trans (if_pos rfl))
    have hsound : ((createProcess kernel name programId flags capabilities s).2.table s.nextId).Sound :=
      (congrArg (·.handles.Sound) ((hprocess _ _ s.nextId).trans (if_pos rfl))).mpr (HandleTable.sound_new _)
    have hold (id : RecordId) (hid : id ≠ s.nextId) :
        (createProcess kernel name programId flags capabilities s).2.table id = s.table id :=
      congrArg Process.handles ((createProcess_creates kernel name programId flags capabilities s).2.process id hid)
    refine ⟨Nat.le_succ _, fun id => ?_, fun id h => ?_⟩
    · by_cases hid : id = s.nextId
      · exact hid ▸ hempty.trans (hfresh _ (Nat.le_refl _)).symm
      · exact congrArg HandleTable.bindings (hold id hid)
    · by_cases hid : id = s.nextId
      · exact hid ▸ hsound
      · exact (congrArg HandleTable.Sound (hold id hid)).mpr h

/-- A session is opened. -/
def Aside.newSession (port : Option RecordId) : Aside where
  run := do let _ ← Machine.newSession port
  blind _ _ := rfl
  bindings s _ := ⟨Nat.le_add_right s.nextId 3, fun _ => rfl, fun _ h => h⟩

/-- A port is opened. -/
def Aside.newPort (name : String) (maxSessions : Nat) : Aside where
  run := do let _ ← Machine.newPort name maxSessions
  blind _ _ := rfl
  bindings s _ := ⟨Nat.le_add_right s.nextId 3, fun _ => rfl, fun _ h => h⟩

/-- What is called. -/
inductive HandleCall
  | generate (process : RecordId) (object : KernelObject)
  | close (process : RecordId) (handle : Handle)
  | terminate (process : RecordId) (caller : Option RecordId)
  /-- A thread is over; the last one of its process ends the process. -/
  | exit (thread : RecordId) (ending : ThreadEnd)
  | other (work : Aside)

/-- What a call does. A handle is made in the table of a process that there is. -/
def HandleCall.run : HandleCall → Update Unit
  | generate process object => do if process < (← get).nextId then Action.forget (generateHandle process object)
  | close process handle => Action.forget (closeHandle process handle)
  | terminate process caller => terminateProcess process caller
  | exit thread ending => exitThread thread ending
  | other work => work.run

/-- What it does where nothing is counted, and each close looks through all tables. -/
def HandleCall.lookingRun : HandleCall → Update Unit
  | generate process object => do if process < (← get).nextId then Action.forget (looking.generateHandle process object)
  | close process handle => Action.forget (looking.closeHandle process handle)
  | terminate process caller => looking.terminateProcess process caller
  | exit thread ending => looking.exitThread thread ending
  | other work => work.run

/-- The machine after calls in an order. -/
def afterHandleCalls (calls : List HandleCall) (s : Machine) : Machine := calls.foldl (fun s call => (call.run s).2) s

/-- The machine after calls in an order, each of which looked through all tables for what it closed. -/
def afterLooking (calls : List HandleCall) (s : Machine) : Machine := calls.foldl (fun s call => (call.lookingRun s).2) s

/-- What is forgotten is the answer alone. -/
theorem Action.forget_run (p : Action α) (s : Machine) : p.forget s = ((), (p.run s).2) := rfl

/-- Whether a program fails may be forgotten. -/
theorem Along.forget {p q : Action α} (h : Along p.run q.run) : Along p.forget q.forget := h.bind fun _ => .pure ()

/-- Both ways of every call are beside each other. -/
theorem HandleCall.run_along (call : HandleCall) : Along call.run call.lookingRun := by
  cases call with
  | generate process object =>
    intro s t h
    have hnext : t.nextId = s.nextId := by rw [h.same]; rfl
    rw [run, lookingRun, Update.run_look, Update.run_look, hnext]
    split
    · next hprocess =>
      have hgenerate := h.generateHandle hprocess object
      rw [Discipline.generateHandle_counting] at hgenerate
      rw [Action.forget_run, Action.forget_run]
      exact ⟨rfl, hgenerate.2⟩
    · exact ⟨rfl, h⟩
  | close process handle =>
    have h := (closeHandle_along process handle).forget
    rwa [Discipline.closeHandle_counting] at h
  | terminate process caller =>
    have h := terminateProcess_along process caller
    rwa [Discipline.terminateProcess_counting] at h
  | exit thread ending =>
    have h := exitThread_along thread ending
    rwa [Discipline.exitThread_counting] at h
  | other work => exact .quiet work.blind work.bindings

/-- Both ways stay beside each other from call to call. -/
theorem Beside.after (h : Beside s t) (calls : List HandleCall) : Beside (afterHandleCalls calls s) (afterLooking calls t) := by
  induction calls generalizing s t with
  | nil => exact h
  | cons call rest ih => exact ih (call.run_along s t h).2

/-- In every run of calls that bind and close handles and terminate processes, the count of every object is the number of its bindings
over all handle tables, and the sessions and ports that are torn down are torn down by the calls that would do so if they looked
through all tables for another binding. -/
theorem counts_exact (calls : List HandleCall) :
    (∀ id, (afterHandleCalls calls {}).handleCount id = (afterHandleCalls calls {}).bindingsTo id) ∧
      afterLooking calls {} = (afterHandleCalls calls {}).withCounts (afterLooking calls {}).handleCounts := by
  have hbeside := Beside.after (s := {}) (t := {}) ⟨rfl, counted_new⟩ calls
  refine ⟨fun id => ?_, hbeside.same⟩
  exact hbeside.counted.exact id

/-- One of two processes that share the client end of a session is terminated while it has two handles to it, and the session is closed
by the other one, which closes the last handle. -/
example :
    let calls : List HandleCall := [.other (.newSession none), .other (.newProcess 0 "a" 0 .service {}),
      .other (.newProcess 0 "b" 0 .service {}), .generate 3 (.clientSession 2), .generate 4 (.clientSession 2),
      .generate 3 (.clientSession 2), .terminate 3 none]
    let s := afterHandleCalls calls {}
    let t := ((HandleCall.close 4 (.compose 1 0)).run s).2
    (s.handleCount 2, (s.session 0).clientOpen, t.handleCount 2, (t.session 0).clientOpen) = (1, true, 0, false) := by
  decide +kernel

end Machine

end Microkernel
