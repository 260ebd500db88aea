import Microkernel.Proofs.Memory.Regions
import Microkernel.Proofs.Memory.Words

/-!
# Free runs

The free runs of a region are not empty and do not touch one another (`Region.Spaced`). Taking pages and putting a run back keep them
so (`Region.Spaced.takeFirst`, `Region.Spaced.putBack`), and there is one such list for a set of pages (`Region.Spaced.eq_of_mem_iff`):
what is put back leaves no trace of having been away. Pages that follow one another and are all free stand in one run
(`Region.Spaced.exists_run`), so the first run that is long enough begins at the lowest address that will do
(`Region.Spaced.takeFirst_isLeast`).
-/

namespace Microkernel

/-! ## Runs and pages -/

namespace PageRun

variable {run next : PageRun} {page : Nat}

theorem limit_eq (r : PageRun) : r.limit = r.address + r.pages * pageSize := rfl

/-- The pages of a run lie between its ends. -/
theorem bounds_of_mem (h : page ∈ run.toList) : run.address ≤ page ∧ page + pageSize ≤ run.limit := by
  obtain ⟨i, hi, rfl⟩ := mem_toList.1 h
  have hlt : (i + 1) * pageSize ≤ run.pages * pageSize := Nat.mul_le_mul_right _ hi
  rw [Nat.succ_mul] at hlt
  rw [limit_eq]
  omega

/-- A run that is not empty holds its first page. -/
theorem address_mem (h : 0 < run.pages) : run.address ∈ run.toList := mem_toList.2 ⟨0, h, by simp⟩

/-- A run that is not empty ends behind its address. -/
theorem address_lt_limit (h : 0 < run.pages) : run.address < run.limit :=
  Nat.lt_add_of_pos_right (Nat.mul_pos h (by decide : 0 < pageSize))

/-- Two runs at the same distance from page borders that share no page lie one behind the other. -/
theorem limit_le_or_limit_le (hrun : 0 < run.pages) (hnext : 0 < next.pages)
    (hmod : run.address % pageSize = next.address % pageSize) (h : ∀ page ∈ run.toList, page ∉ next.toList) :
    run.limit ≤ next.address ∨ next.limit ≤ run.address := by
  have inside {first second : PageRun} (hle : first.address ≤ second.address)
      (hmod : first.address % pageSize = second.address % pageSize) (hlt : second.address < first.limit) :
      second.address ∈ first.toList := by
    refine mem_toList.2 ⟨(second.address - first.address) / pageSize, ?_, ?_⟩ <;>
      simp only [limit_eq, pageSize] at hmod hlt ⊢ <;> omega
  by_contra hcross
  rw [not_or, Nat.not_le, Nat.not_le] at hcross
  rcases Nat.le_total run.address next.address with hle | hle
  · exact h _ (inside hle hmod hcross.1) (address_mem hnext)
  · exact h _ (address_mem hrun) (inside hle hmod.symm hcross.2)

end PageRun

namespace Region

/-- Free runs: none is empty, they ascend, and between two of them there is room. -/
structure Spaced (runs : List PageRun) : Prop where
  positive : ∀ run ∈ runs, 0 < run.pages
  apart : runs.Pairwise fun run next => run.limit < next.address

theorem spaced_nil : Spaced [] := ⟨fun _ h => absurd h List.not_mem_nil, List.Pairwise.nil⟩

/-- A list of runs is spaced if its first run is not empty and ends before the others begin, and they are spaced. -/
theorem spaced_cons {run : PageRun} {rest : List PageRun} :
    Spaced (run :: rest) ↔ 0 < run.pages ∧ (∀ next ∈ rest, run.limit < next.address) ∧ Spaced rest := by
  constructor
  · rintro ⟨hpositive, hapart⟩
    obtain ⟨hrun, hrest⟩ := List.pairwise_cons.1 hapart
    exact ⟨hpositive run List.mem_cons_self, hrun, fun next hn => hpositive next (List.mem_cons_of_mem _ hn), hrest⟩
  · rintro ⟨hpositive, hrun, hrest⟩
    refine ⟨fun next hn => ?_, List.pairwise_cons.2 ⟨hrun, hrest.apart⟩⟩
    rcases List.mem_cons.1 hn with rfl | hn
    · exact hpositive
    · exact hrest.positive next hn

/-! ## Taking -/

variable {n address : Nat} {run : PageRun} {runs rest : List PageRun}

/-- Nothing is taken if no run is long enough. -/
theorem takeFirst_eq_none_iff : Region.takeFirst n runs = none ↔ ∀ run ∈ runs, run.pages < n := by
  induction runs with
  | nil => simp [Region.takeFirst]
  | cons run rest ih =>
    unfold Region.takeFirst
    rw [List.forall_mem_cons, ← ih]
    split
    · next hle => simp [Nat.not_lt.2 hle]
    · next hlt => simp [Nat.not_le.1 hlt]

/-- The pages come from the front of the first run that is long enough. -/
theorem exists_first_of_takeFirst (h : Region.takeFirst n runs = some (address, rest)) :
    ∃ before run after, runs = before ++ run :: after ∧ (∀ short ∈ before, short.pages < n) ∧ n ≤ run.pages ∧
      address = run.address := by
  induction runs generalizing rest with
  | nil => cases h
  | cons run others ih =>
    unfold Region.takeFirst at h
    split at h
    · next hle =>
      obtain ⟨rfl, -⟩ := Prod.mk.inj (Option.some.inj h)
      exact ⟨[], run, others, rfl, fun _ hs => absurd hs List.not_mem_nil, hle, rfl⟩
    · next hlt =>
      obtain ⟨⟨address', rest'⟩, htake, heq⟩ := Option.map_eq_some_iff.1 h
      obtain ⟨rfl, rfl⟩ := Prod.mk.inj heq
      obtain ⟨before, found, after, hsplit, hshort, hle, haddress⟩ := ih htake
      refine ⟨run :: before, found, after, congrArg (run :: ·) hsplit, ?_, hle, haddress⟩
      exact List.forall_mem_cons.2 ⟨Nat.not_le.1 hlt, hshort⟩

/-- What is left begins no earlier than a run that there was. -/
theorem exists_of_mem_takeFirst (h : Region.takeFirst n runs = some (address, rest)) {left : PageRun} (hl : left ∈ rest) :
    ∃ run ∈ runs, run.address ≤ left.address := by
  induction runs generalizing rest with
  | nil => cases h
  | cons run others ih =>
    unfold Region.takeFirst at h
    split at h
    · obtain ⟨-, rfl⟩ := Prod.mk.inj (Option.some.inj h)
      split at hl
      · rcases List.mem_cons.1 hl with rfl | hl
        · exact ⟨run, List.mem_cons_self, Nat.le_add_right _ _⟩
        · exact ⟨left, List.mem_cons_of_mem _ hl, Nat.le_refl _⟩
      · exact ⟨left, List.mem_cons_of_mem _ hl, Nat.le_refl _⟩
    · obtain ⟨⟨address', rest'⟩, htake, heq⟩ := Option.map_eq_some_iff.1 h
      obtain ⟨rfl, rfl⟩ := Prod.mk.inj heq
      rcases List.mem_cons.1 hl with rfl | hl
      · exact ⟨left, List.mem_cons_self, Nat.le_refl _⟩
      · obtain ⟨found, hmem, hle⟩ := ih htake hl
        exact ⟨found, List.mem_cons_of_mem _ hmem, hle⟩

/-- Taking pages leaves the runs spaced. -/
theorem Spaced.takeFirst (hs : Spaced runs) (h : Region.takeFirst n runs = some (address, rest)) : Spaced rest := by
  induction runs generalizing rest with
  | nil => cases h
  | cons run others ih =>
    obtain ⟨hpositive, hrun, hothers⟩ := spaced_cons.1 hs
    unfold Region.takeFirst at h
    split at h
    · next hle =>
      obtain ⟨-, rfl⟩ := Prod.mk.inj (Option.some.inj h)
      split
      · next hlt =>
        refine spaced_cons.2 ⟨Nat.sub_pos_of_lt hlt, fun next hn => ?_, hothers⟩
        rw [PageRun.limit_eq, Nat.add_assoc, ← Nat.add_mul, Nat.add_sub_cancel' hle]
        exact hrun next hn
      · exact hothers
    · obtain ⟨⟨address', rest'⟩, htake, heq⟩ := Option.map_eq_some_iff.1 h
      obtain ⟨rfl, rfl⟩ := Prod.mk.inj heq
      refine spaced_cons.2 ⟨hpositive, fun next hn => ?_, ih hothers htake⟩
      obtain ⟨old, hold, hle⟩ := exists_of_mem_takeFirst htake hn
      exact Nat.lt_of_lt_of_le (hrun old hold) hle

/-! ## Putting back -/

/-- A run that is put back begins where one began before, itself or another one. -/
theorem address_of_mem_putBack {next : PageRun} (h : next ∈ Region.putBack run runs) :
    next.address = run.address ∨ ∃ old ∈ runs, next.address = old.address := by
  induction runs generalizing run with
  | nil => exact .inl (congrArg PageRun.address (List.mem_singleton.1 h))
  | cons first rest ih =>
    have older {next : PageRun} (h : ∃ old ∈ rest, next.address = old.address) :
        ∃ old ∈ first :: rest, next.address = old.address :=
      h.imp fun _ ho => ⟨List.mem_cons_of_mem _ ho.1, ho.2⟩
    unfold Region.putBack at h
    split at h
    · split at h
      · rcases List.mem_cons.1 h with rfl | h
        · exact .inl rfl
        · exact .inr ⟨next, List.mem_cons_of_mem _ h, rfl⟩
      · rcases List.mem_cons.1 h with rfl | h
        · exact .inl rfl
        · exact .inr ⟨next, h, rfl⟩
    · split at h
      · rcases ih h with h | h
        · exact .inr ⟨first, List.mem_cons_self, h⟩
        · exact .inr (older h)
      · rcases List.mem_cons.1 h with rfl | h
        · exact .inr ⟨next, List.mem_cons_self, rfl⟩
        · exact (ih h).imp_right older

/-- A run that crosses none of the free runs is put back among them. -/
theorem Spaced.putBack (hs : Spaced runs) (hrun : 0 < run.pages)
    (h : ∀ free ∈ runs, run.limit ≤ free.address ∨ free.limit ≤ run.address) : Spaced (Region.putBack run runs) := by
  induction runs generalizing run with
  | nil => exact spaced_cons.2 ⟨hrun, fun _ hn => absurd hn List.not_mem_nil, spaced_nil⟩
  | cons next rest ih =>
    obtain ⟨hpositive, hnext, hrest⟩ := spaced_cons.1 hs
    have hcross := h next List.mem_cons_self
    have hbegin := PageRun.address_lt_limit hrun
    have hbegin' := PageRun.address_lt_limit hpositive
    unfold Region.putBack
    split
    · next hbelow =>
      split
      · next htouch =>
        refine spaced_cons.2 ⟨Nat.add_pos_left hrun _, fun later hl => ?_, hrest⟩
        rw [PageRun.limit_eq, Nat.add_mul, ← Nat.add_assoc, ← PageRun.limit_eq run, htouch]
        exact hnext later hl
      · next hgap =>
        have hfirst : run.limit < next.address := by omega
        refine spaced_cons.2 ⟨hrun, fun later hl => ?_, hs⟩
        rcases List.mem_cons.1 hl with rfl | hl
        · exact hfirst
        · exact Nat.lt_trans hfirst (Nat.lt_trans hbegin' (hnext later hl))
    · next habove =>
      have hbehind : next.limit ≤ run.address := by omega
      split
      · next htouch =>
        -- the merged run ends where the run did
        have hmerged : (PageRun.mk next.address (next.pages + run.pages)).limit = run.limit := by
          rw [PageRun.limit_eq, Nat.add_mul, ← Nat.add_assoc, ← PageRun.limit_eq next, htouch, ← PageRun.limit_eq]
        refine ih hrest (Nat.add_pos_left hpositive _) fun free hf => .inl ?_
        have hlater := hnext free hf
        have hfree := PageRun.address_lt_limit (hrest.positive free hf)
        rcases h free (List.mem_cons_of_mem _ hf) with hle | hle
        · exact hmerged.le.trans hle
        · omega
      · next hgap =>
        refine spaced_cons.2 ⟨hpositive, fun later hl => ?_, ih hrest hrun fun free hf => h free (List.mem_cons_of_mem _ hf)⟩
        rcases address_of_mem_putBack hl with hl | ⟨old, hold, hl⟩
        · omega
        · exact hl ▸ hnext old hold

/-! ## The pages of free runs -/

/-- Of two free runs one ends before the other one begins. -/
theorem Spaced.before_or_before (hs : Spaced runs) {run next : PageRun} (hr : run ∈ runs) (hn : next ∈ runs) (hne : run ≠ next) :
    run.limit < next.address ∨ next.limit < run.address := by
  have heither : runs.Pairwise fun run next => run.limit < next.address ∨ next.limit < run.address := hs.apart.imp .inl
  have hsymm : Std.Symm fun run next : PageRun => run.limit < next.address ∨ next.limit < run.address := ⟨fun _ _ h => h.symm⟩
  exact heither.forall hr hn hne

/-- The pages of the later runs lie behind the end of the first. -/
theorem Spaced.lt_of_mem (hs : Spaced (run :: rest)) {page : Nat} (h : page ∈ rest.flatMap PageRun.toList) : run.limit < page := by
  obtain ⟨next, hnext, hpage⟩ := List.mem_flatMap.1 h
  exact Nat.lt_of_lt_of_le ((spaced_cons.1 hs).2.1 next hnext) (PageRun.bounds_of_mem hpage).1

/-- The first run reaches as far as its pages are free. -/
theorem Spaced.head_le {run' : PageRun} {rest' : List PageRun} (hs : Spaced (run :: rest))
    (h : ∀ page ∈ (run' :: rest').flatMap PageRun.toList, page ∈ (run :: rest).flatMap PageRun.toList)
    (haddress : run'.address = run.address) : run'.pages ≤ run.pages := by
  by_contra hlt
  have hlast : run.limit ∈ run'.toList :=
    PageRun.mem_toList.2 ⟨run.pages, Nat.not_le.1 hlt, by rw [haddress, ← PageRun.limit_eq]⟩
  rcases List.mem_append.1 (h _ (List.mem_append_left _ hlast)) with hmem | hmem
  · have hbound := (PageRun.bounds_of_mem hmem).2
    have hpage : 0 < pageSize := by decide
    omega
  · exact absurd (hs.lt_of_mem hmem) (Nat.lt_irrefl _)

/-- No free page lies below the first run. -/
theorem Spaced.address_le (hs : Spaced (run :: rest)) {page : Nat} (h : page ∈ (run :: rest).flatMap PageRun.toList) :
    run.address ≤ page := by
  rcases List.mem_append.1 h with h | h
  · exact (PageRun.bounds_of_mem h).1
  · exact Nat.le_of_lt (Nat.lt_trans (PageRun.address_lt_limit (spaced_cons.1 hs).1) (hs.lt_of_mem h))

/-- Free runs are known from their pages. -/
theorem Spaced.eq_of_mem_iff {runs' : List PageRun} (hs : Spaced runs) (hs' : Spaced runs')
    (h : ∀ page, page ∈ runs.flatMap PageRun.toList ↔ page ∈ runs'.flatMap PageRun.toList) : runs = runs' := by
  have first {run : PageRun} {rest : List PageRun} (hs : Spaced (run :: rest)) :
      run.address ∈ (run :: rest).flatMap PageRun.toList :=
    List.mem_append_left _ (PageRun.address_mem (spaced_cons.1 hs).1)
  induction runs generalizing runs' with
  | nil =>
    cases runs' with
    | nil => rfl
    | cons run' rest' => exact absurd ((h _).2 (first hs')) List.not_mem_nil
  | cons run rest ih =>
    cases runs' with
    | nil => exact absurd ((h _).1 (first hs)) List.not_mem_nil
    | cons run' rest' =>
      have haddress : run.address = run'.address :=
        Nat.le_antisymm (hs.address_le ((h _).2 (first hs'))) (hs'.address_le ((h _).1 (first hs)))
      have hpages : run.pages = run'.pages := Nat.le_antisymm
        (hs'.head_le (fun page => (h page).1) haddress) (hs.head_le (fun page => (h page).2) haddress.symm)
      have hrun : run = run' := by
        cases run
        cases run'
        exact congr (congrArg PageRun.mk haddress) hpages
      subst hrun
      -- a page behind the first run is none of its pages
      have behind {rest rest' : List PageRun} (hs : Spaced (run :: rest))
          (h : ∀ page ∈ (run :: rest).flatMap PageRun.toList, page ∈ (run :: rest').flatMap PageRun.toList) :
          ∀ page ∈ rest.flatMap PageRun.toList, page ∈ rest'.flatMap PageRun.toList := by
        intro page hp
        rcases List.mem_append.1 (h page (List.mem_append_right _ hp)) with hin | hin
        · have hbound := (PageRun.bounds_of_mem hin).2
          have hlt := hs.lt_of_mem hp
          omega
        · exact hin
      rw [ih (spaced_cons.1 hs).2.2 (spaced_cons.1 hs').2.2 fun page =>
        ⟨behind hs (fun page => (h page).1) page, behind hs' (fun page => (h page).2) page⟩]

/-- Free pages that follow one another stand in one run. -/
theorem Spaced.exists_run (hs : Spaced runs) (hn : 0 < n)
    (h : ∀ page ∈ (PageRun.mk address n).toList, page ∈ runs.flatMap PageRun.toList) :
    ∃ run ∈ runs, run.address ≤ address ∧ address + n * pageSize ≤ run.limit := by
  obtain ⟨run, hrun, hfirst⟩ := List.mem_flatMap.1 (h _ (PageRun.address_mem hn))
  have hbegin : run.address ≤ address := (PageRun.bounds_of_mem hfirst).1
  refine ⟨run, hrun, hbegin, ?_⟩
  -- a page that is free behind a page of the run belongs to the run, for no other run begins at the end of it
  have hall : ∀ k, k < n → address + (k + 1) * pageSize ≤ run.limit := by
    intro k
    induction k with
    | zero =>
      intro _
      rw [Nat.zero_add, Nat.one_mul]
      exact (PageRun.bounds_of_mem hfirst).2
    | succ k ih =>
      intro hk
      obtain ⟨next, hnext, hpage⟩ := List.mem_flatMap.1 (h _ (PageRun.mem_toList.2 ⟨k + 1, hk, rfl⟩))
      obtain ⟨hlow, hhigh⟩ := PageRun.bounds_of_mem hpage
      dsimp only at hlow hhigh
      have hprev := ih (Nat.lt_of_succ_lt hk)
      have hsame : next = run := by
        by_contra hne
        rcases hs.before_or_before hnext hrun hne with hlt | hlt
        · omega
        · omega
      rw [← hsame, Nat.succ_mul]
      omega
  have hlast := hall (n - 1) (Nat.sub_lt hn Nat.one_pos)
  rwa [Nat.sub_add_cancel hn] at hlast

/-- The pages that are taken begin at the lowest address from which that many pages are free. -/
theorem Spaced.takeFirst_isLeast (hs : Spaced runs) (hn : 0 < n) (h : Region.takeFirst n runs = some (address, rest)) :
    IsLeast {start | ∀ page ∈ (PageRun.mk start n).toList, page ∈ runs.flatMap PageRun.toList} address := by
  obtain ⟨before, run, after, rfl, hshort, hlong, rfl⟩ := exists_first_of_takeFirst h
  have hrun : run ∈ before ++ run :: after := List.mem_append_right _ List.mem_cons_self
  constructor
  · intro page hp
    exact List.mem_flatMap.2 ⟨run, hrun, PageRun.toList_take hlong hp⟩
  · intro start hstart
    obtain ⟨found, hfound, hbegin, hend⟩ := hs.exists_run hn hstart
    rcases List.mem_append.1 hfound with hbefore | hafter
    · -- the runs in front are too short
      have hpages : n * pageSize ≤ found.pages * pageSize := by
        rw [PageRun.limit_eq] at hend
        omega
      exact absurd (hshort found hbefore) (Nat.not_lt.2 (Nat.le_of_mul_le_mul_right hpages (by decide)))
    · rcases List.mem_cons.1 hafter with rfl | hafter
      · exact hbegin
      · have hlt := (List.pairwise_cons.1 (List.pairwise_append.1 hs.apart).2.1).1 found hafter
        rw [PageRun.limit_eq] at hlt
        omega

/-! ## Plain sums -/

/-- Putting a run back, with the ends of the runs and the lengths of what is merged. -/
def putBackInWords (run : PageRun) : List PageRun → Except KernelError (List PageRun)
  | [] => do
    let _ ← word (run.address + (← word (run.pages * pageSize)))
    return [run]
  | next :: rest =>
    if run.address < next.address then do
      let limit ← word (run.address + (← word (run.pages * pageSize)))
      if limit = next.address then return ⟨run.address, ← word (run.pages + next.pages)⟩ :: rest else return run :: next :: rest
    else do
      let limit ← word (next.address + (← word (next.pages * pageSize)))
      if limit = run.address then putBackInWords ⟨next.address, ← word (next.pages + run.pages)⟩ rest
      else return next :: (← putBackInWords run rest)

/-- No sum leaves the word if the runs end in it. -/
theorem putBackInWords_eq (hrun : run.limit < wordLimit) (h : PageList.Fits runs) :
    putBackInWords run runs = .ok (Region.putBack run runs) := by
  have hpage : 0 < pageSize := by decide
  induction runs generalizing run with
  | nil =>
    rw [PageRun.limit_eq] at hrun
    rw [putBackInWords, word_bind (by omega), word_bind hrun]
    rfl
  | cons next rest ih =>
    have hnext := h next List.mem_cons_self
    have hrest : PageList.Fits rest := fun later hl => h later (List.mem_cons_of_mem _ hl)
    have hlimit := PageRun.limit_eq run
    have hlimit' := PageRun.limit_eq next
    unfold putBackInWords Region.putBack
    split
    · rw [word_bind (by omega), word_bind (by omega), ← hlimit]
      split
      · next htouch =>
        have hpages : run.pages + next.pages < wordLimit := by
          simp only [pageSize] at hlimit hlimit'
          omega
        rw [word_bind hpages]
        rfl
      · rfl
    · rw [word_bind (by omega), word_bind (by omega), ← hlimit']
      split
      · next htouch =>
        have hpages : next.pages + run.pages < wordLimit := by
          simp only [pageSize] at hlimit hlimit'
          omega
        rw [word_bind hpages]
        refine ih ?_ hrest
        rw [PageRun.limit_eq, Nat.add_mul]
        dsimp only
        omega
      · rw [ih hrun hrest]
        rfl

end Region

end Microkernel
