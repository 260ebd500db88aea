import Microkernel.Memory.AddressSpace

/-!
# The pages behind address spaces

What page lists name is made of whole runs, so cutting a list at page borders gives pages of the list (`PageList.extendFrom_pages`).
The pages that are captured from a range of heap memory belong to mappings whose allocations are captured with them
(`AddressSpace.capture_captures`).
-/

namespace Microkernel

/-- Lists that are as long as a count says are together as long as the total of the counts. -/
theorem length_flatMap_eq_total {α β : Type} {f : α → List β} {count : α → Nat} (h : ∀ item, (f item).length = count item)
    (l : List α) : (l.flatMap f).length = total count l := by
  induction l with
  | nil => rfl
  | cons item rest ih => rw [List.flatMap_cons, List.length_append, h, ih, total]

/-! ## Runs -/

namespace PageRun

/-- The pages of a run lie at multiples of the page size behind its address. -/
theorem mem_toList {r : PageRun} {page : Nat} : page ∈ r.toList ↔ ∃ i < r.pages, r.address + i * pageSize = page := by
  simp only [toList, List.mem_map, List.mem_range]

/-- A run has as many pages as it says. -/
theorem length_toList (r : PageRun) : r.toList.length = r.pages := by
  rw [toList, List.length_map, List.length_range]

/-- Runs have as many pages as they say together. -/
theorem length_flatMap_toList (runs : List PageRun) : (runs.flatMap toList).length = total PageRun.pages runs :=
  length_flatMap_eq_total length_toList runs

/-- A run is two runs one behind the other. -/
theorem toList_add (address n m : Nat) : (PageRun.mk address (n + m)).toList =
    (PageRun.mk address n).toList ++ (PageRun.mk (address + n * pageSize) m).toList := by
  simp only [toList, List.range_add, List.map_append, List.map_map]
  congr 2
  funext i
  simp only [Function.comp_apply, Nat.add_mul, Nat.add_assoc]

/-- The pages at the front of a run. -/
theorem toList_take {address n m : Nat} (h : n ≤ m) {page : Nat} (hp : page ∈ (PageRun.mk address n).toList) :
    page ∈ (PageRun.mk address m).toList := by
  obtain ⟨i, hi, rfl⟩ := mem_toList.1 hp
  exact mem_toList.2 ⟨i, Nat.lt_of_lt_of_le hi h, rfl⟩

/-- No page is twice in a run. -/
theorem nodup_toList (r : PageRun) : r.toList.Nodup := by
  have hinj : Function.Injective fun i => r.address + i * pageSize := fun i j hij =>
    Nat.eq_of_mul_eq_mul_right (by decide : 0 < pageSize) (Nat.add_left_cancel hij)
  exact List.Pairwise.map _ (fun _ _ hne heq => hne (hinj heq)) List.nodup_range

end PageRun

/-! ## Page lists -/

namespace PageList

/-- Appending a run appends its pages, whether it is merged or not. -/
theorem appendRun_toList (run : PageRun) (runs : List PageRun) :
    (appendRun run runs).flatMap PageRun.toList = runs.flatMap PageRun.toList ++ run.toList := by
  fun_induction appendRun run runs with
  | case1 => simp
  | case2 last h =>
    simp only [List.flatMap_cons, List.flatMap_nil, List.append_nil]
    rw [PageRun.toList_add]
    congr 2
    exact congrArg (PageRun.mk · run.pages) h
  | case3 last h => simp
  | case4 first next rest ih => simp only [List.flatMap_cons, ih, List.append_assoc]

/-- Adding pages appends them. -/
theorem addRun_pages (l : PageList) (address n : Nat) :
    (l.addRun address n).pages = l.pages ++ (PageRun.mk address n).toList := by
  unfold addRun
  split
  · next h =>
    subst h
    exact (List.append_nil _).symm
  · exact appendRun_toList _ _

theorem ofRun_pages (address n : Nat) : (ofRun address n).pages = (PageRun.mk address n).toList :=
  (addRun_pages {} address n).trans (List.nil_append _)

/-- A list has as many pages as it counts. -/
theorem length_pages (l : PageList) : l.pages.length = l.pageCount := PageRun.length_flatMap_toList l.runs

/-- The size of a list is whole pages. -/
theorem dvd_size (l : PageList) : pageSize ∣ l.size := Nat.dvd_mul_left _ _

/-- At a page border a list goes on with whole pages, up to the end of the run. -/
theorem locateIn_pages {runs : List PageRun} {offset address contiguous : Nat} (ho : pageSize ∣ offset)
    (h : locateIn runs offset = some (address, contiguous)) : pageSize ∣ contiguous ∧
      ∀ page ∈ (PageRun.mk address (contiguous / pageSize)).toList, page ∈ runs.flatMap PageRun.toList := by
  induction runs generalizing offset with
  | nil => cases h
  | cons run rest ih =>
    have hsize : pageSize ∣ run.size := Nat.dvd_mul_left _ _
    unfold locateIn at h
    split at h
    · next hlt =>
      obtain ⟨rfl, rfl⟩ := Prod.mk.inj (Option.some.inj h)
      refine ⟨Nat.dvd_sub hsize ho, fun page hp => List.mem_flatMap.2 ⟨run, List.mem_cons_self, ?_⟩⟩
      obtain ⟨j, rfl⟩ := ho
      obtain ⟨i, hi, rfl⟩ := PageRun.mem_toList.1 hp
      refine PageRun.mem_toList.2 ⟨j + i, ?_, ?_⟩
      · simp only [PageRun.size, pageSize] at hi hlt ⊢
        omega
      · simp only [pageSize]
        omega
    · obtain ⟨hd, hmem⟩ := ih (Nat.dvd_sub ho hsize) h
      exact ⟨hd, fun page hp => List.mem_append_right _ (hmem page hp)⟩

/-- What is appended from another list between page borders are pages of that list. -/
theorem extendFrom_pages {l other : PageList} {offset size : Nat} (ho : pageSize ∣ offset) (hs : pageSize ∣ size) {page : Nat}
    (hp : page ∈ (l.extendFrom other offset size).pages) : page ∈ l.pages ∨ page ∈ other.pages := by
  induction l, offset, size using extendFrom.induct other with
  | case1 l offset =>
    unfold extendFrom at hp
    exact .inl hp
  | case2 l offset size h0 hnone =>
    unfold extendFrom at hp
    rw [if_neg h0] at hp
    split at hp
    · exact .inl hp
    · next hsome =>
      rw [hnone] at hsome
      cases hsome
  | case3 l offset size h0 address contiguous hsome length ih =>
    unfold extendFrom at hp
    rw [if_neg h0] at hp
    split at hp
    · exact .inl hp
    · next address' contiguous' hsome' =>
      obtain ⟨rfl, rfl⟩ := Prod.mk.inj (Option.some.inj (hsome.symm.trans hsome'))
      obtain ⟨hd, hmem⟩ := locateIn_pages ho hsome
      have hl : pageSize ∣ length := by
        change pageSize ∣ min contiguous size
        rw [Nat.min_def]
        split
        · exact hd
        · exact hs
      rcases ih (Nat.dvd_add ho hl) (Nat.dvd_sub hs hl) hp with hp | hp
      · rw [addRun_pages] at hp
        rcases List.mem_append.1 hp with hp | hp
        · exact .inl hp
        · exact .inr (hmem page (PageRun.toList_take (Nat.div_le_div_right (Nat.min_le_left _ _)) hp))
      · exact .inr hp

end PageList

/-! ## Address spaces -/

namespace AddressSpace

variable {s : AddressSpace}

/-- Inserting a mapping adds it and no other. -/
theorem mem_insert {m other : Mapping} {mappings : List Mapping} : other ∈ insert m mappings ↔ other = m ∨ other ∈ mappings := by
  induction mappings with
  | nil => simp [insert]
  | cons next rest ih =>
    unfold insert
    split
    · exact List.mem_cons
    · rw [List.mem_cons, ih, List.mem_cons]
      exact or_left_comm

/-- A mapping that is made stands at a page border, among those that were there before. -/
theorem map_ok {m : Mapping} {s' : AddressSpace} (h : s.map m = .ok s') :
    pageSize ∣ m.address ∧ s'.mappings = insert m s.mappings := by
  unfold map at h
  by_cases ha : isPageAligned m.address = true
  · rw [ha] at h
    simp only [Bool.not_true, Bool.false_eq_true, if_false] at h
    split at h
    · cases h
    · split at h
      · cases h
      · obtain rfl := Except.ok.inj h
        exact ⟨Nat.dvd_of_mod_eq_zero (of_decide_eq_true ha), rfl⟩
  · rw [Bool.not_eq_true] at ha
    rw [ha] at h
    cases h

/-- Unmapping leaves mappings that were there. -/
theorem unmap_ok {address size : Nat} {object : Option Nat} {m : Mapping} {s' : AddressSpace}
    (h : s.unmap address size object = .ok (m, s')) : ∀ m ∈ s'.mappings, m ∈ s.mappings := by
  unfold unmap at h
  split at h
  · split at h
    · obtain ⟨-, rfl⟩ := Prod.mk.inj (Except.ok.inj h)
      exact fun m hm => (List.mem_filter.1 hm).1
    · cases h
  · cases h

/-- Only the permissions of mappings are changed, and only where there are any. -/
theorem setPermission_ok {address : Nat} {permission : Permission} {s' : AddressSpace}
    (h : s.setPermission address permission = .ok s') :
    s.mappings ≠ [] ∧ ∀ m ∈ s'.mappings, ∃ m₀ ∈ s.mappings, ∃ permission, m = { m₀ with permission } := by
  unfold setPermission at h
  split at h
  · next hany =>
    obtain rfl := Except.ok.inj h
    refine ⟨fun hnil => by simp [hnil] at hany, fun m hm => ?_⟩
    obtain ⟨m₀, hm₀, rfl⟩ := List.mem_map.1 hm
    refine ⟨m₀, hm₀, ?_⟩
    split
    · exact ⟨permission, rfl⟩
    · exact ⟨m₀.permission, rfl⟩
  · cases h

/-- The mapping at an address is a mapping of the space. -/
theorem mem_of_mappingAt {address : Nat} {m : Mapping} (h : s.mappingAt address = some m) : m ∈ s.mappings := by
  obtain ⟨hlast, -⟩ := Option.filter_eq_some_iff.1 h
  exact (List.mem_filter.1 (List.mem_of_getLast? hlast)).1

/-- The mappings stand at page borders and are as long as their page lists. -/
def Paged (s : AddressSpace) : Prop := ∀ m ∈ s.mappings, pageSize ∣ m.address ∧ m.size = m.pages.size

/-- A piece from a page border to the end of a mapping, or of a range, is whole pages. -/
theorem Paged.dvd_piece (hs : s.Paged) {cursor length : Nat} {m : Mapping} (hm : s.mappingAt cursor = some m) (hc : pageSize ∣ cursor)
    (hl : pageSize ∣ length) : pageSize ∣ min (m.limit - cursor) length := by
  obtain ⟨haddress, hsize⟩ := hs m (mem_of_mappingAt hm)
  rw [Nat.min_def]
  split
  · exact Nat.dvd_sub (Nat.dvd_add haddress (hsize ▸ m.pages.dvd_size)) hc
  · exact hl

/-- What is added without repeating it is there behind what was known. -/
theorem mem_addNew {known new : List AllocationId} {id : AllocationId} : id ∈ addNew known new ↔ id ∈ known ∨ id ∈ new := by
  unfold addNew
  induction new generalizing known with
  | nil => simp
  | cons first rest ih =>
    rw [List.foldl_cons, ih, List.mem_cons]
    split
    · next h =>
      have hfirst : first ∈ known := by simpa using h
      constructor
      · exact fun h => h.imp_right .inr
      · rintro (h | rfl | h)
        · exact .inl h
        · exact .inl hfirst
        · exact .inr h
    · simp only [List.mem_append, List.mem_singleton, or_assoc]

/-- What was captured: pages of mappings, all allocations of which were captured too, and no other allocations. -/
structure Captures (s : AddressSpace) (found result : PageList × List AllocationId) : Prop where
  pages : ∀ page ∈ result.1.pages, page ∈ found.1.pages ∨
    ∃ m ∈ s.mappings, page ∈ m.pages.pages ∧ ∀ id ∈ m.backing, id ∈ result.2
  keeps : ∀ id ∈ found.2, id ∈ result.2
  backing : ∀ id ∈ result.2, id ∈ found.2 ∨ ∃ m ∈ s.mappings, id ∈ m.backing

/-- Capturing from an address on captures what was found and what follows. -/
theorem captureFrom_captures (hs : s.Paged) {cursor length : Nat} {found result : PageList × List AllocationId}
    (hc : pageSize ∣ cursor) (hl : pageSize ∣ length) (h : s.captureFrom cursor length found = .ok result) :
    s.Captures found result := by
  induction cursor, length, found using captureFrom.induct s with
  | case1 cursor found =>
    unfold captureFrom at h
    obtain rfl := Except.ok.inj h
    exact ⟨fun _ hp => .inl hp, fun _ hid => hid, fun _ hid => .inl hid⟩
  | case2 cursor length found h0 hnone =>
    unfold captureFrom at h
    rw [if_neg h0] at h
    split at h
    · cases h
    · next hsome =>
      rw [hnone] at hsome
      cases hsome
  | case3 cursor length found h0 m hm hstate =>
    unfold captureFrom at h
    rw [if_neg h0] at h
    split at h
    · cases h
    · next m' hm' =>
      obtain rfl := Option.some.inj (hm.symm.trans hm')
      rw [if_pos hstate] at h
      cases h
  | case4 cursor length found h0 m hm hstate piece ih =>
    unfold captureFrom at h
    rw [if_neg h0] at h
    split at h
    · cases h
    · next m' hm' =>
      obtain rfl := Option.some.inj (hm.symm.trans hm')
      rw [if_neg hstate] at h
      have hmem := mem_of_mappingAt hm
      obtain ⟨hma, -⟩ := hs m hmem
      have hpiece : pageSize ∣ piece := hs.dvd_piece hm hc hl
      have hrest := ih (Nat.dvd_add hc hpiece) (Nat.dvd_sub hl hpiece) h
      have hbacking (id : AllocationId) (hid : id ∈ m.backing) : id ∈ result.2 := hrest.keeps id (mem_addNew.2 (.inr hid))
      refine ⟨fun page hp => ?_, fun id hid => hrest.keeps id (mem_addNew.2 (.inl hid)), fun id hid => ?_⟩
      · rcases hrest.pages page hp with hp | hp
        · rcases PageList.extendFrom_pages (Nat.dvd_sub hc hma) hpiece hp with hp | hp
          · exact .inl hp
          · exact .inr ⟨m, hmem, hp, hbacking⟩
        · exact .inr hp
      · rcases hrest.backing id hid with hid | hid
        · rcases mem_addNew.1 hid with hid | hid
          · exact .inl hid
          · exact .inr ⟨m, hmem, hid⟩
        · exact .inr hid

/-- The pages that are captured from a range belong to mappings whose allocations are captured with them. -/
theorem capture_captures (hs : s.Paged) {address size : Nat} {result : PageList × List AllocationId}
    (h : s.capture address size = .ok result) : s.Captures ({}, []) result := by
  unfold capture at h
  split at h
  · cases h
  · next haligned =>
    simp only [Bool.or_eq_true, Bool.not_eq_true', not_or, Bool.not_eq_false] at haligned
    split at h
    · cases h
    · exact captureFrom_captures hs (Nat.dvd_of_mod_eq_zero (of_decide_eq_true haligned.1))
        (Nat.dvd_of_mod_eq_zero (of_decide_eq_true haligned.2)) h

end AddressSpace

end Microkernel
