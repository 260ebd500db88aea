import Mathlib.Data.Set.Card
import Microkernel.Proofs.Memory.Spaces

/-!
# Address spaces byte by byte

The bytes that are mapped (`AddressSpace.Mapped`) decide all that an address space answers (`AddressSpace.Exact`): what can be mapped,
what is free, which mapping an address lies in, and how much is mapped. In whatever order mappings are made, removed and changed, and
the space is cleared, it stays that way (`AddressSpace.after_exact`).
-/

namespace Microkernel

namespace AddressSpace

/-! ## Requests -/

/-- What is asked of an address space. What is mapped is as long as its page list. -/
inductive Request
  | map (mapping : Mapping) (whole : mapping.size = mapping.pages.size)
  | unmap (address size : Nat) (object : Option Nat)
  | setPermission (address : Nat) (permission : Permission)
  | clear

/-- Carries a request out; one that fails leaves the space as it is. -/
def Request.run (s : AddressSpace) : Request → Except KernelError Unit × AddressSpace
  | map mapping _ =>
    match s.map mapping with
    | .ok s' => (.ok (), s')
    | .error e => (.error e, s)
  | unmap address size object =>
    match s.unmap address size object with
    | .ok (_, s') => (.ok (), s')
    | .error e => (.error e, s)
  | setPermission address permission =>
    match s.setPermission address permission with
    | .ok s' => (.ok (), s')
    | .error e => (.error e, s)
  | clear => (.ok (), {})

/-- The address space after requests. -/
def after (requests : List Request) : AddressSpace := requests.foldl (fun s request => (request.run s).2) {}

variable {s s' : AddressSpace} {m m' : Mapping} {address size : Nat}

/-- In order, with mappings of whole page lists at page borders. -/
structure Tidy (s : AddressSpace) : Prop where
  ordered : s.Ordered
  paged : s.Paged

theorem tidy_empty : Tidy {} := ⟨ordered_empty, fun _ hm => absurd hm List.not_mem_nil⟩

/-- Mapping what is as long as its page list keeps a space tidy. -/
theorem Tidy.map (h : s.Tidy) (hsize : m.size = m.pages.size) (hmap : s.map m = .ok s') : s'.Tidy := by
  refine ⟨h.ordered.map hmap, fun m' hm' => ?_⟩
  obtain ⟨haddress, hmappings⟩ := map_ok hmap
  rw [hmappings, mem_insert] at hm'
  rcases hm' with rfl | hm'
  · exact ⟨haddress, hsize⟩
  · exact h.paged m' hm'

/-- A permission that is set keeps a space tidy. -/
theorem Tidy.setPermission {permission : Permission} (h : s.Tidy) (hset : s.setPermission address permission = .ok s') :
    s'.Tidy := by
  refine ⟨?_, fun m hm => ?_⟩
  · unfold AddressSpace.setPermission at hset
    split at hset
    · obtain rfl := Except.ok.inj hset
      exact h.ordered.of_map fun m => by split <;> exact ⟨rfl, rfl⟩
    · cases hset
  · obtain ⟨m₀, hm₀, permission, rfl⟩ := (setPermission_ok hset).2 m hm
    exact h.paged m₀ hm₀

/-- Every request keeps a space tidy. -/
theorem Tidy.run (h : s.Tidy) (request : Request) : (request.run s).2.Tidy := by
  cases request with
  | map mapping whole =>
    unfold Request.run
    dsimp only
    split
    · next hmap => exact h.map whole hmap
    · exact h
  | unmap address size object =>
    unfold Request.run
    dsimp only
    split
    · next hunmap => exact ⟨h.ordered.unmap hunmap, fun m hm => h.paged m (unmap_ok hunmap m hm)⟩
    · exact h
  | setPermission address permission =>
    unfold Request.run
    dsimp only
    split
    · next hset => exact h.setPermission hset
    · exact h
  | clear => exact tidy_empty

/-- Requests on an empty space leave a tidy one. -/
theorem after_tidy (requests : List Request) : (after requests).Tidy := by
  suffices hrun : ∀ {s : AddressSpace}, s.Tidy → (requests.foldl (fun s request => (request.run s).2) s).Tidy from hrun tidy_empty
  intro s h
  induction requests generalizing s with
  | nil => exact h
  | cons request rest ih => exact ih (h.run request)

/-! ## Mapped bytes -/

/-- The byte at the address is mapped. -/
def Mapped (s : AddressSpace) (address : Nat) : Prop := ∃ m ∈ s.mappings, m.covers address = true

/-- Mappings end before the last address of the word. -/
theorem Ordered.lt_of_mapped (h : s.Ordered) (ha : s.Mapped address) : address < wordLimit - 1 := by
  obtain ⟨m, hm, hc⟩ := ha
  have hlimit := h.below m hm
  have hcovers := Mapping.covers_iff.1 hc
  omega

/-- A range is free if no byte of it is mapped; what lies behind the word does not count. -/
theorem Ordered.isFree_iff (h : s.Ordered) (hsize : 0 < size) : s.isFree address size = true ↔
    ∀ a, address ≤ a → a < min (address + size) (wordLimit - 1) → ¬ s.Mapped a := by
  constructor
  · rintro hfree a hle hlt ⟨m, hm, hc⟩
    obtain ⟨hma, hal⟩ := Mapping.covers_iff.1 hc
    have := h.limit_le_of_isFree hfree hm (by omega)
    omega
  · intro hunmapped
    unfold isFree
    split
    · next last hlast =>
      refine decide_eq_true (Nat.le_of_not_lt fun hlt => ?_)
      -- the last mapping that begins before the end of the range reaches into it
      obtain ⟨hmem, hbefore⟩ := List.mem_filter.1 (List.mem_of_getLast? hlast)
      have hbefore : last.address < min (address + size) (wordLimit - 1) := of_decide_eq_true hbefore
      have hpositive := h.positive last hmem
      have hbelow := h.below last hmem
      have hlimit : last.limit = last.address + last.size := rfl
      refine hunmapped (max address last.address) (Nat.le_max_left _ _) (by omega) ⟨last, hmem, ?_⟩
      exact Mapping.covers_iff.2 ⟨Nat.le_max_right _ _, by omega⟩
    · rfl

/-- Why a mapping is not made. -/
theorem Ordered.map_error_iff (h : s.Ordered) : (∃ e, s.map m = .error e) ↔
    ¬ pageSize ∣ m.address ∨ m.size = 0 ∨ wordLimit - 1 < m.address + m.size ∨ ∃ a, m.covers a = true ∧ s.Mapped a := by
  have hword : wordLimit ≤ m.address + m.size ↔ wordLimit - 1 < m.address + m.size := by
    have : 0 < wordLimit := by decide
    omega
  unfold AddressSpace.map
  by_cases haligned : pageSize ∣ m.address
  · have hpage : isPageAligned m.address = true := decide_eq_true (Nat.mod_eq_zero_of_dvd haligned)
    rw [hpage, Bool.not_true, if_neg Bool.false_ne_true]
    by_cases hsize : m.size = 0
    · rw [if_pos hsize]
      exact ⟨fun _ => .inr (.inl hsize), fun _ => ⟨_, rfl⟩⟩
    · rw [if_neg hsize]
      have hfree : s.isFree m.address m.size = true ↔ _ := h.isFree_iff (Nat.pos_of_ne_zero hsize)
      have hlimit : m.limit = m.address + m.size := rfl
      split
      · next hrefused =>
        refine ⟨fun _ => .inr (.inr ?_), fun _ => ⟨_, rfl⟩⟩
        rw [Bool.or_eq_true, decide_eq_true_eq, Bool.not_eq_true', ← Bool.not_eq_true] at hrefused
        rcases hrefused with hlarge | hused
        · exact .inl (hword.1 hlarge)
        · simp only [hfree, not_forall, Classical.not_not] at hused
          obtain ⟨a, hle, hlt, ha⟩ := hused
          exact .inr ⟨a, Mapping.covers_iff.2 ⟨hle, by omega⟩, ha⟩
      · next hgranted =>
        rw [Bool.or_eq_true, decide_eq_true_eq, Bool.not_eq_true', not_or, Bool.not_eq_false, hword] at hgranted
        refine ⟨by rintro ⟨_, ⟨⟩⟩, fun hbad => ?_⟩
        rcases hbad with hbad | hbad | hbad | ⟨a, hc, ha⟩
        · exact absurd haligned hbad
        · exact absurd hbad hsize
        · exact absurd hbad hgranted.1
        · obtain ⟨hle, hlt⟩ := Mapping.covers_iff.1 hc
          exact absurd ha (hfree.1 hgranted.2 a hle (by have := h.lt_of_mapped ha; omega))
  · have hpage : isPageAligned m.address = false := decide_eq_false fun h0 => haligned (Nat.dvd_of_mod_eq_zero h0)
    rw [hpage, Bool.not_false, if_pos rfl]
    exact ⟨fun _ => .inl haligned, fun _ => ⟨_, rfl⟩⟩

/-! ## Unmapping -/

/-- In a space in order a mapping is found by its address. -/
theorem Ordered.find?_eq_some_iff (h : s.Ordered) :
    s.mappings.find? (·.address = address) = some m ↔ m ∈ s.mappings ∧ m.address = address := by
  constructor
  · intro hfind
    have hat := List.find?_some hfind
    exact ⟨List.mem_of_find?_eq_some hfind, of_decide_eq_true hat⟩
  · rintro ⟨hm, rfl⟩
    cases hfind : s.mappings.find? (·.address = m.address) with
    | none => exact absurd (decide_eq_true rfl) (List.find?_eq_none.1 hfind m hm)
    | some other =>
      have hat := List.find?_some hfind
      rw [h.eq_of_address (List.mem_of_find?_eq_some hfind) hm (of_decide_eq_true hat)]

/-- Exactly the mapping that stands at the address, with the size and for the object, is removed. -/
theorem Ordered.unmap_eq_ok_iff (h : s.Ordered) {object : Option Nat} : s.unmap address size object = .ok (m, s') ↔
    m ∈ s.mappings ∧ m.address = address ∧ m.size = size ∧ m.object = object ∧
      s' = ⟨s.mappings.filter (·.address ≠ address)⟩ := by
  unfold AddressSpace.unmap
  split
  · next found hfind =>
    obtain ⟨hfound, haddress⟩ := h.find?_eq_some_iff.1 hfind
    split
    · next hsame =>
      constructor
      · intro hok
        obtain ⟨rfl, rfl⟩ := Prod.mk.inj (Except.ok.inj hok)
        exact ⟨hfound, haddress, hsame.1, hsame.2, rfl⟩
      · rintro ⟨hm, hma, -, -, rfl⟩
        rw [h.eq_of_address hm hfound (hma.trans haddress.symm)]
    · next hother =>
      refine ⟨by rintro ⟨⟩, ?_⟩
      rintro ⟨hm, hma, hsize, hobject, -⟩
      rw [h.eq_of_address hm hfound (hma.trans haddress.symm)] at hsize hobject
      exact absurd ⟨hsize, hobject⟩ hother
  · next hnone =>
    refine ⟨by rintro ⟨⟩, ?_⟩
    rintro ⟨hm, hma, -⟩
    rw [h.find?_eq_some_iff.2 ⟨hm, hma⟩] at hnone
    cases hnone

/-- What is removed with its address is one mapping. -/
theorem Ordered.mem_filter_address (h : s.Ordered) (hm : m ∈ s.mappings) :
    m' ∈ s.mappings.filter (·.address ≠ m.address) ↔ m' ∈ s.mappings ∧ m' ≠ m := by
  rw [List.mem_filter, decide_eq_true_eq]
  refine and_congr_right fun hm' => not_congr ⟨fun heq => h.eq_of_address hm' hm heq, ?_⟩
  rintro rfl
  rfl

/-! ## Sizes -/

/-- The addresses of the mapped bytes, in ascending order. -/
def addresses (s : AddressSpace) : List Nat := s.mappings.flatMap fun m => List.range' m.address m.size

/-- The addresses of a space are its mapped bytes. -/
theorem mem_addresses : address ∈ s.addresses ↔ s.Mapped address := by
  simp only [addresses, List.mem_flatMap, List.mem_range'_1, Mapped, Mapping.covers_iff]
  rfl

/-- A space has as many addresses as its mappings have bytes. -/
theorem length_addresses (s : AddressSpace) : s.addresses.length = s.mappedSize :=
  length_flatMap_eq_total (fun _ => List.length_range') s.mappings

/-- The mappings of a space in order share no address. -/
theorem Ordered.nodup_addresses (h : s.Ordered) : s.addresses.Nodup := by
  refine List.nodup_flatMap.2 ⟨fun m _ => List.nodup_range', h.apart.imp fun {m m'} hle => ?_⟩
  intro a ha ha'
  have hlimit : m.limit = m.address + m.size := rfl
  have hin := List.mem_range'_1.1 ha
  have hin' := List.mem_range'_1.1 ha'
  omega

/-- The size of a space in order is the number of its mapped bytes. -/
theorem Ordered.mappedSize_eq (h : s.Ordered) : s.mappedSize = {a | s.Mapped a}.ncard := by
  have hset : {a | s.Mapped a} = (s.addresses.toFinset : Set Nat) :=
    Set.ext fun a => mem_addresses.symm.trans List.mem_toFinset.symm
  rw [hset, Set.ncard_coe_finset, List.toFinset_card_of_nodup h.nodup_addresses, length_addresses]

/-! ## Exact answers -/

/-- Mappings stand at page borders, are not empty, end at the last address of the word at most and share no byte, and the answers of
the space are those that its mapped bytes give. -/
structure Exact (s : AddressSpace) : Prop where
  aligned : ∀ m ∈ s.mappings, pageSize ∣ m.address
  positive : ∀ m ∈ s.mappings, 0 < m.size
  below : ∀ m ∈ s.mappings, m.address + m.size ≤ wordLimit - 1
  disjoint : s.mappings.Pairwise fun m m' => ∀ a, ¬ (m.covers a = true ∧ m'.covers a = true)
  /-- Nothing is mapped exactly if the address is not aligned, the size is zero, the range leaves the word, or a byte is mapped. -/
  map_fails : ∀ m whole, (∃ e, (Request.map m whole).run s = (.error e, s)) ↔
    ¬ pageSize ∣ m.address ∨ m.size = 0 ∨ wordLimit - 1 < m.address + m.size ∨ ∃ a, m.covers a = true ∧ s.Mapped a
  map_adds : ∀ m whole s', (Request.map m whole).run s = (.ok (), s') → ∀ m', m' ∈ s'.mappings ↔ m' = m ∨ m' ∈ s.mappings
  mappingAt : ∀ a m, s.mappingAt a = some m ↔ m ∈ s.mappings ∧ m.covers a = true
  isFree : ∀ a size, 0 < size →
    (s.isFree a size = true ↔ ∀ b, a ≤ b → b < min (a + size) (wordLimit - 1) → ¬ s.Mapped b)
  unmap : ∀ a size object, (∃ m s', s.unmap a size object = .ok (m, s')) ↔
    ∃ m ∈ s.mappings, m.address = a ∧ m.size = size ∧ m.object = object
  unmap_removes : ∀ a size object m s', s.unmap a size object = .ok (m, s') →
    m.address = a ∧ m.size = size ∧ m.object = object ∧ ∀ m', m' ∈ s'.mappings ↔ m' ∈ s.mappings ∧ m' ≠ m
  mappedSize : s.mappedSize = {a | s.Mapped a}.ncard
  fails : ∀ request e s', Request.run s request = (.error e, s') → s' = s

/-- A tidy space answers what its mapped bytes say. -/
theorem Tidy.exact (h : s.Tidy) : s.Exact := by
  have ho := h.ordered
  constructor
  case aligned => exact fun m hm => (h.paged m hm).1
  case positive => exact ho.positive
  case below => exact fun m hm => Nat.le_sub_one_of_lt (ho.below m hm)
  case disjoint =>
    refine ho.apart.imp fun {m m'} hle a => ?_
    rintro ⟨hc, hc'⟩
    have := (Mapping.covers_iff.1 hc).2
    have := (Mapping.covers_iff.1 hc').1
    omega
  case map_fails =>
    intro m whole
    rw [← ho.map_error_iff]
    unfold Request.run
    dsimp only
    cases s.map m with
    | ok s' =>
      constructor
      · rintro ⟨e, he⟩
        cases (Prod.mk.inj he).1
      · rintro ⟨e, ⟨⟩⟩
    | error e => exact ⟨fun _ => ⟨e, rfl⟩, fun _ => ⟨e, rfl⟩⟩
  case map_adds =>
    intro m whole s' hrun m'
    unfold Request.run at hrun
    dsimp only at hrun
    split at hrun
    · next hmap =>
      obtain ⟨-, rfl⟩ := Prod.mk.inj hrun
      rw [(map_ok hmap).2, mem_insert]
    · cases (Prod.mk.inj hrun).1
  case mappingAt => exact fun a m => ho.mappingAt_iff
  case isFree => exact fun a size hsize => ho.isFree_iff hsize
  case unmap =>
    intro a size object
    constructor
    · rintro ⟨m, s', hok⟩
      obtain ⟨hm, ha, hsize, hobject, -⟩ := ho.unmap_eq_ok_iff.1 hok
      exact ⟨m, hm, ha, hsize, hobject⟩
    · rintro ⟨m, hm, ha, hsize, hobject⟩
      exact ⟨m, _, ho.unmap_eq_ok_iff.2 ⟨hm, ha, hsize, hobject, rfl⟩⟩
  case unmap_removes =>
    intro a size object m s' hok
    obtain ⟨hm, rfl, hsize, hobject, rfl⟩ := ho.unmap_eq_ok_iff.1 hok
    exact ⟨rfl, hsize, hobject, fun m' => ho.mem_filter_address hm⟩
  case mappedSize => exact ho.mappedSize_eq
  case fails =>
    intro request e s' hrun
    cases request <;> unfold Request.run at hrun <;> dsimp only at hrun
    case clear => cases (Prod.mk.inj hrun).1
    all_goals
      split at hrun
      · cases (Prod.mk.inj hrun).1
      · exact (Prod.mk.inj hrun).2.symm

/-- However mappings are made, removed and changed, an address space answers what its mapped bytes say. -/
theorem after_exact (requests : List Request) : (after requests).Exact := (after_tidy requests).exact

end AddressSpace

end Microkernel
