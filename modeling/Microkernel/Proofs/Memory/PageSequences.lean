import Mathlib.Data.List.Chain
import Mathlib.Logic.Function.Basic
import Microkernel.Proofs.Memory.Words

/-!
# Page lists as sequences of pages

A page list that is built run by run and from ranges of other lists (`PageList.Built`) names one sequence of pages. Adding a run and
appending a range of another list append to that sequence, and neighbouring runs are merged wherever they can be
(`PageList.Appends`). As long as its bytes can be counted in a word, the size of the list, locating a byte, and reading and writing a
range through whatever stands for physical memory (`Bus`) are told by the sequence alone (`PageList.Serves`, `PageList.Built.denotes`).
In longer lists plain sums leave the word (`PageList.denotes_false`); bytes are located up to there (`PageList.Locates`).
-/

namespace Microkernel

open Wire (Bytes)

/-! ## Sequences of pages -/

/-- The addresses of the bytes of pages. -/
def pageBytes (pages : List Nat) : List Nat := pages.flatMap (List.range' · pageSize)

/-- How many pages at the front of a sequence follow each other without a gap. -/
def consecutive : List Nat → Nat
  | [] => 0
  | [_] => 1
  | page :: next :: rest => if next = page + pageSize then consecutive (next :: rest) + 1 else 1

/-- The bytes of pages are those of the first page and those of the others behind. -/
theorem pageBytes_cons (page : Nat) (rest : List Nat) : pageBytes (page :: rest) = List.range' page pageSize ++ pageBytes rest :=
  List.flatMap_cons

theorem pageBytes_append (first rest : List Nat) : pageBytes (first ++ rest) = pageBytes first ++ pageBytes rest := List.flatMap_append

/-- Dropping pages drops their bytes. -/
theorem pageBytes_drop (pages : List Nat) (n : Nat) : pageBytes (pages.drop n) = (pageBytes pages).drop (n * pageSize) := by
  induction n generalizing pages with
  | zero => rw [Nat.zero_mul, List.drop_zero, List.drop_zero]
  | succ n ih =>
    cases pages with
    | nil => simp [pageBytes]
    | cons page rest =>
      have hpage : (List.range' page pageSize).length = pageSize := List.length_range'
      rw [List.drop_succ_cons, ih, pageBytes_cons, Nat.succ_mul, Nat.add_comm, ← List.drop_drop, List.drop_left' hpage]

/-- Taking pages takes their bytes. -/
theorem pageBytes_take (pages : List Nat) (n : Nat) : pageBytes (pages.take n) = (pageBytes pages).take (n * pageSize) := by
  induction n generalizing pages with
  | zero => rw [Nat.zero_mul, List.take_zero, List.take_zero, pageBytes, List.flatMap_nil]
  | succ n ih =>
    cases pages with
    | nil => simp [pageBytes]
    | cons page rest =>
      have hpage : (List.range' page pageSize).length = pageSize := List.length_range'
      rw [List.take_succ_cons, pageBytes_cons, ih, pageBytes_cons, Nat.succ_mul, Nat.add_comm, List.take_add,
        List.take_left' hpage, List.drop_left' hpage]

/-- Cutting at page borders is cutting the sequence. -/
theorem pageBytes_slice (pages : List Nat) {offset size : Nat} (ho : pageSize ∣ offset) (hs : pageSize ∣ size) :
    pageBytes (slice pages (offset / pageSize) (size / pageSize)) = slice (pageBytes pages) offset size := by
  rw [slice, slice, pageBytes_take, pageBytes_drop, Nat.div_mul_cancel ho, Nat.div_mul_cancel hs]

/-- The bytes tell the pages. -/
theorem pageBytes_injective : Function.Injective pageBytes := by
  have hpage (page : Nat) : List.range' page pageSize = page :: List.range' (page + 1) (pageSize - 1) := List.range'_succ
  intro pages others h
  induction pages generalizing others with
  | nil =>
    cases others with
    | nil => rfl
    | cons other others =>
      rw [pageBytes_cons, hpage] at h
      cases h
  | cons page rest ih =>
    cases others with
    | nil =>
      rw [pageBytes_cons, hpage] at h
      cases h
    | cons other others =>
      rw [pageBytes_cons, pageBytes_cons] at h
      obtain ⟨hfirst, hrest⟩ := List.append_inj h (by rw [List.length_range', List.length_range'])
      rw [hpage, hpage, List.cons.injEq] at hfirst
      rw [hfirst.1, ih hrest]

namespace PageRun

/-- A run of one page more has its first page in front. -/
theorem toList_succ (address n : Nat) :
    (PageRun.mk address (n + 1)).toList = address :: (PageRun.mk (address + pageSize) n).toList := by
  rw [Nat.add_comm n 1, toList_add, Nat.one_mul]
  rfl

/-- Dropping pages from a run leaves the run that begins so much later. -/
theorem toList_drop {address n i : Nat} (h : i ≤ n) :
    (PageRun.mk address n).toList.drop i = (PageRun.mk (address + i * pageSize) (n - i)).toList := by
  have hsplit := toList_add address i (n - i)
  rw [Nat.add_sub_cancel' h] at hsplit
  rw [hsplit]
  exact List.drop_left' (length_toList _)

/-- The pages of a run follow each other up to its end, if the next page stands elsewhere. -/
theorem consecutive_toList (address n : Nat) {rest : List Nat} (h : ∀ next ∈ rest.head?, next ≠ address + (n + 1) * pageSize) :
    consecutive ((PageRun.mk address (n + 1)).toList ++ rest) = n + 1 := by
  induction n generalizing address with
  | zero =>
    cases rest with
    | nil => rfl
    | cons next rest =>
      have hgap : next ≠ address + pageSize := by simpa using h
      exact if_neg hgap
  | succ n ih =>
    have hrest := ih (address + pageSize) fun next hnext heq => h next hnext (by rw [heq, Nat.succ_mul (n + 1)]; omega)
    rw [toList_succ] at hrest
    rw [toList_succ, toList_succ]
    exact (if_pos rfl).trans (congrArg (· + 1) hrest)

end PageRun

namespace PageList

/-- The size of a list is that of its pages together. -/
theorem size_eq (l : PageList) : l.size = l.pages.length * pageSize := by rw [size, length_pages]

/-- The places of a list are the bytes of its pages. -/
theorem places_eq_pageBytes (l : PageList) : l.places = pageBytes l.pages := l.places_eq

/-! ## Merged runs -/

/-- The runs are not empty and end in the word, and none begins where the one before it ends. -/
structure Merged (runs : List PageRun) : Prop where
  positive : ∀ run ∈ runs, 0 < run.pages
  fits : Fits runs
  apart : runs.IsChain fun run next => run.limit ≠ next.address

variable {l l' other : PageList} {run : PageRun} {runs : List PageRun} {address n offset size length contiguous : Nat}

theorem merged_nil : Merged [] := ⟨nofun, nofun, .nil⟩

/-- Behind its first run a merged list is merged. -/
theorem Merged.tail (h : Merged (run :: runs)) : Merged runs :=
  ⟨fun r hr => h.positive r (List.mem_cons_of_mem _ hr), fun r hr => h.fits r (List.mem_cons_of_mem _ hr), h.apart.tail⟩

/-- The first run stays where it is when others are put behind it. -/
theorem appendRun_cons (run first : PageRun) (rest : List PageRun) :
    ∃ n rest', appendRun run (first :: rest) = { first with pages := n } :: rest' := by
  cases rest with
  | nil =>
    unfold appendRun
    split
    · exact ⟨_, _, rfl⟩
    · exact ⟨_, _, rfl⟩
  | cons next rest => exact ⟨_, _, rfl⟩

/-- Appending a run that is not empty and ends in the word keeps a list merged. -/
theorem Merged.appendRun (h : Merged runs) (hpages : 0 < run.pages) (hlimit : run.limit < wordLimit) :
    Merged (appendRun run runs) := by
  refine ⟨?_, (appendRunInWords_eq hlimit h.fits).2, ?_⟩
  · have hpositive := h.positive
    clear h
    fun_induction PageList.appendRun run runs with
    | case1 => simpa using hpages
    | case2 last => simpa using Nat.add_pos_right _ hpages
    | case3 last => simpa [hpages] using hpositive
    | case4 first next rest ih =>
      rintro r (_ | ⟨_, hr⟩)
      · exact hpositive _ List.mem_cons_self
      · exact ih (fun r hr => hpositive r (List.mem_cons_of_mem _ hr)) r hr
  · have hapart := h.apart
    clear h
    fun_induction PageList.appendRun run runs with
    | case1 => exact .singleton _
    | case2 last => exact .singleton _
    | case3 last hgap => exact .cons_cons hgap (.singleton _)
    | case4 first next rest ih =>
      -- the run behind the first one still begins at the same address
      obtain ⟨hfirst, hrest⟩ := List.isChain_cons_cons.1 hapart
      obtain ⟨n, rest', heq⟩ := appendRun_cons run next rest
      have hrest := ih hrest
      rw [heq] at hrest ⊢
      exact .cons_cons hfirst hrest

/-- Adding pages that end in the word keeps a list merged. -/
theorem Merged.addRun (h : Merged l.runs) (hlimit : address + n * pageSize < wordLimit) : Merged (l.addRun address n).runs := by
  unfold PageList.addRun
  split
  · exact h
  · next hn => exact h.appendRun (Nat.pos_of_ne_zero hn) hlimit

/-- What is located ends with its run. -/
theorem locateIn_limit (hfits : Fits runs) (h : locateIn runs offset = some (address, contiguous)) :
    address + contiguous < wordLimit := by
  induction runs generalizing offset with
  | nil => cases h
  | cons run rest ih =>
    have hrun : run.address + run.size < wordLimit := hfits run List.mem_cons_self
    unfold locateIn at h
    split at h
    · obtain ⟨rfl, rfl⟩ := Prod.mk.inj (Option.some.inj h)
      omega
    · exact ih (fun r hr => hfits r (List.mem_cons_of_mem _ hr)) h

/-- Appending a range of another list keeps a list merged, if the runs of the other one end in the word. -/
theorem Merged.extendFrom (h : Merged l.runs) (hother : Fits other.runs) (offset size : Nat) :
    Merged (l.extendFrom other offset size).runs := by
  induction l, offset, size using extendFrom.induct other with
  | case1 l offset =>
    unfold PageList.extendFrom
    exact h
  | case2 l offset size h0 hnone =>
    unfold PageList.extendFrom
    rw [if_neg h0]
    split
    · exact h
    · next hsome => cases hnone.symm.trans hsome
  | case3 l offset size h0 address contiguous hsome length ih =>
    have hpiece : length / pageSize * pageSize ≤ length := Nat.div_mul_le_self _ _
    have hcontiguous : length ≤ contiguous := Nat.min_le_left _ _
    have hlimit := locateIn_limit hother hsome
    unfold PageList.extendFrom
    rw [if_neg h0]
    split
    · next hnone => cases hnone.symm.trans hsome
    · next address' contiguous' hsome' =>
      obtain ⟨rfl, rfl⟩ := Prod.mk.inj (Option.some.inj (hsome.symm.trans hsome'))
      exact ih (h.addRun (by omega))

/-! ### Sums that were in the word -/

/-- Appending a run with plain sums that stay in the word appends the run. -/
theorem appendRunInWords_ok {runs' : List PageRun} (h : appendRunInWords run runs = .ok runs') : runs' = appendRun run runs := by
  fun_induction appendRun run runs generalizing runs' with
  | case1 => exact (Except.ok.inj h).symm
  | case2 last hmeets =>
    have h := of_word_bind (of_word_bind h)
    rw [← PageRun.size, ← PageRun.limit, if_pos hmeets] at h
    have h := of_word_bind h
    exact (Except.ok.inj h).symm
  | case3 last hgap =>
    have h := of_word_bind (of_word_bind h)
    rw [← PageRun.size, ← PageRun.limit, if_neg hgap] at h
    exact (Except.ok.inj h).symm
  | case4 first next rest ih =>
    unfold appendRunInWords at h
    cases hrest : appendRunInWords run (next :: rest) with
    | error e =>
      rw [hrest] at h
      cases h
    | ok rest' =>
      rw [hrest] at h
      exact ih hrest ▸ (Except.ok.inj h).symm

/-- Adding pages with plain sums that stay in the word adds the pages. -/
theorem addRunInWords_ok (h : l.addRunInWords address n = .ok l') : l' = l.addRun address n := by
  unfold addRunInWords at h
  unfold addRun
  split at h
  · next hn => exact (if_pos hn).symm ▸ (Except.ok.inj h).symm
  · next hn =>
    cases hruns : appendRunInWords ⟨address, n⟩ l.runs with
    | error e =>
      rw [hruns] at h
      cases h
    | ok runs =>
      rw [hruns] at h
      rw [if_neg hn, ← appendRunInWords_ok hruns]
      exact (Except.ok.inj h).symm

/-- Locating with plain sums that stay in the word finds what locating finds. -/
theorem locateInWords_ok {base : Nat} {found : Option (Nat × Nat)} (h : locateInWords base runs (base + offset) = .ok found) :
    found = locateIn runs offset := by
  induction runs generalizing base offset with
  | nil => exact (Except.ok.inj h).symm
  | cons run rest ih =>
    have h := of_word_bind (of_word_bind h)
    rw [← PageRun.size, Nat.add_sub_cancel_left] at h
    unfold locateIn
    by_cases hlt : offset < run.size
    · rw [if_pos (Nat.add_lt_add_left hlt _)] at h
      have h := of_word_bind h
      rw [if_pos hlt]
      exact (Except.ok.inj h).symm
    · have hoffset : base + offset = base + run.size + (offset - run.size) := by omega
      rw [if_neg (by omega), hoffset] at h
      rw [if_neg hlt]
      exact ih h

/-- Appending a range with plain sums that stay in the word appends the range. -/
theorem extendFromInWords_ok (h : l.extendFromInWords other offset size = .ok l') : l' = l.extendFrom other offset size := by
  induction size using Nat.strongRecOn generalizing l offset with
  | ind size ih =>
    unfold extendFromInWords at h
    unfold extendFrom
    split at h
    · next h0 => rw [if_pos h0, Except.ok.inj h]
    · next h0 =>
      rw [if_neg h0]
      split at h
      · cases h
      · next hnone =>
        have hnone : none = other.locate offset := locateInWords_ok ((Nat.zero_add offset).symm ▸ hnone)
        split
        · exact (Except.ok.inj h).symm
        · next hsome => cases hnone.trans hsome
      · next address contiguous hsome =>
        have hpositive := locateInWords_pos (Nat.zero_le _) hsome
        have hsome : some (address, contiguous) = other.locate offset := locateInWords_ok ((Nat.zero_add offset).symm ▸ hsome)
        split
        · next hnone => cases hsome.trans hnone
        · next address' contiguous' hsome' =>
          obtain ⟨rfl, rfl⟩ := Prod.mk.inj (Option.some.inj (hsome.trans hsome'))
          dsimp only at h
          cases hadd : l.addRunInWords address (min contiguous size / pageSize) with
          | error e =>
            rw [hadd] at h
            cases h
          | ok longer =>
            rw [hadd] at h
            obtain rfl := addRunInWords_ok hadd
            change (word (offset + min contiguous size) >>= _) = _ at h
            have h := of_word_bind h
            exact ih _ (by omega) h

/-! ### Lists that are built -/

/-- Lists that come of adding runs that end in the word and of appending ranges of other such lists. The runs may begin anywhere. -/
inductive Built : PageList → Prop
  | empty : Built {}
  | add (address n : Nat) {l l' : PageList} (hl : Built l) (hrun : address + n * pageSize < wordLimit)
      (hadd : l.addRunInWords address n = .ok l') : Built l'
  | extend (offset size : Nat) {l other l' : PageList} (hl : Built l) (hother : Built other)
      (hextend : l.extendInWords other offset size = .ok l') : Built l'

/-- Whatever is added and appended, runs stay merged. -/
theorem Built.merged (h : Built l) : Merged l.runs := by
  induction h with
  | empty => exact merged_nil
  | add address n hl hrun hadd ih => exact addRunInWords_ok hadd ▸ ih.addRun hrun
  | extend offset size hl hother hextend ih ihother =>
    unfold extendInWords at hextend
    have hextend := of_word_bind hextend
    exact extendFromInWords_ok hextend ▸ ih.extendFrom ihother.fits _ _

/-! ## Appending -/

/-- The bytes of the list can be counted in a word. -/
def InWord (l : PageList) : Prop := l.pages.length * pageSize < wordLimit

instance (l : PageList) : Decidable l.InWord := Nat.decLt _ _

/-- A list whose bytes can be counted in a word has its size below the word limit. -/
theorem InWord.size_lt (h : l.InWord) : l.size < wordLimit := l.size_eq ▸ h

/-- At page borders, what is appended from another list are pages of that list, in order. -/
theorem extendFrom_slice (ho : pageSize ∣ offset) (hs : pageSize ∣ size) (h : offset + size ≤ other.size) :
    (l.extendFrom other offset size).pages = l.pages ++ slice other.pages (offset / pageSize) (size / pageSize) := by
  refine pageBytes_injective ?_
  rw [pageBytes_append, pageBytes_slice _ ho hs]
  simp only [← places_eq_pageBytes]
  exact extendFrom_places ho hs h

/-- What adding and appending do to the sequence of pages. -/
structure Appends (l : PageList) : Prop where
  /-- No run begins where the one before it ends. -/
  apart : l.runs.IsChain fun run next => run.limit ≠ next.address
  add : ∀ address n, address + n * pageSize < wordLimit →
    l.addRunInWords address n = .ok (l.addRun address n) ∧
      (l.addRun address n).pages = l.pages ++ (List.range n).map (address + · * pageSize) ∧
      (l.addRun address n).runs.IsChain fun run next => run.limit ≠ next.address
  extend : ∀ other, Built other → other.InWord → ∀ offset size, pageSize ∣ offset → pageSize ∣ size →
    offset + size ≤ other.pages.length * pageSize →
    l.extendInWords other offset size = .ok (l.extendFrom other offset size) ∧
      (l.extendFrom other offset size).pages = l.pages ++ slice other.pages (offset / pageSize) (size / pageSize) ∧
      (l.extendFrom other offset size).runs.IsChain fun run next => run.limit ≠ next.address
  count : l.pages.length < wordLimit → countInWords 0 l.runs = .ok l.pages.length

/-- The places of runs that end in the word have places behind them in the word. -/
theorem Merged.places_lt (h : Merged l.runs) : ∀ place ∈ l.places, place + 1 < wordLimit := by
  intro place hp
  obtain ⟨run, hrun, hp⟩ := List.mem_flatMap.1 hp
  have hlimit : run.address + run.size < wordLimit := h.fits run hrun
  have hplace := List.mem_range'_1.1 hp
  omega

/-- Adding to a built list and appending to it append to its sequence of pages. -/
theorem Built.appends (h : Built l) : l.Appends := by
  have hmerged := h.merged
  constructor
  case apart => exact hmerged.apart
  case add =>
    intro address n hrun
    exact ⟨(addRunInWords_eq hrun hmerged.fits).1, addRun_pages l address n, (hmerged.addRun hrun).apart⟩
  case extend =>
    intro other hother hword offset size ho hs hrange
    have hrange : offset + size ≤ other.size := other.size_eq ▸ hrange
    have hend : offset + size < wordLimit := Nat.lt_of_le_of_lt hrange hword.size_lt
    refine ⟨?_, extendFrom_slice ho hs hrange, (hmerged.extendFrom hother.merged.fits offset size).apart⟩
    rw [extendInWords, word_bind hend]
    exact (extendFromInWords_eq hword.size_lt hother.merged.places_lt hend hmerged.fits).1
  case count =>
    intro hcount
    have hpages : 0 + total PageRun.pages l.runs = l.pages.length := (Nat.zero_add _).trans l.length_pages.symm
    rw [countInWords_eq (hpages ▸ hcount), hpages]

/-! ## Locating -/

/-- The page behind a run stands elsewhere than at its end. -/
theorem Merged.head_ne (h : Merged (run :: runs)) : ∀ next ∈ (runs.flatMap PageRun.toList).head?, next ≠ run.limit := by
  cases runs with
  | nil => nofun
  | cons next rest =>
    obtain ⟨n, hn⟩ := Nat.exists_eq_add_one_of_ne_zero (Nat.ne_of_gt (h.tail.positive next List.mem_cons_self))
    have hfirst : next.toList = next.address :: (PageRun.mk (next.address + pageSize) n).toList := by
      rw [← PageRun.toList_succ, ← hn]
    rw [List.flatMap_cons, hfirst, List.cons_append, List.head?_cons]
    rintro page ⟨⟩ heq
    exact (List.isChain_cons_cons.1 h.apart).1 heq.symm

/-- A byte is located in its page, with all that follows it in pages without a gap. -/
theorem Merged.locateIn_eq (h : Merged runs) (hoffset : offset < total PageRun.pages runs * pageSize) :
    ∃ page, (runs.flatMap PageRun.toList)[offset / pageSize]? = some page ∧
      locateIn runs offset = some (page + offset % pageSize,
        consecutive ((runs.flatMap PageRun.toList).drop (offset / pageSize)) * pageSize - offset % pageSize) := by
  induction runs generalizing offset with
  | nil => simp [total] at hoffset
  | cons run rest ih =>
    have hsize : run.size = run.pages * pageSize := rfl
    have hlength := run.length_toList
    rw [total, Nat.add_mul, ← hsize] at hoffset
    rw [List.flatMap_cons, locateIn]
    by_cases hlt : offset < run.size
    · have hi : offset / pageSize < run.pages := Nat.div_lt_of_lt_mul (by rw [Nat.mul_comm]; exact hlt)
      obtain ⟨k, hk⟩ := Nat.exists_eq_add_of_lt hi
      have hend : run.limit = run.address + offset / pageSize * pageSize + (k + 1) * pageSize := by
        rw [PageRun.limit, hsize, hk, Nat.add_assoc, Nat.add_mul, Nat.add_assoc]
      have hconsecutive := PageRun.consecutive_toList (run.address + offset / pageSize * pageSize) k (hend ▸ h.head_ne)
      have hrest : run.pages - offset / pageSize = k + 1 := by omega
      refine ⟨run.address + offset / pageSize * pageSize, ?_, ?_⟩
      · rw [List.getElem?_append_left (by omega), PageRun.toList, List.getElem?_map, List.getElem?_range hi]
        rfl
      · rw [if_pos hlt, List.drop_append_of_le_length (by omega), PageRun.toList_drop (Nat.le_of_lt hi), hrest, hconsecutive]
        have hoffset := Nat.div_add_mod' offset pageSize
        rw [PageRun.limit] at hend
        have haddress : run.address + offset = run.address + offset / pageSize * pageSize + offset % pageSize := by omega
        have hcontiguous : run.size - offset = (k + 1) * pageSize - offset % pageSize := by omega
        rw [haddress, hcontiguous]
    · -- the byte lies behind the run, as many bytes as it lies behind the first pages
      obtain ⟨n, rfl⟩ := Nat.exists_eq_add_of_le (Nat.le_of_not_lt hlt)
      have hpage : (run.size + n) / pageSize = run.toList.length + n / pageSize := by
        rw [hlength, hsize, Nat.add_comm, Nat.add_mul_div_right _ _ (by decide), Nat.add_comm]
      have hinside : (run.size + n) % pageSize = n % pageSize := by
        rw [hsize, Nat.add_comm, Nat.add_mul_mod_self_right]
      rw [if_neg hlt, hpage, hinside, Nat.add_sub_cancel_left, List.getElem?_append_right (Nat.le_add_right _ _),
        Nat.add_sub_cancel_left, List.drop_length_add_append]
      exact ih h.tail (by omega)

/-- A byte is located if the bytes up to the end of its run can be counted in a word. -/
theorem locateInWords_of_locateIn {base : Nat} (hfits : Fits runs) (h : locateIn runs offset = some (address, contiguous))
    (hend : base + offset + contiguous < wordLimit) :
    locateInWords base runs (base + offset) = .ok (some (address, contiguous)) := by
  induction runs generalizing base offset with
  | nil => cases h
  | cons run rest ih =>
    have hrun : run.address + run.size < wordLimit := hfits run List.mem_cons_self
    unfold locateIn at h
    rw [locateInWords, ← PageRun.size, word_bind (by omega)]
    split at h
    · next hlt =>
      obtain ⟨rfl, rfl⟩ := Prod.mk.inj (Option.some.inj h)
      rw [word_bind (by omega), if_pos (Nat.add_lt_add_left hlt _), Nat.add_sub_cancel_left, word_bind (by omega)]
      rfl
    · next hge =>
      rw [word_bind (by omega), if_neg (by omega)]
      have hoffset : base + offset = base + run.size + (offset - run.size) := by omega
      rw [hoffset]
      exact ih (fun r hr => hfits r (List.mem_cons_of_mem _ hr)) h (by omega)

/-- A byte is located in its page, with the bytes from there to the end of the last page that follows without a gap, if the bytes of
the list up to that end can be counted in a word. -/
def Locates (l : PageList) : Prop :=
  ∀ offset page, l.pages[offset / pageSize]? = some page →
    (offset / pageSize + consecutive (l.pages.drop (offset / pageSize))) * pageSize < wordLimit →
    locateInWords 0 l.runs offset = .ok (some (page + offset % pageSize,
      consecutive (l.pages.drop (offset / pageSize)) * pageSize - offset % pageSize))

/-- A byte of a built list is located in its page. -/
theorem Built.locates (h : Built l) : l.Locates := by
  intro offset page hpage hend
  obtain ⟨hindex, -⟩ := List.getElem?_eq_some_iff.1 hpage
  have hoffset : offset < l.pages.length * pageSize := (Nat.div_lt_iff_lt_mul (by decide)).1 hindex
  rw [length_pages] at hoffset
  obtain ⟨page', hpage', hlocate⟩ := h.merged.locateIn_eq hoffset
  obtain rfl : page = page' := Option.some.inj (hpage.symm.trans hpage')
  have hpositive := locateIn_pos hlocate
  have hdiv := Nat.div_add_mod' offset pageSize
  rw [Nat.add_mul] at hend
  have hlocated : locateInWords 0 l.runs (0 + offset) = _ :=
    locateInWords_of_locateIn h.merged.fits hlocate (by rw [pages] at hend; omega)
  rwa [Nat.zero_add] at hlocated

end PageList

/-! ## Physical memory -/

/-- Physical memory as far as it is read and written. It may refuse either, and either may change it. -/
structure Bus (σ : Type) where
  read (address length : Nat) : σ → Except HostError Bytes × σ
  write (address : Nat) (bytes : Bytes) : σ → Except HostError Unit × σ

/-- Accesses to pieces one behind the other, up to the first that is refused. -/
def inOrder {τ : Type} (access : Nat → Nat → τ → Except HostError Unit × τ) : List (Nat × Nat) → τ → Except HostError Unit × τ
  | [], t => (.ok (), t)
  | (address, length) :: rest, t =>
    match access address length t with
    | (.error e, t) => (.error e, t)
    | (.ok (), t) => inOrder access rest t

/-- A view of bytes after stores of single bytes, one after the other. -/
def afterStores (view : Nat → UInt8) (stores : List (Nat × UInt8)) : Nat → UInt8 :=
  stores.foldl (fun view store => Function.update view store.1 store.2) view

namespace Bus

variable {σ : Type} (bus : Bus σ)

/-- Reads a piece and puts it behind what was read before. -/
def fetch (address length : Nat) (t : σ × Bytes) : Except HostError Unit × σ × Bytes :=
  match bus.read address length t.1 with
  | (.error e, s) => (.error e, s, t.2)
  | (.ok bytes, s) => (.ok (), s, t.2 ++ bytes)

/-- Writes a piece of what is left to be written. -/
def supply (address length : Nat) (t : σ × Bytes) : Except HostError Unit × σ × Bytes :=
  match bus.write address (t.2.take length) t.1 with
  | (outcome, s) => (outcome, s, t.2.drop length)

/-- Reads pieces one behind the other. -/
def readPieces (pieces : List (Nat × Nat)) (s : σ) : Except KernelError Bytes × σ :=
  match inOrder bus.fetch pieces (s, []) with
  | (.error e, s, _) => (.error (.host e), s)
  | (.ok (), s, bytes) => (.ok bytes, s)

/-- Writes bytes over pieces one behind the other. -/
def writePieces (pieces : List (Nat × Nat)) (bytes : Bytes) (s : σ) : Except KernelError Unit × σ :=
  match inOrder bus.supply pieces (s, bytes) with
  | (.error e, s, _) => (.error (.host e), s)
  | (.ok (), s, _) => (.ok (), s)

/-- The memory has a byte at every place that it accepts: reading a range of such places gives their bytes, and writing one replaces
them, in order. -/
structure ByteExact (byteAt : σ → Nat → UInt8) (accepts : σ → Nat → Prop) : Prop where
  read : ∀ s address length, 0 < length → (∀ place ∈ List.range' address length, accepts s place) →
    bus.read address length s = (.ok ((List.range' address length).map (byteAt s)), s)
  write : ∀ s address bytes, 0 < bytes.length → (∀ place ∈ List.range' address bytes.length, accepts s place) →
    ∃ s', bus.write address bytes s = (.ok (), s') ∧
      byteAt s' = afterStores (byteAt s) ((List.range' address bytes.length).zip bytes) ∧ accepts s' = accepts s

variable {bus} {byteAt : σ → Nat → UInt8} {accepts : σ → Nat → Prop} {pieces : List (Nat × Nat)} {places : List Nat} {s : σ}

/-- Pieces that are accepted are read. -/
theorem ByteExact.inOrder_fetch (h : bus.ByteExact byteAt accepts) (hcuts : Cuts pieces places)
    (haccepts : ∀ place ∈ places, accepts s place) (before : Bytes) :
    inOrder bus.fetch pieces (s, before) = (.ok (), s, before ++ places.map (byteAt s)) := by
  obtain ⟨hpositive, rfl⟩ := hcuts
  induction pieces generalizing before with
  | nil => rw [inOrder, List.flatMap_nil, List.map_nil, List.append_nil]
  | cons piece rest ih =>
    obtain ⟨address, length⟩ := piece
    rw [List.flatMap_cons] at haccepts ⊢
    have hfirst := h.read s address length (hpositive _ List.mem_cons_self) fun place hp => haccepts place (List.mem_append_left _ hp)
    rw [inOrder, fetch, hfirst]
    dsimp only
    rw [ih _ (fun piece hp => hpositive piece (List.mem_cons_of_mem _ hp)) fun place hp => haccepts place (List.mem_append_right _ hp),
      List.map_append, List.append_assoc]

/-- Pieces that are accepted are written. -/
theorem ByteExact.inOrder_supply (h : bus.ByteExact byteAt accepts) (hcuts : Cuts pieces places)
    (haccepts : ∀ place ∈ places, accepts s place) {bytes : Bytes} (hbytes : bytes.length = places.length) :
    ∃ s', inOrder bus.supply pieces (s, bytes) = (.ok (), s', []) ∧
      byteAt s' = afterStores (byteAt s) (places.zip bytes) ∧ accepts s' = accepts s := by
  obtain ⟨hpositive, rfl⟩ := hcuts
  induction pieces generalizing s bytes with
  | nil =>
    rw [List.eq_nil_of_length_eq_zero hbytes]
    exact ⟨s, rfl, rfl, rfl⟩
  | cons piece rest ih =>
    obtain ⟨address, length⟩ := piece
    rw [List.flatMap_cons] at haccepts hbytes ⊢
    rw [List.length_append, List.length_range'] at hbytes
    have htake : (bytes.take length).length = length := by
      rw [List.length_take]
      dsimp only at hbytes
      omega
    obtain ⟨s₁, hfirst, hbyteAt₁, haccepts₁⟩ := h.write s address (bytes.take length)
      (htake.symm ▸ hpositive _ List.mem_cons_self) fun place hp => haccepts place (List.mem_append_left _ (htake ▸ hp))
    obtain ⟨s', hrest, hbyteAt, haccepts'⟩ := @ih s₁ (bytes.drop length)
      (fun piece hp => hpositive piece (List.mem_cons_of_mem _ hp))
      (fun place hp => haccepts₁ ▸ haccepts place (List.mem_append_right _ hp))
      (by rw [List.length_drop]; dsimp only at hbytes; omega)
    refine ⟨s', ?_, ?_, haccepts'.trans haccepts₁⟩
    · rw [inOrder, supply, hfirst]
      exact hrest
    · have hzip : (List.range' address length ++ rest.flatMap fun piece => List.range' piece.1 piece.2).zip bytes =
          (List.range' address length).zip (bytes.take length) ++
            (rest.flatMap fun piece => List.range' piece.1 piece.2).zip (bytes.drop length) := by
        conv_lhs => rw [← List.take_append_drop length bytes]
        exact List.zip_append (by rw [List.length_range', htake])
      rw [hbyteAt, hbyteAt₁, htake, hzip, afterStores, afterStores, afterStores, List.foldl_append]

end Bus

namespace PageList

variable {l : PageList} {offset length : Nat}

/-- Goes over a range piece by piece, and locates each piece when it gets there. `start` is where the range began. -/
def visit {τ : Type} (l : PageList) (access : Nat → Nat → τ → Except HostError Unit × τ) (start offset length : Nat) (t : τ) :
    Except KernelError Unit × τ :=
  if length = 0 then (.ok (), t)
  else
    match _h : locateInWords 0 l.runs offset with
    | .error e => (.error e, t)
    | .ok none => (.error (.invalidSize start), t)
    | .ok (some (address, contiguous)) =>
      let piece := min contiguous length
      match access address piece t with
      | (.error e, t) => (.error (.host e), t)
      | (.ok (), t) => l.visit access start (offset + piece) (length - piece) t
termination_by length
decreasing_by
  have := locateInWords_pos (Nat.zero_le _) _h
  omega

/-- Reads a range of the list through a bus. -/
def readThrough {σ : Type} (l : PageList) (bus : Bus σ) (offset length : Nat) (s : σ) : Except KernelError Bytes × σ :=
  match l.checkBounds offset length with
  | .error e => (.error e, s)
  | .ok () =>
    match l.visit bus.fetch offset offset length (s, []) with
    | (.error e, s, _) => (.error e, s)
    | (.ok (), s, bytes) => (.ok bytes, s)

/-- Writes bytes to a range of the list through a bus. -/
def writeThrough {σ : Type} (l : PageList) (bus : Bus σ) (offset : Nat) (bytes : Bytes) (s : σ) : Except KernelError Unit × σ :=
  match l.checkBounds offset bytes.length with
  | .error e => (.error e, s)
  | .ok () =>
    match l.visit bus.supply offset offset bytes.length (s, bytes) with
    | (.error e, s, _) => (.error e, s)
    | (.ok (), s, _) => (.ok (), s)

/-- The walk over a range accesses first what is located at its offset. -/
theorem visit_located {τ : Type} (access : Nat → Nat → τ → Except HostError Unit × τ) (start : Nat) (t : τ) {address contiguous : Nat}
    (h0 : length ≠ 0) (h : locateInWords 0 l.runs offset = .ok (some (address, contiguous))) :
    l.visit access start offset length t =
      match access address (min contiguous length) t with
      | (.error e, t) => (.error (.host e), t)
      | (.ok (), t) => l.visit access start (offset + min contiguous length) (length - min contiguous length) t := by
  conv_lhs => unfold visit
  rw [if_neg h0]
  split
  · next he => cases he.symm.trans h
  · next hnone => cases hnone.symm.trans h
  · next address' contiguous' hsome =>
    obtain ⟨rfl, rfl⟩ := Prod.mk.inj (Option.some.inj (Except.ok.inj (hsome.symm.trans h)))
    rfl

/-- The pieces of a range are visited in order, up to the first that is refused. -/
theorem visit_chunks {τ : Type} (hlocate : ∀ offset, locateInWords 0 l.runs offset = .ok (l.locate offset))
    {pieces : List (Nat × Nat)} (h : l.chunks offset length = .ok pieces)
    (access : Nat → Nat → τ → Except HostError Unit × τ) (start : Nat) (t : τ) :
    l.visit access start offset length t = ((inOrder access pieces t).1.mapError .host, (inOrder access pieces t).2) := by
  induction offset, length using chunks.induct l generalizing pieces t with
  | case1 offset =>
    unfold chunks at h
    rw [← Except.ok.inj h]
    unfold visit
    rfl
  | case2 offset length h0 hnone =>
    unfold chunks at h
    rw [if_neg h0] at h
    split at h
    · cases h
    · next hsome => cases hnone.symm.trans hsome
  | case3 offset length h0 address contiguous hsome piece =>
    rename_i ih
    unfold chunks at h
    rw [if_neg h0] at h
    split at h
    · next hnone => cases hnone.symm.trans hsome
    · next address' contiguous' hsome' =>
      obtain ⟨rfl, rfl⟩ := Prod.mk.inj (Option.some.inj (hsome.symm.trans hsome'))
      dsimp only at h
      cases hrest : l.chunks (offset + piece) (length - piece) with
      | error e =>
        rw [hrest] at h
        cases h
      | ok rest =>
        rw [hrest] at h
        rw [← Except.ok.inj h, visit_located access start t h0 ((hlocate offset).trans (congrArg _ hsome)), inOrder]
        rcases access address piece t with ⟨e | ⟨⟩, t⟩
        · rfl
        · exact ih hrest t

end PageList

/-! ### Host memory -/

namespace HostMemory

/-- Host memory behind a bus. -/
def bus : Bus HostMemory where
  read address length m := (m.read address length, m)
  write address bytes m :=
    match m.write address bytes with
    | .error e => (.error e, m)
    | .ok m => (.ok (), m)

/-- The bytes of a memory after bytes were put at places are its bytes after as many stores. -/
theorem byteAt_put (m : HostMemory) (places : List Nat) (bytes : Bytes) :
    (m.put places bytes).byteAt = afterStores m.byteAt (places.zip bytes) := by
  fun_induction put m places bytes with
  | case1 m place places byte bytes ih =>
    have hfirst : (m.store place byte).byteAt = Function.update m.byteAt place byte := by
      funext other
      rw [byteAt_store, Function.update_apply]
    rw [ih, hfirst]
    rfl
  | case2 places m bytes hnone =>
    cases places with
    | nil => rfl
    | cons place places =>
      cases bytes with
      | nil => rfl
      | cons byte bytes => exact absurd rfl (hnone place places byte bytes · rfl)

/-- Host memory accepts the places that lie in it. -/
theorem bus_byteExact : bus.ByteExact byteAt fun m place => place < m.size ∧ place + 1 < wordLimit where
  read m address length hpositive haccepts := by
    obtain ⟨hsize, hword⟩ := haccepts (address + (length - 1)) (List.mem_range'_1.2 (by omega))
    refine Prod.ext (read_eq_ok_iff.2 ⟨checkRange_ok (by omega) (by omega), ?_⟩) rfl
    rw [bytesFrom, List.range'_eq_map_range, List.map_map]
    rfl
  write m address bytes hpositive haccepts := by
    obtain ⟨hsize, hword⟩ := haccepts (address + (bytes.length - 1)) (List.mem_range'_1.2 (by omega))
    have hwrite := m.write_of_fits address bytes (by omega) (by omega)
    refine ⟨m.storeAll address bytes, ?_, ?_, ?_⟩
    · dsimp only [bus]
      rw [hwrite]
    · rw [storeAll_eq_put, byteAt_put]
    · funext place
      rw [size_storeAll]

/-- Reading pieces one by one reads them behind the bus, up to the first that is refused. -/
theorem readChunks_map (m : HostMemory) (pieces : List (Nat × Nat)) (before : Bytes) :
    (m.readChunks pieces).map (before ++ ·) =
      match inOrder bus.fetch pieces (m, before) with
      | (.error e, _) => .error (.host e)
      | (.ok (), _, bytes) => .ok bytes := by
  induction pieces generalizing before with
  | nil => exact congrArg _ (List.append_nil before)
  | cons piece rest ih =>
    obtain ⟨address, length⟩ := piece
    rw [readChunks, inOrder, Bus.fetch, bus]
    dsimp only
    cases hread : m.read address length with
    | error e => rfl
    | ok bytes =>
      have hrest := ih (before ++ bytes)
      rw [bus] at hrest
      rw [← hrest]
      cases m.readChunks rest with
      | error e => rfl
      | ok more => exact congrArg _ (List.append_assoc before bytes more).symm

/-- Pieces of host memory are read through its bus. -/
theorem readChunks_eq (m : HostMemory) (pieces : List (Nat × Nat)) : m.readChunks pieces = (bus.readPieces pieces m).1 := by
  have hmap := readChunks_map m pieces []
  have hsame : (m.readChunks pieces).map ([] ++ ·) = m.readChunks pieces := by cases m.readChunks pieces <;> rfl
  rw [hsame] at hmap
  rw [hmap, Bus.readPieces]
  rcases inOrder bus.fetch pieces (m, []) with ⟨e | ⟨⟩, m', bytes⟩ <;> rfl

/-- Pieces of host memory are written through its bus. -/
theorem writeChunks_eq (m : HostMemory) (pieces : List (Nat × Nat)) (bytes : Bytes) :
    m.writeChunks pieces bytes = (bus.writePieces pieces bytes m).swap := by
  rw [Bus.writePieces]
  induction pieces generalizing m bytes with
  | nil => rfl
  | cons piece rest ih =>
    obtain ⟨address, length⟩ := piece
    rw [writeChunks, inOrder, Bus.supply]
    dsimp only [bus]
    cases m.write address (bytes.take length) with
    | error e => rfl
    | ok m => exact ih m _

end HostMemory

namespace PageList

variable {l : PageList} {offset length : Nat}

/-! ## What a list answers -/

/-- A range that leaves a list of the word is refused with its end. -/
theorem checkBounds_leaving (hword : l.size < wordLimit) (h : l.size < offset + length) :
    l.checkBounds offset length = .error (.invalidSize (min (offset + length) (wordLimit - 1))) := by
  have hpositive : 0 < wordLimit := by decide
  unfold checkBounds
  split
  · rw [Nat.min_eq_right (by omega)]
  · rw [if_neg (by omega), if_neg (by omega), Nat.min_eq_left (by omega)]

/-- What a list answers is told by its sequence of pages. -/
structure Serves (l : PageList) : Prop where
  size : l.sizeInWords = .ok (l.pages.length * pageSize)
  /-- A byte is located in its page, with the bytes from there to the end of the last page that follows without a gap. -/
  locate : ∀ offset, offset < l.pages.length * pageSize → ∃ page, l.pages[offset / pageSize]? = some page ∧
    locateInWords 0 l.runs offset = .ok (some (page + offset % pageSize,
      consecutive (l.pages.drop (offset / pageSize)) * pageSize - offset % pageSize))
  miss : ∀ offset, l.pages.length * pageSize ≤ offset → locateInWords 0 l.runs offset = .ok none
  /-- A range is accessed in pieces that make up its bytes, in order, and nothing else is. -/
  access : ∀ offset length, offset + length ≤ l.pages.length * pageSize →
    ∃ pieces, Cuts pieces (slice (pageBytes l.pages) offset length) ∧ ∀ (σ : Type) (bus : Bus σ) (s : σ),
      l.readThrough bus offset length s = bus.readPieces pieces s ∧
      ∀ bytes : Bytes, bytes.length = length → l.writeThrough bus offset bytes s = bus.writePieces pieces bytes s
  /-- If its places are accepted, these are the bytes that are read and written. -/
  exact : ∀ (σ : Type) (bus : Bus σ) (byteAt : σ → Nat → UInt8) (accepts : σ → Nat → Prop), bus.ByteExact byteAt accepts →
    ∀ offset length, offset + length ≤ l.pages.length * pageSize → ∀ s : σ,
      (∀ place ∈ slice (pageBytes l.pages) offset length, accepts s place) →
      l.readThrough bus offset length s = (.ok ((slice (pageBytes l.pages) offset length).map (byteAt s)), s) ∧
      ∀ bytes : Bytes, bytes.length = length → ∃ s', l.writeThrough bus offset bytes s = (.ok (), s') ∧
        byteAt s' = afterStores (byteAt s) ((slice (pageBytes l.pages) offset length).zip bytes)
  /-- A range that leaves the list is refused without an access. -/
  leave : ∀ offset length, l.pages.length * pageSize < offset + length → ∀ (σ : Type) (bus : Bus σ) (s : σ),
    l.readThrough bus offset length s = (.error (.invalidSize (min (offset + length) (wordLimit - 1))), s) ∧
    ∀ bytes : Bytes, bytes.length = length →
      l.writeThrough bus offset bytes s = (.error (.invalidSize (min (offset + length) (wordLimit - 1))), s)
  /-- Host memory is read and written through its bus. -/
  host : ∀ (m : HostMemory) offset, (∀ length, l.read m offset length = (l.readThrough HostMemory.bus offset length m).1) ∧
    ∀ bytes, l.write m offset bytes = (l.writeThrough HostMemory.bus offset bytes m).swap

/-- In a merged list whose bytes can be counted in a word, plain sums locate what locating finds. -/
theorem Merged.locateInWords_eq (h : Merged l.runs) (hword : l.InWord) (offset : Nat) :
    locateInWords 0 l.runs offset = .ok (l.locate offset) := PageList.locateInWords_eq hword.size_lt h.places_lt offset

/-- A range inside the list is read and written piece by piece. -/
theorem Merged.access (h : Merged l.runs) (hword : l.InWord) (hrange : offset + length ≤ l.size) :
    ∃ pieces, l.chunks offset length = .ok pieces ∧ Cuts pieces (slice (pageBytes l.pages) offset length) ∧
      ∀ (σ : Type) (bus : Bus σ) (s : σ), l.readThrough bus offset length s = bus.readPieces pieces s ∧
        ∀ bytes : Bytes, bytes.length = length → l.writeThrough bus offset bytes s = bus.writePieces pieces bytes s := by
  obtain ⟨pieces, hchunks, hcuts⟩ := l.chunks_ok hrange
  rw [places_eq_pageBytes] at hcuts
  have hbounds := checkBounds_inside hword.size_lt hrange
  refine ⟨pieces, hchunks, hcuts, fun σ bus s => ⟨?_, ?_⟩⟩
  · rw [readThrough, hbounds]
    dsimp only
    rw [visit_chunks (h.locateInWords_eq hword) hchunks, Bus.readPieces]
    rcases inOrder bus.fetch pieces (s, []) with ⟨e | ⟨⟩, s, bytes⟩ <;> rfl
  · rintro bytes rfl
    rw [writeThrough, hbounds]
    dsimp only
    rw [visit_chunks (h.locateInWords_eq hword) hchunks, Bus.writePieces]
    rcases inOrder bus.supply pieces (s, bytes) with ⟨e | ⟨⟩, s, left⟩ <;> rfl

/-- A read out of bounds is refused before the bus is asked. -/
theorem readThrough_refused {σ : Type} {e : KernelError} (h : l.checkBounds offset length = .error e) (bus : Bus σ) (s : σ) :
    l.readThrough bus offset length s = (.error e, s) := by rw [readThrough, h]

/-- A write out of bounds is refused before the bus is asked. -/
theorem writeThrough_refused {σ : Type} {e : KernelError} {bytes : Bytes} (h : l.checkBounds offset bytes.length = .error e)
    (bus : Bus σ) (s : σ) : l.writeThrough bus offset bytes s = (.error e, s) := by rw [writeThrough, h]

/-- Host memory is read and written through its bus. -/
theorem Merged.host (h : Merged l.runs) (hword : l.InWord) (m : HostMemory) (offset : Nat) :
    (∀ length, l.read m offset length = (l.readThrough HostMemory.bus offset length m).1) ∧
    ∀ bytes, l.write m offset bytes = (l.writeThrough HostMemory.bus offset bytes m).swap := by
  refine ⟨fun length => ?_, fun bytes => ?_⟩
  · by_cases hrange : offset + length ≤ l.size
    · obtain ⟨pieces, hchunks, -, hpieces⟩ := h.access hword hrange
      rw [(hpieces _ _ _).1, read, checkBounds_inside hword.size_lt hrange, hchunks]
      exact HostMemory.readChunks_eq m pieces
    · obtain ⟨e, he⟩ := checkBounds_outside hrange
      rw [readThrough_refused he, read, he]
      rfl
  · by_cases hrange : offset + bytes.length ≤ l.size
    · obtain ⟨pieces, hchunks, -, hpieces⟩ := h.access hword hrange
      rw [(hpieces _ _ _).2 bytes rfl, write, checkBounds_inside hword.size_lt hrange, hchunks]
      exact HostMemory.writeChunks_eq m pieces bytes
    · obtain ⟨e, he⟩ := checkBounds_outside hrange
      rw [writeThrough_refused he, write, he]
      rfl

/-- A built list whose bytes can be counted in a word serves its sequence of pages. -/
theorem Built.serves (h : l.Built) (hword : l.InWord) : l.Serves := by
  have hmerged := h.merged
  constructor
  case size => rw [sizeInWords_eq hword.size_lt, size_eq]
  case locate =>
    intro offset hoffset
    rw [length_pages] at hoffset
    obtain ⟨page, hpage, hlocate⟩ := hmerged.locateIn_eq hoffset
    exact ⟨page, hpage, (hmerged.locateInWords_eq hword offset).trans (congrArg _ hlocate)⟩
  case miss =>
    intro offset hoffset
    rw [hmerged.locateInWords_eq hword]
    cases hlocate : l.locate offset with
    | none => rfl
    | some found =>
      obtain ⟨hinside, -⟩ := locateIn_places hlocate
      have hlength : (placesOf l.runs).length = l.pages.length * pageSize := l.length_places.trans l.size_eq
      have := locateIn_pos hlocate
      omega
  case access =>
    intro offset length hrange
    obtain ⟨pieces, -, hcuts, hpieces⟩ := hmerged.access hword (l.size_eq ▸ hrange)
    exact ⟨pieces, hcuts, hpieces⟩
  case exact =>
    intro σ bus byteAt accepts hexact offset length hrange s haccepts
    obtain ⟨pieces, -, hcuts, hpieces⟩ := hmerged.access hword (l.size_eq ▸ hrange)
    have hlength : (slice (pageBytes l.pages) offset length).length = length := by
      refine length_slice ?_
      rwa [← places_eq_pageBytes, length_places, size_eq]
    refine ⟨?_, fun bytes hbytes => ?_⟩
    · rw [(hpieces σ bus s).1, Bus.readPieces, hexact.inOrder_fetch hcuts haccepts]
      rfl
    · obtain ⟨s', hwrite, hbyteAt, -⟩ := hexact.inOrder_supply hcuts haccepts (hbytes.trans hlength.symm)
      refine ⟨s', ?_, hbyteAt⟩
      rw [(hpieces σ bus s).2 bytes hbytes, Bus.writePieces, hwrite]
  case leave =>
    intro offset length hrange σ bus s
    have hbounds := checkBounds_leaving hword.size_lt (l.size_eq ▸ hrange)
    refine ⟨readThrough_refused hbounds bus s, ?_⟩
    rintro bytes rfl
    exact writeThrough_refused hbounds bus s
  case host => exact hmerged.host hword

/-- A list that was built denotes its sequence of pages: adding and appending append to it, and as long as its bytes can be counted
in a word it tells what the list answers. -/
theorem Built.denotes (h : l.Built) : l.Appends ∧ l.Locates ∧ (l.InWord → l.Serves) := ⟨h.appends, h.locates, h.serves⟩

/-- Three runs, one of them merged from two, and a range of the list itself behind them. -/
def scattered : PageList := ⟨[⟨0x1000, 3⟩, ⟨0x8000, 1⟩, ⟨0x3000, 1⟩, ⟨0x8000, 1⟩]⟩

/-- The scattered list is built. -/
theorem scattered_built : scattered.Built := by
  have hfirst : Built ⟨[⟨0x1000, 2⟩]⟩ := .add 0x1000 2 .empty (by decide) rfl
  have hmerged : Built ⟨[⟨0x1000, 3⟩]⟩ := .add 0x3000 1 hfirst (by decide) rfl
  have hruns : Built ⟨[⟨0x1000, 3⟩, ⟨0x8000, 1⟩]⟩ := .add 0x8000 1 hmerged (by decide) rfl
  exact .extend 0x2000 0x2000 hruns hruns (by decide +kernel)

/-- A range of it goes on in the run behind the gap, and one that leaves it is refused. -/
theorem Built.denotes_scattered : scattered.Built ∧ scattered.InWord ∧
    scattered.extendInWords scattered 0x2000 0x2000 = .ok ⟨scattered.runs ++ [⟨0x3000, 1⟩, ⟨0x8000, 1⟩]⟩ ∧
    locateInWords 0 scattered.runs 0x1800 = .ok (some (0x2800, 0x1800)) ∧
    (∃ m, scattered.writeThrough HostMemory.bus 0x2fff [1, 2] (.new 0x10000) = (.ok (), m) ∧
      m.byteAt = Function.update (Function.update (HostMemory.new 0x10000).byteAt 0x3fff 1) 0x8000 2) ∧
    scattered.writeThrough HostMemory.bus 0x5fff [1, 2] (.new 0x10000) = (.error (.invalidSize 0x6001), .new 0x10000) := by
  have hword : scattered.InWord := by decide
  obtain ⟨happends, -, hserves⟩ := Built.denotes scattered_built
  have h := hserves hword
  have hplaces : slice (pageBytes scattered.pages) 0x2fff 2 = [0x3fff, 0x8000] := by decide +kernel
  refine ⟨scattered_built, hword, ?_, ?_, ?_, ?_⟩
  · exact ((happends.extend _ scattered_built hword 0x2000 0x2000 (by decide) (by decide) (by decide)).1).trans (by decide +kernel)
  · obtain ⟨page, hpage, hlocate⟩ := h.locate 0x1800 (by decide)
    obtain rfl : 0x2000 = page := Option.some.inj hpage
    exact hlocate
  · have haccepts : ∀ place ∈ slice (pageBytes scattered.pages) 0x2fff 2,
        place < (HostMemory.new 0x10000).size ∧ place + 1 < wordLimit := by
      rw [hplaces]
      decide
    obtain ⟨-, hwrite⟩ := h.exact _ _ _ _ HostMemory.bus_byteExact 0x2fff 2 (by decide) (.new 0x10000) haccepts
    obtain ⟨m, hm, hbyteAt⟩ := hwrite [1, 2] rfl
    rw [hplaces] at hbyteAt
    exact ⟨m, hm, hbyteAt⟩
  · exact (h.leave 0x5fff 2 (by decide) _ HostMemory.bus (.new 0x10000)).2 [1, 2] rfl

/-- Twice the same run, as long as a run from its address can be. -/
def vast : PageList := ⟨[⟨0x1000, 0xffffffffffffe⟩, ⟨0x1000, 0xffffffffffffe⟩]⟩

/-- Without a bound on the bytes of the list, what it answers is not told by its pages: the first page of the second run is one of
them, but plain sums leave the word before it is located, and no byte is read. -/
theorem denotes_false : vast.Built ∧ (∀ run ∈ vast.runs, pageSize ∣ run.address ∧ run.limit < wordLimit) ∧
    vast.pages[0]? = some 0x1000 ∧ vast.pages[0xffffffffffffe]? = some 0x1000 ∧
    countInWords 0 vast.runs = .ok vast.pages.length ∧ vast.sizeInWords = .error .overflow ∧
    locateInWords 0 vast.runs (0xffffffffffffe * pageSize) = .error .overflow ∧
    (∀ (σ : Type) (bus : Bus σ) (s : σ), vast.readThrough bus 0 1 s = (.error .overflow, s)) ∧ ¬ vast.Serves := by
  have hfirst : Built ⟨[⟨0x1000, 0xffffffffffffe⟩]⟩ := .add 0x1000 0xffffffffffffe .empty (by decide) (by decide)
  have hbuilt : vast.Built := .add 0x1000 0xffffffffffffe hfirst (by decide) (by decide)
  have hpages : vast.pages = (PageRun.mk 0x1000 0xffffffffffffe).toList ++ ((PageRun.mk 0x1000 0xffffffffffffe).toList ++ []) := rfl
  have hrun := PageRun.length_toList ⟨0x1000, 0xffffffffffffe⟩
  have hfirstPage : (PageRun.mk 0x1000 0xffffffffffffe).toList[0]? = some 0x1000 := by
    rw [PageRun.toList, List.getElem?_map, List.getElem?_range (by decide)]
    rfl
  have hsize : vast.sizeInWords = .error .overflow := by decide
  refine ⟨hbuilt, by decide, ?_, ?_, ?_, hsize, by decide, fun σ bus s => ?_, fun h => ?_⟩
  · rw [hpages, List.getElem?_append_left (hrun ▸ by decide), hfirstPage]
  · rw [hpages, List.getElem?_append_right (Nat.le_of_eq hrun), hrun, Nat.sub_self, List.append_nil, hfirstPage]
  · rw [length_pages]
    decide
  · exact readThrough_refused (by decide) bus s
  · cases hsize.symm.trans h.size

end PageList

end Microkernel
