import Microkernel.Text.Hex

/-!
# Handles and their tables
-/

namespace Microkernel

/-!
## Handles

A handle is a word that names an object in one process's handle table. It packs the index of a slot (15 bits) with the linear id
(15 bits) that the table gave to the binding. Two values above that range name the calling process and thread.
-/

/-- A handle value. -/
structure Handle where
  raw : UInt32
  deriving DecidableEq, Repr, Inhabited

namespace Handle

/-- Names nothing. -/
def invalid : Handle := ⟨0⟩

/-- Names the calling process. -/
def currentProcess : Handle := ⟨0xFFFF8001⟩

/-- Names the calling thread. -/
def currentThread : Handle := ⟨0xFFFF8000⟩

def isPseudo (h : Handle) : Bool := h = currentProcess || h = currentThread

/-- The number of values a slot index can take. -/
def indexRange : Nat := 0x8000

/-- The number of values a linear id can take. -/
def linearIdRange : Nat := 0x8000

/-- The slot that the handle points to. -/
def index (h : Handle) : Nat := h.raw.toNat % indexRange

/-- The linear id that the handle carries. -/
def linearId (h : Handle) : Nat := h.raw.toNat / indexRange % linearIdRange

/-- The handle of a slot under a linear id. -/
def compose (linearId index : Nat) : Handle := ⟨UInt32.ofNat (linearId * indexRange + index)⟩

/-- A value that a table can have issued: below the two spare bits, not zero and no pseudo-handle. -/
def isIssuable (h : Handle) : Bool := !h.isPseudo && h ≠ invalid && h.raw.toNat < linearIdRange * indexRange

end Handle

/-- Why a handle table refuses. -/
inductive HandleError
  /-- All of `capacity` slots are taken. -/
  | outOfHandles (capacity : Nat)
  /-- The handle names nothing in this table. -/
  | invalidHandle (handle : Handle)
  deriving DecidableEq, Repr

def HandleError.message : HandleError → String
  | outOfHandles capacity => s!"handle table full ({capacity} entries)"
  | invalidHandle handle => s!"invalid handle {Text.hex handle.raw.toNat}"

/-!
## Handle tables

A table binds handles to objects. Freed slots are taken again last-in first-out, and every binding gets the next linear id, so a
slot that is taken again is named by another handle. `HandleTable.bindings` is the view of a table: its live bindings in slot order.
-/

/-- The most entries a table can have. -/
def HandleTable.maxCapacity : Nat := Handle.indexRange

/-- The largest linear id; the next one after it is one. -/
def HandleTable.maxLinearId : Nat := Handle.linearIdRange - 1

/-- What a taken slot holds. -/
structure HandleTable.Entry (α : Type) where
  linearId : Nat
  object : α
  deriving Repr

/-- A table of handles. -/
structure HandleTable (α : Type) where
  slots : Array (Option (HandleTable.Entry α)) := #[]
  /-- The freed slots, the last freed first. -/
  free : List Nat := []
  capacity : Nat
  nextLinearId : Nat := 1
  count : Nat := 0
  deriving Repr

namespace HandleTable

variable {α : Type}

instance : Inhabited (HandleTable α) := ⟨{ capacity := 1 }⟩

/-- An empty table of the capacity asked for, at least one and at most `maxCapacity`. -/
def new (capacity : Nat) : HandleTable α := { capacity := max 1 (min capacity maxCapacity) }

/-- The linear id after `id`. -/
def succLinearId (id : Nat) : Nat := if maxLinearId ≤ id then 1 else id + 1

/-- The entry that a handle points to, if the slot is taken. -/
def entry? (t : HandleTable α) (h : Handle) : Option (Entry α) := (t.slots[h.index]?).join

/-- The object that a handle names. -/
def resolve (t : HandleTable α) (h : Handle) : Option α :=
  if h.isIssuable then
    match t.entry? h with
    | some entry => if entry.linearId = h.linearId then some entry.object else none
    | none => none
  else none

def contains (t : HandleTable α) (h : Handle) : Bool := (t.resolve h).isSome

/-- Binds an object to a fresh handle. -/
def generate (t : HandleTable α) (object : α) : Except HandleError (Handle × HandleTable α) :=
  match t with
  | { slots, free, capacity, nextLinearId, count } =>
    if capacity ≤ count then .error (.outOfHandles capacity)
    else
      let entry := some { linearId := nextLinearId, object }
      match free with
      | index :: free =>
        .ok (.compose nextLinearId index,
          { slots := slots.set! index entry, free, capacity, nextLinearId := succLinearId nextLinearId, count := count + 1 })
      | [] =>
        .ok (.compose nextLinearId slots.size,
          { slots := slots.push entry, free := [], capacity, nextLinearId := succLinearId nextLinearId, count := count + 1 })

/-- Removes a binding; answers with the object it held. -/
def close (t : HandleTable α) (h : Handle) : Except HandleError (α × HandleTable α) :=
  match t.resolve h with
  | none => .error (.invalidHandle h)
  | some object =>
    match t with
    | { slots, free, capacity, nextLinearId, count } =>
      .ok (object, { slots := slots.set! h.index none, free := h.index :: free, capacity, nextLinearId, count := count - 1 })

/-- The live bindings, in slot order. -/
def bindings (t : HandleTable α) : List (Handle × α) :=
  t.slots.toList.zipIdx.filterMap fun (slot, index) => slot.map fun entry => (Handle.compose entry.linearId index, entry.object)

/-- Removes every binding; the linear ids go on from where they are. -/
def drain (t : HandleTable α) : List (Handle × α) × HandleTable α :=
  (t.bindings, { t with slots := #[], free := [], count := 0 })

/-- The objects bound, once for each binding. -/
def objects (t : HandleTable α) : List α := t.bindings.map (·.2)

/-! ### Invariants that can be checked on a running table -/

/-- A broken invariant and how it is broken. -/
structure Violation where
  invariant : String
  description : String
  deriving DecidableEq, Repr

/-- The number of values in an ascending list that repeat the value before them. -/
def repeats : List Nat → Nat
  | a :: b :: rest => (if a = b then 1 else 0) + repeats (b :: rest)
  | _ => 0

/-- The invariants that the table breaks: its count is right and within the capacity, its handles differ, and each of them
resolves. -/
def violations (t : HandleTable α) : List Violation :=
  let live := t.bindings.map (·.1)
  let duplicates := repeats ((live.map (·.raw.toNat)).mergeSort (· ≤ ·))
  (if live.length ≠ t.count ∨ t.capacity < t.count then
    [⟨"bounded_table", s!"{live.length} live bindings, count {t.count}, capacity {t.capacity}"⟩] else [])
  ++ (if 0 < duplicates then [⟨"unique_handles", s!"{duplicates} duplicate handle values"⟩] else [])
  ++ (live.filter fun h => !t.contains h).map fun h =>
    ⟨"resolvable", s!"handle {Text.hex h.raw.toNat} does not resolve"⟩

end HandleTable

end Microkernel
