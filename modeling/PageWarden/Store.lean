import PageWarden.Record
/-!
# The store of records

Records live in the slots of an arena. A handle names a slot and the
generation the slot had when the record was put there; taking the record
out starts the next generation, so a handle kept too long finds nothing,
however often its slot is used again. Vacant slots are reused last freed
first. Emptying the store drops the slots, and handles start over.

That the list of free slots names the vacant ones, each once, is part of
the type (`Vacancies`), so putting a record in never drops another.

The view of a store is `Store.get?`, and `Store.entries` lists it by
ascending slot.
-/

namespace PageWarden

/-- The identity of a record for as long as it is in the store. -/
structure Handle where
  index : Nat
  generation : Nat
deriving DecidableEq, Repr

/-- A place for one record. -/
structure Slot where
  /-- How many records have been taken out of the slot. -/
  generation : Nat
  record : Option Record
deriving DecidableEq, Repr

/-- The list `free` names every vacant slot once, and nothing else. -/
structure Vacancies (slots : List Slot) (free : List Nat) : Prop where
  nodup : free.Nodup
  mem_iff : ∀ i, i ∈ free ↔ ∃ g, slots[i]? = some ⟨g, none⟩

namespace Vacancies

variable {slots : List Slot} {free : List Nat}

/-- No slots, no vacancies. -/
protected theorem empty : Vacancies [] [] := ⟨List.nodup_nil, by simp⟩

/-- The first vacancy is filled. -/
theorem occupy {i : Nat} (v : Vacancies slots (i :: free)) (g : Nat) (r : Record) :
    Vacancies (slots.set i ⟨g, some r⟩) free := by
  obtain ⟨hi, hfree⟩ := List.nodup_cons.1 v.nodup
  refine ⟨hfree, fun j => ?_⟩
  by_cases hij : i = j
  · subst hij
    simp [List.getElem?_set, hi]
  · rw [List.getElem?_set_ne hij, ← v.mem_iff j]
    simp [Ne.symm hij]

/-- Without vacancies a slot is added. -/
theorem extend (v : Vacancies slots []) (g : Nat) (r : Record) :
    Vacancies (slots ++ [⟨g, some r⟩]) [] := by
  refine ⟨List.nodup_nil, fun j => ⟨fun h => absurd h List.not_mem_nil, ?_⟩⟩
  rintro ⟨k, hk⟩
  rcases Nat.lt_trichotomy j slots.length with hj | rfl | hj
  · rw [List.getElem?_append_left hj] at hk
    exact (v.mem_iff j).2 ⟨k, hk⟩
  · simp at hk
  · rw [List.getElem?_eq_none (by simp; omega)] at hk
    exact absurd hk (by simp)

/-- A change that leaves records where they are moves no vacancy. -/
theorem change (v : Vacancies slots free) (i : Nat) {f : Slot → Slot}
    (hf : ∀ s, (f s).record.isNone = s.record.isNone) : Vacancies (slots.modify i f) free := by
  refine ⟨v.nodup, fun j => (v.mem_iff j).trans ?_⟩
  rw [List.getElem?_modify]
  cases hj : slots[j]? with
  | none => simp
  | some s =>
    have hs := hf s
    by_cases hij : i = j
    · obtain ⟨g, record⟩ := s
      cases hfs : f ⟨g, record⟩ with
      | mk g' record' =>
        rw [hfs] at hs
        cases record <;> cases record' <;> simp_all
    · simp [hij]

/-- A record that is taken out leaves a vacancy. -/
theorem vacate (v : Vacancies slots free) {i g : Nat} {r : Record}
    (hi : slots[i]? = some ⟨g, some r⟩) (g' : Nat) :
    Vacancies (slots.set i ⟨g', none⟩) (i :: free) := by
  have hlt : i < slots.length := (List.getElem?_eq_some_iff.1 hi).1
  refine ⟨List.nodup_cons.2 ⟨fun h => ?_, v.nodup⟩, fun j => ?_⟩
  · obtain ⟨k, hk⟩ := (v.mem_iff i).1 h
    simp [hi] at hk
  · by_cases hij : i = j
    · subst hij
      simp [hlt]
    · rw [List.getElem?_set_ne hij, ← v.mem_iff j]
      simp [Ne.symm hij]

end Vacancies

/-- The set of tracked mappings. -/
structure Store where
  slots : List Slot := []
  /-- The vacant slots, the last freed first. -/
  free : List Nat := []
  vacancies : Vacancies slots free := by exact .empty
deriving DecidableEq, Repr

namespace Slot

/-- The slot with its record changed, if it is still in that generation. -/
def change (generation : Nat) (f : Record → Record) (s : Slot) : Slot :=
  if s.generation = generation then { s with record := s.record.map f } else s

/-- A changed record is still there. -/
theorem isNone_change (generation : Nat) (f : Record → Record) (s : Slot) :
    (s.change generation f).record.isNone = s.record.isNone := by
  unfold change
  split <;> simp

end Slot

namespace Store

/-- The store without any record. -/
def empty : Store := {}

/-- Puts a record into the last freed slot, or into a new one. -/
def insert (s : Store) (r : Record) : Handle × Store :=
  match h : s.free with
  | index :: free =>
    let generation := (s.slots[index]?.map Slot.generation).getD 0
    (⟨index, generation⟩,
      { slots := s.slots.set index ⟨generation, some r⟩
        free
        vacancies := (h ▸ s.vacancies).occupy generation r })
  | [] =>
    (⟨s.slots.length, 0⟩,
      { slots := s.slots ++ [⟨0, some r⟩], vacancies := (h ▸ s.vacancies).extend 0 r })

/-- The record under a handle, unless the handle is stale. -/
def get? (s : Store) (h : Handle) : Option Record :=
  match s.slots[h.index]? with
  | some slot => if slot.generation = h.generation then slot.record else none
  | none => none

/-- A handle finds the record of its slot in its generation. -/
theorem get?_eq_some_iff {s : Store} {h : Handle} {r : Record} :
    s.get? h = some r ↔ s.slots[h.index]? = some ⟨h.generation, some r⟩ := by
  unfold get?
  cases s.slots[h.index]? with
  | none => simp
  | some slot =>
    obtain ⟨g, record⟩ := slot
    by_cases hg : g = h.generation <;> simp [hg]

/-- Changes the record under a handle; a stale handle changes nothing. -/
def modify (s : Store) (h : Handle) (f : Record → Record) : Store where
  slots := s.slots.modify h.index (Slot.change h.generation f)
  free := s.free
  vacancies := s.vacancies.change h.index (Slot.isNone_change h.generation f)

/-- Takes the record under a handle out of the store. -/
def remove (s : Store) (h : Handle) : Option (Record × Store) :=
  match hr : s.get? h with
  | none => none
  | some r =>
    some (r,
      { slots := s.slots.set h.index ⟨h.generation + 1, none⟩
        free := h.index :: s.free
        vacancies := s.vacancies.vacate (get?_eq_some_iff.1 hr) (h.generation + 1) })

/-- The records with their handles, by ascending slot. -/
def entries (s : Store) : List (Handle × Record) :=
  s.slots.zipIdx.filterMap fun (slot, index) =>
    slot.record.map fun r => (⟨index, slot.generation⟩, r)

/-- The records, by ascending slot. -/
def records (s : Store) : List Record := s.entries.map Prod.snd

/-- How many records the store holds, counted from its entries. The program
keeps a counter instead, which goes up and down as records come and go:
`Chronicle.count` follows it step by step, and is proved to be this number
whatever is done with a store. -/
def size (s : Store) : Nat := s.entries.length

/-- Whether the store holds no record. -/
def isEmpty (s : Store) : Bool := s.size == 0

/-- The first record that contains `address`. -/
def find? (s : Store) (address : Nat) : Option Handle :=
  (s.entries.find? fun e => e.2.contains address).map Prod.fst

/-- A copy of the first record that contains `address`. -/
def lookup (s : Store) (address : Nat) : Option Record := (s.find? address).bind s.get?

/-- The handles of the records whose whole pages meet `[start, stop)`. -/
def overlapping (s : Store) (start stop size : Nat) : List Handle :=
  (s.entries.filter fun e => e.2.base < stop && start < e.2.stop size).map Prod.fst

/-- The overlapping records, where asking a record that begins below
`stop` for its end needs pages of that size to exist. -/
def overlapping? (s : Store) (start stop size : Nat) : Option (List Handle) :=
  if size = 0 && s.records.any (fun r => r.base < stop) then none
  else some (s.overlapping start stop size)

/-- The handles of the records with a guard page in `[start, stop)`. -/
def guardedWithin (s : Store) (start stop : Nat) : List Handle :=
  (s.entries.filter fun e =>
    Record.guardWithin e.2.guardBelow start stop ||
      Record.guardWithin e.2.guardAbove start stop).map Prod.fst

/-- Every record in slot order, and the store emptied of them. -/
def clear (s : Store) : List Record × Store := (s.records, empty)

end Store

end PageWarden
