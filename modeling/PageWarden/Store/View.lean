import PageWarden.Store
/-!
# The store of records — what handles find

What each operation does to the view `Store.get?`: an insertion adds one
handle that found nothing before (`get?_insert`, `get?_insert_handle`), a
change and a removal concern the record under one handle (`get?_modify`,
`get?_of_remove`). The listing `Store.entries` holds exactly what the
view finds, each handle once (`mem_entries_iff`, `pairwise_entries`), and
its length follows the operations (`size_insert`, `size_modify`,
`size_of_remove`). What is found by address is in the listing
(`get?_of_find?`), and what contains it is found (`exists_find?`).
-/

namespace PageWarden

namespace Store

@[simp] theorem get?_empty (h : Handle) : empty.get? h = none := rfl

/-- A handle finds nothing without its slot, in a vacant slot, and in
another generation. -/
theorem get?_eq_none_iff {s : Store} {h : Handle} :
    s.get? h = none ↔ ∀ r, s.slots[h.index]? ≠ some ⟨h.generation, some r⟩ := by
  simp only [ne_eq, ← get?_eq_some_iff, Option.eq_none_iff_forall_ne_some]

/-- An insertion answers the handle of a slot that is vacant or new. -/
theorem insert_cases (s : Store) (r : Record) :
    (∃ i g free, s.free = i :: free ∧ s.slots[i]? = some ⟨g, none⟩ ∧
        (s.insert r).1 = ⟨i, g⟩ ∧ (s.insert r).2.slots = s.slots.set i ⟨g, some r⟩ ∧
        (s.insert r).2.free = free) ∨
      (s.free = [] ∧ (s.insert r).1 = ⟨s.slots.length, 0⟩ ∧
        (s.insert r).2.slots = s.slots ++ [⟨0, some r⟩] ∧ (s.insert r).2.free = []) := by
  unfold insert
  split
  · rename_i i free hfree
    obtain ⟨g, hg⟩ := (s.vacancies.mem_iff i).1 (by simp [hfree])
    exact .inl ⟨i, g, free, hfree, hg, by simp [hg], by simp [hg], rfl⟩
  · rename_i hfree
    exact .inr ⟨hfree, rfl, rfl, rfl⟩

/-- The handle of an insertion found nothing before it. -/
theorem get?_insert_handle (s : Store) (r : Record) : s.get? (s.insert r).1 = none := by
  rw [get?_eq_none_iff]
  rcases insert_cases s r with ⟨i, g, _, _, hi, hh, -⟩ | ⟨_, hh, -⟩
  · simp [hh, hi]
  · simp [hh]

/-- After an insertion its handle finds the record, and every other handle
what it found before. -/
theorem get?_insert (s : Store) (r : Record) (h : Handle) :
    (s.insert r).2.get? h = if h = (s.insert r).1 then some r else s.get? h := by
  obtain ⟨index, generation⟩ := h
  rcases insert_cases s r with ⟨i, g, _, _, hi, hh, hs, -⟩ | ⟨_, hh, hs, -⟩
  · obtain ⟨hlt, hi⟩ := List.getElem?_eq_some_iff.1 hi
    by_cases hij : i = index
    · subst hij
      by_cases hg : g = generation
      · simp [get?, hh, hs, hlt, hg]
      · simp [get?, hh, hs, hlt, hi, hg, Ne.symm hg]
    · simp [get?, hh, hs, List.getElem?_set_ne hij, Ne.symm hij]
  · rcases Nat.lt_trichotomy index s.slots.length with hlt | rfl | hgt
    · simp [get?, hh, hs, List.getElem?_append_left hlt, Nat.ne_of_lt hlt]
    · by_cases hg : generation = 0
      · simp [get?, hh, hs, hg]
      · simp [get?, hh, hs, hg, Ne.symm hg]
    · have hnew : (s.slots ++ [⟨0, some r⟩])[index]? = none :=
        List.getElem?_eq_none (by simp; omega)
      have hold : s.slots[index]? = none := List.getElem?_eq_none (by omega)
      simp [get?, hh, hs, hnew, hold, Nat.ne_of_gt hgt]

/-- A change concerns the record under its handle. -/
theorem get?_modify (s : Store) (h : Handle) (f : Record → Record) (k : Handle) :
    (s.modify h f).get? k = if k = h then (s.get? h).map f else s.get? k := by
  obtain ⟨i, g⟩ := h
  obtain ⟨j, e⟩ := k
  simp only [get?, modify, List.getElem?_modify, Handle.mk.injEq]
  by_cases hij : i = j
  · subst hij
    cases s.slots[i]? with
    | none => simp
    | some slot =>
      by_cases hg : slot.generation = g
      · subst hg
        by_cases he : slot.generation = e
        · simp [Slot.change, he]
        · simp [Slot.change, he, Ne.symm he]
      · by_cases he : e = g
        · subst he
          simp [Slot.change, hg]
        · simp [Slot.change, hg, he]
  · cases s.slots[j]? <;> simp [hij, Ne.symm hij]

/-- A removal answers the record under its handle, and takes it out. -/
theorem remove_eq_some_iff {s t : Store} {h : Handle} {r : Record} :
    s.remove h = some (r, t) ↔
      s.get? h = some r ∧ t.slots = s.slots.set h.index ⟨h.generation + 1, none⟩ ∧
        t.free = h.index :: s.free := by
  obtain ⟨slots, free, vacancies⟩ := t
  unfold remove
  split
  · rename_i hs
    simp [hs]
  · rename_i q hs
    simp [hs, eq_comm]

/-- A stale handle has nothing to remove. -/
theorem remove_eq_none_iff {s : Store} {h : Handle} : s.remove h = none ↔ s.get? h = none := by
  unfold remove
  split <;> simp_all

/-- A handle that finds a record removes it. -/
theorem exists_remove_of_get? {s : Store} {h : Handle} {r : Record} (hr : s.get? h = some r) :
    ∃ t, s.remove h = some (r, t) := by
  cases hs : s.remove h with
  | none => simp [remove_eq_none_iff.1 hs] at hr
  | some e =>
    have he : some e.1 = some r := (remove_eq_some_iff.1 hs).1.symm.trans hr
    exact ⟨e.2, by rw [← Option.some.inj he]⟩

/-- After a removal its handle finds nothing, and every other handle what
it found before. -/
theorem get?_of_remove {s t : Store} {h : Handle} {r : Record} (hr : s.remove h = some (r, t))
    (k : Handle) : t.get? k = if k = h then none else s.get? k := by
  obtain ⟨hget, hslots, -⟩ := remove_eq_some_iff.1 hr
  obtain ⟨hlt, hi⟩ := List.getElem?_eq_some_iff.1 (get?_eq_some_iff.1 hget)
  obtain ⟨i, g⟩ := h
  obtain ⟨j, e⟩ := k
  simp only at hlt hi hslots
  by_cases hij : i = j
  · subst hij
    by_cases hg : e = g
    · simp [get?, hslots, hlt, hg]
    · simp [get?, hslots, hlt, hi, hg, Ne.symm hg]
  · simp [get?, hslots, List.getElem?_set_ne hij, Ne.symm hij]

/-! ## The listing -/

/-- The listing holds what handles find. -/
theorem mem_entries_iff {s : Store} {h : Handle} {r : Record} :
    (h, r) ∈ s.entries ↔ s.get? h = some r := by
  obtain ⟨i, g⟩ := h
  simp only [entries, List.mem_filterMap, Prod.exists, List.mem_zipIdx_iff_getElem?,
    Option.map_eq_some_iff, Prod.mk.injEq, Handle.mk.injEq, get?_eq_some_iff]
  constructor
  · rintro ⟨⟨g', record⟩, j, hj, r', hr, ⟨rfl, rfl⟩, rfl⟩
    simp only at hj hr
    rw [hj, hr]
  · intro h
    exact ⟨⟨g, some r⟩, i, h, r, rfl, ⟨rfl, rfl⟩, rfl⟩

/-- The listing ascends by slot, so it names no slot twice. -/
theorem pairwise_entries (s : Store) :
    s.entries.Pairwise fun a b => a.1.index < b.1.index := by
  rw [entries, List.pairwise_filterMap, List.pairwise_iff_getElem]
  intro i j hi hj hij a ha b hb
  simp only [List.getElem_zipIdx, Option.map_eq_some_iff] at ha hb
  obtain ⟨_, _, rfl⟩ := ha
  obtain ⟨_, _, rfl⟩ := hb
  simpa using hij

/-- Stores in which handles find the same have the same size. -/
theorem size_congr {s t : Store} (h : s.get? = t.get?) : s.size = t.size := by
  have hnodup : ∀ u : Store, u.entries.Nodup := fun u => u.pairwise_entries.imp fun hlt heq => by
    rw [heq] at hlt
    exact Nat.lt_irrefl _ hlt
  refine ((List.perm_ext_iff_of_nodup (hnodup s) (hnodup t)).2 fun ⟨k, r⟩ => ?_).length_eq
  rw [mem_entries_iff, mem_entries_iff, h]

/-- A record is one of the store's when some handle finds it. -/
theorem mem_records_iff {s : Store} {r : Record} :
    r ∈ s.records ↔ ∃ h, s.get? h = some r := by
  simp [records, ← mem_entries_iff]

/-- The size counts the slots with a record. -/
theorem size_eq_countP (s : Store) : s.size = s.slots.countP fun slot => slot.record.isSome := by
  rw [size, entries, List.length_filterMap_eq_countP]
  conv => rhs; rw [← List.zipIdx_map_fst 0 s.slots, List.countP_map]
  congr 1
  funext e
  simp

/-- An insertion adds one record. -/
theorem size_insert (s : Store) (r : Record) : (s.insert r).2.size = s.size + 1 := by
  rw [size_eq_countP, size_eq_countP]
  rcases insert_cases s r with ⟨i, g, _, _, hi, _, hs, -⟩ | ⟨_, _, hs, -⟩
  · obtain ⟨hlt, hi⟩ := List.getElem?_eq_some_iff.1 hi
    simp [hs, List.countP_set hlt, hi]
  · simp [hs]

/-- A change adds and removes nothing. -/
@[simp] theorem size_modify (s : Store) (h : Handle) (f : Record → Record) :
    (s.modify h f).size = s.size := by
  have hchange : ∀ (l : List Slot) (i : Nat),
      (l.modify i (Slot.change h.generation f)).countP (fun slot => slot.record.isSome) =
        l.countP fun slot => slot.record.isSome := by
    intro l
    induction l with
    | nil => simp
    | cons slot rest ih =>
      intro i
      have hslot : (slot.change h.generation f).record.isSome = slot.record.isSome := by
        simpa [← Option.not_isSome] using slot.isNone_change h.generation f
      cases i with
      | zero => simp [List.countP_cons, hslot]
      | succ i => simp [List.countP_cons, ih]
  rw [size_eq_countP, size_eq_countP]
  exact hchange s.slots h.index

/-- A removal takes one record away. -/
theorem size_of_remove {s t : Store} {h : Handle} {r : Record} (hr : s.remove h = some (r, t)) :
    s.size = t.size + 1 := by
  obtain ⟨hget, hslots, -⟩ := remove_eq_some_iff.1 hr
  obtain ⟨hlt, hi⟩ := List.getElem?_eq_some_iff.1 (get?_eq_some_iff.1 hget)
  have hpos : 0 < s.slots.countP fun slot => slot.record.isSome :=
    List.countP_pos_iff.2 ⟨_, List.getElem_mem hlt, by simp [hi]⟩
  rw [size_eq_countP, size_eq_countP]
  simp only [hslots, List.countP_set hlt, hi]
  simp
  omega

/-! ## Finding by address -/

section Find

variable {s : Store} {h : Handle} {r : Record} {address : Nat}

/-- The record that is found contains the address. -/
theorem get?_of_find? (hf : s.find? address = some h) :
    ∃ r, s.get? h = some r ∧ r.contains address = true := by
  obtain ⟨⟨k, r⟩, he, rfl⟩ := Option.map_eq_some_iff.1 hf
  have hcontains := List.find?_some he
  exact ⟨r, mem_entries_iff.1 (List.mem_of_find?_eq_some he), hcontains⟩

/-- What is contained in a record is found, in one record or another. -/
theorem exists_find? (hr : s.get? h = some r) (hc : r.contains address = true) :
    ∃ k, s.find? address = some k := by
  have hfound : (s.entries.find? fun e => e.2.contains address).isSome = true :=
    List.find?_isSome.2 ⟨(h, r), mem_entries_iff.2 hr, hc⟩
  obtain ⟨e, he⟩ := Option.isSome_iff_exists.1 hfound
  exact ⟨e.1, congrArg (Option.map Prod.fst) he⟩

/-- A slot holds one record, so no two handles that find something share one. -/
theorem eq_of_index_eq {k : Handle} {q : Record} (hr : s.get? h = some r)
    (hq : s.get? k = some q) (hi : h.index = k.index) : h = k := by
  have hslot := get?_eq_some_iff.1 hr
  rw [hi, get?_eq_some_iff.1 hq] at hslot
  obtain ⟨i, g⟩ := h
  obtain ⟨j, e⟩ := k
  cases hi
  cases hslot
  rfl

end Find

end Store

end PageWarden
