import Mathlib.Data.List.Basic
import PageWarden.Store.View
/-!
# The chronicle of a store — what its handles stand for

A store is a finite map that makes up its own keys. Beside a store its
chronicle is kept (`Chronicle`): which handles it gave out and for which
record, which changes and removals were asked of it under which handle,
all since it was last cleared, and a count that goes up with every
insertion and down with every removal that finds something.

Whatever is done with a store, in whatever order and with whatever
handles, its chronicle says what it holds (`faithful_run`). One number for
each slot carries the proof, that of the handles given out for it
(`Store.issues`): a handle has been given out exactly if its generation
is below that number, and only an insertion raises it.
-/

namespace PageWarden

/-! ## Handles given out -/

/-- How many handles of a slot have been given out: one for each record that
was taken out of it, and one for the record in it. -/
def Slot.issues (slot : Slot) : Nat := slot.generation + slot.record.toList.length

@[simp] theorem Slot.issues_change (generation : Nat) (f : Record → Record) (slot : Slot) :
    (slot.change generation f).issues = slot.issues := by
  obtain ⟨g, record⟩ := slot
  unfold change
  split
  · cases record <;> rfl
  · rfl

namespace Store

variable {s t : Store} {h : Handle} {r : Record} {i : Nat}

/-- How many handles have been given out for the slot at a place. -/
def issues (s : Store) (i : Nat) : Nat := (s.slots[i]?.map Slot.issues).getD 0

/-- The handle of a record is the last one of its slot. -/
theorem issues_of_get? (hr : s.get? h = some r) : s.issues h.index = h.generation + 1 := by
  rw [issues, get?_eq_some_iff.1 hr]
  rfl

/-- The handles of a slot that find nothing any more are those of the
generations before its own. -/
theorem lt_generation_iff {slot : Slot} (hi : s.slots[h.index]? = some slot) :
    h.generation < slot.generation ↔
      h.generation < s.issues h.index ∧ (s.get? h).isNone = true := by
  obtain ⟨g, record⟩ := slot
  cases record with
  | none => simp [issues, Slot.issues, get?, hi]
  | some r =>
    have hget : (s.get? h).isNone = true ↔ g ≠ h.generation := by simp [get?, hi]
    have hissues : s.issues h.index = g + 1 := by simp [issues, Slot.issues, hi]
    rw [hget, hissues]
    show h.generation < g ↔ _
    omega

/-- The handle of an insertion is the next one of its slot. -/
theorem generation_insert (s : Store) (r : Record) :
    (s.insert r).1.generation = s.issues (s.insert r).1.index := by
  rcases insert_cases s r with ⟨i, g, _, _, hi, hh, -⟩ | ⟨_, hh, -⟩
  · simp [issues, Slot.issues, hh, hi]
  · simp [issues, hh]

/-- An insertion gives out one handle. -/
theorem issues_insert (s : Store) (r : Record) (i : Nat) :
    (s.insert r).2.issues i = s.issues i + if i = (s.insert r).1.index then 1 else 0 := by
  rcases insert_cases s r with ⟨j, g, _, _, hc, hh, hs, -⟩ | ⟨_, hh, hs, -⟩
  · obtain ⟨hlt, hget⟩ := List.getElem?_eq_some_iff.1 hc
    by_cases hij : j = i
    · subst hij
      simp [issues, Slot.issues, hh, hs, hlt, hget]
    · simp [issues, hh, hs, List.getElem?_set_ne hij, Ne.symm hij]
  · rcases Nat.lt_trichotomy i s.slots.length with hlt | rfl | hgt
    · simp [issues, hh, hs, List.getElem?_append_left hlt, Nat.ne_of_lt hlt]
    · simp [issues, Slot.issues, hh, hs]
    · have hnew : (s.slots ++ [⟨0, some r⟩])[i]? = none :=
        List.getElem?_eq_none (by simp; omega)
      have hold : s.slots[i]? = none := List.getElem?_eq_none (by omega)
      simp [issues, hh, hs, hnew, hold, Nat.ne_of_gt hgt]

/-- A change gives out none. -/
@[simp] theorem issues_modify (s : Store) (h : Handle) (f : Record → Record) (i : Nat) :
    (s.modify h f).issues i = s.issues i := by
  simp only [issues, modify, List.getElem?_modify]
  cases s.slots[i]? with
  | none => rfl
  | some slot =>
    by_cases hi : h.index = i
    · simp [hi]
    · simp [hi]

/-- A removal gives out none: the record it takes out is counted from now on
by the generation of the slot. -/
theorem issues_of_remove (hr : s.remove h = some (r, t)) (i : Nat) :
    t.issues i = s.issues i := by
  obtain ⟨hget, hslots, -⟩ := remove_eq_some_iff.1 hr
  obtain ⟨hlt, hi⟩ := List.getElem?_eq_some_iff.1 (get?_eq_some_iff.1 hget)
  by_cases hij : h.index = i
  · subst hij
    simp [issues, Slot.issues, hslots, hlt, hi]
  · simp only [issues, hslots, List.getElem?_set_ne hij]

/-- A stale handle changes nothing at all. -/
theorem modify_of_get?_eq_none (hr : s.get? h = none) (f : Record → Record) :
    s.modify h f = s := by
  obtain ⟨slots, free, vacancies⟩ := s
  have hslots : slots.modify h.index (Slot.change h.generation f) = slots := by
    refine List.ext_getElem? fun i => ?_
    rw [List.getElem?_modify]
    cases hi : slots[i]? with
    | none => rfl
    | some slot =>
      obtain ⟨g, record⟩ := slot
      by_cases hij : h.index = i
      · by_cases hg : g = h.generation
        · subst hij hg
          cases record with
          | none => simp [Slot.change]
          | some q => exact absurd hi (get?_eq_none_iff.1 hr q)
        · simp [Slot.change, hg]
      · simp [hij]
  simp only [modify, hslots]

/-- What is found by address is found first: no slot before it holds a record
with the address. -/
theorem find?_eq_some_iff_first {address : Nat} :
    s.find? address = some h ↔ ∃ r, s.get? h = some r ∧ r.contains address = true ∧
      ∀ k q, s.get? k = some q → q.contains address = true → h.index ≤ k.index := by
  have hfirst : ∀ {k : Handle}, s.find? address = some k → ∃ r, s.get? k = some r ∧
      r.contains address = true ∧
      ∀ l q, s.get? l = some q → q.contains address = true → k.index ≤ l.index := by
    intro k hk
    obtain ⟨⟨l, r⟩, he, hl⟩ := Option.map_eq_some_iff.1 hk
    obtain rfl : l = k := hl
    obtain ⟨hcontains, before, after, hsplit, hbefore⟩ := List.find?_eq_some_iff_append.1 he
    have hmem : (l, r) ∈ s.entries := List.mem_of_find?_eq_some he
    refine ⟨r, mem_entries_iff.1 hmem, hcontains, fun k q hk hq => ?_⟩
    have hsorted := s.pairwise_entries
    have hlater := mem_entries_iff.2 hk
    rw [hsplit] at hsorted hlater
    rcases List.mem_append.1 hlater with hlater | hlater
    · have hno := hbefore _ hlater
      simp only [hq] at hno
      cases hno
    · rcases List.mem_cons.1 hlater with hlater | hlater
      · cases hlater
        exact Nat.le_refl _
      · exact Nat.le_of_lt ((List.pairwise_cons.1 (List.pairwise_append.1 hsorted).2.1).1 _ hlater)
  refine ⟨hfirst, ?_⟩
  rintro ⟨r, hr, hcontains, hleast⟩
  obtain ⟨k, hk⟩ := exists_find? hr hcontains
  obtain ⟨q, hq, hqcontains, hkleast⟩ := hfirst hk
  rw [hk, eq_of_index_eq hq hr
    (Nat.le_antisymm (hkleast h r hr hcontains) (hleast k q hq hqcontains))]

/-- Nothing is found by address if no record has the address. -/
theorem find?_eq_none_iff {address : Nat} :
    s.find? address = none ↔ ∀ h r, s.get? h = some r → r.contains address = false := by
  simp [find?, ← mem_entries_iff]

/-- A removal answers what its handle finds. -/
theorem map_fst_remove (s : Store) (h : Handle) : (s.remove h).map Prod.fst = s.get? h := by
  cases hr : s.remove h with
  | none => exact (remove_eq_none_iff.1 hr).symm
  | some taken => exact (remove_eq_some_iff.1 hr).1.symm

/-- The records are those of the slots, in order. -/
theorem records_eq_filterMap (s : Store) : s.records = s.slots.filterMap Slot.record := by
  rw [records, entries, List.map_filterMap]
  conv => rhs; rw [← List.zipIdx_map_fst 0 s.slots, List.filterMap_map]
  congr 1
  funext e
  simp [Function.comp_def]

end Store

/-! ## The chronicle -/

/-- What happens to a store, from the side of its user. -/
inductive Happening
  | issued (h : Handle) (r : Record)
  | edited (h : Handle) (f : Record → Record)
  | removed (h : Handle)

namespace Happening

/-- The handle that is given out. -/
def handle? : Happening → Option Handle
  | issued h _ => some h
  | edited _ _ => none
  | removed _ => none

/-- What becomes of a record under a handle. -/
def edit (h : Handle) : Happening → Record → Record
  | issued _ _, r => r
  | edited k f, r => if k = h then f r else r
  | removed _, r => r

end Happening

/-- A store, what has happened to it since it was last cleared, the latest
first, and a count of its records. -/
structure Chronicle where
  store : Store := .empty
  happenings : List Happening := []
  count : Nat := 0

namespace Chronicle

/-- What is done with a store. -/
inductive Use
  | insert (r : Record)
  | edit (h : Handle) (f : Record → Record)
  | remove (h : Handle)
  | clear

/-- One use of the store, written down. -/
def use (c : Chronicle) : Use → Chronicle
  | .insert r =>
    { store := (c.store.insert r).2
      happenings := .issued (c.store.insert r).1 r :: c.happenings
      count := c.count + 1 }
  | .edit h f => { c with store := c.store.modify h f, happenings := .edited h f :: c.happenings }
  | .remove h =>
    match c.store.remove h with
    | some (_, rest) =>
      { store := rest, happenings := .removed h :: c.happenings, count := c.count - 1 }
    | none => { c with happenings := .removed h :: c.happenings }
  | .clear => { store := c.store.clear.2 }

/-- All uses of a store from its beginning. -/
def run (uses : List Use) : Chronicle := uses.foldl use {}

/-- The handles that have been given out. -/
def handles (happenings : List Happening) : List Handle := happenings.filterMap Happening.handle?

/-- **What a handle stands for**: the record it was given out for, with the
changes made through it since, as long as it has not been removed. -/
def Stands (happenings : List Happening) (h : Handle) (q : Record) : Prop :=
  ∃ after r before, happenings = after ++ .issued h r :: before ∧ .removed h ∉ after ∧
    q = after.foldr (Happening.edit h) r

/-- How many records have been taken out of a slot: its handles that find
nothing any more. -/
def removals (c : Chronicle) (i : Nat) : Nat :=
  ((handles c.happenings).filter fun h => h.index = i ∧ (c.store.get? h).isNone).length

/-- **The store is the map that its chronicle describes.** -/
structure Faithful (c : Chronicle) : Prop where
  /-- A handle finds what it stands for. -/
  finds : ∀ h q, c.store.get? h = some q ↔ Stands c.happenings h q
  /-- A removed handle finds, changes and removes nothing. -/
  stale : ∀ h after r before, c.happenings = after ++ .issued h r :: before → .removed h ∈ after →
    c.store.get? h = none ∧ (∀ f, c.store.modify h f = c.store) ∧ c.store.remove h = none
  /-- A removal hands out what the handle finds. -/
  taken : ∀ h, (c.store.remove h).map Prod.fst = c.store.get? h
  /-- No handle is given out twice. -/
  distinct : (handles c.happenings).Nodup
  /-- The next handle is a new one, and no record is lost to it. -/
  fresh : ∀ r, (c.store.insert r).1 ∉ handles c.happenings ∧
    c.store.get? (c.store.insert r).1 = none ∧
    ∀ h, (c.store.insert r).2.get? h =
      if h = (c.store.insert r).1 then some r else c.store.get? h
  /-- The count is the size, and that of the handles that find a record. -/
  counted : c.count = c.store.size ∧
    c.store.size = ((handles c.happenings).filter fun h => (c.store.get? h).isSome).length
  /-- The free list names the vacant slots, each once. -/
  vacant : c.store.free.Nodup ∧ ∀ i, i ∈ c.store.free ↔ ∃ g, c.store.slots[i]? = some ⟨g, none⟩
  /-- The listing is of what handles find, by ascending slot, each slot once. -/
  listed : (∀ h r, (h, r) ∈ c.store.entries ↔ c.store.get? h = some r) ∧
    c.store.entries.Pairwise fun a b => a.1.index < b.1.index
  /-- Of the records with an address the first is found. -/
  first : ∀ a h, c.store.find? a = some h ↔ ∃ r, c.store.get? h = some r ∧
    r.contains a = true ∧
    ∀ k q, c.store.get? k = some q → q.contains a = true → h.index ≤ k.index
  /-- Where there is none, none is found. -/
  nowhere : ∀ a, c.store.find? a = none ↔
    ∀ h r, c.store.get? h = some r → r.contains a = false
  /-- Clearing hands out the records of the listing, and leaves nothing. -/
  handed : c.store.clear.1 = c.store.entries.map Prod.snd ∧
    c.store.clear.1 = c.store.slots.filterMap Slot.record ∧ c.store.clear.2 = .empty
  /-- A slot has the generation of its removals. -/
  aged : ∀ i slot, c.store.slots[i]? = some slot → slot.generation = c.removals i
  /-- A handle names a slot and a generation that the slot has reached. -/
  reached : ∀ h ∈ handles c.happenings, ∃ slot, c.store.slots[h.index]? = some slot ∧
    h.generation ≤ slot.generation

/-! ## One use -/

variable {c : Chronicle} {happenings : List Happening} {e : Happening} {h : Handle} {q : Record}

/-- What a handle stands for after one more event. -/
theorem stands_cons : Stands (e :: happenings) h q ↔
    e = .issued h q ∨ e ≠ .removed h ∧ ∃ p, Stands happenings h p ∧ q = e.edit h p := by
  constructor
  · rintro ⟨after, r, before, hsplit, hkept, rfl⟩
    cases after with
    | nil =>
      cases hsplit
      exact Or.inl rfl
    | cons d after =>
      cases hsplit
      rw [List.mem_cons, not_or] at hkept
      exact Or.inr ⟨fun hd => hkept.1 hd.symm, _, ⟨after, r, before, rfl, hkept.2, rfl⟩, rfl⟩
  · rintro (rfl | ⟨hkept, _, ⟨after, r, before, rfl, hbefore, rfl⟩, rfl⟩)
    · exact ⟨[], q, happenings, rfl, List.not_mem_nil, rfl⟩
    · refine ⟨e :: after, r, before, rfl, ?_, rfl⟩
      rw [List.mem_cons, not_or]
      exact ⟨fun hd => hkept hd.symm, hbefore⟩

/-- A new handle stands for its record, and the others for what they did. -/
theorem stands_issued {k : Handle} {r : Record} (hk : ∀ p, ¬ Stands happenings k p) :
    Stands (.issued k r :: happenings) h q ↔ if h = k then r = q else Stands happenings h q := by
  rw [stands_cons]
  by_cases hh : h = k
  · subst hh
    simp [hk]
  · simp [hh, Ne.symm hh, Happening.edit]

/-- A change concerns what its handle stands for. -/
theorem stands_edited {k : Handle} {f : Record → Record} :
    Stands (.edited k f :: happenings) h q ↔
      ∃ p, Stands happenings h p ∧ q = if k = h then f p else p := by
  simp [stands_cons, Happening.edit]

/-- A removed handle stands for nothing. -/
theorem stands_removed {k : Handle} :
    Stands (.removed k :: happenings) h q ↔ h ≠ k ∧ Stands happenings h q := by
  simp [stands_cons, Happening.edit, eq_comm]

/-- What carries over from one use to the next. -/
structure Sound (c : Chronicle) : Prop where
  finds : ∀ h q, c.store.get? h = some q ↔ Stands c.happenings h q
  known : ∀ h, h ∈ handles c.happenings ↔ h.generation < c.store.issues h.index
  distinct : (handles c.happenings).Nodup
  counted : c.count = c.store.size

/-- With nothing done, nothing is known. -/
theorem sound_empty : Sound {} where
  finds h q := by simp [Stands]
  known h := by simp [handles, Store.issues, Store.empty]
  distinct := List.nodup_nil
  counted := rfl

namespace Sound

/-- The handle of an insertion has not been given out before. -/
theorem fresh (hc : c.Sound) (r : Record) : (c.store.insert r).1 ∉ handles c.happenings := by
  rw [hc.known, Store.generation_insert]
  exact Nat.lt_irrefl _

theorem insert (hc : c.Sound) (r : Record) : (c.use (.insert r)).Sound where
  finds h q := by
    have hnew : ∀ p, ¬ Stands c.happenings (c.store.insert r).1 p := by
      intro p hp
      have hget := (hc.finds _ _).2 hp
      rw [Store.get?_insert_handle] at hget
      cases hget
    show (c.store.insert r).2.get? h = some q ↔ Stands (.issued _ r :: c.happenings) h q
    rw [Store.get?_insert, stands_issued hnew]
    split
    · exact Option.some_inj
    · exact hc.finds h q
  known h := by
    have hnext := c.store.generation_insert r
    show h ∈ (c.store.insert r).1 :: handles c.happenings ↔
      h.generation < (c.store.insert r).2.issues h.index
    rw [Store.issues_insert, List.mem_cons, hc.known]
    generalize (c.store.insert r).1 = k at hnext ⊢
    obtain ⟨i, g⟩ := h
    obtain ⟨j, e⟩ := k
    simp only [Handle.mk.injEq] at hnext ⊢
    by_cases hi : i = j
    · subst hi
      rw [if_pos rfl]
      omega
    · rw [if_neg hi]
      omega
  distinct := List.nodup_cons.2 ⟨hc.fresh r, hc.distinct⟩
  counted := by
    rw [use, hc.counted, Store.size_insert]

theorem edit (hc : c.Sound) (h : Handle) (f : Record → Record) : (c.use (.edit h f)).Sound where
  finds k q := by
    show (c.store.modify h f).get? k = some q ↔ Stands (.edited h f :: c.happenings) k q
    rw [Store.get?_modify, stands_edited]
    simp only [← hc.finds]
    by_cases hk : k = h
    · subst hk
      rw [if_pos rfl, Option.map_eq_some_iff]
      simp only [if_pos, eq_comm]
    · simp [hk, Ne.symm hk]
  known k := by
    rw [use, Store.issues_modify]
    exact hc.known k
  distinct := hc.distinct
  counted := by
    rw [use, hc.counted, Store.size_modify]

theorem remove (hc : c.Sound) (h : Handle) : (c.use (.remove h)).Sound := by
  cases hr : c.store.remove h with
  | none =>
    have huse : c.use (.remove h) = { c with happenings := .removed h :: c.happenings } := by
      simp only [Chronicle.use, hr]
    rw [huse]
    refine ⟨fun k q => ?_, hc.known, hc.distinct, hc.counted⟩
    rw [stands_removed, hc.finds, iff_and_self]
    rintro hk rfl
    rw [← hc.finds, Store.remove_eq_none_iff.1 hr] at hk
    cases hk
  | some taken =>
    obtain ⟨r, rest⟩ := taken
    have huse : c.use (.remove h) =
        { store := rest, happenings := .removed h :: c.happenings, count := c.count - 1 } := by
      simp only [Chronicle.use, hr]
    rw [huse]
    refine ⟨fun k q => ?_, fun k => ?_, hc.distinct, ?_⟩
    · rw [stands_removed, ← hc.finds, Store.get?_of_remove hr]
      split <;> simp [*]
    · rw [Store.issues_of_remove hr]
      exact hc.known k
    · show c.count - 1 = rest.size
      rw [hc.counted, Store.size_of_remove hr, Nat.add_sub_cancel]

/-- **Every use keeps the chronicle true.** -/
theorem use (hc : c.Sound) (u : Use) : (c.use u).Sound := by
  cases u with
  | insert r => exact hc.insert r
  | edit h f => exact hc.edit h f
  | remove h => exact hc.remove h
  | clear => exact sound_empty

/-- So does any number of them. -/
theorem uses (hc : c.Sound) (us : List Use) : (us.foldl Chronicle.use c).Sound := by
  induction us generalizing c with
  | nil => exact hc
  | cons u us ih => exact ih (hc.use u)

/-! ## What a sound chronicle says -/

/-- Once removed, a handle stands for nothing: it was given out only once. -/
theorem get?_of_removed (hc : c.Sound) {after before : List Happening} {r : Record}
    (hsplit : c.happenings = after ++ .issued h r :: before) (hgone : .removed h ∈ after) :
    c.store.get? h = none := by
  refine Option.eq_none_iff_forall_ne_some.2 fun q hq => ?_
  obtain ⟨after', r', before', hsplit', hkept, -⟩ := (hc.finds h q).1 hq
  have honce := hc.distinct
  rw [hsplit, handles, List.filterMap_append] at honce
  obtain ⟨-, hbefore, hafter⟩ := List.nodup_append.1 honce
  have hnotAfter : .issued h r' ∉ after := fun hmem =>
    hafter h (List.mem_filterMap.2 ⟨_, hmem, rfl⟩) h List.mem_cons_self rfl
  have hnotBefore : .issued h r' ∉ before := fun hmem =>
    (List.nodup_cons.1 hbefore).1 (List.mem_filterMap.2 ⟨_, hmem, rfl⟩)
  obtain ⟨rfl, -, -⟩ := (List.append_cons_inj_of_notMem hnotAfter hnotBefore).1
    (hsplit.symm.trans hsplit')
  exact hkept hgone

/-- A record is under a handle that was given out. -/
theorem known_of_get? (hc : c.Sound) (hq : c.store.get? h = some q) :
    h ∈ handles c.happenings := by
  rw [hc.known, Store.issues_of_get? hq]
  exact Nat.lt_succ_self _

/-- The size is the number of the handles that find a record. -/
theorem size_eq (hc : c.Sound) : c.store.size =
    ((handles c.happenings).filter fun h => (c.store.get? h).isSome).length := by
  have hnodup : (c.store.entries.map Prod.fst).Nodup :=
    List.pairwise_map.2 (c.store.pairwise_entries.imp fun hlt heq => by
      rw [heq] at hlt
      exact Nat.lt_irrefl _ hlt)
  have hperm : (c.store.entries.map Prod.fst).Perm
      ((handles c.happenings).filter fun h => (c.store.get? h).isSome) := by
    refine (List.perm_ext_iff_of_nodup hnodup (hc.distinct.filter _)).2 fun h => ?_
    simp only [List.mem_map, Prod.exists, Store.mem_entries_iff, List.mem_filter,
      Option.isSome_iff_exists]
    constructor
    · rintro ⟨_, q, hq, rfl⟩
      exact ⟨hc.known_of_get? hq, q, hq⟩
    · rintro ⟨-, q, hq⟩
      exact ⟨h, q, hq, rfl⟩
  rw [Store.size, ← hperm.length_eq, List.length_map]

/-- The generation of a slot is the number of its removals. -/
theorem generation_eq (hc : c.Sound) {i : Nat} {slot : Slot} (hi : c.store.slots[i]? = some slot) :
    slot.generation = c.removals i := by
  have hperm : ((List.range slot.generation).map (Handle.mk i)).Perm
      ((handles c.happenings).filter fun h => h.index = i ∧ (c.store.get? h).isNone) := by
    refine (List.perm_ext_iff_of_nodup ?_ (hc.distinct.filter _)).2 fun h => ?_
    · exact List.pairwise_map.2 (List.nodup_range.imp fun hne heq => hne (Handle.mk.inj heq).2)
    · simp only [List.mem_map, List.mem_range, List.mem_filter, decide_eq_true_eq]
      constructor
      · rintro ⟨g, hg, rfl⟩
        obtain ⟨hissued, hnone⟩ := (Store.lt_generation_iff (h := ⟨i, g⟩) hi).1 hg
        exact ⟨(hc.known _).2 hissued, rfl, hnone⟩
      · rintro ⟨hissued, rfl, hnone⟩
        exact ⟨h.generation, (Store.lt_generation_iff hi).2 ⟨(hc.known h).1 hissued, hnone⟩, rfl⟩
  rw [removals, ← hperm.length_eq, List.length_map, List.length_range]

/-- A handle that was given out has its slot, of its generation or a later one. -/
theorem reached (hc : c.Sound) (hh : h ∈ handles c.happenings) :
    ∃ slot, c.store.slots[h.index]? = some slot ∧ h.generation ≤ slot.generation := by
  have hissued := (hc.known h).1 hh
  cases hi : c.store.slots[h.index]? with
  | none =>
    rw [Store.issues, hi] at hissued
    exact absurd hissued (Nat.not_lt_zero _)
  | some slot =>
    refine ⟨slot, rfl, Nat.le_of_not_lt fun hlate => ?_⟩
    have hlast : c.store.issues h.index ≤ slot.generation + 1 := by
      rw [Store.issues, hi]
      cases hrecord : slot.record <;> simp [Slot.issues, hrecord]
    omega

end Sound

/-- **A store is always the map that its chronicle describes.** -/
theorem faithful_run (uses : List Use) : (run uses).Faithful := by
  have hc : (run uses).Sound := sound_empty.uses uses
  generalize run uses = c at hc
  exact {
    finds := hc.finds
    stale := fun h after r before hsplit hgone =>
      have hnone := hc.get?_of_removed hsplit hgone
      ⟨hnone, Store.modify_of_get?_eq_none hnone, Store.remove_eq_none_iff.2 hnone⟩
    taken := c.store.map_fst_remove
    distinct := hc.distinct
    fresh := fun r => ⟨hc.fresh r, c.store.get?_insert_handle r, c.store.get?_insert r⟩
    counted := ⟨hc.counted, hc.size_eq⟩
    vacant := ⟨c.store.vacancies.nodup, c.store.vacancies.mem_iff⟩
    listed := ⟨fun h r => Store.mem_entries_iff, c.store.pairwise_entries⟩
    first := fun a h => Store.find?_eq_some_iff_first
    nowhere := fun a => Store.find?_eq_none_iff
    handed := ⟨rfl, c.store.records_eq_filterMap, rfl⟩
    aged := fun i slot hi => hc.generation_eq hi
    reached := fun h hh => hc.reached hh }

end Chronicle

end PageWarden
