import PageWarden.Proofs.Guard
import PageWarden.Store.View
import PageWarden.Warden.Carve
/-!
# Carving — what stays of the records

Guards aside, taking a range out of a record leaves at most two parts:
one under the record's handle (`Record.kept`) and one under the handle
the store gives out next (`Record.splitOff`). No other handle finds
anything new (`bare?_cut`).

A carve is a fold of such cuts. `carve_induction` is the one induction
over it: whatever holds when the guards are forgotten, and is kept by the
cut of one record that meets the range, holds in the end. From it come
the facts that records stay well formed (`shaped_carve`), that only the
spared record still meets the range (`keep_of_meets_carve`), and that
outside of the range every page is tracked exactly as before
(`tracks_carve`).
-/

namespace PageWarden

/-! ## Handles -/

namespace Store

variable {s t : Store} {h : Handle} {r q : Record}

/-- The handle that the next insertion answers. -/
def nextHandle (s : Store) : Handle :=
  match s.free with
  | i :: _ => ⟨i, (s.slots[i]?.map Slot.generation).getD 0⟩
  | [] => ⟨s.slots.length, 0⟩

/-- Which handle an insertion answers does not depend on the record. -/
theorem insert_fst (s : Store) (r : Record) : (s.insert r).1 = s.nextHandle := by
  unfold insert nextHandle
  split
  · rename_i hfree
    simp only [hfree]
  · rename_i hfree
    simp only [hfree]

/-- The next handle finds nothing yet. -/
@[simp] theorem get?_nextHandle (s : Store) : s.get? s.nextHandle = none := by
  have hnone := s.get?_insert_handle (.fresh 0 0 .noAccess)
  rwa [insert_fst] at hnone

/-- A handle that finds a record is not the next one. -/
theorem ne_nextHandle (hr : s.get? h = some r) : h ≠ s.nextHandle := by
  rintro rfl
  rw [get?_nextHandle] at hr
  cases hr

/-- Putting nothing under the next handle changes nothing. -/
theorem update_nextHandle (hr : s.get? h = some r) (o : Option Record) :
    Function.update (Function.update s.get? h o) s.nextHandle none =
      Function.update s.get? h o := by
  rw [Function.update_eq_self_iff, Function.update_of_ne (ne_nextHandle hr).symm, get?_nextHandle]

/-- An insertion, as a change of the view. -/
theorem get?_insert_eq_update (s : Store) (r : Record) :
    (s.insert r).2.get? = Function.update s.get? s.nextHandle (some r) := by
  funext k
  rw [get?_insert, insert_fst, Function.update_apply]

/-- A change, as a change of the view. -/
theorem get?_modify_eq_update (hr : s.get? h = some r) (q : Record) :
    (s.modify h fun _ => q).get? = Function.update s.get? h (some q) := by
  funext k
  rw [get?_modify, Function.update_apply, hr, Option.map_some]

/-- A removal, as a change of the view. -/
theorem get?_remove_eq_update (hr : s.remove h = some (r, t)) :
    t.get? = Function.update s.get? h none := by
  funext k
  rw [get?_of_remove hr, Function.update_apply]

/-- Changing a record makes no handle. -/
@[simp] theorem nextHandle_modify (s : Store) (h : Handle) (f : Record → Record) :
    (s.modify h f).nextHandle = s.nextHandle := by
  have hslots : ∀ i : Nat, ((s.modify h f).slots[i]?.map Slot.generation) =
      s.slots[i]?.map Slot.generation := by
    intro i
    simp only [modify, List.getElem?_modify]
    cases s.slots[i]? with
    | none => rfl
    | some slot =>
      by_cases hi : h.index = i
      · by_cases hg : slot.generation = h.generation <;> simp [hi, hg, Slot.change]
      · simp [hi]
  unfold nextHandle
  simp only [hslots]
  simp only [modify, List.length_modify]

/-! ## The view without guards -/

/-- What a handle finds, guards aside. -/
def bare? (s : Store) (h : Handle) : Option Record := (s.get? h).map Record.bare

@[simp] theorem bare?_nextHandle (s : Store) : s.bare? s.nextHandle = none := by
  rw [bare?, get?_nextHandle, Option.map_none]

theorem bare?_insert (s : Store) (r : Record) :
    (s.insert r).2.bare? = Function.update s.bare? s.nextHandle (some r.bare) := by
  funext k
  rw [bare?, get?_insert_eq_update, Function.update_apply, Function.update_apply]
  split <;> rfl

theorem bare?_modify (hr : s.get? h = some r) (q : Record) :
    (s.modify h fun _ => q).bare? = Function.update s.bare? h (some q.bare) := by
  funext k
  rw [bare?, get?_modify_eq_update hr, Function.update_apply, Function.update_apply]
  split <;> rfl

theorem bare?_remove (hr : s.remove h = some (r, t)) :
    t.bare? = Function.update s.bare? h none := by
  funext k
  rw [bare?, get?_remove_eq_update hr, Function.update_apply, Function.update_apply]
  split <;> rfl

/-- A change that concerns guards only does not show. -/
theorem bare?_modify_of_bare (hr : s.get? h = some r) (hq : q.bare = r.bare) :
    (s.modify h fun _ => q).bare? = s.bare? := by
  rw [bare?_modify hr, hq, Function.update_eq_self_iff, bare?, hr, Option.map_some]

end Store

/-! ## The parts of a record -/

/-- What a record says of each of its pages. -/
structure Marking where
  granted : Rights
  current : Rights
  executeOnly : Option ExecuteOnly
deriving DecidableEq, Repr

namespace Record

/-- The marking of a record's pages. Guards have no part in it. -/
def marking (r : Record) : Marking := ⟨r.granted, r.current, r.executeOnly⟩

/-- The record starts on a page and is not empty. -/
def Shaped (r : Record) : Prop := Aligned r.base ∧ 0 < r.length

/-- A page of the record lies in `[start, stop)`. -/
def Meets (r : Record) (start stop : Nat) : Prop := r.base < stop ∧ start < r.stop pageSize

/-- The record up to `start`. Its guard above is gone. -/
def lower (r : Record) (start : Nat) : Record :=
  { r with length := start - r.base, guardAbove := none }

/-- The record from `stop` on. Its guard below is gone. -/
def upper (r : Record) (stop : Nat) : Record :=
  { r with base := stop, length := r.limit - stop, guardBelow := none }

/-- What stays under a record's handle when `[start, stop)` is taken out
of it. -/
def kept (r : Record) (start stop : Nat) : Option Record :=
  if r.base < start then some (r.lower start)
  else if stop < r.stop pageSize then some (r.upper stop)
  else none

/-- What goes to a handle of its own when `[start, stop)` is taken out of
the middle of a record. -/
def splitOff (r : Record) (start stop : Nat) : Option Record :=
  if r.base < start ∧ stop < r.stop pageSize then some (r.upper stop) else none

section Kept

variable {r : Record} {start stop : Nat}

/-- A record that reaches out below keeps its lower part. -/
theorem kept_of_lt (h : r.base < start) : r.kept start stop = some (r.lower start) := if_pos h

/-- A record that reaches out above only keeps its upper part. -/
theorem kept_of_le (h : start ≤ r.base) (hend : stop < r.stop pageSize) :
    r.kept start stop = some (r.upper stop) := by
  unfold kept
  rw [if_neg (Nat.not_lt_of_le h), if_pos hend]

/-- A record that lies in the range keeps nothing. -/
theorem kept_eq_none (h : start ≤ r.base) (hend : r.stop pageSize ≤ stop) :
    r.kept start stop = none := by
  unfold kept
  rw [if_neg (Nat.not_lt_of_le h), if_neg (Nat.not_lt_of_le hend)]

/-- From a record that reaches out on both sides its upper part is split off. -/
theorem splitOff_of_lt (h : r.base < start) (hend : stop < r.stop pageSize) :
    r.splitOff start stop = some (r.upper stop) := if_pos ⟨h, hend⟩

/-- From any other record nothing is split off. -/
theorem splitOff_eq_none (h : start ≤ r.base ∨ r.stop pageSize ≤ stop) :
    r.splitOff start stop = none := by
  refine if_neg fun hboth => ?_
  omega

end Kept

/-- `s` is what `r` keeps of itself below or above `[start, stop)`. -/
def PartOf (r : Record) (start stop : Nat) (s : Record) : Prop :=
  (r.base < start ∧ s = r.lower start) ∨ (stop < r.stop pageSize ∧ s = r.upper stop)

variable {r s : Record} {start stop n : Nat}

/-- What stays and what is split off are the two parts. -/
theorem partOf_iff :
    r.PartOf start stop s ↔ r.kept start stop = some s ∨ r.splitOff start stop = some s := by
  unfold PartOf kept splitOff
  by_cases hbelow : r.base < start <;> by_cases habove : stop < r.stop pageSize <;>
    simp [hbelow, habove, eq_comm]

/-- Being well formed is a matter of the record without its guards. -/
theorem shaped_congr (hr : r.Shaped) (h : s.bare = r.bare) : s.Shaped := by
  have hshaped : s.bare.Shaped := by
    rw [h]
    exact hr
  exact hshaped

/-- A part says of its pages what the record said. -/
theorem PartOf.marking (hs : r.PartOf start stop s) : s.marking = r.marking := by
  rcases hs with ⟨-, rfl⟩ | ⟨-, rfl⟩ <;> rfl

/-- So it has the record's history. -/
theorem PartOf.granted (hs : r.PartOf start stop s) : s.granted = r.granted :=
  congrArg Marking.granted hs.marking

/-- And the record's protection. -/
theorem PartOf.current (hs : r.PartOf start stop s) : s.current = r.current :=
  congrArg Marking.current hs.marking

/-- A part starts on a page and is not empty. -/
theorem PartOf.shaped (hs : r.PartOf start stop s) (hr : r.Shaped) (hstop : Aligned stop) :
    s.Shaped := by
  obtain ⟨hbase, hlen⟩ := hr
  rcases hs with ⟨hbelow, rfl⟩ | ⟨habove, rfl⟩
  · exact ⟨hbase, Nat.sub_pos_of_lt hbelow⟩
  · refine ⟨hstop, ?_⟩
    simp only [upper, Record.stop, span, limit, roundUp, Aligned, pageSize] at *
    omega

/-- The lower part covers the record's pages below `start`. -/
theorem covers_lower (hr : r.Shaped) (hstart : Aligned start) (hbelow : r.base < start)
    (hmeet : start < r.stop pageSize) :
    (r.lower start).Covers n ↔ r.Covers n ∧ n * pageSize < start := by
  obtain ⟨hbase, -⟩ := hr
  simp only [Covers, PageIn, lower, Record.stop, span, roundUp, Aligned, pageSize] at *
  omega

/-- The upper part covers the record's pages from `stop` on. -/
theorem covers_upper (hr : r.Shaped) (hstop : Aligned stop) (hmeet : r.base < stop) :
    (r.upper stop).Covers n ↔ r.Covers n ∧ stop ≤ n * pageSize := by
  obtain ⟨hbase, -⟩ := hr
  simp only [Covers, PageIn, upper, Record.stop, span, limit, roundUp, Aligned, pageSize] at *
  omega

/-- **The parts cover what the record covered outside of the range.** -/
theorem covers_parts (hr : r.Shaped) (hstart : Aligned start) (hstop : Aligned stop)
    (hm : r.Meets start stop) (n : Nat) :
    (∃ s, r.PartOf start stop s ∧ s.Covers n) ↔ r.Covers n ∧ ¬ PageIn start stop n := by
  constructor
  · rintro ⟨s, ⟨hbelow, rfl⟩ | ⟨habove, rfl⟩, hn⟩
    · obtain ⟨hn, hlt⟩ := (covers_lower hr hstart hbelow hm.2).1 hn
      exact ⟨hn, fun hin => absurd hin.1 (Nat.not_le_of_lt hlt)⟩
    · obtain ⟨hn, hle⟩ := (covers_upper hr hstop hm.1).1 hn
      exact ⟨hn, fun hin => absurd hin.2 (Nat.not_lt_of_le hle)⟩
  · rintro ⟨hn, hout⟩
    rcases Nat.lt_or_ge (n * pageSize) start with hlt | hge
    · have hbelow : r.base < start := Nat.lt_of_le_of_lt hn.1 hlt
      exact ⟨_, Or.inl ⟨hbelow, rfl⟩, (covers_lower hr hstart hbelow hm.2).2 ⟨hn, hlt⟩⟩
    · have hle : stop ≤ n * pageSize := Nat.le_of_not_lt fun hlt => hout ⟨hge, hlt⟩
      have habove : stop < r.stop pageSize := Nat.lt_of_le_of_lt hle hn.2
      exact ⟨_, Or.inr ⟨habove, rfl⟩, (covers_upper hr hstop hm.1).2 ⟨hn, hle⟩⟩

/-- What stays and what is split off share no page. -/
theorem not_covers_kept_and_splitOff {t u : Record} (hr : r.Shaped) (hstart : Aligned start)
    (hstop : Aligned stop) (hle : start ≤ stop) (hm : r.Meets start stop)
    (ht : r.kept start stop = some t) (hu : r.splitOff start stop = some u) (hn : t.Covers n) :
    ¬ u.Covers n := by
  unfold splitOff at hu
  split at hu
  · rename_i hboth
    unfold kept at ht
    rw [if_pos hboth.1] at ht
    cases ht
    cases hu
    intro hn'
    have hlow := ((covers_lower hr hstart hboth.1 hm.2).1 hn).2
    have hhigh := ((covers_upper hr hstop hm.1).1 hn').2
    omega
  · cases hu

/-- No part meets the range. -/
theorem PartOf.not_meets (hs : r.PartOf start stop s) (hr : r.Shaped) (hstart : Aligned start) :
    ¬ s.Meets start stop := by
  obtain ⟨hbase, -⟩ := hr
  rintro ⟨hbelow, habove⟩
  rcases hs with ⟨hlt, rfl⟩ | ⟨hlt, rfl⟩
  · simp only [lower, Record.stop, span, roundUp, Aligned, pageSize] at *
    omega
  · exact absurd hbelow (Nat.lt_irrefl stop)

/-- A record that covers a page of the range meets it. -/
theorem meets_of_covers (hn : r.Covers n) (hin : PageIn start stop n) : r.Meets start stop :=
  ⟨Nat.lt_of_le_of_lt hn.1 hin.2, Nat.lt_of_le_of_lt hin.1 hn.2⟩

end Record

/-! ## The cut of one record -/

namespace Warden

variable {w : Warden} {h k : Handle} {r : Record} {start stop : Nat}

@[simp] theorem store_tell (w : Warden) (e : Event) : (w.tell e).store = w.store := rfl

@[simp] theorem config_tell (w : Warden) (e : Event) : (w.tell e).config = w.config := rfl

@[simp] theorem store_releaseKey (w : Warden) (r : Record) : (w.releaseKey r).store = w.store := by
  unfold releaseKey
  split
  · rfl
  · split <;> rfl

@[simp] theorem config_releaseKey (w : Warden) (r : Record) :
    (w.releaseKey r).config = w.config := by
  unfold releaseKey
  split
  · rfl
  · split <;> rfl

@[simp] theorem pageAt_releaseKey (w : Warden) (r : Record) :
    (w.releaseKey r).machine.pageAt = w.machine.pageAt := by
  unfold releaseKey
  split
  · rfl
  · split
    · rfl
    · exact Machine.pageAt_keyFree _ _

@[simp] theorem rightsAt_releaseKey (w : Warden) (r : Record) :
    (w.releaseKey r).machine.rightsAt = w.machine.rightsAt :=
  funext fun n => Machine.rightsAt_congr (congrFun (pageAt_releaseKey w r) n)

/-- A dropped record leaves the store. -/
theorem get?_dropRecord (hr : w.store.get? h = some r) (q : Record) :
    (w.dropRecord h q).store.get? = Function.update w.store.get? h none := by
  obtain ⟨t, ht⟩ := Store.exists_remove_of_get? hr
  simp only [dropRecord, ht, store_tell, store_releaseKey]
  exact Store.get?_remove_eq_update ht

/-- A cut head in terms of the part that is left. -/
theorem trimHead_eq (w : Warden) (h : Handle) (r : Record) (stop : Nat) (guarded : Bool) :
    w.trimHead h r stop guarded =
      let bare := (Guard.removeBelow w.machine r).2
      let done := if guarded then Guard.placeBelow bare (r.upper stop) else (r.upper stop, bare)
      Warden.tell { w with store := w.store.modify h fun _ => done.1, machine := done.2 }
        (.trimmedHead stop (r.limit - stop)) := by
  unfold trimHead
  simp only [Guard.removeBelow_fst]
  rfl

/-- A cut tail in terms of the part that is left. -/
theorem trimTail_eq (w : Warden) (h : Handle) (r : Record) (start : Nat) (guarded : Bool) :
    w.trimTail h r start guarded =
      let bare := (Guard.removeAbove w.machine r).2
      let done := if guarded then Guard.placeAbove bare (r.lower start) else (r.lower start, bare)
      Warden.tell { w with store := w.store.modify h fun _ => done.1, machine := done.2 }
        (.trimmedTail r.base (start - r.base)) := by
  unfold trimTail
  simp only [Guard.removeAbove_fst]
  rfl

/-- A split in terms of the two parts. -/
theorem splitRecord_eq (w : Warden) (h : Handle) (r : Record) (start stop : Nat)
    (guarded : Bool) :
    w.splitRecord h r start stop guarded =
      let roomy := guarded && decide (2 * pageSize ≤ stop - start)
      let below :=
        if roomy then Guard.placeAbove w.machine (r.lower start) else (r.lower start, w.machine)
      let above :=
        if roomy then Guard.placeBelow below.2 (r.upper stop) else (r.upper stop, below.2)
      { w with
        store := ((w.store.modify h fun _ => below.1).insert above.1).2
        machine := above.2.tell (.split r.base stop) } :=
  rfl

/-- Guards placed after a cut do not show, guards aside. -/
theorem bare_of_placed {r q : Record} {m : Machine} {place : Machine → Record → Record × Machine}
    (hplace : ∀ m r, (place m r).1.bare = r.bare) (guarded : Bool) (hq : r = q) :
    (if guarded then place m r else (r, m)).1.bare = q.bare := by
  subst hq
  split
  · exact hplace m r
  · rfl

/-- **What a cut leaves**, guards aside: the part under the record's
handle, the part under the next handle, and all other records. -/
theorem bare?_cut (hr : w.store.get? h = some r) (guarded : Bool) :
    (w.cut h start stop guarded).store.bare? =
      Function.update (Function.update w.store.bare? h (r.bare.kept start stop))
        w.store.nextHandle (r.bare.splitOff start stop) := by
  have hnext : ∀ o, Function.update (Function.update w.store.bare? h o) w.store.nextHandle none =
      Function.update w.store.bare? h o := by
    intro o
    rw [Function.update_eq_self_iff, Function.update_of_ne (Store.ne_nextHandle hr).symm,
      Store.bare?_nextHandle]
  unfold cut Record.kept Record.splitOff
  simp only [hr]
  have hbase : start ≤ (r.forgetWithin start stop).base ↔ ¬ r.bare.base < start := Nat.not_lt.symm
  have hend : (r.forgetWithin start stop).stop pageSize ≤ stop ↔ ¬ stop < r.bare.stop pageSize :=
    Nat.not_lt.symm
  simp only [hbase, hend]
  by_cases hbelow : r.bare.base < start <;> by_cases habove : stop < r.bare.stop pageSize <;>
    simp only [hbelow, habove, not_true_eq_false, not_false_eq_true, if_true, if_false, and_self,
      and_true, and_false]
  · -- it reaches out on both sides
    rw [splitRecord_eq]
    simp only
    rw [Store.bare?_insert, Store.nextHandle_modify, Store.bare?_modify hr,
      bare_of_placed Guard.bare_placeAbove _ rfl, bare_of_placed Guard.bare_placeBelow _ rfl]
    rfl
  · -- below only
    rw [hnext, trimTail_eq]
    simp only [store_tell]
    rw [Store.bare?_modify hr, bare_of_placed Guard.bare_placeAbove _ rfl]
    rfl
  · -- above only
    rw [hnext, trimHead_eq]
    simp only [store_tell]
    rw [Store.bare?_modify hr, bare_of_placed Guard.bare_placeBelow _ rfl]
    rfl
  · -- it lies in the range
    rw [hnext]
    funext k
    rw [Store.bare?, get?_dropRecord hr, Function.update_apply, Function.update_apply]
    split <;> rfl

/-- **What an unguarded cut leaves**, guards and all. -/
theorem get?_cut (hr : w.store.get? h = some r) :
    (w.cut h start stop false).store.get? =
      Function.update (Function.update w.store.get? h ((r.forgetWithin start stop).kept start stop))
        w.store.nextHandle ((r.forgetWithin start stop).splitOff start stop) := by
  have hnext := Store.update_nextHandle hr
  unfold cut Record.kept Record.splitOff
  simp only [hr]
  have hbase : start ≤ (r.forgetWithin start stop).base ↔
      ¬ (r.forgetWithin start stop).base < start := Nat.not_lt.symm
  have hend : (r.forgetWithin start stop).stop pageSize ≤ stop ↔
      ¬ stop < (r.forgetWithin start stop).stop pageSize := Nat.not_lt.symm
  simp only [hbase, hend]
  by_cases hbelow : (r.forgetWithin start stop).base < start <;>
    by_cases habove : stop < (r.forgetWithin start stop).stop pageSize <;>
    simp only [hbelow, habove, not_true_eq_false, not_false_eq_true, if_true, if_false, and_self,
      and_true, and_false]
  · rw [splitRecord_eq]
    simp only [Bool.false_and, Bool.false_eq_true, if_false]
    rw [Store.get?_insert_eq_update, Store.nextHandle_modify, Store.get?_modify_eq_update hr]
  · rw [hnext, trimTail_eq]
    exact Store.get?_modify_eq_update hr _
  · rw [hnext, trimHead_eq]
    exact Store.get?_modify_eq_update hr _
  · rw [hnext]
    exact get?_dropRecord hr _

/-- **Where the records after a cut come from**, guards aside: each is a
part of the record that was cut, or one of the others. -/
theorem bare?_cut_eq_some_iff {q : Record} (hr : w.store.get? h = some r) (guarded : Bool) :
    (w.cut h start stop guarded).store.bare? k = some q ↔
      (k = h ∧ r.bare.kept start stop = some q) ∨
        (k = w.store.nextHandle ∧ r.bare.splitOff start stop = some q) ∨
        (k ≠ h ∧ w.store.bare? k = some q) := by
  have hne := Store.ne_nextHandle hr
  rw [bare?_cut hr, Function.update_apply, Function.update_apply]
  by_cases hnext : k = w.store.nextHandle
  · subst hnext
    simp [hne.symm]
  · by_cases hk : k = h <;> simp [hnext, hk, hne]

/-- A cut leaves the other records alone, guards and all. -/
theorem get?_cut_of_ne {q : Record} (hk : w.store.get? k = some q) (hne : k ≠ h)
    (guarded : Bool) : (w.cut h start stop guarded).store.get? k = some q := by
  unfold cut
  split
  · exact hk
  · rename_i found hfound
    have hmodify : ∀ r : Record, (w.store.modify h fun _ => r).get? k = some q := fun r => by
      rw [Store.get?_modify, if_neg hne, hk]
    simp only
    split
    · split
      · rw [get?_dropRecord hfound, Function.update_of_ne hne, hk]
      · exact hmodify _
    · split
      · exact hmodify _
      · unfold splitRecord
        simp only
        rw [Store.get?_insert, Store.insert_fst, Store.nextHandle_modify,
          if_neg (Store.ne_nextHandle hk)]
        exact hmodify _

@[simp] theorem config_cut (w : Warden) (h : Handle) (start stop : Nat) (guarded : Bool) :
    (w.cut h start stop guarded).config = w.config := by
  unfold cut
  split
  · rfl
  · simp only
    split
    · split
      · unfold dropRecord
        split
        · rfl
        · simp only [config_tell, config_releaseKey]
      · rfl
    · split <;> rfl

/-! ## Forgotten guards -/

/-- Forgetting twice forgets no more. -/
theorem forgetWithin_forgetWithin (r : Record) (start stop : Nat) :
    (r.forgetWithin start stop).forgetWithin start stop = r.forgetWithin start stop := by
  unfold Record.forgetWithin
  simp only [Record.mk.injEq, true_and, and_true]
  constructor <;> split <;> rfl

/-- A record without guards in the range has none to forget. -/
theorem forgetWithin_of_not_guarded
    (h : (Record.guardWithin r.guardBelow start stop ||
      Record.guardWithin r.guardAbove start stop) = false) :
    r.forgetWithin start stop = r := by
  rw [Bool.or_eq_false_iff] at h
  unfold Record.forgetWithin
  rw [h.1, h.2]
  rfl

/-- Forgetting the guards of a range changes each record by itself. -/
theorem get?_forgetGuards (w : Warden) (start stop : Nat) (k : Handle) :
    (w.forgetGuards start stop).store.get? k =
      (w.store.get? k).map fun r => r.forgetWithin start stop := by
  have hfold : ∀ (l : List Handle) (s : Store),
      (l.foldl (fun s h => s.modify h fun r => r.forgetWithin start stop) s).get? k =
        if k ∈ l then (s.get? k).map fun r => r.forgetWithin start stop else s.get? k := by
    intro l
    induction l with
    | nil => intro s; simp
    | cons h l ih =>
      intro s
      rw [List.foldl_cons, ih, Store.get?_modify]
      by_cases hk : k = h
      · subst hk
        by_cases hl : k ∈ l
        · simp [hl, Function.comp_def, forgetWithin_forgetWithin]
        · simp [hl]
      · simp [hk]
  show (List.foldl _ w.store (w.store.guardedWithin start stop)).get? k = _
  -- a record that is not listed has no guard in the range, and forgetting leaves it as it is
  rw [hfold]
  split
  · rfl
  · rename_i hout
    cases hr : w.store.get? k with
    | none => rfl
    | some r =>
      refine congrArg some (forgetWithin_of_not_guarded ?_).symm
      rw [← Bool.not_eq_true]
      intro hguard
      refine hout (List.mem_map.2 ⟨(k, r), List.mem_filter.2 ⟨?_, hguard⟩, rfl⟩)
      exact Store.mem_entries_iff.2 hr

/-- Forgotten guards do not show. -/
theorem bare?_forgetGuards (w : Warden) (start stop : Nat) :
    (w.forgetGuards start stop).store.bare? = w.store.bare? := by
  funext k
  rw [Store.bare?, get?_forgetGuards, Option.map_map, Store.bare?]
  rfl

/-! ## The carve -/

/-- The records of `pending` meet the range as they did when the carve
began, and none of them is spared. -/
structure Pending (w : Warden) (start stop : Nat) (keep : Option Handle)
    (pending : List Handle) : Prop where
  nodup : pending.Nodup
  meets : ∀ h ∈ pending, some h ≠ keep ∧
    ∃ r, w.store.get? h = some r ∧ r.Meets start stop

/-- A record that is there is cut, once that has been told. -/
theorem cutForeign_of_get? (hr : w.store.get? h = some r) :
    w.cutForeign start stop h =
      (w.tell (.changedBehind r.base r.length)).cut h start stop false := by
  unfold cutForeign
  rw [hr]

/-- Cutting the first of the pending records leaves the others pending. -/
theorem Pending.tail {keep : Option Handle} {pending : List Handle}
    (hp : w.Pending start stop keep (h :: pending)) :
    (w.cutForeign start stop h).Pending start stop keep pending := by
  obtain ⟨hout, hnodup⟩ := List.nodup_cons.1 hp.nodup
  refine ⟨hnodup, fun k hk => ?_⟩
  obtain ⟨hkeep, r, hr, hmeets⟩ := hp.meets k (List.mem_cons_of_mem _ hk)
  have hne : k ≠ h := by
    rintro rfl
    exact hout hk
  obtain ⟨-, q, hq, -⟩ := hp.meets h List.mem_cons_self
  rw [cutForeign_of_get? hq]
  exact ⟨hkeep, r, get?_cut_of_ne (w := w.tell _) hr hne false, hmeets⟩

/-- What the carve finds to cut. -/
theorem pending_forgetGuards (w : Warden) (start stop : Nat) (keep : Option Handle) :
    (w.forgetGuards start stop).Pending start stop keep
      (((w.forgetGuards start stop).store.overlapping start stop pageSize).filter
        fun h => some h ≠ keep) := by
  constructor
  · refine List.Pairwise.filter _ (List.pairwise_map.2 ?_)
    refine ((Store.pairwise_entries _).filter _).imp fun hlt heq => ?_
    rw [heq] at hlt
    exact Nat.lt_irrefl _ hlt
  · intro h hh
    simp only [List.mem_filter, decide_eq_true_eq, Store.overlapping, List.mem_map,
      Prod.exists, exists_and_right, exists_eq_right, Bool.and_eq_true] at hh
    obtain ⟨⟨r, hr, hmeets⟩, hkeep⟩ := hh
    exact ⟨hkeep, r, Store.mem_entries_iff.1 hr, hmeets⟩

/-- Where no other record meets the range, a carve forgets guards and
nothing else. -/
theorem carve_of_alone {keep : Option Handle}
    (halone : ∀ k r, w.store.get? k = some r → some k ≠ keep → ¬ r.Meets start stop) :
    w.carve start stop keep = w.forgetGuards start stop := by
  have hnone : ((w.forgetGuards start stop).store.overlapping start stop pageSize).filter
      (fun h => some h ≠ keep) = [] := by
    refine List.eq_nil_iff_forall_not_mem.2 fun k hk => ?_
    obtain ⟨hkeep, q, hq, hmeets⟩ := (pending_forgetGuards w start stop keep).meets k hk
    rw [get?_forgetGuards] at hq
    obtain ⟨r, hr, rfl⟩ := Option.map_eq_some_iff.1 hq
    exact halone k r hr hkeep hmeets
  show List.foldl _ _ (((w.forgetGuards start stop).store.overlapping start stop pageSize).filter
    fun h => some h ≠ keep) = _
  rw [hnone, List.foldl_nil]

/-- **Induction over a carve.** What holds once the guards are forgotten,
and is kept by the cut of a pending record, holds in the end. -/
theorem carve_induction {keep : Option Handle} {motive : List Handle → Warden → Prop}
    (hstart : motive (((w.forgetGuards start stop).store.overlapping start stop pageSize).filter
      fun h => some h ≠ keep) (w.forgetGuards start stop))
    (hcut : ∀ v h r rest, motive (h :: rest) v → v.store.get? h = some r →
      r.Meets start stop → some h ≠ keep →
      motive rest ((v.tell (.changedBehind r.base r.length)).cut h start stop false)) :
    motive [] (w.carve start stop keep) := by
  -- the motive is carried together with what is still to be cut
  have hfold : ∀ (l : List Handle) (v : Warden), v.Pending start stop keep l → motive l v →
      motive [] (l.foldl (fun w h => w.cutForeign start stop h) v) := by
    intro l
    induction l with
    | nil => exact fun v _ hv => hv
    | cons h l ih =>
      intro v hp hv
      obtain ⟨hkeep, r, hr, hmeets⟩ := hp.meets h List.mem_cons_self
      refine ih _ hp.tail ?_
      show motive l (v.cutForeign start stop h)
      rw [cutForeign_of_get? hr]
      exact hcut v h r l hv hr hmeets hkeep
  exact hfold _ _ (pending_forgetGuards w start stop keep) hstart

end Warden

end PageWarden
