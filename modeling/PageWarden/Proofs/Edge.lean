import PageWarden.Proofs.Chart
import PageWarden.Proofs.Flank
import PageWarden.Proofs.Guard.Page
/-!
# Edges — where the guards go when a range is released

A record that loses a range has its guard there moved to the new edge: the
old one is unmapped, unless it went with the range, and a new one is
placed on the nearest page of the hole. Where the hole is in the middle of
the record both new edges are guarded, if there is a page for each of
them, and neither is otherwise.

All of that is best effort, and it succeeds where no fault is scheduled
for mapping or unmapping and the system knows how to place a guard
(`Machine.Clean`): then each of the four ways to lose a range leaves
exactly the guards it should (`guards_follow_edges`).
-/

namespace PageWarden

variable {m m' : Machine} {r : Record} {start stop n : Nat}

/-! ## Machines on which guards succeed -/

/-- **Guards succeed**: the system knows how to place one, and no fault is
scheduled for mapping or unmapping. -/
structure Machine.Clean (m : Machine) : Prop where
  known : m.platform.honoursNoReplace = true
  maps : m.faults .map = []
  unmaps : m.faults .unmap = []

namespace Machine.Clean

/-- Calls keep it so. -/
theorem calls (hm : m.Clean) (h : m.Calls m') : m'.Clean :=
  ⟨h.platform ▸ hm.known, h.unscheduled hm.maps, h.unscheduled hm.unmaps⟩

/-- Mapping passes. -/
theorem passes_map (hm : m.Clean) (count : Nat) : m.Passes .map count :=
  passes_of_unscheduled hm.maps count

/-- So does unmapping. -/
theorem passes_unmap (hm : m.Clean) (count : Nat) : m.Passes .unmap count :=
  passes_of_unscheduled hm.unmaps count

/-- A guard that is asked for on a free page is placed there. -/
theorem place (hm : m.Clean) {g : Nat} (hg : Aligned g) (hfree : m.pageAt (pageOf g) = none) :
    (Guard.place m g).1 = some g ∧ ∀ n, (Guard.place m g).2.pageAt n =
      if n * pageSize = g then some (.fresh .noAccess) else m.pageAt n := by
  obtain ⟨hplaced, hpage, -⟩ := Guard.place_of_free hm.known (hm.passes_map 1) hg hfree
  exact ⟨hplaced, hpage⟩

end Machine.Clean

/-- Of the pages of `[start, stop)` exactly those in `guards` are mapped,
as guards. -/
def Machine.Walled (m : Machine) (start stop : Nat) (guards : List Nat) : Prop :=
  ∀ n, PageIn start stop n →
    m.pageAt n = if n * pageSize ∈ guards then some (.fresh .noAccess) else none

/-! ## The guards that are forgotten -/

namespace Record

/-- A range that starts inside a record holds no guard below it. -/
theorem guardBelow_forgetWithin (hr : r.Flanked) (hle : r.base ≤ start) :
    (r.forgetWithin start stop).guardBelow = r.guardBelow := by
  have hout : guardWithin r.guardBelow start stop = false := by
    cases hg : r.guardBelow with
    | none => rfl
    | some g =>
      have hflank := hr.below hg
      have hpos := pageSize_pos
      have hlt : ¬ start ≤ g := by omega
      simp [guardWithin, hlt]
  simp only [forgetWithin, hout, Bool.false_eq_true, if_false]

/-- A range that ends inside it holds none above it. -/
theorem guardAbove_forgetWithin (hr : r.Flanked) (hle : stop ≤ r.stop pageSize) :
    (r.forgetWithin start stop).guardAbove = r.guardAbove := by
  have hout : guardWithin r.guardAbove start stop = false := by
    cases hg : r.guardAbove with
    | none => rfl
    | some g =>
      have hflank := hr.above hg
      have hlt : ¬ g < stop := by omega
      simp [guardWithin, hlt]
  simp only [forgetWithin, hout, Bool.false_eq_true, if_false]

/-- So a range inside of it makes it forget nothing. -/
theorem forgetWithin_of_inside (hr : r.Flanked) (hle : r.base ≤ start)
    (hend : stop ≤ r.stop pageSize) : r.forgetWithin start stop = r := by
  have hbelow : (r.forgetWithin start stop).guardBelow = r.guardBelow :=
    guardBelow_forgetWithin hr hle
  have habove : (r.forgetWithin start stop).guardAbove = r.guardAbove :=
    guardAbove_forgetWithin hr hend
  calc r.forgetWithin start stop
      = { r with
          guardBelow := (r.forgetWithin start stop).guardBelow
          guardAbove := (r.forgetWithin start stop).guardAbove } := rfl
    _ = r := by rw [hbelow, habove]

/-- A guard that is not forgotten lies outside of the range. -/
theorem mem_guards_forgetWithin {g : Nat} (hg : g ∈ r.guards) :
    (start ≤ g ∧ g < stop) ∨ g ∈ (r.forgetWithin start stop).guards := by
  by_cases hin : start ≤ g ∧ g < stop
  · exact Or.inl hin
  · have hout : guardWithin (some g) start stop = false := by
      simp only [guardWithin, Option.any_some, Bool.and_eq_false_iff, decide_eq_false_iff_not]
      omega
    refine Or.inr (mem_guards.2 ?_)
    rcases mem_guards.1 hg with hg | hg
    · exact Or.inl (by simp only [forgetWithin, hg, hout, Bool.false_eq_true, if_false])
    · exact Or.inr (by simp only [forgetWithin, hg, hout, Bool.false_eq_true, if_false])

/-- An address on a page of a record is one of its own, if it begins the
page. -/
theorem contains_of_inside (hr : r.Shaped) (ha : Aligned start) (hle : r.base ≤ start)
    (hlt : start < r.stop pageSize) : r.contains start = true := by
  obtain ⟨hbase, hlen⟩ := hr
  simp only [contains, Bool.or_eq_true, beq_iff_eq, Bool.and_eq_true, decide_eq_true_eq]
  simp only [Record.stop, span, limit, roundUp, Aligned, pageSize] at *
  omega

end Record

/-- The last page of a range of whole pages. -/
theorem pageIn_last (hstart : Aligned start) (hstop : Aligned stop) (hlt : start < stop) :
    Aligned (stop - pageSize) ∧ PageIn start stop (pageOf (stop - pageSize)) ∧
      stop - pageSize + pageSize = stop := by
  simp only [PageIn, pageOf, Aligned, pageSize] at *
  omega

/-! ## The four cuts -/

namespace Warden

variable {w : Warden} {h : Handle}

section Cut

variable (hm : w.machine.Clean)

include hm

/-- **A record that lies in the range goes**, and its guards with it. -/
theorem cut_whole (hq : w.store.get? h = some (r.forgetWithin start stop))
    (hle : start ≤ r.base) (hend : r.stop pageSize ≤ stop) (guarded : Bool) :
    (w.cut h start stop guarded).store.get? h = none ∧
      ∀ n, (w.cut h start stop guarded).machine.pageAt n =
        if n * pageSize ∈ (r.forgetWithin start stop).guards then none
        else w.machine.pageAt n := by
  have hend' : (r.forgetWithin start stop).stop pageSize ≤ stop := hend
  have hcut : w.cut h start stop guarded = w.dropRecord h (r.forgetWithin start stop) := by
    unfold cut
    simp only [hq, forgetWithin_forgetWithin, Record.base_forgetWithin]
    rw [if_pos hle, if_pos hend']
  obtain ⟨t, ht⟩ := Store.exists_remove_of_get? hq
  rw [hcut]
  refine ⟨by rw [get?_dropRecord hq, Function.update_self], fun n => ?_⟩
  simp only [dropRecord, ht]
  show (releaseKey _ _).machine.pageAt n = _
  rw [pageAt_releaseKey]
  show (Guard.removeAll w.machine (r.forgetWithin start stop)).2.pageAt n = _
  rw [Guard.removeAll_snd]
  exact Guard.pageAt_foldl_lift (hm.passes_unmap _) n

variable (hr : r.Flanked) (hstart : Aligned start) (hlt : start < stop)
variable (hhole : ∀ n, PageIn start stop n → w.machine.pageAt n = none)

include hr hstart hlt hhole

/-- **A record that loses its head** has its guard below moved up. -/
theorem cut_head (hstop : Aligned stop) (hq : w.store.get? h = some r) (hbase : r.base = start)
    (hend : stop < r.stop pageSize) :
    (w.cut h start stop true).store.get? h =
        some { r.upper stop with guardBelow := some (stop - pageSize) } ∧
      ∀ n, (w.cut h start stop true).machine.pageAt n =
        if n * pageSize = stop - pageSize then some (.fresh .noAccess)
        else if r.guardBelow = some (n * pageSize) then none
        else w.machine.pageAt n := by
  have hsame := Record.forgetWithin_of_inside hr (Nat.le_of_eq hbase) (Nat.le_of_lt hend)
  have hcut : w.cut h start stop true = w.trimHead h r stop true := by
    unfold cut
    simp only [hq, hsame]
    rw [if_pos (Nat.le_of_eq hbase.symm), if_neg (Nat.not_le_of_lt hend)]
  have hlifted : ∀ n, (Guard.removeBelow w.machine r).2.pageAt n =
      if r.guardBelow = some (n * pageSize) then none else w.machine.pageAt n :=
    Guard.pageAt_removeBelow (hm.passes_unmap 1)
  have hclean := hm.calls (Guard.upkeep_removeBelow w.machine r).calls
  obtain ⟨hlast, hin, hnext⟩ := pageIn_last hstart hstop hlt
  have hfree : (Guard.removeBelow w.machine r).2.pageAt (pageOf (stop - pageSize)) = none := by
    rw [hlifted, hhole _ hin, ite_self]
  obtain ⟨hplaced, hpage⟩ := hclean.place hlast hfree
  rw [hcut, trimHead_eq]
  simp only [if_true]
  rw [Guard.placeBelow_eq (r := r.upper stop) hstop rfl hnext]
  constructor
  · show (w.store.modify h _).get? h = _
    rw [Store.get?_modify_eq_update hq, Function.update_self, hplaced]
  · intro n
    refine (hpage n).trans ?_
    rw [hlifted]

variable (hs : r.Shaped)

include hs

/-- **A record that loses its tail** has its guard above moved down. -/
theorem cut_tail (hq : w.store.get? h = some (r.forgetWithin start stop)) (hbase : r.base < start)
    (hend : r.stop pageSize ≤ stop) :
    (w.cut h start stop true).store.get? h =
        some { r.lower start with guardAbove := some start } ∧
      ∀ n, (w.cut h start stop true).machine.pageAt n =
        if n * pageSize = start then some (.fresh .noAccess)
        else if (r.forgetWithin start stop).guardAbove = some (n * pageSize) then none
        else w.machine.pageAt n := by
  let q := r.forgetWithin start stop
  have hend' : q.stop pageSize ≤ stop := hend
  have hcut : w.cut h start stop true = w.trimTail h q start true := by
    unfold cut
    simp only [hq, forgetWithin_forgetWithin, Record.base_forgetWithin]
    rw [if_neg (Nat.not_le_of_lt hbase), if_pos hend']
  have hlower : q.lower start = r.lower start := by
    have hbelow : q.guardBelow = r.guardBelow :=
      Record.guardBelow_forgetWithin hr (Nat.le_of_lt hbase)
    unfold Record.lower
    rw [hbelow]
    rfl
  have hlifted : ∀ n, (Guard.removeAbove w.machine q).2.pageAt n =
      if q.guardAbove = some (n * pageSize) then none else w.machine.pageAt n :=
    Guard.pageAt_removeAbove (hm.passes_unmap 1)
  have hclean := hm.calls (Guard.upkeep_removeAbove w.machine q).calls
  have hedge : (r.lower start).stop pageSize = start := Record.stop_lower hs hstart hbase
  have hin : PageIn start stop (pageOf start) := by
    have hpage := pageOf_mul_pageSize hstart
    exact ⟨by omega, by omega⟩
  have hfree : (Guard.removeAbove w.machine q).2.pageAt (pageOf start) = none := by
    rw [hlifted, hhole _ hin, ite_self]
  obtain ⟨hplaced, hpage⟩ := hclean.place hstart hfree
  rw [hcut, trimTail_eq]
  simp only [if_true, hlower]
  rw [Guard.placeAbove_eq (r := r.lower start) rfl, hedge]
  constructor
  · show (w.store.modify h _).get? h = _
    rw [Store.get?_modify_eq_update hq, Function.update_self, hplaced]
  · intro n
    refine (hpage n).trans ?_
    rw [hlifted]

/-- **A record that loses pages in its middle** is split, and both of the
new edges are guarded if there is room in the hole, and neither if not. -/
theorem cut_middle (hstop : Aligned stop) (hq : w.store.get? h = some r) (hbase : r.base < start)
    (hend : stop < r.stop pageSize) :
    if 2 * pageSize ≤ stop - start then
      (w.cut h start stop true).store.get? h =
          some { r.lower start with guardAbove := some start } ∧
        (w.cut h start stop true).store.get? w.store.nextHandle =
          some { r.upper stop with guardBelow := some (stop - pageSize) } ∧
        ∀ n, (w.cut h start stop true).machine.pageAt n =
          if n * pageSize ∈ [start, stop - pageSize] then some (.fresh .noAccess)
          else w.machine.pageAt n
    else
      (w.cut h start stop true).store.get? h = some (r.lower start) ∧
        (w.cut h start stop true).store.get? w.store.nextHandle = some (r.upper stop) ∧
        ∀ n, (w.cut h start stop true).machine.pageAt n = w.machine.pageAt n := by
  have hsame := Record.forgetWithin_of_inside hr (Nat.le_of_lt hbase) (Nat.le_of_lt hend)
  have hcut : w.cut h start stop true = w.splitRecord h r start stop true := by
    unfold cut
    simp only [hq, hsame]
    rw [if_neg (Nat.not_le_of_lt hbase), if_neg (Nat.not_le_of_lt hend)]
  have hne := Store.ne_nextHandle hq
  rw [hcut, splitRecord_eq]
  split
  · rename_i hroom
    have hedge : (r.lower start).stop pageSize = start := Record.stop_lower hs hstart hbase
    obtain ⟨hlast, hin, hnext⟩ := pageIn_last hstart hstop hlt
    have hfirst : w.machine.pageAt (pageOf start) = none := by
      have hpage := pageOf_mul_pageSize hstart
      exact hhole _ ⟨by omega, by omega⟩
    obtain ⟨hlow, hlowPage⟩ := hm.place hstart hfirst
    have hclean := hm.calls (Guard.calls_place w.machine start)
    have hfree : (Guard.place w.machine start).2.pageAt (pageOf (stop - pageSize)) = none := by
      rw [hlowPage, if_neg, hhole _ hin]
      rw [pageOf_mul_pageSize hlast]
      have hpos := pageSize_pos
      omega
    obtain ⟨hhigh, hhighPage⟩ := hclean.place hlast hfree
    simp only [Bool.true_and, hroom, decide_true, if_true]
    rw [Guard.placeAbove_eq (r := r.lower start) rfl, hedge,
      Guard.placeBelow_eq (r := r.upper stop) hstop rfl hnext]
    simp only [hlow, hhigh, Store.get?_insert_eq_update, Store.nextHandle_modify]
    refine ⟨?_, Function.update_self _ _ _, fun n => ?_⟩
    · rw [Function.update_of_ne hne, Store.get?_modify_eq_update hq, Function.update_self]
    · refine (hhighPage n).trans ?_
      rw [hlowPage]
      by_cases hn : n * pageSize = start <;> by_cases hn' : n * pageSize = stop - pageSize <;>
        simp [hn, hn']
  · rename_i hroom
    simp only [Bool.true_and, hroom, decide_false, Bool.false_eq_true, if_false,
      Store.get?_insert_eq_update, Store.nextHandle_modify]
    refine ⟨?_, Function.update_self _ _ _, fun n => rfl⟩
    rw [Function.update_of_ne hne, Store.get?_modify_eq_update hq, Function.update_self]

end Cut

/-! ## The release -/

/-- Where ranges are disjoint, what is found on a page of a record is that
record. -/
theorem find?_of_inside {a : Nat} (hd : w.store.Disjoint) (hshaped : w.store.Shaped)
    (hr : w.store.get? h = some r) (ha : Aligned a) (hle : r.base ≤ a)
    (hlt : a < r.stop pageSize) : w.store.find? a = some h := by
  obtain ⟨k, hk⟩ := Store.exists_find? hr (Record.contains_of_inside (hshaped h r hr) ha hle hlt)
  obtain ⟨q, hq, hcontains⟩ := Store.get?_of_find? hk
  have hcovers := Record.covers_of_contains (hshaped k q hq) ha hcontains
  have hpage := pageOf_mul_pageSize ha
  have hin : q.base ≤ a ∧ a < q.stop pageSize := ⟨hpage ▸ hcovers.1, hpage ▸ hcovers.2⟩
  by_cases hkh : k = h
  · rw [hk, hkh]
  · have hout := hd k h q r hkh hq hr
    omega

/-- **A release inside of a record**: the range is unmapped and carved out
of the other records, and then this one is cut. If the range ends inside
as well, the next handle is one that found nothing before. -/
theorem remove_inside {a l : Nat} (hactive : w.config.guardPagesActive = true)
    (hclean : w.machine.Clean) (hd : w.store.Disjoint) (hflank : View.Flanked w.store.get?)
    (hr : w.store.get? h = some r) (hle : r.base ≤ a) (hlt : a < r.stop pageSize)
    (hok : (w.remove a l).1 = .ok ()) :
    Aligned a ∧ 0 < l ∧ ∃ v : Warden,
      (w.remove a l).2 = v.cut h a (a + roundUp l pageSize) true ∧ v.machine.Clean ∧
      v.store.get? h = some (r.forgetWithin a (a + roundUp l pageSize)) ∧
      (∀ n, PageIn a (a + roundUp l pageSize) n → v.machine.pageAt n = none) ∧
      (a + roundUp l pageSize ≤ r.stop pageSize → w.store.get? v.store.nextHandle = none) := by
  have hshaped : w.store.Shaped := fun k q hq => (hflank k q hq).1
  have hcache : w.config.useMappingCache = true := by
    unfold Config.guardPagesActive at hactive
    exact (Bool.and_eq_true_iff.1 hactive).2
  rcases w.remove_cases a l with ⟨⟨f, hf⟩, -⟩ | ⟨m, hunmap, -, hv⟩
  · rw [hf] at hok
    cases hok
  · obtain ⟨ha, hlen⟩ := Machine.aligned_of_unmap hunmap
    let u : Warden := { w with machine := m }
    have hfind : u.store.find? a = some h := find?_of_inside hd hshaped hr ha hle hlt
    have hcarve := u.upkeep_carve a (a + roundUp l pageSize) (some h)
    refine ⟨ha, hlen, u.carve a (a + roundUp l pageSize) (some h), ?_,
      (hclean.calls (Machine.calls_of_unmap hunmap)).calls hcarve.calls,
      get?_carve_keep (w := u) hr _ _, fun n hn => ?_, fun hend => ?_⟩
    · rw [hv, if_pos hcache]
      unfold vacate
      simp only
      rw [hfind]
      show Warden.cut _ _ _ _ w.config.guardPagesActive = _
      rw [hactive]
    · refine Machine.rightsAt_eq_none_iff.1 ?_
      rw [rightsAt_carve hn, Machine.rightsAt_unmap hunmap, if_pos hn]
    · -- the range lies in this record, so the others keep theirs and no handle is given out
      have halone : ∀ k q, u.store.get? k = some q → some k ≠ some h →
          ¬ q.Meets a (a + roundUp l pageSize) := by
        intro k q hq hne hmeets
        have hout := hd k h q r (fun heq => hne (congrArg some heq)) hq hr
        have hmeet : q.base < a + roundUp l pageSize ∧ a < q.stop pageSize := hmeets
        omega
      have hnext := Store.get?_nextHandle (u.carve a (a + roundUp l pageSize) (some h)).store
      have hforgot := get?_forgetGuards u a (a + roundUp l pageSize)
        (u.carve a (a + roundUp l pageSize) (some h)).store.nextHandle
      rw [← carve_of_alone halone, hnext] at hforgot
      exact Option.map_eq_none_iff.1 hforgot.symm

/-- **The guards follow the edges.** Where guards are placed and succeed,
records are disjoint and each is flanked by its guards, a release that
starts inside of a record, however far it goes, leaves of that record one
of four things. If it takes all of it, the record is gone and so are the
pages of both its guards. If it takes the head, the rest is guarded below
on the last page of the hole; if it takes the tail, the rest is guarded
above on the first one; and the guard that was on that side is unmapped.
If it takes a part in the middle, each side stays with its outer guard,
and in a hole of two pages or more with an inner one. No other page of the
range is mapped then. -/
theorem guards_follow_edges {a l : Nat} (hactive : w.config.guardPagesActive = true)
    (hclean : w.machine.Clean) (hd : w.store.Disjoint) (hflank : View.Flanked w.store.get?)
    (hr : w.store.get? h = some r) (hle : r.base ≤ a) (hlt : a < r.stop pageSize)
    (hok : (w.remove a l).1 = .ok ()) :
    let stop := a + roundUp l pageSize
    let v := (w.remove a l).2
    (r.base = a → r.stop pageSize ≤ stop →
      v.store.get? h = none ∧ v.machine.Walled a stop [] ∧
        ∀ g ∈ r.guards, v.machine.pageAt (pageOf g) = none) ∧
    (r.base = a → stop < r.stop pageSize →
      v.store.get? h = some { r.upper stop with guardBelow := some (stop - pageSize) } ∧
        v.machine.Walled a stop [stop - pageSize] ∧
        ∀ g, r.guardBelow = some g → v.machine.pageAt (pageOf g) = none) ∧
    (r.base < a → r.stop pageSize ≤ stop →
      v.store.get? h = some { r.lower a with guardAbove := some a } ∧
        v.machine.Walled a stop [a] ∧
        ∀ g, r.guardAbove = some g → v.machine.pageAt (pageOf g) = none) ∧
    (r.base < a → stop < r.stop pageSize →
      ∃ k, w.store.get? k = none ∧
        if 2 * pageSize ≤ stop - a then
          v.store.get? h = some { r.lower a with guardAbove := some a } ∧
            v.store.get? k = some { r.upper stop with guardBelow := some (stop - pageSize) } ∧
            v.machine.Walled a stop [a, stop - pageSize]
        else
          v.store.get? h = some (r.lower a) ∧ v.store.get? k = some (r.upper stop) ∧
            v.machine.Walled a stop []) := by
  intro stop v
  obtain ⟨hshape, hguards⟩ := hflank h r hr
  obtain ⟨ha, hlen, u, hu, hclean', hq, hhole, hnew⟩ :=
    remove_inside hactive hclean hd hflank hr hle hlt hok
  have hstop : Aligned stop := ha.add_roundUp l
  have hlong : a < stop := by
    have hround := le_roundUp l
    show a < a + roundUp l pageSize
    omega
  have hv : v = u.cut h a stop true := hu
  have halign : ∀ {g}, g ∈ r.guards → pageOf g * pageSize = g := fun hg =>
    pageOf_mul_pageSize (hguards.aligned hshape.1 (Record.mem_guards.1 hg))
  have hwalled : ∀ {n}, PageIn a stop n → u.machine.pageAt n = none := fun hn => hhole _ hn
  rw [hv]
  refine ⟨fun hbase hend => ?_, fun hbase hend => ?_, fun hbase hend => ?_, fun hbase hend => ?_⟩
  · -- the whole of it
    obtain ⟨hgone, hpage⟩ := cut_whole hclean' hq (Nat.le_of_eq hbase.symm) hend true
    refine ⟨hgone, fun n hn => ?_, fun g hg => ?_⟩
    · rw [hpage, hwalled hn, ite_self, if_neg List.not_mem_nil]
    · rw [hpage, halign hg]
      rcases Record.mem_guards_forgetWithin hg with hin | hkept
      · rw [hwalled (by rw [PageIn, halign hg]; exact hin), ite_self]
      · exact if_pos hkept
  · -- its head
    have hsame : r.forgetWithin a stop = r := Record.forgetWithin_of_inside hguards hle
      (Nat.le_of_lt hend)
    have hq' : u.store.get? h = some r := hq.trans (congrArg some hsame)
    obtain ⟨hrest, hpage⟩ :=
      cut_head hclean' hguards ha hlong hhole hstop hq' hbase hend
    refine ⟨hrest, fun n hn => ?_, fun g hg => ?_⟩
    · rw [hpage, hwalled hn, ite_self]
      exact if_congr List.mem_singleton.symm rfl rfl
    · have hbelow := hguards.below hg
      rw [hpage, halign (Record.mem_guards.2 (Or.inl hg)), if_neg, if_pos hg]
      omega
  · -- its tail, and what lies behind it
    obtain ⟨hrest, hpage⟩ := cut_tail hclean' hguards ha hlong hhole hshape hq hbase hend
    refine ⟨hrest, fun n hn => ?_, fun g hg => ?_⟩
    · rw [hpage, hwalled hn, ite_self]
      exact if_congr List.mem_singleton.symm rfl rfl
    · have habove := hguards.above hg
      have hmem := Record.mem_guards.2 (Or.inr hg)
      rw [hpage, halign hmem, if_neg (by omega)]
      -- it went with the range, or the range ends right before it
      rcases Nat.lt_or_ge g stop with hin | hout
      · rw [hwalled (by rw [PageIn, halign hmem]; omega), ite_self]
      · rw [Record.guardAbove_forgetWithin hguards (by omega), if_pos hg]
  · -- its middle: the upper part goes to a handle of its own
    have hsame : r.forgetWithin a stop = r := Record.forgetWithin_of_inside hguards hle
      (Nat.le_of_lt hend)
    have hq' : u.store.get? h = some r := hq.trans (congrArg some hsame)
    have hmiddle := cut_middle hclean' hguards ha hlong hhole hshape hstop hq' hbase hend
    refine ⟨u.store.nextHandle, hnew (Nat.le_of_lt hend), ?_⟩
    split
    · rename_i hroom
      rw [if_pos hroom] at hmiddle
      obtain ⟨hlow, hhigh, hpage⟩ := hmiddle
      refine ⟨hlow, hhigh, fun n hn => ?_⟩
      rw [hpage, hwalled hn]
    · rename_i hroom
      rw [if_neg hroom] at hmiddle
      obtain ⟨hlow, hhigh, hpage⟩ := hmiddle
      refine ⟨hlow, hhigh, fun n hn => ?_⟩
      rw [hpage, hwalled hn, if_neg List.not_mem_nil]

/-- Three neighbours, and a release from the second page of the lowest
through the middle one into the first page of the highest: the lowest has
its tail guarded on the first page of the hole. In a hole of one page
neither edge is guarded. -/
theorem edges_of_neighbours :
    let far := neighbours.remove 0x7effffff7000 28000
    let narrow := neighbours.remove 0x7effffffe000 100
    (far.2.store.get? ⟨2, 0⟩ =
        some { Record.fresh 0x7effffff6000 4096 .read with
          guardBelow := some 0x7effffff5000, guardAbove := some 0x7effffff7000 } ∧
      far.2.machine.Walled 0x7effffff7000 0x7effffffe000 [0x7effffff7000]) ∧
    ∃ k, neighbours.store.get? k = none ∧
      narrow.2.store.get? ⟨0, 0⟩ =
        some { Record.fresh 0x7effffffd000 4096 .readWrite with
          guardBelow := some 0x7effffffc000 } ∧
      narrow.2.store.get? k =
        some { Record.fresh 0x7efffffff000 1808 .readWrite with
          guardAbove := some 0x7f0000000000 } ∧
      narrow.2.machine.Walled 0x7effffffe000 0x7efffffff000 [] := by
  have hclean : neighbours.machine.Clean :=
    (Machine.Clean.mk rfl rfl rfl : Machine.Clean { space := .emptyWithKeys }).calls
      calls_neighbours
  have hflank : View.Flanked neighbours.store.get? := flanked_run rfl _
  have hlowest : neighbours.store.get? ⟨2, 0⟩ =
      some { Record.fresh 0x7effffff6000 5000 .read with guardBelow := some 0x7effffff5000 } := by
    decide +kernel
  have hhighest : neighbours.store.get? ⟨0, 0⟩ =
      some { Record.fresh 0x7effffffd000 10000 .readWrite with
        guardBelow := some 0x7effffffc000, guardAbove := some 0x7f0000000000 } := by
    decide +kernel
  obtain ⟨-, -, htail, -⟩ := guards_follow_edges (a := 0x7effffff7000) (l := 28000) rfl hclean
    disjoint_neighbours hflank hlowest (by decide) (by decide) rfl
  obtain ⟨hfar, hwall, -⟩ := htail (by decide) (by decide)
  obtain ⟨-, -, -, hmiddle⟩ := guards_follow_edges (a := 0x7effffffe000) (l := 100) rfl hclean
    disjoint_neighbours hflank hhighest (by decide) (by decide) rfl
  obtain ⟨k, hk, hnarrow⟩ := hmiddle (by decide) (by decide)
  rw [if_neg (by decide)] at hnarrow
  exact ⟨⟨hfar, hwall⟩, k, hk, hnarrow⟩

end Warden

end PageWarden
