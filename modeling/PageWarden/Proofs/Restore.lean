import PageWarden.Proofs.Chart
import PageWarden.Proofs.Flank
import PageWarden.Proofs.Guard.Page
/-!
# Restoring — a move that is refused leaves no trace

Before a move the guards of the record it is about are really unmapped,
since they could stop the mapping from growing. If the move is refused
they are placed again, where the record still lies. A record whose guards
were intact (`Machine.Intact`) gets both of them back, each on the page
it had, and the store and the pages are what they were before
(`relocate_refused`).
-/

namespace PageWarden

/-- A record written over and written back is as it was. -/
theorem Store.modify_back {s : Store} {h : Handle} {r : Record} (hr : s.get? h = some r)
    (q : Record) : ((s.modify h fun _ => q).modify h fun _ => r) = s := by
  obtain ⟨slots, free, vacancies⟩ := s
  have hslot : slots[h.index]? = some ⟨h.generation, some r⟩ := get?_eq_some_iff.1 hr
  have hslots : (slots.modify h.index (Slot.change h.generation fun _ => q)).modify h.index
      (Slot.change h.generation fun _ => r) = slots := by
    refine List.ext_getElem? fun i => ?_
    rw [List.getElem?_modify, List.getElem?_modify]
    by_cases hi : h.index = i
    · subst hi
      simp [hslot, Slot.change]
    · simp [hi]
  simp only [modify, hslots]

/-- **The guards of the record are intact**: they lie on its flanks, and
their pages are as they were mapped. -/
structure Machine.Intact (m : Machine) (r : Record) : Prop where
  aligned : Aligned r.base
  flanked : r.Flanked
  untouched : ∀ g ∈ r.guards, m.pageAt (pageOf g) = some (.fresh .noAccess)

namespace Record

variable {r : Record} {g : Nat}

/-- The two flanks are two pages. -/
theorem Flanked.below_ne_above (hr : r.Flanked) {a : Nat} (hg : r.guardBelow = some g)
    (ha : r.guardAbove = some a) : g ≠ a := by
  have hbelow := hr.below hg
  have habove := hr.above ha
  have hpos := pageSize_pos
  simp only [Record.stop] at habove
  omega

end Record

namespace Guard

variable {m : Machine} {r s : Record}

/-! ## Placing guards again -/

/-- **The guard below comes back**, if there was one. -/
theorem placeBelow_again (hbase : Aligned s.base) (hs : s.guardBelow = none)
    (hflank : ∀ {g}, r.guardBelow = some g → g + pageSize = s.base)
    (hknown : m.platform.honoursNoReplace = true) {count : Nat}
    (hm : m.Passes .map (r.guardBelow.toList.length + count))
    (hfree : ∀ g, r.guardBelow = some g → m.pageAt (pageOf g) = none) :
    let lower := if r.guardBelow.isSome then placeBelow m s else (s, m)
    lower.1 = { s with guardBelow := r.guardBelow } ∧
      (∀ n, lower.2.pageAt n =
        if r.guardBelow = some (n * pageSize) then some (.fresh .noAccess) else m.pageAt n) ∧
      lower.2.Passes .map count ∧ lower.2.platform = m.platform := by
  cases hguard : r.guardBelow with
  | none =>
    rw [hguard] at hm
    refine ⟨?_, fun n => rfl, hm.mono (Nat.le_add_left _ _), rfl⟩
    show s = _
    rw [← hs]
  | some g =>
    have hg := hflank hguard
    rw [hguard] at hm
    have ha : Aligned g := by
      simp only [Aligned, pageSize] at *
      omega
    obtain ⟨hplaced, hpage, hfaults⟩ := place_of_free hknown (hm.mono (Nat.le_add_right _ _)) ha
      (hfree g hguard)
    show (placeBelow m s).1 = _ ∧ (∀ n, (placeBelow m s).2.pageAt n = _) ∧
      (placeBelow m s).2.Passes .map count ∧ (placeBelow m s).2.platform = m.platform
    rw [placeBelow_eq hbase hs hg]
    refine ⟨by rw [hplaced], fun n => ?_, ?_, (calls_place m g).platform⟩
    · rw [hpage]
      exact if_congr (by rw [Option.some.injEq, eq_comm]) rfl rfl
    · rw [Option.toList_some, List.length_singleton, Nat.add_comm] at hm
      exact hm.tail hfaults

/-- **The guard above comes back**, if there was one. -/
theorem placeAbove_again (hbase : Aligned s.base) (hs : s.guardAbove = none)
    (hflank : ∀ {g}, r.guardAbove = some g → g = s.stop pageSize)
    (hknown : m.platform.honoursNoReplace = true)
    (hm : m.Passes .map r.guardAbove.toList.length)
    (hfree : ∀ g, r.guardAbove = some g → m.pageAt (pageOf g) = none) :
    let both := if r.guardAbove.isSome then placeAbove m s else (s, m)
    both.1 = { s with guardAbove := r.guardAbove } ∧
      ∀ n, both.2.pageAt n =
        if r.guardAbove = some (n * pageSize) then some (.fresh .noAccess) else m.pageAt n := by
  cases hguard : r.guardAbove with
  | none =>
    refine ⟨?_, fun n => rfl⟩
    show s = _
    rw [← hs]
  | some g =>
    obtain rfl := hflank hguard
    rw [hguard] at hm
    have ha : Aligned (s.stop pageSize) := hbase.add_roundUp s.length
    obtain ⟨hplaced, hpage, -⟩ := place_of_free hknown hm ha (hfree _ hguard)
    show (placeAbove m s).1 = _ ∧ ∀ n, (placeAbove m s).2.pageAt n = _
    rw [placeAbove_eq hs]
    refine ⟨by rw [hplaced], fun n => ?_⟩
    rw [hpage]
    exact if_congr (by rw [Option.some.injEq, eq_comm]) rfl rfl

end Guard

namespace Warden

variable {w : Warden} {h : Handle} {r : Record}

/-- **The guards of a record come back** to their pages, if these are free
and the machine knows how to place them. -/
theorem restoreGuards_of_free (hr : w.store.get? h = some r.bare) (hbase : Aligned r.base)
    (hflank : r.Flanked) (hknown : w.machine.platform.honoursNoReplace = true)
    (hm : w.machine.Passes .map r.guards.length)
    (hfree : ∀ g ∈ r.guards, w.machine.pageAt (pageOf g) = none) :
    (w.restoreGuards h r.guardBelow.isSome r.guardAbove.isSome).store =
        (w.store.modify h fun _ => r) ∧
      ∀ n, (w.restoreGuards h r.guardBelow.isSome r.guardAbove.isSome).machine.pageAt n =
        if n * pageSize ∈ r.guards then some (.fresh .noAccess) else w.machine.pageAt n := by
  rw [Record.guards, List.length_append] at hm
  have hlower := Guard.placeBelow_again (s := r.bare) (r := r) hbase rfl hflank.below hknown hm
    fun g hg => hfree g (Record.mem_guards.2 (Or.inl hg))
  unfold restoreGuards
  simp only [hr]
  generalize (if r.guardBelow.isSome then Guard.placeBelow w.machine r.bare
    else (r.bare, w.machine)) = lower at hlower ⊢
  obtain ⟨hlow, hlowPage, hlowPasses, hlowPlatform⟩ := hlower
  have habove : ∀ {g}, r.guardAbove = some g → g = lower.1.stop pageSize := by
    intro g hg
    rw [hlow]
    exact hflank.above hg
  have hboth := Guard.placeAbove_again (m := lower.2) (s := lower.1) (r := r)
    (by rw [hlow]; exact hbase) (by rw [hlow]; rfl) habove (hlowPlatform ▸ hknown) hlowPasses ?_
  · obtain ⟨hrecord, hpage⟩ := hboth
    refine ⟨?_, fun n => ?_⟩
    · show w.store.modify h _ = _
      rw [hrecord, hlow]
      rfl
    · rw [hpage, hlowPage]
      by_cases hb : r.guardBelow = some (n * pageSize) <;>
        by_cases ha : r.guardAbove = some (n * pageSize) <;> simp [Record.mem_guards, hb, ha]
  · -- the guard below was placed on a page of its own
    intro a ha
    have halign := hflank.aligned hbase (Or.inr ha)
    rw [hlowPage, pageOf_mul_pageSize halign, if_neg]
    · exact hfree a (Record.mem_guards.2 (Or.inr ha))
    · exact fun hb => hflank.below_ne_above hb ha rfl

section Lifted

variable {address : Nat} (hfind : w.store.find? address = some h) (hr : w.store.get? h = some r)

include hfind hr

/-- The store once the guards of the record are lifted. -/
theorem store_lifted : (w.lifted address).store = w.store.modify h fun _ => r.bare := by
  unfold lifted
  simp only [hfind]
  unfold liftGuards
  simp only [hr, Guard.removeAll_fst]

/-- The pages once the guards of the record are lifted. -/
theorem pageAt_lifted (hm : w.machine.Passes .unmap r.guards.length) (n : Nat) :
    (w.lifted address).machine.pageAt n =
      if n * pageSize ∈ r.guards then none else w.machine.pageAt n := by
  rw [(lifted_of_find? hfind hr).2, Guard.removeAll_snd]
  exact Guard.pageAt_foldl_lift hm n

/-- **Lifting and putting back the guards of an intact record** cancel, if
nothing in between changes a page. -/
theorem restoreGuards_lifted {m : Machine} (hknown : m.platform.honoursNoReplace = true)
    (hintact : w.machine.Intact r) (hunmaps : w.machine.Passes .unmap r.guards.length)
    (hmaps : m.Passes .map r.guards.length)
    (hsame : m.space.table = (w.lifted address).machine.space.table) :
    let v := restoreGuards { w.lifted address with machine := m } h r.guardBelow.isSome
      r.guardAbove.isSome
    v.store = w.store ∧ v.machine.space.table = w.machine.space.table := by
  have hpage : ∀ n, m.pageAt n = if n * pageSize ∈ r.guards then none else w.machine.pageAt n := by
    intro n
    rw [← pageAt_lifted hfind hr hunmaps, Machine.pageAt, hsame, Machine.pageAt]
  have hfree : ∀ g ∈ r.guards, m.pageAt (pageOf g) = none := by
    intro g hg
    have ha := hintact.flanked.aligned hintact.aligned (Record.mem_guards.1 hg)
    rw [hpage, pageOf_mul_pageSize ha, if_pos hg]
  have hbare : (w.lifted address).store.get? h = some r.bare := by
    rw [(lifted_of_find? hfind hr).1, Function.update_self]
  obtain ⟨hstore, hpages⟩ :=
    restoreGuards_of_free (w := { w.lifted address with machine := m }) hbare hintact.aligned
      hintact.flanked hknown hmaps hfree
  constructor
  · rw [hstore]
    show ((w.lifted address).store.modify h fun _ => r) = w.store
    rw [store_lifted hfind hr, Store.modify_back hr]
  · refine PageTable.ext_get? fun n => (hpages n).trans ?_
    show (if n * pageSize ∈ r.guards then some (.fresh .noAccess) else m.pageAt n) =
      w.machine.pageAt n
    split
    · rename_i hn
      have huntouched := hintact.untouched _ hn
      rw [pageOf_start] at huntouched
      exact huntouched.symm
    · rename_i hn
      rw [hpage, if_neg hn]

end Lifted

/-- **A move that is refused leaves no trace.** Where the record at the
start of the range, if there is one, has its guards intact, the system
knows how to place them, and none of the calls about them meets a fault:
if the machine refuses the move, for whatever reason, and leaves the pages
alone, then the request fails with the machine's error, and all records
with all their guards, and all pages, are what they were. -/
theorem relocate_refused {q : MoveRequest} {errno : Errno} {m : Machine}
    (hcache : w.config.useMappingCache = true)
    (hknown : w.machine.platform.honoursNoReplace = true)
    (hintact : ∀ r, w.lookup q.address = some r → w.machine.Intact r)
    (hpasses : ∀ r, w.lookup q.address = some r →
      w.machine.Passes .unmap r.guards.length ∧ w.machine.Passes .map r.guards.length)
    (hmove : (w.lifted q.address).machine.move q = (.error errno, m))
    (hsame : m.space.table = (w.lifted q.address).machine.space.table) :
    (w.relocate q).1 = .error (.callFailed "mremap" errno) ∧
      (w.relocate q).2.store = w.store ∧
      (w.relocate q).2.machine.space.table = w.machine.space.table := by
  rw [relocate_eq w q hcache, hmove]
  refine ⟨rfl, ?_⟩
  let restored := restore { w.lifted q.address with machine := m } (w.store.find? q.address)
    (w.hasBelow q.address) (w.hasAbove q.address)
  show restored.store = w.store ∧ restored.machine.space.table = w.machine.space.table
  cases hfind : w.store.find? q.address with
  | none =>
    simp only [restored, hfind]
    rw [lifted_of_not_find? hfind] at hsame ⊢
    exact ⟨rfl, hsame⟩
  | some h =>
    obtain ⟨r, hr, -⟩ := Store.get?_of_find? hfind
    have hlookup : w.lookup q.address = some r := by
      rw [lookup, Store.lookup, hfind, Option.bind_some, hr]
    obtain ⟨hunmaps, hmaps⟩ := hpasses r hlookup
    have hmachine := (lifted_of_find? hfind hr).2
    -- neither the lifting nor the move uses up a fault that is due for a mapping
    have hfaults : m.faults .map = w.machine.faults .map := by
      rw [Machine.faults_of_move hmove (by decide), hmachine, Guard.removeAll_snd,
        Guard.faults_foldl_lift _ _ (by decide)]
    have hplatform : m.platform = w.machine.platform := by
      rw [(Machine.calls_of_move hmove).platform, hmachine]
      exact (Guard.upkeep_removeAll w.machine r).calls.platform
    have hrestored := restoreGuards_lifted hfind hr (hplatform ▸ hknown) (hintact r hlookup)
      hunmaps (hmaps.congr hfaults) hsame
    simp only [restored, hfind, hasBelow, hasAbove, hlookup, Option.any_some]
    exact hrestored

set_option maxRecDepth 16000 in
/-- Of two neighbours one cannot grow in place, since the guard of the other
is in the way; and the other, which has a guard on either side, cannot be
resized to nothing. -/
theorem guards_back_after_refusal :
    let blocked := neighbours.relocate ⟨0x7effffff9000, 9000, 20000, ⟨0⟩, 0⟩
    let empty := neighbours.relocate ⟨0x7effffffd000, 10000, 0, ⟨0⟩, 0⟩
    (blocked.1 = .error (.callFailed "mremap" Errno.nomem) ∧
        blocked.2.store = neighbours.store ∧
        blocked.2.machine.space.table = neighbours.machine.space.table) ∧
      empty.1 = .error (.callFailed "mremap" Errno.inval) ∧
        empty.2.store = neighbours.store ∧
        empty.2.machine.space.table = neighbours.machine.space.table := by
  have hfaults : neighbours.machine.faults = .never := faults_run rfl _
  have hpasses : ∀ p count, neighbours.machine.Passes p count :=
    fun p => Machine.passes_of_unscheduled (congrFun hfaults p)
  have hflanks : ∀ e ∈ neighbours.store.entries, Aligned e.2.base ∧
      (∀ g ∈ e.2.guardBelow, g + pageSize = e.2.base) ∧
      ∀ g ∈ e.2.guardAbove, g = e.2.stop pageSize := by decide +kernel
  have hguards : ∀ e ∈ neighbours.store.entries, ∀ g ∈ e.2.guards,
      g ∈ [0x7effffffc000, 0x7f0000000000, 0x7effffff8000, 0x7effffff5000] := by decide +kernel
  have huntouched : ∀ g ∈ [0x7effffffc000, 0x7f0000000000, 0x7effffff8000, 0x7effffff5000],
      neighbours.machine.pageAt (pageOf g) = some (.fresh .noAccess) := by
    simp only [List.forall_mem_cons]
    exact ⟨rfl, rfl, rfl, rfl, fun g hg => absurd hg List.not_mem_nil⟩
  have hintact : ∀ {a} r, neighbours.lookup a = some r → neighbours.machine.Intact r := by
    intro a r hr
    obtain ⟨h, -, hget⟩ := Option.bind_eq_some_iff.1 hr
    have hmem := Store.mem_entries_iff.2 hget
    obtain ⟨ha, hbelow, habove⟩ := hflanks _ hmem
    exact ⟨ha, ⟨fun hg => hbelow _ hg, fun hg => habove _ hg⟩,
      fun g hg => huntouched g (hguards _ hmem g hg)⟩
  have hrefused : ∀ (q : MoveRequest) (e : Errno),
      ((neighbours.lifted q.address).machine.move q).1 = .error e → q.flags.mayMove = false →
        (neighbours.relocate q).1 = .error (.callFailed "mremap" e) ∧
        (neighbours.relocate q).2.store = neighbours.store ∧
        (neighbours.relocate q).2.machine.space.table = neighbours.machine.space.table := by
    intro q e he hstay
    have hmove : (neighbours.lifted q.address).machine.move q =
        (.error e, ((neighbours.lifted q.address).machine.move q).2) := Prod.ext he rfl
    exact relocate_refused rfl rfl hintact (fun r _ => ⟨hpasses _ _, hpasses _ _⟩) hmove
      (Machine.table_of_move_error hmove hstay)
  exact ⟨hrefused _ _ rfl rfl, hrefused _ _ rfl rfl⟩

end Warden

end PageWarden
