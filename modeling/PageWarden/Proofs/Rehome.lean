import PageWarden.Proofs.Edge
import PageWarden.Proofs.Guard.Reversal
/-!
# Rehoming — a mapping that moves takes its record along

A move of a mapping that begins where a record begins is a move of that
record. Its guards are lifted first, so that they cannot stop it from
growing; then the machine moves the pages; then the new range is carved
out of the other records, of which this one is spared; and only then the
record is given its new range and new guards.

Of what is tracked this changes three things and no other
(`relocate_whole`): the old range is tracked no more, unless the new one
takes it in, the new range is tracked as the old one was, and what other
records had there they have lost. The ranges may overlap. Where nothing
fails, the record is guarded on each side on which there is a page, and
nothing was left on it.
-/

namespace PageWarden

namespace Guard

variable {m : Machine} {r : Record} {g : Nat}

section Bare

variable (hm : m.Clean) (hs : r.Shaped) (hbare : r.bare = r)

include hm hs hbare

/-- **A record is guarded below** exactly if there is a page and it is free. -/
theorem guardBelow_placeAll_iff :
    (placeAll m r).1.guardBelow = some g ↔
      g + pageSize = r.base ∧ m.pageAt (pageOf g) = none := by
  have hnone : r.guardBelow = none := by
    rw [← hbare]
    rfl
  constructor
  · intro hg
    exact ⟨add_pageSize_of_guardBelow hs hbare hg,
      (placeAll_shows hm.unmaps hbare).2 g (Record.mem_guards.2 (Or.inl hg))⟩
  · rintro ⟨hflank, hfree⟩
    have ha : Aligned g := aligned_below hs.1 hflank
    rw [placeAll, guardBelow_placeAbove, placeBelow_eq hs.1 hnone hflank]
    exact (place_eq_some_iff (hm.passes_map 1) (Or.inl hm.known) ha).2 hfree

/-- **It is guarded above** exactly if the first page past it is free. -/
theorem guardAbove_placeAll_iff :
    (placeAll m r).1.guardAbove = some g ↔
      g = r.stop pageSize ∧ m.pageAt (pageOf g) = none := by
  have hnone : r.guardBelow = none ∧ r.guardAbove = none := by
    rw [← hbare]
    exact ⟨rfl, rfl⟩
  have hstop : (placeBelow m r).1.bare.stop pageSize = r.bare.stop pageSize := by
    rw [bare_placeBelow]
  constructor
  · intro hg
    exact ⟨eq_stop_of_guardAbove hs hbare hg,
      (placeAll_shows hm.unmaps hbare).2 g (Record.mem_guards.2 (Or.inr hg))⟩
  · rintro ⟨rfl, hfree⟩
    have ha : Aligned (r.stop pageSize) := hs.1.add_roundUp r.length
    have hm' : (placeBelow m r).2.Clean := hm.calls (upkeep_placeBelow m r).calls
    -- the guard below, if it was placed, lies on another page
    have hstill : (placeBelow m r).2.pageAt (pageOf (r.stop pageSize)) = none := by
      rw [(placeBelow_shows hm.unmaps hnone.1).1, if_neg]
      · exact hfree
      · intro hg
        rw [pageOf_mul_pageSize ha] at hg
        have hflank := (flanked_placeBelow (Record.flanked_of_bare hbare) hs m).below hg
        have hbase : (placeBelow m r).1.bare.base = r.bare.base := by rw [bare_placeBelow]
        have hbase : (placeBelow m r).1.base = r.base := hbase
        have hle : r.base ≤ r.stop pageSize := Nat.le_add_right _ _
        have hpos := pageSize_pos
        omega
    rw [placeAll, placeAbove_eq ((guardAbove_placeBelow m r).trans hnone.2)]
    show (place (placeBelow m r).2 ((placeBelow m r).1.bare.stop pageSize)).1 = _
    rw [hstop]
    exact (place_eq_some_iff (hm'.passes_map 1) (Or.inl hm'.known) ha).2 hstill

end Bare

end Guard

namespace Store

variable {s t : Store} {h : Handle} {r : Record}

/-- Where records are apart, what the others say of a page is what the
chart says, off the pages of this one. -/
theorem charts_some_iff (hs : s.Apart) (hr : s.get? h = some r) {n : Nat} {x : Marking} :
    s.Charts (some h) n x ↔ s.chart n = some x ∧ ¬ r.Covers n := by
  rw [chart_eq_some_iff hs]
  constructor
  · rintro ⟨k, q, hk, hq, hn, hx⟩
    refine ⟨⟨k, q, Option.some_ne_none k, hq, hn, hx⟩, fun hcov => hk (congrArg some ?_)⟩
    exact hs k h _ _ n (bare?_of_get? hq) (bare?_of_get? hr) hn hcov
  · rintro ⟨⟨k, q, -, hq, hn, hx⟩, hout⟩
    refine ⟨k, q, fun hk => hout ?_, hq, hn, hx⟩
    obtain rfl := Option.some.inj hk
    obtain rfl : q = r := Option.some.inj (hq.symm.trans hr)
    exact hn

/-- The chart is a matter of the records without their guards. -/
theorem chart_congr (ht : t.Apart) (hst : s.bare? = t.bare?) : s.chart = t.chart :=
  chart_eq_of_charts (apart_congr hst ht) fun _ _ =>
    (charts_congr hst).trans (chart_eq_some_iff ht).symm

end Store

namespace Warden

variable {w : Warden} {h : Handle} {r : Record} {q : MoveRequest} {moved : Nat} {m : Machine}

/-- A record without guards that follows the whole of its mapping is guarded
anew, if the configuration asks for guards. -/
theorem get?_follow_whole (hr : w.store.get? h = some r) (hbare : r.bare = r)
    (hwhole : r.base = q.address ∧ r.span pageSize = roundUp q.length pageSize) (moved : Nat) :
    (w.follow h q moved).store.get? h = some
      (if w.config.guardPagesActive then
        (Guard.placeAll w.machine { r with base := moved, length := q.newLength }).1
      else { r with base := moved, length := q.newLength }) := by
  unfold follow
  simp only [hr, if_pos hwhole, Guard.rehome, Guard.removeAll_of_bare hbare]
  show (w.store.modify h fun _ => _).get? h = _
  rw [Store.get?_modify_eq_update hr, Function.update_self]
  split <;> rfl

/-- **A record that follows its mapping** takes its marking from the old
range to the new one, whatever was marked there. -/
theorem chart_resettle (hs : w.store.Shaped) (hw : w.store.Apart) (hr : w.store.get? h = some r)
    (ha : Aligned moved) :
    (w.resettle (some h) q moved).store.chart =
      overwrite (overwrite w.store.chart r.base (r.stop pageSize) none) moved
        (moved + roundUp q.newLength pageSize) (some r.marking) := by
  refine Store.chart_eq_of_charts (apart_resettle hs hw ha (live_some hr)) fun n x => ?_
  rw [Store.charts_update_iff (bare?_resettle hr),
    charts_carve hs ha (ha.add_roundUp _) (live_some hr), Store.charts_some_iff hw hr]
  show (PageIn moved (moved + roundUp q.newLength pageSize) n ∧ r.marking = x) ∨ _ ↔ _
  unfold overwrite
  by_cases hnew : PageIn moved (moved + roundUp q.newLength pageSize) n
  · rw [if_pos hnew, Option.some.injEq]
    exact ⟨fun hx => (hx.resolve_right fun hout => hout.2 hnew).2, fun hx => Or.inl ⟨hnew, hx⟩⟩
  · rw [if_neg hnew]
    by_cases hold : r.Covers n
    · have hin : PageIn r.base (r.stop pageSize) n := hold
      rw [if_pos hin]
      exact ⟨fun hx => hx.elim (fun hx => absurd hx.1 hnew) fun hx => absurd hold hx.1.2, nofun⟩
    · have hout : ¬ PageIn r.base (r.stop pageSize) n := hold
      rw [if_neg hout]
      exact ⟨fun hx => hx.elim (fun hx => absurd hx.1 hnew) fun hx => hx.1.1,
        fun hx => Or.inr ⟨⟨hx, hold⟩, hnew⟩⟩

/-- Before the move the record that was found loses its guards. -/
theorem get?_lifted (hfind : w.store.find? q.address = some h) (hr : w.store.get? h = some r) :
    (w.lifted q.address).store.get? h = some r.bare := by
  rw [(lifted_of_find? hfind hr).1, Function.update_self]

/-- **The stages of a move that succeeded**: once the new range is carved out
of the other records, the record that was found is there without its
guards, and follows. -/
theorem relocate_stages (hcache : w.config.useMappingCache = true)
    (hfind : w.store.find? q.address = some h) (hr : w.store.get? h = some r)
    (hmove : (w.lifted q.address).machine.move q = (.ok moved, m)) :
    let carved := carve { w.lifted q.address with machine := m } moved
      (moved + roundUp q.newLength pageSize) (some h)
    (w.relocate q).2 = carved.follow h q moved ∧ carved.store.get? h = some r.bare ∧
      carved.config = w.config ∧ w.machine.Calls carved.machine := by
  intro carved
  let v : Warden := { w.lifted q.address with machine := m }
  have hv : v.store.get? h = some r.bare := get?_lifted hfind hr
  have hcalls : w.machine.Calls v.machine :=
    (upkeep_lifted w q.address).calls.trans (Machine.calls_of_move hmove)
  refine ⟨?_, ?_, ?_, ?_⟩
  · rw [(relocate_of_move hcache hmove).2, hfind]
    rfl
  · exact get?_carve_keep hv moved (moved + roundUp q.newLength pageSize)
  · exact (config_carve _ _ _ _).trans (config_lifted w q.address)
  · exact hcalls.trans (upkeep_carve v moved (moved + roundUp q.newLength pageSize) (some h)).calls

/-- **A mapping that moves as a whole takes its record along**, and nothing
else is lost. If a request that names the pages of a record moves them to
`moved`, the record is found under its handle as before, with the new
range and with its protections and isolation; the chart of all records
has lost the old range and gained the new one, marked as the old one was,
and is otherwise what it was. Where nothing fails, the record has a guard
below exactly if guards are asked for and there is a page that was free
once the new range was carved out of the other records; and one above in
the same way. -/
theorem relocate_whole (hcache : w.config.useMappingCache = true) (hs : w.store.Shaped)
    (hd : w.store.Disjoint) (hr : w.store.get? h = some r) (hbase : q.address = r.base)
    (hspan : roundUp q.length pageSize = r.span pageSize)
    (hok : (w.relocate q).1 = .ok moved) :
    let stop := moved + roundUp q.newLength pageSize
    let carved := carve
      { w.lifted q.address with machine := ((w.lifted q.address).machine.move q).2 } moved stop
      (some h)
    ∃ s, (w.relocate q).2.store.get? h = some s ∧
      s.bare = { r.bare with base := moved, length := q.newLength } ∧
      (w.relocate q).2.store.Disjoint ∧
      (w.relocate q).2.store.chart =
        overwrite (overwrite w.store.chart r.base (r.stop pageSize) none) moved stop
          (some r.marking) ∧
      (w.machine.Clean →
        (∀ g, s.guardBelow = some g ↔ w.config.guardPagesActive = true ∧
          g + pageSize = moved ∧ carved.machine.pageAt (pageOf g) = none) ∧
        ∀ g, s.guardAbove = some g ↔ w.config.guardPagesActive = true ∧
          g = stop ∧ carved.machine.pageAt (pageOf g) = none) := by
  intro stop carved
  have hshaped := hs h r hr
  have hfind : w.store.find? q.address = some h :=
    find?_of_inside hd hs hr (hbase ▸ hshaped.1) (Nat.le_of_eq hbase.symm) (by
      have hpages := (Store.covers_first hshaped).2
      rw [pageOf_mul_pageSize hshaped.1] at hpages
      rw [hbase]
      exact hpages)
  have hw : w.store.Apart := (Store.disjoint_iff_apart hs).1 hd
  obtain ⟨m, hmove⟩ : ∃ m, (w.lifted q.address).machine.move q = (.ok moved, m) := by
    rcases w.relocate_cases q hcache with ⟨_, m, -, ⟨f, hf⟩, -⟩ | ⟨moved', m, hmove, hok', -⟩
    · rw [hf] at hok
      cases hok
    · rw [hok] at hok'
      cases hok'
      exact ⟨m, hmove⟩
  obtain ⟨-, ha, hlen⟩ := Machine.aligned_of_move hmove
  have hstages := relocate_stages hcache hfind hr hmove
  have hcarved : carved = carve { w.lifted q.address with machine := m } moved stop (some h) := by
    simp only [carved, hmove]
  rw [← hcarved] at hstages
  obtain ⟨hmoved, hget, hconfig, hcalls⟩ := hstages
  have hfollow := get?_follow_whole hget rfl ⟨hbase.symm, hspan.symm⟩ moved
  rw [hconfig, ← hmoved] at hfollow
  refine ⟨_, hfollow, ?_, ?_, ?_, fun hclean => ?_⟩
  · split
    · rw [Guard.bare_placeAll]
      rfl
    · rfl
  · exact (Store.disjoint_iff_apart (shaped_perform hs (.relocate q))).2 (apart_relocate hs hw q)
  · -- lifting guards changes nothing of the chart
    rw [(relocate_of_move hcache hmove).2, hfind,
      chart_resettle (w := { w.lifted q.address with machine := m })
        (shaped_congr hs (bare?_lifted w _)) (Store.apart_congr (bare?_lifted w q.address) hw)
        (get?_lifted hfind hr) ha,
      Store.chart_congr hw (bare?_lifted w q.address)]
    rfl
  · have hshape : Record.Shaped { r.bare with base := moved, length := q.newLength } := ⟨ha, hlen⟩
    split
    · rename_i hactive
      refine ⟨fun g => ?_, fun g => ?_⟩
      · rw [Guard.guardBelow_placeAll_iff (hclean.calls hcalls) hshape rfl]
        exact (and_iff_right hactive).symm
      · rw [Guard.guardAbove_placeAll_iff (hclean.calls hcalls) hshape rfl]
        exact (and_iff_right hactive).symm
    · rename_i hactive
      exact ⟨fun g => iff_of_false nofun fun hg => hactive hg.1,
        fun g => iff_of_false nofun fun hg => hactive hg.1⟩

/-- The lowest of three neighbours grows onto the last two pages of the
highest, whose guard and whose pages there it takes, and is guarded above
only; or it moves down by a page, onto its own guard and over itself. -/
theorem relocate_whole_neighbours :
    let onto := neighbours.relocate ⟨0x7effffff6000, 5000, 9000, ⟨3⟩, 0x7effffffe000⟩
    let down := neighbours.relocate ⟨0x7effffff6000, 5000, 5000, ⟨3⟩, 0x7effffff5000⟩
    (onto.1 = .ok 0x7effffffe000 ∧
      onto.2.store.get? ⟨2, 0⟩ =
        some { Record.fresh 0x7effffffe000 9000 .read with guardAbove := some 0x7f0000001000 } ∧
      onto.2.store.chart =
        overwrite (overwrite neighbours.store.chart 0x7effffff6000 0x7effffff8000 none)
          0x7effffffe000 0x7f0000001000 (some ⟨.read, .read, none⟩)) ∧
    down.1 = .ok 0x7effffff5000 ∧
      (∃ s, down.2.store.get? ⟨2, 0⟩ = some s ∧ s.bare = .fresh 0x7effffff5000 5000 .read ∧
        s.guardBelow = some 0x7effffff4000) ∧
      down.2.store.chart =
        overwrite (overwrite neighbours.store.chart 0x7effffff6000 0x7effffff8000 none)
          0x7effffff5000 0x7effffff7000 (some ⟨.read, .read, none⟩) := by
  have hclean : neighbours.machine.Clean :=
    (Machine.Clean.mk rfl rfl rfl : Machine.Clean { space := .emptyWithKeys }).calls
      calls_neighbours
  have hshaped : neighbours.store.Shaped := shaped_run (shaped_of_empty rfl) _
  have hlowest : neighbours.store.get? ⟨2, 0⟩ =
      some { Record.fresh 0x7effffff6000 5000 .read with guardBelow := some 0x7effffff5000 } := by
    decide +kernel
  obtain ⟨-, -, -, -, honto, -⟩ := relocate_whole
    (q := ⟨0x7effffff6000, 5000, 9000, ⟨3⟩, 0x7effffffe000⟩) rfl hshaped
    disjoint_neighbours hlowest rfl rfl rfl
  obtain ⟨s, hs, hbare, -, hdown, hguards⟩ := relocate_whole
    (q := ⟨0x7effffff6000, 5000, 5000, ⟨3⟩, 0x7effffff5000⟩) rfl hshaped
    disjoint_neighbours hlowest rfl rfl rfl
  refine ⟨⟨rfl, by decide +kernel, honto⟩, rfl, ⟨s, hs, hbare, ?_⟩, hdown⟩
  exact ((hguards hclean).1 0x7effffff4000).2
    ⟨rfl, by decide, Option.isNone_iff_eq_none.1 (by decide +kernel)⟩

end Warden

end PageWarden
