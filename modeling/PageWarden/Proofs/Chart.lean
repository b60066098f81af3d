import PageWarden.Proofs.Cut
import PageWarden.Proofs.Disjoint
/-!
# The chart — releases and creations, page by page

Read as a chart, a store says of each page what the record that covers it
says, and nothing of a page that no record covers (`Store.chart`). Where
records share no page, there is one record to ask, and the chart says
exactly what `Store.Charts` says.

A release and a creation write one value over the pages of their range
and leave the rest of the chart as it is, however many records the range
meets and in whatever way (`chart_of_remove_and_create`). The lengths of
what is left are found by subtraction, and `Warden.remove?` and
`Warden.create?` have no answer where one would fall below zero in a cut
(`Cut.fits`). Of the cuts that are made `Warden.cuts` leaves none out
(`traverses_cuts`), and in none does a length fall so, whatever the
operation (`all_fits_cuts`): a page boundary below the end of a record's
last page is no further than its last byte (`Record.le_limit_of_lt_stop`).
-/

namespace PageWarden

/-! ## Reading a store as a chart -/

/-- The value `x` written over the pages of `[start, stop)`. -/
def overwrite (c : Nat → Option Marking) (start stop : Nat) (x : Option Marking) :
    Nat → Option Marking :=
  fun n => if PageIn start stop n then x else c n

namespace Store

variable {s : Store} {n : Nat} {x : Marking}

/-- What is said of each page by the first record that covers it. -/
def chart (s : Store) (n : Nat) : Option Marking :=
  (s.records.find? fun r => decide (r.Covers n)).map Record.marking

/-- **Where no page is covered twice the chart is what the records say**,
whichever of them is asked first. -/
theorem chart_eq_some_iff (hs : s.Apart) : s.chart n = some x ↔ s.Charts none n x := by
  unfold chart
  constructor
  · intro hx
    obtain ⟨r, hr, rfl⟩ := Option.map_eq_some_iff.1 hx
    obtain ⟨h, hh⟩ := mem_records_iff.1 (List.mem_of_find?_eq_some hr)
    have hn := List.find?_some hr
    exact ⟨h, r, Option.some_ne_none h, hh, of_decide_eq_true hn, rfl⟩
  · rintro ⟨h, r, -, hr, hn, rfl⟩
    have hsome : (s.records.find? fun r => decide (r.Covers n)).isSome = true :=
      List.find?_isSome.2 ⟨r, mem_records_iff.2 ⟨h, hr⟩, decide_eq_true hn⟩
    obtain ⟨q, hq⟩ := Option.isSome_iff_exists.1 hsome
    obtain ⟨k, hk⟩ := mem_records_iff.1 (List.mem_of_find?_eq_some hq)
    have hqn := List.find?_some hq
    -- the record that is found covers the page too, so it is this one
    obtain rfl : k = h :=
      hs k h _ _ n (bare?_of_get? hk) (bare?_of_get? hr) (of_decide_eq_true hqn) hn
    obtain rfl : q = r := Option.some.inj (hk.symm.trans hr)
    rw [hq]
    rfl

/-- A chart is known by what the records say of each page. -/
theorem chart_eq_of_charts {c : Nat → Option Marking} (hs : s.Apart)
    (hc : ∀ n x, s.Charts none n x ↔ c n = some x) : s.chart = c :=
  funext fun n => Option.ext fun x => (chart_eq_some_iff hs).trans (hc n x)

end Store

/-! ## Lengths that are found by subtraction -/

/-- A page boundary before the end of a record's pages is not past its
bytes: the record has a byte on its last page. -/
theorem Record.le_limit_of_lt_stop {r : Record} {stop : Nat} (hr : r.Shaped) (hstop : Aligned stop)
    (hlt : stop < r.stop pageSize) : stop ≤ r.limit := by
  obtain ⟨hbase, hlen⟩ := hr
  simp only [Record.stop, span, limit, roundUp, Aligned, pageSize] at *
  omega

namespace Cut

/-- **No length falls below zero in the cut**: what it leaves below its range
ends where the range begins, and what it leaves above ends where the
record did. A difference that is cut off at zero would make them longer. -/
def fits (c : Cut) : Bool :=
  (c.warden.store.get? c.handle).all fun r =>
    (decide (c.start ≤ r.base) || decide ((r.lower c.start).limit = c.start)) &&
      (decide (r.stop pageSize ≤ c.stop) || decide ((r.upper c.stop).limit = r.limit))

/-- A cut of a well formed record that ends at a page fits. -/
theorem fits_of_shaped {c : Cut} (hs : c.warden.store.Shaped) (hstop : Aligned c.stop) :
    c.fits = true := by
  unfold fits
  rw [Option.all_eq_true]
  intro r hr
  rw [Bool.and_eq_true, Bool.or_eq_true, Bool.or_eq_true]
  simp only [decide_eq_true_eq]
  constructor
  · rcases Nat.le_total c.start r.base with hbelow | habove
    · exact Or.inl hbelow
    · exact Or.inr (Nat.add_sub_cancel' habove)
  · by_cases hend : r.stop pageSize ≤ c.stop
    · exact Or.inl hend
    · have hlimit := Record.le_limit_of_lt_stop (hs c.handle r hr) hstop (Nat.lt_of_not_le hend)
      exact Or.inr (Nat.add_sub_cancel' hlimit)

end Cut

namespace Warden

variable {w : Warden}

/-- **No length falls below zero in a cut of an operation.** -/
theorem all_fits_cuts (hs : w.store.Shaped) (op : Operation) :
    (w.cuts op).all Cut.fits = true := by
  obtain ⟨u, v, hu, -, htrail, -, -, hstop⟩ := w.traverses_cuts op
  have hshaped := htrail.shaped_of_mem (shaped_congr hs hu) hstop
  exact List.all_eq_true.2 fun c hc => Cut.fits_of_shaped (hshaped c hc) (hstop c hc)

/-- `Warden.create`, unless a length would fall below zero in one of its
cuts. -/
def create? (w : Warden) (q : MapRequest) : Option (Except Failure Nat × Warden) :=
  if (w.cuts (.create q)).all Cut.fits then some (w.create q) else none

/-- `Warden.remove`, likewise. -/
def remove? (w : Warden) (address length : Nat) : Option (Except Failure Unit × Warden) :=
  if (w.cuts (.remove address length)).all Cut.fits then some (w.remove address length) else none

/-! ## What releases and creations do to the chart -/

/-- **A release wipes its range off the chart.** -/
theorem chart_of_remove (hcache : w.config.useMappingCache = true) (hs : w.store.Shaped)
    (hw : w.store.Apart) {a l : Nat} (hok : (w.remove a l).1 = .ok ()) :
    (w.remove a l).2.store.chart =
      overwrite w.store.chart a (a + roundUp l pageSize) none := by
  have hafter : (w.remove a l).2.store.Apart :=
    (apart_perform_iff hs hw (.remove a l)).2 not_false
  refine Store.chart_eq_of_charts hafter fun n x => ?_
  rcases w.remove_cases a l with ⟨⟨f, hf⟩, -⟩ | ⟨m, hunmap, -, h⟩
  · rw [hf] at hok
    cases hok
  · obtain ⟨ha, hlen⟩ := Machine.aligned_of_unmap hunmap
    rw [h, if_pos hcache, charts_vacate (w := { w with machine := m }) hs ha hlen]
    unfold overwrite
    by_cases hn : PageIn a (a + roundUp l pageSize) n
    · simp only [hn, not_true_eq_false, and_false, if_true, reduceCtorEq]
    · simp only [hn, not_false_eq_true, and_true, if_false]
      exact (Store.chart_eq_some_iff hw).symm

/-- **A creation writes what it made over its range**, and wipes the range
if what it made is not tracked. -/
theorem chart_of_create (hcache : w.config.useMappingCache = true) (hs : w.store.Shaped)
    (hw : w.store.Apart) {q : MapRequest} {a : Nat} (hok : (w.create q).1 = .ok a) :
    (w.create q).2.store.chart =
      overwrite w.store.chart a (a + roundUp q.length pageSize)
        (if q.isAnonymous then some ⟨q.rights, q.rights, none⟩ else none) := by
  have hafter : (w.create q).2.store.Apart := (apart_perform_iff hs hw (.create q)).2 not_false
  refine Store.chart_eq_of_charts hafter fun n x => ?_
  rcases w.create_cases q with ⟨⟨f, hf⟩, -⟩ | ⟨a', m, hmap, hok', h⟩
  · rw [hf] at hok
    cases hok
  · obtain rfl : a' = a := Except.ok.inj (hok'.symm.trans hok)
    obtain ⟨ha, -⟩ := Machine.aligned_of_map hmap
    rw [h.store, charts_settle (w := { w with machine := m }) hs hcache ha]
    unfold overwrite
    by_cases hn : PageIn a' (a' + roundUp q.length pageSize) n
    · cases q.isAnonymous <;> simp [hn]
    · simp only [hn, false_and, and_false, false_or, not_false_eq_true, and_true, if_false]
      exact (Store.chart_eq_some_iff hw).symm

/-- **Releases and creations, page by page.** Where every record starts on a
page, is not empty and has its pages for itself, a successful release
wipes the whole pages of its range off the chart, and a successful
creation writes over them what it made, or wipes them if it is of a file;
no other page changes. Either way records start on pages, are not empty
and have their pages for themselves again, and in no cut does a length
fall below zero. -/
theorem chart_of_remove_and_create (hcache : w.config.useMappingCache = true)
    (hs : w.store.Shaped) (hd : w.store.Disjoint) :
    (∀ a l, w.remove? a l = some (w.remove a l) ∧
      (w.remove a l).2.store.Shaped ∧ (w.remove a l).2.store.Disjoint ∧
      ((w.remove a l).1 = .ok () → (w.remove a l).2.store.chart =
        overwrite w.store.chart a (a + roundUp l pageSize) none)) ∧
    ∀ q, w.create? q = some (w.create q) ∧
      (w.create q).2.store.Shaped ∧ (w.create q).2.store.Disjoint ∧
      ∀ a, (w.create q).1 = .ok a → (w.create q).2.store.chart =
        overwrite w.store.chart a (a + roundUp q.length pageSize)
          (if q.isAnonymous then some ⟨q.rights, q.rights, none⟩ else none) := by
  have hw := (Store.disjoint_iff_apart hs).1 hd
  refine ⟨fun a l => ?_, fun q => ?_⟩
  · have hshaped : (w.remove a l).2.store.Shaped := shaped_perform hs (.remove a l)
    exact ⟨if_pos (all_fits_cuts hs (.remove a l)), hshaped,
      (Store.disjoint_iff_apart hshaped).2 ((apart_perform_iff hs hw (.remove a l)).2 not_false),
      chart_of_remove hcache hs hw⟩
  · have hshaped : (w.create q).2.store.Shaped := shaped_perform hs (.create q)
    exact ⟨if_pos (all_fits_cuts hs (.create q)), hshaped,
      (Store.disjoint_iff_apart hshaped).2 ((apart_perform_iff hs hw (.create q)).2 not_false),
      fun _ => chart_of_create hcache hs hw⟩

/-- Three guarded mappings with room between them, none of whole pages: two
pages to read at `0x7effffff6000`, three of execute-only code at
`0x7effffff9000`, three to write at `0x7effffffd000`. -/
def neighbours : Warden :=
  run
    { config := { useMappingCache := true, enableGuardPages := true }
      machine := { space := .emptyWithKeys } }
    [.create ⟨0, 10000, .readWrite, .privateAnonymous, -1, 0⟩, .makeExecuteOnly 9000 [0xc3],
      .create ⟨0, 5000, .read, .privateAnonymous, -1, 0⟩]

/-- Their ranges are disjoint. -/
theorem disjoint_neighbours : neighbours.store.Disjoint := by
  have hentries : ∀ e ∈ neighbours.store.entries, ∀ f ∈ neighbours.store.entries, e.1 ≠ f.1 →
      e.2.stop pageSize ≤ f.2.base ∨ f.2.stop pageSize ≤ e.2.base := by decide +kernel
  intro h k q r hne hq hr
  exact hentries (h, q) (Store.mem_entries_iff.2 hq) (k, r) (Store.mem_entries_iff.2 hr) hne

/-- It took calls to make them, on a machine on which nothing fails. -/
theorem calls_neighbours : Machine.Calls { space := .emptyWithKeys } neighbours.machine :=
  calls_run
    { config := { useMappingCache := true, enableGuardPages := true }
      machine := { space := .emptyWithKeys } } _

/-- From the second page of the first to the first page of the third: the
code goes, and the others lose a page each, one of them on account of the
request and one behind it. The same range can be mapped instead. -/
theorem chart_of_neighbours :
    (neighbours.remove 0x7effffff7000 28000).1 = .ok () ∧
    (neighbours.remove 0x7effffff7000 28000).2.store.records.map
        (fun r => (r.base, r.length)) = [(0x7effffffe000, 5904), (0x7effffff6000, 4096)] ∧
    neighbours.store.chart 0x7effffffa = some ⟨.exec, .exec, some ⟨some 1, .disableAccess⟩⟩ ∧
    (neighbours.remove 0x7effffff7000 28000).2.store.chart =
      overwrite neighbours.store.chart 0x7effffff7000 0x7effffffe000 none ∧
    (neighbours.create
        ⟨0x7effffff7000, 28000, .exec, MapFlags.privateAnonymous.union .fixedAddress, -1, 0⟩).1 =
      .ok 0x7effffff7000 ∧
    (neighbours.create
        ⟨0x7effffff7000, 28000, .exec, MapFlags.privateAnonymous.union .fixedAddress, -1,
          0⟩).2.store.chart =
      overwrite neighbours.store.chart 0x7effffff7000 0x7effffffe000
        (some ⟨.exec, .exec, none⟩) := by
  have hchart := chart_of_remove_and_create (w := neighbours) rfl
    (shaped_run (shaped_of_empty rfl) _) disjoint_neighbours
  refine ⟨rfl, by decide +kernel, by decide +kernel, ?_, rfl, ?_⟩
  · exact (hchart.1 0x7effffff7000 28000).2.2.2 rfl
  · exact (hchart.2 ⟨0x7effffff7000, 28000, .exec,
      MapFlags.privateAnonymous.union .fixedAddress, -1, 0⟩).2.2.2 _ rfl

end Warden

end PageWarden
