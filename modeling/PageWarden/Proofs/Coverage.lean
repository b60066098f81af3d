import PageWarden.Proofs.Carve
/-!
# Coverage — which pages are tracked, and with which history

A record says the same of all its pages (`Record.marking`), and its parts
say it still. `Store.Charts` is that some record covers a page and says a
given thing of it. Outside of its range a cut changes nothing about that,
so neither does a carve (`charts_carve`); inside of the range only the
spared record is left (`keep_of_meets_carve`). All of it needs the records
to start on pages and not to be empty (`Store.Shaped`), which cuts keep.

`Store.Tracks` is the same with nothing but the history in view.
-/

namespace PageWarden

namespace Store

variable {s : Store} {h : Handle} {q r : Record}

/-- Every record starts on a page and is not empty. -/
def Shaped (s : Store) : Prop := ∀ h r, s.get? h = some r → r.Shaped

/-- A record other than the one under `skip` covers page `n`, and marks it
with `x`. -/
def Charts (s : Store) (skip : Option Handle) (n : Nat) (x : Marking) : Prop :=
  ∃ k r, some k ≠ skip ∧ s.get? k = some r ∧ r.Covers n ∧ r.marking = x

/-- A record other than the one under `skip` covers page `n` and has the
history `g`. -/
def Tracks (s : Store) (skip : Option Handle) (n : Nat) (g : Rights) : Prop :=
  ∃ k r, some k ≠ skip ∧ s.get? k = some r ∧ r.Covers n ∧ r.granted = g

/-- What is found is found guards aside. -/
theorem bare?_of_get? (hr : s.get? h = some r) : s.bare? h = some r.bare := by
  rw [bare?, hr, Option.map_some]

/-- What is found guards aside is found. -/
theorem exists_get?_of_bare? (hq : s.bare? h = some q) : ∃ r, s.get? h = some r ∧ r.bare = q :=
  Option.map_eq_some_iff.1 hq

/-- Being well formed is a matter of the records without their guards. -/
theorem shaped_iff : s.Shaped ↔ ∀ h q, s.bare? h = some q → q.Shaped := by
  constructor
  · intro hs h q hq
    obtain ⟨r, hr, rfl⟩ := exists_get?_of_bare? hq
    exact hs h r hr
  · intro hs h r hr
    exact hs h r.bare (bare?_of_get? hr)

/-- So is what they say of pages. -/
theorem charts_iff {skip : Option Handle} {n : Nat} {x : Marking} :
    s.Charts skip n x ↔
      ∃ k q, some k ≠ skip ∧ s.bare? k = some q ∧ q.Covers n ∧ q.marking = x := by
  constructor
  · rintro ⟨k, r, hk, hr, hn, hx⟩
    exact ⟨k, r.bare, hk, bare?_of_get? hr, hn, hx⟩
  · rintro ⟨k, q, hk, hq, hn, hx⟩
    obtain ⟨r, hr, rfl⟩ := exists_get?_of_bare? hq
    exact ⟨k, r, hk, hr, hn, hx⟩

/-- With one record changed, a page is covered by that record or by another
one. -/
theorem charts_update_iff {t : Store} {n : Nat} {x : Marking}
    (ht : t.bare? = Function.update s.bare? h (some q)) :
    t.Charts none n x ↔ (q.Covers n ∧ q.marking = x) ∨ s.Charts (some h) n x := by
  rw [charts_iff, charts_iff, ht]
  constructor
  · rintro ⟨k, o, -, ho, hn, hx⟩
    by_cases hk : k = h
    · subst hk
      rw [Function.update_self] at ho
      cases ho
      exact Or.inl ⟨hn, hx⟩
    · rw [Function.update_of_ne hk] at ho
      exact Or.inr ⟨k, o, fun heq => hk (Option.some.inj heq), ho, hn, hx⟩
  · rintro (⟨hn, hx⟩ | ⟨k, o, hk, ho, hn, hx⟩)
    · exact ⟨h, q, Option.some_ne_none h, Function.update_self _ _ _, hn, hx⟩
    · refine ⟨k, o, Option.some_ne_none k, ?_, hn, hx⟩
      rw [Function.update_of_ne fun heq => hk (congrArg some heq), ho]

/-- A handle that finds nothing covers nothing. -/
theorem charts_some_iff_of_none {n : Nat} {x : Marking} (hh : s.get? h = none) :
    s.Charts (some h) n x ↔ s.Charts none n x := by
  constructor
  · rintro ⟨k, r, -, hr, hn, hx⟩
    exact ⟨k, r, Option.some_ne_none k, hr, hn, hx⟩
  · rintro ⟨k, r, -, hr, hn, hx⟩
    refine ⟨k, r, ?_, hr, hn, hx⟩
    rintro heq
    rw [Option.some.inj heq, hh] at hr
    cases hr

/-- What is said of pages is said guards aside. -/
theorem charts_congr {t : Store} {skip : Option Handle} {n : Nat} {x : Marking}
    (hst : t.bare? = s.bare?) : t.Charts skip n x ↔ s.Charts skip n x := by
  rw [charts_iff, charts_iff, hst]

/-- A page is tracked with the history it is marked with. -/
theorem tracks_iff_charts {skip : Option Handle} {n : Nat} {g : Rights} :
    s.Tracks skip n g ↔ ∃ x, s.Charts skip n x ∧ x.granted = g := by
  constructor
  · rintro ⟨k, r, hk, hr, hn, hg⟩
    exact ⟨r.marking, ⟨k, r, hk, hr, hn, rfl⟩, hg⟩
  · rintro ⟨x, ⟨k, r, hk, hr, hn, rfl⟩, hg⟩
    exact ⟨k, r, hk, hr, hn, hg⟩

/-- Tracking is a matter of the records without their guards. -/
theorem tracks_iff {skip : Option Handle} {n : Nat} {g : Rights} :
    s.Tracks skip n g ↔
      ∃ k q, some k ≠ skip ∧ s.bare? k = some q ∧ q.Covers n ∧ q.granted = g := by
  constructor
  · rintro ⟨k, r, hk, hr, hn, hg⟩
    exact ⟨k, r.bare, hk, bare?_of_get? hr, hn, hg⟩
  · rintro ⟨k, q, hk, hq, hn, hg⟩
    obtain ⟨r, hr, rfl⟩ := exists_get?_of_bare? hq
    exact ⟨k, r, hk, hr, hn, hg⟩

/-- With one record changed, a page is tracked by that record or by
another one. -/
theorem tracks_update_iff {t : Store} {n : Nat} {g : Rights}
    (ht : t.bare? = Function.update s.bare? h (some q)) :
    t.Tracks none n g ↔ (q.Covers n ∧ q.granted = g) ∨ s.Tracks (some h) n g := by
  simp only [tracks_iff_charts, charts_update_iff ht, or_and_right, exists_or]
  refine or_congr ⟨?_, ?_⟩ Iff.rfl
  · rintro ⟨x, ⟨hn, rfl⟩, hg⟩
    exact ⟨hn, hg⟩
  · rintro ⟨hn, hg⟩
    exact ⟨q.marking, ⟨hn, rfl⟩, hg⟩

/-- What is tracked is tracked guards aside. -/
theorem tracks_congr {t : Store} {skip : Option Handle} {n : Nat} {g : Rights}
    (hst : t.bare? = s.bare?) : t.Tracks skip n g ↔ s.Tracks skip n g := by
  simp only [tracks_iff_charts, charts_congr hst]

end Store

namespace Warden

variable {w : Warden} {h : Handle} {r : Record} {start stop n : Nat} {keep : Option Handle}
variable {x : Marking} {g : Rights}

/-- The handle that is spared, if there is one, finds a record. -/
def Live (w : Warden) (keep : Option Handle) : Prop :=
  ∀ k, some k = keep → (w.store.get? k).isSome

/-- Nothing need be spared. -/
theorem live_none (w : Warden) : w.Live none := by
  intro k hk
  cases hk

/-- A handle that finds a record may be spared. -/
theorem live_some (hr : w.store.get? h = some r) : w.Live (some h) := by
  rintro k ⟨⟩
  rw [hr]
  rfl

/-! ## One cut -/

/-- A cut keeps records well formed. -/
theorem shaped_cut (hs : w.store.Shaped) (hstop : Aligned stop) (h : Handle) (guarded : Bool) :
    (w.cut h start stop guarded).store.Shaped := by
  cases hr : w.store.get? h with
  | none =>
    unfold cut
    rw [hr]
    exact hs
  | some r =>
    rw [Store.shaped_iff] at hs ⊢
    intro k q hq
    have hshaped : r.bare.Shaped := hs h r.bare (Store.bare?_of_get? hr)
    rcases (bare?_cut_eq_some_iff hr guarded).1 hq with ⟨-, hq⟩ | ⟨-, hq⟩ | ⟨-, hq⟩
    · exact (Record.partOf_iff.2 (Or.inl hq)).shaped hshaped hstop
    · exact (Record.partOf_iff.2 (Or.inr hq)).shaped hshaped hstop
    · exact hs k q hq

/-- **A cut changes nothing about the pages outside of its range.** -/
theorem charts_cut (hs : w.store.Shaped) (hstart : Aligned start) (hstop : Aligned stop)
    (hr : w.store.get? h = some r) (hmeets : r.Meets start stop) (hh : some h ≠ keep)
    (hkeep : w.Live keep) (guarded : Bool)
    (hn : ¬ PageIn start stop n) :
    (w.cut h start stop guarded).store.Charts keep n x ↔ w.store.Charts keep n x := by
  have hparts : (∃ s, r.bare.PartOf start stop s ∧ s.Covers n) ↔
      r.Covers n ∧ ¬ PageIn start stop n :=
    Record.covers_parts (r := r.bare) (hs h r hr) hstart hstop hmeets n
  -- the part that is split off is not the record that is spared
  have hnext : some w.store.nextHandle ≠ keep := by
    intro heq
    have hsome := hkeep _ heq
    rw [Store.get?_nextHandle] at hsome
    cases hsome
  rw [Store.charts_iff, Store.charts_iff]
  constructor
  · rintro ⟨k, q, hk, hq, hcov, hx⟩
    have hpart : r.bare.PartOf start stop q → ∃ k q, some k ≠ keep ∧ w.store.bare? k = some q ∧
        q.Covers n ∧ q.marking = x := fun hp =>
      ⟨h, r.bare, hh, Store.bare?_of_get? hr, (hparts.1 ⟨q, hp, hcov⟩).1, hp.marking ▸ hx⟩
    rcases (bare?_cut_eq_some_iff hr guarded).1 hq with ⟨-, hq⟩ | ⟨-, hq⟩ | ⟨-, hq⟩
    · exact hpart (Record.partOf_iff.2 (Or.inl hq))
    · exact hpart (Record.partOf_iff.2 (Or.inr hq))
    · exact ⟨k, q, hk, hq, hcov, hx⟩
  · rintro ⟨k, q, hk, hq, hcov, hx⟩
    by_cases hkh : k = h
    · subst hkh
      rw [Store.bare?_of_get? hr] at hq
      cases hq
      obtain ⟨s, hpart, hcov⟩ := hparts.2 ⟨hcov, hn⟩
      rcases Record.partOf_iff.1 hpart with hs | hs
      · exact ⟨k, s, hh, (bare?_cut_eq_some_iff hr guarded).2 (Or.inl ⟨rfl, hs⟩), hcov,
          hpart.marking.trans hx⟩
      · exact ⟨_, s, hnext, (bare?_cut_eq_some_iff hr guarded).2 (Or.inr (Or.inl ⟨rfl, hs⟩)),
          hcov, hpart.marking.trans hx⟩
    · exact ⟨k, q, hk, (bare?_cut_eq_some_iff hr guarded).2 (Or.inr (Or.inr ⟨hkh, hq⟩)), hcov, hx⟩

/-- After a cut, what meets the range is a record that met it before, and
not the one that was cut. -/
theorem meets_of_cut {k : Handle} {q : Record} (hs : w.store.Shaped) (hstart : Aligned start)
    (hr : w.store.get? h = some r) (guarded : Bool)
    (hq : (w.cut h start stop guarded).store.bare? k = some q) (hm : q.Meets start stop) :
    k ≠ h ∧ w.store.bare? k = some q := by
  have hpart : ¬ r.bare.PartOf start stop q := fun hp => hp.not_meets (hs h r hr) hstart hm
  rcases (bare?_cut_eq_some_iff hr guarded).1 hq with ⟨-, hq⟩ | ⟨-, hq⟩ | hq
  · exact absurd (Record.partOf_iff.2 (Or.inl hq)) hpart
  · exact absurd (Record.partOf_iff.2 (Or.inr hq)) hpart
  · exact hq

/-! ## A carve -/

@[simp] theorem config_carve (w : Warden) (start stop : Nat) (keep : Option Handle) :
    (w.carve start stop keep).config = w.config := by
  refine carve_induction (motive := fun _ v => v.config = w.config) rfl ?_
  intro v h r rest hv _ _ _
  rw [config_cut, config_tell, hv]

/-- A carve keeps records well formed. -/
theorem shaped_carve (hs : w.store.Shaped) (hstop : Aligned stop) (keep : Option Handle) :
    (w.carve start stop keep).store.Shaped := by
  refine carve_induction (motive := fun _ v => v.store.Shaped) ?_ ?_
  · rw [Store.shaped_iff, bare?_forgetGuards, ← Store.shaped_iff]
    exact hs
  · intro v h r rest hv _ _ _
    exact shaped_cut (w := v.tell _) hv hstop h false

/-- The spared record stays, but for guards in the range. -/
theorem get?_carve_keep (hr : w.store.get? h = some r) (start stop : Nat) :
    (w.carve start stop (some h)).store.get? h = some (r.forgetWithin start stop) := by
  refine carve_induction
    (motive := fun _ v => v.store.get? h = some (r.forgetWithin start stop)) ?_ ?_
  · rw [get?_forgetGuards, hr, Option.map_some]
  · intro v k _ _ hv _ _ hk
    refine get?_cut_of_ne (w := v.tell _) hv ?_ false
    rintro rfl
    exact hk rfl

/-- **After a carve only the spared record meets the range.** -/
theorem keep_of_meets_carve {q : Record} (hs : w.store.Shaped) (hstart : Aligned start)
    (hstop : Aligned stop) (hq : (w.carve start stop keep).store.get? h = some q)
    (hm : q.Meets start stop) : some h = keep := by
  -- along the carve, what meets the range is spared or still to be cut
  have hinv : (w.carve start stop keep).store.Shaped ∧ ∀ k q,
      (w.carve start stop keep).store.bare? k = some q → q.Meets start stop →
        some k = keep ∨ k ∈ ([] : List Handle) := by
    refine carve_induction (motive := fun rest v => v.store.Shaped ∧ ∀ k q,
      v.store.bare? k = some q → q.Meets start stop → some k = keep ∨ k ∈ rest) ?_ ?_
    · rw [Store.shaped_iff, bare?_forgetGuards, ← Store.shaped_iff]
      refine ⟨hs, fun k q hq hm => ?_⟩
      by_cases hk : some k = keep
      · exact Or.inl hk
      · rw [← bare?_forgetGuards w start stop] at hq
        obtain ⟨r, hr, rfl⟩ := Store.exists_get?_of_bare? hq
        refine Or.inr (List.mem_filter.2 ⟨List.mem_map.2 ⟨(k, r), ?_, rfl⟩, decide_eq_true hk⟩)
        refine List.mem_filter.2 ⟨Store.mem_entries_iff.2 hr, ?_⟩
        exact Bool.and_eq_true_iff.2 ⟨decide_eq_true hm.1, decide_eq_true hm.2⟩
    · intro v h r rest ⟨hshaped, hv⟩ hr _ _
      refine ⟨shaped_cut (w := v.tell _) hshaped hstop h false, fun k q hq hm => ?_⟩
      obtain ⟨hne, hq⟩ := meets_of_cut (w := v.tell _) hshaped hstart hr false hq hm
      rcases hv k q hq hm with hk | hk
      · exact Or.inl hk
      · exact Or.inr ((List.mem_cons.1 hk).resolve_left hne)
  rcases hinv.2 h q.bare (Store.bare?_of_get? hq) hm with hk | hk
  · exact hk
  · exact absurd hk List.not_mem_nil

/-- **A carve changes nothing about the pages outside of its range.** -/
theorem charts_carve_of_not_pageIn {skip : Option Handle} (hs : w.store.Shaped)
    (hstart : Aligned start) (hstop : Aligned stop) (hskip : skip = none ∨ skip = keep)
    (hlive : w.Live skip) (hn : ¬ PageIn start stop n) :
    (w.carve start stop keep).store.Charts skip n x ↔ w.store.Charts skip n x := by
  have hinv : (w.carve start stop keep).store.Shaped ∧ (w.carve start stop keep).Live skip ∧
      ((w.carve start stop keep).store.Charts skip n x ↔ w.store.Charts skip n x) := by
    refine carve_induction (motive := fun _ v => v.store.Shaped ∧ v.Live skip ∧
      (v.store.Charts skip n x ↔ w.store.Charts skip n x)) ?_ ?_
    · rw [Store.shaped_iff, bare?_forgetGuards, ← Store.shaped_iff]
      refine ⟨hs, fun k hk => ?_, Store.charts_congr (bare?_forgetGuards w start stop)⟩
      rw [get?_forgetGuards, Option.isSome_map]
      exact hlive k hk
    · intro v h r rest ⟨hshaped, hlive, hv⟩ hr hmeets hh
      have hne : some h ≠ skip := by
        rcases hskip with rfl | rfl
        · exact Option.some_ne_none h
        · exact hh
      refine ⟨shaped_cut (w := v.tell _) hshaped hstop h false, fun k hk => ?_, ?_⟩
      · obtain ⟨q, hq⟩ := Option.isSome_iff_exists.1 (hlive k hk)
        rw [get?_cut_of_ne (w := v.tell _) hq (by rintro rfl; exact hne hk) false]
        rfl
      · refine Iff.trans ?_ hv
        exact charts_cut (w := v.tell _) hshaped hstart hstop hr hmeets hne hlive false hn
  exact hinv.2.2

/-- **What a carve leaves of the marks**, besides those of the spared record:
exactly those outside of the range. -/
theorem charts_carve (hs : w.store.Shaped) (hstart : Aligned start) (hstop : Aligned stop)
    (hkeep : w.Live keep) :
    (w.carve start stop keep).store.Charts keep n x ↔
      w.store.Charts keep n x ∧ ¬ PageIn start stop n := by
  by_cases hn : PageIn start stop n
  · refine ⟨?_, fun ⟨_, hout⟩ => absurd hn hout⟩
    rintro ⟨k, q, hk, hq, hcov, -⟩
    exact absurd (keep_of_meets_carve hs hstart hstop hq (Record.meets_of_covers hcov hn)) hk
  · rw [charts_carve_of_not_pageIn hs hstart hstop (Or.inr rfl) hkeep hn]
    exact ⟨fun h => ⟨h, hn⟩, fun h => h.1⟩

/-- **What a carve leaves tracked**, besides the spared record: exactly
what was tracked outside of the range, each page with its history. -/
theorem tracks_carve (hs : w.store.Shaped) (hstart : Aligned start) (hstop : Aligned stop)
    (hkeep : w.Live keep) :
    (w.carve start stop keep).store.Tracks keep n g ↔
      w.store.Tracks keep n g ∧ ¬ PageIn start stop n := by
  simp only [Store.tracks_iff_charts, charts_carve hs hstart hstop hkeep]
  constructor
  · rintro ⟨x, ⟨hx, hn⟩, hg⟩
    exact ⟨⟨x, hx, hg⟩, hn⟩
  · rintro ⟨⟨x, hx, hg⟩, hn⟩
    exact ⟨x, ⟨hx, hn⟩, hg⟩

end Warden

end PageWarden
