import PageWarden.Proofs.Bookkeeping
/-!
# Follow-ups — what each one leaves tracked

One equation for each follow-up of a request says which pages are tracked
after it, and what is said of them: what was said outside of the range
the request was about, and there what the request itself brought in.
-/

namespace PageWarden

namespace Warden

variable {w : Warden} {h : Handle} {r : Record} {n : Nat} {x : Marking} {g : Rights}

/-- **A record that enters** marks its pages, beside all that were marked. -/
theorem charts_enroll :
    (w.enroll r).store.Charts none n x ↔
      (r.Covers n ∧ r.marking = x) ∨ w.store.Charts none n x := by
  rw [Store.charts_update_iff (bare?_enroll w r),
    Store.charts_some_iff_of_none (Store.get?_nextHandle _)]
  exact Iff.rfl

/-- **A new mapping** takes its range over, if it is one to be tracked; one
with a file behind it leaves the range unmarked. -/
theorem charts_settle {q : MapRequest} {a : Nat} (hs : w.store.Shaped)
    (hcache : w.config.useMappingCache = true) (ha : Aligned a) :
    (w.settle q a).store.Charts none n x ↔
      (q.isAnonymous = true ∧ PageIn a (a + roundUp q.length pageSize) n ∧
          Marking.mk q.rights q.rights none = x) ∨
        (w.store.Charts none n x ∧ ¬ PageIn a (a + roundUp q.length pageSize) n) := by
  have hcarve : (w.carve a (a + roundUp q.length pageSize) none).store.Charts none n x ↔
      w.store.Charts none n x ∧ ¬ PageIn a (a + roundUp q.length pageSize) n :=
    charts_carve hs ha (ha.add_roundUp _) w.live_none
  unfold settle
  rw [if_pos hcache]
  by_cases hanon : q.isAnonymous = true
  · rw [if_pos hanon, (alike_track _ _ _ _).store, charts_enroll, hcarve]
    constructor
    · rintro (⟨hn, hx⟩ | hout)
      · exact Or.inl ⟨hanon, hn, hx⟩
      · exact Or.inr hout
    · rintro (⟨-, hn, hx⟩ | hout)
      · exact Or.inl ⟨hn, hx⟩
      · exact Or.inr hout
  · rw [if_neg hanon, hcarve]
    constructor
    · exact fun hout => Or.inr hout
    · rintro (⟨htrue, -⟩ | hout)
      · exact absurd htrue hanon
      · exact hout

/-- **A release** takes the marks off its own range, and nothing else. -/
theorem charts_vacate {a l : Nat} (hs : w.store.Shaped) (ha : Aligned a) (hlen : 0 < l) :
    (w.vacate a l).store.Charts none n x ↔
      w.store.Charts none n x ∧ ¬ PageIn a (a + roundUp l pageSize) n := by
  have hstop := ha.add_roundUp l
  rcases vacate_cases hs ha hlen with ⟨-, hv⟩ | ⟨h, f, -, hf, hkept, hmeets, hv⟩
  · rw [hv, charts_carve hs ha hstop w.live_none]
  · have hcarved : (w.carve a (a + roundUp l pageSize) (some h)).store.Shaped :=
      shaped_carve hs hstop (some h)
    rw [hv]
    by_cases hn : PageIn a (a + roundUp l pageSize) n
    · refine ⟨fun hcharts => ?_, fun ⟨_, hout⟩ => absurd hn hout⟩
      -- what still met the range after the cut met it after the carve, and was not spared
      obtain ⟨k, q, -, hq, hcov, -⟩ := Store.charts_iff.1 hcharts
      have hm := Record.meets_of_covers hcov hn
      obtain ⟨hne, hq⟩ := meets_of_cut hcarved ha hkept _ hq hm
      obtain ⟨r, hr, rfl⟩ := Store.exists_get?_of_bare? hq
      exact absurd (Option.some.inj (keep_of_meets_carve hs ha hstop hr hm)) hne
    · rw [charts_cut hcarved ha hstop hkept hmeets (Option.some_ne_none h) (live_none _) _ hn,
        charts_carve_of_not_pageIn hs ha hstop (Or.inl rfl) w.live_none hn]
      exact ⟨fun hcharts => ⟨hcharts, hn⟩, fun hcharts => hcharts.1⟩

/-- A record that enters is tracked beside all that was. -/
theorem tracks_enroll :
    (w.enroll r).store.Tracks none n g ↔
      (r.Covers n ∧ r.granted = g) ∨ w.store.Tracks none n g := by
  rw [Store.tracks_update_iff (bare?_enroll w r), Store.tracks_iff_charts, Store.tracks_iff_charts]
  simp only [Store.charts_some_iff_of_none (Store.get?_nextHandle _)]
  exact Iff.rfl

/-- **A new mapping** is tracked with what it was made with, if it is one to
be tracked; one with a file behind it leaves its range untracked. -/
theorem tracks_settle {q : MapRequest} {a : Nat} (hs : w.store.Shaped)
    (hcache : w.config.useMappingCache = true) (ha : Aligned a) :
    (w.settle q a).store.Tracks none n g ↔
      (q.isAnonymous = true ∧ PageIn a (a + roundUp q.length pageSize) n ∧ q.rights = g) ∨
        (w.store.Tracks none n g ∧ ¬ PageIn a (a + roundUp q.length pageSize) n) := by
  simp only [Store.tracks_iff_charts, charts_settle hs hcache ha]
  constructor
  · rintro ⟨x, ⟨hanon, hn, rfl⟩ | ⟨hx, hn⟩, hg⟩
    · exact Or.inl ⟨hanon, hn, hg⟩
    · exact Or.inr ⟨⟨x, hx, hg⟩, hn⟩
  · rintro (⟨hanon, hn, hg⟩ | ⟨⟨x, hx, hg⟩, hn⟩)
    · exact ⟨_, Or.inl ⟨hanon, hn, rfl⟩, hg⟩
    · exact ⟨x, Or.inr ⟨hx, hn⟩, hg⟩

/-- **A release** takes its own range out of what is tracked, and nothing
else. -/
theorem tracks_vacate {a l : Nat} (hs : w.store.Shaped) (ha : Aligned a) (hlen : 0 < l) :
    (w.vacate a l).store.Tracks none n g ↔
      w.store.Tracks none n g ∧ ¬ PageIn a (a + roundUp l pageSize) n := by
  simp only [Store.tracks_iff_charts, charts_vacate hs ha hlen, and_right_comm,
    exists_and_right]

/-- What is found is there. -/
theorem exists_of_found {a : Nat} (hfound : w.found a = some h) : ∃ r, w.store.get? h = some r := by
  unfold found at hfound
  split at hfound
  · obtain ⟨r, hr, -⟩ := Store.get?_of_find? hfound
    exact ⟨r, hr⟩
  · cases hfound

/-- A change of protection is written into the record that was found. -/
theorem bare?_note {a l : Nat} {ρ : Rights} (hfound : w.found a = some h)
    (hr : w.store.get? h = some r) :
    (w.note a l ρ).store.bare? = Function.update w.store.bare? h (some (r.protect ρ).bare) := by
  unfold note
  rw [hfound]
  simp only
  funext k
  rw [Store.bare?, (w.noteProtection_of_get? hr a l ρ).1, Function.update_apply,
    Function.update_apply]
  split <;> rfl

/-- Where no record was found, a change of protection is not noted. -/
theorem note_of_not_found {a l : Nat} {ρ : Rights} (hfound : w.found a = none) :
    w.note a l ρ = w := by
  unfold note
  rw [hfound]

/-- Noting a change of protection changes no page. -/
theorem rightsAt_note (w : Warden) (a l : Nat) (ρ : Rights) :
    (w.note a l ρ).machine.rightsAt = w.machine.rightsAt := by
  cases hfound : w.found a with
  | none => rw [note_of_not_found hfound]
  | some h =>
    obtain ⟨r, hr⟩ := exists_of_found hfound
    unfold note
    rw [hfound]
    exact (w.noteProtection_of_get? hr a l ρ).2.2

/-- **A change of protection** is added to the history of the record that
was found, on all of its pages, and to no other. -/
theorem tracks_note {a l : Nat} {ρ : Rights} :
    (w.note a l ρ).store.Tracks none n g ↔
      w.store.Tracks (w.found a) n g ∨ ∃ h r, w.found a = some h ∧ w.store.get? h = some r ∧
        r.Covers n ∧ r.granted.union ρ = g := by
  cases hfound : w.found a with
  | none =>
    rw [note_of_not_found hfound]
    exact ⟨Or.inl, fun htracks => htracks.resolve_right fun ⟨_, _, hh, _⟩ => nomatch hh⟩
  | some h =>
    obtain ⟨r, hr⟩ := exists_of_found hfound
    rw [Store.tracks_update_iff (bare?_note hfound hr)]
    constructor
    · rintro (⟨hn, hg⟩ | hothers)
      · exact Or.inr ⟨h, r, rfl, hr, hn, hg⟩
      · exact Or.inl hothers
    · rintro (hothers | ⟨k, q, hk, hq, hn, hg⟩)
      · exact Or.inr hothers
      · cases hk
        obtain rfl : r = q := Option.some.inj (hr.symm.trans hq)
        exact Or.inl ⟨hn, hg⟩

/-- **A move that no record is taken to be about** leaves its new range
untracked. -/
theorem tracks_resettle_none {q : MoveRequest} {moved : Nat} (hs : w.store.Shaped)
    (ha : Aligned moved) :
    (w.resettle none q moved).store.Tracks none n g ↔
      w.store.Tracks none n g ∧ ¬ q.New moved n :=
  tracks_carve hs ha (ha.add_roundUp _) w.live_none

/-- A record that follows its mapping leaves all of its pages, and covers
the new range. -/
theorem bare?_resettle {q : MoveRequest} {moved : Nat} (hr : w.store.get? h = some r) :
    (w.resettle (some h) q moved).store.bare? =
      Function.update (w.carve moved (moved + roundUp q.newLength pageSize) (some h)).store.bare? h
        (some { r.bare with base := moved, length := q.newLength }) :=
  bare?_follow (get?_carve_keep hr moved (moved + roundUp q.newLength pageSize)) q moved

/-- **A move that a record is taken to be about** brings that record to the
new range with the history it had, and takes the range from the others. -/
theorem tracks_resettle_some {q : MoveRequest} {moved : Nat} (hs : w.store.Shaped)
    (ha : Aligned moved) (hr : w.store.get? h = some r) :
    (w.resettle (some h) q moved).store.Tracks none n g ↔
      (q.New moved n ∧ r.granted = g) ∨ (w.store.Tracks (some h) n g ∧ ¬ q.New moved n) := by
  rw [Store.tracks_update_iff (bare?_resettle hr),
    tracks_carve hs ha (ha.add_roundUp _) (live_some hr)]
  exact Iff.rfl

/-! ## The whole of a move -/

variable {q : MoveRequest} {moved : Nat} {m : Machine}

/-- Where no record was found, a move leaves its new range untracked. -/
theorem tracks_relocate_none (hs : w.store.Shaped) (hcache : w.config.useMappingCache = true)
    (hmove : (w.lifted q.address).machine.move q = (.ok moved, m))
    (hfind : w.store.find? q.address = none) :
    (w.relocate q).2.store.Tracks none n g ↔ w.store.Tracks none n g ∧ ¬ q.New moved n := by
  have hshaped : (w.lifted q.address).store.Shaped := shaped_congr hs (bare?_lifted w _)
  rw [(relocate_of_move hcache hmove).2, hfind,
    tracks_resettle_none (w := { w.lifted q.address with machine := m }) hshaped
      (Machine.aligned_of_move hmove).2.1]
  exact and_congr_left' (Store.tracks_congr (bare?_lifted w q.address))

/-- The record that was found is moved to the new range with its history. -/
theorem tracks_relocate_some (hs : w.store.Shaped) (hcache : w.config.useMappingCache = true)
    (hmove : (w.lifted q.address).machine.move q = (.ok moved, m))
    (hfind : w.store.find? q.address = some h) (hr : w.store.get? h = some r) :
    (w.relocate q).2.store.Tracks none n g ↔
      (q.New moved n ∧ r.granted = g) ∨ (w.store.Tracks (some h) n g ∧ ¬ q.New moved n) := by
  have hshaped : (w.lifted q.address).store.Shaped := shaped_congr hs (bare?_lifted w _)
  have hbare : (w.lifted q.address).store.get? h = some r.bare := by
    rw [(lifted_of_find? hfind hr).1, Function.update_self]
  rw [(relocate_of_move hcache hmove).2, hfind,
    tracks_resettle_some (w := { w.lifted q.address with machine := m }) hshaped
      (Machine.aligned_of_move hmove).2.1 hbare]
  exact or_congr Iff.rfl (and_congr_left' (Store.tracks_congr (bare?_lifted w q.address)))

/-- **What other records track outside of the new range** they track still. -/
theorem tracks_relocate (hs : w.store.Shaped) (hcache : w.config.useMappingCache = true)
    (hmove : (w.lifted q.address).machine.move q = (.ok moved, m))
    (htracks : w.store.Tracks (w.store.find? q.address) n g) (hnew : ¬ q.New moved n) :
    (w.relocate q).2.store.Tracks none n g := by
  cases hfind : w.store.find? q.address with
  | none =>
    rw [hfind] at htracks
    exact (tracks_relocate_none hs hcache hmove hfind).2 ⟨htracks, hnew⟩
  | some h =>
    obtain ⟨f, hf, -⟩ := Store.get?_of_find? hfind
    rw [hfind] at htracks
    exact (tracks_relocate_some hs hcache hmove hfind hf).2 (Or.inr ⟨htracks, hnew⟩)

end Warden

end PageWarden
