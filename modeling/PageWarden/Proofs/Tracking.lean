import PageWarden.Proofs.FollowUp
/-!
# Tracking — memory that stays in place stays tracked

A page that an operation leaves where it is should be covered afterwards
by a record that knows at least as much of its history. All operations
keep to this but one: a move changes the record at its start as a whole,
whatever part of it was moved. `Warden.Forsakes` is what goes wrong then,
read off the state before: a page that stays where it is has no record
that will answer for it (`Store.Heir`). `keepsTracking_iff` says that
nothing else ever does.
-/

namespace PageWarden

namespace Store

variable {s t : Store} {h k : Handle} {q r : Record} {n : Nat} {g : Rights}
variable {skip : Option Handle}

/-- Some record covers page `n` and its history includes `g`. -/
def Answers (s : Store) (n : Nat) (g : Rights) : Prop :=
  ∃ k r, s.get? k = some r ∧ r.Covers n ∧ r.granted.has g = true

/-- After a move to `moved` some record will answer for page `n` and the
history `g`: in the new range the record that was found, which goes there
as a whole, and elsewhere any other record that covers the page. -/
def Heir (s : Store) (found : Option Handle) (q : MoveRequest) (moved n : Nat) (g : Rights) :
    Prop :=
  if q.New moved n then ∃ h r, found = some h ∧ s.get? h = some r ∧ r.granted.has g = true
  else ∃ k r, some k ≠ found ∧ s.get? k = some r ∧ r.Covers n ∧ r.granted.has g = true

/-- Guards have no part in who is an heir. -/
theorem heir_of_bare? {found : Option Handle} {q : MoveRequest} {moved : Nat}
    (hst : s.bare? = t.bare?) (hs : s.Heir found q moved n g) : t.Heir found q moved n g := by
  have hfind : ∀ k r, s.get? k = some r → ∃ o, t.get? k = some o ∧ o.bare = r.bare := by
    intro k r hr
    refine exists_get?_of_bare? ?_
    rw [← hst]
    exact bare?_of_get? hr
  unfold Heir at hs ⊢
  split at hs
  · rename_i hnew
    obtain ⟨h, r, hh, hr, hg⟩ := hs
    obtain ⟨o, ho, hbare⟩ := hfind h r hr
    rw [if_pos hnew]
    exact ⟨h, o, hh, ho, Record.granted_congr hbare ▸ hg⟩
  · rename_i hnew
    obtain ⟨k, r, hk, hr, hn, hg⟩ := hs
    obtain ⟨o, ho, hbare⟩ := hfind k r hr
    rw [if_neg hnew]
    exact ⟨k, o, hk, ho, (Record.covers_congr hbare n).2 hn, Record.granted_congr hbare ▸ hg⟩

/-- A record answers for its own pages. -/
theorem tracks_of_get? (hk : some k ≠ skip) (hr : s.get? k = some r) (hn : r.Covers n) :
    s.Tracks skip n r.granted :=
  ⟨k, r, hk, hr, hn, rfl⟩

/-- What is tracked is answered for. -/
theorem answers_of_tracks (h : s.Tracks skip n g) : s.Answers n g := by
  obtain ⟨k, r, -, hr, hn, rfl⟩ := h
  exact ⟨k, r, hr, hn, Rights.has_refl _⟩

/-- Answering is tracking with a history that includes what is asked for. -/
theorem answers_iff : s.Answers n g ↔ ∃ g', s.Tracks none n g' ∧ g'.has g = true := by
  constructor
  · rintro ⟨k, r, hr, hn, hg⟩
    exact ⟨r.granted, tracks_of_get? (Option.some_ne_none k) hr hn, hg⟩
  · rintro ⟨-, ⟨k, r, -, hr, hn, rfl⟩, hg⟩
    exact ⟨k, r, hr, hn, hg⟩

end Store

namespace Warden

variable {w : Warden} {h k : Handle} {r : Record} {n : Nat}

/-! ## What stays in place -/

/-- The operation takes page `n` away, or puts something else there. -/
def Displaces (w : Warden) : Operation → Nat → Prop
  | .create q, n => ∃ a, (w.create q).1 = .ok a ∧ PageIn a (a + roundUp q.length pageSize) n
  | .remove a l, n => (w.remove a l).1 = .ok () ∧ PageIn a (a + roundUp l pageSize) n
  | .relocate q, n => ∃ moved, (w.relocate q).1 = .ok moved ∧
      if moved = q.address then ¬ (q.Old n ↔ q.New moved n) else q.Old n ∨ q.New moved n
  | .makeExecuteOnly s c, n =>
      ∃ a, (w.makeExecuteOnly s c).1 = .ok a ∧ PageIn a (a + roundUp s pageSize) n
  | .releaseExecuteOnly a l, n => (w.releaseExecuteOnly a l).1 = .ok () ∧
      ∃ r, w.lookup a = some r ∧ r.Covers n
  | .reprotect _ _ _, _ => False
  | .teardown, _ => False

/-- Page `n` is mapped before and after the operation, which neither
replaces nor moves it. -/
def InPlace (w : Warden) (op : Operation) (n : Nat) : Prop :=
  (w.machine.rightsAt n).isSome ∧ ((w.perform op).2.machine.rightsAt n).isSome ∧
    ¬ w.Displaces op n

/-- Every page that is tracked and stays in place is still tracked after
the operation, by a record whose history includes what it was. -/
def KeepsTracking (w : Warden) (op : Operation) : Prop :=
  ∀ k r n, w.store.get? k = some r → r.Covers n → w.InPlace op n →
    (w.perform op).2.store.Answers n r.granted

/-- The operation is a move, and a tracked page that stays in place has no
heir. -/
def Forsakes (w : Warden) : Operation → Prop
  | .relocate q => ∃ moved k r n, (w.relocate q).1 = .ok moved ∧ w.store.get? k = some r ∧
      r.Covers n ∧ w.InPlace (.relocate q) n ∧
      ¬ w.store.Heir (w.store.find? q.address) q moved n r.granted
  | _ => False

/-! ## What each operation keeps -/

/-- Noting a protection adds to a history. -/
theorem answers_note (hr : w.store.get? k = some r) (hn : r.Covers n) (a l : Nat) (ρ : Rights) :
    (w.note a l ρ).store.Answers n r.granted := by
  rw [Store.answers_iff]
  by_cases hk : w.found a = some k
  · exact ⟨_, tracks_note.2 (Or.inr ⟨k, r, hk, hr, hn, rfl⟩), Record.granted_protect_has r ρ⟩
  · have hothers : w.store.Tracks (w.found a) n r.granted :=
      Store.tracks_of_get? (fun heq => hk heq.symm) hr hn
    exact ⟨_, tracks_note.2 (Or.inl hothers), Rights.has_refl _⟩

/-- **Who answers for a page after a move** is its heir. -/
theorem answers_resettle_iff {q : MoveRequest} {moved : Nat} {g : Rights}
    {found : Option Handle} (hs : w.store.Shaped) (ha : Aligned moved)
    (hlive : w.Live found) :
    (w.resettle found q moved).store.Answers n g ↔ w.store.Heir found q moved n g := by
  have hothers : ∀ g', w.store.Tracks found n g' ∧ g'.has g = true →
      ∃ k r, some k ≠ found ∧ w.store.get? k = some r ∧ r.Covers n ∧ r.granted.has g = true := by
    rintro - ⟨⟨k, r, hk, hr, hn, rfl⟩, hg⟩
    exact ⟨k, r, hk, hr, hn, hg⟩
  rw [Store.answers_iff]
  unfold Store.Heir
  cases found with
  | none =>
    simp only [tracks_resettle_none hs ha]
    by_cases hnew : q.New moved n
    · simp [hnew]
    · simp only [hnew, not_false_eq_true, and_true, if_false]
      constructor
      · rintro ⟨g', htracks⟩
        exact hothers g' htracks
      · rintro ⟨k, r, hk, hr, hn, hg⟩
        exact ⟨_, Store.tracks_of_get? hk hr hn, hg⟩
  | some h =>
    obtain ⟨f, hf⟩ := Option.isSome_iff_exists.1 (hlive h rfl)
    simp only [tracks_resettle_some hs ha hf]
    by_cases hnew : q.New moved n
    · simp [hnew, hf]
    · simp only [hnew, not_false_eq_true, false_and, and_true, false_or, if_false]
      constructor
      · rintro ⟨g', htracks⟩
        exact hothers g' htracks
      · rintro ⟨k, r, hk, hr, hn, hg⟩
        exact ⟨_, Store.tracks_of_get? hk hr hn, hg⟩

/-- A store that is the same but for guards answers alike. -/
theorem answers_of_bare? {s t : Store} {g : Rights} (hst : t.bare? = s.bare?)
    (h : s.Answers n g) : t.Answers n g := by
  simp only [Store.answers_iff, Store.tracks_iff, hst] at h ⊢
  exact h

/-- Without faults the pages of a record can be unmapped. -/
theorem unmap_of_shaped {m : Machine} (hm : m.faults = .never) (hr : r.Shaped) :
    (m.unmap r.base r.length).1 = .ok () := by
  have hgood : ¬ (¬ Aligned r.base ∨ r.length = 0) := by
    rintro (h | h)
    · exact h hr.1
    · exact absurd hr.2 (by rw [h]; exact Nat.lt_irrefl 0)
  unfold Machine.unmap Machine.perform
  simp only [hm]
  show (m.space.unmap r.base r.length).1 = .ok ()
  unfold Space.unmap
  rw [if_neg hgood]

/-- A move keeps the tracking of what stays in place, unless a page has no
heir. -/
theorem keepsTracking_relocate_iff (hs : w.store.Shaped)
    (hcache : w.config.useMappingCache = true) (q : MoveRequest) :
    w.KeepsTracking (.relocate q) ↔ ¬ w.Forsakes (.relocate q) := by
  rcases w.relocate_cases q hcache with ⟨_, m, -, ⟨f, hf⟩, h⟩ | ⟨moved, m, hmove, hok, h⟩
  · refine iff_of_true (fun k r n hr hn _ => ?_) ?_
    · show (w.relocate q).2.store.Answers n r.granted
      rw [h]
      refine answers_of_bare? ((bare?_restore _ _ _ _).trans (bare?_lifted w q.address)) ?_
      exact ⟨k, r, hr, hn, Rights.has_refl _⟩
    · rintro ⟨moved, _, _, _, hok, -⟩
      rw [hf] at hok
      cases hok
  · have hanswers : ∀ n g, (w.relocate q).2.store.Answers n g ↔
        w.store.Heir (w.store.find? q.address) q moved n g := by
      intro n g
      have hlifted : ({ w.lifted q.address with machine := m } : Warden).store.Shaped :=
        shaped_congr hs (bare?_lifted w q.address)
      rw [h, answers_resettle_iff hlifted (Machine.aligned_of_move hmove).2.1 (live_lifted w _)]
      exact ⟨Store.heir_of_bare? (bare?_lifted w q.address),
        Store.heir_of_bare? (bare?_lifted w q.address).symm⟩
    constructor
    · rintro hkeeps ⟨moved', k, r, n, hok', hr, hn, hin, hno⟩
      rw [hok] at hok'
      cases hok'
      exact hno ((hanswers n _).1 (hkeeps k r n hr hn hin))
    · intro hno k r n hr hn hin
      by_contra hlost
      exact hno ⟨moved, k, r, n, hok, hr, hn, hin, fun hheir => hlost ((hanswers n _).2 hheir)⟩

/-- Without faults, releasing execute-only memory keeps the tracking of
what stays in place: the pages of the record that leaves are unmapped. -/
theorem keepsTracking_releaseExecuteOnly (hs : w.store.Shaped)
    (hfaults : w.machine.faults = .never) (a l : Nat) :
    w.KeepsTracking (.releaseExecuteOnly a l) := by
  intro k r n hr hn hin
  show (w.releaseExecuteOnly a l).2.store.Answers n r.granted
  rcases w.releaseExecuteOnly_cases a l with
    ⟨-, h⟩ | ⟨h, f, t, m, o, m', -, hfind, hremove, -, hm, hunmap, hok, ht, -⟩
  · rw [h.store]
    exact ⟨k, r, hr, hn, Rights.has_refl _⟩
  · have hf := (Store.remove_eq_some_iff.1 hremove).1
    have hmfaults : m.faults = .never := by
      rcases hm with rfl | ⟨e, rfl⟩
      · exact (Guard.upkeep_removeAll _ f).calls.faults hfaults
      · exact ((Guard.upkeep_removeAll _ f).tell e).calls.faults hfaults
    have hunmapped : o = .ok () := by
      have hresult := unmap_of_shaped hmfaults (hs h f hf)
      rwa [hunmap] at hresult
    -- the pages of the record that leaves are unmapped, so none of them stays in place
    have hkh : k ≠ h := by
      rintro rfl
      obtain rfl : f = r := Option.some.inj (hf.symm.trans hr)
      refine hin.2.2 ⟨hok.1 hunmapped, f, ?_, hn⟩
      show (w.store.find? a).bind w.store.get? = some f
      rw [hfind]
      exact hf
    refine ⟨k, r, ?_, hn, Rights.has_refl _⟩
    rw [ht, Store.get?_of_remove hremove, if_neg hkh, hr]

/-- **One operation keeps the tracking of what stays in place, unless it
forsakes a page.** -/
theorem keepsTracking_iff_of_shaped (hs : w.store.Shaped) (hfaults : w.machine.faults = .never)
    (hcache : w.config.useMappingCache = true) {op : Operation} (hop : op ≠ .teardown) :
    w.KeepsTracking op ↔ ¬ w.Forsakes op := by
  have hsame : ∀ {v : Warden}, v.store = w.store → ∀ {k r n}, w.store.get? k = some r →
      r.Covers n → v.store.Answers n r.granted := by
    intro v hv k r n hr hn
    rw [hv]
    exact ⟨k, r, hr, hn, Rights.has_refl _⟩
  cases op with
  | create q =>
    refine iff_of_true (fun k r n hr hn hin => ?_) not_false
    show (w.create q).2.store.Answers n r.granted
    rcases w.create_cases q with ⟨-, h⟩ | ⟨a, m, hmap, hok, h⟩
    · exact hsame h.store hr hn
    · rw [h.store]
      have htracks : w.store.Tracks none n r.granted :=
        Store.tracks_of_get? (Option.some_ne_none k) hr hn
      exact Store.answers_of_tracks ((tracks_settle (w := { w with machine := m }) hs hcache
        (Machine.aligned_of_map hmap).1).2 (Or.inr ⟨htracks, fun hpage => hin.2.2 ⟨a, hok, hpage⟩⟩))
  | remove a l =>
    refine iff_of_true (fun k r n hr hn hin => ?_) not_false
    show (w.remove a l).2.store.Answers n r.granted
    rcases w.remove_cases a l with ⟨-, h⟩ | ⟨m, hunmap, hok, h⟩
    · exact hsame h.store hr hn
    · obtain ⟨ha, hlen⟩ := Machine.aligned_of_unmap hunmap
      rw [h, if_pos hcache]
      have htracks : w.store.Tracks none n r.granted :=
        Store.tracks_of_get? (Option.some_ne_none k) hr hn
      exact Store.answers_of_tracks ((tracks_vacate (w := { w with machine := m }) hs ha hlen).2
        ⟨htracks, fun hpage => hin.2.2 ⟨hok, hpage⟩⟩)
  | reprotect a l ρ =>
    refine iff_of_true (fun k r n hr hn _ => ?_) not_false
    show (w.reprotect a l ρ).2.store.Answers n r.granted
    rcases w.reprotect_cases a l ρ with ⟨-, h⟩ | ⟨m, -, -, h⟩
    · exact hsame h.store hr hn
    · rw [h]
      exact answers_note (w := { w with machine := m }) hr hn a l ρ
  | relocate q => exact keepsTracking_relocate_iff hs hcache q
  | makeExecuteOnly s c =>
    refine iff_of_true (fun k r n hr hn _ => ?_) not_false
    show (w.makeExecuteOnly s c).2.store.Answers n r.granted
    rcases w.makeExecuteOnly_cases s c with ⟨-, h, -⟩ | ⟨a, x, m, -, -, -, -, -, -, -, h⟩
    · exact hsame h hr hn
    · rw [h.store]
      have htracks : w.store.Tracks none n r.granted :=
        Store.tracks_of_get? (Option.some_ne_none k) hr hn
      exact Store.answers_of_tracks (tracks_enroll.2 (Or.inr htracks))
  | releaseExecuteOnly a l =>
    exact iff_of_true (keepsTracking_releaseExecuteOnly hs hfaults a l) not_false
  | teardown => exact absurd rfl hop

/-- **Tracking is lost only where a move forsakes a page.** Over every run
without faults that begins without records, and for every operation after
it but giving everything up: each tracked page that stays in place is
still covered, with at least the history it had, exactly unless the
operation is a move that leaves a page without an heir. -/
theorem keepsTracking_iff (hempty : w.store = .empty) (hfaults : w.machine.faults = .never)
    (hcache : w.config.useMappingCache = true) (ops : List Operation) {op : Operation}
    (hop : op ≠ .teardown) :
    (w.run ops).KeepsTracking op ↔ ¬ (w.run ops).Forsakes op := by
  refine keepsTracking_iff_of_shaped (shaped_run (shaped_of_empty hempty) ops)
    (faults_run hfaults ops) ?_ hop
  rw [config_run]
  exact hcache

/-- A mapping of three pages, and a move of the first of them. -/
theorem tracking_lost_by_moving_a_part :
    ((start { useMappingCache := true }).run
        [.create ⟨0, 12288, .readWrite, .privateAnonymous, -1, 0⟩]).Forsakes
      (.relocate ⟨0x7effffffd000, 4096, 4096, ⟨3⟩, 0x1000000000⟩) ∧
    ¬ ((start { useMappingCache := true }).run
        [.create ⟨0, 12288, .readWrite, .privateAnonymous, -1, 0⟩]).KeepsTracking
      (.relocate ⟨0x7effffffd000, 4096, 4096, ⟨3⟩, 0x1000000000⟩) := by
  have hforsakes : ((start { useMappingCache := true }).run
      [.create ⟨0, 12288, .readWrite, .privateAnonymous, -1, 0⟩]).Forsakes
        (.relocate ⟨0x7effffffd000, 4096, 4096, ⟨3⟩, 0x1000000000⟩) := by
    refine ⟨0x1000000000, ⟨0, 0⟩, .fresh 0x7effffffd000 12288 .readWrite,
      pageOf 0x7efffffff000, rfl, rfl, by decide, ⟨rfl, rfl, ?_⟩, ?_⟩
    · rintro ⟨moved, hok, hrange⟩
      obtain rfl : 0x1000000000 = moved := Except.ok.inj hok
      revert hrange
      decide
    · rintro ⟨k, r, hk, hr, -⟩
      have hmem := Store.mem_entries_iff.2 hr
      obtain ⟨rfl, -⟩ := Prod.mk.inj (List.mem_singleton.1 hmem)
      exact hk rfl
  refine ⟨hforsakes, fun hkeeps => ?_⟩
  exact (keepsTracking_iff rfl rfl rfl _ (by decide)).1 hkeeps hforsakes

end Warden

end PageWarden
