import PageWarden.Proofs.InStep.Operation
/-!
# Sound histories — what pages allow was granted

The history of a record should include whatever its pages allow. A change
of protection breaks this when it reaches a record other than the one
found at its start: pages of that record change and its history is not
told. There are two more ways, and both need a record that covers a page
that is not mapped: execute-only memory may be given that page, and a
move of no pages may grow from it with the rights of the page below
(`Warden.Slips`). `sound_throughout_iff` says that this is all, and that
where no move strands pages the changes of protection alone are to blame.
-/

namespace PageWarden

/-- Every history includes no rights at all. -/
theorem Rights.has_noAccess (g : Rights) : g.has .noAccess = true := by
  simp [has, noAccess]

namespace Warden

variable {w : Warden} {h : Handle} {r : Record} {n : Nat} {g ρ : Rights}

/-- What a page of a record allows is in the record's history. -/
def Sound (w : Warden) : Prop :=
  ∀ k r n ρ, w.store.get? k = some r → r.Covers n → w.machine.rightsAt n = some ρ →
    r.granted.has ρ = true

/-- A change of protection reaches a record that it is not taken to be
about, and whose history lacks the new rights. -/
def Overreaches (w : Warden) : Operation → Prop
  | .reprotect a l ρ => (w.reprotect a l ρ).1 = .ok () ∧
      ∃ k r n, some k ≠ w.store.find? a ∧ w.store.get? k = some r ∧ r.Covers n ∧
        PageIn a (a + roundUp l pageSize) n ∧ r.granted.has ρ = false
  | _ => False

/-- A page of a record comes to allow what is not in the history: a change
of protection overreaches, execute-only memory is given a page that was
covered but not mapped, or a move of no pages grows from such a page. -/
def Slips (w : Warden) : Operation → Prop
  | .reprotect a l ρ => w.Overreaches (.reprotect a l ρ)
  | .makeExecuteOnly s c => ∃ k r n ρ, w.store.get? k = some r ∧ r.Covers n ∧
      w.machine.rightsAt n = none ∧
      (w.makeExecuteOnly s c).2.machine.rightsAt n = some ρ ∧ r.granted.has ρ = false
  | .relocate q => q.length = 0 ∧ ∃ moved k r n ρ, (w.relocate q).1 = .ok moved ∧
      w.store.find? q.address = some k ∧ w.store.get? k = some r ∧ q.New moved n ∧
      (w.relocate q).2.machine.rightsAt n = some ρ ∧ r.granted.has ρ = false
  | _ => False

/-- Soundness in terms of what is tracked. -/
theorem sound_iff : w.Sound ↔
    ∀ n g ρ, w.store.Tracks none n g → w.machine.rightsAt n = some ρ → g.has ρ = true := by
  constructor
  · rintro hw n - ρ ⟨k, r, -, hr, hn, rfl⟩ hρ
    exact hw k r n ρ hr hn hρ
  · intro hw k r n ρ hr hn hρ
    exact hw n r.granted ρ ⟨k, r, Option.some_ne_none k, hr, hn, rfl⟩ hρ

/-- What `v` tracks and maps, `w` tracked and mapped with the same rights,
or the rights are none. -/
theorem Sound.of_kept {v : Warden} (hw : w.Sound)
    (hkept : ∀ n g ρ, v.store.Tracks none n g → v.machine.rightsAt n = some ρ →
      (w.store.Tracks none n g ∧ w.machine.rightsAt n = some ρ) ∨ g.has ρ = true) : v.Sound := by
  rw [sound_iff] at hw ⊢
  intro n g ρ htracks hρ
  rcases hkept n g ρ htracks hρ with ⟨htracks, hρ⟩ | hhas
  · exact hw n g ρ htracks hρ
  · exact hhas

/-- What a difference in bytes and keys leaves is sound as well. -/
theorem Alike.sound {v : Warden} (h : Alike v w) (hv : v.Sound) : w.Sound := by
  unfold Sound
  rw [h.store, h.rightsAt]
  exact hv

/-! ## Requests -/

/-- **Making memory keeps histories sound**: a record that is made for it
starts with its rights, and no other record is left in its range. -/
theorem sound_create (hs : w.store.Shaped) (hcache : w.config.useMappingCache = true)
    (hw : w.Sound) (q : MapRequest) : (w.create q).2.Sound := by
  rcases w.create_cases q with ⟨-, h⟩ | ⟨a, m, hmap, -, h⟩
  · exact h.sound hw
  · refine h.sound (hw.of_kept fun n g ρ htracks hρ => ?_)
    have hm := (upkeep_settle { w with machine := m } q a).rightsAt hρ
    rw [tracks_settle (w := { w with machine := m }) hs hcache (Machine.aligned_of_map hmap).1]
      at htracks
    rcases hm with hm | rfl
    · have hm : m.rightsAt n = some ρ := hm
      rw [Machine.rightsAt_map hmap] at hm
      rcases htracks with ⟨-, hn, rfl⟩ | ⟨htracks, hn⟩
      · rw [if_pos hn] at hm
        rw [Option.some.inj hm]
        exact Or.inr (Rights.has_refl ρ)
      · rw [if_neg hn] at hm
        exact Or.inl ⟨htracks, hm⟩
    · exact Or.inr (Rights.has_noAccess g)

/-- **Releasing memory keeps histories sound.** -/
theorem sound_remove (hs : w.store.Shaped) (hcache : w.config.useMappingCache = true)
    (hw : w.Sound) (a l : Nat) : (w.remove a l).2.Sound := by
  rcases w.remove_cases a l with ⟨-, h⟩ | ⟨m, hunmap, -, h⟩
  · exact h.sound hw
  · obtain ⟨ha, hlen⟩ := Machine.aligned_of_unmap hunmap
    rw [h, if_pos hcache]
    refine hw.of_kept fun n g ρ htracks hρ => ?_
    obtain ⟨htracks, hn⟩ := (tracks_vacate (w := { w with machine := m }) hs ha hlen).1 htracks
    rcases (upkeep_vacate { w with machine := m } a l).rightsAt hρ with hm | rfl
    · have hm : m.rightsAt n = some ρ := hm
      rw [Machine.rightsAt_unmap hunmap, if_neg hn] at hm
      exact Or.inl ⟨htracks, hm⟩
    · exact Or.inr (Rights.has_noAccess g)

/-- **A change of protection keeps histories sound exactly unless it
overreaches.** -/
theorem sound_reprotect_iff (hcache : w.config.useMappingCache = true) (hw : w.Sound)
    (a l : Nat) (ρ : Rights) :
    (w.reprotect a l ρ).2.Sound ↔ ¬ w.Overreaches (.reprotect a l ρ) := by
  rcases w.reprotect_cases a l ρ with ⟨⟨f, hf⟩, h⟩ | ⟨m, hprotect, hok, h⟩
  · refine iff_of_true (h.sound hw) ?_
    rintro ⟨hok, -⟩
    rw [hf] at hok
    cases hok
  · have hfound : Warden.found { w with machine := m } a = w.store.find? a := by
      unfold found
      exact if_pos hcache
    have htracked : ∀ n g, (w.reprotect a l ρ).2.store.Tracks none n g ↔
        w.store.Tracks (w.store.find? a) n g ∨ ∃ h r, w.store.find? a = some h ∧
          w.store.get? h = some r ∧ r.Covers n ∧ r.granted.union ρ = g := by
      intro n g
      rw [h, tracks_note, hfound]
    have hrights : ∀ n, (w.reprotect a l ρ).2.machine.rightsAt n =
        if PageIn a (a + roundUp l pageSize) n then some ρ else w.machine.rightsAt n := by
      intro n
      rw [h, rightsAt_note]
      exact Machine.rightsAt_protect hprotect n
    constructor
    · rintro hsound ⟨-, k, r, n, hk, hr, hn, hin, hlacks⟩
      have htracks := (htracked n r.granted).2 (Or.inl ⟨k, r, hk, hr, hn, rfl⟩)
      have hhas := sound_iff.1 hsound n _ ρ htracks (by rw [hrights, if_pos hin])
      rw [hlacks] at hhas
      cases hhas
    · intro hno
      rw [sound_iff]
      intro n g σ htracks hσ
      rw [hrights] at hσ
      -- another record is reached only by overreaching; the one found is told
      rcases (htracked n g).1 htracks with ⟨k, r, hk, hr, hn, rfl⟩ | ⟨h, r, hh, hr, hn, rfl⟩
      · split at hσ
        · rename_i hin
          cases hσ
          by_contra hlacks
          exact hno ⟨hok, k, r, n, hk, hr, hn, hin, Bool.eq_false_iff.2 hlacks⟩
        · exact hw k r n σ hr hn hσ
      · split at hσ
        · cases hσ
          exact Rights.union_has_right _ _
        · exact Rights.has_trans (Rights.union_has_left _ _) (hw h r n σ hr hn hσ)

/-! ## Moves -/

section Move

variable {q : MoveRequest} {moved : Nat} {m : Machine}

/-- A move that fails keeps histories sound: at most it takes the old pages
away. -/
theorem sound_of_move_error {e : Errno} (hw : w.Sound)
    (hmove : (w.lifted q.address).machine.move q = (.error e, m)) (found : Option Handle)
    (below above : Bool) :
    (restore { w.lifted q.address with machine := m } found below above).Sound := by
  refine hw.of_kept fun n g ρ htracks hρ => ?_
  rw [Store.tracks_congr (bare?_restore _ _ _ _)] at htracks
  rcases (upkeep_restore { w.lifted q.address with machine := m } found below above).rightsAt hρ
    with hm | rfl
  · have hm : m.rightsAt n = some ρ := hm
    have hold : (w.lifted q.address).machine.rightsAt n = some ρ := by
      rcases Machine.rightsAt_move_error hmove with hsame | hlost
      · rwa [hsame] at hm
      · rw [hlost] at hm
        split at hm
        · cases hm
        · exact hm
    rcases (upkeep_lifted w q.address).rightsAt hold with hold | rfl
    · exact Or.inl ⟨(Store.tracks_congr (bare?_lifted w q.address)).1 htracks, hold⟩
    · exact Or.inr (Rights.has_noAccess g)
  · exact Or.inr (Rights.has_noAccess g)

/-- **What a move brings to the new range was granted**: it has the rights
of the first old page, if that was mapped. -/
theorem has_of_moved (hs : w.store.Shaped) (hw : w.Sound)
    (hfind : w.store.find? q.address = some h) (hr : w.store.get? h = some r)
    (hmove : (w.lifted q.address).machine.move q = (.ok moved, m)) (hn : q.New moved n)
    (hρ : m.rightsAt n = some ρ) :
    r.granted.has ρ = true ∨ (w.lifted q.address).machine.rightsAt (pageOf q.address) = none := by
  obtain ⟨r', hr', hcontains⟩ := Store.get?_of_find? hfind
  obtain rfl : r = r' := Option.some.inj (hr.symm.trans hr')
  have hcovers := Record.covers_of_contains (hs h r hr) (Machine.aligned_of_move hmove).1 hcontains
  obtain ⟨σ, hσ, hcases⟩ := Machine.rightsAt_move_new hmove hn
  obtain rfl : σ = ρ := Option.some.inj (hσ.symm.trans hρ)
  rcases hcases with rfl | hnone | hfirst
  · exact Or.inl (Rights.has_noAccess _)
  · exact Or.inr hnone
  · rcases (upkeep_lifted w q.address).rightsAt hfirst with hold | rfl
    · exact Or.inl (hw h r _ σ hr hcovers hold)
    · exact Or.inl (Rights.has_noAccess _)

/-- A range that has pages has its first page mapped when it is moved. -/
theorem length_eq_zero_of_move (hmove : (w.lifted q.address).machine.move q = (.ok moved, m))
    (hnone : (w.lifted q.address).machine.rightsAt (pageOf q.address) = none) : q.length = 0 := by
  by_contra hlen
  have hfirst : q.Old (pageOf q.address) :=
    pageIn_first (Machine.aligned_of_move hmove).1 (Nat.pos_of_ne_zero hlen)
  have hmapped := Machine.isSome_rightsAt_of_move hmove hfirst
  rw [hnone] at hmapped
  cases hmapped

/-- What follows up a move gives no page any rights. -/
theorem rightsAt_of_relocate (hcache : w.config.useMappingCache = true)
    (hmove : (w.lifted q.address).machine.move q = (.ok moved, m))
    (hρ : (w.relocate q).2.machine.rightsAt n = some ρ) :
    m.rightsAt n = some ρ ∨ ρ = .noAccess := by
  rw [(relocate_of_move hcache hmove).2] at hρ
  exact (upkeep_resettle { w.lifted q.address with machine := m } _ q moved).rightsAt hρ

/-- Outside of the new range a move only takes pages away. -/
theorem rightsAt_of_relocate_of_not_new (hcache : w.config.useMappingCache = true)
    (hmove : (w.lifted q.address).machine.move q = (.ok moved, m)) (hn : ¬ q.New moved n)
    (hρ : (w.relocate q).2.machine.rightsAt n = some ρ) :
    w.machine.rightsAt n = some ρ ∨ ρ = .noAccess := by
  rcases rightsAt_of_relocate hcache hmove hρ with hm | hnone
  · rw [Machine.rightsAt_move hmove hn] at hm
    split at hm
    · cases hm
    · exact (upkeep_lifted w q.address).rightsAt hm
  · exact Or.inr hnone

/-- **A move keeps histories sound exactly unless it slips.** -/
theorem sound_relocate_iff (hs : w.store.Shaped) (hcache : w.config.useMappingCache = true)
    (hw : w.Sound) (q : MoveRequest) :
    (w.relocate q).2.Sound ↔ ¬ w.Slips (.relocate q) := by
  rcases w.relocate_cases q hcache with ⟨e, m, hmove, ⟨f, hf⟩, h⟩ | ⟨moved, m, hmove, hok, -⟩
  · refine iff_of_true ?_ ?_
    · rw [h]
      exact sound_of_move_error hw hmove _ _ _
    · rintro ⟨-, moved, -, -, -, -, hok, -⟩
      rw [hf] at hok
      cases hok
  · cases hfind : w.store.find? q.address with
    | none =>
      refine iff_of_true (hw.of_kept fun n g ρ htracks hρ => ?_) ?_
      · obtain ⟨htracks, hn⟩ := (tracks_relocate_none hs hcache hmove hfind).1 htracks
        rcases rightsAt_of_relocate_of_not_new hcache hmove hn hρ with hold | rfl
        · exact Or.inl ⟨htracks, hold⟩
        · exact Or.inr (Rights.has_noAccess g)
      · rintro ⟨-, -, k, -, -, -, -, hk, -⟩
        rw [hfind] at hk
        cases hk
    | some k =>
      obtain ⟨r, hr, -⟩ := Store.get?_of_find? hfind
      constructor
      · rintro hsound ⟨-, moved', k', r', n, ρ, hok', hk', hr', hn, hρ, hlacks⟩
        obtain rfl : moved = moved' := Except.ok.inj (hok.symm.trans hok')
        obtain rfl : k = k' := Option.some.inj (hfind.symm.trans hk')
        obtain rfl : r = r' := Option.some.inj (hr.symm.trans hr')
        have htracks := (tracks_relocate_some hs hcache hmove hfind hr).2 (Or.inl ⟨hn, rfl⟩)
        have hhas := sound_iff.1 hsound n _ ρ htracks hρ
        rw [hlacks] at hhas
        cases hhas
      · intro hno
        refine hw.of_kept fun n g ρ htracks hρ => ?_
        rcases (tracks_relocate_some hs hcache hmove hfind hr).1 htracks with
          ⟨hn, rfl⟩ | ⟨⟨j, s, -, hs', hcov, rfl⟩, hn⟩
        · rcases rightsAt_of_relocate hcache hmove hρ with hm | rfl
          · rcases has_of_moved hs hw hfind hr hmove hn hm with hhas | hnone
            · exact Or.inr hhas
            · refine Or.inr (by_contra fun hlacks => hno ?_)
              exact ⟨length_eq_zero_of_move hmove hnone, moved, k, r, n, ρ, hok, hfind, hr, hn, hρ,
                Bool.eq_false_iff.2 hlacks⟩
          · exact Or.inr (Rights.has_noAccess _)
        · rcases rightsAt_of_relocate_of_not_new hcache hmove hn hρ with hold | rfl
          · exact Or.inl ⟨⟨j, s, Option.some_ne_none j, hs', hcov, rfl⟩, hold⟩
          · exact Or.inr (Rights.has_noAccess _)

end Move

/-! ## Execute-only memory -/

/-- **Making execute-only memory keeps histories sound exactly unless it
slips.** -/
theorem sound_makeExecuteOnly_iff (hw : w.Sound) (s : Nat) (c : List UInt8) :
    (w.makeExecuteOnly s c).2.Sound ↔ ¬ w.Slips (.makeExecuteOnly s c) := by
  have hkeeps : ∀ n g, w.store.Tracks none n g →
      (w.makeExecuteOnly s c).2.store.Tracks none n g := by
    intro n g htracks
    rcases w.makeExecuteOnly_cases s c with ⟨-, hstore, -⟩ | ⟨a, x, m, -, -, -, -, -, -, -, h⟩
    · rwa [hstore]
    · rw [h.store]
      exact tracks_enroll.2 (Or.inr htracks)
  constructor
  · rintro hsound ⟨k, r, n, ρ, hr, hn, -, hρ, hlacks⟩
    have htracks : w.store.Tracks none n r.granted := ⟨k, r, Option.some_ne_none k, hr, hn, rfl⟩
    have hhas := sound_iff.1 hsound n _ ρ (hkeeps n _ htracks) hρ
    rw [hlacks] at hhas
    cases hhas
  · intro hno
    -- a record that was there before meets new memory only where it covered no mapped page
    have hold : ∀ n g ρ, w.store.Tracks none n g →
        (w.makeExecuteOnly s c).2.machine.rightsAt n = some ρ →
        (∀ σ, w.machine.rightsAt n = some σ → σ = ρ) →
        (w.store.Tracks none n g ∧ w.machine.rightsAt n = some ρ) ∨ g.has ρ = true := by
      intro n g ρ htracks hρ hsame
      cases hbefore : w.machine.rightsAt n with
      | some σ => exact Or.inl ⟨htracks, by rw [hsame σ hbefore]⟩
      | none =>
        obtain ⟨k, r, -, hr, hn, rfl⟩ := htracks
        refine Or.inr (by_contra fun hlacks => hno ?_)
        exact ⟨k, r, n, ρ, hr, hn, hbefore, hρ, Bool.eq_false_iff.2 hlacks⟩
    refine hw.of_kept fun n g ρ htracks hρ => ?_
    rcases w.makeExecuteOnly_cases s c with
      ⟨-, hstore, -, -, hkeep⟩ | ⟨a, x, m, -, -, -, -, hfree, hm, -, h⟩
    · rw [hstore] at htracks
      refine hold n g ρ htracks hρ fun σ hσ => ?_
      exact Option.some.inj ((hkeep n σ hσ).symm.trans hρ)
    · rw [h.store, tracks_enroll] at htracks
      have hrights : m.rightsAt n = some ρ ∨ ρ = .noAccess := by
        rw [h.rightsAt] at hρ
        exact (upkeep_enroll { w with machine := m } _).rightsAt hρ
      rcases hrights with hm' | rfl
      · rw [hm] at hm'
        rcases htracks with ⟨hn, rfl⟩ | htracks
        · have hrange : PageIn a (a + roundUp s pageSize) n := hn
          rw [if_pos hrange] at hm'
          rw [← Option.some.inj hm']
          exact Or.inr (Rights.has_refl _)
        · refine hold n g ρ htracks hρ fun σ hσ => ?_
          split at hm'
          · rename_i hrange
            rw [hfree n hrange] at hσ
            cases hσ
          · exact Option.some.inj (hσ.symm.trans hm')
      · exact Or.inr (Rights.has_noAccess g)

/-- Releasing execute-only memory keeps histories sound. -/
theorem sound_releaseExecuteOnly (hw : w.Sound) (a l : Nat) :
    (w.releaseExecuteOnly a l).2.Sound := by
  rcases w.releaseExecuteOnly_cases a l with
    ⟨-, h⟩ | ⟨h, r, t, m, o, m', -, -, hremove, -, hm, hunmap, -, ht, -, -, hrights⟩
  · exact h.sound hw
  · refine hw.of_kept fun n g ρ htracks hρ => ?_
    obtain ⟨k, q, -, hq, hn, hg⟩ := htracks
    rw [ht, Store.get?_of_remove hremove] at hq
    split at hq
    · cases hq
    · have hguards : w.machine.Upkeep m := by
        rcases hm with rfl | ⟨e, rfl⟩
        · exact Guard.upkeep_removeAll _ r
        · exact (Guard.upkeep_removeAll _ r).tell e
      have hmapped : m.rightsAt n = some ρ := by
        rw [hrights] at hρ
        cases o with
        | error e => rwa [Machine.rightsAt, Machine.space_of_unmap_error hunmap] at hρ
        | ok u =>
          rw [Machine.rightsAt_unmap hunmap] at hρ
          split at hρ
          · cases hρ
          · exact hρ
      rcases hguards.rightsAt hmapped with hold | rfl
      · exact Or.inl ⟨⟨k, q, Option.some_ne_none k, hq, hn, hg⟩, hold⟩
      · exact Or.inr (Rights.has_noAccess g)

/-! ## Operations and runs -/

/-- **One operation keeps histories sound exactly unless it slips.** -/
theorem sound_perform_iff (hs : w.store.Shaped) (hcache : w.config.useMappingCache = true)
    (hw : w.Sound) (op : Operation) : (w.perform op).2.Sound ↔ ¬ w.Slips op := by
  cases op with
  | create q => exact iff_of_true (sound_create hs hcache hw q) not_false
  | remove a l => exact iff_of_true (sound_remove hs hcache hw a l) not_false
  | reprotect a l ρ => exact sound_reprotect_iff hcache hw a l ρ
  | relocate q => exact sound_relocate_iff hs hcache hw q
  | makeExecuteOnly s c => exact sound_makeExecuteOnly_iff hw s c
  | releaseExecuteOnly a l => exact iff_of_true (sound_releaseExecuteOnly hw a l) not_false
  | teardown => exact iff_of_true (fun k r n ρ hr => nomatch hr) not_false

/-- **Where records and memory are in step, only a change of protection
slips.** -/
theorem Consistent.slips_iff (hc : w.Consistent) (hcache : w.config.useMappingCache = true)
    (hw : w.Sound) (op : Operation) : w.Slips op ↔ w.Overreaches op := by
  cases op with
  | reprotect a l ρ => exact Iff.rfl
  | makeExecuteOnly s c =>
    refine iff_of_false ?_ not_false
    rintro ⟨k, r, n, ρ, hr, hn, hnone, -⟩
    have hmapped := hc.inStep.mapped (p := .body) hr hn not_false
    rw [hnone] at hmapped
    cases hmapped
  | relocate q =>
    refine iff_of_false ?_ not_false
    rintro ⟨-, moved, h, r, n, ρ, hok, hfind, hr, hn, hρ, hlacks⟩
    rcases w.relocate_cases q hcache with ⟨e, m, -, ⟨f, hf⟩, -⟩ | ⟨moved', m, hmove, hok', -⟩
    · rw [hf] at hok
      cases hok
    · obtain rfl : moved = moved' := Except.ok.inj (hok.symm.trans hok')
      have hhas : r.granted.has ρ = true := by
        rcases rightsAt_of_relocate hcache hmove hρ with hm | rfl
        · refine (has_of_moved hc.shaped hw hfind hr hmove hn hm).resolve_right fun hnone => ?_
          -- the first page is the record's, and mapped even after its guards are lifted
          obtain ⟨r', hr', hcontains⟩ := Store.get?_of_find? hfind
          have hcovers := Record.covers_of_contains (hc.shaped h r' hr')
            (Machine.aligned_of_move hmove).1 hcontains
          have hbare : (w.lifted q.address).store.get? h = some r'.bare := by
            rw [(lifted_of_find? hfind hr').1, Function.update_self]
          have hmapped := (inStep_lifted hc.inStep q.address).mapped (p := .body) hbare hcovers
            not_false
          rw [hnone] at hmapped
          cases hmapped
        · exact Rights.has_noAccess _
      rw [hlacks] at hhas
      cases hhas
  | create | remove | releaseExecuteOnly | teardown => exact Iff.rfl

/-- **When histories are sound.** Over every run that begins without
records and tracks mappings, under every fault: whatever a page of a
record allows is in the record's history after each step, exactly when no
operation slips; and where no move strands pages, exactly when no change
of protection reaches beyond the record found at its start. -/
theorem sound_throughout_iff (hempty : w.store = .empty) (hcache : w.config.useMappingCache = true)
    (ops : List Operation) :
    (w.Throughout Sound ops ↔ w.Avoids Slips ops) ∧
      (w.Avoids Strands ops → (w.Throughout Sound ops ↔ w.Avoids Overreaches ops)) := by
  have hstart : w.Sound := by
    intro k r n ρ hr
    rw [hempty] at hr
    cases hr
  have hkeep : ∀ (v : Warden) (op : Operation),
      v.store.Shaped ∧ v.config.useMappingCache = true →
      (v.perform op).2.store.Shaped ∧ (v.perform op).2.config.useMappingCache = true := by
    intro v op hv
    refine ⟨shaped_perform hv.1 op, ?_⟩
    rw [config_perform]
    exact hv.2
  have hiff : w.Throughout Sound ops ↔ w.Avoids Slips ops :=
    throughout_iff_avoids hkeep (fun v op hv hsound => sound_perform_iff hv.1 hv.2 hsound op)
      ⟨shaped_of_empty hempty, hcache⟩ hstart ops
  refine ⟨hiff, fun hno => ⟨fun hsound done op hdone hover => ?_, fun hover => ?_⟩⟩
  · have hcons := (consistent_of_avoids hempty hcache hno).before hdone
    have hcache' : (w.run done).config.useMappingCache = true := by rw [config_run, hcache]
    exact hiff.1 hsound done op hdone
      ((hcons.slips_iff hcache' (hsound.before hdone) op).2 hover)
  · -- the histories stay sound along with the records staying in step
    have hall : w.Throughout
        (fun v => v.Consistent ∧ v.config.useMappingCache = true ∧ v.Sound) ops := by
      refine throughout_of_avoids (B := fun v op => v.Strands op ∨ v.Overreaches op) ?_
        ⟨consistent_of_empty hempty, hcache, hstart⟩ fun done op hdone => ?_
      · intro v op hv hop
        obtain ⟨hstrands, hover⟩ := not_or.1 hop
        obtain ⟨hcons, hon, hsound⟩ := hv
        refine ⟨consistent_perform hcons hon hstrands, ?_, ?_⟩
        · rw [config_perform]
          exact hon
        · rw [sound_perform_iff hcons.shaped hon hsound, hcons.slips_iff hon hsound]
          exact hover
      · exact not_or.2 ⟨hno done op hdone, hover done op hdone⟩
    exact fun done hdone => (hall done hdone).2.2

/-- A change of protection over two mappings, told to the first alone. -/
theorem unsound_after_overreach :
    ¬ (start { useMappingCache := true }).Throughout Sound
      [.create ⟨0, 4096, .read, .privateAnonymous, -1, 0⟩,
        .create ⟨0, 4096, .read, .privateAnonymous, -1, 0⟩,
        .reprotect 0x7effffffe000 8192 .readWrite] := by
  have hmoves : (start { useMappingCache := true }).Avoids Strands
      [.create ⟨0, 4096, .read, .privateAnonymous, -1, 0⟩,
        .create ⟨0, 4096, .read, .privateAnonymous, -1, 0⟩,
        .reprotect 0x7effffffe000 8192 .readWrite] :=
    avoids_cons.2 ⟨id, avoids_cons.2 ⟨id, avoids_cons.2 ⟨id, avoids_nil⟩⟩⟩
  rw [(sound_throughout_iff rfl rfl _).2 hmoves]
  intro havoids
  refine havoids
    [.create ⟨0, 4096, .read, .privateAnonymous, -1, 0⟩,
      .create ⟨0, 4096, .read, .privateAnonymous, -1, 0⟩]
    (.reprotect 0x7effffffe000 8192 .readWrite) (List.prefix_refl _) ?_
  exact ⟨rfl, ⟨0, 0⟩, .fresh 0x7efffffff000 4096 .read, pageOf 0x7efffffff000, by decide, rfl,
    by decide, by decide, rfl⟩

end Warden

end PageWarden
