import PageWarden.Proofs.Run
import PageWarden.Proofs.Steps.FollowUp
/-!
# In step — operations and runs

Every operation keeps records and memory in step, but for one kind of
move. A move takes its whole old range away; of the records there only
the one found at its start goes along. So a move strands the pages that
another record holds in the old range and the new range does not cover,
and it strands all of the old range if it fails after that is gone
(`Warden.Strands`). A run without such moves is in step throughout
(`consistent_of_avoids`): every page that a record covers or names as a
guard is mapped, and belongs to that record alone.
-/

namespace PageWarden

namespace Warden

variable {v w : Warden} {h : Handle} {r : Record}

/-- Records are well formed, and in step with memory. -/
structure Consistent (w : Warden) : Prop where
  shaped : w.store.Shaped
  inStep : InStep Nowhere w.store.get? w.machine.rightsAt

/-- What a difference in bytes and keys leaves is in step as well. -/
theorem Alike.consistent (h : Alike v w) (hv : v.Consistent) : w.Consistent := by
  refine ⟨?_, ?_⟩
  · rw [h.store]
    exact hv.shaped
  · rw [h.store, h.rightsAt]
    exact hv.inStep

/-! ## Follow-ups -/

/-- **A record may enter** for mapped pages that nobody holds. -/
theorem inStep_entered (hin : InStep Nowhere w.store.get? w.machine.rightsAt) (hr : r.bare = r)
    (hapart : ∀ k s p n, w.store.get? k = some s → s.Holds p n → ¬ r.Covers n)
    (hbacked : ∀ n, r.Covers n → (w.machine.rightsAt n).isSome) :
    InStep Nowhere (Function.update w.store.get? w.store.nextHandle (some r))
      w.machine.rightsAt :=
  hin.insert (fun _ _ hp => Record.eq_body_of_holds hr hp) hapart hbacked

/-- The record of a new mapping enters once the range is carved out of the
others. -/
theorem inStep_tracked {a l : Nat} {ρ : Rights} (hs : w.store.Shaped)
    (hin : InStep Nowhere w.store.get? w.machine.rightsAt) (ha : Aligned a)
    (hmapped : ∀ n, PageIn a (a + roundUp l pageSize) n → (w.machine.rightsAt n).isSome) :
    InStep Nowhere
      (Function.update (w.carve a (a + roundUp l pageSize) none).store.get?
        (w.carve a (a + roundUp l pageSize) none).store.nextHandle (some (.fresh a l ρ)))
      (w.carve a (a + roundUp l pageSize) none).machine.rightsAt := by
  have hstop := ha.add_roundUp l
  have hcarved := hin.carve hs ha hstop (Nat.le_add_right _ _) w.live_none
  refine inStep_entered hcarved rfl (fun k s p n hk hp hn => ?_) fun n hn => ?_
  · cases (held_carve hs ha hstop hk hp hn).2
  · have hrange : PageIn a (a + roundUp l pageSize) n := hn
    rw [rightsAt_carve hrange]
    exact hmapped n hrange

/-- Following up a mapping keeps step. -/
theorem inStep_settle {q : MapRequest} {a : Nat} (hs : w.store.Shaped)
    (hin : InStep Nowhere w.store.get? w.machine.rightsAt) (ha : Aligned a)
    (hmapped : ∀ n, PageIn a (a + roundUp q.length pageSize) n → (w.machine.rightsAt n).isSome) :
    InStep Nowhere (w.settle q a).store.get? (w.settle q a).machine.rightsAt := by
  by_cases hcache : w.config.useMappingCache = true
  · by_cases hanon : q.isAnonymous = true
    · exact (inStep_tracked hs hin ha hmapped).guarding (guarding_settle hcache hanon a)
    · rw [settle_of_file hcache hanon]
      exact hin.carve hs ha (ha.add_roundUp _) (Nat.le_add_right _ _) w.live_none
  · unfold settle
    rw [if_neg hcache]
    exact hin

/-- **After a release records and memory are back in step once the range is
cleared**, since its pages are gone and nobody holds them any more. What
is left to do is to guard the new edges. -/
theorem inStep_vacated {a l : Nat} (hs : w.store.Shaped) (ha : Aligned a) (hlen : 0 < l)
    (hin : InStep (PageIn a (a + roundUp l pageSize)) w.store.get? w.machine.rightsAt) :
    ∃ V m, Clearing a (a + roundUp l pageSize) none w.store.get? w.machine V m ∧
      InStep Nowhere V m.rightsAt ∧
      Guarding w.config.guardPagesActive V m (w.vacate a l).store.get?
        (w.vacate a l).machine := by
  obtain ⟨V, m, hclear, hgone, hguard⟩ := vacate_steps hs ha hlen
  have hcleared := hin.clearing ha (ha.add_roundUp l) (Nat.le_add_right _ _) hclear
  exact ⟨V, m, hclear, hcleared.close fun k s p n hk hp hn => hgone k s p n hk hp hn, hguard⟩

/-- Noting a protection keeps step. -/
theorem inStep_note {a l : Nat} {ρ : Rights}
    (hin : InStep Nowhere w.store.get? w.machine.rightsAt) :
    InStep Nowhere (w.note a l ρ).store.get? (w.note a l ρ).machine.rightsAt := by
  unfold note
  split
  · exact hin
  · rename_i h _
    cases hr : w.store.get? h with
    | none =>
      unfold noteProtection
      rw [hr]
      exact hin
    | some r =>
      obtain ⟨hview, -, hrights⟩ := w.noteProtection_of_get? hr a l ρ
      rw [hview, hrights]
      refine hin.replace hr ?_ fun _ _ _ => rfl
      rintro s ⟨⟩ p n hp
      cases p <;> exact hp

/-! ## Moves -/

/-- The operation is a move that takes pages from under records: it
succeeds, and another record than the one that goes along holds a page of
the old range and not of the new one; or it fails, and a record holds a
page of the old range that is gone all the same. -/
def Strands (w : Warden) : Operation → Prop
  | .relocate q =>
    match (w.lifted q.address).machine.move q with
    | (.ok moved, _) => ∃ k r p n, some k ≠ w.store.find? q.address ∧ w.store.get? k = some r ∧
        r.Holds p n ∧ q.Old n ∧ ¬ q.New moved n
    | (.error _, m) => ∃ k r p n, (w.lifted q.address).store.get? k = some r ∧
        r.Holds p n ∧ q.Old n ∧ m.rightsAt n = none
  | _ => False

/-- A move that succeeds strands what another record holds in the old range
and the new one does not cover. -/
theorem strands_of_ok (hcache : w.config.useMappingCache = true) {q : MoveRequest} {a n : Nat}
    {p : Part} (hok : (w.relocate q).1 = .ok a) (hh : some h ≠ w.store.find? q.address)
    (hr : w.store.get? h = some r) (hp : r.Holds p n) (hold : q.Old n) (hnew : ¬ q.New a n) :
    w.Strands (.relocate q) := by
  rcases w.relocate_cases q hcache with ⟨_, m, -, ⟨f, hf⟩, -⟩ | ⟨moved, m, hmove, hok', -⟩
  · rw [hf] at hok
    cases hok
  · obtain rfl : moved = a := Except.ok.inj (hok'.symm.trans hok)
    simp only [Strands, hmove]
    exact ⟨h, r, p, n, hh, hr, hp, hold, hnew⟩

/-- Lifting guards before a move keeps step. -/
theorem inStep_lifted (hin : InStep Nowhere w.store.get? w.machine.rightsAt) (address : Nat) :
    InStep Nowhere (w.lifted address).store.get? (w.lifted address).machine.rightsAt :=
  hin.clearing aligned_zero aligned_zero (Nat.le_refl 0) (clearing_lifted w address 0 0 none)

/-- Putting guards back keeps step. -/
theorem inStep_restore (hin : InStep Nowhere w.store.get? w.machine.rightsAt)
    (handle : Option Handle) (below above : Bool) :
    InStep Nowhere (w.restore handle below above).store.get?
      (w.restore handle below above).machine.rightsAt :=
  hin.guarding (guarding_restore w handle below above)

/-- **The record that is found goes along with a move.** Its old pages are
exempt, because they went away; once it has left them nobody holds them. -/
theorem inStep_rehoused {q : MoveRequest} {moved : Nat} (hs : w.store.Shaped)
    (ha : Aligned moved) (hr : w.store.get? h = some r) (hbare : r.bare = r)
    (hin : InStep r.Covers w.store.get? w.machine.rightsAt)
    (hnew : ∀ n, q.New moved n → (w.machine.rightsAt n).isSome) :
    InStep Nowhere
      (Function.update (w.carve moved (moved + roundUp q.newLength pageSize) (some h)).store.get? h
        (some { r with base := moved, length := q.newLength }))
      (w.carve moved (moved + roundUp q.newLength pageSize) (some h)).machine.rightsAt := by
  have hstop := ha.add_roundUp q.newLength
  have hkept := (resettle_steps q moved hr hbare).1
  have hcarved := hin.carve hs ha hstop (Nat.le_add_right _ _) (live_some hr)
  have hmoved : ({ r with base := moved, length := q.newLength } : Record).bare =
      { r with base := moved, length := q.newLength } := by
    rw [← hbare]
    rfl
  refine hcarved.rehouse hkept (fun _ _ hp => Record.eq_body_of_holds hmoved hp)
    (fun k s p n hne hk hp hn => ?_) fun n hn => ?_
  · exact hne (Option.some.inj (held_carve hs ha hstop hk hp hn).2)
  · have hrange : PageIn moved (moved + roundUp q.newLength pageSize) n := hn
    rw [rightsAt_carve hrange]
    exact hnew n hrange

/-- A move that fails without stranding pages keeps step. -/
theorem inStep_of_move_error (hc : w.Consistent) {q : MoveRequest} {errno : Errno} {m : Machine}
    (hmove : (w.lifted q.address).machine.move q = (.error errno, m))
    (hno : ¬ w.Strands (.relocate q)) :
    InStep Nowhere (w.lifted q.address).store.get? m.rightsAt := by
  simp only [Strands, hmove] at hno
  refine (inStep_lifted hc.inStep q.address).memory fun k r p n hk hp hn => ⟨hn, fun hmapped => ?_⟩
  rcases Machine.rightsAt_move_error hmove with hsame | hlost
  · rw [hsame]
    exact hmapped
  · by_cases hold : q.Old n
    · exact Option.isSome_iff_ne_none.2 fun hnone => hno ⟨k, r, p, n, hk, hp, hold, hnone⟩
    · rw [hlost, if_neg hold]
      exact hmapped

/-- **A move that strands no pages keeps step**, but for the pages of the
record that goes along with it. -/
theorem inStep_of_move (hc : w.Consistent) {q : MoveRequest} {moved : Nat} {m : Machine}
    (hmove : (w.lifted q.address).machine.move q = (.ok moved, m))
    (hno : ¬ w.Strands (.relocate q)) :
    (∀ n, q.New moved n → (m.rightsAt n).isSome) ∧
      (w.store.find? q.address = none →
        InStep Nowhere (w.lifted q.address).store.get? m.rightsAt) ∧
      ∀ h f, w.store.find? q.address = some h → w.store.get? h = some f →
        (w.lifted q.address).store.get? h = some f.bare ∧
          InStep f.bare.Covers (w.lifted q.address).store.get? m.rightsAt := by
  simp only [Strands, hmove] at hno
  have hlifted := inStep_lifted hc.inStep q.address
  have hnew : ∀ n, q.New moved n → (m.rightsAt n).isSome := by
    intro n hn
    obtain ⟨ρ, hρ, -⟩ := Machine.rightsAt_move_new hmove hn
    rw [hρ]
    rfl
  -- whatever is not the old range of the record that goes along stays mapped
  have hstays : ∀ {k r p n}, some k ≠ w.store.find? q.address → w.store.get? k = some r →
      r.Holds p n → ((w.lifted q.address).machine.rightsAt n).isSome → (m.rightsAt n).isSome := by
    intro k r p n hk hr hp hmapped
    by_cases hn : q.New moved n
    · exact hnew n hn
    · rw [Machine.rightsAt_move hmove hn, if_neg]
      · exact hmapped
      · exact fun hold => hno ⟨k, r, p, n, hk, hr, hp, hold, hn⟩
  refine ⟨hnew, fun hfind => ?_, fun h f hfind hf => ?_⟩
  · rw [hfind] at hstays
    rw [lifted_of_not_find? hfind] at hlifted hstays ⊢
    exact hlifted.memory fun k r p n hk hp hn => ⟨hn, hstays (Option.some_ne_none k) hk hp⟩
  · have hview := (lifted_of_find? hfind hf).1
    have hkept : (w.lifted q.address).store.get? h = some f.bare := by
      rw [hview, Function.update_self]
    refine ⟨hkept, hlifted.memory fun k r p n hk hp hn => ⟨not_false, fun hmapped => ?_⟩⟩
    by_cases hkh : k = h
    · subst hkh
      obtain rfl : r = f.bare := Option.some.inj (hk.symm.trans hkept)
      exact absurd (Record.eq_body_of_holds_bare hp).2 hn
    · rw [hview, Function.update_of_ne hkh] at hk
      refine hstays ?_ hk hp hmapped
      rw [hfind]
      exact fun heq => hkh (Option.some.inj heq)

/-- **A move keeps step unless it strands pages.** -/
theorem consistent_relocate (hc : w.Consistent) (hcache : w.config.useMappingCache = true)
    {q : MoveRequest} (hno : ¬ w.Strands (.relocate q)) : (w.relocate q).2.Consistent := by
  have hshaped : (w.lifted q.address).store.Shaped := shaped_congr hc.shaped (bare?_lifted w _)
  refine ⟨shaped_perform hc.shaped (.relocate q), ?_⟩
  rcases w.relocate_cases q hcache with ⟨e, m, hmove, -, h⟩ | ⟨moved, m, hmove, -, h⟩
  · rw [h]
    exact inStep_restore (w := { w.lifted q.address with machine := m })
      (inStep_of_move_error hc hmove hno) _ _ _
  · obtain ⟨-, ha, -⟩ := Machine.aligned_of_move hmove
    obtain ⟨hnew, hnone, hsome⟩ := inStep_of_move hc hmove hno
    rw [h]
    cases hfind : w.store.find? q.address with
    | none =>
      exact InStep.carve (w := { w.lifted q.address with machine := m }) (hnone hfind) hshaped ha
        (ha.add_roundUp _) (Nat.le_add_right _ _) (live_none _)
    | some h =>
      obtain ⟨f, hf, -⟩ := Store.get?_of_find? hfind
      obtain ⟨hkept, hin⟩ := hsome h f hfind hf
      have hguard := (resettle_steps (w := { w.lifted q.address with machine := m }) q moved
        hkept rfl).2
      exact (inStep_rehoused (w := { w.lifted q.address with machine := m }) hshaped ha hkept rfl
        hin hnew).guarding hguard

/-! ## Every operation -/

/-- Unmapping exempts its range. -/
theorem Consistent.inStep_of_unmap (hc : w.Consistent) {a l : Nat} {m : Machine}
    (hunmap : w.machine.unmap a l = (.ok (), m)) :
    InStep (PageIn a (a + roundUp l pageSize)) w.store.get? m.rightsAt := by
  refine hc.inStep.memory fun k r p n _ _ hn => ⟨not_false, fun hmapped => ?_⟩
  rw [Machine.rightsAt_unmap hunmap, if_neg hn]
  exact hmapped

/-- Mapping takes no page away. -/
theorem Consistent.inStep_of_map (hc : w.Consistent) {q : MapRequest} {a : Nat} {m : Machine}
    (hmap : w.machine.map q = (.ok a, m)) : InStep Nowhere w.store.get? m.rightsAt := by
  refine hc.inStep.grow fun n hn => ?_
  rw [Machine.rightsAt_map hmap]
  split
  · rfl
  · exact hn

/-- **The record of sealed memory may enter**, since its pages were free. -/
theorem inStep_sealed (hin : InStep Nowhere w.store.get? w.machine.rightsAt) {size a : Nat}
    {code : List UInt8} {key : Option Nat} {m m' : Machine} {x : ExecuteOnly}
    (hmap : w.machine.map (.ofLength size .readWrite) = (.ok a, m))
    (hseal : sealPages (m.copy a code) a size = (.ok key, m')) :
    InStep Nowhere
      (Function.update w.store.get? w.store.nextHandle
        (some { Record.fresh a size .exec with executeOnly := some x }))
      (isolation m' key).2.rightsAt := by
  have hsealed : ∀ n, (isolation m' key).2.rightsAt n =
      if PageIn a (a + roundUp size pageSize) n then some .exec else w.machine.rightsAt n := by
    intro n
    rw [rightsAt_isolation]
    exact rightsAt_sealed hmap hseal n
  refine inStep_entered (w := { w with machine := (isolation m' key).2 }) ?_ rfl
    (fun k s p n hk hp hn => ?_) fun n hn => ?_
  · refine hin.grow fun n hn => ?_
    rw [hsealed]
    split
    · rfl
    · exact hn
  · exact not_pageIn_of_reserved hmap (hin.mapped hk hp not_false) hn
  · have hrange : PageIn a (a + roundUp size pageSize) n := hn
    show ((isolation m' key).2.rightsAt n).isSome
    rw [hsealed, if_pos hrange]
    rfl

/-- **Releasing execute-only memory keeps step**, whether or not its pages
can be unmapped: nobody holds them any more. -/
theorem consistent_releaseExecuteOnly (hc : w.Consistent) (a l : Nat) :
    (w.releaseExecuteOnly a l).2.Consistent := by
  refine ⟨shaped_perform hc.shaped (.releaseExecuteOnly a l), ?_⟩
  rcases w.releaseExecuteOnly_cases a l with
    ⟨-, h⟩ | ⟨h, r, t, m, o, m', -, -, hremove, -, hm, hunmap, -, ht, -, -, hrights⟩
  · exact (h.consistent hc).inStep
  · have hr := (Store.remove_eq_some_iff.1 hremove).1
    have hm' : m.rightsAt = (Guard.removeAll w.machine r).2.rightsAt := by
      rcases hm with rfl | ⟨e, rfl⟩ <;> rfl
    have hbare := hc.inStep.removeAll hr
    rw [Guard.removeAll_fst] at hbare
    rw [ht, Store.get?_remove_eq_update hremove, hrights]
    have hgone : InStep Nowhere
        (Function.update (Function.update w.store.get? h (some r.bare)) h none) m'.rightsAt := by
      refine hbare.replace (Function.update_self h _ _) (fun s hs => nomatch hs) fun n _ hall => ?_
      have hout : ¬ PageIn r.base (r.base + roundUp r.length pageSize) n := by
        intro hn
        obtain ⟨s, hs, -⟩ := hall .body hn
        cases hs
      rw [← hm']
      cases o with
      | error e => rw [Machine.rightsAt, Machine.space_of_unmap_error hunmap, Machine.rightsAt]
      | ok u => rw [Machine.rightsAt_unmap hunmap, if_neg hout]
    rw [Function.update_idem] at hgone
    exact hgone

/-- **One operation keeps step unless it strands pages.** -/
theorem consistent_perform (hc : w.Consistent) (hcache : w.config.useMappingCache = true)
    {op : Operation} (hno : ¬ w.Strands op) : (w.perform op).2.Consistent := by
  cases op with
  | create q =>
    show (w.create q).2.Consistent
    refine ⟨shaped_perform hc.shaped (.create q), ?_⟩
    rcases w.create_cases q with ⟨-, h⟩ | ⟨a, m, hmap, -, h⟩
    · exact (h.consistent hc).inStep
    · rw [h.store, h.rightsAt]
      refine inStep_settle (w := { w with machine := m }) hc.shaped (hc.inStep_of_map hmap)
        (Machine.aligned_of_map hmap).1 fun n hn => ?_
      show (m.rightsAt n).isSome
      rw [Machine.rightsAt_map hmap, if_pos hn]
      rfl
  | remove a l =>
    show (w.remove a l).2.Consistent
    refine ⟨shaped_perform hc.shaped (.remove a l), ?_⟩
    rcases w.remove_cases a l with ⟨-, h⟩ | ⟨m, hunmap, -, h⟩
    · exact (h.consistent hc).inStep
    · obtain ⟨ha, hlen⟩ := Machine.aligned_of_unmap hunmap
      obtain ⟨_, _, -, hin, hguard⟩ := inStep_vacated (w := { w with machine := m }) hc.shaped ha
        hlen (hc.inStep_of_unmap hunmap)
      rw [h, if_pos hcache]
      exact hin.guarding hguard
  | reprotect a l ρ =>
    show (w.reprotect a l ρ).2.Consistent
    refine ⟨shaped_perform hc.shaped (.reprotect a l ρ), ?_⟩
    rcases w.reprotect_cases a l ρ with ⟨-, h⟩ | ⟨m, hprotect, -, h⟩
    · exact (h.consistent hc).inStep
    · rw [h]
      refine inStep_note (w := { w with machine := m }) (hc.inStep.grow fun n hn => ?_)
      show (m.rightsAt n).isSome
      rw [Machine.rightsAt_protect hprotect]
      split
      · rfl
      · exact hn
  | relocate q => exact consistent_relocate hc hcache hno
  | makeExecuteOnly s c =>
    show (w.makeExecuteOnly s c).2.Consistent
    refine ⟨shaped_perform hc.shaped (.makeExecuteOnly s c), ?_⟩
    rcases w.makeExecuteOnly_stages s c with ⟨-, h⟩ | ⟨a, m, -, hmap, hstage⟩
    · exact (h.consistent hc).inStep
    · rcases hstage with ⟨f, m', hseal, -, h⟩ | ⟨key, m', hseal, -, h⟩
      · rw [h]
        refine hc.inStep.grow fun n hn => ?_
        rw [rightsAt_taken_back hmap hseal (not_pageIn_of_reserved hmap hn)]
        exact hn
      · rw [h.store, h.rightsAt]
        exact (inStep_sealed hc.inStep hmap hseal).guarding
          (guarding_enroll { w with machine := (isolation m' key).2 } _)
  | releaseExecuteOnly a l => exact consistent_releaseExecuteOnly hc a l
  | teardown => exact ⟨shaped_perform hc.shaped .teardown, InStep.of_no_records fun _ => rfl⟩

/-- Where nothing is tracked, nothing is out of step. -/
theorem consistent_of_empty (hempty : w.store = .empty) : w.Consistent := by
  refine ⟨shaped_of_empty hempty, InStep.of_no_records fun k => ?_⟩
  rw [hempty]
  rfl

/-- **A run that strands no pages is in step throughout.** -/
theorem consistent_of_avoids (hempty : w.store = .empty) (hcache : w.config.useMappingCache = true)
    {ops : List Operation} (hno : w.Avoids Strands ops) : w.Throughout Consistent ops := by
  have hall : w.Throughout (fun v => v.Consistent ∧ v.config.useMappingCache = true) ops := by
    refine throughout_of_avoids (fun v op hv hop => ⟨consistent_perform hv.1 hv.2 hop, ?_⟩)
      ⟨consistent_of_empty hempty, hcache⟩ hno
    rw [config_perform]
    exact hv.2
  exact fun done hdone => (hall done hdone).1

end Warden

end PageWarden
