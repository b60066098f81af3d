import PageWarden.Proofs.FollowUp
import PageWarden.Proofs.InStep.Carve
/-!
# Steps — the follow-ups of a request

Each follow-up is a clearing, a change of the records that calls nothing,
and a guarding, in this order; where one of them has nothing to do it is
left out. In between nobody holds a page of the range that changed hands,
but the record that moves there.
-/

namespace PageWarden

namespace Warden

variable {w : Warden} {h : Handle} {r : Record} {start stop : Nat} {keep : Option Handle}

/-- A record enters, and is guarded. -/
theorem guarding_enroll (w : Warden) (r : Record) :
    Guarding w.config.guardPagesActive
      (Function.update w.store.get? w.store.nextHandle (some r)) w.machine (w.enroll r).store.get?
      (w.enroll r).machine := by
  unfold enroll
  simp only [Store.get?_insert_eq_update]
  exact Guarding.placeAllIf _ _ _ _ id

/-- **The steps after a mapping to be tracked**: the range is carved out of
the records, and a record for it enters. -/
theorem guarding_settle {q : MapRequest} (hcache : w.config.useMappingCache = true)
    (hanon : q.isAnonymous = true) (a : Nat) :
    Guarding w.config.guardPagesActive
      (Function.update (w.carve a (a + roundUp q.length pageSize) none).store.get?
        (w.carve a (a + roundUp q.length pageSize) none).store.nextHandle
        (some (.fresh a q.length q.rights)))
      (w.carve a (a + roundUp q.length pageSize) none).machine
      (w.settle q a).store.get? (w.settle q a).machine := by
  have hentered := guarding_enroll (w.carve a (a + roundUp q.length pageSize) none)
    (.fresh a q.length q.rights)
  rw [config_carve] at hentered
  unfold settle
  rw [if_pos hcache, if_pos hanon, track_eq]
  exact hentered.tell rfl

/-- After a mapping of a file its range is carved out of the records. -/
theorem settle_of_file {q : MapRequest} (hcache : w.config.useMappingCache = true)
    (hfile : ¬ q.isAnonymous = true) (a : Nat) :
    w.settle q a = w.carve a (a + roundUp q.length pageSize) none := by
  unfold settle
  rw [if_pos hcache, if_neg hfile]

/-- **The steps after a release**: the range is cleared, after which nobody
holds a page of it, and the new edges are guarded. -/
theorem vacate_steps {a l : Nat} (hs : w.store.Shaped) (ha : Aligned a) (hlen : 0 < l) :
    ∃ V m, Clearing a (a + roundUp l pageSize) none w.store.get? w.machine V m ∧
      (∀ k s p n, V k = some s → s.Holds p n → ¬ PageIn a (a + roundUp l pageSize) n) ∧
      Guarding w.config.guardPagesActive V m (w.vacate a l).store.get?
        (w.vacate a l).machine := by
  have hstop := ha.add_roundUp l
  rcases vacate_cases hs ha hlen with ⟨-, hv⟩ | ⟨h, f, -, hf, hkept, hmeets, hv⟩
  · rw [hv]
    refine ⟨_, _, clearing_carve hs hstop w.live_none, fun k s p n hk hp hn => ?_, .refl⟩
    cases (held_carve hs ha hstop hk hp hn).2
  · have hcarved : (w.carve a (a + roundUp l pageSize) (some h)).store.Shaped :=
      shaped_carve hs hstop (some h)
    have hcarve : Clearing a (a + roundUp l pageSize) (some h) w.store.get? w.machine _ _ :=
      clearing_carve hs hstop (live_some hf)
    obtain ⟨m, hcut, -, hguard⟩ := cut_steps hkept (hcarved h _ hkept) hmeets
      (Option.some_ne_none h) (live_none _)
    rw [hv]
    refine ⟨_, m, hcarve.spareNone.trans hcut, fun k s p n hk hp hn => ?_, hguard _⟩
    have hpart : ∀ {s}, ((f.forgetWithin a (a + roundUp l pageSize)).forgetWithin a
        (a + roundUp l pageSize)).PartOf a (a + roundUp l pageSize) s → ¬ s.Holds p n :=
      fun hpart hp => hpart.not_pageIn_of_holds (hs h f hf) ha hstop hmeets hp hn
    rcases get?_cut_cases hkept hk with ⟨-, hs'⟩ | ⟨-, hs'⟩ | ⟨hne, -, hother⟩
    · exact hpart (Record.partOf_iff.2 (Or.inl hs')) hp
    · exact hpart (Record.partOf_iff.2 (Or.inr hs')) hp
    · exact hne (Option.some.inj (held_carve hs ha hstop hother hp hn).2)

/-- Before a move the guards of the record that is found are lifted. -/
theorem clearing_lifted (w : Warden) (address start stop : Nat) (keep : Option Handle) :
    Clearing start stop keep w.store.get? w.machine (w.lifted address).store.get?
      (w.lifted address).machine := by
  cases hfind : w.store.find? address with
  | none =>
    rw [lifted_of_not_find? hfind]
    exact .refl
  | some h =>
    obtain ⟨r, hr, -⟩ := Store.get?_of_find? hfind
    obtain ⟨hview, hmachine⟩ := lifted_of_find? hfind hr
    rw [hview, hmachine]
    exact Clearing.refl.liftAll hr

/-- After a move that failed guards are put back. -/
theorem guarding_restore (w : Warden) (handle : Option Handle) (below above : Bool) :
    Guarding (below || above) w.store.get? w.machine (w.restore handle below above).store.get?
      (w.restore handle below above).machine := by
  unfold restore
  split
  · exact .refl
  · rename_i h
    cases hr : w.store.get? h with
    | none =>
      unfold restoreGuards
      rw [hr]
      exact .refl
    | some r =>
      have hasked : below = true → (below || above) = true :=
        fun hon => Bool.or_eq_true_iff.2 (Or.inl hon)
      have hbelow := Guarding.placeBelowIf w.store.get? w.machine h r hasked
      rw [Function.update_eq_self_iff.2 hr.symm] at hbelow
      unfold restoreGuards
      simp only [hr, Store.get?_modify_eq_update hr]
      refine hbelow.trans (Guarding.placeAboveIf _ _ h _ fun hon => ?_)
      exact Bool.or_eq_true_iff.2 (Or.inr hon)

/-- **The steps after a move that a record goes along with.** The new range
is carved out of the other records; what is left of it is the record,
without guards, which goes over to the new range and is guarded there. -/
theorem resettle_steps (q : MoveRequest) (moved : Nat) (hr : w.store.get? h = some r)
    (hbare : r.bare = r) :
    (w.carve moved (moved + roundUp q.newLength pageSize) (some h)).store.get? h = some r ∧
      Guarding w.config.guardPagesActive
        (Function.update (w.carve moved (moved + roundUp q.newLength pageSize) (some h)).store.get?
          h (some { r with base := moved, length := q.newLength }))
        (w.carve moved (moved + roundUp q.newLength pageSize) (some h)).machine
        (w.resettle (some h) q moved).store.get? (w.resettle (some h) q moved).machine := by
  have hkept := get?_carve_keep hr moved (moved + roundUp q.newLength pageSize)
  have hforgot : r.forgetWithin moved (moved + roundUp q.newLength pageSize) = r := by
    refine forgetWithin_of_not_guarded ?_
    rw [← hbare]
    rfl
  rw [hforgot] at hkept
  refine ⟨hkept, ?_⟩
  show Guarding _ _ _
    ((w.carve moved (moved + roundUp q.newLength pageSize) (some h)).follow h q moved).store.get?
    ((w.carve moved (moved + roundUp q.newLength pageSize) (some h)).follow h q moved).machine
  rw [← config_carve w moved (moved + roundUp q.newLength pageSize) (some h)]
  generalize w.carve moved (moved + roundUp q.newLength pageSize) (some h) = v at hkept
  -- what is told of a partial move comes before the guards
  have hhome : ∀ m, Guarding v.config.guardPagesActive (Function.update v.store.get? h
      (some { r with base := moved, length := q.newLength })) m
      (Function.update v.store.get? h
        (some (Guard.rehome m r moved q.newLength v.config.guardPagesActive).1))
      (Guard.rehome m r moved q.newLength v.config.guardPagesActive).2 := by
    intro m
    unfold Guard.rehome
    rw [Guard.removeAll_of_bare hbare]
    exact Guarding.placeAllIf _ _ _ _ id
  unfold follow
  simp only [hkept]
  split
  · simp only [store_tell, Store.get?_modify_eq_update hkept]
    exact (hhome v.machine).tell rfl
  · simp only [store_tell, Store.get?_modify_eq_update hkept]
    exact ((Guarding.refl.tell rfl).trans (hhome _)).tell rfl

/-- **The steps of a move that succeeded**: the new range is cleared, but
for the record that was found, which then goes over to it. In between it
has no guards, and nobody else holds a page of the range. -/
theorem relocate_steps (hs : w.store.Shaped) (hcache : w.config.useMappingCache = true)
    {q : MoveRequest} {moved : Nat} {m : Machine}
    (hmove : (w.lifted q.address).machine.move q = (.ok moved, m)) :
    ∃ V m', Clearing moved (moved + roundUp q.newLength pageSize) (w.store.find? q.address)
        (w.lifted q.address).store.get? m V m' ∧
      (∀ k s p n, V k = some s → s.Holds p n → q.New moved n →
        some k = w.store.find? q.address) ∧
      ((w.store.find? q.address = none ∧ (w.relocate q).2.store.get? = V ∧
          (w.relocate q).2.machine = m') ∨
        ∃ h f, w.store.find? q.address = some h ∧ w.store.get? h = some f ∧ V h = some f.bare ∧
          Guarding w.config.guardPagesActive
            (Function.update V h (some { f.bare with base := moved, length := q.newLength })) m'
            (w.relocate q).2.store.get? (w.relocate q).2.machine) := by
  have hshaped : (w.lifted q.address).store.Shaped := shaped_congr hs (bare?_lifted w _)
  obtain ⟨-, ha, -⟩ := Machine.aligned_of_move hmove
  have hstop := ha.add_roundUp q.newLength
  have hlive := live_lifted w q.address
  have hheld : ∀ k s p n, (Warden.carve { w.lifted q.address with machine := m } moved
      (moved + roundUp q.newLength pageSize) (w.store.find? q.address)).store.get? k = some s →
      s.Holds p n → q.New moved n → some k = w.store.find? q.address := fun k s p n hk hp hn =>
    (held_carve (w := { w.lifted q.address with machine := m }) hshaped ha hstop hk hp hn).2
  refine ⟨_, _, clearing_carve (w := { w.lifted q.address with machine := m }) hshaped hstop hlive,
    hheld, ?_⟩
  rw [(relocate_of_move hcache hmove).2]
  cases hfind : w.store.find? q.address with
  | none => exact Or.inl ⟨rfl, rfl, rfl⟩
  | some h =>
    obtain ⟨f, hf, -⟩ := Store.get?_of_find? hfind
    have hkept : (w.lifted q.address).store.get? h = some f.bare := by
      rw [(lifted_of_find? hfind hf).1, Function.update_self]
    obtain ⟨hstays, hguard⟩ := resettle_steps (w := { w.lifted q.address with machine := m }) q
      moved hkept rfl
    rw [show Warden.config { w.lifted q.address with machine := m } = w.config from
      config_lifted w q.address] at hguard
    exact Or.inr ⟨h, f, rfl, hf, hstays, hguard⟩

end Warden

end PageWarden
