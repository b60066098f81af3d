import PageWarden.Proofs.Bookkeeping
import PageWarden.Proofs.Steps.FollowUp
/-!
# Steps — laws about records alone

Whatever an operation does to the machine, it changes the records by a few
kinds of step: a range is cleared, guards are placed, a record without
guards enters or goes to another range, a protection is noted, a record
leaves. A law about records that each kind of step keeps (`Lasting`) is
kept by every operation (`Lasting.perform`), under every fault.
-/

namespace PageWarden

/-- **The law outlasts every step**, where guards are placed only if it may
be asked for them. -/
structure Lasting (MayAsk : Bool → Prop) (P : View → Prop) : Prop where
  clear : ∀ {start stop : Nat} {keep : Option Handle} {V V' : View} {m m' : Machine},
    Aligned stop → Clearing start stop keep V m V' m' → P V → P V'
  guard : ∀ {asked : Bool} {V V' : View} {m m' : Machine},
    MayAsk asked → Guarding asked V m V' m' → P V → P V'
  put : ∀ {V : View} {r : Record} (h : Handle), r.Shaped → r.bare = r → P V →
    P (Function.update V h (some r))
  note : ∀ {V : View} {h : Handle} {r : Record} (ρ : Rights), V h = some r → P V →
    P (Function.update V h (some (r.protect ρ)))
  drop : ∀ {V : View} (h : Handle), P V → P (Function.update V h none)
  nothing : P fun _ => none

namespace Lasting

variable {MayAsk : Bool → Prop} {P : View → Prop} {w : Warden}

/-- A carve keeps the law. -/
theorem carve (hP : Lasting MayAsk P) {start stop : Nat} {keep : Option Handle}
    (hs : w.store.Shaped) (hstop : Aligned stop) (hlive : w.Live keep) (hw : P w.store.get?) :
    P (w.carve start stop keep).store.get? :=
  hP.clear hstop (Warden.clearing_carve hs hstop hlive) hw

/-- A move keeps the law, with its record or without one. -/
theorem relocate (hP : Lasting MayAsk P) (hs : w.store.Shaped) (hw : P w.store.get?)
    (hactive : MayAsk w.config.guardPagesActive) (q : MoveRequest)
    (hback : MayAsk (w.hasBelow q.address || w.hasAbove q.address)) :
    P (w.relocate q).2.store.get? := by
  cases hcache : w.config.useMappingCache with
  | false =>
    rw [(w.store_relocate_of_not_cache q hcache).1]
    exact hw
  | true =>
    have hlifted : P (w.lifted q.address).store.get? :=
      hP.clear aligned_zero (Warden.clearing_lifted w q.address 0 0 none) hw
    rcases w.relocate_cases q hcache with ⟨e, m, -, -, h⟩ | ⟨moved, m, hmove, -, -⟩
    · rw [h]
      exact hP.guard hback (Warden.guarding_restore { w.lifted q.address with machine := m } _ _ _)
        hlifted
    · obtain ⟨-, ha, hlen⟩ := Machine.aligned_of_move hmove
      obtain ⟨V, m', hclear, -, hstage⟩ := Warden.relocate_steps hs hcache hmove
      have hcleared := hP.clear (ha.add_roundUp q.newLength) hclear hlifted
      rcases hstage with ⟨-, hV, -⟩ | ⟨h, f, -, -, -, hguard⟩
      · rw [hV]
        exact hcleared
      · exact hP.guard hactive hguard (hP.put h ⟨ha, hlen⟩ rfl hcleared)

/-- **What every step keeps every operation keeps.** -/
theorem perform (hP : Lasting MayAsk P) (hs : w.store.Shaped) (hw : P w.store.get?)
    (hactive : MayAsk w.config.guardPagesActive)
    (hback : ∀ address, MayAsk (w.hasBelow address || w.hasAbove address)) (op : Operation) :
    P (w.perform op).2.store.get? := by
  cases op with
  | create q =>
    show P (w.create q).2.store.get?
    rcases w.create_cases q with ⟨-, h⟩ | ⟨a, m, hmap, -, h⟩
    · rw [h.store]
      exact hw
    · obtain ⟨ha, hlen⟩ := Machine.aligned_of_map hmap
      have hcarved : P (Warden.carve { w with machine := m } a
          (a + roundUp q.length pageSize) none).store.get? :=
        hP.carve (w := { w with machine := m }) hs (ha.add_roundUp _) (Warden.live_none _) hw
      rw [h.store]
      by_cases hcache : w.config.useMappingCache = true
      · by_cases hanon : q.isAnonymous = true
        · exact hP.guard hactive
            (Warden.guarding_settle (w := { w with machine := m }) hcache hanon a)
            (hP.put _ ⟨ha, hlen⟩ rfl hcarved)
        · rw [Warden.settle_of_file (w := { w with machine := m }) hcache hanon]
          exact hcarved
      · unfold Warden.settle
        rw [if_neg hcache]
        exact hw
  | remove a l =>
    show P (w.remove a l).2.store.get?
    rcases w.remove_cases a l with ⟨-, h⟩ | ⟨m, hunmap, -, h⟩
    · rw [h.store]
      exact hw
    · obtain ⟨ha, hlen⟩ := Machine.aligned_of_unmap hunmap
      rw [h]
      split
      · obtain ⟨V, m₁, hclear, -, hguard⟩ :=
          Warden.vacate_steps (w := { w with machine := m }) hs ha hlen
        exact hP.guard hactive hguard (hP.clear (ha.add_roundUp l) hclear hw)
      · exact hw
  | reprotect a l ρ =>
    show P (w.reprotect a l ρ).2.store.get?
    rcases w.reprotect_cases a l ρ with ⟨-, h⟩ | ⟨m, -, -, h⟩
    · rw [h.store]
      exact hw
    · rw [h]
      cases hfound : Warden.found { w with machine := m } a with
      | none =>
        rw [Warden.note_of_not_found hfound]
        exact hw
      | some k =>
        obtain ⟨r, hr⟩ := Warden.exists_of_found hfound
        unfold Warden.note
        simp only [hfound]
        rw [(Warden.noteProtection_of_get? { w with machine := m } hr a l ρ).1]
        exact hP.note ρ hr hw
  | relocate q => exact hP.relocate hs hw hactive q (hback q.address)
  | makeExecuteOnly s c =>
    show P (w.makeExecuteOnly s c).2.store.get?
    rcases w.makeExecuteOnly_cases s c with ⟨-, h, -⟩ | ⟨a, x, m, -, ha, hlen, -, -, -, -, h⟩
    · rw [h]
      exact hw
    · rw [h.store]
      exact hP.guard hactive (Warden.guarding_enroll { w with machine := m } _)
        (hP.put _ ⟨ha, hlen⟩ rfl hw)
  | releaseExecuteOnly a l =>
    show P (w.releaseExecuteOnly a l).2.store.get?
    rcases w.releaseExecuteOnly_cases a l with
      ⟨-, h⟩ | ⟨_, _, t, _, _, _, -, -, hremove, -, -, -, -, ht, -⟩
    · rw [h.store]
      exact hw
    · rw [ht, Store.get?_remove_eq_update hremove]
      exact hP.drop _ hw
  | teardown => exact hP.nothing

end Lasting

end PageWarden
