import PageWarden.Proofs.InStep.Guard
import PageWarden.Proofs.Steps
/-!
# In step — cuts and carves

Clearing a range only gives pages up: a record goes over into parts of
itself, and the guards that are lifted were held by one record alone. So
it keeps records and memory in step whatever is exempt
(`InStep.clearing`), and guarding does where nothing is
(`InStep.guarding`). After a carve nothing but the body of the spared
record is held in the range (`held_carve`), and no page of the range has
changed (`rightsAt_carve`).
-/

namespace PageWarden

variable {X : Nat → Prop} {w : Warden} {h k : Handle} {r s : Record}
variable {start stop n : Nat} {keep : Option Handle}

namespace Warden

/-- What is found after a cut: one of the parts, or another record. -/
theorem get?_cut_cases (hr : w.store.get? h = some r)
    (hs : (w.cut h start stop false).store.get? k = some s) :
    (k = h ∧ (r.forgetWithin start stop).kept start stop = some s) ∨
      (k = w.store.nextHandle ∧ (r.forgetWithin start stop).splitOff start stop = some s) ∨
      (k ≠ h ∧ k ≠ w.store.nextHandle ∧ w.store.get? k = some s) := by
  rw [get?_cut hr, Function.update_apply, Function.update_apply] at hs
  by_cases hnext : k = w.store.nextHandle
  · rw [if_pos hnext] at hs
    exact Or.inr (Or.inl ⟨hnext, hs⟩)
  · rw [if_neg hnext] at hs
    by_cases hk : k = h
    · rw [if_pos hk] at hs
      exact Or.inl ⟨hk, hs⟩
    · rw [if_neg hk] at hs
      exact Or.inr (Or.inr ⟨hk, hnext, hs⟩)

/-- **A cut without guards touches only the guards it lifts**, which are
those that no part keeps. -/
theorem rightsAt_cut (hr : w.store.get? h = some r)
    (hn : ∀ p, p ≠ .body → (r.forgetWithin start stop).Holds p n →
      ∃ s, (r.forgetWithin start stop).PartOf start stop s ∧ s.Holds p n) :
    (w.cut h start stop false).machine.rightsAt n = w.machine.rightsAt n := by
  have hbelow : (r.forgetWithin start stop).guardBelow = some (n * pageSize) →
      (r.forgetWithin start stop).base < start := by
    intro hguard
    obtain ⟨s, ⟨hlt, -⟩ | ⟨-, rfl⟩, hp⟩ := hn .below (by decide) hguard
    · exact hlt
    · cases hp
  have habove : (r.forgetWithin start stop).guardAbove = some (n * pageSize) →
      stop < (r.forgetWithin start stop).stop pageSize := by
    intro hguard
    obtain ⟨s, ⟨-, rfl⟩ | ⟨hlt, -⟩, hp⟩ := hn .above (by decide) hguard
    · cases hp
    · exact hlt
  unfold cut
  simp only [hr]
  split
  · rename_i hbase
    have hbelow := mt hbelow (Nat.not_lt_of_le hbase)
    split
    · rename_i hend
      have habove := mt habove (Nat.not_lt_of_le hend)
      obtain ⟨t, ht⟩ := Store.exists_remove_of_get? hr
      unfold dropRecord
      simp only [ht]
      show (releaseKey _ _).machine.rightsAt n = _
      rw [rightsAt_releaseKey]
      exact Guard.rightsAt_removeAll hbelow habove
    · rw [trimHead_eq]
      exact Guard.rightsAt_removeBelow hbelow
  · split
    · rename_i hend
      rw [trimTail_eq]
      exact Guard.rightsAt_removeAbove (mt habove (Nat.not_lt_of_le hend))
    · rw [splitRecord_eq]
      rfl

end Warden

/-! ## Steps -/

namespace InStep

variable {V V' : View} {m m' : Machine}

/-- A record may go over into its parts, one of them under a free handle. -/
theorem part (hin : InStep X V m.rightsAt) (hstart : Aligned start) (hstop : Aligned stop)
    (hle : start ≤ stop) {j : Handle} (hr : V k = some r) (hj : V j = none) (hshaped : r.Shaped)
    (hmeets : r.Meets start stop) :
    InStep X (Function.update (Function.update V k (r.kept start stop)) j (r.splitOff start stop))
      m.rightsAt := by
  have hne : k ≠ j := by
    rintro rfl
    rw [hj] at hr
    cases hr
  have hlook : ∀ {i s},
      Function.update (Function.update V k (r.kept start stop)) j (r.splitOff start stop) i =
        some s →
      (i = k ∧ r.kept start stop = some s) ∨ (i = j ∧ r.splitOff start stop = some s) ∨
        (i ≠ k ∧ i ≠ j ∧ V i = some s) := by
    intro i s hs
    rw [Function.update_apply, Function.update_apply] at hs
    by_cases hij : i = j
    · rw [if_pos hij] at hs
      exact Or.inr (Or.inl ⟨hij, hs⟩)
    · rw [if_neg hij] at hs
      by_cases hik : i = k
      · rw [if_pos hik] at hs
        exact Or.inl ⟨hik, hs⟩
      · rw [if_neg hik] at hs
        exact Or.inr (Or.inr ⟨hik, hij, hs⟩)
  have hclash : ∀ {t u p n}, r.kept start stop = some t → r.splitOff start stop = some u →
      t.Holds p n → ¬ u.Holds p n :=
    Record.not_holds_kept_and_splitOff hshaped hstart hstop hle hmeets
  have hpart : ∀ {s p n}, r.PartOf start stop s → s.Holds p n → r.Holds p n :=
    fun hs hp => hs.holds hshaped hstart hstop hmeets hp
  -- the part that is split off comes from the record under `k`
  refine hin.descend (f := fun i => if i = j then k else i) ?_ ?_
  · intro i s hs
    rcases hlook hs with ⟨rfl, hkept⟩ | ⟨rfl, hsplit⟩ | ⟨-, hij, hother⟩
    · refine ⟨r, ?_, fun p n => hpart (Record.partOf_iff.2 (Or.inl hkept))⟩
      simp only [if_neg hne, hr]
    · refine ⟨r, ?_, fun p n => hpart (Record.partOf_iff.2 (Or.inr hsplit))⟩
      simp only [if_true, hr]
    · refine ⟨s, ?_, fun _ _ hp => hp⟩
      simp only [if_neg hij, hother]
  · intro i l t u p n hi hl hil ht hu
    rcases hlook hi with ⟨rfl, hti⟩ | ⟨rfl, hti⟩ | ⟨hik, hij, -⟩ <;>
      rcases hlook hl with ⟨hlk, hul⟩ | ⟨rfl, hul⟩ | ⟨hlk, hlj, -⟩
    · exact hlk.symm
    · exact absurd hu (hclash hti hul ht)
    · simp only [if_neg hne, if_neg hlj] at hil
      exact hil
    · exact absurd ht (hclash hul hti hu)
    · rfl
    · simp only [if_true, if_neg hlj] at hil
      exact absurd hil.symm hlk
    · rw [hlk] at hil ⊢
      simp only [if_neg hij, if_neg hne] at hil
      exact hil
    · simp only [if_neg hij, if_true] at hil
      exact absurd hil hik
    · simp only [if_neg hij, if_neg hlj] at hil
      exact hil

/-- **Clearing keeps step.** -/
theorem clearing (hin : InStep X V m.rightsAt) (hstart : Aligned start) (hstop : Aligned stop)
    (hle : start ≤ stop) (hc : Clearing start stop keep V m V' m') :
    InStep X V' m'.rightsAt := by
  induction hc with
  | refl => exact hin
  | tell _ _ ih => exact ih
  | free _ _ _ ih =>
    rw [Machine.rightsAt_keyFree]
    exact ih
  | liftBelow _ hr ih => exact ih.removeBelow hr
  | liftAbove _ hr ih => exact ih.removeAbove hr
  | forget _ hV ih =>
    refine ih.descend (f := id) (fun k s hs => ?_) fun _ _ _ _ _ _ _ _ hjk _ _ => hjk
    rcases hV k with hsame | ⟨r, hr, hforgot⟩
    · exact ⟨s, hsame.symm.trans hs, fun _ _ hp => hp⟩
    · obtain rfl : r.forgetWithin _ _ = s := Option.some.inj (hforgot.symm.trans hs)
      exact ⟨r, hr, fun _ _ hp => Record.holds_of_forgetWithin hp⟩
  | part _ hr _ hj _ hshaped hmeets _ _ ih => exact ih.part hstart hstop hle hr hj hshaped hmeets

/-- **Guarding keeps step**, where nothing is exempt. -/
theorem guarding {asked : Bool} (hin : InStep Nowhere V m.rightsAt)
    (hg : Guarding asked V m V' m') :
    InStep Nowhere V' m'.rightsAt := by
  induction hg with
  | refl => exact hin
  | tell _ _ ih => exact ih
  | placeBelow _ _ hr ih => exact ih.placeBelow hr
  | placeAbove _ _ hr ih => exact ih.placeAbove hr

/-- **A carve keeps step.** -/
theorem carve (hin : InStep X w.store.get? w.machine.rightsAt) (hs : w.store.Shaped)
    (hstart : Aligned start) (hstop : Aligned stop) (hle : start ≤ stop) (hlive : w.Live keep) :
    InStep X (w.carve start stop keep).store.get? (w.carve start stop keep).machine.rightsAt :=
  hin.clearing hstart hstop hle (Warden.clearing_carve hs hstop hlive)

end InStep

/-! ## The range of a carve -/

namespace Warden

/-- After a carve no guard is left in the range. -/
theorem not_pageIn_of_guard_carve {p : Part} (hs : w.store.Shaped) (hstart : Aligned start)
    (hstop : Aligned stop) (hk : (w.carve start stop keep).store.get? k = some s)
    (hp : s.Holds p n) (hguard : p ≠ .body) : ¬ PageIn start stop n := by
  have hinv : (w.carve start stop keep).store.Shaped ∧ ∀ k s,
      (w.carve start stop keep).store.get? k = some s → s.Holds p n → ¬ PageIn start stop n := by
    refine carve_induction (motive := fun _ v => v.store.Shaped ∧ ∀ k s,
      v.store.get? k = some s → s.Holds p n → ¬ PageIn start stop n) ⟨?_, ?_⟩ ?_
    · rw [Store.shaped_iff, bare?_forgetGuards, ← Store.shaped_iff]
      exact hs
    · intro k s hk hp
      rw [get?_forgetGuards] at hk
      obtain ⟨r, hr, rfl⟩ := Option.map_eq_some_iff.1 hk
      exact Record.not_pageIn_of_holds_forgetWithin hp hguard
    · intro v h r _ ⟨hshaped, hv⟩ hr hm _
      refine ⟨shaped_cut (w := v.tell _) hshaped hstop h false, fun k s hk hp => ?_⟩
      have hpart : (r.forgetWithin start stop).PartOf start stop s → ¬ PageIn start stop n :=
        fun hpart => hpart.not_pageIn_of_holds (hshaped h r hr) hstart hstop hm hp
      rcases get?_cut_cases (w := v.tell _) hr hk with ⟨-, hs⟩ | ⟨-, hs⟩ | ⟨-, -, hs⟩
      · exact hpart (Record.partOf_iff.2 (Or.inl hs))
      · exact hpart (Record.partOf_iff.2 (Or.inr hs))
      · exact hv k s hs hp
  exact hinv.2 k s hk hp

/-- **After a carve the range is held by nobody but the spared record**,
and by that as its own pages. -/
theorem held_carve {p : Part} (hs : w.store.Shaped) (hstart : Aligned start)
    (hstop : Aligned stop) (hk : (w.carve start stop keep).store.get? k = some s)
    (hp : s.Holds p n) (hn : PageIn start stop n) : p = .body ∧ some k = keep := by
  have hbody : p = .body := by
    by_contra hguard
    exact not_pageIn_of_guard_carve hs hstart hstop hk hp hguard hn
  subst hbody
  exact ⟨rfl, keep_of_meets_carve hs hstart hstop hk (Record.meets_of_covers hp hn)⟩

/-- **A carve changes no page of its range.** -/
theorem rightsAt_carve (hn : PageIn start stop n) :
    (w.carve start stop keep).machine.rightsAt n = w.machine.rightsAt n := by
  refine carve_induction (motive := fun _ v => v.machine.rightsAt n = w.machine.rightsAt n) rfl ?_
  intro v h r _ hv hr _ _
  refine Eq.trans (rightsAt_cut (w := v.tell _) hr fun p hp hheld => ?_) hv
  exact absurd hn (Record.not_pageIn_of_holds_forgetWithin hheld hp)

end Warden

end PageWarden
