import PageWarden.Proofs.Tenant.Operation
/-!
# Accounts — who a mapped page belongs to

Every mapped page should be held by a record or be a file's, or else it
was left behind. Clearing a range and guarding keep such an account
(`Accounted.clearing`, `Accounted.guarding`), where no unmapping is
scheduled to fail: a page that a record gives up outside of the range was
a guard, and is unmapped with the field that named it.
-/

namespace PageWarden

variable {X Y : Nat → Prop} {V V' : View} {m m' : Machine}
variable {start stop n : Nat} {keep : Option Handle}

/-- Some record holds the page. -/
def View.Held (V : View) (n : Nat) : Prop := ∃ k r p, V k = some r ∧ r.Holds p n

/-- **Every mapped page is accounted for**, but for those in `X`: a record
holds it, or it is a file's. -/
def Accounted (X : Nat → Prop) (V : View) (m : Machine) : Prop :=
  ∀ n, (m.rightsAt n).isSome → ¬ X n → V.Held n ∨ m.tenant n = some .file

/-! ## Parts -/

namespace Record

variable {r : Record} {p : Part}

/-- What is held outside of a range is held after the guards there are
forgotten. -/
theorem holds_forgetWithin (hp : r.Holds p n) (hn : ¬ PageIn start stop n) :
    (r.forgetWithin start stop).Holds p n := by
  have hguard : ∀ g : Option Nat, g = some (n * pageSize) →
      (if guardWithin g start stop then none else g) = some (n * pageSize) := by
    rintro g rfl
    refine if_neg fun hin => hn ?_
    simp only [guardWithin, Option.any_some, Bool.and_eq_true, decide_eq_true_eq] at hin
    exact hin
  cases p with
  | body => exact hp
  | below => exact hguard _ hp
  | above => exact hguard _ hp

/-- **What a record holds outside of a range its parts hold**, if the guards
that no part keeps are gone. -/
theorem exists_partOf_holds (hr : r.Shaped) (hstart : Aligned start) (hstop : Aligned stop)
    (hm : r.Meets start stop) (hbelow : start ≤ r.base → r.guardBelow = none)
    (habove : r.stop pageSize ≤ stop → r.guardAbove = none) (hp : r.Holds p n)
    (hn : ¬ PageIn start stop n) : ∃ s, r.PartOf start stop s ∧ s.Holds p n := by
  cases p with
  | body => exact (covers_parts hr hstart hstop hm n).2 ⟨hp, hn⟩
  | below =>
    have hlt : r.base < start := by
      by_contra hge
      have hnone := hbelow (Nat.le_of_not_lt hge)
      rw [show r.guardBelow = some (n * pageSize) from hp] at hnone
      cases hnone
    exact ⟨_, Or.inl ⟨hlt, rfl⟩, hp⟩
  | above =>
    have hlt : stop < r.stop pageSize := by
      by_contra hge
      have hnone := habove (Nat.le_of_not_lt hge)
      rw [show r.guardAbove = some (n * pageSize) from hp] at hnone
      cases hnone
    exact ⟨_, Or.inr ⟨hlt, rfl⟩, hp⟩

end Record

/-! ## Steps -/

namespace Accounted

/-- More pages may be exempt. -/
theorem exempt (ha : Accounted X V m) (hXY : ∀ n, X n → Y n) : Accounted Y V m :=
  fun n hn hY => ha n hn fun hX => hY (hXY n hX)

/-- What is exempt may be accounted for at last. -/
theorem settle (ha : Accounted X V m)
    (hX : ∀ n, (m.rightsAt n).isSome → X n → V.Held n ∨ m.tenant n = some .file) :
    Accounted Nowhere V m := by
  intro n hn _
  by_cases hXn : X n
  · exact hX n hn hXn
  · exact ha n hn hXn

/-- **The machine may change**: what is mapped and not exempt was mapped
before, and is what it was. -/
theorem machine (ha : Accounted X V m)
    (hsame : ∀ n, (m'.rightsAt n).isSome → ¬ Y n →
      ¬ X n ∧ (m.rightsAt n).isSome ∧ m'.tenant n = m.tenant n) : Accounted Y V m' := by
  intro n hn hY
  obtain ⟨hX, hmapped, htenant⟩ := hsame n hn hY
  rw [htenant]
  exact ha n hmapped hX

/-- **Records may change**, as long as what they hold stays held or is
exempt. -/
theorem records (ha : Accounted X V m) (hheld : ∀ n, V.Held n → ¬ X n → V'.Held n) :
    Accounted X V' m :=
  fun n hn hX => (ha n hn hX).imp_left fun hold => hheld n hold hX

/-- **One record may change with the machine**, if it holds what is mapped
and was its own, or is new. -/
theorem replace {h : Handle} {r s : Record} (ha : Accounted X V m) (hr : V h = some r)
    (hpage : ∀ n, (m'.rightsAt n).isSome → (∃ p, s.Holds p n) ∨
      (m.rightsAt n).isSome ∧ m'.tenant n = m.tenant n ∧ ∀ p, ¬ r.Holds p n) :
    Accounted X (Function.update V h (some s)) m' := by
  intro n hn hX
  rcases hpage n hn with ⟨p, hp⟩ | ⟨hmapped, htenant, hnot⟩
  · exact Or.inl ⟨h, s, p, Function.update_self h _ V, hp⟩
  · rw [htenant]
    refine (ha n hmapped hX).imp_left fun ⟨k, t, p, ht, hp⟩ => ⟨k, t, p, ?_, hp⟩
    rw [Function.update_of_ne, ht]
    rintro rfl
    obtain rfl : t = r := Option.some.inj (ht.symm.trans hr)
    exact hnot p hp

/-- The guard below may be removed. -/
theorem removeBelow {h : Handle} {r : Record} (ha : Accounted X V m) (hm : m.faults .unmap = [])
    (hr : V h = some r) :
    Accounted X (Function.update V h (some (Guard.removeBelow m r).1))
      (Guard.removeBelow m r).2 := by
  refine ha.replace hr fun n hn => ?_
  obtain ⟨hnot, hmapped⟩ := Guard.isSome_of_removeBelow hm hn
  by_cases hheld : ∃ p, r.Holds p n
  · obtain ⟨p, hp⟩ := hheld
    refine Or.inl ⟨p, ?_⟩
    rw [Guard.removeBelow_fst]
    cases p with
    | body => exact hp
    | below => exact absurd hp hnot
    | above => exact hp
  · exact Or.inr ⟨hmapped, congrFun (Guard.tenant_removeBelow m r) n,
      fun p hp => hheld ⟨p, hp⟩⟩

/-- The guard above may be removed. -/
theorem removeAbove {h : Handle} {r : Record} (ha : Accounted X V m) (hm : m.faults .unmap = [])
    (hr : V h = some r) :
    Accounted X (Function.update V h (some (Guard.removeAbove m r).1))
      (Guard.removeAbove m r).2 := by
  refine ha.replace hr fun n hn => ?_
  obtain ⟨hnot, hmapped⟩ := Guard.isSome_of_removeAbove hm hn
  by_cases hheld : ∃ p, r.Holds p n
  · obtain ⟨p, hp⟩ := hheld
    refine Or.inl ⟨p, ?_⟩
    rw [Guard.removeAbove_fst]
    cases p with
    | body => exact hp
    | below => exact hp
    | above => exact absurd hp hnot
  · exact Or.inr ⟨hmapped, congrFun (Guard.tenant_removeAbove m r) n,
      fun p hp => hheld ⟨p, hp⟩⟩

/-- The page below may be guarded. -/
theorem placeBelow {h : Handle} {r : Record} (ha : Accounted X V m) (hm : m.faults .unmap = [])
    (hr : V h = some r) :
    Accounted X (Function.update V h (some (Guard.placeBelow m r).1))
      (Guard.placeBelow m r).2 := by
  refine ha.replace hr fun n hn => ?_
  by_cases hheld : ∃ p, r.Holds p n
  · obtain ⟨p, hp⟩ := hheld
    exact Or.inl ⟨p, Guard.holds_placeBelow m hp⟩
  · rcases Guard.isSome_of_placeBelow hm hn with hnew | hmapped
    · exact Or.inl ⟨.below, hnew⟩
    · exact Or.inr ⟨hmapped, (Guard.tenant_placeBelow m r n).1 hmapped,
        fun p hp => hheld ⟨p, hp⟩⟩

/-- The page above may be guarded. -/
theorem placeAbove {h : Handle} {r : Record} (ha : Accounted X V m) (hm : m.faults .unmap = [])
    (hr : V h = some r) :
    Accounted X (Function.update V h (some (Guard.placeAbove m r).1))
      (Guard.placeAbove m r).2 := by
  refine ha.replace hr fun n hn => ?_
  by_cases hheld : ∃ p, r.Holds p n
  · obtain ⟨p, hp⟩ := hheld
    exact Or.inl ⟨p, Guard.holds_placeAbove m hp⟩
  · rcases Guard.isSome_of_placeAbove hm hn with hnew | hmapped
    · exact Or.inl ⟨.above, hnew⟩
    · exact Or.inr ⟨hmapped, (Guard.tenant_placeAbove m r n).1 hmapped,
        fun p hp => hheld ⟨p, hp⟩⟩

/-- A record may go over into its parts, but for the range. -/
theorem part {k j : Handle} {r : Record} (ha : Accounted X V m) (hX : ∀ n, PageIn start stop n → X n)
    (hstart : Aligned start) (hstop : Aligned stop) (hr : V k = some r) (hj : V j = none)
    (hshaped : r.Shaped) (hmeets : r.Meets start stop)
    (hbelow : start ≤ r.base → r.guardBelow = none)
    (habove : r.stop pageSize ≤ stop → r.guardAbove = none) :
    Accounted X
      (Function.update (Function.update V k (r.kept start stop)) j (r.splitOff start stop)) m := by
  refine ha.records fun n ⟨i, t, p, ht, hp⟩ hn => ?_
  by_cases hik : i = k
  · subst hik
    obtain rfl : t = r := Option.some.inj (ht.symm.trans hr)
    obtain ⟨s, hpart, hs⟩ := Record.exists_partOf_holds hshaped hstart hstop hmeets hbelow habove hp
      fun hin => hn (hX n hin)
    obtain ⟨i', -, hs'⟩ := View.exists_part hr hj hpart
    exact ⟨i', s, p, hs', hs⟩
  · exact ⟨i, t, p, View.part_of_ne ht hik hj, hp⟩

/-- **Clearing keeps the account**, but for the range. -/
theorem clearing (ha : Accounted X V m) (hm : m.faults .unmap = [])
    (hX : ∀ n, PageIn start stop n → X n) (hstart : Aligned start) (hstop : Aligned stop)
    (hc : Clearing start stop keep V m V' m') : Accounted X V' m' := by
  induction hc with
  | refl => exact ha
  | tell _ he ih => exact ih.machine fun n hn hY => ⟨hY, hn, by rw [Machine.tenant_tell _ he]⟩
  | free _ _ _ ih =>
    refine ih.machine fun n hn hY => ⟨hY, ?_, by rw [Machine.tenant_keyFree]⟩
    rwa [Machine.rightsAt_keyFree] at hn
  | liftBelow hc hr ih => exact ih.removeBelow (hc.calls.unscheduled hm) hr
  | liftAbove hc hr ih => exact ih.removeAbove (hc.calls.unscheduled hm) hr
  | forget _ hforget ih =>
    refine ih.records fun n ⟨k, r, p, hr, hp⟩ hn => ?_
    rcases hforget k with hsame | ⟨q, hq, hforgot⟩
    · exact ⟨k, r, p, hsame.trans hr, hp⟩
    · obtain rfl : q = r := Option.some.inj (hq.symm.trans hr)
      exact ⟨k, _, p, hforgot, Record.holds_forgetWithin hp fun hin => hn (hX n hin)⟩
  | part _ hr _ hj _ hshaped hmeets hbelow habove ih =>
    exact ih.part hX hstart hstop hr hj hshaped hmeets hbelow habove

/-- **Guarding keeps the account.** -/
theorem guarding {asked : Bool} (ha : Accounted X V m) (hm : m.faults .unmap = [])
    (hg : Guarding asked V m V' m') : Accounted X V' m' := by
  induction hg with
  | refl => exact ha
  | tell _ he ih => exact ih.machine fun n hn hY => ⟨hY, hn, by rw [Machine.tenant_tell _ he]⟩
  | placeBelow hg _ hr ih => exact ih.placeBelow (hg.calls.unscheduled hm) hr
  | placeAbove hg _ hr ih => exact ih.placeAbove (hg.calls.unscheduled hm) hr

end Accounted

end PageWarden
