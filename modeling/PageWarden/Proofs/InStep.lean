import PageWarden.Proofs.Carve
/-!
# In step — records and memory agree

A record holds the pages it covers and the pages that its guard fields
name (`Record.Holds`). Records and memory are in step (`InStep`) when no
page is held twice and every page that is held is mapped.

While a range changes hands its pages are out of step; they are exempt
until the carve is done, and `InStep.close` ends the exemption once
nothing in the range is held. Each lemma here is one way to change the
records and the memory together.
-/

namespace PageWarden

/-! ## What a record holds -/

/-- The ways to hold a page. -/
inductive Part where
  | body
  | below
  | above
deriving DecidableEq, Repr

namespace Record

/-- Page `n` is held by the record, as one of its own pages or as a guard. -/
def Holds (r : Record) : Part → Nat → Prop
  | .body, n => r.Covers n
  | .below, n => r.guardBelow = some (n * pageSize)
  | .above, n => r.guardAbove = some (n * pageSize)

instance (r : Record) (p : Part) (n : Nat) : Decidable (r.Holds p n) :=
  match p with
  | .body => inferInstanceAs (Decidable (r.Covers n))
  | .below => inferInstanceAs (Decidable (r.guardBelow = _))
  | .above => inferInstanceAs (Decidable (r.guardAbove = _))

variable {r s : Record} {start stop n : Nat} {p : Part}

/-- Without guards only its own pages are held. -/
theorem eq_body_of_holds_bare (h : r.bare.Holds p n) : p = .body ∧ r.Covers n := by
  cases p with
  | body => exact ⟨rfl, h⟩
  | below => cases h
  | above => cases h

/-- So it is if there are no guards. -/
theorem eq_body_of_holds (hr : r.bare = r) (h : r.Holds p n) : p = .body := by
  rw [← hr] at h
  exact (eq_body_of_holds_bare h).1

/-- What is held after guards are forgotten was held before. -/
theorem holds_of_forgetWithin (h : (r.forgetWithin start stop).Holds p n) : r.Holds p n := by
  cases p with
  | body => exact h
  | below =>
    simp only [Holds, forgetWithin] at h
    split at h
    · cases h
    · exact h
  | above =>
    simp only [Holds, forgetWithin] at h
    split at h
    · cases h
    · exact h

/-- No forgotten guard is held. -/
theorem not_pageIn_of_holds_forgetWithin (h : (r.forgetWithin start stop).Holds p n)
    (hp : p ≠ .body) : ¬ PageIn start stop n := by
  have hguard : ∀ g : Option Nat, (if guardWithin g start stop then none else g) =
      some (n * pageSize) → ¬ PageIn start stop n := by
    intro g hg hin
    split at hg
    · cases hg
    · rename_i hout
      subst hg
      refine hout ?_
      simp only [guardWithin, Option.any_some, Bool.and_eq_true, decide_eq_true_eq]
      exact hin
  cases p with
  | body => exact absurd rfl hp
  | below => exact hguard _ h
  | above => exact hguard _ h

/-- A part holds what the record held. -/
theorem PartOf.holds (hs : r.PartOf start stop s) (hr : r.Shaped) (hstart : Aligned start)
    (hstop : Aligned stop) (hm : r.Meets start stop) (h : s.Holds p n) : r.Holds p n := by
  cases p with
  | body => exact ((covers_parts hr hstart hstop hm n).1 ⟨s, hs, h⟩).1
  | below =>
    rcases hs with ⟨-, rfl⟩ | ⟨-, rfl⟩
    · exact h
    · cases h
  | above =>
    rcases hs with ⟨-, rfl⟩ | ⟨-, rfl⟩
    · cases h
    · exact h

/-- A part of a record holds nothing in the range that was taken out, once
the guards there are forgotten. -/
theorem PartOf.not_pageIn_of_holds (hs : (r.forgetWithin start stop).PartOf start stop s)
    (hr : r.Shaped) (hstart : Aligned start) (hstop : Aligned stop) (hm : r.Meets start stop)
    (hp : s.Holds p n) : ¬ PageIn start stop n := by
  have hshaped : (r.forgetWithin start stop).Shaped := hr
  by_cases hbody : p = .body
  · subst hbody
    exact ((covers_parts hshaped hstart hstop hm n).1 ⟨s, hs, hp⟩).2
  · exact not_pageIn_of_holds_forgetWithin (hs.holds hshaped hstart hstop hm hp) hbody

/-- What stays and what is split off hold no page in the same way. -/
theorem not_holds_kept_and_splitOff {t u : Record} (hr : r.Shaped) (hstart : Aligned start)
    (hstop : Aligned stop) (hle : start ≤ stop) (hm : r.Meets start stop)
    (ht : r.kept start stop = some t) (hu : r.splitOff start stop = some u) (hp : t.Holds p n) :
    ¬ u.Holds p n := by
  cases p with
  | body => exact not_covers_kept_and_splitOff hr hstart hstop hle hm ht hu hp
  | below =>
    -- the part that is split off has no guard below
    unfold splitOff at hu
    split at hu
    · cases hu
      exact fun hq => nomatch hq
    · cases hu
  | above =>
    -- where a part is split off, the part that stays has no guard above
    unfold splitOff at hu
    split at hu
    · rename_i hboth
      unfold kept at ht
      rw [if_pos hboth.1] at ht
      cases ht
      cases hp
    · cases hu

end Record

/-! ## The invariant -/

/-- What handles find. -/
abbrev View := Handle → Option Record

/-- What pages allow. -/
abbrev Memory := Nat → Option Rights

/-- **Records and memory are in step**, but for the pages in `X`. -/
structure InStep (X : Nat → Prop) (V : View) (A : Memory) : Prop where
  /-- A page is held by one record and in one way. -/
  sole : ∀ {h k r s p q n}, V h = some r → V k = some s → r.Holds p n → s.Holds q n →
    h = k ∧ p = q
  /-- What is held is mapped. -/
  mapped : ∀ {h r p n}, V h = some r → r.Holds p n → ¬ X n → (A n).isSome

/-- No page is exempt. -/
def Nowhere (_ : Nat) : Prop := False

namespace InStep

variable {X Y : Nat → Prop} {V V' : View} {A A' : Memory}
variable {h k : Handle} {r s : Record} {p q : Part} {n : Nat}

/-- Without records there is nothing to be out of step. -/
theorem of_no_records (hV : ∀ k, V k = none) : InStep X V A := by
  constructor
  · intro h k r s p q n hr
    rw [hV h] at hr
    cases hr
  · intro h r p n hr
    rw [hV h] at hr
    cases hr

/-- Where nothing is held, exemptions may change. -/
theorem close (hin : InStep X V A)
    (hX : ∀ k s p n, V k = some s → s.Holds p n → X n → Y n) : InStep Y V A := by
  refine ⟨hin.sole, fun hr hp hn => ?_⟩
  exact hin.mapped hr hp fun hXn => hn (hX _ _ _ _ hr hp hXn)

/-- **Memory may change** as long as the pages that are held stay mapped,
or are exempt from now on. -/
theorem memory (hin : InStep X V A)
    (hA : ∀ k s p n, V k = some s → s.Holds p n → ¬ Y n →
      ¬ X n ∧ ((A n).isSome → (A' n).isSome)) : InStep Y V A' := by
  refine ⟨hin.sole, fun hr hp hn => ?_⟩
  obtain ⟨hX, hkeep⟩ := hA _ _ _ _ hr hp hn
  exact hkeep (hin.mapped hr hp hX)

/-- Pages that stay mapped are no matter. -/
theorem grow (hin : InStep X V A) (hA : ∀ n, (A n).isSome → (A' n).isSome) : InStep X V A' :=
  hin.memory fun _ _ _ n _ _ hn => ⟨hn, hA n⟩

/-- **Records may give pages up**, and pass pages on to records that come
from them, as long as no two of these share one. -/
theorem descend (hin : InStep X V A) {f : Handle → Handle}
    (hfrom : ∀ k s, V' k = some s → ∃ r, V (f k) = some r ∧ ∀ p n, s.Holds p n → r.Holds p n)
    (hapart : ∀ j k r s p n, V' j = some r → V' k = some s → f j = f k →
      r.Holds p n → s.Holds p n → j = k) : InStep X V' A := by
  constructor
  · intro h k r s p q n hr hs hp hq
    obtain ⟨r₀, hr₀, hold₀⟩ := hfrom h r hr
    obtain ⟨s₀, hs₀, hold₁⟩ := hfrom k s hs
    obtain ⟨horigin, rfl⟩ := hin.sole hr₀ hs₀ (hold₀ p n hp) (hold₁ q n hq)
    exact ⟨hapart h k r s p n hr hs horigin hp hq, rfl⟩
  · intro h r p n hr hp hn
    obtain ⟨r₀, hr₀, hold⟩ := hfrom h r hr
    exact hin.mapped hr₀ (hold p n hp) hn

/-- **One record may give pages up**, and memory that no record holds any
more may change. -/
theorem replace (hin : InStep X V A) (hr : V h = some r) {o : Option Record}
    (ho : ∀ s, o = some s → ∀ p n, s.Holds p n → r.Holds p n)
    (hA : ∀ n, ¬ X n → (∀ p, r.Holds p n → ∃ s, o = some s ∧ s.Holds p n) → A' n = A n) :
    InStep X (Function.update V h o) A' := by
  have hview : InStep X (Function.update V h o) A := by
    refine hin.descend (f := id) (fun k s hs => ?_) fun _ _ _ _ _ _ _ _ hjk _ _ => hjk
    by_cases hk : k = h
    · subst hk
      rw [Function.update_self] at hs
      exact ⟨r, hr, ho s hs⟩
    · rw [Function.update_of_ne hk] at hs
      exact ⟨s, hs, fun _ _ hp => hp⟩
  refine hview.memory fun k s p n hs hp hn => ⟨hn, ?_⟩
  rw [hA n hn fun q hq => ?_]
  · exact id
  by_cases hk : k = h
  · subst hk
    rw [Function.update_self] at hs
    obtain ⟨-, rfl⟩ := hin.sole hr hr (ho s hs p n hp) hq
    exact ⟨s, hs, hp⟩
  · rw [Function.update_of_ne hk] at hs
    exact absurd (hin.sole hs hr hp hq).1 hk

/-- **A record may claim a free page as a guard.** -/
theorem claim (hin : InStep Nowhere V A) (hr : V h = some r) {g : Part} {n₀ : Nat}
    (hold : ∀ p n, s.Holds p n → r.Holds p n ∨ p = g ∧ n = n₀)
    (hfree : A n₀ = none) (hnew : (A' n₀).isSome)
    (hA : ∀ n, (A n).isSome → (A' n).isSome) :
    InStep Nowhere (Function.update V h (some s)) A' := by
  -- whatever was held before is mapped, so it is not the page that is claimed
  have hne : ∀ {k t p n}, V k = some t → t.Holds p n → n ≠ n₀ := by
    rintro k t p n ht hp rfl
    have hsome := hin.mapped ht hp not_false
    rw [hfree] at hsome
    cases hsome
  have hlook : ∀ {k t p n}, Function.update V h (some s) k = some t → t.Holds p n →
      (∃ t', V k = some t' ∧ t'.Holds p n) ∨ k = h ∧ p = g ∧ n = n₀ := by
    intro k t p n ht hp
    by_cases hk : k = h
    · subst hk
      rw [Function.update_self] at ht
      cases ht
      rcases hold p n hp with hp | ⟨rfl, rfl⟩
      · exact Or.inl ⟨r, hr, hp⟩
      · exact Or.inr ⟨rfl, rfl, rfl⟩
    · rw [Function.update_of_ne hk] at ht
      exact Or.inl ⟨t, ht, hp⟩
  constructor
  · intro j k t u p q n ht hu hp hq
    rcases hlook ht hp with ⟨t', ht', hp'⟩ | ⟨rfl, rfl, rfl⟩ <;>
      rcases hlook hu hq with ⟨u', hu', hq'⟩ | ⟨rfl, rfl, hn⟩
    · exact hin.sole ht' hu' hp' hq'
    · exact absurd hn (hne ht' hp')
    · exact absurd rfl (hne hu' hq')
    · exact ⟨rfl, rfl⟩
  · intro k t p n ht hp _
    rcases hlook ht hp with ⟨t', ht', hp'⟩ | ⟨-, -, rfl⟩
    · exact hA n (hin.mapped ht' hp' not_false)
    · exact hnew

/-- **A new record may enter**, for mapped pages that nobody holds. -/
theorem insert (hin : InStep Nowhere V A) (honly : ∀ p n, r.Holds p n → p = .body)
    (hapart : ∀ k s p n, V k = some s → s.Holds p n → ¬ r.Covers n)
    (hbacked : ∀ n, r.Covers n → (A n).isSome) :
    InStep Nowhere (Function.update V h (some r)) A := by
  have hlook : ∀ {k t}, Function.update V h (some r) k = some t →
      (k = h ∧ t = r) ∨ V k = some t := by
    intro k t ht
    by_cases hk : k = h
    · subst hk
      rw [Function.update_self] at ht
      exact Or.inl ⟨rfl, (Option.some.inj ht).symm⟩
    · rw [Function.update_of_ne hk] at ht
      exact Or.inr ht
  constructor
  · intro j k t u p q n ht hu hp hq
    rcases hlook ht with ⟨hj, rfl⟩ | hold
    · obtain rfl := honly p n hp
      rcases hlook hu with ⟨hk, rfl⟩ | hold
      · exact ⟨hj.trans hk.symm, (honly q n hq).symm⟩
      · exact absurd hp (hapart k u q n hold hq)
    · rcases hlook hu with ⟨hk, rfl⟩ | hold'
      · obtain rfl := honly q n hq
        exact absurd hq (hapart j t p n hold hp)
      · exact hin.sole hold hold' hp hq
  · intro k t p n ht hp _
    rcases hlook ht with ⟨rfl, rfl⟩ | ht
    · obtain rfl := honly p n hp
      exact hbacked n hp
    · exact hin.mapped ht hp not_false

/-- **A record may leave all of its pages**, which are exempt because they
went away, for mapped ones that nobody else holds. -/
theorem rehouse (hin : InStep r.Covers V A) (hr : V h = some r)
    (honly : ∀ p n, s.Holds p n → p = .body)
    (hapart : ∀ k t p n, k ≠ h → V k = some t → t.Holds p n → ¬ s.Covers n)
    (hbacked : ∀ n, s.Covers n → (A n).isSome) :
    InStep Nowhere (Function.update V h (some s)) A := by
  have hlook : ∀ {k t}, Function.update V h none k = some t → k ≠ h ∧ V k = some t := by
    intro k t ht
    by_cases hk : k = h
    · subst hk
      rw [Function.update_self] at ht
      cases ht
    · rw [Function.update_of_ne hk] at ht
      exact ⟨hk, ht⟩
  -- on its way the record has left its old pages and has no new ones yet
  have hout := hin.replace hr (o := none) (fun t ht => nomatch ht) fun _ _ _ => rfl
  have hleft : InStep Nowhere (Function.update V h none) A := by
    refine hout.close fun k t p n ht hp hn => ?_
    obtain ⟨hk, ht⟩ := hlook ht
    exact hk (hin.sole (q := .body) ht hr hp hn).1
  have hentered := hleft.insert (h := h) honly (fun k t p n ht hp => ?_) hbacked
  · rw [Function.update_idem] at hentered
    exact hentered
  · obtain ⟨hk, ht⟩ := hlook ht
    exact hapart k t p n hk ht hp

end InStep

end PageWarden
