import PageWarden.Proofs.Account
import PageWarden.Proofs.Disjoint
import PageWarden.Proofs.Flank
import PageWarden.Proofs.Guard.Page
/-!
# Shards — what is left of a record that is released piece by piece

A record that loses one range after another falls into shards, whose
number, edges and guards depend on the ranges and on their order. What can
be said of all of these states at once is said here, relative to the state
in which the first range is released (`Shards`): the other records are
what they were, a shard owns nothing that the record did not own, no page
changed that was not the record's, and those of its pages that are still
mapped are held.

Lifting and placing guards, forgetting them and going over into parts
each keep this, as long as a guard is placed on a page that was the
record's; so a cut does, whichever of the four it is, and a carve, and
all of what follows up a release.
-/

namespace PageWarden

variable {start stop n : Nat} {m m' : Machine}

namespace Record

variable {r s t : Record}

/-- Page `n` is held by the record, in some way. -/
def Owns (r : Record) (n : Nat) : Prop := ∃ p, r.Holds p n

/-- **`s` is a shard of `r`**: its own pages are among those of `r`, and it
holds nothing that `r` did not hold in some way. -/
structure ShardOf (s r : Record) : Prop where
  shaped : s.Shaped
  flanked : s.Flanked
  covers : ∀ {n}, s.Covers n → r.Covers n
  owns : ∀ {n}, s.Owns n → r.Owns n

namespace ShardOf

/-- A shard with other guards is a shard, if they flank it and lie on pages
that were the record's. -/
theorem reguard (hs : s.ShardOf r) (hbare : t.bare = s.bare) (hflanked : t.Flanked)
    (hbelow : ∀ {n}, t.guardBelow = some (n * pageSize) → r.Owns n)
    (habove : ∀ {n}, t.guardAbove = some (n * pageSize) → r.Owns n) : t.ShardOf r := by
  have hcovers : ∀ n, t.Covers n ↔ s.Covers n := covers_congr hbare
  refine ⟨shaped_congr hs.shaped hbare, hflanked, fun hn => hs.covers ((hcovers _).1 hn), ?_⟩
  rintro n ⟨p, hp⟩
  cases p with
  | body => exact hs.owns ⟨.body, (hcovers n).1 hp⟩
  | below => exact hbelow hp
  | above => exact habove hp

/-- It may forget guards. -/
theorem forgetWithin (hs : s.ShardOf r) (start stop : Nat) :
    (s.forgetWithin start stop).ShardOf r := by
  have hold : ∀ {p n}, (s.forgetWithin start stop).Holds p n → r.Owns n :=
    fun hp => hs.owns ⟨_, holds_of_forgetWithin hp⟩
  exact hs.reguard rfl (hs.flanked.forgetWithin _ _) (fun hg => hold (p := .below) hg)
    fun hg => hold (p := .above) hg

/-- It may lose the guard below. -/
theorem withoutBelow (hs : s.ShardOf r) : ({ s with guardBelow := none } : Record).ShardOf r :=
  hs.reguard rfl ⟨fun hg => (nomatch hg), hs.flanked.above⟩ (fun hg => nomatch hg)
    fun hg => hs.owns ⟨.above, hg⟩

/-- It may lose the guard above. -/
theorem withoutAbove (hs : s.ShardOf r) : ({ s with guardAbove := none } : Record).ShardOf r :=
  hs.reguard rfl ⟨hs.flanked.below, fun hg => nomatch hg⟩ (fun hg => hs.owns ⟨.below, hg⟩)
    fun hg => nomatch hg

/-- It may be guarded below, if the page below was the record's. -/
theorem placeBelow (hs : s.ShardOf r) (hedge : ∀ n, n * pageSize + pageSize = s.base → r.Owns n)
    (m : Machine) : (Guard.placeBelow m s).1.ShardOf r := by
  have hflanked := Guard.flanked_placeBelow hs.flanked hs.shaped m
  obtain ⟨hbase, habove⟩ : (Guard.placeBelow m s).1.base = s.base ∧
      (Guard.placeBelow m s).1.guardAbove = s.guardAbove := by
    unfold Guard.placeBelow
    split <;> exact ⟨rfl, rfl⟩
  refine hs.reguard (Guard.bare_placeBelow m s) hflanked (fun {n} hg => ?_) fun {n} hg => ?_
  · exact hedge n ((hflanked.below hg).trans hbase)
  · exact hs.owns ⟨.above, habove.symm.trans hg⟩

/-- And above, if the page above was. -/
theorem placeAbove (hs : s.ShardOf r) (hedge : ∀ n, n * pageSize = s.stop pageSize → r.Owns n)
    (m : Machine) : (Guard.placeAbove m s).1.ShardOf r := by
  have hflanked := Guard.flanked_placeAbove hs.flanked m
  obtain ⟨hstop, hbelow⟩ : (Guard.placeAbove m s).1.stop pageSize = s.stop pageSize ∧
      (Guard.placeAbove m s).1.guardBelow = s.guardBelow := by
    unfold Guard.placeAbove
    split <;> exact ⟨rfl, rfl⟩
  refine hs.reguard (Guard.bare_placeAbove m s) hflanked (fun {n} hg => ?_) fun {n} hg => ?_
  · exact hs.owns ⟨.below, hbelow.symm.trans hg⟩
  · exact hedge n ((hflanked.above hg).trans hstop)

/-- Its parts are shards. -/
theorem partOf (hs : s.ShardOf r) (hstart : Aligned start) (hstop : Aligned stop)
    (hmeets : s.Meets start stop) (ht : s.PartOf start stop t) : t.ShardOf r := by
  refine ⟨ht.shaped hs.shaped hstop, hs.flanked.partOf hs.shaped hstop ht, fun hn => ?_, ?_⟩
  · exact hs.covers ((covers_parts hs.shaped hstart hstop hmeets _).1 ⟨t, ht, hn⟩).1
  · rintro n ⟨p, hp⟩
    exact hs.owns ⟨p, ht.holds hs.shaped hstart hstop hmeets hp⟩

end ShardOf

/-- A record is its own first shard. -/
theorem shardOf_self (hshaped : r.Shaped) (hflanked : r.Flanked) : r.ShardOf r :=
  ⟨hshaped, hflanked, id, id⟩

/-- A record that meets a range of pages covers a page of it. -/
theorem exists_covers_of_meets (hs : s.Shaped) (hstart : Aligned start)
    (hlt : start < stop) (hm : s.Meets start stop) : ∃ n, s.Covers n ∧ PageIn start stop n := by
  obtain ⟨hlow, hhigh⟩ := hm
  have hfirst := Store.covers_first hs
  rcases Nat.le_total s.base start with hle | hle
  · have hpage := pageOf_mul_pageSize hstart
    exact ⟨pageOf start, ⟨by omega, by omega⟩, ⟨by omega, by omega⟩⟩
  · have hpage := pageOf_mul_pageSize hs.1
    exact ⟨pageOf s.base, hfirst, ⟨by omega, by omega⟩⟩

/-- A record whose guards lie on its flanks forgets none of them for a range
in which it holds nothing. -/
theorem forgetWithin_of_apart (hs : s.Shaped) (hf : s.Flanked)
    (hout : ∀ n, PageIn start stop n → ¬ s.Owns n) : s.forgetWithin start stop = s := by
  have hguard : ∀ g, s.guardBelow = some g ∨ s.guardAbove = some g → ¬ (start ≤ g ∧ g < stop) := by
    intro g hg hin
    have hpage := pageOf_mul_pageSize (hf.aligned hs.1 hg)
    refine hout (pageOf g) ⟨hpage.symm ▸ hin.1, hpage.symm ▸ hin.2⟩ ?_
    rcases hg with hg | hg
    · exact ⟨.below, hg.trans (congrArg some hpage.symm)⟩
    · exact ⟨.above, hg.trans (congrArg some hpage.symm)⟩
  refine Warden.forgetWithin_of_not_guarded (Bool.or_eq_false_iff.2 ⟨?_, ?_⟩)
  · cases hg : s.guardBelow with
    | none => rfl
    | some g => simpa [guardWithin] using hguard g (Or.inl hg)
  · cases hg : s.guardAbove with
    | none => rfl
    | some g => simpa [guardWithin] using hguard g (Or.inr hg)

end Record

/-! ## The invariant -/

variable {V₀ V V' : View} {m₀ : Machine} {h k j : Handle} {r s t : Record}

/-- **The record under `h` is whole**: its pages and guards are its own, and
guards lie on the flanks of their records. -/
structure View.Whole (V : View) (h : Handle) (r : Record) : Prop where
  found : V h = some r
  flanked : V.Flanked
  apart : ∀ {k s n}, k ≠ h → V k = some s → s.Owns n → ¬ r.Owns n

/-- **The records `V` and the machine `m` are what is left of `V₀` and `m₀`**
once some ranges of the record `r` under `h` were released, whichever and
in whatever order. -/
structure Shards (V₀ : View) (m₀ : Machine) (h : Handle) (r : Record) (V : View) (m : Machine) :
    Prop where
  /-- The other records are what they were. -/
  rest : ∀ {k s}, k ≠ h → V₀ k = some s → V k = some s
  /-- Every record is one of those, or a shard. -/
  origin : ∀ {k s}, V k = some s → (k ≠ h ∧ V₀ k = some s) ∨ s.ShardOf r
  /-- No page changed that was not the record's. -/
  frame : ∀ {n}, ¬ r.Owns n → m.pageAt n = m₀.pageAt n
  /-- Those of its pages that are still mapped are held. -/
  held : ∀ {n}, r.Owns n → (m.pageAt n).isSome → V.Held n
  unmaps : m.faults .unmap = []

namespace Shards

/-- Before the first release the record is its own shard. -/
theorem refl (hV : V₀.Whole h r) (hm : m₀.faults .unmap = []) : Shards V₀ m₀ h r V₀ m₀ where
  rest := fun _ hs => hs
  origin := by
    intro k s hs
    by_cases hk : k = h
    · subst hk
      obtain rfl : r = s := Option.some.inj (hV.found.symm.trans hs)
      obtain ⟨hshaped, hflanked⟩ := hV.flanked k r hs
      exact Or.inr (Record.shardOf_self hshaped hflanked)
    · exact Or.inl ⟨hk, hs⟩
  frame := fun _ => rfl
  held := fun ⟨p, hp⟩ _ => ⟨h, r, p, hV.found, hp⟩
  unmaps := hm

/-- A record that holds a page of the record's is a shard. -/
theorem shardOf_of_owns (hS : Shards V₀ m₀ h r V m) (hV : V₀.Whole h r) (hk : V k = some s)
    (hn : s.Owns n) (hr : r.Owns n) : s.ShardOf r :=
  (hS.origin hk).resolve_left fun ⟨hne, hs⟩ => hV.apart hne hs hn hr

/-- No shard is found where another record was. -/
theorem eq_or_free (hS : Shards V₀ m₀ h r V m) (hV : V₀.Whole h r) (hk : V k = some s)
    (hs : s.ShardOf r) : k = h ∨ V₀ k = none := by
  -- the other record stayed, and would share its first page with the one that is whole
  by_contra hother
  obtain ⟨hne, hsome⟩ := not_or.1 hother
  obtain ⟨t, ht⟩ := Option.ne_none_iff_exists'.1 hsome
  obtain rfl : t = s := Option.some.inj ((hS.rest hne ht).symm.trans hk)
  have hfirst : t.Covers (pageOf t.base) := Store.covers_first hs.shaped
  exact hV.apart hne ht ⟨.body, hfirst⟩ ⟨.body, hs.covers hfirst⟩

/-- **One step**: the other records stay, what is new is a shard, no page
changes but the record's, and what is held stays held or is unmapped. -/
theorem step (hS : Shards V₀ m₀ h r V m)
    (hrest : ∀ {i t}, i ≠ h → V₀ i = some t → V' i = some t)
    (hnew : ∀ {i t}, V' i = some t → V i = some t ∨ t.ShardOf r)
    (hkeep : ∀ {n}, V.Held n → V'.Held n ∨ m'.pageAt n = none)
    (hpage : ∀ n, m'.pageAt n = m.pageAt n ∨ r.Owns n ∧ (m'.pageAt n = none ∨ V'.Held n))
    (hcalls : m.Calls m') : Shards V₀ m₀ h r V' m' where
  rest := hrest
  origin := fun ht => (hnew ht).elim hS.origin Or.inr
  frame := fun hn => ((hpage _).resolve_right fun ⟨hr, _⟩ => hn hr).trans (hS.frame hn)
  held := by
    intro n hr hmapped
    have hgone : m'.pageAt n ≠ none := Option.isSome_iff_ne_none.1 hmapped
    rcases hpage n with hsame | ⟨-, hnone | hheld⟩
    · rw [hsame] at hmapped
      exact (hkeep (hS.held hr hmapped)).resolve_right hgone
    · exact absurd hnone hgone
    · exact hheld
  unmaps := hcalls.unscheduled hS.unmaps

/-- Calls that change no page are no matter. -/
theorem quiet (hS : Shards V₀ m₀ h r V m) (hpage : m'.pageAt = m.pageAt) (hcalls : m.Calls m') :
    Shards V₀ m₀ h r V m' :=
  hS.step hS.rest Or.inl Or.inl (fun n => Or.inl (congrFun hpage n)) hcalls

/-- Pages of the record may be unmapped. -/
theorem unmap (hS : Shards V₀ m₀ h r V m)
    (hpage : ∀ n, m'.pageAt n = m.pageAt n ∨ r.Owns n ∧ m'.pageAt n = none)
    (hcalls : m.Calls m') : Shards V₀ m₀ h r V m' :=
  hS.step hS.rest Or.inl Or.inl (fun n => (hpage n).imp_right fun hn => ⟨hn.1, Or.inl hn.2⟩) hcalls

/-- **A shard may be replaced by another one**, together with its pages. -/
theorem replace (hS : Shards V₀ m₀ h r V m) (hV : V₀.Whole h r) (hk : V k = some s)
    (hs : s.ShardOf r) (ht : t.ShardOf r)
    (hkeep : ∀ {n}, s.Owns n → t.Owns n ∨ m'.pageAt n = none)
    (hpage : ∀ n, m'.pageAt n = m.pageAt n ∨ r.Owns n ∧ (m'.pageAt n = none ∨ t.Owns n))
    (hcalls : m.Calls m') : Shards V₀ m₀ h r (Function.update V k (some t)) m' := by
  have hheld : ∀ {n}, t.Owns n → View.Held (Function.update V k (some t)) n :=
    fun ⟨p, hp⟩ => ⟨k, t, p, Function.update_self k _ V, hp⟩
  refine hS.step (fun {i u} hi hu => ?_) (fun {i u} hu => ?_) (fun {n} hn => ?_) (fun n => ?_) hcalls
  · -- the other records are not under `k`, where a shard is
    rw [Function.update_of_ne, hS.rest hi hu]
    rintro rfl
    rcases hS.eq_or_free hV hk hs with heq | hfree
    · exact hi heq
    · rw [hfree] at hu
      cases hu
  · rw [Function.update_apply] at hu
    split at hu
    · exact Or.inr (Option.some.inj hu ▸ ht)
    · exact Or.inl hu
  · obtain ⟨i, u, p, hu, hp⟩ := hn
    by_cases hi : i = k
    · subst hi
      obtain rfl : s = u := Option.some.inj (hk.symm.trans hu)
      exact (hkeep ⟨p, hp⟩).imp_left hheld
    · exact Or.inl ⟨i, u, p, (Function.update_of_ne hi _ V).trans hu, hp⟩
  · exact (hpage n).imp_right fun ⟨hr, hpage⟩ => ⟨hr, hpage.imp_right hheld⟩

/-! ## Guards -/

/-- A shard may forget guards whose pages are gone. -/
theorem forgetOne (hS : Shards V₀ m₀ h r V m) (hV : V₀.Whole h r) (hk : V k = some s)
    (hs : s.ShardOf r) (hhole : ∀ n, PageIn start stop n → m.pageAt n = none) :
    Shards V₀ m₀ h r (Function.update V k (some (s.forgetWithin start stop))) m := by
  refine hS.replace hV hk hs (hs.forgetWithin start stop) (fun {n} hn => ?_) (fun n => Or.inl rfl)
    .refl
  by_cases hin : PageIn start stop n
  · exact Or.inr (hhole n hin)
  · obtain ⟨p, hp⟩ := hn
    exact Or.inl ⟨p, Record.holds_forgetWithin hp hin⟩

/-- All shards may, and the other records have none there. -/
theorem forget (hS : Shards V₀ m₀ h r V m) (hV : V₀.Whole h r)
    (hrange : ∀ n, PageIn start stop n → r.Owns n)
    (hhole : ∀ n, PageIn start stop n → m.pageAt n = none)
    (hforget : ∀ k, V' k = (V k).map fun s => s.forgetWithin start stop) :
    Shards V₀ m₀ h r V' m := by
  have hsame : ∀ {i t}, i ≠ h → V₀ i = some t → t.forgetWithin start stop = t := by
    intro i t hi ht
    obtain ⟨hshaped, hflanked⟩ := hV.flanked i t ht
    exact Record.forgetWithin_of_apart hshaped hflanked fun n hn hown =>
      hV.apart hi ht hown (hrange n hn)
  refine hS.step (fun {i t} hi ht => ?_) (fun {i t} ht => ?_) (fun {n} hn => ?_)
    (fun n => Or.inl rfl) .refl
  · rw [hforget, hS.rest hi ht, Option.map_some, hsame hi ht]
  · -- what another record forgets is nothing, and what a shard forgets leaves a shard
    rw [hforget] at ht
    obtain ⟨s, hs, rfl⟩ := Option.map_eq_some_iff.1 ht
    rcases hS.origin hs with ⟨hi, hold⟩ | hshard
    · exact Or.inl (hs.trans (congrArg some (hsame hi hold).symm))
    · exact Or.inr (hshard.forgetWithin start stop)
  · obtain ⟨i, t, p, ht, hp⟩ := hn
    by_cases hin : PageIn start stop n
    · exact Or.inr (hhole n hin)
    · refine Or.inl ⟨i, t.forgetWithin start stop, p, ?_, Record.holds_forgetWithin hp hin⟩
      rw [hforget, ht, Option.map_some]

/-- The guard below a shard may be lifted. -/
theorem liftBelow (hS : Shards V₀ m₀ h r V m) (hV : V₀.Whole h r) (hk : V k = some s)
    (hs : s.ShardOf r) :
    Shards V₀ m₀ h r (Function.update V k (some { s with guardBelow := none }))
      (Guard.removeBelow m s).2 := by
  have hpage : ∀ n, (Guard.removeBelow m s).2.pageAt n =
      if s.guardBelow = some (n * pageSize) then none else m.pageAt n :=
    Guard.pageAt_removeBelow (Machine.passes_of_unscheduled hS.unmaps 1)
  refine hS.replace hV hk hs hs.withoutBelow (fun {n} hn => ?_) (fun n => ?_)
    (Guard.upkeep_removeBelow m s).calls
  · obtain ⟨p, hp⟩ := hn
    cases p with
    | body => exact Or.inl ⟨.body, hp⟩
    | below => exact Or.inr ((hpage n).trans (if_pos hp))
    | above => exact Or.inl ⟨.above, hp⟩
  · rw [hpage]
    split
    · rename_i hguard
      exact Or.inr ⟨hs.owns ⟨.below, hguard⟩, Or.inl rfl⟩
    · exact Or.inl rfl

/-- So may the guard above. -/
theorem liftAbove (hS : Shards V₀ m₀ h r V m) (hV : V₀.Whole h r) (hk : V k = some s)
    (hs : s.ShardOf r) :
    Shards V₀ m₀ h r (Function.update V k (some { s with guardAbove := none }))
      (Guard.removeAbove m s).2 := by
  have hpage : ∀ n, (Guard.removeAbove m s).2.pageAt n =
      if s.guardAbove = some (n * pageSize) then none else m.pageAt n :=
    Guard.pageAt_removeAbove (Machine.passes_of_unscheduled hS.unmaps 1)
  refine hS.replace hV hk hs hs.withoutAbove (fun {n} hn => ?_) (fun n => ?_)
    (Guard.upkeep_removeAbove m s).calls
  · obtain ⟨p, hp⟩ := hn
    cases p with
    | body => exact Or.inl ⟨.body, hp⟩
    | below => exact Or.inl ⟨.below, hp⟩
    | above => exact Or.inr ((hpage n).trans (if_pos hp))
  · rw [hpage]
    split
    · rename_i hguard
      exact Or.inr ⟨hs.owns ⟨.above, hguard⟩, Or.inl rfl⟩
    · exact Or.inl rfl

/-- So may both. -/
theorem liftAll (hS : Shards V₀ m₀ h r V m) (hV : V₀.Whole h r) (hk : V k = some s)
    (hs : s.ShardOf r) :
    Shards V₀ m₀ h r (Function.update V k (some s.bare)) (Guard.removeAll m s).2 := by
  have hboth := (hS.liftBelow hV hk hs).liftAbove hV (Function.update_self k _ V) hs.withoutBelow
  rw [Function.update_idem] at hboth
  simp only [Guard.removeAll, Guard.removeBelow_fst]
  exact hboth

/-- The page below a shard may be guarded, if it was the record's. -/
theorem placeBelow (hS : Shards V₀ m₀ h r V m) (hV : V₀.Whole h r) (hk : V k = some s)
    (hs : s.ShardOf r) (hedge : ∀ n, n * pageSize + pageSize = s.base → r.Owns n) :
    Shards V₀ m₀ h r (Function.update V k (some (Guard.placeBelow m s).1))
      (Guard.placeBelow m s).2 := by
  have hplaced := hs.placeBelow hedge m
  refine hS.replace hV hk hs hplaced (fun {n} ⟨p, hp⟩ => ?_) (fun n => ?_)
    (Guard.upkeep_placeBelow m s).calls
  · exact Or.inl ⟨p, Guard.holds_placeBelow m hp⟩
  · by_cases hguard : (Guard.placeBelow m s).1.guardBelow = some (n * pageSize)
    · exact Or.inr ⟨hplaced.owns ⟨.below, hguard⟩, Or.inr ⟨.below, hguard⟩⟩
    · exact Or.inl (Guard.pageAt_placeBelow hS.unmaps hguard)

/-- So may the page above. -/
theorem placeAbove (hS : Shards V₀ m₀ h r V m) (hV : V₀.Whole h r) (hk : V k = some s)
    (hs : s.ShardOf r) (hedge : ∀ n, n * pageSize = s.stop pageSize → r.Owns n) :
    Shards V₀ m₀ h r (Function.update V k (some (Guard.placeAbove m s).1))
      (Guard.placeAbove m s).2 := by
  have hplaced := hs.placeAbove hedge m
  refine hS.replace hV hk hs hplaced (fun {n} ⟨p, hp⟩ => ?_) (fun n => ?_)
    (Guard.upkeep_placeAbove m s).calls
  · exact Or.inl ⟨p, Guard.holds_placeAbove m hp⟩
  · by_cases hguard : (Guard.placeAbove m s).1.guardAbove = some (n * pageSize)
    · exact Or.inr ⟨hplaced.owns ⟨.above, hguard⟩, Or.inr ⟨.above, hguard⟩⟩
    · exact Or.inl (Guard.pageAt_placeAbove hS.unmaps hguard)

/-- Whether or not it is asked for. -/
theorem placeBelowIf (hS : Shards V₀ m₀ h r (Function.update V k (some s)) m)
    (hV : V₀.Whole h r) (hs : s.ShardOf r)
    (hedge : ∀ n, n * pageSize + pageSize = s.base → r.Owns n) (guarded : Bool) :
    Shards V₀ m₀ h r
      (Function.update V k (some (if guarded then Guard.placeBelow m s else (s, m)).1))
      (if guarded then Guard.placeBelow m s else (s, m)).2 := by
  split
  · have hplaced := hS.placeBelow hV (Function.update_self k _ V) hs hedge
    rwa [Function.update_idem] at hplaced
  · exact hS

/-- So above. -/
theorem placeAboveIf (hS : Shards V₀ m₀ h r (Function.update V k (some s)) m)
    (hV : V₀.Whole h r) (hs : s.ShardOf r)
    (hedge : ∀ n, n * pageSize = s.stop pageSize → r.Owns n) (guarded : Bool) :
    Shards V₀ m₀ h r
      (Function.update V k (some (if guarded then Guard.placeAbove m s else (s, m)).1))
      (if guarded then Guard.placeAbove m s else (s, m)).2 := by
  split
  · have hplaced := hS.placeAbove hV (Function.update_self k _ V) hs hedge
    rwa [Function.update_idem] at hplaced
  · exact hS

/-! ## Parts -/

/-- **A shard may go over into its parts**, once the range is unmapped and
the guards that no part keeps are gone. -/
theorem part (hS : Shards V₀ m₀ h r V m) (hV : V₀.Whole h r) (hstart : Aligned start)
    (hstop : Aligned stop) (hk : V k = some s) (hs : s.ShardOf r) (hj : V j = none)
    (hmeets : s.Meets start stop) (hhole : ∀ n, PageIn start stop n → m.pageAt n = none)
    (hbelow : start ≤ s.base → s.guardBelow = none)
    (habove : s.stop pageSize ≤ stop → s.guardAbove = none) :
    Shards V₀ m₀ h r
      (Function.update (Function.update V k (s.kept start stop)) j (s.splitOff start stop)) m := by
  have hshard : ∀ {t}, s.PartOf start stop t → t.ShardOf r :=
    fun ht => hs.partOf hstart hstop hmeets ht
  refine hS.step (fun {i t} hi ht => ?_) (fun {i t} ht => ?_) (fun {n} hn => ?_)
    (fun n => Or.inl rfl) .refl
  · refine View.part_of_ne (hS.rest hi ht) ?_ hj
    rintro rfl
    rcases hS.eq_or_free hV hk hs with heq | hfree
    · exact hi heq
    · rw [hfree] at ht
      cases ht
  · rw [Function.update_apply, Function.update_apply] at ht
    split at ht
    · exact Or.inr (hshard (Record.partOf_iff.2 (Or.inr ht)))
    · split at ht
      · exact Or.inr (hshard (Record.partOf_iff.2 (Or.inl ht)))
      · exact Or.inl ht
  · obtain ⟨i, t, p, ht, hp⟩ := hn
    by_cases hi : i = k
    · subst hi
      obtain rfl : s = t := Option.some.inj (hk.symm.trans ht)
      by_cases hin : PageIn start stop n
      · exact Or.inr (hhole n hin)
      · -- outside of the range a part holds the page now
        obtain ⟨u, hpart, hu⟩ :=
          Record.exists_partOf_holds hs.shaped hstart hstop hmeets hbelow habove hp hin
        obtain ⟨i', -, hi'⟩ := View.exists_part hk hj hpart
        exact Or.inl ⟨i', u, p, hi', hu⟩
    · exact Or.inl ⟨i, t, p, View.part_of_ne ht hi hj, hp⟩

end Shards

/-! ## Cuts -/

namespace Warden

variable {w : Warden} {f q : Record}

section Cut

variable (hV : V₀.Whole h r) (hstart : Aligned start) (hstop : Aligned stop)
variable (hk : w.store.get? k = some f) (hq : q.ShardOf r) (hmeets : q.Meets start stop)

include hV hstart hstop hk hq hmeets

/-- A shard goes over into its parts, the split-off one under the next
handle. -/
theorem shards_part (hS : Shards V₀ m₀ h r (Function.update w.store.get? k (some q)) m)
    (hhole : ∀ n, PageIn start stop n → m.pageAt n = none)
    (hbelow : start ≤ q.base → q.guardBelow = none)
    (habove : q.stop pageSize ≤ stop → q.guardAbove = none) :
    Shards V₀ m₀ h r
      (Function.update (Function.update w.store.get? k (q.kept start stop)) w.store.nextHandle
        (q.splitOff start stop)) m := by
  have hfree : Function.update w.store.get? k (some q) w.store.nextHandle = none := by
    rw [Function.update_of_ne (Store.ne_nextHandle hk).symm, Store.get?_nextHandle]
  have hparts := hS.part hV hstart hstop (Function.update_self k _ _) hq hfree hmeets hhole hbelow
    habove
  rwa [Function.update_idem] at hparts

variable (hS : Shards V₀ m₀ h r (Function.update w.store.get? k (some q)) w.machine)
variable (hhole : ∀ n, PageIn start stop n → w.machine.pageAt n = none)

include hS hhole

/-- A shard may be dropped. -/
theorem shards_dropRecord (hbase : start ≤ q.base) (hend : q.stop pageSize ≤ stop) :
    Shards V₀ m₀ h r (w.dropRecord k q).store.get? (w.dropRecord k q).machine := by
  -- both guards are lifted, and of a record in the range no part is left
  have hlifted := hS.liftAll hV (Function.update_self k _ _) hq
  rw [Function.update_idem] at hlifted
  have hbare : q.bare.ShardOf r := hq.withoutBelow.withoutAbove
  have hpasses := Machine.passes_of_unscheduled hS.unmaps q.guards.length
  have hgone := shards_part hV hstart hstop hk hbare hmeets hlifted
    (fun n hn => by rw [Guard.removeAll_snd, Guard.pageAt_foldl_lift hpasses, hhole n hn, ite_self])
    (fun _ => rfl) fun _ => rfl
  rw [Record.kept_eq_none (r := q.bare) hbase hend,
    Record.splitOff_eq_none (r := q.bare) (Or.inl hbase), Store.update_nextHandle hk,
    ← get?_dropRecord hk q] at hgone
  obtain ⟨t, ht⟩ := Store.exists_remove_of_get? hk
  -- what remains is to give back the key, and to tell
  refine hgone.quiet ?_ ?_
  · simp only [dropRecord, ht]
    exact pageAt_releaseKey _ _
  · simp only [dropRecord, ht]
    exact (upkeep_releaseKey (w := { w with store := t, machine := _ }) _).calls.tell _

/-- Its head may be cut off. -/
theorem shards_trimHead (hbase : start ≤ q.base) (hend : stop < q.stop pageSize)
    (hedge : ∀ n, n * pageSize + pageSize = stop → r.Owns n) (guarded : Bool) :
    Shards V₀ m₀ h r (w.trimHead k q stop guarded).store.get?
      (w.trimHead k q stop guarded).machine := by
  have hlifted := hS.liftBelow hV (Function.update_self k _ _) hq
  rw [Function.update_idem] at hlifted
  have hpasses := Machine.passes_of_unscheduled hS.unmaps 1
  have hparts := shards_part hV hstart hstop hk hq.withoutBelow hmeets hlifted
    (fun n hn => by rw [Guard.pageAt_removeBelow hpasses, hhole n hn, ite_self])
    (fun _ => rfl) fun hle => absurd hle (Nat.not_le_of_lt hend)
  rw [Record.kept_of_le (r := { q with guardBelow := none }) hbase hend,
    Record.splitOff_eq_none (r := { q with guardBelow := none }) (Or.inl hbase),
    Store.update_nextHandle hk] at hparts
  have hupper : (q.upper stop).ShardOf r := hq.partOf hstart hstop hmeets (Or.inr ⟨hend, rfl⟩)
  have hguarded := hparts.placeBelowIf hV hupper hedge guarded
  rw [trimHead_eq]
  simp only [store_tell, Store.get?_modify_eq_update hk]
  exact hguarded.quiet rfl (.tell .refl _)

/-- So may its tail. -/
theorem shards_trimTail (hbase : q.base < start) (hend : q.stop pageSize ≤ stop)
    (hedge : ∀ n, n * pageSize = start → r.Owns n) (guarded : Bool) :
    Shards V₀ m₀ h r (w.trimTail k q start guarded).store.get?
      (w.trimTail k q start guarded).machine := by
  have hlifted := hS.liftAbove hV (Function.update_self k _ _) hq
  rw [Function.update_idem] at hlifted
  have hpasses := Machine.passes_of_unscheduled hS.unmaps 1
  have hparts := shards_part hV hstart hstop hk hq.withoutAbove hmeets hlifted
    (fun n hn => by rw [Guard.pageAt_removeAbove hpasses, hhole n hn, ite_self])
    (fun hle => absurd hle (Nat.not_le_of_lt hbase)) fun _ => rfl
  rw [Record.kept_of_lt (r := { q with guardAbove := none }) hbase,
    Record.splitOff_eq_none (r := { q with guardAbove := none }) (Or.inr hend),
    Store.update_nextHandle hk] at hparts
  have hlower : (q.lower start).ShardOf r := hq.partOf hstart hstop hmeets (Or.inl ⟨hbase, rfl⟩)
  have hnew : (q.lower start).stop pageSize = start := Record.stop_lower hq.shaped hstart hbase
  have hguarded := hparts.placeAboveIf (s := q.lower start) hV hlower
    (fun n hn => hedge n (hn.trans hnew)) guarded
  rw [trimTail_eq]
  simp only [store_tell, Store.get?_modify_eq_update hk]
  exact hguarded.quiet rfl (.tell .refl _)

/-- It may be split, and the edges of the hole guarded. -/
theorem shards_splitRecord (hbase : q.base < start) (hend : stop < q.stop pageSize)
    (hfirst : ∀ n, n * pageSize = start → r.Owns n)
    (hlast : ∀ n, n * pageSize + pageSize = stop → r.Owns n) (guarded : Bool) :
    Shards V₀ m₀ h r (w.splitRecord k q start stop guarded).store.get?
      (w.splitRecord k q start stop guarded).machine := by
  have hparts := shards_part hV hstart hstop hk hq hmeets hS hhole
    (fun hle => absurd hle (Nat.not_le_of_lt hbase)) fun hle => absurd hle (Nat.not_le_of_lt hend)
  have hne := Store.ne_nextHandle hk
  rw [Record.kept_of_lt hbase, Record.splitOff_of_lt hbase hend,
    Function.update_comm hne] at hparts
  have hlower : (q.lower start).ShardOf r := hq.partOf hstart hstop hmeets (Or.inl ⟨hbase, rfl⟩)
  have hupper : (q.upper stop).ShardOf r := hq.partOf hstart hstop hmeets (Or.inr ⟨hend, rfl⟩)
  -- first the lower part under its old handle, then the upper part
  have hnew : (q.lower start).stop pageSize = start := Record.stop_lower hq.shaped hstart hbase
  have habove := hparts.placeAboveIf hV hlower (fun n hn => hfirst n (hn.trans hnew))
    (guarded && decide (2 * pageSize ≤ stop - start))
  rw [Function.update_comm hne.symm] at habove
  have hbelow := habove.placeBelowIf hV hupper hlast
    (guarded && decide (2 * pageSize ≤ stop - start))
  rw [splitRecord_eq]
  simp only [Store.get?_insert_eq_update, Store.nextHandle_modify, Store.get?_modify_eq_update hk]
  exact hbelow.quiet rfl (.tell .refl _)

end Cut

/-- **A cut of a shard leaves shards**, if its range was the record's and is
unmapped. -/
theorem shards_cut (hV : V₀.Whole h r) (hstart : Aligned start) (hstop : Aligned stop)
    (hlt : start < stop) (hrange : ∀ n, PageIn start stop n → r.Owns n)
    (hS : Shards V₀ m₀ h r w.store.get? w.machine)
    (hhole : ∀ n, PageIn start stop n → w.machine.pageAt n = none)
    (hk : w.store.get? k = some f) (hf : f.ShardOf r) (hmeets : f.Meets start stop)
    (guarded : Bool) :
    Shards V₀ m₀ h r (w.cut k start stop guarded).store.get?
      (w.cut k start stop guarded).machine := by
  have hforgot := hS.forgetOne hV hk hf hhole
  have hq := hf.forgetWithin start stop
  -- new guards go on the first or the last page of the hole, and both were the record's
  have hfirst : ∀ n, n * pageSize = start → r.Owns n := by
    intro n hn
    exact hrange n ⟨by omega, by omega⟩
  have hlast : ∀ n, n * pageSize + pageSize = stop → r.Owns n := by
    intro n hn
    have hpos := pageSize_pos
    have hle : start ≤ n * pageSize := by
      simp only [Aligned, pageSize] at *
      omega
    exact hrange n ⟨hle, by omega⟩
  unfold cut
  simp only [hk]
  by_cases hbase : start ≤ (f.forgetWithin start stop).base <;>
    by_cases hend : (f.forgetWithin start stop).stop pageSize ≤ stop <;>
    simp only [hbase, hend, if_true, if_false]
  · exact shards_dropRecord hV hstart hstop hk hq hmeets hforgot hhole hbase hend
  · exact shards_trimHead hV hstart hstop hk hq hmeets hforgot hhole hbase (Nat.lt_of_not_le hend)
      hlast guarded
  · exact shards_trimTail hV hstart hstop hk hq hmeets hforgot hhole (Nat.lt_of_not_le hbase) hend
      hfirst guarded
  · exact shards_splitRecord hV hstart hstop hk hq hmeets hforgot hhole (Nat.lt_of_not_le hbase)
      (Nat.lt_of_not_le hend) hfirst hlast guarded

/-- Of the records that meet the range each is a shard. -/
theorem shardOf_of_meets (hV : V₀.Whole h r) (hs : w.store.Shaped) (hstart : Aligned start)
    (hlt : start < stop) (hrange : ∀ n, PageIn start stop n → r.Owns n)
    (hS : Shards V₀ m₀ h r w.store.get? w.machine) (hk : w.store.get? k = some f)
    (hmeets : f.Meets start stop) : f.ShardOf r := by
  obtain ⟨n, hn, hin⟩ := Record.exists_covers_of_meets (hs k f hk) hstart hlt hmeets
  exact hS.shardOf_of_owns hV hk ⟨.body, hn⟩ (hrange n hin)

/-- **A carve leaves shards**, and its range unmapped. -/
theorem shards_carve (hV : V₀.Whole h r) (hs : w.store.Shaped) (hstart : Aligned start)
    (hstop : Aligned stop) (hlt : start < stop) (hrange : ∀ n, PageIn start stop n → r.Owns n)
    (hS : Shards V₀ m₀ h r w.store.get? w.machine)
    (hhole : ∀ n, PageIn start stop n → w.machine.pageAt n = none) (keep : Option Handle) :
    Shards V₀ m₀ h r (w.carve start stop keep).store.get? (w.carve start stop keep).machine ∧
      ∀ n, PageIn start stop n → (w.carve start stop keep).machine.pageAt n = none := by
  have hinv : (w.carve start stop keep).store.Shaped ∧
      Shards V₀ m₀ h r (w.carve start stop keep).store.get? (w.carve start stop keep).machine ∧
      ∀ n, PageIn start stop n → (w.carve start stop keep).machine.pageAt n = none := by
    refine carve_induction (motive := fun _ v => v.store.Shaped ∧
      Shards V₀ m₀ h r v.store.get? v.machine ∧
      ∀ n, PageIn start stop n → v.machine.pageAt n = none) ⟨?_, ?_, hhole⟩ ?_
    · rw [Store.shaped_iff, bare?_forgetGuards, ← Store.shaped_iff]
      exact hs
    · exact hS.forget hV hrange hhole (get?_forgetGuards w start stop)
    · intro v k f _ ⟨hshaped, hS, hhole⟩ hk hmeets _
      have htold : Shards V₀ m₀ h r v.store.get?
          (v.machine.tell (.changedBehind f.base f.length)) := hS.quiet rfl (.tell .refl _)
      have hf := shardOf_of_meets hV hshaped hstart hlt hrange hS hk hmeets
      refine ⟨shaped_cut (w := v.tell _) hshaped hstop k false,
        shards_cut (w := v.tell _) hV hstart hstop hlt hrange htold hhole hk hf hmeets false,
        fun n hn => ?_⟩
      -- a cut without guards changes no page of the range, since no guard that is left lies there
      have hsame := rightsAt_cut (w := v.tell (.changedBehind f.base f.length)) hk
        fun p hp hheld => absurd hn (Record.not_pageIn_of_holds_forgetWithin hheld hp)
      exact Machine.rightsAt_eq_none_iff.1 (hsame.trans (Machine.rightsAt_eq_none_iff.2 (hhole n hn)))
  exact hinv.2

/-- **What follows up a release leaves shards.** -/
theorem shards_vacate {a l : Nat} (hV : V₀.Whole h r) (hs : w.store.Shaped) (ha : Aligned a)
    (hlen : 0 < l) (hrange : ∀ n, PageIn a (a + roundUp l pageSize) n → r.Owns n)
    (hS : Shards V₀ m₀ h r w.store.get? w.machine)
    (hhole : ∀ n, PageIn a (a + roundUp l pageSize) n → w.machine.pageAt n = none) :
    Shards V₀ m₀ h r (w.vacate a l).store.get? (w.vacate a l).machine := by
  have hstop := ha.add_roundUp l
  have hlt : a < a + roundUp l pageSize := by
    have hround := le_roundUp l
    omega
  have hcarved := shards_carve hV hs ha hstop hlt hrange hS hhole
  rcases vacate_cases hs ha hlen with ⟨-, hv⟩ | ⟨k, f, -, -, hkept, hmeets, hv⟩
  · rw [hv]
    exact (hcarved none).1
  · obtain ⟨hS', hhole'⟩ := hcarved (some k)
    have hshaped : (w.carve a (a + roundUp l pageSize) (some k)).store.Shaped :=
      shaped_carve hs hstop (some k)
    rw [hv]
    exact shards_cut hV ha hstop hlt hrange hS' hhole' hkept
      (shardOf_of_meets hV hshaped ha hlt hrange hS' hkept hmeets) hmeets _

/-- **A release of pages of the record leaves shards**, or it fails and
changes nothing. -/
theorem shards_remove {a l : Nat} (hcache : w.config.useMappingCache = true)
    (hV : V₀.Whole h r) (hs : w.store.Shaped)
    (hrange : ∀ n, PageIn a (a + roundUp l pageSize) n → r.Owns n)
    (hS : Shards V₀ m₀ h r w.store.get? w.machine) :
    Shards V₀ m₀ h r (w.remove a l).2.store.get? (w.remove a l).2.machine := by
  have hcalls : w.machine.Calls (w.machine.unmap a l).2 := Machine.Calls.refl.unmap a l
  rw [remove_eq]
  rcases hunmap : w.machine.unmap a l with ⟨errno | ⟨⟩, m⟩
  · rw [hunmap] at hcalls
    exact hS.quiet (Machine.pageAt_of_space (Machine.space_of_unmap_error hunmap)) hcalls
  · rw [hunmap] at hcalls
    obtain ⟨ha, hlen⟩ := Machine.aligned_of_unmap hunmap
    have hpage := Machine.pageAt_unmap hunmap
    simp only [if_pos hcache]
    refine shards_vacate (w := { w with machine := m }) hV hs ha hlen hrange
      (hS.unmap (fun n => ?_) hcalls) fun n hn => (hpage n).trans (if_pos hn)
    rw [hpage]
    split
    · rename_i hn
      exact Or.inr ⟨hrange n hn, rfl⟩
    · exact Or.inl rfl

end Warden

end PageWarden
