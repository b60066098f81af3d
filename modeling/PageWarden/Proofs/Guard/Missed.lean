import PageWarden.Proofs.Guard.Reversal
import PageWarden.Proofs.Schedule
/-!
# Guards — those that a failing call misses

Two machines go through the same, except that on one of them some calls
for guard pages fail. An attempt that answers with a guard on the one and
meets an error on the other leaves a page that only the one has: the
guard is missed (`missed`). That is all in which the two differ
(`Machine.Misses`), and it stays all when both attempt another guard
(`Misses.place`), since the page asked for there is not one that was
missed before: it is free on both or on neither.

A record is asked at most twice, for two pages that are apart, and so are
the parts of a record that is split (`misses_ask_ask`).
-/

namespace PageWarden

/-- Of the guards that the attempts `ps` placed, those that are missed if the
attempts come to the entries of `l`, one each. -/
def missed (ps : List (Nat × Bool)) (l : List (Option Errno)) : List Nat :=
  (ps.zip l).filterMap fun (p, due) => if p.2 && due.isSome then some p.1 else none

/-- Attempts use up entries from the front. -/
theorem missed_append (ps qs : List (Nat × Bool)) (l : List (Option Errno)) :
    missed (ps ++ qs) l = missed ps l ++ missed qs (l.drop ps.length) := by
  induction ps generalizing l with
  | nil => rfl
  | cons p ps ih =>
    cases l with
    | nil => simp [missed]
    | cons due rest =>
      have htail := ih rest
      simp only [missed] at htail ⊢
      simp only [List.cons_append, List.zip_cons_cons, List.filterMap_cons, List.length_cons,
        List.drop_succ_cons, htail]
      split <;> rfl

/-- Neither mapping nor unmapping is scheduled to fail. -/
structure Machine.Smooth (m : Machine) : Prop where
  maps : m.faults .map = []
  unmaps : m.faults .unmap = []

/-- Calls keep it so. -/
theorem Machine.Smooth.calls {m m' : Machine} (hm : m.Smooth) (h : m.Calls m') : m'.Smooth :=
  ⟨h.unscheduled hm.maps, h.unscheduled hm.unmaps⟩

/-- **`m'` misses guards that `m` has**, and is like `m` in the rest: since
`told` was told, `m` made the attempts `ps` and no call for them failed,
while `m'` made the same attempts under the schedule `l`. -/
structure Machine.Misses (told ps : List (Nat × Bool)) (l : List (Option Errno))
    (m m' : Machine) : Prop where
  told : m.attempts = told ++ ps
  asked : m'.attempts.map Prod.fst = m.attempts.map Prod.fst
  platform : m'.platform = m.platform
  smooth : m.Smooth
  due : m'.faults .map = l.drop ps.length
  unmaps : m'.faults .unmap = []
  /-- Keys and everything else but the pages are the same, -/
  rest : m'.space.unpaged = m.space.unpaged
  /-- guards that are missed lie on inaccessible pages on the one, -/
  placed : ∀ g ∈ missed ps l, Aligned g ∧ m.rightsAt (pageOf g) = some .noAccess
  /-- which are absent on the other, and no other page differs. -/
  page : ∀ n, m'.pageAt n = if n * pageSize ∈ missed ps l then none else m.pageAt n

/-! ## An attempt -/

namespace Guard

variable {m m' : Machine} {g : Nat} {told ps : List (Nat × Bool)} {l : List (Option Errno)}

/-- An attempt is told. -/
theorem attempts_place (m : Machine) (g : Nat) :
    (place m g).2.attempts = m.attempts ++ [(g, (place m g).1.isSome)] := by
  have hcall := Machine.attempts_map m (request g)
  unfold place
  generalize m.map (request g) = mapped at hcall ⊢
  rcases mapped with ⟨errno | got, m'⟩
  · exact (Machine.attempts_tell _ _).trans (congrArg (· ++ [(g, false)]) hcall)
  · simp only
    split
    · rename_i hgot
      subst hgot
      exact (Machine.attempts_tell _ _).trans (congrArg (· ++ [(got, true)]) hcall)
    · refine (Machine.attempts_tell _ _).trans (congrArg (· ++ [(g, false)]) ?_)
      exact (Machine.attempts_unmap _ _ _).trans hcall

/-- A call that is due to fail places nothing. -/
theorem place_of_due {e : Errno} {rest : List (Option Errno)}
    (h : m.faults .map = some e :: rest) : (place m g).1 = none := by
  have herror : (m.map (request g)).1 = .error e := by
    simp only [Machine.map, Machine.perform, Faults.next, h]
  unfold place
  generalize m.map (request g) = mapped at herror ⊢
  rcases mapped with ⟨errno | got, m'⟩
  · rfl
  · cases herror

end Guard

namespace Machine.Misses

open Guard

variable {m m' : Machine} {g : Nat} {told ps : List (Nat × Bool)} {l : List (Option Errno)}

/-- Before the first attempt nothing is missed. -/
theorem start (hm : m.Smooth) (l : List (Option Errno)) :
    Misses m.attempts [] l m (m.withMaps l) where
  told := (List.append_nil _).symm
  asked := rfl
  platform := rfl
  smooth := hm
  due := rfl
  unmaps := hm.unmaps
  rest := rfl
  placed := fun _ hg => absurd hg List.not_mem_nil
  page := fun _ => rfl

/-- Where nothing is missed the spaces are the same. -/
theorem space_eq (h : Misses told ps l m m') (hnone : missed ps l = []) : m'.space = m.space := by
  refine Space.eq_of_unpaged h.rest fun n => ?_
  have hn := h.page n
  rw [hnone, if_neg List.not_mem_nil] at hn
  exact hn

variable (h : Misses told ps l m m') (hg : g ∉ missed ps l)
variable (hzero : missed ps l = [] ∨ g ≠ 0)

include h hg hzero

/-- **An attempt that passes answers the same on both.** -/
theorem place_fst_of_passes (hpass : m'.Passes .map 1) : (place m' g).1 = (place m g).1 := by
  have hpass₁ : m.Passes .map 1 := passes_of_unscheduled h.smooth.maps 1
  have hiff : (place m' g).1 = some g ↔ (place m g).1 = some g := by
    by_cases ha : Aligned g
    · -- a system that takes addresses for hints ignores zero, so what it then does
      -- depends on the whole space and not on the page alone
      rcases hzero with hnone | hne
      · rw [place_eq_some_iff_chosen hpass ha, place_eq_some_iff_chosen hpass₁ ha,
          h.space_eq hnone, Machine.seenFlags, Machine.seenFlags, h.platform]
      · rw [place_eq_some_iff hpass (Or.inr hne) ha, place_eq_some_iff hpass₁ (Or.inr hne) ha,
          h.page, pageOf_mul_pageSize ha, if_neg hg]
    · exact ⟨fun hs => absurd (of_place_eq_some hs).2.1 ha,
        fun hs => absurd (of_place_eq_some hs).2.1 ha⟩
  rcases place_fst m g with hm | hm <;> rcases place_fst m' g with hm' | hm'
  · rw [hm, hm']
  · rw [hiff.1 hm'] at hm
    cases hm
  · rw [hiff.2 hm] at hm'
    cases hm'
  · rw [hm, hm']

/-- **An attempt answers the same on both, or its guard is missed.** -/
theorem place_fst_cases :
    ((place m' g).1 = (place m g).1 ∧
        missed (ps ++ [(g, (place m g).1.isSome)]) l = missed ps l) ∨
      ((place m g).1 = some g ∧ (place m' g).1 = none ∧
        missed (ps ++ [(g, (place m g).1.isSome)]) l = missed ps l ++ [g]) := by
  rw [missed_append]
  rcases hdue : l.drop ps.length with - | ⟨- | e, rest⟩
  · -- the schedule is at its end
    have hpass : m'.Passes .map 1 := passes_of_unscheduled (h.due.trans hdue) 1
    exact Or.inl ⟨h.place_fst_of_passes hg hzero hpass, List.append_nil _⟩
  · have hpass : m'.Passes .map 1 := by
      intro due hmem
      rw [h.due, hdue] at hmem
      exact List.mem_singleton.1 hmem
    refine Or.inl ⟨h.place_fst_of_passes hg hzero hpass, ?_⟩
    simp [missed]
  · have hnone : (place m' g).1 = none := place_of_due (h.due.trans hdue)
    rcases place_fst m g with hm | hm
    · refine Or.inl ⟨hnone.trans hm.symm, ?_⟩
      simp [missed, hm]
    · refine Or.inr ⟨hm, hnone, ?_⟩
      simp [missed, hm]

/-- **After an attempt, missed guards are still all that differs.** -/
theorem place :
    Misses told (ps ++ [(g, (place m g).1.isSome)]) l (place m g).2 (place m' g).2 := by
  have hcases := h.place_fst_cases hg hzero
  have hm := pageAt_place_eq h.smooth.unmaps g
  have hm' := pageAt_place_eq h.unmaps g
  have hcalls := calls_place m g
  have hcalls' := calls_place m' g
  -- a guard that was missed before is not the one that is asked for now
  have hother : ∀ {n}, n * pageSize ∈ missed ps l → (Guard.place m' g).1 ≠ some (n * pageSize) := by
    intro n hn hsome
    rw [(of_place_eq_some hsome).1] at hn
    exact hg hn
  refine ⟨?_, ?_, ?_, h.smooth.calls hcalls, ?_, hcalls'.unscheduled h.unmaps, ?_, ?_, ?_⟩
  · rw [attempts_place, h.told, List.append_assoc]
  · rw [attempts_place, attempts_place, List.map_append, List.map_append, h.asked]
    rfl
  · rw [hcalls.platform, hcalls'.platform, h.platform]
  · rw [faults_place, h.due, List.tail_drop, List.length_append]
    rfl
  · rw [unpaged_place, unpaged_place, h.rest]
  · intro x hx
    rcases hcases with ⟨-, hsame⟩ | ⟨hsome, -, hnew⟩
    · rw [hsame] at hx
      exact ⟨(h.placed x hx).1, rightsAt_place (h.placed x hx).2⟩
    · rw [hnew, List.mem_append, List.mem_singleton] at hx
      rcases hx with hx | rfl
      · exact ⟨(h.placed x hx).1, rightsAt_place (h.placed x hx).2⟩
      · obtain ⟨ha, -, hrights⟩ := place_eq_some hsome
        exact ⟨ha, (hrights _).trans (if_pos (pageOf_mul_pageSize ha))⟩
  · intro n
    rw [hm', hm, h.page]
    rcases hcases with ⟨hsame, hmissed⟩ | ⟨hsome, hnone, hnew⟩
    · rw [hmissed, ← hsame]
      by_cases hn : n * pageSize ∈ missed ps l
      · rw [if_neg (hother hn), if_pos hn, if_pos hn]
      · rw [if_neg hn, if_neg hn]
    · obtain ⟨-, -, hfree⟩ := of_place_eq_some hsome
      rw [hnew, hnone, hsome, if_neg nofun]
      by_cases hn : n * pageSize ∈ missed ps l
      · rw [if_pos hn, if_pos (List.mem_append_left _ hn)]
      · rw [if_neg hn]
        by_cases hat : n * pageSize = g
        · rw [← hat, pageOf_start] at hfree
          rw [if_pos (List.mem_append_right _ (List.mem_singleton.2 hat)), hfree]
        · have hout : n * pageSize ∉ missed ps l ++ [g] := by
            rw [List.mem_append, List.mem_singleton, not_or]
            exact ⟨hn, hat⟩
          rw [if_neg hout, if_neg fun heq => hat (Option.some.inj heq).symm]

end Machine.Misses

/-! ## Two attempts -/

/-- Of two guard fields the one holds the guard and the other is empty. -/
def FieldLacks (g : Nat) (held held' : Option Nat) : Prop := held = some g ∧ held' = none

/-- The fields hold the same, or the one holds a guard that is missed and the
other is empty. -/
def FieldMisses (missed : List Nat) (held held' : Option Nat) : Prop :=
  held' = held ∨ ∃ g ∈ missed, FieldLacks g held held'

namespace Guard

/-- Attempts a guard if one is wanted; else what is held stays. -/
def ask (m : Machine) (wanted : Bool) (held : Option Nat) (g : Nat) : Option Nat × Machine :=
  if wanted then place m g else (held, m)

end Guard

namespace Machine.Misses

open Guard

variable {m m' : Machine} {told ps : List (Nat × Bool)} {l : List (Option Errno)}
variable {wanted wanted' : Bool} {g g' : Nat}

/-- **Whether a guard is wanted or not**, what is missed is all that differs. -/
theorem ask (h : Misses told ps l m m')
    (hg : wanted = true → g ∉ missed ps l ∧ (missed ps l = [] ∨ g ≠ 0)) (held : Option Nat) :
    ∃ qs, Misses told (ps ++ qs) l (ask m wanted held g).2 (ask m' wanted held g).2 ∧
      (((ask m' wanted held g).1 = (ask m wanted held g).1 ∧
          missed (ps ++ qs) l = missed ps l) ∨
        (wanted = true ∧ FieldLacks g (ask m wanted held g).1 (ask m' wanted held g).1 ∧
          missed (ps ++ qs) l = missed ps l ++ [g])) := by
  unfold Guard.ask
  cases wanted with
  | false => exact ⟨[], (List.append_nil ps).symm ▸ h, Or.inl ⟨rfl, by rw [List.append_nil]⟩⟩
  | true =>
    obtain ⟨hnew, hzero⟩ := hg rfl
    refine ⟨_, h.place hnew hzero, (h.place_fst_cases hnew hzero).imp id ?_⟩
    exact fun ⟨hsome, hnone, hmissed⟩ => ⟨rfl, ⟨hsome, hnone⟩, hmissed⟩

end Machine.Misses

/-- **Of two guards each may be missed**, where they are asked for on pages
that are apart, and no other field differs. -/
theorem Guard.misses_ask_ask {m : Machine} (hm : m.Smooth) {wanted wanted' : Bool} {g g' : Nat}
    (hapart : wanted = true → wanted' = true → g' ≠ g ∧ g' ≠ 0) (held held' : Option Nat)
    (l : List (Option Errno)) :
    let first := ask m wanted held g
    let first' := ask (m.withMaps l) wanted held g
    let second := ask first.2 wanted' held' g'
    let second' := ask first'.2 wanted' held' g'
    ∃ ps, Machine.Misses m.attempts ps l second.2 second'.2 ∧
      FieldMisses (missed ps l) first.1 first'.1 ∧ FieldMisses (missed ps l) second.1 second'.1 ∧
      ∀ x ∈ missed ps l, (wanted = true ∧ x = g ∧ FieldLacks x first.1 first'.1) ∨
        (wanted' = true ∧ x = g' ∧ FieldLacks x second.1 second'.1) := by
  intro first first' second second'
  have hnothing : wanted = true → g ∉ missed [] l ∧ (missed [] l = [] ∨ g ≠ 0) :=
    fun _ => ⟨List.not_mem_nil, Or.inl rfl⟩
  obtain ⟨ps, hfirst, hps⟩ := (Machine.Misses.start hm l).ask hnothing held
  rw [List.nil_append] at hfirst hps
  have hfield : ∀ x ∈ missed ps l, wanted = true ∧ x = g ∧ FieldLacks x first.1 first'.1 := by
    intro x hx
    rcases hps with ⟨-, hnone⟩ | ⟨hw, hlacks, hone⟩
    · rw [hnone] at hx
      exact absurd hx List.not_mem_nil
    · rw [hone] at hx
      obtain rfl := List.mem_singleton.1 hx
      exact ⟨hw, rfl, hlacks⟩
  have hnext : wanted' = true → g' ∉ missed ps l ∧ (missed ps l = [] ∨ g' ≠ 0) := by
    intro hw'
    refine ⟨fun hmem => ?_, ?_⟩
    · obtain ⟨hw, heq, -⟩ := hfield g' hmem
      exact (hapart hw hw').1 heq
    · rcases hps with ⟨-, hnone⟩ | ⟨hw, -, -⟩
      · exact Or.inl hnone
      · exact Or.inr (hapart hw hw').2
  obtain ⟨qs, hsecond, hqs⟩ := hfirst.ask hnext held'
  have hkept : ∀ x ∈ missed ps l, x ∈ missed (ps ++ qs) l := by
    intro x hx
    rw [missed_append]
    exact List.mem_append_left _ hx
  have hadded : ∀ x ∈ missed (ps ++ qs) l,
      x ∈ missed ps l ∨ (wanted' = true ∧ x = g' ∧ FieldLacks x second.1 second'.1) := by
    intro x hx
    rcases hqs with ⟨-, hsame⟩ | ⟨hw', hlacks, hnew⟩
    · exact Or.inl (hsame ▸ hx)
    · rw [hnew, List.mem_append, List.mem_singleton] at hx
      refine hx.imp id ?_
      rintro rfl
      exact ⟨hw', rfl, hlacks⟩
  refine ⟨ps ++ qs, hsecond, ?_, ?_, fun x hx => (hadded x hx).imp (hfield x) id⟩
  · rcases hps with ⟨hsame, -⟩ | ⟨-, hlacks, hone⟩
    · exact Or.inl hsame
    · exact Or.inr ⟨g, hkept g (hone ▸ List.mem_singleton_self g), hlacks⟩
  · rcases hqs with ⟨hsame, -⟩ | ⟨-, hlacks, hnew⟩
    · exact Or.inl hsame
    · exact Or.inr ⟨g', hnew ▸ List.mem_append_right _ (List.mem_singleton_self g'), hlacks⟩

/-! ## Records -/

/-- The records are the same but for missed guards. -/
structure Record.Misses (missed : List Nat) (r r' : Record) : Prop where
  bare : r'.bare = r.bare
  below : FieldMisses missed r.guardBelow r'.guardBelow
  above : FieldMisses missed r.guardAbove r'.guardAbove

/-- A record is like itself. -/
protected theorem Record.Misses.refl (missed : List Nat) (r : Record) : r.Misses missed r :=
  ⟨rfl, Or.inl rfl, Or.inl rfl⟩

/-- The one record has the guard, and the other nothing in its place. -/
def Record.Lacks (g : Nat) (r r' : Record) : Prop :=
  FieldLacks g r.guardBelow r'.guardBelow ∨ FieldLacks g r.guardAbove r'.guardAbove

/-- A guard below is wanted where there is none and there is a page for it. -/
def Record.wantsBelow (r : Record) (below : Bool) : Bool :=
  below && !(r.guardBelow.isSome || decide (r.base < pageSize))

/-- A guard above is wanted where there is none. -/
def Record.wantsAbove (r : Record) (above : Bool) : Bool := above && !r.guardAbove.isSome

/-- A guard that is wanted below lies below the record, at most a page away. -/
theorem Record.pageFloor_of_wantsBelow {r : Record} {below : Bool}
    (h : r.wantsBelow below = true) :
    pageFloor (r.base - 1) pageSize < r.base ∧
      r.base ≤ pageFloor (r.base - 1) pageSize + pageSize := by
  simp only [wantsBelow, Bool.and_eq_true, Bool.not_eq_true', Bool.or_eq_false_iff,
    decide_eq_false_iff_not] at h
  have hbase := h.2.2
  simp only [pageFloor, pageSize] at hbase ⊢
  omega

namespace Guard

variable {m : Machine} (hm : m.Smooth)

/-- Guards a record on the sides that are named, below first. -/
def placeSides (m : Machine) (r : Record) (below above : Bool) : Record × Machine :=
  let lower := if below then placeBelow m r else (r, m)
  if above then placeAbove lower.2 lower.1 else lower

/-- Guarding below is to ask for the page below. -/
theorem placeBelow_eq_ask (m : Machine) (r : Record) (below : Bool) :
    (if below then placeBelow m r else (r, m)) =
      let asked := ask m (r.wantsBelow below) r.guardBelow (pageFloor (r.base - 1) pageSize)
      ({ r with guardBelow := asked.1 }, asked.2) := by
  unfold placeBelow ask Record.wantsBelow
  cases below with
  | false => rfl
  | true => cases r.guardBelow.isSome || decide (r.base < pageSize) <;> rfl

/-- Guarding above is to ask for the first page past it. -/
theorem placeAbove_eq_ask (m : Machine) (r : Record) (above : Bool) :
    (if above then placeAbove m r else (r, m)) =
      let asked := ask m (r.wantsAbove above) r.guardAbove (r.stop pageSize)
      ({ r with guardAbove := asked.1 }, asked.2) := by
  unfold placeAbove ask Record.wantsAbove
  cases above with
  | false => rfl
  | true => cases r.guardAbove.isSome <;> rfl

include hm

/-- **Guards of a record may be missed**, on either side, and they lie
outside of it. -/
theorem misses_placeSides (r : Record) (below above : Bool) (l : List (Option Errno)) :
    let placed := placeSides m r below above
    let placed' := placeSides (m.withMaps l) r below above
    ∃ ps, Machine.Misses m.attempts ps l placed.2 placed'.2 ∧
      placed.1.Misses (missed ps l) placed'.1 ∧
      ∀ x ∈ missed ps l, placed.1.Lacks x placed'.1 ∧ (x < r.base ∨ r.stop pageSize ≤ x) := by
  have heq : ∀ m, placeSides m r below above =
      let first := ask m (r.wantsBelow below) r.guardBelow (pageFloor (r.base - 1) pageSize)
      let second := ask first.2 (r.wantsAbove above) r.guardAbove (r.stop pageSize)
      ({ r with guardBelow := first.1, guardAbove := second.1 }, second.2) := by
    intro m
    unfold placeSides
    rw [placeBelow_eq_ask]
    exact placeAbove_eq_ask _ _ _
  have hapart : r.wantsBelow below = true → r.wantsAbove above = true →
      r.stop pageSize ≠ pageFloor (r.base - 1) pageSize ∧ r.stop pageSize ≠ 0 := by
    intro hwanted _
    have hlt := (Record.pageFloor_of_wantsBelow hwanted).1
    have hle : r.base ≤ r.stop pageSize := Nat.le_add_right _ _
    omega
  intro placed placed'
  simp only [placed, placed', heq]
  obtain ⟨ps, hmachine, hbelow, habove, hall⟩ :=
    misses_ask_ask hm hapart r.guardBelow r.guardAbove l
  refine ⟨ps, hmachine, ⟨rfl, hbelow, habove⟩, fun x hx => ?_⟩
  rcases hall x hx with ⟨hwanted, rfl, hlacks⟩ | ⟨-, rfl, hlacks⟩
  · exact ⟨Or.inl hlacks, Or.inl (Record.pageFloor_of_wantsBelow hwanted).1⟩
  · exact ⟨Or.inr hlacks, Or.inr (Nat.le_refl _)⟩

/-- **So may the guards between two records** that are more than a page
apart. -/
theorem misses_placeBetween {lower upper : Record} {roomy : Bool}
    (hroom : roomy = true → lower.stop pageSize + pageSize < upper.base)
    (l : List (Option Errno)) :
    let low := if roomy then placeAbove m lower else (lower, m)
    let low' := if roomy then placeAbove (m.withMaps l) lower else (lower, m.withMaps l)
    let high := if roomy then placeBelow low.2 upper else (upper, low.2)
    let high' := if roomy then placeBelow low'.2 upper else (upper, low'.2)
    ∃ ps, Machine.Misses m.attempts ps l high.2 high'.2 ∧
      low.1.Misses (missed ps l) low'.1 ∧ high.1.Misses (missed ps l) high'.1 ∧
      ∀ x ∈ missed ps l, low.1.Lacks x low'.1 ∨ high.1.Lacks x high'.1 := by
  have hapart : lower.wantsAbove roomy = true → upper.wantsBelow roomy = true →
      pageFloor (upper.base - 1) pageSize ≠ lower.stop pageSize ∧
        pageFloor (upper.base - 1) pageSize ≠ 0 := by
    intro hlower hupper
    have hgap := hroom (Bool.and_eq_true_iff.1 hlower).1
    have hle := (Record.pageFloor_of_wantsBelow hupper).2
    omega
  intro low low' high high'
  simp only [low, low', high, high', placeAbove_eq_ask, placeBelow_eq_ask]
  obtain ⟨ps, hmachine, habove, hbelow, hall⟩ :=
    misses_ask_ask hm hapart lower.guardAbove upper.guardBelow l
  refine ⟨ps, hmachine, ⟨rfl, Or.inl rfl, habove⟩, ⟨rfl, hbelow, Or.inl rfl⟩, fun x hx => ?_⟩
  rcases hall x hx with ⟨-, -, hlacks⟩ | ⟨-, -, hlacks⟩
  · exact Or.inl (Or.inr hlacks)
  · exact Or.inr (Or.inl hlacks)

end Guard

/-! ## Afterwards -/

namespace Machine.Misses

variable {m m' : Machine} {told ps : List (Nat × Bool)} {l : List (Option Errno)}

/-- An event that tells of no attempt may be told on both. -/
theorem tell (h : Misses told ps l m m') {e : Event} (he : e.attempt? = none) :
    Misses told ps l (m.tell e) (m'.tell e) where
  told := by rw [attempts_tell, he, ← h.told]; exact List.append_nil _
  asked := by
    rw [attempts_tell, attempts_tell, he]
    simpa using h.asked
  platform := h.platform
  smooth := ⟨h.smooth.maps, h.smooth.unmaps⟩
  due := h.due
  unmaps := h.unmaps
  rest := h.rest
  placed := h.placed
  page := h.page

/-- **A range without missed guards may be overwritten on both.** -/
theorem fill (h : Misses told ps l m m') {address length : Nat}
    (hout : ∀ g ∈ missed ps l,
      ¬ PageTable.InRange (pageOf address) (Space.touched address length) (pageOf g))
    (byte : UInt8) :
    Misses told ps l (m.fill address length byte) (m'.fill address length byte) := by
  have hsame : ∀ n, PageTable.InRange (pageOf address) (Space.touched address length) n →
      m'.pageAt n = m.pageAt n := by
    intro n hn
    rw [h.page, if_neg]
    intro hmissed
    refine hout _ hmissed ?_
    rw [pageOf_start]
    exact hn
  have hspace : (m.fill address length byte).space =
      m.space.write address length fun _ => byte := rfl
  have hspace' : (m'.fill address length byte).space =
      m'.space.write address length fun _ => byte := rfl
  have hafter : (m'.fill address length byte).space.unpaged =
        (m.fill address length byte).space.unpaged ∧
      ∀ n, (m'.fill address length byte).pageAt n =
        if n * pageSize ∈ missed ps l then none else (m.fill address length byte).pageAt n := by
    by_cases hall : ∀ n, PageTable.InRange (pageOf address) (Space.touched address length) n →
        (m.pageAt n).isSome = true
    · have hall' : ∀ n, PageTable.InRange (pageOf address) (Space.touched address length) n →
          (m'.pageAt n).isSome = true := fun n hn => by
        rw [hsame n hn]
        exact hall n hn
      refine ⟨?_, fun n => ?_⟩
      · rw [unpaged_write hspace hall, unpaged_write hspace' hall', h.rest]
      · rw [pageAt_write hspace hall, pageAt_write hspace' hall', h.page]
        split <;> rfl
    · -- the program stops on both
      have hgap' : ¬ ∀ n, PageTable.InRange (pageOf address) (Space.touched address length) n →
          (m'.pageAt n).isSome = true := fun hall' => hall fun n hn => by
        rw [← hsame n hn]
        exact hall' n hn
      have hstop := space_write_of_gap hspace hall
      have hstop' := space_write_of_gap hspace' hgap'
      refine ⟨?_, fun n => ?_⟩
      · rw [hstop, hstop']
        exact congrArg (fun s : Space => { s with crashed := true }) h.rest
      · rw [pageAt, hstop', pageAt, hstop]
        exact h.page n
  exact {
    told := (attempts_fill _ _ _ _).trans h.told
    asked := by rw [attempts_fill, attempts_fill, h.asked]
    platform := h.platform
    smooth := ⟨h.smooth.maps, h.smooth.unmaps⟩
    due := h.due
    unmaps := h.unmaps
    rest := hafter.1
    placed := fun g hg => by rw [rightsAt_fill]; exact h.placed g hg
    page := hafter.2 }

end Machine.Misses

end PageWarden
