import PageWarden.Proofs.Coverage
import PageWarden.Proofs.InStep
import PageWarden.Proofs.Path
/-!
# Steps — how cuts and carves get done

A cut changes the records and calls the machine in turns, and an
invariant that relates the two must hold in between. What a turn can do
is said once: while a range is cleared (`Clearing`) guards are lifted or
forgotten, a record goes over into the parts outside of the range, and a
key that no record holds any more is given back; afterwards guards are
placed (`Guarding`). A carve is a clearing (`clearing_carve`), and a cut
is one that guarding may follow (`cut_steps`), so what is kept by each
kind of step is kept by both.
-/

namespace PageWarden

/-- Some record holds the key. -/
def View.Keys (V : View) (κ : Nat) : Prop := ∃ k r, V k = some r ∧ r.key = some κ

/-- The records `V'` and the machine `m'` come from `V` and `m` by taking
`[start, stop)` out of records other than the one under `keep`. -/
inductive Clearing (start stop : Nat) (keep : Option Handle) (V : View) (m : Machine) :
    View → Machine → Prop
  | refl : Clearing start stop keep V m V m
  | tell {V' : View} {m' : Machine} (hc : Clearing start stop keep V m V' m') {e : Event}
      (he : e.placed? = none) : Clearing start stop keep V m V' (m'.tell e)
  /-- A key that was held, and is held no longer, is given back. -/
  | free {V' : View} {m' : Machine} (hc : Clearing start stop keep V m V' m') {κ : Nat}
      (hheld : V.Keys κ) (hno : ¬ V'.Keys κ) : Clearing start stop keep V m V' (m'.keyFree κ)
  | liftBelow {V' : View} {m' : Machine} (hc : Clearing start stop keep V m V' m')
      {k : Handle} {r : Record} (hr : V' k = some r) :
      Clearing start stop keep V m
        (Function.update V' k (some (Guard.removeBelow m' r).1)) (Guard.removeBelow m' r).2
  | liftAbove {V' : View} {m' : Machine} (hc : Clearing start stop keep V m V' m')
      {k : Handle} {r : Record} (hr : V' k = some r) :
      Clearing start stop keep V m
        (Function.update V' k (some (Guard.removeAbove m' r).1)) (Guard.removeAbove m' r).2
  /-- Some records forget the guards they had in the range. -/
  | forget {V' V'' : View} {m' : Machine} (hc : Clearing start stop keep V m V' m')
      (hV : ∀ k, V'' k = V' k ∨ ∃ r, V' k = some r ∧ V'' k = some (r.forgetWithin start stop)) :
      Clearing start stop keep V m V'' m'
  /-- A record goes over into its parts. A guard that no part keeps is gone by then. -/
  | part {V' : View} {m' : Machine} (hc : Clearing start stop keep V m V' m')
      {k j : Handle} {r : Record} (hr : V' k = some r) (hk : some k ≠ keep) (hj : V' j = none)
      (hjk : some j ≠ keep) (hshaped : r.Shaped) (hmeets : r.Meets start stop)
      (hbelow : start ≤ r.base → r.guardBelow = none)
      (habove : r.stop pageSize ≤ stop → r.guardAbove = none) :
      Clearing start stop keep V m
        (Function.update (Function.update V' k (r.kept start stop)) j (r.splitOff start stop)) m'

/-- The records `V'` and the machine `m'` come from `V` and `m` by placing
guards, if guards are asked for at all. -/
inductive Guarding (asked : Bool) (V : View) (m : Machine) : View → Machine → Prop
  | refl : Guarding asked V m V m
  | tell {V' : View} {m' : Machine} (hg : Guarding asked V m V' m') {e : Event}
      (he : e.placed? = none) : Guarding asked V m V' (m'.tell e)
  | placeBelow {V' : View} {m' : Machine} (hg : Guarding asked V m V' m') (ha : asked = true)
      {k : Handle} {r : Record} (hr : V' k = some r) :
      Guarding asked V m (Function.update V' k (some (Guard.placeBelow m' r).1))
        (Guard.placeBelow m' r).2
  | placeAbove {V' : View} {m' : Machine} (hg : Guarding asked V m V' m') (ha : asked = true)
      {k : Handle} {r : Record} (hr : V' k = some r) :
      Guarding asked V m (Function.update V' k (some (Guard.placeAbove m' r).1))
        (Guard.placeAbove m' r).2

variable {start stop : Nat} {keep : Option Handle} {V V' V'' : View} {m m' m'' : Machine}
variable {h k : Handle} {r : Record}

/-! ## A record and its parts -/

/-- The parts of a record share its key. -/
theorem Record.PartOf.key {s : Record} (hs : r.PartOf start stop s) : s.key = r.key := by
  rcases hs with ⟨-, rfl⟩ | ⟨-, rfl⟩ <;> rfl

namespace View

/-- What all records are like, they are like after one is put in that is. -/
theorem all_update {P : Record → Prop} {o : Option Record} (hV : ∀ k r, V k = some r → P r)
    (ho : ∀ r, o = some r → P r) : ∀ k r, Function.update V h o k = some r → P r := by
  intro k r hr
  rw [Function.update_apply] at hr
  split at hr
  · exact ho r hr
  · exact hV k r hr

/-- A record stays where it is when something is put under a free handle. -/
theorem update_of_free {o : Option Record} (hs : V k = some r) (hfree : V h = none) :
    Function.update V h o k = some r := by
  rw [Function.update_of_ne, hs]
  rintro rfl
  rw [hfree] at hs
  cases hs

/-- A key that records have after one is put in is the key of that one, or
they had it before. -/
theorem keys_of_update {o : Option Record} {κ : Nat}
    (hκ : View.Keys (Function.update V h o) κ) :
    (∃ r, o = some r ∧ r.key = some κ) ∨ V.Keys κ := by
  obtain ⟨k, s, hs, hkey⟩ := hκ
  rw [Function.update_apply] at hs
  split at hs
  · exact Or.inl ⟨s, hs, hkey⟩
  · exact Or.inr ⟨k, s, hs, hkey⟩

/-- A part of a record is found under the record's handle or under the
other one. -/
theorem exists_part {j : Handle} {s : Record} (hr : V k = some r) (hj : V j = none)
    (hs : r.PartOf start stop s) :
    ∃ i, (i = k ∨ i = j) ∧
      Function.update (Function.update V k (r.kept start stop)) j (r.splitOff start stop) i =
        some s := by
  have hne : k ≠ j := by
    rintro rfl
    rw [hj] at hr
    cases hr
  rcases Record.partOf_iff.1 hs with hkept | hsplit
  · refine ⟨k, Or.inl rfl, ?_⟩
    rw [Function.update_of_ne hne, Function.update_self, hkept]
  · refine ⟨j, Or.inr rfl, ?_⟩
    rw [Function.update_self, hsplit]

/-- Other records stay. -/
theorem part_of_ne {i j : Handle} {s : Record} {kept splitOff : Option Record} (hs : V i = some s)
    (hik : i ≠ k) (hj : V j = none) :
    Function.update (Function.update V k kept) j splitOff i = some s := by
  rw [Function.update_of_ne, Function.update_of_ne hik, hs]
  rintro rfl
  rw [hj] at hs
  cases hs

end View

/-! ## Clearing -/

namespace Clearing

/-- **What records are like that clearing leaves**: as all were before, if a
record stays so that gives up guards or pages. -/
theorem all {P : Record → Prop} (hc : Clearing start stop keep V m V' m')
    (hbelow : ∀ {r}, P r → P { r with guardBelow := none })
    (habove : ∀ {r}, P r → P { r with guardAbove := none })
    (hforget : ∀ {r}, P r → P (r.forgetWithin start stop))
    (hpart : ∀ {r s}, r.Shaped → r.Meets start stop → r.PartOf start stop s → P r → P s)
    (hV : ∀ k r, V k = some r → P r) : ∀ k r, V' k = some r → P r := by
  induction hc with
  | refl => exact hV
  | tell _ _ ih => exact ih
  | free _ _ _ ih => exact ih
  | liftBelow _ hr ih =>
    refine View.all_update ih ?_
    rintro s ⟨⟩
    rw [Guard.removeBelow_fst]
    exact hbelow (ih _ _ hr)
  | liftAbove _ hr ih =>
    refine View.all_update ih ?_
    rintro s ⟨⟩
    rw [Guard.removeAbove_fst]
    exact habove (ih _ _ hr)
  | forget _ hV ih =>
    intro k s hs
    rcases hV k with hsame | ⟨r, hr, hforgot⟩
    · exact ih k s (hsame.symm.trans hs)
    · obtain rfl : r.forgetWithin _ _ = s := Option.some.inj (hforgot.symm.trans hs)
      exact hforget (ih k r hr)
  | part _ hr _ _ _ hshaped hmeets _ _ ih =>
    refine View.all_update (View.all_update ih fun s hs => ?_) fun s hs => ?_
    · exact hpart hshaped hmeets (Record.partOf_iff.2 (Or.inl hs)) (ih _ _ hr)
    · exact hpart hshaped hmeets (Record.partOf_iff.2 (Or.inr hs)) (ih _ _ hr)

/-- **What the machine is like after clearing**: as it was before, if it stays
so where a guard is lifted or a key given back. -/
theorem machine {P : Machine → Prop} (hc : Clearing start stop keep V m V' m')
    (htell : ∀ {v e}, e.placed? = none → P v → P (v.tell e))
    (hfree : ∀ {v} κ, P v → P (v.keyFree κ)) (hlift : ∀ {v} g, P v → P (Guard.lift v g))
    (hm : P m) : P m' := by
  induction hc with
  | refl => exact hm
  | tell _ he ih => exact htell he ih
  | free _ _ _ ih => exact hfree _ ih
  | liftBelow _ _ ih =>
    unfold Guard.removeBelow
    split
    · exact hlift _ ih
    · exact ih
  | liftAbove _ _ ih =>
    unfold Guard.removeAbove
    split
    · exact hlift _ ih
    · exact ih
  | forget _ _ ih => exact ih
  | part _ _ _ _ _ _ _ _ _ ih => exact ih

/-- Clearing brings no key into the records. -/
theorem keys (hc : Clearing start stop keep V m V' m') {κ : Nat} (hκ : V'.Keys κ) : V.Keys κ := by
  obtain ⟨k, s, hs, hkey⟩ := hκ
  exact hc.all (P := fun s => s.key = some κ → V.Keys κ) id id id
    (fun _ _ hpart h hs => h (hpart.key ▸ hs)) (fun k r hr hkey => ⟨k, r, hr, hkey⟩) k s hs hkey

/-- One clearing after another is a clearing. -/
theorem trans (hc : Clearing start stop keep V m V' m')
    (hc' : Clearing start stop keep V' m' V'' m'') : Clearing start stop keep V m V'' m'' := by
  induction hc' with
  | refl => exact hc
  | tell _ he ih => exact ih.tell he
  | free _ hheld hno ih => exact ih.free (hc.keys hheld) hno
  | liftBelow _ hr ih => exact ih.liftBelow hr
  | liftAbove _ hr ih => exact ih.liftAbove hr
  | forget _ hV ih => exact ih.forget hV
  | part _ hr hk hj hjk hs hm hb ha ih => exact ih.part hr hk hj hjk hs hm hb ha

/-- Nothing need be spared. -/
theorem spareNone (hc : Clearing start stop keep V m V' m') :
    Clearing start stop none V m V' m' := by
  induction hc with
  | refl => exact .refl
  | tell _ he ih => exact ih.tell he
  | free _ hheld hno ih => exact ih.free hheld hno
  | liftBelow _ hr ih => exact ih.liftBelow hr
  | liftAbove _ hr ih => exact ih.liftAbove hr
  | forget _ hV ih => exact ih.forget hV
  | part _ hr _ hj _ hs hm hb ha ih =>
    exact ih.part hr (Option.some_ne_none _) hj (Option.some_ne_none _) hs hm hb ha

/-- One record may forget its guards in the range. -/
theorem forgetOne (hc : Clearing start stop keep V m V' m') (hr : V' k = some r) :
    Clearing start stop keep V m (Function.update V' k (some (r.forgetWithin start stop))) m' := by
  refine hc.forget fun j => ?_
  by_cases hj : j = k
  · subst hj
    exact Or.inr ⟨r, hr, Function.update_self _ _ _⟩
  · exact Or.inl (Function.update_of_ne hj _ _)

/-- Both guards of a record may be lifted. -/
theorem liftAll (hc : Clearing start stop keep V m V' m') (hr : V' k = some r) :
    Clearing start stop keep V m (Function.update V' k (some r.bare))
      (Guard.removeAll m' r).2 := by
  have habove := (hc.liftBelow hr).liftAbove (Function.update_self k _ V')
  rw [Function.update_idem] at habove
  rw [← Guard.removeAll_fst m' r]
  exact habove

/-- **Clearing is a path**, where the guards of the records it comes by may
be unmapped, and keys that are held no longer given back. -/
theorem path {Allowed : Machine → Act → Prop} (hc : Clearing start stop keep V m V' m')
    (hlift : ∀ {U v k r g}, Clearing start stop keep V m U v → U k = some r →
      r.guardBelow = some g ∨ r.guardAbove = some g → Allowed v (.unmap g pageSize))
    (hfree : ∀ {U v κ}, Clearing start stop keep V m U v → V.Keys κ → ¬ U.Keys κ →
      Allowed v (.keyFree κ)) : m.Path Allowed m' := by
  induction hc with
  | refl => exact .refl
  | tell _ he ih => exact ih.tell he
  | free hc hheld hno ih => exact ih.act (.keyFree _) (hfree hc hheld hno)
  | liftBelow hc hr ih => exact ih.removeBelow fun _ hg => hlift hc hr (Or.inl hg)
  | liftAbove hc hr ih => exact ih.removeAbove fun _ hg => hlift hc hr (Or.inr hg)
  | forget _ _ ih => exact ih
  | part _ _ _ _ _ _ _ _ _ ih => exact ih

/-- So it is a stretch of calls. -/
theorem calls (hc : Clearing start stop keep V m V' m') : m.Calls m' := by
  have hpath : m.Path (fun _ _ => True) m' :=
    hc.path (fun _ _ _ => trivial) fun _ _ _ => trivial
  exact hpath.calls

end Clearing

/-! ## Guarding -/

namespace Guarding

variable {asked : Bool}

/-- **Guarding is a path**, where guards may be placed. -/
theorem path {Allowed : Machine → Act → Prop} (hg : Guarding asked V m V' m')
    (hplace : ∀ v a, Allowed v (.place a)) : m.Path Allowed m' := by
  induction hg with
  | refl => exact .refl
  | tell _ he ih => exact ih.tell he
  | placeBelow _ _ _ ih => exact ih.placeBelow _ (hplace _)
  | placeAbove _ _ _ ih => exact ih.placeAbove _ (hplace _)

/-- So it is a stretch of calls. -/
theorem calls (hg : Guarding asked V m V' m') : m.Calls m' := by
  have hpath : m.Path (fun _ _ => True) m' := hg.path fun _ _ => trivial
  exact hpath.calls

/-- One guarding after another is a guarding. -/
theorem trans (hg : Guarding asked V m V' m') (hg' : Guarding asked V' m' V'' m'') :
    Guarding asked V m V'' m'' := by
  induction hg' with
  | refl => exact hg
  | tell _ he ih => exact ih.tell he
  | placeBelow _ ha hr ih => exact ih.placeBelow ha hr
  | placeAbove _ ha hr ih => exact ih.placeAbove ha hr

/-- Where no guards are asked for, nothing is done but to tell. -/
theorem of_not_asked (hg : Guarding false V m V' m') : V' = V ∧ m.Silent m' := by
  induction hg with
  | refl => exact ⟨rfl, .refl⟩
  | tell _ he ih => exact ⟨ih.1, ih.2.tell he⟩
  | placeBelow _ ha => cases ha
  | placeAbove _ ha => cases ha

/-- The page below a record that is put in may be guarded. -/
theorem placeBelowIf (V : View) (m : Machine) (k : Handle) (r : Record) {guarded : Bool}
    (ha : guarded = true → asked = true) :
    Guarding asked (Function.update V k (some r)) m
      (Function.update V k (some (if guarded then Guard.placeBelow m r else (r, m)).1))
      (if guarded then Guard.placeBelow m r else (r, m)).2 := by
  split
  · rename_i hon
    have hbelow : Guarding asked (Function.update V k (some r)) m _ _ :=
      Guarding.refl.placeBelow (ha hon) (Function.update_self k _ V)
    rw [Function.update_idem] at hbelow
    exact hbelow
  · exact .refl

/-- So may the page above it. -/
theorem placeAboveIf (V : View) (m : Machine) (k : Handle) (r : Record) {guarded : Bool}
    (ha : guarded = true → asked = true) :
    Guarding asked (Function.update V k (some r)) m
      (Function.update V k (some (if guarded then Guard.placeAbove m r else (r, m)).1))
      (if guarded then Guard.placeAbove m r else (r, m)).2 := by
  split
  · rename_i hon
    have habove : Guarding asked (Function.update V k (some r)) m _ _ :=
      Guarding.refl.placeAbove (ha hon) (Function.update_self k _ V)
    rw [Function.update_idem] at habove
    exact habove
  · exact .refl

/-- So may both. -/
theorem placeAllIf (V : View) (m : Machine) (k : Handle) (r : Record) {guarded : Bool}
    (ha : guarded = true → asked = true) :
    Guarding asked (Function.update V k (some r)) m
      (Function.update V k (some (if guarded then Guard.placeAll m r else (r, m)).1))
      (if guarded then Guard.placeAll m r else (r, m)).2 := by
  split
  · rename_i hon
    have hbelow : Guarding asked (Function.update V k (some r)) m _ _ :=
      Guarding.refl.placeBelow (ha hon) (Function.update_self k _ V)
    have hboth := hbelow.placeAbove (ha hon) (Function.update_self k _ _)
    rw [Function.update_idem, Function.update_idem] at hboth
    exact hboth
  · exact .refl

end Guarding

/-! ## Cuts and carves -/

namespace Warden

variable {w : Warden}

/-- The store's records are looked through for a key. -/
theorem any_key_iff {s : Store} {κ : Nat} :
    s.records.any (·.key = some κ) = true ↔ View.Keys s.get? κ := by
  simp only [List.any_eq_true, Store.mem_records_iff, decide_eq_true_eq]
  constructor
  · rintro ⟨r, ⟨k, hr⟩, hκ⟩
    exact ⟨k, r, hr, hκ⟩
  · rintro ⟨k, r, hr, hκ⟩
    exact ⟨r, ⟨k, hr⟩, hκ⟩

/-- Giving the key of a record back is a step of clearing, if the record
was there when the clearing began. -/
theorem clearing_releaseKey (hc : Clearing start stop keep V m w.store.get? w.machine)
    (hheld : ∀ κ, r.key = some κ → V.Keys κ) :
    Clearing start stop keep V m (w.releaseKey r).store.get? (w.releaseKey r).machine := by
  rw [store_releaseKey]
  unfold releaseKey
  split
  · exact hc
  · rename_i κ hκ
    split
    · exact hc.tell rfl
    · rename_i hno
      rw [any_key_iff] at hno
      exact (hc.free (hheld κ hκ) hno).tell rfl

section Cut

variable {q : Record} {guarded : Bool}

/-- What is under a handle goes over into its parts, the split-off one
under the next handle. -/
theorem clearing_part (hr : w.store.get? h = some r) (hh : some h ≠ keep) (hlive : w.Live keep)
    (hc : Clearing start stop keep V m (Function.update w.store.get? h (some q)) m')
    (hshaped : q.Shaped) (hmeets : q.Meets start stop)
    (hbelow : start ≤ q.base → q.guardBelow = none)
    (habove : q.stop pageSize ≤ stop → q.guardAbove = none) :
    Clearing start stop keep V m
      (Function.update (Function.update w.store.get? h (q.kept start stop)) w.store.nextHandle
        (q.splitOff start stop)) m' := by
  have hfree : Function.update w.store.get? h (some q) w.store.nextHandle = none := by
    rw [Function.update_of_ne (Store.ne_nextHandle hr).symm, Store.get?_nextHandle]
  have hnext : some w.store.nextHandle ≠ keep := by
    intro heq
    have hsome := hlive _ heq
    rw [Store.get?_nextHandle] at hsome
    cases hsome
  have hparts := hc.part (Function.update_self h _ _) hh hfree hnext hshaped hmeets hbelow habove
  rw [Function.update_idem] at hparts
  exact hparts

/-- What a cut comes to: the range is cleared at the machine `m₁`, where
nothing remains to be done but to tell, or to guard the edges. -/
def CutSteps (start stop : Nat) (keep : Option Handle) (V : View) (m : Machine)
    (cut : Bool → Warden) : Prop :=
  ∃ m₁, Clearing start stop keep V m (cut false).store.get? m₁ ∧
    ((cut false).machine = m₁ ∨ ∃ e, e.placed? = none ∧ (cut false).machine = m₁.tell e) ∧
    ∀ guarded, Guarding guarded (cut false).store.get? m₁ (cut guarded).store.get?
      (cut guarded).machine

/-- The steps of dropping a record. -/
theorem dropRecord_steps (hr : w.store.get? h = some r) (hh : some h ≠ keep)
    (hlive : w.Live keep) (hshaped : q.Shaped) (hmeets : q.Meets start stop)
    (hbase : start ≤ q.base) (hend : q.stop pageSize ≤ stop)
    (hc : Clearing start stop keep V m (Function.update w.store.get? h (some q)) w.machine)
    (hheld : ∀ κ, q.key = some κ → V.Keys κ) :
    CutSteps start stop keep V m fun _ => w.dropRecord h q := by
  obtain ⟨t, ht⟩ := Store.exists_remove_of_get? hr
  have hlifted := hc.liftAll (Function.update_self h _ _)
  rw [Function.update_idem] at hlifted
  have hgone := clearing_part hr hh hlive hlifted hshaped hmeets (fun _ => rfl) (fun _ => rfl)
  rw [Record.kept_eq_none (r := q.bare) hbase hend,
    Record.splitOff_eq_none (r := q.bare) (Or.inl hbase), Store.update_nextHandle hr,
    ← Store.get?_remove_eq_update ht] at hgone
  have hfreed := clearing_releaseKey
    (w := { w with store := t, machine := (Guard.removeAll w.machine q).2 }) (r := q.bare)
    hgone hheld
  have hdone := hfreed.tell (e := .untracked q.base) rfl
  unfold CutSteps dropRecord
  simp only [ht, Guard.removeAll_fst]
  exact ⟨_, hdone, Or.inl rfl, fun _ => .refl⟩

/-- The steps of cutting a head off. -/
theorem trimHead_steps (hr : w.store.get? h = some r) (hh : some h ≠ keep)
    (hlive : w.Live keep) (hshaped : q.Shaped) (hmeets : q.Meets start stop)
    (hbase : start ≤ q.base) (hend : stop < q.stop pageSize)
    (hc : Clearing start stop keep V m (Function.update w.store.get? h (some q)) w.machine) :
    CutSteps start stop keep V m (w.trimHead h q stop) := by
  have hlifted := hc.liftBelow (Function.update_self h _ _)
  rw [Function.update_idem, Guard.removeBelow_fst] at hlifted
  have hparts := clearing_part hr hh hlive hlifted hshaped hmeets (fun _ => rfl)
    fun hle => absurd hle (Nat.not_le_of_lt hend)
  rw [Record.kept_of_le (r := { q with guardBelow := none }) hbase hend,
    Record.splitOff_eq_none (r := { q with guardBelow := none }) (Or.inl hbase),
    Store.update_nextHandle hr] at hparts
  unfold CutSteps
  simp only [trimHead_eq, store_tell, Bool.false_eq_true, if_false, Store.get?_modify_eq_update hr]
  refine ⟨_, hparts, Or.inr ⟨_, rfl, rfl⟩, fun guarded => ?_⟩
  exact (Guarding.placeBelowIf w.store.get? _ h (q.upper stop) id).tell rfl

/-- The steps of cutting a tail off. -/
theorem trimTail_steps (hr : w.store.get? h = some r) (hh : some h ≠ keep)
    (hlive : w.Live keep) (hshaped : q.Shaped) (hmeets : q.Meets start stop)
    (hbase : q.base < start) (hend : q.stop pageSize ≤ stop)
    (hc : Clearing start stop keep V m (Function.update w.store.get? h (some q)) w.machine) :
    CutSteps start stop keep V m (w.trimTail h q start) := by
  have hlifted := hc.liftAbove (Function.update_self h _ _)
  rw [Function.update_idem, Guard.removeAbove_fst] at hlifted
  have hparts := clearing_part hr hh hlive hlifted hshaped hmeets
    (fun hle => absurd hle (Nat.not_le_of_lt hbase)) fun _ => rfl
  rw [Record.kept_of_lt (r := { q with guardAbove := none }) hbase,
    Record.splitOff_eq_none (r := { q with guardAbove := none }) (Or.inr hend),
    Store.update_nextHandle hr] at hparts
  unfold CutSteps
  simp only [trimTail_eq, store_tell, Bool.false_eq_true, if_false, Store.get?_modify_eq_update hr]
  refine ⟨_, hparts, Or.inr ⟨_, rfl, rfl⟩, fun guarded => ?_⟩
  exact (Guarding.placeAboveIf w.store.get? _ h (q.lower start) id).tell rfl

/-- The steps of splitting a record. -/
theorem splitRecord_steps (hr : w.store.get? h = some r) (hh : some h ≠ keep)
    (hlive : w.Live keep) (hshaped : q.Shaped) (hmeets : q.Meets start stop)
    (hbase : q.base < start) (hend : stop < q.stop pageSize)
    (hc : Clearing start stop keep V m (Function.update w.store.get? h (some q)) w.machine) :
    CutSteps start stop keep V m (w.splitRecord h q start stop) := by
  have hparts := clearing_part hr hh hlive hc hshaped hmeets
    (fun hle => absurd hle (Nat.not_le_of_lt hbase)) fun hle => absurd hle (Nat.not_le_of_lt hend)
  rw [Record.kept_of_lt hbase, Record.splitOff_of_lt hbase hend] at hparts
  have hne := Store.ne_nextHandle hr
  unfold CutSteps
  simp only [splitRecord_eq, Bool.false_and, Bool.false_eq_true, if_false,
    Store.get?_insert_eq_update, Store.nextHandle_modify, Store.get?_modify_eq_update hr]
  refine ⟨_, hparts, Or.inr ⟨_, rfl, rfl⟩, fun guarded => ?_⟩
  -- first the lower part under its old handle, then the upper part
  have hroomy : (guarded && decide (2 * pageSize ≤ stop - start)) = true → guarded = true :=
    fun hboth => (Bool.and_eq_true_iff.1 hboth).1
  have hlower := Guarding.placeAboveIf
    (Function.update w.store.get? w.store.nextHandle (some (q.upper stop))) w.machine h
    (q.lower start) hroomy
  rw [Function.update_comm hne.symm, Function.update_comm hne.symm] at hlower
  refine (hlower.trans ?_).tell rfl
  exact Guarding.placeBelowIf _ _ w.store.nextHandle (q.upper stop) hroomy

/-- **The steps of a cut.** The record forgets its guards in the range, and
then it is dropped, trimmed or split. -/
theorem cut_steps (hr : w.store.get? h = some r) (hshaped : r.Shaped)
    (hmeets : r.Meets start stop) (hh : some h ≠ keep) (hlive : w.Live keep) :
    CutSteps start stop keep w.store.get? w.machine (w.cut h start stop) := by
  have hforgot : Clearing start stop keep w.store.get? w.machine
      (Function.update w.store.get? h (some (r.forgetWithin start stop))) w.machine :=
    Clearing.refl.forgetOne hr
  have hshaped : (r.forgetWithin start stop).Shaped := hshaped
  have hmeets : (r.forgetWithin start stop).Meets start stop := hmeets
  unfold cut
  simp only [hr]
  by_cases hbase : start ≤ (r.forgetWithin start stop).base <;>
    by_cases hend : (r.forgetWithin start stop).stop pageSize ≤ stop <;>
    simp only [hbase, hend, if_true, if_false]
  · exact dropRecord_steps hr hh hlive hshaped hmeets hbase hend hforgot
      fun κ hκ => ⟨h, r, hr, hκ⟩
  · exact trimHead_steps hr hh hlive hshaped hmeets hbase (Nat.lt_of_not_le hend) hforgot
  · exact trimTail_steps hr hh hlive hshaped hmeets (Nat.lt_of_not_le hbase) hend hforgot
  · exact splitRecord_steps hr hh hlive hshaped hmeets (Nat.lt_of_not_le hbase)
      (Nat.lt_of_not_le hend) hforgot

/-- **A cut without guards is a clearing.** -/
theorem clearing_cut (hr : w.store.get? h = some r) (hshaped : r.Shaped)
    (hmeets : r.Meets start stop) (hh : some h ≠ keep) (hlive : w.Live keep) :
    Clearing start stop keep w.store.get? w.machine (w.cut h start stop false).store.get?
      (w.cut h start stop false).machine := by
  obtain ⟨m₁, hc, htold, -⟩ := cut_steps hr hshaped hmeets hh hlive
  rcases htold with hsame | ⟨e, he, hsame⟩
  · rw [hsame]
    exact hc
  · rw [hsame]
    exact hc.tell he

end Cut

/-- **A carve is a clearing.** -/
theorem clearing_carve (hs : w.store.Shaped) (hstop : Aligned stop) (hlive : w.Live keep) :
    Clearing start stop keep w.store.get? w.machine (w.carve start stop keep).store.get?
      (w.carve start stop keep).machine := by
  have hinv : (w.carve start stop keep).store.Shaped ∧ (w.carve start stop keep).Live keep ∧
      Clearing start stop keep w.store.get? w.machine (w.carve start stop keep).store.get?
        (w.carve start stop keep).machine := by
    refine carve_induction (motive := fun _ v => v.store.Shaped ∧ v.Live keep ∧
      Clearing start stop keep w.store.get? w.machine v.store.get? v.machine) ⟨?_, ?_, ?_⟩ ?_
    · rw [Store.shaped_iff, bare?_forgetGuards, ← Store.shaped_iff]
      exact hs
    · intro k hk
      rw [get?_forgetGuards, Option.isSome_map]
      exact hlive k hk
    · refine Clearing.refl.forget fun k => ?_
      rw [get?_forgetGuards]
      cases hk : w.store.get? k with
      | none => exact Or.inl rfl
      | some r => exact Or.inr ⟨r, rfl, rfl⟩
    · intro v h r _ ⟨hshaped, hvlive, hv⟩ hr hm hh
      refine ⟨shaped_cut (w := v.tell _) hshaped hstop h false, fun k hk => ?_, ?_⟩
      · obtain ⟨q, hq⟩ := Option.isSome_iff_exists.1 (hvlive k hk)
        rw [get?_cut_of_ne (w := v.tell _) hq (by rintro rfl; exact hh hk) false]
        rfl
      · have htold := hv.tell (e := .changedBehind r.base r.length) rfl
        exact htold.trans (clearing_cut (w := v.tell _) hr (hshaped h r hr) hm hh hvlive)
  exact hinv.2.2

end Warden

end PageWarden
