import PageWarden.Proofs.InStep.Carve
import PageWarden.Proofs.Memory.Move
/-!
# Tenants — what a page was mapped as

The table does not say why a page is mapped, but the journal does: each
mapping, move and placed guard is written there, so the last of them that
took a page says what it is (`Machine.tenant`). What is unmapped later
has a tenant still; it is asked about mapped pages only.

Where a record's own pages are mapped as memory, and the pages that its
guard fields name as guards, the records are right about their pages
(`Titled`). Clearing keeps that (`Titled.clearing`), since it gives nobody
a page; and so does guarding, where records and memory are in step
(`Titled.guarding`).
-/

namespace PageWarden

/-- What a page was mapped as. -/
inductive Tenant where
  | memory
  | file
  | guard
deriving DecidableEq, Repr

/-- What the entry made of page `n`, if it took that page. What a move puts
in its new range is memory. -/
def Entry.tenant? (n : Nat) : Entry → Option Tenant
  | .call (.map q (.ok a)) =>
    if PageIn a (a + roundUp q.length pageSize) n then
      some (if q.isAnonymous then .memory else .file)
    else none
  | .call (.move q (.ok moved)) => if q.New moved n then some .memory else none
  | .event (.guardMapped a) => if n * pageSize = a then some .guard else none
  | _ => none

namespace Machine

variable {m m' : Machine} {n : Nat}

/-- What page `n` was last mapped as. -/
def tenant (m : Machine) (n : Nat) : Option Tenant :=
  m.journal.foldl (fun known e => (e.tenant? n).or known) none

/-- One more entry has the last word on the pages it took. -/
theorem tenant_of_journal {e : Entry} (h : m'.journal = m.journal ++ [e]) (n : Nat) :
    m'.tenant n = (e.tenant? n).or (m.tenant n) := by
  rw [tenant, h, List.foldl_append]
  rfl

/-- An entry that takes no page changes nothing. -/
theorem tenant_of_idle_entry {e : Entry} (h : m'.journal = m.journal ++ [e])
    (he : ∀ n, e.tenant? n = none) : m'.tenant = m.tenant := by
  funext n
  rw [tenant_of_journal h, he, Option.none_or]

/-! ## What the calls make of a page -/

/-- An event that places no guard makes nothing of any page. -/
theorem tenant_tell (m : Machine) {e : Event} (he : e.placed? = none) :
    (m.tell e).tenant = m.tenant := by
  refine tenant_of_idle_entry rfl fun n => ?_
  cases e <;> first | rfl | cases he

/-- A mapping that succeeds takes its range. -/
theorem tenant_map {q : MapRequest} {a : Nat} (h : m.map q = (.ok a, m')) (n : Nat) :
    m'.tenant n =
      if PageIn a (a + roundUp q.length pageSize) n then
        some (if q.isAnonymous then .memory else .file)
      else m.tenant n := by
  have hjournal : (m.map q).2.journal = m.journal ++ [.call (.map q (m.map q).1)] := rfl
  rw [h] at hjournal
  rw [tenant_of_journal hjournal]
  simp only [Entry.tenant?]
  split <;> rfl

/-- One that fails takes nothing. -/
theorem tenant_map_error {q : MapRequest} {errno : Errno} (h : m.map q = (.error errno, m')) :
    m'.tenant = m.tenant := by
  have hjournal : (m.map q).2.journal = m.journal ++ [.call (.map q (m.map q).1)] := rfl
  rw [h] at hjournal
  exact tenant_of_idle_entry hjournal fun _ => rfl

/-- Nor does an unmapping take anything. -/
theorem tenant_unmap (m : Machine) (address length : Nat) :
    (m.unmap address length).2.tenant = m.tenant :=
  tenant_of_idle_entry (e := .call (.unmap address length (m.unmap address length).1)) rfl
    fun _ => rfl

/-- A move that succeeds takes its new range. -/
theorem tenant_move {q : MoveRequest} {moved : Nat} (h : m.move q = (.ok moved, m')) (n : Nat) :
    m'.tenant n = if q.New moved n then some .memory else m.tenant n := by
  have hjournal : (m.move q).2.journal = m.journal ++ [.call (.move q (m.move q).1)] := rfl
  rw [h] at hjournal
  rw [tenant_of_journal hjournal]
  simp only [Entry.tenant?]
  split <;> rfl

/-- One that fails takes nothing. -/
theorem tenant_move_error {q : MoveRequest} {errno : Errno} (h : m.move q = (.error errno, m')) :
    m'.tenant = m.tenant := by
  have hjournal : (m.move q).2.journal = m.journal ++ [.call (.move q (m.move q).1)] := rfl
  rw [h] at hjournal
  exact tenant_of_idle_entry hjournal fun _ => rfl

/-- Giving a key back takes nothing. -/
theorem tenant_keyFree (m : Machine) (key : Nat) : (m.keyFree key).tenant = m.tenant := by
  unfold keyFree
  split
  · exact tenant_of_idle_entry (e := .call (.keyFree key)) rfl fun _ => rfl
  · rfl

/-- An idle call takes nothing. -/
theorem tenant_act_of_idle {c : Act} (hc : c.Idle m) : (m.act c).tenant = m.tenant := by
  cases c with
  | map q =>
    obtain ⟨errno, he⟩ := hc
    exact tenant_map_error (Prod.ext he rfl)
  | unmap a l => exact tenant_unmap m a l
  | protect a l ρ =>
    exact tenant_of_idle_entry (e := .call (.protect a l ρ (m.protect a l ρ).1)) rfl fun _ => rfl
  | move q => exact hc.elim
  | fill a l byte => exact tenant_of_idle_entry (e := .call (.fill a l byte)) rfl fun _ => rfl
  | copy a bytes => exact tenant_of_idle_entry (e := .call (.copy a bytes)) rfl fun _ => rfl
  | keyAlloc ρ =>
    show (m.keyAlloc ρ).2.tenant = m.tenant
    unfold keyAlloc
    split
    · exact tenant_of_idle_entry rfl fun _ => rfl
    · rfl
  | keyProtect a l ρ κ =>
    show (m.keyProtect a l ρ κ).2.tenant = m.tenant
    unfold keyProtect
    split
    · exact tenant_of_idle_entry rfl fun _ => rfl
    · rfl
  | keyRights κ =>
    show (m.keyRights κ).2.tenant = m.tenant
    unfold keyRights
    split
    · exact tenant_of_idle_entry (e := .call (.keyRights κ (m.space.keyRights κ))) rfl fun _ => rfl
    · rfl
  | keyFree κ => exact hc.elim
  | place a => exact hc.elim

/-- **Idle calls take nothing.** -/
theorem Path.tenant (h : Path Act.Idle m m') : m'.tenant = m.tenant := by
  induction h with
  | refl => rfl
  | tell _ he ih => exact (tenant_tell _ he).trans ih
  | act _ c hc ih => exact (tenant_act_of_idle hc).trans ih

end Machine

/-! ## Guards -/

namespace Guard

variable {m : Machine} {address n : Nat} {r : Record}

/-- Lifting a guard takes nothing. -/
theorem tenant_lift (m : Machine) (address : Nat) : (lift m address).tenant = m.tenant := by
  have hunmap := Machine.tenant_unmap m address pageSize
  unfold lift
  split <;> rename_i h <;> rw [h] at hunmap <;> exact (Machine.tenant_tell _ rfl).trans hunmap

/-- Nor does removing the guard below. -/
theorem tenant_removeBelow (m : Machine) (r : Record) :
    (removeBelow m r).2.tenant = m.tenant := by
  unfold removeBelow
  split
  · exact tenant_lift _ _
  · rfl

/-- Nor does removing the guard above. -/
theorem tenant_removeAbove (m : Machine) (r : Record) :
    (removeAbove m r).2.tenant = m.tenant := by
  unfold removeAbove
  split
  · exact tenant_lift _ _
  · rfl

/-- **A page that a guard was placed on is a guard**, and nothing changes
for any other. -/
theorem tenant_place_of_some (h : (place m address).1 = some address) (n : Nat) :
    (place m address).2.tenant n = if n * pageSize = address then some .guard else m.tenant n := by
  unfold place at h ⊢
  split at h
  · rename_i got m' hmap
    split at h
    · rename_i hgot
      subst hgot
      have hpage := pageIn_page (n := n) (Machine.aligned_of_map hmap).1
      have htold : (m'.tell (.guardMapped got)).tenant n =
          ((Entry.event (.guardMapped got)).tenant? n).or (m'.tenant n) :=
        Machine.tenant_of_journal rfl n
      simp only [if_true]
      rw [htold, Machine.tenant_map hmap]
      simp only [Entry.tenant?]
      split
      · rfl
      · rename_i hne
        exact if_neg fun hin => hne (hpage.1 hin)
    · cases h
  · cases h

/-- An attempt to place a guard takes at most the page that is mapped for
it. -/
theorem tenant_place_of_not_pageIn
    (hout : ∀ {got m'}, m.map (request address) = (.ok got, m') →
      ¬ PageIn got (got + roundUp pageSize pageSize) n) :
    (place m address).2.tenant n = m.tenant n := by
  unfold place
  split
  · rename_i got m' hmap
    have hsame : m'.tenant n = m.tenant n := by
      rw [Machine.tenant_map hmap]
      exact if_neg (hout hmap)
    split
    · have hne : n * pageSize ≠ got :=
        fun hn => hout hmap ((pageIn_page (Machine.aligned_of_map hmap).1).2 hn)
      have htold : (m'.tell (.guardMapped got)).tenant n =
          ((Entry.event (.guardMapped got)).tenant? n).or (m'.tenant n) :=
        Machine.tenant_of_journal rfl n
      simp only [htold, Entry.tenant?, if_neg hne, Option.none_or, hsame]
    · rw [Machine.tenant_tell _ rfl, Machine.tenant_unmap, hsame]
  · rename_i errno m' hmap
    rw [Machine.tenant_tell _ rfl, Machine.tenant_map_error hmap]

/-- It changes nothing for mapped pages. -/
theorem tenant_place_of_mapped (h : (m.rightsAt n).isSome) :
    (place m address).2.tenant n = m.tenant n := by
  refine tenant_place_of_not_pageIn fun hmap hin => ?_
  rw [Machine.rightsAt_of_map_of_not_fixed hmap (fixed_request _) hin] at h
  cases h

/-- The page below is guarded by a guard, and mapped pages are what they
were. -/
theorem tenant_placeBelow (m : Machine) (r : Record) (n : Nat) :
    ((m.rightsAt n).isSome → (placeBelow m r).2.tenant n = m.tenant n) ∧
      ((placeBelow m r).1.guardBelow = some (n * pageSize) →
        r.guardBelow = some (n * pageSize) ∨ (placeBelow m r).2.tenant n = some .guard) := by
  unfold placeBelow
  split
  · exact ⟨fun _ => rfl, Or.inl⟩
  · refine ⟨tenant_place_of_mapped, fun hn => Or.inr ?_⟩
    have hn : (place m (pageFloor (r.base - 1) pageSize)).1 = some (n * pageSize) := hn
    rcases place_fst m (pageFloor (r.base - 1) pageSize) with hnone | hsome
    · rw [hnone] at hn
      cases hn
    · have hpage : pageFloor (r.base - 1) pageSize = n * pageSize :=
        Option.some.inj (hsome.symm.trans hn)
      exact (tenant_place_of_some hsome n).trans (if_pos hpage.symm)

/-- So is the page above. -/
theorem tenant_placeAbove (m : Machine) (r : Record) (n : Nat) :
    ((m.rightsAt n).isSome → (placeAbove m r).2.tenant n = m.tenant n) ∧
      ((placeAbove m r).1.guardAbove = some (n * pageSize) →
        r.guardAbove = some (n * pageSize) ∨ (placeAbove m r).2.tenant n = some .guard) := by
  unfold placeAbove
  split
  · exact ⟨fun _ => rfl, Or.inl⟩
  · refine ⟨tenant_place_of_mapped, fun hn => Or.inr ?_⟩
    have hn : (place m (r.stop pageSize)).1 = some (n * pageSize) := hn
    rcases place_fst m (r.stop pageSize) with hnone | hsome
    · rw [hnone] at hn
      cases hn
    · have hpage : r.stop pageSize = n * pageSize := Option.some.inj (hsome.symm.trans hn)
      exact (tenant_place_of_some hsome n).trans (if_pos hpage.symm)

end Guard

/-! ## Records that are right about their pages -/

variable {X Y : Nat → Prop} {V V' : View} {m m' : Machine}
variable {start stop : Nat} {keep : Option Handle}

/-- **Records are right about their pages**, but for the pages in `X`: the
pages they cover are no file's, and those named as guards are guards. -/
structure Titled (X : Nat → Prop) (V : View) (m : Machine) : Prop where
  body : ∀ {k r n}, V k = some r → r.Covers n → ¬ X n → m.tenant n ≠ some .file
  guard : ∀ {k r p n}, V k = some r → p ≠ .body → r.Holds p n → ¬ X n → m.tenant n = some .guard

/-- **Clearing gives nobody a page.** -/
theorem Clearing.holds (hc : Clearing start stop keep V m V' m') (hstart : Aligned start)
    (hstop : Aligned stop) {k : Handle} {s : Record} {p : Part} {n : Nat} (hs : V' k = some s)
    (hp : s.Holds p n) : ∃ j r, V j = some r ∧ r.Holds p n := by
  refine hc.all (P := fun s => s.Holds p n → ∃ j r, V j = some r ∧ r.Holds p n) ?_ ?_ ?_ ?_
    (fun j r hr hp => ⟨j, r, hr, hp⟩) k s hs hp
  · intro r h hp
    cases p with
    | body => exact h hp
    | below => cases hp
    | above => exact h hp
  · intro r h hp
    cases p with
    | body => exact h hp
    | below => exact h hp
    | above => cases hp
  · exact fun h hp => h (Record.holds_of_forgetWithin hp)
  · exact fun hshaped hmeets hpart h hp => h (hpart.holds hshaped hstart hstop hmeets hp)

/-- Clearing takes no page. -/
theorem Clearing.tenant (hc : Clearing start stop keep V m V' m') : m'.tenant = m.tenant := by
  refine hc.machine (P := fun v => v.tenant = m.tenant) ?_ ?_ ?_ rfl
  · exact fun he h => (Machine.tenant_tell _ he).trans h
  · exact fun κ h => (Machine.tenant_keyFree _ κ).trans h
  · exact fun g h => (Guard.tenant_lift _ g).trans h

namespace Titled

/-- Without records there is nothing to be wrong about. -/
theorem of_no_records (hV : ∀ k, V k = none) : Titled X V m := by
  constructor
  · intro k r n hr
    rw [hV k] at hr
    cases hr
  · intro k r p n hr
    rw [hV k] at hr
    cases hr

/-- Where nothing is held, exemptions may change. -/
theorem close (ht : Titled X V m) (hX : ∀ k s p n, V k = some s → s.Holds p n → X n → Y n) :
    Titled Y V m := by
  constructor
  · intro k r n hr hn hY
    exact ht.body hr hn fun hX' => hY (hX k r .body n hr hn hX')
  · intro k r p n hr hp hold hY
    exact ht.guard hr hp hold fun hX' => hY (hX k r p n hr hold hX')

/-- Pages may be taken that are exempt from now on. -/
theorem machine (ht : Titled X V m) (hsame : ∀ n, ¬ Y n → m'.tenant n = m.tenant n)
    (hXY : ∀ n, X n → Y n) : Titled Y V m' := by
  constructor
  · intro k r n hr hn hY
    rw [hsame n hY]
    exact ht.body hr hn fun hX => hY (hXY n hX)
  · intro k r p n hr hp hold hY
    rw [hsame n hY]
    exact ht.guard hr hp hold fun hX => hY (hXY n hX)

/-- Nothing need be taken. -/
theorem same (ht : Titled X V m) (h : m'.tenant = m.tenant) : Titled X V m' :=
  ht.machine (fun n _ => congrFun h n) fun _ hX => hX

/-- Records may give pages up. -/
theorem shrink (ht : Titled X V m)
    (hV : ∀ {k s p n}, V' k = some s → s.Holds p n → ∃ j r, V j = some r ∧ r.Holds p n) :
    Titled X V' m := by
  constructor
  · intro k s n hs hn hX
    obtain ⟨j, r, hr, hold⟩ := hV (p := .body) hs hn
    exact ht.body hr hold hX
  · intro k s p n hs hp hold hX
    obtain ⟨j, r, hr, hold⟩ := hV hs hold
    exact ht.guard hr hp hold hX

/-- Pages may be taken that nobody holds, because they were not mapped. -/
theorem outside (ht : Titled Nowhere V m) (hin : InStep Nowhere V m.rightsAt)
    (hsame : ∀ n, (m.rightsAt n).isSome → m'.tenant n = m.tenant n) : Titled Nowhere V m' := by
  constructor
  · intro k r n hr hn _
    rw [hsame n (hin.mapped (p := .body) hr hn not_false)]
    exact ht.body hr hn not_false
  · intro k r p n hr hp hold _
    rw [hsame n (hin.mapped hr hold not_false)]
    exact ht.guard hr hp hold not_false

/-- **A record may enter, or leave all of its pages**, for pages that are no
file's. What was exempt is no longer, if nobody else holds it. -/
theorem rehouse {h : Handle} {r : Record} (ht : Titled X V m)
    (honly : ∀ p n, r.Holds p n → p = .body)
    (hbody : ∀ n, r.Covers n → m.tenant n ≠ some .file)
    (hapart : ∀ k s p n, k ≠ h → V k = some s → s.Holds p n → ¬ X n) :
    Titled Nowhere (Function.update V h (some r)) m := by
  constructor
  · intro k s n hs hn _
    rw [Function.update_apply] at hs
    split at hs
    · cases hs
      exact hbody n hn
    · rename_i hk
      exact ht.body hs hn (hapart k s .body n hk hs hn)
  · intro k s p n hs hp hold _
    rw [Function.update_apply] at hs
    split at hs
    · cases hs
      exact absurd (honly p n hold) hp
    · rename_i hk
      exact ht.guard hs hp hold (hapart k s p n hk hs hold)

/-- **Clearing leaves records right about their pages.** -/
theorem clearing (ht : Titled X V m) (hstart : Aligned start) (hstop : Aligned stop)
    (hc : Clearing start stop keep V m V' m') : Titled X V' m' :=
  (ht.shrink fun hs hp => hc.holds hstart hstop hs hp).same hc.tenant

/-- A record may get a guard, placed on a page that was free, while all
that is held is mapped. -/
theorem claim {h : Handle} {r s : Record} {g : Part} (hin : InStep Nowhere V m.rightsAt)
    (ht : Titled Nowhere V m) (hr : V h = some r) (hg : g ≠ .body)
    (hsame : ∀ n, (m.rightsAt n).isSome → m'.tenant n = m.tenant n)
    (hold : ∀ p n, s.Holds p n → r.Holds p n ∨ p = g ∧ m'.tenant n = some .guard) :
    Titled Nowhere (Function.update V h (some s)) m' := by
  have hstays : ∀ {k t p n}, V k = some t → t.Holds p n → m'.tenant n = m.tenant n :=
    fun hk hp => hsame _ (hin.mapped hk hp not_false)
  have hlook : ∀ {k t p n}, Function.update V h (some s) k = some t → t.Holds p n →
      (∃ j u, V j = some u ∧ u.Holds p n) ∨ p = g ∧ m'.tenant n = some .guard := by
    intro k t p n hk hp
    rw [Function.update_apply] at hk
    split at hk
    · cases hk
      rcases hold p n hp with hp | hnew
      · exact Or.inl ⟨h, r, hr, hp⟩
      · exact Or.inr hnew
    · exact Or.inl ⟨k, t, hk, hp⟩
  constructor
  · intro k t n hk hn _
    rcases hlook (p := .body) hk hn with ⟨j, u, hu, hp⟩ | ⟨hbody, -⟩
    · rw [hstays hu hp]
      exact ht.body hu hp not_false
    · exact absurd hbody.symm hg
  · intro k t p n hk hp hheld _
    rcases hlook hk hheld with ⟨j, u, hu, hold⟩ | ⟨-, hguard⟩
    · rw [hstays hu hold]
      exact ht.guard hu hp hold not_false
    · exact hguard

/-- **Guarding leaves records right about their pages**, where records and
memory are in step. -/
theorem guarding {asked : Bool} (hin : InStep Nowhere V m.rightsAt) (ht : Titled Nowhere V m)
    (hg : Guarding asked V m V' m') : Titled Nowhere V' m' := by
  induction hg with
  | refl => exact ht
  | tell _ he ih => exact ih.same (Machine.tenant_tell _ he)
  | @placeBelow _ m' hg _ _ r hr ih =>
    refine ih.claim (hin.guarding hg) hr (g := .below) (by decide)
      (fun n => (Guard.tenant_placeBelow m' r n).1) fun p n hp => ?_
    rcases Guard.placeBelow_cases m' r with ⟨-, hsame | ⟨n₀, hplaced, -, -⟩⟩
    · rw [hsame] at hp
      exact Or.inl hp
    · cases p with
      | body =>
        rw [hplaced] at hp
        exact Or.inl hp
      | below =>
        rcases (Guard.tenant_placeBelow m' r n).2 hp with hold | hguard
        · exact Or.inl hold
        · exact Or.inr ⟨rfl, hguard⟩
      | above =>
        rw [hplaced] at hp
        exact Or.inl hp
  | @placeAbove _ m' hg _ _ r hr ih =>
    refine ih.claim (hin.guarding hg) hr (g := .above) (by decide)
      (fun n => (Guard.tenant_placeAbove m' r n).1) fun p n hp => ?_
    rcases Guard.placeAbove_cases m' r with ⟨-, hsame | ⟨n₀, hplaced, -, -⟩⟩
    · rw [hsame] at hp
      exact Or.inl hp
    · cases p with
      | body =>
        rw [hplaced] at hp
        exact Or.inl hp
      | below =>
        rw [hplaced] at hp
        exact Or.inl hp
      | above =>
        rcases (Guard.tenant_placeAbove m' r n).2 hp with hold | hguard
        · exact Or.inl hold
        · exact Or.inr ⟨rfl, hguard⟩

end Titled

end PageWarden
