import PageWarden.Proofs.Path.Operation
import PageWarden.Proofs.Run
import PageWarden.Proofs.Tag
/-!
# Keys — none is given back while a page carries it

A key is given back with the last record that has it, and nobody looks at
the pages then. That is right as long as each page that carries the key
of a record is covered by a record with that key (`Locked`): clearing and
guarding keep it so, and so does every operation but one. A move takes
tags along in the record that is found at its start; where it leaves a
page that no record with its key covers, the key may later go while the
page stays. Without such moves no operation gives back a key that a page
carries.
-/

namespace PageWarden

variable {X : Nat → Prop} {V V' : View} {m m' : Machine} {start stop n κ : Nat}
variable {keep : Option Handle} {h k : Handle} {r s : Record}

/-! ## Who locks a page -/

/-- What of a record a key is about: the pages it covers, and its own. -/
def Record.claim (r : Record) : Nat × Nat × Option Nat := (r.base, r.length, r.key)

/-- Guards are not part of it. -/
theorem Record.claim_congr (hs : s.bare = r.bare) : s.claim = r.claim := by
  have hclaim : s.bare.claim = r.bare.claim := congrArg Record.claim hs
  exact hclaim

/-- The claims of all records. -/
def View.claims (V : View) (k : Handle) : Option (Nat × Nat × Option Nat) :=
  (V k).map Record.claim

/-- **A record locks page `n` with key `κ`**, while the pages in `X` go over
to the record under `keep`: there it is that record, and elsewhere another
one that covers the page. -/
def View.Locks (X : Nat → Prop) (keep : Option Handle) (V : View) (κ n : Nat) : Prop :=
  ∃ k r, V k = some r ∧ r.key = some κ ∧
    (X n ∧ some k = keep ∨ ¬ X n ∧ some k ≠ keep ∧ r.Covers n)

namespace View

/-- A record may be replaced by one with the same claim. -/
theorem claims_update (hr : V k = some r) (hs : s.claim = r.claim) :
    View.claims (Function.update V k (some s)) = V.claims := by
  funext j
  unfold View.claims
  rw [Function.update_apply]
  split
  · rename_i hj
    rw [hj, hr, Option.map_some, Option.map_some, hs]
  · rfl

/-- Stores that differ in guards claim the same. -/
theorem claims_of_bare? {s t : Store} (h : t.bare? = s.bare?) :
    View.claims t.get? = View.claims s.get? := by
  funext k
  have hk := congrArg (Option.map Record.claim) (congrFun h k)
  simp only [Store.bare?, Option.map_map] at hk
  exact hk

/-- Where claims are the same, each record has one that claims the same. -/
theorem exists_of_claims (hV : V'.claims = V.claims) (hr : V k = some r) :
    ∃ s, V' k = some s ∧ s.key = r.key ∧ ∀ n, s.Covers n ↔ r.Covers n := by
  have hclaim : (V' k).map Record.claim = some r.claim := by
    have hk := congrFun hV k
    simp only [View.claims, hr, Option.map_some] at hk
    exact hk
  obtain ⟨s, hs, hsame⟩ := Option.map_eq_some_iff.1 hclaim
  obtain ⟨hbase, hrest⟩ := Prod.mk.inj hsame
  obtain ⟨hlength, hkey⟩ := Prod.mk.inj hrest
  refine ⟨s, hs, hkey, fun n => ?_⟩
  unfold Record.Covers Record.stop Record.span
  rw [hbase, hlength]

/-- Keys are a matter of claims. -/
theorem Keys.congr (hκ : V.Keys κ) (hV : V'.claims = V.claims) : V'.Keys κ := by
  obtain ⟨k, r, hr, hkey⟩ := hκ
  obtain ⟨s, hs, hsame, -⟩ := exists_of_claims hV hr
  exact ⟨k, s, hs, hsame.trans hkey⟩

/-- So are locks. -/
theorem Locks.congr (hl : V.Locks X keep κ n) (hV : V'.claims = V.claims) :
    V'.Locks X keep κ n := by
  obtain ⟨k, r, hr, hkey, hwhere⟩ := hl
  obtain ⟨s, hs, hsame, hcovers⟩ := exists_of_claims hV hr
  exact ⟨k, s, hs, hsame.trans hkey,
    hwhere.imp_right fun ⟨hX, hk, hn⟩ => ⟨hX, hk, (hcovers n).2 hn⟩⟩

/-- Who locks a page has the key. -/
theorem Locks.keys (hl : V.Locks X keep κ n) : V.Keys κ := by
  obtain ⟨k, r, hr, hkey, -⟩ := hl
  exact ⟨k, r, hr, hkey⟩

end View

/-! ## Clearing and guarding -/

/-- **Clearing leaves locked what is locked**, if the range goes over. -/
theorem Clearing.locks (hc : Clearing start stop keep V m V' m') (hstart : Aligned start)
    (hstop : Aligned stop) (hX : ∀ n, PageIn start stop n → X n) (hl : V.Locks X keep κ n) :
    V'.Locks X keep κ n := by
  induction hc with
  | refl => exact hl
  | tell _ _ ih => exact ih
  | free _ _ _ ih => exact ih
  | liftBelow _ hr ih =>
    refine ih.congr (View.claims_update hr ?_)
    rw [Guard.removeBelow_fst]
    rfl
  | liftAbove _ hr ih =>
    refine ih.congr (View.claims_update hr ?_)
    rw [Guard.removeAbove_fst]
    rfl
  | forget _ hforget ih =>
    refine ih.congr (funext fun k => ?_)
    unfold View.claims
    rcases hforget k with hsame | ⟨r, hr, hforgot⟩
    · rw [hsame]
    · rw [hforgot, hr]
      rfl
  | @part _ _ _ k j r hr hk hj hjk hshaped hmeets _ _ ih =>
    obtain ⟨i, s, hs, hkey, hwhere⟩ := ih
    by_cases hik : i = k
    · subst hik
      obtain rfl := Option.some.inj (hs.symm.trans hr)
      rcases hwhere with ⟨-, heq⟩ | ⟨hout, -, hn⟩
      · exact absurd heq hk
      · -- the part that covers the page locks it now
        obtain ⟨t, hpart, ht⟩ := (Record.covers_parts hshaped hstart hstop hmeets n).2
          ⟨hn, fun hin => hout (hX n hin)⟩
        obtain ⟨i', hi', ht'⟩ := View.exists_part hr hj hpart
        refine ⟨i', t, ht', hpart.key.trans hkey, Or.inr ⟨hout, ?_, ht⟩⟩
        rcases hi' with rfl | rfl
        · exact hk
        · exact hjk
    · exact ⟨i, s, View.part_of_ne hs hik hj, hkey, hwhere⟩

/-- Clearing tags no page. -/
theorem Clearing.keyAt (hc : Clearing start stop keep V m V' m') (hκ : m'.keyAt n = some κ) :
    m.keyAt n = some κ := by
  refine hc.machine (P := fun v => v.keyAt n = some κ → m.keyAt n = some κ) ?_ ?_ ?_ id hκ
  · exact fun _ h => h
  · intro v key h hκ
    rw [Machine.keyAt_keyFree] at hκ
    exact h hκ
  · exact fun g h hκ => h (Guard.keyAt_of_lift hκ)

/-- Guarding changes no claim and no tag. -/
theorem Guarding.claims {asked : Bool} (hg : Guarding asked V m V' m') :
    V'.claims = V.claims ∧ m'.keyAt = m.keyAt := by
  induction hg with
  | refl => exact ⟨rfl, rfl⟩
  | tell _ _ ih => exact ih
  | @placeBelow _ v _ _ _ r hr ih =>
    refine ⟨(View.claims_update hr ?_).trans ih.1, Eq.trans (funext fun n => ?_) ih.2⟩
    · exact Record.claim_congr (Guard.bare_placeBelow v r)
    · unfold Guard.placeBelow
      split
      · rfl
      · exact Guard.keyAt_place _ _ n
  | @placeAbove _ v _ _ _ r hr ih =>
    refine ⟨(View.claims_update hr ?_).trans ih.1, Eq.trans (funext fun n => ?_) ih.2⟩
    · exact Record.claim_congr (Guard.bare_placeAbove v r)
    · unfold Guard.placeAbove
      split
      · rfl
      · exact Guard.keyAt_place _ _ n

/-! ## The invariant -/

/-- **Tagged pages are locked**: each page that carries the key of a record
is locked with it. The keys of records were issued. -/
structure Locked (X : Nat → Prop) (keep : Option Handle) (V : View) (m : Machine) : Prop where
  issued : m.Issued
  held : ∀ {κ}, V.Keys κ → κ < m.space.nextKey
  locks : ∀ {n κ}, m.keyAt n = some κ → V.Keys κ → V.Locks X keep κ n

namespace Locked

variable {Y : Nat → Prop} {keep' : Option Handle}

/-- **The machine may change**, if what is tagged with the key of a record
is locked. -/
theorem machine (hl : Locked X keep V m) (hcalls : m.Calls m')
    (hlocks : ∀ {n κ}, m'.keyAt n = some κ → V.Keys κ → V.Locks Y keep' κ n) :
    Locked Y keep' V m' := by
  obtain ⟨hissued, hgrow⟩ := hcalls.issued hl.issued
  exact ⟨hissued, fun hκ => Nat.lt_of_lt_of_le (hl.held hκ) hgrow, hlocks⟩

/-- Tags may go, all of them in a range that nobody takes over. -/
theorem untag (hl : Locked X keep V m) (hcalls : m.Calls m')
    (htags : ∀ {n κ}, m'.keyAt n = some κ → m.keyAt n = some κ ∧ (Y n ↔ X n)) :
    Locked Y keep V m' := by
  refine hl.machine hcalls fun htag hκ => ?_
  obtain ⟨hold, hXY⟩ := htags htag
  obtain ⟨k, r, hr, hkey, hwhere⟩ := hl.locks hold hκ
  rw [← hXY] at hwhere
  exact ⟨k, r, hr, hkey, hwhere⟩

/-- Claims are what counts. -/
theorem congr (hl : Locked X keep V m) (hV : V'.claims = V.claims) : Locked X keep V' m :=
  ⟨hl.issued, fun hκ => hl.held (hκ.congr hV.symm),
    fun htag hκ => (hl.locks htag (hκ.congr hV.symm)).congr hV⟩

/-- Clearing leaves tagged pages locked. -/
theorem clearing (hl : Locked X keep V m) (hstart : Aligned start) (hstop : Aligned stop)
    (hX : ∀ n, PageIn start stop n → X n) (hc : Clearing start stop keep V m V' m') :
    Locked X keep V' m' := by
  obtain ⟨hissued, hgrow⟩ := hc.calls.issued hl.issued
  refine ⟨hissued, fun hκ => Nat.lt_of_lt_of_le (hl.held (hc.keys hκ)) hgrow, fun htag hκ => ?_⟩
  exact hc.locks hstart hstop hX (hl.locks (hc.keyAt htag) (hc.keys hκ))

/-- So does guarding. -/
theorem guarding {asked : Bool} (hl : Locked X keep V m) (hg : Guarding asked V m V' m') :
    Locked X keep V' m' := by
  obtain ⟨hclaims, htags⟩ := hg.claims
  refine (hl.congr hclaims).untag hg.calls fun {n κ} htag => ⟨?_, Iff.rfl⟩
  rw [htags] at htag
  exact htag

/-- What nobody takes over is locked by the record that covers it. -/
theorem rest (hl : Locked X none V m) : Locked Nowhere none V m := by
  refine ⟨hl.issued, hl.held, fun htag hκ => ?_⟩
  obtain ⟨k, r, hr, hkey, ⟨-, hnone⟩ | ⟨-, hk, hn⟩⟩ := hl.locks htag hκ
  · cases hnone
  · exact ⟨k, r, hr, hkey, Or.inr ⟨id, hk, hn⟩⟩

/-- **A record may enter**, if it covers the pages that carry its key. -/
theorem enter (hl : Locked X none V m) (hfree : V h = none)
    (hr : ∀ {κ}, r.key = some κ →
      κ < m.space.nextKey ∧ ∀ n, m.keyAt n = some κ → r.Covers n) :
    Locked Nowhere none (Function.update V h (some r)) m := by
  have hkeys : ∀ {κ}, View.Keys (Function.update V h (some r)) κ → r.key = some κ ∨ V.Keys κ :=
    fun hκ => (View.keys_of_update hκ).imp_left fun ⟨_, hs, hkey⟩ => Option.some.inj hs ▸ hkey
  refine ⟨hl.issued, fun hκ => (hkeys hκ).elim (fun hkey => (hr hkey).1) hl.held,
    fun {n κ} htag hκ => ?_⟩
  rcases hkeys hκ with hkey | hold
  · exact ⟨h, r, Function.update_self h _ V, hkey,
      Or.inr ⟨id, Option.some_ne_none h, (hr hkey).2 n htag⟩⟩
  · obtain ⟨k, s, hs, hkey, hwhere⟩ := hl.rest.locks htag hold
    exact ⟨k, s, View.update_of_free hs hfree, hkey, hwhere⟩

/-- **The record that takes the exempt pages over** locks them. -/
theorem rehome (hl : Locked X (some h) V m) (hr : V h = some r) (hkey : s.key = r.key)
    (hs : ∀ n, X n → s.Covers n) :
    Locked Nowhere none (Function.update V h (some s)) m := by
  have hkeys : ∀ {κ}, View.Keys (Function.update V h (some s)) κ → V.Keys κ := by
    intro κ hκ
    rcases View.keys_of_update hκ with ⟨t, ⟨⟩, ht⟩ | hold
    · exact ⟨h, r, hr, hkey.symm.trans ht⟩
    · exact hold
  refine ⟨hl.issued, fun hκ => hl.held (hkeys hκ), fun {n κ} htag hκ => ?_⟩
  obtain ⟨k, t, ht, htκ, ⟨hn, heq⟩ | ⟨-, hk, hn⟩⟩ := hl.locks htag (hkeys hκ)
  · obtain rfl := Option.some.inj heq
    obtain rfl : t = r := Option.some.inj (ht.symm.trans hr)
    exact ⟨k, s, Function.update_self k _ V, hkey.trans htκ,
      Or.inr ⟨id, Option.some_ne_none k, hs n hn⟩⟩
  · refine ⟨k, t, ?_, htκ, Or.inr ⟨id, Option.some_ne_none k, hn⟩⟩
    rw [Function.update_of_ne, ht]
    rintro rfl
    exact hk rfl

/-- **A record may leave** once its pages are gone. -/
theorem leave (hl : Locked Nowhere none V m) (hr : V h = some r)
    (hgone : ∀ n, r.Covers n → m.keyAt n = none) :
    Locked Nowhere none (Function.update V h none) m := by
  have hkeys : ∀ {κ}, View.Keys (Function.update V h none) κ → V.Keys κ :=
    fun hκ => (View.keys_of_update hκ).resolve_left fun ⟨_, hs, _⟩ => nomatch hs
  refine ⟨hl.issued, fun hκ => hl.held (hkeys hκ), fun {n κ} htag hκ => ?_⟩
  obtain ⟨k, s, hs, hkey, ⟨hX, -⟩ | ⟨hX, hk, hn⟩⟩ := hl.locks htag (hkeys hκ)
  · exact hX.elim
  · refine ⟨k, s, ?_, hkey, Or.inr ⟨hX, hk, hn⟩⟩
    rw [Function.update_of_ne, hs]
    rintro rfl
    obtain rfl : s = r := Option.some.inj (hs.symm.trans hr)
    rw [hgone n hn] at htag
    cases htag

end Locked

/-- **Clearing gives back keys that no page carries**, where tagged pages
are locked. -/
theorem Clearing.freesUnused (hc : Clearing start stop keep V m V' m') (hl : Locked X keep V m)
    (hstart : Aligned start) (hstop : Aligned stop) (hX : ∀ n, PageIn start stop n → X n) :
    m.Path FreesUnused m' := by
  refine hc.path (fun _ _ _ _ _ heq => nomatch heq) fun {U v κ} hc' hheld hno κ' n heq htag => ?_
  cases heq
  -- the key was held at first, so a page that still carries it is locked by a record that has it
  exact hno (hc'.locks hstart hstop hX (hl.locks (hc'.keyAt htag) hheld)).keys

end PageWarden
