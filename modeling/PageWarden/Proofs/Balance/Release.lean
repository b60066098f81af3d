import PageWarden.Proofs.Cut
import PageWarden.Proofs.Steps
import PageWarden.Proofs.Tag
/-!
# Keys — what is given back, and when

A key can be given back long before an operation ends, and what counts
then is not the store the operation leaves. A release (`Release`) is a
key together with the warden at the moment the key is given back, and
`Warden.releases` names the releases of an operation in order. There are
four ways to give a key back. A record is dropped whole by one of the
operation's cuts, or given up with execute-only memory; a key turns out
to be of no use; and everything is torn down.

The warden of a release is one that the operation comes by. Its machine
lies on the way of the operation, and the journal has the call there
(`Release.Within`); its store is the one that the cut leaves, or the
operation (`store_of_release`).

The journal says which keys were in fact given back (`Machine.freed`). It
only grows (`Machine.Calls.journal`), and calls that neither issue a key nor
give one back add nothing to it that is about keys (`Machine.SameKeys`).
-/

namespace PageWarden

/-! ## The journal of keys -/

/-- The key that a call gives back. -/
def Call.freed : Call → Option Nat
  | .keyFree κ => some κ
  | _ => none

/-- The call neither issues a key nor gives one back. -/
def Act.Keyless : Act → Prop
  | .keyAlloc _ => False
  | .keyFree _ => False
  | _ => True

namespace Machine

variable {m m' m'' : Machine}

/-- The keys that were given back, in order. -/
def freed (m : Machine) : List Nat := m.calls.filterMap Call.freed

/-- `m` comes to `m'` by calls that neither issue a key nor give one back. -/
abbrev Keyless (m m' : Machine) : Prop := Path (fun _ c => c.Keyless) m m'

/-- A call is added to the journal, whatever comes of it. -/
theorem journal_perform {α : Type} (m : Machine) (p : Primitive)
    (act : Space → Except Errno α × Space) (entry : Except Errno α → Call) :
    m.journal <+: (m.perform p act entry).2.journal :=
  List.prefix_append _ _

/-- **Nothing is ever taken out of the journal.** -/
theorem Calls.journal (h : m.Calls m') : m.journal <+: m'.journal := by
  induction h with
  | refl => exact List.prefix_refl _
  | tell _ _ ih => exact ih.trans (List.prefix_append _ _)
  | map _ _ ih => exact ih.trans (journal_perform _ _ _ _)
  | unmap _ _ _ ih => exact ih.trans (journal_perform _ _ _ _)
  | protect _ _ _ _ ih => exact ih.trans (journal_perform _ _ _ _)
  | move _ _ ih => exact ih.trans (journal_perform _ _ _ _)
  | fill _ _ _ _ ih => exact ih.trans (List.prefix_append _ _)
  | copy _ _ _ ih => exact ih.trans (List.prefix_append _ _)
  | keyAlloc _ _ ih =>
    unfold Machine.keyAlloc
    split
    · exact ih.trans (journal_perform _ _ _ _)
    · exact ih
  | keyProtect _ _ _ _ _ ih =>
    unfold Machine.keyProtect
    split
    · exact ih.trans (journal_perform _ _ _ _)
    · exact ih
  | keyRights _ _ ih =>
    unfold Machine.keyRights
    split
    · exact ih.trans (List.prefix_append _ _)
    · exact ih
  | keyFree _ _ ih =>
    unfold Machine.keyFree
    split
    · exact ih.trans (List.prefix_append _ _)
    · exact ih

/-- **What is known of keys is the same** after some calls: the register, and
the keys that were given back. -/
structure SameKeys (m m' : Machine) : Prop where
  calls : m.Calls m'
  register : m'.space.register = m.space.register
  freed : m'.freed = m.freed

namespace SameKeys

theorem refl : m.SameKeys m := ⟨.refl, rfl, rfl⟩

theorem trans (h : m.SameKeys m') (h' : m'.SameKeys m'') : m.SameKeys m'' :=
  ⟨h.calls.trans h'.calls, h'.register.trans h.register, h'.freed.trans h.freed⟩

/-- The same keys are in use. -/
theorem allocated (h : m.SameKeys m') (κ : Nat) :
    m'.space.Allocated κ ↔ m.space.Allocated κ := by
  have hkeys : m'.space.keys = m.space.keys := congrArg Prod.snd h.register
  unfold Space.Allocated
  rw [hkeys]

/-- The next key is the same. -/
theorem nextKey (h : m.SameKeys m') : m'.space.nextKey = m.space.nextKey :=
  congrArg Prod.fst h.register

end SameKeys

/-- An entry that is no call gives no key back. -/
theorem freed_tell (m : Machine) (e : Event) : (m.tell e).freed = m.freed := by
  unfold freed calls tell
  rw [List.filterMap_append, List.filterMap_append]
  exact List.append_nil _

/-- What an entry of the journal gives back is added. -/
theorem freed_call {c : Call} (h : m'.journal = m.journal ++ [.call c]) :
    m'.freed = m.freed ++ c.freed.toList := by
  unfold freed calls
  rw [h, List.filterMap_append, List.filterMap_append]
  rfl

/-- Telling has nothing to do with keys. -/
theorem sameKeys_tell (m : Machine) (e : Event) : m.SameKeys (m.tell e) :=
  ⟨Calls.refl.tell e, rfl, freed_tell m e⟩

/-- A primitive that gives no key back leaves the journal of keys alone. -/
theorem freed_perform {α : Type} (m : Machine) (p : Primitive)
    (act : Space → Except Errno α × Space) {entry : Except Errno α → Call}
    (hentry : ∀ o, (entry o).freed = none) : (m.perform p act entry).2.freed = m.freed := by
  rw [freed_call (c := entry (m.perform p act entry).1) rfl, hentry]
  exact List.append_nil _

/-- Placing a guard gives no key back. -/
theorem freed_place (m : Machine) (a : Nat) : (Guard.place m a).2.freed = m.freed := by
  have hmap : (m.map (Guard.request a)).2.freed = m.freed := freed_perform _ _ _ fun _ => rfl
  unfold Guard.place
  split <;> rename_i hq <;> rw [hq] at hmap
  · split
    · exact (freed_tell _ _).trans hmap
    · exact (freed_tell _ _).trans ((freed_perform _ _ _ fun _ => rfl).trans hmap)
  · exact (freed_tell _ _).trans hmap

/-- Nor does a call that neither issues a key nor gives one back. -/
theorem freed_act {c : Act} (hc : c.Keyless) (m : Machine) : (m.act c).freed = m.freed := by
  cases c with
  | map q => exact freed_perform _ _ _ fun _ => rfl
  | unmap a l => exact freed_perform _ _ _ fun _ => rfl
  | protect a l ρ => exact freed_perform _ _ _ fun _ => rfl
  | move q => exact freed_perform _ _ _ fun _ => rfl
  | fill a l byte =>
    exact (freed_call (m := m) (c := .fill a l byte) rfl).trans (List.append_nil _)
  | copy a bytes => exact (freed_call (m := m) (c := .copy a bytes) rfl).trans (List.append_nil _)
  | keyAlloc ρ => exact hc.elim
  | keyProtect a l ρ κ =>
    simp only [act, keyProtect]
    split
    · exact freed_perform _ _ _ fun _ => rfl
    · rfl
  | keyRights κ =>
    simp only [act, keyRights]
    split
    · exact (freed_call (m := m) (c := .keyRights κ (m.space.keyRights κ)) rfl).trans
        (List.append_nil _)
    · rfl
  | keyFree κ => exact hc.elim
  | place a => exact freed_place m a

/-- **A call that neither issues a key nor gives one back** has nothing to do
with keys. -/
theorem sameKeys_act {c : Act} (hc : c.Keyless) (m : Machine) : m.SameKeys (m.act c) := by
  have hpath : m.Keyless (m.act c) := Path.refl.act c hc
  refine ⟨hpath.calls, ?_, freed_act hc m⟩
  rcases m.register_act c with hsame | ⟨_, rfl, -⟩ | ⟨_, rfl, -⟩
  · exact hsame
  · exact hc.elim
  · exact hc.elim

/-- A primitive that issues keys gives none back. -/
theorem freed_keyAlloc (m : Machine) (σ : KeyRights) : (m.keyAlloc σ).2.freed = m.freed := by
  unfold keyAlloc
  split
  · exact freed_perform _ _ _ fun _ => rfl
  · rfl

/-- Where no key is to be had, nothing is known of keys that was not. -/
theorem sameKeys_keyAlloc {σ : KeyRights} {errno : Errno}
    (h : (m.keyAlloc σ).1 = .error errno) : m.SameKeys (m.keyAlloc σ).2 := by
  refine ⟨Calls.refl.keyAlloc σ, ?_, freed_keyAlloc m σ⟩
  rcases m.keyAlloc_cases σ with ⟨e, m', halloc, hs, -⟩ | ⟨m', halloc, -⟩
  · rw [halloc, hs]
  · rw [halloc] at h
    cases h

/-- A path of calls that have nothing to do with keys has nothing to do with
them either. -/
theorem Path.sameKeys (h : m.Keyless m') : m.SameKeys m' :=
  h.keeps (P := fun v => m.SameKeys v) .refl (fun v e hv => hv.trans (sameKeys_tell v e))
    fun v _ hc hv => hv.trans (sameKeys_act hc v)

end Machine

/-! ## Releases -/

/-- A key, and the warden at the moment the key is given back. -/
structure Release where
  key : Nat
  warden : Warden

/-- **The release is due**: the key is in use at that moment, and no record
holds it. -/
structure Release.Due (ρ : Release) : Prop where
  allocated : ρ.warden.machine.space.Allocated ρ.key
  unheld : ¬ View.Keys ρ.warden.store.get? ρ.key

/-- **The release happened between `m` and `m'`**: calls lead from `m` to the
machine of the release and, once the key is given back there, on to `m'`;
and the journal of `m'` has the call at that moment. -/
structure Release.Within (ρ : Release) (m m' : Machine) : Prop where
  begun : m.Calls ρ.warden.machine
  ended : (ρ.warden.machine.keyFree ρ.key).Calls m'
  noted : ρ.warden.machine.journal ++ [.call (.keyFree ρ.key)] <+: m'.journal

namespace Warden

/-- What `Warden.releaseKey` gives back. -/
def keyReleases (w : Warden) (r : Record) : List Release :=
  match r.key with
  | none => []
  | some κ => if w.store.records.any (·.key = some κ) then [] else [⟨κ, w⟩]

/-- What dropping a record gives back. -/
def dropReleases (w : Warden) (h : Handle) (r : Record) : List Release :=
  match w.store.remove h with
  | none => []
  | some (_, store) =>
    let bare := Guard.removeAll w.machine r
    keyReleases { w with store, machine := bare.2 } bare.1

end Warden

/-- What a cut gives back, if it drops the record. -/
def Cut.releases (c : Cut) : List Release :=
  match c.warden.store.get? c.handle with
  | none => []
  | some found =>
    let r := found.forgetWithin c.start c.stop
    if c.start ≤ r.base ∧ r.stop pageSize ≤ c.stop then c.warden.dropReleases c.handle r else []

namespace Warden

variable (w : Warden)

/-- What sealing gives back: a key with which no page could be tagged. -/
def sealReleases (address size : Nat) : List Release :=
  match w.machine.keyAlloc .disableAccess with
  | (.error _, _) => []
  | (.ok κ, m) =>
    match m.keyProtect address size .exec κ with
    | (.ok (), _) => []
    | (.error _, m) => [⟨κ, { w with machine := m }⟩]

/-- What making execute-only memory gives back. -/
def makeReleases (size : Nat) (code : List UInt8) : List Release :=
  match w.reserve size code.length with
  | (.error _, _) => []
  | (.ok a, v) => sealReleases { v with machine := v.machine.copy a code } a size

/-- What a release of execute-only memory gives back, once it is given up. -/
def giveUpReleases (address length : Nat) : List Release :=
  match w.surrender address length with
  | (.error _, _) => []
  | (.ok r, v) => v.keyReleases r

/-- What giving keys back one after the other gives back. -/
def freeReleases : List Nat → Warden → List Release
  | [], _ => []
  | κ :: rest, w => ⟨κ, w⟩ :: freeReleases rest { w with machine := w.machine.keyFree κ }

/-- What giving everything up gives back. -/
def teardownReleases : List Release :=
  let cleared := w.store.clear
  freeReleases (cleared.1.filterMap Record.key).eraseDups.mergeSort { w with store := cleared.2 }

/-- **The releases of an operation**, in order. Where the operation cuts
records, they are those of its cuts. -/
def releases : Operation → List Release
  | .makeExecuteOnly s c => w.makeReleases s c
  | .releaseExecuteOnly a l => w.giveUpReleases a l
  | .teardown => w.teardownReleases
  | op => (w.cuts op).flatMap Cut.releases

variable {w : Warden} {ρ : Release}

/-! ## The store at a release -/

/-- The key of a record is given back by the warden that is asked to. -/
theorem warden_of_keyReleases {r : Record} (hρ : ρ ∈ w.keyReleases r) : ρ.warden = w := by
  unfold keyReleases at hρ
  split at hρ
  · cases hρ
  · split at hρ
    · cases hρ
    · rw [List.mem_singleton.1 hρ]

end Warden

/-- A cut that gives a key back has taken the record out of the store by
then, and leaves the store so. -/
theorem Cut.store_of_releases {c : Cut} {ρ : Release} (hρ : ρ ∈ c.releases) :
    ρ.warden.store = c.result.store := by
  unfold Cut.releases at hρ
  unfold Cut.result Warden.cut
  cases hfound : c.warden.store.get? c.handle with
  | none =>
    rw [hfound] at hρ
    cases hρ
  | some found =>
    simp only [hfound] at hρ ⊢
    -- a record gives its key back only if it lies in the range as a whole
    by_cases hwhole : c.start ≤ (found.forgetWithin c.start c.stop).base ∧
        (found.forgetWithin c.start c.stop).stop pageSize ≤ c.stop
    · rw [if_pos hwhole] at hρ
      rw [if_pos hwhole.1, if_pos hwhole.2]
      unfold Warden.dropReleases at hρ
      unfold Warden.dropRecord
      rcases hremove : c.warden.store.remove c.handle with _ | ⟨r, t⟩
      · rw [hremove] at hρ
        cases hρ
      · simp only [hremove] at hρ ⊢
        rw [Warden.warden_of_keyReleases hρ]
        exact (Warden.store_releaseKey _ _).symm
    · rw [if_neg hwhole] at hρ
      cases hρ

namespace Warden

variable {w : Warden} {ρ : Release}

/-- Sealing fails if it gives a key back, and the records have no part in it. -/
theorem sealPages_of_release {a size : Nat} (hρ : ρ ∈ w.sealReleases a size) :
    ρ.warden.store = w.store ∧
      ∃ f, sealPages w.machine a size = (.error f, ρ.warden.machine.keyFree ρ.key) := by
  unfold sealReleases at hρ
  unfold sealPages
  rcases halloc : w.machine.keyAlloc .disableAccess with ⟨errno | κ, m⟩
  · rw [halloc] at hρ
    cases hρ
  · rcases htag : m.keyProtect a size .exec κ with ⟨errno | ⟨⟩, m'⟩
    · simp only [halloc, htag] at hρ
      rw [List.mem_singleton.1 hρ]
      exact ⟨rfl, .keyProtectFailed errno, by simp only [htag]⟩
    · simp only [halloc, htag] at hρ
      cases hρ

/-- Keys are given back one after the other with the same records. -/
theorem store_of_freeReleases {keys : List Nat} (hρ : ρ ∈ freeReleases keys w) :
    ρ.warden.store = w.store := by
  induction keys generalizing w with
  | nil => cases hρ
  | cons κ keys ih =>
    rcases List.mem_cons.1 hρ with rfl | hrest
    · rfl
    · exact ih (w := { w with machine := w.machine.keyFree κ }) hrest

/-- **The store at a release** is the one that the cut leaves which gives the
key back, or, where no cut does, the one that the operation leaves. -/
theorem store_of_release {op : Operation} (hρ : ρ ∈ w.releases op) :
    (∃ c ∈ w.cuts op, ρ ∈ c.releases ∧ ρ.warden.store = c.result.store) ∨
      ρ.warden.store = (w.perform op).2.store := by
  cases op with
  | create | remove | reprotect | relocate =>
    obtain ⟨c, hc, hmem⟩ := List.mem_flatMap.1 hρ
    exact Or.inl ⟨c, hc, hmem, c.store_of_releases hmem⟩
  | makeExecuteOnly s c =>
    refine Or.inr ?_
    show _ = (w.makeExecuteOnly s c).2.store
    have hmem : ρ ∈ w.makeReleases s c := hρ
    unfold makeReleases at hmem
    unfold makeExecuteOnly
    rcases hreserve : w.reserve s c.length with ⟨f | a, v⟩
    · rw [hreserve] at hmem
      cases hmem
    · rw [hreserve] at hmem
      obtain ⟨hstore, f, hseal⟩ := sealPages_of_release hmem
      unfold enclose
      simp only [hseal]
      exact hstore
  | releaseExecuteOnly a l =>
    refine Or.inr ?_
    show _ = (w.releaseExecuteOnly a l).2.store
    have hmem : ρ ∈ w.giveUpReleases a l := hρ
    unfold giveUpReleases at hmem
    unfold releaseExecuteOnly
    rcases hgone : w.surrender a l with ⟨f | r, v⟩
    · rw [hgone] at hmem
      cases hmem
    · rw [hgone] at hmem
      rw [warden_of_keyReleases hmem]
      exact (store_releaseKey v r).symm
  | teardown => exact Or.inr (store_of_freeReleases (w := { w with store := w.store.clear.2 }) hρ)

end Warden

end PageWarden
