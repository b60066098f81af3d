import Mathlib.Logic.Function.Basic
import PageWarden.Machine
import PageWarden.Proofs.Placement
/-!
# Memory — what the primitives do to it

Of a page, most of what follows asks one thing only: is it mapped, and if
so with which rights. `Machine.rightsAt` is that view; `Machine.keyAt` is
the other one, the key a page is tagged with. Each primitive is described
by what it does to every page (`Machine.pageAt`), on success and on
failure, and from there to both views; a fault, a platform that does not
know a flag, and a search for room show in them in no other way.

Ranges are read by address here (`PageIn`), since records and requests
name addresses; `inRange_iff_pageIn` ties them to the numbers the page
table goes by.
-/

namespace PageWarden

/-! ## Ranges by address -/

/-- Page `n` starts in `[start, stop)`. -/
def PageIn (start stop n : Nat) : Prop := start ≤ n * pageSize ∧ n * pageSize < stop

instance (start stop n : Nat) : Decidable (PageIn start stop n) :=
  inferInstanceAs (Decidable (_ ∧ _))

/-- The pages of an aligned range, by number and by address. -/
theorem inRange_iff_pageIn {address length n : Nat} (h : Aligned address) :
    PageTable.InRange (pageOf address) (pagesFor length) n ↔
      PageIn address (address + roundUp length pageSize) n := by
  simp only [PageTable.InRange, PageIn, Aligned, pageOf, pagesFor, roundUp, pageSize] at *
  omega

/-- They are so many pages behind the first of them. -/
theorem pageIn_iff_exists {address length n : Nat} (h : Aligned address) :
    PageIn address (address + roundUp length pageSize) n ↔
      ∃ i < pagesFor length, n = pageOf address + i := by
  rw [← inRange_iff_pageIn h]
  simp only [PageTable.InRange]
  constructor
  · rintro ⟨hle, hlt⟩
    exact ⟨n - pageOf address, by omega, by omega⟩
  · rintro ⟨i, hi, rfl⟩
    exact ⟨by omega, by omega⟩

/-- The page that starts at an aligned address has its number. -/
theorem mul_pageSize_eq_iff {address n : Nat} (h : Aligned address) :
    n * pageSize = address ↔ n = pageOf address := by
  simp only [Aligned, pageOf, pageSize] at *
  omega

/-- A range with bytes in it has the page it begins on. -/
theorem pageIn_first {address length : Nat} (h : Aligned address) (hlen : 0 < length) :
    PageIn address (address + roundUp length pageSize) (pageOf address) := by
  have hle := le_roundUp length
  unfold PageIn
  rw [pageOf_mul_pageSize h]
  omega

/-- The empty range has no pages. -/
theorem of_pageIn_zero {X : Prop} {n : Nat} (h : PageIn 0 0 n) : X :=
  absurd h.2 (Nat.not_lt_zero _)

/-- It begins and ends on a page. -/
theorem aligned_zero : Aligned 0 := rfl

/-! ## The view of a page -/

namespace Machine

/-- The rights of page `n`, if it is mapped. -/
def rightsAt (m : Machine) (n : Nat) : Option Rights := (m.space.table.get? n).map Page.rights

/-- Page `n` as it is mapped, if it is. -/
def pageAt (m : Machine) (n : Nat) : Option Page := m.space.table.get? n

/-- The key that page `n` is tagged with. -/
def keyAt (m : Machine) (n : Nat) : Option Nat := (m.pageAt n).bind Page.key

@[simp] theorem rightsAt_tell (m : Machine) (e : Event) : (m.tell e).rightsAt = m.rightsAt := rfl

/-- The rights of a page are those of the page as it is mapped. -/
theorem rightsAt_eq (m : Machine) (n : Nat) : m.rightsAt n = (m.pageAt n).map Page.rights := rfl

/-- Where the pages are the same, so are their rights. -/
theorem rightsAt_congr {m m' : Machine} {n k : Nat} (h : m'.pageAt n = m.pageAt k) :
    m'.rightsAt n = m.rightsAt k := by
  rw [rightsAt_eq, h, rightsAt_eq]

/-- So are their keys. -/
theorem keyAt_congr {m m' : Machine} {n k : Nat} (h : m'.pageAt n = m.pageAt k) :
    m'.keyAt n = m.keyAt k := by
  rw [keyAt, h, keyAt]

/-- The pages of a space are its machine's. -/
theorem pageAt_of_space {m m' : Machine} (h : m'.space = m.space) : m'.pageAt = m.pageAt := by
  funext n
  rw [pageAt, h, pageAt]

/-- A page is mapped when it has rights. -/
theorem isSome_rightsAt (m : Machine) (n : Nat) :
    (m.rightsAt n).isSome = m.space.table.isMapped n := by
  simp [rightsAt, PageTable.isMapped]

/-- A page without rights is not mapped. -/
theorem rightsAt_eq_none_iff {m : Machine} {n : Nat} :
    m.rightsAt n = none ↔ m.space.table.get? n = none := by
  simp [rightsAt]

/-! ## Calls -/

/-- A call either fails by a fault and leaves memory alone, or does what
its action says. -/
theorem perform_cases {α : Type} (m : Machine) (p : Primitive)
    (act : Space → Except Errno α × Space) (entry : Except Errno α → Call) :
    (∃ errno, (m.perform p act entry).1 = .error errno ∧
        (m.perform p act entry).2.space = m.space) ∨
      ((m.perform p act entry).1 = (act m.space).1 ∧
        (m.perform p act entry).2.space = (act m.space).2) := by
  cases hdue : (m.faults.next p).1 with
  | some errno => exact Or.inl ⟨errno, by simp only [perform, hdue], by simp only [perform, hdue]⟩
  | none => exact Or.inr ⟨by simp only [perform, hdue], by simp only [perform, hdue]⟩

/-- What succeeds did what its action says. -/
theorem perform_ok {α : Type} {m m' : Machine} {p : Primitive} {a : α}
    {act : Space → Except Errno α × Space} {entry : Except Errno α → Call}
    (h : m.perform p act entry = (.ok a, m')) : act m.space = (.ok a, m'.space) := by
  rcases perform_cases m p act entry with ⟨errno, h1, -⟩ | ⟨h1, h2⟩
  · rw [h] at h1
    cases h1
  · rw [h] at h1 h2
    exact Prod.ext h1.symm h2.symm

/-- What fails did nothing, or failed as its action says. -/
theorem perform_error {α : Type} {m m' : Machine} {p : Primitive} {errno : Errno}
    {act : Space → Except Errno α × Space} {entry : Except Errno α → Call}
    (h : m.perform p act entry = (.error errno, m')) :
    m'.space = m.space ∨ act m.space = (.error errno, m'.space) := by
  rcases perform_cases m p act entry with ⟨_, -, h2⟩ | ⟨h1, h2⟩
  · rw [h] at h2
    exact Or.inl h2
  · rw [h] at h1 h2
    exact Or.inr (Prod.ext h1.symm h2.symm)

/-- Where nothing is scheduled for it, a call does what its action says. -/
theorem perform_of_unscheduled {α : Type} {m : Machine} {p : Primitive} (hm : m.faults p = [])
    (act : Space → Except Errno α × Space) (entry : Except Errno α → Call) :
    (m.perform p act entry).1 = (act m.space).1 := by
  simp only [perform, Faults.next, hm]

/-- A call uses up its own schedule and no other. -/
theorem faults_perform {α : Type} (m : Machine) {p p' : Primitive}
    (act : Space → Except Errno α × Space) (entry : Except Errno α → Call) (h : p' ≠ p) :
    (m.perform p act entry).2.faults p' = m.faults p' := by
  simp only [perform, Faults.next]
  split
  · rfl
  · exact if_neg h

/-- Mapping leaves the schedule of unmapping alone. -/
theorem faults_map_unmap (m : Machine) (q : MapRequest) :
    (m.map q).2.faults .unmap = m.faults .unmap :=
  faults_perform m _ _ (by decide)

/-! ## Mapping -/

variable {m m' : Machine}

/-- A mapping that fails leaves memory alone. -/
theorem space_of_map_error {q : MapRequest} {errno : Errno}
    (h : m.map q = (.error errno, m')) : m'.space = m.space := by
  rcases perform_error h with hs | hs
  · exact hs
  · simp only [Space.map] at hs
    split at hs
    · exact (congrArg Prod.snd hs).symm
    · split at hs
      · exact (congrArg Prod.snd hs).symm
      · split at hs
        · exact (congrArg Prod.snd hs).symm
        · cases hs

/-- A mapping that succeeds chose its first page and filled its range. -/
theorem choosePage_of_map {q : MapRequest} {a : Nat} (h : m.map q = (.ok a, m')) :
    0 < q.length ∧ ∃ first, a = first * pageSize ∧
      m.space.choosePage q.address (pagesFor q.length) (m.seenFlags q.flags) = .ok first ∧
      m'.space = { m.space with
        table := m.space.table.fill first (pagesFor q.length) (.fresh q.rights) } := by
  have hs := perform_ok h
  simp only [Space.map] at hs
  split at hs
  · cases hs
  · split at hs
    · cases hs
    · rename_i hlen
      split at hs
      · cases hs
      · rename_i first hfirst
        simp only [Prod.mk.injEq, Except.ok.injEq] at hs
        exact ⟨Nat.pos_of_ne_zero hlen, first, hs.1.symm, hfirst, hs.2.symm⟩

/-- **A mapping fills its range with fresh pages**, and touches no other. -/
theorem pageAt_map {q : MapRequest} {a : Nat} (h : m.map q = (.ok a, m')) (n : Nat) :
    m'.pageAt n =
      if PageIn a (a + roundUp q.length pageSize) n then some (.fresh q.rights)
      else m.pageAt n := by
  obtain ⟨-, first, rfl, -, hs⟩ := choosePage_of_map h
  have hrange : PageTable.InRange (pageOf (first * pageSize)) (pagesFor q.length) n ↔ _ :=
    inRange_iff_pageIn (aligned_mul_pageSize first)
  rw [pageOf_start] at hrange
  simp only [pageAt, hs, PageTable.get?_fill, hrange]

/-- **A mapping shows its rights in its range, and nothing elsewhere.** -/
theorem rightsAt_map {q : MapRequest} {a : Nat} (h : m.map q = (.ok a, m')) (n : Nat) :
    m'.rightsAt n =
      if PageIn a (a + roundUp q.length pageSize) n then some q.rights else m.rightsAt n := by
  rw [rightsAt_eq, pageAt_map h]
  split <;> rfl

/-- What a mapping brings has no key. -/
theorem keyAt_map {q : MapRequest} {a : Nat} (h : m.map q = (.ok a, m')) (n : Nat) :
    m'.keyAt n =
      if PageIn a (a + roundUp q.length pageSize) n then none else m.keyAt n := by
  rw [keyAt, pageAt_map h]
  split <;> rfl

/-- What carries a key after a mapping lies outside of it. -/
theorem keyAt_of_map {q : MapRequest} {a n κ : Nat} (h : m.map q = (.ok a, m'))
    (hκ : m'.keyAt n = some κ) :
    ¬ PageIn a (a + roundUp q.length pageSize) n ∧ m.keyAt n = some κ := by
  rw [keyAt_map h] at hκ
  split at hκ
  · cases hκ
  · rename_i hout
    exact ⟨hout, hκ⟩

/-- A mapping starts on a page and is not empty. -/
theorem aligned_of_map {q : MapRequest} {a : Nat} (h : m.map q = (.ok a, m')) :
    Aligned a ∧ 0 < q.length := by
  obtain ⟨hlen, first, rfl, -⟩ := choosePage_of_map h
  exact ⟨aligned_mul_pageSize first, hlen⟩

/-- **A mapping that replaces nothing takes free pages.** The flags say so
on every platform: one that ignores the flag against replacing takes the
address for a hint. -/
theorem rightsAt_of_map_of_not_fixed {q : MapRequest} {a : Nat} (h : m.map q = (.ok a, m'))
    (hflags : q.flags.fixed = false) {n : Nat}
    (hn : PageIn a (a + roundUp q.length pageSize) n) : m.rightsAt n = none := by
  obtain ⟨-, first, rfl, hfirst, -⟩ := choosePage_of_map h
  -- dropping a flag the system does not know does not make a request binding
  have hseen : (m.seenFlags q.flags).fixed = false := by
    unfold seenFlags
    split
    · exact hflags
    · simp only [MapFlags.fixed, MapFlags.withoutNoReplace, bne_eq_false_iff_eq] at hflags ⊢
      rw [BitVec.and_assoc, BitVec.and_comm (~~~_), ← BitVec.and_assoc, hflags]
      rfl
  have hreplaces : (m.seenFlags q.flags).fixed = true →
      (m.seenFlags q.flags).noReplace = true := fun hfixed =>
    absurd (hseen.symm.trans hfixed) Bool.false_ne_true
  have hfree := PageTable.isFree_iff.1 (Space.isFree_of_choosePage hreplaces hfirst)
  rw [rightsAt_eq_none_iff]
  refine hfree n ?_
  rw [← pageOf_start first]
  exact (inRange_iff_pageIn (aligned_mul_pageSize first)).2 hn

/-! ## Unmapping -/

/-- An unmapping that fails leaves memory alone. -/
theorem space_of_unmap_error {address length : Nat} {errno : Errno}
    (h : m.unmap address length = (.error errno, m')) : m'.space = m.space := by
  rcases perform_error h with hs | hs
  · exact hs
  · simp only [Space.unmap] at hs
    split at hs
    · exact (congrArg Prod.snd hs).symm
    · cases hs

/-- An unmapped range starts on a page and is not empty. -/
theorem aligned_of_unmap {address length : Nat} (h : m.unmap address length = (.ok (), m')) :
    Aligned address ∧ 0 < length := by
  have hs := perform_ok h
  simp only [Space.unmap] at hs
  split at hs
  · cases hs
  · rename_i hgood
    simp only [not_or, Classical.not_not] at hgood
    exact ⟨hgood.1, Nat.pos_of_ne_zero hgood.2⟩

/-- A range that starts on a page and is not empty is unmapped, where no
unmapping is scheduled to fail. -/
theorem unmap_of_aligned {address length : Nat} (hm : m.faults .unmap = [])
    (ha : Aligned address) (hlen : 0 < length) : (m.unmap address length).1 = .ok () := by
  have hgood : ¬ (¬ Aligned address ∨ length = 0) := by
    rintro (hodd | hzero)
    · exact hodd ha
    · omega
  rw [unmap, perform_of_unscheduled hm, Space.unmap, if_neg hgood]

/-- **An unmapping takes its range and nothing else.** -/
theorem pageAt_unmap {address length : Nat} (h : m.unmap address length = (.ok (), m'))
    (n : Nat) :
    m'.pageAt n =
      if PageIn address (address + roundUp length pageSize) n then none else m.pageAt n := by
  have hs := perform_ok h
  simp only [Space.unmap] at hs
  split at hs
  · cases hs
  · have hspace := (congrArg Prod.snd hs).symm
    simp only at hspace
    simp only [pageAt, hspace, PageTable.get?_erase,
      inRange_iff_pageIn (aligned_of_unmap h).1]

/-- What is unmapped has no rights any more. -/
theorem rightsAt_unmap {address length : Nat} (h : m.unmap address length = (.ok (), m'))
    (n : Nat) :
    m'.rightsAt n =
      if PageIn address (address + roundUp length pageSize) n then none else m.rightsAt n := by
  rw [rightsAt_eq, pageAt_unmap h]
  split <;> rfl

/-- What is mapped afterwards lies outside of the range. -/
theorem isSome_rightsAt_of_unmap {address length n : Nat}
    (h : m.unmap address length = (.ok (), m')) (hn : (m'.rightsAt n).isSome) :
    ¬ PageIn address (address + roundUp length pageSize) n ∧ (m.rightsAt n).isSome := by
  rw [rightsAt_unmap h] at hn
  split at hn
  · cases hn
  · rename_i hout
    exact ⟨hout, hn⟩

/-- Nor has it a key. -/
theorem keyAt_unmap {address length : Nat} (h : m.unmap address length = (.ok (), m'))
    (n : Nat) :
    m'.keyAt n =
      if PageIn address (address + roundUp length pageSize) n then none else m.keyAt n := by
  rw [keyAt, pageAt_unmap h]
  split <;> rfl

/-- What carries a key afterwards lies outside of the range. -/
theorem keyAt_of_unmap {address length n κ : Nat} (h : m.unmap address length = (.ok (), m'))
    (hκ : m'.keyAt n = some κ) :
    ¬ PageIn address (address + roundUp length pageSize) n ∧ m.keyAt n = some κ := by
  rw [keyAt_unmap h] at hκ
  split at hκ
  · cases hκ
  · rename_i hout
    exact ⟨hout, hκ⟩

/-! ## Changing protection -/

/-- A protection change that fails leaves memory alone. -/
theorem space_of_protect_error {address length : Nat} {rights : Rights} {errno : Errno}
    (h : m.protect address length rights = (.error errno, m')) : m'.space = m.space := by
  rcases perform_error h with hs | hs
  · exact hs
  · simp only [Space.protect] at hs
    split at hs
    · exact (congrArg Prod.snd hs).symm
    · split at hs
      · exact (congrArg Prod.snd hs).symm
      · cases hs

/-- A range whose protection changes starts on a page and is mapped
throughout. -/
theorem aligned_of_protect {address length : Nat} {rights : Rights}
    (h : m.protect address length rights = (.ok (), m')) : Aligned address := by
  have hs := perform_ok h
  simp only [Space.protect] at hs
  split at hs
  · cases hs
  · rename_i ha
    exact Classical.not_not.1 ha

/-- **A protection change finds its range mapped** and writes the rights
into each of its pages. -/
theorem pageAt_protect {address length : Nat} {rights : Rights}
    (h : m.protect address length rights = (.ok (), m')) (n : Nat) :
    (PageIn address (address + roundUp length pageSize) n → (m.pageAt n).isSome = true) ∧
      m'.pageAt n =
        if PageIn address (address + roundUp length pageSize) n then
          (m.pageAt n).map fun p => { p with rights }
        else m.pageAt n := by
  have hs := perform_ok h
  simp only [Space.protect] at hs
  split at hs
  · cases hs
  · split at hs
    · cases hs
    · rename_i hmapped
      have hspace := (congrArg Prod.snd hs).symm
      simp only at hspace
      refine ⟨fun hn => ?_, ?_⟩
      · exact PageTable.allMapped_iff.1 (Classical.not_not.1 hmapped) n
          ((inRange_iff_pageIn (aligned_of_protect h)).2 hn)
      · simp only [pageAt, hspace, PageTable.get?_update,
          inRange_iff_pageIn (aligned_of_protect h)]

/-- **A protection change shows in its range and nowhere else.** -/
theorem rightsAt_protect {address length : Nat} {rights : Rights}
    (h : m.protect address length rights = (.ok (), m')) (n : Nat) :
    m'.rightsAt n =
      if PageIn address (address + roundUp length pageSize) n then some rights
      else m.rightsAt n := by
  obtain ⟨hsome, hpage⟩ := pageAt_protect h n
  rw [rightsAt_eq, hpage]
  split
  · rename_i hn
    obtain ⟨p, hp⟩ := Option.isSome_iff_exists.1 (hsome hn)
    rw [hp]
    rfl
  · rfl

/-- A protection change tags no page. -/
theorem keyAt_protect {address length : Nat} {rights : Rights}
    (h : m.protect address length rights = (.ok (), m')) (n : Nat) : m'.keyAt n = m.keyAt n := by
  rw [keyAt, (pageAt_protect h n).2]
  split
  · rw [keyAt]
    cases m.pageAt n <;> rfl
  · rfl

/-! ## Bytes and keys -/

/-- Writing bytes changes a page in nothing but its bytes, even where it
stops the program. -/
theorem attributes_write {m m' : Machine} {address length : Nat} (source : Nat → UInt8)
    (h : m'.space = m.space.write address length source) (n : Nat) :
    (m'.pageAt n).map Page.attributes = (m.pageAt n).map Page.attributes := by
  simp only [pageAt, h, Space.write]
  split
  · simp only [PageTable.get?_update]
    split
    · cases m.space.table.get? n <;> rfl
    · rfl
  · rfl

/-- The rights of a page are among its attributes. -/
theorem rightsAt_eq_attributes (m : Machine) (n : Nat) :
    m.rightsAt n = ((m.pageAt n).map Page.attributes).map Prod.fst := by
  rw [rightsAt_eq, Option.map_map]
  rfl

/-- So is its key. -/
theorem keyAt_eq_attributes (m : Machine) (n : Nat) :
    m.keyAt n = ((m.pageAt n).map Page.attributes).bind Prod.snd := by
  rw [keyAt, Option.bind_map]
  rfl

/-- Writing bytes changes no rights. -/
theorem rightsAt_write {m m' : Machine} {address length : Nat} (source : Nat → UInt8)
    (h : m'.space = m.space.write address length source) : m'.rightsAt = m.rightsAt := by
  funext n
  rw [rightsAt_eq_attributes, attributes_write source h, ← rightsAt_eq_attributes]

/-- Nor does it change a key. -/
theorem keyAt_write {m m' : Machine} {address length : Nat} (source : Nat → UInt8)
    (h : m'.space = m.space.write address length source) : m'.keyAt = m.keyAt := by
  funext n
  rw [keyAt_eq_attributes, attributes_write source h, ← keyAt_eq_attributes]

@[simp] theorem rightsAt_fill (m : Machine) (address length : Nat) (byte : UInt8) :
    (m.fill address length byte).rightsAt = m.rightsAt :=
  rightsAt_write (fun _ => byte) rfl

@[simp] theorem rightsAt_copy (m : Machine) (address : Nat) (bytes : List UInt8) :
    (m.copy address bytes).rightsAt = m.rightsAt :=
  rightsAt_write (fun i => bytes[i]?.getD 0) rfl

@[simp] theorem keyAt_fill (m : Machine) (address length : Nat) (byte : UInt8) :
    (m.fill address length byte).keyAt = m.keyAt :=
  keyAt_write (fun _ => byte) rfl

@[simp] theorem keyAt_copy (m : Machine) (address : Nat) (bytes : List UInt8) :
    (m.copy address bytes).keyAt = m.keyAt :=
  keyAt_write (fun i => bytes[i]?.getD 0) rfl

/-- Allocating a key touches no page. -/
theorem pageAt_keyAlloc (m : Machine) (rights : KeyRights) :
    (m.keyAlloc rights).2.pageAt = m.pageAt := by
  have htable : (m.space.keyAlloc rights).2.table = m.space.table := by
    unfold Space.keyAlloc
    split
    · rfl
    · split <;> rfl
  unfold keyAlloc
  split
  · funext n
    rcases perform_cases m .keyAlloc (fun s => s.keyAlloc rights) (.keyAlloc rights) with
      ⟨_, -, h⟩ | ⟨-, h⟩
    · simp only [pageAt, h]
    · simp only [pageAt, h, htable]
  · rfl

theorem rightsAt_keyAlloc (m : Machine) (rights : KeyRights) :
    (m.keyAlloc rights).2.rightsAt = m.rightsAt :=
  funext fun n => rightsAt_congr (congrFun (pageAt_keyAlloc m rights) n)

@[simp] theorem rightsAt_keyRights (m : Machine) (key : Nat) :
    (m.keyRights key).2.rightsAt = m.rightsAt := by
  unfold keyRights
  split <;> rfl

@[simp] theorem keyAt_keyRights (m : Machine) (key : Nat) :
    (m.keyRights key).2.keyAt = m.keyAt := by
  unfold keyRights
  split <;> rfl

/-- Giving back a key changes no page. -/
@[simp] theorem pageAt_keyFree (m : Machine) (key : Nat) : (m.keyFree key).pageAt = m.pageAt := by
  unfold keyFree
  split <;> rfl

@[simp] theorem rightsAt_keyFree (m : Machine) (key : Nat) :
    (m.keyFree key).rightsAt = m.rightsAt :=
  funext fun n => rightsAt_congr (congrFun (pageAt_keyFree m key) n)

@[simp] theorem keyAt_keyFree (m : Machine) (key : Nat) : (m.keyFree key).keyAt = m.keyAt :=
  funext fun n => keyAt_congr (congrFun (pageAt_keyFree m key) n)

/-- Tagging that fails leaves memory alone. -/
theorem space_of_keyProtect_error {address length : Nat} {rights : Rights} {key : Nat}
    {errno : Errno} (h : m.keyProtect address length rights key = (.error errno, m')) :
    m'.space = m.space := by
  unfold keyProtect at h
  split at h
  · rcases perform_error h with hs | hs
    · exact hs
    · simp only [Space.keyProtect] at hs
      split at hs
      · exact (congrArg Prod.snd hs).symm
      · split at hs
        · cases hs
        · split at hs
          · exact (congrArg Prod.snd hs).symm
          · cases hs
  · cases h
    rfl

/-- Tagging no bytes leaves memory alone. -/
theorem space_of_keyProtect_empty {address : Nat} {rights : Rights} {key : Nat}
    (h : m.keyProtect address 0 rights key = (.ok (), m')) : m'.space = m.space := by
  unfold keyProtect at h
  split at h
  · have hs := perform_ok h
    simp only [Space.keyProtect] at hs
    split at hs
    · cases hs
    · simp only [if_true] at hs
      exact (congrArg Prod.snd hs).symm
  · cases h

/-- **Tagging finds its range mapped** and writes the rights and the key
into each of its pages. -/
theorem pageAt_keyProtect {address length : Nat} {rights : Rights} {key : Nat}
    (h : m.keyProtect address length rights key = (.ok (), m')) (hlen : 0 < length) (n : Nat) :
    (PageIn address (address + roundUp length pageSize) n → (m.pageAt n).isSome = true) ∧
      m'.pageAt n =
        if PageIn address (address + roundUp length pageSize) n then
          (m.pageAt n).map fun p => { p with rights, key := some key }
        else m.pageAt n := by
  unfold keyProtect at h
  split at h
  · have hs := perform_ok h
    simp only [Space.keyProtect] at hs
    split at hs
    · cases hs
    · split at hs
      · omega
      · split at hs
        · cases hs
        · rename_i hgood
          simp only [not_or, Classical.not_not] at hgood
          have hspace := (congrArg Prod.snd hs).symm
          simp only at hspace
          refine ⟨fun hn => ?_, ?_⟩
          · exact PageTable.allMapped_iff.1 hgood.2 n ((inRange_iff_pageIn hgood.1).2 hn)
          · simp only [pageAt, hspace, PageTable.get?_update, inRange_iff_pageIn hgood.1]
  · cases h

/-- **Tagging gives its range the rights asked for.** -/
theorem rightsAt_keyProtect {address length : Nat} {rights : Rights} {key : Nat}
    (h : m.keyProtect address length rights key = (.ok (), m')) (hlen : 0 < length) (n : Nat) :
    m'.rightsAt n =
      if PageIn address (address + roundUp length pageSize) n then some rights
      else m.rightsAt n := by
  obtain ⟨hsome, hpage⟩ := pageAt_keyProtect h hlen n
  rw [rightsAt_eq, hpage]
  split
  · rename_i hn
    obtain ⟨p, hp⟩ := Option.isSome_iff_exists.1 (hsome hn)
    rw [hp]
    rfl
  · rfl

/-- **Tagging gives its range the key.** -/
theorem keyAt_keyProtect {address length : Nat} {rights : Rights} {key : Nat}
    (h : m.keyProtect address length rights key = (.ok (), m')) (hlen : 0 < length) (n : Nat) :
    m'.keyAt n =
      if PageIn address (address + roundUp length pageSize) n then some key else m.keyAt n := by
  obtain ⟨hsome, hpage⟩ := pageAt_keyProtect h hlen n
  rw [keyAt, hpage]
  split
  · rename_i hn
    obtain ⟨p, hp⟩ := Option.isSome_iff_exists.1 (hsome hn)
    rw [hp]
    rfl
  · rfl

end Machine

end PageWarden
