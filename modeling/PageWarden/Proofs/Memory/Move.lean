import PageWarden.Proofs.Memory
/-!
# Memory — moves

A move that succeeds leaves its new range mapped, with the rights its
pages had or with none, and takes away what the old range had outside of
the new one (`rightsAt_move`). A move that fails leaves memory alone, but
for one way to fail: when it finds no room, the old range is gone
already (`rightsAt_move_error`).
-/

namespace PageWarden

namespace PageTable

variable {t : PageTable} {first count : Nat}

/-- The pages of a slice are the mapped pages of the range. -/
theorem mem_slice_iff {p : Page} :
    p ∈ t.slice first count ↔ ∃ n, InRange first count n ∧ t.get? n = some p := by
  simp only [slice, List.mem_map, List.mem_filter, decide_eq_true_eq, Prod.exists,
    exists_eq_right, get?_eq_some_iff]
  constructor
  · rintro ⟨n, hmem, hn⟩
    exact ⟨n, hn, hmem⟩
  · rintro ⟨n, hn, hmem⟩
    exact ⟨n, hmem, hn⟩

/-- A range is uniform when its mapped pages agree in their attributes. -/
theorem isUniform_iff : t.isUniform first count = true ↔
    ∀ p ∈ t.slice first count, ∀ q ∈ t.slice first count, p.attributes = q.attributes := by
  unfold isUniform
  cases t.slice first count with
  | nil => exact iff_of_true rfl fun p hp => absurd hp List.not_mem_nil
  | cons head rest =>
    simp only [List.all_eq_true, decide_eq_true_eq]
    constructor
    · intro h
      have same : ∀ r ∈ head :: rest, r.attributes = head.attributes := by
        intro r hr
        rcases List.mem_cons.1 hr with rfl | hr
        · rfl
        · exact h r hr
      exact fun p hp q hq => (same p hp).trans (same q hq).symm
    · exact fun h p hp => h p (List.mem_cons_of_mem head hp) head List.mem_cons_self

/-- So they have one protection. -/
theorem rights_of_isUniform {p q : Page} (h : t.isUniform first count = true)
    (hp : p ∈ t.slice first count) (hq : q ∈ t.slice first count) : p.rights = q.rights :=
  congrArg Prod.fst (isUniform_iff.1 h p hp q hq)

end PageTable

namespace Space

/-- What is moved fills the new range exactly. -/
theorem length_movedBlock (pages : List Page) (newCount : Nat) :
    (movedBlock pages newCount).length = newCount := by
  simp only [movedBlock, List.length_append, List.length_take, List.length_replicate]
  omega

/-- What is moved are old pages, and fresh ones with the rights of an old
one, or with none where there is no old one. -/
theorem mem_movedBlock {pages : List Page} {newCount : Nat} {p : Page}
    (h : p ∈ movedBlock pages newCount) :
    p ∈ pages ∨ p = .fresh .noAccess ∨ ∃ o ∈ pages, p = .fresh o.rights := by
  rcases List.mem_append.1 h with h | h
  · exact Or.inl (List.mem_of_mem_take h)
  · rw [List.eq_of_mem_replicate h]
    cases hlast : pages.getLast? with
    | none => exact Or.inr (Or.inl rfl)
    | some last => exact Or.inr (Or.inr ⟨last, List.mem_of_getLast? hlast, rfl⟩)

/-- So a moved page has the rights of an old one, or none. -/
theorem rights_of_mem_movedBlock {pages : List Page} {newCount : Nat} {p : Page}
    (h : p ∈ movedBlock pages newCount) :
    p.rights = .noAccess ∨ ∃ q ∈ pages, p.rights = q.rights := by
  rcases mem_movedBlock h with hold | rfl | ⟨o, ho, rfl⟩
  · exact Or.inr ⟨p, hold, rfl⟩
  · exact Or.inl rfl
  · exact Or.inr ⟨o, ho, rfl⟩

variable {s s' : Space} {q : MoveRequest}

/-- The ways a move succeeds: the pages are carried elsewhere, or the
mapping shrinks in place, or it grows in place. -/
theorem move_ok_cases {a : Nat} (h : s.move q = (.ok a, s')) :
    Aligned q.address ∧ 0 < q.newLength ∧
      s.table.allMapped (pageOf q.address) (pagesFor q.length) = true ∧
      s.table.isUniform (pageOf q.address) (pagesFor q.length) = true ∧
      ((∃ target, a = target * pageSize ∧
          s' = s.carry (pageOf q.address) (pagesFor q.length) (pagesFor q.newLength) target) ∨
        (a = q.address ∧ pagesFor q.newLength ≤ pagesFor q.length ∧
          s' = { s with
            table := s.table.erase (pageOf q.address + pagesFor q.newLength)
              (pagesFor q.length - pagesFor q.newLength) }) ∨
        (a = q.address ∧ pagesFor q.length < pagesFor q.newLength ∧
          s.table.isFree (pageOf q.address + pagesFor q.length)
            (pagesFor q.newLength - pagesFor q.length) = true ∧
          ∃ last, s.table.get? (pageOf q.address + pagesFor q.length - 1) = some last ∧
            s' = { s with
              table := s.table.fill (pageOf q.address + pagesFor q.length)
                (pagesFor q.newLength - pagesFor q.length) (.fresh last.rights) })) := by
  unfold move at h
  simp only at h
  split at h
  · cases h
  · rename_i hargs
    simp only [not_or, Classical.not_not] at hargs
    split at h
    · cases h
    · rename_i hrange
      simp only [Classical.not_not] at hrange
      refine ⟨hargs.1, Nat.pos_of_ne_zero hargs.2, hrange.1, hrange.2, ?_⟩
      split at h
      · split at h
        · cases h
        · rename_i hfixed
          simp only [not_or, Classical.not_not] at hfixed
          cases h
          exact Or.inl ⟨pageOf q.newAddress, (pageOf_mul_pageSize hfixed.2).symm, rfl⟩
      · split at h
        · rename_i hle
          cases h
          exact Or.inr (Or.inl ⟨rfl, hle, rfl⟩)
        · rename_i hgrow
          split at h
          · rename_i hfree
            split at h
            · rename_i last hlast
              cases h
              exact Or.inr (Or.inr ⟨rfl, by omega, hfree, last, hlast, rfl⟩)
            · cases h
          · split at h
            · cases h
            · split at h
              · cases h
              · rename_i target _
                cases h
                exact Or.inl ⟨target, rfl, rfl⟩

/-- A move that fails leaves the table alone, or could go elsewhere and has
taken the old range out of it. -/
theorem table_of_move_error {errno : Errno} (h : s.move q = (.error errno, s')) :
    s'.table = s.table ∨ q.flags.mayMove = true ∧
      Aligned q.address ∧ s'.table = s.table.erase (pageOf q.address) (pagesFor q.length) := by
  unfold move at h
  simp only at h
  split at h
  · cases h
    exact Or.inl rfl
  · rename_i hargs
    simp only [not_or, Classical.not_not] at hargs
    split at h
    · cases h
      exact Or.inl rfl
    · split at h
      · split at h
        · cases h
          exact Or.inl rfl
        · cases h
      · split at h
        · cases h
        · split at h
          · split at h
            · cases h
            · cases h
              exact Or.inl rfl
          · split at h
            · cases h
              exact Or.inl rfl
            · rename_i hmay
              rw [Classical.not_not] at hmay
              split at h
              · cases h
                exact Or.inr ⟨hmay, hargs.1, rfl⟩
              · cases h

/-- The protection of a page of a mapping that can move is that of its
first page. -/
theorem rights_eq_first {p : Page} (h : s.table.allMapped (pageOf q.address) (pagesFor q.length))
    (hu : s.table.isUniform (pageOf q.address) (pagesFor q.length) = true)
    (hp : p ∈ s.table.slice (pageOf q.address) (pagesFor q.length)) :
    (s.table.get? (pageOf q.address)).map Page.rights = some p.rights := by
  obtain ⟨n, hn, -⟩ := PageTable.mem_slice_iff.1 hp
  have hfirst : PageTable.InRange (pageOf q.address) (pagesFor q.length) (pageOf q.address) := by
    simp only [PageTable.InRange] at hn ⊢
    omega
  obtain ⟨head, hhead⟩ := Option.isSome_iff_exists.1 (PageTable.allMapped_iff.1 h _ hfirst)
  rw [hhead]
  exact congrArg some
    (PageTable.rights_of_isUniform hu (PageTable.mem_slice_iff.2 ⟨_, hfirst, hhead⟩) hp)

end Space

namespace MoveRequest

/-- Page `n` is one of the old range. -/
def Old (q : MoveRequest) (n : Nat) : Prop :=
  PageIn q.address (q.address + roundUp q.length pageSize) n

/-- Page `n` is one of the new range, where that begins at `moved`. -/
def New (q : MoveRequest) (moved n : Nat) : Prop :=
  PageIn moved (moved + roundUp q.newLength pageSize) n

instance (q : MoveRequest) (n : Nat) : Decidable (q.Old n) :=
  inferInstanceAs (Decidable (PageIn _ _ _))

instance (q : MoveRequest) (moved n : Nat) : Decidable (q.New moved n) :=
  inferInstanceAs (Decidable (PageIn _ _ _))

end MoveRequest

namespace Machine

variable {m m' : Machine} {q : MoveRequest} {moved n : Nat}

/-- A move starts on a page, ends up on one, and asks for at least one. -/
theorem aligned_of_move (h : m.move q = (.ok moved, m')) :
    Aligned q.address ∧ Aligned moved ∧ 0 < q.newLength := by
  obtain ⟨ha, hlen, -, -, hcases⟩ := Space.move_ok_cases (perform_ok h)
  refine ⟨ha, ?_, hlen⟩
  rcases hcases with ⟨target, rfl, -⟩ | ⟨rfl, -⟩ | ⟨rfl, -⟩
  · exact aligned_mul_pageSize target
  · exact ha
  · exact ha

/-- The old range of a move is mapped throughout. -/
theorem isSome_rightsAt_of_move (h : m.move q = (.ok moved, m')) (hn : q.Old n) :
    (m.rightsAt n).isSome = true := by
  obtain ⟨ha, -, hmapped, -⟩ := Space.move_ok_cases (perform_ok h)
  rw [isSome_rightsAt]
  exact PageTable.allMapped_iff.1 hmapped n ((inRange_iff_pageIn ha).2 hn)

/-- **Outside of the new range a move takes the old range and nothing
else.** -/
theorem pageAt_move (h : m.move q = (.ok moved, m')) (hn : ¬ q.New moved n) :
    m'.pageAt n = if q.Old n then none else m.pageAt n := by
  obtain ⟨ha, -, -, -, hcases⟩ := Space.move_ok_cases (perform_ok h)
  have hold : q.Old n ↔ PageTable.InRange (pageOf q.address) (pagesFor q.length) n :=
    (inRange_iff_pageIn ha).symm
  have hnew : ¬ PageTable.InRange (pageOf moved) (pagesFor q.newLength) n := fun hr =>
    hn ((inRange_iff_pageIn (aligned_of_move h).2.1).1 hr)
  simp only [hold, pageAt]
  rcases hcases with ⟨target, rfl, hs⟩ | ⟨rfl, hle, hs⟩ | ⟨rfl, hlt, -, last, -, hs⟩
  · -- carried elsewhere: the old range is erased and a block put in the new one
    rw [pageOf_start] at hnew
    rw [hs, Space.carry, PageTable.get?_splice, Space.length_movedBlock, if_neg hnew,
      PageTable.get?_erase]
  · -- shrunk in place: what is erased is the part of the old range behind the new one
    rw [hs, PageTable.get?_erase]
    by_cases hr : PageTable.InRange (pageOf q.address) (pagesFor q.length) n
    · rw [if_pos hr, if_pos]
      simp only [PageTable.InRange] at *
      omega
    · rw [if_neg hr, if_neg]
      simp only [PageTable.InRange] at *
      omega
  · -- grown in place: the new range begins with all of the old one
    have hout : ¬ PageTable.InRange (pageOf q.address) (pagesFor q.length) n := by
      simp only [PageTable.InRange] at *
      omega
    rw [hs, PageTable.get?_fill, if_neg hout, if_neg]
    simp only [PageTable.InRange] at *
    omega

/-- What a move takes has no rights any more. -/
theorem rightsAt_move (h : m.move q = (.ok moved, m')) (hn : ¬ q.New moved n) :
    m'.rightsAt n = if q.Old n then none else m.rightsAt n := by
  rw [rightsAt_eq, pageAt_move h hn]
  split <;> rfl

/-- **Where pages come from in a move**: a page was there before, under its
own number or another, or it is fresh with the rights of one that was, or
with none. -/
theorem pageAt_of_move {p : Page} (h : m.move q = (.ok moved, m')) (hp : m'.pageAt n = some p) :
    (∃ k, m.pageAt k = some p) ∨ p = .fresh .noAccess ∨
      ∃ k o, m.pageAt k = some o ∧ p = .fresh o.rights := by
  obtain ⟨-, -, -, -, hcases⟩ := Space.move_ok_cases (perform_ok h)
  rcases hcases with ⟨target, -, hs⟩ | ⟨-, -, hs⟩ | ⟨-, -, -, last, hlast, hs⟩
  · have hslice : ∀ {o}, o ∈ m.space.table.slice (pageOf q.address) (pagesFor q.length) →
        ∃ k, m.pageAt k = some o := fun ho => by
      obtain ⟨k, -, hk⟩ := PageTable.mem_slice_iff.1 ho
      exact ⟨k, hk⟩
    rw [pageAt, hs, Space.carry, PageTable.get?_splice] at hp
    split at hp
    · rcases Space.mem_movedBlock (List.mem_of_getElem? hp) with hold | hnone | ⟨o, ho, hfresh⟩
      · exact Or.inl (hslice hold)
      · exact Or.inr (Or.inl hnone)
      · obtain ⟨k, hk⟩ := hslice ho
        exact Or.inr (Or.inr ⟨k, o, hk, hfresh⟩)
    · rw [PageTable.get?_erase] at hp
      split at hp
      · cases hp
      · exact Or.inl ⟨n, hp⟩
  · rw [pageAt, hs, PageTable.get?_erase] at hp
    split at hp
    · cases hp
    · exact Or.inl ⟨n, hp⟩
  · rw [pageAt, hs, PageTable.get?_fill] at hp
    split at hp
    · exact Or.inr (Or.inr ⟨_, last, hlast, (Option.some.inj hp).symm⟩)
    · exact Or.inl ⟨n, hp⟩

/-- **A move issues no keys**: those on pages were on pages before. -/
theorem keyAt_of_move {κ : Nat} (h : m.move q = (.ok moved, m')) (hκ : m'.keyAt n = some κ) :
    ∃ k, m.keyAt k = some κ := by
  obtain ⟨p, hp, hkey⟩ := Option.bind_eq_some_iff.1 hκ
  rcases pageAt_of_move h hp with ⟨k, hk⟩ | rfl | ⟨k, o, -, rfl⟩
  · refine ⟨k, ?_⟩
    rw [keyAt, hk, Option.bind_some, hkey]
  · cases hkey
  · cases hkey

/-- **A move grants nothing**: what a page allows afterwards some page
allowed before, or it is nothing. -/
theorem rightsAt_of_move {ρ : Rights} (h : m.move q = (.ok moved, m'))
    (hρ : m'.rightsAt n = some ρ) : (∃ k, m.rightsAt k = some ρ) ∨ ρ = .noAccess := by
  obtain ⟨p, hp, rfl⟩ := Option.map_eq_some_iff.1 hρ
  rcases pageAt_of_move h hp with ⟨k, hk⟩ | rfl | ⟨k, o, hk, rfl⟩
  · refine Or.inl ⟨k, ?_⟩
    rw [rightsAt_eq, hk, Option.map_some]
  · exact Or.inr rfl
  · refine Or.inl ⟨k, ?_⟩
    rw [rightsAt_eq, hk, Option.map_some]
    rfl

/-- **The new range of a move is mapped**, each page with the rights of
the first old page or with none; unless there was no old page. -/
theorem rightsAt_move_new (h : m.move q = (.ok moved, m')) (hn : q.New moved n) :
    ∃ ρ, m'.rightsAt n = some ρ ∧ (ρ = .noAccess ∨ m.rightsAt (pageOf q.address) = none ∨
      m.rightsAt (pageOf q.address) = some ρ) := by
  obtain ⟨ha, -, hmapped, huniform, hcases⟩ := Space.move_ok_cases (perform_ok h)
  have hnew : PageTable.InRange (pageOf moved) (pagesFor q.newLength) n :=
    (inRange_iff_pageIn (aligned_of_move h).2.1).2 hn
  have hold : ∀ k p, PageTable.InRange (pageOf q.address) (pagesFor q.length) k →
      m.space.table.get? k = some p → m.rightsAt (pageOf q.address) = some p.rights :=
    fun k p hk hp =>
      Space.rights_eq_first hmapped huniform (PageTable.mem_slice_iff.2 ⟨k, hk, hp⟩)
  rcases hcases with ⟨target, rfl, hs⟩ | ⟨rfl, hle, hs⟩ | ⟨rfl, hlt, hfree, last, hlast, hs⟩
  · rw [pageOf_start] at hnew
    have hblock : ∃ p ∈ Space.movedBlock
        (m.space.table.slice (pageOf q.address) (pagesFor q.length)) (pagesFor q.newLength),
        m'.space.table.get? n = some p := by
      rw [hs, Space.carry, PageTable.get?_splice, Space.length_movedBlock, if_pos hnew]
      have hlt : n - target < (Space.movedBlock
          (m.space.table.slice (pageOf q.address) (pagesFor q.length))
          (pagesFor q.newLength)).length := by
        rw [Space.length_movedBlock]
        simp only [PageTable.InRange] at hnew
        omega
      exact ⟨_, List.getElem_mem hlt, List.getElem?_eq_getElem hlt⟩
    obtain ⟨p, hmem, hp⟩ := hblock
    refine ⟨p.rights, by rw [rightsAt, hp]; rfl, ?_⟩
    rcases Space.rights_of_mem_movedBlock hmem with hnone | ⟨o, ho, hrights⟩
    · exact Or.inl hnone
    · rw [hrights]
      exact Or.inr (Or.inr (Space.rights_eq_first hmapped huniform ho))
  · have hin : PageTable.InRange (pageOf q.address) (pagesFor q.length) n := by
      simp only [PageTable.InRange] at *
      omega
    obtain ⟨p, hp⟩ := Option.isSome_iff_exists.1 (PageTable.allMapped_iff.1 hmapped n hin)
    refine ⟨p.rights, ?_, Or.inr (Or.inr (hold n p hin hp))⟩
    rw [rightsAt, hs, PageTable.get?_erase, if_neg, hp]
    · rfl
    · simp only [PageTable.InRange] at *
      omega
  · by_cases hin : PageTable.InRange (pageOf q.address) (pagesFor q.length) n
    · obtain ⟨p, hp⟩ := Option.isSome_iff_exists.1 (PageTable.allMapped_iff.1 hmapped n hin)
      refine ⟨p.rights, ?_, Or.inr (Or.inr (hold n p hin hp))⟩
      rw [rightsAt, hs, PageTable.get?_fill, if_neg, hp]
      · rfl
      · simp only [PageTable.InRange] at *
        omega
    · refine ⟨last.rights, ?_, ?_⟩
      · rw [rightsAt, hs, PageTable.get?_fill, if_pos]
        · rfl
        · simp only [PageTable.InRange] at *
          omega
      -- without old pages the mapping grows from a free page
      · by_cases hcount : pagesFor q.length = 0
        · refine Or.inr (Or.inl ?_)
          rw [rightsAt_eq_none_iff]
          refine PageTable.isFree_iff.1 hfree _ ?_
          simp only [PageTable.InRange]
          omega
        · refine Or.inr (Or.inr (hold _ last ?_ hlast))
          simp only [PageTable.InRange]
          omega

/-- A move uses up its own schedule and no other. -/
theorem faults_of_move {o : Except Errno Nat} (h : m.move q = (o, m')) {p : Primitive}
    (hp : p ≠ .move) : m'.faults p = m.faults p := by
  have hcall := faults_perform m (fun s => s.move q) (.move q) hp
  change (m.move q).2.faults p = _ at hcall
  rw [h] at hcall
  exact hcall

/-- A move that must stay where it is leaves memory alone when it fails. -/
theorem table_of_move_error {errno : Errno} (h : m.move q = (.error errno, m'))
    (hstay : q.flags.mayMove = false) : m'.space.table = m.space.table := by
  rcases perform_error h with hs | hs
  · rw [hs]
  · rcases Space.table_of_move_error hs with ht | ⟨hmay, -⟩
    · exact ht
    · rw [hstay] at hmay
      cases hmay

/-- **A move that fails leaves memory alone, or has lost the old range.** -/
theorem pageAt_move_error {errno : Errno} (h : m.move q = (.error errno, m')) :
    m'.pageAt = m.pageAt ∨ ∀ n, m'.pageAt n = if q.Old n then none else m.pageAt n := by
  rcases perform_error h with hs | hs
  · exact Or.inl (pageAt_of_space hs)
  · rcases Space.table_of_move_error hs with ht | ⟨-, ha, ht⟩
    · refine Or.inl ?_
      funext n
      rw [pageAt, ht, pageAt]
    · refine Or.inr fun n => ?_
      have hold : q.Old n ↔ PageTable.InRange (pageOf q.address) (pagesFor q.length) n :=
        (inRange_iff_pageIn ha).symm
      simp only [hold, pageAt, ht, PageTable.get?_erase]

/-- In the view of rights. -/
theorem rightsAt_move_error {errno : Errno} (h : m.move q = (.error errno, m')) :
    m'.rightsAt = m.rightsAt ∨ ∀ n, m'.rightsAt n = if q.Old n then none else m.rightsAt n := by
  rcases pageAt_move_error h with hsame | hlost
  · exact Or.inl (funext fun n => rightsAt_congr (congrFun hsame n))
  · refine Or.inr fun n => ?_
    rw [rightsAt_eq, hlost]
    split <;> rfl

/-- A move that fails grants nothing either. -/
theorem rightsAt_of_move_error {errno : Errno} {ρ : Rights} (h : m.move q = (.error errno, m'))
    (hρ : m'.rightsAt n = some ρ) : m.rightsAt n = some ρ := by
  rcases rightsAt_move_error h with hsame | hlost
  · rw [← hsame, hρ]
  · rw [hlost] at hρ
    split at hρ
    · cases hρ
    · exact hρ

/-- A move that fails tags no page. -/
theorem keyAt_of_move_error {errno : Errno} {κ : Nat} (h : m.move q = (.error errno, m'))
    (hκ : m'.keyAt n = some κ) : m.keyAt n = some κ := by
  rcases pageAt_move_error h with hsame | hlost
  · rw [← keyAt_congr (congrFun hsame n)]
    exact hκ
  · rw [keyAt, hlost] at hκ
    split at hκ
    · cases hκ
    · exact hκ

end Machine

end PageWarden
