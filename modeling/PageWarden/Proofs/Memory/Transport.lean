import PageWarden.Proofs.Memory.Move
/-!
# Memory — what a move carries

What moves is one mapping: its pages agree in protection and key, or the
move is refused. Where it ends up, in place or elsewhere and over whatever
was there, its pages come first, each as it was, and behind them fresh
ones up to the new length, with the protection of the old ones
(`pageAt_move_new`). Outside of the new range nothing is left of the old
one, and all else is as it was (`pageAt_move`).

The key is the exception. A fresh page has none, so what grows beyond a key
is one mapping no more, and cannot be moved as a whole again; all else
can (`move_carries_mapping`).
-/

namespace PageWarden

namespace PageTable

variable {t : PageTable} {first count : Nat}

/-- Numbering pages keeps them. -/
theorem map_snd_number (first : Nat) (block : List Page) :
    (number first block).map Prod.snd = block := by
  induction block generalizing first with
  | nil => rfl
  | cons p rest ih => rw [number, List.map_cons, ih]

/-- The pages of a range that is mapped throughout, as a list. -/
theorem exists_block (h : t.allMapped first count = true) :
    ∃ block : List Page, block.length = count ∧
      ∀ i < count, t.get? (first + i) = block[i]? := by
  induction count generalizing first with
  | zero => exact ⟨[], rfl, fun i hi => absurd hi (Nat.not_lt_zero i)⟩
  | succ count ih =>
    rw [allMapped, Bool.and_eq_true] at h
    obtain ⟨p, hp⟩ := Option.isSome_iff_exists.1 h.1
    obtain ⟨rest, hlen, hrest⟩ := ih h.2
    refine ⟨p :: rest, by rw [List.length_cons, hlen], fun i hi => ?_⟩
    cases i with
    | zero => exact hp
    | succ i =>
      rw [List.getElem?_cons_succ, ← hrest i (by omega)]
      congr 1
      omega

/-- **A slice lists the pages in the order of their numbers.** -/
theorem slice_eq {block : List Page}
    (h : ∀ i < block.length, t.get? (first + i) = block[i]?) :
    t.slice first block.length = block := by
  have hrestrict : t.restrict first block.length = empty.splice first block :=
    ext_get? fun n => by
      rw [get?_restrict, get?_splice]
      split
      · rename_i hn
        rw [← h (n - first) (by simp only [InRange] at hn; omega),
          Nat.add_sub_cancel' hn.1]
      · rfl
  calc t.slice first block.length
      = (t.restrict first block.length).entries.map Prod.snd := rfl
    _ = (empty.splice first block).entries.map Prod.snd := by rw [hrestrict]
    _ = (number first block).map Prod.snd := by simp [splice, empty]
    _ = block := map_snd_number first block

/-- So the slice of a range that is mapped throughout has all its pages. -/
theorem length_slice (h : t.allMapped first count = true) :
    (t.slice first count).length = count := by
  obtain ⟨block, rfl, hblock⟩ := exists_block h
  rw [slice_eq hblock]

/-- And each at its place. -/
theorem getElem?_slice (h : t.allMapped first count = true) {i : Nat} (hi : i < count) :
    (t.slice first count)[i]? = t.get? (first + i) := by
  obtain ⟨block, rfl, hblock⟩ := exists_block h
  rw [slice_eq hblock, hblock i hi]

/-- A range that is mapped throughout is uniform when all its pages have the
attributes of the first. -/
theorem isUniform_iff_of_mapped (h : t.allMapped first count = true) :
    t.isUniform first count = true ↔ ∀ n, InRange first count n →
      (t.get? n).map Page.attributes = (t.get? first).map Page.attributes := by
  rw [isUniform_iff]
  constructor
  · intro hsame n hn
    have hfirst : InRange first count first := by
      simp only [InRange] at hn ⊢
      omega
    obtain ⟨p, hp⟩ := Option.isSome_iff_exists.1 (allMapped_iff.1 h n hn)
    obtain ⟨f, hf⟩ := Option.isSome_iff_exists.1 (allMapped_iff.1 h first hfirst)
    rw [hp, hf, Option.map_some, Option.map_some,
      hsame p (mem_slice_iff.2 ⟨n, hn, hp⟩) f (mem_slice_iff.2 ⟨first, hfirst, hf⟩)]
  · intro hall p hp q hq
    obtain ⟨k, hk, hpk⟩ := mem_slice_iff.1 hp
    obtain ⟨l, hl, hql⟩ := mem_slice_iff.1 hq
    have hkl := (hall k hk).trans (hall l hl).symm
    rw [hpk, hql, Option.map_some, Option.map_some, Option.some.injEq] at hkl
    exact hkl

end PageTable

namespace Space

/-- Of what is moved the old pages come first, as far as they reach, and the
rest is fresh. -/
theorem getElem?_movedBlock {pages : List Page} {newCount i : Nat} (hi : i < newCount) :
    (movedBlock pages newCount)[i]? =
      if i < pages.length then pages[i]?
      else some (.fresh ((pages.getLast?.map Page.rights).getD .noAccess)) := by
  rw [movedBlock, List.getElem?_append, List.length_take]
  split
  · rename_i hlt
    rw [if_pos (by omega), List.getElem?_take_of_lt hi]
  · rename_i hge
    rw [if_neg (by omega), List.getElem?_replicate, if_pos (by omega)]

/-- The rights of the fresh ones are those of any old page, where these
agree. -/
theorem rights_getLast {pages : List Page} {o : Page} (ho : o ∈ pages)
    (hsame : ∀ p ∈ pages, p.rights = o.rights) :
    (pages.getLast?.map Page.rights).getD .noAccess = o.rights := by
  cases hlast : pages.getLast? with
  | none =>
    rw [List.getLast?_eq_none_iff.1 hlast] at ho
    exact absurd ho List.not_mem_nil
  | some last => exact hsame last (List.mem_of_getLast? hlast)

variable {s : Space} {q : MoveRequest}

/-- **A move faults** exactly on what is not one mapping, mapped
throughout. -/
theorem move_eq_fault_iff (ha : Aligned q.address) (hlen : 0 < q.length)
    (hnew : 0 < q.newLength) : (s.move q).1 = .error Errno.fault ↔
      ¬ (s.table.allMapped (pageOf q.address) (pagesFor q.length) = true ∧
        s.table.isUniform (pageOf q.address) (pagesFor q.length) = true) := by
  have hinval : (Except.error Errno.inval : Except Errno Nat) ≠ .error Errno.fault := by decide
  have hnomem : (Except.error Errno.nomem : Except Errno Nat) ≠ .error Errno.fault := by decide
  have hok (a : Nat) : (Except.ok a : Except Errno Nat) ≠ .error Errno.fault := by simp
  have hargs : ¬ (¬ Aligned q.address ∨ q.newLength = 0) := by
    rintro (hodd | hzero)
    · exact hodd ha
    · omega
  unfold move
  simp only
  rw [if_neg hargs]
  by_cases hrange : s.table.allMapped (pageOf q.address) (pagesFor q.length) = true ∧
      s.table.isUniform (pageOf q.address) (pagesFor q.length) = true
  · refine iff_of_false ?_ (not_not_intro hrange)
    rw [if_neg (not_not_intro hrange)]
    split
    · split
      · exact hinval
      · exact hok _
    · split
      · exact hok _
      · split
        · split
          · exact hok _
          · -- the last page of the range is mapped like all the others
            rename_i hgone
            have hcount := pagesFor_pos hlen
            have hlast := PageTable.allMapped_iff.1 hrange.1
              (pageOf q.address + pagesFor q.length - 1)
              (by simp only [PageTable.InRange]; omega)
            rw [PageTable.isMapped, hgone] at hlast
            cases hlast
        · split
          · exact hnomem
          · split
            · exact hnomem
            · exact hok _
  · rw [if_pos hrange]
    exact iff_of_true rfl hrange

end Space

namespace Machine

/-- **The mapping outgrows its key**: its pages are tagged, and it is to have
more of them. -/
structure Outgrows (m : Machine) (q : MoveRequest) : Prop where
  tagged : m.keyAt (pageOf q.address) ≠ none
  grows : pagesFor q.length < pagesFor q.newLength

variable {m m' : Machine} {q : MoveRequest} {moved n i : Nat} {o : Page}

/-- What moves has a first page, and all its pages have the protection and
the key of that. -/
theorem attributes_of_move (h : m.move q = (.ok moved, m')) (hlen : 0 < q.length) :
    ∃ o, m.pageAt (pageOf q.address) = some o ∧
      ∀ n, q.Old n → (m.pageAt n).map Page.attributes = some o.attributes := by
  obtain ⟨ha, -, hmapped, huniform, -⟩ := Space.move_ok_cases (perform_ok h)
  have hfirst := (inRange_iff_pageIn ha).2 (pageIn_first ha hlen)
  obtain ⟨o, ho⟩ := Option.isSome_iff_exists.1 (PageTable.allMapped_iff.1 hmapped _ hfirst)
  refine ⟨o, ho, fun n hn => ?_⟩
  have hsame := (PageTable.isUniform_iff_of_mapped hmapped).1 huniform n
    ((inRange_iff_pageIn ha).2 hn)
  rw [ho, Option.map_some] at hsame
  exact hsame

/-- The new range is mapped throughout. -/
theorem allMapped_new (h : m.move q = (.ok moved, m')) :
    m'.space.table.allMapped (pageOf moved) (pagesFor q.newLength) = true := by
  refine PageTable.allMapped_iff.2 fun n hn => ?_
  obtain ⟨ρ, hρ, -⟩ := rightsAt_move_new h ((inRange_iff_pageIn (aligned_of_move h).2.1).1 hn)
  rw [← isSome_rightsAt, hρ]
  rfl

/-- **The new range of a move, page by page**: the old pages as they were, in
their order, and behind them fresh ones with their protection. -/
theorem pageAt_move_new (h : m.move q = (.ok moved, m')) (hlen : 0 < q.length)
    (ho : m.pageAt (pageOf q.address) = some o) (hi : i < pagesFor q.newLength) :
    m'.pageAt (pageOf moved + i) =
      if i < pagesFor q.length then m.pageAt (pageOf q.address + i)
      else some (.fresh o.rights) := by
  obtain ⟨ha, -, hmapped, huniform, hcases⟩ := Space.move_ok_cases (perform_ok h)
  have hfirst : o ∈ m.space.table.slice (pageOf q.address) (pagesFor q.length) :=
    PageTable.mem_slice_iff.2 ⟨_, (inRange_iff_pageIn ha).2 (pageIn_first ha hlen), ho⟩
  have hsame : ∀ p ∈ m.space.table.slice (pageOf q.address) (pagesFor q.length),
      p.rights = o.rights := fun p hp => PageTable.rights_of_isUniform huniform hp hfirst
  rcases hcases with ⟨target, rfl, hs⟩ | ⟨rfl, hle, hs⟩ | ⟨rfl, hlt, -, last, hlast, hs⟩
  · -- carried elsewhere: the block that is put there is the slice that was taken out
    rw [pageOf_start, pageAt, hs, Space.carry, PageTable.get?_splice, Space.length_movedBlock,
      if_pos ⟨Nat.le_add_right target i, Nat.add_lt_add_left hi target⟩, Nat.add_sub_cancel_left,
      Space.getElem?_movedBlock hi, PageTable.length_slice hmapped,
      Space.rights_getLast hfirst hsame]
    split
    · rename_i hold
      exact PageTable.getElem?_slice hmapped hold
    · rfl
  · -- shrunk in place: every page of the new range is an old one
    rw [if_pos (by omega), pageAt, hs, PageTable.get?_erase, if_neg]
    · rfl
    · simp only [PageTable.InRange]
      omega
  · -- grown in place: behind the old pages there are fresh ones with the rights of the last
    rw [pageAt, hs, PageTable.get?_fill]
    by_cases hold : i < pagesFor q.length
    · rw [if_pos hold, if_neg]
      · rfl
      · simp only [PageTable.InRange]
        omega
    · rw [if_neg hold, if_pos]
      · have hcount := pagesFor_pos hlen
        rw [hsame last (PageTable.mem_slice_iff.2
          ⟨_, by simp only [PageTable.InRange]; omega, hlast⟩)]
      · simp only [PageTable.InRange]
        omega

/-- So all pages of the new range have the old protection, and as many as
there were before have the old key. -/
theorem attributes_move_new (h : m.move q = (.ok moved, m')) (hlen : 0 < q.length)
    (ho : m.pageAt (pageOf q.address) = some o)
    (hold : ∀ n, q.Old n → (m.pageAt n).map Page.attributes = some o.attributes)
    (hi : i < pagesFor q.newLength) :
    (m'.pageAt (pageOf moved + i)).map Page.attributes =
      some (o.rights, if i < pagesFor q.length then o.key else none) := by
  rw [pageAt_move_new h hlen ho hi]
  split
  · rename_i hlt
    exact hold _ ((pageIn_iff_exists (aligned_of_move h).1).2 ⟨i, hlt, rfl⟩)
  · rfl

/-- **The attributes are kept by all but what outgrows its key**: the first
fresh page behind a tagged one has none. -/
theorem attributes_kept_iff (h : m.move q = (.ok moved, m')) (hlen : 0 < q.length)
    (ho : m.pageAt (pageOf q.address) = some o)
    (hold : ∀ n, q.Old n → (m.pageAt n).map Page.attributes = some o.attributes) :
    (∀ n, q.New moved n → (m'.pageAt n).map Page.attributes = some o.attributes) ↔
      ¬ m.Outgrows q := by
  have hkey : m.keyAt (pageOf q.address) = o.key := by rw [keyAt, ho, Option.bind_some]
  have hnew : ∀ n, q.New moved n ↔ ∃ i < pagesFor q.newLength, n = pageOf moved + i := fun _ =>
    pageIn_iff_exists (aligned_of_move h).2.1
  constructor
  · intro hall hout
    have hfresh := hall _ ((hnew _).2 ⟨_, hout.grows, rfl⟩)
    rw [attributes_move_new h hlen ho hold hout.grows, if_neg (Nat.lt_irrefl _),
      Option.some.injEq] at hfresh
    exact hout.tagged (hkey.trans (congrArg Prod.snd hfresh).symm)
  · intro hno n hn
    obtain ⟨i, hi, rfl⟩ := (hnew n).1 hn
    rw [attributes_move_new h hlen ho hold hi]
    by_cases hlt : i < pagesFor q.length
    · rw [if_pos hlt]
      rfl
    · have hnone : o.key = none := by
        by_contra htagged
        exact hno ⟨fun hgone => htagged (hkey.symm.trans hgone), by omega⟩
      rw [if_neg hlt, ← hnone]
      rfl

/-- **The new range is uniform** if it has kept the attributes of the old one,
since it begins with a page that has. -/
theorem isUniform_new_iff (h : m.move q = (.ok moved, m')) (hlen : 0 < q.length)
    (ho : m.pageAt (pageOf q.address) = some o)
    (hold : ∀ n, q.Old n → (m.pageAt n).map Page.attributes = some o.attributes) :
    m'.space.table.isUniform (pageOf moved) (pagesFor q.newLength) = true ↔
      ∀ n, q.New moved n → (m'.pageAt n).map Page.attributes = some o.attributes := by
  have hfirst : (m'.space.table.get? (pageOf moved)).map Page.attributes = some o.attributes := by
    have hat := attributes_move_new h hlen ho hold (pagesFor_pos (aligned_of_move h).2.2)
    rw [if_pos (pagesFor_pos hlen)] at hat
    exact hat
  rw [PageTable.isUniform_iff_of_mapped (allMapped_new h), hfirst]
  refine forall_congr' fun n => ?_
  rw [inRange_iff_pageIn (aligned_of_move h).2.1]
  rfl

/-- **What a move carries.** What moves is one mapping, of one protection and
one key. Wherever it goes, its new range is mapped throughout: first come
the old pages, in their order and with all that is on them, and behind
them zeroed ones with the old protection and no key. What the old range
had outside of the new one is gone, and all else is as it was. The new range
is one mapping again, which can be moved as a whole, exactly unless it has
outgrown its key. -/
theorem move_carries_mapping (h : m.move q = (.ok moved, m')) (hlen : 0 < q.length) :
    ∃ o, m.pageAt (pageOf q.address) = some o ∧
      (∀ n, q.Old n → (m.pageAt n).map Page.attributes = some o.attributes) ∧
      (∀ n, q.New moved n → (m'.pageAt n).isSome = true) ∧
      (∀ i < pagesFor q.newLength, m'.pageAt (pageOf moved + i) =
        if i < pagesFor q.length then m.pageAt (pageOf q.address + i)
        else some (.fresh o.rights)) ∧
      (∀ n, ¬ q.New moved n → m'.pageAt n = if q.Old n then none else m.pageAt n) ∧
      ((∀ n, q.New moved n → (m'.pageAt n).map Page.attributes = some o.attributes) ↔
        ¬ m.Outgrows q) ∧
      (m'.space.table.isUniform (pageOf moved) (pagesFor q.newLength) = true ↔
        ¬ m.Outgrows q) ∧
      ∀ q', q'.address = moved → q'.length = q.newLength → 0 < q'.newLength →
        ((m'.space.move q').1 = .error Errno.fault ↔ m.Outgrows q) := by
  obtain ⟨ha, hmoved, hnew⟩ := aligned_of_move h
  obtain ⟨o, ho, hold⟩ := attributes_of_move h hlen
  have hmapped := allMapped_new h
  have hkept := attributes_kept_iff h hlen ho hold
  have huniform := (isUniform_new_iff h hlen ho hold).trans hkept
  refine ⟨o, ho, hold, fun n hn => ?_, fun i hi => pageAt_move_new h hlen ho hi,
    fun n hn => pageAt_move h hn, hkept, huniform, ?_⟩
  · exact PageTable.allMapped_iff.1 hmapped n ((inRange_iff_pageIn hmoved).2 hn)
  · rintro q' rfl hlen' hnew'
    rw [Space.move_eq_fault_iff hmoved (by omega) hnew', hlen', huniform, and_iff_right hmapped,
      not_not]

/-- A tagged page, and two pages without a key whose bytes differ. -/
def tagged : Machine where
  space :=
    { table := ⟨[(1, ⟨.exec, some 1, fun _ => 0xc3⟩), (4, ⟨.read, none, fun _ => 1⟩),
        (5, ⟨.read, none, fun _ => 2⟩)], by decide⟩
      hasKeys := true
      nextKey := 2
      keys := [(1, .disableAccess)] }

/-- The tagged one grows in place, and its second page has no key: to move both
is refused. The other two move up by a page and grow by one: the first
lies where the second lay, and all three can be moved again. -/
theorem key_missing_on_fresh_page :
    let grow : MoveRequest := ⟨0x1000, 4096, 8192, ⟨0⟩, 0⟩
    let shift : MoveRequest := ⟨0x4000, 8192, 12288, ⟨3⟩, 0x5000⟩
    (tagged.move grow).1 = .ok 0x1000 ∧
      (tagged.move grow).2.keyAt 1 = some 1 ∧ (tagged.move grow).2.keyAt 2 = none ∧
      ((tagged.move grow).2.space.move ⟨0x1000, 8192, 4096, ⟨0⟩, 0⟩).1 = .error Errno.fault ∧
      (tagged.move shift).1 = .ok 0x5000 ∧ (tagged.move shift).2.pageAt 4 = none ∧
      (tagged.move shift).2.pageAt (pageOf 0x5000) = tagged.pageAt (pageOf 0x4000) ∧
      (tagged.move shift).2.rightsAt 7 = some .read ∧
      ((tagged.move shift).2.space.move ⟨0x5000, 12288, 4096, ⟨0⟩, 0⟩).1 ≠
        .error Errno.fault := by
  intro grow shift
  have hgrow : tagged.move grow = (.ok 0x1000, (tagged.move grow).2) :=
    Prod.ext (by decide +kernel) rfl
  have hshift : tagged.move shift = (.ok 0x5000, (tagged.move shift).2) :=
    Prod.ext (by decide +kernel) rfl
  have hout : tagged.Outgrows grow := ⟨by decide +kernel, by decide⟩
  have hin : ¬ tagged.Outgrows shift := fun h => h.tagged (by decide +kernel)
  obtain ⟨-, -, -, -, -, -, -, -, hagain⟩ := move_carries_mapping hgrow (by decide)
  obtain ⟨o, -, -, -, hpages, hrest, -, -, hagain'⟩ := move_carries_mapping hshift (by decide)
  refine ⟨congrArg Prod.fst hgrow, by decide +kernel, by decide +kernel,
    (hagain _ rfl rfl (by decide)).2 hout, congrArg Prod.fst hshift, ?_, ?_, by decide +kernel,
    fun hfault => hin ((hagain' _ rfl rfl (by decide)).1 hfault)⟩
  · exact (hrest 4 (by decide)).trans (if_pos (by decide))
  · have hfirst := hpages 0 (by decide)
    rw [if_pos (by decide)] at hfirst
    exact hfirst

end Machine

end PageWarden
