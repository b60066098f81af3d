import PageWarden.Pages
import PageWarden.Rights
/-!
# The address space — the page table

A page table holds the mapped pages by page number, in ascending order.
It is read through `PageTable.get?`, and each change is described by what
it does to that view: `get?_erase`, `get?_update` and `get?_splice`. Two
tables with the same view are the same table (`PageTable.ext_get?`), so
nothing but the view can tell them apart.

A range of pages is a first page and a count. Only pages that are there
are visited, so a range may be far larger than memory.
-/

namespace PageWarden

/-- A mapped page. -/
structure Page where
  rights : Rights
  /-- The protection key the page is tagged with. -/
  key : Option Nat
  bytes : Fin pageSize → UInt8

namespace Page

/-- A page as it is mapped: zero bytes and no key. -/
def fresh (rights : Rights) : Page := ⟨rights, none, fun _ => 0⟩

/-- The attributes that neighbouring pages must share to be one mapping. -/
def attributes (p : Page) : Rights × Option Nat := (p.rights, p.key)

end Page

/-- The mapped pages by page number. -/
structure PageTable where
  entries : List (Nat × Page)
  ascending : entries.Pairwise fun a b => a.1 < b.1

namespace PageTable

/-- Whether page `n` is one of the `count` pages from `first` on. -/
def InRange (first count n : Nat) : Prop := first ≤ n ∧ n < first + count

instance (first count n : Nat) : Decidable (InRange first count n) :=
  inferInstanceAs (Decidable (_ ∧ _))

/-- The table without pages. -/
def empty : PageTable := ⟨[], List.Pairwise.nil⟩

/-- The page with number `n`, if it is mapped. -/
def get? (t : PageTable) (n : Nat) : Option Page := t.entries.lookup n

/-- Whether page `n` is mapped. -/
def isMapped (t : PageTable) (n : Nat) : Bool := (t.get? n).isSome

/-- The numbers of the mapped pages, ascending. -/
def numbers (t : PageTable) : List Nat := t.entries.map Prod.fst

/-- The mapped pages of a range, ascending. -/
def slice (t : PageTable) (first count : Nat) : List Page :=
  (t.entries.filter fun e => InRange first count e.1).map Prod.snd

/-- Whether no page of the range is mapped. -/
def isFree (t : PageTable) (first count : Nat) : Bool :=
  t.entries.all fun e => ¬ InRange first count e.1

/-- Whether every page of the range is mapped. The first page that is not
ends the search. -/
def allMapped (t : PageTable) (first : Nat) : Nat → Bool
  | 0 => true
  | count + 1 => t.isMapped first && t.allMapped (first + 1) count

/-- Whether the mapped pages of the range share protection and key. -/
def isUniform (t : PageTable) (first count : Nat) : Bool :=
  match t.slice first count with
  | [] => true
  | p :: rest => rest.all fun q => q.attributes = p.attributes

/-- The table without the pages of the range. -/
def erase (t : PageTable) (first count : Nat) : PageTable where
  entries := t.entries.filter fun e => ¬ InRange first count e.1
  ascending := t.ascending.filter _

/-- The table with no pages but those of the range. -/
def restrict (t : PageTable) (first count : Nat) : PageTable where
  entries := t.entries.filter fun e => InRange first count e.1
  ascending := t.ascending.filter _

/-- The table with every mapped page of the range changed by `f`, which
is told the page's number. -/
def update (t : PageTable) (first count : Nat) (f : Nat → Page → Page) : PageTable where
  entries := t.entries.map fun e => (e.1, if InRange first count e.1 then f e.1 e.2 else e.2)
  ascending := List.pairwise_map.2 t.ascending

/-- Consecutive pages with their numbers. -/
def number (first : Nat) : List Page → List (Nat × Page)
  | [] => []
  | p :: rest => (first, p) :: number (first + 1) rest

theorem mem_number {first : Nat} {block : List Page} {e : Nat × Page}
    (h : e ∈ number first block) : InRange first block.length e.1 := by
  induction block generalizing first with
  | nil => simp [number] at h
  | cons p rest ih =>
    simp only [number, List.mem_cons] at h
    rcases h with rfl | h
    · simp [InRange]
    · have := ih h
      simp only [InRange, List.length_cons] at *
      omega

theorem pairwise_number (first : Nat) (block : List Page) :
    (number first block).Pairwise fun a b => a.1 < b.1 := by
  induction block generalizing first with
  | nil => exact List.Pairwise.nil
  | cons p rest ih =>
    refine List.Pairwise.cons (fun e he => ?_) (ih (first + 1))
    have := mem_number he
    simp only [InRange] at this
    show first < e.1
    omega

/-- The table with `block` in place of whatever was mapped on the pages
from `first` on. -/
def splice (t : PageTable) (first : Nat) (block : List Page) : PageTable where
  entries :=
    t.entries.filter (fun e => e.1 < first) ++ number first block ++
      t.entries.filter (fun e => first + block.length ≤ e.1)
  ascending := by
    refine List.pairwise_append.2 ⟨List.pairwise_append.2 ⟨t.ascending.filter _,
      pairwise_number first block, ?_⟩, t.ascending.filter _, ?_⟩
    · intro a ha b hb
      have hb' := mem_number hb
      simp only [List.mem_filter, decide_eq_true_eq, InRange] at ha hb'
      omega
    · intro a ha b hb
      simp only [List.mem_filter, decide_eq_true_eq] at hb
      rcases List.mem_append.1 ha with ha | ha
      · simp only [List.mem_filter, decide_eq_true_eq] at ha
        omega
      · have ha' := mem_number ha
        simp only [InRange] at ha'
        omega

/-- The table with `count` copies of `page` from `first` on. -/
def fill (t : PageTable) (first count : Nat) (page : Page) : PageTable :=
  t.splice first (List.replicate count page)

/-! ## The view -/

theorem lookup_eq_some_of_mem {l : List (Nat × Page)} (hl : l.Pairwise fun a b => a.1 < b.1)
    {n : Nat} {p : Page} (h : (n, p) ∈ l) : l.lookup n = some p := by
  induction l with
  | nil => simp at h
  | cons e rest ih =>
    obtain ⟨k, q⟩ := e
    rw [List.pairwise_cons] at hl
    rcases List.mem_cons.1 h with h | h
    · cases h
      exact List.lookup_cons_self
    · have hlt : k < n := hl.1 _ h
      have hne : (n == k) = false := by simp; omega
      simpa [List.lookup_cons, hne] using ih hl.2 h

theorem mem_of_lookup_eq_some {l : List (Nat × Page)} {n : Nat} {p : Page}
    (h : l.lookup n = some p) : (n, p) ∈ l := by
  obtain ⟨before, after, rfl, _⟩ := List.lookup_eq_some_iff.1 h
  simp

/-- The view holds what the table lists. -/
theorem get?_eq_some_iff {t : PageTable} {n : Nat} {p : Page} :
    t.get? n = some p ↔ (n, p) ∈ t.entries :=
  ⟨mem_of_lookup_eq_some, lookup_eq_some_of_mem t.ascending⟩

/-- A range is gone once it is erased, and nothing else is. -/
theorem get?_erase (t : PageTable) (first count n : Nat) :
    (t.erase first count).get? n = if InRange first count n then none else t.get? n := by
  apply Option.ext
  intro p
  simp only [get?_eq_some_iff, erase, List.mem_filter, decide_eq_true_eq]
  split <;> simp [get?_eq_some_iff, *]

/-- A restriction shows its range and nothing else. -/
theorem get?_restrict (t : PageTable) (first count n : Nat) :
    (t.restrict first count).get? n = if InRange first count n then t.get? n else none := by
  apply Option.ext
  intro p
  simp only [get?_eq_some_iff, restrict, List.mem_filter, decide_eq_true_eq]
  split <;> simp [get?_eq_some_iff, *]

/-- An update changes the mapped pages of its range. -/
theorem get?_update (t : PageTable) (first count : Nat) (f : Nat → Page → Page) (n : Nat) :
    (t.update first count f).get? n =
      if InRange first count n then (t.get? n).map (f n) else t.get? n := by
  apply Option.ext
  intro p
  simp only [get?_eq_some_iff, update, List.mem_map, Prod.mk.injEq, Prod.exists]
  constructor
  · rintro ⟨k, q, hq, rfl, rfl⟩
    have := get?_eq_some_iff.2 hq
    split <;> simp_all
  · intro h
    split at h
    · obtain ⟨q, hq, rfl⟩ := Option.map_eq_some_iff.1 h
      exact ⟨n, q, get?_eq_some_iff.1 hq, rfl, by simp [*]⟩
    · exact ⟨n, p, get?_eq_some_iff.1 h, rfl, by simp [*]⟩

theorem mem_number_iff {first : Nat} {block : List Page} {n : Nat} {p : Page} :
    (n, p) ∈ number first block ↔ first ≤ n ∧ block[n - first]? = some p := by
  induction block generalizing first with
  | nil => simp [number]
  | cons q rest ih =>
    simp only [number, List.mem_cons, Prod.mk.injEq, ih]
    constructor
    · rintro (⟨rfl, rfl⟩ | ⟨hle, hp⟩)
      · simp
      · refine ⟨by omega, ?_⟩
        rw [show n - first = (n - (first + 1)) + 1 by omega]
        simpa using hp
    · rintro ⟨hle, hp⟩
      rcases Nat.eq_or_lt_of_le hle with rfl | hlt
      · left
        simpa [eq_comm] using hp
      · right
        refine ⟨hlt, ?_⟩
        rw [show n - first = (n - (first + 1)) + 1 by omega] at hp
        simpa using hp

/-- A splice puts its block into its range and leaves the rest. -/
theorem get?_splice (t : PageTable) (first : Nat) (block : List Page) (n : Nat) :
    (t.splice first block).get? n =
      if InRange first block.length n then block[n - first]? else t.get? n := by
  apply Option.ext
  intro p
  simp only [get?_eq_some_iff, splice, List.mem_append, List.mem_filter, decide_eq_true_eq,
    mem_number_iff]
  split
  · rename_i h
    simp only [InRange] at h
    constructor
    · rintro ((⟨-, h'⟩ | ⟨-, h'⟩) | ⟨-, h'⟩)
      · omega
      · exact h'
      · omega
    · intro h'
      exact Or.inl (Or.inr ⟨h.1, h'⟩)
  · rename_i h
    simp only [InRange, Classical.not_and_iff_not_or_not, Nat.not_le, Nat.not_lt] at h
    rw [get?_eq_some_iff]
    constructor
    · rintro ((⟨h', -⟩ | ⟨hle, h'⟩) | ⟨h', -⟩)
      · exact h'
      · have := (List.getElem?_eq_some_iff.1 h').1
        omega
      · exact h'
    · intro h'
      rcases h with h | h
      · exact Or.inl (Or.inl ⟨h', h⟩)
      · exact Or.inr ⟨h', h⟩

/-- A filled range holds the page throughout. -/
theorem get?_fill (t : PageTable) (first count : Nat) (page : Page) (n : Nat) :
    (t.fill first count page).get? n = if InRange first count n then some page else t.get? n := by
  rw [fill, get?_splice, List.length_replicate]
  split
  · rename_i h
    simp only [InRange] at h
    rw [List.getElem?_replicate, if_pos (by omega)]
  · rfl

/-- **Nothing but the view tells tables apart.** -/
theorem ext_get? {t u : PageTable} (h : ∀ n, t.get? n = u.get? n) : t = u := by
  obtain ⟨l, hl⟩ := t
  obtain ⟨m, hm⟩ := u
  have hmem : ∀ e, e ∈ l ↔ e ∈ m := by
    rintro ⟨n, p⟩
    rw [← get?_eq_some_iff (t := ⟨l, hl⟩), ← get?_eq_some_iff (t := ⟨m, hm⟩), h]
  have hlm : l = m := by
    clear h
    induction l generalizing m with
    | nil =>
      cases m with
      | nil => rfl
      | cons e rest => exact absurd ((hmem e).2 List.mem_cons_self) (by simp)
    | cons e rest ih =>
      cases m with
      | nil => exact absurd ((hmem e).1 List.mem_cons_self) (by simp)
      | cons e' rest' =>
        rw [List.pairwise_cons] at hl hm
        have he : e = e' := by
          rcases List.mem_cons.1 ((hmem e).1 List.mem_cons_self) with h1 | h1
          · exact h1
          · rcases List.mem_cons.1 ((hmem e').2 List.mem_cons_self) with h2 | h2
            · exact h2.symm
            · have := hm.1 _ h1
              have := hl.1 _ h2
              omega
        subst he
        congr 1
        refine ih hl.2 rest' hm.2 fun x => ?_
        have hx := hmem x
        simp only [List.mem_cons] at hx
        constructor
        · intro hxr
          rcases hx.1 (Or.inr hxr) with rfl | h'
          · exact absurd (hl.1 _ hxr) (by omega)
          · exact h'
        · intro hxr
          rcases hx.2 (Or.inr hxr) with rfl | h'
          · exact absurd (hm.1 _ hxr) (by omega)
          · exact h'
  subst hlm
  rfl

/-! ## The tests on ranges -/

/-- A page is mapped if its number is listed. -/
theorem mem_numbers_iff {t : PageTable} {n : Nat} : n ∈ t.numbers ↔ t.isMapped n = true := by
  rw [numbers, List.mem_map, isMapped, Option.isSome_iff_exists]
  constructor
  · rintro ⟨⟨k, p⟩, hmem, rfl⟩
    exact ⟨p, get?_eq_some_iff.2 hmem⟩
  · rintro ⟨p, hp⟩
    exact ⟨(n, p), get?_eq_some_iff.1 hp, rfl⟩

/-- A range is mapped when each of its pages is. -/
theorem allMapped_iff {t : PageTable} {first count : Nat} :
    t.allMapped first count = true ↔ ∀ n, InRange first count n → t.isMapped n = true := by
  induction count generalizing first with
  | zero =>
    simp only [allMapped, InRange, true_iff]
    omega
  | succ count ih =>
    simp only [allMapped, Bool.and_eq_true, ih, InRange]
    constructor
    · rintro ⟨h, hrest⟩ n hn
      rcases Nat.eq_or_lt_of_le hn.1 with rfl | hlt
      · exact h
      · exact hrest n (by omega)
    · intro h
      exact ⟨h first (by omega), fun n hn => h n (by omega)⟩

/-- A range is free when none of its pages is mapped. -/
theorem isFree_iff {t : PageTable} {first count : Nat} :
    t.isFree first count = true ↔ ∀ n, InRange first count n → t.get? n = none := by
  simp only [isFree, List.all_eq_true, decide_eq_true_eq]
  constructor
  · intro h n hn
    rw [Option.eq_none_iff_forall_ne_some]
    intro p hp
    exact h _ (get?_eq_some_iff.1 hp) hn
  · rintro h ⟨n, p⟩ hmem hn
    have := h n hn
    rw [get?_eq_some_iff.2 hmem] at this
    cases this

/-- A range is free when it holds no mapped page. -/
theorem isFree_iff_not_mapped {t : PageTable} {first count : Nat} :
    t.isFree first count = true ↔ ∀ k, t.isMapped k = true → ¬ InRange first count k := by
  rw [isFree_iff]
  refine forall_congr' fun k => ?_
  rw [isMapped, ← Option.not_isSome_iff_eq_none]
  exact ⟨fun h hk hn => h hn hk, fun h hn hk => h hk hn⟩

end PageTable

end PageWarden
