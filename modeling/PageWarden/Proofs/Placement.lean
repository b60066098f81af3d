import Mathlib.Data.List.Perm.Subperm
import Mathlib.Order.Bounds.Basic
import PageWarden.Space.Basic
/-!
# Placement — the highest gap

A mapping whose place is left to the system goes as high as it can below
the ceiling. The search for that place looks at windows, which are as many
pages as are asked for: first the one right below the ceiling, and as long
as a page of the window is mapped, next the one right below the last such
page (`PageTable.Descent`). A jump passes over no gap that is long enough,
since such a gap would hold the page that is jumped to
(`room_iff_of_mapped`); and each lands on another mapped page, so that
there are no more jumps than pages (`Descent.length_le`).

The table is searched in one walk over its pages instead, which takes the
same way (`highestFit_descent`). So what `PageTable.topmostGap` answers is
the highest start there is, and where it answers none there is none; and
mapping memory, which goes by it, takes no page that is mapped already
unless it is told to, and wants for room only where there is none
(`placement_exact`).
-/

namespace PageWarden

namespace PageTable

/-- **Room for `count` pages** from `first` on: they end at or below the
ceiling, and none of them is mapped. -/
structure Room (t : PageTable) (count ceiling first : Nat) : Prop where
  below : first + count ≤ ceiling
  free : t.isFree first count = true

/-- The last page of a range that is mapped. -/
def LastMapped (t : PageTable) (first count n : Nat) : Prop :=
  IsGreatest {k | InRange first count k ∧ t.isMapped k = true} n

/-- **The search, window by window**: below a ceiling it jumps to the listed
pages one after the other and comes to an answer. -/
inductive Descent (t : PageTable) (count : Nat) : Nat → List Nat → Option Nat → Prop
  /-- There are fewer pages below the ceiling than are asked for. -/
  | ended {ceiling : Nat} : ceiling < count → Descent t count ceiling [] none
  /-- The window below the ceiling is free. -/
  | found {ceiling : Nat} : count ≤ ceiling → t.isFree (ceiling - count) count = true →
      Descent t count ceiling [] (some (ceiling - count))
  /-- The last page of the window that is mapped becomes the ceiling. -/
  | jump {ceiling n : Nat} {jumps : List Nat} {answer : Option Nat} :
      count ≤ ceiling → t.LastMapped (ceiling - count) count n →
      Descent t count n jumps answer → Descent t count ceiling (n :: jumps) answer

/-- What a search below a ceiling should answer: the highest start of room,
and nothing where there is no room. -/
def Exact (t : PageTable) (count ceiling : Nat) : Option Nat → Prop
  | some first => IsGreatest {k | t.Room count ceiling k} first
  | none => ∀ k, ¬ t.Room count ceiling k

variable {t : PageTable} {count ceiling first n : Nat} {answer : Option Nat}

/-- The numbers are listed once each, and from the top they descend. -/
theorem pairwise_reverse_numbers (t : PageTable) : t.numbers.reverse.Pairwise (· > ·) := by
  rw [List.pairwise_reverse, numbers, List.pairwise_map]
  exact t.ascending

namespace Exact

/-- An answer that is exact gives the highest start. -/
theorem eq_some_iff (h : t.Exact count ceiling answer) :
    answer = some first ↔ IsGreatest {k | t.Room count ceiling k} first := by
  cases answer with
  | some a =>
    rw [Option.some.injEq]
    exact ⟨fun heq => heq ▸ h, fun hfirst => IsGreatest.unique h hfirst⟩
  | none => exact iff_of_false nofun fun hfirst => h first hfirst.1

/-- And none exactly where there is no room. -/
theorem eq_none_iff (h : t.Exact count ceiling answer) :
    answer = none ↔ ∀ k, ¬ t.Room count ceiling k := by
  cases answer with
  | some a => exact iff_of_false nofun fun hno => hno a h.1
  | none => exact iff_of_true rfl h

/-- It says the same of any ceiling below which there is the same room. -/
theorem congr {ceiling' : Nat} (h : t.Exact count ceiling answer)
    (hroom : ∀ k, t.Room count ceiling' k ↔ t.Room count ceiling k) :
    t.Exact count ceiling' answer := by
  cases answer with
  | some a => simpa only [Exact, hroom] using h
  | none => simpa only [Exact, hroom] using h

end Exact

/-! ## The search -/

/-- **A jump passes over no room.** What begins in the window or below it and
fits under the ceiling would hold the page, or ends below it. -/
theorem room_iff_of_mapped (hn : InRange (ceiling - count) count n) (hle : count ≤ ceiling)
    (hmapped : t.isMapped n = true) : t.Room count ceiling first ↔ t.Room count n first := by
  simp only [InRange] at hn
  constructor
  · intro hroom
    have hbelow := hroom.below
    have hout := isFree_iff_not_mapped.1 hroom.free n hmapped
    simp only [InRange] at hout
    exact ⟨by omega, hroom.free⟩
  · intro hroom
    have hbelow := hroom.below
    exact ⟨by omega, hroom.free⟩

namespace Descent

variable {jumps : List Nat}

/-- **The search is exact**: each jump leaves the room that there is, and the
last window is itself the highest or is too low. -/
theorem exact (h : t.Descent count ceiling jumps answer) : t.Exact count ceiling answer := by
  induction h with
  | ended hlt =>
    intro k hroom
    have hbelow := hroom.below
    omega
  | found hle hfree =>
    refine ⟨⟨by omega, hfree⟩, fun k hroom => ?_⟩
    have hbelow := hroom.below
    omega
  | jump hle hlast _ ih => exact ih.congr fun k => room_iff_of_mapped hlast.1.1 hle hlast.1.2

/-- The search descends over mapped pages. -/
theorem pairwise (h : t.Descent count ceiling jumps answer) :
    jumps.Pairwise (· > ·) ∧ ∀ k ∈ jumps, k < ceiling ∧ t.isMapped k = true := by
  induction h with
  | ended | found => exact ⟨List.Pairwise.nil, fun k hk => absurd hk List.not_mem_nil⟩
  | jump hle hlast _ ih =>
    obtain ⟨hdesc, hmem⟩ := ih
    have hlt := hlast.1.1.2
    refine ⟨List.pairwise_cons.2 ⟨fun k hk => (hmem k hk).1, hdesc⟩, fun k hk => ?_⟩
    rcases List.mem_cons.1 hk with rfl | hk
    · exact ⟨by omega, hlast.1.2⟩
    · have hk := hmem k hk
      exact ⟨by omega, hk.2⟩

/-- **The search ends**, after at most as many jumps as there are pages. -/
theorem length_le (h : t.Descent count ceiling jumps answer) :
    jumps.length ≤ t.numbers.length := by
  obtain ⟨hdesc, hmem⟩ := h.pairwise
  have hnodup : jumps.Nodup := hdesc.imp fun hlt => Nat.ne_of_gt hlt
  exact (hnodup.subperm fun k hk => mem_numbers_iff.2 (hmem k hk).2).length_le

/-- It can go one way only. -/
theorem unique {jumps' : List Nat} {answer' : Option Nat}
    (h : t.Descent count ceiling jumps answer) (h' : t.Descent count ceiling jumps' answer') :
    jumps' = jumps ∧ answer' = answer := by
  induction h generalizing jumps' answer' with
  | ended hlt =>
    cases h' with
    | ended => exact ⟨rfl, rfl⟩
    | found hle | jump hle => omega
  | found hle hfree =>
    cases h' with
    | ended hlt => omega
    | found => exact ⟨rfl, rfl⟩
    | jump _ hlast =>
      exact absurd hlast.1.1 (isFree_iff_not_mapped.1 hfree _ hlast.1.2)
  | jump hle hlast _ ih =>
    cases h' with
    | ended hlt => omega
    | found _ hfree =>
      exact absurd hlast.1.1 (isFree_iff_not_mapped.1 hfree _ hlast.1.2)
    | jump _ hlast' hrest =>
      obtain rfl := hlast'.unique hlast
      obtain ⟨rfl, rfl⟩ := ih hrest
      exact ⟨rfl, rfl⟩

end Descent

/-! ## The walk over the pages -/

/-- Below a ceiling that is too low nothing fits. -/
theorem highestFit_of_lt {numbers : List Nat} (h : ceiling < count) :
    highestFit count ceiling numbers = none := by
  induction numbers generalizing ceiling with
  | nil => exact if_neg (Nat.not_le.2 h)
  | cons n below ih =>
    rw [highestFit]
    split
    · exact ih h
    · rw [if_neg (by omega)]
      exact ih (by omega)

/-- **The walk goes the way of the search**: over the mapped pages from the
top down, a page that leaves room above it ends the walk below the
ceiling, and one that does not is jumped to. -/
theorem highestFit_descent {numbers : List Nat} (hdesc : numbers.Pairwise (· > ·))
    (hnumbers : ∀ k < ceiling, k ∈ numbers ↔ t.isMapped k = true) :
    ∃ jumps, t.Descent count ceiling jumps (highestFit count ceiling numbers) := by
  by_cases hle : count ≤ ceiling
  swap
  · rw [highestFit_of_lt (by omega)]
    exact ⟨[], .ended (by omega)⟩
  induction numbers generalizing ceiling with
  | nil =>
    rw [highestFit, if_pos hle]
    refine ⟨[], .found hle (isFree_iff_not_mapped.2 fun k hk hin => ?_)⟩
    exact List.not_mem_nil ((hnumbers k (by have := hin.2; omega)).2 hk)
  | cons n below ih =>
    obtain ⟨hlt, hdesc⟩ := List.pairwise_cons.1 hdesc
    rw [highestFit]
    by_cases hceil : ceiling ≤ n
    · -- a page at or above the ceiling is none of those below it
      rw [if_pos hceil]
      refine ih hdesc (fun k hk => ?_) hle
      rw [← hnumbers k hk, List.mem_cons, or_iff_right (by omega)]
    have hmapped : t.isMapped n = true := (hnumbers n (by omega)).1 List.mem_cons_self
    have hgreatest : ∀ k < ceiling, t.isMapped k = true → k ≤ n := fun k hk hmk => by
      rcases List.mem_cons.1 ((hnumbers k hk).2 hmk) with rfl | hmem
      · exact Nat.le_refl k
      · exact Nat.le_of_lt (hlt k hmem)
    rw [if_neg hceil]
    by_cases hroom : n + count < ceiling
    · -- page `n` lies below the window, and every mapped page below the ceiling is at most `n`
      rw [if_pos hroom]
      refine ⟨[], .found hle (isFree_iff_not_mapped.2 fun k hk hin => ?_)⟩
      simp only [InRange] at hin
      have := hgreatest k (by omega) hk
      omega
    · -- it lies in the window, and no page behind it does
      rw [if_neg hroom]
      have hlast : t.LastMapped (ceiling - count) count n :=
        ⟨⟨by simp only [InRange]; omega, hmapped⟩,
          fun k hk => hgreatest k (by have := hk.1.2; omega) hk.2⟩
      by_cases hlow : n < count
      · rw [highestFit_of_lt hlow]
        exact ⟨[n], .jump hle hlast (.ended hlow)⟩
      · have hbelow : ∀ k < n, k ∈ below ↔ t.isMapped k = true := fun k hk => by
          rw [← hnumbers k (by omega), List.mem_cons, or_iff_right (by omega)]
        obtain ⟨jumps, hjumps⟩ := ih hdesc hbelow (by omega)
        exact ⟨n :: jumps, .jump hle hlast hjumps⟩

/-- **The gap that is chosen is what the search finds.** -/
theorem descent_topmostGap (t : PageTable) (count : Nat) :
    ∃ jumps, t.Descent count topPage jumps (t.topmostGap count) :=
  highestFit_descent t.pairwise_reverse_numbers fun k _ => by
    rw [List.mem_reverse, mem_numbers_iff]

/-- It is the highest there is. -/
theorem exact_topmostGap (t : PageTable) (count : Nat) :
    t.Exact count topPage (t.topmostGap count) := by
  obtain ⟨jumps, hjumps⟩ := t.descent_topmostGap count
  exact hjumps.exact

/-- It is free. -/
theorem isFree_of_topmostGap (h : t.topmostGap count = some first) :
    t.isFree first count = true :=
  ((t.exact_topmostGap count).eq_some_iff.1 h).1.free

end PageTable

namespace Space

variable {s : Space} {count first : Nat}

/-! ## Room by address -/

/-- **Room for `length` bytes** at an address: a page begins there, the bytes
end at or below the ceiling, and none of them is mapped. -/
structure Room (s : Space) (length address : Nat) : Prop where
  aligned : Aligned address
  below : address + length ≤ topPage * pageSize
  free : ∀ x, address ≤ x → x < address + length → s.table.isMapped (pageOf x) = false

/-- Room for whole pages is room in the table. -/
theorem room_iff : s.Room (count * pageSize) (first * pageSize) ↔
    s.table.Room count topPage first := by
  constructor
  · intro hroom
    refine ⟨Nat.le_of_mul_le_mul_right ?_ pageSize_pos,
      PageTable.isFree_iff_not_mapped.2 fun k hk hin => ?_⟩
    · rw [Nat.add_mul]
      exact hroom.below
    · have hlt := Nat.mul_lt_mul_of_pos_right hin.2 pageSize_pos
      rw [Nat.add_mul] at hlt
      have hpage := hroom.free _ (Nat.mul_le_mul_right pageSize hin.1) hlt
      rw [pageOf_start, hk] at hpage
      cases hpage
  · intro hroom
    refine ⟨aligned_mul_pageSize first, ?_, fun x hle hlt => ?_⟩
    · rw [← Nat.add_mul]
      exact Nat.mul_le_mul_right pageSize hroom.below
    · rw [← Bool.not_eq_true]
      intro hmapped
      refine PageTable.isFree_iff_not_mapped.1 hroom.free _ hmapped ?_
      simp only [PageTable.InRange, pageOf, pageSize] at *
      omega

/-- The highest address with room is the start of the highest page with it. -/
theorem isGreatest_room_iff :
    IsGreatest {a | s.Room (count * pageSize) a} (first * pageSize) ↔
      IsGreatest {k | s.table.Room count topPage k} first := by
  refine and_congr room_iff ⟨fun h k hk => ?_, fun h a ha => ?_⟩
  · exact Nat.le_of_mul_le_mul_right (h (room_iff.2 hk)) pageSize_pos
  · have hpage := pageOf_mul_pageSize ha.aligned
    rw [← hpage] at ha ⊢
    exact Nat.mul_le_mul_right pageSize (h (room_iff.1 ha))

/-- There is room at no address where there is none in the table. -/
theorem forall_not_room_iff :
    (∀ a, ¬ s.Room (count * pageSize) a) ↔ ∀ k, ¬ s.table.Room count topPage k := by
  refine ⟨fun h k hk => h _ (room_iff.2 hk), fun h a ha => ?_⟩
  rw [← pageOf_mul_pageSize ha.aligned] at ha
  exact h _ (room_iff.1 ha)

/-! ## Where a mapping goes -/

/-- **The place is left to the system**: no flag makes the address binding,
and it is no hint that can be followed either. -/
structure Unbound (s : Space) (address count : Nat) (flags : MapFlags) : Prop where
  notExact : flags.noReplace = false
  notFixed : flags.fixed = false
  noHint : ¬ (address ≠ 0 ∧ Aligned address ∧ s.table.isFree (pageOf address) count = true)

variable {address length a : Nat} {rights : Rights} {flags : MapFlags}

/-- A place that is left to the system is the highest gap. -/
theorem choosePage_of_unbound (h : s.Unbound address count flags) :
    s.choosePage address count flags =
      match s.table.topmostGap count with
      | some first => .ok first
      | none => .error Errno.nomem := by
  have hexact : ¬ flags.noReplace = true := by
    rw [h.notExact]
    exact Bool.false_ne_true
  have hfixed : ¬ flags.fixed = true := by
    rw [h.notFixed]
    exact Bool.false_ne_true
  exact (if_neg hexact).trans ((if_neg hfixed).trans (if_neg h.noHint))

/-- Only a place that is left to the system is one there is no room for. -/
theorem choosePage_eq_nomem_iff : s.choosePage address count flags = .error Errno.nomem ↔
    s.Unbound address count flags ∧ s.table.topmostGap count = none := by
  have hinval : (Except.error Errno.inval : Except Errno Nat) ≠ .error Errno.nomem := by decide
  have hexist : (Except.error Errno.exist : Except Errno Nat) ≠ .error Errno.nomem := by decide
  constructor
  · intro h
    unfold choosePage at h
    split at h
    · split at h
      · exact absurd h hinval
      · split at h
        · cases h
        · exact absurd h hexist
    · rename_i hexact
      split at h
      · split at h
        · cases h
        · exact absurd h hinval
      · rename_i hfixed
        split at h
        · cases h
        · rename_i hhint
          split at h
          · cases h
          · rename_i hgap
            exact ⟨⟨Bool.not_eq_true _ ▸ hexact, Bool.not_eq_true _ ▸ hfixed, hhint⟩, hgap⟩
  · rintro ⟨hunbound, hgap⟩
    rw [choosePage_of_unbound hunbound, hgap]

/-- A mapping that replaces nothing starts on free pages. -/
theorem isFree_of_choosePage (hflags : flags.fixed = true → flags.noReplace = true)
    (h : s.choosePage address count flags = .ok first) :
    s.table.isFree first count = true := by
  unfold choosePage at h
  split at h
  · split at h
    · cases h
    · split at h
      · rename_i hfree
        cases h
        exact hfree
      · cases h
  · rename_i hexact
    rw [if_neg fun hfixed => hexact (hflags hfixed)] at h
    split at h
    · rename_i hhint
      cases h
      exact hhint.2.2
    · split at h
      · rename_i hgap
        cases h
        exact PageTable.isFree_of_topmostGap hgap
      · cases h

/-- A mapping answers where the page it chose begins. -/
theorem map_fst (hlen : 0 < length) : (s.map address length rights flags).1 =
    (s.choosePage address (pagesFor length) flags).map (· * pageSize) := by
  rw [map, if_neg (by omega)]
  cases s.choosePage address (pagesFor length) flags <;> rfl

/-- **A mapping overlaps no mapped page**, unless its address is binding and
may be taken from others. -/
theorem not_mapped_of_map (hlen : 0 < length)
    (hflags : flags.fixed = true → flags.noReplace = true)
    (h : (s.map address length rights flags).1 = .ok a) {x : Nat} (hle : a ≤ x)
    (hlt : x < a + roundUp length pageSize) : s.table.isMapped (pageOf x) = false := by
  rw [map_fst hlen] at h
  cases hfirst : s.choosePage address (pagesFor length) flags with
  | error e =>
    rw [hfirst] at h
    cases h
  | ok first =>
    rw [hfirst] at h
    obtain rfl := Except.ok.inj h
    have hfree := PageTable.isFree_iff_not_mapped.1 (isFree_of_choosePage hflags hfirst)
    rw [← Bool.not_eq_true]
    intro hmapped
    refine hfree _ hmapped ?_
    rw [roundUp_eq_pagesFor] at hlt
    simp only [PageTable.InRange, pageOf, pageSize] at *
    omega

/-- **Left to the system, a mapping goes to the highest address with room.** -/
theorem map_eq_ok_iff_of_unbound (hlen : 0 < length)
    (h : s.Unbound address (pagesFor length) flags) :
    (s.map address length rights flags).1 = .ok a ↔
      IsGreatest {b | s.Room (roundUp length pageSize) b} a := by
  have hexact := s.table.exact_topmostGap (pagesFor length)
  rw [map_fst hlen, choosePage_of_unbound h, roundUp_eq_pagesFor]
  constructor
  · intro hmap
    cases hgap : s.table.topmostGap (pagesFor length) with
    | none =>
      rw [hgap] at hmap
      cases hmap
    | some first =>
      rw [hgap] at hmap
      obtain rfl := Except.ok.inj hmap
      exact isGreatest_room_iff.2 (hexact.eq_some_iff.1 hgap)
  · intro hgreatest
    have hstart := pageOf_mul_pageSize hgreatest.1.aligned
    rw [← hstart, isGreatest_room_iff, ← hexact.eq_some_iff] at hgreatest
    rw [hgreatest]
    exact congrArg Except.ok hstart

/-- **A mapping wants for room** only where its place is left to the system
and there is none. -/
theorem map_eq_nomem_iff (hlen : 0 < length) :
    (s.map address length rights flags).1 = .error Errno.nomem ↔
      s.Unbound address (pagesFor length) flags ∧
        ∀ b, ¬ s.Room (roundUp length pageSize) b := by
  have hexact := s.table.exact_topmostGap (pagesFor length)
  rw [roundUp_eq_pagesFor, forall_not_room_iff, ← hexact.eq_none_iff, ← choosePage_eq_nomem_iff,
    map_fst hlen]
  cases s.choosePage address (pagesFor length) flags with
  | error e =>
    exact ⟨fun h => congrArg _ (Except.error.inj h), fun h => congrArg _ (Except.error.inj h)⟩
  | ok first => exact iff_of_false nofun nofun

/-- **Placement is exact.** In every table and for every number of pages the
search ends, in one way only and after at most as many jumps as there are
pages, and what it finds is what `topmostGap` answers: the highest
address with room, or none exactly where there is none. So a mapping
overlaps no mapped page unless its address is binding and may be taken
from others; left to the system it goes to the highest address with
room; and it is refused for want of room only where there is none. -/
theorem placement_exact (s : Space) :
    (∀ count, ∃ jumps, s.table.Descent count topPage jumps (s.table.topmostGap count) ∧
      jumps.length ≤ s.table.numbers.length ∧
      ∀ jumps' answer, s.table.Descent count topPage jumps' answer →
        jumps' = jumps ∧ answer = s.table.topmostGap count) ∧
    (∀ count first, s.table.topmostGap count = some first ↔
      IsGreatest {a | s.Room (count * pageSize) a} (first * pageSize)) ∧
    (∀ count, s.table.topmostGap count = none ↔ ∀ a, ¬ s.Room (count * pageSize) a) ∧
    ∀ address length rights flags, 0 < length →
      ((flags.fixed = true → flags.noReplace = true) →
        ∀ a, (s.map address length rights flags).1 = .ok a →
          ∀ x, a ≤ x → x < a + roundUp length pageSize →
            s.table.isMapped (pageOf x) = false) ∧
      (s.Unbound address (pagesFor length) flags →
        ∀ a, (s.map address length rights flags).1 = .ok a ↔
          IsGreatest {b | s.Room (roundUp length pageSize) b} a) ∧
      ((s.map address length rights flags).1 = .error Errno.nomem ↔
        s.Unbound address (pagesFor length) flags ∧
          ∀ b, ¬ s.Room (roundUp length pageSize) b) := by
  refine ⟨fun count => ?_, fun count first => ?_, fun count => ?_,
    fun address length rights flags hlen => ⟨fun hflags a h x => ?_, fun h a => ?_, ?_⟩⟩
  · obtain ⟨jumps, hjumps⟩ := s.table.descent_topmostGap count
    exact ⟨jumps, hjumps, hjumps.length_le, fun jumps' answer h => hjumps.unique h⟩
  · rw [isGreatest_room_iff, (s.table.exact_topmostGap count).eq_some_iff]
  · rw [forall_not_room_iff, (s.table.exact_topmostGap count).eq_none_iff]
  · exact not_mapped_of_map hlen hflags h
  · exact map_eq_ok_iff_of_unbound hlen h
  · exact map_eq_nomem_iff hlen

/-- Three pages are mapped, with a page free between the first two and the
third at the ceiling. -/
def gapped : Space where
  table := ⟨[(topPage - 3, .fresh .read), (topPage - 1, .fresh .read), (topPage, .fresh .read)],
    by decide⟩

/-- One page goes between them; two go below them, also where a hint asks
for the gap; and where more is asked for than there is below the
ceiling there is no room. -/
theorem placement_exact_gapped :
    IsGreatest {a | gapped.Room 4096 a} 0x7effffffe000 ∧
      IsGreatest {a | gapped.Room (roundUp 5000 pageSize) a} 0x7effffffb000 ∧
      gapped.table.isMapped (pageOf 0x7effffffb000) = false ∧
      ∀ a, ¬ gapped.Room (roundUp 0x7f0000000000 pageSize) a := by
  have hunbound : gapped.Unbound 0x7effffffe000 (pagesFor 5000) .privateAnonymous :=
    ⟨by decide, by decide, by decide +kernel⟩
  obtain ⟨-, hsome, -, hmap⟩ := placement_exact gapped
  obtain ⟨hfree, hplace, -⟩ := hmap 0x7effffffe000 5000 .read .privateAnonymous (by decide)
  obtain ⟨-, -, hroom⟩ := hmap 0 0x7f0000000000 .read .privateAnonymous (by decide)
  have hok : (gapped.map 0x7effffffe000 5000 .read .privateAnonymous).1 = .ok 0x7effffffb000 := rfl
  exact ⟨(hsome 1 (topPage - 2)).1 rfl, (hplace hunbound _).1 hok,
    hfree (by decide) _ hok _ (Nat.le_refl _) (by decide), (hroom.1 rfl).2⟩

end Space

end PageWarden
