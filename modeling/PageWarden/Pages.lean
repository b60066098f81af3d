/-!
# Page arithmetic

Memory is handed out in pages of 4096 bytes. A length is rounded up to
whole pages, an address is rounded down to the start of its page.
Addresses and lengths are natural numbers, so no sum wraps. They are meant
to stay below 2^64, like the words the program adds: where a sum passes
that bound the program stops, as it does over a range that takes in the
topmost page and so has no end among the addresses. What is proved of a
range is meant for one that ends below the bound together with its guards.

`roundUp` takes the page size because a record may be asked about any
page size; everything that concerns the address space uses `pageSize`.
-/

namespace PageWarden

/-- The number of bytes in a page. -/
def pageSize : Nat := 4096

/-- The least multiple of `size` that is at least `n`. -/
def roundUp (n size : Nat) : Nat := (n + size - 1) / size * size

/-- The start of the page of size `size` that holds `address`. -/
def pageFloor (address size : Nat) : Nat := address / size * size

/-- How many pages `length` bytes need. -/
def pagesFor (length : Nat) : Nat := (length + pageSize - 1) / pageSize

/-- The number of the page that holds `address`. -/
def pageOf (address : Nat) : Nat := address / pageSize

/-- Whether `address` is the start of a page. -/
def Aligned (address : Nat) : Prop := address % pageSize = 0

instance (address : Nat) : Decidable (Aligned address) :=
  inferInstanceAs (Decidable (address % pageSize = 0))

/-! ## Rounding -/

theorem pageSize_pos : 0 < pageSize := by decide

/-- Rounding to pages is counting pages. -/
theorem roundUp_eq_pagesFor (n : Nat) : roundUp n pageSize = pagesFor n * pageSize := rfl

/-- Rounding up loses nothing. -/
theorem le_roundUp (n : Nat) : n ≤ roundUp n pageSize := by
  simp only [roundUp, pageSize]
  omega

/-- Rounding up adds less than a page. -/
theorem roundUp_lt (n : Nat) : roundUp n pageSize < n + pageSize := by
  simp only [roundUp, pageSize]
  omega

/-- A length is empty exactly when it needs no page. -/
theorem pagesFor_eq_zero_iff {n : Nat} : pagesFor n = 0 ↔ n = 0 := by
  simp only [pagesFor, pageSize]
  omega

/-- What is not empty needs a page. -/
theorem pagesFor_pos {n : Nat} (h : 0 < n) : 0 < pagesFor n :=
  Nat.pos_of_ne_zero fun hzero => Nat.ne_of_gt h (pagesFor_eq_zero_iff.1 hzero)

/-- A page's start is aligned. -/
theorem aligned_mul_pageSize (n : Nat) : Aligned (n * pageSize) := by
  simp only [Aligned, pageSize]
  omega

/-- A page's start lies in that page. -/
theorem pageOf_start (n : Nat) : pageOf (n * pageSize) = n := Nat.mul_div_cancel n pageSize_pos

/-- The start of an aligned address's page is the address. -/
theorem pageOf_mul_pageSize {a : Nat} (h : Aligned a) : pageOf a * pageSize = a := by
  simp only [Aligned, pageOf, pageSize] at *
  omega

end PageWarden
