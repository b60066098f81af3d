import Mathlib.Data.Nat.Digits.Defs
import PageWarden.Policy.Switch
/-!
# Numerals — the number that a switch is compared with zero

`Switch.isOn` looks for a digit and computes nothing. Here the text is
converted: blanks and one sign, a base mark, the longest run of digits of
that base, their value in full, and of it a word of 64 bits, which is the
greatest one where the value is too large and is otherwise negated under a
minus sign (`Numeral.word`). The switch is on exactly if that word is not
zero (`isOn_iff_word_ne_zero`), since no digit but `0` is lost on the way: not to the
base mark, not to the sign, and not to the width of the word.
-/

namespace PageWarden

namespace Numeral

/-! ## The conversion -/

/-- The character writes the digit, in lower or in upper case. -/
def Writes (d : Nat) (c : Char) : Prop := c = d.digitChar ∨ c = d.digitChar.toUpper
  deriving Decidable

/-- The digit of a base that a character writes. -/
def digit? (base : Nat) (c : Char) : Option Nat := (List.range base).find? (Writes · c)

/-- The sign of a text, as whether it is a minus, and what comes after it. -/
def sign : List Char → Bool × List Char
  | '-' :: cs => (true, cs)
  | '+' :: cs => (false, cs)
  | cs => (false, cs)

/-- A hexadecimal mark stands in front, and a digit after it. -/
def Marked (cs : List Char) : Prop :=
  cs.take 2 ∈ [['0', 'x'], ['0', 'X']] ∧ cs[2]?.any (fun d => (digit? 16 d).isSome) = true
  deriving Decidable

/-- The base of an unsigned text. -/
def base (cs : List Char) : Nat :=
  if Marked cs then 16 else if cs.head? = some '0' then 8 else 10

/-- An unsigned text without a hexadecimal mark. -/
def body (cs : List Char) : List Char := if Marked cs then cs.drop 2 else cs

/-- The longest run of digits of the base that a text begins with. -/
def run (base : Nat) : List Char → List Nat
  | [] => []
  | c :: cs =>
    match digit? base c with
    | some d => d :: run base cs
    | none => []

/-- The number an unsigned text stands for; the last digit counts least. -/
def magnitude (cs : List Char) : Nat := Nat.ofDigits (base cs) (run (base cs) (body cs)).reverse

/-- The word of 64 bits for a number and its sign. -/
def saturate (negative : Bool) (n : Nat) : Nat :=
  if UInt64.size ≤ n then UInt64.size - 1
  else if negative then (UInt64.size - n) % UInt64.size else n

/-- The word that a text converts to. -/
def word (text : String) : Nat :=
  let (negative, cs) := sign (text.toList.dropWhile Text.isBlank)
  saturate negative (magnitude cs)

/-! ## Digits -/

variable {b d : Nat} {c : Char} {cs : List Char}

/-- What holds of each place in a range of characters holds of each character
between its ends. -/
theorem forall_between (first last : Nat) {P : Nat → Char → Prop}
    (h : ∀ k < last + 1 - first, P k (Char.ofNat (first + k)))
    (hc : first ≤ c.toNat ∧ c.toNat ≤ last) : P (c.toNat - first) c := by
  have hk := h (c.toNat - first) (by omega)
  rwa [Nat.add_sub_cancel' hc.1, Char.ofNat_toNat] at hk

/-- The table of digits reads no character as a digit that it is not. -/
theorem writes_of_digitValue? (h : Text.digitValue? c = some d) : d < 16 ∧ Writes d c := by
  unfold Text.digitValue? at h
  split at h
  · rename_i hfigure
    cases h
    exact forall_between '0'.toNat '9'.toNat (P := fun k c => k < 16 ∧ Writes k c)
      (by decide) hfigure
  · split at h
    · rename_i hlower
      cases h
      exact forall_between 'a'.toNat 'f'.toNat (P := fun k c => k + 10 < 16 ∧ Writes (k + 10) c)
        (by decide) hlower
    · split at h
      · rename_i hupper
        cases h
        exact forall_between 'A'.toNat 'F'.toNat (P := fun k c => k + 10 < 16 ∧ Writes (k + 10) c)
          (by decide) hupper
      · cases h

/-- Both tables of digits are one. -/
theorem digitValue?_eq_some_iff : Text.digitValue? c = some d ↔ d < 16 ∧ Writes d c := by
  have hall : ∀ k < 16, Text.digitValue? k.digitChar = some k ∧
      Text.digitValue? k.digitChar.toUpper = some k := by decide
  refine ⟨writes_of_digitValue?, ?_⟩
  rintro ⟨hd, rfl | rfl⟩
  · exact (hall d hd).1
  · exact (hall d hd).2

/-- A character is a digit of a base on both readings or on neither. -/
theorem isSome_digit? (hb : b ≤ 16) : (digit? b c).isSome = Switch.isDigit b c := by
  rw [Bool.eq_iff_iff, Switch.isDigit, Option.any_eq_true, digit?, List.find?_isSome]
  simp only [digitValue?_eq_some_iff, List.mem_range, decide_eq_true_eq]
  constructor
  · rintro ⟨d, hd, hc⟩
    exact ⟨d, ⟨by omega, hc⟩, hd⟩
  · rintro ⟨d, ⟨-, hc⟩, hd⟩
    exact ⟨d, hd, hc⟩

/-- The digit nought is written `0` and in no other way. -/
theorem digit?_eq_zero_iff (hb : b ≤ 16) (h : digit? b c = some d) : d = 0 ↔ c = '0' := by
  have hall : ∀ k < 16, (k = 0 ↔ k.digitChar = '0') ∧
      (k = 0 ↔ k.digitChar.toUpper = '0') := by decide
  have hd : d < 16 := by
    have := List.mem_range.1 (List.mem_of_find?_eq_some h)
    omega
  have hc : Writes d c := of_decide_eq_true (List.find?_some (p := (Writes · c)) h)
  rcases hc with rfl | rfl
  · exact (hall d hd).1
  · exact (hall d hd).2

/-- **Two ways to look at a run**: one of its characters is not `0`, or one
of its digits is not nought. -/
theorem hasNonzeroDigit_iff (hb : b ≤ 16) :
    Switch.hasNonzeroDigit b cs = true ↔ ∃ d ∈ run b cs, d ≠ 0 := by
  induction cs with
  | nil => simp [Switch.hasNonzeroDigit, run]
  | cons c cs ih =>
    have hsome := isSome_digit? (c := c) hb
    unfold run
    unfold Switch.hasNonzeroDigit at ih ⊢
    cases hc : digit? b c with
    | none =>
      rw [hc, Option.isSome_none] at hsome
      simp [← hsome]
    | some d =>
      rw [hc, Option.isSome_some] at hsome
      rw [List.takeWhile_cons, if_pos hsome.symm, List.any_cons, Bool.or_eq_true, ih]
      simp only [List.mem_cons, exists_eq_or_imp, decide_eq_true_eq, ne_eq,
        digit?_eq_zero_iff hb hc]

/-! ## Numbers and words -/

/-- A number is nought if all its digits are. -/
theorem ofDigits_eq_zero_iff (hb : b ≠ 0) {ds : List Nat} :
    Nat.ofDigits b ds = 0 ↔ ∀ d ∈ ds, d = 0 := by
  refine ⟨fun h => Nat.digits_zero_of_eq_zero hb h, fun h => ?_⟩
  rw [List.eq_replicate_of_mem h, Nat.ofDigits_replicate_zero]

/-- Neither the sign nor the width of the word makes a number nought. -/
theorem saturate_eq_zero_iff {negative : Bool} {n : Nat} : saturate negative n = 0 ↔ n = 0 := by
  unfold saturate UInt64.size
  split
  · omega
  · cases negative with
    | true =>
      rw [if_pos rfl]
      omega
    | false => exact Iff.rfl

/-! ## The switch -/

/-- What a marked text looks like. -/
theorem marked_iff : Marked cs ↔ ∃ x d rest, cs = '0' :: x :: d :: rest ∧
    (x = 'x' ∨ x = 'X') ∧ Switch.isDigit 16 d = true := by
  simp only [Marked, isSome_digit? le_rfl]
  match cs with
  | [] | [_] | [_, _] => simp
  | c :: x :: d :: rest => simp [and_assoc, ← and_or_left]

/-- A `0` in front that is no part of a mark means base eight, and adds
nothing to the number. -/
theorem exists_run_zero_cons (hmark : ¬ Marked ('0' :: cs)) :
    (∃ d ∈ run (base ('0' :: cs)) (body ('0' :: cs)), d ≠ 0) ↔
      Switch.hasNonzeroDigit 8 cs = true := by
  have hzero : digit? 8 '0' = some 0 := by decide
  have hcons : run 8 ('0' :: cs) = 0 :: run 8 cs := by simp only [run, hzero]
  rw [base, body, if_neg hmark, if_neg hmark, if_pos List.head?_cons, hcons,
    hasNonzeroDigit_iff (by decide)]
  simp

/-- The base mark is found alike on both readings. -/
theorem hasNonzeroDigit_baseAndDigits (cs : List Char) :
    Switch.hasNonzeroDigit (Switch.baseAndDigits cs).1 (Switch.baseAndDigits cs).2 = true ↔
      ∃ d ∈ run (base cs) (body cs), d ≠ 0 := by
  unfold Switch.baseAndDigits
  split
  · rename_i x d rest
    by_cases hmark : (x = 'x' ∨ x = 'X') ∧ Switch.isDigit 16 d = true
    · have hmarked : Marked ('0' :: x :: d :: rest) := marked_iff.2 ⟨x, d, rest, rfl, hmark⟩
      rw [if_pos hmark, base, body, if_pos hmarked, if_pos hmarked]
      exact hasNonzeroDigit_iff le_rfl
    · rw [if_neg hmark, exists_run_zero_cons]
      intro h
      obtain ⟨_, _, _, ⟨⟩, hmark'⟩ := marked_iff.1 h
      exact hmark hmark'
  · rename_i d rest hshort
    rw [exists_run_zero_cons]
    intro h
    obtain ⟨x, d', rest', ⟨⟩, -⟩ := marked_iff.1 h
    exact hshort d' rest' rfl
  · rename_i hlong hshort
    have hmarked : ¬ Marked cs := by
      intro h
      obtain ⟨x, d, rest, heq, -⟩ := marked_iff.1 h
      exact hlong x d rest heq
    by_cases hzero : cs.head? = some '0'
    · -- nothing but a `0`, in base eight or in base ten
      obtain ⟨tail, rfl⟩ := List.head?_eq_some_iff.1 hzero
      cases tail with
      | nil => decide
      | cons d rest => exact (hshort d rest rfl).elim
    · rw [base, body, if_neg hmarked, if_neg hmarked, if_neg hzero]
      exact hasNonzeroDigit_iff (b := 10) (by decide)

/-- Both drop the same signs. -/
theorem sign_snd (cs : List Char) : (sign cs).2 = Text.unsigned cs := by
  fun_cases sign
  · rfl
  · rfl
  · rename_i hminus hplus
    fun_cases Text.unsigned
    · exact (hplus _ rfl).elim
    · exact (hminus _ rfl).elim
    · rfl

/-- **A switch is on exactly if its word is not zero.** -/
theorem isOn_iff_word_ne_zero (text : String) : Switch.isOn text = true ↔ word text ≠ 0 := by
  have hbase : base (sign (text.toList.dropWhile Text.isBlank)).2 ≠ 0 := by
    unfold base
    split_ifs <;> decide
  simp only [Switch.isOn, word, Switch.unsigned, hasNonzeroDigit_baseAndDigits, ← sign_snd, ne_eq,
    saturate_eq_zero_iff, magnitude, ofDigits_eq_zero_iff hbase, List.mem_reverse, not_forall,
    exists_prop]

/-- Signs, marks without a digit, digits of the wrong base, and a number that
is too large. -/
example : ["\t+42", "-1", "0x10", "0Xg", "-09", "0", "+-1", "-18446744073709551616"].map word =
    [42, 0xffffffffffffffff, 16, 0, 0, 0, 0, 0xffffffffffffffff] := by
  decide +kernel

end Numeral

end PageWarden
