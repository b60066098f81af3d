/-!
# Access rights

What a page allows, as the 32 bits a mapping call carries. Three bits
have a meaning here — reading, writing, executing — and every other bit
is kept as it came, so a value passes through unchanged.

`Rights.has` is inclusion of bit sets and `Rights.union` their union;
the lemmas below say so bit by bit.
-/

namespace PageWarden

/-- The protection bits of a request or of a page. -/
structure Rights where
  /-- All 32 bits, named or not. -/
  bits : BitVec 32
deriving DecidableEq, Repr

namespace Rights

/-- No access. -/
def noAccess : Rights := ⟨0⟩

/-- Reading alone. -/
def read : Rights := ⟨1⟩

/-- Writing alone. -/
def write : Rights := ⟨2⟩

/-- Executing alone. -/
def exec : Rights := ⟨4⟩

/-- Reading and writing, what a fresh scratch mapping is given. -/
def readWrite : Rights := ⟨3⟩

/-- Writing and executing, the combination a rule forbids. -/
def writeExec : Rights := ⟨6⟩

/-- The rights a signed word stands for. -/
def ofInt (word : Int) : Rights := ⟨BitVec.ofInt 32 word⟩

/-- The signed word the rights are passed as. -/
def toInt (r : Rights) : Int := r.bits.toInt

/-- What either side allows. -/
def union (r s : Rights) : Rights := ⟨r.bits ||| s.bits⟩

/-- Whether every bit of `s` is among those of `r`. -/
def has (r s : Rights) : Bool := r.bits &&& s.bits == s.bits

/-- Whether memory with these rights is writable and executable at once. -/
def isWriteExec (r : Rights) : Bool := r.has writeExec

/-- The triplet `rwx`, with a dash for what is missing. -/
def display (r : Rights) : String :=
  let mark (s : Rights) (c : Char) : Char := if r.has s then c else '-'
  String.ofList [mark read 'r', mark write 'w', mark exec 'x']

/-! ## Inclusion, bit by bit -/

/-- Inclusion is inclusion of the bits. -/
theorem has_iff {r s : Rights} :
    r.has s = true ↔ ∀ i : Nat, s.bits.getLsbD i = true → r.bits.getLsbD i = true := by
  simp only [has, beq_iff_eq]
  constructor
  · intro h i hs
    rw [← h, BitVec.getLsbD_and, Bool.and_eq_true] at hs
    exact hs.1
  · intro h
    apply BitVec.eq_of_getLsbD_eq
    intro i _
    rw [BitVec.getLsbD_and]
    cases hs : s.bits.getLsbD i with
    | false => simp
    | true => simp [h i hs]

/-- Rights include themselves. -/
theorem has_refl (r : Rights) : r.has r = true := by simp [has]

/-- Inclusion composes. -/
theorem has_trans {r s t : Rights} (hrs : r.has s = true) (hst : s.has t = true) :
    r.has t = true :=
  has_iff.2 fun i hi => has_iff.1 hrs i (has_iff.1 hst i hi)

/-- A union includes its left side. -/
theorem union_has_left (r s : Rights) : (r.union s).has r = true :=
  has_iff.2 fun i hi => by simp [union, hi]

/-- A union includes its right side. -/
theorem union_has_right (r s : Rights) : (r.union s).has s = true :=
  has_iff.2 fun i hi => by simp [union, hi]

/-- A union is included when both sides are. -/
theorem has_union {r s t : Rights} :
    r.has (s.union t) = true ↔ r.has s = true ∧ r.has t = true := by
  simp only [has_iff, union, BitVec.getLsbD_or, Bool.or_eq_true]
  constructor
  · exact fun h => ⟨fun i hi => h i (Or.inl hi), fun i hi => h i (Or.inr hi)⟩
  · rintro ⟨hs, ht⟩ i (hi | hi)
    · exact hs i hi
    · exact ht i hi

/-- Writing and executing at once is the one and the other. -/
theorem isWriteExec_iff {r : Rights} :
    r.isWriteExec = true ↔ r.has write = true ∧ r.has exec = true :=
  has_union (s := write) (t := exec)

end Rights

end PageWarden
