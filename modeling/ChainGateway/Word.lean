namespace ChainGateway

@[ext]
structure Word (bits : Nat) where
  toNat : Nat
  toNat_lt : toNat < Nat.pow 2 bits
deriving DecidableEq, Repr

namespace Word

variable {bits : Nat}

instance : Inhabited (Word bits) := ⟨0, Nat.two_pow_pos bits⟩

instance : Zero (Word bits) := ⟨default⟩

def ofNat? (n : Nat) : Option (Word bits) :=
  if h : n < Nat.pow 2 bits then some ⟨n, h⟩ else none

def maximum (bits : Nat) : Word bits :=
  ⟨Nat.pow 2 bits - 1, Nat.sub_lt (Nat.two_pow_pos bits) Nat.one_pos⟩

/-- The nearest word to a number: the number itself, or the greatest word above it. -/
def saturate (n : Nat) : Word bits := (ofNat? n).getD (maximum bits)

theorem ofNat?_toNat (w : Word bits) : ofNat? w.toNat = some w := dif_pos w.toNat_lt

theorem ofNat?_eq_some_iff {n : Nat} {w : Word bits} : ofNat? n = some w ↔ w.toNat = n := by
  constructor
  · intro h
    unfold ofNat? at h
    split at h
    · injection h with h; rw [← h]
    · simp at h
  · rintro rfl
    exact ofNat?_toNat w

theorem toNat_saturate (n : Nat) :
    (saturate n : Word bits).toNat = min n (Nat.pow 2 bits - 1) := by
  unfold saturate ofNat?
  split
  · rename_i h
    exact (Nat.min_eq_left (Nat.le_sub_one_of_lt h)).symm
  · rename_i h
    exact (Nat.min_eq_right (Nat.le_trans (Nat.sub_le _ _) (Nat.le_of_not_lt h))).symm

end Word

@[ext]
structure SignedWord where
  toInt : Int
  le_toInt : -0x8000000000000000 ≤ toInt
  toInt_lt : toInt < 0x8000000000000000
deriving DecidableEq, Repr

namespace SignedWord

instance : Inhabited SignedWord := ⟨0, by decide, by decide⟩

instance : Zero SignedWord := ⟨default⟩

def ofInt? (n : Int) : Option SignedWord :=
  if h : -0x8000000000000000 ≤ n ∧ n < 0x8000000000000000 then some ⟨n, h.1, h.2⟩ else none

theorem ofInt?_toInt (w : SignedWord) : ofInt? w.toInt = some w := by
  have h : -0x8000000000000000 ≤ w.toInt ∧ w.toInt < 0x8000000000000000 :=
    ⟨w.le_toInt, w.toInt_lt⟩
  simp only [ofInt?, h, and_self, ↓reduceDIte]

end SignedWord

end ChainGateway
