import Mathlib.Data.List.GetD
import Mathlib.Data.Nat.Bitwise
import ChainGateway.Crypto.Keccak

namespace ChainGateway.Crypto.Keccak

def numbers (s : State) : List Nat := s.toList.map UInt64.toNat

namespace Numbers

def lane (s : List Nat) (x y : Nat) : Nat := s.getD (x % 5 + 5 * (y % 5)) 0

def tabulate (f : Nat → Nat → Nat) : List Nat := (List.range 25).map fun i => f (i % 5) (i / 5)

def rotate (w n : Nat) : Nat := if n = 0 then w else w <<< n % 2 ^ 64 ||| w >>> (64 - n)

def theta (s : List Nat) : List Nat :=
  let parity : List Nat := (List.range 5).map fun x =>
    lane s x 0 ^^^ lane s x 1 ^^^ lane s x 2 ^^^ lane s x 3 ^^^ lane s x 4
  let column (x : Nat) : Nat := parity.getD (x % 5) 0
  tabulate fun x y => lane s x y ^^^ column (x + 4) ^^^ rotate (column (x + 1)) 1

def rhoPi (s : List Nat) : List Nat :=
  let shifts := numbers offsets
  tabulate fun x y =>
    let column := (x + 3 * y) % 5
    rotate (lane s column x) (lane shifts column x)

def chi (s : List Nat) : List Nat :=
  tabulate fun x y => lane s x y ^^^ (2 ^ 64 - 1 - lane s (x + 1) y &&& lane s (x + 2) y)

def round (s : List Nat) (constant : Nat) : List Nat :=
  let s := chi (rhoPi (theta s))
  s.set 0 (lane s 0 0 ^^^ constant)

def permute (s : List Nat) : List Nat := (roundConstants.map UInt64.toNat).foldl round s

def absorb (s : List Nat) (block : List UInt8) : List Nat :=
  let lanes := (pieces 8 block).map fun bs => (laneOfBytes bs).toNat
  permute ((List.range 25).map fun i => s.getD i 0 ^^^ lanes.getD i 0)

def hash (message : List UInt8) : List UInt8 :=
  let s := (pieces rate (pad message)).foldl absorb (List.replicate 25 0)
  [lane s 0 0, lane s 1 0, lane s 2 0, lane s 3 0].flatMap fun n => bytesOfLane (UInt64.ofNat n)

end Numbers

theorem getD_numbers (s : State) (i : Fin 25) : (numbers s).getD i 0 = (s.get i).toNat := by
  have hi : i < (numbers s).length := by simp [numbers]
  rw [List.getD_eq_getElem _ _ hi]
  simp [numbers, Vector.get]

theorem lane_numbers (s : State) (x y : Nat) :
    Numbers.lane (numbers s) x y = (lane s x y).toNat :=
  getD_numbers s ⟨x % 5 + 5 * (y % 5), by omega⟩

theorem numbers_ofFn (f : Fin 25 → UInt64) (g : Nat → Nat) (h : ∀ i, (f i).toNat = g i.val) :
    numbers (Vector.ofFn f) = (List.range 25).map g := by
  apply List.ext_getElem
  · simp [numbers]
  · intro i hi _
    simp only [numbers, Vector.toList_ofFn, List.map_ofFn, List.getElem_ofFn, List.getElem_map,
      List.getElem_range]
    exact h _

theorem numbers_tabulate {f : Nat → Nat → UInt64} {g : Nat → Nat → Nat}
    (h : ∀ x y, (f x y).toNat = g x y) : numbers (tabulate f) = Numbers.tabulate g :=
  numbers_ofFn _ _ fun _ => h _ _

theorem toNat_rotate (w : UInt64) {n : UInt64} (hn : n.toNat < 64) :
    (rotate w n).toNat = Numbers.rotate w.toNat n.toNat := by
  unfold rotate Numbers.rotate
  by_cases h : n = 0
  · simp [h]
  · have hpos : n.toNat ≠ 0 := fun h0 => h (UInt64.toNat_inj.mp h0)
    have hle : n ≤ 64 := UInt64.le_iff_toNat_le.mpr (Nat.le_of_lt hn)
    have hrest : (64 - n).toNat = 64 - n.toNat := UInt64.toNat_sub_of_le _ _ hle
    have hmod : (64 - n.toNat) % 64 = 64 - n.toNat := Nat.mod_eq_of_lt (by omega)
    rw [if_neg h, if_neg hpos, UInt64.toNat_or, UInt64.toNat_shiftLeft, UInt64.toNat_shiftRight,
      hrest, hmod, Nat.mod_eq_of_lt hn]

theorem numbers_theta (s : State) : numbers (theta s) = Numbers.theta (numbers s) := by
  have hparity (x : Nat) (hx : x % 5 < 5) :
      ((Vector.ofFn fun x : Fin 5 => lane s x 0 ^^^ lane s x 1 ^^^ lane s x 2 ^^^ lane s x 3 ^^^
        lane s x 4).get ⟨x % 5, hx⟩).toNat =
      ((List.range 5).map fun x => Numbers.lane (numbers s) x 0 ^^^ Numbers.lane (numbers s) x 1 ^^^
        Numbers.lane (numbers s) x 2 ^^^ Numbers.lane (numbers s) x 3 ^^^
        Numbers.lane (numbers s) x 4).getD (x % 5) 0 := by
    rw [List.getD_eq_getElem _ _ (by simpa using hx)]
    simp only [Vector.get, Vector.toArray_ofFn, Array.getElem_ofFn, UInt64.toNat_xor, lane_numbers,
      List.getElem_map, List.getElem_range]
    rfl
  unfold theta Numbers.theta
  refine numbers_tabulate fun x y => ?_
  have hone : (1 : UInt64).toNat < 64 := by decide
  simp only [UInt64.toNat_xor, lane_numbers, hparity, toNat_rotate _ hone]
  rfl

theorem toNat_offsets_lt (i : Fin 25) : (offsets.get i).toNat < 64 := by
  revert i
  decide

theorem numbers_rhoPi (s : State) : numbers (rhoPi s) = Numbers.rhoPi (numbers s) := by
  have hoffset (x y : Nat) (h : (x + 3 * y) % 5 + 5 * (x % 5) < 25) :
      (offsets.get ⟨(x + 3 * y) % 5 + 5 * (x % 5), h⟩).toNat =
        Numbers.lane (numbers offsets) ((x + 3 * y) % 5) x := by
    rw [← getD_numbers, Numbers.lane, Nat.mod_mod]
  unfold rhoPi Numbers.rhoPi
  refine numbers_tabulate fun x y => ?_
  simp only [toNat_rotate _ (toNat_offsets_lt _), hoffset, lane_numbers]

theorem numbers_chi (s : State) : numbers (chi s) = Numbers.chi (numbers s) := by
  refine numbers_tabulate fun x y => ?_
  simp only [UInt64.toNat_xor, UInt64.toNat_and, UInt64.toNat_not, lane_numbers]
  rfl

theorem numbers_round (s : State) (c : UInt64) :
    numbers (round s c) = Numbers.round (numbers s) c.toNat := by
  unfold round Numbers.round
  rw [← numbers_theta, ← numbers_rhoPi, ← numbers_chi]
  generalize chi (rhoPi (theta s)) = s
  simp only [lane_numbers, ← UInt64.toNat_xor]
  simp only [numbers, Vector.toList_set, List.map_set]
  rfl

theorem numbers_permute (s : State) : numbers (permute s) = Numbers.permute (numbers s) := by
  unfold permute Numbers.permute
  generalize roundConstants = constants
  induction constants generalizing s with
  | nil => rfl
  | cons c constants ih => rw [List.foldl_cons, List.map_cons, List.foldl_cons, ih, numbers_round]

theorem numbers_absorb (s : State) (block : List UInt8) :
    numbers (absorb s block) = Numbers.absorb (numbers s) block := by
  unfold absorb Numbers.absorb
  rw [numbers_permute]
  refine congrArg Numbers.permute (numbers_ofFn _ _ fun i => ?_)
  have hlane (lanes : List UInt64) :
      (lanes.getD i 0).toNat = (lanes.map UInt64.toNat).getD i 0 :=
    (List.getD_map lanes 0 UInt64.toNat).symm
  rw [UInt64.toNat_xor, getD_numbers, hlane, List.map_map]
  rfl

theorem hash_eq (message : List UInt8) : hash message = Numbers.hash message := by
  have hstate (blocks : List (List UInt8)) (s : State) :
      numbers (blocks.foldl absorb s) = blocks.foldl Numbers.absorb (numbers s) := by
    induction blocks generalizing s with
    | nil => rfl
    | cons block blocks ih => rw [List.foldl_cons, List.foldl_cons, ih, numbers_absorb]
  have hzero : numbers (Vector.replicate 25 0) = List.replicate 25 0 := rfl
  unfold hash Numbers.hash
  rw [← hzero, ← hstate]
  generalize (pieces rate (pad message)).foldl absorb (Vector.replicate 25 0) = s
  simp only [lane_numbers, List.flatMap_cons, UInt64.ofNat_toNat]
  rfl

end ChainGateway.Crypto.Keccak
