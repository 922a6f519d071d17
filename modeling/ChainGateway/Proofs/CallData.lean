import ChainGateway.Proofs.Submission
import ChainGateway.Proofs.Utf8

namespace ChainGateway

namespace Ethereum.ExportCall

open FixedBytes (ofList?_eq_some_iff)
open BigEndian (toNat_fixed toNat_fixed_of_lt fixed_toNat length_fixed)

theorem length_selector : selector.length = 4 := by
  rw [selector, List.length_take, FixedBytes.length_toList]
  rfl

@[simp] theorem length_word (n : Nat) : (word n).length = 32 := length_fixed 32 n

theorem toNat_word {n : Nat} (h : n < 2 ^ 256) : BigEndian.toNat (word n) = n :=
  toNat_fixed_of_lt (Nat.lt_of_lt_of_eq h (by decide))

theorem toNat_word_toNat {bits : Nat} (hbits : bits ≤ 256) (w : Word bits) :
    BigEndian.toNat (word w.toNat) = w.toNat :=
  toNat_word (Nat.lt_of_lt_of_le w.toNat_lt (Nat.pow_le_pow_right (by decide) hbits))

theorem word_toNat_injective {bits : Nat} (hbits : bits ≤ 256) {v w : Word bits}
    (h : word v.toNat = word w.toNat) : v = w := by
  apply Word.ext
  rw [← toNat_word_toNat hbits v, h, toNat_word_toNat hbits w]

theorem word_toNat {bs : List UInt8} (h : bs.length = 32) : word (BigEndian.toNat bs) = bs :=
  fixed_toNat h

theorem takeWord?_append {w : List UInt8} (h : w.length = 32) (rest : List UInt8) :
    takeWord? (w ++ rest) = some (w, rest) := by
  have hle : 32 ≤ (w ++ rest).length := by rw [List.length_append]; omega
  rw [takeWord?, if_pos hle, ← h, List.take_left, List.drop_left]

theorem eq_append_of_takeWord? {bs w rest : List UInt8} (h : takeWord? bs = some (w, rest)) :
    bs = w ++ rest ∧ w.length = 32 := by
  unfold takeWord? at h
  split at h
  · rename_i hle
    simp only [Option.some.injEq, Prod.mk.injEq] at h
    obtain ⟨rfl, rfl⟩ := h
    exact ⟨(List.take_append_drop 32 bs).symm, List.length_take_of_le hle⟩
  · cases h

theorem length_add_padding (n : Nat) : n + padding n = 32 * ((n + 31) / 32) := by
  unfold padding
  omega

def words (c : ExportCall) : List UInt8 :=
  c.txid.toList ++ word c.idx.toNat ++ word c.fee.toNat ++ word 128 ++ word c.sig.length ++ c.sig
    ++ List.replicate (padding c.sig.length) 0

theorem encode_eq (c : ExportCall) : c.encode = selector ++ c.words := by
  simp only [encode, words, List.append_assoc]

theorem length_words (c : ExportCall) : c.words.length = 32 * (5 + (c.sig.length + 31) / 32) := by
  have hpadding := length_add_padding c.sig.length
  simp only [words, List.length_append, length_word, c.txid.length_toList, List.length_replicate]
  omega

theorem decode?_encode (c : ExportCall) (h : c.sig.length < 2 ^ 256) :
    decode? c.encode = some c := by
  have hidx := toNat_word_toNat (by decide) c.idx
  have hfee := toNat_word_toNat (by decide) c.fee
  have htake : c.encode.take 4 = selector := by
    rw [encode_eq, ← length_selector, List.take_left]
  have hdrop : c.encode.drop 4 = c.words := by
    rw [encode_eq, ← length_selector, List.drop_left]
  have htxid : FixedBytes.ofList? c.txid.toList = some c.txid :=
    ofList?_eq_some_iff.mpr rfl
  unfold decode?
  simp only [htake, hdrop, words, List.append_assoc, takeWord?_append c.txid.length_toList,
    takeWord?_append (length_word _), toNat_word h, hidx, hfee,
    toNat_word (show 128 < 2 ^ 256 by decide), Word.ofNat?_toNat, htxid, ne_eq, not_true_eq_false,
    ↓reduceIte, Option.bind_eq_bind, Option.bind_some, List.length_append, List.length_replicate,
    List.drop_left, List.take_left, Option.pure_def]

/-- A reader that gives up unless something holds has found that it holds. -/
theorem holds_of_unless {α : Type} {p : Prop} [Decidable p] {x : Option α} {a : α}
    (h : (if ¬ p then (none : Option PUnit).bind fun _ => x else x) = some a) :
    p ∧ x = some a := by
  by_cases hp : p
  · rw [if_neg (not_not_intro hp)] at h
    exact ⟨hp, h⟩
  · rw [if_pos hp] at h
    cases h

theorem eq_encode_of_decode? {bs : List UInt8} {c : ExportCall} (h : decode? bs = some c) :
    bs = c.encode ∧ c.sig.length < 2 ^ 256 := by
  obtain ⟨hselector, h⟩ := holds_of_unless h
  obtain ⟨⟨w₁, r₁⟩, h₁, h⟩ := Option.bind_eq_some_iff.mp h
  obtain ⟨txid, htxid, h⟩ := Option.bind_eq_some_iff.mp h
  obtain ⟨⟨w₂, r₂⟩, h₂, h⟩ := Option.bind_eq_some_iff.mp h
  obtain ⟨idx, hidx, h⟩ := Option.bind_eq_some_iff.mp h
  obtain ⟨⟨w₃, r₃⟩, h₃, h⟩ := Option.bind_eq_some_iff.mp h
  obtain ⟨fee, hfee, h⟩ := Option.bind_eq_some_iff.mp h
  obtain ⟨⟨w₄, r₄⟩, h₄, h⟩ := Option.bind_eq_some_iff.mp h
  obtain ⟨hoffset, h⟩ := holds_of_unless h
  obtain ⟨⟨w₅, r₅⟩, h₅, h⟩ := Option.bind_eq_some_iff.mp h
  obtain ⟨hlength, h⟩ := holds_of_unless h
  obtain ⟨hpadding, h⟩ := holds_of_unless h
  obtain rfl := Option.some.inj h
  -- the words that were taken, one behind the other, make up the text again
  obtain ⟨hrest, hw₁⟩ := eq_append_of_takeWord? h₁
  obtain ⟨rfl, hw₂⟩ := eq_append_of_takeWord? h₂
  obtain ⟨rfl, hw₃⟩ := eq_append_of_takeWord? h₃
  obtain ⟨rfl, hw₄⟩ := eq_append_of_takeWord? h₄
  obtain ⟨rfl, hw₅⟩ := eq_append_of_takeWord? h₅
  have hsig : (r₅.take (BigEndian.toNat w₅)).length = BigEndian.toNat w₅ :=
    List.length_take_of_le (by omega)
  have hbound : BigEndian.toNat w₅ < 2 ^ 256 :=
    Nat.lt_of_lt_of_eq (BigEndian.toNat_lt w₅) (by rw [hw₅]; decide)
  refine ⟨?_, by rw [hsig]; exact hbound⟩
  have htxid' : txid.toList = w₁ := (ofList?_eq_some_iff.mp htxid).symm
  have hidx' : word idx.toNat = w₂ := by rw [Word.ofNat?_eq_some_iff.mp hidx, word_toNat hw₂]
  have hfee' : word fee.toNat = w₃ := by rw [Word.ofNat?_eq_some_iff.mp hfee, word_toNat hw₃]
  have hoffset' : word 128 = w₄ := by rw [← hoffset, word_toNat hw₄]
  have hlength' : word (r₅.take (BigEndian.toNat w₅)).length = w₅ := by rw [hsig, word_toNat hw₅]
  rw [encode_eq, words, htxid', hidx', hfee', hoffset', hlength', hsig, ← hpadding, ← hselector]
  simp only [List.append_assoc, List.take_append_drop, ← hrest]

theorem decode?_eq_some_iff {bs : List UInt8} {c : ExportCall} :
    decode? bs = some c ↔ bs = c.encode ∧ c.sig.length < 2 ^ 256 :=
  ⟨eq_encode_of_decode?, fun ⟨h, hlength⟩ => h ▸ decode?_encode c hlength⟩

/-- Lengths that fill the same words and agree in the length word are the same, also where that
word cannot count them. -/
theorem eq_of_word_eq {m n : Nat} (hpadded : m + padding m = n + padding n)
    (hword : word m = word n) : m = n := by
  have h := congrArg BigEndian.toNat hword
  rw [word, word, toNat_fixed, toNat_fixed] at h
  rw [length_add_padding, length_add_padding] at hpadded
  have hpow : 256 ^ 32 = 32 * 256 ^ 31 * 8 := by decide
  rw [hpow] at h
  omega

theorem encode_injective : Function.Injective encode := by
  intro c c' h
  rw [encode_eq, encode_eq] at h
  have hwords := List.append_cancel_left h
  have hlength := congrArg List.length hwords
  rw [length_words, length_words] at hlength
  simp only [words, List.append_assoc] at hwords
  obtain ⟨htxid, hwords⟩ :=
    List.append_inj hwords (by rw [c.txid.length_toList, c'.txid.length_toList])
  obtain ⟨hidx, hwords⟩ := List.append_inj hwords (by rw [length_word, length_word])
  obtain ⟨hfee, hwords⟩ := List.append_inj hwords (by rw [length_word, length_word])
  obtain ⟨hword, hwords⟩ := List.append_inj (List.append_cancel_left hwords)
    (by rw [length_word, length_word])
  have hsize : c.sig.length = c'.sig.length := by
    apply eq_of_word_eq _ hword
    rw [length_add_padding, length_add_padding]
    omega
  exact ExportCall.ext (FixedBytes.ext htxid) (word_toNat_injective (by decide) hidx)
    (word_toNat_injective (by decide) hfee) (List.append_inj hwords hsize).1

end Ethereum.ExportCall

namespace Bridge.Export

open ContractBridge (callData_of_txidBytes_ok)
open Ethereum (ExportCall)

theorem digits_of_txidBytes {t : String} {txid : Hash} (h : txidBytes t = .ok txid) :
    ∃ bs, bs.length ≤ 32 ∧ (txidDigits t).map Hex.lower = Hex.encodeBytes bs ∧
      txid.toList = List.replicate (32 - bs.length) 0 ++ bs := by
  unfold txidBytes at h
  split at h
  · cases h
  rename_i bs hdecode
  unfold Hex.decode at hdecode
  split at hdecode
  · cases hdecode
  split at h
  · rename_i hlength
    rw [← Except.ok.inj h]
    exact ⟨bs, hlength, Hex.map_lower_of_decodePairs hdecode, rfl⟩
  · cases h

/-- The digits of two identifiers are the same but for a marker in front, the case of letters and
zero bytes ahead of the rest. -/
def SameDigits (t t' : String) : Prop :=
  ∃ m n, List.replicate (2 * m) 48 ++ (txidDigits t).map Hex.lower =
    List.replicate (2 * n) 48 ++ (txidDigits t').map Hex.lower

theorem toNat_pad (n : Nat) (bs : List UInt8) :
    BigEndian.toNat (List.replicate n 0 ++ bs) = BigEndian.toNat bs := by
  rw [BigEndian.toNat_append, BigEndian.toNat_replicate_zero, Nat.zero_mul, Nat.zero_add]

theorem encodeBytes_pad (n : Nat) (bs : List UInt8) :
    List.replicate (2 * n) 48 ++ Hex.encodeBytes bs =
      Hex.encodeBytes (List.replicate n 0 ++ bs) := by
  rw [Hex.encodeBytes_append, Hex.encodeBytes_replicate_zero]

theorem txidBytes_eq_iff {t t' : String} {txid txid' : Hash} (h : txidBytes t = .ok txid)
    (h' : txidBytes t' = .ok txid') : txid' = txid ↔ SameDigits t' t := by
  obtain ⟨bs, hlength, hdigits, hbytes⟩ := digits_of_txidBytes h
  obtain ⟨bs', hlength', hdigits', hbytes'⟩ := digits_of_txidBytes h'
  unfold SameDigits
  rw [hdigits, hdigits']
  constructor
  · rintro rfl
    refine ⟨32 - bs'.length, 32 - bs.length, ?_⟩
    rw [encodeBytes_pad, encodeBytes_pad, ← hbytes, hbytes']
  · rintro ⟨m, n, hpadded⟩
    rw [encodeBytes_pad, encodeBytes_pad] at hpadded
    have hnumber := congrArg BigEndian.toNat (Hex.encodeBytes_injective hpadded)
    rw [toNat_pad, toNat_pad] at hnumber
    apply FixedBytes.ext
    apply BigEndian.eq_of_toNat_eq (by rw [txid.length_toList, txid'.length_toList])
    rw [hbytes, hbytes', toNat_pad, toNat_pad, hnumber]

theorem callData_eq_iff {e e' : Export} {txid txid' : Hash} (h : txidBytes e.txid = .ok txid)
    (h' : txidBytes e'.txid = .ok txid') :
    e'.callData = e.callData ↔
      txid' = txid ∧ e'.idx = e.idx ∧ e'.fee = e.fee ∧ e'.sig = e.sig := by
  rw [callData_of_txidBytes_ok h, callData_of_txidBytes_ok h', Except.ok.injEq,
    ExportCall.encode_injective.eq_iff, ExportCall.mk.injEq, Text.utf8_injective.eq_iff]

/-- The call data of an export says all that the contract is to know, in whole words behind the
selector: reading them back strictly gives the arguments, whatever the length of the signature that
a word can count, and exports with the same call data differ at most in the spelling of their
identifiers. -/
theorem callData_lossless (e : Export) {txid : Hash} (h : txidBytes e.txid = .ok txid) :
    ∃ data words,
      e.callData = .ok data ∧ data = ExportCall.selector ++ words ∧
      ExportCall.selector =
        (keccak256 (Text.utf8 "export4337(bytes32,uint32,uint64,string)")).toList.take 4 ∧
      ExportCall.selector.length = 4 ∧
      words.length = 32 * (5 + ((Text.utf8 e.sig).length + 31) / 32) ∧
      (ExportCall.decode? data = some ⟨txid, e.idx, e.fee, Text.utf8 e.sig⟩ ↔
        (Text.utf8 e.sig).length < 2 ^ 256) ∧
      (∀ data', ExportCall.decode? data' = some ⟨txid, e.idx, e.fee, Text.utf8 e.sig⟩ →
        data' = data) ∧
      ∀ (e' : Export) (txid' : Hash), txidBytes e'.txid = .ok txid' →
        (e'.callData = .ok data ↔
          txid' = txid ∧ e'.idx = e.idx ∧ e'.fee = e.fee ∧ e'.sig = e.sig) ∧
        (txid' = txid ↔ SameDigits e'.txid e.txid) := by
  have hdata := callData_of_txidBytes_ok h
  refine ⟨_, _, hdata, ExportCall.encode_eq _, rfl, ExportCall.length_selector,
    ExportCall.length_words _, ?_, fun data' hdecode => (ExportCall.eq_encode_of_decode? hdecode).1,
    fun e' txid' h' => ⟨?_, txidBytes_eq_iff h h'⟩⟩
  · rw [ExportCall.decode?_eq_some_iff]
    exact and_iff_right rfl
  · rw [← hdata]
    exact callData_eq_iff h h'

/-- An export whose signature of thirty-two bytes leaves no room to pad. -/
def fullWord (txid : String) : Export :=
  ⟨txid, .saturate 3, .saturate 500, "0123456789abcdef0123456789abcdé"⟩

theorem callData_fullWord :
    ∃ data, (fullWord "0xABcd").callData = .ok data ∧
      (ExportCall.decode? data).map ExportCall.sig = some (Text.utf8 (fullWord "0xABcd").sig) ∧
      (fullWord "00abCD").callData = .ok data ∧ (fullWord "abce").callData ≠ .ok data := by
  have h : txidBytes (fullWord "0xABcd").txid = .ok (leftPad [0xAB, 0xCD] (by decide)) := rfl
  have h' : txidBytes (fullWord "00abCD").txid = .ok (leftPad [0, 0xAB, 0xCD] (by decide)) := rfl
  have h'' : txidBytes (fullWord "abce").txid = .ok (leftPad [0xAB, 0xCE] (by decide)) := rfl
  obtain ⟨data, _, hdata, _, _, _, _, hdecode, _, hiff⟩ := callData_lossless (fullWord "0xABcd") h
  refine ⟨data, hdata, ?_, ?_, fun heq => ?_⟩
  · rw [hdecode.mpr (by decide), Option.map_some]
  · exact (hiff _ _ h').1.mpr ⟨by decide, rfl, rfl, rfl⟩
  · exact absurd ((hiff _ _ h'').1.mp heq).1 (by decide)

end Bridge.Export

end ChainGateway
