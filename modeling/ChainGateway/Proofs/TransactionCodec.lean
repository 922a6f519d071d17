import ChainGateway.Ethereum.Transaction
import ChainGateway.Proofs.Rlp

namespace ChainGateway.Ethereum

open Crypto.Ecdsa (Signature)

namespace Rlp

theorem length_encodeBytes_le (bs : List UInt8) (h : bs.length < 2 ^ 64) :
    (encodeBytes bs).length ≤ bs.length + 9 := by
  by_cases hs : ∃ b, bs = [b] ∧ b < 0x80
  · obtain ⟨b, rfl, hb⟩ := hs
    rw [encodeBytes_of_small hb]
    omega
  · have hh := length_header_le 0x80 h
    rw [encodeBytes_of_not_small (fun b hb hlt => hs ⟨b, hb, hlt⟩), List.length_append]
    omega

theorem length_encode_ofNat_le {n : Nat} (h : n < 2 ^ 256) : (encode (ofNat n)).length ≤ 41 := by
  have hn : (BigEndian.ofNat n).length ≤ 32 := BigEndian.length_ofNat_le (by omega)
  have hb := length_encodeBytes_le (BigEndian.ofNat n) (by omega)
  rw [ofNat, encode]
  omega

theorem length_encodeItems_ofNat_le (ns : List Nat) (h : ∀ n ∈ ns, n < 2 ^ 256) :
    (encodeItems (ns.map ofNat)).length ≤ 41 * ns.length := by
  induction ns with
  | nil => simp [encodeItems]
  | cons n ns ih =>
    have hn := length_encode_ofNat_le (h n (by simp))
    have hr := ih fun m hm => h m (by simp [hm])
    rw [List.map_cons, encodeItems, List.length_append, List.length_cons]
    omega

theorem length_encode_list_lt {items : List Rlp} (h : (encodeItems items).length < 3 * 2 ^ 62) :
    (encode (list items)).length < 2 ^ 64 := by
  have hh := length_header_le 0xC0 (Nat.lt_trans h (by omega : 3 * 2 ^ 62 < 2 ^ 64))
  rw [encode, List.length_append]
  omega

/-- The first byte of a list is no type of a transaction. -/
theorem exists_cons_encode_list {items : List Rlp} (h : (encodeItems items).length < 3 * 2 ^ 62) :
    ∃ b bs, encode (list items) = b :: bs ∧ 0xC0 ≤ b.toNat := by
  obtain ⟨b, ext, hh, hlow, -, -⟩ :=
    payload?_header (Nat.le_refl 0xC0) (encodeItems items) (by omega) []
  exact ⟨b, ext ++ encodeItems items, by rw [encode, hh, List.cons_append], hlow⟩

theorem ofNat_injective : Function.Injective ofNat := by
  intro m n h
  injection h with h
  exact BigEndian.ofNat_injective h

@[simp] theorem toNat?_ofNat (n : Nat) : (ofNat n).toNat? = some n := by
  simp [ofNat, toNat?, BigEndian.head?_ofNat]

theorem eq_ofNat_of_toNat? {item : Rlp} {n : Nat} (h : item.toNat? = some n) : item = ofNat n := by
  cases item with
  | list items => simp [toNat?] at h
  | bytes bs =>
    simp only [toNat?] at h
    split at h
    · simp at h
    · rename_i hh
      obtain rfl := Option.some.inj h
      rw [ofNat, BigEndian.ofNat_toNat bs hh]

end Rlp

namespace Transaction

theorem toNat_lt_of_le {bits size : Nat} (w : Word bits) (h : bits ≤ size) : w.toNat < 2 ^ size :=
  Nat.lt_of_lt_of_le w.toNat_lt (Nat.pow_le_pow_right (by omega) h)

@[simp] theorem wordOfItem?_ofNat {bits : Nat} (w : Word bits) :
    wordOfItem? bits (.ofNat w.toNat) = some w := by
  simp [wordOfItem?, Word.ofNat?_toNat]

theorem eq_ofNat_of_wordOfItem? {bits : Nat} {item : Rlp} {w : Word bits}
    (h : wordOfItem? bits item = some w) : item = .ofNat w.toNat := by
  obtain ⟨n, hn, hw⟩ := Option.bind_eq_some_iff.mp h
  rw [Word.ofNat?_eq_some_iff.mp hw]
  exact Rlp.eq_ofNat_of_toNat? hn

@[simp] theorem addressOfItem?_bytes (a : Address) : addressOfItem? (.bytes a.toList) = some a :=
  FixedBytes.ofList?_eq_some_iff.mpr rfl

theorem eq_bytes_of_addressOfItem? {item : Rlp} {a : Address} (h : addressOfItem? item = some a) :
    item = .bytes a.toList := by
  cases item with
  | list items => simp [addressOfItem?] at h
  | bytes bs => exact congrArg Rlp.bytes (FixedBytes.ofList?_eq_some_iff.mp h)

theorem eq_bytes_of_bytesOfItem? {item : Rlp} {bs : List UInt8} (h : bytesOfItem? item = some bs) :
    item = .bytes bs := by
  cases item with
  | list items => simp [bytesOfItem?] at h
  | bytes cs => rw [Option.some.inj h]

theorem length_callFields_le (t : Transaction) (h : t.input.length < 2 ^ 63) :
    (Rlp.encodeItems t.callFields).length < 2 ^ 63 + 200 := by
  have hgas := Rlp.length_encode_ofNat_le (toNat_lt_of_le t.gasLimit (by omega))
  have hval := Rlp.length_encode_ofNat_le (toNat_lt_of_le t.value (Nat.le_refl 256))
  have hto := Rlp.length_encodeBytes_le t.recipient.toList
    (by rw [t.recipient.length_toList]; omega)
  have hin := Rlp.length_encodeBytes_le t.input (by omega)
  rw [t.recipient.length_toList] at hto
  simp only [callFields, Rlp.encodeItems, Rlp.encode, List.length_append, List.length_nil]
  omega

/-- Behind a few numbers and the fields of the call there is room for a few numbers more. -/
theorem length_fields_lt (t : Transaction) (h : t.input.length < 2 ^ 63) {ns : List Nat}
    {more : List Rlp} (hns : ∀ n ∈ ns, n < 2 ^ 256) (hlen : ns.length ≤ 4)
    (hmore : (Rlp.encodeItems more).length ≤ 200) :
    (Rlp.encodeItems (ns.map Rlp.ofNat ++ t.callFields ++ more)).length < 3 * 2 ^ 62 := by
  have hn := Rlp.length_encodeItems_ofNat_le ns hns
  have hc := t.length_callFields_le h
  rw [Rlp.encodeItems_append, Rlp.encodeItems_append, List.length_append, List.length_append]
  omega

theorem marketFields_eq (t : Transaction) (tip cap : Word 128) (more : List Rlp) :
    t.marketFields tip cap ++ more =
      [t.chainId.toNat, t.nonce.toNat, tip.toNat, cap.toNat].map Rlp.ofNat ++ t.callFields ++
        (.list [] :: more) := by
  simp [marketFields]

theorem legacyFields_eq (t : Transaction) (price : Word 128) (more : List Rlp) :
    t.legacyFields price ++ more =
      [t.nonce.toNat, price.toNat].map Rlp.ofNat ++ t.callFields ++ more := rfl

theorem length_marketFields_lt (t : Transaction) (h : t.input.length < 2 ^ 63)
    (tip cap : Word 128) (more : List Rlp) (hmore : (Rlp.encodeItems more).length ≤ 199) :
    (Rlp.encodeItems (t.marketFields tip cap ++ more)).length < 3 * 2 ^ 62 := by
  rw [marketFields_eq]
  refine t.length_fields_lt h (fun n hn => ?_) (by simp) ?_
  · simp only [List.mem_cons, List.not_mem_nil, or_false] at hn
    obtain rfl | rfl | rfl | rfl := hn <;> exact toNat_lt_of_le _ (by omega)
  · have he : (Rlp.encode (.list [])).length = 1 := rfl
    rw [Rlp.encodeItems, List.length_append, he]
    omega

theorem length_legacyFields_lt (t : Transaction) (h : t.input.length < 2 ^ 63) (price : Word 128)
    (more : List Rlp) (hmore : (Rlp.encodeItems more).length ≤ 200) :
    (Rlp.encodeItems (t.legacyFields price ++ more)).length < 3 * 2 ^ 62 := by
  rw [legacyFields_eq]
  refine t.length_fields_lt h (fun n hn => ?_) (by simp) hmore
  simp only [List.mem_cons, List.not_mem_nil, or_false] at hn
  obtain rfl | rfl := hn <;> exact toNat_lt_of_le _ (by omega)

def signatureFields (parity : Nat) (sig : Signature) : List Rlp :=
  [.ofNat parity, .ofNat sig.r, .ofNat sig.s]

theorem length_signatureFields_le (parity : Nat) (sig : Signature) (hp : parity < 2 ^ 256)
    (hr : sig.r < 2 ^ 256) (hs : sig.s < 2 ^ 256) :
    (Rlp.encodeItems (signatureFields parity sig)).length ≤ 123 := by
  refine Rlp.length_encodeItems_ofNat_le [parity, sig.r, sig.s] fun n hn => ?_
  simp only [List.mem_cons, List.not_mem_nil, or_false] at hn
  obtain rfl | rfl | rfl := hn <;> assumption

theorem chainParity_lt (chainId : Word 64) (odd : Bool) : chainParity chainId odd < 2 ^ 66 := by
  have hc := toNat_lt_of_le chainId (Nat.le_refl 64)
  have ho := Bool.toNat_le odd
  unfold chainParity
  omega

theorem ofMarketItems?_fields (t : Transaction) {tip cap : Word 128}
    (hfee : t.fee = .market tip cap) {sig : Signature} (hr : sig.r < 2 ^ 256)
    (hs : sig.s < 2 ^ 256) :
    ofMarketItems? (t.marketFields tip cap ++ signatureFields sig.odd.toNat sig) =
      some (t, sig) := by
  obtain ⟨r, s, odd⟩ := sig
  have hr' : wordOfItem? 256 (.ofNat r) = some ⟨r, hr⟩ := wordOfItem?_ofNat ⟨r, hr⟩
  have hs' : wordOfItem? 256 (.ofNat s) = some ⟨s, hs⟩ := wordOfItem?_ofNat ⟨s, hs⟩
  have ho : ¬ 1 < odd.toNat := by cases odd <;> simp
  simp [ofMarketItems?, marketFields, callFields, signatureFields, bytesOfItem?, hr', hs', ho,
    ← hfee]

theorem ofLegacyItems?_fields (t : Transaction) {price : Word 128} (hfee : t.fee = .legacy price)
    {sig : Signature} (hr : sig.r < 2 ^ 256) (hs : sig.s < 2 ^ 256) :
    ofLegacyItems? (t.legacyFields price ++ signatureFields (chainParity t.chainId sig.odd) sig) =
      some (t, sig) := by
  obtain ⟨r, s, odd⟩ := sig
  have hr' : wordOfItem? 256 (.ofNat r) = some ⟨r, hr⟩ := wordOfItem?_ofNat ⟨r, hr⟩
  have hs' : wordOfItem? 256 (.ofNat s) = some ⟨s, hs⟩ := wordOfItem?_ofNat ⟨s, hs⟩
  have hv : ¬ chainParity t.chainId odd < 35 := by unfold chainParity; omega
  have hchain : (chainParity t.chainId odd - 35) / 2 = t.chainId.toNat := by
    have := Bool.toNat_le odd
    unfold chainParity
    omega
  have hodd : decide ((chainParity t.chainId odd - 35) % 2 = 1) = odd := by
    unfold chainParity
    cases odd <;> simp
    omega
  simp [ofLegacyItems?, legacyFields, callFields, signatureFields, bytesOfItem?,
    Word.ofNat?_toNat, hr', hs', hv, hchain,
    hodd, ← hfee]

theorem eq_fields_of_ofMarketItems? {items : List Rlp} {t : Transaction} {sig : Signature}
    (h : ofMarketItems? items = some (t, sig)) :
    ∃ tip cap, t.fee = .market tip cap ∧
      items = t.marketFields tip cap ++ signatureFields sig.odd.toNat sig := by
  unfold ofMarketItems? at h
  split at h
  · obtain ⟨tip, htip, h⟩ := Option.bind_eq_some_iff.mp h
    obtain ⟨cap, hcap, h⟩ := Option.bind_eq_some_iff.mp h
    obtain ⟨odd, hodd, h⟩ := Option.bind_eq_some_iff.mp h
    split at h
    · simp at h
    · obtain ⟨chainId, hchain, h⟩ := Option.bind_eq_some_iff.mp h
      obtain ⟨nonce, hnonce, h⟩ := Option.bind_eq_some_iff.mp h
      obtain ⟨gasLimit, hgas, h⟩ := Option.bind_eq_some_iff.mp h
      obtain ⟨recipient, hto, h⟩ := Option.bind_eq_some_iff.mp h
      obtain ⟨value, hvalue, h⟩ := Option.bind_eq_some_iff.mp h
      obtain ⟨input, hinput, h⟩ := Option.bind_eq_some_iff.mp h
      obtain ⟨r, hr, h⟩ := Option.bind_eq_some_iff.mp h
      obtain ⟨s, hs, h⟩ := Option.bind_eq_some_iff.mp h
      simp only [Option.pure_def, Option.some.injEq, Prod.mk.injEq] at h
      obtain ⟨rfl, rfl⟩ := h
      have hparity : (decide (odd = 1)).toNat = odd := by
        by_cases h1 : odd = 1 <;> simp [h1]
        omega
      refine ⟨tip, cap, rfl, ?_⟩
      simp [marketFields, callFields, signatureFields, hparity, eq_ofNat_of_wordOfItem? htip,
        eq_ofNat_of_wordOfItem? hcap, Rlp.eq_ofNat_of_toNat? hodd, eq_ofNat_of_wordOfItem? hchain,
        eq_ofNat_of_wordOfItem? hnonce, eq_ofNat_of_wordOfItem? hgas,
        eq_bytes_of_addressOfItem? hto, eq_ofNat_of_wordOfItem? hvalue,
        eq_bytes_of_bytesOfItem? hinput, eq_ofNat_of_wordOfItem? hr, eq_ofNat_of_wordOfItem? hs]
  · simp at h

theorem eq_fields_of_ofLegacyItems? {items : List Rlp} {t : Transaction} {sig : Signature}
    (h : ofLegacyItems? items = some (t, sig)) :
    ∃ price, t.fee = .legacy price ∧
      items = t.legacyFields price ++ signatureFields (chainParity t.chainId sig.odd) sig := by
  unfold ofLegacyItems? at h
  split at h
  · obtain ⟨v, hv, h⟩ := Option.bind_eq_some_iff.mp h
    split at h
    · simp at h
    · obtain ⟨chainId, hchain, h⟩ := Option.bind_eq_some_iff.mp h
      obtain ⟨nonce, hnonce, h⟩ := Option.bind_eq_some_iff.mp h
      obtain ⟨price, hprice, h⟩ := Option.bind_eq_some_iff.mp h
      obtain ⟨gasLimit, hgas, h⟩ := Option.bind_eq_some_iff.mp h
      obtain ⟨recipient, hto, h⟩ := Option.bind_eq_some_iff.mp h
      obtain ⟨value, hvalue, h⟩ := Option.bind_eq_some_iff.mp h
      obtain ⟨input, hinput, h⟩ := Option.bind_eq_some_iff.mp h
      obtain ⟨r, hr, h⟩ := Option.bind_eq_some_iff.mp h
      obtain ⟨s, hs, h⟩ := Option.bind_eq_some_iff.mp h
      simp only [Option.pure_def, Option.some.injEq, Prod.mk.injEq] at h
      obtain ⟨rfl, rfl⟩ := h
      have hchain' := Word.ofNat?_eq_some_iff.mp hchain
      -- the parity is what is above thirty-five and twice the chain identifier
      have hparity : chainParity chainId (decide ((v - 35) % 2 = 1)) = v := by
        unfold chainParity
        by_cases h1 : (v - 35) % 2 = 1 <;> simp [h1] <;> omega
      refine ⟨price, rfl, ?_⟩
      simp [legacyFields, callFields, signatureFields, hparity, Rlp.eq_ofNat_of_toNat? hv,
        eq_ofNat_of_wordOfItem? hprice, eq_ofNat_of_wordOfItem? hnonce,
        eq_ofNat_of_wordOfItem? hgas, eq_bytes_of_addressOfItem? hto,
        eq_ofNat_of_wordOfItem? hvalue, eq_bytes_of_bytesOfItem? hinput,
        eq_ofNat_of_wordOfItem? hr, eq_ofNat_of_wordOfItem? hs]
  · simp at h

theorem ofRaw?_market (bs : List UInt8) :
    ofRaw? (marketType :: bs) =
      match Rlp.decode? bs with
      | some (.list items) => ofMarketItems? items
      | _ => none := by
  rw [ofRaw?]
  exact if_pos rfl

theorem ofRaw?_legacy {b : UInt8} (hb : b ≠ marketType) (bs : List UInt8) :
    ofRaw? (b :: bs) =
      match Rlp.decode? (b :: bs) with
      | some (.list items) => ofLegacyItems? items
      | _ => none := by
  rw [ofRaw?]
  exact if_neg hb

theorem ne_marketType {b : UInt8} (h : 0xC0 ≤ b.toNat) : b ≠ marketType := by
  rintro rfl
  have : marketType.toNat = 2 := rfl
  omega

def rawItems (t : Transaction) (sig : Signature) : List Rlp :=
  match t.fee with
  | .market tip cap => t.marketFields tip cap ++ signatureFields sig.odd.toNat sig
  | .legacy price => t.legacyFields price ++ signatureFields (chainParity t.chainId sig.odd) sig

theorem length_rawItems_lt (t : Transaction) {sig : Signature} (h : t.input.length < 2 ^ 63)
    (hr : sig.r < 2 ^ 256) (hs : sig.s < 2 ^ 256) :
    (Rlp.encodeItems (t.rawItems sig)).length < 3 * 2 ^ 62 := by
  unfold rawItems
  cases t.fee with
  | market tip cap =>
    have ho := Bool.toNat_le sig.odd
    have hl := length_signatureFields_le sig.odd.toNat sig (by omega) hr hs
    exact t.length_marketFields_lt h tip cap _ (by omega)
  | legacy price =>
    have hv := chainParity_lt t.chainId sig.odd
    have hl := length_signatureFields_le (chainParity t.chainId sig.odd) sig (by omega) hr hs
    exact t.length_legacyFields_lt h price _ (by omega)

/-- A transaction and its signature are read back from the relayed bytes. -/
theorem ofRaw?_raw (t : Transaction) {sig : Signature} (h : t.input.length < 2 ^ 63)
    (hr : sig.r < 2 ^ 256) (hs : sig.s < 2 ^ 256) : ofRaw? (t.raw sig) = some (t, sig) := by
  have hlen := t.length_rawItems_lt h hr hs
  have hd := Rlp.decode?_encode _ (Rlp.length_encode_list_lt hlen)
  cases hfee : t.fee with
  | market tip cap =>
    simp only [rawItems, hfee, signatureFields] at hd
    simp only [raw, hfee]
    rw [ofRaw?_market, hd]
    exact ofMarketItems?_fields t hfee hr hs
  | legacy price =>
    simp only [rawItems, hfee, signatureFields] at hlen hd
    simp only [raw, hfee]
    obtain ⟨b, bs, hb, hlow⟩ := Rlp.exists_cons_encode_list hlen
    rw [hb] at hd ⊢
    rw [ofRaw?_legacy (ne_marketType hlow), hd]
    exact ofLegacyItems?_fields t hfee hr hs

/-- Bytes that are read as a signed transaction are those that it is relayed as. -/
theorem raw_of_ofRaw? {bs : List UInt8} {t : Transaction} {sig : Signature}
    (h : ofRaw? bs = some (t, sig)) : t.raw sig = bs := by
  cases bs with
  | nil => simp [ofRaw?] at h
  | cons b bs =>
    by_cases hb : b = marketType
    · subst hb
      rw [ofRaw?_market] at h
      split at h
      · rename_i items hd
        obtain ⟨tip, cap, hfee, rfl⟩ := eq_fields_of_ofMarketItems? h
        simp only [raw, hfee]
        rw [← Rlp.encode_of_decode? hd, signatureFields]
      · simp at h
    · rw [ofRaw?_legacy hb] at h
      split at h
      · rename_i items hd
        obtain ⟨price, hfee, rfl⟩ := eq_fields_of_ofLegacyItems? h
        simp only [raw, hfee]
        rw [← Rlp.encode_of_decode? hd, signatureFields]
      · simp at h

theorem callFields_injective {t t' : Transaction} (h : t.callFields = t'.callFields) :
    t.gasLimit = t'.gasLimit ∧ t.recipient = t'.recipient ∧ t.value = t'.value ∧
      t.input = t'.input := by
  simp only [callFields, List.cons.injEq, Rlp.bytes.injEq, and_true] at h
  obtain ⟨hgas, hto, hvalue, hinput⟩ := h
  exact ⟨Word.ext (Rlp.ofNat_injective hgas), FixedBytes.ext hto,
    Word.ext (Rlp.ofNat_injective hvalue), hinput⟩

theorem preimage_market {t : Transaction} {tip cap : Word 128} (hfee : t.fee = .market tip cap) :
    t.preimage = marketType :: (Rlp.list (t.marketFields tip cap)).encode := by
  simp only [preimage, hfee]

/-- What a legacy transaction signs behind its fields, so that it is bound to its chain. -/
def chainFields (t : Transaction) : List Rlp := [.ofNat t.chainId.toNat, .ofNat 0, .ofNat 0]

theorem preimage_legacy {t : Transaction} {price : Word 128} (hfee : t.fee = .legacy price) :
    t.preimage = (Rlp.list (t.legacyFields price ++ t.chainFields)).encode := by
  simp only [preimage, hfee, chainFields]

theorem length_legacyItems_lt (t : Transaction) (h : t.input.length < 2 ^ 63) (price : Word 128) :
    (Rlp.encodeItems (t.legacyFields price ++ t.chainFields)).length < 3 * 2 ^ 62 := by
  have hl := Rlp.length_encodeItems_ofNat_le [t.chainId.toNat, 0, 0] fun n hn => by
    simp only [List.mem_cons, List.not_mem_nil, or_false] at hn
    obtain rfl | rfl | rfl := hn
    · exact toNat_lt_of_le _ (by omega)
    · omega
    · omega
  exact t.length_legacyFields_lt h price _ (Nat.le_trans hl (by simp))

theorem eq_of_market_preimage {t t' : Transaction} (h : t.input.length < 2 ^ 63)
    {tip cap tip' cap' : Word 128} (hfee : t.fee = .market tip cap)
    (hfee' : t'.fee = .market tip' cap') (he : t.preimage = t'.preimage) : t = t' := by
  have hlen := t.length_marketFields_lt h tip cap [] (by simp [Rlp.encodeItems])
  rw [List.append_nil] at hlen
  rw [preimage_market hfee, preimage_market hfee', List.cons.injEq] at he
  have hl := Rlp.encode_injective (Rlp.length_encode_list_lt hlen) he.2
  simp only [Rlp.list.injEq, marketFields, List.cons_append, List.nil_append,
    List.cons.injEq] at hl
  obtain ⟨hchain, hnonce, htip, hcap, hl⟩ := hl
  obtain ⟨hgas, hto, hvalue, hinput⟩ :=
    callFields_injective ((List.append_inj_left' hl rfl))
  have htip := Word.ext (Rlp.ofNat_injective htip)
  have hcap := Word.ext (Rlp.ofNat_injective hcap)
  subst htip hcap
  exact Transaction.ext (Word.ext (Rlp.ofNat_injective hchain))
    (Word.ext (Rlp.ofNat_injective hnonce)) (hfee.trans hfee'.symm) hgas hto hvalue hinput

theorem eq_of_legacy_preimage {t t' : Transaction} (h : t.input.length < 2 ^ 63)
    {price price' : Word 128} (hfee : t.fee = .legacy price) (hfee' : t'.fee = .legacy price')
    (he : t.preimage = t'.preimage) : t = t' := by
  rw [preimage_legacy hfee, preimage_legacy hfee'] at he
  have hl := Rlp.encode_injective
    (Rlp.length_encode_list_lt (t.length_legacyItems_lt h price)) he
  simp only [Rlp.list.injEq, legacyFields, chainFields, List.cons_append, List.nil_append,
    List.cons.injEq] at hl
  obtain ⟨hnonce, hprice, hl⟩ := hl
  obtain ⟨hcall, hchain⟩ := List.append_inj' hl rfl
  obtain ⟨hgas, hto, hvalue, hinput⟩ := callFields_injective hcall
  have hprice := Word.ext (Rlp.ofNat_injective hprice)
  subst hprice
  exact Transaction.ext (Word.ext (Rlp.ofNat_injective (List.cons.inj hchain).1))
    (Word.ext (Rlp.ofNat_injective hnonce)) (hfee.trans hfee'.symm) hgas hto hvalue hinput

/-- The type in front tells the formats apart. -/
theorem market_preimage_ne_legacy {t t' : Transaction} (h' : t'.input.length < 2 ^ 63)
    {tip cap price : Word 128} (hfee : t.fee = .market tip cap) (hfee' : t'.fee = .legacy price) :
    t.preimage ≠ t'.preimage := by
  obtain ⟨b, bs, hb, hlow⟩ := Rlp.exists_cons_encode_list (t'.length_legacyItems_lt h' price)
  rw [preimage_market hfee, preimage_legacy hfee', hb]
  intro he
  exact ne_marketType hlow (List.cons.inj he).1.symm

/-- Two transactions are signed over the same bytes only if they are the same: the formats, the
chains and all that a transaction says are told apart before anything is hashed. -/
theorem preimage_eq_iff (t t' : Transaction) (h : t.input.length < 2 ^ 63)
    (h' : t'.input.length < 2 ^ 63) :
    (t.preimage = t'.preimage ↔
      t.chainId = t'.chainId ∧ t.nonce = t'.nonce ∧ t.fee = t'.fee ∧ t.gasLimit = t'.gasLimit ∧
        t.recipient = t'.recipient ∧ t.value = t'.value ∧ t.input = t'.input) ∧
      (∀ tip cap price, t.fee = .market tip cap → t'.fee = .legacy price →
        t.preimage ≠ t'.preimage) ∧
      (t.chainId ≠ t'.chainId → t.preimage ≠ t'.preimage) := by
  have hinj : t.preimage = t'.preimage → t = t' := by
    intro he
    cases hfee : t.fee with
    | market tip cap =>
      cases hfee' : t'.fee with
      | market tip' cap' => exact eq_of_market_preimage h hfee hfee' he
      | legacy price => exact absurd he (market_preimage_ne_legacy h' hfee hfee')
    | legacy price =>
      cases hfee' : t'.fee with
      | market tip cap => exact absurd he.symm (market_preimage_ne_legacy h hfee' hfee)
      | legacy price' => exact eq_of_legacy_preimage h hfee hfee' he
  refine ⟨⟨fun he => Transaction.ext_iff.mp (hinj he), fun he => ?_⟩,
    fun tip cap price hfee hfee' => market_preimage_ne_legacy h' hfee hfee',
    fun hc he => hc (congrArg Transaction.chainId (hinj he))⟩
  rw [Transaction.ext_iff.mpr he]

def sixtyBytes (chainId : Word 64) (fee : Fee) : Transaction :=
  ⟨chainId, .saturate 7, fee, .saturate 21000, FixedBytes.zero 20, 0, List.replicate 60 0xAB⟩

theorem sixtyBytes_preimage_ne :
    (sixtyBytes (.saturate 813) (.legacy (.saturate 9))).preimage ≠
        (sixtyBytes (.saturate 814) (.legacy (.saturate 9))).preimage ∧
      (sixtyBytes (.saturate 813) (.market 0 (.saturate 9))).preimage ≠
        (sixtyBytes (.saturate 813) (.legacy (.saturate 9))).preimage := by
  constructor
  · exact (preimage_eq_iff (sixtyBytes (.saturate 813) (.legacy (.saturate 9)))
      (sixtyBytes (.saturate 814) (.legacy (.saturate 9))) (by decide) (by decide)).2.2 (by decide)
  · exact (preimage_eq_iff (sixtyBytes (.saturate 813) (.market 0 (.saturate 9)))
      (sixtyBytes (.saturate 813) (.legacy (.saturate 9))) (by decide) (by decide)).2.1
      _ _ _ rfl rfl

end Transaction

end ChainGateway.Ethereum
