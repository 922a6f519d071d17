import ChainGateway.Ethereum.Rlp
import ChainGateway.Proofs.Digits

namespace ChainGateway.Ethereum.Rlp

open BigEndian (toNat_byte)

theorem encodeItems_eq_flatMap (items : List Rlp) : encodeItems items = items.flatMap encode := by
  induction items with
  | nil => rfl
  | cons item items ih => rw [encodeItems, ih, List.flatMap_cons]

theorem encodeItems_append (items more : List Rlp) :
    encodeItems (items ++ more) = encodeItems items ++ encodeItems more := by
  simp only [encodeItems_eq_flatMap, List.flatMap_append]

theorem take?_append (payload rest : List UInt8) :
    take? payload.length (payload ++ rest) = some (payload, rest) := by
  simp [take?]

theorem eq_append_of_take? {size : Nat} {bs payload rest : List UInt8}
    (h : take? size bs = some (payload, rest)) : bs = payload ++ rest ∧ payload.length = size := by
  unfold take? at h
  split at h
  · rename_i hle
    simp only [Option.some.injEq, Prod.mk.injEq] at h
    obtain ⟨rfl, rfl⟩ := h
    exact ⟨(List.take_append_drop size bs).symm, List.length_take_of_le hle⟩
  · simp at h

theorem longLength?_ofNat {length : Nat} (h : 56 ≤ length) (rest : List UInt8) :
    longLength? (BigEndian.ofNat length).length (BigEndian.ofNat length ++ rest) =
      some (length, rest) := by
  simp [longLength?, take?_append, h]

theorem eq_append_of_longLength? {size length : Nat} {bs rest : List UInt8}
    (h : longLength? size bs = some (length, rest)) :
    bs = BigEndian.ofNat length ++ rest ∧ (BigEndian.ofNat length).length = size ∧ 56 ≤ length := by
  unfold longLength? at h
  cases ht : take? size bs with
  | none => simp [ht] at h
  | some p =>
    obtain ⟨digits, after⟩ := p
    obtain ⟨hbs, hsize⟩ := eq_append_of_take? ht
    simp only [ht, Option.bind_eq_bind, Option.bind_some] at h
    split at h
    · rename_i hc
      simp only [Option.some.injEq, Prod.mk.injEq] at h
      obtain ⟨rfl, rfl⟩ := h
      rw [hc.1]
      exact ⟨hbs, hsize, hc.2⟩
    · simp at h

theorem length_ofNat_le_eight {length : Nat} (h : length < 2 ^ 64) :
    (BigEndian.ofNat length).length ≤ 8 :=
  BigEndian.length_ofNat_le (by omega)

theorem length_header_le (base : Nat) {length : Nat} (h : length < 2 ^ 64) :
    (header base length).length ≤ 9 := by
  have := length_ofNat_le_eight h
  unfold header
  split <;> simp only [List.length_cons, List.length_nil] <;> omega

theorem header_ne_nil (base length : Nat) : header base length ≠ [] := by
  unfold header
  split <;> simp

theorem payload?_header {base : Nat} (hbase : base ≤ 0xC0) (payload : List UInt8)
    (h : payload.length < 2 ^ 64) (rest : List UInt8) :
    ∃ b ext, header base payload.length = b :: ext ∧ base ≤ b.toNat ∧ b.toNat < base + 64 ∧
      payload? (b.toNat - base) (ext ++ (payload ++ rest)) = some (payload, rest) := by
  by_cases hs : payload.length < 56
  · have hb : (UInt8.ofNat (base + payload.length)).toNat = base + payload.length :=
      toNat_byte (by omega)
    refine ⟨UInt8.ofNat (base + payload.length), [], by simp only [header, hs, ↓reduceIte],
      by omega, by omega, ?_⟩
    rw [hb, Nat.add_sub_cancel_left, List.nil_append]
    simp only [payload?, hs, ↓reduceIte, take?_append]
  · have hl := length_ofNat_le_eight h
    have hpos : 0 < (BigEndian.ofNat payload.length).length :=
      List.length_pos_iff.mpr (mt BigEndian.ofNat_eq_nil_iff.mp (by omega))
    have hb : (UInt8.ofNat (base + 55 + (BigEndian.ofNat payload.length).length)).toNat =
        base + 55 + (BigEndian.ofNat payload.length).length := toNat_byte (by omega)
    refine ⟨UInt8.ofNat (base + 55 + (BigEndian.ofNat payload.length).length),
      BigEndian.ofNat payload.length, by simp only [header, hs, ↓reduceIte], by omega, by omega, ?_⟩
    have ho : ¬ 55 + (BigEndian.ofNat payload.length).length < 56 := by omega
    rw [hb, Nat.add_assoc, Nat.add_sub_cancel_left]
    simp only [payload?, ho, ↓reduceIte, Nat.add_sub_cancel_left,
      longLength?_ofNat (Nat.le_of_not_lt hs), Option.bind_eq_bind, Option.bind_some,
      take?_append]

/-- A payload that was found stands behind the header of its length. -/
theorem header_of_payload? {base offset : Nat} {bs payload rest : List UInt8}
    (h : payload? offset bs = some (payload, rest)) :
    header base payload.length ++ payload ++ rest = UInt8.ofNat (base + offset) :: bs := by
  unfold payload? at h
  split at h
  · rename_i hs
    obtain ⟨rfl, rfl⟩ := eq_append_of_take? h
    simp [header, hs]
  · cases hl : longLength? (offset - 55) bs with
    | none => simp [hl] at h
    | some p =>
      obtain ⟨length, after⟩ := p
      simp only [hl, Option.bind_eq_bind, Option.bind_some] at h
      obtain ⟨rfl, hsize, hlong⟩ := eq_append_of_longLength? hl
      obtain ⟨rfl, rfl⟩ := eq_append_of_take? h
      have ho : base + 55 + (offset - 55) = base + offset := by omega
      simp [header, Nat.not_lt.mpr hlong, hsize, ho]

theorem toNat_0x80 : (0x80 : UInt8).toNat = 0x80 := rfl

theorem toNat_0xC0 : (0xC0 : UInt8).toNat = 0xC0 := rfl

theorem decodeItem?_small (fuel : Nat) {b : UInt8} (hb : b < 0x80) (rest : List UInt8) :
    decodeItem? (fuel + 1) (b :: rest) = some (bytes [b], rest) := by
  simp [decodeItem?, hb]

theorem decodeItem?_bytes (fuel : Nat) {b : UInt8} {bs payload rest : List UInt8}
    (hlow : 0x80 ≤ b.toNat) (hhigh : b.toNat < 0xC0)
    (hp : payload? (b.toNat - 0x80) bs = some (payload, rest))
    (hs : ∀ c, payload = [c] → ¬ c < 0x80) :
    decodeItem? (fuel + 1) (b :: bs) = some (bytes payload, rest) := by
  have h80 : ¬ b < 0x80 := by rw [UInt8.lt_iff_toNat_lt, toNat_0x80]; omega
  have hc0 : b < 0xC0 := by rw [UInt8.lt_iff_toNat_lt, toNat_0xC0]; omega
  simp only [decodeItem?, h80, hc0, ↓reduceIte, hp, Option.bind_eq_bind, Option.bind_some]
  split
  · rename_i c
    simp [hs c rfl]
  · rfl

theorem decodeItem?_list {fuel : Nat} {b : UInt8} {bs payload rest : List UInt8} {items : List Rlp}
    (hlow : 0xC0 ≤ b.toNat) (hp : payload? (b.toNat - 0xC0) bs = some (payload, rest))
    (hi : decodeItems? fuel payload = some items) :
    decodeItem? (fuel + 1) (b :: bs) = some (list items, rest) := by
  have h80 : ¬ b < 0x80 := by rw [UInt8.lt_iff_toNat_lt, toNat_0x80]; omega
  have hc0 : ¬ b < 0xC0 := by rw [UInt8.lt_iff_toNat_lt, toNat_0xC0]; omega
  simp [decodeItem?, h80, hc0, hp, hi]

theorem encodeBytes_of_small {b : UInt8} (hb : b < 0x80) : encodeBytes [b] = [b] := by
  simp [encodeBytes, hb]

theorem encodeBytes_of_not_small {bs : List UInt8} (h : ∀ b, bs = [b] → ¬ b < 0x80) :
    encodeBytes bs = header 0x80 bs.length ++ bs := by
  unfold encodeBytes
  split
  · rename_i b
    simp only [h b rfl, ↓reduceIte]
    rfl
  · rfl

theorem length_le_length_encodeBytes (bs : List UInt8) : bs.length ≤ (encodeBytes bs).length := by
  by_cases h : ∃ b, bs = [b] ∧ b < 0x80
  · obtain ⟨b, rfl, hb⟩ := h
    exact Nat.le_of_eq (congrArg List.length (encodeBytes_of_small hb)).symm
  · rw [encodeBytes_of_not_small (fun b hb hlt => h ⟨b, hb, hlt⟩), List.length_append]
    omega

theorem decodeItem?_encodeBytes (fuel : Nat) (bs rest : List UInt8) (h : bs.length < 2 ^ 64) :
    decodeItem? (fuel + 1) (encodeBytes bs ++ rest) = some (bytes bs, rest) := by
  by_cases hs : ∃ b, bs = [b] ∧ b < 0x80
  · obtain ⟨b, rfl, hb⟩ := hs
    rw [encodeBytes_of_small hb]
    exact decodeItem?_small fuel hb rest
  · have hs' : ∀ b, bs = [b] → ¬ b < 0x80 := fun b hb hlt => hs ⟨b, hb, hlt⟩
    obtain ⟨b, ext, hh, hlow, hhigh, hp⟩ := payload?_header (by omega : 0x80 ≤ 0xC0) bs h rest
    rw [encodeBytes_of_not_small hs', hh, List.append_assoc, List.cons_append]
    exact decodeItem?_bytes fuel hlow hhigh hp hs'

theorem length_encode_pos (item : Rlp) : 0 < (encode item).length := by
  cases item with
  | bytes bs =>
    rw [encode]
    cases bs with
    | nil => decide
    | cons b bs => exact Nat.lt_of_lt_of_le (by simp) (length_le_length_encodeBytes _)
  | list items =>
    have := List.length_pos_iff.mpr (header_ne_nil 0xC0 (encodeItems items).length)
    rw [encode, List.length_append]
    omega

mutual

theorem decodeItem?_encode (fuel : Nat) (rest : List UInt8) :
    (item : Rlp) → 2 * (encode item).length ≤ fuel → (encode item).length < 2 ^ 64 →
      decodeItem? fuel (encode item ++ rest) = some (item, rest)
  | bytes bs, hfuel, hsize => by
    have hpos := length_encode_pos (bytes bs)
    obtain ⟨f, rfl⟩ : ∃ f, fuel = f + 1 := ⟨fuel - 1, by omega⟩
    have hl := length_le_length_encodeBytes bs
    rw [encode] at hsize ⊢
    exact decodeItem?_encodeBytes f bs rest (by omega)
  | list items, hfuel, hsize => by
    have hhead := List.length_pos_iff.mpr (header_ne_nil 0xC0 (encodeItems items).length)
    rw [encode, List.length_append] at hfuel hsize
    obtain ⟨f, rfl⟩ : ∃ f, fuel = f + 1 := ⟨fuel - 1, by omega⟩
    have hi := decodeItems?_encodeItems f items (by omega) (by omega)
    obtain ⟨b, ext, hh, hlow, -, hp⟩ :=
      payload?_header (Nat.le_refl 0xC0) (encodeItems items) (by omega) rest
    rw [encode, hh, List.append_assoc, List.cons_append]
    exact decodeItem?_list hlow hp hi

theorem decodeItems?_encodeItems (fuel : Nat) :
    (items : List Rlp) → 2 * (encodeItems items).length + 1 ≤ fuel →
      (encodeItems items).length < 2 ^ 64 → decodeItems? fuel (encodeItems items) = some items
  | [], _, _ => by rw [encodeItems, decodeItems?]
  | item :: items, hfuel, hsize => by
    have hpos := length_encode_pos item
    rw [encodeItems, List.length_append] at hfuel hsize
    obtain ⟨f, rfl⟩ : ∃ f, fuel = f + 1 := ⟨fuel - 1, by omega⟩
    have hitem := decodeItem?_encode f (encodeItems items) item (by omega) (by omega)
    have hrest := decodeItems?_encodeItems f items (by omega) (by omega)
    obtain ⟨b, bs, hb⟩ := List.exists_cons_of_ne_nil (List.length_pos_iff.mp hpos)
    rw [encodeItems]
    rw [hb, List.cons_append] at hitem ⊢
    simp [decodeItems?, hitem, hrest]

end

theorem decode?_encode (item : Rlp) (h : (encode item).length < 2 ^ 64) :
    decode? (encode item) = some item := by
  have hd := decodeItem?_encode (2 * (encode item).length + 2) [] item (by omega) h
  rw [List.append_nil] at hd
  simp [decode?, hd]

theorem ofNat_add_sub {b : UInt8} {base : Nat} (h : base ≤ b.toNat) :
    UInt8.ofNat (base + (b.toNat - base)) = b := by
  rw [Nat.add_sub_cancel' h, UInt8.ofNat_toNat]

/-- What a read item can be: a single byte, a string behind a header, or a list behind one. -/
theorem decodeItem?_cases {fuel : Nat} {b : UInt8} {bs rest : List UInt8} {item : Rlp}
    (h : decodeItem? (fuel + 1) (b :: bs) = some (item, rest)) :
    (b < 0x80 ∧ item = bytes [b] ∧ rest = bs) ∨
    (0x80 ≤ b.toNat ∧ ∃ payload, payload? (b.toNat - 0x80) bs = some (payload, rest) ∧
      (∀ c, payload = [c] → ¬ c < 0x80) ∧ item = bytes payload) ∨
    (0xC0 ≤ b.toNat ∧ ∃ payload items, payload? (b.toNat - 0xC0) bs = some (payload, rest) ∧
      decodeItems? fuel payload = some items ∧ item = list items) := by
  rw [decodeItem?] at h
  by_cases h80 : b < 0x80
  · simp only [h80, ↓reduceIte, Option.some.injEq, Prod.mk.injEq] at h
    exact Or.inl ⟨h80, h.1.symm, h.2.symm⟩
  · have hlow : 0x80 ≤ b.toNat := by rw [UInt8.lt_iff_toNat_lt, toNat_0x80] at h80; omega
    simp only [h80, ↓reduceIte] at h
    by_cases hc0 : b < 0xC0
    · simp only [hc0, ↓reduceIte] at h
      obtain ⟨⟨payload, after⟩, hp, h⟩ := Option.bind_eq_some_iff.mp h
      refine Or.inr (Or.inl ⟨hlow, payload, ?_⟩)
      match payload, h with
      | [], h => simp_all
      | [c], h =>
        -- a single low byte has no header of its own
        by_cases hc : c < 0x80 <;> simp_all
      | c :: d :: r, h => simp_all
    · have hlow' : 0xC0 ≤ b.toNat := by rw [UInt8.lt_iff_toNat_lt, toNat_0xC0] at hc0; omega
      simp only [hc0, ↓reduceIte] at h
      obtain ⟨⟨payload, after⟩, hp, h⟩ := Option.bind_eq_some_iff.mp h
      obtain ⟨items, hi, h⟩ := Option.bind_eq_some_iff.mp h
      simp only [Option.pure_def, Option.some.injEq, Prod.mk.injEq] at h
      obtain ⟨rfl, rfl⟩ := h
      exact Or.inr (Or.inr ⟨hlow', payload, items, hp, hi, rfl⟩)

theorem decodeItems?_cons {fuel : Nat} {b : UInt8} {bs : List UInt8} {items : List Rlp}
    (h : decodeItems? (fuel + 1) (b :: bs) = some items) :
    ∃ item rest more, decodeItem? fuel (b :: bs) = some (item, rest) ∧
      decodeItems? fuel rest = some more ∧ items = item :: more := by
  rw [decodeItems?] at h
  obtain ⟨⟨item, rest⟩, hitem, h⟩ := Option.bind_eq_some_iff.mp h
  obtain ⟨more, hmore, h⟩ := Option.bind_eq_some_iff.mp h
  exact ⟨item, rest, more, hitem, hmore, (Option.some.inj h).symm⟩

theorem eq_nil_of_decodeItems?_nil {fuel : Nat} {items : List Rlp}
    (h : decodeItems? fuel [] = some items) : items = [] := by
  simpa [decodeItems?] using h.symm

/-- Whatever is read is spelled in the one way in which it is written. -/
theorem encode_of_decode (fuel : Nat) :
    (∀ bs item rest, decodeItem? fuel bs = some (item, rest) → encode item ++ rest = bs) ∧
      ∀ bs items, decodeItems? fuel bs = some items → encodeItems items = bs := by
  induction fuel with
  | zero =>
    refine ⟨fun bs item rest h => by simp [decodeItem?] at h, fun bs items h => ?_⟩
    cases bs with
    | nil => rw [eq_nil_of_decodeItems?_nil h, encodeItems]
    | cons b bs => simp [decodeItems?] at h
  | succ fuel ih =>
    obtain ⟨ihItem, ihItems⟩ := ih
    constructor
    · intro bs item rest h
      cases bs with
      | nil => simp [decodeItem?] at h
      | cons b bs =>
        obtain ⟨hb, rfl, rfl⟩ | ⟨hlow, payload, hp, hs, rfl⟩ |
          ⟨hlow, payload, items, hp, hi, rfl⟩ := decodeItem?_cases h
        · rw [encode, encodeBytes_of_small hb, List.singleton_append]
        · rw [encode, encodeBytes_of_not_small hs, header_of_payload? hp, ofNat_add_sub hlow]
        · rw [encode, ihItems _ _ hi, header_of_payload? hp, ofNat_add_sub hlow]
    · intro bs items h
      cases bs with
      | nil => rw [eq_nil_of_decodeItems?_nil h, encodeItems]
      | cons b bs =>
        obtain ⟨item, rest, more, hitem, hmore, rfl⟩ := decodeItems?_cons h
        rw [encodeItems, ihItems _ _ hmore, ihItem _ _ _ hitem]

theorem encode_of_decode? {bs : List UInt8} {item : Rlp} (h : decode? bs = some item) :
    encode item = bs := by
  unfold decode? at h
  split at h
  · rename_i item' hd
    obtain rfl := Option.some.inj h
    have he := (encode_of_decode _).1 _ _ _ hd
    rwa [List.append_nil] at he
  · simp at h

theorem encode_injective {item item' : Rlp} (h : (encode item).length < 2 ^ 64)
    (he : encode item = encode item') : item = item' := by
  have h₁ := decode?_encode item h
  rw [he] at h h₁
  rw [decode?_encode item' h] at h₁
  exact (Option.some.inj h₁).symm

end ChainGateway.Ethereum.Rlp
