import ChainGateway.Proofs.ValueReading
import ChainGateway.Provider.Data

namespace ChainGateway

open Json (Arranges)
open Wire

namespace Provider

def hexText (bs : List UInt8) : String :=
  "0x" ++ String.ofList (bs.flatMap fun b => [(b.toNat / 16).digitChar, (b.toNat % 16).digitChar])

def hex (bs : List UInt8) : Json := .string (hexText bs)

def quantity (n : Nat) : Json := .string ("0x" ++ String.ofList (Nat.toDigits 16 n))

def storage (m : OrderedMap Hash Hash) : Json :=
  .object (m.entries.map fun e => (hexText e.1.toList, hex e.2.toList))

def optional {α : Type} (name : String) (form : α → Json) (field : Option α) :
    List (String × Json) :=
  (field.map fun a => (name, form a)).toList

def UserOperation.members (o : UserOperation) : List (String × Json) :=
  [("sender", hex o.sender.toList),
    ("nonce", quantity o.nonce.toNat),
    ("initCode", hex o.initCode),
    ("callData", hex o.callData),
    ("callGasLimit", quantity o.callGasLimit.toNat),
    ("verificationGasLimit", quantity o.verificationGasLimit.toNat),
    ("preVerificationGas", quantity o.preVerificationGas.toNat),
    ("maxFeePerGas", quantity o.maxFeePerGas.toNat),
    ("maxPriorityFeePerGas", quantity o.maxPriorityFeePerGas.toNat),
    ("paymasterAndData", hex o.paymasterAndData),
    ("signature", hex o.signature)]

def OperationReceipt.members (r : OperationReceipt) : List (String × Json) :=
  [("userOpHash", hex r.userOpHash.toList),
    ("sender", hex r.sender.toList),
    ("paymaster", hex r.paymaster.toList),
    ("nonce", quantity r.nonce.toNat),
    ("success", .bool r.success),
    ("actualGasCost", quantity r.actualGasCost.toNat),
    ("actualGasUsed", quantity r.actualGasUsed.toNat),
    ("from", hex r.source.toList),
    ("receipt", r.receipt),
    ("logs", .array r.logs)]

def OperationLookup.members (r : OperationLookup) : List (String × Json) :=
  [("userOperation", .object r.userOperation.members),
    ("entryPoint", hex r.entryPoint.toList),
    ("blockNumber", quantity r.blockNumber.toNat),
    ("blockHash", hex r.blockHash.toList),
    ("transactionHash", hex r.transactionHash.toList)]

def GasPrices.members (p : GasPrices) : List (String × Json) :=
  [("maxFeePerGas", quantity p.maxFeePerGas.toNat),
    ("maxPriorityFeePerGas", quantity p.maxPriorityFeePerGas.toNat)]

def GasOverhead.members (g : GasOverhead) : List (String × Json) :=
  [("fixed", .integer g.fixed.toNat),
    ("perUserOp", .integer g.perUserOp.toNat),
    ("perUserOpWord", .integer g.perUserOpWord.toNat),
    ("zeroByte", .integer g.zeroByte.toNat),
    ("nonZeroByte", .integer g.nonZeroByte.toNat),
    ("minBundleSize", .integer g.minBundleSize.toNat)]

def AccountOverride.members (o : AccountOverride) : List (String × Json) :=
  [optional "nonce" (fun n => quantity n.toNat) o.nonce,
    optional "code" hex o.code,
    optional "balance" (fun n => quantity n.toNat) o.balance,
    optional "state" storage o.state,
    optional "stateDiff" storage o.stateDiff].flatten

def StateOverrides.members (o : StateOverrides) : List (String × Json) :=
  o.accounts.entries.map fun e => (hexText e.1.toList, .object e.2.members)

theorem ofList_marked (cs : List Char) :
    String.ofList ('0' :: 'x' :: cs) = "0x" ++ String.ofList cs := by
  have hcs : '0' :: 'x' :: cs = ['0', 'x'] ++ cs := rfl
  rw [hcs, String.ofList_append]

theorem encodeMarked_eq_hexText (bs : List UInt8) : Hex.encodeMarked bs = hexText bs := by
  rw [hexText, ← Hex.encode_eq_flatMap_digitChar, Hex.encodeMarked, ofList_marked]

theorem fixed_toJson {size : Nat} (b : FixedBytes size) :
    (Shape.fixed size).toJson b = hex b.toList :=
  congrArg Json.string (encodeMarked_eq_hexText b.toList)

theorem bytes_toJson (bs : List UInt8) : Shape.bytes.toJson bs = hex bs :=
  congrArg Json.string (encodeMarked_eq_hexText bs)

theorem quantity_toJson {bits : Nat} (w : Word bits) :
    (Shape.quantity bits).toJson w = quantity w.toNat := by
  change Json.string (Quantity.text w.toNat) = _
  rw [quantity, Quantity.text, Quantity.digits_eq_toDigits, ofList_marked]

theorem dictionary_toJson {size : Nat} (item : Shape)
    (m : OrderedMap (FixedBytes size) item.Carrier) :
    (Shape.dictionary size item).toJson m =
      .object (m.entries.map fun e => (hexText e.1.toList, item.toJson e.2)) := by
  have hkey : ∀ e ∈ m.entries, (e.1.text, item.toJson e.2) =
      (hexText e.1.toList, item.toJson e.2) := fun e _ =>
    congrArg (·, item.toJson e.2) (encodeMarked_eq_hexText e.1.toList)
  exact congrArg Json.object (List.map_congr_left hkey)

theorem toMembers_optional {name : String} (item : Shape) {rest : Fields}
    {form : item.Carrier → Json} (hform : ∀ x, item.toJson x = form x)
    (o : Option item.Carrier) {y : rest.Carrier} {parts : List (List (String × Json))}
    (hrest : rest.toMembers y = parts.flatten) :
    (Fields.cons name .omittable (.nullable item) rest).toMembers (o, y) =
      (optional name form o :: parts).flatten := by
  rw [List.flatten_cons, ← hrest]
  cases o with
  | none => rfl
  | some x => exact congrArg (fun v => (name, v) :: rest.toMembers y) (hform x)

theorem UserOperation.toJson_eq (o : UserOperation) : OnWire.toJson o = .object o.members := by
  simp only [members, ← bytes_toJson, ← quantity_toJson]
  rfl

theorem OperationReceipt.toJson_eq (r : OperationReceipt) :
    OnWire.toJson r = .object r.members := by
  simp only [members, ← fixed_toJson, ← quantity_toJson, ← toJson_list_value]
  rfl

theorem OperationLookup.toJson_eq (r : OperationLookup) : OnWire.toJson r = .object r.members := by
  simp only [members, ← fixed_toJson, ← quantity_toJson, ← UserOperation.toJson_eq]
  rfl

theorem GasPrices.toJson_eq (p : GasPrices) : OnWire.toJson p = .object p.members := by
  simp only [members, ← quantity_toJson]
  rfl

theorem GasOverhead.toJson_eq (g : GasOverhead) : OnWire.toJson g = .object g.members := rfl

theorem storage_toJson (m : OrderedMap Hash Hash) :
    (Shape.dictionary 32 (.fixed 32)).toJson m = storage m := by
  refine (dictionary_toJson (.fixed 32) m).trans ?_
  exact congrArg Json.object (List.map_congr_left fun e _ =>
    congrArg (hexText e.1.toList, ·) (fixed_toJson e.2))

theorem AccountOverride.toJson_eq (o : AccountOverride) : OnWire.toJson o = .object o.members :=
  congrArg Json.object <|
    toMembers_optional (.quantity 64) quantity_toJson o.nonce <|
    toMembers_optional .bytes bytes_toJson o.code <|
    toMembers_optional (.quantity 256) quantity_toJson o.balance <|
    toMembers_optional (.dictionary 32 (.fixed 32)) storage_toJson o.state <|
    toMembers_optional (.dictionary 32 (.fixed 32)) storage_toJson o.stateDiff rfl

example : OnWire.toJson (⟨none, some [], some 0, some .empty, none⟩ : AccountOverride) =
    .object [("code", .string "0x"), ("balance", .string "0x0"), ("state", .object [])] := rfl

theorem StateOverrides.toJson_eq (o : StateOverrides) : OnWire.toJson o = .object o.members := by
  refine (dictionary_toJson _ _).trans (congrArg Json.object ?_)
  rw [members]
  change (o.accounts.entries.map _).map _ = _
  rw [List.map_map]
  exact List.map_congr_left fun e _ => congrArg (hexText e.1.toList, ·) e.2.toJson_eq

/-- What the node returned as it likes has its members in order and embeds nothing. -/
structure OperationReceipt.Steady (r : OperationReceipt) : Prop where
  receipt : r.receipt.Steady
  logs : ∀ v ∈ r.logs, v.Steady

section

variable {order : Json → Json} (horder : Arranges order)
include horder

theorem rereadAs_userOperation (o : UserOperation) :
    (OnWire.shape UserOperation).RereadAs order (OnWire.pack o) (OnWire.pack o) :=
  rereadAs_record horder (by decide)
    ⟨rereadAs_fixed horder o.sender, rereadAs_quantity horder o.nonce,
      rereadAs_bytes horder o.initCode, rereadAs_bytes horder o.callData,
      rereadAs_quantity horder o.callGasLimit, rereadAs_quantity horder o.verificationGasLimit,
      rereadAs_quantity horder o.preVerificationGas, rereadAs_quantity horder o.maxFeePerGas,
      rereadAs_quantity horder o.maxPriorityFeePerGas, rereadAs_bytes horder o.paymasterAndData,
      rereadAs_bytes horder o.signature, trivial⟩

theorem rereadAs_storage (m : OrderedMap Hash Hash) :
    (Shape.dictionary 32 (.fixed 32)).RereadAs order m m :=
  rereadAs_dictionary horder fun e _ => rereadAs_fixed horder e.2

theorem rereadAs_accountOverride (o : AccountOverride) :
    (OnWire.shape AccountOverride).RereadAs order (OnWire.pack o) (OnWire.pack o) :=
  rereadAs_record horder (by decide)
    ⟨rereadAs_nullable horder (.quantity 64) nofun (rereadAs_quantity horder) o.nonce,
      rereadAs_nullable horder .bytes nofun (rereadAs_bytes horder) o.code,
      rereadAs_nullable horder (.quantity 256) nofun (rereadAs_quantity horder) o.balance,
      rereadAs_nullable horder (.dictionary 32 (.fixed 32)) nofun (rereadAs_storage horder) o.state,
      rereadAs_nullable horder (.dictionary 32 (.fixed 32)) nofun (rereadAs_storage horder)
        o.stateDiff, trivial⟩

theorem rereadAs_operationReceipt {r : OperationReceipt} (h : r.Steady) :
    (OnWire.shape OperationReceipt).RereadAs order (OnWire.pack r) (OnWire.pack r) :=
  rereadAs_record horder (by decide)
    ⟨rereadAs_fixed horder r.userOpHash, rereadAs_fixed horder r.sender,
      rereadAs_fixed horder r.paymaster, rereadAs_quantity horder r.nonce,
      rereadAs_boolean horder r.success, rereadAs_quantity horder r.actualGasCost,
      rereadAs_quantity horder r.actualGasUsed, rereadAs_fixed horder r.source,
      rereadAs_value horder h.receipt, rereadAs_values horder h.logs, trivial⟩

theorem rereadAs_operationLookup (r : OperationLookup) :
    (OnWire.shape OperationLookup).RereadAs order (OnWire.pack r) (OnWire.pack r) :=
  rereadAs_record horder (by decide)
    ⟨rereadAs_userOperation horder r.userOperation, rereadAs_fixed horder r.entryPoint,
      rereadAs_quantity horder r.blockNumber, rereadAs_fixed horder r.blockHash,
      rereadAs_fixed horder r.transactionHash, trivial⟩

theorem rereadAs_gasPrices (p : GasPrices) :
    (OnWire.shape GasPrices).RereadAs order (OnWire.pack p) (OnWire.pack p) :=
  rereadAs_record horder (by decide)
    ⟨rereadAs_quantity horder p.maxFeePerGas, rereadAs_quantity horder p.maxPriorityFeePerGas,
      trivial⟩

theorem rereadAs_gasOverhead (g : GasOverhead) :
    (OnWire.shape GasOverhead).RereadAs order (OnWire.pack g) (OnWire.pack g) :=
  rereadAs_record horder (by decide)
    ⟨rereadAs_unsigned horder g.fixed, rereadAs_unsigned horder g.perUserOp,
      rereadAs_unsigned horder g.perUserOpWord, rereadAs_unsigned horder g.zeroByte,
      rereadAs_unsigned horder g.nonZeroByte, rereadAs_unsigned horder g.minBundleSize, trivial⟩

theorem rereadAs_stateOverrides (o : StateOverrides) :
    (OnWire.shape StateOverrides).RereadAs order (OnWire.pack o) (OnWire.pack o) := by
  refine rereadAs_dictionary horder fun e he => ?_
  obtain ⟨e, -, rfl⟩ := List.mem_map.mp he
  exact rereadAs_accountOverride horder e.2

end

theorem hexText_lt_hexText_iff {size : Nat} {a b : FixedBytes size} :
    hexText a.toList < hexText b.toList ↔
      BigEndian.toNat a.toList < BigEndian.toNat b.toList := by
  rw [← encodeMarked_eq_hexText, ← encodeMarked_eq_hexText]
  exact FixedBytes.text_lt_text_iff_toNat_lt

theorem ascending_hexText {size : Nat} {α : Type} (m : OrderedMap (FixedBytes size) α)
    (form : α → Json) : Ascending (m.entries.map fun e => (hexText e.1.toList, form e.2)) := by
  refine List.pairwise_map.mpr (m.ascending.imp fun {e f} hlt => ?_)
  rw [← encodeMarked_eq_hexText, ← encodeMarked_eq_hexText]
  exact FixedBytes.text_lt_text_iff.mpr hlt

theorem sorted_storage (m : OrderedMap Hash Hash) : (storage m).sorted = storage m := by
  rw [storage, Json.sorted_object_of_ascending (ascending_hexText m fun b => hex b.toList),
    List.map_map]
  refine congrArg Json.object (List.map_congr_left fun e _ => ?_)
  exact congrArg (hexText e.1.toList, ·) (Json.arranges_sorted.string _)

theorem StateOverrides.sorted_toJson (o : StateOverrides) :
    (OnWire.toJson o).sorted = .object (o.members.map fun m => (m.1, m.2.sorted)) := by
  rw [o.toJson_eq]
  exact Json.sorted_object_of_ascending
    (ascending_hexText o.accounts fun a => .object a.members)

/-- A type's values are written as objects of some members. The steady ones are read back from them,
also after the members were sorted by name. -/
structure Faithful {α : Type} [OnWire α] (members : α → List (String × Json)) (Steady : α → Prop) :
    Prop where
  toJson_eq (a : α) : OnWire.toJson a = .object (members a)
  toJson_injective : Function.Injective (OnWire.toJson : α → Json)
  ofJson_toJson {a : α} : Steady a → OnWire.ofJson (OnWire.toJson a) = .ok a
  ofJson_sorted {a : α} : Steady a → OnWire.ofJson (OnWire.toJson a).sorted = .ok a
  ofJson_again {v : Json} {a : α} :
    OnWire.ofJson v = .ok a → Steady a → OnWire.ofJson (OnWire.toJson a) = .ok a

section

variable {α : Type} [OnWire α] (hunpack : ∀ a : α, OnWire.unpack (OnWire.pack a) = a)
include hunpack

theorem ofJson_of_rereadAs {order : Json → Json} {a : α}
    (h : (OnWire.shape α).RereadAs order (OnWire.pack a) (OnWire.pack a)) :
    OnWire.ofJson (order (OnWire.toJson a)) = .ok a := by
  rw [OnWire.ofJson_of_rereadAs h, hunpack]

theorem eq_of_rereadAs {a b : α}
    (ha : (OnWire.shape α).RereadAs id (OnWire.pack a) (OnWire.pack a))
    (hb : (OnWire.shape α).RereadAs id (OnWire.pack b) (OnWire.pack b))
    (h : OnWire.toJson a = OnWire.toJson b) : a = b := by
  have hread : (.ok a : Except Json.Fault α) = .ok b := by
    rw [← ofJson_of_rereadAs hunpack ha, id_eq, h]
    exact ofJson_of_rereadAs hunpack hb
  exact Except.ok.inj hread

theorem Faithful.of_rereadAs {members : α → List (String × Json)} {Steady : α → Prop}
    (hjson : ∀ a : α, OnWire.toJson a = .object (members a))
    (hinjective : Function.Injective (OnWire.toJson : α → Json))
    (h : ∀ {order}, Arranges order → ∀ {a : α}, Steady a →
      (OnWire.shape α).RereadAs order (OnWire.pack a) (OnWire.pack a)) :
    Faithful members Steady where
  toJson_eq := hjson
  toJson_injective := hinjective
  ofJson_toJson ha := ofJson_of_rereadAs hunpack (h Json.arranges_id ha)
  ofJson_sorted ha := ofJson_of_rereadAs hunpack (h Json.arranges_sorted ha)
  ofJson_again _ ha := ofJson_of_rereadAs hunpack (h Json.arranges_id ha)

theorem Faithful.of_forall_rereadAs {members : α → List (String × Json)}
    (hjson : ∀ a : α, OnWire.toJson a = .object (members a))
    (h : ∀ {order}, Arranges order → ∀ a : α,
      (OnWire.shape α).RereadAs order (OnWire.pack a) (OnWire.pack a)) :
    Faithful members fun _ => True :=
  .of_rereadAs hunpack hjson
    (fun a b => eq_of_rereadAs hunpack (h Json.arranges_id a) (h Json.arranges_id b))
    fun {_} horder {a} _ => h horder a

end

def OperationReceipt.bare (r : OperationReceipt) : OperationReceipt :=
  { r with receipt := .null, logs := [] }

theorem OperationReceipt.steady_bare (r : OperationReceipt) : r.bare.Steady :=
  ⟨.of_exact .null, nofun⟩

/-- What is opaque is compared by itself, since it need not be read back. -/
theorem OperationReceipt.toJson_injective :
    Function.Injective (OnWire.toJson : OperationReceipt → Json) := by
  intro r r' h
  rw [toJson_eq, toJson_eq] at h
  have hmembers := Json.object.inj h
  simp only [members, List.cons.injEq, Prod.mk.injEq, true_and, Json.array.injEq, and_true]
    at hmembers
  obtain ⟨hhash, hsender, hpaymaster, hnonce, hsuccess, hcost, hused, hsource, hreceipt, hlogs⟩ :=
    hmembers
  have hbare : r.bare = r'.bare := by
    refine eq_of_rereadAs (fun _ => rfl)
      (rereadAs_operationReceipt Json.arranges_id r.steady_bare)
      (rereadAs_operationReceipt Json.arranges_id r'.steady_bare) ?_
    rw [toJson_eq, toJson_eq]
    simp only [members, bare, hhash, hsender, hpaymaster, hnonce, hsuccess, hcost, hused, hsource]
  cases r
  cases r'
  simp only [bare, mk.injEq] at hbare hreceipt hlogs ⊢
  tauto

theorem StateOverrides.unpack_pack (o : StateOverrides) :
    OnWire.unpack (OnWire.pack o) = o := by
  have hentries : (OrderedMap.mapValues OnWire.unpack
      (OrderedMap.mapValues OnWire.pack o.accounts)).entries = o.accounts.entries := by
    change (o.accounts.entries.map _).map _ = _
    rw [List.map_map]
    exact List.map_id _
  exact congrArg StateOverrides.mk (OrderedMap.ext hentries)

theorem ne_null_of_mem_optional {α : Type} {name : String} {form : α → Json}
    (hform : ∀ a, form a ≠ .null) {field : Option α} {m : String × Json}
    (h : m ∈ optional name form field) : m.2 ≠ .null := by
  obtain ⟨a, -, rfl⟩ := Option.map_eq_some_iff.mp (Option.mem_toList.mp h)
  exact hform a

theorem AccountOverride.ne_null_of_mem_members {o : AccountOverride} {m : String × Json}
    (h : m ∈ o.members) : m.2 ≠ .null := by
  simp only [members, List.flatten_cons, List.flatten_nil, List.append_nil, List.mem_append] at h
  rcases h with h | h | h | h | h <;> exact ne_null_of_mem_optional nofun h

structure Canonical : Prop where
  userOperation : Faithful UserOperation.members fun _ => True
  operationReceipt : Faithful OperationReceipt.members OperationReceipt.Steady
  operationLookup : Faithful OperationLookup.members fun _ => True
  gasPrices : Faithful GasPrices.members fun _ => True
  gasOverhead : Faithful GasOverhead.members fun _ => True
  accountOverride : Faithful AccountOverride.members fun _ => True
  stateOverrides : Faithful StateOverrides.members fun _ => True
  ne_null (o : AccountOverride) : ∀ m ∈ o.members, m.2 ≠ .null
  digits (n : Nat) : ∀ c ∈ Nat.toDigits 16 n, c ∈ Hex.digits
  leading {n : Nat} : 0 < n → (Nat.toDigits 16 n).head? ≠ some '0'
  names {size : Nat} (a b : FixedBytes size) : hexText a.toList < hexText b.toList ↔
    BigEndian.toNat a.toList < BigEndian.toNat b.toList
  slots (m : OrderedMap Hash Hash) : (storage m).sorted = storage m
  accounts (o : StateOverrides) :
    (OnWire.toJson o).sorted = .object (o.members.map fun m => (m.1, m.2.sorted))

/-- Each type of data is written as an object with a member for each field that is present, and read
back as it was, if what the node returned as it likes is steady. Optional fields that are absent
have no member, and none is null. Numbers have no leading zeros, and the names of overrides and of
slots stand in the order of their numbers. -/
theorem data_faithful : Canonical where
  userOperation := .of_forall_rereadAs (fun _ => rfl) UserOperation.toJson_eq rereadAs_userOperation
  operationReceipt := .of_rereadAs (fun _ => rfl) OperationReceipt.toJson_eq
    OperationReceipt.toJson_injective rereadAs_operationReceipt
  operationLookup :=
    .of_forall_rereadAs (fun _ => rfl) OperationLookup.toJson_eq rereadAs_operationLookup
  gasPrices := .of_forall_rereadAs (fun _ => rfl) GasPrices.toJson_eq rereadAs_gasPrices
  gasOverhead := .of_forall_rereadAs (fun _ => rfl) GasOverhead.toJson_eq rereadAs_gasOverhead
  accountOverride :=
    .of_forall_rereadAs (fun _ => rfl) AccountOverride.toJson_eq rereadAs_accountOverride
  stateOverrides := .of_forall_rereadAs StateOverrides.unpack_pack StateOverrides.toJson_eq
    rereadAs_stateOverrides
  ne_null _ _ hm := AccountOverride.ne_null_of_mem_members hm
  digits _ _ hc := Quantity.mem_digits_of_mem_toDigits hc
  leading := Quantity.head?_toDigits
  names _ _ := hexText_lt_hexText_iff
  slots := sorted_storage
  accounts := StateOverrides.sorted_toJson

def embeddingReceipt : OperationReceipt :=
  ⟨.zero 32, .zero 20, .zero 20, 0, true, 0, 0, .zero 20,
    .object [(Json.embeddingName, .string "1"), ("a", .integer 2)], []⟩

/-- A receipt that begins as an embedding does is not read back. -/
theorem embeddingReceipt_refused : OnWire.ofJson (OnWire.toJson embeddingReceipt) =
    (.error ⟨.wrongLength 2 "fewer elements in map", none⟩ : Except Json.Fault OperationReceipt) :=
  rfl

end Provider

end ChainGateway
