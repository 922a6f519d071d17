import ChainGateway.Proofs.FeeLimits
import ChainGateway.Proofs.FieldPlaces
import ChainGateway.Proofs.KeptIntegers
import ChainGateway.Proofs.QuantityText

namespace ChainGateway

open Wire (Opens Shape)

namespace Quantity

/-- A quantity is an integer of sixty-four bits or a text, and fits. -/
inductive Denotes (bits : Nat) : Json → Nat → Prop where
  | integer {n : Nat} : n < 2 ^ 64 → n < 2 ^ bits → Denotes bits (.integer n) n
  | text {s : String} {n : Nat} : Spells s n → n < 2 ^ bits → Denotes bits (.string s) n

/-- Reading is exact: a number is read from the values that denote it, and from no others, and
values that denote none are refused. Null is one of these, unless it is an absent quantity. -/
structure Exact {φ ε α : Type} (bits : Nat) (optional : Bool) (fault : φ → ε)
    (number : α → Option (Word bits)) (read : Json → Except ε α) : Prop where
  reads_iff : ∀ v, v.Kept → ∀ m,
    (∃ a w, read v = .ok a ∧ number a = some w ∧ w.toNat = m) ↔ Denotes bits v m
  refuses : ∀ v, v.Kept → v ≠ .null → (∀ m, ¬ Denotes bits v m) → ∃ f, read v = .error (fault f)
  null : if optional then ∃ a, read .null = .ok a ∧ number a = none
    else ∃ e, read .null = .error e

variable {bits : Nat} {v : Json}

theorem not_denotes_null (m : Nat) : ¬ Denotes bits .null m := nofun

theorem quantityOfJson_integer_eq_ok_iff {n : Int} {w : Word bits} :
    Wire.quantityOfJson bits (.integer n) = .ok w ↔ n = w.toNat := by
  simp only [Wire.quantityOfJson]
  by_cases hn : n < 0
  · rw [if_pos hn]
    exact iff_of_false nofun (by omega)
  · rw [if_neg hn, Wire.orElse_eq_ok_iff, Word.ofNat?_eq_some_iff]
    omega

theorem quantityOfJson_string_eq_ok_iff {s : String} {w : Word bits} :
    Wire.quantityOfJson bits (.string s) = .ok w ↔ Spells s w.toNat :=
  Wire.orElse_eq_ok_iff.trans ofText?_eq_some_iff

theorem quantityOfJson_eq_ok_iff (hv : v.Kept) {w : Word bits} :
    Wire.quantityOfJson bits v = .ok w ↔ Denotes bits v w.toNat := by
  cases v with
  | integer n =>
    have hn := Json.kept_integer_iff.mp hv
    simp only [Json.exactInteger, Bool.and_eq_true, decide_eq_true_eq] at hn
    rw [quantityOfJson_integer_eq_ok_iff]
    constructor
    · rintro rfl
      exact .integer (by omega) w.toNat_lt
    · generalize w.toNat = m
      intro h
      cases h
      rfl
  | string s =>
    rw [quantityOfJson_string_eq_ok_iff]
    constructor
    · exact fun h => .text h w.toNat_lt
    · intro h
      cases h with
      | text hs _ => exact hs
  | _ =>
    constructor
    · intro h
      cases h
    · intro h
      cases h

theorem exists_word_of_denotes {m : Nat} (h : Denotes bits v m) : ∃ w : Word bits, w.toNat = m := by
  cases h with
  | integer _ hm => exact ⟨⟨m, hm⟩, rfl⟩
  | text _ hm => exact ⟨⟨m, hm⟩, rfl⟩

theorem exact_quantity (bits : Nat) :
    Exact bits false id some (Wire.quantityOfJson bits) where
  reads_iff v hv m := by
    constructor
    · rintro ⟨w, w', hw, hsame, rfl⟩
      obtain rfl := Option.some.inj hsame
      exact (quantityOfJson_eq_ok_iff hv).mp hw
    · intro h
      obtain ⟨w, rfl⟩ := exists_word_of_denotes h
      exact ⟨w, w, (quantityOfJson_eq_ok_iff hv).mpr h, rfl, rfl⟩
  refuses v hv _ hnone := by
    cases hread : Wire.quantityOfJson bits v with
    | error cause => exact ⟨cause, rfl⟩
    | ok w => exact absurd ((quantityOfJson_eq_ok_iff hv).mp hread) (hnone _)
  null := ⟨_, rfl⟩

theorem Exact.through {φ ψ δ ε α β : Type} {optional : Bool} {fault : φ → δ} {fault' : ψ → ε}
    {number : α → Option (Word bits)} {number' : β → Option (Word bits)}
    {inner : Json → Except δ α} {outer : Json → Except ε β}
    (h : Exact bits optional fault number inner) (put : α → β)
    (hnumber : ∀ a, number' (put a) = number a)
    (hok : ∀ v b, outer v = .ok b ↔ ∃ a, inner v = .ok a ∧ b = put a)
    (hfault : ∀ v e, v ≠ .null → outer v = .error e → ∃ f, e = fault' f) :
    Exact bits optional fault' number' outer where
  reads_iff v hv m := by
    rw [← h.reads_iff v hv m]
    constructor
    · rintro ⟨_, w, hb, hw, rfl⟩
      obtain ⟨a, ha, rfl⟩ := (hok v _).mp hb
      exact ⟨a, w, ha, (hnumber a).symm.trans hw, rfl⟩
    · rintro ⟨a, w, ha, hw, rfl⟩
      exact ⟨put a, w, (hok v _).mpr ⟨a, ha, rfl⟩, (hnumber a).trans hw, rfl⟩
  refuses v hv hnull hnone := by
    -- what the outer reader takes is what the inner one takes
    obtain ⟨f, hf⟩ := h.refuses v hv hnull hnone
    cases hread : outer v with
    | ok b =>
      obtain ⟨a, ha, -⟩ := (hok v b).mp hread
      cases hf.symm.trans ha
    | error e =>
      obtain ⟨f', rfl⟩ := hfault v e hnull hread
      exact ⟨f', rfl⟩
  null := by
    cases optional with
    | true =>
      obtain ⟨a, ha, hnone⟩ := h.null
      exact ⟨put a, (hok _ _).mpr ⟨a, ha, rfl⟩, (hnumber a).trans hnone⟩
    | false =>
      obtain ⟨e, he⟩ := h.null
      cases hread : outer .null with
      | ok b =>
        obtain ⟨a, ha, -⟩ := (hok _ b).mp hread
        cases he.symm.trans ha
      | error e' => exact ⟨e', rfl⟩

theorem Exact.congr {φ ψ δ ε α : Type} {optional : Bool} {fault : φ → δ} {fault' : ψ → ε}
    {number : α → Option (Word bits)} {inner : Json → Except δ α} {outer : Json → Except ε α}
    (h : Exact bits optional fault number inner)
    (hok : ∀ v a, outer v = .ok a ↔ inner v = .ok a)
    (hfault : ∀ v e, v ≠ .null → outer v = .error e → ∃ f, e = fault' f) :
    Exact bits optional fault' number outer := by
  refine h.through id (fun _ => rfl) (fun v a => ?_) hfault
  simp only [hok, id_eq, exists_eq_right']

theorem exact_nullable (bits : Nat) :
    Exact bits true id (fun o : Option (Word bits) => o)
      (Shape.nullable (.quantity bits)).ofJson where
  reads_iff v hv m := by
    by_cases hnull : v = .null
    · subst hnull
      refine iff_of_false ?_ (not_denotes_null m)
      rintro ⟨o, w, ho, hw, -⟩
      cases (Except.ok.inj ho).trans hw
    · rw [← (exact_quantity bits).reads_iff v hv m, Wire.ofJson_nullable_of_ne_null hnull]
      change (∃ o w, (Wire.quantityOfJson bits v).map some = .ok o ∧ o = some w ∧ _) ↔ _
      cases Wire.quantityOfJson bits v <;> simp [Except.map]
  refuses v hv hnull hnone := by
    obtain ⟨cause, hcause⟩ := (exact_quantity bits).refuses v hv hnull hnone
    refine ⟨cause, ?_⟩
    rw [Wire.ofJson_nullable_of_ne_null hnull]
    exact congrArg (Except.map some) hcause
  null := ⟨none, rfl, rfl⟩

end Quantity

namespace Rpc

open Quantity (Exact Denotes)

variable {bits : Nat}

def Says (bits : Nat) (reply : Reply) (n : Nat) : Prop :=
  ∃ v, result reply = .ok v ∧ Denotes bits v n

theorem outcome_eq_ok_iff {r : Response} {v : Json} :
    r.outcome = .ok v ↔ r.nodeError? = none ∧ r.result? = some v := by
  unfold Response.outcome
  cases r.nodeError? <;> cases r.result? <;> simp

theorem kept_of_result {reply : Reply} (h : KeptReply reply) {v : Json}
    (hv : result reply = .ok v) : v.Kept := by
  obtain ⟨r, rfl, hr⟩ := Outcome.bind_eq_ok hv
  exact h r v rfl (Option.filter_eq_some_iff.mp (outcome_eq_ok_iff.mp hr).2).1

theorem read_quantity_eq_ok_iff {reply : Reply} (h : KeptReply reply) {w : Word bits} :
    read (.quantity bits) reply = .ok w ↔ Says bits reply w.toNat := by
  constructor
  · intro hread
    obtain ⟨v, hv, hw⟩ := Outcome.bind_eq_ok hread
    exact ⟨v, hv, (Quantity.quantityOfJson_eq_ok_iff (kept_of_result h hv)).mp
      (Outcome.mapError_eq_ok hw)⟩
  · rintro ⟨v, hv, hw⟩
    have hquantity := (Quantity.quantityOfJson_eq_ok_iff (kept_of_result h hv)).mpr hw
    rw [read, hv]
    exact congrArg (Except.mapError _) hquantity

theorem read_of_result {shape : Shape} {r : Response} (h : r.nodeError? = none) {v : Json}
    (hv : v ≠ .null) : read shape (.ok { r with result := some v }) =
      (shape.ofJson v).mapError fun cause => .decode ⟨cause, none⟩ := by
  have houtcome : Response.outcome { r with result := some v } = .ok v :=
    Response.outcome_of_result h (Response.result?_eq_some rfl hv)
  change Except.bind (Response.outcome _) _ = _
  rw [houtcome]
  rfl

theorem read_of_null {shape : Shape} {r : Response} (h : r.nodeError? = none) :
    read shape (.ok { r with result := some .null }) = .error .emptyReply := by
  have houtcome : Response.outcome { r with result := some .null } = .error .emptyReply :=
    Response.outcome_of_noResult h (Response.result?_eq_none fun _ hv => (Option.some.inj hv).symm)
  change Except.bind (Response.outcome _) _ = _
  rw [houtcome]
  rfl

/-- In the place of the result of a reply without an error, a quantity is read exactly. -/
theorem exact_read {r : Response} (h : r.nodeError? = none) :
    Exact bits false GatewayError.decode some fun v =>
      read (.quantity bits) (.ok { r with result := some v }) := by
  refine (Quantity.exact_quantity bits).congr (fun v w => ?_) fun v e hv he => ?_
  · by_cases hv : v = .null
    · rw [hv, read_of_null h]
      exact iff_of_false nofun nofun
    · rw [read_of_result h hv]
      exact Outcome.mapError_eq_ok_iff
  · rw [read_of_result h hv] at he
    obtain ⟨cause, -, rfl⟩ := Outcome.mapError_eq_error he
    exact ⟨⟨cause, none⟩, rfl⟩

end Rpc

namespace Bridge

open Ethereum (Fee)
open Quantity (Denotes Exact)
open Rpc (Log Reply Request Says)

/-- The base fee of a block: what the member of its name denotes, or nothing if there is none or it
is null. -/
inductive HasBaseFee (block : Json) : Option (Word 256) → Prop where
  | absent : block.member? "baseFeePerGas" = none → HasBaseFee block none
  | null : block.member? "baseFeePerGas" = some .null → HasBaseFee block none
  | given {v : Json} {w : Word 256} : block.member? "baseFeePerGas" = some v →
      Denotes 256 v w.toNat → HasBaseFee block (some w)

theorem baseFee?_of_member? {block v : Json} (h : block.member? "baseFeePerGas" = some v) :
    baseFee? block =
      ((Shape.nullable (.quantity 256)).ofJson v).mapError fun cause => .decode ⟨cause, none⟩ := by
  have hread : (Shape.quantity 256).ofJson v = Wire.quantityOfJson 256 v := rfl
  unfold baseFee?
  rw [h]
  split
  · rename_i hnone
    cases hnone
  · rename_i hnull
    rw [Option.some.inj hnull]
    rfl
  · rename_i v' hnull heq
    obtain rfl := Option.some.inj heq
    rw [Wire.ofJson_nullable_of_ne_null hnull, hread]
    cases Wire.quantityOfJson 256 v <;> rfl

/-- In the place of the base fee of a block, a quantity is read exactly. -/
theorem exact_baseFee? {before : List (String × Json)} (after : List (String × Json))
    (h : ∀ m ∈ before, m.1 ≠ "baseFeePerGas") :
    Exact 256 true GatewayError.decode id fun v =>
      baseFee? (.object (before ++ ("baseFeePerGas", v) :: after)) := by
  have hmember (v : Json) :
      (Json.object (before ++ ("baseFeePerGas", v) :: after)).member? "baseFeePerGas" = some v := by
    rw [Json.member?, Json.lookup_eq_head?, Json.valuesOf_place_own, Json.valuesOf_eq_nil h]
    rfl
  refine (Quantity.exact_nullable 256).congr (fun v o => ?_) fun v e _ he => ?_
  · rw [baseFee?_of_member? (hmember v)]
    exact Outcome.mapError_eq_ok_iff
  · rw [baseFee?_of_member? (hmember v)] at he
    obtain ⟨cause, -, rfl⟩ := Outcome.mapError_eq_error he
    exact ⟨⟨cause, none⟩, rfl⟩

theorem hasBaseFee_of_baseFee? {block : Json} (hblock : block.Kept) {base : Option (Word 256)}
    (h : baseFee? block = .ok base) : HasBaseFee block base := by
  cases hmember : block.member? "baseFeePerGas" with
  | none =>
    rw [baseFee?, hmember] at h
    obtain rfl := Except.ok.inj h
    exact .absent hmember
  | some v =>
    have hread := Outcome.mapError_eq_ok (baseFee?_of_member? hmember ▸ h)
    by_cases hnull : v = .null
    · subst hnull
      obtain rfl := Except.ok.inj hread
      exact .null hmember
    · rw [Wire.ofJson_nullable_of_ne_null hnull] at hread
      obtain ⟨w, hw, rfl⟩ := Outcome.map_eq_ok hread
      exact .given hmember
        ((Quantity.quantityOfJson_eq_ok_iff (hblock.of_member? hmember)).mp hw)

namespace ContractBridge

/-- A log of four requests whose replies denote a nonce, a limit, a base fee if there is one, and a
tip or else a price, and the signed bytes of the transaction that has these numbers. -/
def Denoted (b : ContractBridge) (input raw : List UInt8) (log : Log) : Prop :=
  ∃ r₁ r₂ r₃ r₄ block, ∃ (nonce gasLimit : Word 64) (base : Option (Word 256)) (offer : Word 256)
      (fee : Fee),
    log = [⟨b.countRequest, r₁⟩, ⟨b.estimateRequest input, r₂⟩, ⟨headRequest, r₃⟩,
      ⟨feeRequest base, r₄⟩] ∧
    Says 64 r₁ nonce.toNat ∧ Says 64 r₂ gasLimit.toNat ∧ Rpc.result r₃ = .ok block ∧
    HasBaseFee block base ∧ Says 256 r₄ offer.toNat ∧ quotedFee base offer = .ok fee ∧
    b.signed (b.transaction input nonce gasLimit fee) = .ok raw

theorem exists_offer_of_readFee {base : Option (Word 256)} {reply : Reply} {fee : Fee}
    (h : readFee base reply = .ok fee) :
    ∃ offer, Rpc.read (.quantity 256) reply = .ok offer ∧ quotedFee base offer = .ok fee := by
  cases base with
  | none => exact Outcome.bind_eq_ok h
  | some base => exact Outcome.bind_eq_ok h

theorem denoted_of_prepared {b : ContractBridge} {input raw : List UInt8} {log : Log}
    (hkept : ∀ x ∈ log, Rpc.KeptReply x.2) (h : Prepared b input raw log) :
    b.Denoted input raw log := by
  obtain ⟨r₁, r₂, r₃, r₄, nonce, gasLimit, base, fee, rfl, h₁, h₂, h₃, h₄, hsigned⟩ := h
  simp only [List.forall_mem_cons] at hkept
  obtain ⟨hkept₁, hkept₂, hkept₃, hkept₄, -⟩ := hkept
  obtain ⟨block, hblock, hbase⟩ := Outcome.bind_eq_ok h₃
  obtain ⟨offer, hoffer, hfee⟩ := exists_offer_of_readFee h₄
  exact ⟨r₁, r₂, r₃, r₄, block, nonce, gasLimit, base, offer, fee, rfl,
    (Rpc.read_quantity_eq_ok_iff hkept₁).mp h₁, (Rpc.read_quantity_eq_ok_iff hkept₂).mp h₂, hblock,
    hasBaseFee_of_baseFee? (Rpc.kept_of_result hkept₃ hblock) hbase,
    (Rpc.read_quantity_eq_ok_iff hkept₄).mp hoffer, hfee, hsigned⟩

/-- Nothing is relayed but a transaction with the numbers that the replies denote, and without a
relay no submission succeeds. -/
structure RelaysDenoted (b : ContractBridge) (input : List UInt8) (log : Log)
    (outcome : Except GatewayError Hash) : Prop where
  relayed {before after : Log} {x : (_ : Request) × Reply} : log = before ++ x :: after →
    x.1.method = "eth_sendRawTransaction" →
    ∃ raw, x.1 = relayRequest raw ∧ b.Denoted input raw before
  succeeds {hash : Hash} : outcome = .ok hash → ∃ raw before reply,
    log = before ++ [⟨relayRequest raw, reply⟩] ∧ b.Denoted input raw before ∧
      hash = keccak256 raw

theorem relaysDenoted_of_submit {b : ContractBridge} {input : List UInt8} {log : Log}
    {outcome : Except GatewayError Hash} (h : (b.submit input).Ends log outcome)
    (hkept : ∀ x ∈ log, Rpc.KeptReply x.2) : b.RelaysDenoted input log outcome := by
  obtain ⟨last, reached, q, reply, hreached, hq, rfl, hlast⟩ := submit_cases b input h
  constructor
  case relayed =>
    intro before after x hlog hmethod
    obtain ⟨rfl, raw, hprepared, hx⟩ := relay_of_reached hreached hq hlog hmethod
    refine ⟨raw, hx, denoted_of_prepared (fun y hy => hkept y ?_) hprepared⟩
    rw [hlog]
    exact List.mem_append_left _ hy
  case succeeds =>
    rintro hash rfl
    obtain ⟨_, _, hfailed⟩ | ⟨raw, v, rfl, _, ho⟩ := hlast
    · cases hfailed
    · obtain rfl := Option.some.inj hq
      exact ⟨raw, reached, reply, rfl,
        denoted_of_prepared (fun y hy => hkept y (List.mem_append_left _ hy)) hreached,
        Except.ok.inj ho⟩

end ContractBridge

end Bridge

namespace Provider

/-- A quantity in data: where it stands, how many bits it has, whether it may be left out, and what
it is in the data that were decoded. -/
structure QuantityField (α : Type) where
  path : List (String × Nat)
  bits : Nat
  optional : Bool
  number : α → Option (Word bits)

namespace QuantityField

variable {α β : Type} {bits : Nat}

def required (name : String) (index : Nat) (get : α → Word bits) : QuantityField α :=
  ⟨[(name, index)], bits, false, fun a => some (get a)⟩

def omittable (name : String) (index : Nat) (get : α → Option (Word bits)) : QuantityField α :=
  ⟨[(name, index)], bits, true, get⟩

def within (name : String) (index : Nat) (part : α → β) (q : QuantityField β) : QuantityField α :=
  ⟨(name, index) :: q.path, q.bits, q.optional, q.number ∘ part⟩

/-- Whatever stands around it, as long as it is data of the type with some value in the place of
the quantity, the quantity is read exactly. -/
def Exact [OnWire α] (q : QuantityField α) : Prop :=
  ∀ around, Json.Path q.path around → (∃ v, ∃ a : α, OnWire.ofJson (around v) = .ok a) →
    Quantity.Exact q.bits q.optional id q.number
      fun v => (OnWire.ofJson (around v) : Except Json.Fault α)

/-- The quantity is a part of the data, and read exactly by itself. -/
def Found [OnWire α] (q : QuantityField α) : Prop :=
  ∀ around, Json.Path q.path around → ∃ (inner : Shape)
    (part : (OnWire.shape α).Carrier → inner.Carrier)
    (number : inner.Carrier → Option (Word q.bits)),
    Opens (OnWire.shape α) inner part around ∧
    Quantity.Exact q.bits q.optional id number inner.ofJson ∧
    ∀ a, q.number a = number (part (OnWire.pack a))

variable [OnWire α] [OnWire β]

theorem exact_of_found {q : QuantityField α} (h : q.Found)
    (hpack : ∀ a : α, OnWire.unpack (OnWire.pack a) = a)
    (hunpack : ∀ x : (OnWire.shape α).Carrier, OnWire.pack (OnWire.unpack x : α) = x) :
    q.Exact := by
  rintro around haround ⟨w, a₀, h₀⟩
  obtain ⟨inner, part, number, hopens, hexact, hnumber⟩ := h around haround
  have hread (v : Json) (a : α) : OnWire.ofJson (around v) = .ok a ↔
      (OnWire.shape α).ofJson (around v) = .ok (OnWire.pack a) :=
    OnWire.ofJson_eq_ok_iff hpack hunpack
  obtain ⟨put, hput, hiff⟩ := hopens w _ ((hread w a₀).mp h₀)
  refine hexact.through (fun x => OnWire.unpack (put x)) (fun x => ?_) (fun v a => ?_)
    fun v e _ _ => ⟨e, rfl⟩
  · rw [hnumber, hunpack, hput]
  · rw [hread, hiff]
    constructor
    · rintro ⟨x, hx, ha⟩
      exact ⟨x, hx, ha ▸ (hpack a).symm⟩
    · rintro ⟨x, hx, rfl⟩
      exact ⟨x, hx, hunpack _⟩

section

variable {name : String} {index : Nat}

theorem found_required {get : α → Word bits}
    (h : (OnWire.shape α).fields.entry? index = some (name, .quantity bits))
    (hnames : (OnWire.shape α).fields.names.Nodup)
    (hget : ∀ a, get a = Shape.part (.ofEntry h) (OnWire.pack a)) :
    (required name index get).Found := by
  intro around haround
  cases haround with
  | cons hplace hnil =>
    cases hnil
    exact ⟨.quantity bits, Shape.part (.ofEntry h), some, Wire.opens_part _ hnames hplace,
      Quantity.exact_quantity bits, fun a => congrArg some (hget a)⟩

theorem found_omittable {get : α → Option (Word bits)}
    (h : (OnWire.shape α).fields.entry? index = some (name, .nullable (.quantity bits)))
    (hnames : (OnWire.shape α).fields.names.Nodup)
    (hget : ∀ a, get a = Shape.part (.ofEntry h) (OnWire.pack a)) :
    (omittable name index get).Found := by
  intro around haround
  cases haround with
  | cons hplace hnil =>
    cases hnil
    exact ⟨.nullable (.quantity bits), Shape.part (.ofEntry h), id,
      Wire.opens_part _ hnames hplace, Quantity.exact_nullable bits, hget⟩

theorem found_within {get : α → β}
    (h : (OnWire.shape α).fields.entry? index = some (name, OnWire.shape β))
    (hnames : (OnWire.shape α).fields.names.Nodup)
    (hget : ∀ a, OnWire.pack (get a) = Shape.part (.ofEntry h) (OnWire.pack a))
    {q : QuantityField β} (hq : q.Found) : (q.within name index get).Found := by
  intro around haround
  cases haround with
  | cons hplace hpath =>
    obtain ⟨inner, part, number, hopens, hexact, hnumber⟩ := hq _ hpath
    refine ⟨inner, part ∘ Shape.part (.ofEntry h), number,
      Wire.opens_comp (Wire.opens_part _ hnames hplace) hopens, hexact, fun a => ?_⟩
    exact (hnumber (get a)).trans (by rw [hget]; rfl)

end

end QuantityField

open QuantityField (exact_of_found found_omittable found_required found_within omittable required
  within)

def UserOperation.quantities : List (QuantityField UserOperation) :=
  [required "nonce" 1 (·.nonce), required "callGasLimit" 4 (·.callGasLimit),
    required "verificationGasLimit" 5 (·.verificationGasLimit),
    required "preVerificationGas" 6 (·.preVerificationGas),
    required "maxFeePerGas" 7 (·.maxFeePerGas),
    required "maxPriorityFeePerGas" 8 (·.maxPriorityFeePerGas)]

def OperationReceipt.quantities : List (QuantityField OperationReceipt) :=
  [required "nonce" 3 (·.nonce), required "actualGasCost" 5 (·.actualGasCost),
    required "actualGasUsed" 6 (·.actualGasUsed)]

def OperationLookup.quantities : List (QuantityField OperationLookup) :=
  required "blockNumber" 2 (·.blockNumber) ::
    UserOperation.quantities.map (within "userOperation" 0 (·.userOperation))

def GasPrices.quantities : List (QuantityField GasPrices) :=
  [required "maxFeePerGas" 0 (·.maxFeePerGas),
    required "maxPriorityFeePerGas" 1 (·.maxPriorityFeePerGas)]

def AccountOverride.quantities : List (QuantityField AccountOverride) :=
  [omittable "nonce" 0 (·.nonce), omittable "balance" 2 (·.balance)]

theorem UserOperation.found_quantities : ∀ q ∈ quantities, q.Found := by
  simp only [quantities, List.forall_mem_cons]
  exact ⟨found_required rfl (by decide) fun _ => rfl,
    found_required rfl (by decide) fun _ => rfl,
    found_required rfl (by decide) fun _ => rfl,
    found_required rfl (by decide) fun _ => rfl,
    found_required rfl (by decide) fun _ => rfl,
    found_required rfl (by decide) fun _ => rfl, nofun⟩

theorem OperationReceipt.found_quantities : ∀ q ∈ quantities, q.Found := by
  simp only [quantities, List.forall_mem_cons]
  exact ⟨found_required rfl (by decide) fun _ => rfl,
    found_required rfl (by decide) fun _ => rfl,
    found_required rfl (by decide) fun _ => rfl, nofun⟩

theorem OperationLookup.found_quantities : ∀ q ∈ quantities, q.Found := by
  simp only [quantities, List.forall_mem_cons, List.forall_mem_map]
  exact ⟨found_required rfl (by decide) fun _ => rfl, fun q hq =>
    found_within rfl (by decide) (fun _ => rfl) (UserOperation.found_quantities q hq)⟩

theorem GasPrices.found_quantities : ∀ q ∈ quantities, q.Found := by
  simp only [quantities, List.forall_mem_cons]
  exact ⟨found_required rfl (by decide) fun _ => rfl,
    found_required rfl (by decide) fun _ => rfl, nofun⟩

theorem AccountOverride.found_quantities : ∀ q ∈ quantities, q.Found := by
  simp only [quantities, List.forall_mem_cons]
  exact ⟨found_omittable rfl (by decide) fun _ => rfl,
    found_omittable rfl (by decide) fun _ => rfl, nofun⟩

/-- The overrides of accounts are decoded from members, each by itself. -/
theorem StateOverrides.exists_member {ms : List (String × Json)} {o : StateOverrides}
    (h : OnWire.ofJson (.object ms) = .ok o) {e : Address × AccountOverride}
    (he : e ∈ o.accounts.entries) : ∃ m ∈ ms, OnWire.ofJson m.2 = .ok e.2 := by
  have hgathered : Wire.Gathered 20 (AccountOverride.IsOverride AccountOverride.IsWord) ms
      o.accounts := StateOverrides.ofJson_iff.mp h
  obtain ⟨m, hlast, hm⟩ := (hgathered.mem_iff e.1 e.2).mp he
  exact ⟨m, hlast.mem.1, AccountOverride.ofJson_iff.mpr hm⟩

structure ExactData : Prop where
  userOperation : ∀ q ∈ UserOperation.quantities, q.Exact
  operationReceipt : ∀ q ∈ OperationReceipt.quantities, q.Exact
  operationLookup : ∀ q ∈ OperationLookup.quantities, q.Exact
  gasPrices : ∀ q ∈ GasPrices.quantities, q.Exact
  accountOverride : ∀ q ∈ AccountOverride.quantities, q.Exact
  stateOverrides {ms : List (String × Json)} {o : StateOverrides} :
    OnWire.ofJson (.object ms) = .ok o →
    ∀ e ∈ o.accounts.entries, ∃ m ∈ ms, OnWire.ofJson m.2 = .ok e.2

theorem exactData : ExactData where
  userOperation q hq :=
    exact_of_found (UserOperation.found_quantities q hq) (fun _ => rfl) fun _ => rfl
  operationReceipt q hq :=
    exact_of_found (OperationReceipt.found_quantities q hq) (fun _ => rfl) fun _ => rfl
  operationLookup q hq :=
    exact_of_found (OperationLookup.found_quantities q hq) (fun _ => rfl) fun _ => rfl
  gasPrices q hq := exact_of_found (GasPrices.found_quantities q hq) (fun _ => rfl) fun _ => rfl
  accountOverride q hq :=
    exact_of_found (AccountOverride.found_quantities q hq) (fun _ => rfl) fun _ => rfl
  stateOverrides h _ he := StateOverrides.exists_member h he

end Provider

namespace Quantity

open Provider
open Bridge (baseFee? ContractBridge)
open Bridge.ContractBridge (sampleBridge sampleCall sampleNode)

theorem ofJson_toJson (w : Word bits) :
    (Shape.quantity bits).ofJson ((Shape.quantity bits).toJson w) = .ok w :=
  Wire.orElse_eq_ok_iff.mpr (ofText?_text w)

/-- Wherever a quantity is read, it is the number that the value in its place denotes, and there is
none where the value denotes none. -/
structure ReadExactly : Prop where
  value (bits : Nat) : Exact bits false id some (Wire.quantityOfJson bits)
  call (bits : Nat) (id : Word 64) (method : String) (params : List Json) :
    (Rpc.call (.quantity bits) id method params).Asks
      (.numbered id method params) (Rpc.read (.quantity bits))
  reply (bits : Nat) {r : Rpc.Response} : r.nodeError? = none →
    Exact bits false GatewayError.decode some
      fun v => Rpc.read (.quantity bits) (.ok { r with result := some v })
  baseFee (before after : List (String × Json)) :
    (∀ m ∈ before, m.1 ≠ "baseFeePerGas") →
    Exact 256 true GatewayError.decode id
      fun v => baseFee? (.object (before ++ ("baseFeePerGas", v) :: after))
  data : ExactData
  submission {b : ContractBridge} {input : List UInt8} {log : Rpc.Log}
    {outcome : Except GatewayError Hash} : (b.submit input).Ends log outcome →
    (∀ x ∈ log, Rpc.KeptReply x.2) → b.RelaysDenoted input log outcome
  written (bits : Nat) (w : Word bits) :
    (Shape.quantity bits).ofJson ((Shape.quantity bits).toJson w) = .ok w
  kept_value {text : List UInt8} {v : Json} : Json.ofBytes text = .ok v → v.Kept
  kept_reply {text : List UInt8} {d : Json} {r : Rpc.Response} :
    Json.document text = .ok d → OnWire.ofBytes text = .ok r → Rpc.KeptReply (.ok r)

theorem read_exactly : ReadExactly where
  value := exact_quantity
  call bits := Rpc.Exchange.asks_call (.quantity bits)
  reply _ _ := Rpc.exact_read
  baseFee _ := Bridge.exact_baseFee?
  data := exactData
  submission := ContractBridge.relaysDenoted_of_submit
  written _ := ofJson_toJson
  kept_value := Json.kept_of_ofBytes
  kept_reply hd hr r' v hreply hv := by
    obtain rfl := Except.ok.inj hreply
    exact Rpc.kept_result hd hr hv

theorem keptReply_sampleNode (q : Rpc.Request) : Rpc.KeptReply (sampleNode q) := by
  intro r v hr hv
  obtain rfl := Except.ok.inj hr
  obtain rfl := Option.some.inj hv
  split
  · exact .object fun m hm => List.mem_singleton.mp hm ▸ .string _
  · exact .string _

/-- A base fee in binary digits, a nonce with a bad digit, a gas price as an integer, and the
transaction that a node without a state lets through. -/
theorem read_exactly_sample :
    (∃ w : Word 256, baseFee? (.object [("baseFeePerGas", .string "0b1_0")]) = .ok (some w) ∧
      w.toNat = 2) ∧
    (∃ fault, Rpc.read (.quantity 64) (.ok (.success .null (.string "0x1g"))) =
      .error (.decode fault)) ∧
    (∃ p : GasPrices, OnWire.ofJson (.array [.integer 255, .string "0x1"]) = .ok p ∧
      p.maxFeePerGas.toNat = 255) ∧
    ∃ raw before, sampleBridge.Denoted sampleCall.encode raw before := by
  refine ⟨?_, ?_, ?_, ?_⟩
  · have htwo : Spells "0b1_0" 2 := number?_eq_some_iff.mp rfl
    obtain ⟨o, w, ho, rfl, hw⟩ :=
      ((read_exactly.baseFee [] [] nofun).reads_iff _ (.string "0b1_0") 2).mpr
        (.text htwo (by decide))
    exact ⟨w, ho, hw⟩
  · have hexact := read_exactly.reply 64 (r := .success .null .null) rfl
    refine hexact.refuses _ (.string "0x1g") nofun fun m h => ?_
    cases h with
    | text hs _ => cases number?_eq_some_iff.mpr hs
  · have hpath : Json.Path [("maxFeePerGas", 0)]
        ((fun v => .array ([] ++ v :: [.string "0x1"])) ∘ id) := .cons (.item _ rfl) .nil
    have hexact := read_exactly.data.gasPrices _ List.mem_cons_self _ hpath ⟨.string "0x1", _, rfl⟩
    obtain ⟨p, w, hp, hw, hm⟩ :=
      (hexact.reads_iff (.integer 255) (.integer rfl) 255).mpr (.integer (by decide) (by decide))
    obtain rfl := Option.some.inj hw
    exact ⟨p, hp, hm⟩
  · obtain ⟨hash, hrun⟩ := ContractBridge.submit_sample
    have hends : (sampleBridge.submit sampleCall.encode).Ends
        ((sampleBridge.submit sampleCall.encode).run.transcript (fun q s => (sampleNode q, s)) ())
        (.ok hash) := by
      rw [← hrun, Rpc.Exchange.outcome_eq]
      exact Dialogue.ends_run _ _ _
    have hkept : ∀ x ∈ (sampleBridge.submit sampleCall.encode).run.transcript
        (fun q s => (sampleNode q, s)) (), Rpc.KeptReply x.2 := by
      intro x hx
      obtain ⟨s, hs⟩ := Dialogue.exists_answer_of_mem_transcript hx
      exact hs ▸ keptReply_sampleNode x.1
    obtain ⟨raw, before, reply, -, hdenoted, -⟩ :=
      (read_exactly.submission hends hkept).succeeds rfl
    exact ⟨raw, before, hdenoted⟩

/-- A null is no number, but neither is it refused as a base fee or as the balance of an account:
there is none. -/
theorem absent_of_null :
    (∀ m, ¬ Denotes 256 .null m) ∧ baseFee? (.object [("baseFeePerGas", .null)]) = .ok none ∧
    OnWire.ofJson (.object [("balance", .null)]) =
      .ok (⟨none, none, none, none, none⟩ : AccountOverride) :=
  ⟨not_denotes_null, rfl, rfl⟩

end Quantity

end ChainGateway
