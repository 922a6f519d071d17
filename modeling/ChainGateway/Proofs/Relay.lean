import ChainGateway.Proofs.KeccakNumbers
import ChainGateway.Proofs.RequestDiscipline
import ChainGateway.Proofs.Signature
import ChainGateway.Proofs.TransactionCodec

namespace ChainGateway.Ethereum

open Crypto Crypto.Ecdsa

theorem length_encode_le (c : ExportCall) : c.encode.length < c.sig.length + 256 := by
  have hselector : ExportCall.selector.length ≤ 4 := List.length_take_le _ _
  have hpadding : ExportCall.padding c.sig.length < 32 := Nat.mod_lt _ (by omega)
  simp only [ExportCall.encode, ExportCall.word, List.length_append, c.txid.length_toList,
    BigEndian.length_fixed, List.length_replicate]
  omega

namespace Transaction

def signedItems (t : Transaction) (sig : Signature) : List Rlp :=
  match t.fee with
  | .market tip cap =>
    [.ofNat t.chainId.toNat, .ofNat t.nonce.toNat, .ofNat tip.toNat, .ofNat cap.toNat,
      .ofNat t.gasLimit.toNat, .bytes t.recipient.toList, .ofNat t.value.toNat, .bytes t.input,
      .list [], .ofNat sig.odd.toNat, .ofNat sig.r, .ofNat sig.s]
  | .legacy price =>
    [.ofNat t.nonce.toNat, .ofNat price.toNat, .ofNat t.gasLimit.toNat,
      .bytes t.recipient.toList, .ofNat t.value.toNat, .bytes t.input,
      .ofNat (35 + 2 * t.chainId.toNat + sig.odd.toNat), .ofNat sig.r, .ofNat sig.s]

def unsignedItems (t : Transaction) : List Rlp :=
  match t.fee with
  | .market tip cap =>
    [.ofNat t.chainId.toNat, .ofNat t.nonce.toNat, .ofNat tip.toNat, .ofNat cap.toNat,
      .ofNat t.gasLimit.toNat, .bytes t.recipient.toList, .ofNat t.value.toNat, .bytes t.input,
      .list []]
  | .legacy price =>
    [.ofNat t.nonce.toNat, .ofNat price.toNat, .ofNat t.gasLimit.toNat,
      .bytes t.recipient.toList, .ofNat t.value.toNat, .bytes t.input,
      .ofNat t.chainId.toNat, .ofNat 0, .ofNat 0]

def typePrefix (t : Transaction) : List UInt8 :=
  match t.fee with
  | .market _ _ => [0x02]
  | .legacy _ => []

theorem raw_eq (t : Transaction) (sig : Signature) :
    t.raw sig = t.typePrefix ++ (Rlp.list (t.signedItems sig)).encode := by
  unfold raw typePrefix signedItems
  cases t.fee <;> rfl

theorem preimage_eq (t : Transaction) :
    t.preimage = t.typePrefix ++ (Rlp.list t.unsignedItems).encode := by
  unfold preimage typePrefix unsignedItems
  cases t.fee <;> rfl

/-- A signature answers for a transaction: it is in range, it verifies over the hash of the
unsigned fields, and the address of the key is recovered from it where the abscissa of the nonce
point is below the order. -/
structure SignedBy (t : Transaction) (key : PrivateKey) (k : Nat) (sig : Signature) : Prop where
  range : sig.InRange
  verified : verify key.publicPoint (keccak256 t.preimage).toList sig = true
  recovered : (Secp256k1.Point.generator.mul k).x < Secp256k1.n →
    (recover (keccak256 t.preimage).toList sig).map Address.ofPoint = some key.address

theorem signedBy_of_signWith {t : Transaction} {key : PrivateKey} {k : Nat} {sig : Signature}
    (h : signWith k key (BigEndian.toNat (keccak256 t.preimage).toList) = some sig) :
    t.SignedBy key k sig := by
  obtain ⟨hrange, hverify, hrecover⟩ := signWith_sound h
  refine ⟨hrange, hverify, fun hx => ?_⟩
  rw [hrecover hx]
  rfl

theorem sign_eq (t : Transaction) (key : PrivateKey) :
    t.sign key =
      signWith (Ecdsa.nonce key (BigEndian.toNat (keccak256 t.preimage).toList)) key
        (BigEndian.toNat (keccak256 t.preimage).toList) := rfl

theorem exists_signWith {t : Transaction} {key : PrivateKey} {sig : Signature}
    (h : t.sign key = some sig) :
    ∃ k, signWith k key (BigEndian.toNat (keccak256 t.preimage).toList) = some sig :=
  ⟨_, (sign_eq t key).symm.trans h⟩

theorem lt_of_inRange {sig : Signature} (h : sig.InRange) : sig.r < 2 ^ 256 ∧ sig.s < 2 ^ 256 := by
  have hn : Secp256k1.n < 2 ^ 256 := of_decide_eq_true rfl
  have hr := h.r_lt
  have hs := h.s_le
  omega

end Transaction

end ChainGateway.Ethereum

namespace ChainGateway.Bridge

open Crypto.Ecdsa (Signature signWith)
open Crypto.Secp256k1 (Point mul_generator_eq)
open Ethereum (ExportCall Fee Rlp Transaction)
open Rpc (Log Reply Request)

namespace ContractBridge

variable {b : ContractBridge} {e : Export}

theorem length_lt_of_callData {input : List UInt8} (h : e.callData = .ok input)
    (hsig : (Text.utf8 e.sig).length < 2 ^ 62) : input.length < 2 ^ 63 := by
  obtain ⟨c, hc, rfl⟩ := Outcome.map_eq_ok h
  have hlength : c.sig.length < 2 ^ 62 := by
    unfold Export.call at hc
    split at hc
    · obtain rfl := Except.ok.inj hc
      exact hsig
    · cases hc
  have hle := Ethereum.length_encode_le c
  omega

/-- What is signed has a signature by some nonce, which fits into the fields of a transaction. -/
theorem exists_signature_of_signed {t : Transaction} {raw : List UInt8}
    (h : b.signed t = .ok raw) :
    ∃ sig k, raw = t.raw sig ∧
      signWith k b.key (BigEndian.toNat (keccak256 t.preimage).toList) = some sig ∧
      sig.r < 2 ^ 256 ∧ sig.s < 2 ^ 256 := by
  obtain ⟨sig, hsign, rfl⟩ := eq_raw_of_signed h
  obtain ⟨k, hk⟩ := Transaction.exists_signWith hsign
  exact ⟨sig, k, rfl, hk, Transaction.lt_of_inRange (Crypto.Ecdsa.inRange_of_signWith hk)⟩

theorem fee_of_readFee {base : Option (Word 256)} {reply : Reply} {fee : Fee}
    (h : readFee base reply = .ok fee) :
    base.isSome = true ↔ ∃ tip cap, fee = .market tip cap := by
  cases base with
  | none =>
    obtain ⟨price, _, hprice⟩ := Outcome.bind_eq_ok h
    obtain ⟨word, _, rfl⟩ := Outcome.map_eq_ok hprice
    exact ⟨nofun, nofun⟩
  | some base =>
    obtain ⟨tip, _, htip⟩ := Outcome.bind_eq_ok h
    obtain ⟨cap, _, h⟩ := Outcome.bind_eq_ok htip
    obtain ⟨tip, _, h⟩ := Outcome.bind_eq_ok h
    obtain rfl := Except.ok.inj h
    exact ⟨fun _ => ⟨tip, cap, rfl⟩, fun _ => rfl⟩

/-- How the requests of a send and its answer are to be read: as those of one signed
transaction. -/
structure Relays (b : ContractBridge) (e : Export) (log : Log) (hash : String) (t : Transaction)
    (sig : Signature) : Prop where
  callData : e.callData = .ok t.input
  chainId : t.chainId = b.chainId
  recipient : t.recipient = b.contract
  value : t.value = 0
  /-- Five requests, of which the last has the raw bytes for its parameter; the replies before it
  say the nonce, the limit, the format and the fee. -/
  requests : ∃ countReply estimateReply headReply feeReply relayReply block base,
    log = [
      ⟨.numbered Rpc.fixedId "eth_getTransactionCount"
        [.string b.sender.text, .string "pending"], countReply⟩,
      ⟨.numbered Rpc.fixedId "eth_estimateGas"
        [.object [("data", .string (Hex.encodeMarked t.input)), ("from", .string b.sender.text),
          ("to", .string b.contract.text)]], estimateReply⟩,
      ⟨.numbered Rpc.fixedId "eth_getBlockByNumber" [.string "latest", .bool false], headReply⟩,
      ⟨feeRequest base, feeReply⟩,
      ⟨.numbered Rpc.fixedId "eth_sendRawTransaction"
        [.string (String.ofList ('0' :: 'x' :: Hex.encode (t.raw sig)))], relayReply⟩] ∧
    Rpc.read (.quantity 64) countReply = .ok t.nonce ∧
    Rpc.read (.quantity 64) estimateReply = .ok t.gasLimit ∧
    Rpc.result headReply = .ok block ∧ baseFee? block = .ok base ∧
    readFee base feeReply = .ok t.fee ∧
    (hasBaseFee block = true ↔ ∃ tip cap, t.fee = .market tip cap)
  sole : (methods log).count "eth_sendRawTransaction" = 1
  layout : t.raw sig = t.typePrefix ++ (Rlp.list (t.signedItems sig)).encode
  decoded : Transaction.ofRaw? (t.raw sig) = some (t, sig)
  /-- No other bytes are read as the transaction with its signature. -/
  strict : ∀ raw, Transaction.ofRaw? raw = some (t, sig) → raw = t.raw sig
  /-- The answer is the hash of the bytes, whatever the node says. -/
  hash_eq : hash = String.ofList ('0' :: 'x' :: Hex.encode (keccak256 (t.raw sig)).toList)
  length_hash : (Hex.encode (keccak256 (t.raw sig)).toList).length = 64
  lowercase : ∀ c ∈ Hex.encode (t.raw sig) ++ Hex.encode (keccak256 (t.raw sig)).toList,
    c ∈ "0123456789abcdef".toList

theorem send_ok_cases {log : Log} {hash : String} (h : (b.send e).Ends log (.ok hash)) :
    ∃ input raw before relayReply, e.callData = .ok input ∧ Prepared b input raw before ∧
      log = before ++ [⟨relayRequest raw, relayReply⟩] ∧
      hash = FixedBytes.text (keccak256 raw) := by
  obtain ⟨_, _, _, hfault⟩ | ⟨input, o, hdata, hsubmit, ho⟩ := send_cases b e h
  · cases hfault
  · obtain ⟨last, reached, q, reply, hreached, hq, rfl, hlast⟩ := submit_cases b input hsubmit
    obtain ⟨source, _, rfl⟩ | ⟨raw, v, rfl, _, rfl⟩ := hlast
    · cases ho
    · obtain rfl := Option.some.inj hq
      exact ⟨input, raw, reached, reply, hdata, hreached, rfl, Except.ok.inj ho⟩

theorem relays_of_prepared {log before : Log} {hash : String} {input raw : List UInt8}
    {relayReply : Reply} (hsig : (Text.utf8 e.sig).length < 2 ^ 62) (hdata : e.callData = .ok input)
    (hprepared : Prepared b input raw before)
    (hlog : log = before ++ [⟨relayRequest raw, relayReply⟩])
    (hhash : hash = FixedBytes.text (keccak256 raw)) : ∃ t sig, Relays b e log hash t sig := by
  have hreached : (Stage.signed raw).Reached b input before := hprepared
  have hnone := relay_notMem_methods hreached rfl
  obtain ⟨r₁, r₂, r₃, r₄, nonce, gasLimit, base, fee, rfl, h₁, h₂, h₃, h₄, hsigned⟩ := hprepared
  obtain ⟨block, hblock, hbase⟩ := Outcome.bind_eq_ok h₃
  obtain ⟨sig, k, rfl, -, hr, hs⟩ := exists_signature_of_signed hsigned
  have hlength := length_lt_of_callData hdata hsig
  refine ⟨b.transaction input nonce gasLimit fee, sig, ?_⟩
  exact {
    callData := hdata
    chainId := rfl
    recipient := rfl
    value := rfl
    requests := ⟨r₁, r₂, r₃, r₄, relayReply, block, base, hlog, h₁, h₂, hblock, hbase, h₄, by
      rw [← isSome_of_baseFee? hbase]
      exact fee_of_readFee h₄⟩
    sole := by
      rw [hlog, methods_append, List.count_append, List.count_eq_zero.mpr hnone]
      rfl
    layout := Transaction.raw_eq _ sig
    decoded := Transaction.ofRaw?_raw _ hlength hr hs
    strict := fun raw h => (Transaction.raw_of_ofRaw? h).symm
    hash_eq := hhash
    length_hash := by rw [Hex.length_encode, FixedBytes.length_toList]
    lowercase := fun c hc => by
      obtain hc | hc := List.mem_append.mp hc
      · exact Hex.mem_digits_of_mem_encode hc
      · exact Hex.mem_digits_of_mem_encode hc }

def sampleBridge : ContractBridge :=
  ⟨"http://127.0.0.1:8545", ⟨1, by decide, by decide⟩, FixedBytes.zero 20, .saturate 813⟩

def sampleExport : Export := ⟨"ab", .saturate 1, .saturate 5, ""⟩

/-- A node whose latest block has a base fee, and that answers everything else with one. -/
def sampleNode (q : Request) : Reply :=
  .ok (.success q.id (if q.method = "eth_getBlockByNumber"
    then .object [("baseFeePerGas", .string "0x3b9aca00")] else .string "0x1"))

def sampleCall : ExportCall :=
  ⟨Export.leftPad [0xAB] (by decide), .saturate 1, .saturate 5, []⟩

def sampleTransaction : Transaction :=
  sampleBridge.transaction sampleCall.encode (.saturate 1) (.saturate 1)
    (.market (.saturate 1) (.saturate 2000000001))

theorem callData_sample : sampleExport.callData = .ok sampleCall.encode := by
  have h : Export.txidBytes sampleExport.txid = .ok (Export.leftPad [0xAB] (by decide)) := rfl
  exact callData_of_txidBytes_ok h

def sampleHash : Nat :=
  55143141210920619444129730303534556870506238649024494072651557955639477652567

def sampleNonce : Nat :=
  57077777482913292878195789300796393388224498164743483492764713379581277310445

theorem selector_eq : ExportCall.selector = [0x98, 0x01, 0x76, 0x7C] := by
  change (Crypto.Keccak.hash (Text.utf8 ExportCall.signature)).take 4 = _
  rw [Crypto.Keccak.hash_eq]
  decide +kernel

theorem hash_sample :
    BigEndian.toNat (keccak256 sampleTransaction.preimage).toList = sampleHash := by
  change BigEndian.toNat (Crypto.Keccak.hash sampleTransaction.preimage) = sampleHash
  rw [Crypto.Keccak.hash_eq, sampleTransaction, ExportCall.encode, selector_eq]
  decide +kernel

theorem nonce_sample : Crypto.Ecdsa.nonce sampleBridge.key sampleHash = sampleNonce := by
  decide +kernel

theorem mul_sample :
    Point.generator.mul sampleNonce = .affine
      595904664259727118380443763213012812471076545808040667466718311807359781406
      80431308827863864668847001882396223450823759470831019573156828313700459259470 :=
  mul_generator_eq (by decide) (by decide) (by decide) (by decide) (by decide +kernel)

theorem isSome_sign_sample : (sampleTransaction.sign sampleBridge.key).isSome = true := by
  rw [Transaction.sign_eq, hash_sample, nonce_sample, Crypto.Ecdsa.signWith_eq,
    Crypto.Ecdsa.rawSecond, mul_sample]
  decide +kernel

theorem submit_sample :
    ∃ hash, (sampleBridge.submit sampleCall.encode).outcome sampleNode = .ok hash := by
  obtain ⟨sig, hsign⟩ := Option.isSome_iff_exists.mp isSome_sign_sample
  have hfee : readFee (some (.saturate 1000000000))
      (sampleNode (feeRequest (some (.saturate 1000000000)))) =
        .ok (.market (.saturate 1) (.saturate 2000000001)) := rfl
  exact ⟨_, outcome_submit rfl rfl rfl hfee (signed_of_sign hsign) rfl⟩

theorem run_sample :
    ∃ hash, ((sampleBridge.send sampleExport).run.run (fun q s => (sampleNode q, s)) ()).1 =
      .ok hash := by
  obtain ⟨hash, hsubmit⟩ := submit_sample
  have hsend := outcome_send callData_sample hsubmit
  rw [Rpc.Exchange.outcome_eq] at hsend
  exact ⟨_, hsend⟩

section

variable {σ : Type} (answer : Request → σ → Reply × σ)

/-- A send that succeeds has relayed the transaction that was asked for, in the only bytes that
spell it, and answers with their hash. -/
theorem send_relays (b : ContractBridge) (e : Export) (s : σ)
    (hsig : (Text.utf8 e.sig).length < 2 ^ 62) {hash : String}
    (h : ((b.send e).run.run answer s).1 = .ok hash) :
    ∃ t sig, Relays b e ((b.send e).run.transcript answer s) hash t sig := by
  have hends : (b.send e).Ends ((b.send e).run.transcript answer s) (.ok hash) := by
    rw [← h]
    exact Dialogue.ends_run answer _ s
  obtain ⟨input, raw, before, reply, hdata, hprepared, hlog, hhash⟩ := send_ok_cases hends
  exact relays_of_prepared hsig hdata hprepared hlog hhash

theorem send_relays_sample :
    ∃ hash t sig, Relays sampleBridge sampleExport
      ((sampleBridge.send sampleExport).run.transcript (fun q s => (sampleNode q, s)) ())
      hash t sig := by
  obtain ⟨hash, h⟩ := run_sample
  exact ⟨hash,
    send_relays (fun q s => (sampleNode q, s)) sampleBridge sampleExport () (by decide) h⟩

/-- Whatever a bridge relays is signed by its own account, over the bytes that the format
prescribes; and so it would be with any other nonce. -/
theorem relay_signedBy (b : ContractBridge) (e : Export) (s : σ) {x : (_ : Request) × Reply}
    (hx : x ∈ (b.send e).run.transcript answer s)
    (hmethod : x.1.method = "eth_sendRawTransaction") :
    ∃ (t : Transaction) (sig : Signature),
      x.1.params = [.string (Hex.encodeMarked (t.raw sig))] ∧ e.callData = .ok t.input ∧
      t.chainId = b.chainId ∧ t.recipient = b.contract ∧
      ((Text.utf8 e.sig).length < 2 ^ 62 → Transaction.ofRaw? (t.raw sig) = some (t, sig)) ∧
      t.preimage = t.typePrefix ++ (Rlp.list t.unsignedItems).encode ∧
      (∃ k, signWith k b.key (BigEndian.toNat (keccak256 t.preimage).toList) = some sig ∧
        t.SignedBy b.key k sig) ∧
      ∀ k sig', signWith k b.key (BigEndian.toNat (keccak256 t.preimage).toList) = some sig' →
        t.SignedBy b.key k sig' := by
  have hdisciplined := disciplined_of_ends (Dialogue.ends_run answer (b.send e).run s)
  obtain ⟨before, after, hlog⟩ := List.append_of_mem hx
  obtain ⟨-, input, raw, hdata, hprepared, hrequest⟩ :=
    hdisciplined.relay before x after hlog hmethod
  obtain ⟨r₁, r₂, r₃, r₄, nonce, gasLimit, base, fee, rfl, h₁, h₂, h₃, h₄, hsigned⟩ := hprepared
  obtain ⟨sig, k, rfl, hk, hr, hs⟩ := exists_signature_of_signed hsigned
  refine ⟨b.transaction input nonce gasLimit fee, sig, by rw [hrequest]; rfl, hdata, rfl, rfl,
    fun hsig => Transaction.ofRaw?_raw _ (length_lt_of_callData hdata hsig) hr hs,
    Transaction.preimage_eq _, ⟨k, hk, Transaction.signedBy_of_signWith hk⟩,
    fun k sig' h => Transaction.signedBy_of_signWith h⟩

theorem relay_signedBy_sample :
    ∃ x ∈ (sampleBridge.send sampleExport).run.transcript (fun q s => (sampleNode q, s)) (),
      x.1.method = "eth_sendRawTransaction" ∧
      ∃ (t : Transaction) (sig : Signature),
        x.1.params = [.string (Hex.encodeMarked (t.raw sig))] ∧
        ∃ k, t.SignedBy sampleBridge.key k sig := by
  obtain ⟨hash, h⟩ := run_sample
  have hends : (sampleBridge.send sampleExport).Ends
      ((sampleBridge.send sampleExport).run.transcript (fun q s => (sampleNode q, s)) ())
      (.ok hash) := by
    rw [← h]
    exact Dialogue.ends_run (fun q s => (sampleNode q, s)) _ ()
  obtain ⟨input, raw, before, reply, -, -, hlog, -⟩ := send_ok_cases hends
  have hx : ⟨relayRequest raw, reply⟩ ∈
      (sampleBridge.send sampleExport).run.transcript (fun q s => (sampleNode q, s)) () := by
    rw [hlog]
    exact List.mem_append_right _ List.mem_cons_self
  obtain ⟨t, sig, hparams, -, -, -, -, -, ⟨k, -, hsigned⟩, -⟩ :=
    relay_signedBy (fun q s => (sampleNode q, s)) sampleBridge sampleExport () hx rfl
  exact ⟨_, hx, rfl, t, sig, hparams, k, hsigned⟩

end

end ContractBridge

end ChainGateway.Bridge
