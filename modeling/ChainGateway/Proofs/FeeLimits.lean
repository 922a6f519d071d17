import ChainGateway.Proofs.Relay

namespace ChainGateway.Bridge

open Crypto.Ecdsa (Signature)
open Ethereum (Fee Transaction)
open Rpc (Log Reply Request)

def tooWide (field : String) (n : Nat) : GatewayError :=
  .protocol (field ++ " " ++ toString n ++ " does not fit in 128 bits")

theorem toNat_feeCap (base tip : Word 256) :
    (feeCap base tip).toNat = min (tip.toNat + 2 * base.toNat) (2 ^ 256 - 1) := by
  have hpow : Nat.pow 2 256 = 2 ^ 256 := rfl
  rw [feeCap, Word.toNat_saturate, Word.toNat_saturate, hpow]
  omega

theorem narrow_of_lt {w : Word 256} (h : w.toNat < 2 ^ 128) (field : String) :
    ∃ v : Word 128, narrow field w = .ok v ∧ v.toNat = w.toNat := by
  refine ⟨⟨w.toNat, h⟩, ?_, rfl⟩
  have hfits : (Word.ofNat? w.toNat : Option (Word 128)) = some ⟨w.toNat, h⟩ := dif_pos h
  rw [narrow, hfits]

theorem narrow_of_le {w : Word 256} (h : 2 ^ 128 ≤ w.toNat) (field : String) :
    narrow field w = .error (tooWide field w.toNat) := by
  have hnone : (Word.ofNat? w.toNat : Option (Word 128)) = none := dif_neg (Nat.not_lt.mpr h)
  rw [narrow, hnone]
  rfl

theorem marketFee_of_lt {base tip : Word 256} (h : tip.toNat + 2 * base.toNat < 2 ^ 128) :
    ∃ tip' cap : Word 128, marketFee base tip = .ok (.market tip' cap) ∧
      tip'.toNat = tip.toNat ∧ cap.toNat = tip.toNat + 2 * base.toNat := by
  have hsum : (feeCap base tip).toNat = tip.toNat + 2 * base.toNat := by
    rw [toNat_feeCap]
    omega
  obtain ⟨cap, hcap, hcap'⟩ := narrow_of_lt (w := feeCap base tip) (by omega) "maxFeePerGas"
  obtain ⟨tip', htip, htip'⟩ := narrow_of_lt (w := tip) (by omega) "maxPriorityFeePerGas"
  refine ⟨tip', cap, ?_, htip', hcap'.trans hsum⟩
  rw [marketFee, hcap, htip]
  rfl

/-- A sum that does not fit is noticed as such before the tip is looked at. -/
theorem marketFee_of_le {base tip : Word 256} (h : 2 ^ 128 ≤ tip.toNat + 2 * base.toNat) :
    marketFee base tip =
      .error (tooWide "maxFeePerGas" (min (tip.toNat + 2 * base.toNat) (2 ^ 256 - 1))) := by
  have hcap : 2 ^ 128 ≤ (feeCap base tip).toNat := by
    rw [toNat_feeCap]
    omega
  rw [marketFee, narrow_of_le hcap, toNat_feeCap]
  rfl

theorem legacyFee_of_lt {price : Word 256} (h : price.toNat < 2 ^ 128) :
    ∃ price' : Word 128, legacyFee price = .ok (.legacy price') ∧
      price'.toNat = price.toNat := by
  obtain ⟨price', hprice, hprice'⟩ := narrow_of_lt h "gasPrice"
  exact ⟨price', by rw [legacyFee, hprice]; rfl, hprice'⟩

theorem legacyFee_of_le {price : Word 256} (h : 2 ^ 128 ≤ price.toNat) :
    legacyFee price = .error (tooWide "gasPrice" price.toNat) := by
  rw [legacyFee, narrow_of_le h]
  rfl

theorem eq_tooWide_of_narrow {field : String} {w : Word 256} {e : GatewayError}
    (h : narrow field w = .error e) : e = tooWide field w.toNat := by
  unfold narrow at h
  split at h
  · cases h
  · exact (Except.error.inj h).symm

theorem marketFee_cases {base tip : Word 256} {e : GatewayError}
    (h : marketFee base tip = .error e) : ∃ n, e = tooWide "maxFeePerGas" n := by
  by_cases hsum : tip.toNat + 2 * base.toNat < 2 ^ 128
  · obtain ⟨_, _, hfee, _⟩ := marketFee_of_lt hsum
    cases hfee.symm.trans h
  · rw [marketFee_of_le (Nat.not_lt.mp hsum)] at h
    exact ⟨_, (Except.error.inj h).symm⟩

theorem tooWide_ne {field field' : String} {i : Nat} (hi : i < field.toList.length)
    (hi' : i < field'.toList.length) (h : field.toList[i]? ≠ field'.toList[i]?) (m n : Nat) :
    tooWide field m ≠ tooWide field' n := by
  intro heq
  have hchars := congrArg (fun s : String => s.toList[i]?) (GatewayError.protocol.inj heq)
  simp only [String.toList_append, List.append_assoc, List.getElem?_append_left hi,
    List.getElem?_append_left hi'] at hchars
  exact h hchars

theorem tooWide_ne_emptyReply (n : Nat) : tooWide "maxPriorityFeePerGas" n ≠ .emptyReply := by
  intro heq
  have hchars := congrArg (fun s : String => s.toList.head?) (GatewayError.protocol.inj heq)
  simp [String.toList_append] at hchars

namespace ContractBridge

variable {b : ContractBridge} {input : List UInt8} {log : Log} {nonce gasLimit : Word 64}
  {base : Option (Word 256)} {offer : Word 256}

/-- A log of four requests whose replies quote a nonce, a limit, a base fee if there is one, and a
tip or else a price. -/
def Quoted (b : ContractBridge) (input : List UInt8) (log : Log) (nonce gasLimit : Word 64)
    (base : Option (Word 256)) (offer : Word 256) : Prop :=
  ∃ r₁ r₂ r₃ r₄,
    log = [⟨b.countRequest, r₁⟩, ⟨b.estimateRequest input, r₂⟩, ⟨headRequest, r₃⟩,
      ⟨feeRequest base, r₄⟩] ∧
    Rpc.read (.quantity 64) r₁ = .ok nonce ∧ Rpc.read (.quantity 64) r₂ = .ok gasLimit ∧
    readBase r₃ = .ok base ∧ Rpc.read (.quantity 256) r₄ = .ok offer

def quotedFee : Option (Word 256) → Word 256 → Except GatewayError Fee
  | some base, tip => marketFee base tip
  | none, price => legacyFee price

theorem readFee_of_read {reply : Reply} (h : Rpc.read (.quantity 256) reply = .ok offer) :
    readFee base reply = quotedFee base offer := by
  cases base with
  | none => exact congrArg (Except.bind · legacyFee) h
  | some base => exact congrArg (Except.bind · (marketFee base)) h

theorem Quoted.relay_notMem (h : Quoted b input log nonce gasLimit base offer) :
    "eth_sendRawTransaction" ∉ methods log := by
  obtain ⟨r₁, r₂, r₃, r₄, rfl, h₁, h₂, h₃, -⟩ := h
  have hreached : (Stage.headed nonce gasLimit base).Reached b input
      [⟨b.countRequest, r₁⟩, ⟨b.estimateRequest input, r₂⟩, ⟨headRequest, r₃⟩] :=
    ⟨r₁, r₂, r₃, rfl, h₁, h₂, h₃⟩
  intro hmem
  obtain hmem | hmem := List.mem_append.mp (methods_append [_, _, _] [_] ▸ hmem)
  · exact relay_notMem_methods hreached rfl hmem
  · exact feeRequest_method_ne base (List.mem_singleton.mp hmem).symm

section

variable {σ : Type} {answer : Request → σ → Reply × σ} {s : σ} {stage next : Stage} {q : Request}
  {o : Except GatewayError Hash} {err : GatewayError}

theorem walk_step (h : Walk b input stage log o) (hserved : Dialogue.Served answer s log)
    (hq : stage.request b input = some q)
    (hnext : stage.advance b input (answer q s).1 = .ok next) :
    ∃ rest, log = ⟨q, (answer q s).1⟩ :: rest ∧ Walk b input next rest o ∧
      Dialogue.Served answer (answer q s).2 rest := by
  cases h with
  | finish raw => cases hq
  | @stop _ q' reply _ hq' hstop =>
    obtain rfl := Option.some.inj (hq.symm.trans hq')
    have hreply : reply = (answer q s).1 := hserved.1
    cases (hreply ▸ hstop).symm.trans hnext
  | @step _ next' q' reply rest _ hq' hstep hrest =>
    obtain rfl := Option.some.inj (hq.symm.trans hq')
    obtain ⟨hreply, hserved⟩ : reply = (answer q s).1 ∧ _ := hserved
    subst hreply
    obtain rfl := Except.ok.inj (hstep.symm.trans hnext)
    exact ⟨rest, rfl, hrest, hserved⟩

theorem walk_stop (h : Walk b input stage log o) (hserved : Dialogue.Served answer s log)
    (hq : stage.request b input = some q)
    (hstop : stage.advance b input (answer q s).1 = .error err) :
    log = [⟨q, (answer q s).1⟩] ∧ o = .error err := by
  cases h with
  | finish raw => cases hq
  | @stop _ q' reply _ hq' hstop' =>
    obtain rfl := Option.some.inj (hq.symm.trans hq')
    have hreply : reply = (answer q s).1 := hserved.1
    subst hreply
    obtain rfl := Except.error.inj (hstop'.symm.trans hstop)
    exact ⟨rfl, rfl⟩
  | @step _ next' q' reply rest _ hq' hstep _ =>
    obtain rfl := Option.some.inj (hq.symm.trans hq')
    have hreply : reply = (answer q s).1 := hserved.1
    cases (hreply ▸ hstep).symm.trans hstop

end

variable {σ : Type} {answer : Request → σ → Reply × σ} {s : σ} {o : Except GatewayError Hash}
  {whole : Log}

/-- Behind a signature there is the relay alone, whose reply decides how the submission ends. -/
theorem walk_of_signed {raw : List UInt8} (h : Walk b input (.signed raw) whole o)
    (hserved : Dialogue.Served answer s whole) :
    ∃ reply, whole = [⟨relayRequest raw, reply⟩] ∧
      o = (Rpc.result reply).map fun _ => keccak256 raw := by
  refine ⟨(answer (relayRequest raw) s).1, ?_⟩
  cases hrelay : Rpc.result (answer (relayRequest raw) s).1 with
  | error e => exact walk_stop h hserved rfl (congrArg (Except.map _) hrelay)
  | ok v =>
    obtain ⟨rest, rfl, h, -⟩ := walk_step h hserved rfl (congrArg (Except.map _) hrelay)
    cases h with
    | finish raw => exact ⟨rfl, rfl⟩
    | stop hq _ => cases hq
    | step hq _ _ => cases hq

/-- Behind quotes, all depends on whether there is a fee and a signature. -/
theorem walk_of_quoted (hquoted : Quoted b input log nonce gasLimit base offer)
    (hgiven : Dialogue.Served answer s log) (h : Walk b input .start whole o)
    (hserved : Dialogue.Served answer s whole) :
    (∀ e, quotedFee base offer = .error e → whole = log ∧ o = .error e) ∧
    ∀ fee, quotedFee base offer = .ok fee →
      (∀ e, b.signed (b.transaction input nonce gasLimit fee) = .error e →
        whole = log ∧ o = .error e) ∧
      ∀ raw, b.signed (b.transaction input nonce gasLimit fee) = .ok raw →
        ∃ reply, whole = log ++ [⟨relayRequest raw, reply⟩] ∧
          o = (Rpc.result reply).map fun _ => keccak256 raw := by
  obtain ⟨r₁, r₂, r₃, r₄, rfl, h₁, h₂, h₃, h₄⟩ := hquoted
  obtain ⟨hr₁, hr₂, hr₃, hr₄, -⟩ := hgiven
  simp only at hr₁ hr₂ hr₃ hr₄
  have hcount : Stage.advance b input .start r₁ = .ok (.counted nonce) :=
    congrArg (Except.map _) h₁
  have hestimate : Stage.advance b input (.counted nonce) r₂ = .ok (.estimated nonce gasLimit) :=
    congrArg (Except.map _) h₂
  have hhead : Stage.advance b input (.estimated nonce gasLimit) r₃ =
      .ok (.headed nonce gasLimit base) := congrArg (Except.map _) h₃
  have hfee : Stage.advance b input (.headed nonce gasLimit base) r₄ =
      ((quotedFee base offer).bind fun fee =>
        b.signed (b.transaction input nonce gasLimit fee)).map .signed := by
    rw [Stage.advance, readFee_of_read h₄]
  -- the first four replies are given, and lead up to where the fee is settled
  rw [hr₁] at hcount ⊢
  obtain ⟨whole, rfl, h, hserved⟩ := walk_step h hserved rfl hcount
  rw [hr₂] at hestimate ⊢
  obtain ⟨whole, rfl, h, hserved⟩ := walk_step h hserved rfl hestimate
  rw [hr₃] at hhead ⊢
  obtain ⟨whole, rfl, h, hserved⟩ := walk_step h hserved rfl hhead
  rw [hr₄] at hfee ⊢
  refine ⟨fun e he => ?_, fun fee hok => ⟨fun e he => ?_, fun raw hraw => ?_⟩⟩
  · rw [he] at hfee
    obtain ⟨rfl, rfl⟩ := walk_stop h hserved rfl hfee
    exact ⟨rfl, rfl⟩
  · rw [hok, Except.bind, he] at hfee
    obtain ⟨rfl, rfl⟩ := walk_stop h hserved rfl hfee
    exact ⟨rfl, rfl⟩
  · rw [hok, Except.bind, hraw] at hfee
    obtain ⟨whole, rfl, h, hserved⟩ := walk_step h hserved rfl hfee
    obtain ⟨reply, rfl, ho⟩ := walk_of_signed h hserved
    exact ⟨reply, rfl, ho⟩

theorem eq_of_result_tooWide {reply : Reply} {n : Nat}
    (h : Rpc.result reply = .error (tooWide "maxPriorityFeePerGas" n)) :
    reply = .error (tooWide "maxPriorityFeePerGas" n) := by
  obtain hown | ⟨response, rfl, ho⟩ := Outcome.bind_eq_error h
  · exact hown
  · unfold Rpc.Response.outcome at ho
    split at ho
    · cases ho
    · cases ho
    · exact absurd (Except.error.inj ho).symm (tooWide_ne_emptyReply n)

theorem eq_of_read_tooWide {shape : Wire.Shape} {reply : Reply} {n : Nat}
    (h : Rpc.read shape reply = .error (tooWide "maxPriorityFeePerGas" n)) :
    reply = .error (tooWide "maxPriorityFeePerGas" n) := by
  obtain hr | ⟨v, -, hv⟩ := Outcome.bind_eq_error h
  · exact eq_of_result_tooWide hr
  · cases hs : shape.ofJson v with
    | ok x => rw [hs] at hv; cases hv
    | error cause => rw [hs] at hv; cases hv

theorem eq_of_readFee_tooWide {reply : Reply} {n : Nat}
    (h : readFee base reply = .error (tooWide "maxPriorityFeePerGas" n)) :
    reply = .error (tooWide "maxPriorityFeePerGas" n) := by
  cases base with
  | none =>
    obtain hr | ⟨price, -, hprice⟩ := Outcome.bind_eq_error h
    · exact eq_of_read_tooWide hr
    · have hsame := eq_tooWide_of_narrow (Outcome.map_eq_error hprice)
      exact absurd hsame (tooWide_ne (i := 0) (by decide) (by decide) (by decide) n _)
  | some base =>
    obtain hr | ⟨tip, -, htip⟩ := Outcome.bind_eq_error h
    · exact eq_of_read_tooWide hr
    · obtain ⟨m, hsame⟩ := marketFee_cases htip
      exact absurd hsame (tooWide_ne (i := 3) (by decide) (by decide) (by decide) n m)

theorem eq_of_advance_tooWide {stage : Stage} {reply : Reply} {n : Nat}
    (h : stage.advance b input reply = .error (tooWide "maxPriorityFeePerGas" n)) :
    reply = .error (tooWide "maxPriorityFeePerGas" n) := by
  cases stage with
  | start =>
    have hr : Rpc.read (.quantity 64) reply = .error (tooWide "maxPriorityFeePerGas" n) :=
      Outcome.map_eq_error h
    exact eq_of_read_tooWide hr
  | counted nonce =>
    have hr : Rpc.read (.quantity 64) reply = .error (tooWide "maxPriorityFeePerGas" n) :=
      Outcome.map_eq_error h
    exact eq_of_read_tooWide hr
  | estimated nonce gasLimit =>
    obtain hr | ⟨block, -, hbase⟩ := Outcome.bind_eq_error (Outcome.map_eq_error h)
    · exact eq_of_result_tooWide hr
    · obtain ⟨fault, hfault⟩ := exists_decode_of_baseFee? hbase
      cases hfault
  | headed nonce gasLimit base =>
    obtain hr | ⟨fee, -, hsigned⟩ := Outcome.bind_eq_error (Outcome.map_eq_error h)
    · exact eq_of_readFee_tooWide hr
    · cases (eq_signing_of_signed hsigned).2
  | signed raw => exact eq_of_result_tooWide (Outcome.map_eq_error h)
  | relayed raw => cases h

section

variable (answer : Request → σ → Reply × σ) (b : ContractBridge) (e : Export) (s : σ)

/-- A send ends behind the quotes, with an error and without a relay. -/
structure Refuses (log : Log) (err : GatewayError) : Prop where
  transcript : (b.send e).run.transcript answer s = log
  outcome : ((b.send e).run.run answer s).1 = .error (.submission err)
  unrelayed : "eth_sendRawTransaction" ∉ methods ((b.send e).run.transcript answer s)

structure Pays (log : Log) (t : Transaction) : Prop where
  relayed : ∀ sig, t.sign b.key = some sig →
    (∃ reply, (b.send e).run.transcript answer s =
      log ++ [⟨relayRequest (t.raw sig), reply⟩]) ∧
    ((Text.utf8 e.sig).length < 2 ^ 62 → Transaction.ofRaw? (t.raw sig) = some (t, sig))
  unsigned : t.sign b.key = none → Refuses answer b e s log (.signing "signature error")

theorem exists_walk (hdata : e.callData = .ok input) :
    ∃ o, Walk b input .start ((b.send e).run.transcript answer s) o ∧
      Dialogue.Served answer s ((b.send e).run.transcript answer s) ∧
      ((b.send e).run.run answer s).1 = (o.mapError .submission).map FixedBytes.text := by
  obtain ⟨fault, hfault, -⟩ | ⟨input', o, hinput, hsubmit, ho⟩ :=
    send_cases b e (Dialogue.ends_run answer (b.send e).run s)
  · cases hdata.symm.trans hfault
  · obtain rfl := Except.ok.inj (hdata.symm.trans hinput)
    exact ⟨o, walk_of_ends b input hsubmit, Dialogue.served_transcript answer _ s, ho⟩

variable {answer b e s}

theorem refuses_of_error (hdata : e.callData = .ok input)
    (hquoted : Quoted b input log nonce gasLimit base offer)
    (hgiven : Dialogue.Served answer s log) {err : GatewayError}
    (herr : quotedFee base offer = .error err) : Refuses answer b e s log err := by
  obtain ⟨o, hwalk, hserved, ho⟩ := exists_walk answer b e s hdata
  obtain ⟨hlog, rfl⟩ := (walk_of_quoted hquoted hgiven hwalk hserved).1 err herr
  exact ⟨hlog, ho, hlog ▸ hquoted.relay_notMem⟩

theorem pays_of_ok (hdata : e.callData = .ok input)
    (hquoted : Quoted b input log nonce gasLimit base offer)
    (hgiven : Dialogue.Served answer s log) {fee : Fee} (hfee : quotedFee base offer = .ok fee) :
    Pays answer b e s log (b.transaction input nonce gasLimit fee) := by
  obtain ⟨o, hwalk, hserved, ho⟩ := exists_walk answer b e s hdata
  have hwhole := (walk_of_quoted hquoted hgiven hwalk hserved).2 fee hfee
  refine ⟨fun sig hsign => ⟨?_, fun hsig => ?_⟩, fun hnone => ?_⟩
  · obtain ⟨reply, hlog, -⟩ := hwhole.2 _ (signed_of_sign hsign)
    exact ⟨reply, hlog⟩
  · obtain ⟨k, hk⟩ := Transaction.exists_signWith hsign
    obtain ⟨hr, hs⟩ := Transaction.lt_of_inRange (Crypto.Ecdsa.inRange_of_signWith hk)
    exact Transaction.ofRaw?_raw _ (length_lt_of_callData hdata hsig) hr hs
  · have hsigned : b.signed (b.transaction input nonce gasLimit fee) =
        .error (.signing "signature error") := by
      rw [signed, hnone]
      rfl
    obtain ⟨hlog, rfl⟩ := hwhole.1 _ hsigned
    exact ⟨hlog, ho, hlog ▸ hquoted.relay_notMem⟩

/-- Whoever reports a tip that does not fit, it is not the bridge. -/
theorem exists_reply_of_tip_tooWide {n : Nat}
    (h : ((b.send e).run.run answer s).1 =
      .error (.submission (tooWide "maxPriorityFeePerGas" n))) :
    ∃ x ∈ (b.send e).run.transcript answer s,
      x.2 = .error (tooWide "maxPriorityFeePerGas" n) := by
  have hdisciplined := disciplined_of_ends (Dialogue.ends_run answer (b.send e).run s)
  cases htxid : Export.txidBytes e.txid with
  | error fault => cases (hdisciplined.undecodable fault htxid).2.symm.trans h
  | ok txid =>
    obtain ⟨input, last, reached, q, reply, source, -, -, -, hlog, hstop, -, hsource⟩ :=
      hdisciplined.stopped txid _ htxid h
    obtain rfl := GatewayError.submission.inj hsource
    refine ⟨⟨q, reply⟩, ?_, eq_of_advance_tooWide hstop⟩
    simp only at hlog
    rw [hlog]
    exact List.mem_append_right _ List.mem_cons_self

variable (answer b e s)

/-- Quotes are paid to the unit, the tip never above the cap, or else refused by name and with
nothing relayed; that a tip does not fit is never what is reported. -/
theorem fees_exact_or_refused (hdata : e.callData = .ok input) :
    (∀ log nonce gasLimit (base tip : Word 256), Dialogue.Served answer s log →
      Quoted b input log nonce gasLimit (some base) tip →
      (tip.toNat + 2 * base.toNat < 2 ^ 128 → ∃ tip' cap : Word 128,
        tip'.toNat = tip.toNat ∧ cap.toNat = tip.toNat + 2 * base.toNat ∧
        tip'.toNat ≤ cap.toNat ∧
        Pays answer b e s log (b.transaction input nonce gasLimit (.market tip' cap))) ∧
      (2 ^ 128 ≤ tip.toNat + 2 * base.toNat →
        Refuses answer b e s log (.protocol ("maxFeePerGas "
          ++ toString (min (tip.toNat + 2 * base.toNat) (2 ^ 256 - 1))
          ++ " does not fit in 128 bits")))) ∧
    (∀ log nonce gasLimit (price : Word 256), Dialogue.Served answer s log →
      Quoted b input log nonce gasLimit none price →
      (price.toNat < 2 ^ 128 → ∃ price' : Word 128, price'.toNat = price.toNat ∧
        Pays answer b e s log (b.transaction input nonce gasLimit (.legacy price'))) ∧
      (2 ^ 128 ≤ price.toNat →
        Refuses answer b e s log (.protocol ("gasPrice " ++ toString price.toNat
          ++ " does not fit in 128 bits")))) ∧
    ∀ n : Nat, ((b.send e).run.run answer s).1 = .error (.submission (.protocol
        ("maxPriorityFeePerGas " ++ toString n ++ " does not fit in 128 bits"))) →
      ∃ x ∈ (b.send e).run.transcript answer s, x.2 = .error (.protocol
        ("maxPriorityFeePerGas " ++ toString n ++ " does not fit in 128 bits")) := by
  refine ⟨fun log nonce gasLimit base tip hgiven hquoted => ⟨fun hsum => ?_, fun hsum => ?_⟩,
    fun log nonce gasLimit price hgiven hquoted => ⟨fun hprice => ?_, fun hprice => ?_⟩,
    fun n h => ?_⟩
  · obtain ⟨tip', cap, hfee, htip, hcap⟩ := marketFee_of_lt hsum
    exact ⟨tip', cap, htip, hcap, by omega, pays_of_ok hdata hquoted hgiven hfee⟩
  · exact refuses_of_error hdata hquoted hgiven (marketFee_of_le hsum)
  · obtain ⟨price', hfee, hprice'⟩ := legacyFee_of_lt hprice
    exact ⟨price', hprice', pays_of_ok hdata hquoted hgiven hfee⟩
  · exact refuses_of_error hdata hquoted hgiven (legacyFee_of_le hprice)
  · exact exists_reply_of_tip_tooWide h

end

def steepNode (q : Request) : Reply :=
  .ok (.success q.id (if q.method = "eth_getBlockByNumber"
    then .object [("baseFeePerGas", .string
      "0x8000000000000000000000000000000000000000000000000000000000000000")] else .string "0x1"))

def quotesOf (node : Request → Reply) (base : Option (Word 256)) : Log :=
  [sampleBridge.countRequest, sampleBridge.estimateRequest sampleCall.encode, headRequest,
    feeRequest base].map fun q => ⟨q, node q⟩

theorem served_quotesOf (node : Request → Reply) (base : Option (Word 256)) :
    Dialogue.Served (fun q s => (node q, s)) () (quotesOf node base) :=
  ⟨rfl, rfl, rfl, rfl, trivial⟩

theorem fees_exact_or_refused_sample :
    sampleExport.callData = .ok sampleCall.encode ∧
    (∃ tip cap : Word 128, tip.toNat = 1 ∧ cap.toNat = 2000000001 ∧
      Pays (fun q s => (sampleNode q, s)) sampleBridge sampleExport ()
        (quotesOf sampleNode (some (.saturate 1000000000)))
        (sampleBridge.transaction sampleCall.encode (.saturate 1) (.saturate 1)
          (.market tip cap))) ∧
    ((sampleBridge.send sampleExport).run.run (fun q s => (steepNode q, s)) ()).1 =
      .error (.submission (.protocol ("maxFeePerGas "
        ++ "115792089237316195423570985008687907853269984665640564039457584007913129639935"
        ++ " does not fit in 128 bits"))) := by
  have hsteep : Quoted sampleBridge sampleCall.encode
      (quotesOf steepNode (some (.saturate (2 ^ 255)))) (.saturate 1) (.saturate 1)
      (some (.saturate (2 ^ 255))) (.saturate 1) :=
    ⟨_, _, _, _, rfl, rfl, rfl, rfl, rfl⟩
  have hsample : Quoted sampleBridge sampleCall.encode
      (quotesOf sampleNode (some (.saturate 1000000000))) (.saturate 1) (.saturate 1)
      (some (.saturate 1000000000)) (.saturate 1) :=
    ⟨_, _, _, _, rfl, rfl, rfl, rfl, rfl⟩
  have hpays := (fees_exact_or_refused (fun q s => (sampleNode q, s)) sampleBridge sampleExport ()
    callData_sample).1 _ _ _ _ _ (served_quotesOf _ _) hsample
  have hrefuses := (fees_exact_or_refused (fun q s => (steepNode q, s)) sampleBridge sampleExport
    () callData_sample).1 _ _ _ _ _ (served_quotesOf _ _) hsteep
  obtain ⟨tip, cap, htip, hcap, -, hpaid⟩ := hpays.1 (by decide)
  exact ⟨callData_sample, ⟨tip, cap, htip, hcap, hpaid⟩, (hrefuses.2 (by decide)).outcome⟩

end ContractBridge

end ChainGateway.Bridge
