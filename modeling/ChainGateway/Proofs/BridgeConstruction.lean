import ChainGateway.Proofs.HexSpelling
import ChainGateway.Proofs.NeededSettings
import Mathlib.Data.List.DropRight

namespace ChainGateway

namespace Text

def Blank (s : String) : Prop := ∀ c ∈ s.toList, isBlank c = true

theorem exists_trim (s : String) :
    ∃ before after, Blank before ∧ Blank after ∧ s = before ++ trim s ++ after := by
  refine ⟨String.ofList (s.toList.takeWhile isBlank),
    String.ofList ((s.toList.dropWhile isBlank).rtakeWhile isBlank), ?_, ?_, ?_⟩
  · intro c hc
    rw [String.toList_ofList] at hc
    exact List.mem_takeWhile_imp hc
  · intro c hc
    rw [String.toList_ofList] at hc
    exact List.mem_rtakeWhile_imp hc
  · rw [trim, String.append_assoc, ← String.ofList_append, ← String.ofList_append]
    change s = String.ofList (_ ++ (List.rdropWhile isBlank _ ++ _))
    rw [List.rdropWhile_append_rtakeWhile, List.takeWhile_append_dropWhile, String.ofList_toList]

theorem trim_append {before text after : String} (hbefore : Blank before) (hafter : Blank after)
    (htext : ∀ c ∈ text.toList, isBlank c = false) : trim (before ++ text ++ after) = text := by
  have hafter' : ∀ c ∈ after.toList.reverse, isBlank c = true :=
    fun c hc => hafter c (List.mem_reverse.mp hc)
  rw [trim, String.append_assoc, String.toList_append, String.toList_append,
    List.dropWhile_append_of_pos hbefore]
  generalize hcs : text.toList = cs at htext
  have htext' : text = String.ofList cs := by rw [← hcs, String.ofList_toList]
  rw [htext']
  cases cs with
  | nil =>
    rw [List.nil_append, List.dropWhile_eq_nil_iff.mpr hafter]
    rfl
  | cons c cs =>
    have hfirst : ¬ isBlank c = true := by rw [htext c List.mem_cons_self]; decide
    have hlast : (c :: cs).reverse.dropWhile isBlank = (c :: cs).reverse := by
      rw [List.dropWhile_eq_self_iff]
      intro hl
      rw [htext _ (List.mem_reverse.mp (List.getElem_mem hl))]
      decide
    rw [List.cons_append, List.dropWhile_cons_of_neg hfirst, ← List.cons_append,
      List.reverse_append, List.dropWhile_append_of_pos hafter', hlast, List.reverse_reverse]

end Text

theorem Hex.not_isBlank_of_spells {size n : Nat} {text : String} (h : Spells size text n) :
    ∀ c ∈ text.toList, Text.isBlank c = false := by
  have hmarkers : ["", "0x", "0X"].all fun marker =>
      marker.toList.all fun c => Text.isBlank c = false := by decide
  have hdigits : digitsOfCases.all fun c => Text.isBlank c = false := by decide
  cases h with
  | @intro marker digits hmarker hlength hcases =>
    intro c hc
    rw [String.toList_append, List.mem_append] at hc
    cases hc with
    | inl hc =>
      have hblank := List.all_eq_true.mp (List.all_eq_true.mp hmarkers marker hmarker) c hc
      exact of_decide_eq_true hblank
    | inr hc => exact of_decide_eq_true (List.all_eq_true.mp hdigits c (hcases c hc))

namespace Bridge.ContractBridge

open Crypto.Ecdsa (PrivateKey)

/-- A text with white space around the digits of a number that can sign. -/
inductive SpellsKey : String → Nat → Prop where
  | intro {before spelled after : String} {d : Nat} : Text.Blank before → Text.Blank after →
      Hex.Spells 32 spelled d → 0 < d → d < Crypto.Secp256k1.n →
      SpellsKey (before ++ spelled ++ after) d

def notKey : GatewayError := .encoding "private key is not a valid secp256k1 key"

theorem ofNat?_eq_some_iff {d : Nat} {key : PrivateKey} :
    PrivateKey.ofNat? d = some key ↔ d = key.scalar := by
  constructor
  · intro h
    unfold PrivateKey.ofNat? at h
    split_ifs at h
    rw [← Option.some.inj h]
  · rintro rfl
    exact dif_pos ⟨key.pos, key.lt_order⟩

theorem keyOfText_of_spells {text : String} {key : PrivateKey}
    (h : Hex.Spells 32 (Text.trim text) key.scalar) : keyOfText text = .ok key := by
  obtain ⟨b, hb, hnumber⟩ := FixedBytes.exists_ofText_of_spells h
  unfold keyOfText
  simp only [hb, ofNat?_eq_some_iff.mpr hnumber]

theorem keyOfText_of_unspelled {text : String}
    (h : ¬ ∃ key : PrivateKey, Hex.Spells 32 (Text.trim text) key.scalar) :
    keyOfText text = .error notKey := by
  unfold keyOfText
  cases hb : (FixedBytes.ofText (Text.trim text) : Except Hex.Fault Hash) with
  | error fault => rfl
  | ok b =>
    cases hkey : PrivateKey.ofNat? (BigEndian.toNat b.toList) with
    | none =>
      simp only [hkey]
      rfl
    | some key =>
      have hspelled := FixedBytes.ofText_eq_ok_iff.mp hb
      rw [ofNat?_eq_some_iff.mp hkey] at hspelled
      exact absurd ⟨key, hspelled⟩ h

theorem keyOfText_or (text : String) :
    (∃ key, keyOfText text = .ok key) ∨ keyOfText text = .error notKey := by
  by_cases h : ∃ key : PrivateKey, Hex.Spells 32 (Text.trim text) key.scalar
  · obtain ⟨key, hkey⟩ := h
    exact .inl ⟨key, keyOfText_of_spells hkey⟩
  · exact .inr (keyOfText_of_unspelled h)

theorem keyOfText_eq_ok_iff_trim {text : String} {key : PrivateKey} :
    keyOfText text = .ok key ↔ Hex.Spells 32 (Text.trim text) key.scalar := by
  constructor
  · intro h
    by_cases hspelled : ∃ key : PrivateKey, Hex.Spells 32 (Text.trim text) key.scalar
    · obtain ⟨key', hkey'⟩ := hspelled
      rw [keyOfText_of_spells hkey'] at h
      rwa [← Except.ok.inj h]
    · rw [keyOfText_of_unspelled hspelled] at h
      cases h
  · exact keyOfText_of_spells

theorem keyOfText_eq_ok_iff {text : String} {key : PrivateKey} :
    keyOfText text = .ok key ↔ SpellsKey text key.scalar := by
  rw [keyOfText_eq_ok_iff_trim]
  constructor
  · intro h
    obtain ⟨before, after, hbefore, hafter, htext⟩ := Text.exists_trim text
    rw [htext]
    exact .intro hbefore hafter h key.pos key.lt_order
  · intro h
    generalize key.scalar = d at h ⊢
    cases h with
    | intro hbefore hafter hspelled _ _ =>
      rw [Text.trim_append hbefore hafter (Hex.not_isBlank_of_spells hspelled)]
      exact hspelled

theorem range_of_spellsKey {text : String} {d : Nat} (h : SpellsKey text d) :
    0 < d ∧ d < Crypto.Secp256k1.n := by
  cases h with
  | intro _ _ _ hpos hlt => exact ⟨hpos, hlt⟩

theorem exists_key_iff {text : String} :
    (∃ key, keyOfText text = .ok key) ↔ ∃ d, SpellsKey text d := by
  constructor
  · rintro ⟨key, hkey⟩
    exact ⟨key.scalar, keyOfText_eq_ok_iff.mp hkey⟩
  · rintro ⟨d, hd⟩
    have hrange := range_of_spellsKey hd
    exact ⟨⟨d, hrange.1, hrange.2⟩, keyOfText_eq_ok_iff.mpr hd⟩

theorem keyOfText_eq_notKey_iff {text : String} :
    keyOfText text = .error notKey ↔ ¬ ∃ d, SpellsKey text d := by
  rw [← exists_key_iff]
  constructor
  · rintro h ⟨key, hkey⟩
    rw [h] at hkey
    cases hkey
  · intro h
    exact (keyOfText_or text).resolve_left h

theorem eq_of_spellsKey {text : String} {d d' : Nat} (hd : SpellsKey text d)
    (hd' : SpellsKey text d') : d = d' := by
  obtain ⟨key, hkey⟩ := exists_key_iff.mpr ⟨d, hd⟩
  have hall {m : Nat} (hm : SpellsKey text m) : m = key.scalar := by
    have hrange : 0 < m ∧ m < Crypto.Secp256k1.n := range_of_spellsKey hm
    have hread : keyOfText text = .ok ⟨m, hrange.1, hrange.2⟩ := keyOfText_eq_ok_iff.mpr hm
    rw [hkey] at hread
    rw [Except.ok.inj hread]
  exact (hall hd).trans (hall hd').symm

theorem keyOfText_congr {text text' : String} (h : ∀ d, SpellsKey text d ↔ SpellsKey text' d) :
    keyOfText text = keyOfText text' := by
  obtain ⟨key, hkey⟩ | hnone := keyOfText_or text
  · have hspelled := (h key.scalar).mp (keyOfText_eq_ok_iff.mp hkey)
    rw [hkey, keyOfText_eq_ok_iff.mpr hspelled]
  · have hnone' : ¬ ∃ d, SpellsKey text' d := by
      rintro ⟨d, hd⟩
      exact keyOfText_eq_notKey_iff.mp hnone ⟨d, (h d).mpr hd⟩
    rw [hnone, keyOfText_eq_notKey_iff.mpr hnone']

section

variable {url : String} {key : PrivateKey} {settings : ContractSettings}

theorem ofSettings_eq_ok_iff {b : ContractBridge} :
    ofSettings url key settings = .ok b ↔
      Hex.Spells 20 settings.contractAddress (BigEndian.toNat b.contract.toList) ∧
        b.nodeUrl = url ∧ b.key = key ∧ b.chainId = settings.chainId := by
  rw [← FixedBytes.ofText_eq_ok_iff]
  unfold ofSettings
  cases h : (FixedBytes.ofText settings.contractAddress : Except Hex.Fault Address) with
  | error fault => exact iff_of_false nofun fun h => nomatch h.1
  | ok contract =>
    obtain ⟨nodeUrl, signer, account, chainId⟩ := b
    simp only [Except.ok.injEq, ContractBridge.mk.injEq]
    tauto

theorem exists_ofSettings_iff :
    (∃ b, ofSettings url key settings = .ok b) ↔
      ∃ account, Hex.Spells 20 settings.contractAddress account := by
  constructor
  · rintro ⟨b, hb⟩
    exact ⟨_, (ofSettings_eq_ok_iff.mp hb).1⟩
  · rintro ⟨account, haccount⟩
    obtain ⟨contract, hcontract, hnumber⟩ := FixedBytes.exists_ofText_of_spells haccount
    refine ⟨⟨url, key, contract, settings.chainId⟩, ofSettings_eq_ok_iff.mpr ⟨?_, rfl, rfl, rfl⟩⟩
    exact FixedBytes.ofText_eq_ok_iff.mp hcontract

theorem exists_encoding_of_ofSettings
    (h : ¬ ∃ account, Hex.Spells 20 settings.contractAddress account) :
    ∃ message, ofSettings url key settings = .error (.encoding message) := by
  have hnone (b : ContractBridge) : ofSettings url key settings ≠ .ok b :=
    fun hb => h (exists_ofSettings_iff.mp ⟨b, hb⟩)
  unfold ofSettings at hnone ⊢
  cases hcontract : (FixedBytes.ofText settings.contractAddress : Except Hex.Fault Address) with
  | error fault => exact ⟨_, rfl⟩
  | ok contract =>
    rw [hcontract] at hnone
    exact absurd rfl (hnone _)

end

end Bridge.ContractBridge

namespace Dialogue

variable {Query : Type} {Reply : Query → Type} {α β σ : Type}

/-- Whatever is done with the end of a dialogue without asking more leaves its transcript. -/
theorem transcript_bind_done {f : α → Dialogue Query Reply β} (hf : ∀ a, ∃ b, f a = done b)
    (answer : (q : Query) → σ → Reply q × σ) (d : Dialogue Query Reply α) (state : σ) :
    (d.bind f).transcript answer state = d.transcript answer state := by
  obtain ⟨b, hb⟩ := hf (d.run answer state).1
  rw [transcript_bind, hb]
  exact List.append_nil _

end Dialogue

namespace Cli

open Bridge (ContractBridge ContractSettings Export)
open Bridge.ContractBridge (SpellsKey keyOfText notKey ofSettings)

structure SpellsBridge (s : Settings) (text : String) (b : ContractBridge) : Prop where
  url : s.primaryUrl = some b.nodeUrl
  chain : s.chainId = some b.chainId
  key : SpellsKey text b.key.scalar
  contract : ∃ address, s.contract = some address ∧
    Hex.Spells 20 address (BigEndian.toNat b.contract.toList)

def Launch.withKey (l : Launch) (text : String) : Launch :=
  { l with overrides := { l.overrides with privateKey := some text } }

section

variable {s s' : Settings} {text text' : String}

theorem bridgeOf_of_settings {url contract : String} {chainId : Word 64}
    (hurl : s.primaryUrl = some url) (hcontract : s.contract = some contract)
    (hchain : s.chainId = some chainId) (text : String) :
    bridgeOf s (some text) =
      ((keyOfText text).bind fun key => ofSettings url key ⟨contract, chainId⟩).mapError
        Failure.gateway := by
  have hparts : s.bridge (some text) = .ok ⟨url, contract, chainId, text⟩ := by
    unfold Settings.bridge
    rw [hurl, hcontract, hchain]
  unfold bridgeOf
  rw [hparts]
  -- the key is taken apart before anything of its text is computed
  simp only [Except.mapError, bind, Except.bind]
  generalize keyOfText text = key
  cases key <;> rfl

/-- Whatever the key, the rest of what a bridge is made from is there or some of it is missing. -/
theorem settings_or_missing (s : Settings) :
    (∃ url contract chainId,
      s.primaryUrl = some url ∧ s.contract = some contract ∧ s.chainId = some chainId) ∨
    ∃ missing ≠ [], ∀ text, s.missingForBridge (some text) = missing := by
  by_cases h : s.missingForBridge (some "") = []
  · simp only [Settings.missingForBridge, List.append_eq_nil_iff] at h
    obtain ⟨⟨⟨hurl, hcontract⟩, hchain⟩, -⟩ := h
    cases hurl' : s.primaryUrl with
    | none => simp [hurl'] at hurl
    | some url =>
      cases hcontract' : s.contract with
      | none => simp [hcontract'] at hcontract
      | some contract =>
        cases hchain' : s.chainId with
        | none => simp [hchain'] at hchain
        | some chainId => exact .inl ⟨url, contract, chainId, rfl, rfl, rfl⟩
  · exact .inr ⟨_, h, fun text => rfl⟩

theorem bridgeOf_eq_ok_iff {b : ContractBridge} :
    bridgeOf s (some text) = .ok b ↔ SpellsBridge s text b := by
  constructor
  · intro h
    obtain ⟨url, contract, chainId, hurl, hcontract, hchain⟩ | ⟨missing, hmissing, hkey⟩ :=
      settings_or_missing s
    · rw [bridgeOf_of_settings hurl hcontract hchain] at h
      obtain ⟨key, hkey, hb⟩ := Outcome.bind_eq_ok (Outcome.mapError_eq_ok h)
      obtain ⟨haddress, rfl, rfl, hchainId⟩ := ContractBridge.ofSettings_eq_ok_iff.mp hb
      exact ⟨hurl, hchainId ▸ hchain, ContractBridge.keyOfText_eq_ok_iff.mp hkey, contract,
        hcontract, haddress⟩
    · rw [bridgeOf_eq_missing (by rw [hkey]; exact hmissing)] at h
      cases h
  · rintro ⟨hurl, hchain, hkey, contract, hcontract, haddress⟩
    rw [bridgeOf_of_settings hurl hcontract hchain, ContractBridge.keyOfText_eq_ok_iff.mpr hkey]
    have hb : ofSettings b.nodeUrl b.key ⟨contract, b.chainId⟩ = .ok b :=
      ContractBridge.ofSettings_eq_ok_iff.mpr ⟨haddress, rfl, rfl, rfl⟩
    rw [Except.bind, hb]
    rfl

theorem bridgeOf_congr_key (h : keyOfText text = keyOfText text') (s : Settings) :
    bridgeOf s (some text) = bridgeOf s (some text') := by
  obtain ⟨url, contract, chainId, hurl, hcontract, hchain⟩ | ⟨missing, hmissing, hkey⟩ :=
    settings_or_missing s
  · rw [bridgeOf_of_settings hurl hcontract hchain, bridgeOf_of_settings hurl hcontract hchain, h]
  · rw [bridgeOf_eq_missing (by rw [hkey]; exact hmissing),
      bridgeOf_eq_missing (by rw [hkey]; exact hmissing), hkey, hkey]

theorem perform_congr_key (h : keyOfText text = keyOfText text') (s : Settings) (c : Command) :
    perform s (some text) c = perform s (some text') c := by
  have hbridge := bridgeOf_congr_key h s
  cases c with
  | crossSend e => rw [perform_crossSend, perform_crossSend, hbridge]
  | call method params =>
    have hbridged : bridged s (some text) method = bridged s (some text') method := by
      funext a
      unfold bridged
      rw [hbridge]
    rw [perform_call, perform_call, hbridged]
  | balance | addBalance | utxos | sendRaw | methods => rfl

theorem sender_of_spellsKey {b b' : ContractBridge} {d : Nat} (hb : SpellsBridge s text b)
    (hb' : SpellsBridge s' text' b') (hd : SpellsKey text d) (hd' : SpellsKey text' d) :
    b.sender = b'.sender := by
  have hkey : b.key = b'.key := by
    apply Crypto.Ecdsa.PrivateKey.ext
    rw [ContractBridge.eq_of_spellsKey hb.key hd, ContractBridge.eq_of_spellsKey hb'.key hd']
  exact congrArg Crypto.Ecdsa.PrivateKey.address hkey

end

section

variable {σ : Type} (read : String → Settings.Read) (answer : Http.Post → σ → Http.Delivery × σ)
variable (state : σ)

theorem observe_congr_key {text text' : String} (h : keyOfText text = keyOfText text')
    (l : Launch) :
    (l.withKey text).observe read answer state = (l.withKey text').observe read answer state := by
  cases hresolve : Settings.resolve read l.overrides with
  | error fault =>
    rw [observe_of_unresolved answer state (l := l.withKey text) hresolve,
      observe_of_unresolved answer state (l := l.withKey text') hresolve]
  | ok s =>
    exact observe_congr_perform (l.withKey text) (l.withKey text') hresolve hresolve
      (perform_congr_key h s l.command) rfl answer state

variable {o : Overrides} {s : Settings} (hresolve : Settings.resolve read o = .ok s)
include hresolve

theorem observe_without_bridge {failure : Failure} (h : bridgeOf s o.privateKey = .error failure)
    (e : Export) :
    (Launch.mk o (.crossSend e)).observe read answer state =
      ⟨[], "", 1, some failure.message⟩ := by
  apply observe_of_failure answer state (l := ⟨o, .crossSend e⟩) hresolve
  change perform s o.privateKey (.crossSend e) = lift (.error failure)
  rw [perform_crossSend, h]
  rfl

theorem posts_of_bridge {b : ContractBridge} (h : bridgeOf s o.privateKey = .ok b) (e : Export) :
    ((Launch.mk o (.crossSend e)).observe read answer state).posts =
      (b.overHttp (timeoutOf s) e).transcript answer state := by
  have hoperation : operation s o.privateKey (.crossSend e) =
      .ok ((b.overHttp (timeoutOf s) e).bind fun hash => .done (hash.map Json.string)) := by
    rw [operation, h]
    rfl
  unfold Launch.observe
  rw [run_of_operation (l := ⟨o, .crossSend e⟩) hresolve hoperation]
  -- neither what is printed nor how the run ends takes another post
  have hended := Dialogue.transcript_bind_done
    (f := fun reply => .done (ended (.crossSend e) (reply.mapError Failure.gateway)))
    (fun reply => ⟨_, rfl⟩) answer
    ((b.overHttp (timeoutOf s) e).bind fun hash => .done (hash.map Json.string)) state
  exact hended.trans (Dialogue.transcript_bind_done (fun hash => ⟨_, rfl⟩) answer _ state)

end

section

variable {σ : Type} (read : String → Settings.Read) (answer : Http.Post → σ → Http.Delivery × σ)

/-- A key is taken exactly if it is spelled, with white space around it or not, and a contract
exactly if it is spelled without. The sender is the number of the key however that is spelled, and
what is seen of a launch does not tell two keys apart that spell the same or nothing. Where no
bridge comes about nothing is posted; where one does, no more than what it posts itself. -/
theorem bridge_of_spelled (state : σ) :
    (∀ text, (∀ key, keyOfText text = .ok key ↔ SpellsKey text key.scalar) ∧
      ((∃ key, keyOfText text = .ok key) ↔ ∃ d, SpellsKey text d) ∧
      ((¬ ∃ d, SpellsKey text d) → keyOfText text = .error notKey)) ∧
    (∀ url key settings,
      (∀ b, ofSettings url key settings = .ok b ↔
        Hex.Spells 20 settings.contractAddress (BigEndian.toNat b.contract.toList) ∧
          b.nodeUrl = url ∧ b.key = key ∧ b.chainId = settings.chainId) ∧
      ((∃ b, ofSettings url key settings = .ok b) ↔
        ∃ account, Hex.Spells 20 settings.contractAddress account) ∧
      ((¬ ∃ account, Hex.Spells 20 settings.contractAddress account) →
        ∃ message, ofSettings url key settings = .error (.encoding message))) ∧
    (∀ s s' text text' b b' d, bridgeOf s (some text) = .ok b → bridgeOf s' (some text') = .ok b' →
      SpellsKey text d → SpellsKey text' d → b.sender = b'.sender) ∧
    (∀ text text', (∀ d, SpellsKey text d ↔ SpellsKey text' d) → ∀ l : Launch,
      (l.withKey text).observe read answer state = (l.withKey text').observe read answer state) ∧
    ∀ o s, Settings.resolve read o = .ok s →
      (∀ failure, bridgeOf s o.privateKey = .error failure →
        (∀ e, (Launch.mk o (.crossSend e)).observe read answer state =
          ⟨[], "", 1, some failure.message⟩) ∧
        ∀ c, BridgeBound c → ∃ message,
          (Launch.mk o c).observe read answer state = ⟨[], "", 1, some message⟩) ∧
      ∀ b, bridgeOf s o.privateKey = .ok b → ∀ e,
        ((Launch.mk o (.crossSend e)).observe read answer state).posts =
          (b.overHttp (timeoutOf s) e).transcript answer state := by
  refine ⟨fun text => ⟨fun key => ContractBridge.keyOfText_eq_ok_iff, ContractBridge.exists_key_iff,
    ContractBridge.keyOfText_eq_notKey_iff.mpr⟩, fun url key settings =>
    ⟨fun b => ContractBridge.ofSettings_eq_ok_iff, ContractBridge.exists_ofSettings_iff,
      ContractBridge.exists_encoding_of_ofSettings⟩, ?_, ?_, ?_⟩
  · intro s s' text text' b b' d hb hb'
    exact sender_of_spellsKey (bridgeOf_eq_ok_iff.mp hb) (bridgeOf_eq_ok_iff.mp hb')
  · intro text text' h l
    exact observe_congr_key read answer state (ContractBridge.keyOfText_congr h) l
  · intro o s hresolve
    refine ⟨fun failure hfailure => ⟨fun e => ?_, fun c hc => ?_⟩, fun b hb e => ?_⟩
    · exact observe_without_bridge read answer state hresolve hfailure e
    · obtain ⟨failure', hperform⟩ := exists_failure_of_bridgeBound hc hfailure
      exact ⟨_, observe_of_failure answer state (l := ⟨o, c⟩) hresolve hperform⟩
    · exact posts_of_bridge read answer state hresolve hb e

def leastKey : String :=
  "\u00a00X0000000000000000000000000000000000000000000000000000000000000001\n"

def contractText : String := "2222222222222222222222222222222222222222"

def complete (primaryUrl key : String) : Overrides where
  file := none
  homeUrl := none
  primaryUrl := some primaryUrl
  contract := some contractText
  chainId := some (.saturate 813)
  privateKey := some key
  timeout := none
  logLevel := none
  jsonLogs := false

def completeSettings (primaryUrl key : String) : Settings :=
  (default : Settings).override (complete primaryUrl key)

theorem one_lt_order : 1 < Crypto.Secp256k1.n := of_decide_eq_true rfl

def leastBridge (nodeUrl : String) : ContractBridge where
  nodeUrl
  key := ⟨1, Nat.one_pos, one_lt_order⟩
  contract := ⟨List.replicate 20 0x22, List.length_replicate⟩
  chainId := .saturate 813

def unread (_ : String) : Settings.Read := .error "no file is read"

open ChainGateway.Configuration (lost) in
theorem bridge_of_spelled_leastKey :
    (leastBridge "here").sender = (leastBridge "there").sender ∧
    (∀ l : Launch, (l.withKey "0xnotakey-secret").observe unread lost () =
      (l.withKey "0").observe unread lost ()) ∧
    (Launch.mk (complete "here" "0") (.crossSend ⟨"ab", 0, 0, ""⟩)).observe unread lost () =
      ⟨[], "", 1, some "encoding error: private key is not a valid secp256k1 key"⟩ ∧
    ((Launch.mk (complete "here" leastKey) (.crossSend ⟨"ab", 0, 0, ""⟩)).observe unread
        lost ()).posts =
      ((leastBridge "here").overHttp (timeoutOf (completeSettings "here" leastKey))
        ⟨"ab", 0, 0, ""⟩).transcript lost () := by
  obtain ⟨-, -, hsender, hhidden, hposts⟩ := bridge_of_spelled unread lost ()
  have hsecret : ¬ ∃ d, SpellsKey "0xnotakey-secret" d :=
    ContractBridge.keyOfText_eq_notKey_iff.mp rfl
  have hshort : ¬ ∃ d, SpellsKey "0" d := ContractBridge.keyOfText_eq_notKey_iff.mp rfl
  have hread : keyOfText leastKey = .ok ⟨1, Nat.one_pos, one_lt_order⟩ := rfl
  have hleast : SpellsKey leastKey 1 := ContractBridge.keyOfText_eq_ok_iff.mp hread
  have hcontract : FixedBytes.ofText contractText = .ok ⟨List.replicate 20 0x22, rfl⟩ := rfl
  have hresolve (url key : String) :
      Settings.resolve unread (complete url key) = .ok (completeSettings url key) := rfl
  have hbridge (url : String) :
      bridgeOf (completeSettings url leastKey) (some leastKey) = .ok (leastBridge url) :=
    bridgeOf_eq_ok_iff.mpr
      ⟨rfl, rfl, hleast, contractText, rfl, FixedBytes.ofText_eq_ok_iff.mp hcontract⟩
  have hnone : bridgeOf (completeSettings "here" "0") (some "0") = .error (.gateway notKey) := rfl
  refine ⟨hsender _ _ _ _ _ _ 1 (hbridge "here") (hbridge "there") hleast hleast, ?_, ?_, ?_⟩
  · exact hhidden _ _ fun d => iff_of_false (fun h => hsecret ⟨d, h⟩) fun h => hshort ⟨d, h⟩
  · exact ((hposts _ _ (hresolve "here" "0")).1 _ hnone).1 _
  · exact (hposts _ _ (hresolve "here" leastKey)).2 _ (hbridge "here") _

end

end Cli

end ChainGateway
