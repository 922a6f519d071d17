import ChainGateway.Proofs.Transcript
import ChainGateway.Provider.Registry
import Mathlib.Data.List.Induction

namespace ChainGateway.Provider

variable {Subsystem : Type}

namespace Setting

def slot : Setting Subsystem → Slot
  | vacant slot => slot
  | receipt _ => .receipt
  | gasPrices _ => .gasPrices
  | operationByHash _ => .operationByHash
  | gasEstimate _ _ => .gasEstimate

def holder? : Setting Subsystem → Option (Holder Subsystem)
  | vacant _ => none
  | receipt s => some ⟨s, none⟩
  | gasPrices s => some ⟨s, none⟩
  | operationByHash s => some ⟨s, none⟩
  | gasEstimate s environment => some ⟨s, some environment⟩

end Setting

def lastHolder? (settings : List (Setting Subsystem)) (slot : Slot) : Option (Holder Subsystem) :=
  (settings.reverse.find? fun setting => setting.slot = slot).bind Setting.holder?

theorem lastHolder?_concat (settings : List (Setting Subsystem)) (setting : Setting Subsystem)
    (slot : Slot) :
    lastHolder? (settings ++ [setting]) slot =
      if setting.slot = slot then setting.holder? else lastHolder? settings slot := by
  unfold lastHolder?
  rw [List.reverse_append, List.reverse_singleton, List.singleton_append, List.find?_cons]
  by_cases h : setting.slot = slot <;> simp [h]

namespace Registry

def holder? (r : Registry Subsystem) : Slot → Option (Holder Subsystem)
  | .receipt => r.receipt.map (⟨·, none⟩)
  | .gasPrices => r.gasPrices.map (⟨·, none⟩)
  | .operationByHash => r.operationByHash.map (⟨·, none⟩)
  | .gasEstimate => r.gasEstimate.map fun live => ⟨live.estimator, some live.toEnvironment⟩

theorem holder?_set (r : Registry Subsystem) (setting : Setting Subsystem) (slot : Slot) :
    (r.set setting).holder? slot =
      if setting.slot = slot then setting.holder? else r.holder? slot := by
  cases setting with
  | vacant vacated => cases vacated <;> cases slot <;> rfl
  | receipt | gasPrices | operationByHash | gasEstimate => cases slot <;> rfl

theorem ofSettings_concat (settings : List (Setting Subsystem)) (setting : Setting Subsystem) :
    ofSettings (settings ++ [setting]) = (ofSettings settings).set setting := by
  rw [ofSettings, List.foldl_concat]
  rfl

/-- A slot holds what it was last set to hold, however the others were set before or after. -/
theorem holder?_ofSettings (settings : List (Setting Subsystem)) (slot : Slot) :
    (ofSettings settings).holder? slot = lastHolder? settings slot := by
  induction settings using List.reverseRecOn with
  | nil => cases slot <;> rfl
  | append_singleton settings setting ih =>
    rw [ofSettings_concat, holder?_set, lastHolder?_concat, ih]

end Registry

/-- The settings of other slots make no difference to what a slot holds. -/
theorem lastHolder?_filter (settings : List (Setting Subsystem)) (slot : Slot) :
    lastHolder? (settings.filter fun setting => setting.slot = slot) slot =
      lastHolder? settings slot := by
  unfold lastHolder?
  rw [← List.filter_reverse, List.find?_filter]
  simp

/-- What no subsystem has to be asked for: no receipt, no operation, and zero for prices and gas. -/
inductive Vacant : (l : Lookup) → l.Reply → Prop where
  | gasPrices : Vacant .gasPrices (.ok (⟨0, 0⟩ : GasPrices))
  | receipt (hash : Hash) (entryPoint : Address) (blockRange : Word 64) :
      Vacant (.receipt hash entryPoint blockRange) (.ok (none : Option OperationReceipt))
  | operationByHash (hash : Hash) (entryPoint : Address) (chainId : Word 256)
      (blockRange : Word 64) :
      Vacant (.operationByHash hash entryPoint chainId blockRange)
        (.ok (none : Option OperationLookup))
  | gasEstimate (entryPoint : Address) (operation : UserOperation) (overrides : StateOverrides) :
      Vacant (.gasEstimate entryPoint operation overrides) (.ok ((0, 0) : Word 64 × Word 64))

abbrev Log (Subsystem : Type) := List ((c : Call Subsystem) × c.lookup.Reply)

/-- A lookup is answered by what its slot holds. A subsystem is asked once and is handed what was
looked up, an estimator together with the environment that was set. -/
inductive Answered (held : Slot → Option (Holder Subsystem)) :
    (l : Lookup) → Log Subsystem → l.Reply → Prop where
  | vacant {l : Lookup} {reply : l.Reply} :
      held l.slot = none → Vacant l reply → Answered held l [] reply
  | gasPrices {oracle : Subsystem} (reply : Except GatewayError GasPrices) :
      held .gasPrices = some ⟨oracle, none⟩ →
      Answered held .gasPrices [⟨.gasPrices oracle, reply⟩] reply
  | receipt {index : Subsystem} (hash : Hash) (entryPoint : Address) (blockRange : Word 64)
      (reply : Except GatewayError (Option OperationReceipt)) :
      held .receipt = some ⟨index, none⟩ →
      Answered held (.receipt hash entryPoint blockRange)
        [⟨.receipt index hash entryPoint blockRange, reply⟩] reply
  | operationByHash {index : Subsystem} (hash : Hash) (entryPoint : Address) (chainId : Word 256)
      (blockRange : Word 64) (reply : Except GatewayError (Option OperationLookup)) :
      held .operationByHash = some ⟨index, none⟩ →
      Answered held (.operationByHash hash entryPoint chainId blockRange)
        [⟨.operationByHash index hash entryPoint chainId blockRange, reply⟩] reply
  | gasEstimate {estimator : Subsystem} {environment : Environment} (entryPoint : Address)
      (operation : UserOperation) (overrides : StateOverrides)
      (reply : Except GatewayError (Word 64 × Word 64)) :
      held .gasEstimate = some ⟨estimator, some environment⟩ →
      Answered held (.gasEstimate entryPoint operation overrides)
        [⟨.gasEstimate estimator
          { entryPoint, operation, overrides
            overhead := environment.overhead
            chainId := environment.chainId
            maxGasLimit := environment.maxGasLimit
            tracer := environment.tracer }, reply⟩] reply

theorem Registry.ends_forward {Held α : Type} {held : Option Held} {nothing : α}
    {call : Held → Program Subsystem (Except GatewayError α)} {log : Log Subsystem}
    {reply : Except GatewayError α} (h : Dialogue.Ends (forward held nothing call) log reply) :
    held = none ∧ log = [] ∧ reply = .ok nothing ∨
      ∃ subsystem, held = some subsystem ∧ Dialogue.Ends (call subsystem) log reply := by
  cases held with
  | none => exact .inl ⟨rfl, Dialogue.ends_done h⟩
  | some subsystem => exact .inr ⟨subsystem, rfl, h⟩

theorem answered_of_ends {r : Registry Subsystem} {l : Lookup} {log : Log Subsystem}
    {reply : l.Reply} (h : Dialogue.Ends (r.answer l) log reply) :
    Answered r.holder? l log reply := by
  cases l with
  | gasPrices =>
    obtain ⟨hslot, rfl, rfl⟩ | ⟨oracle, hslot, hcall⟩ := Registry.ends_forward h
    · exact .vacant (by simp [Registry.holder?, Lookup.slot, hslot]) .gasPrices
    · rw [Dialogue.ends_query hcall]
      exact .gasPrices reply (by simp [Registry.holder?, hslot])
  | receipt hash entryPoint blockRange =>
    obtain ⟨hslot, rfl, rfl⟩ | ⟨index, hslot, hcall⟩ := Registry.ends_forward h
    · exact .vacant (by simp [Registry.holder?, Lookup.slot, hslot])
        (.receipt hash entryPoint blockRange)
    · rw [Dialogue.ends_query hcall]
      exact .receipt hash entryPoint blockRange reply (by simp [Registry.holder?, hslot])
  | operationByHash hash entryPoint chainId blockRange =>
    obtain ⟨hslot, rfl, rfl⟩ | ⟨index, hslot, hcall⟩ := Registry.ends_forward h
    · exact .vacant (by simp [Registry.holder?, Lookup.slot, hslot])
        (.operationByHash hash entryPoint chainId blockRange)
    · rw [Dialogue.ends_query hcall]
      exact .operationByHash hash entryPoint chainId blockRange reply
        (by simp [Registry.holder?, hslot])
  | gasEstimate entryPoint operation overrides =>
    obtain ⟨hslot, rfl, rfl⟩ | ⟨live, hslot, hcall⟩ := Registry.ends_forward h
    · exact .vacant (by simp [Registry.holder?, Lookup.slot, hslot])
        (.gasEstimate entryPoint operation overrides)
    · rw [Dialogue.ends_query hcall]
      exact .gasEstimate entryPoint operation overrides reply
        (by simp [Registry.holder?, hslot])

theorem Registry.answer_congr {r r' : Registry Subsystem} {l : Lookup}
    (h : r.holder? l.slot = r'.holder? l.slot) : r.answer l = r'.answer l := by
  have hsubsystem : Function.Injective fun s : Subsystem => (⟨s, none⟩ : Holder Subsystem) :=
    fun _ _ h => congrArg Holder.subsystem h
  cases l with
  | gasPrices => simp only [answer, Option.map_injective hsubsystem h]
  | receipt => simp only [answer, Option.map_injective hsubsystem h]
  | operationByHash => simp only [answer, Option.map_injective hsubsystem h]
  | gasEstimate =>
    have hlive : Function.Injective fun live : LiveEstimate Subsystem =>
        (⟨live.estimator, some live.toEnvironment⟩ : Holder Subsystem) := by
      rintro ⟨environment, estimator⟩ ⟨environment', estimator'⟩ h
      simpa [and_comm] using h
    simp only [answer, Option.map_injective hlive h]

def lookupsSeen [DecidableEq Subsystem] (subsystem : Subsystem) (log : Log Subsystem) :
    List Lookup :=
  ((log.map Sigma.fst).filter fun c => c.holder.subsystem = subsystem).map Call.lookup

def isHeldBy [DecidableEq Subsystem] (settings : List (Setting Subsystem)) (subsystem : Subsystem)
    (l : Lookup) : Bool :=
  (lastHolder? settings l.slot).map Holder.subsystem = some subsystem

theorem lookupsSeen_of_answered [DecidableEq Subsystem] {settings : List (Setting Subsystem)}
    {l : Lookup} {log : Log Subsystem} {reply : l.Reply}
    (h : Answered (lastHolder? settings) l log reply) (subsystem : Subsystem) :
    lookupsSeen subsystem log = [l].filter (isHeldBy settings subsystem) := by
  cases h with
  | vacant hheld _ => simp [lookupsSeen, isHeldBy, hheld]
  | @gasPrices held _ hheld | @receipt held _ _ _ _ hheld | @operationByHash held _ _ _ _ _ hheld
  | @gasEstimate held _ _ _ _ _ hheld =>
    by_cases hs : held = subsystem <;>
      simp [lookupsSeen, isHeldBy, Lookup.slot, Call.lookup, Call.holder, hheld, hs]

abbrev Answer := (l : Lookup) × l.Reply

/-- Answer lookups one after another. A copy of a registry is that registry. -/
def Registry.answerAll (r : Registry Subsystem) (lookups : List Lookup) :
    Dialogue (Call Subsystem) (fun c => c.lookup.Reply) (List Answer) :=
  Dialogue.inTurn (lookups.map fun l => (r.answer l).bind fun reply => .done ⟨l, reply⟩)

theorem lookupsSeen_flatMap [DecidableEq Subsystem] {settings : List (Setting Subsystem)}
    {lookups : List Lookup}
    {turns : List (Dialogue.Turn (Call Subsystem) (fun c => c.lookup.Reply) Answer)}
    (h : List.Forall₂ (fun l turn => ∃ reply, turn.outcome = ⟨l, reply⟩ ∧
      Answered (lastHolder? settings) l turn.log reply) lookups turns) (subsystem : Subsystem) :
    lookupsSeen subsystem (turns.flatMap Dialogue.Turn.log) =
      lookups.filter (isHeldBy settings subsystem) := by
  induction h with
  | nil => rfl
  | @cons l turn lookups turns hturn _ ih =>
    obtain ⟨reply, -, hanswered⟩ := hturn
    have happend (log rest : Log Subsystem) : lookupsSeen subsystem (log ++ rest) =
        lookupsSeen subsystem log ++ lookupsSeen subsystem rest := by
      simp [lookupsSeen]
    rw [List.flatMap_cons, happend, ih, lookupsSeen_of_answered hanswered, ← List.filter_append,
      List.singleton_append]

/-- However slots were set and however subsystems answer, each lookup is answered by what its slot
was last set to hold, a subsystem is asked exactly what was looked up in the slots that it holds,
and an answer would be the same without the settings of other slots. -/
theorem answerAll_ofSettings [DecidableEq Subsystem] {σ : Type}
    (answer : (c : Call Subsystem) → σ → c.lookup.Reply × σ)
    (settings : List (Setting Subsystem)) (lookups : List Lookup) (s : σ) :
    (∃ turns : List (Dialogue.Turn (Call Subsystem) (fun c => c.lookup.Reply) Answer),
      ((Registry.ofSettings settings).answerAll lookups).transcript answer s =
        turns.flatMap Dialogue.Turn.log ∧
      (((Registry.ofSettings settings).answerAll lookups).run answer s).1 =
        turns.map Dialogue.Turn.outcome ∧
      List.Forall₂ (fun l turn => ∃ reply, turn.outcome = ⟨l, reply⟩ ∧
        Answered (lastHolder? settings) l turn.log reply) lookups turns) ∧
    (∀ subsystem, lookupsSeen subsystem
        (((Registry.ofSettings settings).answerAll lookups).transcript answer s) =
      lookups.filter (isHeldBy settings subsystem)) ∧
    ∀ l : Lookup, (Registry.ofSettings settings).answer l =
      (Registry.ofSettings (settings.filter fun setting => setting.slot = l.slot)).answer l := by
  obtain ⟨turns, hlog, houtcomes, hturns⟩ := Dialogue.ends_inTurn
    (Dialogue.ends_run answer ((Registry.ofSettings settings).answerAll lookups) s)
  have hanswered : List.Forall₂ (fun l turn => ∃ reply, turn.outcome = ⟨l, reply⟩ ∧
      Answered (lastHolder? settings) l turn.log reply) lookups turns := by
    -- the turn of a lookup is its answer, and no more is asked to put the reply beside it
    refine (List.forall₂_map_left_iff.mp hturns).imp fun l turn hends => ?_
    obtain ⟨reply, first, rest, hfirst, hrest, hwhole⟩ := Dialogue.ends_bind hends
    obtain ⟨rfl, houtcome⟩ := Dialogue.ends_done hrest
    rw [List.append_nil] at hwhole
    have hfirst := answered_of_ends hfirst
    rw [funext (Registry.holder?_ofSettings settings)] at hfirst
    exact ⟨reply, houtcome, hwhole ▸ hfirst⟩
  refine ⟨⟨turns, hlog, houtcomes, hanswered⟩, fun subsystem => ?_, fun l => ?_⟩
  · rw [hlog, lookupsSeen_flatMap hanswered]
  · refine Registry.answer_congr ?_
    rw [Registry.holder?_ofSettings, Registry.holder?_ofSettings, lastHolder?_filter]

end ChainGateway.Provider
