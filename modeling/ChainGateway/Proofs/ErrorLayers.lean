import ChainGateway.Error
import Mathlib.Data.List.Chain

namespace ChainGateway.GatewayError

/-- The ways in which an error stands around another error of the gateway. -/
inductive Layer where
  | submission
  | backend
deriving DecidableEq, Repr

def Layer.around : Layer → GatewayError → GatewayError
  | submission => GatewayError.submission
  | backend => GatewayError.backend

def Layer.kind : Layer → String
  | submission => "submission"
  | backend => "backend"

def layered (layers : List Layer) (core : GatewayError) : GatewayError :=
  layers.foldr Layer.around core

def IsCore : GatewayError → Prop
  | submission _ => False
  | backend _ => False
  | _ => True

def announced (k : Nat) (text : String) : String :=
  String.join (List.replicate k "transaction submission failed: ") ++ text

theorem announced_zero (text : String) : announced 0 text = text := String.empty_append

theorem announced_succ (k : Nat) (text : String) :
    announced (k + 1) text = "transaction submission failed: " ++ announced k text := by
  rw [announced, List.replicate_succ, String.join_cons, String.append_assoc]
  rfl

theorem message_submission (e : GatewayError) :
    (submission e).message = "transaction submission failed: " ++ e.message := rfl

theorem causes_submission (e : GatewayError) :
    (submission e).causes = e.message :: e.causes := rfl

theorem message_decode (fault : Json.Fault) :
    (decode fault).message = "decode error: " ++ fault.message := rfl

theorem suffix_append (before text : String) : text.toList <:+ (before ++ text).toList := by
  rw [String.toList_append]
  exact List.suffix_append _ _

theorem exists_layered (e : GatewayError) :
    ∃ layers core, IsCore core ∧ e = layered layers core := by
  induction e with
  | submission source ih =>
    obtain ⟨layers, core, hcore, rfl⟩ := ih
    exact ⟨.submission :: layers, core, hcore, rfl⟩
  | backend inner ih =>
    obtain ⟨layers, core, hcore, rfl⟩ := ih
    exact ⟨.backend :: layers, core, hcore, rfl⟩
  | _ => exact ⟨[], _, by trivial, rfl⟩

/-- What the texts and the causes of an error are, if so many failures to submit are around a
core. -/
structure Composed (k : Nat) (core e : GatewayError) : Prop where
  message : e.message = announced k core.message
  cause : ∀ i, i < k → ∃ text, e.causes[i]? = some text ∧ e.message = announced (i + 1) text
  length_of_decode : ∀ fault, core = .decode fault →
    e.causes.length = k + 1 ∧ e.causes[k]? = some fault.message
  length : (∀ fault, core ≠ .decode fault) → e.causes.length = k
  suffixes : (e.message :: e.causes).IsChain fun text next => next.toList <:+ text.toList

section

variable {k : Nat} {core e : GatewayError}

theorem composed_core (h : IsCore core) : Composed 0 core core where
  message := (announced_zero core.message).symm
  cause i hi := absurd hi (Nat.not_lt_zero i)
  length_of_decode fault hfault := by
    subst hfault
    exact ⟨rfl, rfl⟩
  length hdecode := by
    cases core with
    | submission source => exact h.elim
    | backend inner => exact h.elim
    | decode fault => exact absurd rfl (hdecode fault)
    | _ => rfl
  suffixes := by
    cases core with
    | submission source => exact h.elim
    | backend inner => exact h.elim
    | decode fault =>
      rw [message_decode]
      exact List.isChain_cons_cons.mpr ⟨suffix_append _ _, .singleton _⟩
    | _ => exact .singleton _

/-- One more failure to submit is one more text in front and one more cause. -/
theorem composed_submission (h : Composed k core e) : Composed (k + 1) core (.submission e) where
  message := by
    rw [message_submission, h.message, announced_succ]
  cause i hi := by
    cases i with
    | zero => exact ⟨e.message, rfl, by rw [announced_succ, announced_zero, message_submission]⟩
    | succ i =>
      obtain ⟨text, htext, hmessage⟩ := h.cause i (Nat.lt_of_succ_lt_succ hi)
      refine ⟨text, htext, ?_⟩
      rw [message_submission, hmessage, ← announced_succ]
  length_of_decode fault hfault := by
    obtain ⟨hlength, hlast⟩ := h.length_of_decode fault hfault
    exact ⟨congrArg Nat.succ hlength, hlast⟩
  length hdecode := congrArg Nat.succ (h.length hdecode)
  suffixes := by
    rw [message_submission, causes_submission]
    exact List.isChain_cons_cons.mpr ⟨suffix_append _ _, h.suffixes⟩

theorem composed_backend (h : Composed k core e) : Composed k core (.backend e) :=
  ⟨h.message, h.cause, h.length_of_decode, h.length, h.suffixes⟩

theorem composed_layered (layers : List Layer) (h : IsCore core) :
    Composed (layers.count .submission) core (layered layers core) := by
  induction layers with
  | nil => exact composed_core h
  | cons l layers ih =>
    cases l with
    | submission =>
      rw [List.count_cons_self]
      exact composed_submission ih
    | backend =>
      rw [List.count_cons_of_ne (by decide)]
      exact composed_backend ih

end

theorem layered_append (outer inner : List Layer) (core : GatewayError) :
    layered (outer ++ inner) core = layered outer (layered inner core) :=
  List.foldr_append

theorem layered_congr (layers : List Layer) {e e' : GatewayError}
    (hmessage : e.message = e'.message) (hcauses : e.causes = e'.causes) :
    (layered layers e).message = (layered layers e').message ∧
      (layered layers e).causes = (layered layers e').causes := by
  induction layers with
  | nil => exact ⟨hmessage, hcauses⟩
  | cons l layers ih =>
    obtain ⟨hmessage, hcauses⟩ := ih
    cases l with
    | submission =>
      exact ⟨congrArg ("transaction submission failed: " ++ ·) hmessage,
        congrArg₂ List.cons hmessage hcauses⟩
    | backend => exact ⟨hmessage, hcauses⟩

/-- However failures to submit and errors that are passed through stand around a core: each of the
former adds its words and a cause, the latter add nothing wherever they stand, and what is told of
the kind of error is told of the outermost layer. -/
theorem layered_composed (layers : List Layer) {core : GatewayError} (hcore : IsCore core) :
    Composed (layers.count .submission) core (layered layers core) ∧
    (∀ outer inner, layers = outer ++ .backend :: inner →
      (layered layers core).message = (layered (outer ++ inner) core).message ∧
      (layered layers core).causes = (layered (outer ++ inner) core).causes) ∧
    ∀ l rest, layers = l :: rest →
      (layered layers core).kind = l.kind ∧ (layered layers core).nodeError? = none ∧
      (layered layers core).isNodeError = false := by
  refine ⟨composed_layered layers hcore, ?_, ?_⟩
  · rintro outer inner rfl
    rw [layered_append, layered_append]
    exact layered_congr outer rfl rfl
  · rintro l rest rfl
    cases l with
    | submission => exact ⟨rfl, rfl, rfl⟩
    | backend => exact ⟨rfl, rfl, rfl⟩

def strayBrace : Json.Fault := ⟨.malformed .noValue, some ⟨2, 1⟩⟩

theorem layered_composed_decode :
    IsCore (.decode strayBrace) ∧
    Composed 2 (.decode strayBrace)
      (.backend (.submission (.backend (.submission (.decode strayBrace))))) ∧
    (GatewayError.submission (.rpc ⟨0, "nonce too low", none⟩)).isNodeError = false := by
  have hdecode : IsCore (.decode strayBrace) := trivial
  have hrpc : IsCore (.rpc ⟨0, "nonce too low", none⟩) := trivial
  have hdeep := layered_composed [.backend, .submission, .backend, .submission] hdecode
  have hwrapped := layered_composed [.submission] hrpc
  exact ⟨hdecode, hdeep.1, (hwrapped.2.2 .submission [] rfl).2.2⟩

end ChainGateway.GatewayError
