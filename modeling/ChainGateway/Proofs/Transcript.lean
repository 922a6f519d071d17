import ChainGateway.Rpc.Exchange
import Mathlib.Data.List.Forall2

namespace ChainGateway

namespace Outcome

variable {ε α β : Type}

theorem map_eq_ok {x : Except ε α} {f : α → β} {b : β} (h : x.map f = .ok b) :
    ∃ a, x = .ok a ∧ f a = b := by
  cases x with
  | error e => cases h
  | ok a => exact ⟨a, rfl, Except.ok.inj h⟩

theorem map_eq_error {x : Except ε α} {f : α → β} {e : ε} (h : x.map f = .error e) :
    x = .error e := by
  cases x with
  | error e' => rw [Except.error.inj h]
  | ok a => cases h

theorem mapError_eq_ok {ε' : Type} {x : Except ε α} {f : ε → ε'} {a : α}
    (h : x.mapError f = .ok a) : x = .ok a := by
  cases x with
  | error e => cases h
  | ok b => rw [Except.ok.inj h]

theorem mapError_eq_ok_iff {ε' : Type} {x : Except ε α} {f : ε → ε'} {a : α} :
    x.mapError f = .ok a ↔ x = .ok a :=
  ⟨mapError_eq_ok, congrArg (Except.mapError f)⟩

theorem mapError_eq_error {ε' : Type} {x : Except ε α} {f : ε → ε'} {e : ε'}
    (h : x.mapError f = .error e) : ∃ e', x = .error e' ∧ f e' = e := by
  cases x with
  | error e' => exact ⟨e', rfl, Except.error.inj h⟩
  | ok a => cases h

theorem bind_eq_ok {x : Except ε α} {f : α → Except ε β} {b : β} (h : x.bind f = .ok b) :
    ∃ a, x = .ok a ∧ f a = .ok b := by
  cases x with
  | error e => cases h
  | ok a => exact ⟨a, rfl, h⟩

theorem bind_eq_error {x : Except ε α} {f : α → Except ε β} {e : ε} (h : x.bind f = .error e) :
    x = .error e ∨ ∃ a, x = .ok a ∧ f a = .error e := by
  cases x with
  | error e' => exact Or.inl (by rw [Except.error.inj h])
  | ok a => exact Or.inr ⟨a, rfl, h⟩

end Outcome

namespace Dialogue

variable {Query : Type} {Reply : Query → Type} {α β σ : Type}

def transcript (answer : (q : Query) → σ → Reply q × σ) :
    Dialogue Query Reply α → σ → List ((q : Query) × Reply q)
  | done _, _ => []
  | ask q next, s =>
    ⟨q, (answer q s).1⟩ :: (next (answer q s).1).transcript answer (answer q s).2

theorem run_recording (answer : (q : Query) → σ → Reply q × σ) (d : Dialogue Query Reply α) (s : σ)
    (seen : List Query) :
    d.run (recording answer) (s, seen) =
      ((d.run answer s).1, (d.run answer s).2,
        ((d.transcript answer s).map Sigma.fst).reverse ++ seen) := by
  induction d generalizing s seen with
  | done a => rfl
  | ask q next ih => simp [run, recording, transcript, ih]

theorem runRecorded_eq (answer : (q : Query) → σ → Reply q × σ) (d : Dialogue Query Reply α)
    (s : σ) :
    d.runRecorded answer s =
      ((d.run answer s).1, (d.run answer s).2, (d.transcript answer s).map Sigma.fst) := by
  simp [runRecorded, run_recording]

theorem transcript_bind (answer : (q : Query) → σ → Reply q × σ) (d : Dialogue Query Reply α)
    (f : α → Dialogue Query Reply β) (s : σ) :
    (d.bind f).transcript answer s =
      d.transcript answer s ++ (f (d.run answer s).1).transcript answer (d.run answer s).2 := by
  induction d generalizing s with
  | done a => rfl
  | ask q next ih => simp [bind, run, transcript, ih]

theorem exists_answer_of_mem_transcript {answer : (q : Query) → σ → Reply q × σ}
    {d : Dialogue Query Reply α} {s : σ} {x : (q : Query) × Reply q}
    (h : x ∈ d.transcript answer s) : ∃ s', x.2 = (answer x.1 s').1 := by
  induction d generalizing s with
  | done a => cases h
  | ask q next ih =>
    obtain rfl | h := List.mem_cons.mp h
    · exact ⟨s, rfl⟩
    · exact ih _ h

/-- Each reply of a log is the one that its query gets in the state that the query before it left
behind. -/
def Served (answer : (q : Query) → σ → Reply q × σ) : σ → List ((q : Query) × Reply q) → Prop
  | _, [] => True
  | s, x :: log => x.2 = (answer x.1 s).1 ∧ Served answer (answer x.1 s).2 log

theorem served_transcript (answer : (q : Query) → σ → Reply q × σ) (d : Dialogue Query Reply α)
    (s : σ) : Served answer s (d.transcript answer s) := by
  induction d generalizing s with
  | done a => trivial
  | ask q next ih => exact ⟨rfl, ih _ _⟩

/-- A dialogue that gets the replies of a log to its queries, which are those of the log, ends with
a value. -/
inductive Ends : Dialogue Query Reply α → List ((q : Query) × Reply q) → α → Prop where
  | done (a : α) : Ends (done a) [] a
  | ask {q : Query} {next : Reply q → Dialogue Query Reply α} {r : Reply q}
      {log : List ((q : Query) × Reply q)} {a : α} :
      Ends (next r) log a → Ends (ask q next) (⟨q, r⟩ :: log) a

theorem ends_run (answer : (q : Query) → σ → Reply q × σ) (d : Dialogue Query Reply α) (s : σ) :
    Ends d (d.transcript answer s) (d.run answer s).1 := by
  induction d generalizing s with
  | done a => exact Ends.done a
  | ask q next ih => exact Ends.ask (ih _ _)

theorem ends_done {a b : α} {log : List ((q : Query) × Reply q)}
    (h : Ends (done a : Dialogue Query Reply α) log b) : log = [] ∧ b = a := by
  cases h
  exact ⟨rfl, rfl⟩

theorem ends_bind {d : Dialogue Query Reply α} {f : α → Dialogue Query Reply β}
    {log : List ((q : Query) × Reply q)} {b : β} (h : Ends (d.bind f) log b) :
    ∃ a first rest, Ends d first a ∧ Ends (f a) rest b ∧ log = first ++ rest := by
  induction d generalizing log with
  | done a => exact ⟨a, [], log, Ends.done a, h, rfl⟩
  | ask q next ih =>
    cases h with
    | ask h =>
      obtain ⟨a, first, rest, hfirst, hrest, rfl⟩ := ih _ h
      exact ⟨a, _, rest, Ends.ask hfirst, hrest, rfl⟩

theorem ends_query {q : Query} {r : Reply q} {log : List ((q : Query) × Reply q)}
    (h : Ends (query q : Dialogue Query Reply (Reply q)) log r) : log = [⟨q, r⟩] := by
  cases h with
  | ask h =>
    obtain ⟨rfl, rfl⟩ := ends_done h
    rfl

/-- Where queries are answered by dialogues with someone else, the log of the whole is made of the
logs of these, one for each query. -/
theorem ends_via {Query' : Type} {Reply' : Query' → Type}
    {answer : (q : Query) → Dialogue Query' Reply' (Reply q)} {d : Dialogue Query Reply α}
    {log : List ((q : Query') × Reply' q)} {a : α} (h : Ends (d.via answer) log a) :
    ∃ inner pieces, Ends d inner a ∧ log = pieces.flatten ∧
      List.Forall₂ (fun x piece => Ends (answer x.1) piece x.2) inner pieces := by
  induction d generalizing log with
  | done b =>
    obtain ⟨rfl, rfl⟩ := ends_done h
    exact ⟨[], [], Ends.done _, rfl, .nil⟩
  | ask q next ih =>
    obtain ⟨r, first, rest, hfirst, hrest, rfl⟩ := ends_bind h
    obtain ⟨inner, pieces, hinner, rfl, hpieces⟩ := ih r hrest
    exact ⟨⟨q, r⟩ :: inner, first :: pieces, Ends.ask hinner, rfl, .cons hfirst hpieces⟩

/-- In a program that may fail, what comes second is reached only from a value, and an error ends
the whole. -/
theorem ends_bind_except {ε : Type} {x : ExceptT ε (Dialogue Query Reply) α}
    {f : α → ExceptT ε (Dialogue Query Reply) β} {log : List ((q : Query) × Reply q)}
    {outcome : Except ε β} (h : Ends (x >>= f).run log outcome) :
    (∃ e, Ends x.run log (.error e) ∧ outcome = .error e) ∨
    ∃ a first rest, Ends x.run first (.ok a) ∧ Ends (f a).run rest outcome ∧
      log = first ++ rest := by
  obtain ⟨o, first, rest, hfirst, hrest, rfl⟩ := ends_bind h
  cases o with
  | ok a => exact Or.inr ⟨a, first, rest, hfirst, hrest, rfl⟩
  | error e =>
    obtain ⟨rfl, rfl⟩ := ends_done hrest
    exact Or.inl ⟨e, by rw [List.append_nil]; exact hfirst, rfl⟩

def inTurn : List (Dialogue Query Reply α) → Dialogue Query Reply (List α)
  | [] => done []
  | d :: ds => d.bind fun a => (inTurn ds).bind fun as => done (a :: as)

/-- What one of several dialogues asked, with the replies, and how it ended. -/
structure Turn (Query : Type) (Reply : Query → Type) (α : Type) where
  log : List ((q : Query) × Reply q)
  outcome : α

/-- Nothing is asked between dialogues that are held in turn, and each ends as it would by itself
with the replies that it gets. -/
theorem ends_inTurn {ds : List (Dialogue Query Reply α)} {log : List ((q : Query) × Reply q)}
    {outcomes : List α} (h : Ends (inTurn ds) log outcomes) :
    ∃ turns : List (Turn Query Reply α),
      log = turns.flatMap Turn.log ∧ outcomes = turns.map Turn.outcome ∧
      List.Forall₂ (fun d turn => Ends d turn.log turn.outcome) ds turns := by
  induction ds generalizing log outcomes with
  | nil =>
    obtain ⟨rfl, rfl⟩ := ends_done h
    exact ⟨[], rfl, rfl, .nil⟩
  | cons d ds ih =>
    obtain ⟨a, first, rest, hfirst, hrest, rfl⟩ := ends_bind h
    obtain ⟨as, rest, last, hothers, hlast, rfl⟩ := ends_bind hrest
    obtain ⟨rfl, rfl⟩ := ends_done hlast
    obtain ⟨turns, rfl, rfl, hturns⟩ := ih hothers
    exact ⟨⟨first, a⟩ :: turns, by rw [List.append_nil]; rfl, rfl, .cons hfirst hturns⟩

end Dialogue

namespace Rpc

variable {α β : Type}

abbrev Log := List ((_ : Request) × Reply)

/-- The result in a reply, the failure to get one, or the error that the reply carries. -/
def result (reply : Reply) : Except GatewayError Json := reply.bind Response.outcome

def read (shape : Wire.Shape) (reply : Reply) : Except GatewayError shape.Carrier :=
  (result reply).bind fun v => (shape.ofJson v).mapError fun cause => .decode ⟨cause, none⟩

namespace Exchange

/-- An exchange that gets the replies of a log ends with a value or an error. -/
def Ends (x : Exchange α) (log : Log) (outcome : Except GatewayError α) : Prop :=
  Dialogue.Ends x.run log outcome

theorem ends_lift {a b : Except GatewayError α} {log : Log} (h : Ends (lift a) log b) :
    log = [] ∧ b = a :=
  Dialogue.ends_done h

theorem ends_pure {a : α} {b : Except GatewayError α} {log : Log}
    (h : Ends (pure a : Exchange α) log b) : log = [] ∧ b = .ok a :=
  Dialogue.ends_done h

/-- What comes second is reached only from a value, and an error ends the whole. -/
theorem ends_bind {x : Exchange α} {f : α → Exchange β} {log : Log}
    {outcome : Except GatewayError β} (h : Ends (x >>= f) log outcome) :
    (∃ e, Ends x log (.error e) ∧ outcome = .error e) ∨
    ∃ a first rest, Ends x first (.ok a) ∧ Ends (f a) rest outcome ∧ log = first ++ rest :=
  Dialogue.ends_bind_except h

theorem ends_mapError {f : GatewayError → GatewayError} {x : Exchange α} {log : Log}
    {outcome : Except GatewayError α} (h : Ends (mapError f x) log outcome) :
    ∃ o, Ends x log o ∧ outcome = o.mapError f := by
  obtain ⟨o, first, rest, hfirst, hrest, rfl⟩ := Dialogue.ends_bind h
  obtain ⟨rfl, rfl⟩ := Dialogue.ends_done hrest
  exact ⟨o, by rw [List.append_nil]; exact hfirst, rfl⟩

/-- The exchange sends one request, and the reply decides with what it ends. -/
def Asks (x : Exchange α) (q : Request) (outcome : Reply → Except GatewayError α) : Prop :=
  ∀ log o, x.Ends log o → ∃ reply, log = [⟨q, reply⟩] ∧ o = outcome reply

theorem asks_request (id : Word 64) (method : String) (params : List Json) :
    (request id method params).Asks (.numbered id method params) result := by
  intro log o h
  cases h with
  | @ask _ _ reply _ _ h =>
    refine ⟨reply, ?_⟩
    cases reply with
    | error e =>
      obtain ⟨rfl, rfl⟩ := Dialogue.ends_done h
      exact ⟨rfl, rfl⟩
    | ok response =>
      obtain ⟨rfl, rfl⟩ := ends_lift (a := response.outcome) h
      exact ⟨rfl, rfl⟩

theorem asks_bind_lift {x : Exchange α} {q : Request} {outcome : Reply → Except GatewayError α}
    (hx : x.Asks q outcome) (g : α → Except GatewayError β) :
    (x >>= fun a => lift (g a)).Asks q fun reply => (outcome reply).bind g := by
  intro log o h
  obtain ⟨e, he, rfl⟩ | ⟨a, first, rest, hfirst, hrest, rfl⟩ := ends_bind h
  · obtain ⟨reply, rfl, hr⟩ := hx _ _ he
    exact ⟨reply, rfl, by simp only [← hr]; rfl⟩
  · obtain ⟨reply, rfl, hr⟩ := hx _ _ hfirst
    obtain ⟨rfl, rfl⟩ := ends_lift hrest
    exact ⟨reply, rfl, by simp only [← hr]; rfl⟩

theorem call_eq (shape : Wire.Shape) (id : Word 64) (method : String) (params : List Json) :
    call shape id method params =
      request id method params >>= fun v =>
        lift ((shape.ofJson v).mapError fun cause => .decode ⟨cause, none⟩) := by
  unfold call
  congr 1
  funext v
  cases shape.ofJson v <;> rfl

theorem asks_call (shape : Wire.Shape) (id : Word 64) (method : String) (params : List Json) :
    (call shape id method params).Asks (.numbered id method params) (read shape) := by
  rw [call_eq]
  exact asks_bind_lift (asks_request id method params) _

section

variable (node : Request → Reply)

/-- With what an exchange ends if each reply depends on its request alone. -/
def outcome (x : Exchange α) : Except GatewayError α :=
  (x.run.run (fun q s => (node q, s)) ()).1

theorem outcome_eq (x : Exchange α) :
    x.outcome node = (x.run.run (fun q s => (node q, s)) ()).1 := rfl

theorem outcome_lift (a : Except GatewayError α) : (lift a).outcome node = a := rfl

theorem outcome_bind (x : Exchange α) (f : α → Exchange β) :
    (x >>= f).outcome node = (x.outcome node).bind fun a => (f a).outcome node := by
  have hrun := Dialogue.run_bind (fun q (s : Unit) => (node q, s)) x.run
    (ExceptT.bindCont fun a => f a) ()
  unfold outcome
  refine (congrArg Prod.fst hrun).trans ?_
  cases (x.run.run (fun q s => (node q, s)) ()).1 <;> rfl

theorem outcome_bind_ok {x : Exchange α} {f : α → Exchange β} {a : α} {o : Except GatewayError β}
    (hx : x.outcome node = .ok a) (hf : (f a).outcome node = o) : (x >>= f).outcome node = o := by
  rw [outcome_bind, hx]
  exact hf

theorem outcome_mapError (f : GatewayError → GatewayError) (x : Exchange α) :
    (mapError f x).outcome node = (x.outcome node).mapError f :=
  congrArg Prod.fst (Dialogue.run_bind (fun q (s : Unit) => (node q, s)) x.run _ ())

theorem outcome_request (id : Word 64) (method : String) (params : List Json) :
    (request id method params).outcome node = result (node (.numbered id method params)) := by
  have hsend : (send (.numbered id method params)).outcome node =
      node (.numbered id method params) := rfl
  rw [request, outcome_bind, hsend]
  rfl

theorem outcome_call (shape : Wire.Shape) (id : Word 64) (method : String) (params : List Json) :
    (call shape id method params).outcome node =
      read shape (node (.numbered id method params)) := by
  rw [call_eq, outcome_bind, outcome_request]
  rfl

end

end Exchange

end Rpc

end ChainGateway
