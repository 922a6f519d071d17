namespace ChainGateway

/-- A program that asks queries, each with its own type of reply, and ends with a value. -/
inductive Dialogue (Query : Type) (Reply : Query → Type) (α : Type) where
  | done (a : α)
  | ask (q : Query) (next : Reply q → Dialogue Query Reply α)

namespace Dialogue

variable {Query Query' : Type} {Reply : Query → Type} {Reply' : Query' → Type} {α β σ : Type}

def query (q : Query) : Dialogue Query Reply (Reply q) := ask q done

def bind : Dialogue Query Reply α → (α → Dialogue Query Reply β) → Dialogue Query Reply β
  | done a, f => f a
  | ask q next, f => ask q fun r => (next r).bind f

instance : Monad (Dialogue Query Reply) where
  pure := done
  bind := bind

def via (answer : (q : Query) → Dialogue Query' Reply' (Reply q)) :
    Dialogue Query Reply α → Dialogue Query' Reply' α
  | done a => done a
  | ask q next => (answer q).bind fun r => (next r).via answer

def run (answer : (q : Query) → σ → Reply q × σ) : Dialogue Query Reply α → σ → α × σ
  | done a, s => (a, s)
  | ask q next, s => (next (answer q s).1).run answer (answer q s).2

/-- The same answers, with a record of the queries they were given to, the latest first. -/
def recording (answer : (q : Query) → σ → Reply q × σ) (q : Query) (s : σ × List Query) :
    Reply q × σ × List Query :=
  ((answer q s.1).1, (answer q s.1).2, q :: s.2)

def runRecorded (answer : (q : Query) → σ → Reply q × σ) (d : Dialogue Query Reply α) (s : σ) :
    α × σ × List Query :=
  let (a, s, queries) := d.run (recording answer) (s, [])
  (a, s, queries.reverse)

theorem bind_assoc {γ : Type} (d : Dialogue Query Reply α) (f : α → Dialogue Query Reply β)
    (g : β → Dialogue Query Reply γ) : (d.bind f).bind g = d.bind fun a => (f a).bind g := by
  induction d with
  | done a => rfl
  | ask q next ih => simp [bind, ih]

theorem run_bind (answer : (q : Query) → σ → Reply q × σ) (d : Dialogue Query Reply α)
    (f : α → Dialogue Query Reply β) (s : σ) :
    (d.bind f).run answer s = (f (d.run answer s).1).run answer (d.run answer s).2 := by
  induction d generalizing s with
  | done a => rfl
  | ask q next ih => simp [bind, run, ih]

end Dialogue

end ChainGateway
