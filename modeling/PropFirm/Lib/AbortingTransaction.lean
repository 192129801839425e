import Mathlib.Logic.Basic

/-!
# Transactions that a failed statement aborts

Once a statement of a transaction has failed, all later ones fail until its end, whatever the client
makes of the error, and its commit is a rollback. A client that catches an error and tries something else
does so in a transaction in which nothing can be done any more: of a loop that tries again after an error
only the first attempt counts.
-/

namespace Aborting

inductive SqlError
  | uniqueViolation | notNullViolation | inFailedTransaction
  deriving DecidableEq

/-- What the transaction sees, and whether a statement of it has failed. -/
structure Session (σ : Type) where
  store : σ
  aborted : Bool

/-- Client code between the beginning and the end of a transaction. -/
def Client (σ α : Type) : Type := Session σ → Except SqlError α × Session σ

variable {σ α β : Type}

instance : Monad (Client σ) where
  pure a := fun session => (.ok a, session)
  bind client f := fun session =>
    match client session with
    | (.ok a, session') => f a session'
    | (.error e, session') => (.error e, session')

instance : MonadExcept SqlError (Client σ) where
  throw e := fun session => (.error e, session)
  tryCatch client handler := fun session =>
    match client session with
    | (.ok a, session') => (.ok a, session')
    | (.error e, session') => handler e session'

def statement (f : σ → Except SqlError (σ × α)) : Client σ α := fun session =>
  if session.aborted then (.error .inFailedTransaction, session)
  else match f session.store with
    | .ok (store, a) => (.ok a, ⟨store, false⟩)
    | .error e => (.error e, ⟨session.store, true⟩)

/-- A statement that always succeeds. -/
def query (f : σ → σ × α) : Client σ α := statement fun store => .ok (f store)

/-- A statement that changes rows, none of its results being used. -/
def execute (f : σ → σ) : Client σ Unit := query fun store => (f store, ())

/-- The client's answer and what is committed; the client rolls back after an error. -/
def transact (client : Client σ α) (store : σ) : Except SqlError α × σ :=
  match client ⟨store, false⟩ with
  | (.ok a, session) => (.ok a, if session.aborted then store else session.store)
  | (.error e, _) => (.error e, store)

/-- Try one client after the other, as long as they fail by the error that is caught. -/
def firstSuccess (caught : SqlError) : List (Client σ α) → Client σ (Option α)
  | [] => pure none
  | client :: clients =>
    tryCatch (client >>= fun a => pure (some a)) fun e =>
      if e = caught then firstSuccess caught clients else throw e

section Run

variable {store store' : σ} {session session' : Session σ} {client : Client σ α} {a : α} {e : SqlError}

@[simp] theorem pure_apply (a : α) (session : Session σ) : (pure a : Client σ α) session = (.ok a, session) := rfl

theorem bind_ok (f : α → Client σ β) (hclient : client session = (.ok a, session')) :
    (client >>= f) session = f a session' := by
  change (match client session with | (.ok a, t) => f a t | (.error e, t) => (.error e, t)) = _
  rw [hclient]

theorem bind_error (f : α → Client σ β) (hclient : client session = (.error e, session')) :
    (client >>= f) session = (.error e, session') := by
  change (match client session with | (.ok a, t) => f a t | (.error e, t) => (.error e, t)) = _
  rw [hclient]

theorem tryCatch_ok (handler : SqlError → Client σ α) (hclient : client session = (.ok a, session')) :
    tryCatch client handler session = (.ok a, session') := by
  change (match client session with | (.ok a, t) => (Except.ok a, t) | (.error e, t) => handler e t) = _
  rw [hclient]

theorem tryCatch_error (handler : SqlError → Client σ α) (hclient : client session = (.error e, session')) :
    tryCatch client handler session = handler e session' := by
  change (match client session with | (.ok a, t) => (Except.ok a, t) | (.error e, t) => handler e t) = _
  rw [hclient]

theorem statement_ok {f : σ → Except SqlError (σ × α)} (hf : f store = .ok (store', a)) :
    statement f ⟨store, false⟩ = (.ok a, ⟨store', false⟩) := by
  simp only [statement, Bool.false_eq_true, if_false, hf]

theorem statement_error {f : σ → Except SqlError (σ × α)} (hf : f store = .error e) :
    statement f ⟨store, false⟩ = (.error e, ⟨store, true⟩) := by
  simp only [statement, Bool.false_eq_true, if_false, hf]

theorem statement_aborted (f : σ → Except SqlError (σ × α)) (store : σ) :
    statement f ⟨store, true⟩ = (.error .inFailedTransaction, ⟨store, true⟩) := rfl

@[simp] theorem query_apply (f : σ → σ × α) (store : σ) :
    query f ⟨store, false⟩ = (.ok (f store).2, ⟨(f store).1, false⟩) := statement_ok rfl

@[simp] theorem execute_apply (f : σ → σ) (store : σ) :
    execute f ⟨store, false⟩ = (.ok (), ⟨f store, false⟩) := query_apply _ _

theorem transact_ok (hclient : client ⟨store, false⟩ = (.ok a, ⟨store', false⟩)) :
    transact client store = (.ok a, store') := by
  rw [transact, hclient]
  rfl

theorem transact_error (hclient : client ⟨store, false⟩ = (.error e, session)) :
    transact client store = (.error e, store) := by
  rw [transact, hclient]

theorem firstSuccess_ok {caught : SqlError} (clients : List (Client σ α))
    (hclient : client session = (.ok a, session')) :
    firstSuccess caught (client :: clients) session = (.ok (some a), session') := by
  rw [firstSuccess]
  refine tryCatch_ok _ ?_
  exact bind_ok _ hclient

theorem firstSuccess_error {caught : SqlError} (clients : List (Client σ α))
    (hclient : client session = (.error e, session')) :
    firstSuccess caught (client :: clients) session
      = (if e = caught then firstSuccess caught clients else throw e) session' := by
  rw [firstSuccess]
  refine tryCatch_error _ ?_
  exact bind_error _ hclient

/-- The second attempt fails whatever it is, and with an error that nobody catches. -/
theorem firstSuccess_of_failed {caught : SqlError} (hcaught : caught ≠ .inFailedTransaction)
    {f g : σ → Except SqlError (σ × α)} (clients : List (Client σ α)) (hf : f store = .error e) :
    ∃ e', firstSuccess caught (statement f :: statement g :: clients) ⟨store, false⟩
      = (.error e', ⟨store, true⟩) := by
  rw [firstSuccess_error _ (statement_error hf)]
  by_cases he : e = caught
  · rw [if_pos he, firstSuccess_error _ (statement_aborted g store), if_neg hcaught.symm]
    exact ⟨_, rfl⟩
  · rw [if_neg he]
    exact ⟨e, rfl⟩

end Run

end Aborting
