import Mathlib
import PropFirm.Lib.ProvisionalLog
import PropFirm.Lib.Transition

/-!
# The immutable audit log

`appendImmutableAudit` reads the entry hash of the latest row it can see and inserts a row that carries it,
in two statements without a lock between them. It runs on the pool, where each statement is a transaction
of its own, or on a client inside a transaction that is committed or rolled back later. A row draws its id
from the sequence when it is inserted, not when it is committed.
-/

namespace PropFirm

open ProvisionalLog Transition

/-- What a caller passes, `payloadText` being the payload once it is serialised. -/
structure AuditInput where
  eventType : String
  entityType : String
  entityId : String
  actor : String
  payloadText : String
  deriving DecidableEq

/-- A row of `admin_immutable_audit`. -/
structure AuditRow where
  id : Nat
  eventType : String
  entityType : String
  entityId : String
  actor : String
  payloadText : String
  prevHash : String
  entryHash : String
  createdAt : String
  deriving DecidableEq

/-- A transaction of a client, or the statement of the pool that inserts a row. -/
inductive AuditWriter
  | transaction (id : Nat)
  | statement (rowId : Nat)
  deriving DecidableEq

/-- A call that has read the latest row and not inserted its own. -/
structure AuditCall where
  client : Option Nat
  input : AuditInput
  previous : Option AuditRow

structure AuditLog where
  rows : Log AuditWriter AuditRow
  nextId : Nat
  transactions : List Nat
  calls : List AuditCall

inductive AuditAction
  | beginTransaction (id : Nat)
  | read (client : Option Nat) (input : AuditInput)
  | insert (call : Nat) (createdAt : String)
  | commit (writer : AuditWriter)
  | rollBack (writer : AuditWriter)

/-- `value || fallback`. -/
def orDefault (value fallback : String) : String := if value = "" then fallback else value

/-- `buildAuditHash`, over the digest in hexadecimal. -/
def buildAuditHash (sha256 : String → String) (prevHash : String) (input : AuditInput)
    (createdAt : String) : String :=
  sha256 ("|".intercalate [orDefault prevHash "GENESIS", input.eventType, input.entityType,
    input.entityId, orDefault input.payloadText "\x7b\x7d", createdAt])

namespace AuditCall

def prevHash (call : AuditCall) : String :=
  orDefault ((call.previous.map AuditRow.entryHash).getD "") "GENESIS"

def row (sha256 : String → String) (call : AuditCall) (id : Nat) (createdAt : String) : AuditRow where
  id := id
  eventType := orDefault call.input.eventType "event"
  entityType := call.input.entityType
  entityId := call.input.entityId
  actor := orDefault call.input.actor "admin"
  payloadText := call.input.payloadText
  prevHash := call.prevHash
  entryHash := buildAuditHash sha256 call.prevHash call.input createdAt
  createdAt := createdAt

/-- On the pool the insertion commits by itself. -/
def writer (call : AuditCall) (rowId : Nat) : AuditWriter :=
  call.client.elim (.statement rowId) .transaction

end AuditCall

namespace AuditLog

def empty : AuditLog := ⟨[], 1, [], []⟩

/-- A statement sees what is committed and what its own transaction wrote. -/
def visible (client : Option Nat) (writer : Option AuditWriter) : Bool :=
  writer.isNone || writer = client.map .transaction

/-- `SELECT entry_hash … ORDER BY id DESC LIMIT 1`. -/
def latest (w : AuditLog) (client : Option Nat) : Option AuditRow :=
  (w.rows.find? fun e => visible client e.1).map Prod.snd

/-- `entry_hash` is unique: an insertion fails against a committed row, and waits for any other. -/
def step (sha256 : String → String) (w : AuditLog) : AuditAction → Option AuditLog
  | .beginTransaction id => do
    guard (id ∉ w.transactions)
    pure { w with transactions := id :: w.transactions }
  | .read client input => do
    guard (∀ id ∈ client, id ∈ w.transactions)
    pure { w with calls := w.calls ++ [⟨client, input, w.latest client⟩] }
  | .insert k createdAt => do
    let call ← w.calls[k]?
    let row := call.row sha256 w.nextId createdAt
    guard (∀ e ∈ w.rows, e.2.entryHash ≠ row.entryHash)
    pure { w with
      rows := (some (call.writer w.nextId), row) :: w.rows
      nextId := w.nextId + 1
      calls := w.calls.eraseIdx k }
  | .commit (.statement rowId) => some { w with rows := confirm (.statement rowId) w.rows }
  | .rollBack (.statement rowId) => some { w with rows := withdraw (.statement rowId) w.rows }
  | .commit (.transaction id) => do
    guard (id ∈ w.transactions ∧ ∀ call ∈ w.calls, call.client ≠ some id)
    pure { w with
      rows := confirm (.transaction id) w.rows
      transactions := w.transactions.erase id }
  | .rollBack (.transaction id) => do
    guard (id ∈ w.transactions)
    pure { w with
      rows := withdraw (.transaction id) w.rows
      transactions := w.transactions.erase id
      calls := w.calls.filter fun call => call.client ≠ some id }

/-- The committed rows, latest id first, are one chain from `GENESIS`. -/
structure OneChain (w : AuditLog) : Prop where
  ordered : (confirmed w.rows).Pairwise fun later earlier => earlier.id < later.id
  linked : Chained AuditRow.prevHash AuditRow.entryHash "GENESIS" (confirmed w.rows)

/-- The row a call read is the latest of all when it inserts its own, whoever wrote that one. -/
def KeepsChain (w : AuditLog) : AuditAction → Prop
  | .insert k _ => ∀ call ∈ w.calls[k]?, call.previous = (entries w.rows).head? ∧
      ∀ e ∈ w.rows.head?, visible call.client e.1
  | .beginTransaction _ | .read _ _ | .commit _ | .rollBack _ => True

variable {sha256 : String → String} {w w' : AuditLog} {call : AuditCall} {id : Nat} {createdAt : String}

structure Sound (w : AuditLog) : Prop where
  stacked : Stacked w.rows
  ordered : (entries w.rows).Pairwise fun later earlier => earlier.id < later.id
  linked : Chained AuditRow.prevHash AuditRow.entryHash "GENESIS" (entries w.rows)
  drawn : ∀ row ∈ entries w.rows, row.id < w.nextId
  hashed : ∀ row ∈ entries w.rows, row.entryHash ≠ ""

/-- Confirming rows and withdrawing the latest ones. -/
theorem Sound.shrunk (hsound : w.Sound) (hstacked : Stacked w'.rows)
    (hend : entries w'.rows <:+ entries w.rows) (hnext : w'.nextId = w.nextId) : w'.Sound where
  stacked := hstacked
  ordered := hsound.ordered.sublist hend.sublist
  linked := hsound.linked.suffix hend
  drawn row hrow := hnext ▸ hsound.drawn row (hend.subset hrow)
  hashed row hrow := hsound.hashed row (hend.subset hrow)

theorem Sound.confirm (hsound : w.Sound) (writer : AuditWriter) (transactions : List Nat) :
    Sound { w with rows := confirm writer w.rows, transactions := transactions } :=
  hsound.shrunk (hsound.stacked.confirm writer) (entries_confirm writer w.rows ▸ List.suffix_rfl) rfl

theorem Sound.withdraw (hsound : w.Sound) (writer : AuditWriter) (transactions : List Nat)
    (calls : List AuditCall) :
    Sound { w with rows := withdraw writer w.rows, transactions := transactions, calls := calls } :=
  hsound.shrunk (hsound.stacked.withdraw writer).1 (hsound.stacked.withdraw writer).2 rfl

theorem visible_writer {writer : Option AuditWriter} (hvisible : visible call.client writer = true) :
    writer = none ∨ writer = some (call.writer id) := by
  rcases Bool.or_eq_true_iff.mp hvisible with hnone | hown
  · exact .inl (Option.isNone_iff_eq_none.mp hnone)
  · rw [of_decide_eq_true hown, AuditCall.writer]
    cases call.client with
    | none => exact .inl rfl
    | some client => exact .inr rfl

/-- A call carries on the latest of rows that are a chain. -/
theorem Sound.prevHash (hsound : w.Sound) (hprevious : call.previous = (entries w.rows).head?) :
    call.prevHash = ((entries w.rows).head?.map AuditRow.entryHash).getD "GENESIS" := by
  rw [AuditCall.prevHash, hprevious]
  cases hhead : (entries w.rows).head? with
  | none => rfl
  | some row => exact if_neg (hsound.hashed row (List.mem_of_mem_head? hhead))

theorem Sound.insert (hdigest : ∀ text, sha256 text ≠ "") (hsound : w.Sound)
    (hprevious : call.previous = (entries w.rows).head?)
    (htop : ∀ e ∈ w.rows.head?, visible call.client e.1) (calls : List AuditCall) :
    Sound { w with
      rows := (some (call.writer w.nextId), call.row sha256 w.nextId createdAt) :: w.rows
      nextId := w.nextId + 1
      calls := calls } where
  stacked := hsound.stacked.push (fun e he => visible_writer (htop e he)) _
  ordered := List.pairwise_cons.mpr ⟨hsound.drawn, hsound.ordered⟩
  linked := ⟨hsound.prevHash hprevious, hsound.linked⟩
  drawn := by
    intro row hrow
    rcases List.mem_cons.mp hrow with rfl | hold
    · exact Nat.lt_succ_self _
    · exact Nat.lt_succ_of_lt (hsound.drawn row hold)
  hashed := by
    intro row hrow
    rcases List.mem_cons.mp hrow with rfl | hold
    · exact hdigest _
    · exact hsound.hashed row hold

theorem Sound.step (hdigest : ∀ text, sha256 text ≠ "") {a : AuditAction} (hsound : w.Sound)
    (hkeeps : w.KeepsChain a) (hstep : w.step sha256 a = some w') : w'.Sound := by
  cases a with
  | beginTransaction id =>
    obtain ⟨_, _, hstep⟩ := Option.bind_eq_some_iff.mp hstep
    obtain rfl := Option.some.inj hstep
    exact hsound.shrunk hsound.stacked List.suffix_rfl rfl
  | read client input =>
    obtain ⟨_, _, hstep⟩ := Option.bind_eq_some_iff.mp hstep
    obtain rfl := Option.some.inj hstep
    exact hsound.shrunk hsound.stacked List.suffix_rfl rfl
  | insert k createdAt =>
    obtain ⟨call, hcall, hstep⟩ := Option.bind_eq_some_iff.mp hstep
    obtain ⟨_, _, hstep⟩ := Option.bind_eq_some_iff.mp hstep
    obtain rfl := Option.some.inj hstep
    obtain ⟨hprevious, htop⟩ := hkeeps call hcall
    exact hsound.insert hdigest hprevious htop _
  | commit writer =>
    cases writer with
    | statement rowId =>
      obtain rfl := Option.some.inj hstep
      exact hsound.confirm _ _
    | transaction id =>
      obtain ⟨_, _, hstep⟩ := Option.bind_eq_some_iff.mp hstep
      obtain rfl := Option.some.inj hstep
      exact hsound.confirm _ _
  | rollBack writer =>
    cases writer with
    | statement rowId =>
      obtain rfl := Option.some.inj hstep
      exact hsound.withdraw _ _ _
    | transaction id =>
      obtain ⟨_, _, hstep⟩ := Option.bind_eq_some_iff.mp hstep
      obtain rfl := Option.some.inj hstep
      exact hsound.withdraw _ _ _

theorem empty_sound : empty.Sound :=
  ⟨.nil, .nil, trivial, fun _ hrow => absurd hrow List.not_mem_nil,
    fun _ hrow => absurd hrow List.not_mem_nil⟩

theorem Sound.oneChain (hsound : w.Sound) : w.OneChain :=
  ⟨hsound.ordered.sublist hsound.stacked.confirmed_suffix.sublist,
    hsound.linked.suffix hsound.stacked.confirmed_suffix⟩

/-- **One chain.** If every call inserts its row on top of the one it read, the committed rows are a single
chain at every moment, whatever is committed late or rolled back. -/
theorem reached_oneChain (hdigest : ∀ text, sha256 text ≠ "")
    (hreach : Reach (step sha256) KeepsChain (· = empty) w) : w.OneChain := by
  have hsound : w.Sound := by
    apply hreach.invariant
    · rintro _ rfl
      exact empty_sound
    · exact fun _ _ _ hsound hkeeps hstep => hsound.step hdigest hkeeps hstep
  exact hsound.oneChain

/-! ### Two approvals of identity documents -/

instance (w : AuditLog) : ∀ a, Decidable (w.KeepsChain a)
  | .insert k _ => inferInstanceAs (Decidable (∀ call ∈ w.calls[k]?,
      call.previous = (entries w.rows).head? ∧ ∀ e ∈ w.rows.head?, visible call.client e.1))
  | .beginTransaction _ | .read _ _ | .commit _ | .rollBack _ => .isTrue trivial

def kycApproved (userId : String) : AuditInput := ⟨"kyc_approved", "user", userId, "admin", "\x7b\x7d"⟩

/-- The digests of the texts that the calls hash. -/
def hexDigest (text : String) : String :=
  if text = "GENESIS|kyc_approved|user|3|\x7b\x7d|2026-01-05T10:00:01.000Z" then
    "15ffdf6b96eecca8c00005fe4bd2343800bb06487f6162b002c0354afd61f819"
  else if text = "GENESIS|kyc_approved|user|4|\x7b\x7d|2026-01-05T10:00:02.000Z" then
    "72099edec19faac8e6c9ef48b1acdf364c13db3d5a77c6e8cd4a85309214e6c2"
  else
    "3bd5de7d46e25076cedf3d9c03d79db59ca21f85e3e237339e095cff30076439"

theorem hexDigest_ne_empty (text : String) : hexDigest text ≠ "" := by
  rw [hexDigest]
  split
  · decide
  · split <;> decide

/-- A transaction appends and is rolled back, and then one on the pool and one in a transaction append. -/
def oneAfterAnother : List AuditAction :=
  [.beginTransaction 1, .read (some 1) (kycApproved "3"), .insert 0 "2026-01-05T10:00:01.000Z",
    .rollBack (.transaction 1), .read none (kycApproved "3"), .insert 0 "2026-01-05T10:00:01.000Z",
    .commit (.statement 2), .beginTransaction 2, .read (some 2) (kycApproved "4"),
    .insert 0 "2026-01-05T10:00:02.000Z", .commit (.transaction 2)]

theorem reached_oneChain_oneAfterAnother : ∃ w, run (step hexDigest) empty oneAfterAnother = some w ∧
    (confirmed w.rows).map AuditRow.id = [3, 2] ∧ w.OneChain := by
  obtain ⟨w, hrun, hids⟩ := exists_of_run_any (step hexDigest) empty oneAfterAnother
    (fun w => (confirmed w.rows).map AuditRow.id = [3, 2]) (by decide +kernel)
  have hok : RunOk (step hexDigest) KeepsChain empty oneAfterAnother := by decide +kernel
  have hreach : Reach (step hexDigest) KeepsChain (· = empty) w := .of_run (.init rfl) hok hrun
  exact ⟨w, hrun, of_decide_eq_true hids, reached_oneChain hexDigest_ne_empty hreach⟩

/-- Two approvals on the pool read the empty table before either inserts. -/
def bothAtOnce : List AuditAction :=
  [.read none (kycApproved "3"), .read none (kycApproved "4"), .insert 0 "2026-01-05T10:00:01.000Z",
    .insert 0 "2026-01-05T10:00:02.000Z", .commit (.statement 1), .commit (.statement 2)]

theorem chain_forks : ∃ w, run (step hexDigest) empty bothAtOnce = some w ∧
    (confirmed w.rows).map AuditRow.prevHash = ["GENESIS", "GENESIS"] ∧ ¬w.OneChain := by
  obtain ⟨w, hrun, hend⟩ := exists_of_run_any (step hexDigest) empty bothAtOnce
    (fun w => (confirmed w.rows).map AuditRow.prevHash = ["GENESIS", "GENESIS"] ∧
      ¬Chained AuditRow.prevHash AuditRow.entryHash "GENESIS" (confirmed w.rows)) (by decide +kernel)
  obtain ⟨hprev, hforked⟩ := of_decide_eq_true hend
  exact ⟨w, hrun, hprev, fun hchain => hforked hchain.linked⟩

end AuditLog

end PropFirm
