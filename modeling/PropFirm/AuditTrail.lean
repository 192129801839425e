import PropFirm.AuditChain
import PropFirm.Lib.HashChain
import PropFirm.Lib.IsoDates
import PropFirm.Lib.SeparatedFields

/-!
# What the audit log gives away

Rows appended one after another, and the check that the admin page makes of them: each row's hash is computed
again from its fields, and each row carries the hash of the one before. A digest tells its text, and the text
joins five fields by bars after the hash before. The actor is not one of them.
-/

namespace PropFirm

open HashChain IsoDates ProvisionalLog SeparatedFields

/-! ### The table -/

/-- A row of `admin_immutable_audit`, with `payload_json` as `normalizeAuditPayload` writes it and
`created_at` in microseconds. -/
structure StoredAuditRow where
  id : ℕ
  eventType : String
  entityType : String
  entityId : String
  actor : String
  payloadJson : String
  payloadText : String
  prevHash : String
  entryHash : String
  createdAt : ℤ
  deriving DecidableEq

/-- The rows by descending id, and the id that is drawn next. -/
structure AuditTable where
  rows : List StoredAuditRow
  nextId : ℕ

/-- What a caller passes, with the time of the call in milliseconds. -/
structure AuditRequest where
  input : AuditInput
  now : ℤ

namespace AuditRequest

/-- The columns are not null, and take no text with a null character. -/
def Storable (request : AuditRequest) : Prop :=
  request.input.payloadText ≠ "" ∧
    ∀ text ∈ [request.input.eventType, request.input.entityType, request.input.entityId, request.input.actor],
      Char.ofNat 0 ∉ text.toList

instance (request : AuditRequest) : Decidable request.Storable := inferInstanceAs (Decidable (_ ∧ _))

end AuditRequest

/-- The row that is inserted, over what `jsonb` makes of a text. -/
def auditRowFor (sha256 : String → String) (jsonb : String → Option String) (table : AuditTable)
    (request : AuditRequest) : Option StoredAuditRow := do
  let prevHash := orDefault ((table.rows.head?.map StoredAuditRow.entryHash).getD "") "GENESIS"
  let createdAt ← toISOString request.now
  let entryHash := buildAuditHash sha256 prevHash request.input createdAt
  let payloadJson ← jsonb request.input.payloadText
  guard (request.Storable ∧ ∀ row ∈ table.rows, row.entryHash ≠ entryHash)
  some
    { id := table.nextId
      eventType := orDefault request.input.eventType "event"
      entityType := request.input.entityType
      entityId := request.input.entityId
      actor := orDefault request.input.actor "admin"
      payloadJson := payloadJson
      payloadText := request.input.payloadText
      prevHash := prevHash
      entryHash := entryHash
      createdAt := request.now * 1000 }

/-- A failed insertion has drawn its id all the same. -/
def appendImmutableAudit (sha256 : String → String) (jsonb : String → Option String) (table : AuditTable)
    (request : AuditRequest) : AuditTable where
  rows := (auditRowFor sha256 jsonb table request).toList ++ table.rows
  nextId := table.nextId + 1

/-- The log after the calls, one after another. -/
def auditTrail (sha256 : String → String) (jsonb : String → Option String) (requests : List AuditRequest) :
    List StoredAuditRow :=
  (requests.foldl (appendImmutableAudit sha256 jsonb) ⟨[], 1⟩).rows

/-! ### The check -/

namespace StoredAuditRow

/-- The fields of a row that are hashed. -/
def input (row : StoredAuditRow) : AuditInput where
  eventType := row.eventType
  entityType := row.entityType
  entityId := row.entityId
  actor := row.actor
  payloadText := orDefault row.payloadText row.payloadJson

def createdAtText (row : StoredAuditRow) : Option String := toISOString (row.createdAt / 1000)

def recomputedHash (sha256 : String → String) (row : StoredAuditRow) : Option String :=
  row.createdAtText.map (buildAuditHash sha256 row.prevHash row.input)

/-- The fields as they are joined. -/
def hashedFields (row : StoredAuditRow) (createdAt : String) : List String :=
  [row.eventType, row.entityType, row.entityId, orDefault row.input.payloadText "\x7b\x7d", createdAt]

def hashedText (row : StoredAuditRow) : Option String :=
  row.createdAtText.map fun createdAt => "|".intercalate (row.hashedFields createdAt)

/-- Rows that the hashes do not tell apart. -/
structure Agrees (row row' : StoredAuditRow) : Prop where
  prevHash : row.prevHash = row'.prevHash
  entryHash : row.entryHash = row'.entryHash
  hashedText : row.hashedText = row'.hashedText

end StoredAuditRow

/-- No broken link: the rows' hashes are right, and they are a chain. -/
structure AuditIntact (sha256 : String → String) (table : List StoredAuditRow) : Prop where
  hashed : ∀ row ∈ table, row.recomputedHash sha256 = some row.entryHash
  linked : Chained StoredAuditRow.prevHash StoredAuditRow.entryHash "GENESIS" table

instance (sha256 : String → String) (table : List StoredAuditRow) : Decidable (AuditIntact sha256 table) :=
  decidable_of_iff ((∀ row ∈ table, row.recomputedHash sha256 = some row.entryHash) ∧
      Chained StoredAuditRow.prevHash StoredAuditRow.entryHash "GENESIS" table)
    ⟨fun h => ⟨h.1, h.2⟩, fun h => ⟨h.1, h.2⟩⟩

/-- What is used of the digest in hexadecimal. -/
structure IsDigest (sha256 : String → String) : Prop where
  injective : Function.Injective sha256
  plain : ∀ text, '|' ∉ (sha256 text).toList
  ne_empty : ∀ text, sha256 text ≠ ""
  ne_genesis : ∀ text, sha256 text ≠ "GENESIS"

section Trail

variable {sha256 : String → String} {jsonb : String → Option String} {table table' : List StoredAuditRow}
  {row row' : StoredAuditRow}

/-! ### What a hash tells -/

theorem StoredAuditRow.recomputedHash_eq (row : StoredAuditRow) : row.recomputedHash sha256 =
    row.hashedText.map fun text => sha256 (orDefault row.prevHash "GENESIS" ++ "|" ++ text) := by
  rw [recomputedHash, hashedText, Option.map_map]
  refine congrArg (Option.map · row.createdAtText) (funext fun createdAt => congrArg sha256 ?_)
  exact String.intercalate_cons_cons

/-- A change of one field alone changes the text. -/
theorem StoredAuditRow.Agrees.hashedFields_eq {createdAt createdAt' : String} {i : ℕ} {value : String}
    (hagrees : row'.Agrees row) (hcreated : row.createdAtText = some createdAt)
    (hcreated' : row'.createdAtText = some createdAt')
    (hone : row'.hashedFields createdAt' = (row.hashedFields createdAt).set i value) :
    row'.hashedFields createdAt' = row.hashedFields createdAt := by
  have htext := hagrees.hashedText
  rw [StoredAuditRow.hashedText, StoredAuditRow.hashedText, hcreated, hcreated', Option.map_some, Option.map_some,
    hone] at htext
  rw [hone, intercalate_set_inj (Option.some.inj htext)]

namespace AuditIntact

theorem entryHash_eq (hintact : AuditIntact sha256 table) (hrow : row ∈ table) :
    ∃ text, row.hashedText = some text ∧ sha256 (orDefault row.prevHash "GENESIS" ++ "|" ++ text) = row.entryHash := by
  have hhash := hintact.hashed row hrow
  rw [StoredAuditRow.recomputedHash_eq] at hhash
  exact Option.map_eq_some_iff.mp hhash

theorem entryHash_ne (hdigest : IsDigest sha256) (hintact : AuditIntact sha256 table) (hrow : row ∈ table) :
    row.entryHash ≠ "GENESIS" := by
  obtain ⟨text, -, hhash⟩ := hintact.entryHash_eq hrow
  rw [← hhash]
  exact hdigest.ne_genesis _

/-- The hash before is `GENESIS` or a digest. -/
theorem prevHash_plain (hdigest : IsDigest sha256) (hintact : AuditIntact sha256 table) (hrow : row ∈ table) :
    orDefault row.prevHash "GENESIS" = row.prevHash ∧ '|' ∉ row.prevHash.toList := by
  obtain hfirst | ⟨before, hbefore, hprev⟩ := prev_eq_or hintact.linked hrow
  · rw [hfirst]
    decide
  · obtain ⟨text, -, hhash⟩ := hintact.entryHash_eq hbefore
    rw [hprev, ← hhash, orDefault, if_neg (hdigest.ne_empty _)]
    exact ⟨rfl, hdigest.plain _⟩

theorem agrees (hdigest : IsDigest sha256) (hintact : AuditIntact sha256 table) (hintact' : AuditIntact sha256 table')
    (hrow : row ∈ table) (hrow' : row' ∈ table') (hentry : row.entryHash = row'.entryHash) : row.Agrees row' := by
  obtain ⟨text, htext, hhash⟩ := hintact.entryHash_eq hrow
  obtain ⟨text', htext', hhash'⟩ := hintact'.entryHash_eq hrow'
  obtain ⟨hprev, hplain⟩ := hintact.prevHash_plain hdigest hrow
  obtain ⟨hprev', hplain'⟩ := hintact'.prevHash_plain hdigest hrow'
  have hjoined := congrArg String.toList (hdigest.injective (hhash.trans (hentry.trans hhash'.symm)))
  rw [hprev, hprev', String.append_assoc, String.append_assoc, String.toList_append, String.toList_append,
    String.toList_append, String.toList_append] at hjoined
  obtain ⟨hsame, htexts⟩ := (append_inj hplain hplain').mp hjoined
  refine ⟨String.toList_inj.mp hsame, hentry, ?_⟩
  rw [htext, htext', String.toList_inj.mp htexts]

/-- What the hashes do not tell apart passes alike. -/
theorem of_agrees (hintact : AuditIntact sha256 table)
    (hagrees : List.Forall₂ StoredAuditRow.Agrees table table') : AuditIntact sha256 table' where
  hashed := by
    have hhashed := hintact.hashed
    clear hintact
    induction hagrees with
    | nil => exact hhashed
    | @cons row row' table table' hsame _ ih =>
      rw [List.forall_mem_cons] at hhashed ⊢
      refine ⟨?_, ih hhashed.2⟩
      rw [StoredAuditRow.recomputedHash_eq, ← hsame.prevHash, ← hsame.hashedText, ← hsame.entryHash,
        ← StoredAuditRow.recomputedHash_eq, hhashed.1]
  linked := by
    have hcarried := hagrees.imp fun row row' hsame => And.intro hsame.prevHash hsame.entryHash
    exact chained_of_forall₂ hcarried hintact.linked

theorem suffix (hintact : AuditIntact sha256 table) (hend : table' <:+ table) : AuditIntact sha256 table' :=
  ⟨fun row hrow => hintact.hashed row (hend.subset hrow), hintact.linked.suffix hend⟩

end AuditIntact

/-! ### Appending -/

theorem auditRowFor_eq_some {table : AuditTable} {request : AuditRequest}
    (h : auditRowFor sha256 jsonb table request = some row) (hevent : request.input.eventType ≠ "") :
    row.prevHash = orDefault ((table.rows.head?.map StoredAuditRow.entryHash).getD "") "GENESIS" ∧
      row.recomputedHash sha256 = some row.entryHash := by
  rw [auditRowFor] at h
  obtain ⟨createdAt, hcreated, h⟩ := Option.bind_eq_some_iff.mp h
  obtain ⟨payloadJson, -, h⟩ := Option.bind_eq_some_iff.mp h
  obtain ⟨_, hguard, h⟩ := Option.bind_eq_some_iff.mp h
  obtain ⟨hstorable, -⟩ := (Option.guard_eq_some' _).mp hguard
  obtain rfl := Option.some.inj h
  refine ⟨rfl, ?_⟩
  have hms : request.now * 1000 / 1000 = request.now := Int.mul_ediv_cancel _ (by decide)
  have hpayload : orDefault request.input.payloadText payloadJson = request.input.payloadText := if_neg hstorable.1
  have hstored : orDefault request.input.eventType "event" = request.input.eventType := if_neg hevent
  simp only [StoredAuditRow.recomputedHash, StoredAuditRow.createdAtText, StoredAuditRow.input, hms, hcreated,
    hpayload, hstored, Option.map_some]
  rfl

theorem AuditIntact.appended (hdigest : IsDigest sha256) {table : AuditTable} {request : AuditRequest}
    (hintact : AuditIntact sha256 table.rows) (hevent : request.input.eventType ≠ "") :
    AuditIntact sha256 (appendImmutableAudit sha256 jsonb table request).rows := by
  rw [appendImmutableAudit]
  cases hrow : auditRowFor sha256 jsonb table request with
  | none => exact hintact
  | some row =>
    obtain ⟨hprev, hhash⟩ := auditRowFor_eq_some hrow hevent
    refine ⟨List.forall_mem_cons.mpr ⟨hhash, hintact.hashed⟩, ?_, hintact.linked⟩
    change row.prevHash = (table.rows.head?.map StoredAuditRow.entryHash).getD "GENESIS"
    rw [hprev]
    -- the latest row's hash is not empty, so that the fallback is for an empty log
    cases hhead : table.rows.head? with
    | none => rfl
    | some before =>
      obtain ⟨text, -, hbefore⟩ := hintact.entryHash_eq (List.mem_of_mem_head? hhead)
      rw [Option.map_some, Option.getD_some, Option.getD_some, orDefault, if_neg (hbefore ▸ hdigest.ne_empty _)]

theorem auditTrail_intact (hdigest : IsDigest sha256) {requests : List AuditRequest}
    (hevents : ∀ request ∈ requests, request.input.eventType ≠ "") :
    AuditIntact sha256 (auditTrail sha256 jsonb requests) := by
  have hrun : ∀ table : AuditTable, AuditIntact sha256 table.rows →
      AuditIntact sha256 (requests.foldl (appendImmutableAudit sha256 jsonb) table).rows := by
    induction requests with
    | nil => exact fun _ hintact => hintact
    | cons request requests ih =>
      intro table hintact
      obtain ⟨hevent, hevents⟩ := List.forall_mem_cons.mp hevents
      exact ih hevents _ (hintact.appended hdigest hevent)
  exact hrun ⟨[], 1⟩ ⟨fun _ hrow => absurd hrow List.not_mem_nil, trivial⟩

/-- What passes is a beginning of the log, as far as the rows are hashed, and rows on top of it whose hashes
the log does not have. -/
theorem AuditIntact.exists_kept (hdigest : IsDigest sha256) {trail : List StoredAuditRow}
    (htrail : AuditIntact sha256 trail) (hintact : AuditIntact sha256 table) :
    ∃ fresh common kept, table = fresh ++ common ∧ kept <:+ trail ∧ List.Forall₂ StoredAuditRow.Agrees kept common ∧
      ∀ row' ∈ fresh, ∀ row ∈ trail, row.entryHash ≠ row'.entryHash := by
  apply exists_common htrail.linked hintact.linked
  · exact fun row hrow => htrail.entryHash_ne hdigest hrow
  · exact fun row hrow => hintact.entryHash_ne hdigest hrow
  · intro row hrow row' hrow' hentry
    have hsame := htrail.agrees hdigest hintact hrow hrow' hentry
    exact ⟨hsame.prevHash, hsame⟩

end Trail

/-- Rows of the log with their fields as they are hashed, and under them what was under them: anything else
shows, unless it is hashed anew at the end. A change of one hashed field is something else. -/
theorem auditTrail_tamper_evident {sha256 : String → String} (hdigest : IsDigest sha256)
    (jsonb : String → Option String) {requests : List AuditRequest}
    (hevents : ∀ request ∈ requests, request.input.eventType ≠ "") :
    let trail := auditTrail sha256 jsonb requests
    AuditIntact sha256 trail ∧
    (∀ table, AuditIntact sha256 table → ∃ fresh common kept, table = fresh ++ common ∧ kept <:+ trail ∧
      List.Forall₂ StoredAuditRow.Agrees kept common ∧ ∀ row' ∈ fresh, ∀ row ∈ trail, row.entryHash ≠ row'.entryHash) ∧
    (∀ kept common, kept <:+ trail → List.Forall₂ StoredAuditRow.Agrees kept common → AuditIntact sha256 common) ∧
    ∀ (row row' : StoredAuditRow) (createdAt createdAt' : String) (i : ℕ) (value : String), row'.Agrees row →
      row.createdAtText = some createdAt → row'.createdAtText = some createdAt' →
      row'.hashedFields createdAt' = (row.hashedFields createdAt).set i value →
      row'.hashedFields createdAt' = row.hashedFields createdAt := by
  have htrail := @auditTrail_intact sha256 jsonb hdigest requests hevents
  refine ⟨htrail, ?_, ?_, ?_⟩
  · intro table hintact
    exact htrail.exists_kept hdigest hintact
  · intro kept common hkept hagrees
    exact (htrail.suffix hkept).of_agrees hagrees
  · intro row row' createdAt createdAt' i value hagrees hcreated hcreated' hone
    exact hagrees.hashedFields_eq hcreated hcreated' hone

/-! ### Two approvals -/

/-- A digest without bars, of which nothing is lost. -/
def barlessDigest (text : String) : String :=
  .ofList ('#' :: text.toList.flatMap fun c => if c = '|' then ['0', '0'] else ['1', c])

theorem barlessDigest_isDigest : IsDigest barlessDigest where
  injective := by
    intro text text' h
    have hcodes := (List.cons_inj_right '#').mp (String.ofList_injective h)
    rw [← String.toList_inj]
    generalize text.toList = cs at hcodes
    generalize text'.toList = cs' at hcodes
    clear h
    induction cs generalizing cs' with
    | nil =>
      cases cs' with
      | nil => rfl
      | cons c' cs' =>
        rw [List.flatMap_cons] at hcodes
        split at hcodes <;> cases hcodes
    | cons c cs ih =>
      cases cs' with
      | nil =>
        rw [List.flatMap_cons] at hcodes
        split at hcodes <;> cases hcodes
      | cons c' cs' =>
        rw [List.flatMap_cons, List.flatMap_cons] at hcodes
        obtain ⟨hc, hcodes⟩ := List.append_inj hcodes (by split <;> split <;> rfl)
        rw [ih cs' hcodes]
        split at hc
        · split at hc
          · rename_i hbar hbar'
            rw [hbar, hbar']
          · exact absurd (List.cons_eq_cons.mp hc).1 (by decide)
        · split at hc
          · exact absurd (List.cons_eq_cons.mp hc).1 (by decide)
          · rw [(List.cons_eq_cons.mp (List.cons_eq_cons.mp hc).2).1]
  plain text h := by
    rw [barlessDigest, String.toList_ofList, List.mem_cons, List.mem_flatMap] at h
    obtain h | ⟨c, -, h⟩ := h
    · exact absurd h (by decide)
    · split at h
      · exact absurd h (by decide)
      · rename_i hc
        obtain h | h := List.mem_cons.mp h
        · exact absurd h (by decide)
        · exact hc (List.mem_singleton.mp h).symm
  ne_empty text h := by
    have hlist := congrArg String.toList h
    rw [barlessDigest, String.toList_ofList] at hlist
    cases hlist
  ne_genesis text h := by
    have hlist := congrArg String.toList h
    rw [barlessDigest, String.toList_ofList] at hlist
    exact absurd (List.cons_eq_cons.mp hlist).1 (by decide)

/-- The documents of a user are approved. -/
def approval (userId : String) : AuditRequest where
  input :=
    { eventType := "kyc_approved"
      entityType := "user"
      entityId := userId
      actor := "admin:a@firm.test"
      payloadText := "\x7b\x7d" }
  now := 1785000000000

theorem auditTrail_of_approvals :
    (auditTrail barlessDigest some [approval "3", approval "4"]).map StoredAuditRow.entityId = ["4", "3"] ∧
      ∀ table, AuditIntact barlessDigest table → ∃ fresh common kept, table = fresh ++ common ∧
        kept <:+ auditTrail barlessDigest some [approval "3", approval "4"] ∧
        List.Forall₂ StoredAuditRow.Agrees kept common ∧
        ∀ row' ∈ fresh, ∀ row ∈ auditTrail barlessDigest some [approval "3", approval "4"],
          row.entryHash ≠ row'.entryHash := by
  have hevents : ∀ request ∈ [approval "3", approval "4"], request.input.eventType ≠ "" := by decide
  exact ⟨by decide +kernel, (auditTrail_tamper_evident barlessDigest_isDigest some hevents).2.1⟩

/-- Another actor is not seen, nor fields that are grouped otherwise, nor a last row that is hashed anew. -/
theorem auditTrail_changes_unseen :
    let trail := auditTrail barlessDigest some [approval "3|4"]
    let otherActor := trail.map fun row => { row with actor := "admin:b@firm.test" }
    let regrouped := trail.map fun row => { row with entityType := "user|3", entityId := "4" }
    let rehashed := auditTrail barlessDigest some [approval "5"]
    otherActor ≠ trail ∧ AuditIntact barlessDigest otherActor ∧
    regrouped ≠ trail ∧ AuditIntact barlessDigest regrouped ∧
    rehashed ≠ trail ∧ rehashed.length = trail.length ∧ AuditIntact barlessDigest rehashed := by
  decide +kernel

end PropFirm
