import Mathlib
import PropFirm.Lib.SealedRecords
import PropFirm.Lib.Transition

/-!
# Rotating the encryption keys

`rotate-encryption-keys.js --apply` goes over the KYC files and the TOTP secrets, finds out which key each
is under, and writes those that are not under the current key again. It reads all files before it writes
one, and reads a column before it writes it back in one transaction. The application runs meanwhile: it
enrols, confirms and clears secrets, uploads and deletes files. The administrators' secrets are written by
requests that put back what they have read.

The pending enrolments, in the `totp_temp_secret` columns, are not among the places that the script goes to.
-/

namespace PropFirm

open SealedRecords Transition

/-- The keys that the environment gives; `none` where one is not set, or is too short. -/
structure RotationEnv (K : Type) where
  production : Bool
  kycFileEncryptionKey : Option K
  oldKycFileEncryptionKey : Option K
  oldAdminJwtSecret : Option K
  oldJwtSecret : Option K
  adminJwtSecret : Option K
  jwtSecret : Option K
  totpEncryptionKey : Option K
  oldTotpEncryptionKey : Option K

inductive SecretColumn
  | usersTotpSecret
  | usersTotpTempSecret
  | platformAdminsTotpSecret
  | platformAdminsTotpTempSecret
  | platformSettingsAdminTotpSecret
  deriving DecidableEq

inductive RecordPlace
  | kycFile (path : String)
  | secret (column : SecretColumn) (id : Nat)
  deriving DecidableEq

/-- The columns that the script goes over. -/
def totpLocations : List SecretColumn :=
  [.usersTotpSecret, .platformAdminsTotpSecret, .platformSettingsAdminTotpSecret]

/-- The secret of an enrolment that is not confirmed, in a column that the script does not go over. -/
def RecordPlace.pending : RecordPlace → Bool
  | .kycFile _ => false
  | .secret column _ => column ∉ totpLocations

structure Rotation (K I P C : Type) where
  env : RotationEnv K
  kyc : Cipher K I P C
  totp : Cipher K I P C

variable {K I P C : Type}

/-- Where the script is, with what it has read and will write. -/
inductive RotationPhase (P : Type)
  | idle
  | readingFiles (todo : List String) (recoverable : List (String × P))
  | rewritingFiles (recoverable : List (String × P))
  | selecting (columns : List SecretColumn)
  | updating (column : SecretColumn) (stale : List (Nat × P)) (columns : List SecretColumn)

/-- What the script has read and not yet written, with the plaintexts. -/
def RotationPhase.unwritten {P : Type} : RotationPhase P → List (RecordPlace × P)
  | .idle | .selecting _ => []
  | .readingFiles _ recoverable => recoverable.map fun file => (.kycFile file.1, file.2)
  | .rewritingFiles recoverable => recoverable.map fun file => (.kycFile file.1, file.2)
  | .updating column stale _ => stale.map fun row => (.secret column row.1, row.2)

/-- The places that a run has still to go to, together with those it has failed at and those it leaves out. -/
def RotationPhase.Outstanding {P : Type} (skipped : List String) : RotationPhase P → RecordPlace → Prop
  | .idle, _ | .readingFiles _ _, .secret _ _ | .rewritingFiles _, .secret _ _ => True
  | .readingFiles todo recoverable, .kycFile path =>
    path ∈ todo ∨ path ∈ recoverable.map Prod.fst ∨ path ∈ skipped
  | .rewritingFiles recoverable, .kycFile path => path ∈ recoverable.map Prod.fst ∨ path ∈ skipped
  | .selecting _, .kycFile path | .updating _ _ _, .kycFile path => path ∈ skipped
  | .selecting columns, .secret column _ => column ∈ columns ∨ column ∉ totpLocations
  | .updating column' stale columns, .secret column id =>
    column = column' ∧ id ∈ stale.map Prod.fst ∨ column ∈ columns ∨ column ∉ totpLocations

/-- `skipped` are the files that the script has failed to write, which it only logs. `completed` is whether
a run has ended with no failure, and `rewritten` are the places that the script has written since. -/
structure RotationWorld (K P C : Type) where
  vault : Vault RecordPlace K P C
  phase : RotationPhase P
  failures : Nat
  adminRecords : List (Nat × Option C × Option C)
  skipped : List String
  completed : Bool
  rewritten : List RecordPlace

/-- What a request makes of the two secrets of an administrator. -/
inductive AdminPatch (I P : Type)
  | setup (iv : I) (secret : P)
  | verifySetup (iv : I) (secret : P)
  | keep
  | disable

inductive RotationAction (I P : Type)
  | start
  | readFile (readable : Bool)
  | filesRead
  | rewriteFile (iv : Option I)
  | filesRewritten
  | selectSecrets
  | commitSecrets (ivs : List I)
  | rollbackSecrets
  | finish
  | crash
  | uploadKyc (path : String) (iv : I) (document : P)
  | deleteKyc (path : String)
  | setupTotp (id : Nat) (iv : I) (secret : P)
  | verifySetupTotp (id : Nat) (iv : I) (secret : P)
  | disableTotp (id : Nat)
  | readAdmin (id : Nat)
  | persistAdmin (request : Nat) (patch : AdminPatch I P)

namespace RotationEnv

variable (env : RotationEnv K)

def kycCandidates : List K :=
  [env.kycFileEncryptionKey, env.oldKycFileEncryptionKey, env.oldAdminJwtSecret, env.oldJwtSecret,
    env.adminJwtSecret, env.jwtSecret].filterMap id

def totpCandidates : List K := [env.totpEncryptionKey, env.oldTotpEncryptionKey].filterMap id

/-- The key that the application has for the files. -/
def getEncryptionKey : Option K :=
  env.kycFileEncryptionKey <|> if env.production then none else env.adminJwtSecret <|> env.jwtSecret

/-- The application's keys are supplied, and the script tries them first. -/
def CurrentFirst : Prop :=
  (env.getEncryptionKey.isSome ∧ env.kycCandidates.head? = env.getEncryptionKey) ∧
    env.totpEncryptionKey.isSome

instance [DecidableEq K] : Decidable env.CurrentFirst := inferInstanceAs (Decidable (_ ∧ _))

end RotationEnv

namespace Rotation

variable (r : Rotation K I P C)

def buildCandidates : RecordPlace → List K
  | .kycFile _ => r.env.kycCandidates
  | .secret _ _ => r.env.totpCandidates

def ring : Keyring RecordPlace K I P C where
  cipher
    | .kycFile _ => r.kyc
    | .secret _ _ => r.totp
  current
    | .kycFile _ => r.env.getEncryptionKey
    | .secret _ _ => r.env.totpEncryptionKey
  candidates := r.buildCandidates

/-- `collectEncFiles`. -/
def encFiles (v : Vault RecordPlace K P C) : List String :=
  (v.places.filterMap fun
    | .kycFile path => if (v.stored (.kycFile path)).isSome then some path else none
    | .secret _ _ => none).dedup

/-- The rows whose column is not null. -/
def enrolled (v : Vault RecordPlace K P C) (column : SecretColumn) : List Nat :=
  (v.places.filterMap fun
    | .kycFile _ => none
    | .secret column' id =>
      if column' = column ∧ (v.stored (.secret column' id)).isSome then some id else none).dedup

def staleSecrets (v : Vault RecordPlace K P C) (column : SecretColumn) : List (Nat × P) :=
  (enrolled v column).filterMap fun id =>
    match v.find r.ring (.secret column id) with
    | some (_ + 1, plaintext) => some (id, plaintext)
    | _ => none

def brokenSecrets (v : Vault RecordPlace K P C) (column : SecretColumn) : List Nat :=
  (enrolled v column).filter fun id => (v.find r.ring (.secret column id)).isNone

/-- The statements of a transaction, one for each secret. -/
def updateSecrets (newKey : K) (column : SecretColumn) :
    List ((Nat × P) × I) → Vault RecordPlace K P C → Vault RecordPlace K P C
  | [], v => v
  | ((id, plaintext), iv) :: rest, v =>
    updateSecrets newKey column rest (v.resealAt r.ring (.secret column id) newKey iv plaintext)

/-- Both secrets are written, whichever of them the request is about. -/
def persistAdminSecurityFields (v : Vault RecordPlace K P C) (record : Nat × Option C × Option C) :
    AdminPatch I P → Option (Vault RecordPlace K P C)
  | .setup iv plaintext => r.env.totpEncryptionKey.map fun key =>
    (v.writeBack (.secret .platformAdminsTotpSecret record.1) record.2.1).sealAt r.ring
      (.secret .platformAdminsTotpTempSecret record.1) key iv plaintext
  | .verifySetup iv plaintext => r.env.totpEncryptionKey.map fun key =>
    (v.sealAt r.ring (.secret .platformAdminsTotpSecret record.1) key iv plaintext).erase
      (.secret .platformAdminsTotpTempSecret record.1)
  | .keep => some ((v.writeBack (.secret .platformAdminsTotpSecret record.1) record.2.1).writeBack
      (.secret .platformAdminsTotpTempSecret record.1) record.2.2)
  | .disable => some ((v.erase (.secret .platformAdminsTotpSecret record.1)).erase
      (.secret .platformAdminsTotpTempSecret record.1))

/-- A run begins with no failures; with no key for the files it goes on to the secrets. -/
def beginRun (w : RotationWorld K P C) : RotationWorld K P C :=
  if r.env.kycCandidates = [] then
    { w with phase := .rewritingFiles [], failures := 1, skipped := [] }
  else { w with phase := .readingFiles (encFiles w.vault) [], failures := 0, skipped := [] }

def beginTotp (w : RotationWorld K P C) : RotationWorld K P C :=
  if r.env.totpCandidates = [] then { w with phase := .selecting [], failures := w.failures + 1 }
  else { w with phase := .selecting totpLocations }

/-- The script's writes, which are noted once a run has been completed. -/
def wrote (w : RotationWorld K P C) (vault : Vault RecordPlace K P C) (places : List RecordPlace) :
    RotationWorld K P C :=
  { w with vault := vault, rewritten := if w.completed then places ++ w.rewritten else w.rewritten }

def readFile (w : RotationWorld K P C) (path : String) (todo : List String) (recoverable : List (String × P))
    (readable : Bool) : RotationWorld K P C :=
  match if readable then w.vault.find r.ring (.kycFile path) else none with
  | none => { w with phase := .readingFiles todo recoverable, failures := w.failures + 1 }
  | some (0, _) => { w with phase := .readingFiles todo recoverable }
  | some (_ + 1, plaintext) => { w with phase := .readingFiles todo (recoverable ++ [(path, plaintext)]) }

/-- A file that is gone cannot be copied. -/
def rewriteFile (w : RotationWorld K P C) (newKey : K) (path : String) (plaintext : P)
    (rest : List (String × P)) (iv : Option I) : RotationWorld K P C :=
  match w.vault.stored (.kycFile path), iv with
  | none, _ => { w with phase := .rewritingFiles rest }
  | some _, none => { w with phase := .rewritingFiles rest, skipped := path :: w.skipped }
  | some _, some iv =>
    { wrote w (w.vault.resealAt r.ring (.kycFile path) newKey iv plaintext) [.kycFile path] with
      phase := .rewritingFiles rest }

def selectSecrets (w : RotationWorld K P C) (column : SecretColumn) (columns : List SecretColumn) :
    RotationWorld K P C :=
  let failures := w.failures + (r.brokenSecrets w.vault column).length
  if r.staleSecrets w.vault column = [] then { w with phase := .selecting columns, failures := failures }
  else { w with phase := .updating column (r.staleSecrets w.vault column) columns, failures := failures }

def startStep (w : RotationWorld K P C) : Option (RotationWorld K P C) :=
  match w.phase with
  | .idle => some (r.beginRun w)
  | _ => none

def readFileStep (w : RotationWorld K P C) (readable : Bool) : Option (RotationWorld K P C) :=
  match w.phase with
  | .readingFiles (path :: todo) recoverable => some (r.readFile w path todo recoverable readable)
  | _ => none

def filesReadStep (w : RotationWorld K P C) : Option (RotationWorld K P C) :=
  match w.phase with
  | .readingFiles [] recoverable => some { w with phase := .rewritingFiles recoverable }
  | _ => none

def rewriteFileStep (w : RotationWorld K P C) (iv : Option I) : Option (RotationWorld K P C) :=
  match w.phase, r.env.kycCandidates.head? with
  | .rewritingFiles ((path, plaintext) :: rest), some newKey =>
    some (r.rewriteFile w newKey path plaintext rest iv)
  | _, _ => none

def filesRewrittenStep (w : RotationWorld K P C) : Option (RotationWorld K P C) :=
  match w.phase with
  | .rewritingFiles [] => some (r.beginTotp w)
  | _ => none

def selectSecretsStep (w : RotationWorld K P C) : Option (RotationWorld K P C) :=
  match w.phase with
  | .selecting (column :: columns) => some (r.selectSecrets w column columns)
  | _ => none

/-- The rows are written as they were read, whatever has become of them. -/
def commitSecretsStep (w : RotationWorld K P C) (ivs : List I) : Option (RotationWorld K P C) :=
  match w.phase, r.env.totpCandidates.head? with
  | .updating column stale columns, some newKey => do
    guard (ivs.length = stale.length)
    let vault := r.updateSecrets newKey column (stale.zip ivs) w.vault
    pure { wrote w vault (stale.map fun row => .secret column row.1) with phase := .selecting columns }
  | _, _ => none

def rollbackSecretsStep (w : RotationWorld K P C) : Option (RotationWorld K P C) :=
  match w.phase with
  | .updating _ _ columns => some { w with phase := .selecting columns, failures := w.failures + 1 }
  | _ => none

def finishStep (w : RotationWorld K P C) : Option (RotationWorld K P C) :=
  match w.phase with
  | .selecting [] => some { w with phase := .idle, completed := w.completed || w.failures == 0 }
  | _ => none

def step (w : RotationWorld K P C) : RotationAction I P → Option (RotationWorld K P C)
  | .start => r.startStep w
  | .readFile readable => r.readFileStep w readable
  | .filesRead => filesReadStep w
  | .rewriteFile iv => r.rewriteFileStep w iv
  | .filesRewritten => r.filesRewrittenStep w
  | .selectSecrets => r.selectSecretsStep w
  | .commitSecrets ivs => r.commitSecretsStep w ivs
  | .rollbackSecrets => rollbackSecretsStep w
  | .finish => finishStep w
  | .crash => some { w with phase := .idle }
  | .uploadKyc path iv document => do
    guard (.kycFile path ∉ w.vault.places)
    let key ← r.env.getEncryptionKey
    pure { w with vault := w.vault.sealAt r.ring (.kycFile path) key iv document }
  | .deleteKyc path => some { w with vault := w.vault.erase (.kycFile path) }
  | .setupTotp id iv plaintext => do
    let key ← r.env.totpEncryptionKey
    pure { w with vault := w.vault.sealAt r.ring (.secret .usersTotpTempSecret id) key iv plaintext }
  | .verifySetupTotp id iv plaintext => do
    let key ← r.env.totpEncryptionKey
    let vault := w.vault.sealAt r.ring (.secret .usersTotpSecret id) key iv plaintext
    pure { w with vault := vault.erase (.secret .usersTotpTempSecret id) }
  | .disableTotp id =>
    let vault := w.vault.erase (.secret .usersTotpSecret id)
    some { w with vault := vault.erase (.secret .usersTotpTempSecret id) }
  | .readAdmin id =>
    let record := (id, w.vault.stored (.secret .platformAdminsTotpSecret id),
      w.vault.stored (.secret .platformAdminsTotpTempSecret id))
    some { w with adminRecords := w.adminRecords ++ [record] }
  | .persistAdmin k patch => do
    let record ← w.adminRecords[k]?
    let vault ← r.persistAdminSecurityFields w.vault record patch
    pure { w with vault := vault, adminRecords := w.adminRecords.eraseIdx k }

/-- The records before a rotation, with what the supplied keys can read of them. -/
def bootVault (records : List (RecordPlace × C)) : Vault RecordPlace K P C where
  stored l := records.lookup l
  places := records.map Prod.fst
  listed l hstored := by
    by_contra habsent
    refine hstored (List.lookup_eq_none_iff.mpr fun record hmem => bne_iff_ne.mpr ?_)
    rintro rfl
    exact habsent (List.mem_map_of_mem hmem)
  meant l := (records.lookup l).bind fun c =>
    (r.buildCandidates l).findSome? fun k => (r.ring.read l k c).map (k, ·)

def boot (records : List (RecordPlace × C)) : RotationWorld K P C :=
  ⟨r.bootVault records, .idle, 0, [], [], false, []⟩

/-- No record that is stored is under a key other than the current one. -/
def UnderCurrent (w : RotationWorld K P C) (l : RecordPlace) : Prop :=
  ∀ c ∈ w.vault.stored l, ∀ k ∈ r.buildCandidates l, (r.ring.read l k c).isSome → r.ring.current l = some k

/-- The script is given the keys the application has. What it writes to a row is what the row holds; it ends
with no failure only if the files that it failed to write are gone and no pending enrolment is under an old
key. A request that puts back an administrator's secret finds it unchanged. -/
def KeepsRecords (w : RotationWorld K P C) : RotationAction I P → Prop
  | .start => r.env.CurrentFirst
  | .commitSecrets _ => ∀ row ∈ w.phase.unwritten, w.vault.Holds r.ring row.1 row.2
  | .finish => w.failures = 0 → (∀ path ∈ w.skipped, w.vault.stored (.kycFile path) = none) ∧
      ∀ l ∈ w.vault.places, l.pending = true → r.UnderCurrent w l
  | .persistAdmin k (.setup _ _) => ∀ record ∈ w.adminRecords[k]?,
      record.2.1 = w.vault.stored (.secret .platformAdminsTotpSecret record.1)
  | .persistAdmin k .keep => ∀ record ∈ w.adminRecords[k]?,
      record.2.1 = w.vault.stored (.secret .platformAdminsTotpSecret record.1) ∧
      record.2.2 = w.vault.stored (.secret .platformAdminsTotpTempSecret record.1)
  | .readFile _ | .filesRead | .rewriteFile _ | .filesRewritten | .selectSecrets | .rollbackSecrets | .crash
  | .uploadKyc _ _ _ | .deleteKyc _ | .setupTotp _ _ _ | .verifySetupTotp _ _ _ | .disableTotp _
  | .readAdmin _ | .persistAdmin _ (.verifySetup _ _) | .persistAdmin _ .disable => True

variable {r : Rotation K I P C} {w w' : RotationWorld K P C} {v v' v'' : Vault RecordPlace K P C}
  {l : RecordPlace} {key : K} {iv : I} {plaintext : P} {path : String} {column : SecretColumn} {id n : Nat}

theorem candidates_kycFile : r.ring.candidates (.kycFile path) = r.env.kycCandidates := rfl

theorem candidates_secret : r.ring.candidates (.secret column id) = r.env.totpCandidates := rfl

theorem mem_candidates_of_current (hcurrent : r.ring.current l = some key) :
    key ∈ r.ring.candidates l := by
  cases l with
  | kycFile path =>
    rw [candidates_kycFile, RotationEnv.kycCandidates, List.mem_filterMap]
    replace hcurrent : r.env.getEncryptionKey = some key := hcurrent
    rw [RotationEnv.getEncryptionKey, Option.orElse_eq_orElse, Option.orElse_eq_or, Option.or_eq_some_iff]
      at hcurrent
    obtain hkyc | ⟨-, hfallback⟩ := hcurrent
    · exact ⟨_, List.mem_cons_self, hkyc⟩
    · split at hfallback
      · cases hfallback
      · rw [Option.orElse_eq_or, Option.or_eq_some_iff] at hfallback
        obtain hadmin | ⟨-, hjwt⟩ := hfallback
        · exact ⟨_, by simp, hadmin⟩
        · exact ⟨_, by simp, hjwt⟩
  | secret column id =>
    rw [candidates_secret, RotationEnv.totpCandidates, List.mem_filterMap]
    exact ⟨_, List.mem_cons_self, hcurrent⟩

/-- With the current keys supplied, the key that records are written under is the one they are read with
first. -/
theorem hasCurrent (hfirst : r.env.CurrentFirst) (l : RecordPlace) : r.ring.HasCurrent l := by
  obtain ⟨⟨hkyc, hhead⟩, htotp⟩ := hfirst
  cases l with
  | kycFile path =>
    obtain ⟨cur, hcur⟩ := Option.isSome_iff_exists.mp hkyc
    refine ⟨cur, hcur, ?_⟩
    rw [candidates_kycFile, ← List.head?_eq_getElem?, hhead, hcur]
  | secret column id =>
    obtain ⟨cur, hcur⟩ := Option.isSome_iff_exists.mp htotp
    refine ⟨cur, hcur, ?_⟩
    simp [candidates_secret, RotationEnv.totpCandidates, hcur]

theorem mem_encFiles : path ∈ encFiles v ↔ v.stored (.kycFile path) ≠ none := by
  rw [encFiles, List.mem_dedup, List.mem_filterMap]
  constructor
  · rintro ⟨l, -, hl⟩
    cases l with
    | kycFile path' =>
      obtain ⟨hstored, heq⟩ := Option.ite_none_right_eq_some.mp hl
      obtain rfl := Option.some.inj heq
      exact Option.isSome_iff_ne_none.mp hstored
    | secret column id => cases hl
  · intro hstored
    exact ⟨_, v.listed _ hstored, if_pos (Option.isSome_iff_ne_none.mpr hstored)⟩

theorem mem_enrolled : id ∈ enrolled v column ↔ v.stored (.secret column id) ≠ none := by
  rw [enrolled, List.mem_dedup, List.mem_filterMap]
  constructor
  · rintro ⟨l, -, hl⟩
    cases l with
    | kycFile path => cases hl
    | secret column' id' =>
      obtain ⟨⟨rfl, hstored⟩, heq⟩ := Option.ite_none_right_eq_some.mp hl
      obtain rfl := Option.some.inj heq
      exact Option.isSome_iff_ne_none.mp hstored
  · intro hstored
    exact ⟨_, v.listed _ hstored, if_pos ⟨rfl, Option.isSome_iff_ne_none.mpr hstored⟩⟩

/-! ### The application's writes -/

/-- What a write of the application leaves as it was. A file is written once. -/
structure AppWrite (r : Rotation K I P C) (v v' : Vault RecordPlace K P C) : Prop where
  sound : v.Sound r.ring → v'.Sound r.ring
  current : ∀ l, v.CurrentAt r.ring l → v'.CurrentAt r.ring l
  places : v.places ⊆ v'.places
  files : ∀ path, .kycFile path ∈ v.places →
    v'.stored (.kycFile path) = v.stored (.kycFile path) ∨ v'.stored (.kycFile path) = none

theorem AppWrite.trans (hfirst : AppWrite r v v') (hsecond : AppWrite r v' v'') : AppWrite r v v'' where
  sound hsound := hsecond.sound (hfirst.sound hsound)
  current l hcurrent := hsecond.current l (hfirst.current l hcurrent)
  places := fun _ hmem => hsecond.places (hfirst.places hmem)
  files path hpath := by
    obtain hsame | hgone := hsecond.files path (hfirst.places hpath)
    · rw [hsame]
      exact hfirst.files path hpath
    · exact .inr hgone

theorem AppWrite.sealSecret (hkey : r.env.totpEncryptionKey = some key) :
    AppWrite r v (v.sealAt r.ring (.secret column id) key iv plaintext) where
  sound hsound := hsound.sealAt (mem_candidates_of_current hkey)
  current l' hcurrent := Vault.current_sealAt hkey l' fun _ => hcurrent
  places := List.subset_cons_self _ _
  files path _ := by
    rw [Vault.stored_sealAt, Function.update_of_ne RecordPlace.noConfusion]
    exact .inl rfl

theorem AppWrite.sealFile (hkey : r.env.getEncryptionKey = some key) (hfresh : .kycFile path ∉ v.places) :
    AppWrite r v (v.sealAt r.ring (.kycFile path) key iv plaintext) where
  sound hsound := hsound.sealAt (mem_candidates_of_current hkey)
  current l' hcurrent := Vault.current_sealAt hkey l' fun _ => hcurrent
  places := List.subset_cons_self _ _
  files path' hpath := by
    have hne : RecordPlace.kycFile path' ≠ .kycFile path := fun heq => hfresh (heq ▸ hpath)
    rw [Vault.stored_sealAt, Function.update_of_ne hne]
    exact .inl rfl

theorem AppWrite.erase : AppWrite r v (v.erase l) where
  sound hsound := hsound.erase
  current l' hcurrent := Vault.current_erase l' fun _ => hcurrent
  places := List.Subset.refl _
  files path hpath := by
    by_cases hl : RecordPlace.kycFile path = l
    · exact .inr (hl ▸ Function.update_self ..)
    · exact .inl (Function.update_of_ne hl ..)

/-- What is put back as it was leaves the vault as it is. -/
theorem AppWrite.writeBack {found : Option C} (hfound : found = v.stored l) :
    AppWrite r v (v.writeBack l found) where
  sound hsound := by
    subst hfound
    refine ⟨?_, hsound.supplied, ?_⟩
    · rw [Vault.stored_writeBack]
      exact hsound.intact
    · rw [Vault.stored_writeBack]
      exact hsound.known
  current l' hcurrent := by
    subst hfound
    exact hcurrent.congr (congrFun (Vault.stored_writeBack l) l') rfl
  places := List.subset_cons_self _ _
  files path hpath := by
    subst hfound
    exact .inl (congrFun (Vault.stored_writeBack l) _)

theorem AppWrite.persistAdmin {record : Nat × Option C × Option C} {patch : AdminPatch I P} {k : Nat}
    (hrecord : w.adminRecords[k]? = some record) (hkeeps : r.KeepsRecords w (.persistAdmin k patch))
    (hwrite : r.persistAdminSecurityFields w.vault record patch = some v') : AppWrite r w.vault v' := by
  cases patch with
  | setup iv plaintext =>
    obtain ⟨key, hkey, rfl⟩ := Option.map_eq_some_iff.mp hwrite
    exact (writeBack (hkeeps record hrecord)).trans (sealSecret hkey)
  | verifySetup iv plaintext =>
    obtain ⟨key, hkey, rfl⟩ := Option.map_eq_some_iff.mp hwrite
    exact (sealSecret hkey).trans erase
  | keep =>
    obtain rfl := Option.some.inj hwrite
    obtain ⟨hlive, htemp⟩ := hkeeps record hrecord
    refine (writeBack hlive).trans (writeBack ?_)
    rw [hlive, Vault.stored_writeBack]
    exact htemp
  | disable =>
    obtain rfl := Option.some.inj hwrite
    exact erase.trans erase

/-! ### The script's steps -/

/-- Every record is intact. What a run without failures has gone past is under the current key, and so is
everything once such a run has ended, after which there is nothing left to write. -/
structure Inv (r : Rotation K I P C) (w : RotationWorld K P C) : Prop where
  sound : w.vault.Sound r.ring
  first : w.phase ≠ .idle → r.env.CurrentFirst
  files : ∀ path plaintext, (.kycFile path, plaintext) ∈ w.phase.unwritten →
    .kycFile path ∈ w.vault.places ∧
      (w.vault.stored (.kycFile path) ≠ none → w.vault.Holds r.ring (.kycFile path) plaintext)
  covered : w.failures = 0 → ∀ l, w.phase.Outstanding w.skipped l ∨ w.vault.CurrentAt r.ring l
  done : w.completed = true → (∀ l, w.vault.CurrentAt r.ring l) ∧ w.phase.unwritten = []
  unchanged : w.rewritten = []

/-- A write of the application, whatever the script is doing. -/
theorem Inv.application {records : List (Nat × Option C × Option C)} (hinv : Inv r w)
    (hwrite : AppWrite r w.vault v') : Inv r { w with vault := v', adminRecords := records } where
  sound := hwrite.sound hinv.sound
  first := hinv.first
  files path plaintext hfile := by
    obtain ⟨hplace, hholds⟩ := hinv.files path plaintext hfile
    refine ⟨hwrite.places hplace, fun hstored => ?_⟩
    obtain hsame | hgone := hwrite.files path hplace
    · rw [hsame] at hstored
      obtain ⟨c, hc, hread⟩ := hholds hstored
      exact ⟨c, hsame.trans hc, hread⟩
    · exact absurd hgone hstored
  covered hfailures l := (hinv.covered hfailures l).imp_right (hwrite.current l)
  done hcompleted :=
    ⟨fun l => hwrite.current l ((hinv.done hcompleted).1 l), (hinv.done hcompleted).2⟩
  unchanged := hinv.unchanged

theorem Inv.beginRun (hinv : Inv r w) (hfirst : r.env.CurrentFirst) : Inv r (r.beginRun w) := by
  rw [Rotation.beginRun]
  split
  · exact ⟨hinv.sound, fun _ => hfirst, by rintro _ _ ⟨⟩, by rintro ⟨⟩,
      fun hcompleted => ⟨(hinv.done hcompleted).1, rfl⟩, hinv.unchanged⟩
  · refine ⟨hinv.sound, fun _ => hfirst, by rintro _ _ ⟨⟩, fun _ l => ?_,
      fun hcompleted => ⟨(hinv.done hcompleted).1, rfl⟩, hinv.unchanged⟩
    cases l with
    | kycFile path =>
      by_cases hstored : w.vault.stored (.kycFile path) = none
      · exact .inr (hinv.sound.current_of_not_stored hstored)
      · exact .inl (.inl (mem_encFiles.mpr hstored))
    | secret column id => exact .inl trivial

theorem Inv.beginTotp (hinv : Inv r w) (hphase : w.phase = .rewritingFiles []) :
    Inv r (r.beginTotp w) := by
  have hfirst : r.env.CurrentFirst := hinv.first (by rw [hphase]; rintro ⟨⟩)
  rw [Rotation.beginTotp]
  split
  · exact ⟨hinv.sound, fun _ => hfirst, by rintro _ _ ⟨⟩, by rintro ⟨⟩,
      fun hcompleted => ⟨(hinv.done hcompleted).1, rfl⟩, hinv.unchanged⟩
  · refine ⟨hinv.sound, fun _ => hfirst, by rintro _ _ ⟨⟩, fun hfailures l => ?_,
      fun hcompleted => ⟨(hinv.done hcompleted).1, rfl⟩, hinv.unchanged⟩
    have hcovered := hinv.covered hfailures l
    rw [hphase] at hcovered
    cases l with
    | kycFile path => exact hcovered.imp_left fun houtstanding => houtstanding.resolve_left List.not_mem_nil
    | secret column id => exact .inl (em (column ∈ totpLocations))

theorem Inv.filesRead {recoverable : List (String × P)} (hinv : Inv r w)
    (hphase : w.phase = .readingFiles [] recoverable) :
    Inv r { w with phase := .rewritingFiles recoverable } := by
  have hfirst : r.env.CurrentFirst := hinv.first (by rw [hphase]; rintro ⟨⟩)
  obtain ⟨hsound, -, hfiles, hcovered, hdone, hunchanged⟩ := hinv
  rw [hphase] at hfiles hcovered hdone
  refine ⟨hsound, fun _ => hfirst, hfiles, fun hfailures l => ?_, hdone, hunchanged⟩
  cases l with
  | kycFile path =>
    exact (hcovered hfailures (.kycFile path)).imp_left fun houtstanding =>
      houtstanding.resolve_left List.not_mem_nil
  | secret column id => exact .inl trivial

theorem Inv.readFile {todo : List String} {recoverable : List (String × P)} {readable : Bool}
    (hinv : Inv r w) (hphase : w.phase = .readingFiles (path :: todo) recoverable) :
    Inv r (r.readFile w path todo recoverable readable) := by
  have hfirst : r.env.CurrentFirst := hinv.first (by rw [hphase]; rintro ⟨⟩)
  obtain ⟨hsound, -, hfiles, hcovered, hdone, hunchanged⟩ := hinv
  rw [hphase] at hfiles hcovered hdone
  rw [Rotation.readFile]
  split
  · exact ⟨hsound, fun _ => hfirst, hfiles, by rintro ⟨⟩, hdone, hunchanged⟩
  · rename_i plaintext hfound
    have hfind : w.vault.find r.ring (.kycFile path) = some (0, plaintext) :=
      (Option.ite_none_right_eq_some.mp hfound).2
    refine ⟨hsound, fun _ => hfirst, hfiles, fun hfailures l => ?_, hdone, hunchanged⟩
    cases l with
    | kycFile path' =>
      by_cases hpath : path' = path
      · exact .inr (hpath ▸ hsound.current_of_find (hasCurrent hfirst _) hfind)
      · exact (hcovered hfailures (.kycFile path')).imp_left fun houtstanding =>
          houtstanding.imp_left fun hmem => List.mem_of_ne_of_mem hpath hmem
    | secret column id => exact .inl trivial
  · rename_i n plaintext hfound
    have hfind : w.vault.find r.ring (.kycFile path) = some (n + 1, plaintext) :=
      (Option.ite_none_right_eq_some.mp hfound).2
    refine ⟨hsound, fun _ => hfirst, fun path' plaintext' hfile => ?_, fun hfailures l => ?_,
      fun hcompleted => ?_, hunchanged⟩
    · rw [RotationPhase.unwritten, List.map_append, List.mem_append] at hfile
      obtain hold | hnew := hfile
      · exact hfiles path' plaintext' hold
      · obtain ⟨heq, rfl⟩ := Prod.mk.inj (List.mem_singleton.mp hnew)
        obtain rfl := RecordPlace.kycFile.inj heq
        obtain ⟨c, hc, -⟩ := Vault.holds_of_find hfind
        exact ⟨w.vault.listed _ (Option.ne_none_iff_exists'.mpr ⟨c, hc⟩),
          fun _ => Vault.holds_of_find hfind⟩
    · cases l with
      | kycFile path' =>
        refine (hcovered hfailures (.kycFile path')).imp_left fun houtstanding => ?_
        change _ ∨ path' ∈ (recoverable ++ [(path, plaintext)]).map Prod.fst ∨ _
        rw [List.map_append, List.mem_append]
        obtain htodo | hread | hskipped := houtstanding
        · obtain rfl | htodo := List.mem_cons.mp htodo
          · exact .inr (.inl (.inr List.mem_cons_self))
          · exact .inl htodo
        · exact .inr (.inl (.inl hread))
        · exact .inr (.inr hskipped)
      | secret column id => exact .inl trivial
    · -- Nothing is found under an old key once everything is under the current one.
      have hzero := hsound.find_of_current (hasCurrent hfirst _) ((hdone hcompleted).1 _) hfind
      exact absurd hzero (Nat.succ_ne_zero n)

theorem current_kycFile (hfirst : r.env.CurrentFirst) (hkey : r.env.kycCandidates.head? = some key) :
    r.ring.current (.kycFile path) = some key :=
  hfirst.1.2.symm.trans hkey

theorem current_secret (hfirst : r.env.CurrentFirst) (hkey : r.env.totpCandidates.head? = some key) :
    r.ring.current (.secret column id) = some key := by
  obtain ⟨cur, hcur, hfirst'⟩ := hasCurrent (r := r) hfirst (.secret column id)
  rw [candidates_secret, ← List.head?_eq_getElem?, hkey] at hfirst'
  exact hcur.trans hfirst'.symm

theorem Inv.rewriteFile {rest : List (String × P)} {iv : Option I} (hinv : Inv r w)
    (hphase : w.phase = .rewritingFiles ((path, plaintext) :: rest))
    (hkey : r.env.kycCandidates.head? = some key) : Inv r (r.rewriteFile w key path plaintext rest iv) := by
  have hfirst : r.env.CurrentFirst := hinv.first (by rw [hphase]; rintro ⟨⟩)
  obtain ⟨hsound, -, hfiles, hcovered, hdone, hunchanged⟩ := hinv
  rw [hphase] at hfiles hcovered hdone
  have hrest : ∀ path' plaintext',
      (.kycFile path', plaintext') ∈ (RotationPhase.rewritingFiles rest).unwritten →
      .kycFile path' ∈ w.vault.places ∧
        (w.vault.stored (.kycFile path') ≠ none → w.vault.Holds r.ring (.kycFile path') plaintext') :=
    fun path' plaintext' hfile => hfiles path' plaintext' (List.mem_cons_of_mem _ hfile)
  -- After a completed run there is no file to write, so that this step is of a run before.
  have hfalse : w.completed = true → False := fun hcompleted => List.cons_ne_nil _ _ (hdone hcompleted).2
  have hother : ∀ path', path' ≠ path →
      (RotationPhase.rewritingFiles ((path, plaintext) :: rest)).Outstanding w.skipped (.kycFile path') →
      (RotationPhase.rewritingFiles rest).Outstanding w.skipped (.kycFile path') :=
    fun path' hpath houtstanding => houtstanding.imp_left fun hmem => List.mem_of_ne_of_mem hpath hmem
  unfold Rotation.rewriteFile
  split
  · rename_i hgone
    refine ⟨hsound, fun _ => hfirst, hrest, fun hfailures l => ?_, fun hc => (hfalse hc).elim, hunchanged⟩
    cases l with
    | kycFile path' =>
      by_cases hpath : path' = path
      · exact .inr (hpath ▸ hsound.current_of_not_stored hgone)
      · exact (hcovered hfailures (.kycFile path')).imp_left (hother path' hpath)
    | secret column id => exact .inl trivial
  · refine ⟨hsound, fun _ => hfirst, hrest, fun hfailures l => ?_, fun hc => (hfalse hc).elim, hunchanged⟩
    cases l with
    | kycFile path' =>
      by_cases hpath : path' = path
      · exact .inl (.inr (hpath ▸ List.mem_cons_self))
      · exact (hcovered hfailures (.kycFile path')).imp_left fun houtstanding =>
          (hother path' hpath houtstanding).imp_right (List.mem_cons_of_mem _)
    | secret column id => exact .inl trivial
  · rename_i c iv hstored
    have hcurrent : r.ring.current (.kycFile path) = some key := current_kycFile hfirst hkey
    have hholds : w.vault.Holds r.ring (.kycFile path) plaintext :=
      (hfiles path plaintext List.mem_cons_self).2 (by rw [hstored]; exact Option.some_ne_none c)
    refine ⟨hsound.resealAt hcurrent hholds, fun _ => hfirst, fun path' plaintext' hfile => ?_,
      fun hfailures l => ?_, fun hc => (hfalse hc).elim, ?_⟩
    · obtain ⟨hplace, hheld⟩ := hrest path' plaintext' hfile
      refine ⟨List.mem_cons_of_mem _ hplace, fun _ => ?_⟩
      by_cases hpath : path' = path
      · subst hpath
        exact (hheld (by rw [hstored]; exact Option.some_ne_none c)).resealAt hholds
          (mem_candidates_of_current hcurrent)
      · rename_i hstored'
        have hne : RecordPlace.kycFile path' ≠ .kycFile path := fun heq => hpath (RecordPlace.kycFile.inj heq)
        change (w.vault.resealAt r.ring (.kycFile path) key iv plaintext).stored _ ≠ none at hstored'
        rw [Vault.stored_resealAt, Function.update_of_ne hne] at hstored'
        exact (hheld hstored').resealAt hholds (mem_candidates_of_current hcurrent)
    · by_cases hl : l = .kycFile path
      · exact .inr (hsound.current_resealAt hcurrent hholds l fun hne => absurd hl hne)
      · refine (hcovered hfailures l).imp ?_ fun hold =>
          hsound.current_resealAt hcurrent hholds l fun _ => hold
        cases l with
        | kycFile path' => exact hother path' fun heq => hl (heq ▸ rfl)
        | secret column id => exact fun _ => trivial
    · rw [wrote, if_neg fun hc => hfalse hc]
      exact hunchanged

/-- What is found of a row when a column is read: it is under the current key, or it is to be written again,
or no key reads it. -/
theorem secret_found (hsound : w.vault.Sound r.ring) (hfirst : r.env.CurrentFirst)
    (hbroken : r.brokenSecrets w.vault column = []) (id : Nat) :
    id ∈ (r.staleSecrets w.vault column).map Prod.fst ∨ w.vault.CurrentAt r.ring (.secret column id) := by
  by_cases hstored : w.vault.stored (.secret column id) = none
  · exact .inr (hsound.current_of_not_stored hstored)
  have henrolled : id ∈ enrolled w.vault column := mem_enrolled.mpr hstored
  cases hfind : w.vault.find r.ring (.secret column id) with
  | none =>
    have hmem : id ∈ r.brokenSecrets w.vault column :=
      List.mem_filter.mpr ⟨henrolled, by rw [hfind]; rfl⟩
    rw [hbroken] at hmem
    cases hmem
  | some hit =>
    obtain ⟨n, plaintext⟩ := hit
    cases n with
    | zero => exact .inr (hsound.current_of_find (hasCurrent hfirst _) hfind)
    | succ n =>
      refine .inl (List.mem_map.mpr ⟨(id, plaintext), ?_, rfl⟩)
      exact List.mem_filterMap.mpr ⟨id, henrolled, by rw [hfind]⟩

theorem staleSecrets_eq_nil (hsound : w.vault.Sound r.ring) (hfirst : r.env.CurrentFirst)
    (hcurrent : ∀ l, w.vault.CurrentAt r.ring l) : r.staleSecrets w.vault column = [] := by
  rw [staleSecrets, List.filterMap_eq_nil_iff]
  intro id _
  split
  · rename_i n plaintext hfind
    exact absurd (hsound.find_of_current (hasCurrent hfirst _) (hcurrent _) hfind) (Nat.succ_ne_zero n)
  · rfl

theorem Inv.selectSecrets {columns : List SecretColumn} (hinv : Inv r w)
    (hphase : w.phase = .selecting (column :: columns)) : Inv r (r.selectSecrets w column columns) := by
  have hfirst : r.env.CurrentFirst := hinv.first (by rw [hphase]; rintro ⟨⟩)
  obtain ⟨hsound, -, -, hcovered, hdone, hunchanged⟩ := hinv
  rw [hphase] at hcovered hdone
  have hstale : w.completed = true → r.staleSecrets w.vault column = [] :=
    fun hcompleted => staleSecrets_eq_nil hsound hfirst (hdone hcompleted).1
  have hread : w.failures + (r.brokenSecrets w.vault column).length = 0 → ∀ l,
      (RotationPhase.updating column (r.staleSecrets w.vault column) columns).Outstanding w.skipped l ∨
        w.vault.CurrentAt r.ring l := by
    intro hfailures l
    obtain ⟨hbefore, hbroken⟩ := Nat.add_eq_zero_iff.mp hfailures
    cases l with
    | kycFile path => exact hcovered hbefore (.kycFile path)
    | secret column' id =>
      by_cases hcolumn : column' = column
      · subst hcolumn
        exact (secret_found hsound hfirst (List.length_eq_zero_iff.mp hbroken) id).imp_left
          fun hmem => .inl ⟨rfl, hmem⟩
      · exact (hcovered hbefore (.secret column' id)).imp_left fun houtstanding =>
          .inr (houtstanding.imp_left fun hmem => List.mem_of_ne_of_mem hcolumn hmem)
  rw [Rotation.selectSecrets]
  split
  · rename_i hnil
    refine ⟨hsound, fun _ => hfirst, by rintro _ _ ⟨⟩, fun hfailures l => ?_,
      fun hcompleted => ⟨(hdone hcompleted).1, rfl⟩, hunchanged⟩
    have hcovered' := hread hfailures l
    rw [hnil] at hcovered'
    cases l with
    | kycFile path => exact hcovered'
    | secret column' id =>
      exact hcovered'.imp_left fun houtstanding => houtstanding.resolve_left fun hmem => List.not_mem_nil hmem.2
  · rename_i hne
    refine ⟨hsound, fun _ => hfirst, fun path plaintext hmem => ?_, hread,
      fun hcompleted => absurd (hstale hcompleted) hne, hunchanged⟩
    obtain ⟨_, -, heq⟩ := List.mem_map.mp hmem
    cases heq

/-- A transaction that writes what the rows hold. -/
theorem updateSecrets_keeps (hcurrent : ∀ id, r.ring.current (.secret column id) = some key)
    {rows : List ((Nat × P) × I)} (hsound : v.Sound r.ring)
    (hholds : ∀ row ∈ rows, v.Holds r.ring (.secret column row.1.1) row.1.2) :
    (r.updateSecrets key column rows v).Sound r.ring ∧
      ∀ l, (∃ row ∈ rows, l = .secret column row.1.1) ∨ v.CurrentAt r.ring l →
        (r.updateSecrets key column rows v).CurrentAt r.ring l := by
  induction rows generalizing v with
  | nil =>
    refine ⟨hsound, fun l hl => hl.resolve_left ?_⟩
    rintro ⟨_, hmem, -⟩
    cases hmem
  | cons row rows ih =>
    obtain ⟨⟨id, plaintext⟩, iv⟩ := row
    have hrow : v.Holds r.ring (.secret column id) plaintext := hholds _ List.mem_cons_self
    have hmem : key ∈ r.ring.candidates (.secret column id) := mem_candidates_of_current (hcurrent id)
    obtain ⟨hsound', hcurrent'⟩ := ih (v := v.resealAt r.ring (.secret column id) key iv plaintext)
      (hsound.resealAt (hcurrent id) hrow)
      fun row hlater => (hholds row (List.mem_cons_of_mem _ hlater)).resealAt hrow hmem
    refine ⟨hsound', fun l hl => hcurrent' l ?_⟩
    have hreseal := hsound.current_resealAt (i := iv) (hcurrent id) hrow l
    obtain ⟨row, hin, hl⟩ | hold := hl
    · obtain rfl | hlater := List.mem_cons.mp hin
      · exact .inr (hreseal fun hne => absurd hl hne)
      · exact .inl ⟨row, hlater, hl⟩
    · exact .inr (hreseal fun _ => hold)

theorem Inv.commitSecrets {stale : List (Nat × P)} {columns : List SecretColumn} {ivs : List I}
    (hinv : Inv r w) (hphase : w.phase = .updating column stale columns)
    (hkey : r.env.totpCandidates.head? = some key) (hlength : ivs.length = stale.length)
    (hkeeps : r.KeepsRecords w (.commitSecrets ivs)) :
    Inv r { wrote w (r.updateSecrets key column (stale.zip ivs) w.vault)
      (stale.map fun row => .secret column row.1) with phase := .selecting columns } := by
  have hfirst : r.env.CurrentFirst := hinv.first (by rw [hphase]; rintro ⟨⟩)
  obtain ⟨hsound, -, -, hcovered, hdone, hunchanged⟩ := hinv
  rw [Rotation.KeepsRecords, hphase] at hkeeps
  rw [hphase] at hcovered hdone
  have hholds : ∀ row ∈ stale.zip ivs, w.vault.Holds r.ring (.secret column row.1.1) row.1.2 := by
    rintro ⟨row, iv⟩ hmem
    exact hkeeps _ (List.mem_map.mpr ⟨row, (List.of_mem_zip hmem).1, rfl⟩)
  obtain ⟨hsound', hcurrent'⟩ :=
    updateSecrets_keeps (fun id => current_secret hfirst hkey) hsound hholds
  have hnil : w.completed = true → stale = [] :=
    fun hcompleted => List.map_eq_nil_iff.mp (hdone hcompleted).2
  refine ⟨hsound', fun _ => hfirst, by rintro _ _ ⟨⟩, fun hfailures l => ?_,
    fun hcompleted => ⟨fun l => ?_, rfl⟩, ?_⟩
  · have hread := hcovered hfailures l
    cases l with
    | kycFile path => exact hread.imp_right fun hold => hcurrent' _ (.inr hold)
    | secret column' id =>
      obtain (⟨rfl, hid⟩ | hlater) | hold := hread
      · rw [← List.map_fst_zip hlength.ge, List.map_map] at hid
        obtain ⟨row, hmem, rfl⟩ := List.mem_map.mp hid
        exact .inr (hcurrent' _ (.inl ⟨row, hmem, rfl⟩))
      · exact .inl hlater
      · exact .inr (hcurrent' _ (.inr hold))
  · exact hcurrent' l (.inr ((hdone hcompleted).1 l))
  · change (if w.completed then _ else _) = []
    split
    · rename_i hcompleted
      rw [hnil hcompleted, hunchanged]
      rfl
    · exact hunchanged

/-- A record under no other key than the current one, in a sound vault. -/
theorem current_of_underCurrent (hsound : w.vault.Sound r.ring) (hunder : r.UnderCurrent w l) :
    w.vault.CurrentAt r.ring l := by
  intro k plaintext hmeant
  obtain ⟨c, hc, hread | ⟨cur, hcur, hread⟩⟩ := hsound.intact l k plaintext hmeant
  · have hcurrent := hunder c hc k (hsound.supplied l k plaintext hmeant) (by rw [hread]; rfl)
    exact ⟨c, hc, k, hcurrent, hread⟩
  · exact ⟨c, hc, cur, hcur, hread⟩

theorem Inv.finish (hinv : Inv r w) (hphase : w.phase = .selecting [])
    (hkeeps : r.KeepsRecords w (.finish : RotationAction I P)) :
    Inv r { w with phase := .idle, completed := w.completed || w.failures == 0 } := by
  obtain ⟨hsound, -, -, hcovered, hdone, hunchanged⟩ := hinv
  rw [hphase] at hcovered
  refine ⟨hsound, fun hidle => absurd rfl hidle, by rintro _ _ ⟨⟩, fun _ l => .inl trivial,
    fun hcompleted => ⟨fun l => ?_, rfl⟩, hunchanged⟩
  obtain hbefore | hnow := Bool.or_eq_true_iff.mp hcompleted
  · exact (hdone hbefore).1 l
  · have hfailures : w.failures = 0 := eq_of_beq hnow
    obtain ⟨hskipped, hpending⟩ := hkeeps hfailures
    obtain houtstanding | hcurrent := hcovered hfailures l
    · cases l with
      | kycFile path => exact hsound.current_of_not_stored (hskipped path houtstanding)
      | secret column id =>
        by_cases hstored : w.vault.stored (.secret column id) = none
        · exact hsound.current_of_not_stored hstored
        · have hleft : column ∉ totpLocations := houtstanding.resolve_left List.not_mem_nil
          exact current_of_underCurrent hsound
            (hpending _ (w.vault.listed _ hstored) (decide_eq_true hleft))
    · exact hcurrent

theorem Inv.step {a : RotationAction I P} (hinv : Inv r w) (hkeeps : r.KeepsRecords w a)
    (hstep : r.step w a = some w') : Inv r w' := by
  cases a with
  | start =>
    rw [Rotation.step, startStep] at hstep
    split at hstep
    · obtain rfl := Option.some.inj hstep
      exact hinv.beginRun hkeeps
    · cases hstep
  | readFile readable =>
    rw [Rotation.step, readFileStep] at hstep
    split at hstep
    · rename_i hphase
      obtain rfl := Option.some.inj hstep
      exact hinv.readFile hphase
    · cases hstep
  | filesRead =>
    rw [Rotation.step, filesReadStep] at hstep
    split at hstep
    · rename_i hphase
      obtain rfl := Option.some.inj hstep
      exact hinv.filesRead hphase
    · cases hstep
  | rewriteFile iv =>
    rw [Rotation.step, rewriteFileStep] at hstep
    split at hstep
    · rename_i hphase hkey
      obtain rfl := Option.some.inj hstep
      exact hinv.rewriteFile hphase hkey
    · cases hstep
  | filesRewritten =>
    rw [Rotation.step, filesRewrittenStep] at hstep
    split at hstep
    · rename_i hphase
      obtain rfl := Option.some.inj hstep
      exact hinv.beginTotp hphase
    · cases hstep
  | selectSecrets =>
    rw [Rotation.step, selectSecretsStep] at hstep
    split at hstep
    · rename_i hphase
      obtain rfl := Option.some.inj hstep
      exact hinv.selectSecrets hphase
    · cases hstep
  | commitSecrets ivs =>
    rw [Rotation.step, commitSecretsStep] at hstep
    split at hstep
    · rename_i hphase hkey
      obtain ⟨_, hguard, hstep⟩ := Option.bind_eq_some_iff.mp hstep
      obtain rfl := Option.some.inj hstep
      exact hinv.commitSecrets hphase hkey ((Option.guard_eq_some' _).mp hguard) hkeeps
    · cases hstep
  | rollbackSecrets =>
    rw [Rotation.step, rollbackSecretsStep] at hstep
    split at hstep
    · rename_i hphase
      obtain rfl := Option.some.inj hstep
      exact ⟨hinv.sound, fun _ => hinv.first (by rw [hphase]; rintro ⟨⟩), by rintro _ _ ⟨⟩, by rintro ⟨⟩,
        fun hcompleted => ⟨(hinv.done hcompleted).1, rfl⟩, hinv.unchanged⟩
    · cases hstep
  | finish =>
    rw [Rotation.step, finishStep] at hstep
    split at hstep
    · rename_i hphase
      obtain rfl := Option.some.inj hstep
      exact hinv.finish hphase hkeeps
    · cases hstep
  | crash =>
    obtain rfl := Option.some.inj hstep
    exact ⟨hinv.sound, fun hidle => absurd rfl hidle, by rintro _ _ ⟨⟩, fun _ l => .inl trivial,
      fun hcompleted => ⟨(hinv.done hcompleted).1, rfl⟩, hinv.unchanged⟩
  | uploadKyc path iv document =>
    obtain ⟨_, hguard, hstep⟩ := Option.bind_eq_some_iff.mp hstep
    obtain ⟨key, hkey, hstep⟩ := Option.bind_eq_some_iff.mp hstep
    obtain rfl := Option.some.inj hstep
    exact hinv.application (.sealFile hkey ((Option.guard_eq_some' _).mp hguard))
  | deleteKyc path =>
    obtain rfl := Option.some.inj hstep
    exact hinv.application .erase
  | setupTotp id iv plaintext =>
    obtain ⟨key, hkey, hstep⟩ := Option.bind_eq_some_iff.mp hstep
    obtain rfl := Option.some.inj hstep
    exact hinv.application (.sealSecret hkey)
  | verifySetupTotp id iv plaintext =>
    obtain ⟨key, hkey, hstep⟩ := Option.bind_eq_some_iff.mp hstep
    obtain rfl := Option.some.inj hstep
    exact hinv.application ((AppWrite.sealSecret hkey).trans .erase)
  | disableTotp id =>
    obtain rfl := Option.some.inj hstep
    exact hinv.application (AppWrite.erase.trans .erase)
  | readAdmin id =>
    obtain rfl := Option.some.inj hstep
    exact ⟨hinv.sound, hinv.first, hinv.files, hinv.covered, hinv.done, hinv.unchanged⟩
  | persistAdmin k patch =>
    obtain ⟨record, hrecord, hstep⟩ := Option.bind_eq_some_iff.mp hstep
    obtain ⟨vault, hwrite, hstep⟩ := Option.bind_eq_some_iff.mp hstep
    obtain rfl := Option.some.inj hstep
    exact hinv.application (.persistAdmin hrecord hkeeps hwrite)

theorem Inv.boot (records : List (RecordPlace × C)) : Inv r (r.boot records) := by
  have hmeant : ∀ l k plaintext, (r.bootVault records).meant l = some (k, plaintext) →
      ∃ c ∈ records.lookup l, k ∈ r.buildCandidates l ∧ r.ring.read l k c = some plaintext := by
    intro l k plaintext hmeant
    obtain ⟨c, hc, hfind⟩ := Option.bind_eq_some_iff.mp hmeant
    obtain ⟨k', hk', hread⟩ := List.exists_of_findSome?_eq_some hfind
    obtain ⟨plaintext', hplaintext, heq⟩ := Option.map_eq_some_iff.mp hread
    obtain ⟨rfl, rfl⟩ := Prod.mk.inj heq
    exact ⟨c, hc, hk', hplaintext⟩
  refine ⟨⟨fun l k plaintext hl => ?_, fun l k plaintext hl => ?_, fun l c hc k hk plaintext hread => ?_⟩,
    fun hidle => absurd rfl hidle, by rintro _ _ ⟨⟩, fun _ l => .inl trivial, by rintro ⟨⟩, rfl⟩
  · obtain ⟨c, hc, -, hread⟩ := hmeant l k plaintext hl
    exact ⟨c, hc, .inl hread⟩
  · obtain ⟨_, -, hk, -⟩ := hmeant l k plaintext hl
    exact hk
  · -- The ciphertext has one key and one plaintext, which are those that the search gives.
    have hfound : (r.buildCandidates l).findSome? (fun k => (r.ring.read l k c).map (k, ·)) ≠ none := by
      rw [Ne, List.findSome?_eq_none_iff]
      intro hnone
      have := hnone k hk
      rw [hread] at this
      cases this
    obtain ⟨⟨k', plaintext'⟩, hfind⟩ := Option.ne_none_iff_exists'.mp hfound
    have hmeant' : (r.bootVault records).meant l = some (k', plaintext') :=
      Option.bind_eq_some_iff.mpr ⟨c, hc, hfind⟩
    obtain ⟨c', hc', -, hread'⟩ := hmeant l k' plaintext' hmeant'
    obtain rfl := Option.some.inj (hc'.symm.trans hc)
    obtain rfl := Keyring.read_unique hread hread'
    exact ⟨k', hmeant'⟩

/-- In a run whose steps keep the records, every record that a supplied key could read, or that the
application has written since, can be read, as it was written, with the key it had or with the current one.
Once the script has ended with no failure the current key reads them all, and running it again writes
nothing. -/
theorem rotation_keeps_records
    (hreach : Reach r.step r.KeepsRecords (fun w => ∃ records, w = r.boot records) w) :
    (∀ l k plaintext, w.vault.meant l = some (k, plaintext) → ∃ c ∈ w.vault.stored l,
      r.ring.read l k c = some plaintext ∨ ∃ cur ∈ r.ring.current l, r.ring.read l cur c = some plaintext) ∧
      (w.completed = true → ∀ l, w.vault.CurrentAt r.ring l) ∧ w.rewritten = [] := by
  have hinv : Inv r w := by
    refine hreach.invariant ?_ fun _ _ _ hinv hkeeps hstep => hinv.step hkeeps hstep
    rintro _ ⟨records, rfl⟩
    exact .boot records
  exact ⟨hinv.sound.intact, fun hcompleted => (hinv.done hcompleted).1, hinv.unchanged⟩

instance [DecidableEq K] [DecidableEq P] [DecidableEq C] (a : RotationAction I P) :
    Decidable (r.KeepsRecords w a) :=
  match a with
  | .start => inferInstanceAs (Decidable r.env.CurrentFirst)
  | .commitSecrets _ => inferInstanceAs (Decidable (∀ row ∈ w.phase.unwritten, ∃ c ∈ w.vault.stored row.1,
      ∃ k ∈ r.ring.candidates row.1, r.ring.read row.1 k c = some row.2))
  | .finish => inferInstanceAs (Decidable (w.failures = 0 → _ ∧ ∀ l ∈ w.vault.places, l.pending = true →
      ∀ c ∈ w.vault.stored l, ∀ k ∈ r.buildCandidates l, _))
  | .persistAdmin k (.setup _ _) => inferInstanceAs (Decidable (∀ record ∈ w.adminRecords[k]?,
      record.2.1 = w.vault.stored (.secret .platformAdminsTotpSecret record.1)))
  | .persistAdmin k .keep => inferInstanceAs (Decidable (∀ record ∈ w.adminRecords[k]?, _ ∧ _))
  | .readFile _ | .filesRead | .rewriteFile _ | .filesRewritten | .selectSecrets | .rollbackSecrets | .crash
  | .uploadKyc _ _ _ | .deleteKyc _ | .setupTotp _ _ _ | .verifySetupTotp _ _ _ | .disableTotp _
  | .readAdmin _ | .persistAdmin _ (.verifySetup _ _) | .persistAdmin _ .disable => .isTrue trivial

/-- A ciphertext that shows its key. -/
def sampleCipher : Cipher Nat Unit String (Nat × String) where
  encrypt k _ plaintext := (k, plaintext)
  decrypt k c := if c.1 = k then some c.2 else none
  decrypt_encrypt _ _ _ := if_pos rfl
  key_unique hread hread' :=
    (Option.ite_none_right_eq_some.mp hread).1.symm.trans (Option.ite_none_right_eq_some.mp hread').1

/-- The keys `2` and `4` are rotated to `1` and `3`. -/
def sampleRotation : Rotation Nat Unit String (Nat × String) :=
  ⟨⟨true, some 1, some 2, none, none, none, none, some 3, some 4⟩, sampleCipher, sampleCipher⟩

def sampleRecords : List (RecordPlace × (Nat × String)) :=
  [(.kycFile "12/id.jpg.enc", (2, "passport")), (.secret .usersTotpSecret 7, (4, "JBSWY3DPEHPK3PXP"))]

/-- A run up to the point where the secrets of the users have been read. -/
def sampleReads : List (RotationAction Unit String) :=
  [.start, .readFile true, .filesRead, .rewriteFile (some ()), .filesRewritten, .selectSecrets]

def sampleWrites : List (RotationAction Unit String) :=
  [.commitSecrets [()], .selectSecrets, .selectSecrets, .finish]

/-- A crash, a run that is completed while another user enrols, and one more run. -/
def rotateTwice : List (RotationAction Unit String) :=
  sampleReads ++ [.crash, .start, .readFile true, .filesRead, .filesRewritten, .selectSecrets,
    .setupTotp 9 () "KRSXG5CTMVRXEZLU"] ++ sampleWrites ++
    [.start, .readFile true, .filesRead, .filesRewritten, .selectSecrets, .selectSecrets, .selectSecrets,
      .finish]

theorem rotation_keeps_records_rotateTwice : ∃ w,
    run sampleRotation.step (sampleRotation.boot sampleRecords) rotateTwice = some w ∧ w.completed = true ∧
      (∀ l, w.vault.CurrentAt sampleRotation.ring l) ∧ w.rewritten = [] := by
  obtain ⟨w, hrun, hcompleted⟩ := exists_of_run_any sampleRotation.step (sampleRotation.boot sampleRecords)
    rotateTwice RotationWorld.completed (by decide +kernel)
  have hok : RunOk sampleRotation.step sampleRotation.KeepsRecords (sampleRotation.boot sampleRecords)
      rotateTwice := by decide +kernel
  obtain ⟨-, hcurrent, hunchanged⟩ := rotation_keeps_records (.of_run (.init ⟨_, rfl⟩) hok hrun)
  exact ⟨w, hrun, hcompleted, hcurrent hcompleted, hunchanged⟩

/-- A user is in the middle of enrolling when the keys are rotated. -/
def pendingRecords : List (RecordPlace × (Nat × String)) :=
  sampleRecords ++ [(.secret .usersTotpTempSecret 8, (4, "KRSXG5CTMVRXEZLU"))]

/-- A user enrols again between the reading and the writing. -/
def reenrolled : List (RotationAction Unit String) :=
  sampleReads ++ [.verifySetupTotp 7 () "KRSXG5CTMVRXEZLU"] ++ sampleWrites

/-- A run that ends with no failure leaves a pending enrolment under the old key, and one overwrites a secret
that was enrolled meanwhile with the one before. -/
theorem rotation_loses_records :
    (∃ w, run sampleRotation.step (sampleRotation.boot pendingRecords)
        (sampleReads ++ sampleWrites) = some w ∧
      w.completed = true ∧ w.failures = 0 ∧
      w.vault.meant (.secret .usersTotpTempSecret 8) = some (4, "KRSXG5CTMVRXEZLU") ∧
      w.vault.stored (.secret .usersTotpTempSecret 8) = some (4, "KRSXG5CTMVRXEZLU")) ∧
    ∃ w, run sampleRotation.step (sampleRotation.boot sampleRecords) reenrolled = some w ∧
      w.completed = true ∧ w.failures = 0 ∧
      w.vault.meant (.secret .usersTotpSecret 7) = some (3, "KRSXG5CTMVRXEZLU") ∧
      w.vault.stored (.secret .usersTotpSecret 7) = some (3, "JBSWY3DPEHPK3PXP") := by
  constructor
  · obtain ⟨w, hrun, hend⟩ := exists_of_run_any sampleRotation.step (sampleRotation.boot pendingRecords)
      (sampleReads ++ sampleWrites)
      (fun w => w.completed = true ∧ w.failures = 0 ∧
        w.vault.meant (.secret .usersTotpTempSecret 8) = some (4, "KRSXG5CTMVRXEZLU") ∧
        w.vault.stored (.secret .usersTotpTempSecret 8) = some (4, "KRSXG5CTMVRXEZLU")) (by decide +kernel)
    exact ⟨w, hrun, of_decide_eq_true hend⟩
  · obtain ⟨w, hrun, hend⟩ := exists_of_run_any sampleRotation.step (sampleRotation.boot sampleRecords)
      reenrolled
      (fun w => w.completed = true ∧ w.failures = 0 ∧
        w.vault.meant (.secret .usersTotpSecret 7) = some (3, "KRSXG5CTMVRXEZLU") ∧
        w.vault.stored (.secret .usersTotpSecret 7) = some (3, "JBSWY3DPEHPK3PXP")) (by decide +kernel)
    exact ⟨w, hrun, of_decide_eq_true hend⟩

end Rotation

end PropFirm
