import Mathlib
import PropFirm.Lib.InFlight
import PropFirm.Lib.Transition

/-!
# Files of identity documents

An upload brings up to three documents, which are on disk before the handler runs. The handler reads which
documents the user has, refuses the request if one is missing or is not what it is called, encrypts the new
files, writes the row with the stored paths in the places of documents that were not sent, and deletes the
files that were replaced. The row is read and written by two statements, and uploads of the user overlap.

The model is of one user. A file is told by its slot and the number of the upload that brought it.
-/

namespace PropFirm

open Transition

inductive KycSlot
  | idDocument | idDocumentBack | selfie
  deriving DecidableEq

namespace KycSlot

/-- The order in which the handler goes through the documents. -/
def all : List KycSlot := [idDocument, idDocumentBack, selfie]

def missing : KycSlot → String
  | idDocument => "ID document (front) is required"
  | idDocumentBack => "ID document (back) is required"
  | selfie => "A selfie is required"

def mismatch : KycSlot → String
  | idDocument => "ID document file content does not match declared type"
  | idDocumentBack => "ID document back file content does not match declared type"
  | selfie => "Selfie file content does not match declared type"

end KycSlot

/-- The paths in the user's row, by the uploads that they come from. -/
abbrev KycPaths := KycSlot → Option ℕ

inductive KycPhase
  | received
  | read (existing : KycPaths)
  | encrypted (existing : KycPaths)
  | updated (existing : KycPaths)

/-- `genuine` has the documents whose extension and first bytes are right. -/
structure KycUpload where
  number : ℕ
  submitted : Finset KycSlot
  genuine : Finset KycSlot
  phase : KycPhase

namespace KycUpload

/-- The files of those of the upload's documents that are in a list. -/
def filesIn (u : KycUpload) (slots : List KycSlot) : Finset (KycSlot × ℕ) :=
  ((slots.filter (· ∈ u.submitted)).map fun slot => (slot, u.number)).toFinset

def files (u : KycUpload) : Finset (KycSlot × ℕ) := u.filesIn KycSlot.all

/-- What the row is set to. -/
def paths (u : KycUpload) (existing : KycPaths) : KycPaths :=
  fun slot => if slot ∈ u.submitted then some u.number else existing slot

/-- The files that the upload has replaced. -/
def replaced (u : KycUpload) (existing : KycPaths) : Finset (KycSlot × ℕ) :=
  (KycSlot.all.filterMap fun slot =>
    if slot ∈ u.submitted then (existing slot).map fun number => (slot, number) else none).toFinset

/-- The first document that is neither sent nor stored. -/
def firstMissing (u : KycUpload) (existing : KycPaths) : Option KycSlot :=
  KycSlot.all.find? fun slot => slot ∉ u.submitted && (existing slot).isNone

def firstMismatch (u : KycUpload) : Option KycSlot :=
  KycSlot.all.find? fun slot => slot ∈ u.submitted && slot ∉ u.genuine

/-- What the update writes in the places of documents that were not sent is what stands there. -/
def KeepsRow (row : KycPaths) (u : KycUpload) : Prop :=
  match u.phase with
  | .encrypted existing => ∀ slot ∈ KycSlot.all, slot ∉ u.submitted → existing slot = row slot
  | _ => True

instance (row : KycPaths) : ∀ u : KycUpload, Decidable (u.KeepsRow row)
  | ⟨_, submitted, _, .encrypted existing⟩ =>
    inferInstanceAs (Decidable (∀ slot ∈ KycSlot.all, slot ∉ submitted → existing slot = row slot))
  | ⟨_, _, _, .received⟩ | ⟨_, _, _, .read _⟩ | ⟨_, _, _, .updated _⟩ => isTrue trivial

end KycUpload

/-- `plain` and `encrypted` are the files on disk, and `stored` the uploads that have been in the row. -/
structure KycWorld where
  row : KycPaths
  plain : Finset (KycSlot × ℕ)
  encrypted : Finset (KycSlot × ℕ)
  uploads : List KycUpload
  replies : List (ℕ × Except String String)
  next : ℕ
  stored : List ℕ

inductive KycEvent
  | receive (submitted genuine : Finset KycSlot)
  | read (i : ℕ)
  | handle (i : ℕ) (failsAt : Option KycSlot)
  | update (i : ℕ)
  | finish (i : ℕ)
  | fail (i : ℕ)

namespace KycWorld

def take (w : KycWorld) (i : ℕ) : KycWorld := { w with uploads := w.uploads.eraseIdx i }

def put (w : KycWorld) (u : KycUpload) : KycWorld := { w with uploads := w.uploads ++ [u] }

def answer (w : KycWorld) (u : KycUpload) (reply : Except String String) : KycWorld :=
  { w with replies := w.replies ++ [(u.number, reply)] }

/-- `unlinkSync` of the files as they came; one that is gone is skipped. -/
def unlink (w : KycWorld) (u : KycUpload) : KycWorld := { w with plain := w.plain \ u.files }

def encrypt (w : KycWorld) (files : Finset (KycSlot × ℕ)) : KycWorld :=
  { w with plain := w.plain \ files, encrypted := w.encrypted ∪ files }

/-- From the row that was read to the update. A refusal for a missing document leaves the files where they are. -/
def handled (w : KycWorld) (u : KycUpload) (existing : KycPaths) (failsAt : Option KycSlot) : KycWorld :=
  match u.firstMissing existing, u.firstMismatch, failsAt with
  | some slot, _, _ => w.answer u (.error slot.missing)
  | none, some slot, _ => (w.unlink u).answer u (.error slot.mismatch)
  | none, none, some slot =>
    ((w.encrypt (u.filesIn (KycSlot.all.takeWhile (· ≠ slot)))).unlink u).answer u
      (.error "Document storage is temporarily unavailable. Please try again later.")
  | none, none, none => (w.encrypt u.files).put { u with phase := .encrypted existing }

def step (w : KycWorld) : KycEvent → Option KycWorld
  | .receive submitted genuine =>
    let u : KycUpload := ⟨w.next, submitted, genuine, .received⟩
    if submitted = ∅ then none else some { w.put u with plain := w.plain ∪ u.files, next := w.next + 1 }
  | .read i => w.uploads[i]?.bind fun u =>
    match u.phase with
    | .received => some ((w.take i).put { u with phase := .read w.row })
    | _ => none
  | .handle i failsAt => w.uploads[i]?.bind fun u =>
    match u.phase with
    | .read existing => some ((w.take i).handled u existing failsAt)
    | _ => none
  | .update i => w.uploads[i]?.bind fun u =>
    match u.phase with
    | .encrypted existing => some ((({ w with row := u.paths existing, stored := w.stored ++ [u.number] }).take i).put
        { u with phase := .updated existing })
    | _ => none
  | .finish i => w.uploads[i]?.bind fun u =>
    match u.phase with
    | .updated existing => some ((({ w with encrypted := w.encrypted \ u.replaced existing }).take i).answer u
        (.ok "KYC documents uploaded successfully"))
    | _ => none
  | .fail i => w.uploads[i]?.bind fun u =>
    match u.phase with
    | .received => some ((w.take i).answer u (.error "Upload failed"))
    | _ => some (((w.take i).unlink u).answer u (.error "Upload failed"))

/-- No update puts a document that was not sent back to what it was when the row was read. -/
def Fresh (w : KycWorld) : KycEvent → Prop
  | .update i => ∀ u ∈ w.uploads[i]?, u.KeepsRow w.row
  | _ => True

instance (w : KycWorld) : ∀ event, Decidable (Fresh w event)
  | .update i => inferInstanceAs (Decidable (∀ u ∈ w.uploads[i]?, u.KeepsRow w.row))
  | .receive _ _ | .read _ | .handle _ _ | .finish _ | .fail _ => isTrue trivial

structure Start (w : KycWorld) : Prop where
  row : ∀ slot, w.row slot = none
  plain : w.plain = ∅
  uploads : w.uploads = []
  stored : w.stored = []

end KycWorld

variable {w w' : KycWorld} {event : KycEvent} {u u' : KycUpload} {i : ℕ}

/-! ### What a step does -/

namespace KycWorld

theorem step_read (hstep : step w (.read i) = some w') : ∃ u, w.uploads[i]? = some u ∧ u.phase = .received ∧
    w' = (w.take i).put { u with phase := .read w.row } := by
  obtain ⟨u, hu, hstep⟩ := Option.bind_eq_some_iff.mp hstep
  split at hstep
  · next hphase => exact ⟨u, hu, hphase, (Option.some.inj hstep).symm⟩
  · cases hstep

theorem step_handle {failsAt : Option KycSlot} (hstep : step w (.handle i failsAt) = some w') :
    ∃ u existing, w.uploads[i]? = some u ∧ u.phase = .read existing ∧
      w' = (w.take i).handled u existing failsAt := by
  obtain ⟨u, hu, hstep⟩ := Option.bind_eq_some_iff.mp hstep
  split at hstep
  · next existing hphase => exact ⟨u, existing, hu, hphase, (Option.some.inj hstep).symm⟩
  · cases hstep

theorem step_update (hstep : step w (.update i) = some w') :
    ∃ u existing, w.uploads[i]? = some u ∧ u.phase = .encrypted existing ∧
      w' = (({ w with row := u.paths existing, stored := w.stored ++ [u.number] }).take i).put
        { u with phase := .updated existing } := by
  obtain ⟨u, hu, hstep⟩ := Option.bind_eq_some_iff.mp hstep
  split at hstep
  · next existing hphase => exact ⟨u, existing, hu, hphase, (Option.some.inj hstep).symm⟩
  · cases hstep

theorem step_finish (hstep : step w (.finish i) = some w') :
    ∃ u existing, w.uploads[i]? = some u ∧ u.phase = .updated existing ∧
      w' = (({ w with encrypted := w.encrypted \ u.replaced existing }).take i).answer u
        (.ok "KYC documents uploaded successfully") := by
  obtain ⟨u, hu, hstep⟩ := Option.bind_eq_some_iff.mp hstep
  split at hstep
  · next existing hphase => exact ⟨u, existing, hu, hphase, (Option.some.inj hstep).symm⟩
  · cases hstep

theorem step_fail (hstep : step w (.fail i) = some w') : ∃ u, w.uploads[i]? = some u ∧
    (u.phase = .received ∧ w' = (w.take i).answer u (.error "Upload failed") ∨
      w' = ((w.take i).unlink u).answer u (.error "Upload failed")) := by
  obtain ⟨u, hu, hstep⟩ := Option.bind_eq_some_iff.mp hstep
  refine ⟨u, hu, ?_⟩
  split at hstep
  · next hphase => exact .inl ⟨hphase, (Option.some.inj hstep).symm⟩
  · exact .inr (Option.some.inj hstep).symm

end KycWorld

theorem KycSlot.mem_all (slot : KycSlot) : slot ∈ KycSlot.all := by
  cases slot <;> decide

namespace KycUpload

theorem mem_filesIn {u : KycUpload} {slots : List KycSlot} {file : KycSlot × ℕ} (hfile : file ∈ u.filesIn slots) :
    file.1 ∈ u.submitted ∧ file.2 = u.number := by
  obtain ⟨slot, hslot, rfl⟩ := List.mem_map.mp (List.mem_toFinset.mp hfile)
  exact ⟨of_decide_eq_true (List.mem_filter.mp hslot).2, rfl⟩

theorem mem_files {u : KycUpload} {file : KycSlot × ℕ} :
    file ∈ u.files ↔ file.1 ∈ u.submitted ∧ file.2 = u.number := by
  refine ⟨mem_filesIn, fun hfile => ?_⟩
  obtain ⟨slot, number⟩ := file
  obtain ⟨hslot, rfl⟩ := hfile
  exact List.mem_toFinset.mpr (List.mem_map.mpr ⟨slot, List.mem_filter.mpr ⟨slot.mem_all, decide_eq_true hslot⟩, rfl⟩)

theorem mem_replaced {u : KycUpload} {existing : KycPaths} {file : KycSlot × ℕ} (hfile : file ∈ u.replaced existing) :
    file.1 ∈ u.submitted ∧ existing file.1 = some file.2 := by
  obtain ⟨slot, -, hslot⟩ := List.mem_filterMap.mp (List.mem_toFinset.mp hfile)
  split at hslot
  · next hsubmitted =>
    obtain ⟨number, hnumber, rfl⟩ := Option.map_eq_some_iff.mp hslot
    exact ⟨hsubmitted, hnumber⟩
  · cases hslot

end KycUpload

/-! ### The stored documents are there -/

/-- Of an upload in each phase, among the files on disk and the uploads that have been in the row. -/
def KycUpload.Sound (plain encrypted : Finset (KycSlot × ℕ)) (stored : List ℕ) (u : KycUpload) : Prop :=
  match u.phase with
  | .received => u.number ∉ stored
  | .read existing => u.number ∉ stored ∧ ∀ slot n, existing slot = some n → n ∈ stored
  | .encrypted existing => u.number ∉ stored ∧ (∀ slot n, existing slot = some n → n ∈ stored) ∧
      (∀ slot ∈ u.submitted, (slot, u.number) ∈ encrypted) ∧ ∀ slot, (slot, u.number) ∉ plain
  | .updated existing => u.number ∈ stored ∧ ∀ slot n, existing slot = some n → n ∈ stored

/-- The upload has replaced the file and is about to delete it. -/
def KycUpload.Dooms (u : KycUpload) (slot : KycSlot) (n : ℕ) : Prop :=
  ∃ existing, u.phase = .updated existing ∧ slot ∈ u.submitted ∧ existing slot = some n

/-- The reply was a refusal for a missing document, or that the upload failed. -/
def LeavesFiles (reply : Except String String) : Prop :=
  reply = .error "Upload failed" ∨ ∃ slot : KycSlot, reply = .error slot.missing

namespace KycWorld

/-- A file that lies in plain text is of an upload that is not handled yet, or was left by one that was refused
for a missing document or failed. -/
def Accountable (w : KycWorld) (file : KycSlot × ℕ) : Prop :=
  (∃ u ∈ w.uploads, u.number = file.2 ∧ ∀ existing, u.phase ≠ .encrypted existing ∧ u.phase ≠ .updated existing) ∨
    ∃ reply ∈ w.replies, reply.1 = file.2 ∧ LeavesFiles reply.2

structure Sound (w : KycWorld) : Prop where
  row : ∀ slot n, w.row slot = some n → (slot, n) ∈ w.encrypted ∧ n ∈ w.stored ∧ ∀ u ∈ w.uploads, ¬ u.Dooms slot n
  uploads : ∀ u ∈ w.uploads, u.Sound w.plain w.encrypted w.stored
  numbers : (w.uploads.map KycUpload.number).Nodup
  below : ∀ u ∈ w.uploads, u.number < w.next
  storedBelow : ∀ n ∈ w.stored, n < w.next
  storedPlain : ∀ slot, ∀ n ∈ w.stored, (slot, n) ∉ w.plain
  plain : ∀ file ∈ w.plain, w.Accountable file
  plainBelow : ∀ file ∈ w.plain, file.2 < w.next
  submitted : ∀ u ∈ w.uploads, ∀ slot, (slot, u.number) ∈ w.plain → slot ∈ u.submitted

theorem Start.sound (hstart : Start w) : w.Sound := by
  obtain ⟨hrow, hplain, huploads, hstored⟩ := hstart
  refine ⟨?_, ?_, ?_, ?_, ?_, ?_, ?_, ?_, ?_⟩
  · intro slot n hslot
    rw [hrow] at hslot
    cases hslot
  all_goals simp [hplain, huploads, hstored]

end KycWorld

theorem KycUpload.Sound.mono {plain plain' encrypted encrypted' : Finset (KycSlot × ℕ)} {stored stored' : List ℕ}
    {u : KycUpload} (hsound : u.Sound plain encrypted stored)
    (hplain : ∀ slot, (slot, u.number) ∈ plain' → (slot, u.number) ∈ plain)
    (hencrypted : u.number ∉ stored → ∀ slot, (slot, u.number) ∈ encrypted → (slot, u.number) ∈ encrypted')
    (hsub : stored ⊆ stored') (hnew : u.number ∈ stored' → u.number ∈ stored) :
    u.Sound plain' encrypted' stored' := by
  unfold Sound at hsound ⊢
  cases hphase : u.phase with
  | received =>
    rw [hphase] at hsound
    exact fun hmem => hsound (hnew hmem)
  | read existing =>
    rw [hphase] at hsound
    exact ⟨fun hmem => hsound.1 (hnew hmem), fun slot n hslot => hsub (hsound.2 slot n hslot)⟩
  | encrypted existing =>
    rw [hphase] at hsound
    obtain ⟨hfresh, hexisting, hfiles, hgone⟩ := hsound
    exact ⟨fun hmem => hfresh (hnew hmem), fun slot n hslot => hsub (hexisting slot n hslot),
      fun slot hslot => hencrypted hfresh slot (hfiles slot hslot), fun slot hmem => hgone slot (hplain slot hmem)⟩
  | updated existing =>
    rw [hphase] at hsound
    exact ⟨hsub hsound.1, fun slot n hslot => hsub (hsound.2 slot n hslot)⟩

namespace KycWorld

theorem nodup_eraseIdx (hsound : w.Sound) (i : ℕ) : ((w.uploads.eraseIdx i).map KycUpload.number).Nodup :=
  hsound.numbers.sublist ((List.eraseIdx_sublist w.uploads i).map _)

theorem nodup_put (hsound : w.Sound) (hu : w.uploads[i]? = some u) (hnumber : u'.number = u.number) :
    ((w.uploads.eraseIdx i ++ [u']).map KycUpload.number).Nodup := by
  rw [List.map_append, List.nodup_append]
  refine ⟨nodup_eraseIdx hsound i, List.nodup_singleton _, ?_⟩
  intro n hn n' hn' heq
  obtain ⟨other, hother, rfl⟩ := List.mem_map.mp hn
  have hn' : n' = u'.number := List.mem_singleton.mp hn'
  exact InFlight.key_ne hsound.numbers hu hother (heq.trans (hn'.trans hnumber))

/-- An upload ends: the others lose no file of theirs, nor does the row. -/
theorem Sound.drop (hsound : w.Sound) (hu : w.uploads[i]? = some u) (hrow : w'.row = w.row)
    (huploads : w'.uploads = w.uploads.eraseIdx i) (hnext : w'.next = w.next) (hstored : w'.stored = w.stored)
    (hreplies : ∀ reply ∈ w.replies, reply ∈ w'.replies) (hplain : w'.plain ⊆ w.plain)
    (hencrypted : ∀ file ∈ w.encrypted, file ∈ w'.encrypted ∨ file.2 ∈ w.stored ∧ u.Dooms file.1 file.2)
    (hleft : ∀ file ∈ w'.plain, file.2 = u.number →
      ∃ reply ∈ w'.replies, reply.1 = file.2 ∧ LeavesFiles reply.2) : w'.Sound where
  row slot n hslot := by
    rw [hrow] at hslot
    obtain ⟨hfile, hmem, hkept⟩ := hsound.row slot n hslot
    rw [hstored, huploads]
    refine ⟨?_, hmem, fun other hother => hkept other (List.mem_of_mem_eraseIdx hother)⟩
    rcases hencrypted _ hfile with hthere | ⟨-, hdoomed⟩
    · exact hthere
    · exact absurd hdoomed (hkept u (List.mem_of_getElem? hu))
  uploads other hother := by
    rw [huploads] at hother
    rw [hstored]
    refine (hsound.uploads other (List.mem_of_mem_eraseIdx hother)).mono (fun slot hmem => hplain hmem) ?_
      (List.Subset.refl _) id
    intro hfresh slot hfile
    rcases hencrypted _ hfile with hthere | ⟨hmem, -⟩
    · exact hthere
    · exact absurd hmem hfresh
  numbers := by
    rw [huploads]
    exact nodup_eraseIdx hsound i
  below other hother := by
    rw [huploads] at hother
    rw [hnext]
    exact hsound.below other (List.mem_of_mem_eraseIdx hother)
  storedBelow := by
    rw [hstored, hnext]
    exact hsound.storedBelow
  storedPlain slot n hn hmem := by
    rw [hstored] at hn
    exact hsound.storedPlain slot n hn (hplain hmem)
  plain file hfile := by
    rcases hsound.plain file (hplain hfile) with ⟨other, hother, hnumber, hphase⟩ | ⟨reply, hreply, hfrom⟩
    · rcases (InFlight.mem_iff hu).mp hother with rfl | hother
      · exact .inr (hleft file hfile hnumber.symm)
      · rw [← huploads] at hother
        exact .inl ⟨other, hother, hnumber, hphase⟩
    · exact .inr ⟨reply, hreplies reply hreply, hfrom⟩
  plainBelow file hfile := by
    rw [hnext]
    exact hsound.plainBelow file (hplain hfile)
  submitted other hother slot hmem := by
    rw [huploads] at hother
    exact hsound.submitted other (List.mem_of_mem_eraseIdx hother) slot (hplain hmem)

/-- An upload goes on: it is sound in its new phase, and has not stored anything yet. -/
theorem Sound.advance {v : KycUpload} (hsound : w.Sound) (hu : w.uploads[i]? = some u) (hnumber : v.number = u.number)
    (hsubmitted : v.submitted = u.submitted)
    (hv : v.Sound w'.plain w'.encrypted w'.stored) (hphase : ∀ existing, v.phase ≠ .updated existing)
    (hrow : w'.row = w.row) (huploads : w'.uploads = w.uploads.eraseIdx i ++ [v]) (hnext : w'.next = w.next)
    (hstored : w'.stored = w.stored) (hreplies : w'.replies = w.replies) (hplain : w'.plain ⊆ w.plain)
    (hencrypted : w.encrypted ⊆ w'.encrypted)
    (hleft : ∀ file ∈ w'.plain, file.2 = u.number → ∀ existing, v.phase ≠ .encrypted existing) : w'.Sound where
  row slot n hslot := by
    rw [hrow] at hslot
    obtain ⟨hfile, hmem, hkept⟩ := hsound.row slot n hslot
    rw [hstored, huploads]
    refine ⟨hencrypted hfile, hmem, fun other hother => ?_⟩
    rcases List.mem_append.mp hother with hother | hnew
    · exact hkept other (List.mem_of_mem_eraseIdx hother)
    · obtain rfl := List.mem_singleton.mp hnew
      rintro ⟨existing, hupdated, -⟩
      exact hphase existing hupdated
  uploads other hother := by
    rw [huploads] at hother
    rcases List.mem_append.mp hother with hother | hnew
    · rw [hstored]
      exact (hsound.uploads other (List.mem_of_mem_eraseIdx hother)).mono (fun slot hmem => hplain hmem)
        (fun _ slot hfile => hencrypted hfile) (List.Subset.refl _) id
    · obtain rfl := List.mem_singleton.mp hnew
      exact hv
  numbers := by
    rw [huploads]
    exact nodup_put hsound hu hnumber
  below other hother := by
    rw [huploads] at hother
    rw [hnext]
    rcases List.mem_append.mp hother with hother | hnew
    · exact hsound.below other (List.mem_of_mem_eraseIdx hother)
    · obtain rfl := List.mem_singleton.mp hnew
      rw [hnumber]
      exact hsound.below u (List.mem_of_getElem? hu)
  storedBelow := by
    rw [hstored, hnext]
    exact hsound.storedBelow
  storedPlain slot n hn hmem := by
    rw [hstored] at hn
    exact hsound.storedPlain slot n hn (hplain hmem)
  plain file hfile := by
    rcases hsound.plain file (hplain hfile) with ⟨other, hother, hfrom, hearly⟩ | ⟨reply, hreply, hfrom⟩
    · left
      rw [huploads]
      rcases (InFlight.mem_iff hu).mp hother with rfl | hother
      · exact ⟨v, List.mem_append_right _ (List.mem_singleton_self _), hnumber.trans hfrom,
          fun existing => ⟨hleft file hfile hfrom.symm existing, hphase existing⟩⟩
      · exact ⟨other, List.mem_append_left _ hother, hfrom, hearly⟩
    · rw [← hreplies] at hreply
      exact .inr ⟨reply, hreply, hfrom⟩
  plainBelow file hfile := by
    rw [hnext]
    exact hsound.plainBelow file (hplain hfile)
  submitted other hother slot hmem := by
    rw [huploads] at hother
    rcases List.mem_append.mp hother with hother | hnew
    · exact hsound.submitted other (List.mem_of_mem_eraseIdx hother) slot (hplain hmem)
    · obtain rfl := List.mem_singleton.mp hnew
      rw [hnumber] at hmem
      rw [hsubmitted]
      exact hsound.submitted u (List.mem_of_getElem? hu) slot (hplain hmem)

theorem handled_cases (w : KycWorld) (u : KycUpload) (existing : KycPaths) (failsAt : Option KycSlot) :
    (∃ slot : KycSlot, w.handled u existing failsAt = w.answer u (.error slot.missing)) ∨
    (∃ slot : KycSlot, w.handled u existing failsAt = (w.unlink u).answer u (.error slot.mismatch)) ∨
    (∃ slots error, w.handled u existing failsAt =
      ((w.encrypt (u.filesIn slots)).unlink u).answer u (.error error)) ∨
    w.handled u existing failsAt = (w.encrypt u.files).put { u with phase := .encrypted existing } := by
  unfold handled
  split
  · exact .inl ⟨_, rfl⟩
  · exact .inr (.inl ⟨_, rfl⟩)
  · exact .inr (.inr (.inl ⟨_, _, rfl⟩))
  · exact .inr (.inr (.inr rfl))

theorem Sound.receive (hsound : w.Sound) (submitted genuine : Finset KycSlot) :
    ({ w.put ⟨w.next, submitted, genuine, .received⟩ with
        plain := w.plain ∪ (KycUpload.mk w.next submitted genuine .received).files
        next := w.next + 1 } : KycWorld).Sound where
  row slot n hslot := by
    obtain ⟨hfile, hmem, hkept⟩ := hsound.row slot n hslot
    refine ⟨hfile, hmem, fun other hother => ?_⟩
    rcases List.mem_append.mp hother with hother | hnew
    · exact hkept other hother
    · obtain rfl := List.mem_singleton.mp hnew
      rintro ⟨existing, hupdated, -⟩
      cases hupdated
  uploads other hother := by
    rcases List.mem_append.mp hother with hother | hnew
    · have hbelow := hsound.below other hother
      refine (hsound.uploads other hother).mono (fun slot hmem => ?_) (fun _ _ hfile => hfile)
        (List.Subset.refl _) id
      rcases Finset.mem_union.mp hmem with hmem | hfile
      · exact hmem
      · have hnumber : other.number = w.next := (KycUpload.mem_files.mp hfile).2
        omega
    · obtain rfl := List.mem_singleton.mp hnew
      intro hmem
      exact absurd (hsound.storedBelow _ hmem) (Nat.lt_irrefl _)
  numbers := by
    show ((w.uploads ++ [_]).map KycUpload.number).Nodup
    rw [List.map_append, List.nodup_append]
    refine ⟨hsound.numbers, List.nodup_singleton _, ?_⟩
    intro n hn n' hn' heq
    obtain ⟨other, hother, rfl⟩ := List.mem_map.mp hn
    have hnext : n' = w.next := List.mem_singleton.mp hn'
    have hbelow := hsound.below other hother
    omega
  below other hother := by
    rcases List.mem_append.mp hother with hother | hnew
    · exact Nat.lt_succ_of_lt (hsound.below other hother)
    · obtain rfl := List.mem_singleton.mp hnew
      exact Nat.lt_succ_self _
  storedBelow n hn := Nat.lt_succ_of_lt (hsound.storedBelow n hn)
  storedPlain slot n hn hmem := by
    rcases Finset.mem_union.mp hmem with hmem | hfile
    · exact hsound.storedPlain slot n hn hmem
    · have hnumber : n = w.next := (KycUpload.mem_files.mp hfile).2
      have hbelow := hsound.storedBelow n hn
      omega
  plain file hfile := by
    rcases Finset.mem_union.mp hfile with hmem | hfile
    · rcases hsound.plain file hmem with ⟨other, hother, hfrom⟩ | hreply
      · exact .inl ⟨other, List.mem_append_left _ hother, hfrom⟩
      · exact .inr hreply
    · refine .inl ⟨_, List.mem_append_right _ (List.mem_singleton_self _), (KycUpload.mem_files.mp hfile).2.symm, ?_⟩
      exact fun existing => ⟨KycPhase.noConfusion, KycPhase.noConfusion⟩
  plainBelow file hfile := by
    rcases Finset.mem_union.mp hfile with hmem | hfile
    · exact Nat.lt_succ_of_lt (hsound.plainBelow file hmem)
    · rw [(KycUpload.mem_files.mp hfile).2]
      exact Nat.lt_succ_self _
  submitted other hother slot hmem := by
    rcases List.mem_append.mp hother with hother | hnew
    · have hbelow := hsound.below other hother
      rcases Finset.mem_union.mp hmem with hmem | hfile
      · exact hsound.submitted other hother slot hmem
      · have hnumber : other.number = w.next := (KycUpload.mem_files.mp hfile).2
        omega
    · obtain rfl := List.mem_singleton.mp hnew
      rcases Finset.mem_union.mp hmem with hmem | hfile
      · exact absurd (hsound.plainBelow _ hmem) (Nat.lt_irrefl _)
      · exact (KycUpload.mem_files.mp hfile).1

/-- Nothing of the upload is left in plain text once its files are unlinked. -/
theorem Sound.unlinked (hsound : w.Sound) (hu : w.uploads[i]? = some u) {file : KycSlot × ℕ}
    (hfile : file ∈ w.plain \ u.files) : file.2 ≠ u.number := by
  intro hnumber
  obtain ⟨hmem, hnot⟩ := Finset.mem_sdiff.mp hfile
  obtain ⟨slot, n⟩ := file
  obtain rfl : n = u.number := hnumber
  exact hnot (KycUpload.mem_files.mpr ⟨hsound.submitted u (List.mem_of_getElem? hu) slot hmem, rfl⟩)

/-- Once the handler has written the row, its own files and those of the places it left are there. -/
theorem Sound.update (hsound : w.Sound) (hu : w.uploads[i]? = some u) {existing : KycPaths}
    (hphase : u.phase = .encrypted existing)
    (hfresh : ∀ slot, slot ∉ u.submitted → existing slot = w.row slot) :
    ((({ w with row := u.paths existing, stored := w.stored ++ [u.number] }).take i).put
      { u with phase := .updated existing }).Sound := by
  have hmem := List.mem_of_getElem? hu
  have hown := hsound.uploads u hmem
  rw [KycUpload.Sound, hphase] at hown
  obtain ⟨hnew, hexisting, hfiles, hgone⟩ := hown
  have hother {other : KycUpload} (hothers : other ∈ w.uploads.eraseIdx i) : other ∈ w.uploads :=
    List.mem_of_mem_eraseIdx hothers
  have hnumbers : ((w.uploads.eraseIdx i ++ [{ u with phase := .updated existing }]).map KycUpload.number).Nodup :=
    nodup_put hsound hu rfl
  refine ⟨fun slot n hslot => ?_, fun other hothers => ?_, hnumbers, fun other hothers => ?_,
    fun n hn => ?_, fun slot n hn => ?_, fun file hfile => ?_, hsound.plainBelow, fun other hothers => ?_⟩
  · -- what the upload brought is in no snapshot yet, and what it kept is what is stored
    have hslot : (if slot ∈ u.submitted then some u.number else existing slot) = some n := hslot
    split at hslot
    · next hsent =>
      obtain rfl := Option.some.inj hslot
      refine ⟨hfiles slot hsent, List.mem_append_right _ (List.mem_singleton_self _), fun other hothers => ?_⟩
      rintro ⟨snapshot, hupdated, -, hold⟩
      rcases List.mem_append.mp hothers with hothers | hself
      · have hsnapshot := hsound.uploads other (hother hothers)
        rw [KycUpload.Sound, hupdated] at hsnapshot
        exact hnew (hsnapshot.2 slot _ hold)
      · obtain rfl := List.mem_singleton.mp hself
        obtain rfl := KycPhase.updated.inj hupdated
        exact hnew (hexisting slot _ hold)
    · next hsent =>
      rw [hfresh slot hsent] at hslot
      obtain ⟨hfile, hn, hkept⟩ := hsound.row slot n hslot
      refine ⟨hfile, List.mem_append_left _ hn, fun other hothers => ?_⟩
      rcases List.mem_append.mp hothers with hothers | hself
      · exact hkept other (hother hothers)
      · obtain rfl := List.mem_singleton.mp hself
        rintro ⟨snapshot, -, hsubmitted, -⟩
        exact hsent hsubmitted
  · rcases List.mem_append.mp hothers with hothers | hself
    · refine (hsound.uploads other (hother hothers)).mono (fun _ hfile => hfile) (fun _ _ hfile => hfile)
        (List.subset_append_left _ _) fun hstored => ?_
      rcases List.mem_append.mp hstored with hstored | hnumber
      · exact hstored
      · exact absurd (List.mem_singleton.mp hnumber) (InFlight.key_ne hsound.numbers hu hothers)
    · obtain rfl := List.mem_singleton.mp hself
      exact ⟨List.mem_append_right _ (List.mem_singleton_self _),
        fun slot n hslot => List.mem_append_left _ (hexisting slot n hslot)⟩
  · rcases List.mem_append.mp hothers with hothers | hself
    · exact hsound.below other (hother hothers)
    · obtain rfl := List.mem_singleton.mp hself
      exact hsound.below u hmem
  · rcases List.mem_append.mp hn with hn | hnumber
    · exact hsound.storedBelow n hn
    · rw [List.mem_singleton.mp hnumber]
      exact hsound.below u hmem
  · rcases List.mem_append.mp hn with hn | hnumber
    · exact hsound.storedPlain slot n hn
    · rw [List.mem_singleton.mp hnumber]
      exact hgone slot
  · rcases hsound.plain file hfile with ⟨other, hothers, hfrom, hearly⟩ | hreply
    · rcases (InFlight.mem_iff hu).mp hothers with rfl | hothers
      · exact absurd hphase (hearly existing).1
      · exact .inl ⟨other, List.mem_append_left _ hothers, hfrom, hearly⟩
    · exact .inr hreply
  · rcases List.mem_append.mp hothers with hothers | hself
    · exact hsound.submitted other (hother hothers)
    · obtain rfl := List.mem_singleton.mp hself
      exact hsound.submitted u hmem

theorem Sound.step (hsound : w.Sound) (hfresh : Fresh w event) (hstep : step w event = some w') : w'.Sound := by
  cases event with
  | receive submitted genuine =>
    rw [KycWorld.step] at hstep
    split at hstep
    · cases hstep
    · obtain rfl := Option.some.inj hstep
      exact hsound.receive submitted genuine
  | read i =>
    obtain ⟨u, hu, hphase, rfl⟩ := step_read hstep
    have hown := hsound.uploads u (List.mem_of_getElem? hu)
    rw [KycUpload.Sound, hphase] at hown
    refine hsound.advance (v := { u with phase := .read w.row }) hu rfl rfl ⟨hown, ?_⟩
      (fun _ => KycPhase.noConfusion) rfl rfl rfl rfl rfl
      (Finset.Subset.refl _) (Finset.Subset.refl _) (fun _ _ _ _ => KycPhase.noConfusion)
    exact fun slot n hslot => (hsound.row slot n hslot).2.1
  | handle i failsAt =>
    obtain ⟨u, existing, hu, hphase, rfl⟩ := step_handle hstep
    have hown := hsound.uploads u (List.mem_of_getElem? hu)
    rw [KycUpload.Sound, hphase] at hown
    have hreplied {replies : List (ℕ × Except String String)} (reply : ℕ × Except String String)
        (hreply : reply ∈ w.replies) : reply ∈ w.replies ++ replies := List.mem_append_left _ hreply
    rcases handled_cases (w.take i) u existing failsAt with
      ⟨slot, hcase⟩ | ⟨slot, hcase⟩ | ⟨slots, error, hcase⟩ | hcase
    · rw [hcase]
      refine hsound.drop hu rfl rfl rfl rfl hreplied (Finset.Subset.refl _) (fun _ hfile => .inl hfile) ?_
      intro file _ hnumber
      exact ⟨_, List.mem_append_right _ (List.mem_singleton_self _), hnumber.symm, .inr ⟨slot, rfl⟩⟩
    · rw [hcase]
      refine hsound.drop hu rfl rfl rfl rfl hreplied Finset.sdiff_subset (fun _ hfile => .inl hfile) ?_
      exact fun file hfile hnumber => absurd hnumber (hsound.unlinked hu hfile)
    · rw [hcase]
      refine hsound.drop hu rfl rfl rfl rfl hreplied ?_ (fun _ hfile => .inl (Finset.mem_union_left _ hfile)) ?_
      · exact Finset.sdiff_subset.trans Finset.sdiff_subset
      · intro file hfile hnumber
        have hplain : file ∈ w.plain \ u.files :=
          Finset.sdiff_subset_sdiff Finset.sdiff_subset (Finset.Subset.refl _) hfile
        exact absurd hnumber (hsound.unlinked hu hplain)
    · rw [hcase]
      have hunlinked (slot : KycSlot) : (slot, u.number) ∉ w.plain \ u.files :=
        fun hfile => hsound.unlinked hu hfile rfl
      refine hsound.advance (v := { u with phase := .encrypted existing }) hu rfl rfl
        ⟨hown.1, hown.2, fun slot hslot => ?_, hunlinked⟩ (fun _ => KycPhase.noConfusion) rfl rfl rfl rfl rfl
        Finset.sdiff_subset Finset.subset_union_left ?_
      · exact Finset.mem_union_right _ (KycUpload.mem_files.mpr ⟨hslot, rfl⟩)
      · exact fun file hfile hnumber => absurd hnumber (hsound.unlinked hu hfile)
  | update i =>
    obtain ⟨u, existing, hu, hphase, rfl⟩ := step_update hstep
    have hkeeps := hfresh u hu
    rw [KycUpload.KeepsRow, hphase] at hkeeps
    exact hsound.update hu hphase fun slot => hkeeps slot slot.mem_all
  | finish i =>
    obtain ⟨u, existing, hu, hphase, rfl⟩ := step_finish hstep
    have hown := hsound.uploads u (List.mem_of_getElem? hu)
    rw [KycUpload.Sound, hphase] at hown
    refine hsound.drop hu rfl rfl rfl rfl (fun reply hreply => List.mem_append_left _ hreply)
      (Finset.Subset.refl _) (fun file hfile => ?_) ?_
    · by_cases hreplaced : file ∈ u.replaced existing
      · obtain ⟨hslot, hold⟩ := KycUpload.mem_replaced hreplaced
        exact .inr ⟨hown.2 _ _ hold, existing, hphase, hslot, hold⟩
      · exact .inl (Finset.mem_sdiff.mpr ⟨hfile, hreplaced⟩)
    · intro file hfile hnumber
      have hnot := hsound.storedPlain file.1 u.number hown.1
      rw [← hnumber] at hnot
      exact absurd hfile hnot
  | fail i =>
    obtain ⟨u, hu, ⟨hphase, rfl⟩ | rfl⟩ := step_fail hstep
    · refine hsound.drop hu rfl rfl rfl rfl (fun reply hreply => List.mem_append_left _ hreply)
        (Finset.Subset.refl _) (fun _ hfile => .inl hfile) ?_
      intro file _ hnumber
      exact ⟨_, List.mem_append_right _ (List.mem_singleton_self _), hnumber.symm, .inl rfl⟩
    · refine hsound.drop hu rfl rfl rfl rfl (fun reply hreply => List.mem_append_left _ hreply)
        Finset.sdiff_subset (fun _ hfile => .inl hfile) ?_
      exact fun file hfile hnumber => absurd hnumber (hsound.unlinked hu hfile)

/-- In runs in which no update takes the place of a document that was not sent back to what it was when the
handler read it: every document in the row is on disk, encrypted and not in plain text. What lies in plain
text is of an upload still to be handled, or of one that was refused for a missing document or failed. -/
theorem kycDocuments_stored (hreach : Reach step Fresh Start w) :
    (∀ slot n, w.row slot = some n → (slot, n) ∈ w.encrypted ∧ (slot, n) ∉ w.plain) ∧
      ∀ file ∈ w.plain, w.Accountable file := by
  have hsound : w.Sound := by
    apply hreach.invariant
    · exact fun _ hstart => hstart.sound
    · exact fun _ _ _ hsound hfresh hstep => hsound.step hfresh hstep
  refine ⟨fun slot n hslot => ?_, hsound.plain⟩
  obtain ⟨hfile, hstored, -⟩ := hsound.row slot n hslot
  exact ⟨hfile, hsound.storedPlain slot n hstored⟩

/-- A selfie is sent again after all three documents. -/
theorem kycDocuments_stored_again : ∃ w : KycWorld, w.row .selfie = some 1 ∧
    (∀ slot n, w.row slot = some n → (slot, n) ∈ w.encrypted ∧ (slot, n) ∉ w.plain) ∧
      ∀ file ∈ w.plain, w.Accountable file := by
  let slots := KycSlot.all.toFinset
  let start : KycWorld := ⟨fun _ => none, ∅, ∅, [], [], 0, []⟩
  let events : List KycEvent := [.receive slots slots, .read 0, .handle 0 none, .update 0, .finish 0,
    .receive {.selfie} slots, .read 0, .handle 0 none, .update 0, .finish 0]
  have hok : RunOk step Fresh start events := by decide +kernel
  obtain ⟨w, hrun, hselfie⟩ := exists_of_run_any step start events (fun w => decide (w.row .selfie = some 1))
    (by decide +kernel)
  have hreach : Reach step Fresh Start w := Reach.of_run (.init ⟨fun _ => rfl, rfl, rfl, rfl⟩) hok hrun
  exact ⟨w, of_decide_eq_true hselfie, kycDocuments_stored hreach⟩

/-- A selfie and a front page are sent again at once: the second update puts the old selfie back, which the
first upload deletes. -/
example : (run step ⟨fun _ => none, ∅, ∅, [], [], 0, []⟩
    [.receive KycSlot.all.toFinset KycSlot.all.toFinset, .read 0, .handle 0 none, .update 0, .finish 0,
      .receive {.selfie} {.selfie}, .receive {.idDocument} {.idDocument}, .read 0, .read 0, .handle 0 none,
      .handle 0 none, .update 0, .update 0, .finish 0]).any
        (fun w => w.row .selfie = some 0 && decide ((.selfie, 0) ∉ w.encrypted)) = true := by
  decide +kernel

end KycWorld

end PropFirm
