import Mathlib
import PropFirm.Lib.Doubles
import PropFirm.Lib.SeparatedFields

/-!
# Signed certificates

`issueCertificate` signs what the caller passes, and `verifyCertificateSignature` recomputes the signature
from the row. The row is what the database makes of the same values: a `uuid`, a `NUMERIC(15,2)`, a
`timestamptz`. The payload joins the fields by bars, two of which are free texts.
-/

namespace PropFirm

open Doubles IsoDates SeparatedFields

/-! ### Values of the database -/

/-- A `uuid`: the hexadecimal digits of its sixteen bytes. -/
structure Uuid where
  digits : List Char
  length_digits : digits.length = 32
  plain : '|' ∉ digits
  deriving DecidableEq

def isHexDigit (c : Char) : Bool := c.isDigit || ('a' ≤ c && c ≤ 'f') || ('A' ≤ c && c ≤ 'F')

/-- The digits of that many bytes, lower case; a hyphen may follow every second byte but the last. -/
def readUuidBytes : ℕ → List Char → Option (List Char × List Char)
  | 0, cs => some ([], cs)
  | left + 1, c₁ :: c₂ :: cs =>
    if isHexDigit c₁ && isHexDigit c₂ then
      let cs := if cs.head? = some '-' ∧ left % 2 = 0 ∧ 0 < left then cs.tail else cs
      (readUuidBytes left cs).map fun read => (c₁.toLower :: c₂.toLower :: read.1, read.2)
    else none
  | _, _ => none

/-- `uuid_in`: the text may stand in braces. -/
def readUuid (text : List Char) : Option (List Char) :=
  match text with
  | '{' :: cs => (readUuidBytes 16 cs).bind fun read => if read.2 = ['}'] then some read.1 else none
  | cs => (readUuidBytes 16 cs).bind fun read => if read.2 = [] then some read.1 else none

namespace Uuid

/-- `uuid_out`. -/
def text (id : Uuid) : List Char :=
  id.digits.take 8 ++ '-' :: (id.digits.drop 8).take 4 ++ '-' :: (id.digits.drop 12).take 4 ++
    '-' :: (id.digits.drop 16).take 4 ++ '-' :: id.digits.drop 20

def ofText? (text : String) : Option Uuid :=
  (readUuid text.toList).bind fun digits =>
    if h : digits.length = 32 ∧ '|' ∉ digits then some ⟨digits, h.1, h.2⟩ else none

end Uuid

/-- The `CHECK` on `certificates.kind`, and `CERTIFICATE_KINDS`. -/
inductive CertificateKind
  | phasePassed | funded | payout | custom
  deriving DecidableEq

namespace CertificateKind

def text : CertificateKind → String
  | phasePassed => "phase_passed"
  | funded => "funded"
  | payout => "payout"
  | custom => "custom"

def ofText? (text : String) : Option CertificateKind :=
  [phasePassed, funded, payout, custom].find? fun kind => kind.text = text

end CertificateKind

/-- A `NUMERIC(15,2)`. -/
inductive StoredAmount
  | nan
  | cents (n : ℤ) (bound : n.natAbs < 10 ^ 15)
  deriving DecidableEq

/-! ### Signing -/

/-- An amount as the signature sees it: `NaN`, or a number by the decimal it is written as. -/
inductive CertificateAmount
  | nan
  | decimal (d : ℚ)

def CertificateAmount.text : CertificateAmount → String
  | nan => "NaN"
  | decimal d => toFixedTwo (nearestDouble d)

/-- The fields of a draft or of a row that are signed, with the date in milliseconds. -/
structure SignedFields where
  publicId : String
  userId : String
  kind : String
  title : String
  amount : Option CertificateAmount
  issuedAt : ℤ

/-- `none` where an invalid date throws. -/
def buildSignaturePayload (certificate : SignedFields) : Option String :=
  (toISOString certificate.issuedAt).map fun issuedAt =>
    "|".intercalate [certificate.publicId, certificate.userId, certificate.kind, certificate.title,
      (certificate.amount.map CertificateAmount.text).getD "", issuedAt]

/-- Over the digest, cut to the length that is shown. -/
def signCertificate (hmac : String → String) (certificate : SignedFields) : Option String :=
  (buildSignaturePayload certificate).map hmac

def verifyCertificateSignature (hmac : String → String) (certificate : SignedFields) (signature : String) : Bool :=
  match signCertificate hmac certificate with
  | none => false
  | some expected => expected = signature

/-! ### Issuing -/

/-- A row of `certificates`, with the date in microseconds. -/
structure CertificateRow where
  publicId : String
  userId : Uuid
  kind : CertificateKind
  title : String
  amount : Option StoredAmount
  issuedAt : ℤ
  signature : String

/-- What the driver makes of the row. -/
def CertificateRow.readBack (row : CertificateRow) : SignedFields where
  publicId := row.publicId
  userId := .ofList row.userId.text
  kind := row.kind.text
  title := row.title
  amount := row.amount.map fun
    | .nan => .nan
    | .cents n _ => .decimal (n / 100)
  issuedAt := row.issuedAt / 1000

def CertificateRow.Verifies (hmac : String → String) (row : CertificateRow) : Prop :=
  verifyCertificateSignature hmac row.readBack row.signature = true

structure CertificateRequest where
  userId : String
  kind : String
  title : String
  amount : Option CertificateAmount

/-- Four hexadecimal digits, upper case. -/
def publicIdBlock (n : ℕ) : String :=
  .ofList ([n / 4096 % 16, n / 256 % 16, n / 16 % 16, n % 16].map fun d => (Nat.digitChar d).toUpper)

def generatePublicId (now : ℤ) (blocks : ℕ × ℕ) : String :=
  "PF-" ++ toString (civilOfDays (now / 86400000)).year ++ "-" ++ publicIdBlock blocks.1 ++ "-" ++
    publicIdBlock blocks.2

/-- The column takes what rounds to thirteen digits before the point. -/
def StoredAmount.ofAmount? : CertificateAmount → Option StoredAmount
  | .nan => some .nan
  | .decimal d =>
    if bound : (roundHalfAway (d * 100)).natAbs < 10 ^ 15 then some (.cents (roundHalfAway (d * 100)) bound) else none

/-- A certificate may have no amount. -/
def storedAmount? : Option CertificateAmount → Option (Option StoredAmount)
  | none => some none
  | some amount => (StoredAmount.ofAmount? amount).map some

/-- The attempt whose public id is new, and whose source key is. -/
def issueCertificate (hmac : String → String) (now : ℤ) (blocks : ℕ × ℕ) (request : CertificateRequest) :
    Option CertificateRow := do
  if request.userId = "" then none else
  let kind ← CertificateKind.ofText? request.kind
  if request.title = "" then none else
  let draft : SignedFields :=
    { publicId := generatePublicId now blocks
      userId := request.userId
      kind := request.kind
      title := request.title
      amount := request.amount
      issuedAt := now }
  let signature ← signCertificate hmac draft
  let userId ← Uuid.ofText? request.userId
  let amount ← storedAmount? request.amount
  -- the database takes no text with a null character
  if request.title.toList.contains (Char.ofNat 0) then none else
  some
    { publicId := draft.publicId
      userId := userId
      kind := kind
      title := request.title
      amount := amount
      issuedAt := now * 1000
      signature := signature }

/-! ### What the payload tells -/

namespace Uuid

theorem length_text (id : Uuid) : id.text.length = 36 := by
  simp [text, id.length_digits]

theorem bar_not_mem_text (id : Uuid) : '|' ∉ id.text := by
  have htake : ∀ m n, '|' ∉ (id.digits.drop m).take n := fun m n h =>
    id.plain (List.mem_of_mem_drop (List.mem_of_mem_take h))
  have hfirst : '|' ∉ id.digits.take 8 := fun h => id.plain (List.mem_of_mem_take h)
  have hlast : '|' ∉ id.digits.drop 20 := fun h => id.plain (List.mem_of_mem_drop h)
  simp [text, htake, hfirst, hlast]

theorem text_inj {id id' : Uuid} (h : id.text = id'.text) : id = id' := by
  have hlength := id.length_digits
  have hlength' := id'.length_digits
  rw [text, text] at h
  obtain ⟨h, h5⟩ := List.append_inj' h (by simp [hlength, hlength'])
  obtain ⟨h, h4⟩ := List.append_inj' h (by simp [hlength, hlength'])
  obtain ⟨h, h3⟩ := List.append_inj' h (by simp [hlength, hlength'])
  obtain ⟨h1, h2⟩ := List.append_inj' h (by simp [hlength, hlength'])
  have hdigits : ∀ ds : List Char, ds = ds.take 8 ++ ((ds.drop 8).take 4 ++ ((ds.drop 12).take 4 ++
      ((ds.drop 16).take 4 ++ ds.drop 20))) := by
    intro ds
    rw [show ds.drop 20 = (ds.drop 16).drop 4 by rw [List.drop_drop], List.take_append_drop,
      show ds.drop 16 = (ds.drop 12).drop 4 by rw [List.drop_drop], List.take_append_drop,
      show ds.drop 12 = (ds.drop 8).drop 4 by rw [List.drop_drop], List.take_append_drop, List.take_append_drop]
  have hsame : id.digits = id'.digits := by
    rw [hdigits id.digits, hdigits id'.digits, h1, (List.cons_eq_cons.mp h2).2, (List.cons_eq_cons.mp h3).2,
      (List.cons_eq_cons.mp h4).2, (List.cons_eq_cons.mp h5).2]
  cases id
  cases id'
  cases hsame
  rfl

end Uuid

namespace CertificateKind

theorem bar_not_mem_text (kind : CertificateKind) : '|' ∉ kind.text.toList := by
  cases kind <;> decide

theorem length_text_lt (kind : CertificateKind) : kind.text.toList.length < 36 := by
  cases kind <;> decide

theorem text_inj {kind kind' : CertificateKind} (h : kind.text = kind'.text) : kind = kind' := by
  cases kind <;> cases kind' <;> first | rfl | exact absurd h (by decide)

theorem text_of_ofText? {text : String} {kind : CertificateKind} (h : ofText? text = some kind) :
    kind.text = text := by
  have hfound := List.find?_some h
  exact of_decide_eq_true hfound

end CertificateKind

theorem bar_not_mem_amount (amount : CertificateAmount) : '|' ∉ amount.text.toList := by
  cases amount with
  | nan => decide
  | decimal d =>
    rw [CertificateAmount.text, toFixedTwo, String.toList_ofList]
    intro hmem
    obtain h | h | h := isDigit_or_of_mem_hundredthsText hmem
    · exact absurd h (by decide)
    · exact absurd h (by decide)
    · exact absurd h (by decide)

namespace SignedFields

def amountText (certificate : SignedFields) : String :=
  (certificate.amount.map CertificateAmount.text).getD ""

/-- The fields before the amount. -/
def texts (certificate : SignedFields) : List Char :=
  certificate.publicId.toList ++ '|' :: (certificate.userId.toList ++ '|' ::
    (certificate.kind.toList ++ '|' :: certificate.title.toList))

theorem bar_not_mem_amountText (certificate : SignedFields) : '|' ∉ certificate.amountText.toList := by
  rw [amountText]
  cases certificate.amount with
  | none => decide
  | some amount => exact bar_not_mem_amount amount

theorem payload_eq_some {certificate : SignedFields} {payload : String}
    (h : buildSignaturePayload certificate = some payload) :
    InRange certificate.issuedAt ∧ payload.toList = (certificate.texts ++ '|' :: certificate.amountText.toList) ++
      '|' :: dateText certificate.issuedAt := by
  obtain ⟨issuedAt, hiso, rfl⟩ := Option.map_eq_some_iff.mp h
  obtain ⟨hrange, htext⟩ := toISOString_eq_some hiso
  refine ⟨hrange, ?_⟩
  rw [← htext]
  change (certificate.publicId ++ "|" ++ certificate.userId ++ "|" ++ certificate.kind ++ "|" ++
    certificate.title ++ "|" ++ certificate.amountText ++ "|" ++ issuedAt).toList = _
  simp only [String.toList_append, texts, show "|".toList = ['|'] from rfl, List.append_assoc, List.cons_append,
    List.nil_append]

theorem isSome_payload_iff {certificate : SignedFields} :
    (∃ payload, buildSignaturePayload certificate = some payload) ↔ InRange certificate.issuedAt := by
  constructor
  · rintro ⟨payload, h⟩
    exact (payload_eq_some h).1
  · intro hrange
    rw [buildSignaturePayload, toISOString, if_pos hrange]
    exact ⟨_, rfl⟩

/-- The date and the amount can be read off the end of the payload. -/
theorem payload_eq_iff {certificate certificate' : SignedFields} (hrange : InRange certificate.issuedAt) :
    buildSignaturePayload certificate' = buildSignaturePayload certificate ↔
      certificate'.texts = certificate.texts ∧ certificate'.amountText = certificate.amountText ∧
        certificate'.issuedAt = certificate.issuedAt := by
  obtain ⟨payload, hpayload⟩ := isSome_payload_iff.mpr hrange
  constructor
  · intro h
    obtain ⟨-, htext⟩ := payload_eq_some hpayload
    obtain ⟨hrange', htext'⟩ := payload_eq_some (h.trans hpayload)
    rw [htext', append_inj_right (bar_not_mem_dateText _) (bar_not_mem_dateText _),
      append_inj_right (bar_not_mem_amountText _) (bar_not_mem_amountText _)] at htext
    obtain ⟨⟨htexts, hamount⟩, hdate⟩ := htext
    exact ⟨htexts, String.toList_inj.mp hamount, dateText_inj hrange' hrange hdate⟩
  · rintro ⟨htexts, hamount, hdate⟩
    obtain ⟨payload', hpayload'⟩ := isSome_payload_iff.mpr (hdate ▸ hrange)
    obtain ⟨-, htext⟩ := payload_eq_some hpayload
    obtain ⟨-, htext'⟩ := payload_eq_some hpayload'
    rw [hpayload, hpayload', Option.some_inj, ← String.toList_inj, htext, htext', htexts, hamount, hdate]

end SignedFields

/-! ### Rows -/

namespace StoredAmount

def read : StoredAmount → CertificateAmount
  | nan => .nan
  | cents n _ => .decimal (n / 100)

theorem read_text_inj {amount amount' : StoredAmount} (h : amount.read.text = amount'.read.text) :
    amount = amount' := by
  have hnan : ∀ n : ℤ, n.natAbs < 10 ^ 15 → toFixedTwo (nearestDouble (n / 100)) ≠ "NaN" := by
    intro n hn hnan
    rw [toFixedTwo_cents hn] at hnan
    have hN : 'N' ∈ hundredthsText (n < 0) n.natAbs := by
      rw [← String.toList_ofList (l := hundredthsText (n < 0) n.natAbs), hnan]
      decide
    obtain h | h | h := isDigit_or_of_mem_hundredthsText hN
    · exact absurd h (by decide)
    · exact absurd h (by decide)
    · exact absurd h (by decide)
  cases amount with
  | nan =>
    cases amount' with
    | nan => rfl
    | cents m hm => exact absurd h.symm (hnan m hm)
  | cents n hn =>
    cases amount' with
    | nan => exact absurd h (hnan n hn)
    | cents m hm =>
      change toFixedTwo (nearestDouble (n / 100)) = toFixedTwo (nearestDouble (m / 100)) at h
      rw [toFixedTwo_cents hn, toFixedTwo_cents hm] at h
      obtain ⟨hsign, habs⟩ := hundredthsText_inj (String.ofList_injective h)
      have hiff := decide_eq_decide.mp hsign
      have hsame : n = m := by omega
      subst hsame
      rfl

end StoredAmount

namespace CertificateRow

variable {row row' : CertificateRow}

/-- The public id of one row goes on, after what the other's is, with what the other has in its next fields,
and the title of the other with what the first has there. -/
def Swallows (row row' : CertificateRow) : Prop :=
  let taken := row.publicId.toList ++ '|' :: (row.userId.text ++ '|' :: row.kind.text.toList)
  let rest := row'.userId.text ++ '|' :: (row'.kind.text.toList ++ '|' :: row'.title.toList)
  row'.publicId.toList = taken ∧ row.title.toList = rest ∨
    ∃ between, row'.publicId.toList = taken ++ '|' :: between ∧ row.title.toList = between ++ '|' :: rest

def SameTexts (row row' : CertificateRow) : Prop :=
  row.publicId = row'.publicId ∧ row.userId = row'.userId ∧ row.kind = row'.kind ∧ row.title = row'.title

/-- The two rows differ in a way that the payload shows. -/
def Told (row row' : CertificateRow) : Prop :=
  row.issuedAt / 1000 ≠ row'.issuedAt / 1000 ∨ row.amount ≠ row'.amount ∨
    ¬ (SameTexts row row' ∨ Swallows row row' ∨ Swallows row' row)

/-- The rest of a public id that goes on, and the title that it comes from. -/
theorem swallows_iff : Swallows row row' ↔ ∃ rest, row'.publicId.toList = row.publicId.toList ++ '|' :: rest ∧
    row.userId.text ++ '|' :: (row.kind.text.toList ++ '|' :: row.title.toList) = rest ++ '|' ::
      (row'.userId.text ++ '|' :: (row'.kind.text.toList ++ '|' :: row'.title.toList)) := by
  rw [Swallows]
  constructor
  · rintro (⟨hid, htitle⟩ | ⟨between, hid, htitle⟩)
    · exact ⟨_, hid, by rw [htitle, List.append_assoc, List.cons_append]⟩
    · refine ⟨row.userId.text ++ '|' :: (row.kind.text.toList ++ '|' :: between), ?_, ?_⟩
      · rw [hid]
        simp only [List.append_assoc, List.cons_append]
      · rw [htitle]
        simp only [List.append_assoc, List.cons_append]
  · rintro ⟨rest, hid, hrest⟩
    obtain ⟨rfl, hkind⟩ | ⟨rest, rfl, hkind⟩ := (append_eq_iff row.userId.bar_not_mem_text).mp hrest
    · -- a kind is no uuid
      obtain ⟨hsame, -⟩ := (append_inj row.kind.bar_not_mem_text row'.userId.bar_not_mem_text).mp hkind
      have hlt := row.kind.length_text_lt
      rw [hsame, Uuid.length_text] at hlt
      exact absurd hlt (lt_irrefl _)
    · obtain ⟨rfl, htitle⟩ | ⟨rest, rfl, htitle⟩ := (append_eq_iff row.kind.bar_not_mem_text).mp hkind
      · exact .inl ⟨hid, htitle⟩
      · refine .inr ⟨rest, ?_, htitle⟩
        rw [hid]
        simp only [List.append_assoc, List.cons_append]

theorem texts_readBack (row : CertificateRow) : row.readBack.texts =
    row.publicId.toList ++ '|' :: (row.userId.text ++ '|' :: (row.kind.text.toList ++ '|' :: row.title.toList)) := by
  rw [SignedFields.texts, readBack, String.toList_ofList]

/-- Free texts at both ends of the fields: one row's may be read as another's. -/
theorem texts_eq_iff : row.readBack.texts = row'.readBack.texts ↔
    SameTexts row row' ∨ Swallows row row' ∨ Swallows row' row := by
  rw [texts_readBack, texts_readBack, append_eq_append_iff, ← swallows_iff]
  refine or_congr ?_ (or_congr_right ?_)
  · rw [append_inj row.userId.bar_not_mem_text row'.userId.bar_not_mem_text,
      append_inj row.kind.bar_not_mem_text row'.kind.bar_not_mem_text, String.toList_inj, String.toList_inj,
      String.toList_inj, SameTexts]
    constructor
    · rintro ⟨hid, huser, hkind, htitle⟩
      exact ⟨hid, Uuid.text_inj huser, CertificateKind.text_inj hkind, htitle⟩
    · rintro ⟨hid, huser, hkind, htitle⟩
      exact ⟨hid, congrArg Uuid.text huser, congrArg CertificateKind.text hkind, htitle⟩
  · exact swallows_iff.symm

theorem amountText_readBack (row : CertificateRow) :
    row.readBack.amountText = (row.amount.map fun amount => amount.read.text).getD "" := by
  rw [SignedFields.amountText, readBack]
  cases row.amount with
  | none => rfl
  | some amount => cases amount <;> rfl

theorem amount_text_ne_empty (amount : CertificateAmount) : amount.text ≠ "" := by
  cases amount with
  | nan => decide
  | decimal d =>
    intro h
    have hlist := congrArg String.toList h
    rw [CertificateAmount.text, toFixedTwo, String.toList_ofList, hundredthsText] at hlist
    exact absurd (List.append_eq_nil_iff.mp hlist).2 (List.cons_ne_nil _ _)

theorem amountText_eq_iff : row.readBack.amountText = row'.readBack.amountText ↔ row.amount = row'.amount := by
  rw [amountText_readBack, amountText_readBack]
  constructor
  · intro h
    cases hamount : row.amount with
    | none =>
      cases hamount' : row'.amount with
      | none => rfl
      | some amount' =>
        rw [hamount, hamount'] at h
        exact absurd h.symm (amount_text_ne_empty amount'.read)
    | some amount =>
      cases hamount' : row'.amount with
      | none =>
        rw [hamount, hamount'] at h
        exact absurd h (amount_text_ne_empty amount.read)
      | some amount' =>
        rw [hamount, hamount'] at h
        exact congrArg some (StoredAmount.read_text_inj h)
  · intro h
    rw [h]

theorem verifies_iff {hmac : String → String} :
    row.Verifies hmac ↔
      ∃ payload, buildSignaturePayload row.readBack = some payload ∧ hmac payload = row.signature := by
  rw [Verifies, verifyCertificateSignature, signCertificate]
  cases buildSignaturePayload row.readBack with
  | none =>
    refine iff_of_false Bool.false_ne_true ?_
    rintro ⟨_, h, -⟩
    cases h
  | some payload =>
    rw [Option.map_some, decide_eq_true_eq]
    constructor
    · intro h
      exact ⟨payload, rfl, h⟩
    · rintro ⟨_, ⟨⟩, h⟩
      exact h

theorem payload_ne_iff (hrange : InRange row.readBack.issuedAt) :
    buildSignaturePayload row'.readBack ≠ buildSignaturePayload row.readBack ↔ Told row row' := by
  rw [ne_eq, SignedFields.payload_eq_iff hrange, amountText_eq_iff]
  constructor
  · intro hne
    by_contra hnot
    rw [Told, not_or, not_or, not_not, not_not, not_not] at hnot
    obtain ⟨hdate, hamount, htexts⟩ := hnot
    exact hne ⟨(texts_eq_iff.mpr htexts).symm, hamount.symm, hdate.symm⟩
  · rintro (hdate' | hamount' | htexts') ⟨htexts, hamount, hdate⟩
    · exact hdate' hdate.symm
    · exact hamount' hamount.symm
    · exact htexts' (texts_eq_iff.mp htexts.symm)

/-- The page looks a row up by its public id, and under one id no field can be taken for another. -/
theorem told_of_publicId_eq (hid : row.publicId = row'.publicId) (hne : ¬ SameTexts row row') : Told row row' := by
  refine .inr (.inr ?_)
  rintro (hsame | hrow | hrow')
  · exact hne hsame
  · obtain ⟨rest, htaken, -⟩ := swallows_iff.mp hrow
    rw [hid, List.self_eq_append_right] at htaken
    cases htaken
  · obtain ⟨rest, htaken, -⟩ := swallows_iff.mp hrow'
    rw [hid, List.self_eq_append_right] at htaken
    cases htaken

/-- A row with the signature of another one. -/
theorem not_verifies_iff {hmac : String → String} (hinj : Function.Injective hmac) (hverifies : row.Verifies hmac)
    (hsignature : row'.signature = row.signature) : ¬ row'.Verifies hmac ↔ Told row row' := by
  obtain ⟨payload, hpayload, hhmac⟩ := verifies_iff.mp hverifies
  rw [← payload_ne_iff (SignedFields.isSome_payload_iff.mp ⟨payload, hpayload⟩)]
  refine not_congr ?_
  rw [verifies_iff, hpayload]
  constructor
  · rintro ⟨payload', hpayload', hhmac'⟩
    rw [hpayload', hinj (hhmac'.trans (hsignature.trans hhmac.symm))]
  · intro h
    exact ⟨payload, h, hhmac.trans hsignature.symm⟩

end CertificateRow

/-! ### What is issued -/

/-- The number and its decimal text have the same sign and round to the same cents. -/
def CertificateAmount.Stable : CertificateAmount → Prop
  | nan => True
  | decimal d => (nearestDouble d < 0 ↔ roundHalfAway (d * 100) < 0) ∧
      ⌊|nearestDouble d| * 100 + 1 / 2⌋ = |roundHalfAway (d * 100)|

/-- The user's id is written as the database writes it, and the amount rounds as the database rounds it. -/
def CertificateRequest.Stable (request : CertificateRequest) : Prop :=
  (∀ id ∈ Uuid.ofText? request.userId, request.userId.toList = id.text) ∧ ∀ amount ∈ request.amount, amount.Stable

section Issue

variable {hmac : String → String} {now : ℤ} {blocks : ℕ × ℕ} {request : CertificateRequest} {row : CertificateRow}

/-- What is signed of a request. -/
def CertificateRequest.draft (request : CertificateRequest) (now : ℤ) (blocks : ℕ × ℕ) : SignedFields where
  publicId := generatePublicId now blocks
  userId := request.userId
  kind := request.kind
  title := request.title
  amount := request.amount
  issuedAt := now

theorem issueCertificate_eq_some (h : issueCertificate hmac now blocks request = some row) :
    signCertificate hmac (request.draft now blocks) = some row.signature ∧
    row.publicId = generatePublicId now blocks ∧ Uuid.ofText? request.userId = some row.userId ∧
    row.kind.text = request.kind ∧ row.title = request.title ∧ row.issuedAt = now * 1000 ∧
    storedAmount? request.amount = some row.amount := by
  rw [issueCertificate] at h
  split at h
  · cases h
  obtain ⟨kind, hkind, h⟩ := Option.bind_eq_some_iff.mp h
  split at h
  · cases h
  obtain ⟨signature, hsignature, h⟩ := Option.bind_eq_some_iff.mp h
  obtain ⟨userId, huser, h⟩ := Option.bind_eq_some_iff.mp h
  obtain ⟨amount, hamount, h⟩ := Option.bind_eq_some_iff.mp h
  split at h
  · cases h
  cases h
  exact ⟨hsignature, rfl, huser, CertificateKind.text_of_ofText? hkind, rfl, rfl, hamount⟩

theorem stable_iff_of_stored {amount : CertificateAmount} {stored : StoredAmount}
    (hstored : StoredAmount.ofAmount? amount = some stored) : stored.read.text = amount.text ↔ amount.Stable := by
  cases amount with
  | nan =>
    cases hstored
    exact iff_of_true rfl trivial
  | decimal d =>
    rw [StoredAmount.ofAmount?] at hstored
    split at hstored
    · rename_i hbound
      cases hstored
      rw [CertificateAmount.Stable]
      change toFixedTwo (nearestDouble (_ / 100)) = toFixedTwo (nearestDouble d) ↔ _
      rw [toFixedTwo_cents hbound, toFixedTwo]
      have hfloor : 0 ≤ ⌊|nearestDouble d| * 100 + 1 / 2⌋ := Int.floor_nonneg.mpr (by positivity)
      constructor
      · intro h
        obtain ⟨hsign, hcents⟩ := hundredthsText_inj (String.ofList_injective h)
        refine ⟨(decide_eq_decide.mp hsign).symm, ?_⟩
        rw [Int.abs_eq_natAbs, hcents, Int.toNat_of_nonneg hfloor]
      · rintro ⟨hsign, hcents⟩
        rw [hcents, Int.abs_eq_natAbs, Int.toNat_natCast]
        exact congrArg (fun b => String.ofList (hundredthsText b _)) (decide_eq_decide.mpr hsign.symm)
    · cases hstored

/-- Whole cents keep their value in the column and in the payload. -/
theorem stable_of_cents {n : ℤ} (hn : n.natAbs < 10 ^ 15) : (CertificateAmount.decimal (n / 100)).Stable := by
  have hround : roundHalfAway ((n : ℚ) / 100 * 100) = n := by
    rw [div_mul_cancel₀ _ (by norm_num), roundHalfAway_intCast]
  have hstored : StoredAmount.ofAmount? (.decimal (n / 100)) = some (.cents n hn) := by
    simp only [StoredAmount.ofAmount?, hround, dif_pos hn]
  exact (stable_iff_of_stored hstored).mp rfl

theorem amountText_issued (h : issueCertificate hmac now blocks request = some row) :
    row.readBack.amountText = (request.draft now blocks).amountText ↔ ∀ amount ∈ request.amount, amount.Stable := by
  obtain ⟨-, -, -, -, -, -, hamount⟩ := issueCertificate_eq_some h
  rw [CertificateRow.amountText_readBack, SignedFields.amountText]
  change _ = (request.amount.map CertificateAmount.text).getD "" ↔ _
  cases hrequest : request.amount with
  | none =>
    rw [hrequest] at hamount
    rw [show row.amount = none from (Option.some.inj hamount).symm]
    exact iff_of_true rfl fun amount hmem => by cases hmem
  | some amount =>
    rw [hrequest] at hamount
    obtain ⟨stored, hstored, hrow⟩ := Option.map_eq_some_iff.mp hamount
    rw [← hrow, Option.map_some, Option.map_some, Option.getD_some, Option.getD_some, stable_iff_of_stored hstored]
    constructor
    · rintro hstable _ ⟨⟩
      exact hstable
    · intro hstable
      exact hstable amount rfl

/-- A certificate verifies when it is read back exactly if its values are stable. -/
theorem issued_verifies_iff (hinj : Function.Injective hmac)
    (h : issueCertificate hmac now blocks request = some row) : row.Verifies hmac ↔ request.Stable := by
  obtain ⟨hsign, hid, huser, hkind, htitle, hdate, -⟩ := issueCertificate_eq_some h
  obtain ⟨payload, hpayload, hhmac⟩ := Option.map_eq_some_iff.mp hsign
  obtain ⟨hrange, -⟩ := SignedFields.payload_eq_some hpayload
  have hsame : row.Verifies hmac ↔
      buildSignaturePayload row.readBack = buildSignaturePayload (request.draft now blocks) := by
    rw [CertificateRow.verifies_iff, hpayload]
    constructor
    · rintro ⟨payload', hpayload', hhmac'⟩
      rw [hpayload', hinj (hhmac'.trans hhmac.symm)]
    · intro hread
      exact ⟨payload, hread, hhmac⟩
  have htexts : row.readBack.texts = (request.draft now blocks).texts ↔ request.userId.toList = row.userId.text := by
    rw [CertificateRow.texts_readBack, hid, hkind, htitle]
    change _ = (generatePublicId now blocks).toList ++ '|' ::
      (request.userId.toList ++ '|' :: (request.kind.toList ++ '|' :: request.title.toList)) ↔ _
    rw [List.append_cancel_left_eq, List.cons_inj_right, List.append_cancel_right_eq, eq_comm]
  rw [hsame, SignedFields.payload_eq_iff hrange, htexts, amountText_issued h, CertificateRequest.Stable, huser]
  have hread : row.readBack.issuedAt = now := by
    change row.issuedAt / 1000 = now
    rw [hdate, Int.mul_ediv_cancel _ (by decide)]
  constructor
  · rintro ⟨htext, hamount, -⟩
    refine ⟨?_, hamount⟩
    rintro _ ⟨⟩
    exact htext
  · rintro ⟨htext, hamount⟩
    exact ⟨htext _ rfl, hamount, hread⟩

end Issue

/-- What is issued verifies if its values are stable, and an edit is caught if the payload tells the rows. -/
theorem certificate_integrity_iff {hmac : String → String} (hinj : Function.Injective hmac) :
    (∀ now blocks request row, issueCertificate hmac now blocks request = some row →
      (row.Verifies hmac ↔ request.Stable)) ∧
    (∀ row row' : CertificateRow, InRange row.readBack.issuedAt →
      (buildSignaturePayload row'.readBack ≠ buildSignaturePayload row.readBack ↔ row.Told row')) ∧
    ∀ row row' : CertificateRow, row.Verifies hmac → row'.signature = row.signature →
      (¬ row'.Verifies hmac ↔ row.Told row') := by
  refine ⟨?_, ?_, ?_⟩
  · intro now blocks request row hissue
    exact issued_verifies_iff hinj hissue
  · intro row row' hrange
    exact CertificateRow.payload_ne_iff hrange
  · intro row row' hverifies hsignature
    exact CertificateRow.not_verifies_iff hinj hverifies hsignature

def payoutRequest : CertificateRequest where
  userId := "5f0c8a52-7d1e-4b36-9c44-1a2b3c4d5e6f"
  kind := "payout"
  title := "$4,500 Profit Payout"
  amount := some (.decimal 4500)

theorem payoutRequest_stable : payoutRequest.Stable := by
  refine ⟨by decide +kernel, ?_⟩
  intro amount hamount
  obtain rfl : CertificateAmount.decimal 4500 = amount := Option.some.inj hamount
  rw [show (4500 : ℚ) = (450000 : ℤ) / 100 by norm_num]
  exact stable_of_cents (by decide)

theorem payoutCertificate_edit_caught : ∃ row row' : CertificateRow,
    issueCertificate id 1785000000000 (2684, 19993) payoutRequest = some row ∧ row.Verifies id ∧
      row'.signature = row.signature ∧ row'.title = "$45,000 Profit Payout" ∧ ¬ row'.Verifies id := by
  have hissued : (issueCertificate id 1785000000000 (2684, 19993) payoutRequest).isSome = true := by
    decide +kernel
  obtain ⟨row, hissue⟩ := Option.isSome_iff_exists.mp hissued
  have hintegrity := certificate_integrity_iff Function.injective_id
  have hverifies := (hintegrity.1 _ _ _ row hissue).mpr payoutRequest_stable
  have htitle := (issueCertificate_eq_some hissue).2.2.2.2.1
  have hcaught := hintegrity.2.2 row { row with title := "$45,000 Profit Payout" } hverifies rfl
  refine ⟨row, { row with title := "$45,000 Profit Payout" }, hissue, hverifies, rfl, rfl, hcaught.mpr ?_⟩
  refine CertificateRow.told_of_publicId_eq rfl ?_
  rintro ⟨-, -, -, hsame⟩
  have hne : payoutRequest.title ≠ "$45,000 Profit Payout" := by decide
  exact hne (htitle.symm.trans hsame)

instance (hmac : String → String) (row : CertificateRow) : Decidable (row.Verifies hmac) :=
  inferInstanceAs (Decidable (_ = _))

/-- A row whose title has bars in it, with the signature that it was issued with. -/
def barredRow : CertificateRow where
  publicId := "PF-2026-0A7C-4E19"
  userId := ⟨"5f0c8a527d1e4b369c441a2b3c4d5e6f".toList, by decide, by decide⟩
  kind := .custom
  title := "Winner|00000000-0000-4000-8000-000000000001|custom|2026"
  amount := none
  issuedAt := 0
  signature := "PF-2026-0A7C-4E19|5f0c8a52-7d1e-4b36-9c44-1a2b3c4d5e6f|custom|Winner|" ++
    "00000000-0000-4000-8000-000000000001|custom|2026||1970-01-01T00:00:00.000Z"

/-- The fields moved over by three. -/
def movedRow : CertificateRow :=
  { barredRow with
    publicId := "PF-2026-0A7C-4E19|5f0c8a52-7d1e-4b36-9c44-1a2b3c4d5e6f|custom|Winner"
    userId := ⟨"00000000000040008000000000000001".toList, by decide, by decide⟩
    title := "2026" }

/-- Half a cent is stored up and signed down, and fields moved over bars pass. -/
theorem certificate_fails_or_passes :
    ((issueCertificate id 1785000000000 (2684, 19993)
      { payoutRequest with amount := some (.decimal (1005 / 1000)) }).any fun row => !decide (row.Verifies id)) = true ∧
    barredRow.Verifies id ∧ movedRow.signature = barredRow.signature ∧ movedRow.userId ≠ barredRow.userId ∧
    movedRow.title ≠ barredRow.title ∧ movedRow.Verifies id :=
  ⟨by decide +kernel, by decide +kernel, rfl, by decide, by decide +kernel, by decide +kernel⟩

end PropFirm
