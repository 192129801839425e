import PropFirm.Lib.InsertionMap
import PropFirm.Lib.SeparatedFields
import PropFirm.Lib.SqlRows
import PropFirm.Lib.Utf16

/-!
# Device signatures

The header of a client carries what its device says of itself, and the fingerprint is the hash of the stable
components. The cap on the number of components counts all of them, in the order the client gives them, so that
others can push a stable one out; and the text that is hashed joins the values by bars, which they may contain.
-/

namespace PropFirm

open SeparatedFields Sql

/-! ### `deviceSignature.ts` -/

def maxHeaderBytes : ℕ := 4096

def maxComponents : ℕ := 32

def maxComponentLength : ℕ := 512

/-- The components of the fingerprint. -/
def stableComponents : List (List UInt16) :=
  ["canvas", "webgl", "webglVendor", "audio", "fonts", "platform", "hardwareConcurrency", "deviceMemory",
    "colorDepth", "screen", "timezone", "touchSupport"].map Utf16.ofString

/-- A number is given by what `String` writes of it; `other` is `null`, an array or an object. -/
inductive ComponentValue
  | string (text : List UInt16)
  | number (text : List UInt16)
  | boolean (b : Bool)
  | other
  deriving DecidableEq

/-- `payload.v`. -/
inductive PayloadVersion
  | number (x : Number)
  | string (text : List UInt16)
  | other

/-- A record that `JSON.parse` makes of a header, with the keys of its components in the order of `Object.keys`;
components that are no record are none. -/
structure SignaturePayload where
  components : Option (InsertionMap (List UInt16) ComponentValue)
  v : PayloadVersion

/-- What the code has from its platform. `jsonParse` is none where `JSON.parse` throws or makes no record, and
`sha256` takes the text that is encoded. -/
structure SignaturePlatform where
  base64Text : List UInt16 → List UInt16
  jsonParse : List UInt16 → Option SignaturePayload
  toNumber : List UInt16 → Number
  sha256 : List Char → String

structure DeviceSignature where
  hash : String
  components : InsertionMap (List UInt16) (List UInt16)
  version : Number

/-- `String(value)` of a plain value. -/
def ComponentValue.text? : ComponentValue → Option (List UInt16)
  | string text => some text
  | number text => some text
  | boolean b => some (Utf16.ofString (toString b))
  | other => none

def isKeyUnit (u : UInt16) : Bool :=
  (97 ≤ u && u ≤ 122) || (65 ≤ u && u ≤ 90) || (48 ≤ u && u ≤ 57) || u = 95

/-- The key matches `^[a-zA-Z0-9_]{1,32}$`. -/
def isComponentKey (key : List UInt16) : Bool := 1 ≤ key.length && key.length ≤ 32 && key.all isKeyUnit

/-- What is recorded of a component, if it counts. -/
def normalized? (key : List UInt16) (value : ComponentValue) : Option (List UInt16) :=
  if isComponentKey key then (value.text?.map (List.take maxComponentLength)).filter (· ≠ []) else none

/-- The loop over the keys. Setting `__proto__` to a text has no effect. -/
def sanitizeEntries (components : InsertionMap (List UInt16) (List UInt16)) (count : ℕ) :
    List (List UInt16 × ComponentValue) → InsertionMap (List UInt16) (List UInt16) × ℕ
  | [] => (components, count)
  | (key, value) :: rest =>
    if maxComponents ≤ count then (components, count)
    else
      match normalized? key value with
      | none => sanitizeEntries components count rest
      | some normalized =>
        sanitizeEntries (if key = Utf16.ofString "__proto__" then components else components.set key normalized)
          (count + 1) rest

def sanitizeComponents (raw : Option (InsertionMap (List UInt16) ComponentValue)) :
    Option (InsertionMap (List UInt16) (List UInt16)) :=
  raw.bind fun entries =>
    let (components, count) := sanitizeEntries .empty 0 entries.entries
    if 0 < count then some components else none

/-- The stable components with their values, in the order of the list. -/
def stableParts (components : InsertionMap (List UInt16) (List UInt16)) : List (List UInt16 × List UInt16) :=
  stableComponents.filterMap fun key => ((components.get? key).filter (· ≠ [])).map (key, ·)

def bar : UInt16 := 124

def equalsSign : UInt16 := 61

def computeFingerprint (sha256 : List Char → String) (components : InsertionMap (List UInt16) (List UInt16)) :
    Option String :=
  let parts := stableParts components
  if parts.length < 4 then none else some (sha256 (Utf16.decode (joined equalsSign bar parts)))

/-- `Buffer.byteLength(text, 'utf8')`. -/
def byteLength (text : List UInt16) : ℕ := ((Utf16.decode text).map Char.utf8Size).sum

def signatureVersion (toNumber : List UInt16 → Number) (v : PayloadVersion) : Number :=
  let parsed :=
    match v with
    | .number x => x
    | .string text => toNumber text
    | .other => .finite 1
  match parsed with
  | .finite x => if 0 < x then parsed else .finite 1
  | _ => .finite 1

def parseDeviceSignature (platform : SignaturePlatform) (headerValue : Option (List UInt16)) :
    Option DeviceSignature := do
  let header ← headerValue
  guard (header ≠ [] ∧ byteLength header ≤ maxHeaderBytes)
  let decoded := platform.base64Text header
  guard (decoded ≠ [] ∧ decoded.length ≤ maxHeaderBytes)
  let payload ← platform.jsonParse decoded
  let components ← sanitizeComponents payload.components
  let hash ← computeFingerprint platform.sha256 components
  pure ⟨hash, components, signatureVersion platform.toNumber payload.v⟩

/-! ### What the cap leaves -/

namespace SignaturePayload

/-- The header is within the limits and carries the payload. -/
def CarriedBy (payload : SignaturePayload) (platform : SignaturePlatform) (header : List UInt16) : Prop :=
  (header ≠ [] ∧ byteLength header ≤ maxHeaderBytes) ∧
    (platform.base64Text header ≠ [] ∧ (platform.base64Text header).length ≤ maxHeaderBytes) ∧
    platform.jsonParse (platform.base64Text header) = some payload

def value (payload : SignaturePayload) (key : List UInt16) : Option ComponentValue :=
  payload.components.bind fun entries => entries.get? key

/-- The payloads have the same values for the stable components. -/
def AgreesWith (payload payload' : SignaturePayload) : Prop :=
  ∀ key ∈ stableComponents, payload.value key = payload'.value key

end SignaturePayload

/-- How many components count before a key. -/
def countBefore (entries : List (List UInt16 × ComponentValue)) (key : List UInt16) : ℕ :=
  (entries.takeWhile fun e => e.1 ≠ key).countP fun e => (normalized? e.1 e.2).isSome

/-- The value that is kept for a key, `count` components being counted already. -/
def keptFrom (count : ℕ) (entries : List (List UInt16 × ComponentValue)) (key : List UInt16) :
    Option (List UInt16) :=
  ((entries.find? fun e => e.1 = key).bind fun e => normalized? e.1 e.2).filter fun _ =>
    count + countBefore entries key < maxComponents

namespace SignaturePayload

/-- The value of a component among the first that count. -/
def kept (payload : SignaturePayload) (key : List UInt16) : Option (List UInt16) :=
  payload.components.bind fun entries => keptFrom 0 entries.entries key

def keptParts (payload : SignaturePayload) : List (List UInt16 × List UInt16) :=
  stableComponents.filterMap fun key => (payload.kept key).map (key, ·)

/-- The kept parts as they are hashed. -/
def readParts (payload : SignaturePayload) : List (List Char × List Char) :=
  payload.keptParts.map fun part => (Utf16.decode part.1, Utf16.decode part.2)

/-- The stable components of the sanitised record. -/
def sanitizedStable (payload : SignaturePayload) : List (List UInt16 × List UInt16) :=
  ((sanitizeComponents payload.components).map stableParts).getD []

/-- The cap leaves the same stable components. -/
def SameKept (payload payload' : SignaturePayload) : Prop :=
  ∀ key ∈ stableComponents, (payload.kept key).isSome = (payload'.kept key).isSome

/-- Too few for a fingerprint. -/
def Few (payload : SignaturePayload) : Prop := payload.keptParts.length < 4

instance (payload : SignaturePayload) : Decidable payload.Few := inferInstanceAs (Decidable (_ < _))

end SignaturePayload

def hashOf (platform : SignaturePlatform) (header : List UInt16) : Option String :=
  (parseDeviceSignature platform (some header)).map DeviceSignature.hash

variable {entries : List (List UInt16 × ComponentValue)} {key : List UInt16} {normalized : List UInt16}

/-! ### The loop -/

theorem countBefore_cons {first : List UInt16 × ComponentValue} (hkey : first.1 ≠ key) :
    countBefore (first :: entries) key = (normalized? first.1 first.2).isSome.toNat + countBefore entries key := by
  rw [countBefore, List.takeWhile_cons, if_pos (decide_eq_true hkey), List.countP_cons, Nat.add_comm, countBefore]
  cases normalized? first.1 first.2 <;> rfl

theorem keptFrom_cons (count : ℕ) (first : List UInt16 × ComponentValue) (key : List UInt16) :
    keptFrom count (first :: entries) key =
      if first.1 = key then (normalized? first.1 first.2).filter fun _ => count < maxComponents
      else keptFrom (count + (normalized? first.1 first.2).isSome.toNat) entries key := by
  rw [keptFrom, List.find?_cons]
  by_cases hkey : first.1 = key
  · rw [if_pos hkey, decide_eq_true hkey, countBefore, List.takeWhile_cons, if_neg (by simpa using hkey)]
    rfl
  · rw [if_neg hkey, decide_eq_false hkey, countBefore_cons hkey, keptFrom, Nat.add_assoc]

theorem keptFrom_of_le {count : ℕ} (hcount : maxComponents ≤ count) : keptFrom count entries key = none := by
  rw [keptFrom, Option.filter_eq_none_iff]
  intro held _
  rw [decide_eq_true_eq]
  omega

theorem keptFrom_of_notMem {count : ℕ} (hkey : key ∉ entries.map Prod.fst) : keptFrom count entries key = none := by
  have hfind : entries.find? (fun e => e.1 = key) = none := by
    rw [List.find?_eq_none]
    intro e he
    rw [decide_eq_true_eq]
    rintro rfl
    exact hkey (List.mem_map_of_mem he)
  rw [keptFrom, hfind]
  rfl

/-- What the loop records. -/
theorem get?_sanitizeEntries (hnodup : (entries.map Prod.fst).Nodup) (hproto : key ≠ Utf16.ofString "__proto__")
    (components : InsertionMap (List UInt16) (List UInt16)) (count : ℕ) :
    (sanitizeEntries components count entries).1.get? key
      = (keptFrom count entries key).or (components.get? key) := by
  induction entries generalizing components count with
  | nil => rfl
  | cons first entries ih =>
    obtain ⟨name, value⟩ := first
    rw [List.map_cons, List.nodup_cons] at hnodup
    rw [sanitizeEntries]
    by_cases hcap : maxComponents ≤ count
    · rw [if_pos hcap, keptFrom_of_le hcap, Option.none_or]
    · rw [if_neg hcap, keptFrom_cons]
      cases hvalue : normalized? name value with
      | none =>
        dsimp only
        rw [ih hnodup.2]
        split_ifs with hname
        · subst hname
          rw [keptFrom_of_notMem hnodup.1]
          rfl
        · rfl
      | some normalized =>
        dsimp only
        rw [ih hnodup.2]
        by_cases hname : name = key
        · subst hname
          rw [if_neg hproto, if_pos rfl, keptFrom_of_notMem hnodup.1, InsertionMap.get?_set, if_pos rfl,
            Option.filter_some, if_pos (decide_eq_true (not_le.mp hcap))]
          rfl
        · rw [if_neg hname]
          congr 1
          split_ifs with hname'
          · rfl
          · rw [InsertionMap.get?_set, if_neg (Ne.symm hname)]

/-- A loop that counts nothing records nothing. -/
theorem sanitizeEntries_count (components : InsertionMap (List UInt16) (List UInt16)) (count : ℕ) :
    count ≤ (sanitizeEntries components count entries).2 ∧
      ((sanitizeEntries components count entries).2 = count →
        (sanitizeEntries components count entries).1 = components) := by
  induction entries generalizing components count with
  | nil => exact ⟨le_rfl, fun _ => rfl⟩
  | cons first entries ih =>
    obtain ⟨name, value⟩ := first
    rw [sanitizeEntries]
    by_cases hcap : maxComponents ≤ count
    · rw [if_pos hcap]
      exact ⟨le_rfl, fun _ => rfl⟩
    · rw [if_neg hcap]
      cases normalized? name value with
      | none => exact ih components count
      | some normalized =>
        have hmore := (ih (if name = Utf16.ofString "__proto__" then components else components.set name normalized)
          (count + 1)).1
        dsimp only
        exact ⟨by omega, fun hsame => by omega⟩

namespace SignaturePayload

variable {payload payload' : SignaturePayload}

theorem kept_eq_some (h : payload.kept key = some normalized) :
    ∃ value, payload.value key = some value ∧ normalized? key value = some normalized := by
  obtain ⟨components, hcomponents, hkept⟩ := Option.bind_eq_some_iff.mp h
  obtain ⟨hfound, -⟩ := Option.filter_eq_some_iff.mp hkept
  obtain ⟨e, he, hvalue⟩ := Option.bind_eq_some_iff.mp hfound
  have hkey := InsertionMap.fst_of_find? he
  refine ⟨e.2, ?_, hkey ▸ hvalue⟩
  rw [value, hcomponents, Option.bind_some, InsertionMap.get?, he, Option.map_some]

theorem kept_ne_nil (h : payload.kept key = some normalized) : normalized ≠ [] := by
  obtain ⟨value, -, hvalue⟩ := kept_eq_some h
  rw [normalized?] at hvalue
  split at hvalue
  · exact of_decide_eq_true (Option.filter_eq_some_iff.mp hvalue).2
  · cases hvalue

/-- The code's loop keeps the components among the first that count. -/
theorem sanitizedStable_eq (payload : SignaturePayload) : payload.sanitizedStable = payload.keptParts := by
  have hproto : ∀ key ∈ stableComponents, key ≠ Utf16.ofString "__proto__" := by decide +kernel
  rw [sanitizedStable, sanitizeComponents, keptParts]
  cases hcomponents : payload.components with
  | none =>
    rw [Option.bind_none, Option.map_none, Option.getD_none, eq_comm, List.filterMap_eq_nil_iff]
    intro key _
    rw [kept, hcomponents]
    rfl
  | some components =>
    have hget : ∀ key ∈ stableComponents,
        (sanitizeEntries .empty 0 components.entries).1.get? key = payload.kept key := by
      intro key hkey
      rw [get?_sanitizeEntries components.nodup (hproto key hkey), InsertionMap.get?_empty, Option.or_none, kept,
        hcomponents, Option.bind_some]
    rw [Option.bind_some]
    dsimp only
    by_cases hcount : 0 < (sanitizeEntries .empty 0 components.entries).2
    · rw [if_pos hcount, Option.map_some, Option.getD_some, stableParts]
      refine List.filterMap_congr fun key hkey => ?_
      rw [hget key hkey]
      cases hkept : payload.kept key with
      | none => rfl
      | some normalized => rw [Option.filter_some, if_pos (decide_eq_true (kept_ne_nil hkept))]
    · rw [if_neg hcount, Option.map_none, Option.getD_none, eq_comm, List.filterMap_eq_nil_iff]
      intro key hkey
      rw [← hget key hkey, (sanitizeEntries_count .empty 0).2 (by omega)]
      rfl

end SignaturePayload

/-! ### The text that is hashed -/

theorem decode_joined (fields : List (List UInt16 × List UInt16)) :
    Utf16.decode (joined equalsSign bar fields)
      = joined '=' '|' (fields.map fun part => (Utf16.decode part.1, Utf16.decode part.2)) := by
  have hequals : ∀ a b : List UInt16, Utf16.decode (a ++ equalsSign :: b)
      = Utf16.decode a ++ '=' :: Utf16.decode b := Utf16.decode_append_cons rfl rfl
  have hbar : ∀ a b : List UInt16, Utf16.decode (a ++ bar :: b)
      = Utf16.decode a ++ '|' :: Utf16.decode b := Utf16.decode_append_cons rfl rfl
  induction fields with
  | nil => rfl
  | cons field fields ih =>
    rw [joined_cons, List.map_cons, joined_cons, hequals, afterValue, afterValue]
    by_cases hnil : fields = []
    · subst hnil
      rw [if_pos rfl, List.append_nil, List.map_nil, if_pos rfl, List.append_nil]
    · rw [if_neg hnil, if_neg (by rwa [List.map_eq_nil_iff]), hbar, ih]

/-- Components that hash as one. -/
theorem decode_joined_eq_iff (payload payload' : SignaturePayload) :
    Utf16.decode (joined equalsSign bar payload.keptParts)
        = Utf16.decode (joined equalsSign bar payload'.keptParts) ↔
      payload.readParts = payload'.readParts ∨ Confused '=' '|' payload.readParts payload'.readParts := by
  have hnames : ∀ payload : SignaturePayload, ∀ field ∈ payload.readParts, '=' ∉ field.1 := by
    have hstable : ∀ key ∈ stableComponents, '=' ∉ Utf16.decode key := by decide +kernel
    intro payload field hfield
    obtain ⟨part, hpart, rfl⟩ := List.mem_map.mp hfield
    obtain ⟨key, hkey, hpart⟩ := List.mem_filterMap.mp hpart
    obtain ⟨normalized, -, rfl⟩ := Option.map_eq_some_iff.mp hpart
    exact hstable key hkey
  rw [decode_joined, decode_joined]
  exact joined_eq_iff (hnames payload) (hnames payload')

/-- The hash of a header is that of the kept components of its payload. -/
theorem hashOf_eq {platform : SignaturePlatform} {header : List UInt16} {payload : SignaturePayload}
    (hcarried : payload.CarriedBy platform header) : hashOf platform header =
      if payload.Few then none
      else some (platform.sha256 (Utf16.decode (joined equalsSign bar payload.keptParts))) := by
  obtain ⟨hheader, hdecoded, hpayload⟩ := hcarried
  have hparsed : hashOf platform header
      = (sanitizeComponents payload.components).bind (computeFingerprint platform.sha256) := by
    rw [hashOf, parseDeviceSignature]
    simp only [Option.bind_eq_bind, Option.bind_some, guard, if_pos hheader, if_pos hdecoded, hpayload,
      Option.pure_def]
    cases sanitizeComponents payload.components with
    | none => rfl
    | some components =>
      rw [Option.bind_some, Option.bind_some]
      cases computeFingerprint platform.sha256 components <;> rfl
  have hstable := payload.sanitizedStable_eq
  rw [SignaturePayload.sanitizedStable] at hstable
  rw [hparsed]
  cases hcomponents : sanitizeComponents payload.components with
  | none =>
    rw [hcomponents, Option.map_none, Option.getD_none] at hstable
    have hfew : payload.Few := by
      rw [SignaturePayload.Few, ← hstable]
      decide
    rw [Option.bind_none, if_pos hfew]
  | some components =>
    rw [hcomponents, Option.map_some, Option.getD_some] at hstable
    rw [Option.bind_some, computeFingerprint, hstable]
    rfl

namespace SignaturePayload

variable {payload payload' : SignaturePayload}

theorem AgreesWith.kept_eq (hagrees : payload.AgreesWith payload') (hmem : key ∈ stableComponents)
    (hsame : (payload.kept key).isSome = (payload'.kept key).isSome) : payload.kept key = payload'.kept key := by
  cases hkept : payload.kept key with
  | none =>
    rw [hkept] at hsame
    exact (Option.isSome_eq_false_iff.mp hsame.symm |> Option.isNone_iff_eq_none.mp).symm
  | some normalized =>
    rw [hkept] at hsame
    obtain ⟨normalized', hkept'⟩ := Option.isSome_iff_exists.mp hsame.symm
    obtain ⟨value, hvalue, hnormalized⟩ := kept_eq_some hkept
    obtain ⟨value', hvalue', hnormalized'⟩ := kept_eq_some hkept'
    rw [hagrees key hmem, hvalue'] at hvalue
    cases hvalue
    rw [hkept', ← hnormalized, hnormalized']

theorem AgreesWith.keptParts_eq (hagrees : payload.AgreesWith payload') (hsame : payload.SameKept payload') :
    payload.keptParts = payload'.keptParts := by
  refine List.filterMap_congr fun key hkey => ?_
  rw [hagrees.kept_eq hkey (hsame key hkey)]

theorem mem_readParts {name text : List Char} : (name, text) ∈ payload.readParts ↔
    ∃ key ∈ stableComponents, ∃ normalized, payload.kept key = some normalized ∧
      Utf16.decode key = name ∧ Utf16.decode normalized = text := by
  rw [readParts, List.mem_map]
  constructor
  · rintro ⟨part, hpart, hread⟩
    obtain ⟨key, hkey, hpart⟩ := List.mem_filterMap.mp hpart
    obtain ⟨normalized, hkept, rfl⟩ := Option.map_eq_some_iff.mp hpart
    cases hread
    exact ⟨key, hkey, normalized, hkept, rfl, rfl⟩
  · rintro ⟨key, hkey, normalized, hkept, rfl, rfl⟩
    exact ⟨(key, normalized), List.mem_filterMap.mpr ⟨key, hkey, by rw [hkept]; rfl⟩, rfl⟩

/-- The names of the stable components are read as different ones. -/
theorem sameKept_of_readParts_eq (h : payload.readParts = payload'.readParts) : payload.SameKept payload' := by
  have hnames : ∀ key ∈ stableComponents, ∀ key' ∈ stableComponents,
      Utf16.decode key = Utf16.decode key' → key = key' := by decide +kernel
  have hkeep : ∀ {payload payload' : SignaturePayload}, payload.readParts = payload'.readParts →
      ∀ key ∈ stableComponents, (payload.kept key).isSome → (payload'.kept key).isSome := by
    intro payload payload' hread key hkey hkept
    obtain ⟨normalized, hkept⟩ := Option.isSome_iff_exists.mp hkept
    have hmem := mem_readParts.mpr ⟨key, hkey, normalized, hkept, rfl, rfl⟩
    rw [hread] at hmem
    obtain ⟨key', hkey', normalized', hkept', hname, -⟩ := mem_readParts.mp hmem
    rw [← hnames key' hkey' key hkey hname, hkept']
    rfl
  intro key hkey
  rw [Bool.eq_iff_iff]
  exact ⟨hkeep h key hkey, hkeep h.symm key hkey⟩

end SignaturePayload

/-- Two headers with the same stable components have the same hash unless the cap leaves them different ones,
and two with different ones have different hashes unless these are read as one. -/
theorem parseDeviceSignature_stable_iff {platform : SignaturePlatform} (hsha : Function.Injective platform.sha256)
    {header header' : List UInt16} {payload payload' : SignaturePayload} (hcarried : payload.CarriedBy platform header)
    (hcarried' : payload'.CarriedBy platform header') :
    (payload.AgreesWith payload' → (hashOf platform header = hashOf platform header' ↔
      payload.SameKept payload' ∨ payload.Few ∧ payload'.Few ∨
        ¬ payload.Few ∧ ¬ payload'.Few ∧ Confused '=' '|' payload.readParts payload'.readParts)) ∧
    (payload.sanitizedStable ≠ payload'.sanitizedStable →
      ((∀ hash ∈ hashOf platform header, ∀ hash' ∈ hashOf platform header', hash ≠ hash') ↔
        payload.Few ∨ payload'.Few ∨ payload.readParts ≠ payload'.readParts ∧
          ¬ Confused '=' '|' payload.readParts payload'.readParts)) := by
  have hread := decode_joined_eq_iff payload payload'
  rw [hashOf_eq hcarried, hashOf_eq hcarried']
  constructor
  · intro hagrees
    have hsame : payload.SameKept payload' → (payload.Few ↔ payload'.Few) ∧ payload.readParts = payload'.readParts := by
      intro hkept
      rw [SignaturePayload.Few, SignaturePayload.Few, SignaturePayload.readParts, SignaturePayload.readParts,
        hagrees.keptParts_eq hkept]
      exact ⟨Iff.rfl, rfl⟩
    have hback := @SignaturePayload.sameKept_of_readParts_eq payload payload'
    by_cases hfew : payload.Few
    · rw [if_pos hfew]
      by_cases hfew' : payload'.Few
      · rw [if_pos hfew']
        exact iff_of_true rfl (.inr (.inl ⟨hfew, hfew'⟩))
      · rw [if_neg hfew']
        refine iff_of_false (fun h => by cases h) ?_
        tauto
    · rw [if_neg hfew]
      by_cases hfew' : payload'.Few
      · rw [if_pos hfew']
        refine iff_of_false (fun h => by cases h) ?_
        tauto
      · rw [if_neg hfew', Option.some_inj, hsha.eq_iff, hread]
        tauto
  · intro _
    by_cases hfew : payload.Few
    · rw [if_pos hfew]
      exact iff_of_true (fun hash hhash => by cases hhash) (.inl hfew)
    · rw [if_neg hfew]
      by_cases hfew' : payload'.Few
      · rw [if_pos hfew']
        exact iff_of_true (fun hash _ hash' hhash' => by cases hhash') (.inr (.inl hfew'))
      · rw [if_neg hfew', or_iff_right hfew, or_iff_right hfew', ← not_or, ← hread, ← hsha.eq_iff]
        constructor
        · intro hdiffer hsame
          exact hdiffer _ rfl _ rfl hsame
        · intro hdiffer hash hhash hash' hhash'
          rw [← Option.mem_some_iff.mp hhash, ← Option.mem_some_iff.mp hhash']
          exact hdiffer

/-! ### Four headers -/

/-- Six bits of a digit of base64; padding is none. -/
def base64Digit (u : UInt16) : Option ℕ :=
  let n := u.toNat
  if 65 ≤ n ∧ n ≤ 90 then some (n - 65)
  else if 97 ≤ n ∧ n ≤ 122 then some (n - 71)
  else if 48 ≤ n ∧ n ≤ 57 then some (n + 4)
  else if n = 43 then some 62
  else if n = 47 then some 63
  else none

def base64Bytes : List ℕ → List ℕ
  | a :: b :: c :: d :: rest =>
    (a * 4 + b / 16) :: (b % 16 * 16 + c / 4) :: (c % 4 * 64 + d) :: base64Bytes rest
  | [a, b, c] => [a * 4 + b / 16, b % 16 * 16 + c / 4]
  | [a, b] => [a * 4 + b / 16]
  | _ => []

/-- Of texts that encode ASCII. -/
def asciiBase64 (text : List UInt16) : List UInt16 := (base64Bytes (text.filterMap base64Digit)).map Nat.toUInt16

def textComponents (fields : List (String × String)) : List (List UInt16 × ComponentValue) :=
  fields.map fun field => (Utf16.ofString field.1, .string (Utf16.ofString field.2))

/-- Four stable components. -/
def plainPayload : SignaturePayload where
  components := some ⟨textComponents [("canvas", "a"), ("audio", "b"), ("fonts", "c"), ("screen", "d")],
    by decide +kernel⟩
  v := .other

def plainHeader : List UInt16 :=
  ["eyJjb21wb25lbnRzIjp7ImNhbnZhcyI6ImEiLCJhdWRpbyI6ImIi",
    "LCJmb250cyI6ImMiLCJzY3JlZW4iOiJkIn19"].flatMap Utf16.ofString

/-- The same after 32 others. -/
def crowdedPayload : SignaturePayload where
  components := some ⟨("abcdefghijklmnopqrstuvwxyzABCDEF".toList.map fun c =>
      ([c.toNat.toUInt16], ComponentValue.number (Utf16.ofString "1"))) ++
    textComponents [("canvas", "a"), ("audio", "b"), ("fonts", "c"), ("screen", "d")], by decide +kernel⟩
  v := .other

def crowdedHeader : List UInt16 :=
  ["eyJjb21wb25lbnRzIjp7ImEiOjEsImIiOjEsImMiOjEsImQi", "OjEsImUiOjEsImYiOjEsImciOjEsImgiOjEsImkiOjEsImoi",
    "OjEsImsiOjEsImwiOjEsIm0iOjEsIm4iOjEsIm8iOjEsInAi", "OjEsInEiOjEsInIiOjEsInMiOjEsInQiOjEsInUiOjEsInYi",
    "OjEsInciOjEsIngiOjEsInkiOjEsInoiOjEsIkEiOjEsIkIi", "OjEsIkMiOjEsIkQiOjEsIkUiOjEsIkYiOjEsImNhbnZhcyI6",
    "ImEiLCJhdWRpbyI6ImIiLCJmb250cyI6ImMiLCJzY3JlZW4i", "OiJkIn19"].flatMap Utf16.ofString

/-- A bar in a value. -/
def barredPayload : SignaturePayload where
  components := some ⟨textComponents [("canvas", "a|webgl=b"), ("audio", "b"), ("fonts", "c"), ("screen", "d")],
    by decide +kernel⟩
  v := .other

def barredHeader : List UInt16 :=
  ["eyJjb21wb25lbnRzIjp7ImNhbnZhcyI6ImF8d2ViZ2w9YiIsImF1",
    "ZGlvIjoiYiIsImZvbnRzIjoiYyIsInNjcmVlbiI6ImQifX0="].flatMap Utf16.ofString

def splitPayload : SignaturePayload where
  components := some ⟨textComponents [("canvas", "a"), ("webgl", "b"), ("audio", "b"), ("fonts", "c"),
    ("screen", "d")], by decide +kernel⟩
  v := .other

def splitHeader : List UInt16 :=
  ["eyJjb21wb25lbnRzIjp7ImNhbnZhcyI6ImEiLCJ3ZWJnbCI6ImIi",
    "LCJhdWRpbyI6ImIiLCJmb250cyI6ImMiLCJzY3JlZW4iOiJkIn19"].flatMap Utf16.ofString

/-- Of the texts of the four headers. -/
def sampleParse (text : List UInt16) : Option SignaturePayload :=
  if text = asciiBase64 plainHeader then some plainPayload
  else if text = asciiBase64 crowdedHeader then some crowdedPayload
  else if text = asciiBase64 barredHeader then some barredPayload
  else if text = asciiBase64 splitHeader then some splitPayload
  else none

def samplePlatform : SignaturePlatform := ⟨asciiBase64, sampleParse, fun _ => .nan, String.ofList⟩

theorem sha256_sample_injective : Function.Injective samplePlatform.sha256 := fun _ _ => String.ofList_injective

theorem carriedBy_sample {header : List UInt16} {payload : SignaturePayload}
    (hlimits : (header ≠ [] ∧ byteLength header ≤ maxHeaderBytes) ∧
      asciiBase64 header ≠ [] ∧ (asciiBase64 header).length ≤ maxHeaderBytes)
    (hparse : sampleParse (asciiBase64 header) = some payload) : payload.CarriedBy samplePlatform header :=
  ⟨hlimits.1, hlimits.2, hparse⟩

theorem plain_carried : plainPayload.CarriedBy samplePlatform plainHeader :=
  carriedBy_sample (by decide +kernel) (by rw [sampleParse, if_pos rfl])

theorem crowded_carried : crowdedPayload.CarriedBy samplePlatform crowdedHeader := by
  have hplain : asciiBase64 crowdedHeader ≠ asciiBase64 plainHeader := by decide +kernel
  exact carriedBy_sample (by decide +kernel) (by rw [sampleParse, if_neg hplain, if_pos rfl])

theorem barred_carried : barredPayload.CarriedBy samplePlatform barredHeader := by
  have hplain : asciiBase64 barredHeader ≠ asciiBase64 plainHeader := by decide +kernel
  have hcrowded : asciiBase64 barredHeader ≠ asciiBase64 crowdedHeader := by decide +kernel
  exact carriedBy_sample (by decide +kernel) (by rw [sampleParse, if_neg hplain, if_neg hcrowded, if_pos rfl])

theorem split_carried : splitPayload.CarriedBy samplePlatform splitHeader := by
  have hplain : asciiBase64 splitHeader ≠ asciiBase64 plainHeader := by decide +kernel
  have hcrowded : asciiBase64 splitHeader ≠ asciiBase64 crowdedHeader := by decide +kernel
  have hbarred : asciiBase64 splitHeader ≠ asciiBase64 barredHeader := by decide +kernel
  refine carriedBy_sample (by decide +kernel) ?_
  rw [sampleParse, if_neg hplain, if_neg hcrowded, if_neg hbarred, if_pos rfl]

instance (payload payload' : SignaturePayload) : Decidable (payload.AgreesWith payload') :=
  inferInstanceAs (Decidable (∀ key ∈ stableComponents, _ = _))

/-- The theorem at the crowded header, and at the one with a bar. -/
theorem parseDeviceSignature_sample :
    (hashOf samplePlatform plainHeader = hashOf samplePlatform crowdedHeader ↔
      plainPayload.SameKept crowdedPayload ∨ plainPayload.Few ∧ crowdedPayload.Few ∨
        ¬ plainPayload.Few ∧ ¬ crowdedPayload.Few ∧
          Confused '=' '|' plainPayload.readParts crowdedPayload.readParts) ∧
    ((∀ hash ∈ hashOf samplePlatform barredHeader, ∀ hash' ∈ hashOf samplePlatform splitHeader, hash ≠ hash') ↔
      barredPayload.Few ∨ splitPayload.Few ∨ barredPayload.readParts ≠ splitPayload.readParts ∧
        ¬ Confused '=' '|' barredPayload.readParts splitPayload.readParts) :=
  ⟨(parseDeviceSignature_stable_iff sha256_sample_injective plain_carried crowded_carried).1 (by decide +kernel),
    (parseDeviceSignature_stable_iff sha256_sample_injective barred_carried split_carried).2 (by decide +kernel)⟩

/-- The 32 others push the stable components out, and the bar makes two devices one. -/
theorem signatures_misjudged :
    (¬ ∀ platform header header' payload payload', SignaturePayload.CarriedBy payload platform header →
      SignaturePayload.CarriedBy payload' platform header' → payload.AgreesWith payload' →
        hashOf platform header = hashOf platform header') ∧
    ¬ ∀ platform header header' payload payload', Function.Injective platform.sha256 →
      SignaturePayload.CarriedBy payload platform header → SignaturePayload.CarriedBy payload' platform header' →
        payload.sanitizedStable ≠ payload'.sanitizedStable →
          ∀ hash ∈ hashOf platform header, ∀ hash' ∈ hashOf platform header', hash ≠ hash' := by
  constructor
  · intro hall
    have hsame := hall _ _ _ _ _ plain_carried crowded_carried (by decide +kernel)
    rw [hashOf_eq plain_carried, hashOf_eq crowded_carried, if_neg (by decide +kernel), if_pos (by decide +kernel)]
      at hsame
    cases hsame
  · intro hall
    have hdiffer := hall samplePlatform _ _ _ _ sha256_sample_injective barred_carried split_carried
      (by decide +kernel)
    rw [hashOf_eq barred_carried, hashOf_eq split_carried, if_neg (by decide +kernel), if_neg (by decide +kernel)]
      at hdiffer
    exact hdiffer _ rfl _ rfl (by decide +kernel)

end PropFirm
