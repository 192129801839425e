import Mathlib.Data.List.DropRight
import PropFirm.AccountUids
import PropFirm.Lib.IpAddresses
import PropFirm.Lib.JsText
import PropFirm.Lib.SeparatedFields
import PropFirm.Lib.Table

/-!
# The violation queue

Each detection of a violation is one upsert under a key that is made of what was detected and where: the
first inserts the row, a later one counts it again and opens it. An admin resolves a row by its number, alone
or in bulk, or asks for more information, which leaves it as open as it was. Row by row the queue tells how
often the violation was detected and whether it was settled since.
-/

namespace PropFirm

/-- White space, as much of it as there is in one place, becomes an underscore. -/
def underscored : List Char → List Char
  | [] => []
  | [c] => if isJsSpace c then ['_'] else [c]
  | c :: d :: cs =>
    if isJsSpace c then if isJsSpace d then underscored (d :: cs) else '_' :: underscored (d :: cs)
    else c :: underscored (d :: cs)

def normalizeKeyPart (value : Option String) : String :=
  String.ofList (underscored (jsTrim (value.getD "")).toLower.toList)

def buildViolationKey (parts : List (Option String)) : String := "|".intercalate (parts.map normalizeKeyPart)

/-- A text is taken for missing where it is empty. -/
def truthy (value : Option String) : Option String := value.filter (· ≠ "")

/-- The payload of `recordViolation`, and when it reaches the table. -/
structure Detection where
  dedupeKey : Option String
  violationType : Option String
  severity : Option String
  accountId : Option String
  userId : Option String
  tradeId : Option String
  instrument : Option String
  source : Option String
  message : Option String
  payload : String
  now : ℤ

def Detection.parts (d : Detection) : List (Option String) :=
  [(truthy d.dedupeKey).orElse fun _ => d.violationType, d.accountId, d.userId, d.tradeId, d.instrument]

def Detection.key (d : Detection) : String := buildViolationKey d.parts

inductive ViolationStatus
  | opened | resolved
  deriving DecidableEq

inductive ResolutionType
  | resolved | waived | falsePositive | moreInfoRequested
  deriving DecidableEq

/-- A note of the appeal, with what it was given for. -/
structure AppealNote where
  note : String
  resolutionType : ResolutionType
  writtenAt : ℤ
  deriving DecidableEq

structure Violation where
  id : ℤ
  violationKey : String
  violationType : String
  severity : String
  status : ViolationStatus
  accountId : Option String
  userId : Option String
  tradeId : Option String
  instrument : Option String
  source : String
  message : String
  payload : String
  hitCount : ℕ
  firstDetectedAt : ℤ
  lastDetectedAt : ℤ
  resolvedAt : Option ℤ
  resolutionNote : Option String
  resolutionType : ResolutionType
  appealNotes : List AppealNote

instance : Keyed Violation String := ⟨Violation.violationKey⟩

def resolutionTypeOf (text : String) : Option ResolutionType :=
  if text = "resolved" then some .resolved
  else if text = "waived" then some .waived
  else if text = "false_positive" then some .falsePositive
  else if text = "more_info_requested" then some .moreInfoRequested
  else none

def bulkResolutionType (action : String) : Option ResolutionType :=
  if action = "waive_violation" then some .waived
  else if action = "false_positive" then some .falsePositive
  else if action = "resolve_violation" then some .resolved
  else none

/-- What a request that is not refused writes, and whether it writes it among the notes of the appeal. -/
structure Resolution where
  id : ℤ
  type : ResolutionType
  note : String
  amongNotes : Bool
  now : ℤ

def Resolution.isTerminal (r : Resolution) : Bool := r.type ≠ .moreInfoRequested

inductive ViolationEvent
  | detect (d : Detection)
  | resolve (id : String) (note resolutionType : Option String) (now : ℤ)
  | bulk (rawId action reason : String) (now : ℤ)

def ViolationEvent.detection? : ViolationEvent → Option Detection
  | .detect d => some d
  | .resolve _ _ _ _ | .bulk _ _ _ _ => none

def maxInt4 : ℤ := 2147483647

def ViolationEvent.resolution? : ViolationEvent → Option Resolution
  | .detect _ => none
  | .resolve id note resolutionType now =>
    (parseInt id.toList).bind fun id =>
      (resolutionTypeOf (jsTrim ((truthy resolutionType).getD "resolved")).toLower).bind fun type =>
        -- the number is cast to `int`
        if |id| ≤ maxInt4 then some ⟨id, type, (truthy note).getD "Resolved by admin", true, now⟩ else none
  | .bulk rawId action reason now =>
    (parseInt rawId.toList).bind fun id =>
      if 0 < id then (bulkResolutionType action).map fun type => ⟨id, type, reason, false, now⟩ else none

def Violation.resolvedBy (r : Resolution) : Table.Rewrite Violation where
  apply v :=
    { v with
      status := if r.isTerminal then .resolved else v.status
      resolvedAt := if r.isTerminal then some r.now else v.resolvedAt
      resolutionNote := some r.note
      resolutionType := r.type
      appealNotes := if r.amongNotes then v.appealNotes ++ [⟨r.note, r.type, r.now⟩] else v.appealNotes }
  key_apply _ := rfl

def Detection.firstRow (d : Detection) (id : ℤ) : Violation where
  id := id
  violationKey := d.key
  violationType := (truthy d.violationType).getD "unknown_violation"
  severity := (truthy d.severity).getD "medium"
  status := .opened
  accountId := truthy d.accountId
  userId := truthy d.userId
  tradeId := truthy d.tradeId
  instrument := truthy d.instrument
  source := (truthy d.source).getD "system"
  message := d.message.getD ""
  payload := d.payload
  hitCount := 1
  firstDetectedAt := d.now
  lastDetectedAt := d.now
  resolvedAt := none
  resolutionNote := none
  resolutionType := .resolved
  appealNotes := []

/-- The notes of the appeal are in the payload, which is written anew. -/
def Violation.detectedAgain (d : Detection) : Table.Rewrite Violation where
  apply v :=
    { v with
      severity := (truthy d.severity).getD "medium"
      status := .opened
      source := (truthy d.source).getD "system"
      message := d.message.getD ""
      payload := d.payload
      hitCount := v.hitCount + 1
      lastDetectedAt := d.now
      resolvedAt := none
      resolutionNote := none
      appealNotes := [] }
  key_apply _ := rfl

/-- `nextId` is the next number of the sequence, which a conflict uses up as well. -/
structure ViolationWorld where
  rows : Table Violation
  nextId : ℤ

def ViolationWorld.initial : ViolationWorld := ⟨.empty, 1⟩

/-- `INSERT … ON CONFLICT (violation_key) DO UPDATE`. -/
def upsertViolation (rows : Table Violation) (d : Detection) (id : ℤ) : Table Violation :=
  (rows.insert? (d.firstRow id)).getD (rows.updateAt d.key (Violation.detectedAgain d))

def ViolationWorld.step (w : ViolationWorld) (e : ViolationEvent) : ViolationWorld :=
  match e.detection?, e.resolution? with
  | some d, _ => ⟨upsertViolation w.rows d w.nextId, w.nextId + 1⟩
  | none, some r => { w with rows := w.rows.update (fun v => v.id = r.id) (Violation.resolvedBy r) }
  | none, none => w

def ViolationWorld.run (events : List ViolationEvent) : ViolationWorld := events.foldl ViolationWorld.step .initial

/-! ### What the row of a key tells -/

/-- The detections that satisfy a condition, in their order. -/
def detections (p : Detection → Bool) (events : List ViolationEvent) : List Detection :=
  events.filterMap fun e => e.detection?.filter p

def detects (p : Detection → Bool) (e : ViolationEvent) : Bool := e.detection?.any p

/-- The events since the first detection, without it when there was none before, and since the last. -/
def sinceFirst (p : Detection → Bool) (events : List ViolationEvent) : List ViolationEvent :=
  events.dropWhile fun e => !detects p e

def sinceLast (p : Detection → Bool) (events : List ViolationEvent) : List ViolationEvent :=
  events.rtakeWhile fun e => !detects p e

/-- The resolutions of a row among some events. -/
def resolutions (id : ℤ) (events : List ViolationEvent) : List Resolution :=
  events.filterMap fun e => e.resolution?.filter fun r => r.id = id

structure Violation.Tells (v : Violation) (p : Detection → Bool) (events : List ViolationEvent) : Prop where
  counted : v.hitCount = (detections p events).length
  first : ∃ d, (detections p events).head? = some d ∧
    v = { v with
      violationType := (d.firstRow v.id).violationType
      accountId := (d.firstRow v.id).accountId
      userId := (d.firstRow v.id).userId
      tradeId := (d.firstRow v.id).tradeId
      instrument := (d.firstRow v.id).instrument
      firstDetectedAt := d.now }
  last : ∃ d, (detections p events).getLast? = some d ∧
    v = { v with
      severity := (d.firstRow v.id).severity
      source := (d.firstRow v.id).source
      message := (d.firstRow v.id).message
      payload := d.payload
      lastDetectedAt := d.now }
  settled : v.status = .resolved ↔ ∃ r ∈ resolutions v.id (sinceLast p events), r.isTerminal = true
  resolvedAt : v.resolvedAt = (((resolutions v.id (sinceLast p events)).filter Resolution.isTerminal).getLast?.map
    Resolution.now)
  resolutionNote : v.resolutionNote = (resolutions v.id (sinceLast p events)).getLast?.map Resolution.note
  resolutionType : v.resolutionType =
    ((resolutions v.id (sinceFirst p events)).getLast?.map Resolution.type).getD .resolved
  appealNotes : v.appealNotes = ((resolutions v.id (sinceLast p events)).filter Resolution.amongNotes).map
    fun r => ⟨r.note, r.type, r.now⟩

section Rows

variable {p : Detection → Bool} {events : List ViolationEvent} {e : ViolationEvent}

theorem filterMap_concat {α β : Type} (f : α → Option β) (as : List α) (a : α) :
    (as ++ [a]).filterMap f = as.filterMap f ++ (f a).toList := by
  rw [List.filterMap_append]
  cases h : f a <;> simp [h]

theorem detections_concat : detections p (events ++ [e]) =
    detections p events ++ (e.detection?.filter p).toList := by
  rw [detections, filterMap_concat, detections]

theorem resolutions_concat (id : ℤ) : resolutions id (events ++ [e]) =
    resolutions id events ++ (e.resolution?.filter fun r => r.id = id).toList := by
  rw [resolutions, filterMap_concat, resolutions]

theorem sinceLast_concat_of_detects (hdetects : detects p e = true) : sinceLast p (events ++ [e]) = [] :=
  List.rtakeWhile_concat_neg _ _ _ (by simp [hdetects])

theorem sinceLast_concat (hdetects : detects p e = false) :
    sinceLast p (events ++ [e]) = sinceLast p events ++ [e] :=
  List.rtakeWhile_concat_pos _ _ _ (by simp [hdetects])

theorem detections_eq_nil_iff : detections p events = [] ↔ ∀ e ∈ events, detects p e = false := by
  rw [detections, List.filterMap_eq_nil_iff]
  refine forall₂_congr fun e _ => ?_
  rw [detects]
  cases e.detection? <;> simp

theorem sinceFirst_concat (hsome : detections p events ≠ []) :
    sinceFirst p (events ++ [e]) = sinceFirst p events ++ [e] := by
  have hne : events.dropWhile (fun e => !detects p e) ≠ [] := by
    intro hnil
    refine hsome (detections_eq_nil_iff.mpr fun e he => ?_)
    simpa using List.dropWhile_eq_nil_iff.mp hnil e he
  rw [sinceFirst, List.dropWhile_append, if_neg (by simpa [List.isEmpty_iff] using hne), sinceFirst]

theorem sinceFirst_concat_of_nil (hnone : detections p events = []) (hdetects : detects p e = true) :
    sinceFirst p (events ++ [e]) = [e] := by
  have hnil : events.dropWhile (fun e => !detects p e) = [] :=
    List.dropWhile_eq_nil_iff.mpr fun e he => by simpa using detections_eq_nil_iff.mp hnone e he
  rw [sinceFirst, List.dropWhile_append, hnil, List.isEmpty_nil, if_pos rfl,
    List.dropWhile_cons_of_neg (by simp [hdetects])]

theorem resolution?_of_detects (hdetects : detects p e = true) : e.resolution? = none := by
  cases e with
  | detect d => rfl
  | resolve id note type now => cases hdetects
  | bulk rawId action reason now => cases hdetects

theorem tells_firstRow {d : Detection} (hdetection : e.detection? = some d) (hp : p d = true)
    (hnone : detections p events = []) (id : ℤ) : (d.firstRow id).Tells p (events ++ [e]) := by
  have hdetects : detects p e = true := by rw [detects, hdetection, Option.any_some, hp]
  have hlist : detections p (events ++ [e]) = [d] := by
    rw [detections_concat, hnone, hdetection, Option.filter_some_pos hp]
    rfl
  have hlast : sinceLast p (events ++ [e]) = [] := sinceLast_concat_of_detects hdetects
  have hfirst := sinceFirst_concat_of_nil hnone hdetects
  have hres (id : ℤ) : resolutions id [e] = [] :=
    List.filterMap_cons_none (by rw [resolution?_of_detects hdetects]; rfl)
  constructor
  · rw [hlist]; rfl
  · exact ⟨d, by rw [hlist]; rfl, rfl⟩
  · exact ⟨d, by rw [hlist]; rfl, rfl⟩
  · rw [hlast]
    exact iff_of_false (by simp [Detection.firstRow]) (by simp [resolutions])
  · rw [hlast]; rfl
  · rw [hlast]; rfl
  · rw [hfirst, hres]; rfl
  · rw [hlast]; rfl

theorem Violation.Tells.detectedAgain {v : Violation} (htells : v.Tells p events) {d : Detection}
    (hdetection : e.detection? = some d) (hp : p d = true) (hsome : detections p events ≠ []) :
    ((Violation.detectedAgain d).apply v).Tells p (events ++ [e]) := by
  have hdetects : detects p e = true := by rw [detects, hdetection, Option.any_some, hp]
  have hlist : detections p (events ++ [e]) = detections p events ++ [d] := by
    rw [detections_concat, hdetection, Option.filter_some_pos hp]
    rfl
  have hlast : sinceLast p (events ++ [e]) = [] := sinceLast_concat_of_detects hdetects
  have hres : resolutions v.id (sinceFirst p events ++ [e]) = resolutions v.id (sinceFirst p events) := by
    rw [resolutions_concat, resolution?_of_detects hdetects]
    exact List.append_nil _
  constructor
  · rw [hlist, List.length_append]
    exact congrArg (· + 1) htells.counted
  · obtain ⟨first, hhead, hfirst⟩ := htells.first
    refine ⟨first, by rw [hlist, List.head?_append_of_ne_nil _ hsome, hhead], ?_⟩
    rw [hfirst]
    rfl
  · exact ⟨d, by rw [hlist, List.getLast?_concat], rfl⟩
  · rw [hlast]
    exact iff_of_false (by simp [Violation.detectedAgain]) (by simp [resolutions])
  · rw [hlast]; rfl
  · rw [hlast]; rfl
  · rw [sinceFirst_concat hsome]
    change v.resolutionType = ((resolutions v.id (sinceFirst p events ++ [e])).getLast?.map _).getD _
    rw [hres]
    exact htells.resolutionType
  · rw [hlast]; rfl

theorem Violation.Tells.resolvedBy {v : Violation} (htells : v.Tells p events) {r : Resolution}
    (hdetection : e.detection? = none) (hresolution : e.resolution? = some r) (hid : r.id = v.id)
    (hsome : detections p events ≠ []) : ((Violation.resolvedBy r).apply v).Tells p (events ++ [e]) := by
  have hdetects : detects p e = false := by rw [detects, hdetection, Option.any_none]
  have hlist : detections p (events ++ [e]) = detections p events := by
    rw [detections_concat, hdetection]
    exact List.append_nil _
  have hres (es : List ViolationEvent) : resolutions v.id (es ++ [e]) = resolutions v.id es ++ [r] := by
    rw [resolutions_concat, hresolution, Option.filter_some_pos (by rw [hid, decide_eq_true_eq])]
    rfl
  have hlast : resolutions ((Violation.resolvedBy r).apply v).id (sinceLast p (events ++ [e])) =
      resolutions v.id (sinceLast p events) ++ [r] := by
    rw [sinceLast_concat hdetects]
    exact hres _
  constructor
  · rw [hlist]
    exact htells.counted
  · rw [hlist]
    obtain ⟨first, hhead, hfirst⟩ := htells.first
    refine ⟨first, hhead, ?_⟩
    rw [hfirst]
    rfl
  · rw [hlist]
    obtain ⟨last, hgetLast, hlast⟩ := htells.last
    refine ⟨last, hgetLast, ?_⟩
    rw [hlast]
    rfl
  · rw [hlast]
    simp only [List.mem_append, List.mem_singleton, or_and_right, exists_or, exists_eq_left, ← htells.settled]
    change (if r.isTerminal then ViolationStatus.resolved else v.status) = .resolved ↔ _
    cases r.isTerminal <;> simp
  · rw [hlast, List.filter_append]
    change (if r.isTerminal then some r.now else v.resolvedAt) = _
    cases hterminal : r.isTerminal with
    | false => simp [hterminal, htells.resolvedAt]
    | true => simp [hterminal]
  · rw [hlast, List.getLast?_concat]
    rfl
  · rw [sinceFirst_concat hsome]
    change r.type = ((resolutions v.id (sinceFirst p events ++ [e])).getLast?.map Resolution.type).getD .resolved
    rw [hres, List.getLast?_concat]
    rfl
  · rw [hlast, List.filter_append, List.map_append, ← htells.appealNotes]
    change (if r.amongNotes then v.appealNotes ++ [_] else v.appealNotes) = _
    cases hnoted : r.amongNotes <;> simp [hnoted]

/-- What is about other rows tells this one nothing. -/
theorem Violation.Tells.skip {v : Violation} (htells : v.Tells p events) (hdetects : detects p e = false)
    (hother : ∀ r, e.resolution? = some r → r.id ≠ v.id) (hsome : detections p events ≠ []) :
    v.Tells p (events ++ [e]) := by
  have hlist : detections p (events ++ [e]) = detections p events := by
    rw [detections_concat]
    cases hdetection : e.detection? with
    | none => exact List.append_nil _
    | some d =>
      rw [detects, hdetection, Option.any_some] at hdetects
      rw [Option.filter_some_neg (by rw [hdetects])]
      exact List.append_nil _
  have hres (es : List ViolationEvent) : resolutions v.id (es ++ [e]) = resolutions v.id es := by
    rw [resolutions_concat]
    cases hresolution : e.resolution? with
    | none => exact List.append_nil _
    | some r =>
      rw [Option.filter_some_neg (by simpa using hother r hresolution)]
      exact List.append_nil _
  constructor
  · rw [hlist]; exact htells.counted
  · rw [hlist]; exact htells.first
  · rw [hlist]; exact htells.last
  · rw [sinceLast_concat hdetects, hres]; exact htells.settled
  · rw [sinceLast_concat hdetects, hres]; exact htells.resolvedAt
  · rw [sinceLast_concat hdetects, hres]; exact htells.resolutionNote
  · rw [sinceFirst_concat hsome, hres]; exact htells.resolutionType
  · rw [sinceLast_concat hdetects, hres]; exact htells.appealNotes

end Rows

section Step

variable {w : ViolationWorld} {p : Detection → Bool} {k : String} {events : List ViolationEvent} {e : ViolationEvent}

theorem find?_upsertViolation (rows : Table Violation) (d : Detection) (id : ℤ) (k : String) :
    (upsertViolation rows d id).find? k =
      if d.key = k then some ((rows.find? k).elim (d.firstRow id) (Violation.detectedAgain d).apply)
      else rows.find? k := by
  have hkey : Keyed.key (d.firstRow id) = d.key := rfl
  rw [upsertViolation]
  cases hinsert : rows.insert? (d.firstRow id) with
  | some rows' =>
    have hfresh : rows.find? d.key = none := Table.find?_eq_none.mpr (Table.insert?_eq_some hinsert).1
    rw [Option.getD_some, Table.find?_of_insert? hinsert, hkey]
    by_cases hk : d.key = k
    · rw [if_pos hk, if_pos hk, ← hk, hfresh]
      rfl
    · rw [if_neg hk, if_neg hk]
  | none =>
    rw [Option.getD_none, Table.find?_updateAt]
    by_cases hk : d.key = k
    · rw [if_pos hk, hk]
      cases hfind : rows.find? k with
      | some v => simp
      | none =>
        have hinserted := Table.insert?_isSome (t := rows) (r := d.firstRow id) (by rw [hkey, hk, hfind])
        rw [hinsert] at hinserted
        cases hinserted
    · rw [if_neg hk]
      simp [Ne.symm hk]

/-- There is a row for what has been detected, and it tells how it went. -/
structure ViolationWorld.TellsAt (w : ViolationWorld) (p : Detection → Bool) (k : String)
    (events : List ViolationEvent) : Prop where
  none_iff : w.rows.find? k = none ↔ detections p events = []
  tells : ∀ v, w.rows.find? k = some v → v.Tells p events

theorem ViolationWorld.TellsAt.detections_ne_nil (h : w.TellsAt p k events) {v : Violation}
    (hv : w.rows.find? k = some v) : detections p events ≠ [] :=
  fun hnil => Option.some_ne_none v (hv.symm.trans (h.none_iff.mpr hnil))

theorem ViolationWorld.TellsAt.detect (h : w.TellsAt p k events) {d : Detection}
    (hdetection : e.detection? = some d) (hk : p d = true) (hkey : d.key = k) (id : ℤ) :
    ViolationWorld.TellsAt ⟨upsertViolation w.rows d w.nextId, id⟩ p k (events ++ [e]) := by
  have hrow := find?_upsertViolation w.rows d w.nextId k
  rw [if_pos hkey] at hrow
  constructor
  · refine iff_of_false (by rw [hrow]; exact Option.some_ne_none _) ?_
    rw [detections_concat, hdetection, Option.filter_some_pos hk]
    exact List.append_ne_nil_of_right_ne_nil _ (List.cons_ne_nil _ _)
  · intro v hv
    rw [hrow, Option.some_inj] at hv
    cases hfind : w.rows.find? k with
    | none =>
      rw [hfind, Option.elim_none] at hv
      rw [← hv]
      exact tells_firstRow hdetection hk (h.none_iff.mp hfind) _
    | some old =>
      rw [hfind, Option.elim_some] at hv
      rw [← hv]
      exact (h.tells old hfind).detectedAgain hdetection hk (h.detections_ne_nil hfind)

theorem ViolationWorld.TellsAt.detectOther (h : w.TellsAt p k events) {d : Detection}
    (hdetection : e.detection? = some d) (hk : p d = false) (hkey : d.key ≠ k) (id : ℤ) :
    ViolationWorld.TellsAt ⟨upsertViolation w.rows d w.nextId, id⟩ p k (events ++ [e]) := by
  have hdetects : detects p e = false := by rw [detects, hdetection, Option.any_some, hk]
  have hresolution : e.resolution? = none :=
    resolution?_of_detects (p := fun _ => true) (by rw [detects, hdetection, Option.any_some])
  have hrow := find?_upsertViolation w.rows d w.nextId k
  rw [if_neg hkey] at hrow
  constructor
  · rw [hrow, h.none_iff, detections_concat, hdetection, Option.filter_some_neg (by rw [hk])]
    exact iff_of_eq (congrArg (· = []) (List.append_nil _).symm)
  · intro v hv
    rw [hrow] at hv
    exact (h.tells v hv).skip hdetects (by simp [hresolution]) (h.detections_ne_nil hv)

theorem ViolationWorld.TellsAt.resolve (h : w.TellsAt p k events) {r : Resolution}
    (hdetection : e.detection? = none) (hresolution : e.resolution? = some r) :
    ViolationWorld.TellsAt { w with rows := w.rows.update (fun v => v.id = r.id) (Violation.resolvedBy r) } p k
      (events ++ [e]) := by
  have hdetects : detects p e = false := by rw [detects, hdetection, Option.any_none]
  have hrow := Table.find?_update w.rows (fun v => v.id = r.id) (Violation.resolvedBy r) k
  constructor
  · rw [hrow, Option.map_eq_none_iff, h.none_iff, detections_concat, hdetection]
    exact iff_of_eq (congrArg (· = []) (List.append_nil _).symm)
  · intro v hv
    rw [hrow] at hv
    obtain ⟨old, hold, rfl⟩ := Option.map_eq_some_iff.mp hv
    by_cases hid : old.id = r.id
    · rw [if_pos (decide_eq_true hid)]
      exact (h.tells old hold).resolvedBy hdetection hresolution hid.symm (h.detections_ne_nil hold)
    · rw [if_neg (by simpa using hid)]
      refine (h.tells old hold).skip hdetects (fun r' hr' heq => ?_) (h.detections_ne_nil hold)
      obtain rfl := Option.some.inj (hresolution.symm.trans hr')
      exact hid heq.symm

theorem ViolationWorld.TellsAt.step (h : w.TellsAt p k events)
    (hp : ∀ d, e.detection? = some d → (p d = true ↔ d.key = k)) : (w.step e).TellsAt p k (events ++ [e]) := by
  rw [ViolationWorld.step]
  cases hdetection : e.detection? with
  | some d =>
    by_cases hk : p d = true
    · exact h.detect hdetection hk ((hp d hdetection).mp hk) _
    · exact h.detectOther hdetection (eq_false_of_ne_true hk) (mt (hp d hdetection).mpr hk) _
  | none =>
    cases hresolution : e.resolution? with
    | some r => exact h.resolve hdetection hresolution
    | none =>
      have hdetects : detects p e = false := by rw [detects, hdetection, Option.any_none]
      constructor
      · rw [detections_concat, hdetection]
        exact h.none_iff.trans (iff_of_eq (congrArg (· = []) (List.append_nil _).symm))
      · exact fun v hv => (h.tells v hv).skip hdetects (by simp [hresolution]) (h.detections_ne_nil hv)

end Step

/-- The condition has to tell, of what was detected, what is stored under the key. -/
theorem violation_run {p : Detection → Bool} {k : String} {events : List ViolationEvent}
    (hp : ∀ e ∈ events, ∀ d, e.detection? = some d → (p d = true ↔ d.key = k)) :
    (ViolationWorld.run events).TellsAt p k events := by
  induction events using List.reverseRecOn with
  | nil => exact ⟨iff_of_true rfl rfl, fun _ hv => (Option.some_ne_none _ hv.symm).elim⟩
  | append_singleton events e ih =>
    rw [ViolationWorld.run, List.foldl_append]
    exact (ih fun e' he' => hp e' (List.mem_append_left _ he')).step
      (hp e (List.mem_append_right _ (List.mem_singleton_self e)))

/-! ### Keys -/

theorem mem_underscored {c : Char} (hspace : isJsSpace c = false) (hc : c ≠ '_') :
    ∀ cs : List Char, c ∈ underscored cs ↔ c ∈ cs
  | [] => Iff.rfl
  | [d] => by
    rw [underscored]
    by_cases hd : isJsSpace d = true
    · have hne : c ≠ d := by rintro rfl; rw [hspace] at hd; cases hd
      rw [if_pos hd]
      simp [hc, hne]
    · rw [if_neg hd]
  | d :: d' :: cs => by
    have ih := mem_underscored hspace hc (d' :: cs)
    rw [underscored]
    by_cases hd : isJsSpace d = true
    · have hne : c ≠ d := by rintro rfl; rw [hspace] at hd; cases hd
      rw [if_pos hd, List.mem_cons, or_iff_right hne]
      split
      · exact ih
      · rw [List.mem_cons, or_iff_right hc, ih]
    · rw [if_neg hd, List.mem_cons, ih, List.mem_cons (l := d' :: cs)]

theorem bar_not_mem_normalizeKeyPart {value : Option String} (hplain : '|' ∉ (value.getD "").toList) :
    '|' ∉ (normalizeKeyPart value).toList := by
  have htrim : '|' ∉ (jsTrim (value.getD "")).toList := by
    rw [jsTrim, String.toList_ofList, List.mem_reverse]
    intro hmem
    have hmem := List.mem_reverse.mp ((List.dropWhile_suffix _).subset hmem)
    exact hplain ((List.dropWhile_suffix _).subset hmem)
  rw [normalizeKeyPart, String.toList_ofList, mem_underscored (by decide) (by decide), String.toLower,
    String.toList_map]
  intro hmem
  obtain ⟨c, hc, hlower⟩ := List.mem_map.mp hmem
  obtain rfl := IpAddresses.eq_of_toLower_eq hlower rfl
  exact htrim hc

/-- No part after the first has a bar in it. -/
def Detection.Plain (d : Detection) : Prop := ∀ part ∈ d.parts.tail, '|' ∉ (part.getD "").toList

instance (d : Detection) : Decidable d.Plain := inferInstanceAs (Decidable (∀ part ∈ d.parts.tail, _))

def Detection.sameParts (d d' : Detection) : Bool := d'.parts.map normalizeKeyPart = d.parts.map normalizeKeyPart

theorem sameParts_iff {d d' : Detection} (hd : d.Plain) (hd' : d'.Plain) :
    d.sameParts d' = true ↔ d'.key = d.key := by
  have hkey (d : Detection) : d.key.toList =
      (((normalizeKeyPart ((truthy d.dedupeKey).orElse fun _ => d.violationType)).toList ++
        '|' :: (normalizeKeyPart d.accountId).toList ++ '|' :: (normalizeKeyPart d.userId).toList) ++
        '|' :: (normalizeKeyPart d.tradeId).toList) ++ '|' :: (normalizeKeyPart d.instrument).toList := by
    simp [Detection.key, buildViolationKey, Detection.parts]
  have hbar {d : Detection} (hd : d.Plain) (part : Option String) (hpart : part ∈ d.parts.tail) :=
    bar_not_mem_normalizeKeyPart (hd part hpart)
  rw [← String.toList_inj, hkey, hkey,
    SeparatedFields.append_inj_right (hbar hd' _ (by simp [Detection.parts])) (hbar hd _ (by simp [Detection.parts])),
    SeparatedFields.append_inj_right (hbar hd' _ (by simp [Detection.parts])) (hbar hd _ (by simp [Detection.parts])),
    SeparatedFields.append_inj_right (hbar hd' _ (by simp [Detection.parts])) (hbar hd _ (by simp [Detection.parts])),
    SeparatedFields.append_inj_right (hbar hd' _ (by simp [Detection.parts])) (hbar hd _ (by simp [Detection.parts]))]
  simp [Detection.sameParts, Detection.parts, String.toList_inj, and_assoc]

/-- A number names one row. -/
theorem ViolationWorld.ids_nodup (events : List ViolationEvent) :
    ((ViolationWorld.run events).rows.rows.map Violation.id).Nodup ∧
      ∀ v ∈ (ViolationWorld.run events).rows.rows, v.id < (ViolationWorld.run events).nextId := by
  induction events using List.reverseRecOn with
  | nil => exact ⟨List.nodup_nil, fun _ hv => absurd hv List.not_mem_nil⟩
  | append_singleton events e ih =>
    have hupdate (rows : Table Violation) (q : Violation → Bool) (f : Table.Rewrite Violation)
        (hid : ∀ v, (f.apply v).id = v.id) : (rows.update q f).rows.map Violation.id = rows.rows.map Violation.id := by
      rw [Table.rows_update, List.map_map]
      refine List.map_congr_left fun v _ => ?_
      rw [Function.comp_apply]
      split
      · exact hid v
      · rfl
    have hbelow (rows : Table Violation) (n : ℤ) :
        (∀ v ∈ rows.rows, v.id < n) ↔ ∀ id ∈ rows.rows.map Violation.id, id < n := by simp
    rw [ViolationWorld.run, List.foldl_append, List.foldl_cons, List.foldl_nil, ← ViolationWorld.run,
      ViolationWorld.step]
    obtain ⟨hnodup, hlt⟩ := ih
    cases hdetection : e.detection? with
    | some d =>
      simp only [upsertViolation]
      cases hinsert : (ViolationWorld.run events).rows.insert? (d.firstRow (ViolationWorld.run events).nextId) with
      | some rows' =>
        rw [Option.getD_some, (Table.insert?_eq_some hinsert).2]
        refine ⟨List.nodup_cons.mpr ⟨fun hmem => ?_, hnodup⟩, fun v hv => ?_⟩
        · obtain ⟨v, hv, hid⟩ := List.mem_map.mp hmem
          exact absurd (hlt v hv) (by rw [hid]; exact lt_irrefl _)
        · rcases List.mem_cons.mp hv with rfl | hv
          · exact Int.lt_succ _
          · exact (hlt v hv).trans (Int.lt_succ _)
      | none =>
        rw [Option.getD_none, Table.updateAt, hbelow, hupdate _ _ _ fun v => rfl]
        exact ⟨hnodup, fun id hid => ((hbelow _ _).mp hlt id hid).trans (Int.lt_succ _)⟩
    | none =>
      cases hresolution : e.resolution? with
      | none => exact ⟨hnodup, hlt⟩
      | some r =>
        rw [hbelow, hupdate _ _ _ fun v => rfl, ← hbelow]
        exact ⟨hnodup, hlt⟩

def sampleDetection (accountId : String) (now : ℤ) : Detection where
  dedupeKey := none
  violationType := some "rapid_opposing_trades"
  severity := some "high"
  accountId := some accountId
  userId := some "7"
  tradeId := none
  instrument := some "XAUUSD"
  source := some "challenge_engine"
  message := none
  payload := ""
  now := now

/-- Detected, settled with a note, and detected again. -/
def sampleQueue : List ViolationEvent :=
  [.detect (sampleDetection "A1" 0), .resolve "1" (some "hedge") (some " Waived ") 5, .detect (sampleDetection "a1 " 9)]

theorem sampleQueue_plain : ∀ e ∈ sampleQueue, ∀ d, e.detection? = some d → d.Plain := by
  intro e he d hd
  simp only [sampleQueue, List.mem_cons, List.not_mem_nil, or_false] at he
  rcases he with rfl | rfl | rfl <;> cases hd <;> decide +kernel

theorem sampleDetection_parts : (sampleDetection "A1" 0).parts.map normalizeKeyPart =
    ["rapid_opposing_trades", "a1", "7", "", "xauusd"] := by decide +kernel

theorem sampleDetection_sameParts : (sampleDetection "A1" 0).sameParts (sampleDetection "A1" 0) = true ∧
    (sampleDetection "A1" 0).sameParts (sampleDetection "a1 " 9) = true := by
  have hparts : (sampleDetection "a1 " 9).parts.map normalizeKeyPart =
      ["rapid_opposing_trades", "a1", "7", "", "xauusd"] := by decide +kernel
  rw [Detection.sameParts, Detection.sameParts, sampleDetection_parts, hparts]
  decide

end PropFirm
