import Mathlib
import PropFirm.Lib.Admission
import PropFirm.Lib.Transition

/-!
# Entering a competition

`createCompetitionEntry` runs inside its caller's transaction. It takes an advisory lock on the user and
the competition, looks for an entry of his, counts the entries that take part, and inserts. The table has
a unique index on competition and user, and `max_participants` of a competition stays as it is.

`hashtext` is a parameter, so that locks of different users may fall together.
-/

namespace PropFirm

open Admission Transition

inductive ContestEntryStatus
  | active | completed | disqualified | withdrawn
  deriving DecidableEq, Repr

/-- The entry takes part: it is counted against the capacity, and it is ranked in the end. -/
def ContestEntryStatus.TakesPart (status : ContestEntryStatus) : Prop :=
  status ∈ [ContestEntryStatus.active, .completed]

instance : DecidablePred ContestEntryStatus.TakesPart := fun _ => inferInstanceAs (Decidable (_ ∈ _))

structure ContestEntry where
  id : Nat
  competitionId : Nat
  userId : Nat
  accountId : Nat
  status : ContestEntryStatus
  deriving DecidableEq

/-- The unique index. -/
instance : Keyed ContestEntry (Nat × Nat) := ⟨fun e => (e.competitionId, e.userId)⟩

def ContestEntry.movedTo (status : ContestEntryStatus) : Table.Rewrite ContestEntry where
  apply e := { e with status := status }
  key_apply _ := rfl

/-- How far a call has come. -/
inductive EntryStage
  | called | locked | unentered | counted
  deriving DecidableEq

structure EntryCall where
  callId : Nat
  competitionId : Nat
  userId : Nat
  stage : EntryStage

instance : Keyed EntryCall Nat := ⟨EntryCall.callId⟩

structure CapacityConfig where
  hashtext : String → Int
  maxParticipants : Nat → Option Int

namespace EntryCall

def atStage (stage : EntryStage) : Table.Rewrite EntryCall where
  apply c := { c with stage := stage }
  key_apply _ := rfl

/-- `pg_advisory_xact_lock(hashtext(userId), competitionId)`, from the second stage on. -/
def held (cfg : CapacityConfig) (c : EntryCall) : List (Int × Int) :=
  match c.stage with
  | .called => []
  | .locked | .unentered | .counted => [(cfg.hashtext (toString c.userId), c.competitionId)]

/-- Counted in a competition, and neither committed nor given up. -/
def CountedIn (competitionId : Nat) (c : EntryCall) : Prop :=
  c.competitionId = competitionId ∧ c.stage = .counted

end EntryCall

structure CompetitionWorld where
  entries : Table ContestEntry
  calls : Table EntryCall

/-- `proceed` is the next statement of a call, `fail` an error in it or in its caller. Elsewhere an entry
is completed, disqualified or withdrawn. -/
inductive CompetitionAction
  | call (callId competitionId userId : Nat)
  | proceed (callId entryId accountId : Nat)
  | fail (callId : Nat)
  | setStatus (competitionId userId : Nat) (status : ContestEntryStatus)

namespace CompetitionWorld

variable (cfg : CapacityConfig) (w : CompetitionWorld)

def participants (competitionId : Nat) : Nat :=
  w.entries.rows.countP fun e => e.competitionId = competitionId ∧ e.status.TakesPart

def Free (callId : Nat) (lock : Int × Int) : Prop :=
  ∀ c ∈ w.calls.rows, lock ∈ c.held cfg → c.callId = callId

instance (callId : Nat) (lock : Int × Int) : Decidable (w.Free cfg callId lock) :=
  inferInstanceAs (Decidable (∀ c ∈ w.calls.rows, _))

def advance (callId : Nat) (stage : EntryStage) : CompetitionWorld :=
  { w with calls := w.calls.updateAt callId (EntryCall.atStage stage) }

/-- The end of the caller's transaction. -/
def finish (callId : Nat) : CompetitionWorld := { w with calls := w.calls.erase callId }

/-- The limits that are there; zero is none. -/
def capacity (cfg : CapacityConfig) (competitionId : Nat) : Option Int :=
  (cfg.maxParticipants competitionId).filter (· ≠ 0)

/-- The next statement of `createCompetitionEntry`. The insert comes with the caller's commit; a user who
has an entry is stopped by the unique index. -/
def createCompetitionEntry (c : EntryCall) (entryId accountId : Nat) : Option CompetitionWorld :=
  match c.stage with
  | .called =>
    if w.Free cfg c.callId (cfg.hashtext (toString c.userId), c.competitionId) then
      some (w.advance c.callId .locked)
    else none
  | .locked =>
    if (w.entries.find? (c.competitionId, c.userId)).isSome then some (w.finish c.callId)
    else some (w.advance c.callId .unentered)
  | .unentered =>
    if ∃ limit ∈ capacity cfg c.competitionId, limit ≤ w.participants c.competitionId then
      some (w.finish c.callId)
    else some (w.advance c.callId .counted)
  | .counted =>
    match w.entries.insert? ⟨entryId, c.competitionId, c.userId, accountId, .active⟩ with
    | none => some (w.finish c.callId)
    | some entries => some { w.finish c.callId with entries := entries }

def step (cfg : CapacityConfig) (w : CompetitionWorld) : CompetitionAction → Option CompetitionWorld
  | .call callId competitionId userId =>
    (w.calls.insert? ⟨callId, competitionId, userId, .called⟩).map fun calls => { w with calls := calls }
  | .proceed callId entryId accountId => do
    w.createCompetitionEntry cfg (← w.calls.find? callId) entryId accountId
  | .fail callId => some (w.finish callId)
  | .setStatus competitionId userId status =>
    if status = .active then none
    else
      let leaves (e : ContestEntry) :=
        e.competitionId = competitionId ∧ e.userId = userId ∧ (status = .completed → e.status = .active)
      some { w with entries := w.entries.update (fun e => leaves e) (ContestEntry.movedTo status) }

/-! ### What a statement does -/

inductive Advances (c : EntryCall) : EntryStage → Prop
  | lock (hstage : c.stage = .called)
      (hfree : w.Free cfg c.callId (cfg.hashtext (toString c.userId), c.competitionId)) : Advances c .locked
  | findNone (hstage : c.stage = .locked) (hnone : w.entries.find? (c.competitionId, c.userId) = none) :
      Advances c .unentered
  | count (hstage : c.stage = .unentered)
      (hbelow : ∀ limit ∈ capacity cfg c.competitionId, (w.participants c.competitionId : Int) < limit) :
      Advances c .counted

variable {cfg w}

theorem createCompetitionEntry_cases {w' : CompetitionWorld} {c : EntryCall} {entryId accountId : Nat}
    (hcreate : w.createCompetitionEntry cfg c entryId accountId = some w') :
    w' = w.finish c.callId ∨
    (∃ stage, w.Advances cfg c stage ∧ w' = w.advance c.callId stage) ∨
    ∃ entries, c.stage = .counted ∧
      w.entries.insert? ⟨entryId, c.competitionId, c.userId, accountId, .active⟩ = some entries ∧
      w' = { w.finish c.callId with entries := entries } := by
  unfold createCompetitionEntry at hcreate
  split at hcreate
  next hstage =>
    split at hcreate
    · rename_i hfree
      exact .inr (.inl ⟨_, .lock hstage hfree, (Option.some.inj hcreate).symm⟩)
    · cases hcreate
  next hstage =>
    split at hcreate
    · exact .inl (Option.some.inj hcreate).symm
    · rename_i hnone
      exact .inr (.inl ⟨_, .findNone hstage (Option.not_isSome_iff_eq_none.mp hnone),
        (Option.some.inj hcreate).symm⟩)
  next hstage =>
    split at hcreate
    · exact .inl (Option.some.inj hcreate).symm
    · rename_i hbelow
      push Not at hbelow
      exact .inr (.inl ⟨_, .count hstage hbelow, (Option.some.inj hcreate).symm⟩)
  next hstage =>
    split at hcreate
    · exact .inl (Option.some.inj hcreate).symm
    · rename_i entries hinsert
      exact .inr (.inr ⟨entries, hstage, hinsert, (Option.some.inj hcreate).symm⟩)

/-! ### The capacity -/

/-- A competition's entries are counted only while no other call for it is between its own count and its
end. -/
def CountsAlone (w : CompetitionWorld) : CompetitionAction → Prop
  | .proceed callId _ _ =>
    ∀ c ∈ w.calls.rows, c.callId = callId → c.stage = .unentered →
      ∀ d ∈ w.calls.rows, d.competitionId = c.competitionId → d.stage ≠ .counted
  | .call .. | .fail _ | .setStatus .. => True

instance (w : CompetitionWorld) : DecidablePred w.CountsAlone
  | .proceed .. => inferInstanceAs (Decidable (∀ c ∈ w.calls.rows, _))
  | .call .. | .fail _ | .setStatus .. => isTrue trivial

/-- The gate of a competition. -/
def KeepsCapacity (competitionId : Nat) (limit : Int) (w : CompetitionWorld) : Prop :=
  Keeps (fun e : ContestEntry => e.competitionId = competitionId ∧ e.status.TakesPart)
    (EntryCall.CountedIn competitionId) limit w.entries w.calls

theorem KeepsCapacity.step {competitionId : Nat} {limit : Int} {w' : CompetitionWorld} {a : CompetitionAction}
    (hkept : KeepsCapacity competitionId limit w) (hlimit : limit ∈ capacity cfg competitionId)
    (halone : w.CountsAlone a) (hstep : w.step cfg a = some w') :
    KeepsCapacity competitionId limit w' := by
  cases a with
  | call callId joined userId =>
    obtain ⟨calls, hinsert, rfl⟩ := Option.map_eq_some_iff.mp hstep
    exact Keeps.insert_caller hkept hinsert fun hcounted => by cases hcounted.2
  | proceed callId entryId accountId =>
    obtain ⟨c, hc, hcreate⟩ := Option.bind_eq_some_iff.mp hstep
    obtain ⟨hmem, rfl⟩ := Table.find?_eq_some.mp hc
    obtain rfl | ⟨stage, hadvance, rfl⟩ | ⟨entries, hstage, hinsert, rfl⟩ :=
      createCompetitionEntry_cases hcreate
    · exact Keeps.erase hkept _
    · refine Keeps.update_caller hkept hc fun hcounted => .inr ?_
      obtain ⟨rfl, hstage'⟩ := hcounted
      cases hadvance with
      | lock => cases hstage'
      | findNone => cases hstage'
      | count hstage hbelow =>
        refine ⟨?_, hbelow limit hlimit⟩
        rintro otherId ⟨d, hd, hcompetition, hcounted⟩
        exact halone c hmem rfl hstage d (Table.find?_eq_some.mp hd).1 hcompetition hcounted
    · refine Keeps.join hkept hc hinsert fun hcounts => ?_
      exact ⟨(of_decide_eq_true hcounts).1, hstage⟩
  | fail callId => exact Option.some.inj hstep ▸ Keeps.erase hkept callId
  | setStatus competitionId' userId status =>
    dsimp only [CompetitionWorld.step] at hstep
    split at hstep
    · cases hstep
    rename_i hactive
    obtain rfl := Option.some.inj hstep
    refine Keeps.update_members hkept fun e _ hleaves hcounts => decide_eq_true ?_
    obtain ⟨hcompetition, htakes⟩ := of_decide_eq_true hcounts
    obtain ⟨_, _, hfrom⟩ := of_decide_eq_true hleaves
    refine ⟨hcompetition, ?_⟩
    rcases List.mem_pair.mp htakes with hto | hto
    · exact absurd hto hactive
    · exact List.mem_pair.mpr (.inl (hfrom hto))

/-- No competition has more participants than a positive limit allows, and no user two entries in one. An
entry that is disqualified or withdrawn gives its place back. -/
structure RespectsCapacity (cfg : CapacityConfig) (w : CompetitionWorld) : Prop where
  capacity : ∀ competitionId limit, cfg.maxParticipants competitionId = some limit → 0 < limit →
    (w.participants competitionId : Int) ≤ limit
  single : ∀ e ∈ w.entries.rows, ∀ f ∈ w.entries.rows,
    e.competitionId = f.competitionId → e.userId = f.userId → e = f

/-- No call is under way, and the capacities are respected. -/
def Quiescent (cfg : CapacityConfig) (w : CompetitionWorld) : Prop :=
  w.calls.rows = [] ∧ w.RespectsCapacity cfg

/-- The unique index, whatever the calls do. -/
theorem single_entry (w : CompetitionWorld) {e f : ContestEntry} (he : e ∈ w.entries.rows)
    (hf : f ∈ w.entries.rows) (hcompetition : e.competitionId = f.competitionId)
    (huser : e.userId = f.userId) : e = f :=
  List.inj_on_of_nodup_map w.entries.nodup he hf (Prod.ext hcompetition huser)

theorem participants_le (hreach : Reach (step cfg) CountsAlone (Quiescent cfg) w) {competitionId : Nat}
    {limit : Int} (hlimit : cfg.maxParticipants competitionId = some limit) (hpos : 0 < limit) :
    (w.participants competitionId : Int) ≤ limit := by
  have hmem : limit ∈ capacity cfg competitionId :=
    Option.mem_filter_iff.mpr ⟨hlimit, decide_eq_true hpos.ne'⟩
  have hkept : KeepsCapacity competitionId limit w := by
    apply hreach.invariant
    · exact fun s hs => .of_empty hs.1 (hs.2.capacity competitionId limit hlimit hpos)
    · exact fun s a s' hkept halone hstep => hkept.step hmem halone hstep
  exact hkept.le

/-- One place in every competition. -/
def onePlace : CapacityConfig where
  hashtext text := text.length
  maxParticipants _ := some 1

def nobodyIn : CompetitionWorld := ⟨.empty, .empty⟩

theorem nobodyIn_quiescent : nobodyIn.Quiescent onePlace :=
  ⟨rfl, fun _ _ _ hpos => hpos.le, fun _ he => absurd he List.not_mem_nil⟩

/-- Users 7 and 12 are counted out of one another's sight. -/
def raceForPlace : List CompetitionAction :=
  [.call 1 3 7, .call 2 3 12, .proceed 1 0 0, .proceed 2 0 0, .proceed 1 0 0, .proceed 2 0 0,
    .proceed 1 0 0, .proceed 2 0 0, .proceed 1 10 100, .proceed 2 11 101]

/-- The second call counts when the first is through. -/
def oneAfterTheOther : List CompetitionAction :=
  [.call 1 3 7, .call 2 3 12, .proceed 1 0 0, .proceed 2 0 0, .proceed 1 0 0, .proceed 2 0 0,
    .proceed 1 0 0, .proceed 1 10 100, .proceed 2 0 0]

end CompetitionWorld

end PropFirm
