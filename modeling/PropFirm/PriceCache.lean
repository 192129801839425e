import Mathlib
import PropFirm.Lib.Snapshots
import PropFirm.Lib.Transition

/-!
# The price cache

`updatePrices` awaits the tenant's resolver and then replaces the whole map and reports the instruments that
moved, in one go. Calls are not serialised: the watcher starts one for each tick, the fallback interval and
the seeding at startup start their own, and each resumes when its resolver answers.

An update is numbered by its start and has its answer from then on. Every return of an update is logged with
the map it leaves in the cache.
-/

namespace PropFirm

open Snapshots Transition

/-- A tenant-adjusted quote; `updatedAt` is the time of its tick. -/
structure CachedPrice where
  bid : ℚ
  ask : ℚ
  updatedAt : Nat
  deriving DecidableEq

/-- The entries of a price object; an instrument may stand in it with `null`. -/
abbrev PriceMap := AList fun _ : String => Option CachedPrice

/-- `prices[instrument] || null`. -/
def PriceMap.get (prices : PriceMap) (instrument : String) : Option CachedPrice :=
  (prices.lookup instrument).join

theorem PriceMap.mem_keys_of_mem_get {prices : PriceMap} {instrument : String} {price : CachedPrice}
    (hprice : price ∈ prices.get instrument) : instrument ∈ prices.keys := by
  have hentry : some price ∈ prices.lookup instrument := Option.join_eq_some_iff.mp hprice
  exact List.mem_keys.mpr ⟨some price, AList.mem_lookup_iff.mp hentry⟩

def moved : Option CachedPrice → Option CachedPrice → Bool
  | _, none => false
  | none, some _ => true
  | some before, some after => before.bid ≠ after.bid || before.ask ≠ after.ask

def diffInstruments (prev next : PriceMap) : List String :=
  next.keys.filter fun instrument => moved (prev.get instrument) (next.get instrument)

structure PriceCache where
  prices : PriceMap
  lastChanged : List String

def PriceCache.getPrice (cache : PriceCache) (instrument : String) : Option CachedPrice :=
  cache.prices.get instrument

/-- What `updatePrices` does behind its await; the answer is `none` when the resolver threw or its map did
not parse. -/
def PriceCache.updatePrices (cache : PriceCache) : Option PriceMap → PriceCache × List String
  | none => (cache, [])
  | some next => (⟨next, diffInstruments cache.prices next⟩, diffInstruments cache.prices next)

/-- The instrument has a quote in `next` whose bid or ask it did not have in `prev`. -/
def Changed (prev next : PriceMap) (instrument : String) : Prop :=
  ∃ after ∈ next.get instrument, ∀ before ∈ prev.get instrument,
    before.bid ≠ after.bid ∨ before.ask ≠ after.ask

theorem moved_iff_changed {prev next : PriceMap} {instrument : String} :
    moved (prev.get instrument) (next.get instrument) = true ↔ Changed prev next instrument := by
  unfold Changed
  cases next.get instrument with
  | none => simp [moved]
  | some after => cases prev.get instrument <;> simp [moved]

instance (prev next : PriceMap) : DecidablePred (Changed prev next) := fun _ =>
  decidable_of_iff _ moved_iff_changed

theorem mem_diffInstruments {prev next : PriceMap} {instrument : String} :
    instrument ∈ diffInstruments prev next ↔ Changed prev next instrument := by
  rw [diffInstruments, List.mem_filter, moved_iff_changed]
  refine ⟨And.right, fun hchanged => ⟨?_, hchanged⟩⟩
  obtain ⟨after, hafter, -⟩ := hchanged
  exact PriceMap.mem_keys_of_mem_get hafter

theorem nodup_diffInstruments (prev next : PriceMap) : (diffInstruments prev next).Nodup :=
  next.keys_nodup.filter _

theorem not_changed_self (prices : PriceMap) (instrument : String) : ¬ Changed prices prices instrument := by
  rintro ⟨after, hafter, hbefore⟩
  rcases hbefore after hafter with hbid | hask
  · exact hbid rfl
  · exact hask rfl

/-- Whatever the resolver answered, the list names what changed in the cache. -/
theorem PriceCache.updatePrices_spec (cache : PriceCache) (answer : Option PriceMap) :
    (cache.updatePrices answer).2.Nodup ∧ ∀ instrument, instrument ∈ (cache.updatePrices answer).2 ↔
      Changed cache.prices (cache.updatePrices answer).1.prices instrument := by
  cases answer with
  | none =>
    refine ⟨List.nodup_nil, fun instrument => ⟨fun hmem => (List.not_mem_nil hmem).elim, fun hchanged => ?_⟩⟩
    exact (not_changed_self cache.prices instrument hchanged).elim
  | some next => exact ⟨nodup_diffInstruments _ _, fun _ => mem_diffInstruments⟩

structure PriceUpdate where
  answer : Option PriceMap
  returned : Bool

namespace PriceUpdate

def quote (u : PriceUpdate) (instrument : String) : Option CachedPrice := u.answer.bind (·.get instrument)

def instruments (u : PriceUpdate) : List String := (u.answer.map AList.keys).getD []

theorem mem_quote {u : PriceUpdate} {prices : PriceMap} {instrument : String} {price : CachedPrice}
    (hanswer : u.answer = some prices) (hprice : price ∈ prices.get instrument) :
    price ∈ u.quote instrument :=
  Option.bind_eq_some_iff.mpr ⟨prices, hanswer, hprice⟩

theorem mem_instruments {u : PriceUpdate} {instrument : String} {price : CachedPrice}
    (hprice : price ∈ u.quote instrument) : instrument ∈ u.instruments := by
  obtain ⟨prices, hanswer, hget⟩ := Option.bind_eq_some_iff.mp hprice
  rw [instruments, hanswer]
  exact PriceMap.mem_keys_of_mem_get hget

/-- The quotes of `v` are newer than those of `u`. -/
def OlderThan (u v : PriceUpdate) : Prop :=
  ∀ instrument, ∀ price ∈ v.quote instrument, ∀ price' ∈ u.quote instrument,
    price'.updatedAt < price.updatedAt

/-- The two have a quote of the same instrument. -/
def Overlaps (u v : PriceUpdate) : Prop :=
  ∃ instrument, (u.quote instrument).isSome ∧ (v.quote instrument).isSome

instance : DecidableRel OlderThan := fun u v =>
  decidable_of_iff (∀ instrument ∈ v.instruments, ∀ price ∈ v.quote instrument,
      ∀ price' ∈ u.quote instrument, price'.updatedAt < price.updatedAt)
    ⟨fun h instrument price hprice => h instrument (mem_instruments hprice) price hprice,
      fun h instrument _ => h instrument⟩

instance : DecidableRel Overlaps := fun u v =>
  decidable_of_iff (∃ instrument ∈ u.instruments, (u.quote instrument).isSome ∧ (v.quote instrument).isSome)
    ⟨fun ⟨instrument, _, h⟩ => ⟨instrument, h⟩, fun ⟨instrument, h⟩ =>
      ⟨instrument, mem_instruments (Option.get_mem h.1), h⟩⟩

end PriceUpdate

structure PriceCacheWorld where
  cache : PriceCache
  updates : List PriceUpdate
  log : List (PriceMap × List String)

inductive PriceCacheAction
  | start (answer : Option PriceMap)
  | resume (k : Nat)

namespace PriceCacheWorld

def start (w : PriceCacheWorld) (answer : Option PriceMap) : PriceCacheWorld :=
  { w with updates := w.updates ++ [⟨answer, false⟩] }

def resume (w : PriceCacheWorld) (k : Nat) (u : PriceUpdate) : PriceCacheWorld where
  cache := (w.cache.updatePrices u.answer).1
  updates := w.updates.set k { u with returned := true }
  log := ((w.cache.updatePrices u.answer).1.prices, (w.cache.updatePrices u.answer).2) :: w.log

def step (w : PriceCacheWorld) : PriceCacheAction → Option PriceCacheWorld
  | .start answer => some (w.start answer)
  | .resume k => (w.updates[k]?).bind fun u => if u.returned then none else some (w.resume k u)

def Empty (w : PriceCacheWorld) : Prop := w.cache.prices = ∅ ∧ w.updates = [] ∧ w.log = []

/-- An update carries quotes newer than those of every update started before it. -/
def StartsNewer (w : PriceCacheWorld) : PriceCacheAction → Prop
  | .start answer => ∀ u ∈ w.updates, u.OlderThan ⟨answer, false⟩
  | .resume _ => True

/-- An update that was started later, with a quote of an instrument of this one, has returned before it. -/
def Overtaken (w : PriceCacheWorld) (k : Nat) : Prop :=
  ∃ u ∈ w.updates[k]?, ∃ later ∈ w.updates.drop (k + 1), later.returned ∧ u.Overlaps later

def InOrder (w : PriceCacheWorld) : PriceCacheAction → Prop
  | .start _ => True
  | .resume k => ¬ w.Overtaken k

instance (w : PriceCacheWorld) : DecidablePred w.StartsNewer
  | .start answer => inferInstanceAs (Decidable (∀ u ∈ w.updates, u.OlderThan ⟨answer, false⟩))
  | .resume _ => inferInstanceAs (Decidable True)

instance (w : PriceCacheWorld) : DecidablePred w.Overtaken := fun k =>
  inferInstanceAs (Decidable (∃ u ∈ w.updates[k]?, ∃ later ∈ w.updates.drop (k + 1),
    later.returned ∧ u.Overlaps later))

instance (w : PriceCacheWorld) : DecidablePred w.InOrder
  | .start _ => inferInstanceAs (Decidable True)
  | .resume k => inferInstanceAs (Decidable (¬ w.Overtaken k))

/-- No instrument ever gets an older quote than it had. -/
def NeverBack (w : PriceCacheWorld) : Prop :=
  Forward PriceMap.get CachedPrice.updatedAt (w.log.map Prod.fst)

/-- Each returned list names what changed between the two states around its return, and over all lists an
instrument is named as often as it changed. -/
def ReportsOnce (w : PriceCacheWorld) : Prop :=
  Reported Changed ∅ w.log ∧ ∀ instrument,
    (w.log.map fun entry => entry.2.count instrument).sum =
      (transitions ∅ w.log).countP fun t => Changed t.1 t.2.1 instrument

/-- Update `j` has returned with `prices`. -/
def LandedAt (w : PriceCacheWorld) (j : Nat) (prices : PriceMap) : Prop :=
  ∃ u : PriceUpdate, w.updates[j]? = some u ∧ u.returned = true ∧ u.answer = some prices

structure Inv (w : PriceCacheWorld) : Prop where
  current : w.cache.prices = latest ∅ w.log
  reported : Reported Changed ∅ w.log
  landed : ∀ j prices, w.LandedAt j prices → prices ∈ w.log.map Prod.fst
  source : ∀ prices ∈ w.log.map Prod.fst, prices = ∅ ∨ ∃ j, w.LandedAt j prices

/-- Of two updates the one started later has the newer quotes. -/
def Ordered (w : PriceCacheWorld) : Prop :=
  ∀ (i j : Nat) (u v : PriceUpdate), i < j → w.updates[i]? = some u → w.updates[j]? = some v → u.OlderThan v

theorem Empty.not_landedAt {w : PriceCacheWorld} (hempty : w.Empty) (j : Nat) (prices : PriceMap) :
    ¬ w.LandedAt j prices := by
  rintro ⟨u, hu, -⟩
  rw [hempty.2.1] at hu
  cases hu

theorem Empty.inv {w : PriceCacheWorld} (hempty : w.Empty) : w.Inv := by
  have hlog := hempty.2.2
  refine ⟨hlog ▸ hempty.1, ?_, fun j prices hlanded => (hempty.not_landedAt j prices hlanded).elim, ?_⟩
  · rw [hlog]
    exact fun t ht => (List.not_mem_nil ht).elim
  · rw [hlog]
    exact fun prices hprices => (List.not_mem_nil hprices).elim

theorem Inv.source_current {w : PriceCacheWorld} (hinv : w.Inv) :
    w.cache.prices = ∅ ∨ ∃ j, w.LandedAt j w.cache.prices := by
  rw [hinv.current]
  cases hlog : w.log with
  | nil => exact .inl rfl
  | cons entry log => exact hinv.source _ (by rw [hlog]; exact List.mem_cons_self)

/-- An update returns once. -/
theorem step_resume {w w' : PriceCacheWorld} {k : Nat} (hstep : w.step (.resume k) = some w') :
    ∃ u, w.updates[k]? = some u ∧ u.returned = false ∧ w' = w.resume k u := by
  obtain ⟨u, hu, hreturned⟩ := Option.bind_eq_some_iff.mp hstep
  split at hreturned
  · cases hreturned
  · next hawaits => exact ⟨u, hu, Bool.eq_false_of_not_eq_true hawaits, (Option.some.inj hreturned).symm⟩

section Resume

variable {w : PriceCacheWorld} {k : Nat} {u : PriceUpdate} (hu : w.updates[k]? = some u)

include hu

theorem getElem?_resume (j : Nat) :
    (w.resume k u).updates[j]? = if j = k then some { u with returned := true } else w.updates[j]? := by
  have hk : k < w.updates.length := (List.getElem?_eq_some_iff.mp hu).1
  by_cases hj : j = k
  · rw [if_pos hj, hj]
    exact List.getElem?_set_self hk
  · rw [if_neg hj]
    exact List.getElem?_set_ne (Ne.symm hj)

/-- No answer changes when an update returns. -/
theorem exists_of_resume {j : Nat} {v : PriceUpdate} (hv : (w.resume k u).updates[j]? = some v) :
    ∃ v', w.updates[j]? = some v' ∧ v'.answer = v.answer := by
  rw [getElem?_resume hu] at hv
  split at hv
  · next hj =>
    obtain rfl := Option.some.inj hv
    exact ⟨u, hj ▸ hu, rfl⟩
  · exact ⟨v, hv, rfl⟩

theorem landedAt_resume (hawaits : u.returned = false) {j : Nat} {prices : PriceMap} :
    (w.resume k u).LandedAt j prices ↔ w.LandedAt j prices ∨ j = k ∧ u.answer = some prices := by
  unfold LandedAt
  rw [getElem?_resume hu]
  constructor
  · rintro ⟨v, hv, hreturned, hanswer⟩
    split at hv
    · next hj =>
      obtain rfl := Option.some.inj hv
      exact .inr ⟨hj, hanswer⟩
    · exact .inl ⟨v, hv, hreturned, hanswer⟩
  · rintro (⟨v, hv, hreturned, hanswer⟩ | ⟨hj, hanswer⟩)
    · have hj : j ≠ k := by
        rintro rfl
        obtain rfl := Option.some.inj (hu.symm.trans hv)
        cases hawaits.symm.trans hreturned
      exact ⟨v, (if_neg hj).trans hv, hreturned, hanswer⟩
    · exact ⟨_, if_pos hj, rfl, hanswer⟩

theorem Ordered.resume (hordered : w.Ordered) : (w.resume k u).Ordered := by
  intro i j v v' hij hv hv'
  obtain ⟨v₀, hv₀, hanswer⟩ := exists_of_resume hu hv
  obtain ⟨v₁, hv₁, hanswer'⟩ := exists_of_resume hu hv'
  have holder := hordered i j v₀ v₁ hij hv₀ hv₁
  unfold PriceUpdate.OlderThan PriceUpdate.quote at holder ⊢
  rwa [hanswer, hanswer'] at holder

theorem Inv.resume (hinv : w.Inv) (hawaits : u.returned = false) : (w.resume k u).Inv := by
  obtain ⟨hnodup, hreport⟩ := w.cache.updatePrices_spec u.answer
  refine ⟨rfl, hinv.reported.cons hnodup (hinv.current ▸ hreport), fun j prices hlanded => ?_, ?_⟩
  · rcases (landedAt_resume hu hawaits).mp hlanded with hlanded | ⟨-, hanswer⟩
    · exact List.mem_cons_of_mem _ (hinv.landed j prices hlanded)
    · have hprices : prices = (w.cache.updatePrices u.answer).1.prices := by rw [hanswer]; rfl
      exact hprices ▸ List.mem_cons_self
  · have hkept (prices : PriceMap) (hsource : prices = ∅ ∨ ∃ j, w.LandedAt j prices) :
        prices = ∅ ∨ ∃ j, (w.resume k u).LandedAt j prices :=
      hsource.imp_right (Exists.imp fun j hlanded => (landedAt_resume hu hawaits).mpr (.inl hlanded))
    intro prices hprices
    rcases List.mem_cons.mp hprices with rfl | hprices
    · cases hanswer : u.answer with
      | none => exact hkept _ hinv.source_current
      | some next => exact .inr ⟨k, (landedAt_resume hu hawaits).mpr (.inr ⟨rfl, hanswer⟩)⟩
    · exact hkept prices (hinv.source prices hprices)

/-- Among quotes that get newer with each start, the cache goes back where a later update is already in it,
and nowhere else. -/
theorem neverBack_resume_iff (hinv : w.Inv) (hordered : w.Ordered) (hback : w.NeverBack)
    (hawaits : u.returned = false) : (w.resume k u).NeverBack ↔ ¬ w.Overtaken k := by
  constructor
  · rintro hback' ⟨u', hu', later, hlater, hreturned, instrument, hquote, hquote'⟩
    obtain rfl := Option.some.inj (hu.symm.trans hu')
    obtain ⟨price, hprice⟩ := Option.isSome_iff_exists.mp hquote
    obtain ⟨price', hprice'⟩ := Option.isSome_iff_exists.mp hquote'
    obtain ⟨next, hanswer, hget⟩ := Option.bind_eq_some_iff.mp hprice
    obtain ⟨next', hanswer', hget'⟩ := Option.bind_eq_some_iff.mp hprice'
    obtain ⟨m, hm⟩ := List.mem_iff_getElem?.mp hlater
    rw [List.getElem?_drop] at hm
    have hlanded : next' ∈ w.log.map Prod.fst := hinv.landed _ next' ⟨later, hm, hreturned, hanswer'⟩
    have hnewer : price.updatedAt < price'.updatedAt :=
      hordered k _ u later (by omega) hu hm instrument price' hprice' price hprice
    rw [NeverBack, PriceCacheWorld.resume, hanswer] at hback'
    have hle := (List.pairwise_cons.mp hback').1 next' hlanded instrument price hget price' hget'
    exact absurd hnewer (Nat.not_lt.mpr hle)
  · intro horder
    rw [NeverBack, PriceCacheWorld.resume]
    cases hanswer : u.answer with
    | none =>
      dsimp only [PriceCache.updatePrices, List.map_cons]
      rw [hinv.current]
      cases hlog : w.log with
      | nil => exact List.pairwise_singleton _ _
      | cons entry log => exact Forward.again (by rw [NeverBack, hlog] at hback; exact hback)
    | some next =>
      refine Forward.cons hback fun older holder instrument price hprice price' hprice' => ?_
      have hquote := PriceUpdate.mem_quote hanswer hprice
      rcases hinv.source older holder with rfl | ⟨j, later, hlater, hreturned, hanswer'⟩
      · cases hprice'
      have hquote' := PriceUpdate.mem_quote hanswer' hprice'
      rcases Nat.lt_trichotomy j k with hj | rfl | hj
      · exact (hordered j k later u hj hlater hu instrument price hquote price' hquote').le
      · obtain rfl := Option.some.inj (hu.symm.trans hlater)
        cases hawaits.symm.trans hreturned
      · have hmem : later ∈ w.updates.drop (k + 1) := by
          refine List.mem_iff_getElem?.mpr ⟨j - (k + 1), ?_⟩
          rw [List.getElem?_drop, Nat.add_sub_cancel' hj]
          exact hlater
        exact (horder ⟨u, hu, later, hmem, hreturned, instrument, Option.isSome_of_mem hquote,
          Option.isSome_of_mem hquote'⟩).elim

end Resume

section Start

variable {w : PriceCacheWorld} {answer : Option PriceMap}

theorem getElem?_start {j : Nat} {v : PriceUpdate} (hv : (w.start answer).updates[j]? = some v) :
    w.updates[j]? = some v ∨ j = w.updates.length ∧ v = ⟨answer, false⟩ := by
  rcases Nat.lt_or_ge j w.updates.length with hj | hj
  · exact .inl ((List.getElem?_append_left hj).symm.trans hv)
  · rw [start, List.getElem?_append_right hj] at hv
    obtain ⟨hlt, hget⟩ := List.getElem?_eq_some_iff.mp hv
    have hzero : j - w.updates.length = 0 := Nat.lt_one_iff.mp hlt
    refine .inr ⟨by omega, ?_⟩
    simpa [hzero] using hget.symm

theorem landedAt_start {j : Nat} {prices : PriceMap} :
    (w.start answer).LandedAt j prices ↔ w.LandedAt j prices := by
  constructor
  · rintro ⟨v, hv, hreturned, hanswer⟩
    rcases getElem?_start hv with hv | ⟨-, rfl⟩
    · exact ⟨v, hv, hreturned, hanswer⟩
    · cases hreturned
  · rintro ⟨v, hv, hreturned, hanswer⟩
    have hj := (List.getElem?_eq_some_iff.mp hv).1
    exact ⟨v, (List.getElem?_append_left hj).trans hv, hreturned, hanswer⟩

theorem Inv.start (hinv : w.Inv) : (w.start answer).Inv :=
  ⟨hinv.current, hinv.reported, fun j prices hlanded => hinv.landed j prices (landedAt_start.mp hlanded),
    fun prices hprices => (hinv.source prices hprices).imp_right (Exists.imp fun _ => landedAt_start.mpr)⟩

theorem Ordered.start (hordered : w.Ordered) (hnewer : w.StartsNewer (.start answer)) :
    (w.start answer).Ordered := by
  intro i j u v hij hu hv
  have hi := (List.getElem?_eq_some_iff.mp hu).1
  have hj := (List.getElem?_eq_some_iff.mp hv).1
  rw [PriceCacheWorld.start, List.length_append] at hi hj
  rcases getElem?_start hu with hu | ⟨rfl, -⟩
  · rcases getElem?_start hv with hv | ⟨-, rfl⟩
    · exact hordered i j u v hij hu hv
    · exact hnewer u (List.mem_of_getElem? hu)
  · have hone : [(⟨answer, false⟩ : PriceUpdate)].length = 1 := rfl
    omega

end Start

section Runs

variable {w w' : PriceCacheWorld} {a : PriceCacheAction}

theorem Inv.step (hinv : w.Inv) (hstep : w.step a = some w') : w'.Inv := by
  cases a with
  | start answer =>
    obtain rfl := Option.some.inj hstep
    exact hinv.start
  | resume k =>
    obtain ⟨u, hu, hawaits, rfl⟩ := step_resume hstep
    exact hinv.resume hu hawaits

theorem Ordered.step (hordered : w.Ordered) (hnewer : w.StartsNewer a) (hstep : w.step a = some w') :
    w'.Ordered := by
  cases a with
  | start answer =>
    obtain rfl := Option.some.inj hstep
    exact hordered.start hnewer
  | resume k =>
    obtain ⟨u, hu, -, rfl⟩ := step_resume hstep
    exact hordered.resume hu

theorem neverBack_step_iff (hinv : w.Inv) (hordered : w.Ordered) (hback : w.NeverBack)
    (hstep : w.step a = some w') : w'.NeverBack ↔ w.InOrder a := by
  cases a with
  | start answer =>
    obtain rfl := Option.some.inj hstep
    exact iff_of_true hback trivial
  | resume k =>
    obtain ⟨u, hu, hawaits, rfl⟩ := step_resume hstep
    exact neverBack_resume_iff hu hinv hordered hback hawaits

/-- The log only grows, so that a cache that has gone back stays so. -/
theorem NeverBack.of_step (hback : w'.NeverBack) (hstep : w.step a = some w') : w.NeverBack := by
  cases a with
  | start answer =>
    obtain rfl := Option.some.inj hstep
    exact hback
  | resume k =>
    obtain ⟨u, -, -, rfl⟩ := step_resume hstep
    exact (List.pairwise_cons.mp hback).2

theorem NeverBack.of_run {as : List PriceCacheAction} (hback : w'.NeverBack)
    (hrun : run PriceCacheWorld.step w as = some w') : w.NeverBack := by
  by_contra hgone
  have hany : RunOk PriceCacheWorld.step (fun _ _ => True) w as := .of_forall fun _ _ _ => trivial
  exact run_invariant (fun s => ¬ s.NeverBack) (fun _ _ _ hs _ hstep hs' => hs (hs'.of_step hstep)) hgone hany
    hrun hback

theorem neverBack_run_iff {as : List PriceCacheAction} (hinv : w.Inv) (hordered : w.Ordered)
    (hback : w.NeverBack) (hnewer : RunOk step StartsNewer w as) (hrun : run step w as = some w') :
    w'.NeverBack ↔ RunOk step InOrder w as := by
  induction as generalizing w with
  | nil =>
    obtain rfl := Option.some.inj hrun
    exact iff_of_true hback trivial
  | cons a as ih =>
    obtain ⟨t, hstep, hrest⟩ := Option.bind_eq_some_iff.mp hrun
    have hiff := neverBack_step_iff hinv hordered hback hstep
    constructor
    · intro hback'
      have hbackt : t.NeverBack := hback'.of_run hrest
      refine ⟨hiff.mp hbackt, fun s hs => ?_⟩
      obtain rfl := Option.some.inj (hstep.symm.trans hs)
      exact (ih (hinv.step hstep) (hordered.step hnewer.1 hstep) hbackt (hnewer.2 t hstep) hrest).mp hback'
    · intro horder
      have hbackt : t.NeverBack := hiff.mpr horder.1
      exact (ih (hinv.step hstep) (hordered.step hnewer.1 hstep) hbackt (hnewer.2 t hstep) hrest).mpr
        (horder.2 t hstep)

theorem Empty.ordered (hempty : w.Empty) : w.Ordered := by
  intro i j u v _ hu
  rw [hempty.2.1] at hu
  cases hu

theorem Empty.neverBack (hempty : w.Empty) : w.NeverBack := by
  rw [NeverBack, hempty.2.2]
  exact List.Pairwise.nil

/-- Reports are right in every run, in whatever order the updates return. -/
theorem reportsOnce_of_run {as : List PriceCacheAction} (hempty : w.Empty)
    (hrun : run step w as = some w') : w'.ReportsOnce := by
  have hany : RunOk step (fun _ _ => True) w as := .of_forall fun _ _ _ => trivial
  have hinv : w'.Inv := run_invariant Inv (fun _ _ _ hs _ hstep => hs.step hstep) hempty.inv hany hrun
  exact ⟨hinv.reported, fun instrument => count_reports hinv.reported instrument⟩

/-- In a run of updates that each carry newer quotes than those before, the cache is right to the end if and
only if no update was overtaken. -/
theorem priceCache_right_iff_inOrder {as : List PriceCacheAction} (hempty : w.Empty)
    (hnewer : RunOk step StartsNewer w as) (hrun : run step w as = some w') :
    w'.NeverBack ∧ w'.ReportsOnce ↔ RunOk step InOrder w as := by
  rw [and_iff_left (reportsOnce_of_run hempty hrun)]
  exact neverBack_run_iff hempty.inv hempty.ordered hempty.neverBack hnewer hrun

end Runs

/-! ### Two ticks at once -/

def emptyCache : PriceCacheWorld := ⟨⟨∅, []⟩, [], []⟩

theorem emptyCache_empty : emptyCache.Empty := ⟨rfl, rfl, rfl⟩

def euroAt (time : Nat) (bid : ℚ) : PriceMap := [⟨"EURUSD", some ⟨bid, bid, time⟩⟩].toAList

/-- Two ticks of the watcher, the second one while the first one awaits its resolver. -/
def twoTicks : List PriceCacheAction :=
  [.start (some (euroAt 1 (11 / 10))), .start (some (euroAt 2 (12 / 10)))]

/-- The resolver of the first tick answers last. -/
theorem overtakenTick_goes_back : ∃ w,
    RunOk step StartsNewer emptyCache (twoTicks ++ [.resume 1, .resume 0]) ∧
    run step emptyCache (twoTicks ++ [.resume 1, .resume 0]) = some w ∧ ¬ w.NeverBack := by
  refine ⟨_, by decide +kernel, rfl, fun hback => ?_⟩
  have hle := (List.pairwise_cons.mp hback).1 (euroAt 2 (12 / 10)) List.mem_cons_self "EURUSD"
    ⟨11 / 10, 11 / 10, 1⟩ rfl ⟨12 / 10, 12 / 10, 2⟩ rfl
  exact absurd hle (by decide)

/-- With their resolvers answering in order both ticks are reported, and the later quote stays. -/
theorem orderlyTicks_right : ∃ w, run step emptyCache (twoTicks ++ [.resume 0, .resume 1]) = some w ∧
    (w.NeverBack ∧ w.ReportsOnce) ∧ w.log.map Prod.snd = [["EURUSD"], ["EURUSD"]] := by
  obtain ⟨w, hrun, htest⟩ := exists_of_run_any step emptyCache (twoTicks ++ [.resume 0, .resume 1])
    (fun w => w.log.map Prod.snd = [["EURUSD"], ["EURUSD"]]) (by decide +kernel)
  have hnewer : RunOk step StartsNewer emptyCache (twoTicks ++ [.resume 0, .resume 1]) := by decide +kernel
  have horder : RunOk step InOrder emptyCache (twoTicks ++ [.resume 0, .resume 1]) := by decide +kernel
  exact ⟨w, hrun, (priceCache_right_iff_inOrder emptyCache_empty hnewer hrun).mpr horder,
    of_decide_eq_true htest⟩

end PriceCacheWorld

end PropFirm
